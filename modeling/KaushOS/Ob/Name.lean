import KaushOS.Library.Paths
import KaushOS.Ob.Object

/-! # Names of objects (`kern/ob/obname.c`, `kern/ob/obdir.c`, `kern/lib/unicode.c`)

A pointer into a path is what is left of the path from there on. The name buffer that the parser
fills is used for every component in turn, and becomes the name of an object that is inserted.

* **`obParseDirectoryPath`** — take the next component off a path.
* **`obpLookupEntryDirectory`, `obpInsertEntryDirectory`** — the entries of one directory.
* **`obpLookupObjectByName`** — the walk from a directory along a path. -/

namespace KaushOS

variable {ω π : Type} [DecidableEq ω]

/-! ## Strings -/

/-- `IsPathSeperator(x)`. -/
def isPathSeperator (x : Char) : Bool := x = '\\' || x = '/'

/-- `strncpy(dst, src, size)`: what `dst` holds afterwards, up to its `'\0'`. -/
def strncpy (src : List Char) (size : Nat) : List Char := src.take size

/-- `strncmp(p, q, n)`. -/
def strncmp : List Char → List Char → Nat → Int
  | _, _, 0 => 0
  | p :: ps, q :: qs, n + 1 => if p = q then strncmp ps qs n else (p.toNat : Int) - q.toNat
  | p :: _, [], _ + 1 => p.toNat
  | [], q :: _, _ + 1 => -(q.toNat : Int)
  | [], [], _ + 1 => 0

/-- `RtlCompareUnicodeString(Str1, Str2, CaseInsensitive)`. -/
def rtlCompareUnicodeString (str1 str2 : UNICODE_STRING) : Kernel Int :=
  if str1.Length > str2.Length then .ok (-1)
  else if str2.Length > str1.Length then .ok 1
  else do
    let p ← deref str1.Buffer
    let q ← deref str2.Buffer
    return strncmp p q str1.Length

/-! ## Parsing -/

/-- `ObParseDirectoryPath(Name, DirName, ParsedTill)`, `none` when it returns `FALSE`. The two
loops skip separators and then run to the end of the component. -/
def obParseDirectoryPath (name : List Char) (dirName : UNICODE_STRING) :
    Kernel (Option (UNICODE_STRING × List Char)) :=
  match name.dropWhile isPathSeperator with
  | [] => .ok none
  | c :: rest => do
    let length := (c :: rest.takeWhile fun c => !isPathSeperator c).length
    assert (length ≤ dirName.MaximumLength) "Length <= DirName->MaximumLength"
    let buffer := strncpy (c :: rest) (min length dirName.MaximumLength)
    return some ({ dirName with Buffer := some buffer, Length := length },
      rest.dropWhile fun c => !isPathSeperator c)

/-! ## Directories -/

/-- `OBP_LOOKUP_CONTEXT`, without the directory lock. -/
structure OBP_LOOKUP_CONTEXT (ω : Type) where
  Directory : Option ω
  Object : Option ω
  LastMountPoint : Option ω
  ParsedTill : Option (List Char)
  deriving DecidableEq, Repr

/-- `ObInitializeLookupContext(Context)`. -/
def obInitializeLookupContext : OBP_LOOKUP_CONTEXT ω := ⟨none, none, none, none⟩

/-- `OB_DIRECTORY_MOUNTPOINT`. -/
def OB_DIRECTORY_MOUNTPOINT : UInt32 := 1

/-- `ObIsMountpointObject(Object)`. -/
def obIsMountpointObject (x : ω) (s : Ob ω π) : Kernel Bool := do
  let isDirectory ← obIsDirectoryObject x s
  return isDirectory && s.Flags x &&& OB_DIRECTORY_MOUNTPOINT ≠ 0

/-- The loop of `ObpLookupEntryDirectory`: the first entry with the name. -/
def lookupEntry (name : UNICODE_STRING) (s : Ob ω π) : List ω → Kernel (Option ω)
  | [] => .ok none
  | x :: xs => do
    let result ← rtlCompareUnicodeString name (s.header x).ObjectName
    if result = 0 then return some x else lookupEntry name s xs

/-- `ObpLookupEntryDirectory(Directory, Name, Context)`. -/
def obpLookupEntryDirectory (directory : ω) (name : UNICODE_STRING)
    (context : OBP_LOOKUP_CONTEXT ω) (s : Ob ω π) : Kernel (KSTATUS × OBP_LOOKUP_CONTEXT ω) := do
  let entry ← lookupEntry name s (s.Head directory)
  match entry with
  | none => return (.STATUS_OBJECT_NAME_NOT_FOUND, context)
  | some x => do
    let context := { context with Directory := some directory, Object := some x }
    let isMountpoint ← obIsMountpointObject x s
    if isMountpoint then
      return (.STATUS_SUCCESS, { context with LastMountPoint := some x })
    else return (.STATUS_SUCCESS, context)

/-- Store to the list of entries of a directory. -/
def Ob.setHead (s : Ob ω π) (d : ω) (entries : List ω) : Ob ω π :=
  { s with Head := Function.update s.Head d entries }

/-- `ObpInsertEntryDirectory(Parent, Context, ObjectHeader)`. -/
def obpInsertEntryDirectory (parent : ω) (context : OBP_LOOKUP_CONTEXT ω) (x : ω) (s : Ob ω π) :
    Kernel (Ob ω π) := do
  let isDirectory ← obIsDirectoryObject parent s
  assert (isDirectory = true) "ObIsDirectoryObject(Parent)"
  assert ((s.header x).DirEntryLinked = false)
    "ObjectHeader->DirectoryEntry.DirEntryLink.Flink == NULL"
  assert (context.Directory = some parent) "Context->Directory == Parent"
  return (s.setHead parent (s.Head parent ++ [x])).setHeader x
    { s.header x with DirEntryLinked := true }

/-! ## Looking up a path -/

/-- What a lookup returns: the status, the context, and the state with the object inserted. -/
abbrev LookupResult (ω π : Type) := KSTATUS × OBP_LOOKUP_CONTEXT ω × Ob ω π

/-- **The loop of `ObpLookupObjectByName`.** Each round with a component takes at least one
character off `namePtr`; `status` is what the previous round left behind. -/
def lookupLoop (insert : Option ω) : Nat → List Char → UNICODE_STRING → Option ω →
    OBP_LOOKUP_CONTEXT ω → KSTATUS → Ob ω π → Kernel (LookupResult ω π)
  | 0, _, _, _, _, _, _ => .error .endlessLoop
  | n + 1, namePtr, dirName, directory, context, status, s => do
    let context := { context with ParsedTill := some namePtr }
    let directory ← deref directory
    let isDirectory ← obIsDirectoryObject directory s
    if isDirectory = false then
      return (.STATUS_OBJECT_PATH_NOT_FOUND,
        { context with Directory := some directory, Object := none }, s)
    else
      let next ← obParseDirectoryPath namePtr dirName
      match next with
      | none => return (status, context, s)
      | some (dirName, parsedTill) => do
        let (status, context) ← obpLookupEntryDirectory directory dirName context s
        if status = .STATUS_OBJECT_NAME_NOT_FOUND then
          let context := { context with Directory := some directory, Object := none }
          -- look ahead, into the same buffer: is this the last component?
          let next ← obParseDirectoryPath parsedTill dirName
          match next with
          | some _ => return (.STATUS_OBJECT_PATH_NOT_FOUND, context, s)
          | none =>
            match insert with
            | some x => do
              let s := s.setHeader x { s.header x with ObjectName := dirName }
              let s ← obpInsertEntryDirectory directory context x s
              return (.STATUS_SUCCESS, context, s)
            | none => return (status, context, s)
        else if parsedTill = [] then return (status, context, s)
        else lookupLoop insert n parsedTill dirName context.Object context status s

/-- `ObpLookupObjectByName(Parent, Name, Context, InsertObjectHeader)`; `buffer` says whether the
name buffer can be allocated. -/
def obpLookupObjectByName (parent : Option ω) (name : List Char) (context : OBP_LOOKUP_CONTEXT ω)
    (insert : Option ω) (buffer : Bool) (s : Ob ω π) : Kernel (LookupResult ω π) := do
  if s.ObRootDirectory = none then
    keBugCheck "Performing named Object Operation before initailizing Root Directory\n"
  else
    assert (parent ≠ none) "Parent"
    if buffer = false then return (.STATUS_INSUFFICIENT_RESOURCES, context, s)
    else
      let dirName := { Length := 0, MaximumLength := MAX_OBJECT_NAME_SIZE, Buffer := some [] }
      lookupLoop insert (name.length + 1) name dirName parent context .STATUS_SUCCESS s

end KaushOS
