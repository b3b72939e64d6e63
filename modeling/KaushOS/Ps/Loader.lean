import KaushOS.Library.Traced
import KaushOS.Mm.PageRuns
import Mathlib.Algebra.Group.Nat.Defs

/-! # Loading a program (`kern/ps/loader.c`, `inc/elf.h`)

`ELFBinaryLoader` maps and fills the segments of a program whose file is in kernel memory. It runs in the
kernel, attached to the new process, so that every address that it uses, in the file and in the
program, is translated through the loaded page directory; a page that is not present faults. `CR0.WP` is
not set, so that the kernel may write to every page that is present.

* **`Access`** — what the loader does to memory; every computation below keeps a record of it.
* **`loadByte`, `storeByte`, `memcpy`, `mapSegment`** — the memory.
* **`headerChecks`, `loadSegment`, `elfBinaryLoader`** — the loader.

The other `ELFBinaryLoader`, with `ELFValidateSegment`, is not compiled. A field is read where the source
reads it, byte by byte. -/

namespace KaushOS.Loader

open Paging

/-! ## Memory -/

/-- **What the loader does to memory**: it reads a byte, maps a page, and writes a byte. -/
inductive Access
  | read (address : Nat)
  | map (address : Nat)
  | write (address : Nat)
  deriving DecidableEq, Repr

/-- Kernel computations with a record of their accesses. -/
abbrev Load (α : Type) := Traced Access BugCheck α

/-- A page is present. -/
def Present (s : State) (address : Nat) : Prop :=
  (s.pde address).Valid = true ∧ (s.pte address).Valid = true

instance (s : State) (address : Nat) : Decidable (Present s address) :=
  inferInstanceAs (Decidable (_ ∧ _))

/-- The byte at an address. -/
def byteAt (s : State) (address : Nat) : BitVec 8 := s.ram (s.physical address) (address % PGSIZE)

/-- A byte is read; a page that is not present faults first. -/
def loadByte (address : Nat) (s : State) : Load (BitVec 8) := do
  Traced.access (.read address)
  if Present s address then return byteAt s address
  else do
    let s ← Traced.lift (mmPfHandler address s)
    return byteAt s address

/-- A byte is written. -/
def storeByte (address : Nat) (b : BitVec 8) (s : State) : Load State := do
  Traced.access (.write address)
  if Present s address then return s.storeByte address b
  else do
    let s ← Traced.lift (mmPfHandler address s)
    return s.storeByte address b

/-- A little-endian number of `n` bytes is read. -/
def loadBytes : Nat → Nat → State → Load Nat
  | 0, _, _ => pure 0
  | n + 1, address, s => do
    let b ← loadByte address s
    let rest ← loadBytes n (ulongAdd address 1) s
    return b.toNat + 256 * rest

/-- `n` bytes are cleared. -/
def storeZeros : Nat → Nat → State → Load State
  | 0, _, s => pure s
  | n + 1, address, s => do
    let s ← storeByte address 0 s
    storeZeros n (ulongAdd address 1) s

/-- `memcpy(dst, src, n)`. -/
def memcpy : Nat → Nat → Nat → State → Load State
  | 0, _, _, s => pure s
  | n + 1, dst, src, s => do
    let b ← loadByte src s
    let s ← storeByte dst b s
    memcpy n (ulongAdd dst 1) (ulongAdd src 1) s

/-- The loop of `MmMapSegment`, one page after the other. -/
def mapPages (directory perm : Nat) : Nat → Nat → State → Load State
  | 0, _, s => pure s
  | n + 1, vAddr, s => do
    Traced.access (.map vAddr)
    let s ← Traced.lift (mapSegmentLoop directory perm 1 vAddr s)
    mapPages directory perm n (vAddr + PGSIZE) s

/-- The first page of a segment. -/
def vaStart (address : Nat) : Nat := roundDown address PGSIZE

/-- The end of the pages of a segment. -/
def vaEnd (address length : Nat) : Nat := roundUp (ulongAdd address length) PGSIZE

/-- `MmMapSegment(PageDirectory, Address, Length, Perm)`, with a record of the pages. -/
def mapSegment (directory address length perm : Nat) (s : State) : Load State :=
  mapPages directory perm ((vaEnd address length - vaStart address) / PGSIZE) (vaStart address) s

/-- The pages, one after the other, are those of the loop of `MmMapSegment`. -/
theorem mapPages_result (directory perm n a : Nat) (s : State) :
    (mapPages directory perm n a s).result = mapSegmentLoop directory perm n a s := by
  induction n generalizing a s with
  | zero => rfl
  | succ n ih =>
    have hone : (Traced.access (Access.map a) : Load Unit).result = .ok () := rfl
    rw [mapPages, Traced.bind_of_ok hone, Nat.add_comm n 1, mapSegmentLoop_add, Nat.one_mul]
    refine (Traced.bind_result ..).trans ?_
    congr 1
    funext s'
    exact ih (a + PGSIZE) s'

/-- **`mapSegment` is `MmMapSegment`.** -/
theorem mapSegment_result (directory address length perm : Nat) (s : State) :
    (mapSegment directory address length perm s).result
      = mmMapSegment directory address length perm s :=
  mapPages_result ..

/-! ## The file -/

/-- `ELF_MAGIC`. -/
def ELF_MAGIC : Nat := 0x464C457F

/-- `sizeof(struct Proghdr)`. -/
def sizeofProghdr : Nat := 32

/-- A field of `struct Elf`, and what the loader accepts in it. -/
structure HeaderCheck where
  offset : Nat
  width : Nat
  accepts : Nat → Bool

/-- The fields `e_type`, `e_machine`, `e_version`, `e_phentsize` and `e_phnum`, in the order in which
they are tested. -/
def headerChecks : List HeaderCheck :=
  [⟨16, 2, (· = 2)⟩, ⟨18, 2, (· = 3)⟩, ⟨20, 4, (· = 1)⟩, ⟨42, 2, (· = sizeofProghdr)⟩,
    ⟨44, 2, (· ≤ 1024)⟩]

/-- A field of `struct Elf` is read. -/
def loadField (binary offset width : Nat) (s : State) : Load Nat :=
  loadBytes width (ulongAdd binary offset) s

/-- The fields are tested one after the other, up to the first one that is not accepted. -/
def acceptsFields (binary : Nat) (s : State) : List HeaderCheck → Load Bool
  | [] => pure true
  | check :: rest => do
    let value ← loadField binary check.offset check.width s
    if check.accepts value then acceptsFields binary s rest else return false

/-- The conditions on `struct Elf`. -/
def checkHeader (binary : Nat) (s : State) : Load Unit := do
  let e_magic ← loadField binary 0 4 s
  if e_magic ≠ ELF_MAGIC then Traced.lift (keBugCheck "Not an ELF binary\n")
  else do
    let accepted ← acceptsFields binary s headerChecks
    if accepted then return ()
    else Traced.lift (keBugCheck "Not an ELF binary 2\n")

/-- `ph->p_offset`. -/
def p_offset (ph : Nat) (s : State) : Load Nat := loadField ph 4 4 s

/-- `ph->p_va`. -/
def p_va (ph : Nat) (s : State) : Load Nat := loadField ph 8 4 s

/-- `ph->p_filesz`. -/
def p_filesz (ph : Nat) (s : State) : Load Nat := loadField ph 16 4 s

/-- `ph->p_memsz`. -/
def p_memsz (ph : Nat) (s : State) : Load Nat := loadField ph 20 4 s

/-! ## The loader -/

/-- `for (i = ...; i < ph->p_memsz; i++) *(uintptr_t *)i = 0`. The first argument bounds the passes; `i`
stays below `p_memsz`, so that `ULONG_VALUES - i` of them are enough. -/
def zeroLoop (ph : Nat) : Nat → Nat → State → Load State
  | 0, _, s => pure s
  | n + 1, i, s => do
    let memsz ← p_memsz ph s
    if i < memsz then do
      let s ← storeZeros 4 i s
      zeroLoop ph n (ulongAdd i 1) s
    else return s

/-- `ELFBinaryLoader`, a segment is filled. -/
def fillSegment (binary ph : Nat) (s : State) : Load State := do
  let va ← p_va ph s
  let offset ← p_offset ph s
  let filesz ← p_filesz ph s
  let s ← memcpy filesz va (ulongAdd binary offset) s
  let va ← p_va ph s
  let filesz ← p_filesz ph s
  zeroLoop ph (ULONG_VALUES - ulongAdd va filesz) (ulongAdd va filesz) s

/-- `ELFBinaryLoader`, the body of the loop: a segment is mapped and filled. -/
def loadSegment (directory binary ph : Nat) (s : State) : Load State := do
  let va ← p_va ph s
  let memsz ← p_memsz ph s
  let s ← mapSegment directory va memsz (PTE_W ||| PTE_U) s
  let filesz ← p_filesz ph s
  let memsz ← p_memsz ph s
  if filesz > memsz then Traced.lift (keBugCheck "Bad ELF binary")
  else fillSegment binary ph s

/-- `ELFBinaryLoader`, the loop over the program headers. -/
def loadSegments (directory binary : Nat) : Nat → Nat → State → Load State
  | 0, _, s => pure s
  | n + 1, ph, s => do
    let s ← loadSegment directory binary ph s
    loadSegments directory binary n (ulongAdd ph sizeofProghdr) s

/-- `ELFBinaryLoader`, after the header has been tested: the segments, and the entry point. The loop runs
while `ph < eph`, and `eph` may have wrapped around. -/
def loadProgram (directory binary : Nat) (s : State) : Load (Nat × State) := do
  let e_phoff ← loadField binary 28 4 s
  let e_phnum ← loadField binary 44 2 s
  let ph := ulongAdd binary e_phoff
  let eph := ulongAdd ph (e_phnum * sizeofProghdr)
  let s ← loadSegments directory binary ((eph - ph) / sizeofProghdr) ph s
  let e_entry ← loadField binary 24 4 s
  return (e_entry, s)

/-- `ELFBinaryLoader(Process, Binary, size)`, where `directory` is `DirectoryTableBase` of the process: the
entry point, which is stored to `ProcessEntryPoint`. The size is not used. -/
def elfBinaryLoader (directory binary _size : Nat) (s : State) : Load (Nat × State) := do
  checkHeader binary s
  loadProgram directory binary s

end KaushOS.Loader
