/- GID: IcsOs/Sdk/Stdio
   generality: I
   source: sdk/tccsdk.c, sdk/posix.c
   digest: The streams of the SDK with their table of write buffers, against unbuffered streams. -/

import IcsOs.Lib.SlotTable
import IcsOs.Vfs.Buffering

set_option autoImplicit false

namespace IcsOs.Sdk.Stdio

open Function
open Lib.Overlay Lib.SlotTable
open Vfs.Buffering (Byte ByteFile Whence)

/-- A `FILE *` other than the three standard ones. -/
abbrev StreamId := Nat

abbrev FileId := Nat

structure Stored where
  content : Nat → Byte
  size : Nat

/-- The file, the position, and whether `fdopen` made the stream. -/
structure Handle where
  file : FileId
  pos : Nat
  fd : Bool

/-- Files and handles; each kernel call works at once. -/
structure Kernel where
  stored : FileId → Stored
  handle : StreamId → Handle

def Kernel.view (k : Kernel) (s : StreamId) : ByteFile :=
  ⟨(k.stored (k.handle s).file).content, (k.stored (k.handle s).file).size, (k.handle s).pos⟩

def Kernel.put (k : Kernel) (s : StreamId) (f : ByteFile) : Kernel where
  stored := Function.update k.stored (k.handle s).file ⟨f.content, f.size⟩
  handle := Function.update k.handle s { k.handle s with pos := f.pos }

def Kernel.write (k : Kernel) (s : StreamId) (bytes : List Byte) : Kernel :=
  k.put s ((k.view s).write bytes)

def Kernel.move (k : Kernel) (s : StreamId) (pos : Nat) : Kernel :=
  { k with handle := Function.update k.handle s { k.handle s with pos := pos } }

/-- A count, the bytes and the new position. -/
abbrev Reader := ByteFile → Nat → Int × List Byte × Nat

def Kernel.read (reader : Reader) (k : Kernel) (s : StreamId) (n : Nat) :
    Int × List Byte × Kernel :=
  let answer := reader (k.view s) n
  (answer.1, answer.2.1, k.move s answer.2.2)

def Kernel.seek (k : Kernel) (s : StreamId) (offset : Int) (whence : Whence) : Int × Kernel :=
  let answer := (k.view s).seek offset whence
  (answer.1, k.move s answer.2.pos)

/-- A number of bytes as an `int`. -/
def asInt (n : Nat) : Int := (BitVec.ofNat 32 n).toInt

/-- How many bytes a transfer asks the kernel for. -/
def rawSize (fd : Bool) (itemsize noitems : Int) : Nat :=
  if fd then (itemsize * noitems).toNat else (itemsize * noitems % 2 ^ 32).toNat

/-- What `sdk_raw_fwrite` returns for that many bytes. -/
def rawValue (fd : Bool) (itemsize : Int) (bytes : Nat) : Int :=
  if fd then if 0 < asInt bytes then asInt bytes / itemsize else 0 else asInt bytes

def sdkRawFwrite (k : Kernel) (s : StreamId) (buf : Nat → Byte) (itemsize noitems : Int) :
    Int × Kernel :=
  let fd := (k.handle s).fd
  let bytes := rawSize fd itemsize noitems
  if fd = true ∧ (itemsize ≤ 0 ∨ noitems ≤ 0) then (0, k)
  else (rawValue fd itemsize bytes, k.write s (slice buf 0 bytes))

def sdkWriteSlots : Nat := 8

def sdkWriteBufsize : Nat := 4096

/-- The kernel with `sdk_write_buffers`; a slot's bytes are its used part. -/
structure Streams where
  kernel : Kernel
  slots : Table StreamId (List Byte) sdkWriteSlots

def Streams.data (st : Streams) (i : Fin sdkWriteSlots) : List Byte :=
  ((st.slots i).map Prod.snd).getD []

def Streams.store (st : Streams) (i : Fin sdkWriteSlots) (s : StreamId) (data : List Byte) :
    Streams :=
  { st with slots := Function.update st.slots i (some (s, data)) }

def sdkWriteBuffer (st : Streams) (s : StreamId) (create : Bool) :
    Option (Fin sdkWriteSlots) × Streams :=
  match place st.slots s with
  | some i => (some i, st)
  | none =>
    match create, vacant st.slots with
    | true, some i => (some i, st.store i s [])
    | _, _ => (none, st)

/-- No caller uses the value of the last write. -/
def sdkFlushWriteBuffer (st : Streams) (s : StreamId) (release : Bool) : Streams :=
  match place st.slots s with
  | none => st
  | some i =>
    let flushed :=
      if st.data i = [] then st
      else { (st.store i s []) with kernel := st.kernel.write s (st.data i) }
    if release then { flushed with slots := Function.update flushed.slots i none } else flushed

def sdkBufferedWriteBytes (st : Streams) (s : StreamId) : Nat :=
  match place st.slots s with
  | some i => (st.data i).length
  | none => 0

/-- Bytes go behind those of the slot; a full slot is flushed. -/
def append (st : Streams) (s : StreamId) (i : Fin sdkWriteSlots) (bytes : List Byte) : Streams :=
  let longer := st.store i s (st.data i ++ bytes)
  if (st.data i ++ bytes).length = sdkWriteBufsize then sdkFlushWriteBuffer longer s false
  else longer

def fillLoop (s : StreamId) (i : Fin sdkWriteSlots) : Nat → Streams → List Byte → Streams
  | 0, st, _ => st
  | fuel + 1, st, left =>
    if left = [] then st
    else
      let room := sdkWriteBufsize - (st.data i).length
      fillLoop s i fuel (append st s i (left.take room)) (left.drop room)

def fwrite (st : Streams) (s : StreamId) (buf : Nat → Byte) (itemsize noitems : Int) :
    Int × Streams :=
  let total := rawSize false itemsize noitems
  if itemsize ≤ 0 ∨ noitems ≤ 0 then (0, st)
  else if sdkWriteBufsize ≤ total then
    let flushed := sdkFlushWriteBuffer st s false
    let written := sdkRawFwrite flushed.kernel s buf itemsize noitems
    (written.1, { flushed with kernel := written.2 })
  else
    match sdkWriteBuffer st s true with
    | (none, st₁) =>
      let written := sdkRawFwrite st₁.kernel s buf itemsize noitems
      (written.1, { st₁ with kernel := written.2 })
    | (some i, st₁) => (noitems, fillLoop s i total st₁ (slice buf 0 total))

/-- `(char)c`. -/
def charOf (c : Int) : Byte := UInt8.ofNat (c % 256).toNat

def fputc (st : Streams) (s : StreamId) (c : Int) : Int × Streams :=
  match sdkWriteBuffer st s true with
  | (none, st₁) =>
    (c % 256, { st₁ with kernel := (sdkRawFwrite st₁.kernel s (fun _ => charOf c) 1 1).2 })
  | (some i, st₁) => (c % 256, append st₁ s i [charOf c])

/-- A string in memory ends with a zero. -/
def fputs (st : Streams) (s : StreamId) (string : List Byte) : Int × Streams :=
  fwrite st s (fun i => (string[i]?).getD 0) 1 (asInt string.length)

/-- `fread` works on the kernel's side of the stream only. -/
def fread (reader : Reader) (k : Kernel) (s : StreamId) (itemsize noitems : Int) :
    Int × List Byte × Kernel :=
  if itemsize ≤ 0 ∨ noitems ≤ 0 then (0, [], k)
  else
    let got := k.read reader s (rawSize (k.handle s).fd itemsize noitems)
    (if 0 < got.1 then got.1 / itemsize else 0, got.2)

def eof : Int := -1

def fgetc (reader : Reader) (k : Kernel) (s : StreamId) : Int × Kernel :=
  let got := fread reader k s 1 1
  (if got.1 ≠ 1 then eof else (got.2.1.headD 0).toNat, got.2.2)

def ftell (st : Streams) (s : StreamId) : Int :=
  (st.kernel.handle s).pos + sdkBufferedWriteBytes st s

/-- On one stream: `fsync` of a descriptor or the kernel's `fflush`. -/
def fflushValue (k : Kernel) (s : StreamId) : Int := if (k.handle s).fd then 0 else 1

/-- The answer of the kernel's `fseek` is dropped. -/
def seekValue (k : Kernel) (s : StreamId) (answer : Int) : Int :=
  if (k.handle s).fd then if answer < 0 then -1 else 0 else 0

def fseek (st : Streams) (s : StreamId) (offset : Int) (whence : Whence) : Int × Streams :=
  let flushed := sdkFlushWriteBuffer st s false
  let sought := flushed.kernel.seek s offset whence
  (seekValue st.kernel s sought.1, { flushed with kernel := sought.2 })

def ungetc (st : Streams) (s : StreamId) (c : Int) : Int × Streams :=
  if c = eof then (eof, st)
  else
    let pos := ftell st s
    if pos < 0 then (eof, st)
    else
      let sought := fseek st s (pos - 1) .set
      (if sought.1 ≠ 0 then eof else c % 256, sought.2)

/-- `fflush(0)` goes along the slots. -/
def fflushAll (st : Streams) : Streams :=
  (List.finRange sdkWriteSlots).foldl (fun st i =>
    match st.slots i with
    | none => st
    | some (s, _) => sdkFlushWriteBuffer st s false) st

inductive Op
  | fwrite (s : StreamId) (buf : Nat → Byte) (itemsize noitems : Int)
  | fputc (s : StreamId) (c : Int)
  | fputs (s : StreamId) (string : List Byte)
  | fread (s : StreamId) (itemsize noitems : Int)
  | fgetc (s : StreamId)
  | ungetc (s : StreamId) (c : Int)
  | fseek (s : StreamId) (offset : Int) (whence : Whence)
  | ftell (s : StreamId)
  | fflush (s : Option StreamId)
  | fclose (s : StreamId)

/-- A call's value, the bytes it read, and after `fclose` the file. -/
structure Output where
  value : Int
  bytes : List Byte
  file : Option Stored

def number (value : Int) : Output := ⟨value, [], none⟩

def perform (reader : Reader) (st : Streams) : Op → Output × Streams
  | .fwrite s buf itemsize noitems =>
    (number (fwrite st s buf itemsize noitems).1, (fwrite st s buf itemsize noitems).2)
  | .fputc s c => (number (fputc st s c).1, (fputc st s c).2)
  | .fputs s string => (number (fputs st s string).1, (fputs st s string).2)
  | .fread s itemsize noitems =>
    let got := fread reader st.kernel s itemsize noitems
    (⟨got.1, got.2.1, none⟩, { st with kernel := got.2.2 })
  | .fgetc s =>
    let got := fgetc reader st.kernel s
    (number got.1, { st with kernel := got.2 })
  | .ungetc s c => (number (ungetc st s c).1, (ungetc st s c).2)
  | .fseek s offset whence => (number (fseek st s offset whence).1, (fseek st s offset whence).2)
  | .ftell s => (number (ftell st s), st)
  | .fflush none => (number 0, fflushAll st)
  | .fflush (some s) => (number (fflushValue st.kernel s), sdkFlushWriteBuffer st s false)
  | .fclose s =>
    let closed := sdkFlushWriteBuffer st s true
    (⟨0, [], some (closed.kernel.stored (closed.kernel.handle s).file)⟩, closed)

def run (reader : Reader) (st : Streams) : List Op → List Output
  | [] => []
  | op :: rest => (perform reader st op).1 :: run reader (perform reader st op).2 rest

/-- The same calls with every write passed on at once. -/
def fwriteDirect (k : Kernel) (s : StreamId) (buf : Nat → Byte) (itemsize noitems : Int) :
    Int × Kernel :=
  if itemsize ≤ 0 ∨ noitems ≤ 0 then (0, k) else sdkRawFwrite k s buf itemsize noitems

def fputcDirect (k : Kernel) (s : StreamId) (c : Int) : Int × Kernel :=
  (c % 256, (sdkRawFwrite k s (fun _ => charOf c) 1 1).2)

def fseekDirect (k : Kernel) (s : StreamId) (offset : Int) (whence : Whence) : Int × Kernel :=
  (seekValue k s (k.seek s offset whence).1, (k.seek s offset whence).2)

def ungetcDirect (k : Kernel) (s : StreamId) (c : Int) : Int × Kernel :=
  if c = eof then (eof, k)
  else
    let pos : Int := (k.handle s).pos
    if pos < 0 then (eof, k)
    else
      let sought := fseekDirect k s (pos - 1) .set
      (if sought.1 ≠ 0 then eof else c % 256, sought.2)

def direct (reader : Reader) (k : Kernel) : Op → Output × Kernel
  | .fwrite s buf itemsize noitems =>
    (number (fwriteDirect k s buf itemsize noitems).1, (fwriteDirect k s buf itemsize noitems).2)
  | .fputc s c => (number (fputcDirect k s c).1, (fputcDirect k s c).2)
  | .fputs s string =>
    let written := fwriteDirect k s (fun i => (string[i]?).getD 0) 1 (asInt string.length)
    (number written.1, written.2)
  | .fread s itemsize noitems =>
    let got := fread reader k s itemsize noitems
    (⟨got.1, got.2.1, none⟩, got.2.2)
  | .fgetc s => (number (fgetc reader k s).1, (fgetc reader k s).2)
  | .ungetc s c => (number (ungetcDirect k s c).1, (ungetcDirect k s c).2)
  | .fseek s offset whence =>
    (number (fseekDirect k s offset whence).1, (fseekDirect k s offset whence).2)
  | .ftell s => (number (k.handle s).pos, k)
  | .fflush none => (number 0, k)
  | .fflush (some s) => (number (fflushValue k s), k)
  | .fclose s => (⟨0, [], some (k.stored (k.handle s).file)⟩, k)

def runDirect (reader : Reader) (k : Kernel) : List Op → List Output
  | [] => []
  | op :: rest => (direct reader k op).1 :: runDirect reader (direct reader k op).2 rest

/-- The bytes that wait in the slot of a stream. -/
def Streams.pending (st : Streams) (s : StreamId) : List Byte := (lookup st.slots s).getD []

/-- Nothing waits for the stream's file in other streams' slots. -/
def Alone (st : Streams) (s : StreamId) : Prop :=
  ∀ t, t ≠ s → (st.kernel.handle t).file = (st.kernel.handle s).file → st.pending t = []

/-- A write to a slot returns the number of its items, as the kernel's number of bytes must be, and
the size does not wrap through a descriptor. -/
def Counted (st : Streams) (s : StreamId) (itemsize noitems : Int) : Prop :=
  0 < itemsize → 0 < noitems → rawSize false itemsize noitems < sdkWriteBufsize →
    (place st.slots s).isSome = true ∨ (vacant st.slots).isSome = true →
    if (st.kernel.handle s).fd then itemsize * noitems < 2 ^ 32
    else itemsize * noitems % 2 ^ 32 = noitems

/-- A stream is not read while bytes wait in its slot, a used file's bytes wait in one slot only,
and writes are counted alike. -/
def Plain (st : Streams) : Op → Prop
  | .fwrite s _ itemsize noitems => Alone st s ∧ Counted st s itemsize noitems
  | .fputc s _ => Alone st s
  | .fputs s _ => Alone st s
  | .fread s itemsize noitems => 0 < itemsize → 0 < noitems → Alone st s ∧ st.pending s = []
  | .fgetc s => Alone st s ∧ st.pending s = []
  | .fseek s _ whence => whence = .end_ → Alone st s
  | .fclose s => Alone st s
  | _ => True

def PlainRun (reader : Reader) (st : Streams) : List Op → Prop
  | [] => True
  | op :: rest => Plain st op ∧ PlainRun reader (perform reader st op).2 rest

/-- The SDK before the first call. -/
def fresh (k : Kernel) : Streams := ⟨k, fun _ => none⟩

section

variable {k : Kernel} {s t : StreamId} {f g : ByteFile} {bytes : List Byte}

theorem write_append (f : ByteFile) (first second : List Byte) :
    (f.write first).write second = f.write (first ++ second) := by
  by_cases emptyFirst : first = []
  · have unwritten : f.write [] = f := if_pos rfl
    rw [emptyFirst, unwritten, List.nil_append]
  by_cases emptySecond : second = []
  · rw [emptySecond, List.append_nil, ByteFile.write, if_pos rfl]
  have both : first ++ second ≠ [] := List.append_ne_nil_of_left_ne_nil emptyFirst second
  unfold ByteFile.write
  rw [if_neg emptyFirst, if_neg emptySecond, if_neg both]
  ext1
  · exact (overlay_append ..).symm
  · dsimp only
    rw [List.length_append]
    omega
  · dsimp only
    rw [List.length_append]
    omega

theorem view_put (k : Kernel) (s : StreamId) (f : ByteFile) : (k.put s f).view s = f := by
  unfold Kernel.view Kernel.put
  dsimp only
  rw [update_self, update_self]

theorem put_view (k : Kernel) (s : StreamId) : k.put s (k.view s) = k := by
  unfold Kernel.view Kernel.put
  rw [update_eq_self, update_eq_self]

theorem put_file (k : Kernel) (s t : StreamId) (f : ByteFile) :
    ((k.put s f).handle t).file = (k.handle t).file ∧
      ((k.put s f).handle t).fd = (k.handle t).fd := by
  unfold Kernel.put
  dsimp only
  rw [update_apply]
  split
  · rename_i same
    rw [same]
    exact ⟨rfl, rfl⟩
  · exact ⟨rfl, rfl⟩

theorem put_put (k : Kernel) (s : StreamId) (f g : ByteFile) : (k.put s f).put s g = k.put s g := by
  unfold Kernel.put
  dsimp only
  rw [update_self, update_idem, update_idem]

theorem put_handle_other (apart : t ≠ s) : (k.put s f).handle t = k.handle t :=
  update_of_ne apart ..

theorem put_stored_other {F : FileId} (apart : F ≠ (k.handle s).file) :
    (k.put s f).stored F = k.stored F :=
  update_of_ne apart ..

theorem move_file (k : Kernel) (s t : StreamId) (pos : Nat) :
    ((k.move s pos).handle t).file = (k.handle t).file ∧
      ((k.move s pos).handle t).fd = (k.handle t).fd := by
  unfold Kernel.move
  dsimp only
  rw [update_apply]
  split
  · rename_i same
    rw [same]
    exact ⟨rfl, rfl⟩
  · exact ⟨rfl, rfl⟩

theorem view_put_other (apart : (k.handle t).file ≠ (k.handle s).file) :
    (k.put s f).view t = k.view t := by
  have other : t ≠ s := by
    rintro rfl
    exact apart rfl
  unfold Kernel.view
  rw [put_handle_other other, put_stored_other apart]

theorem write_nil (k : Kernel) (s : StreamId) : k.write s [] = k := by
  rw [Kernel.write, ByteFile.write, if_pos rfl, put_view]

theorem view_write (k : Kernel) (s : StreamId) (bytes : List Byte) :
    (k.write s bytes).view s = (k.view s).write bytes := view_put ..

theorem write_write (k : Kernel) (s : StreamId) (first second : List Byte) :
    (k.write s first).write s second = k.write s (first ++ second) := by
  unfold Kernel.write
  rw [view_put, put_put, write_append]

variable {k' : Kernel} {pend : StreamId → List Byte}

/-- A kernel is behind another by bytes waiting in streams, one at most for a file. -/
structure Behind (k : Kernel) (pend : StreamId → List Byte) (k' : Kernel) : Prop where
  file : ∀ s, (k'.handle s).file = (k.handle s).file
  fd : ∀ s, (k'.handle s).fd = (k.handle s).fd
  waiting : ∀ s, pend s ≠ [] → k'.view s = (k.view s).write (pend s)
  idle : ∀ s, pend s = [] → (k'.handle s).pos = (k.handle s).pos
  quiet : ∀ F, (∀ s, (k.handle s).file = F → pend s = []) → k'.stored F = k.stored F
  single : ∀ s t, pend s ≠ [] → pend t ≠ [] → (k.handle s).file = (k.handle t).file → s = t

/-- No other stream of the file has bytes waiting. -/
def Only (k : Kernel) (pend : StreamId → List Byte) (s : StreamId) : Prop :=
  ∀ t, t ≠ s → (k.handle t).file = (k.handle s).file → pend t = []

namespace Behind

section

variable (behind : Behind k pend k')
include behind

theorem pos (s : StreamId) : (k'.handle s).pos = (k.handle s).pos + (pend s).length := by
  by_cases empty : pend s = []
  · rw [behind.idle s empty, empty]
    rfl
  · have shown := congrArg ByteFile.pos (behind.waiting s empty)
    rw [ByteFile.write, if_neg empty] at shown
    exact shown

/-- What the kernel that is ahead shows of a file. -/
theorem view (only : Only k pend s) : k'.view s = (k.view s).write (pend s) := by
  by_cases empty : pend s = []
  · have quiet : ∀ t, (k.handle t).file = (k.handle s).file → pend t = [] := by
      intro t same
      by_cases self : t = s
      · rw [self]
        exact empty
      · exact only t self same
    unfold Kernel.view
    rw [behind.file, behind.quiet _ quiet, behind.idle s empty, empty]
    rfl
  · exact behind.waiting s empty

/-- Bytes that are kept here and written there. -/
theorem append (only : Only k pend s) (bytes : List Byte) :
    Behind k (update pend s (pend s ++ bytes)) (k'.write s bytes) := by
  have shown := behind.view only
  constructor
  case file =>
    intro t
    rw [← behind.file t]
    exact (put_file ..).1
  case fd =>
    intro t
    rw [← behind.fd t]
    exact (put_file ..).2
  case waiting =>
    intro t filled
    rw [update_apply] at filled ⊢
    split
    · rename_i same
      rw [same, view_write, shown, write_append]
    rename_i apart
    rw [if_neg apart] at filled
    have elsewhere : (k'.handle t).file ≠ (k'.handle s).file := by
      rw [behind.file, behind.file]
      exact fun same => filled (only t apart same)
    rw [Kernel.write, view_put_other elsewhere]
    exact behind.waiting t filled
  case idle =>
    intro t empty
    rw [update_apply] at empty
    split at empty
    · rename_i same
      obtain ⟨none, nothing⟩ := List.append_eq_nil_iff.mp empty
      rw [same, nothing, write_nil]
      exact behind.idle s none
    · rename_i apart
      rw [Kernel.write, put_handle_other apart]
      exact behind.idle t empty
  case quiet =>
    intro F none
    by_cases here : F = (k.handle s).file
    · have empty := none s here.symm
      rw [update_self] at empty
      obtain ⟨before, nothing⟩ := List.append_eq_nil_iff.mp empty
      rw [nothing, write_nil]
      apply behind.quiet
      intro t same
      by_cases self : t = s
      · rw [self]
        exact before
      · exact only t self (same.trans here)
    · rw [Kernel.write, put_stored_other (by rw [behind.file]; exact here)]
      apply behind.quiet
      intro t same
      have unchanged := none t same
      rwa [update_of_ne] at unchanged
      rintro rfl
      exact here same.symm
  case single =>
    intro a b first second same
    by_cases left : a = s
    · by_cases right : b = s
      · rw [left, right]
      · rw [update_of_ne right] at second
        exact absurd (only b right (left ▸ same.symm)) second
    rw [update_of_ne left] at first
    by_cases right : b = s
    · exact absurd (only a left (right ▸ same)) first
    · rw [update_of_ne right] at second
      exact behind.single a b first second same

/-- Bytes that waited are written. -/
theorem flush (s : StreamId) : Behind (k.write s (pend s)) (update pend s []) k' := by
  have files : ∀ t, ((k.write s (pend s)).handle t).file = (k.handle t).file :=
    fun t => (put_file ..).1
  constructor
  case file =>
    intro t
    rw [files]
    exact behind.file t
  case fd =>
    intro t
    rw [behind.fd t]
    exact (put_file ..).2.symm
  case waiting =>
    intro t filled
    rw [update_apply] at filled ⊢
    split at filled
    · exact absurd rfl filled
    rename_i apart
    rw [if_neg apart]
    by_cases empty : pend s = []
    · rw [empty, write_nil]
      exact behind.waiting t filled
    have elsewhere : (k.handle t).file ≠ (k.handle s).file :=
      fun same => apart (behind.single t s filled empty same)
    rw [Kernel.write, view_put_other elsewhere]
    exact behind.waiting t filled
  case idle =>
    intro t empty
    rw [update_apply] at empty
    by_cases same : t = s
    · subst same
      rw [behind.pos]
      by_cases none : pend t = []
      · rw [none, write_nil]
        rfl
      · have shown := congrArg ByteFile.pos (view_write k t (pend t))
        rw [ByteFile.write, if_neg none] at shown
        exact shown.symm
    · rw [if_neg same] at empty
      rw [Kernel.write, put_handle_other same]
      exact behind.idle t empty
  case quiet =>
    intro F none
    by_cases here : F = (k.handle s).file
    · subst here
      by_cases empty : pend s = []
      · rw [empty, write_nil]
        apply behind.quiet
        intro t same
        by_cases self : t = s
        · rw [self]
          exact empty
        · have unchanged := none t ((files t).trans same)
          rwa [update_of_ne self] at unchanged
      · have ahead := behind.waiting s empty
        have now := (view_write k s (pend s)).trans ahead.symm
        have content := congrArg ByteFile.content now
        have size := congrArg ByteFile.size now
        unfold Kernel.view at content size
        rw [files, behind.file] at content size
        exact (Stored.mk.injEq .. |>.mpr ⟨content, size⟩).symm
    · rw [Kernel.write, put_stored_other here]
      apply behind.quiet
      intro t same
      have unchanged := none t ((files t).trans same)
      rwa [update_of_ne] at unchanged
      rintro rfl
      exact here same.symm
  case single =>
    intro a b first second same
    rw [files, files] at same
    have left : a ≠ s := by
      rintro rfl
      exact first (update_self ..)
    have right : b ≠ s := by
      rintro rfl
      exact second (update_self ..)
    rw [update_of_ne left] at first
    rw [update_of_ne right] at second
    exact behind.single a b first second same

/-- A write that goes to both kernels. -/
theorem write (only : Only k pend s) (empty : pend s = []) (bytes : List Byte) :
    Behind (k.write s bytes) pend (k'.write s bytes) := by
  have result := (behind.append only bytes).flush s
  rw [update_self, update_idem, empty, List.nil_append] at result
  rwa [← empty, update_eq_self] at result

/-- A stream without waiting bytes moves in both kernels. -/
theorem move (empty : pend s = []) (pos : Nat) : Behind (k.move s pos) pend (k'.move s pos) := by
  have others : ∀ (k : Kernel) t, t ≠ s → (k.move s pos).handle t = k.handle t :=
    fun k t apart => update_of_ne apart ..
  constructor
  case file =>
    intro t
    rw [(move_file ..).1, (move_file ..).1]
    exact behind.file t
  case fd =>
    intro t
    rw [(move_file ..).2, (move_file ..).2]
    exact behind.fd t
  case waiting =>
    intro t filled
    have apart : t ≠ s := by
      rintro rfl
      exact filled empty
    unfold Kernel.view
    rw [others k' t apart, others k t apart]
    exact behind.waiting t filled
  case idle =>
    intro t none
    by_cases same : t = s
    · subst same
      unfold Kernel.move
      dsimp only
      rw [update_self, update_self]
    · rw [others k' t same, others k t same]
      exact behind.idle t none
  case quiet =>
    intro F none
    exact behind.quiet F fun t same => none t ((move_file ..).1.trans same)
  case single =>
    intro a b first second same
    rw [(move_file ..).1, (move_file ..).1] at same
    exact behind.single a b first second same

end

end Behind

variable {st : Streams} {i : Fin sdkWriteSlots} {data : List Byte}

/-- One slot for a stream, not full; the kernel is behind by what waits there. -/
structure Matches (st : Streams) (k' : Kernel) : Prop where
  distinct : Distinct st.slots
  short : ∀ s, (st.pending s).length < sdkWriteBufsize
  behind : Behind st.kernel st.pending k'

theorem pending_of_place (own : place st.slots s = some i) : st.pending s = st.data i := by
  rw [Streams.pending, lookup, own, Option.bind_some]
  rfl

theorem pending_of_missing (missing : place st.slots s = none) : st.pending s = [] := by
  rw [Streams.pending, lookup_of_missing missing]
  rfl

theorem pending_store (distinct : Distinct st.slots) (fits : Fits st.slots i s) :
    (st.store i s data).pending = update st.pending s data := by
  funext t
  rw [update_apply]
  unfold Streams.pending Streams.store
  rw [fits.lookup distinct]
  split <;> rfl

/-- What waits in the slot is written, and nothing waits then. -/
structure Flushed (st st' : Streams) (s : StreamId) : Prop where
  kernel : st'.kernel = st.kernel.write s (st.pending s)
  pending : st'.pending = Function.update st.pending s []
  distinct : Distinct st'.slots

theorem Flushed.refl (distinct : Distinct st.slots) (empty : st.pending s = []) :
    Flushed st st s := by
  refine ⟨?_, ?_, distinct⟩
  · rw [empty, write_nil]
  · rw [← empty, update_eq_self]

/-- Before a slot is given up. -/
theorem flush_own (distinct : Distinct st.slots) (own : place st.slots s = some i) :
    Flushed st (sdkFlushWriteBuffer st s false) s ∧
      place (sdkFlushWriteBuffer st s false).slots s = some i := by
  have fits : Fits st.slots i s := .inr own
  have waits := pending_of_place own
  unfold sdkFlushWriteBuffer
  rw [own]
  dsimp only
  rw [if_neg Bool.false_ne_true]
  split
  · rename_i empty
    exact ⟨Flushed.refl distinct (waits.trans empty), own⟩
  · refine ⟨⟨?_, pending_store distinct fits, fits.distinct distinct []⟩, fits.place distinct []⟩
    rw [waits]

theorem flush_release (own : place st.slots s = some i) :
    sdkFlushWriteBuffer st s true = { (sdkFlushWriteBuffer st s false) with
      slots := update (sdkFlushWriteBuffer st s false).slots i none } := by
  unfold sdkFlushWriteBuffer
  rw [own]
  rfl

theorem flushed (distinct : Distinct st.slots) (s : StreamId) (release : Bool) :
    Flushed st (sdkFlushWriteBuffer st s release) s := by
  cases own : place st.slots s with
  | none =>
    have same : sdkFlushWriteBuffer st s release = st := by rw [sdkFlushWriteBuffer, own]
    rw [same]
    exact Flushed.refl distinct (pending_of_missing own)
  | some i =>
    obtain ⟨before, still⟩ := flush_own distinct own
    cases release with
    | false => exact before
    | true =>
      rw [flush_release own]
      refine ⟨before.kernel, ?_, distinct_release before.distinct⟩
      funext t
      have found := lookup_release before.distinct still t
      have kept := congrFun before.pending t
      rw [update_apply] at kept ⊢
      unfold Streams.pending at kept ⊢
      rw [found]
      split
      · rfl
      · rename_i apart
        rw [if_neg apart] at kept
        exact kept

theorem Matches.flush (same : Matches st k') {st' : Streams} (flushed : Flushed st st' s) :
    Matches st' k' := by
  refine ⟨flushed.distinct, ?_, ?_⟩
  · intro t
    rw [flushed.pending, update_apply]
    split
    · decide
    · exact same.short t
  · rw [flushed.kernel, flushed.pending]
    exact same.behind.flush s

theorem writeBuffer_cases (distinct : Distinct st.slots) (s : StreamId) :
    (sdkWriteBuffer st s true = (none, st) ∧ place st.slots s = none ∧ vacant st.slots = none) ∨
      ∃ i st₁, sdkWriteBuffer st s true = (some i, st₁) ∧
        ((place st.slots s).isSome = true ∨ (vacant st.slots).isSome = true) ∧
        st₁.kernel = st.kernel ∧ st₁.pending = st.pending ∧ Distinct st₁.slots ∧
        place st₁.slots s = some i := by
  unfold sdkWriteBuffer
  cases own : place st.slots s with
  | some i => exact .inr ⟨i, st, rfl, .inl rfl, rfl, rfl, distinct, own⟩
  | none =>
    cases free : vacant st.slots with
    | none => exact .inl ⟨rfl, rfl, rfl⟩
    | some i =>
      have fits : Fits st.slots i s := .inl ⟨vacant_free free, own⟩
      refine .inr ⟨i, st.store i s [], rfl, .inr rfl, rfl, ?_, fits.distinct distinct [],
        fits.place distinct []⟩
      rw [pending_store distinct fits, ← pending_of_missing own, update_eq_self]

theorem Only.transfer {k k₁ : Kernel} {pend pend₁ : StreamId → List Byte} (only : Only k pend s)
    (files : ∀ t, (k₁.handle t).file = (k.handle t).file)
    (others : ∀ t, t ≠ s → pend₁ t = pend t) : Only k₁ pend₁ s := by
  intro t apart shared
  rw [files, files] at shared
  rw [others t apart]
  exact only t apart shared

theorem Matches.append (same : Matches st k') (own : place st.slots s = some i)
    (alone : Alone st s) (room : (st.data i ++ bytes).length ≤ sdkWriteBufsize) :
    Matches (append st s i bytes) (k'.write s bytes) ∧
      place (append st s i bytes).slots s = some i ∧ Alone (append st s i bytes) s := by
  have fits : Fits st.slots i s := .inr own
  have waits := pending_of_place own
  have longer : (st.store i s (st.data i ++ bytes)).pending =
      update st.pending s (st.pending s ++ bytes) := by
    rw [pending_store same.distinct fits, waits]
  have distinct : Distinct (st.store i s (st.data i ++ bytes)).slots :=
    fits.distinct same.distinct _
  have placed : place (st.store i s (st.data i ++ bytes)).slots s = some i :=
    fits.place same.distinct _
  have behind : Behind (st.store i s (st.data i ++ bytes)).kernel
      (st.store i s (st.data i ++ bytes)).pending (k'.write s bytes) := by
    rw [longer]
    exact same.behind.append alone bytes
  have others : ∀ t, t ≠ s → (st.store i s (st.data i ++ bytes)).pending t = st.pending t := by
    intro t apart
    rw [longer, update_of_ne apart]
  unfold Stdio.append
  split
  · -- the slot is full
    obtain ⟨flushed, still⟩ := flush_own distinct placed
    refine ⟨⟨flushed.distinct, ?_, ?_⟩, still, Only.transfer alone ?_ ?_⟩
    · intro t
      rw [flushed.pending, update_apply]
      split
      · decide
      · rename_i apart
        rw [others t apart]
        exact same.short t
    · rw [flushed.kernel, flushed.pending]
      exact behind.flush s
    · intro t
      rw [flushed.kernel]
      exact (put_file ..).1
    · intro t apart
      rw [flushed.pending, update_of_ne apart]
      exact others t apart
  · rename_i notFull
    refine ⟨⟨distinct, ?_, behind⟩, placed, Only.transfer alone (fun t => rfl) others⟩
    intro t
    rw [longer, update_apply]
    split
    · rw [waits]
      omega
    · exact same.short t

/-- The loop of `fwrite` passes all bytes on. -/
theorem Matches.fillLoop {fuel : Nat} (same : Matches st k') (own : place st.slots s = some i)
    (alone : Alone st s) (enough : bytes.length ≤ fuel) :
    Matches (fillLoop s i fuel st bytes) (k'.write s bytes) := by
  induction fuel generalizing st k' bytes with
  | zero =>
    obtain rfl : bytes = [] := List.eq_nil_of_length_eq_zero (by omega)
    rw [write_nil]
    exact same
  | succ fuel ih =>
    rw [Stdio.fillLoop]
    split
    · rename_i empty
      rw [empty, write_nil]
      exact same
    rename_i filled
    have short := same.short s
    rw [pending_of_place own] at short
    have room : (st.data i ++ bytes.take (sdkWriteBufsize - (st.data i).length)).length ≤
        sdkWriteBufsize := by
      rw [List.length_append, List.length_take]
      omega
    obtain ⟨next, still, lonely⟩ := same.append own alone room
    have shorter : (bytes.drop (sdkWriteBufsize - (st.data i).length)).length ≤ fuel := by
      rw [List.length_drop]
      omega
    have rest := ih next still lonely shorter
    rw [write_write, List.take_append_drop] at rest
    exact rest

end

section Calls

variable (reader : Reader) {st : Streams} {k' : Kernel} {s t : StreamId}

theorem asInt_of_lt {n : Nat} (small : n < 2 ^ 31) : asInt n = n := by
  have value : (BitVec.ofNat 32 n).toNat = n := by exact Nat.mod_eq_of_lt (by omega)
  rw [asInt, BitVec.toInt_eq_toNat_of_lt (by omega), value]

theorem asInt_lt (n : Nat) : asInt n < 2 ^ 31 := by
  have bound := BitVec.toInt_lt (x := BitVec.ofNat 32 n)
  exact bound

theorem raw_of_counted {fd : Bool} {itemsize noitems : Int} (positive : 0 < itemsize)
    (some_ : 0 < noitems) (small : rawSize false itemsize noitems < sdkWriteBufsize)
    (counted : if fd then itemsize * noitems < 2 ^ 32 else itemsize * noitems % 2 ^ 32 = noitems) :
    rawSize fd itemsize noitems = rawSize false itemsize noitems ∧
      rawValue fd itemsize (rawSize fd itemsize noitems) = noitems := by
  have product := Int.mul_pos positive some_
  have short : rawSize false itemsize noitems < 2 ^ 31 := small.trans (by decide)
  cases fd with
  | false =>
    refine ⟨rfl, ?_⟩
    have wrapped : itemsize * noitems % 2 ^ 32 = noitems := counted
    change asInt (rawSize false itemsize noitems) = noitems
    rw [asInt_of_lt short]
    change ((itemsize * noitems % 2 ^ 32).toNat : Int) = noitems
    omega
  | true =>
    have bounded : itemsize * noitems < 2 ^ 32 := counted
    have whole : itemsize * noitems % 2 ^ 32 = itemsize * noitems :=
      Int.emod_eq_of_lt product.le bounded
    have same : rawSize true itemsize noitems = rawSize false itemsize noitems := by
      change (itemsize * noitems).toNat = (itemsize * noitems % 2 ^ 32).toNat
      rw [whole]
    refine ⟨same, ?_⟩
    have count : asInt (rawSize true itemsize noitems) = itemsize * noitems := by
      rw [same, asInt_of_lt short]
      change ((itemsize * noitems % 2 ^ 32).toNat : Int) = _
      omega
    change (if 0 < asInt (rawSize true itemsize noitems) then
      asInt (rawSize true itemsize noitems) / itemsize else 0) = noitems
    rw [count, if_pos product, Int.mul_ediv_cancel_left noitems positive.ne']

/-- A write past the slots. -/
theorem Matches.raw (same : Matches st k') (alone : Alone st s) (empty : st.pending s = [])
    (buf : Nat → Byte) (itemsize noitems : Int) :
    (sdkRawFwrite st.kernel s buf itemsize noitems).1 = (sdkRawFwrite k' s buf itemsize noitems).1 ∧
      Matches { st with kernel := (sdkRawFwrite st.kernel s buf itemsize noitems).2 }
        (sdkRawFwrite k' s buf itemsize noitems).2 := by
  unfold sdkRawFwrite
  rw [same.behind.fd]
  dsimp only
  split
  · exact ⟨rfl, same⟩
  · exact ⟨rfl, same.distinct, same.short, same.behind.write alone empty _⟩

theorem Alone.flushed {st' : Streams} (alone : Alone st s) (flushed : Flushed st st' s) :
    Alone st' s := by
  refine Only.transfer alone ?_ ?_
  · intro t
    rw [flushed.kernel]
    exact (put_file ..).1
  · intro t apart
    rw [flushed.pending, update_of_ne apart]

theorem Matches.fwrite (same : Matches st k') (alone : Alone st s) (buf : Nat → Byte)
    {itemsize noitems : Int} (counted : Counted st s itemsize noitems) :
    (fwrite st s buf itemsize noitems).1 = (fwriteDirect k' s buf itemsize noitems).1 ∧
      Matches (Stdio.fwrite st s buf itemsize noitems).2
        (fwriteDirect k' s buf itemsize noitems).2 := by
  unfold Stdio.fwrite fwriteDirect
  by_cases nothing : itemsize ≤ 0 ∨ noitems ≤ 0
  · rw [if_pos nothing, if_pos nothing]
    exact ⟨rfl, same⟩
  rw [if_neg nothing, if_neg nothing]
  obtain ⟨positive, some_⟩ : 0 < itemsize ∧ 0 < noitems := by omega
  split
  · have flush := flushed same.distinct s false
    have empty : (sdkFlushWriteBuffer st s false).pending s = [] := by
      rw [flush.pending, update_self]
    exact (same.flush flush).raw (alone.flushed flush) empty buf itemsize noitems
  have small : rawSize false itemsize noitems < sdkWriteBufsize := by omega
  rcases writeBuffer_cases same.distinct s with ⟨full, missing, -⟩ |
    ⟨i, st₁, found, room, kernel, pending, distinct, own⟩
  · rw [full]
    exact same.raw alone (pending_of_missing missing) buf itemsize noitems
  rw [found]
  have ready : Matches st₁ k' := by
    refine ⟨distinct, ?_, ?_⟩
    · rw [pending]
      exact same.short
    · rw [kernel, pending]
      exact same.behind
  have lonely : Alone st₁ s := by
    unfold Alone
    rw [kernel, pending]
    exact alone
  have fd := same.behind.fd s
  obtain ⟨size, value⟩ := raw_of_counted positive some_ small (counted positive some_ small room)
  have enough : (slice buf 0 (rawSize false itemsize noitems)).length ≤
      rawSize false itemsize noitems := (length_slice ..).le
  have filled := ready.fillLoop own lonely enough
  unfold sdkRawFwrite
  rw [fd]
  rw [if_neg fun wrong => nothing wrong.2, value, size]
  exact ⟨rfl, filled⟩

theorem counted_bytes (st : Streams) (s : StreamId) (n : Nat) : Counted st s 1 (asInt n) := by
  intro _ positive _ _
  have bound := asInt_lt n
  split
  · omega
  · omega

theorem Matches.fputc (same : Matches st k') (alone : Alone st s) (c : Int) :
    (fputc st s c).1 = (fputcDirect k' s c).1 ∧
      Matches (Stdio.fputc st s c).2 (fputcDirect k' s c).2 := by
  unfold Stdio.fputc fputcDirect
  rcases writeBuffer_cases same.distinct s with ⟨full, missing, -⟩ |
    ⟨i, st₁, found, -, kernel, pending, distinct, own⟩
  · rw [full]
    exact ⟨rfl, (same.raw alone (pending_of_missing missing) _ 1 1).2⟩
  rw [found]
  refine ⟨rfl, ?_⟩
  have ready : Matches st₁ k' := by
    refine ⟨distinct, ?_, ?_⟩
    · rw [pending]
      exact same.short
    · rw [kernel, pending]
      exact same.behind
  have lonely : Alone st₁ s := by
    unfold Alone
    rw [kernel, pending]
    exact alone
  have short := ready.short s
  rw [pending_of_place own] at short
  have room : (st₁.data i ++ [charOf c]).length ≤ sdkWriteBufsize := by
    rw [List.length_append]
    exact short
  have appended := (ready.append own lonely room).1
  have one : (sdkRawFwrite k' s (fun _ => charOf c) 1 1).2 = k'.write s [charOf c] := by
    unfold sdkRawFwrite
    cases (k'.handle s).fd <;> rfl
  rw [one]
  exact appended

theorem Matches.fread (same : Matches st k') {itemsize noitems : Int}
    (clean : 0 < itemsize → 0 < noitems → Alone st s ∧ st.pending s = []) :
    (fread reader st.kernel s itemsize noitems).1 = (fread reader k' s itemsize noitems).1 ∧
      (fread reader st.kernel s itemsize noitems).2.1 = (fread reader k' s itemsize noitems).2.1 ∧
      Matches { st with kernel := (fread reader st.kernel s itemsize noitems).2.2 }
        (fread reader k' s itemsize noitems).2.2 := by
  unfold Stdio.fread
  split
  · exact ⟨rfl, rfl, same⟩
  obtain ⟨positive, some_⟩ : 0 < itemsize ∧ 0 < noitems := by omega
  obtain ⟨alone, empty⟩ := clean positive some_
  have shown : k'.view s = st.kernel.view s := by
    rw [same.behind.view alone, empty]
    rfl
  unfold Kernel.read
  rw [shown, same.behind.fd]
  exact ⟨rfl, rfl, same.distinct, same.short, same.behind.move empty _⟩

theorem Matches.fgetc (same : Matches st k') (alone : Alone st s) (empty : st.pending s = []) :
    (fgetc reader st.kernel s).1 = (fgetc reader k' s).1 ∧
      Matches { st with kernel := (fgetc reader st.kernel s).2 } (fgetc reader k' s).2 := by
  have clean : (0 : Int) < 1 → (0 : Int) < 1 → Alone st s ∧ st.pending s = [] :=
    fun _ _ => ⟨alone, empty⟩
  obtain ⟨value, bytes, next⟩ := same.fread reader clean
  unfold Stdio.fgetc
  dsimp only
  rw [value, bytes]
  exact ⟨rfl, next⟩

theorem ftell_eq (st : Streams) (s : StreamId) :
    ftell st s = (st.kernel.handle s).pos + ((st.pending s).length : Int) := by
  unfold ftell sdkBufferedWriteBytes
  cases own : place st.slots s with
  | none =>
    rw [pending_of_missing own]
    rfl
  | some i => rw [pending_of_place own]

theorem Matches.ftell (same : Matches st k') (s : StreamId) :
    ftell st s = ((k'.handle s).pos : Int) := by
  rw [ftell_eq, same.behind.pos s]
  omega

theorem seek_congr {f g : ByteFile} (offset : Int) {whence : Whence} (pos : f.pos = g.pos)
    (size : whence = .end_ → f.size = g.size) :
    (f.seek offset whence).1 = (g.seek offset whence).1 ∧
      (f.seek offset whence).2.pos = (g.seek offset whence).2.pos := by
  have target : Vfs.Buffering.seekTarget f.pos f.size offset whence =
      Vfs.Buffering.seekTarget g.pos g.size offset whence := by
    cases whence with
    | set => rfl
    | cur => rw [pos]; rfl
    | end_ => rw [size rfl]; rfl
  unfold ByteFile.seek
  dsimp only
  rw [target]
  split
  · exact ⟨rfl, pos⟩
  · exact ⟨rfl, rfl⟩

section

variable (same : Matches st k')
include same

theorem Matches.fseek (offset : Int) {whence : Whence} (alone : whence = .end_ → Alone st s) :
    (fseek st s offset whence).1 = (fseekDirect k' s offset whence).1 ∧
      Matches (Stdio.fseek st s offset whence).2 (fseekDirect k' s offset whence).2 := by
  have flush := flushed same.distinct s false
  have next := same.flush flush
  have empty : (sdkFlushWriteBuffer st s false).pending s = [] := by rw [flush.pending, update_self]
  have size : whence = .end_ →
      ((sdkFlushWriteBuffer st s false).kernel.view s).size = (k'.view s).size := by
    intro last
    rw [next.behind.view ((alone last).flushed flush), empty]
    rfl
  have pos : ((sdkFlushWriteBuffer st s false).kernel.view s).pos = (k'.view s).pos :=
    (next.behind.idle s empty).symm
  obtain ⟨answer, arrival⟩ := seek_congr offset pos size
  unfold Stdio.fseek fseekDirect seekValue Kernel.seek
  dsimp only
  rw [answer, arrival, same.behind.fd]
  exact ⟨rfl, next.distinct, next.short, next.behind.move empty _⟩

theorem Matches.ungetc (c : Int) :
    (ungetc st s c).1 = (ungetcDirect k' s c).1 ∧
      Matches (Stdio.ungetc st s c).2 (ungetcDirect k' s c).2 := by
  unfold Stdio.ungetc ungetcDirect
  dsimp only
  rw [same.ftell]
  split
  · exact ⟨rfl, same⟩
  split
  · exact ⟨rfl, same⟩
  have absolute : Whence.set = .end_ → Alone st s := nofun
  obtain ⟨value, next⟩ := same.fseek (((k'.handle s).pos : Int) - 1) absolute
  rw [value]
  exact ⟨rfl, next⟩

theorem Matches.fflushAll : Matches (fflushAll st) k' := by
  unfold Stdio.fflushAll
  induction List.finRange sdkWriteSlots generalizing st with
  | nil => exact same
  | cons i rest ih =>
    rw [List.foldl_cons]
    apply ih
    split
    · exact same
    · rename_i s _ _
      exact same.flush (flushed same.distinct s false)

/-- One call. -/
theorem Matches.perform {op : Op} (plain : Plain st op) :
    (perform reader st op).1 = (direct reader k' op).1 ∧
      Matches (Stdio.perform reader st op).2 (direct reader k' op).2 := by
  cases op with
  | fwrite s buf itemsize noitems =>
    obtain ⟨value, next⟩ := same.fwrite plain.1 buf plain.2
    exact ⟨congrArg number value, next⟩
  | fputc s c =>
    obtain ⟨value, next⟩ := same.fputc plain c
    exact ⟨congrArg number value, next⟩
  | fputs s string =>
    obtain ⟨value, next⟩ := same.fwrite plain (fun i => (string[i]?).getD 0)
      (counted_bytes st s string.length)
    exact ⟨congrArg number value, next⟩
  | fread s itemsize noitems =>
    obtain ⟨value, bytes, next⟩ := same.fread reader plain
    refine ⟨?_, next⟩
    exact congrArg₂ (fun value bytes => Output.mk value bytes none) value bytes
  | fgetc s =>
    obtain ⟨value, next⟩ := same.fgetc reader plain.1 plain.2
    exact ⟨congrArg number value, next⟩
  | ungetc s c =>
    obtain ⟨value, next⟩ := same.ungetc (s := s) c
    exact ⟨congrArg number value, next⟩
  | fseek s offset whence =>
    obtain ⟨value, next⟩ := same.fseek offset plain
    exact ⟨congrArg number value, next⟩
  | ftell s => exact ⟨congrArg number (same.ftell s), same⟩
  | fflush s =>
    cases s with
    | none => exact ⟨rfl, same.fflushAll⟩
    | some s =>
      refine ⟨congrArg number ?_, same.flush (flushed same.distinct s false)⟩
      unfold fflushValue
      rw [same.behind.fd]
  | fclose s =>
    have flush := flushed same.distinct s true
    have next := same.flush flush
    have alone : Alone st s := plain
    have lonely := alone.flushed flush
    have quiet : ∀ t, ((sdkFlushWriteBuffer st s true).kernel.handle t).file =
        ((sdkFlushWriteBuffer st s true).kernel.handle s).file →
        (sdkFlushWriteBuffer st s true).pending t = [] := by
      intro t shared
      by_cases self : t = s
      · rw [self, flush.pending, update_self]
      · exact lonely t self shared
    refine ⟨?_, next⟩
    have file := next.behind.quiet _ quiet
    rw [← next.behind.file] at file
    change Output.mk 0 [] (some _) = Output.mk 0 [] (some _)
    rw [file, ← next.behind.file]

end

theorem fresh_matches (k : Kernel) : Matches (fresh k) k := by
  have none : ∀ s, (fresh k).pending s = [] := by
    intro s
    apply pending_of_missing
    exact List.find?_eq_none.mpr fun i _ => Bool.false_ne_true
  refine ⟨nofun, ?_, ?_⟩
  · intro s
    rw [none]
    decide
  · exact ⟨fun _ => rfl, fun _ => rfl, fun s filled => absurd (none s) filled, fun _ _ => rfl,
      fun _ _ => rfl, fun s _ filled => absurd (none s) filled⟩

theorem Matches.run (same : Matches st k') (ops : List Op) (plain : PlainRun reader st ops) :
    run reader st ops = runDirect reader k' ops := by
  induction ops generalizing st k' with
  | nil => rfl
  | cons op rest ih =>
    obtain ⟨output, next⟩ := same.perform reader plain.1
    rw [Stdio.run, runDirect, output, ih next plain.2]

/-- Over such calls values, bytes read and files after `fclose` are those of unbuffered streams. -/
theorem buffers_stay_unseen (reader : Reader) (k : Kernel) (ops : List Op)
    (plain : PlainRun reader (fresh k) ops) :
    run reader (fresh k) ops = runDirect reader k ops :=
  (fresh_matches k).run reader ops plain

/-- A kernel's read, and files of two bytes, each with one stream. -/
def readBytes : Reader := fun f n =>
  (min n (f.size - f.pos), slice f.content f.pos (min n (f.size - f.pos)),
    f.pos + min n (f.size - f.pos))

def twoBytes : Kernel where
  stored _ := ⟨fun i => UInt8.ofNat (i + 1), 2⟩
  handle s := ⟨s, 0, false⟩

theorem buffers_stay_unseen_flushed :
    run readBytes (fresh twoBytes) [.fgetc 0, .fputc 0 9, .fflush (some 0), .ftell 0] =
      runDirect readBytes twoBytes [.fgetc 0, .fputc 0 9, .fflush (some 0), .ftell 0] := by
  refine buffers_stay_unseen readBytes twoBytes _ ⟨⟨?_, rfl⟩, ?_, trivial, trivial, trivial⟩
  · exact fun t apart shared => absurd shared apart
  intro t apart shared
  rw [show (perform readBytes (fresh twoBytes) (.fgetc 0)).2.kernel = twoBytes.move 0 1 from rfl,
    (move_file ..).1, (move_file ..).1] at shared
  exact absurd shared apart

/-- A waiting byte is not passed over by a read, and two items of four bytes count as two or eight.
-/
theorem waiting_byte_passed_by :
    run readBytes (fresh twoBytes) [.fputc 0 9, .fgetc 0] ≠
        runDirect readBytes twoBytes [.fputc 0 9, .fgetc 0] ∧
      run readBytes (fresh twoBytes) [.fwrite 0 (fun _ => 7) 4 2] ≠
        runDirect readBytes twoBytes [.fwrite 0 (fun _ => 7) 4 2] := by
  have read : (run readBytes (fresh twoBytes) [.fputc 0 9, .fgetc 0]).map Output.value ≠
      (runDirect readBytes twoBytes [.fputc 0 9, .fgetc 0]).map Output.value := by
    decide +kernel
  have written : (run readBytes (fresh twoBytes) [.fwrite 0 (fun _ => 7) 4 2]).map Output.value ≠
      (runDirect readBytes twoBytes [.fwrite 0 (fun _ => 7) 4 2]).map Output.value := by
    decide +kernel
  exact ⟨fun same => read (congrArg (List.map Output.value) same),
    fun same => written (congrArg (List.map Output.value) same)⟩

end Calls

end IcsOs.Sdk.Stdio
