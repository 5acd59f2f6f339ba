/- GID: IcsOs/Vfs/Buffering
   generality: I
   source: kernel/vfs/vfs_core.c, kernel/vfs/vfs_core.h
   digest: One buffer for reads and writes, bypassed by large transfers, over a byte-array file. -/

import Mathlib.Algebra.Group.Int.Defs
import Mathlib.Algebra.Group.Nat.Defs
import IcsOs.Lib.Overlay

set_option autoImplicit false

namespace IcsOs.Vfs.Buffering

open List
open Lib.Overlay

abbrev Byte := UInt8

/-- `FILE_IOFBF`, `FILE_IOLBF` and `FILE_IONBF`. -/
inductive BufferType
  | full
  | line
  | none
  deriving DecidableEq

def fileBufsize : Nat := 1024

/-- An open handle with the stored file; the buffer has `endsize` bytes from `startptr`. -/
structure Handle where
  store : Nat → Byte
  size : Nat
  ptrlow : Nat
  buffertype : BufferType
  bufsize : Nat
  buffer : List Byte
  startptr : Nat
  bufferwrite : Bool

def Handle.endsize (h : Handle) : Nat := h.buffer.length

def Handle.unbuffered (h : Handle) : Bool := decide (h.buffertype = .none)

/-- Past the end the difference wraps to a negative count. -/
def vfsDirectread (h : Handle) (n : Nat) : Int × List Byte × Handle :=
  if h.size ≤ h.ptrlow + n then
    ((h.size : Int) - h.ptrlow, slice h.store h.ptrlow (h.size - h.ptrlow),
      { h with ptrlow := h.size })
  else (n, slice h.store h.ptrlow n, { h with ptrlow := h.ptrlow + n })

/-- `vfs_directwrite` on a device with room. -/
def vfsDirectwrite (h : Handle) (bytes : List Byte) : Handle :=
  { h with
    store := overlay h.store h.ptrlow bytes
    size := if h.size ≤ h.ptrlow + bytes.length then h.ptrlow + bytes.length else h.size
    ptrlow := h.ptrlow + bytes.length }

def vfsFlushbuffer (h : Handle) : Handle :=
  if h.unbuffered = false ∧ h.buffer ≠ [] ∧ h.bufferwrite = true then
    { vfsDirectwrite { h with ptrlow := h.startptr } h.buffer with
      ptrlow := h.ptrlow
      buffer := []
      bufferwrite := false }
  else h

def fflush (h : Handle) : Handle := if h.bufsize = 0 then h else vfsFlushbuffer h

def refill (h : Handle) : Handle :=
  let sizeToRead := if h.size - h.ptrlow < h.bufsize then h.size - h.ptrlow else h.bufsize
  { h with
    startptr := h.ptrlow
    buffer := slice h.store h.ptrlow sizeToRead }

def vfsReadchar (h : Handle) : Option Byte × Handle :=
  if h.size ≤ h.ptrlow then (none, h)
  else if h.unbuffered then
    (some (h.store h.ptrlow), { h with ptrlow := h.ptrlow + 1 })
  else if h.startptr ≤ h.ptrlow ∧ h.ptrlow < h.startptr + h.endsize then
    (some ((h.buffer[h.ptrlow - h.startptr]?).getD 0), { h with ptrlow := h.ptrlow + 1 })
  else
    let h' := refill (vfsFlushbuffer h)
    (some ((h'.buffer[0]?).getD 0), { h' with ptrlow := h.ptrlow + 1 })

def newline : Byte := 10

def vfsWritechar (h : Handle) (character : Byte) : Handle :=
  if h.unbuffered then vfsDirectwrite h [character]
  else if h.ptrlow = h.startptr + h.endsize ∧ h.endsize < h.bufsize ∧
      (character ≠ newline ∨ h.buffertype = .full) then
    { h with
      buffer := h.buffer ++ [character]
      ptrlow := h.ptrlow + 1
      bufferwrite := true }
  else
    { vfsFlushbuffer h with
      startptr := h.ptrlow
      bufferwrite := true
      buffer := [character]
      ptrlow := h.ptrlow + 1 }

def readLoop (h : Handle) : Nat → List Byte × Handle
  | 0 => ([], h)
  | n + 1 =>
    match vfsReadchar h with
    | (none, h') => ([], h')
    | (some character, h') =>
      let rest := readLoop h' n
      (character :: rest.1, rest.2)

def fread (h : Handle) (n : Nat) : Int × List Byte × Handle :=
  if fileBufsize < n then vfsDirectread (fflush h) n
  else
    let got := readLoop h n
    (got.1.length, got)

def fwrite (h : Handle) (bytes : List Byte) : Handle :=
  if fileBufsize < bytes.length then vfsDirectwrite (fflush h) bytes
  else bytes.foldl vfsWritechar h

inductive Whence
  | set
  | cur
  | end_

/-- Where a seek goes from the given position and size. -/
def seekTarget (ptrlow size : Nat) (offset : Int) : Whence → Int
  | .set => offset
  | .cur => ptrlow + offset
  | .end_ => size + offset

def fseek (h : Handle) (offset : Int) (whence : Whence) : Int × Handle :=
  let pos := seekTarget h.ptrlow h.size offset whence
  if pos < 0 then (-1, h) else (0, { h with ptrlow := pos.toNat })

inductive Op
  | fread (n : Nat)
  | fwrite (bytes : List Byte)
  | fseek (offset : Int) (whence : Whence)
  | fflush
  | ftell

/-- What a call returns: a number, and for a read the bytes. -/
structure Output where
  value : Int
  bytes : List Byte
  deriving DecidableEq

def perform (h : Handle) : Op → Output × Handle
  | .fread n => (⟨(fread h n).1, (fread h n).2.1⟩, (fread h n).2.2)
  | .fwrite bytes => (⟨bytes.length, []⟩, fwrite h bytes)
  | .fseek offset whence => (⟨(fseek h offset whence).1, []⟩, (fseek h offset whence).2)
  | .fflush => (⟨1, []⟩, fflush h)
  | .ftell => (⟨h.ptrlow, []⟩, h)

def run (h : Handle) : List Op → List Output × Handle
  | [] => ([], h)
  | op :: rest => ((perform h op).1 :: (run (perform h op).2 rest).1, (run (perform h op).2 rest).2)

/-- Bytes with a position; beyond the size are the device's. -/
@[ext] structure ByteFile where
  content : Nat → Byte
  size : Nat
  pos : Nat

def ByteFile.read (f : ByteFile) (n : Nat) : List Byte × ByteFile :=
  (slice f.content f.pos (min n (f.size - f.pos)), { f with pos := f.pos + min n (f.size - f.pos) })

def ByteFile.write (f : ByteFile) (bytes : List Byte) : ByteFile :=
  if bytes = [] then f
  else
    { content := overlay f.content f.pos bytes
      size := max f.size (f.pos + bytes.length)
      pos := f.pos + bytes.length }

def ByteFile.seek (f : ByteFile) (offset : Int) (whence : Whence) : Int × ByteFile :=
  let pos := seekTarget f.pos f.size offset whence
  if pos < 0 then (-1, f) else (0, { f with pos := pos.toNat })

def ByteFile.perform (f : ByteFile) : Op → Output × ByteFile
  | .fread n => (⟨(f.read n).1.length, (f.read n).1⟩, (f.read n).2)
  | .fwrite bytes => (⟨bytes.length, []⟩, f.write bytes)
  | .fseek offset whence => (⟨(f.seek offset whence).1, []⟩, (f.seek offset whence).2)
  | .fflush => (⟨1, []⟩, f)
  | .ftell => (⟨f.pos, []⟩, f)

def ByteFile.run (f : ByteFile) : List Op → List Output × ByteFile
  | [] => ([], f)
  | op :: rest => ((f.perform op).1 :: ((f.perform op).2.run rest).1, ((f.perform op).2.run rest).2)

/-- What is stored, with the bytes that wait to be written. -/
def view (h : Handle) : ByteFile :=
  if h.bufferwrite then
    ⟨overlay h.store h.startptr h.buffer, max h.size (h.startptr + h.endsize), h.ptrlow⟩
  else ⟨h.store, h.size, h.ptrlow⟩

/-- A clean buffer repeats what is stored; a dirty one is not empty. -/
structure Coherent (h : Handle) : Prop where
  unbuffered : h.buffertype = .none → h.buffer = [] ∧ h.bufferwrite = false
  room : h.buffertype ≠ .none → 0 < h.bufsize
  dirty : h.bufferwrite = true → h.buffer ≠ []
  clean : h.bufferwrite = false → ∀ i value, h.buffer[i]? = some value →
    value = h.store (h.startptr + i) ∧ h.startptr + i < h.size

section

variable {h : Handle}

theorem view_clean (clean : h.bufferwrite = false) : view h = ⟨h.store, h.size, h.ptrlow⟩ := by
  unfold view
  rw [clean]
  rfl

theorem view_dirty (dirty : h.bufferwrite = true) :
    view h = ⟨overlay h.store h.startptr h.buffer, max h.size (h.startptr + h.endsize), h.ptrlow⟩ :=
  if_pos dirty

@[simp] theorem view_pos (h : Handle) : (view h).pos = h.ptrlow := by
  unfold view
  split_ifs
  all_goals rfl

theorem size_le_view (h : Handle) : h.size ≤ (view h).size := by
  unfold view
  split_ifs
  · exact Nat.le_max_left _ _
  · exact Nat.le_refl _

theorem view_moved (h : Handle) (pos : Nat) :
    view { h with ptrlow := pos } = { view h with pos := pos } := by
  unfold view
  split_ifs
  all_goals rfl

theorem Coherent.moved (coherent : Coherent h) (pos : Nat) : Coherent { h with ptrlow := pos } :=
  { coherent with }

theorem unbuffered_iff : h.unbuffered = true ↔ h.buffertype = .none := by
  simp [Handle.unbuffered]

theorem directwrite_size (h : Handle) (bytes : List Byte) :
    (vfsDirectwrite h bytes).size = max h.size (h.ptrlow + bytes.length) := by
  unfold vfsDirectwrite
  dsimp only
  split_ifs with longer
  · exact (Nat.max_eq_right longer).symm
  · exact (Nat.max_eq_left (by omega)).symm

/-- Flushing keeps the file and leaves a clean handle. -/
structure Flushed (h h' : Handle) : Prop where
  view : view h' = view h
  coherent : Coherent h'
  clean : h'.bufferwrite = false
  empty : h.bufferwrite = true → h'.buffer = []
  same : h.bufferwrite = false → h' = h
  fixed : h'.ptrlow = h.ptrlow ∧ h'.buffertype = h.buffertype ∧ h'.bufsize = h.bufsize

section

variable (coherent : Coherent h)
include coherent

theorem flushed_flushbuffer : Flushed h (vfsFlushbuffer h) := by
  unfold vfsFlushbuffer
  by_cases dirty : h.bufferwrite = true
  · have buffered : h.unbuffered = false := by
      rw [← Bool.not_eq_true, unbuffered_iff]
      intro none
      rw [(coherent.unbuffered none).2] at dirty
      cases dirty
    rw [if_pos ⟨buffered, coherent.dirty dirty, dirty⟩]
    constructor
    · rw [view_dirty dirty]
      refine (view_clean rfl).trans ?_
      rfl
    · constructor
      · exact fun _ => ⟨rfl, rfl⟩
      · exact coherent.room
      · exact fun no => Bool.noConfusion no
      · intro _ i value there
        cases there
    · rfl
    · exact fun _ => rfl
    · intro clean
      rw [clean] at dirty
      cases dirty
    · exact ⟨rfl, rfl, rfl⟩
  · have clean : h.bufferwrite = false := by simpa using dirty
    rw [if_neg (fun all => dirty all.2.2)]
    exact ⟨rfl, coherent, clean, fun no => absurd no dirty, fun _ => rfl, rfl, rfl, rfl⟩

theorem flushed_fflush : Flushed h (fflush h) := by
  unfold fflush
  by_cases none : h.bufsize = 0
  · rw [if_pos none]
    have unbuffered : h.buffertype = .none := by
      by_contra buffered
      have room := coherent.room buffered
      omega
    have clean := (coherent.unbuffered unbuffered).2
    refine ⟨rfl, coherent, clean, ?_, fun _ => rfl, rfl, rfl, rfl⟩
    intro dirty
    rw [clean] at dirty
    cases dirty
  · rw [if_neg none]
    exact flushed_flushbuffer coherent

theorem buffer_eq_view {i : Nat} {value : Byte} (first : h.startptr ≤ i)
    (there : h.buffer[i - h.startptr]? = some value) : (view h).content i = value := by
  by_cases dirty : h.bufferwrite = true
  · rw [view_dirty dirty]
    exact overlay_inside h.store first there
  have clean : h.bufferwrite = false := by simpa using dirty
  rw [view_clean clean, (coherent.clean clean _ value there).1]
  show h.store i = _
  congr 1
  omega

theorem refill_spec (clean : h.bufferwrite = false) (buffered : h.buffertype ≠ .none)
    (inside : h.ptrlow < h.size) :
    view (refill h) = view h ∧ Coherent (refill h) ∧
      (refill h).buffer[0]? = some (h.store h.ptrlow) := by
  have positive : 0 < (if h.size - h.ptrlow < h.bufsize then h.size - h.ptrlow else h.bufsize) := by
    have room := coherent.room buffered
    split_ifs
    · omega
    · exact room
  have bounded : (if h.size - h.ptrlow < h.bufsize then h.size - h.ptrlow else h.bufsize) ≤
      h.size - h.ptrlow := by
    split_ifs
    · exact Nat.le_refl _
    · omega
  have still : (refill h).bufferwrite = false := clean
  refine ⟨?_, ?_, ?_⟩
  · rw [view_clean still, view_clean clean]
    rfl
  · constructor
    · intro none
      exact absurd none buffered
    · exact coherent.room
    · intro dirty
      rw [still] at dirty
      cases dirty
    · intro _ i value there
      have short : i < (if h.size - h.ptrlow < h.bufsize then h.size - h.ptrlow
          else h.bufsize) := by
        by_contra long
        have none : (refill h).buffer[i]? = none :=
          getElem?_eq_none (by rw [refill, length_slice]; omega)
        rw [none] at there
        cases there
      have value' : (refill h).buffer[i]? = some (h.store (h.ptrlow + i)) :=
        getElem?_slice h.store h.ptrlow short
      rw [value'] at there
      cases there
      refine ⟨rfl, ?_⟩
      show h.ptrlow + i < h.size
      omega
  · exact getElem?_slice h.store h.ptrlow positive

end

/-- Where the file ends, nothing is read. -/
theorem readchar_end (past : h.size ≤ h.ptrlow) : vfsReadchar h = (none, h) := if_pos past

/-- A byte is read. -/
theorem readchar_spec (coherent : Coherent h) (inside : h.ptrlow < h.size) :
    (vfsReadchar h).1 = some ((view h).content h.ptrlow) ∧ Coherent (vfsReadchar h).2 ∧
      view (vfsReadchar h).2 = { view h with pos := h.ptrlow + 1 } ∧
      (h.size ≤ (vfsReadchar h).2.size ∧
        ((vfsReadchar h).2.size = h.size ∨ (vfsReadchar h).2.size = (view h).size)) := by
  unfold vfsReadchar
  rw [if_neg (by omega)]
  by_cases none : h.unbuffered = true
  · have clean := (coherent.unbuffered (unbuffered_iff.mp none)).2
    rw [if_pos none]
    refine ⟨?_, coherent.moved _, view_moved h _, Nat.le_refl _, Or.inl rfl⟩
    rw [view_clean clean]
  rw [if_neg none]
  by_cases buffered : h.startptr ≤ h.ptrlow ∧ h.ptrlow < h.startptr + h.endsize
  · rw [if_pos buffered]
    have short : h.ptrlow - h.startptr < h.buffer.length := by
      have upper := buffered.2
      unfold Handle.endsize at upper
      omega
    have there := getElem?_eq_getElem short
    refine ⟨?_, coherent.moved _, view_moved h _, Nat.le_refl _, Or.inl rfl⟩
    rw [buffer_eq_view coherent buffered.1 there, there]
    rfl
  · rw [if_neg buffered]
    have flushed := flushed_flushbuffer coherent
    have file := flushed.view
    rw [view_clean flushed.clean] at file
    have stored : (vfsFlushbuffer h).size = (view h).size := congrArg ByteFile.size file
    have same : (vfsFlushbuffer h).ptrlow = h.ptrlow := flushed.fixed.1
    have bound := size_le_view h
    obtain ⟨kept, coherent', first⟩ := refill_spec flushed.coherent flushed.clean
      (by rw [flushed.fixed.2.1]; exact fun is => none (unbuffered_iff.mpr is))
      (by rw [stored, same]; omega)
    refine ⟨?_, coherent'.moved _, ?_, ?_, Or.inr stored⟩
    · dsimp only
      rw [first, ← file, same]
      rfl
    · rw [view_moved, kept, flushed.view]
    · show h.size ≤ (vfsFlushbuffer h).size
      rw [stored]
      exact bound

theorem write_one (f : ByteFile) (value : Byte) : f.write [value] =
    ⟨overlay f.content f.pos [value], max f.size (f.pos + 1), f.pos + 1⟩ :=
  if_neg (cons_ne_nil _ _)

/-- A large or unbuffered write goes over the stored file. -/
theorem view_directwrite (clean : h.bufferwrite = false) {bytes : List Byte} (some_ : bytes ≠ []) :
    view (vfsDirectwrite h bytes) = (view h).write bytes := by
  have still : (vfsDirectwrite h bytes).bufferwrite = false := clean
  rw [view_clean still, view_clean clean, directwrite_size]
  exact (if_neg some_).symm

theorem writechar_spec (coherent : Coherent h) (value : Byte) :
    Coherent (vfsWritechar h value) ∧ view (vfsWritechar h value) = (view h).write [value] := by
  unfold vfsWritechar
  by_cases none : h.unbuffered = true
  · obtain ⟨empty, clean⟩ := coherent.unbuffered (unbuffered_iff.mp none)
    rw [if_pos none]
    refine ⟨{ coherent with clean := ?_ },
      view_directwrite clean (cons_ne_nil _ _)⟩
    intro _ i other there
    have nothing : (vfsDirectwrite h [value]).buffer = [] := empty
    rw [nothing] at there
    cases there
  · have buffered : h.buffertype ≠ .none := fun is => none (unbuffered_iff.mpr is)
    rw [if_neg none]
    by_cases next : h.ptrlow = h.startptr + h.endsize ∧ h.endsize < h.bufsize ∧
        (value ≠ newline ∨ h.buffertype = .full)
    · -- the write continues the buffered run, which may have been read before
      rw [if_pos next]
      refine ⟨⟨?_, coherent.room, ?_, ?_⟩, ?_⟩
      · exact fun is => absurd is buffered
      · exact fun _ => append_ne_nil_of_right_ne_nil _ (cons_ne_nil _ _)
      · exact fun no => Bool.noConfusion no
      have file : overlay h.store h.startptr h.buffer = (view h).content := by
        by_cases dirty : h.bufferwrite = true
        · rw [view_dirty dirty]
        · have clean : h.bufferwrite = false := by simpa using dirty
          rw [view_clean clean]
          exact overlay_self fun k other there => (coherent.clean clean k other there).1
      have size : max h.size (h.startptr + (h.endsize + 1)) =
          max (view h).size (h.ptrlow + 1) := by
        by_cases dirty : h.bufferwrite = true
        · rw [view_dirty dirty]
          dsimp only
          omega
        · have clean : h.bufferwrite = false := by simpa using dirty
          rw [view_clean clean, next.1, Nat.add_assoc]
      rw [write_one, view_dirty rfl, view_pos, ← size, ← file]
      simp only [Handle.endsize, length_append, length_singleton]
      rw [overlay_append, next.1]
      rfl
    · rw [if_neg next]
      have flushed := flushed_flushbuffer coherent
      have file := flushed.view
      rw [view_clean flushed.clean] at file
      refine ⟨⟨?_, ?_, ?_, ?_⟩, ?_⟩
      · intro is
        exact absurd (flushed.fixed.2.1 ▸ is) buffered
      · intro _
        rw [flushed.fixed.2.2]
        exact coherent.room buffered
      · exact fun _ => cons_ne_nil _ _
      · exact fun no => Bool.noConfusion no
      · rw [write_one, view_dirty rfl, view_pos, ← file]
        rfl

/-- A read of `n` bytes does not reach bytes that only the buffer has, beyond the stored size. -/
def Visible (h : Handle) (n : Nat) : Prop := (view h).size = h.size ∨ h.ptrlow + n ≤ h.size

/-- The induction is on the number of bytes still wanted. -/
theorem readLoop_spec (coherent : Coherent h) (n : Nat) (visible : Visible h n) :
    (readLoop h n).1 = ((view h).read n).1 ∧ view (readLoop h n).2 = ((view h).read n).2 ∧
      Coherent (readLoop h n).2 := by
  induction n generalizing h with
  | zero =>
    unfold readLoop ByteFile.read
    exact ⟨rfl, rfl, coherent⟩
  | succ n ih =>
    by_cases past : h.size ≤ h.ptrlow
    · have nothing : min (n + 1) ((view h).size - (view h).pos) = 0 := by
        rw [view_pos]
        rcases visible with all | before
        · omega
        · omega
      unfold readLoop ByteFile.read
      rw [readchar_end past, nothing]
      exact ⟨rfl, rfl, coherent⟩
    · obtain ⟨byte, coherent', moved, grown, size⟩ := readchar_spec coherent (by omega)
      rcases got : vfsReadchar h with ⟨found, h'⟩
      rw [got] at byte coherent' moved grown size
      dsimp only at byte coherent' moved grown size
      subst byte
      have position : h'.ptrlow = h.ptrlow + 1 := by rw [← view_pos h', moved]
      have whole : (view h').size = (view h).size := by rw [moved]
      have content : (view h').content = (view h).content := by rw [moved]
      have visible' : Visible h' n := by
        unfold Visible at visible ⊢
        rcases size with size | size <;> rcases visible with all | before <;> omega
      obtain ⟨bytes, after, done⟩ := ih coherent' visible'
      have bound := size_le_view h
      have count : min (n + 1) ((view h).size - h.ptrlow) =
          min n ((view h).size - (h.ptrlow + 1)) + 1 := by omega
      unfold readLoop
      rw [got]
      dsimp only
      refine ⟨?_, ?_, done⟩
      · rw [bytes]
        unfold ByteFile.read
        rw [view_pos, view_pos, content, whole, position, count, slice_succ]
      rw [after]
      unfold ByteFile.read
      rw [view_pos, view_pos, whole, position, count, moved]
      dsimp only
      congr 1
      omega

theorem directread_spec (clean : h.bufferwrite = false) (inside : h.ptrlow ≤ h.size) (n : Nat) :
    (vfsDirectread h n).1 = ((view h).read n).1.length ∧
      (vfsDirectread h n).2.1 = ((view h).read n).1 ∧
      view (vfsDirectread h n).2.2 = ((view h).read n).2 := by
  have file := view_clean clean
  unfold vfsDirectread ByteFile.read
  rw [file]
  by_cases reaches : h.size ≤ h.ptrlow + n
  · have count : min n (h.size - h.ptrlow) = h.size - h.ptrlow := by omega
    rw [if_pos reaches, count, length_slice, view_moved, file]
    refine ⟨by omega, rfl, ?_⟩
    dsimp only
    congr 1
    omega
  · have count : min n (h.size - h.ptrlow) = n := by omega
    rw [if_neg reaches, count, length_slice, view_moved, file]
    exact ⟨rfl, rfl, rfl⟩

theorem coherent_directread (coherent : Coherent h) (n : Nat) :
    Coherent (vfsDirectread h n).2.2 := by
  unfold vfsDirectread
  split_ifs
  · exact coherent.moved _
  · exact coherent.moved _

theorem writeLoop_spec (coherent : Coherent h) (bytes : List Byte) :
    Coherent (bytes.foldl vfsWritechar h) ∧
      view (bytes.foldl vfsWritechar h) = (view h).write bytes := by
  induction bytes generalizing h with
  | nil => exact ⟨coherent, rfl⟩
  | cons first rest ih =>
    obtain ⟨coherent', one⟩ := writechar_spec coherent first
    obtain ⟨done, file⟩ := ih coherent'
    refine ⟨done, ?_⟩
    rw [foldl_cons, file, one, write_one]
    unfold ByteFile.write
    rw [if_neg (cons_ne_nil first rest)]
    by_cases empty : rest = []
    · rw [if_pos empty, empty]
      rfl
    rw [if_neg empty]
    have whole := overlay_append (view h).content (view h).pos [first] rest
    apply ByteFile.ext
    · exact whole.symm
    · simp only [length_cons]
      omega
    · simp only [length_cons]
      omega

/-- The bytes of a clean buffer are not among those written. -/
def Disjoint (h : Handle) (n : Nat) : Prop :=
  h.startptr + h.endsize ≤ h.ptrlow ∨ h.ptrlow + n ≤ h.startptr

theorem coherent_directwrite (coherent : Coherent h) (clean : h.bufferwrite = false)
    (bytes : List Byte) (apart : h.buffer = [] ∨ Disjoint h bytes.length) :
    Coherent (vfsDirectwrite h bytes) := by
  refine { coherent with clean := ?_ }
  intro _ i value there
  obtain ⟨stored, inside⟩ := coherent.clean clean i value there
  have short : i < h.endsize := by
    by_contra long
    have none : h.buffer[i]? = none := getElem?_eq_none (Nat.le_of_not_lt long)
    rw [show (vfsDirectwrite h bytes).buffer = h.buffer from rfl, none] at there
    cases there
  constructor
  · rw [stored]
    symm
    show overlay h.store h.ptrlow bytes (h.startptr + i) = _
    rcases apart with empty | before | after
    · rw [Handle.endsize, empty] at short
      exact absurd short (Nat.not_lt_zero i)
    · exact overlay_before h.store bytes (by omega)
    · exact overlay_after h.store (by omega)
  · have size := directwrite_size h bytes
    show h.startptr + i < (vfsDirectwrite h bytes).size
    omega

end

section Runs

variable {h : Handle}

/-- Positions stay below 2 GiB; small reads and seeks from the end need no bytes that only the
buffer has; a large read starts inside the file; and a large write touches no bytes that a clean
buffer repeats. -/
def Careful (h : Handle) : Op → Prop
  | .fread n => h.ptrlow + n < 2 ^ 31 ∧
      if fileBufsize < n then h.ptrlow ≤ (view h).size else Visible h n
  | .fwrite bytes => h.ptrlow + bytes.length < 2 ^ 31 ∧
      (fileBufsize < bytes.length → h.bufferwrite = true ∨ h.buffer = [] ∨ Disjoint h bytes.length)
  | .fseek offset .end_ => h.size + offset < 2 ^ 31 ∧ (view h).size = h.size
  | .fseek offset .set => offset < 2 ^ 31
  | .fseek offset .cur => h.ptrlow + offset < 2 ^ 31
  | .fflush | .ftell => True

section

variable (coherent : Coherent h)
include coherent

theorem perform_fread {n : Nat} (careful : Careful h (.fread n)) :
    (perform h (.fread n)).1 = ((view h).perform (.fread n)).1 ∧
      view (perform h (.fread n)).2 = ((view h).perform (.fread n)).2 ∧
      Coherent (perform h (.fread n)).2 := by
  obtain ⟨_, careful⟩ := careful
  unfold perform ByteFile.perform fread
  by_cases large : fileBufsize < n
  · rw [if_pos large] at careful
    have flushed := flushed_fflush coherent
    have file := flushed.view
    have inside : (fflush h).ptrlow ≤ (fflush h).size := by
      have stored : (view (fflush h)).size = (fflush h).size := by rw [view_clean flushed.clean]
      rw [← stored, flushed.view, flushed.fixed.1]
      exact careful
    obtain ⟨count, bytes, after⟩ := directread_spec flushed.clean inside n
    rw [file] at count bytes after
    simp only [if_pos large]
    rw [count, bytes]
    exact ⟨rfl, after, coherent_directread flushed.coherent n⟩
  · rw [if_neg large] at careful
    obtain ⟨bytes, after, done⟩ := readLoop_spec coherent n careful
    simp only [if_neg large]
    rw [bytes]
    exact ⟨rfl, after, done⟩

theorem perform_fwrite {bytes : List Byte} (careful : Careful h (.fwrite bytes)) :
    view (fwrite h bytes) = (view h).write bytes ∧ Coherent (fwrite h bytes) := by
  obtain ⟨_, careful⟩ := careful
  unfold fwrite
  by_cases large : fileBufsize < bytes.length
  · rw [if_pos large]
    have flushed := flushed_fflush coherent
    have some_ : bytes ≠ [] := by
      rintro rfl
      exact absurd large (by decide)
    refine ⟨?_, coherent_directwrite flushed.coherent flushed.clean bytes ?_⟩
    · rw [view_directwrite flushed.clean some_, flushed.view]
    by_cases dirty : h.bufferwrite = true
    · exact Or.inl (flushed.empty dirty)
    · have clean : h.bufferwrite = false := by simpa using dirty
      rw [flushed.same clean]
      exact (careful large).resolve_left dirty
  · rw [if_neg large]
    obtain ⟨done, file⟩ := writeLoop_spec coherent bytes
    exact ⟨file, done⟩

theorem perform_fseek {offset : Int} {whence : Whence}
    (careful : Careful h (.fseek offset whence)) :
    (fseek h offset whence).1 = ((view h).seek offset whence).1 ∧
      view (fseek h offset whence).2 = ((view h).seek offset whence).2 ∧
      Coherent (fseek h offset whence).2 := by
  have target : seekTarget (view h).pos (view h).size offset whence =
      seekTarget h.ptrlow h.size offset whence := by
    rw [view_pos]
    cases whence with
    | set => rfl
    | cur => rfl
    | end_ => rw [careful.2]
  unfold fseek ByteFile.seek
  dsimp only
  rw [target]
  split_ifs
  · exact ⟨rfl, rfl, coherent⟩
  · exact ⟨rfl, view_moved h _, coherent.moved _⟩

/-- One call does what it does on the file of bytes. -/
theorem perform_spec {op : Op} (careful : Careful h op) :
    (perform h op).1 = ((view h).perform op).1 ∧
      view (perform h op).2 = ((view h).perform op).2 ∧ Coherent (perform h op).2 := by
  cases op with
  | fread n => exact perform_fread coherent careful
  | fwrite bytes =>
    obtain ⟨file, done⟩ := perform_fwrite coherent careful
    exact ⟨rfl, file, done⟩
  | fseek offset whence =>
    obtain ⟨value, file, done⟩ := perform_fseek coherent careful
    exact ⟨congrArg (fun v => (⟨v, []⟩ : Output)) value, file, done⟩
  | fflush =>
    have flushed := flushed_fflush coherent
    exact ⟨rfl, flushed.view, flushed.coherent⟩
  | ftell =>
    refine ⟨?_, rfl, coherent⟩
    unfold perform ByteFile.perform
    rw [view_pos]

end

/-- Every call of a sequence is a careful one. -/
def CarefulRun (h : Handle) : List Op → Prop
  | [] => True
  | op :: rest => Careful h op ∧ CarefulRun (perform h op).2 rest

structure Opened (h : Handle) : Prop where
  room : h.buffertype ≠ .none → 0 < h.bufsize
  empty : h.buffer = []
  clean : h.bufferwrite = false

theorem Opened.coherent (opened : Opened h) : Coherent h where
  unbuffered _ := ⟨opened.empty, opened.clean⟩
  room := opened.room
  dirty dirty := by
    rw [opened.clean] at dirty
    cases dirty
  clean _ i value there := by
    rw [opened.empty] at there
    cases there

theorem run_spec (coherent : Coherent h) (ops : List Op) (careful : CarefulRun h ops) :
    (run h ops).1 = ((view h).run ops).1 ∧ view (run h ops).2 = ((view h).run ops).2 ∧
      Coherent (run h ops).2 := by
  induction ops generalizing h with
  | nil => exact ⟨rfl, rfl, coherent⟩
  | cons op rest ih =>
    obtain ⟨output, file, coherent'⟩ := perform_spec coherent careful.1
    obtain ⟨outputs, last, done⟩ := ih coherent' careful.2
    unfold run ByteFile.run
    rw [output, outputs, last, file]
    exact ⟨rfl, rfl, done⟩

/-- Careful calls return what they do on a file of bytes with a position, and `fclose` stores it. -/
theorem buffered_calls_refine_bytes (opened : Opened h) (ops : List Op)
    (careful : CarefulRun h ops) :
    (run h ops).1 = ((view h).run ops).1 ∧ (run h ops).2.ptrlow = ((view h).run ops).2.pos ∧
      (fflush (run h ops).2).store = ((view h).run ops).2.content ∧
      (fflush (run h ops).2).size = ((view h).run ops).2.size := by
  obtain ⟨outputs, file, coherent⟩ := run_spec opened.coherent ops careful
  have flushed := flushed_fflush coherent
  have stored := flushed.view
  rw [view_clean flushed.clean, file] at stored
  refine ⟨outputs, ?_, congrArg ByteFile.content stored, congrArg ByteFile.size stored⟩
  rw [← file, view_pos]

def newFile : Handle where
  store _ := 0
  size := 0
  ptrlow := 0
  buffertype := .full
  bufsize := 512
  buffer := []
  startptr := 0
  bufferwrite := false

theorem newFile_opened : Opened newFile := ⟨fun _ => by decide, rfl, rfl⟩

/-- Written, sought back to and read, a byte is not there before a flush. -/
theorem written_byte_not_read : Opened newFile ∧
    (run newFile [.fwrite [7], .fseek 0 .set, .fread 1]).1 ≠
      ((view newFile).run [.fwrite [7], .fseek 0 .set, .fread 1]).1 :=
  ⟨newFile_opened, by decide⟩

theorem buffered_calls_refine_bytes_flushed :
    (run newFile [.fwrite [7], .fflush, .fseek 0 .set, .fread 1]).1 =
      ((view newFile).run [.fwrite [7], .fflush, .fseek 0 .set, .fread 1]).1 :=
  have start : (0 : Int) < 2 ^ 31 := by decide
  (buffered_calls_refine_bytes newFile_opened [.fwrite [7], .fflush, .fseek 0 .set, .fread 1]
    ⟨⟨by decide, fun _ => Or.inr (Or.inl rfl)⟩, trivial, start, ⟨by decide, Or.inl rfl⟩, trivial⟩).1

end Runs

end IcsOs.Vfs.Buffering
