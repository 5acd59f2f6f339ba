/- GID: IcsOs/Console/CanonTty
   generality: I
   source: kernel/console/tty.c, kernel/console/tty_canon.h
   digest: Lines typed at a terminal in canonical mode and the bytes that reads return of them. -/

import Mathlib.Data.List.Basic
import IcsOs.Lib.Runs

set_option autoImplicit false

namespace IcsOs.Console.CanonTty

open List
open Lib.Runs

abbrev Byte := UInt8

/-- `canon_esc`: none, a bare ESC, or inside a control sequence. -/
inductive Esc
  | ground
  | esc
  | csi
  deriving DecidableEq

/-- A terminal in canonical mode; the line buffer is given by its first `canon_len` bytes. -/
structure Tty where
  isig : Bool
  canon : List Byte
  canonOff : Nat
  lineReady : Bool
  canonEsc : Esc

/-- Bytes that send a signal; the source has `'c' - 'a'`, which is 2, too. -/
def signals (isig : Bool) (c : Byte) : Bool := isig && (c = 3 || c = 2)

/-- The escape state after a byte, and whether it took the byte; after ESC only `[` is special. -/
def escape (e : Esc) (c : Byte) : Esc × Bool :=
  match e with
  | .csi =>
    if c = 0x1B then (.esc, true)
    else if 0x40 ≤ c ∧ c ≤ 0x7E then (.ground, true)
    else (.csi, true)
  | .esc => if c = 0x5B then (.csi, true) else (.ground, false)
  | .ground => if c = 0x1B then (.esc, true) else (.ground, false)

def isErase (c : Byte) : Bool := c = 8 || c = 127 || c = 145

def isNewline (c : Byte) : Bool := c = 13 || c = 10

/-- A byte put at the end of the line buffer, if there is room. -/
def put (line : List Byte) (c : Byte) : List Byte := if line.length < 255 then line ++ [c] else line

/-- `tty_input` in canonical mode, without the echo. -/
def ttyInput (t : Tty) (c : Byte) : Tty :=
  if signals t.isig c then t
  else
    let (next, taken) := escape t.canonEsc c
    let t := { t with canonEsc := next }
    if taken then t
    else if isErase c then { t with canon := t.canon.dropLast }
    else if isNewline c then
      { t with canon := put t.canon 10, canonOff := 0, lineReady := true, canonEsc := .ground }
    else { t with canon := put t.canon c }

/-- The bytes, the offset after them, and whether the line is done. -/
def ttyCanonReadCopy (canon : List Byte) (off n : Nat) : List Byte × Nat × Bool :=
  let off := min off canon.length
  let bytes := (canon.drop off).take n
  (bytes, off + bytes.length, canon.length ≤ off + bytes.length)

/-- `tty_read` in canonical mode once a line is ready. -/
def ttyRead (t : Tty) (n : Nat) : Tty × List Byte :=
  match ttyCanonReadCopy t.canon t.canonOff n with
  | (bytes, _, true) => ({ t with canon := [], canonOff := 0, lineReady := false }, bytes)
  | (bytes, off, false) => ({ t with canonOff := off }, bytes)

/-- The unfinished line and the state of an escape sequence. -/
structure Editor where
  line : List Byte
  esc : Esc

/-- A byte typed to the editor, and the line it completes. -/
def Editor.type (isig : Bool) (e : Editor) (c : Byte) : Editor × Option (List Byte) :=
  if signals isig c then (e, none)
  else
    match escape e.esc c with
    | (next, true) => (⟨e.line, next⟩, none)
    | (next, false) =>
      if isErase c then (⟨e.line.dropLast, next⟩, none)
      else if isNewline c then (⟨[], .ground⟩, some (put e.line 10))
      else (⟨put e.line c, next⟩, none)

/-- The terminal, the bytes of the lines an editor would complete, and those returned. -/
structure World where
  tty : Tty
  editor : Editor
  lines : List Byte
  out : List Byte

inductive Act
  | input (c : Byte)
  | read (n : Int) (interrupted : Bool)

def perform (w : World) : Act → World
  | .input c =>
    let (editor, line) := w.editor.type w.tty.isig c
    { w with
      tty := ttyInput w.tty c
      editor := editor
      lines := w.lines ++ line.getD [] }
  | .read n interrupted =>
    if n ≤ 0 ∨ interrupted then w
    else
      let (tty, bytes) := ttyRead w.tty n.toNat
      { w with tty := tty, out := w.out ++ bytes }

/-- A read waits for a line, unless interrupted or for nothing. -/
def Possible (w : World) : Act → Prop
  | .input _ => True
  | .read n interrupted => n ≤ 0 ∨ interrupted = true ∨ w.tty.lineReady = true

def fresh (isig : Bool) : World := ⟨⟨isig, [], 0, false, .ground⟩, ⟨[], .ground⟩, [], []⟩

def terminal (isig : Bool) : System World Act where
  start w := w = fresh isig
  step w a w' := Possible w a ∧ w' = perform w a

def waiting (t : Tty) : List Byte := if t.lineReady then t.canon.drop t.canonOff else []

/-- The bytes returned, then those of a ready line, are the completed lines. -/
def Faithful (w : World) : Prop := w.lines = w.out ++ waiting w.tty

/-- While a line is ready nothing is typed but signals and escape sequences. -/
def Paced (w : World) : Act → Prop
  | .input c => w.tty.lineReady = true →
      signals w.tty.isig c = true ∨ (escape w.tty.canonEsc c).2 = true
  | .read _ _ => True

/-- The buffer holds the editor's line, or a ready one while the editor's is empty. -/
structure Kept (w : World) : Prop where
  faithful : Faithful w
  esc : w.tty.canonEsc = w.editor.esc
  typing : w.tty.lineReady = false → w.tty.canon = w.editor.line ∧ w.tty.canonOff = 0
  ready : w.tty.lineReady = true → w.editor.line = [] ∧ w.tty.canonOff ≤ w.tty.canon.length

section Steps

variable {w : World} {t : Tty}

theorem waiting_not_ready (busy : t.lineReady = false) : waiting t = [] := by
  unfold waiting
  rw [busy, if_neg Bool.false_ne_true]

theorem waiting_ready (ready : t.lineReady = true) : waiting t = t.canon.drop t.canonOff := by
  unfold waiting
  rw [if_pos ready]

theorem Kept.edit (kept : Kept w) (busy : w.tty.lineReady = false) (line : List Byte)
    (next : Esc) :
    Kept ⟨{ w.tty with canonEsc := next, canon := line }, ⟨line, next⟩, w.lines ++ [], w.out⟩ where
  faithful := by
    have before := kept.faithful
    unfold Faithful at before ⊢
    have quiet : waiting { w.tty with canonEsc := next, canon := line } = [] :=
      waiting_not_ready busy
    rw [waiting_not_ready busy] at before
    rw [quiet, append_nil]
    exact before
  esc := rfl
  typing := fun _ => ⟨rfl, (kept.typing busy).2⟩
  ready := fun ready => absurd (busy.symm.trans ready) Bool.false_ne_true

/-- A byte of an escape sequence. -/
theorem Kept.swallow (kept : Kept w) (next : Esc) :
    Kept ⟨{ w.tty with canonEsc := next }, ⟨w.editor.line, next⟩, w.lines ++ [], w.out⟩ where
  __ := kept
  faithful := by
    have before := kept.faithful
    unfold Faithful at before ⊢
    rw [append_nil]
    exact before
  esc := rfl

/-- A newline completes the line. -/
theorem Kept.finish (kept : Kept w) (busy : w.tty.lineReady = false) :
    Kept ⟨{ w.tty with
        canon := put w.tty.canon 10, canonOff := 0, lineReady := true, canonEsc := .ground },
      ⟨[], .ground⟩, w.lines ++ put w.editor.line 10, w.out⟩ where
  faithful := by
    have before := kept.faithful
    have same := (kept.typing busy).1
    unfold Faithful at before ⊢
    rw [waiting_not_ready busy, append_nil] at before
    rw [waiting_ready rfl, before, same]
    rfl
  esc := rfl
  typing := fun busy => nomatch busy
  ready := fun _ => ⟨rfl, Nat.zero_le _⟩

theorem kept_input {c : Byte} (kept : Kept w) (paced : Paced w (.input c)) :
    Kept (perform w (.input c)) := by
  have esc := kept.esc
  unfold perform ttyInput Editor.type
  dsimp only
  by_cases signal : signals w.tty.isig c = true
  · rw [if_pos signal, if_pos signal]
    dsimp only
    rw [Option.getD_none, append_nil]
    exact kept
  rw [if_neg signal, if_neg signal, ← esc]
  -- one case for each way the escape state takes or passes the byte
  rcases taken : escape w.tty.canonEsc c with ⟨next, swallowed⟩
  cases swallowed with
  | true => exact kept.swallow next
  | false =>
    have busy : w.tty.lineReady = false := by
      cases ready : w.tty.lineReady with
      | false => rfl
      | true =>
        rcases paced ready with yes | yes
        · exact absurd yes signal
        · rw [taken] at yes
          cases yes
    have same := (kept.typing busy).1
    dsimp only
    rw [if_neg Bool.false_ne_true]
    by_cases erase : isErase c = true
    · rw [if_pos erase, if_pos erase, ← same]
      exact kept.edit busy _ next
    rw [if_neg erase, if_neg erase]
    by_cases newline : isNewline c = true
    · rw [if_pos newline, if_pos newline]
      exact kept.finish busy
    · rw [if_neg newline, if_neg newline, ← same]
      exact kept.edit busy _ next

theorem ttyRead_spec {n : Nat} (ready : t.lineReady = true) (inside : t.canonOff ≤ t.canon.length) :
    waiting t = (ttyRead t n).2 ++ waiting (ttyRead t n).1 ∧ (ttyRead t n).1.canonEsc = t.canonEsc ∧
      ((ttyRead t n).1.lineReady = false →
        (ttyRead t n).1.canon = [] ∧ (ttyRead t n).1.canonOff = 0) ∧
      ((ttyRead t n).1.lineReady = true →
        (ttyRead t n).1.canonOff ≤ (ttyRead t n).1.canon.length) := by
  have rest : t.canon.drop t.canonOff = (t.canon.drop t.canonOff).take n ++
      t.canon.drop (t.canonOff + ((t.canon.drop t.canonOff).take n).length) := by
    nth_rewrite 1 [← take_append_drop n (t.canon.drop t.canonOff)]
    rw [drop_drop, length_take, length_drop]
    congr 1
    by_cases short : n ≤ t.canon.length - t.canonOff
    · rw [Nat.min_eq_left short]
    · rw [drop_eq_nil_of_le (by omega), drop_eq_nil_of_le (by omega)]
  rw [waiting_ready ready]
  unfold ttyRead ttyCanonReadCopy
  rw [Nat.min_eq_left inside]
  dsimp only
  by_cases done : t.canon.length ≤ t.canonOff + ((t.canon.drop t.canonOff).take n).length
  · rw [decide_eq_true done]
    refine ⟨?_, rfl, fun _ => ⟨rfl, rfl⟩, fun ready => nomatch ready⟩
    rw [drop_eq_nil_of_le done] at rest
    exact rest
  rw [decide_eq_false done]
  refine ⟨?_, rfl, fun busy => ?_, fun _ => Nat.le_of_not_le done⟩
  · have more : waiting { t with
        canonOff := t.canonOff + ((t.canon.drop t.canonOff).take n).length } =
        t.canon.drop (t.canonOff + ((t.canon.drop t.canonOff).take n).length) :=
      waiting_ready ready
    rw [more]
    exact rest
  · have idle : t.lineReady = false := busy
    rw [ready] at idle
    cases idle

theorem kept_read {n : Int} {interrupted : Bool} (kept : Kept w)
    (possible : Possible w (.read n interrupted)) : Kept (perform w (.read n interrupted)) := by
  unfold perform
  dsimp only
  split_ifs with nothing
  · exact kept
  rw [not_or] at nothing
  have ready : w.tty.lineReady = true := by
    rcases possible with few | stopped | ready
    · exact absurd few nothing.1
    · exact absurd stopped nothing.2
    · exact ready
  have before := kept.faithful
  obtain ⟨empty, inside⟩ := kept.ready ready
  obtain ⟨bytes, same, finished, unfinished⟩ := ttyRead_spec (n := n.toNat) ready inside
  refine ⟨?_, same.trans kept.esc, fun busy => ?_, fun more => ⟨empty, unfinished more⟩⟩
  · unfold Faithful at before ⊢
    rw [before, bytes, append_assoc]
  · obtain ⟨none, zero⟩ := finished busy
    exact ⟨none.trans empty.symm, zero⟩

end Steps

/-- Where nothing is typed over a ready line, reads return the lines, once and in order. -/
theorem reads_return_lines {isig : Bool} {w : World}
    (run : Reachable (terminal isig) Paced w) : Faithful w := by
  have kept : Kept w := by
    refine run.invariant ?_ ?_
    · rintro w rfl
      exact ⟨rfl, rfl, fun _ => ⟨rfl, rfl⟩, fun ready => nomatch ready⟩
    rintro w a w' kept paced ⟨possible, rfl⟩
    cases a with
    | input c => exact kept_input kept paced
    | read n interrupted => exact kept_read kept possible
  exact kept.faithful

section Typed

variable {isig : Bool} {g : World → Act → Prop} {w : World}

theorem typed (run : Reachable (terminal isig) g w) (c : Byte)
    (allowed : g w (.input c)) : Reachable (terminal isig) g (perform w (.input c)) :=
  run.step allowed ⟨trivial, rfl⟩

theorem fetched (run : Reachable (terminal isig) g w) (n : Int)
    (allowed : g w (.read n false)) (ready : w.tty.lineReady = true) :
    Reachable (terminal isig) g (perform w (.read n false)) :=
  run.step allowed ⟨.inr (.inr ready), rfl⟩

end Typed

/-- A line `a`, the start of an arrow key, and a read of one byte. -/
theorem reads_return_lines_typed :
    Faithful ⟨⟨true, [97, 10], 1, true, .csi⟩, ⟨[], .csi⟩, [97, 10], [97]⟩ := by
  have letter := typed (g := Paced) (w := fresh true) (.start rfl) 97 (fun ready => nomatch ready)
  have line := typed letter 10 (fun ready => nomatch ready)
  have escaped := typed line 27 (fun _ => .inr rfl)
  have arrow := typed escaped 91 (fun _ => .inr rfl)
  exact reads_return_lines (fetched arrow 1 trivial rfl)

/-- A byte typed before the line is read comes back with it, its own line unfinished. -/
theorem unfinished_line_read : ∃ w, Reachable (terminal true) (fun _ _ => True) w ∧
    w.lines = [97, 10] ∧ w.editor.line = [98] ∧ w.out = [97, 10, 98] := by
  have letter := typed (g := fun _ _ => True) (w := fresh true) (.start rfl) 97 trivial
  have line := typed letter 10 trivial
  have ahead := typed line 98 trivial
  exact ⟨_, fetched ahead 8 trivial rfl, rfl, rfl, rfl⟩

end IcsOs.Console.CanonTty
