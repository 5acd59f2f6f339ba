/- GID: IcsOs/Console/Klog
   generality: I
   source: kernel/console/klog.c, kernel/console/klog_ring.h
   digest: What the kernel log keeps of its messages, and what a dump of it shows. -/

import Mathlib.Data.Nat.Digits.Lemmas

set_option autoImplicit false

namespace IcsOs.Console.Klog

open List

abbrev Byte := UInt8

def klogInfo : Nat := 6
def klogDebug : Nat := 7
def klogLineMax : Nat := 96
def klogCount : Nat := 96

/-- `klog_rec_t`; `text` is what is read of its buffer, `len` bytes. -/
structure Rec where
  tick : UInt32
  level : Nat
  text : List Byte

structure Ring where
  recs : Nat → Rec
  head : Nat
  count : Nat

/-- The text of a string up to its end, cut to a record. -/
def cut (text : List Byte) : List Byte := (text.takeWhile (· ≠ 0)).take (klogLineMax - 1)

/-- `none` where a write leaves the record, or in the callers a buffer. -/
def klogRingPush (r : Ring) (tick : UInt32) (level : Nat) (text : List Byte) : Option Ring :=
  if (cut text).length < klogLineMax then
    some ⟨Function.update r.recs r.head ⟨tick, level, cut text⟩, (r.head + 1) % klogCount,
      if r.count < klogCount then r.count + 1 else r.count⟩
  else none

def klogLineChar (linebuf : List Byte) (c : Byte) : List Byte :=
  if linebuf.length < klogLineMax - 1 then linebuf ++ [c] else linebuf

/-- Formatted text for `klog`, and the captured characters of `printf`. -/
inductive Call
  | klog (level : Int) (tick : UInt32) (text : List Byte)
  | printf (tick : UInt32) (text : List Byte)

def clamp (level : Int) : Nat :=
  if level < 0 then 0 else if level > klogDebug then klogDebug else level.toNat

def perform (r : Ring) : Call → Option Ring
  | .klog level tick text =>
    -- `vsprintf` writes the whole text before its length is looked at
    if text.length < klogLineMax then klogRingPush r tick (clamp level) text else none
  | .printf tick text =>
    let linebuf := text.foldl klogLineChar []
    if linebuf.length < klogLineMax then klogRingPush r tick klogInfo linebuf else none

def klogFmtU32 (v : Nat) : List Byte :=
  if v = 0 then [48] else (Nat.digits 10 v).reverse.map fun d => UInt8.ofNat (48 + d)

def klogPadU32 (v width : Nat) : List Byte :=
  replicate (width - (klogFmtU32 v).length) 48 ++ klogFmtU32 v

def line (r : Rec) : List Byte :=
  [91, 32, 43] ++ klogPadU32 (r.tick.toNat / 100) 6 ++ [46] ++
    klogPadU32 (r.tick.toNat % 100 * 10) 3 ++ [32, 93, 32] ++ r.text ++ [10]

def shown (levelFilter : Int) (r : Rec) : Bool := !(0 ≤ levelFilter && levelFilter < r.level)

/-- The records from the oldest on. -/
def stored (r : Ring) : List Rec :=
  (range r.count).map fun i => r.recs (((r.head + klogCount - r.count) % klogCount + i) % klogCount)

def klogDump (r : Ring) (levelFilter : Int) : Option (List (List Byte)) :=
  let lines := ((stored r).filter (shown levelFilter)).map line
  if lines.all (·.length < 24 + klogLineMax) then some lines else none

/-- What a call should leave in the log. -/
def Call.message : Call → Rec
  | .klog level tick text => ⟨tick, clamp level, cut text⟩
  | .printf tick text => ⟨tick, klogInfo, cut text⟩

/-- No write leaves its buffer; the ring has the last messages, and a dump shows each once. -/
def Logged (start : Nat → Rec) (calls : List Call) : Prop :=
  let last := (calls.map Call.message).drop (calls.length - klogCount)
  ∃ r, calls.foldlM perform ⟨start, 0, 0⟩ = some r ∧ stored r = last ∧
    ∀ levelFilter, klogDump r levelFilter = some ((last.filter (shown levelFilter)).map line)

def Fits : Call → Prop
  | .klog _ _ text => text.length < klogLineMax
  | .printf _ _ => True

theorem cut_length (text : List Byte) : (cut text).length < klogLineMax := by
  have most := length_take_le (klogLineMax - 1) (text.takeWhile (· ≠ 0))
  unfold cut klogLineMax at *
  omega

/-- The captured characters are the first ones. -/
theorem foldl_lineChar (text buf : List Byte) (short : buf.length < klogLineMax) :
    text.foldl klogLineChar buf = (buf ++ text).take (klogLineMax - 1) := by
  unfold klogLineMax at *
  induction text generalizing buf with
  | nil => rw [foldl_nil, append_nil, take_of_length_le (by omega)]
  | cons c text ih =>
    rw [foldl_cons, klogLineChar, klogLineMax]
    split
    · rw [ih _ (by simp; omega), append_assoc, singleton_append]
    · rw [ih _ short, take_append_of_le_length (by omega), take_append_of_le_length (by omega)]

theorem cut_take (text : List Byte) : cut (text.take (klogLineMax - 1)) = cut text := by
  unfold cut
  rw [take_takeWhile, take_take, Nat.min_self, ← take_takeWhile]

/-- What a call does. -/
theorem perform_eq (r : Ring) (c : Call) : (Fits c → perform r c =
      some ⟨Function.update r.recs r.head c.message, (r.head + 1) % klogCount,
        if r.count < klogCount then r.count + 1 else r.count⟩) ∧
    (¬Fits c → perform r c = none) := by
  cases c with
  | klog level tick text =>
    refine ⟨fun fits => (if_pos fits).trans ?_, fun no => if_neg no⟩
    rw [klogRingPush, if_pos (cut_length text)]
    rfl
  | printf tick text =>
    refine ⟨fun _ => ?_, fun no => absurd trivial no⟩
    rw [perform, foldl_lineChar text [] (by decide), nil_append, if_pos (by simp [klogLineMax]),
      klogRingPush, cut_take, if_pos (cut_length text)]
    rfl

/-- Message `j` is in slot `j` modulo the size, if no later one took it. -/
structure After (r : Ring) (messages : List Rec) : Prop where
  head : r.head = messages.length % klogCount
  count : r.count = min messages.length klogCount
  recs : ∀ j (there : j < messages.length), messages.length ≤ j + klogCount →
    r.recs (j % klogCount) = messages[j]

theorem after_push {r : Ring} {messages : List Rec} (after : After r messages) (m : Rec) :
    After ⟨Function.update r.recs r.head m, (r.head + 1) % klogCount,
      if r.count < klogCount then r.count + 1 else r.count⟩ (messages ++ [m]) := by
  obtain ⟨head, count, recs⟩ := after
  unfold klogCount at *
  refine ⟨?_, ?_, fun j there recent => ?_⟩
  · rw [length_append, length_singleton, klogCount]
    dsimp only
    omega
  · rw [length_append, length_singleton, klogCount]
    dsimp only
    split <;> omega
  · rw [length_append, length_singleton] at recent
    dsimp only [klogCount] at recent ⊢
    rw [head]
    rcases Nat.lt_succ_iff_lt_or_eq.mp (length_append ▸ there) with earlier | rfl
    · rw [Function.update_of_ne (by omega), recs j earlier (by omega), getElem_append_left]
    · rw [Function.update_self, getElem_concat_length rfl]

theorem stored_after {r : Ring} {messages : List Rec} (after : After r messages) :
    stored r = messages.drop (messages.length - klogCount) := by
  obtain ⟨head, count, recs⟩ := after
  unfold stored klogCount at *
  refine ext_getElem (by simp; omega) fun i low high => ?_
  rw [length_drop] at high
  rw [getElem_map, getElem_range, getElem_drop, ← recs _ (by omega) (by omega), head, count]
  congr 1
  omega

theorem run_fits {start r : Ring} {calls : List Call}
    (run : calls.foldlM perform start = some r) : ∀ c ∈ calls, Fits c := by
  induction calls generalizing start with
  | nil => nofun
  | cons c calls ih =>
    rw [foldlM_cons, Option.bind_eq_bind, Option.bind_eq_some_iff] at run
    obtain ⟨next, taken, run⟩ := run
    refine forall_mem_cons.mpr ⟨?_, ih run⟩
    by_contra no
    rw [(perform_eq start c).2 no] at taken
    cases taken

theorem run_after (start : Nat → Rec) {calls : List Call} (fits : ∀ c ∈ calls, Fits c) :
    ∃ r, calls.foldlM perform ⟨start, 0, 0⟩ = some r ∧ After r (calls.map Call.message) := by
  induction calls using List.reverseRecOn with
  | nil => exact ⟨_, rfl, rfl, rfl, nofun⟩
  | append_singleton calls c ih =>
    obtain ⟨before, single⟩ := forall_mem_append.mp fits
    obtain ⟨r, run, after⟩ := ih before
    refine ⟨_, ?_, by rw [map_append]; exact after_push after c.message⟩
    rw [foldlM_append, run]
    simp [(perform_eq r c).1 (single c mem_cons_self)]

theorem pad_length {v width most : Nat} (digits : v < 10 ^ most) (fits : width ≤ most)
    (some_ : 0 < most) : (klogPadU32 v width).length ≤ most := by
  have short : (klogFmtU32 v).length ≤ most := by
    unfold klogFmtU32
    split
    · exact some_
    · rw [length_map, length_reverse]
      exact (Nat.digits_length_le_iff (by decide) v).mpr digits
  rw [klogPadU32, length_append, length_replicate]
  omega

theorem line_length (r : Rec) (short : r.text.length < klogLineMax) :
    (line r).length < 24 + klogLineMax := by
  have seconds : (klogPadU32 (r.tick.toNat / 100) 6).length ≤ 8 :=
    pad_length (by have := r.tick.toNat_lt; omega) (by decide) (by decide)
  have rest : (klogPadU32 (r.tick.toNat % 100 * 10) 3).length ≤ 3 :=
    pad_length (by omega) (by decide) (by decide)
  simp only [line, length_append, length_cons, length_nil, klogLineMax] at *
  omega

/-- The log is right exactly if no text of `klog` is longer than its buffer. -/
theorem logged_iff (start : Nat → Rec) (calls : List Call) :
    Logged start calls ↔ ∀ c ∈ calls, Fits c := by
  constructor
  · rintro ⟨r, run, -⟩
    exact run_fits run
  · intro fits
    obtain ⟨r, run, after⟩ := run_after start fits
    have last := stored_after after
    rw [length_map] at last
    refine ⟨r, run, last, fun levelFilter => ?_⟩
    rw [klogDump, last]
    refine if_pos (all_eq_true.mpr fun l there => ?_)
    obtain ⟨m, kept, rfl⟩ := mem_map.mp there
    obtain ⟨c, -, rfl⟩ := mem_map.mp (mem_of_mem_drop (mem_of_mem_filter kept))
    refine decide_eq_true (line_length _ ?_)
    cases c <;> exact cut_length _

/-- A text of 96 characters is written outside the buffer. -/
theorem long_text_outside :
    ¬Logged (fun _ => ⟨0, 0, []⟩) [.klog 7 0 (replicate 96 65)] := by
  rintro ⟨r, run, -⟩
  cases run

end IcsOs.Console.Klog
