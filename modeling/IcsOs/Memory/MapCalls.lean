/- GID: IcsOs/Memory/MapCalls
   generality: I
   source: kernel/memory/dexmem.c
   digest: Single calls: the range mmap returns in 64-bit arithmetic, and the pages mprotect
   changes. -/

import IcsOs.Memory.Layout

set_option autoImplicit false

namespace IcsOs.Memory.MapCalls

open Memory.FileMaps (freeSlot_free)
open Memory.Layout (vmAreaSetProt)
open Memory.Vma Vfs.OpenFiles

section Mapping

/-- The areas of a process and `mmap_brk`. -/
@[ext] structure Maps where
  vmas : Vmas
  mmapBrk : Nat

/-- A page-aligned address or size at or below it. -/
def pageDown (n : Nat) : Nat := n - n % 0x1000

def heapOf (req : MapRequest) : Nat := max req.knext memUserHeap

/-- The base `vm_area_alloc` chooses; sums and differences wrap. -/
def chooseBase (m : Maps) (req : MapRequest) : Option Nat :=
  if req.fixed then
    let base := pageDown req.hint
    let end_ := areaEnd base req.length
    if base < heapOf req + mmapGuard ∨ memUserHeapLimit < end_ ∨
        overlaps m.vmas base end_ = true then none
    else some base
  else
    let vlen := mapLength req.length
    let below := (m.mmapBrk + 2 ^ 64 - vlen) % 2 ^ 64
    if m.mmapBrk < (vlen + mmapGuard) % 2 ^ 64 ∨ below < heapOf req + mmapGuard then none
    else some (pageDown below)

/-- Without `MAP_FIXED`, a first call sets `mmap_brk`. -/
def prepare (m : Maps) (req : MapRequest) : Maps :=
  if req.fixed = false ∧ m.mmapBrk = 0 then { m with mmapBrk := memUserHeapLimit } else m

/-- `early` refuses the file or its offset, `mapped`: anonymous pages could be mapped. -/
def dex32Mmap (m : Maps) (req : MapRequest) (file : Option FileId) (early mapped : Bool) :
    Option Nat × Maps :=
  if req.length = 0 ∨ early = true then (none, m)
  else
    let m₁ := prepare m req
    match chooseBase m₁ req, freeSlot m.vmas with
    | some base, some i =>
      if file = none ∧ mapped = false then (none, m₁)
      else
        (some base, ⟨Function.update m.vmas i (req.area base file),
          if req.fixed then m₁.mmapBrk else base⟩)
    | _, _ => (none, m₁)

/-- `length` in whole pages, without the wrap. -/
def pagesLength (length : Nat) : Nat := (length + 0xFFF) / 0x1000 * 0x1000

/-- The range asked for, or nothing. -/
def Sound (m : Maps) (req : MapRequest) : Option Nat × Maps → Prop
  | (some base, m') => base + req.length ≤ memUserHeapLimit ∧ memUserHeap ≤ base ∧
      ∃ i v, (m.vmas i).start = 0 ∧ m'.vmas = Function.update m.vmas i v ∧ v.start = base ∧
        v.end_ = base + pagesLength req.length
  | (none, m') => m' = m

/-- A range that wraps at 2^64 and that the checks of `vm_area_alloc` let through. -/
def WrapsThrough (m : Maps) (req : MapRequest) : Prop :=
  if req.fixed then
    let base := pageDown req.hint
    let past := base + pagesLength req.length - 2 ^ 64
    2 ^ 64 ≤ base + pagesLength req.length ∧ heapOf req + mmapGuard ≤ base ∧
      past ≤ memUserHeapLimit ∧ overlaps m.vmas base past = false
  else
    2 ^ 64 ≤ pagesLength req.length + mmapGuard ∧
      heapOf req + mmapGuard + pagesLength req.length ≤ m.mmapBrk + 2 ^ 64

variable {m : Maps} {req : MapRequest} {base : Nat}

theorem mapLength_pages :
    mapLength req.length = pagesLength req.length % 2 ^ 64 := by
  unfold mapLength pagesLength
  omega

theorem pagesLength_le (word : req.length < 2 ^ 64) :
    pagesLength req.length ≤ 2 ^ 64 ∧ req.length ≤ pagesLength req.length ∧
      pagesLength req.length % 0x1000 = 0 := by
  unfold pagesLength
  omega

/-- A base for a range that does not wrap. -/
theorem chooseBase_sound (low : m.mmapBrk ≤ memUserHeapLimit) (aligned : m.mmapBrk % 0x1000 = 0)
    (word : req.length < 2 ^ 64 ∧ req.hint < 2 ^ 64) (chosen : chooseBase m req = some base)
    (inside : ¬ WrapsThrough m req) :
    memUserHeap ≤ base ∧ base + pagesLength req.length ≤ memUserHeapLimit := by
  have heap : memUserHeap ≤ heapOf req := Nat.le_max_right ..
  have length := pagesLength_le word.1
  unfold WrapsThrough at inside
  unfold chooseBase areaEnd at chosen
  rw [mapLength_pages] at chosen
  generalize pagesLength req.length = pages at *
  dsimp only [pageDown] at chosen inside
  unfold memUserHeapLimit mmapGuard at *
  split at chosen
  · rename_i fixed
    rw [if_pos fixed] at inside
    split at chosen
    · cases chosen
    rename_i granted
    rw [not_or, not_or] at granted
    cases chosen
    by_cases wraps : 2 ^ 64 ≤ req.hint - req.hint % 0x1000 + pages
    · have past : (req.hint - req.hint % 0x1000 + pages % 2 ^ 64) % 2 ^ 64 =
          req.hint - req.hint % 0x1000 + pages - 2 ^ 64 := by
        omega
      rw [past] at granted
      exact absurd ⟨wraps, by omega, by omega, by simpa using granted.2.2⟩ inside
    · constructor
      · omega
      · omega
  · rename_i fixed
    rw [if_neg fixed] at inside
    split at chosen
    · cases chosen
    rename_i granted
    rw [not_or] at granted
    cases chosen
    constructor
    · omega
    · omega

/-- A range that wraps is granted at a base from which it wraps. -/
theorem chooseBase_wraps (low : m.mmapBrk ≤ memUserHeapLimit)
    (word : req.length < 2 ^ 64 ∧ req.hint < 2 ^ 64) (wraps : WrapsThrough m req) :
    ∃ base, chooseBase m req = some base ∧ ¬ base + req.length ≤ memUserHeapLimit := by
  have heap : memUserHeap ≤ heapOf req := Nat.le_max_right ..
  have length := pagesLength_le word.1
  have near : pagesLength req.length < req.length + 0x1000 := by
    unfold pagesLength
    omega
  unfold WrapsThrough at wraps
  unfold chooseBase areaEnd
  rw [mapLength_pages]
  generalize pagesLength req.length = pages at *
  dsimp only [pageDown] at wraps ⊢
  unfold memUserHeap at heap
  unfold memUserHeapLimit mmapGuard at *
  split at wraps
  · rename_i fixed
    rw [if_pos fixed]
    have past : (req.hint - req.hint % 0x1000 + pages % 2 ^ 64) % 2 ^ 64 =
        req.hint - req.hint % 0x1000 + pages - 2 ^ 64 := by
      omega
    rw [past, wraps.2.2.2, if_neg (by simp; omega)]
    exact ⟨_, rfl, by omega⟩
  · rename_i fixed
    rw [if_neg fixed, if_neg (by omega)]
    exact ⟨_, rfl, by omega⟩

theorem prepare_set (set : m.mmapBrk ≠ 0) : prepare m req = m := by
  unfold prepare
  rw [if_neg fun first => set first.2]

/-- Sound just when it fails early or for want of pages or of a slot, or does not wrap through. -/
theorem mmap_sound_iff (set : m.mmapBrk ≠ 0) (aligned : m.mmapBrk % 0x1000 = 0)
    (low : m.mmapBrk ≤ memUserHeapLimit) (word : req.length < 2 ^ 64 ∧ req.hint < 2 ^ 64)
    (file : Option FileId) (early mapped : Bool) :
    Sound m req (dex32Mmap m req file early mapped) ↔
      early = true ∨ (file = none ∧ mapped = false) ∨ (∀ i, (m.vmas i).start ≠ 0) ∨
        ¬ WrapsThrough m req := by
  have heap : memUserHeap ≤ heapOf req := Nat.le_max_right ..
  unfold dex32Mmap
  rw [prepare_set set]
  by_cases stop : req.length = 0 ∨ early = true
  · rw [if_pos stop]
    refine ⟨fun _ => stop.elim (fun zero => .inr (.inr (.inr ?_))) .inl, fun _ => rfl⟩
    intro wraps
    unfold WrapsThrough pagesLength pageDown memUserHeapLimit mmapGuard at wraps
    rw [zero] at wraps
    split at wraps
    · omega
    · omega
  rw [if_neg stop]
  rw [not_or, Bool.not_eq_true] at stop
  dsimp only
  cases found : freeSlot m.vmas with
  | none =>
    have full : ∀ i, (m.vmas i).start ≠ 0 := by
      intro i free
      exact List.find?_eq_none.mp found i (mem_slots i) (by simpa using free)
    refine ⟨fun _ => .inr (.inr (.inl full)), fun _ => ?_⟩
    cases chooseBase m req <;> rfl
  | some i =>
    have room : ¬ ∀ i, (m.vmas i).start ≠ 0 := fun full => full i (freeSlot_free found)
    rw [stop.2, or_iff_right (by decide), or_iff_right room]
    cases chosen : chooseBase m req with
    | none =>
      refine ⟨fun _ => .inr fun wraps => ?_, fun _ => rfl⟩
      obtain ⟨base, granted, -⟩ := chooseBase_wraps low word wraps
      rw [chosen] at granted
      cases granted
    | some base =>
      dsimp only
      by_cases unmapped : file = none ∧ mapped = false
      · rw [if_pos unmapped]
        exact ⟨fun _ => .inl unmapped, fun _ => rfl⟩
      rw [if_neg unmapped, or_iff_right unmapped]
      constructor
      · intro sound wraps
        obtain ⟨base', granted, beyond⟩ := chooseBase_wraps low word wraps
        obtain rfl : base = base' := Option.some.inj (chosen.symm.trans granted)
        exact beyond sound.1
      intro inside
      have place := chooseBase_sound low aligned word chosen inside
      have length := pagesLength_le word.1
      refine ⟨by omega, place.1, i, _, freeSlot_free found, rfl, rfl, ?_⟩
      unfold memUserHeapLimit at place
      unfold MapRequest.area areaEnd
      rw [mapLength_pages]
      dsimp only
      omega

/-- The maps of a new process. -/
def freshMaps : Maps := ⟨fun _ => VmArea.zero, memUserHeapLimit⟩

/-- One page of anonymous memory. -/
def onePage : MapRequest := ⟨0x1000, true, false, 0, 0, false, memUserHeap⟩

theorem mmap_sound_onePage :
    (dex32Mmap freshMaps onePage none false true).1 = some 0x3FCFF000 ∧
      Sound freshMaps onePage (dex32Mmap freshMaps onePage none false true) :=
  ⟨by decide +kernel, (mmap_sound_iff (by decide) (by decide) (by decide) (by decide) _ _ _).mpr
    (.inr (.inr (.inr (by unfold WrapsThrough; decide))))⟩

/-- A length of 2^64 - 1 gets an empty area. -/
theorem whole_space_mapped :
    (dex32Mmap freshMaps { onePage with length := 2 ^ 64 - 1 } none false true).1 =
        some memUserHeapLimit ∧
      ((dex32Mmap freshMaps { onePage with length := 2 ^ 64 - 1 } none false true).2.vmas 0).end_ =
        memUserHeapLimit := by
  decide +kernel

end Mapping

section Protecting

/-- The areas of a process and its present leaves, by page number. -/
@[ext] structure Pages where
  vmas : Vmas
  leaves : Nat → Option Entry

def inRange (start end_ page : Nat) : Prop := start ≤ page * 0x1000 ∧ page * 0x1000 < end_

/-- Some area holds the page. -/
def Pages.mapped (s : Pages) (page : Nat) : Prop :=
  ∃ i, (s.vmas i).start ≠ 0 ∧ inRange (s.vmas i).start (s.vmas i).end_ page

instance (start end_ page : Nat) : Decidable (inRange start end_ page) :=
  inferInstanceAs (Decidable (_ ∧ _))

instance (s : Pages) (page : Nat) : Decidable (s.mapped page) :=
  inferInstanceAs (Decidable (∃ _, _))

def protectLeaf (attb e : Entry) : Entry := (e &&& ~~~(pgWr ||| pgUser)) ||| attb

/-- `vm_area_set_prot`: whole areas, and the leaves of the range. -/
def Pages.protect (s : Pages) (start end_ : Nat) (write : Bool) : Pages where
  vmas := vmAreaSetProt s.vmas start end_ write
  leaves page :=
    if inRange start end_ page ∧ s.mapped page then
      (s.leaves page).map (protectLeaf (vmAttbFromProt write))
    else s.leaves page

/-- No area that meets the range goes beyond it. -/
def Pages.covered (s : Pages) (start end_ : Nat) : Bool :=
  decide (∀ i, (s.vmas i).meets start end_ = true →
    start ≤ (s.vmas i).start ∧ (s.vmas i).end_ ≤ end_)

/-- Ranges that are refused. -/
def Improper (addr length : Nat) : Prop :=
  length = 0 ∨ addr % 0x1000 ≠ 0 ∨ areaEnd addr length ≤ addr

instance (addr length : Nat) : Decidable (Improper addr length) :=
  inferInstanceAs (Decidable (_ ∨ _))

def dex32Mprotect (s : Pages) (addr length : Nat) (write : Bool) : Bool × Pages :=
  if Improper addr length then (false, s)
  else (s.covered addr (areaEnd addr length), s.protect addr (areaEnd addr length) write)

/-- Failure changes nothing; success protects the pages of the range, and no others. -/
structure Exact (s : Pages) (start end_ : Nat) (write : Bool) (out : Bool × Pages) : Prop where
  failure : out.1 = false → out.2 = s
  pages : out.1 = true → ∀ page, inRange start end_ page → s.mapped page ∧
    (∀ i, (s.vmas i).start ≠ 0 → inRange (s.vmas i).start (s.vmas i).end_ page →
      (out.2.vmas i).prot = vmAttbFromProt write) ∧
    ∀ e, out.2.leaves page = some e → e &&& (pgWr ||| pgUser) = vmAttbFromProt write
  others : out.1 = true → ∀ page, ¬ inRange start end_ page →
    out.2.leaves page = s.leaves page ∧ ∀ i, (s.vmas i).start ≠ 0 →
      inRange (s.vmas i).start (s.vmas i).end_ page → out.2.vmas i = s.vmas i

variable {s : Pages} {start end_ page : Nat} {write : Bool} {i : Slot}

theorem meets_of_page (used : (s.vmas i).start ≠ 0)
    (held : inRange (s.vmas i).start (s.vmas i).end_ page) (inside : inRange start end_ page) :
    (s.vmas i).meets start end_ = true :=
  decide_eq_true ⟨used, Nat.lt_of_le_of_lt held.1 inside.2, Nat.lt_of_le_of_lt inside.1 held.2⟩

theorem protectLeaf_bits (write : Bool) (e : Entry) :
    protectLeaf (vmAttbFromProt write) e &&& (pgWr ||| pgUser) = vmAttbFromProt write := by
  have part : vmAttbFromProt write &&& (pgWr ||| pgUser) = vmAttbFromProt write := by
    cases write <;> decide
  unfold protectLeaf
  generalize pgWr ||| pgUser = mask at part ⊢
  rw [← part]
  apply BitVec.eq_of_getLsbD_eq
  intro i _
  simp only [BitVec.getLsbD_and, BitVec.getLsbD_or, BitVec.getLsbD_not]
  cases mask.getLsbD i <;> simp

theorem protectLeaf_eq_iff (write : Bool) (e : Entry) :
    protectLeaf (vmAttbFromProt write) e = e ↔ e &&& (pgWr ||| pgUser) = vmAttbFromProt write := by
  constructor
  · intro same
    rw [← same]
    exact protectLeaf_bits write e
  · intro bits
    unfold protectLeaf
    rw [← bits]
    apply BitVec.eq_of_getLsbD_eq
    intro i inside
    simp only [BitVec.getLsbD_and, BitVec.getLsbD_or, BitVec.getLsbD_not, inside, decide_true]
    cases e.getLsbD i <;> cases pgWr.getLsbD i <;> simp

/-- Every area met and every present leaf of the range has the protection already. -/
def Pages.Protected (s : Pages) (start end_ : Nat) (write : Bool) : Prop :=
  (∀ i, (s.vmas i).meets start end_ = true → (s.vmas i).prot = vmAttbFromProt write) ∧
    ∀ page, inRange start end_ page → s.mapped page → ∀ e, s.leaves page = some e →
      e &&& (pgWr ||| pgUser) = vmAttbFromProt write

theorem protect_eq_iff : s.protect start end_ write = s ↔ s.Protected start end_ write := by
  rw [Pages.ext_iff, funext_iff, funext_iff]
  refine and_congr (forall_congr' fun i => ?_) (forall_congr' fun page => ?_)
  · dsimp only [Pages.protect, vmAreaSetProt]
    split
    · rename_i meets
      rw [forall_prop_of_true meets]
      exact ⟨fun same => by rw [← same], fun same => by rw [← same]⟩
    · rename_i apart
      exact ⟨fun _ meets => absurd meets apart, fun _ => rfl⟩
  · dsimp only [Pages.protect]
    split
    · rename_i here
      rw [forall_prop_of_true here.1, forall_prop_of_true here.2]
      cases s.leaves page with
      | none => simp
      | some e =>
        rw [Option.map_some, Option.some.injEq, protectLeaf_eq_iff]
        simp
    · rename_i away
      exact ⟨fun _ inside held => absurd ⟨inside, held⟩ away, fun _ => rfl⟩

theorem exact_covered (covered : s.covered start end_ = true)
    (full : ∀ page, inRange start end_ page → s.mapped page) :
    Exact s start end_ write (true, s.protect start end_ write) := by
  refine ⟨nofun, fun _ page inside => ⟨full page inside, ?_, ?_⟩, fun _ page outside => ⟨?_, ?_⟩⟩
  · intro i used held
    dsimp only [Pages.protect, vmAreaSetProt]
    rw [if_pos (meets_of_page used held inside)]
  · intro e there
    dsimp only [Pages.protect] at there
    rw [if_pos ⟨inside, full page inside⟩] at there
    obtain ⟨before, -, rfl⟩ := Option.map_eq_some_iff.mp there
    exact protectLeaf_bits write before
  · exact if_neg fun both => outside both.1
  · intro i used held
    refine if_neg fun meets => outside ?_
    have whole := of_decide_eq_true covered i meets
    exact ⟨whole.1.trans held.1, held.2.trans_le whole.2⟩

/-- Exact just when refused, or no area sticks out and there is no gap, or one sticks out and
all have the protection already. -/
theorem mprotect_exact_iff (s : Pages) (addr length : Nat) (write : Bool) :
    Exact s addr (areaEnd addr length) write (dex32Mprotect s addr length write) ↔
      Improper addr length ∨
      (s.covered addr (areaEnd addr length) = true ∧
        ∀ page, inRange addr (areaEnd addr length) page → s.mapped page) ∨
      (s.covered addr (areaEnd addr length) = false ∧
        s.Protected addr (areaEnd addr length) write) := by
  unfold dex32Mprotect
  by_cases improper : Improper addr length
  · rw [if_pos improper]
    exact ⟨fun _ => .inl improper, fun _ => ⟨fun _ => rfl, nofun, nofun⟩⟩
  rw [if_neg improper, or_iff_right improper]
  cases covered : s.covered addr (areaEnd addr length) with
  | false =>
    refine ⟨fun exact_ => .inr ⟨rfl, protect_eq_iff.mp (exact_.failure rfl)⟩, ?_⟩
    rintro (⟨⟨⟩, -⟩ | ⟨-, same⟩)
    exact ⟨fun _ => protect_eq_iff.mpr same, nofun, nofun⟩
  | true =>
    refine ⟨fun exact_ => .inl ⟨rfl, fun page inside => (exact_.pages rfl page inside).1⟩, ?_⟩
    rintro (⟨-, full⟩ | ⟨⟨⟩, -⟩)
    exact exact_covered covered full

/-- Two writable pages in one area. -/
def twoPages : Pages where
  vmas i :=
    if i.val = 0 then ⟨0x10000000, 0x10002000, vmAttbFromProt true, false, none, 0⟩ else .zero
  leaves _ := none

/-- One of two pages made read-only: refused, and both are read-only. -/
theorem refused_protect_changes :
    (dex32Mprotect twoPages 0x10000000 0x1000 false).1 = false ∧
      ((dex32Mprotect twoPages 0x10000000 0x1000 false).2.vmas 0).prot = pgUser ∧
      (twoPages.vmas 0).prot ≠ pgUser := by
  decide +kernel

end Protecting

end IcsOs.Memory.MapCalls
