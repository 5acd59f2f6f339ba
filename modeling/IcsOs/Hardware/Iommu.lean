/- GID: IcsOs/Hardware/Iommu
   generality: I
   source: kernel/hardware/iommu.h
   digest: Address ranges mapped in a domain stay apart, aligned and inside its aperture. -/

import Mathlib.Algebra.Group.Nat.Defs
import Mathlib.Data.List.FinRange
import IcsOs.Lib.Runs

set_option autoImplicit false

namespace IcsOs.Hardware.Iommu

open List
open Lib.Runs

abbrev U32 := Fin (2 ^ 32)

abbrev U64 := Fin (2 ^ 64)

inductive DomainType
  | identity
  | translated
  | blocked
  deriving DecidableEq

structure Mapping where
  iova : Nat
  physical : Nat
  length : Nat
  permissions : Nat
  active : Bool
  deriving DecidableEq

structure Domain where
  type : DomainType
  requesterId : Nat
  attached : Bool
  faulted : Bool
  faultCount : Nat
  iovaStart : Nat
  iovaEnd : Nat
  mappings : Fin 64 → Mapping

/-- The last address of a range, as computed in 64 bits. -/
def rangeEnd (start length : Nat) : Nat := (start + length + (2 ^ 64 - 1)) % 2 ^ 64

def iommuRangeValid (start length endLimit : Nat) : Bool :=
  length ≠ 0 && start ≤ rangeEnd start length && rangeEnd start length ≤ endLimit

def iommuRangesOverlap (firstStart firstLength secondStart secondLength : Nat) : Bool :=
  firstStart ≤ rangeEnd secondStart secondLength && secondStart ≤ rangeEnd firstStart firstLength

/-- `iommu_domain_init` over whatever the structure held. -/
def iommuDomainInit (domain : Domain) (type : DomainType) (iovaStart iovaEnd : U64) :
    Option Domain :=
  if type = .translated ∧ (iovaEnd.val < iovaStart.val ∨ iovaStart.val % 4096 ≠ 0 ∨
      (iovaEnd.val + 1) % 2 ^ 64 % 4096 ≠ 0) then none
  else some
    { type := type
      requesterId := 0
      attached := false
      faulted := false
      faultCount := 0
      iovaStart := iovaStart.val
      iovaEnd := iovaEnd.val
      mappings := fun i => { domain.mappings i with active := false } }

def iommuDomainAttach (domain : Domain) (requesterId : Nat) : Option Domain :=
  if domain.attached || 0xFFFF < requesterId then none
  else some { domain with requesterId := requesterId, attached := true }

def freeSlot (domain : Domain) : Option (Fin 64) :=
  (List.finRange 64).find? fun i => !(domain.mappings i).active

def collision (domain : Domain) (candidate length : Nat) : Option (Fin 64) :=
  (List.finRange 64).find? fun i =>
    (domain.mappings i).active &&
      iommuRangesOverlap candidate length (domain.mappings i).iova (domain.mappings i).length

/-- Still searching, no room, or an address. -/
def search (domain : Domain) (length : Nat) : Nat → Nat → Option (Option Nat)
  | 0, _ => none
  | rounds + 1, candidate =>
    if candidate < domain.iovaStart || !iommuRangeValid candidate length domain.iovaEnd then
      some none
    else
      match collision domain candidate length with
      | none => some (some candidate)
      | some i =>
        search domain length rounds
          (((domain.mappings i).iova + (domain.mappings i).length) % 2 ^ 64)

/-- Where a mapping goes after so many rounds of the search. -/
def place (domain : Domain) (physical length rounds : Nat) : Option (Option Nat) :=
  if domain.type = .identity then
    if !iommuRangeValid physical length (2 ^ 64 - 1) then some none
    else if (collision domain physical length).isSome then some none
    else some (some physical)
  else search domain length rounds domain.iovaStart

/-- Whether `iommu_domain_map` looks for a place at all. -/
def mappable (domain : Domain) (requesterId physical length permissions : Nat) : Bool :=
  domain.attached && !domain.faulted && domain.requesterId = requesterId &&
    (permissions = 1 || permissions = 2 || permissions = 3) && physical % 4096 = 0 &&
    length % 4096 = 0 && length ≠ 0 && domain.type ≠ .blocked

def setMapping (domain : Domain) (slot : Fin 64) (mapping : Mapping) : Domain :=
  { domain with mappings := Function.update domain.mappings slot mapping }

/-- Domain and address, if the call returns within the rounds. -/
def iommuDomainMap (domain : Domain) (requesterId physical length permissions rounds : Nat) :
    Option (Domain × Option Nat) :=
  if !mappable domain requesterId physical length permissions then some (domain, none)
  else
    match freeSlot domain with
    | none => some (domain, none)
    | some slot =>
      match place domain physical length rounds with
      | none => none
      | some none => some (domain, none)
      | some (some iova) =>
        some (setMapping domain slot ⟨iova, physical, length, permissions, true⟩, some iova)

def iommuDomainUnmap (domain : Domain) (requesterId iova length : Nat) : Option Domain :=
  if !domain.attached || domain.requesterId ≠ requesterId || length = 0 then none
  else
    match (List.finRange 64).find? fun i => (domain.mappings i).active &&
        (domain.mappings i).iova = iova && (domain.mappings i).length = length with
    | none => none
    | some i => some (setMapping domain i { domain.mappings i with active := false })

def iommuDomainDetach (domain : Domain) (requesterId : Nat) : Option Domain :=
  if !domain.attached || domain.requesterId ≠ requesterId then none
  else if (List.finRange 64).any fun i => (domain.mappings i).active then none
  else some { domain with attached := false, requesterId := 0 }

def iommuDomainFault (domain : Domain) (requesterId : Nat) : Option Domain :=
  if !domain.attached || domain.requesterId ≠ requesterId then none
  else some { domain with faultCount := (domain.faultCount + 1) % 2 ^ 32, faulted := true }

inductive Call
  | attach (requesterId : U32)
  | map (requesterId : U32) (physical length : U64) (permissions : U32)
  | unmap (requesterId : U32) (iova length : U64)
  | detach (requesterId : U32)
  | fault (requesterId : U32)

/-- Failure, success, or success with an address. -/
inductive Reply
  | failed
  | done
  | mapped (iova : Nat)

/-- A call that changes the domain only if it succeeds. -/
def settle (domain : Domain) : Option Domain → Domain × Reply
  | none => (domain, .failed)
  | some domain' => (domain', .done)

/-- None while a search goes on after the rounds. -/
def perform (domain : Domain) (rounds : Nat) : Call → Option (Domain × Reply)
  | .attach r => some (settle domain (iommuDomainAttach domain r.val))
  | .map r physical length permissions =>
    match iommuDomainMap domain r.val physical.val length.val permissions.val rounds with
    | none => none
    | some (domain', none) => some (domain', .failed)
    | some (domain', some iova) => some (domain', .mapped iova)
  | .unmap r iova length => some (settle domain (iommuDomainUnmap domain r.val iova.val length.val))
  | .detach r => some (settle domain (iommuDomainDetach domain r.val))
  | .fault r => some (settle domain (iommuDomainFault domain r.val))

def Returns (domain : Domain) (call : Call) (reply : Reply) (domain' : Domain) : Prop :=
  ∃ rounds, perform domain rounds call = some (domain', reply)

/-- From initialisation on, whatever memory held before. -/
def domains : System Domain (Call × Reply) where
  start domain := ∃ memory type iovaStart iovaEnd,
    iommuDomainInit memory type iovaStart iovaEnd = some domain
  step domain act domain' := Returns domain act.1 act.2 domain'

/-- Whole pages that do not wrap, in the aperture, or in an identity domain at the physical address.
-/
structure Sound (domain : Domain) (m : Mapping) : Prop where
  pages : m.iova % 4096 = 0 ∧ m.length % 4096 = 0
  range : 0 < m.length ∧ m.iova + m.length ≤ 2 ^ 64
  aperture : domain.type = .translated →
    domain.iovaStart ≤ m.iova ∧ m.iova + m.length ≤ domain.iovaEnd + 1
  identity : domain.type = .identity → m.iova = m.physical

/-- Ranges without a common address. -/
def Apart (m m' : Mapping) : Prop := m.iova + m.length ≤ m'.iova ∨ m'.iova + m'.length ≤ m.iova

structure Tidy (domain : Domain) : Prop where
  sound : ∀ i, (domain.mappings i).active = true → Sound domain (domain.mappings i)
  apart : ∀ i j, i ≠ j → (domain.mappings i).active = true → (domain.mappings j).active = true →
    Apart (domain.mappings i) (domain.mappings j)
  detached : domain.attached = false → ∀ i, (domain.mappings i).active = false

/-- What success did to the mappings; failure changes nothing. -/
def Effect (domain : Domain) : Call → Reply → Domain → Prop
  | .map _ physical length permissions, .mapped iova, domain' =>
    (domain.attached = true ∧ domain.faulted = false ∧ domain.type ≠ .blocked) ∧
      ∃ slot, (domain.mappings slot).active = false ∧
        domain' = setMapping domain slot ⟨iova, physical.val, length.val, permissions.val, true⟩
  | .unmap _ iova length, .done, domain' =>
    ∃ slot, ((domain.mappings slot).active = true ∧ (domain.mappings slot).iova = iova.val ∧
        (domain.mappings slot).length = length.val) ∧
      (∀ i, (domain.mappings i).active = true → (domain.mappings i).iova = iova.val → i = slot) ∧
      domain' = setMapping domain slot { domain.mappings slot with active := false }
  | .map _ _ _ _, .done, _ => False
  | _, .failed, domain' => domain' = domain
  | _, .mapped _, _ => False
  | _, .done, domain' => domain'.mappings = domain.mappings

section Ranges

variable {start length start' length' limit : Nat}

theorem rangeEnd_eq (pos : 0 < length) (fits : start + length ≤ 2 ^ 64) :
    rangeEnd start length = start + length - 1 := by
  have split : start + length + (2 ^ 64 - 1) = start + length - 1 + 2 ^ 64 := by omega
  unfold rangeEnd
  rw [split, Nat.add_mod_right, Nat.mod_eq_of_lt (by omega)]

theorem rangeValid_spec (low : start < 2 ^ 64) (short : length < 2 ^ 64) (top : limit < 2 ^ 64)
    (valid : iommuRangeValid start length limit = true) :
    0 < length ∧ start + length ≤ limit + 1 := by
  unfold iommuRangeValid at valid
  simp only [Bool.and_eq_true, decide_eq_true_eq] at valid
  obtain ⟨⟨some_, ordered⟩, inside⟩ := valid
  by_cases fits : start + length ≤ 2 ^ 64
  · rw [rangeEnd_eq (by omega) fits] at inside
    omega
  have wrapped : rangeEnd start length = start + length - 1 - 2 ^ 64 := by
    have split : start + length + (2 ^ 64 - 1) = start + length - 1 - 2 ^ 64 + 2 ^ 64 * 2 := by
      omega
    unfold rangeEnd
    rw [split, Nat.add_mul_mod_self_left, Nat.mod_eq_of_lt (by omega)]
  omega

theorem apart_of_not_overlap (pos : 0 < length) (fits : start + length ≤ 2 ^ 64)
    (pos' : 0 < length') (fits' : start' + length' ≤ 2 ^ 64)
    (clear : iommuRangesOverlap start length start' length' = false) :
    start + length ≤ start' ∨ start' + length' ≤ start := by
  unfold iommuRangesOverlap at clear
  rw [rangeEnd_eq pos fits, rangeEnd_eq pos' fits'] at clear
  simp only [Bool.and_eq_false_iff, decide_eq_false_iff_not] at clear
  omega

end Ranges

variable {i : Fin 64}

section Searching

variable {domain : Domain} {candidate length rounds iova : Nat}

theorem freeSlot_spec {slot : Fin 64} (found : freeSlot domain = some slot) :
    (domain.mappings slot).active = false := by
  have free := find?_some found
  simpa using free

theorem collision_none (clear : collision domain candidate length = none)
    (active : (domain.mappings i).active = true) :
    iommuRangesOverlap candidate length (domain.mappings i).iova (domain.mappings i).length =
      false := by
  have passed := find?_eq_none.1 clear i (mem_finRange i)
  rw [active, Bool.true_and] at passed
  exact Bool.eq_false_iff.2 passed

theorem collision_some (found : collision domain candidate length = some i) :
    (domain.mappings i).active = true := by
  have hit := find?_some found
  rw [Bool.and_eq_true] at hit
  exact hit.1

end Searching

/-- The mappings, with the bounds the search relies on. -/
structure Kept (domain : Domain) : Prop where
  tidy : Tidy domain
  start_aligned : domain.type = .translated → domain.iovaStart % 4096 = 0
  start_bounded : domain.iovaStart < 2 ^ 64
  end_bounded : domain.iovaEnd < 2 ^ 64

section

variable {domain domain' : Domain} {physical length rounds iova candidate : Nat}

/-- A free range of whole pages in the domain. -/
structure Free (domain : Domain) (physical length iova : Nat) : Prop where
  sound : ∀ permissions, Sound domain ⟨iova, physical, length, permissions, true⟩
  clear : ∀ i, (domain.mappings i).active = true → iova + length ≤ (domain.mappings i).iova ∨
      (domain.mappings i).iova + (domain.mappings i).length ≤ iova

theorem clear_of_collision (kept : Kept domain) (pos : 0 < length)
    (fits : iova + length ≤ 2 ^ 64) (none_ : collision domain iova length = none) :
    ∀ i, (domain.mappings i).active = true → iova + length ≤ (domain.mappings i).iova ∨
      (domain.mappings i).iova + (domain.mappings i).length ≤ iova := by
  intro i active
  have range := (kept.tidy.sound i active).range
  exact apart_of_not_overlap pos fits range.1 range.2 (collision_none none_ active)

theorem search_spec (kept : Kept domain) (translated : domain.type = .translated)
    (short : length < 2 ^ 64) (pages : length % 4096 = 0) (physical : Nat) :
    ∀ rounds candidate, candidate % 4096 = 0 → candidate < 2 ^ 64 →
      search domain length rounds candidate = some (some iova) →
      Free domain physical length iova := by
  intro rounds
  induction rounds with
  | zero =>
    intro candidate _ _ found
    cases found
  | succ rounds step =>
    intro candidate aligned low found
    unfold search at found
    split_ifs at found with refused
    · cases found
    rw [Bool.or_eq_true, not_or, decide_eq_true_eq, Bool.not_eq_true', Bool.not_eq_false] at refused
    obtain ⟨above, valid⟩ := refused
    obtain ⟨pos, inside⟩ := rangeValid_spec low short kept.end_bounded valid
    cases hit : collision domain candidate length with
    | none =>
      rw [hit] at found
      obtain rfl : candidate = iova := Option.some.inj (Option.some.inj found)
      have fits : candidate + length ≤ 2 ^ 64 := by
        have top := kept.end_bounded
        omega
      refine ⟨?_, clear_of_collision kept pos fits hit⟩
      intro permissions
      exact ⟨⟨aligned, pages⟩, ⟨pos, fits⟩, fun _ => ⟨Nat.le_of_not_lt above, inside⟩,
        fun identity => absurd (translated.symm.trans identity) (by decide)⟩
    | some i =>
      rw [hit] at found
      have mapping := kept.tidy.sound i (collision_some hit)
      refine step _ ?_ (Nat.mod_lt _ (by decide)) found
      obtain ⟨first, second⟩ := mapping.pages
      omega

theorem translated_of (identity : domain.type ≠ .identity) (open_ : domain.type ≠ .blocked) :
    domain.type = .translated := by
  cases type : domain.type with
  | identity => exact absurd type identity
  | translated => rfl
  | blocked => exact absurd type open_

theorem place_spec (kept : Kept domain) (low : physical < 2 ^ 64) (short : length < 2 ^ 64)
    (aligned : physical % 4096 = 0) (pages : length % 4096 = 0) (open_ : domain.type ≠ .blocked)
    (found : place domain physical length rounds = some (some iova)) :
    Free domain physical length iova := by
  unfold place at found
  by_cases identity : domain.type = .identity
  · rw [if_pos identity] at found
    split_ifs at found with invalid taken
    · cases found
    · cases found
    obtain rfl : physical = iova := Option.some.inj (Option.some.inj found)
    rw [Bool.not_eq_true', Bool.not_eq_false] at invalid
    obtain ⟨pos, inside⟩ := rangeValid_spec low short (by decide) invalid
    have fits : physical + length ≤ 2 ^ 64 := inside
    have none_ : collision domain physical length = none := by
      rw [Bool.not_eq_true, Option.isSome_eq_false_iff] at taken
      exact Option.isNone_iff_eq_none.1 taken
    refine ⟨?_, clear_of_collision kept pos fits none_⟩
    intro permissions
    exact ⟨⟨aligned, pages⟩, ⟨pos, fits⟩, fun translated =>
      absurd (identity.symm.trans translated) (by decide), fun _ => rfl⟩
  · rw [if_neg identity] at found
    have translated := translated_of identity open_
    exact search_spec kept translated short pages physical rounds domain.iovaStart
      (kept.start_aligned translated) kept.start_bounded found

variable {candidate' : Nat} {i : Fin 64}

/-- A mapping that ends behind an address. -/
def ahead (domain : Domain) (candidate : Nat) (i : Fin 64) : Bool :=
  (domain.mappings i).active && candidate < (domain.mappings i).iova + (domain.mappings i).length

theorem collision_ahead (kept : Kept domain) (found : collision domain candidate length = some i) :
    ahead domain candidate i = true := by
  have active := collision_some found
  have range := (kept.tidy.sound i active).range
  have hit := find?_some found
  unfold iommuRangesOverlap at hit
  rw [rangeEnd_eq range.1 range.2] at hit
  simp only [Bool.and_eq_true, decide_eq_true_eq] at hit
  unfold ahead
  rw [active, Bool.true_and, decide_eq_true_eq]
  omega

theorem ahead_decreases (hit : ahead domain candidate i = true)
    (past : candidate' = (domain.mappings i).iova + (domain.mappings i).length) :
    (finRange 64).countP (ahead domain candidate') <
      (finRange 64).countP (ahead domain candidate) := by
  have further : candidate < candidate' := by
    unfold ahead at hit
    rw [Bool.and_eq_true, decide_eq_true_eq] at hit
    omega
  have fewer : ∀ j, ahead domain candidate' j = true → ahead domain candidate j = true := by
    intro j later
    unfold ahead at later ⊢
    rw [Bool.and_eq_true, decide_eq_true_eq] at later ⊢
    exact ⟨later.1, by omega⟩
  have gone : ahead domain candidate' i = false := by
    unfold ahead
    rw [past]
    simp
  rw [countP_eq_length_filter, countP_eq_length_filter]
  have part := monotone_filter_right (finRange 64) fewer
  refine Nat.lt_of_le_of_ne part.length_le fun same => ?_
  have member := mem_filter.2 ⟨mem_finRange i, hit⟩
  rw [← part.eq_of_length same, mem_filter, gone] at member
  exact Bool.false_ne_true member.2

/-- The search ends where no candidate that has `P` is followed by address 0 in the aperture. -/
theorem search_returns (kept : Kept domain) {P : Nat → Prop}
    (walk : ∀ candidate i, P candidate →
      iommuRangeValid candidate length domain.iovaEnd = true →
      collision domain candidate length = some i →
      (domain.mappings i).iova + (domain.mappings i).length < 2 ^ 64 ∧
          P ((domain.mappings i).iova + (domain.mappings i).length) ∨
        0 < domain.iovaStart ∧ (domain.mappings i).iova + (domain.mappings i).length = 2 ^ 64) :
    ∀ n candidate, P candidate → (finRange 64).countP (ahead domain candidate) ≤ n →
      ∃ result, search domain length (n + 2) candidate = some result := by
  intro n
  induction n with
  | zero =>
    intro candidate _ few
    unfold search
    split_ifs
    · exact ⟨_, rfl⟩
    cases hit : collision domain candidate length with
    | none => exact ⟨_, rfl⟩
    | some i =>
      have none_ := countP_eq_zero.1 (Nat.le_zero.1 few) i (mem_finRange i)
      exact absurd (collision_ahead kept hit) none_
  | succ n step =>
    intro candidate seen few
    unfold search
    split_ifs with refused
    · exact ⟨_, rfl⟩
    rw [Bool.or_eq_true, not_or, Bool.not_eq_true', Bool.not_eq_false] at refused
    cases hit : collision domain candidate length with
    | none => exact ⟨_, rfl⟩
    | some i =>
      dsimp only
      rcases walk candidate i seen refused.2 hit with ⟨low, seen'⟩ | ⟨above, top⟩
      · rw [Nat.mod_eq_of_lt low]
        have fewer := ahead_decreases (collision_ahead kept hit) rfl
        exact step _ seen' (by omega)
      · -- back at address 0, which is below the aperture
        unfold search
        rw [top, Nat.mod_self, decide_eq_true above, Bool.true_or, if_pos rfl]
        exact ⟨_, rfl⟩

theorem search_ends (kept : Kept domain) (translated : domain.type = .translated)
    (partial_ : 0 < domain.iovaStart ∨ domain.iovaEnd + 1 < 2 ^ 64) (length : Nat) :
    ∃ found, search domain length 66 domain.iovaStart = some found := by
  refine search_returns kept (P := fun _ => True) (fun candidate i _ _ hit => ?_) 64 _ trivial
    (countP_le_length (p := ahead domain domain.iovaStart) (l := finRange 64))
  have mapping := kept.tidy.sound i (collision_some hit)
  have inside := mapping.aperture translated
  have fits := mapping.range.2
  by_cases top : (domain.mappings i).iova + (domain.mappings i).length = 2 ^ 64
  · exact .inr ⟨by omega, top⟩
  · exact .inl ⟨by omega, trivial⟩

/-- A call for a mapping returns within 66 rounds. -/
theorem map_returns (kept : Kept domain)
    (partial_ : domain.type = .translated → 0 < domain.iovaStart ∨ domain.iovaEnd + 1 < 2 ^ 64)
    (requesterId physical length permissions : Nat) :
    ∃ result, iommuDomainMap domain requesterId physical length permissions 66 = some result := by
  unfold iommuDomainMap
  split_ifs with refused
  · exact ⟨_, rfl⟩
  cases freeSlot domain with
  | none => exact ⟨_, rfl⟩
  | some slot =>
    obtain ⟨found, placed⟩ : ∃ found, place domain physical length 66 = some found := by
      unfold place
      by_cases identity : domain.type = .identity
      · rw [if_pos identity]
        split_ifs
        · exact ⟨_, rfl⟩
        · exact ⟨_, rfl⟩
        · exact ⟨_, rfl⟩
      · rw [if_neg identity]
        have translated : domain.type = .translated := by
          unfold mappable at refused
          simp only [Bool.not_eq_true', Bool.not_eq_false, Bool.and_eq_true,
            decide_eq_true_eq] at refused
          exact translated_of identity refused.2
        exact search_ends kept translated (partial_ translated) length
    rw [placed]
    cases found with
    | none => exact ⟨_, rfl⟩
    | some iova => exact ⟨_, rfl⟩

end

section

variable {domain : Domain} {length : Nat}

/-- An aligned gap of the aperture. -/
def Gap (domain : Domain) (length x : Nat) : Prop :=
  x % 4096 = 0 ∧ domain.iovaStart ≤ x ∧ x + length ≤ domain.iovaEnd + 1 ∧
    ∀ i, (domain.mappings i).active = true → x + length ≤ (domain.mappings i).iova ∨
      (domain.mappings i).iova + (domain.mappings i).length ≤ x

/-- The lowest gap, or none at all. -/
def Lowest (domain : Domain) (length : Nat) : Option Nat → Prop
  | none => ∀ x, ¬ Gap domain length x
  | some iova => Gap domain length iova ∧ ∀ x, Gap domain length x → iova ≤ x

/-- A valid request returns, with the lowest gap if there is one. -/
def FirstFit (domain : Domain) (requesterId physical length permissions : Nat) : Prop :=
  ∃ rounds result, iommuDomainMap domain requesterId physical length permissions rounds =
    some result ∧ Lowest domain length result.2

theorem rangeValid_of {start limit : Nat} (pos : 0 < length) (inside : start + length ≤ limit + 1)
    (top : limit < 2 ^ 64) : iommuRangeValid start length limit = true := by
  unfold iommuRangeValid
  rw [rangeEnd_eq pos (by omega)]
  simp only [Bool.and_eq_true, decide_eq_true_eq]
  omega

/-- A range in the way overlaps. -/
theorem collision_meets (kept : Kept domain) {candidate : Nat} (pos : 0 < length)
    (fits : candidate + length ≤ 2 ^ 64) (hit : collision domain candidate length = some i) :
    (domain.mappings i).iova < candidate + length ∧
      candidate < (domain.mappings i).iova + (domain.mappings i).length := by
  have range := (kept.tidy.sound i (collision_some hit)).range
  have overlap := find?_some hit
  unfold iommuRangesOverlap at overlap
  rw [rangeEnd_eq range.1 range.2, rangeEnd_eq pos fits] at overlap
  simp only [Bool.and_eq_true, decide_eq_true_eq] at overlap
  omega

/-- The rounds of the search pass no gap. -/
theorem search_lowest (kept : Kept domain) (translated : domain.type = .translated)
    (pos : 0 < length) (short : length < 2 ^ 64) (pages : length % 4096 = 0) :
    ∀ rounds candidate found, candidate % 4096 = 0 → candidate < 2 ^ 64 →
      (∀ x, Gap domain length x → domain.iovaStart ≤ candidate ∧ candidate ≤ x) →
      search domain length rounds candidate = some found → Lowest domain length found := by
  have top := kept.end_bounded
  intro rounds
  induction rounds with
  | zero => rintro candidate found - - - ⟨⟩
  | succ rounds step =>
    intro candidate found aligned low passed done
    unfold search at done
    split_ifs at done with refused
    · obtain rfl := Option.some.inj done
      intro x gap
      obtain ⟨above, below⟩ := passed x gap
      have room := gap.2.2.1
      rw [rangeValid_of pos (by omega) top, Bool.not_true, Bool.or_false,
        decide_eq_true_eq] at refused
      omega
    cases hit : collision domain candidate length with
    | none =>
      rw [hit] at done
      obtain rfl := Option.some.inj done
      have free := search_spec kept translated short pages 0 (rounds + 1) candidate
        aligned low (by rw [search, if_neg refused, hit])
      have sound := free.sound 0
      have inside := sound.aperture translated
      exact ⟨⟨aligned, inside.1, inside.2, free.clear⟩, fun x gap => (passed x gap).2⟩
    | some i =>
      rw [hit] at done
      have mapping := kept.tidy.sound i (collision_some hit)
      refine step _ _ ?_ (Nat.mod_lt _ (by decide)) ?_ done
      · obtain ⟨one, two⟩ := mapping.pages
        omega
      -- a gap behind the candidate is behind the mapping in its way
      intro x gap
      obtain ⟨above, below⟩ := passed x gap
      have room := gap.2.2.1
      have overlap := collision_meets kept pos (by omega) hit
      have behind := gap.2.2.2 i (collision_some hit)
      have inside := mapping.aperture translated
      rw [Nat.mod_eq_of_lt (by omega)]
      omega

/-- Not the whole address space, or a gap, or no mapping that ends at 2^64. -/
def Ends (domain : Domain) (length : Nat) : Prop :=
  (0 < domain.iovaStart ∨ domain.iovaEnd + 1 < 2 ^ 64) ∨ (∃ x, Gap domain length x) ∨
    ∀ i, (domain.mappings i).active = true →
      (domain.mappings i).iova + (domain.mappings i).length ≠ 2 ^ 64

theorem search_ended (kept : Kept domain) (translated : domain.type = .translated)
    (pos : 0 < length) (ends : Ends domain length) :
    ∃ found, search domain length 66 domain.iovaStart = some found := by
  have few : (finRange 64).countP (ahead domain domain.iovaStart) ≤ 64 :=
    countP_le_length (p := ahead domain domain.iovaStart) (l := finRange 64)
  have end_ := kept.end_bounded
  rcases ends with partial_ | ⟨x, gap⟩ | low
  · exact search_ends kept translated partial_ length
  · -- the candidates stay at or below the gap
    refine search_returns kept (P := (· ≤ x)) (fun candidate i below valid hit => .inl ?_) 64 _
      gap.2.1 few
    have room := gap.2.2.1
    have clear := gap.2.2.2 i (collision_some hit)
    have meets := collision_meets kept pos (by omega) hit
    omega
  · refine search_returns kept (P := fun _ => True) (fun candidate i _ _ hit => .inl ?_) 64 _
      trivial few
    have range := (kept.tidy.sound i (collision_some hit)).range
    have below := low i (collision_some hit)
    exact ⟨by omega, trivial⟩

/-- In a full address space, requests no longer than its last mapping are searched for ever. -/
theorem search_loops (kept : Kept domain) (whole : domain.iovaStart = 0)
    (end_ : domain.iovaEnd + 1 = 2 ^ 64) (pos : 0 < length) (none_ : ∀ x, ¬ Gap domain length x)
    {k : Fin 64} (active : (domain.mappings k).active = true)
    (top : (domain.mappings k).iova + (domain.mappings k).length = 2 ^ 64)
    (short : length ≤ (domain.mappings k).length) :
    ∀ rounds candidate, candidate % 4096 = 0 → candidate ≤ (domain.mappings k).iova →
      search domain length rounds candidate = none := by
  intro rounds
  induction rounds with
  | zero => exact fun _ _ _ => rfl
  | succ rounds step =>
    intro candidate aligned below
    have fits : candidate + length ≤ 2 ^ 64 := by omega
    have valid := rangeValid_of pos (by omega : candidate + length ≤ domain.iovaEnd + 1) (by omega)
    rw [search, valid, whole, if_neg (by simp)]
    cases hit : collision domain candidate length with
    | none =>
      exact absurd ⟨aligned, by omega, by omega, clear_of_collision kept pos fits hit⟩
        (none_ candidate)
    | some i =>
      have mapping := kept.tidy.sound i (collision_some hit)
      have pages := mapping.pages
      have range := mapping.range
      -- the mapping at the top leads to 0, any other ends below it
      dsimp only
      by_cases same : i = k
      · rw [same, top]
        exact step 0 rfl (Nat.zero_le _)
      · have apart := kept.tidy.apart i k same (collision_some hit) active
        unfold Apart at apart
        exact step _ (by omega) (by omega)

/-- A request with a free slot is its search. -/
theorem map_translated {physical requesterId permissions : Nat} {slot : Fin 64}
    (passes : mappable domain requesterId physical length permissions = true)
    (translated : domain.type = .translated) (free : freeSlot domain = some slot) (rounds : Nat) :
    iommuDomainMap domain requesterId physical length permissions rounds =
      (search domain length rounds domain.iovaStart).map fun found =>
        (found.elim domain fun iova =>
          setMapping domain slot ⟨iova, physical, length, permissions, true⟩, found) := by
  have searched : place domain physical length rounds =
      search domain length rounds domain.iovaStart := by
    unfold place
    rw [translated, if_neg (by decide)]
  rw [iommuDomainMap, passes, free]
  dsimp only
  rw [searched]
  rcases search domain length rounds domain.iovaStart with _ | _ | _ <;> rfl

/-- The whole address space, mapped in two halves. -/
def full : Domain where
  type := .translated
  requesterId := 0
  attached := true
  faulted := false
  faultCount := 0
  iovaStart := 0
  iovaEnd := 2 ^ 64 - 1
  mappings i := if i = 0 then ⟨0, 0, 2 ^ 63, 1, true⟩
    else if i = 1 then ⟨2 ^ 63, 0, 2 ^ 63, 1, true⟩ else ⟨0, 0, 0, 0, false⟩

theorem full_kept : Kept full := by
  have halves : ∀ i, (full.mappings i).active = true → i = 0 ∨ i = 1 := by
    intro i active
    by_contra other
    rw [not_or] at other
    simp [full, other] at active
  refine ⟨⟨?_, ?_, by simp [full]⟩, fun _ => rfl, by decide, by decide⟩
  · intro i active
    rcases halves i active with rfl | rfl
    · exact ⟨by decide, by decide, fun _ => by decide, fun identity => by cases identity⟩
    · exact ⟨by decide, by decide, fun _ => by decide, fun identity => by cases identity⟩
  · intro i j different first second
    unfold Apart
    rcases halves i first with rfl | rfl <;> rcases halves j second with rfl | rfl
    · exact absurd rfl different
    · decide
    · decide
    · exact absurd rfl different

variable {domain' : Domain} {slot : Fin 64} {m : Mapping} {requesterId : Nat}

theorem setMapping_here (domain : Domain) (slot : Fin 64) (m : Mapping) :
    (setMapping domain slot m).mappings slot = m := by
  unfold setMapping
  dsimp only
  rw [Function.update_self]

theorem setMapping_other (domain : Domain) (m : Mapping) (different : i ≠ slot) :
    (setMapping domain slot m).mappings i = domain.mappings i := by
  unfold setMapping
  dsimp only
  rw [Function.update_of_ne different]

theorem Kept.add (kept : Kept domain) (free : (domain.mappings slot).active = false)
    (attached : domain.attached = true) (sound : Sound domain m)
    (clear : ∀ i, (domain.mappings i).active = true → Apart m (domain.mappings i)) :
    Kept (setMapping domain slot m) := by
  have other : ∀ i, i ≠ slot → (setMapping domain slot m).mappings i = domain.mappings i :=
    fun i different => setMapping_other domain m different
  have here := setMapping_here domain slot m
  refine { kept with tidy := ⟨?_, ?_, ?_⟩ }
  · intro i active
    by_cases same : i = slot
    · subst same
      rw [here]
      exact { sound with }
    · rw [other i same] at active ⊢
      have old := kept.tidy.sound i active
      exact { old with }
  · intro i j different first second
    by_cases left : i = slot
    · subst left
      rw [other j (Ne.symm different)] at second ⊢
      rw [here]
      exact clear j second
    rw [other i left] at first ⊢
    by_cases right : j = slot
    · subst right
      rw [here]
      exact (clear i first).symm
    · rw [other j right] at second ⊢
      exact kept.tidy.apart i j different first second
  · intro off
    exact absurd (attached.symm.trans off) (by decide)

/-- A mapping is taken out. -/
theorem Kept.remove (kept : Kept domain) (attached : domain.attached = true) :
    Kept (setMapping domain slot { domain.mappings slot with active := false }) := by
  have known : ∀ i, ((setMapping domain slot { domain.mappings slot with active := false }).mappings
      i).active = true →
      (setMapping domain slot { domain.mappings slot with active := false }).mappings i =
        domain.mappings i := by
    intro i active
    by_cases same : i = slot
    · subst same
      rw [setMapping_here] at active
      cases active
    · exact setMapping_other domain _ same
  refine { kept with tidy := ⟨?_, ?_, ?_⟩ }
  · intro i active
    have same := known i active
    rw [same] at active ⊢
    have old := kept.tidy.sound i active
    exact { old with }
  · intro i j different first second
    have left := known i first
    have right := known j second
    rw [left] at first ⊢
    rw [right] at second ⊢
    exact kept.tidy.apart i j different first second
  · intro off
    exact absurd (attached.symm.trans off) (by decide)

theorem Kept.same (kept : Kept domain) (mappings : domain'.mappings = domain.mappings)
    (type : domain'.type = domain.type) (start : domain'.iovaStart = domain.iovaStart)
    (end_ : domain'.iovaEnd = domain.iovaEnd)
    (detached : domain'.attached = false → ∀ i, (domain.mappings i).active = false) :
    Kept domain' := by
  refine ⟨⟨?_, ?_, ?_⟩, ?_, ?_, ?_⟩
  · intro i active
    rw [mappings] at active ⊢
    have old := kept.tidy.sound i active
    refine ⟨old.pages, old.range, ?_, ?_⟩
    · rw [type, start, end_]
      exact old.aperture
    · rw [type]
      exact old.identity
  · rw [mappings]
    exact kept.tidy.apart
  · rw [mappings]
    exact detached
  · rw [type, start]
    exact kept.start_aligned
  · rw [start]
    exact kept.start_bounded
  · rw [end_]
    exact kept.end_bounded

theorem kept_map {physical permissions rounds iova : Nat} (kept : Kept domain)
    (low : physical < 2 ^ 64) (short : length < 2 ^ 64)
    (returned : iommuDomainMap domain requesterId physical length permissions rounds =
      some (domain', some iova)) :
    Kept domain' ∧ (domain.attached = true ∧ domain.faulted = false ∧ domain.type ≠ .blocked) ∧
      ∃ slot, (domain.mappings slot).active = false ∧
        domain' = setMapping domain slot ⟨iova, physical, length, permissions, true⟩ := by
  unfold iommuDomainMap at returned
  split_ifs at returned with refused
  · cases returned
  unfold mappable at refused
  simp only [Bool.not_eq_true', Bool.not_eq_false, Bool.and_eq_true, decide_eq_true_eq] at refused
  obtain ⟨⟨⟨⟨⟨⟨⟨attached, sane⟩, -⟩, -⟩, aligned⟩, pages⟩, -⟩, open_⟩ := refused
  cases slotAt : freeSlot domain with
  | none =>
    rw [slotAt] at returned
    cases returned
  | some slot =>
    rw [slotAt] at returned
    have free := freeSlot_spec slotAt
    cases placed : place domain physical length rounds with
    | none =>
      rw [placed] at returned
      cases returned
    | some found =>
      rw [placed] at returned
      cases found with
      | none => cases returned
      | some iova' =>
        cases returned
        have room := place_spec kept low short aligned pages open_ placed
        refine ⟨kept.add free attached (room.sound permissions) ?_,
          ⟨attached, sane, open_⟩, slot, free, rfl⟩
        intro i active
        exact room.clear i active

theorem map_failed {physical permissions rounds : Nat}
    (returned : iommuDomainMap domain requesterId physical length permissions rounds =
      some (domain', none)) : domain' = domain := by
  unfold iommuDomainMap at returned
  split_ifs at returned
  · cases returned
    rfl
  split at returned
  · cases returned
    rfl
  split at returned
  · cases returned
  · cases returned
    rfl
  · cases returned

theorem kept_unmap {iova : Nat} (kept : Kept domain)
    (returned : iommuDomainUnmap domain requesterId iova length = some domain') :
    Kept domain' ∧ ∃ slot, ((domain.mappings slot).active = true ∧
        (domain.mappings slot).iova = iova ∧ (domain.mappings slot).length = length) ∧
      (∀ i, (domain.mappings i).active = true → (domain.mappings i).iova = iova → i = slot) ∧
      domain' = setMapping domain slot { domain.mappings slot with active := false } := by
  unfold iommuDomainUnmap at returned
  split_ifs at returned with refused
  simp only [Bool.or_eq_true, Bool.not_eq_true', decide_eq_true_eq, not_or, Bool.not_eq_false]
    at refused
  obtain ⟨⟨attached, -⟩, -⟩ := refused
  cases found : (finRange 64).find? fun i => (domain.mappings i).active &&
      (domain.mappings i).iova = iova && (domain.mappings i).length = length with
  | none =>
    rw [found] at returned
    cases returned
  | some slot =>
    rw [found] at returned
    cases returned
    have hit := find?_some found
    simp only [Bool.and_eq_true, decide_eq_true_eq] at hit
    obtain ⟨⟨active, base⟩, long⟩ := hit
    refine ⟨kept.remove attached, slot, ⟨active, base, long⟩, ?_, rfl⟩
    -- two ranges that begin at the same address would overlap
    intro i other same
    by_contra different
    have first := (kept.tidy.sound i other).range.1
    have second := (kept.tidy.sound slot active).range.1
    have apart := kept.tidy.apart i slot different other active
    unfold Apart at apart
    omega

theorem kept_attach (kept : Kept domain)
    (returned : iommuDomainAttach domain requesterId = some domain') :
    Kept domain' ∧ domain'.mappings = domain.mappings := by
  unfold iommuDomainAttach at returned
  split_ifs at returned
  cases returned
  exact ⟨kept.same rfl rfl rfl rfl fun off => (by cases off), rfl⟩

theorem kept_detach (kept : Kept domain)
    (returned : iommuDomainDetach domain requesterId = some domain') :
    Kept domain' ∧ domain'.mappings = domain.mappings := by
  unfold iommuDomainDetach at returned
  split_ifs at returned with refused busy
  cases returned
  refine ⟨kept.same rfl rfl rfl rfl fun _ i => ?_, rfl⟩
  rw [any_eq_true, not_exists] at busy
  have idle := busy i
  rw [not_and] at idle
  exact Bool.eq_false_iff.2 (idle (mem_finRange i))

theorem kept_fault (kept : Kept domain)
    (returned : iommuDomainFault domain requesterId = some domain') :
    Kept domain' ∧ domain'.mappings = domain.mappings := by
  unfold iommuDomainFault at returned
  split_ifs at returned
  cases returned
  exact ⟨kept.same rfl rfl rfl rfl kept.tidy.detached, rfl⟩

theorem settle_cases {result : Option Domain} {reply : Reply} {P : Domain → Prop}
    (done : ∀ domain', result = some domain' → Kept domain' ∧ P domain') (kept : Kept domain)
    (returned : settle domain result = (domain', reply)) :
    Kept domain' ∧ (reply = .failed ∧ domain' = domain ∨ reply = .done ∧ P domain') := by
  cases result with
  | none =>
    cases returned
    exact ⟨kept, Or.inl ⟨rfl, rfl⟩⟩
  | some result =>
    cases returned
    exact ⟨(done _ rfl).1, Or.inr ⟨rfl, (done _ rfl).2⟩⟩

theorem kept_returns {call : Call} {reply : Reply} (kept : Kept domain)
    (returned : Returns domain call reply domain') :
    Kept domain' ∧ Effect domain call reply domain' := by
  obtain ⟨rounds, performed⟩ := returned
  cases call with
  | attach r =>
    obtain ⟨after, ⟨rfl, rfl⟩ | ⟨rfl, same⟩⟩ := settle_cases (fun _ => kept_attach kept) kept
      (Option.some.inj performed)
    · exact ⟨after, rfl⟩
    · exact ⟨after, same⟩
  | map r physical length permissions =>
    unfold perform at performed
    dsimp only at performed
    split at performed
    · cases performed
    · rename_i domain₁ result
      cases performed
      obtain rfl := map_failed result
      exact ⟨kept, rfl⟩
    · rename_i domain₁ iova result
      cases performed
      exact kept_map kept physical.isLt length.isLt result
  | unmap r iova length =>
    obtain ⟨after, ⟨rfl, rfl⟩ | ⟨rfl, removed⟩⟩ := settle_cases (fun _ => kept_unmap kept) kept
      (Option.some.inj performed)
    · exact ⟨after, rfl⟩
    · exact ⟨after, removed⟩
  | detach r =>
    obtain ⟨after, ⟨rfl, rfl⟩ | ⟨rfl, same⟩⟩ := settle_cases (fun _ => kept_detach kept) kept
      (Option.some.inj performed)
    · exact ⟨after, rfl⟩
    · exact ⟨after, same⟩
  | fault r =>
    obtain ⟨after, ⟨rfl, rfl⟩ | ⟨rfl, same⟩⟩ := settle_cases (fun _ => kept_fault kept) kept
      (Option.some.inj performed)
    · exact ⟨after, rfl⟩
    · exact ⟨after, same⟩

theorem kept_init {memory : Domain} {type : DomainType} {iovaStart iovaEnd : U64}
    (made : iommuDomainInit memory type iovaStart iovaEnd = some domain) : Kept domain := by
  unfold iommuDomainInit at made
  split_ifs at made with refused
  cases made
  refine ⟨⟨?_, ?_, ?_⟩, ?_, iovaStart.isLt, iovaEnd.isLt⟩
  · intro i active
    cases active
  · intro i j _ active _
    cases active
  · intro _ i
    rfl
  · intro translated
    by_contra unaligned
    exact refused ⟨translated, Or.inr (Or.inl unaligned)⟩

end

/-- In every domain reached, the mappings are tidy, and a call does to them what it reports. -/
theorem mappings_stay_tidy {domain : Domain} (run : Reachable domains (fun _ _ => True) domain) :
    Tidy domain ∧ ∀ call reply domain', Returns domain call reply domain' →
      Effect domain call reply domain' := by
  have kept : Kept domain := by
    refine run.invariant ?_ ?_
    · rintro domain ⟨memory, type, iovaStart, iovaEnd, made⟩
      exact kept_init made
    · intro domain act domain' kept _ returned
      exact (kept_returns kept returned).1
  exact ⟨kept.tidy, fun call reply domain' returned => (kept_returns kept returned).2⟩

/-- A translated domain of eight pages with one of them mapped. -/
def mapped : Domain where
  type := .translated
  requesterId := 5
  attached := true
  faulted := false
  faultCount := 0
  iovaStart := 0x1000
  iovaEnd := 0x8fff
  mappings := Function.update (fun _ => ⟨0, 0, 0, 0, false⟩) 0 ⟨0x1000, 0x20000, 0x1000, 3, true⟩

theorem mapped_reached : Reachable domains (fun _ _ => True) mapped := by
  let fresh : Domain :=
    ⟨.translated, 0, false, false, 0, 0x1000, 0x8fff, fun _ => ⟨0, 0, 0, 0, false⟩⟩
  let waiting : Domain := { fresh with requesterId := 5, attached := true }
  have made : Reachable domains (fun _ _ => True) fresh :=
    .start ⟨fresh, .translated, 0x1000, 0x8fff, rfl⟩
  have attached : Reachable domains (fun _ _ => True) waiting :=
    .step (a := (.attach 5, .done)) made trivial ⟨0, rfl⟩
  have clear : collision waiting 0x1000 0x1000 = none := by simp [collision, waiting, fresh]
  have placed : place waiting 0x20000 0x1000 1 = some (some 0x1000) := by
    have inside : (decide (0x1000 < waiting.iovaStart) ||
        !iommuRangeValid 0x1000 0x1000 waiting.iovaEnd) = false := by decide
    unfold place
    rw [if_neg (by decide)]
    unfold search
    rw [clear, inside, if_neg Bool.false_ne_true]
  refine .step (a := (.map ⟨5, by decide⟩ ⟨0x20000, by decide⟩ ⟨0x1000, by decide⟩ ⟨3, by decide⟩,
    .mapped 0x1000)) attached trivial ⟨1, ?_⟩
  have mappedThere : iommuDomainMap waiting 5 0x20000 0x1000 3 1 = some (mapped, some 0x1000) := by
    have slot : freeSlot waiting = some 0 := rfl
    have allowed : mappable waiting 5 0x20000 0x1000 3 = true := by decide
    unfold iommuDomainMap
    rw [allowed, slot, placed]
    rfl
  unfold perform
  dsimp only
  rw [mappedThere]

theorem mappings_stay_tidy_mapped : Tidy mapped ∧ (mapped.mappings 0).active = true :=
  ⟨(mappings_stay_tidy mapped_reached).1, rfl⟩

/-- In every domain reached, a call returns within 66 rounds of the search. -/
theorem calls_return {domain : Domain} (run : Reachable domains (fun _ _ => True) domain)
    (partial_ : domain.type = .translated → 0 < domain.iovaStart ∨ domain.iovaEnd + 1 < 2 ^ 64)
    (call : Call) : ∃ domain' reply, perform domain 66 call = some (domain', reply) := by
  have kept : Kept domain := by
    apply run.invariant
    · rintro _ ⟨_, _, _, _, made⟩
      exact kept_init made
    · exact fun _ _ _ kept _ returned => (kept_returns kept returned).1
  cases call with
  | map r physical length permissions =>
    obtain ⟨⟨domain', answer⟩, done⟩ := map_returns kept partial_ r physical length permissions
    rw [perform, done]
    cases answer <;> exact ⟨_, _, rfl⟩
  | _ => exact ⟨_, _, rfl⟩

theorem calls_return_mapped :
    ∃ domain' reply, perform mapped 66 (.map 5 0x30000 0x1000 3) = some (domain', reply) :=
  calls_return mapped_reached (fun _ => .inl (by decide)) _

end IcsOs.Hardware.Iommu
