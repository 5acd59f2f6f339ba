/- GID: IcsOs/Devmgr/References
   generality: I
   source: kernel/devmgr/dex32_devmgr.c, kernel/devmgr/devmgr_lifecycle.h
   digest: References, claims, names and generations over every interleaving of registry calls. -/

import Mathlib.Order.Interval.Finset.Nat
import IcsOs.Lib.Runs
import IcsOs.Devmgr.Lifecycle

set_option autoImplicit false

namespace IcsOs.Devmgr.References

open Function List
open Lib.Runs Devmgr.Lifecycle

abbrev Caller := Nat

/-- The registry with its callers' references, devices quiesced, removed or detached, and claims. -/
structure Desk where
  registry : Registry
  held : List (Caller × Ptr)
  ended : List Ptr
  retired : List Ptr
  claimant : SlotId → Option Caller

/-- The calls, each atomic under `devmgr_busy`. -/
inductive Call
  | register (d : DevmgrGeneric) (mem : Option Ptr)
  | getdeviceRef (who : Caller) (deviceid : Int)
  | claimdeviceRef (who : Caller) (deviceid : Int)
  | putdevice (who : Caller) (device : Ptr)
  | quiesceDevice (deviceid : Int)
  | removedevice (deviceid : Int)
  | setlock (deviceid : Int) (val : Int)

abbrev Desk.outstanding (w : Desk) (p : Ptr) : Nat := (w.held.map Prod.snd).count p

def addHeld (who : Caller) (got : Option Ptr) (held : List (Caller × Ptr)) :
    List (Caller × Ptr) :=
  (got.map fun p => (who, p)).toList ++ held

/-- The desk after a call that may end a device of slot `deviceid`. -/
def Desk.finish (w : Desk) (deviceid : Int) (ending : Ending) : Desk :=
  { w with
    registry := ending.registry
    ended := (if ending.retval = -1 then none
      else (attached w.registry deviceid).map Prod.snd).toList ++ w.ended
    retired := ending.retired.toList ++ w.retired }

def Desk.forget (w : Desk) (deviceid : Int) : SlotId → Option Caller :=
  match slotOf deviceid with
  | none => w.claimant
  | some i => Function.update w.claimant i none

def Desk.claim (w : Desk) (who : Caller) (deviceid : Int) (got : Option Ptr) :
    SlotId → Option Caller :=
  match slotOf deviceid, got with
  | some i, some _ => Function.update w.claimant i (some who)
  | _, _ => w.claimant

/-- `malloc` returns unused memory of the kernel heap, references are held ones, claims end by
`devmgr_setlock(id, 0)`. No call frees a device's copy. -/
def perform (w : Desk) : Call → Option Desk
  | .register d mem =>
    if mem.any fun p => !inKheap p || (w.registry.heap p).isSome then none
    else
      let done := devmgrRegister w.registry d mem
      some { w with registry := done.2, claimant := w.forget done.1 }
  | .getdeviceRef who id =>
    let done := devmgrGetdeviceRef w.registry id
    some { w with registry := done.2, held := addHeld who done.1 w.held }
  | .claimdeviceRef who id =>
    let done := devmgrClaimdeviceRef w.registry id
    some { w with
      registry := done.2, held := addHeld who done.1 w.held, claimant := w.claim who id done.1 }
  | .putdevice who p =>
    if (who, p) ∈ w.held then
      let done := devmgrPutdevice w.registry p
      some { w with
        registry := done.2, held := w.held.erase (who, p), retired := done.1.toList ++ w.retired }
    else none
  | .quiesceDevice id => some (w.finish id (devmgrQuiesceDevice w.registry id))
  | .removedevice id => some (w.finish id (devmgrRemovedevice w.registry id))
  | .setlock id val =>
    let done := devmgrSetlock w.registry id val
    some { w with
      registry := done.2
      claimant := if done.1 = 1 ∧ val = 0 then w.forget id else w.claimant }

/-- The registry from `devmgr_init` on. -/
def registries : System Desk Call where
  start w := w = ⟨.empty, [], [], [], fun _ => none⟩
  step w c w' := perform w c = some w'

variable {held : List (Caller × Ptr)} {st : DevmgrStatus}

section

/-- What every call keeps. -/
structure Kept (w : Desk) : Prop where
  placed : ∀ i p, w.registry.devlist i = some p →
    ∃ dev, w.registry.heap p = some dev ∧ dev.id = i.val
  counted : ∀ i p, w.registry.devlist i = some p →
    (w.registry.statuslist i).refs = w.outstanding p
  unused : ∀ i, w.registry.devlist i = none → (w.registry.statuslist i).refs = 0
  attached : ∀ p, 0 < w.outstanding p → ∃ i, w.registry.devlist i = some p
  phase : ∀ i p, w.registry.devlist i = some p → (w.registry.statuslist i).state = .live ∨
    (w.registry.statuslist i).state = .quiescing ∧ 0 < (w.registry.statuslist i).refs
  names : ∀ i j p q a b, w.registry.devlist i = some p → w.registry.devlist j = some q →
    (w.registry.statuslist i).state = .live → (w.registry.statuslist j).state = .live →
    w.registry.heap p = some a → w.registry.heap q = some b → a.name = b.name → i = j
  ended : ∀ p ∈ w.ended, p ∈ w.retired ∨
    ∃ i, w.registry.devlist i = some p ∧ (w.registry.statuslist i).state = .quiescing
  once : w.retired.Nodup
  gone : ∀ p ∈ w.retired, w.registry.heap p ≠ none ∧ ∀ i, w.registry.devlist i ≠ some p
  claims : ∀ i who, w.claimant i = some who → (w.registry.statuslist i).locked ≠ 0

variable {w : Desk} {i j : SlotId} {p q : Ptr}

/-- A device sits in one slot. -/
theorem Kept.slot_unique (kept : Kept w) (first : w.registry.devlist i = some p)
    (second : w.registry.devlist j = some p) : i = j := by
  obtain ⟨a, copied, home⟩ := kept.placed i p first
  obtain ⟨b, copied', home'⟩ := kept.placed j p second
  rw [copied] at copied'
  cases copied'
  exact Fin.ext (by omega)

/-- What a new status of an attached device must agree with. -/
structure Fits (w : Desk) (i : SlotId) (p : Ptr) (st : DevmgrStatus) (held : List (Caller × Ptr)) :
    Prop where
  device : w.registry.devlist i = some p
  counted : st.refs = (held.map Prod.snd).count p
  others : ∀ q, q ≠ p → (held.map Prod.snd).count q = w.outstanding q
  live : st.state = .live → (w.registry.statuslist i).state = .live
  phase : st.state = .live ∨ st.state = .quiescing

/-- A device with a new status and new holders, not to be retired. -/
theorem Kept.restate {ended : List Ptr} {claimant : SlotId → Option Caller} (kept : Kept w)
    (fits : Fits w i p st held) (stays : st.state = .quiescing → 0 < st.refs)
    (locks : ∀ j who, claimant j = some who →
      (update w.registry.statuslist i st j).locked ≠ 0) (ends : ∀ q ∈ ended, q ∈ w.ended ∨ q = p)
    (dies : p ∈ ended → st.state = .quiescing) :
    Kept ⟨w.registry.setStatus i st, held, ended, w.retired, claimant⟩ := by
  have same : ∀ j q, w.registry.devlist j = some q → j ≠ i → q ≠ p := by
    rintro j q device other rfl
    exact other (kept.slot_unique device fits.device)
  have slot : ∀ j q, w.registry.devlist j = some q → j = i → q = p := by
    rintro j q device rfl
    exact Option.some.inj (device.symm.trans fits.device)
  refine ⟨kept.placed, fun j q device => ?_, fun j empty => ?_, fun q some => ?_,
    fun j q device => ?_, fun j k q q' a b dj dk lj lk => ?_, fun q ending => ?_, kept.once,
    kept.gone, locks⟩
  · by_cases here : j = i
    · obtain rfl := slot j q device here
      subst here
      simpa [Registry.setStatus] using fits.counted
    · have apart := same j q device here
      simp only [Registry.setStatus, update_of_ne here]
      exact (kept.counted j q device).trans (fits.others q apart).symm
  · have here : j ≠ i := by
      rintro rfl
      exact absurd (empty.symm.trans fits.device) (by simp)
    simpa [Registry.setStatus, here] using kept.unused j empty
  · by_cases here : q = p
    · exact ⟨i, here ▸ fits.device⟩
    · exact kept.attached q ((fits.others q here).symm ▸ some)
  · by_cases here : j = i
    · subst here
      simp only [Registry.setStatus, update_self]
      rcases fits.phase with live | quiet
      · exact .inl live
      · exact .inr ⟨quiet, stays quiet⟩
    · simpa [Registry.setStatus, here] using kept.phase j q device
  · have before : ∀ j, (update w.registry.statuslist i st j).state = .live →
        (w.registry.statuslist j).state = .live := by
      intro j live
      by_cases here : j = i
      · subst here
        exact fits.live (by simpa using live)
      · simpa [here] using live
    exact kept.names j k q q' a b dj dk (before j lj) (before k lk)
  · rcases ends q ending with earlier | rfl
    · rcases kept.ended q earlier with gone | ⟨j, device, quiet⟩
      · exact .inl gone
      refine .inr ⟨j, device, ?_⟩
      by_cases here : j = i
      · subst here
        simp only [Registry.setStatus, update_self]
        refine fits.phase.resolve_left fun live => ?_
        have clash := (fits.live live).symm.trans quiet
        cases clash
      · simpa [Registry.setStatus, here] using quiet
    · exact .inr ⟨i, fits.device, by simpa [Registry.setStatus] using dies ending⟩

/-- A device with a new status and no holder left, retired. -/
theorem Kept.retire {st : DevmgrStatus} {held : List (Caller × Ptr)} {ended : List Ptr}
    {claimant : SlotId → Option Caller} (kept : Kept w) (fits : Fits w i p st held)
    (zero : st.refs = 0)
    (locks : ∀ j who, claimant j = some who →
      (update w.registry.statuslist i st j).locked ≠ 0)
    (ends : ∀ q ∈ ended, q ∈ w.ended ∨ q = p) :
    Kept ⟨⟨update w.registry.devlist i none,
      update (update w.registry.statuslist i st) i { st with state := .dead },
      w.registry.heap⟩, held, ended, p :: w.retired, claimant⟩ := by
  have elsewhere : ∀ j q, update w.registry.devlist i none j = some q →
      j ≠ i ∧ w.registry.devlist j = some q := by
    intro j q device
    have here : j ≠ i := by
      rintro rfl
      simp at device
    exact ⟨here, by simpa [here] using device⟩
  have apart : ∀ j q, w.registry.devlist j = some q → j ≠ i → q ≠ p := by
    rintro j q device other rfl
    exact other (kept.slot_unique device fits.device)
  have status : ∀ j, j ≠ i → update (update w.registry.statuslist i st) i
      { st with state := .dead } j = w.registry.statuslist j := by
    intro j here
    simp [here]
  refine ⟨fun j q device => ?_, fun j q device => ?_, fun j empty => ?_, fun q some => ?_,
    fun j q device => ?_, fun j k q q' a b dj dk lj lk => ?_, fun q ending => ?_, ?_,
    fun q dead => ?_, fun j who owner => ?_⟩
  · exact kept.placed j q (elsewhere j q device).2
  · obtain ⟨here, old⟩ := elsewhere j q device
    dsimp only
    rw [status j here]
    exact (kept.counted j q old).trans (fits.others q (apart j q old here)).symm
  · by_cases here : j = i
    · subst here
      simpa using zero
    · dsimp only
      rw [status j here]
      exact kept.unused j (by simpa [here] using empty)
  · have other : q ≠ p := by
      rintro rfl
      have none : (held.map Prod.snd).count q = 0 := fits.counted.symm.trans zero
      have some' : 0 < (held.map Prod.snd).count q := some
      omega
    obtain ⟨j, device⟩ := kept.attached q ((fits.others q other).symm ▸ some)
    have here : j ≠ i := by
      rintro rfl
      exact other (Option.some.inj (device.symm.trans fits.device))
    exact ⟨j, by simpa [here] using device⟩
  · obtain ⟨here, old⟩ := elsewhere j q device
    dsimp only
    rw [status j here]
    exact kept.phase j q old
  · obtain ⟨hj, oldj⟩ := elsewhere j q dj
    obtain ⟨hk, oldk⟩ := elsewhere k q' dk
    dsimp only at lj lk
    rw [status j hj] at lj
    rw [status k hk] at lk
    exact kept.names j k q q' a b oldj oldk lj lk
  · by_cases here : q = p
    · exact .inl (here ▸ mem_cons_self)
    rcases kept.ended q ((ends q ending).resolve_right here) with gone | ⟨j, device, quiet⟩
    · exact .inl (mem_cons_of_mem _ gone)
    have slot : j ≠ i := by
      rintro rfl
      exact here (Option.some.inj (device.symm.trans fits.device))
    exact .inr ⟨j, by simpa [slot] using device,
        (congrArg DevmgrStatus.state (status j slot)).trans quiet⟩
  · refine nodup_cons.mpr ⟨fun dead => ?_, kept.once⟩
    exact (kept.gone p dead).2 i fits.device
  · rcases mem_cons.mp dead with rfl | earlier
    · obtain ⟨dev, copied, _⟩ := kept.placed i q fits.device
      refine ⟨by simp [copied], fun j device => ?_⟩
      obtain ⟨here, old⟩ := elsewhere j q device
      exact here (kept.slot_unique old fits.device)
    · refine ⟨(kept.gone q earlier).1, fun j device => ?_⟩
      exact (kept.gone q earlier).2 j (elsewhere j q device).2
  · have locked := locks j who owner
    by_cases here : j = i
    · subst here
      simpa using locked
    · simpa [here] using locked

/-- The two outcomes of `devmgr_retire_locked` after a new status. -/
theorem retireLocked_cases (r : Registry) (i : SlotId) (st : DevmgrStatus) :
    (devmgrLifecycleCanRetire st.state st.refs = true ∧ devmgrRetireLocked (r.setStatus i st) i =
      (r.devlist i, ⟨update r.devlist i none,
        update (update r.statuslist i st) i { st with state := .dead }, r.heap⟩)) ∨
    (devmgrLifecycleCanRetire st.state st.refs = false ∧
      devmgrRetireLocked (r.setStatus i st) i = (none, r.setStatus i st)) := by
  cases able : devmgrLifecycleCanRetire st.state st.refs with
  | true => exact .inl ⟨rfl, by simp [devmgrRetireLocked, Registry.setStatus, able]⟩
  | false => exact .inr ⟨rfl, by simp [devmgrRetireLocked, Registry.setStatus, able]⟩

/-- A new status followed by `devmgr_retire_locked`. -/
theorem Kept.settle {ended : List Ptr} {claimant : SlotId → Option Caller} (kept : Kept w)
    (fits : Fits w i p st held)
    (locks : ∀ j who, claimant j = some who →
      (update w.registry.statuslist i st j).locked ≠ 0) (ends : ∀ q ∈ ended, q ∈ w.ended ∨ q = p)
    (dies : p ∈ ended → st.state = .quiescing) :
    Kept ⟨(devmgrRetireLocked (w.registry.setStatus i st) i).2, held, ended,
      (devmgrRetireLocked (w.registry.setStatus i st) i).1.toList ++ w.retired, claimant⟩ := by
  rcases retireLocked_cases w.registry i st with ⟨able, done⟩ | ⟨unable, done⟩
  · simp only [devmgrLifecycleCanRetire, decide_eq_true_eq] at able
    rw [done, fits.device]
    exact kept.retire fits able.2 locks ends
  · simp only [devmgrLifecycleCanRetire, decide_eq_false_iff_not] at unable
    rw [done]
    refine kept.restate fits (fun quiet => ?_) locks ends dies
    exact Nat.pos_of_ne_zero fun zero => unable ⟨quiet, zero⟩

variable {w' : Desk} {who : Caller} {id : Int}

theorem count_cons_self (held : List (Caller × Ptr)) :
    (((who, p) :: held).map Prod.snd).count p = (held.map Prod.snd).count p + 1 := by
  simp

theorem count_cons_other {q : Ptr} (held : List (Caller × Ptr)) (other : q ≠ p) :
    (((who, p) :: held).map Prod.snd).count q = (held.map Prod.snd).count q := by
  simp [Ne.symm other]

/-- A put takes one reference to its device back. -/
theorem count_erase (member : (who, p) ∈ held) (q : Ptr) :
    (held.map Prod.snd).count q =
      ((held.erase (who, p)).map Prod.snd).count q + if q = p then 1 else 0 := by
  have perm := perm_cons_erase member
  rw [(perm.map Prod.snd).count_eq q]
  by_cases same : q = p
  · simp [same]
  · simp [same, Ne.symm same]

section

variable (kept : Kept w)
include kept

theorem fits_granted (granted : Granted w.registry id i p)
    (state : st.state = (w.registry.statuslist i).state)
    (refs : st.refs = (w.registry.statuslist i).refs + 1) : Fits w i p st ((who, p) :: w.held) := by
  refine ⟨granted.device, ?_, fun q other => ?_, fun _ => granted.live, .inl ?_⟩
  · rw [refs, kept.counted i p granted.device, count_cons_self]
  · rw [count_cons_other _ other]
  · exact state.trans granted.live

theorem Kept.not_ended (device : w.registry.devlist i = some p)
    (live : (w.registry.statuslist i).state = .live) : p ∉ w.ended := by
  intro ending
  rcases kept.ended p ending with gone | ⟨j, device', quiet⟩
  · exact (kept.gone p gone).2 i device
  · obtain rfl := kept.slot_unique device' device
    rw [live] at quiet
    cases quiet

theorem kept_getdeviceRef (taken : perform w (.getdeviceRef who id) = some w') : Kept w' := by
  cases taken
  rcases getdeviceRef_cases w.registry id with refused | ⟨i, p, granted, done⟩
  · rw [refused]
    exact kept
  rw [done]
  refine kept.restate (fits_granted kept granted rfl rfl) (fun quiet => ?_)
    (fun j owner claimed => ?_) (fun q => .inl) (fun ending => ?_)
  · have clash := granted.live.symm.trans quiet
    cases clash
  · have locked := kept.claims j owner claimed
    by_cases here : j = i
    · subst here
      simpa using locked
    · simpa [here] using locked
  · exact absurd ending (kept.not_ended granted.device granted.live)

theorem kept_claimdeviceRef (taken : perform w (.claimdeviceRef who id) = some w') : Kept w' := by
  cases taken
  rcases claimdeviceRef_cases w.registry id with refused | ⟨i, p, granted, _, done⟩
  · rw [refused]
    have same : w.claim who id none = w.claimant := by
      unfold Desk.claim
      split
      · rename_i bad
        cases bad
      · rfl
    rw [same]
    exact kept
  · rw [done]
    have claimed : w.claim who id (some p) = update w.claimant i (some who) := by
      simp [Desk.claim, granted.slot]
    rw [claimed]
    refine kept.restate (fits_granted kept granted rfl rfl) (fun quiet => ?_)
      (fun j owner claimed => ?_) (fun q => .inl) (fun ending => ?_)
    · have clash := granted.live.symm.trans quiet
      cases clash
    · by_cases here : j = i
      · subst here
        simp
      · simp only [update_of_ne here] at claimed ⊢
        exact kept.claims j owner claimed
    · exact absurd ending (kept.not_ended granted.device granted.live)

theorem kept_putdevice (taken : perform w (.putdevice who p) = some w') : Kept w' := by
  simp only [perform] at taken
  split at taken
  · rename_i member
    cases taken
    have counts := count_erase member
    have some : 0 < (w.held.map Prod.snd).count p := by
      have := counts p
      rw [if_pos rfl] at this
      omega
    obtain ⟨i, device⟩ := kept.attached p some
    obtain ⟨dev, copied, home⟩ := kept.placed i p device
    have refs : (w.registry.statuslist i).refs = (w.held.map Prod.snd).count p :=
      kept.counted i p device
    rw [putdevice_eq copied home device (by omega)]
    refine kept.settle ⟨device, ?_, fun q other => ?_, id, ?_⟩ (fun j owner claimed => ?_)
      (fun q => .inl) (fun ending => ?_)
    · have := counts p
      rw [if_pos rfl] at this
      dsimp only
      omega
    · have := counts q
      rw [if_neg other] at this
      exact this.symm
    · rcases kept.phase i p device with live | quiet
      · exact .inl live
      · exact .inr quiet.1
    · have locked := kept.claims j owner claimed
      by_cases here : j = i
      · subst here
        simpa using locked
      · simpa [here] using locked
    · rcases kept.phase i p device with live | quiet
      · exact absurd ending (kept.not_ended device live)
      · exact quiet.1
  · cases taken

theorem kept_ending (slot : slotOf id = some i) (device : w.registry.devlist i = some p) :
    Kept (w.finish id (retireEnding (w.registry.setStatus i { w.registry.statuslist i with
      state := if (w.registry.statuslist i).state = .live then .quiescing
        else (w.registry.statuslist i).state }) i)) := by
  have quiet : (if (w.registry.statuslist i).state = .live then LifeState.quiescing
      else (w.registry.statuslist i).state) = .quiescing := by
    rcases kept.phase i p device with live | quiet
    · rw [if_pos live]
    · rw [quiet.1]
      rfl
  rw [quiet]
  have found : attached w.registry id = some (i, p) := attached_some.mpr ⟨slot, device⟩
  have fits : Fits w i p { w.registry.statuslist i with state := .quiescing } w.held :=
    ⟨device, kept.counted i p device, fun _ _ => rfl, fun live => (by cases live), .inr rfl⟩
  have settled := kept.settle fits
    (fun j owner (claimed : w.claimant j = some owner) => by
      have locked := kept.claims j owner claimed
      by_cases here : j = i
      · subst here
        simpa using locked
      · simpa [here] using locked)
    (fun q (ending : q ∈ p :: w.ended) => (mem_cons.mp ending).symm) (fun _ => rfl)
  have answered : (retireEnding (w.registry.setStatus i { w.registry.statuslist i with
      state := .quiescing }) i).retval ≠ -1 := by
    dsimp only [retireEnding]
    split <;> decide
  simp only [Desk.finish, if_neg answered, found, Option.map_some, Option.toList_some,
    singleton_append]
  exact settled

end

theorem finish_refused (w : Desk) (id : Int) : w.finish id ⟨-1, none, w.registry⟩ = w := by
  simp [Desk.finish]

theorem kept_ends {ending : Ending} (kept : Kept w) (ends : Ends w.registry id ending) :
    Kept (w.finish id ending) := by
  rcases ends with rfl | ⟨i, p, slot, device, rfl⟩
  · rw [finish_refused]
    exact kept
  · exact kept_ending kept slot device

theorem kept_quiesceDevice (kept : Kept w) (taken : perform w (.quiesceDevice id) = some w') :
    Kept w' := by
  cases taken
  exact kept_ends kept (quiesceDevice_ends w.registry id)

theorem kept_removedevice (kept : Kept w) (taken : perform w (.removedevice id) = some w') :
    Kept w' := by
  cases taken
  exact kept_ends kept (removedevice_ends w.registry id)

theorem kept_placed (kept : Kept w) {d : DevmgrGeneric} (fresh : w.registry.heap p = none)
    (empty : w.registry.devlist i = none)
    (unnamed : devmgrFinddeviceLocked w.registry d.name = none) (generation : Nat) :
    Kept { w with
      registry :=
        { devlist := update w.registry.devlist i (some p)
          statuslist := update w.registry.statuslist i ⟨0, 0, generation, .live⟩
          heap := update w.registry.heap p (some { d with id := i.val }) }
      claimant := update w.claimant i none } := by
  have unheld : ∀ j, w.registry.devlist j ≠ some p := by
    intro j device
    obtain ⟨dev, copied, _⟩ := kept.placed j p device
    rw [fresh] at copied
    cases copied
  have zero : w.outstanding p = 0 := by
    by_contra some
    obtain ⟨j, device⟩ := kept.attached p (Nat.pos_of_ne_zero some)
    exact unheld j device
  have copy : ∀ q, q ≠ p → update w.registry.heap p (some { d with id := i.val }) q =
      w.registry.heap q := fun q other => update_of_ne other _ _
  have cases : ∀ j q, update w.registry.devlist i (some p) j = some q →
      (j = i ∧ q = p) ∨ (j ≠ i ∧ q ≠ p ∧ w.registry.devlist j = some q) := by
    intro j q device
    by_cases here : j = i
    · subst here
      exact .inl ⟨rfl, by simpa using device.symm⟩
    · rw [update_of_ne here] at device
      exact .inr ⟨here, fun same => unheld j (same ▸ device), device⟩
  refine ⟨fun j q device => ?_, fun j q device => ?_, fun j vacant => ?_, fun q some => ?_,
    fun j q device => ?_, fun j k q q' a b dj dk lj lk cj ck same => ?_, fun q ending => ?_,
    kept.once, fun q dead => ?_, fun j who owner => ?_⟩
  · rcases cases j q device with ⟨rfl, rfl⟩ | ⟨_, other, old⟩
    · exact ⟨{ d with id := j.val }, by simp, rfl⟩
    · obtain ⟨dev, copied, home⟩ := kept.placed j q old
      exact ⟨dev, (copy q other).trans copied, home⟩
  · rcases cases j q device with ⟨rfl, rfl⟩ | ⟨here, _, old⟩
    · simpa using zero.symm
    · simpa [here] using kept.counted j q old
  · have here : j ≠ i := by
      rintro rfl
      simp at vacant
    simpa [here] using kept.unused j (by simpa [here] using vacant)
  · obtain ⟨j, device⟩ := kept.attached q some
    have here : j ≠ i := by
      rintro rfl
      rw [empty] at device
      cases device
    exact ⟨j, by simpa [here] using device⟩
  · rcases cases j q device with ⟨rfl, rfl⟩ | ⟨here, _, old⟩
    · exact .inl (by simp)
    · simpa [here] using kept.phase j q old
  · -- one of the two is the new device, whose name no live device has, or both are old
    have old : ∀ k q b, k ≠ i → q ≠ p → w.registry.devlist k = some q →
        (update w.registry.statuslist i ⟨0, 0, generation, .live⟩ k).state = .live →
        update w.registry.heap p (some { d with id := i.val }) q = some b →
        (w.registry.statuslist k).state = .live ∧ w.registry.heap q = some b := by
      intro k q b here other device live copied
      rw [update_of_ne here] at live
      exact ⟨live, (copy q other).symm.trans copied⟩
    rcases cases j q dj with ⟨rfl, rfl⟩ | ⟨hj, oj, devj⟩ <;>
    rcases cases k q' dk with ⟨rfl, rfl⟩ | ⟨hk, ok, devk⟩
    · rfl
    · obtain ⟨live, copied⟩ := old k q' b hk ok devk lk ck
      have named : a.name = d.name := by
        have := Option.some.inj ((update_self q _ w.registry.heap).symm.trans cj)
        rw [← this]
      exact absurd (same.symm.trans named) (finddevice_none unnamed devk live copied)
    · obtain ⟨live, copied⟩ := old j q a hj oj devj lj cj
      have named : b.name = d.name := by
        have := Option.some.inj ((update_self q' _ w.registry.heap).symm.trans ck)
        rw [← this]
      exact absurd (same.trans named) (finddevice_none unnamed devj live copied)
    · obtain ⟨livej, copiedj⟩ := old j q a hj oj devj lj cj
      obtain ⟨livek, copiedk⟩ := old k q' b hk ok devk lk ck
      exact kept.names j k q q' a b devj devk livej livek copiedj copiedk same
  · rcases kept.ended q ending with gone | ⟨j, device, quiet⟩
    · exact .inl gone
    have here : j ≠ i := by
      rintro rfl
      rw [empty] at device
      cases device
    exact .inr ⟨j, by simpa [here] using device, by simpa [here] using quiet⟩
  · obtain ⟨copied, off⟩ := kept.gone q dead
    have other : q ≠ p := by
      rintro rfl
      exact copied fresh
    refine ⟨fun none => copied ((copy q other).symm.trans none), fun j device => ?_⟩
    rcases cases j q device with ⟨_, rfl⟩ | ⟨_, _, old⟩
    · exact other rfl
    · exact off j old
  · have here : j ≠ i := by
      rintro rfl
      simp at owner
    simp only [update_of_ne here] at owner ⊢
    exact kept.claims j who owner

theorem forget_refused (w : Desk) : w.forget (-1) = w.claimant := by
  simp [Desk.forget, slotOf]

theorem malloc_fresh
    (fresh : ¬(some p).any (fun p => !inKheap p || (w.registry.heap p).isSome) = true) :
    inKheap p = true ∧ w.registry.heap p = none := by
  simpa using fresh

theorem kept_register (kept : Kept w) {d : DevmgrGeneric} {mem : Option Ptr}
    (taken : perform w (.register d mem) = some w') : Kept w' := by
  simp only [perform] at taken
  split at taken
  · cases taken
  rename_i fresh
  cases taken
  rcases register_cases w.registry d mem with refused | ⟨p, i, rfl, free, unnamed, done⟩
  · rw [refused, forget_refused]
    exact kept
  have unused : w.registry.heap p = none := (malloc_fresh fresh).2
  have cleared : w.forget (i.val : Int) = update w.claimant i none := by
    simp [Desk.forget, slotOf_val]
  rw [done, cleared]
  exact kept_placed kept unused (freeSlot_empty free) unnamed _

theorem setlock_cases (r : Registry) (id val : Int) :
    devmgrSetlock r id val = (-1, r) ∨ ∃ i p, slotOf id = some i ∧ r.devlist i = some p ∧
      devmgrSetlock r id val = (1, r.setStatus i { r.statuslist i with locked := val }) := by
  unfold devmgrSetlock
  cases found : attached r id with
  | none => exact .inl rfl
  | some place =>
    obtain ⟨i, p⟩ := place
    obtain ⟨slot, device⟩ := attached_some.mp found
    exact .inr ⟨i, p, slot, device, rfl⟩

theorem kept_setlock (kept : Kept w) {val : Int}
    (taken : perform w (.setlock id val) = some w') : Kept w' := by
  cases taken
  rcases setlock_cases w.registry id val with refused | ⟨i, p, slot, device, done⟩
  · rw [refused]
    simpa using kept
  rw [done]
  have fits : Fits w i p { w.registry.statuslist i with locked := val } w.held := by
    refine ⟨device, kept.counted i p device, fun _ _ => rfl, fun live => live, ?_⟩
    exact (kept.phase i p device).imp_right And.left
  refine kept.restate fits (fun quiet => ?_) (fun j who owner => ?_) (fun q => .inl)
    (fun ending => ?_)
  · rcases kept.phase i p device with live | held
    · exact absurd (live.symm.trans quiet) (by decide)
    · exact held.2
  · by_cases here : j = i
    · subst here
      by_cases zero : val = 0
      · simp [zero, Desk.forget, slot] at owner
      · simpa using zero
    · have before : w.claimant j = some who := by
        split at owner
        · simpa [Desk.forget, slot, here] using owner
        · exact owner
      simpa [here] using kept.claims j who before
  · rcases kept.phase i p device with live | held
    · exact absurd ending (kept.not_ended device live)
    · exact held.1

theorem kept_perform {c : Call} (kept : Kept w) (taken : perform w c = some w') : Kept w' := by
  cases c with
  | register d mem => exact kept_register kept taken
  | getdeviceRef who id => exact kept_getdeviceRef kept taken
  | claimdeviceRef who id => exact kept_claimdeviceRef kept taken
  | putdevice who p => exact kept_putdevice kept taken
  | quiesceDevice id => exact kept_quiesceDevice kept taken
  | removedevice id => exact kept_removedevice kept taken
  | setlock id val => exact kept_setlock kept taken

theorem kept_of_reachable {guard : Desk → Call → Prop} (run : Reachable registries guard w) :
    Kept w := by
  apply run.invariant
  · rintro w rfl
    exact ⟨by simp [Registry.empty], by simp [Registry.empty], by simp [Registry.empty],
      by simp, by simp [Registry.empty], by simp [Registry.empty], by simp, by simp, by simp,
      by simp⟩
  · intro w c w' kept _ taken
    exact kept_perform kept taken

variable {c : Call}

/-- A call leaves or detaches a slot's device, or fills it under the next generation. -/
inductive SlotMove (w : Desk) (c : Call) (w' : Desk) (j : SlotId) : Prop
  | kept (device : w'.registry.devlist j = w.registry.devlist j ∨ w'.registry.devlist j = none)
      (generation : (w'.registry.statuslist j).generation = (w.registry.statuslist j).generation)
      (copies : ∀ p, w.registry.heap p ≠ none → w'.registry.heap p ≠ none)
  | filled (d : DevmgrGeneric) (p : Ptr) (fresh : inKheap p = true ∧ w.registry.heap p = none)
      (copied : w'.registry.heap = update w.registry.heap p (some { d with id := j.val }))
      (device : w'.registry.devlist j = some p)
      (status : w'.registry.statuslist j =
        ⟨0, 0, ((w.registry.statuslist j).generation + 1) % 2 ^ 32, .live⟩)

theorem slotMove_status (registry : w'.registry = w.registry.setStatus i st)
    (generation : st.generation = (w.registry.statuslist i).generation) (j : SlotId) :
    SlotMove w c w' j := by
  refine .kept (.inl (by rw [registry]; rfl)) ?_ fun p held => by rw [registry]; exact held
  rw [registry]
  by_cases here : j = i
  · subst here
    simpa [Registry.setStatus] using generation
  · simp [Registry.setStatus, here]

theorem slotMove_retire
    (registry : w'.registry = (devmgrRetireLocked (w.registry.setStatus i st) i).2)
    (generation : st.generation = (w.registry.statuslist i).generation) (j : SlotId) :
    SlotMove w c w' j := by
  rcases retireLocked_cases w.registry i st with ⟨_, done⟩ | ⟨_, done⟩
  · rw [done] at registry
    by_cases here : j = i
    · subst here
      exact .kept (.inr (by simp [registry])) (by simpa [registry] using generation)
        fun p held => by rw [registry]; exact held
    · exact .kept (.inl (by simp [registry, here])) (by simp [registry, here])
        fun p held => by rw [registry]; exact held
  · rw [done] at registry
    exact slotMove_status registry generation j

theorem slotMove_same (registry : w'.registry = w.registry) (j : SlotId) : SlotMove w c w' j :=
  .kept (.inl (by rw [registry])) (by rw [registry]) fun p held => by rw [registry]; exact held

theorem slotMove_ending {ending : Ending} (ends : Ends w.registry id ending) (j : SlotId) :
    SlotMove w c (w.finish id ending) j := by
  rcases ends with rfl | ⟨i, p, _, _, rfl⟩
  · exact slotMove_same rfl j
  have generation : ({ w.registry.statuslist i with
      state := if (w.registry.statuslist i).state = .live then .quiescing
        else (w.registry.statuslist i).state } : DevmgrStatus).generation =
      (w.registry.statuslist i).generation := rfl
  refine slotMove_retire ?_ generation j
  rfl

theorem slotMove_perform (kept : Kept w) (taken : perform w c = some w') (j : SlotId) :
    SlotMove w c w' j := by
  cases c with
  | register d mem =>
    simp only [perform] at taken
    split at taken
    · cases taken
    rename_i fresh
    cases taken
    rcases register_cases w.registry d mem with refused | ⟨p, i, rfl, _, _, done⟩
    · exact slotMove_same (by rw [refused]) j
    by_cases here : j = i
    · subst here
      exact .filled d p (malloc_fresh fresh) (by simp [done]) (by simp [done]) (by simp [done])
    · refine .kept (.inl (by simp [done, here])) (by simp [done, here]) fun q held => ?_
      by_cases new : q = p
      · simp [done, new]
      · simpa [done, new] using held
  | getdeviceRef who id =>
    cases taken
    rcases getdeviceRef_cases w.registry id with refused | ⟨i, p, _, done⟩
    · exact slotMove_same (by rw [refused]) j
    · refine slotMove_status (congrArg Prod.snd done) ?_ j
      rfl
  | claimdeviceRef who id =>
    cases taken
    rcases claimdeviceRef_cases w.registry id with refused | ⟨i, p, _, _, done⟩
    · exact slotMove_same (by rw [refused]) j
    · refine slotMove_status (congrArg Prod.snd done) ?_ j
      rfl
  | putdevice who p =>
    simp only [perform] at taken
    split at taken
    · rename_i member
      cases taken
      have some : 0 < w.outstanding p := count_pos_iff.mpr
        (mem_map.mpr ⟨(who, p), member, rfl⟩)
      obtain ⟨i, device⟩ := kept.attached p some
      obtain ⟨dev, copied, home⟩ := kept.placed i p device
      have refs := kept.counted i p device
      have done := putdevice_eq copied home device (by omega)
      refine slotMove_retire (congrArg Prod.snd done) ?_ j
      rfl
    · cases taken
  | quiesceDevice id =>
    cases taken
    exact slotMove_ending (quiesceDevice_ends w.registry id) j
  | removedevice id =>
    cases taken
    exact slotMove_ending (removedevice_ends w.registry id) j
  | setlock id val =>
    cases taken
    rcases setlock_cases w.registry id val with refused | ⟨i, p, _, _, done⟩
    · exact slotMove_same (by rw [refused]) j
    · refine slotMove_status (congrArg Prod.snd done) ?_ j
      rfl

/-- Only a live device gains references. -/
theorem outstanding_ended (kept : Kept w) (taken : perform w c = some w') (ending : p ∈ w.ended) :
    p ∈ w'.ended ∧ w'.outstanding p ≤ w.outstanding p := by
  have grants : ∀ (who : Caller) (i : SlotId) (q : Ptr), w.registry.devlist i = some q →
      (w.registry.statuslist i).state = .live →
      (((who, q) :: w.held).map Prod.snd).count p ≤ w.outstanding p := by
    intro who i q device live
    have other : p ≠ q := by
      rintro rfl
      exact kept.not_ended device live ending
    exact (count_cons_other w.held other).le
  cases c with
  | register d mem =>
    simp only [perform] at taken
    split at taken
    · cases taken
    · cases taken
      exact ⟨ending, le_rfl⟩
  | getdeviceRef who id =>
    cases taken
    rcases getdeviceRef_cases w.registry id with refused | ⟨i, q, granted, done⟩
    · rw [refused]
      exact ⟨ending, le_rfl⟩
    · rw [done]
      exact ⟨ending, grants who i q granted.device granted.live⟩
  | claimdeviceRef who id =>
    cases taken
    rcases claimdeviceRef_cases w.registry id with refused | ⟨i, q, granted, _, done⟩
    · rw [refused]
      exact ⟨ending, le_rfl⟩
    · rw [done]
      exact ⟨ending, grants who i q granted.device granted.live⟩
  | putdevice who q =>
    simp only [perform] at taken
    split at taken
    · rename_i member
      cases taken
      have counts := count_erase member p
      exact ⟨ending, by dsimp only [Desk.outstanding]; omega⟩
    · cases taken
  | quiesceDevice id =>
    cases taken
    exact ⟨mem_append_right _ ending, le_rfl⟩
  | removedevice id =>
    cases taken
    exact ⟨mem_append_right _ ending, le_rfl⟩
  | setlock id val =>
    cases taken
    exact ⟨ending, le_rfl⟩

theorem claimdeviceRef_locked {r : Registry} (slot : slotOf id = some i)
    (locked : (r.statuslist i).locked ≠ 0) : devmgrClaimdeviceRef r id = (none, r) := by
  rcases claimdeviceRef_cases r id with refused | ⟨j, p, granted, unlocked, _⟩
  · exact refused
  · obtain rfl := Option.some.inj (slot.symm.trans granted.slot)
    exact absurd unlocked locked

theorem forget_keeps {who : Caller} (claimed : w.claimant i = some who)
    (other : slotOf id ≠ some i) : w.forget id i = some who := by
  cases slot : slotOf id with
  | none => simpa only [Desk.forget, slot] using claimed
  | some k =>
    have here : i ≠ k := by
      rintro rfl
      exact other slot
    simpa only [Desk.forget, slot, update_of_ne here] using claimed

/-- A claim lasts until it is released or the slot loses its device. -/
theorem claimant_perform {who : Caller} (kept : Kept w) (taken : perform w c = some w')
    (claimed : w.claimant i = some who) :
    w'.claimant i = some who ∨ (∃ id, c = .setlock id 0 ∧ slotOf id = some i) ∨
      w.registry.devlist i = none := by
  cases c with
  | register d mem =>
    simp only [perform] at taken
    split at taken
    · cases taken
    cases taken
    rcases register_cases w.registry d mem with refused | ⟨p, j, rfl, free, _, done⟩
    · rw [refused, forget_refused]
      exact .inl claimed
    by_cases here : i = j
    · subst here
      exact .inr (.inr (freeSlot_empty free))
    have elsewhere : slotOf (j.val : Int) ≠ some i := by
      rw [slotOf_val]
      exact fun same => here (Option.some.inj same).symm
    simp only [done, forget_keeps claimed elsewhere, true_or]
  | getdeviceRef other id =>
    cases taken
    exact .inl claimed
  | claimdeviceRef other id =>
    cases taken
    cases slot : slotOf id with
    | none => exact .inl (by simpa only [Desk.claim, slot] using claimed)
    | some j =>
      by_cases here : i = j
      · subst here
        rw [claimdeviceRef_locked slot (kept.claims i who claimed)]
        exact .inl (by simpa only [Desk.claim, slot] using claimed)
      · refine .inl ?_
        cases granted : (devmgrClaimdeviceRef w.registry id).1 with
        | none => simpa only [Desk.claim, slot] using claimed
        | some p => simpa only [Desk.claim, slot, update_of_ne here] using claimed
  | putdevice other p =>
    simp only [perform] at taken
    split at taken
    · cases taken
      exact .inl claimed
    · cases taken
  | quiesceDevice id =>
    cases taken
    exact .inl claimed
  | removedevice id =>
    cases taken
    exact .inl claimed
  | setlock id val =>
    cases taken
    split
    · rename_i released
      by_cases here : slotOf id = some i
      · obtain ⟨_, rfl⟩ := released
        exact .inr (.inl ⟨id, rfl, here⟩)
      · exact .inl (forget_keeps claimed here)
    · exact .inl claimed

end

section Contract

/-- What holds of the registry between two calls. -/
structure Orderly (w : Desk) : Prop where
  /-- a slot's reference count is the references outstanding on its device, and zero where
  there is no device -/
  counted : ∀ i, (w.registry.statuslist i).refs =
    ((w.registry.devlist i).map w.outstanding).getD 0
  /-- two live devices have different names -/
  names : ∀ i j p q a b, w.registry.devlist i = some p → w.registry.devlist j = some q →
    (w.registry.statuslist i).state = .live → (w.registry.statuslist j).state = .live →
    w.registry.heap p = some a → w.registry.heap q = some b → a.name = b.name → i = j
  /-- a quiesced or removed device is retired exactly when its last reference is gone -/
  retired : ∀ p ∈ w.ended, p ∈ w.retired ↔ w.outstanding p = 0
  /-- no device is retired twice -/
  once : w.retired.Nodup
  /-- a claimed device grants no claim -/
  exclusive : ∀ i who id, w.claimant i = some who → slotOf id = some i →
    (devmgrClaimdeviceRef w.registry id).1 = none

structure OrderlyCall (w : Desk) (c : Call) (w' : Desk) : Prop where
  /-- a device is detached, and a slot reused, only at count zero -/
  zero : ∀ i, w'.registry.devlist i ≠ w.registry.devlist i →
    (w'.registry.statuslist i).refs = 0 ∧
      ∀ p, w.registry.devlist i = some p → w'.outstanding p = 0
  /-- a quiesced or removed device stays so and gets no new reference -/
  ended : ∀ p ∈ w.ended, p ∈ w'.ended ∧ w'.outstanding p ≤ w.outstanding p
  /-- a claim lasts until it is released or its device has gone -/
  claims : ∀ i who, w.claimant i = some who → w'.claimant i = some who ∨
    (∃ id, c = .setlock id 0 ∧ slotOf id = some i) ∨ w.registry.devlist i = none
  /-- generations never go down, and go up when a slot is filled -/
  generations : ∀ i,
    (w.registry.statuslist i).generation ≤ (w'.registry.statuslist i).generation ∧
      (w.registry.devlist i = none → w'.registry.devlist i ≠ none →
        (w.registry.statuslist i).generation < (w'.registry.statuslist i).generation)

variable {w w' : Desk} {c : Call}

theorem orderly_of_kept (kept : Kept w) : Orderly w := by
  refine ⟨fun i => ?_, kept.names, fun p ending => ⟨fun gone => ?_, fun zero => ?_⟩, kept.once,
    fun i who id claimed slot => ?_⟩
  · cases device : w.registry.devlist i with
    | none => exact kept.unused i device
    | some p => exact kept.counted i p device
  · by_contra some
    obtain ⟨i, device⟩ := kept.attached p (Nat.pos_of_ne_zero some)
    exact (kept.gone p gone).2 i device
  · refine (kept.ended p ending).resolve_right ?_
    rintro ⟨i, device, quiet⟩
    rcases kept.phase i p device with live | ⟨_, some⟩
    · exact absurd (live.symm.trans quiet) (by decide)
    · rw [kept.counted i p device] at some
      omega
  · rw [claimdeviceRef_locked slot (kept.claims i who claimed)]

/-- The addresses of the heap that hold a device's copy. -/
def copies (w : Desk) : Finset Ptr :=
  (Finset.Ico 0x020C2000 0x06000000).filter fun p => w.registry.heap p ≠ none

theorem mem_copies {w : Desk} {p : Ptr} :
    p ∈ copies w ↔ inKheap p = true ∧ w.registry.heap p ≠ none := by
  simp [copies, inKheap]

theorem copies_card (w : Desk) : (copies w).card < 2 ^ 32 - 1 := by
  have bound := Finset.card_filter_le (Finset.Ico 0x020C2000 0x06000000)
    fun p => w.registry.heap p ≠ none
  rw [Nat.card_Ico] at bound
  exact Nat.lt_of_le_of_lt bound (by decide)

/-- Each use of a slot left a copy on the heap. -/
def Aged (w : Desk) : Prop :=
  ∀ i, (w.registry.statuslist i).generation ≤ (copies w).card

theorem SlotMove.aged {i : SlotId} (move : SlotMove w c w' i)
    (aged : (w.registry.statuslist i).generation ≤ (copies w).card) :
    (w'.registry.statuslist i).generation ≤ (copies w').card := by
  rcases move with ⟨_, generation, stay⟩ | ⟨d, p, fresh, copied, _, status⟩
  · rw [generation]
    refine aged.trans (Finset.card_le_card fun p held => ?_)
    rw [mem_copies] at held ⊢
    exact ⟨held.1, stay p held.2⟩
  · have absent : p ∉ copies w := fun held => (mem_copies.mp held).2 fresh.2
    have grown : insert p (copies w) ⊆ copies w' := by
      intro q member
      rw [mem_copies, copied]
      rcases Finset.mem_insert.mp member with rfl | old
      · exact ⟨fresh.1, by simp⟩
      · have other : q ≠ p := fun same => absent (same ▸ old)
        simpa [other] using mem_copies.mp old
    have more := Finset.card_le_card grown
    rw [Finset.card_insert_of_notMem absent] at more
    rw [status]
    exact (Nat.mod_le _ _).trans (by omega)

theorem aged_of_reachable (run : Reachable registries (fun _ _ => True) w) : Kept w ∧ Aged w := by
  refine run.invariant (I := fun w => Kept w ∧ Aged w) ?_ ?_
  · rintro w rfl
    exact ⟨kept_of_reachable (.start rfl : Reachable registries (fun _ _ => True) _),
      fun i => Nat.zero_le _⟩
  · rintro w c w' ⟨kept, aged⟩ _ taken
    exact ⟨kept_perform kept taken, fun i => (slotMove_perform kept taken i).aged (aged i)⟩

theorem orderlyCall_of_kept (kept : Kept w) (aged : Aged w)
    (taken : perform w c = some w') : OrderlyCall w c w' := by
  have kept' := kept_perform kept taken
  have move := slotMove_perform kept taken
  refine ⟨fun i changed => ⟨?_, fun p device => ?_⟩, fun p => outstanding_ended kept taken,
    fun i who => claimant_perform kept taken, fun i => ?_⟩
  · rcases move i with ⟨same | none, _⟩ | ⟨_, _, _, _, _, status⟩
    · exact absurd same changed
    · exact kept'.unused i none
    · rw [status]
  · -- the device would have to sit in another slot, or in memory it already occupied
    by_contra some
    obtain ⟨j, device'⟩ := kept'.attached p (Nat.pos_of_ne_zero some)
    rcases move j with ⟨same | none, _⟩ | ⟨_, q, fresh, _, filled, _⟩
    · rw [same] at device'
      obtain rfl := kept.slot_unique device' device
      exact changed same
    · rw [none] at device'
      cases device'
    · obtain rfl := Option.some.inj (filled.symm.trans device')
      obtain ⟨dev, copied, _⟩ := kept.placed i q device
      rw [fresh.2] at copied
      cases copied
  · rcases move i with ⟨device, generation, _⟩ | ⟨_, _, _, _, _, status⟩
    · refine ⟨generation.ge, fun empty filled => ?_⟩
      rcases device with same | none
      · exact absurd (same.trans empty) filled
      · exact absurd none filled
    · have room := aged i
      have bound := copies_card w
      rw [status, Nat.mod_eq_of_lt (by omega)]
      exact ⟨Nat.le_succ _, fun _ _ => Nat.lt_succ_self _⟩

/-- In every interleaving of calls. -/
theorem registry_orderly (run : Reachable registries (fun _ _ => True) w) :
    Orderly w ∧ ∀ c w', perform w c = some w' → OrderlyCall w c w' := by
  obtain ⟨kept, aged⟩ := aged_of_reachable run
  exact ⟨orderly_of_kept kept, fun c w' => orderlyCall_of_kept kept aged⟩

def slotZero : SlotId := ⟨0, by decide⟩

/-- A disk, a reference to it and its removal. -/
def removedHeld : Option Desk :=
  [.register ⟨304, 0, "disk"⟩ (some 0x020C2000), .getdeviceRef 7 0, .removedevice 0].foldlM perform
    ⟨.empty, [], [], [], fun _ => none⟩

theorem removedHeld_some : removedHeld.isSome = true := by
  decide +kernel

/-- A disk removed while a caller holds it. -/
theorem registry_orderly_disk : ∃ w, Reachable registries (fun _ _ => True) w ∧
    (w.registry.statuslist slotZero).state = .quiescing ∧ w.outstanding 0x020C2000 = 1 ∧
    Orderly w ∧ ∀ c w', perform w c = some w' → OrderlyCall w c w' := by
  obtain ⟨w, calls, state, held⟩ : ∃ w, removedHeld = some w ∧
      (w.registry.statuslist slotZero).state = .quiescing ∧ w.outstanding 0x020C2000 = 1 :=
    ⟨_, (Option.some_get removedHeld_some).symm, by decide +kernel⟩
  have fresh : Reachable registries (fun _ _ => True) ⟨.empty, [], [], [], fun _ => none⟩ :=
    .start rfl
  have run := fresh.attempt (fun _ _ _ taken => taken) _ calls
  exact ⟨w, run, state, held, registry_orderly run⟩

end Contract

end IcsOs.Devmgr.References
