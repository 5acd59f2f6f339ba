/- GID: IcsOs/Devmgr/Lifecycle
   generality: I
   source: kernel/devmgr/dex32_devmgr.c, kernel/devmgr/devmgr_lifecycle.h
   digest: The device registry: slots, reference counts, claims and deferred removal. -/

import Mathlib.Algebra.Group.Int.Defs
import Mathlib.Algebra.Group.Nat.Defs
import Mathlib.Data.List.FinRange

set_option autoImplicit false

namespace IcsOs.Devmgr.Lifecycle

def maxDevices : Nat := 255

abbrev SlotId := Fin maxDevices

/-- Address of a registered copy. -/
abbrev Ptr := Nat

/-- `malloc` answers from `MEM_KHEAP_BASE` to `MEM_KHEAP_END`. -/
def inKheap (p : Ptr) : Bool := decide (0x020C2000 ≤ p ∧ p < 0x06000000)

/-- `DEVMGR_STATE_*`. -/
inductive LifeState
  | free
  | live
  | quiescing
  | dead
  deriving DecidableEq, Repr

/-- What the registry itself uses of `devmgr_generic`. -/
structure DevmgrGeneric where
  size : Int
  id : Int
  name : String

/-- `sizeof(devmgr_generic)`. -/
def sizeofGeneric : Nat := 304

structure DevmgrStatus where
  locked : Int
  refs : Nat
  generation : Nat
  state : LifeState

/-- `devmgr_devlist`, `devmgr_statuslist` and the device copies on the heap. -/
structure Registry where
  devlist : SlotId → Option Ptr
  statuslist : SlotId → DevmgrStatus
  heap : Ptr → Option DevmgrGeneric

/-- The registry as `devmgr_init` clears it. -/
def Registry.empty : Registry where
  devlist _ := none
  statuslist _ := ⟨0, 0, 0, .free⟩
  heap _ := none

def Registry.setStatus (r : Registry) (i : SlotId) (st : DevmgrStatus) : Registry :=
  { r with statuslist := Function.update r.statuslist i st }

/-- The range check every accessor makes on a device id. -/
def slotOf (deviceid : Int) : Option SlotId :=
  if inside : 0 ≤ deviceid ∧ deviceid < maxDevices then
    some ⟨deviceid.toNat, by omega⟩
  else none

/-- Whether the device is quiescing, and the new state. -/
def devmgrLifecycleQuiesce (state : LifeState) : Bool × LifeState :=
  let state' := if state = .live then .quiescing else state
  (decide (state' = .quiescing), state')

/-- `devmgr_lifecycle_get`; `none` is a refusal. -/
def devmgrLifecycleGet (state : LifeState) (refs : Nat) : Option Nat :=
  if state ≠ .live ∨ refs = 2 ^ 32 - 1 then none else some (refs + 1)

/-- `devmgr_lifecycle_put`; `none` is the underflow. -/
def devmgrLifecyclePut (refs : Nat) : Option Nat :=
  if refs = 0 then none else some (refs - 1)

def devmgrLifecycleCanRetire (state : LifeState) (refs : Nat) : Bool :=
  decide (state = .quiescing ∧ refs = 0)

/-- The live device of slot `i` is called `name`. -/
def isNamed (r : Registry) (name : String) (i : SlotId) : Bool :=
  match r.devlist i with
  | none => false
  | some p => decide ((r.statuslist i).state = .live) &&
      (r.heap p).any fun dev => dev.name == name

def devmgrFinddeviceLocked (r : Registry) (name : String) : Option SlotId :=
  (List.finRange maxDevices).find? (isNamed r name)

/-- The device that is detached. -/
def devmgrRetireLocked (r : Registry) (i : SlotId) : Option Ptr × Registry :=
  if devmgrLifecycleCanRetire (r.statuslist i).state (r.statuslist i).refs then
    (r.devlist i,
      { r with
        devlist := Function.update r.devlist i none
        statuslist := Function.update r.statuslist i { r.statuslist i with state := .dead } })
  else (none, r)

/-- The slot a deviceid names, with the device in it. -/
def attached (r : Registry) (deviceid : Int) : Option (SlotId × Ptr) :=
  (slotOf deviceid).bind fun i => (r.devlist i).map fun p => (i, p)

/-- What a call that may retire a device returns, and which it retired. -/
structure Ending where
  retval : Int
  retired : Option Ptr
  registry : Registry

/-- `retval=retired ? 1 : 0` after a call of `devmgr_retire_locked`. -/
def retireEnding (r : Registry) (i : SlotId) : Ending :=
  let ended := devmgrRetireLocked r i
  ⟨if ended.1.isSome then 1 else 0, ended.1, ended.2⟩

def devmgrRemovedevice (r : Registry) (deviceid : Int) : Ending :=
  match attached r deviceid with
  | none => ⟨-1, none, r⟩
  | some (i, _) =>
    let st := r.statuslist i
    if st.locked ≠ 0 then ⟨-1, none, r⟩
    else
      retireEnding
        (r.setStatus i { st with state := if st.state = .live then .quiescing else st.state }) i

def devmgrQuiesceDevice (r : Registry) (deviceid : Int) : Ending :=
  match attached r deviceid with
  | none => ⟨-1, none, r⟩
  | some (i, _) =>
    let st := r.statuslist i
    let quiesced := devmgrLifecycleQuiesce st.state
    if quiesced.1 then retireEnding (r.setStatus i { st with state := quiesced.2 }) i
    else ⟨-1, none, r⟩

/-- `devmgr_getdevice_ref`; `none` is the pointer `-1`. -/
def devmgrGetdeviceRef (r : Registry) (deviceid : Int) : Option Ptr × Registry :=
  match attached r deviceid with
  | none => (none, r)
  | some (i, p) =>
    match devmgrLifecycleGet (r.statuslist i).state (r.statuslist i).refs with
    | none => (none, r)
    | some refs => (some p, r.setStatus i { r.statuslist i with refs := refs })

def devmgrClaimdeviceRef (r : Registry) (deviceid : Int) : Option Ptr × Registry :=
  match attached r deviceid with
  | none => (none, r)
  | some (i, p) =>
    if (r.statuslist i).locked ≠ 0 then (none, r)
    else
      match devmgrLifecycleGet (r.statuslist i).state (r.statuslist i).refs with
      | none => (none, r)
      | some refs => (some p, r.setStatus i { r.statuslist i with refs := refs, locked := 1 })

/-- The device that is retired. A pointer to no copy is left alone. -/
def devmgrPutdevice (r : Registry) (device : Ptr) : Option Ptr × Registry :=
  match (r.heap device).bind fun dev => attached r dev.id with
  | none => (none, r)
  | some (i, p) =>
    if p ≠ device then (none, r)
    else
      let refs := (devmgrLifecyclePut (r.statuslist i).refs).getD (r.statuslist i).refs
      devmgrRetireLocked (r.setStatus i { r.statuslist i with refs := refs }) i

/-- The slot `devmgr_register` takes. -/
def freeSlot (r : Registry) : Option SlotId :=
  (List.finRange maxDevices).find? fun i => (r.devlist i).isNone

/-- `mem` is what `malloc` returns; the copy of a device without a slot is freed again. -/
def devmgrRegister (r : Registry) (d : DevmgrGeneric) (mem : Option Ptr) : Int × Registry :=
  if (d.size % 2 ^ 64).toNat < sizeofGeneric then (-1, r)
  else if (devmgrFinddeviceLocked r d.name).isSome then (-1, r)
  else
    match mem with
    | none => (-1, r)
    | some p =>
      match freeSlot r with
      | none => (-1, r)
      | some i =>
        (i.val,
          { devlist := Function.update r.devlist i (some p)
            statuslist := Function.update r.statuslist i
              ⟨0, 0, ((r.statuslist i).generation + 1) % 2 ^ 32, .live⟩
            heap := Function.update r.heap p (some { d with id := i.val }) })

def devmgrSetlock (r : Registry) (deviceid : Int) (val : Int) : Int × Registry :=
  match attached r deviceid with
  | none => (-1, r)
  | some (i, _) => (1, r.setStatus i { r.statuslist i with locked := val })

section Specifications

variable {r r' : Registry} {id : Int} {i : SlotId} {p : Ptr}

theorem slotOf_val (i : SlotId) : slotOf (i.val : Int) = some i := by
  have inside : (0 : Int) ≤ i.val ∧ (i.val : Int) < maxDevices := ⟨by omega, by
    have := i.isLt
    omega⟩
  rw [slotOf, dif_pos inside]
  simp

theorem attached_some {place : SlotId × Ptr} :
    attached r id = some place ↔ slotOf id = some place.1 ∧ r.devlist place.1 = some place.2 := by
  obtain ⟨i, p⟩ := place
  simp only [attached, Option.bind_eq_some_iff, Option.map_eq_some_iff, Prod.mk.injEq]
  constructor
  · rintro ⟨j, slot, q, device, rfl, rfl⟩
    exact ⟨slot, device⟩
  · rintro ⟨slot, device⟩
    exact ⟨i, slot, p, device, rfl, rfl⟩

/-- A grant: a live device gets a reference more; a claim also locks it. -/
structure Granted (r : Registry) (id : Int) (i : SlotId) (p : Ptr) : Prop where
  slot : slotOf id = some i
  device : r.devlist i = some p
  live : (r.statuslist i).state = .live

theorem lifecycleGet_some {state : LifeState} {refs refs' : Nat}
    (granted : devmgrLifecycleGet state refs = some refs') :
    state = .live ∧ refs' = refs + 1 := by
  unfold devmgrLifecycleGet at granted
  split at granted
  · cases granted
  · rename_i allowed
    push Not at allowed
    exact ⟨allowed.1, (Option.some.inj granted).symm⟩

theorem attached_cases (r : Registry) (id : Int) : attached r id = none ∨
    ∃ i p, attached r id = some (i, p) ∧ slotOf id = some i ∧ r.devlist i = some p := by
  cases found : attached r id with
  | none => exact .inl rfl
  | some place => exact .inr ⟨place.1, place.2, rfl, attached_some.mp found⟩

theorem getdeviceRef_cases (r : Registry) (id : Int) :
    devmgrGetdeviceRef r id = (none, r) ∨
      ∃ i p, Granted r id i p ∧ devmgrGetdeviceRef r id = (some p,
        r.setStatus i { r.statuslist i with refs := (r.statuslist i).refs + 1 }) := by
  unfold devmgrGetdeviceRef
  rcases attached_cases r id with found | ⟨i, p, found, slot, device⟩ <;> rw [found]
  · exact .inl rfl
  dsimp only
  cases granted : devmgrLifecycleGet (r.statuslist i).state (r.statuslist i).refs with
  | none => exact .inl rfl
  | some refs =>
    obtain ⟨live, rfl⟩ := lifecycleGet_some granted
    exact .inr ⟨i, p, ⟨slot, device, live⟩, rfl⟩

theorem claimdeviceRef_cases (r : Registry) (id : Int) :
    devmgrClaimdeviceRef r id = (none, r) ∨
      ∃ i p, Granted r id i p ∧ (r.statuslist i).locked = 0 ∧ devmgrClaimdeviceRef r id = (some p,
        r.setStatus i { r.statuslist i with
          refs := (r.statuslist i).refs + 1, locked := 1 }) := by
  unfold devmgrClaimdeviceRef
  rcases attached_cases r id with found | ⟨i, p, found, slot, device⟩ <;> rw [found]
  · exact .inl rfl
  dsimp only
  split
  · exact .inl rfl
  rename_i unlocked
  cases granted : devmgrLifecycleGet (r.statuslist i).state (r.statuslist i).refs with
  | none => exact .inl rfl
  | some refs =>
    obtain ⟨live, rfl⟩ := lifecycleGet_some granted
    exact .inr ⟨i, p, ⟨slot, device, live⟩, by simpa using unlocked, rfl⟩

/-- A put of an attached device. -/
theorem putdevice_eq {dev : DevmgrGeneric} (copied : r.heap p = some dev) (home : dev.id = i.val)
    (device : r.devlist i = some p) (positive : (r.statuslist i).refs ≠ 0) :
    devmgrPutdevice r p = devmgrRetireLocked
      (r.setStatus i { r.statuslist i with refs := (r.statuslist i).refs - 1 }) i := by
  have found : attached r dev.id = some (i, p) := by
    rw [attached_some, home]
    exact ⟨slotOf_val i, device⟩
  simp only [devmgrPutdevice, copied, Option.bind_some, found, ne_eq, not_true_eq_false, if_false,
    devmgrLifecyclePut, positive, Option.getD_some]

/-- A removal: refused, or the device quiesces and retires if it can. -/
def Ends (r : Registry) (id : Int) (ending : Ending) : Prop :=
  ending = ⟨-1, none, r⟩ ∨ ∃ i p, slotOf id = some i ∧ r.devlist i = some p ∧
    ending = retireEnding (r.setStatus i { r.statuslist i with
      state := if (r.statuslist i).state = .live then .quiescing else (r.statuslist i).state }) i

theorem removedevice_ends (r : Registry) (id : Int) : Ends r id (devmgrRemovedevice r id) := by
  unfold devmgrRemovedevice
  rcases attached_cases r id with found | ⟨i, p, found, slot, device⟩ <;> rw [found]
  · exact .inl rfl
  dsimp only
  split
  · exact .inl rfl
  · exact .inr ⟨i, p, slot, device, rfl⟩

theorem quiesceDevice_ends (r : Registry) (id : Int) : Ends r id (devmgrQuiesceDevice r id) := by
  unfold devmgrQuiesceDevice
  rcases attached_cases r id with found | ⟨i, p, found, slot, device⟩ <;> rw [found]
  · exact .inl rfl
  dsimp only
  split
  · exact .inr ⟨i, p, slot, device, rfl⟩
  · exact .inl rfl

theorem register_cases (r : Registry) (d : DevmgrGeneric) (mem : Option Ptr) :
    devmgrRegister r d mem = (-1, r) ∨
      ∃ p i, mem = some p ∧ freeSlot r = some i ∧ devmgrFinddeviceLocked r d.name = none ∧
        devmgrRegister r d mem = ((i.val : Int),
          { devlist := Function.update r.devlist i (some p)
            statuslist := Function.update r.statuslist i
              ⟨0, 0, ((r.statuslist i).generation + 1) % 2 ^ 32, .live⟩
            heap := Function.update r.heap p (some { d with id := i.val }) }) := by
  unfold devmgrRegister
  split
  · exact .inl rfl
  split
  · exact .inl rfl
  rename_i unnamed
  cases mem with
  | none => exact .inl rfl
  | some p =>
    dsimp only
    cases free : freeSlot r with
    | none => exact .inl rfl
    | some i => exact .inr ⟨p, i, rfl, rfl, by simpa using unnamed, rfl⟩

theorem freeSlot_empty (free : freeSlot r = some i) : r.devlist i = none := by
  have found := List.find?_some (p := fun i => (r.devlist i).isNone) free
  simpa using found

theorem finddevice_none {name : String} (missing : devmgrFinddeviceLocked r name = none)
    {dev : DevmgrGeneric} (device : r.devlist i = some p) (live : (r.statuslist i).state = .live)
    (copied : r.heap p = some dev) : dev.name ≠ name := by
  intro same
  have refused := List.find?_eq_none.mp missing i (List.mem_finRange i)
  apply refused
  simp [isNamed, device, live, copied, same]

end Specifications

end IcsOs.Devmgr.Lifecycle
