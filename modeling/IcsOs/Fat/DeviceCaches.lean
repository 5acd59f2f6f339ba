/- GID: IcsOs/Fat/DeviceCaches
   generality: I
   source: kernel/filesystem/fat12.c, kernel/devmgr/dex32_devmgr.c
   digest: The boot sector cache and the table cache against the devices that come and go. -/

import IcsOs.Devmgr.Lifecycle
import IcsOs.Fat.Table
import IcsOs.Lib.Runs
import IcsOs.Lib.Updates

set_option autoImplicit false

namespace IcsOs.Fat.DeviceCaches

open Function List Option
open Devmgr.Lifecycle Fat.Table Lib.Runs Lib.Updates

abbrev Sector := Nat → Byte

abbrev Medium := Nat → Sector

def le16At (s : Sector) (o : Nat) : Nat := (s o).toNat + (s (o + 1)).toNat * 2 ^ 8

def le32At (s : Sector) (o : Nat) : Nat := le16At s o + le16At s (o + 2) * 2 ^ 16

/-- A boot sector read as `BPB`, or `BPB32` for the size of a table. -/
def bpbOf (s : Sector) : Bpb where
  bytesPerSector := le16At s 11
  sectorsPerCluster := (s 13).toNat
  numBootSectors := le16At s 14
  numFats := (s 16).toNat
  numRootDirEnts := le16At s 17
  totalSectors := if le16At s 19 ≠ 0 then le16At s 19 else le32At s 32
  sectorsPerFat := le16At s 22
  fatsz32 := le32At s 36

/-- Without the position of the last sequential access. -/
structure FatcacheEnt where
  id : Int
  valid : Bool
  dirty : Bool
  fatSectors : Nat
  deviceGeneration : Nat
  fat : Option (List Sector)

/-- The registry, the medium of each device, and the two caches. -/
structure World where
  reg : Registry
  media : SlotId → Medium
  bpbs : Fin 8 → Option (Int × Sector)
  fats : Fin 4 → FatcacheEnt

/-- The slot of a device that takes requests. -/
def liveSlot (r : Registry) (id : Int) : Option SlotId :=
  (attached r id).bind fun place =>
    if (r.statuslist place.1).state = .live then some place.1 else none

/-- Reads the live device's medium; on failure the buffer stays. -/
def readSector (w : World) (id : Int) (junk : Nat → Sector) (sector : Nat) : Sector :=
  match liveSlot w.reg id with
  | none => junk sector
  | some i => w.media i sector

def devmgrGetGeneration (r : Registry) (id : Int) : Nat :=
  match attached r id with
  | none => 0
  | some (i, _) => (r.statuslist i).generation

/-- The first unused slot, else one chosen by the id. -/
def bpbSlot (w : World) (id : Int) : Fin 8 :=
  match (List.finRange 8).find? fun k => (w.bpbs k).isNone with
  | some k => k
  | none => ⟨(id % 8).toNat, by omega⟩

def readBPB (w : World) (id : Int) (junk : Nat → Sector) : Sector × World :=
  match (List.finRange 8).findSome? fun k =>
      (w.bpbs k).bind fun e => if e.1 = id then some e.2 else none with
  | some bpb => (bpb, w)
  | none =>
    let bpb := readSector w id junk 0
    (bpb, { w with bpbs := Function.update w.bpbs (bpbSlot w id) (some (id, bpb)) })

/-- Sectors of one request for a table. -/
def fatChunk : Nat := 0xF0

def loadfatLoop (read : Nat → Sector) (start total : Nat) : Nat → Nat → List Sector
  | 0, _ => []
  | fuel + 1, i =>
    if total ≤ i then []
    else
      let count := if fatChunk < total - i then fatChunk else total - i
      (List.range count).map (fun k => read (start + i + k)) ++
        loadfatLoop read start total fuel (i + fatChunk)

def loadfat (read : Nat → Sector) (bpb : Bpb) : List Sector :=
  loadfatLoop read bpb.numBootSectors (fatSectorsPerFat bpb) (fatSectorsPerFat bpb) 0

/-- The device's entry, else one that is not in use. -/
def fatSlot (w : World) (id : Int) : Option (Fin 4) :=
  ((List.finRange 4).find? fun k => (w.fats k).valid && decide ((w.fats k).id = id) &&
      decide ((w.fats k).deviceGeneration = devmgrGetGeneration w.reg id)).or
    ((List.finRange 4).find? fun k => !(w.fats k).valid)

/-- An entry with a buffer for a table; `none` without memory. -/
def fitEntry (e : FatcacheEnt) (total : Nat) (mem : Bool) (junk : List Sector) :
    Option FatcacheEnt :=
  if e.fatSectors = total then some e
  else if mem then some { e with fat := some junk, fatSectors := total, dirty := true }
  else none

def World.setFat (w : World) (k : Fin 4) (e : FatcacheEnt) : World :=
  { w with fats := Function.update w.fats k e }

/-- `fat_cache_get`; `mem` is whether `malloc` succeeds. -/
def fatCacheGet (w : World) (bpb : Sector) (id : Int) (mem : Bool) (junk : Nat → Sector) :
    Option (List Sector) × World :=
  let total := fatSectorsPerFat (bpbOf bpb)
  if total = 0 then (none, w)
  else
    match fatSlot w id with
    | none => (none, w)
    | some k =>
      match fitEntry (w.fats k) total mem ((List.range total).map junk) with
      | none => (none, w.setFat k { w.fats k with valid := false, fatSectors := 0, fat := none })
      | some e =>
        if e.valid = true ∧ e.id = id ∧ e.dirty = false then (e.fat, w.setFat k e)
        else
          let fat := loadfat (readSector w id junk) (bpbOf bpb)
          (some fat, w.setFat k ⟨id, true, false, e.fatSectors, devmgrGetGeneration w.reg id,
            some fat⟩)

def fatCacheInvalidate (w : World) (id : Int) : World :=
  { w with
    fats := fun k =>
      if (w.fats k).valid = true ∧ (w.fats k).id = id then { w.fats k with dirty := true }
      else w.fats k }

def fatCacheFreeall (w : World) : World :=
  { w with
    fats := fun k =>
      { w.fats k with fat := none, valid := false, dirty := false, id := -1, fatSectors := 0 } }

/-- Every copy of the table on a medium, written from a buffer. -/
def writeCopies (m : Medium) (bpb : Bpb) (fat : Nat → Sector) : Medium :=
  (List.range bpb.numFats).foldl (fun m c s =>
      let first := bpb.numBootSectors + c * fatSectorsPerFat bpb
      if first ≤ s ∧ s < first + fatSectorsPerFat bpb then fat (s - first) else m s) m

def updateFats (w : World) (bpb : Sector) (fat : Nat → Sector) (id : Int) : World :=
  match liveSlot w.reg id with
  | none => fatCacheInvalidate w id
  | some i =>
    fatCacheInvalidate
      { w with media := Function.update w.media i (writeCopies (w.media i) (bpbOf bpb) fat) } id

def register (w : World) (d : DevmgrGeneric) (mem : Option Ptr) (medium : Medium) : World :=
  let out := devmgrRegister w.reg d mem
  match slotOf out.1 with
  | none => { w with reg := out.2 }
  | some i => { w with reg := out.2, media := Function.update w.media i medium }

inductive Act
  | register (d : DevmgrGeneric) (mem : Option Ptr) (medium : Medium)
  | remove (id : Int)
  | quiesce (id : Int)
  | getRef (id : Int)
  | claim (id : Int)
  | put (p : Ptr)
  | setlock (id val : Int)
  | readBpb (id : Int) (junk : Nat → Sector)
  | fatGet (bpb : Sector) (id : Int) (mem : Bool) (junk : Nat → Sector)
  | updateFats (bpb : Sector) (fat : Nat → Sector) (id : Int)
  | freeall

def perform (w : World) : Act → World
  | .register d mem medium => register w d mem medium
  | .remove id => { w with reg := (devmgrRemovedevice w.reg id).registry }
  | .quiesce id => { w with reg := (devmgrQuiesceDevice w.reg id).registry }
  | .getRef id => { w with reg := (devmgrGetdeviceRef w.reg id).2 }
  | .claim id => { w with reg := (devmgrClaimdeviceRef w.reg id).2 }
  | .put p => { w with reg := (devmgrPutdevice w.reg p).2 }
  | .setlock id val => { w with reg := (devmgrSetlock w.reg id val).2 }
  | .readBpb id junk => (readBPB w id junk).2
  | .fatGet bpb id mem junk => (fatCacheGet w bpb id mem junk).2
  | .updateFats bpb fat id => updateFats w bpb fat id
  | .freeall => fatCacheFreeall w

/-- No device, and the caches as loaded. -/
def booted : World where
  reg := .empty
  media _ _ _ := 0
  bpbs _ := none
  fats _ := ⟨0, false, false, 0, 0, none⟩

def hotplug : System World Act where
  start w := w = booted
  step w a w' := w' = perform w a

section

variable {r r' r'' : Registry} {i : SlotId} {id : Int}

/-- Nothing becomes live, and what stays live keeps its generation. -/
def Quieter (r r' : Registry) : Prop :=
  ∀ i, (r'.devlist i).isSome = true → (r'.statuslist i).state = .live →
    (r.devlist i).isSome = true ∧ (r.statuslist i).state = .live ∧
      (r'.statuslist i).generation = (r.statuslist i).generation

theorem Quieter.refl (r : Registry) : Quieter r r := fun _ there live => ⟨there, live, rfl⟩

theorem Quieter.trans (first : Quieter r r') (second : Quieter r' r'') : Quieter r r'' := by
  intro i there live
  obtain ⟨there, live, same⟩ := second i there live
  obtain ⟨there, live, same'⟩ := first i there live
  exact ⟨there, live, same.trans same'⟩

theorem quieter_setStatus {st : DevmgrStatus}
    (generation : st.generation = (r.statuslist i).generation)
    (state : st.state = .live → (r.statuslist i).state = .live) : Quieter r (r.setStatus i st) := by
  intro j there live
  change (update r.statuslist i st j).state = .live at live
  change _ ∧ _ ∧ (update r.statuslist i st j).generation = _
  by_cases here : j = i
  · subst here
    rw [update_self] at live ⊢
    exact ⟨there, state live, generation⟩
  · rw [update_of_ne here] at live ⊢
    exact ⟨there, live, rfl⟩

theorem quieter_retire (r : Registry) (i : SlotId) : Quieter r (devmgrRetireLocked r i).2 := by
  unfold devmgrRetireLocked
  split_ifs
  · intro j there live
    rcases update_cases (g := isSome) there with ⟨-, none_⟩ | ⟨here, there⟩
    · exact absurd none_ Bool.false_ne_true
    change (update r.statuslist i _ j).state = .live at live
    change _ ∧ _ ∧ (update r.statuslist i _ j).generation = _
    rw [update_of_ne here] at live ⊢
    exact ⟨there, live, rfl⟩
  · exact .refl r

theorem quieter_ending {st : DevmgrStatus}
    (generation : st.generation = (r.statuslist i).generation)
    (state : st.state = .live → (r.statuslist i).state = .live) :
    Quieter r (retireEnding (r.setStatus i st) i).registry :=
  (quieter_setStatus generation state).trans (quieter_retire _ i)

theorem not_live_quiesced (state : LifeState) :
    (if state = .live then LifeState.quiescing else state) = .live → state = .live := by
  cases state <;> simp

theorem quieter_ends {ending : Ending} (ends : Ends r id ending) : Quieter r ending.registry := by
  rcases ends with rfl | ⟨i, p, -, -, rfl⟩
  · exact .refl r
  · exact quieter_ending rfl (not_live_quiesced _)

theorem quieter_getRef (r : Registry) (id : Int) : Quieter r (devmgrGetdeviceRef r id).2 := by
  rcases getdeviceRef_cases r id with same | ⟨i, p, granted, done⟩
  · rw [same]
    exact .refl r
  · rw [done]
    exact quieter_setStatus rfl fun live => live

theorem quieter_claim (r : Registry) (id : Int) : Quieter r (devmgrClaimdeviceRef r id).2 := by
  rcases claimdeviceRef_cases r id with same | ⟨i, p, granted, -, done⟩
  · rw [same]
    exact .refl r
  · rw [done]
    exact quieter_setStatus rfl fun live => live

theorem quieter_put (r : Registry) (p : Ptr) : Quieter r (devmgrPutdevice r p).2 := by
  unfold devmgrPutdevice
  cases (r.heap p).bind fun dev => attached r dev.id with
  | none => exact .refl r
  | some place =>
    obtain ⟨i, q⟩ := place
    dsimp only
    split_ifs
    · exact .refl r
    · refine Quieter.trans ?_ (quieter_retire _ i)
      exact quieter_setStatus rfl fun live => live

theorem quieter_setlock (r : Registry) (id val : Int) : Quieter r (devmgrSetlock r id val).2 := by
  unfold devmgrSetlock
  cases attached r id with
  | none => exact .refl r
  | some place => exact quieter_setStatus rfl fun live => live

theorem liveSlot_some : liveSlot r id = some i ↔
    slotOf id = some i ∧ (r.devlist i).isSome = true ∧ (r.statuslist i).state = .live := by
  unfold liveSlot
  constructor
  · intro found
    obtain ⟨place, there, live⟩ := bind_eq_some_iff.mp found
    obtain ⟨slot, device⟩ := attached_some.mp there
    by_cases state : (r.statuslist place.1).state = .live
    · rw [if_pos state] at live
      cases live
      exact ⟨slot, by rw [device]; rfl, state⟩
    · rw [if_neg state] at live
      cases live
  · rintro ⟨slot, there, live⟩
    obtain ⟨p, device⟩ := isSome_iff_exists.mp there
    have place : attached r id = some (i, p) := attached_some.mpr ⟨slot, device⟩
    rw [place, bind_some, if_pos live]

theorem Quieter.liveSlot (quieter : Quieter r r') (live : liveSlot r' id = some i) :
    liveSlot r id = some i ∧ (r'.statuslist i).generation = (r.statuslist i).generation := by
  obtain ⟨slot, there, state⟩ := liveSlot_some.mp live
  obtain ⟨there, state, same⟩ := quieter i there state
  exact ⟨liveSlot_some.mpr ⟨slot, there, state⟩, same⟩

theorem generation_live (live : liveSlot r id = some i) :
    devmgrGetGeneration r id = (r.statuslist i).generation := by
  obtain ⟨slot, there, -⟩ := liveSlot_some.mp live
  obtain ⟨p, device⟩ := isSome_iff_exists.mp there
  have place : attached r id = some (i, p) := attached_some.mpr ⟨slot, device⟩
  unfold devmgrGetGeneration
  rw [place]

variable {w : World}

/-- The first table on a medium. -/
def fatOf (m : Medium) : List Sector :=
  (List.range (fatSectorsPerFat (bpbOf (m 0)))).map fun k => m ((bpbOf (m 0)).numBootSectors + k)

/-- What the caches hold for live devices is on their media. -/
structure Coherent (w : World) : Prop where
  bpb : ∀ k id b i, w.bpbs k = some (id, b) → liveSlot w.reg id = some i → b = w.media i 0
  fat : ∀ k i, (w.fats k).valid = true → (w.fats k).dirty = false →
    liveSlot w.reg (w.fats k).id = some i →
    (w.fats k).deviceGeneration = (w.reg.statuslist i).generation →
    (w.fats k).fat = some (fatOf (w.media i)) ∧
      (w.fats k).fatSectors = fatSectorsPerFat (bpbOf (w.media i 0))

theorem Coherent.quieter {r' : Registry} (coherent : Coherent w) (quieter : Quieter w.reg r') :
    Coherent { w with reg := r' } := by
  constructor
  · intro k id b i held live
    exact coherent.bpb k id b i held (quieter.liveSlot live).1
  · intro k i valid clean live same
    obtain ⟨live, kept⟩ := quieter.liveSlot live
    exact coherent.fat k i valid clean live (same.trans kept)

theorem loadfatLoop_eq (read : Nat → Sector) (start total : Nat) :
    ∀ fuel i, total - i ≤ fuel → loadfatLoop read start total fuel i =
        (range (total - i)).map fun k => read (start + i + k) := by
  have positive : 0 < fatChunk := by decide
  intro fuel
  induction fuel with
  | zero =>
    intro i enough
    have none_ : total - i = 0 := by omega
    rw [none_]
    rfl
  | succ fuel ih =>
    intro i enough
    rw [loadfatLoop]
    by_cases over_ : total ≤ i
    · rw [if_pos over_]
      have none_ : total - i = 0 := by omega
      rw [none_]
      rfl
    rw [if_neg over_]
    dsimp only
    rw [ih (i + fatChunk) (by omega)]
    by_cases long : fatChunk < total - i
    · rw [if_pos long]
      have split : total - i = fatChunk + (total - (i + fatChunk)) := by omega
      rw [split, range_add, map_append, List.map_map]
      apply congrArg
      apply map_congr_left
      intro k _
      change read (start + (i + fatChunk) + k) = read (start + i + (fatChunk + k))
      congr 1
      omega
    · rw [if_neg long]
      have rest : total - (i + fatChunk) = 0 := by omega
      rw [rest]
      exact append_nil _

/-- On a live device the table is loaded as it is on the medium. -/
theorem loadfat_live (live : liveSlot w.reg id = some i) (junk : Nat → Sector) :
    loadfat (readSector w id junk) (bpbOf (w.media i 0)) = fatOf (w.media i) := by
  unfold loadfat fatOf
  rw [loadfatLoop_eq _ _ _ _ 0 (Nat.sub_le _ _), Nat.sub_zero]
  apply map_congr_left
  intro k _
  unfold readSector
  rw [live, Nat.add_zero]

/-- The boot sector a live device gets is its own. -/
theorem readBPB_live (coherent : Coherent w) (live : liveSlot w.reg id = some i)
    (junk : Nat → Sector) : (readBPB w id junk).1 = w.media i 0 := by
  unfold readBPB
  cases cached : (finRange 8).findSome? fun k =>
      (w.bpbs k).bind fun e => if e.1 = id then some e.2 else none with
  | none =>
    unfold readSector
    rw [live]
  | some bpb =>
    obtain ⟨k, -, found⟩ := exists_of_findSome?_eq_some cached
    obtain ⟨⟨id', b⟩, held, same⟩ := bind_eq_some_iff.mp found
    by_cases own : id' = id
    · subst own
      rw [if_pos rfl] at same
      cases same
      exact coherent.bpb k id' b i held live
    · rw [if_neg own] at same
      cases same

theorem coherent_readBPB (coherent : Coherent w) (live : liveSlot w.reg id = some i)
    (junk : Nat → Sector) : Coherent (readBPB w id junk).2 := by
  unfold readBPB
  cases (finRange 8).findSome? fun k =>
      (w.bpbs k).bind fun e => if e.1 = id then some e.2 else none with
  | some bpb => exact coherent
  | none =>
    refine ⟨fun k id' b j held there => ?_, coherent.fat⟩
    change update w.bpbs (bpbSlot w id) _ k = _ at held
    by_cases here : k = bpbSlot w id
    · rw [here, update_self] at held
      cases held
      rw [live] at there
      cases there
      unfold readSector
      rw [live]
    · rw [update_of_ne here] at held
      exact coherent.bpb k id' b j held there

theorem Coherent.setFat {k : Fin 4} {e : FatcacheEnt} (coherent : Coherent w)
    (own : ∀ i, e.valid = true → e.dirty = false → liveSlot w.reg e.id = some i →
      e.deviceGeneration = (w.reg.statuslist i).generation →
      e.fat = some (fatOf (w.media i)) ∧ e.fatSectors = fatSectorsPerFat (bpbOf (w.media i 0))) :
    Coherent (w.setFat k e) := by
  refine ⟨coherent.bpb, fun j i valid clean live same => ?_⟩
  change (update w.fats k e j).valid = true at valid
  change (update w.fats k e j).dirty = false at clean
  change liveSlot w.reg (update w.fats k e j).id = some i at live
  change (update w.fats k e j).deviceGeneration = _ at same
  change (update w.fats k e j).fat = _ ∧ (update w.fats k e j).fatSectors = _
  by_cases here : j = k
  · subst here
    rw [update_self] at valid clean live same ⊢
    exact own i valid clean live same
  · rw [update_of_ne here] at valid clean live same ⊢
    exact coherent.fat j i valid clean live same

/-- An entry that was found is the device's, or was not in use. -/
theorem fatSlot_cases {k : Fin 4} (found : fatSlot w id = some k) :
    (w.fats k).valid = true ∧ (w.fats k).id = id ∧
        (w.fats k).deviceGeneration = devmgrGetGeneration w.reg id ∨
      (w.fats k).valid = false := by
  rcases or_eq_some_iff.mp found with own | ⟨-, unused⟩
  · have facts := find?_some own
    simp only [Bool.and_eq_true, decide_eq_true_eq] at facts
    exact .inl ⟨facts.1.1, facts.1.2, facts.2⟩
  · have facts := find?_some unused
    exact .inr (by simpa using facts)

theorem fatCacheGet_live (coherent : Coherent w) (live : liveSlot w.reg id = some i) (mem : Bool)
    (junk : Nat → Sector) :
    (∀ fat, (fatCacheGet w (w.media i 0) id mem junk).1 = some fat → fat = fatOf (w.media i)) ∧
      Coherent (fatCacheGet w (w.media i 0) id mem junk).2 := by
  have loaded := loadfat_live live junk
  unfold fatCacheGet
  by_cases zero : fatSectorsPerFat (bpbOf (w.media i 0)) = 0
  · rw [if_pos zero]
    exact ⟨nofun, coherent⟩
  rw [if_neg zero]
  cases slot : fatSlot w id with
  | none => exact ⟨nofun, coherent⟩
  | some k =>
    dsimp only
    cases fit : fitEntry (w.fats k) (fatSectorsPerFat (bpbOf (w.media i 0))) mem
        ((range (fatSectorsPerFat (bpbOf (w.media i 0)))).map junk) with
    | none => exact ⟨nofun, coherent.setFat fun _ valid => nomatch valid⟩
    | some e =>
      dsimp only
      have size : e.fatSectors = fatSectorsPerFat (bpbOf (w.media i 0)) := by
        unfold fitEntry at fit
        split_ifs at fit with same _
        · cases fit
          exact same
        · cases fit
          rfl
      by_cases hit : e.valid = true ∧ e.id = id ∧ e.dirty = false
      · rw [if_pos hit]
        -- only an entry of the right size was not marked, and it is the device's own
        have entry : e = w.fats k := by
          unfold fitEntry at fit
          split_ifs at fit with same _
          · exact (Option.some.inj fit).symm
          · cases fit
            exact nomatch hit.2.2
        subst entry
        rcases fatSlot_cases slot with ⟨valid, own, same⟩ | unused
        · rw [generation_live live] at same
          have held := coherent.fat k i valid hit.2.2 (by rw [own]; exact live) same
          refine ⟨fun fat got => ?_, coherent.setFat fun j valid clean there same => ?_⟩
          · rw [held.1] at got
            exact (Option.some.inj got).symm
          · exact coherent.fat k j valid clean there same
        · rw [hit.1] at unused
          cases unused
      · rw [if_neg hit]
        refine ⟨fun fat got => ?_, coherent.setFat fun j _ _ there _ => ?_⟩
        · rw [← Option.some.inj got]
          exact loaded
        change liveSlot w.reg id = some j at there
        rw [live] at there
        cases there
        exact ⟨congrArg some loaded, size⟩

theorem coherent_invalidate (coherent : Coherent w) (id : Int) :
    Coherent (fatCacheInvalidate w id) := by
  refine ⟨coherent.bpb, fun k i valid clean live same => ?_⟩
  unfold fatCacheInvalidate at *
  dsimp only at *
  by_cases own : (w.fats k).valid = true ∧ (w.fats k).id = id
  · rw [if_pos own] at clean
    cases clean
  · rw [if_neg own] at valid clean live same ⊢
    exact coherent.fat k i valid clean live same

theorem writeCopies_boot (m : Medium) (bpb : Bpb) (fat : Nat → Sector)
    (apart : 1 ≤ bpb.numBootSectors) : writeCopies m bpb fat 0 = m 0 := by
  unfold writeCopies
  induction range bpb.numFats generalizing m with
  | nil => rfl
  | cons c rest ih =>
    rw [foldl_cons, ih]
    exact if_neg (by omega)

theorem coherent_updateFats {bpb : Sector} {fat : Nat → Sector} (coherent : Coherent w)
    (apart : 1 ≤ (bpbOf bpb).numBootSectors) : Coherent (updateFats w bpb fat id) := by
  unfold updateFats
  cases live : liveSlot w.reg id with
  | none => exact coherent_invalidate coherent id
  | some i =>
    have boot : ∀ j, update w.media i (writeCopies (w.media i) (bpbOf bpb) fat) j 0 =
        w.media j 0 := by
      intro j
      by_cases here : j = i
      · subst here
        rw [update_self]
        exact writeCopies_boot _ _ _ apart
      · rw [update_of_ne here]
    constructor
    · intro k id' b j held there
      rw [coherent.bpb k id' b j held there]
      exact (boot j).symm
    intro k j valid clean there same
    unfold fatCacheInvalidate at valid clean there same ⊢
    dsimp only at valid clean there same ⊢
    by_cases own : (w.fats k).valid = true ∧ (w.fats k).id = id
    · rw [if_pos own] at clean
      cases clean
    rw [if_neg own] at valid clean there same ⊢
    -- an entry that stays clean is another device's, whose medium was not written
    have other : j ≠ i := by
      rintro rfl
      refine own ⟨valid, ?_⟩
      have mine := (liveSlot_some.mp live).1
      have theirs := (liveSlot_some.mp there).1
      unfold slotOf at mine theirs
      split_ifs at mine theirs
      have := congrArg Fin.val (Option.some.inj (mine.trans theirs.symm))
      dsimp only at this
      omega
    rw [update_of_ne other]
    exact coherent.fat k j valid clean there same

end

section Contract

variable {w : World}

/-- Devices are registered under ids and generations the caches do not know; only live devices with
their own boot sectors are asked about, and tables do not begin at sector 0. -/
def Careful (w : World) : Act → Prop
  | .register d mem _ =>
    ∀ i, slotOf (devmgrRegister w.reg d mem).1 = some i →
      (∀ k id b, w.bpbs k = some (id, b) → slotOf id ≠ some i) ∧
      ∀ k, (w.fats k).valid = true → slotOf (w.fats k).id = some i →
        (w.fats k).deviceGeneration ≠ ((w.reg.statuslist i).generation + 1) % 2 ^ 32
  | .readBpb id _ => ∃ i, liveSlot w.reg id = some i
  | .fatGet bpb id _ _ => ∃ i, liveSlot w.reg id = some i ∧ bpb = w.media i 0
  | .updateFats bpb _ _ => 1 ≤ (bpbOf bpb).numBootSectors
  | _ => True

theorem coherent_register {d : DevmgrGeneric} {mem : Option Ptr} {medium : Medium}
    (coherent : Coherent w) (careful : Careful w (.register d mem medium)) :
    Coherent (register w d mem medium) := by
  unfold register
  dsimp only
  rcases register_cases w.reg d mem with refused | ⟨p, i, -, free, -, done⟩
  · rw [refused]
    exact coherent
  have slot : slotOf (devmgrRegister w.reg d mem).1 = some i := by
    rw [done]
    exact slotOf_val i
  obtain ⟨noBoot, noFat⟩ := careful i slot
  rw [slot]
  -- any other slot is as before
  have elsewhere : ∀ id j, j ≠ i → liveSlot (devmgrRegister w.reg d mem).2 id = some j →
      liveSlot w.reg id = some j ∧ ((devmgrRegister w.reg d mem).2.statuslist j) =
        w.reg.statuslist j := by
    intro id j other live
    rw [done] at live ⊢
    obtain ⟨at_, there, state⟩ := liveSlot_some.mp live
    dsimp only at there state ⊢
    rw [update_of_ne other] at there state ⊢
    exact ⟨liveSlot_some.mpr ⟨at_, there, state⟩, rfl⟩
  constructor
  · intro k id b j held live
    by_cases here : j = i
    · subst here
      exact absurd (liveSlot_some.mp live).1 (noBoot k id b held)
    · dsimp only
      rw [update_of_ne here]
      exact coherent.bpb k id b j held (elsewhere id j here live).1
  · intro k j valid clean live same
    by_cases here : j = i
    · subst here
      refine absurd same ?_
      rw [done]
      dsimp only
      rw [update_self]
      exact noFat k valid (liveSlot_some.mp live).1
    · obtain ⟨live, kept⟩ := elsewhere _ j here live
      dsimp only at same ⊢
      rw [kept] at same
      rw [update_of_ne here]
      exact coherent.fat k j valid clean live same

theorem coherent_step {a : Act} (coherent : Coherent w) (careful : Careful w a) :
    Coherent (perform w a) := by
  cases a with
  | register d mem medium => exact coherent_register coherent careful
  | remove id => exact coherent.quieter (quieter_ends (removedevice_ends w.reg id))
  | quiesce id => exact coherent.quieter (quieter_ends (quiesceDevice_ends w.reg id))
  | getRef id => exact coherent.quieter (quieter_getRef w.reg id)
  | claim id => exact coherent.quieter (quieter_claim w.reg id)
  | put p => exact coherent.quieter (quieter_put w.reg p)
  | setlock id val => exact coherent.quieter (quieter_setlock w.reg id val)
  | readBpb id junk =>
    obtain ⟨i, live⟩ := careful
    exact coherent_readBPB coherent live junk
  | fatGet bpb id mem junk =>
    obtain ⟨i, live, rfl⟩ := careful
    exact (fatCacheGet_live coherent live mem junk).2
  | updateFats bpb fat id => exact coherent_updateFats coherent careful
  | freeall => exact ⟨coherent.bpb, fun _ _ valid => nomatch valid⟩

theorem coherent_booted : Coherent booted where
  bpb := nofun
  fat := nofun

/-- Where no id or generation still cached is registered, a live device gets its own sector 0 and
table. -/
theorem caches_follow_devices (run : Reachable hotplug Careful w) {id : Int} {i : SlotId}
    (live : liveSlot w.reg id = some i) (junk : Nat → Sector) :
    (readBPB w id junk).1 = w.media i 0 ∧
      ∀ mem fat, (fatCacheGet w (w.media i 0) id mem junk).1 = some fat →
        fat = fatOf (w.media i) := by
  have coherent : Coherent w := by
    apply run.invariant
    · rintro w rfl
      exact coherent_booted
    · rintro w a w' coherent careful rfl
      exact coherent_step coherent careful
  exact ⟨readBPB_live coherent live junk, fun mem => (fatCacheGet_live coherent live mem junk).1⟩

/-- A disk named for its medium, and a medium of one byte. -/
def disk (name : String) : DevmgrGeneric := ⟨304, 0, name⟩

def filled (b : Byte) : Medium := fun _ _ => b

/-- A disk whose table was cached is replaced: the second gets its own boot sector and table. -/
theorem caches_follow_devices_replaced : ∃ w i, Reachable hotplug Careful w ∧
    liveSlot w.reg 0 = some i ∧ w.media i = filled 2 ∧ (w.fats 0).valid = true ∧
    (readBPB w 0 fun _ _ => 0).1 = filled 2 0 ∧
    ∀ fat, (fatCacheGet w (filled 2 0) 0 true fun _ _ => 0).1 = some fat →
      fat = fatOf (filled 2) := by
  have run : Reachable hotplug Careful ([.register (disk "hda") (some 1) (filled 1),
      .fatGet (filled 1 0) 0 true fun _ _ => 0, .remove 0,
      .register (disk "hdb") (some 2) (filled 2)].foldl perform booted) := by
    refine Reachable.follow (fun _ _ => rfl) _ (.start rfl) ⟨fun _ _ => ⟨nofun, nofun⟩,
      ⟨⟨0, by decide⟩, rfl, rfl⟩, trivial, fun i slot => ⟨nofun, fun k valid _ => ?_⟩, trivial⟩
    obtain rfl : i = ⟨0, by decide⟩ := (Option.some.inj slot).symm
    match k, valid with
    | 0, _ => decide
    | 1, valid => cases valid
    | 2, valid => cases valid
    | 3, valid => cases valid
  have both := caches_follow_devices run (i := ⟨0, by decide⟩) (show liveSlot _ 0 = _ from rfl)
    fun _ _ => 0
  exact ⟨_, _, run, rfl, rfl, rfl, both.1, both.2 true⟩

/-- A device is replaced: the boot sector is still the first one's. -/
theorem replaced_device_keeps_boot_sector : ∃ w i, Reachable hotplug (fun _ _ => True) w ∧
    liveSlot w.reg 0 = some i ∧ w.media i 0 = filled 2 0 ∧
    (readBPB w 0 fun _ _ => 0).1 = filled 1 0 ∧ filled 1 0 ≠ filled 2 0 := by
  have run : Reachable hotplug (fun _ _ => True) ([.register (disk "hda") (some 1) (filled 1),
      .readBpb 0 fun _ _ => 0, .remove 0, .register (disk "hdb") (some 2) (filled 2)].foldl
      perform booted) :=
    Reachable.follow (fun _ _ => rfl) _ (.start rfl) (along_true perform booted _)
  refine ⟨_, ⟨0, by decide⟩, run, rfl, rfl, rfl, fun same => ?_⟩
  exact absurd (congrFun same 0) (by decide)

end Contract

end IcsOs.Fat.DeviceCaches
