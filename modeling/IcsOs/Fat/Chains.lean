/- GID: IcsOs/Fat/Chains
   generality: I
   source: kernel/filesystem/fat12.c, kernel/filesystem/fat_chain.h
   digest: Allocating, linking and freeing clusters; the chains of files stay apart. -/

import Mathlib.Order.Interval.Finset.Nat
import IcsOs.Fat.Files
import IcsOs.Lib.LinkMap
import IcsOs.Lib.Runs

set_option autoImplicit false

namespace IcsOs.Fat.Chains

open Function List Finset
open Fat.Table Fat.Files Lib.LinkMap Lib.Runs

/-- Whether a file has the entry, and the words of its start cluster. -/
structure Entry where
  used : Bool
  stClust : Nat
  stClustMsw : Nat
  directory : Bool

/-- The table, the directory entries by number, and the directory each is in, none for the root. -/
structure Volume where
  fat : Nat → Byte
  entries : Nat → Entry
  parent : Nat → Option Nat

/-- The values of the table. -/
def links (bpb : Bpb) (fat : Nat → Byte) : Nat → Nat := obtainNextCluster (fatGetFatType bpb) fat

/-- The first free cluster. -/
def obtainfreecluster (bpb : Bpb) (fat : Nat → Byte) : Option Nat :=
  (List.range' 2 (fatClusterCount bpb)).find? fun i => links bpb fat i == 0

inductive ChainStep
  | ok
  | eoc
  | corrupt
  | loop

def fatChainStep (next eoc maxent steps : Nat) : ChainStep :=
  let maxent := if maxent = 0 then 1 else maxent
  if eoc ≤ next then .eoc
  else if maxent < next then .corrupt
  else if maxent < steps then .loop
  else .ok

/-- `get_sector_fromcluster`, up to its bound on the steps. -/
def walkChain (bpb : Bpb) (fat : Nat → Byte) (maxent : Nat) : Nat → Nat → Nat → Option Nat
  | 0, _, _ => none
  | rounds + 1, cluster, ret =>
    let next := links bpb fat cluster
    match fatChainStep next (eoc bpb) maxent (ret + 1) with
    | .eoc => some cluster
    | .ok => walkChain bpb fat maxent rounds next (ret + 1)
    | .corrupt => none
    | .loop => none

/-- The last cluster; 0 for no chain or a broken one. -/
def lastCluster (bpb : Bpb) (fat : Nat → Byte) (cluster : Nat) : Nat :=
  let maxent := if fatClusterCount bpb = 0 then 2 else fatClusterCount bpb + 1
  if cluster = 0 then 0 else (walkChain bpb fat maxent (maxent + 1) cluster 0).getD 0

def fatWrite (bpb : Bpb) (fat : Nat → Byte) (cluster value : Nat) : Nat → Byte :=
  fatWriteCluster (fatGetFatType bpb) fat cluster value

/-- The table with its last cluster, unless the volume is full, and the low word of the start, which
a first cluster sets at once. -/
def addLoop (bpb : Bpb) : Nat → (Nat → Byte) → Nat → Nat → Option ((Nat → Byte) × Nat) × Nat
  | 0, fat, cur, stClust => (some (fat, cur), stClust)
  | n + 1, fat, cur, stClust =>
    match obtainfreecluster bpb fat with
    | none => (none, stClust)
    | some fc =>
      let fat' := fatWrite bpb fat fc 1
      if cur = 0 then addLoop bpb n fat' fc (fc % 65536)
      else addLoop bpb n (fatWrite bpb fat' cur fc) fc stClust

def fatAddsectors (bpb : Bpb) (vol : Volume) (f sectors : Nat) : Volume :=
  let desc := vol.entries f
  let (table, stClust) :=
    addLoop bpb sectors vol.fat (lastCluster bpb vol.fat desc.stClust) desc.stClust
  let entries := Function.update vol.entries f { desc with stClust := stClust }
  match table with
  | none => { vol with entries := entries }
  | some (fat, cur) => { vol with fat := fatWrite bpb fat cur (eoc bpb), entries := entries }

def freeLoop (bpb : Bpb) : Nat → Nat → (Nat → Byte) → Nat → Byte
  | 0, _, fat => fat
  | guard_ + 1, cluster, fat =>
    if cluster ≠ 0 ∧ cluster < eoc bpb then
      let next := if cluster < fatSectorsPerFat bpb * 256 then links bpb fat cluster else 0
      freeLoop bpb guard_ next (fatWrite bpb fat cluster 0)
    else fat

def fatFreeClusterChain (bpb : Bpb) (desc : Entry) (fat : Nat → Byte) : Nat → Byte :=
  freeLoop bpb 0x10000 desc.stClust fat

def fatDeletefile (bpb : Bpb) (vol : Volume) (f : Nat) : Volume :=
  let desc := vol.entries f
  { vol with
    fat := if desc.stClust ≠ 0 then fatFreeClusterChain bpb desc vol.fat else vol.fat
    entries := Function.update vol.entries f { desc with used := false } }

def fatRewritefile (bpb : Bpb) (vol : Volume) (f : Nat) : Volume :=
  let desc := vol.entries f
  { vol with
    fat := if desc.stClust ≠ 0 then fatFreeClusterChain bpb desc vol.fat else vol.fat
    entries := Function.update vol.entries f { desc with stClust := 0 } }

/-- Of a file, with the entry found in the parent directory, which is made larger if there is none.
-/
def fatCreatefile (bpb : Bpb) (vol : Volume) (parent : Nat) (found : Option Nat) : Volume :=
  match found with
  | none => fatAddsectors bpb vol parent 1
  | some i =>
    let desc := { vol.entries i with used := true, stClust := 0, directory := false }
    { vol with entries := Function.update vol.entries i desc }

section

variable {bpb : Bpb} {fat : Nat → Byte} {c value : Nat}

/-- The clusters of a volume with the marks of the table. -/
def clusters (bpb : Bpb) : Cells Nat where
  cells := { c | 2 ≤ c ∧ c < fatClusterCount bpb + 2 }
  ends := { c | eoc bpb ≤ c }
  free := 0
  free_cell := fun inside => absurd inside.1 (by decide)
  free_end := by
    intro isEnd
    unfold eoc fatGetEoc at isEnd
    revert isEnd
    cases fatGetFatType bpb <;> decide

theorem eoc_bound (bpb : Bpb) : 1 < eoc bpb ∧ eoc bpb < entryBound (fatGetFatType bpb) := by
  unfold eoc fatGetEoc entryBound
  cases fatGetFatType bpb <;> decide

theorem links_write (bpb : Bpb) (fat : Nat → Byte) (cell : 2 ≤ c)
    (fits : value < entryBound (fatGetFatType bpb)) :
    links bpb (fatWrite bpb fat c value) = update (links bpb fat) c value := by
  funext x
  unfold links fatWrite
  by_cases same : x = c
  · subst same
    rw [update_self, obtainNextCluster_write _ fat cell fits]
  · rw [update_of_ne same, obtainNextCluster_write_ne _ fat value same]

theorem obtainfreecluster_some (found : obtainfreecluster bpb fat = some c) :
    c ∈ (clusters bpb).cells ∧ links bpb fat c = 0 := by
  have isFree := find?_some found
  have inside := mem_range'_1.1 (mem_of_find?_eq_some found)
  exact ⟨⟨inside.1, by omega⟩, beq_iff_eq.1 isFree⟩

theorem obtainfreecluster_none (full : obtainfreecluster bpb fat = none)
    (cell : c ∈ (clusters bpb).cells) : links bpb fat c ≠ 0 := by
  have used := find?_eq_none.1 full c (mem_range'_1.2 ⟨cell.1, by
    have high : c < fatClusterCount bpb + 2 := cell.2
    omega⟩)
  intro isFree
  exact used (beq_iff_eq.2 isFree)

/-- A chain has at most as many clusters as the volume. -/
theorem length_le_count {l : List Nat} (owned : Owned (clusters bpb) (links bpb fat) l) :
    l.length ≤ fatClusterCount bpb := by
  have inside : l.toFinset ⊆ Finset.Ico 2 (fatClusterCount bpb + 2) := by
    intro c member
    exact mem_Ico.2 (owned.inside c (mem_toFinset.1 member))
  have card := card_le_card inside
  rw [toFinset_card_of_nodup owned.nodup, Nat.card_Ico] at card
  omega

theorem walkChain_spec (bpb : Bpb) (fat : Nat → Byte) {maxent : Nat}
    (large : fatClusterCount bpb + 1 ≤ maxent) (numbers : fatClusterCount bpb + 2 ≤ eoc bpb) :
    ∀ (l : List Nat) (c rounds ret : Nat), Owned (clusters bpb) (links bpb fat) (c :: l) →
      ret + l.length < maxent → l.length < rounds →
      walkChain bpb fat maxent rounds c ret = (c :: l).getLast? := by
  intro l
  induction l with
  | nil =>
    intro c rounds ret owned _ enough
    obtain ⟨rounds, rfl⟩ : ∃ r, rounds = r + 1 := ⟨rounds - 1, by omega⟩
    have ends : eoc bpb ≤ links bpb fat c := owned.last c rfl
    unfold walkChain fatChainStep
    dsimp only
    rw [if_pos ends]
    rfl
  | cons b l step =>
    intro c rounds ret owned bound enough
    rw [length_cons] at bound enough
    obtain ⟨rounds, rfl⟩ : ∃ r, rounds = r + 1 := ⟨rounds - 1, by omega⟩
    have link : links bpb fat c = b := (isChain_cons_cons.1 owned.links).1
    obtain ⟨low, high⟩ := owned.inside b (by simp)
    have bounded : (if maxent = 0 then 1 else maxent) = maxent := if_neg (by omega)
    unfold walkChain fatChainStep
    dsimp only
    rw [link, bounded, if_neg (by omega), if_neg (by omega), if_neg (by omega)]
    rw [step b rounds (ret + 1) owned.tail (by omega) (by omega), getLast?_cons_cons]

theorem lastCluster_spec {l : List Nat} (numbers : fatClusterCount bpb + 2 ≤ eoc bpb)
    (owned : Owned (clusters bpb) (links bpb fat) l) :
    lastCluster bpb fat (l.head?.getD 0) = l.getLast?.getD 0 := by
  cases l with
  | nil => rfl
  | cons c l =>
    obtain ⟨low, high⟩ := owned.inside c (by simp)
    have long := length_le_count owned
    rw [length_cons] at long
    have start : (c :: l).head?.getD 0 = c := rfl
    rw [start]
    unfold lastCluster
    rw [if_neg (by omega), if_neg (by omega),
      walkChain_spec bpb fat (Nat.le_refl _) numbers l c _ 0 owned (by omega) (by omega)]

variable {base : Nat → Nat} {fat' : Nat → Byte} {l L : List Nat} {n cur st st' fc : Nat}

/-- A chain made longer in a copy: no end mark yet; the new clusters were free. -/
structure Growing (bpb : Bpb) (base : Nat → Nat) (l L : List Nat) (fat : Nat → Byte) : Prop where
  linked : L.IsChain fun a b => links bpb fat a = b
  others : ∀ c, c ∉ L → links bpb fat c = base c
  taken : ∀ c ∈ L, links bpb fat c ≠ 0
  fresh : ∀ c ∈ L, c ∈ l ∨ base c = 0
  kept : ∀ c ∈ l, c ∈ L
  inside : ∀ c ∈ L, c ∈ (clusters bpb).cells
  nodup : L.Nodup

theorem Growing.refl (owned : Owned (clusters bpb) (links bpb fat) l) :
    Growing bpb (links bpb fat) l l fat where
  __ := owned
  linked := owned.links
  others := fun _ _ => rfl
  taken := fun _ member => owned.next_ne_free member
  fresh := fun _ member => Or.inl member
  kept := fun _ member => member

/-- A cluster is allocated for the chain that ends at `cur`. -/
def linkFree (bpb : Bpb) (fat : Nat → Byte) (cur fc : Nat) : Nat → Byte :=
  if cur = 0 then fatWrite bpb fat fc 1 else fatWrite bpb (fatWrite bpb fat fc 1) cur fc

theorem links_linkFree (fat : Nat → Byte) (cur : Nat)
    (numbers : fatClusterCount bpb + 2 ≤ eoc bpb) (cell : fc ∈ (clusters bpb).cells)
    (before : cur = 0 ∨ 2 ≤ cur) :
    links bpb (linkFree bpb fat cur fc) = if cur = 0 then update (links bpb fat) fc 1
      else update (update (links bpb fat) fc 1) cur fc := by
  obtain ⟨low, high⟩ := cell
  obtain ⟨one, bound⟩ := eoc_bound bpb
  unfold linkFree
  split_ifs with empty
  · rw [links_write bpb fat low (by omega)]
  · rw [links_write bpb _ (by omega) (by omega), links_write bpb fat low (by omega)]

/-- One round of the loop appends the first free cluster. -/
theorem Growing.step (numbers : fatClusterCount bpb + 2 ≤ eoc bpb)
    (growing : Growing bpb base l L fat) (found : obtainfreecluster bpb fat = some fc) :
    Growing bpb base l (L ++ [fc]) (linkFree bpb fat (L.getLast?.getD 0) fc) := by
  obtain ⟨cell, isFree⟩ := obtainfreecluster_some found
  obtain ⟨low, -⟩ := cell
  have new : fc ∉ L := fun member => growing.taken fc member isFree
  have member : ∀ c ∈ L ++ [fc], c ∈ L ∨ c = fc := fun c isIn => by simpa using isIn
  have frame : (∀ c ∈ L, c ∈ L ++ [fc]) ∧ (∀ c ∈ L ++ [fc], c ∈ l ∨ base c = 0) ∧
      (∀ c ∈ L ++ [fc], c ∈ (clusters bpb).cells) ∧ (L ++ [fc]).Nodup := by
    refine ⟨fun c isIn => mem_append_left _ isIn, ?_, ?_, ?_⟩
    · intro c isIn
      rcases member c isIn with old | rfl
      · exact growing.fresh c old
      · exact Or.inr ((growing.others c new).symm.trans isFree)
    · intro c isIn
      rcases member c isIn with old | rfl
      · exact growing.inside c old
      · exact (obtainfreecluster_some found).1
    · exact nodup_append.2 ⟨growing.nodup, nodup_singleton fc, by
        intro a old b single
        rw [List.mem_singleton.1 single]
        rintro rfl
        exact new old⟩
  obtain ⟨grown, fresh, inside, nodup⟩ := frame
  cases isLast : L.getLast? with
  | none =>
    obtain rfl := getLast?_eq_none_iff.1 isLast
    have table := links_linkFree fat 0 numbers (obtainfreecluster_some found).1 (Or.inl rfl)
    rw [if_pos rfl] at table
    refine ⟨.singleton fc, ?_, ?_, fresh, fun c isIn => grown c (growing.kept c isIn), inside,
      nodup⟩
    · intro c outside
      rw [Option.getD_none, table, update_of_ne (by simpa using outside)]
      exact growing.others c (not_mem_nil)
    · intro c isIn
      obtain rfl : c = fc := by simpa using isIn
      rw [Option.getD_none, table, update_self]
      decide
  | some last =>
    have lastIn : last ∈ L := mem_of_getLast? isLast
    obtain ⟨lastLow, -⟩ := growing.inside last lastIn
    have different : fc ≠ last := fun same => new (same ▸ lastIn)
    have table := links_linkFree fat last numbers (obtainfreecluster_some found).1 (Or.inr lastLow)
    rw [if_neg (by omega)] at table
    have inner : ∀ c, c ≠ last → c ≠ fc →
        links bpb (linkFree bpb fat last fc) c = links bpb fat c := by
      intro c notLast notNew
      rw [table, update_of_ne notLast, update_of_ne notNew]
    rw [Option.getD_some]
    refine ⟨?_, ?_, ?_, fresh, fun c isIn => grown c (growing.kept c isIn), inside, nodup⟩
    · refine isChain_append.2 ⟨?_, .singleton fc, ?_⟩
      · refine links_congr growing.nodup ?_ growing.linked
        intro c isIn notLast
        refine inner c ?_ (fun same => new (same ▸ isIn))
        rintro rfl
        exact notLast isLast
      · intro x atEnd y head
        rw [isLast] at atEnd
        cases atEnd
        cases head
        rw [table, update_self]
    · intro c outside
      rw [inner c]
      · exact growing.others c fun isIn => outside (grown c isIn)
      · rintro rfl
        exact outside (grown c lastIn)
      · rintro rfl
        exact outside (by simp)
    · intro c isIn
      by_cases atLast : c = last
      · rw [atLast, table, update_self]
        omega
      by_cases atNew : c = fc
      · rw [atNew, table, update_of_ne different, update_self]
        decide
      rw [inner c atLast atNew]
      rcases member c isIn with old | isNew
      · exact growing.taken c old
      · exact absurd isNew atNew

/-- One round of the loop of `fat_addsectors`. -/
theorem addLoop_succ (bpb : Bpb) (n : Nat) (fat : Nat → Byte) (cur st : Nat)
    (found : obtainfreecluster bpb fat = some fc) :
    addLoop bpb (n + 1) fat cur st =
      addLoop bpb n (linkFree bpb fat cur fc) fc (if cur = 0 then fc % 65536 else st) := by
  unfold linkFree
  rw [addLoop, found]
  split_ifs
  · rfl
  · rfl

theorem getLast_append (L : List Nat) (fc : Nat) : (L ++ [fc]).getLast?.getD 0 = fc := by simp

theorem head_append (growing : Growing bpb base l L fat) (small : L = [] → fc < 65536) :
    (if L.getLast?.getD 0 = 0 then fc % 65536 else L.head?.getD 0) = (L ++ [fc]).head?.getD 0 := by
  cases L with
  | nil =>
    have empty : ([] : List Nat).getLast?.getD 0 = 0 := rfl
    rw [if_pos empty, Nat.mod_eq_of_lt (small rfl)]
    rfl
  | cons c rest =>
    have some_ : (c :: rest).getLast? = some ((c :: rest).getLast (by simp)) :=
      getLast?_eq_getLast_of_ne_nil (by simp)
    have low := (growing.inside _ (getLast_mem (by simp : c :: rest ≠ []))).1
    rw [some_, Option.getD_some, if_neg (by omega)]
    rfl

/-- Success leaves a longer chain; failure keeps the start of a file with clusters. -/
theorem addLoop_spec (numbers : fatClusterCount bpb + 2 ≤ eoc bpb) (n : Nat) :
    ∀ (L : List Nat) (fat : Nat → Byte), Growing bpb base l L fat →
      (L = [] → ∀ fc, obtainfreecluster bpb fat = some fc → fc < 65536) → ∀ table,
      addLoop bpb n fat (L.getLast?.getD 0) (L.head?.getD 0) = (table, st) →
      (∀ fat' cur, table = some (fat', cur) →
        ∃ L', Growing bpb base l L' fat' ∧ cur = L'.getLast?.getD 0 ∧ st = L'.head?.getD 0) ∧
      (table = none → L ≠ [] → st = L.head?.getD 0) := by
  induction n with
  | zero =>
    intro L fat growing _ table done
    cases done
    refine ⟨fun fat' cur same => ?_, nofun⟩
    cases same
    exact ⟨L, growing, rfl, rfl⟩
  | succ n step =>
    intro L fat growing small table done
    cases found : obtainfreecluster bpb fat with
    | none =>
      rw [addLoop, found] at done
      cases done
      exact ⟨nofun, fun _ _ => rfl⟩
    | some fc =>
      rw [addLoop_succ bpb n fat _ _ found,
        head_append growing (fun empty => small empty fc found)] at done
      have after := step (L ++ [fc]) _ (growing.step numbers found)
        (fun empty => absurd empty (by simp)) table (by rw [getLast_append]; exact done)
      refine ⟨after.1, fun failed some_ => (after.2 failed (by simp)).trans ?_⟩
      cases L with
      | nil => exact absurd rfl some_
      | cons c rest => rfl

def freeClusters (bpb : Bpb) (fat : Nat → Byte) : Finset Nat :=
  (Finset.Ico 2 (fatClusterCount bpb + 2)).filter fun c => links bpb fat c = 0

theorem freeClusters_step (numbers : fatClusterCount bpb + 2 ≤ eoc bpb)
    (growing : Growing bpb base l L fat) (found : obtainfreecluster bpb fat = some fc) :
    (freeClusters bpb (linkFree bpb fat (L.getLast?.getD 0) fc)).card + 1 =
      (freeClusters bpb fat).card := by
  obtain ⟨cell, isFree⟩ := obtainfreecluster_some found
  have after := growing.step numbers found
  have fresh : fc ∈ freeClusters bpb fat := Finset.mem_filter.2 ⟨mem_Ico.2 cell, isFree⟩
  have same : freeClusters bpb (linkFree bpb fat (L.getLast?.getD 0) fc) =
      (freeClusters bpb fat).erase fc := by
    ext c
    unfold freeClusters
    rw [mem_erase, Finset.mem_filter, Finset.mem_filter]
    by_cases inside : c ∈ L ++ [fc]
    · have used := after.taken c inside
      have gone : c = fc ∨ links bpb fat c ≠ 0 := by
        rcases mem_append.1 inside with old | new
        · exact Or.inr (growing.taken c old)
        · exact Or.inl (List.mem_singleton.1 new)
      tauto
    · have outside : c ∉ L ∧ c ≠ fc := by simpa using inside
      rw [after.others c inside, growing.others c outside.1]
      tauto
  rw [same]
  exact card_erase_add_one fresh

theorem addLoop_room (numbers : fatClusterCount bpb + 2 ≤ eoc bpb) (n : Nat) :
    ∀ (L : List Nat) (fat : Nat → Byte) (st : Nat), Growing bpb base l L fat →
      n ≤ (freeClusters bpb fat).card →
      (addLoop bpb n fat (L.getLast?.getD 0) st).1 ≠ none := by
  induction n with
  | zero =>
    intro L fat st _ _ failed
    cases failed
  | succ n step =>
    intro L fat st growing room
    cases found : obtainfreecluster bpb fat with
    | none =>
      obtain ⟨c, isIn⟩ := card_pos.1 (show 0 < (freeClusters bpb fat).card by omega)
      obtain ⟨inside, isFree⟩ := Finset.mem_filter.1 isIn
      exact absurd isFree (obtainfreecluster_none found (mem_Ico.1 inside))
    | some fc =>
      have fewer := freeClusters_step numbers growing found
      have more := step (L ++ [fc]) _ (if L.getLast?.getD 0 = 0 then fc % 65536 else st)
        (growing.step numbers found) (by omega)
      rw [getLast_append] at more
      rw [addLoop_succ bpb n fat _ _ found]
      exact more

/-- With its end mark the longer chain is one of the table. -/
theorem Growing.finish (growing : Growing bpb base l L fat) :
    Owned (clusters bpb) (links bpb (fatWrite bpb fat (L.getLast?.getD 0) (eoc bpb))) L ∧
      ∀ c, c ∉ L → links bpb (fatWrite bpb fat (L.getLast?.getD 0) (eoc bpb)) c = base c := by
  cases isLast : L.getLast? with
  | none =>
    obtain rfl := getLast?_eq_none_iff.1 isLast
    exact ⟨.nil _ _, growing.others⟩
  | some last =>
    have lastIn : last ∈ L := mem_of_getLast? isLast
    obtain ⟨lastLow, -⟩ := growing.inside last lastIn
    rw [Option.getD_some, links_write bpb fat lastLow (eoc_bound bpb).2]
    refine ⟨⟨?_, ?_, growing.inside, growing.nodup⟩, ?_⟩
    · refine links_congr growing.nodup ?_ growing.linked
      intro c _ notLast
      refine update_of_ne ?_ _ _
      rintro rfl
      exact notLast isLast
    · intro c atEnd
      rw [isLast] at atEnd
      cases atEnd
      rw [update_self]
      exact Nat.le_refl _
    · intro c outside
      rw [update_of_ne fun same : c = last => outside (same ▸ lastIn)]
      exact growing.others c outside

end

section Release

variable {bpb : Bpb}

/-- The loop ends at the mark of a free cluster and at an end mark. -/
theorem freeLoop_stop (fat : Nat → Byte) (rounds : Nat) {start : Nat}
    (over_ : start = 0 ∨ eoc bpb ≤ start) : freeLoop bpb rounds start fat = fat := by
  cases rounds with
  | zero => rfl
  | succ rounds =>
    unfold freeLoop
    rw [if_neg (by omega)]

theorem freeLoop_spec (numbers : fatClusterCount bpb + 2 ≤ eoc bpb) (l : List Nat) :
    ∀ (fat : Nat → Byte) (rounds : Nat),
      Owned (clusters bpb) (links bpb fat) l → l.length ≤ rounds →
      (∀ c ∈ l.dropLast, c < fatSectorsPerFat bpb * 256) →
      ∀ x, links bpb (freeLoop bpb rounds (l.head?.getD 0) fat) x =
        if x ∈ l then 0 else links bpb fat x := by
  induction l with
  | nil =>
    intro fat rounds _ _ _ x
    have nothing : freeLoop bpb rounds (([] : List Nat).head?.getD 0) fat = fat :=
      freeLoop_stop fat rounds (Or.inl rfl)
    rw [nothing, if_neg (not_mem_nil)]
  | cons c l step =>
    intro fat rounds owned enough followed x
    rw [length_cons] at enough
    obtain ⟨rounds, rfl⟩ : ∃ r, rounds = r + 1 := ⟨rounds - 1, by omega⟩
    obtain ⟨low, high⟩ := owned.inside c (by simp)
    have wrote : links bpb (fatWrite bpb fat c 0) = update (links bpb fat) c 0 :=
      links_write bpb fat low (by have bounds := eoc_bound bpb; omega)
    have apart : c ∉ l := (nodup_cons.1 owned.nodup).1
    have rest : Owned (clusters bpb) (links bpb (fatWrite bpb fat c 0)) l := by
      refine owned.tail.congr fun d member => ?_
      rw [wrote, update_of_ne fun same : d = c => apart (same ▸ member)]
    have head : (c :: l).head?.getD 0 = c := rfl
    -- the next round starts at the next cluster, or where the loop ends
    have goesOn : ∀ y, links bpb (freeLoop bpb rounds
          (if c < fatSectorsPerFat bpb * 256 then links bpb fat c else 0)
          (fatWrite bpb fat c 0)) y =
        if y ∈ l then 0 else links bpb (fatWrite bpb fat c 0) y := by
      intro y
      cases l with
      | nil =>
        have ends : eoc bpb ≤ links bpb fat c := owned.last c rfl
        rw [freeLoop_stop _ rounds (by split_ifs <;> omega), if_neg (not_mem_nil)]
      | cons b l =>
        have link : links bpb fat c = b := (isChain_cons_cons.1 owned.links).1
        have follow : c < fatSectorsPerFat bpb * 256 := followed c (by simp)
        rw [if_pos follow, link]
        refine step _ rounds rest (by omega) (fun d member => followed d ?_) y
        exact List.mem_cons_of_mem c member
    rw [head]
    unfold freeLoop
    rw [if_pos (by omega)]
    rw [goesOn x, wrote]
    by_cases here : x = c
    · subst here
      rw [update_self, ite_self, if_pos List.mem_cons_self]
    · rw [update_of_ne here]
      have same : x ∈ c :: l ↔ x ∈ l := by simp [here]
      simp only [same]

end Release

/-- Files and directories by their entries, and the root directory. -/
abbrev Owner := Option Nat

/-- The start cluster of an entry in use. -/
def Entry.start (desc : Entry) : Nat :=
  if desc.used then desc.stClustMsw * 65536 + desc.stClust else 0

def startOf (root : Nat) (vol : Volume) : Owner → Nat
  | none => root
  | some i => (vol.entries i).start

/-- Chains are disjoint, in range and end in an end mark, other clusters are free, and a file in use
is in a directory in use. -/
structure Sound (bpb : Bpb) (root : Nat) (vol : Volume) (chains : Owner → List Nat) : Prop where
  forest : Forest (clusters bpb) (links bpb vol.fat) chains
  start : ∀ o, startOf root vol o = (chains o).head?.getD 0
  rooted : ∀ i, (vol.entries i).used → ∀ p, vol.parent i = some p →
    (vol.entries p).used ∧ (vol.entries p).directory

def WellFormed (bpb : Bpb) (root : Nat) (vol : Volume) : Prop :=
  ∃ chains, Sound bpb root vol chains

section Operations

variable {bpb : Bpb} {root f : Nat} {vol : Volume} {chains : Owner → List Nat} {l : List Nat}
  {fat : Nat → Byte} {desc : Entry}

section

variable (sound : Sound bpb root vol chains)
include sound

theorem Sound.change (owned : Owned (clusters bpb) (links bpb fat) l)
    (other : ∀ c, c ∉ chains (some f) → c ∉ l → links bpb fat c = links bpb vol.fat c)
    (taken : ∀ c ∈ l, c ∈ chains (some f) ∨ links bpb vol.fat c = 0)
    (given : ∀ c ∈ chains (some f), c ∉ l → links bpb fat c = 0)
    (start : desc.start = l.head?.getD 0)
    (rooted : ∀ i, (update vol.entries f desc i).used → ∀ p, vol.parent i = some p →
      (update vol.entries f desc p).used ∧ (update vol.entries f desc p).directory) :
    WellFormed bpb root { vol with fat := fat, entries := update vol.entries f desc } := by
  refine ⟨update chains (some f) l, sound.forest.replace (some f) owned other taken given,
    ?_, rooted⟩
  intro o
  by_cases same : o = some f
  · subst same
    unfold startOf
    dsimp only
    rw [update_self, update_self]
    exact start
  · rw [update_of_ne same, ← sound.start o]
    cases o with
    | none => rfl
    | some i =>
      have different : i ≠ f := fun equal => same (congrArg some equal)
      unfold startOf
      dsimp only
      rw [update_of_ne different]

theorem Sound.rooted_update
    (before : desc.used → ∀ p, vol.parent f = some p →
      p ≠ f ∧ (vol.entries p).used ∧ (vol.entries p).directory)
    (empty : ∀ i, (vol.entries i).used → vol.parent i ≠ some f) :
    ∀ i, (update vol.entries f desc i).used → ∀ p, vol.parent i = some p →
      (update vol.entries f desc p).used ∧ (update vol.entries f desc p).directory := by
  intro i used p parent
  by_cases here : i = f
  · subst here
    rw [update_self] at used
    obtain ⟨other, holds⟩ := before used p parent
    rwa [update_of_ne other]
  · rw [update_of_ne here] at used
    have there : p ≠ f := fun same => empty i used (same ▸ parent)
    rw [update_of_ne there]
    exact sound.rooted i used p parent

/-- An entry keeps its place if it stays in use as what it was. -/
theorem Sound.rooted_same (used : desc.used = (vol.entries f).used)
    (directory : desc.directory = (vol.entries f).directory) :
    ∀ i, (update vol.entries f desc i).used → ∀ p, vol.parent i = some p →
      (update vol.entries f desc p).used ∧ (update vol.entries f desc p).directory := by
  have same : ∀ i, (update vol.entries f desc i).used = (vol.entries i).used ∧
      (update vol.entries f desc i).directory = (vol.entries i).directory := by
    intro i
    by_cases here : i = f
    · subst here
      rw [update_self]
      exact ⟨used, directory⟩
    · rw [update_of_ne here]
      exact ⟨rfl, rfl⟩
  intro i inUse p parent
  rw [(same i).1] at inUse
  rw [(same p).1, (same p).2]
  exact sound.rooted i inUse p parent

end

/-- Only the empty chain starts with the mark of a free cluster. -/
theorem eq_nil_of_head (owned : Owned (clusters bpb) (links bpb fat) l)
    (zero : l.head?.getD 0 = 0) : l = [] := by
  cases l with
  | nil => rfl
  | cons c l =>
    have low := (owned.inside c (by simp)).1
    have isZero : c = 0 := zero
    omega

/-- A file that starts in the low word can grow; an empty one if the first free cluster fits it and
there are enough, or none. -/
def CanAdd (bpb : Bpb) (vol : Volume) (f sectors : Nat) : Prop :=
  (vol.entries f).stClustMsw = 0 ∧ ((vol.entries f).stClust = 0 →
    (∀ fc, obtainfreecluster bpb vol.fat = some fc → fc < 65536) ∧
    (sectors ≤ (freeClusters bpb vol.fat).card ∨ obtainfreecluster bpb vol.fat = none))

/-- It starts in the low word, has at most 65536 clusters, and all but the last are below the bound
of `fat_free_cluster_chain`. -/
def CanFree (bpb : Bpb) (vol : Volume) (f : Nat) : Prop :=
  (vol.entries f).stClustMsw = 0 ∧ ∀ l, Owned (clusters bpb) (links bpb vol.fat) l →
    l.head?.getD 0 = (vol.entries f).stClust →
    l.length ≤ 0x10000 ∧ ∀ c ∈ l.dropLast, c < fatSectorsPerFat bpb * 256

theorem Sound.stClust_eq (sound : Sound bpb root vol chains) (used : (vol.entries f).used)
    (low : (vol.entries f).stClustMsw = 0) :
    (vol.entries f).stClust = (chains (some f)).head?.getD 0 := by
  have start : (vol.entries f).start = (chains (some f)).head?.getD 0 := sound.start (some f)
  unfold Entry.start at start
  rw [if_pos used, low, Nat.zero_mul, Nat.zero_add] at start
  exact start

section

variable (numbers : fatClusterCount bpb + 2 ≤ eoc bpb)
include numbers

theorem addLoop_refused {sectors st : Nat} (owned : Owned (clusters bpb) (links bpb vol.fat) l)
    (start : (vol.entries f).stClust = l.head?.getD 0) (can : CanAdd bpb vol f sectors)
    (failed : addLoop bpb sectors vol.fat (l.getLast?.getD 0) (l.head?.getD 0) = (none, st)) :
    st = (vol.entries f).stClust := by
  rw [start]
  by_cases empty : l = []
  · subst empty
    obtain ⟨-, room | full⟩ := can.2 start
    · have success := addLoop_room numbers sectors [] vol.fat (([] : List Nat).head?.getD 0)
        (.refl owned) room
      rw [failed] at success
      exact absurd rfl success
    cases sectors with
    | zero => cases failed
    | succ n =>
      rw [addLoop, full] at failed
      cases failed
      rfl
  · exact (addLoop_spec numbers sectors l vol.fat (.refl owned) (fun none => absurd none empty) _
      failed).2 rfl empty

theorem wellFormed_addsectors {sectors : Nat} (sound : Sound bpb root vol chains)
    (used : (vol.entries f).used) (can : CanAdd bpb vol f sectors) :
    WellFormed bpb root (fatAddsectors bpb vol f sectors) := by
  have owned := sound.forest.owned (some f)
  have start := sound.stClust_eq used can.1
  unfold fatAddsectors
  dsimp only
  rw [start, lastCluster_spec numbers owned]
  rcases result : addLoop bpb sectors vol.fat ((chains (some f)).getLast?.getD 0)
      ((chains (some f)).head?.getD 0) with ⟨table, st⟩
  cases table with
  | none =>
    have same := addLoop_refused numbers owned start can result
    have entry : { vol.entries f with stClust := st } = vol.entries f := by rw [same]
    rw [entry, update_eq_self]
    exact ⟨chains, sound⟩
  | some table =>
    obtain ⟨fat', cur⟩ := table
    obtain ⟨L, growing, isLast, isFirst⟩ := (addLoop_spec numbers sectors _ _ (.refl owned)
      (fun empty => (can.2 (by rw [start, empty]; rfl)).1) _ result).1 fat' cur rfl
    obtain ⟨ownedNew, others⟩ := growing.finish
    rw [isLast]
    refine sound.change ownedNew (fun c _ outside => others c outside) growing.fresh
      (fun c old gone => absurd (growing.kept c old) gone) ?_ (sound.rooted_same rfl rfl)
    unfold Entry.start
    rw [if_pos used, can.1, Nat.zero_mul, Nat.zero_add]
    exact isFirst

theorem freed_links (sound : Sound bpb root vol chains) (used : (vol.entries f).used)
    (can : CanFree bpb vol f) (x : Nat) :
    links bpb (if (vol.entries f).stClust ≠ 0 then fatFreeClusterChain bpb (vol.entries f) vol.fat
        else vol.fat) x =
      if x ∈ chains (some f) then 0 else links bpb vol.fat x := by
  have owned := sound.forest.owned (some f)
  have start := sound.stClust_eq used can.1
  obtain ⟨short, followed⟩ := can.2 _ owned start.symm
  by_cases empty : (vol.entries f).stClust = 0
  · rw [if_neg (not_not.2 empty), eq_nil_of_head owned (start.symm.trans empty),
      if_neg (not_mem_nil)]
  rw [if_pos empty]
  unfold fatFreeClusterChain
  rw [start]
  exact freeLoop_spec numbers _ vol.fat _ owned short followed x

theorem wellFormed_freed (sound : Sound bpb root vol chains) (used : (vol.entries f).used)
    (can : CanFree bpb vol f) (start : desc.start = 0)
    (rooted : ∀ i, (update vol.entries f desc i).used → ∀ p, vol.parent i = some p →
      (update vol.entries f desc p).used ∧ (update vol.entries f desc p).directory) :
    WellFormed bpb root { vol with
        fat := if (vol.entries f).stClust ≠ 0 then
            fatFreeClusterChain bpb (vol.entries f) vol.fat else vol.fat
        entries := update vol.entries f desc } := by
  refine sound.change (.nil _ _) ?_ (by simp) ?_ start rooted
  · intro c old _
    rw [freed_links numbers sound used can, if_neg old]
  · intro c old _
    rw [freed_links numbers sound used can, if_pos old]

theorem wellFormed_rewritefile (sound : Sound bpb root vol chains) (used : (vol.entries f).used)
    (can : CanFree bpb vol f) : WellFormed bpb root (fatRewritefile bpb vol f) := by
  refine wellFormed_freed numbers sound used can ?_ (sound.rooted_same rfl rfl)
  unfold Entry.start
  dsimp only
  rw [if_pos used, can.1]

theorem wellFormed_deletefile (sound : Sound bpb root vol chains) (used : (vol.entries f).used)
    (can : CanFree bpb vol f) (empty : ∀ i, (vol.entries i).used → vol.parent i ≠ some f) :
    WellFormed bpb root (fatDeletefile bpb vol f) := by
  refine wellFormed_freed numbers sound used can rfl (sound.rooted_update ?_ empty)
  intro impossible
  cases impossible

end

/-- A file in an unused entry starts without clusters. -/
theorem Sound.unused (sound : Sound bpb root vol chains) (unused : (vol.entries f).used = false) :
    chains (some f) = [] := by
  refine eq_nil_of_head (sound.forest.owned (some f)) ?_
  rw [← sound.start (some f)]
  unfold startOf Entry.start
  dsimp only
  rw [unused]
  rfl

theorem wellFormed_createfile (parent : Nat) (sound : Sound bpb root vol chains)
    (unused : (vol.entries f).used = false)
    (within : ∀ p, vol.parent f = some p → (vol.entries p).used ∧ (vol.entries p).directory)
    (low : (vol.entries f).stClustMsw = 0) :
    WellFormed bpb root (fatCreatefile bpb vol parent (some f)) := by
  unfold fatCreatefile
  refine sound.change (.nil _ _) (fun _ _ _ => rfl) (by simp) ?_ ?_
    (sound.rooted_update (fun _ p parent => ⟨?_, within p parent⟩) ?_)
  · rw [sound.unused unused]
    simp
  · unfold Entry.start
    dsimp only
    rw [if_pos rfl, low]
    rfl
  · rintro rfl
    have inUse := (within p parent).1
    rw [unused] at inUse
    cases inUse
  · intro i used parent
    have inUse := (sound.rooted i used f parent).1
    rw [unused] at inUse
    cases inUse

end Operations

section Sequences

/-- Calls of the driver on a volume. -/
inductive Op
  | createfile (parent : Nat) (found : Option Nat)
  | addsectors (f sectors : Nat)
  | rewritefile (f : Nat)
  | deletefile (f : Nat)

def perform (bpb : Bpb) (vol : Volume) : Op → Volume
  | .createfile parent found => fatCreatefile bpb vol parent found
  | .addsectors f sectors => fatAddsectors bpb vol f sectors
  | .rewritefile f => fatRewritefile bpb vol f
  | .deletefile f => fatDeletefile bpb vol f

/-- A free entry of a directory, or none; an entry in use. -/
def Applies (vol : Volume) : Op → Prop
  | .createfile _ (some i) => (vol.entries i).used = false ∧
      ∀ p, vol.parent i = some p → (vol.entries p).used ∧ (vol.entries p).directory
  | .createfile _ none => True
  | .addsectors f _ => (vol.entries f).used
  | .rewritefile f => (vol.entries f).used
  | .deletefile f => (vol.entries f).used

/-- Sequences of calls on a volume that starts well formed. -/
def volumes (bpb : Bpb) (root : Nat) : System Volume Op where
  start := WellFormed bpb root
  step vol op vol' := Applies vol op ∧ vol' = perform bpb vol op

/-- Clusters within the 16-bit start, the volume and the bounds of the freeing loop; a full
directory with an entry of its own, no directory rewritten, and none deleted with its files. -/
def Manageable (bpb : Bpb) (vol : Volume) : Op → Prop
  | .createfile _ (some i) => (vol.entries i).stClustMsw = 0
  | .createfile parent none => (vol.entries parent).used ∧ CanAdd bpb vol parent 1
  | .addsectors f sectors => CanAdd bpb vol f sectors
  | .rewritefile f => (vol.entries f).directory = false ∧ CanFree bpb vol f
  | .deletefile f => (∀ i, (vol.entries i).used → vol.parent i ≠ some f) ∧ CanFree bpb vol f

variable {bpb : Bpb} {root : Nat} {vol : Volume}

theorem wellFormed_perform (geometry : Geometry bpb) {op : Op}
    (wellFormed : WellFormed bpb root vol)
    (manageable : Manageable bpb vol op) (applies : Applies vol op) :
    WellFormed bpb root (perform bpb vol op) := by
  obtain ⟨chains, sound⟩ := wellFormed
  have numbers := geometry.numbers
  cases op with
  | createfile parent found =>
    cases found with
    | none => exact wellFormed_addsectors numbers sound manageable.1 manageable.2
    | some i => exact wellFormed_createfile parent sound applies.1 applies.2 manageable
  | addsectors f sectors => exact wellFormed_addsectors numbers sound applies manageable
  | rewritefile f => exact wellFormed_rewritefile numbers sound applies manageable.2
  | deletefile f => exact wellFormed_deletefile numbers sound applies manageable.2 manageable.1

/-- A volume without files. -/
def blank : Volume where
  fat _ := 0
  entries _ := ⟨false, 0, 0, false⟩
  parent _ := none

theorem blank_links (c : Nat) : links smallBpb blank.fat c = 0 := by
  have type : fatGetFatType smallBpb = .fat12 := by decide
  unfold links
  rw [type]
  have zero : ∀ x, word blank.fat x = 0 := fun _ => rfl
  unfold obtainNextCluster
  rw [zero, ite_self]

theorem blank_wellFormed : WellFormed smallBpb 0 blank := by
  refine ⟨fun _ => [], ⟨fun _ => .nil _ _, by simp, fun c _ _ => blank_links c⟩, ?_, ?_⟩
  · rintro (_ | i)
    · rfl
    · rfl
  · intro i used
    cases used

/-- A first file without clusters. -/
def oneFile : Volume := fatCreatefile smallBpb blank 0 (some 0)

theorem oneFile_reachable (guard : Volume → Op → Prop)
    (allowed : guard blank (.createfile 0 (some 0))) :
    Reachable (volumes smallBpb 0) guard oneFile :=
  .step (a := .createfile 0 (some 0)) (.start blank_wellFormed) allowed
    ⟨⟨rfl, fun _ inside => nomatch inside⟩, rfl⟩

/-- Three clusters do not fit, but the empty file's entry keeps the first. -/
def overfull : Volume := fatAddsectors smallBpb oneFile 0 3

/-- A second file is then given the same cluster. -/
def shared : Volume :=
  fatAddsectors smallBpb (fatCreatefile smallBpb overfull 0 (some 1)) 1 1

end Sequences

end IcsOs.Fat.Chains
