/- GID: IcsOs/BlkCache/ReadPath
   generality: I
   source: kernel/iomgr/blkcache.c
   digest: Copy-outs return the logical content and filling a range never changes it. -/

import IcsOs.BlkCache.Requests

set_option autoImplicit false

namespace IcsOs.BlkCache.ReadPath

open Lib.WriteBack BlkCache.PageCache BlkCache.Requests

theorem memcpy_inside {dst src : Buf} {a b n k : Nat} (low : a ≤ k) (high : k < a + n) :
    memcpy dst a src b n k = src (b + (k - a)) := by
  simp [memcpy, low, high]

theorem memcpy_outside {dst src : Buf} {a b n k : Nat} (out : k < a ∨ a + n ≤ k) :
    memcpy dst a src b n k = dst k := by
  have miss : ¬(a ≤ k ∧ k < a + n) := by omega
  simp [memcpy, miss]

variable {i pg : Nat} {d : Int} {s t : State}

theorem pcSize_pos : 0 < pcSize := by decide

/-- The bytes of a chunk lie in the page of its first byte. -/
theorem chunk_div {pos left : Nat} (inside : i < chunkLen pos left) :
    (pos + i) / pcSize = pos / pcSize := by
  have fits := chunkLen_fits pos left
  have split := Nat.div_add_mod pos pcSize
  have whole : pos + i = pcSize * (pos / pcSize) + (pos % pcSize + i) := by omega
  have small : (pos % pcSize + i) / pcSize = 0 := Nat.div_eq_of_lt (by omega)
  rw [whole, Nat.mul_add_div pcSize_pos, small, Nat.add_zero]

theorem chunk_mod {pos left : Nat} (inside : i < chunkLen pos left) :
    (pos + i) % pcSize = pos % pcSize + i := by
  have fits := chunkLen_fits pos left
  have split := Nat.div_add_mod pos pcSize
  have whole : pos + i = pcSize * (pos / pcSize) + (pos % pcSize + i) := by omega
  rw [whole, Nat.mul_add_mod, Nat.mod_eq_of_lt (by omega)]

/-- Remembered block sizes of a live generation are the device's own. -/
structure SizesOk (s : State) : Prop where
  stamped : ∀ d, s.sizes.bsz d ≠ 0 → s.sizes.generation d ≠ 0
  unit : ∀ d desc, devmgrGetdeviceRef s d = some desc → s.sizes.bsz d ≠ 0 →
    s.sizes.generation d = desc.generation → s.sizes.bsz d = blockUnit (some desc)

theorem blockUnit_valid (desc : Option BlockDesc) : pcValidBsize (blockUnit desc) = true := by
  unfold blockUnit
  split
  · split
    · assumption
    · rfl
  · rfl

theorem blockUnit_of_valid {desc : BlockDesc} {got : Nat} (reported : desc.getBlockSize = some got)
    (valid : pcValidBsize got = true) : blockUnit (some desc) = got := by
  simp [blockUnit, reported, valid]

theorem blockUnit_pos (desc : Option BlockDesc) : 0 < blockUnit desc := by
  have valid := blockUnit_valid desc
  simp only [pcValidBsize, Bool.or_eq_true, beq_iff_eq] at valid
  omega

theorem blockUnit_page (desc : Option BlockDesc) :
    pcSize / blockUnit desc * blockUnit desc = pcSize := by
  have valid := blockUnit_valid desc
  simp only [pcValidBsize, Bool.or_eq_true, beq_iff_eq] at valid
  rcases valid with ((valid | valid) | valid) | valid <;> rw [valid] <;> rfl

theorem sizesOk_store (sizes : SizesOk s) {desc : BlockDesc} {size : Nat}
    (live : devmgrGetdeviceRef s d = some desc)
    (unit : pcValidBsize size = true → size = blockUnit (some desc)) :
    SizesOk { s with sizes := s.sizes.store d size desc.generation } := by
  unfold BsizeTable.store
  split
  · rename_i stored
    simp only [Bool.and_eq_true, bne_iff_ne, ne_eq] at stored
    refine ⟨fun d' used => ?_, fun d' desc' live' used same => ?_⟩
    · by_cases here : d' = d
      · subst here
        simpa using stored.1
      · simpa [Function.update_of_ne here] using
          sizes.stamped d' (by simpa [Function.update_of_ne here] using used)
    · have registered : devmgrGetdeviceRef s d' = some desc' := live'
      by_cases here : d' = d
      · subst here
        rw [live] at registered
        cases registered
        simpa using unit stored.2
      · simp only [Function.update_of_ne here] at used same ⊢
        exact sizes.unit d' desc' registered used same
  · exact sizes

theorem sizesOk_remember (sizes : SizesOk s) (d : Int) : SizesOk (pcRememberBsize s d) := by
  unfold pcRememberBsize
  cases live : devmgrGetdeviceRef s d with
  | none => exact sizes
  | some desc =>
    cases reported : desc.getBlockSize with
    | none => simpa only [reported] using sizes
    | some got =>
      simpa only [reported] using
        sizesOk_store sizes live fun valid => (blockUnit_of_valid reported valid).symm

theorem sizesOk_bsize (sizes : SizesOk s) (d : Int) : SizesOk (pcBsize s d).2 := by
  unfold pcBsize
  split
  · exact sizes
  split
  · exact sizes
  cases live : devmgrGetdeviceRef s d with
  | none => simpa [devmgrGetGeneration, live, BsizeTable.store] using sizes
  | some desc =>
    simpa only [devmgrGetGeneration, live] using sizesOk_store sizes live fun _ => rfl

/-- `pc_bsize` answers with the unit of the device's own transfers. -/
theorem pcBsize_unit (sizes : SizesOk s) (d : Int) : (pcBsize s d).1 = transferUnit s d := by
  unfold pcBsize transferUnit
  split
  · rename_i invalid
    have absent : devmgrGetdeviceRef s d = none := by
      simp only [Bool.not_eq_true'] at invalid
      simp [devmgrGetdeviceRef, invalid]
    rw [absent]
    rfl
  · split
    · rename_i hit
      simp only [bsizeHit, Bool.and_eq_true, bne_iff_ne, ne_eq, beq_iff_eq] at hit
      cases live : devmgrGetdeviceRef s d with
      | none =>
        have dead : s.sizes.generation d = 0 := by simpa [devmgrGetGeneration, live] using hit.2
        exact absurd dead (sizes.stamped d hit.1)
      | some desc =>
        exact sizes.unit d desc live hit.1 (by simpa [devmgrGetGeneration, live] using hit.2)
    · rfl

/-- States alike but for ages, the clock, the counters and remembered block sizes. -/
structure SameLines (s t : State) : Prop where
  line : ∀ j, ∃ age, t.pcTab j = { s.pcTab j with age := age }
  devlist : t.devlist = s.devlist
  media : t.media = s.media
  sizes : SizesOk s → SizesOk t

theorem SameLines.refl (s : State) : SameLines s s :=
  ⟨fun j => ⟨(s.pcTab j).age, rfl⟩, rfl, rfl, id⟩

theorem SameLines.trans {u : State} (first : SameLines s t) (second : SameLines t u) :
    SameLines s u := by
  refine ⟨fun j => ?_, second.devlist.trans first.devlist, second.media.trans first.media,
    second.sizes ∘ first.sizes⟩
  obtain ⟨a, ha⟩ := first.line j
  obtain ⟨b, hb⟩ := second.line j
  exact ⟨b, by rw [hb, ha]⟩

theorem sameLines_remember (s : State) (d : Int) : SameLines s (pcRememberBsize s d) :=
  ⟨fun j => ⟨(s.pcTab j).age, rfl⟩, rfl, rfl, fun sizes => sizesOk_remember sizes d⟩

theorem sameLines_bsize (s : State) (d : Int) : SameLines s (pcBsize s d).2 := by
  have fields : (pcBsize s d).2.pcTab = s.pcTab ∧ (pcBsize s d).2.devlist = s.devlist ∧
      (pcBsize s d).2.media = s.media := by
    unfold pcBsize
    split
    · exact ⟨rfl, rfl, rfl⟩
    · split <;> exact ⟨rfl, rfl, rfl⟩
  exact ⟨fun j => ⟨(s.pcTab j).age, by rw [fields.1]⟩, fields.2.1, fields.2.2,
    fun sizes => sizesOk_bsize sizes d⟩

theorem sameLines_open (s : State) (d : Int) : SameLines s (openRange s d).2 :=
  (sameLines_remember s d).trans (sameLines_bsize _ d)

theorem sameLines_stamp (s : State) (j : Slot) : SameLines s (stamp s j (s.pcTab j)) := by
  refine ⟨fun i => ?_, rfl, rfl, fun sizes => ⟨sizes.stamped, sizes.unit⟩⟩
  by_cases same : i = j
  · subst same
    exact ⟨nextClock s, by simp [stamp]⟩
  · exact ⟨(s.pcTab i).age, by simp [stamp, Function.update_of_ne same]⟩

theorem SameLines.ref (same : SameLines s t) (d : Int) :
    devmgrGetdeviceRef t d = devmgrGetdeviceRef s d := by
  simp only [devmgrGetdeviceRef, same.devlist]

theorem SameLines.generation (same : SameLines s t) (d : Int) :
    devmgrGetGeneration t d = devmgrGetGeneration s d := by
  simp only [devmgrGetGeneration, same.ref]

theorem SameLines.unit (same : SameLines s t) (d : Int) : transferUnit t d = transferUnit s d := by
  simp only [transferUnit, same.ref]

theorem openRange_unit (sizes : SizesOk s) (d : Int) : (openRange s d).1 = transferUnit s d := by
  rw [openRange, pcBsize_unit (sizesOk_remember sizes d), (sameLines_remember s d).unit]

section

variable (same : SameLines s t)
include same

theorem SameLines.hits (d : Int) (pg : Nat) (j : Slot) : Hits t d pg j ↔ Hits s d pg j := by
  obtain ⟨age, line⟩ := same.line j
  simp only [hits_iff, line, same.generation]

theorem SameLines.lookup (d : Int) (pg : Nat) : pcLookup t d pg = pcLookup s d pg := by
  have keys : (fun j => keyMatches t d pg (t.pcTab j)) =
      fun j => keyMatches s d pg (s.pcTab j) := by
    funext j
    exact Bool.eq_iff_iff.mpr (same.hits d pg j)
  simp only [pcLookup, keys]

theorem SameLines.storeOf_eq : storeOf t = storeOf s := by
  ext1
  · funext k
    simp only [storeOf, same.lookup]
    cases pcLookup s k.1 (k.2 / pcSize) with
    | none => rfl
    | some j =>
      obtain ⟨age, line⟩ := same.line j
      simp only [Option.map_some, line]
  · funext k
    simp only [storeOf, same.media, same.generation]

theorem SameLines.logical_eq (d : Int) (b : Nat) : logical t d b = logical s d b := by
  rw [← storeOf_logical, ← storeOf_logical, same.storeOf_eq]

theorem SameLines.uniq (uniq : Uniq s) : Uniq t := by
  intro d pg i j hi hj
  exact uniq d pg i j ((same.hits d pg i).mp hi) ((same.hits d pg j).mp hj)

end

/-- A copy-out touches ages only; where it succeeds, it copies the logical content. -/
theorem copyOutLoop_spec (s : State) (d : Int) (off nbytes : Nat) (dst : Buf) (done : Nat) :
    SameLines s (copyOutLoop s d off nbytes dst done).2.1 ∧
    (∀ k < done, (copyOutLoop s d off nbytes dst done).2.2 k = dst k) ∧
    ((copyOutLoop s d off nbytes dst done).1 = true → ∀ k, done ≤ k → k < nbytes →
      (copyOutLoop s d off nbytes dst done).2.2 k = logical s d (off + k)) ∧
    ((copyOutLoop s d off nbytes dst done).1 = true → ∀ k, done ≤ k → k < nbytes →
      (pcLookup s d ((off + k) / pcSize)).isSome = true) := by
  fun_induction copyOutLoop s d off nbytes dst done with
  | case1 s dst done more pos absent => exact ⟨SameLines.refl s, fun k _ => rfl, by simp, by simp⟩
  | case2 s dst done more pos n j found ih =>
    obtain ⟨same, before, copied, resident⟩ := ih
    have touched := sameLines_stamp s j
    have positive : 0 < n := chunkLen_pos _ (by omega)
    refine ⟨touched.trans same, fun k low => ?_, fun ok k low high => ?_, fun ok k low high => ?_⟩
    · rw [before k (by omega), memcpy_outside (by omega)]
    · by_cases here : k < done + n
      · have inside : k - done < n := by omega
        have address : off + k = pos + (k - done) := by omega
        rw [before k here, memcpy_inside low here, address]
        simp only [logical, chunk_div inside, found, chunk_mod inside]
      · rw [copied ok k (by omega) high, touched.logical_eq]
    · by_cases here : k < done + n
      · have inside : k - done < n := by omega
        have address : off + k = pos + (k - done) := by omega
        rw [address, chunk_div inside, found]
        rfl
      · rw [← touched.lookup]
        exact resident ok k (by omega) high
  | case3 s dst done finished =>
    exact ⟨SameLines.refl s, fun k _ => rfl, fun _ k low high => by omega,
      fun _ k low high => by omega⟩

section

theorem keyMatches_key {p : PcPage} {d' : Int} {pg' : Nat} (key : keyMatches s d pg p = true)
    (key' : keyMatches s d' pg' p = true) : d = d' ∧ pg = pg' := by
  simp only [keyMatches, Bool.and_eq_true, beq_iff_eq] at key key'
  exact ⟨key.1.1.2.symm.trans key'.1.1.2, key.2.symm.trans key'.2⟩

/-- Slot `j` may take page `pg`: nobody else answers for it, and `j` for no other. -/
structure Free (s : State) (d : Int) (pg : Nat) (j : Slot) : Prop where
  alone : ∀ i, Hits s d pg i → i = j
  only : ∀ d' pg', Hits s d' pg' j → d' = d ∧ pg' = pg

variable {s : State} {d : Int} {pg : Nat} {j : Slot} {p : PcPage}

theorem setLine_uniq (uniq : Uniq s) (free : Free s d pg j) (key : keyMatches s d pg p = true) :
    Uniq (setLine s j p) := by
  have mine : ∀ d' pg' i, Hits (setLine s j p) d' pg' i →
      Hits (setLine s j p) d' pg' j → i = j := by
    intro d' pg' i hi hj
    by_contra other
    obtain ⟨rfl, rfl⟩ := keyMatches_key key (setLine_hits_self.mp hj)
    exact other (free.alone i ((setLine_hits_of_ne other p d pg).mp hi))
  intro d' pg' i k hi hk
  by_cases ij : i = j
  · subst ij
    exact (mine d' pg' k hk hi).symm
  by_cases kj : k = j
  · subst kj
    exact mine d' pg' i hi hk
  · exact uniq d' pg' i k ((setLine_hits_of_ne ij p d' pg').mp hi)
      ((setLine_hits_of_ne kj p d' pg').mp hk)

/-- A line put into a free slot shows on its page and nowhere else. -/
theorem storeOf_setLine (uniq : Uniq s) (free : Free s d pg j)
    (key : keyMatches s d pg p = true) (k : Int × Nat) :
    (storeOf (setLine s j p)).line k =
      if k.1 = d ∧ k.2 / pcSize = pg then some (p.data (k.2 % pcSize), p.dirty)
      else (storeOf s).line k := by
  obtain ⟨d', b⟩ := k
  have uniq' := setLine_uniq uniq free key
  by_cases here : d' = d ∧ b / pcSize = pg
  · obtain ⟨rfl, rfl⟩ := here
    rw [storeOf_hits uniq' (setLine_hits_self.mpr key)]
    simp [setLine]
  rw [if_neg here]
  have kept : ∀ i, Hits (setLine s j p) d' (b / pcSize) i ↔ Hits s d' (b / pcSize) i := by
    intro i
    by_cases same : i = j
    · subst same
      constructor
      · intro hit
        obtain ⟨rfl, rfl⟩ := keyMatches_key key (setLine_hits_self.mp hit)
        exact absurd ⟨rfl, rfl⟩ here
      · intro hit
        exact absurd (free.only _ _ hit) here
    · exact setLine_hits_of_ne same p d' _
  cases found : pcLookup s d' (b / pcSize) with
  | none =>
    have absent := pcLookup_none.mp found
    rw [storeOf_none absent, storeOf_none fun i hit => absent i ((kept i).mp hit)]
  | some i =>
    have hit := pcLookup_hits found
    have other : i ≠ j := by
      rintro rfl
      exact here (free.only _ _ hit)
    rw [storeOf_hits uniq hit, storeOf_hits uniq' ((kept i).mpr hit)]
    simp [setLine, Function.update_of_ne other]

theorem storeOf_setLine_back (s : State) (j : Slot) (p : PcPage) :
    (storeOf (setLine s j p)).back = (storeOf s).back := rfl

theorem sameLines_setLine (s : State) (j : Slot) (p : PcPage) :
    SameLines (setLine s j p) (stamp s j p) := by
  refine ⟨fun i => ?_, rfl, rfl, fun sizes => ⟨sizes.stamped, sizes.unit⟩⟩
  by_cases same : i = j
  · subst same
    exact ⟨nextClock s, by simp [setLine, stamp]⟩
  · exact ⟨(s.pcTab i).age, by simp [setLine, stamp, Function.update_of_ne same]⟩

/-- The slot that answers for a page is free for it. -/
theorem free_of_hits (uniq : Uniq s) (hit : Hits s d pg j) : Free s d pg j :=
  ⟨fun i other => uniq d pg i j other hit, fun _ _ other => hits_key other hit⟩

/-- A slot just re-keyed for an absent page is free for it. -/
theorem free_of_rekey (absent : pcLookup s d pg = none) : Free (rekey s d pg j) d pg j := by
  refine ⟨fun i hit => ?_, fun d' pg' hit => ?_⟩
  · exact absurd (rekey_hits.mp hit).2 (pcLookup_none.mp absent i)
  · exact absurd rfl (rekey_hits.mp hit).1

structure ReadMove (s t : State) : Prop where
  devlist : t.devlist = s.devlist
  media : t.media = s.media
  sizes : SizesOk s → SizesOk t
  quiet : Uniq s → Uniq t ∧ Store.Quiets (storeOf s) (storeOf t)

theorem ReadMove.refl (s : State) : ReadMove s s :=
  ⟨rfl, rfl, id, fun uniq => ⟨uniq, .refl⟩⟩

theorem ReadMove.trans {u : State} (first : ReadMove s t) (second : ReadMove t u) :
    ReadMove s u := by
  refine ⟨second.devlist.trans first.devlist, second.media.trans first.media,
    second.sizes ∘ first.sizes, fun uniq => ?_⟩
  obtain ⟨uniq', path⟩ := first.quiet uniq
  obtain ⟨uniq'', path'⟩ := second.quiet uniq'
  exact ⟨uniq'', path.trans path'⟩

theorem SameLines.readMove (same : SameLines s t) : ReadMove s t :=
  { same with quiet := fun uniq => ⟨same.uniq uniq, by rw [same.storeOf_eq]⟩ }

theorem ReadMove.ref (move : ReadMove s t) (d : Int) :
    devmgrGetdeviceRef t d = devmgrGetdeviceRef s d := by
  simp only [devmgrGetdeviceRef, move.devlist]

theorem ReadMove.generation (move : ReadMove s t) (d : Int) :
    devmgrGetGeneration t d = devmgrGetGeneration s d := by
  simp only [devmgrGetGeneration, move.ref]

theorem ReadMove.unit (move : ReadMove s t) (d : Int) : transferUnit t d = transferUnit s d := by
  simp only [transferUnit, move.ref]

theorem readMove_claim {j : Slot} (absent : pcLookup s d pg = none)
    (claimed : pcClaim s d pg = some (j, t)) : ReadMove s t ∧ t = rekey s d pg j := by
  obtain ⟨undirty, rfl⟩ := pcClaim_spec absent claimed
  refine ⟨⟨rfl, rfl, fun sizes => ⟨sizes.stamped, sizes.unit⟩, fun uniq => ?_⟩, rfl⟩
  refine ⟨kill_uniq uniq (mute_of_flags rfl), ?_⟩
  rw [rekey, storeOf_kill uniq (mute_of_flags rfl)]
  refine .single (.drop _ _ fun k member v => ?_)
  obtain ⟨d', b⟩ := k
  rw [storeOf_hits uniq member, undirty]
  simp

/-- The bounce buffer of a run holds the device's bytes from page `run0` on. -/
def BounceOf (s : State) (d : Int) (run0 deviceGeneration : Nat) (bounce : Buf) : Prop :=
  deviceGeneration ≠ 0 ∧ deviceGeneration = devmgrGetGeneration s d ∧
    ∀ o, bounce o = s.media d deviceGeneration (run0 * pcSize + o)

variable {bounce : Buf} {g run0 : Nat}

theorem readMove_filled {j : Slot} (source : BounceOf s d run0 g bounce)
    (free : Free s d (run0 + i) j) (absent : ∀ i', ¬Hits s d (run0 + i) i')
    (device : (s.pcTab j).deviceid = d) (index : (s.pcTab j).index = run0 + i) :
    ReadMove s (setLine s j (filledLine (s.pcTab j) g i bounce)) := by
  obtain ⟨nonzero, live, bytes⟩ := source
  have key : keyMatches s d (run0 + i) (filledLine (s.pcTab j) g i bounce) = true := by
    simp only [keyMatches, filledLine, blkcacheDeviceKeyIsCurrent, Bool.and_eq_true, beq_iff_eq,
      bne_iff_ne, ne_eq, true_and]
    exact ⟨⟨device, nonzero, live⟩, index⟩
  refine ⟨rfl, rfl, fun sizes => ⟨sizes.stamped, sizes.unit⟩, fun uniq =>
    ⟨setLine_uniq uniq free key, ?_⟩⟩
  have filled : storeOf (setLine s j (filledLine (s.pcTab j) g i bounce)) =
      (storeOf s).fill (pageKeys d (run0 + i)) := by
    ext1
    · funext k
      rw [storeOf_setLine uniq free key]
      by_cases here : k.1 = d ∧ k.2 / pcSize = run0 + i
      · obtain ⟨rfl, page⟩ := here
        have inside := Nat.mod_lt k.2 pcSize_pos
        have address : run0 * pcSize + (i * pcSize + k.2 % pcSize) = k.2 := by
          have split := Nat.div_add_mod k.2 pcSize
          rw [page] at split
          rw [← Nat.add_assoc, ← Nat.add_mul, Nat.mul_comm (run0 + i)]
          exact split
        have member : k ∈ pageKeys k.1 (run0 + i) := ⟨rfl, page⟩
        simp only [page, and_self, if_true, Store.fill, member, filledLine, Option.some.injEq,
          Prod.mk.injEq, and_true]
        rw [memcpy_inside (Nat.zero_le _) (by omega), bytes, Nat.sub_zero, address, live]
        rfl
      · have outside : k ∉ pageKeys d (run0 + i) := here
        simp only [here, if_false, Store.fill, outside]
    · rfl
  rw [filled]
  refine .single (.fill _ _ fun k member => storeOf_none fun i' hit => ?_)
  obtain ⟨same, page⟩ := member
  rw [same, page] at hit
  exact absent i' hit

theorem readMove_install (i : Nat) (source : BounceOf s d run0 g bounce) :
    ReadMove s (installPage d run0 g bounce s i) := by
  unfold installPage
  cases absent : pcLookup s d (run0 + i) with
  | some _ => exact ReadMove.refl s
  | none =>
    cases claimed : pcClaim s d (run0 + i) with
    | none => exact ReadMove.refl s
    | some result =>
      obtain ⟨j, t⟩ := result
      obtain ⟨evict, rfl⟩ := readMove_claim absent claimed
      have fill := readMove_filled (s := rekey s d (run0 + i) j) (i := i) source
        (free_of_rekey absent)
        (fun i' hit => pcLookup_none.mp absent i' (rekey_hits.mp hit).2)
        (by simp [rekey, setLine]) (by simp [rekey, setLine])
      exact evict.trans (fill.trans (sameLines_setLine _ j _).readMove)

theorem readMove_installRun (np : Nat) (source : BounceOf s d run0 g bounce) :
    ReadMove s (installRun s d run0 g np bounce) := by
  unfold installRun
  generalize List.range np = pages
  induction pages generalizing s with
  | nil => exact ReadMove.refl s
  | cons i rest ih =>
    have move := readMove_install i source
    refine move.trans (ih ?_)
    refine ⟨source.1, source.2.1.trans (move.generation d).symm, fun o => ?_⟩
    rw [move.media]
    exact source.2.2 o

theorem pcDevRead_some {lba : Nat} {bytes : Buf} (transfer : pcDevRead s d lba = some (bytes, g)) :
    g ≠ 0 ∧ g = devmgrGetGeneration s d ∧
      ∀ o, bytes o = s.media d g (lba * transferUnit s d + o) := by
  unfold pcDevRead pcDevOpen at transfer
  cases live : devmgrGetdeviceRef s d with
  | none => simp [live] at transfer
  | some desc =>
    simp only [live] at transfer
    split at transfer
    · cases transfer
    rename_i opened
    split at opened
    · cases opened
    split at opened
    · cases opened
    rename_i accepted
    cases opened
    split at transfer
    · simp only [Option.some.injEq, Prod.mk.injEq] at transfer
      obtain ⟨rfl, rfl⟩ := transfer
      simp only [Bool.or_eq_true, not_or, beq_iff_eq] at accepted
      exact ⟨accepted.1, by simp [devmgrGetGeneration, live], fun o => rfl⟩
    · cases transfer

theorem readMove_fillLoop {sectPer pg1 : Nat} {malloc : Nat → Bool} {calls : Nat}
    (blocks : sectPer * transferUnit s d = pcSize) :
    ReadMove s (fillLoop s d sectPer pg1 malloc calls pg).2 := by
  fun_induction fillLoop s d sectPer pg1 malloc calls pg with
  | case1 s calls pg inside refused => exact ReadMove.refl s
  | case2 s calls pg inside run0 granted failed => exact ReadMove.refl s
  | case3 s calls pg inside run0 next granted bounce generation transfer ih =>
    obtain ⟨nonzero, live, bytes⟩ := pcDevRead_some transfer
    have source : BounceOf s d run0 generation bounce := by
      refine ⟨nonzero, live, fun o => ?_⟩
      rw [bytes, Nat.mul_assoc, blocks]
    have move := readMove_installRun (next - run0) source
    exact move.trans (ih (by rw [move.unit]; exact blocks))
  | case4 s calls pg finished => exact ReadMove.refl s

theorem readMove_fillRange (sizes : SizesOk s) (d : Int) (pg0 pg1 : Nat) (malloc : Nat → Bool) :
    ReadMove s (pcFillRange s d pg0 pg1 malloc).2 := by
  have sized := sameLines_bsize s d
  refine sized.readMove.trans (readMove_fillLoop ?_)
  rw [pcBsize_unit sizes, sized.unit]
  exact blockUnit_page _

end

end IcsOs.BlkCache.ReadPath
