/- GID: IcsOs/BlkCache/WritePath
   generality: I
   source: kernel/iomgr/blkcache.c
   digest: What the write loop, the direct transfer, the flush and the invalidation do to the store.
   -/

import IcsOs.BlkCache.ReadPath

set_option autoImplicit false

namespace IcsOs.BlkCache.WritePath

open Lib.WriteBack BlkCache.PageCache BlkCache.Requests BlkCache.ReadPath

def rangeKeys (d : Int) (lo n : Nat) : Set (Int × Nat) :=
  {k | k.1 = d ∧ lo ≤ k.2 ∧ k.2 < lo + n}

variable {d : Int} {done n : Nat} {j : Slot} {k : Int × Nat} {s t : State} {src : Buf}

section Chunk

theorem storeOf_stored {pg : Nat} (uniq : Uniq s) (free : Free s d pg j) (q : PcPage) {poff : Nat}
    (key : keyMatches s d pg (storedLine q poff n done src) = true) :
    storeOf (setLine s j (storedLine q poff n done src)) =
      (storeOf s).put (pageKeys d pg) fun k => memcpy q.data poff src done n (k.2 % pcSize) := by
  ext1
  · funext k
    rw [storeOf_setLine uniq free key]
    by_cases here : k.1 = d ∧ k.2 / pcSize = pg
    · have member : k ∈ pageKeys d pg := here
      simp only [here, and_self, if_true, Store.put, member, storedLine]
    · have outside : k ∉ pageKeys d pg := here
      simp only [here, if_false, Store.put, outside]
  · rfl

theorem sameLines_storeChunk (s : State) (j : Slot) (q : PcPage) (poff n done : Nat) (src : Buf) :
    SameLines (setLine s j (storedLine q poff n done src))
      (storeChunk (setLine s j q) j poff n done src) := by
  refine ⟨fun i => ?_, rfl, rfl, fun sizes => ⟨sizes.stamped, sizes.unit⟩⟩
  by_cases same : i = j
  · subst same
    exact ⟨nextClock s, by simp [storeChunk, stamp, setLine, nextClock]⟩
  · exact ⟨(s.pcTab i).age, by simp [storeChunk, stamp, setLine, Function.update_of_ne same]⟩

theorem setLine_self (s : State) (j : Slot) : setLine s j (s.pcTab j) = s := by
  simp [setLine]

/-- A stored chunk makes room on the read path, then puts one page. -/
structure ChunkMove (s t : State) (d : Int) (pos left done : Nat) (src : Buf) (q : State)
    (p : PcPage) : Prop where
  room : ReadMove s q
  devlist : t.devlist = q.devlist
  media : t.media = q.media
  sizes : SizesOk q → SizesOk t
  uniq : Uniq q → Uniq t
  store : Uniq q → storeOf t = (storeOf q).put (pageKeys d (pos / pcSize)) fun k =>
    memcpy p.data (pos % pcSize) src done (chunkLen pos left) (k.2 % pcSize)
  resident : ∀ j, pcLookup s d (pos / pcSize) = some j → q = s ∧ p = s.pcTab j

variable {left pos : Nat}

theorem chunkMove_of_line {q : State} {p : PcPage} (room : ReadMove s q)
    (free : Uniq q → Free q d (pos / pcSize) j)
    (key : keyMatches q d (pos / pcSize)
      (storedLine p (pos % pcSize) (chunkLen pos left) done src) = true)
    (resident : ∀ i, pcLookup s d (pos / pcSize) = some i → q = s ∧ p = s.pcTab i) :
    ChunkMove s (storeChunk (setLine q j p) j (pos % pcSize) (chunkLen pos left) done src) d pos
      left done src q p := by
  have same := sameLines_storeChunk q j p (pos % pcSize) (chunkLen pos left) done src
  refine ⟨room, same.devlist, same.media, fun sizes => same.sizes ⟨sizes.stamped, sizes.unit⟩,
    fun uniq => same.uniq (setLine_uniq uniq (free uniq) key), fun uniq => ?_, resident⟩
  rw [same.storeOf_eq]
  exact storeOf_stored uniq (free uniq) p key

theorem writeChunk_dead (dead : devmgrGetGeneration s d = 0)
    (stored : writeChunk s d pos left done src = some t) : ReadMove s t := by
  have absent : pcLookup s d (pos / pcSize) = none := by
    rw [pcLookup_none]
    intro j hit
    rw [hits_iff, dead] at hit
    exact hit.2.2.2.1 hit.2.2.2.2
  unfold writeChunk at stored
  cases claimed : pcClaim s d (pos / pcSize) with
  | none => simp [absent, claimed] at stored
  | some result =>
    obtain ⟨j, q⟩ := result
    simp only [absent, claimed, Option.some.injEq] at stored
    subst stored
    obtain ⟨room, rfl⟩ := readMove_claim absent claimed
    refine room.trans (ReadMove.trans ?_ (sameLines_storeChunk _ j _ _ _ done src).readMove)
    refine ⟨rfl, rfl, fun sizes => ⟨sizes.stamped, sizes.unit⟩, fun uniq => ?_⟩
    have mute : Mute (rekey s d (pos / pcSize) j)
        (storedLine (blankLine ((rekey s d (pos / pcSize) j).pcTab j) (wholeChunk pos left))
          (pos % pcSize) (chunkLen pos left) done src) :=
      mute_of_unregistered (by simp [storedLine, blankLine, rekey, setLine, dead])
    refine ⟨kill_uniq uniq mute, ?_⟩
    rw [storeOf_kill uniq mute]
    exact .single (.drop _ _ fun k member => absurd rfl (rekey_hits.mp member).1)

theorem writeChunk_move (live : devmgrGetGeneration s d ≠ 0)
    (stored : writeChunk s d pos left done src = some t) :
    ∃ q p, ChunkMove s t d pos left done src q p := by
  unfold writeChunk at stored
  cases found : pcLookup s d (pos / pcSize) with
  | some j =>
    simp only [found, Option.some.injEq] at stored
    subst stored
    have hit := pcLookup_hits found
    refine ⟨s, s.pcTab j, ?_⟩
    have move : ChunkMove s (storeChunk (setLine s j (s.pcTab j)) j (pos % pcSize)
        (chunkLen pos left) done src) d pos left done src s (s.pcTab j) := chunkMove_of_line
      (ReadMove.refl s) (fun uniq => free_of_hits uniq hit) (p := s.pcTab j)
      (by
        rw [hits_iff] at hit
        simp only [keyMatches, storedLine, blkcacheDeviceKeyIsCurrent, Bool.and_eq_true,
          beq_iff_eq, bne_iff_ne, ne_eq, true_and]
        exact ⟨⟨hit.2.1, hit.2.2.2⟩, hit.2.2.1⟩)
      (by
        intro i other
        rw [found] at other
        cases other
        exact ⟨rfl, rfl⟩)
    rwa [setLine_self] at move
  | none =>
    cases claimed : pcClaim s d (pos / pcSize) with
    | none => simp [found, claimed] at stored
    | some result =>
      obtain ⟨j, q⟩ := result
      simp only [found, claimed, Option.some.injEq] at stored
      subst stored
      obtain ⟨room, rfl⟩ := readMove_claim found claimed
      refine ⟨_, _, chunkMove_of_line room (fun _ => free_of_rekey found) ?_ ?_⟩
      · simp only [keyMatches, storedLine, blankLine, blkcacheDeviceKeyIsCurrent, rekey, setLine,
          Function.update_self, Bool.and_eq_true, beq_iff_eq, bne_iff_ne, ne_eq, true_and,
          and_true]
        exact ⟨live, rfl⟩
      · intro i other
        rw [found] at other
        cases other

theorem chunk_of_page {b : Nat} (page : b / pcSize = pos / pcSize) :
    pos ≤ b ∧ b < pos + chunkLen pos left ↔
      pos % pcSize ≤ b % pcSize ∧ b % pcSize < pos % pcSize + chunkLen pos left := by
  have splitB := Nat.div_add_mod b pcSize
  have splitPos := Nat.div_add_mod pos pcSize
  rw [page] at splitB
  omega

namespace ChunkMove

variable {s t q : State} {d : Int} {pos left done : Nat} {src : Buf} {p : PcPage}

section

variable (move : ChunkMove s t d pos left done src q p)
include move

/-- Inside the chunk the store holds the new bytes in dirty lines. -/
theorem line_inside (uniq : Uniq s) {b : Nat} (low : pos ≤ b) (high : b < pos + chunkLen pos left) :
    (storeOf t).line (d, b) = some (src (done + (b - pos)), true) := by
  have inside : b - pos < chunkLen pos left := by omega
  have address : b = pos + (b - pos) := by omega
  have page : b / pcSize = pos / pcSize := by
    rw [address]
    exact chunk_div inside
  have offset : b % pcSize = pos % pcSize + (b - pos) := by
    conv_lhs => rw [address]
    exact chunk_mod inside
  have member : (d, b) ∈ pageKeys d (pos / pcSize) := ⟨rfl, page⟩
  rw [move.store (move.room.quiet uniq).1]
  simp only [Store.put, member, if_true, offset, Option.some.injEq, Prod.mk.injEq, and_true]
  rw [memcpy_inside (by omega) (by omega)]
  congr 1
  omega

theorem dirty_outside (uniq : Uniq s) {v : UInt8} (out : k ∉ rangeKeys d pos (chunkLen pos left))
    (held : (storeOf s).line k = some (v, true)) : (storeOf t).line k = some (v, true) := by
  obtain ⟨uniq', path⟩ := move.room.quiet uniq
  rw [move.store uniq']
  by_cases member : k ∈ pageKeys d (pos / pcSize)
  · obtain ⟨d', b⟩ := k
    obtain ⟨rfl, page⟩ := member
    change b / pcSize = pos / pcSize at page
    cases found : pcLookup s d' (pos / pcSize) with
    | none =>
      rw [storeOf_none (by rw [page]; exact pcLookup_none.mp found)] at held
      cases held
    | some j =>
      obtain ⟨rfl, rfl⟩ := move.resident j found
      have hit : Hits q d' (b / pcSize) j := by
        rw [page]
        exact pcLookup_hits found
      rw [storeOf_hits uniq hit] at held
      simp only [Option.some.injEq, Prod.mk.injEq] at held
      have away : ¬(pos ≤ b ∧ b < pos + chunkLen pos left) := fun inside => out ⟨rfl, inside⟩
      rw [chunk_of_page page] at away
      have member : (d', b) ∈ pageKeys d' (pos / pcSize) := ⟨rfl, page⟩
      simp only [Store.put, member, if_true, Option.some.injEq, Prod.mk.injEq, and_true]
      rw [memcpy_outside (by omega)]
      exact held.1
  · simp only [Store.put, member, if_false]
    exact (path.dirty_iff k v).mpr held

/-- Where the page has a line, or is covered, nothing outside the chunk changes. -/
theorem logical_outside (uniq : Uniq s) (coherent : (storeOf s).Coherent)
    (covered : pcLookup s d (pos / pcSize) ≠ none ∨ wholeChunk pos left = true)
    (out : k ∉ rangeKeys d pos (chunkLen pos left)) :
    (storeOf t).logical k = (storeOf s).logical k := by
  obtain ⟨uniq', path⟩ := move.room.quiet uniq
  rw [move.store uniq', Store.put_logical]
  by_cases member : k ∈ pageKeys d (pos / pcSize)
  · obtain ⟨d', b⟩ := k
    obtain ⟨rfl, page⟩ := member
    change b / pcSize = pos / pcSize at page
    have away : ¬(pos ≤ b ∧ b < pos + chunkLen pos left) := fun inside => out ⟨rfl, inside⟩
    rw [chunk_of_page page] at away
    rcases covered with resident | whole
    · obtain ⟨j, found⟩ := Option.ne_none_iff_exists'.mp resident
      obtain ⟨rfl, rfl⟩ := move.resident j found
      have hit : Hits q d' (b / pcSize) j := by
        rw [page]
        exact pcLookup_hits found
      have member : (d', b) ∈ pageKeys d' (pos / pcSize) := ⟨rfl, page⟩
      have beside : b % pcSize < pos % pcSize ∨
          pos % pcSize + chunkLen pos left ≤ b % pcSize := by omega
      rw [if_pos member, Store.logical_of_line (storeOf_hits uniq hit)]
      exact memcpy_outside beside
    · simp only [wholeChunk, Bool.and_eq_true, beq_iff_eq] at whole
      have inside := Nat.mod_lt b pcSize_pos
      omega
  · rw [if_neg member, path.logical_eq coherent]

theorem coherent (uniq : Uniq s) (coherent : (storeOf s).Coherent) : (storeOf t).Coherent := by
  obtain ⟨uniq', path⟩ := move.room.quiet uniq
  rw [move.store uniq']
  exact Store.put_coherent (path.coherent coherent) _ _

theorem generation_eq (d' : Int) : devmgrGetGeneration t d' = devmgrGetGeneration s d' := by
  simp only [devmgrGetGeneration, devmgrGetdeviceRef, move.devlist, move.room.devlist]

end

end ChunkMove

end Chunk

section

/-- The facts every run of the write loop keeps. -/
structure LoopMove (s t : State) (d : Int) (lo n : Nat) : Prop where
  devlist : t.devlist = s.devlist
  media : t.media = s.media
  sizes : SizesOk s → SizesOk t
  uniq : Uniq t
  coherent : (storeOf s).Coherent → (storeOf t).Coherent
  dirty : ∀ k ∉ rangeKeys d lo n, ∀ v, (storeOf s).line k = some (v, true) →
    (storeOf t).line k = some (v, true)

theorem LoopMove.refl (uniq : Uniq s) (d : Int) (lo n : Nat) : LoopMove s s d lo n :=
  ⟨rfl, rfl, id, uniq, id, fun _ _ _ held => held⟩

variable {lo : Nat}

theorem rangeKeys_tail {m : Nat} (fits : m ≤ n) (out : k ∉ rangeKeys d lo n) :
    k ∉ rangeKeys d (lo + m) (n - m) := by
  rintro ⟨same, low, high⟩
  exact out ⟨same, by omega, by omega⟩

theorem rangeKeys_head {m : Nat} (fits : m ≤ n) (out : k ∉ rangeKeys d lo n) :
    k ∉ rangeKeys d lo m := by
  rintro ⟨same, low, high⟩
  exact out ⟨same, low, by omega⟩

/-- Moves of the read path before a write loop. -/
theorem LoopMove.after {q : State} (room : ReadMove s q) (uniq : Uniq s)
    (move : LoopMove q t d lo n) : LoopMove s t d lo n := by
  obtain ⟨_, path⟩ := room.quiet uniq
  exact ⟨move.devlist.trans room.devlist, move.media.trans room.media, move.sizes ∘ room.sizes,
    move.uniq, fun coherent => move.coherent (path.coherent coherent),
    fun k out v held => move.dirty k out v ((path.dirty_iff k v).mpr held)⟩

theorem writeLoop_move {start total : Nat} (uniq : Uniq s) :
    LoopMove s (writeLoop s d start total src done).2 d (start + done) (total - done) := by
  fun_induction writeLoop s d start total src done with
  | case1 s done more failed => exact LoopMove.refl uniq _ _ _
  | case2 s done more t stored ih =>
    have fits := chunkLen_le (start + done) (total - done)
    have tail : ∀ k ∉ rangeKeys d (start + done) (total - done), k ∉ rangeKeys d
        (start + (done + chunkLen (start + done) (total - done)))
        (total - (done + chunkLen (start + done) (total - done))) := by
      intro k out
      rw [← Nat.add_assoc, Nat.sub_add_eq]
      exact rangeKeys_tail fits out
    by_cases live : devmgrGetGeneration s d = 0
    · have room := writeChunk_dead live stored
      have rest := LoopMove.after room uniq (ih (room.quiet uniq).1)
      exact ⟨rest.devlist, rest.media, rest.sizes, rest.uniq, rest.coherent,
        fun k out => rest.dirty k (tail k out)⟩
    obtain ⟨q, p, move⟩ := writeChunk_move live stored
    have rest := ih (move.uniq (move.room.quiet uniq).1)
    exact ⟨rest.devlist.trans (move.devlist.trans move.room.devlist),
      rest.media.trans (move.media.trans move.room.media),
      fun sizes => rest.sizes (move.sizes (move.room.sizes sizes)), rest.uniq,
      fun coherent => rest.coherent (move.coherent uniq coherent), fun k out v held =>
        rest.dirty k (tail k out) v (move.dirty_outside uniq (rangeKeys_head fits out) held)⟩
  | case3 s done finished => exact LoopMove.refl uniq _ _ _

/-- From `done` on, a page covered in part has its line, and behind a page that can get none no page
has one. -/
def WriteOpen (s : State) (d : Int) (start total : Nat) (src : Buf) (done : Nat) : Prop :=
  if _more : done < total then
    match writeChunk s d (start + done) (total - done) done src with
    | none => ∀ b, start + done ≤ b → b < start + total → pcLookup s d (b / pcSize) = none
    | some t =>
      (pcLookup s d ((start + done) / pcSize) ≠ none ∨
        wholeChunk (start + done) (total - done) = true) ∧
      WriteOpen t d start total src (done + chunkLen (start + done) (total - done))
  else True
termination_by total - done
decreasing_by
  have := chunkLen_pos (start + done) (show 0 < total - done by omega)
  omega

theorem writeLoop_open {start total : Nat} (uniq : Uniq s) (live : devmgrGetGeneration s d ≠ 0)
    (coherent : (storeOf s).Coherent) (safe : WriteOpen s d start total src done) :
    (∀ b, start + done ≤ b → b < start + total →
      (storeOf (writeLoop s d start total src done).2).line (d, b) = some (src (b - start), true) ∨
        (writeLoop s d start total src done).1 = false ∧
          (storeOf (writeLoop s d start total src done).2).line (d, b) = none) ∧
    ∀ k ∉ rangeKeys d (start + done) (total - done),
      (storeOf (writeLoop s d start total src done).2).logical k = (storeOf s).logical k := by
  fun_induction writeLoop s d start total src done with
  | case1 s done more failed =>
    rw [WriteOpen, dif_pos more, failed] at safe
    refine ⟨fun b low high => .inr ⟨rfl, ?_⟩, fun k _ => rfl⟩
    exact storeOf_none (pcLookup_none.mp (safe b low high))
  | case2 s done more t stored ih =>
    rw [WriteOpen, dif_pos more, stored] at safe
    obtain ⟨covered, safe⟩ := safe
    obtain ⟨q, p, move⟩ := writeChunk_move live stored
    have fits := chunkLen_le (start + done) (total - done)
    have uniq' := move.uniq (move.room.quiet uniq).1
    have live' : devmgrGetGeneration t d ≠ 0 := by
      rw [move.generation_eq]
      exact live
    obtain ⟨inside, outside⟩ := ih uniq' live' (move.coherent uniq coherent) safe
    refine ⟨fun b low high => ?_, fun k out => ?_⟩
    · by_cases here : b < start + done + chunkLen (start + done) (total - done)
      · -- later turns keep the dirty line this turn left
        refine .inl ((writeLoop_move uniq').dirty (d, b) ?_ _ ?_)
        · rintro ⟨_, low', _⟩
          omega
        · rw [move.line_inside uniq low here]
          congr 3
          omega
      · exact inside b (by omega) high
    · rw [outside k ?_, move.logical_outside uniq coherent covered (rangeKeys_head fits out)]
      have tail := rangeKeys_tail fits out
      rw [Nat.add_assoc, ← Nat.sub_sub] at *
      exact tail
  | case3 s done finished => exact ⟨fun b low high => by omega, fun k _ => rfl⟩

variable {expected : Nat}

theorem pcDevOpen_some {desc : BlockDesc} (opened : pcDevOpen s d expected = some desc) :
    devmgrGetdeviceRef s d = some desc ∧ desc.generation ≠ 0 ∧
      (expected ≠ 0 → expected = desc.generation) := by
  unfold pcDevOpen at opened
  cases live : devmgrGetdeviceRef s d with
  | none => simp [live] at opened
  | some found =>
    simp only [live] at opened
    split at opened
    · cases opened
    split at opened
    · cases opened
    rename_i accepted
    cases opened
    simp only [Bool.or_eq_true, Bool.and_eq_true, beq_iff_eq, bne_iff_ne, ne_eq, not_or,
      not_and, not_not] at accepted
    exact ⟨rfl, accepted⟩

theorem pcDevWrite_some {lba nsect : Nat} {buf : Buf}
    (transfer : pcDevWrite s d expected lba nsect buf = some t) :
    t.pcTab = s.pcTab ∧ t.sizes = s.sizes ∧ t.devlist = s.devlist ∧ t.pcClock = s.pcClock ∧
      t.pcDirty = s.pcDirty ∧ devmgrGetGeneration s d ≠ 0 ∧
      (expected ≠ 0 → expected = devmgrGetGeneration s d) ∧
      ∀ d' g b, t.media d' g b = if d' = d ∧ g = devmgrGetGeneration s d then
          memcpy (s.media d g) (lba * transferUnit s d) buf 0 (nsect * transferUnit s d) b
        else s.media d' g b := by
  unfold pcDevWrite at transfer
  cases opened : pcDevOpen s d expected with
  | none => simp [opened] at transfer
  | some desc =>
    obtain ⟨live, nonzero, same⟩ := pcDevOpen_some opened
    have generation : devmgrGetGeneration s d = desc.generation := by
      simp [devmgrGetGeneration, live]
    simp only [opened] at transfer
    split at transfer
    · cases transfer
      refine ⟨rfl, rfl, rfl, rfl, rfl, by rw [generation]; exact nonzero,
        by rw [generation]; exact same, fun d' g b => ?_⟩
      rw [generation]
      by_cases here : d' = d
      · subst here
        by_cases now : g = desc.generation
        · subst now
          simp
        · simp [now]
      · simp [here]
    · cases transfer

theorem lookup_congr (tab : t.pcTab = s.pcTab) (devlist : t.devlist = s.devlist) (d : Int)
    (pg : Nat) : pcLookup t d pg = pcLookup s d pg := by
  simp only [pcLookup, keyMatches, devmgrGetGeneration, devmgrGetdeviceRef, tab, devlist]

theorem hits_congr (tab : t.pcTab = s.pcTab) (devlist : t.devlist = s.devlist) (d : Int)
    (pg : Nat) (j : Slot) : Hits t d pg j ↔ Hits s d pg j := by
  simp only [Hits, keyMatches, devmgrGetGeneration, devmgrGetdeviceRef, tab, devlist]

theorem storeOf_devWrite {lba nsect : Nat} {buf : Buf}
    (transfer : pcDevWrite s d expected lba nsect buf = some t) :
    storeOf t = (storeOf s).direct (rangeKeys d (lba * transferUnit s d) (nsect * transferUnit s d))
      fun k => buf (k.2 - lba * transferUnit s d) := by
  obtain ⟨tab, _, devlist, _, _, _, _, media⟩ := pcDevWrite_some transfer
  have generation : ∀ d', devmgrGetGeneration t d' = devmgrGetGeneration s d' := by
    intro d'
    simp only [devmgrGetGeneration, devmgrGetdeviceRef, devlist]
  ext1
  · funext k
    simp only [storeOf, Store.direct, lookup_congr tab devlist, tab]
  funext k
  obtain ⟨d', b⟩ := k
  simp only [storeOf, Store.direct, generation, media]
  by_cases here : d' = d
  · subst here
    simp only [and_self, if_true, memcpy, rangeKeys, Set.mem_ofPred_eq, true_and]
    split <;> simp_all
  · have outside : (d', b) ∉ rangeKeys d (lba * transferUnit s d) (nsect * transferUnit s d) :=
      fun member => here member.1
    simp only [here, false_and, if_false, outside]

theorem slotKeys_dead
    (dead : blkcacheDeviceKeyIsCurrent (s.pcTab j).deviceGeneration
      (devmgrGetGeneration s (s.pcTab j).deviceid) = false) : slotKeys s j = ∅ := by
  ext k
  simp only [slotKeys, Set.mem_ofPred_eq, Set.mem_empty_iff_false, iff_false]
  intro hit
  simp only [Hits, keyMatches, Bool.and_eq_true, beq_iff_eq] at hit
  rw [← hit.1.1.2, dead] at hit
  exact absurd hit.1.2 (by simp)

/-- What one turn of the flush loop keeps. -/
structure FlushMove (s t : State) (i : Slot) : Prop where
  devlist : t.devlist = s.devlist
  sizes : SizesOk t
  uniq : Uniq t
  coherent : (storeOf s).Coherent → (storeOf t).Coherent
  logical : (storeOf t).logical = (storeOf s).logical
  others : ∀ j, j ≠ i → t.pcTab j = s.pcTab j

theorem pageKeys_range (d : Int) (pg : Nat) :
    rangeKeys d (pg * pcSize) pcSize = pageKeys d pg := by
  ext ⟨d', b⟩
  simp only [rangeKeys, pageKeys, Set.mem_ofPred_eq]
  constructor
  · rintro ⟨same, low, high⟩
    refine ⟨same, Nat.div_eq_of_lt_le (by omega) ?_⟩
    rw [Nat.add_mul]
    omega
  rintro ⟨same, rfl⟩
  have split := Nat.div_add_mod b pcSize
  have inside := Nat.mod_lt b pcSize_pos
  rw [Nat.mul_comm] at split
  exact ⟨same, by omega, by omega⟩

theorem flushMove_of_same (same : SameLines s t) (tab : t.pcTab = s.pcTab) (sizes : SizesOk s)
    (uniq : Uniq s) (i : Slot) : FlushMove s t i :=
  ⟨same.devlist, same.sizes sizes, same.uniq uniq, by rw [same.storeOf_eq]; exact id,
    by rw [same.storeOf_eq], fun j _ => by rw [tab]⟩

variable {i : Slot} {snap : Snap}

theorem flushSnapshot_some (taken : flushSnapshot s i = some snap) :
    ((s.pcTab i).dirty = true ∧ (s.pcTab i).uptodate = true) ∧
      snap = ⟨i, (s.pcTab i).deviceid, (s.pcTab i).index, (s.pcTab i).generation,
        (s.pcTab i).deviceGeneration, (s.pcTab i).data⟩ := by
  dsimp only [flushSnapshot] at taken
  split at taken
  · rename_i flags
    cases taken
    exact ⟨by simpa using flags, rfl⟩
  · cases taken

theorem pcBsize_tab (s : State) (d : Int) : (pcBsize s d).2.pcTab = s.pcTab := by
  unfold pcBsize
  split
  · rfl
  · split <;> rfl

theorem flushStale_move (sizes : SizesOk s) (uniq : Uniq s)
    (device : (s.pcTab snap.slot).deviceid = snap.dev)
    (generation : (s.pcTab snap.slot).deviceGeneration = snap.deviceGeneration)
    (dead : snapLive s snap = false) : FlushMove s (flushStale s snap) snap.slot := by
  dsimp only [flushStale]
  split
  · have empty : slotKeys s snap.slot = ∅ := by
      apply slotKeys_dead
      rw [device, generation]
      exact dead
    have killed := storeOf_kill uniq (j := snap.slot)
      (p := { s.pcTab snap.slot with uptodate := false, dirty := false, deviceid := -1 })
      (mute_of_flags rfl)
    have kept : storeOf (setLine s snap.slot
        { s.pcTab snap.slot with uptodate := false, dirty := false, deviceid := -1 }) =
        storeOf s := by
      rw [killed, empty]
      simp [Store.drop]
    refine ⟨rfl, ⟨sizes.stamped, sizes.unit⟩, kill_uniq uniq (j := snap.slot) (p := _)
      (mute_of_flags rfl),
      fun coherent => ?_, ?_, fun j other => by simp [Function.update_of_ne other]⟩
    · exact kept.symm ▸ coherent
    · exact congrArg Store.logical kept
  · exact flushMove_of_same (SameLines.refl s) rfl sizes uniq _

/-- Writing a current line back and completing it cleans its page. -/
theorem flushComplete_move (sizes : SizesOk s) (uniq : Uniq s)
    (taken : flushSnapshot s i = some snap) (live : snapLive s snap = true)
    (transfer : flushTransfer s snap = (true, t)) :
    FlushMove s (flushComplete t snap) i ∧ ((flushComplete t snap).pcTab i).dirty = false := by
  have same := sameLines_bsize s snap.dev
  have unit : (pcBsize s snap.dev).1 = transferUnit s snap.dev := pcBsize_unit sizes snap.dev
  have whole : pcSize / transferUnit s snap.dev * transferUnit s snap.dev = pcSize :=
    blockUnit_page _
  unfold flushTransfer at transfer
  simp only [unit] at transfer
  split at transfer
  · simp at transfer
  rename_i u written
  simp only [Prod.mk.injEq, true_and] at transfer
  subst transfer
  obtain ⟨flags, rfl⟩ := flushSnapshot_some taken
  obtain ⟨tab, table, devlist, _, _, _, _, _⟩ := pcDevWrite_some written
  have direct := storeOf_devWrite written
  rw [same.unit, Nat.mul_assoc, whole, pageKeys_range, same.storeOf_eq] at direct
  have tab' : u.pcTab = s.pcTab := tab.trans (pcBsize_tab s _)
  have devlist' : u.devlist = s.devlist := devlist.trans same.devlist
  have sizes' : SizesOk u := by
    have sized := same.sizes sizes
    refine ⟨by rw [table]; exact sized.stamped, fun d desc registered => ?_⟩
    rw [table]
    refine sized.unit d desc ?_
    simpa only [devmgrGetdeviceRef, devlist] using registered
  have uniq' : Uniq u := by
    intro d pg a b ha hb
    exact uniq d pg a b ((hits_congr tab' devlist' d pg a).mp ha)
      ((hits_congr tab' devlist' d pg b).mp hb)
  have hit : Hits s (s.pcTab i).deviceid (s.pcTab i).index i := by
    simp only [snapLive, blkcacheDeviceKeyIsCurrent, Bool.and_eq_true, bne_iff_ne, ne_eq,
      beq_iff_eq] at live
    rw [hits_iff]
    exact ⟨flags.2, rfl, rfl, live.1, live.2⟩
  have hit' := (hits_congr tab' devlist' _ _ i).mpr hit
  have complete : flushComplete u ⟨i, (s.pcTab i).deviceid, (s.pcTab i).index,
      (s.pcTab i).generation, (s.pcTab i).deviceGeneration, (s.pcTab i).data⟩ =
      { setLine u i { u.pcTab i with dirty := false } with pcDirty := decDirty u.pcDirty } := by
    unfold flushComplete
    rw [if_pos (by simp [completes, blkcacheWritebackIsCurrent, tab', flags.1])]
    rfl
  rw [complete]
  have key : keyMatches u (s.pcTab i).deviceid (s.pcTab i).index
      { u.pcTab i with dirty := false } = true := hit'
  have free := free_of_hits uniq' hit'
  have cleaned : storeOf (setLine u i { u.pcTab i with dirty := false }) =
      (storeOf s).clean (pageKeys (s.pcTab i).deviceid (s.pcTab i).index) := by
    ext1
    · funext k
      rw [storeOf_setLine uniq' free key, direct]
      by_cases here : k.1 = (s.pcTab i).deviceid ∧ k.2 / pcSize = (s.pcTab i).index
      · have member : k ∈ pageKeys (s.pcTab i).deviceid (s.pcTab i).index := here
        have line := storeOf_hits uniq (d := k.1) (b := k.2) (j := i) (by
          rw [here.1, here.2]
          exact hit)
        simp only [here, and_self, if_true, Store.clean, member, tab']
        rw [line]
        rfl
      · have outside : k ∉ pageKeys (s.pcTab i).deviceid (s.pcTab i).index := here
        simp only [here, if_false, Store.clean, outside, Store.direct]
    · funext k
      rw [storeOf_setLine_back, direct]
      by_cases here : k ∈ pageKeys (s.pcTab i).deviceid (s.pcTab i).index
      · have line := storeOf_hits uniq (d := k.1) (b := k.2) (j := i) (by
          rw [here.1, here.2]
          exact hit)
        have offset : k.2 - (s.pcTab i).index * pcSize = k.2 % pcSize := by
          have split := Nat.div_add_mod k.2 pcSize
          rw [here.2, Nat.mul_comm] at split
          omega
        simp only [Store.direct, Store.clean, here, if_true, offset]
        exact (Store.logical_of_line line).symm
      · simp only [Store.direct, Store.clean, here, if_false]
  refine ⟨⟨devlist', ⟨sizes'.stamped, sizes'.unit⟩, setLine_uniq uniq' free key,
    fun coherent => ?_, ?_, fun j other => ?_⟩, by simp [setLine]⟩
  · exact cleaned.symm ▸ Store.clean_coherent coherent _
  · exact (congrArg Store.logical cleaned).trans (Store.clean_logical _ _)
  · simp [setLine, Function.update_of_ne other, tab']

theorem FlushMove.after {u : State} (first : SameLines s t) (tab : t.pcTab = s.pcTab)
    (second : FlushMove t u i) : FlushMove s u i :=
  ⟨second.devlist.trans first.devlist, second.sizes, second.uniq,
    by rw [← first.storeOf_eq]; exact second.coherent,
    by rw [← first.storeOf_eq]; exact second.logical,
    fun j other => by rw [second.others j other, tab]⟩

/-- Nothing to do, a dead generation, a failed transfer, or a completed write-back. -/
theorem flushSlot_cases (s : State) (i : Slot) :
    (flushSnapshot s i = none ∧ flushSlot s i = (true, s)) ∨
    ∃ snap, flushSnapshot s i = some snap ∧ ((snapLive (pcRememberBsize s snap.dev) snap = false ∧
          flushSlot s i = (false, flushStale (pcRememberBsize s snap.dev) snap)) ∨
        (snapLive (pcRememberBsize s snap.dev) snap = true ∧
          ∃ ok t, flushTransfer (pcRememberBsize s snap.dev) snap = (ok, t) ∧
            flushSlot s i = (ok, if ok then flushComplete t snap else t))) := by
  cases taken : flushSnapshot s i with
  | none => exact .inl ⟨rfl, by simp only [flushSlot, taken]⟩
  | some snap =>
    refine .inr ⟨snap, rfl, ?_⟩
    cases live : snapLive (pcRememberBsize s snap.dev) snap with
    | false => exact .inl ⟨rfl, by simp [flushSlot, taken, live]⟩
    | true =>
      rcases transfer : flushTransfer (pcRememberBsize s snap.dev) snap with ⟨ok, t⟩
      refine .inr ⟨rfl, ok, t, rfl, ?_⟩
      cases ok <;> simp [flushSlot, taken, live, transfer]

theorem flushTransfer_failed (transfer : flushTransfer s snap = (false, t)) :
    SameLines s t ∧ t.pcTab = s.pcTab := by
  simp only [flushTransfer] at transfer
  split at transfer
  · cases transfer
    exact ⟨sameLines_bsize _ _, pcBsize_tab _ _⟩
  · simp at transfer

theorem flushSlot_move {ok : Bool} (sizes : SizesOk s) (uniq : Uniq s)
    (turn : flushSlot s i = (ok, t)) :
    FlushMove s t i ∧ (ok = true → ¬((t.pcTab i).dirty = true ∧ (t.pcTab i).uptodate = true)) := by
  obtain ⟨idle, result⟩ | ⟨snap, taken, ending⟩ := flushSlot_cases s i
  · rw [turn, Prod.mk.injEq] at result
    obtain ⟨rfl, rfl⟩ := result
    refine ⟨flushMove_of_same (SameLines.refl t) rfl sizes uniq i, fun _ flags => ?_⟩
    simp [flushSnapshot, flags] at idle
  have remembered := sameLines_remember s snap.dev
  have sizes' := remembered.sizes sizes
  have uniq' := remembered.uniq uniq
  have taken' : flushSnapshot (pcRememberBsize s snap.dev) i = some snap := taken
  obtain ⟨dead, result⟩ | ⟨live, moved, u, transfer, result⟩ := ending
  · rw [turn, Prod.mk.injEq] at result
    obtain ⟨rfl, rfl⟩ := result
    obtain ⟨_, copied⟩ := flushSnapshot_some taken
    have device : (s.pcTab snap.slot).deviceid = snap.dev := by rw [copied]
    have generation : (s.pcTab snap.slot).deviceGeneration = snap.deviceGeneration := by rw [copied]
    have slot : snap.slot = i := by rw [copied]
    have stale := flushStale_move sizes' uniq' device generation dead
    rw [slot] at stale
    exact ⟨FlushMove.after remembered rfl stale, by simp⟩
  · rw [turn, Prod.mk.injEq] at result
    obtain ⟨rfl, rfl⟩ := result
    cases ok with
    | false =>
      obtain ⟨same, tab⟩ := flushTransfer_failed transfer
      exact ⟨FlushMove.after remembered rfl (flushMove_of_same same tab sizes' uniq' i), by simp⟩
    | true =>
      obtain ⟨move, undirty⟩ := flushComplete_move sizes' uniq' taken' live transfer
      exact ⟨FlushMove.after remembered rfl move, fun _ flags => by simp [undirty] at flags⟩

/-- What a whole flush keeps, and what its success says. -/
structure FlushRun (s t : State) : Prop where
  devlist : t.devlist = s.devlist
  sizes : SizesOk t
  uniq : Uniq t
  coherent : (storeOf s).Coherent → (storeOf t).Coherent
  logical : (storeOf t).logical = (storeOf s).logical

theorem flushLoop_run (slots : List Slot) (sizes : SizesOk s) (uniq : Uniq s) :
    FlushRun s (flushLoop slots s).2 ∧
    (∀ j ∉ slots, (flushLoop slots s).2.pcTab j = s.pcTab j) ∧
    (slots.Nodup → (flushLoop slots s).1 = true → ∀ j ∈ slots,
      ¬(((flushLoop slots s).2.pcTab j).dirty = true ∧
        ((flushLoop slots s).2.pcTab j).uptodate = true)) := by
  induction slots generalizing s with
  | nil => exact ⟨⟨rfl, sizes, uniq, id, rfl⟩, fun _ _ => rfl,
      fun _ _ j member => by simp at member⟩
  | cons i rest ih =>
    rw [flushLoop]
    rcases turn : flushSlot s i with ⟨ok, t⟩
    obtain ⟨move, undirty⟩ := flushSlot_move sizes uniq turn
    cases ok with
    | false =>
      refine ⟨⟨move.devlist, move.sizes, move.uniq, move.coherent, move.logical⟩,
        fun j away => move.others j ?_, by simp⟩
      rintro rfl
      exact away (List.mem_cons_self ..)
    | true =>
      obtain ⟨run, others, done⟩ := ih move.sizes move.uniq
      refine ⟨⟨run.devlist.trans move.devlist, run.sizes, run.uniq,
        run.coherent ∘ move.coherent, run.logical.trans move.logical⟩,
        fun j away => ?_, fun nodup ok j member => ?_⟩
      · rw [List.mem_cons, not_or] at away
        rw [others j away.2, move.others j away.1]
      rw [List.nodup_cons] at nodup
      rcases List.mem_cons.mp member with rfl | later
      · rw [others j nodup.1]
        exact undirty rfl
      · exact done nodup.2 ok j later

theorem flush_back (sizes : SizesOk s) (uniq : Uniq s) (coherent : (storeOf s).Coherent)
    (flushed : blkcacheFlush s = (true, t)) : (storeOf t).back = (storeOf s).logical := by
  obtain ⟨run, _, undirty⟩ := flushLoop_run (List.finRange pcNPages) sizes uniq
  change flushLoop (List.finRange pcNPages) s = (true, t) at flushed
  rw [flushed] at run undirty
  funext k
  rw [← run.logical, (run.coherent coherent).back_eq]
  intro v held
  simp only [storeOf, Option.map_eq_some_iff, Prod.mk.injEq] at held
  obtain ⟨j, found, _, dirty⟩ := held
  have hit := pcLookup_hits found
  rw [hits_iff] at hit
  exact undirty (List.nodup_finRange _) rfl j (List.mem_finRange j) ⟨dirty, hit.1⟩

end

theorem invalidateSlot_keeps (sizes : SizesOk s) (uniq : Uniq s) (coherent : (storeOf s).Coherent)
    (d : Int) (n : Nat) (i : Slot) :
    (invalidateSlot d (s, n) i).1.devlist = s.devlist ∧
    SizesOk (invalidateSlot d (s, n) i).1 ∧ Uniq (invalidateSlot d (s, n) i).1 ∧
      (storeOf (invalidateSlot d (s, n) i).1).Coherent := by
  dsimp only [invalidateSlot]
  split
  · have killed := storeOf_kill uniq (j := i)
      (p := { s.pcTab i with uptodate := false, dirty := false, deviceid := -1 })
      (mute_of_flags rfl)
    refine ⟨rfl, ⟨sizes.stamped, sizes.unit⟩, kill_uniq uniq (j := i) (p := _)
      (mute_of_flags rfl), ?_⟩
    exact killed.symm ▸ Store.drop_coherent coherent _
  · exact ⟨rfl, sizes, uniq, coherent⟩

theorem invalidate_keeps (sizes : SizesOk s) (uniq : Uniq s) (coherent : (storeOf s).Coherent)
    (d : Int) :
    (blkcacheInvalidateDevice s d).1.devlist = s.devlist ∧
    SizesOk (blkcacheInvalidateDevice s d).1 ∧ Uniq (blkcacheInvalidateDevice s d).1 ∧
      (storeOf (blkcacheInvalidateDevice s d).1).Coherent := by
  unfold blkcacheInvalidateDevice
  generalize List.finRange pcNPages = slots
  generalize (0 : Nat) = n
  induction slots generalizing s n with
  | nil => exact ⟨rfl, sizes, uniq, coherent⟩
  | cons i rest ih =>
    obtain ⟨devlist, sizes', uniq', coherent'⟩ :=
      invalidateSlot_keeps sizes uniq coherent d n i
    obtain ⟨devlist', rest'⟩ := ih sizes' uniq' coherent' _
    exact ⟨devlist'.trans devlist, rest'⟩

end IcsOs.BlkCache.WritePath
