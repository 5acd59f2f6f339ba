/- GID: IcsOs/Fat/RoundTrip
   generality: I
   source: kernel/filesystem/fat12.c
   digest: What is read back from a file after a range of it was written. -/

import IcsOs.Fat.Files

set_option autoImplicit false

namespace IcsOs.Fat.RoundTrip

open Fat.Table Fat.Files Lib.Overlay

variable {endblock : Nat}

section Reading

variable {bpb : Bpb} {chain : List Nat} {disk base buf : Nat → Byte}
  {start end_ first block runLba run peek c : Nat}

theorem nextCluster_cached (bpb : Bpb) (disk : Nat → Byte) (c : Nat) :
    nextCluster bpb (fatFor bpb disk) disk c = nextCluster bpb none disk c := by
  unfold nextCluster fatFor
  split_ifs
  · rfl
  · rfl

/-- Blocks whose clusters lie side by side from a sector on. -/
structure Run (bpb : Bpb) (chain : List Nat) (endblock block runLba run : Nat) : Prop where
  nonempty : 0 < run
  within : block + run ≤ endblock + 1
  place : ∀ k, k < run → ∃ c, chain[block + k]? = some c ∧
    clustertoblock bpb c = runLba + k * bpb.sectorsPerCluster

theorem run_single (bpb : Bpb) (there : chain[block]? = some c) (last : block ≤ endblock) :
    Run bpb chain endblock block (clustertoblock bpb c) 1 := by
  refine ⟨by omega, by omega, ?_⟩
  intro k small
  obtain rfl : k = 0 := by omega
  exact ⟨c, there, by rw [Nat.zero_mul, Nat.add_zero]⟩

/-- At most 64 sectors or one cluster, within the loop's buffer, of the file's sectors. -/
structure Proper (bpb : Bpb) (chain : List Nat) (request : Nat × Nat) : Prop where
  short : request.2 ≤ 64 ∨ request.2 = bpb.sectorsPerCluster
  fits : request.2 * 512 ≤ max (64 / bpb.sectorsPerCluster) 1 * bytesPerCluster bpb
  own : ∀ sector, request.1 ≤ sector → sector < request.1 + request.2 →
    ∃ c ∈ chain, clustertoblock bpb c ≤ sector ∧
      sector < clustertoblock bpb c + bpb.sectorsPerCluster

theorem Run.proper (geometry : Geometry bpb)
    (aligned : Run bpb chain endblock block runLba run)
    (few : run ≤ max (64 / bpb.sectorsPerCluster) 1) :
    Proper bpb chain (runLba, run * bpb.sectorsPerCluster) := by
  have spc := geometry.spc
  refine ⟨?_, ?_, ?_⟩
  · by_cases small : 1 ≤ 64 / bpb.sectorsPerCluster
    · left
      rw [Nat.max_eq_left small] at few
      exact Nat.le_trans (Nat.mul_le_mul_right _ few) (Nat.div_mul_le_self 64 _)
    · right
      have some_ := aligned.nonempty
      obtain rfl : run = 1 := by omega
      exact Nat.one_mul _
  · unfold bytesPerCluster
    rw [Nat.mul_assoc]
    exact Nat.mul_le_mul_right _ few
  · intro sector from_ below
    have index : (sector - runLba) / bpb.sectorsPerCluster < run :=
      (Nat.div_lt_iff_lt_mul spc).2 (by omega)
    obtain ⟨c, there, place⟩ := aligned.place _ index
    refine ⟨c, List.mem_of_getElem? there, ?_, ?_⟩
    · have part := Nat.div_mul_le_self (sector - runLba) bpb.sectorsPerCluster
      omega
    · have part := Nat.lt_div_mul_add spc (a := sector - runLba)
      omega

/-- A read of sectors of the first table. -/
def InTable (bpb : Bpb) (request : Nat × Nat) : Prop :=
  bpb.numBootSectors ≤ request.1 ∧
    request.1 + request.2 ≤ bpb.numBootSectors + fatSectorsPerFat bpb

theorem entryReads_inTable (geometry : Geometry bpb) (disk : Nat → Byte)
    (inside : c < fatClusterCount bpb + 2) :
    ∀ r ∈ entryReads bpb (fatFor bpb disk) c, InTable bpb r := by
  intro r member
  have entry := geometry.table c inside
  unfold entryReads fatFor at member
  by_cases type : fatGetFatType bpb = .fat32
  · obtain rfl : r = (bpb.numBootSectors + c / 128, 1) := by simpa [type] using member
    rw [type] at entry
    unfold InTable
    dsimp only [entryEnd] at entry ⊢
    omega
  · simp [type] at member

theorem tableReads_inTable (bpb : Bpb) : ∀ r ∈ tableReads bpb, InTable bpb r := by
  intro r member
  unfold tableReads at member
  split_ifs at member
  · cases member
  · obtain ⟨k, inside, rfl⟩ := List.mem_map.1 member
    have few := List.mem_range.1 inside
    unfold InTable
    dsimp only
    omega

/-- The reads are of the table or proper, and those from a block on cover the range. -/
structure Reads (bpb : Bpb) (chain : List Nat) (start end_ block : Nat)
    (reads : List (Nat × Nat)) : Prop where
  allowed : ∀ r ∈ reads, InTable bpb r ∨ Proper bpb chain r
  covered : ∀ k c, block ≤ k → start / bytesPerCluster bpb ≤ k → k ≤ end_ / bytesPerCluster bpb →
    chain[k]? = some c → ∃ r ∈ reads, r.1 ≤ clustertoblock bpb c ∧
      clustertoblock bpb c + bpb.sectorsPerCluster ≤ r.1 + r.2

/-- Reads of the table may come before. -/
theorem Reads.after_table {reads tables : List (Nat × Nat)}
    (sound : Reads bpb chain start end_ block reads) (own : ∀ r ∈ tables, InTable bpb r) :
    Reads bpb chain start end_ block (tables ++ reads) where
  allowed := fun r member =>
    (List.mem_append.1 member).elim (fun table => .inl (own r table)) (sound.allowed r)
  covered := fun k c low begun high there => by
    obtain ⟨r, member, covers⟩ := sound.covered k c low begun high there
    exact ⟨r, List.mem_append_right _ member, covers⟩

/-- The read of a run covers its blocks. -/
theorem Run.reads {reads tables : List (Nat × Nat)}
    (aligned : Run bpb chain endblock block runLba run)
    (own : Proper bpb chain (runLba, run * bpb.sectorsPerCluster))
    (walked : ∀ r ∈ tables, InTable bpb r) (rest : Reads bpb chain start end_ (block + run) reads) :
    Reads bpb chain start end_ block
      (tables ++ (runLba, run * bpb.sectorsPerCluster) :: reads) := by
  refine Reads.after_table ⟨fun r member => ?_, fun k c low begun high there => ?_⟩ walked
  · rcases List.mem_cons.1 member with rfl | later
    · exact .inr own
    · exact rest.allowed r later
  · by_cases inRun : k < block + run
    · obtain ⟨c', there', place⟩ := aligned.place (k - block) (by omega)
      rw [Nat.add_sub_cancel' low, there] at there'
      cases there'
      have part := Nat.mul_le_mul_right bpb.sectorsPerCluster (show k - block + 1 ≤ run by omega)
      rw [Nat.add_mul, Nat.one_mul] at part
      exact ⟨_, List.mem_cons_self, by dsimp only; omega, by dsimp only; omega⟩
    · obtain ⟨r, member, covers⟩ := rest.covered k c (by omega) begun high there
      exact ⟨r, List.mem_cons_of_mem _ member, covers⟩

/-- A run that is grown stays one, its last cluster is known, and only the table is read. -/
theorem growRun_spec (geometry : Geometry bpb) (isChain : Chain bpb disk first chain)
    (room : Nat) :
    ∀ peek run, Run bpb chain endblock block runLba run → chain[block + run - 1]? = some peek →
      ∃ peek' run' reads, growRun bpb (fatFor bpb disk) disk runLba endblock block room peek run =
          (peek', run', reads) ∧
        Run bpb chain endblock block runLba run' ∧ chain[block + run' - 1]? = some peek' ∧
        run' ≤ run + room ∧ ∀ r ∈ reads, InTable bpb r := by
  induction room with
  | zero =>
    intro peek run grown there
    exact ⟨peek, run, [], rfl, grown, there, Nat.le_refl _, fun r member => (nomatch member)⟩
  | succ room step =>
    intro peek run grown there
    have entry := entryReads_inTable geometry disk (isChain.inside _ _ there).2
    have stays : ∃ peek' run' reads,
        ((peek, run, entryReads bpb (fatFor bpb disk) peek) : Nat × Nat × List (Nat × Nat)) =
          (peek', run', reads) ∧
        Run bpb chain endblock block runLba run' ∧ chain[block + run' - 1]? = some peek' ∧
        run' ≤ run + (room + 1) ∧ ∀ r ∈ reads, InTable bpb r :=
      ⟨peek, run, _, rfl, grown, there, Nat.le_add_right _ _, entry⟩
    unfold growRun
    rw [nextCluster_cached]
    dsimp only
    split_ifs with past beyond apart
    · exact stays
    · exact stays
    · exact stays
    -- the next cluster exists, since its number is no end mark
    have some_ := grown.nonempty
    have index : block + run - 1 + 1 = block + run := by omega
    obtain ⟨c', there'⟩ : ∃ c', chain[block + run]? = some c' := by
      cases found : chain[block + run]? with
      | some c' => exact ⟨c', rfl⟩
      | none => exact absurd (isChain.last _ _ there (index ▸ found)) past
    have next := isChain.link _ _ _ there (index ▸ there')
    rw [next] at apart ⊢
    have longer : Run bpb chain endblock block runLba (run + 1) := by
      refine ⟨by omega, by omega, fun k inside => ?_⟩
      by_cases old : k < run
      · exact grown.place k old
      · obtain rfl : k = run := by omega
        exact ⟨c', there', not_not.1 apart⟩
    obtain ⟨peek', run', reads, grew, aligned, atPeek, short, own⟩ :=
      step c' (run + 1) longer there'
    rw [grew]
    refine ⟨peek', run', _, rfl, aligned, atPeek, by omega, fun r member => ?_⟩
    exact (List.mem_append.1 member).elim (entry r) (own r)

theorem Run.byte (disk : Nat → Byte) (geometry : Geometry bpb)
    (aligned : Run bpb chain endblock block runLba run) {j : Nat}
    (inside : j < run * bytesPerCluster bpb) :
    disk (runLba * 512 + j) = fileView bpb chain disk (block * bytesPerCluster bpb + j) := by
  have pos := bytesPerCluster_pos geometry
  have small : j / bytesPerCluster bpb < run := (Nat.div_lt_iff_lt_mul pos).2 inside
  obtain ⟨c, there, place⟩ := aligned.place _ small
  have split : j / bytesPerCluster bpb * bytesPerCluster bpb + j % bytesPerCluster bpb = j := by
    rw [Nat.mul_comm]
    exact Nat.div_add_mod j (bytesPerCluster bpb)
  have position : block * bytesPerCluster bpb + j =
      (block + j / bytesPerCluster bpb) * bytesPerCluster bpb + j % bytesPerCluster bpb := by
    rw [Nat.add_mul]
    omega
  have address : clusterAddr bpb c =
      runLba * 512 + j / bytesPerCluster bpb * bytesPerCluster bpb := by
    unfold clusterAddr
    rw [place, Nat.add_mul, Nat.mul_assoc]
    rfl
  unfold fileView
  rw [position, fileAddr_block geometry there (Nat.mod_lt j pos), address]
  refine congrArg disk ?_
  omega

/-- The range up to a block is copied, and behind it is what the caller had. -/
def Held (bpb : Bpb) (chain : List Nat) (disk : Nat → Byte) (start end_ block : Nat)
    (base buf : Nat → Byte) : Prop :=
  buf = overlay base 0
    (slice (fileView bpb chain disk) start (reach (bytesPerCluster bpb) start end_ block - start))

theorem copyRun_spec (geometry : Geometry bpb) (ordered : start ≤ end_)
    (aligned : Run bpb chain (end_ / bytesPerCluster bpb) block runLba run)
    (begun : start / bytesPerCluster bpb ≤ block) :
    ∀ n k buf, k + n ≤ run → Held bpb chain disk start end_ (block + k) base buf →
      ∃ buf', copyRun (bytesPerCluster bpb) start end_ (fun i => disk (runLba * 512 + i)) block
          (List.range' k n) (buf, reach (bytesPerCluster bpb) start end_ (block + k) - start) =
          (buf', reach (bytesPerCluster bpb) start end_ (block + (k + n)) - start) ∧
        Held bpb chain disk start end_ (block + (k + n)) base buf' := by
  have pos := bytesPerCluster_pos geometry
  have within := aligned.within
  intro n
  induction n with
  | zero =>
    intro k buf _ held
    exact ⟨buf, rfl, held⟩
  | succ n step =>
    intro k buf inside held
    have first : start / bytesPerCluster bpb ≤ block + k := by omega
    have last : block + k ≤ end_ / bytesPerCluster bpb := by omega
    have bounds := reach_le pos ordered first last
    have blocks : (block + k) * bytesPerCluster bpb =
        block * bytesPerCluster bpb + k * bytesPerCluster bpb := Nat.add_mul _ _ _
    have room : k * bytesPerCluster bpb + bytesPerCluster bpb ≤ run * bytesPerCluster bpb := by
      rw [← Nat.succ_mul]
      exact Nat.mul_le_mul_right _ (by omega)
    have copied : slice (fun i => disk (runLba * 512 + i)) (k * bytesPerCluster bpb +
          (reach (bytesPerCluster bpb) start end_ (block + k) - (block + k) * bytesPerCluster bpb))
        (reach (bytesPerCluster bpb) start end_ (block + k + 1) -
          reach (bytesPerCluster bpb) start end_ (block + k)) =
        slice (fileView bpb chain disk)
          (start + (reach (bytesPerCluster bpb) start end_ (block + k) - start))
          (reach (bytesPerCluster bpb) start end_ (block + k + 1) -
            reach (bytesPerCluster bpb) start end_ (block + k)) := by
      refine slice_eq_of fun j small => ?_
      rw [aligned.byte disk geometry (by omega)]
      refine congrArg _ ?_
      omega
    have sum : reach (bytesPerCluster bpb) start end_ (block + k) - start +
        (reach (bytesPerCluster bpb) start end_ (block + k + 1) -
          reach (bytesPerCluster bpb) start end_ (block + k)) =
        reach (bytesPerCluster bpb) start end_ (block + (k + 1)) - start := by
      rw [← Nat.add_assoc block k 1]
      omega
    have held' := overlay_extend held copied
    rw [sum] at held'
    obtain ⟨buf', done, held''⟩ := step (k + 1) _ (by omega) held'
    rw [List.range'_succ]
    unfold copyRun
    rw [part_eq pos ordered first last rfl]
    dsimp only
    rw [sum, done]
    have index : k + 1 + n = k + (n + 1) := by omega
    rw [index] at held'' ⊢
    exact ⟨buf', rfl, held''⟩

/-- A round that reads fills the buffer up to the end of its run. -/
theorem readRun_spec (geometry : Geometry bpb) (ordered : start ≤ end_)
    (aligned : Run bpb chain (end_ / bytesPerCluster bpb) block runLba run)
    (begun : start / bytesPerCluster bpb ≤ block)
    (held : Held bpb chain disk start end_ block base buf) :
    ∃ buf', readRun bpb start end_ disk runLba run block buf
        (reach (bytesPerCluster bpb) start end_ block - start) =
        (buf', reach (bytesPerCluster bpb) start end_ (block + run) - start) ∧
      Held bpb chain disk start end_ (block + run) base buf' := by
  have pos := bytesPerCluster_pos geometry
  unfold readRun
  dsimp only
  split_ifs with direct
  · have some_ := aligned.nonempty
    have low : start < block * bytesPerCluster bpb := (Nat.div_lt_iff_lt_mul pos).1 direct.1
    have high : (block + run) * bytesPerCluster bpb ≤ end_ :=
      (Nat.le_div_iff_mul_le pos).1 (by omega)
    rw [Nat.add_mul] at high
    have here : reach (bytesPerCluster bpb) start end_ block = block * bytesPerCluster bpb := by
      unfold reach
      omega
    have there : reach (bytesPerCluster bpb) start end_ (block + run) =
        block * bytesPerCluster bpb + run * bytesPerCluster bpb := by
      unfold reach
      rw [Nat.add_mul]
      omega
    have copied : slice disk (runLba * 512) (run * bytesPerCluster bpb) =
        slice (fileView bpb chain disk)
          (start + (reach (bytesPerCluster bpb) start end_ block - start))
          (run * bytesPerCluster bpb) := by
      refine slice_eq_of fun j small => ?_
      rw [aligned.byte disk geometry small, here]
      refine congrArg _ ?_
      omega
    have held' := overlay_extend held copied
    have sum : reach (bytesPerCluster bpb) start end_ block - start + run * bytesPerCluster bpb =
        reach (bytesPerCluster bpb) start end_ (block + run) - start := by omega
    rw [sum] at held' ⊢
    exact ⟨_, rfl, held'⟩
  · obtain ⟨buf', done, held'⟩ := copyRun_spec geometry ordered aligned begun run 0 buf (by omega)
      held
    rw [Nat.zero_add] at done held'
    rw [List.range_eq_range']
    exact ⟨buf', done, held'⟩

theorem readLoop_spec (geometry : Geometry bpb) (isChain : Chain bpb disk first chain)
    (ordered : start ≤ end_) (inside : end_ / bytesPerCluster bpb < chain.length) (rounds : Nat) :
    ∀ block c buf, end_ / bytesPerCluster bpb < block + rounds →
      block ≤ end_ / bytesPerCluster bpb → chain[block]? = some c →
      Held bpb chain disk start end_ block base buf →
      ∃ reads, readLoop bpb start end_ (fatFor bpb disk) disk rounds c block buf
          (reach (bytesPerCluster bpb) start end_ block - start) =
        (overlay base 0 (slice (fileView bpb chain disk) start (end_ + 1 - start)), reads) ∧
        Reads bpb chain start end_ block reads := by
  have pos := bytesPerCluster_pos geometry
  induction rounds with
  | zero =>
    intro block c buf enough last
    omega
  | succ rounds step =>
    intro block c buf enough last there held
    have number := (isChain.inside _ _ there).2
    have numbers := geometry.numbers
    unfold readLoop
    dsimp only
    rw [if_neg (by omega)]
    by_cases before : block < start / bytesPerCluster bpb
    · have most : start / bytesPerCluster bpb ≤ end_ / bytesPerCluster bpb :=
        Nat.div_le_div_right ordered
      have there' : chain[block + 1]? = some chain[block + 1] :=
        List.getElem?_eq_getElem (by omega)
      have same : reach (bytesPerCluster bpb) start end_ block =
          reach (bytesPerCluster bpb) start end_ (block + 1) := by
        rw [reach_before pos ordered (by omega), reach_before pos ordered (by omega)]
      have held' : Held bpb chain disk start end_ (block + 1) base buf := by
        unfold Held at held ⊢
        rw [← same]
        exact held
      obtain ⟨reads, rest, sound⟩ := step (block + 1) _ buf (by omega) (by omega) there' held'
      rw [if_pos before, nextCluster_cached, isChain.link _ _ _ there there', same, rest]
      refine ⟨_, rfl, Reads.after_table ⟨sound.allowed, fun k c low begun => ?_⟩
        (entryReads_inTable geometry disk number)⟩
      exact sound.covered k c (by omega) begun
    · have begun : start / bytesPerCluster bpb ≤ block := by omega
      obtain ⟨peek, run, walked, grew, aligned, atPeek, few, tables⟩ :=
        growRun_spec geometry isChain
        (max (64 / bpb.sectorsPerCluster) 1 - 1) c 1 (run_single bpb there last) there
      have some_ := aligned.nonempty
      have within := aligned.within
      have own : Proper bpb chain (clustertoblock bpb c, run * bpb.sectorsPerCluster) :=
        aligned.proper geometry (by omega)
      obtain ⟨buf', read, held'⟩ := readRun_spec geometry ordered aligned begun held
      rw [if_neg before, if_neg (by omega), grew]
      dsimp only
      rw [read]
      dsimp only
      split_ifs with done
      · have whole : reach (bytesPerCluster bpb) start end_ (block + run) = end_ + 1 :=
          reach_after pos (by omega)
        unfold Held at held'
        rw [whole] at held'
        refine ⟨_, by rw [held'], ?_⟩
        have none_ : Reads bpb chain start end_ (block + run) [] :=
          ⟨fun r member => (nomatch member), fun k c later _ high _ => by omega⟩
        exact aligned.reads own tables none_
      · obtain ⟨c', there'⟩ : ∃ c', chain[block + run]? = some c' :=
          ⟨_, List.getElem?_eq_getElem (by omega)⟩
        have index : block + run - 1 + 1 = block + run := by omega
        obtain ⟨reads, rest, sound⟩ := step (block + run) c' buf' (by omega) (by omega) there' held'
        rw [nextCluster_cached, isChain.link _ _ _ atPeek (index ▸ there'), rest]
        have entries := entryReads_inTable geometry disk (isChain.inside _ _ atPeek).2
        refine ⟨_, rfl, ?_⟩
        rw [List.append_assoc, List.cons_append]
        exact aligned.reads own tables (sound.after_table entries)

end Reading

def startCluster (dir : Dirent) : Nat := dir.stClustMsw * 65536 + dir.stClust

/-- A range of the file; positions are signed 32-bit numbers. -/
structure InFile (bpb : Bpb) (chain : List Nat) (start end_ : Nat) : Prop where
  ordered : start ≤ end_
  inside : end_ < chain.length * bytesPerCluster bpb
  small : end_ < 2 ^ 31

/-- What is remembered, if anything, is a block of the file and its cluster. -/
def SeqOk (bpb : Bpb) (dirId : Nat) (chain : List Nat) (seq : Option Seq) : Prop :=
  ∀ s, seq = some s → s.seqDir = dirId → s.seqClust ≠ 0 → s.seqClust < eoc bpb →
    chain[s.seqBlock]? = some s.seqClust

/-- A later read has the written bytes where the two meet and the old ones elsewhere, and only
sectors of the file were written. -/
def ReadsBack (bpb : Bpb) (dir : Dirent) (dirId : Nat) (chain : List Nat) (dev : Device)
    (seq : Option Seq) : Prop :=
  ∀ start end_ data, InFile bpb chain start end_ → data.length = end_ - start + 1 →
    (∀ start' end' buf, InFile bpb chain start' end' → slice (loadfile12EX2 bpb dir start' end'
          (writefile12EX2 bpb dir dirId data start end_ dev seq).1.bytes buf).1 0
          (end' + 1 - start') =
        slice (overlay (fileView bpb chain dev.bytes) start data) start' (end' + 1 - start')) ∧
    ∀ w ∈ (writefile12EX2 bpb dir dirId data start end_ dev seq).1.writes, w ∈ dev.writes ∨
      ∃ c ∈ chain, w = (clustertoblock bpb c, bpb.sectorsPerCluster)

section Calls

variable {bpb : Bpb} {dir : Dirent} {dirId start end_ first : Nat} {chain : List Nat}
  {data : List Byte} {dev : Device} {disk disk' : Nat → Byte} {seq : Option Seq}

theorem seqOk_none (bpb : Bpb) (dirId : Nat) (chain : List Nat) : SeqOk bpb dirId chain none := by
  intro s some_
  cases some_

theorem chain_transfer (geometry : Geometry bpb) (isChain : Chain bpb disk first chain)
    (same : SameTable bpb disk disk') : Chain bpb disk' first chain where
  __ := isChain
  link := by
    intro i c c' there there'
    rw [nextCluster_same geometry same (isChain.inside i c there).2]
    exact isChain.link i c c' there there'
  last := by
    intro i c there ended
    rw [nextCluster_same geometry same (isChain.inside i c there).2]
    exact isChain.last i c there ended

theorem InFile.block (range : InFile bpb chain start end_) (geometry : Geometry bpb) :
    end_ / bytesPerCluster bpb < chain.length :=
  (Nat.div_lt_iff_lt_mul (bytesPerCluster_pos geometry)).2 range.inside

theorem loadfile12EX2_spec (geometry : Geometry bpb)
    (isChain : Chain bpb disk (startCluster dir) chain) (range : InFile bpb chain start end_)
    (buf : Nat → Byte) :
    (loadfile12EX2 bpb dir start end_ disk buf).1 =
        overlay buf 0 (slice (fileView bpb chain disk) start (end_ + 1 - start)) ∧
      Reads bpb chain start end_ 0 (loadfile12EX2 bpb dir start end_ disk buf).2 := by
  have data := (isChain.inside 0 _ isChain.first).1
  have spc := geometry.spc
  have ordered := range.ordered
  have pos := bytesPerCluster_pos geometry
  have none_ : reach (bytesPerCluster bpb) start end_ 0 = start :=
    reach_before pos ordered (Nat.zero_le _)
  have held : Held bpb chain disk start end_ 0 buf buf := by
    unfold Held
    rw [none_, Nat.sub_self, slice_zero, overlay_nil]
  obtain ⟨reads, read, sound⟩ := readLoop_spec geometry isChain ordered (range.block geometry)
    (end_ / bytesPerCluster bpb + 1) 0 (startCluster dir) buf (by omega) (Nat.zero_le _)
    isChain.first held
  rw [none_, Nat.sub_self] at read
  unfold startCluster at data read
  unfold loadfile12EX2
  rw [if_neg (by omega), read]
  exact ⟨rfl, sound.after_table (tableReads_inTable bpb)⟩

theorem writeFrom_spec (start : Nat) (isChain : Chain bpb disk dir.stClust chain)
    (seqOk : SeqOk bpb dirId chain seq) :
    ∃ c block, writeFrom bpb dir dirId start seq = (c, block) ∧ chain[block]? = some c ∧
      block ≤ start / bytesPerCluster bpb := by
  cases seq with
  | none => exact ⟨_, _, rfl, isChain.first, Nat.zero_le _⟩
  | some s =>
    unfold writeFrom
    dsimp only
    split_ifs with hit
    · obtain ⟨-, same, -, block, some_, small⟩ := hit
      refine ⟨_, _, rfl, ?_, Nat.le_refl _⟩
      rw [← block]
      exact seqOk s rfl same some_ small
    · exact ⟨_, _, rfl, isChain.first, Nat.zero_le _⟩

section

variable (geometry : Geometry bpb)
include geometry

/-- What is remembered after a write that ended in its last block. -/
theorem seqAfter_ok {c : Nat} (isChain : Chain bpb disk first chain)
    (same : SameTable bpb disk disk') (seqOk : SeqOk bpb dirId chain seq)
    (there : chain[end_ / bytesPerCluster bpb]? = some c) :
    SeqOk bpb dirId chain (seqAfter bpb dir dirId end_ (fatFor bpb disk) disk' c seq) := by
  cases seq with
  | none => exact seqOk_none bpb dirId chain
  | some old =>
    unfold seqAfter
    dsimp only
    split_ifs with directory within
    · exact seqOk
    · rintro s ⟨⟩ - - -
      exact there
    rintro s ⟨⟩ - - small
    dsimp only at small ⊢
    rw [nextCluster_eq geometry same (isChain.inside _ _ there).2] at small ⊢
    cases next : chain[end_ / bytesPerCluster bpb + 1]? with
    | none =>
      have ended := isChain.last _ _ there next
      omega
    | some c' => rw [isChain.link _ _ _ there next]

theorem writefile12EX2_spec (isChain : Chain bpb dev.bytes dir.stClust chain)
    (seqOk : SeqOk bpb dirId chain seq) (range : InFile bpb chain start end_)
    (size : data.length = end_ - start + 1) :
    Progress bpb chain data start dev (writefile12EX2 bpb dir dirId data start end_ dev seq).1
        (end_ + 1) ∧
      SeqOk bpb dirId chain (writefile12EX2 bpb dir dirId data start end_ dev seq).2 := by
  have low := (isChain.inside 0 _ isChain.first).1
  have pos := bytesPerCluster_pos geometry
  have ordered := range.ordered
  have most : start / bytesPerCluster bpb ≤ end_ / bytesPerCluster bpb :=
    Nat.div_le_div_right ordered
  obtain ⟨c, block, begins, there, early⟩ := writeFrom_spec start isChain seqOk
  have nothing : reach (bytesPerCluster bpb) start end_ block = start :=
    reach_before pos ordered early
  obtain ⟨dev', c', wrote, progress, atEnd⟩ := writeLoop_spec geometry isChain size ordered
    (range.block geometry) (end_ / bytesPerCluster bpb - block) block c dev (fun _ => 0) (by omega)
    there (by rw [nothing]; exact Progress.refl bpb chain data start dev)
  rw [nothing, Nat.sub_self] at wrote
  unfold writefile12EX2
  rw [if_neg (by omega)]
  rw [begins]
  dsimp only
  rw [wrote]
  exact ⟨progress, seqAfter_ok geometry isChain (progress.sameTable geometry isChain) seqOk atEnd⟩

/-- The contract for a start cluster in the low word. -/
theorem readsBack_of_low (isChain : Chain bpb dev.bytes (startCluster dir) chain)
    (seqOk : SeqOk bpb dirId chain seq) (low : dir.stClustMsw = 0) :
    ReadsBack bpb dir dirId chain dev seq := by
  have same : startCluster dir = dir.stClust := by
    unfold startCluster
    rw [low, Nat.zero_mul, Nat.zero_add]
  intro start end_ data range size
  obtain ⟨progress, -⟩ := writefile12EX2_spec geometry (same ▸ isChain) seqOk range size
  have ordered := range.ordered
  have whole : data.take (end_ + 1 - start) = data := List.take_of_length_le (by omega)
  refine ⟨?_, progress.writes⟩
  intro start' end' buf range'
  have ordered' := range'.ordered
  have inside' := range'.inside
  have chain' := chain_transfer geometry isChain (progress.sameTable geometry (same ▸ isChain))
  rw [(loadfile12EX2_spec geometry chain' range' buf).1, slice_overlay_slice]
  refine slice_congr fun i _ below => ?_
  rw [progress.bytes i (by omega), whole]

theorem load_first {pos : Nat} (inside : pos < bytesPerCluster bpb) (some_ : startCluster dir ≠ 0)
    (small : startCluster dir < eoc bpb) (buf : Nat → Byte) :
    slice (loadfile12EX2 bpb dir pos pos disk buf).1 0 1 =
      [disk (clusterAddr bpb (startCluster dir) + pos)] := by
  have spc := geometry.spc
  have block : pos / bytesPerCluster bpb = 0 := Nat.div_eq_of_lt inside
  have offset : pos % bytesPerCluster bpb = pos := Nat.mod_eq_of_lt inside
  have alone : ∀ room runLba c, ∃ reads,
      growRun bpb (fatFor bpb disk) disk runLba 0 0 room c 1 = (c, 1, reads) := by
    intro room runLba c
    cases room with
    | zero => exact ⟨_, rfl⟩
    | succ room =>
      unfold growRun
      dsimp only
      split_ifs
      · exact ⟨_, rfl⟩
      · exact ⟨_, rfl⟩
      · omega
      · omega
  unfold startCluster at some_ small ⊢
  unfold loadfile12EX2
  rw [if_neg (by omega), block]
  unfold readLoop
  dsimp only
  obtain ⟨reads, grew⟩ := alone (max (64 / bpb.sectorsPerCluster) 1 - 1)
    (clustertoblock bpb (dir.stClustMsw * 65536 + dir.stClust))
    (dir.stClustMsw * 65536 + dir.stClust)
  rw [if_neg (by omega), block, if_neg (by omega), if_neg (by omega), grew]
  unfold readRun
  dsimp only
  rw [if_pos (by omega), block, if_neg (by omega)]
  have single : List.range 1 = [0] := rfl
  have copied : part (bytesPerCluster bpb) pos pos 0 0 = (pos, 0, 1) := by
    unfold part
    rw [if_pos (by omega), offset, Nat.sub_self]
  rw [single]
  unfold copyRun
  rw [Nat.zero_add, copied]
  dsimp only
  rw [Nat.zero_mul, Nat.zero_add]
  exact slice_overlay buf 0 (slice (fun i => disk _) pos 1)

end

theorem write_first {pos a : Nat} {value : Byte} (inside : pos < bytesPerCluster bpb)
    (miss : writeFrom bpb dir dirId pos seq = (dir.stClust, 0))
    (after : clusterAddr bpb dir.stClust + bytesPerCluster bpb ≤ a) :
    (writefile12EX2 bpb dir dirId [value] pos pos dev seq).1.bytes a = dev.bytes a := by
  have block : pos / bytesPerCluster bpb = 0 := Nat.div_eq_of_lt inside
  unfold writefile12EX2
  split_ifs with empty
  · rfl
  dsimp only
  rw [miss]
  unfold writeLoop
  rw [block, if_pos (Nat.le_refl 0), if_pos (Nat.le_refl 0)]
  refine overlay_after _ ?_
  rw [length_slice]
  exact after

/-- One of the first two positions is not where the last write ended. -/
theorem exists_miss (bpb : Bpb) (dir : Dirent) (dirId : Nat) (seq : Option Seq) :
    ∃ pos, pos < 2 ∧ writeFrom bpb dir dirId pos seq = (dir.stClust, 0) := by
  cases seq with
  | none => exact ⟨0, by omega, rfl⟩
  | some s =>
    by_cases atZero : s.seqOff = 0
    · refine ⟨1, by omega, ?_⟩
      unfold writeFrom
      dsimp only
      rw [if_neg fun hit => by omega]
    · refine ⟨0, by omega, ?_⟩
      unfold writeFrom
      dsimp only
      rw [if_neg fun hit => by omega]

theorem not_readsBack_of_high (geometry : Geometry bpb)
    (isChain : Chain bpb dev.bytes (startCluster dir) chain) (word : dir.stClust < 65536)
    (high : dir.stClustMsw ≠ 0) : ¬ ReadsBack bpb dir dirId chain dev seq := by
  intro readsBack
  have pos := bytesPerCluster_pos geometry
  obtain ⟨low, small⟩ := isChain.inside 0 _ isChain.first
  have numbers := geometry.numbers
  have order : dir.stClust < startCluster dir ∧ 3 ≤ startCluster dir := by
    unfold startCluster
    omega
  have large : 512 ≤ bytesPerCluster bpb := by
    have spc := geometry.spc
    unfold bytesPerCluster
    omega
  have room : bytesPerCluster bpb ≤ chain.length * bytesPerCluster bpb := by
    obtain ⟨some_, -⟩ := List.getElem?_eq_some_iff.1 isChain.first
    exact Nat.le_mul_of_pos_left _ some_
  obtain ⟨k, two, miss⟩ := exists_miss bpb dir dirId seq
  have range : InFile bpb chain k k := ⟨Nat.le_refl k, by omega, by omega⟩
  obtain ⟨read, -⟩ := readsBack k k
    [dev.bytes (clusterAddr bpb (startCluster dir) + k) + 1] range (by simp)
  have one : k + 1 - k = 1 := by omega
  have got := read k k (fun _ => 0) range
  have before := clusterAddr_before bpb order.1 order.2
  rw [one, load_first geometry (by omega) (by omega) (by omega),
    write_first (by omega) miss (by omega)] at got
  have wrote := slice_overlay (fileView bpb chain dev.bytes) k
    [dev.bytes (clusterAddr bpb (startCluster dir) + k) + 1]
  rw [List.length_singleton] at wrote
  rw [wrote] at got
  have same := List.singleton_inj.1 got
  exact absurd (congrArg UInt8.toNat same) (by
    rw [UInt8.toNat_add]
    have bound := byte_lt (dev.bytes (clusterAddr bpb (startCluster dir) + k))
    change _ ≠ (_ + 1) % 256
    omega)

end Calls

/-- A small volume with one file of two clusters. -/
def smallDev : Device where
  bytes := fun a => if a = 515 then 3 else if a = 516 then 0xF0 else if a = 517 then 0xFF else 0
  writes := []

theorem smallDev_chain : Chain smallBpb smallDev.bytes 2 [2, 3] where
  first := rfl
  inside := by
    rintro (_ | _ | i) c there
    · cases there
      decide
    · cases there
      decide
    · cases there
  link := by
    rintro (_ | i) c c' there there'
    · cases there
      cases there'
      decide
    · cases there'
  last := by
    rintro (_ | _ | i) c there ended
    · cases ended
    · cases there
      decide
    · cases there
  nodup := by decide

/-- A volume of 70000 clusters with a file of one cluster, 65538. -/
def largeBpb : Bpb where
  bytesPerSector := 512
  sectorsPerCluster := 1
  numBootSectors := 32
  numFats := 1
  numRootDirEnts := 0
  totalSectors := 71056
  sectorsPerFat := 0
  fatsz32 := 1024

def largeDir : Dirent where
  stClust := 2
  stClustMsw := 1
  directory := false

def largeDev : Device where
  bytes := fun a => if 278536 ≤ a ∧ a < 278540 then 0xFF else 0
  writes := []

theorem largeBpb_geometry : Geometry largeBpb where
  sector := rfl
  spc := by decide
  fats := by decide
  table := by
    have type : fatGetFatType largeBpb = .fat32 := by decide +kernel
    have size : fatSectorsPerFat largeBpb * 512 = 524288 := by decide +kernel
    have count : fatClusterCount largeBpb = 70000 := by decide +kernel
    intro c inside
    rw [type, size]
    dsimp only [entryEnd]
    omega
  numbers := by decide +kernel

theorem largeDev_chain : Chain largeBpb largeDev.bytes (startCluster largeDir) [65538] where
  first := rfl
  inside := by
    rintro (_ | i) c there
    · cases there
      decide +kernel
    · cases there
  link := by
    rintro i c c' there there'
    cases there'
  last := by
    rintro (_ | i) c there ended
    · cases there
      decide +kernel
    · cases there
  nodup := by decide

end IcsOs.Fat.RoundTrip
