/- GID: IcsOs/Vfs/OpenModes
   generality: I
   source: kernel/vfs/vfs_core.c
   digest: Which modes of opening a file exclude each other, over all orders of opens and closes. -/

import IcsOs.Vfs.OpenFiles

set_option autoImplicit false

namespace IcsOs.Vfs.OpenModes

open Function Finset
open Lib.Ledger Lib.Runs Vfs.OpenFiles

/-- The node that `openfilex` has its file system truncate, by `rewritefile`. -/
def rewritten (v : VfsState) (mode : Mode) (env : OpenEnv) : Option NodeId :=
  match env.found with
  | none => none
  | some n =>
    match v.nodes n with
    | none => none
    | some node =>
      if node.fsid = -1 then none
      else if mode = .write ∧ node.locked = false ∧ node.opened = 0 ∧ env.canRewrite = true then
        some n
      else none

/-- Lock flags and modes of the live file objects together. -/
structure Exclusive (v : VfsState) : Prop where
  locked : ∀ h ∈ v.live, ((v.file h).locked = true ↔ (v.file h).mode = .write)
  held : ∀ h ∈ v.live, (v.file h).mode = .write →
    ∃ node, v.nodes (v.file h).ptr = some node ∧ node.locked = true
  alone : ∀ h ∈ v.live, (v.file h).mode = .write →
    ∀ g ∈ v.live, (v.file g).ptr = (v.file h).ptr → g = h
  changer : ∀ h ∈ v.live, ∀ g ∈ v.live, (v.file h).ptr = (v.file g).ptr →
    (v.file h).mode ≠ .read → (v.file g).mode ≠ .read → h = g

section

variable {v : VfsState} {h : FileId} {f : FilePcb}

theorem opened_as_after (f : FilePcb) (call : Call) :
    (f.after call).mode = f.mode ∧ (f.after call).locked = f.locked := by
  cases call with
  | openfilex mode env => exact ⟨rfl, rfl⟩
  | get g | put g | inherit g | markPosix g | fclose g | fdclose g =>
    simp only [FilePcb.after, FilePcb.released]
    split_ifs
    all_goals exact ⟨rfl, rfl⟩

/-- Only the node of an object that goes away is touched. -/
theorem nodes_settle {n : NodeId} (apart : f.Idle → n ≠ f.ptr) :
    (settle v h f).nodes n = v.nodes n := by
  unfold settle
  split_ifs with idle
  · unfold vfsFileDestroyLocked VfsState.changeNode VfsState.setFile
    dsimp only
    rw [update_self, update_of_ne (apart idle)]
  · rfl

/-- A call keeps the modes apart: who goes and unlocks was alone there. -/
theorem Exclusive.settle (exclusive : Exclusive v) (member : h ∈ v.live)
    (ptr : f.ptr = (v.file h).ptr) (mode : f.mode = (v.file h).mode)
    (flag : f.locked = (v.file h).locked) : Exclusive (settle v h f) := by
  have live : ∀ g ∈ (OpenFiles.settle v h f).live, g ∈ v.live :=
    fun g there => (mem_settle.mp there).1
  have ptrs : ∀ g, ((OpenFiles.settle v h f).file g).ptr = (v.file g).ptr := by
    intro g
    rw [file_settle]
    split_ifs with same
    · rw [same, ptr]
    · rfl
  have modes : ∀ g, ((OpenFiles.settle v h f).file g).mode = (v.file g).mode := by
    intro g
    rw [file_settle]
    split_ifs with same
    · rw [same, mode]
    · rfl
  have flags : ∀ g, ((OpenFiles.settle v h f).file g).locked = (v.file g).locked := by
    intro g
    rw [file_settle]
    split_ifs with same
    · rw [same, flag]
    · rfl
  constructor
  · intro g there
    rw [flags, modes]
    exact exclusive.locked g (live g there)
  · intro g there writing
    rw [modes] at writing
    rw [ptrs, nodes_settle]
    · exact exclusive.held g (live g there) writing
    · intro idle same
      have gone := exclusive.alone g (live g there) writing h member (ptr ▸ same.symm)
      exact (mem_settle.mp there).2 ⟨gone.symm, idle⟩
  · intro g there writing k other same
    rw [modes] at writing
    rw [ptrs, ptrs] at same
    exact exclusive.alone g (live g there) writing k (live k other) same
  · intro g there k other same first second
    rw [modes] at first second
    rw [ptrs, ptrs] at same
    exact exclusive.changer g (live g there) k (live k other) same first second

variable {n : NodeId} {node : Node} {mode : Mode}

section

variable (exclusive : Exclusive v)
include exclusive

/-- An open that is let through finds no object it excludes. -/
theorem Exclusive.push (sound : Sound v) (there : v.nodes n = some node)
    (free : node.locked = false) (unopened : mode ≠ .read → node.opened = 0) :
    Exclusive (pushFile v n mode) := by
  have new : v.nextFile ∉ v.live := fun member => Nat.lt_irrefl _ (sound.files _ member)
  have old : ∀ h ∈ v.live, (pushFile v n mode).file h = v.file h := by
    intro h member
    have apart : h ≠ v.nextFile := fun same => new (same ▸ member)
    exact update_of_ne apart _ _
  have first : (pushFile v n mode).file v.nextFile =
      { ptr := n, mode, locked := decide (mode = .write), fdRefs := 0, legacyRefs := 1,
        activeRefs := 0, closing := false } := update_self _ _ _
  have readers : ∀ h ∈ v.live, (v.file h).ptr = n → (v.file h).mode ≠ .write := by
    intro h member here writing
    obtain ⟨locked, found, set⟩ := exclusive.held h member writing
    rw [here, there] at found
    cases found
    rw [free] at set
    cases set
  have nobody : mode ≠ .read → ∀ h ∈ v.live, (v.file h).ptr ≠ n := by
    intro changing h member here
    have count := sound.opened n node there
    rw [unopened changing] at count
    have zero : tally v.live (fun h => some (v.file h).ptr) n = 0 := by
      unfold openCount at count
      omega
    exact not_owned_of_tally zero member (congrArg some here)
  constructor
  · intro h member
    rcases mem_insert.mp member with rfl | member
    · rw [first]
      exact decide_eq_true_iff
    · rw [old h member]
      exact exclusive.locked h member
  · intro h member writing
    rcases mem_insert.mp member with rfl | member
    · rw [first] at writing ⊢
      refine ⟨nodeOpened mode node, ?_, ?_⟩
      · unfold pushFile VfsState.changeNode
        dsimp only
        rw [update_self, there]
        rfl
      · unfold nodeOpened
        dsimp only at writing ⊢
        rw [if_pos writing]
    · rw [old h member] at writing ⊢
      obtain ⟨locked, found, set⟩ := exclusive.held h member writing
      refine ⟨locked, ?_, set⟩
      unfold pushFile VfsState.changeNode
      dsimp only
      rw [update_of_ne (fun here => readers h member here writing)]
      exact found
  · intro h member writing g other same
    rcases mem_insert.mp member with rfl | member
    · rw [first] at writing same
      rcases mem_insert.mp other with rfl | other
      · rfl
      rw [old g other] at same
      have changing : mode ≠ .read := by
        dsimp only at writing
        rw [writing]
        exact nofun
      exact absurd same (nobody changing g other)
    · rw [old h member] at writing same
      rcases mem_insert.mp other with rfl | other
      · rw [first] at same
        exact absurd writing (readers h member same.symm)
      · rw [old g other] at same
        exact exclusive.alone h member writing g other same
  · intro h member g other same one two
    rcases mem_insert.mp member with rfl | member
    · rcases mem_insert.mp other with rfl | other
      · rfl
      · rw [first] at same one
        rw [old g other] at same
        exact absurd same.symm (nobody one g other)
    · rw [old h member] at same one
      rcases mem_insert.mp other with rfl | other
      · rw [first] at same two
        exact absurd same (nobody two h member)
      · rw [old g other] at same two
        exact exclusive.changer h member g other same one two

theorem Exclusive.openNode (sound : Sound v) (n : NodeId) (mode : Mode) (env : OpenEnv) :
    Exclusive (openNode v n mode env).2 := by
  unfold OpenFiles.openNode
  split
  · exact exclusive
  rename_i node there
  split_ifs with refused room
  · exact exclusive
  · rw [not_or, not_and, not_not] at refused
    exact exclusive.push sound there (Bool.eq_false_iff.mpr refused.1) refused.2
  · exact exclusive

/-- A new node has a number that no object points to. -/
theorem Exclusive.createfile (sound : Sound v) (env : OpenEnv) :
    Exclusive (createfile v env).2 := by
  unfold OpenFiles.createfile
  split
  · exact exclusive
  split
  · exact exclusive
  split_ifs
  · exact exclusive
  · refine { exclusive with held := ?_ }
    intro h member writing
    have below := sound.ptrs h member
    obtain ⟨node, found, set⟩ := exclusive.held h member writing
    refine ⟨node, ?_, set⟩
    dsimp only
    rw [update_of_ne (Nat.ne_of_lt below)]
    exact found
  · exact { exclusive with }

theorem Exclusive.openfilex (sound : Sound v) (mode : Mode) (env : OpenEnv) :
    Exclusive (openfilex v mode env).2 := by
  unfold OpenFiles.openfilex
  split
  · split_ifs
    · exact exclusive
    have made := exclusive.createfile sound env
    split
    · rename_i v₁ same
      rw [same] at made
      exact made
    · rename_i n v₁ same
      rw [same] at made
      exact made.openNode (createfile_spec sound env same).1.sound n mode env
  · rename_i n found
    split
    · exact exclusive
    split_ifs
    · exact exclusive
    · exact exclusive
    · exact exclusive.openNode sound n mode env

end

theorem Exclusive.perform (exclusive : Exclusive v) (sound : Sound v) (call : Call) :
    Exclusive (perform v call) := by
  cases subject : call.subject with
  | none =>
    cases call with
    | openfilex mode env => exact exclusive.openfilex sound mode env
    | get h | put h | inherit h | markPosix h | fclose h | fdclose h => cases subject
  | some h =>
    by_cases member : h ∈ v.live
    · obtain ⟨mode, flag⟩ := opened_as_after (v.file h) call
      rw [perform_settle sound subject member]
      exact exclusive.settle member (ptr_after _ call) mode flag
    · rw [perform_absent subject member]
      exact exclusive

theorem exclusive_reachable (run : Reachable vfsCalls (fun _ _ => True) v) :
    Sound v ∧ Exclusive v := by
  refine run.invariant (I := fun s => Sound s ∧ Exclusive s)
    (fun s first => ⟨sound_start first, ?_⟩) ?_
  · have none : ∀ h, h ∉ s.live := by
      intro h member
      rw [first.1] at member
      cases member
    exact ⟨fun h member => absurd member (none h), fun h member => absurd member (none h),
      fun h member => absurd member (none h), fun h member => absurd member (none h)⟩
  · rintro s call t ⟨sound, exclusive⟩ - rfl
    exact ⟨sound_perform sound call, exclusive.perform sound call⟩

theorem Exclusive.refuses (exclusive : Exclusive v) {h : FileId} (member : h ∈ v.live)
    (writing : (v.file h).mode = .write) (mode : Mode) {env : OpenEnv}
    (found : env.found = some (v.file h).ptr) :
    OpenFiles.openfilex v mode env = (none, v) ∧ rewritten v mode env = none := by
  obtain ⟨node, there, locked⟩ := exclusive.held h member writing
  have refused : OpenFiles.openNode v (v.file h).ptr mode env = (none, v) := by
    unfold OpenFiles.openNode
    rw [there]
    dsimp only
    rw [if_pos (.inl locked)]
  constructor
  · unfold OpenFiles.openfilex
    rw [found]
    dsimp only
    rw [there]
    dsimp only
    split_ifs
    · rfl
    · rfl
    · exact refused
  · unfold rewritten
    rw [found]
    dsimp only
    rw [there]
    dsimp only
    have held : ¬ (mode = .write ∧ node.locked = false ∧ node.opened = 0 ∧ env.canRewrite = true) :=
      fun rewrite => Bool.false_ne_true (rewrite.2.1.symm.trans locked)
    rw [if_neg held]
    exact ite_self none

end

/-- In every run a node has at most one live file object that may change it, and one opened for
writing is the only one and keeps further opens out. -/
theorem modes_exclude {v : VfsState} (run : Reachable vfsCalls (fun _ _ => True) v) :
    (∀ h ∈ v.live, ∀ g ∈ v.live, (v.file h).ptr = (v.file g).ptr →
      (v.file h).mode ≠ .read → (v.file g).mode ≠ .read → h = g) ∧
      ∀ h ∈ v.live, (v.file h).mode = .write →
        (∀ g ∈ v.live, (v.file g).ptr = (v.file h).ptr → g = h) ∧
          ∀ mode env, env.found = some (v.file h).ptr →
            openfilex v mode env = (none, v) ∧ rewritten v mode env = none := by
  obtain ⟨-, exclusive⟩ := exclusive_reachable run
  refine ⟨exclusive.changer, fun h member writing => ⟨exclusive.alone h member writing, ?_⟩⟩
  exact fun mode env found => exclusive.refuses member writing mode found

/-- Opened for writing: a second open for reading is refused. -/
theorem modes_exclude_writer :
    ∃ v, Reachable vfsCalls (fun _ _ => True) v ∧ (0 : FileId) ∈ v.live ∧
      (openfilex v .read foundOne).1 = none := by
  have run : Reachable vfsCalls (fun _ _ => True) (perform oneFile (.openfilex .write foundOne)) :=
    .step (.start oneFile_start) trivial rfl
  have member : (0 : FileId) ∈ (perform oneFile (.openfilex .write foundOne)).live := by decide
  refine ⟨_, run, member, ?_⟩
  rw [(((modes_exclude run).2 0 member (by decide)).2 .read foundOne (by decide)).1]

end IcsOs.Vfs.OpenModes
