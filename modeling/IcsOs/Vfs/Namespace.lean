/- GID: IcsOs/Vfs/Namespace
   generality: I
   source: kernel/vfs/vfs_core.c
   digest: Deleting, renaming and unmounting nodes of the tree while file objects point to them. -/

import IcsOs.Vfs.OpenFiles

set_option autoImplicit false

namespace IcsOs.Vfs.Namespace

open Lib.Ledger Lib.Runs Vfs.OpenFiles

/-- Takes a node out of its parent's list, if it is in it. -/
def vfsRemovenode (v : VfsState) (n : NodeId) : Bool × VfsState :=
  match v.nodes n with
  | none => (false, v)
  | some node =>
    if node.linked then (true, v.changeNode n fun node => { node with linked := false })
    else (false, v)

def freeNode (v : VfsState) (n : NodeId) : VfsState :=
  { v with nodes := Function.update v.nodes n none }

/-- Only the node's lock is asked for, not its open count; the driver's answer is the result. -/
def vfsDeletefile (v : VfsState) (n : NodeId) : VfsState :=
  match v.nodes n with
  | none => v
  | some node =>
    if node.locked then v
    else
      match vfsRemovenode v n with
      | (false, v₁) => v₁
      | (true, v₁) => if node.fsid = -1 then v₁ else freeNode v₁ n

/-- The handle is closed and the file deleted; not without a legacy reference. -/
def fdelete (v : VfsState) (h : FileId) : VfsState :=
  if fileOkLocked v h = true ∧ (v.file h).legacyRefs ≠ 0 then
    vfsDeletefile (fclose v h) (v.file h).ptr
  else v

/-- `rename` of a node to a name under which `check` was found. -/
def rename (v : VfsState) (filenode : NodeId) (check : Option NodeId) : VfsState :=
  match v.nodes filenode, check with
  | some source, some c =>
    match v.nodes c with
    | some target =>
      if source.locked = true ∨ c = filenode ∨ target.path ≠ source.path then v
      else vfsDeletefile v c
    | none => v
  | _, _ => v

/-- In a list that the walk from `d` through directories visits. -/
def underDir (v : VfsState) (d n : NodeId) : Bool :=
  match v.nodes n with
  | none => false
  | some node =>
    if node.linked = false then false
    else if node.path = d then true
    else if _below : node.path < n then
      (match v.nodes node.path with
        | none => false
        | some parent => parent.directory) && underDir v d node.path
    else false
termination_by n

/-- Neither a mounted device nor an open file. -/
def vfsCheckopenfiles (v : VfsState) (d : NodeId) : Bool :=
  (List.range v.nextNode).all fun n =>
    !underDir v d n || (match v.nodes n with
        | none => true
        | some node => !node.mount && decide (node.opened ≤ 0))

/-- Up to leaving the VFS lock; `dirUsed` answers `vfs_checkdirused`. -/
def vfsUnmountLocked (v : VfsState) (n : NodeId) (dirUsed : Bool) : VfsState :=
  match v.nodes n with
  | none => v
  | some node =>
    if node.mount = false ∨ node.unmounting = true ∨ vfsCheckopenfiles v n = false ∨
        dirUsed = true then v
    else
      match vfsRemovenode (v.changeNode n fun node => { node with unmounting := true }) n with
      | (true, v₁) => v₁
      | (false, v₁) => v₁.changeNode n fun node => { node with unmounting := false }

/-- `vfs_freedirectory` and what follows, after the callbacks. -/
def vfsUnmountFinish (v : VfsState) (n : NodeId) : VfsState :=
  match v.nodes n with
  | none => v
  | some node =>
    if node.unmounting = true ∧ node.linked = false then
      { v with nodes := fun k => if k = n ∨ underDir v n k = true then none else v.nodes k }
    else v

inductive Op
  | call (call : Call)
  | deletefile (n : NodeId)
  | fdelete (h : FileId)
  | rename (filenode : NodeId) (check : Option NodeId)
  | unmount (n : NodeId) (dirUsed : Bool)
  | unmountFinish (n : NodeId)

def performOp (v : VfsState) : Op → VfsState
  | .call c => perform v c
  | .deletefile n => vfsDeletefile v n
  | .fdelete h => fdelete v h
  | .rename filenode check => rename v filenode check
  | .unmount n dirUsed => vfsUnmountLocked v n dirUsed
  | .unmountFinish n => vfsUnmountFinish v n

/-- The node is still in the tree below the root, which is node 0. -/
inductive InTree (v : VfsState) : NodeId → Prop
  | root {node : Node} (there : v.nodes 0 = some node) : InTree v 0
  | child {n : NodeId} {node : Node} (there : v.nodes n = some node) (linked : node.linked = true)
      (up : InTree v node.path) : InTree v n

/-- The second node is the first one or in the tree below it. -/
inductive Below (v : VfsState) (n : NodeId) : NodeId → Prop
  | self : Below v n n
  | child {m : NodeId} {node : Node} (there : v.nodes m = some node) (linked : node.linked = true)
      (up : Below v n node.path) : Below v n m

def LooksUp (v : VfsState) : Op → Prop
  | .call (.openfilex _ env) =>
    (∀ n, env.found = some n → InTree v n) ∧ ∀ d, env.destdir = some d → InTree v d
  | .deletefile n => InTree v n
  | .rename filenode check => InTree v filenode ∧ ∀ c, check = some c → InTree v c
  | .unmount n _ => InTree v n
  | _ => True

/-- Any tree with nodes made after their parents and nothing open. -/
def vfsOps : System VfsState Op where
  start v := vfsCalls.start v ∧
    ∃ root, v.nodes 0 = some root ∧ root.linked = false ∧ root.unmounting = false
  step v op v' := LooksUp v op ∧ v' = performOp v op

def NoneOpenBelow (v : VfsState) (n : NodeId) : Prop := ∀ h ∈ v.live, ¬ Below v n (v.file h).ptr

/-- What `vfs_deletefile` does not ask for. -/
def Spares (v : VfsState) (n : NodeId) : Prop :=
  (∃ node, v.nodes n = some node ∧ node.locked = true) ∨ NoneOpenBelow v n

/-- Nothing is open at or below a node that goes; a mount point is not open itself, and files below
it are reached through directories. -/
def Spared (v : VfsState) : Op → Prop
  | .deletefile n => Spares v n
  | .fdelete h => Spares (fclose v h) (v.file h).ptr
  | .rename _ check => ∀ c, check = some c → Spares v c
  | .unmount n _ => ∀ h ∈ v.live, Below v n (v.file h).ptr →
      (v.file h).ptr ≠ n ∧ underDir v n (v.file h).ptr = true
  | _ => True

/-- Open counts are right, and every file object's node is in the tree. -/
structure Housed (v : VfsState) : Prop where
  sound : Sound v
  root : ∃ root, v.nodes 0 = some root ∧ root.linked = false ∧ root.unmounting = false
  files : ∀ h ∈ v.live, InTree v (v.file h).ptr

section

variable {v v' : VfsState} {n m : NodeId}

theorem InTree.there (inTree : InTree v n) : ∃ node, v.nodes n = some node := by
  cases inTree with
  | root there => exact ⟨_, there⟩
  | child there _ _ => exact ⟨_, there⟩

theorem InTree.transfer {P : NodeId → Prop}
    (kept : ∀ k node, P k → v.nodes k = some node →
      ∃ node', v'.nodes k = some node' ∧ node'.linked = node.linked ∧ node'.path = node.path)
    (up : ∀ k node, P k → v.nodes k = some node → node.linked = true → P node.path)
    (inTree : InTree v m) (holds : P m) : InTree v' m := by
  induction inTree with
  | root there =>
    obtain ⟨node', there', -⟩ := kept 0 _ holds there
    exact .root there'
  | child there linked _ ih =>
    obtain ⟨node', there', linked', path'⟩ := kept _ _ holds there
    refine .child there' (linked'.trans linked) ?_
    rw [path']
    exact ih (up _ _ holds there linked)

theorem InTree.spared (inTree : InTree v m) (away : ¬ Below v n m)
    (kept : ∀ k, k ≠ n → v'.nodes k = v.nodes k) : InTree v' m := by
  refine inTree.transfer (P := fun k => ¬ Below v n k) ?_ ?_ away
  · intro k node aside there
    have apart : k ≠ n := by
      rintro rfl
      exact aside .self
    exact ⟨node, (kept k apart).trans there, rfl, rfl⟩
  · intro k node aside there linked above
    exact aside (.child there linked above)

theorem Below.inTree (below : Below v n m) (inTree : InTree v m) (rootless : ∀ root,
    v.nodes 0 = some root → root.linked = false) : InTree v n := by
  induction below with
  | self => exact inTree
  | child there linked _ ih =>
    cases inTree with
    | root there' =>
      have unlinked := rootless _ there'
      rw [there] at there'
      cases there'
      rw [linked] at unlinked
      cases unlinked
    | child there' _ up =>
      rw [there] at there'
      cases there'
      exact ih up

theorem underDir_below (d : NodeId) (n : NodeId) (under : underDir v d n = true) : Below v d n := by
  induction n using underDir.induct v d with
  | case1 n none =>
    rw [underDir, none] at under
    cases under
  | case2 n node there unlinked =>
    rw [underDir, there] at under
    simp [unlinked] at under
  | case3 n node there linked path =>
    refine .child there (by simpa using linked) ?_
    rw [path]
    exact .self
  | case4 n node there linked path below ih =>
    rw [underDir, there] at under
    dsimp only at under
    rw [if_neg linked, if_neg path, dif_pos below, Bool.and_eq_true] at under
    exact .child there (by simpa using linked) (ih under.2)
  | case5 n node there linked path above =>
    rw [underDir, there] at under
    simp [linked, path, above] at under

variable {v'' : VfsState}

def Grown (v v' : VfsState) : Prop :=
  ∀ k node, v.nodes k = some node → ∃ node', v'.nodes k = some node' ∧
    node'.linked = node.linked ∧ node'.path = node.path ∧ node'.unmounting = node.unmounting

theorem Grown.refl (v : VfsState) : Grown v v := fun _ node there => ⟨node, there, rfl, rfl, rfl⟩

theorem Grown.trans (first : Grown v v') (second : Grown v' v'') : Grown v v'' := by
  intro k node there
  obtain ⟨node', there', linked, path, state⟩ := first k node there
  obtain ⟨node'', there'', linked', path', state'⟩ := second k node' there'
  exact ⟨node'', there'', linked'.trans linked, path'.trans path, state'.trans state⟩

theorem Grown.inTree (grown : Grown v v') {n : NodeId} (inTree : InTree v n) : InTree v' n := by
  refine inTree.transfer (P := fun _ => True) ?_ (fun _ _ _ _ _ => trivial) trivial
  intro k node _ there
  obtain ⟨node', there', linked, path, -⟩ := grown k node there
  exact ⟨node', there', linked, path⟩

theorem Grown.root (grown : Grown v v')
    (before : ∃ root, v.nodes 0 = some root ∧ root.linked = false ∧ root.unmounting = false) :
    ∃ root, v'.nodes 0 = some root ∧ root.linked = false ∧ root.unmounting = false := by
  obtain ⟨root, there, linked, state⟩ := before
  obtain ⟨root', there', linked', -, state'⟩ := grown 0 root there
  exact ⟨root', there', linked'.trans linked, state'.trans state⟩

theorem grown_changeNode (v : VfsState) (n : NodeId) (change : Node → Node)
    (same : ∀ node, (change node).linked = node.linked ∧ (change node).path = node.path ∧
      (change node).unmounting = node.unmounting) : Grown v (v.changeNode n change) := by
  intro k node there
  by_cases here : k = n
  · subst here
    refine ⟨change node, ?_, same node⟩
    simp [VfsState.changeNode, there]
  · exact ⟨node, by simp [VfsState.changeNode, here, there], rfl, rfl, rfl⟩

theorem grown_settle (v : VfsState) (h : FileId) (f : FilePcb) : Grown v (settle v h f) := by
  unfold settle
  split_ifs
  · have changed := grown_changeNode (v.setFile h f) ((v.setFile h f).file h).ptr
      (fun node =>
        { node with
          opened := node.opened - 1
          locked := if ((v.setFile h f).file h).locked = true ∧ node.locked = true then false
            else node.locked }) fun _ => ⟨rfl, rfl, rfl⟩
    exact changed
  · exact .refl v

theorem grown_perform (sound : Sound v) {call : Call} {h : FileId}
    (subject : call.subject = some h) :
    Grown v (perform v call) ∧ ∀ g ∈ (perform v call).live, g ∈ v.live ∧
      ((perform v call).file g).ptr = (v.file g).ptr := by
  by_cases member : h ∈ v.live
  · rw [perform_settle sound subject member]
    refine ⟨grown_settle v h _, ?_⟩
    intro g stays
    refine ⟨(mem_settle.mp stays).1, ?_⟩
    rw [file_settle]
    split_ifs with same
    · rw [same]
      exact ptr_after _ call
    · rfl
  · rw [perform_absent subject member]
    exact ⟨.refl v, fun g live => ⟨live, rfl⟩⟩

theorem createfile_grown (sound : Sound v) (env : OpenEnv)
    (looked : ∀ d, env.destdir = some d → InTree v d) {found : Option NodeId}
    (got : createfile v env = (found, v')) :
    Grown v v' ∧ v'.live = v.live ∧ v'.file = v.file ∧ ∀ n, found = some n → InTree v' n := by
  unfold createfile at got
  split at got
  · cases got
    exact ⟨.refl v, rfl, rfl, nofun⟩
  rename_i d chosen
  split at got
  · cases got
    exact ⟨.refl v, rfl, rfl, nofun⟩
  rename_i dir there
  split_ifs at got with refused created
  · cases got
    exact ⟨.refl v, rfl, rfl, nofun⟩
  · obtain ⟨rfl, state⟩ := Prod.mk.inj got
    have grown : Grown v v' := by
      intro k node found
      refine ⟨node, ?_, rfl, rfl, rfl⟩
      rw [← state]
      exact (Function.update_of_ne (Nat.ne_of_lt (sound.nodes k node found)) _ _).trans found
    refine ⟨grown, by rw [← state], by rw [← state], ?_⟩
    intro n new
    cases new
    refine @InTree.child _ _ ⟨d, true, false, false, false, dir.fsid, false, 0⟩ ?_ rfl
      (grown.inTree (looked d chosen))
    rw [← state]
    exact Function.update_self _ _ _
  · cases got
    exact ⟨fun k node found => ⟨node, found, rfl, rfl, rfl⟩, rfl, rfl, nofun⟩

theorem openNode_grown (n : NodeId) (mode : Mode) (env : OpenEnv) (housed : InTree v n)
    (files : ∀ h ∈ v.live, InTree v (v.file h).ptr) :
    Grown v (openNode v n mode env).2 ∧ ∀ h ∈ (openNode v n mode env).2.live,
      InTree (openNode v n mode env).2 ((openNode v n mode env).2.file h).ptr := by
  have unchanged : Grown v v ∧ ∀ h ∈ v.live, InTree v (v.file h).ptr := ⟨.refl v, files⟩
  unfold openNode
  split
  · exact unchanged
  rename_i node there
  by_cases refused : node.locked = true ∨ (mode ≠ .read ∧ node.opened ≠ 0)
  · rw [if_pos refused]
    exact unchanged
  rw [if_neg refused]
  by_cases room : roomForFile v env = true
  · rw [if_pos room]
    have grown : Grown v (pushFile v n mode) :=
      grown_changeNode v n (nodeOpened mode) fun _ => ⟨rfl, rfl, rfl⟩
    refine ⟨grown, ?_⟩
    intro h member
    apply grown.inTree
    by_cases new : h = v.nextFile
    · subst new
      simpa [pushFile] using housed
    · have old : h ∈ v.live := (Finset.mem_insert.mp member).resolve_left new
      simpa [pushFile, new] using files h old
  · rw [if_neg room]
    exact unchanged

theorem openfilex_grown (housed : Housed v) (mode : Mode) (env : OpenEnv)
    (looked : (∀ n, env.found = some n → InTree v n) ∧ ∀ d, env.destdir = some d → InTree v d) :
    Grown v (openfilex v mode env).2 ∧ ∀ h ∈ (openfilex v mode env).2.live,
      InTree (openfilex v mode env).2 ((openfilex v mode env).2.file h).ptr := by
  have unchanged : Grown v v ∧ ∀ h ∈ v.live, InTree v (v.file h).ptr := ⟨.refl v, housed.files⟩
  unfold openfilex
  split
  · by_cases reading : mode = .read
    · rw [if_pos reading]
      exact unchanged
    rw [if_neg reading]
    rcases made : createfile v env with ⟨found, v₁⟩
    obtain ⟨grown, live, file, new⟩ := createfile_grown housed.sound env looked.2 made
    have files : ∀ h ∈ v₁.live, InTree v₁ (v₁.file h).ptr := by
      intro h member
      rw [live] at member
      rw [file]
      exact grown.inTree (housed.files h member)
    cases found with
    | none => exact ⟨grown, files⟩
    | some n =>
      obtain ⟨grown', files'⟩ := openNode_grown n mode env (new n rfl) files
      exact ⟨grown.trans grown', files'⟩
  · rename_i n found
    split
    · exact unchanged
    rename_i node there
    split_ifs
    · exact unchanged
    · exact unchanged
    · exact openNode_grown n mode env (looked.1 n found) housed.files

theorem housed_call (housed : Housed v) (call : Call) (looked : LooksUp v (.call call)) :
    Housed (perform v call) := by
  have sound := sound_perform housed.sound call
  cases subject : call.subject with
  | none =>
    cases call with
    | openfilex mode env =>
      obtain ⟨grown, files⟩ := openfilex_grown housed mode env looked
      exact ⟨sound, grown.root housed.root, files⟩
    | get g | put g | inherit g | markPosix g | fclose g | fdclose g => cases subject
  | some h =>
    obtain ⟨grown, kept⟩ := grown_perform housed.sound subject
    refine ⟨sound, grown.root housed.root, ?_⟩
    intro g member
    obtain ⟨before, ptr⟩ := kept g member
    rw [ptr]
    exact grown.inTree (housed.files g before)

theorem sound_shrink (sound : Sound v) (live : v'.live = v.live) (file : v'.file = v.file)
    (nextFile : v'.nextFile = v.nextFile) (nextNode : v'.nextNode = v.nextNode)
    (nodes : ∀ k after, v'.nodes k = some after →
      ∃ before, v.nodes k = some before ∧ after.opened = before.opened) : Sound v' := by
  have count : ∀ k, openCount v' k = openCount v k := by
    intro k
    rw [openCount, openCount, live, file]
  constructor
  · intro k after found
    obtain ⟨before, earlier, opened⟩ := nodes k after found
    rw [opened, count]
    exact sound.opened k before earlier
  · rw [live, file]
    exact sound.closing
  · rw [live, nextFile]
    exact sound.files
  · intro k after found
    obtain ⟨before, earlier, -⟩ := nodes k after found
    rw [nextNode]
    exact sound.nodes k before earlier
  · rw [live, file, nextNode]
    exact sound.ptrs
  · rw [live]
    exact sound.room

/-- One node goes, not the root, with nothing open under it. -/
theorem housed_remove (housed : Housed v) (live : v'.live = v.live) (file : v'.file = v.file)
    (nextFile : v'.nextFile = v.nextFile) (nextNode : v'.nextNode = v.nextNode)
    (kept : ∀ k, k ≠ n → v'.nodes k = v.nodes k)
    (here : ∀ after, v'.nodes n = some after →
      ∃ before, v.nodes n = some before ∧ after.opened = before.opened)
    (linked : ∃ node, v.nodes n = some node ∧ node.linked = true) (none : NoneOpenBelow v n) :
    Housed v' := by
  obtain ⟨root, there, unlinked, state⟩ := housed.root
  have notRoot : 0 ≠ n := by
    rintro rfl
    obtain ⟨node, found, isLinked⟩ := linked
    rw [there] at found
    cases found
    rw [unlinked] at isLinked
    cases isLinked
  refine ⟨sound_shrink housed.sound live file nextFile nextNode ?_,
    ⟨root, (kept 0 notRoot).trans there, unlinked, state⟩, ?_⟩
  · intro k after found
    by_cases same : k = n
    · subst same
      exact here after found
    · rw [kept k same] at found
      exact ⟨after, found, rfl⟩
  · intro h member
    rw [live] at member
    rw [file]
    exact (housed.files h member).spared (none h member) kept

theorem changeNode_ne (v : VfsState) (change : Node → Node) {k : NodeId} (apart : k ≠ n) :
    (v.changeNode n change).nodes k = v.nodes k := by
  simp [VfsState.changeNode, apart]

theorem changeNode_self (v : VfsState) (n : NodeId) (change : Node → Node) :
    (v.changeNode n change).nodes n = (v.nodes n).map change := by
  simp [VfsState.changeNode]

theorem vfsRemovenode_cases {node : Node} (there : v.nodes n = some node) :
    (node.linked = true ∧
        vfsRemovenode v n = (true, v.changeNode n fun node => { node with linked := false })) ∨
      node.linked = false ∧ vfsRemovenode v n = (false, v) := by
  unfold vfsRemovenode
  cases linked : node.linked with
  | true => exact Or.inl ⟨rfl, by simp [there, linked]⟩
  | false => exact Or.inr ⟨rfl, by simp [there, linked]⟩

section

variable (housed : Housed v)
include housed

theorem housed_deletefile (spares : Spares v n) : Housed (vfsDeletefile v n) := by
  unfold vfsDeletefile
  split
  · exact housed
  rename_i node there
  cases locked : node.locked with
  | true => exact housed
  | false =>
    have none : NoneOpenBelow v n := by
      rcases spares with ⟨node', there', locked'⟩ | none
      · rw [there] at there'
        cases there'
        rw [locked] at locked'
        cases locked'
      · exact none
    rcases vfsRemovenode_cases there with ⟨linked, removed⟩ | ⟨-, removed⟩
    · rw [removed]
      have kept : ∀ k, k ≠ n →
          (v.changeNode n fun node => { node with linked := false }).nodes k = v.nodes k :=
        fun k apart => changeNode_ne v _ apart
      by_cases noDriver : node.fsid = -1
      · simp only [Bool.false_eq_true, if_false, noDriver, if_true]
        refine housed_remove housed rfl rfl rfl rfl kept ?_ ⟨node, there, linked⟩ none
        intro after found
        rw [changeNode_self, there] at found
        cases found
        exact ⟨node, there, rfl⟩
      · simp only [Bool.false_eq_true, if_false, noDriver]
        refine housed_remove housed rfl rfl rfl rfl ?_ ?_ ⟨node, there, linked⟩ none
        · intro k apart
          exact (Function.update_of_ne apart _ _).trans (kept k apart)
        · intro after found
          simp [freeNode] at found
    · rw [removed]
      exact housed

theorem housed_fdelete (h : FileId) (spares : Spares (fclose v h) (v.file h).ptr) :
    Housed (fdelete v h) := by
  unfold fdelete
  split_ifs
  · exact housed_deletefile (housed_call housed (.fclose h) trivial) spares
  · exact housed

theorem housed_rename (filenode : NodeId) (check : Option NodeId)
    (spares : ∀ c, check = some c → Spares v c) : Housed (rename v filenode check) := by
  unfold rename
  split
  · split
    · split_ifs
      · exact housed
      · exact housed_deletefile housed (spares _ rfl)
    · exact housed
  · exact housed

theorem noneOpen_of_check (checked : vfsCheckopenfiles v n = true)
    (reached : ∀ h ∈ v.live, Below v n (v.file h).ptr →
      (v.file h).ptr ≠ n ∧ underDir v n (v.file h).ptr = true) : NoneOpenBelow v n := by
  intro h member below
  obtain ⟨-, under⟩ := reached h member below
  obtain ⟨node, there⟩ := (housed.files h member).there
  have number := housed.sound.nodes _ node there
  unfold vfsCheckopenfiles at checked
  rw [List.all_eq_true] at checked
  have closed := checked (v.file h).ptr (List.mem_range.mpr number)
  rw [under, there] at closed
  have few : node.opened ≤ 0 := by
    have both : node.mount = false ∧ node.opened ≤ 0 := by simpa using closed
    exact both.2
  have count := housed.sound.opened _ node there
  have some_ : 0 < openCount v (v.file h).ptr := tally_pos member rfl
  omega

theorem housed_unmount (dirUsed : Bool)
    (reached : ∀ h ∈ v.live, Below v n (v.file h).ptr →
      (v.file h).ptr ≠ n ∧ underDir v n (v.file h).ptr = true) :
    Housed (vfsUnmountLocked v n dirUsed) := by
  unfold vfsUnmountLocked
  split
  · exact housed
  rename_i node there
  by_cases refused : node.mount = false ∨ node.unmounting = true ∨
      vfsCheckopenfiles v n = false ∨ dirUsed = true
  · rw [if_pos refused]
    exact housed
  rw [if_neg refused]
  push Not at refused
  obtain ⟨-, notYet, checked, -⟩ := refused
  have none := noneOpen_of_check housed (by simpa using checked) reached
  have marked : (v.changeNode n fun node => { node with unmounting := true }).nodes n =
      some { node with unmounting := true } := by
    rw [changeNode_self, there]
    rfl
  rcases vfsRemovenode_cases marked with ⟨linked, removed⟩ | ⟨unlinked, removed⟩
  · rw [removed]
    refine housed_remove housed rfl rfl rfl rfl ?_ ?_ ⟨node, there, linked⟩ none
    · intro k apart
      rw [changeNode_ne _ _ apart, changeNode_ne _ _ apart]
    intro after found
    rw [changeNode_self, marked] at found
    cases found
    exact ⟨node, there, rfl⟩
  · rw [removed]
    have same : ((v.changeNode n fun node => { node with unmounting := true }).changeNode n
        fun node => { node with unmounting := false }).nodes = v.nodes := by
      funext k
      by_cases here : k = n
      · subst here
        rw [changeNode_self, marked, there]
        have state : node.unmounting = false := by simpa using notYet
        simp only [Option.map_some, ← state]
      · rw [changeNode_ne _ _ here, changeNode_ne _ _ here]
    have back : ((v.changeNode n fun node => { node with unmounting := true }).changeNode n
        fun node => { node with unmounting := false }) = v :=
      VfsState.ext same rfl rfl rfl rfl
    dsimp only
    rw [back]
    exact housed

theorem housed_unmountFinish : Housed (vfsUnmountFinish v n) := by
  unfold vfsUnmountFinish
  split
  · exact housed
  rename_i node there
  split_ifs with leaving
  · obtain ⟨root, rootThere, unlinked, state⟩ := housed.root
    obtain ⟨isLeaving, notLinked⟩ := leaving
    have rootless : ∀ root, v.nodes 0 = some root → root.linked = false := by
      intro root' found
      rw [rootThere] at found
      cases found
      exact unlinked
    have outside : ¬ InTree v n := by
      intro inTree
      cases inTree with
      | root found =>
        rw [rootThere] at there
        cases there
        rw [state] at isLeaving
        cases isLeaving
      | child found linked _ =>
        rw [there] at found
        cases found
        rw [notLinked] at linked
        cases linked
    have stays : ∀ k, InTree v k → ¬ (k = n ∨ underDir v n k = true) := by
      rintro k inTree (rfl | under)
      · exact outside inTree
      · exact outside ((underDir_below n k under).inTree inTree rootless)
    have up : ∀ k node, InTree v k → v.nodes k = some node → node.linked = true →
        InTree v node.path := by
      intro k node inTree found linked
      exact (Below.child found linked .self).inTree inTree rootless
    refine ⟨sound_shrink housed.sound rfl rfl rfl rfl ?_, ⟨root, ?_, unlinked, state⟩, ?_⟩
    · intro k after found
      dsimp only at found
      split_ifs at found
      exact ⟨after, found, rfl⟩
    · dsimp only
      rw [if_neg (stays 0 (.root rootThere))]
      exact rootThere
    · intro h member
      refine (housed.files h member).transfer (P := fun k => InTree v k) ?_ up
        (housed.files h member)
      intro k after inTree found
      refine ⟨after, ?_, rfl, rfl⟩
      dsimp only
      rw [if_neg (stays k inTree)]
      exact found
  · exact housed

end

end

section Runs

variable {v : VfsState}

theorem housed_reachable (run : Reachable vfsOps Spared v) : Housed v := by
  refine run.invariant ?_ ?_
  · rintro s ⟨first, root⟩
    refine ⟨sound_start first, root, ?_⟩
    intro h member
    rw [first.1] at member
    simp at member
  · rintro s op t housed spared ⟨looked, rfl⟩
    cases op with
    | call c => exact housed_call housed c looked
    | deletefile n => exact housed_deletefile housed spared
    | fdelete h => exact housed_fdelete housed h spared
    | rename filenode check => exact housed_rename housed filenode check spared
    | unmount n dirUsed => exact housed_unmount housed dirUsed spared
    | unmountFinish n => exact housed_unmountFinish housed

/-- Where removals spare open files, live file objects point to nodes in the tree that were not
freed. -/
theorem live_files_in_tree (run : Reachable vfsOps Spared v) :
    ∀ h ∈ v.live, InTree v (v.file h).ptr ∧ ∃ node, v.nodes (v.file h).ptr = some node := by
  intro h member
  have inTree := (housed_reachable run).files h member
  exact ⟨inTree, inTree.there⟩

theorem oneFile_root : InTree oneFile 0 :=
  @InTree.root oneFile ⟨0, false, true, true, false, 1, false, 0⟩ rfl

theorem oneFile_inTree : InTree oneFile 1 :=
  @InTree.child oneFile 1 ⟨0, true, false, false, false, 1, false, 0⟩ rfl rfl oneFile_root

/-- The state after the file was opened for reading. -/
def readerOpen : VfsState := perform oneFile (.openfilex .read foundOne)

theorem readerOpen_reachable (guard : VfsState → Op → Prop)
    (allowed : guard oneFile (.call (.openfilex .read foundOne))) :
    Reachable vfsOps guard readerOpen := by
  refine .step (.start ⟨oneFile_start, _, rfl, rfl, rfl⟩) allowed ⟨⟨?_, ?_⟩, rfl⟩
  · rintro n found
    cases found
    exact oneFile_inTree
  · rintro d found
    cases found
    exact oneFile_root

theorem live_files_in_tree_reader :
    (0 : FileId) ∈ readerOpen.live ∧ InTree readerOpen (readerOpen.file 0).ptr :=
  ⟨by decide, (live_files_in_tree (readerOpen_reachable Spared trivial) 0 (by decide)).1⟩

/-- A file is deleted while a reader has it open: its lock is not set. -/
theorem delete_frees_open_node : ∃ v, Reachable vfsOps (fun _ _ => True) v ∧
    ∃ h ∈ v.live, v.nodes (v.file h).ptr = none := by
  have run := readerOpen_reachable (fun _ _ => True) trivial
  refine ⟨vfsDeletefile readerOpen 1, .step (a := .deletefile 1) run trivial ⟨?_, rfl⟩, 0, ?_, ?_⟩
  · exact (housed_reachable (readerOpen_reachable Spared trivial)).files 0 (by decide)
  · decide
  · decide

end Runs

end IcsOs.Vfs.Namespace
