/- GID: IcsOs/Vfs/MountBalance
   generality: I
   source: kernel/vfs/vfs_core.c, kernel/devmgr/dex32_devmgr.c
   digest: References and claims balance along every run of mounts, unmounts and remounts. -/

import IcsOs.Vfs.Mounts

set_option autoImplicit false

namespace IcsOs.Vfs.Mounts

open Function Option Finset
open Devmgr.Lifecycle Lib.Forests Lib.Ledger Lib.Runs

variable {r : Registry}

section Counts

variable {base : SlotId → Nat} {w w' : World} {n d k : NodeId} {node : Node} {i j : SlotId}
  {ref : Node → Option Ptr}

theorem holds_eq (treed : Treed w) (ref : Node → Option Ptr) (n : NodeId) :
    w.holds ref n = (w.nodes n).bind (owner w.registry ref) := by
  unfold World.holds
  cases known : w.nodes n with
  | none => rw [bind_none, ite_self]
  | some node => rw [if_pos (treed.climbs_root (there_of_some known))]

/-- A reference is a field other than the position in the tree. -/
def Blind (ref : Node → Option Ptr) : Prop :=
  ∀ node path files, ref { node with path := path, files := files } = ref node

theorem blind_fs : Blind Node.fsDeviceRef := fun _ _ _ => rfl

theorem blind_block : Blind Node.blockDeviceRef := fun _ _ _ => rfl

theorem owner_moved (r : Registry) (blind : Blind ref) (node : Node) (path : Option NodeId)
    (files : Option (List NodeId)) :
    owner r ref { node with path := path, files := files } = owner r ref node := by
  unfold owner
  rw [blind]

theorem owner_plain (r : Registry) (plain : node.mount = false) : owner r ref node = none := by
  rw [owner, plain]
  rfl

theorem count_createnode (treed : Treed w) (dir : w.isDirectory d = true)
    (empty : node.entries = []) (blind : Blind ref) (i : SlotId) :
    (vfsCreatenode w d node).count ref i = w.count ref i + share (owner w.registry ref node) i := by
  have created := treed.createnode dir empty
  have member : w.next ∈ range (w.next + 1) := self_mem_range_succ _
  have rest : (range (w.next + 1)).erase w.next = range w.next := by
    rw [range_add_one]
    exact erase_insert notMem_range_self
  change tally (range (w.next + 1)) _ i = _
  rw [tally_erase _ member, rest]
  congr 1
  · apply tally_congr
    intro k inside
    rw [holds_eq created, holds_eq treed, createnode_nodes, if_neg (mem_range.mp inside).ne]
    split
    · rename_i same
      rw [same]
      cases w.nodes d with
      | none => rfl
      | some p => exact owner_moved _ blind p p.path _
    · rfl
  · rw [holds_eq created, createnode_nodes, if_pos rfl, bind_some]
    congr 1
    exact owner_moved _ blind node _ node.files

theorem Balanced.hold {fs block : SlotId → Nat} (balanced : Balanced base r fs block)
    (unlocked : (r.statuslist j).locked = 0) :
    Balanced base (held r (some i) (some j) (some j)) (fun k => fs k + share (some i) k)
      (fun k => block k + share (some j) k) := by
  have free : block j = 0 := by
    have same := balanced.locked j
    omega
  constructor
  · intro k
    have before := balanced.refs k
    simp only [held]
    omega
  · intro k
    simp only [held]
    by_cases same : j = k
    · subst same
      rw [if_pos rfl, share_self, free]
      rfl
    · rw [if_neg (fun equal => same (Option.some.inj equal)), share_ne same]
      exact balanced.locked k
  · intro k
    by_cases same : j = k
    · subst same
      rw [share_self, free]
    · rw [share_ne same]
      exact balanced.once k

theorem Balanced.drop {fs block fs' block' : SlotId → Nat} (balanced : Balanced base r fs block)
    (lessFs : ∀ k, fs k = fs' k + share (some i) k)
    (lessBlock : ∀ k, block k = block' k + share (some j) k) :
    Balanced base (dropped r i j) fs' block' := by
  constructor
  · intro k
    have before := balanced.refs k
    rw [lessFs, lessBlock] at before
    simp only [dropped]
    omega
  · intro k
    have before := balanced.locked k
    have once := balanced.once k
    rw [lessBlock] at before once
    simp only [dropped]
    by_cases same : j = k
    · subst same
      rw [share_self] at once
      rw [if_pos rfl]
      omega
    · rw [share_ne same] at before
      rw [if_neg (fun equal => same (Option.some.inj equal)), before, Nat.add_zero]
  · intro k
    have once := balanced.once k
    rw [lessBlock] at once
    omega

end Counts

section Invariant

variable {base : SlotId → Nat} {w w' : World} {n d k : NodeId} {node : Node} {i j : SlotId}
  {p q : Ptr} {change : Node → Node}

structure Moored (r : Registry) (node : Node) (i j : SlotId) : Prop where
  fs : ∃ p, node.fsDeviceRef = some p ∧ Present r p i
  block : ∃ q, node.blockDeviceRef = some q ∧ Present r q j
  memid : node.memid = (j.val : Int)
  steady : node.unmounting = false

/-- The invariant. -/
structure Kept (base : SlotId → Nat) (w : World) : Prop where
  treed : Treed w
  homes : ∀ i p, w.registry.devlist i = some p →
    ∃ dev, w.registry.heap p = some dev ∧ dev.id = (i.val : Int)
  moored : ∀ n node, w.nodes n = some node → node.mount = true → n ≠ 0 →
    ∃ i j, Moored w.registry node i j
  balanced : Balanced base w.registry (w.count Node.fsDeviceRef) (w.count Node.blockDeviceRef)

theorem Moored.moved (moored : Moored r node i j) (path : Option NodeId)
    (files : Option (List NodeId)) : Moored r { node with path := path, files := files } i j :=
  { moored with }

theorem Moored.transfer {r' : Registry} (moored : Moored r node i j)
    (present : ∀ p i, Present r p i → Present r' p i) : Moored r' node i j := by
  obtain ⟨⟨p, fsRef, fsPresent⟩, ⟨q, blockRef, blockPresent⟩, memid, steady⟩ := moored
  exact ⟨⟨p, fsRef, present p i fsPresent⟩, ⟨q, blockRef, present q j blockPresent⟩, memid, steady⟩

theorem createnode_cases {after : Node} (known : (vfsCreatenode w d node).nodes k = some after) :
    (k = w.next ∧ after = { node with path := some d }) ∨
      ∃ before files, k ≠ w.next ∧ w.nodes k = some before ∧
        after = { before with files := files } := by
  rw [createnode_nodes] at known
  split at known
  · rename_i new
    exact .inl ⟨new, (Option.some.inj known).symm⟩
  rename_i old
  right
  split at known
  · rename_i same
    obtain ⟨before, found, rfl⟩ := map_eq_some_iff.mp known
    exact ⟨before, _, old, same ▸ found, rfl⟩
  · exact ⟨after, after.files, old, known, rfl⟩

/-- The world in which a mount has taken its devices. -/
def claimed (w : World) (i j : SlotId) : World :=
  { w with registry := held w.registry (some i) (some j) (some j) }

theorem Kept.mounted (kept : Kept base w) (dir : w.isDirectory d = true)
    (empty : node.entries = []) (fs : node.fsDeviceRef = some p)
    (block : node.blockDeviceRef = some q) (mount : node.mount = true)
    (memid : node.memid = (j.val : Int)) (steady : node.unmounting = false)
    (fsPresent : Present w.registry p i)
    (blockPresent : Present w.registry q j)
    (unlocked : (w.registry.statuslist j).locked = 0) :
    Kept base (vfsCreatenode (claimed w i j) d node) := by
  have treed : Treed (claimed w i j) :=
    kept.treed.congr rfl rfl (fun _ => Iff.rfl) (fun _ => rfl) (fun _ => rfl) fun _ => rfl
  refine ⟨treed.createnode dir empty, kept.homes, ?_, ?_⟩
  · intro k after known marked inner
    rcases createnode_cases known with ⟨rfl, rfl⟩ | ⟨before, files, old, found, rfl⟩
    · exact ⟨i, j, ⟨p, fs, fsPresent.held⟩, ⟨q, block, blockPresent.held⟩, memid, steady⟩
    · obtain ⟨i', j', moored⟩ := kept.moored k before found marked inner
      exact ⟨i', j', (moored.transfer fun _ _ present => present.held).moved before.path files⟩
  · have fsOwner : owner w.registry Node.fsDeviceRef node = some i := by
      rw [owner, mount, if_pos rfl, fs, bind_some, fsPresent.home]
    have blockOwner : owner w.registry Node.blockDeviceRef node = some j := by
      rw [owner, mount, if_pos rfl, block, bind_some, blockPresent.home]
    have counted : ∀ ref slot, Blind ref → owner w.registry ref node = some slot →
        (vfsCreatenode (claimed w i j) d node).count ref =
          fun k => w.count ref k + share (some slot) k := by
      intro ref slot blind owns
      funext k
      rw [count_createnode treed dir empty blind]
      exact congrArg (fun owned => w.count ref k + share owned k) owns
    rw [counted _ _ blind_fs fsOwner, counted _ _ blind_block blockOwner]
    exact kept.balanced.hold unlocked

theorem Kept.createnode (kept : Kept base w) (dir : w.isDirectory d = true)
    (empty : node.entries = []) (plain : node.mount = false) :
    Kept base (vfsCreatenode w d node) := by
  have same : ∀ ref, Blind ref → (vfsCreatenode w d node).count ref = w.count ref := by
    intro ref blind
    funext i
    rw [count_createnode kept.treed dir empty blind, owner_plain _ plain, share_none, Nat.add_zero]
  refine ⟨kept.treed.createnode dir empty, kept.homes, ?_, ?_⟩
  · intro k after known marked inner
    rcases createnode_cases known with ⟨rfl, rfl⟩ | ⟨before, files, old, found, rfl⟩
    · rw [plain] at marked
      cases marked
    · obtain ⟨i, j, moored⟩ := kept.moored k before found marked inner
      exact ⟨i, j, moored.moved before.path files⟩
  · rw [same _ blind_fs, same _ blind_block]
    exact kept.balanced

theorem Kept.populate (kept : Kept base w) (dir : w.isDirectory d = true) (fsid memid : Int)
    (entries : List Bool) : Kept base (populate w d fsid memid entries) := by
  induction entries generalizing w with
  | nil => exact kept
  | cons directory rest ih =>
    have empty : (entry fsid memid directory).entries = [] := by
      cases directory <;> rfl
    have older := kept.treed.fresh d (Treed.there_of_directory dir)
    refine ih (kept.createnode dir empty rfl) ?_
    rw [createnode_isDirectory, if_neg older.ne]
    exact dir

/-- A change of neither a node's place nor its devices. -/
structure Gentle (change : Node → Node) : Prop where
  path : ∀ node, (change node).path = node.path
  entries : ∀ node, (change node).entries = node.entries
  directory : ∀ node, (change node).directory = node.directory
  mount : ∀ node, (change node).mount = node.mount
  fs : ∀ node, (change node).fsDeviceRef = node.fsDeviceRef
  block : ∀ node, (change node).blockDeviceRef = node.blockDeviceRef
  memid : ∀ node, (change node).memid = node.memid
  steady : ∀ node, (change node).unmounting = node.unmounting

theorem Kept.changeNode (kept : Kept base w) (gentle : Gentle change) :
    Kept base (w.changeNode n change) := by
  have treed : Treed (w.changeNode n change) :=
    kept.treed.changeNode gentle.path gentle.entries gentle.directory
  have same : ∀ ref, (∀ node, ref (change node) = ref node) →
      (w.changeNode n change).count ref = w.count ref := by
    intro ref blind
    funext i
    apply tally_congr
    intro k _
    rw [holds_eq treed, holds_eq kept.treed, changeNode_nodes]
    split
    · rename_i here
      rw [here]
      cases w.nodes n with
      | none => rfl
      | some node =>
        change owner _ ref (change node) = owner _ ref node
        unfold owner
        rw [gentle.mount, blind]
        rfl
    · rfl
  refine ⟨treed, kept.homes, ?_, ?_⟩
  · intro k after known marked inner
    rw [changeNode_nodes] at known
    split at known
    · rename_i here
      obtain ⟨before, found, rfl⟩ := map_eq_some_iff.mp known
      rw [gentle.mount] at marked
      obtain ⟨i, j, moored⟩ := kept.moored n before found marked (here ▸ inner)
      refine ⟨i, j, ?_, ?_, (gentle.memid before).trans moored.memid,
        (gentle.steady before).trans moored.steady⟩
      · rw [gentle.fs]
        exact moored.fs
      · rw [gentle.block]
        exact moored.block
    · exact kept.moored k after known marked inner
  · rw [same _ gentle.fs, same _ gentle.block]
    exact kept.balanced

theorem Kept.vfsMountdirectory (kept : Kept base w) (dir : w.isDirectory d = true)
    (entries : List Bool) : Kept base (vfsMountdirectory w d entries) := by
  obtain ⟨node, known, marked⟩ := (any_eq_true _ _).mp dir
  rw [Mounts.vfsMountdirectory, known]
  apply Kept.populate
  · apply kept.changeNode
    constructor <;> intro node <;> rfl
  · rw [World.isDirectory, changeNode_nodes, if_pos rfl, known]
    exact marked

theorem Kept.workdirs (kept : Kept base w) {dirs : List NodeId} (used : dirs ≠ [])
    (known : ∀ k ∈ dirs, w.There k) : Kept base { w with workdirs := dirs } := by
  obtain ⟨⟨fresh, root, noParent, up, down, once, proper, -, -⟩, homes, moored, balanced⟩ := kept
  exact ⟨⟨fresh, root, noParent, up, down, once, proper, used, known⟩, homes, moored, balanced⟩

end Invariant

section

variable {base : SlotId → Nat} {w w' : World} {n d k : NodeId} {node : Node} {i j : SlotId}

def Node.without (n : NodeId) (node : Node) : Node :=
  { node with files := node.files.map fun list => list.erase n }

structure Unmounted (w : World) (n : NodeId) (i j : SlotId) (w' : World) : Prop where
  registry : w'.registry = dropped w.registry i j
  next : w'.next = w.next
  workdirs : w'.workdirs = w.workdirs
  gone : ∀ k, k = n ∨ Below w.files n k → w'.nodes k = none
  rest : ∀ k, k ≠ n → ¬ Below w.files n k →
    w'.nodes k = if w.path n = some k then (w.nodes k).map (Node.without n) else w.nodes k

theorem entries_without (node : Node) : (node.without n).entries = node.entries.erase n := by
  unfold Node.entries Node.without
  cases node.files <;> rfl

/-- An entry that comes and goes leaves a list that had been read. -/
theorem without_listed (listed : node.files.isSome = true) :
    Node.without n { node with files := some (n :: node.entries) } = node := by
  obtain ⟨path, files, directory, mount, fsid, memid, fs, block, opened, unmounting⟩ := node
  cases files with
  | none => cases listed
  | some list => simp [Node.without, Node.entries]

/-- The world as the node has just left its list. -/
def unlisted (w : World) (n d : NodeId) : World :=
  (w.changeNode n fun node => { node with unmounting := true }).changeNode d (Node.without n)

theorem unlisted_nodes (apart : k ≠ n) :
    (unlisted w n d).nodes k = if k = d then (w.nodes k).map (Node.without n) else w.nodes k := by
  rw [unlisted, changeNode_nodes]
  split
  · rename_i same
    subst same
    rw [changeNode_nodes, if_neg apart]
  · rw [changeNode_nodes, if_neg apart]

theorem unlisted_files (treed : Treed w) (parent : w.path n = some d) (k : NodeId) :
    (unlisted w n d).files k = if k = d then (w.files k).erase n else w.files k := by
  have lower := treed.falling n d parent
  unfold World.files
  by_cases here : k = n
  · subst here
    rw [unlisted, changeNode_nodes, if_neg lower.ne', if_neg lower.ne', changeNode_nodes,
      if_pos rfl]
    cases w.nodes k <;> rfl
  rw [unlisted_nodes here]
  split
  · cases w.nodes k with
    | none => rfl
    | some node => exact entries_without node
  · rfl

theorem unlisted_isDirectory (w : World) (n d k : NodeId) :
    (unlisted w n d).isDirectory k = w.isDirectory k := by
  unfold World.isDirectory unlisted
  rw [changeNode_nodes, changeNode_nodes, changeNode_nodes]
  split
  · rename_i same
    split
    · rename_i both
      rw [same, both]
      cases w.nodes n <;> rfl
    · rw [same]
      cases w.nodes d <;> rfl
  · split
    · rename_i same
      rw [same]
      cases w.nodes n <;> rfl
    · rfl

/-- What `vfs_freedirectory` frees is what was below the node. -/
theorem unlisted_visited (treed : Treed w) (parent : w.path n = some d) :
    k ∈ (unlisted w n d).visited n ↔ Below w.files n k := by
  have lower := treed.falling n d parent
  have less : ∀ m c, c ∈ (unlisted w n d).files m → c ∈ w.files m := by
    intro m c here
    rw [unlisted_files treed parent] at here
    split at here
    · exact List.mem_of_mem_erase here
    · exact here
  have rising : ∀ m c, c ∈ (unlisted w n d).files m → m < c :=
    fun m c here => treed.rising m c (less m c here)
  constructor
  · intro met
    exact (below_of_mem_visit met).transfer rising fun m _ c here => less m c here
  intro below
  have again : Below (unlisted w n d).files n k := by
    refine below.transfer treed.rising ?_
    intro m later c here
    rw [unlisted_files treed parent, if_neg (lower.trans_le later).ne']
    exact here
  refine again.mem_visit rising ?_ ?_
  · intro m filled
    rw [unlisted_isDirectory]
    obtain ⟨c, here⟩ := List.exists_mem_of_ne_nil _ filled
    exact treed.proper m (List.ne_nil_of_mem (less m c here))
  · have met := (treed.mem_visited n).mpr below
    rcases (below_of_mem_visit met).last with here | ⟨m, -, here⟩
    · exact (treed.fresh k (treed.down n k here).1).le.trans (Nat.le_add_left ..)
    · exact (treed.fresh k (treed.down m k here).1).le.trans (Nat.le_add_left ..)

/-- The end of an unmount gives up the claim and both references. -/
theorem Moored.release (moored : Moored r node i j)
    (enough : ∀ k, share (some i) k + share (some j) k ≤ (r.statuslist k).refs)
    (locked : (r.statuslist j).locked = 1) :
    putdevice (putdevice (devmgrSetlock r node.memid 0).2 node.fsDeviceRef) node.blockDeviceRef =
      dropped r i j := by
  obtain ⟨⟨p, fsRef, fsPresent⟩, ⟨q, blockRef, blockPresent⟩, memid, -⟩ := moored
  have fsThere : Present (dropped r i j) p i :=
    { fsPresent with }
  have blockThere : Present (dropped r i j) q j :=
    { blockPresent with }
  have unlocked : ((dropped r i j).statuslist j).locked = 0 := if_pos rfl
  have opened : (devmgrSetlock r (j.val : Int) 0).2 =
      held (dropped r i j) (some i) (some j) none := by
    conv_lhs => rw [← held_dropped enough locked]
    exact setlock_held blockThere unlocked
  have gotFs : Got (dropped r i j) (some p) (some i) := fsThere
  have gotBlock : Got (dropped r i j) (some q) (some j) := blockThere
  rw [memid, opened, fsRef, blockRef]
  exact put_both gotFs gotBlock

theorem Kept.owners (kept : Kept base w) (known : w.nodes n = some node)
    (marked : node.mount = true) (moored : Moored w.registry node i j) :
    w.holds Node.fsDeviceRef n = some i ∧ w.holds Node.blockDeviceRef n = some j := by
  obtain ⟨⟨p, fsRef, fsPresent⟩, ⟨q, blockRef, blockPresent⟩, -, -⟩ := moored
  rw [holds_eq kept.treed, holds_eq kept.treed, known, bind_some, bind_some, owner,
    owner, if_pos marked, if_pos marked, fsRef, blockRef]
  exact ⟨fsPresent.home, blockPresent.home⟩

theorem Kept.counted (kept : Kept base w) (known : w.nodes n = some node)
    {ref : Node → Option Ptr} (owns : w.holds ref n = some i) (k : SlotId) :
    share (some i) k ≤ w.count ref k := by
  have member : n ∈ range w.next :=
    mem_range.mpr (kept.treed.fresh n (there_of_some known))
  unfold World.count
  rw [tally_erase _ member, owns]
  omega

theorem Kept.unmount_free (kept : Kept base w) (known : w.nodes n = some node)
    (marked : node.mount = true) (inner : n ≠ 0) (moored : Moored w.registry node i j)
    (closed : vfsCheckopenfiles w n = false) (unused : vfsCheckdirused w n = false) :
    ∃ w', vfsUnmountLocked w n = (1, w') ∧ Unmounted w n i j w' := by
  obtain ⟨d, lower, parent, here⟩ := kept.treed.up n (there_of_some known) inner
  obtain ⟨fsOwner, blockOwner⟩ := kept.owners known marked moored
  have fsCount := kept.counted known fsOwner
  have blockCount := kept.counted known blockOwner
  have enough : ∀ k, share (some i) k + share (some j) k ≤ (w.registry.statuslist k).refs := by
    intro k
    rw [kept.balanced.refs]
    have first := fsCount k
    have second := blockCount k
    omega
  have locked : (w.registry.statuslist j).locked = 1 := by
    have one := blockCount j
    have once := kept.balanced.once j
    rw [share_self] at one
    rw [kept.balanced.locked]
    omega
  have released := moored.release enough locked
  obtain ⟨p, fsRef, -⟩ := moored.fs
  obtain ⟨q, blockRef, -⟩ := moored.block
  have allowed : ¬ (node.mount = false ∨ node.unmounting = true ∨ vfsCheckopenfiles w n = true ∨
      vfsCheckdirused w n = true) := by
    rw [marked, moored.steady, closed, unused]
    decide
  have path : ({ w.changeNode n fun node => { node with unmounting := true } with
      registry := w.registry } : World).path n = some d := by
    rw [← parent]
    unfold World.path
    rw [changeNode_nodes, if_pos rfl]
    cases w.nodes n <;> rfl
  have files : ({ w.changeNode n fun node => { node with unmounting := true } with
      registry := w.registry } : World).files d = w.files d := by
    unfold World.files
    rw [changeNode_nodes, if_neg lower.ne]
  have taken : vfsRemovenode ({ w.changeNode n fun node => { node with unmounting := true } with
      registry := w.registry } : World) n = (true, unlisted w n d) := by
    rw [vfsRemovenode, path]
    dsimp only
    rw [files, if_pos here]
    rfl
  refine ⟨unmountFinish (unlisted w n d) n node.memid node.fsDeviceRef node.blockDeviceRef, ?_, ?_⟩
  · rw [vfsUnmountLocked, known]
    dsimp only
    rw [if_neg allowed, fsRef, blockRef]
    dsimp only [deviceRef]
    rw [taken]
  · refine ⟨released, rfl, rfl, ?_, ?_⟩
    · intro k away
      rw [unmountFinish, freeNode]
      dsimp only
      rw [update_apply]
      split
      · rfl
      · rename_i other
        have below := away.resolve_left other
        exact if_pos ((unlisted_visited kept.treed parent).mpr below)
    · intro k other aside
      rw [unmountFinish, freeNode]
      dsimp only
      rw [update_apply, if_neg other]
      have spared : k ∉ (unlisted w n d).visited n :=
        fun met => aside ((unlisted_visited kept.treed parent).mp met)
      refine (if_neg spared).trans ?_
      rw [changeNode_nodes, if_neg other, unlisted_nodes other, parent]
      by_cases same : k = d
      · subst same
        rw [if_pos rfl, if_pos rfl]
      · rw [if_neg same, if_neg fun equal => same (Option.some.inj equal).symm]

theorem Kept.unmount_cases (kept : Kept base w) (n : NodeId) :
    vfsUnmountLocked w n = (-1, w) ∨ ∃ node i j w', w.nodes n = some node ∧ node.mount = true ∧
      n ≠ 0 ∧ Moored w.registry node i j ∧ vfsCheckopenfiles w n = false ∧
      vfsCheckdirused w n = false ∧ vfsUnmountLocked w n = (1, w') ∧ Unmounted w n i j w' := by
  cases known : w.nodes n with
  | none =>
    left
    rw [vfsUnmountLocked, known]
  | some node =>
    by_cases refused : node.mount = false ∨ node.unmounting = true ∨
        vfsCheckopenfiles w n = true ∨ vfsCheckdirused w n = true
    · left
      rw [vfsUnmountLocked, known]
      exact if_pos refused
    right
    simp only [not_or, Bool.not_eq_false, Bool.not_eq_true] at refused
    obtain ⟨marked, -, closed, unused⟩ := refused
    have inner : n ≠ 0 := by
      rintro rfl
      rw [kept.treed.root_used] at unused
      cases unused
    obtain ⟨i, j, moored⟩ := kept.moored n node known marked inner
    obtain ⟨w', done, unmounted⟩ :=
      kept.unmount_free known marked inner moored closed unused
    exact ⟨node, i, j, w', rfl, marked, inner, moored, closed, unused, done, unmounted⟩

theorem Treed.closed_below (treed : Treed w) (closed : vfsCheckopenfiles w n = false)
    (below : Below w.files n k) (known : w.nodes k = some node) : node.mount = false := by
  have calm := List.any_eq_false.mp closed k ((treed.mem_visited n).mpr below)
  rw [known, any_some, Bool.or_eq_true, not_or, Bool.not_eq_true] at calm
  exact calm.1

namespace Unmounted

section

variable (unmounted : Unmounted w n i j w')
include unmounted

theorem there : w'.There k ↔ w.There k ∧ k ≠ n ∧ ¬ Below w.files n k := by
  unfold World.There
  by_cases away : k = n ∨ Below w.files n k
  · rw [unmounted.gone k away]
    simp only [isSome_none, Bool.false_eq_true, false_iff, not_and]
    rintro - other aside
    exact away.elim other aside
  obtain ⟨other, aside⟩ := not_or.mp away
  rw [unmounted.rest k other aside]
  split
  · rw [isSome_map]
    exact ⟨fun known => ⟨known, other, aside⟩, fun known => known.1⟩
  · exact ⟨fun known => ⟨known, other, aside⟩, fun known => known.1⟩

theorem path (other : k ≠ n) (aside : ¬ Below w.files n k) : w'.path k = w.path k := by
  unfold World.path
  rw [unmounted.rest k other aside]
  split
  · cases w.nodes k <;> rfl
  · rfl

theorem isDirectory (other : k ≠ n) (aside : ¬ Below w.files n k) :
    w'.isDirectory k = w.isDirectory k := by
  unfold World.isDirectory
  rw [unmounted.rest k other aside]
  split
  · cases w.nodes k <;> rfl
  · rfl

theorem files_gone (away : k = n ∨ Below w.files n k) : w'.files k = [] := by
  rw [World.files, unmounted.gone k away]
  rfl

end

/-- Only the parent's list contained the node. -/
theorem files (treed : Treed w) (unmounted : Unmounted w n i j w') (other : k ≠ n)
    (aside : ¬ Below w.files n k) : w'.files k = (w.files k).erase n := by
  by_cases parent : w.path n = some k
  · unfold World.files
    rw [unmounted.rest k other aside, if_pos parent]
    cases w.nodes k with
    | none => rfl
    | some node => exact entries_without node
  · have absent : n ∉ w.files k := fun here => parent (treed.down k n here).2
    rw [List.erase_of_not_mem absent]
    unfold World.files
    rw [unmounted.rest k other aside, if_neg parent]

/-- The nodes that remain are a tree. -/
theorem treed (treed : Treed w) (unmounted : Unmounted w n i j w') (inner : n ≠ 0)
    (unused : vfsCheckdirused w n = false) : Treed w' := by
  have rootAside : ¬ Below w.files n 0 := fun below => absurd (below.lt treed.rising) (by simp)
  have stays : ∀ m c, m ≠ n → ¬ Below w.files n m → c ∈ w.files m → c ≠ n →
      ¬ Below w.files n c := by
    intro m c other aside here apart below
    rcases below.last with direct | ⟨m', deeper, direct⟩
    · exact other (Option.some.inj
        ((treed.down m c here).2.symm.trans (treed.down n c direct).2))
    · obtain rfl := Option.some.inj
        ((treed.down m c here).2.symm.trans (treed.down m' c direct).2)
      exact aside deeper
  constructor
  case fresh =>
    intro k known
    rw [unmounted.next]
    exact treed.fresh k (unmounted.there.mp known).1
  case root => exact unmounted.there.mpr ⟨treed.root, inner.symm, rootAside⟩
  case noParent => exact (unmounted.path inner.symm rootAside).trans treed.noParent
  case up =>
    intro k known inside
    obtain ⟨known, other, aside⟩ := unmounted.there.mp known
    obtain ⟨m, lower, parent, here⟩ := treed.up k known inside
    have parentOther : m ≠ n := by
      rintro rfl
      exact aside (.child here)
    have parentAside : ¬ Below w.files n m := fun below => aside (below.down here)
    refine ⟨m, lower, (unmounted.path other aside).trans parent, ?_⟩
    rw [unmounted.files treed parentOther parentAside]
    exact (List.mem_erase_of_ne other).mpr here
  case down =>
    intro m k here
    by_cases away : m = n ∨ Below w.files n m
    · rw [unmounted.files_gone away] at here
      cases here
    obtain ⟨other, aside⟩ := not_or.mp away
    rw [unmounted.files treed other aside] at here
    obtain ⟨apart, here⟩ := (treed.once m).mem_erase_iff.mp here
    have childAside := stays m k other aside here apart
    exact ⟨unmounted.there.mpr ⟨(treed.down m k here).1, apart, childAside⟩,
      (unmounted.path apart childAside).trans (treed.down m k here).2⟩
  case once =>
    intro m
    by_cases away : m = n ∨ Below w.files n m
    · rw [unmounted.files_gone away]
      exact List.nodup_nil
    · obtain ⟨other, aside⟩ := not_or.mp away
      rw [unmounted.files treed other aside]
      exact (treed.once m).erase n
  case proper =>
    intro m filled
    by_cases away : m = n ∨ Below w.files n m
    · exact absurd (unmounted.files_gone away) filled
    obtain ⟨other, aside⟩ := not_or.mp away
    rw [unmounted.files treed other aside] at filled
    rw [unmounted.isDirectory other aside]
    obtain ⟨c, here⟩ := List.exists_mem_of_ne_nil _ filled
    exact treed.proper m (List.ne_nil_of_mem (List.mem_of_mem_erase here))
  case used => exact unmounted.workdirs ▸ treed.used
  case workdirs =>
    intro k member
    rw [unmounted.workdirs] at member
    have clear : climbs w.path n k k = false :=
      Bool.eq_false_iff.mpr (List.any_eq_false.mp unused k member)
    refine unmounted.there.mpr ⟨treed.workdirs k member, ?_, ?_⟩
    · rintro rfl
      rw [climbs_self] at clear
      cases clear
    intro below
    have passes : climbs w.path n k k = true :=
      below.climbs (fun d k here => (treed.down d k here).2) treed.falling le_rfl
    rw [passes] at clear
    cases clear

/-- A node that remains, as it was but for its list. -/
theorem rest_cases (unmounted : Unmounted w n i j w') {after : Node}
    (known : w'.nodes k = some after) :
    k ≠ n ∧ ∃ before files, w.nodes k = some before ∧ after = { before with files := files } := by
  obtain ⟨-, other, aside⟩ := unmounted.there.mp (there_of_some known)
  refine ⟨other, ?_⟩
  rw [unmounted.rest k other aside] at known
  split at known
  · obtain ⟨before, found, rfl⟩ := map_eq_some_iff.mp known
    exact ⟨before, _, found, rfl⟩
  · exact ⟨after, after.files, known, rfl⟩

theorem count (treed : Treed w) (treed' : Treed w') (unmounted : Unmounted w n i j w')
    (closed : vfsCheckopenfiles w n = false) (known : w.There n) {ref : Node → Option Ptr}
    {slot : SlotId} (blind : Blind ref) (owns : w.holds ref n = some slot) (k : SlotId) :
    w.count ref k = w'.count ref k + share (some slot) k := by
  have member : n ∈ range w.next := mem_range.mpr (treed.fresh n known)
  have empty : w'.holds ref n = none := by
    rw [holds_eq treed', unmounted.gone n (.inl rfl), bind_none]
  have same : ∀ m ∈ range w.next, m ≠ n → w'.holds ref m = w.holds ref m := by
    intro m _ other
    rw [holds_eq treed', holds_eq treed, unmounted.registry]
    by_cases below : Below w.files n m
    · rw [unmounted.gone m (.inr below), bind_none]
      cases found : w.nodes m with
      | none => rfl
      | some node => exact (owner_plain _ (treed.closed_below closed below found)).symm
    · rw [unmounted.rest m other below]
      split
      · cases w.nodes m with
        | none => rfl
        | some node => exact owner_moved _ blind node node.path _
      · rfl
  have moved := tally_change (w.holds ref) (w'.holds ref) member same k
  rw [owns, empty, share_none] at moved
  unfold World.count
  rw [unmounted.next]
  omega

end Unmounted

theorem Kept.unmounted (kept : Kept base w) (known : w.nodes n = some node)
    (marked : node.mount = true) (inner : n ≠ 0) (moored : Moored w.registry node i j)
    (closed : vfsCheckopenfiles w n = false) (unused : vfsCheckdirused w n = false)
    (unmounted : Unmounted w n i j w') : Kept base w' := by
  have treed := unmounted.treed kept.treed inner unused
  obtain ⟨fsOwner, blockOwner⟩ := kept.owners known marked moored
  have there := there_of_some known
  refine ⟨treed, ?_, ?_, ?_⟩
  · rw [unmounted.registry]
    exact kept.homes
  · intro k after found mount inside
    obtain ⟨other, before, files, earlier, rfl⟩ := unmounted.rest_cases found
    obtain ⟨i', j', tied⟩ := kept.moored k before earlier mount inside
    rw [unmounted.registry]
    refine ⟨i', j', Moored.moved (tied.transfer ?_) before.path files⟩
    intro p slot present
    exact { present with }
  · rw [unmounted.registry]
    exact kept.balanced.drop (unmounted.count kept.treed treed closed there blind_fs fsOwner)
      (unmounted.count kept.treed treed closed there blind_block blockOwner)

theorem Kept.vfsUnmountLocked (kept : Kept base w) (n : NodeId) :
    Kept base (vfsUnmountLocked w n).2 := by
  rcases kept.unmount_cases n with refused | ⟨node, i, j, w', known, marked, inner, moored, closed,
    unused, done, unmounted⟩
  · rw [refused]
    exact kept
  · rw [done]
    exact kept.unmounted known marked inner moored closed unused unmounted

variable {p q : Ptr} {change : Node → Node}

/-- Both devices are taken, or `mount_fail` gives back what was. -/
theorem claims_cases
    (homes : ∀ i p, r.devlist i = some p → ∃ dev, r.heap p = some dev ∧ dev.id = (i.val : Int))
    (fsid devid : SlotId) {myfs myblock : Option Ptr} {r₁ r₂ : Registry}
    (get : devmgrGetdeviceRef r fsid.val = (myfs, r₁))
    (claim : devmgrClaimdeviceRef r₁ devid.val = (myblock, r₂)) :
    mountFail r₂ devid.val myfs myblock = r ∧
      ∀ p q, myfs = some p → myblock = some q → ∃ i, Present r p i ∧ Present r q devid ∧
        (r.statuslist devid).locked = 0 ∧ r₂ = held r (some i) (some devid) (some devid) := by
  obtain ⟨fs, gotFs, rfl⟩ := getdeviceRef_held homes get
  rcases claimdeviceRef_held (r := held r fs none none) homes devid with
    refused | ⟨q, present, unlocked, granted⟩
  · obtain rfl : myblock = none := congrArg Prod.fst (claim.symm.trans refused)
    obtain rfl : r₂ = held r fs none none := congrArg Prod.snd (claim.symm.trans refused)
    have nothing : Got r none none := trivial
    refine ⟨put_both gotFs nothing, ?_⟩
    intro p q _ claimed
    cases claimed
  · obtain rfl : myblock = some q := congrArg Prod.fst (claim.symm.trans granted)
    obtain rfl := congrArg Prod.snd (claim.symm.trans granted)
    have blockThere : Present r q devid := { present with }
    have free : (r.statuslist devid).locked = 0 := unlocked
    rw [held_held]
    constructor
    · unfold mountFail
      rw [isSome_some, if_pos rfl, setlock_held blockThere free]
      have gotBlock : Got r (some q) (some devid) := blockThere
      exact put_both gotFs gotBlock
    intro p q' first second
    obtain rfl := Option.some.inj second
    subst first
    cases fs with
    | none => exact gotFs.elim
    | some i => exact ⟨i, gotFs, blockThere, free, rfl⟩

theorem changeNode_createnode
    (moves : ∀ node path, change { node with path := path } = { change node with path := path }) :
    (vfsCreatenode w d node).changeNode w.next change = vfsCreatenode w d (change node) := by
  unfold World.changeNode vfsCreatenode
  dsimp only
  rw [update_self, update_idem, map_some, moves]

/-- With its devices and the `fsid` that `mountroot` stored. -/
def mountPoint (fsid devid : Int) (myfs myblock : Ptr) : Node :=
  { cleared fsid devid true with
    mount := true, fsDeviceRef := some myfs, blockDeviceRef := some myblock }

/-- The world when `mountroot` returns. -/
def placed (w : World) (d : NodeId) (devid : Int) (myfs myblock : Ptr) (mountroot : Mountroot) :
    World :=
  populate (vfsCreatenode w d (mountPoint mountroot.fsid devid myfs myblock)) w.next
    mountroot.fsid devid mountroot.entries

theorem mountOn_cases (w : World) (place : Location) (fsid devid : Int) (myfs myblock : Ptr)
    (mountroot : Mountroot) :
    mountOn w place fsid devid myfs myblock mountroot = none ∨
      ∃ d, place.destdir = some d ∧ mountOn w place fsid devid myfs myblock mountroot =
        some (if mountroot.retval = -1 then
            (-1, (vfsUnmountLocked (placed w d devid myfs myblock mountroot) w.next).2)
          else (mountroot.retval, placed w d devid myfs myblock mountroot)) := by
  unfold mountOn
  split
  · exact .inl rfl
  rename_i open_
  obtain ⟨-, missing⟩ := not_or.mp open_
  rw [mkvirtualdir, if_neg missing]
  cases place.destdir with
  | none => exact .inl rfl
  | some d =>
    right
    refine ⟨d, rfl, ?_⟩
    dsimp only [Mountroot.run]
    rw [changeNode_createnode fun _ _ => rfl, changeNode_createnode fun _ _ => rfl]
    rw [apply_ite some]
    rfl

theorem populate_registry (w : World) (d : NodeId) (fsid memid : Int) (entries : List Bool) :
    (populate w d fsid memid entries).registry = w.registry := by
  induction entries generalizing w with
  | nil => rfl
  | cons directory rest ih => exact ih _

theorem populate_workdirs (w : World) (d : NodeId) (fsid memid : Int) (entries : List Bool) :
    (populate w d fsid memid entries).workdirs = w.workdirs := by
  induction entries generalizing w with
  | nil => rfl
  | cons directory rest ih => exact ih _

theorem populate_old (fsid memid : Int) (entries : List Bool) (old : k < w.next) (aside : k ≠ d) :
    (populate w d fsid memid entries).nodes k = w.nodes k := by
  induction entries generalizing w with
  | nil => rfl
  | cons directory rest ih =>
    have later : k < (vfsCreatenode w d (entry fsid memid directory)).next :=
      old.trans (Nat.lt_succ_self _)
    exact (ih later).trans (createnode_other _ old.ne aside)

theorem populate_point (fsid memid : Int) (entries : List Bool) (old : d < w.next)
    (known : w.nodes d = some node) :
    ∃ files, (populate w d fsid memid entries).nodes d = some { node with files := files } := by
  induction entries generalizing w node with
  | nil => exact ⟨node.files, known⟩
  | cons directory rest ih =>
    have later : d < (vfsCreatenode w d (entry fsid memid directory)).next :=
      old.trans (Nat.lt_succ_self _)
    have changed : (vfsCreatenode w d (entry fsid memid directory)).nodes d =
        some { node with files := some (w.next :: node.entries) } := by
      rw [createnode_nodes, if_neg old.ne, if_pos rfl, known, map_some]
    obtain ⟨files, result⟩ := ih later changed
    exact ⟨files, result⟩

/-- An entry that nobody uses yet. -/
structure Idle (d : NodeId) (node : Node) : Prop where
  mount : node.mount = false
  opened : node.opened = 0
  path : node.path = some d

/-- What the driver adds are entries of the directory. -/
theorem populate_new (fsid memid : Int) (entries : List Bool) (first : NodeId) (old : d < first)
    (begun : first ≤ w.next) (idle : ∀ k node, first ≤ k → w.nodes k = some node → Idle d node)
    (later : first ≤ k) (known : (populate w d fsid memid entries).nodes k = some node) :
    Idle d node := by
  induction entries generalizing w with
  | nil => exact idle k node later known
  | cons directory rest ih =>
    refine ih (begun.trans (Nat.le_succ _)) ?_ known
    intro m after beyond found
    have aside : m ≠ d := (old.trans_le beyond).ne'
    by_cases new : m = w.next
    · rw [new, createnode_nodes, if_pos rfl] at found
      obtain rfl := Option.some.inj found
      exact ⟨rfl, rfl, rfl⟩
    · rw [createnode_other _ new aside] at found
      exact idle m after beyond found

section Placed

variable (devid : Int) (myfs myblock : Ptr) (mountroot : Mountroot)

theorem placed_point : ∃ files, (placed w d devid myfs myblock mountroot).nodes w.next =
    some { mountPoint mountroot.fsid devid myfs myblock with path := some d, files := files } := by
  have point : (vfsCreatenode w d (mountPoint mountroot.fsid devid myfs myblock)).nodes w.next =
      some { mountPoint mountroot.fsid devid myfs myblock with path := some d } := by
    rw [createnode_nodes, if_pos rfl]
  exact populate_point mountroot.fsid devid mountroot.entries (Nat.lt_succ_self _) point

theorem placed_old (old : k < w.next) :
    (placed w d devid myfs myblock mountroot).nodes k =
      if k = d then (w.nodes d).map fun p => { p with files := some (w.next :: p.entries) }
      else w.nodes k := by
  have later : k < (vfsCreatenode w d (mountPoint mountroot.fsid devid myfs myblock)).next :=
    old.trans (Nat.lt_succ_self _)
  rw [placed, populate_old _ _ _ later old.ne, createnode_nodes, if_neg old.ne]

theorem placed_new (free : ∀ k, w.next ≤ k → w.nodes k = none) (older : d < w.next)
    (later : w.next < k) (known : (placed w d devid myfs myblock mountroot).nodes k = some node) :
    Idle w.next node := by
  refine populate_new _ _ _ (w.next + 1) (Nat.lt_succ_self _) le_rfl ?_ later known
  intro m after beyond found
  have higher : w.next < m := beyond
  rw [createnode_other _ higher.ne' (older.trans higher).ne', free m higher.le] at found
  cases found

end Placed

section Placing

variable (kept : Kept base w) (dir : w.isDirectory d = true) (fsPresent : Present w.registry p i)
  (blockPresent : Present w.registry q j) (unlocked : (w.registry.statuslist j).locked = 0)
  (mountroot : Mountroot)

include kept dir fsPresent blockPresent unlocked

theorem Kept.placed :
    Kept base (placed (claimed w i j) d j.val p q mountroot) := by
  have created : Kept base (vfsCreatenode (claimed w i j) d
      (mountPoint mountroot.fsid j.val p q)) :=
    kept.mounted dir rfl rfl rfl rfl rfl rfl fsPresent blockPresent unlocked
  refine created.populate ?_ _ _ _
  rw [createnode_isDirectory, if_pos rfl]
  rfl

/-- A driver that refuses the device leaves everything as it was. -/
theorem Kept.refused (read : ∃ parent, w.nodes d = some parent ∧ parent.files.isSome = true) :
    Unchanged w (Mounts.vfsUnmountLocked
      (Mounts.placed (claimed w i j) d j.val p q mountroot) w.next).2 := by
  have after := kept.placed dir fsPresent blockPresent unlocked mountroot
  have older : d < w.next := kept.treed.fresh d (Treed.there_of_directory dir)
  obtain ⟨files, point⟩ := placed_point (w := claimed w i j) (d := d) j.val p q mountroot
  have old := fun k => placed_old (w := claimed w i j) (d := d) (k := k) j.val p q mountroot
  have new : ∀ k node, w.next < k →
      (Mounts.placed (claimed w i j) d j.val p q mountroot).nodes k = some node →
      Idle w.next node := fun k node later known =>
    placed_new (w := claimed w i j) j.val p q mountroot
      (fun k later => kept.treed.fresh_none later) older later known
  have registry : (Mounts.placed (claimed w i j) d j.val p q mountroot).registry =
      held w.registry (some i) (some j) (some j) := populate_registry ..
  have workdirs : (Mounts.placed (claimed w i j) d j.val p q mountroot).workdirs = w.workdirs :=
    populate_workdirs ..
  generalize Mounts.placed (claimed w i j) d j.val p q mountroot = w₃
    at after point old new registry workdirs ⊢
  dsimp only [claimed] at point old
  have closed : vfsCheckopenfiles w₃ w.next = false := by
    apply List.any_eq_false.mpr
    intro k met
    have higher := (below_of_mem_visit met).lt after.treed.rising
    cases known : w₃.nodes k with
    | none => exact Bool.false_ne_true
    | some node =>
      have idle := new k node higher known
      rw [any_some, idle.mount, idle.opened]
      decide
  have unused : vfsCheckdirused w₃ w.next = false := by
    apply List.any_eq_false.mpr
    intro k member arrives
    rw [workdirs] at member
    have lower := kept.treed.fresh k (kept.treed.workdirs k member)
    exact absurd (le_of_climbs after.treed.falling arrives) lower.not_ge
  have moored : Moored w₃.registry { mountPoint mountroot.fsid j.val p q with
      path := some d, files := files } i j := by
    rw [registry]
    exact ⟨⟨p, rfl, fsPresent.held⟩, ⟨q, rfl, blockPresent.held⟩, rfl, rfl⟩
  have inner : w.next ≠ 0 := (Nat.zero_le d |>.trans_lt older).ne'
  obtain ⟨w', done, unmounted⟩ := after.unmount_free point rfl inner moored closed unused
  rw [done]
  have path : w₃.path w.next = some d := by
    rw [World.path, point]
    rfl
  constructor
  · rw [unmounted.registry, registry]
    exact dropped_held unlocked
  funext k
  by_cases away : k = w.next ∨ Below w₃.files w.next k
  · have later : w.next ≤ k := by
      rcases away with same | below
      · exact same.ge
      · exact (below.lt after.treed.rising).le
    rw [unmounted.gone k away, kept.treed.fresh_none later]
  · obtain ⟨other, aside⟩ := not_or.mp away
    rw [unmounted.rest k other aside, path]
    rcases lt_or_gt_of_ne other with lower | higher
    · rw [old k lower]
      by_cases same : k = d
      · subst same
        obtain ⟨parent, known, listed⟩ := read
        rw [if_pos rfl, if_pos rfl, known, map_some, map_some, without_listed listed]
      · rw [if_neg fun equal => same (Option.some.inj equal).symm, if_neg same]
    · cases known : w₃.nodes k with
      | none =>
        rw [kept.treed.fresh_none higher.le]
        split <;> rfl
      | some node =>
        have idle := new k node higher known
        have inside : k ≠ 0 := (Nat.zero_le _ |>.trans_lt higher).ne'
        obtain ⟨m, -, parent, here⟩ := after.treed.up k (there_of_some known) inside
        rw [World.path, known, bind_some, idle.path] at parent
        cases parent
        exact absurd (.child here) aside

end Placing

theorem mount_cases
    (homes : ∀ i p, w.registry.devlist i = some p →
      ∃ dev, w.registry.heap p = some dev ∧ dev.id = (i.val : Int))
    (fsname : Option String) (devname : String) (place : Location) (mountroot : Mountroot) :
    vfsMountDeviceLocked w fsname devname place mountroot = (-1, w) ∨
      ∃ i j p q d, Present w.registry p i ∧ Present w.registry q j ∧
        (w.registry.statuslist j).locked = 0 ∧ place.destdir = some d ∧
        vfsMountDeviceLocked w fsname devname place mountroot = if mountroot.retval = -1 then
            (-1, (vfsUnmountLocked (placed (claimed w i j) d j.val p q mountroot) w.next).2)
          else (mountroot.retval, placed (claimed w i j) d j.val p q mountroot) := by
  unfold vfsMountDeviceLocked
  split
  · exact .inl rfl
  split
  · rename_i fsid devid findFs findDev
    rcases get : devmgrGetdeviceRef w.registry fsid.val with ⟨myfs, r₁⟩
    rcases claim : devmgrClaimdeviceRef r₁ devid.val with ⟨myblock, r₂⟩
    obtain ⟨restored, both⟩ := claims_cases homes fsid devid get claim
    dsimp only
    rw [claim, restored]
    dsimp only
    split
    · rename_i p q
      obtain ⟨i, fsPresent, blockPresent, unlocked, rfl⟩ := both p q rfl rfl
      split
      · exact .inl rfl
      rcases mountOn_cases (claimed w i devid) place fsid.val devid.val p q mountroot with
        missing | ⟨d, destdir, result⟩
      · left
        exact congrArg (fun answer => getD answer (-1, w)) missing
      · right
        refine ⟨i, devid, p, q, d, fsPresent, blockPresent, unlocked, destdir, ?_⟩
        exact congrArg (fun answer => getD answer (-1, w)) result
    · exact .inl rfl
  · exact .inl rfl

theorem Unchanged.refl (w : World) : Unchanged w w := ⟨rfl, rfl⟩

theorem Kept.vfsMountDeviceLocked (kept : Kept base w) (fsname : Option String) (devname : String)
    {place : Location} (mountroot : Mountroot) (housed : place.Housed w) :
    Kept base (vfsMountDeviceLocked w fsname devname place mountroot).2 ∧
      ((Mounts.vfsMountDeviceLocked w fsname devname place mountroot).1 = -1 →
        Unchanged w (Mounts.vfsMountDeviceLocked w fsname devname place mountroot).2) := by
  rcases mount_cases kept.homes fsname devname place mountroot with
    failed | ⟨i, j, p, q, d, fsPresent, blockPresent, unlocked, destdir, result⟩
  · rw [failed]
    exact ⟨kept, fun _ => Unchanged.refl w⟩
  obtain ⟨parent, known, directory, read⟩ := housed d destdir
  have dir : w.isDirectory d = true := by
    rw [World.isDirectory, known]
    exact directory
  have placed := kept.placed dir fsPresent blockPresent unlocked mountroot
  rw [result]
  split
  · exact ⟨placed.vfsUnmountLocked _, fun _ =>
      kept.refused dir fsPresent blockPresent unlocked mountroot ⟨parent, known, read⟩⟩
  · rename_i succeeded
    exact ⟨placed, fun failed => absurd failed succeeded⟩

theorem Kept.vfsRemountDevice (kept : Kept base w) (fits : Bool) (node : Option NodeId)
    (fsname : Option String) (devname : String) {place : Location} (mountroot : Mountroot)
    (housed : ∀ n, node = some n → place.Housed (Mounts.vfsUnmountLocked w n).2) :
    Kept base (vfsRemountDevice w fits node fsname devname place mountroot).2 ∧
      ((Mounts.vfsRemountDevice w fits node fsname devname place mountroot).1 = -1 →
        FailsCleanly w (.remountDevice fits node fsname devname place mountroot)
          (Mounts.vfsRemountDevice w fits node fsname devname place mountroot).2) := by
  have nothing : Kept base w ∧ ((-1 : Int) = -1 →
      FailsCleanly w (.remountDevice fits node fsname devname place mountroot) w) :=
    ⟨kept, fun _ => .inl (Unchanged.refl w)⟩
  cases node with
  | none => exact nothing
  | some n =>
    unfold Mounts.vfsRemountDevice
    dsimp only
    split
    · exact nothing
    rcases kept.unmount_cases n with refused | ⟨node, i, j, w', known, marked, inner, moored,
      closed, unused, done, unmounted⟩
    · rw [refused]
      dsimp only
      exact nothing
    have after := kept.unmounted known marked inner moored closed unused unmounted
    have housed' := housed n rfl
    rw [done] at housed' ⊢
    rw [if_pos rfl]
    obtain ⟨keeps, cleanly⟩ :=
      after.vfsMountDeviceLocked fsname devname mountroot housed'
    refine ⟨keeps, fun failed => .inr ⟨n, rfl, ?_⟩⟩
    rw [done]
    exact ⟨rfl, cleanly failed⟩

theorem perform_mountDevice (w : World) (fsname : Option String) (devname : String)
    (place : Location) (mountroot : Mountroot) :
    perform w (.mountDevice fsname devname place mountroot) =
      vfsMountDeviceLocked w fsname devname place mountroot := rfl

/-- One call, or what other code does between two calls. -/
theorem Kept.perform (kept : Kept base w) {act : Act} (possible : Possible w act)
    (inDirectory : InDirectory w act) :
    Kept base (perform w act).2 ∧
      ((Mounts.perform w act).1 = -1 → FailsCleanly w act (Mounts.perform w act).2) := by
  cases act with
  | mountDevice fsname devname place mountroot =>
    rw [perform_mountDevice]
    exact kept.vfsMountDeviceLocked fsname devname mountroot inDirectory
  | unmount node =>
    cases node with
    | none => exact ⟨kept, fun _ => Unchanged.refl w⟩
    | some n =>
      refine ⟨kept.vfsUnmountLocked n, ?_⟩
      intro failed
      rcases kept.unmount_cases n with refused | ⟨_, _, _, w', -, -, -, -, -, -, done, -⟩
      · change Unchanged w (Mounts.vfsUnmountLocked w n).2
        rw [refused]
        exact Unchanged.refl w
      · change (Mounts.vfsUnmountLocked w n).1 = -1 at failed
        rw [done] at failed
        cases failed
  | remountDevice fits node fsname devname place mountroot =>
    exact kept.vfsRemountDevice fits node fsname devname mountroot inDirectory
  | mountdirectory d entries => exact ⟨kept.vfsMountdirectory possible entries, fun _ => trivial⟩
  | opened n count =>
    refine ⟨kept.changeNode ?_, fun _ => trivial⟩
    constructor <;> intro node <;> rfl
  | workdirs dirs => exact ⟨kept.workdirs possible.1 possible.2, fun _ => trivial⟩

theorem Booted.there (booted : Booted base w) : w.There k ↔ k = 0 := by
  rw [World.There, booted.nodes, update_apply]
  split <;> simp [*]

theorem Booted.kept (booted : Booted base w) : Kept base w := by
  have files : ∀ k, w.files k = [] := by
    intro k
    rw [World.files, booted.nodes, update_apply]
    split <;> rfl
  have treed : Treed w := by
    constructor
    case fresh =>
      intro k known
      rw [booted.there.mp known, booted.next]
      exact Nat.zero_lt_one
    case root => exact booted.there.mpr rfl
    case noParent =>
      rw [World.path, booted.nodes, update_self]
      rfl
    case up => exact fun k known inner => absurd (booted.there.mp known) inner
    case down =>
      intro m k here
      rw [files] at here
      cases here
    case once =>
      intro m
      rw [files]
      exact List.nodup_nil
    case proper => exact fun m filled => absurd (files m) filled
    case used => exact booted.workdirs.1
    case workdirs => exact fun k member => booted.there.mpr (booted.workdirs.2 k member)
  have empty : ∀ ref, ref vfsRoot = none → ∀ i, w.count ref i = 0 := by
    intro ref blank i
    apply tally_zero
    intro k _
    rw [holds_eq treed, booted.nodes, update_apply]
    split
    · rw [bind_some, owner, blank]
      rintro ⟨⟩
    · rintro ⟨⟩
  refine ⟨treed, booted.homes, ?_, ?_⟩
  · intro k node known marked inner
    exact absurd (booted.there.mp (there_of_some known)) inner
  refine ⟨fun i => ?_, fun i => ?_, fun i => ?_⟩
  · rw [empty _ rfl, empty _ rfl]
    exact booted.refs i
  · rw [empty _ rfl]
    exact booted.unlocked i
  · rw [empty _ rfl]
    exact Nat.zero_le 1

theorem Kept.settled (kept : Kept base w) : Settled base w := by
  refine ⟨kept.balanced, ?_⟩
  intro n node known marked inner
  obtain ⟨i, j, moored⟩ := kept.moored n node known marked inner
  obtain ⟨fsOwner, blockOwner⟩ := kept.owners known marked moored
  rw [fsOwner, blockOwner]
  exact ⟨rfl, rfl⟩

theorem reachable_kept (run : Reachable (mounting base) InDirectory w) : Kept base w := by
  refine run.invariant (fun w booted => Booted.kept booted) ?_
  rintro w act w' kept inDirectory ⟨possible, rfl⟩
  exact (kept.perform possible inDirectory).1

end

section Runs

variable {base : SlotId → Nat} {w : World}

/-- Where mount points are made in directories, a mount node has one reference of either kind, a
block device is locked while a mount node has it, and failing calls change nothing. -/
theorem mounts_stay_balanced (run : Reachable (mounting base) InDirectory w) :
    Settled base w ∧ ∀ act, Possible w act → InDirectory w act → (perform w act).1 = -1 →
      FailsCleanly w act (perform w act).2 :=
  ⟨(reachable_kept run).settled, fun _ possible inDirectory =>
    ((reachable_kept run).perform possible inDirectory).2⟩

/-- A file system and two disks. -/
def threeDevices : Registry where
  devlist i := if i.val < 3 then some i.val else none
  statuslist i := ⟨0, 0, 1, if i.val < 3 then .live else .free⟩
  heap p :=
    if p = 0 then some ⟨304, 0, "fat"⟩
    else if p = 1 then some ⟨304, 1, "hd0"⟩
    else if p = 2 then some ⟨304, 2, "hd1"⟩
    else none

def booted : World where
  registry := threeDevices
  type p := if p = 0 then .fs else .block
  nodes := Function.update (fun _ => none) 0 (some vfsRoot)
  next := 1
  workdirs := [0]

theorem booted_start : Booted (fun _ => 0) booted where
  homes
    | ⟨0, _⟩, _, rfl => ⟨_, rfl, rfl⟩
    | ⟨1, _⟩, _, rfl => ⟨_, rfl, rfl⟩
    | ⟨2, _⟩, _, rfl => ⟨_, rfl, rfl⟩
  refs i := rfl
  unlocked i := rfl
  nodes := rfl
  next := rfl
  workdirs := ⟨by decide, by decide⟩

/-- The first disk at a name in the root, with one file, node 2. -/
def mountFirst : Act := .mountDevice (some "fat") "hd0" ⟨true, none, some 0⟩ ⟨1, 0, [false]⟩

theorem mountFirst_possible : Possible booted mountFirst := by
  refine ⟨nofun, ?_⟩
  rintro d ⟨⟩
  rfl

theorem mounts_stay_balanced_first :
    Settled (fun _ => 0) (perform booted mountFirst).2 ∧
      ∀ act, Possible (perform booted mountFirst).2 act →
        InDirectory (perform booted mountFirst).2 act →
        (perform (perform booted mountFirst).2 act).1 = -1 →
        FailsCleanly (perform booted mountFirst).2 act
          (perform (perform booted mountFirst).2 act).2 := by
  refine mounts_stay_balanced (.step (.start booted_start) ?_ ⟨mountFirst_possible, rfl⟩)
  rintro d ⟨⟩
  exact ⟨vfsRoot, rfl, rfl, rfl⟩

/-- The second disk at a name below the file. -/
def mountSecond : Act := .mountDevice (some "fat") "hd1" ⟨true, none, some 2⟩ ⟨1, 0, []⟩

def slotTwo : SlotId := ⟨2, by decide⟩

/-- A mount point below a file is not seen: the second disk stays locked. -/
theorem claim_outlives_tree : ∃ w, Reachable (mounting fun _ => 0) (fun _ _ => True) w ∧
    (w.registry.statuslist slotTwo).locked = 1 ∧ (w.registry.statuslist slotTwo).refs = 1 ∧
    w.count Node.fsDeviceRef slotTwo + w.count Node.blockDeviceRef slotTwo = 0 := by
  have first : Reachable (mounting fun _ => 0) (fun _ _ => True) (perform booted mountFirst).2 :=
    .step (.start booted_start) trivial ⟨mountFirst_possible, rfl⟩
  have second : Reachable (mounting fun _ => 0) (fun _ _ => True)
      (perform (perform booted mountFirst).2 mountSecond).2 := by
    refine .step (a := mountSecond) first trivial ⟨⟨nofun, ?_⟩, rfl⟩
    rintro d ⟨⟩
    unfold World.There
    decide +kernel
  refine ⟨(perform (perform (perform booted mountFirst).2 mountSecond).2 (.unmount (some 1))).2,
    .step second trivial ⟨?_, rfl⟩, ?_⟩
  · rintro n ⟨⟩
    unfold World.There
    decide +kernel
  · decide +kernel

end Runs

end IcsOs.Vfs.Mounts
