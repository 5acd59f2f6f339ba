/- GID: IcsOs/Vfs/Mounts
   generality: I
   source: kernel/vfs/vfs_core.c, kernel/devmgr/dex32_devmgr.c
   digest: Mounting and unmounting: the device references and claims that mount nodes hold. -/

import IcsOs.Devmgr.Lifecycle
import IcsOs.Lib.Forests
import IcsOs.Lib.Ledger
import IcsOs.Lib.Runs

set_option autoImplicit false

namespace IcsOs.Vfs.Mounts

open Devmgr.Lifecycle Lib.Forests Lib.Ledger Lib.Runs

/-- Allocations of `vfs_node` in order; the root is 0. -/
abbrev NodeId := Nat

/-- `DEVMGR_FS`, `DEVMGR_BLOCK` and the other types of devices. -/
inductive DevType
  | fs
  | block
  | other
  deriving DecidableEq

/-- `files` is `none` where it is `VFS_NOT_MOUNTED`. -/
structure Node where
  path : Option NodeId
  files : Option (List NodeId)
  directory : Bool
  mount : Bool
  fsid : Int
  memid : Int
  fsDeviceRef : Option Ptr
  blockDeviceRef : Option Ptr
  opened : Int
  unmounting : Bool

def Node.entries (node : Node) : List NodeId := node.files.getD []

/-- Devices with their types, the nodes and the processes' working directories. -/
structure World where
  registry : Registry
  type : Ptr → DevType
  nodes : NodeId → Option Node
  next : NodeId
  workdirs : List NodeId

def World.files (w : World) (n : NodeId) : List NodeId := ((w.nodes n).map Node.entries).getD []

def World.path (w : World) (n : NodeId) : Option NodeId := (w.nodes n).bind Node.path

def World.isDirectory (w : World) (n : NodeId) : Bool := (w.nodes n).any Node.directory

def World.There (w : World) (n : NodeId) : Prop := (w.nodes n).isSome = true

def World.changeNode (w : World) (n : NodeId) (change : Node → Node) : World :=
  { w with nodes := Function.update w.nodes n ((w.nodes n).map change) }

/-- For a node with the fields its caller fills in. -/
def vfsCreatenode (w : World) (parent : NodeId) (node : Node) : World :=
  { w with
    nodes := Function.update
      (w.changeNode parent fun p => { p with files := some (w.next :: p.entries) }).nodes w.next
      (some { node with path := some parent })
    next := w.next + 1 }

/-- A node as `malloc` and `memset` leave it. -/
def cleared (fsid memid : Int) (directory : Bool) : Node where
  path := none
  files := some []
  directory := directory
  mount := false
  fsid := fsid
  memid := memid
  fsDeviceRef := none
  blockDeviceRef := none
  opened := 0
  unmounting := false

/-- An entry as a driver makes it: a directory is read later. -/
def entry (fsid memid : Int) (directory : Bool) : Node :=
  { cleared fsid memid directory with files := if directory then none else some [] }

/-- Entries a driver puts in a list; each is a directory or not. -/
def populate (w : World) (d : NodeId) (fsid memid : Int) (entries : List Bool) : World :=
  entries.foldl (fun w directory => vfsCreatenode w d (entry fsid memid directory)) w

/-- The entries made, the `fsid` stored and the value returned. -/
structure Mountroot where
  retval : Int
  fsid : Int
  entries : List Bool

def Mountroot.run (m : Mountroot) (w : World) (mountpoint : NodeId) (id : Int) : World :=
  populate (w.changeNode mountpoint fun node => { node with fsid := m.fsid }) mountpoint m.fsid id
    m.entries

/-- Of a directory read for the first time. -/
def vfsMountdirectory (w : World) (d : NodeId) (entries : List Bool) : World :=
  match w.nodes d with
  | none => w
  | some node =>
    populate (w.changeNode d fun node => { node with files := some node.entries }) d node.fsid
      node.memid entries

/-- What `vfs_checkopenfiles` and `vfs_freedirectory` come to. -/
def World.visited (w : World) (d : NodeId) : List NodeId := visit w.files w.isDirectory w.next d

def vfsCheckopenfiles (w : World) (d : NodeId) : Bool :=
  (w.visited d).any fun n => (w.nodes n).any fun node => node.mount || decide (0 < node.opened)

def vfsCheckdirused (w : World) (n : NodeId) : Bool :=
  w.workdirs.any fun workdir => climbs w.path n workdir workdir

def vfsFreedirectory (w : World) (n : NodeId) : World :=
  { w with
    nodes := fun k =>
      if k ∈ w.visited n then none
      else (w.changeNode n fun node => { node with files := some [] }).nodes k }

def freeNode (w : World) (n : NodeId) : World :=
  { w with nodes := Function.update w.nodes n none }

def vfsRemovenode (w : World) (n : NodeId) : Bool × World :=
  match w.path n with
  | none => (false, w)
  | some d =>
    if n ∈ w.files d then
      (true, w.changeNode d fun p => { p with files := p.files.map fun list => list.erase n })
    else (false, w)

/-- `devmgr_putdevice`, which leaves the pointer `-1` alone. -/
def putdevice (r : Registry) : Option Ptr → Registry
  | none => r
  | some p => (devmgrPutdevice r p).2

/-- What a mount node holds, or one taken for the call. -/
def deviceRef (r : Registry) (ref : Option Ptr) (deviceid : Int) : Option Ptr × Registry :=
  match ref with
  | some p => (some p, r)
  | none => devmgrGetdeviceRef r deviceid

/-- The end of `vfs_unmount_locked`, the node out of its list. -/
def unmountFinish (w : World) (n : NodeId) (memid : Int) (fs myblock : Option Ptr) : World :=
  let w₁ := vfsFreedirectory w n
  let unlocked := (devmgrSetlock w₁.registry memid 0).2
  freeNode { w₁ with registry := putdevice (putdevice unlocked fs) myblock } n

/-- A node that is not in its list stays mounted. -/
def unmountRefuse (w : World) (n : NodeId) (node : Node) (fs myblock : Option Ptr) : World :=
  let r₁ := if node.fsDeviceRef.isNone then putdevice w.registry fs else w.registry
  let r₂ := if node.blockDeviceRef.isNone then putdevice r₁ myblock else r₁
  { w.changeNode n fun node => { node with unmounting := false } with registry := r₂ }

def vfsUnmountLocked (w : World) (n : NodeId) : Int × World :=
  match w.nodes n with
  | none => (-1, w)
  | some node =>
    if node.mount = false ∨ node.unmounting = true ∨ vfsCheckopenfiles w n = true ∨
        vfsCheckdirused w n = true then (-1, w)
    else
      let (fs, r₁) := deviceRef w.registry node.fsDeviceRef node.fsid
      let (myblock, r₂) := deviceRef r₁ node.blockDeviceRef node.memid
      let w₁ := { w.changeNode n fun node => { node with unmounting := true } with
        registry := r₂ }
      match vfsRemovenode w₁ n with
      | (false, w₂) => (-1, unmountRefuse w₂ n node fs myblock)
      | (true, w₂) => (1, unmountFinish w₂ n node.memid fs myblock)

/-- The node of that name, and that of the part before the last slash. -/
structure Location where
  given : Bool
  found : Option NodeId
  destdir : Option NodeId

/-- Only the destination's existence is asked for, not its type. -/
def mkvirtualdir (w : World) (place : Location) (fsid deviceid : Int) : Option NodeId × World :=
  if place.found.isSome then (none, w)
  else
    match place.destdir with
    | none => (none, w)
    | some d => (some w.next, vfsCreatenode w d (cleared fsid deviceid true))

def mountFail (r : Registry) (devid : Int) (myfs myblock : Option Ptr) : Registry :=
  let unlocked := if myblock.isSome then (devmgrSetlock r devid 0).2 else r
  putdevice (putdevice unlocked myfs) myblock

/-- `vfs_mount_device_locked` from the lookup on, both devices in hand. -/
def mountOn (w : World) (place : Location) (fsid devid : Int) (myfs myblock : Ptr)
    (mountroot : Mountroot) : Option (Int × World) :=
  if place.given = false ∨ place.found.isSome = true then none
  else
    match mkvirtualdir w place fsid devid with
    | (none, _) => none
    | (some n, w₁) =>
      let w₂ := w₁.changeNode n fun node =>
        { node with mount := true, fsDeviceRef := some myfs, blockDeviceRef := some myblock }
      let w₃ := mountroot.run w₂ n devid
      if mountroot.retval = -1 then some (-1, (vfsUnmountLocked w₃ n).2)
      else some (mountroot.retval, w₃)

def vfsMountDeviceLocked (w : World) (fsname : Option String) (devname : String)
    (place : Location) (mountroot : Mountroot) : Int × World :=
  match fsname with
  | none => (-1, w)
  | some fsname =>
    match devmgrFinddeviceLocked w.registry fsname, devmgrFinddeviceLocked w.registry devname with
    | some fsid, some devid =>
      let (myfs, r₁) := devmgrGetdeviceRef w.registry fsid.val
      let (myblock, r₂) := devmgrClaimdeviceRef r₁ devid.val
      let failed := (-1, { w with registry := mountFail r₂ devid.val myfs myblock })
      match myfs, myblock with
      | some fs, some block =>
        if w.type fs ≠ .fs ∨ w.type block ≠ .block then failed
        else
          (mountOn { w with registry := r₂ } place fsid.val devid.val fs block
            mountroot).getD failed
      | _, _ => failed
    | _, _ => (-1, w)

/-- `fits`: the location is given and fits its buffer, `node` is what it names; the mount looks up
after the unmount. -/
def vfsRemountDevice (w : World) (fits : Bool) (node : Option NodeId) (fsname : Option String)
    (devname : String) (place : Location) (mountroot : Mountroot) : Int × World :=
  match node with
  | none => (-1, w)
  | some n =>
    if fits = false ∨ n = 0 then (-1, w)
    else
      let (retval, w₁) := vfsUnmountLocked w n
      if retval = 1 then vfsMountDeviceLocked w₁ fsname devname place mountroot else (retval, w₁)

/-- The calls, and directories read, files opened and closed, working directories changed. -/
inductive Act
  | mountDevice (fsname : Option String) (devname : String) (place : Location)
      (mountroot : Mountroot)
  | unmount (node : Option NodeId)
  | remountDevice (fits : Bool) (node : Option NodeId) (fsname : Option String) (devname : String)
      (place : Location) (mountroot : Mountroot)
  | mountdirectory (d : NodeId) (entries : List Bool)
  | opened (n : NodeId) (count : Int)
  | workdirs (dirs : List NodeId)

def perform (w : World) : Act → Int × World
  | .mountDevice fsname devname place mountroot =>
    vfsMountDeviceLocked w fsname devname place mountroot
  | .unmount none => (-1, w)
  | .unmount (some n) => vfsUnmountLocked w n
  | .remountDevice fits node fsname devname place mountroot =>
    vfsRemountDevice w fits node fsname devname place mountroot
  | .mountdirectory d entries => (1, vfsMountdirectory w d entries)
  | .opened n count => (0, w.changeNode n fun node => { node with opened := count })
  | .workdirs dirs => (0, { w with workdirs := dirs })

/-- Lookups find nodes of the tree. -/
def Location.Known (place : Location) (w : World) : Prop :=
  (∀ n, place.found = some n → w.There n) ∧ ∀ d, place.destdir = some d → w.There d

def Possible (w : World) : Act → Prop
  | .mountDevice _ _ place _ => place.Known w
  | .unmount node => ∀ n, node = some n → w.There n
  | .remountDevice _ node _ _ place _ =>
    ∀ n, node = some n → w.There n ∧ place.Known (vfsUnmountLocked w n).2
  | .mountdirectory d _ => w.isDirectory d = true
  | .opened n _ => w.There n
  | .workdirs dirs => dirs ≠ [] ∧ ∀ k ∈ dirs, w.There k

/-- The root as `vfs_init` makes it. -/
def vfsRoot : Node := { cleared (-1) (-1) true with mount := true }

/-- Unclaimed devices, references others hold, and the VFS after `vfs_init`. -/
structure Booted (base : SlotId → Nat) (w : World) : Prop where
  homes : ∀ i p, w.registry.devlist i = some p →
    ∃ dev, w.registry.heap p = some dev ∧ dev.id = (i.val : Int)
  refs : ∀ i, (w.registry.statuslist i).refs = base i
  unlocked : ∀ i, (w.registry.statuslist i).locked = 0
  nodes : w.nodes = Function.update (fun _ => none) 0 (some vfsRoot)
  next : w.next = 1
  workdirs : w.workdirs ≠ [] ∧ ∀ k ∈ w.workdirs, k = 0

def mounting (base : SlotId → Nat) : System World Act where
  start := Booted base
  step w act w' := Possible w act ∧ (perform w act).2 = w'

/-- A new mount point goes into a directory that has been read. -/
def Location.Housed (place : Location) (w : World) : Prop :=
  ∀ d, place.destdir = some d →
    ∃ node, w.nodes d = some node ∧ node.directory = true ∧ node.files.isSome = true

/-- The condition on a call. -/
def InDirectory (w : World) : Act → Prop
  | .mountDevice _ _ place _ => place.Housed w
  | .remountDevice _ node _ _ place _ => ∀ n, node = some n → place.Housed (vfsUnmountLocked w n).2
  | _ => True

/-- The slot a device copy was registered in. -/
def home (r : Registry) (p : Ptr) : Option SlotId := (r.heap p).bind fun dev => slotOf dev.id

/-- The slot of a device to which a mount node holds a reference. -/
def owner (r : Registry) (ref : Node → Option Ptr) (node : Node) : Option SlotId :=
  if node.mount then (ref node).bind (home r) else none

/-- The same for the nodes that can be reached from the root. -/
def World.holds (w : World) (ref : Node → Option Ptr) (n : NodeId) : Option SlotId :=
  if climbs w.path 0 n n then (w.nodes n).bind (owner w.registry ref) else none

/-- Mount nodes of the tree with a reference to a slot's device. -/
def World.count (w : World) (ref : Node → Option Ptr) (i : SlotId) : Nat :=
  tally (Finset.range w.next) (w.holds ref) i

/-- References are those of others and one of either kind for every mount node; a device is locked
while a mount node, at most one, has it. -/
structure Balanced (base : SlotId → Nat) (r : Registry) (fs block : SlotId → Nat) : Prop where
  refs : ∀ i, (r.statuslist i).refs = base i + fs i + block i
  locked : ∀ i, (r.statuslist i).locked = block i
  once : ∀ i, block i ≤ 1

/-- Mount nodes but the root are in the tree, with a file system and a block device. -/
structure Settled (base : SlotId → Nat) (w : World) : Prop where
  balanced : Balanced base w.registry (w.count Node.fsDeviceRef) (w.count Node.blockDeviceRef)
  both : ∀ n node, w.nodes n = some node → node.mount = true → n ≠ 0 →
    (w.holds Node.fsDeviceRef n).isSome = true ∧ (w.holds Node.blockDeviceRef n).isSome = true

/-- The references, the locks and the tree are the same. -/
structure Unchanged (w w' : World) : Prop where
  registry : w'.registry = w.registry
  nodes : w'.nodes = w.nodes

/-- Failure changes nothing; a failed remount has at most unmounted. -/
def FailsCleanly (w : World) : Act → World → Prop
  | .mountDevice .., w' => Unchanged w w'
  | .unmount _, w' => Unchanged w w'
  | .remountDevice _ node _ _ _ _, w' =>
    Unchanged w w' ∨ ∃ n, node = some n ∧ (vfsUnmountLocked w n).1 = 1 ∧
      Unchanged (vfsUnmountLocked w n).2 w'
  | _, _ => True

section Devices

variable {r : Registry} {i j : SlotId} {p : Ptr} {myfs myblock : Option Ptr}
  {fs block lock : Option SlotId}

/-- The registry with more references, and perhaps a claim. -/
def held (r : Registry) (fs block lock : Option SlotId) : Registry :=
  { r with
    statuslist := fun k => { r.statuslist k with
      refs := (r.statuslist k).refs + share fs k + share block k
      locked := if lock = some k then 1 else (r.statuslist k).locked } }

/-- The registry without the references and the claim of one mount. -/
def dropped (r : Registry) (i j : SlotId) : Registry :=
  { r with
    statuslist := fun k => { r.statuslist k with
      refs := (r.statuslist k).refs - share (some i) k - share (some j) k
      locked := if some j = some k then 0 else (r.statuslist k).locked } }

theorem registry_ext {r' : Registry} (devlist : r'.devlist = r.devlist) (heap : r'.heap = r.heap)
    (status : ∀ k, r'.statuslist k = r.statuslist k) : r' = r := by
  obtain ⟨devs, st, copies⟩ := r
  obtain ⟨devs', st', copies'⟩ := r'
  obtain rfl : st' = st := funext status
  obtain rfl : devs' = devs := devlist
  obtain rfl : copies' = copies := heap
  rfl

theorem status_ext {a b : DevmgrStatus} (locked : a.locked = b.locked) (refs : a.refs = b.refs)
    (generation : a.generation = b.generation) (state : a.state = b.state) : a = b := by
  obtain ⟨l, n, g, st⟩ := a
  obtain ⟨l', n', g', st'⟩ := b
  obtain rfl : l = l' := locked
  obtain rfl : n = n' := refs
  obtain rfl : g = g' := generation
  obtain rfl : st = st' := state
  rfl

theorem held_none : held r none none none = r := by
  refine registry_ext rfl rfl ?_
  intro k
  refine status_ext ?_ ?_ rfl rfl
  · simp [held]
  · simp [held]

theorem dropped_held (unlocked : (r.statuslist j).locked = 0) :
    dropped (held r (some i) (some j) (some j)) i j = r := by
  refine registry_ext rfl rfl ?_
  intro k
  refine status_ext ?_ ?_ rfl rfl
  · by_cases same : some j = some k
    · cases same
      exact (if_pos rfl).trans unlocked.symm
    · exact (if_neg same).trans (if_neg same)
  · simp only [dropped, held]
    omega

theorem held_dropped (enough : ∀ k, share (some i) k + share (some j) k ≤ (r.statuslist k).refs)
    (locked : (r.statuslist j).locked = 1) :
    held (dropped r i j) (some i) (some j) (some j) = r := by
  refine registry_ext rfl rfl ?_
  intro k
  refine status_ext ?_ ?_ rfl rfl
  · by_cases same : some j = some k
    · cases same
      exact (if_pos rfl).trans locked.symm
    · exact (if_neg same).trans (if_neg same)
  · have room := enough k
    simp only [dropped, held]
    omega

/-- The device is in the slot, and no removal of it is pending. -/
structure Present (r : Registry) (p : Ptr) (i : SlotId) : Prop where
  device : r.devlist i = some p
  copied : ∃ dev, r.heap p = some dev ∧ dev.id = (i.val : Int)
  live : (r.statuslist i).state = .live

theorem Present.home (present : Present r p i) : home r p = some i := by
  obtain ⟨dev, copied, address⟩ := present.copied
  rw [Mounts.home, copied, Option.bind_some, address]
  exact slotOf_val i

theorem setStatus_statuslist (r : Registry) (i : SlotId) (st : DevmgrStatus) (k : SlotId) :
    (r.setStatus i st).statuslist k = if k = i then st else r.statuslist k :=
  Function.update_apply ..

theorem Present.put (present : Present r p i) (positive : (r.statuslist i).refs ≠ 0) :
    putdevice r (some p) =
      r.setStatus i { r.statuslist i with refs := (r.statuslist i).refs - 1 } := by
  obtain ⟨dev, copied, address⟩ := present.copied
  rw [putdevice, putdevice_eq copied address present.device positive, devmgrRetireLocked, if_neg]
  rw [setStatus_statuslist, if_pos rfl, devmgrLifecycleCanRetire, decide_eq_true_eq]
  intro pending
  rw [present.live] at pending
  exact absurd pending.1 (by decide)

/-- What an attempt to get a device came to. -/
def Got (r : Registry) : Option Ptr → Option SlotId → Prop
  | none, none => True
  | some p, some i => Present r p i
  | _, _ => False

theorem Present.held (present : Present r p i) : Present (held r fs block lock) p i :=
  { present with }

theorem put_fs (got : Got r myfs fs) :
    putdevice (held r fs block none) myfs = held r none block none := by
  match myfs, fs, got with
  | none, none, _ => rfl
  | some p, some i, present =>
    have positive : ((held r (some i) block none).statuslist i).refs ≠ 0 := by
      simp only [held, share_self]
      omega
    rw [(Present.held present).put positive]
    refine registry_ext rfl rfl ?_
    intro k
    rw [setStatus_statuslist]
    split
    · rename_i same
      subst same
      refine status_ext rfl ?_ rfl rfl
      simp only [held, share_self, share_none]
      omega
    · rename_i apart
      refine status_ext rfl ?_ rfl rfl
      simp only [held, share_ne (Ne.symm apart), share_none]

theorem held_swap : held r fs block none = held r block fs none := by
  refine registry_ext rfl rfl ?_
  intro k
  refine status_ext rfl ?_ rfl rfl
  simp only [held]
  omega

/-- Two puts give back what was taken. -/
theorem put_both (gotFs : Got r myfs fs) (gotBlock : Got r myblock block) :
    putdevice (putdevice (held r fs block none) myfs) myblock = r := by
  rw [put_fs gotFs, held_swap, put_fs gotBlock, held_none]

/-- The lock that is taken back was not set before. -/
theorem setlock_held (present : Present r p j) (unlocked : (r.statuslist j).locked = 0) :
    (devmgrSetlock (held r fs (some j) (some j)) (j.val : Int) 0).2 = held r fs (some j) none := by
  have found : attached (held r fs (some j) (some j)) (j.val : Int) = some (j, p) := by
    rw [attached_some]
    exact ⟨slotOf_val j, present.device⟩
  rw [devmgrSetlock, found]
  refine registry_ext rfl rfl ?_
  intro k
  rw [setStatus_statuslist]
  split
  · rename_i same
    subst same
    exact status_ext unlocked.symm rfl rfl rfl
  · rename_i apart
    have other : j ≠ k := Ne.symm apart
    exact status_ext (by simp [held, other]) rfl rfl rfl

section Grants

variable (homes : ∀ i p, r.devlist i = some p → ∃ dev, r.heap p = some dev ∧ dev.id = (i.val : Int))

include homes

theorem getdeviceRef_held {id : Int} {r₁ : Registry} (get : devmgrGetdeviceRef r id = (myfs, r₁)) :
    ∃ fs, Got r myfs fs ∧ r₁ = held r fs none none := by
  rcases getdeviceRef_cases r id with refused | ⟨i, p, granted, result⟩
  · obtain rfl : myfs = none := congrArg Prod.fst (get.symm.trans refused)
    obtain rfl : r₁ = r := congrArg Prod.snd (get.symm.trans refused)
    exact ⟨none, trivial, held_none.symm⟩
  obtain rfl : myfs = some p := congrArg Prod.fst (get.symm.trans result)
  obtain rfl := congrArg Prod.snd (get.symm.trans result)
  refine ⟨some i, { granted with copied := homes i p granted.device }, ?_⟩
  refine registry_ext rfl rfl ?_
  intro k
  rw [setStatus_statuslist]
  split
  · rename_i same
    subst same
    exact status_ext rfl (by simp [held]) rfl rfl
  · rename_i apart
    exact status_ext rfl (by simp [held, share_ne (Ne.symm apart)]) rfl rfl

theorem claimdeviceRef_held (slot : SlotId) :
    (devmgrClaimdeviceRef r (slot.val : Int) = (none, r)) ∨
      ∃ p, Present r p slot ∧ (r.statuslist slot).locked = 0 ∧
        devmgrClaimdeviceRef r (slot.val : Int) =
          (some p, held r none (some slot) (some slot)) := by
  rcases claimdeviceRef_cases r (slot.val : Int) with refused | ⟨i, p, granted, unlocked, result⟩
  · exact .inl refused
  right
  obtain rfl : slot = i := Option.some.inj ((slotOf_val slot).symm.trans granted.slot)
  refine ⟨p, { granted with copied := homes slot p granted.device }, unlocked, ?_⟩
  rw [result]
  refine Prod.ext rfl (registry_ext rfl rfl ?_)
  intro k
  rw [setStatus_statuslist]
  split
  · rename_i same
    subst same
    exact status_ext (by simp [held]) (by simp [held]) rfl rfl
  · rename_i apart
    have other : slot ≠ k := Ne.symm apart
    exact status_ext (by simp [held, other]) (by simp [held, share_ne other]) rfl rfl

end Grants

theorem held_held : held (held r fs none none) none block lock = held r fs block lock := by
  refine registry_ext rfl rfl ?_
  intro k
  refine status_ext ?_ ?_ rfl rfl
  · simp [held]
  · simp [held]

end Devices

section Trees

variable {w w' : World} {n d k : NodeId} {node : Node} {change : Node → Node}

theorem changeNode_nodes (w : World) (n : NodeId) (change : Node → Node) (k : NodeId) :
    (w.changeNode n change).nodes k = if k = n then (w.nodes n).map change else w.nodes k :=
  Function.update_apply ..

/-- Nodes are newer than their parents, stand in their lists once, and only directories have
entries. -/
structure Treed (w : World) : Prop where
  fresh : ∀ n, w.There n → n < w.next
  root : w.There 0
  noParent : w.path 0 = none
  up : ∀ n, w.There n → n ≠ 0 → ∃ d, d < n ∧ w.path n = some d ∧ n ∈ w.files d
  down : ∀ d n, n ∈ w.files d → w.There n ∧ w.path n = some d
  once : ∀ d, (w.files d).Nodup
  proper : ∀ d, w.files d ≠ [] → w.isDirectory d = true
  used : w.workdirs ≠ []
  workdirs : ∀ k ∈ w.workdirs, w.There k

theorem there_of_files (here : k ∈ w.files d) : w.There d := by
  cases known : w.nodes d with
  | none =>
    rw [World.files, known] at here
    cases here
  | some node =>
    rw [World.There, known]
    rfl

theorem there_of_some (known : w.nodes n = some node) : w.There n := by
  rw [World.There, known]
  rfl

namespace Treed

theorem there_of_directory (dir : w.isDirectory d = true) : w.There d := by
  obtain ⟨node, known, -⟩ := (Option.any_eq_true _ _).mp dir
  exact there_of_some known

section

variable (treed : Treed w)
include treed

theorem falling (k d : NodeId) (parent : w.path k = some d) : d < k := by
  have known : w.There k := by
    obtain ⟨node, known, -⟩ := Option.bind_eq_some_iff.mp parent
    exact there_of_some known
  have inner : k ≠ 0 := by
    rintro rfl
    rw [treed.noParent] at parent
    cases parent
  obtain ⟨d', lower, parent', -⟩ := treed.up k known inner
  rw [parent] at parent'
  cases parent'
  exact lower

theorem rising (d k : NodeId) (here : k ∈ w.files d) : d < k :=
  falling treed k d (treed.down d k here).2

theorem fresh_none (later : w.next ≤ k) : w.nodes k = none := by
  cases known : w.nodes k with
  | none => rfl
  | some node => exact absurd (treed.fresh k (there_of_some known)) (Nat.not_lt.mpr later)

theorem climbs_root (known : w.There k) : climbs w.path 0 k k = true := by
  refine Lib.Forests.climbs_root (k := k) (fun n known inner => ?_) known le_rfl
  obtain ⟨d, lower, parent, here⟩ := treed.up n known inner
  exact ⟨d, parent, lower, there_of_files here⟩

/-- The root is in use: every working directory is below it. -/
theorem root_used : vfsCheckdirused w 0 = true := by
  obtain ⟨k, member⟩ := List.exists_mem_of_ne_nil _ treed.used
  exact List.any_eq_true.mpr ⟨k, member, treed.climbs_root (treed.workdirs k member)⟩

theorem mem_visited (n : NodeId) : k ∈ w.visited n ↔ Below w.files n k := by
  constructor
  · exact below_of_mem_visit
  intro below
  apply below.mem_visit treed.rising treed.proper
  have known : w.There k := by
    rcases below.last with here | ⟨m, -, here⟩
    · exact (treed.down n k here).1
    · exact (treed.down m k here).1
  exact (treed.fresh k known).le.trans (Nat.le_add_left ..)

/-- The same tree with other contents of the nodes. -/
theorem congr (next : w'.next = w.next) (dirs : w'.workdirs = w.workdirs)
    (there : ∀ k, w'.There k ↔ w.There k) (path : ∀ k, w'.path k = w.path k)
    (files : ∀ k, w'.files k = w.files k) (dir : ∀ k, w'.isDirectory k = w.isDirectory k) :
    Treed w' where
  fresh n known := by
    rw [next]
    exact treed.fresh n ((there n).mp known)
  root := (there 0).mpr treed.root
  noParent := (path 0).trans treed.noParent
  up n known inner := by
    obtain ⟨d, lower, parent, here⟩ := treed.up n ((there n).mp known) inner
    exact ⟨d, lower, (path n).trans parent, (files d).symm ▸ here⟩
  down d n here := by
    rw [files] at here
    exact ⟨(there n).mpr (treed.down d n here).1, (path n).trans (treed.down d n here).2⟩
  once d := (files d).symm ▸ treed.once d
  proper d filled := by
    rw [files] at filled
    rw [dir]
    exact treed.proper d filled
  used := dirs.symm ▸ treed.used
  workdirs k member := by
    rw [dirs] at member
    exact (there k).mpr (treed.workdirs k member)

theorem changeNode (path : ∀ node, (change node).path = node.path)
    (files : ∀ node, (change node).entries = node.entries)
    (dir : ∀ node, (change node).directory = node.directory) : Treed (w.changeNode n change) := by
  refine treed.congr rfl rfl ?_ ?_ ?_ ?_ <;> intro k
  · unfold World.There
    rw [changeNode_nodes]
    split
    · rename_i same
      rw [Option.isSome_map, same]
    · rfl
  · unfold World.path
    rw [changeNode_nodes]
    split
    · rename_i same
      rw [same]
      cases w.nodes n with
      | none => rfl
      | some node => exact path node
    · rfl
  · unfold World.files
    rw [changeNode_nodes]
    split
    · rename_i same
      rw [same]
      cases w.nodes n with
      | none => rfl
      | some node => exact files node
    · rfl
  · unfold World.isDirectory
    rw [changeNode_nodes]
    split
    · rename_i same
      rw [same]
      cases w.nodes n with
      | none => rfl
      | some node => exact dir node
    · rfl

end

end Treed

section Creation

variable (node : Node)

theorem createnode_nodes (k : NodeId) :
    (vfsCreatenode w d node).nodes k = if k = w.next then some { node with path := some d }
      else if k = d then
        (w.nodes d).map fun p => { p with files := some (w.next :: p.entries) }
      else w.nodes k := by
  rw [vfsCreatenode]
  dsimp only
  rw [Function.update_apply, changeNode_nodes]

theorem createnode_other (old : k ≠ w.next) (aside : k ≠ d) :
    (vfsCreatenode w d node).nodes k = w.nodes k := by
  rw [createnode_nodes node, if_neg old, if_neg aside]

theorem createnode_there :
    (vfsCreatenode w d node).There k ↔ k = w.next ∨ w.There k := by
  unfold World.There
  rw [createnode_nodes node]
  split
  · rename_i new
    simp [new]
  rename_i old
  split
  · rename_i same
    rw [Option.isSome_map, same, or_iff_right (same ▸ old)]
  · rw [or_iff_right old]

theorem createnode_path (k : NodeId) :
    (vfsCreatenode w d node).path k = if k = w.next then some d else w.path k := by
  unfold World.path
  rw [createnode_nodes node]
  split
  · rfl
  split
  · rename_i same
    rw [same]
    cases w.nodes d <;> rfl
  · rfl

theorem createnode_isDirectory (k : NodeId) :
    (vfsCreatenode w d node).isDirectory k =
      if k = w.next then node.directory else w.isDirectory k := by
  unfold World.isDirectory
  rw [createnode_nodes node]
  split
  · rfl
  split
  · rename_i same
    rw [same]
    cases w.nodes d <;> rfl
  · rfl

theorem createnode_files (known : w.There d) (k : NodeId) :
    (vfsCreatenode w d node).files k =
      if k = w.next then node.entries else if k = d then w.next :: w.files d else w.files k := by
  unfold World.files
  rw [createnode_nodes node]
  split
  · rfl
  split
  · obtain ⟨parent, found⟩ := Option.isSome_iff_exists.mp known
    rw [found]
    rfl
  · rfl

end Creation

theorem Treed.createnode (treed : Treed w) (dir : w.isDirectory d = true)
    (empty : node.entries = []) : Treed (vfsCreatenode w d node) := by
  have known := there_of_directory dir
  have older := treed.fresh d known
  have apart : d ≠ w.next := older.ne
  have new : ∀ k, w.There k → k ≠ w.next := by
    intro k there
    exact (treed.fresh k there).ne
  have unlisted : ∀ k, w.next ∉ w.files k := by
    intro k here
    exact new _ (treed.down k _ here).1 rfl
  have files := createnode_files node known
  have path := createnode_path (w := w) (d := d) node
  constructor
  case fresh =>
    intro k there
    rcases (createnode_there node).mp there with rfl | old
    · exact Nat.lt_succ_self _
    · exact (treed.fresh k old).trans (Nat.lt_succ_self _)
  case root => exact (createnode_there node).mpr (.inr treed.root)
  case noParent =>
    rw [path, if_neg (new 0 treed.root)]
    exact treed.noParent
  case up =>
    intro k there inner
    rcases (createnode_there node).mp there with rfl | old
    · refine ⟨d, older, by rw [path, if_pos rfl], ?_⟩
      rw [files, if_neg apart, if_pos rfl]
      exact List.mem_cons_self
    obtain ⟨m, lower, parent, here⟩ := treed.up k old inner
    refine ⟨m, lower, by rw [path, if_neg (new k old), parent], ?_⟩
    rw [files, if_neg (new m (there_of_files here))]
    split
    · rename_i same
      exact List.mem_cons_of_mem _ (same ▸ here)
    · exact here
  case down =>
    intro m k here
    rw [files] at here
    split at here
    · rw [empty] at here
      cases here
    split at here
    · rename_i same
      subst same
      rcases List.mem_cons.mp here with rfl | old
      · exact ⟨(createnode_there node).mpr (.inl rfl), by rw [path, if_pos rfl]⟩
      · obtain ⟨there, parent⟩ := treed.down m k old
        exact ⟨(createnode_there node).mpr (.inr there), by rw [path, if_neg (new k there), parent]⟩
    · obtain ⟨there, parent⟩ := treed.down m k here
      exact ⟨(createnode_there node).mpr (.inr there), by rw [path, if_neg (new k there), parent]⟩
  case once =>
    intro m
    rw [files]
    split
    · rw [empty]
      exact List.nodup_nil
    · split
      · exact List.nodup_cons.mpr ⟨unlisted d, treed.once d⟩
      · exact treed.once m
  case proper =>
    intro m filled
    rw [files] at filled
    rw [createnode_isDirectory node]
    split at filled
    · exact absurd empty filled
    rename_i old
    rw [if_neg old]
    split at filled
    · rename_i same
      rw [same]
      exact dir
    · exact treed.proper m filled
  case used => exact treed.used
  case workdirs =>
    intro k member
    exact (createnode_there node).mpr (.inr (treed.workdirs k member))

end Trees

end IcsOs.Vfs.Mounts
