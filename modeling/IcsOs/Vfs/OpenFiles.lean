/- GID: IcsOs/Vfs/OpenFiles
   generality: I
   source: kernel/vfs/vfs_core.c
   digest: Open file objects, their three reference counts, and the moment they are destroyed. -/

import IcsOs.Lib.Ledger
import IcsOs.Lib.Runs
import IcsOs.Lib.Updates

set_option autoImplicit false

namespace IcsOs.Vfs.OpenFiles

open Function Finset
open Lib.Ledger Lib.Runs Lib.Updates

/-- Allocations of `file_PCB`, numbered in order. -/
abbrev FileId := Nat

/-- Allocations of `vfs_node`, numbered in order. -/
abbrev NodeId := Nat

inductive Mode
  | read
  | write
  | readwrite
  | append
  deriving DecidableEq, Repr

/-- The part of `file_PCB` that decides how long the object lives. -/
structure FilePcb where
  ptr : NodeId
  mode : Mode
  locked : Bool
  fdRefs : BitVec 32
  legacyRefs : BitVec 32
  activeRefs : BitVec 32
  closing : Bool
  deriving DecidableEq, Repr

/-- What opening, deleting and unmounting read; `linked`: in the parent's list. -/
structure Node where
  path : NodeId
  linked : Bool
  directory : Bool
  mount : Bool
  unmounting : Bool
  fsid : Int
  locked : Bool
  opened : Int
  deriving DecidableEq, Repr

@[ext] structure VfsState where
  nodes : NodeId → Option Node
  nextNode : NodeId
  /-- The members of `file_globalopen`. -/
  live : Finset FileId
  file : FileId → FilePcb
  nextFile : FileId

def VfsState.setFile (v : VfsState) (h : FileId) (f : FilePcb) : VfsState :=
  { v with file := Function.update v.file h f }

def VfsState.changeNode (v : VfsState) (n : NodeId) (change : Node → Node) : VfsState :=
  { v with nodes := Function.update v.nodes n ((v.nodes n).map change) }

def fileOkLocked (v : VfsState) (h : FileId) : Bool := decide (h ∈ v.live)

def vfsFileGet (v : VfsState) (h : FileId) : Bool × VfsState :=
  let f := v.file h
  if fileOkLocked v h = true ∧ f.closing = false then
    (true, v.setFile h { f with activeRefs := f.activeRefs + 1 })
  else (false, v)

def vfsFileInherit (v : VfsState) (h : FileId) : Bool × VfsState :=
  let f := v.file h
  if fileOkLocked v h = true ∧ f.closing = false ∧ f.fdRefs ≠ 0 then
    (true, v.setFile h { f with fdRefs := f.fdRefs + 1 })
  else (false, v)

def vfsFileMarkPosix (v : VfsState) (h : FileId) : VfsState :=
  let f := v.file h
  if fileOkLocked v h = true ∧ f.legacyRefs ≠ 0 then
    v.setFile h { f with legacyRefs := f.legacyRefs - 1, fdRefs := f.fdRefs + 1 }
  else v

/-- `fflush` always reports success, so the object goes away. -/
def vfsFileDestroyLocked (v : VfsState) (h : FileId) : VfsState :=
  let f := v.file h
  let v₁ := v.changeNode f.ptr fun node =>
    { node with
      opened := node.opened - 1
      locked := if f.locked = true ∧ node.locked = true then false else node.locked }
  { v₁ with live := v.live.erase h }

def vfsFilePut (v : VfsState) (h : FileId) : VfsState :=
  let f := v.file h
  if fileOkLocked v h = true ∧ f.activeRefs ≠ 0 then
    let f' := { f with activeRefs := f.activeRefs - 1 }
    let v' := v.setFile h f'
    if f'.closing = true ∧ f'.fdRefs = 0 ∧ f'.legacyRefs = 0 ∧ f'.activeRefs = 0 then
      vfsFileDestroyLocked v' h
    else v'
  else v

/-- `fclose` and `vfs_file_fdclose` once their own count is down. -/
def closeIfUnowned (v : VfsState) (h : FileId) (f : FilePcb) : VfsState :=
  if f.fdRefs = 0 ∧ f.legacyRefs = 0 then
    let v' := v.setFile h { f with closing := true }
    if f.activeRefs = 0 then vfsFileDestroyLocked v' h else v'
  else v.setFile h f

def fclose (v : VfsState) (h : FileId) : VfsState :=
  let f := v.file h
  if fileOkLocked v h = true ∧ f.legacyRefs ≠ 0 then
    closeIfUnowned v h { f with legacyRefs := f.legacyRefs - 1 }
  else v

def vfsFileFdclose (v : VfsState) (h : FileId) : VfsState :=
  let f := v.file h
  if fileOkLocked v h = true ∧ f.fdRefs ≠ 0 then
    closeIfUnowned v h { f with fdRefs := f.fdRefs - 1 }
  else v

/-- Answers of the lookup, the allocator and the driver during an open. -/
structure OpenEnv where
  found : Option NodeId
  destdir : Option NodeId
  validName : Bool
  nodeRoom : Bool
  created : Bool
  canRewrite : Bool
  fileRoom : Bool
  deriving DecidableEq, Repr

/-- For a name not found; a refused node is freed again. -/
def createfile (v : VfsState) (env : OpenEnv) : Option NodeId × VfsState :=
  match env.destdir with
  | none => (none, v)
  | some d =>
    match v.nodes d with
    | none => (none, v)
    | some dir =>
      if env.validName = false ∨ env.nodeRoom = false ∨ dir.fsid = -1 then (none, v)
      else if env.created then
        (some v.nextNode, { v with
            nodes := Function.update v.nodes v.nextNode (some
              { path := d, linked := true, directory := false, mount := false,
                unmounting := false, fsid := dir.fsid, locked := false, opened := 0 })
            nextNode := v.nextNode + 1 })
      else (none, { v with nextNode := v.nextNode + 1 })

/-- Memory holds 4 GiB and a `file_PCB` more than 16 bytes. -/
def roomForFile (v : VfsState) (env : OpenEnv) : Bool :=
  env.fileRoom && decide (v.live.card < 0x10000000)

/-- A node with one more open file; opening for writing locks it. -/
def nodeOpened (mode : Mode) (node : Node) : Node :=
  { node with
    opened := node.opened + 1
    locked := if mode = .write then true else node.locked }

/-- A new file object at the head of the list. -/
def pushFile (v : VfsState) (n : NodeId) (mode : Mode) : VfsState :=
  { v.changeNode n (nodeOpened mode) with
    live := insert v.nextFile v.live
    file := Function.update v.file v.nextFile
      { ptr := n, mode, locked := decide (mode = .write), fdRefs := 0, legacyRefs := 1,
        activeRefs := 0, closing := false }
    nextFile := v.nextFile + 1 }

/-- The end of `openfilex`, on the node to open. -/
def openNode (v : VfsState) (n : NodeId) (mode : Mode) (env : OpenEnv) : Option FileId × VfsState :=
  match v.nodes n with
  | none => (none, v)
  | some node =>
    if node.locked = true ∨ (mode ≠ .read ∧ node.opened ≠ 0) then (none, v)
    else if roomForFile v env then (some v.nextFile, pushFile v n mode)
    else (none, v)

def openfilex (v : VfsState) (mode : Mode) (env : OpenEnv) : Option FileId × VfsState :=
  match env.found with
  | none =>
    if mode = .read then (none, v)
    else
      match createfile v env with
      | (none, v₁) => (none, v₁)
      | (some n, v₁) => openNode v₁ n mode env
  | some n =>
    match v.nodes n with
    | none => (none, v)
    | some node =>
      if node.fsid = -1 then (none, v)
      else if mode = .write ∧ node.locked = false ∧ node.opened = 0 ∧ env.canRewrite = false then
        (none, v)
      else openNode v n mode env

/-- The entry points that run under the VFS lock. -/
inductive Call
  | openfilex (mode : Mode) (env : OpenEnv)
  | get (h : FileId)
  | put (h : FileId)
  | inherit (h : FileId)
  | markPosix (h : FileId)
  | fclose (h : FileId)
  | fdclose (h : FileId)

def perform (v : VfsState) : Call → VfsState
  | .openfilex mode env => (openfilex v mode env).2
  | .get h => (vfsFileGet v h).2
  | .put h => vfsFilePut v h
  | .inherit h => (vfsFileInherit v h).2
  | .markPosix h => vfsFileMarkPosix v h
  | .fclose h => fclose v h
  | .fdclose h => vfsFileFdclose v h

/-- The VFS from a tree on which nothing is open. -/
def vfsCalls : System VfsState Call where
  start v := v.live = ∅ ∧ ∀ n node, v.nodes n = some node → n < v.nextNode ∧ node.opened = 0
  step v call v' := v' = perform v call

/-- How many live file objects point to the node. -/
def openCount (v : VfsState) (n : NodeId) : Nat := tally v.live (fun h => some (v.file h).ptr) n

/-- Closing and without any reference. -/
def FilePcb.Idle (f : FilePcb) : Prop :=
  f.closing = true ∧ f.fdRefs = 0 ∧ f.legacyRefs = 0 ∧ f.activeRefs = 0

instance (f : FilePcb) : Decidable f.Idle := by
  unfold FilePcb.Idle
  infer_instance

def Call.subject : Call → Option FileId
  | .openfilex _ _ => none
  | .get h | .put h | .inherit h | .markPosix h | .fclose h | .fdclose h => some h

/-- The last owner of a handle starts the closing. -/
def FilePcb.released (f : FilePcb) : FilePcb :=
  { f with closing := f.closing || decide (f.fdRefs = 0 ∧ f.legacyRefs = 0) }

def FilePcb.after (f : FilePcb) : Call → FilePcb
  | .openfilex _ _ => f
  | .get _ => if f.closing then f else { f with activeRefs := f.activeRefs + 1 }
  | .put _ => if f.activeRefs = 0 then f else { f with activeRefs := f.activeRefs - 1 }
  | .inherit _ => if f.closing = true ∨ f.fdRefs = 0 then f else { f with fdRefs := f.fdRefs + 1 }
  | .markPosix _ =>
    if f.legacyRefs = 0 then f
    else { f with legacyRefs := f.legacyRefs - 1, fdRefs := f.fdRefs + 1 }
  | .fclose _ => if f.legacyRefs = 0 then f else { f with legacyRefs := f.legacyRefs - 1 }.released
  | .fdclose _ => if f.fdRefs = 0 then f else { f with fdRefs := f.fdRefs - 1 }.released

structure Sound (v : VfsState) : Prop where
  opened : ∀ n node, v.nodes n = some node → node.opened = openCount v n
  closing : ∀ h ∈ v.live, (v.file h).closing = true →
    (v.file h).fdRefs = 0 ∧ (v.file h).legacyRefs = 0 ∧ (v.file h).activeRefs ≠ 0
  files : ∀ h ∈ v.live, h < v.nextFile
  nodes : ∀ n node, v.nodes n = some node → n < v.nextNode
  ptrs : ∀ h ∈ v.live, (v.file h).ptr < v.nextNode
  room : v.live.card ≤ 0x10000000

/-- An updated record stays, or goes away with the object. -/
def settle (v : VfsState) (h : FileId) (f : FilePcb) : VfsState :=
  if f.Idle then vfsFileDestroyLocked (v.setFile h f) h else v.setFile h f

section

variable {v : VfsState} {h : FileId} {f : FilePcb} {call : Call}

theorem Sound.not_idle (sound : Sound v) (member : h ∈ v.live) : ¬ (v.file h).Idle := by
  rintro ⟨closing, -, -, unused⟩
  exact (sound.closing h member closing).2.2 unused

theorem setFile_self (v : VfsState) (h : FileId) : v.setFile h (v.file h) = v := by
  simp [VfsState.setFile]

theorem settle_self (sound : Sound v) (member : h ∈ v.live) : settle v h (v.file h) = v := by
  rw [settle, if_neg (sound.not_idle member), setFile_self]

theorem settle_open (v : VfsState) (h : FileId) (opened : f.closing = false) :
    settle v h f = v.setFile h f := by
  rw [settle, if_neg]
  rintro ⟨closing, -⟩
  rw [opened] at closing
  cases closing

theorem sound_setFile (sound : Sound v) (member : h ∈ v.live) (ptr : f.ptr = (v.file h).ptr)
    (closing : f.closing = true → f.fdRefs = 0 ∧ f.legacyRefs = 0 ∧ f.activeRefs ≠ 0) :
    Sound (v.setFile h f) := by
  have ptrs : ∀ g, ((v.setFile h f).file g).ptr = (v.file g).ptr := by
    intro g
    by_cases same : g = h
    · subst same
      simp [VfsState.setFile, ptr]
    · simp [VfsState.setFile, same]
  refine { sound with opened := ?_, closing := ?_, ptrs := ?_ }
  · intro n node there
    rw [sound.opened n node there]
    congr 1
    apply tally_congr
    intro g _
    rw [ptrs g]
  · intro g live isClosing
    by_cases same : g = h
    · subst same
      simp only [VfsState.setFile, update_self] at isClosing ⊢
      exact closing isClosing
    · simp only [VfsState.setFile, update_of_ne same] at isClosing ⊢
      exact sound.closing g live isClosing
  · intro g live
    rw [ptrs g]
    exact sound.ptrs g live

theorem sound_destroy (sound : Sound v) (member : h ∈ v.live) (ptr : f.ptr = (v.file h).ptr) :
    Sound (vfsFileDestroyLocked (v.setFile h f) h) := by
  have file : ∀ g, g ≠ h → (vfsFileDestroyLocked (v.setFile h f) h).file g = v.file g := by
    intro g apart
    simp [vfsFileDestroyLocked, VfsState.setFile, VfsState.changeNode, apart]
  have live : (vfsFileDestroyLocked (v.setFile h f) h).live = v.live.erase h := rfl
  have next : (vfsFileDestroyLocked (v.setFile h f) h).nextNode = v.nextNode := rfl
  have count : ∀ n, openCount v n =
      openCount (vfsFileDestroyLocked (v.setFile h f) h) n + share (some (v.file h).ptr) n := by
    intro n
    unfold openCount
    rw [tally_erase _ member n, live]
    congr 1
    apply tally_congr
    intro g inRest
    rw [file g (ne_of_mem_erase inRest)]
  have nodeOf : ∀ n node, (vfsFileDestroyLocked (v.setFile h f) h).nodes n = some node →
      ∃ before, v.nodes n = some before ∧
        node.opened = before.opened - share (some (v.file h).ptr) n := by
    intro n node there
    simp only [vfsFileDestroyLocked, VfsState.setFile, VfsState.changeNode, update_self,
      ptr] at there
    by_cases same : n = (v.file h).ptr
    · subst same
      rw [update_self, Option.map_eq_some_iff] at there
      obtain ⟨before, found, rfl⟩ := there
      exact ⟨before, found, by simp⟩
    · rw [update_of_ne same] at there
      refine ⟨node, there, ?_⟩
      rw [share_ne (Ne.symm same)]
      simp
  constructor
  · intro n node there
    obtain ⟨before, found, opened⟩ := nodeOf n node there
    have held := sound.opened n before found
    have balance := count n
    omega
  · intro g inRest
    rw [file g (ne_of_mem_erase inRest)]
    exact sound.closing g (mem_of_mem_erase inRest)
  · intro g inRest
    exact sound.files g (mem_of_mem_erase inRest)
  · intro n node there
    obtain ⟨before, found, -⟩ := nodeOf n node there
    exact sound.nodes n before found
  · intro g inRest
    rw [file g (ne_of_mem_erase inRest), next]
    exact sound.ptrs g (mem_of_mem_erase inRest)
  · rw [live]
    exact (card_erase_le).trans sound.room

theorem sound_settle (sound : Sound v) (member : h ∈ v.live) (ptr : f.ptr = (v.file h).ptr)
    (closing : f.closing = true → f.fdRefs = 0 ∧ f.legacyRefs = 0) : Sound (settle v h f) := by
  unfold settle
  split_ifs with idle
  · exact sound_destroy sound member ptr
  apply sound_setFile sound member ptr
  intro isClosing
  obtain ⟨noFd, noLegacy⟩ := closing isClosing
  exact ⟨noFd, noLegacy, fun unused => idle ⟨isClosing, noFd, noLegacy, unused⟩⟩

theorem mem_settle {g : FileId} :
    g ∈ (settle v h f).live ↔ g ∈ v.live ∧ ¬ (g = h ∧ f.Idle) := by
  unfold settle
  split_ifs with idle
  · show g ∈ v.live.erase h ↔ _
    rw [mem_erase]
    tauto
  · show g ∈ v.live ↔ _
    tauto

theorem file_settle (g : FileId) : (settle v h f).file g = if g = h then f else v.file g := by
  have stored : (v.setFile h f).file g = if g = h then f else v.file g := by
    by_cases same : g = h
    · subst same
      simp [VfsState.setFile]
    · simp [VfsState.setFile, same]
  by_cases idle : f.Idle
  · rw [settle, if_pos idle]
    exact stored
  · rw [settle, if_neg idle]
    exact stored

theorem closeIfUnowned_eq (v : VfsState) (h : FileId) {f : FilePcb} (opened : f.closing = false) :
    closeIfUnowned v h f = settle v h f.released := by
  unfold closeIfUnowned settle FilePcb.released FilePcb.Idle
  by_cases unowned : f.fdRefs = 0 ∧ f.legacyRefs = 0
  · by_cases unused : f.activeRefs = 0
    · simp [unowned, unused]
    · simp [unowned]
  · simp only [unowned, opened, decide_false, Bool.or_self, if_false, Bool.false_eq_true,
      false_and]
    rw [← opened]

theorem perform_settle (sound : Sound v) (subject : call.subject = some h) (member : h ∈ v.live) :
    perform v call = settle v h ((v.file h).after call) := by
  have ok : fileOkLocked v h = true := by simpa [fileOkLocked] using member
  have open_of : (v.file h).fdRefs ≠ 0 ∨ (v.file h).legacyRefs ≠ 0 →
    (v.file h).closing = false := by
    intro owned
    by_contra closing
    obtain ⟨noFd, noLegacy, -⟩ := sound.closing h member (by simpa using closing)
    exact owned.elim (absurd noFd) (absurd noLegacy)
  cases call with
  | openfilex mode env => cases subject
  | get g =>
    cases subject
    simp only [perform, vfsFileGet, ok, true_and, FilePcb.after]
    cases closing : (v.file h).closing with
    | true => simp [settle_self sound member]
    | false => exact (settle_open v h rfl).symm
  | put g =>
    cases subject
    simp only [perform, vfsFilePut, ok, true_and, FilePcb.after]
    by_cases none : (v.file h).activeRefs = 0
    · simp [none, settle_self sound member]
    · simp only [none, ne_eq, not_false_eq_true, if_true, if_false, settle, FilePcb.Idle]
  | inherit g =>
    cases subject
    simp only [perform, vfsFileInherit, ok, true_and, FilePcb.after]
    by_cases refused : (v.file h).closing = true ∨ (v.file h).fdRefs = 0
    · rw [if_pos refused, settle_self sound member, if_neg]
      rintro ⟨opened, owned⟩
      exact refused.elim (fun closing => by rw [opened] at closing; cases closing) owned
    · obtain ⟨opened, owned⟩ := not_or.mp refused
      have opened : (v.file h).closing = false := by simpa using opened
      rw [if_neg refused, if_pos ⟨opened, owned⟩, settle_open v h (by exact opened)]
  | markPosix g =>
    cases subject
    simp only [perform, vfsFileMarkPosix, ok, true_and, FilePcb.after]
    by_cases none : (v.file h).legacyRefs = 0
    · rw [if_pos none, settle_self sound member, if_neg (not_not_intro none)]
    · rw [if_neg none, if_pos none, settle_open v h (by exact open_of (Or.inr none))]
  | fclose g =>
    cases subject
    simp only [perform, fclose, ok, true_and, FilePcb.after]
    by_cases none : (v.file h).legacyRefs = 0
    · simp [none, settle_self sound member]
    · simp only [none, ne_eq, not_false_eq_true, if_true, if_false]
      exact closeIfUnowned_eq v h (open_of (Or.inr none))
  | fdclose g =>
    cases subject
    simp only [perform, vfsFileFdclose, ok, true_and, FilePcb.after]
    by_cases none : (v.file h).fdRefs = 0
    · simp [none, settle_self sound member]
    · simp only [none, ne_eq, not_false_eq_true, if_true, if_false]
      exact closeIfUnowned_eq v h (open_of (Or.inl none))

/-- A call on an object that is not open changes nothing. -/
theorem perform_absent (subject : call.subject = some h) (absent : h ∉ v.live) :
    perform v call = v := by
  have bad : fileOkLocked v h = false := by simpa [fileOkLocked] using absent
  cases call with
  | openfilex mode env => cases subject
  | get g | put g | inherit g | markPosix g | fclose g | fdclose g =>
    cases subject
    simp [perform, vfsFileGet, vfsFilePut, vfsFileInherit, vfsFileMarkPosix, fclose,
      vfsFileFdclose, bad]

theorem ptr_after (f : FilePcb) (call : Call) : (f.after call).ptr = f.ptr := by
  cases call with
  | openfilex mode env => rfl
  | get g | put g | inherit g | markPosix g | fclose g | fdclose g =>
    simp only [FilePcb.after, FilePcb.released]
    split_ifs
    all_goals rfl

theorem after_closing (sound : Sound v) (member : h ∈ v.live)
    (closing : (v.file h).closing = true) (call : Call) :
    ((v.file h).after call).closing = true ∧ ((v.file h).after call).fdRefs = 0 ∧
      ((v.file h).after call).legacyRefs = 0 ∧
      ((v.file h).after call).activeRefs ≤ (v.file h).activeRefs := by
  obtain ⟨noFd, noLegacy, used⟩ := sound.closing h member closing
  cases call with
  | put g =>
    simp only [FilePcb.after, used, if_false]
    refine ⟨closing, noFd, noLegacy, ?_⟩
    have positive : (v.file h).activeRefs.toNat ≠ 0 :=
      fun zero => used (BitVec.eq_of_toNat_eq (by simpa using zero))
    bv_omega
  | openfilex mode env | get g | inherit g | markPosix g | fclose g | fdclose g =>
    simp [FilePcb.after, closing, noFd, noLegacy]

theorem after_unowned (sound : Sound v) (member : h ∈ v.live) (call : Call)
    (closing : ((v.file h).after call).closing = true) :
    ((v.file h).after call).fdRefs = 0 ∧ ((v.file h).after call).legacyRefs = 0 := by
  cases before : (v.file h).closing with
  | true =>
    obtain ⟨-, noFd, noLegacy, -⟩ := after_closing sound member before call
    exact ⟨noFd, noLegacy⟩
  | false =>
    cases call with
    | openfilex mode env =>
      simp only [FilePcb.after, before] at closing
      cases closing
    | get g | put g | inherit g | markPosix g =>
      simp only [FilePcb.after] at closing
      split_ifs at closing <;> simp_all
    | fclose g | fdclose g =>
      simp only [FilePcb.after, FilePcb.released] at closing ⊢
      split_ifs at closing ⊢ with none
      · rw [before] at closing
        cases closing
      · simpa [before] using closing

end

section Opening

variable {v v' : VfsState}

/-- Nothing, or one object more under a new number. -/
structure Opened (v v' : VfsState) : Prop where
  sound : Sound v'
  kept : ∀ h ∈ v.live, h ∈ v'.live ∧ v'.file h = v.file h
  fresh : ∀ h ∈ v'.live, h < v.nextFile → h ∈ v.live
  next : v.nextFile ≤ v'.nextFile

theorem Opened.of_same (sound : Sound v') (live : v'.live = v.live) (file : v'.file = v.file)
    (next : v'.nextFile = v.nextFile) : Opened v v' where
  sound := sound
  kept := by
    intro h member
    rw [live, file]
    exact ⟨member, rfl⟩
  fresh := by
    intro h member _
    rwa [live] at member
  next := by rw [next]

section

variable (sound : Sound v)
include sound

theorem Opened.refl : Opened v v := .of_same sound rfl rfl rfl

theorem createfile_spec (env : OpenEnv) {found : Option NodeId}
    (got : createfile v env = (found, v')) : Opened v v' ∧ v'.nextFile = v.nextFile := by
  unfold createfile at got
  split at got
  · cases got
    exact ⟨.refl sound, rfl⟩
  split at got
  · cases got
    exact ⟨.refl sound, rfl⟩
  rename_i d dir there
  split_ifs at got with refused created
  · cases got
    exact ⟨.refl sound, rfl⟩
  · cases got
    refine ⟨.of_same ⟨?_, sound.closing, sound.files, ?_, ?_, sound.room⟩ rfl rfl rfl, rfl⟩
    · intro n node found
      rcases update_eq_cases found with ⟨rfl, ⟨⟩⟩ | ⟨new, found⟩
      · show (0 : Int) = (openCount v v.nextNode : Int)
        rw [openCount, tally_zero]
        · rfl
        intro h member same
        have below := sound.ptrs h member
        rw [Option.some.inj same] at below
        exact Nat.lt_irrefl _ below
      · exact sound.opened n node found
    · intro n node found
      dsimp only at found
      by_cases new : n = v.nextNode
      · exact new ▸ Nat.lt_succ_self _
      · rw [update_of_ne new] at found
        exact Nat.lt_succ_of_lt (sound.nodes n node found)
    · intro h member
      exact Nat.lt_succ_of_lt (sound.ptrs h member)
  · cases got
    refine ⟨.of_same { sound with nodes := ?_, ptrs := ?_ } rfl rfl
      rfl, rfl⟩
    · intro n node found
      exact Nat.lt_succ_of_lt (sound.nodes n node found)
    · intro h member
      exact Nat.lt_succ_of_lt (sound.ptrs h member)

theorem openCount_pushFile (n : NodeId) (mode : Mode) (k : NodeId) :
    openCount (pushFile v n mode) k = openCount v k + share (some n) k := by
  have new : v.nextFile ∉ v.live := fun member => Nat.lt_irrefl _ (sound.files _ member)
  unfold openCount pushFile
  dsimp only
  rw [tally_erase _ (mem_insert_self _ _) k, erase_insert new, update_self]
  congr 1
  apply tally_congr
  intro h member
  have apart : h ≠ v.nextFile := fun same => new (same ▸ member)
  rw [update_of_ne apart]

theorem pushFile_spec {n : NodeId} {node : Node} (there : v.nodes n = some node) (mode : Mode)
    (small : v.live.card < 0x10000000) : Opened v (pushFile v n mode) := by
  have new : v.nextFile ∉ v.live := fun member => Nat.lt_irrefl _ (sound.files _ member)
  have file : ∀ h ∈ v.live, (pushFile v n mode).file h = v.file h := by
    intro h member
    have apart : h ≠ v.nextFile := fun same => new (same ▸ member)
    exact update_of_ne apart _ _
  have nodes : ∀ k after, (pushFile v n mode).nodes k = some after →
      ∃ before, v.nodes k = some before ∧ after.opened = before.opened + share (some n) k := by
    intro k after found
    simp only [pushFile, VfsState.changeNode] at found
    by_cases same : k = n
    · subst same
      rw [update_self, there] at found
      cases found
      exact ⟨node, there, by simp [nodeOpened]⟩
    · rw [update_of_ne same] at found
      refine ⟨after, found, ?_⟩
      rw [share_ne (Ne.symm same)]
      simp
  refine ⟨⟨?_, ?_, ?_, ?_, ?_, ?_⟩, ?_, ?_, Nat.le_succ _⟩
  · intro k after found
    obtain ⟨before, earlier, count⟩ := nodes k after found
    rw [openCount_pushFile sound, count, sound.opened k before earlier]
    push_cast
    rfl
  · intro h member closing
    rcases mem_insert.mp member with rfl | old
    · simp [pushFile] at closing
    · rw [file h old] at closing ⊢
      exact sound.closing h old closing
  · intro h member
    rcases mem_insert.mp member with rfl | old
    · exact Nat.lt_succ_self _
    · exact Nat.lt_succ_of_lt (sound.files h old)
  · intro k after found
    obtain ⟨before, earlier, -⟩ := nodes k after found
    exact sound.nodes k before earlier
  · intro h member
    rcases mem_insert.mp member with rfl | old
    · have ptr : ((pushFile v n mode).file v.nextFile).ptr = n := by simp [pushFile]
      rw [ptr]
      exact sound.nodes n node there
    · rw [file h old]
      exact sound.ptrs h old
  · show (insert v.nextFile v.live).card ≤ 0x10000000
    rw [card_insert_of_notMem new]
    exact small
  · intro h member
    exact ⟨mem_insert_of_mem member, file h member⟩
  · intro h member below
    rcases mem_insert.mp member with rfl | old
    · exact absurd below (Nat.lt_irrefl _)
    · exact old

theorem openNode_spec (n : NodeId) (mode : Mode) (env : OpenEnv) :
    Opened v (openNode v n mode env).2 := by
  unfold openNode
  split
  · exact .refl sound
  rename_i node there
  by_cases refused : node.locked = true ∨ (mode ≠ .read ∧ node.opened ≠ 0)
  · rw [if_pos refused]
    exact .refl sound
  rw [if_neg refused]
  by_cases room : roomForFile v env = true
  · rw [if_pos room]
    exact pushFile_spec sound there mode (by simpa using (Bool.and_eq_true_iff.mp room).2)
  · rw [if_neg room]
    exact .refl sound

end

theorem Opened.trans {v'' : VfsState} (first : Opened v v') (same : v'.nextFile = v.nextFile)
    (second : Opened v' v'') : Opened v v'' where
  sound := second.sound
  kept := by
    intro h member
    obtain ⟨member', file'⟩ := first.kept h member
    obtain ⟨member'', file''⟩ := second.kept h member'
    exact ⟨member'', file''.trans file'⟩
  fresh := by
    intro h member below
    exact first.fresh h (second.fresh h member (by rwa [same])) below
  next := by
    rw [← same]
    exact second.next

theorem openfilex_spec (sound : Sound v) (mode : Mode) (env : OpenEnv) :
    Opened v (openfilex v mode env).2 := by
  unfold openfilex
  split
  · split_ifs
    · exact .refl sound
    split
    · rename_i v₁ made
      exact (createfile_spec sound env made).1
    · rename_i n v₁ made
      obtain ⟨opened, same⟩ := createfile_spec sound env made
      exact opened.trans same (openNode_spec opened.sound n mode env)
  · rename_i n found
    split
    · exact .refl sound
    split_ifs
    · exact .refl sound
    · exact .refl sound
    · exact openNode_spec sound n mode env

end Opening

section Runs

variable {v v' : VfsState} {h : FileId}

theorem sound_start (first : vfsCalls.start v) : Sound v := by
  obtain ⟨empty, closed⟩ := first
  constructor
  · intro n node there
    rw [(closed n node there).2, openCount, tally_zero]
    · rfl
    · intro h member
      rw [empty] at member
      simp at member
  all_goals simp_all

theorem sound_perform (sound : Sound v) (call : Call) : Sound (perform v call) := by
  cases subject : call.subject with
  | none =>
    cases call with
    | openfilex mode env => exact (openfilex_spec sound mode env).sound
    | get h | put h | inherit h | markPosix h | fclose h | fdclose h => cases subject
  | some h =>
    by_cases member : h ∈ v.live
    · rw [perform_settle sound subject member]
      exact sound_settle sound member (ptr_after _ call) (after_unowned sound member call)
    · rw [perform_absent subject member]
      exact sound

theorem sound_reachable (run : Reachable vfsCalls (fun _ _ => True) v) : Sound v := by
  refine run.invariant (fun _ => sound_start) ?_
  rintro s call t sound - rfl
  exact sound_perform sound call

theorem perform_live (sound : Sound v) (call : Call) (member : h ∈ v.live) :
    (h ∈ (perform v call).live ↔ ¬ (call.subject = some h ∧ ((v.file h).after call).Idle)) ∧
      (perform v call).file h =
        if call.subject = some h then (v.file h).after call else v.file h := by
  cases subject : call.subject with
  | none =>
    cases call with
    | openfilex mode env =>
      obtain ⟨stays, same⟩ := (openfilex_spec sound mode env).kept h member
      refine ⟨⟨fun _ => nofun, fun _ => stays⟩, ?_⟩
      exact same
    | get g | put g | inherit g | markPosix g | fclose g | fdclose g => cases subject
  | some g =>
    by_cases there : g ∈ v.live
    · rw [perform_settle sound subject there, mem_settle, file_settle]
      by_cases same : h = g
      · subst same
        simp [member]
      · have apart : some g ≠ some h := fun equal => same (Option.some.inj equal).symm
        simp [member, same, apart]
    · rw [perform_absent subject there]
      have apart : some g ≠ some h := fun equal => there (Option.some.inj equal ▸ member)
      simp [member, apart]

/-- A number once given away is never live again. -/
theorem perform_gone (sound : Sound v) (call : Call) (given : h < v.nextFile) (gone : h ∉ v.live) :
    h < (perform v call).nextFile ∧ h ∉ (perform v call).live := by
  cases subject : call.subject with
  | none =>
    cases call with
    | openfilex mode env =>
      have opened := openfilex_spec sound mode env
      exact ⟨Nat.lt_of_lt_of_le given opened.next, fun member => gone (opened.fresh h member given)⟩
    | get g | put g | inherit g | markPosix g | fclose g | fdclose g => cases subject
  | some g =>
    by_cases there : g ∈ v.live
    · rw [perform_settle sound subject there]
      refine ⟨?_, fun member => gone (mem_settle.mp member).1⟩
      unfold settle
      split_ifs
      all_goals exact given
    · rw [perform_absent subject there]
      exact ⟨given, gone⟩

theorem path_gone (sound : Sound v) (path : Path vfsCalls (fun _ _ => True) v v')
    (given : h < v.nextFile) (gone : h ∉ v.live) : h ∉ v'.live := by
  have all : Sound v' ∧ h < v'.nextFile ∧ h ∉ v'.live := by
    refine path.invariant (I := fun s => Sound s ∧ h < s.nextFile ∧ h ∉ s.live) ?_
      ⟨sound, given, gone⟩
    rintro s call t ⟨soundS, givenS, goneS⟩ - rfl
    exact ⟨sound_perform soundS call, perform_gone soundS call givenS goneS⟩
  exact all.2.2

/-- No live object is closing without references; a call makes an object go exactly when it leaves
it so; a closing one is granted nothing; one that went never comes back; and nodes count their live
objects. -/
theorem file_object_lifetime (run : Reachable vfsCalls (fun _ _ => True) v) :
    (∀ h ∈ v.live, ¬ (v.file h).Idle) ∧ (∀ call, ∀ h ∈ v.live,
        (h ∉ (perform v call).live ↔ call.subject = some h ∧ ((v.file h).after call).Idle) ∧
          (h ∈ (perform v call).live → (perform v call).file h =
            if call.subject = some h then (v.file h).after call else v.file h) ∧
          ((v.file h).closing = true → ((v.file h).after call).closing = true ∧
            ((v.file h).after call).fdRefs = 0 ∧ ((v.file h).after call).legacyRefs = 0 ∧
            ((v.file h).after call).activeRefs ≤ (v.file h).activeRefs)) ∧
      (∀ v', Path vfsCalls (fun _ _ => True) v v' → ∀ h, h < v.nextFile → h ∉ v.live →
        h ∉ v'.live) ∧
      ∀ n node, v.nodes n = some node → node.opened = openCount v n := by
  have sound := sound_reachable run
  refine ⟨fun h => sound.not_idle, ?_, fun v' path h => path_gone sound path, sound.opened⟩
  intro call h member
  obtain ⟨stays, file⟩ := perform_live sound call member
  refine ⟨?_, fun _ => file, fun closing => after_closing sound member closing call⟩
  rw [stays, not_not]

/-- A tree of a root and one file, nothing open. -/
def oneFile : VfsState where
  nodes n :=
    if n = 0 then some ⟨0, false, true, true, false, 1, false, 0⟩
    else if n = 1 then some ⟨0, true, false, false, false, 1, false, 0⟩
    else none
  nextNode := 2
  live := ∅
  file _ := ⟨0, .read, false, 0, 0, 0, false⟩
  nextFile := 0

/-- The lookup finds the file and everything succeeds. -/
def foundOne : OpenEnv := ⟨some 1, some 0, true, true, true, true, true⟩

theorem oneFile_start : vfsCalls.start oneFile := by
  refine ⟨rfl, ?_⟩
  intro n node there
  simp only [oneFile] at there ⊢
  split_ifs at there with root file
  · cases there
    subst root
    exact ⟨by decide, rfl⟩
  · cases there
    subst file
    exact ⟨by decide, rfl⟩

theorem file_object_lifetime_opened :
    (0 : FileId) ∈ (perform oneFile (.openfilex .read foundOne)).live ∧
      ¬ ((perform oneFile (.openfilex .read foundOne)).file 0).Idle := by
  have run : Reachable vfsCalls (fun _ _ => True) (perform oneFile (.openfilex .read foundOne)) :=
    .step (.start oneFile_start) trivial rfl
  have opened : (0 : FileId) ∈ (perform oneFile (.openfilex .read foundOne)).live := by decide
  exact ⟨opened, (file_object_lifetime run).1 0 opened⟩

end Runs

end IcsOs.Vfs.OpenFiles
