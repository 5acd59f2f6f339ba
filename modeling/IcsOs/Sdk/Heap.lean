/- GID: IcsOs/Sdk/Heap
   generality: I
   source: sdk/tccsdk.c
   digest: Blocks carved from slabs and recycled through lists by size never overlap. -/

import IcsOs.Lib.Intrusive
import IcsOs.Lib.Runs
import IcsOs.Lib.Updates
import IcsOs.Lib.Words

set_option autoImplicit false

namespace IcsOs.Sdk.Heap

open Function List
open Lib.Intrusive Lib.Overlay Lib.Runs Lib.Updates Lib.Words

abbrev Mem := Nat → UInt8

/-- `bucket2size` once it is filled in. -/
def bucketSize (b : Nat) : Nat := 16 * 2 ^ b

def size2bucket (size : Nat) : Option Nat :=
  (List.range 32).find? fun b => decide (max size 16 ≤ bucketSize b)

def mallocMagic : Nat := 0xA11CC8ED

/-! The fields of a `malloc_hdr` at an address, and the payload 32 bytes on. -/

def bucketAt (m : Mem) (h : Nat) : Nat := load m h 4

def magicAt (m : Mem) (h : Nat) : Nat := load m (h + 4) 4

def sizeAt (m : Mem) (h : Nat) : Nat := load m (h + 16) 8

def nextAt (m : Mem) (h : Nat) : Nat := load m (h + 24) 8

/-- The header of a new block. -/
def format (m : Mem) (h b : Nat) : Mem :=
  let m := store m h 4 b
  let m := store m (h + 4) 4 mallocMagic
  let m := store (store m (h + 8) 4 0) (h + 12) 4 0
  let m := store m (h + 16) 8 (bucketSize b)
  store m (h + 24) 8 0

/-- The magic and the link of a header. -/
def mark (m : Mem) (h magic next : Nat) : Mem := store (store m (h + 4) 4 magic) (h + 24) 8 next

/-- The variables of the allocator and the memory. -/
structure Arena where
  mem : Mem
  buckets : Nat → Nat
  slabCur : Nat
  slabEnd : Nat

/-- `(unsigned long)(slab_end - slab_cur)`. -/
def Arena.left (H : Arena) : Nat := (H.slabEnd + 2 ^ 64 - H.slabCur) % 2 ^ 64

/-- A size rounded up to whole pages. -/
def pages (n : Nat) : Nat := (n + 0xfff) / 0x1000 * 0x1000

/-- What `sbrk` returns when it fails. -/
def Failed (answer : Nat) : Prop := answer = 0 ∨ answer = 2 ^ 64 - 1

instance (answer : Nat) : Decidable (Failed answer) := by
  unfold Failed
  infer_instance

/-- A freed block of the bucket is handed out again. -/
def reuse (H : Arena) (b : Nat) : Arena × Nat :=
  let h := H.buckets b
  if bucketAt H.mem h ≠ b then (H, 0)
  else
    ({ H with
      mem := mark H.mem h mallocMagic 0
      buckets := Function.update H.buckets b (nextAt H.mem h) }, h + 32)

/-- A block from the front of the slab. -/
def carve (H : Arena) (b : Nat) : Arena × Nat :=
  ({ H with
    mem := format H.mem H.slabCur b
    slabCur := (H.slabCur + (bucketSize b + 32)) % 2 ^ 64 }, (H.slabCur + 32) % 2 ^ 64)

/-- The result, and how much was asked of `sbrk`. -/
def malloc (H : Arena) (size : Nat) (sbrk : Nat → Nat) : Arena × Nat × Option Nat :=
  match size2bucket size with
  | none => (H, 0, none)
  | some b =>
    if H.buckets b ≠ 0 then ((reuse H b).1, (reuse H b).2, none)
    else if 0x7fffffff < bucketSize b + 32 then (H, 0, none)
    else if bucketSize b + 32 ≤ 0x100000 then
      if H.left < bucketSize b + 32 then
        let slab := pages (max (bucketSize b + 32) 0x10000)
        let start := sbrk slab
        if Failed start then ({ H with slabCur := start }, 0, some slab)
        else
          let H := { H with slabCur := start, slabEnd := start + slab }
          ((carve H b).1, (carve H b).2, some slab)
      else ((carve H b).1, (carve H b).2, none)
    else
      let amount := pages (bucketSize b + 32)
      let rv := sbrk amount
      if Failed rv then (H, 0, some amount)
      else ({ H with mem := format H.mem rv b }, rv + 32, some amount)

def free (H : Arena) (ptr : Nat) : Arena :=
  if ptr = 0 then H
  else
    let h := ptr - 32
    let b := bucketAt H.mem h
    if 32 ≤ b ∨ magicAt H.mem h ≠ mallocMagic then H
    else
      { H with
        mem := mark H.mem h 0 (H.buckets b)
        buckets := Function.update H.buckets b h }

def realloc (H : Arena) (ptr size : Nat) (sbrk : Nat → Nat) : Arena × Nat × Option Nat :=
  if ptr = 0 then malloc H size sbrk
  else
    let h := ptr - 32
    if 32 ≤ bucketAt H.mem h ∨ magicAt H.mem h ≠ mallocMagic then (H, 0, none)
    else
      let oldsize := sizeAt H.mem h
      if size = 0 then (free H ptr, 0, none)
      else if size ≤ oldsize then (H, ptr, none)
      else
        match malloc H size sbrk with
        | (H, newptr, asked) =>
          if newptr = 0 then (H, 0, asked)
          else
            let mem := overlay H.mem newptr (slice H.mem ptr oldsize)
            (free { H with mem := mem } ptr, newptr, asked)

/-! ### Programs -/

/-- The heap, the pointers in use with their sizes, those freed since, and the regions from `sbrk`.
-/
structure World where
  heap : Arena
  live : Nat → Option Nat
  freed : Nat → Bool
  regions : List (Nat × Nat)

inductive Act
  | malloc (size : Nat) (sbrk : Nat → Nat)
  | realloc (ptr size : Nat) (sbrk : Nat → Nat)
  | free (ptr : Nat)
  | write (a : Nat) (byte : UInt8)

/-- `sbrk` fails, or returns a page-aligned region apart from earlier ones. -/
def Granted (w : World) (amount start : Nat) : Prop :=
  Failed start ∨ (4096 ∣ start ∧ 0 < start ∧ start + amount < 2 ^ 64 ∧
    ∀ r ∈ w.regions, r.1 + r.2 ≤ start ∨ start + amount ≤ r.1)

/-- What the program may do, and what `sbrk` may answer. -/
def Possible (w : World) : Act → Prop
  | .malloc size sbrk =>
    ∀ amount, (malloc w.heap size sbrk).2.2 = some amount → Granted w amount (sbrk amount)
  | .realloc ptr size sbrk =>
    (ptr = 0 ∨ (w.live ptr).isSome = true) ∧
      ∀ amount, (realloc w.heap ptr size sbrk).2.2 = some amount → Granted w amount (sbrk amount)
  | .free ptr => ptr = 0 ∨ (w.live ptr).isSome = true ∨ w.freed ptr = true
  | .write a _ => ∃ p s, w.live p = some s ∧ p ≤ a ∧ a < p + s

/-- The regions after a call of `sbrk`. -/
def World.grown (w : World) (asked : Option Nat) (sbrk : Nat → Nat) : List (Nat × Nat) :=
  match asked with
  | none => w.regions
  | some amount => if Failed (sbrk amount) then w.regions else (sbrk amount, amount) :: w.regions

def World.handOut (w : World) (ptr size : Nat) : World :=
  if ptr = 0 then w
  else
    { w with
      live := Function.update w.live ptr (some size)
      freed := Function.update w.freed ptr false }

def World.giveUp (w : World) (ptr : Nat) : World :=
  if ptr = 0 then w
  else
    { w with
      live := Function.update w.live ptr none
      freed := Function.update w.freed ptr true }

def perform (w : World) : Act → World
  | .malloc size sbrk =>
    let out := malloc w.heap size sbrk
    World.handOut { w with heap := out.1, regions := w.grown out.2.2 sbrk } out.2.1 size
  | .realloc ptr size sbrk =>
    let out := realloc w.heap ptr size sbrk
    let w := { w with heap := out.1, regions := w.grown out.2.2 sbrk }
    -- the old block is given up if it moved, or if nothing was asked for
    let w := if out.2.1 ≠ ptr ∧ (out.2.1 ≠ 0 ∨ size = 0) then w.giveUp ptr else w
    w.handOut out.2.1 size
  | .free ptr => World.giveUp { w with heap := free w.heap ptr } ptr
  | .write a byte => { w with heap := { w.heap with mem := Function.update w.heap.mem a byte } }

/-- A program from the start, on a memory of any content. -/
def program : System World Act where
  start w := w.heap.buckets = (fun _ => 0) ∧ w.heap.slabCur = 0 ∧ w.heap.slabEnd = 0 ∧
    w.live = (fun _ => none) ∧ w.freed = (fun _ => false) ∧ w.regions = []
  step w a w' := Possible w a ∧ w' = perform w a

/-- A later slab could not be obtained: the end is the old one's. -/
def Arena.Lost (H : Arena) : Prop := H.slabEnd ≠ 0 ∧ Failed H.slabCur

/-- No freed block fits and a new one would come from a slab. -/
def Arena.Carves (H : Arena) (size : Nat) : Prop :=
  ∃ b, size2bucket size = some b ∧ H.buckets b = 0 ∧ bucketSize b + 32 ≤ 0x100000

/-- No block is carved once a slab has been lost. -/
def Careful (w : World) : Act → Prop
  | .malloc size _ => w.heap.Carves size → ¬ w.heap.Lost
  | .realloc ptr size _ =>
    (ptr = 0 ∨ size ≠ 0 ∧ sizeAt w.heap.mem (ptr - 32) < size) →
      w.heap.Carves size → ¬ w.heap.Lost
  | .free _ => True
  | .write _ _ => True

/-- Live blocks are aligned, in memory from `sbrk`, and apart with their headers. -/
structure Orderly (w : World) : Prop where
  aligned : ∀ p s, w.live p = some s → 16 ∣ p
  inside : ∀ p s, w.live p = some s →
    32 ≤ p ∧ ∃ r ∈ w.regions, r.1 ≤ p - 32 ∧ p + s ≤ r.1 + r.2
  apart : ∀ p s q t, w.live p = some s → w.live q = some t → p ≠ q →
    p + s ≤ q - 32 ∨ q + t ≤ p - 32

section Pointers

variable {p : Nat}

theorem handOut_null (w : World) (size : Nat) : w.handOut 0 size = w := if_pos rfl

theorem giveUp_null (w : World) : w.giveUp 0 = w := if_pos rfl

theorem handOut_eq (w : World) (size : Nat) (real : p ≠ 0) : w.handOut p size =
    { w with
      live := update w.live p (some size)
      freed := update w.freed p false } := if_neg real

end Pointers

variable {b amount c h k : Nat} {asked : Option Nat}

section Headers

variable {m m' : Mem} {h b k magic next i : Nat}

/-- A header is the 32 bytes it takes. -/
theorem fields_congr (m m' : Mem) (h : Nat) (same : ∀ i, h ≤ i → i < h + 32 → m' i = m i) :
    bucketAt m' h = bucketAt m h ∧ magicAt m' h = magicAt m h ∧ sizeAt m' h = sizeAt m h ∧
      nextAt m' h = nextAt m h := by
  refine ⟨load_congr ?_, load_congr ?_, load_congr ?_, load_congr ?_⟩
  all_goals
    intro i low high
    exact same i (by omega) (by omega)

theorem format_other (apart : i < h ∨ h + 32 ≤ i) : format m h b i = m i := by
  unfold format
  rw [store_other (by omega), store_other (by omega), store_other (by omega),
    store_other (by omega), store_other (by omega), store_other (by omega)]

theorem mark_other (apart : i < h ∨ h + 32 ≤ i) : mark m h magic next i = m i := by
  unfold mark
  rw [store_other (by omega), store_other (by omega)]

theorem bucketSize_lt (small : b < 32) : bucketSize b < 2 ^ 36 := by
  unfold bucketSize
  have grow : 2 ^ b ≤ 2 ^ 31 := Nat.pow_le_pow_right (by decide) (by omega)
  omega

theorem format_fields (small : b < 32) :
    bucketAt (format m h b) h = b ∧ magicAt (format m h b) h = mallocMagic ∧
      sizeAt (format m h b) h = bucketSize b := by
  have size := bucketSize_lt small
  unfold format bucketAt magicAt sizeAt
  refine ⟨?_, ?_, ?_⟩
  · rw [load_store_other (by omega), load_store_other (by omega), load_store_other (by omega),
      load_store_other (by omega), load_store_other (by omega), load_store (by omega)]
  · rw [load_store_other (by omega), load_store_other (by omega), load_store_other (by omega),
      load_store_other (by omega), load_store (by decide)]
  · rw [load_store_other (by omega), load_store (by omega)]

theorem mark_fields (m : Mem) (h : Nat) {magic next : Nat} (small : magic < 2 ^ 32)
    (pointer : next < 2 ^ 64) :
    bucketAt (mark m h magic next) h = bucketAt m h ∧ magicAt (mark m h magic next) h = magic ∧
      sizeAt (mark m h magic next) h = sizeAt m h ∧ nextAt (mark m h magic next) h = next := by
  unfold mark bucketAt magicAt sizeAt nextAt
  refine ⟨?_, ?_, ?_, ?_⟩
  · rw [load_store_other (by omega), load_store_other (by omega)]
  · rw [load_store_other (by omega), load_store (by omega)]
  · rw [load_store_other (by omega), load_store_other (by omega)]
  · rw [load_store (by omega)]

theorem size2bucket_spec {size : Nat} (found : size2bucket size = some b) :
    b < 32 ∧ size ≤ bucketSize b := by
  have fits := find?_some found
  have listed := mem_of_find?_eq_some found
  rw [decide_eq_true_iff] at fits
  exact ⟨mem_range.mp listed, by omega⟩

end Headers

/-- The slab being carved: in a region, apart from every block. -/
structure Open (cur stop : Nat) (regions : List (Nat × Nat)) (blocks : Nat → Option Nat) :
    Prop where
  positive : 0 < cur
  order : cur ≤ stop
  aligned : 16 ∣ cur
  inside : ∃ r ∈ regions, r.1 ≤ cur ∧ stop ≤ r.1 + r.2
  apart : ∀ h b, blocks h = some b → h + 32 + bucketSize b ≤ cur ∨ stop ≤ h

/-- `blocks` gives the bucket of each header, `lists` the freed blocks. -/
structure Layout (w : World) (blocks : Nat → Option Nat) (lists : Nat → List Nat) : Prop where
  small : ∀ h b, blocks h = some b → b < 32
  fields : ∀ h b, blocks h = some b →
    bucketAt w.heap.mem h = b ∧ sizeAt w.heap.mem h = bucketSize b
  placed : ∀ h b, blocks h = some b → 0 < h ∧ 16 ∣ h ∧
    ∃ r ∈ w.regions, r.1 ≤ h ∧ h + 32 + bucketSize b ≤ r.1 + r.2
  apart : ∀ h b k c, blocks h = some b → blocks k = some c → h ≠ k →
    h + 32 + bucketSize b ≤ k ∨ k + 32 + bucketSize c ≤ h
  live : ∀ p s, w.live p = some s → ∃ b, 32 ≤ p ∧ blocks (p - 32) = some b ∧ s ≤ bucketSize b ∧
    magicAt w.heap.mem (p - 32) = mallocMagic
  freed : ∀ p, w.freed p = true → ∃ b, 32 ≤ p ∧ blocks (p - 32) = some b ∧
    magicAt w.heap.mem (p - 32) = 0
  threaded : ∀ b, Linked (nextAt w.heap.mem) 0 (w.heap.buckets b) (lists b)
  listed : ∀ b, ∀ h ∈ lists b, blocks h = some b ∧ magicAt w.heap.mem h = 0
  once : ∀ b, (lists b).Nodup
  bounded : ∀ r ∈ w.regions, r.1 + r.2 < 2 ^ 64
  slab : Failed w.heap.slabCur ∨ Open w.heap.slabCur w.heap.slabEnd w.regions blocks

section Frames

variable {w : World} {blocks : Nat → Option Nat} {lists : Nat → List Nat} {p s : Nat}

section

variable (layout : Layout w blocks lists)
include layout

theorem Layout.below (block : blocks h = some b) : h + 32 + bucketSize b < 2 ^ 64 := by
  obtain ⟨-, -, r, member, -, high⟩ := layout.placed h b block
  have bound := layout.bounded r member
  omega

theorem Layout.header (live : w.live p = some s) :
    ∃ h b, p = h + 32 ∧ blocks h = some b ∧ s ≤ bucketSize b ∧
      magicAt w.heap.mem h = mallocMagic := by
  obtain ⟨b, low, block, size, magic⟩ := layout.live p s live
  exact ⟨p - 32, b, by omega, block, size, magic⟩

theorem Layout.orderly : Orderly w where
  aligned := by
    intro p s live
    obtain ⟨h, b, rfl, block, -, -⟩ := layout.header live
    have aligned := (layout.placed h b block).2.1
    omega
  inside := by
    intro p s live
    obtain ⟨h, b, rfl, block, size, -⟩ := layout.header live
    obtain ⟨-, -, r, member, low, high⟩ := layout.placed h b block
    exact ⟨by omega, r, member, by omega, by omega⟩
  apart := by
    intro p s q t first second different
    obtain ⟨h, b, rfl, block, size, -⟩ := layout.header first
    obtain ⟨k, c, rfl, other, size', -⟩ := layout.header second
    have apart := layout.apart h b k c block other (by omega)
    omega

/-- Bytes outside every header may change. -/
theorem Layout.repaint {m : Mem}
    (same : ∀ h b, blocks h = some b → ∀ i, h ≤ i → i < h + 32 → m i = w.heap.mem i) :
    Layout { w with heap := { w.heap with mem := m } } blocks lists := by
  have fields := fun h b block => fields_congr w.heap.mem m h (same h b block)
  refine ⟨layout.small, ?_, layout.placed, layout.apart, ?_, ?_, ?_, ?_, layout.once,
    layout.bounded, ?_⟩
  · intro h b block
    obtain ⟨bucket, -, size, -⟩ := fields h b block
    rw [bucket, size]
    exact layout.fields h b block
  · intro p s live
    obtain ⟨b, low, block, size, magic⟩ := layout.live p s live
    exact ⟨b, low, block, size, (fields _ b block).2.1.trans magic⟩
  · intro p freed
    obtain ⟨b, low, block, magic⟩ := layout.freed p freed
    exact ⟨b, low, block, (fields _ b block).2.1.trans magic⟩
  · intro b
    refine (layout.threaded b).congr fun h member => ?_
    exact (fields h b (layout.listed b h member).1).2.2.2
  · intro b h member
    obtain ⟨block, magic⟩ := layout.listed b h member
    exact ⟨block, (fields h b block).2.1.trans magic⟩
  · exact layout.slab

theorem Layout.resize {size : Nat} (block : blocks h = some b)
    (magic : magicAt w.heap.mem h = mallocMagic) (fits : size ≤ bucketSize b) :
    Layout (w.handOut (h + 32) size) blocks lists := by
  refine { layout with live := ?_, freed := ?_ }
  · intro p s live
    rcases update_eq_cases live with ⟨rfl, ⟨⟩⟩ | ⟨-, before⟩
    · exact ⟨b, by omega, by rwa [Nat.add_sub_cancel], fits, by rwa [Nat.add_sub_cancel]⟩
    · exact layout.live p s before
  · intro p freed
    rcases update_eq_cases freed with ⟨-, ⟨⟩⟩ | ⟨-, before⟩
    exact layout.freed p before

/-- A header of the layout after another one was written. -/
theorem Layout.other (block : blocks h = some b) (other : blocks k = some c) (different : h ≠ k)
    {m : Mem} (same : ∀ i, i < k ∨ k + 32 ≤ i → m i = w.heap.mem i) :
    bucketAt m h = bucketAt w.heap.mem h ∧ magicAt m h = magicAt w.heap.mem h ∧
      sizeAt m h = sizeAt w.heap.mem h ∧ nextAt m h = nextAt w.heap.mem h := by
  have apart := layout.apart h b k c block other different
  exact fields_congr w.heap.mem m h fun i low high => same i (by omega)

/-- A header is marked: its pointer comes or goes, and the lists change at most in it. -/
theorem Layout.marked {magic next : Nat} {buckets : Nat → Nat} {live : Nat → Option Nat}
    {freed : Nat → Bool} {lists' : Nat → List Nat} (block : blocks h = some b)
    (small : magic < 2 ^ 32) (pointer : next < 2 ^ 64)
    (lives : ∀ p s, live p = some s →
      (p = h + 32 ∧ s ≤ bucketSize b ∧ magic = mallocMagic) ∨ (p ≠ h + 32 ∧ w.live p = some s))
    (gone : ∀ p, freed p = true →
      (p = h + 32 ∧ magic = 0) ∨ (p ≠ h + 32 ∧ w.freed p = true))
    (listed : ∀ c, ∀ k ∈ lists' c, (k = h ∧ c = b ∧ magic = 0) ∨ (k ≠ h ∧ k ∈ lists c))
    (once : ∀ c, (lists' c).Nodup)
    (threaded : (∀ k c, blocks k = some c → k ≠ h →
        nextAt (mark w.heap.mem h magic next) k = nextAt w.heap.mem k) →
      nextAt (mark w.heap.mem h magic next) h = next →
      ∀ c, Linked (nextAt (mark w.heap.mem h magic next)) 0 (buckets c) (lists' c)) :
    Layout ⟨⟨mark w.heap.mem h magic next, buckets, w.heap.slabCur, w.heap.slabEnd⟩, live, freed,
      w.regions⟩ blocks lists' := by
  obtain ⟨bucket, own, size, link⟩ := mark_fields w.heap.mem h small pointer
  have others : ∀ k c, blocks k = some c → k ≠ h → _ := fun k c other different =>
    layout.other other block different (m := mark w.heap.mem h magic next)
      fun i apart => mark_other apart
  refine ⟨layout.small, ?_, layout.placed, layout.apart, ?_, ?_,
    threaded (fun k c other different => (others k c other different).2.2.2) link, ?_, once,
    layout.bounded, layout.slab⟩
  · intro k c other
    by_cases same : k = h
    · subst same
      rw [bucket, size]
      exact layout.fields k c other
    · obtain ⟨sameBucket, -, sameSize, -⟩ := others k c other same
      rw [sameBucket, sameSize]
      exact layout.fields k c other
  · intro p s alive
    rcases lives p s alive with ⟨rfl, fits, live⟩ | ⟨different, before⟩
    · rw [Nat.add_sub_cancel]
      exact ⟨b, by omega, block, fits, own.trans live⟩
    · obtain ⟨c, low, other, fits, before⟩ := layout.live p s before
      exact ⟨c, low, other, fits, (others _ c other (by omega)).2.1.trans before⟩
  · intro p dead
    rcases gone p dead with ⟨rfl, zero⟩ | ⟨different, before⟩
    · rw [Nat.add_sub_cancel]
      exact ⟨b, by omega, block, own.trans zero⟩
    · obtain ⟨c, low, other, before⟩ := layout.freed p before
      exact ⟨c, low, other, (others _ c other (by omega)).2.1.trans before⟩
  · intro c k member
    rcases listed c k member with ⟨rfl, rfl, zero⟩ | ⟨different, before⟩
    · exact ⟨block, own.trans zero⟩
    · obtain ⟨other, before⟩ := layout.listed c k before
      exact ⟨other, (others k c other different).2.1.trans before⟩

theorem Layout.front (b : Nat) : w.heap.buckets b < 2 ^ 64 := by
  have threaded := layout.threaded b
  cases nodes : lists b with
  | nil =>
    rw [nodes] at threaded
    rw [threaded.null_of_nil]
    decide
  | cons k rest =>
    rw [nodes] at threaded
    have below := layout.below (layout.listed b k (by rw [nodes]; exact mem_cons_self)).1
    rw [threaded.1]
    omega

/-- A live block goes to the list of its bucket. -/
theorem Layout.release {h b : Nat} (block : blocks h = some b)
    (magic : magicAt w.heap.mem h = mallocMagic) :
    Layout (World.giveUp { w with heap := { w.heap with
        mem := mark w.heap.mem h 0 (w.heap.buckets b)
        buckets := update w.heap.buckets b h } } (h + 32))
      blocks (update lists b (h :: lists b)) := by
  have unlisted : ∀ c, h ∉ lists c := by
    intro c member
    have zero := (layout.listed c h member).2
    rw [magic] at zero
    exact absurd zero (by decide)
  refine layout.marked block (by decide) (layout.front b) ?_ ?_ ?_ ?_ ?_
  · intro p s live
    rcases update_eq_cases live with ⟨-, ⟨⟩⟩ | before
    exact .inr before
  · intro p freed
    exact (update_eq_cases freed).imp_left fun same => ⟨same.1, rfl⟩
  · intro c k member
    have old : k ∈ lists c → k ≠ h ∧ k ∈ lists c := fun there =>
      ⟨fun here => unlisted c (here ▸ there), there⟩
    by_cases bucket : c = b
    · subst bucket
      rw [update_self] at member
      exact (mem_cons.mp member).imp (fun here => ⟨here, rfl, rfl⟩) old
    · rw [update_of_ne bucket] at member
      exact .inr (old member)
  · intro c
    by_cases bucket : c = b
    · subst bucket
      rw [update_self]
      exact nodup_cons.mpr ⟨unlisted c, layout.once c⟩
    · rw [update_of_ne bucket]
      exact layout.once c
  · intro others link c
    have same : ∀ k ∈ lists c, nextAt (mark w.heap.mem h 0 (w.heap.buckets b)) k =
        nextAt w.heap.mem k := fun k member =>
      others k c (layout.listed c k member).1 fun here => unlisted c (here ▸ member)
    by_cases bucket : c = b
    · subst bucket
      rw [update_self, update_self]
      exact (layout.threaded c).push (by have := (layout.placed h c block).1; omega) link same
    · rw [update_of_ne bucket, update_of_ne bucket]
      exact (layout.threaded c).congr same

theorem Layout.take {h b size : Nat} {rest : List Nat} (nodes : lists b = h :: rest)
    (fits : size ≤ bucketSize b) :
    Layout (World.handOut { w with heap := { w.heap with
        mem := mark w.heap.mem h mallocMagic 0
        buckets := update w.heap.buckets b (nextAt w.heap.mem h) } } (h + 32) size)
      blocks (update lists b rest) := by
  have first : h ∈ lists b := by
    rw [nodes]
    exact mem_cons_self
  have block := (layout.listed b h first).1
  have once := layout.once b
  rw [nodes] at once
  have kept : ∀ c k, k ∈ update lists b rest c → k ≠ h ∧ k ∈ lists c := by
    intro c k member
    by_cases bucket : c = b
    · subst bucket
      rw [update_self] at member
      refine ⟨?_, by rw [nodes]; exact mem_cons_of_mem _ member⟩
      rintro rfl
      exact (nodup_cons.mp once).1 member
    · rw [update_of_ne bucket] at member
      refine ⟨?_, member⟩
      rintro rfl
      have twice := (layout.listed c k member).1
      rw [block] at twice
      cases twice
      exact bucket rfl
  refine layout.marked block (by decide) (by decide) ?_ ?_ (fun c k => .inr ∘ kept c k) ?_ ?_
  · intro p s live
    rcases update_eq_cases live with ⟨here, ⟨⟩⟩ | before
    · exact .inl ⟨here, fits, rfl⟩
    · exact .inr before
  · intro p freed
    rcases update_eq_cases freed with ⟨-, ⟨⟩⟩ | before
    exact .inr before
  · intro c
    by_cases bucket : c = b
    · subst bucket
      rw [update_self]
      exact (nodup_cons.mp once).2
    · rw [update_of_ne bucket]
      exact layout.once c
  · intro others _ c
    have same : ∀ k ∈ update lists b rest c,
        nextAt (mark w.heap.mem h mallocMagic 0) k = nextAt w.heap.mem k := fun k member =>
      others k c (layout.listed c k (kept c k member).2).1 (kept c k member).1
    refine Linked.congr ?_ same
    by_cases bucket : c = b
    · subst bucket
      have threaded := layout.threaded c
      rw [nodes] at threaded
      rw [update_self, update_self]
      exact threaded.2.2
    · rw [update_of_ne bucket, update_of_ne bucket]
      exact layout.threaded c

theorem Layout.place {rv b size cur stop : Nat} {regions : List (Nat × Nat)} (small : b < 32)
    (fits : size ≤ bucketSize b) (positive : 0 < rv) (aligned : 16 ∣ rv)
    (inside : ∃ r ∈ regions, r.1 ≤ rv ∧ rv + 32 + bucketSize b ≤ r.1 + r.2)
    (apart : ∀ h c, blocks h = some c →
      h + 32 + bucketSize c ≤ rv ∨ rv + 32 + bucketSize b ≤ h)
    (more : ∀ r ∈ w.regions, r ∈ regions) (bounded : ∀ r ∈ regions, r.1 + r.2 < 2 ^ 64)
    (slab : Failed cur ∨ Open cur stop regions (update blocks rv (some b))) :
    Layout (World.handOut { w with
        heap := ⟨format w.heap.mem rv b, w.heap.buckets, cur, stop⟩, regions := regions }
        (rv + 32) size)
      (update blocks rv (some b)) lists := by
  obtain ⟨bucket, magic, full⟩ := format_fields (m := w.heap.mem) (h := rv) small
  have others : ∀ k c, blocks k = some c → _ := fun k c other =>
    fields_congr w.heap.mem (format w.heap.mem rv b) k
      fun i low high => format_other (by have := apart k c other; omega)
  have old : ∀ h c, blocks h = some c → update blocks rv (some b) h = some c := by
    intro h c block
    rw [update_of_ne]
    · exact block
    · rintro rfl
      have self := apart h c block
      omega
  rw [handOut_eq _ _ (by omega)]
  refine ⟨?_, ?_, ?_, ?_, ?_, ?_, ?_, ?_, layout.once, bounded, slab⟩
  · intro h c block
    rcases update_eq_cases block with ⟨-, ⟨⟩⟩ | ⟨-, before⟩
    · exact small
    · exact layout.small h c before
  · intro h c block
    rcases update_eq_cases block with ⟨rfl, ⟨⟩⟩ | ⟨-, before⟩
    · exact ⟨bucket, full⟩
    · obtain ⟨sameBucket, -, sameSize, -⟩ := others h c before
      rw [sameBucket, sameSize]
      exact layout.fields h c before
  · intro h c block
    rcases update_eq_cases block with ⟨rfl, ⟨⟩⟩ | ⟨-, before⟩
    · exact ⟨positive, aligned, inside⟩
    · obtain ⟨low, even, r, member, within⟩ := layout.placed h c before
      exact ⟨low, even, r, more r member, within⟩
  · intro h c k d block other different
    rcases update_eq_cases block with ⟨rfl, ⟨⟩⟩ | ⟨-, before⟩
    · rcases update_eq_cases other with ⟨rfl, -⟩ | ⟨-, before'⟩
      · exact absurd rfl different
      · exact (apart k d before').symm
    · rcases update_eq_cases other with ⟨rfl, ⟨⟩⟩ | ⟨-, before'⟩
      · exact apart h c before
      · exact layout.apart h c k d before before' different
  · intro p s live
    rcases update_eq_cases live with ⟨rfl, ⟨⟩⟩ | ⟨-, before⟩
    · rw [Nat.add_sub_cancel]
      exact ⟨b, by omega, update_self .., fits, magic⟩
    · obtain ⟨c, low, other, size, marked⟩ := layout.live p s before
      exact ⟨c, low, old _ c other, size, (others _ c other).2.1.trans marked⟩
  · intro p freed
    rcases update_eq_cases freed with ⟨-, ⟨⟩⟩ | ⟨-, before⟩
    obtain ⟨c, low, other, unmarked⟩ := layout.freed p before
    exact ⟨c, low, old _ c other, (others _ c other).2.1.trans unmarked⟩
  · intro c
    refine (layout.threaded c).congr fun k member => ?_
    exact (others k c (layout.listed c k member).1).2.2.2
  · intro c k member
    obtain ⟨other, unmarked⟩ := layout.listed c k member
    exact ⟨old k c other, (others k c other).2.1.trans unmarked⟩

theorem Layout.region_apart {start : Nat}
    (apart : ∀ r ∈ w.regions, r.1 + r.2 ≤ start ∨ start + amount ≤ r.1) :
    ∀ h c, blocks h = some c → h + 32 + bucketSize c ≤ start ∨ start + amount ≤ h := by
  intro h c block
  obtain ⟨-, -, r, member, low, high⟩ := layout.placed h c block
  have outside := apart r member
  omega

theorem Layout.open_slab (kept : ¬ w.heap.Lost) (room : 2 ≤ w.heap.left) :
    Open w.heap.slabCur w.heap.slabEnd w.regions blocks ∧
      w.heap.left = w.heap.slabEnd - w.heap.slabCur := by
  unfold Arena.left at room ⊢
  rcases layout.slab with failed | slab
  · have none : w.heap.slabEnd = 0 := by
      by_contra some
      exact kept ⟨some, failed⟩
    rw [none] at room
    rcases failed with zero | last
    · rw [zero] at room
      exact absurd room (by decide)
    · rw [last] at room
      exact absurd room (by decide)
  · obtain ⟨r, member, -, high⟩ := slab.inside
    have bound := layout.bounded r member
    have order := slab.order
    exact ⟨slab, by omega⟩

end

end Frames

theorem le_pages (n : Nat) : n ≤ pages n ∧ pages n ≤ n + 4095 := by
  unfold pages
  omega

section

variable {w : World} {blocks : Nat → Option Nat} {lists : Nat → List Nat} {size : Nat}
  {sbrk : Nat → Nat}

/-- Null, or a block that was not live. -/
inductive Served (w : World) (blocks : Nat → Option Nat) (size : Nat) (sbrk : Nat → Nat) : Prop
  | refused (lists : Nat → List Nat) (null : (malloc w.heap size sbrk).2.1 = 0)
      (layout : Layout (perform w (.malloc size sbrk)) blocks lists)
  | given (h b : Nat) (lists : Nat → List Nat) (ptr : (malloc w.heap size sbrk).2.1 = h + 32)
      (fits : size ≤ bucketSize b) (unused : w.live (h + 32) = none)
      (same : ∀ i, i < h ∨ h + 32 ≤ i → (malloc w.heap size sbrk).1.mem i = w.heap.mem i)
      (layout : Layout (perform w (.malloc size sbrk)) (Function.update blocks h (some b)) lists)

theorem perform_malloc {H : Arena} {ptr : Nat} (out : malloc w.heap size sbrk = (H, ptr, asked)) :
    perform w (.malloc size sbrk) =
      World.handOut { w with heap := H, regions := w.grown asked sbrk } ptr size := by
  have unfolded : perform w (.malloc size sbrk) = World.handOut
      { w with
        heap := (malloc w.heap size sbrk).1
        regions := w.grown (malloc w.heap size sbrk).2.2 sbrk }
      (malloc w.heap size sbrk).2.1 size := rfl
  rw [unfolded, out]

theorem served_null (lists : Nat → List Nat) {H : Arena} {asked : Option Nat}
    (out : malloc w.heap size sbrk = (H, 0, asked))
    (layout : Layout { w with heap := H, regions := w.grown asked sbrk } blocks lists) :
    Served w blocks size sbrk := by
  refine .refused lists (by rw [out]) ?_
  rw [perform_malloc out, handOut_null]
  exact layout

theorem served_block (lists : Nat → List Nat) {H : Arena} {asked : Option Nat} {h b : Nat}
    (out : malloc w.heap size sbrk = (H, h + 32, asked)) (fits : size ≤ bucketSize b)
    (unused : w.live (h + 32) = none) (same : ∀ i, i < h ∨ h + 32 ≤ i → H.mem i = w.heap.mem i)
    (layout : Layout (World.handOut { w with heap := H, regions := w.grown asked sbrk }
      (h + 32) size) (update blocks h (some b)) lists) : Served w blocks size sbrk := by
  refine .given h b lists (by rw [out]) fits unused (by rwa [out]) ?_
  rw [perform_malloc out]
  exact layout

section

variable (layout : Layout w blocks lists)
include layout

theorem Layout.not_live (absent : blocks h = none) : w.live (h + 32) = none := by
  cases live : w.live (h + 32) with
  | none => rfl
  | some s =>
    obtain ⟨b, -, block, -⟩ := layout.live _ s live
    rw [Nat.add_sub_cancel, absent] at block
    cases block

theorem Layout.reused (bucket : size2bucket size = some b) (waiting : w.heap.buckets b ≠ 0) :
    Served w blocks size sbrk := by
  obtain ⟨small, fits⟩ := size2bucket_spec bucket
  obtain ⟨rest, nodes, -⟩ := (layout.threaded b).pop waiting
  have first : w.heap.buckets b ∈ lists b := by
    rw [nodes]
    exact mem_cons_self
  obtain ⟨block, zero⟩ := layout.listed b _ first
  have kind := (layout.fields _ b block).1
  have out : malloc w.heap size sbrk = ({ w.heap with
      mem := mark w.heap.mem (w.heap.buckets b) mallocMagic 0
      buckets := update w.heap.buckets b (nextAt w.heap.mem (w.heap.buckets b)) },
      w.heap.buckets b + 32, none) := by
    unfold malloc
    rw [bucket]
    dsimp only
    rw [if_pos waiting]
    unfold reuse
    rw [if_neg (not_not.mpr kind)]
  have unused : w.live (w.heap.buckets b + 32) = none := by
    cases live : w.live (w.heap.buckets b + 32) with
    | none => rfl
    | some s =>
      obtain ⟨c, -, -, -, marked⟩ := layout.live _ s live
      rw [Nat.add_sub_cancel, zero] at marked
      exact absurd marked (by decide)
  have same : update blocks (w.heap.buckets b) (some b) = blocks := by
    rw [← block]
    exact update_eq_self _ _
  have after := layout.take nodes fits
  rw [← same] at after
  exact served_block _ out fits unused (fun i apart => mark_other apart) after

theorem Layout.carved {cur stop : Nat} (small : b < 32) (fits : size ≤ bucketSize b)
    (slab : Open cur stop (w.grown asked sbrk) blocks) (room : cur + 32 + bucketSize b ≤ stop)
    (more : ∀ r ∈ w.regions, r ∈ w.grown asked sbrk)
    (bounded : ∀ r ∈ w.grown asked sbrk, r.1 + r.2 < 2 ^ 64)
    (out : malloc w.heap size sbrk =
      ((carve ⟨w.heap.mem, w.heap.buckets, cur, stop⟩ b).1,
        (carve ⟨w.heap.mem, w.heap.buckets, cur, stop⟩ b).2, asked)) :
    Served w blocks size sbrk := by
  obtain ⟨r, member, low, high⟩ := slab.inside
  have positive := slab.positive
  have aligned := slab.aligned
  have bound := bounded r member
  have apart : ∀ h c, blocks h = some c →
      h + 32 + bucketSize c ≤ cur ∨ cur + 32 + bucketSize b ≤ h := by
    intro h c block
    have off := slab.apart h c block
    omega
  have absent : blocks cur = none := by
    cases block : blocks cur with
    | none => rfl
    | some c =>
      have self := apart cur c block
      omega
  have multiple : 16 ∣ bucketSize b := ⟨2 ^ b, rfl⟩
  have ptr : (cur + 32) % 2 ^ 64 = cur + 32 := Nat.mod_eq_of_lt (by omega)
  have next : (cur + (bucketSize b + 32)) % 2 ^ 64 = cur + (bucketSize b + 32) :=
    Nat.mod_eq_of_lt (by omega)
  unfold carve at out
  dsimp only at out
  rw [ptr, next] at out
  refine served_block lists out fits (layout.not_live absent) (fun i off => format_other off) ?_
  refine layout.place small fits positive aligned ⟨r, member, low, by omega⟩ apart more bounded ?_
  refine .inr ⟨by omega, by omega, by omega, ⟨r, member, by omega, high⟩, ?_⟩
  intro h c block
  rcases update_eq_cases block with ⟨rfl, ⟨⟩⟩ | ⟨-, before⟩
  · omega
  · have off := slab.apart h c before
    omega

end

/-- The regions after `sbrk` gave one more. -/
theorem grown_granted (got : ¬ Failed (sbrk amount)) :
    w.grown (some amount) sbrk = (sbrk amount, amount) :: w.regions := if_neg got

theorem grown_failed (failed : Failed (sbrk amount)) :
    w.grown (some amount) sbrk = w.regions := if_pos failed

section

variable (layout : Layout w blocks lists)
include layout

theorem Layout.carved_new (small : b < 32) (fits : size ≤ bucketSize b)
    (room : bucketSize b + 32 ≤ amount) (granted : Granted w amount (sbrk amount))
    (got : ¬ Failed (sbrk amount))
    (out : malloc w.heap size sbrk =
      ((carve ⟨w.heap.mem, w.heap.buckets, sbrk amount, sbrk amount + amount⟩ b).1,
        (carve ⟨w.heap.mem, w.heap.buckets, sbrk amount, sbrk amount + amount⟩ b).2,
        some amount)) : Served w blocks size sbrk := by
  obtain ⟨page, positive, bound, apart⟩ := granted.resolve_left got
  have regions := grown_granted (w := w) got
  refine layout.carved small fits ?_ (by omega) ?_ ?_ out
  · rw [regions]
    exact ⟨positive, by omega, by omega, ⟨_, mem_cons_self, Nat.le_refl _, Nat.le_refl _⟩,
      layout.region_apart apart⟩
  · rw [regions]
    exact fun r member => mem_cons_of_mem _ member
  · rw [regions]
    intro r member
    rcases mem_cons.mp member with rfl | old
    · exact bound
    · exact layout.bounded r old

/-- A large block with a region of its own. -/
theorem Layout.mapped {b amount : Nat} (small : b < 32) (fits : size ≤ bucketSize b)
    (room : bucketSize b + 32 ≤ amount) (granted : Granted w amount (sbrk amount))
    (got : ¬ Failed (sbrk amount))
    (out : malloc w.heap size sbrk =
      ({ w.heap with mem := format w.heap.mem (sbrk amount) b }, sbrk amount + 32, some amount)) :
    Served w blocks size sbrk := by
  obtain ⟨page, positive, bound, apart⟩ := granted.resolve_left got
  have regions := grown_granted (w := w) got
  have off := layout.region_apart apart
  have free : ∀ h c, blocks h = some c →
      h + 32 + bucketSize c ≤ sbrk amount ∨ sbrk amount + 32 + bucketSize b ≤ h := by
    intro h c block
    have outside := off h c block
    omega
  have absent : blocks (sbrk amount) = none := by
    cases block : blocks (sbrk amount) with
    | none => rfl
    | some c =>
      have self := free _ c block
      omega
  refine served_block lists out fits (layout.not_live absent)
    (fun i outside => format_other outside) ?_
  rw [regions]
  refine layout.place small fits positive (by omega)
    ⟨_, mem_cons_self, Nat.le_refl _, by dsimp only; omega⟩ free
    (fun r member => mem_cons_of_mem _ member) ?_ ?_
  · intro r member
    rcases mem_cons.mp member with rfl | old
    · exact bound
    · exact layout.bounded r old
  -- the slab stays where it is, in a region of before
  rcases layout.slab with failed | slab
  · exact .inl failed
  obtain ⟨r, member, low, high⟩ := slab.inside
  have outside := apart r member
  have order := slab.order
  refine .inr ⟨slab.positive, order, slab.aligned,
    ⟨r, mem_cons_of_mem _ member, low, high⟩, ?_⟩
  intro h c block
  rcases update_eq_cases block with ⟨rfl, ⟨⟩⟩ | ⟨-, before⟩
  · omega
  · exact slab.apart h c before

theorem served (possible : Possible w (.malloc size sbrk))
    (careful : Careful w (.malloc size sbrk)) : Served w blocks size sbrk := by
  cases bucket : size2bucket size with
  | none =>
    have out : malloc w.heap size sbrk = (w.heap, 0, none) := by
      unfold malloc
      rw [bucket]
    exact served_null lists out layout
  | some b =>
    obtain ⟨small, fits⟩ := size2bucket_spec bucket
    by_cases waiting : w.heap.buckets b ≠ 0
    · exact layout.reused bucket waiting
    by_cases large : 0x7fffffff < bucketSize b + 32
    · have out : malloc w.heap size sbrk = (w.heap, 0, none) := by
        unfold malloc
        rw [bucket]
        dsimp only
        rw [if_neg waiting, if_pos large]
      exact served_null lists out layout
    by_cases slabbed : bucketSize b + 32 ≤ 0x100000
    · by_cases short : w.heap.left < bucketSize b + 32
      · by_cases failed : Failed (sbrk (pages (max (bucketSize b + 32) 0x10000)))
        · have out : malloc w.heap size sbrk =
              ({ w.heap with slabCur := sbrk (pages (max (bucketSize b + 32) 0x10000)) }, 0,
                some (pages (max (bucketSize b + 32) 0x10000))) := by
            unfold malloc
            rw [bucket]
            dsimp only
            rw [if_neg waiting, if_neg large, if_pos slabbed, if_pos short, if_pos failed]
          refine served_null lists out ?_
          rw [grown_failed failed]
          exact { layout with slab := .inl failed }
        · have enough := (le_pages (max (bucketSize b + 32) 0x10000)).1
          generalize slab : pages (max (bucketSize b + 32) 0x10000) = amount at failed enough
          have out : malloc w.heap size sbrk =
              ((carve ⟨w.heap.mem, w.heap.buckets, sbrk amount, sbrk amount + amount⟩ b).1,
                (carve ⟨w.heap.mem, w.heap.buckets, sbrk amount, sbrk amount + amount⟩ b).2,
                some amount) := by
            unfold malloc
            rw [bucket]
            dsimp only
            rw [if_neg waiting, if_neg large, if_pos slabbed, if_pos short, slab, if_neg failed]
          exact layout.carved_new small fits (by omega) (possible _ (by rw [out])) failed out
      · have out : malloc w.heap size sbrk =
            ((carve w.heap b).1, (carve w.heap b).2, none) := by
          unfold malloc
          rw [bucket]
          dsimp only
          rw [if_neg waiting, if_neg large, if_pos slabbed, if_neg short]
        have kept : ¬ w.heap.Lost := careful ⟨b, bucket, not_not.mp waiting, slabbed⟩
        obtain ⟨slab, left⟩ := layout.open_slab kept (by omega)
        have regions : w.grown none sbrk = w.regions := rfl
        rw [← regions] at slab
        have room : w.heap.slabCur + 32 + bucketSize b ≤ w.heap.slabEnd := by omega
        exact layout.carved small fits slab room (fun r member => member) layout.bounded out
    · by_cases failed : Failed (sbrk (pages (bucketSize b + 32)))
      · have out : malloc w.heap size sbrk =
            (w.heap, 0, some (pages (bucketSize b + 32))) := by
          unfold malloc
          rw [bucket]
          dsimp only
          rw [if_neg waiting, if_neg large, if_neg slabbed, if_pos failed]
        refine served_null lists out ?_
        rw [grown_failed failed]
        exact layout
      · have out : malloc w.heap size sbrk =
            ({ w.heap with mem := format w.heap.mem (sbrk (pages (bucketSize b + 32))) b },
              sbrk (pages (bucketSize b + 32)) + 32, some (pages (bucketSize b + 32))) := by
          unfold malloc
          rw [bucket]
          dsimp only
          rw [if_neg waiting, if_neg large, if_neg slabbed, if_neg failed]
        have granted := possible _ (by rw [out])
        exact layout.mapped small fits (le_pages _).1 granted failed out

end

variable {p : Nat}

def Kept (w : World) : Prop := ∃ blocks lists, Layout w blocks lists

theorem Served.kept (outcome : Served w blocks size sbrk) :
    Kept (perform w (.malloc size sbrk)) := by
  cases outcome with
  | refused lists null layout => exact ⟨blocks, lists, layout⟩
  | given h b lists ptr fits unused same layout => exact ⟨_, lists, layout⟩

section

variable (layout : Layout w blocks lists)
include layout

/-- A block whose magic is gone is left alone. -/
theorem Layout.free_again (freed : w.freed p = true) : free w.heap p = w.heap := by
  obtain ⟨b, low, -, magic⟩ := layout.freed p freed
  unfold free
  rw [if_neg (by omega)]
  rw [if_pos]
  right
  rw [magic]
  decide

theorem Layout.free_live {h b : Nat} (block : blocks h = some b)
    (magic : magicAt w.heap.mem h = mallocMagic) : free w.heap (h + 32) =
      { w.heap with
        mem := mark w.heap.mem h 0 (w.heap.buckets b)
        buckets := update w.heap.buckets b h } := by
  have small := layout.small h b block
  unfold free
  rw [if_neg (by omega)]
  dsimp only
  rw [Nat.add_sub_cancel, (layout.fields h b block).1, magic, if_neg]
  rintro (large | other)
  · omega
  · exact other rfl

/-- What freeing a pointer twice does to the books: nothing. -/
theorem Layout.giveUp_again (freed : w.freed p = true) : w.giveUp p = w := by
  obtain ⟨b, low, -, magic⟩ := layout.freed p freed
  have dead : w.live p = none := by
    cases live : w.live p with
    | none => rfl
    | some s =>
      obtain ⟨c, -, -, -, marked⟩ := layout.live p s live
      rw [magic] at marked
      exact absurd marked (by decide)
  have sameLive : update w.live p none = w.live := by
    rw [← dead]
    exact update_eq_self _ _
  have sameFreed : update w.freed p true = w.freed := by
    rw [← freed]
    exact update_eq_self _ _
  unfold World.giveUp
  rw [if_neg (by omega), sameLive, sameFreed]

theorem kept_free (possible : Possible w (.free p)) : Kept (perform w (.free p)) := by
  change Kept (World.giveUp { w with heap := free w.heap p } p)
  rcases possible with rfl | live | freed
  · exact ⟨blocks, lists, layout⟩
  · obtain ⟨s, live⟩ := Option.isSome_iff_exists.mp live
    obtain ⟨h, b, rfl, block, -, magic⟩ := layout.header live
    rw [layout.free_live block magic]
    exact ⟨blocks, _, layout.release block magic⟩
  · rw [layout.free_again freed]
    rw [layout.giveUp_again freed]
    exact ⟨blocks, lists, layout⟩

/-- A payload touches no header. -/
theorem Layout.payload {i : Nat} (block : blocks h = some b) (low : h + 32 ≤ i)
    (high : i < h + 32 + bucketSize b) {j : Nat} (other : blocks k = some c) (first : k ≤ j)
    (last : j < k + 32) : j ≠ i := by
  by_cases same : h = k
  · omega
  · have apart := layout.apart h b k c block other same
    omega

theorem kept_write {a : Nat} {byte : UInt8} (possible : Possible w (.write a byte)) :
    Kept (perform w (.write a byte)) := by
  obtain ⟨p, s, live, low, high⟩ := possible
  obtain ⟨h, b, rfl, block, size, -⟩ := layout.header live
  refine ⟨blocks, lists, layout.repaint fun k c other i first last => ?_⟩
  have off : i ≠ a := layout.payload block low (by omega) other first last
  exact update_of_ne off _ _

end

theorem handOut_giveUp (w : World) {p r : Nat} (apart : r ≠ p) (size : Nat) :
    (w.giveUp p).handOut r size = (w.handOut r size).giveUp p := by
  unfold World.handOut World.giveUp
  by_cases null : r = 0
  · rw [if_pos null, if_pos null]
  by_cases zero : p = 0
  · rw [if_pos zero, if_pos zero]
  · rw [if_neg null, if_neg zero, if_neg zero, if_neg null]
    dsimp only
    rw [update_comm apart, update_comm apart]

/-- A block that moves: the new one is apart from the old, and gets its bytes. -/
theorem moved {s : Nat} {lists' : Nat → List Nat} {H : Arena} (block : blocks h = some b)
    (live : w.live (h + 32) = some s) (held : s ≤ bucketSize b) (grows : bucketSize b < size)
    (out : malloc w.heap size sbrk = (H, k + 32, asked)) (fits : size ≤ bucketSize c)
    (unused : w.live (k + 32) = none) (same : ∀ i, i < k ∨ k + 32 ≤ i → H.mem i = w.heap.mem i)
    (after : Layout (perform w (.malloc size sbrk)) (update blocks k (some c)) lists') :
    let mem := overlay H.mem (k + 32) (slice H.mem (h + 32) (bucketSize b))
    Kept (((World.giveUp { w with
        heap := free { H with mem := mem } (h + 32), regions := w.grown asked sbrk }
        (h + 32)).handOut (k + 32) size)) ∧
      ∀ i, i < s → (free { H with mem := mem } (h + 32)).mem (k + 32 + i) =
        w.heap.mem (h + 32 + i) := by
  intro mem
  have different : k ≠ h := by
    rintro rfl
    rw [live] at unused
    cases unused
  have old : update blocks k (some c) h = some b := by
    rw [update_of_ne different.symm]
    exact block
  have new : update blocks k (some c) k = some c := update_self _ _ _
  have apart := after.apart h b k c old new different.symm
  rw [perform_malloc out, handOut_eq _ _ (by omega)] at after
  -- the copy goes to the payload of the new block
  have painted := after.repaint (m := mem) (by
    intro j d other i first last
    by_cases before : i < k + 32
    · exact overlay_before _ _ before
    refine overlay_after _ ?_
    rw [length_slice]
    by_cases here : j = k
    · omega
    · have off := after.apart k c j d new other (Ne.symm here)
      omega)
  have magic : magicAt mem h = mallocMagic := by
    have stays : update w.live (k + 32) (some size) (h + 32) = some s := by
      rw [update_of_ne (by omega)]
      exact live
    obtain ⟨d, -, -, -, marked⟩ := painted.live (h + 32) s stays
    exact marked
  have freed : free { H with mem := mem } (h + 32) =
      { H with mem := mark mem h 0 (H.buckets b), buckets := update H.buckets b h } :=
    painted.free_live old magic
  refine ⟨?_, ?_⟩
  · rw [handOut_giveUp _ (by omega), freed, handOut_eq _ _ (by omega)]
    exact ⟨_, _, painted.release old magic⟩
  intro i inside
  rw [freed]
  dsimp only
  rw [mark_other (by omega)]
  have copied : mem (k + 32 + i) = H.mem (h + 32 + i) := by
    refine overlay_inside _ (by omega) ?_
    rw [Nat.add_sub_cancel_left, getElem?_slice _ _ (by omega)]
  rw [copied]
  exact same _ (by omega)

theorem perform_realloc {H : Arena} {r : Nat} {asked : Option Nat}
    (out : realloc w.heap p size sbrk = (H, r, asked)) : perform w (.realloc p size sbrk) =
      (if r ≠ p ∧ (r ≠ 0 ∨ size = 0) then
        World.giveUp { w with heap := H, regions := w.grown asked sbrk } p
        else { w with heap := H, regions := w.grown asked sbrk }).handOut r size := by
  have unfolded : perform w (.realloc p size sbrk) =
      (if (realloc w.heap p size sbrk).2.1 ≠ p ∧
          ((realloc w.heap p size sbrk).2.1 ≠ 0 ∨ size = 0) then
        World.giveUp { w with
          heap := (realloc w.heap p size sbrk).1
          regions := w.grown (realloc w.heap p size sbrk).2.2 sbrk } p
        else { w with
          heap := (realloc w.heap p size sbrk).1
          regions := w.grown (realloc w.heap p size sbrk).2.2 sbrk }).handOut
        (realloc w.heap p size sbrk).2.1 size := rfl
  rw [unfolded, out]

theorem realloc_null (H : Arena) (size : Nat) (sbrk : Nat → Nat) :
    realloc H 0 size sbrk = malloc H size sbrk := if_pos rfl

/-- `realloc` of a live block comes down to its size. -/
theorem Layout.realloc_live (layout : Layout w blocks lists) (size : Nat) (sbrk : Nat → Nat)
    {h b : Nat} (block : blocks h = some b) (magic : magicAt w.heap.mem h = mallocMagic) :
    realloc w.heap (h + 32) size sbrk =
      if size = 0 then (free w.heap (h + 32), 0, none)
      else if size ≤ bucketSize b then (w.heap, h + 32, none)
      else
        match malloc w.heap size sbrk with
        | (H, newptr, asked) =>
          if newptr = 0 then (H, 0, asked)
          else
            (free { H with
              mem := overlay H.mem newptr (slice H.mem (h + 32) (bucketSize b)) } (h + 32),
              newptr, asked) := by
  have small := layout.small h b block
  obtain ⟨bucket, full⟩ := layout.fields h b block
  unfold realloc
  rw [if_neg (by omega)]
  dsimp only
  rw [Nat.add_sub_cancel, bucket, magic, full, if_neg]
  rintro (large | other)
  · omega
  · exact other rfl

/-- Null, or a block of the old bytes, the old one or not live. -/
def Carried (w : World) (p size : Nat) (sbrk : Nat → Nat) : Prop :=
  ∀ s, w.live p = some s → (realloc w.heap p size sbrk).2.1 ≠ 0 →
    ((realloc w.heap p size sbrk).2.1 = p ∨ w.live (realloc w.heap p size sbrk).2.1 = none) ∧
      ∀ i, i < min s size → (realloc w.heap p size sbrk).1.mem
        ((realloc w.heap p size sbrk).2.1 + i) = w.heap.mem (p + i)

theorem grown_block (layout : Layout w blocks lists) {s : Nat} (block : blocks h = some b)
    (magic : magicAt w.heap.mem h = mallocMagic) (live : w.live (h + 32) = some s)
    (held : s ≤ bucketSize b) (grows : bucketSize b < size) (outcome : Served w blocks size sbrk) :
    Kept (perform w (.realloc (h + 32) size sbrk)) ∧ Carried w (h + 32) size sbrk := by
  have shape := layout.realloc_live size sbrk block magic
  rw [if_neg (by omega), if_neg (by omega)] at shape
  rcases found : malloc w.heap size sbrk with ⟨H, newptr, asked⟩
  rw [found] at shape
  dsimp only at shape
  cases outcome with
  | refused lists' null after =>
    have zero : newptr = 0 := by
      rw [found] at null
      exact null
    rw [if_pos zero] at shape
    refine ⟨⟨blocks, lists', ?_⟩, ?_⟩
    · rw [perform_malloc found, zero, handOut_null] at after
      rw [perform_realloc shape, if_neg, handOut_null]
      · exact after
      · rintro ⟨-, bad | bad⟩
        · exact bad rfl
        · omega
    · intro t _ real
      rw [shape] at real
      exact absurd rfl real
  | given k c lists' ptr fits unused same after =>
    rw [found] at ptr same
    subst ptr
    have different : k + 32 ≠ h + 32 := by
      intro equal
      rw [equal, live] at unused
      cases unused
    obtain ⟨kept, bytes⟩ := moved block live held grows found fits unused same after
    rw [if_neg (by omega)] at shape
    refine ⟨?_, ?_⟩
    · rw [perform_realloc shape, if_pos ⟨different, .inl (by omega)⟩]
      exact kept
    intro t alive _
    rw [live] at alive
    cases alive
    rw [shape]
    refine ⟨.inr unused, fun i inside => ?_⟩
    exact bytes i (by omega)

theorem reallocated (layout : Layout w blocks lists)
    (possible : Possible w (.realloc p size sbrk)) (careful : Careful w (.realloc p size sbrk)) :
    Kept (perform w (.realloc p size sbrk)) ∧ Carried w p size sbrk := by
  obtain ⟨valid, granted⟩ := possible
  by_cases null : p = 0
  · subst null
    have outcome : Served w blocks size sbrk := by
      refine served layout ?_ (careful (.inl rfl))
      intro amount asked
      exact granted amount asked
    refine ⟨?_, ?_⟩
    · rcases found : malloc w.heap size sbrk with ⟨H, newptr, asked⟩
      have kept := outcome.kept
      rw [perform_malloc found] at kept
      rw [perform_realloc ((realloc_null _ _ _).trans found)]
      rw [giveUp_null, ite_self]
      exact kept
    · intro s live
      obtain ⟨b, low, -⟩ := layout.live 0 s live
      omega
  · obtain ⟨s, live⟩ := Option.isSome_iff_exists.mp (valid.resolve_left null)
    obtain ⟨h, b, rfl, block, held, magic⟩ := layout.header live
    have shape := layout.realloc_live size sbrk block magic
    by_cases zero : size = 0
    · rw [if_pos zero] at shape
      refine ⟨?_, fun t _ real => absurd (by rw [shape]) real⟩
      rw [perform_realloc shape, if_pos ⟨by omega, .inr zero⟩, handOut_null]
      exact kept_free layout (.inr (.inl (by rw [live]; rfl)))
    rw [if_neg zero] at shape
    by_cases enough : size ≤ bucketSize b
    · rw [if_pos enough] at shape
      refine ⟨?_, ?_⟩
      · rw [perform_realloc shape, if_neg (fun bad => bad.1 rfl)]
        exact ⟨blocks, lists, layout.resize block magic enough⟩
      · intro t _ _
        rw [shape]
        exact ⟨.inl rfl, fun i _ => rfl⟩
    · have full := (layout.fields h b block).2
      have outcome : Served w blocks size sbrk := by
        refine served layout ?_ (careful (.inr ⟨zero, ?_⟩))
        · intro amount asked
          refine granted amount ?_
          rw [shape, if_neg enough]
          rcases found : malloc w.heap size sbrk with ⟨H, newptr, more⟩
          rw [found] at asked
          dsimp only
          split_ifs
          · exact asked
          · exact asked
        · rw [Nat.add_sub_cancel, full]
          omega
      exact grown_block layout block magic live held (by omega) outcome

theorem kept_perform (kept : Kept w) {a : Act} (careful : Careful w a) (possible : Possible w a) :
    Kept (perform w a) := by
  obtain ⟨blocks, lists, layout⟩ := kept
  cases a with
  | malloc size sbrk => exact (served layout possible careful).kept
  | realloc ptr size sbrk => exact (reallocated layout possible careful).1
  | free ptr => exact kept_free layout possible
  | write a byte => exact kept_write layout possible

theorem kept_start (first : program.start w) : Kept w := by
  obtain ⟨buckets, cur, -, live, freed, regions⟩ := first
  refine ⟨fun _ => none, fun _ => [], ?_⟩
  refine ⟨?_, ?_, ?_, ?_, ?_, ?_, ?_, ?_, ?_, ?_, ?_⟩
  · exact fun h b block => nomatch block
  · exact fun h b block => nomatch block
  · exact fun h b block => nomatch block
  · exact fun h b k c block => nomatch block
  · intro p s alive
    rw [live] at alive
    cases alive
  · intro p gone
    rw [freed] at gone
    cases gone
  · intro b
    rw [buckets]
    rfl
  · exact fun b h member => nomatch member
  · exact fun b => nodup_nil
  · rw [regions]
    exact fun r member => nomatch member
  · exact .inl (.inl cur)

end

/-- Where no block is carved from a lost slab, live blocks are aligned, of memory from `sbrk` and
apart with their headers; `malloc` returns none of them; `realloc` keeps the bytes; and freeing
again changes nothing. -/
theorem blocks_stay_apart {w : World} (run : Reachable program Careful w) :
    Orderly w ∧
      (∀ size sbrk, Possible w (.malloc size sbrk) → Careful w (.malloc size sbrk) →
        (malloc w.heap size sbrk).2.1 ≠ 0 → w.live (malloc w.heap size sbrk).2.1 = none) ∧
      (∀ p size sbrk, Possible w (.realloc p size sbrk) → Careful w (.realloc p size sbrk) →
        Carried w p size sbrk) ∧
      ∀ p, w.freed p = true → free w.heap p = w.heap := by
  have kept : Kept w := by
    refine run.invariant (fun _ => kept_start) ?_
    rintro w a w' kept careful ⟨possible, rfl⟩
    exact kept_perform kept careful possible
  obtain ⟨blocks, lists, layout⟩ := kept
  refine ⟨layout.orderly, ?_, ?_, fun p freed => layout.free_again freed⟩
  · intro size sbrk possible careful real
    cases served layout possible careful with
    | refused lists' null after => exact absurd null real
    | given h b lists' ptr fits unused same after =>
      rw [ptr]
      exact unused
  · exact fun p size sbrk possible careful => (reallocated layout possible careful).2

/-- A program that has not started. -/
def idle : World := ⟨⟨fun _ => 0, fun _ => 0, 0, 0⟩, fun _ => none, fun _ => false, []⟩

def firstSlab : Act := .malloc 10 fun _ => 0x1000

theorem firstSlab_possible : Possible idle firstSlab := by
  intro amount asked
  have slab : (malloc idle.heap 10 fun _ => 0x1000).2.2 = some 0x10000 := by decide +kernel
  cases asked
  exact .inr ⟨by decide, by decide, by decide, fun r member => nomatch member⟩

theorem refused_possible (w : World) (size : Nat) : Possible w (.malloc size fun _ => 0) :=
  fun _ _ => .inl (.inl rfl)

theorem blocks_stay_apart_two : ∃ w, Reachable program Careful w ∧ w.live 0x1020 = some 10 ∧
    w.live 0x1050 = some 10 ∧ Orderly w := by
  have start : Reachable program Careful idle := .start ⟨rfl, rfl, rfl, rfl, rfl, rfl⟩
  have careful : Careful idle firstSlab := fun _ lost => lost.1 rfl
  have first := start.step careful ⟨firstSlab_possible, rfl⟩
  have kept : ¬ Failed (perform idle firstSlab).heap.slabCur := by decide +kernel
  have second := first.step (a := Act.malloc 10 fun _ => 0) (fun _ lost => kept lost.2)
    ⟨refused_possible _ 10, rfl⟩
  exact ⟨_, second, by decide +kernel, by decide +kernel, (blocks_stay_apart second).1⟩

/-- A second slab fails, and the next small block is at address 32. -/
theorem null_block_carved : ∃ w, Reachable program (fun _ _ => True) w ∧
    w.live 32 = some 10 ∧ w.regions = [(0x1000, 0x10000)] := by
  have start : Reachable program (fun _ _ => True) idle := .start ⟨rfl, rfl, rfl, rfl, rfl, rfl⟩
  have first := start.step (a := firstSlab) trivial ⟨firstSlab_possible, rfl⟩
  have second := first.step trivial ⟨refused_possible _ 0x10000, rfl⟩
  have third := second.step trivial ⟨refused_possible _ 10, rfl⟩
  exact ⟨_, third, by decide +kernel, by decide +kernel⟩

end IcsOs.Sdk.Heap
