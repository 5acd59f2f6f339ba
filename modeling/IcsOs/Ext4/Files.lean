/- GID: IcsOs/Ext4/Files
   generality: I
   source: kernel/filesystem/ext4.c, kernel/filesystem/ext4.h
   digest: Reading and writing byte ranges of files over extent maps, and what is read back. -/

import Mathlib.Algebra.Group.Int.Defs
import Mathlib.Algebra.Group.Nat.Defs
import IcsOs.Lib.Overlay

set_option autoImplicit false

namespace IcsOs.Ext4.Files

open List
open Lib.Overlay

abbrev Byte := BitVec 8

/-- `ext4_run`. -/
structure Run where
  logBlock : Nat
  len : Nat
  physLo : Nat
  physHi : Nat
  deriving DecidableEq

/-- The search stops at the first run beyond the block; `none` is a hole. -/
def ext4MapBlock : List Run → Nat → Option Nat
  | [], _ => none
  | r :: rest, lblock =>
    if r.logBlock ≤ lblock ∧ lblock < (r.logBlock + r.len) % 2 ^ 32 then
      some ((r.physHi * 2 ^ 32 + r.physLo + (lblock - r.logBlock)) % 2 ^ 64)
    else if lblock < r.logBlock then none
    else ext4MapBlock rest lblock

/-- The bytes of the device, and the blocks written to it. -/
structure Device where
  bytes : Nat → Byte
  writes : List Nat

/-- The byte address of a block: the sector number wraps. -/
def blockAddr (bs block : Nat) : Nat := block * (bs / 512) % 2 ^ 64 * 512

def ext4ReadBlocks (bs : Nat) (dev : Device) (block : Nat) : List Byte :=
  slice dev.bytes (blockAddr bs block) bs

def ext4WriteBlocks (bs : Nat) (dev : Device) (block : Nat) (buf : List Byte) : Device where
  bytes := overlay dev.bytes (blockAddr bs block) buf
  writes := block :: dev.writes

/-- What the drivers' loops read of an open file. -/
structure File where
  size : Nat
  runs : List Run

/-- Offset in the block and number of bytes of a part. -/
def bofs (bs start lb : Nat) : Nat := if lb = start / bs then start % bs else 0

def bend (bs end_ lb : Nat) : Nat := if lb = end_ / bs then end_ % bs else bs - 1

def blen (bs start end_ lb : Nat) : Nat := bend bs end_ lb - bofs bs start lb + 1

/-- The loop of `ext4_readfile` for the next `n` blocks. -/
def readLoop (bs : Nat) (runs : List Run) (dev : Device) (start end_ : Nat) :
    Nat → Nat → List Byte
  | _, 0 => []
  | lb, n + 1 =>
    (match ext4MapBlock runs lb with
      | none => List.replicate (blen bs start end_ lb) 0
      | some phys =>
        ((ext4ReadBlocks bs dev phys).drop (bofs bs start lb)).take (blen bs start end_ lb)) ++
      readLoop bs runs dev start end_ (lb + 1) n

/-- `(int)` of an unsigned value. -/
def toInt (n : Nat) : Int := if n % 2 ^ 32 < 2 ^ 31 then n % 2 ^ 32 else (n % 2 ^ 32 : Nat) - 2 ^ 32

/-- What `ext4_readfile` reads: clipped to the file; `none` for nothing. -/
def readRange (size : Nat) (start end_ : Int) : Option (Nat × Nat) :=
  let start := if start < 0 then 0 else start
  let end_ := if end_ < 0 ∨ (size : Int) ≤ end_ then toInt (if size = 0 then 0 else size - 1)
    else end_
  if end_ < start then none else some (start.toNat, end_.toNat)

/-- The bytes put into the caller's buffer. -/
def ext4Readfile (bs : Nat) (f : File) (dev : Device) (start end_ : Int) : List Byte :=
  match readRange f.size start end_ with
  | none => []
  | some (s, e) => readLoop bs f.runs dev s e (s / bs) (e / bs - s / bs + 1)

/-- A block of `ext4_writefile`: device and caller's buffer. -/
def writeBlock (bs : Nat) (runs : List Run) (start end_ lb ofs : Nat)
    (dev : Device) (buf : Nat → Byte) : Device × (Nat → Byte) :=
  let off := bofs bs start lb
  let len := blen bs start end_ lb
  match ext4MapBlock runs lb with
  | none => (dev, overlay buf ofs (List.replicate len 0))
  | some phys =>
    if off = 0 ∧ len = bs then (ext4WriteBlocks bs dev phys (slice buf ofs bs), buf)
    else
      let tmp := overlay (fun i => (ext4ReadBlocks bs dev phys).getD i 0) off (slice buf ofs len)
      (ext4WriteBlocks bs dev phys (slice tmp 0 bs), buf)

/-- `n` blocks of `ext4_writefile`, with the offset it ends at. -/
def writeLoop (bs : Nat) (runs : List Run) (start end_ : Nat) :
    Nat → Nat → Nat → Device → (Nat → Byte) → Device × (Nat → Byte) × Nat
  | _, 0, ofs, dev, buf => (dev, buf, ofs)
  | lb, n + 1, ofs, dev, buf =>
    writeLoop bs runs start end_ (lb + 1) n (ofs + blen bs start end_ lb)
      (writeBlock bs runs start end_ lb ofs dev buf).1
      (writeBlock bs runs start end_ lb ofs dev buf).2

/-- The device, the caller's buffer and the number of bytes reported; there is memory. -/
def ext4Writefile (bs : Nat) (f : File) (dev : Device) (buf : Nat → Byte) (start end_ : Nat) :
    Device × (Nat → Byte) × Nat :=
  writeLoop bs f.runs start end_ (start / bs) (end_ / bs - start / bs + 1) 0 dev buf

section

def BlockSize (bs : Nat) : Prop := ∃ k, k ≤ 6 ∧ bs = 1024 * 2 ^ k

/-- The blocks of a file lie on the volume, each in one place. -/
structure Mapped (bs : Nat) (runs : List Run) : Prop where
  inside : ∀ lb phys, ext4MapBlock runs lb = some phys → phys * (bs / 512) < 2 ^ 64
  once : ∀ lb lb' phys, ext4MapBlock runs lb = some phys → ext4MapBlock runs lb' = some phys →
    lb = lb'

variable {bs : Nat} {runs : List Run} {dev : Device} {buf : Nat → Byte}
  {start end_ lb phys p : Nat}

/-- The bytes of the file: holes read as zeros. -/
def fileView (bs : Nat) (runs : List Run) (bytes : Nat → Byte) (p : Nat) : Byte :=
  match ext4MapBlock runs (p / bs) with
  | none => 0
  | some phys => bytes (blockAddr bs phys + p % bs)

theorem BlockSize.sectors (size : BlockSize bs) : bs / 512 * 512 = bs ∧ 0 < bs := by
  obtain ⟨k, small, rfl⟩ := size
  have some_ := Nat.two_pow_pos k
  constructor
  · omega
  · omega

theorem Mapped.addr (mapped : Mapped bs runs) (size : BlockSize bs)
    (there : ext4MapBlock runs lb = some phys) : blockAddr bs phys = phys * bs := by
  unfold blockAddr
  rw [Nat.mod_eq_of_lt (mapped.inside lb phys there), Nat.mul_assoc, size.sectors.1]

/-- Where the part of a range in a block begins and ends. -/
theorem part_bounds (pos : 0 < bs) (ordered : start ≤ end_) (first : start / bs ≤ lb)
    (last : lb ≤ end_ / bs) :
    lb * bs + bofs bs start lb = max start (lb * bs) ∧
      lb * bs + bofs bs start lb + blen bs start end_ lb = min (end_ + 1) ((lb + 1) * bs) ∧
      bofs bs start lb + blen bs start end_ lb ≤ bs := by
  have startSplit := Nat.div_add_mod start bs
  have endSplit := Nat.div_add_mod end_ bs
  have startMod := Nat.mod_lt start pos
  have endMod := Nat.mod_lt end_ pos
  have next : (lb + 1) * bs = lb * bs + bs := Nat.succ_mul lb bs
  have low : bofs bs start lb < bs ∧ lb * bs + bofs bs start lb = max start (lb * bs) := by
    unfold bofs
    split
    · rename_i here
      rw [← here, Nat.mul_comm] at startSplit
      omega
    · rename_i beyond
      have past : (start / bs + 1) * bs ≤ lb * bs := Nat.mul_le_mul_right bs (by omega)
      rw [Nat.add_mul, Nat.one_mul, Nat.mul_comm] at past
      omega
  have high : bend bs end_ lb < bs ∧
      lb * bs + bend bs end_ lb + 1 = min (end_ + 1) ((lb + 1) * bs) := by
    unfold bend
    split
    · rename_i here
      rw [← here, Nat.mul_comm] at endSplit
      omega
    · rename_i before
      have past : (lb + 1) * bs ≤ end_ / bs * bs := Nat.mul_le_mul_right bs (by omega)
      rw [Nat.mul_comm (end_ / bs)] at past
      omega
  have reach : bofs bs start lb ≤ bend bs end_ lb := by
    have : start < (lb + 1) * bs := by
      have up : (start / bs + 1) * bs ≤ (lb + 1) * bs := Nat.mul_le_mul_right bs (by omega)
      omega
    have : lb * bs ≤ end_ := by
      have down : lb * bs ≤ end_ / bs * bs := Nat.mul_le_mul_right bs last
      omega
    omega
  unfold blen
  omega

/-- A position in a block, and its offset there. -/
theorem position (bs lb p : Nat) (low : lb * bs ≤ p) (high : p < (lb + 1) * bs) :
    p / bs = lb ∧ p % bs = p - lb * bs := by
  have block : p / bs = lb := Nat.div_eq_of_lt_le low high
  refine ⟨block, ?_⟩
  have split := Nat.div_add_mod p bs
  rw [block, Nat.mul_comm] at split
  omega

theorem block_iff (pos : 0 < bs) (p lb : Nat) :
    p / bs = lb ↔ lb * bs ≤ p ∧ p < (lb + 1) * bs := by
  have next : (lb + 1) * bs = lb * bs + bs := Nat.succ_mul lb bs
  constructor
  · intro here
    have split := Nat.div_add_mod p bs
    have rest := Nat.mod_lt p pos
    rw [here, Nat.mul_comm] at split
    omega
  · rintro ⟨low, high⟩
    exact (position bs lb p low high).1

theorem read_part (runs : List Run) (dev : Device) (pos : 0 < bs) (ordered : start ≤ end_)
    (first : start / bs ≤ lb) (last : lb ≤ end_ / bs) :
    (match ext4MapBlock runs lb with
      | none => replicate (blen bs start end_ lb) 0
      | some phys =>
        ((ext4ReadBlocks bs dev phys).drop (bofs bs start lb)).take (blen bs start end_ lb)) =
      slice (fileView bs runs dev.bytes) (max start (lb * bs))
        (min (end_ + 1) ((lb + 1) * bs) - max start (lb * bs)) := by
  obtain ⟨low, high, fits⟩ := part_bounds pos ordered first last
  have length : min (end_ + 1) ((lb + 1) * bs) - max start (lb * bs) = blen bs start end_ lb := by
    omega
  rw [length, ← low]
  have inBlock : ∀ j, j < blen bs start end_ lb → (lb * bs + bofs bs start lb + j) / bs = lb ∧
        (lb * bs + bofs bs start lb + j) % bs = bofs bs start lb + j := by
    intro j inside
    have next := Nat.succ_mul lb bs
    have at_ := position bs lb (lb * bs + bofs bs start lb + j) (by omega) (by omega)
    exact ⟨at_.1, at_.2.trans (by omega)⟩
  apply ext_getElem?
  intro j
  by_cases inside : j < blen bs start end_ lb
  · obtain ⟨block, offset⟩ := inBlock j inside
    rw [getElem?_slice _ _ inside]
    unfold fileView
    rw [block, offset]
    cases there : ext4MapBlock runs lb with
    | none => simp [inside]
    | some phys =>
      rw [getElem?_take_of_lt inside, getElem?_drop]
      unfold ext4ReadBlocks
      rw [getElem?_slice _ _ (by omega)]
  · have past_ : (slice (fileView bs runs dev.bytes) (lb * bs + bofs bs start lb)
        (blen bs start end_ lb))[j]? = none := by
      apply getElem?_eq_none
      rw [length_slice]
      omega
    rw [past_]
    apply getElem?_eq_none
    cases ext4MapBlock runs lb with
    | none => simpa using inside
    | some phys =>
      rw [length_take]
      omega

/-- The loop of `ext4_readfile` copies the rest of the range. -/
theorem readLoop_spec (pos : 0 < bs) (ordered : start ≤ end_) (n : Nat) :
    ∀ lb, start / bs ≤ lb → lb + n = end_ / bs + 1 → readLoop bs runs dev start end_ lb n =
        slice (fileView bs runs dev.bytes) (max start (lb * bs))
          (end_ + 1 - max start (lb * bs)) := by
  induction n with
  | zero =>
    intro lb first whole
    have past : end_ < lb * bs := by
      have split := Nat.div_add_mod end_ bs
      have rest := Nat.mod_lt end_ pos
      rw [show lb = end_ / bs + 1 by omega, Nat.succ_mul, Nat.mul_comm]
      omega
    rw [show end_ + 1 - max start (lb * bs) = 0 by omega]
    rfl
  | succ n ih =>
    intro lb first whole
    have part := read_part runs dev pos ordered first (by omega : lb ≤ end_ / bs)
    obtain ⟨low, high, fits⟩ := part_bounds pos ordered first (by omega : lb ≤ end_ / bs)
    have next := Nat.succ_mul lb bs
    have step := ih (lb + 1) (by omega) (by omega)
    rw [readLoop, part, step]
    have join : max start ((lb + 1) * bs) = max start (lb * bs) +
        (min (end_ + 1) ((lb + 1) * bs) - max start (lb * bs)) ∨ end_ + 1 ≤ (lb + 1) * bs := by
      omega
    have total : end_ + 1 - max start (lb * bs) =
        (min (end_ + 1) ((lb + 1) * bs) - max start (lb * bs)) +
          (end_ + 1 - max start ((lb + 1) * bs)) := by
      omega
    rw [total, slice_add]
    rcases join with here | past_
    · rw [here]
    · rw [show end_ + 1 - max start ((lb + 1) * bs) = 0 by omega, slice_zero, slice_zero]

/-- `ext4_readfile` gives the bytes of the clipped range. -/
theorem readfile_eq (pos : 0 < bs) (f : File) (dev : Device) (s e : Int) :
    ext4Readfile bs f dev s e = match readRange f.size s e with
      | none => []
      | some (from_, to_) => slice (fileView bs f.runs dev.bytes) from_ (to_ + 1 - from_) := by
  unfold ext4Readfile
  cases range : readRange f.size s e with
  | none => rfl
  | some cut =>
    obtain ⟨from_, to_⟩ := cut
    have ordered : from_ ≤ to_ := by
      unfold readRange at range
      dsimp only at range
      split_ifs at range <;> cases range <;> omega
    have blocks : from_ / bs ≤ to_ / bs := Nat.div_le_div_right ordered
    have start_ : from_ / bs * bs ≤ from_ := Nat.div_mul_le_self from_ bs
    dsimp only
    rw [readLoop_spec pos ordered (to_ / bs - from_ / bs + 1) (from_ / bs) (Nat.le_refl _)
      (by omega), Nat.max_eq_left start_]

theorem fileView_mapped {bytes : Nat → Byte} (there : ext4MapBlock runs (p / bs) = some phys) :
    fileView bs runs bytes p = bytes (blockAddr bs phys + p % bs) := by
  unfold fileView
  rw [there]

theorem fileView_hole {bytes : Nat → Byte} (hole : ext4MapBlock runs (p / bs) = none) :
    fileView bs runs bytes p = 0 := by
  unfold fileView
  rw [hole]

theorem writeBlock_mapped (dev : Device) (buf : Nat → Byte) (ofs : Nat) (pos : 0 < bs)
    (ordered : start ≤ end_) (first : start / bs ≤ lb) (last : lb ≤ end_ / bs)
    (there : ext4MapBlock runs lb = some phys) :
    ∃ values : List Byte, values.length = bs ∧ (∀ i, i < bs → values[i]? = some
        (if bofs bs start lb ≤ i ∧ i < bofs bs start lb + blen bs start end_ lb then
          buf (ofs + (i - bofs bs start lb))
        else dev.bytes (blockAddr bs phys + i))) ∧
      writeBlock bs runs start end_ lb ofs dev buf = (ext4WriteBlocks bs dev phys values, buf) := by
  obtain ⟨low, high, fits⟩ := part_bounds pos ordered first last
  unfold writeBlock
  rw [there]
  dsimp only
  split
  · rename_i full
    refine ⟨slice buf ofs bs, length_slice .., fun i inside => ?_, rfl⟩
    rw [getElem?_slice _ _ inside, full.1, full.2, if_pos (by omega)]
    rfl
  refine ⟨_, length_slice .., fun i inside => ?_, rfl⟩
  rw [getElem?_slice _ _ inside, Nat.zero_add]
  split
  · rename_i new
    refine congrArg some ?_
    apply overlay_inside _ new.1
    rw [getElem?_slice _ _ (by omega)]
  rename_i old
  refine congrArg some ?_
  have kept : (ext4ReadBlocks bs dev phys).getD i 0 = dev.bytes (blockAddr bs phys + i) := by
    unfold ext4ReadBlocks
    rw [getD_eq_getElem?_getD, getElem?_slice _ _ inside]
    rfl
  rw [← kept]
  by_cases before : i < bofs bs start lb
  · exact overlay_before _ _ before
  · apply overlay_after
    rw [length_slice]
    omega

/-- A mapped block gets new bytes; an unmapped one zeros the caller's buffer. -/
theorem writeBlock_spec (dev : Device) (buf : Nat → Byte) (size : BlockSize bs)
    (mapped : Mapped bs runs) (ordered : start ≤ end_) (first : start / bs ≤ lb)
    (last : lb ≤ end_ / bs) {ofs : Nat} (at_ : start + ofs = max start (lb * bs)) (p : Nat) :
    let after := writeBlock bs runs start end_ lb ofs dev buf
    fileView bs runs after.1.bytes p =
        (if start ≤ p ∧ p ≤ end_ ∧ p / bs = lb ∧ ext4MapBlock runs lb ≠ none then
          buf (p - start) else fileView bs runs dev.bytes p) ∧
      after.2 p = (if start + p ≤ end_ ∧ (start + p) / bs = lb ∧ ext4MapBlock runs lb = none then 0
        else buf p) := by
  have pos := size.sectors.2
  obtain ⟨low, high, fits⟩ := part_bounds pos ordered first last
  have next : (lb + 1) * bs = lb * bs + bs := Nat.succ_mul lb bs
  cases there : ext4MapBlock runs lb with
  | none =>
    unfold writeBlock
    rw [there]
    refine ⟨by rw [if_neg (by simp)], ?_⟩
    have block := block_iff pos (start + p) lb
    by_cases inside : ofs ≤ p ∧ p < ofs + blen bs start end_ lb
    · rw [if_pos ⟨by omega, block.mpr (by omega), rfl⟩]
      apply overlay_inside _ inside.1
      rw [getElem?_replicate, if_pos (by omega)]
    rw [if_neg (by rw [block]; omega)]
    by_cases before : p < ofs
    · exact overlay_before _ _ before
    · apply overlay_after
      rw [length_replicate]
      omega
  | some phys =>
    obtain ⟨values, length, each, done⟩ :=
      writeBlock_mapped dev buf ofs pos ordered first last there
    rw [done]
    refine ⟨?_, by rw [if_neg (by simp)]⟩
    have block := block_iff pos p lb
    have here := mapped.addr size there
    cases there' : ext4MapBlock runs (p / bs) with
    | none =>
      have other : p / bs ≠ lb := by
        intro same
        rw [same, there] at there'
        cases there'
      rw [fileView_hole there', fileView_hole there', if_neg (by tauto)]
    | some phys' =>
      rw [fileView_mapped there', fileView_mapped there']
      have here' := mapped.addr size there'
      by_cases same : p / bs = lb
      · obtain rfl : phys' = phys := by
          rw [same, there] at there'
          exact (Option.some.inj there').symm
        have offset := (position bs lb p (block.mp same).1 (block.mp same).2).2
        have inside := Nat.mod_lt p pos
        have value := each (p % bs) inside
        refine (overlay_inside _ (Nat.le_add_right _ _)
          (by rw [Nat.add_sub_cancel_left]; exact value)).trans ?_
        by_cases new : start ≤ p ∧ p ≤ end_
        · rw [if_pos (by omega), if_pos ⟨new.1, new.2, same, nofun⟩]
          refine congrArg buf ?_
          omega
        · rw [if_neg (by omega), if_neg (by tauto)]
      · have apart : phys' ≠ phys := by
          rintro rfl
          exact same (mapped.once _ _ _ there' there)
        have inside := Nat.mod_lt p pos
        rw [if_neg (by tauto)]
        change overlay dev.bytes (blockAddr bs phys) values _ = _
        rcases Nat.lt_or_gt_of_ne apart with below | above
        · apply overlay_before
          have gap : (phys' + 1) * bs ≤ phys * bs := Nat.mul_le_mul_right bs below
          rw [Nat.succ_mul] at gap
          omega
        · apply overlay_after
          have gap : (phys + 1) * bs ≤ phys' * bs := Nat.mul_le_mul_right bs above
          rw [Nat.succ_mul] at gap
          omega

theorem writeBlock_writes (ofs b : Nat)
    (listed : b ∈ (writeBlock bs runs start end_ lb ofs dev buf).1.writes) :
    b ∈ dev.writes ∨ ∃ lb, ext4MapBlock runs lb = some b := by
  unfold writeBlock at listed
  cases there : ext4MapBlock runs lb with
  | none =>
    rw [there] at listed
    exact .inl listed
  | some phys =>
    rw [there] at listed
    dsimp only at listed
    have either : b = phys ∨ b ∈ dev.writes := by split at listed <;> exact mem_cons.mp listed
    rcases either with rfl | old
    · exact .inr ⟨lb, there⟩
    · exact .inl old

/-- File and caller's buffer after the next blocks, what was written and counted. -/
theorem writeLoop_spec (size : BlockSize bs) (mapped : Mapped bs runs) (ordered : start ≤ end_)
    (n : Nat) :
    ∀ lb ofs (dev : Device) (buf : Nat → Byte), start / bs ≤ lb → lb + n = end_ / bs + 1 →
      start + ofs = min (end_ + 1) (max start (lb * bs)) →
      let after := writeLoop bs runs start end_ lb n ofs dev buf
      (∀ p, fileView bs runs after.1.bytes p =
        (if start ≤ p ∧ p ≤ end_ ∧ lb ≤ p / bs ∧ ext4MapBlock runs (p / bs) ≠ none then
          buf (p - start) else fileView bs runs dev.bytes p)) ∧
      (∀ i, after.2.1 i = (if start + i ≤ end_ ∧ lb ≤ (start + i) / bs ∧
        ext4MapBlock runs ((start + i) / bs) = none then 0 else buf i)) ∧
      (∀ b ∈ after.1.writes, b ∈ dev.writes ∨ ∃ lb, ext4MapBlock runs lb = some b) ∧
      start + after.2.2 = end_ + 1 := by
  have pos := size.sectors.2
  induction n with
  | zero =>
    intro lb ofs dev buf first whole at_
    have past : ∀ p, p ≤ end_ → ¬ lb ≤ p / bs := by
      intro p low
      have : p / bs ≤ end_ / bs := Nat.div_le_div_right low
      omega
    have past_ : end_ < lb * bs := by
      have block := (block_iff pos end_ (end_ / bs)).mp rfl
      rw [show lb = end_ / bs + 1 by omega]
      exact block.2
    refine ⟨fun p => ?_, fun i => ?_, fun b listed => .inl listed, ?_⟩
    · rw [if_neg fun inside => past p inside.2.1 inside.2.2.1]
      rfl
    · rw [if_neg fun inside => past _ inside.1 inside.2.1]
      rfl
    · change start + ofs = end_ + 1
      omega
  | succ n ih =>
    intro lb ofs dev buf first whole at_
    have last : lb ≤ end_ / bs := by omega
    obtain ⟨low, high, fits⟩ := part_bounds pos ordered first last
    have next : (lb + 1) * bs = lb * bs + bs := Nat.succ_mul lb bs
    have begin_ : lb * bs ≤ end_ := by
      have := (block_iff pos end_ (end_ / bs)).mp rfl
      have := Nat.mul_le_mul_right bs last
      omega
    have here : start + ofs = max start (lb * bs) := by omega
    have one := writeBlock_spec dev buf size mapped ordered first last here
    rw [writeLoop]
    generalize blocks : writeBlock bs runs start end_ lb ofs dev buf = after₁ at one ⊢
    obtain ⟨view, kept, wrote, count⟩ := ih (lb + 1) (ofs + blen bs start end_ lb) after₁.1 after₁.2
      (by omega) (by omega) (by omega)
    refine ⟨fun p => ?_, fun i => ?_, fun b listed => ?_, count⟩
    · rw [view p]
      by_cases later : start ≤ p ∧ p ≤ end_ ∧ lb + 1 ≤ p / bs ∧ ext4MapBlock runs (p / bs) ≠ none
      · have kept₁ := (one (p - start)).2
        rw [Nat.add_sub_cancel' later.1, if_neg (by omega)] at kept₁
        rw [if_pos later, if_pos ⟨later.1, later.2.1, by omega, later.2.2.2⟩, kept₁]
      rw [if_neg later, (one p).1]
      by_cases mine : p / bs = lb
      · rw [mine]
        exact if_congr (by simp) rfl rfl
      · rw [if_neg (by tauto), if_neg]
        rintro ⟨low', high', at_', there⟩
        exact later ⟨low', high', by omega, there⟩
    · rw [kept i]
      by_cases later : start + i ≤ end_ ∧ lb + 1 ≤ (start + i) / bs ∧
          ext4MapBlock runs ((start + i) / bs) = none
      · rw [if_pos later, if_pos ⟨later.1, by omega, later.2.2⟩]
      rw [if_neg later, (one i).2]
      by_cases mine : (start + i) / bs = lb
      · rw [mine]
        exact if_congr (by simp) rfl rfl
      · rw [if_neg (by tauto), if_neg]
        rintro ⟨high', at_', hole⟩
        exact later ⟨high', by omega, hole⟩
    · rcases wrote b listed with old | own
      · rw [← blocks] at old
        exact writeBlock_writes ofs b old
      · exact .inr own

end

section Contract

variable {bs : Nat} {f : File} {dev : Device} {buf : Nat → Byte} {start end_ : Nat}

/-- All bytes are reported; a later read has the written bytes where the two meet and the old ones
elsewhere; only the file's blocks are written; the caller's buffer is as it was. -/
structure RoundTrips (bs : Nat) (f : File) (dev : Device) (buf : Nat → Byte) (start end_ : Nat) :
    Prop where
  success : (ext4Writefile bs f dev buf start end_).2.2 = end_ - start + 1
  reads : ∀ s e from_ to_, readRange f.size s e = some (from_, to_) → ∀ j, from_ + j ≤ to_ →
    (ext4Readfile bs f (ext4Writefile bs f dev buf start end_).1 s e)[j]? =
      if start ≤ from_ + j ∧ from_ + j ≤ end_ then some (buf (from_ + j - start))
      else (ext4Readfile bs f dev s e)[j]?
  blocks : ∀ b ∈ (ext4Writefile bs f dev buf start end_).1.writes,
    b ∈ dev.writes ∨ ∃ lb, ext4MapBlock f.runs lb = some b
  buffer : (ext4Writefile bs f dev buf start end_).2.1 = buf

/-- Bytes of the range that fall into holes are zeros. -/
def ZeroHoles (bs : Nat) (f : File) (buf : Nat → Byte) (start end_ : Nat) : Prop :=
  ∀ i, start + i ≤ end_ → ext4MapBlock f.runs ((start + i) / bs) = none → buf i = 0

theorem writefile_spec (dev : Device) (buf : Nat → Byte) (size : BlockSize bs)
    (mapped : Mapped bs f.runs) (ordered : start ≤ end_) :
    (∀ p, fileView bs f.runs (ext4Writefile bs f dev buf start end_).1.bytes p =
      (if start ≤ p ∧ p ≤ end_ ∧ ext4MapBlock f.runs (p / bs) ≠ none then
        buf (p - start) else fileView bs f.runs dev.bytes p)) ∧
    (∀ i, (ext4Writefile bs f dev buf start end_).2.1 i = (if start + i ≤ end_ ∧
      ext4MapBlock f.runs ((start + i) / bs) = none then 0 else buf i)) ∧
    (∀ b ∈ (ext4Writefile bs f dev buf start end_).1.writes,
      b ∈ dev.writes ∨ ∃ lb, ext4MapBlock f.runs lb = some b) ∧
    start + (ext4Writefile bs f dev buf start end_).2.2 = end_ + 1 := by
  have blocks : start / bs ≤ end_ / bs := Nat.div_le_div_right ordered
  have start_ : start / bs * bs ≤ start := Nat.div_mul_le_self start bs
  obtain ⟨view, kept, wrote, count⟩ := writeLoop_spec size mapped ordered
    (end_ / bs - start / bs + 1) (start / bs) 0 dev buf (Nat.le_refl _) (by omega) (by omega)
  refine ⟨fun p => (view p).trans (if_congr ?_ rfl rfl),
    fun i => (kept i).trans (if_congr ?_ rfl rfl), wrote, count⟩
  · constructor
    · rintro ⟨low, high, -, there⟩
      exact ⟨low, high, there⟩
    · rintro ⟨low, high, there⟩
      exact ⟨low, high, Nat.div_le_div_right low, there⟩
  · constructor
    · rintro ⟨high, -, hole⟩
      exact ⟨high, hole⟩
    · rintro ⟨high, hole⟩
      exact ⟨high, Nat.div_le_div_right (by omega), hole⟩

theorem readfile_byte (pos : 0 < bs) (dev : Device) {s e : Int} {from_ to_ j : Nat}
    (range : readRange f.size s e = some (from_, to_)) (inside : from_ + j ≤ to_) :
    (ext4Readfile bs f dev s e)[j]? = some (fileView bs f.runs dev.bytes (from_ + j)) := by
  rw [readfile_eq pos, range]
  exact getElem?_slice _ _ (by omega)

/-- A file of two blocks, the second one a hole. -/
def sparse : File where
  size := 2048
  runs := [⟨0, 1, 10, 0⟩]

def blank : Device where
  bytes _ := 0
  writes := []

theorem sparse_map (lb : Nat) :
    ext4MapBlock sparse.runs lb = if lb < 1 then some ((10 + lb) % 2 ^ 64) else none := by
  simp [sparse, ext4MapBlock]

theorem sparse_mapped : Mapped 1024 sparse.runs where
  inside := by
    intro lb phys there
    rw [sparse_map] at there
    split at there <;> cases there
    omega
  once := by
    intro lb lb' phys first second
    rw [sparse_map] at first second
    split at first
    · split at second
      · omega
      · cases second
    · cases first

end Contract

end IcsOs.Ext4.Files
