/- GID: IcsOs/Lib/Words
   generality: G
   digest: Little-endian numbers in a memory of bytes: storing them, loading them, and the rest. -/

import Mathlib.Algebra.Group.Nat.Defs
import IcsOs.Lib.Overlay

set_option autoImplicit false

namespace IcsOs.Lib.Words

open Lib.Overlay

/-- The `n` low bytes of a number, the lowest first. -/
def bytesOf : Nat → Nat → List UInt8
  | 0, _ => []
  | n + 1, v => UInt8.ofNat v :: bytesOf n (v / 256)

/-- The number in the `n` bytes from `a` on. -/
def load (m : Nat → UInt8) (a : Nat) : Nat → Nat
  | 0 => 0
  | n + 1 => (m a).toNat + 256 * load m (a + 1) n

/-- A number stored in the `n` bytes from `a` on. -/
def store (m : Nat → UInt8) (a n v : Nat) : Nat → UInt8 := overlay m a (bytesOf n v)

variable {m m' : Nat → UInt8} {a b n k v i : Nat}

@[simp] theorem length_bytesOf (n v : Nat) : (bytesOf n v).length = n := by
  induction n generalizing v with
  | zero => rfl
  | succ n ih => exact congrArg Nat.succ (ih (v / 256))

theorem load_congr (same : ∀ i, a ≤ i → i < a + n → m' i = m i) : load m' a n = load m a n := by
  induction n generalizing a with
  | zero => rfl
  | succ n ih =>
    unfold load
    rw [same a (Nat.le_refl a) (by omega), ih fun i low high => same i (by omega) (by omega)]

theorem store_other (apart : i < a ∨ a + n ≤ i) : store m a n v i = m i := by
  rcases apart with before | after
  · exact overlay_before m _ before
  · exact overlay_after m (by rwa [length_bytesOf])

theorem load_store (small : v < 256 ^ n) : load (store m a n v) a n = v := by
  induction n generalizing m a v with
  | zero =>
    have zero : v = 0 := by simpa using small
    rw [zero]
    rfl
  | succ n ih =>
    have rest : v / 256 < 256 ^ n := by
      rw [Nat.div_lt_iff_lt_mul (by decide)]
      rwa [Nat.pow_succ] at small
    -- the first byte is written before the others
    have split : store m a (n + 1) v = store (overlay m a [UInt8.ofNat v]) (a + 1) n (v / 256) :=
      overlay_append m a [UInt8.ofNat v] (bytesOf n (v / 256))
    have low : store (overlay m a [UInt8.ofNat v]) (a + 1) n (v / 256) a = UInt8.ofNat v := by
      rw [store_other (.inl (Nat.lt_succ_self a))]
      exact overlay_inside m (Nat.le_refl a) (by rw [Nat.sub_self]; rfl)
    unfold load
    rw [split, low, ih rest, UInt8.toNat_ofNat']
    omega

theorem load_store_other (apart : b + k ≤ a ∨ a + n ≤ b) :
    load (store m a n v) b k = load m b k := by
  refine load_congr fun i low high => store_other ?_
  omega

end IcsOs.Lib.Words
