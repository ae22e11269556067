/-
  Turntf.Lib.Layout — buffers filled and read at fixed places.

  A writer makes a buffer of its final size and copies each field to its place; a reader
  takes each field from its place. `copyTo_next` is the rule for a writer that fills the
  buffer from the front without a gap, `slice_append` and `slice_skip` are the ones for a
  reader of what such a writer left, and `slice_slice` puts neighbouring fields together.

  `putBE` and `getBE` are the big-endian digits of a number, `width` bytes of them: each
  undoes the other (`getBE_putBE`, `putBE_getBE`).
-/

import Mathlib.Algebra.Group.Nat.Defs
import Mathlib.Data.List.Induction

namespace Layout

section

variable {α : Type}

/-- `b[low:high]`. -/
def slice (b : List α) (low high : Nat) : List α := (b.take high).drop low

/-- `copy(b[low:high], src)`. -/
def copyTo (b : List α) (low high : Nat) (src : List α) : List α :=
  b.take low ++ src.take (high - low) ++ b.drop (low + min (high - low) src.length)

theorem length_slice {b : List α} {low high : Nat} (h : high ≤ b.length) : (slice b low high).length = high - low := by
  simp [slice, Nat.min_eq_left h]

/-- The field in front. -/
theorem slice_append {p q : List α} {n : Nat} (h : p.length = n) : slice (p ++ q) 0 n = p := by
  subst h
  simp [slice]

/-- A field behind the first ones. -/
theorem slice_skip {p q : List α} {n low high : Nat} (h : p.length = n) (hl : n ≤ low) :
    slice (p ++ q) low high = slice q (low - n) (high - n) := by
  subst h
  have hp : (p.take high).drop low = [] := List.drop_eq_nil_of_le (by rw [List.length_take]; omega)
  simp only [slice, List.take_append, List.drop_append, hp, List.nil_append, List.length_take]
  by_cases hh : p.length ≤ high
  · rw [Nat.min_eq_right hh]
  · have : high - p.length = 0 := by omega
    simp [this]

theorem slice_slice (b : List α) {i j k : Nat} (hij : i ≤ j) (hjk : j ≤ k) : slice b i j ++ slice b j k = slice b i k := by
  have h : b.take k = b.take j ++ (b.take k).drop j := by
    conv_lhs => rw [← List.take_append_drop j (b.take k)]
    rw [List.take_take, Nat.min_eq_left hjk]
  unfold slice
  by_cases hj : j ≤ b.length
  · conv_rhs => rw [h, List.drop_append_of_le_length (by rw [List.length_take]; omega)]
  · have hlong : b.take j = b ∧ b.take k = b := ⟨List.take_of_length_le (by omega), List.take_of_length_le (by omega)⟩
    rw [hlong.1, hlong.2, List.drop_eq_nil_of_le (by omega : b.length ≤ j), List.append_nil]

/-- The next field of a buffer that is filled up to `low`. -/
theorem copyTo_next {p src : List α} {z : α} {n low high : Nat} (hp : p.length = low) (hs : src.length = high - low) :
    copyTo (p ++ List.replicate n z) low high src = (p ++ src) ++ List.replicate (n - src.length) z := by
  subst hp
  have htake : src.take (high - p.length) = src := List.take_of_length_le (by omega)
  rw [copyTo, htake, Nat.min_eq_right (Nat.le_of_eq hs), List.take_left, List.drop_append, List.drop_replicate,
    List.drop_eq_nil_of_le (by omega), Nat.add_sub_cancel_left, List.nil_append]

/-- A field of one element, stored by its index. -/
theorem set_next {p : List α} {x z : α} {n low : Nat} (hp : p.length = low) (hn : 0 < n) :
    (p ++ List.replicate n z).set low x = (p ++ [x]) ++ List.replicate (n - 1) z := by
  subst hp
  obtain ⟨m, rfl⟩ : ∃ m, n = m + 1 := ⟨n - 1, by omega⟩
  simp [List.replicate_succ]

end

/-! ## Big-endian numbers -/

def putBE : Nat → Nat → List UInt8
  | 0, _ => []
  | width + 1, n => putBE width (n / 256) ++ [UInt8.ofNat n]

def getBE (b : List UInt8) : Nat := b.foldl (fun n x => 256 * n + x.toNat) 0

@[simp] theorem length_putBE (width n : Nat) : (putBE width n).length = width := by
  induction width generalizing n with
  | zero => rfl
  | succ width ih => simp [putBE, ih]

theorem getBE_concat (b : List UInt8) (x : UInt8) : getBE (b ++ [x]) = 256 * getBE b + x.toNat := by
  simp [getBE]

theorem getBE_putBE (width n : Nat) (h : n < 256 ^ width) : getBE (putBE width n) = n := by
  induction width generalizing n with
  | zero =>
    rw [Nat.pow_zero] at h
    simp [putBE, getBE]
    omega
  | succ width ih =>
    rw [Nat.pow_succ] at h
    have hlow : (UInt8.ofNat n).toNat = n % 256 := UInt8.toNat_ofNat'
    rw [putBE, getBE_concat, ih (n / 256) (by omega), hlow]
    omega

theorem getBE_lt (b : List UInt8) : getBE b < 256 ^ b.length := by
  induction b using List.reverseRecOn with
  | nil => simp [getBE]
  | append_singleton b x ih =>
    have := x.toNat_lt
    rw [getBE_concat, List.length_append, List.length_singleton, Nat.pow_succ]
    omega

theorem putBE_getBE (b : List UInt8) : putBE b.length (getBE b) = b := by
  induction b using List.reverseRecOn with
  | nil => rfl
  | append_singleton b x ih =>
    have hx := x.toNat_lt
    have hhigh : (256 * getBE b + x.toNat) / 256 = getBE b := by omega
    have hlow : UInt8.ofNat (256 * getBE b + x.toNat) = x := by
      apply UInt8.toNat_inj.mp
      rw [UInt8.toNat_ofNat']
      omega
    rw [getBE_concat, List.length_append, List.length_singleton, putBE, hhigh, hlow, ih]

end Layout
