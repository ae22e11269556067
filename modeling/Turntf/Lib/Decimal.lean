/-
  Turntf.Lib.Decimal — integers in decimal, as byte strings.

  `int` prints an integer, with a minus sign if it is negative and without leading zeros, and
  `parseInt` reads it.

  - `parseInt_int`: what is printed is read back.
  - `int_bytes`: it is made of digits and a minus sign.
-/

namespace Decimal

def minus : UInt8 := 45

def digit (n : Nat) : UInt8 := UInt8.ofNat (48 + n % 10)

def isDigit (b : UInt8) : Bool := 48 ≤ b && b ≤ 57

/-- The last digits of `n`, all of them if `fuel` is more than `n`. -/
def digits : (fuel n : Nat) → List UInt8
  | 0, _ => []
  | fuel + 1, n => if n < 10 then [digit n] else digits fuel (n / 10) ++ [digit n]

theorem digits_succ (fuel n : Nat) :
    digits (fuel + 1) n = if n < 10 then [digit n] else digits fuel (n / 10) ++ [digit n] := rfl

def nat (n : Nat) : List UInt8 := digits (n + 1) n

def int : Int → List UInt8
  | .ofNat n => nat n
  | .negSucc n => minus :: nat (n + 1)

/-- The number that is written by `acc` and the digits that follow. -/
def value (acc : Nat) : List UInt8 → Option Nat
  | [] => some acc
  | b :: t => if isDigit b then value (acc * 10 + (b.toNat - 48)) t else none

theorem value_cons (acc : Nat) (b : UInt8) (t : List UInt8) :
    value acc (b :: t) = if isDigit b then value (acc * 10 + (b.toNat - 48)) t else none := rfl

def parseNat (t : List UInt8) : Option Nat := if t = [] then none else value 0 t

def parseInt (t : List UInt8) : Option Int :=
  match t with
  | [] => none
  | b :: rest => if b = minus then (parseNat rest).map fun n => -(n : Int) else (parseNat t).map Int.ofNat

theorem digit_spec : ∀ n < 10, isDigit (digit n) = true ∧ (digit n).toNat - 48 = n := by decide

theorem digit_mod (n : Nat) : digit (n % 10) = digit n := by
  rw [digit, digit, Nat.mod_mod]

theorem isDigit_digit (n : Nat) : isDigit (digit n) = true ∧ (digit n).toNat - 48 = n % 10 := by
  rw [← digit_mod]
  exact digit_spec (n % 10) (Nat.mod_lt n (by decide))

theorem value_append (acc : Nat) (s t : List UInt8) : value acc (s ++ t) = (value acc s).bind fun a => value a t := by
  induction s generalizing acc with
  | nil => rfl
  | cons b s ih =>
    rw [List.cons_append, value_cons, value_cons]
    split
    · exact ih _
    · rfl

theorem value_digits {fuel n : Nat} (h : n < fuel) : value 0 (digits fuel n) = some n := by
  induction fuel generalizing n with
  | zero => omega
  | succ fuel ih =>
    obtain ⟨hd, hv⟩ := isDigit_digit n
    have hlast (acc : Nat) : value acc [digit n] = some (acc * 10 + n % 10) := by
      rw [value_cons, if_pos hd, hv]
      rfl
    rw [digits_succ]
    split
    · rename_i hn
      rw [hlast]
      congr 1
      omega
    · rw [value_append, ih (by omega)]
      show value (n / 10) [digit n] = some n
      rw [hlast]
      congr 1
      omega

theorem mem_digits {fuel n : Nat} {b : UInt8} (h : b ∈ digits fuel n) : isDigit b = true := by
  induction fuel generalizing n with
  | zero => cases h
  | succ fuel ih =>
    rw [digits_succ] at h
    split at h
    · rw [List.mem_singleton.mp h]
      exact (isDigit_digit n).1
    · rcases List.mem_append.mp h with h | h
      · exact ih h
      · rw [List.mem_singleton.mp h]
        exact (isDigit_digit n).1

theorem nat_ne_nil (n : Nat) : nat n ≠ [] := by
  rw [nat, digits_succ]
  split
  · exact List.cons_ne_nil _ _
  · exact List.append_ne_nil_of_right_ne_nil _ (List.cons_ne_nil _ _)

theorem parseNat_nat (n : Nat) : parseNat (nat n) = some n := by
  rw [parseNat, if_neg (nat_ne_nil n)]
  exact value_digits (Nat.lt_succ_self n)

theorem isDigit_minus : isDigit minus = false := by decide

theorem parseInt_int (n : Int) : parseInt (int n) = some n := by
  cases n with
  | ofNat n =>
    cases ht : nat n with
    | nil => exact absurd ht (nat_ne_nil n)
    | cons b t =>
      -- the first byte is a digit
      have hb : isDigit b = true := mem_digits (by rw [← nat, ht]; exact List.mem_cons_self)
      have hne : b ≠ minus := by
        rintro rfl
        rw [isDigit_minus] at hb
        cases hb
      show parseInt (nat n) = _
      rw [ht, parseInt, if_neg hne, ← ht, parseNat_nat]
      rfl
  | negSucc n =>
    show parseInt (minus :: nat (n + 1)) = _
    rw [parseInt, if_pos rfl, parseNat_nat]
    rfl

theorem int_ne_nil (n : Int) : int n ≠ [] := by
  cases n with
  | ofNat n => exact nat_ne_nil n
  | negSucc n => exact List.cons_ne_nil _ _

theorem int_bytes {n : Int} {b : UInt8} (h : b ∈ int n) : isDigit b = true ∨ b = minus := by
  cases n with
  | ofNat n => exact .inl (mem_digits h)
  | negSucc n =>
    rcases List.mem_cons.mp h with h | h
    · exact .inr h
    · exact .inl (mem_digits h)

end Decimal
