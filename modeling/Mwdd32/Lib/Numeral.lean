import Mathlib.Tactic
import Mathlib.Data.Nat.Digits.Lemmas

/-!
# Numerals read from the left

A numeral is read one digit at a time, most significant digit first, by
`n ↦ n * r + d`. `value` is the number read, `push` the same step with a limit:
once the number exceeds it, the result is lost for good.

* `value_digits`: reading the digits of `m` gives `m`.
* `foldl_push`: the bounded reading fails exactly when the whole number exceeds
  the limit.
* `exceeds_iff`: the test by quotient and remainder of the limit, which never
  computes a number above it.
-/

namespace Numeral

/-- The number read from the digits `ds` in base `r`, after `n`. -/
def value (r n : ℕ) (ds : List ℕ) : ℕ := ds.foldl (fun n d => n * r + d) n

@[simp] theorem value_nil (r n : ℕ) : value r n [] = n := rfl

@[simp] theorem value_cons (r n d : ℕ) (ds : List ℕ) :
    value r n (d :: ds) = value r (n * r + d) ds := rfl

theorem value_append (r n : ℕ) (ds es : List ℕ) :
    value r n (ds ++ es) = value r (value r n ds) es := by
  rw [value, List.foldl_append]
  rfl

/-- Leading zeroes do not count. -/
@[simp] theorem value_replicate_zero (r k : ℕ) : value r 0 (List.replicate k 0) = 0 := by
  induction k with
  | zero => rfl
  | succ k ih => rw [List.replicate_succ, value_cons, Nat.zero_mul, Nat.add_zero, ih]

theorem value_reverse (r : ℕ) (ds : List ℕ) : value r 0 ds.reverse = Nat.ofDigits r ds := by
  rw [value, List.foldl_reverse, Nat.ofDigits_eq_foldr]
  congr 1
  funext d n
  simp only [Nat.cast_id]
  ring

/-- **Reading the digits of a number** gives the number. -/
theorem value_digits (r m : ℕ) : value r 0 (Nat.digits r m).reverse = m := by
  rw [value_reverse, Nat.ofDigits_digits]

/-- The number read so far never decreases. -/
theorem le_value {r : ℕ} (hr : 0 < r) (n : ℕ) (ds : List ℕ) : n ≤ value r n ds := by
  induction ds generalizing n with
  | nil => exact le_rfl
  | cons d ds ih =>
    calc n ≤ n * r := Nat.le_mul_of_pos_right n hr
      _ ≤ n * r + d := Nat.le_add_right _ _
      _ ≤ value r (n * r + d) ds := ih _

/-- One digit read with the limit `lim`. -/
def push (lim r : ℕ) (acc : Option ℕ) (d : ℕ) : Option ℕ :=
  acc.bind fun n => if n * r + d ≤ lim then some (n * r + d) else none

theorem foldl_push_none (lim r : ℕ) (ds : List ℕ) : ds.foldl (push lim r) none = none := by
  induction ds with
  | nil => rfl
  | cons d ds ih => exact ih

/-- **The bounded reading** gives the number if it is within the limit. -/
theorem foldl_push {lim r n : ℕ} (hr : 0 < r) (hn : n ≤ lim) (ds : List ℕ) :
    ds.foldl (push lim r) (some n) =
      if value r n ds ≤ lim then some (value r n ds) else none := by
  induction ds generalizing n with
  | nil => simp [hn]
  | cons d ds ih =>
    rw [List.foldl_cons, value_cons]
    by_cases h : n * r + d ≤ lim
    · rw [push, Option.bind_some, if_pos h]
      exact ih h
    · have := le_value hr (n * r + d) ds
      rw [push, Option.bind_some, if_neg h, foldl_push_none, if_neg (by omega)]

/-- The next digit exceeds the limit: told from the quotient and the remainder of the
    limit alone. -/
theorem exceeds_iff {lim r n d : ℕ} (hd : d < r) :
    lim / r ≤ n ∧ (lim / r < n ∨ lim - lim / r * r < d) ↔ lim < n * r + d := by
  have hlim : lim / r * r + lim % r = lim := Nat.div_add_mod' lim r
  have hmod : lim % r < r := Nat.mod_lt _ (by omega)
  constructor
  · intro ⟨hle, h⟩
    have hmul : lim / r * r ≤ n * r := Nat.mul_le_mul_right r hle
    rcases h with hlt | hlt
    · have hsucc : (lim / r + 1) * r ≤ n * r := Nat.mul_le_mul_right r hlt
      rw [Nat.succ_mul] at hsucc
      omega
    · omega
  · intro h
    have hle : lim / r ≤ n := by
      by_contra hn
      have hsucc : (n + 1) * r ≤ lim / r * r := Nat.mul_le_mul_right r (by omega)
      rw [Nat.succ_mul] at hsucc
      omega
    refine ⟨hle, ?_⟩
    by_cases hlt : lim / r < n
    · exact Or.inl hlt
    · have : n = lim / r := by omega
      subst this
      right
      omega

end Numeral
