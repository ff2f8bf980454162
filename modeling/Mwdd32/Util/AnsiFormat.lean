import Mwdd32.Util.Format

/-!
# The integer conversions of ANSI C

`ansiText` is the text that ANSI C prescribes for `%d`, `%i`, `%u`, `%o`, `%x` and `%X`.

* `ansiText_eq`: its layout: blanks, sign, prefix, zeroes, digits and blanks.
-/

namespace Mwdd32.Util

/-! ## What ANSI C prescribes -/

/-- The integer conversions. -/
inductive Conversion
  | d
  | i
  | u
  | o
  | x
  | X
  deriving DecidableEq, Repr

namespace Conversion

/-- The letter -/
def char : Conversion → Byte
  | d => ch 'd'
  | i => ch 'i'
  | u => ch 'u'
  | o => ch 'o'
  | x => ch 'x'
  | X => ch 'X'

/-- The base of the digits -/
def base : Conversion → ℕ
  | d | i | u => 10
  | o => 8
  | x | X => 16

/-- Whether the argument is an `int` -/
def signed : Conversion → Bool
  | d | i => true
  | u | o | x | X => false

/-- The prefix that `#` stands for -/
def hex : Conversion → List Byte
  | x => [ch '0', ch 'x']
  | X => [ch '0', ch 'X']
  | d | i | u | o => []

/-- A digit as the conversion writes it -/
def digit (c : Conversion) (k : ℕ) : Byte :=
  ch (if c = .X then (Nat.digitChar k).toUpper else Nat.digitChar k)

end Conversion

/-- A conversion specification of an integer -/
structure Directive extends Fields where
  letter : Conversion
  deriving DecidableEq, Repr

namespace Directive

variable (args : ℕ → BitVec 32) (d : Directive)

/-- A format that consists of the specification -/
def format : List Byte := ch '%' :: (d.text ++ [d.letter.char])

/-- The argument that is converted -/
def operand : BitVec 32 := args d.starArgs

/-- The argument as a number -/
def value : ℤ := if d.letter.signed then (d.operand args).toInt else (d.operand args).toNat

/-- `-` is given, or a negative width. -/
def leftJustified : Prop := .minus ∈ d.flags ∨ d.width = .star ∧ (args 0).toInt < 0

instance : Decidable (d.leftJustified args) := inferInstanceAs (Decidable (_ ∨ _))

/-- The digits of a number without leading zeroes, none for 0 -/
def ansiDigits : List Byte :=
  (Nat.digits d.letter.base (d.value args).natAbs).reverse.map d.letter.digit

/-- At least as many digits as the precision says, or one -/
def ansiPrecise : List Byte :=
  List.replicate ((d.givenPrecision args).getD 1 - (d.ansiDigits args).length) (ch '0') ++
    d.ansiDigits args

/-- With `#` an octal number starts with 0. -/
def ansiNumber : List Byte :=
  if .special ∈ d.flags ∧ d.letter = .o ∧ peek (d.ansiPrecise args) ≠ ch '0' then
    ch '0' :: d.ansiPrecise args
  else d.ansiPrecise args

/-- With `#` a hexadecimal number other than 0 has a prefix. -/
def ansiPrefix : List Byte :=
  if .special ∈ d.flags ∧ d.value args ≠ 0 then d.letter.hex else []

/-- The sign of a signed conversion -/
def ansiSign : List Byte :=
  if d.letter.signed then
    if d.value args < 0 then [ch '-']
    else if .plus ∈ d.flags then [ch '+']
    else if .space ∈ d.flags then [ch ' ']
    else []
  else []

/-- The text of a conversion. The flag `0` counts without `-` and without a precision. -/
def ansiText : List Byte :=
  let fill := d.givenWidth args -
    ((d.ansiSign args).length + (d.ansiPrefix args).length + (d.ansiNumber args).length)
  if d.leftJustified args then
    d.ansiSign args ++ d.ansiPrefix args ++ d.ansiNumber args ++ List.replicate fill (ch ' ')
  else if .zero ∈ d.flags ∧ d.givenPrecision args = none then
    d.ansiSign args ++ d.ansiPrefix args ++ List.replicate fill (ch '0') ++ d.ansiNumber args
  else
    List.replicate fill (ch ' ') ++ d.ansiSign args ++ d.ansiPrefix args ++ d.ansiNumber args

/-- The number of digits, 0 for 0 -/
def digitCount : ℕ := (Nat.digits d.letter.base (d.value args).natAbs).length

/-- 1 for the `0` that `#` puts before an octal number -/
def octalLength : ℕ := if .special ∈ d.flags ∧ d.letter = .o then 1 else 0

end Directive

/-! ## Layouts -/

/-- Blanks before the text, zeroes in it and blanks behind it, for a field that has `room` more
    characters than the text -/
def pads (left zero : Prop) [Decidable left] [Decidable zero] (zeroes room : ℕ) : ℕ × ℕ × ℕ :=
  if left then (0, zeroes, room) else if zero then (0, zeroes + room, 0) else (room, zeroes, 0)

/-- Blanks, sign, prefix, zeroes, digits and blanks -/
def layout (sign hex digits : List Byte) (p : ℕ × ℕ × ℕ) : List Byte :=
  List.replicate p.1 (ch ' ') ++ sign ++ hex ++ List.replicate p.2.1 (ch '0') ++ digits ++
    List.replicate p.2.2 (ch ' ')

section Layout

variable {left zero zero' : Prop} [Decidable left] [Decidable zero] [Decidable zero']
  {sign hex digits : List Byte} {zeroes room zeroes' room' : ℕ}

theorem pads_congr (h : zero ↔ zero') :
    pads left zero zeroes room = pads left zero' zeroes room := by
  unfold pads
  simp only [h]

theorem pads_eq_iff {z r z' r' : ℕ} : pads left zero z r = pads left zero z' r' ↔
    if zero ∧ ¬ left then z + r = z' + r' else z = z' ∧ r = r' := by
  unfold pads
  by_cases hl : left <;> by_cases hz : zero <;> simp [hl, hz, and_comm]

theorem pads_eq_blanks_iff {z r z' r' : ℕ} : pads left zero z r = pads left False z' r' ↔
    if zero ∧ ¬ left then z + r = z' ∧ r' = 0 else z = z' ∧ r = r' := by
  unfold pads
  by_cases hl : left <;> by_cases hz : zero <;> simp [hl, hz, and_comm, eq_comm]

theorem length_layout_pads : (layout sign hex digits (pads left zero zeroes room)).length =
    sign.length + hex.length + zeroes + digits.length + room := by
  simp only [layout, pads, List.length_append, List.length_replicate]
  split_ifs <;> dsimp only <;> omega

/-- The zeroes of a text can be counted, and then the blanks. -/
theorem layout_pads_inj : layout sign hex digits (pads left zero zeroes room) =
      layout sign hex digits (pads left zero' zeroes' room') ↔
    pads left zero zeroes room = pads left zero' zeroes' room' := by
  constructor
  · intro h
    have hne : ¬ ch ' ' = ch '0' := by decide
    have hlen := congrArg List.length h
    have hcount := congrArg (List.count (ch '0')) h
    rw [length_layout_pads, length_layout_pads] at hlen
    simp only [layout, List.count_append, List.count_replicate, beq_iff_eq, hne, if_true, if_false]
      at hcount
    have hzeroes : (pads left zero zeroes room).2.1 = (pads left zero' zeroes' room').2.1 := by
      omega
    revert hzeroes
    unfold pads
    by_cases hl : left
    · rw [if_pos hl, if_pos hl]
      intro hzeroes
      dsimp only at hzeroes
      rw [hzeroes, show room = room' by omega]
    · rw [if_neg hl, if_neg hl]
      intro hzeroes
      by_cases hz : zero <;> by_cases hz' : zero' <;>
        simp only [hz, hz', if_true, if_false, Prod.mk.injEq, true_and, and_true] at hzeroes ⊢ <;>
        omega
  · intro h
    rw [h]

end Layout

namespace Directive

variable {args : ℕ → BitVec 32} {d : Directive}

theorem two_le_base (c : Conversion) : 2 ≤ c.base ∧ c.base ≤ 16 := by cases c <;> decide

theorem length_ansiDigits : (d.ansiDigits args).length = d.digitCount args := by
  simp [ansiDigits, digitCount]

theorem digitCount_eq_zero_iff : d.digitCount args = 0 ↔ d.value args = 0 := by
  rw [digitCount, List.length_eq_zero_iff, Nat.digits_eq_nil_iff_eq_zero, Int.natAbs_eq_zero]

/-- The zeroes of the precision and of `#` -/
def ansiZeroes (args : ℕ → BitVec 32) (d : Directive) : ℕ :=
  max ((d.givenPrecision args).getD 1 - d.digitCount args) d.octalLength

/-- What ANSI C fills the field with -/
def ansiFill (args : ℕ → BitVec 32) (d : Directive) : ℕ :=
  d.givenWidth args -
    ((d.ansiSign args).length + (d.ansiPrefix args).length +
      (d.ansiZeroes args + d.digitCount args))

/-- A number does not start with a zero. -/
theorem peek_ansiDigits : peek (d.ansiDigits args) ≠ ch '0' := by
  have hdigit : ∀ c : Conversion, ∀ k < 16, c.digit k = ch '0' → k = 0 := by
    intro c
    cases c <;> decide
  have hbase := two_le_base d.letter
  have hlast : ∀ hne : Nat.digits d.letter.base (d.value args).natAbs ≠ [],
      (Nat.digits d.letter.base (d.value args).natAbs).getLast hne ≠ 0 := by
    intro hne
    exact Nat.getLast_digit_ne_zero d.letter.base (Nat.digits_ne_nil_iff_ne_zero.mp hne)
  have hlt : ∀ k ∈ Nat.digits d.letter.base (d.value args).natAbs, k < d.letter.base :=
    fun k hk => Nat.digits_lt_base hbase.1 hk
  unfold ansiDigits
  rcases List.eq_nil_or_concat'
    (Nat.digits d.letter.base (d.value args).natAbs) with hnil | ⟨ds, k, hds⟩
  · rw [hnil]
    show (0 : Byte) ≠ ch '0'
    decide
  · rw [hds] at hlast hlt ⊢
    have hk := hlt k (by simp)
    intro hpeek
    rw [List.reverse_append, List.reverse_singleton, List.singleton_append, List.map_cons,
      peek_cons]
      at hpeek
    exact hlast (by simp) (by simpa using hdigit d.letter k (by omega) hpeek)

theorem ansiNumber_eq :
    d.ansiNumber args = List.replicate (d.ansiZeroes args) (ch '0') ++ d.ansiDigits args := by
  have hlen := @length_ansiDigits args d
  unfold ansiNumber ansiZeroes octalLength
  by_cases hoctal : .special ∈ d.flags ∧ d.letter = .o
  · rw [if_pos hoctal]
    unfold ansiPrecise
    rw [hlen]
    generalize (d.givenPrecision args).getD 1 - d.digitCount args = z
    cases z with
    | zero => simp [hoctal, peek_ansiDigits]
    | succ z =>
      have hz : max (z + 1) 1 = z + 1 := by omega
      rw [hz, if_neg (by simp [List.replicate_succ])]
  · rw [if_neg hoctal, if_neg fun h => hoctal ⟨h.1, h.2.1⟩, Nat.max_zero, ansiPrecise, hlen]

theorem ansiText_eq :
    d.ansiText args = layout (d.ansiSign args) (d.ansiPrefix args) (d.ansiDigits args)
      (pads (d.leftJustified args) (.zero ∈ d.flags ∧ d.givenPrecision args = none)
        (d.ansiZeroes args) (d.ansiFill args)) := by
  have hlen : (d.ansiNumber args).length = d.ansiZeroes args + d.digitCount args := by
    rw [ansiNumber_eq, List.length_append, List.length_replicate, length_ansiDigits]
  unfold ansiText layout pads
  rw [hlen, ← ansiFill, ansiNumber_eq]
  by_cases hleft : d.leftJustified args
  · simp [hleft]
  · by_cases hzero : .zero ∈ d.flags ∧ d.givenPrecision args = none
    · simp only [hleft, hzero, if_false, if_true, and_self, List.replicate_zero, List.append_nil,
        List.nil_append]
      rw [Nat.add_comm, ← List.replicate_append_replicate]
      simp only [List.append_assoc]
    · simp [hleft, hzero]

/-- The field of ANSI C is as wide as the width or as the text. -/
theorem length_ansiText :
    (d.ansiText args).length = max (d.givenWidth args)
      ((d.ansiSign args).length + (d.ansiPrefix args).length +
        (d.ansiZeroes args + d.digitCount args)) := by
  rw [ansiText_eq, length_layout_pads, length_ansiDigits, ansiFill]
  omega

end Directive

end Mwdd32.Util
