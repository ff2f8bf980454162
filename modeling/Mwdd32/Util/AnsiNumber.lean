import Mwdd32.Util.AnsiFormat
import Mwdd32.Util.NumberLength

/-!
# The text of the integer conversions

What `vsprintf` writes for a conversion of an integer, in the parts that ANSI C names.

* `length_number`: its length, whatever wraps.
* `number_eq_ansiLayout`: its layout, if no counter wraps.
-/

namespace Mwdd32.Util

namespace Directive

/-! ## What `number` is called with -/

section Call

variable (args : ℕ → BitVec 32) (d : Directive)

/-- The flags `number` is called with -/
def numberType : Flags := { d.type args with sign := d.letter.signed, large := d.letter = .X }

/-- The characters before the digits: a sign or a blank, and what `#` adds -/
def markLength : ℕ :=
  signLength (d.numberType args) (d.operand args) + prefixLength (d.numberType args) d.letter.base

/-- What is left of the field beside sign, prefix and `precision` digits -/
def roomFor (precision : ℤ) : ℤ :=
  (if d.width = .absent then -1 else (d.givenWidth args : ℤ)) - d.markLength args -
    max (max 1 (d.digitCount args) : ℤ) precision

end Call

/-! ## The parts of the text -/

variable {args : ℕ → BitVec 32} {d : Directive}

theorem isLetter_char (c : Conversion) : IsLetter c.char := by
  apply isLetter_of_mem
  cases c <;> decide

/-- The format prints the text of `number`. -/
theorem vsprintf_format (mem : BitVec 32 → Option Byte) :
    vsprintf mem d.format args =
      (number (d.operand args) d.letter.base (d.fieldWidth args) (d.precisionValue args)
        (d.numberType args)).map fun text => { text } := by
  have hconvert : (d.spec args d.letter.char).convert mem args {} =
      (number (d.operand args) d.letter.base (d.fieldWidth args) (d.precisionValue args)
        (d.numberType args)).map fun text => ({ text }, d.starArgs + 1) := by
    obtain ⟨fields, letter⟩ := d
    cases letter <;>
      simp [Spec.convert, Fields.spec, Conversion.char, ch, Conversion.base, Conversion.signed,
        Spec.integer, numberType, Fields.type, operand, Output.put]
  rw [format, d.vsprintf_text mem (isLetter_char d.letter), hconvert, Option.map_map]
  rfl

theorem signText_eq : signText (d.numberType args) (d.operand args) = d.ansiSign args := by
  have hneg := slt_zero_iff_toInt (d.operand args)
  cases hs : d.letter.signed with
  | false => simp [signText, ansiSign, numberType, hs]
  | true => simp [signText, ansiSign, numberType, hs, value, hneg, Fields.type]

theorem toNat_magnitude_eq :
    (magnitude (d.numberType args) (d.operand args)).toNat = (d.value args).natAbs := by
  rw [toNat_magnitude, value]
  cases hs : d.letter.signed <;> simp [numberType, hs]

/-- The digits of the code are those of ANSI C. -/
theorem getD_digits {k : ℕ} (hk : k < d.letter.base) :
    (d.numberType args).digits.getD k 0 = d.letter.digit k := by
  have hsmall : ∀ k < 16, smallDigits.getD k 0 = ch (Nat.digitChar k) := by decide
  have hlarge : ∀ k < 16, largeDigits.getD k 0 = ch (Nat.digitChar k).toUpper := by decide
  have hbase := two_le_base d.letter
  unfold Flags.digits Conversion.digit numberType
  by_cases hX : d.letter = .X
  · simpa [hX] using hlarge k (by omega)
  · simpa [hX] using hsmall k (by omega)

/-- The code writes 0 as a digit. -/
theorem digitsText_eq :
    digitsText (d.numberType args) d.letter.base (magnitude (d.numberType args) (d.operand args)) =
      List.replicate (max 1 (d.digitCount args) - d.digitCount args) (ch '0') ++
        d.ansiDigits args := by
  have hbase := two_le_base d.letter
  have hmag := @toNat_magnitude_eq args d
  have hzero := @digitCount_eq_zero_iff args d
  rw [digitsText]
  split_ifs with h0
  · have hvalue : d.value args = 0 := by
      rw [h0] at hmag
      exact Int.natAbs_eq_zero.mp hmag.symm
    have hcount := hzero.mpr hvalue
    have hnil : d.ansiDigits args = [] :=
      List.length_eq_zero_iff.mp (length_ansiDigits.trans hcount)
    rw [hcount, hnil]
    rfl
  · have hvalue : d.value args ≠ 0 := by
      intro hvalue
      rw [hvalue] at hmag
      exact h0 (BitVec.eq_of_toNat_eq hmag)
    have hcount : d.digitCount args ≠ 0 := fun hcount => hvalue (hzero.mp hcount)
    have hnone : max 1 (d.digitCount args) - d.digitCount args = 0 := by omega
    rw [hnone, List.replicate_zero, List.nil_append, divLoop_eq _ hbase.1, hmag, ansiDigits,
      List.map_reverse]
    congr 1
    apply List.map_congr_left
    intro k hk
    exact getD_digits (Nat.digits_lt_base hbase.1 hk)

/-- The prefix as the code writes it, also of 0 -/
def hexText (d : Directive) : List Byte :=
  if .special ∈ d.flags then d.letter.hex else []

theorem ansiPrefix_eq : d.ansiPrefix args = if d.value args = 0 then [] else d.hexText := by
  unfold ansiPrefix hexText
  by_cases hspecial : .special ∈ d.flags <;> by_cases hvalue : d.value args = 0 <;>
    simp [hspecial, hvalue]

theorem specialText_eq :
    specialText (d.numberType args) d.letter.base =
      d.hexText ++ List.replicate d.octalLength (ch '0') := by
  have hx : smallDigits.getD 33 0 = ch 'x' := by decide
  have hX : largeDigits.getD 33 0 = ch 'X' := by decide
  have hdigit : (d.numberType args).digits.getD 33 0 =
      if d.letter = .X then ch 'X' else ch 'x' := by
    by_cases h : d.letter = .X
    · rw [Flags.digits, if_pos (by simp [numberType, h]), hX, if_pos h]
    · rw [Flags.digits, if_neg (by simp [numberType, h]), hx, if_neg h]
  have hspecial : (d.numberType args).special = decide (.special ∈ d.flags) := rfl
  unfold specialText hexText octalLength
  rw [hdigit, hspecial]
  by_cases h : .special ∈ d.flags
  · cases hl : d.letter <;> simp [h, Conversion.base, Conversion.hex]
  · simp [h]

theorem length_hexText_eq :
    d.hexText.length = if .special ∈ d.flags ∧ d.letter.base = 16 then 2 else 0 := by
  unfold hexText
  by_cases h : .special ∈ d.flags
  · cases hl : d.letter <;> simp [h, Conversion.base, Conversion.hex]
  · simp [h]

/-! ## The text of `number` -/

theorem ofInt_sub (x y : ℤ) : BitVec.ofInt 32 (x - y) = BitVec.ofInt 32 x - BitVec.ofInt 32 y := by
  rw [Int.sub_eq_add_neg, BitVec.ofInt_add, BitVec.ofInt_neg, BitVec.sub_eq_add_neg]

theorem left_iff : (d.numberType args).left = true ↔ d.leftJustified args := by
  have hneg := slt_zero_iff_toInt (args 0)
  simp [numberType, Fields.type, leftJustified, hneg]

theorem zeropad_iff : (d.numberType args).zeropad = true ↔ .zero ∈ d.flags := by
  simp [numberType, Fields.type]

/-- The counter `size` behind the subtractions -/
theorem toInt_room {prec : BitVec 32} {c : ℤ}
    (hprec : prec.toInt = max (max 1 (d.digitCount args) : ℤ) c) :
    (d.fieldWidth args - BitVec.ofNat 32 (signText (d.numberType args) (d.operand args)).length -
      BitVec.ofNat 32 (specialText (d.numberType args) d.letter.base).length - prec).toInt =
      (d.roomFor args c).bmod (2 ^ 32) := by
  have hofInt : d.fieldWidth args -
      BitVec.ofNat 32 (signText (d.numberType args) (d.operand args)).length -
      BitVec.ofNat 32 (specialText (d.numberType args) d.letter.base).length - prec =
        BitVec.ofInt 32 (d.roomFor args c) := by
    rw [roomFor, ofInt_sub, ← hprec, BitVec.ofInt_toInt, markLength, Nat.cast_add, ← sub_sub,
      ofInt_sub, ofInt_sub, BitVec.ofInt_natCast, BitVec.ofInt_natCast, length_signText,
      length_specialText, Fields.fieldWidth_eq]
  rw [hofInt, BitVec.toInt_ofInt]

theorem length_hexText :
    d.hexText.length + d.octalLength = prefixLength (d.numberType args) d.letter.base := by
  rw [← length_specialText, specialText_eq, List.length_append, List.length_replicate]

theorem length_ansiSign :
    (d.ansiSign args).length = signLength (d.numberType args) (d.operand args) := by
  rw [← length_signText, signText_eq]

theorem digitCount_le : d.digitCount args ≤ 32 := by
  have hbase := two_le_base d.letter
  have hlen := length_digitsText_le (d.numberType args) hbase.1
    (magnitude (d.numberType args) (d.operand args))
  rw [digitsText_eq, List.length_append, length_ansiDigits] at hlen
  omega

/-- Sign, prefix and the `0` of an octal number -/
theorem markLength_eq :
    d.markLength args = (d.ansiSign args).length + (d.hexText.length + d.octalLength) := by
  rw [markLength, length_ansiSign, @length_hexText args d]

/-- The zeroes of the precision, of `#` and for 0 -/
def codeZeroes (args : ℕ → BitVec 32) (d : Directive) : ℕ :=
  d.octalLength + ((max (max 1 (d.digitCount args) : ℤ) (d.precisionValue args).toInt).toNat -
    d.digitCount args)

theorem length_digitsText_value :
    (digitsText (d.numberType args) d.letter.base
      (magnitude (d.numberType args) (d.operand args))).length = max 1 (d.digitCount args) := by
  rw [digitsText_eq, List.length_append, List.length_replicate, length_ansiDigits]
  omega

/-- `precision` after `if (i > precision) precision = i` -/
theorem toInt_precision {i : BitVec 32} (hi : i = BitVec.ofNat 32 (max 1 (d.digitCount args))) :
    i.toInt = (max 1 (d.digitCount args) : ℕ) ∧
      (if (d.precisionValue args).slt i then i else d.precisionValue args).toInt =
        max (max 1 (d.digitCount args) : ℤ) (d.precisionValue args).toInt := by
  have hcount := @digitCount_le args d
  have htoInt : i.toInt = (max 1 (d.digitCount args) : ℕ) := by
    rw [hi]
    exact toInt_ofNat_of_lt (by omega)
  refine ⟨htoInt, ?_⟩
  split_ifs with hslt
  · rw [BitVec.slt_iff_toInt_lt, htoInt] at hslt
    rw [htoInt]
    omega
  · rw [BitVec.slt_iff_toInt_lt, htoInt] at hslt
    omega

/-- The parts of the text, and the counter for the padding -/
theorem exists_room : ∃ room : BitVec 32,
    room.toInt = (d.roomFor args (d.precisionValue args).toInt).bmod (2 ^ 32) ∧
    number (d.operand args) d.letter.base (d.fieldWidth args) (d.precisionValue args)
        (d.numberType args) = some
      (leadPad (d.numberType args) room ++ d.ansiSign args ++
        (d.hexText ++ List.replicate d.octalLength (ch '0')) ++ innerPad (d.numberType args) room ++
        List.replicate (max (max 1 (d.digitCount args) : ℤ) (d.precisionValue args).toInt -
          (max 1 (d.digitCount args) : ℕ)).toNat (ch '0') ++
        (List.replicate (max 1 (d.digitCount args) - d.digitCount args) (ch '0') ++
          d.ansiDigits args) ++
        trailPad (d.numberType args) room) := by
  have hbase := two_le_base d.letter
  obtain ⟨hi, hprec⟩ := @toInt_precision args d _ rfl
  refine ⟨_, toInt_room hprec, ?_⟩
  rw [number_layout (d.operand args) hbase.1 (by omega) (d.fieldWidth args) (d.precisionValue args)
    (d.numberType args) rfl rfl rfl, length_digitsText_value, hprec, hi, signText_eq,
      specialText_eq,
    digitsText_eq]

/-- The length of the text, whatever wraps. -/
theorem length_number {text : List Byte}
    (h : number (d.operand args) d.letter.base (d.fieldWidth args) (d.precisionValue args)
      (d.numberType args) = some text) :
    (text.length : ℤ) = d.markLength args +
      max (max 1 (d.digitCount args) : ℤ) (d.precisionValue args).toInt +
        (if (d.roomFor args (d.precisionValue args).toInt).bmod (2 ^ 32) <
            LONG_MIN.toInt + (d.numberType args).loops then LONG_MAX.toInt
          else max 0 ((d.roomFor args (d.precisionValue args).toInt).bmod (2 ^ 32))) := by
  have hmax : LONG_MAX.toInt = 2147483647 := rfl
  have hmax' : LONG_MAX.toNat = 2147483647 := rfl
  obtain ⟨room, htoInt, hnumber⟩ := @exists_room args d
  rw [← htoInt]
  have hpads : ((leadPad (d.numberType args) room).length +
    (innerPad (d.numberType args) room).length +
      (trailPad (d.numberType args) room).length : ℤ) =
        if room.toInt < LONG_MIN.toInt + (d.numberType args).loops then LONG_MAX.toInt
        else max 0 room.toInt := by
    split_ifs with hwrap
    · have hlen := length_pads_of_lt hwrap
      omega
    · have hlen := length_pads (not_lt.mp hwrap)
      omega
  rw [hnumber] at h
  rw [← hpads, ← Option.some.inj h, markLength_eq]
  simp only [List.length_append, List.length_replicate, length_ansiDigits]
  omega

/-- The layout of the text, if no counter wraps. -/
theorem number_eq_ansiLayout
    (hlow : LONG_MIN.toInt + (d.numberType args).loops ≤
      d.roomFor args (d.precisionValue args).toInt)
    (hhigh : d.roomFor args (d.precisionValue args).toInt ≤ LONG_MAX.toInt) :
    number (d.operand args) d.letter.base (d.fieldWidth args) (d.precisionValue args)
        (d.numberType args) = some
      (layout (d.ansiSign args) d.hexText (d.ansiDigits args)
        (pads (d.leftJustified args) (.zero ∈ d.flags) (d.codeZeroes args)
          (d.roomFor args (d.precisionValue args).toInt).toNat)) := by
  have hmin : LONG_MIN.toInt = -2147483648 := rfl
  have hmax : LONG_MAX.toInt = 2147483647 := rfl
  have hleft := @left_iff args d
  have hzero := @zeropad_iff args d
  obtain ⟨room, htoInt, hnumber⟩ := @exists_room args d
  rw [Int.bmod_eq_of_le (by omega) (by omega)] at htoInt
  rw [← htoInt] at hlow ⊢
  rw [hnumber, innerPad_of_le hlow, trailPad_of_le hlow, leadPad]
  have hzeroes : d.codeZeroes args = d.octalLength +
      ((max (max 1 (d.digitCount args) : ℤ) (d.precisionValue args).toInt -
        (max 1 (d.digitCount args) : ℕ)).toNat +
          (max 1 (d.digitCount args) - d.digitCount args)) := by
    unfold codeZeroes
    omega
  simp only [hleft, hzero, layout, pads, hzeroes]
  generalize (max (max 1 (d.digitCount args) : ℤ) (d.precisionValue args).toInt -
    (max 1 (d.digitCount args) : ℕ)).toNat = more
  by_cases hl : d.leftJustified args
  · simp only [hl, true_or, not_true_eq_false, and_false, if_true, if_false, List.replicate_zero,
      ← List.replicate_append_replicate, List.append_assoc, List.nil_append]
  · by_cases hz : .zero ∈ d.flags
    · -- the padding stands between the `0` of `#` and the other zeroes
      have hcomm : d.octalLength + (more + (max 1 (d.digitCount args) - d.digitCount args)) +
          room.toInt.toNat = d.octalLength + (room.toInt.toNat +
            (more + (max 1 (d.digitCount args) - d.digitCount args))) := by omega
      rw [hcomm]
      simp only [hl, hz, or_true, not_false_eq_true, and_self, if_true, if_false,
        List.replicate_zero, ← List.replicate_append_replicate, List.append_assoc, List.nil_append]
    · simp only [hl, hz, or_self, false_and, if_false, List.replicate_zero,
        ← List.replicate_append_replicate, List.append_assoc, List.nil_append]

end Directive

end Mwdd32.Util
