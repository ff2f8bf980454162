import Mwdd32.Util.AnsiNumber

/-!
# The integer conversions against ANSI C

The flag `0` is not ignored with a precision, `#` is not ignored for 0, the zeroes of `#` and of a
precision add up, 0 always has a digit, and counters wrap for widths and precisions near `2 ^ 31`.
Elsewhere the conversions are those of ANSI C.

Main result:

* `ansi_iff`: where the conversions print what ANSI C prescribes.
-/

namespace Mwdd32.Util

namespace Directive

/-! ## Where the code prints it -/

section Condition

variable (args : ℕ → BitVec 32) (d : Directive)

/-- The condition for a precision that fits in an `int`. -/
structure Plain : Prop where
  zero : d.value args = 0 → d.givenPrecision args ≠ some 0 ∧
    ¬ (.special ∈ d.flags ∧ d.letter.base = 16)
  octal : .special ∈ d.flags → d.letter = .o →
    d.value args ≠ 0 ∧ (d.givenPrecision args).getD 0 ≤ d.digitCount args ∨
      d.givenPrecision args = none ∧ .zero ∈ d.flags ∧ ¬ d.leftJustified args ∧
        2 ≤ d.givenWidth args
  zeroes : .zero ∈ d.flags → ¬ d.leftJustified args → d.givenPrecision args ≠ none →
    d.roomFor args ((d.givenPrecision args).getD 0) ≤ 0
  lower : LONG_MIN.toInt + (d.numberType args).loops ≤
    d.roomFor args ((d.givenPrecision args).getD 0)
  upper : d.roomFor args ((d.givenPrecision args).getD 0) ≤ LONG_MAX.toInt

/-- The condition for one that does not: zero padding must write what the precision does not. -/
structure Padded : Prop where
  zero : .zero ∈ d.flags
  right : ¬ d.leftJustified args
  nonzero : d.value args = 0 → ¬ (.special ∈ d.flags ∧ d.letter.base = 16)
  width : d.givenWidth args + d.octalLength = d.markLength args + (d.givenPrecision args).getD 0
  upper : d.roomFor args 0 ≤ LONG_MAX.toInt

/-- The condition on flags, width, precision and value -/
structure PrintsAnsi : Prop where
  plain : ((d.givenPrecision args).getD 0 : ℤ) ≤ LONG_MAX.toInt → d.Plain args
  padded : LONG_MAX.toInt < ((d.givenPrecision args).getD 0 : ℤ) → d.Padded args

end Condition

variable {args : ℕ → BitVec 32} {d : Directive}

/-! ## The two texts -/

/-- The number in `precision`, if a star does not stand for a negative one. -/
theorem precision_cases (hp : d.precision = .star → 0 ≤ (args d.widthArgs).toInt) :
    (d.givenPrecision args = none ∧ (d.precisionValue args).toInt = -1) ∨
      ∃ q, d.givenPrecision args = some q ∧
        (d.precisionValue args).toInt = (if q % 2 ^ 32 < 2 ^ 31 then q % 2 ^ 32 else 0 : ℕ) := by
  cases hgiven : d.givenPrecision args with
  | some q =>
    have hnat := Fields.toNat_precisionValue hgiven
    refine .inr ⟨q, rfl, ?_⟩
    rw [BitVec.toInt_eq_toNat_of_lt, hnat]
    rw [hnat]
    split_ifs <;> omega
  | none =>
    refine .inl ⟨rfl, ?_⟩
    unfold Fields.givenPrecision at hgiven
    unfold Fields.precisionValue
    cases hd : d.precision with
    | absent => rfl
    | literal ds lt =>
      rw [hd] at hgiven
      cases hgiven
    | star =>
      have hneg : ¬ (args d.widthArgs).slt 0#32 = true := by
        rw [slt_zero_iff_toInt]
        exact not_lt.mpr (hp hd)
      rw [hd] at hgiven
      dsimp only at hgiven
      rw [if_neg hneg] at hgiven
      cases hgiven

/-- The prefix of 0 is seen. -/
theorem hexText_eq_nil_of_layout {p p' : ℕ × ℕ × ℕ} (hvalue : d.value args = 0)
    (h : layout (d.ansiSign args) d.hexText (d.ansiDigits args) p =
      layout (d.ansiSign args) [] (d.ansiDigits args) p') : d.hexText = [] := by
  have hcount := digitCount_eq_zero_iff.mpr hvalue
  have hdigits : d.ansiDigits args = [] :=
    List.length_eq_zero_iff.mp (length_ansiDigits.trans hcount)
  by_contra hne
  obtain ⟨x, hx, hhex⟩ : ∃ x, (x = ch 'x' ∨ x = ch 'X') ∧ x ∈ d.hexText := by
    unfold hexText at hne ⊢
    by_cases hspecial : .special ∈ d.flags
    · cases hl : d.letter <;> simp [hl, hspecial, Conversion.hex] at hne ⊢
    · simp [hspecial] at hne
  have hsign : d.ansiSign args = [] := by
    unfold hexText at hne
    cases hl : d.letter <;> simp [hl, ansiSign, Conversion.signed, Conversion.hex] at hne ⊢
  have hmem : x ∈ layout (d.ansiSign args) [] (d.ansiDigits args) p' := by
    rw [← h]
    simp [layout, hhex]
  rw [hsign, hdigits] at hmem
  simp only [layout, List.append_nil, List.mem_append, List.mem_replicate] at hmem
  have hblank : x ≠ ch ' ' := by rcases hx with rfl | rfl <;> decide
  have hzero : x ≠ ch '0' := by rcases hx with rfl | rfl <;> decide
  rcases hmem with (⟨-, hmem⟩ | ⟨-, hmem⟩) | ⟨-, hmem⟩
  · exact hblank hmem
  · exact hzero hmem
  · exact hblank hmem

theorem length_ansiPrefix :
    (d.ansiPrefix args).length = if d.value args = 0 then 0 else d.hexText.length := by
  rw [ansiPrefix_eq]
  split_ifs <;> rfl

/-- Texts of one length: then the counter does not wrap. -/
theorem room_of_length {room c width : ℤ} {given mark count body loops : ℕ}
    (hroom : room = width - mark - max (max 1 count : ℤ) c)
    (hwidth : width = given ∨ width = -1 ∧ given = 0) (hmark : mark ≤ 4) (hcount : count ≤ 32)
    (hloops : loops ≤ 2) (hc : -1 ≤ c ∧ c < 2 ^ 31)
    (hbody : (body : ℤ) ≤ mark + max (max 1 count : ℤ) c ∨ c = 0 ∧ 2 ^ 31 ≤ body ∨
      2 ^ 32 + c ≤ body)
    (hlen : mark + max (max 1 count : ℤ) c +
      (if room.bmod (2 ^ 32) < LONG_MIN.toInt + loops then LONG_MAX.toInt
        else max 0 (room.bmod (2 ^ 32))) = max given body) :
    LONG_MIN.toInt + loops ≤ room ∧ room ≤ LONG_MAX.toInt := by
  have hmin : LONG_MIN.toInt = -2147483648 := rfl
  have hmax : LONG_MAX.toInt = 2147483647 := rfl
  rw [hmin, hmax] at hlen ⊢
  have hhigh := Int.bmod_lt (x := room) (m := 2 ^ 32) (by decide)
  constructor
  · by_contra hlow
    -- the loops write at least one character too many
    have hpads : 0 < if room.bmod (2 ^ 32) < -2147483648 + (loops : ℤ) then 2147483647
        else max 0 (room.bmod (2 ^ 32)) := by
      by_cases hmod : room < -2147483648
      · have hbmod : room.bmod (2 ^ 32) = room + 2 ^ 32 := by
          rw [← Int.add_bmod_right room (2 ^ 32)]
          push_cast
          exact Int.bmod_eq_of_le (by omega) (by omega)
        rw [hbmod]
        split_ifs <;> omega
      · have hbmod : room.bmod (2 ^ 32) = room := Int.bmod_eq_of_le (by omega) (by omega)
        rw [hbmod, if_pos (by omega)]
        decide
    rcases hbody with hbody | hbody | hbody
    · omega
    · omega
    · split_ifs at hlen <;> omega
  · by_contra hhigh'
    have hpads : (if room.bmod (2 ^ 32) < -2147483648 + (loops : ℤ) then 2147483647
        else max 0 (room.bmod (2 ^ 32))) ≤ 2147483647 := by
      split_ifs <;> omega
    omega

theorem givenWidth_of_absent (h : d.width = .absent) : d.givenWidth args = 0 := by
  rw [Fields.givenWidth, h]

section Numbers

variable {left zero : Prop} [Decidable left] [Decidable zero] {width room c : ℤ}
  {given sign hex octal count q : ℕ}

/-- The padding without a precision -/
theorem pads_none_iff (hwidth : width = given ∨ width = -1 ∧ given = 0) (hoctal : octal ≤ 1)
    (hzero : octal = 1 → sign = 0 ∧ hex = 0)
    (hroom : room = width - (sign + (hex + octal) : ℕ) - max 1 count) :
    pads left zero (octal + (max 1 count - count)) room.toNat =
        pads left zero (max (1 - count) octal)
          (given - (sign + hex + (max (1 - count) octal + count))) ↔
      (octal = 1 → count ≠ 0 ∨ zero ∧ ¬ left ∧ 2 ≤ given) := by
  have hroom' : room.toNat = given - (sign + (hex + octal) + max 1 count) := by
    rcases hwidth with rfl | ⟨rfl, rfl⟩ <;> omega
  rw [pads_eq_iff, hroom']
  have hdigits : count = 0 ∧ max 1 count = 1 ∨ 0 < count ∧ max 1 count = count := by omega
  rcases hdigits with ⟨rfl, -⟩ | ⟨hpos, hm⟩
  · by_cases h1 : octal = 1
    · obtain ⟨rfl, rfl⟩ := hzero h1
      subst h1
      by_cases h : zero ∧ ¬ left
      · rw [if_pos h]
        simp only [h, not_false_eq_true, true_and, ne_eq, not_true_eq_false, false_or, true_implies]
        omega
      · rw [if_neg h]
        have h' : ¬ (zero ∧ ¬ left ∧ 2 ≤ given) := fun h' => h ⟨h'.1, h'.2.1⟩
        simp only [h', ne_eq, not_true_eq_false, or_false, true_implies, iff_false]
        omega
    · obtain rfl : octal = 0 := by omega
      simp
  · have hnone : 1 - count = 0 := by omega
    rw [hm, hnone, Nat.sub_self, Nat.add_zero, Nat.zero_max]
    refine iff_of_true ?_ fun _ => .inl (by omega)
    split_ifs <;> omega

/-- The padding with a precision that fits in an `int` -/
theorem pads_some_iff (hwidth : width = given ∨ width = -1 ∧ given = 0) (hoctal : octal ≤ 1)
    (hroom : room = width - (sign + (hex + octal) : ℕ) - max (max 1 count) q) :
    pads left zero (octal + (max (max 1 count) q - count)) room.toNat =
        pads left False (max (q - count) octal)
          (given - (sign + hex + (max (q - count) octal + count))) ↔
      (count = 0 → q ≠ 0) ∧ (octal = 1 → count ≠ 0 ∧ q ≤ count) ∧ (zero → ¬ left → room ≤ 0) := by
  have hroom' : room.toNat = given - (sign + (hex + octal) + max (max 1 count) q) := by
    rcases hwidth with rfl | ⟨rfl, rfl⟩ <;> omega
  have hblanks : (zero → ¬ left → room ≤ 0) ↔ (zero ∧ ¬ left → room.toNat = 0) := by
    rw [and_imp, Int.toNat_eq_zero]
  rw [pads_eq_blanks_iff, hblanks, hroom']
  have hdigits : (0 < count ∧ q ≤ count ∧ max (max 1 count) q = count) ∨
      (count = 0 ∧ q = 0 ∧ max (max 1 count) q = 1) ∨
        (count < q ∧ max (max 1 count) q = q) := by omega
  rcases hdigits with ⟨hpos, hle, hm⟩ | ⟨rfl, rfl, hm⟩ | ⟨hlt, hm⟩
  · -- all digits are written
    have hnone : q - count = 0 := by omega
    rw [hm, hnone, Nat.sub_self, Nat.add_zero, Nat.zero_max]
    have hzero : count = 0 → q ≠ 0 := by omega
    have hoctal' : octal = 1 → count ≠ 0 ∧ q ≤ count := by omega
    rw [and_iff_right hzero, and_iff_right hoctal']
    split_ifs with h
    · rw [forall_prop_of_true h]
      omega
    · rw [forall_prop_of_false h, iff_true]
      omega
  · -- 0 is written as a digit
    rw [hm]
    refine iff_of_false ?_ fun h => h.1 rfl rfl
    split_ifs <;> omega
  · -- there are zeroes before the digits
    have hmax : max (q - count) octal = q - count := by omega
    rw [hm, hmax]
    by_cases h1 : octal = 1
    · subst h1
      refine iff_of_false ?_ fun h => by omega
      split_ifs <;> omega
    · obtain rfl : octal = 0 := by omega
      have hzero : count = 0 → q ≠ 0 := by omega
      rw [and_iff_right hzero, and_iff_right fun h => absurd h h1]
      split_ifs with h
      · rw [forall_prop_of_true h]
        omega
      · rw [forall_prop_of_false h, iff_true]
        omega

/-- The padding with a precision of at least `2 ^ 31`, of which `c` is left -/
theorem pads_huge_iff (hwidth : width = given ∨ width = -1 ∧ given = 0) (hoctal : octal ≤ 1)
    (hcount : count ≤ 32) (hq : 2 ^ 31 ≤ q)
    (hc : c = (if q % 2 ^ 32 < 2 ^ 31 then q % 2 ^ 32 else 0 : ℕ))
    (hroom : room = width - (sign + (hex + octal) : ℕ) - max (max 1 count : ℤ) c) :
    pads left zero (octal + ((max (max 1 count : ℤ) c).toNat - count)) room.toNat =
        pads left False (max (q - count) octal)
          (given - (sign + hex + (max (q - count) octal + count))) ↔
      zero ∧ ¬ left ∧ given + octal = sign + (hex + octal) + q := by
  obtain ⟨digits, hdigits⟩ : ∃ digits : ℕ, (digits : ℤ) = max (max 1 count : ℤ) c :=
    ⟨(max (max 1 count : ℤ) c).toNat, by omega⟩
  -- the digits and the zeroes of the code fall short of the precision
  have hshort : digits + 2 ≤ q ∧ count ≤ digits := by split_ifs at hc <;> omega
  have hmax : max (q - count) octal = q - count := by omega
  rw [← hdigits] at hroom ⊢
  rw [pads_eq_blanks_iff, Int.toNat_natCast, hmax, ← and_assoc]
  clear hc hdigits
  by_cases h : zero ∧ ¬ left
  · rw [if_pos h]
    simp only [h, not_false_eq_true, and_self, true_and]
    rcases hwidth with rfl | ⟨rfl, rfl⟩ <;> omega
  · rw [if_neg h]
    simp only [h, false_and, iff_false]
    omega

end Numbers

/-! ## The condition -/

theorem hexText_eq_nil_iff : d.hexText = [] ↔ ¬ (.special ∈ d.flags ∧ d.letter.base = 16) := by
  rw [← List.length_eq_zero_iff, length_hexText_eq]
  split_ifs with h <;> simp [h]

theorem octalLength_eq_one_iff : d.octalLength = 1 ↔ .special ∈ d.flags ∧ d.letter = .o := by
  unfold octalLength
  split_ifs with h <;> simp [h]

theorem octalLength_le : d.octalLength ≤ 1 := by
  unfold octalLength
  split_ifs <;> omega

/-- An octal conversion has no sign and no other prefix. -/
theorem length_of_octal (h : d.octalLength = 1) :
    (d.ansiSign args).length = 0 ∧ d.hexText.length = 0 := by
  obtain ⟨-, hletter⟩ := octalLength_eq_one_iff.mp h
  simp [ansiSign, hexText, hletter, Conversion.signed, Conversion.hex]

theorem roomFor_eq (c : ℤ) : ∃ width : ℤ,
    (width = d.givenWidth args ∨ width = -1 ∧ d.givenWidth args = 0) ∧
      d.roomFor args c =
        width - ((d.ansiSign args).length + (d.hexText.length + d.octalLength) : ℕ) -
        max (max 1 (d.digitCount args) : ℤ) c := by
  refine ⟨_, ?_, by rw [roomFor, markLength_eq]⟩
  split_ifs with habsent
  · exact .inr ⟨rfl, givenWidth_of_absent habsent⟩
  · exact .inl rfl

/-- The counter does not wrap. -/
def Fits (args : ℕ → BitVec 32) (d : Directive) (room : ℤ) : Prop :=
  LONG_MIN.toInt + (d.numberType args).loops ≤ room ∧ room ≤ LONG_MAX.toInt

/-- The blanks and zeroes of the code are those of ANSI C. -/
def SamePads (args : ℕ → BitVec 32) (d : Directive) : Prop :=
  pads (d.leftJustified args) (.zero ∈ d.flags) (d.codeZeroes args)
      (d.roomFor args (d.precisionValue args).toInt).toNat =
    pads (d.leftJustified args) (.zero ∈ d.flags ∧ d.givenPrecision args = none) (d.ansiZeroes args)
      (d.ansiFill args)

theorem loops_le (type : Flags) : type.loops ≤ 2 := by
  unfold Flags.loops
  split_ifs <;> omega

theorem roomFor_congr {p c : ℤ}
    (h : max (max 1 (d.digitCount args) : ℤ) p = max (max 1 (d.digitCount args) : ℤ) c) :
    d.roomFor args p = d.roomFor args c := by
  rw [roomFor, h, roomFor]

/-- The padding of ANSI C, if the prefix is the one of the code -/
theorem ansiFill_eq (h : d.value args = 0 → d.hexText = []) : d.ansiFill args = d.givenWidth args -
    ((d.ansiSign args).length + d.hexText.length + (d.ansiZeroes args + d.digitCount args)) := by
  have hhexLength : (d.ansiPrefix args).length = d.hexText.length := by
    rw [length_ansiPrefix]
    split_ifs with h0
    · rw [h h0]
      rfl
    · rfl
  rw [ansiFill, hhexLength]

theorem samePads_iff_of_none (hgiven : d.givenPrecision args = none)
    (hvalue : (d.precisionValue args).toInt = -1) (hhex : d.value args = 0 → d.hexText = []) :
    d.SamePads args ↔ (d.octalLength = 1 → d.digitCount args ≠ 0 ∨
      .zero ∈ d.flags ∧ ¬ d.leftJustified args ∧ 2 ≤ d.givenWidth args) := by
  obtain ⟨width, hwidth, hroom⟩ := @roomFor_eq args d (-1)
  have hmax : max (max 1 (d.digitCount args) : ℤ) (-1) = max 1 (d.digitCount args) := by omega
  rw [hmax] at hroom
  have hiff := @pads_none_iff (d.leftJustified args) (.zero ∈ d.flags) _ _ width _
    (d.givenWidth args)
    _ _ _ (d.digitCount args) hwidth octalLength_le length_of_octal hroom
  have hzeroes : d.codeZeroes args =
      d.octalLength + (max 1 (d.digitCount args) - d.digitCount args) := by
    rw [codeZeroes, hvalue]
    omega
  have hzeroes' : d.ansiZeroes args = max (1 - d.digitCount args) d.octalLength := by
    rw [ansiZeroes, hgiven, Option.getD_none]
  rw [SamePads, ansiFill_eq hhex, hvalue, hzeroes, hzeroes',
    pads_congr (show _ ↔ (.zero ∈ d.flags) from and_iff_left hgiven), hiff]

theorem printsAnsi_iff_of_none (hgiven : d.givenPrecision args = none)
    (hvalue : (d.precisionValue args).toInt = -1) : d.PrintsAnsi args ↔
      Fits args d (d.roomFor args (d.precisionValue args).toInt) ∧
        (d.value args = 0 → d.hexText = []) ∧
        d.SamePads args := by
  have hmax : LONG_MAX.toInt = 2147483647 := rfl
  have hroom : d.roomFor args ((d.givenPrecision args).getD 0 : ℕ) =
      d.roomFor args (d.precisionValue args).toInt := by
    apply roomFor_congr
    rw [hvalue, hgiven, Option.getD_none]
    omega
  have hsmall : ((d.givenPrecision args).getD 0 : ℤ) ≤ LONG_MAX.toInt := by
    rw [hgiven, hmax, Option.getD_none]
    decide
  have hcount := @digitCount_eq_zero_iff args d
  constructor
  · intro ⟨hplain, _⟩
    obtain ⟨hzero, hoctal, -, hlow, hhigh⟩ := hplain hsmall
    have hhex : d.value args = 0 → d.hexText = [] := fun h0 => hexText_eq_nil_iff.mpr (hzero h0).2
    rw [hroom] at hlow hhigh
    refine ⟨⟨hlow, hhigh⟩, hhex, (samePads_iff_of_none hgiven hvalue hhex).mpr ?_⟩
    intro hone
    obtain ⟨hspecial, hletter⟩ := octalLength_eq_one_iff.mp hone
    rcases hoctal hspecial hletter with ⟨hne, -⟩ | ⟨-, hzero⟩
    · exact .inl fun h0 => hne (hcount.mp h0)
    · exact .inr hzero
  · intro ⟨⟨hlow, hhigh⟩, hhex, hsame⟩
    have hoctal := (samePads_iff_of_none hgiven hvalue hhex).mp hsame
    rw [← hroom] at hlow hhigh
    refine ⟨fun _ => ⟨?_, ?_, ?_, hlow, hhigh⟩, fun hlt => absurd hlt (not_lt.mpr hsmall)⟩
    · intro h0
      refine ⟨?_, hexText_eq_nil_iff.mp (hhex h0)⟩
      rw [hgiven]
      simp
    · intro hspecial hletter
      rcases hoctal (octalLength_eq_one_iff.mpr ⟨hspecial, hletter⟩) with hne | hzero
      · refine .inl ⟨fun h0 => hne (hcount.mpr h0), ?_⟩
        rw [hgiven]
        exact Nat.zero_le _
      · exact .inr ⟨hgiven, hzero⟩
    · intro _ _ hne
      exact absurd hgiven hne

/-- With a precision the flag `0` has no part in the padding of ANSI C. -/
theorem samePads_eq_of_some {q : ℕ} (hgiven : d.givenPrecision args = some q)
    (hhex : d.value args = 0 → d.hexText = []) : d.SamePads args ↔
      pads (d.leftJustified args) (.zero ∈ d.flags) (d.codeZeroes args)
          (d.roomFor args (d.precisionValue args).toInt).toNat =
        pads (d.leftJustified args) False (max (q - d.digitCount args) d.octalLength)
          (d.givenWidth args - ((d.ansiSign args).length + d.hexText.length +
            (max (q - d.digitCount args) d.octalLength + d.digitCount args))) := by
  have hzero : (.zero ∈ d.flags ∧ d.givenPrecision args = none) ↔ False := by simp [hgiven]
  have hzeroes : d.ansiZeroes args = max (q - d.digitCount args) d.octalLength := by
    rw [ansiZeroes, hgiven, Option.getD_some]
  rw [SamePads, ansiFill_eq hhex, hzeroes, pads_congr hzero]

theorem printsAnsi_iff_of_some {q : ℕ} (hgiven : d.givenPrecision args = some q)
    (hvalue : (d.precisionValue args).toInt = q) (hq : q < 2 ^ 31) : d.PrintsAnsi args ↔
      Fits args d (d.roomFor args (d.precisionValue args).toInt) ∧
        (d.value args = 0 → d.hexText = []) ∧
        d.SamePads args := by
  have hmax : LONG_MAX.toInt = 2147483647 := rfl
  have hsmall : ((d.givenPrecision args).getD 0 : ℤ) ≤ LONG_MAX.toInt := by
    rw [hgiven, hmax, Option.getD_some]
    omega
  have hcount := @digitCount_eq_zero_iff args d
  have hsame (hhex : d.value args = 0 → d.hexText = []) : d.SamePads args ↔
      (d.digitCount args = 0 → q ≠ 0) ∧
        (d.octalLength = 1 → d.digitCount args ≠ 0 ∧ q ≤ d.digitCount args) ∧
        (.zero ∈ d.flags → ¬ d.leftJustified args → d.roomFor args q ≤ 0) := by
    obtain ⟨width, hwidth, hroom⟩ := @roomFor_eq args d q
    have hzeroes : d.codeZeroes args =
        d.octalLength + (max (max 1 (d.digitCount args)) q - d.digitCount args) := by
      rw [codeZeroes, hvalue]
      omega
    rw [samePads_eq_of_some hgiven hhex, hzeroes, hvalue]
    exact pads_some_iff hwidth octalLength_le (by push_cast; exact hroom)
  constructor
  · intro ⟨hplain, _⟩
    obtain ⟨hzero, hoctal, hpad, hlow, hhigh⟩ := hplain hsmall
    have hhex : d.value args = 0 → d.hexText = [] := fun h0 => hexText_eq_nil_iff.mpr (hzero h0).2
    rw [hgiven, Option.getD_some] at hlow hhigh hpad hoctal
    rw [← hvalue] at hlow hhigh
    refine ⟨⟨hlow, hhigh⟩, hhex, (hsame hhex).mpr ⟨?_, ?_, ?_⟩⟩
    · intro h0 hq0
      exact (hzero (hcount.mp h0)).1 (by rw [hgiven, hq0])
    · intro hone
      obtain ⟨hspecial, hletter⟩ := octalLength_eq_one_iff.mp hone
      rcases hoctal hspecial hletter with ⟨hne, hle⟩ | ⟨hnone, -⟩
      · exact ⟨fun h0 => hne (hcount.mp h0), hle⟩
      · cases hnone
    · intro hz hl
      exact hpad hz hl (by simp)
  · intro ⟨⟨hlow, hhigh⟩, hhex, h⟩
    obtain ⟨hzero, hoctal, hpad⟩ := (hsame hhex).mp h
    rw [hvalue] at hlow hhigh
    refine ⟨fun _ => ⟨?_, ?_, ?_, ?_, ?_⟩, fun hlt => absurd hlt (not_lt.mpr hsmall)⟩
    · intro h0
      refine ⟨?_, hexText_eq_nil_iff.mp (hhex h0)⟩
      rw [hgiven]
      exact fun hq0 => hzero (hcount.mpr h0) (Option.some.inj hq0)
    · intro hspecial hletter
      obtain ⟨hne, hle⟩ := hoctal (octalLength_eq_one_iff.mpr ⟨hspecial, hletter⟩)
      rw [hgiven]
      exact .inl ⟨fun h0 => hne (hcount.mpr h0), hle⟩
    · intro hz hl _
      rw [hgiven]
      exact hpad hz hl
    · rw [hgiven]
      exact hlow
    · rw [hgiven]
      exact hhigh

/-- A text that is padded to the precision: the counter wraps unless `precision` is 0. -/
theorem fits_iff_of_huge {q : ℕ}
    (hvalue : (d.precisionValue args).toInt = (if q % 2 ^ 32 < 2 ^ 31 then q % 2 ^ 32 else 0 : ℕ))
    (hq : 2 ^ 31 ≤ q) (hw : d.givenWidth args + d.octalLength = d.markLength args + q) :
    Fits args d (d.roomFor args (d.precisionValue args).toInt) ↔
      d.roomFor args 0 ≤ LONG_MAX.toInt := by
  have hmin : LONG_MIN.toInt = -2147483648 := rfl
  have hmax : LONG_MAX.toInt = 2147483647 := rfl
  have hloops := loops_le (d.numberType args)
  have hcount := @digitCount_le args d
  have hoctal := @octalLength_le d
  have hroom (c : ℤ) : d.roomFor args c =
      q - d.octalLength - max (max 1 (d.digitCount args) : ℤ) c := by
    have hwidth : d.width ≠ .absent := fun h => by
      have hzero := @givenWidth_of_absent args d h
      omega
    rw [roomFor, if_neg hwidth]
    omega
  have hcase : (d.precisionValue args).toInt = 0 ∨
      0 ≤ (d.precisionValue args).toInt ∧ (2 : ℤ) ^ 32 + (d.precisionValue args).toInt ≤ q := by
    split_ifs at hvalue <;> omega
  rw [Fits, hroom, hroom, hmin, hmax]
  clear hvalue hroom
  rcases hcase with h0 | ⟨hpos, hle⟩
  · rw [h0]
    omega
  · generalize (d.precisionValue args).toInt = c at *
    refine iff_of_false ?_ ?_ <;> omega

theorem printsAnsi_iff_of_huge {q : ℕ} (hgiven : d.givenPrecision args = some q)
    (hvalue : (d.precisionValue args).toInt = (if q % 2 ^ 32 < 2 ^ 31 then q % 2 ^ 32 else 0 : ℕ))
    (hq : 2 ^ 31 ≤ q) : d.PrintsAnsi args ↔
      Fits args d (d.roomFor args (d.precisionValue args).toInt) ∧
        (d.value args = 0 → d.hexText = []) ∧
        d.SamePads args := by
  have hmax : LONG_MAX.toInt = 2147483647 := rfl
  have hlarge : LONG_MAX.toInt < ((d.givenPrecision args).getD 0 : ℤ) := by
    rw [hgiven, hmax, Option.getD_some]
    omega
  obtain ⟨width, hwidth, hroom⟩ := @roomFor_eq args d (d.precisionValue args).toInt
  have hsame (hhex : d.value args = 0 → d.hexText = []) : d.SamePads args ↔
        .zero ∈ d.flags ∧ ¬ d.leftJustified args ∧
          d.givenWidth args + d.octalLength = d.markLength args + q := by
    rw [samePads_eq_of_some hgiven hhex, markLength_eq]
    exact pads_huge_iff hwidth octalLength_le digitCount_le hq hvalue hroom
  constructor
  · intro ⟨_, hpadded⟩
    obtain ⟨hz, hl, hhex, hw, hhigh⟩ := hpadded hlarge
    have hhex' : d.value args = 0 → d.hexText = [] := fun h0 => hexText_eq_nil_iff.mpr (hhex h0)
    rw [hgiven, Option.getD_some] at hw
    exact ⟨(fits_iff_of_huge hvalue hq hw).mpr hhigh, hhex', (hsame hhex').mpr ⟨hz, hl, hw⟩⟩
  · intro ⟨hfits, hhex, h⟩
    obtain ⟨hz, hl, hw⟩ := (hsame hhex).mp h
    have hhigh := (fits_iff_of_huge hvalue hq hw).mp hfits
    rw [← Option.getD_some (a := q) (b := 0), ← hgiven] at hw
    exact ⟨fun hsmall => absurd hlarge (not_lt.mpr hsmall), fun _ =>
      ⟨hz, hl, fun h0 => hexText_eq_nil_iff.mp (hhex h0), hw, hhigh⟩⟩

/-- The condition says that no counter wraps, and that prefix, zeroes and blanks are right. -/
theorem printsAnsi_iff (hp : d.precision = .star → 0 ≤ (args d.widthArgs).toInt) :
    d.PrintsAnsi args ↔
    Fits args d (d.roomFor args (d.precisionValue args).toInt) ∧
      (d.value args = 0 → d.hexText = []) ∧
      d.SamePads args := by
  rcases precision_cases hp with ⟨hgiven, hvalue⟩ | ⟨q, hgiven, hvalue⟩
  · exact printsAnsi_iff_of_none hgiven hvalue
  · by_cases hq : q < 2 ^ 31
    · have hmod : q % 2 ^ 32 = q := Nat.mod_eq_of_lt (by omega)
      rw [hmod, if_pos hq] at hvalue
      exact printsAnsi_iff_of_some hgiven hvalue hq
    · exact printsAnsi_iff_of_huge hgiven hvalue (not_lt.mp hq)

/-- The layouts are the same where their parts are. -/
theorem layout_eq_iff :
    layout (d.ansiSign args) d.hexText (d.ansiDigits args)
        (pads (d.leftJustified args) (.zero ∈ d.flags) (d.codeZeroes args)
          (d.roomFor args (d.precisionValue args).toInt).toNat) = d.ansiText args ↔
      (d.value args = 0 → d.hexText = []) ∧ d.SamePads args := by
  rw [ansiText_eq]
  by_cases hhex : d.value args = 0 → d.hexText = []
  · have hsame : d.ansiPrefix args = d.hexText := by
      rw [ansiPrefix_eq]
      split_ifs with h0
      · exact (hhex h0).symm
      · rfl
    rw [hsame, layout_pads_inj]
    exact (and_iff_right hhex).symm
  · refine iff_of_false ?_ fun h => hhex h.1
    intro h
    apply hhex
    intro h0
    rw [ansiPrefix_eq, if_pos h0] at h
    exact hexText_eq_nil_of_layout h0 h

/-- Only texts of one length can be the same. -/
theorem fits_of_length (hp : d.precision = .star → 0 ≤ (args d.widthArgs).toInt) {text : List Byte}
    (h : number (d.operand args) d.letter.base (d.fieldWidth args) (d.precisionValue args)
      (d.numberType args) = some text) (hlen : text.length = (d.ansiText args).length) :
    Fits args d (d.roomFor args (d.precisionValue args).toInt) := by
  have hcount := @digitCount_le args d
  have hsign : (d.ansiSign args).length ≤ 1 := by
    rw [length_ansiSign]
    exact signLength_le _ _
  have hhex : d.hexText.length ≤ 2 := by
    rw [length_hexText_eq]
    split_ifs <;> omega
  have hansi : (d.ansiPrefix args).length ≤ d.hexText.length := by
    rw [length_ansiPrefix]
    split_ifs <;> omega
  have hoctal := @octalLength_le d
  obtain ⟨width, hwidth, hroom⟩ := @roomFor_eq args d (d.precisionValue args).toInt
  have hlength := length_number h
  rw [hlen, length_ansiText, markLength_eq] at hlength
  -- the text of ANSI C is no longer than the parts of the code, unless the precision is reduced
  have hbody : (((d.ansiSign args).length + (d.ansiPrefix args).length +
        (d.ansiZeroes args + d.digitCount args) : ℕ) : ℤ) ≤
          ((d.ansiSign args).length + (d.hexText.length + d.octalLength) : ℕ) +
            max (max 1 (d.digitCount args) : ℤ) (d.precisionValue args).toInt ∨
      (d.precisionValue args).toInt = 0 ∧ (2 : ℤ) ^ 31 ≤ ((d.ansiSign args).length +
        (d.ansiPrefix args).length + (d.ansiZeroes args + d.digitCount args) : ℕ) ∨
      (2 : ℤ) ^ 32 + (d.precisionValue args).toInt ≤ ((d.ansiSign args).length +
        (d.ansiPrefix args).length + (d.ansiZeroes args + d.digitCount args) : ℕ) := by
    unfold ansiZeroes
    rcases precision_cases hp with ⟨hgiven, hvalue⟩ | ⟨q, hgiven, hvalue⟩
    · left
      rw [hgiven, Option.getD_none]
      omega
    · rw [hgiven, Option.getD_some]
      split_ifs at hvalue with hmod
      · by_cases hq : q < 2 ^ 31
        · left
          omega
        · right
          right
          omega
      · right
        left
        omega
  have hprecision : -1 ≤ (d.precisionValue args).toInt ∧
      (d.precisionValue args).toInt < 2 ^ 31 := by
    rcases precision_cases hp with ⟨-, hvalue⟩ | ⟨q, -, hvalue⟩
    · omega
    · split_ifs at hvalue <;> omega
  exact room_of_length hroom hwidth (by omega) hcount (loops_le _) hprecision
    (by exact_mod_cast hbody)
    (by push_cast at hlength ⊢; exact hlength.symm)

/-- **The integer conversions** print what ANSI C prescribes exactly under the condition. -/
theorem ansi_iff (mem : BitVec 32 → Option Byte)
    (hp : d.precision = .star → 0 ≤ (args d.widthArgs).toInt) :
    vsprintf mem d.format args = some { text := d.ansiText args } ↔ d.PrintsAnsi args := by
  rw [printsAnsi_iff hp, vsprintf_format]
  constructor
  · intro h
    obtain ⟨text, hnumber, htext⟩ := Option.map_eq_some_iff.mp h
    have heq : text = d.ansiText args := congrArg Output.text htext
    have hfits := fits_of_length hp hnumber (congrArg List.length heq)
    refine ⟨hfits, ?_⟩
    rw [number_eq_ansiLayout hfits.1 hfits.2] at hnumber
    exact layout_eq_iff.mp ((Option.some.inj hnumber).trans heq)
  · intro ⟨hfits, hsame⟩
    rw [number_eq_ansiLayout hfits.1 hfits.2, Option.map_some, layout_eq_iff.mpr hsame]

/-- `%+6.*d` with the precision 3 -/
theorem ansi_iff_sample :
    let d : Directive := ⟨⟨[.plus], .literal 6 (by decide), .star⟩, .d⟩
    let args : ℕ → BitVec 32 := fun k => if k = 0 then 3 else 42
    vsprintf (fun _ => none) d.format args = some { text := d.ansiText args } ↔ d.PrintsAnsi args :=
  ansi_iff _ fun _ => by decide

/-- `%.0d` of 0 is not empty. -/
theorem not_ansi_sample :
    let d : Directive := ⟨⟨[], .absent, .literal [0] (by decide)⟩, .d⟩
    vsprintf (fun _ => none) d.format (fun _ => 0) ≠ some { text := d.ansiText fun _ => 0 } := by
  intro d h
  rw [vsprintf_format] at h
  obtain ⟨text, hnumber, htext⟩ := Option.map_eq_some_iff.mp h
  have hlen := length_number hnumber
  have hempty : d.ansiText (fun _ => 0) = [] := by
    simp [d, ansiText, ansiSign, ansiPrefix, ansiNumber, ansiPrecise, ansiDigits, Fields.givenWidth,
      Fields.givenPrecision, value, operand, Conversion.signed]
  rw [← show text = d.ansiText fun _ => 0 from congrArg Output.text htext] at hempty
  have hmax : 0 ≤ LONG_MAX.toInt := by decide
  rw [hempty, List.length_nil] at hlen
  split_ifs at hlen <;> omega

end Directive

end Mwdd32.Util
