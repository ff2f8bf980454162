import Mwdd32.Util.Format

/-!
# Printing and parsing

The integer conversions of `vsprintf` against `strtol`, `strtoul` and `atol`.

* `vsprintf_format`: a format with one integer conversion prints the text of
  `number`.
* `roundTrips_iff`: the text is parsed back, with the end pointer after the last
  digit, unless the field width is a literal that wraps to `LONG_MIN` plus the
  length of the text. Then `size` runs out at `LONG_MIN`, and the next
  `size-- > 0` writes `LONG_MAX` blanks between the sign or the prefix and the
  digits.
-/

namespace Mwdd32.Util

/-! ## Formats -/

/-- The conversion letters in question. -/
inductive Letter
  | d
  | u
  | x
  | X
  | o
  deriving DecidableEq, Repr

/-- The letter -/
def Letter.char : Letter → Byte
  | d => ch 'd'
  | u => ch 'u'
  | x => ch 'x'
  | X => ch 'X'
  | o => ch 'o'

/-- The base of the digits -/
def Letter.base : Letter → ℕ
  | d => 10
  | u => 10
  | x => 16
  | X => 16
  | o => 8

/-- A format that consists of one conversion without precision and qualifier. -/
structure Format where
  flags : List Flag
  width : Width
  letter : Letter
  deriving DecidableEq, Repr

namespace Format

variable (mem : BitVec 32 → Option Byte) (args : ℕ → BitVec 32) (f : Format)

/-- The format as it is written -/
def text : List Byte := ch '%' :: (f.flags.map Flag.char ++ (f.width.text ++ [f.letter.char]))

/-- The argument that is converted. -/
def operand : BitVec 32 := args (if f.width = .star then 1 else 0)

/-- The field width that the format asks for. -/
def fieldWidth : BitVec 32 :=
  match f.width with
  | .absent => -1
  | .literal w _ => BitVec.ofNat 32 w
  | .star => if (args 0).slt 0#32 then -args 0 else args 0

/-- The flags `number` is called with. A negative width argument stands for `-`. -/
def type : Flags where
  zeropad := .zero ∈ f.flags
  sign := f.letter = .d
  plus := .plus ∈ f.flags
  space := .space ∈ f.flags
  left := .minus ∈ f.flags ∨ (f.width = .star ∧ (args 0).slt 0#32)
  special := .special ∈ f.flags
  large := f.letter = .X

end Format

/-! ## What `vsprintf` reads of a format -/

namespace Format

variable {mem : BitVec 32 → Option Byte} {args : ℕ → BitVec 32} {f : Format}

/-- The letter of an integer conversion is read as nothing else. -/
theorem isLetter_char (l : Letter) : IsLetter l.char := by
  apply isLetter_of_mem
  cases l <;> decide

/-- Flags and width, without precision -/
def fields (f : Format) : Fields where
  flags := f.flags
  width := f.width
  precision := .absent

/-- What `vsprintf` makes of the format up to the letter. -/
def spec (args : ℕ → BitVec 32) (f : Format) : Spec where
  flags := { f.type args with sign := false, large := false }
  field_width := f.fieldWidth args
  fmt := [f.letter.char]
  arg := if f.width = .star then 1 else 0

theorem spec_fields : f.fields.spec args f.letter.char = f.spec args := by
  obtain ⟨flags, width, letter⟩ := f
  cases width <;> rfl

/-- The conversion that the letter selects. -/
theorem convert_spec :
    (f.spec args).convert mem args {} =
      (number (f.operand args) f.letter.base (f.fieldWidth args) (-1) (f.type args)).map
        fun text => ({ text }, (f.spec args).arg + 1) := by
  obtain ⟨flags, width, letter⟩ := f
  cases letter <;>
    simp [Spec.convert, spec, Letter.char, ch, Letter.base, Spec.integer, type, operand, Output.put]

/-- **A format with one integer conversion** prints the text of `number`. -/
theorem vsprintf_format :
    vsprintf mem f.text args =
      (number (f.operand args) f.letter.base (f.fieldWidth args) (-1) (f.type args)).map
        fun text => { text } := by
  have htext : f.text = ch '%' :: (f.fields.text ++ [f.letter.char]) := by
    simp [text, fields, Fields.text, Precision.text]
  rw [htext, f.fields.vsprintf_text mem (isLetter_char f.letter), spec_fields, convert_spec]
  rw [Option.map_map]
  rfl

end Format

/-! ## The round trip -/

/-- The string at the start of a buffer. -/
def cstr (buf : List Byte) : List Byte := buf.takeWhile (· ≠ 0)

/-- `rest` is what follows the last digit of `text`. -/
def JustAfterLastDigit (radix : ℕ) (text rest : List Byte) : Prop :=
  ∃ before c, text = before ++ c :: rest ∧ isDigitOf radix c = true ∧
    ∀ c' ∈ rest, isDigitOf radix c' = false

/-- A conversion gave the number `n` and an end pointer after the last digit. -/
def ParsedBack (radix : ℕ) (text : List Byte) (n : BitVec 32) (r : BitVec 32 × List Byte) : Prop :=
  r.1 = n ∧ JustAfterLastDigit radix text r.2

namespace Format

variable (mem : BitVec 32 → Option Byte) (args : ℕ → BitVec 32) (f : Format)

/-- `vsprintf` with the format `f` gives a text that is parsed back to the argument: by
    `strtol` and `atol` for `%d`, otherwise by `strtoul` in the base of the letter, and
    with `#` also in radix 0 if the letter has a prefix. -/
def RoundTrips : Prop :=
  ∃ out, vsprintf mem f.text args = some out ∧
    match f.letter with
    | .d => ParsedBack 10 (cstr out.buf) (f.operand args) (strtol (cstr out.buf) 10) ∧
        atol (cstr out.buf) = f.operand args
    | .u => ParsedBack 10 (cstr out.buf) (f.operand args) (strtoul (cstr out.buf) 10)
    | l => ParsedBack l.base (cstr out.buf) (f.operand args) (strtoul (cstr out.buf) l.base) ∧
        (.special ∈ f.flags →
          ParsedBack l.base (cstr out.buf) (f.operand args) (strtoul (cstr out.buf) 0))

/-- The number of characters before the digits: a sign or a blank, and a prefix. -/
def leadLength (n : BitVec 32) : ℕ :=
  match f.letter with
  | .d => if n.slt 0#32 ∨ .plus ∈ f.flags ∨ .space ∈ f.flags then 1 else 0
  | .u => 0
  | .x | .X => if .special ∈ f.flags then 2 else 0
  | .o => if .special ∈ f.flags then 1 else 0

/-- A sign or a prefix stands before the digits. -/
def Marked (n : BitVec 32) : Prop :=
  match f.letter with
  | .d => n.slt 0#32 ∨ .plus ∈ f.flags
  | .u => False
  | .x | .X | .o => .special ∈ f.flags

/-- The number of digits of `n`. -/
def digitCount (n : BitVec 32) : ℕ :=
  max 1 (Nat.digits f.letter.base (if f.letter = .d ∧ n.slt 0#32 then -n else n).toNat).length

/-- Neither `-` nor `0` is given, and the width is a literal that wraps to `LONG_MIN` plus
    the length of the text. -/
def Wraps (n : BitVec 32) : Prop :=
  (∃ w pos, f.width = .literal w pos ∧
      w % 2 ^ 32 = LONG_MIN.toNat + f.leadLength n + f.digitCount n) ∧
    .minus ∉ f.flags ∧ .zero ∉ f.flags

/-- Blanks go between a sign or a prefix and the digits. -/
def PadsInside (n : BitVec 32) : Prop := f.Wraps n ∧ f.Marked n

end Format

/-! ## The text -/

namespace Format

variable (args : ℕ → BitVec 32) (f : Format)

theorem length_lead (n : BitVec 32) :
    (signText (f.type args) n).length + (specialText (f.type args) f.letter.base).length =
      f.leadLength n := by
  obtain ⟨flags, width, letter⟩ := f
  cases letter <;> simp [signText, specialText, type, Letter.base, leadLength] <;> split_ifs <;>
    simp_all

theorem magnitude_type (n : BitVec 32) :
    magnitude (f.type args) n = if f.letter = .d ∧ n.slt 0#32 then -n else n := by
  simp [magnitude, type]

theorem two_le_base (l : Letter) : 2 ≤ l.base ∧ l.base ≤ 16 := by cases l <;> decide

theorem length_digitsText (n : BitVec 32) :
    (digitsText (f.type args) f.letter.base (magnitude (f.type args) n)).length =
      f.digitCount n := by
  rw [length_digitsText_eq _ (two_le_base f.letter).1, magnitude_type, digitCount]

/-- The room left for padding. -/
def room (n : BitVec 32) : BitVec 32 :=
  f.fieldWidth args - BitVec.ofNat 32 (signText (f.type args) n).length -
    BitVec.ofNat 32 (specialText (f.type args) f.letter.base).length -
    BitVec.ofNat 32 (digitsText (f.type args) f.letter.base (magnitude (f.type args) n)).length

/-- Only a literal width reaches `LONG_MIN` without `-`. -/
theorem wraps_iff (n : BitVec 32) :
    f.Wraps n ↔ f.room args n = LONG_MIN ∧ (f.type args).left = false ∧
      (f.type args).zeropad = false := by
  have hlead := length_lead args f n
  have hdigits := length_digitsText args f n
  have hmax := length_digitsText_le (f.type args) (two_le_base f.letter).1
    (magnitude (f.type args) n)
  have hsmall : f.leadLength n ≤ 2 := by
    unfold leadLength
    split <;> first | omega | (split_ifs <;> omega)
  have hroom : f.room args n = LONG_MIN ↔
      (f.fieldWidth args).toNat = LONG_MIN.toNat + f.leadLength n + f.digitCount n := by
    have hmin : LONG_MIN.toNat = 2147483648 := rfl
    rw [← hlead, ← hdigits, room]
    generalize (signText (f.type args) n).length = a at *
    generalize (specialText (f.type args) f.letter.base).length = b at *
    generalize (digitsText (f.type args) f.letter.base (magnitude (f.type args) n)).length = c at *
    bv_omega
  have hzero : (f.type args).zeropad = false ↔ .zero ∉ f.flags := decide_eq_false_iff_not
  have hleft : (f.type args).left = false ↔
      .minus ∉ f.flags ∧ ¬ (f.width = .star ∧ (args 0).slt 0#32 = true) := by
    simp only [type, decide_eq_false_iff_not, not_or]
  rw [hroom, hleft, hzero, Wraps]
  constructor
  · intro h
    obtain ⟨⟨w, pos, hw, hmod⟩, hm, hz⟩ := h
    refine ⟨?_, ⟨hm, ?_⟩, hz⟩
    · rw [fieldWidth, hw, BitVec.toNat_ofNat]
      exact hmod
    · rw [hw]
      simp
  · intro h
    obtain ⟨hwidth, ⟨hm, hstar⟩, hz⟩ := h
    refine ⟨?_, hm, hz⟩
    have hmin : LONG_MIN.toNat = 2147483648 := rfl
    rw [fieldWidth] at hwidth
    cases hw : f.width with
    | absent =>
      have hone : (-1 : BitVec 32).toNat = 4294967295 := rfl
      rw [hw] at hwidth
      dsimp only at hwidth
      omega
    | star =>
      rw [hw] at hwidth
      have hneg : ¬ (args 0).slt 0#32 = true := fun h => hstar ⟨hw, h⟩
      dsimp only at hwidth
      rw [if_neg hneg] at hwidth
      rw [slt_zero_iff] at hneg
      omega
    | literal w pos =>
      rw [hw] at hwidth
      dsimp only at hwidth
      rw [BitVec.toNat_ofNat] at hwidth
      exact ⟨w, pos, rfl, hwidth⟩

theorem innerPad_of_wraps {n : BitVec 32} (h : f.Wraps n) :
    innerPad (f.type args) (f.room args n) = List.replicate LONG_MAX.toNat (ch ' ') := by
  obtain ⟨hroom, hleft, hzero⟩ := (wraps_iff args f n).mp h
  simp [innerPad, hroom, hleft, hzero]

theorem innerPad_of_not_wraps {n : BitVec 32} (h : ¬ f.Wraps n) :
    ∃ z, innerPad (f.type args) (f.room args n) = List.replicate z (ch '0') := by
  rw [wraps_iff args] at h
  unfold innerPad
  split_ifs with hleft hzero hroom
  · exact ⟨0, rfl⟩
  · exact ⟨_, rfl⟩
  · simp [hleft, hzero, hroom] at h
  · exact ⟨0, rfl⟩

/-- What stands for the sign: a blank, or a sign that parsing reads. -/
theorem signText_split (n : BitVec 32) :
    ∃ k sgn, signText (f.type args) n = List.replicate k (ch ' ') ++ sgn ∧
      SignText (decide (f.letter = .d ∧ n.slt 0#32 = true)) sgn ∧
        (¬ f.Marked n → sgn = []) := by
  by_cases hd : f.letter = .d
  · by_cases hneg : n.slt 0#32 = true
    · refine ⟨0, [ch '-'], by simp [signText, type, hd, hneg], ?_, ?_⟩
      · simpa [hd, hneg] using SignText.minus
      · simp [Marked, hd, hneg]
    · by_cases hplus : .plus ∈ f.flags
      · refine ⟨0, [ch '+'], by simp [signText, type, hd, hneg, hplus], ?_, ?_⟩
        · simpa [hd, hneg] using SignText.plus
        · simp [Marked, hd, hplus]
      · refine ⟨if .space ∈ f.flags then 1 else 0, [], ?_, ?_, fun _ => rfl⟩
        · by_cases hspace : .space ∈ f.flags <;> simp [signText, type, hd, hneg, hplus, hspace]
        · simpa [hd, hneg] using SignText.none
  · refine ⟨0, [], by simp [signText, type, hd], ?_, fun _ => rfl⟩
    simpa [hd] using SignText.none

theorem specialText_of_not_marked {n : BitVec 32} (h : ¬ f.Marked n) :
    specialText (f.type args) f.letter.base = [] := by
  obtain ⟨flags, width, letter⟩ := f
  cases letter <;> simp_all [specialText, type, Letter.base, Marked]

/-- The text with the padding where it belongs: blanks, sign, prefix, digits, blanks. -/
theorem number_of_not_padsInside {n : BitVec 32} (h : ¬ f.PadsInside n) :
    ∃ l sgn z r, number n f.letter.base (f.fieldWidth args) (-1) (f.type args) = some
        (List.replicate l (ch ' ') ++ (sgn ++ (specialText (f.type args) f.letter.base ++
          (List.replicate z (ch '0') ++
            digitsText (f.type args) f.letter.base (magnitude (f.type args) n) ++
            List.replicate r (ch ' '))))) ∧
      SignText (decide (f.letter = .d ∧ n.slt 0#32 = true)) sgn := by
  have hbase := two_le_base f.letter
  obtain ⟨lead, trail, hnumber⟩ :=
    number_eq_layout n hbase.1 (by omega) (f.fieldWidth args) (f.type args)
  obtain ⟨k, sgn, hsign, hsgn, hnil⟩ := signText_split args f n
  change number _ _ _ _ _ = some (_ ++ _ ++ _ ++ innerPad _ (f.room args n) ++ _ ++ _) at hnumber
  by_cases hw : f.Wraps n
  · have hm : ¬ f.Marked n := fun hm => h ⟨hw, hm⟩
    have hspecial := specialText_of_not_marked args f hm
    have hpad := innerPad_of_wraps args f hw
    have hempty := hnil hm
    subst hempty
    refine ⟨lead + (k + LONG_MAX.toNat), [], 0, trail, ?_, hsgn⟩
    rw [hnumber, hpad, hsign, hspecial, ← List.replicate_append_replicate,
      ← List.replicate_append_replicate]
    simp only [List.append_assoc, List.append_nil, List.nil_append, List.replicate_zero]
  · obtain ⟨z, hz⟩ := innerPad_of_not_wraps args f hw
    refine ⟨lead + k, sgn, z, trail, ?_, hsgn⟩
    rw [hnumber, hz, hsign, ← List.replicate_append_replicate]
    simp only [List.append_assoc]

end Format

/-! ## Parsing the text -/

theorem spells_replicate_zero {radix : ℕ} (h : 0 < radix) (z : ℕ) :
    Spells radix (List.replicate z (ch '0')) (List.replicate z 0) := by
  refine ⟨?_, ?_⟩
  · rw [List.map_replicate, List.map_replicate]
    rfl
  · intro d hd
    rwa [List.eq_of_mem_replicate hd]

/-- Zero padding and digits spell the number. -/
theorem exists_spells_digitsText (type : Flags) {base : ℕ} (h2 : 2 ≤ base) (h36 : base ≤ 36) (z : ℕ)
    (m : BitVec 32) :
    ∃ ds, Spells base (List.replicate z (ch '0') ++ digitsText type base m) ds ∧ ds ≠ [] ∧
      Numeral.value base 0 ds = m.toNat := by
  have hz : Spells base (List.replicate z (ch '0')) (List.replicate z 0) :=
    spells_replicate_zero (by omega) z
  by_cases h0 : m = 0
  · subst h0
    have hone : Spells base (digitsText type base 0) [0] := spells_replicate_zero (by omega) 1
    refine ⟨_, hz.append hone, by simp, ?_⟩
    rw [Numeral.value_append, Numeral.value_replicate_zero]
    simp
  · have hm : Nat.digits base m.toNat ≠ [] := by
      rw [Nat.digits_ne_nil_iff_ne_zero]
      exact fun h => h0 (BitVec.eq_of_toNat_eq h)
    have hdigits : Spells base (digitsText type base m) (Nat.digits base m.toNat).reverse := by
      rw [digitsText, if_neg h0, divLoop_eq _ h2, ← List.map_reverse]
      refine spells_digits type h36 ?_
      intro d hd
      exact Nat.digits_lt_base h2 (List.mem_reverse.mp hd)
    refine ⟨_, hz.append hdigits, by simp [hm], ?_⟩
    rw [Numeral.value_append, Numeral.value_replicate_zero, Numeral.value_digits]

/-- Nothing but blanks follows the digits. -/
theorem peek_replicate_blank (r : ℕ) :
    peek (List.replicate r (ch ' ')) = ch ' ' ∨ peek (List.replicate r (ch ' ')) = 0 := by
  cases r with
  | zero => exact Or.inr rfl
  | succ r => exact Or.inl rfl

theorem isDigitOf_peek_blank (radix r : ℕ) :
    isDigitOf radix (peek (List.replicate r (ch ' '))) = false := by
  rcases peek_replicate_blank r with h | h <;> rw [h] <;> rfl

/-- The end of a numeral is just after its last digit. -/
theorem justAfterLastDigit_append {radix : ℕ} {body : List Byte} {ds : List ℕ}
    (h : Spells radix body ds) (hne : ds ≠ []) (front : List Byte) (r : ℕ) :
    JustAfterLastDigit radix (front ++ (body ++ List.replicate r (ch ' ')))
      (List.replicate r (ch ' ')) := by
  have hbody : body ≠ [] := by
    rintro rfl
    exact hne (by simpa using h.1.symm)
  obtain ⟨d, hd, hc⟩ := h.exists_digit (List.getLast_mem hbody)
  refine ⟨front ++ body.dropLast, body.getLast hbody, ?_, ?_, ?_⟩
  · conv_lhs => rw [← List.dropLast_append_getLast hbody]
    simp
  · simpa [isDigitOf, hc] using hd
  · intro c hc
    rw [List.eq_of_mem_replicate hc]
    rfl

/-- An end pointer after a digit is not the start of the string. -/
theorem not_justAfterLastDigit_self (radix : ℕ) (text : List Byte) :
    ¬ JustAfterLastDigit radix text text := by
  intro ⟨before, c, h, _⟩
  have := congrArg List.length h
  simp at this
  omega

/-- No digit of a radix up to 16 is the `x` of a prefix. -/
theorem peek_ne_x {radix : ℕ} (hr : radix ≤ 16) {body : List Byte} {ds : List ℕ}
    (h : Spells radix body ds) (r : ℕ) :
    peek (body ++ List.replicate r (ch ' ')) ≠ ch 'x' ∧
      peek (body ++ List.replicate r (ch ' ')) ≠ ch 'X' := by
  cases body with
  | nil =>
    rw [List.nil_append]
    rcases peek_replicate_blank r with h | h <;> rw [h] <;> decide
  | cons c body =>
    obtain ⟨d, es, -, hc, hd, -⟩ := h.cons_inv
    rw [List.cons_append, peek_cons]
    constructor <;> rintro rfl
    · have : (33 : ℕ) = d := Option.some.inj hc
      omega
    · have : (33 : ℕ) = d := Option.some.inj hc
      omega

theorem ne_zero_of_digitValue {c : Byte} {d : ℕ} (h : digitValue c = some d) : c ≠ 0 := by
  rintro rfl
  have hnone : digitValue 0 = none := by decide
  rw [hnone] at h
  cases h

theorem ne_zero_of_mem_signText {type : Flags} {num : BitVec 32} {c : Byte}
    (h : c ∈ signText type num) : c ≠ 0 := by
  unfold signText at h
  split_ifs at h
  · rw [List.mem_singleton.mp h]
    decide
  · rw [List.mem_singleton.mp h]
    decide
  · rw [List.mem_singleton.mp h]
    decide
  · cases h
  · cases h

theorem specialText_hex {type : Flags} (h : type.special = true) :
    ∃ x, (x = ch 'x' ∨ x = ch 'X') ∧ specialText type 16 = [ch '0', x] := by
  refine ⟨type.digits.getD 33 0, ?_, by simp [specialText, h]⟩
  unfold Flags.digits
  split_ifs
  · exact Or.inr rfl
  · exact Or.inl rfl

theorem ne_zero_of_mem_specialText {type : Flags} {base : ℕ} {c : Byte}
    (h : c ∈ specialText type base) : c ≠ 0 := by
  by_cases hspecial : type.special = true
  · by_cases h16 : base = 16
    · subst h16
      obtain ⟨x, hx, htext⟩ := specialText_hex hspecial
      rw [htext, List.mem_pair] at h
      rcases h with h | h
      · rw [h]
        decide
      · rw [h]
        rcases hx with hx | hx <;> rw [hx] <;> decide
    · unfold specialText at h
      rw [if_pos hspecial, if_neg h16] at h
      split_ifs at h
      · rw [List.mem_singleton.mp h]
        decide
      · simp at h
  · simp [specialText, hspecial] at h

theorem ne_zero_of_mem_innerPad {type : Flags} {room : BitVec 32} {c : Byte}
    (h : c ∈ innerPad type room) : c ≠ 0 := by
  unfold innerPad at h
  split_ifs at h
  · simp at h
  · rw [List.eq_of_mem_replicate h]
    decide
  · rw [List.eq_of_mem_replicate h]
    decide
  · simp at h

theorem ne_zero_of_mem_digitsText {type : Flags} {base : ℕ} (h2 : 2 ≤ base) (h36 : base ≤ 36)
    {m : BitVec 32} {c : Byte} (h : c ∈ digitsText type base m) : c ≠ 0 := by
  obtain ⟨ds, hspells, -⟩ := exists_spells_digitsText type h2 h36 0 m
  obtain ⟨d, -, hd⟩ := hspells.exists_digit (List.mem_append_right _ h)
  exact ne_zero_of_digitValue hd

/-- `number` writes no null. -/
theorem ne_zero_of_mem_number {num : BitVec 32} {base : ℕ} (h2 : 2 ≤ base) (h36 : base ≤ 36)
    {size : BitVec 32} {type : Flags} {text : List Byte}
    (h : number num base size (-1) type = some text) {c : Byte} (hc : c ∈ text) : c ≠ 0 := by
  have hblank : ch ' ' ≠ 0 := by decide
  obtain ⟨lead, trail, hlayout⟩ := number_eq_layout num h2 h36 size type
  rw [hlayout] at h
  rw [← Option.some.inj h] at hc
  simp only [List.mem_append, List.mem_replicate] at hc
  obtain ((((⟨-, rfl⟩ | hc) | hc) | hc) | hc) | ⟨-, rfl⟩ := hc
  · exact hblank
  · exact ne_zero_of_mem_signText hc
  · exact ne_zero_of_mem_specialText hc
  · exact ne_zero_of_mem_innerPad hc
  · exact ne_zero_of_mem_digitsText h2 h36 hc
  · exact hblank

/-- The buffer holds the text up to its null. -/
theorem cstr_buf {text : List Byte} (h : ∀ c ∈ text, c ≠ 0) :
    cstr (Output.buf { text }) = text := by
  rw [cstr, Output.buf, List.takeWhile_append_of_pos (by simpa using h)]
  simp

section Parsed

variable {lim saturated : Bool → BitVec 32} {neg : Bool} {sgn body : List Byte} {ds : List ℕ}
  {n : BitVec 32}

theorem isspace_of_mem_blanks {l : ℕ} {c : Byte} (h : c ∈ List.replicate l (ch ' ')) :
    isspace c = true := by
  rw [List.eq_of_mem_replicate h]
  rfl

theorem parsedBack_numeral {radix : ℕ} (h2 : 2 ≤ radix) (hr : radix ≤ 16) (hsgn : SignText neg sgn)
    (h : Spells radix body ds) (hne : ds ≠ []) (hlim : Numeral.value radix 0 ds ≤ (lim neg).toNat)
    (hn : (if neg then -BitVec.ofNat 32 (Numeral.value radix 0 ds)
      else BitVec.ofNat 32 (Numeral.value radix 0 ds)) = n) (l r : ℕ) :
    ParsedBack radix
      (List.replicate l (ch ' ') ++ (sgn ++ (body ++ List.replicate r (ch ' ')))) n
      (convert lim saturated
        (List.replicate l (ch ' ') ++ (sgn ++ (body ++ List.replicate r (ch ' ')))) radix) := by
  have hx : peek (body ++ List.replicate r (ch ' ')).tail ≠ ch 'x' ∧
      peek (body ++ List.replicate r (ch ' ')).tail ≠ ch 'X' := by
    cases body with
    | nil => exact absurd (by simpa using h.1.symm) hne
    | cons c body =>
      obtain ⟨d, es, -, -, -, hes⟩ := h.cons_inv
      exact peek_ne_x hr hes r
  rw [convert_numeral h2 (by omega) (fun _ => isspace_of_mem_blanks) hsgn h hne
    (isDigitOf_peek_blank radix r) hx hlim, hn]
  refine ⟨rfl, ?_⟩
  rw [← List.append_assoc]
  exact justAfterLastDigit_append h hne _ r

theorem parsedBack_octal (hsgn : SignText neg sgn) (h : Spells 8 body ds) (hne : ds ≠ [])
    (hlim : Numeral.value 8 0 ds ≤ (lim neg).toNat)
    (hn : (if neg then -BitVec.ofNat 32 (Numeral.value 8 0 ds)
      else BitVec.ofNat 32 (Numeral.value 8 0 ds)) = n) (l r : ℕ) :
    ParsedBack 8
      (List.replicate l (ch ' ') ++ (sgn ++ (ch '0' :: (body ++ List.replicate r (ch ' '))))) n
      (convert lim saturated
        (List.replicate l (ch ' ') ++ (sgn ++ (ch '0' :: (body ++ List.replicate r (ch ' ')))))
        0) := by
  have hzero : Spells 8 (ch '0' :: body) (0 :: ds) := (spells_replicate_zero (by decide) 1).append h
  have hvalue : Numeral.value 8 0 (0 :: ds) = Numeral.value 8 0 ds := rfl
  rw [convert_octal (fun _ => isspace_of_mem_blanks) hsgn hzero (isDigitOf_peek_blank 8 r)
    (peek_ne_x (by decide) h r) (by rwa [hvalue]), hvalue, hn]
  refine ⟨rfl, ?_⟩
  rw [← List.append_assoc, List.append_cons]
  exact justAfterLastDigit_append h hne _ r

theorem parsedBack_hex {x : Byte} {radix : ℤ} (hx : x = ch 'x' ∨ x = ch 'X')
    (hr : radix = 0 ∨ radix = 16) (hsgn : SignText neg sgn) (h : Spells 16 body ds) (hne : ds ≠ [])
    (hlim : Numeral.value 16 0 ds ≤ (lim neg).toNat)
    (hn : (if neg then -BitVec.ofNat 32 (Numeral.value 16 0 ds)
      else BitVec.ofNat 32 (Numeral.value 16 0 ds)) = n) (l r : ℕ) :
    ParsedBack 16
      (List.replicate l (ch ' ') ++ (sgn ++ (ch '0' :: x :: (body ++ List.replicate r (ch ' '))))) n
      (convert lim saturated
        (List.replicate l (ch ' ') ++ (sgn ++ (ch '0' :: x :: (body ++ List.replicate r (ch ' ')))))
        radix) := by
  rw [convert_hex hx hr (fun _ => isspace_of_mem_blanks) hsgn h hne
    (isDigitOf_peek_blank 16 r) hlim, hn]
  refine ⟨rfl, ?_⟩
  rw [← List.append_assoc, List.append_cons, List.append_cons]
  exact justAfterLastDigit_append h hne _ r

end Parsed

namespace Format

variable {mem : BitVec 32 → Option Byte} {args : ℕ → BitVec 32} {f : Format}

/-- The text of a good format as a numeral between blanks. -/
theorem exists_numeral (args : ℕ → BitVec 32) {n : BitVec 32} (h : ¬ f.PadsInside n) :
    ∃ l sgn body ds r,
      number n f.letter.base (f.fieldWidth args) (-1) (f.type args) = some
        (List.replicate l (ch ' ') ++ (sgn ++ (specialText (f.type args) f.letter.base ++
          (body ++ List.replicate r (ch ' '))))) ∧
      SignText (decide (f.letter = .d ∧ n.slt 0#32 = true)) sgn ∧
      Spells f.letter.base body ds ∧ ds ≠ [] ∧
      Numeral.value f.letter.base 0 ds = (if f.letter = .d ∧ n.slt 0#32 then -n else n).toNat := by
  obtain ⟨l, sgn, z, r, hnumber, hsgn⟩ := number_of_not_padsInside args f h
  have hbase := two_le_base f.letter
  obtain ⟨ds, hspells, hne, hvalue⟩ := exists_spells_digitsText (f.type args) hbase.1 (by omega) z
    (magnitude (f.type args) n)
  refine ⟨l, sgn, _, ds, r, hnumber, hsgn, hspells, hne, ?_⟩
  rw [hvalue, magnitude_type]

theorem specialText_eq_nil (args : ℕ → BitVec 32)
    (h : f.letter = .d ∨ f.letter = .u ∨ .special ∉ f.flags) :
    specialText (f.type args) f.letter.base = [] := by
  obtain ⟨flags, width, letter⟩ := f
  rcases h with rfl | rfl | h
  · simp [specialText, Letter.base]
  · simp [specialText, Letter.base]
  · simp only at h
    simp [specialText, type, h]

/-- The magnitude of a signed number is within the limits of `strtol`. -/
theorem signed_value {n : BitVec 32} {v : ℕ} (h : v = (if n.slt 0#32 = true then -n else n).toNat) :
    v ≤ (if n.slt 0#32 = true then -LONG_MIN else LONG_MAX).toNat ∧
      (if n.slt 0#32 = true then -BitVec.ofNat 32 v else BitVec.ofNat 32 v) = n := by
  have hmin : (-LONG_MIN).toNat = 2147483648 := rfl
  have hmax : LONG_MAX.toNat = 2147483647 := rfl
  have hn := n.isLt
  by_cases hneg : n.slt 0#32 = true
  · rw [if_pos hneg] at h ⊢
    rw [if_pos hneg, h]
    rw [slt_zero_iff] at hneg
    refine ⟨?_, ?_⟩
    · rw [BitVec.toNat_neg]
      omega
    · rw [BitVec.ofNat_toNat, BitVec.setWidth_eq, BitVec.neg_neg]
  · rw [if_neg hneg] at h ⊢
    rw [if_neg hneg, h]
    rw [slt_zero_iff] at hneg
    refine ⟨by omega, ?_⟩
    rw [BitVec.ofNat_toNat, BitVec.setWidth_eq]

/-- **The text of a good format** is parsed back. -/
theorem roundTrips_of_not_padsInside (h : ¬ f.PadsInside (f.operand args)) :
    f.RoundTrips mem args := by
  obtain ⟨l, sgn, body, ds, r, hnumber, hsgn, hspells, hne, hvalue⟩ := exists_numeral args h
  have hbase := two_le_base f.letter
  have hbuf := cstr_buf fun c => ne_zero_of_mem_number hbase.1 (by omega) hnumber
  refine ⟨_, by rw [vsprintf_format, hnumber, Option.map_some], ?_⟩
  rw [hbuf]
  generalize f.operand args = n at *
  have hmax := n.isLt
  have hulong : ULONG_MAX.toNat = 4294967295 := rfl
  -- An unsigned conversion prints the argument as it is, and cannot overflow.
  have hunsigned (hd : f.letter ≠ .d) : SignText false sgn ∧
      Numeral.value f.letter.base 0 ds ≤ ULONG_MAX.toNat ∧
      BitVec.ofNat 32 (Numeral.value f.letter.base 0 ds) = n := by
    simp only [hd, false_and, decide_false, if_false] at hsgn hvalue
    refine ⟨hsgn, by omega, ?_⟩
    rw [hvalue, BitVec.ofNat_toNat, BitVec.setWidth_eq]
  have hnil := specialText_eq_nil (f := f) args
  cases hl : f.letter with
  | d =>
    have hneg : decide (Letter.d = .d ∧ n.slt 0#32 = true) = n.slt 0#32 := by simp
    rw [hl] at hnil hsgn hspells hvalue
    rw [hneg] at hsgn
    simp only [true_and] at hvalue
    rw [hnil (Or.inl rfl)]
    obtain ⟨hlim, hn⟩ := signed_value hvalue
    refine ⟨parsedBack_numeral (by decide) (by decide) hsgn hspells hne hlim hn l r, ?_⟩
    rw [List.nil_append, atol_numeral (fun c hc => Or.inl (List.eq_of_mem_replicate hc)) hsgn
      hspells hne
      (isDigitOf_peek_blank 10 r)]
    exact hn
  | u =>
    rw [hl] at hnil hspells hunsigned
    rw [hnil (Or.inr (Or.inl rfl))]
    obtain ⟨hsgn, hlim, hn⟩ := hunsigned (by decide)
    exact parsedBack_numeral (by decide) (by decide) hsgn hspells hne hlim hn l r
  | x | X =>
    rw [hl] at hnil hspells hunsigned
    obtain ⟨hsgn, hlim, hn⟩ := hunsigned (by decide)
    simp only [Letter.base] at hnil hspells hlim hn ⊢
    by_cases hs : .special ∈ f.flags
    · have htype : (f.type args).special = true := decide_eq_true hs
      obtain ⟨x, hx, htext⟩ := specialText_hex htype
      rw [htext]
      exact ⟨parsedBack_hex hx (Or.inr rfl) hsgn hspells hne hlim hn l r,
        fun _ => parsedBack_hex hx (Or.inl rfl) hsgn hspells hne hlim hn l r⟩
    · rw [hnil (Or.inr (Or.inr hs))]
      exact ⟨parsedBack_numeral (by decide) (by decide) hsgn hspells hne hlim hn l r,
        fun h => absurd h hs⟩
  | o =>
    rw [hl] at hnil hspells hunsigned
    obtain ⟨hsgn, hlim, hn⟩ := hunsigned (by decide)
    simp only [Letter.base] at hnil hspells hlim hn ⊢
    by_cases hs : .special ∈ f.flags
    · have htext : specialText (f.type args) 8 = [ch '0'] := by simp [specialText, type, hs]
      have hzero : Spells 8 (ch '0' :: body) (0 :: ds) :=
        (spells_replicate_zero (by decide) 1).append hspells
      have hvalue' : Numeral.value 8 0 (0 :: ds) = Numeral.value 8 0 ds := rfl
      rw [htext]
      exact ⟨parsedBack_numeral (by decide) (by decide) hsgn hzero (List.cons_ne_nil _ _)
          (by rwa [hvalue']) (by rwa [hvalue']) l r,
        fun _ => parsedBack_octal hsgn hspells hne hlim hn l r⟩
    · rw [hnil (Or.inr (Or.inr hs))]
      exact ⟨parsedBack_numeral (by decide) (by decide) hsgn hspells hne hlim hn l r,
        fun h => absurd h hs⟩

/-- The text of a bad format has blanks between what stands before the digits and the
    digits. -/
theorem number_of_wraps (args : ℕ → BitVec 32) {n : BitVec 32} (h : f.Wraps n) :
    ∃ l b d r, number n f.letter.base (f.fieldWidth args) (-1) (f.type args) = some
        (List.replicate l (ch ' ') ++ (signText (f.type args) n ++
          (specialText (f.type args) f.letter.base ++ (ch ' ' :: (b ++ (d :: r)))))) ∧
      isDigitOf f.letter.base d = true := by
  have hbase := two_le_base f.letter
  obtain ⟨lead, trail, hnumber⟩ :=
    number_eq_layout n hbase.1 (by omega) (f.fieldWidth args) (f.type args)
  obtain ⟨ds, hspells, hne, -⟩ := exists_spells_digitsText (f.type args) hbase.1 (by omega) 0
    (magnitude (f.type args) n)
  change number _ _ _ _ _ = some (_ ++ _ ++ _ ++ innerPad _ (f.room args n) ++ _ ++ _) at hnumber
  rw [innerPad_of_wraps args f h, show LONG_MAX.toNat = 2147483646 + 1 from rfl,
    List.replicate_succ] at hnumber
  cases hd : digitsText (f.type args) f.letter.base (magnitude (f.type args) n) with
  | nil =>
    rw [hd] at hspells
    exact absurd (by simpa using hspells.1.symm) hne
  | cons d digits =>
    rw [hd, List.replicate_zero, List.nil_append] at hspells
    obtain ⟨v, vs, -, hv, hlt, -⟩ := hspells.cons_inv
    refine ⟨lead, List.replicate 2147483646 (ch ' '), d,
      digits ++ List.replicate trail (ch ' '), ?_,
      by simpa [isDigitOf, hv] using hlt⟩
    rw [hnumber, hd]
    simp only [List.append_assoc, List.cons_append]

/-- **The text of a bad format** is not parsed back. -/
theorem not_roundTrips_of_padsInside (h : f.PadsInside (f.operand args)) :
    ¬ f.RoundTrips mem args := by
  obtain ⟨hwraps, hmarked⟩ := h
  obtain ⟨l, b, d, r, hnumber, hd⟩ := number_of_wraps args hwraps
  have hbase := two_le_base f.letter
  have hbuf := cstr_buf fun c => ne_zero_of_mem_number hbase.1 (by omega) hnumber
  intro ⟨out, hout, hparse⟩
  rw [vsprintf_format, hnumber, Option.map_some] at hout
  obtain rfl := Option.some.inj hout
  rw [hbuf] at hparse
  have hlead : ∀ c ∈ List.replicate l (ch ' '), isspace c = true := fun _ => isspace_of_mem_blanks
  have hnil := specialText_eq_nil (f := f) args
  cases hl : f.letter with
  | d =>
    -- A sign, then blanks: `strtol` finds no digit.
    rw [hl] at hparse hnil
    obtain ⟨sgn, neg, hsign, hsgn, hne⟩ : ∃ sgn neg, signText (f.type args) (f.operand args) = sgn ∧
        SignText neg sgn ∧ sgn ≠ [] := by
      rw [Marked, hl] at hmarked
      by_cases hneg : (f.operand args).slt 0#32 = true
      · exact ⟨[ch '-'], true, by simp [signText, type, hl, hneg], .minus, by simp⟩
      · have hplus : .plus ∈ f.flags := hmarked.resolve_left hneg
        exact ⟨[ch '+'], false, by simp [signText, type, hl, hneg, hplus], .plus, by simp⟩
    obtain ⟨⟨-, hend⟩, -⟩ := hparse
    have htext :
        strtol (List.replicate l (ch ' ') ++ (sgn ++ (ch ' ' :: (b ++ (d :: r))))) 10 = _ :=
      convert_sign_blank (by decide) (by decide) hlead hsgn hne
    rw [hnil (Or.inl rfl), hsign, List.nil_append, htext] at hend
    exact not_justAfterLastDigit_self _ _ hend
  | u =>
    rw [Marked, hl] at hmarked
    exact hmarked
  | x | X =>
    -- The prefix, then blanks: `strtoul` finds no digit.
    rw [Marked, hl] at hmarked
    rw [hl] at hparse
    have htype : (f.type args).special = true := decide_eq_true hmarked
    obtain ⟨x, hx, hspecial⟩ := specialText_hex htype
    have hsign : signText (f.type args) (f.operand args) = [] := by simp [signText, type, hl]
    obtain ⟨⟨-, hend⟩, -⟩ := hparse
    simp only [Letter.base, hspecial, hsign, List.nil_append, List.cons_append] at hend
    have htext : strtoul (List.replicate l (ch ' ') ++ ch '0' :: x :: ch ' ' :: (b ++ (d :: r)))
        (16 : ℕ) = _ := convert_hex_blank hx hlead
    rw [htext] at hend
    exact not_justAfterLastDigit_self _ _ hend
  | o =>
    -- The prefix is an octal zero, and what follows it still has digits.
    rw [Marked, hl] at hmarked
    rw [hl] at hparse hd
    have hspecial : specialText (f.type args) 8 = [ch '0'] := by simp [specialText, type, hmarked]
    have hsign : signText (f.type args) (f.operand args) = [] := by simp [signText, type, hl]
    obtain ⟨⟨-, hend⟩, -⟩ := hparse
    have hzero : Spells 8 [ch '0'] [0] := spells_replicate_zero (by decide) 1
    have htext : strtoul
      (List.replicate l (ch ' ') ++ ([] ++ ([ch '0'] ++ (ch ' ' :: (b ++ (d :: r))))))
        (8 : ℕ) = _ :=
      convert_numeral (by decide) (by decide) hlead SignText.none hzero (by simp) rfl
        ⟨show ch ' ' ≠ ch 'x' by decide, show ch ' ' ≠ ch 'X' by decide⟩ (Nat.zero_le _)
    rw [hsign, show specialText (f.type args) Letter.o.base = _ from hspecial,
      show Letter.o.base = 8 from rfl, htext] at hend
    obtain ⟨-, -, -, -, hno⟩ := hend
    have := hno d (by simp)
    rw [show isDigitOf 8 d = true from hd] at this
    cases this

/-- **Printing and parsing agree** exactly for the formats that do not pad inside. -/
theorem roundTrips_iff (mem : BitVec 32 → Option Byte) (args : ℕ → BitVec 32) (f : Format) :
    f.RoundTrips mem args ↔ ¬ f.PadsInside (f.operand args) :=
  ⟨fun hr hp => not_roundTrips_of_padsInside hp hr, roundTrips_of_not_padsInside⟩

/-- `"%2147483650d"` prints `-1` as a minus sign, blanks and a digit. -/
theorem not_roundTrips_sample :
    ¬ (Format.mk [] (.literal 2147483650 (by decide)) .d).RoundTrips (fun _ => none) fun _ => -1 :=
  not_roundTrips_of_padsInside
    ⟨⟨⟨2147483650, by decide, rfl, by decide⟩, by decide, by decide⟩, Or.inl (by decide)⟩

end Format

end Mwdd32.Util
