import Mwdd32.Util.Strtol
import Mwdd32.Util.Vsprintf

/-!
# What `vsprintf` reads of a conversion specification

Flags, field width and precision as they stand in a format, and what the local variables of the loop
hold at the letter.

* `skipAtoi_spells`: `skip_atoi` reads a run of digits modulo `2 ^ 32`.
* `Fields.readSpec_text`: the variables behind flags, width and precision.
* `Fields.vsprintf_text`: a format that consists of one conversion.
-/

namespace Mwdd32.Util

/-! ## Specifications -/

/-- A flag of a conversion specification. -/
inductive Flag
  | minus
  | plus
  | space
  | zero
  | special
  deriving DecidableEq, Repr

/-- The character of a flag -/
def Flag.char : Flag → Byte
  | minus => ch '-'
  | plus => ch '+'
  | space => ch ' '
  | zero => ch '0'
  | special => ch '#'

/-- A field width: none, a decimal literal or the next argument. A literal does not start
    with `0`, which would be a flag. -/
inductive Width
  | absent
  | literal (w : ℕ) (pos : 0 < w)
  | star
  deriving DecidableEq, Repr

/-- A width as it stands in a format -/
def Width.text : Width → List Byte
  | absent => []
  | literal w _ => ((Nat.digits 10 w).map (smallDigits.getD · 0)).reverse
  | star => [ch '*']

/-- A precision: none, a decimal literal or the next argument. A literal may be empty and may start
    with `0`. -/
inductive Precision
  | absent
  | literal (ds : List ℕ) (lt : ∀ d ∈ ds, d < 10)
  | star
  deriving DecidableEq, Repr

/-- A precision as it stands in a format -/
def Precision.text : Precision → List Byte
  | absent => []
  | literal ds _ => ch '.' :: ds.map (smallDigits.getD · 0)
  | star => [ch '.', ch '*']

/-- What stands between the `%` and the letter. -/
structure Fields where
  flags : List Flag
  width : Width
  precision : Precision
  deriving DecidableEq, Repr

/-- What stands between the `%` and the letter -/
def Fields.text (f : Fields) : List Byte :=
  f.flags.map Flag.char ++ (f.width.text ++ f.precision.text)

/-! ## The variables -/

/-- The flag set that one more character gives. -/
def Flags.set (F : Flags) : Flag → Flags
  | .minus => { F with left := true }
  | .plus => { F with plus := true }
  | .space => { F with space := true }
  | .zero => { F with zeropad := true }
  | .special => { F with special := true }

theorem readFlags_cons (F : Flags) (g : Flag) (fmt : List Byte) :
    readFlags F (g.char :: fmt) = readFlags (F.set g) fmt := by
  cases g <;> rfl

theorem readFlags_append {rest : List Byte} (hrest : ∀ g : Flag, peek rest ≠ g.char) (l : List Flag)
    (F : Flags) : readFlags F (l.map Flag.char ++ rest) = (l.foldl Flags.set F, rest) := by
  induction l generalizing F with
  | nil =>
    cases rest with
    | nil => rfl
    | cons c rest =>
      have hm : c ≠ ch '-' := hrest .minus
      have hp : c ≠ ch '+' := hrest .plus
      have hb : c ≠ ch ' ' := hrest .space
      have hz : c ≠ ch '0' := hrest .zero
      have hs : c ≠ ch '#' := hrest .special
      simp [readFlags, hm, hp, hb, hz, hs]
  | cons g l ih =>
    rw [List.map_cons, List.cons_append, readFlags_cons, ih, List.foldl_cons]

theorem foldl_set (l : List Flag) (F : Flags) :
    l.foldl Flags.set F =
      { F with
        zeropad := F.zeropad || decide (.zero ∈ l)
        plus := F.plus || decide (.plus ∈ l)
        space := F.space || decide (.space ∈ l)
        left := F.left || decide (.minus ∈ l)
        special := F.special || decide (.special ∈ l) } := by
  induction l generalizing F with
  | nil => simp
  | cons g l ih =>
    rw [List.foldl_cons, ih]
    cases g <;> simp [Flags.set]

/-- `skip_atoi` reads what the digit loop of `atol` reads. -/
theorem skipAtoi_eq (i : BitVec 32) (s : List Byte) :
    skipAtoi i s = (atolDigits i s, s.dropWhile isDigit) := by
  induction s generalizing i with
  | nil => rfl
  | cons c s ih =>
    by_cases hc : ch '0' ≤ c ∧ c ≤ ch '9'
    · have hd : isDigit c = true := by simpa [isDigit] using hc
      have hstep : i * 10 + c.setWidth 32 - (ch '0').setWidth 32 =
          i * 10 + (c - ch '0').setWidth 32 := by
        have hlo : (ch '0').toNat = 48 := rfl
        bv_omega
      rw [skipAtoi, if_pos hd, ih, atolDigits, if_pos hc, hstep, List.dropWhile_cons_of_pos hd]
    · have hd : ¬ isDigit c = true := by simpa [isDigit] using hc
      rw [skipAtoi, if_neg hd, atolDigits, if_neg hc, List.dropWhile_cons_of_neg hd]

/-- Both digit tables hold the digits. -/
theorem digitValue_digits (type : Flags) {d : ℕ} (hd : d < 36) :
    digitValue (type.digits.getD d 0) = some d := by
  have hsmall : ∀ d < 36, digitValue (smallDigits.getD d 0) = some d := by decide
  have hlarge : ∀ d < 36, digitValue (largeDigits.getD d 0) = some d := by decide
  unfold Flags.digits
  split_ifs
  · exact hlarge d hd
  · exact hsmall d hd

theorem spells_digits (type : Flags) {radix : ℕ} (hr : radix ≤ 36) {ds : List ℕ}
    (hds : ∀ d ∈ ds, d < radix) : Spells radix (ds.map (type.digits.getD · 0)) ds := by
  refine ⟨?_, hds⟩
  rw [List.map_map]
  apply List.map_congr_left
  intro d hd
  exact digitValue_digits type ((hds d hd).trans_le hr)

theorem spells_literal (w : ℕ) (pos : 0 < w) :
    Spells 10 (Width.literal w pos).text (Nat.digits 10 w).reverse := by
  rw [Width.text, ← List.map_reverse]
  refine spells_digits {} (by decide) ?_
  intro d hd
  exact Nat.digits_lt_base (by decide) (List.mem_reverse.mp hd)

theorem isDigitOf_ten_eq (c : Byte) : isDigitOf 10 c = isDigit c := by
  revert c
  decide

/-- A run of digits is read modulo `2 ^ 32`. -/
theorem skipAtoi_spells {body rest : List Byte} {ds : List ℕ} (h : Spells 10 body ds)
    (hrest : isDigit (peek rest) = false) :
    skipAtoi 0 (body ++ rest) = (BitVec.ofNat 32 (Numeral.value 10 0 ds), rest) := by
  have hbody : ∀ c ∈ body, isDigit c = true := by
    intro c hc
    obtain ⟨d, hd, hv⟩ := h.exists_digit hc
    simpa [isDigit] using (decimal_of_digitValue hv hd).1
  have hdrop : rest.dropWhile isDigit = rest := by
    cases rest with
    | nil => rfl
    | cons c rest => exact List.dropWhile_cons_of_neg (by simpa using hrest)
  rw [skipAtoi_eq, List.dropWhile_append_of_pos hbody, hdrop]
  rw [← isDigitOf_ten_eq] at hrest
  rw [← atolDigits_append h hrest 0]
  rfl

/-- The width literal is read back, modulo `2 ^ 32`. -/
theorem skipAtoi_literal (w : ℕ) (pos : 0 < w) {rest : List Byte}
    (hrest : isDigit (peek rest) = false) :
    skipAtoi 0 ((Width.literal w pos).text ++ rest) = (BitVec.ofNat 32 w, rest) := by
  rw [skipAtoi_spells (spells_literal w pos) hrest, Numeral.value_digits]

/-- A width literal starts with a digit other than `0`. -/
theorem peek_literal (w : ℕ) (pos : 0 < w) (rest : List Byte) :
    isDigit (peek ((Width.literal w pos).text ++ rest)) = true ∧
      peek ((Width.literal w pos).text ++ rest) ≠ ch '0' := by
  have hw : w ≠ 0 := Nat.pos_iff_ne_zero.mp pos
  have hne : (Nat.digits 10 w).reverse ≠ [] := by simp [Nat.digits_ne_nil_iff_ne_zero, hw]
  have hlast : (Nat.digits 10 w).reverse.head hne ≠ 0 := by
    rw [List.head_reverse]
    exact Nat.getLast_digit_ne_zero 10 hw
  have hspells := spells_literal w pos
  revert hspells hne hlast
  generalize (Nat.digits 10 w).reverse = ds
  intro hne hlast hspells
  cases ds with
  | nil => exact absurd rfl hne
  | cons d ds =>
    generalize htext : (Width.literal w pos).text = text
    rw [htext] at hspells
    cases text with
    | nil => simp [Spells] at hspells
    | cons c text =>
      obtain ⟨e, es, hde, hc, he, -⟩ := hspells.cons_inv
      obtain ⟨rfl, rfl⟩ := List.cons.inj hde
      refine ⟨decide_eq_true (decimal_of_digitValue hc he).1, ?_⟩
      intro h0
      rw [List.cons_append, peek_cons] at h0
      rw [h0] at hc
      exact hlast (Option.some.inj hc).symm

/-- `field_width`, from the argument at hand -/
def Width.value (arg : BitVec 32) : Width → BitVec 32
  | absent => -1
  | literal w _ => BitVec.ofNat 32 w
  | star => if arg.slt 0#32 then -arg else arg

/-- `precision`, from the argument at hand -/
def Precision.value (arg : BitVec 32) : Precision → BitVec 32
  | absent => -1
  | literal ds _ =>
    if (BitVec.ofNat 32 (Numeral.value 10 0 ds)).slt 0#32 then 0
    else BitVec.ofNat 32 (Numeral.value 10 0 ds)
  | star => if arg.slt 0#32 then 0 else arg

/-- A letter that is read as nothing else. -/
def IsLetter (c : Byte) : Prop :=
  (∀ g : Flag, c ≠ g.char) ∧ isDigit c = false ∧ c ≠ ch '*' ∧ c ≠ ch '.' ∧ c ≠ ch 'h' ∧ c ≠ ch 'l' ∧
    c ≠ ch 'L' ∧ c ≠ 0

/-- The letters of the conversions of integers and of strings -/
theorem isLetter_of_mem {c : Byte} (h : c ∈ "diouxXs".toList.map ch) : IsLetter c := by
  have hflag : ∀ g : Flag, g.char ∉ "diouxXs".toList.map ch := by
    intro g
    cases g <;> decide
  have hplain : ∀ c ∈ "diouxXs".toList.map ch, isDigit c = false ∧ c ≠ ch '*' ∧ c ≠ ch '.' ∧
      c ≠ ch 'h' ∧ c ≠ ch 'l' ∧ c ≠ ch 'L' ∧ c ≠ 0 := by decide
  exact ⟨fun g hg => hflag g (hg ▸ h), hplain c h⟩

namespace Fields

variable (args : ℕ → BitVec 32) (f : Fields)

/-- The arguments that the width takes. -/
def widthArgs : ℕ := if f.width = .star then 1 else 0

/-- The arguments before the one to convert. -/
def starArgs : ℕ := f.widthArgs + if f.precision = .star then 1 else 0

/-- `field_width` as it is read -/
def fieldWidth : BitVec 32 := f.width.value (args 0)

/-- `precision` as it is read -/
def precisionValue : BitVec 32 := f.precision.value (args f.widthArgs)

/-- The flags, with `-` for a negative width argument -/
def type : Flags where
  zeropad := .zero ∈ f.flags
  plus := .plus ∈ f.flags
  space := .space ∈ f.flags
  left := .minus ∈ f.flags ∨ (f.width = .star ∧ (args 0).slt 0#32)
  special := .special ∈ f.flags

end Fields

section Read

variable {args : ℕ → BitVec 32} {rest : List Byte} {c : Byte}

/-- The flags end where the width, the precision or the letter starts. -/
theorem peek_width_ne_flag (w : Width) (hrest : ∀ g : Flag, peek rest ≠ g.char) (g : Flag) :
    peek (w.text ++ rest) ≠ g.char := by
  cases w with
  | absent => exact hrest g
  | star =>
    rw [Width.text, List.singleton_append, peek_cons]
    cases g <;> decide
  | literal w pos =>
    obtain ⟨hdigit, hzero⟩ := peek_literal w pos rest
    intro h
    rw [h] at hdigit hzero
    cases g with
    | zero => exact hzero rfl
    | minus | plus | space | special => exact absurd hdigit (by decide)

/-- What may follow a width: the precision and the letter. -/
theorem peek_precision (p : Precision) (hc : IsLetter c) :
    (∀ g : Flag, peek (p.text ++ [c]) ≠ g.char) ∧ isDigit (peek (p.text ++ [c])) = false ∧
      peek (p.text ++ [c]) ≠ ch '*' := by
  cases p with
  | absent => exact ⟨hc.1, hc.2.1, hc.2.2.1⟩
  | literal | star =>
    rw [Precision.text, List.cons_append, peek_cons]
    exact ⟨fun g => by cases g <;> decide, by decide, by decide⟩

/-- The width and its effect on the flags and on the arguments. -/
theorem readWidth_text (w : Width) (F : Flags) (hdigit : isDigit (peek rest) = false)
    (hstar : peek rest ≠ ch '*') :
    Spec.readWidth args ⟨F, -1, -1, none, w.text ++ rest, 0⟩ =
      ⟨{ F with left := F.left || decide (w = .star ∧ (args 0).slt 0#32) }, w.value (args 0),
        -1, none,
        rest, if w = .star then 1 else 0⟩ := by
  cases w with
  | absent => simp [Spec.readWidth, Width.text, Width.value, hdigit, hstar]
  | star =>
    have hnot : isDigit (ch '*') = false := by decide
    by_cases hneg : (args 0).slt 0#32 = true
    · simp only [Spec.readWidth, Width.text, Width.value, List.singleton_append, peek_cons,
        hnot, hneg]
      simp
    · simp only [Spec.readWidth, Width.text, Width.value, List.singleton_append, peek_cons,
        hnot, hneg]
      simp
  | literal w pos =>
    have hread := skipAtoi_literal w pos hdigit
    simp only [Spec.readWidth, hread, (peek_literal w pos rest).1, Width.value]
    simp

theorem readPrecision_text (p : Precision) (F : Flags) (w : BitVec 32) (arg : ℕ) (hc : IsLetter c) :
    Spec.readPrecision args ⟨F, w, -1, none, p.text ++ [c], arg⟩ =
      ⟨F, w, p.value (args arg), none, [c], arg + if p = .star then 1 else 0⟩ := by
  obtain ⟨-, hdigit, hstar, hdot, -⟩ := hc
  cases p with
  | absent => simp [Spec.readPrecision, Precision.text, Precision.value, hdot]
  | star =>
    have hnot : isDigit (ch '*') = false := by decide
    simp only [Spec.readPrecision, Precision.text, Precision.value, List.cons_append,
      List.nil_append, peek_cons, List.tail_cons, hnot]
    split_ifs <;> simp_all
  | literal ds lt =>
    have hspells : Spells 10 (ds.map (smallDigits.getD · 0)) ds := spells_digits {} (by decide) lt
    have hread := @skipAtoi_spells _ [c] ds hspells hdigit
    cases ds with
    | nil =>
      -- `precision` is still -1, and becomes 0
      simp [Spec.readPrecision, Precision.text, Precision.value, hdigit, hstar]
    | cons d ds =>
      have hfirst : isDigit (smallDigits.getD d 0) = true := by
        rw [← isDigitOf_ten_eq, isDigitOf_iff]
        exact hspells.exists_digit (by simp)
      rw [List.map_cons, List.cons_append] at hread
      simp only [Spec.readPrecision, Precision.text, Precision.value, List.map_cons,
        List.cons_append, peek_cons, List.tail_cons, hfirst, hread, if_true,
        reduceCtorEq, if_false]
      split_ifs <;> rfl

/-- What `vsprintf` makes of a specification up to the letter. -/
def Fields.spec (args : ℕ → BitVec 32) (f : Fields) (c : Byte) : Spec where
  flags := f.type args
  field_width := f.fieldWidth args
  precision := f.precisionValue args
  fmt := [c]
  arg := f.starArgs

/-- The variables behind flags, width and precision. -/
theorem Fields.readSpec_text (f : Fields) (hc : IsLetter c) :
    readSpec args (f.text ++ [c]) 0 = f.spec args c := by
  obtain ⟨hflag, hdigit, hstar⟩ := peek_precision f.precision hc
  rw [readSpec, Fields.text, List.append_assoc, List.append_assoc,
    readFlags_append (peek_width_ne_flag f.width hflag)]
  dsimp only
  rw [readWidth_text _ _ hdigit hstar, readPrecision_text _ _ _ _ hc]
  rw [Spec.readQualifier, foldl_set]
  obtain ⟨-, -, -, -, hh, hl, hL, -⟩ := hc
  simp [hh, hl, hL, Fields.type, Fields.fieldWidth, Fields.precisionValue, Fields.starArgs,
    Fields.widthArgs, Fields.spec]

/-- A format that consists of one conversion. -/
theorem Fields.vsprintf_text (mem : BitVec 32 → Option Byte) (f : Fields) (hc : IsLetter c) :
    vsprintf mem (ch '%' :: (f.text ++ [c])) args =
      ((f.spec args c).convert mem args {}).map (·.1) := by
  have hnext : (f.spec args c).next = [] := by
    have hnull : peek (f.spec args c).fmt ≠ 0 := hc.2.2.2.2.2.2.2
    rw [Spec.next, if_pos hnull]
    rfl
  rw [vsprintf, vsprintfLoop, if_neg (by decide), if_neg (by decide)]
  dsimp only
  rw [f.readSpec_text hc, hnext]
  cases (f.spec args c).convert mem args {} with
  | none => rfl
  | some r => simp [vsprintfLoop]

end Read

/-! ## Width and precision as numbers -/

theorem slt_zero_iff (x : BitVec 32) : x.slt 0#32 = true ↔ 2 ^ 31 ≤ x.toNat := by
  rw [slt_zero_iff_toInt, BitVec.toInt_neg_iff]
  omega

namespace Fields

variable {args : ℕ → BitVec 32} {f : Fields}

/-- The width that is given, 0 if there is none. A negative argument stands for `-` and its absolute
    value. -/
def givenWidth (args : ℕ → BitVec 32) (f : Fields) : ℕ :=
  match f.width with
  | .absent => 0
  | .literal w _ => w
  | .star => (args 0).toInt.natAbs

/-- The precision that is given. A negative argument stands for none. -/
def givenPrecision (args : ℕ → BitVec 32) (f : Fields) : Option ℕ :=
  match f.precision with
  | .absent => none
  | .literal ds _ => some (Numeral.value 10 0 ds)
  | .star => if (args f.widthArgs).slt 0#32 then none else some (args f.widthArgs).toNat

/-- `field_width` is the width modulo `2 ^ 32`, or -1. -/
theorem fieldWidth_eq :
    f.fieldWidth args = BitVec.ofInt 32 (if f.width = .absent then -1 else f.givenWidth args) := by
  obtain ⟨flags, width, precision⟩ := f
  cases width with
  | absent => rfl
  | literal w pos => simp [fieldWidth, Width.value, givenWidth]
  | star =>
    simp only [fieldWidth, Width.value, givenWidth, reduceCtorEq, if_false]
    by_cases hneg : (args 0).slt 0#32 = true
    · have hlt := (slt_zero_iff_toInt _).mp hneg
      have habs : ((args 0).toInt.natAbs : ℤ) = -(args 0).toInt := by omega
      rw [if_pos hneg, habs, BitVec.ofInt_neg, BitVec.ofInt_toInt]
    · have hge := mt (slt_zero_iff_toInt _).mpr hneg
      have habs : ((args 0).toInt.natAbs : ℤ) = (args 0).toInt := by omega
      rw [if_neg hneg, habs, BitVec.ofInt_toInt]

/-- `precision` is the precision modulo `2 ^ 32`, or 0 if that is negative. -/
theorem toNat_precisionValue {p : ℕ} (h : f.givenPrecision args = some p) :
    (f.precisionValue args).toNat = if p % 2 ^ 32 < 2 ^ 31 then p % 2 ^ 32 else 0 := by
  obtain ⟨flags, width, precision⟩ := f
  cases precision with
  | absent => cases h
  | literal ds lt =>
    obtain rfl := Option.some.inj h
    simp only [precisionValue, Precision.value]
    split_ifs with hneg hlt hlt
    · rw [slt_zero_iff, BitVec.toNat_ofNat] at hneg
      omega
    · rfl
    · rw [BitVec.toNat_ofNat]
    · rw [slt_zero_iff, BitVec.toNat_ofNat] at hneg
      omega
  | star =>
    simp only [givenPrecision] at h
    simp only [precisionValue, Precision.value]
    split_ifs at h with hneg
    rw [slt_zero_iff] at hneg
    rw [if_neg (by rwa [slt_zero_iff]), ← Option.some.inj h]
    have hlt := (args (widthArgs ⟨flags, width, .star⟩)).isLt
    rw [Nat.mod_eq_of_lt hlt, if_pos (by omega)]

end Fields

end Mwdd32.Util
