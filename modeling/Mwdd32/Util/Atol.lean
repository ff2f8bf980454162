import Mwdd32.Util.StrtolAnsi

/-!
# `atol` against `strtol`

ANSI C defines `atol` by `strtol` with radix 10, and both are exported side by side. `atol` has a
loop of its own for each part of the string, and skips only blanks and tabs where `strtol` skips
what `isspace` accepts.

Main result:

* `atol_iff`: on a number that fits in a `long`, or none, the two agree unless white space other
  than blanks and tabs stands before a number that is not zero.
-/

namespace Mwdd32.Util

/-! ## The number of a string -/

/-- The decimal digits after white space and a sign. -/
def decimal (string : List Byte) : List Byte := (afterSign string).takeWhile isdigit

/-- The number they spell, with its sign. It is 0 where there are none. -/
def decimalValue (string : List Byte) : ℤ :=
  let v : ℤ := Numeral.value 10 0 ((decimal string).map fun c => (c - ch '0').toNat)
  if peek (string.dropWhile isspace) = ch '-' then -v else v

/-- The number fits in a `long`, or there is none. -/
def FitsLong (string : List Byte) : Prop :=
  LONG_MIN.toInt ≤ decimalValue string ∧ decimalValue string ≤ LONG_MAX.toInt

/-- White space other than blanks and tabs, and a digit other than 0 after it. -/
def HidesNumber (string : List Byte) : Prop :=
  (∃ c ∈ string.takeWhile isspace, c ≠ ch ' ' ∧ c ≠ ch '\t') ∧ ∃ c ∈ decimal string, c ≠ ch '0'

theorem isDigitOf_ten (c : Byte) : isDigitOf 10 c = isdigit c := by
  revert c
  decide

/-- The value of a decimal digit. -/
theorem sub_toNat_of_digitValue {c : Byte} {d : ℕ} (h : digitValue c = some d) (hd : d < 10) :
    (c - ch '0').toNat = d := by
  obtain ⟨hc, -⟩ := decimal_of_digitValue h hd
  rw [digitValue, if_pos hc] at h
  exact Option.some.inj h

theorem Spells.map_sub {body : List Byte} {ds : List ℕ} (h : Spells 10 body ds) :
    body.map (fun c => (c - ch '0').toNat) = ds := by
  induction body generalizing ds with
  | nil => simpa using h.1
  | cons c body ih =>
    obtain ⟨d, es, rfl, hc, hd, hes⟩ := h.cons_inv
    rw [List.map_cons, sub_toNat_of_digitValue hc hd, ih hes]

/-- The digits of a number are all 0 where the number is. -/
theorem value_eq_zero_iff {r : ℕ} (hr : 0 < r) (ds : List ℕ) :
    Numeral.value r 0 ds = 0 ↔ ∀ d ∈ ds, d = 0 := by
  induction ds with
  | nil => simp
  | cons d ds ih =>
    rw [Numeral.value_cons, Nat.zero_mul, Nat.zero_add, List.forall_mem_cons]
    by_cases hd : d = 0
    · simp [hd, ih]
    · have hle := Numeral.le_value hr d ds
      simp only [hd, false_and, iff_false]
      omega

/-- A run of characters up to the first of another kind. -/
theorem takeWhile_append_peek {p : Byte → Bool} {run rest : List Byte}
    (hrun : ∀ c ∈ run, p c = true) (hrest : p (peek rest) = false) :
    (run ++ rest).takeWhile p = run := by
  rw [List.takeWhile_append_of_pos hrun]
  cases rest with
  | nil => simp
  | cons c rest => rw [List.takeWhile_cons_of_neg (by simpa using hrest), List.append_nil]

section Parts

variable {neg : Bool} {lead sign s body rest : List Byte} {ds : List ℕ}

/-- The white space of a string. -/
theorem takeWhile_isspace (hlead : ∀ c ∈ lead, isspace c = true) (hsign : SignText neg sign)
    (hs : sign = [] → Plain (peek s)) : (lead ++ (sign ++ s)).takeWhile isspace = lead := by
  refine takeWhile_append_peek hlead ?_
  cases hsign with
  | none => exact (hs rfl).1
  | plus | minus => rfl

/-- The sign of a string. -/
theorem peek_dropWhile_isspace (hlead : ∀ c ∈ lead, isspace c = true) (hsign : SignText neg sign)
    (hs : sign = [] → Plain (peek s)) :
    peek ((lead ++ (sign ++ s)).dropWhile isspace) = ch '-' ↔ neg = true := by
  rw [List.dropWhile_append_of_pos hlead]
  cases hsign with
  | none =>
    obtain ⟨hspace, hminus, -⟩ := hs rfl
    cases s with
    | nil => decide
    | cons c s =>
      rw [peek_cons] at hspace hminus
      rw [List.nil_append, List.dropWhile_cons_of_neg (by simp [hspace])]
      simpa using hminus
  | plus | minus => simp [isspace, ch]

/-- The digits of a string. -/
theorem decimal_append (hlead : ∀ c ∈ lead, isspace c = true) (hsign : SignText neg sign)
    (hs : sign = [] → Plain (peek (body ++ rest))) (h : Spells 10 body ds)
    (hrest : isDigitOf 10 (peek rest) = false) :
    decimal (lead ++ (sign ++ (body ++ rest))) = body := by
  have hbody : ∀ c ∈ body, isdigit c = true := by
    intro c hc
    rw [← isDigitOf_ten]
    exact isDigitOf_iff.mpr (h.exists_digit hc)
  rw [isDigitOf_ten] at hrest
  rw [decimal, afterSign_append hlead hsign hs, takeWhile_append_peek hbody hrest]

theorem decimalValue_append (hlead : ∀ c ∈ lead, isspace c = true) (hsign : SignText neg sign)
    (hs : sign = [] → Plain (peek (body ++ rest))) (h : Spells 10 body ds)
    (hrest : isDigitOf 10 (peek rest) = false) :
    decimalValue (lead ++ (sign ++ (body ++ rest))) =
      if neg = true then -(Numeral.value 10 0 ds : ℤ) else Numeral.value 10 0 ds := by
  rw [decimalValue, decimal_append hlead hsign hs h hrest, h.map_sub]
  simp only [peek_dropWhile_isspace hlead hsign hs]

end Parts

/-! ## The two conversions -/

/-- `strtol` returns the number. -/
theorem strtol_decimal {string : List Byte} (h : FitsLong string) :
    (strtol string 10).1 = BitVec.ofInt 32 (decimalValue string) := by
  obtain ⟨lead, sign, s, neg, rfl, hlead, hsign, hplain⟩ := exists_sign string
  obtain ⟨body, rest, ds, rfl, hspells, hrest⟩ := exists_digits 10 s
  have hpre : NoPrefix 10 (body ++ rest) := by
    rintro ⟨hradix, -⟩
    omega
  rw [FitsLong, decimalValue_append hlead hsign hplain hspells hrest] at h
  rw [decimalValue_append hlead hsign hplain hspells hrest, strtol,
    convert_skip hlead hsign hplain, radixPrefix_noPrefix hpre]
  dsimp only
  by_cases hne : ds = []
  · obtain rfl : body = [] := by simpa [hne] using hspells.1
    have hnone := @conversion_noNumber (if neg then -LONG_MIN else LONG_MAX)
      (if neg then LONG_MIN else LONG_MAX) neg (lead ++ (sign ++ ([] ++ rest))) rest 10 (by decide)
      (by decide) hrest
    rw [hne, Numeral.value_nil]
    simpa using congrArg Prod.fst hnone
  · have hvalue := @conversion_value (fun neg => if neg then -LONG_MIN else LONG_MAX)
      (fun neg => if neg then LONG_MIN else LONG_MAX) neg
        (lead ++ (sign ++ (body ++ rest))) body rest
      10 ds (by decide) (by decide) hspells hne hrest
    rw [← strtolValue_eq, strtolValue, if_pos h] at hvalue
    exact congrArg Prod.fst hvalue

/-- `atol` returns it after blanks and tabs. -/
theorem atol_decimal {string : List Byte}
    (h : ∀ c ∈ string.takeWhile isspace, c = ch ' ' ∨ c = ch '\t') :
    atol string = BitVec.ofInt 32 (decimalValue string) := by
  obtain ⟨lead, sign, s, neg, rfl, hlead, hsign, hplain⟩ := exists_sign string
  obtain ⟨body, rest, ds, rfl, hspells, hrest⟩ := exists_digits 10 s
  rw [takeWhile_isspace hlead hsign hplain] at h
  rw [atol_skip h hsign hplain, decimalValue_append hlead hsign hplain hspells hrest]
  have hdigits : atolDigits 0 (body ++ rest) = BitVec.ofNat 32 (Numeral.value 10 0 ds) :=
    atolDigits_append hspells hrest 0
  rw [hdigits]
  cases neg with
  | false => rfl
  | true =>
    rw [if_pos rfl, if_pos rfl, BitVec.ofInt_neg]
    rfl

/-- `atol` finds no number after other white space. -/
theorem atol_hidden {string : List Byte}
    (h : ∃ c ∈ string.takeWhile isspace, c ≠ ch ' ' ∧ c ≠ ch '\t') : atol string = 0 := by
  induction string with
  | nil => simp at h
  | cons c string ih =>
    obtain ⟨d, hd, hblank, htab⟩ := h
    have hc : isspace c = true := by
      by_contra hc
      rw [List.takeWhile_cons_of_neg hc] at hd
      exact List.not_mem_nil hd
    rw [List.takeWhile_cons_of_pos hc, List.mem_cons] at hd
    by_cases hskip : c = ch ' ' ∨ c = ch '\t'
    · have htail : d ∈ string.takeWhile isspace := by
        refine hd.resolve_left ?_
        rintro rfl
        exact hskip.elim hblank htab
      have hdrop : (c :: string).dropWhile (fun c => c = ch ' ' ∨ c = ch '\t') =
          string.dropWhile fun c => c = ch ' ' ∨ c = ch '\t' :=
        List.dropWhile_cons_of_pos (decide_eq_true hskip)
      rw [← ih ⟨d, htail, hblank, htab⟩, atol, atol, hdrop]
    · -- the character is neither skipped nor a sign nor a digit
      have hstop : c ≠ ch '-' ∧ c ≠ ch '+' ∧ ¬ (ch '0' ≤ c ∧ c ≤ ch '9') := by
        clear hd
        revert c
        decide
      obtain ⟨hminus, hplus, hdigit⟩ := hstop
      have hneg : (c == ch '-') = false := beq_eq_false_iff_ne.mpr hminus
      have hdrop : (c :: string).dropWhile (fun c => c = ch ' ' ∨ c = ch '\t') = c :: string :=
        List.dropWhile_cons_of_neg (by simpa using hskip)
      rw [atol, hdrop]
      simp [hneg, hminus, hplus, atolDigits, hdigit]

/-- A number that fits is 0 exactly when no digit of it is another. -/
theorem ofInt_decimalValue_eq_zero_iff {string : List Byte} (h : FitsLong string) :
    BitVec.ofInt 32 (decimalValue string) = 0 ↔ ¬ ∃ c ∈ decimal string, c ≠ ch '0' := by
  have hmin : LONG_MIN.toInt = -2147483648 := by decide
  have hmax : LONG_MAX.toInt = 2147483647 := by decide
  have hdigit (c : Byte) : (c - ch '0').toNat = 0 ↔ c = ch '0' := by
    bv_omega
  have hofInt : BitVec.ofInt 32 (decimalValue string) = 0 ↔ decimalValue string = 0 := by
    constructor
    · intro hzero
      have htoInt := congrArg BitVec.toInt hzero
      rw [FitsLong, hmin, hmax] at h
      rwa [BitVec.toInt_ofInt, Int.bmod_eq_of_le (by omega) (by omega)] at htoInt
    · intro hzero
      rw [hzero]
      rfl
  rw [hofInt]
  push Not
  have hvalue := value_eq_zero_iff (show 0 < 10 by decide)
    ((decimal string).map fun c => (c - ch '0').toNat)
  simp only [List.forall_mem_map, hdigit] at hvalue
  rw [← hvalue, decimalValue]
  split_ifs <;> omega

/-- **`atol` against `strtol`**: on a number that fits in a `long`, or none, they agree unless white
    space other than blanks and tabs hides a number other than 0. -/
theorem atol_iff {string : List Byte} (h : FitsLong string) :
    atol string = (strtol string 10).1 ↔ ¬ HidesNumber string := by
  rw [strtol_decimal h]
  by_cases hwhite : ∃ c ∈ string.takeWhile isspace, c ≠ ch ' ' ∧ c ≠ ch '\t'
  · rw [atol_hidden hwhite, eq_comm, ofInt_decimalValue_eq_zero_iff h, HidesNumber, not_and]
    exact ⟨fun hzero _ => hzero, fun hzero => hzero hwhite⟩
  · have hblank : ∀ c ∈ string.takeWhile isspace, c = ch ' ' ∨ c = ch '\t' := by
      intro c hc
      by_contra hne
      exact hwhite ⟨c, hc, not_or.mp hne⟩
    exact iff_of_true (atol_decimal hblank) fun hhides => hwhite hhides.1

/-- Blanks before `-17`. -/
theorem atol_iff_sample :
    atol [ch ' ', ch '\t', ch '-', ch '1', ch '7'] =
        (strtol [ch ' ', ch '\t', ch '-', ch '1', ch '7'] 10).1 ↔
      ¬ HidesNumber [ch ' ', ch '\t', ch '-', ch '1', ch '7'] :=
  atol_iff (by unfold FitsLong; decide)

/-- A line feed before `5`. -/
theorem atol_ne_strtol_lineFeed :
    FitsLong [ch '\n', ch '5'] ∧ atol [ch '\n', ch '5'] ≠ (strtol [ch '\n', ch '5'] 10).1 := by
  unfold FitsLong
  decide

end Mwdd32.Util
