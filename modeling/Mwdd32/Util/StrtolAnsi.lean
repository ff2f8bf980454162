import Mwdd32.Util.Strtol

/-!
# `strtol` and `strtoul` against ANSI C

What the two conversions return on a numeral of any length, and which part of a string they
take for the numeral.

Main results:

* `strtol_saturates`: the value of a run of digits, or the limit it exceeds, and the end pointer
  just after the digits.
* `subject_iff`: the conversions take the subject sequence of ANSI C, unless a prefix `0x` is
  not followed by a hexadecimal digit. The `0` is then a numeral of its own, but both return
  that there is none.
-/

namespace Mwdd32.Util

/-! ## Saturation -/

/-- What `strtol` returns for a number and its sign. -/
def strtolValue (neg : Bool) (v : ℕ) : BitVec 32 :=
  let z : ℤ := if neg then -v else v
  if LONG_MIN.toInt ≤ z ∧ z ≤ LONG_MAX.toInt then BitVec.ofInt 32 z
  else if neg then LONG_MIN else LONG_MAX

/-- What `strtoul` returns. -/
def strtoulValue (neg : Bool) (v : ℕ) : BitVec 32 :=
  if v ≤ ULONG_MAX.toNat then if neg then -BitVec.ofNat 32 v else BitVec.ofNat 32 v
  else ULONG_MAX

/-- The value of a conversion, with a limit for each sign. -/
def convertValue (lim saturated : Bool → BitVec 32) (neg : Bool) (v : ℕ) : BitVec 32 :=
  if v ≤ (lim neg).toNat then if neg then -BitVec.ofNat 32 v else BitVec.ofNat 32 v
  else saturated neg

theorem strtolValue_eq :
    strtolValue =
      convertValue (fun neg => if neg then -LONG_MIN else LONG_MAX)
        (fun neg => if neg then LONG_MIN else LONG_MAX) := by
  funext neg v
  have hmin : LONG_MIN.toInt = -2147483648 := by decide
  have hmax : LONG_MAX.toInt = 2147483647 := by decide
  cases neg with
  | false =>
    have hiff : (LONG_MIN.toInt ≤ (v : ℤ) ∧ (v : ℤ) ≤ LONG_MAX.toInt) ↔ v ≤ 2147483647 := by omega
    simp only [strtolValue, convertValue, hiff, Bool.false_eq_true, if_false]
    rfl
  | true =>
    have hiff : (LONG_MIN.toInt ≤ -(v : ℤ) ∧ -(v : ℤ) ≤ LONG_MAX.toInt) ↔ v ≤ 2147483648 := by omega
    simp only [strtolValue, convertValue, hiff, if_true, BitVec.ofInt_neg]
    rfl

theorem strtoulValue_eq :
    strtoulValue = convertValue (fun _ => ULONG_MAX) (fun _ => ULONG_MAX) := rfl

/-- A digit makes the accumulator `n * radix + d`, without wrapping, or is not added to it. -/
theorem step_noWrap {lim : BitVec 32} {radix d : ℕ} (hr : radix ≤ 36) (hd : d < radix) (a : Acc) :
    ((a.step lim radix d).state = .overflow ∧ (a.step lim radix d).n = a.n) ∨
      (a.step lim radix d).n.toNat = a.n.toNat * radix + d := by
  have hnumber : (a.step lim radix d).number = Numeral.push lim.toNat radix a.number d :=
    number_step hr hd a
  by_cases hstate : (a.step lim radix d).state = .overflow
  · refine .inl ⟨hstate, ?_⟩
    revert hstate
    simp only [Acc.step]
    split_ifs <;> simp
  · right
    rw [Acc.number, if_neg hstate] at hnumber
    by_cases ha : a.state = .overflow
    · rw [Acc.number, if_pos ha] at hnumber
      cases hnumber
    · rw [Acc.number, if_neg ha, Numeral.push, Option.bind_some] at hnumber
      split_ifs at hnumber
      exact Option.some.inj hnumber

/-- A conversion of digits, whatever their number. -/
theorem conversion_value {lim saturated : Bool → BitVec 32} {neg : Bool}
    {string body rest : List Byte} {radix : ℕ} {ds : List ℕ} (h2 : 2 ≤ radix) (hr : radix ≤ 36)
    (h : Spells radix body ds)
    (hne : ds ≠ []) (hrest : isDigitOf radix (peek rest) = false) :
    conversion (lim neg) (saturated neg) neg string (body ++ rest) radix =
      (convertValue lim saturated neg (Numeral.value radix 0 ds), rest) := by
  by_cases hlim : Numeral.value radix 0 ds ≤ (lim neg).toNat
  · rw [conversion_numeral h2 hr h hne hrest hlim, convertValue, if_pos hlim]
  · have hradix : (2 : ℤ) ≤ radix ∧ (radix : ℤ) ≤ 36 := by omega
    have hnumber := foldl_step (lim neg) h2 hr h.2
    have hstate : (ds.foldl (Acc.step (lim neg) radix) ⟨0, .noNumber⟩).state = .overflow := by
      by_contra hstate
      rw [Acc.number, if_neg hstate, if_neg hlim] at hnumber
      cases hnumber
    rw [conversion, if_pos hradix, Int.toNat_natCast, scan_append h hrest]
    dsimp only
    rw [hstate, convertValue, if_neg hlim]

/-- No hexadecimal prefix for the radix. -/
def NoPrefix (radix : ℤ) (s : List Byte) : Prop :=
  ¬ ((radix = 0 ∨ radix = 16) ∧ peek s = ch '0' ∧ (peek s.tail = ch 'x' ∨ peek s.tail = ch 'X'))

theorem radixPrefix_noPrefix {radix : ℤ} {s : List Byte} (h : NoPrefix radix s) :
    radixPrefix s radix = (if radix = 0 then if peek s = ch '0' then 8 else 10 else radix, s) := by
  rw [NoPrefix] at h
  simp only [radixPrefix, h, if_false]

section Numeral

variable {lim saturated : Bool → BitVec 32} {neg : Bool} {lead sign body rest : List Byte}
  {radix : ℕ} {ds : List ℕ}

theorem convert_value (h2 : 2 ≤ radix) (hr : radix ≤ 36) (hlead : ∀ c ∈ lead, isspace c = true)
    (hsign : SignText neg sign) (h : Spells radix body ds) (hne : ds ≠ [])
    (hrest : isDigitOf radix (peek rest) = false) (hpre : NoPrefix radix (body ++ rest)) :
    convert lim saturated (lead ++ (sign ++ (body ++ rest))) radix =
      (convertValue lim saturated neg (Numeral.value radix 0 ds), rest) := by
  have h0 : (radix : ℤ) ≠ 0 := by omega
  rw [convert_skip hlead hsign fun _ => plain_of_digitValue (h.peek hne rest),
    radixPrefix_noPrefix hpre, if_neg h0]
  exact conversion_value h2 hr h hne hrest

/-- **Saturating conversion.** On a run of digits of any length `strtol` and `strtoul` return the
    value or the limit it exceeds, with the end pointer just after the digits, and no digit
    makes the accumulator wrap. -/
theorem strtol_saturates (h2 : 2 ≤ radix) (hr : radix ≤ 36) (hlead : ∀ c ∈ lead, isspace c = true)
    (hsign : SignText neg sign) (h : Spells radix body ds) (hne : ds ≠ [])
    (hrest : isDigitOf radix (peek rest) = false) (hpre : NoPrefix radix (body ++ rest)) :
    strtol (lead ++ (sign ++ (body ++ rest))) radix =
      (strtolValue neg (Numeral.value radix 0 ds), rest) ∧
    strtoul (lead ++ (sign ++ (body ++ rest))) radix =
      (strtoulValue neg (Numeral.value radix 0 ds), rest) ∧
    ∀ lim before d after, ds = before ++ d :: after →
      let a := before.foldl (Acc.step lim radix) ⟨0, .noNumber⟩
      let a' := a.step lim radix d
      (a'.state = .overflow ∧ a'.n = a.n) ∨ a'.n.toNat = a.n.toNat * radix + d := by
  refine ⟨?_, ?_, ?_⟩
  · rw [strtolValue_eq]
    exact convert_value h2 hr hlead hsign h hne hrest hpre
  · rw [strtoulValue_eq]
    exact convert_value h2 hr hlead hsign h hne hrest hpre
  · rintro lim before d after rfl
    exact step_noWrap hr (h.2 d (by simp)) _

/-- The string `-80000001` in hexadecimal. -/
theorem strtol_saturates_sample :
    strtol ([] ++
      ([ch '-'] ++ ([ch '8', ch '0', ch '0', ch '0', ch '0', ch '0', ch '0', ch '1'] ++ [])))
      (16 : ℕ) = (LONG_MIN, []) := by
  have h := (@strtol_saturates true [] [ch '-']
    [ch '8', ch '0', ch '0', ch '0', ch '0', ch '0', ch '0', ch '1'] [] 16 [8, 0, 0, 0, 0, 0, 0, 1]
    (by decide) (by decide) (by decide) .minus ⟨by decide, by decide⟩ (by decide) (by decide)
    (by simp [NoPrefix, ch])).1
  exact h.trans (by decide)

end Numeral

/-! ## The subject sequence -/

/-- The radix of digits without a prefix: `0` stands for 8 after a leading `0`, else for 10. -/
def plainRadix (radix : ℤ) (s : List Byte) : ℕ :=
  if radix = 0 then if peek s = ch '0' then 8 else 10 else radix.toNat

/-- At least one digit, after an optional prefix `0x` where the radix allows it: `ds` are the
    digits and `r` is their radix. -/
inductive Digits (radix : ℤ) : List Byte → ℕ → List ℕ → Prop
  | plain {body : List Byte} {ds : List ℕ} (h : Spells (plainRadix radix body) body ds)
      (hne : ds ≠ []) : Digits radix body (plainRadix radix body) ds
  | hex {body : List Byte} {x : Byte} {ds : List ℕ} (hradix : radix = 0 ∨ radix = 16)
      (hx : x = ch 'x' ∨ x = ch 'X') (h : Spells 16 body ds) (hne : ds ≠ []) :
      Digits radix (ch '0' :: x :: body) 16 ds

/-- A text that ANSI C converts: white space, a sign, and digits. -/
def Subject (radix : ℤ) (p : List Byte) (neg : Bool) (r : ℕ) (ds : List ℕ) : Prop :=
  ∃ lead sign t, p = lead ++ (sign ++ t) ∧ (∀ c ∈ lead, isspace c = true) ∧ SignText neg sign ∧
    Digits radix t r ds

/-- The result is the value of the longest subject sequence the string starts with, and the rest of
    the string; or 0 and the string if there is none. -/
def ConvertsSubject (value : Bool → ℕ → BitVec 32) (string : List Byte) (radix : ℤ)
    (result : BitVec 32 × List Byte) : Prop :=
  (∃ p neg r ds, string = p ++ result.2 ∧ Subject radix p neg r ds ∧
    (∀ p' neg' r' ds', p' <+: string → Subject radix p' neg' r' ds' → p'.length ≤ p.length) ∧
    result.1 = value neg (Numeral.value r 0 ds)) ∨
  ((∀ p neg r ds, p <+: string → ¬ Subject radix p neg r ds) ∧ result = (0, string))

/-- After white space and a sign comes a prefix `0x` for the radix, but no hexadecimal digit. -/
def BarePrefix (string : List Byte) (radix : ℤ) : Prop :=
  (radix = 0 ∨ radix = 16) ∧ ∃ lead sign neg x t, string = lead ++ (sign ++ ch '0' :: x :: t) ∧
    (∀ c ∈ lead, isspace c = true) ∧ SignText neg sign ∧ (x = ch 'x' ∨ x = ch 'X') ∧
    isDigitOf 16 (peek t) = false

/-! ## White space and sign -/

/-- No white space and no sign. -/
def Plain (c : Byte) : Prop := isspace c = false ∧ c ≠ ch '-' ∧ c ≠ ch '+'

/-- What follows white space and a sign. -/
def afterSign (string : List Byte) : List Byte :=
  let s := string.dropWhile isspace
  if peek s = ch '-' ∨ peek s = ch '+' then s.tail else s

theorem afterSign_append {neg : Bool} {lead sign s : List Byte}
    (hlead : ∀ c ∈ lead, isspace c = true) (hsign : SignText neg sign)
    (hs : sign = [] → Plain (peek s)) :
    afterSign (lead ++ (sign ++ s)) = s := by
  rw [afterSign, List.dropWhile_append_of_pos hlead]
  cases hsign with
  | none =>
    obtain ⟨hspace, hminus, hplus⟩ := hs rfl
    have hskip : s.dropWhile isspace = s := by
      cases s with
      | nil => rfl
      | cons c s => exact List.dropWhile_cons_of_neg (by simpa using hspace)
    simp [hskip, hminus, hplus]
  | plus | minus => rfl

/-- Every string is white space, a sign and the rest. -/
theorem exists_sign (string : List Byte) :
    ∃ lead sign s neg, string = lead ++ (sign ++ s) ∧ (∀ c ∈ lead, isspace c = true) ∧
      SignText neg sign ∧ (sign = [] → Plain (peek s)) := by
  induction string with
  | nil => exact ⟨[], [], [], false, rfl, by simp, .none, fun _ => by unfold Plain; decide⟩
  | cons c string ih =>
    by_cases hc : isspace c = true
    · obtain ⟨lead, sign, s, neg, rfl, hlead, hsign, hs⟩ := ih
      refine ⟨c :: lead, sign, s, neg, rfl, ?_, hsign, hs⟩
      intro d hd
      rcases List.mem_cons.mp hd with rfl | hd
      · exact hc
      · exact hlead d hd
    · by_cases hminus : c = ch '-'
      · exact ⟨[], [c], string, true, rfl, by simp, hminus ▸ .minus, by simp⟩
      · by_cases hplus : c = ch '+'
        · exact ⟨[], [c], string, false, rfl, by simp, hplus ▸ .plus, by simp⟩
        · exact ⟨[], [], c :: string, false, rfl, by simp, .none,
            fun _ => ⟨Bool.eq_false_iff.mpr hc, hminus, hplus⟩⟩

/-! ## Runs of digits -/

/-- The digits of the radix a string starts with. -/
theorem exists_digits (radix : ℕ) (s : List Byte) :
    ∃ body rest ds, s = body ++ rest ∧ Spells radix body ds ∧
      isDigitOf radix (peek rest) = false := by
  induction s with
  | nil => exact ⟨[], [], [], rfl, ⟨rfl, by simp⟩, rfl⟩
  | cons c s ih =>
    by_cases hc : isDigitOf radix c = true
    · obtain ⟨body, rest, ds, rfl, h, hrest⟩ := ih
      obtain ⟨d, hd, hval⟩ := isDigitOf_iff.mp hc
      have hone : Spells radix [c] [d] := ⟨by simp [hval], by simpa using hd⟩
      exact ⟨c :: body, rest, d :: ds, rfl, hone.append h, hrest⟩
    · exact ⟨[], c :: s, [], rfl, ⟨rfl, by simp⟩, Bool.eq_false_iff.mpr hc⟩

/-- Digits in front of a string are part of the run of digits it starts with. -/
theorem length_le_of_spells {radix : ℕ} {body rest body' rest' : List Byte} {ds : List ℕ}
    (h' : Spells radix body' ds) (hrest : isDigitOf radix (peek rest) = false)
    (heq : body' ++ rest' = body ++ rest) : body'.length ≤ body.length := by
  by_contra hlt
  obtain ⟨u, hu⟩ : body <+: body' := by
    exact List.prefix_of_prefix_length_le ⟨rest, rfl⟩ ⟨rest', heq⟩ (by omega)
  cases u with
  | nil => exact hlt (by rw [← hu, List.append_nil])
  | cons c u =>
    -- the character after the run would be a digit
    have hc : c ∈ body' := by simp [← hu]
    rw [← hu, List.append_assoc] at heq
    obtain rfl := List.append_cancel_left heq
    rw [List.cons_append, peek_cons, ← Bool.not_eq_true, isDigitOf_iff] at hrest
    exact hrest (h'.exists_digit hc)

/-! ## Subject sequences of a string -/

section Digits

variable {radix : ℤ} {s t rest : List Byte} {r : ℕ} {ds : List ℕ}

theorem plainRadix_append (hne : s ≠ []) : plainRadix radix (s ++ rest) = plainRadix radix s := by
  obtain ⟨c, s, rfl⟩ := List.exists_cons_of_ne_nil hne
  rfl

/-- The first character of a subject sequence without white space and sign. -/
theorem Digits.digitValue_peek (h : Digits radix t r ds) (rest : List Byte) :
    (digitValue (Util.peek (t ++ rest))).isSome := by
  cases h with
  | plain h hne => exact h.peek hne rest
  | hex => rfl

theorem Digits.plain_peek (h : Digits radix t r ds) (rest : List Byte) :
    Plain (Util.peek (t ++ rest)) :=
  plain_of_digitValue (h.digitValue_peek rest)

theorem Digits.ne_nil (h : Digits radix t r ds) : t ≠ [] := by
  cases h with
  | plain h hne =>
    rintro rfl
    exact hne (by simpa using h.1.symm)
  | hex => exact List.cons_ne_nil _ _

/-- Without a prefix the digits are of the plain radix. -/
theorem Digits.spells (h : Digits radix t r ds) (hpre : NoPrefix radix (t ++ rest)) :
    Spells (plainRadix radix (t ++ rest)) t ds := by
  have hne := h.ne_nil
  cases h with
  | plain h => rwa [plainRadix_append hne]
  | hex hradix hx => exact absurd ⟨hradix, rfl, hx⟩ hpre

/-- Before a prefix the `0` is the only digit. -/
theorem Digits.length_le_hex {body : List Byte} {x : Byte} (h : Digits radix t r ds)
    (hradix : radix = 0 ∨ radix = 16) (hx : x = ch 'x' ∨ x = ch 'X')
    (hrest : isDigitOf 16 (Util.peek rest) = false) {rest' : List Byte}
    (heq : t ++ rest' = ch '0' :: x :: (body ++ rest)) : t.length ≤
      (ch '0' :: x :: body).length := by
  cases h with
  | plain h hne =>
    rcases t with _ | ⟨c, _ | ⟨d, t⟩⟩
    · simp
    · simp
    · obtain ⟨-, heq⟩ := List.cons.inj heq
      obtain ⟨rfl, -⟩ := List.cons.inj heq
      obtain ⟨e, he, hval⟩ := h.exists_digit (c := d) (by simp)
      have hx' : digitValue d = some 33 := by rcases hx with rfl | rfl <;> rfl
      have hle : plainRadix radix (c :: d :: t) ≤ 16 := by
        unfold plainRadix
        split_ifs <;> omega
      rw [hx'] at hval
      cases hval
      omega
  | hex _ _ h =>
    obtain ⟨-, heq⟩ := List.cons.inj heq
    obtain ⟨-, heq⟩ := List.cons.inj heq
    simpa using length_le_of_spells h hrest heq

end Digits

section Convert

variable {lim saturated : Bool → BitVec 32} {neg : Bool} {lead sign s body rest : List Byte}
  {radix : ℤ} {ds : List ℕ}

/-- A subject sequence up to the rest of the string. -/
theorem Subject.exists_digits {p string : List Byte} {r : ℕ} (h : Subject radix p neg r ds)
    (hp : string = p ++ rest) :
    ∃ t, afterSign string = t ++ rest ∧ Digits radix t r ds ∧
      p.length + (afterSign string).length = string.length + t.length := by
  obtain ⟨lead, sign, t, rfl, hlead, hsign, ht⟩ := h
  rw [List.append_assoc, List.append_assoc] at hp
  have hafter : afterSign string = t ++ rest :=
    hp ▸ afterSign_append hlead hsign fun _ => ht.plain_peek rest
  refine ⟨t, hafter, ht, ?_⟩
  rw [hafter, hp]
  simp only [List.length_append]
  omega

/-- The digits no other subject sequence exceeds are those to convert. -/
theorem convertsSubject_of {value : Bool → ℕ → BitVec 32} {t : List Byte} {r : ℕ}
    (hlead : ∀ c ∈ lead, isspace c = true) (hsign : SignText neg sign) (h : Digits radix t r ds)
    (hlongest : ∀ t' r' ds' rest', Digits radix t' r' ds' → t' ++ rest' = t ++ rest →
      t'.length ≤ t.length) :
    ConvertsSubject value (lead ++ (sign ++ (t ++ rest))) radix
      (value neg (Numeral.value r 0 ds), rest) := by
  refine .inl ⟨lead ++ (sign ++ t), neg, r, ds, ?_, ⟨lead, sign, t, rfl, hlead, hsign, h⟩, ?_, rfl⟩
  · rw [List.append_assoc, List.append_assoc]
  · intro p' neg' r' ds' ⟨rest', hp'⟩ h'
    obtain ⟨t', hafter, ht', hlen⟩ := h'.exists_digits hp'.symm
    rw [afterSign_append hlead hsign fun _ => h.plain_peek rest] at hafter hlen
    have hle := hlongest t' r' ds' rest' ht' hafter.symm
    simp only [List.length_append] at hlen ⊢
    omega

theorem two_le_plainRadix (hradix : radix = 0 ∨ 2 ≤ radix ∧ radix ≤ 36) (s : List Byte) :
    2 ≤ plainRadix radix s ∧ plainRadix radix s ≤ 36 := by
  unfold plainRadix
  split_ifs <;> omega

theorem cast_plainRadix (hradix : radix = 0 ∨ 2 ≤ radix ∧ radix ≤ 36) (s : List Byte) :
    (if radix = 0 then if peek s = ch '0' then 8 else 10 else radix) =
    (plainRadix radix s : ℤ) := by
  unfold plainRadix
  split_ifs
  · rfl
  · rfl
  · omega

/-- The string does not start with a bare prefix, told from what follows white space and sign. -/
theorem barePrefix_iff (hlead : ∀ c ∈ lead, isspace c = true) (hsign : SignText neg sign)
    (hplain : sign = [] → Plain (peek s)) :
    BarePrefix (lead ++ (sign ++ s)) radix ↔
      (radix = 0 ∨ radix = 16) ∧ ∃ x t, s = ch '0' :: x :: t ∧ (x = ch 'x' ∨ x = ch 'X') ∧
        isDigitOf 16 (peek t) = false := by
  constructor
  · intro ⟨hradix, lead', sign', neg', x, t, heq, hlead', hsign', hx, ht⟩
    have hs : s = ch '0' :: x :: t := by
      rw [← afterSign_append hlead hsign hplain, heq]
      exact afterSign_append hlead' hsign' fun _ => plain_of_digitValue rfl
    exact ⟨hradix, x, t, hs, hx, ht⟩
  · rintro ⟨hradix, x, t, rfl, hx, ht⟩
    exact ⟨hradix, lead, sign, neg, x, t, rfl, hlead, hsign, hx, ht⟩

/-- Without a prefix the conversion is right. -/
theorem convertsSubject_noPrefix (hradix : radix = 0 ∨ 2 ≤ radix ∧ radix ≤ 36)
    (hlead : ∀ c ∈ lead, isspace c = true) (hsign : SignText neg sign)
    (hplain : sign = [] → Plain (peek s)) (hpre : NoPrefix radix s) :
    ConvertsSubject (convertValue lim saturated) (lead ++ (sign ++ s)) radix
      (convert lim saturated (lead ++ (sign ++ s)) radix) := by
  obtain ⟨h2, hr⟩ := two_le_plainRadix hradix s
  obtain ⟨body, rest, ds, hs, h, hrest⟩ := Util.exists_digits (plainRadix radix s) s
  rw [convert_skip hlead hsign hplain, radixPrefix_noPrefix hpre]
  dsimp only
  rw [cast_plainRadix hradix]
  have hlongest (t' : List Byte) (r' : ℕ) (ds' : List ℕ) (rest' : List Byte)
      (h' : Digits radix t' r' ds') (heq : t' ++ rest' = s) : t'.length ≤ body.length := by
    have hpre' : NoPrefix radix (t' ++ rest') := heq ▸ hpre
    have hspells := h'.spells hpre'
    rw [heq] at hspells
    exact length_le_of_spells hspells hrest (heq.trans hs)
  by_cases hne : ds = []
  · obtain rfl : body = [] := by simpa [hne] using h.1
    rw [List.nil_append] at hs
    rw [conversion_noNumber h2 hr (hs ▸ hrest)]
    refine .inr ⟨?_, rfl⟩
    intro p neg' r' ds' ⟨rest', hp⟩ h'
    obtain ⟨t', hafter, ht', -⟩ := h'.exists_digits hp.symm
    rw [afterSign_append hlead hsign hplain] at hafter
    have hle := hlongest t' r' ds' rest' ht' hafter.symm
    exact ht'.ne_nil (List.length_eq_zero_iff.mp (Nat.le_zero.mp hle))
  · have hbody : body ≠ [] := by
      rintro rfl
      exact hne (by simpa using h.1.symm)
    subst hs
    rw [conversion_value h2 hr h hne hrest]
    rw [plainRadix_append hbody] at h ⊢
    exact convertsSubject_of hlead hsign (.plain h hne) hlongest

/-- With a prefix and a digit it is right, and with a prefix alone it is not. -/
theorem convertsSubject_hex_iff {x : Byte} {t : List Byte} (hradix : radix = 0 ∨ radix = 16)
    (hlead : ∀ c ∈ lead, isspace c = true) (hsign : SignText neg sign)
    (hx : x = ch 'x' ∨ x = ch 'X') :
    ConvertsSubject (convertValue lim saturated) (lead ++ (sign ++ ch '0' :: x :: t)) radix
      (convert lim saturated (lead ++ (sign ++ ch '0' :: x :: t)) radix) ↔
        isDigitOf 16 (peek t) = true := by
  obtain ⟨body, rest, ds, rfl, h, hrest⟩ := Util.exists_digits 16 t
  rw [convert_skip hlead hsign fun _ => plain_of_digitValue rfl, radixPrefix_hex hx hradix]
  by_cases hne : ds = []
  · obtain rfl : body = [] := by simpa [hne] using h.1
    rw [List.nil_append] at *
    refine iff_of_false ?_ (by simp [hrest])
    -- the `0` is a subject sequence of its own, but the result is that there is none
    have hdigits : Digits radix [ch '0'] (plainRadix radix [ch '0']) [0] := by
      refine .plain ⟨rfl, ?_⟩ (by simp)
      have hpos : 0 < plainRadix radix [ch '0'] := by
        unfold plainRadix
        split_ifs <;> omega
      simpa using hpos
    have hconv : conversion (lim neg) (saturated neg) neg
      (lead ++ (sign ++ ch '0' :: x :: rest)) rest
        16 = (0, lead ++ (sign ++ ch '0' :: x :: rest)) :=
      conversion_noNumber (show 2 ≤ 16 by decide) (by decide) hrest
    rw [hconv]
    rintro (⟨p, neg', r', ds', hp, h', -⟩ | ⟨hnone, -⟩)
    · obtain ⟨lead', sign', t', rfl, -, -, ht'⟩ := h'
      have hlen := congrArg List.length hp
      have ht'' := List.length_pos_of_ne_nil ht'.ne_nil
      simp only [List.length_append] at hlen
      omega
    · refine hnone (lead ++ (sign ++ [ch '0'])) neg _ [0] ⟨x :: rest, ?_⟩
        ⟨lead, sign, [ch '0'], rfl, hlead, hsign, hdigits⟩
      simp
  · have hpeek : isDigitOf 16 (peek (body ++ rest)) = true := by
      cases body with
      | nil => exact absurd (by simpa using h.1.symm) hne
      | cons c body => exact isDigitOf_iff.mpr (h.exists_digit (by simp))
    refine iff_of_true ?_ hpeek
    have hconv : conversion (lim neg) (saturated neg) neg
        (lead ++ (sign ++ ch '0' :: x :: (body ++ rest))) (body ++ rest) 16 =
          (convertValue lim saturated neg (Numeral.value 16 0 ds), rest) :=
      conversion_value (show 2 ≤ 16 by decide) (by decide) h hne hrest
    rw [hconv]
    exact convertsSubject_of hlead hsign (.hex hradix hx h hne)
      fun t' r' ds' rest' h' heq => h'.length_le_hex hradix hx hrest heq

/-- **The subject sequence**: a conversion takes it as ANSI C says, unless the string has a prefix
    `0x` without a digit. -/
theorem convertsSubject_iff (hradix : radix = 0 ∨ 2 ≤ radix ∧ radix ≤ 36) (string : List Byte) :
    ConvertsSubject (convertValue lim saturated) string radix (convert lim saturated string radix) ↔
      ¬ BarePrefix string radix := by
  obtain ⟨lead, sign, s, neg, rfl, hlead, hsign, hplain⟩ := exists_sign string
  rw [barePrefix_iff hlead hsign hplain]
  by_cases hpre : NoPrefix radix s
  · refine iff_of_true (convertsSubject_noPrefix hradix hlead hsign hplain hpre) ?_
    rintro ⟨hr, x, t, rfl, hx, -⟩
    exact hpre ⟨hr, rfl, hx⟩
  · obtain ⟨hr, hzero, hx⟩ := not_not.mp hpre
    obtain ⟨x, t, rfl⟩ : ∃ x t, s = ch '0' :: x :: t := by
      rcases s with _ | ⟨c, _ | ⟨x, t⟩⟩
      · exact absurd hzero (by decide)
      · rw [List.tail_cons] at hx
        rcases hx with hx | hx <;> exact absurd hx (by decide)
      · exact ⟨x, t, by rw [← hzero, peek_cons]⟩
    rw [List.tail_cons, peek_cons] at hx
    rw [convertsSubject_hex_iff hr hlead hsign hx, ← Bool.not_eq_false, not_iff_not]
    constructor
    · exact fun ht => ⟨hr, x, t, rfl, hx, ht⟩
    · rintro ⟨-, x', t', heq, -, ht⟩
      obtain ⟨-, heq⟩ := List.cons.inj heq
      obtain ⟨-, rfl⟩ := List.cons.inj heq
      exact ht

end Convert

/-- `strtol` and `strtoul` take the subject sequence exactly when the string has no bare prefix. -/
theorem subject_iff {radix : ℤ} (hradix : radix = 0 ∨ 2 ≤ radix ∧ radix ≤ 36) (string : List Byte) :
    (ConvertsSubject strtolValue string radix (strtol string radix) ↔ ¬ BarePrefix string radix) ∧
    (ConvertsSubject strtoulValue string radix (strtoul string radix) ↔
      ¬ BarePrefix string radix) := by
  constructor
  · rw [strtolValue_eq]
    exact convertsSubject_iff hradix string
  · rw [strtoulValue_eq]
    exact convertsSubject_iff hradix string

/-- The string `-0x1F` in radix 16. -/
theorem subject_iff_sample :
    ConvertsSubject strtolValue [ch '-', ch '0', ch 'x', ch '1', ch 'F'] 16
        (strtol [ch '-', ch '0', ch 'x', ch '1', ch 'F'] 16) ↔
      ¬ BarePrefix [ch '-', ch '0', ch 'x', ch '1', ch 'F'] 16 :=
  (subject_iff (.inr (by decide)) _).1

/-- `0xg` has the subject sequence `0`, but is converted to nothing. -/
theorem not_convertsSubject_sample :
    ¬ ConvertsSubject strtolValue [ch '0', ch 'x', ch 'g'] 16 (strtol [ch '0', ch 'x', ch 'g'] 16) ∧
    ¬ ConvertsSubject strtoulValue [ch '0', ch 'x', ch 'g'] 16
      (strtoul [ch '0', ch 'x', ch 'g'] 16) := by
  have hg : isDigitOf 16 (peek [ch 'g']) ≠ true := by decide
  constructor
  · rw [strtolValue_eq]
    exact mt (@convertsSubject_hex_iff _ _ false [] [] 16 _ _ (.inr rfl) (by simp) .none
      (.inl rfl)).mp hg
  · rw [strtoulValue_eq]
    exact mt (@convertsSubject_hex_iff _ _ false [] [] 16 _ _ (.inr rfl) (by simp) .none
      (.inl rfl)).mp hg

end Mwdd32.Util
