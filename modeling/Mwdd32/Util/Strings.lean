import Mwdd32.Util.Strtol

/-!
# Strings in their buffers

Model of `util/strupr.c` and `util/STRPBRK.C`, of the compiler's `strncmp`, and of the reads of
`util/STRTOUL.C`. As in `__mwdd32_fnmatch` a pointer is what is left of its buffer, the terminating
null included, and a result is none where the code reads past the end of the buffer.

* `strtoulBuf_null`: `__mwdd32_strtoul` stays in its buffer, and its result is that of `strtoul`.
* `strtoul_passed`: what `strtoul` with radix 0 leaves behind are white space, a sign and digits,
  with a digit behind the sign.
-/

namespace Mwdd32.Util

/-! ## Model -/

/-- `_toupper` -/
def toupper (c : Byte) : Byte := c - ch 'a' + ch 'A'

/-- The letter that `strupr` stores. -/
def upper (c : Byte) : Byte := if islower c then toupper c else c

/-- `__mwdd32_strupr` (util/strupr.c), with the buffer it leaves. -/
def strupr : List Byte → Option (List Byte)
  | [] => none
  | c :: p => if c = 0 then some (c :: p) else (strupr p).map (upper c :: ·)

/-- `__mwdd32_strpbrk` (util/STRPBRK.C:34-49), with `none` for the null pointer. The table has a
    zero for the characters of `string2` and for the null. -/
def strpbrk (string2 : List Byte) : List Byte → Option (Option (List Byte))
  | [] => none
  | c :: string1 =>
    if c ≠ 0 ∧ c ∉ string2 then strpbrk string2 string1
    else some (if c = 0 then none else some (c :: string1))

/-- `strncmp(s, lit, sizeof(lit) - 1) == 0` for a string literal. -/
def strncmpEq : List Byte → List Byte → Option Bool
  | _, [] => some true
  | [], _ :: _ => none
  | c :: s, d :: lit => if c = d then strncmpEq s lit else some false

/-- `while (isspace (*s)) ++s` -/
def skipSpace : List Byte → Option (List Byte)
  | [] => none
  | c :: s => if isspace c then skipSpace s else some (c :: s)

/-- `scan` in the buffer. -/
def scanBuf (lim : BitVec 32) (radix : ℕ) (a : Acc) : List Byte → Option (Acc × List Byte)
  | [] => none
  | c :: s =>
    match digitValue c with
    | none => some (a, c :: s)
    | some d => if radix ≤ d then some (a, c :: s) else scanBuf lim radix (a.step lim radix d) s

/-- `radixPrefix` in the buffer: `s[1]` is read after a `0` only. -/
def radixPrefixBuf (s : List Byte) (radix : ℤ) : Option (ℤ × List Byte) := do
  let c ← s.head?
  let hex ← if (radix = 0 ∨ radix = 16) ∧ c = ch '0' then
      s.tail.head?.map fun x => decide (x = ch 'x' ∨ x = ch 'X')
    else some false
  let radix := if hex then 16 else radix
  let s := if hex then s.drop 2 else s
  if radix = 0 then
    let c ← s.head?
    return (if c = ch '0' then 8 else 10, s)
  else return (radix, s)

/-- `conversion` in the buffer. -/
def conversionBuf (lim saturated : BitVec 32) (neg : Bool) (string s : List Byte) (radix : ℤ) :
    Option (BitVec 32 × List Byte) :=
  if 2 ≤ radix ∧ radix ≤ 36 then do
    let r ← scanBuf lim radix.toNat ⟨0, .noNumber⟩ s
    match r.1.state with
    | .noNumber => return (0, string)
    | .ok => return (if neg then -r.1.n else r.1.n, r.2)
    | .overflow => return (saturated, r.2)
  else some (0, s)

/-- `__mwdd32_strtoul` in the buffer. -/
def strtoulBuf (string : List Byte) (radix : ℤ) : Option (BitVec 32 × List Byte) := do
  let s ← skipSpace string
  let c ← s.head?
  let neg := c == ch '-'
  let s := if c = ch '-' ∨ c = ch '+' then s.tail else s
  let p ← radixPrefixBuf s radix
  conversionBuf ULONG_MAX ULONG_MAX neg string p.2 p.1

/-! ## Reads up to the null -/

theorem head?_null (s : List Byte) : (s ++ [0]).head? = some (peek s) := by
  cases s <;> rfl

theorem tail_null {s : List Byte} (h : peek s ≠ 0) : (s ++ [0]).tail = s.tail ++ [0] := by
  cases s with
  | nil => exact absurd rfl h
  | cons c s => rfl

theorem upper_ne_zero {c : Byte} (hc : c ≠ 0) : upper c ≠ 0 := by
  have ha : (ch 'a').toNat = 97 := rfl
  have hz : (ch 'z').toNat = 122 := rfl
  have hA : (ch 'A').toNat = 65 := rfl
  unfold upper toupper
  split_ifs with h
  · simp only [islower, decide_eq_true_eq] at h
    bv_omega
  · exact hc

theorem strupr_null {s : List Byte} (hs : ∀ c ∈ s, c ≠ 0) :
    strupr (s ++ [0]) = some (s.map upper ++ [0]) := by
  induction s with
  | nil => rfl
  | cons c s ih =>
    rw [List.cons_append, strupr, if_neg (hs c List.mem_cons_self),
      ih fun d hd => hs d (.tail _ hd)]
    rfl

theorem strpbrk_null {set s : List Byte} (hs : ∀ c ∈ s, c ≠ 0) :
    strpbrk set (s ++ [0]) =
      some (if (s.dropWhile (· ∉ set)) = [] then none else some
        (s.dropWhile (· ∉ set) ++ [0])) := by
  induction s with
  | nil =>
    rw [List.nil_append, strpbrk, if_neg (by simp)]
    rfl
  | cons c s ih =>
    have hc := hs c List.mem_cons_self
    rw [List.cons_append, strpbrk, List.dropWhile_cons]
    by_cases hmem : c ∈ set
    · have hc' : ¬ c = 0#8 := hc
      simp [hmem, hc']
    · simp only [hmem, hc, not_false_eq_true, ne_eq, and_self, if_true, decide_true]
      exact ih fun d hd => hs d (.tail _ hd)

theorem strncmpEq_null {lit : List Byte} (hlit : 0 ∉ lit) (s : List Byte) :
    strncmpEq (s ++ [0]) lit = some (decide (lit <+: s)) := by
  induction lit generalizing s with
  | nil => simp [strncmpEq]
  | cons d lit ih =>
    rw [List.mem_cons, not_or] at hlit
    cases s with
    | nil =>
      rw [List.nil_append, strncmpEq, if_neg hlit.1]
      simp
    | cons c s =>
      rw [List.cons_append, strncmpEq, ih hlit.2]
      by_cases hcd : c = d
      · simp [hcd, List.cons_prefix_cons]
      · have hdc : ¬ d = c := Ne.symm hcd
        simp [hcd, hdc, List.cons_prefix_cons]

theorem skipSpace_null (s : List Byte) :
    skipSpace (s ++ [0]) = some (s.dropWhile isspace ++ [0]) := by
  induction s with
  | nil => rfl
  | cons c s ih =>
    rw [List.cons_append, skipSpace, List.dropWhile_cons, ih]
    split_ifs <;> rfl

theorem scanBuf_null (lim : BitVec 32) (radix : ℕ) (a : Acc) (s : List Byte) :
    scanBuf lim radix a (s ++ [0]) =
      some ((scan lim radix a s).1, (scan lim radix a s).2 ++ [0]) := by
  induction s generalizing a with
  | nil => rfl
  | cons c s ih =>
    rw [List.cons_append, scanBuf, scan]
    cases digitValue c with
    | none => rfl
    | some d =>
      simp only
      split_ifs
      · rfl
      · exact ih _

theorem radixPrefixBuf_null (s : List Byte) (radix : ℤ) :
    radixPrefixBuf (s ++ [0]) radix =
      some ((radixPrefix s radix).1, (radixPrefix s radix).2 ++ [0]) := by
  unfold radixPrefixBuf radixPrefix
  by_cases hzero : (radix = 0 ∨ radix = 16) ∧ peek s = ch '0'
  · have htail : (s ++ [0]).tail = s.tail ++ [0] := tail_null (by rw [hzero.2]; decide)
    by_cases hx : peek s.tail = ch 'x' ∨ peek s.tail = ch 'X'
    · have hdrop : (s ++ [0]).drop 2 = s.drop 2 ++ [0] := by
        have hne : peek s.tail ≠ 0 := by
          rcases hx with hx | hx <;> rw [hx] <;> decide
        rw [← List.tail_drop, List.drop_one, htail, tail_null hne, ← List.tail_drop, List.drop_one]
      have hhex : (radix = 0 ∨ radix = 16) ∧ peek s = ch '0' ∧
          (peek s.tail = ch 'x' ∨ peek s.tail = ch 'X') := ⟨hzero.1, hzero.2, hx⟩
      simp only [htail, head?_null, Option.bind_eq_bind, Option.bind_some, Option.map_some,
        if_pos hzero, if_pos hhex, decide_eq_true hx, hdrop, if_true]
      rfl
    · have hhex : ¬ ((radix = 0 ∨ radix = 16) ∧ peek s = ch '0' ∧
          (peek s.tail = ch 'x' ∨ peek s.tail = ch 'X')) := fun h => hx h.2.2
      simp only [htail, head?_null, Option.bind_eq_bind, Option.bind_some, Option.map_some,
        if_pos hzero, if_neg hhex, decide_eq_false hx, Bool.false_eq_true, if_false]
      split_ifs <;> rfl
  · have hhex : ¬ ((radix = 0 ∨ radix = 16) ∧ peek s = ch '0' ∧
        (peek s.tail = ch 'x' ∨ peek s.tail = ch 'X')) := fun h => hzero ⟨h.1, h.2.1⟩
    simp only [head?_null, Option.bind_eq_bind, Option.bind_some, if_neg hzero, if_neg hhex,
      Bool.false_eq_true, if_false]
    split_ifs <;> rfl

theorem conversionBuf_null (lim saturated : BitVec 32) (neg : Bool) (string s : List Byte)
    (radix : ℤ) :
    conversionBuf lim saturated neg (string ++ [0]) (s ++ [0]) radix =
      some ((conversion lim saturated neg string s radix).1,
        (conversion lim saturated neg string s radix).2 ++ [0]) := by
  unfold conversionBuf conversion
  by_cases hr : 2 ≤ radix ∧ radix ≤ 36
  · simp only [if_pos hr, scanBuf_null, Option.bind_eq_bind, Option.bind_some]
    cases (scan lim radix.toNat ⟨0, .noNumber⟩ s).1.state <;> rfl
  · simp only [if_neg hr]

/-- **`__mwdd32_strtoul` reads up to the null at most.** -/
theorem strtoulBuf_null (s : List Byte) (radix : ℤ) :
    strtoulBuf (s ++ [0]) radix = some ((strtoul s radix).1, (strtoul s radix).2 ++ [0]) := by
  unfold strtoulBuf strtoul convert
  simp only [skipSpace_null, head?_null, Option.bind_eq_bind, Option.bind_some]
  have hsign : (if peek (s.dropWhile isspace) = ch '-' ∨ peek (s.dropWhile isspace) = ch '+' then
        (s.dropWhile isspace ++ [0]).tail else s.dropWhile isspace ++ [0]) =
      (if peek (s.dropWhile isspace) = ch '-' ∨ peek (s.dropWhile isspace) = ch '+' then
        (s.dropWhile isspace).tail else s.dropWhile isspace) ++ [0] := by
    split_ifs with h
    · refine tail_null ?_
      rcases h with h | h <;> rw [h] <;> decide
    · rfl
  rw [hsign, radixPrefixBuf_null, Option.bind_some, conversionBuf_null]

/-! ## What `strtoul` passes over -/

/-- `e` is what is left of `s` after some characters, in which a `-` or `/` only comes in front of a
    decimal digit. -/
inductive Passed : List Byte → List Byte → Prop
  | refl (s : List Byte) : Passed s s
  | cons {c : Byte} {s e : List Byte} : (c = ch '-' ∨ c = ch '/' → isdigit (peek s) = true) →
      Passed s e → Passed (c :: s) e

theorem Passed.suffix {s e : List Byte} (h : Passed s e) : e <:+ s := by
  induction h with
  | refl s => exact List.suffix_refl s
  | cons _ _ ih => exact ih.trans (List.suffix_cons _ _)

theorem Passed.append {l s e : List Byte} (hl : ∀ c ∈ l, c ≠ ch '-' ∧ c ≠ ch '/')
    (h : Passed s e) : Passed (l ++ s) e := by
  induction l with
  | nil => exact h
  | cons c l ih =>
    obtain ⟨h1, h2⟩ := hl c List.mem_cons_self
    exact .cons (fun hc => absurd hc (not_or.mpr ⟨h1, h2⟩)) (ih fun d hd => hl d (.tail _ hd))

/-- A character of a numeral is passed over. -/
theorem Passed.cons_digit {c : Byte} {s e : List Byte} (hc : (digitValue c).isSome)
    (h : Passed s e) : Passed (c :: s) e := by
  refine .cons (fun hsw => ?_) h
  rcases hsw with rfl | rfl
  · exact absurd hc (by decide)
  · exact absurd hc (by decide)

theorem passed_dropWhile {s e : List Byte} (h : Passed (s.dropWhile isspace) e) : Passed s e := by
  induction s with
  | nil => exact h
  | cons c s ih =>
    rw [List.dropWhile_cons] at h
    split_ifs at h with hspace
    · refine .cons (fun hsw => ?_) (ih h)
      rcases hsw with rfl | rfl
      · exact absurd hspace (by decide)
      · exact absurd hspace (by decide)
    · exact h

theorem passed_scan (lim : BitVec 32) (radix : ℕ) (a : Acc) (s : List Byte) :
    Passed s (scan lim radix a s).2 := by
  induction s generalizing a with
  | nil => exact .refl []
  | cons c s ih =>
    rw [scan]
    cases hd : digitValue c with
    | none => exact .refl _
    | some d =>
      simp only
      split_ifs
      · exact .refl _
      · exact (ih _).cons_digit (by rw [hd]; rfl)

/-- The loop reads a number from a digit on only. -/
theorem isDigitOf_of_scan {lim : BitVec 32} {radix : ℕ} {s : List Byte}
    (h : (scan lim radix ⟨0, .noNumber⟩ s).1.state ≠ .noNumber) :
    isDigitOf radix (peek s) = true := by
  cases s with
  | nil => exact absurd rfl h
  | cons c s =>
    rw [peek_cons]
    unfold isDigitOf
    rw [scan] at h
    cases hd : digitValue c with
    | none =>
      rw [hd] at h
      exact absurd rfl h
    | some d =>
      simp only [hd] at h
      split_ifs at h with hr
      · exact absurd rfl h
      · simpa using hr

theorem isdigit_of_isDigitOf {radix : ℕ} (hr : radix ≤ 10) {c : Byte}
    (h : isDigitOf radix c = true) : isdigit c = true := by
  unfold isDigitOf at h
  cases hd : digitValue c with
  | none => simp [hd] at h
  | some d =>
    have hlt : d < radix := by simpa [hd] using h
    exact decide_eq_true (decimal_of_digitValue hd (by omega)).1

theorem radixPrefix_zero {s : List Byte}
    (h : ¬ (peek s = ch '0' ∧ (peek s.tail = ch 'x' ∨ peek s.tail = ch 'X'))) :
    radixPrefix s 0 = (if peek s = ch '0' then 8 else 10, s) := by
  unfold radixPrefix
  simp [h]

/-- A number from its prefix or first digit on. -/
theorem passed_digits {lim : BitVec 32} {s : List Byte}
    (h : (scan lim (radixPrefix s 0).1.toNat ⟨0, .noNumber⟩ (radixPrefix s 0).2).1.state
      ≠ .noNumber) :
    isdigit (peek s) = true ∧
      Passed s (scan lim (radixPrefix s 0).1.toNat ⟨0, .noNumber⟩ (radixPrefix s 0).2).2 := by
  by_cases hx : peek s = ch '0' ∧ (peek s.tail = ch 'x' ∨ peek s.tail = ch 'X')
  · obtain ⟨x, t, hx', rfl⟩ : ∃ x t, (x = ch 'x' ∨ x = ch 'X') ∧ s = ch '0' :: x :: t := by
      match s, hx with
      | c :: x :: t, ⟨h0, hx⟩ => exact ⟨x, t, hx, by rw [← h0]; rfl⟩
    rw [radixPrefix_hex hx' (.inl rfl), peek_cons]
    refine ⟨by decide, ?_⟩
    have hlast : Passed (x :: t) (scan lim 16 ⟨0, .noNumber⟩ t).2 := by
      refine .cons (fun hsw => ?_) (passed_scan lim 16 _ t)
      rcases hx' with rfl | rfl <;> exact absurd hsw (by decide)
    exact hlast.cons_digit (by decide)
  · rw [radixPrefix_zero hx] at h ⊢
    have hdigit := isDigitOf_of_scan h
    refine ⟨isdigit_of_isDigitOf ?_ hdigit, passed_scan _ _ _ _⟩
    simp only
    split_ifs <;> decide

theorem radixPrefix_zero_range (s : List Byte) :
    2 ≤ (radixPrefix s 0).1 ∧ (radixPrefix s 0).1 ≤ 36 := by
  by_cases hx : peek s = ch '0' ∧ (peek s.tail = ch 'x' ∨ peek s.tail = ch 'X')
  · unfold radixPrefix
    simp [hx]
  · rw [radixPrefix_zero hx]
    simp only
    split_ifs <;> decide

/-- **`strtoul` with radix 0 passes over white space, a sign in front of a digit, and digits.** -/
theorem strtoul_passed (s : List Byte) : Passed s (strtoul s 0).2 := by
  unfold strtoul convert conversion
  simp only
  set t := s.dropWhile isspace with ht
  set u := if peek t = ch '-' ∨ peek t = ch '+' then t.tail else t with hu
  have hread : (scan ULONG_MAX (radixPrefix u 0).1.toNat ⟨0, .noNumber⟩
      (radixPrefix u 0).2).1.state ≠ .noNumber →
      Passed s (scan ULONG_MAX (radixPrefix u 0).1.toNat ⟨0, .noNumber⟩ (radixPrefix u 0).2).2 := by
    intro hstate
    obtain ⟨hdigit, hpassed⟩ := passed_digits hstate
    apply passed_dropWhile
    rw [← ht]
    by_cases hsign : peek t = ch '-' ∨ peek t = ch '+'
    · obtain ⟨c, t', hct⟩ : ∃ c t', t = c :: t' := by
        refine List.exists_cons_of_ne_nil fun hnil => ?_
        rw [hnil] at hsign
        exact absurd hsign (by decide)
      have hut : u = t' := by rw [hu, if_pos hsign, hct, List.tail_cons]
      rw [hut] at hdigit hpassed
      rw [hct, hut]
      exact .cons (fun _ => hdigit) hpassed
    · have hut : u = t := by rw [hu, if_neg hsign]
      rw [hut] at hpassed ⊢
      exact hpassed
  rw [if_pos (radixPrefix_zero_range u)]
  split
  · exact .refl s
  · next hok => exact hread (by rw [hok]; decide)
  · next hover => exact hread (by rw [hover]; decide)

end Mwdd32.Util
