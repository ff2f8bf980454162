import Mwdd32.Lib.Numeral
import Mwdd32.Util.Ctype

/-!
# `__mwdd32_strtol`, `__mwdd32_strtoul` and `__mwdd32_atol`

Model of `util/strtol.c`, `util/STRTOUL.C` and `util/atol.c`. A string is the
list of the characters before its terminating null, a pointer into it the rest
of the string from there on. `strtol` and `strtoul` have one text up to the
limit of the accumulator and the value of an overflow, so both are `convert`.

* `scan_eq`: the digit loop stops at the first character that is no digit of the
  radix and has then folded the accumulator over the digits before it.
* `foldl_step`: the accumulator never wraps. It holds the number read, or
  `overflow` exactly when that number exceeds the limit.
* `convert_numeral`, `atol_numeral`: the value and the end pointer for a string
  of white space, sign, prefix and digits.
-/

namespace Mwdd32.Util

/-! ## Model -/

/-- The value of a digit or a letter (strtol.c:82-90), none at any other character. -/
def digitValue (c : Byte) : Option ℕ :=
  if ch '0' ≤ c ∧ c ≤ ch '9' then some (c - ch '0').toNat
  else if ch 'A' ≤ c ∧ c ≤ ch 'Z' then some (c - ch 'A' + 10).toNat
  else if ch 'a' ≤ c ∧ c ≤ ch 'z' then some (c - ch 'a' + 10).toNat
  else none

/-- The `state` of the digit loop. -/
inductive State
  | noNumber
  | ok
  | overflow
  deriving DecidableEq, Repr

/-- `n` and `state` -/
structure Acc where
  n : BitVec 32
  state : State
  deriving DecidableEq, Repr

/-- One digit `c` of the loop (strtol.c:93-99). -/
def Acc.step (lim : BitVec 32) (radix : ℕ) (a : Acc) (c : ℕ) : Acc :=
  let max1 := lim / BitVec.ofNat 32 radix
  let max2 := lim - max1 * BitVec.ofNat 32 radix
  let state := if max1 ≤ a.n ∧ (max1 < a.n ∨ max2.toNat < c) then .overflow else a.state
  if state ≠ .overflow then ⟨a.n * BitVec.ofNat 32 radix + BitVec.ofNat 32 c, .ok⟩
  else ⟨a.n, state⟩

/-- `for (;;)` over the digits (strtol.c:80-101), with `s` where the loop breaks. -/
def scan (lim : BitVec 32) (radix : ℕ) (a : Acc) : List Byte → Acc × List Byte
  | [] => (a, [])
  | c :: s =>
    match digitValue c with
    | none => (a, c :: s)
    | some d => if radix ≤ d then (a, c :: s) else scan lim radix (a.step lim radix d) s

/-- The radix and the rest of the string after a prefix (strtol.c:61-67). -/
def radixPrefix (s : List Byte) (radix : ℤ) : ℤ × List Byte :=
  let hex := (radix = 0 ∨ radix = 16) ∧ peek s = ch '0' ∧
    (peek s.tail = ch 'x' ∨ peek s.tail = ch 'X')
  let radix := if hex then 16 else radix
  let s := if hex then s.drop 2 else s
  (if radix = 0 then if peek s = ch '0' then 8 else 10 else radix, s)

/-- The result and `*end_ptr` from the digits on (strtol.c:69-129). -/
def conversion (lim saturated : BitVec 32) (neg : Bool) (string s : List Byte) (radix : ℤ) :
    BitVec 32 × List Byte :=
  if 2 ≤ radix ∧ radix ≤ 36 then
    let r := scan lim radix.toNat ⟨0, .noNumber⟩ s
    match r.1.state with
    | .noNumber => (0, string)
    | .ok => (if neg then -r.1.n else r.1.n, r.2)
    | .overflow => (saturated, r.2)
  else (0, s)

/-- The text common to `__mwdd32_strtol` and `__mwdd32_strtoul`. `lim` is the largest
    value without overflow and `saturated` the result of one, both given the sign. -/
def convert (lim saturated : Bool → BitVec 32) (string : List Byte) (radix : ℤ) :
    BitVec 32 × List Byte :=
  let s := string.dropWhile isspace
  let neg := peek s == ch '-'
  let s := if peek s = ch '-' ∨ peek s = ch '+' then s.tail else s
  let p := radixPrefix s radix
  conversion (lim neg) (saturated neg) neg string p.2 p.1

/-- `__mwdd32_strtol` (util/strtol.c:39-130) -/
def strtol : List Byte → ℤ → BitVec 32 × List Byte :=
  convert (fun neg => if neg then -LONG_MIN else LONG_MAX)
    (fun neg => if neg then LONG_MIN else LONG_MAX)

/-- `__mwdd32_strtoul` (util/STRTOUL.C:39-129) -/
def strtoul : List Byte → ℤ → BitVec 32 × List Byte :=
  convert (fun _ => ULONG_MAX) (fun _ => ULONG_MAX)

/-- The digit loop of `__mwdd32_atol` (util/atol.c:56-60). -/
def atolDigits (n : BitVec 32) : List Byte → BitVec 32
  | [] => n
  | c :: s =>
    if ch '0' ≤ c ∧ c ≤ ch '9' then atolDigits (n * 10 + (c - ch '0').setWidth 32) s else n

/-- `__mwdd32_atol` (util/atol.c:39-62) -/
def atol (string : List Byte) : BitVec 32 :=
  let s := string.dropWhile fun c => c = ch ' ' ∨ c = ch '\t'
  let neg := peek s == ch '-'
  let s := if peek s = ch '+' ∨ peek s = ch '-' then s.tail else s
  let n := atolDigits 0 s
  if neg then -n else n

/-! ## The digit loop -/

/-- `c` is a digit of the radix. -/
def isDigitOf (radix : ℕ) (c : Byte) : Bool := (digitValue c).any (· < radix)

theorem isDigitOf_iff {radix : ℕ} {c : Byte} :
    isDigitOf radix c = true ↔ ∃ d < radix, digitValue c = some d := by
  unfold isDigitOf
  cases digitValue c with
  | none => simp
  | some d => simp

/-- `body` spells the digits `ds` of the radix. -/
def Spells (radix : ℕ) (body : List Byte) (ds : List ℕ) : Prop :=
  body.map digitValue = ds.map some ∧ ∀ d ∈ ds, d < radix

theorem Spells.cons_inv {radix : ℕ} {c : Byte} {body : List Byte} {ds : List ℕ}
    (h : Spells radix (c :: body) ds) :
    ∃ d es, ds = d :: es ∧ digitValue c = some d ∧ d < radix ∧ Spells radix body es := by
  obtain ⟨hmap, hlt⟩ := h
  cases ds with
  | nil => simp at hmap
  | cons d es =>
    rw [List.map_cons, List.map_cons, List.cons.injEq] at hmap
    exact ⟨d, es, rfl, hmap.1, hlt d (by simp), hmap.2, fun e he => hlt e (by simp [he])⟩

theorem Spells.exists_digit {radix : ℕ} {body : List Byte} {ds : List ℕ} (h : Spells radix body ds)
    {c : Byte} (hc : c ∈ body) : ∃ d < radix, digitValue c = some d := by
  have hmem : digitValue c ∈ ds.map some := h.1 ▸ List.mem_map_of_mem hc
  obtain ⟨d, hd, he⟩ := List.mem_map.mp hmem
  exact ⟨d, h.2 d hd, he.symm⟩

theorem Spells.append {radix : ℕ} {b b' : List Byte} {ds ds' : List ℕ} (h : Spells radix b ds)
    (h' : Spells radix b' ds') : Spells radix (b ++ b') (ds ++ ds') := by
  refine ⟨?_, ?_⟩
  · rw [List.map_append, List.map_append, h.1, h'.1]
  · intro d hd
    rcases List.mem_append.mp hd with hd | hd
    · exact h.2 d hd
    · exact h'.2 d hd

/-- The digit loop reads a numeral to its end. -/
theorem scan_append {lim : BitVec 32} {radix : ℕ} {body rest : List Byte} {ds : List ℕ}
    (h : Spells radix body ds) (hrest : isDigitOf radix (peek rest) = false) (a : Acc) :
    scan lim radix a (body ++ rest) = (ds.foldl (Acc.step lim radix) a, rest) := by
  induction body generalizing ds a with
  | nil =>
    have hds : ds = [] := by simpa using h.1.symm
    subst hds
    cases rest with
    | nil => rfl
    | cons c s =>
      rw [peek_cons] at hrest
      cases hc : digitValue c with
      | none => simp [scan, hc]
      | some d =>
        have : radix ≤ d := by simpa [isDigitOf, hc] using hrest
        simp [scan, hc, this]
  | cons c body ih =>
    obtain ⟨d, es, rfl, hc, hd, hes⟩ := h.cons_inv
    have hlt : ¬ radix ≤ d := by omega
    rw [List.cons_append, scan]
    simp only [hc, hlt, if_false, List.foldl_cons]
    exact ih hes _

/-! ## The accumulator -/

/-- The number in the accumulator, none after an overflow. -/
def Acc.number (a : Acc) : Option ℕ := if a.state = .overflow then none else some a.n.toNat

/-- **The accumulator never wraps**: it refines the reading with a limit. -/
theorem number_step {lim : BitVec 32} {radix d : ℕ} (hr : radix ≤ 36) (hd : d < radix) (a : Acc) :
    (a.step lim radix d).number = Numeral.push lim.toNat radix a.number d := by
  have hlim := lim.isLt
  have hradix : (BitVec.ofNat 32 radix).toNat = radix := by
    rw [BitVec.toNat_ofNat, Nat.mod_eq_of_lt (by omega)]
  have hle : lim.toNat / radix * radix ≤ lim.toNat := Nat.div_mul_le_self _ _
  have hmax1 : (lim / BitVec.ofNat 32 radix).toNat = lim.toNat / radix := by
    rw [BitVec.toNat_udiv, hradix]
  have hmax2 : (lim - lim / BitVec.ofNat 32 radix * BitVec.ofNat 32 radix).toNat =
      lim.toNat - lim.toNat / radix * radix := by
    rw [BitVec.toNat_sub_of_le, BitVec.toNat_mul, hmax1, hradix, Nat.mod_eq_of_lt (by omega)]
    rw [BitVec.le_def, BitVec.toNat_mul, hmax1, hradix, Nat.mod_eq_of_lt (by omega)]
    exact hle
  have htest : (lim / BitVec.ofNat 32 radix ≤ a.n ∧ (lim / BitVec.ofNat 32 radix < a.n ∨
      (lim - lim / BitVec.ofNat 32 radix * BitVec.ofNat 32 radix).toNat < d)) ↔
      lim.toNat < a.n.toNat * radix + d := by
    rw [BitVec.le_def, BitVec.lt_def, hmax1, hmax2]
    exact Numeral.exceeds_iff hd
  unfold Acc.step
  simp only [htest]
  by_cases hover : lim.toNat < a.n.toNat * radix + d
  · have hpush : ¬ a.n.toNat * radix + d ≤ lim.toNat := by omega
    by_cases ha : a.state = .overflow <;> simp [Acc.number, Numeral.push, hover, ha, hpush]
  · have hpush : a.n.toNat * radix + d ≤ lim.toNat := by omega
    have hn : (a.n * BitVec.ofNat 32 radix + BitVec.ofNat 32 d).toNat = a.n.toNat * radix + d := by
      rw [BitVec.toNat_add, BitVec.toNat_mul, hradix, BitVec.toNat_ofNat]
      rw [Nat.mod_eq_of_lt (a := d) (by omega), Nat.mod_eq_of_lt (a := a.n.toNat * radix)
        (by omega), Nat.mod_eq_of_lt (by omega)]
    by_cases ha : a.state = .overflow
    · simp [Acc.number, Numeral.push, hover, ha]
    · simp only [hover, if_false, ha, ne_eq, not_false_eq_true, if_true, Acc.number, Numeral.push,
        Option.bind_some, hpush]
      simp [hn]

theorem number_foldl {lim : BitVec 32} {radix : ℕ} (hr : radix ≤ 36) {ds : List ℕ}
    (hds : ∀ d ∈ ds, d < radix) (a : Acc) :
    (ds.foldl (Acc.step lim radix) a).number =
      ds.foldl (Numeral.push lim.toNat radix) a.number := by
  induction ds generalizing a with
  | nil => rfl
  | cons d ds ih =>
    rw [List.foldl_cons, List.foldl_cons, ih (fun e he => hds e (by simp [he])),
      number_step hr (hds d (by simp))]

theorem state_step (lim : BitVec 32) (radix d : ℕ) (a : Acc) :
    (a.step lim radix d).state ≠ .noNumber := by
  unfold Acc.step
  dsimp only
  split_ifs <;> simp_all

/-- After at least one digit there is a number. -/
theorem state_foldl (lim : BitVec 32) (radix : ℕ) {ds : List ℕ} (hds : ds ≠ []) (a : Acc) :
    (ds.foldl (Acc.step lim radix) a).state ≠ .noNumber := by
  rw [← List.dropLast_append_getLast hds, List.foldl_append]
  exact state_step _ _ _ _

/-- The value the loop leaves, and whether it overflowed. -/
theorem foldl_step (lim : BitVec 32) {radix : ℕ} (h2 : 2 ≤ radix) (hr : radix ≤ 36) {ds : List ℕ}
    (hds : ∀ d ∈ ds, d < radix) :
    (ds.foldl (Acc.step lim radix) ⟨0, .noNumber⟩).number =
      if Numeral.value radix 0 ds ≤ lim.toNat then some (Numeral.value radix 0 ds) else none := by
  rw [number_foldl hr hds, ← Numeral.foldl_push (by omega) (Nat.zero_le _)]
  rfl

/-! ## Numerals -/

/-- The result of a conversion without overflow, and the end pointer after the numeral. -/
theorem conversion_numeral {lim saturated : BitVec 32} {neg : Bool} {string body rest : List Byte}
    {radix : ℕ} {ds : List ℕ} (h2 : 2 ≤ radix) (hr : radix ≤ 36) (h : Spells radix body ds)
    (hne : ds ≠ []) (hrest : isDigitOf radix (peek rest) = false)
    (hlim : Numeral.value radix 0 ds ≤ lim.toNat) :
    conversion lim saturated neg string (body ++ rest) radix =
      (if neg then -BitVec.ofNat 32 (Numeral.value radix 0 ds)
       else BitVec.ofNat 32 (Numeral.value radix 0 ds), rest) := by
  have hradix : (2 : ℤ) ≤ radix ∧ (radix : ℤ) ≤ 36 := by omega
  have hnumber := foldl_step lim h2 hr h.2
  have hstate := state_foldl lim radix hne ⟨0, .noNumber⟩
  rw [if_pos hlim] at hnumber
  rw [conversion, if_pos hradix, Int.toNat_natCast, scan_append h hrest]
  revert hnumber hstate
  generalize ds.foldl (Acc.step lim radix) ⟨0, .noNumber⟩ = a
  intro hnumber hstate
  obtain ⟨n, state⟩ := a
  cases state with
  | noNumber => exact absurd rfl hstate
  | overflow => simp [Acc.number] at hnumber
  | ok =>
    have hn : n.toNat = Numeral.value radix 0 ds := by simpa [Acc.number] using hnumber
    simp only [← hn, BitVec.ofNat_toNat, BitVec.setWidth_eq]

/-- Without a digit there is no number, and the end pointer is the string. -/
theorem conversion_noNumber {lim saturated : BitVec 32} {neg : Bool} {string s : List Byte}
    {radix : ℕ} (h2 : 2 ≤ radix) (hr : radix ≤ 36) (h : isDigitOf radix (peek s) = false) :
    conversion lim saturated neg string s radix = (0, string) := by
  have hradix : (2 : ℤ) ≤ radix ∧ (radix : ℤ) ≤ 36 := by omega
  have hscan : scan lim radix ⟨0, .noNumber⟩ s = (⟨0, .noNumber⟩, s) :=
    scan_append (show Spells radix [] [] from ⟨rfl, by simp⟩) h _
  rw [conversion, if_pos hradix, Int.toNat_natCast, hscan]

/-- Without a prefix the radix is the one asked for. -/
theorem radixPrefix_none {s : List Byte} {radix : ℤ} (h0 : radix ≠ 0)
    (hx : peek s.tail ≠ ch 'x' ∧ peek s.tail ≠ ch 'X') : radixPrefix s radix = (radix, s) := by
  simp [radixPrefix, h0, hx]

theorem radixPrefix_octal {s : List Byte} (hx : peek s ≠ ch 'x' ∧ peek s ≠ ch 'X') :
    radixPrefix (ch '0' :: s) 0 = (8, ch '0' :: s) := by
  simp [radixPrefix, hx]

theorem radixPrefix_hex {x : Byte} {radix : ℤ} (hx : x = ch 'x' ∨ x = ch 'X')
    (hr : radix = 0 ∨ radix = 16) (s : List Byte) :
    radixPrefix (ch '0' :: x :: s) radix = (16, s) := by
  simp [radixPrefix, hx, hr]

/-- A digit is neither white space nor a sign. -/
theorem plain_of_digitValue {c : Byte} (h : (digitValue c).isSome) :
    isspace c = false ∧ c ≠ ch '-' ∧ c ≠ ch '+' := by
  revert c
  decide

/-- The first character of a numeral. -/
theorem Spells.peek {radix : ℕ} {body : List Byte} {ds : List ℕ} (h : Spells radix body ds)
    (hne : ds ≠ []) (rest : List Byte) : (digitValue (peek (body ++ rest))).isSome := by
  cases body with
  | nil => exact absurd (by simpa using h.1.symm) hne
  | cons c body =>
    obtain ⟨d, es, -, hc, -⟩ := h.cons_inv
    rw [List.cons_append, peek_cons, hc]
    rfl

/-- `-` or nothing to skip before the prefix. -/
inductive SignText : Bool → List Byte → Prop
  | none : SignText false []
  | plus : SignText false [ch '+']
  | minus : SignText true [ch '-']

/-- White space and sign are skipped, and the sign is noted. -/
theorem convert_skip {lim saturated : Bool → BitVec 32} {neg : Bool} {lead sign s : List Byte}
    {radix : ℤ} (hlead : ∀ c ∈ lead, isspace c = true) (hsign : SignText neg sign)
    (hs : sign = [] → isspace (peek s) = false ∧ peek s ≠ ch '-' ∧ peek s ≠ ch '+') :
    convert lim saturated (lead ++ (sign ++ s)) radix =
      conversion (lim neg) (saturated neg) neg (lead ++ (sign ++ s)) (radixPrefix s radix).2
        (radixPrefix s radix).1 := by
  have hskip : (lead ++ (sign ++ s)).dropWhile isspace = sign ++ s := by
    rw [List.dropWhile_append_of_pos hlead]
    cases hsign with
    | none =>
      cases s with
      | nil => rfl
      | cons c s => exact List.dropWhile_cons_of_neg (by simpa using (hs rfl).1)
    | plus | minus => rfl
  rw [convert, hskip]
  cases hsign with
  | none =>
    obtain ⟨-, hminus, hplus⟩ := hs rfl
    have hneg : (peek s == ch '-') = false := beq_eq_false_iff_ne.mpr hminus
    simp [hneg, hminus, hplus]
  | plus | minus => rfl

section Text

variable {lim saturated : Bool → BitVec 32} {neg : Bool} {lead sign body rest : List Byte}
  {radix : ℕ} {ds : List ℕ}

/-- White space, a sign and a numeral of the radix asked for. -/
theorem convert_numeral (h2 : 2 ≤ radix) (hr : radix ≤ 36) (hlead : ∀ c ∈ lead, isspace c = true)
    (hsign : SignText neg sign) (h : Spells radix body ds) (hne : ds ≠ [])
    (hrest : isDigitOf radix (peek rest) = false)
    (hx : peek (body ++ rest).tail ≠ ch 'x' ∧ peek (body ++ rest).tail ≠ ch 'X')
    (hlim : Numeral.value radix 0 ds ≤ (lim neg).toNat) :
    convert lim saturated (lead ++ (sign ++ (body ++ rest))) radix =
      (if neg then -BitVec.ofNat 32 (Numeral.value radix 0 ds)
       else BitVec.ofNat 32 (Numeral.value radix 0 ds), rest) := by
  rw [convert_skip hlead hsign fun _ => plain_of_digitValue (h.peek hne rest),
    radixPrefix_none (by omega) hx]
  exact conversion_numeral h2 hr h hne hrest hlim

/-- An octal numeral tells its radix by a leading `0`. -/
theorem convert_octal (hlead : ∀ c ∈ lead, isspace c = true) (hsign : SignText neg sign)
    (h : Spells 8 (ch '0' :: body) ds) (hrest : isDigitOf 8 (peek rest) = false)
    (hx : peek (body ++ rest) ≠ ch 'x' ∧ peek (body ++ rest) ≠ ch 'X')
    (hlim : Numeral.value 8 0 ds ≤ (lim neg).toNat) :
    convert lim saturated (lead ++ (sign ++ (ch '0' :: (body ++ rest)))) 0 =
      (if neg then -BitVec.ofNat 32 (Numeral.value 8 0 ds)
       else BitVec.ofNat 32 (Numeral.value 8 0 ds), rest) := by
  have hne : ds ≠ [] := by
    obtain ⟨d, es, rfl, -⟩ := h.cons_inv
    exact List.cons_ne_nil d es
  rw [convert_skip hlead hsign fun _ => plain_of_digitValue rfl, radixPrefix_octal hx]
  exact conversion_numeral (by decide) (by decide) h hne hrest hlim

/-- A hexadecimal numeral after its prefix. -/
theorem convert_hex {x : Byte} {r : ℤ} (hx : x = ch 'x' ∨ x = ch 'X') (hr : r = 0 ∨ r = 16)
    (hlead : ∀ c ∈ lead, isspace c = true) (hsign : SignText neg sign) (h : Spells 16 body ds)
    (hne : ds ≠ []) (hrest : isDigitOf 16 (peek rest) = false)
    (hlim : Numeral.value 16 0 ds ≤ (lim neg).toNat) :
    convert lim saturated (lead ++ (sign ++ (ch '0' :: x :: (body ++ rest)))) r =
      (if neg then -BitVec.ofNat 32 (Numeral.value 16 0 ds)
       else BitVec.ofNat 32 (Numeral.value 16 0 ds), rest) := by
  rw [convert_skip hlead hsign fun _ => plain_of_digitValue rfl, radixPrefix_hex hx hr]
  exact conversion_numeral (by decide) (by decide) h hne hrest hlim

/-- A blank after a sign: there is no number. -/
theorem convert_sign_blank (h2 : 2 ≤ radix) (hr : radix ≤ 36)
    (hlead : ∀ c ∈ lead, isspace c = true) (hsign : SignText neg sign) (hne : sign ≠ []) :
    convert lim saturated (lead ++ (sign ++ (ch ' ' :: rest))) radix =
      (0, lead ++ (sign ++ (ch ' ' :: rest))) := by
  have hzero : ¬ ch ' ' = ch '0' := by decide
  have hpre : radixPrefix (ch ' ' :: rest) radix = ((radix : ℤ), ch ' ' :: rest) := by
    have h0 : radix ≠ 0 := by omega
    simp [radixPrefix, hzero, h0]
  rw [convert_skip hlead hsign (fun h => absurd h hne), hpre]
  exact conversion_noNumber h2 hr rfl

/-- A blank after a hexadecimal prefix: there is no number. -/
theorem convert_hex_blank {x : Byte} (hx : x = ch 'x' ∨ x = ch 'X')
    (hlead : ∀ c ∈ lead, isspace c = true) :
    convert lim saturated (lead ++ ch '0' :: x :: ch ' ' :: rest) 16 =
      (0, lead ++ ch '0' :: x :: ch ' ' :: rest) := by
  have h : convert lim saturated (lead ++ ([] ++ ch '0' :: x :: ch ' ' :: rest)) 16 = _ :=
    convert_skip hlead SignText.none fun _ => plain_of_digitValue rfl
  rw [List.nil_append, radixPrefix_hex hx (Or.inr rfl)] at h
  rw [h]
  exact conversion_noNumber (show 2 ≤ 16 by decide) (by decide) rfl

end Text

/-! ## `__mwdd32_atol` -/

/-- The characters `strtol` reads as decimal digits are those `atol` reads. -/
theorem decimal_of_digitValue {c : Byte} {d : ℕ} (h : digitValue c = some d) (hd : d < 10) :
    (ch '0' ≤ c ∧ c ≤ ch '9') ∧ (c - ch '0').setWidth 32 = BitVec.ofNat 32 d := by
  have hlo : (ch 'A').toNat = 65 := rfl
  have hhi : (ch 'Z').toNat = 90 := rfl
  have hlo' : (ch 'a').toNat = 97 := rfl
  have hhi' : (ch 'z').toNat = 122 := rfl
  unfold digitValue at h
  split_ifs at h with h0 hA ha
  · refine ⟨h0, ?_⟩
    rw [← Option.some.inj h]
    exact (BitVec.ofNat_toNat 32 _).symm
  · have := Option.some.inj h
    bv_omega
  · have := Option.some.inj h
    bv_omega

theorem not_decimal_of_isDigitOf {c : Byte} (h : isDigitOf 10 c = false) :
    ¬ (ch '0' ≤ c ∧ c ≤ ch '9') := by
  intro hc
  have hlo : (ch '0').toNat = 48 := rfl
  have hhi : (ch '9').toNat = 57 := rfl
  have : (c - ch '0').toNat < 10 := by bv_omega
  rw [isDigitOf, digitValue, if_pos hc, Option.any_some, decide_eq_false_iff_not] at h
  exact h this

/-- The digit loop of `atol` reads a numeral modulo `2 ^ 32`. -/
theorem atolDigits_append {body rest : List Byte} {ds : List ℕ} (h : Spells 10 body ds)
    (hrest : isDigitOf 10 (peek rest) = false) (n : ℕ) :
    atolDigits (BitVec.ofNat 32 n) (body ++ rest) = BitVec.ofNat 32 (Numeral.value 10 n ds) := by
  induction body generalizing ds n with
  | nil =>
    have hds : ds = [] := by simpa using h.1.symm
    subst hds
    cases rest with
    | nil => rfl
    | cons c s =>
      rw [peek_cons] at hrest
      rw [List.nil_append, atolDigits, if_neg (not_decimal_of_isDigitOf hrest)]
      rfl
  | cons c body ih =>
    obtain ⟨d, es, rfl, hc, hd, hes⟩ := h.cons_inv
    obtain ⟨hdec, hval⟩ := decimal_of_digitValue hc hd
    rw [List.cons_append, atolDigits, if_pos hdec, hval, Numeral.value_cons, ← ih hes]
    rw [BitVec.ofNat_add, BitVec.ofNat_mul]
    rfl

/-- Blanks, tabs and a sign are skipped, and the sign is noted. -/
theorem atol_skip {neg : Bool} {lead sign s : List Byte}
    (hlead : ∀ c ∈ lead, c = ch ' ' ∨ c = ch '\t') (hsign : SignText neg sign)
    (hs : sign = [] → isspace (peek s) = false ∧ peek s ≠ ch '-' ∧ peek s ≠ ch '+') :
    atol (lead ++ (sign ++ s)) = if neg then -atolDigits 0 s else atolDigits 0 s := by
  have hskip : (lead ++ (sign ++ s)).dropWhile (fun c => c = ch ' ' ∨ c = ch '\t') = sign ++ s := by
    rw [List.dropWhile_append_of_pos (fun c hc => decide_eq_true (hlead c hc))]
    cases hsign with
    | none =>
      obtain ⟨hspace, -⟩ := hs rfl
      have hblank : ¬ (peek s = ch ' ' ∨ peek s = ch '\t') := by
        intro hc
        rcases hc with hc | hc <;> rw [hc] at hspace <;> exact absurd hspace (by decide)
      cases s with
      | nil => rfl
      | cons c s => exact List.dropWhile_cons_of_neg (by simpa using hblank)
    | plus | minus => rfl
  rw [atol, hskip]
  cases hsign with
  | none =>
    obtain ⟨-, hminus, hplus⟩ := hs rfl
    have hneg : (peek s == ch '-') = false := beq_eq_false_iff_ne.mpr hminus
    simp [hneg, hminus, hplus]
  | plus | minus => rfl

/-- The result of `atol` on blanks, a sign and a numeral. -/
theorem atol_numeral {neg : Bool} {lead sign body rest : List Byte} {ds : List ℕ}
    (hlead : ∀ c ∈ lead, c = ch ' ' ∨ c = ch '\t') (hsign : SignText neg sign)
    (h : Spells 10 body ds) (hne : ds ≠ []) (hrest : isDigitOf 10 (peek rest) = false) :
    atol (lead ++ (sign ++ (body ++ rest))) =
      if neg then -BitVec.ofNat 32 (Numeral.value 10 0 ds)
      else BitVec.ofNat 32 (Numeral.value 10 0 ds) := by
  rw [atol_skip hlead hsign fun _ => plain_of_digitValue (h.peek hne rest)]
  rw [← atolDigits_append h hrest 0]
  rfl

end Mwdd32.Util
