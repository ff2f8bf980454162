import Mwdd32.Util.Format

/-!
# `%s` with a precision

A precision bounds the string, so that it needs no null. `strnlen` looks at a character before it
looks at the count, and so reads one character more than the precision allows.

* `strnlen_array`, `exists_strnlen_array`: what it reads of an array without a null, and with one.
* `vsprintf_string`: the text of a format with one `%s`.
* `staysInside_iff`: the conversion stays inside an array of as many bytes as the precision exactly
  when there is a null in it.
-/

namespace Mwdd32.Util

/-! ## The array -/

/-- A memory that holds `bytes` at `s` and nothing else. -/
def array (s : BitVec 32) (bytes : List Byte) (a : BitVec 32) : Option Byte := bytes[(a - s).toNat]?

/-- A text in a field of `width` characters -/
def inField (left : Bool) (width : ℕ) (text : List Byte) : List Byte :=
  if left then text ++ List.replicate (width - text.length) (ch ' ')
  else List.replicate (width - text.length) (ch ' ') ++ text

/-- A format with one `%s` -/
def Fields.stringFormat (f : Fields) : List Byte := ch '%' :: (f.text ++ [ch 's'])

/-- `%s` reads an array without a null to its end and no further, and writes it into its field. Of
    an array with a null it reads nothing behind that. -/
def StaysInside (args : ℕ → BitVec 32) (f : Fields) (bytes : List Byte) : Prop :=
  (0 ∉ bytes → vsprintf (array (args f.starArgs) bytes) f.stringFormat args =
    some { text := inField (f.type args).left (f.givenWidth args) bytes }) ∧
  ∀ k, bytes[k]? = some 0 →
    (vsprintf (array (args f.starArgs) (bytes.take (k + 1))) f.stringFormat args).isSome

theorem array_add {s : BitVec 32} {bytes : List Byte} {i : ℕ} (hi : i < 2 ^ 32) :
    array s bytes (s + BitVec.ofNat 32 i) = bytes[i]? := by
  have hsub : (s + BitVec.ofNat 32 i - s).toNat = i := by bv_omega
  rw [array, hsub]

/-! ## The two loops over the string -/

section Loops

variable {mem : BitVec 32 → Option Byte} {s : BitVec 32} {bytes : List Byte} {count : ℕ}

/-- `strnlen` passes characters other than the null. -/
theorem strnlen_add {k : ℕ} (h : ∀ i < k, ∃ c, mem (s + BitVec.ofNat 32 i) = some c ∧ c ≠ 0) :
    strnlen mem s (k + count) = (strnlen mem (s + BitVec.ofNat 32 k) count).map (· + k) := by
  induction k generalizing s with
  | zero => simp
  | succ k ih =>
    obtain ⟨c, hread, hc⟩ := h 0 (Nat.succ_pos k)
    rw [BitVec.add_zero] at hread
    have hnext (i : ℕ) : s + 1 + BitVec.ofNat 32 i = s + BitVec.ofNat 32 (i + 1) := by
      rw [BitVec.ofNat_add]
      bv_omega
    have htail : strnlen mem (s + 1) (k + count) =
        (strnlen mem (s + 1 + BitVec.ofNat 32 k) count).map (· + k) := by
      apply ih
      intro i hi
      rw [hnext]
      exact h (i + 1) (by omega)
    rw [show k + 1 + count = k + count + 1 by omega, strnlen, hread, Option.bind_some, if_neg hc,
      htail, hnext, Option.map_map]
    rfl

/-- Then it reads one character more than it counts. -/
theorem strnlen_nonNull {k : ℕ} (h : ∀ i < k, ∃ c, mem (s + BitVec.ofNat 32 i) = some c ∧ c ≠ 0) :
    strnlen mem s k = (mem (s + BitVec.ofNat 32 k)).map fun _ => k := by
  have hsplit := @strnlen_add mem s 0 k h
  rw [Nat.add_zero, strnlen, Option.map_map] at hsplit
  rw [hsplit]
  congr 1
  funext c
  exact Nat.zero_add k

/-- The characters before the first null can be read. -/
theorem exists_array {before : List Byte} (h : 0 ∉ before) (after : List Byte) {i : ℕ}
    (hi : i < before.length) (hlt : i < 2 ^ 32) :
    ∃ c, array s (before ++ after) (s + BitVec.ofNat 32 i) = some c ∧ c ≠ 0 := by
  refine ⟨before[i], ?_, ?_⟩
  · rw [array_add hlt, List.getElem?_append_left hi, List.getElem?_eq_getElem hi]
  · intro hzero
    exact h (hzero ▸ List.getElem_mem hi)

/-- An array without a null must be longer than the count. -/
theorem strnlen_array (h : 0 ∉ bytes) (hle : count ≤ bytes.length) (hlt : count < 2 ^ 32) :
    strnlen (array s bytes) s count = if count < bytes.length then some count else none := by
  have hpass : ∀ i < count, ∃ c, array s bytes (s + BitVec.ofNat 32 i) = some c ∧ c ≠ 0 := by
    intro i hi
    have hread := @exists_array s bytes h [] i (by omega) (by omega)
    rwa [List.append_nil] at hread
  rw [strnlen_nonNull hpass, array_add hlt]
  by_cases hin : count < bytes.length
  · rw [List.getElem?_eq_getElem hin, if_pos hin]
    rfl
  · have hnone : bytes[count]? = none := List.getElem?_eq_none (by omega)
    rw [hnone, if_neg hin]
    rfl

/-- With a null it stays inside. -/
theorem exists_strnlen_array (h : 0 ∈ bytes) (hlt : count < 2 ^ 32) :
    ∃ len < bytes.length, len ≤ count ∧ strnlen (array s bytes) s count = some len := by
  obtain ⟨before, after, rfl, hbefore⟩ := List.eq_append_cons_of_mem h
  by_cases hcount : count ≤ before.length
  · -- the count ends the loop, at the null or before it
    have hin : count < (before ++ 0 :: after).length := by
      rw [List.length_append, List.length_cons]
      omega
    refine ⟨count, hin, le_rfl, ?_⟩
    rw [strnlen_nonNull fun i hi => exists_array hbefore _ (by omega) (by omega), array_add hlt,
      List.getElem?_eq_getElem hin]
    rfl
  · -- the null ends it
    obtain ⟨m, hm⟩ : ∃ m, count = before.length + (m + 1) := ⟨count - before.length - 1, by omega⟩
    have hnull : array s (before ++ 0 :: after) (s + BitVec.ofNat 32 before.length) = some 0 := by
      rw [array_add (by omega), List.getElem?_append_right le_rfl]
      simp
    refine ⟨before.length, by simp, by omega, ?_⟩
    rw [hm, strnlen_add fun i hi => exists_array hbefore _ hi (by omega), strnlen, hnull]
    simp

theorem copyString_eq {text : List Byte}
    (h : ∀ i (hi : i < text.length), mem (s + BitVec.ofNat 32 i) = some text[i]) :
    copyString mem s text.length = some text := by
  induction text generalizing s with
  | nil => rfl
  | cons c text ih =>
    have hread : mem s = some c := by
      have hfirst := h 0 (Nat.succ_pos _)
      rwa [BitVec.add_zero, List.getElem_cons_zero] at hfirst
    have htail : copyString mem (s + 1) text.length = some text := by
      apply ih
      intro i hi
      have hnext : s + 1 + BitVec.ofNat 32 i = s + BitVec.ofNat 32 (i + 1) := by
        rw [BitVec.ofNat_add]
        bv_omega
      rw [hnext, h (i + 1) (by simpa using hi), List.getElem_cons_succ]
    rw [List.length_cons, copyString, hread, Option.bind_some, htail]
    rfl

/-- The copy reads what `strnlen` counted. -/
theorem copyString_array {len : ℕ} (hle : len ≤ bytes.length) (hlt : len < 2 ^ 32) :
    copyString (array s bytes) s len = some (bytes.take len) := by
  have hlen : (bytes.take len).length = len := by simp [hle]
  have hcopy : copyString (array s bytes) s (bytes.take len).length = some (bytes.take len) := by
    apply copyString_eq
    intro i hi
    rw [array_add (by omega), List.getElem_take, List.getElem?_eq_getElem]
  rwa [hlen] at hcopy

end Loops

/-! ## The field -/

/-- The blanks before and after a text of `len` characters (vsprintf.c:303-309). -/
def fieldPads (left : Bool) (len width : BitVec 32) : List Byte × List Byte :=
  let lead := if ¬ left then padLoop (ch ' ') len width else ([], width)
  (lead.1, (padLoop (ch ' ') len lead.2).1)

section Pads

variable {left : Bool} {len : ℕ} {width : BitVec 32}

/-- The field fits in an `int`, whatever its width. -/
theorem length_fieldPads (hlen : len < 2 ^ 31) :
    (fieldPads left (BitVec.ofNat 32 len) width).1.length + len +
      (fieldPads left (BitVec.ofNat 32 len) width).2.length < 2 ^ 31 := by
  have htoInt := toInt_ofNat_of_lt hlen
  have hwidth := BitVec.toInt_lt (x := width)
  have hnext := BitVec.toInt_lt (x := width - 1)
  have hone := toInt_sub_one (neg_one_slt_ofNat hlen)
  simp only [fieldPads, padLoop_eq]
  cases left with
  | true =>
    simp only [not_true_eq_false, if_false, List.length_nil, List.length_replicate, htoInt]
    omega
  | false =>
    simp only [Bool.false_eq_true, not_false_eq_true, if_true, List.length_replicate, htoInt]
    by_cases hslt : (BitVec.ofNat 32 len).slt width = true
    · rw [if_pos hslt]
      omega
    · rw [if_neg hslt]
      rw [BitVec.slt_iff_toInt_lt, htoInt] at hslt
      omega

end Pads

/-! ## The conversion -/

section Conversion

variable {mem : BitVec 32 → Option Byte} {args : ℕ → BitVec 32} {f : Fields} {bytes : List Byte}

/-- The text of a format with one `%s` -/
theorem vsprintf_string (hnull : args f.starArgs ≠ 0) :
    vsprintf mem f.stringFormat args =
      (strnlen mem (args f.starArgs) (f.precisionValue args).toNat).bind fun size =>
        let len := BitVec.ofNat 32 size
        (copyString mem (args f.starArgs) len.toInt.toNat).map fun text =>
          let pads := fieldPads (f.type args).left len (f.fieldWidth args)
          { text := pads.1 ++ text ++ pads.2 } := by
  have hpeek : peek (f.spec args (ch 's')).fmt = ch 's' := rfl
  have harg : (f.spec args (ch 's')).arg = f.starArgs := rfl
  have hconvert : (f.spec args (ch 's')).convert mem args {} =
      ((f.spec args (ch 's')).string mem args).map fun text => ({ text }, f.starArgs + 1) := by
    simp only [Spec.convert, hpeek, harg]
    rw [if_neg (by decide), if_pos trivial]
    rfl
  rw [Fields.stringFormat, f.vsprintf_text mem (isLetter_of_mem (by decide)), hconvert,
    Spec.string, harg, if_neg hnull, Option.map_map, Option.map_bind]
  congr 1
  funext size
  rw [Function.comp, Option.map_map]
  rfl

/-- The precision, if it is the length of an array -/
theorem toNat_precisionValue_le {p : ℕ} (h : f.givenPrecision args = some p) :
    (f.precisionValue args).toNat ≤ p ∧ (f.precisionValue args).toNat < 2 ^ 31 ∧
      (p < 2 ^ 31 → (f.precisionValue args).toNat = p) := by
  rw [Fields.toNat_precisionValue h]
  have hmod := Nat.mod_le p (2 ^ 32)
  split_ifs
  · refine ⟨hmod, by omega, fun hp => Nat.mod_eq_of_lt (by omega)⟩
  · refine ⟨by omega, by omega, fun hp => ?_⟩
    rw [Nat.mod_eq_of_lt (by omega)] at *
    omega

theorem length_le_inField (left : Bool) (width : ℕ) (text : List Byte) :
    text.length ≤ (inField left width text).length := by
  unfold inField
  split_ifs <;> simp

/-- Where an array is read, the text is shorter than `2 ^ 31`. -/
theorem vsprintf_array (hnull : args f.starArgs ≠ 0) {len : ℕ} (hle : len ≤ bytes.length)
    (hlt : len < 2 ^ 31)
    (hlen : strnlen (array (args f.starArgs) bytes) (args f.starArgs)
      (f.precisionValue args).toNat =
      some len) :
    ∃ text, vsprintf (array (args f.starArgs) bytes) f.stringFormat args = some { text } ∧
      text.length < 2 ^ 31 := by
  have hpads := @length_fieldPads (f.type args).left len (f.fieldWidth args) hlt
  rw [vsprintf_string hnull, hlen, Option.bind_some]
  dsimp only
  rw [toInt_ofNat_of_lt hlt, Int.toNat_natCast, copyString_array hle (by omega), Option.map_some]
  refine ⟨_, rfl, ?_⟩
  simp only [List.length_append, List.length_take, Nat.min_eq_left hle]
  exact hpads

/-- Without a null, one more character is read than the array has, or the text is too short. -/
theorem vsprintf_ne_inField (hnull : args f.starArgs ≠ 0)
    (hp : f.givenPrecision args = some bytes.length) (h : 0 ∉ bytes) :
    vsprintf (array (args f.starArgs) bytes) f.stringFormat args ≠
      some { text := inField (f.type args).left (f.givenWidth args) bytes } := by
  obtain ⟨hle, hlt, heq⟩ := toNat_precisionValue_le hp
  have hlen := @strnlen_array (args f.starArgs) bytes _ h hle (by omega)
  by_cases hshort : bytes.length < 2 ^ 31
  · rw [heq hshort, if_neg (lt_irrefl _)] at hlen
    rw [vsprintf_string hnull, heq hshort, hlen]
    intro hsome
    cases hsome
  · rw [if_pos (by omega)] at hlen
    obtain ⟨text, htext, hlength⟩ := vsprintf_array hnull hle hlt hlen
    rw [htext]
    intro hsome
    have hfield := length_le_inField (f.type args).left (f.givenWidth args) bytes
    have htext' := congrArg Output.text (Option.some.inj hsome)
    dsimp only at htext'
    rw [← htext'] at hfield
    omega

/-- With a null, nothing behind the array is read. -/
theorem isSome_vsprintf_array (hnull : args f.starArgs ≠ 0)
    (hlt : (f.precisionValue args).toNat < 2 ^ 31) (h : 0 ∈ bytes) :
    (vsprintf (array (args f.starArgs) bytes) f.stringFormat args).isSome := by
  obtain ⟨len, hin, hcount, hlen⟩ := @exists_strnlen_array (args f.starArgs) bytes
    (f.precisionValue args).toNat h (by omega)
  obtain ⟨text, htext, -⟩ := vsprintf_array hnull hin.le (by omega) hlen
  rw [htext]
  rfl

/-- **The bound of a string** is kept exactly where the array holds a null. -/
theorem staysInside_iff (hnull : args f.starArgs ≠ 0)
    (hp : f.givenPrecision args = some bytes.length) : StaysInside args f bytes ↔ 0 ∈ bytes := by
  obtain ⟨-, hlt, -⟩ := toNat_precisionValue_le hp
  constructor
  · intro ⟨hwhole, _⟩
    by_contra h
    exact vsprintf_ne_inField hnull hp h (hwhole h)
  · intro h
    refine ⟨fun hno => absurd h hno, ?_⟩
    intro k hk
    apply isSome_vsprintf_array hnull hlt
    have hmem : (bytes.take (k + 1))[k]? = some 0 := by
      rw [List.getElem?_take_of_lt (Nat.lt_succ_self k), hk]
    exact List.mem_of_getElem? hmem

/-- `%.*s` of `a` and a null -/
theorem staysInside_iff_sample :
    StaysInside (fun k => if k = 0 then 2 else 0x1000) ⟨[], .absent, .star⟩ [ch 'a', 0] ↔
      (0 : Byte) ∈ [ch 'a', 0] :=
  staysInside_iff (by decide) (by decide)

/-- `%.1s` of an array of one character -/
theorem not_staysInside_sample :
    ¬ StaysInside (fun _ => 0x1000) ⟨[], .absent, .literal [1] (by decide)⟩ [ch 'a'] := by
  intro h
  have hne := @vsprintf_ne_inField (fun _ => 0x1000) ⟨[], .absent, .literal [1] (by decide)⟩
    [ch 'a']
    (by decide) rfl (by decide)
  exact hne (h.1 (by decide))

end Conversion

end Mwdd32.Util
