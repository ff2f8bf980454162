import Mwdd32.Lib.ByteMem
import Mwdd32.Util.Vsprintf

/-!
# The length of the text of `number`

`vsprintf` has no bound on its buffer. What `number` adds to it is the larger of the field width
and the length of sign, prefix and digits, as long as the counter `size` does not overflow.

* `putText_written`: `*str++ = c` for the characters of a text writes these bytes and no other.
* `number_writes`: how far `number` advances `str`, and what it writes on the way.
-/

namespace Mwdd32.Util

open ByteMem (Mem Addr)

/-! ## The buffer -/

/-- `*str++ = c` for the characters of a text, and what `str` is then. -/
def putText (m : Mem) (str : Addr) : List Byte → Mem × Addr
  | [] => (m, str)
  | c :: s => putText (Function.update m str c) (str + 1) s

/-- `text` is at `str`, which went on to `r.2`, and the rest of the memory is as it was. -/
structure Written (m : Mem) (str : Addr) (text : List Byte) (r : Mem × Addr) : Prop where
  advance : r.2 = str + BitVec.ofNat 32 text.length
  inside : ∀ k (hk : k < text.length), r.1 (str + BitVec.ofNat 32 k) = text[k]
  outside : ∀ a, text.length ≤ (a - str).toNat → r.1 a = m a

theorem putText_written (m : Mem) (str : Addr) {text : List Byte} (h : text.length ≤ 2 ^ 32) :
    Written m str text (putText m str text) := by
  induction text generalizing m str with
  | nil =>
    refine ⟨?_, ?_, fun _ _ => rfl⟩
    · simp [putText]
    · intro k hk
      exact absurd hk (Nat.not_lt_zero k)
  | cons c s ih =>
    rw [List.length_cons] at h
    obtain ⟨hstr, hin, hout⟩ := ih (Function.update m str c) (str + 1) (by omega)
    refine ⟨?_, ?_, ?_⟩
    · rw [putText, hstr, List.length_cons, BitVec.ofNat_add]
      bv_omega
    · intro k hk
      cases k with
      | zero =>
        have hfar : s.length ≤ (str - (str + 1)).toNat := by bv_omega
        have hsame : (putText (Function.update m str c) (str + 1) s).1 str = c := by
          rw [hout str hfar, Function.update_self]
        simpa [putText] using hsame
      | succ k =>
        have haddr : str + BitVec.ofNat 32 (k + 1) = str + 1 + BitVec.ofNat 32 k := by
          rw [BitVec.ofNat_add]
          bv_omega
        rw [putText, haddr, hin k (by simpa using hk), List.getElem_cons_succ]
    · intro a ha
      rw [List.length_cons] at ha
      have hne : a ≠ str := by
        rintro rfl
        simp at ha
      have hfar : s.length ≤ (a - (str + 1)).toNat := by bv_omega
      rw [putText, hout a hfar, Function.update_of_ne hne]

/-! ## The parts of the text -/

/-- 1 if a sign or a blank is written. -/
def signLength (type : Flags) (num : BitVec 32) : ℕ :=
  if type.sign ∧ (num.slt 0#32 ∨ type.plus ∨ type.space) then 1 else 0

/-- The length of what `SPECIAL` writes. -/
def prefixLength (type : Flags) (base : ℕ) : ℕ :=
  if type.special then if base = 16 then 2 else if base = 8 then 1 else 0 else 0

/-- The number of digits of `num` in base `base`, one for 0. -/
def digitsLength (type : Flags) (base : ℕ) (num : BitVec 32) : ℕ :=
  max 1 (Nat.digits base (if type.sign then num.toInt.natAbs else num.toNat)).length

/-- `size` after `while (size-- > 0)`, if the counter does not wrap -/
def afterLoop (size : ℤ) : ℤ := if 0 < size then -1 else size - 1

/-- The values of `size` behind the statements that change it (vsprintf.c:153-192, 202-204,
    209-210), if it does not wrap -/
def sizes (num : BitVec 32) (base : ℕ) (size precision : BitVec 32) (type : Flags) : List ℤ :=
  let signed := size.toInt - signLength type num
  let prefixed := signed - prefixLength type base
  let room := prefixed - max (digitsLength type base num : ℤ) precision.toInt
  let lead := if type.zeropad ∨ type.left then room else afterLoop room
  let inner := if type.left then lead else afterLoop lead
  [signed, prefixed, room, lead, inner, afterLoop inner]

/-- None of these values is below `LONG_MIN`. -/
def NoOverflow (num : BitVec 32) (base : ℕ) (size precision : BitVec 32) (type : Flags) : Prop :=
  ∀ s ∈ sizes num base size precision type, LONG_MIN.toInt ≤ s

theorem length_signText (type : Flags) (num : BitVec 32) :
    (signText type num).length = signLength type num := by
  unfold signText signLength
  split_ifs <;> simp_all

theorem length_specialText (type : Flags) (base : ℕ) :
    (specialText type base).length = prefixLength type base := by
  unfold specialText prefixLength
  split_ifs <;> simp_all

theorem signLength_le (type : Flags) (num : BitVec 32) : signLength type num ≤ 1 := by
  unfold signLength
  split_ifs <;> omega

theorem prefixLength_le (type : Flags) (base : ℕ) : prefixLength type base ≤ 2 := by
  unfold prefixLength
  split_ifs <;> omega

theorem toNat_magnitude (type : Flags) (num : BitVec 32) :
    (magnitude type num).toNat = if type.sign then num.toInt.natAbs else num.toNat := by
  have hneg := slt_zero_iff_toInt num
  have htoInt := BitVec.toInt_eq_toNat_cond num
  have hn := num.isLt
  unfold magnitude
  by_cases hs : type.sign = true
  · rw [if_pos hs]
    by_cases h : num.slt 0#32 = true
    · have hlt := hneg.mp h
      rw [if_pos ⟨hs, h⟩, BitVec.toNat_neg]
      split_ifs at htoInt <;> omega
    · have hge : ¬ num.toInt < 0 := fun hlt => h (hneg.mpr hlt)
      rw [if_neg fun hsign => h hsign.2]
      split_ifs at htoInt <;> omega
  · rw [if_neg hs, if_neg fun h => hs h.1]

theorem length_digitsText_magnitude (type : Flags) {base : ℕ} (h2 : 2 ≤ base) (num : BitVec 32) :
    (digitsText type base (magnitude type num)).length = digitsLength type base num := by
  rw [length_digitsText_eq type h2, toNat_magnitude, digitsLength]

/-! ## The whole text -/

theorem toInt_sub_of_le {x y : BitVec 32} (hy : 0 ≤ y.toInt)
    (h : LONG_MIN.toInt ≤ x.toInt - y.toInt) : (x - y).toInt = x.toInt - y.toInt := by
  have hmin : LONG_MIN.toInt = -2147483648 := rfl
  have hx := BitVec.toInt_lt (x := x)
  rw [BitVec.toInt_sub]
  exact Int.bmod_eq_of_le (by omega) (by omega)

/-- Every character of the field that is left is written once. -/
theorem length_pads {type : Flags} {room : BitVec 32}
    (h : LONG_MIN.toInt + type.loops ≤ room.toInt) :
    (leadPad type room).length + (innerPad type room).length + (trailPad type room).length =
      room.toInt.toNat := by
  rw [innerPad_of_le h, trailPad_of_le h, leadPad]
  by_cases hl : type.left = true
  · simp [hl]
  · by_cases hz : type.zeropad = true <;> simp [hl, hz]

/-- If a loop wraps the counter, the next one writes until it is used up. -/
theorem length_pads_of_lt {type : Flags} {room : BitVec 32}
    (h : room.toInt < LONG_MIN.toInt + type.loops) :
    (leadPad type room).length + (innerPad type room).length + (trailPad type room).length =
      LONG_MAX.toNat := by
  have hmin : LONG_MIN.toInt = -2147483648 := rfl
  have hmin' : (LONG_MIN + 1).toInt = -2147483647 := rfl
  have hlow := BitVec.le_toInt room
  unfold Flags.loops at h
  unfold leadPad innerPad trailPad
  by_cases hl : type.left = true
  · rw [if_pos hl] at h
    omega
  · rw [if_neg hl] at h
    by_cases hz : type.zeropad = true
    · rw [if_pos hz] at h
      obtain rfl : room = LONG_MIN := BitVec.eq_of_toInt_eq (by omega)
      have hnone : LONG_MIN.toInt.toNat = 0 := rfl
      have hpads : type.left = true ∨ type.zeropad = true := .inr hz
      rw [if_pos hpads, if_neg hl, if_pos hz, hnone, if_neg hl, if_pos hz, if_pos rfl]
      generalize LONG_MAX.toNat = most
      rw [List.length_replicate, List.length_replicate, List.length_nil, Nat.zero_add]
    · rw [if_neg hz] at h
      have hnone : room.toInt.toNat = 0 := by omega
      have hpads : ¬ (type.left = true ∨ type.zeropad = true) := not_or.mpr ⟨hl, hz⟩
      rw [if_neg hpads, hnone, if_neg hl, if_neg hz, if_neg hl, if_neg hz]
      generalize LONG_MAX.toNat = most
      by_cases heq : room = LONG_MIN
      · have hne : room ≠ LONG_MIN + 1 := by
          rw [heq]
          decide
        rw [if_pos heq, if_neg hne, List.length_replicate, List.length_replicate, List.length_nil,
          Nat.add_zero, Nat.zero_add]
      · have hroom : room.toInt ≠ LONG_MIN.toInt := fun hroom => heq (BitVec.eq_of_toInt_eq hroom)
        have heq' : room = LONG_MIN + 1 := BitVec.eq_of_toInt_eq (by omega)
        rw [if_neg heq, if_pos heq', List.length_replicate, List.length_replicate, List.length_nil,
          Nat.add_zero, Nat.zero_add]

/-- The counter behind the subtractions, and the loops do not wrap it. -/
theorem room_of_noOverflow {num : BitVec 32} {base : ℕ} {size precision prec room : BitVec 32}
    {type : Flags} (h : NoOverflow num base size precision type)
    (hprec : prec.toInt = max (digitsLength type base num : ℤ) precision.toInt)
    (hroom : room = size - BitVec.ofNat 32 (signLength type num) -
      BitVec.ofNat 32 (prefixLength type base) - prec) :
    room.toInt = size.toInt - signLength type num - prefixLength type base -
        max (digitsLength type base num : ℤ) precision.toInt ∧
      LONG_MIN.toInt + type.loops ≤ room.toInt := by
  simp only [NoOverflow, sizes, List.forall_mem_cons, List.not_mem_nil, IsEmpty.forall_iff,
    implies_true, and_true] at h
  obtain ⟨hsign, hspecial, hdigits, -, -, hlast⟩ := h
  have hs := signLength_le type num
  have hp := prefixLength_le type base
  have hs' : (BitVec.ofNat 32 (signLength type num)).toInt = signLength type num :=
    toInt_ofNat_of_lt (by omega)
  have hp' : (BitVec.ofNat 32 (prefixLength type base)).toInt = prefixLength type base :=
    toInt_ofNat_of_lt (by omega)
  have h1 := toInt_sub_of_le (x := size) (y := BitVec.ofNat 32 (signLength type num)) (by omega)
    (by omega)
  have h2 := toInt_sub_of_le (x := size - BitVec.ofNat 32 (signLength type num))
    (y := BitVec.ofNat 32 (prefixLength type base)) (by omega) (by omega)
  have h3 := toInt_sub_of_le (x := size - BitVec.ofNat 32 (signLength type num) -
    BitVec.ofNat 32 (prefixLength type base)) (y := prec) (by omega) (by omega)
  have hroom' : room.toInt = size.toInt - signLength type num - prefixLength type base -
      max (digitsLength type base num : ℤ) precision.toInt := by
    rw [hroom, h3, h2, h1, hs', hp', hprec]
  refine ⟨hroom', ?_⟩
  rw [← hroom'] at hlast
  revert hlast
  unfold afterLoop Flags.loops
  by_cases hl : type.left = true
  · simp only [hl, or_true, if_true]
    split_ifs <;> omega
  · by_cases hz : type.zeropad = true
    · simp only [hl, hz, if_true]
      split_ifs <;> omega
    · simp only [hl, hz, or_self]
      split_ifs <;> omega

/-- **The length of the text of `number`.** -/
theorem number_writes {num : BitVec 32} {base : ℕ} {size precision : BitVec 32} {type : Flags}
    (h2 : 2 ≤ base) (h36 : base ≤ 36) (h : NoOverflow num base size precision type) :
    ∃ text, number num base size precision type = some text ∧
      (digitsText type base (magnitude type num)).length ≤ 32 ∧
      (text.length : ℤ) = max size.toInt (signLength type num + prefixLength type base +
        max (digitsLength type base num : ℤ) precision.toInt) ∧
      ∀ m str, Written m str text (putText m str text) := by
  have hlen := length_digitsText_le type h2 (magnitude type num)
  have hdigits := length_digitsText_magnitude type h2 num
  have hi : (BitVec.ofNat 32 (digitsLength type base num)).toInt = digitsLength type base num :=
    toInt_ofNat_of_lt (by omega)
  have hprec : (if precision.slt (BitVec.ofNat 32 (digitsLength type base num)) then
      BitVec.ofNat 32 (digitsLength type base num) else precision).toInt =
      max (digitsLength type base num : ℤ) precision.toInt := by
    split_ifs with hslt
    · rw [BitVec.slt_iff_toInt_lt, hi] at hslt
      rw [hi]
      omega
    · rw [BitVec.slt_iff_toInt_lt, hi] at hslt
      omega
  have hlayout := number_layout num h2 h36 size precision type rfl rfl rfl
  rw [hdigits, length_signText, length_specialText] at hlayout
  obtain ⟨hroom, hwrap⟩ := room_of_noOverflow h hprec rfl
  have hpads := length_pads hwrap
  obtain ⟨text, htext, hlength⟩ : ∃ text, number num base size precision type = some text ∧
      (text.length : ℤ) = max size.toInt (signLength type num + prefixLength type base +
        max (digitsLength type base num : ℤ) precision.toInt) := by
    refine ⟨_, hlayout, ?_⟩
    simp only [List.length_append, List.length_replicate, length_signText, length_specialText,
      hdigits, hprec, hi]
    omega
  refine ⟨text, htext, hlen, hlength, fun m str => putText_written m str ?_⟩
  have hs := signLength_le type num
  have hp := prefixLength_le type base
  have hsize := BitVec.toInt_lt (x := size)
  have hprecision := BitVec.toInt_lt (x := precision)
  omega

/-- `%+#12.5x` of 255 -/
theorem number_writes_sample : ∃ text,
    number 255 16 12 5 { sign := true, plus := true, special := true } = some text ∧
      text.length = 12 ∧ ∀ m str, Written m str text (putText m str text) := by
  have hdigits : digitsLength { sign := true, plus := true, special := true } 16 255 = 2 := by
    simp [digitsLength]
  have hno : NoOverflow 255 16 12 5 { sign := true, plus := true, special := true } := by
    unfold NoOverflow sizes
    rw [hdigits]
    decide
  obtain ⟨text, htext, -, hlen, hwritten⟩ := number_writes (by decide) (by decide) hno
  rw [hdigits] at hlen
  exact ⟨text, htext, Int.ofNat.inj hlen, hwritten⟩
end Mwdd32.Util
