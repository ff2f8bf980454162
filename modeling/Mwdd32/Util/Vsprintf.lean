import Mathlib.Data.Nat.Digits.Lemmas
import Mwdd32.Util.Ctype

/-!
# `vsprintf`

Model of `util/vsprintf.c`. An `int` is a `BitVec 32` and wraps. The format is
the list of the characters before its terminating null. `args k` is the `k`-th
double word of the variable arguments and `mem` the memory a `%s` argument
points into, none where there is nothing to read; then the result is none. A
`%n` stores into the part of it that it points to, if any. The buffer, the
format and the arguments are apart from what is stored and from what is read.

* `padLoop_eq`: the padding loops `while (low < n--) *str++ = c`.
* `number_layout`: the parts of the text of `number`, with the counter `size`
  where it ends up after each loop.
-/

namespace Mwdd32.Util

/-! ## Model -/

/-- `flags` and `type`, one field for each bit `ZEROPAD` to `LARGE` (vsprintf.c:123-129). -/
structure Flags where
  zeropad : Bool := false
  sign : Bool := false
  plus : Bool := false
  space : Bool := false
  left : Bool := false
  special : Bool := false
  large : Bool := false
  deriving DecidableEq, Repr

theorem toInt_sub_one {low n : BitVec 32} (h : low.slt n = true) : (n - 1).toInt = n.toInt - 1 := by
  rw [BitVec.slt_iff_toInt_lt] at h
  have hlow := BitVec.le_toInt low
  have hn := BitVec.toInt_lt (x := n)
  rw [BitVec.toInt_sub, show (1 : BitVec 32).toInt = 1 from rfl]
  exact Int.bmod_eq_of_le (by omega) (by omega)

/-- `while (low < n--) *str++ = c`, and the value `n` is left with. -/
def padLoop (c : Byte) (low n : BitVec 32) : List Byte × BitVec 32 :=
  if low.slt n then
    let r := padLoop c low (n - 1)
    (c :: r.1, r.2)
  else ([], n - 1)
termination_by (n.toInt - low.toInt).toNat
decreasing_by
  rename_i h
  have hlt := BitVec.slt_iff_toInt_lt.mp h
  rw [toInt_sub_one h]
  omega

/-- `while (--n > 0) *str++ = c`, and the value `n` is left with. -/
def preLoop (c : Byte) (n : BitVec 32) : List Byte × BitVec 32 :=
  if (0 : BitVec 32).slt (n - 1) then
    let r := preLoop c (n - 1)
    (c :: r.1, r.2)
  else ([], n - 1)
termination_by (n - 1).toInt.toNat
decreasing_by
  rename_i h
  have hlt := BitVec.slt_iff_toInt_lt.mp h
  have hzero : (0 : BitVec 32).toInt = 0 := rfl
  rw [toInt_sub_one h]
  omega

/-- `digits` without `LARGE` -/
def smallDigits : List Byte := "0123456789abcdefghijklmnopqrstuvwxyz".toList.map ch

/-- `digits` with `LARGE` -/
def largeDigits : List Byte := "0123456789ABCDEFGHIJKLMNOPQRSTUVWXYZ".toList.map ch

/-- `digits` (vsprintf.c:143-147) -/
def Flags.digits (type : Flags) : List Byte := if type.large then largeDigits else smallDigits

/-- `while (num != 0)` (vsprintf.c:180-185): `tmp`, the lowest digit first. `number` only
    gets here with a base of at least 2. -/
def divLoop (digits : List Byte) (base num : ℕ) : List Byte :=
  if _h : num = 0 ∨ base < 2 then []
  else digits.getD (num % base) 0 :: divLoop digits base (num / base)
termination_by num
decreasing_by exact Nat.div_lt_self (by omega) (by omega)

/-- `sign` (vsprintf.c:153-166) -/
def signText (type : Flags) (num : BitVec 32) : List Byte :=
  if type.sign then
    if num.slt 0#32 then [ch '-']
    else if type.plus then [ch '+']
    else if type.space then [ch ' ']
    else []
  else []

/-- What `SPECIAL` writes before the digits (vsprintf.c:195-201). -/
def specialText (type : Flags) (base : ℕ) : List Byte :=
  if type.special then
    if base = 8 then [ch '0']
    else if base = 16 then [ch '0', type.digits.getD 33 0]
    else []
  else []

/-- The number whose digits are written (vsprintf.c:157). -/
def magnitude (type : Flags) (num : BitVec 32) : BitVec 32 :=
  if type.sign ∧ num.slt 0#32 then -num else num

/-- The digits of `num`, the highest first: `tmp` backwards. -/
def digitsText (type : Flags) (base : ℕ) (num : BitVec 32) : List Byte :=
  (if num = 0 then [ch '0'] else divLoop type.digits base num.toNat).reverse

/-- The three loops on `size` (vsprintf.c:190-192, 202-204, 209-210): what they write
    before the sign, before the digits and at the end. -/
def padding (type : Flags) (size : BitVec 32) : List Byte × List Byte × List Byte :=
  let c := if type.zeropad then ch '0' else ch ' '
  let blanks := if ¬ type.zeropad ∧ ¬ type.left then padLoop (ch ' ') 0#32 size else ([], size)
  let pad := if ¬ type.left then padLoop c 0#32 blanks.2 else ([], blanks.2)
  let trail := padLoop (ch ' ') 0#32 pad.2
  (blanks.1, pad.1, trail.1)

/-- `number` (vsprintf.c:139-212): the characters it writes, none if it returns 0. -/
def number (num : BitVec 32) (base : ℕ) (size precision : BitVec 32) (type : Flags) :
    Option (List Byte) :=
  let type := if type.left then { type with zeropad := false } else type
  if base < 2 ∨ 36 < base then none
  else
    let sign := signText type num
    let size := size - BitVec.ofNat 32 sign.length
    let special := specialText type base
    let size := size - BitVec.ofNat 32 special.length
    let digits := digitsText type base (magnitude type num)
    let i := BitVec.ofNat 32 digits.length
    let precision := if precision.slt i then i else precision
    let pads := padding type (size - precision)
    let zeroes := padLoop (ch '0') i precision
    some (pads.1 ++ sign ++ special ++ pads.2.1 ++ zeroes.1 ++ digits ++ pads.2.2)

/-- `is_digit` (vsprintf.c:112) -/
def isDigit (c : Byte) : Bool := ch '0' ≤ c ∧ c ≤ ch '9'

/-- `skip_atoi` (vsprintf.c:114-121), from the value `i` on. -/
def skipAtoi (i : BitVec 32) : List Byte → BitVec 32 × List Byte
  | [] => (i, [])
  | c :: s =>
    if isDigit c then skipAtoi (i * 10 + c.setWidth 32 - (ch '0').setWidth 32) s else (i, c :: s)

/-- A memory after the `int` `p.2` is stored at `p.1`, the lowest byte first. -/
def storeInt (mem : BitVec 32 → Option Byte) (p : BitVec 32 × BitVec 32) (x : BitVec 32) :
    Option Byte :=
  let i := (x - p.1).toNat
  if i < 4 then (mem x).map fun _ => (p.2 >>> (8 * i)).setWidth 8 else mem x

/-- `strnlen` (vsprintf.c:77-84) of the string at `s`, none if it reads what is not there. -/
def strnlen (mem : BitVec 32 → Option Byte) (s : BitVec 32) : ℕ → Option ℕ
  | 0 => (mem s).map fun _ => 0
  | count + 1 =>
    (mem s).bind fun c => if c = 0 then some 0 else (strnlen mem (s + 1) count).map (· + 1)

/-- `for (i = 0; i < len; ++i) *str++ = *s++` (vsprintf.c:306-307) -/
def copyString (mem : BitVec 32 → Option Byte) (s : BitVec 32) : ℕ → Option (List Byte)
  | 0 => some []
  | len + 1 => (mem s).bind fun c => (copyString mem (s + 1) len).map (c :: ·)

/-- The memory of the string `"<NULL>"`, at address 0. -/
def nullText (s : BitVec 32) : Option Byte := ("<NULL>".toList.map ch ++ [0])[s.toNat]?

/-- A conversion specification as it is read: the local variables of the loop, the
    format and the next argument. -/
structure Spec where
  flags : Flags := {}
  field_width : BitVec 32 := -1
  precision : BitVec 32 := -1
  qualifier : Option Byte := none
  fmt : List Byte
  arg : ℕ
  deriving DecidableEq, Repr

/-- `repeat:` (vsprintf.c:237-245) -/
def readFlags (flags : Flags) : List Byte → Flags × List Byte
  | [] => (flags, [])
  | c :: fmt =>
    if c = ch '-' then readFlags { flags with left := true } fmt
    else if c = ch '+' then readFlags { flags with plus := true } fmt
    else if c = ch ' ' then readFlags { flags with space := true } fmt
    else if c = ch '#' then readFlags { flags with special := true } fmt
    else if c = ch '0' then readFlags { flags with zeropad := true } fmt
    else (flags, c :: fmt)

/-- The field width (vsprintf.c:247-259). -/
def Spec.readWidth (args : ℕ → BitVec 32) (s : Spec) : Spec :=
  if isDigit (peek s.fmt) then
    { s with field_width := (skipAtoi 0 s.fmt).1, fmt := (skipAtoi 0 s.fmt).2 }
  else if peek s.fmt = ch '*' then
    if (args s.arg).slt 0#32 then
      { s with field_width := -args s.arg, flags := { s.flags with left := true },
               fmt := s.fmt.tail, arg := s.arg + 1 }
    else { s with field_width := args s.arg, fmt := s.fmt.tail, arg := s.arg + 1 }
  else s

/-- The precision (vsprintf.c:261-274). -/
def Spec.readPrecision (args : ℕ → BitVec 32) (s : Spec) : Spec :=
  if peek s.fmt = ch '.' then
    let s := { s with fmt := s.fmt.tail }
    let s :=
      if isDigit (peek s.fmt) then
        { s with precision := (skipAtoi 0 s.fmt).1, fmt := (skipAtoi 0 s.fmt).2 }
      else if peek s.fmt = ch '*' then
        { s with precision := args s.arg, fmt := s.fmt.tail, arg := s.arg + 1 }
      else s
    if s.precision.slt 0#32 then { s with precision := 0 } else s
  else s

/-- The qualifier (vsprintf.c:276-281). -/
def Spec.readQualifier (s : Spec) : Spec :=
  if peek s.fmt = ch 'h' ∨ peek s.fmt = ch 'l' ∨ peek s.fmt = ch 'L' then
    { s with qualifier := some (peek s.fmt), fmt := s.fmt.tail }
  else s

/-- Everything between a `%` and the conversion letter. -/
def readSpec (args : ℕ → BitVec 32) (fmt : List Byte) (arg : ℕ) : Spec :=
  let r := readFlags {} fmt
  (((Spec.mk r.1 (-1) (-1) none r.2 arg).readWidth args).readPrecision args).readQualifier

/-- What `vsprintf` has done so far: the text in `buf` and the `int`s that `%n` stored. -/
structure Output where
  text : List Byte := []
  stores : List (BitVec 32 × BitVec 32) := []
  deriving DecidableEq, Repr

/-- `*str++ = c` for the characters of `s` -/
def Output.put (out : Output) (s : List Byte) : Output := { out with text := out.text ++ s }

/-- The contents of `buf` when `vsprintf` returns. -/
def Output.buf (out : Output) : List Byte := out.text ++ [0]

/-- `str - buf`, the value returned -/
def Output.length (out : Output) : BitVec 32 := BitVec.ofNat 32 out.text.length

/-- The memory as `%n` has left it -/
def Output.memory (out : Output) (mem : BitVec 32 → Option Byte) : BitVec 32 → Option Byte :=
  out.stores.foldl storeInt mem

/-- An integer conversion in base `base` (vsprintf.c:359-370). -/
def Spec.integer (args : ℕ → BitVec 32) (s : Spec) (base : ℕ) : Option (List Byte) :=
  let num :=
    if s.qualifier = some (ch 'h') then
      if s.flags.sign then ((args s.arg).setWidth 16).signExtend 32
      else ((args s.arg).setWidth 16).setWidth 32
    else args s.arg
  number num base s.field_width s.precision s.flags

/-- `%s` (vsprintf.c:296-310). The length is kept in an `int`, and none of a string is
    copied whose length is negative there. -/
def Spec.string (mem : BitVec 32 → Option Byte) (args : ℕ → BitVec 32) (s : Spec) :
    Option (List Byte) :=
  let mem := if args s.arg = 0 then nullText else mem
  (strnlen mem (args s.arg) s.precision.toNat).bind fun size =>
    let len := BitVec.ofNat 32 size
    (copyString mem (args s.arg) len.toInt.toNat).map fun text =>
      let lead := if ¬ s.flags.left then padLoop (ch ' ') len s.field_width
        else ([], s.field_width)
      lead.1 ++ text ++ (padLoop (ch ' ') len lead.2).1

/-- `%c` (vsprintf.c:287-294) -/
def Spec.char (args : ℕ → BitVec 32) (s : Spec) : List Byte :=
  let lead := if ¬ s.flags.left then preLoop (ch ' ') s.field_width else ([], s.field_width)
  lead.1 ++ [(args s.arg).setWidth 8] ++ (preLoop (ch ' ') lead.2).1

/-- `%p` (vsprintf.c:312-320) -/
def Spec.pointer (args : ℕ → BitVec 32) (s : Spec) : Option (List Byte) :=
  let s := if s.field_width = -1 then
    { s with field_width := 8, flags := { s.flags with zeropad := true } } else s
  number (args s.arg) 16 s.field_width s.precision s.flags

/-- The `switch` on the conversion letter (vsprintf.c:286-370), with the next argument. -/
def Spec.convert (mem : BitVec 32 → Option Byte) (args : ℕ → BitVec 32) (s : Spec) (out : Output) :
    Option (Output × ℕ) :=
  let c := peek s.fmt
  let write (text : Option (List Byte)) := text.map fun text => (out.put text, s.arg + 1)
  if c = ch 'c' then write (some (s.char args))
  else if c = ch 's' then write (s.string (out.memory mem) args)
  else if c = ch 'p' then write (s.pointer args)
  else if c = ch 'n' then
    some ({ out with stores := out.stores ++ [(args s.arg, out.length)] }, s.arg + 1)
  else if c = ch 'o' then write (s.integer args 8)
  else if c = ch 'X' then write (Spec.integer args { s with flags.large := true } 16)
  else if c = ch 'x' then write (s.integer args 16)
  else if c = ch 'd' ∨ c = ch 'i' then write (Spec.integer args { s with flags.sign := true } 10)
  else if c = ch 'u' then write (s.integer args 10)
  else
    let out := if c ≠ ch '%' then out.put [ch '%'] else out
    some (if c ≠ 0 then out.put [c] else out, s.arg)

/-- `++fmt` at the end of the loop body. At the end of the format `--fmt` undoes it. -/
def Spec.next (s : Spec) : List Byte := if peek s.fmt ≠ 0 then s.fmt.tail else s.fmt

theorem length_skipAtoi_le (i : BitVec 32) (fmt : List Byte) :
    (skipAtoi i fmt).2.length ≤ fmt.length := by
  induction fmt generalizing i with
  | nil => exact le_rfl
  | cons c fmt ih =>
    rw [skipAtoi]
    split_ifs
    · exact (ih _).trans (Nat.le_succ _)
    · exact le_rfl

theorem length_readFlags_le (flags : Flags) (fmt : List Byte) :
    (readFlags flags fmt).2.length ≤ fmt.length := by
  induction fmt generalizing flags with
  | nil => exact le_rfl
  | cons c fmt ih =>
    rw [readFlags]
    split_ifs
    all_goals first
      | exact (ih _).trans (Nat.le_succ _)
      | exact le_rfl

theorem Spec.length_readWidth_le (args : ℕ → BitVec 32) (s : Spec) :
    (s.readWidth args).fmt.length ≤ s.fmt.length := by
  unfold Spec.readWidth
  split_ifs
  · exact length_skipAtoi_le _ _
  · simp
  · simp
  · exact le_rfl

theorem Spec.length_readPrecision_le (args : ℕ → BitVec 32) (s : Spec) :
    (s.readPrecision args).fmt.length ≤ s.fmt.length := by
  have h : s.fmt.tail.length ≤ s.fmt.length := by simp
  have hskip := length_skipAtoi_le 0 s.fmt.tail
  have htail : s.fmt.tail.tail.length ≤ s.fmt.length := by
    simp only [List.length_tail]
    omega
  unfold Spec.readPrecision
  dsimp only
  split_ifs
  all_goals first
    | exact hskip.trans h
    | assumption
    | exact le_rfl

theorem Spec.length_readQualifier_le (s : Spec) : s.readQualifier.fmt.length ≤ s.fmt.length := by
  unfold Spec.readQualifier
  split_ifs <;> simp

/-- A specification is read forwards. -/
theorem length_readSpec_le (args : ℕ → BitVec 32) (fmt : List Byte) (arg : ℕ) :
    (readSpec args fmt arg).fmt.length ≤ fmt.length :=
  calc (readSpec args fmt arg).fmt.length
    _ ≤ _ := Spec.length_readQualifier_le _
    _ ≤ _ := Spec.length_readPrecision_le _ _
    _ ≤ _ := Spec.length_readWidth_le _ _
    _ ≤ fmt.length := length_readFlags_le _ _

theorem Spec.length_next_le (s : Spec) : s.next.length ≤ s.fmt.length := by
  unfold Spec.next
  split_ifs <;> simp

/-- The loop of `vsprintf` from `fmt` on (vsprintf.c:229-371). -/
def vsprintfLoop (mem : BitVec 32 → Option Byte) (args : ℕ → BitVec 32) :
    List Byte → ℕ → Output → Option Output
  | [], _, out => some out
  | c :: fmt, arg, out =>
    if c = 0 then some out
    else if c ≠ ch '%' then vsprintfLoop mem args fmt arg (out.put [c])
    else
      let s := readSpec args fmt arg
      (s.convert mem args out).bind fun r => vsprintfLoop mem args s.next r.2 r.1
termination_by fmt => fmt.length
decreasing_by
  · exact Nat.lt_succ_self _
  · exact Nat.lt_succ_of_le ((Spec.length_next_le _).trans (length_readSpec_le _ _ _))

/-- `vsprintf` (vsprintf.c:214-374) -/
def vsprintf (mem : BitVec 32 → Option Byte) (fmt : List Byte) (args : ℕ → BitVec 32) :
    Option Output :=
  vsprintfLoop mem args fmt 0 {}

/-! ## The text of `number` -/

/-- The padding loop writes the difference, and leaves `n` one below `low` after any
    character written. -/
theorem padLoop_eq (c : Byte) (low n : BitVec 32) :
    padLoop c low n =
      (List.replicate (n.toInt - low.toInt).toNat c, if low.slt n then low - 1 else n - 1) := by
  fun_induction padLoop c low n with
  | case1 n h r ih =>
    have hlt := BitVec.slt_iff_toInt_lt.mp h
    have hone := toInt_sub_one h
    have hlen : (n.toInt - low.toInt).toNat = ((n - 1).toInt - low.toInt).toNat + 1 := by omega
    rw [hlen, List.replicate_succ, if_pos h]
    simp only [r, ih, Prod.mk.injEq, true_and]
    split_ifs with hnext
    · rfl
    · have : n - 1 = low := by
        rw [BitVec.slt_iff_toInt_lt] at hnext
        exact BitVec.eq_of_toInt_eq (by omega)
      rw [this]
  | case2 n h =>
    rw [BitVec.slt_iff_toInt_lt] at h
    have hlen : (n.toInt - low.toInt).toNat = 0 := by omega
    rw [hlen, List.replicate_zero, if_neg (by rwa [BitVec.slt_iff_toInt_lt])]

/-- What is written between the prefix and the digits, if `room` characters of the field
    are left. The counter of the first loop wraps to `LONG_MAX` if it starts at
    `LONG_MIN`. -/
def innerPad (type : Flags) (room : BitVec 32) : List Byte :=
  if type.left then []
  else if type.zeropad then List.replicate room.toInt.toNat (ch '0')
  else if room = LONG_MIN then List.replicate LONG_MAX.toNat (ch ' ')
  else []

/-- The division loop writes the digits of Mathlib. -/
theorem divLoop_eq (digits : List Byte) {base : ℕ} (h2 : 2 ≤ base) (num : ℕ) :
    divLoop digits base num = (Nat.digits base num).map (digits.getD · 0) := by
  induction num using Nat.strong_induction_on with
  | _ num ih =>
    rw [divLoop]
    by_cases h0 : num = 0
    · simp [h0]
    · have hpos : 0 < num := Nat.pos_of_ne_zero h0
      have hbase : ¬ base < 2 := by omega
      rw [dif_neg (by omega), Nat.digits_def' h2 hpos, List.map_cons,
        ih (num / base) (Nat.div_lt_self hpos h2)]

/-- `tmp` never holds more than 32 digits. -/
theorem length_digitsText_le (type : Flags) {base : ℕ} (h2 : 2 ≤ base) (num : BitVec 32) :
    (digitsText type base num).length ≤ 32 := by
  rw [digitsText, List.length_reverse]
  split_ifs
  · decide
  · rw [divLoop_eq _ h2, List.length_map, Nat.digits_length_le_iff h2]
    calc num.toNat < 2 ^ 32 := num.isLt
      _ ≤ base ^ 32 := Nat.pow_le_pow_left h2 32

/-- The number of digits, one for 0. -/
theorem length_digitsText_eq (type : Flags) {base : ℕ} (h2 : 2 ≤ base) (num : BitVec 32) :
    (digitsText type base num).length = max 1 (Nat.digits base num.toNat).length := by
  rw [digitsText, List.length_reverse]
  split_ifs with h0
  · simp [h0]
  · have hnum : num.toNat ≠ 0 := fun h => h0 (BitVec.eq_of_toNat_eq h)
    have hne : Nat.digits base num.toNat ≠ [] := Nat.digits_ne_nil_iff_ne_zero.mpr hnum
    have hpos : 0 < (Nat.digits base num.toNat).length := List.length_pos_iff.mpr hne
    rw [divLoop_eq _ h2, List.length_map]
    omega

/-- `size` after `while (size-- > 0)` -/
def sizeAfter (size : BitVec 32) : BitVec 32 := if (0#32).slt size then 0#32 - 1 else size - 1

theorem padLoop_zero (c : Byte) (size : BitVec 32) :
    padLoop c 0#32 size = (List.replicate size.toInt.toNat c, sizeAfter size) := by
  rw [padLoop_eq, BitVec.toInt_zero, Int.sub_zero]
  rfl

/-- A loop that starts where another one ended writes something only after a wrap. -/
theorem toNat_toInt_sizeAfter (n : BitVec 32) :
    (sizeAfter n).toInt.toNat = if n = LONG_MIN then LONG_MAX.toNat else 0 := by
  unfold sizeAfter
  by_cases hmin : n = LONG_MIN
  · rw [hmin]
    decide
  · rw [if_neg hmin]
    split_ifs with hpos
    · decide
    · rw [BitVec.slt_iff_toInt_lt] at hpos
      have hn := BitVec.le_toInt n
      have hne : n.toInt ≠ -2147483648 := by
        intro h
        exact hmin (BitVec.eq_of_toInt_eq h)
      have hlow : LONG_MIN.slt n = true := by
        rw [BitVec.slt_iff_toInt_lt, show LONG_MIN.toInt = -2147483648 from rfl]
        omega
      rw [toInt_sub_one hlow]
      have hzero : (0#32).toInt = 0 := rfl
      omega

theorem slt_zero_iff_toInt (x : BitVec 32) : x.slt 0#32 = true ↔ x.toInt < 0 := by
  rw [BitVec.slt_iff_toInt_lt, BitVec.toInt_zero]

theorem toInt_ofNat_of_lt {k : ℕ} (hk : k < 2 ^ 31) : (BitVec.ofNat 32 k).toInt = k := by
  have hnat : (BitVec.ofNat 32 k).toNat = k := by
    rw [BitVec.toNat_ofNat, Nat.mod_eq_of_lt (by omega)]
  rw [BitVec.toInt_eq_toNat_of_lt (x := BitVec.ofNat 32 k) (by omega), hnat]

theorem neg_one_slt_ofNat {k : ℕ} (hk : k < 2 ^ 31) :
    (-1 : BitVec 32).slt (BitVec.ofNat 32 k) = true := by
  have hone : (-1 : BitVec 32).toInt = -1 := rfl
  rw [BitVec.slt_iff_toInt_lt, toInt_ofNat_of_lt hk, hone]
  omega

/-- The blanks before the sign, if `room` characters of the field are left. -/
def leadPad (type : Flags) (room : BitVec 32) : List Byte :=
  if type.left ∨ type.zeropad then [] else List.replicate room.toInt.toNat (ch ' ')

/-- The blanks at the end. Here, too, a counter may have wrapped in the loops before. -/
def trailPad (type : Flags) (room : BitVec 32) : List Byte :=
  if type.left then List.replicate room.toInt.toNat (ch ' ')
  else if room = (if type.zeropad then LONG_MIN else LONG_MIN + 1) then
    List.replicate LONG_MAX.toNat (ch ' ')
  else []

/-- The loops on `size` before the last one -/
def Flags.loops (type : Flags) : ℕ := if type.left then 0 else if type.zeropad then 1 else 2

/-- The padding in the middle, if no counter wraps -/
theorem innerPad_of_le {type : Flags} {room : BitVec 32}
    (h : LONG_MIN.toInt + type.loops ≤ room.toInt) :
    innerPad type room = if type.zeropad ∧ ¬ type.left then List.replicate room.toInt.toNat (ch '0')
      else [] := by
  unfold Flags.loops at h
  unfold innerPad
  by_cases hl : type.left = true
  · simp [hl]
  · by_cases hz : type.zeropad = true
    · simp [hl, hz]
    · have hne : room ≠ LONG_MIN := by
        rintro rfl
        rw [if_neg hl, if_neg hz] at h
        exact absurd h (by decide)
      simp [hl, hz, hne]

/-- The padding at the end, if no counter wraps -/
theorem trailPad_of_le {type : Flags} {room : BitVec 32}
    (h : LONG_MIN.toInt + type.loops ≤ room.toInt) :
    trailPad type room = if type.left then List.replicate room.toInt.toNat (ch ' ') else [] := by
  unfold Flags.loops at h
  unfold trailPad
  by_cases hl : type.left = true
  · simp [hl]
  · have hne : room ≠ if type.zeropad then LONG_MIN else LONG_MIN + 1 := by
      rintro rfl
      by_cases hz : type.zeropad = true
      · rw [if_neg hl, if_pos hz, if_pos hz] at h
        exact absurd h (by decide)
      · rw [if_neg hl, if_neg hz, if_neg hz] at h
        exact absurd h (by decide)
    rw [if_neg hl, if_neg hne, if_neg hl]

theorem sizeAfter_eq_min_iff (n : BitVec 32) : sizeAfter n = LONG_MIN ↔ n = LONG_MIN + 1 := by
  unfold sizeAfter
  constructor
  · intro h
    split_ifs at h with hpos
    · exact absurd h (by decide)
    · exact sub_eq_iff_eq_add.mp h
  · rintro rfl
    decide

/-- What each loop on `size` writes. -/
theorem padding_eq (type : Flags) (size : BitVec 32) :
    padding type size = (leadPad type size, innerPad type size, trailPad type size) := by
  have hwrap : ∀ n : BitVec 32, List.replicate (sizeAfter n).toInt.toNat (ch ' ') =
      if n = LONG_MIN then List.replicate LONG_MAX.toNat (ch ' ') else [] := by
    intro n
    rw [toNat_toInt_sizeAfter]
    split_ifs <;> rfl
  obtain ⟨zeropad, sign, plus, space, left, special, large⟩ := type
  unfold padding leadPad innerPad trailPad
  cases left with
  | true => simp [padLoop_zero]
  | false =>
    cases zeropad with
    | true => simp [padLoop_zero, hwrap]
    | false => simp [padLoop_zero, hwrap, sizeAfter_eq_min_iff]

/-- **The text of `number`**: blanks, sign, prefix, inner padding, leading zeroes, digits and
    blanks. -/
theorem number_layout (num : BitVec 32) {base : ℕ} (h2 : 2 ≤ base) (h36 : base ≤ 36)
    (size precision : BitVec 32) (type : Flags) {i prec room : BitVec 32}
    (hi : i = BitVec.ofNat 32 (digitsText type base (magnitude type num)).length)
    (hprec : prec = if precision.slt i then i else precision)
    (hroom : room = size - BitVec.ofNat 32 (signText type num).length -
      BitVec.ofNat 32 (specialText type base).length - prec) :
    number num base size precision type = some
      (leadPad type room ++ signText type num ++ specialText type base ++ innerPad type room ++
        List.replicate (prec.toInt - i.toInt).toNat (ch '0') ++
        digitsText type base (magnitude type num) ++ trailPad type room) := by
  have hbase : ¬ (base < 2 ∨ 36 < base) := by omega
  subst hi hprec hroom
  by_cases hl : type.left = true
  · have hpads : ∀ room, leadPad { type with zeropad := false } room = leadPad type room ∧
        innerPad { type with zeropad := false } room = innerPad type room ∧
        trailPad { type with zeropad := false } room = trailPad type room := by
      intro room
      simp [leadPad, innerPad, trailPad, hl]
    rw [number, if_pos hl, if_neg hbase]
    simp only [padding_eq, padLoop_eq, hpads]
    rfl
  · rw [number, if_neg hl, if_neg hbase]
    simp only [padding_eq, padLoop_eq]

/-- The text without a precision. -/
theorem number_eq_layout (num : BitVec 32) {base : ℕ} (h2 : 2 ≤ base) (h36 : base ≤ 36)
    (size : BitVec 32) (type : Flags) :
    ∃ lead trail, number num base size (-1) type = some
      (List.replicate lead (ch ' ') ++ signText type num ++ specialText type base ++
        innerPad type (size - BitVec.ofNat 32 (signText type num).length -
            BitVec.ofNat 32 (specialText type base).length -
            BitVec.ofNat 32 (digitsText type base (magnitude type num)).length) ++
          digitsText type base (magnitude type num) ++ List.replicate trail (ch ' ')) := by
  have hlen := length_digitsText_le type h2 (magnitude type num)
  have hi := neg_one_slt_ofNat (k := (digitsText type base (magnitude type num)).length) (by omega)
  rw [number_layout num h2 h36 size (-1) type rfl (if_pos hi).symm rfl]
  generalize size - _ - _ - _ = room
  have hlead : ∃ lead, leadPad type room = List.replicate lead (ch ' ') := by
    unfold leadPad
    split_ifs
    · exact ⟨0, rfl⟩
    · exact ⟨_, rfl⟩
  have htrail : ∃ trail, trailPad type room = List.replicate trail (ch ' ') := by
    unfold trailPad
    split_ifs
    all_goals first
      | exact ⟨_, rfl⟩
      | exact ⟨0, rfl⟩
  obtain ⟨lead, hlead⟩ := hlead
  obtain ⟨trail, htrail⟩ := htrail
  exact ⟨lead, trail, by simp [hlead, htrail]⟩

end Mwdd32.Util
