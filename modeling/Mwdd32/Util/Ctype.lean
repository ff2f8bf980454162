import Mathlib.Tactic
import Mathlib.Data.BitVec

/-!
# Characters and limits

Characters are bytes and `long` is 32 bits wide. The predicates read the table `_ctype` of
`util/ctype.c` with the masks of `include/os2/ctype.h`; every byte from `80` on has class `0`.
-/

namespace Mwdd32.Util

/-- `LONG_MAX` -/
def LONG_MAX : BitVec 32 := 0x7FFFFFFF

/-- `LONG_MIN` -/
def LONG_MIN : BitVec 32 := 0x80000000

/-- `ULONG_MAX` -/
def ULONG_MAX : BitVec 32 := 0xFFFFFFFF

/-- `unsigned char` -/
abbrev Byte := BitVec 8

/-- A character constant of the source. -/
def ch (c : Char) : Byte := BitVec.ofNat 8 c.toNat

/-- `*s`, for a string that ends at its terminating null. -/
def peek (s : List Byte) : Byte := s.headD 0

@[simp] theorem peek_nil : peek [] = 0 := rfl

@[simp] theorem peek_cons (c : Byte) (s : List Byte) : peek (c :: s) = c := rfl

/-- `isspace` -/
def isspace (c : Byte) : Bool := (0x09 ≤ c ∧ c ≤ 0x0D) ∨ c = 0x20

/-- `isdigit` -/
def isdigit (c : Byte) : Bool := ch '0' ≤ c ∧ c ≤ ch '9'

/-- `isupper` -/
def isupper (c : Byte) : Bool := ch 'A' ≤ c ∧ c ≤ ch 'Z'

/-- `islower` -/
def islower (c : Byte) : Bool := ch 'a' ≤ c ∧ c ≤ ch 'z'

/-- `isalpha` -/
def isalpha (c : Byte) : Bool := isupper c ∨ islower c

/-- A null-terminated string: the characters before the null. -/
structure CStr where
  bytes : List Byte
  noNull : ∀ c ∈ bytes, c ≠ 0

/-- The string in memory. -/
def CStr.buf (s : CStr) : List Byte := s.bytes ++ [0]

/-- What is left of a null-terminated string after some of its characters. -/
inductive Terminated : List Byte → Prop
  | null : Terminated [0]
  | cons {c : Byte} {s : List Byte} (hc : c ≠ 0) (hs : Terminated s) : Terminated (c :: s)

theorem CStr.terminated_buf (s : CStr) : Terminated s.buf := by
  obtain ⟨bytes, noNull⟩ := s
  induction bytes with
  | nil => exact .null
  | cons c bytes ih => exact .cons (noNull c (by simp)) (ih fun d hd => noNull d (by simp [hd]))

namespace Terminated

variable {c : Byte} {s : List Byte}

/-- Only the null is followed by nothing. -/
theorem tail (h : Terminated (c :: s)) (hc : c ≠ 0) : Terminated s := by
  cases h with
  | null => exact absurd rfl hc
  | cons _ hs => exact hs

/-- There is a character to read. -/
theorem exists_cons (h : Terminated s) : ∃ c t, s = c :: t := by
  cases h with
  | null => exact ⟨0, [], rfl⟩
  | cons _ _ => exact ⟨_, _, rfl⟩

theorem drop_two {d : Byte} (h : Terminated (c :: d :: s)) (hc : c ≠ 0) (hd : d ≠ 0) :
    Terminated ((c :: d :: s).drop 2) :=
  (h.tail hc).tail hd

end Terminated

end Mwdd32.Util
