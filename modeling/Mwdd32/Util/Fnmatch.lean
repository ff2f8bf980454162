import Mwdd32.Util.Ctype

/-!
# `__mwdd32_fnmatch`

Model of `util/fnmatch.c`. A pointer into a string is the part of its buffer
from there on, the terminating null included. A result is none where the code
reads past the end of the buffer.
-/

namespace Mwdd32.Util

/-! ## Constants (`include/os2/fnmatch.h`) -/

/-- `FNM_NOESCAPE` -/
def FNM_NOESCAPE : BitVec 32 := 16

/-- `FNM_PATHNAME` -/
def FNM_PATHNAME : BitVec 32 := 32

/-- `FNM_PERIOD` -/
def FNM_PERIOD : BitVec 32 := 64

/-- `_FNM_STYLE_MASK` -/
def FNM_STYLE_MASK : BitVec 32 := 15

/-- `_FNM_POSIX` -/
def FNM_POSIX : BitVec 32 := 0

/-- `_FNM_OS2` -/
def FNM_OS2 : BitVec 32 := 1

/-- `_FNM_DOS` -/
def FNM_DOS : BitVec 32 := 2

/-- `_FNM_IGNORECASE` -/
def FNM_IGNORECASE : BitVec 32 := 128

/-- `_FNM_PATHPREFIX` -/
def FNM_PATHPREFIX : BitVec 32 := 256

/-- The result of a match: `_FNM_MATCH`, `FNM_NOMATCH` or `_FNM_ERR`. -/
inductive Rc
  | match
  | nomatch
  | err
  deriving DecidableEq, Repr

/-- The `int` returned. -/
def Rc.code : Rc → BitVec 32
  | .match => 0
  | .nomatch => 1
  | .err => 2

/-- `flags & flag` as a truth value -/
def has (flags flag : BitVec 32) : Bool := flags &&& flag != 0

/-! ## OS/2 and DOS styles -/

/-- `_nls_tolower` (fnmatch.c:42-48) -/
def nlsTolower (c : Byte) : Byte := if ch 'A' ≤ c ∧ c ≤ ch 'Z' then c + ch 'a' - ch 'A' else c

/-- What the last case of the matchers compares: the lower case letters under
    `_FNM_IGNORECASE`. -/
def fold (flags : BitVec 32) (c : Byte) : Byte :=
  if has flags FNM_IGNORECASE then nlsTolower c else c

/-- Only letters change. -/
theorem nlsTolower_eq_iff {c d : Byte} (hd : isalpha d = false) : nlsTolower c = d ↔ c = d := by
  have hA : (ch 'A').toNat = 65 := rfl
  have hZ : (ch 'Z').toNat = 90 := rfl
  have ha : (ch 'a').toNat = 97 := rfl
  have hz : (ch 'z').toNat = 122 := rfl
  simp only [isalpha, isupper, islower, decide_eq_false_iff_not, not_or, not_and,
    decide_eq_true_eq] at hd
  unfold nlsTolower
  split_ifs with h
  · bv_omega
  · rfl

theorem fold_eq_iff {flags : BitVec 32} {c d : Byte} (hd : isalpha d = false) :
    fold flags c = d ↔ c = d := by
  unfold fold
  split_ifs
  · exact nlsTolower_eq_iff hd
  · rfl

/-- A character that folds to the null is the null. -/
theorem ne_zero_of_fold_eq {flags : BitVec 32} {c n : Byte} (hc : c ≠ 0)
    (h : fold flags c = fold flags n) : n ≠ 0 := by
  rintro rfl
  have hzero : fold flags 0 = 0 := (fold_eq_iff (by decide)).mpr rfl
  exact hc ((fold_eq_iff (by decide)).mp (h.trans hzero))

/-- `IS_OS2_COMP_SEP` -/
def isOs2CompSep (c : Byte) : Bool := c = ch '/' ∨ c = ch '\\'

/-- `IS_OS2_COMP_END` -/
def isOs2CompEnd (c : Byte) : Bool := c = 0 ∨ isOs2CompSep c

/-- `skip_comp_os2` (fnmatch.c:67-80) -/
def skipCompOs2 : List Byte → Option (List Byte)
  | [] => none
  | c :: src =>
    if ¬ isOs2CompEnd c then skipCompOs2 src else if c ≠ 0 then some src else some (c :: src)

/-- The loop of a `*` over the name (fnmatch.c:151-161, 297-307): `rec` matches the mask
    after the stars, and the loop gives up before a character that `stop` names. -/
def starLoop (rec : List Byte → Option Rc) (stop : Byte → Bool) : List Byte → Option Rc
  | [] => (rec []).bind fun rc => if rc ≠ .nomatch then some rc else none
  | c :: name =>
    (rec (c :: name)).bind fun rc =>
      if rc ≠ .nomatch then some rc
      else if stop c then some .nomatch
      else starLoop rec stop name

/-- What an asterisk does not match in `match_comp_os2` (fnmatch.c:156-159). -/
def starStop (flags : BitVec 32) (n : Byte) : Bool :=
  isOs2CompEnd n ∨ (n = ch '.' ∧ flags &&& FNM_STYLE_MASK = FNM_DOS)

/-- `match_comp_os2` (fnmatch.c:92-192). The loop over consecutive asterisks starts the case
    again at each of them. -/
def matchCompOs2 (flags : BitVec 32) (hasDot : Bool) : List Byte → List Byte → Option Rc
  | [], _ => none
  | c :: mask, name =>
    if c = 0 then
      name.head?.map fun n =>
        if n = 0 then .match
        else if has flags FNM_PATHPREFIX ∧ isOs2CompSep n then .match
        else .nomatch
    else if isOs2CompSep c then
      name.head?.bind fun n =>
        if isOs2CompSep n then some .match
        else if has flags FNM_PATHPREFIX then
          mask.head?.map fun m => if m = 0 ∧ n = 0 then .match else .nomatch
        else some .nomatch
    else if c = ch '?' then
      name.head?.bind fun n =>
        matchCompOs2 flags hasDot mask (if n ≠ ch '.' ∧ ¬ isOs2CompEnd n then name.tail else name)
    else if c = ch '*' then
      mask.head?.bind fun m =>
        if m = ch '*' then matchCompOs2 flags hasDot mask name
        else
          starLoop (fun name => matchCompOs2 flags hasDot mask name) (starStop flags) name
    else if c = ch '.' then
      name.head?.bind fun n =>
        if n = ch '.' then matchCompOs2 flags hasDot mask name.tail
        else if hasDot ∨ ¬ isOs2CompEnd n then some .nomatch
        else matchCompOs2 flags hasDot mask name
    else
      name.head?.bind fun n =>
        if fold flags c ≠ fold flags n then some .nomatch
        else matchCompOs2 flags hasDot mask name.tail

/-- The cases of `match_comp_os2`. -/
inductive Os2Char : Byte → Prop
  | null : Os2Char 0
  | sep {c : Byte} (h : isOs2CompSep c = true) : Os2Char c
  | question : Os2Char (ch '?')
  | star : Os2Char (ch '*')
  | dot : Os2Char (ch '.')
  | char {c : Byte} (hend : isOs2CompEnd c = false) (hq : c ≠ ch '?') (hstar : c ≠ ch '*')
      (hdot : c ≠ ch '.') : Os2Char c

theorem isOs2CompEnd_eq_false {c : Byte} :
    isOs2CompEnd c = false ↔ c ≠ 0 ∧ isOs2CompSep c = false := by
  unfold isOs2CompEnd
  rw [decide_eq_false_iff_not, not_or, Bool.not_eq_true]

theorem ne_of_isOs2CompEnd {c d : Byte} (hc : isOs2CompEnd c = true) (hd : isOs2CompEnd d = false) :
    c ≠ d := by
  intro h
  rw [h, hd] at hc
  cases hc

theorem os2Char (c : Byte) : Os2Char c := by
  by_cases h0 : c = 0
  · exact h0 ▸ .null
  · by_cases hsep : isOs2CompSep c = true
    · exact .sep hsep
    · by_cases hq : c = ch '?'
      · exact hq ▸ .question
      · by_cases hstar : c = ch '*'
        · exact hstar ▸ .star
        · by_cases hdot : c = ch '.'
          · exact hdot ▸ .dot
          · exact .char (isOs2CompEnd_eq_false.mpr ⟨h0, Bool.not_eq_true _ ▸ hsep⟩) hq hstar hdot

theorem ne_zero_of_sep {c : Byte} (h : isOs2CompSep c = true) : c ≠ 0 := by
  rintro rfl
  exact absurd h (by decide)

theorem isOs2CompEnd_of_sep {c : Byte} (h : isOs2CompSep c = true) : isOs2CompEnd c = true := by
  simp [isOs2CompEnd, h]

section Equations

variable (flags : BitVec 32) (hasDot : Bool) (mask name : List Byte) (n : Byte)

theorem matchCompOs2_null :
    matchCompOs2 flags hasDot (0 :: mask) (n :: name) =
      some (if n = 0 then .match
        else if has flags FNM_PATHPREFIX ∧ isOs2CompSep n then .match
        else .nomatch) := rfl

theorem matchCompOs2_sep {c : Byte} (h : isOs2CompSep c = true) :
    matchCompOs2 flags hasDot (c :: mask) (n :: name) =
      if isOs2CompSep n then some .match
      else if has flags FNM_PATHPREFIX then
        mask.head?.map fun m => if m = 0 ∧ n = 0 then .match else .nomatch
      else some .nomatch := by
  rw [matchCompOs2, if_neg (ne_zero_of_sep h), if_pos h]
  rfl

theorem matchCompOs2_question :
    matchCompOs2 flags hasDot (ch '?' :: mask) (n :: name) =
      matchCompOs2 flags hasDot mask (if n ≠ ch '.' ∧ ¬ isOs2CompEnd n then name else n :: name) :=
        rfl

theorem matchCompOs2_star {m : Byte} (h : m ≠ ch '*') :
    matchCompOs2 flags hasDot (ch '*' :: m :: mask) name =
      starLoop (matchCompOs2 flags hasDot (m :: mask)) (starStop flags) name := by
  rw [matchCompOs2, if_neg (by decide), if_neg (by decide), if_neg (by decide), if_pos rfl,
    List.head?_cons, Option.bind_some, if_neg h]

theorem matchCompOs2_star_star :
    matchCompOs2 flags hasDot (ch '*' :: ch '*' :: mask) name =
      matchCompOs2 flags hasDot (ch '*' :: mask) name := by
  rw [matchCompOs2, if_neg (by decide), if_neg (by decide), if_neg (by decide), if_pos rfl,
    List.head?_cons, Option.bind_some, if_pos rfl]

theorem matchCompOs2_dot :
    matchCompOs2 flags hasDot (ch '.' :: mask) (n :: name) =
      if n = ch '.' then matchCompOs2 flags hasDot mask name
      else if hasDot ∨ ¬ isOs2CompEnd n then some .nomatch
      else matchCompOs2 flags hasDot mask (n :: name) := rfl

theorem matchCompOs2_char {c : Byte} (hend : isOs2CompEnd c = false) (hq : c ≠ ch '?')
    (hstar : c ≠ ch '*') (hdot : c ≠ ch '.') :
    matchCompOs2 flags hasDot (c :: mask) (n :: name) =
      if fold flags c ≠ fold flags n then some .nomatch
      else matchCompOs2 flags hasDot mask name := by
  obtain ⟨h0, hsep⟩ := isOs2CompEnd_eq_false.mp hend
  rw [matchCompOs2, if_neg h0, if_neg (by simp [hsep]), if_neg hq, if_neg hstar, if_neg hdot]
  rfl

end Equations

/-- The scan of `match_comp` for a dot (fnmatch.c:215-218). -/
def scanDot : List Byte → Option Bool
  | [] => none
  | c :: s => if ¬ isOs2CompEnd c ∧ c ≠ ch '.' then scanDot s else some (c = ch '.')

/-- `match_comp` (fnmatch.c:202-223) -/
def matchComp (flags : BitVec 32) (mask name : List Byte) : Option Rc :=
  if flags &&& FNM_STYLE_MASK = FNM_OS2 ∨ flags &&& FNM_STYLE_MASK = FNM_DOS then
    (scanDot name).bind fun hasDot => matchCompOs2 flags hasDot mask name
  else some .err

/-! ## POSIX style -/

/-- `IS_UNIX_COMP_SEP` -/
def isUnixCompSep (c : Byte) : Bool := c = ch '/'

/-- The end `c2` of an item of a set that starts with `c1` (fnmatch.c:373-387): the mask after
    the item, and the item. There is no item where the loop over the set breaks at the end
    of the mask. -/
def setRange (noescape : Bool) (c1 : Byte) (mask : List Byte) :
    Option (List Byte × Option (Byte × Byte)) :=
  mask.head?.bind fun m =>
    if m = ch '-' then
      mask.tail.head?.bind fun m1 =>
        if m1 ≠ ch ']' then
          let mask := if ¬ noescape ∧ m1 = ch '\\' then mask.tail.tail else mask.tail
          mask.head?.map fun c2 => if c2 = 0 then (mask, none) else (mask.tail, some (c1, c2))
        else some (mask, some (c1, c1))
    else some (mask, some (c1, c1))

/-- One item of a set (fnmatch.c:361-387), from its first character on. -/
def setItem (noescape : Bool) : List Byte → Option (List Byte × Option (Byte × Byte))
  | [] => none
  | c :: mask =>
    if ¬ noescape ∧ c = ch '\\' then
      mask.head?.bind fun c1 => if c1 = 0 then some (mask, none) else setRange noescape c1 mask.tail
    else setRange noescape c mask

theorem length_setRange_le {noescape : Bool} {c1 : Byte} {mask rest : List Byte}
    {item : Option (Byte × Byte)} (h : setRange noescape c1 mask = some (rest, item)) :
    rest.length ≤ mask.length := by
  unfold setRange at h
  obtain ⟨m, -, h⟩ := Option.bind_eq_some_iff.mp h
  split_ifs at h
  · obtain ⟨m1, -, h⟩ := Option.bind_eq_some_iff.mp h
    split_ifs at h
    · obtain ⟨c2, -, h⟩ := Option.map_eq_some_iff.mp h
      split_ifs at h <;> obtain ⟨rfl, -⟩ := Prod.mk.inj h <;> simp only [List.length_tail] <;> omega
    · obtain ⟨c2, -, h⟩ := Option.map_eq_some_iff.mp h
      split_ifs at h <;> obtain ⟨rfl, -⟩ := Prod.mk.inj h <;> simp only [List.length_tail] <;> omega
    · obtain ⟨rfl, -⟩ := Prod.mk.inj (Option.some.inj h)
      exact le_rfl
  · obtain ⟨rfl, -⟩ := Prod.mk.inj (Option.some.inj h)
    exact le_rfl

theorem length_setItem_le {noescape : Bool} {c : Byte} {mask rest : List Byte}
    {item : Option (Byte × Byte)} (h : setItem noescape (c :: mask) = some (rest, item)) :
    rest.length ≤ mask.length := by
  rw [setItem] at h
  split_ifs at h
  · obtain ⟨c1, -, h⟩ := Option.bind_eq_some_iff.mp h
    split_ifs at h
    · obtain ⟨rfl, -⟩ := Prod.mk.inj (Option.some.inj h)
      exact le_rfl
    · have := length_setRange_le h
      rw [List.length_tail] at this
      omega
  · exact length_setRange_le h

/-- `matched` after one item (fnmatch.c:391-400). -/
def setMatched (invert matched : Bool) (n : Byte) (item : Byte × Byte) : Bool :=
  if item.1 ≤ n ∧ n ≤ item.2 then matched || !invert else matched || invert

/-- The loop over a set (fnmatch.c:359-401): the mask where it ends, and `matched`. -/
def setLoop (noescape invert : Bool) (n : Byte) (first matched : Bool) :
    List Byte → Option (List Byte × Bool)
  | [] => none
  | c :: mask =>
    if c = 0 ∨ (c = ch ']' ∧ ¬ first) then some (c :: mask, matched)
    else
      match _h : setItem noescape (c :: mask) with
      | none => none
      | some (rest, none) => some (rest, matched)
      | some (rest, some item) =>
        setLoop noescape invert n false (setMatched invert matched n item) rest
termination_by mask => mask.length
decreasing_by exact Nat.lt_succ_of_le (length_setItem_le _h)

theorem length_setLoop_le {noescape invert : Bool} {n : Byte} {first matched result : Bool}
    {mask rest : List Byte}
    (h : setLoop noescape invert n first matched mask = some (rest, result)) :
    rest.length ≤ mask.length := by
  fun_induction setLoop noescape invert n first matched mask with
  | case1 => cases h
  | case2 first matched c mask hc =>
    obtain ⟨rfl, -⟩ := Prod.mk.inj (Option.some.inj h)
    exact le_rfl
  | case3 => cases h
  | case4 first matched c mask hc rest' hitem =>
    obtain ⟨rfl, -⟩ := Prod.mk.inj (Option.some.inj h)
    exact (length_setItem_le hitem).trans (Nat.le_succ _)
  | case5 first matched c mask hc rest' item hitem ih =>
    exact (ih h).trans ((length_setItem_le hitem).trans (Nat.le_succ _))

/-- The set after a `[` against the character `n` (fnmatch.c:343-422): the mask to go on with,
    the inner none where there is no match. Without a `]` the `[` is an ordinary
    character. -/
def matchSet (flags : BitVec 32) (n : Byte) (mask : List Byte) : Option (Option (List Byte)) :=
  mask.head?.bind fun m =>
    let invert : Bool := m = ch '!' ∨ m = ch '^'
    let start := if invert then mask.tail else mask
    (setLoop (has flags FNM_NOESCAPE) invert n true false start).bind fun r =>
      r.1.head?.map fun c =>
        if c = 0 then if n ≠ ch '[' then none else some mask
        else if ¬ r.2 then none else some r.1.tail

theorem length_matchSet_le {flags : BitVec 32} {n : Byte} {mask rest : List Byte}
    (h : matchSet flags n mask = some (some rest)) : rest.length ≤ mask.length := by
  unfold matchSet at h
  obtain ⟨m, -, h⟩ := Option.bind_eq_some_iff.mp h
  dsimp only at h
  obtain ⟨r, hr, h⟩ := Option.bind_eq_some_iff.mp h
  obtain ⟨c, -, h⟩ := Option.map_eq_some_iff.mp h
  have hstart : r.1.length ≤ mask.length := by
    refine (length_setLoop_le hr).trans ?_
    split_ifs
    · rw [List.length_tail]
      omega
    · exact le_rfl
  split_ifs at h
  · obtain rfl := Option.some.inj h
    exact le_rfl
  · obtain rfl := Option.some.inj h
    rw [List.length_tail]
    omega

/-- The mask ends after a separator, up to a backslash (fnmatch.c:318-320). -/
def endsAfterSep (flags : BitVec 32) (mask : List Byte) : Option Bool :=
  mask.head?.bind fun m =>
    if m = 0 then some true
    else if ¬ has flags FNM_NOESCAPE ∧ m = ch '\\' then mask.tail.head?.map (· = 0)
    else some false

/-- `*name == '.'` at the start of a component under `FNM_PERIOD`. -/
def leadingDot (flags : BitVec 32) (name comp : List Byte) : Prop :=
  peek name = ch '.' ∧ has flags FNM_PERIOD ∧ name.length = comp.length

instance (flags : BitVec 32) (name comp : List Byte) : Decidable (leadingDot flags name comp) :=
  inferInstanceAs (Decidable (_ ∧ _))

/-- A separator that is not matched under `FNM_PATHNAME`. -/
def sepStops (flags : BitVec 32) (n : Byte) : Prop := has flags FNM_PATHNAME ∧ isUnixCompSep n

instance (flags : BitVec 32) (n : Byte) : Decidable (sepStops flags n) :=
  inferInstanceAs (Decidable (_ ∧ _))

/-- `match_unix` (fnmatch.c:245-457). `name == comp` compares pointers into one string, so it
    compares what is left of the string. -/
def matchUnix (flags : BitVec 32) : List Byte → List Byte → List Byte → Option Rc
  | [], _, _ => none
  | c :: mask, name, comp =>
    name.head?.bind fun n =>
      if c = 0 then
        if n = 0 then some .match
        else if has flags FNM_PATHPREFIX ∧ isUnixCompSep n then some .match
        else some .nomatch
      else if c = ch '?' then
        if n = 0 ∨ sepStops flags n ∨ leadingDot flags name comp then some .nomatch
        else matchUnix flags mask name.tail comp
      else if c = ch '*' then
        if leadingDot flags name comp then some .nomatch
        else
          mask.head?.bind fun m =>
            if m = ch '*' then matchUnix flags mask name comp
            else
              starLoop (fun name => matchUnix flags mask name comp)
                (fun n => n = 0 ∨ sepStops flags n) name
      else if c = ch '/' then
        let next := if n ≠ 0 then name.tail else name
        let comp := if has flags FNM_PATHNAME then next else comp
        if isUnixCompSep n then matchUnix flags mask next comp
        else if has flags FNM_PATHPREFIX ∧ n = 0 then
          (endsAfterSep flags mask).bind fun ends =>
            if ends then matchUnix flags mask next comp else some .nomatch
        else some .nomatch
      else if c = ch '[' then
        if n = 0 ∨ sepStops flags n ∨ leadingDot flags name comp then some .nomatch
        else
          match _h : matchSet flags n mask with
          | none => none
          | some none => some .nomatch
          | some (some rest) => matchUnix flags rest name.tail comp
      else if c = ch '\\' then
        mask.head?.bind fun m =>
          if has flags FNM_NOESCAPE then
            if n ≠ ch '\\' then some .nomatch else matchUnix flags mask name.tail comp
          else if m = ch '*' ∨ m = ch '?' then
            if m ≠ n then some .nomatch else matchUnix flags mask.tail name.tail comp
          else matchUnix flags mask name comp
      else if fold flags c ≠ fold flags n then some .nomatch
      else matchUnix flags mask name.tail comp
termination_by mask => mask.length
decreasing_by
  all_goals simp only [List.length_cons, List.length_tail]
  all_goals try omega
  exact Nat.lt_succ_of_le (length_matchSet_le _h)

/-- The cases of `match_unix`. -/
inductive UnixChar : Byte → Prop
  | null : UnixChar 0
  | question : UnixChar (ch '?')
  | star : UnixChar (ch '*')
  | slash : UnixChar (ch '/')
  | bracket : UnixChar (ch '[')
  | backslash : UnixChar (ch '\\')
  | char {c : Byte} (h0 : c ≠ 0) (hq : c ≠ ch '?') (hstar : c ≠ ch '*') (hslash : c ≠ ch '/')
      (hbracket : c ≠ ch '[') (hback : c ≠ ch '\\') : UnixChar c

theorem unixChar (c : Byte) : UnixChar c := by
  by_cases h0 : c = 0
  · exact h0 ▸ .null
  · by_cases hq : c = ch '?'
    · exact hq ▸ .question
    · by_cases hstar : c = ch '*'
      · exact hstar ▸ .star
      · by_cases hslash : c = ch '/'
        · exact hslash ▸ .slash
        · by_cases hbracket : c = ch '['
          · exact hbracket ▸ .bracket
          · by_cases hback : c = ch '\\'
            · exact hback ▸ .backslash
            · exact .char h0 hq hstar hslash hbracket hback

section Equations

variable (flags : BitVec 32) (mask name comp : List Byte) (n : Byte)

theorem matchUnix_null :
    matchUnix flags (0 :: mask) (n :: name) comp =
      some (if n = 0 then .match
        else if has flags FNM_PATHPREFIX ∧ isUnixCompSep n then .match
        else .nomatch) := by
  rw [matchUnix]
  simp only [List.head?_cons, Option.bind_some, if_true]
  split_ifs <;> rfl

theorem matchUnix_question :
    matchUnix flags (ch '?' :: mask) (n :: name) comp =
      if n = 0 ∨ sepStops flags n ∨ leadingDot flags (n :: name) comp then some .nomatch
      else matchUnix flags mask name comp := by
  rw [matchUnix]
  rfl

theorem matchUnix_star {m : Byte} (h : m ≠ ch '*') :
    matchUnix flags (ch '*' :: m :: mask) (n :: name) comp =
      if leadingDot flags (n :: name) comp then some .nomatch
      else starLoop (fun name => matchUnix flags (m :: mask) name comp)
        (fun n => n = 0 ∨ sepStops flags n) (n :: name) := by
  rw [matchUnix]
  simp only [List.head?_cons, Option.bind_some, if_neg h]
  rfl

theorem matchUnix_star_star :
    matchUnix flags (ch '*' :: ch '*' :: mask) (n :: name) comp =
      if leadingDot flags (n :: name) comp then some .nomatch
      else matchUnix flags (ch '*' :: mask) (n :: name) comp := by
  rw [matchUnix]
  rfl

theorem matchUnix_slash :
    matchUnix flags (ch '/' :: mask) (n :: name) comp =
      let next := if n ≠ 0 then name else n :: name
      let comp := if has flags FNM_PATHNAME then next else comp
      if isUnixCompSep n then matchUnix flags mask next comp
      else if has flags FNM_PATHPREFIX ∧ n = 0 then
        (endsAfterSep flags mask).bind fun ends =>
          if ends then matchUnix flags mask next comp else some .nomatch
      else some .nomatch := by
  rw [matchUnix]
  rfl

theorem matchUnix_bracket :
    matchUnix flags (ch '[' :: mask) (n :: name) comp =
      if n = 0 ∨ sepStops flags n ∨ leadingDot flags (n :: name) comp then some .nomatch
      else
        (matchSet flags n mask).bind fun r =>
          match r with
          | none => some .nomatch
          | some rest => matchUnix flags rest name comp := by
  rw [matchUnix]
  simp only [List.head?_cons, Option.bind_some, List.tail_cons]
  rw [if_neg (by decide), if_neg (by decide), if_neg (by decide), if_neg (by decide),
    if_pos trivial]
  split_ifs
  · rfl
  · split
    · rename_i h
      rw [h, Option.bind_none]
    · rename_i h
      rw [h, Option.bind_some]
    · rename_i h
      rw [h, Option.bind_some]

theorem matchUnix_backslash {m : Byte} :
    matchUnix flags (ch '\\' :: m :: mask) (n :: name) comp =
      if has flags FNM_NOESCAPE then
        if n ≠ ch '\\' then some .nomatch else matchUnix flags (m :: mask) name comp
      else if m = ch '*' ∨ m = ch '?' then
        if m ≠ n then some .nomatch else matchUnix flags mask name comp
      else matchUnix flags (m :: mask) (n :: name) comp := by
  rw [matchUnix]
  rfl

theorem matchUnix_char {c : Byte} (h0 : c ≠ 0) (hq : c ≠ ch '?') (hstar : c ≠ ch '*')
    (hslash : c ≠ ch '/') (hbracket : c ≠ ch '[') (hback : c ≠ ch '\\') :
    matchUnix flags (c :: mask) (n :: name) comp =
      if fold flags c ≠ fold flags n then some .nomatch else matchUnix flags mask name comp := by
  rw [matchUnix]
  simp only [h0, hq, hstar, hslash, hbracket, hback, if_false]
  rfl

end Equations

/-! ## Whole paths -/

/-- `m_drive` and `n_drive` (fnmatch.c:479-480): a drive letter before a colon, the inner
    none where there is no drive. -/
def drive (s : List Byte) : Option (Option Byte) :=
  s.head?.bind fun c =>
    if isalpha c then s.tail.head?.map fun d => if d = ch ':' then some c else none
    else some none

/-- `strchr (s, ':') != NULL` -/
def hasColon : List Byte → Option Bool
  | [] => none
  | c :: s => if c = ch ':' then some true else if c = 0 then some false else hasColon s

/-- `sep (s[0]) && sep (s[1])` -/
def twoSeps (sep : Byte → Bool) (s : List Byte) : Option Bool :=
  s.head?.bind fun c => if sep c then s.tail.head?.map sep else some false

theorem length_skipCompOs2_le {s rest : List Byte} (h : skipCompOs2 s = some rest) :
    rest.length ≤ s.length := by
  induction s with
  | nil => cases h
  | cons c s ih =>
    rw [skipCompOs2] at h
    split_ifs at h
    · obtain rfl := Option.some.inj h
      exact Nat.le_succ _
    · obtain rfl := Option.some.inj h
      exact le_rfl
    · exact (ih h).trans (Nat.le_succ _)

theorem length_skipCompOs2_lt {c : Byte} {s rest : List Byte} (hc : c ≠ 0)
    (h : skipCompOs2 (c :: s) = some rest) : rest.length < (c :: s).length := by
  rw [skipCompOs2] at h
  split_ifs at h
  · obtain rfl := Option.some.inj h
    exact Nat.lt_succ_self _
  · exact Nat.lt_succ_of_le (length_skipCompOs2_le h)

/-- The loop over the components (fnmatch.c:545-574). -/
def compLoop (flags : BitVec 32) (mask name : List Byte) : Option Rc :=
  match mask, name with
  | [], _ | _, [] => none
  | m :: mask, n :: name =>
    if _h : m ≠ 0 ∨ n ≠ 0 then
      if m = 0 ∧ has flags FNM_PATHPREFIX then some .match
      else
        (matchComp flags (m :: mask) (n :: name)).bind fun rc =>
          if rc ≠ .match then some rc
          else
            match _hm : skipCompOs2 (m :: mask), _hn : skipCompOs2 (n :: name) with
            | some mask', some name' => compLoop flags mask' name'
            | _, _ => none
    else some .match
termination_by mask.length + name.length
decreasing_by
  rcases _h with h | h
  · exact Nat.add_lt_add_of_lt_of_le (length_skipCompOs2_lt h _hm) (length_skipCompOs2_le _hn)
  · exact Nat.add_lt_add_of_le_of_lt (length_skipCompOs2_le _hm) (length_skipCompOs2_lt h _hn)

theorem compLoop_cons (flags : BitVec 32) (m n : Byte) (mask name : List Byte) :
    compLoop flags (m :: mask) (n :: name) =
      if m ≠ 0 ∨ n ≠ 0 then
        if m = 0 ∧ has flags FNM_PATHPREFIX then some .match
        else
          (matchComp flags (m :: mask) (n :: name)).bind fun rc =>
            if rc ≠ .match then some rc
            else
              (skipCompOs2 (m :: mask)).bind fun mask' =>
                (skipCompOs2 (n :: name)).bind fun name' => compLoop flags mask' name'
      else some .match := by
  rw [compLoop]
  split_ifs
  · rfl
  · congr 1
    funext rc
    split_ifs
    · rfl
    · split
      · rename_i h1 h2
        rw [h1, h2, Option.bind_some, Option.bind_some]
      · rename_i hnone
        cases hm : skipCompOs2 (m :: mask) with
        | none => rfl
        | some mask' =>
          cases hn : skipCompOs2 (n :: name) with
          | none => rfl
          | some name' => exact (hnone mask' name' hm hn).elim
  · rfl

/-- One turn of the loop over `\\` or `//` in a POSIX mask (fnmatch.c:527-533): the mask after
    a separator, the inner none where there is no separator. -/
def skipUnixSep (mask : List Byte) : Option (Option (List Byte)) :=
  mask.head?.bind fun m =>
    if m = ch '/' then some (some mask.tail)
    else if m = ch '\\' then
      mask.tail.head?.map fun m1 => if m1 = ch '/' then some mask.tail.tail else none
    else some none

/-- The matching of what follows the drives, in the style of the flags (fnmatch.c:506-574). -/
def matchStyle (flags : BitVec 32) (mask name : List Byte) : Option Rc :=
  if flags &&& FNM_STYLE_MASK = FNM_OS2 ∨ flags &&& FNM_STYLE_MASK = FNM_DOS then
    (twoSeps isOs2CompSep name).bind fun unc =>
      if unc then
        (twoSeps isOs2CompSep mask).bind fun maskUnc =>
          if maskUnc then compLoop flags (mask.drop 2) (name.drop 2) else some .nomatch
      else compLoop flags mask name
  else if flags &&& FNM_STYLE_MASK = FNM_POSIX then
    (twoSeps isUnixCompSep name).bind fun unc =>
      if unc then
        (skipUnixSep mask).bind fun r =>
          match r with
          | none => some .nomatch
          | some mask =>
            (skipUnixSep mask).bind fun r =>
              match r with
              | none => some .nomatch
              | some mask => matchUnix flags mask (name.drop 2) (name.drop 2)
      else matchUnix flags mask name name
  else compLoop flags mask name

/-- The drives are equal, up to case under `_FNM_IGNORECASE` (fnmatch.c:482-490). -/
def sameDrive (flags : BitVec 32) : Option Byte → Option Byte → Bool
  | none, none => true
  | some m, some n => m = n ∨ (has flags FNM_IGNORECASE ∧ nlsTolower m = nlsTolower n)
  | _, _ => false

/-- `mask += 2` after a drive. -/
def afterDrive (d : Option Byte) (s : List Byte) : List Byte := if d ≠ none then s.drop 2 else s

/-- `_fnmatch_unsigned` (fnmatch.c:466-574) -/
def fnmatchUnsigned (mask name : List Byte) (flags : BitVec 32) : Option Rc :=
  (drive mask).bind fun mDrive =>
    (drive name).bind fun nDrive =>
      if ¬ sameDrive flags mDrive nDrive then some .nomatch
      else
        (hasColon (afterDrive mDrive mask)).bind fun colon =>
          if colon then some .err
          else
            (hasColon (afterDrive nDrive name)).bind fun colon =>
              if colon then some .nomatch
              else matchStyle flags (afterDrive mDrive mask) (afterDrive nDrive name)

/-- `__mwdd32_fnmatch` (fnmatch.c:581-585) -/
def fnmatch (mask name : List Byte) (flags : BitVec 32) : Option Rc :=
  fnmatchUnsigned mask name flags

end Mwdd32.Util
