import Mwdd32.Util.FnmatchSafety

/-!
# Matching without regard to case

`_FNM_IGNORECASE` compares lower case letters where the other flags compare the characters
themselves, so a match under it is a match of the lower case strings without it. Only a
set `[...]` of the POSIX style is compared as it stands.

Main result:

* `fnmatch_ignorecase`: the two runs give the same result, for every style.
-/

namespace Mwdd32.Util

/-- A string in lower case. -/
def lower (s : List Byte) : List Byte := s.map nlsTolower

@[simp] theorem lower_nil : lower [] = [] := rfl

@[simp] theorem lower_cons (c : Byte) (s : List Byte) : lower (c :: s) = nlsTolower c :: lower s :=
  rfl

@[simp] theorem length_lower (s : List Byte) : (lower s).length = s.length := List.length_map _

@[simp] theorem lower_tail (s : List Byte) : (lower s).tail = lower s.tail := by
  cases s <;> rfl

@[simp] theorem lower_drop (k : ℕ) (s : List Byte) : (lower s).drop k = lower (s.drop k) :=
  (List.map_drop ..).symm

@[simp] theorem head?_lower (s : List Byte) : (lower s).head? = s.head?.map nlsTolower := by
  cases s <;> rfl

/-- The lower case of a null-terminated string. -/
def CStr.lower (s : CStr) : CStr where
  bytes := Util.lower s.bytes
  noNull := by
    intro c hc
    obtain ⟨d, hd, rfl⟩ := List.mem_map.mp hc
    exact fun h => s.noNull d hd ((nlsTolower_eq_iff (by decide)).mp h)

theorem CStr.lower_buf (s : CStr) : s.lower.buf = Util.lower s.buf := by
  rw [CStr.buf, CStr.buf, Util.lower, List.map_append]
  rfl

/-! ## Characters -/

section Characters

variable (c d : Byte)

@[simp] theorem nlsTolower_eq_zero : nlsTolower c = 0 ↔ c = 0 := nlsTolower_eq_iff (by decide)

@[simp] theorem nlsTolower_eq_question : nlsTolower c = ch '?' ↔ c = ch '?' :=
  nlsTolower_eq_iff (by decide)

@[simp] theorem nlsTolower_eq_star : nlsTolower c = ch '*' ↔ c = ch '*' :=
  nlsTolower_eq_iff (by decide)

@[simp] theorem nlsTolower_eq_dot : nlsTolower c = ch '.' ↔ c = ch '.' :=
  nlsTolower_eq_iff (by decide)

@[simp] theorem nlsTolower_eq_slash : nlsTolower c = ch '/' ↔ c = ch '/' :=
  nlsTolower_eq_iff (by decide)

@[simp] theorem nlsTolower_eq_backslash : nlsTolower c = ch '\\' ↔ c = ch '\\' :=
  nlsTolower_eq_iff (by decide)

@[simp] theorem nlsTolower_eq_bracket : nlsTolower c = ch '[' ↔ c = ch '[' :=
  nlsTolower_eq_iff (by decide)

@[simp] theorem nlsTolower_eq_colon : nlsTolower c = ch ':' ↔ c = ch ':' :=
  nlsTolower_eq_iff (by decide)

@[simp] theorem isOs2CompSep_nlsTolower : isOs2CompSep (nlsTolower c) = isOs2CompSep c := by
  simp only [isOs2CompSep, nlsTolower_eq_slash, nlsTolower_eq_backslash]

@[simp] theorem isOs2CompEnd_nlsTolower : isOs2CompEnd (nlsTolower c) = isOs2CompEnd c := by
  simp only [isOs2CompEnd, nlsTolower_eq_zero, isOs2CompSep_nlsTolower]

@[simp] theorem isUnixCompSep_nlsTolower : isUnixCompSep (nlsTolower c) = isUnixCompSep c := by
  simp only [isUnixCompSep, nlsTolower_eq_slash]

@[simp] theorem isalpha_nlsTolower : isalpha (nlsTolower c) = isalpha c := by
  revert c
  decide

/-- An escaped wildcard is compared as it stands, and is no letter. -/
theorem ite_escaped {α : Type*} (a b e : α) :
    (if c = ch '*' ∨ c = ch '?' then if ¬ nlsTolower c = nlsTolower d then a else b else e) =
      if c = ch '*' ∨ c = ch '?' then if ¬ c = d then a else b else e := by
  by_cases hc : c = ch '*' ∨ c = ch '?'
  · have heq : nlsTolower c = nlsTolower d ↔ c = d := by
      rcases hc with rfl | rfl
      · exact eq_comm.trans ((nlsTolower_eq_star d).trans eq_comm)
      · exact eq_comm.trans ((nlsTolower_eq_question d).trans eq_comm)
    simp only [if_pos hc, heq]
  · rw [if_neg hc, if_neg hc]

end Characters

/-! ## Flags -/

section Flags

variable {flags : BitVec 32}

/-- `_FNM_IGNORECASE` is a flag of its own. -/
theorem has_ignorecase {flag : BitVec 32} (h : FNM_IGNORECASE &&& flag = 0#32) :
    has (flags ||| FNM_IGNORECASE) flag = has flags flag := by
  rw [has, has, BitVec.and_or_distrib_right, h, BitVec.or_zero]

theorem has_ignorecase_self : has (flags ||| FNM_IGNORECASE) FNM_IGNORECASE = true := by
  have h : (flags ||| FNM_IGNORECASE) &&& FNM_IGNORECASE = FNM_IGNORECASE := by
    ext i hi
    simp +contextual
  rw [has, h]
  decide

theorem style_ignorecase :
    (flags ||| FNM_IGNORECASE) &&& FNM_STYLE_MASK = flags &&& FNM_STYLE_MASK := by
  have h : FNM_IGNORECASE &&& FNM_STYLE_MASK = 0#32 := by decide
  rw [BitVec.and_or_distrib_right, h, BitVec.or_zero]

@[simp] theorem has_pathprefix :
    has (flags ||| FNM_IGNORECASE) FNM_PATHPREFIX = has flags FNM_PATHPREFIX :=
  has_ignorecase (by decide)

@[simp] theorem has_pathname :
    has (flags ||| FNM_IGNORECASE) FNM_PATHNAME = has flags FNM_PATHNAME :=
  has_ignorecase (by decide)

@[simp] theorem has_noescape :
    has (flags ||| FNM_IGNORECASE) FNM_NOESCAPE = has flags FNM_NOESCAPE :=
  has_ignorecase (by decide)

theorem sepStops_ignorecase (n : Byte) :
    sepStops (flags ||| FNM_IGNORECASE) n ↔ sepStops flags n := by
  rw [sepStops, sepStops, has_pathname]

theorem sepStops_nlsTolower (n : Byte) : sepStops flags (nlsTolower n) ↔ sepStops flags n := by
  rw [sepStops, sepStops, isUnixCompSep_nlsTolower]

theorem endsAfterSep_ignorecase (mask : List Byte) :
    endsAfterSep (flags ||| FNM_IGNORECASE) mask = endsAfterSep flags (lower mask) := by
  simp only [endsAfterSep, has_noescape, head?_lower, lower_tail, Option.bind_map, Option.map_map,
    Function.comp_def, nlsTolower_eq_zero, nlsTolower_eq_backslash]

theorem leadingDot_ignorecase (name comp : List Byte) :
    leadingDot (flags ||| FNM_IGNORECASE) name comp ↔
      leadingDot flags (lower name) (lower comp) := by
  have hpeek : peek (lower name) = ch '.' ↔ peek name = ch '.' := by
    cases name with
    | nil => rfl
    | cons c name => exact nlsTolower_eq_dot c
  have hperiod : has (flags ||| FNM_IGNORECASE) FNM_PERIOD = has flags FNM_PERIOD :=
    has_ignorecase (by decide)
  rw [leadingDot, leadingDot, hpeek, hperiod, length_lower, length_lower]

/-- What `_FNM_IGNORECASE` compares is what the other flags compare in lower case. -/
theorem fold_ignorecase (hflags : has flags FNM_IGNORECASE = false) (c : Byte) :
    fold (flags ||| FNM_IGNORECASE) c = fold flags (nlsTolower c) := by
  rw [fold, fold, if_pos has_ignorecase_self, if_neg (by simp [hflags])]

end Flags

/-! ## Scans -/

theorem scanDot_lower (name : List Byte) : scanDot (lower name) = scanDot name := by
  induction name with
  | nil => rfl
  | cons c name ih =>
    rw [lower_cons, scanDot, scanDot, ih]
    simp only [isOs2CompEnd_nlsTolower, ne_eq, nlsTolower_eq_dot]

theorem skipCompOs2_lower (s : List Byte) : skipCompOs2 (lower s) = (skipCompOs2 s).map lower := by
  induction s with
  | nil => rfl
  | cons c s ih =>
    rw [lower_cons, skipCompOs2, skipCompOs2, ih, isOs2CompEnd_nlsTolower]
    simp only [ne_eq, nlsTolower_eq_zero, apply_ite (Option.map lower), Option.map_some, lower_cons]

theorem hasColon_lower (s : List Byte) : hasColon (lower s) = hasColon s := by
  induction s with
  | nil => rfl
  | cons c s ih =>
    rw [lower_cons, hasColon, hasColon, ih]
    simp only [nlsTolower_eq_colon, nlsTolower_eq_zero]

theorem twoSeps_lower {sep : Byte → Bool} (hsep : ∀ c, sep (nlsTolower c) = sep c) (s : List Byte) :
    twoSeps sep (lower s) = twoSeps sep s := by
  simp only [twoSeps, head?_lower, lower_tail, Option.bind_map, Option.map_map, Function.comp_def,
    hsep]

theorem skipUnixSep_lower (mask : List Byte) :
    skipUnixSep (lower mask) = (skipUnixSep mask).map (Option.map lower) := by
  simp only [skipUnixSep, head?_lower, lower_tail, Option.bind_map, Option.map_map, Option.map_bind,
    Function.comp_def, nlsTolower_eq_slash, nlsTolower_eq_backslash, apply_ite (Option.map lower),
    apply_ite (Option.map (Option.map lower)), Option.map_some, Option.map_none]

theorem skipUnixSep_suffix {mask rest : List Byte} (h : skipUnixSep mask = some (some rest)) :
    rest <:+ mask := by
  unfold skipUnixSep at h
  obtain ⟨m, -, h⟩ := Option.bind_eq_some_iff.mp h
  split_ifs at h
  · obtain rfl := Option.some.inj (Option.some.inj h)
    exact List.tail_suffix mask
  · obtain ⟨m1, -, h⟩ := Option.map_eq_some_iff.mp h
    split_ifs at h
    obtain rfl := Option.some.inj h
    exact (List.tail_suffix _).trans (List.tail_suffix mask)
  · cases Option.some.inj h

theorem drive_lower (s : List Byte) : drive (lower s) = (drive s).map (Option.map nlsTolower) := by
  simp only [drive, head?_lower, lower_tail, Option.bind_map, Option.map_map, Option.map_bind,
    Function.comp_def, nlsTolower_eq_colon, isalpha_nlsTolower, apply_ite (Option.map nlsTolower),
    apply_ite (Option.map (Option.map nlsTolower)), Option.map_some, Option.map_none]

theorem afterDrive_lower (d : Option Byte) (s : List Byte) :
    afterDrive (d.map nlsTolower) (lower s) = lower (afterDrive d s) := by
  cases d with
  | none => rfl
  | some c => exact lower_drop 2 s

/-! ## The matchers -/

/-- Two loops over a name that agree up to case. -/
theorem starLoop_lower {rec rec' : List Byte → Option Rc} {stop stop' : Byte → Bool}
    (hrec : ∀ name, rec name = rec' (lower name)) (hstop : ∀ n, stop n = stop' (nlsTolower n))
    (name : List Byte) : starLoop rec stop name = starLoop rec' stop' (lower name) := by
  induction name with
  | nil =>
    rw [lower_nil, starLoop, starLoop, hrec]
    rfl
  | cons n name ih => rw [lower_cons, starLoop, starLoop, hrec, hstop, ih, lower_cons]

section Matchers

variable {flags : BitVec 32} (hflags : has flags FNM_IGNORECASE = false)

include hflags

theorem matchCompOs2_ignorecase (hasDot : Bool) (mask name : List Byte) :
    matchCompOs2 (flags ||| FNM_IGNORECASE) hasDot mask name =
      matchCompOs2 flags hasDot (lower mask) (lower name) := by
  induction mask generalizing name with
  | nil => rfl
  | cons c mask ih =>
    have hloop (name : List Byte) :
        starLoop (fun name => matchCompOs2 flags hasDot (lower mask) (lower name))
          (starStop (flags ||| FNM_IGNORECASE)) name =
        starLoop (fun name => matchCompOs2 flags hasDot (lower mask) name) (starStop flags)
          (lower name) := by
      refine starLoop_lower (fun _ => rfl) (fun n => ?_) name
      simp only [starStop, style_ignorecase, isOs2CompEnd_nlsTolower, nlsTolower_eq_dot]
    rw [lower_cons, matchCompOs2, matchCompOs2]
    simp only [nlsTolower_eq_zero, nlsTolower_eq_question, nlsTolower_eq_star, nlsTolower_eq_dot,
      isOs2CompSep_nlsTolower, isOs2CompEnd_nlsTolower, has_pathprefix, head?_lower, lower_tail,
      fold_ignorecase hflags, Option.map_map, Option.bind_map, Function.comp_def, ih, hloop,
      apply_ite lower, ne_eq]

theorem matchUnix_ignorecase {mask : List Byte} (hmask : ch '[' ∉ mask) (name comp : List Byte) :
    matchUnix (flags ||| FNM_IGNORECASE) mask name comp =
      matchUnix flags (lower mask) (lower name) (lower comp) := by
  induction hlen : mask.length using Nat.strong_induction_on generalizing mask name comp with
  | _ k ih =>
    subst hlen
    cases mask with
    | nil => rw [lower_nil, matchUnix, matchUnix]
    | cons c mask =>
      obtain ⟨hbracket, hrest⟩ := not_or.mp (mt List.mem_cons.mpr hmask)
      have ih1 (name comp : List Byte) := ih mask.length (Nat.lt_succ_self _) hrest name comp rfl
      have ih2 (name comp : List Byte) :=
        ih mask.tail.length (by grind) (mt List.mem_of_mem_tail hrest) name comp rfl
      have hloop (name : List Byte) :
          starLoop (fun name => matchUnix flags (lower mask) (lower name) (lower comp))
            (fun n => n = 0 ∨ sepStops flags n) name =
          starLoop (fun name => matchUnix flags (lower mask) name (lower comp))
            (fun n => n = 0 ∨ sepStops flags n) (lower name) := by
        apply starLoop_lower
        · exact fun _ => rfl
        · intro n
          simp only [sepStops_nlsTolower, nlsTolower_eq_zero]
      rw [lower_cons, matchUnix, matchUnix]
      simp only [nlsTolower_eq_zero, nlsTolower_eq_question, nlsTolower_eq_star,
        nlsTolower_eq_slash, nlsTolower_eq_backslash, nlsTolower_eq_bracket,
        isUnixCompSep_nlsTolower, has_pathprefix, has_pathname, has_noescape, head?_lower,
          lower_tail,
        fold_ignorecase hflags, Option.bind_map, Function.comp_def, ih1, ih2, hloop,
        apply_ite lower, ne_eq, Ne.symm hbracket, if_false, sepStops_ignorecase,
          leadingDot_ignorecase,
        sepStops_nlsTolower, endsAfterSep_ignorecase, ite_escaped]

theorem matchComp_ignorecase (mask name : List Byte) :
    matchComp (flags ||| FNM_IGNORECASE) mask name = matchComp flags (lower mask) (lower name) := by
  rw [matchComp, matchComp, style_ignorecase, scanDot_lower]
  simp only [matchCompOs2_ignorecase hflags]

theorem compLoop_ignorecase (mask name : List Byte) :
    compLoop (flags ||| FNM_IGNORECASE) mask name = compLoop flags (lower mask) (lower name) := by
  induction hlen : mask.length + name.length using Nat.strong_induction_on
    generalizing mask name with
  | _ k ih =>
    subst hlen
    cases mask with
    | nil => rw [lower_nil, compLoop, compLoop]
    | cons m mask =>
      cases name with
      | nil => rw [lower_nil, compLoop, compLoop] <;> simp
      | cons n name =>
        rw [lower_cons, lower_cons, compLoop_cons, compLoop_cons, ← lower_cons, ← lower_cons,
          matchComp_ignorecase hflags, has_pathprefix, skipCompOs2_lower, skipCompOs2_lower]
        simp only [ne_eq, nlsTolower_eq_zero]
        by_cases hne : ¬ m = 0 ∨ ¬ n = 0
        · have hnext :
              ((skipCompOs2 (m :: mask)).bind fun mask' =>
                (skipCompOs2 (n :: name)).bind fun name' =>
                  compLoop (flags ||| FNM_IGNORECASE) mask' name') =
              ((skipCompOs2 (m :: mask)).map lower).bind fun mask' =>
                ((skipCompOs2 (n :: name)).map lower).bind fun name' =>
                  compLoop flags mask' name' := by
            rw [Option.bind_map]
            refine Option.bind_congr fun mask' hm => ?_
            rw [Function.comp_apply, Option.bind_map]
            refine Option.bind_congr fun name' hn => ih _ ?_ mask' name' rfl
            rcases hne with h | h
            · exact Nat.add_lt_add_of_lt_of_le (length_skipCompOs2_lt h hm)
                (length_skipCompOs2_le hn)
            · exact Nat.add_lt_add_of_le_of_lt (length_skipCompOs2_le hm)
                (length_skipCompOs2_lt h hn)
          simp only [if_pos hne, hnext]
        · rw [if_neg hne, if_neg hne]

theorem sameDrive_ignorecase (m n : Option Byte) :
    sameDrive (flags ||| FNM_IGNORECASE) m n =
      sameDrive flags (m.map nlsTolower) (n.map nlsTolower) := by
  cases m with
  | none => cases n <;> rfl
  | some m =>
    cases n with
    | none => rfl
    | some n =>
      have hmono : m = n → nlsTolower m = nlsTolower n := congrArg nlsTolower
      simp only [Option.map_some, sameDrive, has_ignorecase_self, hflags, true_and,
        or_iff_right_of_imp hmono, Bool.false_eq_true, false_and, or_false]

theorem matchStyle_ignorecase {mask : List Byte}
    (hmask : flags &&& FNM_STYLE_MASK = FNM_POSIX → ch '[' ∉ mask) (name : List Byte) :
    matchStyle (flags ||| FNM_IGNORECASE) mask name =
      matchStyle flags (lower mask) (lower name) := by
  unfold matchStyle
  simp only [style_ignorecase, twoSeps_lower isOs2CompSep_nlsTolower,
    twoSeps_lower isUnixCompSep_nlsTolower, compLoop_ignorecase hflags, lower_drop,
      skipUnixSep_lower]
  by_cases hos2 : flags &&& FNM_STYLE_MASK = FNM_OS2 ∨ flags &&& FNM_STYLE_MASK = FNM_DOS
  · rw [if_pos hos2, if_pos hos2]
  · rw [if_neg hos2, if_neg hos2]
    by_cases hposix : flags &&& FNM_STYLE_MASK = FNM_POSIX
    · rw [if_pos hposix, if_pos hposix, matchUnix_ignorecase hflags (hmask hposix)]
      refine Option.bind_congr fun unc _ => ?_
      cases unc with
      | false => rfl
      | true =>
        rw [if_pos rfl, if_pos rfl, Option.bind_map]
        refine Option.bind_congr fun r hr => ?_
        cases r with
        | none => rfl
        | some rest =>
          have hrest : ch '[' ∉ rest := fun h => hmask hposix ((skipUnixSep_suffix hr).subset h)
          rw [Function.comp_apply, Option.map_some]
          dsimp only
          rw [skipUnixSep_lower, Option.bind_map]
          refine Option.bind_congr fun r' hr' => ?_
          cases r' with
          | none => rfl
          | some rest' =>
            exact matchUnix_ignorecase hflags
              (fun h => hrest ((skipUnixSep_suffix hr').subset h)) _ _
    · rw [if_neg hposix, if_neg hposix]

/-- **Matching under `_FNM_IGNORECASE` is matching of the lower case strings**, the drive letters
    and the error included. -/
theorem fnmatch_ignorecase (mask name : CStr)
    (hmask : flags &&& FNM_STYLE_MASK = FNM_POSIX → ch '[' ∉ mask.bytes) :
    fnmatch mask.buf name.buf (flags ||| FNM_IGNORECASE) =
      fnmatch mask.lower.buf name.lower.buf flags := by
  have hbuf (hposix : flags &&& FNM_STYLE_MASK = FNM_POSIX) : ch '[' ∉ mask.buf := by
    intro h
    rcases List.mem_append.mp h with h | h
    · exact hmask hposix h
    · exact absurd (List.mem_singleton.mp h) (by decide)
  have hafter (d : Option Byte) (hposix : flags &&& FNM_STYLE_MASK = FNM_POSIX) :
      ch '[' ∉ afterDrive d mask.buf := by
    unfold afterDrive
    split_ifs
    · exact mt List.mem_of_mem_drop (hbuf hposix)
    · exact hbuf hposix
  rw [CStr.lower_buf, CStr.lower_buf, fnmatch, fnmatch, fnmatchUnsigned, fnmatchUnsigned,
    drive_lower, drive_lower, Option.bind_map]
  refine Option.bind_congr fun mDrive _ => ?_
  rw [Function.comp_apply, Option.bind_map]
  refine Option.bind_congr fun nDrive _ => ?_
  rw [Function.comp_apply, sameDrive_ignorecase hflags,
    matchStyle_ignorecase hflags (hafter mDrive), afterDrive_lower, afterDrive_lower,
    hasColon_lower, hasColon_lower]

end Matchers

/-- The mask `A:/?X` and the name `a:/Bx`. -/
theorem fnmatch_ignorecase_sample :
    ∃ mask name : CStr, mask.bytes = [ch 'A', ch ':', ch '/', ch '?', ch 'X'] ∧
      name.bytes = [ch 'a', ch ':', ch '/', ch 'B', ch 'x'] ∧
      fnmatch mask.buf name.buf (FNM_POSIX ||| FNM_IGNORECASE) =
        fnmatch mask.lower.buf name.lower.buf FNM_POSIX :=
  ⟨⟨[ch 'A', ch ':', ch '/', ch '?', ch 'X'], by decide⟩,
    ⟨[ch 'a', ch ':', ch '/', ch 'B', ch 'x'], by decide⟩, rfl, rfl,
    fnmatch_ignorecase (by decide) _ _ (fun _ => by decide)⟩

end Mwdd32.Util
