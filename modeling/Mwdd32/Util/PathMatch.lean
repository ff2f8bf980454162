import Mwdd32.Util.Fnmatch

/-!
# Paths in OS/2 and DOS style

What a wildcard matches in the OS/2 and DOS styles of `__mwdd32_fnmatch`, stated without the
matcher: the paths are split at their separators, and each component of the mask is related
to the component of the name at its position.

Main results:

* `decides_matchCompOs2`: the recursive matcher decides the relation on two components.
* `decides_compLoop`: the loop over the components decides it on two paths.
* `fnmatch_match_iff`: the whole function, with drives and UNC prefixes.
-/

namespace Mwdd32.Util

/-! ## Specification -/

/-- A component of a mask against what is left of the component `comp` of a name. -/
inductive CompMatch (flags : BitVec 32) (comp : List Byte) : List Byte → List Byte → Prop
  | nil : CompMatch flags comp [] []
  /-- `?` consumes one character other than a dot, -/
  | question {n : Byte} {mask name : List Byte} (hn : n ≠ ch '.')
      (h : CompMatch flags comp mask name) : CompMatch flags comp (ch '?' :: mask) (n :: name)
  /-- or nothing, at a dot or at the end. -/
  | questionNone {mask name : List Byte} (hname : name = [] ∨ name.head? = some (ch '.'))
      (h : CompMatch flags comp mask name) : CompMatch flags comp (ch '?' :: mask) name
  /-- `*` consumes any characters, in DOS style any characters but dots. -/
  | star {s mask name : List Byte} (hs : flags &&& FNM_STYLE_MASK = FNM_DOS → ch '.' ∉ s)
      (h : CompMatch flags comp mask name) : CompMatch flags comp (ch '*' :: mask) (s ++ name)
  /-- `.` consumes a dot, -/
  | dot {mask name : List Byte} (h : CompMatch flags comp mask name) :
      CompMatch flags comp (ch '.' :: mask) (ch '.' :: name)
  /-- or nothing, at the end of a component without a dot. -/
  | dotNone {mask : List Byte} (hcomp : ch '.' ∉ comp) (h : CompMatch flags comp mask []) :
      CompMatch flags comp (ch '.' :: mask) []
  /-- Other characters consume an equal character. -/
  | char {c n : Byte} {mask name : List Byte} (hq : c ≠ ch '?') (hstar : c ≠ ch '*')
      (hdot : c ≠ ch '.') (hfold : fold flags c = fold flags n)
      (h : CompMatch flags comp mask name) :
      CompMatch flags comp (c :: mask) (n :: name)

/-- The components of a path. -/
def components (path : List Byte) : List (List Byte) := path.splitOnP isOs2CompSep

/-- The same number of components, each related to the one at its position. -/
def PathMatch (flags : BitVec 32) (mask name : List Byte) : Prop :=
  List.Forall₂ (fun m n => CompMatch flags n m n) (components mask) (components name)

/-- The drive letter of a path, if it has one, and what follows it. -/
def splitDrive : List Byte → Option Byte × List Byte
  | c :: d :: s => if isalpha c ∧ d = ch ':' then (some c, s) else (none, c :: d :: s)
  | s => (none, s)

/-- The drives are both absent, or both present and equal. -/
def SameDrive (flags : BitVec 32) : Option Byte → Option Byte → Prop
  | none, none => True
  | some m, some n => fold flags m = fold flags n
  | _, _ => False

/-- A path that starts with two separators. -/
def isUnc : List Byte → Bool
  | c :: d :: _ => isOs2CompSep c ∧ isOs2CompSep d
  | _ => false

/-! ## One component -/

section CompMatch

variable {flags : BitVec 32} {comp mask name : List Byte}

theorem compMatch_nil_iff : CompMatch flags comp [] name ↔ name = [] := by
  constructor
  · intro h
    cases h with
    | nil => rfl
  · rintro rfl
    exact .nil

theorem compMatch_question_cons_iff {n : Byte} (hn : n ≠ ch '.') :
    CompMatch flags comp (ch '?' :: mask) (n :: name) ↔ CompMatch flags comp mask name := by
  constructor
  · intro h
    cases h with
    | question _ h => exact h
    | questionNone hname _ =>
      rcases hname with hname | hname
      · cases hname
      · exact absurd (Option.some.inj hname) hn
    | char hq => exact absurd rfl hq
  · exact .question hn

theorem compMatch_question_none_iff (hname : name = [] ∨ name.head? = some (ch '.')) :
    CompMatch flags comp (ch '?' :: mask) name ↔ CompMatch flags comp mask name := by
  constructor
  · intro h
    cases h with
    | question hn _ =>
      rcases hname with hname | hname
      · cases hname
      · exact absurd (Option.some.inj hname) hn
    | questionNone _ h => exact h
    | char hq => exact absurd rfl hq
  · exact .questionNone hname

theorem compMatch_star_iff :
    CompMatch flags comp (ch '*' :: mask) name ↔
      ∃ s t, name = s ++ t ∧ (flags &&& FNM_STYLE_MASK = FNM_DOS → ch '.' ∉ s) ∧
        CompMatch flags comp mask t := by
  constructor
  · intro h
    cases h with
    | star hs h => exact ⟨_, _, rfl, hs, h⟩
    | char _ hstar => exact absurd rfl hstar
  · rintro ⟨s, t, rfl, hs, h⟩
    exact .star hs h

theorem compMatch_star_star_iff :
    CompMatch flags comp (ch '*' :: ch '*' :: mask) name ↔
      CompMatch flags comp (ch '*' :: mask) name := by
  rw [compMatch_star_iff]
  constructor
  · rintro ⟨s, t, rfl, hs, h⟩
    obtain ⟨s', t', rfl, hs', h⟩ := compMatch_star_iff.mp h
    rw [← List.append_assoc]
    refine .star (fun hdos hmem => ?_) h
    rcases List.mem_append.mp hmem with hmem | hmem
    · exact hs hdos hmem
    · exact hs' hdos hmem
  · exact fun h => ⟨[], name, rfl, fun _ => List.not_mem_nil, h⟩

theorem compMatch_dot_iff :
    CompMatch flags comp (ch '.' :: mask) (ch '.' :: name) ↔ CompMatch flags comp mask name := by
  constructor
  · intro h
    cases h with
    | dot h => exact h
    | char _ _ hdot => exact absurd rfl hdot
  · exact .dot

theorem compMatch_dot_nil_iff :
    CompMatch flags comp (ch '.' :: mask) [] ↔ ch '.' ∉ comp ∧ CompMatch flags comp mask [] := by
  constructor
  · intro h
    cases h with
    | dotNone hcomp h => exact ⟨hcomp, h⟩
  · exact fun h => .dotNone h.1 h.2

theorem not_compMatch_dot {n : Byte} (hn : n ≠ ch '.') :
    ¬ CompMatch flags comp (ch '.' :: mask) (n :: name) := by
  intro h
  cases h with
  | dot => exact hn rfl
  | char _ _ hdot => exact hdot rfl

theorem compMatch_char_iff {c n : Byte} (hq : c ≠ ch '?') (hstar : c ≠ ch '*') (hdot : c ≠ ch '.') :
    CompMatch flags comp (c :: mask) (n :: name) ↔
      fold flags c = fold flags n ∧ CompMatch flags comp mask name := by
  constructor
  · intro h
    generalize hcons : n :: name = rest at h
    cases h with
    | question => exact absurd rfl hq
    | questionNone => exact absurd rfl hq
    | star => exact absurd rfl hstar
    | dot => exact absurd rfl hdot
    | dotNone => exact absurd rfl hdot
    | char _ _ _ hfold h =>
      obtain ⟨rfl, rfl⟩ := List.cons.inj hcons
      exact ⟨hfold, h⟩
  · exact fun h => .char hq hstar hdot h.1 h.2

theorem not_compMatch_char_nil {c : Byte} (hq : c ≠ ch '?') (hstar : c ≠ ch '*')
    (hdot : c ≠ ch '.') :
    ¬ CompMatch flags comp (c :: mask) [] := by
  intro h
  generalize hnil : ([] : List Byte) = rest at h
  cases h with
  | question => exact hq rfl
  | questionNone => exact hq rfl
  | star => exact hstar rfl
  | dot => exact hdot rfl
  | dotNone => exact hdot rfl
  | char => cases hnil

end CompMatch

/-! ## The matcher of a component -/

/-- A result without an error: a match if and only if `P`. -/
def Decides (r : Option Rc) (P : Prop) : Prop :=
  (r = some .match ∧ P) ∨ (r = some .nomatch ∧ ¬ P)

namespace Decides

variable {r : Option Rc} {P Q : Prop}

theorem of_true (h : P) : Decides (some .match) P := .inl ⟨rfl, h⟩

theorem of_false (h : ¬ P) : Decides (some .nomatch) P := .inr ⟨rfl, h⟩

theorem congr (h : Decides r P) (hPQ : Q ↔ P) : Decides r Q := by
  rw [Decides, hPQ]
  exact h

theorem ite {c : Prop} [Decidable c] (h : c ↔ P) :
    Decides (some (if c then .match else .nomatch)) P := by
  split_ifs with hc
  · exact of_true (h.mp hc)
  · exact of_false (mt h.mpr hc)

theorem iff (h : Decides r P) : r = some .match ↔ P := by
  rcases h with ⟨rfl, h⟩ | ⟨rfl, h⟩
  · exact iff_of_true rfl h
  · exact iff_of_false (by decide) h

end Decides

/-- The loop of a `*` decides whether the mask after it decides one of the suffixes of the name
    up to the first character that stops the loop. -/
theorem decides_starLoop {rec : List Byte → Option Rc} {stop : Byte → Bool} {d : Byte}
    {rest : List Byte} {P : List Byte → Prop} (hd : stop d = true) {name : List Byte}
    (hrec : ∀ t, t <:+ name → Decides (rec (t ++ d :: rest)) (P t)) :
    Decides (starLoop rec stop (name ++ d :: rest))
      (∃ s t, name = s ++ t ∧ (∀ c ∈ s, stop c = false) ∧ P t) := by
  induction name with
  | nil =>
    have hnil : (∃ s t, ([] : List Byte) = s ++ t ∧ (∀ c ∈ s, stop c = false) ∧ P t) ↔ P [] := by
      constructor
      · rintro ⟨s, t, hst, -, h⟩
        obtain ⟨rfl, rfl⟩ := List.append_eq_nil_iff.mp hst.symm
        exact h
      · exact fun h => ⟨[], [], rfl, by simp, h⟩
    rw [List.nil_append, starLoop]
    rcases hrec [] (List.suffix_refl _) with ⟨h, hP⟩ | ⟨h, hP⟩
    · rw [List.nil_append] at h
      rw [h]
      exact .of_true (hnil.mpr hP)
    · rw [List.nil_append] at h
      rw [h, Option.bind_some, if_neg (by simp), if_pos hd]
      exact .of_false (mt hnil.mp hP)
  | cons n name ih =>
    have hcons : (∃ s t, n :: name = s ++ t ∧ (∀ c ∈ s, stop c = false) ∧ P t) ↔
        P (n :: name) ∨ (stop n = false ∧
          ∃ s t, name = s ++ t ∧ (∀ c ∈ s, stop c = false) ∧ P t) := by
      constructor
      · intro ⟨s, t, hst, hs, h⟩
        cases s with
        | nil => exact .inl (hst ▸ h)
        | cons c s =>
          obtain ⟨rfl, rfl⟩ := List.cons.inj hst
          exact .inr ⟨hs n (by simp), s, t, rfl, fun c hc => hs c (by simp [hc]), h⟩
      · rintro (h | ⟨hn, s, t, rfl, hs, h⟩)
        · exact ⟨[], n :: name, rfl, by simp, h⟩
        · refine ⟨n :: s, t, rfl, ?_, h⟩
          intro c hc
          rcases List.mem_cons.mp hc with rfl | hc
          · exact hn
          · exact hs c hc
    rw [List.cons_append, starLoop]
    rcases hrec (n :: name) (List.suffix_refl _) with ⟨h, hP⟩ | ⟨h, hP⟩
    · rw [List.cons_append] at h
      rw [h]
      exact .of_true (hcons.mpr (.inl hP))
    · rw [List.cons_append] at h
      rw [h, Option.bind_some, if_neg (by simp)]
      split_ifs with hn
      · exact .of_false (by simp [hcons, hP, hn])
      · refine (ih fun t ht => hrec t (ht.trans (List.suffix_cons n name))).congr ?_
        rw [hcons, or_iff_right hP, and_iff_right (Bool.eq_false_iff.mpr hn)]

/-- Neither a separator nor the null. -/
def NoEnd (s : List Byte) : Prop := ∀ c ∈ s, isOs2CompEnd c = false

theorem NoEnd.tail {c : Byte} {s : List Byte} (h : NoEnd (c :: s)) : NoEnd s :=
  fun d hd => h d (List.mem_cons_of_mem c hd)

theorem NoEnd.head {c : Byte} {s : List Byte} (h : NoEnd (c :: s)) : isOs2CompEnd c = false :=
  h c List.mem_cons_self

section Matcher

variable {flags : BitVec 32} {comp mask name rest rest' : List Byte} {c d : Byte}

theorem isalpha_of_end (hd : isOs2CompEnd d = true) : isalpha d = false := by
  simp only [isOs2CompEnd, isOs2CompSep, decide_eq_true_eq] at hd
  rcases hd with rfl | rfl | rfl <;> decide

theorem isOs2CompSep_eq_false_iff (hd : isOs2CompEnd d = true) :
    isOs2CompSep d = false ↔ d = 0 := by
  constructor
  · intro hsep
    by_contra h0
    rw [isOs2CompEnd_eq_false.mpr ⟨h0, hsep⟩] at hd
    cases hd
  · rintro rfl
    rfl

/-- At the end of the mask component the name component has to end alike. -/
theorem decides_matchCompOs2_end (hpre : has flags FNM_PATHPREFIX = false)
    (hc : isOs2CompEnd c = true) (hd : isOs2CompEnd d = true) (hname : NoEnd name) (hasDot : Bool) :
    Decides (matchCompOs2 flags hasDot (c :: rest) (name ++ d :: rest'))
      (name = [] ∧ isOs2CompSep c = isOs2CompSep d) := by
  by_cases hsep : isOs2CompSep c = true
  · cases name with
    | nil =>
      rw [List.nil_append, matchCompOs2_sep _ _ _ _ _ hsep, hsep]
      split_ifs with hd'
      · exact .of_true ⟨rfl, hd'.symm⟩
      · rw [hpre] at *
        contradiction
      · exact .of_false (fun h => hd' h.2.symm)
    | cons n name =>
      have hn := isOs2CompEnd_eq_false.mp hname.head
      rw [List.cons_append, matchCompOs2_sep _ _ _ _ _ hsep, hn.2, if_neg Bool.false_ne_true, hpre,
        if_neg Bool.false_ne_true]
      exact .of_false (by simp)
  · obtain rfl := (isOs2CompSep_eq_false_iff hc).mp (Bool.eq_false_iff.mpr hsep)
    cases name with
    | nil =>
      rw [List.nil_append, matchCompOs2_null, hpre, if_neg (c := _ ∧ _) (by simp)]
      refine .ite ?_
      rw [eq_self, true_and, ← isOs2CompSep_eq_false_iff hd, eq_comm]
      rfl
    | cons n name =>
      have hn := isOs2CompEnd_eq_false.mp hname.head
      rw [List.cons_append, matchCompOs2_null, hpre, if_neg hn.1, if_neg (by simp)]
      exact .of_false (by simp)

/-- The case of a `*`, from what the mask after it decides. -/
theorem decides_star {rec : List Byte → Option Rc} {E : Prop} (hd : isOs2CompEnd d = true)
    (hname : NoEnd name)
    (hrec : ∀ t, NoEnd t → Decides (rec (t ++ d :: rest')) (CompMatch flags comp mask t ∧ E)) :
    Decides (starLoop rec (starStop flags) (name ++ d :: rest'))
      (CompMatch flags comp (ch '*' :: mask) name ∧ E) := by
  have hstop : starStop flags d = true := by simp [starStop, hd]
  refine (decides_starLoop hstop fun t ht => hrec t fun c hc => hname c (ht.subset hc)).congr ?_
  have hs {s t : List Byte} (hst : name = s ++ t) :
      (flags &&& FNM_STYLE_MASK = FNM_DOS → ch '.' ∉ s) ↔ ∀ c ∈ s, starStop flags c = false := by
    have hend (c : Byte) (hc : c ∈ s) : isOs2CompEnd c = false :=
      hname c (hst ▸ List.mem_append_left t hc)
    constructor
    · intro h c hc
      simp only [starStop, hend c hc, Bool.false_eq_true, false_or, decide_eq_false_iff_not,
        not_and]
      rintro rfl hdos
      exact h hdos hc
    · intro h hdos hmem
      have := h _ hmem
      simp [starStop, hdos] at this
  rw [compMatch_star_iff]
  constructor
  · intro ⟨⟨s, t, hst, hdos, h⟩, hE⟩
    exact ⟨s, t, hst, (hs hst).mp hdos, h, hE⟩
  · intro ⟨s, t, hst, hdos, h, hE⟩
    exact ⟨⟨s, t, hst, (hs hst).mpr hdos, h⟩, hE⟩

/-- `match_comp_os2` decides the relation on the components, and what it decides at the end of the
    mask component. -/
theorem decides_matchCompOs2_of_end {E : Prop} (hc : isOs2CompEnd c = true)
    (hd : isOs2CompEnd d = true)
    (hend : ∀ {name : List Byte}, NoEnd name →
      Decides (matchCompOs2 flags (decide (ch '.' ∈ comp)) (c :: rest) (name ++ d :: rest'))
        (name = [] ∧ E))
    (hmask : NoEnd mask) (hname : NoEnd name) :
    Decides (matchCompOs2 flags (decide (ch '.' ∈ comp)) (mask ++ c :: rest) (name ++ d :: rest'))
      (CompMatch flags comp mask name ∧ E) := by
  induction mask generalizing name with
  | nil =>
    rw [compMatch_nil_iff]
    exact hend hname
  | cons m mask ih =>
    replace ih {name : List Byte} (hname : NoEnd name) := ih hmask.tail hname
    rw [List.cons_append]
    rcases os2Char m with _ | hsep | _ | _ | _ | ⟨hchar, hq, hstar, hdot⟩
    · exact absurd hmask.head (by decide)
    · exact absurd hmask.head (by simp [isOs2CompEnd_of_sep hsep])
    · cases name with
      | nil =>
        rw [compMatch_question_none_iff (.inl rfl), List.nil_append, matchCompOs2_question,
          if_neg (by simp [hd])]
        exact ih hname
      | cons n name =>
        rw [List.cons_append, matchCompOs2_question]
        by_cases hn : n = ch '.'
        · rw [compMatch_question_none_iff (.inr (by simp [hn])), if_neg (by simp [hn])]
          exact ih hname
        · rw [compMatch_question_cons_iff hn, if_pos ⟨hn, by simp [hname.head]⟩]
          exact ih hname.tail
    · cases mask with
      | nil =>
        rw [List.nil_append, matchCompOs2_star _ _ _ _ (ne_of_isOs2CompEnd hc (by decide))]
        exact decides_star hd hname (fun t ht => ih ht)
      | cons m mask =>
        rw [List.cons_append]
        by_cases hm : m = ch '*'
        · rw [hm, matchCompOs2_star_star, compMatch_star_star_iff]
          rw [hm] at ih
          exact ih hname
        · rw [matchCompOs2_star _ _ _ _ hm]
          exact decides_star hd hname (fun t ht => ih ht)
    · cases name with
      | nil =>
        have hdot : d ≠ ch '.' := ne_of_isOs2CompEnd hd (by decide)
        rw [compMatch_dot_nil_iff, List.nil_append, matchCompOs2_dot, if_neg hdot, hd]
        by_cases hcomp : ch '.' ∈ comp
        · rw [if_pos (.inl (decide_eq_true hcomp))]
          exact .of_false (fun h => h.1.1 hcomp)
        · rw [if_neg (by simp [hcomp]), and_iff_right hcomp]
          exact ih hname
      | cons n name =>
        rw [List.cons_append, matchCompOs2_dot]
        by_cases hn : n = ch '.'
        · subst hn
          rw [compMatch_dot_iff, if_pos rfl]
          exact ih hname.tail
        · rw [if_neg hn, if_pos (.inr (by simp [hname.head]))]
          exact .of_false (fun h => not_compMatch_dot hn h.1)
    · cases name with
      | nil =>
        have hfold : fold flags m ≠ fold flags d := by
          intro h
          have hd' : fold flags d = d := (fold_eq_iff (isalpha_of_end hd)).mpr rfl
          rw [hd', fold_eq_iff (isalpha_of_end hd)] at h
          rw [h, hd] at hchar
          cases hchar
        rw [List.nil_append, matchCompOs2_char _ _ _ _ _ hchar hq hstar hdot, if_pos hfold]
        exact .of_false (fun h => not_compMatch_char_nil hq hstar hdot h.1)
      | cons n name =>
        rw [List.cons_append, matchCompOs2_char _ _ _ _ _ hchar hq hstar hdot,
          compMatch_char_iff hq hstar hdot]
        split_ifs with hfold
        · exact .of_false (fun h => hfold h.1.1)
        · refine (ih hname.tail).congr ?_
          rw [and_iff_right (not_not.mp hfold)]

/-- `match_comp_os2` decides the relation on the components, and whether both or neither are
    followed by a separator. -/
theorem decides_matchCompOs2 (hpre : has flags FNM_PATHPREFIX = false) (hc : isOs2CompEnd c = true)
    (hd : isOs2CompEnd d = true) (hmask : NoEnd mask) (hname : NoEnd name) :
    Decides (matchCompOs2 flags (decide (ch '.' ∈ comp)) (mask ++ c :: rest) (name ++ d :: rest'))
      (CompMatch flags comp mask name ∧ isOs2CompSep c = isOs2CompSep d) :=
  decides_matchCompOs2_of_end hc hd (fun hname => decides_matchCompOs2_end hpre hc hd hname _)
    hmask hname

/-- The scan for a dot reads the component of the name. -/
theorem scanDot_append (hd : isOs2CompEnd d = true) (hname : NoEnd name) :
    scanDot (name ++ d :: rest') = some (decide (ch '.' ∈ name)) := by
  induction name with
  | nil =>
    have hdot : d ≠ ch '.' := ne_of_isOs2CompEnd hd (by decide)
    simp [scanDot, hd, hdot]
  | cons n name ih =>
    rw [List.cons_append, scanDot]
    by_cases hn : n = ch '.'
    · simp [hn]
    · rw [if_pos ⟨by simp [hname.head], hn⟩, ih hname.tail]
      simp [Ne.symm hn]

/-- The styles with components. -/
def CompStyle (flags : BitVec 32) : Prop :=
  flags &&& FNM_STYLE_MASK = FNM_OS2 ∨ flags &&& FNM_STYLE_MASK = FNM_DOS

theorem decides_matchComp (hstyle : CompStyle flags) (hpre : has flags FNM_PATHPREFIX = false)
    (hc : isOs2CompEnd c = true) (hd : isOs2CompEnd d = true) (hmask : NoEnd mask)
    (hname : NoEnd name) :
    Decides (matchComp flags (mask ++ c :: rest) (name ++ d :: rest'))
      (CompMatch flags name mask name ∧ isOs2CompSep c = isOs2CompSep d) := by
  rw [CompStyle] at hstyle
  rw [matchComp, if_pos hstyle, scanDot_append hd hname, Option.bind_some]
  exact decides_matchCompOs2 hpre hc hd hmask hname

theorem skipCompOs2_append (hmask : NoEnd mask) (hc : isOs2CompEnd c = true) :
    skipCompOs2 (mask ++ c :: rest) = some (if c ≠ 0 then rest else c :: rest) := by
  induction mask with
  | nil =>
    rw [List.nil_append, skipCompOs2, if_neg (by simp [hc])]
    split_ifs <;> rfl
  | cons m mask ih =>
    rw [List.cons_append, skipCompOs2, if_pos (by simp [hmask.head]), ih hmask.tail]

end Matcher

/-! ## The components of a path -/

/-- A path as its components: the last one, or one followed by a separator. -/
inductive Path : List Byte → Prop
  | last {s : List Byte} (hs : NoEnd s) : Path s
  | cons {s rest : List Byte} {c : Byte} (hs : NoEnd s) (hc : isOs2CompSep c = true)
      (hrest : Path rest) : Path (s ++ c :: rest)

theorem path_of_noNull {s : List Byte} (hs : ∀ c ∈ s, c ≠ 0) : Path s := by
  induction s with
  | nil => exact .last (by simp [NoEnd])
  | cons c s ih =>
    have ih := ih fun d hd => hs d (List.mem_cons_of_mem c hd)
    by_cases hc : isOs2CompSep c = true
    · exact .cons (s := []) (by simp [NoEnd]) hc ih
    · have hend : isOs2CompEnd c = false :=
        isOs2CompEnd_eq_false.mpr ⟨hs c List.mem_cons_self, Bool.eq_false_iff.mpr hc⟩
      have hcons {s : List Byte} (h : NoEnd s) : NoEnd (c :: s) := by
        intro d hd
        rcases List.mem_cons.mp hd with rfl | hd
        · exact hend
        · exact h d hd
      cases ih with
      | last h => exact .last (hcons h)
      | cons h hsep hrest => exact .cons (hcons h) hsep hrest

theorem components_last {s : List Byte} (hs : NoEnd s) : components s = [s] :=
  List.splitOnP_eq_singleton fun c hc => (isOs2CompEnd_eq_false.mp (hs c hc)).2

theorem components_cons {s rest : List Byte} {c : Byte} (hs : NoEnd s)
    (hc : isOs2CompSep c = true) :
    components (s ++ c :: rest) = s :: components rest :=
  List.splitOnP_append_cons_of_forall_mem (fun d hd => (isOs2CompEnd_eq_false.mp (hs d hd)).2)
    c hc rest

theorem components_ne_nil (s : List Byte) : components s ≠ [] := List.splitOnP_ne_nil _ s

section Loop

variable {flags : BitVec 32} {mask name : List Byte}

theorem peek_append_ne_zero (rest : List Byte) {s : List Byte} {c : Byte} (hs : NoEnd s)
    (h : s ≠ [] ∨ c ≠ 0) :
    peek (s ++ c :: rest) ≠ 0 := by
  cases s with
  | nil => exact h.resolve_left (by simp)
  | cons d s => exact (isOs2CompEnd_eq_false.mp hs.head).1

theorem compLoop_ne (hpre : has flags FNM_PATHPREFIX = false) (hmask : mask ≠ [])
    (hname : name ≠ []) (hne : peek mask ≠ 0 ∨ peek name ≠ 0) :
    compLoop flags mask name =
      (matchComp flags mask name).bind fun rc =>
        if rc ≠ .match then some rc
        else (skipCompOs2 mask).bind fun mask => (skipCompOs2 name).bind fun name =>
          compLoop flags mask name := by
  obtain ⟨m, mask, rfl⟩ := List.exists_cons_of_ne_nil hmask
  obtain ⟨n, name, rfl⟩ := List.exists_cons_of_ne_nil hname
  rw [peek_cons, peek_cons] at hne
  rw [compLoop_cons, if_pos hne, hpre, if_neg (by simp)]

theorem compLoop_null : compLoop flags [0] [0] = some .match := by
  rw [compLoop_cons, if_neg (by simp)]

/-- A turn of the loop: it compares a component, and `hrest` is for the turns after it. -/
theorem decides_compLoop_turn {c d : Byte} {rest rest' : List Byte} {P : Prop}
    (hstyle : CompStyle flags) (hpre : has flags FNM_PATHPREFIX = false)
    (hc : isOs2CompEnd c = true) (hd : isOs2CompEnd d = true) (hmask : NoEnd mask)
    (hname : NoEnd name) (hne : (mask ≠ [] ∨ c ≠ 0) ∨ name ≠ [] ∨ d ≠ 0)
    (hrest : isOs2CompSep c = isOs2CompSep d →
      Decides (compLoop flags (if c ≠ 0 then rest else c :: rest)
        (if d ≠ 0 then rest' else d :: rest')) P) :
    Decides (compLoop flags (mask ++ c :: rest) (name ++ d :: rest'))
      ((CompMatch flags name mask name ∧ isOs2CompSep c = isOs2CompSep d) ∧ P) := by
  have hpeek := hne.imp (peek_append_ne_zero rest hmask) (peek_append_ne_zero rest' hname)
  have hcomp : Decides (matchComp flags (mask ++ c :: rest) (name ++ d :: rest'))
      (CompMatch flags name mask name ∧ isOs2CompSep c = isOs2CompSep d) :=
    decides_matchComp hstyle hpre hc hd hmask hname
  rw [compLoop_ne hpre (by simp) (by simp) hpeek]
  rcases hcomp with ⟨h, hmatch⟩ | ⟨h, hmatch⟩
  · rw [h, Option.bind_some, if_neg (by simp), skipCompOs2_append hmask hc,
      skipCompOs2_append hname hd, Option.bind_some, Option.bind_some]
    exact (hrest hmatch.2).congr (and_iff_right hmatch)
  · rw [h, Option.bind_some, if_pos (by simp)]
    exact .of_false (fun h => hmatch h.1)

/-- The loop decides the relation on the paths. -/
theorem decides_compLoop (hstyle : CompStyle flags) (hpre : has flags FNM_PATHPREFIX = false)
    (hmask : Path mask) (hname : Path name) :
    Decides (compLoop flags (mask ++ [0]) (name ++ [0])) (PathMatch flags mask name) := by
  induction hmask generalizing name with
  | @last m hm =>
    cases hname with
    | last hn =>
      rw [PathMatch, components_last hm, components_last hn, List.forall₂_cons]
      by_cases hne : m ≠ [] ∨ name ≠ []
      · refine (decides_compLoop_turn (P := True) hstyle hpre rfl rfl hm hn (by simpa using hne)
          fun _ => ?_).congr (by simp)
        exact compLoop_null ▸ .of_true trivial
      · obtain ⟨rfl, rfl⟩ := not_or.mp hne |>.imp not_not.mp not_not.mp
        exact compLoop_null ▸ .of_true ⟨.nil, .nil⟩
    | @cons n rest d hn hd hrest =>
      have hfalse : ¬ PathMatch flags m (n ++ d :: rest) := by
        rw [PathMatch, components_last hm, components_cons hn hd]
        intro h
        cases h with
        | cons _ h => exact components_ne_nil _ (List.forall₂_nil_left_iff.mp h)
      rw [List.append_assoc]
      refine (decides_compLoop_turn (P := True) hstyle hpre rfl (isOs2CompEnd_of_sep hd) hm hn
        (.inr (.inr (ne_zero_of_sep hd))) ?_).congr ?_
      · rw [hd]
        exact fun h => absurd h (by decide)
      · rw [hd]
        exact iff_of_false hfalse (fun h => absurd h.1.2 (by decide))
  | @cons m rest c hm hc hrest ih =>
    rw [List.append_assoc]
    cases hname with
    | last hn =>
      have hfalse : ¬ PathMatch flags (m ++ c :: rest) name := by
        rw [PathMatch, components_cons hm hc, components_last hn]
        intro h
        cases h with
        | cons _ h => exact components_ne_nil _ (List.forall₂_nil_right_iff.mp h)
      refine (decides_compLoop_turn (P := True) hstyle hpre (isOs2CompEnd_of_sep hc) rfl hm hn
        (.inl (.inr (ne_zero_of_sep hc))) ?_).congr ?_
      · rw [hc]
        exact fun h => absurd h (by decide)
      · rw [hc]
        exact iff_of_false hfalse (fun h => absurd h.1.2 (by decide))
    | @cons n rest' d hn hd hrest' =>
      rw [List.append_assoc]
      refine (decides_compLoop_turn (P := PathMatch flags rest rest') hstyle hpre
        (isOs2CompEnd_of_sep hc) (isOs2CompEnd_of_sep hd) hm hn (.inl (.inr (ne_zero_of_sep hc)))
        fun _ => ?_).congr ?_
      · rw [if_pos (ne_zero_of_sep hc), if_pos (ne_zero_of_sep hd)]
        exact ih hrest'
      · rw [PathMatch, components_cons hm hc, components_cons hn hd, List.forall₂_cons, hc, hd,
          and_iff_left rfl]
        rfl

end Loop

/-! ## Drives and UNC prefixes -/

/-- The drive the code reads is the drive of the path. -/
theorem drive_buf (s : List Byte) :
    drive (s ++ [0]) = some (splitDrive s).1 ∧
      afterDrive (splitDrive s).1 (s ++ [0]) = (splitDrive s).2 ++ [0] := by
  rcases s with _ | ⟨c, _ | ⟨d, s⟩⟩
  · exact ⟨rfl, rfl⟩
  · have hcolon : 0#8 ≠ ch ':' := by decide
    simp [drive, splitDrive, afterDrive, hcolon]
  · by_cases hc : isalpha c = true
    · by_cases hd : d = ch ':' <;> simp [drive, splitDrive, afterDrive, hc, hd]
    · simp [drive, splitDrive, afterDrive, hc]

theorem hasColon_buf {s : List Byte} (hs : ∀ c ∈ s, c ≠ 0) :
    hasColon (s ++ [0]) = some (decide (ch ':' ∈ s)) := by
  induction s with
  | nil => rfl
  | cons c s ih =>
    rw [List.cons_append, hasColon, ih fun d hd => hs d (List.mem_cons_of_mem c hd),
      if_neg (hs c List.mem_cons_self)]
    by_cases hc : c = ch ':'
    · simp [hc]
    · simp [hc, Ne.symm hc]

theorem twoSeps_buf (s : List Byte) : twoSeps isOs2CompSep (s ++ [0]) = some (isUnc s) := by
  have hzero : isOs2CompSep 0#8 = false := rfl
  rcases s with _ | ⟨c, _ | ⟨d, s⟩⟩
  · rfl
  · simp [twoSeps, isUnc, hzero]
  · by_cases hc : isOs2CompSep c = true <;> simp [twoSeps, isUnc, hc]

theorem exists_of_isUnc {s : List Byte} (h : isUnc s = true) :
    ∃ c d t, s = c :: d :: t ∧ isOs2CompSep c = true ∧ isOs2CompSep d = true := by
  rcases s with _ | ⟨c, _ | ⟨d, t⟩⟩
  · cases h
  · cases h
  · obtain ⟨hc, hd⟩ := of_decide_eq_true h
    exact ⟨c, d, t, rfl, hc, hd⟩

/-- Two separators in front of both paths do not matter. -/
theorem pathMatch_drop_two {flags : BitVec 32} {mask name : List Byte} (hmask : isUnc mask = true)
    (hname : isUnc name = true) :
    PathMatch flags (mask.drop 2) (name.drop 2) ↔ PathMatch flags mask name := by
  obtain ⟨c, d, mask, rfl, hc, hd⟩ := exists_of_isUnc hmask
  obtain ⟨c', d', name, rfl, hc', hd'⟩ := exists_of_isUnc hname
  have hcons {c : Byte} {rest : List Byte} (hc : isOs2CompSep c = true) :
      components (c :: rest) = [] :: components rest :=
        components_cons (s := []) (by simp [NoEnd]) hc
  simp only [PathMatch, List.drop_succ_cons, List.drop_zero, hcons hc, hcons hd, hcons hc',
    hcons hd', List.forall₂_cons, compMatch_nil_iff, true_and]

theorem sameDrive_iff (flags : BitVec 32) (m n : Option Byte) :
    sameDrive flags m n = true ↔ SameDrive flags m n := by
  cases m with
  | none => cases n <;> simp [sameDrive, SameDrive]
  | some m =>
    cases n with
    | none => simp [sameDrive, SameDrive]
    | some n =>
      simp only [sameDrive, SameDrive, fold, decide_eq_true_eq]
      split_ifs with hignore
      · rw [and_iff_right hignore, or_iff_right_of_imp (congrArg nlsTolower)]
      · simp [hignore]

/-- What follows the drives is decided by the UNC prefixes and what the loop decides, if that does
    not depend on two separators in front of both paths. -/
theorem decides_matchStyle_of_loop {flags : BitVec 32} {M : List Byte → List Byte → Prop}
    (hstyle : CompStyle flags)
    (hloop : ∀ {mask name : List Byte}, Path mask → Path name →
      Decides (compLoop flags (mask ++ [0]) (name ++ [0])) (M mask name))
    (hM : ∀ {mask name : List Byte}, isUnc mask = true → isUnc name = true →
      (M (mask.drop 2) (name.drop 2) ↔ M mask name))
    {mask name : List Byte} (hmask : ∀ c ∈ mask, c ≠ 0) (hname : ∀ c ∈ name, c ≠ 0) :
    Decides (matchStyle flags (mask ++ [0]) (name ++ [0]))
      ((isUnc name = true → isUnc mask = true) ∧ M mask name) := by
  have hdrop {s : List Byte} (hs : isUnc s = true) : (s ++ [0]).drop 2 = s.drop 2 ++ [0] := by
    obtain ⟨c, d, t, rfl, -⟩ := exists_of_isUnc hs
    rfl
  have hpath {s : List Byte} (hs : ∀ c ∈ s, c ≠ 0) : Path (s.drop 2) :=
    path_of_noNull fun c hc => hs c (List.mem_of_mem_drop hc)
  rw [CompStyle] at hstyle
  rw [matchStyle, if_pos hstyle, twoSeps_buf, Option.bind_some]
  by_cases hunc : isUnc name = true
  · rw [if_pos hunc, twoSeps_buf, Option.bind_some]
    by_cases hunc' : isUnc mask = true
    · rw [if_pos hunc', hdrop hunc, hdrop hunc']
      refine (hloop (hpath hmask) (hpath hname)).congr ?_
      rw [hM hunc' hunc, and_iff_right (fun _ => hunc')]
    · rw [if_neg hunc']
      exact .of_false (fun h => hunc' (h.1 hunc))
  · rw [if_neg hunc]
    refine (hloop (path_of_noNull hmask) (path_of_noNull hname)).congr ?_
    rw [and_iff_right (fun h => absurd h hunc)]

/-- What follows the drives is decided by the UNC prefixes and the relation on the paths. -/
theorem decides_matchStyle {flags : BitVec 32} {mask name : List Byte} (hstyle : CompStyle flags)
    (hpre : has flags FNM_PATHPREFIX = false) (hmask : ∀ c ∈ mask, c ≠ 0)
    (hname : ∀ c ∈ name, c ≠ 0) :
    Decides (matchStyle flags (mask ++ [0]) (name ++ [0]))
      ((isUnc name = true → isUnc mask = true) ∧ PathMatch flags mask name) :=
  decides_matchStyle_of_loop hstyle (decides_compLoop hstyle hpre) pathMatch_drop_two hmask hname

theorem splitDrive_noNull {s : List Byte} (hs : ∀ c ∈ s, c ≠ 0) :
    ∀ c ∈ (splitDrive s).2, c ≠ 0 := by
  rcases s with _ | ⟨c, _ | ⟨d, s⟩⟩
  · exact hs
  · exact hs
  · rw [splitDrive]
    split_ifs
    · exact fun e he => hs e (by simp [he])
    · exact hs

/-- **`__mwdd32_fnmatch` in OS/2 and DOS style**: it returns `_FNM_MATCH` if and only if the drives
    are the same, a UNC name has a UNC mask, and the components match one by one. -/
theorem fnmatch_match_iff {flags : BitVec 32} (hstyle : CompStyle flags)
    (hpre : has flags FNM_PATHPREFIX = false) (mask name : CStr)
    (hmask : ch ':' ∉ (splitDrive mask.bytes).2) (hname : ch ':' ∉ (splitDrive name.bytes).2) :
    fnmatch mask.buf name.buf flags = some .match ↔
      SameDrive flags (splitDrive mask.bytes).1 (splitDrive name.bytes).1 ∧
      (isUnc (splitDrive name.bytes).2 = true → isUnc (splitDrive mask.bytes).2 = true) ∧
      PathMatch flags (splitDrive mask.bytes).2 (splitDrive name.bytes).2 := by
  have hm := splitDrive_noNull mask.noNull
  have hn := splitDrive_noNull name.noNull
  rw [fnmatch, fnmatchUnsigned, CStr.buf, CStr.buf, (drive_buf _).1, (drive_buf _).1,
    Option.bind_some, Option.bind_some, (drive_buf _).2, (drive_buf _).2, ← sameDrive_iff]
  by_cases hdrive : sameDrive flags (splitDrive mask.bytes).1 (splitDrive name.bytes).1 = true
  · rw [if_neg (not_not.mpr hdrive), and_iff_right hdrive, hasColon_buf hm, hasColon_buf hn,
      Option.bind_some, Option.bind_some, if_neg (by simpa using hmask),
        if_neg (by simpa using hname)]
    exact (decides_matchStyle hstyle hpre hm hn).iff
  · rw [if_pos hdrive]
    exact iff_of_false (by decide) (fun h => hdrive h.1)

/-- The mask `a:\x*` and the name `A:/xy.c`. -/
theorem fnmatch_match_iff_sample :
    ∃ mask name : CStr, mask.bytes = [ch 'a', ch ':', ch '\\', ch 'x', ch '*'] ∧
      name.bytes = [ch 'A', ch ':', ch '/', ch 'x', ch 'y', ch '.', ch 'c'] ∧
      (fnmatch mask.buf name.buf (FNM_OS2 ||| FNM_IGNORECASE) = some .match ↔
        SameDrive (FNM_OS2 ||| FNM_IGNORECASE) (splitDrive mask.bytes).1 (splitDrive name.bytes).1 ∧
        (isUnc (splitDrive name.bytes).2 = true → isUnc (splitDrive mask.bytes).2 = true) ∧
        PathMatch (FNM_OS2 ||| FNM_IGNORECASE) (splitDrive mask.bytes).2
          (splitDrive name.bytes).2) :=
  ⟨⟨[ch 'a', ch ':', ch '\\', ch 'x', ch '*'], by decide⟩,
    ⟨[ch 'A', ch ':', ch '/', ch 'x', ch 'y', ch '.', ch 'c'], by decide⟩, rfl, rfl,
    fnmatch_match_iff (.inl (by decide)) (by decide) _ _ (by decide) (by decide)⟩

end Mwdd32.Util
