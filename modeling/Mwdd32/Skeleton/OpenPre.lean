import Mwdd32.Common
import Mwdd32.Util.FnmatchCase
import Mwdd32.Util.PathMatch

/-!
# `OPEN_PRE` guards the CONFIG files

Model of the security callback of `skeleton/ses/sec32_OPEN_PRE.c`, which the kernel calls
before it opens a file.

Main result:

* `openPre_iff`: the callback refuses exactly the files named `CONFIG` or `CONFIG.` and an
  extension, in any case and in any directory.
-/

namespace Mwdd32.Skeleton

open Util

/-- `ERROR_ACCESS_DENIED` -/
def ERROR_ACCESS_DENIED : BitVec 32 := 5

/-- `"CONFIG"` -/
def config : List Byte := [ch 'C', ch 'O', ch 'N', ch 'F', ch 'I', ch 'G']

/-- The mask `"CONFIG.*"` -/
def configMask : CStr where
  bytes := config ++ [ch '.', ch '*']
  noNull := by decide

/-- The loop back from the end of the path (sec32_OPEN_PRE.c:51). -/
def scanBack (path : List Byte) : ℕ → ℕ
  | 0 => 0
  | i + 1 =>
    if path[i + 1]? ≠ some (ch '\\') ∧ path[i + 1]? ≠ some (ch '/') then scanBack path i else i + 1

/-- `OPEN_PRE` (sec32_OPEN_PRE.c:45-63). The flags, the mode and the file number are not
    looked at. -/
def openPre (pszPath : CStr) : Option (BitVec 32) :=
  let i := scanBack pszPath.buf pszPath.bytes.length
  if i ≠ 0 then
    (fnmatch configMask.buf (pszPath.buf.drop (i + 1)) (FNM_OS2 ||| FNM_IGNORECASE)).map fun rc =>
      if rc.code = 0 then ERROR_ACCESS_DENIED else NO_ERROR
  else some ERROR_INVALID_PARAMETER

/-! ## Specification -/

/-- The text after the last separator. -/
def lastComponent (path : List Byte) : List Byte :=
  (components path).getLast (components_ne_nil path)

/-- Some separator, hence the last one, is at an index of at least 1. -/
def HasDirectory (path : List Byte) : Prop := ∃ c ∈ path.tail, isOs2CompSep c = true

/-- `CONFIG`, or `CONFIG.` and anything, without regard to case. -/
def IsConfig (name : List Byte) : Prop :=
  lower name = lower config ∨ lower (config ++ [ch '.']) <+: lower name

/-! ## The last separator -/

/-- A path whose last component is all of it, or follows a separator. -/
theorem split_last {s : List Byte} (hs : ∀ c ∈ s, c ≠ 0) :
    NoEnd s ∨ ∃ dir c name, s = dir ++ c :: name ∧ isOs2CompSep c = true ∧ NoEnd name := by
  induction path_of_noNull hs with
  | last h => exact .inl h
  | @cons comp rest c hcomp hc hrest ih =>
    rcases ih fun d hd => hs d (by simp [hd]) with h | ⟨dir, d, name, rfl, hd, hname⟩
    · exact .inr ⟨comp, c, rest, rfl, hc, h⟩
    · exact .inr ⟨comp ++ c :: dir, d, name, by simp, hd, hname⟩

theorem exists_directory {s : List Byte} (hs : ∀ c ∈ s, c ≠ 0) (h : HasDirectory s) :
    ∃ dir c name, dir ≠ [] ∧ s = dir ++ c :: name ∧ isOs2CompSep c = true ∧ NoEnd name := by
  obtain ⟨d, hd, hsep⟩ := h
  have hnot {name : List Byte} (hname : NoEnd name) (hmem : d ∈ name) : False := by
    rw [(isOs2CompEnd_eq_false.mp (hname d hmem)).2] at hsep
    cases hsep
  rcases split_last hs with hs | ⟨dir, c, name, rfl, hc, hname⟩
  · exact (hnot hs (List.mem_of_mem_tail hd)).elim
  · refine ⟨dir, c, name, ?_, rfl, hc, hname⟩
    rintro rfl
    exact hnot hname hd

theorem lastComponent_append {dir name : List Byte} {c : Byte} (hc : isOs2CompSep c = true)
    (hname : NoEnd name) : lastComponent (dir ++ c :: name) = name := by
  have hsplit : components (dir ++ c :: name) = components dir ++ [name] := by
    rw [components, List.splitOnP_append_cons _ _ hc]
    exact congrArg _ (components_last hname)
  simp only [lastComponent, hsplit, List.getLast_append_singleton]

/-- The loop does not stop inside a component. -/
theorem scanBack_eq {path : List Byte} {k i : ℕ} (hki : k ≤ i)
    (h : ∀ j, k < j → j ≤ i → ∀ c, path[j]? = some c → isOs2CompSep c = false) :
    scanBack path i = scanBack path k := by
  induction i, hki using Nat.le_induction with
  | base => rfl
  | succ i hki ih =>
    have hsep := h (i + 1) (Nat.lt_succ_of_le hki) le_rfl
    rw [scanBack, if_pos, ih fun j hj hji => h j hj (Nat.le_succ_of_le hji)]
    constructor
    · exact fun hc => absurd (hsep _ hc) (by decide)
    · exact fun hc => absurd (hsep _ hc) (by decide)

theorem scanBack_sep {path : List Byte} {k : ℕ} {c : Byte} (hc : path[k]? = some c)
    (hsep : isOs2CompSep c = true) : scanBack path k = k := by
  cases k with
  | zero => rfl
  | succ k =>
    rw [scanBack, if_neg]
    intro ⟨h1, h2⟩
    rw [hc] at h1 h2
    rcases of_decide_eq_true hsep with rfl | rfl
    · exact h2 rfl
    · exact h1 rfl

/-! ## The mask -/

/-- Plain text in front of a mask consumes equal text. -/
theorem compMatch_append_iff {flags : BitVec 32} {comp text mask name : List Byte}
    (htext : ∀ c ∈ text, c ≠ ch '?' ∧ c ≠ ch '*' ∧ c ≠ ch '.') :
    CompMatch flags comp (text ++ mask) name ↔
      ∃ s t, name = s ++ t ∧ s.map (fold flags) = text.map (fold flags) ∧
        CompMatch flags comp mask t := by
  induction text generalizing name with
  | nil =>
    constructor
    · exact fun h => ⟨[], name, rfl, rfl, h⟩
    · rintro ⟨s, t, rfl, hs, h⟩
      obtain rfl := List.map_eq_nil_iff.mp hs
      exact h
  | cons c text ih =>
    replace ih {name : List Byte} := @ih name fun d hd => htext d (List.mem_cons_of_mem c hd)
    obtain ⟨hq, hstar, hdot⟩ := htext c List.mem_cons_self
    cases name with
    | nil =>
      refine iff_of_false (not_compMatch_char_nil hq hstar hdot) ?_
      rintro ⟨s, t, hst, hs, -⟩
      obtain ⟨rfl, rfl⟩ := List.append_eq_nil_iff.mp hst.symm
      cases hs
    | cons n name =>
      rw [List.cons_append, compMatch_char_iff hq hstar hdot, ih]
      constructor
      · rintro ⟨hfold, s, t, rfl, hs, h⟩
        exact ⟨n :: s, t, rfl, by rw [List.map_cons, List.map_cons, hfold, hs], h⟩
      · intro ⟨s, t, hst, hs, h⟩
        cases s with
        | nil => cases hs
        | cons d s =>
          obtain ⟨rfl, rfl⟩ := List.cons.inj hst
          obtain ⟨hfold, hs⟩ := List.cons.inj hs
          exact ⟨hfold.symm, s, t, rfl, hs, h⟩

/-- `.*` matches an extension, or nothing after a name without a dot. -/
theorem compMatch_dot_star_iff {flags : BitVec 32} (hstyle : flags &&& FNM_STYLE_MASK = FNM_OS2)
    {comp name : List Byte} :
    CompMatch flags comp [ch '.', ch '*'] name ↔
      (name = [] ∧ ch '.' ∉ comp) ∨ ∃ t, name = ch '.' :: t := by
  have hstar (name : List Byte) : CompMatch flags comp [ch '*'] name := by
    rw [compMatch_star_iff]
    refine ⟨name, [], (List.append_nil name).symm, fun hdos => ?_, .nil⟩
    rw [hstyle] at hdos
    exact absurd hdos (by decide)
  cases name with
  | nil =>
    rw [compMatch_dot_nil_iff]
    simp [hstar]
  | cons n name =>
    by_cases hn : n = ch '.'
    · subst hn
      simp [compMatch_dot_iff, hstar]
    · simp [not_compMatch_dot hn, hn]

theorem lower_fold (c : Byte) : fold (FNM_OS2 ||| FNM_IGNORECASE) c = nlsTolower c :=
  if_pos (by decide)

/-- What `"CONFIG.*"` matches. -/
theorem compMatch_config_iff {name : List Byte} :
    CompMatch (FNM_OS2 ||| FNM_IGNORECASE) name configMask.bytes name ↔ IsConfig name := by
  have hfold : fold (FNM_OS2 ||| FNM_IGNORECASE) = nlsTolower := funext lower_fold
  rw [configMask, compMatch_append_iff (by decide), hfold]
  constructor
  · rintro ⟨s, t, rfl, hs, h⟩
    rcases (compMatch_dot_star_iff (by decide)).mp h with ⟨rfl, -⟩ | ⟨t, rfl⟩
    · rw [List.append_nil]
      exact .inl hs
    · refine .inr ⟨lower t, ?_⟩
      rw [lower, lower, lower, List.map_append, List.map_append, hs, List.append_assoc]
      rfl
  · rintro (h | ⟨t, h⟩)
    · refine ⟨name, [], (List.append_nil name).symm, h, ?_⟩
      refine (compMatch_dot_star_iff (by decide)).mpr (.inl ⟨rfl, fun hdot => ?_⟩)
      have hmem : nlsTolower (ch '.') ∈ lower config := h ▸ List.mem_map_of_mem hdot
      exact absurd hmem (by decide)
    · obtain ⟨s, u, rfl, hs, -⟩ := List.map_eq_append_iff.mp h.symm
      rw [lower, List.map_append] at hs
      obtain ⟨s, v, rfl, hconfig, hv⟩ := List.map_eq_append_iff.mp hs
      obtain ⟨d, rfl, hd⟩ := List.map_eq_singleton_iff.mp hv
      obtain rfl := (nlsTolower_eq_dot d).mp hd
      exact ⟨s, ch '.' :: u, by simp, hconfig, (compMatch_dot_star_iff (by decide)).mpr
        (.inr ⟨u, rfl⟩)⟩

/-- The match of the callback, on a name without a separator or a colon. -/
theorem fnmatch_config_iff {name : CStr} (hname : NoEnd name.bytes) (hcolon : ch ':' ∉ name.bytes) :
    fnmatch configMask.buf name.buf (FNM_OS2 ||| FNM_IGNORECASE) = some .match ↔
      IsConfig name.bytes := by
  have hdrive : splitDrive name.bytes = (none, name.bytes) := by
    revert hcolon
    rcases name.bytes with _ | ⟨c, _ | ⟨d, s⟩⟩
    · exact fun _ => rfl
    · exact fun _ => rfl
    · intro hcolon
      have hd : d ≠ ch ':' := by
        rintro rfl
        exact hcolon (by simp)
      rw [splitDrive, if_neg (fun h => hd h.2)]
  have hunc : isUnc name.bytes = false := by
    revert hname
    rcases name.bytes with _ | ⟨c, _ | ⟨d, s⟩⟩
    · exact fun _ => rfl
    · exact fun _ => rfl
    · intro hname
      simp [isUnc, (isOs2CompEnd_eq_false.mp hname.head).2]
  rw [fnmatch_match_iff (.inl (by decide)) (by decide) configMask name (by decide)
    (by rwa [hdrive]), hdrive, hunc, PathMatch, components_last hname, ← compMatch_config_iff]
  have hmask : splitDrive configMask.bytes = (none, configMask.bytes) := by decide
  rw [hmask, components_last (by unfold NoEnd; decide)]
  simp [SameDrive]

/-! ## The callback -/

theorem openPre_noDirectory {path : CStr} (h : ¬ HasDirectory path.bytes) :
    openPre path = some ERROR_INVALID_PARAMETER := by
  have hscan : scanBack path.buf path.bytes.length = 0 := by
    refine scanBack_eq (Nat.zero_le _) fun j hj hji c hc => ?_
    by_contra hsep
    rw [Bool.not_eq_false] at hsep
    obtain ⟨j, rfl⟩ := Nat.exists_eq_add_of_lt hj
    rw [Nat.zero_add] at hc
    cases hbytes : path.bytes with
    | nil =>
      rw [CStr.buf, hbytes] at hc
      cases hc
    | cons d s =>
      rw [CStr.buf, hbytes, List.cons_append, List.getElem?_cons_succ] at hc
      rcases List.mem_append.mp (List.mem_of_getElem? hc) with hmem | hmem
      · exact h ⟨c, by rwa [hbytes], hsep⟩
      · rw [List.mem_singleton.mp hmem] at hsep
        cases hsep
  rw [openPre, hscan]
  rfl

theorem openPre_directory {path name : CStr} {dir : List Byte} {c : Byte} (hdir : dir ≠ [])
    (hc : isOs2CompSep c = true) (hname : NoEnd name.bytes)
    (hpath : path.bytes = dir ++ c :: name.bytes) :
    openPre path = (fnmatch configMask.buf name.buf (FNM_OS2 ||| FNM_IGNORECASE)).map fun rc =>
      if rc.code = 0 then ERROR_ACCESS_DENIED else NO_ERROR := by
  have hbuf : path.buf = dir ++ c :: (name.bytes ++ [0]) := by
    rw [CStr.buf, hpath, List.append_assoc, List.cons_append]
  have hscan : scanBack path.buf path.bytes.length = dir.length := by
    rw [scanBack_eq (k := dir.length), scanBack_sep (c := c) _ hc]
    · rw [hbuf, List.getElem?_append_right le_rfl, Nat.sub_self, List.getElem?_cons_zero]
    · rw [hpath, List.length_append]
      exact Nat.le_add_right _ _
    · intro j hj _ e he
      obtain ⟨j, rfl⟩ := Nat.exists_eq_add_of_lt hj
      rw [hbuf, Nat.add_assoc, List.getElem?_append_right (Nat.le_add_right _ _),
        Nat.add_sub_cancel_left, List.getElem?_cons_succ] at he
      rcases List.mem_append.mp (List.mem_of_getElem? he) with hmem | hmem
      · exact (isOs2CompEnd_eq_false.mp (hname e hmem)).2
      · rw [List.mem_singleton.mp hmem]
        rfl
  have hdrop : path.buf.drop (dir.length + 1) = name.buf := by
    rw [hbuf, List.drop_length_add_append, List.drop_one, List.tail_cons, CStr.buf]
  rw [openPre, hscan, hdrop, if_pos (by simpa using hdir)]

/-- **`OPEN_PRE` blocks exactly the CONFIG files.** -/
theorem openPre_iff (pszPath : CStr)
    (hcolon : HasDirectory pszPath.bytes → ch ':' ∉ lastComponent pszPath.bytes) :
    (openPre pszPath = some ERROR_ACCESS_DENIED ↔
      HasDirectory pszPath.bytes ∧ IsConfig (lastComponent pszPath.bytes)) ∧
    (openPre pszPath = some ERROR_INVALID_PARAMETER ↔ ¬ HasDirectory pszPath.bytes) ∧
    (openPre pszPath = some NO_ERROR ↔
      HasDirectory pszPath.bytes ∧ ¬ IsConfig (lastComponent pszPath.bytes)) := by
  have hdenied : ERROR_ACCESS_DENIED ≠ NO_ERROR := by decide
  have hinvalid : ERROR_INVALID_PARAMETER ≠ NO_ERROR := by decide
  have hcodes : ERROR_ACCESS_DENIED ≠ ERROR_INVALID_PARAMETER := by decide
  by_cases h : HasDirectory pszPath.bytes
  · obtain ⟨dir, c, name, hdir, hpath, hc, hname⟩ := exists_directory pszPath.noNull h
    have hlast : lastComponent pszPath.bytes = name := hpath ▸ lastComponent_append hc hname
    replace hcolon := hlast ▸ hcolon h
    rw [hlast]
    have hnull : ∀ d ∈ name, d ≠ 0 := fun d hd => (isOs2CompEnd_eq_false.mp (hname d hd)).1
    let last : CStr := ⟨name, hnull⟩
    have hopen := @openPre_directory pszPath last dir c hdir hc hname hpath
    obtain ⟨rc, hrc, -⟩ := exists_fnmatch configMask last (FNM_OS2 ||| FNM_IGNORECASE)
    have hiff := @fnmatch_config_iff last hname hcolon
    rw [hrc] at hopen hiff
    rw [hopen, ← hiff]
    cases rc <;> simp [Rc.code, h, hdenied, hcodes, hdenied.symm, hinvalid.symm]
  · rw [openPre_noDirectory h]
    simp [h, hcodes.symm, hinvalid]

/-- The path `C:\Config.sys`. -/
theorem openPre_iff_sample :
    ∃ path : CStr,
      path.bytes = [ch 'C', ch ':', ch '\\', ch 'C', ch 'o', ch 'n', ch 'f', ch 'i', ch 'g', ch '.',
        ch 's', ch 'y', ch 's'] ∧
      (openPre path = some ERROR_ACCESS_DENIED ↔
        HasDirectory path.bytes ∧ IsConfig (lastComponent path.bytes)) :=
  ⟨⟨[ch 'C', ch ':', ch '\\', ch 'C', ch 'o', ch 'n', ch 'f', ch 'i', ch 'g', ch '.', ch 's',
    ch 'y', ch 's'], by decide⟩, rfl, (openPre_iff _ (fun _ => by decide)).1⟩

end Mwdd32.Skeleton
