import Mwdd32.Util.PathMatch

/-!
# Path prefixes in OS/2 and DOS style

What `__mwdd32_fnmatch` matches under `_FNM_PATHPREFIX`: the components of the mask are related to
as many of the first components of the name, and a separator at the end of the mask is ignored.

* `decides_compLoop_pathPrefix`: the loop over the components decides it.
* `fnmatch_prefix_iff`: the whole function, with drives and UNC prefixes.
-/

namespace Mwdd32.Util

/-! ## Specification -/

/-- The components of a mask, but for an empty one at the end. -/
def maskComponents (mask : List Byte) : List (List Byte) :=
  if (components mask).getLast (components_ne_nil mask) = [] then (components mask).dropLast
  else components mask

/-- The components of the mask, each related to the component of the name at its position. -/
def PrefixMatch (flags : BitVec 32) (mask name : List Byte) : Prop :=
  ∃ ns, ns <+: components name ∧
    List.Forall₂ (fun m n => CompMatch flags n m n) (maskComponents mask) ns

section Specification

variable {flags : BitVec 32} {m n mask name : List Byte} {c d : Byte}

theorem maskComponents_last (hm : NoEnd m) (hne : m ≠ []) : maskComponents m = [m] := by
  simp [maskComponents, components_last hm, hne]

theorem maskComponents_cons (hm : NoEnd m) (hc : isOs2CompSep c = true) :
    maskComponents (m ++ c :: mask) = m :: maskComponents mask := by
  have hne := components_ne_nil mask
  simp only [maskComponents, components_cons hm hc, List.getLast_cons hne,
    List.dropLast_cons_of_ne_nil hne]
  split_ifs <;> rfl

/-- The empty mask is a prefix of every path. -/
theorem prefixMatch_nil : PrefixMatch flags [] name := ⟨[], List.nil_prefix, .nil⟩

theorem prefixMatch_last (hm : NoEnd m) (hne : m ≠ []) {ns : List (List Byte)}
    (hname : components name = n :: ns) : PrefixMatch flags m name ↔ CompMatch flags n m n := by
  rw [PrefixMatch, maskComponents_last hm hne, hname]
  constructor
  · intro ⟨ns', hprefix, h⟩
    cases h with
    | cons h hnil =>
      cases hnil
      obtain ⟨rfl, -⟩ := List.cons_prefix_cons.mp hprefix
      exact h
  · intro h
    exact ⟨[n], List.cons_prefix_cons.mpr ⟨rfl, List.nil_prefix⟩, .cons h .nil⟩

theorem prefixMatch_cons (hm : NoEnd m) (hc : isOs2CompSep c = true) (hn : NoEnd n)
    (hd : isOs2CompSep d = true) : PrefixMatch flags (m ++ c :: mask) (n ++ d :: name) ↔
      CompMatch flags n m n ∧ PrefixMatch flags mask name := by
  rw [PrefixMatch, maskComponents_cons hm hc, components_cons hn hd]
  constructor
  · intro ⟨ns, hprefix, h⟩
    cases h with
    | cons h hrest =>
      obtain ⟨rfl, hprefix'⟩ := List.cons_prefix_cons.mp hprefix
      exact ⟨h, _, hprefix', hrest⟩
  · intro ⟨h, ns, hprefix, hrest⟩
    exact ⟨n :: ns, List.cons_prefix_cons.mpr ⟨rfl, hprefix⟩, .cons h hrest⟩

theorem maskComponents_eq_nil_iff (hmask : Path mask) : maskComponents mask = [] ↔ mask = [] := by
  cases hmask with
  | last hm =>
    by_cases hne : mask = []
    · exact iff_of_true (by rw [hne]; rfl) hne
    · rw [maskComponents_last hm hne]
      exact iff_of_false (List.cons_ne_nil _ _) hne
  | cons hm hc =>
    rw [maskComponents_cons hm hc]
    exact iff_of_false (List.cons_ne_nil _ _) (by simp)

/-- A name without a separator is left to a mask whose only separator is at its end. -/
theorem prefixMatch_cons_last (hm : NoEnd m) (hc : isOs2CompSep c = true) (hmask : Path mask)
    (hn : NoEnd n) : PrefixMatch flags (m ++ c :: mask) n ↔ CompMatch flags n m n ∧ mask = [] := by
  rw [PrefixMatch, maskComponents_cons hm hc, components_last hn]
  constructor
  · intro ⟨ns, hprefix, h⟩
    cases h with
    | cons h hrest =>
      obtain ⟨rfl, hprefix'⟩ := List.cons_prefix_cons.mp hprefix
      rw [List.prefix_nil.mp hprefix', List.forall₂_nil_right_iff,
        maskComponents_eq_nil_iff hmask] at hrest
      exact ⟨h, hrest⟩
  · intro ⟨h, hnil⟩
    rw [(maskComponents_eq_nil_iff hmask).mpr hnil]
    exact ⟨[n], List.prefix_refl _, .cons h .nil⟩

end Specification

/-! ## The matcher -/

section Loop

variable {flags : BitVec 32} {comp m n mask name rest rest' : List Byte} {c d : Byte}

/-- At the end of the mask component the name component has to end. At a separator it has to be
    followed by one too, unless the mask ends there. -/
theorem decides_matchCompOs2_prefixEnd (hpre : has flags FNM_PATHPREFIX = true)
    (hc : isOs2CompEnd c = true) (hd : isOs2CompEnd d = true) (hrest : c ≠ 0 → rest ≠ [])
    (hname : NoEnd name) (hasDot : Bool) :
    Decides (matchCompOs2 flags hasDot (c :: rest) (name ++ d :: rest'))
      (name = [] ∧ (c = 0 ∨ isOs2CompSep d = true ∨ peek rest = 0)) := by
  by_cases hsep : isOs2CompSep c = true
  · have hc0 := ne_zero_of_sep hsep
    obtain ⟨r, rest, rfl⟩ := List.exists_cons_of_ne_nil (hrest hc0)
    cases name with
    | nil =>
      rw [List.nil_append, matchCompOs2_sep _ _ _ _ _ hsep, hpre, if_pos rfl, List.head?_cons,
        Option.map_some]
      split_ifs with hd' hr
      · exact .of_true ⟨rfl, .inr (.inl hd')⟩
      · exact .of_true ⟨rfl, .inr (.inr hr.1)⟩
      · refine .of_false ?_
        rintro ⟨-, h | h | h⟩
        · exact hc0 h
        · exact hd' h
        · exact hr ⟨h, (isOs2CompSep_eq_false_iff hd).mp (Bool.eq_false_iff.mpr hd')⟩
    | cons n name =>
      have hn := isOs2CompEnd_eq_false.mp hname.head
      rw [List.cons_append, matchCompOs2_sep _ _ _ _ _ hsep, hn.2, if_neg Bool.false_ne_true, hpre,
        if_pos rfl, List.head?_cons, Option.map_some, if_neg fun h => hn.1 h.2]
      exact .of_false (by simp)
  · obtain rfl := (isOs2CompSep_eq_false_iff hc).mp (Bool.eq_false_iff.mpr hsep)
    cases name with
    | nil =>
      rw [List.nil_append, matchCompOs2_null]
      split_ifs with hd0 hd'
      · exact .of_true ⟨rfl, .inl rfl⟩
      · exact .of_true ⟨rfl, .inl rfl⟩
      · exact absurd ((isOs2CompSep_eq_false_iff hd).mp (by simpa [hpre] using hd')) hd0
    | cons n name =>
      have hn := isOs2CompEnd_eq_false.mp hname.head
      rw [List.cons_append, matchCompOs2_null, if_neg hn.1, if_neg (by simp [hn.2])]
      exact .of_false (by simp)

theorem decides_matchComp_prefix (hstyle : CompStyle flags) (hpre : has flags FNM_PATHPREFIX = true)
    (hc : isOs2CompEnd c = true) (hd : isOs2CompEnd d = true) (hrest : c ≠ 0 → rest ≠ [])
    (hmask : NoEnd mask) (hname : NoEnd name) :
    Decides (matchComp flags (mask ++ c :: rest) (name ++ d :: rest'))
      (CompMatch flags name mask name ∧ (c = 0 ∨ isOs2CompSep d = true ∨ peek rest = 0)) := by
  rw [CompStyle] at hstyle
  rw [matchComp, if_pos hstyle, scanDot_append hd hname, Option.bind_some]
  exact decides_matchCompOs2_of_end hc hd
    (fun hname => decides_matchCompOs2_prefixEnd hpre hc hd hrest hname _) hmask hname

/-- The loop starts with a component of the mask. -/
theorem compLoop_peek (hmask : peek mask ≠ 0) (hname : name ≠ []) :
    compLoop flags mask name =
      (matchComp flags mask name).bind fun rc =>
        if rc ≠ .match then some rc
        else (skipCompOs2 mask).bind fun mask => (skipCompOs2 name).bind fun name =>
          compLoop flags mask name := by
  cases mask with
  | nil => exact absurd rfl hmask
  | cons m mask =>
    obtain ⟨n, name, rfl⟩ := List.exists_cons_of_ne_nil hname
    have hm : m ≠ 0 := hmask
    rw [compLoop_cons, if_pos (.inl hm), if_neg (fun h => hm h.1)]

/-- The loop ends where the mask ends. -/
theorem compLoop_prefix_null (hpre : has flags FNM_PATHPREFIX = true) (hname : name ≠ []) :
    compLoop flags [0] name = some .match := by
  obtain ⟨n, name, rfl⟩ := List.exists_cons_of_ne_nil hname
  rw [compLoop_cons]
  split_ifs with h h'
  · rfl
  · exact absurd ⟨rfl, hpre⟩ h'
  · rfl

/-- A turn of the loop, where `hrest` is for the turns after it. -/
theorem decides_compLoop_pathPrefix_turn {P : Prop} (hstyle : CompStyle flags)
    (hpre : has flags FNM_PATHPREFIX = true) (hc : isOs2CompEnd c = true)
    (hd : isOs2CompEnd d = true) (hrest : c ≠ 0 → rest ≠ []) (hmask : NoEnd mask)
    (hname : NoEnd name) (hne : mask ≠ [] ∨ c ≠ 0)
    (hturn : c = 0 ∨ isOs2CompSep d = true ∨ peek rest = 0 →
      Decides (compLoop flags (if c ≠ 0 then rest else c :: rest)
        (if d ≠ 0 then rest' else d :: rest')) P) :
    Decides (compLoop flags (mask ++ c :: rest) (name ++ d :: rest'))
      ((CompMatch flags name mask name ∧ (c = 0 ∨ isOs2CompSep d = true ∨ peek rest = 0)) ∧ P) := by
  have hcomp : Decides (matchComp flags (mask ++ c :: rest) (name ++ d :: rest'))
      (CompMatch flags name mask name ∧ (c = 0 ∨ isOs2CompSep d = true ∨ peek rest = 0)) :=
    decides_matchComp_prefix hstyle hpre hc hd hrest hmask hname
  rw [compLoop_peek (peek_append_ne_zero rest hmask hne) (by simp)]
  rcases hcomp with ⟨h, hmatch⟩ | ⟨h, hmatch⟩
  · rw [h, Option.bind_some, if_neg (by simp), skipCompOs2_append hmask hc,
      skipCompOs2_append hname hd, Option.bind_some, Option.bind_some]
    exact (hturn hmatch.2).congr (and_iff_right hmatch)
  · rw [h, Option.bind_some, if_pos (by simp)]
    exact .of_false (fun h => hmatch h.1)

theorem peek_path (h : Path mask) : peek (mask ++ [0]) = 0 ↔ mask = [] := by
  refine ⟨fun hpeek => ?_, fun hnil => by rw [hnil]; rfl⟩
  by_contra hne
  cases h with
  | last hm => exact peek_append_ne_zero [] hm (.inl hne) hpeek
  | @cons m rest c hm hc =>
    rw [List.append_assoc, List.cons_append] at hpeek
    exact peek_append_ne_zero (rest ++ [0]) hm (.inr (ne_zero_of_sep hc)) hpeek

/-- The loop decides whether the components of the mask match the first ones of the name. -/
theorem decides_compLoop_pathPrefix (hstyle : CompStyle flags)
    (hpre : has flags FNM_PATHPREFIX = true) (hmask : Path mask) (hname : Path name) :
    Decides (compLoop flags (mask ++ [0]) (name ++ [0])) (PrefixMatch flags mask name) := by
  have hnull : ∀ {name : List Byte}, name ≠ [] → Decides (compLoop flags [0] name) True :=
    fun hname =>
    compLoop_prefix_null hpre hname ▸ .of_true trivial
  induction hmask generalizing name with
  | @last m hm =>
    by_cases hne : m = []
    · subst hne
      exact (hnull (by simp)).congr (iff_true_intro prefixMatch_nil)
    · cases hname with
      | last hn =>
        rw [prefixMatch_last hm hne (components_last hn)]
        refine (decides_compLoop_pathPrefix_turn (P := True) hstyle hpre rfl rfl (by simp) hm hn
          (.inl hne)
          fun _ => ?_).congr (by simp)
        rw [if_neg (not_not.mpr rfl)]
        exact hnull (by simp)
      | @cons n rest d hn hd hrest =>
        rw [prefixMatch_last hm hne (components_cons hn hd), List.append_assoc]
        refine (decides_compLoop_pathPrefix_turn (P := True) hstyle hpre rfl
          (isOs2CompEnd_of_sep hd) (by simp)
          hm hn (.inl hne) fun _ => ?_).congr (by simp)
        rw [if_neg (not_not.mpr rfl), if_pos (ne_zero_of_sep hd)]
        exact hnull (by simp)
  | @cons m rest c hm hc hrest ih =>
    have hc0 := ne_zero_of_sep hc
    rw [List.append_assoc]
    cases hname with
    | last hn =>
      have hpeek := peek_path hrest
      rw [prefixMatch_cons_last hm hc hrest hn]
      refine (decides_compLoop_pathPrefix_turn (P := True) hstyle hpre (isOs2CompEnd_of_sep hc) rfl
        (by simp) hm hn (.inr hc0) fun hend => ?_).congr ?_
      · have hnil := hpeek.mp (hend.resolve_left hc0 |>.resolve_left (by decide))
        rw [if_pos hc0, hnil]
        exact hnull (by simp)
      · rw [and_true, ← hpeek]
        have hsep : ¬ isOs2CompSep 0 = true := by decide
        rw [or_iff_right hc0, or_iff_right hsep]
        rfl
    | @cons n rest' d hn hd hrest' =>
      rw [prefixMatch_cons hm hc hn hd, List.append_assoc]
      refine (decides_compLoop_pathPrefix_turn (P := PrefixMatch flags rest rest') hstyle hpre
        (isOs2CompEnd_of_sep hc) (isOs2CompEnd_of_sep hd) (by simp) hm hn
          (.inr hc0) fun _ => ?_).congr ?_
      · rw [if_pos hc0, if_pos (ne_zero_of_sep hd)]
        exact ih hrest'
      · simp [hd]

end Loop

/-! ## Whole paths -/

theorem prefixMatch_drop_two {flags : BitVec 32} {mask name : List Byte} (hmask : isUnc mask = true)
    (hname : isUnc name = true) :
    PrefixMatch flags (mask.drop 2) (name.drop 2) ↔ PrefixMatch flags mask name := by
  obtain ⟨c, d, mask, rfl, hc, hd⟩ := exists_of_isUnc hmask
  obtain ⟨c', d', name, rfl, hc', hd'⟩ := exists_of_isUnc hname
  have hnil : NoEnd [] := by simp [NoEnd]
  have hcons {mask name : List Byte} {c c' : Byte} (hc : isOs2CompSep c = true)
      (hc' : isOs2CompSep c' = true) :
      PrefixMatch flags (c :: mask) (c' :: name) ↔ PrefixMatch flags mask name :=
    (prefixMatch_cons hnil hc hnil hc').trans (and_iff_right .nil)
  rw [hcons hc hc', hcons hd hd']
  rfl

/-- The drives are compared, and what follows them is matched in the style of the flags. -/
theorem fnmatch_iff_of_style {flags : BitVec 32} {M : List Byte → List Byte → Prop}
    (mask name : CStr)
    (hstyle : ∀ {mask name : List Byte}, (∀ c ∈ mask, c ≠ 0) → (∀ c ∈ name, c ≠ 0) →
      Decides (matchStyle flags (mask ++ [0]) (name ++ [0])) (M mask name))
    (hmask : ch ':' ∉ (splitDrive mask.bytes).2) (hname : ch ':' ∉ (splitDrive name.bytes).2) :
    fnmatch mask.buf name.buf flags = some .match ↔
      SameDrive flags (splitDrive mask.bytes).1 (splitDrive name.bytes).1 ∧
      M (splitDrive mask.bytes).2 (splitDrive name.bytes).2 := by
  have hm := splitDrive_noNull mask.noNull
  have hn := splitDrive_noNull name.noNull
  rw [fnmatch, fnmatchUnsigned, CStr.buf, CStr.buf, (drive_buf _).1, (drive_buf _).1,
    Option.bind_some, Option.bind_some, (drive_buf _).2, (drive_buf _).2, ← sameDrive_iff]
  by_cases hdrive : sameDrive flags (splitDrive mask.bytes).1 (splitDrive name.bytes).1 = true
  · rw [if_neg (not_not.mpr hdrive), and_iff_right hdrive, hasColon_buf hm, hasColon_buf hn,
      Option.bind_some, Option.bind_some, if_neg (by simpa using hmask),
        if_neg (by simpa using hname)]
    exact (hstyle hm hn).iff
  · rw [if_pos hdrive]
    exact iff_of_false (by decide) (fun h => hdrive h.1)

/-- **`_FNM_PATHPREFIX` in OS/2 and DOS style**: `__mwdd32_fnmatch` returns `_FNM_MATCH` if and only
    if the drives are the same, a UNC name has a UNC mask, and the components of the mask match the
    first components of the name one by one, a separator at the end of the mask apart. -/
theorem fnmatch_prefix_iff {flags : BitVec 32} (hstyle : CompStyle flags)
    (hpre : has flags FNM_PATHPREFIX = true) (mask name : CStr)
    (hmask : ch ':' ∉ (splitDrive mask.bytes).2) (hname : ch ':' ∉ (splitDrive name.bytes).2) :
    fnmatch mask.buf name.buf flags = some .match ↔
      SameDrive flags (splitDrive mask.bytes).1 (splitDrive name.bytes).1 ∧
      (isUnc (splitDrive name.bytes).2 = true → isUnc (splitDrive mask.bytes).2 = true) ∧
      PrefixMatch flags (splitDrive mask.bytes).2 (splitDrive name.bytes).2 :=
  fnmatch_iff_of_style mask name
    (decides_matchStyle_of_loop hstyle (decides_compLoop_pathPrefix hstyle hpre)
      prefixMatch_drop_two) hmask hname

/-- The mask `x*\` and the name `xy/b`. -/
theorem fnmatch_prefix_iff_sample :
    ∃ mask name : CStr, mask.bytes = [ch 'x', ch '*', ch '\\'] ∧
      name.bytes = [ch 'x', ch 'y', ch '/', ch 'b'] ∧
      (fnmatch mask.buf name.buf (FNM_OS2 ||| FNM_PATHPREFIX) = some .match ↔
        SameDrive (FNM_OS2 ||| FNM_PATHPREFIX) (splitDrive mask.bytes).1 (splitDrive name.bytes).1 ∧
        (isUnc (splitDrive name.bytes).2 = true → isUnc (splitDrive mask.bytes).2 = true) ∧
        PrefixMatch (FNM_OS2 ||| FNM_PATHPREFIX) (splitDrive mask.bytes).2
          (splitDrive name.bytes).2) :=
  ⟨⟨[ch 'x', ch '*', ch '\\'], by decide⟩, ⟨[ch 'x', ch 'y', ch '/', ch 'b'], by decide⟩, rfl, rfl,
    fnmatch_prefix_iff (.inl (by decide)) (by decide) _ _ (by decide) (by decide)⟩

end Mwdd32.Util
