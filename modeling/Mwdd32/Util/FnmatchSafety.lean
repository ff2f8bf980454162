import Mwdd32.Util.Fnmatch

/-!
# Memory safety of `__mwdd32_fnmatch`

A buffer ends right after the null of its string, and reading further gives no
result. So the existence of a result says that no read went past a null, and
that every loop ended.

* `exists_matchCompOs2`, `exists_matchUnix`: the two recursive matchers, from
  any two places of null-terminated strings.
* `exists_fnmatch`: the exported service.
-/

namespace Mwdd32.Util

/-- The loop of an asterisk ends at the latest at the null. -/
theorem exists_starLoop {rec : List Byte → Option Rc} {stop : Byte → Bool} (hstop : stop 0 = true)
    (hrec : ∀ name, Terminated name → ∃ rc, rec name = some rc) {name : List Byte}
    (h : Terminated name) : ∃ rc, starLoop rec stop name = some rc := by
  induction h with
  | null =>
    obtain ⟨rc, hrc⟩ := hrec [0] .null
    rw [starLoop, hrc, Option.bind_some, if_pos hstop]
    split_ifs
    · exact ⟨_, rfl⟩
    · exact ⟨_, rfl⟩
  | cons hc hs ih =>
    obtain ⟨rc, hrc⟩ := hrec _ (.cons hc hs)
    rw [starLoop, hrc, Option.bind_some]
    split_ifs
    · exact ⟨_, rfl⟩
    · exact ⟨_, rfl⟩
    · exact ih

theorem starStop_zero (flags : BitVec 32) : starStop flags 0 = true := by
  simp [starStop, isOs2CompEnd]

theorem ne_zero_of_not_end {c : Byte} (h : ¬ isOs2CompEnd c = true) : c ≠ 0 := by
  rintro rfl
  exact h (by decide)

theorem exists_matchCompOs2 (flags : BitVec 32) (hasDot : Bool) {mask name : List Byte}
    (hmask : Terminated mask) (hname : Terminated name) :
    ∃ rc, matchCompOs2 flags hasDot mask name = some rc := by
  induction hmask generalizing name with
  | null =>
    obtain ⟨n, t, rfl⟩ := hname.exists_cons
    exact ⟨_, matchCompOs2_null ..⟩
  | @cons c mask hc hs ih =>
    obtain ⟨n, t, rfl⟩ := hname.exists_cons
    obtain ⟨m, mask', rfl⟩ := hs.exists_cons
    cases os2Char c with
    | null => exact absurd rfl hc
    | sep h =>
      rw [matchCompOs2_sep _ _ _ _ _ h, List.head?_cons, Option.map_some]
      split_ifs <;> exact ⟨_, rfl⟩
    | question =>
      rw [matchCompOs2_question]
      split_ifs with h
      · exact ih (hname.tail (ne_zero_of_not_end h.2))
      · exact ih hname
    | star =>
      by_cases hm : m = ch '*'
      · rw [hm, matchCompOs2_star_star, ← hm]
        exact ih hname
      · rw [matchCompOs2_star _ _ _ _ hm]
        exact exists_starLoop (starStop_zero flags) (fun _ h => ih h) hname
    | dot =>
      rw [matchCompOs2_dot]
      split_ifs with hn
      · refine ih (hname.tail ?_)
        rw [hn]
        decide
      · exact ⟨_, rfl⟩
      · exact ih hname
    | char hend hq hstar hdot =>
      rw [matchCompOs2_char _ _ _ _ _ hend hq hstar hdot]
      split_ifs with h
      · exact ⟨_, rfl⟩
      · exact ih (hname.tail (ne_zero_of_fold_eq hc (not_not.mp h)))

/-! ## The POSIX matcher -/

/-- An item of a set is read within the mask. -/
theorem exists_setRange (noescape : Bool) (c1 : Byte) {mask : List Byte} (h : Terminated mask) :
    ∃ rest item, setRange noescape c1 mask = some (rest, item) ∧ Terminated rest := by
  obtain ⟨m, t, rfl⟩ := h.exists_cons
  unfold setRange
  simp only [List.head?_cons, Option.bind_some, List.tail_cons]
  by_cases hm : m = ch '-'
  · have ht : Terminated t := h.tail (by rw [hm]; decide)
    obtain ⟨m1, t', rfl⟩ := ht.exists_cons
    simp only [if_pos hm, List.head?_cons, Option.bind_some, List.tail_cons]
    by_cases hm1 : m1 = ch ']'
    · rw [if_neg (not_not.mpr hm1)]
      exact ⟨_, _, rfl, h⟩
    · rw [if_pos hm1]
      have hnext : Terminated (if ¬ noescape = true ∧ m1 = ch '\\' then t' else m1 :: t') := by
        split_ifs with hesc
        · refine ht.tail ?_
          rw [hesc.2]
          decide
        · exact ht
      obtain ⟨c2, t'', hc2⟩ := hnext.exists_cons
      rw [hc2] at hnext ⊢
      rw [List.head?_cons, Option.map_some]
      split_ifs with h0
      · exact ⟨_, _, rfl, hnext⟩
      · exact ⟨_, _, rfl, hnext.tail h0⟩
  · rw [if_neg hm]
    exact ⟨_, _, rfl, h⟩

theorem exists_setItem (noescape : Bool) {c : Byte} {mask : List Byte} (hc : c ≠ 0)
    (h : Terminated (c :: mask)) :
    ∃ rest item, setItem noescape (c :: mask) = some (rest, item) ∧ Terminated rest := by
  have hmask := h.tail hc
  rw [setItem]
  split_ifs
  · obtain ⟨c1, t, rfl⟩ := hmask.exists_cons
    rw [List.head?_cons, Option.bind_some]
    split_ifs with h1
    · exact ⟨_, _, rfl, hmask⟩
    · exact exists_setRange noescape c1 (hmask.tail h1)
  · exact exists_setRange noescape c hmask

/-- The loop over a set ends within the mask, with or without a `]`. -/
theorem exists_setLoop (noescape invert : Bool) (n : Byte) (first matched : Bool) {mask : List Byte}
    (h : Terminated mask) :
    ∃ rest result, setLoop noescape invert n first matched mask = some (rest, result) ∧
      Terminated rest := by
  fun_induction setLoop noescape invert n first matched mask with
  | case1 => cases h
  | case2 first matched c mask hc => exact ⟨_, _, rfl, h⟩
  | case3 first matched c mask hc hitem =>
    obtain ⟨rest, item, hsome, -⟩ := exists_setItem noescape (fun h0 => hc (Or.inl h0)) h
    rw [hsome] at hitem
    cases hitem
  | case4 first matched c mask hc rest hitem =>
    obtain ⟨rest', item', hsome, hrest⟩ := exists_setItem noescape (fun h0 => hc (Or.inl h0)) h
    rw [hsome] at hitem
    obtain ⟨rfl, -⟩ := Prod.mk.inj (Option.some.inj hitem)
    exact ⟨_, _, rfl, hrest⟩
  | case5 first matched c mask hc rest item hitem ih =>
    obtain ⟨rest', item', hsome, hrest⟩ := exists_setItem noescape (fun h0 => hc (Or.inl h0)) h
    rw [hsome] at hitem
    obtain ⟨rfl, -⟩ := Prod.mk.inj (Option.some.inj hitem)
    exact ih hrest

theorem exists_matchSet (flags : BitVec 32) (n : Byte) {mask : List Byte} (h : Terminated mask) :
    ∃ r, matchSet flags n mask = some r ∧ ∀ rest, r = some rest → Terminated rest := by
  obtain ⟨m, t, rfl⟩ := h.exists_cons
  unfold matchSet
  rw [List.head?_cons, Option.bind_some]
  dsimp only
  generalize hinvert : (decide (m = ch '!' ∨ m = ch '^')) = invert
  have hstart : Terminated (if invert = true then (m :: t).tail else m :: t) := by
    split_ifs with hi
    · rw [hi, decide_eq_true_eq] at hinvert
      refine h.tail ?_
      rcases hinvert with rfl | rfl <;> decide
    · exact h
  obtain ⟨rest, matched, hloop, hrest⟩ :=
    exists_setLoop (has flags FNM_NOESCAPE) invert n true false hstart
  obtain ⟨c, s, rfl⟩ := hrest.exists_cons
  rw [hloop, Option.bind_some, List.head?_cons, Option.map_some]
  refine ⟨_, rfl, ?_⟩
  intro rest hr
  split_ifs at hr with h0
  · obtain rfl := Option.some.inj hr
    exact h
  · obtain rfl := Option.some.inj hr
    exact hrest.tail h0

theorem exists_endsAfterSep (flags : BitVec 32) {mask : List Byte} (h : Terminated mask) :
    ∃ ends, endsAfterSep flags mask = some ends := by
  obtain ⟨m, t, rfl⟩ := h.exists_cons
  unfold endsAfterSep
  rw [List.head?_cons, Option.bind_some]
  split_ifs with h0
  · exact ⟨_, rfl⟩
  · obtain ⟨m1, t', rfl⟩ := (h.tail h0).exists_cons
    exact ⟨_, rfl⟩
  · exact ⟨_, rfl⟩

/-- **The POSIX matcher** ends and reads nothing past a null. The component is only compared. -/
theorem exists_matchUnix (flags : BitVec 32) {mask name : List Byte} (hmask : Terminated mask)
    (hname : Terminated name) (comp : List Byte) :
    ∃ rc, matchUnix flags mask name comp = some rc := by
  induction hlen : mask.length using Nat.strong_induction_on generalizing mask name comp with
  | _ k ih =>
    subst hlen
    obtain ⟨c, mask, rfl⟩ := hmask.exists_cons
    obtain ⟨n, name, rfl⟩ := hname.exists_cons
    have hrec {mask' name' : List Byte} (hle : mask'.length ≤ mask.length) (hm : Terminated mask')
        (hn : Terminated name') (comp : List Byte) :
        ∃ rc, matchUnix flags mask' name' comp = some rc :=
      ih mask'.length (Nat.lt_succ_of_le hle) hm hn comp rfl
    cases unixChar c with
    | null => exact ⟨_, matchUnix_null ..⟩
    | question =>
      have hm : Terminated mask := hmask.tail (by decide)
      rw [matchUnix_question]
      split_ifs with h
      · exact ⟨_, rfl⟩
      · exact hrec le_rfl hm (hname.tail fun h0 => h (Or.inl h0)) comp
    | star =>
      have hm : Terminated mask := hmask.tail (by decide)
      obtain ⟨m, mask', rfl⟩ := hm.exists_cons
      by_cases hstar : m = ch '*'
      · subst hstar
        rw [matchUnix_star_star]
        split_ifs
        · exact ⟨_, rfl⟩
        · exact hrec le_rfl hm hname comp
      · rw [matchUnix_star _ _ _ _ _ hstar]
        split_ifs
        · exact ⟨_, rfl⟩
        · exact exists_starLoop (by simp) (fun _ hn => hrec le_rfl hm hn comp) hname
    | slash =>
      have hm : Terminated mask := hmask.tail (by decide)
      have hnext : Terminated (if n ≠ 0 then name else n :: name) := by
        split_ifs with h0
        · exact hname.tail h0
        · exact hname
      obtain ⟨ends, hends⟩ := exists_endsAfterSep flags hm
      rw [matchUnix_slash]
      dsimp only
      rw [hends, Option.bind_some]
      generalize (if n ≠ 0 then name else n :: name) = next at hnext ⊢
      generalize (if has flags FNM_PATHNAME = true then next else comp) = comp'
      split_ifs
      · exact hrec le_rfl hm hnext comp'
      · exact hrec le_rfl hm hnext comp'
      · exact ⟨_, rfl⟩
      · exact ⟨_, rfl⟩
    | bracket =>
      have hm : Terminated mask := hmask.tail (by decide)
      rw [matchUnix_bracket]
      split_ifs with h
      · exact ⟨_, rfl⟩
      · obtain ⟨r, hr, hrest⟩ := exists_matchSet flags n hm
        rw [hr, Option.bind_some]
        cases r with
        | none => exact ⟨_, rfl⟩
        | some rest =>
          exact hrec (length_matchSet_le hr) (hrest rest rfl)
            (hname.tail fun h0 => h (Or.inl h0)) comp
    | backslash =>
      have hm : Terminated mask := hmask.tail (by decide)
      obtain ⟨m, mask', rfl⟩ := hm.exists_cons
      rw [matchUnix_backslash]
      split_ifs with hescape hback hstar hne
      · exact ⟨_, rfl⟩
      · refine hrec le_rfl hm (hname.tail ?_) comp
        rw [not_not.mp hback]
        decide
      · exact ⟨_, rfl⟩
      · have hm0 : m ≠ 0 := by rcases hstar with rfl | rfl <;> decide
        have hn0 : n ≠ 0 := not_not.mp hne ▸ hm0
        exact hrec (Nat.le_succ _) (hm.tail hm0) (hname.tail hn0) comp
      · exact hrec le_rfl hm hname comp
    | char h0 hq hstar hslash hbracket hback =>
      rw [matchUnix_char _ _ _ _ _ h0 hq hstar hslash hbracket hback]
      split_ifs with h
      · exact ⟨_, rfl⟩
      · exact hrec le_rfl (hmask.tail h0) (hname.tail (ne_zero_of_fold_eq h0 (not_not.mp h))) comp

/-! ## Whole paths -/

theorem exists_scanDot {name : List Byte} (h : Terminated name) : ∃ b, scanDot name = some b := by
  induction h with
  | null => exact ⟨_, rfl⟩
  | cons hc hs ih =>
    rw [scanDot]
    split_ifs
    · exact ih
    · exact ⟨_, rfl⟩

theorem exists_skipCompOs2 {s : List Byte} (h : Terminated s) :
    ∃ rest, skipCompOs2 s = some rest ∧ Terminated rest := by
  induction h with
  | null => exact ⟨[0], rfl, .null⟩
  | cons hc hs ih =>
    rw [skipCompOs2]
    split_ifs
    · exact ⟨_, rfl, hs⟩
    · exact ih

theorem exists_hasColon {s : List Byte} (h : Terminated s) : ∃ b, hasColon s = some b := by
  induction h with
  | null => exact ⟨_, rfl⟩
  | cons hc hs ih =>
    rw [hasColon]
    split_ifs
    · exact ⟨_, rfl⟩
    · exact ih

theorem exists_matchComp (flags : BitVec 32) {mask name : List Byte} (hmask : Terminated mask)
    (hname : Terminated name) : ∃ rc, matchComp flags mask name = some rc := by
  obtain ⟨b, hb⟩ := exists_scanDot hname
  rw [matchComp, hb, Option.bind_some]
  split_ifs
  · exact exists_matchCompOs2 flags b hmask hname
  · exact ⟨_, rfl⟩

/-- The loop over the components ends. -/
theorem exists_compLoop (flags : BitVec 32) {mask name : List Byte} (hmask : Terminated mask)
    (hname : Terminated name) : ∃ rc, compLoop flags mask name = some rc := by
  induction hlen : mask.length + name.length using Nat.strong_induction_on
    generalizing mask name with
  | _ k ih =>
    subst hlen
    obtain ⟨m, mask, rfl⟩ := hmask.exists_cons
    obtain ⟨n, name, rfl⟩ := hname.exists_cons
    obtain ⟨rc, hrc⟩ := exists_matchComp flags hmask hname
    obtain ⟨mask', hm, hmask'⟩ := exists_skipCompOs2 hmask
    obtain ⟨name', hn, hname'⟩ := exists_skipCompOs2 hname
    rw [compLoop_cons, hrc, hm, hn, Option.bind_some, Option.bind_some, Option.bind_some]
    split_ifs with hne
    · exact ⟨_, rfl⟩
    · exact ⟨_, rfl⟩
    · refine ih _ ?_ hmask' hname' rfl
      rcases hne with h | h
      · exact Nat.add_lt_add_of_lt_of_le (length_skipCompOs2_lt h hm) (length_skipCompOs2_le hn)
      · exact Nat.add_lt_add_of_le_of_lt (length_skipCompOs2_le hm) (length_skipCompOs2_lt h hn)
    · exact ⟨_, rfl⟩

theorem exists_twoSeps (sep : Byte → Bool) (hsep : sep 0 = false) {s : List Byte}
    (h : Terminated s) :
    ∃ b, twoSeps sep s = some b ∧ (b = true → Terminated (s.drop 2)) := by
  obtain ⟨c, t, rfl⟩ := h.exists_cons
  rw [twoSeps, List.head?_cons, Option.bind_some]
  split_ifs with hc
  · have hc0 : c ≠ 0 := by
      rintro rfl
      rw [hsep] at hc
      cases hc
    obtain ⟨d, t', rfl⟩ := (h.tail hc0).exists_cons
    refine ⟨_, rfl, fun hd => h.drop_two hc0 ?_⟩
    rintro rfl
    rw [hsep] at hd
    cases hd
  · exact ⟨false, rfl, by simp⟩

theorem exists_skipUnixSep {mask : List Byte} (h : Terminated mask) :
    ∃ r, skipUnixSep mask = some r ∧ ∀ rest, r = some rest → Terminated rest := by
  obtain ⟨m, t, rfl⟩ := h.exists_cons
  rw [skipUnixSep, List.head?_cons, Option.bind_some]
  split_ifs with hslash hback
  · refine ⟨_, rfl, ?_⟩
    intro rest hr
    obtain rfl := Option.some.inj hr
    refine h.tail ?_
    rw [hslash]
    decide
  · have hm0 : m ≠ 0 := by
      rw [hback]
      decide
    obtain ⟨m1, t', rfl⟩ := (h.tail hm0).exists_cons
    refine ⟨_, rfl, ?_⟩
    intro rest hr
    dsimp only at hr
    split_ifs at hr with h1
    obtain rfl := Option.some.inj hr
    refine h.drop_two hm0 ?_
    rw [h1]
    decide
  · exact ⟨none, rfl, by simp⟩

theorem exists_matchStyle (flags : BitVec 32) {mask name : List Byte} (hmask : Terminated mask)
    (hname : Terminated name) : ∃ rc, matchStyle flags mask name = some rc := by
  unfold matchStyle
  split_ifs
  · obtain ⟨b, hb, hname'⟩ := exists_twoSeps isOs2CompSep (by decide) hname
    obtain ⟨d, hd, hmask'⟩ := exists_twoSeps isOs2CompSep (by decide) hmask
    rw [hb, hd, Option.bind_some, Option.bind_some]
    split_ifs with h1 h2
    · exact exists_compLoop flags (hmask' h2) (hname' h1)
    · exact ⟨_, rfl⟩
    · exact exists_compLoop flags hmask hname
  · obtain ⟨b, hb, hname'⟩ := exists_twoSeps isUnixCompSep (by decide) hname
    rw [hb, Option.bind_some]
    split_ifs with h1
    · obtain ⟨r, hr, hrest⟩ := exists_skipUnixSep hmask
      rw [hr, Option.bind_some]
      cases r with
      | none => exact ⟨_, rfl⟩
      | some rest =>
        obtain ⟨r', hr', hrest'⟩ := exists_skipUnixSep (hrest rest rfl)
        dsimp only
        rw [hr', Option.bind_some]
        cases r' with
        | none => exact ⟨_, rfl⟩
        | some rest' => exact exists_matchUnix flags (hrest' rest' rfl) (hname' h1) _
    · exact exists_matchUnix flags hmask hname _
  · exact exists_compLoop flags hmask hname

theorem exists_drive {s : List Byte} (h : Terminated s) :
    ∃ d, drive s = some d ∧ Terminated (afterDrive d s) := by
  obtain ⟨c, t, rfl⟩ := h.exists_cons
  rw [drive, List.head?_cons, Option.bind_some]
  split_ifs with hc
  · have hc0 : c ≠ 0 := by
      rintro rfl
      exact absurd hc (by decide)
    obtain ⟨d, t', rfl⟩ := (h.tail hc0).exists_cons
    refine ⟨_, rfl, ?_⟩
    dsimp only
    split_ifs with hd
    · refine h.drop_two hc0 ?_
      rw [hd]
      decide
    · exact h
  · exact ⟨none, rfl, h⟩

/-- **`__mwdd32_fnmatch` is memory-safe and total**: for all strings and all flags it returns
    one of its three results and reads nothing past a null. -/
theorem exists_fnmatch (mask name : CStr) (flags : BitVec 32) :
    ∃ rc, fnmatch mask.buf name.buf flags = some rc ∧ rc.code ≤ 2 := by
  obtain ⟨d, hd, hmask⟩ := exists_drive mask.terminated_buf
  obtain ⟨e, he, hname⟩ := exists_drive name.terminated_buf
  obtain ⟨b, hb⟩ := exists_hasColon hmask
  obtain ⟨b', hb'⟩ := exists_hasColon hname
  obtain ⟨rc, hrc⟩ := exists_matchStyle flags hmask hname
  have hcode (rc : Rc) : rc.code ≤ 2 := by cases rc <;> decide
  rw [fnmatch, fnmatchUnsigned, hd, he, Option.bind_some, Option.bind_some, hb, hb',
    Option.bind_some, Option.bind_some, hrc]
  split_ifs <;> exact ⟨_, rfl, hcode _⟩

end Mwdd32.Util
