import Mwdd32.Util.Fnmatch

/-!
# Sets of characters

The sets `[...]`, `[!...]` and `[^...]` of the POSIX style. The comment of `match_unix` says
that an inverted set matches all characters not listed in it, but its loop sets `matched`
at every item that does not list the character.

Main results:

* `setLoop_text`: the loop reads the items of a set as they are written.
* `matchUnix_set`: what a set consumes.
* `consumesListed_iff`: an inverted set consumes what it should if and only if the character is
  listed in all of its items or in none.
-/

namespace Mwdd32.Util

/-! ## Sets -/

/-- The texts of a character `c` of an item: the character, or a backslash and the character. -/
inductive CharText (noescape : Bool) : List Byte → Byte → Prop
  | plain {c : Byte} (hc : c ≠ 0) (hback : noescape = true ∨ c ≠ ch '\\') :
      CharText noescape [c] c
  | escaped {c : Byte} (hc : c ≠ 0) (hescape : noescape = false) :
      CharText noescape [ch '\\', c] c

/-- The items between the brackets of a set, the ranges `c-d` with their ends and the
    characters as ranges of one. `first` tells whether the text is all of the items. -/
inductive ItemsText (noescape : Bool) : Bool → List Byte → List (Byte × Byte) → Prop
  | nil : ItemsText noescape false [] []
  /-- Only the first item may be a plain `]`. A `-` after a character makes a range, unless it is
      the last character of the set. -/
  | char {first : Bool} {s text : List Byte} {c : Byte} {items : List (Byte × Byte)}
      (hs : CharText noescape s c) (hfirst : first = true ∨ s.head? ≠ some (ch ']'))
      (hdash : text.head? = some (ch '-') → text = [ch '-'])
      (htext : ItemsText noescape false text items) :
      ItemsText noescape first (s ++ text) ((c, c) :: items)
  | range {first : Bool} {s t text : List Byte} {c d : Byte} {items : List (Byte × Byte)}
      (hs : CharText noescape s c) (hfirst : first = true ∨ s.head? ≠ some (ch ']'))
      (ht : CharText noescape t d) (hlast : t.head? ≠ some (ch ']'))
      (htext : ItemsText noescape false text items) :
      ItemsText noescape first (s ++ ch '-' :: (t ++ text)) ((c, d) :: items)

/-- A terminated set: the `!` or `^` that inverts it, and its items. -/
structure BracketSet (noescape : Bool) where
  mark : Option Byte
  text : List Byte
  items : List (Byte × Byte)
  mark_eq : ∀ m, mark = some m → m = ch '!' ∨ m = ch '^'
  text_head : mark = none → text.head? ≠ some (ch '!') ∧ text.head? ≠ some (ch '^')
  itemsText : ItemsText noescape true text items

/-- The set in a mask. -/
def BracketSet.mask {noescape : Bool} (set : BracketSet noescape) : List Byte :=
  ch '[' :: (set.mark.toList ++ set.text ++ [ch ']'])

/-- The character lies in the item. -/
def Lies (c : Byte) (item : Byte × Byte) : Prop := item.1 ≤ c ∧ c ≤ item.2

instance (c : Byte) (item : Byte × Byte) : Decidable (Lies c item) :=
  inferInstanceAs (Decidable (_ ∧ _))

/-- The set lists the character. -/
def BracketSet.lists {noescape : Bool} (set : BracketSet noescape) (c : Byte) : Bool :=
  set.items.any fun item => Lies c item

/-- Wherever the separator and dot rules allow the character, the set consumes it if
    `consumes` says so, and does not match otherwise. -/
def Consumes (flags : BitVec 32) (set : BracketSet (has flags FNM_NOESCAPE)) (c : Byte)
    (consumes : Bool) : Prop :=
  ∀ rest name comp, ¬ leadingDot flags (c :: name) comp →
    matchUnix flags (set.mask ++ rest) (c :: name) comp =
      if consumes then matchUnix flags rest name comp else some .nomatch

/-- What a set should consume: the characters it lists, or those it does not list if it is
    inverted. -/
def ConsumesListed (flags : BitVec 32) (set : BracketSet (has flags FNM_NOESCAPE))
    (c : Byte) : Prop :=
  Consumes flags set c (if set.mark = none then set.lists c else !set.lists c)

/-! ## The loop over the items -/

theorem CharText.ne_nil {noescape : Bool} {s : List Byte} {c : Byte} (h : CharText noescape s c) :
    ∃ d t, s = d :: t ∧ d ≠ 0 := by
  cases h with
  | plain hc => exact ⟨c, [], rfl, hc⟩
  | escaped => exact ⟨ch '\\', [c], rfl, by decide⟩

theorem ItemsText.items_ne_nil {noescape : Bool} {text : List Byte} {items : List (Byte × Byte)}
    (h : ItemsText noescape true text items) : items ≠ [] := by
  cases h with
  | char => exact List.cons_ne_nil _ _
  | range => exact List.cons_ne_nil _ _

section Items

variable {noescape : Bool} {s t text rest : List Byte} {c d : Byte} {items : List (Byte × Byte)}

/-- The first character of an item. -/
theorem setItem_charText (h : CharText noescape s c) :
    setItem noescape (s ++ text) = setRange noescape c text := by
  cases h with
  | plain hc hback =>
    rw [List.cons_append, setItem, if_neg, List.nil_append]
    rintro ⟨hescape, rfl⟩
    exact hback.elim hescape fun h => h rfl
  | escaped hc hescape =>
    rw [List.cons_append, setItem, if_pos ⟨by simp [hescape], rfl⟩, List.cons_append,
      List.head?_cons, Option.bind_some, if_neg hc]
    rfl

/-- No range follows the first character. -/
theorem setRange_char {text : List Byte} (hdash : text.head? = some (ch '-') → text = [ch '-']) :
    setRange noescape c (text ++ ch ']' :: rest) = some (text ++ ch ']' :: rest, some (c, c)) := by
  cases text with
  | nil => rfl
  | cons d text =>
    by_cases hd : d = ch '-'
    · subst hd
      obtain rfl : text = [] := List.cons.inj (hdash rfl) |>.2
      rfl
    · simp [setRange, hd]

/-- A range follows the first character. -/
theorem setRange_range (ht : CharText noescape t d) (hlast : t.head? ≠ some (ch ']')) :
    setRange noescape c (ch '-' :: (t ++ text)) = some (text, some (c, d)) := by
  cases ht with
  | plain hd hback =>
    have hend : d ≠ ch ']' := fun h => hlast (congrArg some h)
    have hescape : ¬ (¬ noescape = true ∧ d = ch '\\') := by
      rintro ⟨h, rfl⟩
      exact hback.elim h fun h => h rfl
    rw [setRange, List.head?_cons, Option.bind_some, if_pos rfl, List.tail_cons, List.cons_append,
      List.head?_cons, Option.bind_some, if_pos hend]
    dsimp only
    rw [if_neg hescape, List.head?_cons, Option.map_some, if_neg hd]
    rfl
  | escaped hd hescape =>
    rw [setRange, List.head?_cons, Option.bind_some, if_pos rfl, List.tail_cons, List.cons_append,
      List.head?_cons, Option.bind_some, if_pos (by decide)]
    dsimp only
    rw [if_pos ⟨by simp [hescape], rfl⟩, List.cons_append, List.tail_cons, List.head?_cons,
      Option.map_some, if_neg hd]
    rfl

/-- An item of the loop. -/
theorem setLoop_item {invert first matched : Bool} {n : Byte} {mask : List Byte}
    {item : Byte × Byte}
    (hc : c ≠ 0) (hfirst : first = true ∨ c ≠ ch ']')
    (hitem : setItem noescape (c :: mask) = some (rest, some item)) :
    setLoop noescape invert n first matched (c :: mask) =
      setLoop noescape invert n false (setMatched invert matched n item) rest := by
  have hstop : ¬ (c = 0 ∨ c = ch ']' ∧ ¬ first = true) := by
    rintro (h | ⟨h, hnot⟩)
    · exact hc h
    · exact hfirst.elim hnot fun hne => hne h
  rw [setLoop, if_neg hstop]
  split
  · rename_i h
    rw [hitem] at h
    cases h
  · rename_i h
    rw [hitem] at h
    cases h
  · rename_i h
    rw [hitem] at h
    cases h
    rfl

theorem setLoop_append {invert first matched : Bool} {n : Byte} {mask : List Byte}
    {item : Byte × Byte}
    (hs : CharText noescape s c) (hfirst : first = true ∨ s.head? ≠ some (ch ']'))
    (hitem : setRange noescape c mask = some (rest, some item)) :
    setLoop noescape invert n first matched (s ++ mask) =
      setLoop noescape invert n false (setMatched invert matched n item) rest := by
  rw [← setItem_charText hs] at hitem
  obtain ⟨d, t, rfl, hd⟩ := hs.ne_nil
  exact setLoop_item hd (hfirst.imp_right fun h h' => h (congrArg some h')) hitem

/-- The loop reads the items as they are written. -/
theorem setLoop_text {invert first matched : Bool} {n : Byte}
    (h : ItemsText noescape first text items) :
    setLoop noescape invert n first matched (text ++ ch ']' :: rest) =
      some (ch ']' :: rest, items.foldl (fun matched item => setMatched invert matched n item)
        matched) := by
  induction h generalizing matched with
  | nil =>
    rw [List.nil_append, setLoop, if_pos (.inr ⟨rfl, by simp⟩)]
    rfl
  | char hs hfirst hdash htext ih =>
    rw [List.append_assoc, setLoop_append hs hfirst (setRange_char hdash), ih, List.foldl_cons]
  | range hs hfirst ht hlast htext ih =>
    rw [List.append_assoc, List.cons_append, List.append_assoc,
      setLoop_append hs hfirst (setRange_range ht hlast), ih, List.foldl_cons]

/-- An item sets `matched` if the character lies in it, under `invert` if it does not. -/
theorem setMatched_eq (invert matched : Bool) (n : Byte) (item : Byte × Byte) :
    setMatched invert matched n item = (matched || (decide (Lies n item) ^^ invert)) := by
  unfold setMatched
  by_cases h : Lies n item
  · have hmem : item.1 ≤ n ∧ n ≤ item.2 := h
    rw [if_pos hmem, decide_eq_true h, Bool.true_xor]
  · have hmem : ¬ (item.1 ≤ n ∧ n ≤ item.2) := h
    rw [if_neg hmem, decide_eq_false h, Bool.false_xor]

theorem foldl_setMatched (invert matched : Bool) (n : Byte) (items : List (Byte × Byte)) :
    items.foldl (fun matched item => setMatched invert matched n item) matched =
      (matched || items.any fun item => decide (Lies n item) ^^ invert) := by
  induction items generalizing matched with
  | nil => rw [List.foldl_nil, List.any_nil, Bool.or_false]
  | cons item items ih => rw [List.foldl_cons, ih, setMatched_eq, List.any_cons, Bool.or_assoc]

end Items

/-! ## What a set consumes -/

section Sets

variable {flags : BitVec 32} (set : BracketSet (has flags FNM_NOESCAPE)) {c : Byte}

/-- The character lies outside some item. -/
def BracketSet.misses {noescape : Bool} (set : BracketSet noescape) (c : Byte) : Bool :=
  set.items.any fun item => !decide (Lies c item)

/-- The first character after the bracket tells whether the set is inverted. -/
theorem BracketSet.inverted_iff {noescape : Bool} (set : BracketSet noescape) {m : Byte}
    {mask : List Byte}
    (hmask : set.mark.toList ++ set.text ++ [ch ']'] = m :: mask) :
    (m = ch '!' ∨ m = ch '^') ↔ set.mark ≠ none := by
  cases hmark : set.mark with
  | some mark =>
    rw [hmark, Option.toList_some, List.cons_append, List.cons_append] at hmask
    obtain ⟨rfl, -⟩ := List.cons.inj hmask
    exact iff_of_true (set.mark_eq mark hmark) (by simp)
  | none =>
    refine iff_of_false ?_ (by simp)
    obtain ⟨hbang, hcaret⟩ := set.text_head hmark
    rw [hmark, Option.toList_none, List.nil_append] at hmask
    cases htext : set.text with
    | nil =>
      rw [htext, List.nil_append] at hmask
      obtain ⟨rfl, -⟩ := List.cons.inj hmask
      decide
    | cons c text =>
      rw [htext, List.cons_append] at hmask
      obtain ⟨rfl, -⟩ := List.cons.inj hmask
      rw [htext] at hbang hcaret
      rintro (rfl | rfl)
      · exact hbang rfl
      · exact hcaret rfl

/-- The set is read to its end, as it is written. -/
theorem matchSet_mask (c : Byte) (rest : List Byte) :
    matchSet flags c (set.mark.toList ++ set.text ++ [ch ']'] ++ rest) =
      some (if (if set.mark = none then set.lists c else set.misses c) then some rest
        else none) := by
  obtain ⟨m, mask, hmask⟩ := List.exists_cons_of_ne_nil
    (l := set.mark.toList ++ set.text ++ [ch ']']) (by simp)
  have hstart : (if set.mark ≠ none then mask ++ rest else m :: mask ++ rest) =
      set.text ++ ch ']' :: rest := by
    cases hmark : set.mark with
    | none =>
      rw [hmark, Option.toList_none, List.nil_append] at hmask
      rw [if_neg (by simp), ← hmask, List.append_assoc, List.singleton_append]
    | some mark =>
      rw [hmark, Option.toList_some, List.cons_append, List.cons_append] at hmask
      obtain ⟨-, rfl⟩ := List.cons.inj hmask
      rw [if_pos (by simp), List.append_assoc, List.append_assoc]
      rfl
  rw [hmask, matchSet, List.cons_append, List.head?_cons, Option.bind_some]
  simp only [set.inverted_iff hmask, decide_eq_true_eq, List.tail_cons]
  rw [List.cons_append] at hstart
  rw [hstart, setLoop_text set.itemsText, Option.bind_some, List.head?_cons, Option.map_some,
    if_neg (by decide), foldl_setMatched, Bool.false_or, List.tail_cons]
  cases hmark : set.mark with
  | none =>
    simp only [ne_eq, not_true_eq_false, decide_false, Bool.xor_false, if_true, BracketSet.lists]
    split_ifs <;> rfl
  | some mark =>
    simp only [ne_eq, reduceCtorEq, not_false_eq_true, decide_true, Bool.xor_true, if_false,
      BracketSet.misses]
    split_ifs <;> rfl

/-- An inverted set consumes the characters that miss one of its items. -/
theorem matchUnix_set (hc : c ≠ 0) (hsep : ¬ sepStops flags c) :
    Consumes flags set c (if set.mark = none then set.lists c else set.misses c) := by
  intro rest name comp hdot
  have hallowed : ¬ (c = 0 ∨ sepStops flags c ∨ leadingDot flags (c :: name) comp) :=
    not_or.mpr ⟨hc, not_or.mpr ⟨hsep, hdot⟩⟩
  rw [BracketSet.mask, List.cons_append, matchUnix_bracket, if_neg hallowed, matchSet_mask,
    Option.bind_some]
  split_ifs <;> rfl

/-- Only one answer is right. -/
theorem consumes_iff {a b : Bool} (h : Consumes flags set c a) :
    Consumes flags set c b ↔ a = b := by
  constructor
  · intro hb
    -- the set is the whole mask, and `c` the whole name
    have hdot : ¬ leadingDot flags [c, 0] [] := fun h => absurd h.2.2 (by simp)
    have hab := (h [0] [0] [] hdot).symm.trans (hb [0] [0] [] hdot)
    rw [matchUnix_null, if_pos rfl] at hab
    revert hab
    cases a <;> cases b <;> simp
  · rintro rfl
    exact h

/-- **A set consumes what it should** if and only if it is not inverted, or the character lies in
    all of its items, or in none of them. -/
theorem consumesListed_iff (hc : c ≠ 0) (hsep : ¬ sepStops flags c) :
    ConsumesListed flags set c ↔
      set.mark = none ∨ (∀ item ∈ set.items, Lies c item) ∨ ∀ item ∈ set.items, ¬ Lies c item := by
  rw [ConsumesListed, consumes_iff set (matchUnix_set set hc hsep)]
  by_cases hmark : set.mark = none
  · simp [hmark]
  · obtain ⟨item, hitem⟩ := List.exists_mem_of_ne_nil _ set.itemsText.items_ne_nil
    rw [if_neg hmark, if_neg hmark, or_iff_right hmark]
    -- the character misses some item, or is in all of them
    by_cases hmiss : set.misses c = true
    · have hsome : ¬ ∀ item ∈ set.items, Lies c item := by
        obtain ⟨item, hmem, h⟩ := List.any_eq_true.mp hmiss
        exact fun hall => by simp [hall item hmem] at h
      rw [hmiss, or_iff_right hsome, eq_comm, Bool.not_eq_true', BracketSet.lists,
        List.any_eq_false]
      simp only [decide_eq_true_eq]
    · have hall : ∀ item ∈ set.items, Lies c item := by
        rw [Bool.not_eq_true, BracketSet.misses, List.any_eq_false] at hmiss
        simpa using hmiss
      have hlists : set.lists c = true :=
        List.any_eq_true.mpr ⟨item, hitem, decide_eq_true (hall item hitem)⟩
      exact iff_of_true (by rw [hlists, Bool.eq_false_iff.mpr hmiss, Bool.not_true]) (.inl hall)

end Sets

/-- The set `[!ab]`. -/
def notAB : BracketSet false where
  mark := some (ch '!')
  text := [ch 'a', ch 'b']
  items := [(ch 'a', ch 'a'), (ch 'b', ch 'b')]
  mark_eq := by simp
  text_head := by simp
  itemsText := .char (.plain (by decide) (.inr (by decide))) (.inl rfl) (by decide)
    (.char (.plain (by decide) (.inr (by decide))) (.inr (by decide)) (by decide) .nil)

theorem consumesListed_iff_sample :
    ConsumesListed FNM_POSIX notAB (ch 'c') ↔
      notAB.mark = none ∨ (∀ item ∈ notAB.items, Lies (ch 'c') item) ∨
        ∀ item ∈ notAB.items, ¬ Lies (ch 'c') item :=
  @consumesListed_iff FNM_POSIX notAB (ch 'c') (by decide) (by decide)

/-- `[!ab]` consumes `a`. -/
theorem not_consumesListed_sample : ¬ ConsumesListed FNM_POSIX notAB (ch 'a') := by
  intro h
  have hsep : ¬ sepStops FNM_POSIX (ch 'a') := by decide
  have hset := @matchUnix_set FNM_POSIX notAB (ch 'a') (by decide) hsep
  have heq := (@consumes_iff FNM_POSIX notAB (ch 'a') _ _ hset).mp h
  revert heq
  decide

end Mwdd32.Util
