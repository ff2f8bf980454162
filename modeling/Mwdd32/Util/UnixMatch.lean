import Mwdd32.Util.FnmatchSets
import Mwdd32.Util.PathPrefix

/-!
# Paths in POSIX style

What `match_unix` matches, under all flags: the relation `UnixMatch` reads a mask item by item, the
sets among the items as they are written.

* `decides_matchUnix`: the matcher decides it.
* `fnmatch_posix_iff`: the whole function, with drives and UNC prefixes.
-/

namespace Mwdd32.Util

/-! ## Specification -/

/-- What is left of a name is a dot at the start of a component, under `FNM_PERIOD`. -/
def Hidden (flags : BitVec 32) (start : Bool) (name : List Byte) : Prop :=
  name.head? = some (ch '.') ∧ has flags FNM_PERIOD = true ∧ start = true

/-- A character that a `?` or a set may consume. -/
def Free (flags : BitVec 32) (start : Bool) (n : Byte) : Prop :=
  ¬ sepStops flags n ∧ ¬ Hidden flags start [n]

/-- The character is consumed by the set, wherever it is free. -/
def BracketSet.takes {noescape : Bool} (set : BracketSet noescape) (c : Byte) : Bool :=
  if set.mark = none then set.lists c else set.misses c

/-- A mask against what is left of a name, where `start` tells whether that starts a component. -/
inductive UnixMatch (flags : BitVec 32) : Bool → List Byte → List Byte → Prop
  | nil {start : Bool} : UnixMatch flags start [] []
  /-- Under `_FNM_PATHPREFIX` the name may go on at a separator, -/
  | nilPrefix {start : Bool} {name : List Byte} (hpre : has flags FNM_PATHPREFIX = true) :
      UnixMatch flags start [] (ch '/' :: name)
  /-- and the mask may end with a separator, and a backslash, that the name lacks. -/
  | slashPrefix {start : Bool} {mask : List Byte} (hpre : has flags FNM_PATHPREFIX = true)
      (hmask : mask = [] ∨ has flags FNM_NOESCAPE = false ∧ mask = [ch '\\']) :
      UnixMatch flags start (ch '/' :: mask) []
  | slash {start : Bool} {mask name : List Byte}
      (h : UnixMatch flags (has flags FNM_PATHNAME) mask name) :
      UnixMatch flags start (ch '/' :: mask) (ch '/' :: name)
  | question {start : Bool} {n : Byte} {mask name : List Byte} (hn : Free flags start n)
      (h : UnixMatch flags false mask name) : UnixMatch flags start (ch '?' :: mask) (n :: name)
  /-- `*` consumes any characters, under `FNM_PATHNAME` any but separators. -/
  | star {start : Bool} {s mask name : List Byte} (hdot : ¬ Hidden flags start (s ++ name))
      (hs : ∀ c ∈ s, ¬ sepStops flags c) (h : UnixMatch flags (start && s.isEmpty) mask name) :
      UnixMatch flags start (ch '*' :: mask) (s ++ name)
  | set {start : Bool} {n : Byte} {mask rest name : List Byte}
      (set : BracketSet (has flags FNM_NOESCAPE))
      (hset : ch '[' :: mask = set.mask ++ rest) (hn : Free flags start n)
      (htakes : set.takes n = true) (h : UnixMatch flags false rest name) :
      UnixMatch flags start (ch '[' :: mask) (n :: name)
  /-- A `[` that no `]` ends is an ordinary character. -/
  | bracket {start : Bool} {mask name : List Byte}
      (hset : ¬ ∃ (set : BracketSet (has flags FNM_NOESCAPE)) (rest : List Byte),
        ch '[' :: mask = set.mask ++ rest)
      (h : UnixMatch flags false mask name) :
      UnixMatch flags start (ch '[' :: mask) (ch '[' :: name)
  /-- A backslash takes the meaning from `*` and `?`, -/
  | escape {start : Bool} {m : Byte} {mask name : List Byte}
      (hescape : has flags FNM_NOESCAPE = false) (hm : m = ch '*' ∨ m = ch '?')
      (h : UnixMatch flags false mask name) :
      UnixMatch flags start (ch '\\' :: m :: mask) (m :: name)
  /-- is ignored in front of anything else, -/
  | ignored {start : Bool} {mask name : List Byte} (hescape : has flags FNM_NOESCAPE = false)
      (hmask : mask.head? ≠ some (ch '*') ∧ mask.head? ≠ some (ch '?'))
      (h : UnixMatch flags start mask name) :
      UnixMatch flags start (ch '\\' :: mask) name
  /-- and is an ordinary character under `FNM_NOESCAPE`. -/
  | backslash {start : Bool} {mask name : List Byte} (hescape : has flags FNM_NOESCAPE = true)
      (h : UnixMatch flags false mask name) :
      UnixMatch flags start (ch '\\' :: mask) (ch '\\' :: name)
  /-- Other characters consume an equal character. -/
  | char {start : Bool} {c n : Byte} {mask name : List Byte} (hq : c ≠ ch '?') (hstar : c ≠ ch '*')
      (hslash : c ≠ ch '/') (hbracket : c ≠ ch '[') (hback : c ≠ ch '\\')
      (hfold : fold flags c = fold flags n) (h : UnixMatch flags false mask name) :
      UnixMatch flags start (c :: mask) (n :: name)

/-! ## One item of the mask -/

section Items

variable {flags : BitVec 32} {start : Bool} {mask name : List Byte}

theorem unixMatch_nil_iff : UnixMatch flags start [] name ↔
    name = [] ∨ has flags FNM_PATHPREFIX = true ∧ name.head? = some (ch '/') := by
  constructor
  · intro h
    cases h with
    | nil => exact .inl rfl
    | nilPrefix hpre => exact .inr ⟨hpre, rfl⟩
  · rintro (rfl | ⟨hpre, hname⟩)
    · exact .nil
    · obtain ⟨name, rfl⟩ := List.head?_eq_some_iff.mp hname
      exact .nilPrefix hpre

theorem unixMatch_slash_iff :
    UnixMatch flags start (ch '/' :: mask) (ch '/' :: name) ↔
      UnixMatch flags (has flags FNM_PATHNAME) mask name := by
  constructor
  · intro h
    cases h with
    | slash h => exact h
    | char _ _ hslash => exact absurd rfl hslash
  · exact .slash

theorem unixMatch_slash_nil_iff :
    UnixMatch flags start (ch '/' :: mask) [] ↔
      has flags FNM_PATHPREFIX = true ∧
        (mask = [] ∨ has flags FNM_NOESCAPE = false ∧ mask = [ch '\\']) := by
  constructor
  · intro h
    cases h with
    | slashPrefix hpre hmask => exact ⟨hpre, hmask⟩
  · exact fun h => .slashPrefix h.1 h.2

theorem not_unixMatch_slash {n : Byte} (hn : n ≠ ch '/') :
    ¬ UnixMatch flags start (ch '/' :: mask) (n :: name) := by
  intro h
  cases h with
  | slash => exact hn rfl
  | char _ _ hslash => exact hslash rfl

theorem unixMatch_question_iff {n : Byte} :
    UnixMatch flags start (ch '?' :: mask) (n :: name) ↔ Free flags start n ∧
      UnixMatch flags false mask name := by
  constructor
  · intro h
    cases h with
    | question hn h => exact ⟨hn, h⟩
    | char hq => exact absurd rfl hq
  · exact fun h => .question h.1 h.2

theorem not_unixMatch_question_nil : ¬ UnixMatch flags start (ch '?' :: mask) [] := by
  intro h
  cases h

theorem unixMatch_star_iff :
    UnixMatch flags start (ch '*' :: mask) name ↔ ¬ Hidden flags start name ∧
      ∃ s t, name = s ++ t ∧ (∀ c ∈ s, ¬ sepStops flags c) ∧
        UnixMatch flags (start && s.isEmpty) mask t := by
  constructor
  · intro h
    cases h with
    | star hdot hs h => exact ⟨hdot, _, _, rfl, hs, h⟩
    | char _ hstar => exact absurd rfl hstar
  · rintro ⟨hdot, s, t, rfl, hs, h⟩
    exact .star hdot hs h

theorem unixMatch_star_star_iff :
    UnixMatch flags start (ch '*' :: ch '*' :: mask) name ↔
      UnixMatch flags start (ch '*' :: mask) name := by
  rw [unixMatch_star_iff]
  constructor
  · rintro ⟨hdot, s, t, rfl, hs, h⟩
    obtain ⟨-, s', t', rfl, hs', h⟩ := unixMatch_star_iff.mp h
    have hempty : (start && s.isEmpty && s'.isEmpty) = (start && (s ++ s').isEmpty) := by
      cases s <;> simp
    rw [hempty] at h
    rw [← List.append_assoc] at hdot ⊢
    exact .star hdot (fun c hc => (List.mem_append.mp hc).elim (hs c) (hs' c)) h
  · intro h
    obtain ⟨hdot, -⟩ := unixMatch_star_iff.mp h
    exact ⟨hdot, [], name, rfl, by simp, by simpa using h⟩

theorem unixMatch_bracket_iff {n : Byte}
    (hset : ¬ ∃ (set : BracketSet (has flags FNM_NOESCAPE)) (rest : List Byte),
      ch '[' :: mask = set.mask ++ rest) :
    UnixMatch flags start (ch '[' :: mask) (n :: name) ↔
      n = ch '[' ∧ UnixMatch flags false mask name := by
  constructor
  · intro h
    cases h with
    | set set hmask => exact absurd ⟨set, _, hmask⟩ hset
    | bracket _ h => exact ⟨rfl, h⟩
    | char _ _ _ hbracket => exact absurd rfl hbracket
  · rintro ⟨rfl, h⟩
    exact .bracket hset h

theorem not_unixMatch_bracket_nil : ¬ UnixMatch flags start (ch '[' :: mask) [] := by
  intro h
  cases h

theorem unixMatch_escape_iff {m n : Byte} (hescape : has flags FNM_NOESCAPE = false)
    (hm : m = ch '*' ∨ m = ch '?') :
    UnixMatch flags start (ch '\\' :: m :: mask) (n :: name) ↔ m = n ∧
      UnixMatch flags false mask name := by
  constructor
  · intro h
    cases h with
    | escape _ _ h => exact ⟨rfl, h⟩
    | ignored _ hmask =>
      rcases hm with rfl | rfl
      · exact absurd rfl hmask.1
      · exact absurd rfl hmask.2
    | backslash hnot => exact absurd (hescape.symm.trans hnot) Bool.false_ne_true
    | char _ _ _ _ hback => exact absurd rfl hback
  · rintro ⟨rfl, h⟩
    exact .escape hescape hm h

theorem not_unixMatch_escape_nil {m : Byte} (hm : m = ch '*' ∨ m = ch '?') :
    ¬ UnixMatch flags start (ch '\\' :: m :: mask) [] := by
  intro h
  cases h with
  | ignored _ hmask =>
    rcases hm with rfl | rfl
    · exact hmask.1 rfl
    · exact hmask.2 rfl

theorem unixMatch_ignored_iff (hescape : has flags FNM_NOESCAPE = false)
    (hmask : mask.head? ≠ some (ch '*') ∧ mask.head? ≠ some (ch '?')) :
    UnixMatch flags start (ch '\\' :: mask) name ↔ UnixMatch flags start mask name := by
  constructor
  · intro h
    cases h with
    | escape _ hm =>
      rcases hm with rfl | rfl
      · exact absurd rfl hmask.1
      · exact absurd rfl hmask.2
    | ignored _ _ h => exact h
    | backslash hnot => exact absurd (hescape.symm.trans hnot) Bool.false_ne_true
    | char _ _ _ _ hback => exact absurd rfl hback
  · exact .ignored hescape hmask

theorem unixMatch_backslash_iff {n : Byte} (hescape : has flags FNM_NOESCAPE = true) :
    UnixMatch flags start (ch '\\' :: mask) (n :: name) ↔ n = ch '\\' ∧
      UnixMatch flags false mask name := by
  constructor
  · intro h
    cases h with
    | escape hnot => exact absurd (hescape.symm.trans hnot).symm Bool.false_ne_true
    | ignored hnot => exact absurd (hescape.symm.trans hnot).symm Bool.false_ne_true
    | backslash _ h => exact ⟨rfl, h⟩
    | char _ _ _ _ hback => exact absurd rfl hback
  · rintro ⟨rfl, h⟩
    exact .backslash hescape h

theorem not_unixMatch_backslash_nil (hescape : has flags FNM_NOESCAPE = true) :
    ¬ UnixMatch flags start (ch '\\' :: mask) [] := by
  intro h
  cases h with
  | ignored hnot => exact absurd (hescape.symm.trans hnot).symm Bool.false_ne_true

theorem unixMatch_char_iff {c n : Byte} (hq : c ≠ ch '?') (hstar : c ≠ ch '*') (hslash : c ≠ ch '/')
    (hbracket : c ≠ ch '[') (hback : c ≠ ch '\\') :
    UnixMatch flags start (c :: mask) (n :: name) ↔
      fold flags c = fold flags n ∧ UnixMatch flags false mask name := by
  constructor
  · intro h
    generalize hcons : n :: name = rest at h
    cases h with
    | slashPrefix => exact absurd rfl hslash
    | slash => exact absurd rfl hslash
    | question => exact absurd rfl hq
    | star => exact absurd rfl hstar
    | set => exact absurd rfl hbracket
    | bracket => exact absurd rfl hbracket
    | escape => exact absurd rfl hback
    | ignored => exact absurd rfl hback
    | backslash => exact absurd rfl hback
    | char _ _ _ _ _ hfold h =>
      obtain ⟨rfl, rfl⟩ := List.cons.inj hcons
      exact ⟨hfold, h⟩
  · exact fun h => .char hq hstar hslash hbracket hback h.1 h.2

theorem not_unixMatch_char_nil {c : Byte} (hq : c ≠ ch '?') (hstar : c ≠ ch '*')
    (hslash : c ≠ ch '/')
    (hbracket : c ≠ ch '[') (hback : c ≠ ch '\\') : ¬ UnixMatch flags start (c :: mask) [] := by
  intro h
  generalize hnil : ([] : List Byte) = rest at h
  cases h with
  | slashPrefix => exact hslash rfl
  | slash => exact hslash rfl
  | question => exact hq rfl
  | star => exact hstar rfl
  | set => exact hbracket rfl
  | bracket => exact hbracket rfl
  | escape => exact hback rfl
  | ignored => exact hback rfl
  | backslash => exact hback rfl
  | char => cases hnil

end Items

/-! ## Sets as they are read -/

section Sets

variable {noescape invert first matched : Bool} {c n : Byte} {mask : List Byte}

/-- A character of an item is read, but for a backslash at the end. -/
theorem charText_cases (noescape : Bool) (hmask : ∀ d ∈ c :: mask, d ≠ 0) :
    (noescape = false ∧ c :: mask = [ch '\\']) ∨
      ∃ s c1 text, c :: mask = s ++ text ∧ CharText noescape s c1 ∧ s.head? = some c := by
  have hc : c ≠ 0 := hmask c List.mem_cons_self
  by_cases hback : noescape = false ∧ c = ch '\\'
  · obtain ⟨rfl, rfl⟩ := hback
    cases mask with
    | nil => exact .inl ⟨rfl, rfl⟩
    | cons c1 mask =>
      exact .inr ⟨[ch '\\', c1], c1, mask, rfl, .escaped (hmask c1 (by simp)) rfl, rfl⟩
  · have hplain : noescape = true ∨ c ≠ ch '\\' := by
      cases noescape with
      | true => exact .inl rfl
      | false => exact .inr fun h => hback ⟨rfl, h⟩
    exact .inr ⟨[c], c, mask, rfl, .plain hc hplain, rfl⟩

/-- What follows the first character of an item: the mask ends, there is no range, or there is
    one. -/
theorem setRange_cases (noescape : Bool) (c1 : Byte) {text : List Byte}
    (htext : ∀ d ∈ text, d ≠ 0) :
    setRange noescape c1 (text ++ [0]) = some ([0], none) ∨
      ((text.head? = some (ch '-') → text.tail.head? = some (ch ']')) ∧
        setRange noescape c1 (text ++ [0]) = some (text ++ [0], some (c1, c1))) ∨
      ∃ t d rest, text = ch '-' :: (t ++ rest) ∧ CharText noescape t d ∧
        t.head? ≠ some (ch ']') := by
  cases text with
  | nil => exact .inr (.inl ⟨by simp, rfl⟩)
  | cons d text =>
    by_cases hdash : d = ch '-'
    · subst hdash
      cases text with
      | nil => exact .inl (by cases noescape <;> rfl)
      | cons d text =>
        by_cases hend : d = ch ']'
        · subst hend
          exact .inr (.inl ⟨fun _ => rfl, rfl⟩)
        · rcases charText_cases noescape (fun e he => htext e (List.mem_cons_of_mem _ he)) with
            ⟨rfl, hback⟩ | ⟨t, e, rest, hsplit, ht, hhead⟩
          · obtain ⟨rfl, rfl⟩ := List.cons.inj hback
            exact .inl rfl
          · refine .inr (.inr ⟨t, e, rest, by rw [hsplit], ht, fun h => ?_⟩)
            exact hend (Option.some.inj (hhead.symm.trans h))
    · refine .inr (.inl ⟨fun h => absurd (Option.some.inj h) hdash, ?_⟩)
      simp [setRange, hdash]

/-- The loop stops where the mask ends. -/
theorem setLoop_break (hc : c ≠ 0) (hfirst : first = true ∨ c ≠ ch ']')
    (hitem : setItem noescape (c :: mask ++ [0]) = some ([0], none)) :
    setLoop noescape invert n first matched (c :: mask ++ [0]) = some ([0], matched) := by
  have hstop : ¬ (c = 0 ∨ c = ch ']' ∧ ¬ first = true) := by
    rintro (h | ⟨h, hnot⟩)
    · exact hc h
    · exact hfirst.elim hnot fun hne => hne h
  rw [List.cons_append] at hitem ⊢
  rw [setLoop, if_neg hstop]
  split
  · rename_i h
    rw [hitem] at h
    cases h
  · rename_i h
    rw [hitem] at h
    cases h
    rfl
  · rename_i h
    rw [hitem] at h
    cases h

/-- The loop reads to the end of the mask, or the items up to a `]`. -/
theorem setLoop_cases {mask : List Byte} (hmask : ∀ d ∈ mask, d ≠ 0) :
    (∃ result, setLoop noescape invert n first matched (mask ++ [0]) = some ([0], result)) ∨
      ∃ text items rest, mask = text ++ ch ']' :: rest ∧ ItemsText noescape first text items := by
  induction hlen : mask.length using Nat.strong_induction_on generalizing mask first matched with
  | _ len ih =>
    cases mask with
    | nil => exact .inl ⟨matched, by rw [List.nil_append, setLoop, if_pos (.inl rfl)]⟩
    | cons c mask =>
      have hc : c ≠ 0 := hmask c List.mem_cons_self
      by_cases hend : c = ch ']' ∧ first = false
      · obtain ⟨rfl, rfl⟩ := hend
        exact .inr ⟨[], [], mask, rfl, .nil⟩
      · have hfirst : first = true ∨ c ≠ ch ']' := by
          cases first with
          | true => exact .inl rfl
          | false => exact .inr fun h => hend ⟨h, rfl⟩
        rcases charText_cases noescape hmask with ⟨rfl, hback⟩ | ⟨s, c1, text, hsplit, hs, hhead⟩
        · refine .inl ⟨matched, setLoop_break hc hfirst ?_⟩
          rw [hback]
          rfl
        · have hs' : first = true ∨ s.head? ≠ some (ch ']') :=
            hfirst.imp_right fun h h' => h (Option.some.inj (hhead.symm.trans h'))
          have htext : ∀ d ∈ text, d ≠ 0 :=
            fun d hd => hmask d (hsplit ▸ List.mem_append_right s hd)
          have hlt : text.length < len := by
            obtain ⟨e, t, rfl, -⟩ := hs.ne_nil
            have := congrArg List.length hsplit
            simp only [List.length_cons, List.length_append] at this hlen
            omega
          rcases setRange_cases noescape c1 htext with
            hbreak | ⟨hdash, hchar⟩ | ⟨t, d, rest, rfl, ht, hlast⟩
          · refine .inl ⟨matched, setLoop_break hc hfirst ?_⟩
            rw [hsplit, List.append_assoc, setItem_charText hs, hbreak]
          · by_cases hd : text.head? = some (ch '-')
            · -- a `-` in front of the `]`
              obtain ⟨text', rfl⟩ := List.head?_eq_some_iff.mp hd
              obtain ⟨rest, rfl⟩ := List.head?_eq_some_iff.mp (hdash hd)
              refine .inr ⟨s ++ [ch '-'], [(c1, c1), (ch '-', ch '-')],
                rest, by simpa using hsplit, ?_⟩
              exact .char hs hs' (fun _ => rfl)
                (.char (.plain (by decide) (.inr (by decide))) (.inr (by decide)) (by simp) .nil)
            · have hloop : setLoop noescape invert n first matched (s ++ (text ++ [0])) = _ :=
                setLoop_append hs hs' hchar
              rw [hsplit, List.append_assoc, hloop]
              rcases ih _ hlt htext rfl with hread | ⟨text', items, rest, rfl, hitems⟩
              · exact .inl hread
              · refine .inr ⟨s ++ text', (c1, c1) :: items, rest, by rw [List.append_assoc], ?_⟩
                exact .char hs hs' (fun h => absurd (by simp [h]) hd) hitems
          · have hrange : setRange noescape c1 (ch '-' :: (t ++ (rest ++ [0]))) = _ :=
              setRange_range ht hlast
            have hloop : setLoop noescape invert n first matched
                (s ++ (ch '-' :: (t ++ (rest ++ [0])))) = _ :=
              setLoop_append hs hs' hrange
            have hrest : ∀ e ∈ rest, e ≠ 0 := fun e he => htext e (by simp [he])
            have hlt' : rest.length < len := by
              simp only [List.length_cons, List.length_append] at hlt
              omega
            rw [hsplit, List.append_assoc, List.cons_append, List.append_assoc, hloop]
            rcases ih _ hlt' hrest rfl with hread | ⟨text, items, rest, rfl, hitems⟩
            · exact .inl hread
            · refine .inr ⟨s ++ ch '-' :: (t ++ text), (c1, d) :: items, rest, by simp, ?_⟩
              exact .range hs hs' ht hlast hitems

/-- What follows a `[` is a set, or there is no `]` to end one. -/
theorem matchSet_cases (flags : BitVec 32) (n : Byte) (hmask : ∀ d ∈ mask, d ≠ 0) :
    (∃ (set : BracketSet (has flags FNM_NOESCAPE)) (rest : List Byte),
      ch '[' :: mask = set.mask ++ rest) ∨
      matchSet flags n (mask ++ [0]) = some (if n ≠ ch '[' then none else some (mask ++ [0])) := by
  have hread : ∀ (invert : Bool) {start : List Byte}, (∀ d ∈ start, d ≠ 0) →
      (∃ result, setLoop (has flags FNM_NOESCAPE) invert n true false (start ++ [0]) =
        some ([0], result)) ∨
        ∃ text items rest, start = text ++ ch ']' :: rest ∧
          ItemsText (has flags FNM_NOESCAPE) true text items :=
    fun _ => setLoop_cases
  by_cases hinvert : ∃ m start, mask = m :: start ∧ (m = ch '!' ∨ m = ch '^')
  · obtain ⟨m, start, rfl, hm⟩ := hinvert
    rcases hread true (fun d hd => hmask d (List.mem_cons_of_mem m hd)) with
      ⟨result, h⟩ | ⟨text, items, rest, rfl, hitems⟩
    · right
      rw [List.cons_append, matchSet, List.head?_cons, Option.bind_some, decide_eq_true hm]
      dsimp only
      rw [if_pos rfl, List.tail_cons, h]
      rfl
    · have hmark : ∀ m', some m = some m' → m' = ch '!' ∨ m' = ch '^' := by
        rintro _ ⟨⟩
        exact hm
      exact .inl ⟨⟨some m, text, items, hmark, (by simp), hitems⟩, rest, by simp [BracketSet.mask]⟩
  · rcases hread false hmask with ⟨result, h⟩ | ⟨text, items, rest, rfl, hitems⟩
    · right
      obtain ⟨m, start, hm⟩ := List.exists_cons_of_ne_nil (l := mask ++ [0]) (by simp)
      have hplain : ¬ (m = ch '!' ∨ m = ch '^') := by
        cases mask with
        | nil =>
          obtain ⟨rfl, -⟩ := List.cons.inj hm
          decide
        | cons c mask =>
          obtain ⟨rfl, -⟩ := List.cons.inj hm
          exact fun h => hinvert ⟨c, mask, rfl, h⟩
      rw [hm] at h ⊢
      rw [matchSet, List.head?_cons, Option.bind_some, decide_eq_false hplain]
      dsimp only
      rw [if_neg Bool.false_ne_true, h]
      rfl
    · have hhead : text.head? ≠ some (ch '!') ∧ text.head? ≠ some (ch '^') := by
        constructor <;>
        · intro h
          obtain ⟨text, rfl⟩ := List.head?_eq_some_iff.mp h
          exact hinvert ⟨_, _, rfl, by decide⟩
      exact .inl ⟨⟨none, text, items, (by simp), fun _ => hhead, hitems⟩,
        rest, by simp [BracketSet.mask]⟩

/-- A mask starts with one set only. -/
theorem takes_of_mask_eq {flags : BitVec 32} {set set' : BracketSet (has flags FNM_NOESCAPE)}
    {rest rest' : List Byte} (h : set.mask ++ rest = set'.mask ++ rest')
    (htakes : set'.takes n = true) :
    set.takes n = true ∧ rest = rest' := by
  have hread := matchSet_mask set n rest
  rw [BracketSet.mask, BracketSet.mask, List.cons_append, List.cons_append] at h
  rw [(List.cons.inj h).2, matchSet_mask set' n rest', ← BracketSet.takes, ← BracketSet.takes,
    if_pos htakes] at hread
  by_cases hset : set.takes n = true
  · rw [if_pos hset] at hread
    exact ⟨hset, (Option.some.inj (Option.some.inj hread)).symm⟩
  · rw [if_neg hset] at hread
    cases Option.some.inj hread

theorem unixMatch_set_iff {flags : BitVec 32} {start : Bool} {rest name : List Byte}
    {set : BracketSet (has flags FNM_NOESCAPE)} (hset : ch '[' :: mask = set.mask ++ rest) :
    UnixMatch flags start (ch '[' :: mask) (n :: name) ↔
      Free flags start n ∧ set.takes n = true ∧ UnixMatch flags false rest name := by
  constructor
  · intro h
    cases h with
    | set set' hset' hn htakes h =>
      obtain ⟨htakes, rfl⟩ := takes_of_mask_eq (hset.symm.trans hset') htakes
      exact ⟨hn, htakes, h⟩
    | bracket hnone => exact absurd ⟨set, rest, hset⟩ hnone
    | char _ _ _ hbracket => exact absurd rfl hbracket
  · exact fun ⟨hn, htakes, h⟩ => .set set hset hn htakes h

end Sets

/-! ## The matcher -/

/-- `name` lies in the component that starts at `comp`, at its start if `start` says so. -/
structure InComp (start : Bool) (name comp : List Byte) : Prop where
  lt : name.length < comp.length
  start_iff : start = true ↔ name.length + 1 = comp.length

/-- The matcher decides what the mask matches, in every component. -/
def UnixDecided (flags : BitVec 32) (mask : List Byte) : Prop :=
  ∀ (start : Bool) (name comp : List Byte), (∀ c ∈ name, c ≠ 0) → InComp start name comp →
    Decides (matchUnix flags (mask ++ [0]) (name ++ [0]) comp) (UnixMatch flags start mask name)

section Matcher

variable {flags : BitVec 32} {mask name comp : List Byte} {start : Bool} {n : Byte}

theorem InComp.next (h : InComp start (n :: name) comp) : InComp false name comp := by
  have hlt := h.lt
  rw [List.length_cons] at hlt
  exact ⟨Nat.lt_of_succ_lt hlt, by simp; omega⟩

theorem InComp.suffix {s t : List Byte} (h : InComp start (s ++ t) comp) :
    InComp (start && s.isEmpty) t comp := by
  have hlt := h.lt
  have hstart := h.start_iff
  rw [List.length_append] at hlt hstart
  refine ⟨by omega, ?_⟩
  rw [Bool.and_eq_true, hstart, List.isEmpty_iff_length_eq_zero]
  omega

theorem inComp_self (name : List Byte) : InComp true name (name ++ [0]) := ⟨by simp, by simp⟩

theorem leadingDot_iff (h : InComp start name comp) :
    leadingDot flags (name ++ [0]) comp ↔ Hidden flags start name := by
  rw [leadingDot, Hidden, h.start_iff, List.length_append, List.length_singleton]
  cases name with
  | nil => exact iff_of_false (fun h => absurd h.1 (by decide)) (by simp)
  | cons n name => rw [List.cons_append, peek_cons, List.head?_cons, Option.some_inj]

/-- What a `?` or a set does not consume. -/
theorem stops_iff (hn : n ≠ 0) (h : InComp start (n :: name) comp) :
    (n = 0 ∨ sepStops flags n ∨ leadingDot flags (n :: (name ++ [0])) comp) ↔
      ¬ Free flags start n := by
  rw [← List.cons_append, leadingDot_iff h, Free, or_iff_right hn, not_and_or, not_not, not_not]
  rfl

theorem unixDecided_nil : UnixDecided flags [] := by
  intro start name comp hname _
  rw [unixMatch_nil_iff]
  cases name with
  | nil =>
    rw [List.nil_append, matchUnix_null, if_pos rfl]
    exact .of_true (.inl rfl)
  | cons n name =>
    rw [List.nil_append, List.cons_append, matchUnix_null, if_neg (hname n List.mem_cons_self)]
    exact .ite (by simp [isUnixCompSep])

theorem unixDecided_question (h : UnixDecided flags mask) : UnixDecided flags (ch '?' :: mask) := by
  intro start name comp hname hcomp
  cases name with
  | nil =>
    rw [List.cons_append, List.nil_append, matchUnix_question, if_pos (.inl rfl)]
    exact .of_false not_unixMatch_question_nil
  | cons n name =>
    rw [unixMatch_question_iff, List.cons_append, List.cons_append, matchUnix_question]
    by_cases hfree : Free flags start n
    · rw [if_neg ((not_congr (stops_iff (hname n List.mem_cons_self) hcomp)).mpr
        (not_not.mpr hfree)), and_iff_right hfree]
      exact h _ _ _ (fun c hc => hname c (List.mem_cons_of_mem n hc)) hcomp.next
    · rw [if_pos ((stops_iff (hname n List.mem_cons_self) hcomp).mpr hfree)]
      exact .of_false fun h => hfree h.1

/-- The loop of a `*` tries all the suffixes it can reach. -/
theorem unixDecided_star (hm : mask.head? ≠ some (ch '*')) (h : UnixDecided flags mask) :
    UnixDecided flags (ch '*' :: mask) := by
  intro start name comp hname hcomp
  obtain ⟨m, mask', hmask⟩ := List.exists_cons_of_ne_nil (l := mask ++ [0]) (by simp)
  have hm' : m ≠ ch '*' := by
    cases mask with
    | nil =>
      obtain ⟨rfl, -⟩ := List.cons.inj hmask
      decide
    | cons c mask =>
      obtain ⟨rfl, -⟩ := List.cons.inj hmask
      exact fun hc => hm (congrArg some hc)
  obtain ⟨n, name', hbuf⟩ := List.exists_cons_of_ne_nil (l := name ++ [0]) (by simp)
  rw [unixMatch_star_iff, List.cons_append, hmask, hbuf, matchUnix_star _ _ _ _ _ hm', ← hbuf,
    ← hmask]
  by_cases hdot : Hidden flags start name
  · rw [if_pos ((leadingDot_iff hcomp).mpr hdot)]
    exact .of_false fun h => h.1 hdot
  · rw [if_neg (mt (leadingDot_iff hcomp).mp hdot), and_iff_right hdot]
    have hloop := @decides_starLoop (fun name => matchUnix flags (mask ++ [0]) name comp)
      (fun n => n = 0 ∨ sepStops flags n) 0 []
      (fun t => ∃ s, name = s ++ t ∧ UnixMatch flags (start && s.isEmpty) mask t) (by simp) name ?_
    · refine hloop.congr ⟨?_, ?_⟩
      · rintro ⟨s, t, rfl, hs, hmatch⟩
        refine ⟨s, t, rfl, fun c hc => ?_, s, rfl, hmatch⟩
        exact decide_eq_false (not_or.mpr ⟨hname c (List.mem_append_left t hc), hs c hc⟩)
      · rintro ⟨s, t, rfl, hs, s', hs', hmatch⟩
        obtain rfl := List.append_cancel_right hs'
        exact ⟨s, t, rfl, fun c hc hsep => absurd (hs c hc) (by simp [hsep]), hmatch⟩
    · rintro t ⟨s, rfl⟩
      refine (h _ _ _ (fun c hc => hname c (List.mem_append_right s hc)) hcomp.suffix).congr ⟨?_,
        fun h => ⟨s, rfl, h⟩⟩
      rintro ⟨s', hs', hmatch⟩
      obtain rfl := List.append_cancel_right hs'
      exact hmatch

theorem unixDecided_star_star (h : UnixDecided flags (ch '*' :: mask)) :
    UnixDecided flags (ch '*' :: ch '*' :: mask) := by
  intro start name comp hname hcomp
  obtain ⟨n, name', hbuf⟩ := List.exists_cons_of_ne_nil (l := name ++ [0]) (by simp)
  rw [List.cons_append, List.cons_append, hbuf, matchUnix_star_star, ← hbuf]
  by_cases hdot : Hidden flags start name
  · rw [if_pos ((leadingDot_iff hcomp).mpr hdot)]
    exact .of_false fun h => (unixMatch_star_iff.mp h).1 hdot
  · rw [if_neg (mt (leadingDot_iff hcomp).mp hdot)]
    exact (h _ _ _ hname hcomp).congr unixMatch_star_star_iff

theorem endsAfterSep_buf (hmask : ∀ c ∈ mask, c ≠ 0) :
    endsAfterSep flags (mask ++ [0]) =
      some (decide (mask = [] ∨ has flags FNM_NOESCAPE = false ∧ mask = [ch '\\'])) := by
  rcases mask with _ | ⟨m, _ | ⟨m1, mask⟩⟩
  · rfl
  · have hm : ¬ m = 0#8 := hmask m (by simp)
    by_cases hback : has flags FNM_NOESCAPE = false ∧ m = ch '\\'
    · obtain ⟨hescape, rfl⟩ := hback
      simp [endsAfterSep, hescape]
    · simp [endsAfterSep, hm, hback]
  · have hm : ¬ m = 0#8 := hmask m (by simp)
    have hm1 : ¬ m1 = 0#8 := hmask m1 (by simp)
    by_cases hback : has flags FNM_NOESCAPE = false ∧ m = ch '\\'
    · obtain ⟨hescape, rfl⟩ := hback
      simp [endsAfterSep, hm, hescape, hm1]
    · simp [endsAfterSep, hm, hback]

theorem unixDecided_slash (hmask : ∀ c ∈ mask, c ≠ 0) (h : UnixDecided flags mask) :
    UnixDecided flags (ch '/' :: mask) := by
  intro start name comp hname hcomp
  cases name with
  | nil =>
    rw [unixMatch_slash_nil_iff, List.cons_append, List.nil_append, matchUnix_slash]
    dsimp only
    rw [if_neg (not_not.mpr rfl), if_neg (by decide), endsAfterSep_buf hmask, Option.bind_some]
    by_cases hpre : has flags FNM_PATHPREFIX = true
    · rw [if_pos ⟨hpre, rfl⟩, and_iff_right hpre]
      by_cases hends : decide (mask = [] ∨ has flags FNM_NOESCAPE = false ∧ mask = [ch '\\']) = true
      · rw [if_pos hends]
        have hmatch : ∀ comp, matchUnix flags (mask ++ [0]) [0] comp = some .match := by
          intro comp
          rcases of_decide_eq_true hends with rfl | ⟨hescape, rfl⟩
          · rw [List.nil_append, matchUnix_null, if_pos rfl]
          · rw [List.singleton_append, matchUnix_backslash, hescape, if_neg Bool.false_ne_true,
              if_neg (by decide), matchUnix_null, if_pos rfl]
        rw [hmatch]
        exact .of_true (of_decide_eq_true hends)
      · rw [if_neg hends]
        exact .of_false fun h => hends (decide_eq_true h)
    · rw [if_neg fun h => hpre h.1]
      exact .of_false fun h => hpre h.1
  | cons n name =>
    have hn : n ≠ 0 := hname n List.mem_cons_self
    rw [List.cons_append, List.cons_append, matchUnix_slash]
    dsimp only
    rw [if_pos hn]
    by_cases hsep : n = ch '/'
    · subst hsep
      rw [unixMatch_slash_iff, if_pos (by decide)]
      refine h _ _ _ (fun c hc => hname c (List.mem_cons_of_mem _ hc)) ?_
      by_cases hpath : has flags FNM_PATHNAME = true
      · rw [if_pos hpath, hpath]
        exact inComp_self name
      · rw [if_neg hpath, Bool.eq_false_iff.mpr hpath]
        exact hcomp.next
    · rw [if_neg (by simpa [isUnixCompSep] using hsep), if_neg fun h => hn h.2]
      exact .of_false (not_unixMatch_slash hsep)

theorem unixDecided_set {rest : List Byte} {set : BracketSet (has flags FNM_NOESCAPE)}
    (hset : ch '[' :: mask = set.mask ++ rest) (h : UnixDecided flags rest) :
    UnixDecided flags (ch '[' :: mask) := by
  intro start name comp hname hcomp
  cases name with
  | nil =>
    rw [List.cons_append, List.nil_append, matchUnix_bracket, if_pos (.inl rfl)]
    exact .of_false not_unixMatch_bracket_nil
  | cons n name =>
    have hn : n ≠ 0 := hname n List.mem_cons_self
    rw [unixMatch_set_iff hset, List.cons_append, List.cons_append, matchUnix_bracket]
    by_cases hfree : Free flags start n
    · have hmask : mask ++ [0] = set.mark.toList ++ set.text ++ [ch ']'] ++ (rest ++ [0]) := by
        rw [BracketSet.mask, List.cons_append] at hset
        rw [(List.cons.inj hset).2, List.append_assoc]
      rw [if_neg ((not_congr (stops_iff hn hcomp)).mpr (not_not.mpr hfree)),
        and_iff_right hfree, hmask, matchSet_mask, Option.bind_some, ← BracketSet.takes]
      by_cases htakes : set.takes n = true
      · rw [if_pos htakes, and_iff_right htakes]
        exact h _ _ _ (fun c hc => hname c (List.mem_cons_of_mem n hc)) hcomp.next
      · rw [if_neg htakes]
        exact .of_false fun h => htakes h.1
    · rw [if_pos ((stops_iff hn hcomp).mpr hfree)]
      exact .of_false fun h => hfree h.1

/-- A bracket is neither a separator nor a dot. -/
theorem free_bracket : Free flags start (ch '[') :=
  ⟨fun h => absurd h.2 (by decide), fun h => absurd (Option.some.inj h.1) (by decide)⟩

theorem unixDecided_bracket (hmask : ∀ c ∈ mask, c ≠ 0) (h : UnixDecided flags mask)
    (hset : ¬ ∃ (set : BracketSet (has flags FNM_NOESCAPE)) (rest : List Byte),
      ch '[' :: mask = set.mask ++ rest) :
    UnixDecided flags (ch '[' :: mask) := by
  intro start name comp hname hcomp
  cases name with
  | nil =>
    rw [List.cons_append, List.nil_append, matchUnix_bracket, if_pos (.inl rfl)]
    exact .of_false not_unixMatch_bracket_nil
  | cons n name =>
    have hn : n ≠ 0 := hname n List.mem_cons_self
    rw [unixMatch_bracket_iff hset, List.cons_append, List.cons_append, matchUnix_bracket,
      (matchSet_cases flags n hmask).resolve_left hset, Option.bind_some]
    by_cases hbracket : n = ch '['
    · subst hbracket
      rw [if_neg ((not_congr (stops_iff hn hcomp)).mpr (not_not.mpr free_bracket)),
        if_neg (not_not.mpr rfl), and_iff_right rfl]
      exact h _ _ _ (fun c hc => hname c (List.mem_cons_of_mem _ hc)) hcomp.next
    · rw [if_pos hbracket]
      refine .congr ?_ (iff_of_false (fun h => hbracket h.1) not_false)
      split_ifs <;> exact .of_false not_false

theorem unixDecided_escape {m : Byte} (hescape : has flags FNM_NOESCAPE = false)
    (hm : m = ch '*' ∨ m = ch '?') (h : UnixDecided flags mask) :
    UnixDecided flags (ch '\\' :: m :: mask) := by
  intro start name comp hname hcomp
  cases name with
  | nil =>
    have hm0 : m ≠ 0 := by rcases hm with rfl | rfl <;> decide
    rw [List.cons_append, List.cons_append, List.nil_append, matchUnix_backslash, hescape,
      if_neg Bool.false_ne_true, if_pos hm, if_pos hm0]
    exact .of_false (not_unixMatch_escape_nil hm)
  | cons n name =>
    rw [unixMatch_escape_iff hescape hm, List.cons_append, List.cons_append, List.cons_append,
      matchUnix_backslash, hescape, if_neg Bool.false_ne_true, if_pos hm]
    by_cases hn : m = n
    · rw [if_neg (not_not.mpr hn), and_iff_right hn]
      exact h _ _ _ (fun c hc => hname c (List.mem_cons_of_mem n hc)) hcomp.next
    · rw [if_pos hn]
      exact .of_false fun h => hn h.1

theorem unixDecided_ignored (hescape : has flags FNM_NOESCAPE = false)
    (hmask : mask.head? ≠ some (ch '*') ∧ mask.head? ≠ some (ch '?')) (h : UnixDecided flags mask) :
    UnixDecided flags (ch '\\' :: mask) := by
  intro start name comp hname hcomp
  obtain ⟨m, mask', hbuf⟩ := List.exists_cons_of_ne_nil (l := mask ++ [0]) (by simp)
  obtain ⟨n, name', hbuf'⟩ := List.exists_cons_of_ne_nil (l := name ++ [0]) (by simp)
  have hm : ¬ (m = ch '*' ∨ m = ch '?') := by
    cases mask with
    | nil =>
      obtain ⟨rfl, -⟩ := List.cons.inj hbuf
      decide
    | cons c mask =>
      obtain ⟨rfl, -⟩ := List.cons.inj hbuf
      exact not_or.mpr
        (hmask.imp (fun h h' => h (congrArg some h')) fun h h' => h (congrArg some h'))
  rw [unixMatch_ignored_iff hescape hmask, List.cons_append, hbuf, hbuf', matchUnix_backslash,
    hescape, if_neg Bool.false_ne_true, if_neg hm, ← hbuf, ← hbuf']
  exact h _ _ _ hname hcomp

theorem unixDecided_backslash (hescape : has flags FNM_NOESCAPE = true)
    (h : UnixDecided flags mask) :
    UnixDecided flags (ch '\\' :: mask) := by
  intro start name comp hname hcomp
  obtain ⟨m, mask', hbuf⟩ := List.exists_cons_of_ne_nil (l := mask ++ [0]) (by simp)
  rw [List.cons_append, hbuf]
  cases name with
  | nil =>
    rw [List.nil_append, matchUnix_backslash, hescape, if_pos rfl, if_pos (by decide)]
    exact .of_false (not_unixMatch_backslash_nil hescape)
  | cons n name =>
    rw [unixMatch_backslash_iff hescape, List.cons_append, matchUnix_backslash, hescape,
      if_pos rfl, ← hbuf]
    by_cases hn : n = ch '\\'
    · rw [if_neg (not_not.mpr hn), and_iff_right hn]
      exact h _ _ _ (fun c hc => hname c (List.mem_cons_of_mem n hc)) hcomp.next
    · rw [if_pos hn]
      exact .of_false fun h => hn h.1

theorem unixDecided_char {c : Byte} (h0 : c ≠ 0) (hq : c ≠ ch '?') (hstar : c ≠ ch '*')
    (hslash : c ≠ ch '/')
    (hbracket : c ≠ ch '[') (hback : c ≠ ch '\\') (h : UnixDecided flags mask) :
    UnixDecided flags (c :: mask) := by
  intro start name comp hname hcomp
  cases name with
  | nil =>
    have hfold : fold flags c ≠ fold flags 0 := fun h => ne_zero_of_fold_eq h0 h rfl
    rw [List.cons_append, List.nil_append,
      matchUnix_char _ _ _ _ _ h0 hq hstar hslash hbracket hback, if_pos hfold]
    exact .of_false (not_unixMatch_char_nil hq hstar hslash hbracket hback)
  | cons n name =>
    rw [unixMatch_char_iff hq hstar hslash hbracket hback, List.cons_append, List.cons_append,
      matchUnix_char _ _ _ _ _ h0 hq hstar hslash hbracket hback]
    by_cases hfold : fold flags c = fold flags n
    · rw [if_neg (not_not.mpr hfold), and_iff_right hfold]
      exact h _ _ _ (fun c hc => hname c (List.mem_cons_of_mem n hc)) hcomp.next
    · rw [if_pos hfold]
      exact .of_false fun h => hfold h.1

/-- The matcher decides every mask. -/
theorem unixDecided (hmask : ∀ c ∈ mask, c ≠ 0) : UnixDecided flags mask := by
  induction hlen : mask.length using Nat.strong_induction_on generalizing mask with
  | _ len ih =>
    have hdecided : ∀ {rest : List Byte}, rest.length < len → (∀ c ∈ rest, c ≠ 0) →
        UnixDecided flags rest :=
      fun hlt hrest => ih _ hlt hrest rfl
    cases mask with
    | nil => exact unixDecided_nil
    | cons c mask =>
      have hmask' : ∀ c ∈ mask, c ≠ 0 := fun d hd => hmask d (List.mem_cons_of_mem c hd)
      have htail : UnixDecided flags mask := hdecided (by simp [← hlen]) hmask'
      have hchar : UnixChar c := unixChar c
      cases hchar with
      | null => exact absurd rfl (hmask 0 List.mem_cons_self)
      | question => exact unixDecided_question htail
      | star =>
        by_cases hstar : mask.head? = some (ch '*')
        · obtain ⟨mask, rfl⟩ := List.head?_eq_some_iff.mp hstar
          exact unixDecided_star_star htail
        · exact unixDecided_star hstar htail
      | slash => exact unixDecided_slash hmask' htail
      | bracket =>
        by_cases hset : ∃ (set : BracketSet (has flags FNM_NOESCAPE)) (rest : List Byte),
          ch '[' :: mask = set.mask ++ rest
        · obtain ⟨set, rest, hset⟩ := hset
          refine unixDecided_set hset
            (hdecided ?_ fun d hd => hmask d (hset ▸ List.mem_append_right _ hd))
          have := congrArg List.length hset
          simp only [BracketSet.mask, List.length_append, List.length_cons] at this hlen
          omega
        · exact unixDecided_bracket hmask' htail hset
      | backslash =>
        by_cases hescape : has flags FNM_NOESCAPE = true
        · exact unixDecided_backslash hescape htail
        · have hescape : has flags FNM_NOESCAPE = false := Bool.eq_false_iff.mpr hescape
          by_cases hm : ∃ m rest, mask = m :: rest ∧ (m = ch '*' ∨ m = ch '?')
          · obtain ⟨m, rest, rfl, hm⟩ := hm
            refine unixDecided_escape hescape hm
              (hdecided ?_ fun d hd => hmask' d (List.mem_cons_of_mem m hd))
            simp only [List.length_cons] at hlen
            omega
          · refine unixDecided_ignored hescape ⟨fun h => hm ?_, fun h => hm ?_⟩ htail
            · obtain ⟨rest, rfl⟩ := List.head?_eq_some_iff.mp h
              exact ⟨_, rest, rfl, .inl rfl⟩
            · obtain ⟨rest, rfl⟩ := List.head?_eq_some_iff.mp h
              exact ⟨_, rest, rfl, .inr rfl⟩
      | char h0 hq hstar hslash hbracket hback =>
        exact unixDecided_char h0 hq hstar hslash hbracket hback htail

end Matcher

/-! ## Whole paths -/

/-- A separator in front of a mask, as it may be escaped at the start of a UNC mask. -/
inductive UncSep : List Byte → Prop
  | slash : UncSep [ch '/']
  | escaped : UncSep [ch '\\', ch '/']

/-- A mask against a name: a UNC name needs a UNC mask, and what follows is matched. -/
inductive PosixMatch (flags : BitVec 32) : List Byte → List Byte → Prop
  | unc {s t mask name : List Byte} (hs : UncSep s) (ht : UncSep t)
      (h : UnixMatch flags true mask name) :
      PosixMatch flags (s ++ t ++ mask) (ch '/' :: ch '/' :: name)
  | plain {mask name : List Byte} (hname : ¬ [ch '/', ch '/'] <+: name)
      (h : UnixMatch flags true mask name) :
      PosixMatch flags mask name

section Paths

variable {flags : BitVec 32} {mask name : List Byte}

theorem uncSep_append_iff : (∃ s rest, UncSep s ∧ mask = s ++ rest) ↔
    mask.head? = some (ch '/') ∨ mask.head? = some (ch '\\') ∧ mask.tail.head? = some (ch '/') := by
  constructor
  · rintro ⟨_, rest, (_ | _), rfl⟩
    · exact .inl rfl
    · exact .inr ⟨rfl, rfl⟩
  · rintro (h | ⟨h, h'⟩)
    · obtain ⟨rest, rfl⟩ := List.head?_eq_some_iff.mp h
      exact ⟨_, rest, .slash, rfl⟩
    · obtain ⟨rest, rfl⟩ := List.head?_eq_some_iff.mp h
      obtain ⟨rest, rfl⟩ := List.head?_eq_some_iff.mp h'
      exact ⟨_, rest, .escaped, rfl⟩

theorem skipUnixSep_uncSep (mask : List Byte) {s : List Byte} (hs : UncSep s) :
    skipUnixSep (s ++ mask) = some (some mask) := by
  cases hs <;> rfl

theorem skipUnixSep_none (h : ¬ ∃ s rest, UncSep s ∧ mask = s ++ rest) :
    skipUnixSep (mask ++ [0]) = some none := by
  rw [uncSep_append_iff] at h
  rcases mask with _ | ⟨m, _ | ⟨m1, mask⟩⟩
  · rfl
  · have hm : m ≠ ch '/' := fun hm => h (.inl (congrArg some hm))
    rw [List.singleton_append, skipUnixSep, List.head?_cons, Option.bind_some, if_neg hm]
    split_ifs <;> rfl
  · have hm : m ≠ ch '/' := fun hm => h (.inl (congrArg some hm))
    rw [List.cons_append, skipUnixSep, List.head?_cons, Option.bind_some, if_neg hm]
    split_ifs with hback
    · have hm1 : m1 ≠ ch '/' := fun hm1 => h (.inr ⟨congrArg some hback, congrArg some hm1⟩)
      rw [List.tail_cons, List.cons_append, List.head?_cons, Option.map_some, if_neg hm1]
    · rfl

theorem twoSeps_unix (name : List Byte) :
    twoSeps isUnixCompSep (name ++ [0]) = some (decide ([ch '/', ch '/'] <+: name)) := by
  have hzero : isUnixCompSep 0#8 = false := rfl
  rcases name with _ | ⟨c, _ | ⟨d, name⟩⟩
  · rfl
  · simp [twoSeps, hzero, List.cons_prefix_cons]
  · by_cases hc : c = ch '/'
    · simp [twoSeps, isUnixCompSep, hc, List.cons_prefix_cons, eq_comm]
    · simp [twoSeps, isUnixCompSep, hc, Ne.symm hc, List.cons_prefix_cons]

theorem decides_unixMatch (hmask : ∀ c ∈ mask, c ≠ 0) (hname : ∀ c ∈ name, c ≠ 0) :
    Decides (matchUnix flags (mask ++ [0]) (name ++ [0]) (name ++ [0]))
      (UnixMatch flags true mask name) :=
  unixDecided hmask _ _ _ hname (inComp_self name)

theorem posixMatch_plain_iff (hunc : ¬ [ch '/', ch '/'] <+: name) :
    PosixMatch flags mask name ↔ UnixMatch flags true mask name := by
  constructor
  · intro h
    cases h with
    | unc => exact absurd (List.prefix_append [ch '/', ch '/'] _) hunc
    | plain _ h => exact h
  · exact .plain hunc

theorem posixMatch_unc_iff (flags : BitVec 32) (mask name : List Byte) :
    PosixMatch flags mask (ch '/' :: ch '/' :: name) ↔
      ∃ s t rest, UncSep s ∧ UncSep t ∧ mask = s ++ (t ++ rest) ∧
        UnixMatch flags true rest name := by
  constructor
  · intro h
    cases h with
    | unc hs ht h => exact ⟨_, _, _, hs, ht, List.append_assoc _ _ _, h⟩
    | plain hname => exact absurd (List.prefix_append [ch '/', ch '/'] _) hname
  · rintro ⟨s, t, rest, hs, ht, rfl, h⟩
    rw [← List.append_assoc]
    exact .unc hs ht h

/-- A mask starts with one separator only. -/
theorem uncSep_append_inj {s t rest rest' : List Byte} (hs : UncSep s) (ht : UncSep t)
    (h : s ++ rest = t ++ rest') : rest = rest' := by
  have hskip := skipUnixSep_uncSep rest hs
  rw [h, skipUnixSep_uncSep rest' ht] at hskip
  exact (Option.some.inj (Option.some.inj hskip)).symm

theorem decides_matchStyle_posix (hstyle : flags &&& FNM_STYLE_MASK = FNM_POSIX)
    (hmask : ∀ c ∈ mask, c ≠ 0) (hname : ∀ c ∈ name, c ≠ 0) :
    Decides (matchStyle flags (mask ++ [0]) (name ++ [0])) (PosixMatch flags mask name) := by
  rw [matchStyle, hstyle, if_neg (by decide), if_pos rfl, twoSeps_unix, Option.bind_some]
  by_cases hunc : [ch '/', ch '/'] <+: name
  · obtain ⟨name, rfl⟩ := hunc
    rw [if_pos (decide_eq_true (List.prefix_append _ _))]
    have hname' : ∀ c ∈ name, c ≠ 0 := fun c hc => hname c (by simp [hc])
    have hdrop : ([ch '/', ch '/'] ++ name ++ [0]).drop 2 = name ++ [0] := rfl
    have hiff := posixMatch_unc_iff flags mask name
    refine .congr ?_ hiff
    rw [hdrop]
    by_cases hs : ∃ s rest, UncSep s ∧ mask = s ++ rest
    · obtain ⟨s, mask, hs, rfl⟩ := hs
      rw [List.append_assoc, skipUnixSep_uncSep _ hs, Option.bind_some]
      dsimp only
      by_cases ht : ∃ s rest, UncSep s ∧ mask = s ++ rest
      · obtain ⟨t, mask, ht, rfl⟩ := ht
        rw [List.append_assoc, skipUnixSep_uncSep _ ht, Option.bind_some]
        refine (decides_unixMatch (fun c hc => hmask c (by simp [hc])) hname').congr ⟨?_, ?_⟩
        · rintro ⟨s', t', rest, hs', ht', h, hmatch⟩
          rw [uncSep_append_inj ht ht' (uncSep_append_inj hs hs' h)]
          exact hmatch
        · exact fun h => ⟨s, t, mask, hs, ht, rfl, h⟩
      · rw [skipUnixSep_none ht, Option.bind_some]
        refine .of_false ?_
        rintro ⟨s', t', rest, hs', ht', h, -⟩
        exact ht ⟨t', rest, ht', uncSep_append_inj hs hs' h⟩
    · rw [skipUnixSep_none hs, Option.bind_some]
      refine .of_false ?_
      rintro ⟨s', t', rest, hs', -, h, -⟩
      exact hs ⟨s', t' ++ rest, hs', h⟩
  · rw [if_neg (by simpa using hunc)]
    exact (decides_unixMatch hmask hname).congr (posixMatch_plain_iff hunc)

/-- **`__mwdd32_fnmatch` in POSIX style**, with any other flags: it returns `_FNM_MATCH` if and only
    if the drives are the same and the mask matches what follows the drive of the name. -/
theorem fnmatch_posix_iff (hstyle : flags &&& FNM_STYLE_MASK = FNM_POSIX) (mask name : CStr)
    (hmask : ch ':' ∉ (splitDrive mask.bytes).2) (hname : ch ':' ∉ (splitDrive name.bytes).2) :
    fnmatch mask.buf name.buf flags = some .match ↔
      SameDrive flags (splitDrive mask.bytes).1 (splitDrive name.bytes).1 ∧
      PosixMatch flags (splitDrive mask.bytes).2 (splitDrive name.bytes).2 :=
  fnmatch_iff_of_style mask name (decides_matchStyle_posix hstyle) hmask hname

/-- The mask `[x-z]*/?` and the name `yes/a`, with separators that only separators match. -/
theorem fnmatch_posix_iff_sample :
    ∃ mask name : CStr, mask.bytes =
      [ch '[', ch 'x', ch '-', ch 'z', ch ']', ch '*', ch '/', ch '?'] ∧
      name.bytes = [ch 'y', ch 'e', ch 's', ch '/', ch 'a'] ∧
      (fnmatch mask.buf name.buf (FNM_POSIX ||| FNM_PATHNAME) = some .match ↔
        SameDrive (FNM_POSIX ||| FNM_PATHNAME) (splitDrive mask.bytes).1 (splitDrive name.bytes).1 ∧
        PosixMatch (FNM_POSIX ||| FNM_PATHNAME) (splitDrive mask.bytes).2
          (splitDrive name.bytes).2) :=
  ⟨⟨[ch '[', ch 'x', ch '-', ch 'z', ch ']', ch '*', ch '/', ch '?'], by decide⟩,
    ⟨[ch 'y', ch 'e', ch 's', ch '/', ch 'a'], by decide⟩, rfl, rfl,
    fnmatch_posix_iff (by decide) _ _ (by decide) (by decide)⟩

end Paths

end Mwdd32.Util
