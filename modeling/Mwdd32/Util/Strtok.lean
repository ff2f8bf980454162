import Mathlib.Data.List.Forall2
import Mathlib.Data.List.TakeWhile
import Mwdd32.Util.Ctype

/-!
# `strtok`

Model of `util/strtok.c`. A pointer is an index into the memory, and a result is none where the
code reads behind the memory.

* `strtok_tokens`: the calls on one text return its tokens in order, each null-terminated where
  the pointer returned points to, and write nothing but the null behind a token.
* `strtok_fields`: with one delimiter string these are the non-empty fields of the text.
-/

namespace Mwdd32.Util

/-! ## Model -/

/-- The memory, and the static variable `next`. -/
structure Strtok where
  mem : List Byte
  next : Option ℕ
  deriving DecidableEq, Repr

/-- `while (*string2 != 0) table[(unsigned char)*string2++] = 1` (strtok.c:55-56): the characters
    that are 1 in the table. -/
def readTable : List Byte → Option (List Byte)
  | [] => none
  | c :: string2 => if c ≠ 0 then (readTable string2).map (c :: ·) else some []

/-- `while (test (*p)) ++p`: how far `p` moves. -/
def skipWhile (test : Byte → Bool) : List Byte → Option ℕ
  | [] => none
  | c :: p => if test c then (skipWhile test p).map (· + 1) else some 0

/-- `strtok` (strtok.c:36-77) -/
def strtok (string1 : Option ℕ) (string2 : List Byte) (s : Strtok) : Option (Option ℕ × Strtok) :=
  match string1.or s.next with
  | none => some (none, s)
  | some p => do
    let table ← readTable string2
    let skipped ← skipWhile table.contains (s.mem.drop p)
    let result := p + skipped
    let length ← skipWhile (fun c => !table.contains c && c ≠ 0) (s.mem.drop result)
    let p := result + length
    let c ← s.mem[p]?
    if c = 0 then
      if p = result then return (none, { s with next := none })
      else return (some result, { s with next := some p })
    else return (some result, { mem := s.mem.set p 0, next := some (p + 1) })

/-- Calls one after the other: the first with `string1`, the others with the null pointer. -/
def strtokCalls (string1 : Option ℕ) : List (List Byte) → Strtok → Option (List (Option ℕ) × Strtok)
  | [], s => some ([], s)
  | string2 :: strings, s => do
    let (result, s) ← strtok string1 string2 s
    let (results, s) ← strtokCalls none strings s
    return (result :: results, s)

/-! ## Tokens -/

/-- The tokens of a text, each up to a character of its own set, none when there is no more. -/
def tokens : List (List Byte) → List Byte → List (Option (List Byte))
  | [], _ => []
  | set :: sets, text =>
    let text := text.dropWhile set.contains
    if text = [] then none :: tokens sets []
    else some (text.takeWhile (!set.contains ·)) :: tokens sets
      (text.dropWhile (!set.contains ·)).tail

/-- The null-terminated string at `p`. -/
def StringAt (mem : List Byte) (p : ℕ) (text : List Byte) : Prop := text ++ [0] <+: mem.drop p

/-- A pointer and the token it points to. -/
def Points (mem : List Byte) : Option ℕ → Option (List Byte) → Prop
  | some p, some token => token ≠ [] ∧ StringAt mem p token
  | none, none => True
  | _, _ => False

/-! ## One call -/

theorem skipWhile_append {test : Byte → Bool} {passed : List Byte}
    (hpass : ∀ c ∈ passed, test c = true) {c : Byte} (hstop : test c = false) (rest : List Byte) :
    skipWhile test (passed ++ c :: rest) = some passed.length := by
  induction passed with
  | nil => simp [skipWhile, hstop]
  | cons d passed ih =>
    rw [List.cons_append, skipWhile, if_pos (hpass d (by simp)),
      ih fun e he => hpass e (by simp [he])]
    rfl

theorem readTable_buf (set : CStr) : readTable set.buf = some set.bytes := by
  obtain ⟨bytes, noNull⟩ := set
  show readTable (bytes ++ [0]) = some bytes
  induction bytes with
  | nil => rfl
  | cons c bytes ih =>
    rw [List.cons_append, readTable, if_pos (noNull c (by simp)),
      ih fun d hd => noNull d (by simp [hd])]
    rfl

/-- A text before the next call with `set`: delimiters only, or delimiters and a token, up to the
    end of the text or up to the delimiter that the call overwrites. -/
inductive Cut (set : List Byte) : List Byte → Prop
  | blank {skipped : List Byte} (hskip : ∀ c ∈ skipped, c ∈ set) : Cut set skipped
  | last {skipped token : List Byte} (hskip : ∀ c ∈ skipped, c ∈ set) (hne : token ≠ [])
      (htoken : ∀ c ∈ token, c ∉ set) : Cut set (skipped ++ token)
  | inner {skipped token rest : List Byte} {d : Byte} (hskip : ∀ c ∈ skipped, c ∈ set)
      (hne : token ≠ []) (htoken : ∀ c ∈ token, c ∉ set) (hd : d ∈ set) :
      Cut set (skipped ++ (token ++ d :: rest))

theorem cut (set text : List Byte) : Cut set text := by
  have htext := List.takeWhile_append_dropWhile (p := set.contains) (l := text)
  have hskip : ∀ c ∈ text.takeWhile set.contains, c ∈ set := fun c hc => by
    simpa using List.mem_takeWhile_imp hc
  rw [← htext]
  cases hrest : text.dropWhile set.contains with
  | nil =>
    rw [List.append_nil]
    exact .blank hskip
  | cons c rest =>
    have hc : c ∉ set := by
      have := List.head?_dropWhile_not set.contains text
      rw [hrest] at this
      simpa using this
    have hrest' := List.takeWhile_append_dropWhile (p := (!set.contains ·)) (l := c :: rest)
    have hne : (c :: rest).takeWhile (!set.contains ·) ≠ [] := by simp [hc]
    have htoken : ∀ d ∈ (c :: rest).takeWhile (!set.contains ·), d ∉ set := fun d hd => by
      simpa using List.mem_takeWhile_imp hd
    have hstop := List.head?_dropWhile_not (!set.contains ·) (c :: rest)
    rw [← hrest']
    cases htail : (c :: rest).dropWhile (!set.contains ·) with
    | nil =>
      rw [List.append_nil]
      exact .last hskip hne htoken
    | cons d rest =>
      rw [htail] at hstop
      exact .inner hskip hne htoken (by simpa using hstop)

/-- A call where `skipped` and `token` end before `c`. -/
theorem strtok_scan {string1 next : Option ℕ} {before skipped token after : List Byte} {c : Byte}
    {set : CStr} (hp : string1.or next = some before.length) (hskip : ∀ d ∈ skipped, d ∈ set.bytes)
    (htoken : ∀ d ∈ token, d ∉ set.bytes ∧ d ≠ 0) (hc : c ∈ set.bytes ∨ c = 0)
    (hstop : token = [] → c = 0) :
    strtok string1 set.buf ⟨before ++ (skipped ++ (token ++ c :: after)), next⟩ =
      let result := before.length + skipped.length
      if c = 0 then
        if token = [] then some (none, ⟨before ++ (skipped ++ (token ++ c :: after)), none⟩)
        else some (some result,
          ⟨before ++ (skipped ++ (token ++ c :: after)), some (result + token.length)⟩)
      else some (some result, ⟨before ++ (skipped ++ (token ++ 0 :: after)),
        some (result + token.length + 1)⟩) := by
  have hzero : (0 : Byte) ∉ set.bytes := fun h => set.noNull 0 h rfl
  have hfirst : skipWhile set.bytes.contains (skipped ++ (token ++ c :: after)) =
      some skipped.length := by
    have hpass : ∀ d ∈ skipped, set.bytes.contains d = true := by simpa using hskip
    cases token with
    | nil =>
      rw [hstop rfl]
      exact skipWhile_append hpass (by simpa using hzero) after
    | cons d token =>
      exact skipWhile_append hpass (by simp [(htoken d (by simp)).1]) (token ++ c :: after)
  have hsecond : skipWhile (fun d => !set.bytes.contains d && d ≠ 0) (token ++ c :: after) =
      some token.length := by
    refine skipWhile_append (by simpa using htoken) ?_ after
    simpa [or_iff_not_imp_left] using hc
  have hdrop : (before ++ (skipped ++ (token ++ c :: after))).drop
      (before.length + skipped.length) = token ++ c :: after := by
    rw [← List.append_assoc, ← List.length_append, List.drop_left]
  have hget : (before ++ (skipped ++ (token ++ c :: after)))[
      before.length + skipped.length + token.length]? = some c := by
    rw [← List.getElem?_drop, hdrop]
    simp
  have hset : (before ++ (skipped ++ (token ++ c :: after))).set
      (before.length + skipped.length + token.length) 0 =
        before ++ (skipped ++ (token ++ 0 :: after)) := by
    rw [List.set_append_right _ _ (by omega), List.set_append_right _ _ (by omega),
      List.set_append_right _ _ (by omega), Nat.add_assoc, Nat.add_sub_cancel_left,
      Nat.add_sub_cancel_left, Nat.sub_self]
    rfl
  unfold strtok
  rw [hp]
  simp only [readTable_buf, Option.bind_eq_bind, Option.bind_some, List.drop_left, hfirst, hdrop,
    hsecond, hget, hset, Nat.add_eq_left, List.length_eq_zero_iff, Option.pure_def]

/-! ## All calls -/

theorem tokens_nil (sets : List (List Byte)) :
    tokens sets [] = List.replicate sets.length none := by
  induction sets with
  | nil => rfl
  | cons set sets ih =>
    rw [tokens]
    simp [ih, List.replicate_succ]

theorem strtokCalls_none (strings : List (List Byte)) (mem : List Byte) :
    strtokCalls none strings ⟨mem, none⟩ =
      some (List.replicate strings.length none, ⟨mem, none⟩) := by
  induction strings with
  | nil => rfl
  | cons string2 strings ih =>
    rw [strtokCalls]
    simp [strtok, ih, List.replicate_succ]

section Tokens

variable {set skipped token rest : List Byte} {sets : List (List Byte)} {d : Byte}

theorem tokens_blank (hskip : ∀ c ∈ skipped, c ∈ set) :
    tokens (set :: sets) skipped = none :: tokens sets [] := by
  have hdrop : skipped.dropWhile set.contains = [] := by simpa using hskip
  rw [tokens]
  simp only [hdrop, if_true]

theorem dropWhile_skipped (hskip : ∀ c ∈ skipped, c ∈ set) (hne : token ≠ [])
    (htoken : ∀ c ∈ token, c ∉ set) (text : List Byte) :
    (skipped ++ (token ++ text)).dropWhile set.contains = token ++ text := by
  rw [List.dropWhile_append_of_pos (by simpa using hskip)]
  cases token with
  | nil => exact absurd rfl hne
  | cons c token => exact List.dropWhile_cons_of_neg (by simpa using htoken c (by simp))

theorem tokens_last (hskip : ∀ c ∈ skipped, c ∈ set) (hne : token ≠ [])
    (htoken : ∀ c ∈ token, c ∉ set) :
    tokens (set :: sets) (skipped ++ token) = some token :: tokens sets [] := by
  have hdrop := dropWhile_skipped hskip hne htoken []
  have htake : token.takeWhile (fun c => !set.contains c) = token :=
    List.takeWhile_eq_self_iff.mpr (by simpa using htoken)
  have hrest : token.dropWhile (fun c => !set.contains c) = [] := by simpa using htoken
  rw [List.append_nil] at hdrop
  rw [tokens]
  simp only [hdrop, hne, if_false, htake, hrest, List.tail_nil]

theorem tokens_inner (hskip : ∀ c ∈ skipped, c ∈ set) (hne : token ≠ [])
    (htoken : ∀ c ∈ token, c ∉ set) (hd : d ∈ set) :
    tokens (set :: sets) (skipped ++ (token ++ d :: rest)) = some token :: tokens sets rest := by
  have hdrop := dropWhile_skipped hskip hne htoken (d :: rest)
  have hpos : ∀ c ∈ token, (fun c => !set.contains c) c = true := by simpa using htoken
  have htake : (token ++ d :: rest).takeWhile (fun c => !set.contains c) = token := by
    rw [List.takeWhile_append_of_pos hpos, List.takeWhile_cons_of_neg (by simpa using hd),
      List.append_nil]
  have hrest : (token ++ d :: rest).dropWhile (fun c => !set.contains c) = d :: rest := by
    rw [List.dropWhile_append_of_pos hpos, List.dropWhile_cons_of_neg (by simpa using hd)]
  have hne' : ¬ token ++ d :: rest = [] := by simp
  rw [tokens]
  simp only [hdrop, hne', if_false, htake, hrest, List.tail_cons]

end Tokens

/-- A character of the text and what the calls leave in its place. -/
def Overwritten (sets : List (List Byte)) (c c' : Byte) : Prop :=
  c' = c ∨ c' = 0 ∧ ∃ set ∈ sets, c ∈ set

/-- What the calls on the text between `before` and the null return and leave in memory. -/
structure Tokenized (sets : List CStr) (before text after : List Byte) (results : List (Option ℕ))
    (mem : List Byte) : Prop where
  points : List.Forall₂ (Points mem) results (tokens (sets.map CStr.bytes) text)
  frame : ∃ text', mem = before ++ (text' ++ 0 :: after) ∧
    List.Forall₂ (Overwritten (sets.map CStr.bytes)) text text'

namespace Tokenized

variable {set : CStr} {sets : List CStr} {before skipped token rest after mem : List Byte}
  {d : Byte} {results : List (Option ℕ)}

theorem noCalls : Tokenized [] before rest after [] (before ++ (rest ++ 0 :: after)) where
  points := .nil
  frame := ⟨rest, rfl, List.forall₂_same.mpr fun _ _ => .inl rfl⟩

theorem blank (hskip : ∀ c ∈ skipped, c ∈ set.bytes) :
    Tokenized (set :: sets) before skipped after (none :: List.replicate sets.length none)
      (before ++ (skipped ++ 0 :: after)) where
  points := by
    rw [List.map_cons, tokens_blank hskip, tokens_nil, List.length_map]
    refine .cons trivial ?_
    rw [List.forall₂_iff_get]
    simp [Points]
  frame := ⟨skipped, rfl, List.forall₂_same.mpr fun _ _ => .inl rfl⟩

theorem overwritten_mono {c c' : Byte} (h : Overwritten (sets.map CStr.bytes) c c') :
    Overwritten ((set :: sets).map CStr.bytes) c c' := by
  rcases h with h | ⟨h, bytes, hmem, hc⟩
  · exact .inl h
  · exact .inr ⟨h, bytes, .tail _ hmem, hc⟩

/-- A token up to the end of the text. The calls that follow find nothing. -/
theorem last (h : Tokenized sets (before ++ (skipped ++ token)) [] after results mem)
    (hskip : ∀ c ∈ skipped, c ∈ set.bytes) (hne : token ≠ [])
    (htoken : ∀ c ∈ token, c ∉ set.bytes) :
    Tokenized (set :: sets) before (skipped ++ token) after
      (some (before.length + skipped.length) :: results) mem where
  points := by
    obtain ⟨text', hmem, htext'⟩ := h.frame
    obtain rfl := (List.forall₂_nil_left_iff).mp htext'
    rw [List.map_cons, tokens_last hskip hne htoken]
    refine .cons ⟨hne, ?_⟩ h.points
    have hdrop : mem.drop (before.length + skipped.length) = token ++ 0 :: after := by
      rw [hmem, ← List.length_append]
      simp
    rw [StringAt, hdrop]
    simp
  frame := by
    obtain ⟨text', hmem, htext'⟩ := h.frame
    obtain rfl := (List.forall₂_nil_left_iff).mp htext'
    exact ⟨skipped ++ token, by simpa using hmem, List.forall₂_same.mpr fun _ _ => .inl rfl⟩

/-- A token up to the delimiter `d`, where the calls that follow start behind its null. -/
theorem inner (h : Tokenized sets (before ++ (skipped ++ (token ++ [0]))) rest after results mem)
    (hskip : ∀ c ∈ skipped, c ∈ set.bytes) (hne : token ≠ []) (htoken : ∀ c ∈ token, c ∉ set.bytes)
    (hd : d ∈ set.bytes) :
    Tokenized (set :: sets) before (skipped ++ (token ++ d :: rest)) after
      (some (before.length + skipped.length) :: results) mem where
  points := by
    obtain ⟨rest', hmem, -⟩ := h.frame
    rw [List.map_cons, tokens_inner hskip hne htoken hd]
    refine .cons ⟨hne, ?_⟩ h.points
    have hdrop : mem.drop (before.length + skipped.length) =
        token ++ 0 :: (rest' ++ 0 :: after) := by
      rw [hmem, ← List.length_append]
      simp
    rw [StringAt, hdrop]
    simp
  frame := by
    obtain ⟨rest', hmem, hrest'⟩ := h.frame
    refine ⟨skipped ++ (token ++ 0 :: rest'), by simpa using hmem, ?_⟩
    have hkeep : ∀ text : List Byte,
        List.Forall₂ (Overwritten ((set :: sets).map CStr.bytes)) text text :=
      fun text => List.forall₂_same.mpr fun _ _ => .inl rfl
    refine List.rel_append (hkeep skipped) (List.rel_append (hkeep token) (.cons ?_ ?_))
    · exact .inr ⟨rfl, set.bytes, by simp, hd⟩
    · exact hrest'.imp fun _ _ => overwritten_mono

end Tokenized

theorem strtokCalls_text (sets : List CStr) {string1 next : Option ℕ}
    {before text after : List Byte} (hp : string1.or next = some before.length)
    (htext : ∀ c ∈ text, c ≠ 0) :
    ∃ results s', strtokCalls string1 (sets.map CStr.buf) ⟨before ++ (text ++ 0 :: after), next⟩ =
        some (results, s') ∧ Tokenized sets before text after results s'.mem := by
  induction sets generalizing string1 next before text with
  | nil => exact ⟨[], _, rfl, .noCalls⟩
  | cons set sets ih =>
    have hzero : ∀ d ∈ text, d ∉ set.bytes → d ∉ set.bytes ∧ d ≠ 0 := fun d hd h => ⟨h, htext d hd⟩
    rw [List.map_cons, strtokCalls]
    cases cut set.bytes text with
    | blank hskip =>
      have hcall := @strtok_scan _ _ _ _ [] after _ _ hp hskip (by simp) (.inr rfl) fun _ => rfl
      simp only [List.nil_append, if_true] at hcall
      refine ⟨none :: List.replicate sets.length none, ⟨before ++ (text ++ 0 :: after), none⟩, ?_,
        .blank hskip⟩
      rw [hcall]
      simp [strtokCalls_none]
    | @last skipped token hskip hne htoken =>
      have hcall :=
        @strtok_scan _ _ _ _ _ after _ _ hp hskip (fun d hd => hzero d (by simp [hd]) (htoken d hd))
        (.inr rfl) fun h => absurd h hne
      simp only [if_true, if_neg hne] at hcall
      obtain ⟨results, s', hrun, hall⟩ := @ih none
        (some (before.length + skipped.length + token.length)) (before ++ (skipped ++ token)) []
        (by simp [Nat.add_assoc]) (by simp)
      refine ⟨_, s', ?_, hall.last hskip hne htoken⟩
      simp only [List.append_assoc, List.nil_append] at hrun ⊢
      rw [hcall]
      simp only [Option.bind_eq_bind, Option.bind_some, hrun, Option.pure_def]
    | @inner skipped token rest d hskip hne htoken hd =>
      have hd0 : d ≠ 0 := htext d (by simp)
      have hcall := @strtok_scan _ _ _ _ _ (rest ++ 0 :: after) _ _ hp hskip
        (fun d hd => hzero d (by simp [hd]) (htoken d hd)) (.inl hd) fun h => absurd h hne
      simp only [if_neg hd0] at hcall
      obtain ⟨results, s', hrun, hall⟩ := @ih none
        (some (before.length + skipped.length + token.length + 1))
        (before ++ (skipped ++ (token ++ [0]))) rest (by simp [Nat.add_assoc])
        fun c hc => htext c (by simp [hc])
      refine ⟨_, s', ?_, hall.inner hskip hne htoken hd⟩
      simp only [List.append_assoc, List.nil_append, List.cons_append] at hrun ⊢
      rw [hcall]
      simp only [Option.bind_eq_bind, Option.bind_some, hrun, Option.pure_def]

theorem exists_before {mem text : List Byte} {p : ℕ} (h : StringAt mem p text) :
    ∃ before after, mem = before ++ (text ++ 0 :: after) ∧ before.length = p := by
  obtain ⟨after, h⟩ := h
  have hle : p ≤ mem.length := by
    by_contra hlt
    rw [List.drop_eq_nil_of_le (by omega)] at h
    simp at h
  refine ⟨mem.take p, after, ?_, List.length_take_of_le hle⟩
  rw [List.append_assoc, List.singleton_append] at h
  rw [h, List.take_append_drop]

theorem overwritten_getElem? {sets : List (List Byte)} {before text text' after : List Byte}
    (h : List.Forall₂ (Overwritten sets) text text') (i : ℕ) :
    (before ++ (text' ++ after))[i]? = (before ++ (text ++ after))[i]? ∨
      (before.length ≤ i ∧ i < before.length + text.length ∧
        (before ++ (text' ++ after))[i]? = some 0 ∧
        ∃ set ∈ sets, ∃ c ∈ set, (before ++ (text ++ after))[i]? = some c) := by
  have hlen := h.length_eq
  by_cases hbefore : i < before.length
  · left
    rw [List.getElem?_append_left hbefore, List.getElem?_append_left hbefore]
  · obtain ⟨j, rfl⟩ := Nat.exists_eq_add_of_le (not_lt.mp hbefore)
    have hshift : ∀ l : List Byte, (before ++ l)[before.length + j]? = l[j]? := fun l => by
      rw [List.getElem?_append_right (Nat.le_add_right _ _), Nat.add_sub_cancel_left]
    rw [hshift, hshift]
    by_cases hj : j < text.length
    · have hj' : j < text'.length := hlen ▸ hj
      rw [List.getElem?_append_left hj, List.getElem?_append_left hj', List.getElem?_eq_getElem hj,
        List.getElem?_eq_getElem hj']
      rcases h.get hj hj' with hsame | ⟨hzero, set, hset, hc⟩
      · exact .inl (congrArg some hsame)
      · exact .inr ⟨Nat.le_add_right _ _, by omega, congrArg some hzero, set, hset, _, hc, rfl⟩
    · left
      rw [List.getElem?_append_right (not_lt.mp hj), List.getElem?_append_right (by omega), hlen]

/-- **`strtok` returns the tokens.** The first call with a text and the calls with the null pointer
    that follow, each with a delimiter string of its own, return pointers to the tokens of the
    text, in order and then null pointers. After all of them every token is still there,
    null-terminated where its pointer points to. Nothing behind the text is read, and nothing is
    written but nulls over delimiters in the text. -/
theorem strtok_tokens {mem : List Byte} {p : ℕ} {next : Option ℕ} {text : CStr} {sets : List CStr}
    (htext : StringAt mem p text.bytes) :
    ∃ results s', strtokCalls (some p) (sets.map CStr.buf) ⟨mem, next⟩ = some (results, s') ∧
      List.Forall₂ (Points s'.mem) results (tokens (sets.map CStr.bytes) text.bytes) ∧
      ∀ i, s'.mem[i]? = mem[i]? ∨ (p ≤ i ∧ i < p + text.bytes.length ∧ s'.mem[i]? = some 0 ∧
        ∃ set ∈ sets, ∃ c ∈ set.bytes, mem[i]? = some c) := by
  obtain ⟨before, after, rfl, rfl⟩ := exists_before htext
  obtain ⟨results, s', hrun, hpoints, text', hmem, htext'⟩ :=
    @strtokCalls_text sets (some before.length) next before text.bytes after rfl text.noNull
  refine ⟨results, s', hrun, hpoints, fun i => ?_⟩
  rw [hmem]
  have h := @overwritten_getElem? _ before _ _ (0 :: after) htext' i
  simpa only [List.mem_map, exists_exists_and_eq_and] using h

/-- `,ab c`, with a byte before it. -/
def sampleText : CStr := ⟨[ch ',', ch 'a', ch 'b', ch ' ', ch 'c'], by decide⟩

/-- A comma -/
def sampleComma : CStr := ⟨[ch ','], by decide⟩

/-- A blank and a comma -/
def sampleBlank : CStr := ⟨[ch ' ', ch ','], by decide⟩

theorem strtok_tokens_sample :
    ∃ results s', strtokCalls (some 1) [sampleBlank.buf, sampleComma.buf, sampleComma.buf]
        ⟨7 :: sampleText.buf, none⟩ = some (results, s') ∧
      List.Forall₂ (Points s'.mem) results [some [ch 'a', ch 'b'], some [ch 'c'], none] := by
  obtain ⟨results, s', hrun, hpoints, -⟩ := @strtok_tokens (7 :: sampleText.buf) 1 none sampleText
    [sampleBlank, sampleComma, sampleComma] (List.prefix_refl _)
  exact ⟨results, s', hrun, hpoints⟩

/-! ## Fields -/

/-- The parts of a text between the characters of `set` that are not empty. -/
def fields (set text : List Byte) : List (List Byte) := (text.splitOnP set.contains).filter (· ≠ [])

section Fields

variable {set skipped token text rest : List Byte} {d : Byte}

theorem fields_skipped (hskip : ∀ c ∈ skipped, c ∈ set) :
    fields set (skipped ++ text) = fields set text := by
  induction skipped with
  | nil => rfl
  | cons c skipped ih =>
    rw [← ih fun d hd => hskip d (by simp [hd])]
    simp [fields, List.splitOnP_cons_eq_if_modifyHead, hskip c (by simp)]

theorem fields_token (hne : token ≠ []) (htoken : ∀ c ∈ token, c ∉ set) :
    fields set token = [token] := by
  rw [fields, List.splitOnP_eq_singleton (by simpa using htoken)]
  simp [hne]

theorem fields_inner (hne : token ≠ []) (htoken : ∀ c ∈ token, c ∉ set) (hd : d ∈ set) :
    fields set (token ++ d :: rest) = token :: fields set rest := by
  rw [fields, List.splitOnP_append_cons_of_forall_mem (by simpa using htoken) d (by simpa using hd)]
  simp [fields, hne]

theorem tokens_replicate (set : List Byte) (n : ℕ) (text : List Byte) :
    tokens (List.replicate n set) text = ((fields set text).map some).takeD n none := by
  induction n generalizing text with
  | zero => rfl
  | succ n ih =>
    have hnil : fields set [] = [] := rfl
    rw [List.replicate_succ, List.takeD_succ]
    cases cut set text with
    | blank hskip =>
      have h := @fields_skipped _ _ [] hskip
      rw [List.append_nil, hnil] at h
      rw [tokens_blank hskip, ih, h, hnil]
      rfl
    | last hskip hne htoken =>
      rw [tokens_last hskip hne htoken, ih, fields_skipped hskip, fields_token hne htoken, hnil]
      rfl
    | inner hskip hne htoken hd =>
      rw [tokens_inner hskip hne htoken hd, ih, fields_skipped hskip, fields_inner hne htoken hd]
      rfl

end Fields

/-- **`strtok` splits the text.** Any number of calls with one delimiter string returns pointers to
    the non-empty parts of the text between the delimiters, all of them in order, and then
    null pointers. -/
theorem strtok_fields {mem : List Byte} {p : ℕ} {next : Option ℕ} {text set : CStr}
    (htext : StringAt mem p text.bytes) (n : ℕ) :
    ∃ results s', strtokCalls (some p) (List.replicate n set.buf) ⟨mem, next⟩ = some (results, s') ∧
      List.Forall₂ (Points s'.mem) results
        (((fields set.bytes text.bytes).map some).takeD n none) := by
  obtain ⟨before, after, rfl, rfl⟩ := exists_before htext
  obtain ⟨results, s', hrun, hall⟩ :=
    @strtokCalls_text (List.replicate n set) (some before.length) next before text.bytes after rfl
      text.noNull
  have hpoints := hall.points
  rw [List.map_replicate] at hrun hpoints
  rw [tokens_replicate] at hpoints
  exact ⟨results, s', hrun, hpoints⟩

theorem strtok_fields_sample :
    ∃ results s',
      strtokCalls (some 1) (List.replicate 4 sampleBlank.buf) ⟨7 :: sampleText.buf, none⟩ =
        some (results, s') ∧
      List.Forall₂ (Points s'.mem) results [some [ch 'a', ch 'b'], some [ch 'c'], none, none] :=
  @strtok_fields (7 :: sampleText.buf) 1 none sampleText sampleBlank (List.prefix_refl _) 4

end Mwdd32.Util
