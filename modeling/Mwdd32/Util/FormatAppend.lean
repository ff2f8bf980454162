import Mwdd32.Util.Vsprintf

/-!
# Whole formats

A format that does not end within a conversion specification can be followed by another one: the
loop goes on with the second where the arguments of the first end. If no `%n` stores into a string
that is read, the text of the second is that of a call of its own. What `%n` stores counts the
characters from the beginning.

* `readSpec_extend`: a specification is read up to its letter, whatever follows.
* `vsprintfLoop_shift`, `vsprintfLoop_append_out`: the loop on later arguments, and behind other
  output.
* `vsprintf_append`: a format of two parts.
-/

namespace Mwdd32.Util

/-! ## Formats -/

/-- The conversions that take an argument. -/
def takesArg (c : Byte) : Bool := ("cspnoXxdiu".toList.map ch).contains c

/-- The arguments of a specification: those of the stars and the one to convert. -/
def Spec.used (s : Spec) : ℕ := s.arg + if takesArg (peek s.fmt) then 1 else 0

/-- The specification at `fmt`, its values apart -/
def bareSpec (fmt : List Byte) : Spec := readSpec (fun _ => 0) fmt 0

/-- The number of arguments that a format takes, none if it has a null character or ends within a
    specification. The values of the arguments do not matter. -/
def formatArgs : List Byte → Option ℕ
  | [] => some 0
  | c :: fmt =>
    if c = 0 then none
    else if c ≠ ch '%' then formatArgs fmt
    else if peek (bareSpec fmt).fmt = 0 then none
    else (formatArgs (bareSpec fmt).next).map ((bareSpec fmt).used + ·)
termination_by fmt => fmt.length
decreasing_by
  · exact Nat.lt_succ_self _
  · exact Nat.lt_succ_of_le ((Spec.length_next_le _).trans (length_readSpec_le _ _ _))

/-- The arguments from the `k`-th one on -/
def shift (k : ℕ) (args : ℕ → BitVec 32) (i : ℕ) : BitVec 32 := args (k + i)

/-- Output behind other output -/
def Output.append (out out' : Output) : Output :=
  ⟨out.text ++ out'.text, out.stores ++ out'.stores.map fun p => (p.1, out.length + p.2)⟩

/-- No `%n` has stored into the memory of the strings. -/
def Output.Unread (mem : BitVec 32 → Option Byte) (out : Output) : Prop :=
  ∀ p ∈ out.stores, ∀ x, (x - p.1).toNat < 4 → mem x = none

section Output

variable (out out' : Output) (s : List Byte)

theorem Output.length_append : (out.append out').length = out.length + out'.length := by
  simp [Output.length, Output.append, BitVec.ofNat_add]

theorem Output.append_put : (out.append out').put s = out.append (out'.put s) := by
  simp [Output.append, Output.put]

theorem Output.append_empty : out.append {} = out := by
  simp [Output.append]

variable {mem : BitVec 32 → Option Byte} {out out'}

theorem Output.unread_empty : Output.Unread mem { text := s } :=
  fun _ h => absurd h List.not_mem_nil

/-- The later stores are at the same addresses. -/
theorem Output.unread_append : (out.append out').Unread mem ↔ out.Unread mem ∧ out'.Unread mem := by
  constructor
  · intro h
    refine ⟨fun p hp => h p (List.mem_append_left _ hp), fun p hp => ?_⟩
    exact h (p.1, out.length + p.2) (List.mem_append_right _ (List.mem_map.mpr ⟨p, hp, rfl⟩))
  · rintro ⟨h, h'⟩ p hp
    rcases List.mem_append.mp hp with hp | hp
    · exact h p hp
    · obtain ⟨q, hq, rfl⟩ := List.mem_map.mp hp
      exact h' q hq

theorem Output.Unread.mono (h : out'.Unread mem) (hle : out.stores <+: out'.stores) :
    out.Unread mem :=
  fun p hp => h p (hle.subset hp)

theorem storeInt_of_none {p : BitVec 32 × BitVec 32}
    (h : ∀ x, (x - p.1).toNat < 4 → mem x = none) : storeInt mem p = mem := by
  funext x
  rw [storeInt]
  split_ifs with hx
  · rw [h x hx, Option.map_none]
  · rfl

/-- What is not read does not change. -/
theorem Output.Unread.memory_eq (h : out.Unread mem) : out.memory mem = mem := by
  obtain ⟨text, stores⟩ := out
  induction stores with
  | nil => rfl
  | cons p stores ih =>
    rw [Output.memory, List.foldl_cons, storeInt_of_none (h p List.mem_cons_self)]
    exact ih fun q hq => h q (List.mem_cons_of_mem p hq)

end Output

/-! ## Specifications with something behind them -/

/-- The same with `rest` behind the format -/
def Spec.extend (s : Spec) (rest : List Byte) : Spec := { s with fmt := s.fmt ++ rest }

section Extend

variable {args : ℕ → BitVec 32} {s : Spec} {fmt rest : List Byte}

theorem peek_append (h : fmt ≠ []) : peek (fmt ++ rest) = peek fmt := by
  cases fmt with
  | nil => exact absurd rfl h
  | cons c fmt => rfl

theorem skipAtoi_append (i : BitVec 32) (h : (skipAtoi i fmt).2 ≠ []) :
    skipAtoi i (fmt ++ rest) = ((skipAtoi i fmt).1, (skipAtoi i fmt).2 ++ rest) := by
  induction fmt generalizing i with
  | nil => exact absurd rfl h
  | cons c fmt ih =>
    rw [skipAtoi] at h
    rw [List.cons_append, skipAtoi, skipAtoi]
    split_ifs at h ⊢ with hc
    · exact ih _ h
    · rfl

theorem readFlags_extend (flags : Flags) (h : (readFlags flags fmt).2 ≠ []) :
    readFlags flags (fmt ++ rest) = ((readFlags flags fmt).1, (readFlags flags fmt).2 ++ rest) := by
  induction fmt generalizing flags with
  | nil => exact absurd rfl h
  | cons c fmt ih =>
    rw [readFlags] at h
    rw [List.cons_append, readFlags, readFlags]
    split_ifs at h ⊢
    all_goals first
      | exact ih _ h
      | rfl

/-- What is left of a format that has a letter was there before. -/
theorem ne_nil_of_length_le {fmt fmt' : List Byte} (hlen : fmt'.length ≤ fmt.length)
    (h : fmt' ≠ []) :
    fmt ≠ [] := by
  rintro rfl
  exact h (List.eq_nil_of_length_eq_zero (Nat.le_zero.mp hlen))

theorem Spec.readWidth_extend (h : (s.readWidth args).fmt ≠ []) :
    (s.extend rest).readWidth args = (s.readWidth args).extend rest := by
  have hne := ne_nil_of_length_le (Spec.length_readWidth_le args s) h
  obtain ⟨flags, width, precision, qualifier, fmt, arg⟩ := s
  unfold Spec.readWidth at h ⊢
  simp only [Spec.extend, peek_append hne, List.tail_append_of_ne_nil hne] at h ⊢
  split_ifs at h ⊢ with hdigit hstar hneg
  · rw [skipAtoi_append 0 h]
  · rfl
  · rfl
  · rfl

/-- What stands behind the point of a precision. -/
theorem Spec.readPrecision_dot {flags : Flags} {width precision : BitVec 32}
    {qualifier : Option Byte} {arg : ℕ} (hdot : peek fmt = ch '.') :
    Spec.readPrecision args ⟨flags, width, precision, qualifier, fmt, arg⟩ =
      let r : BitVec 32 × List Byte × ℕ :=
        if isDigit (peek fmt.tail) then ((skipAtoi 0 fmt.tail).1, (skipAtoi 0 fmt.tail).2, arg)
        else if peek fmt.tail = ch '*' then (args arg, fmt.tail.tail, arg + 1)
        else (precision, fmt.tail, arg)
      ⟨flags, width, if r.1.slt 0#32 then 0 else r.1, qualifier, r.2.1, r.2.2⟩ := by
  unfold Spec.readPrecision
  rw [if_pos hdot]
  dsimp only
  split_ifs <;> rfl

theorem Spec.readPrecision_extend (h : (s.readPrecision args).fmt ≠ []) :
    (s.extend rest).readPrecision args = (s.readPrecision args).extend rest := by
  have hne := ne_nil_of_length_le (Spec.length_readPrecision_le args s) h
  obtain ⟨flags, width, precision, qualifier, fmt, arg⟩ := s
  have hpeek : peek (fmt ++ rest) = peek fmt := peek_append hne
  have hrest : (fmt ++ rest).tail = fmt.tail ++ rest := List.tail_append_of_ne_nil hne
  by_cases hdot : peek fmt = ch '.'
  · rw [Spec.readPrecision_dot hdot] at h
    rw [Spec.extend, Spec.readPrecision_dot (hpeek.trans hdot), Spec.readPrecision_dot hdot, hrest]
    dsimp only at h ⊢
    have htail : fmt.tail ≠ [] := by
      intro hnil
      rw [hnil] at h
      exact h rfl
    rw [peek_append htail, List.tail_append_of_ne_nil htail]
    by_cases hdigit : isDigit (peek fmt.tail) = true
    · simp only [if_pos hdigit] at h ⊢
      rw [skipAtoi_append 0 h]
      rfl
    · simp only [if_neg hdigit]
      by_cases hstar : peek fmt.tail = ch '*'
      · simp only [if_pos hstar]
        rfl
      · simp only [if_neg hstar]
        rfl
  · unfold Spec.readPrecision
    rw [if_neg hdot]
    exact if_neg (hpeek ▸ hdot)

theorem Spec.readQualifier_extend (h : s.readQualifier.fmt ≠ []) :
    (s.extend rest).readQualifier = s.readQualifier.extend rest := by
  have hne := ne_nil_of_length_le (Spec.length_readQualifier_le s) h
  obtain ⟨flags, width, precision, qualifier, fmt, arg⟩ := s
  unfold Spec.readQualifier at h ⊢
  simp only [Spec.extend, peek_append hne, List.tail_append_of_ne_nil hne] at h ⊢
  split_ifs <;> rfl

/-- **A specification** is read up to its letter, whatever stands behind it. -/
theorem readSpec_extend {arg : ℕ} (h : (readSpec args fmt arg).fmt ≠ []) :
    readSpec args (fmt ++ rest) arg = (readSpec args fmt arg).extend rest := by
  have hprecision := ne_nil_of_length_le (Spec.length_readQualifier_le _) h
  have hwidth := ne_nil_of_length_le (Spec.length_readPrecision_le args _) hprecision
  have hflags := ne_nil_of_length_le (Spec.length_readWidth_le args _) hwidth
  rw [readSpec, readSpec, readFlags_extend {} hflags]
  rw [← Spec.readQualifier_extend h, ← Spec.readPrecision_extend hprecision,
    ← Spec.readWidth_extend hwidth]
  rfl

end Extend

/-! ## Later arguments -/

/-- The same with `k` arguments before its own -/
def Spec.later (s : Spec) (k : ℕ) : Spec := { s with arg := k + s.arg }

section Later

variable {args : ℕ → BitVec 32} {k : ℕ} {s : Spec}

theorem Spec.readWidth_later :
    (s.later k).readWidth args = (s.readWidth (shift k args)).later k := by
  unfold Spec.readWidth
  by_cases hdigit : isDigit (peek s.fmt) = true
  · rw [if_pos hdigit]
    exact if_pos hdigit
  · rw [if_neg hdigit]
    refine (if_neg hdigit).trans ?_
    by_cases hstar : peek s.fmt = ch '*'
    · rw [if_pos hstar]
      refine (if_pos hstar).trans ?_
      by_cases hneg : (args (k + s.arg)).slt 0#32 = true
      · rw [show (shift k args s.arg).slt 0#32 = true from hneg, if_pos rfl]
        exact if_pos hneg
      · rw [if_neg (show ¬ (shift k args s.arg).slt 0#32 = true from hneg)]
        exact if_neg hneg
    · rw [if_neg hstar]
      exact if_neg hstar

theorem Spec.readPrecision_later :
    (s.later k).readPrecision args = (s.readPrecision (shift k args)).later k := by
  by_cases hdot : peek s.fmt = ch '.'
  · obtain ⟨flags, width, precision, qualifier, fmt, arg⟩ := s
    rw [Spec.later, Spec.readPrecision_dot hdot, Spec.readPrecision_dot hdot]
    dsimp only
    by_cases hdigit : isDigit (peek fmt.tail) = true
    · simp only [if_pos hdigit]
      rfl
    · simp only [if_neg hdigit]
      by_cases hstar : peek fmt.tail = ch '*'
      · simp only [if_pos hstar]
        rfl
      · simp only [if_neg hstar]
        rfl
  · unfold Spec.readPrecision
    rw [if_neg hdot]
    exact if_neg hdot

theorem Spec.readQualifier_later : (s.later k).readQualifier = s.readQualifier.later k := by
  unfold Spec.readQualifier
  by_cases hletter : peek s.fmt = ch 'h' ∨ peek s.fmt = ch 'l' ∨ peek s.fmt = ch 'L'
  · rw [if_pos hletter]
    exact if_pos hletter
  · rw [if_neg hletter]
    exact if_neg hletter

theorem readSpec_later (fmt : List Byte) (arg : ℕ) :
    readSpec args fmt (k + arg) = (readSpec (shift k args) fmt arg).later k := by
  rw [readSpec, readSpec, ← Spec.readQualifier_later, ← Spec.readPrecision_later,
    ← Spec.readWidth_later]
  rfl

end Later

/-! ## Values that do not matter -/

/-- The same place in the format and in the arguments -/
def SamePlace (s s' : Spec) : Prop := s.fmt = s'.fmt ∧ s.arg = s'.arg

section Place

variable {args args' : ℕ → BitVec 32} {s s' : Spec}

theorem SamePlace.readWidth (h : SamePlace s s') :
    SamePlace (s.readWidth args) (s'.readWidth args') := by
  obtain ⟨flags, width, precision, qualifier, fmt, arg⟩ := s
  obtain ⟨flags', width', precision', qualifier', fmt', arg'⟩ := s'
  obtain ⟨rfl, rfl⟩ := h
  unfold Spec.readWidth
  by_cases hdigit : isDigit (peek fmt) = true
  · rw [if_pos hdigit, if_pos hdigit]
    exact ⟨rfl, rfl⟩
  · rw [if_neg hdigit, if_neg hdigit]
    split_ifs <;> exact ⟨rfl, rfl⟩

theorem SamePlace.readPrecision (h : SamePlace s s') :
    SamePlace (s.readPrecision args) (s'.readPrecision args') := by
  obtain ⟨flags, width, precision, qualifier, fmt, arg⟩ := s
  obtain ⟨flags', width', precision', qualifier', fmt', arg'⟩ := s'
  obtain ⟨rfl, rfl⟩ := h
  by_cases hdot : peek fmt = ch '.'
  · rw [Spec.readPrecision_dot hdot, Spec.readPrecision_dot hdot]
    dsimp only
    split_ifs <;> exact ⟨rfl, rfl⟩
  · unfold Spec.readPrecision
    rw [if_neg hdot, if_neg hdot]
    exact ⟨rfl, rfl⟩

theorem SamePlace.readQualifier (h : SamePlace s s') :
    SamePlace s.readQualifier s'.readQualifier := by
  obtain ⟨flags, width, precision, qualifier, fmt, arg⟩ := s
  obtain ⟨flags', width', precision', qualifier', fmt', arg'⟩ := s'
  obtain ⟨rfl, rfl⟩ := h
  unfold Spec.readQualifier
  split_ifs <;> exact ⟨rfl, rfl⟩

theorem readSpec_samePlace (fmt : List Byte) (arg : ℕ) :
    SamePlace (readSpec args fmt arg) (readSpec args' fmt arg) :=
  SamePlace.readQualifier (.readPrecision (.readWidth ⟨rfl, rfl⟩))

end Place

/-! ## Conversions -/

/-- The characters that a conversion writes -/
def Spec.printed (mem : BitVec 32 → Option Byte) (args : ℕ → BitVec 32) (s : Spec) :
    Option (List Byte) :=
  let c := peek s.fmt
  if c = ch 'c' then some (s.char args)
  else if c = ch 's' then s.string mem args
  else if c = ch 'p' then s.pointer args
  else if c = ch 'o' then s.integer args 8
  else if c = ch 'X' then Spec.integer args { s with flags.large := true } 16
  else if c = ch 'x' then s.integer args 16
  else if c = ch 'd' ∨ c = ch 'i' then Spec.integer args { s with flags.sign := true } 10
  else if c = ch 'u' then s.integer args 10
  else some ((if c ≠ ch '%' then [ch '%'] else []) ++ if c ≠ 0 then [c] else [])

section Convert

variable {mem : BitVec 32 → Option Byte} {args : ℕ → BitVec 32} {s : Spec} {out : Output}

theorem Spec.convert_eq : s.convert mem args out =
    if peek s.fmt = ch 'n' then
      some ({ out with stores := out.stores ++ [(args s.arg, out.length)] }, s.used)
    else (s.printed (out.memory mem) args).map fun text => (out.put text, s.used) := by
  unfold Spec.convert Spec.printed Spec.used
  generalize peek s.fmt = c
  by_cases hc : c ∈ "cspnoXxdiu".toList.map ch
  · have htakes : takesArg c = true := List.contains_iff_mem.mpr hc
    rw [htakes, if_pos rfl]
    fin_cases hc <;> rfl
  · have hne : ∀ x ∈ "cspnoXxdiu".toList, c ≠ ch x :=
      fun x hx h => hc (List.mem_map.mpr ⟨x, hx, h.symm⟩)
    have hdi : ¬ (c = ch 'd' ∨ c = ch 'i') := not_or.mpr ⟨hne 'd' (by decide), hne 'i' (by decide)⟩
    have htakes : takesArg c = false := Bool.eq_false_iff.mpr (mt List.contains_iff_mem.mp hc)
    simp only [htakes, if_neg (hne 'c' (by decide)), if_neg (hne 's' (by decide)),
      if_neg (hne 'p' (by decide)), if_neg (hne 'n' (by decide)), if_neg (hne 'o' (by decide)),
      if_neg (hne 'X' (by decide)), if_neg (hne 'x' (by decide)), if_neg hdi,
      if_neg (hne 'u' (by decide))]
    rw [if_neg Bool.false_ne_true, Option.map_some, add_zero]
    split_ifs <;> simp [Output.put]

theorem Spec.pointer_eq : s.pointer args =
    if s.field_width = -1 then number (args s.arg) 16 8 s.precision { s.flags with zeropad := true }
    else number (args s.arg) 16 s.field_width s.precision s.flags := by
  unfold Spec.pointer
  split_ifs <;> rfl

/-- A conversion depends on its letter, its argument and what stands between. -/
theorem Spec.printed_congr {args' : ℕ → BitVec 32} {fmt : List Byte} {arg : ℕ}
    (hpeek : peek fmt = peek s.fmt) (harg : args' arg = args s.arg) :
    Spec.printed mem args' { s with fmt, arg } = s.printed mem args := by
  obtain ⟨flags, width, precision, qualifier, fmt', arg'⟩ := s
  dsimp only at hpeek harg
  simp only [Spec.printed, Spec.char, Spec.string, Spec.pointer_eq, Spec.integer, hpeek, harg]

theorem Spec.printed_later {k : ℕ} : (s.later k).printed mem args = s.printed mem (shift k args) :=
  Spec.printed_congr rfl rfl

theorem Spec.used_later {k : ℕ} : (s.later k).used = k + s.used := Nat.add_assoc ..

theorem Spec.convert_later {k : ℕ} : (s.later k).convert mem args out =
    (s.convert mem (shift k args) out).map fun r => (r.1, k + r.2) := by
  rw [Spec.convert_eq, Spec.convert_eq, Spec.printed_later, Spec.used_later]
  by_cases hn : peek s.fmt = ch 'n'
  · rw [if_pos hn]
    exact if_pos hn
  · rw [if_neg hn, Option.map_map]
    exact if_neg hn

/-- A conversion adds to what is stored. -/
theorem Spec.convert_stores {r : Output × ℕ} (h : s.convert mem args out = some r) :
    out.stores <+: r.1.stores := by
  rw [Spec.convert_eq] at h
  split_ifs at h
  · obtain rfl := Option.some.inj h
    exact List.prefix_append _ _
  · obtain ⟨text, -, rfl⟩ := Option.map_eq_some_iff.mp h
    exact List.prefix_rfl

/-- A conversion goes on behind what was written before. -/
theorem Spec.convert_append {out' : Output} (h : (out.append out').Unread mem) :
    s.convert mem args (out.append out') =
      (s.convert mem args out').map fun r => (out.append r.1, r.2) := by
  rw [Spec.convert_eq, Spec.convert_eq, h.memory_eq, (Output.unread_append.mp h).2.memory_eq]
  split_ifs
  · simp [Output.append, ← Output.length_append]
  · rw [Option.map_map]
    congr 1
    funext text
    rw [Output.append_put]
    rfl

theorem Spec.used_extend {rest : List Byte} (h : s.fmt ≠ []) : (s.extend rest).used = s.used := by
  rw [Spec.used, Spec.extend, peek_append h]
  rfl

theorem Spec.convert_extend {rest : List Byte} (h : s.fmt ≠ []) :
    (s.extend rest).convert mem args out = s.convert mem args out := by
  have hpeek : peek (s.extend rest).fmt = peek s.fmt := peek_append h
  have hprinted (mem : BitVec 32 → Option Byte) :
      (s.extend rest).printed mem args = s.printed mem args := Spec.printed_congr hpeek rfl
  rw [Spec.convert_eq, Spec.convert_eq, hpeek, Spec.used_extend h, hprinted]
  rfl

theorem Spec.next_extend {rest : List Byte} (h : peek s.fmt ≠ 0) :
    (s.extend rest).next = s.next ++ rest := by
  have hne : s.fmt ≠ [] := fun hnil => h (by rw [hnil]; rfl)
  have hpeek : peek (s.extend rest).fmt ≠ 0 := (peek_append hne).trans_ne h
  rw [Spec.next, Spec.next, if_pos h, if_pos hpeek]
  exact List.tail_append_of_ne_nil hne

theorem Spec.convert_used {r : Output × ℕ} (h : s.convert mem args out = some r) :
    r.2 = s.used := by
  rw [Spec.convert_eq] at h
  split_ifs at h
  · exact (congrArg Prod.snd (Option.some.inj h)).symm
  · obtain ⟨text, -, rfl⟩ := Option.map_eq_some_iff.mp h
    rfl

end Convert

/-! ## The loop -/

section Loop

variable {mem : BitVec 32 → Option Byte} {args : ℕ → BitVec 32} {fmt fmt' : List Byte} {k : ℕ}

/-- The loop sees only the arguments from its own on. -/
theorem vsprintfLoop_shift (arg : ℕ) (out : Output) :
    vsprintfLoop mem args fmt (k + arg) out = vsprintfLoop mem (shift k args) fmt arg out := by
  fun_induction vsprintfLoop mem (shift k args) fmt arg out with
  | case1 arg out => rw [vsprintfLoop]
  | case2 fmt arg out => rw [vsprintfLoop, if_pos rfl]
  | case3 c fmt arg out h hpercent ih => rw [vsprintfLoop, if_neg h, if_pos hpercent, ih]
  | case4 c fmt arg out h hpercent s ih =>
    rw [vsprintfLoop, if_neg h, if_neg hpercent]
    dsimp only
    rw [readSpec_later, Spec.convert_later, Option.bind_map]
    exact congrArg _ (funext fun r => ih r)

/-- The loop adds to what is stored. -/
theorem vsprintfLoop_stores {arg : ℕ} {out r : Output}
    (h : vsprintfLoop mem args fmt arg out = some r) : out.stores <+: r.stores := by
  fun_induction vsprintfLoop mem args fmt arg out with
  | case1 arg out =>
    obtain rfl := Option.some.inj h
    exact List.prefix_rfl
  | case2 fmt arg out =>
    obtain rfl := Option.some.inj h
    exact List.prefix_rfl
  | case3 c fmt arg out hc hpercent ih => exact ih h
  | case4 c fmt arg out hc hpercent s ih =>
    obtain ⟨r', hr', h⟩ := Option.bind_eq_some_iff.mp h
    exact (Spec.convert_stores hr').trans (ih r' h)

/-- What was written before stays in front, if no `%n` stores into what is read. -/
theorem vsprintfLoop_append_out {arg : ℕ} {out out' r : Output} (hr : r.Unread mem) :
    vsprintfLoop mem args fmt arg (out.append out') = some r ↔
      ∃ r', vsprintfLoop mem args fmt arg out' = some r' ∧ out.append r' = r := by
  fun_induction vsprintfLoop mem args fmt arg out' with
  | case1 arg out' => simp [vsprintfLoop]
  | case2 fmt arg out' => simp [vsprintfLoop]
  | case3 c fmt arg out' hc hpercent ih =>
    rw [vsprintfLoop, if_neg hc, if_pos hpercent, Output.append_put]
    exact ih
  | case4 c fmt arg out' hc hpercent s ih =>
    rw [vsprintfLoop, if_neg hc, if_neg hpercent]
    dsimp only
    rw [show readSpec args fmt arg = s from rfl]
    -- What is stored so far is among what is stored in the end.
    constructor
    · intro h
      obtain ⟨q, hq, hloop⟩ := Option.bind_eq_some_iff.mp h
      have hout := hr.mono ((Spec.convert_stores hq).trans (vsprintfLoop_stores hloop))
      rw [Spec.convert_append hout] at hq
      obtain ⟨q', hq', rfl⟩ := Option.map_eq_some_iff.mp hq
      obtain ⟨r', hr', happend⟩ := (ih q').mp hloop
      exact ⟨r', Option.bind_eq_some_iff.mpr ⟨q', hq', hr'⟩, happend⟩
    · rintro ⟨r', h, rfl⟩
      obtain ⟨q, hq, hloop⟩ := Option.bind_eq_some_iff.mp h
      obtain ⟨hout, hr'⟩ := Output.unread_append.mp hr
      have hout' := hr'.mono ((Spec.convert_stores hq).trans (vsprintfLoop_stores hloop))
      rw [Spec.convert_append (Output.unread_append.mpr ⟨hout, hout'⟩), hq, Option.map_some,
        Option.bind_some]
      exact (ih q).mpr ⟨r', hloop, rfl⟩

/-- The loop on a format within another one, if no `%n` stores into what is read. -/
theorem vsprintfLoop_eq {arg : ℕ} {out r : Output} (hr : r.Unread mem) :
    vsprintfLoop mem args fmt arg out = some r ↔
      ∃ r', vsprintf mem fmt (shift arg args) = some r' ∧ out.append r' = r := by
  have happend := @vsprintfLoop_append_out mem (shift arg args) fmt 0 out {} r hr
  rwa [Output.append_empty, ← vsprintfLoop_shift, add_zero] at happend

/-- A specification read in its place, and the same read alone. -/
theorem samePlace_readSpec (arg : ℕ) :
    SamePlace (readSpec args fmt arg) ((bareSpec fmt).later arg) := by
  obtain ⟨hfmt, harg⟩ : SamePlace (readSpec (shift arg args) fmt 0) (bareSpec fmt) :=
    readSpec_samePlace fmt 0
  have hlater : readSpec args fmt arg = (readSpec (shift arg args) fmt 0).later arg :=
    readSpec_later fmt 0
  rw [hlater]
  exact ⟨hfmt, congrArg (arg + ·) harg⟩

/-- The loop goes through a whole format and then through the rest. -/
theorem vsprintfLoop_append (h : formatArgs fmt = some k) (arg : ℕ) (out : Output) :
    vsprintfLoop mem args (fmt ++ fmt') arg out =
      (vsprintfLoop mem args fmt arg out).bind fun out =>
        vsprintfLoop mem args fmt' (arg + k) out := by
  fun_induction formatArgs fmt generalizing k arg out with
  | case1 =>
    obtain rfl := Option.some.inj h
    rw [List.nil_append, vsprintfLoop, Option.bind_some, add_zero]
  | case2 fmt => cases h
  | case3 c fmt hc hpercent ih =>
    rw [List.cons_append, vsprintfLoop, vsprintfLoop, if_neg hc, if_neg hc, if_pos hpercent,
      if_pos hpercent]
    exact ih h _ _
  | case4 c fmt hc hpercent hs => cases h
  | case5 c fmt hc hpercent hs ih =>
    obtain ⟨j, hj, rfl⟩ := Option.map_eq_some_iff.mp h
    obtain ⟨hfmt, harg⟩ : SamePlace (readSpec args fmt arg) ((bareSpec fmt).later arg) :=
      samePlace_readSpec arg
    have hletter : peek (readSpec args fmt arg).fmt ≠ 0 := hfmt ▸ hs
    have hne : (readSpec args fmt arg).fmt ≠ [] := fun hnil => hletter (by rw [hnil]; rfl)
    have hnext : (readSpec args fmt arg).next = (bareSpec fmt).next := by
      rw [Spec.next, Spec.next, hfmt]
      rfl
    have hused : (readSpec args fmt arg).used = arg + (bareSpec fmt).used := by
      rw [Spec.used, hfmt, harg]
      exact Nat.add_assoc ..
    rw [List.cons_append, vsprintfLoop, vsprintfLoop, if_neg hc, if_neg hc, if_neg hpercent,
      if_neg hpercent]
    dsimp only
    rw [readSpec_extend hne, Spec.convert_extend hne, Spec.next_extend hletter, Option.bind_assoc]
    refine Option.bind_congr fun r hr => ?_
    rw [hnext, ih hj, Spec.convert_used hr, hused, Nat.add_assoc]

theorem formatArgs_append (h : formatArgs fmt = some k) :
    formatArgs (fmt ++ fmt') = (formatArgs fmt').map (k + ·) := by
  fun_induction formatArgs fmt generalizing k with
  | case1 =>
    obtain rfl := Option.some.inj h
    simp
  | case2 fmt => cases h
  | case3 c fmt hc hpercent ih =>
    rw [List.cons_append, formatArgs, if_neg hc, if_pos hpercent]
    exact ih h
  | case4 c fmt hc hpercent hs => cases h
  | case5 c fmt hc hpercent hs ih =>
    obtain ⟨j, hj, rfl⟩ := Option.map_eq_some_iff.mp h
    have hne : (bareSpec fmt).fmt ≠ [] := fun hnil => hs (by rw [hnil]; rfl)
    have hextend : bareSpec (fmt ++ fmt') = (bareSpec fmt).extend fmt' := readSpec_extend hne
    rw [List.cons_append, formatArgs, if_neg hc, if_neg hpercent, hextend, Spec.used_extend hne,
      Spec.next_extend hs, ih hj, Option.map_map]
    refine (if_neg (peek_append hne ▸ hs)).trans ?_
    exact congrArg (Option.map · _) (funext fun i => (Nat.add_assoc ..).symm)

/-- **Two formats in one**: a format that takes `k` arguments and does not end within a
    specification is written first. Then the loop goes on with what stands behind it, the arguments
    from the `k`-th one on and the memory as `%n` has left it. If no `%n` stores into the memory of
    the strings, it does there what a call of its own does, and the values that `%n` stores count
    from the beginning. -/
theorem vsprintf_append (fmt' : List Byte) (h : formatArgs fmt = some k) :
    formatArgs (fmt ++ fmt') = (formatArgs fmt').map (k + ·) ∧
    vsprintf mem (fmt ++ fmt') args =
      (vsprintf mem fmt args).bind (vsprintfLoop mem (shift k args) fmt' 0) ∧
    ∀ r : Output, r.Unread mem → (vsprintf mem (fmt ++ fmt') args = some r ↔
      ∃ out out', vsprintf mem fmt args = some out ∧ vsprintf mem fmt' (shift k args) = some out' ∧
        out.append out' = r) := by
  have hloop : vsprintf mem (fmt ++ fmt') args =
      (vsprintf mem fmt args).bind fun out => vsprintfLoop mem args fmt' k out := by
    rw [vsprintf, vsprintfLoop_append h, zero_add]
    rfl
  refine ⟨formatArgs_append h, ?_, fun r hr => ?_⟩
  · rw [hloop]
    exact Option.bind_congr fun out _ => vsprintfLoop_shift 0 out
  · rw [hloop, Option.bind_eq_some_iff]
    simp only [vsprintfLoop_eq hr]
    exact exists_congr fun out => ⟨fun ⟨h1, out', h2⟩ => ⟨out', h1, h2⟩,
      fun ⟨out', h1, h2⟩ => ⟨h1, out', h2⟩⟩

/-- `"ab"` at address 0x1000, and nothing else -/
def abMem (x : BitVec 32) : Option Byte := [ch 'a', ch 'b', 0][(x - 0x1000).toNat]?

/-- A width, a number, where to store and a string -/
def widthArgs (k : ℕ) : BitVec 32 := [3, 7, 0x2000, 0x1000].getD k 0

/-- `"%*d%n"` and `"%s"` -/
theorem vsprintf_append_width :
    formatArgs ("%*d%n%s".toList.map ch) = some 4 ∧
    vsprintf abMem ("%*d%n%s".toList.map ch) widthArgs =
      some ⟨"  7ab".toList.map ch, [(0x2000, 3)]⟩ := by
  have h : formatArgs ("%*d%n".toList.map ch) = some 3 := by decide +kernel
  have hunread : Output.Unread abMem ⟨"  7ab".toList.map ch, [(0x2000, 3)]⟩ := by
    intro p hp x hx
    obtain rfl := List.mem_singleton.mp hp
    exact List.getElem?_eq_none (by simp only [List.length_cons, List.length_nil]; bv_omega)
  obtain ⟨hargs, -, happend⟩ := @vsprintf_append abMem widthArgs _ _ ("%s".toList.map ch) h
  have hfirst : vsprintf abMem ("%*d%n".toList.map ch) widthArgs =
      some ⟨"  7".toList.map ch, [(0x2000, 3)]⟩ := by decide +kernel
  have hsecond : vsprintf abMem ("%s".toList.map ch) (shift 3 widthArgs) =
      some { text := "ab".toList.map ch } := by decide +kernel
  exact ⟨hargs.trans (by decide +kernel), (happend _ hunread).mpr ⟨_, _, hfirst, hsecond, rfl⟩⟩

/-- A `%n` into the string to be printed -/
example : vsprintf abMem ("x%n%s".toList.map ch) (fun _ => 0x1000) =
    some ⟨[ch 'x', 1], [(0x1000, 1)]⟩ := by decide +kernel

end Loop

end Mwdd32.Util
