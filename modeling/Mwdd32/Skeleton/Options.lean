import Mwdd32.Util.Strings

/-!
# Command line options of the base drivers

The loops of `drv32_init_base`, `mwdd32_init_base`, `sec32_init_base` and `dev32_init` over the
switches of the `DEVICE=` line, on the buffer of its null-terminated string.

* `scanLoop_null`: the loop ends within the buffer, and looks behind every `-` and `/` although
  `strtoul` moves its cursor.
* `initOptions`: which switches it finds.
-/

namespace Mwdd32.Skeleton

open Util

/-- The characters that a switch begins with, a hyphen and a slash -/
def switchChars : List Byte := [ch '-', ch '/']

/-- `"Q"` -/
def quietName : List Byte := [ch 'Q']

/-- `"IRQ_LEVEL:"` -/
def irqLevelName : List Byte :=
  [ch 'I', ch 'R', ch 'Q', ch '_', ch 'L', ch 'E', ch 'V', ch 'E', ch 'L', ch ':']

/-- The variables `quiet`, `irq_ok` and `irq_level` -/
structure Options where
  quiet : Bool
  irqOk : Bool
  irqLevel : BitVec 16

/-! ## Model -/

/-- `for (tmp = strpbrk(szParm, …); tmp; tmp = strpbrk(tmp, …)) { tmp ++; … }` with the switch
    characters. `body` says what the rest of the body does to `tmp` and the variables, and `fuel`
    bounds the evaluations of the condition. -/
def scanLoop {σ : Type} (body : List Byte → σ → Option (List Byte × σ)) :
    ℕ → List Byte → σ → Option σ
  | 0, _, _ => none
  | fuel + 1, tmp, o => do
    match ← strpbrk switchChars tmp with
    | none => return o
    | some tmp =>
      let r ← body tmp.tail o
      scanLoop body fuel r.1 r.2

/-- The body of the loop of `drv32_init_base.c`, lines 147–163. -/
def drv32Switch (tmp : List Byte) (o : Options) : Option (List Byte × Options) := do
  if ← strncmpEq tmp quietName then return (tmp, { o with quiet := true })
  else if ← strncmpEq tmp irqLevelName then
    let r ← strtoulBuf (tmp.drop irqLevelName.length) 0
    return (r.2, { o with irqLevel := r.1.setWidth 16, irqOk := true })
  else return (tmp, o)

/-- The body of the three other loops. -/
def quietSwitch (tmp : List Byte) (quiet : Bool) : Option (List Byte × Bool) := do
  if ← strncmpEq tmp quietName then return (tmp, true)
  else return (tmp, quiet)

/-- `skeleton/basedev/drv32_init_base.c`, lines 144–164, with the `irq_level` of the driver -/
def drv32InitBaseOptions (fuel : ℕ) (irqLevel : BitVec 16) (szParm : List Byte) :
    Option Options := do
  let s ← strupr szParm
  scanLoop drv32Switch fuel s ⟨false, false, irqLevel⟩

/-- The quiet switch: `strupr` and the loop. -/
def quietOption (fuel : ℕ) (szParm : List Byte) : Option Bool := do
  let s ← strupr szParm
  scanLoop quietSwitch fuel s false

/-- `mwdd32/mwdd32_init_base.c`, lines 160–170 -/
def mwdd32InitBaseOptions : ℕ → List Byte → Option Bool := quietOption

/-- `skeleton/ses/sec32_init_base.c`, lines 150–160 -/
def sec32InitBaseOptions : ℕ → List Byte → Option Bool := quietOption

/-- `skeleton/device/dev32_init.c`, lines 114–124 -/
def dev32InitOptions : ℕ → List Byte → Option Bool := quietOption

/-! ## The switches of a string -/

/-- Behind a `-` or `/` of `s` comes `name`. -/
def HasSwitch (name s : List Byte) : Prop :=
  ∃ pre c post, s = pre ++ c :: (name ++ post) ∧ c ∈ switchChars

theorem not_hasSwitch_nil (name : List Byte) : ¬ HasSwitch name [] := by
  rintro ⟨pre, c, post, h, -⟩
  simp at h

theorem hasSwitch_cons {name : List Byte} {c : Byte} {s : List Byte} :
    HasSwitch name (c :: s) ↔ (c ∈ switchChars ∧ name <+: s) ∨ HasSwitch name s := by
  constructor
  · intro ⟨pre, d, post, h, hd⟩
    cases pre with
    | nil =>
      rw [List.nil_append, List.cons.injEq] at h
      obtain ⟨rfl, rfl⟩ := h
      exact .inl ⟨hd, List.prefix_append _ _⟩
    | cons p pre =>
      rw [List.cons_append, List.cons.injEq] at h
      exact .inr ⟨pre, d, post, h.2, hd⟩
  · rintro (⟨hc, post, rfl⟩ | ⟨pre, d, post, rfl, hd⟩)
    · exact ⟨[], c, post, rfl, hc⟩
    · exact ⟨c :: pre, d, post, rfl, hd⟩

section Visit

variable {σ : Type}

/-- Look behind every `-` and `/` of a string. -/
def visit (step : List Byte → σ → σ) : List Byte → σ → σ
  | [], o => o
  | c :: s, o => visit step s (if c = ch '-' ∨ c = ch '/' then step s o else o)

variable {step : List Byte → σ → σ}

theorem visit_cons (c : Byte) (s : List Byte) (o : σ) :
    visit step (c :: s) o = visit step s (if c ∈ switchChars then step s o else o) := by
  simp only [visit, switchChars, List.mem_cons, List.not_mem_nil, or_false]

/-- No switch begins with a digit, so `strtoul` passes over none. -/
theorem visit_passed (hstep : ∀ s o, isdigit (peek s) = true → step s o = o) {s e : List Byte}
    (h : Passed s e) (o : σ) : visit step s o = visit step e o := by
  induction h generalizing o with
  | refl => rfl
  | @cons c s e hc _ ih =>
    have hskip : (if c ∈ switchChars then step s o else o) = o := by
      split_ifs with hsw
      · refine hstep s o (hc ?_)
        simpa [switchChars] using hsw
      · rfl
    rw [visit_cons, hskip, ih]

theorem visit_dropWhile (s : List Byte) (o : σ) :
    visit step (s.dropWhile (· ∉ switchChars)) o = visit step s o := by
  induction s with
  | nil => rfl
  | cons c s ih =>
    rw [List.dropWhile_cons]
    split_ifs with hc
    · rw [ih, visit_cons, if_neg (by simpa using hc)]
    · rfl

end Visit

/-! ## The loop -/

section Loop

variable {σ : Type} {body : List Byte → σ → Option (List Byte × σ)} {step : List Byte → σ → σ}

/-- **The loop visits every switch** and ends, when its body stays in the buffer and passes over no
    switch. -/
theorem scanLoop_null (hstep : ∀ s o, isdigit (peek s) = true → step s o = o)
    (hbody : ∀ s o, ∃ e, body (s ++ [0]) o = some (e ++ [0], step s o) ∧ Passed s e)
    {fuel : ℕ} {s : List Byte} (hs : ∀ c ∈ s, c ≠ 0) (hfuel : s.length < fuel) (o : σ) :
    scanLoop body fuel (s ++ [0]) o = some (visit step s o) := by
  induction fuel generalizing s o with
  | zero => omega
  | succ fuel ih =>
    have hlen := (List.dropWhile_suffix (fun x => decide (x ∉ switchChars)) (l := s)).length_le
    rw [scanLoop, strpbrk_null hs, ← visit_dropWhile s o]
    cases hd : s.dropWhile (· ∉ switchChars) with
    | nil => rfl
    | cons c t =>
      rw [hd, List.length_cons] at hlen
      have hc : c ∈ switchChars := by
        have hhead := List.head?_dropWhile_not (fun x => decide (x ∉ switchChars)) s
        rw [hd] at hhead
        simpa using hhead
      have ht : ∀ x ∈ t, x ≠ 0 := fun x hx =>
        hs x ((List.dropWhile_suffix _).mem (by rw [hd]; exact .tail _ hx))
      obtain ⟨e, he, hpassed⟩ := hbody t o
      have hte := hpassed.suffix.length_le
      simp only [reduceCtorEq, if_false, Option.bind_eq_bind, Option.bind_some, List.cons_append,
        List.tail_cons, he]
      rw [visit_cons, if_pos hc, visit_passed hstep hpassed]
      exact ih (fun x hx => ht x (hpassed.suffix.mem hx)) (by omega) _

end Loop

/-! ## The switches of the drivers -/

/-- What a switch of `drv32_init_base` does, with what is behind its `-` or `/`. -/
def drv32Step (s : List Byte) (o : Options) : Options :=
  if quietName <+: s then { o with quiet := true }
  else if irqLevelName <+: s then
    { o with irqLevel := (strtoul (s.drop irqLevelName.length) 0).1.setWidth 16, irqOk := true }
  else o

/-- `quiet` behind one more option -/
def quietStep (s : List Byte) (quiet : Bool) : Bool := quiet || quietName <+: s

theorem peek_eq_of_prefix_cons {c : Byte} {name s : List Byte} (h : c :: name <+: s) :
    peek s = c := by
  obtain ⟨post, rfl⟩ := h
  rfl

theorem drv32Step_digit (s : List Byte) (o : Options) (h : isdigit (peek s) = true) :
    drv32Step s o = o := by
  unfold drv32Step
  rw [if_neg, if_neg]
  · intro hp
    rw [peek_eq_of_prefix_cons hp] at h
    exact absurd h (by decide)
  · intro hp
    rw [peek_eq_of_prefix_cons hp] at h
    exact absurd h (by decide)

theorem quietStep_digit (s : List Byte) (quiet : Bool) (h : isdigit (peek s) = true) :
    quietStep s quiet = quiet := by
  have hp : ¬ quietName <+: s := by
    intro hp
    rw [peek_eq_of_prefix_cons hp] at h
    exact absurd h (by decide)
  simp [quietStep, hp]

theorem drv32Switch_null (s : List Byte) (o : Options) : ∃ e,
    drv32Switch (s ++ [0]) o = some (e ++ [0], drv32Step s o) ∧ Passed s e := by
  have hq := @strncmpEq_null quietName (by decide) s
  have hi := @strncmpEq_null irqLevelName (by decide) s
  unfold drv32Switch drv32Step
  simp only [hq, hi, Option.bind_eq_bind, Option.bind_some, decide_eq_true_eq]
  by_cases hquiet : quietName <+: s
  · rw [if_pos hquiet, if_pos hquiet]
    exact ⟨s, rfl, .refl s⟩
  rw [if_neg hquiet, if_neg hquiet]
  by_cases hirq : irqLevelName <+: s
  · obtain ⟨post, rfl⟩ := hirq
    rw [if_pos (List.prefix_append _ _), if_pos (List.prefix_append _ _), List.append_assoc,
      List.drop_left, List.drop_left, strtoulBuf_null]
    exact ⟨_, rfl, (strtoul_passed post).append (by decide)⟩
  · rw [if_neg hirq, if_neg hirq]
    exact ⟨s, rfl, .refl s⟩

theorem quietSwitch_null (s : List Byte) (quiet : Bool) : ∃ e,
    quietSwitch (s ++ [0]) quiet = some (e ++ [0], quietStep s quiet) ∧ Passed s e := by
  have hq := @strncmpEq_null quietName (by decide) s
  unfold quietSwitch quietStep
  simp only [hq, Option.bind_eq_bind, Option.bind_some, decide_eq_true_eq]
  refine ⟨s, ?_, .refl s⟩
  by_cases hquiet : quietName <+: s
  · simp [hquiet]
  · simp [hquiet]

/-! ## The options -/

/-- A flag that only one kind of switch sets is set by a switch of that kind. -/
theorem visit_flag {σ : Type} {step : List Byte → σ → σ} {flag : σ → Bool} {name : List Byte}
    (hstep : ∀ s o, flag (step s o) = true ↔ flag o = true ∨ name <+: s) (s : List Byte) (o : σ) :
    flag (visit step s o) = true ↔ flag o = true ∨ HasSwitch name s := by
  induction s generalizing o with
  | nil => simp [visit, not_hasSwitch_nil]
  | cons c s ih =>
    rw [visit_cons, ih, hasSwitch_cons]
    split_ifs with hc
    · rw [hstep, or_assoc]
      simp [hc]
    · simp [hc]

theorem drv32Step_quiet (s : List Byte) (o : Options) :
    (drv32Step s o).quiet = true ↔ o.quiet = true ∨ quietName <+: s := by
  unfold drv32Step
  split_ifs with hq hi
  · simp [hq]
  · simp [hq]
  · simp [hq]

theorem drv32Step_irqOk (s : List Byte) (o : Options) :
    (drv32Step s o).irqOk = true ↔ o.irqOk = true ∨ irqLevelName <+: s := by
  unfold drv32Step
  split_ifs with hq hi
  · have hi : ¬ irqLevelName <+: s := by
      intro hi
      exact absurd ((peek_eq_of_prefix_cons hq).symm.trans (peek_eq_of_prefix_cons hi)) (by decide)
    simp [hi]
  · simp [hi]
  · simp [hi]

/-- Without a further switch `irq_level` stays. -/
theorem visit_irqLevel_of_not {s : List Byte} (h : ¬ HasSwitch irqLevelName s) (o : Options) :
    (visit drv32Step s o).irqLevel = o.irqLevel := by
  induction s generalizing o with
  | nil => rfl
  | cons c s ih =>
    rw [hasSwitch_cons, not_or] at h
    rw [visit_cons, ih h.2]
    split_ifs with hc
    · unfold drv32Step
      rw [if_neg fun hi => h.1 ⟨hc, hi⟩]
      split_ifs <;> rfl
    · rfl

/-- `irq_level` is that of the last switch. -/
theorem visit_irqLevel {pre post : List Byte} {c : Byte} (hc : c ∈ switchChars)
    (hlast : ¬ HasSwitch irqLevelName (irqLevelName ++ post)) (o : Options) :
    (visit drv32Step (pre ++ c :: (irqLevelName ++ post)) o).irqLevel =
      (strtoul post 0).1.setWidth 16 := by
  induction pre generalizing o with
  | nil =>
    have hq : ¬ quietName <+: irqLevelName ++ post := by
      intro hq
      have hpeek : ch 'I' = ch 'Q' := peek_eq_of_prefix_cons hq
      exact absurd hpeek (by decide)
    rw [List.nil_append, visit_cons, if_pos hc, visit_irqLevel_of_not hlast]
    unfold drv32Step
    rw [if_neg hq, if_pos (List.prefix_append _ _), List.drop_left]
  | cons d pre ih =>
    rw [List.cons_append, visit_cons]
    exact ih _

/-- What `drv32_init_base` makes of the switches of the line `s`, in upper case. -/
structure Found (s : List Byte) (irqLevel : BitVec 16) (o : Options) : Prop where
  quiet : o.quiet = true ↔ HasSwitch quietName s
  irqOk : o.irqOk = true ↔ HasSwitch irqLevelName s
  level : ∀ pre c post, s = pre ++ c :: (irqLevelName ++ post) → c ∈ switchChars →
    ¬ HasSwitch irqLevelName (irqLevelName ++ post) → o.irqLevel = (strtoul post 0).1.setWidth 16
  none : ¬ HasSwitch irqLevelName s → o.irqLevel = irqLevel

/-- **Command line options.** Whatever the line, the loops of the four drivers end within its
    buffer. -/
theorem initOptions (szParm : CStr) (irqLevel : BitVec 16) : ∃ o,
    Found (szParm.bytes.map upper) irqLevel o ∧ ∀ fuel, szParm.bytes.length < fuel →
      drv32InitBaseOptions fuel irqLevel szParm.buf = some o ∧
      mwdd32InitBaseOptions fuel szParm.buf = some o.quiet ∧
      sec32InitBaseOptions fuel szParm.buf = some o.quiet ∧
      dev32InitOptions fuel szParm.buf = some o.quiet := by
  set s := szParm.bytes.map upper with hs
  have hnull : ∀ c ∈ s, c ≠ 0 := by
    intro c hc
    obtain ⟨d, hd, rfl⟩ := List.mem_map.mp hc
    exact upper_ne_zero (szParm.noNull d hd)
  have hstrupr : strupr szParm.buf = some (s ++ [0]) := strupr_null szParm.noNull
  have hflag := @visit_flag Options drv32Step Options.quiet quietName drv32Step_quiet s
    ⟨false, false, irqLevel⟩
  have hquiet : visit quietStep s false = (visit drv32Step s ⟨false, false, irqLevel⟩).quiet := by
    have h := @visit_flag Bool quietStep id quietName (by simp [quietStep]) s false
    rw [Bool.eq_iff_iff]
    exact h.trans (hflag.trans (by simp)).symm
  refine ⟨visit drv32Step s ⟨false, false, irqLevel⟩, ⟨?_, ?_, ?_, ?_⟩, fun fuel hfuel => ?_⟩
  · simpa using hflag
  · simpa using @visit_flag Options drv32Step Options.irqOk irqLevelName drv32Step_irqOk s
      ⟨false, false, irqLevel⟩
  · intro pre c post hpost hc hlast
    rw [hpost]
    exact visit_irqLevel hc hlast _
  · intro hno
    exact visit_irqLevel_of_not hno _
  · have hlen : s.length < fuel := by rwa [hs, List.length_map]
    have hdrv := scanLoop_null drv32Step_digit drv32Switch_null hnull hlen ⟨false, false, irqLevel⟩
    have hq := scanLoop_null quietStep_digit quietSwitch_null hnull hlen false
    rw [hquiet] at hq
    unfold drv32InitBaseOptions mwdd32InitBaseOptions sec32InitBaseOptions dev32InitOptions
      quietOption
    simp only [hstrupr, Option.bind_eq_bind, Option.bind_some]
    exact ⟨hdrv, hq, hq, hq⟩

end Mwdd32.Skeleton
