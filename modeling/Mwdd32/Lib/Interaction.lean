import Mathlib.Tactic

/-!
# Programs that call an environment

`Prog Op Res α` is a program that calls operations `op : Op`, gets a response
in `Res op` for each and ends with a value in `α`. An environment `Env σ`
says, for each state `σ` of its own, which responses it may give and which
state follows; nothing makes it deterministic. `Runs E s p tr a s'` is one run of
`p` against `E`, with the trace `tr` of the calls and their responses.

* `Wp E P Q h s p`: weakest precondition of `p` after the calls `h`. Every call
  has to satisfy `P` on the calls before it, and the end has to satisfy `Q`.
* `Wp.sound`: a run of a program that satisfies `Wp` does so.
* `Wp.always`: what holds of all calls at the end holds of each when it is made.
* `wp_bind`, `wp_mono`, `wp_ite`: the rules for composing proofs.
* `runs_bind`, `runs_lift`: the runs of a sequence, and of a program over a larger set of
  operations.
* `Tracks`: the same for a summary that is folded over the calls, with `Tracks.sound`.
-/

namespace Interaction

universe u

/-- A program over the operations `Op`, with responses `Res`. -/
inductive Prog (Op : Type u) (Res : Op → Type u) (α : Type u)
  | ret (a : α)
  | call (op : Op) (k : Res op → Prog Op Res α)

namespace Prog

variable {Op : Type u} {Res : Op → Type u} {α β : Type u}

/-- Sequential composition. -/
def bind : Prog Op Res α → (α → Prog Op Res β) → Prog Op Res β
  | .ret a, f => f a
  | .call op k, f => .call op fun r => (k r).bind f

instance : Monad (Prog Op Res) where
  pure := .ret
  bind := bind

/-- Call one operation and return its response. -/
def perform (op : Op) : Prog Op Res (Res op) := .call op .ret

@[simp] theorem ret_bind (a : α) (f : α → Prog Op Res β) :
    (Prog.ret a : Prog Op Res α) >>= f = f a :=
  rfl

@[simp] theorem call_bind (op : Op) (k : Res op → Prog Op Res α) (f : α → Prog Op Res β) :
    (Prog.call op k) >>= f = .call op fun r => k r >>= f := rfl

end Prog

section Run

variable {Op : Type u} {Res : Op → Type u} {σ : Type*} {α β : Type u}

/-- A call together with its response. -/
abbrev Event (Op : Type u) (Res : Op → Type u) := Σ op : Op, Res op

/-- `E s op r s'`: in state `s` the environment may answer `r` to `op` and move
    to `s'`. -/
abbrev Env (σ : Type*) (Op : Type u) (Res : Op → Type u) := σ → (op : Op) → Res op → σ → Prop

/-- The environment that may answer anything. -/
def Env.any : Env Unit Op Res := fun _ _ _ _ => True

/-- `p` started in the environment state `s` makes the calls `tr`, returns `a`
    and leaves the environment in `s'`. -/
inductive Runs (E : Env σ Op Res) : σ → Prog Op Res α → List (Event Op Res) → α → σ → Prop
  | ret {s : σ} {a : α} : Runs E s (.ret a) [] a s
  | call {s s₁ s' : σ} {op : Op} {k : Res op → Prog Op Res α} {r : Res op}
      {tr : List (Event Op Res)} {a : α} :
      E s op r s₁ → Runs E s₁ (k r) tr a s' → Runs E s (.call op k) (⟨op, r⟩ :: tr) a s'

variable (E : Env σ Op Res) (P : List (Event Op Res) → Event Op Res → Prop)

/-- After the calls `h`, from the environment state `s`: each further call of
    the program satisfies `P` on the calls before it, and the end satisfies `Q`. -/
def Wp (Q : List (Event Op Res) → α → σ → Prop) :
    List (Event Op Res) → σ → Prog Op Res α → Prop
  | h, s, .ret a => Q h a s
  | h, s, .call op k => ∀ r s', E s op r s' → P h ⟨op, r⟩ ∧ Wp Q (h ++ [⟨op, r⟩]) s' (k r)

variable {E P} {Q R : List (Event Op Res) → α → σ → Prop} {h : List (Event Op Res)} {s : σ}

@[simp] theorem wp_ret (a : α) : Wp E P Q h s (.ret a) ↔ Q h a s := Iff.rfl

@[simp] theorem wp_pure (a : α) : Wp E P Q h s (pure a) ↔ Q h a s := Iff.rfl

@[simp] theorem wp_call (op : Op) (k : Res op → Prog Op Res α) :
    Wp E P Q h s (.call op k) ↔
      ∀ r s', E s op r s' → P h ⟨op, r⟩ ∧ Wp E P Q (h ++ [⟨op, r⟩]) s' (k r) := Iff.rfl

theorem wp_mono {p : Prog Op Res α} (hp : Wp E P Q h s p) (hQ : ∀ h a s, Q h a s → R h a s) :
    Wp E P R h s p := by
  induction p generalizing h s with
  | ret a => exact hQ _ _ _ hp
  | call op k ih =>
    intro r s' hr
    obtain ⟨h1, h2⟩ := hp r s' hr
    exact ⟨h1, ih r h2⟩

theorem wp_bind {p : Prog Op Res β} {f : β → Prog Op Res α} :
    Wp E P Q h s (p >>= f) ↔ Wp E P (fun h b s => Wp E P Q h s (f b)) h s p := by
  induction p generalizing h s with
  | ret b => exact Iff.rfl
  | call op k ih =>
    constructor <;> intro hp r s' hr <;> obtain ⟨h1, h2⟩ := hp r s' hr
    · exact ⟨h1, (ih r).mp h2⟩
    · exact ⟨h1, (ih r).mpr h2⟩

/-- `p` makes the calls of one branch only. -/
theorem wp_ite {c : Prop} [Decidable c] {p q : Prog Op Res α} (hp : c → Wp E P Q h s p)
    (hq : ¬ c → Wp E P Q h s q) : Wp E P Q h s (if c then p else q) := by
  split_ifs with hc
  · exact hp hc
  · exact hq hc

/-- An environment that always has an answer lets every program run to its end. -/
theorem Runs.exists (hE : ∀ s op, ∃ r s', E s op r s') (p : Prog Op Res α) (s : σ) :
    ∃ tr a s', Runs E s p tr a s' := by
  induction p generalizing s with
  | ret a => exact ⟨[], a, s, .ret⟩
  | call op k ih =>
    obtain ⟨r, s₁, hr⟩ := hE s op
    obtain ⟨tr, a, s', hrun⟩ := ih r s₁
    exact ⟨_, a, s', .call hr hrun⟩

/-- The run in which `f` gives the answers. -/
def Prog.answer (f : (op : Op) → Res op) : Prog Op Res α → List (Event Op Res) × α
  | .ret a => ([], a)
  | .call op k => (⟨op, f op⟩ :: ((k (f op)).answer f).1, ((k (f op)).answer f).2)

theorem Runs.answer {E : Env Unit Op Res} {f : (op : Op) → Res op} (hE : ∀ op, E () op (f op) ())
    (p : Prog Op Res α) : Runs E () p (p.answer f).1 (p.answer f).2 () := by
  induction p with
  | ret a => exact .ret
  | call op k ih => exact .call (hE op) (ih (f op))

/-- The run in which `f` gives the answers, from the state of the environment. -/
def Prog.answerIn (f : σ → (op : Op) → Res op × σ) : Prog Op Res α → σ → List (Event Op Res) × α × σ
  | .ret a, s => ([], a, s)
  | .call op k, s =>
    let r := (k (f s op).1).answerIn f (f s op).2
    (⟨op, (f s op).1⟩ :: r.1, r.2)

theorem Runs.answerIn {f : σ → (op : Op) → Res op × σ} (hE : ∀ s op, E s op (f s op).1 (f s op).2)
    (p : Prog Op Res α) (s : σ) :
    Runs E s p (p.answerIn f s).1 (p.answerIn f s).2.1 (p.answerIn f s).2.2 := by
  induction p generalizing s with
  | ret a => exact .ret
  | call op k ih => exact .call (hE s op) (ih _ _)

/-- More answers, more runs. -/
theorem Runs.mono (E' : Env σ Op Res) {p : Prog Op Res α} {tr : List (Event Op Res)} {a : α}
    {s' : σ} (hr : Runs E s p tr a s') (hE : ∀ s op r s', E s op r s' → E' s op r s') :
    Runs E' s p tr a s' := by
  induction hr with
  | ret => exact .ret
  | call h _ ih => exact .call (hE _ _ _ _ h) ih

/-- The same run, seen by an environment with less state. -/
theorem Runs.map {τ : Type*} (E' : Env τ Op Res) (f : σ → τ) {p : Prog Op Res α}
    {tr : List (Event Op Res)} {a : α} {s' : σ} (hr : Runs E s p tr a s')
    (hE : ∀ s op r s', E s op r s' → E' (f s) op r (f s')) :
    Runs E' (f s) p tr a (f s') := by
  induction hr with
  | ret => exact .ret
  | call h _ ih => exact .call (hE _ _ _ _ h) ih

/-- What every answer keeps of the state of the environment. -/
theorem Runs.invariant {I : σ → Prop} {p : Prog Op Res α} {tr : List (Event Op Res)} {a : α}
    {s' : σ} (hr : Runs E s p tr a s') (hE : ∀ s op r s', I s → E s op r s' → I s')
    (hs : I s) : I s' := by
  induction hr with
  | ret => exact hs
  | call h _ ih => exact ih (hE _ _ _ _ hs h)

/-- A run of two programs in sequence is a run of the first and one of the second. -/
theorem runs_bind {p : Prog Op Res β} {f : β → Prog Op Res α} {tr : List (Event Op Res)} {a : α}
    {s' : σ} :
    Runs E s (p >>= f) tr a s' ↔
      ∃ tr₁ b s₁ tr₂, Runs E s p tr₁ b s₁ ∧ Runs E s₁ (f b) tr₂ a s' ∧ tr = tr₁ ++ tr₂ := by
  constructor
  · intro h
    induction p generalizing s tr with
    | ret b => exact ⟨[], b, s, tr, .ret, h, rfl⟩
    | call op k ih =>
      cases h with
      | call hE h =>
        obtain ⟨tr₁, b, s₁, tr₂, h₁, h₂, rfl⟩ := ih _ h
        exact ⟨_, b, s₁, tr₂, .call hE h₁, h₂, rfl⟩
  · rintro ⟨tr₁, b, s₁, tr₂, h₁, h₂, rfl⟩
    induction h₁ with
    | ret => exact h₂
    | call hE _ ih => exact .call hE (ih h₂)

theorem runs_cons {p : Prog Op Res α} {e : Event Op Res} {tr : List (Event Op Res)} {a : α}
    {s' : σ} :
    Runs E s p (e :: tr) a s' ↔
      ∃ k s₁, p = .call e.1 k ∧ E s e.1 e.2 s₁ ∧ Runs E s₁ (k e.2) tr a s' := by
  constructor
  · intro h
    cases h with
    | call hE h => exact ⟨_, _, rfl, hE, h⟩
  · rintro ⟨k, s₁, rfl, hE, h⟩
    exact .call hE h

/-- Each answer in a trace is one that the environment may give. -/
theorem Runs.forall_env {p : Prog Op Res α} {tr : List (Event Op Res)} {a : α} {s' : σ}
    (hr : Runs E s p tr a s') : ∀ e ∈ tr, ∃ s₀ s₁, E s₀ e.1 e.2 s₁ := by
  induction hr with
  | ret => simp
  | call h _ ih =>
    intro e he
    rcases List.mem_cons.mp he with rfl | he
    · exact ⟨_, _, h⟩
    · exact ih e he

/-- Each call of a trace satisfies `P` on the calls before it. -/
def Always (P : List (Event Op Res) → Event Op Res → Prop) (tr : List (Event Op Res)) : Prop :=
  ∀ pre e post, tr = pre ++ e :: post → P pre e

theorem always_nil (P : List (Event Op Res) → Event Op Res → Prop) : Always P [] := by
  intro pre e post he
  simp at he

theorem always_cons {P : List (Event Op Res) → Event Op Res → Prop} {e : Event Op Res}
    {tr : List (Event Op Res)} :
    Always P (e :: tr) ↔ P [] e ∧ Always (fun pre => P (e :: pre)) tr := by
  constructor
  · intro h
    exact ⟨h [] e tr rfl, fun pre e' post he => h (e :: pre) e' post (by rw [he, List.cons_append])⟩
  · intro ⟨h1, h2⟩ pre e' post he
    cases pre with
    | nil =>
      cases he
      exact h1
    | cons e₁ pre =>
      cases he
      exact h2 pre e' post rfl

/-- **Soundness of `Wp`.** -/
theorem Wp.sound_from {p : Prog Op Res α} {tr : List (Event Op Res)} {a : α} {s' : σ}
    (hp : Wp E P Q h s p) (hr : Runs E s p tr a s') :
    (∀ pre e post, tr = pre ++ e :: post → P (h ++ pre) e) ∧ Q (h ++ tr) a s' := by
  induction hr generalizing h with
  | ret => exact ⟨fun pre e post he => by simp at he, by simpa using hp⟩
  | call hE _ ih =>
    obtain ⟨h1, h2⟩ := hp _ _ hE
    obtain ⟨i1, i2⟩ := ih h2
    refine ⟨fun pre e post he => ?_, by simpa using i2⟩
    cases pre with
    | nil => cases he; simpa using h1
    | cons e' pre =>
      simp only [List.cons_append, List.cons.injEq] at he
      obtain ⟨rfl, he⟩ := he
      simpa using i1 pre e post he

theorem Wp.sound {p : Prog Op Res α} {tr : List (Event Op Res)} {a : α} {s' : σ}
    (hp : Wp E P Q [] s p) (hr : Runs E s p tr a s') : Always P tr ∧ Q tr a s' := by
  simpa [Always] using hp.sound_from hr

/-- What the end says about every call of a trace holds at each call, as every program can be run to
    its end. -/
theorem Wp.always {P' : List (Event Op Res) → Event Op Res → Prop} {p : Prog Op Res α}
    (hE : ∀ s op, ∃ r s', E s op r s') (hQ : ∀ tr a s, Q tr a s → Always P' tr)
    (hp : Wp E P Q h s p) :
    Wp E P' Q h s p := by
  induction p generalizing h s with
  | ret a => exact hp
  | call op k ih =>
    intro r s₁ hr
    have hk := (hp r s₁ hr).2
    obtain ⟨tr, a, s', hrun⟩ := Runs.exists hE (k r) s₁
    refine ⟨hQ _ _ _ (hk.sound_from hrun).2 h ⟨op, r⟩ tr (List.append_assoc _ _ _), ih r hk⟩

end Run

/-! ## Larger sets of operations -/

section Lift

variable {Op Op' : Type u} {Res : Op' → Type u} {σ : Type*} {α β : Type u} (f : Op → Op')

/-- A program whose operations are among those of a larger set. -/
def Prog.lift : Prog Op (fun op => Res (f op)) α → Prog Op' Res α
  | .ret a => .ret a
  | .call op k => .call (f op) fun r => (k r).lift

/-- A call among those of the larger set. -/
def liftEvent (e : Event Op fun op => Res (f op)) : Event Op' Res := ⟨f e.1, e.2⟩

variable {f} {E : Env σ Op' Res} {s s' : σ} {p : Prog Op (fun op => Res (f op)) α} {a : α}

theorem runs_lift {tr : List (Event Op' Res)} : Runs E s (p.lift f) tr a s' ↔
    ∃ tr₀, Runs (fun s op r s' => E s (f op) r s') s p tr₀ a s' ∧ tr = tr₀.map (liftEvent f) := by
  constructor
  · intro h
    induction p generalizing s tr with
    | ret b =>
      cases h
      exact ⟨[], .ret, rfl⟩
    | call op k ih =>
      cases h with
      | call hE h =>
        obtain ⟨tr₀, hrun, rfl⟩ := ih _ h
        exact ⟨_, .call hE hrun, rfl⟩
  · rintro ⟨tr₀, h, rfl⟩
    induction h with
    | ret => exact .ret
    | call hE _ ih =>
      rw [List.map_cons, Prog.lift]
      exact .call hE ih

end Lift

/-! ## Summaries of a run -/

section Tracks

variable {Op : Type u} {Res : Op → Type u} {σ S : Type*} {α β : Type u} (E : Env σ Op Res)
  (step : S → Event Op Res → S)

/-- From the summary `L` of the calls made so far and the environment state `s`, every run of the
    program ends with a summary, a result and a state that satisfy `Q`. -/
def Tracks (Q : S → α → σ → Prop) : S → σ → Prog Op Res α → Prop
  | L, s, .ret a => Q L a s
  | L, s, .call op k => ∀ r s', E s op r s' → Tracks Q (step L ⟨op, r⟩) s' (k r)

variable {E step} {Q R : S → α → σ → Prop} {L : S} {s : σ}

theorem tracks_mono {p : Prog Op Res α} (hp : Tracks E step Q L s p)
    (hQ : ∀ L a s, Q L a s → R L a s) : Tracks E step R L s p := by
  induction p generalizing L s with
  | ret a => exact hQ _ _ _ hp
  | call op k ih => exact fun r s' hr => ih r (hp r s' hr)

theorem tracks_bind {p : Prog Op Res β} {f : β → Prog Op Res α} :
    Tracks E step Q L s (p >>= f) ↔
      Tracks E step (fun L b s => Tracks E step Q L s (f b)) L s p := by
  induction p generalizing L s with
  | ret b => exact Iff.rfl
  | call op k ih =>
    exact forall_congr' fun r => forall_congr' fun s' => imp_congr_right fun _ => ih r

theorem tracks_ite {c : Prop} [Decidable c] {p q : Prog Op Res α} (hp : c → Tracks E step Q L s p)
    (hq : ¬ c → Tracks E step Q L s q) : Tracks E step Q L s (if c then p else q) := by
  split_ifs with hc
  · exact hp hc
  · exact hq hc

theorem Tracks.sound {p : Prog Op Res α} {tr : List (Event Op Res)} {a : α} {s' : σ}
    (hp : Tracks E step Q L s p) (hr : Runs E s p tr a s') : Q (tr.foldl step L) a s' := by
  induction hr generalizing L with
  | ret => exact hp
  | call hE _ ih => exact ih (hp _ _ hE)

end Tracks

end Interaction
