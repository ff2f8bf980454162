import Mathlib.Tactic

/-!
# Labelled transition systems

`System σ α` has initial states and labelled steps. `Reachable M` are the
states of its runs, `Path M s tr u` a finite run from `s` to `u` that records
each step with its label.

* `Reachable.invariant`: what holds initially and is kept by every step holds
  in every reachable state.
* `Simulation.reachable`: if every step of `M` is matched by a step of `N` or
  by no step, every reachable state of `M` is related to one of `N`.
* `Refinement.path`: if what is observed of every step of `M` is a step of `N`,
  what is observed of every run of `M` is a run of `N`.
-/

namespace Transition

/-- A labelled transition system. -/
structure System (σ α : Type*) where
  init : σ → Prop
  step : σ → α → σ → Prop

/-- One step of a run: the state before, the label, the state after. -/
structure Step (σ α : Type*) where
  before : σ
  label : α
  after : σ

variable {σ τ α β : Type*} {M : System σ α} {N : System τ β}

/-- The states of the runs of `M` -/
inductive Reachable (M : System σ α) : σ → Prop
  | init {s : σ} : M.init s → Reachable M s
  | step {s t : σ} {a : α} : Reachable M s → M.step s a t → Reachable M t

/-- A finite run from one state to another. -/
inductive Path (M : System σ α) : σ → List (Step σ α) → σ → Prop
  | nil {s : σ} : Path M s [] s
  | cons {s t u : σ} {a : α} {tr : List (Step σ α)} :
      M.step s a t → Path M t tr u → Path M s (⟨s, a, t⟩ :: tr) u

/-- Every step of a run from a reachable state is a step from a reachable state. -/
theorem Path.step_of_mem {s u : σ} {tr : List (Step σ α)} (h : Path M s tr u) (hs : Reachable M s)
    {e : Step σ α} (he : e ∈ tr) : Reachable M e.before ∧ M.step e.before e.label e.after := by
  induction h with
  | nil => cases he
  | cons hstep _ ih =>
    rcases List.mem_cons.mp he with rfl | he
    · exact ⟨hs, hstep⟩
    · exact ih (hs.step hstep) he

theorem Reachable.invariant {I : σ → Prop} (hinit : ∀ s, M.init s → I s)
    (hstep : ∀ s a t, I s → M.step s a t → I t) {s : σ} (hs : Reachable M s) : I s := by
  induction hs with
  | init h => exact hinit _ h
  | step _ h ih => exact hstep _ _ _ ih h

/-- `N` can follow every run of `M`: the states stay related by `R`. A step of
    `M` that `N` does not see may leave `N` where it is. -/
structure Simulation (M : System σ α) (N : System τ β) (R : σ → τ → Prop) : Prop where
  init : ∀ s, M.init s → ∃ t, N.init t ∧ R s t
  step : ∀ s a s' t, R s t → M.step s a s' → R s' t ∨ ∃ b t', N.step t b t' ∧ R s' t'

theorem Simulation.reachable {R : σ → τ → Prop} (h : Simulation M N R) {s : σ}
    (hs : Reachable M s) : ∃ t, Reachable N t ∧ R s t := by
  induction hs with
  | init hi =>
    obtain ⟨t, ht, hR⟩ := h.init _ hi
    exact ⟨t, .init ht, hR⟩
  | step _ hstep ih =>
    obtain ⟨t, ht, hR⟩ := ih
    rcases h.step _ _ _ _ hR hstep with hR' | ⟨b, t', hb, hR'⟩
    · exact ⟨t, ht, hR'⟩
    · exact ⟨t', .step ht hb, hR'⟩

/-- What is observed of a step of `M` is a step of `N`, and `N` stays where it is when there is
    nothing to observe. -/
structure Refinement (M : System σ α) (N : System τ β) (R : σ → τ → Prop)
    (observe : Step σ α → Option β) : Prop where
  init : ∀ s, M.init s → ∃ t, N.init t ∧ R s t
  silent : ∀ s a s' t, R s t → M.step s a s' → observe ⟨s, a, s'⟩ = none → R s' t
  visible : ∀ s a s' t b, R s t → M.step s a s' → observe ⟨s, a, s'⟩ = some b →
    ∃ t', N.step t b t' ∧ R s' t'

section Refinement

variable {R : σ → τ → Prop} {observe : Step σ α → Option β}

theorem Refinement.path (h : Refinement M N R observe) {s u : σ} {t : τ} {tr : List (Step σ α)}
    (hp : Path M s tr u) (hR : R s t) :
    ∃ tr' t', Path N t tr' t' ∧ tr'.map Step.label = tr.filterMap observe ∧ R u t' := by
  induction hp generalizing t with
  | nil => exact ⟨[], t, .nil, rfl, hR⟩
  | @cons s s' u a tr hstep _ ih =>
    cases hobs : observe ⟨s, a, s'⟩ with
    | none =>
      obtain ⟨tr', t', hp', hmap, hR'⟩ := ih (h.silent s a s' t hR hstep hobs)
      refine ⟨tr', t', hp', ?_, hR'⟩
      rw [hmap, List.filterMap_cons_none hobs]
    | some b =>
      obtain ⟨t₁, hb, hR₁⟩ := h.visible s a s' t b hR hstep hobs
      obtain ⟨tr', t', hp', hmap, hR'⟩ := ih hR₁
      refine ⟨⟨t, b, t₁⟩ :: tr', t', .cons hb hp', ?_, hR'⟩
      rw [List.map_cons, hmap, List.filterMap_cons_some hobs]

end Refinement

end Transition
