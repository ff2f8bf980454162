import Mathlib.Logic.Function.Basic
import Mwdd32.Lib.Interaction
import Mwdd32.Lib.Transition

/-!
# Programs side by side

A `Service` is a program with a parameter, which its tasks run side by side: each makes its calls in
its own order, and the calls of different tasks come in any order. A call is answered as the
environment of its task allows and has an effect on what the tasks share; others may change that in
between.

* `Pool.Step`: one step of one task, or of the others.
* `sound_of_reachable`: in every state that a pool can reach, `Wp` holds of the rest of every task.
* `Pool.Sound.call`: so every call satisfies what `Wp` requires of it.
-/

namespace Interaction

open Transition

universe u

/-- What a task was started with, the calls that it has made and the rest of its program -/
structure Task (ι : Type*) (Op : Type u) (Res : Op → Type u) (α : Type u) where
  arg : ι
  trace : List (Event Op Res)
  rest : Prog Op Res α

/-- What is shared, and the task of each thread. A task whose rest is a call is making it. -/
structure Pool (Tid ι τ : Type*) (Op : Type u) (Res : Op → Type u) (α : Type u) where
  shared : τ
  task : Tid → Option (Task ι Op Res α)

/-- The program of the tasks and its environment, both by the parameter, what a call changes of what
    is shared, and how others may change it -/
structure Service (ι τ : Type*) (Op : Type u) (Res : Op → Type u) (α : Type u) where
  code : ι → Prog Op Res α
  env : ι → Env Unit Op Res
  effect : τ → Event Op Res → τ → Prop
  interfere : τ → τ → Prop

/-- What happens next in a pool -/
inductive Move (Tid ι : Type*) (Op : Type u) (Res : Op → Type u)
  | start (t : Tid) (arg : ι)
  | call (t : Tid) (e : Event Op Res)
  | finish (t : Tid)
  | other

variable {Tid ι τ : Type*} {Op : Type u} {Res : Op → Type u} {α : Type u} {V : Service ι τ Op Res α}
  {pool pool' : Pool Tid ι τ Op Res α} {P : ι → List (Event Op Res) → Event Op Res → Prop}
  {Q : ι → List (Event Op Res) → α → Unit → Prop}

/-- The rest of every task satisfies `Wp` behind the calls that it has made. -/
def Pool.Sound (V : Service ι τ Op Res α) (P : ι → List (Event Op Res) → Event Op Res → Prop)
    (Q : ι → List (Event Op Res) → α → Unit → Prop) (pool : Pool Tid ι τ Op Res α) : Prop :=
  ∀ t task, pool.task t = some task →
    Wp (V.env task.arg) (P task.arg) (Q task.arg) task.trace () task.rest

theorem Pool.Sound.call {t : Tid} {arg : ι} {h : List (Event Op Res)} {op : Op}
    {k : Res op → Prog Op Res α} {r : Res op} (hpool : pool.Sound V P Q)
    (ht : pool.task t = some ⟨arg, h, .call op k⟩) (hr : V.env arg () op r ()) : P arg h ⟨op, r⟩ :=
  (hpool t _ ht r () hr).1

theorem Pool.Sound.finish {t : Tid} {arg : ι} {h : List (Event Op Res)} {a : α}
    (hpool : pool.Sound V P Q) (ht : pool.task t = some ⟨arg, h, .ret a⟩) : Q arg h a () :=
  hpool t _ ht

/-! ## Runs -/

variable [DecidableEq Tid]

/-- The pool with `x` as the task of `t` -/
def Pool.set (pool : Pool Tid ι τ Op Res α) (s : τ) (t : Tid) (x : Option (Task ι Op Res α)) :
    Pool Tid ι τ Op Res α :=
  ⟨s, Function.update pool.task t x⟩

/-- One step of one task, or of the others -/
inductive Pool.Step (V : Service ι τ Op Res α) :
    Pool Tid ι τ Op Res α → Move Tid ι Op Res → Pool Tid ι τ Op Res α → Prop
  | start {pool : Pool Tid ι τ Op Res α} {t : Tid} {arg : ι} : pool.task t = none →
      Step V pool (.start t arg) (pool.set pool.shared t (some ⟨arg, [], V.code arg⟩))
  | call {pool : Pool Tid ι τ Op Res α} {t : Tid} {arg : ι} {h : List (Event Op Res)} {op : Op}
      {k : Res op → Prog Op Res α} {r : Res op} {s : τ} : pool.task t = some ⟨arg, h, .call op k⟩ →
      V.env arg () op r () → V.effect pool.shared ⟨op, r⟩ s →
      Step V pool (.call t ⟨op, r⟩) (pool.set s t (some ⟨arg, h ++ [⟨op, r⟩], k r⟩))
  | finish {pool : Pool Tid ι τ Op Res α} {t : Tid} {arg : ι} {h : List (Event Op Res)} {a : α} :
      pool.task t = some ⟨arg, h, .ret a⟩ → Step V pool (.finish t) (pool.set pool.shared t none)
  | other {pool : Pool Tid ι τ Op Res α} {s : τ} : V.interfere pool.shared s →
      Step V pool .other ⟨s, pool.task⟩

/-- The pools of a service, at first without a task -/
def Service.system (V : Service ι τ Op Res α) (Tid : Type*) [DecidableEq Tid] (init : τ → Prop) :
    System (Pool Tid ι τ Op Res α) (Move Tid ι Op Res) where
  init pool := init pool.shared ∧ ∀ t, pool.task t = none
  step := Pool.Step V

theorem reachable_start {init : τ → Prop} {t : Tid} (hpool : Reachable (V.system Tid init) pool)
    (ht : pool.task t = none) (arg : ι) :
    Reachable (V.system Tid init) (pool.set pool.shared t (some ⟨arg, [], V.code arg⟩)) := by
  have hstep : (V.system Tid init).step pool (.start t arg) _ := Pool.Step.start ht
  exact hpool.step hstep

theorem reachable_call {init : τ → Prop} {t : Tid} {arg : ι} {h : List (Event Op Res)}
    {e : Event Op Res} {k : Res e.1 → Prog Op Res α} {s : τ}
    (hpool : Reachable (V.system Tid init) pool)
    (ht : pool.task t = some ⟨arg, h, .call e.1 k⟩) (henv : V.env arg () e.1 e.2 ())
    (heffect : V.effect pool.shared e s) :
    Reachable (V.system Tid init) (pool.set s t (some ⟨arg, h ++ [e], k e.2⟩)) := by
  have hstep : (V.system Tid init).step pool (.call t e) _ := Pool.Step.call ht henv heffect
  exact hpool.step hstep

@[simp] theorem Pool.set_shared (s : τ) (t : Tid) (x : Option (Task ι Op Res α)) :
    (pool.set s t x).shared = s := rfl

@[simp] theorem Pool.set_task (s : τ) (t : Tid) (x : Option (Task ι Op Res α)) :
    (pool.set s t x).task t = x := Function.update_self ..

theorem Pool.set_task_of_ne {t u : Tid} (s : τ) (x : Option (Task ι Op Res α)) (h : u ≠ t) :
    (pool.set s t x).task u = pool.task u := Function.update_of_ne h ..

theorem Pool.Sound.set {t : Tid} {x : Option (Task ι Op Res α)} (hpool : pool.Sound V P Q) (s : τ)
    (hx : ∀ task, x = some task →
      Wp (V.env task.arg) (P task.arg) (Q task.arg) task.trace () task.rest) :
    (pool.set s t x).Sound V P Q := by
  intro u task hu
  by_cases hut : u = t
  · subst hut
    rw [Pool.set_task] at hu
    exact hx task hu
  · rw [Pool.set_task_of_ne s x hut] at hu
    exact hpool u task hu

theorem Pool.Sound.step {m : Move Tid ι Op Res}
    (hV : ∀ i, Wp (V.env i) (P i) (Q i) [] () (V.code i)) (hpool : pool.Sound V P Q)
    (hstep : Pool.Step V pool m pool') : pool'.Sound V P Q := by
  cases hstep with
  | start _ =>
    refine hpool.set _ fun task htask => ?_
    cases htask
    exact hV _
  | call ht hr _ =>
    refine hpool.set _ fun task htask => ?_
    cases htask
    exact (hpool _ _ ht _ () hr).2
  | finish _ => exact hpool.set _ fun task htask => by cases htask
  | other _ => exact hpool

theorem sound_of_reachable {init : τ → Prop} (hV : ∀ i, Wp (V.env i) (P i) (Q i) [] () (V.code i))
    (hpool : Reachable (V.system Tid init) pool) : pool.Sound V P Q := by
  refine hpool.invariant (fun pool hinit t task ht => ?_) fun pool m pool' h hstep =>
    h.step hV hstep
  rw [hinit.2 t] at ht
  cases ht

end Interaction
