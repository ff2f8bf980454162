import Mwdd32.Fsh32.Sem

/-!
# Safety of the RAM semaphores

What holds in every reachable state of the semaphores of `fsh32.h`.

* `sem_mutual_exclusion`: at most one holder, the word tells whether there is
  one, and a call that returns an error has changed neither.
* `sem_no_lost_wakeup`: a thread blocked on a free semaphore is about to be
  woken by an `fsh32_semclear`.
-/

namespace Mwdd32.Fsh32

open Transition

variable {Tid : Type*} [DecidableEq Tid]

/-! ## Calls that return an error -/

/-- The last step of `tr` is one of `t`, whose call returns a non-zero code there;
    the steps of `t` before it do not end a call, so they belong to the same one. -/
def FailedCall (t : Tid) (tr : List (Step (Sem Tid) (Label Tid))) : Prop :=
  ∃ call last, tr = call ++ [last] ∧ (∀ e ∈ call, e.label.tid = t → e.label.ret = .running) ∧
    last.label.tid = t ∧ ∃ rc, rc ≠ NO_ERROR ∧ last.label.ret = .code rc

omit [DecidableEq Tid] in
theorem FailedCall.ne_nil {t : Tid} : ¬ FailedCall t [] := by
  rintro ⟨call, last, htr, -⟩
  simp at htr

omit [DecidableEq Tid] in
/-- The first step returns the code, or it does not end the call of `t`. -/
theorem FailedCall.of_cons {t : Tid} {e : Step (Sem Tid) (Label Tid)}
    {tr : List (Step (Sem Tid) (Label Tid))} (h : FailedCall t (e :: tr)) :
    (tr = [] ∧ e.label.tid = t ∧ ∃ rc, rc ≠ NO_ERROR ∧ e.label.ret = .code rc) ∨
    (FailedCall t tr ∧ (e.label.tid = t → e.label.ret = .running)) := by
  obtain ⟨call, last, htr, hrun, hlast⟩ := h
  cases call with
  | nil =>
    simp only [List.nil_append, List.cons.injEq] at htr
    obtain ⟨rfl, rfl⟩ := htr
    exact .inl ⟨rfl, hlast⟩
  | cons e' call =>
    simp only [List.cons_append, List.cons.injEq] at htr
    obtain ⟨rfl, rfl⟩ := htr
    refine .inr ⟨⟨call, last, rfl, fun x hx => hrun x (by simp [hx]), hlast⟩, ?_⟩
    exact hrun e (by simp)

/-- Steps of other threads leave a thread in `fsh32_semclear` there. -/
theorem Effect.clearing_of_ne {s s' : Sem Tid} {t u : Tid} {ret : Ret} (h : Effect s t s' ret)
    (hu : u ≠ t) (hpc : s.pc u = .clearing) : s'.pc u = .clearing := by
  cases h with
  | quiet => simpa [Function.update_of_ne hu] using hpc
  | take => simpa [Function.update_of_ne hu] using hpc
  | store => simpa [Function.update_of_ne hu] using hpc
  | wake => simp [Function.update_of_ne hu, hpc, Pc.wake]

theorem Effect.ret_of_clearing {s s' : Sem Tid} {t : Tid} {ret : Ret} (h : Effect s t s' ret)
    (hpc : s.pc t = .clearing) : ret = .void := by
  cases h with
  | quiet h => exact absurd hpc h
  | take h => exact absurd hpc h
  | store h => exact absurd hpc h
  | wake => rfl

/-- The next step of a thread in `fsh32_semclear` returns no code. -/
theorem clearing_not_failedCall {s u : Sem Tid} {t : Tid}
    {tr : List (Step (Sem Tid) (Label Tid))} (hp : Path (semSystem Tid) s tr u)
    (hpc : s.pc t = .clearing) : ¬ FailedCall t tr := by
  induction hp with
  | nil => exact FailedCall.ne_nil
  | @cons s s' u a tr hstep _ ih =>
    intro hf
    have he := step_effect hstep
    rcases hf.of_cons with ⟨-, rfl, rc, -, hrc⟩ | ⟨hf', hrun⟩
    · simp [he.ret_of_clearing hpc] at hrc
    · by_cases ht : a.tid = t
      · subst ht
        simp [he.ret_of_clearing hpc] at hrun
      · exact ih (he.clearing_of_ne (Ne.symm ht) hpc) hf'

/-- A step that returns an error has changed neither the word nor the holders. -/
theorem Effect.keeps_of_error {s s' : Sem Tid} {o : Option Tid} {t : Tid} {rc : BitVec 32}
    (h : Effect s t s' (.code rc)) (hR : Owns s o) (hrc : rc ≠ NO_ERROR) :
    s'.word = s.word ∧ s'.holds = s.holds := by
  cases h with
  | quiet _ hw => exact ⟨hR.quiet_word hw, rfl⟩
  | take => exact absurd rfl hrc

/-- So has a step after which the call goes on, but for the store of 0. -/
theorem Effect.keeps_of_running {s s' : Sem Tid} {o : Option Tid} {t : Tid}
    (h : Effect s t s' .running) (hR : Owns s o) :
    s'.pc t = .clearing ∨ s'.word = s.word ∧ s'.holds = s.holds := by
  cases h with
  | quiet _ hw => exact .inr ⟨hR.quiet_word hw, rfl⟩
  | store => exact .inl (by simp)

/-- No step of a call that returns an error changes the word or the holders. -/
theorem failedCall_keeps {s u : Sem Tid} {t : Tid} {tr : List (Step (Sem Tid) (Label Tid))}
    (hp : Path (semSystem Tid) s tr u) (hs : Reachable (semSystem Tid) s)
    (hf : FailedCall t tr) : ∀ e ∈ tr, e.label.tid = t →
      e.after.word = e.before.word ∧ e.after.holds = e.before.holds := by
  induction hp with
  | nil => exact absurd hf FailedCall.ne_nil
  | @cons s s' u a tr hstep htail ih =>
    obtain ⟨o, hR⟩ := reachable_owns hs
    have he := step_effect hstep
    intro e hmem ht
    rcases List.mem_cons.mp hmem with rfl | hmem'
    · rcases hf.of_cons with ⟨-, rfl, rc, hrc, hret⟩ | ⟨hf', hrun⟩
      · simp only at hret
        rw [hret] at he
        exact he.keeps_of_error hR hrc
      · subst ht
        rw [hrun rfl] at he
        rcases he.keeps_of_running hR with hclear | hkeep
        · exact absurd hf' (clearing_not_failedCall htail hclear)
        · exact hkeep
    · rcases hf.of_cons with ⟨rfl, -⟩ | ⟨hf', -⟩
      · simp at hmem'
      · exact ih (hs.step hstep) hf' e hmem' ht

/-! ## Mutual exclusion -/

omit [DecidableEq Tid] in
theorem Owns.holder_unique {s : Sem Tid} {o : Option Tid} (h : Owns s o) {t u : Tid}
    (ht : s.holds t = true) (hu : s.holds u = true) : t = u := by
  have e := ((h.2 t).mp ht).symm.trans ((h.2 u).mp hu)
  exact Option.some.inj e

omit [DecidableEq Tid] in
theorem Owns.word_ne_zero_iff {s : Sem Tid} {o : Option Tid} (h : Owns s o) :
    s.word ≠ 0 ↔ ∃ t, s.holds t = true := by
  rw [h.1]
  cases o with
  | none => simp [h.2]
  | some t => simp [h.2]

/-- **Mutual exclusion.** In every reachable state at most one thread holds the
    semaphore, and the word is non-zero exactly when some thread holds it. In
    every run from there, no step of a call that returns a non-zero code
    changes the word or the holder. -/
theorem sem_mutual_exclusion {s : Sem Tid} (hs : Reachable (semSystem Tid) s) :
    (∀ t u, s.holds t = true → s.holds u = true → t = u) ∧
    (s.word ≠ 0 ↔ ∃ t, s.holds t = true) ∧
    ∀ t tr u, Path (semSystem Tid) s tr u → FailedCall t tr → ∀ e ∈ tr, e.label.tid = t →
      e.after.word = e.before.word ∧ e.after.holds = e.before.holds := by
  obtain ⟨o, hR⟩ := reachable_owns hs
  refine ⟨fun t u ht hu => hR.holder_unique ht hu, hR.word_ne_zero_iff, ?_⟩
  exact fun t tr u hp hf => failedCall_keeps hp hs hf

/-- Thread `false` has set the semaphore and thread `true` waits for it. -/
def contended : Sem Bool where
  word := 1
  pc t := if t then .blocked .semrequest false else .idle
  holds t := !t

theorem contended_reachable : Reachable (semSystem Bool) contended := by
  have h₀ : Reachable (semSystem Bool) ⟨0, fun _ => .idle, fun _ => false⟩ :=
    .init ⟨rfl, fun _ => rfl, fun _ => rfl⟩
  have h₁ : Reachable (semSystem Bool)
      ⟨1, fun _ => .idle, Function.update (fun _ => false) false true⟩ :=
    h₀.step (a := ⟨false, .semset, .code NO_ERROR⟩) (by simp [semSystem, Sem.step])
  have hpc : contended.pc = Function.update (fun _ => .idle) true (.blocked .semrequest false) := by
    funext t; cases t <;> rfl
  have hholds : contended.holds = Function.update (fun _ => false) false true := by
    funext t; cases t <;> rfl
  have he : contended = ⟨contended.word, contended.pc, contended.holds⟩ := rfl
  rw [he, hpc, hholds]
  exact h₁.step (a := ⟨true, .enter .semrequest, .running⟩) rfl

/-- `fsh32_semrequest` of thread `true` gives up with the kernel's time-out code. -/
def contendedTimeout : Step (Sem Bool) (Label Bool) :=
  ⟨contended, ⟨true, .unblock 121, .code 121⟩, contended.setPc true .idle⟩

theorem contended_mutual_exclusion :
    (∀ t u, contended.holds t = true → contended.holds u = true → t = u) ∧
    (contended.word ≠ 0 ↔ ∃ t, contended.holds t = true) ∧
    contendedTimeout.after.word = contendedTimeout.before.word ∧
    contendedTimeout.after.holds = contendedTimeout.before.holds := by
  obtain ⟨h1, h2, h3⟩ := sem_mutual_exclusion contended_reachable
  refine ⟨h1, h2, h3 true [contendedTimeout] (contended.setPc true .idle) ?_ ?_
    contendedTimeout (by simp) rfl⟩
  · exact .cons (by rfl) .nil
  · exact ⟨[], contendedTimeout, rfl, by simp, rfl, 121, by decide, rfl⟩

/-! ## No lost wake-up -/

/-- A thread that nothing has woken yet is blocked on the semaphore. -/
def Sem.Blocked (s : Sem Tid) : Prop := ∃ t call, s.pc t = .blocked call false

/-- A thread has stored the 0 of `fsh32_semclear` and not yet called
    `DevHlp32_ProcRun`. -/
def Sem.Clearing (s : Sem Tid) : Prop := ∃ t, s.pc t = .clearing

/-- A blocked thread on a free word is about to be woken. -/
def WakeDue (s : Sem Tid) : Prop := s.word = 0 → s.Blocked → s.Clearing

theorem Effect.wakeDue {s s' : Sem Tid} {t : Tid} {ret : Ret} (h : Effect s t s' ret)
    (hs : WakeDue s) : WakeDue s' := by
  have hother : s.pc t ≠ .clearing → s.Clearing → ∃ u, u ≠ t ∧ s.pc u = .clearing := by
    intro hpc ⟨u, hu⟩
    exact ⟨u, fun e => hpc (e ▸ hu), hu⟩
  intro hw ⟨v, call, hv⟩
  cases h with
  | @quiet w pc ret hpc hword _ hblock =>
    have hw0 : s.word = 0 := by
      rcases hword with hword | ⟨-, hword⟩
      · exact hword ▸ hw
      · simp [hword] at hw
    have hvt : v ≠ t := by
      rintro rfl
      exact hblock call (by simpa using hv) hw0
    have hblocked : s.Blocked := ⟨v, call, by simpa [Function.update_of_ne hvt] using hv⟩
    obtain ⟨u, hut, hu⟩ := hother hpc (hs hw0 hblocked)
    exact ⟨u, by simpa [Function.update_of_ne hut] using hu⟩
  | take => simp at hw
  | store => exact ⟨t, by simp⟩
  | wake =>
    -- after the wake-up no thread is blocked and not ready
    by_cases hvt : v = t
    · subst hvt; simp at hv
    · simp only [Function.update_of_ne hvt] at hv
      cases hpc : s.pc v <;> simp [hpc, Pc.wake] at hv

/-- **No lost wake-up.** In every reachable state in which a thread is blocked
    on the semaphore while the word is 0, some thread is in `fsh32_semclear`
    between the store and its `DevHlp32_ProcRun`. So while no `fsh32_semclear`
    is in progress, a blocked thread implies a held semaphore. -/
theorem sem_no_lost_wakeup {s : Sem Tid} (hs : Reachable (semSystem Tid) s) :
    (s.Blocked → s.word = 0 → s.Clearing) ∧
    (¬ s.Clearing → s.Blocked → ∃ t, s.holds t = true) := by
  have hdue : WakeDue s := by
    refine hs.invariant (fun s hs => ?_) fun s a s' hI hstep => ?_
    · rintro - ⟨t, call, ht⟩
      simp [hs.2.1 t] at ht
    · have he := step_effect hstep
      exact he.wakeDue hI
  obtain ⟨o, hR⟩ := reachable_owns hs
  refine ⟨fun hb hw => hdue hw hb, fun hc hb => ?_⟩
  rw [← hR.word_ne_zero_iff]
  exact fun hw => hc (hdue hw hb)

theorem contended_no_lost_wakeup :
    ¬ contended.Clearing ∧ contended.Blocked ∧ ∃ t, contended.holds t = true := by
  have hclear : ¬ contended.Clearing := by
    intro ⟨t, ht⟩
    cases t <;> simp [contended] at ht
  have hblocked : contended.Blocked := ⟨true, .semrequest, rfl⟩
  exact ⟨hclear, hblocked, (sem_no_lost_wakeup contended_reachable).2 hclear hblocked⟩

end Mwdd32.Fsh32
