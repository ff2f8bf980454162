import Mwdd32.Fsh32.SemSafety

/-!
# The runs of the RAM semaphores

* `sem_refines_lock`: the successful requests and the clears of every run are a
  run of a lock, and the return codes tell whether it was free.
* `sem_returns_iff`: from every reachable state, a pending call can still return
  `NO_ERROR` exactly when its own thread does not hold the semaphore.
* `self_wait_never_returns`: no continuation gives `NO_ERROR` to a holder that waits for itself.
-/

namespace Mwdd32.Fsh32

open Transition

variable {Tid : Type*} [DecidableEq Tid]

/-! ## What a run shows of the lock -/

/-- An action of a thread at `pc` belongs to an `fsh32_semset` or an `fsh32_semrequest`. -/
def Action.requests (pc : Pc) : Action → Bool
  | .semset => true
  | .enter call => call.takes
  | .resume =>
    match pc with
    | .looping call => call.takes
    | _ => false
  | _ => false

/-- A request that returns `NO_ERROR` acquires the lock, the store of 0 releases it. -/
def lockAction (e : Step (Sem Tid) (Label Tid)) : Option (LockAction Tid) :=
  if e.label.act = .semclear then some (.release e.label.tid)
  else if e.label.act.requests (e.before.pc e.label.tid) = true ∧ e.label.ret = .code NO_ERROR then
    some (.acquire e.label.tid)
  else none

/-- What a step does to the word and the holders, by what it shows of the lock. -/
structure Shows (e : Step (Sem Tid) (Label Tid)) : Prop where
  nothing : lockAction e = none →
    (e.after.word = e.before.word ∨ e.before.word ≠ 0 ∧ e.after.word = 1) ∧
      e.after.holds = e.before.holds
  acquire : ∀ t, lockAction e = some (.acquire t) → e.before.word = 0 ∧ e.after.word = 1 ∧
    e.after.holds = Function.update e.before.holds t true
  release : ∀ t, lockAction e = some (.release t) → e.before.holds t = true ∧ e.after.word = 0 ∧
    e.after.holds = Function.update e.before.holds t false
  free : e.label.ret = .code NO_ERROR → e.before.word = 0
  owned : e.label.act = .semset →
    (e.label.ret = .code ERROR_EXCL_SEM_ALREADY_OWNED ↔ e.before.word ≠ 0)

theorem loopSection_shows {s : Sem Tid} {t : Tid} (act : Action) (call : Call)
    (hclear : act ≠ .semclear) (hset : act ≠ .semset) (hreq : act.requests (s.pc t) = call.takes) :
    Shows ⟨s, ⟨t, act, (s.loopSection t call).2⟩, (s.loopSection t call).1⟩ := by
  unfold Sem.loopSection
  cases call with
  | semwait =>
    simp only [Call.test, Call.takes, Sem.setPc, Bool.false_eq_true, if_false] at hreq ⊢
    split_ifs with hw
    · constructor <;> simp [lockAction, hclear, hset, hreq]
    · constructor <;> simp [lockAction, hclear, hset, hreq, not_not.mp hw]
  | semrequest =>
    simp only [Call.test, Call.takes, lxchg, Sem.setPc, if_true] at hreq ⊢
    split_ifs with hw
    · have hw : ¬ s.word = 0#32 := hw
      constructor <;> simp [lockAction, hclear, hset, hreq, hw]
    · constructor <;> simp [lockAction, hclear, hset, hreq, not_not.mp hw]

theorem step_shows {s s' : Sem Tid} {t : Tid} {act : Action} {ret : Ret}
    (h : s.step t act = some (s', ret)) : Shows ⟨s, ⟨t, act, ret⟩, s'⟩ := by
  cases act with
  | enter call =>
    simp only [Sem.step] at h
    split_ifs at h
    have hshows := loopSection_shows (s := s) (t := t) (.enter call) call (by simp) (by simp) rfl
    rwa [Option.some.inj h] at hshows
  | resume =>
    simp only [Sem.step] at h
    split at h
    case h_2 => cases h
    case h_1 call hpc =>
      have hshows := loopSection_shows (s := s) (t := t) .resume call (by simp) (by simp)
        (by rw [hpc]; rfl)
      rwa [Option.some.inj h] at hshows
  | unblock eax =>
    simp only [Sem.step] at h
    split at h
    case h_2 => cases h
    case h_1 call ready hpc =>
      split_ifs at h with hrc
      · cases h
        constructor <;> simp [lockAction, Action.requests, Sem.setPc, hrc]
      · cases h
        constructor <;> simp [lockAction, Action.requests, Sem.setPc]
  | semset =>
    simp only [Sem.step] at h
    split_ifs at h with hpc hw
    · have hw : ¬ s.word = 0#32 := hw
      cases h
      constructor <;>
        simp [lockAction, Action.requests, hw, NO_ERROR, ERROR_EXCL_SEM_ALREADY_OWNED]
    · cases h
      constructor <;>
        simp [lockAction, Action.requests, not_not.mp hw, NO_ERROR, ERROR_EXCL_SEM_ALREADY_OWNED]
  | semclear =>
    simp only [Sem.step] at h
    split_ifs at h with hc
    cases h
    constructor <;> simp [lockAction, Sem.setPc, hc.2]
  | procRun =>
    simp only [Sem.step] at h
    split_ifs at h with hc
    cases h
    constructor <;> simp [lockAction, Action.requests]

omit [DecidableEq Tid] in
theorem Owns.eq_some {s : Sem Tid} {o : Option Tid} (h : Owns s o) {t : Tid}
    (ht : s.holds t = true) : o = some t := (h.2 t).mp ht

/-- **The lock follows the semaphore, action by action.** -/
theorem lock_refines : Refinement (semSystem Tid) (Lock Tid) Owns lockAction where
  init := lock_simulates.init
  silent s a s' o hR h hobs := by
    obtain ⟨t, act, ret⟩ := a
    obtain ⟨hword, hholds⟩ := (step_shows h).nothing hobs
    refine ⟨?_, ?_⟩
    · rw [hR.quiet_word hword]
      exact hR.1
    · rw [hholds]
      exact hR.2
  visible s a s' o b hR h hobs := by
    obtain ⟨t, act, ret⟩ := a
    cases b with
    | acquire u =>
      obtain ⟨hfree, hword, hholds⟩ := (step_shows h).acquire u hobs
      have ho := hR.none_of_word hfree
      subst ho
      refine ⟨some u, ⟨rfl, rfl⟩, hword, fun v => ?_⟩
      have hv := hR.2 v
      rw [hholds]
      by_cases hvu : v = u
      · simp [hvu]
      · simpa [Function.update_of_ne hvu, Ne.symm hvu] using hv
    | release u =>
      obtain ⟨hheld, hword, hholds⟩ := (step_shows h).release u hobs
      have ho := hR.eq_some hheld
      subst ho
      refine ⟨none, ⟨rfl, rfl⟩, hword, fun v => ?_⟩
      have hv := hR.2 v
      rw [hholds]
      by_cases hvu : v = u
      · simp [hvu]
      · simpa [Function.update_of_ne hvu, Ne.symm hvu] using hv

/-- **The semaphore is a lock.** In every run, the requests and sets that return
    `NO_ERROR` and the stores of 0 are, in their order, a run of a lock, and its owner at the
    end is the holder. A call returns `NO_ERROR` only while nobody holds the semaphore, and
    `fsh32_semset` returns `ERROR_EXCL_SEM_ALREADY_OWNED` exactly while somebody does. -/
theorem sem_refines_lock {s u : Sem Tid} {tr : List (Step (Sem Tid) (Label Tid))}
    (hinit : (semSystem Tid).init s) (hp : Path (semSystem Tid) s tr u) :
    (∃ tr' o, Path (Lock Tid) none tr' o ∧ tr'.map Step.label = tr.filterMap lockAction ∧
      ∀ t, u.holds t = true ↔ o = some t) ∧
    ∀ e ∈ tr, (e.label.ret = .code NO_ERROR → ∀ t, e.before.holds t = false) ∧
      (e.label.act = .semset →
        (e.label.ret = .code ERROR_EXCL_SEM_ALREADY_OWNED ↔ ∃ t, e.before.holds t = true)) := by
  obtain ⟨o, ho, hR⟩ := lock_refines.init s hinit
  have ho : o = none := ho
  subst ho
  obtain ⟨tr', o', hp', hmap, hR'⟩ := lock_refines.path hp hR
  refine ⟨⟨tr', o', hp', hmap, hR'.2⟩, fun e he => ?_⟩
  obtain ⟨hreach, hstep⟩ := hp.step_of_mem (.init hinit) he
  obtain ⟨oe, hRe⟩ := reachable_owns hreach
  have hshows := step_shows hstep
  refine ⟨fun hret t => ?_, fun hact => ?_⟩
  · have hfree : ¬ ∃ t, e.before.holds t = true := by
      rw [← hRe.word_ne_zero_iff]
      exact not_not.mpr (hshows.free hret)
    rw [← Bool.not_eq_true]
    exact fun ht => hfree ⟨t, ht⟩
  · rw [← hRe.word_ne_zero_iff]
    exact hshows.owned hact

/-- Thread `false` sets the semaphore, and thread `true` finds it owned. -/
def contendedRun : List (Step (Sem Bool) (Label Bool)) :=
  let free : Sem Bool := ⟨0, fun _ => .idle, fun _ => false⟩
  let held : Sem Bool := ⟨1, fun _ => .idle, Function.update (fun _ => false) false true⟩
  [⟨free, ⟨false, .semset, .code NO_ERROR⟩, held⟩,
    ⟨held, ⟨true, .semset, .code ERROR_EXCL_SEM_ALREADY_OWNED⟩, held⟩]

theorem contended_refines_lock :
    ∃ tr' o, Path (Lock Bool) none tr' o ∧ tr'.map Step.label = contendedRun.filterMap lockAction ∧
      o = some false := by
  have hp : Path (semSystem Bool) ⟨0, fun _ => .idle, fun _ => false⟩ contendedRun
      ⟨1, fun _ => .idle, Function.update (fun _ => false) false true⟩ := .cons rfl (.cons rfl .nil)
  obtain ⟨⟨tr', o, hp', hmap, ho⟩, -⟩ := sem_refines_lock ⟨rfl, fun _ => rfl, fun _ => rfl⟩ hp
  exact ⟨tr', o, hp', hmap, (ho false).mp rfl⟩

/-! ## Calls that can still return -/

/-- A call of `t` that may block has not returned yet. -/
def Sem.Pending (s : Sem Tid) (t : Tid) : Prop :=
  ∃ call, s.pc t = .looping call ∨ ∃ ready, s.pc t = .blocked call ready

/-- In some run from the state the call of `t` returns `rc`. No other call fails on the way,
    but for one of a holder that waits for its own semaphore. -/
inductive CanReturn (t : Tid) (rc : BitVec 32) : Sem Tid → Prop
  | last {s s' : Sem Tid} {act : Action} :
      (semSystem Tid).step s ⟨t, act, .code rc⟩ s' → CanReturn t rc s
  | step {s s' : Sem Tid} {a : Label Tid} : (semSystem Tid).step s a s' →
      (a.tid = t → a.ret = .running) →
      (∀ code, a.ret = .code code → code ≠ NO_ERROR → s.Pending a.tid ∧ s.holds a.tid = true) →
      CanReturn t rc s' → CanReturn t rc s

theorem loopSection_free {s : Sem Tid} (t : Tid) (call : Call) (hw : s.word = 0) :
    (s.loopSection t call).2 = .code NO_ERROR := by
  cases call <;> simp [Sem.loopSection, Call.test, hw]

theorem loopSection_held {s : Sem Tid} {t : Tid} {call : Call} (hw : s.word = 1) :
    s.loopSection t call = (s.setPc t (.blocked call false), .running) := by
  cases call <;> simp [Sem.loopSection, Call.test, Sem.setPc, hw]

section Progress

variable {s : Sem Tid} {t u : Tid}

theorem canReturn_looping (call : Call) (hpc : s.pc t = .looping call) (hw : s.word = 0) :
    CanReturn t NO_ERROR s := by
  have hstep : s.step t .resume = some ((s.loopSection t call).1, .code NO_ERROR) := by
    rw [← loopSection_free t call hw]
    simp [Sem.step, hpc]
  exact .last hstep

theorem canReturn_ready (call : Call) (hpc : s.pc t = .blocked call true) (hw : s.word = 0) :
    CanReturn t NO_ERROR s := by
  have hstep : s.step t (.unblock 0) = some (s.setPc t (.looping call), .running) := by
    simp [Sem.step, hpc, devHlp32ProcBlockRc, NO_ERROR]
  refine .step (a := ⟨t, .unblock 0, .running⟩) hstep (fun _ => rfl) (fun _ h => by cases h) ?_
  exact canReturn_looping call (by simp [Sem.setPc]) hw

/-- `DevHlp32_ProcRun` lets every call go on. -/
theorem canReturn_of_clearing (hp : s.Pending t) (hu : s.pc u = .clearing) (hw : s.word = 0) :
    CanReturn t NO_ERROR s := by
  have hut : t ≠ u := by
    rintro rfl
    obtain ⟨call, hpc | ⟨ready, hpc⟩⟩ := hp <;> rw [hu] at hpc <;> cases hpc
  have hstep : s.step u .procRun =
      some ({ s with pc := Function.update (fun v => (s.pc v).wake) u .idle }, .void) := by
    simp [Sem.step, hu]
  refine .step (a := ⟨u, .procRun, .void⟩) hstep (fun h => absurd h.symm hut)
    (fun _ h => by cases h) ?_
  obtain ⟨call, hpc | ⟨ready, hpc⟩⟩ := hp
  · exact canReturn_looping call (by simp [Function.update_of_ne hut, hpc, Pc.wake]) hw
  · exact canReturn_ready call (by simp [Function.update_of_ne hut, hpc, Pc.wake]) hw

/-- The holder clears the semaphore. -/
theorem canReturn_of_idle (hp : s.Pending t) (hu : s.pc u = .idle) (hheld : s.holds u = true)
    (hut : t ≠ u) : CanReturn t NO_ERROR s := by
  have hstep : s.step u .semclear =
      some ({ s with word := 0, holds := Function.update s.holds u false }.setPc u .clearing,
        .running) := by
    simp [Sem.step, hu, hheld]
  refine .step (a := ⟨u, .semclear, .running⟩) hstep (fun _ => rfl) (fun _ h => by cases h) ?_
  refine canReturn_of_clearing (u := u) ?_ (by simp [Sem.setPc]) rfl
  obtain ⟨call, hpc⟩ := hp
  exact ⟨call, by simpa [Sem.setPc, Function.update_of_ne hut] using hpc⟩

/-- The kernel interrupts a holder that waits for itself. -/
theorem canReturn_of_blocked (call : Call) (ready : Bool) (hp : s.Pending t)
    (hu : s.pc u = .blocked call ready) (hheld : s.holds u = true) (hut : t ≠ u) :
    CanReturn t NO_ERROR s := by
  have hstep : s.step u (.unblock 1) = some (s.setPc u .idle, .code 1) := by
    simp [Sem.step, hu, devHlp32ProcBlockRc, NO_ERROR]
  refine .step (a := ⟨u, .unblock 1, .code 1⟩) hstep (fun h => absurd h.symm hut)
    (fun _ _ _ => ⟨⟨call, .inr ⟨ready, hu⟩⟩, hheld⟩) ?_
  refine canReturn_of_idle (u := u) ?_ (by simp [Sem.setPc]) hheld hut
  obtain ⟨call', hpc⟩ := hp
  exact ⟨call', by simpa [Sem.setPc, Function.update_of_ne hut] using hpc⟩

theorem canReturn_of_looping {call : Call} (hp : s.Pending t) (hu : s.pc u = .looping call)
    (hw : s.word = 1) (hheld : s.holds u = true) (hut : t ≠ u) : CanReturn t NO_ERROR s := by
  have hstep : s.step u .resume = some (s.setPc u (.blocked call false), .running) := by
    simp [Sem.step, hu, loopSection_held hw]
  refine .step (a := ⟨u, .resume, .running⟩) hstep (fun _ => rfl) (fun _ h => by cases h) ?_
  refine canReturn_of_blocked call false (u := u) ?_ (by simp [Sem.setPc]) hheld hut
  obtain ⟨call', hpc⟩ := hp
  exact ⟨call', by simpa [Sem.setPc, Function.update_of_ne hut] using hpc⟩

/-- A thread in `fsh32_semclear` holds nothing any more. -/
theorem not_holds_of_clearing (hs : Reachable (semSystem Tid) s) :
    ∀ t, s.pc t = .clearing → s.holds t = false := by
  refine hs.invariant (I := fun s => ∀ t, s.pc t = .clearing → s.holds t = false)
    (fun s hs => ?_) fun s a s' hI hstep t ht => ?_
  · exact fun t _ => hs.2.2 t
  obtain ⟨v, act, ret⟩ := a
  cases step_effect hstep with
  | quiet _ _ hpc =>
    by_cases h : t = v
    · subst h
      exact absurd (by simpa using ht) hpc
    · exact hI t (by simpa [Function.update_of_ne h] using ht)
  | take =>
    by_cases h : t = v
    · simp [h] at ht
    · simp only [Function.update_of_ne h] at ht ⊢
      exact hI t ht
  | store =>
    by_cases h : t = v
    · simp [h]
    · simp only [Function.update_of_ne h] at ht ⊢
      exact hI t ht
  | wake =>
    by_cases h : t = v
    · simp [h] at ht
    · simp only [Function.update_of_ne h] at ht
      refine hI t ?_
      cases hpc : s.pc t <;> simp [hpc, Pc.wake] at ht ⊢

theorem reachable_wakeDue (hs : Reachable (semSystem Tid) s) : WakeDue s := by
  refine hs.invariant (fun s hs => ?_) fun s a s' hI hstep => ?_
  · rintro - ⟨t, call, ht⟩
    simp [hs.2.1 t] at ht
  · have he := step_effect hstep
    exact he.wakeDue hI

/-- A call of a thread that does not hold the semaphore can return `NO_ERROR`. -/
theorem canReturn_of_not_holds (hs : Reachable (semSystem Tid) s) (hp : s.Pending t)
    (hholds : s.holds t = false) : CanReturn t NO_ERROR s := by
  obtain ⟨o, hR⟩ := reachable_owns hs
  cases o with
  | none =>
    have hw : s.word = 0 := by simpa using hR.1
    obtain ⟨call, hpc | ⟨ready, hpc⟩⟩ := hp
    · exact canReturn_looping call hpc hw
    · cases ready with
      | true => exact canReturn_ready call hpc hw
      | false =>
        obtain ⟨u, hu⟩ := reachable_wakeDue hs hw ⟨t, call, hpc⟩
        exact canReturn_of_clearing ⟨call, .inr ⟨false, hpc⟩⟩ hu hw
  | some u =>
    have hw : s.word = 1 := by simpa using hR.1
    have hheld : s.holds u = true := (hR.2 u).mpr rfl
    have hut : t ≠ u := by
      rintro rfl
      rw [hheld] at hholds
      cases hholds
    cases hu : s.pc u with
    | idle => exact canReturn_of_idle hp hu hheld hut
    | looping call => exact canReturn_of_looping hp hu hw hheld hut
    | blocked call ready => exact canReturn_of_blocked call ready hp hu hheld hut
    | clearing =>
      rw [not_holds_of_clearing hs u hu] at hheld
      cases hheld

/-- While a holder waits for its own semaphore, every step leaves it there or ends its call with
    an error. -/
theorem self_wait_step {s' : Sem Tid} {a : Label Tid} (hs : Reachable (semSystem Tid) s)
    (hp : s.Pending t) (hheld : s.holds t = true) (hstep : (semSystem Tid).step s a s') :
    s'.Pending t ∧ s'.holds t = true ∧ (a.tid = t → a.ret = .running) ∨
      a.tid = t ∧ ∃ rc, rc ≠ NO_ERROR ∧ a.ret = .code rc := by
  obtain ⟨v, act, ret⟩ := a
  obtain ⟨o, hR⟩ := reachable_owns hs
  have ho := hR.eq_some hheld
  subst ho
  have hw : s.word = 1 := by simpa using hR.1
  by_cases hv : v = t
  · subst hv
    have hstep : s.step v act = some (s', ret) := hstep
    obtain ⟨call, hpc | ⟨ready, hpc⟩⟩ := hp
    · cases act <;> simp [Sem.step, hpc, loopSection_held hw] at hstep
      obtain ⟨rfl, rfl⟩ := hstep
      exact .inl ⟨⟨call, .inr ⟨false, by simp [Sem.setPc]⟩⟩, hheld, fun _ => rfl⟩
    · cases act with
      | unblock eax =>
        simp only [Sem.step, hpc] at hstep
        split_ifs at hstep with hrc
        · cases hstep
          exact .inr ⟨rfl, _, hrc, rfl⟩
        · cases hstep
          exact .inl ⟨⟨call, .inl (by simp [Sem.setPc])⟩, hheld, fun _ => rfl⟩
      | _ => simp [Sem.step, hpc] at hstep
  · have hvt : t ≠ v := fun h => hv h.symm
    refine .inl ?_
    cases step_effect hstep with
    | quiet =>
      refine ⟨?_, hheld, fun h => absurd h hv⟩
      simpa [Sem.Pending, Function.update_of_ne hvt] using hp
    | take _ hfree => exact absurd (hw.symm.trans hfree) (by decide)
    | store _ hheld' => exact absurd (hR.holder_unique hheld' hheld) hv
    | wake =>
      refine ⟨?_, hheld, fun h => absurd h hv⟩
      obtain ⟨call, hpc | ⟨ready, hpc⟩⟩ := hp
      · exact ⟨call, .inl (by simp [Function.update_of_ne hvt, hpc, Pc.wake])⟩
      · exact ⟨call, .inr ⟨true, by simp [Function.update_of_ne hvt, hpc, Pc.wake]⟩⟩

/-- The call of `t` that is pending in the first state returns `rc` at the end of `tr`. -/
def ReturnsAt (t : Tid) (rc : BitVec 32) (tr : List (Step (Sem Tid) (Label Tid))) : Prop :=
  ∃ call last, tr = call ++ [last] ∧ (∀ e ∈ call, e.label.tid = t → e.label.ret = .running) ∧
    last.label.tid = t ∧ last.label.ret = .code rc

/-- In every run, whatever the other calls do, such a call gets an error or none. -/
theorem self_wait_never_returns {u : Sem Tid} {tr : List (Step (Sem Tid) (Label Tid))}
    (hs : Reachable (semSystem Tid) s) (hp : s.Pending t) (hheld : s.holds t = true)
    (hpath : Path (semSystem Tid) s tr u) : ¬ ReturnsAt t NO_ERROR tr := by
  rintro ⟨call, last, rfl, hrun, htid, hret⟩
  induction call generalizing s with
  | nil =>
    cases hpath with
    | cons hstep _ =>
      rcases self_wait_step hs hp hheld hstep with ⟨-, -, hrunning⟩ | ⟨-, rc, hrc, hcode⟩
      · rw [hrunning htid] at hret
        cases hret
      · rw [hcode] at hret
        cases hret
        exact hrc rfl
  | cons e call ih =>
    cases hpath with
    | cons hstep hpath =>
      rcases self_wait_step hs hp hheld hstep with ⟨hp', hheld', -⟩ | ⟨ht, rc, -, hcode⟩
      · exact ih (hs.step hstep) hp' hheld' hpath fun e he => hrun e (List.mem_cons_of_mem _ he)
      · have hrunning := hrun _ List.mem_cons_self ht
        rw [hcode] at hrunning
        cases hrunning

theorem not_holds_of_canReturn (hret : CanReturn t NO_ERROR s) (hs : Reachable (semSystem Tid) s)
    (hp : s.Pending t) : s.holds t = false := by
  rw [← Bool.not_eq_true]
  intro hheld
  induction hret with
  | last hstep =>
    rcases self_wait_step hs hp hheld hstep with ⟨-, -, hrun⟩ | ⟨-, rc, hrc, hcode⟩
    · cases hrun rfl
    · cases hcode
      exact hrc rfl
  | step hstep hrun _ _ ih =>
    rcases self_wait_step hs hp hheld hstep with ⟨hp', hheld', -⟩ | ⟨ht, rc, -, hcode⟩
    · exact ih (hs.step hstep) hp' hheld'
    · rw [hrun ht] at hcode
      cases hcode

end Progress

/-- **No deadlock but with oneself.** In every reachable state, a call of `fsh32_semwait` or
    `fsh32_semrequest` that has not returned yet can still return `NO_ERROR`, without any other
    call failing but one of a holder that waits for itself, exactly when the thread that made it
    does not hold the semaphore. If it does, the call returns `NO_ERROR` in no run at all. -/
theorem sem_returns_iff {s : Sem Tid} {t : Tid} (hs : Reachable (semSystem Tid) s)
    (hp : s.Pending t) :
    (CanReturn t NO_ERROR s ↔ s.holds t = false) ∧
    (s.holds t = true → ∀ tr u, Path (semSystem Tid) s tr u → ¬ ReturnsAt t NO_ERROR tr) := by
  refine ⟨⟨fun hret => not_holds_of_canReturn hret hs hp, canReturn_of_not_holds hs hp⟩, ?_⟩
  exact fun hheld tr u hpath => self_wait_never_returns hs hp hheld hpath

/-- Thread `true` waits for the semaphore of thread `false`, which may wait for itself too. -/
theorem contended_returns : CanReturn true NO_ERROR contended ∧
    ∃ s, Reachable (semSystem Bool) s ∧ s.Pending false ∧
      ∀ tr u, Path (semSystem Bool) s tr u → ¬ ReturnsAt false NO_ERROR tr := by
  have hwaits : (semSystem Bool).step contended ⟨false, .enter .semwait, .running⟩
      (contended.setPc false (.blocked .semwait false)) := rfl
  have hs := contended_reachable.step hwaits
  have hp : (contended.setPc false (.blocked .semwait false)).Pending false :=
    ⟨.semwait, .inr ⟨false, rfl⟩⟩
  refine ⟨(sem_returns_iff contended_reachable ⟨.semrequest, .inr ⟨false, rfl⟩⟩).1.mpr rfl, _,
    hs, hp, ?_⟩
  exact (sem_returns_iff hs hp).2 rfl

end Mwdd32.Fsh32
