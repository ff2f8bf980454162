import Mwdd32.Common
import Mwdd32.Lib.Transition

/-!
# The RAM semaphores of `fsh32.h`

`fsh32_semwait`, `fsh32_semrequest`, `fsh32_semset` and `fsh32_semclear`
(`include/os2/fsh32.h`, lines 46–115) run by any number of threads on one
semaphore word. A step is one section with the interrupts disabled (from
`_disable` to the block inside `DevHlp32_ProcBlock` or to `_enable`), the
return of `DevHlp32_ProcBlock`, or one of the two statements of
`fsh32_semclear`.

`Lock` is what the semaphore is for: a lock with at most one owner.

* `step_effect`: everything a step can do to the word, the holders and the
  program counters.
* `lock_simulates`: the lock follows every run of the semaphore; its owner is the
  holder, and the word is 1 exactly while there is one.
-/

namespace Mwdd32.Fsh32

open Transition

/-! ## Model -/

/-- The functions that block inside their `while` loop. -/
inductive Call
  | semwait
  | semrequest
  deriving DecidableEq

/-- Where a thread is. -/
inductive Pc
  /-- outside the `fsh32_semXXX` functions -/
  | idle
  /-- `DevHlp32_ProcBlock` returned `NO_ERROR`, the next `_disable` is due -/
  | looping (call : Call)
  /-- inside `DevHlp32_ProcBlock`; `ready` once a `DevHlp32_ProcRun` woke it -/
  | blocked (call : Call) (ready : Bool)
  /-- in `fsh32_semclear`, after the store and before `DevHlp32_ProcRun` -/
  | clearing
  deriving DecidableEq

/-- What the call of a step has done when the step is over. -/
inductive Ret
  | running
  | void
  | code (rc : BitVec 32)
  deriving DecidableEq

/-- The semaphore word and its users. `holds` is the history of the word: a
    thread holds the semaphore from the exchange that made its request or set
    succeed until its store of 0. -/
structure Sem (Tid : Type*) where
  word : BitVec 32
  pc : Tid → Pc
  holds : Tid → Bool

/-- What `DevHlp32_ProcBlock` returns when the kernel leaves `eax`: the wrapper
    keeps the wake-up code in AL (`and eax, 0FFh`). -/
def devHlp32ProcBlockRc (eax : BitVec 32) : BitVec 32 := eax &&& 0xFF

/-- `__lxchg(p, v)` on a word `w`: the value returned and the new word. -/
abbrev lxchg (w v : BitVec 32) : BitVec 32 × BitVec 32 := (w, v)

/-- The loop condition of a call on the word `w`, and the word after it:
    `*(int *)sem` in `fsh32_semwait`, `__lxchg(sem, 1)` in `fsh32_semrequest`. -/
def Call.test : Call → BitVec 32 → BitVec 32 × BitVec 32
  | .semwait, w => (w, w)
  | .semrequest, w => lxchg w 1

/-- Whether the call takes the semaphore when its loop ends. -/
def Call.takes : Call → Bool
  | .semwait => false
  | .semrequest => true

/-- What a thread does in one step. -/
inductive Action
  /-- first section of `fsh32_semwait` or `fsh32_semrequest` -/
  | enter (call : Call)
  /-- section after a wake-up -/
  | resume
  /-- the kernel returns `eax` from the block -/
  | unblock (eax : BitVec 32)
  /-- `fsh32_semset` -/
  | semset
  /-- `*(int *)sem = 0` of `fsh32_semclear` -/
  | semclear
  /-- `DevHlp32_ProcRun(sem)` of `fsh32_semclear` -/
  | procRun
  deriving DecidableEq

variable {Tid : Type*} [DecidableEq Tid]

/-- The thread `t` gets to `pc`. -/
def Sem.setPc (s : Sem Tid) (t : Tid) (pc : Pc) : Sem Tid :=
  { s with pc := Function.update s.pc t pc }

/-- `_disable(); while (test) { rc = DevHlp32_ProcBlock(...` up to the block,
    or to `_enable(); return rc` when the test fails. -/
def Sem.loopSection (s : Sem Tid) (t : Tid) (call : Call) : Sem Tid × Ret :=
  let (cond, w) := call.test s.word
  if cond ≠ 0 then ({ s with word := w }.setPc t (.blocked call false), .running)
  else ({ s with word := w, holds := if call.takes then Function.update s.holds t true
            else s.holds }.setPc t .idle, .code NO_ERROR)

/-- `DevHlp32_ProcRun` makes every thread blocked on the semaphore ready. -/
def Pc.wake : Pc → Pc
  | .blocked call _ => .blocked call true
  | pc => pc

/-- One step of thread `t`, `none` where the thread cannot do it. Only a
    holder calls `fsh32_semclear`, and the kernel returns `NO_ERROR` from a
    block only after a `DevHlp32_ProcRun`. -/
def Sem.step (s : Sem Tid) (t : Tid) : Action → Option (Sem Tid × Ret)
  | .enter call => if s.pc t = .idle then some (s.loopSection t call) else none
  | .resume =>
    match s.pc t with
    | .looping call => some (s.loopSection t call)
    | _ => none
  | .unblock eax =>
    match s.pc t with
    | .blocked call ready =>
      let rc := devHlp32ProcBlockRc eax
      if rc ≠ NO_ERROR then some (s.setPc t .idle, .code rc)
      else if ready then some (s.setPc t (.looping call), .running)
      else none
    | _ => none
  | .semset =>
    if s.pc t = .idle then
      let (res, w) := lxchg s.word 1
      if res ≠ 0 then some ({ s with word := w }, .code ERROR_EXCL_SEM_ALREADY_OWNED)
      else some ({ s with word := w, holds := Function.update s.holds t true }, .code NO_ERROR)
    else none
  | .semclear =>
    if s.pc t = .idle ∧ s.holds t = true then
      some ({ s with word := 0, holds := Function.update s.holds t false }.setPc t .clearing,
        .running)
    else none
  | .procRun =>
    if s.pc t = .clearing then
      some ({ s with pc := Function.update (fun u => (s.pc u).wake) t .idle }, .void)
    else none

/-- The thread of a step, what it does and what its call returns. -/
structure Label (Tid : Type*) where
  tid : Tid
  act : Action
  ret : Ret

variable (Tid) in
/-- All interleavings of the calls, from a word that is 0. -/
def semSystem : System (Sem Tid) (Label Tid) where
  init s := s.word = 0 ∧ (∀ t, s.pc t = .idle) ∧ ∀ t, s.holds t = false
  step s l s' := s.step l.tid l.act = some (s', l.ret)

/-! ## What a step can do -/

/-- The four effects of a step of `t` that ends in `s'` with `ret`. -/
inductive Effect (s : Sem Tid) (t : Tid) : Sem Tid → Ret → Prop
  /-- no exchange of a free word, no store and no wake-up -/
  | quiet {w : BitVec 32} {pc : Pc} {ret : Ret} : s.pc t ≠ .clearing →
      (w = s.word ∨ s.word ≠ 0 ∧ w = 1) → pc ≠ .clearing →
      (∀ call, pc = .blocked call false → s.word ≠ 0) →
      Effect s t { s with word := w, pc := Function.update s.pc t pc } ret
  /-- the exchange that takes the semaphore -/
  | take : s.pc t ≠ .clearing → s.word = 0 →
      Effect s t { word := 1, pc := Function.update s.pc t .idle,
                   holds := Function.update s.holds t true } (.code NO_ERROR)
  /-- the store of 0 -/
  | store : s.pc t ≠ .clearing → s.holds t = true →
      Effect s t { word := 0, pc := Function.update s.pc t .clearing,
                   holds := Function.update s.holds t false } .running
  /-- `DevHlp32_ProcRun` -/
  | wake : s.pc t = .clearing →
      Effect s t { s with pc := Function.update (fun u => (s.pc u).wake) t .idle } .void

theorem loopSection_effect {s : Sem Tid} {t : Tid} (call : Call) (hpc : s.pc t ≠ .clearing) :
    Effect s t (s.loopSection t call).1 (s.loopSection t call).2 := by
  unfold Sem.loopSection
  cases call with
  | semwait =>
    simp only [Call.test, Call.takes, Sem.setPc, Bool.false_eq_true, if_false]
    split_ifs with hw
    · exact .quiet hpc (.inl rfl) (by simp) fun _ _ => hw
    · exact .quiet hpc (.inl rfl) (by simp) (by simp)
  | semrequest =>
    simp only [Call.test, Call.takes, lxchg, Sem.setPc, if_true]
    split_ifs with hw
    · exact .quiet hpc (.inr ⟨hw, rfl⟩) (by simp) fun _ _ => hw
    · exact .take hpc (not_not.mp hw)

theorem unblock_effect {s s' : Sem Tid} {t : Tid} {eax : BitVec 32} {ret : Ret}
    (h : s.step t (.unblock eax) = some (s', ret)) : Effect s t s' ret := by
  simp only [Sem.step, Sem.setPc] at h
  split at h
  · rename_i call ready hpc
    have hpc' : s.pc t ≠ .clearing := by rw [hpc]; simp
    split_ifs at h <;> cases h
    · exact .quiet hpc' (.inl rfl) (by simp) (by simp)
    · exact .quiet hpc' (.inl rfl) (by simp) (by simp)
  · cases h

theorem semset_effect {s s' : Sem Tid} {t : Tid} {ret : Ret}
    (h : s.step t .semset = some (s', ret)) : Effect s t s' ret := by
  simp only [Sem.step] at h
  split at h
  case isFalse => cases h
  case isTrue hpc =>
    have hpc' : s.pc t ≠ .clearing := by rw [hpc]; simp
    have e : s.pc = Function.update s.pc t .idle := by rw [← hpc, Function.update_eq_self]
    by_cases hw : s.word = 0
    · rw [if_neg (not_not.mpr hw)] at h
      cases h
      have ht := Effect.take hpc' hw
      rwa [← e] at ht
    · rw [if_pos hw] at h
      cases h
      have hq : Effect s t { s with word := 1, pc := Function.update s.pc t .idle }
          (.code ERROR_EXCL_SEM_ALREADY_OWNED) :=
        .quiet hpc' (.inr ⟨hw, rfl⟩) (by simp) (by simp)
      rwa [← e] at hq

/-- Every step has one of the four effects. -/
theorem step_effect {s s' : Sem Tid} {t : Tid} {act : Action} {ret : Ret}
    (h : s.step t act = some (s', ret)) : Effect s t s' ret := by
  cases act with
  | enter call =>
    simp only [Sem.step] at h
    split_ifs at h with hpc
    have he := loopSection_effect call (s := s) (t := t) (by rw [hpc]; simp)
    rwa [Option.some.inj h] at he
  | resume =>
    simp only [Sem.step] at h
    split at h
    · rename_i call hpc
      have he := loopSection_effect call (s := s) (t := t) (by rw [hpc]; simp)
      rwa [Option.some.inj h] at he
    · cases h
  | unblock eax => exact unblock_effect h
  | semset => exact semset_effect h
  | semclear =>
    simp only [Sem.step] at h
    split_ifs at h with hc
    cases h
    exact .store (by rw [hc.1]; simp) hc.2
  | procRun =>
    simp only [Sem.step] at h
    split_ifs at h with hc
    cases h
    exact .wake hc

/-! ## The lock -/

/-- What a thread does to a lock -/
inductive LockAction (Tid : Type*)
  | acquire (t : Tid)
  | release (t : Tid)

variable (Tid) in
/-- A lock: it is acquired while free and released by its owner. -/
def Lock : System (Option Tid) (LockAction Tid) where
  init o := o = none
  step o a o' :=
    match a with
    | .acquire t => o = none ∧ o' = some t
    | .release t => o = some t ∧ o' = none

/-- The owner of the lock holds the semaphore, and the word says whether there
    is one. -/
def Owns (s : Sem Tid) (o : Option Tid) : Prop :=
  s.word = (if o.isSome then 1 else 0) ∧ ∀ t, s.holds t = true ↔ o = some t

omit [DecidableEq Tid] in
theorem Owns.word_of_ne {s : Sem Tid} {o : Option Tid} (h : Owns s o) (hw : s.word ≠ 0) :
    s.word = 1 := by
  have h1 := h.1
  cases o with
  | none => simp at h1; exact absurd h1 hw
  | some t => simpa using h1

omit [DecidableEq Tid] in
theorem Owns.none_of_word {s : Sem Tid} {o : Option Tid} (h : Owns s o) (hw : s.word = 0) :
    o = none := by
  have h1 := h.1
  cases o with
  | none => rfl
  | some t => rw [hw] at h1; simp at h1

omit [DecidableEq Tid] in
theorem Owns.quiet_word {s : Sem Tid} {o : Option Tid} {w : BitVec 32} (h : Owns s o)
    (hw : w = s.word ∨ s.word ≠ 0 ∧ w = 1) : w = s.word := by
  rcases hw with hw | ⟨hne, hw⟩
  · exact hw
  · rw [hw, h.word_of_ne hne]

/-- **The lock follows the semaphore.** The exchange of a free word is an
    acquire, the store of 0 a release, and no other step changes the owner. -/
theorem lock_simulates : Simulation (semSystem Tid) (Lock Tid) Owns where
  init s hs := ⟨none, rfl, by simp [Owns, hs.1, hs.2.2]⟩
  step s a s' o hR h := by
    obtain ⟨t, act, ret⟩ := a
    cases step_effect h with
    | quiet _ hw _ _ => exact .inl ⟨by rw [hR.quiet_word hw]; exact hR.1, hR.2⟩
    | take _ hw =>
      have ho := hR.none_of_word hw
      refine .inr ⟨.acquire t, some t, ⟨ho, rfl⟩, by simp, fun u => ?_⟩
      by_cases hu : u = t
      · subst hu; simp
      · have hh := hR.2 u
        rw [ho] at hh
        simpa [Function.update_of_ne hu, Ne.symm hu] using hh
    | store _ hh =>
      have ho := (hR.2 t).mp hh
      refine .inr ⟨.release t, none, ⟨ho, rfl⟩, by simp, fun u => ?_⟩
      by_cases hu : u = t
      · subst hu; simp
      · have hh' := hR.2 u
        rw [ho] at hh'
        simpa [Function.update_of_ne hu, Ne.symm hu] using hh'
    | wake _ => exact .inl hR

theorem reachable_owns {s : Sem Tid} (hs : Reachable (semSystem Tid) s) : ∃ o, Owns s o := by
  obtain ⟨o, -, hR⟩ := lock_simulates.reachable hs
  exact ⟨o, hR⟩

end Mwdd32.Fsh32
