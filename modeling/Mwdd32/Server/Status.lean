import Mwdd32.Server.Handshake

/-!
# The status word of the IOCTL

`mwdd32_ioctl` (`mwdd32/mwdd32_ioctl.c`, lines 79–283) adds the code of each failure to its
status with `|=`.

* `status_iff`: the status is a valid one exactly when no unlock fails after a refusal, since
  `ERROR_I24_INVALID_PARAMETER | ERROR_I24_GEN_FAILURE` is neither of the two codes.
-/

namespace Mwdd32.Server

open ByteMem Interaction

/-- `STECODE` (`include/os2/reqpkt32.h`) -/
def STECODE : BitVec 32 := 0x00FF

variable (ERROR_NOBLOCK : BitVec 32)

/-- The answers after which `mwdd32_ioctl` does not call the client: an error of a service, a
    lock that is not granted, a wrong category, function or magic number. -/
def refuses : IoctlEvent → Bool
  | ⟨.virtToLin _, rc, _⟩ => decide (rc ≠ NO_ERROR)
  | ⟨.load .request _ 13 1, (cat : BitVec 32)⟩ => decide (cat ≠ MWDD32_IOCTL_CATEGORY)
  | ⟨.load .request _ 14 1, (func : BitVec 32)⟩ => decide (func ≠ 0x41 ∧ func ≠ 0x42)
  | ⟨.load .parm _ 0 4, (magicIn : BitVec 32)⟩ => decide (magicIn ≠ MAGIC_IN)
  | ⟨.vmLock _ _ _, rc, _⟩ => decide (¬ lockGranted ERROR_NOBLOCK rc)
  | ⟨.exportDevhelp32 _ _, (rc : BitVec 16)⟩ => decide (rc ≠ 0)
  | _ => false

/-- A refused unlock -/
def unlockFails : IoctlEvent → Bool
  | ⟨.vmUnlock _, (rc : BitVec 32)⟩ => decide (rc ≠ NO_ERROR)
  | _ => false

/-- A call of the client -/
def callsInit : IoctlEvent → Bool
  | ⟨.callInit _ _, _⟩ => true
  | _ => false

/-- The status of the run `tr` is one of a request packet: done, with an error exactly when the
    client's routine was not called or an unlock failed, and with one error code. -/
structure ValidStatus (tr : List IoctlEvent) (status : BitVec 32) : Prop where
  done : status &&& STDON = STDON
  error : status &&& STERR ≠ 0 ↔ (∀ e ∈ tr, ¬ callsInit e) ∨ ∃ e ∈ tr, unlockFails e
  noCode : status &&& STERR = 0 → status &&& STECODE = 0
  code : status &&& STERR ≠ 0 → status &&& STECODE ∈
    [ERROR_I24_BAD_COMMAND, ERROR_I24_GEN_FAILURE, ERROR_I24_INVALID_PARAMETER]

/-! ## Marks -/

/-- What has happened in a run. -/
structure Marks where
  called : Bool
  refused : Bool
  unlockFailed : Bool

/-- What one call adds to the marks -/
def Marks.step (L : Marks) (e : IoctlEvent) : Marks :=
  ⟨L.called || callsInit e, L.refused || refuses ERROR_NOBLOCK e, L.unlockFailed || unlockFails e⟩

/-- Before the first call -/
def Marks.none : Marks := ⟨false, false, false⟩

theorem foldl_marks (tr : List IoctlEvent) (L : Marks) :
    tr.foldl (Marks.step ERROR_NOBLOCK) L = ⟨L.called || tr.any callsInit,
      L.refused || tr.any (refuses ERROR_NOBLOCK), L.unlockFailed || tr.any unlockFails⟩ := by
  induction tr generalizing L with
  | nil => simp
  | cons e tr ih => simp [ih, Marks.step, Bool.or_assoc]

/-- The status for the marks: `code` for a refusal, to which the failure of an unlock is added. -/
def statusOf (L : Marks) (code : BitVec 32) : BitVec 32 :=
  (if L.refused then STERR + code else 0) |||
    if L.unlockFailed then STERR + ERROR_I24_GEN_FAILURE else 0

/-- Either the client was called or the request was refused, with `code`. -/
structure Graded (code : BitVec 32) (L : Marks) (status : BitVec 32) : Prop where
  called : L.called = !L.refused
  status : status = statusOf L code

variable {ERROR_NOBLOCK} {L : Marks} {parm data request : Addr}

/-- Every run of `p` after calls with the marks `L` ends with a status for one of `codes`. -/
def Grades (ERROR_NOBLOCK : BitVec 32) (code : BitVec 32) (L : Marks) (p : IoctlProg (BitVec 32)) :
    Prop :=
  Tracks Env.any (Marks.step ERROR_NOBLOCK) (fun L status _ => Graded code L status) L () p

section Rules

variable {code : BitVec 32} {p q : IoctlProg (BitVec 32)}

theorem grades_return {status : BitVec 32} (h : Graded code L status) :
    Grades ERROR_NOBLOCK code L (return status) := h

/-- A call that leaves the marks alone. -/
theorem grades_call {op : IoctlOp} {k : op.Res → IoctlProg (BitVec 32)}
    (hop : ∀ r, refuses ERROR_NOBLOCK ⟨op, r⟩ = false ∧ unlockFails ⟨op, r⟩ = false ∧
      callsInit ⟨op, r⟩ = false)
    (hk : ∀ r, Grades ERROR_NOBLOCK code L (k r)) :
    Grades ERROR_NOBLOCK code L (Prog.perform op >>= k) := by
  intro r _ _
  obtain ⟨h1, h2, h3⟩ := hop r
  have hstep : L.step ERROR_NOBLOCK ⟨op, r⟩ = L := by
    simp [Marks.step, h1, h2, h3]
  rw [hstep]
  exact hk r

/-- A call whose answer the program checks next. -/
theorem grades_check {op : IoctlOp} {k : op.Res → IoctlProg (BitVec 32)} {c : op.Res → Prop}
    (hop : ∀ r, (refuses ERROR_NOBLOCK ⟨op, r⟩ = true ↔ ¬ c r) ∧ unlockFails ⟨op, r⟩ = false ∧
      callsInit ⟨op, r⟩ = false)
    (hp : ∀ r, c r → Grades ERROR_NOBLOCK code L (k r))
    (hq : ∀ r, ¬ c r → Grades ERROR_NOBLOCK code { L with refused := true } (k r)) :
    Grades ERROR_NOBLOCK code L (Prog.perform op >>= k) := by
  intro r _ _
  obtain ⟨h1, h2, h3⟩ := hop r
  by_cases hc : c r
  · have hstep : L.step ERROR_NOBLOCK ⟨op, r⟩ = L := by
      have h1' : refuses ERROR_NOBLOCK ⟨op, r⟩ = false := by simp [← Bool.not_eq_true, h1, hc]
      simp [Marks.step, h1', h2, h3]
    rw [hstep]
    exact hp r hc
  · have hstep : L.step ERROR_NOBLOCK ⟨op, r⟩ = { L with refused := true } := by
      simp [Marks.step, h1, h2, h3, hc]
    rw [hstep]
    exact hq r hc

theorem grades_ite {c : Prop} [Decidable c] (hp : c → Grades ERROR_NOBLOCK code L p)
    (hq : ¬ c → Grades ERROR_NOBLOCK code L q) :
    Grades ERROR_NOBLOCK code L (if c then p else q) :=
  tracks_ite hp hq

end Rules

theorem refuse_grades {rc : BitVec 32} (hcalled : L.called = false) (hrefused : L.refused = true)
    (hunlock : L.unlockFailed = false) :
    Grades ERROR_NOBLOCK ERROR_I24_INVALID_PARAMETER L (refuse parm data rc) := by
  refine grades_call (fun _ => ⟨rfl, rfl, rfl⟩) fun _ => ?_
  refine grades_call (fun _ => ⟨rfl, rfl, rfl⟩) fun _ => grades_return ⟨?_, ?_⟩
  · rw [hcalled, hrefused]
    rfl
  · rw [statusOf, hrefused, hunlock]
    rfl

theorem exportAndInit_grades {arg : IoctlProg (BitVec 32)}
    (harg : ∀ L, Tracks Env.any (Marks.step ERROR_NOBLOCK) (fun L' _ _ => L' = L) L () arg) :
    Grades ERROR_NOBLOCK ERROR_I24_INVALID_PARAMETER .none (exportAndInit parm data arg) := by
  refine grades_call (fun _ => ⟨rfl, rfl, rfl⟩) fun _ => ?_
  refine grades_call (fun _ => ⟨rfl, rfl, rfl⟩) fun _ => ?_
  refine grades_check (fun (rc : BitVec 16) => ⟨decide_eq_true_iff, rfl, rfl⟩)
    (fun (rc : BitVec 16) hrc => grades_ite (fun _ => ?_) fun hn => absurd hrc hn)
    fun (rc : BitVec 16) hrc => grades_ite (fun hn => absurd hn hrc) fun _ =>
      refuse_grades rfl rfl rfl
  refine grades_call (fun _ => ⟨rfl, rfl, rfl⟩) fun _ => ?_
  refine grades_call (fun _ => ⟨rfl, rfl, rfl⟩) fun init => ?_
  refine tracks_bind.mpr (tracks_mono (harg _) ?_)
  rintro _ arg _ rfl _ _ _ _ _ _
  exact ⟨rfl, by simp [statusOf, Marks.step, Marks.none, refuses, unlockFails]⟩

theorem initFsd_grades :
    Grades ERROR_NOBLOCK ERROR_I24_INVALID_PARAMETER .none (initFsd parm data) := by
  refine grades_check (fun (magicIn : BitVec 32) => ⟨decide_eq_true_iff, rfl, rfl⟩)
    (fun (magicIn : BitVec 32) h => grades_ite (fun _ => ?_) fun hn => absurd h hn)
    fun (magicIn : BitVec 32) h => grades_ite (fun hn => absurd hn h) fun _ =>
      refuse_grades rfl rfl rfl
  refine grades_call (fun _ => ⟨rfl, rfl, rfl⟩) fun parms => ?_
  refine grades_check (fun _ => ⟨decide_eq_true_iff, rfl, rfl⟩)
    (fun (rc, lin) h => grades_ite (fun _ => ?_) fun hn => absurd h hn)
    fun (rc, lin) h => grades_ite (fun hn => absurd hn h) fun _ => refuse_grades rfl rfl rfl
  exact exportAndInit_grades fun _ => rfl

theorem initDevice_grades :
    Grades ERROR_NOBLOCK ERROR_I24_INVALID_PARAMETER .none (initDevice parm data) := by
  refine grades_check (fun (magicIn : BitVec 32) => ⟨decide_eq_true_iff, rfl, rfl⟩)
    (fun (magicIn : BitVec 32) h => grades_ite (fun _ => ?_) fun hn => absurd h hn)
    fun (magicIn : BitVec 32) h => grades_ite (fun hn => absurd hn h) fun _ =>
      refuse_grades rfl rfl rfl
  refine exportAndInit_grades fun L _ _ _ => ?_
  simp [Tracks, Marks.step, refuses, unlockFails, callsInit]

/-- A failing unlock adds its code to a status without it. -/
theorem statusOf_unlockFailed (L : Marks) (code : BitVec 32) :
    statusOf L code ||| (STERR + ERROR_I24_GEN_FAILURE) =
      statusOf { L with unlockFailed := true } code := by
  unfold statusOf
  rw [BitVec.or_assoc]
  cases L.unlockFailed <;> rfl

theorem unlock_grades {lock : BitVec 96} {status code : BitVec 32} (h : Graded code L status) :
    Grades ERROR_NOBLOCK code L (unlock lock status) := by
  intro (rc : BitVec 32) _ _
  obtain ⟨hcalled, rfl⟩ := h
  have hstep : L.step ERROR_NOBLOCK ⟨.vmUnlock lock, rc⟩ =
      { L with unlockFailed := L.unlockFailed || decide (rc ≠ NO_ERROR) } := by
    simp [Marks.step, refuses, unlockFails, callsInit]
  rw [hstep]
  show Graded _ _ (if rc = NO_ERROR then _ else _)
  split_ifs with hrc
  · simpa [hrc] using ⟨hcalled, rfl⟩
  · rw [statusOf_unlockFailed]
    simpa [hrc] using ⟨hcalled, rfl⟩

theorem withBuffers_grades {body : Addr → Addr → IoctlProg (BitVec 32)}
    (hbody : ∀ parm data,
      Grades ERROR_NOBLOCK ERROR_I24_INVALID_PARAMETER .none (body parm data)) :
    Grades ERROR_NOBLOCK ERROR_I24_INVALID_PARAMETER .none
      (withBuffers ERROR_NOBLOCK request body) := by
  have hinvalid : Graded ERROR_I24_INVALID_PARAMETER ⟨false, true, false⟩
      (STERR + ERROR_I24_INVALID_PARAMETER) := ⟨rfl, rfl⟩
  refine grades_call (fun _ => ⟨rfl, rfl, rfl⟩) fun parm => ?_
  refine grades_check (fun _ => ⟨decide_eq_true_iff, rfl, rfl⟩)
    (fun (rc, parm) h => grades_ite (fun _ => ?_) fun hn => absurd h hn)
    fun (rc, parm) h => grades_ite (fun hn => absurd hn h) fun _ => grades_return hinvalid
  refine grades_call (fun _ => ⟨rfl, rfl, rfl⟩) fun data => ?_
  refine grades_check (fun _ => ⟨decide_eq_true_iff, rfl, rfl⟩)
    (fun (rc, data) h => grades_ite (fun _ => ?_) fun hn => absurd h hn)
    fun (rc, data) h => grades_ite (fun hn => absurd hn h) fun _ => grades_return hinvalid
  refine grades_check (fun _ => ⟨decide_eq_true_iff, rfl, rfl⟩)
    (fun (rc, lockParm) h => grades_ite (fun _ => ?_) fun hn => absurd h hn)
    fun (rc, lockParm) h => grades_ite (fun hn => absurd hn h) fun _ => grades_return hinvalid
  refine grades_check (fun _ => ⟨decide_eq_true_iff, rfl, rfl⟩)
    (fun (rc, lockData) h => grades_ite (fun _ => ?_) fun hn => absurd h hn)
    fun (rc, lockData) h => grades_ite (fun hn => absurd hn h) fun _ => unlock_grades hinvalid
  refine tracks_bind.mpr (tracks_mono (hbody parm data) fun L status _ h => ?_)
  exact tracks_bind.mpr (tracks_mono (unlock_grades h) fun L status _ h => unlock_grades h)

/-- The end of a run, before `STDON`: only a refused packet has the code of a bad command, and
    then no lock was asked for. -/
def Ends (L : Marks) (status : BitVec 32) : Prop :=
  Graded ERROR_I24_INVALID_PARAMETER L status ∨
    Graded ERROR_I24_BAD_COMMAND L status ∧ L.unlockFailed = false

theorem dispatch_ends : Tracks Env.any (Marks.step ERROR_NOBLOCK)
    (fun L status _ => Ends L status) .none () (dispatch ERROR_NOBLOCK request) := by
  have hinvalid : ∀ {p : IoctlProg (BitVec 32)},
      Grades ERROR_NOBLOCK ERROR_I24_INVALID_PARAMETER .none p →
      Tracks Env.any (Marks.step ERROR_NOBLOCK) (fun L status _ => Ends L status) .none () p :=
    fun h => tracks_mono h fun _ _ _ => Or.inl
  have hbad : Ends ⟨false, true, false⟩ (STERR + ERROR_I24_BAD_COMMAND) := .inr ⟨⟨rfl, rfl⟩, rfl⟩
  rintro (cat : BitVec 32) _ -
  refine tracks_ite (fun hcat => ?_) fun hcat => ?_
  · rintro (func : BitVec 32) _ -
    refine tracks_ite (fun hfunc => ?_) fun hfunc => tracks_ite (fun hfunc' => ?_) fun hfunc' => ?_
    · subst hcat hfunc
      exact hinvalid (withBuffers_grades fun _ _ => initFsd_grades)
    · subst hcat hfunc'
      exact hinvalid (withBuffers_grades fun _ _ => initDevice_grades)
    · have h1 : decide (func = 0x41#32) = false := decide_eq_false hfunc
      have h2 : decide (func = 0x42#32) = false := decide_eq_false hfunc'
      show Ends _ _
      simpa [Marks.step, Marks.none, refuses, unlockFails, callsInit, hcat, h1, h2] using hbad
  · show Ends _ _
    simpa [Marks.step, Marks.none, refuses, unlockFails, callsInit, hcat] using hbad

theorem mwdd32Ioctl_ends (reqpkt : PTR16) : Tracks Env.any (Marks.step ERROR_NOBLOCK)
    (fun L status _ => ∃ status', status = status' ||| STDON ∧ Ends L status') .none ()
    (mwdd32Ioctl ERROR_NOBLOCK reqpkt) := by
  rintro ⟨rc, request⟩ _ -
  refine tracks_ite (fun hrc => ?_) fun hrc => ?_
  · subst hrc
    exact tracks_bind.mpr (tracks_mono dispatch_ends fun L status _ h => ⟨status, rfl, h⟩)
  · refine ⟨_, rfl, .inl ⟨?_, ?_⟩⟩ <;>
      simp [statusOf, Marks.step, Marks.none, refuses, unlockFails, callsInit, hrc]

theorem ends_valid_iff {tr : List IoctlEvent} {status : BitVec 32}
    (h : Ends ⟨tr.any callsInit, tr.any (refuses ERROR_NOBLOCK), tr.any unlockFails⟩ status) :
    ValidStatus tr (status ||| STDON) ↔
      ¬ ((∃ e ∈ tr, refuses ERROR_NOBLOCK e) ∧ ∃ e ∈ tr, unlockFails e) := by
  have hcalled : (∀ e ∈ tr, ¬ callsInit e) ↔ tr.any callsInit = false := by simp
  have hrefused : (∃ e ∈ tr, refuses ERROR_NOBLOCK e) ↔ tr.any (refuses ERROR_NOBLOCK) = true := by
    simp
  have hunlock : (∃ e ∈ tr, unlockFails e) ↔ tr.any unlockFails = true := by simp
  rw [hrefused, hunlock]
  have hvalid : ∀ status, ValidStatus tr status ↔
      status &&& STDON = STDON ∧
      (status &&& STERR ≠ 0 ↔ tr.any callsInit = false ∨ tr.any unlockFails = true) ∧
      (status &&& STERR = 0 → status &&& STECODE = 0) ∧
      (status &&& STERR ≠ 0 → status &&& STECODE ∈
        [ERROR_I24_BAD_COMMAND, ERROR_I24_GEN_FAILURE, ERROR_I24_INVALID_PARAMETER]) := by
    intro status
    rw [← hcalled, ← hunlock]
    exact ⟨fun h => ⟨h.1, h.2, h.3, h.4⟩, fun h => ⟨h.1, h.2.1, h.2.2.1, h.2.2.2⟩⟩
  rw [hvalid]
  rcases h with ⟨hc, rfl⟩ | ⟨⟨hc, rfl⟩, hu⟩
  · simp only at hc
    rw [hc]
    cases tr.any (refuses ERROR_NOBLOCK) <;> cases tr.any unlockFails <;> decide
  · simp only at hc hu
    rw [hc, hu]
    cases tr.any (refuses ERROR_NOBLOCK) <;> decide

/-- **The status word.** For every request packet and all outcomes of the services, the status is
    a valid one if and only if no unlock fails in a run that a service, the magic number or the
    packet has made a refusal. -/
theorem status_iff (reqpkt : PTR16) {tr : List IoctlEvent} {status : BitVec 32}
    (h : Runs Env.any () (mwdd32Ioctl ERROR_NOBLOCK reqpkt) tr status ()) :
    ValidStatus tr status ↔
      ¬ ((∃ e ∈ tr, refuses ERROR_NOBLOCK e) ∧ ∃ e ∈ tr, unlockFails e) := by
  obtain ⟨status', rfl, hends⟩ := (mwdd32Ioctl_ends reqpkt).sound h
  rw [foldl_marks] at hends
  exact ends_valid_iff (by simpa [Marks.none] using hends)

/-- Services of `sampleAnswer` with a data buffer that cannot be locked and a lock of the parm
    buffer that cannot be released. -/
def failingAnswer (op : IoctlOp) : op.Res :=
  match op with
  | .vmLock _ p _ => if p = 0x2000 then (87#32, 0) else (0#32, p.setWidth 96)
  | .vmUnlock _ => 87#32
  | op => sampleAnswer op

theorem status_sample :
    let run := (mwdd32Ioctl 1 0x500).answer sampleAnswer
    ValidStatus run.1 run.2 ∧ run.2 = STDON := by
  refine ⟨(status_iff 0x500 (Runs.answer (f := sampleAnswer) (fun _ => trivial) _)).mpr ?_, ?_⟩
  · decide
  · decide

/-- `ERROR_I24_INVALID_PARAMETER | ERROR_I24_GEN_FAILURE` is 31. -/
theorem status_failing_sample :
    ¬ ∀ reqpkt tr status, Runs Env.any () (mwdd32Ioctl 1 reqpkt) tr status () →
      ValidStatus tr status := by
  intro h
  have hvalid := h 0x500 _ _ (Runs.answer (f := failingAnswer) (fun _ => trivial) _)
  exact absurd (hvalid.code (by decide)) (by decide)

end Mwdd32.Server
