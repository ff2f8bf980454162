import Mwdd32.Common
import Mwdd32.Lib.ByteMem
import Mwdd32.Lib.Interaction

/-!
# The IOCTL entry point

`mwdd32_ioctl` (`mwdd32/mwdd32_ioctl.c`, lines 79–283) locks the two buffers of a
request, gives the client its services and calls the client's init routine. It is a
program over the DevHlp services, the accesses through its three pointers and the
calls of `mwdd32_export_devhelp32` and of the client.

* `ioctl_discipline`: locks are released once each, the buffers are accessed under both
  locks, and the client is called behind all checks.
-/

namespace Mwdd32.Server

open ByteMem Interaction

/-! ## Model -/

/-- The pointers that `mwdd32_ioctl` accesses memory through: `request`, `pparm`, `pdata`. -/
inductive Buffer
  | request | parm | data
  deriving DecidableEq

/-- `load` and `store` access `n` bytes at the offset `off` of the structure at `p`. -/
inductive IoctlOp
  | virtToLin (p : PTR16)
  | load (b : Buffer) (p : Addr) (off n : ℕ)
  | store (b : Buffer) (p : Addr) (off n : ℕ) (v : BitVec 32)
  | vmLock (flags : BitVec 32) (p : Addr) (length : ℕ)
  | vmUnlock (lock : BitVec 96)
  | exportDevhelp32 (pTKSSBase pDevHelp32 : BitVec 32)
  | callInit (init arg : BitVec 32)

/-- A service answers with its return code and what it stores in the caller's variable:
    a linear address, a lock handle of 12 bytes. -/
def IoctlOp.Res : IoctlOp → Type
  | .virtToLin _ => BitVec 32 × Addr
  | .load .. => BitVec 32
  | .store .. => Unit
  | .vmLock .. => BitVec 32 × BitVec 96
  | .vmUnlock _ => BitVec 32
  | .exportDevhelp32 .. => BitVec 16
  | .callInit .. => BitVec 32

/-- A routine of mwdd32 that calls its services -/
abbrev IoctlProg := Prog IoctlOp IoctlOp.Res

/-- A call of a service and its answer -/
abbrev IoctlEvent := Event IoctlOp IoctlOp.Res

section

open Prog

/-- `DevHlp32_VirtToLin`: the return code and the linear address -/
abbrev devHlp32VirtToLin (p : PTR16) : IoctlProg (BitVec 32 × Addr) :=
  perform (IoctlOp.virtToLin p)

/-- A read of `n` bytes at the offset `off` of a buffer -/
abbrev load (b : Buffer) (p : Addr) (off n : ℕ) : IoctlProg (BitVec 32) :=
  perform (IoctlOp.load b p off n)

/-- A store of `n` bytes at the offset `off` of a buffer -/
abbrev store (b : Buffer) (p : Addr) (off n : ℕ) (v : BitVec 32) : IoctlProg Unit :=
  perform (IoctlOp.store b p off n v)

/-- `DevHlp32_VMLock`: the return code and the lock handle -/
abbrev devHlp32VMLock (flags : BitVec 32) (p : Addr) (length : ℕ) :
    IoctlProg (BitVec 32 × BitVec 96) :=
  perform (IoctlOp.vmLock flags p length)

/-- `DevHlp32_VMUnlock`: the return code -/
abbrev devHlp32VMUnlock (lock : BitVec 96) : IoctlProg (BitVec 32) :=
  perform (IoctlOp.vmUnlock lock)

/-- `mwdd32_export_devhelp32`: the return code -/
abbrev exportDevhelp32 (pTKSSBase pDevHelp32 : BitVec 32) : IoctlProg (BitVec 16) :=
  perform (IoctlOp.exportDevhelp32 pTKSSBase pDevHelp32)

/-- A call of the client's initialisation routine: what it returns -/
abbrev callInit (init arg : BitVec 32) : IoctlProg (BitVec 32) :=
  perform (IoctlOp.callInit init arg)

end

/-- The category of the requests for mwdd32 -/
def MWDD32_IOCTL_CATEGORY : BitVec 32 := 0xF0

/-- `INIT_FSD_MAGIC_IN` and `INIT_DEVICE_MAGIC_IN` (`mwdd32/mwdd32_ioctl.h`) -/
def MAGIC_IN : BitVec 32 := 0xAAAAAAAA

/-- `INIT_FSD_MAGIC_OUT` and `INIT_DEVICE_MAGIC_OUT` -/
def MAGIC_OUT : BitVec 32 := 0xBBBBBBBB

/-- `VMDHL_WRITE | VMDHL_LONG | VMDHL_VERIFY` -/
def lockFlags : BitVec 32 := 0x38

/-- The refusal of a request whose buffers are locked, with the value for the field
    `fs32_init_rc` or `device_init_rc` -/
def refuse (parm data : Addr) (rc : BitVec 32) : IoctlProg (BitVec 32) := do
  store .parm parm 0 4 MAGIC_OUT
  store .data data 0 4 rc
  return STERR + ERROR_I24_INVALID_PARAMETER

/-- The export to the client and the call of its routine, `arg` being the argument -/
def exportAndInit (parm data : Addr) (arg : IoctlProg (BitVec 32)) : IoctlProg (BitVec 32) := do
  let pTKSSBase ← load .data data 8 4
  let pDevHelp32 ← load .data data 12 4
  let rc ← exportDevhelp32 pTKSSBase pDevHelp32
  if rc = 0 then
    store .parm parm 0 4 MAGIC_OUT
    let init ← load .data data 0 4
    let arg ← arg
    let rc ← callInit init arg
    store .data data 0 4 rc
    return 0
  else refuse parm data 0

/-- `MWDD32_IOCTL_FUNCTION_INIT_FSD` with both buffers locked (lines 103–134) -/
def initFsd (parm data : Addr) : IoctlProg (BitVec 32) := do
  let magicIn ← load .parm parm 0 4
  if magicIn = MAGIC_IN then
    let parms ← load .data data 4 4
    let (rc, fs32InitParms) ← devHlp32VirtToLin parms
    if rc = NO_ERROR then exportAndInit parm data (return fs32InitParms)
    else refuse parm data rc
  else refuse parm data ERROR_INVALID_PARAMETER

/-- `MWDD32_IOCTL_FUNCTION_INIT_DEVICE` with both buffers locked (lines 194–215) -/
def initDevice (parm data : Addr) : IoctlProg (BitVec 32) := do
  let magicIn ← load .parm parm 0 4
  if magicIn = MAGIC_IN then exportAndInit parm data (load .data data 4 4)
  else refuse parm data ERROR_INVALID_PARAMETER

section

variable (ERROR_NOBLOCK : BitVec 32)

/-- `rc` is one of the return codes of `DevHlp32_VMLock` for a lock that was granted. -/
def lockGranted (rc : BitVec 32) : Prop := rc = NO_ERROR ∨ rc = ERROR_NOBLOCK

instance (rc : BitVec 32) : Decidable (lockGranted ERROR_NOBLOCK rc) :=
  inferInstanceAs (Decidable (_ ∨ _))

/-- `DevHlp32_VMUnlock`, after which a failure is added to the status -/
def unlock (lock : BitVec 96) (status : BitVec 32) : IoctlProg (BitVec 32) := do
  let rc ← devHlp32VMUnlock lock
  return if rc = NO_ERROR then status else status ||| (STERR + ERROR_I24_GEN_FAILURE)

/-- The calls around both functions: `request->parm` and `request->data` converted and locked,
    `body`, and the locks released. -/
def withBuffers (request : Addr) (body : Addr → Addr → IoctlProg (BitVec 32)) :
    IoctlProg (BitVec 32) := do
  let invalid := STERR + ERROR_I24_INVALID_PARAMETER
  let parm ← load .request request 15 4
  let (rc, parm) ← devHlp32VirtToLin parm
  if rc = NO_ERROR then
    let data ← load .request request 19 4
    let (rc, data) ← devHlp32VirtToLin data
    if rc = NO_ERROR then
      let (rc, lockParm) ← devHlp32VMLock lockFlags parm 4
      if lockGranted ERROR_NOBLOCK rc then
        let (rc, lockData) ← devHlp32VMLock lockFlags data 16
        if lockGranted ERROR_NOBLOCK rc then
          let status ← body parm data
          let status ← unlock lockData status
          unlock lockParm status
        else unlock lockParm invalid
      else return invalid
    else return invalid
  else return invalid

/-- The `switch` of `mwdd32_ioctl` -/
def dispatch (request : Addr) : IoctlProg (BitVec 32) := do
  let cat ← load .request request 13 1
  if cat = MWDD32_IOCTL_CATEGORY then
    let func ← load .request request 14 1
    if func = 0x41 then withBuffers ERROR_NOBLOCK request initFsd
    else if func = 0x42 then withBuffers ERROR_NOBLOCK request initDevice
    else return STERR + ERROR_I24_BAD_COMMAND
  else return STERR + ERROR_I24_BAD_COMMAND

/-- `mwdd32_ioctl(reqpkt)` -/
def mwdd32Ioctl (reqpkt : PTR16) : IoctlProg (BitVec 32) := do
  let (rc, request) ← devHlp32VirtToLin reqpkt
  let status ←
    if rc = NO_ERROR then dispatch ERROR_NOBLOCK request
    else pure (STERR + ERROR_I24_INVALID_PARAMETER)
  return status ||| STDON

end

/-! ## What a run has done -/

/-- A granted lock that has not been released. -/
structure Lock where
  handle : BitVec 96
  start : Addr
  length : ℕ

/-- A summary of the events of a run, for the claims about it. -/
structure Ledger where
  /-- the locks held, the last one first -/
  held : List Lock
  granted : List (BitVec 96)
  released : List (BitVec 96)
  /-- the category and the magic number read last -/
  cat : Option (BitVec 32)
  magicIn : Option (BitVec 32)
  /-- the return code of the last export -/
  exported : Option (BitVec 16)
  inits : ℕ
  magicOut : Bool

/-- Before the first call -/
def Ledger.empty : Ledger := ⟨[], [], [], none, none, none, 0, false⟩

/-- What one call adds to the ledger -/
def Ledger.step (ERROR_NOBLOCK : BitVec 32) (L : Ledger) : IoctlEvent → Ledger
  | ⟨.vmLock _ p length, rc, handle⟩ =>
    if lockGranted ERROR_NOBLOCK rc then
      { L with held := ⟨handle, p, length⟩ :: L.held, granted := L.granted ++ [handle] }
    else L
  | ⟨.vmUnlock handle, _⟩ =>
    { L with held := L.held.eraseP (·.handle = handle), released := L.released ++ [handle] }
  | ⟨.load .request _ 13 1, v⟩ => { L with cat := some v }
  | ⟨.load .parm _ 0 4, v⟩ => { L with magicIn := some v }
  | ⟨.store .parm _ 0 4 v, _⟩ => { L with magicOut := L.magicOut || v == MAGIC_OUT }
  | ⟨.exportDevhelp32 _ _, rc⟩ => { L with exported := some rc }
  | ⟨.callInit _ _, _⟩ => { L with inits := L.inits + 1 }
  | _ => L

/-- The ledger of a run -/
def ledger (ERROR_NOBLOCK : BitVec 32) (tr : List IoctlEvent) : Ledger :=
  tr.foldl (Ledger.step ERROR_NOBLOCK) .empty

@[simp] theorem ledger_append (ERROR_NOBLOCK : BitVec 32) (tr : List IoctlEvent) (e : IoctlEvent) :
    ledger ERROR_NOBLOCK (tr ++ [e]) = (ledger ERROR_NOBLOCK tr).step ERROR_NOBLOCK e := by
  simp [ledger]

/-- Exactly the locks on both buffers are held. -/
def BothHeld (L : Ledger) (parm data : Addr) : Prop :=
  ∃ lockData lockParm, L.held = [⟨lockData, data, 16⟩, ⟨lockParm, parm, 4⟩]

/-- The discipline of one call, after the calls that `L` summarizes. -/
def Allowed (L : Ledger) (e : IoctlEvent) : Prop :=
  match e.1 with
  | .load .parm p off n | .store .parm p off n _ => (∃ data, BothHeld L p data) ∧ off + n ≤ 4
  | .load .data p off n | .store .data p off n _ => (∃ parm, BothHeld L parm p) ∧ off + n ≤ 16
  | .vmUnlock handle => ∃ l ∈ L.held, l.handle = handle
  | .callInit _ _ =>
    (∃ parm data, BothHeld L parm data) ∧ L.cat = some MWDD32_IOCTL_CATEGORY ∧
    L.magicIn = some MAGIC_IN ∧ L.exported = some 0 ∧ L.inits = 0
  | _ => True

/-- The discipline of a whole run. -/
structure Closed (L : Ledger) : Prop where
  released : L.released = L.granted.reverse
  magicOut : L.granted.length = 2 → L.magicOut = true
  inits : L.inits ≤ 1

variable (ERROR_NOBLOCK : BitVec 32)

/-- After any calls that `L` summarizes, each call of `p` is allowed and the whole satisfies
    `Q`. -/
def Disciplined (Q : Ledger → Prop) (L : Ledger) {α : Type} (p : IoctlProg α) : Prop :=
  ∀ h, ledger ERROR_NOBLOCK h = L →
    Wp Env.any (fun h e => Allowed (ledger ERROR_NOBLOCK h) e)
      (fun h _ _ => Q (ledger ERROR_NOBLOCK h)) h () p

variable {ERROR_NOBLOCK}

section Rules

variable {Q R : Ledger → Prop} {L : Ledger} {α β : Type}

theorem disciplined_return {a : α} (hQ : Q L) :
    Disciplined ERROR_NOBLOCK Q L (return a : IoctlProg α) := by
  rintro h rfl
  exact hQ

theorem disciplined_call {op : IoctlOp} {k : op.Res → IoctlProg α} (ha : ∀ r, Allowed L ⟨op, r⟩)
    (hk : ∀ r, Disciplined ERROR_NOBLOCK Q (L.step ERROR_NOBLOCK ⟨op, r⟩) (k r)) :
    Disciplined ERROR_NOBLOCK Q L (Prog.perform op >>= k) := by
  rintro h rfl r _ _
  exact ⟨ha r, hk r _ (ledger_append _ _ _)⟩

theorem disciplined_perform {op : IoctlOp} (ha : ∀ r, Allowed L ⟨op, r⟩)
    (hQ : ∀ r, Q (L.step ERROR_NOBLOCK ⟨op, r⟩)) :
    Disciplined ERROR_NOBLOCK Q L (Prog.perform op : IoctlProg op.Res) := by
  rintro h rfl r _ _
  refine ⟨ha r, ?_⟩
  show Q (ledger _ _)
  rw [ledger_append]
  exact hQ r

theorem disciplined_bind {p : IoctlProg β} {f : β → IoctlProg α}
    (hp : Disciplined ERROR_NOBLOCK R L p)
    (hf : ∀ L b, R L → Disciplined ERROR_NOBLOCK Q L (f b)) :
    Disciplined ERROR_NOBLOCK Q L (p >>= f) := by
  intro h hL
  exact wp_bind.mpr (wp_mono (hp h hL) fun h b _ hR => hf _ b hR h rfl)

theorem disciplined_mono {p : IoctlProg α} (hp : Disciplined ERROR_NOBLOCK R L p)
    (hRQ : ∀ L, R L → Q L) : Disciplined ERROR_NOBLOCK Q L p :=
  fun h hL => wp_mono (hp h hL) fun _ _ _ => hRQ _

theorem disciplined_ite {c : Prop} [Decidable c] {p q : IoctlProg α}
    (hp : c → Disciplined ERROR_NOBLOCK Q L p) (hq : ¬ c → Disciplined ERROR_NOBLOCK Q L q) :
    Disciplined ERROR_NOBLOCK Q L (if c then p else q) :=
  fun h hL => wp_ite (fun hc => hp hc h hL) fun hc => hq hc h hL

end Rules

/-- A function called with both buffers locked, the category checked and the client not called
    yet. -/
structure Entered (L : Ledger) (parm data : Addr) : Prop where
  held : BothHeld L parm data
  cat : L.cat = some MWDD32_IOCTL_CATEGORY
  inits : L.inits = 0

/-- From `L` to `L'` a function left the locks alone and answered with the magic number. -/
structure Answered (L L' : Ledger) : Prop where
  held : L'.held = L.held
  granted : L'.granted = L.granted
  released : L'.released = L.released
  magicOut : L'.magicOut = true
  inits : L'.inits ≤ 1

theorem refuse_disciplined {L L' : Ledger} {parm data : Addr} {rc : BitVec 32}
    (hheld : BothHeld L' parm data) (hinits : L'.inits = 0)
    (hsame : L'.held = L.held ∧ L'.granted = L.granted ∧ L'.released = L.released) :
    Disciplined ERROR_NOBLOCK (Answered L) L' (refuse parm data rc) := by
  obtain ⟨h1, h2, h3⟩ := hsame
  refine disciplined_call (fun _ => ⟨⟨data, hheld⟩, by decide⟩) fun _ => ?_
  refine disciplined_call (fun _ => ⟨⟨parm, hheld⟩, by decide⟩) fun _ => ?_
  exact disciplined_return ⟨h1, h2, h3, by simp [Ledger.step], by simp [Ledger.step, hinits]⟩

/-- The exported services and the call of the routine, whose argument `arg` is computed from the
    data buffer at most. -/
theorem exportAndInit_disciplined {L L' : Ledger} {parm data : Addr} {arg : IoctlProg (BitVec 32)}
    (hL : Entered L' parm data) (hmagic : L'.magicIn = some MAGIC_IN)
    (hsame : L'.held = L.held ∧ L'.granted = L.granted ∧ L'.released = L.released)
    (harg : ∀ L, BothHeld L parm data → Disciplined ERROR_NOBLOCK (· = L) L arg) :
    Disciplined ERROR_NOBLOCK (Answered L) L' (exportAndInit parm data arg) := by
  obtain ⟨hheld, hcat, hinits⟩ := hL
  refine disciplined_call (fun _ => ⟨⟨parm, hheld⟩, by decide⟩) fun pTKSSBase => ?_
  refine disciplined_call (fun _ => ⟨⟨parm, hheld⟩, by decide⟩) fun pDevHelp32 => ?_
  refine disciplined_call (fun _ => trivial) fun (rc : BitVec 16) => ?_
  refine disciplined_ite (fun hrc => ?_) fun _ => ?_
  · refine disciplined_call (fun _ => ⟨⟨data, hheld⟩, by decide⟩) fun _ => ?_
    refine disciplined_call (fun _ => ⟨⟨parm, hheld⟩, by decide⟩) fun init => ?_
    refine disciplined_bind (harg _ hheld) ?_
    rintro _ arg rfl
    refine disciplined_call
      (fun _ => ⟨⟨parm, data, hheld⟩, hcat, hmagic, congrArg some hrc, hinits⟩)
      fun rc => ?_
    refine disciplined_call (fun _ => ⟨⟨parm, hheld⟩, by decide⟩) fun _ => ?_
    obtain ⟨h1, h2, h3⟩ := hsame
    exact disciplined_return ⟨h1, h2, h3, by simp [Ledger.step], by simp [Ledger.step, hinits]⟩
  · exact refuse_disciplined hheld hinits hsame

theorem initFsd_disciplined {L : Ledger} {parm data : Addr} (hL : Entered L parm data) :
    Disciplined ERROR_NOBLOCK (Answered L) L (initFsd parm data) := by
  obtain ⟨hheld, hcat, hinits⟩ := hL
  refine disciplined_call (fun _ => ⟨⟨data, hheld⟩, by decide⟩) fun (magicIn : BitVec 32) => ?_
  refine disciplined_ite (fun hmagic => ?_) fun _ => refuse_disciplined hheld hinits ⟨rfl, rfl, rfl⟩
  refine disciplined_call (fun _ => ⟨⟨parm, hheld⟩, by decide⟩) fun parms => ?_
  refine disciplined_call (fun _ => trivial) fun (rc, fs32InitParms) => ?_
  refine disciplined_ite (fun _ => ?_) fun _ => refuse_disciplined hheld hinits ⟨rfl, rfl, rfl⟩
  exact exportAndInit_disciplined ⟨hheld, hcat, hinits⟩ (congrArg some hmagic) ⟨rfl, rfl, rfl⟩
    fun _ _ => disciplined_return rfl

theorem initDevice_disciplined {L : Ledger} {parm data : Addr} (hL : Entered L parm data) :
    Disciplined ERROR_NOBLOCK (Answered L) L (initDevice parm data) := by
  obtain ⟨hheld, hcat, hinits⟩ := hL
  refine disciplined_call (fun _ => ⟨⟨data, hheld⟩, by decide⟩) fun (magicIn : BitVec 32) => ?_
  refine disciplined_ite (fun hmagic => ?_) fun _ => refuse_disciplined hheld hinits ⟨rfl, rfl, rfl⟩
  exact exportAndInit_disciplined ⟨hheld, hcat, hinits⟩ (congrArg some hmagic) ⟨rfl, rfl, rfl⟩
    fun _ hheld => disciplined_perform (fun _ => ⟨⟨parm, hheld⟩, by decide⟩) fun _ => rfl

/-- `DevHlp32_VMLock` for a lock that is granted, and one that is not. -/
theorem disciplined_lock {Q : Ledger → Prop} {L : Ledger} {α : Type} {flags : BitVec 32} {p : Addr}
    {length : ℕ} {k : BitVec 32 × BitVec 96 → IoctlProg α}
    (hgranted : ∀ rc handle, lockGranted ERROR_NOBLOCK rc → Disciplined ERROR_NOBLOCK Q
      { L with held := ⟨handle, p, length⟩ :: L.held, granted := L.granted ++ [handle] }
      (k (rc, handle)))
    (hrefused : ∀ rc handle, ¬ lockGranted ERROR_NOBLOCK rc →
      Disciplined ERROR_NOBLOCK Q L (k (rc, handle))) :
    Disciplined ERROR_NOBLOCK Q L (devHlp32VMLock flags p length >>= k) := by
  refine disciplined_call (fun _ => trivial) fun (rc, handle) => ?_
  by_cases hrc : lockGranted ERROR_NOBLOCK rc
  · exact (congrArg (Disciplined _ Q · _) (if_pos hrc)).mpr (hgranted rc handle hrc)
  · exact (congrArg (Disciplined _ Q · _) (if_neg hrc)).mpr (hrefused rc handle hrc)

theorem unlock_disciplined {L : Ledger} {handle : BitVec 96} {p : Addr} {length : ℕ}
    {rest : List Lock} {status : BitVec 32} (hheld : L.held = ⟨handle, p, length⟩ :: rest) :
    Disciplined ERROR_NOBLOCK (· = { L with held := rest, released := L.released ++ [handle] }) L
      (unlock handle status) := by
  refine disciplined_call (fun _ => ⟨_, hheld ▸ List.mem_cons_self, rfl⟩) fun _ => ?_
  refine disciplined_return ?_
  simp [Ledger.step, hheld]

/-- No lock has been asked for and the client has not been called. -/
structure Clean (L : Ledger) : Prop where
  held : L.held = []
  granted : L.granted = []
  released : L.released = []
  inits : L.inits = 0

theorem Clean.closed {L : Ledger} (hL : Clean L) : Closed L := by
  obtain ⟨-, hgranted, hreleased, hinits⟩ := hL
  refine ⟨by rw [hreleased, hgranted]; rfl, fun h => ?_, by omega⟩
  rw [hgranted] at h
  cases h

theorem withBuffers_disciplined {L : Ledger} {request : Addr}
    {body : Addr → Addr → IoctlProg (BitVec 32)} (hL : Clean L)
    (hcat : L.cat = some MWDD32_IOCTL_CATEGORY)
    (hbody : ∀ L parm data, Entered L parm data →
      Disciplined ERROR_NOBLOCK (Answered L) L (body parm data)) :
    Disciplined ERROR_NOBLOCK Closed L (withBuffers ERROR_NOBLOCK request body) := by
  have hdone : ∀ status, Disciplined ERROR_NOBLOCK Closed L
      (return status : IoctlProg (BitVec 32)) :=
    fun _ => disciplined_return hL.closed
  obtain ⟨hheld, hgranted, hreleased, hinits⟩ := hL
  refine disciplined_call (fun _ => trivial) fun pparm => ?_
  refine disciplined_call (fun _ => trivial) fun (rc, parm) => ?_
  refine disciplined_ite (fun _ => ?_) fun _ => hdone _
  refine disciplined_call (fun _ => trivial) fun pdata => ?_
  refine disciplined_call (fun _ => trivial) fun (rc, data) => ?_
  refine disciplined_ite (fun _ => ?_) fun _ => hdone _
  change Disciplined ERROR_NOBLOCK Closed L _
  refine disciplined_lock (fun rc lockParm hparm => ?_) fun rc _ hparm => ?_
  · refine disciplined_ite (fun _ => ?_) fun hn => absurd hparm hn
    refine disciplined_lock (fun rc lockData hdata => ?_) fun rc _ hdata => ?_
    · refine disciplined_ite (fun _ => ?_) fun hn => absurd hdata hn
      simp only [hheld, hgranted, List.nil_append, List.cons_append]
      refine disciplined_bind (hbody _ parm data ⟨⟨lockData, lockParm, rfl⟩, hcat, hinits⟩) ?_
      intro L' status ⟨hheld', hgranted', hreleased', hout, hinits'⟩
      refine disciplined_bind (unlock_disciplined hheld') ?_
      rintro _ status rfl
      refine disciplined_mono (unlock_disciplined rfl) ?_
      rintro _ rfl
      refine ⟨?_, fun _ => hout, hinits'⟩
      simp only [hgranted', hreleased', hreleased]
      rfl
    · refine disciplined_ite (fun hp => absurd hp hdata) fun _ => ?_
      refine disciplined_mono (unlock_disciplined rfl) ?_
      rintro _ rfl
      refine ⟨?_, fun htwo => ?_, hinits.le.trans (Nat.zero_le 1)⟩
      · simp only [hgranted, hreleased]
        rfl
      · simp [hgranted] at htwo
  · exact disciplined_ite (fun hp => absurd hp hparm) fun _ => hdone _

theorem dispatch_disciplined {L : Ledger} {request : Addr} (hL : Clean L) :
    Disciplined ERROR_NOBLOCK Closed L (dispatch ERROR_NOBLOCK request) := by
  have hclean : ∀ cat, Clean { L with cat := cat } := fun _ =>
    ⟨hL.held, hL.granted, hL.released, hL.inits⟩
  refine disciplined_call (fun _ => trivial) fun (cat : BitVec 32) => ?_
  change Disciplined ERROR_NOBLOCK Closed { L with cat := some cat } _
  refine disciplined_ite (fun hcat => ?_) fun _ => disciplined_return (hclean _).closed
  refine disciplined_call (fun _ => trivial) fun (func : BitVec 32) => ?_
  change Disciplined ERROR_NOBLOCK Closed { L with cat := some cat } _
  have hcat' : some cat = some MWDD32_IOCTL_CATEGORY := congrArg some hcat
  refine disciplined_ite (fun _ => ?_) fun _ => disciplined_ite (fun _ => ?_) fun _ => ?_
  · exact withBuffers_disciplined (hclean _) hcat' fun _ _ _ => initFsd_disciplined
  · exact withBuffers_disciplined (hclean _) hcat' fun _ _ _ => initDevice_disciplined
  · exact disciplined_return (hclean _).closed

theorem mwdd32Ioctl_disciplined (reqpkt : PTR16) :
    Disciplined ERROR_NOBLOCK Closed .empty (mwdd32Ioctl ERROR_NOBLOCK reqpkt) := by
  have hempty : Clean .empty := ⟨rfl, rfl, rfl, rfl⟩
  refine disciplined_call (fun _ => trivial) fun (rc, request) => ?_
  refine disciplined_ite (fun _ => ?_) fun _ => disciplined_return hempty.closed
  exact disciplined_bind (dispatch_disciplined hempty) fun _ _ hL => disciplined_return hL

/-- **Lock discipline and callback gating.** For every request packet and every behaviour of the
    services and the client's routine. -/
theorem ioctl_discipline (reqpkt : PTR16) {tr : List IoctlEvent} {status : BitVec 32}
    (h : Runs Env.any () (mwdd32Ioctl ERROR_NOBLOCK reqpkt) tr status ()) :
    Always (fun pre e => Allowed (ledger ERROR_NOBLOCK pre) e) tr ∧
    Closed (ledger ERROR_NOBLOCK tr) :=
  (mwdd32Ioctl_disciplined reqpkt [] rfl).sound h

/-- Services that succeed, and a packet for `MWDD32_IOCTL_FUNCTION_INIT_DEVICE`. -/
def sampleAnswer : (op : IoctlOp) → op.Res
  | .virtToLin p => (0#32, p)
  | .load .request _ 13 _ => 0xF0#32
  | .load .request _ 14 _ => 0x42#32
  | .load .request _ 15 _ => 0x1000#32
  | .load .request _ 19 _ => 0x2000#32
  | .load .parm _ _ _ => MAGIC_IN
  | .load _ _ off _ => BitVec.ofNat 32 off
  | .store _ _ _ _ _ => ()
  | .vmLock _ p _ => (0#32, p.setWidth 96)
  | .vmUnlock _ => 0#32
  | .exportDevhelp32 _ _ => 0#16
  | .callInit _ _ => 0x100#32

/-- A run that locks both buffers, calls the client's routine and releases the locks. -/
theorem ioctl_sample :
    let tr := ((mwdd32Ioctl 1 0x500).answer sampleAnswer).1
    Always (fun pre e => Allowed (ledger 1 pre) e) tr ∧ Closed (ledger 1 tr) ∧
    (ledger 1 tr).inits = 1 ∧ (ledger 1 tr).released = [0x2000, 0x1000] := by
  obtain ⟨hallowed, hclosed⟩ := @ioctl_discipline 1 0x500 _ _
    (Runs.answer (f := sampleAnswer) (fun _ => trivial) (mwdd32Ioctl 1 0x500))
  exact ⟨hallowed, hclosed, by decide, by decide⟩

end Mwdd32.Server
