import Mwdd32.DevHlp.Errors
import Mwdd32.Skeleton.Options

/-!
# INIT BASE of the base drivers

`mwdd32_init_base`, `drv32_init_base` and `sec32_init_base`: a preliminary step in assembler, three
conversions of pointers, the command line, two locks and, in the SES driver, two requests to the
security helpers. The output of the request overlays the DevHelp pointer of its input.

* `tracks_virtToLin`, `tracks_lockSegments`, `tracks_security`: the rules for the calls of a driver.
* `initBase_iff`: what a failed initialisation leaves behind.
-/

namespace Mwdd32.Skeleton

open Interaction DevHlp Util

/-- `ERROR_I24_QUIET_INIT_FAIL` -/
def ERROR_I24_QUIET_INIT_FAIL : BitVec 32 := 21

/-- `VMDHL_WRITE`, `VMDHL_LONG`, `VMDHL_VERIFY` (`include/os2/devhlp32.h`) -/
def VMDHL_WRITE : BitVec 32 := 0x0008

/-- The lock is one for a long time. -/
def VMDHL_LONG : BitVec 32 := 0x0010

/-- The pages are verified. -/
def VMDHL_VERIFY : BitVec 32 := 0x0020

/-- `DHSEC_SETIMPORT`, `DHSEC_GETEXPORT`, as in the comment of `include/os2/devhlp32.h` -/
def DHSEC_SETIMPORT : BitVec 32 := 0x73ae3627

/-- The function of `DevHlp32_Security` that gives the exports -/
def DHSEC_GETEXPORT : BitVec 32 := 0x48a78df8

/-! ## Data -/

/-- What the initialisation uses of `struct reqpkt_init` (`include/os2/reqpkt32.h`): the first dword
    of the union, which is `input.devhelp` or `output.codeend` and `output.dataend`, and
    `input.initarg`. -/
structure ReqpktInit where
  first : BitVec 32
  initarg : PTR16

namespace ReqpktInit

/-- `u.output.codeend` -/
def codeend (request : ReqpktInit) : BitVec 16 := request.first.setWidth 16

/-- `u.output.dataend` -/
def dataend (request : ReqpktInit) : BitVec 16 := request.first.extractLsb' 16 16

/-- `request->codeend = v` -/
def setCodeend (request : ReqpktInit) (v : BitVec 16) : ReqpktInit :=
  { request with first := request.dataend ++ v }

/-- `request->dataend = v` -/
def setDataend (request : ReqpktInit) (v : BitVec 16) : ReqpktInit :=
  { request with first := v ++ request.codeend }

/-- Both fields of the output set. -/
def setEnds (request : ReqpktInit) (code data : BitVec 16) : ReqpktInit :=
  (request.setCodeend code).setDataend data

theorem codeend_setCodeend (request : ReqpktInit) (v : BitVec 16) :
    (request.setCodeend v).codeend = v := by
  unfold setCodeend codeend
  grind

theorem codeend_setDataend (request : ReqpktInit) (v : BitVec 16) :
    (request.setDataend v).codeend = request.codeend := by
  unfold setDataend codeend
  grind

theorem dataend_setDataend (request : ReqpktInit) (v : BitVec 16) :
    (request.setDataend v).dataend = v := by
  unfold setDataend dataend
  grind

@[simp] theorem codeend_setEnds (request : ReqpktInit) (code data : BitVec 16) :
    (request.setEnds code data).codeend = code := by
  rw [setEnds, codeend_setDataend, codeend_setCodeend]

@[simp] theorem dataend_setEnds (request : ReqpktInit) (code data : BitVec 16) :
    (request.setEnds code data).dataend = data := by
  rw [setEnds, dataend_setDataend]

end ReqpktInit

/-- The variables and addresses of a driver that its initialisation refers to. -/
structure Image where
  codeend : BitVec 16
  dataend : BitVec 16
  beginData32 : BitVec 32
  data32End : BitVec 32
  beginCode32 : BitVec 32
  code32End : BitVec 32
  banner : String
  irqLevel : BitVec 16
  stubIrqOffset : BitVec 32
  data16Segment : BitVec 32
  securityImports : BitVec 32
  securityExports : BitVec 32

/-- What is at a linear address: the `cmd_line_args` of a `ddd32_parm_list`, or a string. -/
structure Memory where
  cmdLineArgs : BitVec 32 → BitVec 16
  szParm : BitVec 32 → CStr

/-! ## Calls -/

/-- What an `init_base` calls -/
inductive BaseOp
  | preInit (reqpkt : PTR16)
  | init (op : InitOp)

/-- The assembler routine returns an error code. -/
def BaseOp.Res : BaseOp → Type
  | .preInit _ => BitVec 32
  | .init op => op.Res

/-- A routine that makes these calls -/
abbrev BaseProg := Prog BaseOp BaseOp.Res

/-- A call and its answer -/
abbrev BaseEvent := Event BaseOp BaseOp.Res

/-- The part behind the pre-init step -/
def ofInit {α : Type} : Prog InitOp InitOp.Res α → BaseProg α
  | .ret a => .ret a
  | .call op k => .call (.init op) fun r => ofInit (k r)

/-- The pre-init step of a driver: its return code -/
def preInit (reqpkt : PTR16) : BaseProg (BitVec 32) := .call (.preInit reqpkt) .ret

/-- The flat addresses of locals, which the wrappers store results in, are left out of the
    arguments here and below. -/
def virtToLin (virt : PTR16) : BaseProg (BitVec 32 × BitVec 32) :=
  .call (.init (.service .virtToLin [virt])) fun r =>
    .ret (Wrapper.rc (fun _ => virt) r.1 r.2 .virtToLin, r.2)

/-- The lock of DGROUP. -/
def lockData (img : Image) : List (BitVec 32) :=
  [VMDHL_LONG ||| VMDHL_WRITE ||| VMDHL_VERIFY, img.beginData32,
    img.data32End - img.beginData32, -1]

/-- The lock of CODE32. -/
def lockCode (img : Image) : List (BitVec 32) :=
  [VMDHL_LONG ||| VMDHL_VERIFY, img.beginCode32, img.code32End - img.beginCode32, -1]

/-- `LockSegments`, which the drivers have a copy of each. -/
def lockSegments (img : Image) : BaseProg (BitVec 32) := do
  let rc ← ofInit (callWrapper .vmLock (lockData img))
  if rc = NO_ERROR then ofInit (callWrapper .vmLock (lockCode img))
  else return rc

/-! ## The drivers -/

variable (img : Image) (mem : Memory) (securityRc : Bool → BitVec 32 → BitVec 32)

/-- The pointer to the command line, in the segment of `initarg`. -/
def cmdLine (initarg : PTR16) (ofs : BitVec 16) : PTR16 := initarg.extractLsb' 16 16 ++ ofs

/-- The error status of every failure. -/
def initFail : BitVec 32 := STERR + ERROR_I24_QUIET_INIT_FAIL ||| STDON

/-- The bound of the option loop, which has a result then. -/
def fuel (szParm : CStr) : ℕ := szParm.bytes.length + 1

/-- `mwdd32/mwdd32_init_base.c`, lines 126–213 -/
def mwdd32InitBase (reqpkt : PTR16) (request : ReqpktInit) : BaseProg (BitVec 32 × ReqpktInit) := do
  let rc ← preInit reqpkt
  if rc = NO_ERROR then
    let (rc, _) ← virtToLin reqpkt
    if rc = NO_ERROR then
      let (rc, cmd) ← virtToLin request.initarg
      if rc = NO_ERROR then
        let (rc, szParm) ← virtToLin (cmdLine request.initarg (mem.cmdLineArgs cmd))
        if rc = NO_ERROR then
          let quiet := mwdd32InitBaseOptions (fuel (mem.szParm szParm)) (mem.szParm szParm).buf
          let rc ← lockSegments img
          if rc = NO_ERROR then
            if quiet = some false then ofInit (saveMessage img.banner)
            return (STDON, request.setEnds img.codeend img.dataend)
          else return (initFail, request)
        else return (initFail, request)
      else return (initFail, request)
    else return (initFail, request)
  else return (initFail, request)

/-- `skeleton/basedev/drv32_init_base.c`, lines 108–219 -/
def drv32InitBase (reqpkt : PTR16) (request : ReqpktInit) : BaseProg (BitVec 32 × ReqpktInit) := do
  let rc ← preInit reqpkt
  if rc = NO_ERROR then
    let (rc, _) ← virtToLin reqpkt
    if rc = NO_ERROR then
      let request := request.setEnds 0 0
      let (rc, cmd) ← virtToLin request.initarg
      if rc = NO_ERROR then
        let (rc, szParm) ← virtToLin (cmdLine request.initarg (mem.cmdLineArgs cmd))
        if rc = NO_ERROR then
          let options := drv32InitBaseOptions (fuel (mem.szParm szParm)) img.irqLevel
            (mem.szParm szParm).buf
          ofInit (drv32InitBaseIrq (options.any Options.irqOk) img.stubIrqOffset
            ((options.elim 0 Options.irqLevel).setWidth 32) img.data16Segment)
          let rc ← lockSegments img
          if rc = NO_ERROR then
            if options.any (!Options.quiet ·) then ofInit (saveMessage img.banner)
            return (STDON, request.setEnds img.codeend img.dataend)
          else return (initFail, request)
        else return (initFail, request)
      else return (initFail, request)
    else return (initFail, request)
  else return (initFail, request)

/-- `DevHlp32_Security`, whose result for the carry flag and EAX of the kernel is `securityRc`. -/
def callSecurity (func ptr : BitVec 32) : BaseProg (BitVec 32) :=
  .call (.init (.service .security [func, ptr])) fun r => .ret (securityRc r.1 r.2)

/-- `skeleton/ses/sec32_pre_init_base.asm`, lines 90–143: the DevHelp pointer is cleared first. -/
def sec32PreInitBase (reqpkt : PTR16) (request : ReqpktInit) :
    BaseProg (BitVec 32 × ReqpktInit) := do
  let request := request.setEnds 0 0
  let rc ← preInit reqpkt
  return (rc, request)

/-- `skeleton/ses/sec32_init_base.c`, lines 118–221 -/
def sec32InitBase (reqpkt : PTR16) (request : ReqpktInit) : BaseProg (BitVec 32 × ReqpktInit) := do
  let (rc, request) ← sec32PreInitBase reqpkt request
  if rc = NO_ERROR then
    let (rc, _) ← virtToLin reqpkt
    if rc = NO_ERROR then
      let (rc, cmd) ← virtToLin request.initarg
      if rc = NO_ERROR then
        let (rc, szParm) ← virtToLin (cmdLine request.initarg (mem.cmdLineArgs cmd))
        if rc = NO_ERROR then
          let quiet := sec32InitBaseOptions (fuel (mem.szParm szParm)) (mem.szParm szParm).buf
          let rc ← lockSegments img
          if rc = NO_ERROR then
            let rc ← callSecurity securityRc DHSEC_SETIMPORT img.securityImports
            if rc = NO_ERROR then
              let rc ← callSecurity securityRc DHSEC_GETEXPORT img.securityExports
              if rc = NO_ERROR then
                if quiet = some false then ofInit (saveMessage img.banner)
                return (STDON, request.setEnds img.codeend img.dataend)
              else return (initFail, request)
            else return (initFail, request)
          else return (initFail, request)
        else return (initFail, request)
      else return (initFail, request)
    else return (initFail, request)
  else return (initFail, request)

/-- The drivers with an `init_base` -/
inductive BaseDriver
  | mwdd32 | drv32 | sec32

/-- The `init_base` of each driver -/
def BaseDriver.initBase : BaseDriver → PTR16 → ReqpktInit → BaseProg (BitVec 32 × ReqpktInit)
  | .mwdd32 => mwdd32InitBase img mem
  | .drv32 => drv32InitBase img mem
  | .sec32 => sec32InitBase img mem securityRc

/-! ## Failures and locks -/

/-- A failure of the preliminary step, a conversion, a lock or a security request. -/
def fails : BaseEvent → Bool
  | ⟨.preInit _, (rc : BitVec 32)⟩ => decide (rc ≠ NO_ERROR)
  | ⟨.init (.service .virtToLin _), (cf, _)⟩ => cf
  | ⟨.init (.service .vmLock _), (cf, _)⟩ => cf
  | ⟨.init (.service .security _), (cf, eax)⟩ => decide (securityRc cf eax ≠ NO_ERROR)
  | _ => false

/-- A packet address that is converted -/
def converts : BaseEvent → Bool
  | ⟨.init (.service .virtToLin _), (cf, _)⟩ => !cf
  | _ => false

/-- A lock that is granted -/
def locks : BaseEvent → Bool
  | ⟨.init (.service .vmLock _), (cf, _)⟩ => !cf
  | _ => false

/-- An unlock that succeeds -/
def unlocks : BaseEvent → Bool
  | ⟨.init (.service .vmUnlock _), (cf, _)⟩ => !cf
  | _ => false

/-- The services set a non-zero AX with the carry flag, and the preliminary step returns
    anything. -/
def baseKernel : Env Unit BaseOp BaseOp.Res
  | _, .preInit _, _, _ => True
  | _, .init op, r, _ => initKernel () op r ()

/-- An error leaves no ends in the request and no lock held, and a success has the ends of the
    driver. -/
structure LeavesNothing (tr : List BaseEvent) (status : BitVec 32) (request : ReqpktInit) :
    Prop where
  error : status &&& STERR ≠ 0 →
    request.codeend = 0 ∧ request.dataend = 0 ∧ tr.countP locks ≤ tr.countP unlocks
  success : status &&& STERR = 0 → request.codeend = img.codeend ∧ request.dataend = img.dataend

/-- What has happened in a run. -/
structure Log where
  failed : Bool
  converted : Bool
  locked : ℕ
  unlocked : ℕ

/-- What one call adds to the log -/
def Log.step (L : Log) (e : BaseEvent) : Log :=
  ⟨L.failed || fails securityRc e, L.converted || converts e,
    L.locked + if locks e then 1 else 0, L.unlocked + if unlocks e then 1 else 0⟩

/-- Before the first call -/
def Log.none : Log := ⟨false, false, 0, 0⟩

theorem foldl_log (tr : List BaseEvent) (L : Log) :
    tr.foldl (Log.step securityRc) L = ⟨L.failed || tr.any (fails securityRc),
      L.converted || tr.any converts, L.locked + tr.countP locks,
        L.unlocked + tr.countP unlocks⟩ := by
  induction tr generalizing L with
  | nil => simp
  | cons e tr ih =>
    rw [List.foldl_cons, ih]
    simp only [Log.step, List.any_cons, List.countP_cons, Bool.or_assoc, Nat.add_assoc]
    simp only [Nat.add_comm]

section Rules

variable {securityRc} {S : Type*} {step : S → BaseEvent → S} {α β : Type} {Q : S → α → Unit → Prop}
  {L : S}

theorem tracks_pos {p q : BaseProg α} (hp : Tracks baseKernel step Q L () p) :
    Tracks baseKernel step Q L () (if NO_ERROR = NO_ERROR then p else q) :=
  tracks_ite (fun _ => hp) fun h => absurd rfl h

/-- A driver returns when a call fails. -/
theorem tracks_neg {rc : BitVec 32} {p : BaseProg α} {a : α} (hrc : rc ≠ NO_ERROR) (ha : Q L a ()) :
    Tracks baseKernel step Q L () (if rc = NO_ERROR then p else return a) :=
  tracks_ite (fun h => absurd h hrc) fun _ => ha

theorem tracks_preInit {reqpkt : PTR16} {k : BitVec 32 → BaseProg α}
    (hok : Tracks baseKernel step Q (step L ⟨.preInit reqpkt, (NO_ERROR : BitVec 32)⟩) ()
      (k NO_ERROR))
    (hfail : ∀ rc : BitVec 32, rc ≠ NO_ERROR →
      Tracks baseKernel step Q (step L ⟨.preInit reqpkt, rc⟩) () (k rc)) :
    Tracks baseKernel step Q L () (preInit reqpkt >>= k) := by
  rintro (rc : BitVec 32) ⟨⟩ -
  by_cases hrc : rc = NO_ERROR
  · rw [hrc]
    exact hok
  · exact hfail rc hrc

/-- A wrapper that returns the error of the kernel when the carry flag is set, and `NO_ERROR` when
    it is clear. -/
theorem tracks_service {w : Wrapper} {args : List (BitVec 32)} {rc : Bool × BitVec 32 → β}
    {k : β → BaseProg α}
    (hok : ∀ eax, Tracks baseKernel step Q (step L ⟨.init (.service w args), false, eax⟩) ()
      (k (rc (false, eax))))
    (hfail : ∀ eax, eax ≠ NO_ERROR →
      Tracks baseKernel step Q (step L ⟨.init (.service w args), true, eax⟩) ()
        (k (rc (true, eax)))) :
    Tracks baseKernel step Q L ()
      (.call (.init (.service w args)) fun r => (.ret (rc r) : BaseProg β) >>= k) := by
  rintro ⟨cf, eax⟩ ⟨⟩ hr
  cases cf with
  | false => exact hok eax
  | true =>
    refine hfail eax ?_
    rintro rfl
    exact hr rfl rfl

theorem tracks_virtToLin {virt : PTR16} {k : BitVec 32 × BitVec 32 → BaseProg α}
    (hok : ∀ lin, Tracks baseKernel step Q (step L ⟨.init (.service .virtToLin [virt]), false, lin⟩)
      () (k (NO_ERROR, lin)))
    (hfail : ∀ eax, eax ≠ NO_ERROR →
      Tracks baseKernel step Q (step L ⟨.init (.service .virtToLin [virt]), true, eax⟩) ()
        (k (eax, eax))) :
    Tracks baseKernel step Q L () (virtToLin virt >>= k) :=
  tracks_service hok hfail

theorem tracks_vmLock {args : List (BitVec 32)} {k : BitVec 32 → BaseProg α}
    (hok : ∀ eax, Tracks baseKernel step Q (step L ⟨.init (.service .vmLock args), false, eax⟩) ()
      (k NO_ERROR))
    (hfail : ∀ eax, eax ≠ NO_ERROR →
      Tracks baseKernel step Q (step L ⟨.init (.service .vmLock args), true, eax⟩) () (k eax)) :
    Tracks baseKernel step Q L () (ofInit (callWrapper .vmLock args) >>= k) :=
  tracks_service hok hfail

theorem tracks_security {func ptr : BitVec 32} {k : BitVec 32 → BaseProg α}
    (hok : ∀ cf eax, securityRc cf eax = NO_ERROR → Tracks baseKernel step Q
      (step L ⟨.init (.service .security [func, ptr]), cf, eax⟩) () (k NO_ERROR))
    (hfail : ∀ cf eax, securityRc cf eax ≠ NO_ERROR → Tracks baseKernel step Q
      (step L ⟨.init (.service .security [func, ptr]), cf, eax⟩) () (k (securityRc cf eax))) :
    Tracks baseKernel step Q L () (callSecurity securityRc func ptr >>= k) := by
  rintro ⟨cf, eax⟩ ⟨⟩ -
  show Tracks _ _ Q _ () (k (securityRc cf eax))
  by_cases hrc : securityRc cf eax = NO_ERROR
  · rw [hrc]
    exact hok cf eax hrc
  · exact hfail cf eax hrc

/-- Both locks are granted, or one of them fails. -/
theorem tracks_lockSegments {k : BitVec 32 → BaseProg α}
    (hok : ∀ eax eax', Tracks baseKernel step Q
      (step (step L ⟨.init (.service .vmLock (lockData img)), false, eax⟩)
        ⟨.init (.service .vmLock (lockCode img)), false, eax'⟩) () (k NO_ERROR))
    (hdata : ∀ eax, eax ≠ NO_ERROR → Tracks baseKernel step Q
      (step L ⟨.init (.service .vmLock (lockData img)), true, eax⟩) () (k eax))
    (hcode : ∀ eax eax', eax' ≠ NO_ERROR → Tracks baseKernel step Q
      (step (step L ⟨.init (.service .vmLock (lockData img)), false, eax⟩)
        ⟨.init (.service .vmLock (lockCode img)), true, eax'⟩) () (k eax')) :
    Tracks baseKernel step Q L () (lockSegments img >>= k) := by
  refine tracks_bind.mpr ?_
  refine tracks_vmLock (fun eax => tracks_pos ?_) fun eax heax => tracks_neg heax (hdata eax heax)
  exact tracks_bind.mp (tracks_vmLock (hok eax) (hcode eax))

/-- Messages and the IRQ services. -/
def silent : InitOp → Bool
  | .service .setIRQ _ | .service .unSetIRQ _ | .saveMessage _ => true
  | _ => false

/-- Silent calls may leave no trace in the summary. -/
theorem tracks_silent {p : Prog InitOp InitOp.Res β} {k : β → BaseProg α}
    {h : List (Event InitOp InitOp.Res)}
    (hp : Wp Env.any (fun _ e => silent e.1 = true) (fun _ _ _ => True) h () p)
    (hstep : ∀ (op : InitOp) (r : op.Res), silent op = true → step L ⟨.init op, r⟩ = L)
    (hk : ∀ b, Tracks baseKernel step Q L () (k b)) :
    Tracks baseKernel step Q L () (ofInit p >>= k) := by
  induction p generalizing h with
  | ret b => exact hk b
  | call op k' ih =>
    rintro (r : op.Res) ⟨⟩ -
    obtain ⟨hop, hrest⟩ := hp r () trivial
    show Tracks _ _ Q (step L ⟨.init op, r⟩) () (ofInit (k' r) >>= k)
    rw [hstep op r hop]
    exact ih r hrest

theorem silent_saveMessage (text : String) (h : List (Event InitOp InitOp.Res)) :
    Wp Env.any (fun _ e => silent e.1 = true) (fun _ _ _ => True) h () (saveMessage text) :=
  fun _ _ _ => ⟨rfl, trivial⟩

/-- A driver that succeeds prints its banner unless it is quiet. -/
theorem tracks_banner {c : Prop} [Decidable c] {text : String} {a : α}
    (hstep : ∀ (op : InitOp) (r : op.Res), silent op = true → step L ⟨.init op, r⟩ = L)
    (ha : Q L a ()) :
    Tracks baseKernel step Q L () (do
      if c then ofInit (saveMessage text)
      return a) :=
  tracks_ite (fun _ => tracks_silent (silent_saveMessage text []) hstep fun _ => ha) fun _ => ha

theorem silent_irq (irqOk : Bool) (offset level seg : BitVec 32) :
    Wp Env.any (fun _ e => silent e.1 = true) (fun _ _ _ => True)
      ([] : List (Event InitOp InitOp.Res)) ()
      (drv32InitBaseIrq irqOk offset level seg) := by
  unfold drv32InitBaseIrq
  refine wp_ite (fun _ => ?_) fun _ => trivial
  refine fun _ _ _ => ⟨rfl, wp_ite (fun _ => ?_) fun _ => silent_saveMessage _ _⟩
  refine fun _ _ _ => ⟨rfl, fun _ _ _ => ⟨rfl, ?_⟩⟩
  simp only [Prog.bind]
  exact wp_ite (fun _ => silent_saveMessage _ _) fun _ => silent_saveMessage _ _

end Rules

/-! ### The log -/

section Logs

variable {securityRc} {α : Type} {Q : Log → α → Unit → Prop} {L : Log}

theorem step_preInit (reqpkt : PTR16) (rc : BitVec 32) :
    L.step securityRc ⟨.preInit reqpkt, rc⟩ =
      { L with failed := L.failed || decide (rc ≠ NO_ERROR) } := by
  simp [Log.step, fails, converts, locks, unlocks]

theorem step_virtToLin (args : List (BitVec 32)) (cf : Bool) (eax : BitVec 32) :
    L.step securityRc ⟨.init (.service .virtToLin args), cf, eax⟩ =
      { L with failed := L.failed || cf, converted := L.converted || !cf } := by
  simp [Log.step, fails, converts, locks, unlocks]

theorem step_vmLock (args : List (BitVec 32)) (cf : Bool) (eax : BitVec 32) :
    L.step securityRc ⟨.init (.service .vmLock args), cf, eax⟩ =
      { L with failed := L.failed || cf, locked := L.locked + if cf then 0 else 1 } := by
  cases cf <;> simp [Log.step, fails, converts, locks, unlocks]

theorem step_security (args : List (BitVec 32)) (cf : Bool) (eax : BitVec 32) :
    L.step securityRc ⟨.init (.service .security args), cf, eax⟩ =
      { L with failed := L.failed || decide (securityRc cf eax ≠ NO_ERROR) } := by
  simp [Log.step, fails, converts, locks, unlocks]

theorem step_silent (op : InitOp) (r : op.Res) (hop : silent op = true) :
    L.step securityRc ⟨.init op, r⟩ = L := by
  cases op with
  | service w args =>
    cases w <;> first | contradiction | simp [Log.step, fails, converts, locks, unlocks]
  | saveMessage text => simp [Log.step, fails, converts, locks, unlocks]

end Logs

/-- What a driver has made of the request when the calls in `L` are behind it. -/
def BaseDriver.left (L : Log) (request : ReqpktInit) : BaseDriver → ReqpktInit
  | .mwdd32 => request
  | .drv32 => if L.converted then request.setEnds 0 0 else request
  | .sec32 => request.setEnds 0 0

/-- The result says whether a call failed, and nothing is unlocked. -/
structure Ends (d : BaseDriver) (request : ReqpktInit) (L : Log) (r : BitVec 32 × ReqpktInit) :
    Prop where
  unlocked : L.unlocked = 0
  result : r = if L.failed then (initFail, d.left L request)
    else (STDON, (d.left L request).setEnds img.codeend img.dataend)

/-! ## What a failure leaves -/

section Ends

variable {img securityRc} {d : BaseDriver} {request : ReqpktInit} {L : Log}

theorem ends_fail (hun : L.unlocked = 0) (hf : L.failed = true) :
    Ends img d request L (initFail, d.left L request) := by
  refine ⟨hun, ?_⟩
  rw [hf, if_pos rfl]

theorem ends_done (hun : L.unlocked = 0) (hf : L.failed = false) :
    Ends img d request L (STDON, (d.left L request).setEnds img.codeend img.dataend) := by
  refine ⟨hun, ?_⟩
  rw [hf, if_neg Bool.false_ne_true]

end Ends

theorem mwdd32InitBase_ends (reqpkt : PTR16) (request : ReqpktInit) :
    Tracks baseKernel (Log.step securityRc) (fun L r _ => Ends img .mwdd32 request L r) .none ()
      (mwdd32InitBase img mem reqpkt request) := by
  refine tracks_preInit (tracks_pos ?_) fun rc hrc => tracks_neg hrc ?_
  swap
  · exact ends_fail rfl (by simp [step_preInit, hrc])
  refine tracks_virtToLin (fun _ => tracks_pos ?_) fun rc hrc => tracks_neg hrc (ends_fail rfl rfl)
  refine tracks_virtToLin (fun cmd => tracks_pos ?_) fun rc hrc =>
    tracks_neg hrc (ends_fail rfl rfl)
  refine tracks_virtToLin (fun szParm => tracks_pos ?_) fun rc hrc =>
    tracks_neg hrc (ends_fail rfl rfl)
  refine tracks_lockSegments img (fun _ _ => tracks_pos ?_)
    (fun rc hrc => tracks_neg hrc (ends_fail rfl rfl))
    fun _ rc hrc => tracks_neg hrc (ends_fail rfl rfl)
  exact tracks_banner step_silent (ends_done rfl rfl)

theorem drv32InitBase_ends (reqpkt : PTR16) (request : ReqpktInit) :
    Tracks baseKernel (Log.step securityRc) (fun L r _ => Ends img .drv32 request L r) .none ()
      (drv32InitBase img mem reqpkt request) := by
  refine tracks_preInit (tracks_pos ?_) fun rc hrc => tracks_neg hrc ?_
  swap
  · exact ends_fail rfl (by simp [step_preInit, hrc])
  refine tracks_virtToLin (fun _ => tracks_pos ?_) fun rc hrc => tracks_neg hrc (ends_fail rfl rfl)
  refine tracks_virtToLin (fun cmd => tracks_pos ?_) fun rc hrc =>
    tracks_neg hrc (ends_fail rfl rfl)
  refine tracks_virtToLin (fun szParm => tracks_pos ?_) fun rc hrc =>
    tracks_neg hrc (ends_fail rfl rfl)
  refine tracks_silent (silent_irq ..) step_silent fun _ => ?_
  refine tracks_lockSegments img (fun _ _ => tracks_pos ?_)
    (fun rc hrc => tracks_neg hrc (ends_fail rfl rfl))
    fun _ rc hrc => tracks_neg hrc (ends_fail rfl rfl)
  exact tracks_banner step_silent (ends_done rfl rfl)

theorem sec32InitBase_ends (reqpkt : PTR16) (request : ReqpktInit) :
    Tracks baseKernel (Log.step securityRc) (fun L r _ => Ends img .sec32 request L r) .none ()
      (sec32InitBase img mem securityRc reqpkt request) := by
  refine tracks_preInit (tracks_pos ?_) fun rc hrc => tracks_neg hrc ?_
  swap
  · exact ends_fail rfl (by simp [step_preInit, hrc])
  refine tracks_virtToLin (fun _ => tracks_pos ?_) fun rc hrc => tracks_neg hrc (ends_fail rfl rfl)
  refine tracks_virtToLin (fun cmd => tracks_pos ?_) fun rc hrc =>
    tracks_neg hrc (ends_fail rfl rfl)
  refine tracks_virtToLin (fun szParm => tracks_pos ?_) fun rc hrc =>
    tracks_neg hrc (ends_fail rfl rfl)
  refine tracks_lockSegments img (fun _ _ => tracks_pos ?_)
    (fun rc hrc => tracks_neg hrc (ends_fail rfl rfl))
    fun _ rc hrc => tracks_neg hrc (ends_fail rfl rfl)
  refine tracks_security (fun cf eax hrc => tracks_pos ?_) fun cf eax hrc => tracks_neg hrc ?_
  swap
  · exact ends_fail rfl (by simp [step_security, hrc])
  refine tracks_security (fun cf' eax' hrc' => tracks_pos ?_) fun cf' eax' hrc' =>
    tracks_neg hrc' ?_
  swap
  · exact ends_fail rfl (by simp [step_security, hrc'])
  refine tracks_banner step_silent (ends_done rfl ?_)
  simp [step_preInit, step_virtToLin, step_vmLock, step_security, Log.none, hrc, hrc']

variable {img mem securityRc}

theorem initBase_ends {d : BaseDriver} {reqpkt : PTR16} {request : ReqpktInit}
    {tr : List BaseEvent} {r : BitVec 32 × ReqpktInit}
    (h : Runs baseKernel () (d.initBase img mem securityRc reqpkt request) tr r ()) :
    Ends img d request ⟨tr.any (fails securityRc), tr.any converts, tr.countP locks,
      tr.countP unlocks⟩ r := by
  have hends : Ends img d request (tr.foldl (Log.step securityRc) .none) r := by
    cases d with
    | mwdd32 => exact (mwdd32InitBase_ends img mem securityRc reqpkt request).sound h
    | drv32 => exact (drv32InitBase_ends img mem securityRc reqpkt request).sound h
    | sec32 => exact (sec32InitBase_ends img mem securityRc reqpkt request).sound h
  rw [foldl_log] at hends
  simpa [Log.none] using hends

theorem ends_zero_iff (request : ReqpktInit) :
    request.codeend = 0 ∧ request.dataend = 0 ↔ request.first = 0 := by
  unfold ReqpktInit.codeend ReqpktInit.dataend
  constructor
  · intro ⟨h1, h2⟩
    have hlo : request.first.toNat % 2 ^ 16 = 0 := by
      rw [← BitVec.toNat_setWidth, h1]
      rfl
    have hhi : request.first.toNat / 2 ^ 16 % 2 ^ 16 = 0 := by
      rw [← Nat.shiftRight_eq_div_pow, ← BitVec.extractLsb'_toNat, h2]
      rfl
    refine BitVec.eq_of_toNat_eq (?_ : request.first.toNat = 0)
    omega
  · intro h
    rw [h]
    exact ⟨rfl, rfl⟩

theorem left_zero_iff (d : BaseDriver) (L : Log) (request : ReqpktInit) :
    (d.left L request).codeend = 0 ∧ (d.left L request).dataend = 0 ↔
      d = .sec32 ∨ (d = .drv32 ∧ L.converted = true) ∨ request.first = 0 := by
  rw [ends_zero_iff]
  have hclear : (request.setEnds 0 0).first = 0 :=
    (ends_zero_iff _).mp ⟨request.codeend_setEnds 0 0, request.dataend_setEnds 0 0⟩
  cases d with
  | mwdd32 => simp [BaseDriver.left]
  | drv32 =>
    cases hc : L.converted with
    | false => simp [BaseDriver.left, hc]
    | true =>
      rw [BaseDriver.left, if_pos hc]
      exact iff_of_true hclear (.inr (.inl ⟨rfl, rfl⟩))
  | sec32 => exact iff_of_true hclear (.inl rfl)

/-- **A failed initialisation leaves nothing behind** exactly when nothing failed, or no lock was
    granted and the DevHelp pointer was cleared or null. -/
theorem initBase_iff {d : BaseDriver} {reqpkt : PTR16} {request out : ReqpktInit}
    {tr : List BaseEvent} {status : BitVec 32}
    (h : Runs baseKernel () (d.initBase img mem securityRc reqpkt request) tr (status, out) ()) :
    LeavesNothing img tr status out ↔
      tr.any (fails securityRc) = false ∨ (tr.countP locks = 0 ∧
        (d = .sec32 ∨ (d = .drv32 ∧ tr.any converts = true) ∨ request.first = 0)) := by
  obtain ⟨hun, hr⟩ := initBase_ends h
  cases hf : tr.any (fails securityRc) with
  | false =>
    simp only [hf, Bool.false_eq_true, if_false, Prod.mk.injEq] at hr
    obtain ⟨rfl, rfl⟩ := hr
    refine iff_of_true ⟨fun hs => absurd hs (by decide), fun _ => ?_⟩ (.inl rfl)
    simp
  | true =>
    simp only [hf, if_true, Prod.mk.injEq] at hr
    obtain ⟨rfl, rfl⟩ := hr
    have hiff := left_zero_iff d ⟨true, tr.any converts, tr.countP locks, tr.countP unlocks⟩ request
    constructor
    · intro hl
      obtain ⟨h1, h2, h3⟩ := hl.error (by decide)
      have hlocks : tr.countP locks = 0 := Nat.le_zero.mp (h3.trans_eq hun)
      exact .inr ⟨hlocks, hiff.mp ⟨h1, h2⟩⟩
    · rintro (hno | ⟨hlocks, hclear⟩)
      · cases hno
      · obtain ⟨h1, h2⟩ := hiff.mpr hclear
        exact ⟨fun _ => ⟨h1, h2, hlocks.trans_le (Nat.zero_le _)⟩, fun hs => absurd hs (by decide)⟩

/-! ### Samples -/

/-- An image and a memory of zeroes, with an empty command line. -/
def sampleImage : Image := ⟨0x200, 0x100, 0, 0, 0, 0, "", 0, 0, 0, 0, 0⟩

/-- A memory of zeroes, with empty command lines -/
def sampleMemory : Memory := ⟨fun _ => 0, fun _ => ⟨[], by simp⟩⟩

/-- The request of a kernel whose DevHelp routine is at `1234:5678`. -/
def sampleRequest : ReqpktInit := ⟨0x12345678, 0⟩

/-- A kernel that refuses to lock CODE32. -/
def refuseCode (w : Wrapper) (args : List (BitVec 32)) : Bool × BitVec 32 :=
  if w = .vmLock ∧ args = lockCode sampleImage then (true, 87) else (false, 0)

/-- The answers of a kernel with these services, when the preliminary step succeeds. -/
def answers (services : Wrapper → List (BitVec 32) → Bool × BitVec 32) : (op : BaseOp) → op.Res
  | .preInit _ => NO_ERROR
  | .init (.service w args) => services w args
  | .init (.saveMessage _) => ()

theorem answers_baseKernel {services : Wrapper → List (BitVec 32) → Bool × BitVec 32}
    (hs : ∀ w args, (services w args).1 = true → I386.low (services w args).2 ≠ 0) (op : BaseOp) :
    baseKernel () op (answers services op) () := by
  cases op with
  | preInit reqpkt => trivial
  | init op =>
    cases op with
    | saveMessage text => trivial
    | service w args => exact hs w args

theorem refuseCode_error (w : Wrapper) (args : List (BitVec 32)) :
    (refuseCode w args).1 = true → I386.low (refuseCode w args).2 ≠ 0 := by
  unfold refuseCode
  split_ifs
  · exact fun _ => by decide
  · exact False.elim

theorem initBase_sample : ∃ tr status out,
    Runs baseKernel () (BaseDriver.initBase sampleImage sampleMemory (fun _ _ => 0) .sec32 0
      sampleRequest) tr (status, out) () ∧ status &&& STERR ≠ 0 ∧
    LeavesNothing sampleImage tr status out := by
  have hrun : Runs baseKernel ()
    (BaseDriver.initBase sampleImage sampleMemory (fun _ _ => 0) .sec32 0
      sampleRequest) [⟨.preInit 0, (87 : BitVec 32)⟩] (initFail, sampleRequest.setEnds 0 0) () :=
    .call trivial .ret
  refine ⟨_, _, _, hrun, by decide, (initBase_iff hrun).mpr (.inr ⟨?_, .inl rfl⟩)⟩
  decide

/-- `mwdd32_init_base` leaves the DevHelp pointer in the output when the preliminary step fails, and
    `drv32_init_base` leaves DGROUP locked when the lock of CODE32 is refused. -/
theorem initBase_leaves :
    (∃ tr status out,
      Runs baseKernel () (BaseDriver.initBase sampleImage sampleMemory (fun _ _ => 0)
      .mwdd32 0 sampleRequest) tr (status, out) () ∧
      ¬ LeavesNothing sampleImage tr status out ∧ out.codeend = 0x5678) ∧
    ∃ tr status out, Runs baseKernel () (BaseDriver.initBase sampleImage sampleMemory (fun _ _ => 0)
      .drv32 0 sampleRequest) tr (status, out) () ∧
      ¬ LeavesNothing sampleImage tr status out ∧ tr.countP locks = 1 := by
  refine ⟨⟨[⟨.preInit 0, (87 : BitVec 32)⟩], initFail, sampleRequest, .call trivial .ret, ?_, rfl⟩,
    _, _, _, Runs.answer (answers_baseKernel refuseCode_error) _, ?_, by decide⟩
  · intro h
    exact absurd (h.error (by decide)).1 (by decide)
  · intro h
    exact absurd (h.error (by decide)).2.2 (by decide)

end Mwdd32.Skeleton
