import Mwdd32.DevHlp.Marshal

/-!
# Error propagation of the DevHlp32 wrappers

What the wrappers report of the carry flag that the kernel returns.

* `reports_iff`: a wrapper returns `NO_ERROR` exactly when the carry flag was clear,
  and the output it promises is stored exactly then, except that
  `DevHlp32_UnSetIRQ` drops every error and `DevHlp32_ResetEventSem` has the post count
  stored at the address `handle`. So `drv32_init_base` may claim that the IRQ was
  released when it was not.
-/

namespace Mwdd32.DevHlp

open ByteMem Interaction I386 Opnd Reg

/-- The wrappers with an error code to pass on. -/
def fallible : List Wrapper :=
  [.vmLock, .vmUnlock, .vmAlloc, .virtToLin, .getDosVar, .linToPageList, .pageListToLin,
   .verifyAccess, .openEventSem, .closeEventSem, .postEventSem, .resetEventSem, .setIRQ,
   .unSetIRQ, .allocOneGDTSelector, .freeGDTSelector, .attachToDD]

variable (base : BitVec 16 → Addr) (ra : BitVec 32) (devHlp : Numbers)

/-- The kernel keeps the frame, sets the carry flag together with a non-zero AX, and
    stores its output if it leaves the carry flag clear. -/
structure KernelCall (w : Wrapper) (c1 c2 : Cpu) : Prop where
  returns : Returns (.stack32 base ra) 4 [.ds, .ss] (w.slots devHlp) c1 c2
  error : c2.cf = true → low (c2.reg .eax) ≠ 0
  stores : c2.stores = c1.stores ++ if c2.cf then [] else w.fills base c1

/-- The kernel behind the wrappers -/
def kernel : Env Unit (Wrapper × Cpu) (fun _ => Cpu) :=
  fun _ op c2 _ => KernelCall base ra devHlp op.1 op.2 c2

/-- The output of `w` called in `c`: the objects its pointer argument points to, in
    `ss` where the argument is "STACK BASED". -/
def Wrapper.outputs (args : ℕ → BitVec 32) (c : Cpu) : Wrapper → List Addr
  | .vmLock => [base (c.sreg .ds) + args 5]
  | .vmAlloc | .linToPageList => [base (c.sreg .ds) + args 3]
  | .virtToLin | .resetEventSem => [base (c.sreg .ds) + args 1]
  | .getDosVar => [base (c.sreg .ds) + args 1, base (c.sreg .ds) + (args 1 + 2)]
  | .pageListToLin => [base (c.sreg .ds) + args 2]
  | .allocOneGDTSelector => [base (c.sreg .ss) + args 0]
  | .attachToDD => [base (c.sreg .ss) + c.reg .edx]
  | _ => []

/-- The wrapper entered in `c` got `c2` back from the kernel, returned in `u` and has
    told its caller how the kernel call went. -/
structure Reports (w : Wrapper) (args : ℕ → BitVec 32) (c c2 u : Cpu) : Prop where
  rc : u.reg .eax = NO_ERROR ↔ c2.cf = false
  stores : u.stores = c.stores ++ if c2.cf then [] else w.outputs base args c

variable {base ra devHlp}

/-- With a non-zero AX after every error, the code returned says how the kernel call
    went, except in `DevHlp32_UnSetIRQ`. -/
theorem rc_eq_iff {w : Wrapper} (hw : w ∈ fallible) {args : ℕ → BitVec 32} {cf : Bool}
    {eax : BitVec 32} (hnull : ∀ p ∈ w.outPtr args, p ≠ 0) (herr : cf = true → low eax ≠ 0) :
    (w.rc args cf eax = NO_ERROR ↔ cf = false) ↔ (w = .unSetIRQ → cf = false) := by
  cases cf with
  | false =>
    cases w
    case pageListToLin =>
      have hp : ¬ args 2 = 0#32 := hnull _ rfl
      simp [Wrapper.rc, hp]
    case procBlock | procRun | security => simp [fallible] at hw
    all_goals simp [Wrapper.rc]
  | true =>
    have hlow : ¬ low eax = 0#32 := herr rfl
    have heax : ¬ eax = 0#32 := by
      rintro rfl
      exact hlow low_zero
    cases w
    case procBlock | procRun | security => simp [fallible] at hw
    all_goals simp [Wrapper.rc, NO_ERROR, and_ffff, hlow, heax]

theorem rc_entry (w : Wrapper) (args : ℕ → BitVec 32) (retaddr : BitVec 32) (c : Cpu)
    (cf : Bool) (eax : BitVec 32) :
    w.rc (frameArgs base ra (w.entry base ra args retaddr c)) cf eax = w.rc args cf eax := by
  cases w <;> simp (disch := decide) only [Wrapper.rc, frameArgs_entry]

/-- What is stored after a successful call is the output, if `DevHlp32_ResetEventSem`
    cannot tell `handle` from `nposts`. -/
theorem stored_eq_outputs_iff {w : Wrapper} {args : ℕ → BitVec 32} {retaddr : BitVec 32} {c : Cpu}
    (hnull : ∀ p ∈ w.outPtr args, p ≠ 0) :
    w.filled base ra (w.entry base ra args retaddr c) ++
        w.stored base ra (w.entry base ra args retaddr c) =
      w.outputs base args (w.entry base ra args retaddr c) ↔
    (w = .resetEventSem → args 0 = args 1) := by
  cases w
  case linToPageList | pageListToLin =>
    have hp := hnull _ rfl
    simp (disch := decide) only [Wrapper.filled, Wrapper.stored, Wrapper.outputs, frameArgs_entry]
    rw [if_neg hp]
    simp
  all_goals
    simp (disch := decide) only [Wrapper.filled, Wrapper.stored, Wrapper.outputs, frameArgs_entry]
    simp

/-- The outcome of one run. -/
theorem reports_of_runs {w : Wrapper} (hw : w ∈ fallible) {args : ℕ → BitVec 32}
    {retaddr : BitVec 32} {c : Cpu} (hnull : ∀ p ∈ w.outPtr args, p ≠ 0)
    {tr : List (Event (Wrapper × Cpu) fun _ => Cpu)} {r : Option Cpu}
    (h : Runs (kernel base ra devHlp) ()
      (w.exec base ra devHlp (w.entry base ra args retaddr c)) tr r ()) :
    ∃ c1 c2 u, tr = [⟨(w, c1), c2⟩] ∧ r = some u ∧
      (Reports base w args (w.entry base ra args retaddr c) c2 u ↔
        (w = .unSetIRQ → c2.cf = false) ∧
        (w = .resetEventSem → c2.cf = true ∨ args 0 = args 1)) := by
  have hframe := h.mono (keepsFrame base ra devHlp) fun _ _ _ _ hk => hk.returns
  obtain ⟨c1, c2, u, rfl, rfl, hstores, hfills, -, ho⟩ := exec_runs hframe
  obtain ⟨⟨⟩, ⟨⟩, hk⟩ := h.forall_env ⟨(w, c1), c2⟩ (by simp)
  have hrc : u.reg .eax = w.rc args c2.cf (c2.reg .eax) := by
    rw [ho.rc, rc_entry]
  have hst : u.stores = (w.entry base ra args retaddr c).stores ++ if c2.cf then [] else
      w.filled base ra (w.entry base ra args retaddr c) ++
        w.stored base ra (w.entry base ra args retaddr c) := by
    rw [ho.stores, hk.stores, hstores, hfills]
    split_ifs <;> simp
  refine ⟨c1, c2, u, rfl, rfl, ⟨fun hr => ⟨?_, ?_⟩, fun ⟨hun, hre⟩ => ⟨?_, ?_⟩⟩⟩
  · rw [← rc_eq_iff hw hnull hk.error, ← hrc]
    exact hr.rc
  · rintro rfl
    cases hcf : c2.cf with
    | true => exact .inl rfl
    | false =>
      have h2 := hr.stores
      rw [hst, hcf] at h2
      exact .inr ((stored_eq_outputs_iff hnull).mp (List.append_cancel_left h2) rfl)
  · rw [hrc]
    exact (rc_eq_iff hw hnull hk.error).mpr hun
  · rw [hst]
    cases hcf : c2.cf with
    | true => rfl
    | false =>
      have h2 : w = .resetEventSem → args 0 = args 1 := fun hw =>
        (hre hw).resolve_left (by simp [hcf])
      simpa using (stored_eq_outputs_iff hnull).mpr h2

/-! ## The IRQ sample of `drv32_init_base` -/

/-- What the sample calls: a wrapper around a kernel service, and
    `DevHlp32_SaveMessage`. -/
inductive InitOp
  | service (w : Wrapper) (args : List (BitVec 32))
  | saveMessage (text : String)

/-- A kernel service returns the carry flag and `eax`. -/
def InitOp.Res : InitOp → Type
  | .service _ _ => Bool × BitVec 32
  | .saveMessage _ => Unit

/-- A call of the wrapper `w` from C: the kernel answers, and the wrapper gives its return code. -/
def callWrapper (w : Wrapper) (args : List (BitVec 32)) :
    Prog InitOp InitOp.Res (BitVec 32) :=
  .call (.service w args) fun r => .ret (w.rc (fun i => args.getD i 0) r.1 r.2)

/-- `DevHlp32_SaveMessage` with a constant text -/
def saveMessage (text : String) : Prog InitOp InitOp.Res Unit :=
  .call (.saveMessage text) fun _ => .ret ()

/-- The message for a released interrupt, as the source spells it -/
def irqReleased : String := "DRV32 : IRQ released successfuly"

/-- `skeleton/basedev/drv32_init_base.c`, lines 170–181 -/
def drv32InitBaseIrq (irqOk : Bool) (stubIrqOffset irqLevel data16Segment : BitVec 32) :
    Prog InitOp InitOp.Res Unit := do
  if irqOk then
    let rc ← callWrapper .setIRQ [stubIrqOffset, irqLevel, 0, data16Segment]
    if rc = NO_ERROR then
      saveMessage "DRV32 : IRQ requested successfuly"
      let rc ← callWrapper .unSetIRQ [irqLevel, data16Segment]
      if rc = NO_ERROR then
        saveMessage irqReleased
      else
        saveMessage "DRV32 : IRQ couldn't be released"
    else
      saveMessage "DRV32 : IRQ in use"

/-- A service that sets the carry flag returns a non-zero AX. -/
def initKernel : Env Unit InitOp InitOp.Res
  | _, .service _ _, res, _ => res.1 = true → low res.2 ≠ 0
  | _, .saveMessage _, _, _ => True

/-- The run printed that the IRQ was released. -/
def Printed (tr : List (Event InitOp InitOp.Res)) : Prop :=
  ∃ r, ⟨.saveMessage irqReleased, r⟩ ∈ tr

/-- Every call of the kernel's `UnSetIRQ` in the run returned with the carry flag clear. -/
def UnSetIRQClear (tr : List (Event InitOp InitOp.Res)) : Prop :=
  ∀ args r, ⟨.service .unSetIRQ args, r⟩ ∈ tr → r.1 = false

/-- The kernel released the IRQ in the run. -/
def Released (tr : List (Event InitOp InitOp.Res)) : Prop :=
  ∃ args r, ⟨.service .unSetIRQ args, r⟩ ∈ tr ∧ r.1 = false

theorem drv32InitBaseIrq_printed {irqOk : Bool} {offset level seg : BitVec 32}
    {tr : List (Event InitOp InitOp.Res)} {a : Unit}
    (h : Runs initKernel () (drv32InitBaseIrq irqOk offset level seg) tr a ()) :
    (Printed tr → Released tr) ↔ UnSetIRQClear tr := by
  have hwp : Wp initKernel (fun _ _ => True)
      (fun tr _ _ => (Printed tr → Released tr) ↔ UnSetIRQClear tr)
      [] () (drv32InitBaseIrq irqOk offset level seg) := by
    unfold drv32InitBaseIrq callWrapper saveMessage
    cases irqOk with
    | false => simp [Printed, UnSetIRQClear]
    | true =>
      rintro res _ -
      refine ⟨trivial, ?_⟩
      simp only [Prog.bind]
      refine wp_ite (fun _ => ?_) fun _ => ?_
      · -- `DevHlp32_UnSetIRQ` never reports an error
        simp [Wrapper.rc, Printed, Released, UnSetIRQClear]
        intro _ _ _ res _ _ done _ _
        constructor
        · rintro hp args res' rfl ⟨⟩
          obtain ⟨args, res', ⟨rfl, ⟨⟩⟩, hclear⟩ := hp done (.inr rfl)
          exact hclear
        · intro hclear _ _
          exact ⟨_, res, ⟨rfl, .rfl⟩, hclear _ res rfl .rfl⟩
      · simp [Printed, Released, UnSetIRQClear, irqReleased]
  exact (hwp.sound h).2

/-- A kernel that fails every service with code 87. -/
def failing : Env Unit (Wrapper × Cpu) (fun _ => Cpu) :=
  fun _ op c2 _ => kernel (fun _ => 0) 0 (fun _ => 0) () op c2 () ∧ c2.cf = true

theorem failing_answers (op : Wrapper × Cpu) : ∃ c2 s', failing () op c2 s' := by
  refine ⟨{ (op.2.addSp (.stack32 (fun _ => 0) 0) 4).setReg .eax 87 with cf := true }, (), ?_, rfl⟩
  refine ⟨⟨by simp, by simp, fun _ _ => rfl, fun _ _ => AgreesOn.refl _ _ _⟩, fun _ => ?_, by simp⟩
  simp only [Cpu.setReg, Function.update_self]
  decide

/-- **Error propagation.** Every run of every wrapper, called with non-null output
    pointers, ends with its kernel call reported, if and only if it is not
    `DevHlp32_UnSetIRQ` after an error, nor `DevHlp32_ResetEventSem` after a success with
    `handle` and `nposts` different. And `drv32_init_base` prints that the IRQ was released
    only if the kernel released it, if and only if no `UnSetIRQ` failed. -/
theorem reports_iff {w : Wrapper} (hw : w ∈ fallible) (args : ℕ → BitVec 32)
    (retaddr : BitVec 32) (c : Cpu) (hnull : ∀ p ∈ w.outPtr args, p ≠ 0) :
    (∀ tr r, Runs (kernel base ra devHlp) ()
        (w.exec base ra devHlp (w.entry base ra args retaddr c)) tr r () →
      ∃ c1 c2 u, tr = [⟨(w, c1), c2⟩] ∧ r = some u ∧
        (Reports base w args (w.entry base ra args retaddr c) c2 u ↔
          (w = .unSetIRQ → c2.cf = false) ∧
          (w = .resetEventSem → c2.cf = true ∨ args 0 = args 1))) ∧
    ∀ irqOk offset level seg tr a,
      Runs initKernel () (drv32InitBaseIrq irqOk offset level seg) tr a () →
      ((Printed tr → Released tr) ↔ UnSetIRQClear tr) :=
  ⟨fun _ _ h => reports_of_runs hw hnull h, fun _ _ _ _ _ _ h => drv32InitBaseIrq_printed h⟩

/-- A `DevHlp32_PostEventSem` that fails. -/
theorem reports_postEventSem_sample :
    ∃ tr r, Runs failing () (Wrapper.exec (fun _ => 0) 0 (fun _ => 0) .postEventSem
        (Wrapper.entry (fun _ => 0) 0 .postEventSem sampleArgs 0x400 sampleCpu)) tr r () ∧
      ∃ c1 c2 u, tr = [⟨(.postEventSem, c1), c2⟩] ∧ r = some u ∧
        Reports (fun _ => 0) .postEventSem sampleArgs
          (Wrapper.entry (fun _ => 0) 0 .postEventSem sampleArgs 0x400 sampleCpu) c2 u := by
  obtain ⟨tr, r, ⟨⟩, hrun⟩ := Runs.exists (E := failing) (fun _ => failing_answers)
    (Wrapper.exec (fun _ => 0) 0 (fun _ => 0) .postEventSem
      (Wrapper.entry (fun _ => 0) 0 .postEventSem sampleArgs 0x400 sampleCpu)) ()
  refine ⟨tr, r, hrun, ?_⟩
  obtain ⟨c1, c2, u, htr, hr, hiff⟩ :=
    (reports_iff (w := .postEventSem) (by decide) sampleArgs 0x400 sampleCpu
      (by simp [Wrapper.outPtr])).1 tr r
      (hrun.mono (kernel (fun _ => 0) 0 fun _ => 0) fun _ _ _ _ he => he.1)
  exact ⟨c1, c2, u, htr, hr, hiff.mpr ⟨by simp, by simp⟩⟩

/-- `DevHlp32_UnSetIRQ(0x1000, 0x2000)` returns `NO_ERROR` although the kernel returned an
    error, and `drv32_init_base` then prints that the IRQ was released. -/
theorem unSetIRQ_sample :
    (¬ ∀ tr r, Runs (kernel (fun _ => 0) 0 fun _ => 0) ()
        (Wrapper.exec (fun _ => 0) 0 (fun _ => 0) .unSetIRQ
          (Wrapper.entry (fun _ => 0) 0 .unSetIRQ sampleArgs 0x400 sampleCpu)) tr r () →
      ∃ c1 c2 u, tr = [⟨(.unSetIRQ, c1), c2⟩] ∧ r = some u ∧
        Reports (fun _ => 0) .unSetIRQ sampleArgs
          (Wrapper.entry (fun _ => 0) 0 .unSetIRQ sampleArgs 0x400 sampleCpu) c2 u) ∧
    ¬ ∀ tr a, Runs initKernel () (drv32InitBaseIrq true 0x1000 5 0x2000) tr a () →
      Printed tr → Released tr := by
  constructor
  · intro h
    obtain ⟨tr, r, ⟨⟩, hrun⟩ := Runs.exists (E := failing) (fun _ => failing_answers)
      (Wrapper.exec (fun _ => 0) 0 (fun _ => 0) .unSetIRQ
        (Wrapper.entry (fun _ => 0) 0 .unSetIRQ sampleArgs 0x400 sampleCpu)) ()
    have hk := hrun.mono (kernel (fun _ => 0) 0 fun _ => 0) fun _ _ _ _ he => he.1
    obtain ⟨c1, c2, u, rfl, rfl, hiff⟩ := reports_of_runs (w := .unSetIRQ) (by decide)
      (by simp [Wrapper.outPtr]) hk
    obtain ⟨d1, d2, v, htr, hv, hrep⟩ := h _ _ hk
    cases htr
    cases hv
    obtain ⟨⟨⟩, ⟨⟩, -, hcf⟩ := hrun.forall_env ⟨(.unSetIRQ, c1), c2⟩ (by simp)
    have hclear := (hiff.mp hrep).1 rfl
    simp only at hcf
    rw [hcf] at hclear
    cases hclear
  · intro h
    have hrun : Runs initKernel () (drv32InitBaseIrq true 0x1000 5 0x2000)
        [⟨.service .setIRQ [0x1000, 5, 0, 0x2000], (false, 0)⟩,
         ⟨.saveMessage "DRV32 : IRQ requested successfuly", ()⟩,
         ⟨.service .unSetIRQ [5, 0x2000], (true, 87)⟩,
         ⟨.saveMessage irqReleased, ()⟩] () () := by
      have hunset : initKernel () (.service .unSetIRQ [5, 0x2000]) (true, 87) () :=
        fun _ => by decide
      have hset : initKernel () (.service .setIRQ [0x1000, 5, 0, 0x2000]) (false, 0) () := by
        simp [initKernel]
      have hsave : ∀ text, initKernel () (.saveMessage text) () () := fun _ => trivial
      exact .call hset (.call (hsave _) (.call hunset (.call (hsave _) .ret)))
    have hclear := (drv32InitBaseIrq_printed hrun).mp (h _ _ hrun) [5, 0x2000] (true, 87) (by simp)
    cases hclear

end Mwdd32.DevHlp
