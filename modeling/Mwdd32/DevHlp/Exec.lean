import Mwdd32.DevHlp.Wrappers

/-!
# Execution of the DevHlp32 wrappers

What each wrapper does between its first instruction and its return, on a
machine with a 32-bit stack, when the kernel keeps EBP, the segment registers
and the wrapper's frame.

* `Spec`: the registers at the kernel call, and at the return the result, the
  stores, the stack pointer and the saved registers.
* `wrapper_spec`: every wrapper meets it.
-/

namespace Mwdd32.DevHlp

open ByteMem Interaction I386 Opnd Reg

variable (base : BitVec 16 → Addr) (ra : BitVec 32) (devHlp : Numbers)

/-- A wrapper from its first instruction to its return. -/
def Wrapper.exec (w : Wrapper) (c : Cpu) : Prog (Wrapper × Cpu) (fun _ => Cpu) (Option Cpu) :=
  run (.stack32 base ra) (w.code devHlp) 40 (w.code devHlp) c

/-- The dword arguments in the frame of `c`, and the return address below them. -/
def frameArgs (c : Cpu) (i : ℕ) : BitVec 32 := arg (.stack32 base ra) c i

/-- The return address on top of the stack -/
def frameRet (c : Cpu) : BitVec 32 := c.top (.stack32 base ra) 4

/-- `eax` at the return, when the kernel returned with the carry flag `cf` and `eax`. -/
def Wrapper.rc (args : ℕ → BitVec 32) (cf : Bool) (eax : BitVec 32) : Wrapper → BitVec 32
  | .vmLock | .vmUnlock | .vmAlloc | .virtToLin | .getDosVar | .linToPageList
  | .allocOneGDTSelector | .freeGDTSelector | .attachToDD => if cf then eax else NO_ERROR
  | .pageListToLin =>
    if cf then eax else if args 2 = 0 then ERROR_INVALID_PARAMETER else NO_ERROR
  | .verifyAccess | .openEventSem | .closeEventSem | .postEventSem | .resetEventSem =>
    if cf then eax &&& 0xFFFF else NO_ERROR
  | .setIRQ => if cf then low eax else NO_ERROR
  | .unSetIRQ | .security => NO_ERROR
  | .procBlock => eax &&& 0xFF
  | .procRun => eax

/-- Where the code stores to when the carry flag is clear. -/
def Wrapper.stored (c : Cpu) : Wrapper → List Addr
  | .vmLock => [base (c.sreg .ds) + frameArgs base ra c 5]
  | .vmAlloc => [base (c.sreg .ds) + frameArgs base ra c 3]
  | .virtToLin => [base (c.sreg .ds) + frameArgs base ra c 1]
  | .getDosVar => [base (c.sreg .ds) + frameArgs base ra c 1,
      base (c.sreg .ds) + (frameArgs base ra c 1 + 2)]
  | .linToPageList =>
    if frameArgs base ra c 3 = 0 then [] else [base (c.sreg .ds) + frameArgs base ra c 3]
  | .pageListToLin =>
    if frameArgs base ra c 2 = 0 then [] else [base (c.sreg .ds) + frameArgs base ra c 2]
  | .allocOneGDTSelector => [base (c.sreg .ss) + frameArgs base ra c 0]
  | _ => []

/-- What the service of `w` called in `c1` stores on behalf of the wrapper: the
    device table at `ds:edi`, the post count at `ds:edi`. -/
def Wrapper.fills (c1 : Cpu) : Wrapper → List Addr
  | .attachToDD | .resetEventSem => [base (c1.sreg .ds) + c1.reg .edi]
  | _ => []

/-- The same addresses in terms of the state `c` at the first instruction. -/
def Wrapper.filled (c : Cpu) : Wrapper → List Addr
  | .attachToDD => [base (c.sreg .ss) + c.reg .edx]
  | .resetEventSem => [base (c.sreg .ds) + frameArgs base ra c 0]
  | _ => []

/-- The stack bytes from the wrapper's saved registers up to its return address
    hold no byte of what its pointer argument `p` points to. -/
def Outside (w : Wrapper) (c : Cpu) (p : BitVec 32) : Prop :=
  Apart (base (c.sreg .ss) + (c.reg .esp + -BitVec.ofNat 32 (4 * (saved (w.code devHlp)).length)))
    (4 * (saved (w.code devHlp)).length + 4) (base (c.sreg .ds) + p) 4

/-- The pointer arguments that the wrappers store a dword through, in `ds`. -/
def Wrapper.outPtr (args : ℕ → BitVec 32) : Wrapper → Option (BitVec 32)
  | .vmLock => some (args 5)
  | .vmAlloc | .linToPageList => some (args 3)
  | .virtToLin | .getDosVar | .resetEventSem => some (args 1)
  | .pageListToLin => some (args 2)
  | _ => none

/-- The wrapper entered in `c` called the kernel, got `c2` back and returned in `u`. -/
@[mk_iff] structure Outcome (w : Wrapper) (c c2 u : Cpu) : Prop where
  rc : u.reg .eax = w.rc (frameArgs base ra c) c2.cf (c2.reg .eax)
  stores : u.stores = c2.stores ++ if c2.cf then [] else w.stored base ra c
  esp : u.reg .esp = c.reg .esp + 4
  restored : w ≠ .allocOneGDTSelector →
    (∀ p ∈ w.outPtr (frameArgs base ra c), Outside base devHlp w c p) →
    u.eip = frameRet base ra c ∧
    ∀ o ∈ saved (w.code devHlp), u.get (.stack32 base ra) o = c.get (.stack32 base ra) o

/-- The kernel keeps the frame of the wrapper that calls it. -/
def keepsFrame : Env Unit (Wrapper × Cpu) (fun _ => Cpu) :=
  fun _ op c2 _ => Returns (.stack32 base ra) 4 [.ds, .ss] (op.1.slots devHlp) op.2 c2

/-- What a run of the wrapper `w` from `c` does: one call of the kernel with the arguments in their
    registers, then the return that `Outcome` describes. -/
def Spec (w : Wrapper) (c : Cpu) : Prop :=
  Wp (keepsFrame base ra devHlp)
    (fun tr e => tr = [] ∧ e.1.1 = w ∧ e.1.2.stores = c.stores ∧
      w.fills base e.1.2 = w.filled base ra c ∧
      ∀ p ∈ w.loaded (frameArgs base ra c) (frameRet base ra c),
        e.1.2.get (.stack32 base ra) p.1 = p.2)
    (fun tr r _ => ∃ c1 c2 u, tr = [⟨(w, c1), c2⟩] ∧ r = some u ∧ Outcome base ra devHlp w c c2 u)
    [] () (w.exec base ra devHlp c)

variable {base ra devHlp}

attribute [local simp] Wrapper.slots Wrapper.code Wrapper.arity Wrapper.loaded Wrapper.declared
  Wrapper.rc Wrapper.stored Wrapper.fills Wrapper.filled Wrapper.outPtr saved frameArgs frameRet
    Outside outcome_iff
  devHlp32VMLock devHlp32VMUnlock devHlp32VMAlloc devHlp32VirtToLin devHlp32GetDosVar
  devHlp32LinToPageList devHlp32PageListToLin devHlp32ProcBlock devHlp32ProcRun
  devHlp32VerifyAccess devHlp32SetIRQ devHlp32UnSetIRQ devHlp32Security eventSemCall
  devHlp32OpenEventSem devHlp32CloseEventSem devHlp32PostEventSem devHlp32ResetEventSem
  devHlp32AllocOneGDTSelector devHlp32FreeGDTSelector devHlp32AttachToDD
  NO_ERROR BitVec.add_assoc Function.update_apply

/-- The wrappers that store a result through a pointer they do not check. -/
theorem storing_spec {w : Wrapper} (hw : w ∈ [.vmLock, .vmAlloc, .virtToLin, .getDosVar])
    (c : Cpu) : Spec base ra devHlp w c := by
  simp only [List.mem_cons, List.not_mem_nil, or_false] at hw
  rcases hw with rfl | rfl | rfl | rfl
  all_goals
    intro c2 _ hk
    obtain ⟨hesp, hebp, hsreg, hmem⟩ := hk
    simp at hesp hebp hsreg hmem
    refine ⟨by simp, ?_⟩
    cases hcf : c2.cf
    · simp [hcf, hesp, hebp, hsreg, hmem.read_eq]
      intro hout
      simp [hmem.read_eq, hout.of_within]
    · simp [hcf, hesp, hebp, hsreg, hmem.read_eq]

/-- Those that store nothing through a null pointer. -/
theorem nullable_spec {w : Wrapper} (hw : w ∈ [.linToPageList, .pageListToLin])
    (c : Cpu) : Spec base ra devHlp w c := by
  simp only [List.mem_cons, List.not_mem_nil, or_false] at hw
  rcases hw with rfl | rfl
  all_goals
    intro c2 _ hk
    obtain ⟨hesp, hebp, hsreg, hmem⟩ := hk
    simp at hesp hebp hsreg hmem
    refine ⟨by simp, ?_⟩
    cases hcf : c2.cf
    · simp [hcf, hesp, hebp, hsreg, hmem.read_eq]
      split_ifs with hp
      · simp [hp, hcf]
      · simp [hcf]
        intro hout
        simp [hmem.read_eq, hout.of_within]
    · simp [hcf, hesp, hebp, hsreg, hmem.read_eq]

/-- Those that leave it to the kernel to store what there is to store. -/
theorem storeless_spec {w : Wrapper} (hw : w ∈ [.vmUnlock, .verifyAccess, .setIRQ, .openEventSem,
    .closeEventSem, .postEventSem, .resetEventSem, .freeGDTSelector, .attachToDD])
    (c : Cpu) : Spec base ra devHlp w c := by
  simp only [List.mem_cons, List.not_mem_nil, or_false] at hw
  rcases hw with rfl | rfl | rfl | rfl | rfl | rfl | rfl | rfl | rfl
  all_goals
    intro c2 _ hk
    obtain ⟨hesp, hebp, hsreg, hmem⟩ := hk
    simp at hesp hebp hsreg hmem
    refine ⟨by simp, ?_⟩
    cases hcf : c2.cf
    · simp [hcf, hesp, hebp, hsreg, hmem.read_eq]
    · simp [hcf, hesp, hebp, hsreg, hmem.read_eq]

/-- Those that do not look at the carry flag. -/
theorem carryless_spec {w : Wrapper} (hw : w ∈ [.procBlock, .procRun, .unSetIRQ, .security])
    (c : Cpu) : Spec base ra devHlp w c := by
  simp only [List.mem_cons, List.not_mem_nil, or_false] at hw
  rcases hw with rfl | rfl | rfl | rfl
  all_goals
    intro c2 _ hk
    obtain ⟨hesp, hebp, hsreg, hmem⟩ := hk
    simp at hesp hebp hsreg hmem
    refine ⟨by simp, ?_⟩
    simp [hesp, hebp, hsreg, hmem.read_eq]

theorem allocOneGDTSelector_spec (c : Cpu) : Spec base ra devHlp .allocOneGDTSelector c := by
  intro c2 _ hk
  obtain ⟨hesp, hebp, hsreg, hmem⟩ := hk
  simp at hesp hebp hsreg hmem
  obtain ⟨-, hhigh⟩ := hmem
  refine ⟨by simp, ?_⟩
  cases hcf : c2.cf
  · simp [hcf, hesp, hebp, hsreg, hhigh.read_eq]
  · simp [hcf, hesp, hebp, hsreg, hhigh.read_eq]

/-- **Every wrapper meets its specification.** -/
theorem wrapper_spec (w : Wrapper) (c : Cpu) : Spec base ra devHlp w c := by
  cases w
  case allocOneGDTSelector => exact allocOneGDTSelector_spec c
  case vmLock | vmAlloc | virtToLin | getDosVar => exact storing_spec (by simp) c
  case linToPageList | pageListToLin => exact nullable_spec (by simp) c
  case procBlock | procRun | unSetIRQ | security => exact carryless_spec (by simp) c
  all_goals exact storeless_spec (by simp) c

/-- What a whole run of a wrapper does. -/
theorem exec_runs {w : Wrapper} {c : Cpu} {tr : List (Event (Wrapper × Cpu) fun _ => Cpu)}
    {r : Option Cpu} (h : Runs (keepsFrame base ra devHlp) () (w.exec base ra devHlp c) tr r ()) :
    ∃ c1 c2 u, tr = [⟨(w, c1), c2⟩] ∧ r = some u ∧ c1.stores = c.stores ∧
      w.fills base c1 = w.filled base ra c ∧
      (∀ p ∈ w.loaded (frameArgs base ra c) (frameRet base ra c),
        c1.get (.stack32 base ra) p.1 = p.2) ∧
      Outcome base ra devHlp w c c2 u := by
  obtain ⟨hcalls, c1, c2, u, htr, hr, ho⟩ := (wrapper_spec w c).sound h
  obtain ⟨-, -, hstores, hfills, hload⟩ := hcalls [] ⟨(w, c1), c2⟩ [] htr
  exact ⟨c1, c2, u, htr, hr, hstores, hfills, hload, ho⟩

end Mwdd32.DevHlp
