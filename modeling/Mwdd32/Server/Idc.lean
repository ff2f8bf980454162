import Mwdd32.Lib.I386
import Mwdd32.Server.DevHelp32

/-!
# Inter-device calls

BASEDEV drivers get their services by a call of mwdd32's IDC entry point, with
the arguments of one of two interfaces on the stack: the old one, whose callee pops the
two arguments, and the new one, whose caller pops the five. `mwdd32_idc`
(`mwdd32/mwdd32_idc.c`) tells them apart and `thunk32$mwdd32_idc`
(`mwdd32/mwdd32_start.asm`) returns accordingly.

* `idc_spec`: every return of the entry point, for every frame.
* `attach_esp`: the drivers' call sequence leaves ESP unchanged.
-/

namespace Mwdd32.Server

open ByteMem Interaction I386

/-! ## The 32-bit entry point -/

/-- What marks a frame of the new interface -/
def NEW_INTERFACE_MAGIC : BitVec 32 := 0x61153275

/-- A new-style frame: `zero` and `magic` of `new_interface` -/
def NewInterface (m : Mem) (parms : Addr) : Prop :=
  read m parms 4 = 0 ∧ read m (parms + 4) 4 = NEW_INTERFACE_MAGIC

instance (m : Mem) (parms : Addr) : Decidable (NewInterface m parms) :=
  inferInstanceAs (Decidable (_ ∧ _))

/-- `mwdd32_idc(parms)` (`mwdd32/mwdd32_idc.c`, lines 109–134); `tkssBase` is the value of
    mwdd32's variable `TKSSBase`, the address of the kernel's stack base. -/
def mwdd32Idc (tkssBase : BitVec 32) (devHlp32 : Addr) (m : Mem) (parms : BitVec 32) :
    Mem × BitVec 32 :=
  let parms := parms + read m tkssBase 4
  if NewInterface m parms then
    let (m, rc) :=
      match read m (parms + 8) 4 with
      | 1 =>
        let (m, rc) := mwdd32ExportDevhelp32 tkssBase devHlp32 m (read m (parms + 16) 4)
          (read m (parms + 12) 4)
        (m, rc.signExtend 32)
      | _ => (m, ERROR_INVALID_PARAMETER)
    (m, rc &&& 0xFFFF)
  else
    let (m, rc) := mwdd32ExportDevhelp32 tkssBase devHlp32 m (read m parms 4) (read m (parms + 4) 4)
    (m, rc.signExtend 32 ||| 0xFFFF0000)

/-- The pointers to `TKSSBase` and `DevHelp32` in a frame, where the request has them. -/
def pointers (m : Mem) (parms : Addr) : Option (BitVec 32 × BitVec 32) :=
  if NewInterface m parms then
    if read m (parms + 8) 4 = 1 then some (read m (parms + 16) 4, read m (parms + 12) 4) else none
  else some (read m parms 4, read m (parms + 4) 4)

/-- The memory after a request and its return code. -/
def serve (tkssBase : BitVec 32) (devHlp32 : Addr) (m : Mem) (parms : Addr) : Mem × BitVec 16 :=
  match pointers m parms with
  | some (pTKSSBase, pDevHelp32) => mwdd32ExportDevhelp32 tkssBase devHlp32 m pTKSSBase pDevHelp32
  | none => (m, ERROR_INVALID_PARAMETER.setWidth 16)

/-- The return code with the interface in its high word. -/
def tagged (new : Bool) (rc : BitVec 16) : BitVec 32 :=
  if new then rc.setWidth 32 else rc.signExtend 32 ||| 0xFFFF0000

section Tagged

variable (new : Bool) (rc : BitVec 16)

theorem setWidth_signExtend : (rc.signExtend 32).setWidth 16 = rc := by
  ext i hi
  simp [BitVec.getLsbD_signExtend, hi]
  grind

theorem setWidth_and_high : rc.setWidth 32 &&& 0xFFFF0000#32 = 0#32 := by
  have h : rc.setWidth 32 = 0#16 ++ rc := by
    ext i hi
    simp
    grind
  rw [h, show 0xFFFF0000#32 = 0xFFFF#16 ++ 0#16 from rfl, BitVec.and_append]
  simp

theorem or_and_self (x y : BitVec 32) : (x ||| y) &&& y = y := by
  ext i hi
  rw [BitVec.getElem_and, BitVec.getElem_or]
  cases x[i] <;> cases y[i] <;> rfl

theorem low_tagged : low (tagged new rc) = rc.setWidth 32 := by
  cases new
  · show ((rc.signExtend 32 ||| 0xFFFF0000#32).setWidth 16).setWidth 32 = _
    rw [BitVec.setWidth_or, setWidth_signExtend]
    simp
  · show ((rc.setWidth 32).setWidth 16).setWidth 32 = _
    simp

theorem high_tagged : tagged new rc &&& 0xFFFF0000#32 = 0#32 ↔ new = true := by
  cases new
  · show (rc.signExtend 32 ||| 0xFFFF0000#32) &&& 0xFFFF0000#32 = _ ↔ _
    rw [or_and_self]
    decide
  · exact iff_of_true (setWidth_and_high rc) rfl

end Tagged

theorem mwdd32Idc_eq (tkssBase : BitVec 32) (devHlp32 : Addr) (m : Mem) (parms : BitVec 32) :
    mwdd32Idc tkssBase devHlp32 m parms =
      ((serve tkssBase devHlp32 m (parms + read m tkssBase 4)).1,
        tagged (decide (NewInterface m (parms + read m tkssBase 4)))
          (serve tkssBase devHlp32 m (parms + read m tkssBase 4)).2) := by
  unfold mwdd32Idc serve pointers tagged
  generalize parms + read m tkssBase 4 = parms
  by_cases hnew : NewInterface m parms
  · by_cases hfunc : read m (parms + 8) 4 = 1
    · simp only [hnew, hfunc, if_true, decide_true]
      refine Prod.ext rfl ((and_ffff _).trans ?_)
      exact congrArg (BitVec.setWidth 32) (setWidth_signExtend _)
    · simp only [hnew, hfunc, if_true, if_false, decide_true]
      split
      · next h => exact absurd h hfunc
      · exact Prod.ext rfl (and_ffff _)
  · simp only [hnew, if_false, decide_false]
    rfl

/-! ## The entry point -/

open Opnd Reg

/-- The labels of the 16-bit and of the 32-bit part -/
inductive Label
  | thunk16Idc1 | thunk16Idc2 | thunk32 | old
  deriving DecidableEq

/-- `mwdd32_stub_IDC` and `thunk32$mwdd32_idc` (`mwdd32/mwdd32_start.asm`, lines 129–185)
    with the selector `FLAT:DATA32` -/
def mwdd32StubIDC (flat : BitVec 16) : Code Label Unit :=
  [.jmp .thunk32,
   .label .thunk16Idc1, .ret 0,
   .label .thunk16Idc2, .ret 8,
   .label .thunk32,
   .push 4 (s .ds), .push 4 (s .es),
   .mov (r16 eax) (imm (flat.setWidth 32)), .mov (s .ds) (r16 eax), .mov (s .es) (r16 eax),
   .mov (r eax) (ea esp 12), .call 1 (),
   .pop 4 (s .es), .pop 4 (s .ds),
   .mov (r edx) (r eax), .alu .and (r edx) (imm 0xFFFF0000), .jcc .nonzero .old,
   .jmp .thunk16Idc1,
   .label .old, .jmp .thunk16Idc2]

/-- The call in `drv32_pre_init_base` (`skeleton/basedev`) and `sec32_pre_init_base`
    (`skeleton/ses`), with the offsets of the client's `TKSSBase` and `DevHelp32` -/
def preInitBase (pTKSSBase pDevHelp32 : BitVec 32) : Code Empty Unit :=
  [.push 4 (imm pTKSSBase), .push 4 (imm pDevHelp32), .push 4 (imm 1),
   .push 4 (imm NEW_INTERFACE_MAGIC), .push 4 (imm 0), .call 1 (), .alu .add (r esp) (imm 20)]

variable (base : BitVec 16 → Addr) (ra : BitVec 32) (flat : BitVec 16) (tkssBase : BitVec 32)
  (devHlp32 : Addr)

/-- The linear address of the top of the stack. -/
def stackTop (c : Cpu) : Addr := base (c.sreg .ss) + c.reg .esp

/-- The frame of a request: the bytes behind a far return address. -/
def frame (c : Cpu) : Addr := stackTop base c + 4#32

/-- The `n` bytes at `a` are used neither by a request that gives these pointers nor for the
    kernel's stack base. -/
structure Free (m : Mem) (a : Addr) (n : ℕ) (ptrs : Option (BitVec 32 × BitVec 32)) : Prop where
  kernel : Apart tkssBase 4 a n
  ptrs : ∀ p d, ptrs = some (p, d) → Unused tkssBase devHlp32 m a n p d

/-- The compiled `mwdd32_idc`, which uses `n` bytes of stack: it keeps the segment
    registers and EBP, and where DS and ES are flat and its stack is free, it does what
    its source says. -/
def idcCallee (n : ℕ) : Env Unit (Unit × Cpu) (fun _ => Cpu) := fun _ op c2 _ =>
  Returns (.stack32 base ra) 4 [.ds, .es, .ss] [] op.2 c2 ∧
  let c1 := op.2
  let parms := c1.reg .eax + read c1.mem tkssBase 4
  let scratch := stackTop base c1 - BitVec.ofNat 32 n
  let res := mwdd32Idc tkssBase devHlp32 c1.mem (c1.reg .eax)
  c1.sreg .ds = flat → c1.sreg .es = flat →
    Free tkssBase devHlp32 c1.mem scratch n (pointers c1.mem parms) →
    c2.reg .eax = res.2 ∧ AgreesOff res.1 c2.mem scratch n

/-- What a caller of the entry point sees to: the kernel's stack base is that of the
    stack, and what the request uses is not in the return address or in the `n + 12` bytes
    below it. -/
structure Ready (n : ℕ) (c : Cpu) : Prop where
  fits : 0 < n ∧ n + 16 < 2 ^ 32
  value : read c.mem tkssBase 4 = base (c.sreg .ss)
  free : Free tkssBase devHlp32 c.mem (stackTop base c - BitVec.ofNat 32 (n + 12)) (n + 16)
    (pointers c.mem (frame base c))

/-- A call of the entry point, on a stack that ESP spans -/
def idcExec (c : Cpu) : Prog (Unit × Cpu) (fun _ => Cpu) (Option Cpu) :=
  run (.stack32 base ra) (mwdd32StubIDC flat) 30 (mwdd32StubIDC flat) c

variable {base ra flat tkssBase devHlp32} {m m' : Mem} {a b parms : Addr} {n k : ℕ}
  {ptrs : Option (BitVec 32 × BitVec 32)}

theorem Free.within (h : Free tkssBase devHlp32 m a n ptrs) (hw : Within b k a n) (hk : 0 < k) :
    Free tkssBase devHlp32 m b k ptrs :=
  ⟨h.kernel.right_within hw hk, fun p d hq => (h.ptrs p d hq).within hw hk⟩

theorem Free.congr (h : Free tkssBase devHlp32 m a n ptrs) (hm : AgreesOff m m' a n) :
    Free tkssBase devHlp32 m' a n ptrs :=
  ⟨h.kernel, fun p d hq => (h.ptrs p d hq).congr hm⟩

/-- A frame outside a range reads alike in memories that differ in the range only. -/
theorem frame_congr (hm : AgreesOff m m' a n) (hf : Apart parms 20 a n) :
    (NewInterface m' parms ↔ NewInterface m parms) ∧ pointers m' parms = pointers m parms := by
  have hread : ∀ d : BitVec 32, d.toNat + 4 ≤ 20 → read m' (parms + d) 4 =
      read m (parms + d) 4 := by
    intro d hd
    refine hm.read_eq (hf.left_within ?_ (by omega))
    rwa [Within, show parms + d - parms = d by ring]
  have h0 : read m' parms 4 = read m parms 4 := by simpa using hread 0 (by decide)
  have hnew : NewInterface m' parms ↔ NewInterface m parms := by
    unfold NewInterface
    rw [h0, hread 4 (by decide)]
  refine ⟨hnew, ?_⟩
  unfold pointers
  simp only [hnew, h0, hread 4 (by decide), hread 8 (by decide), hread 12 (by decide),
    hread 16 (by decide)]

theorem serve_congr (h : Free tkssBase devHlp32 m a n (pointers m parms)) (hm : AgreesOff m m' a n)
    (hf : Apart parms 20 a n) :
    (serve tkssBase devHlp32 m' parms).2 = (serve tkssBase devHlp32 m parms).2 ∧
    AgreesOff (serve tkssBase devHlp32 m parms).1 (serve tkssBase devHlp32 m' parms).1 a n := by
  unfold serve
  rw [(frame_congr hm hf).2]
  cases hq : pointers m parms with
  | none => exact ⟨rfl, hm⟩
  | some q => exact (h.ptrs q.1 q.2 hq).export_congr hm

theorem serve_agreesOn (h : Free tkssBase devHlp32 m a n (pointers m parms)) :
    AgreesOn m (serve tkssBase devHlp32 m parms).1 a n := by
  unfold serve
  cases hq : pointers m parms with
  | none => exact AgreesOn.refl _ _ _
  | some q => exact (h.ptrs q.1 q.2 hq).export_agreesOn

/-- The arguments of a request, as its caller pushed them. -/
theorem read_frame (ra : BitVec 32) (c : Cpu) (i : ℕ) :
    read c.mem (frame base c + BitVec.ofNat 32 (4 * i)) 4 = arg (.stack32 base ra) c i := by
  have hoff : frame base c + BitVec.ofNat 32 (4 * i) =
      base (c.sreg .ss) + (c.reg .esp + BitVec.ofNat 32 (4 + 4 * i)) := by
    rw [frame, stackTop, BitVec.ofNat_add]
    ring
  rw [hoff]
  rfl

theorem newInterface_iff (ra : BitVec 32) (c : Cpu) : NewInterface c.mem (frame base c) ↔
    arg (.stack32 base ra) c 0 = 0 ∧ arg (.stack32 base ra) c 1 = NEW_INTERFACE_MAGIC := by
  rw [← read_frame ra, ← read_frame ra, Nat.mul_zero, BitVec.ofNat_eq_ofNat, BitVec.add_zero]
  rfl

theorem pointers_frame (ra : BitVec 32) (c : Cpu) : pointers c.mem (frame base c) =
    if arg (.stack32 base ra) c 0 = 0 ∧ arg (.stack32 base ra) c 1 = NEW_INTERFACE_MAGIC then
      if arg (.stack32 base ra) c 2 = 1 then
        some (arg (.stack32 base ra) c 4, arg (.stack32 base ra) c 3)
      else none
    else some (arg (.stack32 base ra) c 0, arg (.stack32 base ra) c 1) := by
  rw [pointers, if_congr (newInterface_iff ra c) rfl rfl]
  simp only [← read_frame ra, Nat.mul_zero, BitVec.ofNat_eq_ofNat,
    BitVec.add_zero]

/-- What the entry point finds at the return of `mwdd32_idc`, called in `c1` with twelve
    bytes pushed since the entry in `c`. -/
theorem idcCallee_effect {c c1 c2 : Cpu} (hr : Ready base tkssBase devHlp32 n c)
    (hesp : c1.reg .esp = c.reg .esp - 12#32) (heax : c1.reg .eax = c.reg .esp + 4#32)
    (hds : c1.sreg .ds = flat) (hes : c1.sreg .es = flat) (hss : c1.sreg .ss = c.sreg .ss)
    (hmem : AgreesOff c.mem c1.mem (stackTop base c - 12#32) 12)
    (hk : idcCallee base ra flat tkssBase devHlp32 n () ((), c1) c2 ()) :
    c2.reg .eax = tagged (decide (NewInterface c.mem (frame base c)))
      (serve tkssBase devHlp32 c.mem (frame base c)).2 ∧
    AgreesOff (serve tkssBase devHlp32 c.mem (frame base c)).1 c2.mem
      (stackTop base c - BitVec.ofNat 32 (n + 12)) (n + 12) ∧
    AgreesOn c1.mem c2.mem (stackTop base c - 12#32) 16 := by
  obtain ⟨⟨hpos, hfits⟩, hvalue, hfree⟩ := hr
  obtain ⟨-, heff⟩ := hk
  have htop : stackTop base c1 = stackTop base c - 12#32 := by
    unfold stackTop
    rw [hss, hesp]
    ring
  have hscratch : stackTop base c1 - BitVec.ofNat 32 n =
      stackTop base c - BitVec.ofNat 32 (n + 12) := by
    rw [htop, BitVec.ofNat_add]
    ring
  have hcall : Within (stackTop base c - 12#32) 12 (stackTop base c - BitVec.ofNat 32 (n + 12))
      (n + 16) := within_below _ (by omega) (by omega) (by omega)
  have hkept : Within (stackTop base c - 12#32) 16 (stackTop base c - BitVec.ofNat 32 (n + 12))
      (n + 16) := within_below _ (by omega) (by omega) (by omega)
  have hfcall := hfree.within hcall (by omega)
  have hparms : c1.reg .eax + read c1.mem tkssBase 4 = frame base c := by
    rw [hmem.read_eq hfcall.kernel, hvalue, heax]
    unfold frame stackTop
    ring
  have hargs : Apart (frame base c) 20 (stackTop base c - 12#32) 12 := by
    unfold frame Apart
    rw [show stackTop base c - 12#32 - (stackTop base c + 4#32) = -12#32 - 4#32 by ring,
      show stackTop base c + 4#32 - (stackTop base c - 12#32) = 4#32 + 12#32 by ring]
    decide
  have hfree1 := hfree.congr (hmem.within hcall)
  obtain ⟨hnew, hptrs⟩ := frame_congr hmem hargs
  obtain ⟨hrc, hserve⟩ := serve_congr hfcall hmem hargs
  dsimp only at heff
  rw [hscratch, hparms, mwdd32Idc_eq, hparms] at heff
  obtain ⟨heax2, hoff⟩ := heff hds hes (by
    rw [hptrs]
    exact hfree1.within (by rw [within_self]; omega) hpos)
  have hkeep : AgreesOn c1.mem (serve tkssBase devHlp32 c1.mem (frame base c)).1
      (stackTop base c - 12#32) 16 :=
    serve_agreesOn (by rw [hptrs]; exact hfree1.within hkept (by omega))
  refine ⟨?_, ?_, ?_⟩
  · rw [heax2, decide_eq_decide.mpr hnew, hrc]
  · exact (hserve.within (within_below _ (by omega) (by omega) (by omega))).trans
      (hoff.within (by rw [within_self]; omega))
  · exact hkeep.trans (hoff.agreesOn (apart_below _ le_rfl (by omega) hpos (by omega)).symm)

attribute [local simp] mwdd32StubIDC idcExec stackTop Function.update_apply BitVec.add_assoc
  BitVec.sub_eq_add_neg

/-- Every run of the entry point. -/
theorem idc_wp {c : Cpu} (hr : Ready base tkssBase devHlp32 n c) :
    Wp (idcCallee base ra flat tkssBase devHlp32 n) (fun _ _ => True)
      (fun _ res _ => ∃ u, res = some u ∧ u.eip = c.top (.stack32 base ra) 4 ∧
        u.reg .ebp = c.reg .ebp ∧ u.sreg .ds = c.sreg .ds ∧ u.sreg .es = c.sreg .es ∧
        u.reg .esp = c.reg .esp + (if NewInterface c.mem (frame base c) then 4#32 else 12#32) ∧
        low (u.reg .eax) = (serve tkssBase devHlp32 c.mem (frame base c)).2.setWidth 32 ∧
        AgreesOff (serve tkssBase devHlp32 c.mem (frame base c)).1 u.mem
          (stackTop base c - BitVec.ofNat 32 (n + 12)) (n + 12))
      [] () (idcExec base ra flat c) := by
  intro c2 _ hk
  obtain ⟨heax, hoff, hon⟩ := by
    refine idcCallee_effect hr (by simp) (by simp) (by simp) (by simp) (by simp) ?_ hk
    simp
    iterate 3 refine AgreesOff.write_within ?_ (by simp)
    exact AgreesOff.refl _ _ _
  obtain ⟨⟨hesp, hebp, hsreg, -⟩, -⟩ := hk
  simp at hesp hebp hsreg hon
  have hhigh := high_tagged (decide (NewInterface c.mem (frame base c)))
    (serve tkssBase devHlp32 c.mem (frame base c)).2
  have hlow := low_tagged (decide (NewInterface c.mem (frame base c)))
    (serve tkssBase devHlp32 c.mem (frame base c)).2
  simp at hoff
  refine ⟨trivial, ?_⟩
  by_cases hnew : NewInterface c.mem (frame base c)
  · simp [hnew] at heax hhigh hlow
    simpa [hnew, hesp, hebp, hsreg, heax, hhigh, hlow, hon.read_eq] using hoff
  · simp [hnew] at heax hhigh hlow
    simpa [hnew, hesp, hebp, hsreg, heax, hhigh, hlow, hon.read_eq] using hoff

/-- The entry point, entered in `c`, left in `u` the memory and the return code of
    `mwdd32_export_devhelp32` with these pointers, the stack that was free apart. -/
def Exported (tkssBase : BitVec 32) (devHlp32 : Addr) (base : BitVec 16 → Addr) (n : ℕ) (c u : Cpu)
    (pTKSSBase pDevHelp32 : BitVec 32) : Prop :=
  let res := mwdd32ExportDevhelp32 tkssBase devHlp32 c.mem pTKSSBase pDevHelp32
  low (u.reg .eax) = res.2.setWidth 32 ∧
  AgreesOff res.1 u.mem (stackTop base c - BitVec.ofNat 32 (n + 12)) (n + 12)

/-- The return in `u` from the entry in `c`: a call with a new-style frame returns over its
    return address alone and is served by its function number, any other call returns
    over two arguments more and is served as an export. -/
def Returned (tkssBase : BitVec 32) (devHlp32 : Addr) (base : BitVec 16 → Addr) (ra : BitVec 32)
    (n : ℕ) (c u : Cpu) : Prop :=
  let arg := arg (.stack32 base ra) c
  u.eip = c.top (.stack32 base ra) 4 ∧ u.reg .ebp = c.reg .ebp ∧
  u.sreg .ds = c.sreg .ds ∧ u.sreg .es = c.sreg .es ∧
  if arg 0 = 0 ∧ arg 1 = NEW_INTERFACE_MAGIC then
    u.reg .esp = c.reg .esp + 4 ∧
    if arg 2 = 1 then Exported tkssBase devHlp32 base n c u (arg 4) (arg 3)
    else low (u.reg .eax) = ERROR_INVALID_PARAMETER ∧
      AgreesOff c.mem u.mem (stackTop base c - BitVec.ofNat 32 (n + 12)) (n + 12)
  else
    u.reg .esp = c.reg .esp + 4 + 8 ∧ Exported tkssBase devHlp32 base n c u (arg 0) (arg 1)

theorem idc_returned {c : Cpu} (hr : Ready base tkssBase devHlp32 n c)
    {tr : List (Event (Unit × Cpu) fun _ => Cpu)} {res : Option Cpu}
    (h : Runs (idcCallee base ra flat tkssBase devHlp32 n) () (idcExec base ra flat c) tr res ()) :
    ∃ u, res = some u ∧ Returned tkssBase devHlp32 base ra n c u := by
  obtain ⟨-, u, hres, heip, hebp, hds, hes, hesp, hlow, hoff⟩ := (idc_wp hr).sound h
  rw [if_congr (newInterface_iff ra c) rfl rfl] at hesp
  rw [serve, pointers_frame ra] at hlow hoff
  refine ⟨u, hres, heip, hebp, hds, hes, ?_⟩
  generalize arg (.stack32 base ra) c = arg at hesp hlow hoff ⊢
  by_cases hnew : arg 0 = 0 ∧ arg 1 = NEW_INTERFACE_MAGIC
  · rw [if_pos hnew] at hesp hlow hoff ⊢
    refine ⟨hesp, ?_⟩
    by_cases hfunc : arg 2 = 1
    · rw [if_pos hfunc] at hlow hoff ⊢
      exact ⟨hlow, hoff⟩
    · rw [if_neg hfunc] at hlow hoff ⊢
      exact ⟨hlow, hoff⟩
  · rw [if_neg hnew] at hesp hlow hoff ⊢
    exact ⟨by rw [hesp, BitVec.add_assoc]; rfl, hlow, hoff⟩

/-! ## The drivers' call -/

variable (base ra flat tkssBase devHlp32)

/-- The entry point, called by a driver. -/
def idcStub (n : ℕ) : Env Unit (Unit × Cpu) (fun _ => Cpu) := fun _ op c2 _ =>
  ∃ tr, Runs (idcCallee base ra flat tkssBase devHlp32 n) () (idcExec base ra flat op.2) tr
    (some c2) ()

/-- A driver's sequence with the call -/
def preInitBaseExec (pTKSSBase pDevHelp32 : BitVec 32) (c : Cpu) :
    Prog (Unit × Cpu) (fun _ => Cpu) (Option Cpu) :=
  run (.stack32 base ra) (preInitBase pTKSSBase pDevHelp32) 10 (preInitBase pTKSSBase pDevHelp32) c

/-- What a driver with these two variables sees to before it pushes the frame. -/
structure DriverReady (n : ℕ) (c : Cpu) (pTKSSBase pDevHelp32 : BitVec 32) : Prop where
  fits : 0 < n ∧ n + 36 < 2 ^ 32
  value : read c.mem tkssBase 4 = base (c.sreg .ss)
  free : Free tkssBase devHlp32 c.mem (stackTop base c - BitVec.ofNat 32 (n + 36)) (n + 36)
    (some (pTKSSBase, pDevHelp32))

variable {base ra flat tkssBase devHlp32}

/-- The call in `c1`, with the frame and a return address pushed since `c`, takes the return
    address off again. -/
theorem idcStub_esp {c c1 c2 : Cpu} {pTKSSBase pDevHelp32 : BitVec 32}
    (hr : DriverReady base tkssBase devHlp32 n c pTKSSBase pDevHelp32)
    (hesp : c1.reg .esp = c.reg .esp - 24#32) (hss : c1.sreg .ss = c.sreg .ss)
    (hmem : AgreesOff c.mem c1.mem (stackTop base c - 24#32) 24)
    (hnew : arg (.stack32 base ra) c1 0 = 0 ∧ arg (.stack32 base ra) c1 1 = NEW_INTERFACE_MAGIC)
    (hfunc : arg (.stack32 base ra) c1 2 = 1)
    (hDevHelp32 : arg (.stack32 base ra) c1 3 = pDevHelp32)
    (hTKSSBase : arg (.stack32 base ra) c1 4 = pTKSSBase)
    (hk : idcStub base ra flat tkssBase devHlp32 n () ((), c1) c2 ()) :
    c2.reg .esp = c1.reg .esp + 4#32 := by
  obtain ⟨⟨hpos, hfits⟩, hvalue, hfree⟩ := hr
  have hpushed : Within (stackTop base c - 24#32) 24 (stackTop base c - BitVec.ofNat 32 (n + 36))
      (n + 36) := within_below _ (by omega) (by omega) (by omega)
  have hstack : stackTop base c1 - BitVec.ofNat 32 (n + 12) =
      stackTop base c - BitVec.ofNat 32 (n + 36) := by
    rw [stackTop, stackTop, hss, hesp, show n + 36 = n + 12 + 24 by omega,
      BitVec.ofNat_add (n + 12) 24]
    ring
  have hptrs : pointers c1.mem (frame base c1) = some (pTKSSBase, pDevHelp32) := by
    rw [pointers_frame ra, if_pos hnew, if_pos hfunc, hDevHelp32, hTKSSBase]
  have hready : Ready base tkssBase devHlp32 n c1 := by
    refine ⟨⟨hpos, by omega⟩, ?_, ?_⟩
    · rw [hmem.read_eq (hfree.within hpushed (by omega)).kernel, hvalue, hss]
    · rw [hstack, hptrs]
      exact (hfree.congr (hmem.within hpushed)).within (by rw [within_self]; omega) (by omega)
  obtain ⟨tr, hrun⟩ := hk
  obtain ⟨u, hu, -, -, -, -, hret⟩ := idc_returned hready hrun
  cases hu
  rw [if_pos hnew] at hret
  exact hret.1

attribute [local simp] preInitBase preInitBaseExec

/-- The sequence leaves ESP unchanged. -/
theorem preInitBase_wp {c : Cpu} {pTKSSBase pDevHelp32 : BitVec 32}
    (hr : DriverReady base tkssBase devHlp32 n c pTKSSBase pDevHelp32) :
    Wp (idcStub base ra flat tkssBase devHlp32 n) (fun _ _ => True)
      (fun _ res _ => ∃ u, res = some u ∧ u.reg .esp = c.reg .esp) [] ()
      (preInitBaseExec base ra pTKSSBase pDevHelp32 c) := by
  intro c2 _ hk
  have hesp := by
    refine idcStub_esp hr (by simp) (by simp) ?_ (by simp) (by simp) (by simp) (by simp) hk
    simp
    iterate 6 refine AgreesOff.write_within ?_ (by simp)
    exact AgreesOff.refl _ _ _
  simp at hesp
  simp [hesp]

/-- **The two interfaces.** For every stack content at the entry, every return is the one
    of the caller's interface, and the drivers' sequence of a call in the new one leaves
    ESP unchanged. -/
theorem idc_interfaces :
    (∀ c tr res, Ready base tkssBase devHlp32 n c →
      Runs (idcCallee base ra flat tkssBase devHlp32 n) () (idcExec base ra flat c) tr res () →
      ∃ u, res = some u ∧ Returned tkssBase devHlp32 base ra n c u) ∧
    ∀ c pTKSSBase pDevHelp32 tr res,
      DriverReady base tkssBase devHlp32 n c pTKSSBase pDevHelp32 →
      Runs (idcStub base ra flat tkssBase devHlp32 n) ()
        (preInitBaseExec base ra pTKSSBase pDevHelp32 c) tr res () →
      ∃ u, res = some u ∧ u.reg .esp = c.reg .esp :=
  ⟨fun _ _ _ hr h => idc_returned hr h, fun _ _ _ _ _ hr h => ((preInitBase_wp hr).sound h).2⟩

/-- `mwdd32_idc` can always return. -/
theorem idcCallee_exists (x : Unit) (op : Unit × Cpu) :
    ∃ c2 y, idcCallee base ra flat tkssBase devHlp32 n x op c2 y := by
  let res := mwdd32Idc tkssBase devHlp32 op.2.mem (op.2.reg .eax)
  exact ⟨{ (op.2.addSp (.stack32 base ra) 4#32).setReg .eax res.2 with mem := res.1 }, (),
    ⟨by simp, by simp, by simp, by simp⟩, fun _ _ _ => ⟨by simp [res], AgreesOff.refl _ _ _⟩⟩

/-- Whatever `mwdd32_idc` answers, the entry point returns and keeps SS. -/
theorem idcExec_ss {c : Cpu} {tr : List (Event (Unit × Cpu) fun _ => Cpu)} {res : Option Cpu}
    (h : Runs (idcCallee base ra flat tkssBase devHlp32 n) () (idcExec base ra flat c) tr res ()) :
    ∃ u, res = some u ∧ u.sreg .ss = c.sreg .ss := by
  have hwp : Wp (idcCallee base ra flat tkssBase devHlp32 n) (fun _ _ => True)
      (fun _ res _ => ∃ u, res = some u ∧ u.sreg .ss = c.sreg .ss) []
      () (idcExec base ra flat c) := by
    intro c2 _ hk
    obtain ⟨⟨-, -, hsreg, -⟩, -⟩ := hk
    have hss := hsreg .ss (by simp)
    clear hsreg
    refine ⟨trivial, ?_⟩
    simp at hss ⊢
    split_ifs
    · simp [hss]
    · simp [hss]
  exact (hwp.sound h).2

/-- So it can always be called. -/
theorem idcStub_exists (x : Unit) (op : Unit × Cpu) :
    ∃ c2 y, idcStub base ra flat tkssBase devHlp32 n x op c2 y := by
  obtain ⟨tr, res, ⟨⟩, hrun⟩ :=
    Runs.exists (@idcCallee_exists base ra flat tkssBase devHlp32 n) (idcExec base ra flat op.2) ()
  obtain ⟨c2, rfl, -⟩ := idcExec_ss hrun
  exact ⟨c2, (), tr, hrun⟩

/-- A stack of selector 8 at `0x10000` with an old-style frame for the client of
    `sampleMem`, in a kernel with its stack base at `0x400`. -/
def idcCpu : Cpu :=
  ⟨fun _ => 0x800, fun sr => if sr = .ss then 8 else 0, false, false, 0,
    write (write (write sampleMem 0x400 4 0x10000) 0x10804 4 0x3000) 0x10808 4 0x2000, []⟩

/-- A stack of selector 8 at 0x10000 -/
def idcBase (sel : BitVec 16) : Addr := if sel = 8 then 0x10000 else 0

theorem idcCpu_free {a : Addr} {k : ℕ} (hk : Apart 0x400 4 a k) (ht : Apart 0x1000 144 a k)
    (hv : Apart 0x3000 4 a k) (hr : Apart 0x2000 84 a k) :
    Free 0x400 0x1000 idcCpu.mem a k (some (0x3000, 0x2000)) := by
  have hsize : recordSize (write idcCpu.mem 0x3000 4 0x400) 0x2000 = 84 := by decide
  refine ⟨hk, fun p d h => ?_⟩
  cases h
  exact ⟨ht, fun _ => hv, fun _ _ => by rwa [hsize]⟩

theorem idcCpu_ready : Ready idcBase 0x400 0x1000 0x100 idcCpu := by
  refine ⟨by decide, by decide, ?_⟩
  rw [show pointers idcCpu.mem (frame idcBase idcCpu) = some (0x3000, 0x2000) by decide]
  apply idcCpu_free <;> decide

theorem idcCpu_driverReady : DriverReady idcBase 0x400 0x1000 0x100 idcCpu 0x3000 0x2000 :=
  ⟨by decide, by decide, by apply idcCpu_free <;> decide⟩

/-- The old-style caller gets its two arguments popped and a return code of zero; the
    driver with the same variables keeps its ESP. -/
theorem idc_sample :
    (∃ tr u, Runs (idcCallee idcBase 0 16 0x400 0x1000 0x100) () (idcExec idcBase 0 16 idcCpu) tr
      (some u) () ∧ u.reg .esp = 0x800 + 4 + 8 ∧ low (u.reg .eax) = 0) ∧
    ∃ tr u, Runs (idcStub idcBase 0 16 0x400 0x1000 0x100) ()
      (preInitBaseExec idcBase 0 0x3000 0x2000 idcCpu) tr (some u) () ∧ u.reg .esp = 0x800 := by
  obtain ⟨hentry, hdriver⟩ := @idc_interfaces idcBase 0 16 0x400 0x1000 0x100
  constructor
  · obtain ⟨tr, res, ⟨⟩, hrun⟩ := Runs.exists idcCallee_exists (idcExec idcBase 0 16 idcCpu) ()
    obtain ⟨u, rfl, -, -, -, -, hret⟩ := hentry idcCpu tr res idcCpu_ready hrun
    rw [if_neg (by decide)] at hret
    refine ⟨tr, u, hrun, hret.1, ?_⟩
    rw [hret.2.1]
    decide
  · obtain ⟨tr, res, ⟨⟩, hrun⟩ :=
      Runs.exists idcStub_exists (preInitBaseExec idcBase 0 0x3000 0x2000 idcCpu) ()
    obtain ⟨u, rfl, hesp⟩ := hdriver idcCpu 0x3000 0x2000 tr res idcCpu_driverReady hrun
    exact ⟨tr, u, hrun, hesp⟩

end Mwdd32.Server
