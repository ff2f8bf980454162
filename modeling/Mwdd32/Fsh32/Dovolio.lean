import Mwdd32.DevHlp.GdtSelectors

/-!
# fsh32_dovolio

`fsh32_dovolio` (`fsh32/fsh32_dovolio.asm`) maps the caller's buffer to a GDT selector, calls the
kernel's 16-bit `FSH_DOVOLIO` on it and frees the selector. The selector, the 16-bit sector count
and the return code are words of its own stack frame.

* `dovolio_discipline`: the selector, the result, `*pcSec` and the registers, whichever of the
  four kernel calls fail.
* `dovolio_fidelity_iff`: the sector count is the caller's up to 65535 only, as its high word is
  dropped without a check.
-/

namespace Mwdd32.Fsh32

open ByteMem Interaction I386 Opnd Reg DevHlp

namespace Dovolio

/-- The kernel calls, by their `thunk16$` labels 1 to 4 -/
inductive Call
  | allocGDTSelector | linToGDTSelector | fshDovolio | freeGDTSelector
  deriving DecidableEq

/-- The labels `@@error` and `@@error2` -/
inductive Label
  | error | error2
  deriving DecidableEq

variable (devHlp : Call → BitVec 32)

/-- `fsh32_dovolio.asm`, lines 83–167. The assembler is given no size for the first store, all of
    whose bytes are overwritten before they are read. -/
def fsh32Dovolio : Code Label Call :=
  [.enter 4 12, .push 4 (s .es), .push 4 (r ebx), .push 4 (r esi), .push 4 (r edi),
   .mov (m 4 .ss ebp (-6)) (imm 0),
   .mov (r16 eax) (s .ss), .mov (s .es) (r16 eax), .mov (r edi) (ea ebp (-2)), .mov (r ecx) (imm 1),
   .mov (lo edx) (imm (devHlp .allocGDTSelector)), .call 1 .allocGDTSelector,
   .jcc .carry .error,
   .mov (r16 eax) (m 2 .ss ebp (-2)), .mov (r ebx) (m 4 .ss ebp 20), .mov (r ecx) (m 4 .ss ebp 24),
   .mov (r ecx) (m 2 .ds ecx 0), .mov (m 2 .ss ebp (-4)) (r16 ecx), .alu .shl (r ecx) (imm 9),
   .mov (lo edx) (imm (devHlp .linToGDTSelector)), .call 1 .linToGDTSelector,
   .mov (m 2 .ss ebp (-6)) (r16 eax),
   .jcc .carry .error2,
   .alu .sub (r esp) (imm 18),
   .mov (r eax) (m 4 .ss ebp 8), .mov (m 2 .ss esp 16) (r16 eax),
   .mov (r eax) (m 4 .ss ebp 12), .mov (m 2 .ss esp 14) (r16 eax),
   .mov (r eax) (m 4 .ss ebp 16), .mov (m 2 .ss esp 12) (r16 eax),
   .mov (r16 eax) (m 2 .ss ebp (-2)), .alu .shl (r eax) (imm 16), .mov (m 4 .ss esp 8) (r eax),
   .mov (r16 eax) (s .ss), .alu .shl (r eax) (imm 16), .mov (r ebx) (ea ebp (-4)),
   .mov (r16 eax) (r16 ebx), .mov (m 4 .ss esp 4) (r eax),
   .mov (r eax) (m 4 .ss ebp 28), .mov (m 4 .ss esp 0) (r eax), .call 1 .fshDovolio,
   .mov (m 2 .ss ebp (-6)) (r16 eax),
   .label .error2,
   .mov (r16 eax) (m 2 .ss ebp (-2)), .mov (lo edx) (imm (devHlp .freeGDTSelector)),
   .call 1 .freeGDTSelector,
   .jcc .carry .error,
   .mov (r16 eax) (m 2 .ss ebp (-6)), .alu .cmp (r16 eax) (imm 0), .jcc .nonzero .error,
   .mov (r ebx) (m 4 .ss ebp (-4)), .mov (r ebx) (r16 ebx), .mov (r edi) (m 4 .ss ebp 24),
   .mov (m 4 .ds edi 0) (r ebx),
   .label .error,
   .mov (r eax) (r16 eax),
   .pop 4 (r edi), .pop 4 (r esi), .pop 4 (r ebx), .pop 4 (s .es), .leave 4, .ret 0]

variable (base : BitVec 16 → Addr) (ra : BitVec 32)

/-- A call of `fsh32_dovolio` -/
def exec (c : Cpu) : Prog (Call × Cpu) (fun _ => Cpu) (Option Cpu) :=
  run (.stack32 base ra) (fsh32Dovolio devHlp) 64 (fsh32Dovolio devHlp) c

/-! ## The kernel -/

/-- The bytes of the return address and the arguments, which the callee pops -/
def Call.popped : Call → ℕ
  | .fshDovolio => 22
  | _ => 4

/-- The bytes above those that the callee keeps: all up to the last argument of `fsh32_dovolio`,
    except the selector, where it is allocated, and the sector count of `FSH_DOVOLIO`. -/
def Call.slots : Call → List (BitVec 32 × ℕ)
  | .allocGDTSelector => [(0, 26), (28, 32)]
  | .fshDovolio => [(0, 24), (26, 34)]
  | _ => [(0, 60)]

/-- A callee of the kernel. What it stores is not in `stores`, and an allocation leaves the
    caller's `*pcSec`, the dword at `p`, as it is. -/
structure KernelCall (p : Addr) (x : Call) (c1 c2 : Cpu) : Prop where
  returns : Returns (.stack32 base ra) x.popped [.ds, .ss] x.slots c1 c2
  stores : c2.stores = c1.stores
  count : x = .allocGDTSelector → AgreesOn c1.mem c2.mem p 4

/-- A kernel whose DevHlp services set AX when they fail -/
def kernel (p : Addr) : Env Unit (Call × Cpu) (fun _ => Cpu) :=
  fun _ op c2 _ => KernelCall base ra p op.1 op.2 c2 ∧
    (op.1 ≠ .fshDovolio → c2.cf = true → low (c2.reg .eax) ≠ 0)

/-! ## The frame -/

section Frame

variable (c : Cpu)

/-- The caller's `*pcSec` -/
def pcSec : Addr := base (c.sreg .ds) + arg (.stack32 base ra) c 4

/-- The words `[ebp - 2]`, `[ebp - 4]` and `[ebp - 6]` -/
def selAddr : Addr := base (c.sreg .ss) + (c.reg .esp + -6)

/-- Where the routine keeps the number of sectors -/
def countAddr : Addr := base (c.sreg .ss) + (c.reg .esp + -8)

/-- Where the routine keeps the return code -/
def rcAddr : Addr := base (c.sreg .ss) + (c.reg .esp + -10)

/-- At entry, `*pcSec` is not in the stack bytes that the routine uses, and these are in the first
    64 KiB of the stack segment, where 16-bit code can address them. -/
structure Layout : Prop where
  apart : Apart (pcSec base ra c) 4 (base (c.sreg .ss) + (c.reg .esp + -54)) 82
  stack : 54 ≤ (c.reg .esp).toNat ∧ (c.reg .esp).toNat < 2 ^ 16
  stores : c.stores = []

/-- The memory behind the pushes of the routine -/
def pushed : Mem :=
  ((((c.enter (.stack32 base ra) 4 12).push (.stack32 base ra) 4 ((c.sreg .es).setWidth 32)).push
    (.stack32 base ra) 4 (c.reg .ebx)).push (.stack32 base ra) 4 (c.reg .esi)).push
    (.stack32 base ra) 4 (c.reg .edi) |>.mem

/-- The routine was entered in `c` and got to `c'`, with `d` bytes on the stack, where the saved
    registers, the return address and the arguments are. -/
structure Frame (d : BitVec 32) (c' : Cpu) : Prop where
  esp : c'.reg .esp = c.reg .esp + -d
  ebp : c'.reg .ebp = c.reg .esp + -4
  ss : c'.sreg .ss = c.sreg .ss
  ds : c'.sreg .ds = c.sreg .ds
  saved : AgreesOn (pushed base ra c) c'.mem (base (c.sreg .ss) + (c.reg .esp + -32)) 16
  args : AgreesOn (pushed base ra c) c'.mem (base (c.sreg .ss) + (c.reg .esp + -4)) 32

/-- The registers that the routine found in `c` are back in `u`, and it has returned. -/
structure Restored (u : Cpu) : Prop where
  es : u.sreg .es = c.sreg .es
  ebx : u.reg .ebx = c.reg .ebx
  esi : u.reg .esi = c.reg .esi
  edi : u.reg .edi = c.reg .edi
  ebp : u.reg .ebp = c.reg .ebp
  esp : u.reg .esp = c.reg .esp + 4
  eip : u.eip = c.top (.stack32 base ra) 4

end Frame

variable {devHlp base ra} {c c' : Cpu}

attribute [local simp] fsh32Dovolio BitVec.add_assoc Function.update_apply low_selector
  agreesOn_write_iff

/-- What the routine pushed -/
theorem Frame.read_saved {d : BitVec 32} (hf : Frame base ra c d c') :
    read c'.mem (base (c.sreg .ss) + (c.reg .esp + -20)) 4 = (c.sreg .es).setWidth 32 ∧
    read c'.mem (base (c.sreg .ss) + (c.reg .esp + -24)) 4 = c.reg .ebx ∧
    read c'.mem (base (c.sreg .ss) + (c.reg .esp + -28)) 4 = c.reg .esi ∧
    read c'.mem (base (c.sreg .ss) + (c.reg .esp + -32)) 4 = c.reg .edi ∧
    read c'.mem (base (c.sreg .ss) + (c.reg .esp + -4)) 4 = c.reg .ebp := by
  refine ⟨?_, ?_, ?_, ?_, ?_⟩
  · rw [hf.saved.read_eq (by simp)]
    simp [pushed]
  · rw [hf.saved.read_eq (by simp)]
    simp [pushed]
  · rw [hf.saved.read_eq (by simp)]
    simp [pushed]
  · rw [hf.saved.read_eq (by simp)]
    simp [pushed]
  · rw [hf.args.read_eq (by simp)]
    simp [pushed]

theorem Frame.read_ret {d : BitVec 32} (hf : Frame base ra c d c') :
    read c'.mem (base (c.sreg .ss) + c.reg .esp) 4 = c.top (.stack32 base ra) 4 := by
  rw [hf.args.read_eq (by simp)]
  simp [pushed]

/-- `[ebp + 8 + 4 * i]` -/
theorem Frame.read_arg {d : BitVec 32} (hf : Frame base ra c d c') {i : ℕ} (hi : i < 6) :
    read c'.mem (base (c.sreg .ss) + (c.reg .esp + BitVec.ofNat 32 (4 + 4 * i))) 4 =
      arg (.stack32 base ra) c i := by
  rw [hf.args.read_eq]
  · interval_cases i <;> simp [pushed]
  · interval_cases i <;> simp

theorem Frame.step {d d' : BitVec 32} {c1 c2 : Cpu} (hf : Frame base ra c d c1)
    (hesp : c2.reg .esp = c.reg .esp + -d') (hebp : c2.reg .ebp = c1.reg .ebp)
    (hsreg : c2.sreg = c1.sreg)
    (hsaved : AgreesOn c1.mem c2.mem (base (c.sreg .ss) + (c.reg .esp + -32)) 16)
    (hargs : AgreesOn c1.mem c2.mem (base (c.sreg .ss) + (c.reg .esp + -4)) 32) :
    Frame base ra c d' c2 := by
  obtain ⟨h1, h2, h3, h4, h5, h6⟩ := hf
  rw [← hsreg] at h3 h4
  exact ⟨hesp, hebp.trans h2, h3, h4, h5.trans hsaved, h6.trans hargs⟩

/-- `*pcSec` is not at an address of the frame. -/
theorem Layout.ne {d : BitVec 32} (hl : Layout base ra c) (hd : (d + 54).toNat < 82) :
    pcSec base ra c ≠ base (c.sreg .ss) + (c.reg .esp + d) := by
  intro h
  have hw : Within (pcSec base ra c) 1 (base (c.sreg .ss) + (c.reg .esp + -54)) 82 := by
    rw [h, within_offset, BitVec.sub_neg]
    exact hd
  have hne := hl.apart.right_within hw (by decide)
  simp [Apart] at hne

theorem Layout.apart_offset {d : BitVec 32} {n : ℕ} (hl : Layout base ra c)
    (hd : (d + 54).toNat + n ≤ 82) (hn : 0 < n) :
    Apart (pcSec base ra c) 4 (base (c.sreg .ss) + (c.reg .esp + d)) n := by
  refine hl.apart.right_within ?_ hn
  rwa [within_offset, BitVec.sub_neg]

/-- The bytes on the stack when a call is made -/
def Call.depth : Call → BitVec 32
  | .fshDovolio => 50
  | _ => 32

/-- What a kernel call keeps -/
structure Kept (base : BitVec 16 → Addr) (ra : BitVec 32) (c : Cpu) (x : Call) (c1 c2 : Cpu) :
    Prop where
  frame : Frame base ra c 32 c2
  stores : c2.stores = c1.stores
  sel : x ≠ .allocGDTSelector → read c2.mem (selAddr base c) 2 = read c1.mem (selAddr base c) 2
  count : x ≠ .fshDovolio → read c2.mem (countAddr base c) 2 = read c1.mem (countAddr base c) 2
  rc : read c2.mem (rcAddr base c) 2 = read c1.mem (rcAddr base c) 2

/-- A callee keeps what is in its slots and not in the return address. -/
theorem KernelCall.agreesOn {p : Addr} {x : Call} {c1 c2 : Cpu} (hf : Frame base ra c x.depth c1)
    (hk : KernelCall base ra p x (c1.push (.stack32 base ra) 4 ra) c2) (d : BitVec 32) (n : ℕ)
    (hs : ∃ s ∈ x.slots, (d - (-32 + s.1)).toNat + n ≤ s.2)
    (ha : n ≤ (-x.depth + -4 - d).toNat ∧ 4 ≤ (d - (-x.depth + -4)).toNat) :
    AgreesOn c1.mem c2.mem (base (c.sreg .ss) + (c.reg .esp + d)) n := by
  obtain ⟨sl, hsl, hw⟩ := hs
  have hslot : (c1.push (.stack32 base ra) 4 ra).stk (.stack32 base ra)
      (BitVec.ofNat 32 x.popped + sl.1) = base (c.sreg .ss) + (c.reg .esp + (-32 + sl.1)) := by
    have hpop : -32 = -x.depth + (-4 + BitVec.ofNat 32 x.popped) := by cases x <;> rfl
    rw [hpop]
    simp [hf.esp, hf.ss]
  have hmem := hk.returns.mem sl hsl
  rw [hslot] at hmem
  have hpush : AgreesOn c1.mem (c1.push (.stack32 base ra) 4 ra).mem
      (base (c.sreg .ss) + (c.reg .esp + d)) n := by
    simp only [Cpu.push, Cpu.stk, lin, sp, if_true, hf.esp, hf.ss, BitVec.add_assoc]
    exact write_agreesOn ((apart_offset ..).mpr ha)
  exact hpush.trans (hmem.within ((within_offset ..).mpr hw))

theorem KernelCall.kept {p : Addr} {x : Call} {c1 c2 : Cpu} (hf : Frame base ra c x.depth c1)
    (hk : KernelCall base ra p x (c1.push (.stack32 base ra) 4 ra) c2) :
    Kept base ra c x c1 c2 := by
  have hkeep := hk.agreesOn hf
  obtain ⟨⟨hesp, hebp, hsreg, -⟩, hst, -⟩ := hk
  have hss := hsreg .ss (by simp)
  have hds := hsreg .ds (by simp)
  obtain ⟨h1, h2, h3, h4, h5, h6⟩ := hf
  refine ⟨⟨?_, ?_, ?_, ?_, ?_, ?_⟩, ?_, ?_, ?_, ?_⟩
  · rw [hesp]
    cases x <;> simp [Call.popped, Call.depth] at h1 ⊢ <;> simp [h1]
  · rw [hebp]
    simpa using h2
  · rw [hss]
    simpa using h3
  · rw [hds]
    simpa using h4
  · exact h5.trans (hkeep _ _ (by cases x <;> decide) (by cases x <;> decide))
  · exact h6.trans (hkeep _ _ (by cases x <;> decide) (by cases x <;> decide))
  · rw [hst]
    simp
  · intro hx
    exact read_congr (hkeep (-6) 2 (by revert hx; cases x <;> decide) (by cases x <;> decide))
  · intro hx
    exact read_congr (hkeep (-8) 2 (by revert hx; cases x <;> decide) (by cases x <;> decide))
  · exact read_congr (hkeep (-10) 2 (by cases x <;> decide) (by cases x <;> decide))

/-! ## Runs -/

variable (devHlp base ra c) in
/-- The end of the routine, behind the label `@@error` -/
theorem leave_restored (hf : Frame base ra c 32 c') (fuel : ℕ) : ∃ u,
    run (.stack32 base ra) (fsh32Dovolio devHlp) (fuel + 8)
      (after .error (fsh32Dovolio devHlp)) c' =
      .ret (some u) ∧ Restored base ra c u ∧ u.reg .eax = low (c'.reg .eax) ∧
      u.mem = c'.mem ∧ u.stores = c'.stores := by
  have hret := hf.read_ret
  obtain ⟨hes, hebx, hesi, hedi, hebp⟩ := hf.read_saved
  obtain ⟨h1, h2, h3, -, -, -⟩ := hf
  refine ⟨_, rfl, ?_, ?_, ?_, ?_⟩
  · simp at hret hes hebx hesi hedi hebp
    constructor <;> simp [h1, h2, h3, hret, hes, hebx, hesi, hedi, hebp]
  · simp
  · simp
  · simp

/-- A call of the kernel and the state in which it returns -/
abbrev DovolioEvent := Event (Call × Cpu) fun _ => Cpu

/-- A kernel call, in a state of which `R` is known -/
theorem wp_kernel {p : Addr} {Q : List DovolioEvent → Option Cpu → Unit → Prop}
    {h : List DovolioEvent} {x : Call} {c1 : Cpu}
    {k : Cpu → Prog (Call × Cpu) (fun _ => Cpu) (Option Cpu)} (R : Cpu → Prop) (hR : R c1)
    (hk : ∀ c1, R c1 → ∀ c2, KernelCall base ra p x (c1.push (.stack32 base ra) 4 ra) c2 →
      (x ≠ .fshDovolio → c2.cf = true → low (c2.reg .eax) ≠ 0) →
      Wp (kernel base ra p) (fun _ _ => True) Q
        (h ++ [⟨(x, c1.push (.stack32 base ra) 4 ra), c2⟩]) () (k c2)) :
    Wp (kernel base ra p) (fun _ _ => True) Q h ()
      (.call (x, (Cpu.push (.stack32 base ra) 4 ra)^[1] c1) k) :=
  wp_call_of R hR fun c1 h1 c2 _ h2 => ⟨trivial, hk c1 h1 c2 h2.1 h2.2⟩

/-- The end of the routine behind `jnz`, with AX = 0: the sector count goes to the caller. -/
theorem store_count_wp {p : Addr} {Q : List DovolioEvent → Option Cpu → Unit → Prop}
    {h : List DovolioEvent} (hl : Layout base ra c) (hf : Frame base ra c 32 c')
    (hax : low (c'.reg .eax) = 0) (fuel : ℕ)
    (hQ : ∀ u, Restored base ra c u → u.reg .eax = 0 → u.stores = c'.stores ++ [pcSec base ra c] →
      read u.mem (pcSec base ra c) 4 = read c'.mem (countAddr base c) 2 → Q h (some u) ()) :
    Wp (kernel base ra p) (fun _ _ => True) Q h () (run (.stack32 base ra) (fsh32Dovolio devHlp)
      (fuel + 13) ((fsh32Dovolio devHlp).drop 50) c') := by
  have harg := hf.read_arg (i := 4) (by simp)
  have hcount : low (read c'.mem (base (c.sreg .ss) + (c.reg .esp + -8)) 4) =
      read c'.mem (countAddr base c) 2 := by
    rw [low_read_dword]
    rfl
  simp at harg hcount
  refine wp_mov (wp_mov (wp_mov (wp_mov (wp_label (wp_state (fun c4 =>
    c4.reg .esp = c'.reg .esp ∧ c4.reg .ebp = c'.reg .ebp ∧ c4.sreg = c'.sreg ∧
    low (c4.reg .eax) = 0 ∧ c4.stores = c'.stores ++ [pcSec base ra c] ∧
    c4.mem = write c'.mem (pcSec base ra c) 4 (read c'.mem (countAddr base c) 2))
    ⟨?_, ?_, ?_, ?_, ?_, ?_⟩ ?_)))))
  · simp
  · simp
  · simp
  · simpa using hax
  · simp [hf.ebp, hf.ss, hf.ds, harg, pcSec]
  · simp [hf.ebp, hf.ss, hf.ds, harg, hcount, pcSec]
  intro c4 ⟨hesp, hebp, hsreg, heax4, hst4, hmem4⟩
  have hf4 : Frame base ra c 32 c4 := by
    refine hf.step (hesp.trans hf.esp) hebp hsreg ?_ ?_
    · rw [hmem4]
      exact write_agreesOn (hl.apart.symm.left_within (by simp) (by decide))
    · rw [hmem4]
      exact write_agreesOn (hl.apart.symm.left_within (by simp) (by decide))
  obtain ⟨u, hu, hres, heax, hum, hust⟩ := leave_restored devHlp base ra c hf4 fuel
  refine (congrArg (Wp _ _ _ _ _) hu).mpr (hQ u hres ?_ ?_ ?_)
  · rw [heax, heax4]
  · rw [hust, hst4]
  · rw [hum, hmem4, read_write_self32]

/-- What the code behind the label `@@error_2`, run from `c'`, does with the selector, the return
    code and the sector count that it finds in the frame -/
structure CleanedUp (base : BitVec 16 → Addr) (ra : BitVec 32) (c c' f f' u : Cpu) : Prop where
  restored : Restored base ra c u
  sel : low (f.reg .eax) = read c'.mem (selAddr base c) 2
  eax : u.reg .eax = if f'.cf then low (f'.reg .eax) else read c'.mem (rcAddr base c) 2
  written : pcSec base ra c ∈ u.stores ↔ f'.cf = false ∧ read c'.mem (rcAddr base c) 2 = 0
  count : f'.cf = false → read c'.mem (rcAddr base c) 2 = 0 →
    read u.mem (pcSec base ra c) 4 = read c'.mem (countAddr base c) 2

theorem cleanup_wp {p : Addr} {h : List DovolioEvent} (hl : Layout base ra c)
    (hf : Frame base ra c 32 c') (hst : pcSec base ra c ∉ c'.stores) (fuel : ℕ) :
    Wp (kernel base ra p) (fun _ _ => True)
      (fun tr res _ => ∃ f f' u, tr = h ++ [⟨(.freeGDTSelector, f), f'⟩] ∧ res = some u ∧
        (f'.cf = true → low (f'.reg .eax) ≠ 0) ∧ CleanedUp base ra c c' f f' u)
      h () (run (.stack32 base ra) (fsh32Dovolio devHlp) (fuel + 20)
        (after .error2 (fsh32Dovolio devHlp)) c') := by
  refine wp_kernel (fun f => Frame base ra c 32 f ∧ low (f.reg .eax) =
    read c'.mem (selAddr base c) 2 ∧
    f.mem = c'.mem ∧ f.stores = c'.stores) ⟨?_, ?_, ?_, ?_⟩ ?_
  · refine hf.step ?_ ?_ ?_ ?_ ?_ <;> simp [hf.esp]
  · simp [selAddr, hf.ebp, hf.ss]
  · simp
  · simp
  intro f ⟨hff, hax, hmem, hstf⟩ f' hk hfail
  have hkept := hk.kept hff
  have hfail' := hfail (by simp)
  have hrc := hkept.rc
  have hcount := hkept.count (by simp)
  have hst' : pcSec base ra c ∉ f'.stores := by
    rw [hkept.stores, hstf]
    exact hst
  rw [hmem] at hrc hcount
  have hax' : low ((f.push (.stack32 base ra) 4 ra).reg .eax) = read c'.mem (selAddr base c) 2 := by
    simpa using hax
  refine wp_ite (fun hcf => ?_) fun hcf => ?_
  · have hcf' : f'.cf = true := hcf
    obtain ⟨u, hu, hres, heax, hum, hust⟩ := leave_restored devHlp base ra c hkept.frame (fuel + 8)
    refine (congrArg (Wp _ _ _ _ _) hu).mpr ⟨_, f', u, rfl, rfl, hfail', hres, hax', ?_, ?_, ?_⟩
    · rw [heax, if_pos hcf']
    · simp [hust, hst', hcf']
    · simp [hcf']
  have hcf' : f'.cf = false := by simpa using hcf
  have hgetrc : f'.get (.stack32 base ra) (m 2 .ss ebp (-6)) = read c'.mem (rcAddr base c) 2 := by
    rw [← hrc]
    simp [rcAddr, hkept.frame.ebp, hkept.frame.ss]
  have htest : ∀ zf, Frame base ra c 32 { f'.set (.stack32 base ra)
      (f'.get (.stack32 base ra) (m 2 .ss ebp (-6))) (r16 eax) with cf := false, zf := zf } := by
    intro zf
    refine hkept.frame.step ?_ ?_ rfl ?_ ?_ <;> simp [hkept.frame.esp]
  -- behind `cmp ax, 0`
  refine wp_ite (fun hz => ?_) fun hz => ?_
  · have hz' : read c'.mem (rcAddr base c) 2 ≠ 0 := by
      rw [← hgetrc]
      simpa using hz
    obtain ⟨u, hu, hres, heax, hum, hust⟩ := leave_restored devHlp base ra c (htest _) (fuel + 5)
    refine (congrArg (Wp _ _ _ _ _) hu).mpr ⟨_, f', u, rfl, rfl, hfail', hres, hax', ?_, ?_, ?_⟩
    · rw [heax, if_neg (by simp [hcf']), ← hgetrc]
      simp
    · exact iff_of_false (by simpa [hust] using hst') fun h => hz' h.2
    · exact fun _ h => absurd h hz'
  · have hz' : read c'.mem (rcAddr base c) 2 = 0 := by
      rw [← hgetrc]
      simpa using hz
    have hax0 : low (f'.get (.stack32 base ra) (m 2 .ss ebp (-6))) = 0 := by
      rw [hgetrc, hz']
      exact low_zero
    refine store_count_wp hl (htest _) (by simpa using hax0) fuel fun u hres heax hust hum => ?_
    refine ⟨_, f', u, rfl, rfl, hfail', hres, hax', ?_, ?_, fun _ _ => hum.trans hcount⟩
    · rw [heax, if_neg (by simp [hcf']), hz']
    · simp [hust, hcf', hz']

/-- The return code of a call is stored in the frame. -/
theorem store_rc (hl : Layout base ra c) (hf : Frame base ra c 32 c')
    (hst : pcSec base ra c ∉ c'.stores) {v : BitVec 32} {c4 : Cpu}
    (hc : c4 = c'.set (.stack32 base ra) v (m 2 .ss ebp (-6))) : Frame base ra c 32 c4 ∧
      read c4.mem (selAddr base c) 2 = read c'.mem (selAddr base c) 2 ∧
      read c4.mem (rcAddr base c) 2 = low v ∧
      read c4.mem (countAddr base c) 2 = read c'.mem (countAddr base c) 2 ∧
      pcSec base ra c ∉ c4.stores := by
  rw [hc]
  refine ⟨?_, ?_, ?_, ?_, ?_⟩
  · refine hf.step ?_ ?_ ?_ ?_ ?_ <;> simp [hf.esp, hf.ebp, hf.ss]
  · simp [hf.ebp, hf.ss, selAddr]
  · simp [hf.ebp, hf.ss, rcAddr]
  · simp [hf.ebp, hf.ss, countAddr]
  · simp [hf.ebp, hf.ss, hst, hl.ne]

/-- `sel:off` -/
def farPtr (sel off : BitVec 32) : BitVec 32 := setLow (sel <<< 16) off

/-- `FSH_DOVOLIO` entered in `d`: the arguments are above a far 16-bit return address, the last
    one first. -/
structure DovolioFrame (base : BitVec 16 → Addr) (ra : BitVec 32) (c : Cpu) (sel : BitVec 32)
    (d : Cpu) : Prop where
  operation : read d.mem (base (d.sreg .ss) + (d.reg .esp + 20)) 2 =
    low (arg (.stack32 base ra) c 0)
  fAllowed : read d.mem (base (d.sreg .ss) + (d.reg .esp + 18)) 2 = low (arg (.stack32 base ra) c 1)
  hVPB : read d.mem (base (d.sreg .ss) + (d.reg .esp + 16)) 2 = low (arg (.stack32 base ra) c 2)
  pData : read d.mem (base (d.sreg .ss) + (d.reg .esp + 12)) 4 = farPtr sel 0
  pcSec : read d.mem (base (d.sreg .ss) + (d.reg .esp + 8)) 4 =
    farPtr ((c.sreg .ss).setWidth 32) (c.reg .esp + -8)
  iSec : read d.mem (base (d.sreg .ss) + (d.reg .esp + 4)) 4 = arg (.stack32 base ra) c 5

@[simp] theorem farPtr_zero (sel : BitVec 32) : farPtr sel 0#32 = sel <<< 16 := by
  unfold farPtr setLow
  grind

/-- The transfer with the selector `sel` and the sector count `n`, and the clean-up -/
structure Transferred (base : BitVec 16 → Addr) (ra : BitVec 32) (c : Cpu) (sel n : BitVec 32)
    (d d' f f' u : Cpu) : Prop where
  frame : DovolioFrame base ra c sel d
  asked : read d.mem (countAddr base c) 2 = n
  freed : low (f.reg .eax) = sel
  eax : u.reg .eax = if f'.cf then low (f'.reg .eax) else low (d'.reg .eax)
  written : pcSec base ra c ∈ u.stores ↔ f'.cf = false ∧ low (d'.reg .eax) = 0
  count : f'.cf = false → low (d'.reg .eax) = 0 →
    read u.mem (pcSec base ra c) 4 = read d'.mem (countAddr base c) 2

/-- The code between the label of the second call and `@@error_2` -/
theorem transfer_wp {p : Addr} {h : List DovolioEvent} (hl : Layout base ra c)
    (hf : Frame base ra c 32 c') (hst : pcSec base ra c ∉ c'.stores) :
    Wp (kernel base ra p) (fun _ _ => True)
      (fun tr res _ => ∃ d d' f f' u,
        tr = h ++ [⟨(.fshDovolio, d), d'⟩, ⟨(.freeGDTSelector, f), f'⟩] ∧ res = some u ∧
        Restored base ra c u ∧ (f'.cf = true → low (f'.reg .eax) ≠ 0) ∧
        Transferred base ra c (read c'.mem (selAddr base c) 2) (read c'.mem (countAddr base c) 2)
          d d' f f' u)
      h () (run (.stack32 base ra) (fsh32Dovolio devHlp) 41
        ((fsh32Dovolio devHlp).drop 23) c') := by
  have hop := hf.read_arg (i := 0) (by simp)
  have hal := hf.read_arg (i := 1) (by simp)
  have hvp := hf.read_arg (i := 2) (by simp)
  have hi := hf.read_arg (i := 5) (by simp)
  simp at hop hal hvp hi
  refine wp_kernel (fun d => Frame base ra c 50 d ∧
    DovolioFrame base ra c (read c'.mem (selAddr base c) 2) (d.push (.stack32 base ra) 4 ra) ∧
    read d.mem (selAddr base c) 2 = read c'.mem (selAddr base c) 2 ∧
    read (d.push (.stack32 base ra) 4 ra).mem (countAddr base c) 2 =
      read c'.mem (countAddr base c) 2 ∧
    pcSec base ra c ∉ d.stores) ⟨?_, ?_, ?_, ?_, ?_⟩ ?_
  · refine hf.step ?_ ?_ ?_ ?_ ?_
    · simp [hf.esp, BitVec.sub_eq_add_neg]
    · simp
    · simp
    · simp [hf.esp, hf.ss, BitVec.sub_eq_add_neg]
    · simp [hf.esp, hf.ss, BitVec.sub_eq_add_neg]
  · constructor
    · simp [hf.esp, hf.ss, hf.ebp, hop, BitVec.sub_eq_add_neg]
    · simp [hf.esp, hf.ss, hf.ebp, hal, BitVec.sub_eq_add_neg]
    · simp [hf.esp, hf.ss, hf.ebp, hvp, BitVec.sub_eq_add_neg]
    · simp [hf.esp, hf.ss, hf.ebp, selAddr, BitVec.sub_eq_add_neg]
    · simp [hf.esp, hf.ss, hf.ebp, farPtr, setLow_low, BitVec.sub_eq_add_neg]
    · simp [hf.esp, hf.ss, hf.ebp, hi, BitVec.sub_eq_add_neg]
  · simp [hf.esp, hf.ss, selAddr, BitVec.sub_eq_add_neg]
  · simp [hf.esp, hf.ss, countAddr, BitVec.sub_eq_add_neg]
  · simp [hf.esp, hf.ss, BitVec.sub_eq_add_neg, hst, hl.ne]
  rintro d ⟨hd, hframe, hsel, hasked, hstd⟩ d' hk -
  have hkept := hk.kept hd
  have hsel' := hkept.sel (by simp)
  have hstd' : pcSec base ra c ∉ d'.stores := by
    rw [hkept.stores]
    exact hstd
  obtain ⟨hf4, hsel4, hrc4, hcount4, hst4⟩ := store_rc hl hkept.frame hstd' rfl
  refine wp_mov (wp_label ?_)
  refine wp_mono (cleanup_wp hl hf4 hst4 1) ?_
  rintro tr res _ ⟨f, f', u, rfl, rfl, hfail, hres, hfax, heax, hwr, hcnt⟩
  rw [hrc4] at heax hwr hcnt
  refine ⟨_, d', f, f', u, List.append_assoc _ _ _, rfl, hres, hfail, hframe, hasked, ?_,
    ?_, ?_, ?_⟩
  · rw [hfax, hsel4, hsel', hsel]
  · simpa using heax
  · simpa using hwr
  · rw [← hcount4]
    simpa using hcnt

/-- The kernel is asked to store a selector in `[ebp - 2]`. -/
structure Allocates (base : BitVec 16 → Addr) (c a : Cpu) : Prop where
  es : a.sreg .es = c.sreg .ss
  edi : low (a.reg .edi) = low (c.reg .esp + -6)

/-- The kernel is asked to map `n` sectors at `pData` to the selector `sel`. -/
structure Maps (base : BitVec 16 → Addr) (ra : BitVec 32) (c : Cpu) (sel n : BitVec 32) (l : Cpu) :
    Prop where
  eax : low (l.reg .eax) = sel
  ebx : l.reg .ebx = arg (.stack32 base ra) c 3
  ecx : l.reg .ecx = n <<< 9

variable (base ra) in
/-- The three courses that the routine can take: the allocation fails, the mapping fails, or
    `FSH_DOVOLIO` is called. -/
inductive Course (c u : Cpu) : List DovolioEvent → Prop
  | refused {a a' : Cpu} : Allocates base c a → a'.cf = true → low (a'.reg .eax) ≠ 0 →
      u.reg .eax = low (a'.reg .eax) → pcSec base ra c ∉ u.stores →
      Course c u [⟨(.allocGDTSelector, a), a'⟩]
  | unmapped {a a' l l' f f' : Cpu} {sel n : BitVec 32} : Allocates base c a → a'.cf = false →
      sel = read a'.mem (selAddr base c) 2 → n = read c.mem (pcSec base ra c) 2 →
      Maps base ra c sel n l → l'.cf = true → low (l'.reg .eax) ≠ 0 → low (f.reg .eax) = sel →
      (f'.cf = true → low (f'.reg .eax) ≠ 0) →
      u.reg .eax = (if f'.cf then low (f'.reg .eax) else low (l'.reg .eax)) →
      pcSec base ra c ∉ u.stores →
      Course c u [⟨(.allocGDTSelector, a), a'⟩, ⟨(.linToGDTSelector, l), l'⟩,
        ⟨(.freeGDTSelector, f), f'⟩]
  | called {a a' l l' d d' f f' : Cpu} {sel n : BitVec 32} : Allocates base c a → a'.cf = false →
      sel = read a'.mem (selAddr base c) 2 → n = read c.mem (pcSec base ra c) 2 →
      Maps base ra c sel n l → l'.cf = false → (f'.cf = true → low (f'.reg .eax) ≠ 0) →
      Transferred base ra c sel n d d' f f' u →
      Course c u [⟨(.allocGDTSelector, a), a'⟩, ⟨(.linToGDTSelector, l), l'⟩,
        ⟨(.fshDovolio, d), d'⟩, ⟨(.freeGDTSelector, f), f'⟩]

theorem exec_wp (hl : Layout base ra c) : Wp (kernel base ra (pcSec base ra c)) (fun _ _ => True)
    (fun tr res _ => ∃ u, res = some u ∧ Restored base ra c u ∧ Course base ra c u tr)
    [] () (exec devHlp base ra c) := by
  refine wp_kernel (fun a => Frame base ra c 32 a ∧
    Allocates base c (a.push (.stack32 base ra) 4 ra) ∧
    AgreesOn c.mem (a.push (.stack32 base ra) 4 ra).mem (pcSec base ra c) 4 ∧
    pcSec base ra c ∉ a.stores) ⟨?_, ?_, ?_, ?_⟩ ?_
  · constructor <;> simp [pushed]
  · constructor <;> simp
  · simp [hl.apart_offset]
  · simp [hl.stores, hl.ne]
  intro a ⟨haf, haa, hapc, hast⟩ a' hk hafail
  have hkept := hk.kept haf
  have hpc := (hapc.trans (hk.count rfl)).within ((within_self _ 2 4).mpr (by decide))
  have hfail := hafail (by simp)
  have hast' : pcSec base ra c ∉ a'.stores := by
    rw [hkept.stores]
    exact hast
  refine wp_ite (fun acf => ?_) fun acf => ?_
  · have acf' : a'.cf = true := acf
    obtain ⟨u, hu, hres, hax, -, hst⟩ := leave_restored devHlp base ra c hkept.frame 43
    refine (congrArg (Wp _ _ _ _ _) hu).mpr ⟨u, rfl, hres, .refused haa acf' (hfail acf') hax ?_⟩
    rw [hst]
    exact hast'
  have acf' : a'.cf = false := by simpa using acf
  have harg := hkept.frame.read_arg (i := 3) (by simp)
  have harg' := hkept.frame.read_arg (i := 4) (by simp)
  have hn := read_congr hpc
  have hebp := hkept.frame.ebp
  have hss := hkept.frame.ss
  have hds := hkept.frame.ds
  simp [pcSec] at harg harg' hn
  refine wp_kernel (fun l => Frame base ra c 32 l ∧
    Maps base ra c (read a'.mem (selAddr base c) 2) (read c.mem (pcSec base ra c) 2)
      (l.push (.stack32 base ra) 4 ra) ∧
    read l.mem (selAddr base c) 2 = read a'.mem (selAddr base c) 2 ∧
    read l.mem (countAddr base c) 2 = read c.mem (pcSec base ra c) 2 ∧
    pcSec base ra c ∉ l.stores) ⟨?_, ?_, ?_, ?_, ?_⟩ ?_
  · refine hkept.frame.step ?_ ?_ ?_ ?_ ?_ <;> simp [hkept.frame.esp, hebp, hss]
  · constructor
    · simp [hebp, hss, selAddr]
    · simp [hebp, hss, harg]
    · simp [hebp, hss, hds, harg', hn, pcSec]
  · simp [hebp, hss, selAddr]
  · simp [hebp, hss, hds, harg', hn, pcSec, countAddr]
  · simp [hebp, hss, hast', hl.ne]
  intro l ⟨hlf, hlm, hlsel, hlcount, hlst⟩ l' hk' hlfail
  have hkept' := hk'.kept hlf
  have hsel' := (hkept'.sel (by simp)).trans hlsel
  have hcount' := (hkept'.count (by simp)).trans hlcount
  have hlst' : pcSec base ra c ∉ l'.stores := by
    rw [hkept'.stores]
    exact hlst
  -- the result of the mapping goes into the frame before the carry flag is tested
  obtain ⟨hf4, hsel4, hrc4, hcount4, hst4⟩ := store_rc hl hkept'.frame hlst'
    (v := l'.get (.stack32 base ra) (r16 eax)) rfl
  rw [hsel'] at hsel4
  rw [hcount'] at hcount4
  refine wp_mov_jc (fun lcf => ?_) fun lcf => ?_
  · refine wp_mono (cleanup_wp hl hf4 hst4 21) ?_
    rintro tr res _ ⟨f, f', u, rfl, rfl, hffail, hres, hfax, heax, hwr, -⟩
    have hne := hlfail (by simp) lcf
    rw [hrc4] at heax hwr
    rw [hsel4] at hfax
    refine ⟨u, rfl, hres, .unmapped haa acf' rfl rfl hlm lcf hne hfax hffail ?_ ?_⟩
    · simpa using heax
    · rw [hwr]
      rintro ⟨-, h0⟩
      exact hne (by simpa using h0)
  · refine wp_mono (transfer_wp hl hf4 hst4) ?_
    rintro tr res _ ⟨d, d', f, f', u, rfl, rfl, hres, hffail, ht⟩
    rw [hsel4, hcount4] at ht
    exact ⟨u, rfl, hres, .called haa acf' rfl rfl hlm lcf hffail ht⟩

theorem course {tr : List DovolioEvent} {res : Option Cpu} (hl : Layout base ra c)
    (h : Runs (kernel base ra (pcSec base ra c)) () (exec devHlp base ra c) tr res ()) :
    ∃ u, res = some u ∧ Restored base ra c u ∧ Course base ra c u tr :=
  ((exec_wp hl).sound h).2

/-- The variables of the routine can be addressed with 16-bit offsets. -/
theorem Layout.low_offset (hl : Layout base ra c) {k : ℕ} (hk : k ≤ 54) :
    low (c.reg .esp + -BitVec.ofNat 32 k) = c.reg .esp + -BitVec.ofNat 32 k := by
  have := hl.stack
  apply BitVec.eq_of_toNat_eq
  rw [toNat_low, BitVec.toNat_add, BitVec.toNat_neg, BitVec.toNat_ofNat]
  omega

/-- The kernel stores the selector in the routine's own variable. -/
theorem Allocates.selAddr {a : Cpu} (hl : Layout base ra c) (ha : Allocates base c a) :
    base (a.sreg .es) + low (a.reg .edi) = selAddr base c := by
  have hlow : low (c.reg .esp + -6) = c.reg .esp + -6 := hl.low_offset (k := 6) (by decide)
  rw [ha.es, ha.edi, hlow, Dovolio.selAddr]

/-! ## Resources and result -/

/-- `FSH_DOVOLIO` succeeds with AX = 0, the DevHlp services with the carry flag clear. -/
def Succeeded (e : DovolioEvent) : Prop :=
  match e.1.1 with
  | .fshDovolio => low (e.2.reg .eax) = 0
  | _ => e.2.cf = false

/-- The calls of a run without a failure, in their order -/
def allCalls : List Call := [.allocGDTSelector, .linToGDTSelector, .fshDovolio, .freeGDTSelector]

/-- What was allocated is freed once and nothing else is, `FSH_DOVOLIO` gets the caller's
    arguments and the selector once that is mapped, a run in which no call fails makes all four
    and succeeds, the result says whether all four calls succeeded, `*pcSec` is stored to only
    then, and the registers come back. -/
structure Discipline (base : BitVec 16 → Addr) (ra : BitVec 32) (c : Cpu) (tr : List DovolioEvent)
    (u : Cpu) : Prop where
  freed : freed .freeGDTSelector tr = granted base .allocGDTSelector tr
  transfer : Always (fun pre d => d.1.1 = .fshDovolio → ∃ l ∈ pre, l.1.1 = .linToGDTSelector ∧
      l.2.cf = false ∧ granted base .allocGDTSelector pre = [low (l.1.2.reg .eax)] ∧
      DovolioFrame base ra c (low (l.1.2.reg .eax)) d.1.2) tr
  succeeds : (∀ e ∈ tr, Succeeded e) →
    tr.map (fun e => e.1.1) = allCalls ∧ u.reg .eax = 0 ∧ pcSec base ra c ∈ u.stores
  result : u.reg .eax = 0 ↔ ∀ x, ∃ e ∈ tr, e.1.1 = x ∧ Succeeded e
  written : pcSec base ra c ∈ u.stores ↔ u.reg .eax = 0
  count : u.reg .eax = 0 → ∃ d ∈ tr, d.1.1 = .fshDovolio ∧
    read u.mem (pcSec base ra c) 4 = read d.2.mem (countAddr base c) 2
  restored : Restored base ra c u

theorem discipline_of_course {u : Cpu} {tr : List DovolioEvent} (hl : Layout base ra c)
    (hu : Restored base ra c u) (h : Course base ra c u tr) : Discipline base ra c tr u := by
  cases h with
  | refused ha acf ane heax hst =>
    have h0 : u.reg .eax ≠ 0 := by rwa [heax]
    refine ⟨?_, ?_, fun hok => ?_, ?_, ?_, fun h => absurd h h0, hu⟩
    · simp [freed, granted, acf]
    · simp [always_cons, always_nil]
    · simp [Succeeded, acf] at hok
    · refine iff_of_false h0 fun h => ?_
      simpa [Succeeded, acf] using h .allocGDTSelector
    · exact iff_of_false hst h0
  | @unmapped a a' l l' f f' sel n ha acf hsel hn hm lcf lne hfax hfail heax hst =>
    have h0 : u.reg .eax ≠ 0 := by
      rw [heax]
      split_ifs with hcf
      · exact hfail hcf
      · exact lne
    refine ⟨?_, ?_, fun hok => ?_, ?_, ?_, fun h => absurd h h0, hu⟩
    · simp [freed, granted, acf, hfax, hsel, ha.selAddr hl]
    · simp [always_cons, always_nil]
    · simp [Succeeded, lcf] at hok
    · refine iff_of_false h0 fun h => ?_
      simpa [Succeeded, lcf] using h .linToGDTSelector
    · exact iff_of_false hst h0
  | @called a a' l l' d d' f f' sel n ha acf hsel hn hm lcf hfail ht =>
    have h0 : u.reg .eax = 0 ↔ f'.cf = false ∧ low (d'.reg .eax) = 0 := by
      rw [ht.eax]
      cases hcf : f'.cf with
      | false => simp
      | true => simpa using hfail hcf
    refine ⟨?_, ?_, fun hok => ⟨rfl, ?_⟩, ?_, ?_, ?_, hu⟩
    · simp [freed, granted, acf, ht.freed, hsel, ha.selAddr hl]
    · simp [always_cons, always_nil, granted, acf, lcf, ha.selAddr hl, hm.eax, hsel]
      rw [← hsel]
      exact ht.frame
    · simp [Succeeded] at hok
      obtain ⟨-, -, hdax, hfcf⟩ := hok
      exact ⟨h0.mpr ⟨hfcf, hdax⟩, ht.written.mpr ⟨hfcf, hdax⟩⟩
    · rw [h0]
      constructor
      · intro ⟨hfcf, hdax⟩ x
        cases x <;> simp [Succeeded, acf, lcf, hfcf, hdax]
      · intro h
        have hf := h .freeGDTSelector
        have hd := h .fshDovolio
        simp [Succeeded] at hf hd
        exact ⟨hf, hd⟩
    · rw [h0]
      exact ht.written
    · intro h
      obtain ⟨hfcf, hdax⟩ := h0.mp h
      exact ⟨⟨(.fshDovolio, d), d'⟩, by simp, rfl, ht.count hfcf hdax⟩

/-! ## The sector count -/

/-- A kernel in which every call succeeds. -/
def succeeding (op : Call × Cpu) : Cpu :=
  { (op.2.addSp (.stack32 (fun _ => 0) 0) (BitVec.ofNat 32 op.1.popped)).setReg .eax 0 with
    cf := false }

theorem kernel_succeeding (p : Addr) (op : Call × Cpu) :
    kernel base ra p () op (succeeding op) () := by
  refine ⟨⟨⟨?_, ?_, ?_, ?_⟩, rfl, ?_⟩, ?_⟩
  · simp [succeeding]
  · simp [succeeding]
  · exact fun _ _ => rfl
  · exact fun _ _ => AgreesOn.refl _ _ _
  · exact fun _ => AgreesOn.refl _ _ _
  · simp [succeeding]

theorem runs_succeeding (devHlp : Call → BitVec 32) (p : Addr) (c : Cpu) : ∃ tr res,
    Runs (kernel base ra p) () (exec devHlp base ra c) tr res () ∧
      ∀ e ∈ tr, e.2.cf = false ∧ e.2.reg .eax = 0 := by
  have hrun := Runs.answer (E := fun _ op r _ => r = succeeding op) (f := succeeding) (fun _ => rfl)
    (exec devHlp base ra c)
  refine ⟨_, _, hrun.mono _ fun _ op r _ hr => ?_, fun e he => ?_⟩
  · rw [hr]
    exact kernel_succeeding p op
  · obtain ⟨⟨⟩, ⟨⟩, hr⟩ := hrun.forall_env e he
    rw [hr]
    exact ⟨rfl, by simp [succeeding]⟩

/-- A caller with its stack at 0x8000, whose `*pcSec` is `n`, at address 0. -/
def sampleCpu (n : BitVec 32) : Cpu :=
  ⟨fun _ => 0x8000, fun _ => 0, false, false, 0, write (fun _ => 0) 0 4 n, []⟩

theorem sample_pcSec (n : BitVec 32) : pcSec (fun _ => 0) 0 (sampleCpu n) = 0 := by
  have harg :
      read (write (fun _ => 0) 0 4 n) (0 + (0x8000 + BitVec.ofNat 32 (4 + 4 * 4))) 4 = 0 := by
    rw [read_write_of_apart (by decide)]
    rfl
  exact (zero_add _).trans harg

theorem sample_layout (n : BitVec 32) : Layout (fun _ => 0) 0 (sampleCpu n) := by
  refine ⟨?_, ?_, rfl⟩
  · rw [sample_pcSec]
    have hap : Apart (0 : Addr) 4 (0 + (0x8000 + -54)) 82 := by decide
    exact hap
  · simp [sampleCpu]

end Dovolio

open Dovolio

variable {devHlp : Call → BitVec 32} {base : BitVec 16 → Addr} {ra : BitVec 32}

/-- **Resource and result discipline of `fsh32_dovolio`.** -/
theorem dovolio_discipline {c : Cpu} (hl : Layout base ra c) (tr : List DovolioEvent)
    (res : Option Cpu)
    (h : Runs (Dovolio.kernel base ra (pcSec base ra c)) () (exec devHlp base ra c) tr res ()) :
    ∃ u, res = some u ∧ Discipline base ra c tr u := by
  obtain ⟨u, hres, hu, hcourse⟩ := course hl h
  exact ⟨u, hres, discipline_of_course hl hu hcourse⟩

/-- A transfer of one sector in which every call succeeds. -/
theorem dovolio_discipline_sample : ∃ tr u,
    Runs (Dovolio.kernel (fun _ => 0) 0 (pcSec (fun _ => 0) 0 (Dovolio.sampleCpu 1))) ()
      (exec (fun _ => 0) (fun _ => 0) 0 (Dovolio.sampleCpu 1)) tr (some u) () ∧
    Discipline (fun _ => 0) 0 (Dovolio.sampleCpu 1) tr u ∧ tr.map (fun e => e.1.1) = allCalls ∧
    u.reg .eax = 0 ∧ pcSec (fun _ => 0) 0 (Dovolio.sampleCpu 1) ∈ u.stores := by
  obtain ⟨tr, res, h, hok⟩ := runs_succeeding (fun _ => 0)
    (pcSec (fun _ => 0) 0 (Dovolio.sampleCpu 1)) (Dovolio.sampleCpu 1)
  obtain ⟨u, rfl, hd⟩ := dovolio_discipline (sample_layout 1) tr res h
  have hsucceeded : ∀ e ∈ tr, Succeeded e := by
    rintro ⟨⟨x, c1⟩, c2⟩ he
    obtain ⟨hcf, heax⟩ := hok _ he
    cases x with
    | fshDovolio => exact (congrArg low heax).trans low_zero
    | _ => exact hcf
  exact ⟨tr, u, h, hd, hd.succeeds hsucceeded⟩

end Mwdd32.Fsh32
