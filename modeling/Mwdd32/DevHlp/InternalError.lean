import Mwdd32.Lib.I386

/-!
# DevHlp32_InternalError

`DevHlp32_InternalError` (`devhlp32/DevHlp32_InternalError.asm`) copies the message of a panic
to the 16-bit buffer `panic_buffer` and calls the kernel, which shows it and stops the
system.

* `keepsBeginning_iff`: the kernel gets the beginning of the message, up to the 511 bytes that
  fit, unless the message is longer: the length is then taken modulo 512.
-/

namespace Mwdd32.DevHlp

open ByteMem Interaction I386 Opnd Reg

namespace InternalError

/-- The kernel service -/
inductive Call
  | internalError
  deriving DecidableEq

/-- The constants that the assembler and the linker put into the code. -/
structure Consts where
  /-- the number `DevHlp_InternalError` -/
  devHlp : BitVec 32
  /-- `seg DATA16` -/
  data16 : BitVec 16
  /-- the offset of `panic_buffer` in it -/
  panicBuffer : BitVec 16

variable (K : Consts)

/-- The code in front of the copy and the copy (lines 63–71). -/
def copyMessage : Code Empty Call :=
  [.enter 4 0,
   .mov (r16 eax) (imm (K.data16.setWidth 32)), .mov (s .es) (r16 eax),
   .mov (r16 eax) (imm (K.panicBuffer.setWidth 32)), .mov (r edi) (r16 eax),
   .mov (r esi) (m 4 .ss ebp 8), .mov (r ecx) (m 4 .ss ebp 12), .alu .and (r ecx) (imm 511),
   .repMovsb]

/-- The call of the kernel (lines 73–81), which does not return. -/
def callKernel : Code Empty Call :=
  [.mov (r edi) (m 4 .ss ebp 12), .alu .and (r edi) (imm 511),
   .push 4 (s .ds), .pop 4 (s .es),
   .mov (r16 eax) (imm (K.data16.setWidth 32)), .mov (s .ds) (r16 eax),
   .mov (r16 esi) (imm (K.panicBuffer.setWidth 32)), .mov (lo edx) (imm K.devHlp),
   .call 1 .internalError]

/-- `DevHlp32_InternalError.asm`, lines 48–84 -/
def devHlp32InternalError : Code Empty Call := copyMessage K ++ callKernel K

variable (base : BitVec 16 → Addr) (ra : BitVec 32)

/-- A call of `DevHlp32_InternalError` -/
def exec (c : Cpu) : Prog (Call × Cpu) (fun _ => Cpu) (Option Cpu) :=
  run (.stack32 base ra) (devHlp32InternalError K) 20 (devHlp32InternalError K) c

/-- The address of `panic_buffer`. -/
def Consts.buffer : Addr := base K.data16 + K.panicBuffer.setWidth 32

/-- The arguments `msg` and `msglen` -/
def msg (c : Cpu) : Addr := base (c.sreg .ds) + arg (.stack32 base ra) c 0

/-- The length argument -/
def msglen (c : Cpu) : ℕ := (arg (.stack32 base ra) c 1).toNat

/-- The bytes of the message that are copied are neither in `panic_buffer` nor in the stack
    bytes that the routine uses, and these are not in `panic_buffer`. -/
structure Layout (c : Cpu) : Prop where
  stack : Apart (K.buffer base) 512 (base (c.sreg .ss) + (c.reg .esp + -8)) 20
  buffer : Apart (msg base ra c) (msglen base ra c % 512) (K.buffer base) 512
  msgStack : Apart (msg base ra c) (msglen base ra c % 512)
    (base (c.sreg .ss) + (c.reg .esp + -4)) 4

/-- What the kernel is called with in `a`: the length of the text at DS:SI is in DI. -/
def textlen (a : Cpu) : ℕ := (low (a.reg .edi)).toNat

/-- The routine was entered in `c` and calls the kernel in `a`: it has stored only to
    `panic_buffer`, and the text is the beginning of the message. -/
structure KeepsBeginning (c a : Cpu) : Prop where
  stores : ∃ l, a.stores = c.stores ++ l ∧ ∀ x ∈ l, (x - K.buffer base).toNat < 512
  text : ∀ i < textlen a, a.mem (base (a.sreg .ds) + low (a.reg .esi) + BitVec.ofNat 32 i) =
    c.mem (msg base ra c + BitVec.ofNat 32 i)
  short : textlen a ≤ msglen base ra c
  long : min (msglen base ra c) 511 ≤ textlen a

/-- The call of the routine that was entered in `c` keeps the beginning of the message. -/
def Keeps (c : Cpu) : Prop :=
  ∃ a k, exec K base ra c = .call (.internalError, a) k ∧ KeepsBeginning K base ra c a

variable {K base ra} {c c' : Cpu}

attribute [local simp] devHlp32InternalError copyMessage callKernel BitVec.add_assoc
  Function.update_apply low_selector

theorem and_511 (n : ℕ) : n &&& 511 = n % 512 := Nat.and_two_pow_sub_one_eq_mod n 9

variable (K base ra) in
/-- The routine was entered in `c` and is at the copy in `c'`. -/
structure AtCopy (c c' : Cpu) : Prop where
  esp : c'.reg .esp = c.reg .esp + -4
  ebp : c'.reg .ebp = c.reg .esp + -4
  ss : c'.sreg .ss = c.sreg .ss
  ds : c'.sreg .ds = c.sreg .ds
  dst : lin (.stack32 base ra) c' .es (c'.reg .edi) = K.buffer base
  src : lin (.stack32 base ra) c' .ds (c'.reg .esi) = msg base ra c
  count : (c'.reg .ecx).toNat = msglen base ra c % 512
  mem : c'.mem = write c.mem (base (c.sreg .ss) + (c.reg .esp + -4)) 4 (c.reg .ebp)
  stores : c'.stores = c.stores

variable (K base ra c) in
theorem run_copyMessage : ∃ c', AtCopy K base ra c c' ∧
    exec K base ra c = run (.stack32 base ra) (devHlp32InternalError K) 12
      (.repMovsb :: callKernel K) c' := by
  refine ⟨_, ⟨?_, ?_, ?_, ?_, ?_, ?_, ?_, ?_, ?_⟩, rfl⟩
  · simp
  · simp
  · simp
  · simp
  · simp [Consts.buffer]
  · simp [msg]
  · simp [msglen, and_511]
  · simp
  · simp

variable (K base ra) in
/-- The call of the kernel. -/
theorem run_callKernel (c' : Cpu) : ∃ a k,
    run (.stack32 base ra) (devHlp32InternalError K) 11 (callKernel K) c' =
      .call (.internalError, a) k ∧
      base (a.sreg .ds) + low (a.reg .esi) = K.buffer base ∧
      a.stores = c'.stores ∧
      textlen a = (read c'.mem (base (c'.sreg .ss) + (c'.reg .ebp + 12)) 4).toNat % 512 ∧
      ∀ b n, Apart b n (base (c'.sreg .ss) + (c'.reg .esp + -4)) 4 → AgreesOn c'.mem a.mem b n := by
  refine ⟨_, _, rfl, ?_, ?_, ?_, ?_⟩
  · simp [Consts.buffer]
  · simp
  · simp [textlen, toNat_low, and_511]
    omega
  · intro b n h
    simp
    exact (write_agreesOn h).trans (write_agreesOn h)

/-- The routine calls the kernel with the first bytes of the message, their number taken
    modulo 512. -/
theorem exec_eq (hl : Layout K base ra c) : ∃ a k, exec K base ra c = .call (.internalError, a) k ∧
    textlen a = msglen base ra c % 512 ∧
    (∃ l, a.stores = c.stores ++ l ∧ ∀ x ∈ l, (x - K.buffer base).toNat < 512) ∧
    ∀ i < textlen a, a.mem (base (a.sreg .ds) + low (a.reg .esi) + BitVec.ofNat 32 i) =
      c.mem (msg base ra c + BitVec.ofNat 32 i) := by
  obtain ⟨c1, h1, hrun⟩ := run_copyMessage K base ra c
  have hn : msglen base ra c % 512 < 512 := Nat.mod_lt _ (by decide)
  obtain ⟨hreg, -, -, hsreg, hmem, hstores⟩ :=
    moved_repMovsb (.stack32 base ra) h1.count h1.dst.symm
    h1.src.symm (hl.buffer.mono le_rfl hn.le)
  obtain ⟨a, k, hcall, htext, hastores, hlen, hkeep⟩ :=
    run_callKernel K base ra (c1.repMovsb (.stack32 base ra))
  have hss : (c1.repMovsb (.stack32 base ra)).sreg .ss = c.sreg .ss := by rw [hsreg, h1.ss]
  have hebp : (c1.repMovsb (.stack32 base ra)).reg .ebp = c.reg .esp + -4 := by
    rw [hreg .ebp (by decide) (by decide) (by decide), h1.ebp]
  have hesp : (c1.repMovsb (.stack32 base ra)).reg .esp = c.reg .esp + -4 := by
    rw [hreg .esp (by decide) (by decide) (by decide), h1.esp]
  rw [hss, hebp, hmem] at hlen
  rw [hss, hesp, hmem] at hkeep
  have hlenAddr : base (c.sreg .ss) + (c.reg .esp + -4 + 12) =
      base (c.sreg .ss) + (c.reg .esp + 8) := by
    ring
  have hlenApart : Apart (base (c.sreg .ss) + (c.reg .esp + 8)) 4 (K.buffer base) 512 :=
    hl.stack.symm.left_within (by simp) (by decide)
  have htextlen : textlen a = msglen base ra c % 512 := by
    rw [hlen, hlenAddr, (copy_agreesOn (hlenApart.mono le_rfl hn.le)).read_eq (by simp), h1.mem,
      msglen]
    simp
  have hbufferApart : Apart (K.buffer base) 512 (base (c.sreg .ss) + (c.reg .esp + -4 + -4)) 4 := by
    have hwithin : Within (base (c.sreg .ss) + (c.reg .esp + (-4 + -4))) 4
        (base (c.sreg .ss) + (c.reg .esp + -8)) 20 := by simp
    rw [BitVec.add_assoc (c.reg .esp)]
    exact hl.stack.right_within hwithin (by decide)
  refine ⟨a, k, hrun.trans hcall, htextlen, ?_, ?_⟩
  · refine ⟨_, by rw [hastores, hstores, h1.stores], ?_⟩
    intro x hx
    obtain ⟨i, hi, rfl⟩ := List.mem_map.mp hx
    have hi' := List.mem_range.mp hi
    rw [toNat_add_ofNat_sub_self _ (by omega)]
    omega
  · intro i hi
    rw [htextlen] at hi
    rw [htext, hkeep (K.buffer base) 512 hbufferApart i (by omega),
      copy_inside _ _ _ hi (by omega), h1.mem]
    exact write_of_le (hl.msgStack.le_sub hi)

/-- What the routine does right for all lengths, and what depends on the length. -/
theorem keeps_iff (hl : Layout K base ra c) :
    Keeps K base ra c ↔ min (msglen base ra c) 511 ≤ msglen base ra c % 512 := by
  obtain ⟨a, k, hcall, hlen, hstores, htext⟩ := exec_eq hl
  constructor
  · intro ⟨a', k', hcall', hkeeps⟩
    rw [hcall] at hcall'
    cases hcall'
    rw [← hlen]
    exact hkeeps.long
  · intro h
    exact ⟨a, k, hcall, hstores, htext, hlen ▸ Nat.mod_le _ _, hlen ▸ h⟩

/-- A caller with its stack at 0x8000 and a message of `len` bytes at 0x4000. -/
def sampleCpu (len : BitVec 32) : Cpu :=
  ⟨fun _ => 0x8000, fun _ => 0, false, false, 0,
    write (write (fun _ => 0) 0x8004 4 0x4000) 0x8008 4 len, []⟩

/-- `DATA16` is at 0x1000, with `panic_buffer` at its start. -/
def sampleConsts : Consts := { devHlp := 0x2B, data16 := 0x10, panicBuffer := 0 }

/-- A data segment at 0x1000, for selector 0x10 -/
def sampleBase (s : BitVec 16) : Addr := if s = 0x10 then 0x1000 else 0

theorem sample_layout {len : BitVec 32} (hlen : len = 511 ∨ len = 512) :
    Layout sampleConsts sampleBase 0 (sampleCpu len) := by
  rcases hlen with rfl | rfl
  · constructor <;> decide
  · constructor <;> decide

end InternalError

open InternalError

/-- **Panic messages keep their beginning** if and only if they fit, or their length is 511
    modulo 512. -/
theorem keepsBeginning_iff {K : Consts} {base : BitVec 16 → Addr} {ra : BitVec 32} {c : Cpu}
    (hl : Layout K base ra c) :
    Keeps K base ra c ↔ msglen base ra c ≤ 511 ∨ msglen base ra c % 512 = 511 := by
  rw [keeps_iff hl]
  omega

/-- A message of 511 bytes. -/
theorem keepsBeginning_sample : Keeps sampleConsts sampleBase 0 (InternalError.sampleCpu 511) :=
  (keepsBeginning_iff (sample_layout (.inl rfl))).mpr (.inl (by decide))

/-- Nothing is shown of a message of 512 bytes. -/
theorem not_keeps_sample : ¬ Keeps sampleConsts sampleBase 0 (InternalError.sampleCpu 512) := by
  rw [keeps_iff (sample_layout (.inr rfl))]
  decide

end Mwdd32.DevHlp
