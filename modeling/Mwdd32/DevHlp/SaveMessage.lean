import Mwdd32.DevHlp.GdtSelectors

/-!
# DevHlp32_SaveMessage

`DevHlp32_SaveMessage` (`devhlp32/DevHlp32_SaveMessage.asm`) maps the caller's text to a GDT
selector for the 16-bit service. It makes four kernel calls and swaps DS and ES between
the second and the third.

* `discipline_iff`: the selector is freed, through the right pointer, unless
  `LinToGDTSelector` fails: the clean-up then runs with DS and ES not swapped.
* `reports_failure_iff`: the result says whether all calls succeeded, unless
  `Save_Message` fails: its error is not kept.
-/

namespace Mwdd32.DevHlp

open ByteMem Interaction I386 Opnd Reg

namespace SaveMessage

/-- The kernel calls, by their `thunk16$` labels 1 to 4 -/
inductive Call
  | allocGDTSelector | linToGDTSelector | saveMessage | freeGDTSelector
  deriving DecidableEq

/-- The labels `@@error` and `@@error_2` -/
inductive Label
  | error | error2
  deriving DecidableEq

/-- The constants that the assembler and the linker put into the code. -/
structure Consts where
  /-- the numbers of the DevHelp services -/
  devHlp : Call → BitVec 32
  /-- `seg DATA16` -/
  data16 : BitVec 16
  /-- the offsets of `msgid` and `msg_seg` in it -/
  msgid : BitVec 16
  msgSeg : BitVec 16
  /-- the offset of `DevHelp2` in FLAT -/
  devHelp2 : BitVec 32

variable (K : Consts)

/-- `DevHlp32_SaveMessage.asm`, lines 88–162 -/
def devHlp32SaveMessage : Code Label Call :=
  [.enter 4 10, .push 4 (s .ds), .push 4 (s .es), .push 4 (r ebx), .push 4 (r esi), .push 4 (r edi),
   .mov (m 2 .ss ebp (-10)) (imm 0),
   .mov (r16 eax) (imm (K.data16.setWidth 32)), .mov (s .es) (r16 eax),
   .mov (r16 edi) (imm (K.msgSeg.setWidth 32)), .mov (r ecx) (imm 1),
   .mov (lo edx) (imm (K.devHlp .allocGDTSelector)), .call 1 .allocGDTSelector,
   .jcc .carry .error,
   .mov (r16 eax) (abs 2 .es (K.msgSeg.setWidth 32)), .mov (r ebx) (m 4 .ss ebp 8),
   .mov (r ecx) (m 4 .ss ebp 12),
   .mov (lo edx) (imm (K.devHlp .linToGDTSelector)), .call 1 .linToGDTSelector,
   .mov (m 2 .ss ebp (-10)) (r16 eax),
   .jcc .carry .error2,
   .mov (r16 eax) (s .es), .mov (r16 ebx) (s .ds), .mov (s .ds) (r16 eax), .mov (s .es) (r16 ebx),
   .mov (r16 esi) (imm (K.msgid.setWidth 32)), .alu .xor (r16 ebx) (r16 ebx),
   .mov (lo edx) (imm (K.devHlp .saveMessage)), .call 1 .saveMessage,
   .jcc .carry .error2,
   .mov (m 2 .ss ebp (-10)) (r16 eax),
   .label .error2,
   .mov (r16 eax) (abs 2 .ds (K.msgSeg.setWidth 32)), .push 4 (s .es), .pop 4 (s .ds),
   .mov (lo edx) (imm (K.devHlp .freeGDTSelector)), .call 1 .freeGDTSelector,
   .jcc .carry .error,
   .mov (r16 eax) (m 2 .ss ebp (-10)), .alu .cmp (r16 eax) (imm 0), .jcc .nonzero .error,
   .label .error,
   .mov (r eax) (r16 eax),
   .pop 4 (r edi), .pop 4 (r esi), .pop 4 (r ebx), .pop 4 (s .es), .pop 4 (s .ds), .leave 4, .ret 0]

variable (base : BitVec 16 → Addr) (ra : BitVec 32)

/-- A call of `DevHlp32_SaveMessage` -/
def exec (c : Cpu) : Prog (Call × Cpu) (fun _ => Cpu) (Option Cpu) :=
  run (.stack32 base ra) (devHlp32SaveMessage K) 60 (devHlp32SaveMessage K) c

/-- The segment register through which the thunk of a call reads the pointer `DevHelp2`. -/
def Call.pointerSeg : Call → SReg
  | .saveMessage => .es
  | _ => .ds

/-- The address of the variable in DATA16 that the kernel stores the selector in. -/
def Consts.selAddr : Addr := base K.data16 + K.msgSeg.setWidth 32

/-- The kernel pops its return address, keeps EBP, the segment registers and the 46 bytes of the
    frame, and stores nothing in `msg_seg` except when it allocates. -/
structure KernelCall (x : Call) (c1 c2 : Cpu) : Prop where
  returns : Returns (.stack32 base ra) 4 [.ds, .es, .ss] [(0, 46)] c1 c2
  msgSeg : x ≠ .allocGDTSelector → AgreesOn c1.mem c2.mem (K.selAddr base) 2

/-- The kernel behind the routine -/
def kernel : Env Unit (Call × Cpu) (fun _ => Cpu) :=
  fun _ op c2 _ => KernelCall K base ra op.1 op.2 c2

/-- `msg_seg` is not in the stack bytes that the routine uses. -/
def Layout (c : Cpu) : Prop :=
  Apart (K.selAddr base) 2 (base (c.sreg .ss) + (c.reg .esp + -38)) 38

/-- The registers that the routine found in `c` are back in `u`, and it has returned. -/
structure Restored (c u : Cpu) : Prop where
  ds : u.sreg .ds = c.sreg .ds
  es : u.sreg .es = c.sreg .es
  ebx : u.reg .ebx = c.reg .ebx
  esi : u.reg .esi = c.reg .esi
  edi : u.reg .edi = c.reg .edi
  ebp : u.reg .ebp = c.reg .ebp
  esp : u.reg .esp = c.reg .esp + 4
  eip : u.eip = c.top (.stack32 base ra) 4

/-- The routine was entered in `c`, has set up its frame and got to `c'`. -/
structure Frame (c c' : Cpu) : Prop where
  esp : c'.reg .esp = c.reg .esp + -34
  ebp : c'.reg .ebp = c.reg .esp + -4
  ss : c'.sreg .ss = c.sreg .ss
  ret : read c'.mem (base (c.sreg .ss) + c.reg .esp) 4 =
    read c.mem (base (c.sreg .ss) + c.reg .esp) 4
  savedEbp : read c'.mem (base (c.sreg .ss) + (c.reg .esp + -4)) 4 = c.reg .ebp
  savedDs : read c'.mem (base (c.sreg .ss) + (c.reg .esp + -18)) 4 = (c.sreg .ds).setWidth 32
  savedEs : read c'.mem (base (c.sreg .ss) + (c.reg .esp + -22)) 4 = (c.sreg .es).setWidth 32
  savedEbx : read c'.mem (base (c.sreg .ss) + (c.reg .esp + -26)) 4 = c.reg .ebx
  savedEsi : read c'.mem (base (c.sreg .ss) + (c.reg .esp + -30)) 4 = c.reg .esi
  savedEdi : read c'.mem (base (c.sreg .ss) + (c.reg .esp + -34)) 4 = c.reg .edi

variable {K base ra} {c c' : Cpu}

attribute [local simp] devHlp32SaveMessage BitVec.add_assoc Function.update_apply
  low_selector

variable (base) in
/-- `c2` is `c1` with the low word of `v` stored at `[ebp + d]`, up to the flags. -/
structure Stored (d : BitVec 32) (c1 c2 : Cpu) (v : BitVec 32) : Prop where
  reg : c2.reg = c1.reg
  sreg : c2.sreg = c1.sreg
  mem : c2.mem = write c1.mem (base (c1.sreg .ss) + (c1.reg .ebp + d)) 2 v

variable (base ra) in
theorem set_stored (d : BitVec 32) (c1 : Cpu) (v : BitVec 32) :
    Stored base d c1 (c1.set (.stack32 base ra) v (m 2 .ss ebp d)) v :=
  ⟨rfl, rfl, rfl⟩

/-- A kernel call keeps the frame. -/
theorem Frame.returns {c1 c2 : Cpu} (hf : Frame base c c1)
    (hk : Returns (.stack32 base ra) 4 [.ds, .es, .ss] [(0, 46)]
      (c1.push (.stack32 base ra) 4 ra) c2) :
    Frame base c c2 := by
  obtain ⟨hesp, hebp, hsreg, hmem⟩ := hk
  obtain ⟨h1, h2, h3, h4, h5, h6, h7, h8, h9, h10⟩ := hf
  simp [h1, h2, h3] at hesp hebp hsreg hmem h4 h5 h6 h7 h8 h9 h10
  constructor <;> simp [*, hmem.read_eq]

theorem Frame.congr {c1 c2 : Cpu} (hf : Frame base c c1) (hesp : c2.reg .esp = c1.reg .esp)
    (hebp : c2.reg .ebp = c1.reg .ebp) (hss : c2.sreg .ss = c1.sreg .ss) (hmem : c2.mem = c1.mem) :
    Frame base c c2 := by
  obtain ⟨h1, h2, h3, h4, h5, h6, h7, h8, h9, h10⟩ := hf
  rw [← hmem] at h4 h5 h6 h7 h8 h9 h10
  exact ⟨hesp.trans h1, hebp.trans h2, hss.trans h3, h4, h5, h6, h7, h8, h9, h10⟩

variable (base c) in
/-- Where the return code is. -/
def rcAddr : Addr := base (c.sreg .ss) + (c.reg .esp + -14)

/-- What a kernel call keeps -/
structure Kept (c c1 c2 : Cpu) : Prop where
  frame : Frame base c c2
  ds : c2.sreg .ds = c1.sreg .ds
  es : c2.sreg .es = c1.sreg .es
  rc : read c2.mem (rcAddr base c) 2 = read c1.mem (rcAddr base c) 2

theorem KernelCall.kept {x : Call} {c1 c2 : Cpu} (hf : Frame base c c1)
    (hk : KernelCall K base ra x (c1.push (.stack32 base ra) 4 ra) c2) : @Kept base c c1 c2 := by
  have hslot := hk.returns.mem _ (List.mem_singleton_self _)
  simp [hf.esp, hf.ss] at hslot
  refine ⟨hf.returns hk.returns, ?_, ?_, ?_⟩
  · rw [hk.returns.sreg .ds (by simp)]
    simp
  · rw [hk.returns.sreg .es (by simp)]
    simp
  · simp [rcAddr, hslot.read_eq]

theorem KernelCall.read_sel {x : Call} {c1 c2 : Cpu} (hl : Layout K base c) (hf : Frame base c c1)
    (hk : KernelCall K base ra x (c1.push (.stack32 base ra) 4 ra) c2)
    (hx : x ≠ .allocGDTSelector) : read c2.mem (K.selAddr base) 2 =
      read c1.mem (K.selAddr base) 2 := by
  have hsel := hk.msgSeg hx
  unfold Layout at hl
  simp [hf.esp, hf.ss] at hsel hl
  rw [hsel.read_eq (by simp), read_write_of_apart (hl.right_within (by simp) (by decide))]

/-- A store of the return code keeps the frame and `msg_seg`. -/
theorem Frame.stored {c1 c2 : Cpu} {v : BitVec 32} (hf : Frame base c c1) (hl : Layout K base c)
    (hst : Stored base (-10) c1 c2 v) : Frame base c c2 ∧
      read c2.mem (rcAddr base c) 2 = low v ∧
      read c2.mem (K.selAddr base) 2 = read c1.mem (K.selAddr base) 2 := by
  obtain ⟨hreg, hsreg, hmem⟩ := hst
  obtain ⟨h1, h2, h3, h4, h5, h6, h7, h8, h9, h10⟩ := hf
  unfold Layout at hl
  simp at h4 h5 h6 h7 h8 h9 h10 hl
  simp [h2, h3] at hmem
  refine ⟨?_, ?_, ?_⟩
  · constructor <;> simp [hreg, hsreg, hmem, h1, h2, h3, h4, h5, h6, h7, h8, h9, h10]
  · simp [rcAddr, hmem]
  · simp [hmem, hl.right_within]

variable (K ra) in
/-- The end of the routine, behind the label `@@error` -/
theorem leave_restored (hf : Frame base c c') (fuel : ℕ) : ∃ u,
    run (.stack32 base ra) (devHlp32SaveMessage K) (fuel + 8)
      (after .error (devHlp32SaveMessage K)) c' =
      .ret (some u) ∧ Restored base ra c u ∧ u.reg .eax = low (c'.reg .eax) := by
  obtain ⟨h1, h2, h3, h4, h5, h6, h7, h8, h9, h10⟩ := hf
  refine ⟨_, rfl, ?_, ?_⟩
  · simp at h4 h5 h6 h7 h8 h9 h10
    constructor <;> simp [h1, h2, h3, h4, h5, h6, h7, h8, h9, h10]
  · simp

/-- A call of the kernel and the state in which it returns -/
abbrev SaveEvent := Event (Call × Cpu) fun _ => Cpu

/-- A kernel call, in a state of which `R` is known -/
theorem wp_kernel {Q : List SaveEvent → Option Cpu → Unit → Prop} {h : List SaveEvent} {x : Call}
    {c1 : Cpu} {k : Cpu → Prog (Call × Cpu) (fun _ => Cpu) (Option Cpu)} (R : Cpu → Prop)
    (hR : R c1)
    (hk : ∀ c1, R c1 → ∀ c2, KernelCall K base ra x (c1.push (.stack32 base ra) 4 ra) c2 →
      Wp (kernel K base ra) (fun _ _ => True) Q
        (h ++ [⟨(x, c1.push (.stack32 base ra) 4 ra), c2⟩]) () (k c2)) :
    Wp (kernel K base ra) (fun _ _ => True) Q h ()
      (.call (x, (Cpu.push (.stack32 base ra) 4 ra)^[1] c1) k) :=
  wp_call_of R hR fun c1 h1 c2 _ h2 => ⟨trivial, hk c1 h1 c2 h2⟩

/-- The rest of the routine from the label `@@error_2`, with DS and ES as they are then -/
theorem cleanup_wp {h : List SaveEvent} (hf : Frame base c c') (fuel : ℕ) :
    Wp (kernel K base ra) (fun _ _ => True)
      (fun tr res _ => ∃ f f' u, tr = h ++ [⟨(.freeGDTSelector, f), f'⟩] ∧ res = some u ∧
        Restored base ra c u ∧ f.sreg .ds = c'.sreg .es ∧
        low (f.reg .eax) = read c'.mem (base (c'.sreg .ds) + K.msgSeg.setWidth 32) 2 ∧
        u.reg .eax = if f'.cf then low (f'.reg .eax) else read c'.mem (rcAddr base c) 2)
      h () (run (.stack32 base ra) (devHlp32SaveMessage K) (fuel + 20)
        (after .error2 (devHlp32SaveMessage K)) c') := by
  have hf₁ := hf
  obtain ⟨h1, h2, h3, h4, h5, h6, h7, h8, h9, h10⟩ := hf
  simp at h4 h5 h6 h7 h8 h9 h10
  refine wp_kernel (fun f => Frame base c f ∧ f.sreg .ds = c'.sreg .es ∧
    low (f.reg .eax) = read c'.mem (base (c'.sreg .ds) + K.msgSeg.setWidth 32) 2 ∧
    read f.mem (rcAddr base c) 2 = read c'.mem (rcAddr base c) 2) ⟨?_, ?_, ?_, ?_⟩ ?_
  · constructor <;> simp [h1, h2, h3, h4, h5, h6, h7, h8, h9, h10]
  · simp
  · simp
  · simp [rcAddr, h1, h3]
  intro f ⟨hff, hfds, hfax, hfrc⟩ f' hk
  obtain ⟨hf', -, -, hrc⟩ := hk.kept hff
  rw [hfrc] at hrc
  refine wp_ite (fun hcf => ?_) fun hcf => ?_
  · have hcf' : f'.cf = true := hcf
    obtain ⟨u, hu, hres, hax⟩ := leave_restored K ra hf' (fuel + 6)
    refine (congrArg (Wp _ _ _ _ _) hu).mpr ⟨_, f', u, rfl, rfl, hres, ?_, ?_, ?_⟩
    · simpa using hfds
    · simpa using hfax
    · rw [hax, if_pos hcf']
  · have hcf' : ¬ f'.cf = true := hcf
    -- the state behind `cmp ax, 0`
    have htest : ∀ zf, Frame base c { f'.set (.stack32 base ra)
        (f'.get (.stack32 base ra) (m 2 .ss ebp (-10))) (r16 eax) with cf := false, zf := zf } := by
      intro zf
      refine hf'.congr ?_ ?_ rfl rfl <;> simp
    refine wp_ite (fun _ => ?_) fun _ => ?_
    · obtain ⟨u, hu, hres, hax⟩ := leave_restored K ra (htest _) (fuel + 3)
      refine (congrArg (Wp _ _ _ _ _) hu).mpr ⟨_, f', u, rfl, rfl, hres, ?_, ?_, ?_⟩
      · simpa using hfds
      · simpa using hfax
      · rw [hax, if_neg hcf', ← hrc]
        simp [rcAddr, hf'.ebp, hf'.ss]
    · obtain ⟨u, hu, hres, hax⟩ := leave_restored K ra (htest _) (fuel + 2)
      refine (congrArg (Wp _ _ _ _ _) hu).mpr ⟨_, f', u, rfl, rfl, hres, ?_, ?_, ?_⟩
      · simpa using hfds
      · simpa using hfax
      · rw [hax, if_neg hcf', ← hrc]
        simp [rcAddr, hf'.ebp, hf'.ss]

variable (K base ra)

/-- The three courses that the routine can take, with the result in each: the allocation fails, the
    mapping fails, or the message is saved or not. -/
inductive Course (c u : Cpu) : List SaveEvent → Prop
  | refused {a a' : Cpu} : a.sreg .ds = c.sreg .ds → a'.cf = true →
      u.reg .eax = low (a'.reg .eax) → Course c u [⟨(.allocGDTSelector, a), a'⟩]
  | unmapped {a a' l l' f f' : Cpu} : a.sreg .ds = c.sreg .ds → a.sreg .es = K.data16 →
      low (a.reg .edi) = K.msgSeg.setWidth 32 → a'.cf = false → l.sreg .ds = c.sreg .ds →
      l'.cf = true → f.sreg .ds = K.data16 →
      (base (c.sreg .ds) = base K.data16 → low (f.reg .eax) = read a'.mem (K.selAddr base) 2) →
      u.reg .eax = (if f'.cf then low (f'.reg .eax) else low (l'.reg .eax)) →
      Course c u [⟨(.allocGDTSelector, a), a'⟩, ⟨(.linToGDTSelector, l), l'⟩,
        ⟨(.freeGDTSelector, f), f'⟩]
  | mapped {a a' l l' s s' f f' : Cpu} : a.sreg .ds = c.sreg .ds → a.sreg .es = K.data16 →
      low (a.reg .edi) = K.msgSeg.setWidth 32 → a'.cf = false → l.sreg .ds = c.sreg .ds →
      l'.cf = false → s.sreg .es = c.sreg .ds → f.sreg .ds = c.sreg .ds →
      low (f.reg .eax) = read a'.mem (K.selAddr base) 2 →
      u.reg .eax = (if f'.cf then low (f'.reg .eax) else
        if s'.cf then low (l'.reg .eax) else low (s'.reg .eax)) →
      Course c u [⟨(.allocGDTSelector, a), a'⟩, ⟨(.linToGDTSelector, l), l'⟩,
        ⟨(.saveMessage, s), s'⟩, ⟨(.freeGDTSelector, f), f'⟩]

variable {K base ra}

/-- The code between the label of the second call and `@@error_2` -/
theorem save_wp {h : List SaveEvent} (hl : Layout K base c) (hf : Frame base c c')
    (hds : c'.sreg .ds = c.sreg .ds) (hes : c'.sreg .es = K.data16) :
    Wp (kernel K base ra) (fun _ _ => True) (fun tr res _ => ∃ s s' f f' u,
        tr = h ++ [⟨(.saveMessage, s), s'⟩, ⟨(.freeGDTSelector, f), f'⟩] ∧ res = some u ∧
        Restored base ra c u ∧ s.sreg .es = c.sreg .ds ∧ f.sreg .ds = c.sreg .ds ∧
        low (f.reg .eax) = read c'.mem (K.selAddr base) 2 ∧
        u.reg .eax = if f'.cf then low (f'.reg .eax) else if s'.cf then
          read c'.mem (rcAddr base c) 2 else low (s'.reg .eax))
      h () (run (.stack32 base ra) (devHlp32SaveMessage K) 39
        ((devHlp32SaveMessage K).drop 21) c') := by
  refine wp_kernel (fun s => Frame base c s ∧ s.sreg .ds = K.data16 ∧ s.sreg .es = c.sreg .ds ∧
    s.mem = c'.mem) ⟨?_, ?_, ?_, ?_⟩ ?_
  · refine hf.congr ?_ ?_ ?_ ?_ <;> simp
  · simp [hds, hes]
  · simp [hds, hes]
  · simp
  intro s ⟨hs, hsds, hses, hmem⟩ s' hk
  obtain ⟨hs', hds', hes', hrc⟩ := hk.kept hs
  have hsel := hk.read_sel hl hs (by simp)
  rw [hmem] at hrc hsel
  rw [hsds] at hds'
  rw [hses] at hes'
  refine wp_ite (fun scf => ?_) fun scf => ?_
  · have scf' : s'.cf = true := scf
    refine wp_mono (cleanup_wp hs' 10) ?_
    rintro tr res _ ⟨f, f', u, rfl, rfl, hres, hfds, hfax, hax⟩
    refine ⟨_, s', f, f', u, List.append_assoc _ _ _, rfl, hres, ?_, ?_, ?_, ?_⟩
    · simpa using hses
    · rw [hfds, hes']
    · rw [hfax, hds']
      exact hsel
    · rw [hax, if_pos scf', hrc]
  · have scf' : ¬ s'.cf = true := scf
    have hst := set_stored base ra (-10) s' (s'.get (.stack32 base ra) (r16 eax))
    obtain ⟨hf'', hrc', hsel'⟩ := hs'.stored hl hst
    refine wp_mov (wp_label (wp_mono (cleanup_wp hf'' 8) ?_))
    rintro tr res _ ⟨f, f', u, rfl, rfl, hres, hfds, hfax, hax⟩
    rw [hst.sreg] at hfds hfax
    refine ⟨_, s', f, f', u, List.append_assoc _ _ _, rfl, hres, ?_, ?_, ?_, ?_⟩
    · simpa using hses
    · rw [hfds, hes']
    · rw [hfax, hds', ← hsel]
      exact hsel'
    · rw [hax, if_neg scf', hrc']
      simp

theorem exec_wp (hl : Layout K base c) : Wp (kernel K base ra) (fun _ _ => True)
    (fun tr res _ => ∃ u, res = some u ∧ Restored base ra c u ∧ Course K base c u tr)
    [] () (exec K base ra c) := by
  refine wp_kernel (fun a => Frame base c a ∧ a.sreg .ds = c.sreg .ds ∧ a.sreg .es = K.data16 ∧
    low (a.reg .edi) = K.msgSeg.setWidth 32) ⟨?_, ?_, ?_, ?_⟩ ?_
  · constructor <;> simp
  · simp
  · simp
  · simp
  intro a ⟨ha, hads, haes, haedi⟩ a' hk
  obtain ⟨ha', hads', haes', -⟩ := hk.kept ha
  rw [hads] at hads'
  rw [haes] at haes'
  refine wp_ite (fun acf => ?_) fun acf => ?_
  · obtain ⟨u, hu, hres, hax⟩ := leave_restored K ra ha' 38
    refine (congrArg (Wp _ _ _ _ _) hu).mpr ⟨u, rfl, hres, .refused ?_ acf hax⟩
    simpa using hads
  have acf' : a'.cf = false := by simpa using acf
  refine wp_kernel (fun l => Frame base c l ∧ l.sreg .ds = c.sreg .ds ∧ l.sreg .es = K.data16 ∧
    l.mem = a'.mem) ⟨?_, ?_, ?_, ?_⟩ ?_
  · refine ha'.congr ?_ ?_ ?_ ?_ <;> simp
  · simp [hads']
  · simp [haes']
  · simp
  intro l ⟨hlf, hlds, hles, hlmem⟩ l' hk'
  obtain ⟨hlf', hlds', hles', -⟩ := hk'.kept hlf
  have hsel := hk'.read_sel hl hlf (by simp)
  rw [hlds] at hlds'
  rw [hles] at hles'
  rw [hlmem] at hsel
  -- the result of the mapping goes into the frame before the carry flag is tested
  have hst := set_stored base ra (-10) l' (l'.get (.stack32 base ra) (r16 eax))
  obtain ⟨hf, hrc, hsel'⟩ := hlf'.stored hl hst
  refine wp_mov_jc (fun lcf => ?_) fun lcf => ?_
  · refine wp_mono (cleanup_wp hf 19) ?_
    rintro tr res _ ⟨f, f', u, rfl, rfl, hres, hfds, hfax, hax⟩
    rw [hst.sreg] at hfds hfax
    refine ⟨u, rfl, hres, .unmapped ?_ ?_ ?_ acf' ?_ lcf ?_ ?_ ?_⟩
    · simpa using hads
    · simpa using haes
    · simpa using haedi
    · simpa using hlds
    · rw [hfds, hles']
    · intro hbase
      rw [hfax, hlds', hbase, ← hsel]
      exact hsel'
    · rw [hax, hrc]
      simp
  · refine wp_mono (save_wp hl hf (by rw [hst.sreg, hlds']) (by rw [hst.sreg, hles'])) ?_
    rintro tr res _ ⟨s, s', f, f', u, rfl, rfl, hres, hses, hfds, hfax, hax⟩
    refine ⟨u, rfl, hres, .mapped ?_ ?_ ?_ acf' ?_ lcf hses hfds ?_ ?_⟩
    · simpa using hads
    · simpa using haes
    · simpa using haedi
    · simpa using hlds
    · rw [hfax, hsel', hsel]
    · rw [hax, hrc]
      simp

theorem course {tr : List SaveEvent} {res : Option Cpu} (hl : Layout K base c)
    (h : Runs (kernel K base ra) () (exec K base ra c) tr res ()) :
    ∃ u, res = some u ∧ Restored base ra c u ∧ Course K base c u tr :=
  ((exec_wp hl).sound h).2

/-! ## The selector -/

variable (K base ra) in
/-- What was allocated is freed once and nothing else is, every kernel call goes through `DevHelp2`
    of the data segment that the routine was entered with, and the registers come back. -/
structure Discipline (c : Cpu) (tr : List SaveEvent) (res : Option Cpu) : Prop where
  freed : freed .freeGDTSelector tr = granted base .allocGDTSelector tr
  pointer : ∀ e ∈ tr,
    base (e.1.2.sreg e.1.1.pointerSeg) + K.devHelp2 = base (c.sreg .ds) + K.devHelp2
  restored : ∃ u, res = some u ∧ Restored base ra c u

theorem discipline_of_course {u : Cpu} {tr : List SaveEvent} (hu : Restored base ra c u)
    (h : Course K base c u tr) : Discipline K base ra c tr (some u) ↔
      ¬ Failed .linToGDTSelector tr ∨ base K.data16 = base (c.sreg .ds) := by
  cases h with
  | refused hds hcf =>
    refine iff_of_true ⟨?_, ?_, u, rfl, hu⟩ (.inl ?_)
    · simp [freed, granted, hcf]
    · simp [Call.pointerSeg, hds]
    · simp [Failed]
  | @unmapped a a' l l' f f' hads haes hedi hacf hlds hlcf hfds hfax =>
    have hfail : Failed Call.linToGDTSelector [⟨(.allocGDTSelector, a), a'⟩,
        ⟨(.linToGDTSelector, l), l'⟩, ⟨(.freeGDTSelector, f), f'⟩] :=
      ⟨⟨(.linToGDTSelector, l), l'⟩, by simp, rfl, hlcf⟩
    rw [or_iff_right (not_not_intro hfail)]
    constructor
    · intro h
      have hp := h.pointer _
        (List.mem_cons_of_mem _ (List.mem_cons_of_mem _ (List.mem_singleton_self _)))
      simpa [Call.pointerSeg, hfds] using hp
    · intro hbase
      refine ⟨?_, ?_, u, rfl, hu⟩
      · simp [freed, granted, hacf, haes, hedi, hfax hbase.symm, Consts.selAddr]
      · simp [Call.pointerSeg, hads, hlds, hfds, hbase]
  | mapped hads haes hedi hacf hlds hlcf hses hfds hfax =>
    refine iff_of_true ⟨?_, ?_, u, rfl, hu⟩ (.inl ?_)
    · simp [freed, granted, hacf, haes, hedi, hfax, Consts.selAddr]
    · simp [Call.pointerSeg, hads, hlds, hses, hfds]
    · simp [Failed, hlcf]

/-! ## The result -/

variable (K base ra) in
/-- A failing call returns a non-zero AX, a successful one AX = 0. -/
def kernelAx : Env Unit (Call × Cpu) (fun _ => Cpu) :=
  fun _ op c2 _ => KernelCall K base ra op.1 op.2 c2 ∧ (low (c2.reg .eax) = 0 ↔ c2.cf = false)

/-- The result is 0 if and only if every call that was made succeeded. -/
def ReportsFailure (tr : List SaveEvent) (res : Option Cpu) : Prop :=
  ∃ u, res = some u ∧ (u.reg .eax = 0 ↔ ∀ e ∈ tr, e.2.cf = false)

theorem reportsFailure_of_course {u : Cpu} {tr : List SaveEvent} (h : Course K base c u tr)
    (hax : ∀ e ∈ tr, low (e.2.reg .eax) = 0 ↔ e.2.cf = false) :
    ReportsFailure tr (some u) ↔ (Failed .saveMessage tr → Failed .freeGDTSelector tr) := by
  have hret : ReportsFailure tr (some u) ↔ (u.reg .eax = 0 ↔ ∀ e ∈ tr, e.2.cf = false) := by
    simp [ReportsFailure]
  rw [hret]
  cases h with
  | refused hds hcf hu =>
    simp [hcf] at hax
    simp [Failed, hu, hcf, hax]
  | @unmapped a a' l l' f f' _ _ _ hacf _ hlcf _ _ hu =>
    simp [hlcf] at hax
    cases hf : f'.cf <;> simp [Failed, hu, hlcf, hax, hf]
  | @mapped a a' l l' s s' f f' _ _ _ hacf _ hlcf _ _ _ hu =>
    simp [hlcf] at hax
    cases hf : f'.cf <;> cases hs : s'.cf <;> simp [Failed, hu, hlcf, hacf, hax, hf, hs]

/-! ## Kernels that refuse one service -/

/-- A kernel whose service `x` fails with code 1 and whose other services succeed -/
def refusing (x : Call) (op : Call × Cpu) : Cpu :=
  { (op.2.addSp (.stack32 (fun _ => 0) 0) 4).setReg .eax (if op.1 = x then 1 else 0) with
    cf := decide (op.1 = x) }

theorem kernelAx_refusing (x : Call) (op : Call × Cpu) :
    kernelAx K base ra () op (refusing x op) () := by
  refine ⟨⟨⟨?_, ?_, ?_, ?_⟩, ?_⟩, ?_⟩
  · simp [refusing]
  · simp [refusing]
  · exact fun _ _ => rfl
  · exact fun _ _ => AgreesOn.refl _ _ _
  · exact fun _ => AgreesOn.refl _ _ _
  · by_cases hx : op.1 = x <;> simp [refusing, hx]
    decide

variable (K base ra c) in
theorem runs_refusing (x : Call) :
    ∃ tr res, Runs (kernelAx K base ra) () (exec K base ra c) tr res () ∧
    ∀ e ∈ tr, e.2.cf = decide (e.1.1 = x) := by
  have hrun := Runs.answer (E := fun _ op r _ => r = refusing x op) (f := refusing x) (fun _ => rfl)
    (exec K base ra c)
  refine ⟨_, _, hrun.mono _ fun _ op r _ hr => ?_, fun e he => ?_⟩
  · rw [hr]
    exact kernelAx_refusing x op
  · obtain ⟨⟨⟩, ⟨⟩, hr⟩ := hrun.forall_env e he
    rw [hr]
    rfl

/-- `DATA16` is at 0x1000, with `msg_seg` at 6 in it. -/
def sampleConsts : Consts :=
  { devHlp := fun _ => 0, data16 := 0x10, msgid := 0, msgSeg := 6, devHelp2 := 0 }

/-- A data segment at 0x1000, for selector 0x10 -/
def sampleBase (s : BitVec 16) : Addr := if s = 0x10 then 0x1000 else 0

/-- A caller with its stack at 0x8000 and flat segments. -/
def sampleCpu : Cpu := ⟨fun _ => 0x8000, fun _ => 0, false, false, 0, fun _ => 0, []⟩

theorem sample_layout : Layout sampleConsts sampleBase sampleCpu := by
  unfold Layout
  decide

end SaveMessage

open SaveMessage

variable {K : Consts} {base : BitVec 16 → Addr} {ra : BitVec 32}

/-- **Selector discipline of `DevHlp32_SaveMessage`.** -/
theorem discipline_iff {c : Cpu} (hl : Layout K base c) (tr : List SaveEvent) (res : Option Cpu)
    (h : Runs (SaveMessage.kernel K base ra) () (exec K base ra c) tr res ()) :
    Discipline K base ra c tr res ↔
      ¬ Failed .linToGDTSelector tr ∨ base K.data16 = base (c.sreg .ds) := by
  obtain ⟨u, rfl, hu, hc⟩ := course hl h
  exact discipline_of_course hu hc

/-- A run in which `Save_Message` fails. -/
theorem discipline_sample :
    ∃ tr res, Runs (SaveMessage.kernel sampleConsts sampleBase 0) ()
      (exec sampleConsts sampleBase 0 SaveMessage.sampleCpu) tr res () ∧
      Discipline sampleConsts sampleBase 0 SaveMessage.sampleCpu tr res := by
  obtain ⟨tr, res, h, hcf⟩ :=
    runs_refusing sampleConsts sampleBase 0 SaveMessage.sampleCpu .saveMessage
  have hk := h.mono (SaveMessage.kernel sampleConsts sampleBase 0) fun _ _ _ _ hk => hk.1
  refine ⟨tr, res, hk, (discipline_iff sample_layout tr res hk).mpr (.inl ?_)⟩
  intro ⟨e, he, hx, hf⟩
  rw [hcf e he, hx] at hf
  simp at hf

/-- When the mapping fails, a selector that was never allocated is freed, through DATA16. -/
theorem discipline_failing_sample :
    ∃ tr res, Runs (SaveMessage.kernel sampleConsts sampleBase 0) ()
      (exec sampleConsts sampleBase 0 SaveMessage.sampleCpu) tr res () ∧
      ¬ Discipline sampleConsts sampleBase 0 SaveMessage.sampleCpu tr res := by
  obtain ⟨tr, res, h, hcf⟩ :=
    runs_refusing sampleConsts sampleBase 0 SaveMessage.sampleCpu .linToGDTSelector
  have hk := h.mono (SaveMessage.kernel sampleConsts sampleBase 0) fun _ _ _ _ hk => hk.1
  obtain ⟨u, rfl, hu, hc⟩ := course sample_layout hk
  refine ⟨tr, some u, hk, ?_⟩
  rw [discipline_of_course hu hc, not_or, not_not]
  refine ⟨?_, by decide⟩
  cases hc with
  | refused _ acf => simp [acf] at hcf
  | unmapped _ _ _ _ _ lcf => exact ⟨_, List.mem_cons_of_mem _ (List.mem_cons_self ..), rfl, lcf⟩
  | mapped _ _ _ _ _ lcf => simp [lcf] at hcf

/-- **`DevHlp32_SaveMessage` reports failures**, except one of `Save_Message` behind which
    the selector is freed without error. -/
theorem reports_failure_iff {c : Cpu} (hl : Layout K base c) (tr : List SaveEvent)
    (res : Option Cpu) (h : Runs (kernelAx K base ra) () (exec K base ra c) tr res ()) :
    ReportsFailure tr res ↔ (Failed .saveMessage tr → Failed .freeGDTSelector tr) := by
  obtain ⟨u, rfl, hu, hc⟩ :=
    course hl (h.mono (SaveMessage.kernel K base ra) fun _ _ _ _ hk => hk.1)
  refine reportsFailure_of_course hc fun e he => ?_
  obtain ⟨⟨⟩, ⟨⟩, hk⟩ := h.forall_env e he
  exact hk.2

/-- A run in which the mapping fails. -/
theorem reports_failure_sample :
    ∃ tr res, Runs (kernelAx sampleConsts sampleBase 0) ()
      (exec sampleConsts sampleBase 0 SaveMessage.sampleCpu) tr res () ∧ ReportsFailure tr res := by
  obtain ⟨tr, res, h, hcf⟩ :=
    runs_refusing sampleConsts sampleBase 0 SaveMessage.sampleCpu .linToGDTSelector
  refine ⟨tr, res, h, (reports_failure_iff sample_layout tr res h).mpr ?_⟩
  intro ⟨e, he, hx, hf⟩
  rw [hcf e he, hx] at hf
  simp at hf

/-- A kernel that rejects the message only: the result is 0. -/
theorem reports_failure_failing_sample :
    ∃ tr res, Runs (kernelAx sampleConsts sampleBase 0) ()
      (exec sampleConsts sampleBase 0 SaveMessage.sampleCpu) tr res () ∧
      ¬ ReportsFailure tr res := by
  obtain ⟨tr, res, h, hcf⟩ :=
    runs_refusing sampleConsts sampleBase 0 SaveMessage.sampleCpu .saveMessage
  obtain ⟨u, rfl, hu, hc⟩ := course sample_layout
    (h.mono (SaveMessage.kernel sampleConsts sampleBase 0) fun _ _ _ _ hk => hk.1)
  refine ⟨tr, some u, h, ?_⟩
  have hax : ∀ e ∈ tr, low (e.2.reg .eax) = 0 ↔ e.2.cf = false := by
    intro e he
    obtain ⟨⟨⟩, ⟨⟩, hk⟩ := h.forall_env e he
    exact hk.2
  rw [reportsFailure_of_course hc hax, Classical.not_imp]
  cases hc with
  | refused _ acf => simp [acf] at hcf
  | unmapped _ _ _ _ _ lcf => simp [lcf] at hcf
  | mapped =>
    simp at hcf
    simp [Failed, hcf]

end Mwdd32.DevHlp
