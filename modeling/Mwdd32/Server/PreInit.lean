import Mwdd32.Lib.Activation
import Mwdd32.Lib.Transition
import Mwdd32.Server.DevHelp32

/-!
# The first initialisation of mwdd32

Before `mwdd32_init_base` can call any helper, `mwdd32_pre_init_base` saves the DevHelp entry point
of the INIT packet and asks the kernel for the DosTable, whose second part has the pointer to the
kernel's stack base as its twelfth dword. The second part stands behind the first, whose length is
in its first byte.

* `DosTable.read_tkssBase`: where the entry is, whatever the length of the first part.
* `pushes_wp` and `pops_wp` of `Activation` give the registers that the routine restores.
* `ClientStep.linked`: every variable that mwdd32 exports points to the kernel's, attach after
  attach.
-/

namespace Mwdd32.Server

open ByteMem Interaction I386 Opnd Reg

/-! ## DosTable -/

/-- The two parts of the table, each with its number of dwords in a byte before it. -/
structure DosTable where
  first : List (BitVec 32)
  second : List (BitVec 32)
  first_lt : first.length < 256
  second_lt : second.length < 256
  tkssBase_lt : 11 < second.length

/-- A list of dwords behind their number -/
def counted (l : List (BitVec 32)) : List (BitVec 8) := BitVec.ofNat 8 l.length :: dwords l

/-- The table as it stands in memory -/
def DosTable.bytes (t : DosTable) : List (BitVec 8) := counted t.first ++ counted t.second

/-- `_TKSSBase`, dword number 12 of the second part -/
def DosTable.tkssBase (t : DosTable) : BitVec 32 := t.second.get ⟨11, t.tkssBase_lt⟩

theorem length_counted (l : List (BitVec 32)) : (counted l).length = 1 + 4 * l.length := by
  simp [counted, Nat.add_comm]

/-- The number of dwords, as the code reads it. -/
theorem read_count {m : Mem} {a : Addr} {l : List (BitVec 32)} (h : Holds m a (counted l))
    (hl : l.length < 256) : read m a 1 = BitVec.ofNat 32 l.length := by
  have hcount := (holds_cons.mp h).1
  apply BitVec.eq_of_toNat_eq
  simp [ByteMem.read, hcount]
  omega

theorem DosTable.read_tkssBase {m : Mem} {a : Addr} (t : DosTable) (h : Holds m a t.bytes) :
    read m (a + (read m a 1 <<< 2 + 46)) 4 = t.tkssBase := by
  obtain ⟨hfirst, hsecond⟩ := holds_append.mp h
  have hentry := (holds_cons.mp hsecond).2.read_dwords t.tkssBase_lt
  have hshift : BitVec.ofNat 32 t.first.length <<< 2 = BitVec.ofNat 32 (4 * t.first.length) := by
    apply BitVec.eq_of_toNat_eq
    have := t.first_lt
    simp [Nat.shiftLeft_eq]
    omega
  have hoffset : BitVec.ofNat 32 (4 * t.first.length) + 46 =
      BitVec.ofNat 32 (counted t.first).length + 1 + BitVec.ofNat 32 (4 * 11) := by
    apply BitVec.eq_of_toNat_eq
    simp [length_counted]
    omega
  rw [read_count hfirst t.first_lt, hshift, hoffset, ← BitVec.add_assoc, ← BitVec.add_assoc]
  exact hentry

/-! ## Code -/

/-- The one far call of the routine -/
inductive PreInitCall
  | getDOSVar
  deriving DecidableEq

/-- The label `@@error` -/
inductive PreInitLabel
  | error
  deriving DecidableEq

/-- The registers that the routine saves -/
abbrev preInitSaves : List Opnd := [s .es, r ebx, r esi, r edi]

/-- `mwdd32_pre_init_base` (`mwdd32/mwdd32_pre_init_base.asm`, lines 100–160), with the value of
    `DevHlp_GetDOSVar` and the offsets of `DevHelp2` and `TKSSBase` in DS. -/
def mwdd32PreInitBase (devHlpGetDOSVar pDevHelp2 pTKSSBase : BitVec 32) :
    Code PreInitLabel PreInitCall :=
  .push 4 (r ebp) :: .mov (r ebp) (r esp) :: (pushes preInitSaves ++
  ([.mov (r16 ebx) (m 2 .ss ebp 8), .mov (s .es) (m 2 .ss ebp 10), .mov (r ebx) (r16 ebx),
    .mov (r ebx) (m 4 .es ebx 14), .mov (abs 4 .ds pDevHelp2) (r ebx),
    .mov (r eax) (imm 9), .alu .xor (r ecx) (r ecx), .mov (r edx) (imm devHlpGetDOSVar),
    -- `thunk16$mwdd32_pre_init_base` has the far call through `DevHelp2`, and jumps back.
    .call 1 .getDOSVar, .jcc .carry .error,
    .mov (s .es) (r16 eax), .mov (r ebx) (r16 ebx), .mov (r ecx) (m 1 .es ebx 0),
    -- `mov eax, es:[ebx + 4 * ecx + 2].d2__TKSSBase`, with the address in ECX, which is free
    .alu .shl (r ecx) (imm 2), .alu .add (r ecx) (r ebx), .mov (r eax) (m 4 .es ecx 46),
    .mov (abs 4 .ds pTKSSBase) (r eax), .mov (r eax) (imm 0), .label .error] ++
  (pops preInitSaves ++ [.leave 4, .ret 0])))

/-! ## The kernel -/

/-- The segments, the kernel's DevHelp entry point, the number of `DevHlp_GetDOSVar`, the table and
    the bytes of stack that a service uses. -/
structure BootKernel where
  base : BitVec 16 → Addr
  ra : BitVec 32
  devHelp : BitVec 32
  devHlpGetDOSVar : BitVec 32
  table : DosTable
  scratch : ℕ

variable (K : BootKernel)

/-- The processor with a stack that ESP spans -/
abbrev BootKernel.machine : Machine := .stack32 K.base K.ra

/-- `DevHlp_GetDOSVar` from `c1` to `c2` for the DosTable, which is at AX:BX at the return. The
    memory changes below the stack pointer only. -/
structure GetsDosTable (c1 c2 : Cpu) : Prop where
  returns : Returns K.machine 4 [.ds, .es, .ss] [] c1 c2
  mem : AgreesOff c1.mem c2.mem (stackAt K.base c1 (-BitVec.ofNat 32 K.scratch)) K.scratch
  found : c2.cf = false →
    Holds c2.mem (K.base ((c2.reg .eax).setWidth 16) + low (c2.reg .ebx)) K.table.bytes

/-- The call goes to the kernel's entry point and asks for the variable 9, the DosTable. -/
structure Asks (pDevHelp2 : BitVec 32) (c1 : Cpu) : Prop where
  entry : read c1.mem (lin K.machine c1 .ds pDevHelp2) 4 = K.devHelp
  number : c1.reg .edx = K.devHlpGetDOSVar
  index : c1.reg .eax = 9
  member : c1.reg .ecx = 0

/-- The far call through `DevHelp2`. -/
def bootEnv (pDevHelp2 : BitVec 32) : Env Unit (PreInitCall × Cpu) (fun _ => Cpu) :=
  fun _ op c2 _ =>
  Asks K pDevHelp2 op.2 → GetsDosTable K op.2 c2

/-- A call of the kernel and the state in which it returns -/
abbrev BootEvent := Event (PreInitCall × Cpu) fun _ => Cpu

/-- A call of `mwdd32_pre_init_base` -/
def preInitExec (pDevHelp2 pTKSSBase : BitVec 32) (c : Cpu) :
    Prog (PreInitCall × Cpu) (fun _ => Cpu) (Option Cpu) :=
  let code := mwdd32PreInitBase K.devHlpGetDOSVar pDevHelp2 pTKSSBase
  run K.machine code 40 code c

/-! ## Runs -/

/-- The bottom of what the routine entered in `c` and the kernel use of the stack, `K.scratch + 24`
    bytes -/
def bootStack (c : Cpu) : Addr := stackAt K.base c (-BitVec.ofNat 32 (K.scratch + 24))

/-- The field `i_devHelp` of the packet `reqpkt` -/
def initDevHelp (reqpkt : BitVec 32) : Addr := K.base (reqpkt.extractLsb' 16 16) + (low reqpkt + 14)

/-- The packet `reqpkt` is the argument, and the stack has no byte of it and of the variables. -/
structure BootReady (c : Cpu) (reqpkt pDevHelp2 pTKSSBase : BitVec 32) : Prop where
  scratch : K.scratch + 28 ≤ 2 ^ 32
  arg : read c.mem (stackAt K.base c 4) 4 = reqpkt
  devHelp : read c.mem (initDevHelp K reqpkt) 4 = K.devHelp
  packet : Apart (initDevHelp K reqpkt) 4 (bootStack K c) (K.scratch + 24)
  devHelp2 : Apart (lin K.machine c .ds pDevHelp2) 4 (bootStack K c) (K.scratch + 28)
  tkssBase : Apart (lin K.machine c .ds pTKSSBase) 4 (bootStack K c) (K.scratch + 28)

/-- The memory with the entry point saved -/
def savedDevHelp (c : Cpu) (pDevHelp2 : BitVec 32) : Mem :=
  write c.mem (lin K.machine c .ds pDevHelp2) 4 K.devHelp

variable {K} {c c1 c2 u : Cpu} {reqpkt pDevHelp2 pTKSSBase : BitVec 32}

/-- A state of the routine entered in `c`, with the memory `m` above its stack -/
structure Running (K : BootKernel) (c : Cpu) (m : Mem) (c1 : Cpu) : Prop where
  activation : Activation K.base 0 preInitSaves c c1
  ds : c1.sreg .ds = c.sreg .ds
  mem : AgreesOff m c1.mem (bootStack K c) (K.scratch + 24)

/-- The state in which it returns -/
structure Leaving (K : BootKernel) (c : Cpu) (m : Mem) (u : Cpu) : Prop where
  unwound : Unwound K.base preInitSaves c u
  ds : u.sreg .ds = c.sreg .ds
  ss : u.sreg .ss = c.sreg .ss
  mem : AgreesOff m u.mem (bootStack K c) (K.scratch + 24)

/-- How the routine ends: without the table it gives the kernel's return code. -/
inductive Booted (K : BootKernel) (c : Cpu) (pDevHelp2 pTKSSBase : BitVec 32) :
    List BootEvent → Cpu → Prop
  | failed {c1 c2 u : Cpu} : Asks K pDevHelp2 c1 → c2.cf = true →
      Leaving K c (savedDevHelp K c pDevHelp2) u →
      u.reg .eax = c2.reg .eax → Booted K c pDevHelp2 pTKSSBase [⟨(.getDOSVar, c1), c2⟩] u
  | done {c1 c2 u : Cpu} : Asks K pDevHelp2 c1 → c2.cf = false →
      Leaving K c (write (savedDevHelp K c pDevHelp2) (lin K.machine c .ds pTKSSBase) 4
        K.table.tkssBase) u →
      u.reg .eax = 0 → Booted K c pDevHelp2 pTKSSBase [⟨(.getDOSVar, c1), c2⟩] u

section Parts

variable {P : List BootEvent → BootEvent → Prop} {Q : List BootEvent → Option Cpu → Unit → Prop}
  {E : Env Unit (PreInitCall × Cpu) fun _ => Cpu} {h : List BootEvent}
  {code : Code PreInitLabel PreInitCall}

/-- The lines behind the store to `DevHelp2` -/
abbrev preInitTail (devHlpGetDOSVar pTKSSBase : BitVec 32) : Code PreInitLabel PreInitCall :=
  (mwdd32PreInitBase devHlpGetDOSVar 0 pTKSSBase).drop 11

attribute [local simp] BitVec.add_assoc BitVec.sub_eq_add_neg Function.update_apply

/-- The pointer to the packet and its field, as the prologue leaves them. -/
theorem packet_activated (hr : BootReady K c reqpkt pDevHelp2 pTKSSBase)
    (hent : Activated K.base 0 preInitSaves c c1) :
    read c1.mem (stackAt K.base c 4) 2 = low reqpkt ∧
      (read c1.mem (stackAt K.base c 6) 2).setWidth 16 = reqpkt.extractLsb' 16 16 ∧
      read c1.mem (initDevHelp K reqpkt) 4 = K.devHelp := by
  have hscratch := hr.scratch
  have harg : read c1.mem (stackAt K.base c 4) 4 = reqpkt := by
    rw [hent.mem.read_eq ?_, hr.arg]
    simp [stackAt, activationSize]
  refine ⟨?_, ?_, ?_⟩
  · rw [← harg]
    simp
  · rw [← setWidth_high, ← harg]
    simp [stackAt]
  · rw [hent.mem.read_eq ?_, hr.devHelp]
    refine hr.packet.right_within (stackAt_within c ?_ ?_ ?_) (by decide)
    all_goals simp [activationSize]
    all_goals omega

theorem BootReady.activation_apart {a : Addr} (hr : BootReady K c reqpkt pDevHelp2 pTKSSBase)
    (ha : Apart a 4 (bootStack K c) (K.scratch + 28)) :
    Apart (stackAt K.base c (-20)) 24 a 4 := by
  have hscratch := hr.scratch
  refine (ha.right_within (stackAt_within c (d := 20) ?_ ?_ ?_) (by omega)).symm
  all_goals omega

/-- The entry point is saved. -/
theorem saving_wp (hr : BootReady K c reqpkt pDevHelp2 pTKSSBase)
    (hp : ∀ c1, Running K c (savedDevHelp K c pDevHelp2) c1 →
      Wp E P Q h () (run K.machine code 29 (preInitTail K.devHlpGetDOSVar pTKSSBase) c1)) :
    Wp E P Q h ()
      (run K.machine code 40 (mwdd32PreInitBase K.devHlpGetDOSVar pDevHelp2 pTKSSBase) c) := by
  refine push_prologue_wp 34 rfl ?_ ?_ fun c1 hent => ?_
  · decide
  · decide
  obtain ⟨hoffset, hselector, hdevHelp⟩ := packet_activated hr hent
  obtain ⟨hact, -, hsreg, hmem⟩ := hent
  have hebp := hact.ebp
  have hscratch := hr.scratch
  simp [stackAt] at hoffset hselector
  refine wp_mov (wp_mov (wp_mov (wp_mov (wp_state (fun a => a.reg .ebx = K.devHelp ∧
    a.sreg .ds = c.sreg .ds ∧ Activation K.base 0 preInitSaves c a ∧ a.mem = c1.mem)
    ⟨?_, ?_, ?_, ?_⟩ ?_))))
  · simp [hsreg, hebp]
    rw [hoffset, hselector]
    exact hdevHelp
  · simp [hsreg]
  · exact hact.of_eq (by simp) (by simp) (by simp) (by simp)
  · simp
  rintro a ⟨hebx, hds, hact, hamem⟩
  refine wp_mov (hp _ ⟨?_, ?_, ?_⟩)
  · refine hact.store K.devHelp ?_ ?_ ?_ ?_ ?_ (hr.activation_apart hr.devHelp2)
    · simp
    · simp
    · simp
    · simp [hds, hebx]
    · decide
  · simp [hds]
  · simp [hds, hebx, hamem]
    refine AgreesOff.write (hmem.within (stackAt_within c ?_ ?_ ?_)) _
    all_goals simp [activationSize]
    all_goals omega

/-- The variable is where the kernel's entry point was saved. -/
theorem Running.devHelp2 (hrun : Running K c (savedDevHelp K c pDevHelp2) c1)
    (hr : BootReady K c reqpkt pDevHelp2 pTKSSBase) :
    read (c1.push K.machine 4 K.ra).mem (lin K.machine c .ds pDevHelp2) 4 = K.devHelp := by
  have hscratch := hr.scratch
  have hsize : activationSize 0 preInitSaves = 20 := rfl
  have hpush : AgreesOff (savedDevHelp K c pDevHelp2) (c1.push K.machine 4 K.ra).mem (bootStack K c)
      (K.scratch + 24) := by
    rw [hrun.activation.push_mem]
    exact hrun.mem.write_within (stackAt_within c (by omega) (by omega) (by omega))
  rw [hpush.read_eq (hr.devHelp2.mono le_rfl (by omega)), savedDevHelp, read_write_self32]

/-- What the kernel leaves of the routine's state. -/
theorem Running.asked {m : Mem} (hrun : Running K c m c1) (hscratch : K.scratch + 28 ≤ 2 ^ 32)
    (hget : GetsDosTable K (c1.push K.machine 4 K.ra) c2) : Running K c m c2 := by
  have hsize : activationSize 0 preInitSaves = 20 := rfl
  obtain ⟨hact, hoff⟩ := hrun.activation.called hget.returns (by simp) hget.mem (by omega)
  refine ⟨hact, ?_, hrun.mem.trans (hoff.within (stackAt_within c ?_ ?_ ?_))⟩
  · rw [hget.returns.sreg .ds (by simp)]
    simp [hrun.ds]
  all_goals omega

/-- The epilogue -/
theorem leaving_wp {fuel : ℕ} {m : Mem} (hrun : Running K c m c1)
    (hq : ∀ u, Leaving K c m u → u.reg .eax = c1.reg .eax → Q h (some u) ()) :
    Wp E P Q h () (run K.machine code (fuel + 6) (pops preInitSaves ++ [.leave 4, .ret 0]) c1) := by
  refine pops_wp fuel rfl hrun.activation ?_ ?_ fun u hexit => hq u ⟨hexit.toUnwound, ?_, ?_, ?_⟩ ?_
  · decide
  · simp
  · rw [hexit.sreg .ds (by simp), hrun.ds]
  · rw [hexit.sreg .ss (by simp), hrun.activation.ss]
  · rw [hexit.mem]
    exact hrun.mem
  · exact hexit.reg .eax (by simp) (by simp) (by simp)

/-- The table is read. -/
theorem found_wp {m : Mem} (hr : BootReady K c reqpkt pDevHelp2 pTKSSBase) (hrun : Running K c m c2)
    (htable : Holds c2.mem (K.base ((c2.reg .eax).setWidth 16) + low (c2.reg .ebx)) K.table.bytes)
    (hq : ∀ u, Leaving K c (write m (lin K.machine c .ds pTKSSBase) 4 K.table.tkssBase) u →
      u.reg .eax = 0 → Q h (some u) ()) :
    Wp E P Q h ()
      (run K.machine code 24 ((preInitTail K.devHlpGetDOSVar pTKSSBase).drop 5) c2) := by
  have hentry := K.table.read_tkssBase htable
  have hact := hrun.activation
  refine wp_mov
    (wp_mov (wp_mov (wp_alu (wp_alu (wp_mov (wp_state (fun a => a.reg .eax = K.table.tkssBase ∧
    a.sreg .ds = c.sreg .ds ∧ Activation K.base 0 preInitSaves c a ∧ a.mem = c2.mem)
    ⟨?_, ?_, ?_, ?_⟩ ?_))))))
  · simpa [setWidth_low, add_left_comm] using hentry
  · simp [hrun.ds]
  · exact hact.of_eq (by simp) (by simp) (by simp) (by simp)
  · simp
  rintro a ⟨heax, hds, hact, hmem⟩
  refine wp_mov (wp_mov (wp_label (leaving_wp ⟨?_, ?_, ?_⟩ fun u hleft hu => hq u hleft ?_)))
  · refine hact.store K.table.tkssBase ?_ ?_ ?_ ?_ ?_ (hr.activation_apart hr.tkssBase)
    · simp
    · simp
    · simp
    · simp [hds, heax]
    · decide
  · simp [hds]
  · simp [hds, heax, hmem]
    exact hrun.mem.write _
  · rw [hu]
    simp

theorem preInit_wp (hr : BootReady K c reqpkt pDevHelp2 pTKSSBase) :
    Wp (bootEnv K pDevHelp2) (fun _ _ => True)
      (fun tr res _ => ∃ u, res = some u ∧ Booted K c pDevHelp2 pTKSSBase tr u) [] ()
      (preInitExec K pDevHelp2 pTKSSBase c) := by
  refine saving_wp hr fun c1 hrun => ?_
  refine wp_mov (wp_alu (wp_mov (wp_call_of (fun a => Running K c (savedDevHelp K c pDevHelp2) a ∧
    a.reg .eax = 9 ∧ a.reg .ecx = 0 ∧ a.reg .edx = K.devHlpGetDOSVar)
    ⟨⟨?_, ?_, ?_⟩, ?_, ?_, ?_⟩ ?_)))
  · exact hrun.activation.of_eq (by simp) (by simp) (by simp) (by simp)
  · simp [hrun.ds]
  · simpa using hrun.mem
  · simp
  · simp
  · simp
  rintro a ⟨hrun, heax, hecx, hedx⟩ c2 ⟨⟩ hE
  have hvar : lin K.machine (a.push K.machine 4 K.ra) .ds pDevHelp2 =
      lin K.machine c .ds pDevHelp2 := by
    simp [hrun.ds]
  have hasks : Asks K pDevHelp2 (a.push K.machine 4 K.ra) := by
    refine ⟨(congrArg (read _ · 4) hvar).trans (hrun.devHelp2 hr), ?_, ?_, ?_⟩
    · simp [hedx]
    · simp [heax]
    · simp [hecx]
  have hget : GetsDosTable K (a.push K.machine 4 K.ra) c2 := hE hasks
  have hasked := hrun.asked hr.scratch hget
  refine ⟨trivial, wp_ite (fun hcf => ?_) fun hcf => ?_⟩
  · exact leaving_wp hasked fun u hleft heax => ⟨u, rfl, .failed hasks hcf hleft heax⟩
  · have hcf : c2.cf = false := by simpa using hcf
    exact found_wp hr hasked (hget.found hcf) fun u hleft heax =>
      ⟨u, rfl, .done hasks hcf hleft heax⟩

end Parts

/-! ## Stack addresses -/

/-- `__StackToFlat(addr)` of a driver with its variable `TKSSBase` at `var` -/
def stackToFlat (m : Mem) (var : Addr) (addr : BitVec 32) : BitVec 32 :=
  addr + read m (read m var 4) 4

/-- The memory, the selector of the current stack, and the variables `TKSSBase` of mwdd32 and of the
    drivers that have attached. -/
structure Clients where
  mem : Mem
  ss : BitVec 16
  vars : List Addr

/-- What may happen after the first initialisation -/
inductive ClientAction
  | attach (pTKSSBase pDevHelp32 : BitVec 32)
  | run

/-- An attach calls `mwdd32_export_devhelp32`, which reads the variable `own`. Anything else leaves
    the variables alone, and the kernel keeps its own for the current stack. -/
inductive ClientStep (K : BootKernel) (devHlp32 own : Addr) : Clients → ClientAction →
    Clients → Prop
  | attach {s : Clients} {pTKSSBase pDevHelp32 : BitVec 32} : pTKSSBase ≠ 0 →
      Separate devHlp32 s.mem pTKSSBase pDevHelp32 →
      (∀ a ∈ K.table.tkssBase :: s.vars,
        Unused (read s.mem own 4) devHlp32 s.mem a 4 pTKSSBase pDevHelp32) →
      ClientStep K devHlp32 own s (.attach pTKSSBase pDevHelp32)
        ⟨(mwdd32ExportDevhelp32 (read s.mem own 4) devHlp32 s.mem pTKSSBase pDevHelp32).1, s.ss,
          pTKSSBase :: s.vars⟩
  | run {s : Clients} {m : Mem} {ss : BitVec 16} : (∀ v ∈ s.vars, AgreesOn s.mem m v 4) →
      read m K.table.tkssBase 4 = K.base ss → ClientStep K devHlp32 own s .run ⟨m, ss, s.vars⟩

/-- What happens after `mwdd32_pre_init_base` has returned in `u` -/
def clients (K : BootKernel) (devHlp32 own : Addr) (u : Cpu) :
    Transition.System Clients ClientAction where
  init s := s = ⟨u.mem, u.sreg .ss, [own]⟩ ∧ read u.mem K.table.tkssBase 4 = K.base (u.sreg .ss)
  step := ClientStep K devHlp32 own

/-- Every variable points to the kernel's. -/
structure Clients.Linked (K : BootKernel) (own : Addr) (s : Clients) : Prop where
  own : own ∈ s.vars
  vars : ∀ v ∈ s.vars, read s.mem v 4 = K.table.tkssBase
  value : read s.mem K.table.tkssBase 4 = K.base s.ss

/-- Whatever an export returns, it has stored the pointer. -/
theorem export_var {tkssBase devHlp32 : BitVec 32} {m : Mem} {pTKSSBase pDevHelp32 : BitVec 32}
    (hp : pTKSSBase ≠ 0) (hs : Separate devHlp32 m pTKSSBase pDevHelp32) :
    read (mwdd32ExportDevhelp32 tkssBase devHlp32 m pTKSSBase pDevHelp32).1 pTKSSBase 4 =
      tkssBase := by
  have hvar := read_write_self32 m pTKSSBase tkssBase
  unfold mwdd32ExportDevhelp32
  rw [if_pos hp]
  dsimp only
  split
  · next hd =>
    split
    · next l hl =>
      have hrecord := hs.record hp hd.1
      have hversion := (read_header (m := m) tkssBase hrecord).2
      have hl : members (recordVersion m pDevHelp32) = some l :=
        (congrArg members hversion).symm.trans hl
      have hapart :=
        hrecord.left_within (table_within pDevHelp32 hl) (by have := length_pos hl; omega)
      rw [read_congr (copy_agreesOn hapart.symm), hvar]
    · exact hvar
  · exact hvar

theorem ClientStep.linked {devHlp32 own : Addr} {s s' : Clients} {a : ClientAction}
    (hstep : ClientStep K devHlp32 own s a s') (hs : s.Linked K own) : s'.Linked K own := by
  cases hstep with
  | attach hp hsep hunused =>
    refine ⟨List.mem_cons_of_mem _ hs.own, fun v hv => ?_, ?_⟩
    · rcases List.mem_cons.mp hv with rfl | hv
      · exact (export_var hp hsep).trans (hs.vars _ hs.own)
      · rw [read_congr (hunused v (List.mem_cons_of_mem _ hv)).export_agreesOn, hs.vars v hv]
    · rw [read_congr (hunused _ List.mem_cons_self).export_agreesOn, hs.value]
  | run hvars hvalue =>
    exact ⟨hs.own, fun v hv => (read_congr (hvars v hv)).trans (hs.vars v hv), hvalue⟩

/-- **The first initialisation.** Every run returns to its caller; it asks the kernel once, and
    either gives its return code or leaves its pointer in `TKSSBase`, wherever the table and however
    long its first part is. After that, through any number of attaches, successful or not, and of
    switches of the stack, `__StackToFlat` of mwdd32 and of every driver that has attached converts
    every address of the current stack. -/
theorem preInit_spec (K : BootKernel) (c : Cpu) (reqpkt pDevHelp2 pTKSSBase : BitVec 32)
    (hr : BootReady K c reqpkt pDevHelp2 pTKSSBase) {tr : List BootEvent} {res : Option Cpu}
    (h : Runs (bootEnv K pDevHelp2) () (preInitExec K pDevHelp2 pTKSSBase c) tr res ()) :
    ∃ u, res = some u ∧ Booted K c pDevHelp2 pTKSSBase tr u ∧
      ∀ devHlp32 s, (∀ e ∈ tr, e.2.cf = false) →
        Transition.Reachable (clients K devHlp32 (lin K.machine c .ds pTKSSBase) u) s →
        ∀ var ∈ s.vars, ∀ addr, stackToFlat s.mem var addr = K.base s.ss + addr := by
  obtain ⟨-, u, hu, hbooted⟩ := (preInit_wp hr).sound h
  refine ⟨u, hu, hbooted, fun devHlp32 s hcf hreach var hvar addr => ?_⟩
  have hown : read u.mem (lin K.machine c .ds pTKSSBase) 4 = K.table.tkssBase := by
    cases hbooted with
    | failed _ hfail =>
      rw [hcf _ (List.mem_singleton_self _)] at hfail
      cases hfail
    | done _ _ hleft =>
      have hscratch := hr.scratch
      rw [hleft.mem.read_eq (hr.tkssBase.mono le_rfl (by omega)), read_write_self32]
  have hlinked : s.Linked K (lin K.machine c .ds pTKSSBase) := by
    refine hreach.invariant (I := Clients.Linked K _) ?_ fun s a t hs hstep =>
      ClientStep.linked hstep hs
    rintro s ⟨rfl, hvalue⟩
    exact ⟨List.mem_singleton_self _, fun v hv => List.mem_singleton.mp hv ▸ hown, hvalue⟩
  rw [stackToFlat, hlinked.vars var hvar, hlinked.value, BitVec.add_comm]

/-- A kernel with a table of three and twelve dwords at `0x5000`, when it is there. -/
def bootKernel : BootKernel :=
  ⟨fun sel => if sel = 8 then 0x10000 else 0, 0, 0x12345678, 0x24,
    ⟨[1, 2, 3], List.replicate 11 0 ++ [0x600], by decide, by decide, by decide⟩, 0x100⟩

/-- The stack of selector 8, the packet at `0x500`, the table, and the client of `sampleMem` -/
def bootCpu : Cpu :=
  let m := write (write (write sampleMem 0x600 4 0x10000) 0x10804 4 0x500) 0x50E 4 0x12345678
  ⟨fun _ => 0x800, fun sr => if sr = .ss then 8 else 0, false, false, 0,
    fun x => (bootKernel.table.bytes[(x - 0x5000).toNat]?).getD (m x), []⟩

/-- The kernel finds the table at 0x5000, if it is there. -/
def bootAnswer (op : PreInitCall × Cpu) : Cpu :=
  let c := op.2.addSp bootKernel.machine 4
  { (c.setReg .eax 0).setReg .ebx 0x5000 with
    cf := !decide (Holds op.2.mem 0x5000 bootKernel.table.bytes) }

theorem bootAnswer_env (op : PreInitCall × Cpu) :
    bootEnv bootKernel 0x4000 () op (bootAnswer op) () := by
  intro _
  refine ⟨⟨?_, ?_, fun s _ => ?_, fun _ hs => by cases hs⟩, AgreesOff.refl _ _ _, fun hcf => ?_⟩
  · simp [bootAnswer]
  · simp [bootAnswer]
  · simp [bootAnswer]
  · have htable : bootKernel.base 0#16 + low 0x5000#32 = 0x5000#32 := by decide
    simpa [bootAnswer, htable] using hcf

theorem bootCpu_ready : BootReady bootKernel bootCpu 0x500 0x4000 0x4004 :=
  ⟨by decide, by decide, by decide, by decide, by decide, by decide⟩

theorem bootCpu_found : ∀ e ∈ ((preInitExec bootKernel 0x4000 0x4004 bootCpu).answer bootAnswer).1,
    e.2.cf = false := by
  decide

theorem bootCpu_unused {m : Mem} {a : Addr} (hm : recordVersion m 0x2000 = 2)
    (hvar : Apart 0x3000 4 a 4) (htable : Apart 0x1000 144 a 4)
    (hrecord : Apart 0x2000 (8 + 4 * slots 2) a 4) :
    Unused 0x600 0x1000 m a 4 0x3000 0x2000 := by
  refine ⟨htable, fun _ => hvar, fun _ _ => ?_⟩
  have hversion : recordVersion (write m 0x3000 4 0x600) 0x2000 = 2 := by
    rw [recordVersion, read_write_of_apart (by decide)]
    exact hm
  rw [recordSize, hversion]
  exact hrecord

theorem bootCpu_attach {m : Mem} {ss : BitVec 16} (hown : read m 0x4004 4 = 0x600)
    (hversion : recordVersion m 0x2000 = 2) :
    ∃ m', ClientStep bootKernel 0x1000 0x4004 ⟨m, ss, [0x4004]⟩
      (.attach 0x3000 0x2000) ⟨m', ss, [0x3000, 0x4004]⟩ := by
  refine ⟨_, .attach (by decide) ⟨fun _ _ => ?_, by decide, fun _ => ?_⟩ fun a ha => ?_⟩
  · rw [recordSize, hversion]
    decide
  · rw [recordSize, hversion]
    decide
  · rw [hown]
    rcases List.mem_cons.mp ha with rfl | ha
    · exact bootCpu_unused hversion (by decide) (by decide) (by decide)
    · cases List.mem_singleton.mp ha
      exact bootCpu_unused hversion (by decide) (by decide) (by decide)

/-- A driver that attaches after the first initialisation converts its stack addresses. -/
theorem preInit_spec_sample : ∃ tr u s, Runs (bootEnv bootKernel 0x4000) ()
    (preInitExec bootKernel 0x4000 0x4004 bootCpu) tr (some u) () ∧ u.reg .eax = 0 ∧
    Transition.Reachable (clients bootKernel 0x1000 0x4004 u) s ∧ 0x3000 ∈ s.vars ∧
    stackToFlat s.mem 0x3000 0x7F0 = 0x107F0 := by
  have hrun := Runs.answer bootAnswer_env (preInitExec bootKernel 0x4000 0x4004 bootCpu)
  obtain ⟨u, hu, hbooted, hflat⟩ :=
    preInit_spec bootKernel bootCpu 0x500 0x4000 0x4004 bootCpu_ready hrun
  rw [hu] at hrun
  obtain ⟨hleft, heax⟩ : Leaving bootKernel bootCpu
      (write (savedDevHelp bootKernel bootCpu 0x4000) 0x4004 4 0x600) u ∧ u.reg .eax = 0 := by
    have hfound := bootCpu_found
    generalize ((preInitExec bootKernel 0x4000 0x4004 bootCpu).answer bootAnswer).1 =
      tr at hbooted hfound
    cases hbooted with
    | failed _ hcf =>
      rw [hfound _ (List.mem_singleton_self _)] at hcf
      cases hcf
    | done _ _ hleft heax => exact ⟨hleft, heax⟩
  have hss : u.sreg .ss = 8 := hleft.ss
  have hvalue : read u.mem 0x600 4 = 0x10000 := (hleft.mem.read_eq (by decide)).trans (by decide)
  have hown : read u.mem 0x4004 4 = 0x600 := (hleft.mem.read_eq (by decide)).trans (by decide)
  have hversion : recordVersion u.mem 0x2000 = 2 :=
    (hleft.mem.read_eq (by decide)).trans (by decide)
  obtain ⟨m, hattach⟩ := @bootCpu_attach _ (u.sreg .ss) hown hversion
  have hinit : read u.mem 0x600 4 = bootKernel.base (u.sreg .ss) := by
    rw [hss]
    exact hvalue
  have hreach : Transition.Reachable (clients bootKernel 0x1000 0x4004 u)
      ⟨m, u.sreg .ss, [0x3000, 0x4004]⟩ :=
    .step (.init ⟨rfl, hinit⟩) hattach
  refine ⟨_, u, _, hrun, heax, hreach, List.mem_cons_self, ?_⟩
  rw [hflat 0x1000 _ bootCpu_found hreach 0x3000 List.mem_cons_self, hss]
  rfl

end Mwdd32.Server
