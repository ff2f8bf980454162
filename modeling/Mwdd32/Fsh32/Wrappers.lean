import Mwdd32.Fsh32.Dovolio

/-!
# The FSH32 wrappers

The 32-bit wrappers of `fsh32/*.asm` around the kernel's 16-bit file system helpers, which take
their arguments in pascal order and remove them. As in the DevHlp32 wrappers the jump to the
`thunk16$` label, the `call far ptr FSH_XXX` there and the jump back are one `call`.

* `Helper.spec`: one symbolic execution of each wrapper.
* `fsh32_marshals`: what the helper finds in its frame, what the caller gets of its results, and
  the registers at the return.
-/

namespace Mwdd32.Fsh32

open ByteMem Interaction I386 Opnd Reg
open Dovolio (farPtr)

/-- The wrappers and their helpers -/
inductive Helper
  | getvolparm | devioctl | addshare | qsysinfo | segalloc | findduphvpb | setvolume
  | removeshare | forcenoswap
  deriving DecidableEq

namespace Helper

/-- The label `@@error` -/
inductive Label
  | error
  deriving DecidableEq

/-! ## Code -/

/-- `fsh32_getvolparm.asm`, lines 59–94 -/
def fsh32Getvolparm : Code Label Helper :=
  [.enter 4 8, .push 4 (s .es), .push 4 (r ebx), .alu .sub (r esp) (imm 10),
   .mov (r16 eax) (m 2 .ss ebp 8), .mov (m 2 .ss esp 8) (r16 eax),
   .mov (r16 eax) (s .ss), .mov (m 2 .ss esp 6) (r16 eax), .mov (m 2 .ss esp 2) (r16 eax),
   .mov (r eax) (ea ebp (-8)), .mov (m 2 .ss esp 0) (r16 eax),
   .mov (r eax) (ea ebp (-4)), .mov (m 2 .ss esp 4) (r16 eax), .call 1 .getvolparm,
   .mov (r eax) (r16 eax), .alu .cmp (r eax) (imm NO_ERROR), .jcc .nonzero .error,
   .mov (r eax) (m 4 .ss ebp (-8)), .mov (r ebx) (m 4 .ss ebp 16), .mov (m 4 .ds ebx 0) (r eax),
   .mov (r eax) (m 4 .ss ebp (-4)), .mov (r ebx) (m 4 .ss ebp 12), .mov (m 4 .ds ebx 0) (r eax),
   .mov (r eax) (imm NO_ERROR),
   .label .error,
   .pop 4 (r ebx), .pop 4 (s .es), .leave 4, .ret 0]

/-- `fsh32_devioctl.asm`, lines 65–105 -/
def fsh32Devioctl : Code Label Helper :=
  [.enter 4 0, .push 4 (s .es), .push 4 (r ebx), .alu .sub (r esp) (imm 24),
   .mov (r16 eax) (m 2 .ss ebp 8), .mov (m 2 .ss esp 22) (r16 eax),
   .mov (r eax) (m 4 .ss ebp 12), .mov (m 4 .ss esp 18) (r eax),
   .mov (r16 eax) (m 2 .ss ebp 16), .mov (m 2 .ss esp 16) (r16 eax),
   .mov (r16 eax) (m 2 .ss ebp 20), .mov (m 2 .ss esp 14) (r16 eax),
   .mov (r16 eax) (m 2 .ss ebp 24), .mov (m 2 .ss esp 12) (r16 eax),
   .mov (r eax) (m 4 .ss ebp 28), .mov (m 4 .ss esp 8) (r eax),
   .mov (r16 eax) (m 2 .ss ebp 32), .mov (m 2 .ss esp 6) (r16 eax),
   .mov (r eax) (m 4 .ss ebp 36), .mov (m 4 .ss esp 2) (r eax),
   .mov (r16 eax) (m 2 .ss ebp 40), .mov (m 2 .ss esp 0) (r16 eax), .call 1 .devioctl,
   .mov (r eax) (r16 eax),
   .pop 4 (r ebx), .pop 4 (s .es), .leave 4, .ret 0]

/-- `fsh32_addshare.asm`, lines 60–91 -/
def fsh32Addshare : Code Label Helper :=
  [.enter 4 4, .push 4 (s .es), .push 4 (r ebx), .alu .sub (r esp) (imm 12),
   .mov (r eax) (m 4 .ss ebp 8), .mov (m 4 .ss esp 8) (r eax),
   .mov (r16 eax) (m 2 .ss ebp 12), .mov (m 2 .ss esp 6) (r16 eax),
   .mov (r16 eax) (m 2 .ss ebp 16), .mov (m 2 .ss esp 4) (r16 eax),
   .mov (r eax) (s .ss), .mov (m 2 .ss esp 2) (r16 eax),
   .mov (r eax) (ea ebp (-4)), .mov (m 2 .ss esp 0) (r16 eax), .call 1 .addshare,
   .mov (r eax) (r16 eax), .alu .cmp (r eax) (imm NO_ERROR), .jcc .nonzero .error,
   .mov (r eax) (m 4 .ss ebp (-4)), .mov (r ebx) (m 4 .ss ebp 20), .mov (m 4 .ds ebx 0) (r eax),
   .mov (r eax) (imm NO_ERROR),
   .label .error,
   .pop 4 (r ebx), .pop 4 (s .es), .leave 4, .ret 0]

/-- `fsh32_qsysinfo.asm`, lines 58–87 -/
def fsh32Qsysinfo : Code Label Helper :=
  [.enter 4 6, .push 4 (s .es), .push 4 (r ebx), .alu .sub (r esp) (imm 8),
   .mov (r eax) (m 4 .ss ebp 8), .mov (m 2 .ss esp 6) (r16 eax),
   .mov (r eax) (ea ebp (-6)), .mov (m 2 .ss esp 2) (r16 eax),
   .mov (r eax) (s .ss), .mov (m 2 .ss esp 4) (r16 eax), .mov (m 2 .ss esp 0) (imm 6),
   .call 1 .qsysinfo,
   .mov (r eax) (r16 eax), .alu .cmp (r eax) (imm NO_ERROR), .jcc .nonzero .error,
   .mov (r ebx) (m 4 .ss ebp 12),
   .mov (r16 eax) (m 2 .ss ebp (-6)), .mov (m 2 .ds ebx 0) (r16 eax),
   .mov (r16 eax) (m 2 .ss ebp (-4)), .mov (m 2 .ds ebx 2) (r16 eax),
   .mov (r16 eax) (m 2 .ss ebp (-2)), .mov (m 2 .ds ebx 4) (r16 eax),
   .mov (r eax) (imm NO_ERROR),
   .label .error,
   .pop 4 (r ebx), .pop 4 (s .es), .leave 4, .ret 0]

/-- `fsh32_segalloc.asm`, lines 59–86 -/
def fsh32Segalloc : Code Label Helper :=
  [.enter 4 4, .push 4 (s .es), .push 4 (r ebx), .alu .sub (r esp) (imm 10),
   .mov (r eax) (ea ebp (-4)), .mov (m 2 .ss esp 0) (r16 eax),
   .mov (r eax) (s .ss), .mov (m 2 .ss esp 2) (r16 eax),
   .mov (r eax) (m 4 .ss ebp 12), .mov (m 4 .ss esp 4) (r eax),
   .mov (r16 eax) (m 2 .ss ebp 8), .mov (m 2 .ss esp 8) (r16 eax), .call 1 .segalloc,
   .mov (r eax) (r16 eax), .alu .cmp (r eax) (imm NO_ERROR), .jcc .nonzero .error,
   .mov (r16 eax) (m 2 .ss ebp (-4)), .mov (r ebx) (m 4 .ss ebp 16),
   .mov (m 2 .ds ebx 0) (r16 eax), .mov (r eax) (imm NO_ERROR),
   .label .error,
   .pop 4 (r ebx), .pop 4 (s .es), .leave 4, .ret 0]

/-- `fsh32_findduphvpb.asm`, lines 58–85 -/
def fsh32Findduphvpb : Code Label Helper :=
  [.enter 4 2, .push 4 (s .es), .push 4 (r ebx), .alu .sub (r esp) (imm 6),
   .mov (r16 eax) (m 2 .ss ebp 8), .mov (m 2 .ss esp 4) (r16 eax),
   .mov (r eax) (s .ss), .mov (m 2 .ss esp 2) (r16 eax),
   .mov (r eax) (ea ebp (-2)), .mov (m 2 .ss esp 0) (r16 eax), .call 1 .findduphvpb,
   .mov (r eax) (r16 eax), .alu .cmp (r eax) (imm NO_ERROR), .jcc .nonzero .error,
   .mov (r16 eax) (m 2 .ss ebp (-2)), .mov (r ebx) (m 4 .ss ebp 12),
   .mov (m 2 .ds ebx 0) (r16 eax), .mov (r eax) (imm NO_ERROR),
   .label .error,
   .pop 4 (r ebx), .pop 4 (s .es), .leave 4, .ret 0]

/-- `fsh32_setvolume.asm`, lines 58–69 -/
def fsh32Setvolume : Code Label Helper :=
  [.push 4 (s .es), .push 4 (r ebx), .alu .sub (r esp) (imm 6),
   .mov (m 4 .ss esp 0) (r edx), .mov (m 2 .ss esp 4) (r16 eax), .call 1 .setvolume,
   .mov (r eax) (r16 eax),
   .pop 4 (r ebx), .pop 4 (s .es), .ret 0]

/-- `fsh32_removeshare.asm`, lines 57–66 -/
def fsh32Removeshare : Code Label Helper :=
  [.push 4 (s .es), .push 4 (r ebx), .alu .sub (r esp) (imm 4),
   .mov (m 4 .ss esp 0) (r eax), .call 1 .removeshare,
   .pop 4 (r ebx), .pop 4 (s .es), .ret 0]

/-- `fsh32_forcenoswap.asm`, lines 57–66 -/
def fsh32Forcenoswap : Code Label Helper :=
  [.push 4 (s .es), .push 4 (r ebx), .alu .sub (r esp) (imm 2),
   .mov (m 2 .ss esp 0) (r16 eax), .call 1 .forcenoswap,
   .pop 4 (r ebx), .pop 4 (s .es), .ret 0]

/-- The code of each helper -/
def code : Helper → Code Label Helper
  | .getvolparm => fsh32Getvolparm
  | .devioctl => fsh32Devioctl
  | .addshare => fsh32Addshare
  | .qsysinfo => fsh32Qsysinfo
  | .segalloc => fsh32Segalloc
  | .findduphvpb => fsh32Findduphvpb
  | .setvolume => fsh32Setvolume
  | .removeshare => fsh32Removeshare
  | .forcenoswap => fsh32Forcenoswap

variable (base : BitVec 16 → Addr) (ra : BitVec 32)

/-- A wrapper from its first instruction to its return. -/
def exec (w : Helper) (c : Cpu) : Prog (Helper × Cpu) (fun _ => Cpu) (Option Cpu) :=
  run (.stack32 base ra) w.code 40 w.code c

/-! ## Parameters and results -/

/-- What a wrapper hands to its helper: an argument or a register of its own caller, a constant,
    or the address of its own variable `d` bytes above the stack pointer of its entry. -/
inductive Source
  | arg (i : ℕ)
  | reg (x : Reg)
  | const (v : BitVec 32)
  | own (d : BitVec 32)

/-- The value of a source at the entry `c` -/
def Source.value (c : Cpu) : Source → BitVec 32
  | .arg i => I386.arg (.stack32 base ra) c i
  | .reg x => c.reg x
  | .const v => v
  | .own d => farPtr ((c.sreg .ss).setWidth 32) (c.reg .esp + d)

/-- The parameters of the helper from left to right, with their sizes in bytes. -/
def params : Helper → List (ℕ × Source)
  | .getvolparm => [(2, .arg 0), (4, .own (-8)), (4, .own (-12))]
  | .devioctl => [(2, .arg 0), (4, .arg 1), (2, .arg 2), (2, .arg 3), (2, .arg 4), (4, .arg 5),
      (2, .arg 6), (4, .arg 7), (2, .arg 8)]
  | .addshare => [(4, .arg 0), (2, .arg 1), (2, .arg 2), (4, .own (-8))]
  | .qsysinfo => [(2, .arg 0), (4, .own (-10)), (2, .const 6)]
  | .segalloc => [(2, .arg 0), (4, .arg 1), (4, .own (-8))]
  | .findduphvpb => [(2, .arg 0), (4, .own (-6))]
  | .setvolume => [(2, .reg .eax), (4, .reg .edx)]
  | .removeshare => [(4, .reg .eax)]
  | .forcenoswap => [(2, .reg .eax)]

/-- The size of a parameter list. -/
def bytes (l : List (ℕ × Source)) : ℕ := (l.map Prod.fst).sum

/-- A result that is copied from the wrapper's own variable to the caller's: `size` bytes, to
    `disp` bytes behind the pointer argument `ptr`. -/
structure Output where
  size : ℕ
  own : BitVec 32
  ptr : ℕ
  disp : BitVec 32

/-- The results in the order in which they are copied. -/
def outputs : Helper → List Output
  | .getvolparm => [⟨4, -12, 2, 0⟩, ⟨4, -8, 1, 0⟩]
  | .addshare => [⟨4, -8, 3, 0⟩]
  | .qsysinfo => [⟨2, -10, 1, 0⟩, ⟨2, -8, 1, 2⟩, ⟨2, -6, 1, 4⟩]
  | .segalloc => [⟨2, -8, 2, 0⟩]
  | .findduphvpb => [⟨2, -6, 1, 0⟩]
  | _ => []

/-- The address of the variable in the frame of the wrapper entered in `c`. -/
def Output.src (c : Cpu) (o : Output) : Addr := base (c.sreg .ss) + (c.reg .esp + o.own)

/-- The caller's location. -/
def Output.dest (c : Cpu) (o : Output) : Addr :=
  base (c.sreg .ds) + (I386.arg (.stack32 base ra) c o.ptr + o.disp)

/-- The bytes of the variables in the frame. -/
def locals : Helper → ℕ
  | .getvolparm => 8
  | .addshare | .segalloc => 4
  | .qsysinfo => 6
  | .findduphvpb => 2
  | _ => 0

/-- The bytes above the variables: the saved EBP, the return address and the arguments. -/
def above : Helper → ℕ
  | .getvolparm | .segalloc => 20
  | .devioctl => 44
  | .addshare => 24
  | .qsysinfo | .findduphvpb => 16
  | _ => 4

/-- The helper removes its return address and its parameters, and keeps EBP, DS, SS and the frame
    of the wrapper, except the variables. -/
def pascal : Env Unit (Helper × Cpu) (fun _ => Cpu) :=
  fun _ op c2 _ => Returns (.stack32 base ra) (4 + bytes op.1.params) [.ds, .ss]
    [(0, 8), (8 + BitVec.ofNat 32 op.1.locals, op.1.above)] op.2 c2

/-- The parameters `l` are at the end of the frame of the helper entered in `c1`, the last one
    right above the return address. -/
def Passed (c c1 : Cpu) : List (ℕ × Source) → Prop
  | [] => True
  | (n, x) :: l =>
    read c1.mem (c1.stk (.stack32 base ra) (BitVec.ofNat 32 (4 + bytes l))) n =
        ((x.value base ra c).setWidth (8 * n)).setWidth 32 ∧
      Passed c c1 l

/-- `eax` at the return, when the helper left `eax`. -/
def rc (eax : BitVec 32) : Helper → BitVec 32
  | .removeshare | .forcenoswap => eax
  | _ => low eax

/-- The memory `m` after the results in it are copied one after the other. -/
def copied (c : Cpu) (l : List Output) (m : Mem) : Mem :=
  l.foldl (fun m' o => write m' (o.dest base ra c) o.size (read m (o.src base c) o.size)) m

/-- The caller's location is not in the stack bytes of the wrapper, its helper's frame and its own
    arguments. -/
def Outside (w : Helper) (c : Cpu) (o : Output) : Prop :=
  Apart (base (c.sreg .ss) + (c.reg .esp + -36)) (32 + w.above) (o.dest base ra c) o.size

/-- The wrapper entered in `c` got `c2` back from its helper and returned in `u`. -/
@[mk_iff] structure Outcome (w : Helper) (c c2 u : Cpu) : Prop where
  rc : u.reg .eax = w.rc (c2.reg .eax)
  stores : u.stores = c2.stores ++
    if low (c2.reg .eax) = 0 then w.outputs.map (Output.dest base ra c) else []
  mem : u.mem = if low (c2.reg .eax) = 0 then copied base ra c w.outputs c2.mem else c2.mem
  esp : u.reg .esp = c.reg .esp + 4
  ebx : u.reg .ebx = c.reg .ebx
  ebp : u.reg .ebp = c.reg .ebp
  es : u.sreg .es = c.sreg .es
  eip : u.eip = c.top (.stack32 base ra) 4

/-- What a run of the helper `w` from `c` does: one call of FSHELPER with the arguments in their
    order, then the return that `Outcome` describes. -/
def Spec (w : Helper) (c : Cpu) : Prop :=
  Wp (pascal base ra)
    (fun tr e => tr = [] ∧ e.1.1 = w ∧ Passed base ra c e.1.2 w.params)
    (fun tr r _ => ∃ c1 c2 u, tr = [⟨(w, c1), c2⟩] ∧ r = some u ∧ Outcome base ra w c c2 u)
    [] () (w.exec base ra c)

variable {base ra}

theorem farPtr_parts (x : BitVec 32) : farPtr (high x) (low x) = x := by
  rw [farPtr, setLow_low]
  unfold setLow high
  grind

/-- A far pointer that was stored one word at a time. -/
theorem read_eq_farPtr (m : Mem) (b x d sel off : BitVec 32) :
    read m (b + (x + d)) 4 = farPtr sel off ↔
      read m (b + (x + d)) 2 = low off ∧ read m (b + (x + (d + 2))) 2 = low sel := by
  rw [← high_read_dword, ← low_read_dword]
  constructor
  · intro h
    rw [h, farPtr, low_setLow]
    refine ⟨rfl, ?_⟩
    unfold setLow low high
    grind
  · rintro ⟨hoff, hsel⟩
    rw [← farPtr_parts (read m (b + (x + d)) 4), hoff, hsel, farPtr, farPtr, setLow_low]
    unfold setLow low
    grind

attribute [local simp] code params outputs locals above bytes rc copied Passed Source.value
  Output.src Output.dest Outside Spec outcome_iff
  fsh32Getvolparm fsh32Devioctl fsh32Addshare fsh32Qsysinfo fsh32Segalloc fsh32Findduphvpb
  fsh32Setvolume fsh32Removeshare fsh32Forcenoswap
  NO_ERROR read_eq_farPtr BitVec.add_assoc Function.update_apply BitVec.sub_eq_add_neg

/-- The wrappers that take their arguments in registers. -/
theorem registers_spec {w : Helper} (hw : w ∈ [.setvolume, .removeshare, .forcenoswap]) (c : Cpu) :
    Spec base ra w c := by
  simp only [List.mem_cons, List.not_mem_nil, or_false] at hw
  rcases hw with rfl | rfl | rfl
  all_goals
    intro c2 _ hk
    obtain ⟨hesp, hebp, hsreg, hmem⟩ := hk
    simp at hesp hebp hsreg hmem
    obtain ⟨hsaved, hret⟩ := hmem
    refine ⟨by simp, ?_⟩
    simp [hesp, hebp, hsreg, hsaved.read_eq, hret.read_eq]

theorem devioctl_spec (c : Cpu) : Spec base ra .devioctl c := by
  intro c2 _ hk
  obtain ⟨hesp, hebp, hsreg, hmem⟩ := hk
  simp at hesp hebp hsreg hmem
  obtain ⟨hsaved, habove⟩ := hmem
  refine ⟨by simp, ?_⟩
  simp [hesp, hebp, hsreg, hsaved.read_eq, habove.read_eq]

/-- The wrappers with a single result. -/
theorem result_spec {w : Helper} (hw : w ∈ [.addshare, .segalloc, .findduphvpb]) (c : Cpu)
    (hout : ∀ o ∈ w.outputs, w.Outside base ra c o) : Spec base ra w c := by
  simp only [List.mem_cons, List.not_mem_nil, or_false] at hw
  rcases hw with rfl | rfl | rfl
  all_goals
    intro c2 _ hk
    obtain ⟨hesp, hebp, hsreg, hmem⟩ := hk
    simp at hesp hebp hsreg hmem hout
    obtain ⟨hsaved, habove⟩ := hmem
    refine ⟨by simp [low_selector], ?_⟩
    by_cases hax : low (c2.reg .eax) = 0#32
    · simp [hax, hesp, hebp, hsreg, hsaved.read_eq, habove.read_eq, hout.of_within]
    · simp [hax, hesp, hebp, hsreg, hsaved.read_eq, habove.read_eq]

theorem getvolparm_spec (c : Cpu)
    (hout : ∀ o ∈ outputs .getvolparm, Outside base ra .getvolparm c o) :
    Spec base ra .getvolparm c := by
  intro c2 _ hk
  obtain ⟨hesp, hebp, hsreg, hmem⟩ := hk
  simp at hesp hebp hsreg hmem hout
  obtain ⟨hsaved, habove⟩ := hmem
  obtain ⟨hpvpfsd, hpvpfsi⟩ := hout
  refine ⟨by simp [low_selector], ?_⟩
  by_cases hax : low (c2.reg .eax) = 0#32
  · simp [hax, hesp, hebp, hsreg, hsaved.read_eq, habove.read_eq, hpvpfsd.of_within,
      hpvpfsi.of_within]
  · simp [hax, hesp, hebp, hsreg, hsaved.read_eq, habove.read_eq]

theorem qsysinfo_spec (c : Cpu) (hout : ∀ o ∈ outputs .qsysinfo, Outside base ra .qsysinfo c o) :
    Spec base ra .qsysinfo c := by
  intro c2 _ hk
  obtain ⟨hesp, hebp, hsreg, hmem⟩ := hk
  simp at hesp hebp hsreg hmem hout
  obtain ⟨hsaved, habove⟩ := hmem
  obtain ⟨hout0, hout2, hout4⟩ := hout
  refine ⟨by simp [low_selector], ?_⟩
  by_cases hax : low (c2.reg .eax) = 0#32
  · simp [hax, hesp, hebp, hsreg, hsaved.read_eq, habove.read_eq, hout0.of_within,
      hout2.of_within, hout4.of_within]
  · simp [hax, hesp, hebp, hsreg, hsaved.read_eq, habove.read_eq]

/-- **Every wrapper meets its specification.** -/
theorem spec (w : Helper) (c : Cpu) (hout : ∀ o ∈ w.outputs, w.Outside base ra c o) :
    Spec base ra w c := by
  cases w
  case getvolparm => exact getvolparm_spec c hout
  case qsysinfo => exact qsysinfo_spec c hout
  case devioctl => exact devioctl_spec c
  case setvolume | removeshare | forcenoswap => exact registers_spec (by simp) c
  all_goals exact result_spec (by simp) c hout

/-! ## Results -/

theorem read_copied_of_apart {c : Cpu} {l : List Output} {m : Mem} {a : Addr} {n : ℕ}
    (h : ∀ o ∈ l, Apart a n (o.dest base ra c) o.size) (m' : Mem) :
    read (l.foldl (fun m' o => write m' (o.dest base ra c) o.size
      (read m (o.src base c) o.size)) m') a n = read m' a n := by
  induction l generalizing m' with
  | nil => rfl
  | cons o l ih =>
    rw [List.foldl_cons, ih fun x hx => h x (.tail _ hx),
      read_write_of_apart (h o List.mem_cons_self)]

/-- Results at locations that are apart are all there. -/
theorem read_copied {c : Cpu} {l : List Output} {m : Mem}
    (hl : l.Pairwise fun o o' => Apart (o.dest base ra c) o.size (o'.dest base ra c) o'.size) :
    ∀ o ∈ l, read (copied base ra c l m) (o.dest base ra c) o.size =
      read m (o.src base c) o.size := by
  unfold copied
  suffices h : ∀ m', ∀ o ∈ l, read (l.foldl (fun m' o => write m' (o.dest base ra c) o.size
      (read m (o.src base c) o.size)) m') (o.dest base ra c) o.size = read m (o.src base c) o.size
    from h m
  induction l with
  | nil => simp
  | cons o l ih =>
    obtain ⟨ho, hl⟩ := List.pairwise_cons.mp hl
    intro m' x hx
    rw [List.foldl_cons]
    rcases List.mem_cons.mp hx with rfl | hx
    · rw [read_copied_of_apart ho, read_write_read]
    · exact ih hl _ x hx

variable (base ra) in
/-- A helper that does nothing but remove its arguments, with the result `eax`. -/
def returning (eax : BitVec 32) (op : Helper × Cpu) : Cpu :=
  (op.2.addSp (.stack32 base ra) (BitVec.ofNat 32 (4 + bytes op.1.params))).setReg .eax eax

theorem pascal_returning (eax : BitVec 32) (op : Helper × Cpu) :
    pascal base ra () op (returning base ra eax op) () := by
  refine ⟨?_, ?_, ?_, ?_⟩
  · simp [returning]
  · simp [returning]
  · exact fun _ _ => rfl
  · exact fun _ _ => AgreesOn.refl _ _ _

theorem runs_returning (eax : BitVec 32) (w : Helper) (c : Cpu) : ∃ tr res,
    Runs (pascal base ra) () (w.exec base ra c) tr res () ∧ ∀ e ∈ tr, e.2.reg .eax = eax := by
  have hrun := Runs.answer (E := fun _ op r _ => r = returning base ra eax op) (fun _ => rfl)
    (w.exec base ra c)
  refine ⟨_, _, hrun.mono _ fun _ op r _ hr => ?_, fun e he => ?_⟩
  · rw [hr]
    exact pascal_returning eax op
  · obtain ⟨⟨⟩, ⟨⟩, hr⟩ := hrun.forall_env e he
    rw [hr]
    simp [returning]

/-- A caller with its stack at 0x8000 that passes 0, 0x100 and `ppvpfsd`. -/
def volparmCpu (ppvpfsd : BitVec 32) : Cpu :=
  ⟨fun _ => 0x8000, fun _ => 0, false, false, 0,
    write (write (fun _ => 0) 0x8008 4 0x100) 0x800C 4 ppvpfsd, []⟩

/-- A caller that passes 0, 0x100 and 0x200. -/
abbrev sampleCpu : Cpu := volparmCpu 0x200

theorem sample_outside {ppvpfsd : BitVec 32} (h : ppvpfsd = 0x100 ∨ ppvpfsd = 0x200) :
    ∀ o ∈ outputs .getvolparm, Outside (fun _ => 0) 0 .getvolparm (volparmCpu ppvpfsd) o := by
  intro o ho
  simp only [outputs, List.mem_cons, List.not_mem_nil, or_false] at ho
  rcases h with rfl | rfl <;> rcases ho with rfl | rfl
  all_goals
    unfold Outside Output.dest
    decide

variable (base ra) in
/-- Helpers that succeed, `FSH_GETVOLPARM` with 1 in `tmpvpfsi` and 2 in `tmpvpfsd`. -/
def storing (op : Helper × Cpu) : Cpu :=
  let c := returning base ra 0 op
  let M := Machine.stack32 base ra
  if op.1 = .getvolparm then
    { c with mem := write (write c.mem (c.stk M 12) 4 1) (c.stk M 8) 4 2 }
  else c

theorem pascal_storing (op : Helper × Cpu) : pascal base ra () op (storing base ra op) () := by
  unfold storing
  split_ifs with h
  · obtain ⟨w, c⟩ := op
    cases h
    refine ⟨?_, ?_, ?_, ?_⟩
    · simp [returning]
    · simp [returning]
    · exact fun _ _ => rfl
    · simp [returning, agreesOn_write_iff]
  · exact pascal_returning 0 op

/-- The run of `fsh32_getvolparm` with that helper -/
def volparmRun (ppvpfsd : BitVec 32) : List (Event (Helper × Cpu) fun _ => Cpu) × Option Cpu :=
  (exec (fun _ => 0) 0 .getvolparm (volparmCpu ppvpfsd)).answer (storing (fun _ => 0) 0)

theorem volparm_runs (ppvpfsd : BitVec 32) : Runs (pascal (fun _ => 0) 0) ()
    (exec (fun _ => 0) 0 .getvolparm (volparmCpu ppvpfsd)) (volparmRun ppvpfsd).1
    (volparmRun ppvpfsd).2 () :=
  Runs.answer pascal_storing _

end Helper

open Helper

variable {base : BitVec 16 → Addr} {ra : BitVec 32}

/-- **Marshalling of the FSH32 wrappers.** -/
theorem fsh32_marshals {w : Helper} {c : Cpu} (hout : ∀ o ∈ w.outputs, w.Outside base ra c o)
    (tr : List (Event (Helper × Cpu) fun _ => Cpu)) (res : Option Cpu)
    (h : Runs (pascal base ra) () (w.exec base ra c) tr res ()) :
    ∃ c1 c2 u, tr = [⟨(w, c1), c2⟩] ∧ res = some u ∧ Passed base ra c c1 w.params ∧
      Outcome base ra w c c2 u ∧
      (low (c2.reg .eax) = 0 → w.outputs.Pairwise (fun o o' =>
          Apart (o.dest base ra c) o.size (o'.dest base ra c) o'.size) →
        ∀ o ∈ w.outputs, read u.mem (o.dest base ra c) o.size =
          read c2.mem (o.src base c) o.size) := by
  obtain ⟨hcall, c1, c2, u, htr, hres, ho⟩ := (spec w c hout).sound h
  obtain ⟨-, -, hpassed⟩ := hcall [] ⟨(w, c1), c2⟩ [] htr
  refine ⟨c1, c2, u, htr, hres, hpassed, ho, fun hax hap => ?_⟩
  rw [ho.mem, if_pos hax]
  exact read_copied hap

/-- `fsh32_getvolparm(0, 0x100, 0x200)` with a helper that succeeds -/
theorem fsh32_marshals_sample : ∃ c1 c2 u,
    Runs (pascal (fun _ => 0) 0) () (exec (fun _ => 0) 0 .getvolparm sampleCpu)
      [⟨(.getvolparm, c1), c2⟩] (some u) () ∧
    low (c2.reg .eax) = 0 ∧ Outcome (fun _ => 0) 0 .getvolparm sampleCpu c2 u ∧
    read u.mem 0x100 4 = 1 ∧ read u.mem 0x200 4 = 2 := by
  have hrun := volparm_runs 0x200
  have hvalues : ∀ e ∈ (volparmRun 0x200).1, e.2.reg .eax = 0 ∧ read e.2.mem 0x7FF8 4 = 1 ∧
      read e.2.mem 0x7FF4 4 = 2 := by decide
  obtain ⟨c1, c2, u, htr, hu, -, ho, hout⟩ :=
    fsh32_marshals (sample_outside (.inr rfl)) _ _ hrun
  rw [htr] at hrun hvalues
  rw [hu] at hrun
  obtain ⟨heax, hfsi, hfsd⟩ := hvalues _ List.mem_cons_self
  have hax : low (c2.reg .eax) = 0 := (congrArg low heax).trans low_zero
  have hread := hout hax (by unfold Output.dest; decide)
  refine ⟨c1, c2, u, hrun, hax, ho, ?_, ?_⟩
  · exact (hread ⟨4, -8, 1, 0⟩ (.tail _ (.head _))).trans hfsi
  · exact (hread ⟨4, -12, 2, 0⟩ (.head _)).trans hfsd

/-- Every result is at the caller's location when the wrapper returns. -/
def Delivers (base : BitVec 16 → Addr) (ra : BitVec 32) (w : Helper) (c : Cpu) : Prop :=
  ∀ c1 c2 u, Runs (pascal base ra) () (w.exec base ra c) [⟨(w, c1), c2⟩] (some u) () →
    low (c2.reg .eax) = 0 →
    ∀ o ∈ w.outputs, read u.mem (o.dest base ra c) o.size = read c2.mem (o.src base c) o.size

/-- `fsh32_getvolparm(0, 0x100, 0x100)` stores `tmpvpfsi` over `tmpvpfsd`. -/
theorem fsh32_marshals_overlap :
    (∀ o ∈ outputs .getvolparm, Outside (fun _ => 0) 0 .getvolparm (volparmCpu 0x100) o) ∧
    ¬ Delivers (fun _ => 0) 0 .getvolparm (volparmCpu 0x100) := by
  refine ⟨sample_outside (.inl rfl), fun h => ?_⟩
  have hrun := volparm_runs 0x100
  have hcalls : ∀ e ∈ (volparmRun 0x100).1, e.2.reg .eax = 0 ∧ read e.2.mem 0x7FF4 4 = 2 := by
    decide
  have hresult : ∀ u ∈ (volparmRun 0x100).2, read u.mem 0x100 4 = 1 := by decide
  obtain ⟨-, c1, c2, u, htr, hu, -⟩ := (spec .getvolparm _ (sample_outside (.inl rfl))).sound hrun
  rw [htr] at hrun hcalls
  rw [hu] at hrun hresult
  obtain ⟨heax, hfsd⟩ := hcalls _ List.mem_cons_self
  have hread := h c1 c2 u hrun ((congrArg low heax).trans low_zero) ⟨4, -12, 2, 0⟩ (.head _)
  have hboth : (1 : BitVec 32) = 2 := (hresult u rfl).symm.trans (hread.trans hfsd)
  exact absurd hboth (by decide)

end Mwdd32.Fsh32
