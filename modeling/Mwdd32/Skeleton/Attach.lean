import Mwdd32.Lib.Activation
import Mwdd32.Server.Idc

/-!
# Attaching to mwdd32

A driver loaded by BASEDEV gets the 32-bit helpers before it can call any of them, in two far calls:
`DevHlp_AttachDD` through the DevHelp pointer of its INIT packet, which looks for the driver
`mwdd32$ ` and fills a table, and the IDC entry point through the far pointer in that table.
`drv32_pre_init_base` and `sec32_pre_init_base` make them on the one stack, with the names, the
table and the pointer in their frame.

* `Saved.congr`: what the routine restores is where it was.
* `Calling.attached`: the kernel finds the name on the stack and leaves the table below it.
* `request_wp`: the two calls one after the other, with the kernel and mwdd32 on the other side.
-/

namespace Mwdd32.Skeleton

open ByteMem Interaction I386 Server Opnd Reg

/-! ## Code -/

/-- The two far calls -/
inductive AttachCall
  | attachDD
  | idc
  deriving DecidableEq

/-- The label `@@error` -/
inductive AttachLabel
  | error
  deriving DecidableEq

/-- The value of `DevHlp_AttachDD` -/
abbrev AttachNumber := BitVec 32

/-- The code of the two routines around the lines `load`, which store the DevHelp pointer at
    `[ebp - 24]`; `pTKSSBase` and `pDevHelp32` are the offsets of the driver's variables. -/
def preInitCode (devHlpAttachDD : AttachNumber) (pTKSSBase pDevHelp32 : BitVec 32)
    (load : Code AttachLabel AttachCall) : Code AttachLabel AttachCall :=
  [.enter 4 24, .push 4 (s .es), .push 4 (r ebx), .push 4 (r esi), .push 4 (r edi), .push 4 (s .es),
   .mov (r16 ebx) (m 2 .ss ebp 8), .mov (s .es) (m 2 .ss ebp 10), .mov (r ebx) (r16 ebx)] ++
  load ++
  [.pop 4 (s .es),
   .mov (r eax) (s .ss), .mov (s .ds) (r eax), .mov (r ebx) (ea ebp (-20)),
   .mov (r edi) (ea ebp (-12)),
   .mov (lo edx) (imm devHlpAttachDD),
   .mov (m 4 .ss ebp (-20)) (imm 0x6464776D), .mov (m 4 .ss ebp (-16)) (imm 0x20243233),
   .call 1 .attachDD,
   .mov (r ecx) (s .es), .mov (s .ds) (r ecx), .jcc .carry .error,
   .push 4 (imm pTKSSBase), .push 4 (imm pDevHelp32), .push 4 (imm 1),
   .push 4 (imm NEW_INTERFACE_MAGIC), .push 4 (imm 0), .call 1 .idc, .alu .add (r esp) (imm 20),
   .label .error,
   .mov (r eax) (r16 eax), .pop 4 (r edi), .pop 4 (r esi), .pop 4 (r ebx), .pop 4 (s .es),
   .leave 4, .ret 0]

/-- How drv32 stores the pointer -/
def drv32Load : Code AttachLabel AttachCall :=
  [.mov (r ebx) (m 4 .es ebx 14), .mov (m 4 .ss ebp (-24)) (r ebx)]

/-- How sec32 stores the pointer, and clears it in the packet: `codeend = dataend = 0` -/
def sec32Load : Code AttachLabel AttachCall :=
  [.mov (r ecx) (m 4 .es ebx 14), .mov (m 4 .ss ebp (-24)) (r ecx), .mov (m 4 .es ebx 14) (imm 0)]

/-- `drv32_pre_init_base` (`skeleton/basedev/drv32_pre_init_base.asm`, lines 82–140) -/
def drv32PreInitBaseCode (devHlpAttachDD : AttachNumber) (pTKSSBase pDevHelp32 : BitVec 32) :
    Code AttachLabel AttachCall :=
  preInitCode devHlpAttachDD pTKSSBase pDevHelp32 drv32Load

/-- `sec32_pre_init_base` (`skeleton/ses/sec32_pre_init_base.asm`, lines 83–142) -/
def sec32PreInitBaseCode (devHlpAttachDD : AttachNumber) (pTKSSBase pDevHelp32 : BitVec 32) :
    Code AttachLabel AttachCall :=
  preInitCode devHlpAttachDD pTKSSBase pDevHelp32 sec32Load

/-! ## The other side -/

/-- The segments of the processor, the variables of mwdd32 and what the kernel knows: the entry
    point of its services, the number of `DevHlp_AttachDD`, the IDC entry point of each device name,
    and the bytes of stack that a callee uses. -/
structure Platform where
  base : BitVec 16 → Addr
  ra : BitVec 32
  flat : BitVec 16
  tkssBase : BitVec 32
  devHlp32 : Addr
  devHelp : BitVec 32
  devHlpAttachDD : AttachNumber
  idcEntry : List (BitVec 8) → BitVec 32
  scratch : ℕ

/-- The eight characters of a device name. -/
def deviceName (m : Mem) (a : Addr) : List (BitVec 8) :=
  (List.range 8).map fun i => m (a + BitVec.ofNat 32 i)

/-- `"mwdd32$ "` -/
def mwdd32Name : List (BitVec 8) := "mwdd32$ ".toList.map fun c => BitVec.ofNat 8 c.toNat

variable (S : Platform)

/-- The processor with a stack that ESP spans -/
abbrev Platform.machine : Machine := .stack32 S.base S.ra

/-- `DevHlp_AttachDD` from `c1` to `c2`: the device with the name at DS:BX gets its table of twelve
    bytes at DS:DI, with the far pointer of its IDC entry point at offset 6. EBP, ES, SS and the
    memory but for the table and the stack below are kept. -/
structure AttachDD (c1 c2 : Cpu) : Prop where
  returns : Returns S.machine 4 [.es, .ss] [] c1 c2
  mem : ∀ a k, Apart a k (lin S.machine c1 .ds (low (c1.reg .edi))) 12 →
    Apart a k (stackTop S.base c1 - BitVec.ofNat 32 S.scratch) S.scratch →
      AgreesOn c1.mem c2.mem a k
  found : c2.cf = false → read c2.mem (lin S.machine c1 .ds (low (c1.reg .edi)) + 6) 4 =
    S.idcEntry (deviceName c1.mem (lin S.machine c1 .ds (low (c1.reg .ebx))))

/-- The far calls through `[ebp - 24]` and `[ebp - 6]`: of the kernel with the number of the service
    in DL, and of mwdd32 with the code of its entry point. -/
def attachEnv : Env Unit (AttachCall × Cpu) (fun _ => Cpu) := fun _ op c2 _ =>
  match op.1 with
  | .attachDD => read op.2.mem (lin S.machine op.2 .ss (op.2.reg .ebp - 24)) 4 = S.devHelp →
      byte0 (op.2.reg .edx) = byte0 S.devHlpAttachDD → AttachDD S op.2 c2
  | .idc => read op.2.mem (lin S.machine op.2 .ss (op.2.reg .ebp - 6)) 4 = S.idcEntry mwdd32Name →
      idcStub S.base S.ra S.flat S.tkssBase S.devHlp32 S.scratch () ((), op.2) c2 ()

/-- A call and the state in which it returns -/
abbrev AttachEvent := Event (AttachCall × Cpu) fun _ => Cpu

/-- A call of `drv32_pre_init_base` -/
def drv32Exec (pTKSSBase pDevHelp32 : BitVec 32) (c : Cpu) :
    Prog (AttachCall × Cpu) (fun _ => Cpu) (Option Cpu) :=
  let code := drv32PreInitBaseCode S.devHlpAttachDD pTKSSBase pDevHelp32
  run S.machine code 60 code c

/-- A call of `sec32_pre_init_base` -/
def sec32Exec (pTKSSBase pDevHelp32 : BitVec 32) (c : Cpu) :
    Prog (AttachCall × Cpu) (fun _ => Cpu) (Option Cpu) :=
  let code := sec32PreInitBaseCode S.devHlpAttachDD pTKSSBase pDevHelp32
  run S.machine code 60 code c

/-- The field `i_devHelp` of the packet `reqpkt` -/
def devHelpField (reqpkt : BitVec 32) : Addr :=
  S.base (reqpkt.extractLsb' 16 16) + (low reqpkt + 14)

/-! ## The frame -/

/-- The address `d` bytes from the stack pointer of `c` -/
abbrev Platform.at (c : Cpu) (d : BitVec 32) : Addr := S.base (c.sreg .ss) + (c.reg .esp + d)

/-- What a routine entered in `c` finds again at its end. -/
structure Saved (c : Cpu) (m : Mem) : Prop where
  eip : read m (S.at c 0) 4 = read c.mem (S.at c 0) 4
  ebp : read m (S.at c (-4)) 4 = c.reg .ebp
  es : read m (S.at c (-32)) 4 = (c.sreg .es).setWidth 32
  ebx : read m (S.at c (-36)) 4 = c.reg .ebx
  esi : read m (S.at c (-40)) 4 = c.reg .esi
  edi : read m (S.at c (-44)) 4 = c.reg .edi

/-- `m` and `m'` differ below the stack pointer only, in what a routine entered in `c` and its
    callees use. -/
def Below (c : Cpu) (m m' : Mem) : Prop :=
  AgreesOff m m' (S.at c (-BitVec.ofNat 32 (S.scratch + 80))) (S.scratch + 80)

/-- The state `c1` within a routine entered in `c` -/
structure Framed (c : Cpu) (m : Mem) (esp : BitVec 32) (c1 : Cpu) : Prop where
  esp : c1.reg .esp = c.reg .esp + esp
  ebp : c1.reg .ebp = c.reg .esp - 4
  ss : c1.sreg .ss = c.sreg .ss
  saved : Saved S c c1.mem
  below : Below S c m c1.mem

variable {S} {c c1 : Cpu} {m m' : Mem}

theorem Saved.congr (h : Saved S c m) (htop : AgreesOn m m' (S.at c (-4)) 8)
    (hregs : AgreesOn m m' (S.at c (-44)) 16) : Saved S c m' := by
  refine ⟨?_, ?_, ?_, ?_, ?_, ?_⟩
  · rw [htop.read_eq (by simp), h.eip]
  · rw [htop.read_eq (by simp), h.ebp]
  · rw [hregs.read_eq (by simp), h.es]
  · rw [hregs.read_eq (by simp), h.ebx]
  · rw [hregs.read_eq (by simp), h.esi]
  · rw [hregs.read_eq (by simp), h.edi]

theorem Saved.write {a : Addr} {v : BitVec 32} (h : Saved S c m) (htop : Apart (S.at c (-4)) 8 a 4)
    (hregs : Apart (S.at c (-44)) 16 a 4) : Saved S c (write m a 4 v) :=
  h.congr (write_agreesOn htop) (write_agreesOn hregs)

theorem Below.of_frame (h : AgreesOff m m' (S.at c (-80)) 80) (hS : S.scratch + 80 < 2 ^ 32) :
    Below S c m m' :=
  h.within (stackAt_within c (d := 80) (by omega) hS (by omega))

/-- The two dwords are the name. -/
theorem deviceName_eq {a : Addr} (hlow : read m a 4 = 0x6464776D)
    (hhigh : read m (a + 4) 4 = 0x20243233) :
    deviceName m a = mwdd32Name := by
  have hfirst : ∀ i ∈ List.range 4, m (a + BitVec.ofNat 32 i) =
      (0x6464776D#32 >>> (8 * i)).setWidth 8 := by
    intro i hi
    rw [byte_of_read m a (List.mem_range.mp hi), hlow]
    rfl
  have hsecond : ∀ i ∈ List.range 4,
      m (a + BitVec.ofNat 32 (4 + i)) = (0x20243233#32 >>> (8 * i)).setWidth 8 := by
    intro i hi
    rw [BitVec.ofNat_add, ← BitVec.add_assoc]
    exact (byte_of_read m _ (List.mem_range.mp hi)).trans
      (congrArg (fun x : BitVec 32 => (x >>> (8 * i)).setWidth 8) hhigh)
  have hsplit : deviceName m a = (List.range 4).map (fun i => m (a + BitVec.ofNat 32 i)) ++
      (List.range 4).map (fun i => m (a + BitVec.ofNat 32 (4 + i))) := rfl
  rw [hsplit, List.map_congr_left hfirst, List.map_congr_left hsecond]
  rfl

/-! ## The parts -/

/-- The lines behind the DevHelp pointer -/
abbrev attachTail (devHlpAttachDD : AttachNumber) (pTKSSBase pDevHelp32 : BitVec 32) :
    Code AttachLabel AttachCall :=
  (preInitCode devHlpAttachDD pTKSSBase pDevHelp32 []).drop 9

/-- The state behind the prologue, with the packet in ES:EBX -/
structure Entered (S : Platform) (c : Cpu) (reqpkt : BitVec 32) (c1 : Cpu) : Prop where
  framed : Framed S c c.mem (-48) c1
  es : c1.sreg .es = reqpkt.extractLsb' 16 16
  ebx : c1.reg .ebx = low reqpkt
  own : read c1.mem (S.at c (-48)) 4 = (c.sreg .es).setWidth 32

section Parts

variable {P : List AttachEvent → AttachEvent → Prop}
  {Q : List AttachEvent → Option Cpu → Unit → Prop}
  {E : Env Unit (AttachCall × Cpu) fun _ => Cpu} {h : List AttachEvent}
  {reqpkt pTKSSBase pDevHelp32 : BitVec 32} {load code : Code AttachLabel AttachCall}

attribute [local simp] BitVec.add_assoc BitVec.sub_eq_add_neg Function.update_apply

/-- The prologue. -/
theorem prologue_wp (hS : S.scratch + 80 < 2 ^ 32) (hreqpkt : read c.mem (S.at c 4) 4 = reqpkt)
    (hp : ∀ c1, Entered S c reqpkt c1 → Wp E P Q h ()
      (run S.machine code 51 (load ++ attachTail S.devHlpAttachDD pTKSSBase pDevHelp32) c1)) :
    Wp E P Q h ()
      (run S.machine code 60 (preInitCode S.devHlpAttachDD pTKSSBase pDevHelp32 load) c) := by
  refine wp_enter (wp_push (wp_push (wp_push (wp_push (wp_push (wp_mov (wp_mov (wp_mov ?_))))))))
  refine hp _ ⟨⟨?_, ?_, ?_, ⟨?_, ?_, ?_, ?_, ?_, ?_⟩, ?_⟩, ?_, ?_, ?_⟩
  · simp
  · simp
  · simp
  · simp
  · simp
  · simp
  · simp
  · simp
  · simp
  · refine Below.of_frame ?_ hS
    simp
    iterate 6 refine AgreesOff.write_within ?_ (by simp)
    exact AgreesOff.refl _ _ _
  · rw [← setWidth_high, ← hreqpkt]
    simp
  · rw [← hreqpkt]
    simp
  · simp

/-- The state behind the lines that store the pointer -/
structure Loaded (S : Platform) (c : Cpu) (m : Mem) (c1 : Cpu) : Prop where
  framed : Framed S c m (-48) c1
  own : read c1.mem (S.at c (-48)) 4 = (c.sreg .es).setWidth 32
  devHelp : read c1.mem (S.at c (-28)) 4 = S.devHelp

/-- The packet on the stack of the routine -/
structure PacketAt (S : Platform) (c : Cpu) (reqpkt : BitVec 32) : Prop where
  arg : read c.mem (S.at c 4) 4 = reqpkt
  devHelp : read c.mem (devHelpField S reqpkt) 4 = S.devHelp
  apart : Apart (devHelpField S reqpkt) 4 (S.at c (-BitVec.ofNat 32 (S.scratch + 80)))
    (S.scratch + 88)

theorem PacketAt.apart_frame {a : Addr} {k : ℕ} (hpacket : PacketAt S c reqpkt)
    (hS : S.scratch + 80 < 2 ^ 32) (hw : Within a k (S.at c (-80)) 84)
    (hk : 0 < k) : Apart a k (devHelpField S reqpkt) 4 :=
  have hframe :=
    hpacket.apart.right_within (stackAt_within c (d := 80) (i := 84) (by omega) hS (by omega))
    (by omega)
  (hframe.right_within hw hk).symm

/-- The pointer, found through ES:EBX. -/
theorem Entered.devHelp (hentered : Entered S c reqpkt c1) (hpacket : PacketAt S c reqpkt) :
    lin S.machine c1 .es (c1.reg .ebx + 14) = devHelpField S reqpkt ∧
    read c1.mem (devHelpField S reqpkt) 4 = S.devHelp := by
  refine ⟨?_, ?_⟩
  · rw [hentered.ebx]
    exact congrArg (S.base · + _) hentered.es
  · rw [hentered.framed.below.read_eq (hpacket.apart.mono le_rfl (by omega)), hpacket.devHelp]

theorem drv32Load_wp (fuel : ℕ) (hS : S.scratch + 80 < 2 ^ 32) {rest : Code AttachLabel AttachCall}
    (hpacket : PacketAt S c reqpkt) (hentered : Entered S c reqpkt c1)
    (hp : ∀ c2, Loaded S c c.mem c2 → Wp E P Q h () (run S.machine code fuel rest c2)) :
    Wp E P Q h () (run S.machine code (fuel + 2) (drv32Load ++ rest) c1) := by
  obtain ⟨hfield, hread⟩ := hentered.devHelp hpacket
  obtain ⟨⟨hesp, hebp, hss, hsaved, hbelow⟩, -, -, hown⟩ := hentered
  refine wp_mov (wp_mov (hp _ ⟨⟨?_, ?_, ?_, ?_, ?_⟩, ?_, ?_⟩))
  · simp [hesp]
  · simp [hebp]
  · simp [hss]
  · exact hsaved.write (by simp [hss, hebp]) (by simp [hss, hebp])
  · refine hbelow.trans (Below.of_frame ?_ hS)
    exact (AgreesOff.refl _ _ _).write_within (by simp [hss, hebp])
  · simpa [hss, hebp] using hown
  · simp [hss, hebp]
    rw [← hread, ← hfield]
    rfl

/-- The memory without the pointer in the packet -/
def cleared (S : Platform) (c : Cpu) (reqpkt : BitVec 32) : Mem :=
  write c.mem (devHelpField S reqpkt) 4 0

theorem sec32Load_wp (fuel : ℕ) (hS : S.scratch + 80 < 2 ^ 32) {rest : Code AttachLabel AttachCall}
    (hpacket : PacketAt S c reqpkt) (hentered : Entered S c reqpkt c1)
    (hp : ∀ c2, Loaded S c (cleared S c reqpkt) c2 →
      Wp E P Q h () (run S.machine code fuel rest c2)) :
    Wp E P Q h () (run S.machine code (fuel + 3) (sec32Load ++ rest) c1) := by
  obtain ⟨hfield, hread⟩ := hentered.devHelp hpacket
  obtain ⟨⟨hesp, hebp, hss, hsaved, hbelow⟩, hes, hebx, hown⟩ := hentered
  refine wp_mov (wp_mov (wp_mov (hp _ ⟨⟨?_, ?_, ?_, ?_, ?_⟩, ?_, ?_⟩)))
  · simp [hesp]
  · simp [hebp]
  · simp [hss]
  · exact (hsaved.write (by simp [hss, hebp]) (by simp [hss, hebp])).write
      (hfield ▸ hpacket.apart_frame hS (by simp) (by omega))
      (hfield ▸ hpacket.apart_frame hS (by simp) (by omega))
  · unfold cleared
    rw [← hfield]
    refine AgreesOff.write (hbelow.trans (Below.of_frame ?_ hS)) 0
    exact (AgreesOff.refl _ _ _).write_within (by simp [hss, hebp])
  · refine (read_write_of_apart (hfield ▸ hpacket.apart_frame hS (by simp) (by omega))).trans ?_
    simpa [hss, hebp] using hown
  · refine (read_write_of_apart (hfield ▸ hpacket.apart_frame hS (by simp) (by omega))).trans ?_
    simp [hss, hebp]
    rw [← hread, ← hfield]
    rfl

/-- The state in which the kernel is called. -/
structure Calling (S : Platform) (c : Cpu) (m : Mem) (c1 : Cpu) : Prop where
  framed : Framed S c m (-48) c1
  devHelp : read c1.mem (S.at c (-28)) 4 = S.devHelp
  number : byte0 (c1.reg .edx) = byte0 S.devHlpAttachDD
  ds : c1.sreg .ds = c.sreg .ss
  es : c1.sreg .es = c.sreg .es
  ebx : c1.reg .ebx = c.reg .esp - 24
  edi : c1.reg .edi = c.reg .esp - 16
  name : deviceName c1.mem (S.at c (-24)) = mwdd32Name

theorem calling_wp (fuel : ℕ) (hS : S.scratch + 80 < 2 ^ 32) {m : Mem} (hloaded : Loaded S c m c1)
    (hp : ∀ c2 c3, Calling S c m c2 → E () (.attachDD, c2) c3 () → P h ⟨(.attachDD, c2), c3⟩ ∧
      Wp E P Q (h ++ [⟨(.attachDD, c2), c3⟩]) ()
        (run S.machine code fuel ((attachTail S.devHlpAttachDD pTKSSBase pDevHelp32).drop 9) c3)) :
    Wp E P Q h ()
      (run S.machine code (fuel + 9) (attachTail S.devHlpAttachDD pTKSSBase pDevHelp32) c1) := by
  obtain ⟨⟨hesp, hebp, hss, hsaved, hbelow⟩, hown, hdevHelp⟩ := hloaded
  refine wp_pop (wp_mov (wp_mov (wp_mov (wp_mov (wp_mov (wp_mov (wp_mov ?_)))))))
  refine fun c3 _ => hp _ c3 ⟨⟨?_, ?_, ?_, ?_, ?_⟩, ?_, ?_, ?_, ?_, ?_, ?_, ?_⟩
  · simp [hesp]
  · simp [hebp]
  · simp [hss]
  · refine Saved.write (.write (.write hsaved ?_ ?_) ?_ ?_) ?_ ?_
    all_goals simp [hss, hebp, hesp]
  · refine hbelow.trans (Below.of_frame ?_ hS)
    refine AgreesOff.write_within (.write_within (.write_within (AgreesOff.refl _ _ _) ?_) ?_) ?_
    all_goals simp [hss, hebp, hesp]
  · simpa [hss, hebp, hesp] using hdevHelp
  · simp [byte0_setByte0]
  · simp [hss]
  · simpa [hss, hesp] using congrArg (BitVec.setWidth 16) hown
  · simp [hebp]
  · simp [hebp]
  · exact deviceName_eq (by simp [hss, hebp, hesp]) (by simp [hss, hebp, hesp])

/-- The frame of the routine fits the 16-bit offsets that the kernel takes. -/
structure Stack16 (S : Platform) (c : Cpu) : Prop where
  pos : 0 < S.scratch
  used : S.scratch + 88 < 2 ^ 32
  below : 24 ≤ (c.reg .esp).toNat
  top : (c.reg .esp).toNat ≤ 2 ^ 16

theorem Stack16.low {d : BitVec 32} (h : Stack16 S c) (hd : 0 < d.toNat) (hd' : d.toNat ≤ 24) :
    low (c.reg .esp - d) = c.reg .esp - d := by
  have htop := h.top
  have hbelow := h.below
  apply BitVec.eq_of_toNat_eq
  rw [toNat_low, BitVec.toNat_sub]
  omega

/-- A byte off a range is apart from it. -/
theorem apart_byte {x a : Addr} {n : ℕ} (hn : 0 < n) (hx : n ≤ (x - a).toNat) : Apart x 1 a n := by
  refine ⟨?_, hx⟩
  have hlt := (x - a).isLt
  rw [toNat_sub_comm, Nat.mod_eq_of_lt (by omega)]
  omega

/-- What the kernel leaves of the frame. -/
theorem Calling.attached {c2 : Cpu} (hcall : Calling S c m c1) (h16 : Stack16 S c)
    (hE : attachEnv S () (.attachDD, c1) c2 ()) :
    Framed S c m (-44) c2 ∧ c2.sreg .es = c.sreg .es ∧
      (c2.cf = false → read c2.mem (S.at c (-10)) 4 = S.idcEntry mwdd32Name) := by
  obtain ⟨⟨hesp, hebp, hss, hsaved, hbelow⟩, hdevHelp, hnumber, hds, hes, hebx, hedi, hname⟩ :=
    hcall
  have hpos := h16.pos
  have hused := h16.used
  have hslot : lin S.machine c1 .ss (c1.reg .ebp - 24) = S.at c (-28) := by
    simp [hss, hebp]
  have htable : lin S.machine c1 .ds (I386.low (c1.reg .edi)) = S.at c (-16) := by
    rw [hedi, h16.low (by decide) (by decide)]
    simp [hds]
  have hnamed : lin S.machine c1 .ds (I386.low (c1.reg .ebx)) = S.at c (-24) := by
    rw [hebx, h16.low (by decide) (by decide)]
    simp [hds]
  have hstack : stackTop S.base c1 - BitVec.ofNat 32 S.scratch =
      S.at c (-BitVec.ofNat 32 (S.scratch + 48)) := by
    rw [stackTop, hss, hesp, BitVec.ofNat_add, BitVec.ofNat_eq_ofNat]
    unfold Platform.at
    ring
  obtain ⟨⟨hesp2, hebp2, hsreg2, -⟩, hmem2, hfound⟩ :=
    hE ((congrArg (read c1.mem · 4) hslot).trans hdevHelp) hnumber
  rw [htable, hstack] at hmem2
  refine ⟨⟨?_, ?_, ?_, ?_, ?_⟩, ?_, ?_⟩
  · simp [hesp2, hesp]
  · rw [hebp2, hebp]
  · rw [hsreg2 .ss (by simp), hss]
  · refine hsaved.congr (hmem2 _ _ (by simp) ?_) (hmem2 _ _ (by simp) ?_)
    · exact stackAt_apart c (d := 4) (by omega) (by omega) hpos (by omega)
    · exact stackAt_apart c (d := 44) (by omega) (by omega) hpos (by omega)
  · intro x hx
    have hbyte := apart_byte (by omega) hx
    have htable : Apart x 1 (S.at c (-16)) 12 :=
      hbyte.right_within (stackAt_within c (d := 16) (by omega) (by omega) (by omega)) (by omega)
    have hscratch :=
      hbyte.right_within (stackAt_within c (d := S.scratch + 48) (i := S.scratch) (by omega)
      (by omega) (by omega)) hpos
    have hkept := hmem2 x 1 htable hscratch 0 (by omega)
    rw [BitVec.add_zero] at hkept
    exact hkept.trans (hbelow x hx)
  · rw [hsreg2 .es (by simp), hes]
  · intro hcf
    have hentry := hfound hcf
    rw [htable, hnamed, hname] at hentry
    rw [← hentry]
    simp

/-- The state in which a routine entered in `c` returns, with the memory `m` above the stack. -/
structure Left (S : Platform) (c : Cpu) (m : Mem) (u : Cpu) : Prop where
  eip : u.eip = read c.mem (S.at c 0) 4
  esp : u.reg .esp = c.reg .esp + 4
  ebp : u.reg .ebp = c.reg .ebp
  ebx : u.reg .ebx = c.reg .ebx
  esi : u.reg .esi = c.reg .esi
  edi : u.reg .edi = c.reg .edi
  es : u.sreg .es = c.sreg .es
  ss : u.sreg .ss = c.sreg .ss
  below : Below S c m u.mem

/-- The lines behind `@@error` -/
abbrev attachExit : Code AttachLabel AttachCall :=
  [.mov (r eax) (r16 eax), .pop 4 (r edi), .pop 4 (r esi), .pop 4 (r ebx), .pop 4 (s .es),
   .leave 4, .ret 0]

theorem exit_wp {fuel : ℕ} {m : Mem} (hframed : Framed S c m (-44) c1)
    (hq : ∀ u, Left S c m u → u.reg .eax = low (c1.reg .eax) → u.sreg .ds = c1.sreg .ds →
      Q h (some u) ()) :
    Wp E P Q h () (run S.machine code (fuel + 7) attachExit c1) := by
  obtain ⟨hesp, hebp, hss, ⟨heip, hsebp, hses, hsebx, hsesi, hsedi⟩, hbelow⟩ := hframed
  refine hq _ ⟨?_, ?_, ?_, ?_, ?_, ?_, ?_, ?_, ?_⟩ ?_ ?_
  · simpa [hss, hebp, Platform.at] using heip
  · simp [hebp]
  · simpa [hss, hebp] using hsebp
  · simpa [hss, hesp] using hsebx
  · simpa [hss, hesp] using hsesi
  · simpa [hss, hesp] using hsedi
  · simpa [hss, hesp] using congrArg (BitVec.setWidth 16) hses
  · simp [hss]
  · exact hbelow
  · simp
  · simp

end Parts

/-! ## The call of mwdd32 -/

section Request

variable {pTKSSBase pDevHelp32 : BitVec 32}

attribute [local simp] BitVec.add_assoc BitVec.sub_eq_add_neg Function.update_apply

/-- What a routine entered in `c` with the memory `m` relies on: the kernel's stack base is that of
    the stack, and the stack, its return address included, is apart from what the request uses. -/
structure AttachReady (S : Platform) (c : Cpu) (m : Mem) (pTKSSBase pDevHelp32 : BitVec 32) :
    Prop where
  stack16 : Stack16 S c
  value : read m S.tkssBase 4 = S.base (c.sreg .ss)
  free : Free S.tkssBase S.devHlp32 m (S.at c (-BitVec.ofNat 32 (S.scratch + 80))) (S.scratch + 84)
    (some (pTKSSBase, pDevHelp32))

/-- What mwdd32 does for the driver with these variables -/
abbrev Platform.export (S : Platform) (m : Mem) (pTKSSBase pDevHelp32 : BitVec 32) :
    Mem × BitVec 16 :=
  mwdd32ExportDevhelp32 S.tkssBase S.devHlp32 m pTKSSBase pDevHelp32

/-- The state in which mwdd32 is called -/
structure Requesting (S : Platform) (c : Cpu) (m : Mem) (pTKSSBase pDevHelp32 : BitVec 32)
    (c1 : Cpu) : Prop where
  framed : Framed S c m (-68) c1
  entry : read c1.mem (S.at c (-10)) 4 = S.idcEntry mwdd32Name
  ds : c1.sreg .ds = c.sreg .es
  es : c1.sreg .es = c.sreg .es
  new : arg S.machine c1 0 = 0 ∧ arg S.machine c1 1 = NEW_INTERFACE_MAGIC
  func : arg S.machine c1 2 = 1
  record : arg S.machine c1 3 = pDevHelp32
  var : arg S.machine c1 4 = pTKSSBase

theorem Requesting.stack (hreq : Requesting S c m pTKSSBase pDevHelp32 c1) :
    stackTop S.base c1 - BitVec.ofNat 32 (S.scratch + 12) =
      S.at c (-BitVec.ofNat 32 (S.scratch + 80)) := by
  unfold Platform.at stackTop
  rw [hreq.framed.ss, hreq.framed.esp, show S.scratch + 80 = S.scratch + 12 + 68 by omega,
    BitVec.ofNat_add (S.scratch + 12) 68, BitVec.ofNat_eq_ofNat]
  ring

theorem Requesting.ready (hreq : Requesting S c m pTKSSBase pDevHelp32 c1)
    (hr : AttachReady S c m pTKSSBase pDevHelp32) :
    Ready S.base S.tkssBase S.devHlp32 S.scratch c1 := by
  have hstack := hreq.stack
  obtain ⟨⟨hpos, hused, -, -⟩, hvalue, hfree⟩ := hr
  obtain ⟨⟨-, -, hss, -, hbelow⟩, -, -, -, hnew, hfunc, hrecord, hvar⟩ := hreq
  have hptrs : pointers c1.mem (frame S.base c1) = some (pTKSSBase, pDevHelp32) := by
    rw [pointers_frame S.ra, if_pos hnew, if_pos hfunc, hrecord, hvar]
  refine ⟨⟨hpos, by omega⟩, ?_, ?_⟩
  · rw [hbelow.read_eq (hfree.kernel.right_within (by simp) (by omega)), hvalue, hss]
  · rw [hptrs, hstack]
    exact (hfree.congr (hbelow.within (by simp))).within (by simp) (by omega)

/-- What mwdd32 leaves of the frame. -/
theorem Requesting.returned {c2 : Cpu} (hreq : Requesting S c m pTKSSBase pDevHelp32 c1)
    (hr : AttachReady S c m pTKSSBase pDevHelp32) (hE : attachEnv S () (.idc, c1) c2 ()) :
    Framed S c (S.export m pTKSSBase pDevHelp32).1 (-64) c2 ∧ c2.sreg .ds = c.sreg .es ∧
      low (c2.reg .eax) = (S.export m pTKSSBase pDevHelp32).2.setWidth 32 := by
  have hready := hreq.ready hr
  have hstack := hreq.stack
  obtain ⟨⟨hpos, hused, -, -⟩, -, hfree⟩ := hr
  obtain ⟨⟨hesp, hebp, hss, hsaved, hbelow⟩, hentry, hds, hes, hnew, hfunc, hrecord, hvar⟩ := hreq
  have hslot : lin S.machine c1 .ss (c1.reg .ebp - 6) = S.at c (-10) := by
    simp [hss, hebp]
  obtain ⟨tr, hrun⟩ := hE ((congrArg (read c1.mem · 4) hslot).trans hentry)
  obtain ⟨_, hu, hss2⟩ := idcExec_ss hrun
  cases hu
  obtain ⟨u, hu, -, hebp2, hds2, -, hret⟩ := idc_returned hready hrun
  cases hu
  rw [if_pos hnew, if_pos hfunc, hrecord, hvar] at hret
  obtain ⟨hesp2, hrc, hoff⟩ := hret
  rw [hstack] at hoff
  have hunused := hfree.ptrs _ _ rfl
  obtain ⟨hcode, hexport⟩ :=
    (hunused.within (k := S.scratch + 80) (by simp) (by omega)).export_congr hbelow
  have hkept : AgreesOn c1.mem (S.export c1.mem pTKSSBase pDevHelp32).1 _ _ :=
    (hunused.congr (hbelow.within (by simp))).export_agreesOn
  refine ⟨⟨?_, ?_, ?_, ?_, ?_⟩, ?_, ?_⟩
  · simp [hesp2, hesp]
  · rw [hebp2, hebp]
  · rw [hss2, hss]
  · refine hsaved.congr ((hkept.within ?_).trans (hoff.agreesOn ?_))
      ((hkept.within ?_).trans (hoff.agreesOn ?_))
    · exact stackAt_within c (d := 4) (by omega) (by omega) (by omega)
    · exact stackAt_apart c (d := 4) (by omega) (by omega) (by omega) (by omega)
    · exact stackAt_within c (d := 44) (by omega) (by omega) (by omega)
    · exact stackAt_apart c (d := 44) (by omega) (by omega) (by omega) (by omega)
  · exact hexport.trans (hoff.within (by simp))
  · rw [hds2, hds]
  · rw [hrc, hcode]

/-- How a routine entered in `c` ends, and its calls: it asks mwdd32 exactly if there is a mwdd32,
    and gives the return code of the request, or of the kernel that knows none. -/
inductive Attached (S : Platform) (c : Cpu) (m : Mem) (pTKSSBase pDevHelp32 : BitVec 32) :
    List AttachEvent → Cpu → Prop
  | missing {c1 c2 u : Cpu} : c2.cf = true → Left S c m u → u.sreg .ds = c.sreg .es →
      u.reg .eax = low (c2.reg .eax) →
      Attached S c m pTKSSBase pDevHelp32 [⟨(.attachDD, c1), c2⟩] u
  | found {c1 c2 c3 c4 u : Cpu} : c2.cf = false →
      Left S c (S.export m pTKSSBase pDevHelp32).1 u → u.sreg .ds = c.sreg .es →
      u.reg .eax = (S.export m pTKSSBase pDevHelp32).2.setWidth 32 →
      Attached S c m pTKSSBase pDevHelp32 [⟨(.attachDD, c1), c2⟩, ⟨(.idc, c3), c4⟩] u

theorem requesting_wp {P : List AttachEvent → AttachEvent → Prop}
    {Q : List AttachEvent → Option Cpu → Unit → Prop} {E : Env Unit (AttachCall × Cpu) fun _ => Cpu}
    {h : List AttachEvent} {fuel : ℕ} {code : Code AttachLabel AttachCall}
    (hS : S.scratch + 80 < 2 ^ 32) (hframed : Framed S c m (-44) c1)
    (hds : c1.sreg .ds = c.sreg .es) (hes : c1.sreg .es = c.sreg .es)
    (hentry : read c1.mem (S.at c (-10)) 4 = S.idcEntry mwdd32Name)
    (hp : ∀ c2 c3, Requesting S c m pTKSSBase pDevHelp32 c2 → E () (.idc, c2) c3 () →
      P h ⟨(.idc, c2), c3⟩ ∧ Wp E P Q (h ++ [⟨(.idc, c2), c3⟩]) ()
        (run S.machine code fuel (.alu .add (r esp) (imm 20) :: .label .error :: attachExit) c3)) :
    Wp E P Q h () (run S.machine code (fuel + 6)
      ((attachTail S.devHlpAttachDD pTKSSBase pDevHelp32).drop 12) c1) := by
  obtain ⟨hesp, hebp, hss, hsaved, hbelow⟩ := hframed
  refine wp_push (wp_push (wp_push (wp_push (wp_push fun c3 _ => hp _ c3 ?_))))
  refine ⟨⟨?_, ?_, ?_, ?_, ?_⟩, ?_, ?_, ?_, ⟨?_, ?_⟩, ?_, ?_, ?_⟩
  · simp [hesp]
  · simp [hebp]
  · simp [hss]
  · refine Saved.write
      (.write (.write (.write (.write (.write hsaved ?_ ?_) ?_ ?_) ?_ ?_) ?_ ?_) ?_ ?_) ?_ ?_
    all_goals simp [hss, hesp]
  · refine hbelow.trans (Below.of_frame ?_ hS)
    simp [hss, hesp]
    iterate 6 refine AgreesOff.write_within ?_ (by simp)
    exact AgreesOff.refl _ _ _
  · simpa [hss, hesp] using hentry
  · simp [hds]
  · simp [hes]
  · simp
  · simp
  · simp
  · simp
  · simp

theorem request_wp (fuel : ℕ) {code : Code AttachLabel AttachCall} {c2 : Cpu}
    (hafter : after .error code = attachExit) (hr : AttachReady S c m pTKSSBase pDevHelp32)
    (hframed : Framed S c m (-44) c2) (hes : c2.sreg .es = c.sreg .es)
    (hentry : c2.cf = false → read c2.mem (S.at c (-10)) 4 = S.idcEntry mwdd32Name) :
    Wp (attachEnv S) (fun _ _ => True)
      (fun tr res _ => ∃ u, res = some u ∧ Attached S c m pTKSSBase pDevHelp32 tr u)
      [⟨(.attachDD, c1), c2⟩] ()
      (run S.machine code (fuel + 18)
        ((attachTail S.devHlpAttachDD pTKSSBase pDevHelp32).drop 9) c2) := by
  have hused := hr.stack16.used
  refine wp_mov (wp_mov_jc (fun hc => ?_) fun hc => ?_)
  · rw [hafter]
    refine exit_wp ⟨?_, ?_, ?_, hframed.saved, hframed.below⟩ fun u hleft heax hds =>
      ⟨u, rfl, .missing hc hleft ?_ ?_⟩
    · simp [hframed.esp]
    · simp [hframed.ebp]
    · simp [hframed.ss]
    · rw [hds]
      simp [hes]
    · rw [heax]
      simp
  · refine requesting_wp (by omega) ⟨?_, ?_, ?_, hframed.saved, hframed.below⟩ ?_ ?_ (hentry hc) ?_
    · simp [hframed.esp]
    · simp [hframed.ebp]
    · simp [hframed.ss]
    · simp [hes]
    · simp [hes]
    · intro c3 c4 hreq hE
      obtain ⟨hreturned, hds, hrc⟩ := hreq.returned hr hE
      refine ⟨trivial, wp_alu (wp_label (exit_wp ⟨?_, ?_, ?_, hreturned.saved, hreturned.below⟩
        fun u hleft heax hds' => ⟨u, rfl, .found hc hleft ?_ ?_⟩))⟩
      · simp [hreturned.esp]
      · simp [hreturned.ebp]
      · simp [hreturned.ss]
      · rw [hds']
        simp [hds]
      · rw [heax]
        simp [hrc]

/-! ## The routines -/

theorem drv32PreInitBase_wp {reqpkt : BitVec 32} (hpacket : PacketAt S c reqpkt)
    (hr : AttachReady S c c.mem pTKSSBase pDevHelp32) :
    Wp (attachEnv S) (fun _ _ => True)
      (fun tr res _ => ∃ u, res = some u ∧ Attached S c c.mem pTKSSBase pDevHelp32 tr u) [] ()
      (drv32Exec S pTKSSBase pDevHelp32 c) := by
  have hused := hr.stack16.used
  refine prologue_wp (by omega) hpacket.arg fun c1 hentered => ?_
  refine drv32Load_wp 49 (by omega) hpacket hentered fun c2 hloaded => ?_
  refine calling_wp 40 (by omega) hloaded fun c3 c4 hcalling hE => ⟨trivial, ?_⟩
  obtain ⟨hframed, hes, hentry⟩ := hcalling.attached hr.stack16 hE
  exact request_wp 22 rfl hr hframed hes hentry

theorem sec32PreInitBase_wp {reqpkt : BitVec 32} (hpacket : PacketAt S c reqpkt)
    (hr : AttachReady S c (cleared S c reqpkt) pTKSSBase pDevHelp32) :
    Wp (attachEnv S) (fun _ _ => True)
      (fun tr res _ => ∃ u, res = some u ∧
        Attached S c (cleared S c reqpkt) pTKSSBase pDevHelp32 tr u) [] ()
      (sec32Exec S pTKSSBase pDevHelp32 c) := by
  have hused := hr.stack16.used
  refine prologue_wp (by omega) hpacket.arg fun c1 hentered => ?_
  refine sec32Load_wp 48 (by omega) hpacket hentered fun c2 hloaded => ?_
  refine calling_wp 39 (by omega) hloaded fun c3 c4 hcalling hE => ⟨trivial, ?_⟩
  obtain ⟨hframed, hes, hentry⟩ := hcalling.attached hr.stack16 hE
  exact request_wp 21 rfl hr hframed hes hentry

/-- **Attaching.** With any kernel and with the code of mwdd32 behind its IDC entry point, both
    routines return to their caller with its registers; they call mwdd32 exactly if the kernel found
    it, and then the memory is that of the export to their variables, the stack below apart. In
    every case `sec32` has cleared the pointer of the packet, and `drv32` has not. -/
theorem preInitBase_attached :
    (∀ c reqpkt pTKSSBase pDevHelp32 tr res, PacketAt S c reqpkt →
      AttachReady S c c.mem pTKSSBase pDevHelp32 →
      Runs (attachEnv S) () (drv32Exec S pTKSSBase pDevHelp32 c) tr res () →
      ∃ u, res = some u ∧ Attached S c c.mem pTKSSBase pDevHelp32 tr u) ∧
    ∀ c reqpkt pTKSSBase pDevHelp32 tr res, PacketAt S c reqpkt →
      AttachReady S c (cleared S c reqpkt) pTKSSBase pDevHelp32 →
      Runs (attachEnv S) () (sec32Exec S pTKSSBase pDevHelp32 c) tr res () →
      ∃ u, res = some u ∧ Attached S c (cleared S c reqpkt) pTKSSBase pDevHelp32 tr u :=
  ⟨fun _ _ _ _ _ _ hpacket hr h => ((drv32PreInitBase_wp hpacket hr).sound h).2,
    fun _ _ _ _ _ _ hpacket hr h => ((sec32PreInitBase_wp hpacket hr).sound h).2⟩

/-- The kernel may find any device. -/
theorem attachDD_exists (S : Platform) (c1 : Cpu) : ∃ c2, AttachDD S c1 c2 ∧ c2.cf = false := by
  let table := lin S.machine c1 .ds (low (c1.reg .edi))
  let entry := S.idcEntry (deviceName c1.mem (lin S.machine c1 .ds (low (c1.reg .ebx))))
  refine ⟨{ c1.addSp S.machine 4 with mem := write c1.mem (table + 6) 4 entry, cf := false },
    ⟨⟨rfl, by simp, fun _ _ => rfl, nofun⟩, fun a k htable _ => ?_,
      fun _ => read_write_self32 _ _ _⟩, rfl⟩
  refine write_agreesOn (htable.right_within ?_ (by omega))
  rw [Within, show table + 6 - table = 6 by ring]
  decide

theorem attachEnv_exists (S : Platform) (x : Unit) (op : AttachCall × Cpu) :
    ∃ c2 y, attachEnv S x op c2 y ∧ (op.1 = .attachDD → c2.cf = false) := by
  obtain ⟨call, c1⟩ := op
  cases call with
  | attachDD =>
    obtain ⟨c2, hattach, hcf⟩ := attachDD_exists S c1
    exact ⟨c2, (), fun _ _ => hattach, fun _ => hcf⟩
  | idc =>
    obtain ⟨c2, y, hstub⟩ := idcStub_exists () ((), c1)
    exact ⟨c2, y, fun _ => hstub, nofun⟩

/-- The stack of selector 8 at `0x10000` with a packet at `0x500`, and the client of `sampleMem`. -/
def attachCpu : Cpu :=
  ⟨fun _ => 0x800, fun sr => if sr = .ss then 8 else 0, false, false, 0,
    write (write (write sampleMem 0x400 4 0x10000) 0x10804 4 0x500) 0x50E 4 0x12345678, []⟩

/-- The kernel's stack base at 0x400, `mwdd32$` at its entry point and 256 bytes of stack for a
    callee -/
def attachPlatform : Platform :=
  ⟨idcBase, 0, 16, 0x400, 0x1000, 0x12345678, 0x2A, fun _ => 0x87654321, 0x100⟩

theorem attachCpu_packet : PacketAt attachPlatform attachCpu 0x500 :=
  ⟨by decide, by decide, by decide⟩

theorem attachCpu_ready {m : Mem} (hvalue : read m 0x400 4 = 0x10000)
    (hsize : recordSize (write m 0x3000 4 0x400) 0x2000 = 84) :
    AttachReady attachPlatform attachCpu m 0x3000 0x2000 := by
  refine ⟨⟨by decide, by decide, by decide, by decide⟩, hvalue, by decide, fun p d h => ?_⟩
  cases h
  refine ⟨by decide, fun _ => by decide, fun _ _ => ?_⟩
  rw [show attachPlatform.tkssBase = 0x400 from rfl, hsize]
  decide

/-- A run in which the kernel finds mwdd32, of a routine that ends as `Attached` says -/
theorem attachCpu_run {m : Mem} {exec : Prog (AttachCall × Cpu) (fun _ => Cpu) (Option Cpu)}
    (h : ∀ tr res, Runs (attachEnv attachPlatform) () exec tr res () →
      ∃ u, res = some u ∧ Attached attachPlatform attachCpu m 0x3000 0x2000 tr u) :
    ∃ tr u, Runs (attachEnv attachPlatform) () exec tr (some u) () ∧ tr.length = 2 ∧
      Left attachPlatform attachCpu (attachPlatform.export m 0x3000 0x2000).1 u ∧
      u.reg .eax = (attachPlatform.export m 0x3000 0x2000).2.setWidth 32 := by
  obtain ⟨tr, res, ⟨⟩, hrun⟩ := Runs.exists
    (E := fun x op c2 y => attachEnv attachPlatform x op c2 y ∧ (op.1 = .attachDD → c2.cf = false))
    (attachEnv_exists attachPlatform) exec ()
  have hruns := hrun.mono (attachEnv attachPlatform) fun _ _ _ _ h => h.1
  obtain ⟨u, rfl, hattached⟩ := h tr res hruns
  refine ⟨tr, u, hruns, ?_⟩
  cases hattached with
  | missing hcf =>
    obtain ⟨-, -, -, hfound⟩ := hrun.forall_env _ (List.mem_singleton_self _)
    rw [hfound rfl] at hcf
    cases hcf
  | found _ hleft _ heax => exact ⟨rfl, hleft, heax⟩

/-- A run of each routine that gets its helpers. The first leaves the pointer of the packet. -/
theorem preInitBase_attached_sample :
    (∃ tr u, Runs (attachEnv attachPlatform) ()
      (drv32Exec attachPlatform 0x3000 0x2000 attachCpu) tr (some u) () ∧
      tr.length = 2 ∧ u.reg .eax = 0 ∧ u.reg .esp = 0x804 ∧ read u.mem 0x50E 4 = 0x12345678) ∧
    ∃ tr u, Runs (attachEnv attachPlatform) ()
      (sec32Exec attachPlatform 0x3000 0x2000 attachCpu) tr (some u) () ∧
      tr.length = 2 ∧ u.reg .eax = 0 ∧ u.reg .esp = 0x804 ∧ read u.mem 0x50E 4 = 0 := by
  obtain ⟨hdrv32, hsec32⟩ := @preInitBase_attached attachPlatform
  constructor
  · obtain ⟨tr, u, hrun, hlen, hleft, heax⟩ := attachCpu_run fun tr res =>
      hdrv32 attachCpu 0x500 0x3000 0x2000 tr res attachCpu_packet
        (attachCpu_ready (by decide) (by decide))
    refine ⟨tr, u, hrun, hlen, heax.trans (by decide), hleft.esp.trans (by decide), ?_⟩
    exact (hleft.below.read_eq (by decide)).trans (by decide)
  · obtain ⟨tr, u, hrun, hlen, hleft, heax⟩ := attachCpu_run fun tr res =>
      hsec32 attachCpu 0x500 0x3000 0x2000 tr res attachCpu_packet
        (attachCpu_ready (by decide) (by decide))
    refine ⟨tr, u, hrun, hlen, heax.trans (by decide), hleft.esp.trans (by decide), ?_⟩
    exact (hleft.below.read_eq (by decide)).trans (by decide)

end Request

end Mwdd32.Skeleton
