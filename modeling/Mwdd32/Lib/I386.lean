import Mwdd32.Lib.ByteMem
import Mwdd32.Lib.Interaction

/-!
# Straight-line i386 code with calls

The part of the i386 that hand-written glue code uses: general and segment
registers, the carry and zero flags, moves, stack instructions, a few ALU
operations and jumps. Code runs in a segmented machine whose stack pointer is
either ESP or SP. A `call` leaves the code: it is an operation of
`Interaction.Prog` that gets the processor state at the callee's first
instruction and is answered by the state at its return.

* `Code`, `run`: instructions and their execution.
* `callFrame`, `arg_callFrame`: a caller that pushes its arguments from right to left,
  and where the callee finds them.
* `Returns`: a callee that pops what it has to and keeps the caller's frame.
* `moved_repMovsb`: what `rep movsb` copies to a range apart from its source.
-/

namespace I386

open ByteMem Interaction

/-! ## State -/

/-- The general registers -/
inductive Reg
  | eax | ecx | edx | ebx | esp | ebp | esi | edi
  deriving DecidableEq

/-- The segment registers that are used -/
inductive SReg
  | ds | es | ss
  deriving DecidableEq

/-- The processor and its memory. `eip` is the return address last popped, and
    `stores` lists the addresses stored to through memory operands. -/
structure Cpu where
  reg : Reg → BitVec 32
  sreg : SReg → BitVec 16
  cf : Bool
  zf : Bool
  eip : BitVec 32
  mem : Mem
  stores : List Addr

/-- What the code cannot see: the bases of the segments, whether the stack
    segment is a 32-bit one, and the return addresses that calls push. -/
structure Machine where
  base : BitVec 16 → Addr
  big : Bool
  retaddr : BitVec 32

/-- A machine with a 32-bit stack segment. -/
abbrev Machine.stack32 (base : BitVec 16 → Addr) (retaddr : BitVec 32) : Machine :=
  ⟨base, true, retaddr⟩

/-- A machine with a 16-bit stack segment. -/
abbrev Machine.stack16 (base : BitVec 16 → Addr) (retaddr : BitVec 32) : Machine :=
  ⟨base, false, retaddr⟩

/-! ### Parts of a register -/

/-- The low word of `x`, extended with zeroes. -/
def low (x : BitVec 32) : BitVec 32 := (x.setWidth 16).setWidth 32

/-- The high word. -/
def high (x : BitVec 32) : BitVec 32 := x >>> 16

/-- The low byte. -/
def byte0 (x : BitVec 32) : BitVec 32 := (x.setWidth 8).setWidth 32

/-- The high byte of the low word. -/
def byte1 (x : BitVec 32) : BitVec 32 := byte0 (x >>> 8)

/-- `x` with its low word replaced by that of `v`. -/
def setLow (x v : BitVec 32) : BitVec 32 := x.extractLsb' 16 16 ++ v.setWidth 16

/-- `x` with its low byte replaced by that of `v`. -/
def setByte0 (x v : BitVec 32) : BitVec 32 := x.extractLsb' 8 24 ++ v.setWidth 8

/-- `x` with the high byte of its low word replaced by the low byte of `v`. -/
def setByte1 (x v : BitVec 32) : BitVec 32 :=
  (x.extractLsb' 16 16 ++ v.setWidth 8 ++ x.setWidth 8 : BitVec 32)

@[simp] theorem low_zero : low 0#32 = 0#32 := rfl

@[simp] theorem low_setLow (x v : BitVec 32) : low (setLow x v) = low v := by
  unfold low setLow
  grind

@[simp] theorem low_setLow_add (x v k : BitVec 32) : low (setLow x v + k) = low (v + k) := by
  have hv : (setLow x v).setWidth 16 = v.setWidth 16 := by
    unfold setLow
    grind
  rw [low, low, BitVec.setWidth_add _ _ (by omega), hv, ← BitVec.setWidth_add _ _ (by omega)]

theorem setLow_low (x v : BitVec 32) : setLow x (low v) = setLow x v := by
  unfold setLow low
  grind

@[simp] theorem setLow_setLow_add (x y v k : BitVec 32) :
    setLow x (setLow y v + k) = setLow x (v + k) := by
  rw [← setLow_low, low_setLow_add, setLow_low]

@[simp] theorem setLow_shiftLeft (x v : BitVec 32) : setLow x v <<< 16 = v <<< 16 := by
  unfold setLow
  grind

@[simp] theorem byte1_setByte0 (x v : BitVec 32) : byte1 (setByte0 x v) = byte1 x := by
  unfold byte1 byte0 setByte0
  grind

@[simp] theorem byte1_setByte1 (x v : BitVec 32) : byte1 (setByte1 x v) = byte0 v := by
  unfold byte1 byte0 setByte1
  grind

@[simp] theorem low_low (x : BitVec 32) : low (low x) = low x := by
  unfold low
  grind

theorem byte0_setByte0 (x v : BitVec 32) : byte0 (setByte0 x v) = byte0 v := by
  unfold byte0 setByte0
  grind

theorem byte0_byte0 (x : BitVec 32) : byte0 (byte0 x) = byte0 x := by
  unfold byte0
  grind

theorem and_ffff (x : BitVec 32) : x &&& 65535#32 = low x := by
  apply BitVec.eq_of_toNat_eq
  rw [BitVec.toNat_and, show (65535#32).toNat = 2 ^ 16 - 1 from rfl,
    Nat.and_two_pow_sub_one_eq_mod]
  simp only [low, BitVec.toNat_setWidth]
  omega

theorem low_selector (s : BitVec 16) : low (s.setWidth 32) = s.setWidth 32 := by
  unfold low
  grind

@[simp] theorem selector_low (s : BitVec 16) : (low (s.setWidth 32)).setWidth 16 = s := by
  rw [low_selector]
  simp

theorem toNat_low (x : BitVec 32) : (low x).toNat = x.toNat % 2 ^ 16 := by
  have := x.isLt
  simp only [low, BitVec.toNat_setWidth]
  omega

theorem setWidth_low (x : BitVec 32) : (low x).setWidth 16 = x.setWidth 16 := by
  unfold low
  grind

theorem setWidth_high (x : BitVec 32) : (high x).setWidth 16 = x.extractLsb' 16 16 := by
  unfold high
  grind

/-- 16-bit offsets from one base differ modulo `2 ^ 16`. -/
theorem low_add_inj {x c d : BitVec 32} (h : low (x + c) = low (x + d)) :
    c.toNat % 2 ^ 16 = d.toNat % 2 ^ 16 := by
  have h' := congrArg BitVec.toNat h
  rw [toNat_low, toNat_low, BitVec.toNat_add, BitVec.toNat_add] at h'
  omega

/-- Two ranges at 16-bit offsets `x + c` and `x + d` are apart when `c` and `d` are, modulo
    `2 ^ 16`. -/
@[simp] theorem apart_low {b x c d : BitVec 32} {n k : ℕ} (hn : n ≤ (d - c).toNat % 2 ^ 16)
    (hk : k ≤ (c - d).toNat % 2 ^ 16) :
    Apart (b + low (x + c)) n (b + low (x + d)) k := by
  have h1 : b + low (x + d) - (b + low (x + c)) = low (x + d) - low (x + c) := by ring
  have h2 : b + low (x + c) - (b + low (x + d)) = low (x + c) - low (x + d) := by ring
  have hx := x.isLt
  have hc := c.isLt
  have hd := d.isLt
  rw [BitVec.toNat_sub] at hn hk
  unfold Apart
  rw [h1, h2, BitVec.toNat_sub, BitVec.toNat_sub, toNat_low, toNat_low, BitVec.toNat_add,
    BitVec.toNat_add]
  omega

@[simp] theorem apart_low_base {b x d : BitVec 32} {n k : ℕ} (hn : n ≤ d.toNat % 2 ^ 16)
    (hk : k ≤ (-d).toNat % 2 ^ 16) : Apart (b + low x) n (b + low (x + d)) k := by
  have h := apart_low (b := b) (x := x) (c := 0) (d := d) (n := n) (k := k)
  simpa using h (by simpa using hn) (by simpa using hk)

@[simp] theorem setWidth_setWidth_low (x : BitVec 32) : (x.setWidth 16).setWidth 32 = low x := rfl

/-! ### Parts of a dword in memory -/

@[simp] theorem low_read_dword (m : Mem) (a : Addr) : low (read m a 4) = read m a 2 :=
  (read_two m a).symm

@[simp] theorem low_read_word (m : Mem) (a : Addr) : low (read m a 2) = read m a 2 := by
  rw [← low_read_dword, low_low]

@[simp] theorem high_read_dword (m : Mem) (s x d : Addr) :
    high (read m (s + (x + d)) 4) = read m (s + (x + (d + 2))) 2 := by
  rw [high, ← read_two_high, show s + (x + d) + 2 = s + (x + (d + 2)) by ring]

@[simp] theorem byte0_read_dword (m : Mem) (a : Addr) : byte0 (read m a 4) = read m a 1 :=
  (read_one m a).symm

@[simp] theorem byte0_read_byte (m : Mem) (a : Addr) : byte0 (read m a 1) = read m a 1 := by
  rw [← byte0_read_dword, byte0_byte0]

/-- `r := v` -/
@[simp] def Cpu.setReg (c : Cpu) (r : Reg) (v : BitVec 32) : Cpu :=
  { c with reg := Function.update c.reg r v }

/-- Operands. The size `n` of a memory operand is in bytes. -/
inductive Opnd
  | r (r : Reg)
  | r16 (r : Reg)
  | lo (r : Reg)
  | hi (r : Reg)
  | s (s : SReg)
  | imm (v : BitVec 32)
  /-- `s:[base + disp]` -/
  | m (n : ℕ) (s : SReg) (base : Reg) (disp : BitVec 32)
  /-- `s:[addr]` -/
  | abs (n : ℕ) (s : SReg) (addr : BitVec 32)
  /-- the source of `lea reg, [base + disp]` -/
  | ea (base : Reg) (disp : BitVec 32)
  /-- the same with a 16-bit base register -/
  | ea16 (base : Reg) (disp : BitVec 32)

variable (M : Machine)

/-- The linear address of `s:off`. -/
@[simp] def lin (c : Cpu) (s : SReg) (off : BitVec 32) : Addr := M.base (c.sreg s) + off

/-- The value of an operand, extended with zeroes. -/
@[simp] def Cpu.get (c : Cpu) : Opnd → BitVec 32
  | .r r => c.reg r
  | .r16 r => low (c.reg r)
  | .lo r => byte0 (c.reg r)
  | .hi r => byte1 (c.reg r)
  | .s s => (c.sreg s).setWidth 32
  | .imm v => v
  | .m n s b d => read c.mem (lin M c s (c.reg b + d)) n
  | .abs n s a => read c.mem (lin M c s a) n
  | .ea b d => c.reg b + d
  | .ea16 b d => low (c.reg b + d)

/-- A store of `n` bytes, which is recorded -/
@[simp] def Cpu.store (c : Cpu) (a : Addr) (n : ℕ) (v : BitVec 32) : Cpu :=
  { c with mem := write c.mem a n v, stores := c.stores ++ [a] }

/-- `mov`. Immediates and addresses are no destinations. -/
@[simp] def Cpu.set (c : Cpu) (v : BitVec 32) : Opnd → Cpu
  | .r r => c.setReg r v
  | .r16 r => c.setReg r (setLow (c.reg r) v)
  | .lo r => c.setReg r (setByte0 (c.reg r) v)
  | .hi r => c.setReg r (setByte1 (c.reg r) v)
  | .s s => { c with sreg := Function.update c.sreg s (v.setWidth 16) }
  | .m n s b d => c.store (lin M c s (c.reg b + d)) n v
  | .abs n s a => c.store (lin M c s a) n v
  | .imm _ | .ea _ _ | .ea16 _ _ => c

/-! ## Stack -/

/-- The stack offset: ESP or SP. -/
@[simp] def sp (x : BitVec 32) : BitVec 32 := if M.big then x else low x

/-- ESP with the stack offset `v`. -/
@[simp] def withSp (x v : BitVec 32) : BitVec 32 := if M.big then v else setLow x v

/-- Move the stack pointer up by `d`. -/
@[simp] def Cpu.addSp (c : Cpu) (d : BitVec 32) : Cpu :=
  c.setReg .esp (withSp M (c.reg .esp) (c.reg .esp + d))

/-- The linear address `d` bytes above the stack pointer. -/
@[simp] def Cpu.stk (c : Cpu) (d : BitVec 32) : Addr := lin M c .ss (sp M (c.reg .esp + d))

/-- `push` of `n` bytes -/
@[simp] def Cpu.push (n : ℕ) (v : BitVec 32) (c : Cpu) : Cpu :=
  { c.addSp M (-BitVec.ofNat 32 n) with mem := write c.mem (c.stk M (-BitVec.ofNat 32 n)) n v }

/-- The `n` bytes on top of the stack -/
@[simp] def Cpu.top (n : ℕ) (c : Cpu) : BitVec 32 := read c.mem (c.stk M 0) n

/-! ## Instructions -/

/-- The operations on two operands -/
inductive Alu
  | and | xor | add | sub | cmp | shl

/-- The conditions of `jc`, `jz` and `jnz`. -/
inductive Cond
  | carry | zero | nonzero

/-- A condition, in the flags -/
@[simp] def Cond.holds (c : Cpu) : Cond → Bool
  | .carry => c.cf
  | .zero => c.zf
  | .nonzero => !c.zf

/-- `movzx` and `lea` are `mov` with the operand that says so. Sizes are in
    bytes; `call n x` pushes a return address of `n` dwords, and `ret n` pops a
    near 32-bit or a far 16-bit one and `n` bytes more. ALU operands have 32 bits,
    and `shl` shifts by 1 to 31. -/
inductive Instr (L X : Type)
  | label (l : L)
  | mov (d s : Opnd)
  | push (n : ℕ) (s : Opnd)
  | pop (n : ℕ) (d : Opnd)
  | enter (n k : ℕ)
  | leave (n : ℕ)
  | alu (op : Alu) (d s : Opnd)
  | call (n : ℕ) (x : X)
  | jcc (c : Cond) (l : L)
  | jmp (l : L)
  | ret (n : ℕ)
  | repMovsb

/-- A routine -/
abbrev Code (L X : Type) := List (Instr L X)

/-- EBP or BP. -/
@[simp] def frameReg (n : ℕ) : Opnd := if n = 2 then .r16 .ebp else .r .ebp

/-- `pop` of `n` bytes into `d` -/
@[simp] def Cpu.pop (n : ℕ) (d : Opnd) (c : Cpu) : Cpu :=
  (c.addSp M (BitVec.ofNat 32 n)).set M (c.top M n) d

/-- `enter k, 0` with an operand size of `n` bytes -/
@[simp] def Cpu.enter (n k : ℕ) (c : Cpu) : Cpu :=
  let c := c.push M n (c.get M (frameReg n))
  (c.set M (c.reg .esp) (frameReg n)).addSp M (-BitVec.ofNat 32 k)

/-- `leave` with an operand size of `n` bytes -/
@[simp] def Cpu.leave (n : ℕ) (c : Cpu) : Cpu :=
  (c.setReg .esp (withSp M (c.reg .esp) (c.reg .ebp))).pop M n (frameReg n)

/-- An operation with its flags -/
@[simp] def Cpu.alu (op : Alu) (d s : Opnd) (c : Cpu) : Cpu :=
  let a := c.get M d
  let b := c.get M s
  match op with
  | .and => { c.set M (a &&& b) d with cf := false, zf := a &&& b == 0 }
  | .xor => { c.set M (a ^^^ b) d with cf := false, zf := a ^^^ b == 0 }
  | .add => { c.set M (a + b) d with cf := decide (a + b < a), zf := a + b == 0 }
  | .sub => { c.set M (a - b) d with cf := decide (a < b), zf := a == b }
  | .cmp => { c with cf := decide (a < b), zf := a == b }
  | .shl => { c.set M (a <<< b) d with cf := a.getLsbD (32 - b.toNat), zf := a <<< b == 0 }

/-- One byte of `rep movsb`, with the direction flag clear. -/
def Cpu.movsb (c : Cpu) : Cpu :=
  let c' := c.store (lin M c .es (c.reg .edi)) 1 (read c.mem (lin M c .ds (c.reg .esi)) 1)
  ((c'.setReg .esi (c.reg .esi + 1)).setReg .edi (c.reg .edi + 1)).setReg .ecx (c.reg .ecx - 1)

/-- `rep movsb`: ECX bytes from DS:ESI to ES:EDI. -/
def Cpu.repMovsb (c : Cpu) : Cpu := (Cpu.movsb M)^[(c.reg .ecx).toNat] c

/-- `ret n`, over a return address of four bytes -/
@[simp] def Cpu.ret (n : ℕ) (c : Cpu) : Cpu :=
  { c.addSp M (BitVec.ofNat 32 (4 + n)) with eip := c.top M 4 }

section Run

variable {L X : Type} [DecidableEq L]

/-- The code behind a label. -/
@[simp] def after (l : L) : Code L X → Code L X
  | [] => []
  | .label l' :: is => if l' = l then is else after l is
  | _ :: is => after l is

/-- Run `is`, a part of `code`, for at most `fuel` instructions. -/
@[simp] def run (code : Code L X) : (fuel : ℕ) → (is : Code L X) → Cpu →
    Prog (X × Cpu) (fun _ => Cpu) (Option Cpu)
  | 0, _, _ => .ret none
  | _ + 1, [], c => .ret (some c)
  | fuel + 1, i :: is, c =>
    match i with
    | .label _ => run code fuel is c
    | .mov d s => run code fuel is (c.set M (c.get M s) d)
    | .push n s => run code fuel is (c.push M n (c.get M s))
    | .pop n d => run code fuel is (c.pop M n d)
    | .enter n k => run code fuel is (c.enter M n k)
    | .leave n => run code fuel is (c.leave M n)
    | .alu op d s => run code fuel is (c.alu M op d s)
    | .call n x => .call (x, (Cpu.push M 4 M.retaddr)^[n] c) fun c' => run code fuel is c'
    | .jcc cc l => if cc.holds c then run code fuel (after l code) c else run code fuel is c
    | .jmp l => run code fuel (after l code) c
    | .ret n => .ret (some (c.ret M n))
    | .repMovsb => run code fuel is (c.repMovsb M)

/-! ### Rules for `Wp` -/

@[simp] theorem set_cf (c : Cpu) (v : BitVec 32) (d : Opnd) : (c.set M v d).cf = c.cf := by
  cases d <;> rfl

variable {M} {σ : Type*} {E : Env σ (X × Cpu) fun _ => Cpu}
  {P : List (Event (X × Cpu) fun _ => Cpu) → Event (X × Cpu) (fun _ => Cpu) → Prop}
  {Q : List (Event (X × Cpu) fun _ => Cpu) → Option Cpu → σ → Prop}
  {h : List (Event (X × Cpu) fun _ => Cpu)} {st : σ} {code is : Code L X} {fuel n : ℕ} {d o : Opnd}
  {l : L} {x : X} {c : Cpu}

theorem wp_mov (hp : Wp E P Q h st (run M code fuel is (c.set M (c.get M o) d))) :
    Wp E P Q h st (run M code (fuel + 1) (.mov d o :: is) c) := hp

theorem wp_push (hp : Wp E P Q h st (run M code fuel is (c.push M n (c.get M o)))) :
    Wp E P Q h st (run M code (fuel + 1) (.push n o :: is) c) := hp

theorem wp_pop (hp : Wp E P Q h st (run M code fuel is (c.pop M n d))) :
    Wp E P Q h st (run M code (fuel + 1) (.pop n d :: is) c) := hp

theorem wp_enter {k : ℕ} (hp : Wp E P Q h st (run M code fuel is (c.enter M n k))) :
    Wp E P Q h st (run M code (fuel + 1) (.enter n k :: is) c) := hp

theorem wp_alu {op : Alu} (hp : Wp E P Q h st (run M code fuel is (c.alu M op d o))) :
    Wp E P Q h st (run M code (fuel + 1) (.alu op d o :: is) c) := hp

theorem wp_label (hp : Wp E P Q h st (run M code fuel is c)) :
    Wp E P Q h st (run M code (fuel + 1) (.label l :: is) c) := hp

/-- A `jc` behind a `mov`: the carry flag is the one before both. -/
theorem wp_mov_jc
    (ht : c.cf = true → Wp E P Q h st (run M code fuel (after l code) (c.set M (c.get M o) d)))
    (hf : c.cf = false → Wp E P Q h st (run M code fuel is (c.set M (c.get M o) d))) :
    Wp E P Q h st (run M code (fuel + 2) (.mov d o :: .jcc .carry l :: is) c) := by
  refine wp_ite (fun hc => ht ?_) fun hc => hf ?_
  · rwa [Cond.holds, set_cf] at hc
  · rwa [Cond.holds, set_cf, Bool.not_eq_true] at hc

/-- From here on it is enough to know `R` of the state. -/
theorem wp_state (R : Cpu → Prop) (hR : R c)
    (hp : ∀ c, R c → Wp E P Q h st (run M code fuel is c)) :
    Wp E P Q h st (run M code fuel is c) :=
  hp c hR

omit [DecidableEq L] in
/-- At a call it is enough to know `R` of the state in which the code makes it. -/
theorem wp_call_of {k : Cpu → Prog (X × Cpu) (fun _ => Cpu) (Option Cpu)} (R : Cpu → Prop)
    (hR : R c)
    (hk : ∀ c, R c → ∀ c' st', E st (x, (Cpu.push M 4 M.retaddr)^[n] c) c' st' →
      P h ⟨(x, (Cpu.push M 4 M.retaddr)^[n] c), c'⟩ ∧
        Wp E P Q (h ++ [⟨(x, (Cpu.push M 4 M.retaddr)^[n] c), c'⟩]) st' (k c')) :
    Wp E P Q h st (.call (x, (Cpu.push M 4 M.retaddr)^[n] c) k) :=
  hk c hR

end Run

/-! ## String moves -/

/-- `k` bytes have been moved from `src` to `dst` since `c`. -/
structure Moved (dst src : Addr) (k : ℕ) (c c' : Cpu) : Prop where
  reg : ∀ r, r ≠ .esi → r ≠ .edi → r ≠ .ecx → c'.reg r = c.reg r
  esi : c'.reg .esi = c.reg .esi + BitVec.ofNat 32 k
  edi : c'.reg .edi = c.reg .edi + BitVec.ofNat 32 k
  sreg : c'.sreg = c.sreg
  mem : c'.mem = copy c.mem dst src k
  stores : c'.stores = c.stores ++ (List.range k).map fun i => dst + BitVec.ofNat 32 i

/-- The next byte of ranges that are apart. -/
theorem copy_succ {m : Mem} {dst src : Addr} {n k : ℕ} (h : Apart src n dst n) (hk : k < n)
    (hn : n < 2 ^ 32) :
    write (copy m dst src k) (dst + BitVec.ofNat 32 k) 1
      (read (copy m dst src k) (src + BitVec.ofNat 32 k) 1) = copy m dst src (k + 1) := by
  have hsrc : copy m dst src k (src + BitVec.ofNat 32 k) = m (src + BitVec.ofNat 32 k) :=
    copy_of_le ((Nat.le_of_lt hk).trans (h.le_sub hk))
  funext x
  by_cases hx : x = dst + BitVec.ofNat 32 k
  · subst hx
    rw [copy_inside m dst src (Nat.lt_succ_self k) (by omega), ← hsrc]
    simp [ByteMem.write, ByteMem.read]
  · have hpos : 1 ≤ (x - (dst + BitVec.ofNat 32 k)).toNat := by
      rw [Nat.one_le_iff_ne_zero]
      exact fun h => hx (sub_eq_zero.mp (BitVec.eq_of_toNat_eq h))
    have hne : (x - dst).toNat ≠ k := by
      intro h
      refine hx ?_
      rw [← h, BitVec.ofNat_toNat, BitVec.setWidth_eq]
      ring
    have hiff : (x - dst).toNat < k + 1 ↔ (x - dst).toNat < k := by omega
    rw [write_of_le hpos]
    simp only [copy, hiff]

theorem Moved.movsb {dst src : Addr} {n k : ℕ} {c c' : Cpu} (h : Moved dst src k c c')
    (hdst : dst = lin M c .es (c.reg .edi)) (hsrc : src = lin M c .ds (c.reg .esi))
    (hapart : Apart src n dst n) (hk : k < n) (hn : n < 2 ^ 32) :
    Moved dst src (k + 1) c (c'.movsb M) := by
  have hsucc (x : BitVec 32) : x + BitVec.ofNat 32 k + 1 = x + BitVec.ofNat 32 (k + 1) := by
    rw [BitVec.ofNat_add, ← BitVec.add_assoc]
    rfl
  have hd : lin M c' .es (c'.reg .edi) = dst + BitVec.ofNat 32 k := by
    rw [lin, h.sreg, h.edi, hdst, lin, BitVec.add_assoc]
  have hs : lin M c' .ds (c'.reg .esi) = src + BitVec.ofNat 32 k := by
    rw [lin, h.sreg, h.esi, hsrc, lin, BitVec.add_assoc]
  constructor
  · intro r h1 h2 h3
    rw [← h.reg r h1 h2 h3]
    simp [Cpu.movsb, h1, h2, h3]
  · rw [← hsucc, ← h.esi]
    simp [Cpu.movsb]
  · rw [← hsucc, ← h.edi]
    simp [Cpu.movsb]
  · exact h.sreg
  · rw [← copy_succ hapart hk hn, ← h.mem, ← hd, ← hs]
    rfl
  · rw [List.range_succ, List.map_append, ← List.append_assoc, ← h.stores, List.map_singleton, ← hd]
    rfl

/-- `rep movsb` copies bytes to a range apart from them. -/
theorem moved_repMovsb {dst src : Addr} {n : ℕ} {c : Cpu} (hcount : (c.reg .ecx).toNat = n)
    (hdst : dst = lin M c .es (c.reg .edi)) (hsrc : src = lin M c .ds (c.reg .esi))
    (hapart : Apart src n dst n) : Moved dst src n c (c.repMovsb M) := by
  have hn : n < 2 ^ 32 := hcount ▸ (c.reg .ecx).isLt
  rw [Cpu.repMovsb, hcount]
  suffices h : ∀ k ≤ n, Moved dst src k c ((Cpu.movsb M)^[k] c) from h n le_rfl
  intro k
  induction k with
  | zero =>
    intro _
    have hcopy : copy c.mem dst src 0 = c.mem := funext fun x => copy_of_le (Nat.zero_le _)
    exact ⟨fun _ _ _ _ => rfl, (BitVec.add_zero _).symm, (BitVec.add_zero _).symm, rfl, hcopy.symm,
      (List.append_nil _).symm⟩
  | succ k ih =>
    intro hk
    rw [Function.iterate_succ_apply']
    exact (ih (Nat.le_of_succ_le hk)).movsb M hdst hsrc hapart hk hn

/-! ## Calls -/

/-- The `i`-th dword above a return address of four bytes. -/
@[simp] def arg (c : Cpu) (i : ℕ) : BitVec 32 :=
  read c.mem (c.stk M (BitVec.ofNat 32 (4 + 4 * i))) 4

/-- Push a list so that its first element ends up at the stack pointer. -/
def Cpu.pushAll (l : List (BitVec 32)) (c : Cpu) : Cpu := l.foldr (fun v c => c.push M 4 v) c

/-- The state at the first instruction of a callee with `n` dword arguments. -/
def callFrame (n : ℕ) (args : ℕ → BitVec 32) (retaddr : BitVec 32) (c : Cpu) : Cpu :=
  (c.pushAll M ((List.range n).map args)).push M 4 retaddr

/-- The callee entered in `c` and left in `c'` pops `n` bytes, return address
    included, and keeps EBP, the segment registers `keep` and the bytes `slots` above
    what it pops. -/
structure Returns (n : ℕ) (keep : List SReg) (slots : List (BitVec 32 × ℕ)) (c c' : Cpu) :
    Prop where
  esp : c'.reg .esp = (c.addSp M (BitVec.ofNat 32 n)).reg .esp
  ebp : c'.reg .ebp = c.reg .ebp
  sreg : ∀ s ∈ keep, c'.sreg s = c.sreg s
  mem : ∀ s ∈ slots, AgreesOn c.mem c'.mem (c.stk M (BitVec.ofNat 32 n + s.1)) s.2

/-- A callee may do nothing but return. -/
theorem returns_addSp (n : ℕ) (keep : List SReg) (slots : List (BitVec 32 × ℕ)) (c : Cpu) :
    Returns M n keep slots c (c.addSp M (BitVec.ofNat 32 n)) :=
  ⟨rfl, by simp, fun _ _ => rfl, fun _ _ => AgreesOn.refl _ _ _⟩

section CallFrame

variable (base : BitVec 16 → Addr) (ra : BitVec 32)

theorem ofNat_four_mul_add (i : ℕ) :
    BitVec.ofNat 32 (4 * i + 4) = BitVec.ofNat 32 (4 * i) + 4 :=
  BitVec.ofNat_add _ _

theorem pushAll_sreg (l : List (BitVec 32)) (c : Cpu) :
    (c.pushAll (.stack32 base ra) l).sreg = c.sreg := by
  induction l with
  | nil => rfl
  | cons v l ih => simpa [Cpu.pushAll] using ih

@[simp] theorem pushAll_cons_esp (v : BitVec 32) (l : List (BitVec 32)) (c : Cpu) :
    (c.pushAll (.stack32 base ra) (v :: l)).reg .esp =
      (c.pushAll (.stack32 base ra) l).reg .esp - 4 := by
  simp [Cpu.pushAll, BitVec.sub_eq_add_neg]

theorem pushAll_read (l : List (BitVec 32)) (c : Cpu) (hl : 4 * l.length < 2 ^ 32) :
    ∀ i (hi : i < l.length), read (c.pushAll (.stack32 base ra) l).mem
      (base (c.sreg .ss) + ((c.pushAll (.stack32 base ra) l).reg .esp +
        BitVec.ofNat 32 (4 * i))) 4 = l[i] := by
  induction l with
  | nil => intro i hi; simp at hi
  | cons v l ih =>
    intro i hi
    rw [List.length_cons] at hl hi
    have hsreg := congrFun (pushAll_sreg base ra l c) .ss
    set c' := c.pushAll (.stack32 base ra) l with hc'
    have hmem : (c.pushAll (.stack32 base ra) (v :: l)).mem =
        write c'.mem (base (c.sreg .ss) + (c'.reg .esp - 4)) 4 v := by
      rw [← hsreg]
      simp [Cpu.pushAll, hc', BitVec.sub_eq_add_neg]
    rw [hmem, pushAll_cons_esp, ← hc']
    cases i with
    | zero => simp
    | succ i =>
      have hoff : c'.reg .esp - 4 + BitVec.ofNat 32 (4 * (i + 1)) =
          c'.reg .esp + BitVec.ofNat 32 (4 * i) := by
        rw [Nat.mul_succ, ofNat_four_mul_add]
        ring
      have hapart : Apart (base (c.sreg .ss) + (c'.reg .esp + BitVec.ofNat 32 (4 * i))) 4
          (base (c.sreg .ss) + (c'.reg .esp - 4)) 4 := by
        rw [BitVec.sub_eq_add_neg, apart_offset]
        have h1 : -4 - BitVec.ofNat 32 (4 * i) = -BitVec.ofNat 32 (4 * i + 4) := by
          rw [ofNat_four_mul_add]; ring
        have h2 : BitVec.ofNat 32 (4 * i) - -4 = BitVec.ofNat 32 (4 * i + 4) := by
          rw [ofNat_four_mul_add]; ring
        rw [h1, h2, BitVec.toNat_neg, BitVec.toNat_ofNat, Nat.mod_eq_of_lt (by omega)]
        omega
      rw [hoff, read_write_of_apart hapart]
      simpa using ih (by omega) i (by omega)

variable {base ra}

/-- The callee finds argument `i` at `[esp + 4 + 4*i]`. -/
theorem arg_callFrame {n i : ℕ} (args : ℕ → BitVec 32) (ret : BitVec 32) (c : Cpu) (hi : i < n)
    (hn : 4 * n + 4 < 2 ^ 32) :
    arg (.stack32 base ra) (callFrame (.stack32 base ra) n args ret c) i = args i := by
  have h := pushAll_read base ra (ret :: (List.range n).map args) c
    (by simp; omega) (i + 1) (by simp; omega)
  rw [List.getElem_cons_succ, List.getElem_map, List.getElem_range, Nat.mul_succ,
    Nat.add_comm] at h
  have hframe : callFrame (.stack32 base ra) n args ret c =
      c.pushAll (.stack32 base ra) (ret :: (List.range n).map args) := rfl
  have hsreg := congrFun (pushAll_sreg base ra (ret :: (List.range n).map args) c) .ss
  rw [hframe, ← h, ← hsreg]
  rfl

end CallFrame

end I386
