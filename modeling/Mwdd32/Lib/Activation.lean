import Mwdd32.Lib.I386

/-!
# Routines with a frame pointer

A 32-bit routine keeps its caller's EBP and addresses its arguments and `k` bytes of locals from its
own; below them it pushes the registers that it will restore, and pops them in the opposite order at
its end.

* `pushes_wp`: behind the prologue the activation record holds what the caller left in the
  registers.
* `Activation.congr`: what leaves the record alone, a call included, keeps it.
* `pops_wp`: from a state with the record and any registers, the epilogue returns to the caller with
  the saved registers.
-/

namespace I386

open ByteMem Interaction

variable {L X : Type} (base : BitVec 16 → Addr)

/-! ## Code -/

/-- The prologue saves the operands in their order, -/
def pushes (saves : List Opnd) : Code L X := saves.map (.push 4)

/-- and the epilogue restores them backwards. -/
def pops (saves : List Opnd) : Code L X := saves.reverse.map (.pop 4)

/-- A register that a routine may save: not the stack it saves it on. -/
def Opnd.savable : Opnd → Bool
  | .r x => x ≠ .esp ∧ x ≠ .ebp
  | .s x => x ≠ .ss
  | _ => false

/-! ## Activation records -/

/-- The address `d` bytes from the stack pointer of `c` -/
def stackAt (c : Cpu) (d : BitVec 32) : Addr := base (c.sreg .ss) + (c.reg .esp + d)

/-- The bytes between the stack pointer of the caller and that of the routine -/
def activationSize (k : ℕ) (saves : List Opnd) : ℕ := 4 + k + 4 * saves.length

/-- `c1` is a state of a routine entered in `c`, with `k` bytes of locals and the registers `saves`
    pushed. -/
structure Activation (k : ℕ) (saves : List Opnd) (c c1 : Cpu) : Prop where
  esp : c1.reg .esp = c.reg .esp - BitVec.ofNat 32 (activationSize k saves)
  ebp : c1.reg .ebp = c.reg .esp - 4
  ss : c1.sreg .ss = c.sreg .ss
  caller : read c1.mem (stackAt base c 0) 4 = read c.mem (stackAt base c 0) 4
  link : read c1.mem (stackAt base c (-4)) 4 = c.reg .ebp
  saved : ∀ i (hi : i < saves.length),
    read c1.mem (stackAt base c (-BitVec.ofNat 32 (4 + k + 4 * (i + 1)))) 4 =
      c.get (.stack32 base 0) saves[i]

/-- `u` is the state in which a routine entered in `c` returns to its caller. -/
structure Unwound (saves : List Opnd) (c u : Cpu) : Prop where
  eip : u.eip = read c.mem (stackAt base c 0) 4
  esp : u.reg .esp = c.reg .esp + 4
  ebp : u.reg .ebp = c.reg .ebp
  saved : ∀ o ∈ saves, u.get (.stack32 base 0) o = c.get (.stack32 base 0) o

/-- The routine reached its epilogue in `c1` and returns in `u`. -/
structure Exited (saves : List Opnd) (c c1 u : Cpu) : Prop extends Unwound base saves c u where
  reg : ∀ x, .r x ∉ saves → x ≠ .esp → x ≠ .ebp → u.reg x = c1.reg x
  sreg : ∀ x, .s x ∉ saves → u.sreg x = c1.sreg x
  mem : u.mem = c1.mem

variable {base} {k : ℕ} {saves : List Opnd} {c c1 c2 : Cpu} {ra : BitVec 32}

theorem stackAt_sub (c : Cpu) (n : ℕ) :
    stackAt base c (-BitVec.ofNat 32 n) = stackAt base c 0 - BitVec.ofNat 32 n := by
  unfold stackAt
  ring

theorem stackAt_within (c : Cpu) {d i n j : ℕ} (h : d ≤ n) (hn : n < 2 ^ 32) (hi : n - d + i ≤ j) :
    Within (stackAt base c (-BitVec.ofNat 32 d)) i (stackAt base c (-BitVec.ofNat 32 n)) j := by
  rw [stackAt_sub, stackAt_sub]
  exact within_below _ h hn hi

theorem stackAt_apart (c : Cpu) {d i n j : ℕ} (h : j + d ≤ n) (hn : n < 2 ^ 32) (hj : 0 < j)
    (hi : i + (n - d) ≤ 2 ^ 32) :
    Apart (stackAt base c (-BitVec.ofNat 32 d)) i (stackAt base c (-BitVec.ofNat 32 n)) j := by
  rw [stackAt_sub, stackAt_sub]
  exact (apart_below _ h hn hj hi).symm

/-- The record needs its own bytes only, those of the locals apart. -/
theorem Activation.congr (h : Activation base k saves c c1) (hesp : c2.reg .esp = c1.reg .esp)
    (hebp : c2.reg .ebp = c1.reg .ebp) (hss : c2.sreg .ss = c1.sreg .ss)
    (hsize : activationSize k saves < 2 ^ 32)
    (htop : AgreesOn c1.mem c2.mem (stackAt base c (-4)) 8)
    (hsaved : AgreesOn c1.mem c2.mem (stackAt base c (-BitVec.ofNat 32 (activationSize k saves)))
      (4 * saves.length)) : Activation base k saves c c2 := by
  refine ⟨hesp.trans h.esp, hebp.trans h.ebp, hss.trans h.ss, ?_, ?_, fun i hi => ?_⟩
  · rw [htop.read_eq (by simp [stackAt]), h.caller]
  · rw [htop.read_eq (by simp), h.link]
  · rw [hsaved.read_eq (stackAt_within c ?_ hsize ?_), h.saved i hi]
    all_goals unfold activationSize
    all_goals omega

theorem Activation.of_eq (h : Activation base k saves c c1) (hesp : c2.reg .esp = c1.reg .esp)
    (hebp : c2.reg .ebp = c1.reg .ebp) (hss : c2.sreg .ss = c1.sreg .ss) (hmem : c2.mem = c1.mem) :
    Activation base k saves c c2 :=
  ⟨hesp.trans h.esp, hebp.trans h.ebp, hss.trans h.ss, hmem ▸ h.caller, hmem ▸ h.link,
    hmem ▸ h.saved⟩

/-- A store elsewhere keeps the record. -/
theorem Activation.store {a : Addr} {n : ℕ} (h : Activation base k saves c c1) (v : BitVec 32)
    (hesp : c2.reg .esp = c1.reg .esp) (hebp : c2.reg .ebp = c1.reg .ebp)
    (hss : c2.sreg .ss = c1.sreg .ss) (hmem : c2.mem = write c1.mem a n v)
    (hsize : activationSize k saves + 4 ≤ 2 ^ 32)
    (hapart : Apart (stackAt base c (-BitVec.ofNat 32 (activationSize k saves)))
      (activationSize k saves + 4)
      a n) : Activation base k saves c c2 := by
  have htop : 4 ≤ activationSize k saves := by
    unfold activationSize
    omega
  refine h.congr hesp hebp hss (by omega) ?_ ?_
  · rw [hmem]
    exact write_agreesOn (hapart.left_within (stackAt_within c (d := 4) htop (by omega) (by omega))
      (by omega))
  · rw [hmem]
    exact write_agreesOn (hapart.mono (by unfold activationSize; omega) le_rfl)

/-- So do changes of the stack below. -/
theorem Activation.off {n : ℕ} (h : Activation base k saves c c1) (hesp : c2.reg .esp = c1.reg .esp)
    (hebp : c2.reg .ebp = c1.reg .ebp) (hss : c2.sreg .ss = c1.sreg .ss) (hn : 0 < n)
    (hsize : activationSize k saves + n + 4 ≤ 2 ^ 32)
    (hmem : AgreesOff c1.mem c2.mem
      (stackAt base c (-BitVec.ofNat 32 (activationSize k saves + n))) n) :
    Activation base k saves c c2 := by
  have htop : 4 ≤ activationSize k saves := by
    unfold activationSize
    omega
  refine h.congr hesp hebp hss (by omega) (hmem.agreesOn ?_) (hmem.agreesOn ?_)
  · exact stackAt_apart c (d := 4) (by omega) (by omega) hn (by omega)
  · exact stackAt_apart c (by omega) (by omega) hn (by unfold activationSize at hsize ⊢; omega)

/-! ## The prologue -/

section Rules

variable [DecidableEq L] {σ : Type*} {E : Env σ (X × Cpu) fun _ => Cpu}
  {P : List (Event (X × Cpu) fun _ => Cpu) → Event (X × Cpu) (fun _ => Cpu) → Prop}
  {Q : List (Event (X × Cpu) fun _ => Cpu) → Option Cpu → σ → Prop}
  {h : List (Event (X × Cpu) fun _ => Cpu)} {st : σ} {code rest : Code L X} {fuel : ℕ} {o : Opnd}

attribute [local simp] Function.update_apply

theorem get_push (v : BitVec 32) (o' : Opnd) (ho' : o'.savable) :
    (c1.push (.stack32 base ra) 4 v).get (.stack32 base 0) o' = c1.get (.stack32 base 0) o' := by
  cases o' <;> simp_all [Opnd.savable]

theorem activationSize_append (k : ℕ) (saves saves' : List Opnd) :
    activationSize k (saves ++ saves') = activationSize k saves + 4 * saves'.length := by
  simp [activationSize]
  omega

theorem ofNat_add_four (n : ℕ) : BitVec.ofNat 32 (n + 4) = BitVec.ofNat 32 n + 4 :=
  BitVec.ofNat_add n 4

/-- Where the next register goes. -/
theorem Activation.push_mem (hact : Activation base k saves c c1) (ra : BitVec 32) (v : BitVec 32) :
    (c1.push (.stack32 base ra) 4 v).mem =
      write c1.mem (stackAt base c (-BitVec.ofNat 32 (activationSize k saves + 4))) 4 v := by
  have haddr : c1.reg .esp + -4 = c.reg .esp + -BitVec.ofNat 32 (activationSize k saves + 4) := by
    rw [hact.esp, ofNat_add_four]
    ring
  simp [stackAt, ← haddr, hact.ss]

/-- The record with one register more. -/
theorem Activation.push (hact : Activation base k saves c c1)
    (hget : c1.get (.stack32 base ra) o = c.get (.stack32 base 0) o)
    (hsize : activationSize k saves + 8 ≤ 2 ^ 32) :
    Activation base k (saves ++ [o]) c
      (c1.push (.stack32 base ra) 4 (c1.get (.stack32 base ra) o)) := by
  have hmem := hact.push_mem ra (c1.get (.stack32 base ra) o)
  have hkept : ∀ d ≤ activationSize k saves, ∀ v,
      read c1.mem (stackAt base c (-BitVec.ofNat 32 d)) 4 = v →
      read (c1.push (.stack32 base ra) 4 (c1.get (.stack32 base ra) o)).mem
        (stackAt base c (-BitVec.ofNat 32 d)) 4 = v := by
    intro d hd v hv
    rw [hmem, read_write_of_apart (stackAt_apart c (by omega) (by omega) (by omega) (by omega)), hv]
  refine ⟨?_, ?_, ?_, hkept 0 (by simp) _ hact.caller, hkept 4 ?_ _ hact.link, fun i hi => ?_⟩
  · rw [activationSize_append, List.length_singleton, ofNat_add_four, ← sub_sub, ← hact.esp]
    simp [BitVec.sub_eq_add_neg]
  · simp [hact.ebp]
  · simp [hact.ss]
  · unfold activationSize
    omega
  · rcases Nat.lt_or_ge i saves.length with hlt | hge
    · rw [List.getElem_append_left hlt]
      exact hkept _ (by unfold activationSize; omega) _ (hact.saved i hlt)
    · have hlast : i = saves.length := by
        simp at hi
        omega
      subst hlast
      rw [hmem, hget]
      simp [activationSize, Nat.mul_add, Nat.add_assoc]

/-- What the pushes leave as it was. -/
structure Pushed (base : BitVec 16 → Addr) (k : ℕ) (saves : List Opnd) (c c0 c1 : Cpu) : Prop where
  activation : Activation base k saves c c1
  reg : ∀ x, x ≠ .esp → c1.reg x = c0.reg x
  sreg : c1.sreg = c0.sreg
  mem : AgreesOff c0.mem c1.mem (stackAt base c (-BitVec.ofNat 32 (activationSize k saves)))
    (4 * saves.length)

/-- **The prologue.** -/
theorem pushes_wp {c0 : Cpu} (hact : Activation base k [] c c0) (hsavable : ∀ o ∈ saves, o.savable)
    (hget : ∀ o ∈ saves, c0.get (.stack32 base 0) o = c.get (.stack32 base 0) o)
    (hsize : activationSize k saves + 4 ≤ 2 ^ 32)
    (hp : ∀ c1, Pushed base k saves c c0 c1 →
      Wp E P Q h st (run (.stack32 base ra) code fuel rest c1)) :
    Wp E P Q h st
      (run (.stack32 base ra) code (fuel + saves.length) (pushes saves ++ rest) c0) := by
  suffices haux : ∀ todo done c0, done ++ todo = saves → Activation base k done c c0 →
      (∀ o ∈ todo, o.savable) →
      (∀ o ∈ todo, c0.get (.stack32 base 0) o = c.get (.stack32 base 0) o) →
      (∀ c1, Pushed base k saves c c0 c1 →
        Wp E P Q h st (run (.stack32 base ra) code fuel rest c1)) →
      Wp E P Q h st (run (.stack32 base ra) code (fuel + todo.length) (pushes todo ++ rest) c0) from
    haux saves [] c0 rfl hact hsavable hget hp
  clear hact hsavable hget hp
  intro todo
  induction todo with
  | nil =>
    intro done c0 hsplit hact _ _ hp
    rw [List.append_nil] at hsplit
    subst hsplit
    exact hp c0 ⟨hact, fun _ _ => rfl, rfl, AgreesOff.refl _ _ _⟩
  | cons o todo ih =>
    intro done c0 hsplit hact hsavable hget hp
    subst hsplit
    rw [activationSize_append, List.length_cons] at hsize
    refine wp_push
      (ih (done ++ [o]) _ (by simp) (hact.push ?_ (by omega)) ?_ ?_ fun c1 hpushed => hp c1 ?_)
    · exact hget o List.mem_cons_self
    · exact fun o' ho' => hsavable o' (List.mem_cons_of_mem _ ho')
    · intro o' ho'
      rw [get_push _ _ (hsavable o' (List.mem_cons_of_mem _ ho')),
        hget o' (List.mem_cons_of_mem _ ho')]
    · refine ⟨hpushed.activation, fun x hx => ?_, hpushed.sreg.trans ?_, ?_⟩
      · rw [hpushed.reg x hx]
        simp [hx]
      · simp
      · refine AgreesOff.trans ?_ hpushed.mem
        rw [hact.push_mem]
        refine (AgreesOff.refl _ _ _).write_within (stackAt_within c ?_ ?_ ?_)
        all_goals rw [activationSize_append, List.length_cons]
        · omega
        · omega
        · rw [List.length_append, List.length_cons]
          omega

/-- A routine entered in `c` has `k` bytes of locals and has pushed `saves`. -/
structure Activated (base : BitVec 16 → Addr) (k : ℕ) (saves : List Opnd) (c c1 : Cpu) : Prop where
  activation : Activation base k saves c c1
  reg : ∀ x, x ≠ .esp → x ≠ .ebp → c1.reg x = c.reg x
  sreg : c1.sreg = c.sreg
  mem : AgreesOff c.mem c1.mem (stackAt base c (-BitVec.ofNat 32 (activationSize k saves)))
    (activationSize k saves)

theorem Activated.pushed {c0 : Cpu} (h : Activated base k [] c c0)
    (hpushed : Pushed base k saves c c0 c1) (hsize : activationSize k saves + 4 ≤ 2 ^ 32) :
    Activated base k saves c c1 := by
  refine ⟨hpushed.activation, fun x hesp hebp => ?_, hpushed.sreg.trans h.sreg, ?_⟩
  · rw [hpushed.reg x hesp, h.reg x hesp hebp]
  · refine (h.mem.within ?_).trans (hpushed.mem.within ?_)
    · refine stackAt_within c ?_ (by omega) ?_
      all_goals simp [activationSize]
      all_goals omega
    · exact stackAt_within c le_rfl (by omega) (by unfold activationSize; omega)

theorem Activated.get {c0 : Cpu} (h : Activated base k [] c c0) (ho : o.savable) :
    c0.get (.stack32 base 0) o = c.get (.stack32 base 0) o := by
  cases o with
  | r x =>
    simp [Opnd.savable] at ho
    exact h.reg x ho.1 ho.2
  | s x => exact congrArg (fun f => (f x).setWidth 32) h.sreg
  | _ => cases ho

attribute [local simp] stackAt activationSize BitVec.sub_eq_add_neg BitVec.add_assoc in
theorem activated_push (base : BitVec 16 → Addr) (ra : BitVec 32) (c : Cpu) : Activated base 0 [] c
    ((c.push (.stack32 base ra) 4 (c.reg .ebp)).setReg .ebp (c.reg .esp - 4)) := by
  refine ⟨⟨?_, ?_, ?_, ?_, ?_, ?_⟩, fun x hesp hebp => ?_, ?_, ?_⟩
  · simp
  · simp
  · simp
  · simp
  · simp
  · simp
  · simp [hesp, hebp]
  · simp
  · simp
    exact write_agreesOff _ _ _ _

/-- The prologue of a routine without locals -/
theorem push_prologue_wp (fuel : ℕ) {n : ℕ} (hn : n = fuel + saves.length + 2)
    (hsavable : ∀ o ∈ saves, o.savable) (hsize : activationSize 0 saves + 4 ≤ 2 ^ 32)
    (hp : ∀ c1, Activated base 0 saves c c1 →
      Wp E P Q h st (run (.stack32 base ra) code fuel rest c1)) :
    Wp E P Q h st (run (.stack32 base ra) code n
      (.push 4 (.r .ebp) :: .mov (.r .ebp) (.r .esp) :: (pushes saves ++ rest)) c) := by
  subst hn
  have h0 := activated_push base ra c
  have hrun := pushes_wp h0.activation hsavable (fun o ho => h0.get (hsavable o ho)) hsize
    fun c1 hpushed => hp c1 (h0.pushed hpushed hsize)
  refine wp_push (wp_mov ?_)
  simpa [BitVec.sub_eq_add_neg] using hrun

/-! ## Calls -/

/-- A far call, whose callee uses `n` bytes of the stack. -/
theorem Activation.called {keep : List SReg} {slots : List (BitVec 32 × ℕ)} {n : ℕ}
    (hact : Activation base k saves c c1)
    (hret : Returns (.stack32 base ra) 4 keep slots (c1.push (.stack32 base ra) 4 ra) c2)
    (hss : .ss ∈ keep)
    (hmem : AgreesOff (c1.push (.stack32 base ra) 4 ra).mem c2.mem
      (stackAt base (c1.push (.stack32 base ra) 4 ra) (-BitVec.ofNat 32 n)) n)
    (hsize : activationSize k saves + n + 8 ≤ 2 ^ 32) :
    Activation base k saves c c2 ∧
      AgreesOff c1.mem c2.mem
        (stackAt base c (-BitVec.ofNat 32 (activationSize k saves + (4 + n)))) (4 + n) := by
  have hbelow : stackAt base (c1.push (.stack32 base ra) 4 ra) (-BitVec.ofNat 32 n) =
      stackAt base c (-BitVec.ofNat 32 (activationSize k saves + (4 + n))) := by
    rw [Nat.add_comm 4, ← Nat.add_assoc, ofNat_add_four, BitVec.ofNat_add]
    simp [stackAt, hact.ss, hact.esp]
    ring
  have hoff : AgreesOff c1.mem c2.mem
      (stackAt base c (-BitVec.ofNat 32 (activationSize k saves + (4 + n)))) (4 + n) := by
    rw [hbelow] at hmem
    refine AgreesOff.trans ?_ (hmem.within ?_)
    · rw [hact.push_mem]
      exact (write_agreesOff _ _ _ _).within (stackAt_within c (by omega) (by omega) (by omega))
    · exact stackAt_within c le_rfl (by omega) (by omega)
  refine ⟨hact.off ?_ ?_ ?_ (by omega) (by omega) hoff, hoff⟩
  · rw [hret.esp]
    simp [BitVec.add_assoc]
  · rw [hret.ebp]
    simp
  · rw [hret.sreg .ss hss]
    simp

/-! ## The epilogue -/

/-- What popping one saved register does. -/
structure Popped (base : BitVec 16 → Addr) (o : Opnd) (c c1 c2 : Cpu) : Prop where
  esp : c2.reg .esp = c1.reg .esp + 4
  get : c2.get (.stack32 base 0) o = c.get (.stack32 base 0) o
  reg : ∀ x, .r x ≠ o → x ≠ .esp → c2.reg x = c1.reg x
  sreg : ∀ x, .s x ≠ o → c2.sreg x = c1.sreg x
  mem : c2.mem = c1.mem

theorem Activation.top (ra : BitVec 32) (hact : Activation base k (saves ++ [o]) c c1) :
    c1.top (.stack32 base ra) 4 = c.get (.stack32 base 0) o := by
  have hlast := hact.saved saves.length (by simp)
  rw [List.getElem_concat_length rfl] at hlast
  rw [← hlast]
  simp [stackAt, hact.esp, hact.ss, activationSize, BitVec.sub_eq_add_neg]

theorem Activation.popped (ra : BitVec 32) (hact : Activation base k (saves ++ [o]) c c1)
    (ho : o.savable) :
    Popped base o c c1 (c1.pop (.stack32 base ra) 4 o) := by
  have htop := hact.top ra
  cases o with
  | r x =>
    simp [Opnd.savable] at ho
    refine ⟨?_, ?_, fun y hy hesp => ?_, ?_, ?_⟩
    · simp [Ne.symm ho.1]
    · simpa using htop
    · simp [hesp, (by simpa using hy : y ≠ x)]
    · simp
    · simp
  | s x =>
    refine ⟨?_, ?_, fun y hy hesp => ?_, fun y hy => ?_, ?_⟩
    · simp
    · simpa using congrArg (fun v => (v.setWidth 16).setWidth 32) htop
    · simp [hesp]
    · simp [(by simpa using hy : y ≠ x)]
    · simp
  | _ => cases ho

/-- The record with one register less. -/
theorem Activation.pop (hact : Activation base k (saves ++ [o]) c c1) (ho : o.savable)
    (hpop : Popped base o c c1 c2) : Activation base k saves c c2 := by
  refine ⟨?_, ?_, ?_, ?_, ?_, fun i hi => ?_⟩
  · rw [hpop.esp, hact.esp, activationSize_append, List.length_singleton, ofNat_add_four]
    ring
  · rw [hpop.reg .ebp ?_ (by simp), hact.ebp]
    rintro rfl
    cases ho
  · rw [hpop.sreg .ss ?_, hact.ss]
    rintro rfl
    cases ho
  · rw [hpop.mem, hact.caller]
  · rw [hpop.mem, hact.link]
  · have hsaved := hact.saved i (by simp; omega)
    rwa [← hpop.mem, List.getElem_append_left hi] at hsaved

/-- `leave` and `ret` -/
theorem Activation.exited (hact : Activation base k [] c c1) :
    Exited base [] c c1 ((c1.leave (.stack32 base ra) 4).ret (.stack32 base ra) 0) := by
  refine ⟨⟨?_, ?_, ?_, by simp⟩, fun x _ hesp hebp => ?_, ?_, ?_⟩
  · rw [← hact.caller]
    simp [stackAt, hact.ebp, hact.ss, BitVec.sub_eq_add_neg, BitVec.add_assoc]
  · simp [hact.ebp, BitVec.sub_eq_add_neg, BitVec.add_assoc]
  · rw [← hact.link]
    simp [stackAt, hact.ebp, hact.ss, BitVec.sub_eq_add_neg, BitVec.add_assoc]
  · simp [hesp, hebp]
  · simp
  · simp

theorem Exited.get {u : Cpu} (hret : Exited base saves c c1 u) (ho : o.savable) (hnot : o ∉ saves) :
    u.get (.stack32 base 0) o = c1.get (.stack32 base 0) o := by
  cases o with
  | r x =>
    simp [Opnd.savable] at ho
    exact hret.reg x hnot ho.1 ho.2
  | s x => exact congrArg (BitVec.setWidth 32) (hret.sreg x hnot)
  | _ => cases ho

theorem Exited.append {u : Cpu} (hret : Exited base saves c c2 u) (ho : o.savable)
    (hnot : o ∉ saves) (hpop : Popped base o c c1 c2) : Exited base (saves ++ [o]) c c1 u := by
  refine ⟨⟨hret.eip, hret.esp, hret.ebp, fun o' ho' => ?_⟩, fun x hx hesp hebp => ?_,
    fun x hx => ?_,
    hret.mem.trans hpop.mem⟩
  · rcases List.mem_append.mp ho' with hmem | hlast
    · exact hret.saved o' hmem
    · rw [List.mem_singleton.mp hlast, hret.get ho hnot, hpop.get]
  · rw [List.mem_append, List.mem_singleton, not_or] at hx
    rw [hret.reg x hx.1 hesp hebp, hpop.reg x hx.2 hesp]
  · rw [List.mem_append, List.mem_singleton, not_or] at hx
    rw [hret.sreg x hx.1, hpop.sreg x hx.2]

/-- **The epilogue.** -/
theorem pops_wp (fuel : ℕ) {n : ℕ} (hn : n = fuel + saves.length + 2)
    (hact : Activation base k saves c c1) (hsavable : ∀ o ∈ saves, o.savable) (hnodup : saves.Nodup)
    (hq : ∀ u, Exited base saves c c1 u → Q h (some u) st) :
    Wp E P Q h st (run (.stack32 base ra) code n (pops saves ++ [.leave 4, .ret 0]) c1) := by
  subst hn
  induction saves using List.reverseRecOn generalizing c1 with
  | nil => exact hq _ hact.exited
  | append_singleton saves o ih =>
    have ho := hsavable o (by simp)
    have hpop := hact.popped ra ho
    obtain ⟨hnodup, -, hnot⟩ := List.nodup_append.mp hnodup
    have hout : o ∉ saves := fun hmem => hnot o hmem o (by simp) rfl
    rw [pops, List.reverse_append, List.length_append]
    refine wp_pop
      (ih (hact.pop ho hpop) (fun o' ho' => hsavable o' (by simp [ho'])) hnodup fun u hret => ?_)
    exact hq u (hret.append ho hout hpop)

end Rules

end I386
