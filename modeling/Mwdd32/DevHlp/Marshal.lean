import Mwdd32.DevHlp.Exec

/-!
# Argument marshalling of the DevHlp32 wrappers

The wrappers called the way a C compiler calls them: arguments pushed from right
to left, then the return address.

* `marshals_iff`: every wrapper hands its arguments to the kernel and returns to
  its caller with the stack pointer and the saved registers restored, except that
  `DevHlp32_ResetEventSem` reads its two arguments one slot too low.
-/

namespace Mwdd32.DevHlp

open ByteMem Interaction I386 Opnd Reg

/-- The wrappers that take all their arguments from the stack and hand them to the
    kernel. -/
def stackWrappers : List Wrapper :=
  [.vmLock, .vmUnlock, .vmAlloc, .virtToLin, .getDosVar, .linToPageList, .pageListToLin,
   .procBlock, .procRun, .verifyAccess, .setIRQ, .unSetIRQ, .security, .openEventSem,
   .closeEventSem, .postEventSem, .resetEventSem]

variable (base : BitVec 16 → Addr) (ra : BitVec 32) (devHlp : Numbers)

/-- A wrapper at its first instruction. -/
def Wrapper.entry (w : Wrapper) (args : ℕ → BitVec 32) (retaddr : BitVec 32) (c : Cpu) : Cpu :=
  callFrame (.stack32 base ra) w.arity args retaddr c

/-- A run `tr` of `w` from `c` that ended in `r`: the kernel was called once, with
    the declared parameters in their registers, and the wrapper returned to
    `retaddr` with its stack and the registers it saved as they were. -/
structure Marshals (w : Wrapper) (args : ℕ → BitVec 32) (retaddr : BitVec 32) (c : Cpu)
    (tr : List (Event (Wrapper × Cpu) fun _ => Cpu)) (r : Option Cpu) : Prop where
  call : ∃ c1 c2, tr = [⟨(w, c1), c2⟩] ∧
    ∀ p ∈ w.declared args, c1.get (.stack32 base ra) p.1 = p.2
  ret : ∃ u, r = some u ∧ u.eip = retaddr ∧ u.reg .esp = c.reg .esp + 4 ∧
    ∀ o ∈ saved (w.code devHlp), u.get (.stack32 base ra) o = c.get (.stack32 base ra) o

variable {base ra devHlp}

/-! ## The frame of a call -/

theorem frameArgs_entry {w : Wrapper} (args : ℕ → BitVec 32) (retaddr : BitVec 32) (c : Cpu)
    {i : ℕ} (hi : i < w.arity) : frameArgs base ra (w.entry base ra args retaddr c) i = args i := by
  have hw : w.arity ≤ 6 := by cases w <;> decide
  exact arg_callFrame args retaddr c hi (by omega)

theorem frameRet_entry (w : Wrapper) (args : ℕ → BitVec 32) (retaddr : BitVec 32) (c : Cpu) :
    frameRet base ra (w.entry base ra args retaddr c) = retaddr := by
  simp [frameRet, Wrapper.entry, callFrame]

/-- The loads only depend on the arguments that were pushed. -/
theorem loaded_entry (w : Wrapper) (args : ℕ → BitVec 32) (retaddr : BitVec 32) (c : Cpu) :
    w.loaded (frameArgs base ra (w.entry base ra args retaddr c))
      (frameRet base ra (w.entry base ra args retaddr c)) = w.loaded args retaddr := by
  rw [frameRet_entry]
  cases w <;>
    simp (disch := decide) only [Wrapper.loaded, Wrapper.declared, frameArgs_entry]

theorem outPtr_entry (w : Wrapper) (args : ℕ → BitVec 32) (retaddr : BitVec 32) (c : Cpu) :
    w.outPtr (frameArgs base ra (w.entry base ra args retaddr c)) = w.outPtr args := by
  cases w <;> simp (disch := decide) only [Wrapper.outPtr, frameArgs_entry]

/-! ## Marshalling -/

/-- The loads are the declared ones, unless `DevHlp32_ResetEventSem` mixes up
    different values. -/
theorem loaded_eq_declared {w : Wrapper} {args : ℕ → BitVec 32} {retaddr : BitVec 32}
    (h : w = .resetEventSem → retaddr = args 0 ∧ args 0 = args 1) :
    w.loaded args retaddr = w.declared args := by
  cases w
  case resetEventSem =>
    obtain ⟨h0, h1⟩ := h rfl
    simp [Wrapper.loaded, Wrapper.declared, h0, ← h1]
  all_goals rfl

/-- If every run of `DevHlp32_ResetEventSem` marshals, its return address, `handle`
    and `nposts` are the same value. -/
theorem resetEventSem_args {args : ℕ → BitVec 32} {retaddr : BitVec 32} {c : Cpu}
    (h : ∀ tr r, Runs (keepsFrame base ra devHlp) () (Wrapper.exec base ra devHlp .resetEventSem
        (Wrapper.entry base ra .resetEventSem args retaddr c)) tr r () →
      Marshals base ra devHlp .resetEventSem args retaddr
        (Wrapper.entry base ra .resetEventSem args retaddr c) tr r) :
    retaddr = args 0 ∧ args 0 = args 1 := by
  -- the run in which the kernel does nothing shows what was loaded
  obtain ⟨tr, r, ⟨⟩, hrun⟩ := Runs.exists (E := keepsFrame base ra devHlp)
    (fun _ op => ⟨_, (), returns_addSp _ _ _ _ op.2⟩)
    (Wrapper.exec base ra devHlp .resetEventSem
      (Wrapper.entry base ra .resetEventSem args retaddr c)) ()
  obtain ⟨c1, c2, u, htr, -, -, -, hload, -⟩ := exec_runs hrun
  obtain ⟨d1, d2, htr', hdecl⟩ := (h tr r hrun).call
  rw [htr] at htr'
  cases htr'
  rw [loaded_entry] at hload
  simp only [Wrapper.loaded, Wrapper.declared, List.mem_cons, List.not_mem_nil, or_false,
    forall_eq_or_imp, forall_eq] at hload hdecl
  exact ⟨hload.1.symm.trans hdecl.1, hload.2.symm.trans hdecl.2⟩

theorem marshals_of_runs {w : Wrapper} (hw : w ∈ stackWrappers) {args : ℕ → BitVec 32}
    {retaddr : BitVec 32} {c : Cpu}
    (hout : ∀ p ∈ w.outPtr args, Outside base devHlp w (w.entry base ra args retaddr c) p)
    (hreset : w = .resetEventSem → retaddr = args 0 ∧ args 0 = args 1)
    {tr : List (Event (Wrapper × Cpu) fun _ => Cpu)} {r : Option Cpu}
    (h : Runs (keepsFrame base ra devHlp) ()
      (w.exec base ra devHlp (w.entry base ra args retaddr c)) tr r ()) :
    Marshals base ra devHlp w args retaddr (w.entry base ra args retaddr c) tr r := by
  obtain ⟨c1, c2, u, htr, hr, -, -, hload, ho⟩ := exec_runs h
  rw [loaded_entry, loaded_eq_declared hreset] at hload
  have hne : w ≠ .allocOneGDTSelector := by
    rintro rfl
    simp [stackWrappers] at hw
  obtain ⟨heip, hsaved⟩ := ho.restored hne (by rw [outPtr_entry]; exact hout)
  rw [frameRet_entry] at heip
  exact ⟨⟨c1, c2, htr, hload⟩, u, hr, heip, ho.esp, hsaved⟩

/-- **Argument marshalling.** For all arguments, return addresses and initial
    registers, every run of every stack-argument wrapper marshals, if and only if the
    wrapper is not `DevHlp32_ResetEventSem` or its return address, `handle` and
    `nposts` happen to be equal. The object a pointer argument points to lies
    outside the wrapper's own frame. -/
theorem marshals_iff {w : Wrapper} (hw : w ∈ stackWrappers) (args : ℕ → BitVec 32)
    (retaddr : BitVec 32) (c : Cpu)
    (hout : ∀ p ∈ w.outPtr args, Outside base devHlp w (w.entry base ra args retaddr c) p) :
    (∀ tr r, Runs (keepsFrame base ra devHlp) ()
        (w.exec base ra devHlp (w.entry base ra args retaddr c)) tr r () →
      Marshals base ra devHlp w args retaddr (w.entry base ra args retaddr c) tr r) ↔
    (w = .resetEventSem → retaddr = args 0 ∧ args 0 = args 1) := by
  constructor
  · rintro h rfl
    exact resetEventSem_args h
  · intro h tr r hrun
    exact marshals_of_runs hw hout h hrun

/-- A flat machine that calls a wrapper from `0x400`, with its stack at `0x8000` and
    the arguments `0x1000`, `0x2000`. -/
def sampleCpu : Cpu := ⟨fun _ => 0x8000, fun _ => 0, false, false, 0, fun _ => 0, []⟩

/-- The arguments 0x1000, 0x2000, 0x2000 and so on -/
def sampleArgs (i : ℕ) : BitVec 32 := if i = 0 then 0x1000 else 0x2000

theorem sample_outside (w : Wrapper) (hw : w = .virtToLin ∨ w = .resetEventSem) :
    ∀ p ∈ w.outPtr sampleArgs,
      Outside (fun _ => 0) (fun _ => 0) w
        (w.entry (fun _ => 0) 0 sampleArgs 0x400 sampleCpu) p := by
  rcases hw with rfl | rfl
  all_goals
    rintro p ⟨⟩
    unfold Outside
    decide

/-- `DevHlp32_VirtToLin(0x1000, 0x2000)` called from `0x400` -/
theorem marshals_virtToLin_sample :
    ∃ tr r, Runs (keepsFrame (fun _ => 0) 0 fun _ => 0) ()
        (Wrapper.exec (fun _ => 0) 0 (fun _ => 0) .virtToLin
          (Wrapper.entry (fun _ => 0) 0 .virtToLin sampleArgs 0x400 sampleCpu)) tr r () ∧
      Marshals (fun _ => 0) 0 (fun _ => 0) .virtToLin sampleArgs 0x400
        (Wrapper.entry (fun _ => 0) 0 .virtToLin sampleArgs 0x400 sampleCpu) tr r := by
  obtain ⟨tr, r, ⟨⟩, hrun⟩ := Runs.exists (E := keepsFrame (fun _ => 0) 0 fun _ => 0)
    (fun _ op => ⟨_, (), returns_addSp _ _ _ _ op.2⟩)
    (Wrapper.exec (fun _ => 0) 0 (fun _ => 0) .virtToLin
      (Wrapper.entry (fun _ => 0) 0 .virtToLin sampleArgs 0x400 sampleCpu)) ()
  refine ⟨tr, r, hrun, ?_⟩
  exact (marshals_iff (by decide) sampleArgs 0x400 sampleCpu (sample_outside _ (.inl rfl))).mpr
    (fun h => absurd h (by decide)) tr r hrun

/-- `DevHlp32_ResetEventSem(0x1000, 0x2000)` called from `0x400` does not marshal. -/
theorem resetEventSem_sample :
    (∀ p ∈ Wrapper.outPtr sampleArgs .resetEventSem,
      Outside (fun _ => 0) (fun _ => 0) .resetEventSem
        (Wrapper.entry (fun _ => 0) 0 .resetEventSem sampleArgs 0x400 sampleCpu) p) ∧
    ¬ ∀ tr r, Runs (keepsFrame (fun _ => 0) 0 fun _ => 0) ()
        (Wrapper.exec (fun _ => 0) 0 (fun _ => 0) .resetEventSem
          (Wrapper.entry (fun _ => 0) 0 .resetEventSem sampleArgs 0x400 sampleCpu)) tr r () →
      Marshals (fun _ => 0) 0 (fun _ => 0) .resetEventSem sampleArgs 0x400
        (Wrapper.entry (fun _ => 0) 0 .resetEventSem sampleArgs 0x400 sampleCpu) tr r := by
  refine ⟨sample_outside _ (.inr rfl), fun h => ?_⟩
  exact absurd (resetEventSem_args h).1 (by decide)

end Mwdd32.DevHlp
