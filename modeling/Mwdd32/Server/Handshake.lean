import Mwdd32.Server.DevHelp32
import Mwdd32.Server.Ioctl

/-!
# A run of the IOCTL on a client's buffers

`mwdd32_ioctl` in the memory that it shares with the client: the services may fail at any
time, `DevHlp32_VirtToLin` gives the right address when it does not, and the client's
routine may do anything.

* `ioctl_served`: either the client's routine did not run and the status has `STERR`, or
  it ran once, behind an export for the client's pointers, and its result is in the
  data buffer.
-/

namespace Mwdd32.Server

open ByteMem Interaction

/-! ## Shared memory -/

/-- The linear address of a 16:16 pointer, with the bases of the selectors -/
def linear (base : BitVec 16 → Addr) (p : PTR16) : Addr :=
  base (p.extractLsb' 16 16) + (p.setWidth 16).setWidth 32

/-- What the calls of `mwdd32_ioctl` may answer and do to the memory. -/
def memoryEnv (base : BitVec 16 → Addr) (tkssBase : BitVec 32) (devHlp32 : Addr) :
    Env Mem IoctlOp IoctlOp.Res := fun m op res m' =>
  match op, res with
  | .virtToLin p, (rc, lin) => (rc = NO_ERROR → lin = linear base p) ∧ m' = m
  | .load _ p off n, v => v = read m (p + BitVec.ofNat 32 off) n ∧ m' = m
  | .store _ p off n v, _ => m' = write m (p + BitVec.ofNat 32 off) n v
  | .vmLock _ _ _, _ => m' = m
  | .vmUnlock _, _ => m' = m
  | .exportDevhelp32 pTKSSBase pDevHelp32, rc =>
    (m', rc) = mwdd32ExportDevhelp32 tkssBase devHlp32 m pTKSSBase pDevHelp32
  | .callInit _ _, _ => True

/-- The routines that a run has called, with what they returned. -/
def inits (tr : List IoctlEvent) : List (BitVec 32 × BitVec 32) :=
  tr.filterMap fun
    | ⟨.callInit init _, rc⟩ => some (init, rc)
    | _ => none

@[simp] theorem inits_append (tr tr' : List IoctlEvent) :
    inits (tr ++ tr') = inits tr ++ inits tr' :=
  List.filterMap_append

/-- The routine of a client was called exactly once and returned `rc`, after a successful export
    for the client's pointers. -/
def RanOnce (init pTKSSBase pDevHelp32 : BitVec 32) (tr : List IoctlEvent) (rc : BitVec 32) :
    Prop :=
  ∃ pre arg post, tr = pre ++ ⟨.callInit init arg, rc⟩ :: post ∧
    inits pre = [] ∧ inits post = [] ∧
    (⟨.exportDevhelp32 pTKSSBase pDevHelp32, 0#16⟩ : IoctlEvent) ∈ pre

/-- A request packet for function `func` with these buffers. -/
structure Packet (m : Mem) (request : Addr) (cat func : BitVec 32) (parm data : PTR16) : Prop where
  cat : read m (request + 13#32) 1 = cat
  func : read m (request + 14#32) 1 = func
  parm : read m (request + 15#32) 4 = parm
  data : read m (request + 19#32) 4 = data

section

variable {base : BitVec 16 → Addr} {tkssBase : BitVec 32} {devHlp32 : Addr}
  {init pTKSSBase pDevHelp32 : BitVec 32} {parm data : Addr} {h : List IoctlEvent} {m : Mem}

/-- The end of a run with the data buffer at `data`. -/
def Ended (init pTKSSBase pDevHelp32 : BitVec 32) (data : Addr) (tr : List IoctlEvent)
    (status : BitVec 32) (m : Mem) : Prop :=
  (inits tr = [] ∧ status &&& STERR ≠ 0#32) ∨
  ∃ rc, RanOnce init pTKSSBase pDevHelp32 tr rc ∧ read m data 4 = rc

/-- What a program of the IOCTL does in the memory `m`, when no routine has been called. -/
def Serves (base : BitVec 16 → Addr) (tkssBase : BitVec 32) (devHlp32 : Addr)
    (init pTKSSBase pDevHelp32 : BitVec 32) (data : Addr) (m : Mem) (p : IoctlProg (BitVec 32)) :
    Prop :=
  ∀ h, inits h = [] → Wp (memoryEnv base tkssBase devHlp32) (fun _ _ => True)
    (Ended init pTKSSBase pDevHelp32 data) h m p

theorem inits_snoc {e : IoctlEvent} (hno : inits h = []) (he : inits [e] = []) :
    inits (h ++ [e]) = [] := by
  rw [inits_append, hno, he]
  rfl

theorem sterr_or {status : BitVec 32} (x : BitVec 32) (h : status &&& STERR ≠ 0#32) :
    (status ||| x) &&& STERR ≠ 0#32 := by
  intro h0
  rw [BitVec.and_or_distrib_right, BitVec.or_eq_zero_iff] at h0
  exact h h0.1

/-- Calls of services change nothing about the end of a run. -/
theorem Ended.step {status : BitVec 32} {e : IoctlEvent} (x : BitVec 32)
    (hend : Ended init pTKSSBase pDevHelp32 data h status m) (he : inits [e] = []) :
    Ended init pTKSSBase pDevHelp32 data (h ++ [e]) (status ||| x) m := by
  rcases hend with ⟨hno, hst⟩ | ⟨rc, ⟨pre, arg, post, rfl, hpre, hpost, hex⟩, hrc⟩
  · exact .inl ⟨inits_snoc hno he, sterr_or x hst⟩
  · exact .inr ⟨rc, ⟨pre, arg, post ++ [e], by simp, hpre, inits_snoc hpost he, hex⟩, hrc⟩

section Rules

variable {p q : IoctlProg (BitVec 32)}

theorem serves_return {status : BitVec 32} (hst : status &&& STERR ≠ 0#32) :
    Serves base tkssBase devHlp32 init pTKSSBase pDevHelp32 data m (return status) :=
  fun _ hno => .inl ⟨hno, hst⟩

theorem serves_call {op : IoctlOp} {k : op.Res → IoctlProg (BitVec 32)}
    (hop : ∀ r, inits [⟨op, r⟩] = [])
    (hk : ∀ r m', memoryEnv base tkssBase devHlp32 m op r m' →
      Serves base tkssBase devHlp32 init pTKSSBase pDevHelp32 data m' (k r)) :
    Serves base tkssBase devHlp32 init pTKSSBase pDevHelp32 data m (Prog.perform op >>= k) :=
  fun _ hno r m' hE => ⟨trivial, hk r m' hE _ (inits_snoc hno (hop r))⟩

theorem serves_ite {c : Prop} [Decidable c]
    (hp : c → Serves base tkssBase devHlp32 init pTKSSBase pDevHelp32 data m p)
    (hq : ¬ c → Serves base tkssBase devHlp32 init pTKSSBase pDevHelp32 data m q) :
    Serves base tkssBase devHlp32 init pTKSSBase pDevHelp32 data m (if c then p else q) :=
  fun h hno => wp_ite (fun hc => hp hc h hno) fun hc => hq hc h hno

end Rules

theorem refuse_serves {rc : BitVec 32} :
    Serves base tkssBase devHlp32 init pTKSSBase pDevHelp32 data m (refuse parm data rc) :=
  serves_call (fun _ => rfl) fun _ _ _ => serves_call (fun _ => rfl) fun _ _ _ =>
    serves_return (by decide)

/-- The input fields of the data buffer. -/
structure DataInput (init pTKSSBase pDevHelp32 : BitVec 32) (m : Mem) (data : Addr) : Prop where
  init : read m (data + 0#32) 4 = init
  pTKSSBase : read m (data + 8#32) 4 = pTKSSBase
  pDevHelp32 : read m (data + 12#32) 4 = pDevHelp32

theorem ranOnce_of_call {arg rc : BitVec 32} {e : IoctlEvent} (hno : inits h = [])
    (he : inits [e] = [])
    (hex : (⟨.exportDevhelp32 pTKSSBase pDevHelp32, 0#16⟩ : IoctlEvent) ∈ h) :
    RanOnce init pTKSSBase pDevHelp32 (h ++ [⟨.callInit init arg, rc⟩] ++ [e]) rc :=
  ⟨h, arg, [e], List.append_assoc _ _ _, hno, he, hex⟩

/-- The field that the routine is taken from stays as it is until the call. -/
theorem exportAndInit_serves {arg : IoctlProg (BitVec 32)}
    (hdata : DataInput init pTKSSBase pDevHelp32 m data)
    (hunused : Unused tkssBase devHlp32 m data 16 pTKSSBase pDevHelp32)
    (hparm : Apart data 16 parm 4)
    (harg : ∀ h m, Wp (memoryEnv base tkssBase devHlp32) (fun _ _ => True)
      (fun h' _ m' => (∃ tr, h' = h ++ tr ∧ inits tr = []) ∧ m' = m) h m arg) :
    Serves base tkssBase devHlp32 init pTKSSBase pDevHelp32 data m
      (exportAndInit parm data arg) := by
  obtain ⟨hinit, rfl, rfl⟩ := hdata
  refine serves_call (fun _ => rfl) ?_
  rintro _ _ ⟨rfl, rfl⟩
  refine serves_call (fun _ => rfl) ?_
  rintro _ m ⟨rfl, rfl⟩ h hno (rc : BitVec 16) m' hexport
  have hm' : m' = (mwdd32ExportDevhelp32 tkssBase devHlp32 m (read m (data + 8#32) 4)
    (read m (data + 12#32) 4)).1 := congrArg Prod.fst hexport
  have hkept : read (write m' (parm + 0#32) 4 MAGIC_OUT) (data + 0#32) 4 = init := by
    rw [BitVec.add_zero] at hinit ⊢
    rw [BitVec.add_zero, read_write_of_apart (hparm.mono (by omega) le_rfl), hm',
      hunused.export_agreesOn.read_eq (by rw [within_self]; omega), hinit]
  refine ⟨trivial, wp_ite (fun hrc => ?_) fun _ => refuse_serves _ (inits_snoc hno rfl)⟩
  subst hrc
  rintro _ _ rfl
  refine ⟨trivial, ?_⟩
  rintro _ _ ⟨rfl, rfl⟩
  refine ⟨trivial, (wp_bind (p := arg)).mpr (wp_mono (harg _ _) ?_)⟩
  rintro _ a _ ⟨⟨tr, rfl, htr⟩, rfl⟩ (rc : BitVec 32) m3 -
  refine ⟨trivial, ?_⟩
  rintro _ _ rfl
  refine ⟨trivial, .inr ⟨rc, ?_, ?_⟩⟩
  · rw [hkept]
    refine ranOnce_of_call ?_ rfl (by simp)
    simp only [inits_append, hno, htr]
    rfl
  · show read (write m3 (data + 0#32) 4 rc) data 4 = rc
    rw [BitVec.add_zero]
    exact read_write_self32 _ _ _

theorem initFsd_serves (hdata : DataInput init pTKSSBase pDevHelp32 m data)
    (hunused : Unused tkssBase devHlp32 m data 16 pTKSSBase pDevHelp32)
    (hparm : Apart data 16 parm 4) :
    Serves base tkssBase devHlp32 init pTKSSBase pDevHelp32 data m (initFsd parm data) := by
  refine serves_call (fun _ => rfl) ?_
  rintro (magicIn : BitVec 32) _ ⟨-, rfl⟩
  refine serves_ite (fun _ => ?_) fun _ => refuse_serves
  refine serves_call (fun _ => rfl) ?_
  rintro parms _ ⟨-, rfl⟩
  refine serves_call (fun _ => rfl) ?_
  rintro ⟨rc, fs32InitParms⟩ _ ⟨-, rfl⟩
  refine serves_ite (fun _ => ?_) fun _ => refuse_serves
  exact exportAndInit_serves hdata hunused hparm fun h m =>
    ⟨⟨[], (List.append_nil h).symm, rfl⟩, rfl⟩

theorem initDevice_serves (hdata : DataInput init pTKSSBase pDevHelp32 m data)
    (hunused : Unused tkssBase devHlp32 m data 16 pTKSSBase pDevHelp32)
    (hparm : Apart data 16 parm 4) :
    Serves base tkssBase devHlp32 init pTKSSBase pDevHelp32 data m (initDevice parm data) := by
  refine serves_call (fun _ => rfl) ?_
  rintro (magicIn : BitVec 32) _ ⟨-, rfl⟩
  refine serves_ite (fun _ => ?_) fun _ => refuse_serves
  refine exportAndInit_serves hdata hunused hparm fun h m => ?_
  rintro reqpkt _ ⟨-, rfl⟩
  exact ⟨trivial, ⟨_, rfl, rfl⟩, rfl⟩

theorem unlock_ended {lock : BitVec 96} {status : BitVec 32}
    (hend : Ended init pTKSSBase pDevHelp32 data h status m) :
    Wp (memoryEnv base tkssBase devHlp32) (fun _ _ => True)
      (Ended init pTKSSBase pDevHelp32 data) h m (unlock lock status) := by
  rintro (rc : BitVec 32) _ rfl
  refine ⟨trivial, ?_⟩
  show Ended _ _ _ _ _ (if rc = NO_ERROR then _ else _) _
  split_ifs
  · rw [← BitVec.or_zero (x := status)]
    exact hend.step 0 rfl
  · exact hend.step _ rfl

theorem withBuffers_serves {ERROR_NOBLOCK : BitVec 32} {request : Addr} {pparm pdata : PTR16}
    {body : Addr → Addr → IoctlProg (BitVec 32)}
    (hparm : read m (request + 15#32) 4 = pparm) (hdata : read m (request + 19#32) 4 = pdata)
    (hbody : Serves base tkssBase devHlp32 init pTKSSBase pDevHelp32 (linear base pdata) m
      (body (linear base pparm) (linear base pdata))) :
    Serves base tkssBase devHlp32 init pTKSSBase pDevHelp32 (linear base pdata) m
      (withBuffers ERROR_NOBLOCK request body) := by
  subst hparm hdata
  have hinvalid : STERR + ERROR_I24_INVALID_PARAMETER &&& STERR ≠ 0#32 := by decide
  refine serves_call (fun _ => rfl) ?_
  rintro _ _ ⟨rfl, rfl⟩
  refine serves_call (fun _ => rfl) ?_
  rintro ⟨rc, parm⟩ _ ⟨hlin, rfl⟩
  refine serves_ite (fun hrc => ?_) fun _ => serves_return hinvalid
  obtain rfl := hlin hrc
  refine serves_call (fun _ => rfl) ?_
  rintro _ _ ⟨rfl, rfl⟩
  refine serves_call (fun _ => rfl) ?_
  rintro ⟨rc, data⟩ _ ⟨hlin, rfl⟩
  refine serves_ite (fun hrc => ?_) fun _ => serves_return hinvalid
  obtain rfl := hlin hrc
  refine serves_call (fun _ => rfl) ?_
  rintro ⟨rc, lockParm⟩ _ rfl
  refine serves_ite (fun _ => ?_) fun _ => serves_return hinvalid
  refine serves_call (fun _ => rfl) ?_
  rintro ⟨rc, lockData⟩ _ rfl
  refine serves_ite (fun _ => ?_) fun _ h hno => unlock_ended (.inl ⟨hno, hinvalid⟩)
  intro h hno
  refine wp_bind.mpr (wp_mono (hbody h hno) fun h status m hend => ?_)
  exact wp_bind.mpr (wp_mono (unlock_ended hend) fun h status m hend => unlock_ended hend)

theorem dispatch_serves {ERROR_NOBLOCK : BitVec 32} {request : Addr} {cat func : BitVec 32}
    {pparm pdata : PTR16} (hpacket : Packet m request cat func pparm pdata)
    (hdata : DataInput init pTKSSBase pDevHelp32 m (linear base pdata))
    (hunused : Unused tkssBase devHlp32 m (linear base pdata) 16 pTKSSBase pDevHelp32)
    (hparm : Apart (linear base pdata) 16 (linear base pparm) 4) :
    Serves base tkssBase devHlp32 init pTKSSBase pDevHelp32 (linear base pdata) m
      (dispatch ERROR_NOBLOCK request) := by
  refine serves_call (fun _ => rfl) ?_
  rintro (cat' : BitVec 32) _ ⟨-, rfl⟩
  refine serves_ite (fun _ => ?_) fun _ => serves_return (by decide)
  refine serves_call (fun _ => rfl) ?_
  rintro (func' : BitVec 32) _ ⟨-, rfl⟩
  refine serves_ite (fun _ => ?_) fun _ => serves_ite (fun _ => ?_) fun _ => ?_
  · exact withBuffers_serves hpacket.parm hpacket.data (initFsd_serves hdata hunused hparm)
  · exact withBuffers_serves hpacket.parm hpacket.data (initDevice_serves hdata hunused hparm)
  · exact serves_return (by decide)

/-- **The server's side of the handshake.** -/
theorem ioctl_served {ERROR_NOBLOCK : BitVec 32} {reqpkt : PTR16} {cat func : BitVec 32}
    {pparm pdata : PTR16} {tr : List IoctlEvent} {status : BitVec 32} {m' : Mem}
    (hpacket : Packet m (linear base reqpkt) cat func pparm pdata)
    (hdata : DataInput init pTKSSBase pDevHelp32 m (linear base pdata))
    (hunused : Unused tkssBase devHlp32 m (linear base pdata) 16 pTKSSBase pDevHelp32)
    (hparm : Apart (linear base pdata) 16 (linear base pparm) 4)
    (hr : Runs (memoryEnv base tkssBase devHlp32) m (mwdd32Ioctl ERROR_NOBLOCK reqpkt) tr
      status m') :
    Ended init pTKSSBase pDevHelp32 (linear base pdata) tr status m' := by
  have hserves : Serves base tkssBase devHlp32 init pTKSSBase pDevHelp32 (linear base pdata) m
      (mwdd32Ioctl ERROR_NOBLOCK reqpkt) := by
    refine serves_call (fun _ => rfl) ?_
    rintro ⟨rc, request⟩ _ ⟨hlin, rfl⟩
    refine serves_ite (fun hrc => ?_) fun _ => serves_return (by decide)
    obtain rfl := hlin hrc
    intro h hno
    refine wp_bind.mpr (wp_mono (dispatch_serves hpacket hdata hunused hparm h hno) ?_)
    rintro h status m (⟨hno, hst⟩ | hran)
    · exact .inl ⟨hno, sterr_or _ hst⟩
    · exact .inr hran
  exact ((hserves [] rfl).sound hr).2

end

end Mwdd32.Server
