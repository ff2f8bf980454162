import Mwdd32.Skeleton.Strategy

/-!
# Initialisation by `DEVICE=`

A driver that is loaded by a `DEVICE=` line is initialised at ring 3, where it cannot reach its
32-bit code. Its stub (`skeleton/device/dev32_start.asm`) has mwdd32 call `dev32_init`
(`skeleton/device/dev32_init.c`) by an IOCTL. The three parts are put together here.

* `dev32Init_ends`: what `dev32_init` leaves.
* `ioctl_passes`: mwdd32 calls a routine with the pointer in the stub's data buffer.
* `deviceStart`: a driver that reports success has run `dev32_init` on its packet, without a
  failure, and one that reports an error leaves no ends.
-/

namespace Mwdd32.Skeleton

open ByteMem Interaction Server Client DevHlp
open Mwdd32.Util (Byte)

/-! ## The routine -/

section Routine

variable (img : Image) (mem : Memory) (securityRc : Bool → BitVec 32 → BitVec 32)

/-- `dev32_init(reqpkt)`. Its command line is a string at `initarg`, not a list of parameters. -/
def dev32Init (reqpkt : PTR16) (request : ReqpktInit) : BaseProg (BitVec 32 × ReqpktInit) := do
  let (rc, _) ← virtToLin reqpkt
  if rc = NO_ERROR then
    let (rc, szParm) ← virtToLin request.initarg
    if rc = NO_ERROR then
      let quiet := dev32InitOptions (fuel (mem.szParm szParm)) (mem.szParm szParm).buf
      let rc ← lockSegments img
      if rc = NO_ERROR then
        if quiet = some false then ofInit (saveMessage img.banner)
        return (STDON, request.setEnds img.codeend img.dataend)
      else return (initFail, request)
    else return (initFail, request)
  else return (initFail, request)

/-- The result says whether a call failed, and the segments are locked if none did. -/
structure DeviceEnds (request : ReqpktInit) (L : Log) (r : BitVec 32 × ReqpktInit) : Prop where
  result : r = if L.failed then (initFail, request)
    else (STDON, request.setEnds img.codeend img.dataend)
  locked : L.failed = false → L.locked = 2
  unlocked : L.unlocked = 0

theorem dev32Init_tracks (reqpkt : PTR16) (request : ReqpktInit) :
    Tracks baseKernel (Log.step securityRc) (fun L r _ => DeviceEnds img request L r) .none ()
      (dev32Init img mem reqpkt request) := by
  refine tracks_virtToLin (fun _ => tracks_pos ?_) fun rc hrc => tracks_neg hrc ⟨rfl, nofun, rfl⟩
  refine tracks_virtToLin (fun szParm => tracks_pos ?_) fun rc hrc =>
    tracks_neg hrc ⟨rfl, nofun, rfl⟩
  refine tracks_lockSegments img (fun _ _ => tracks_pos ?_)
    (fun rc hrc => tracks_neg hrc ⟨rfl, nofun, rfl⟩) fun _ rc hrc =>
      tracks_neg hrc ⟨rfl, nofun, rfl⟩
  exact tracks_banner step_silent ⟨rfl, fun _ => rfl, rfl⟩

variable {img mem securityRc}

theorem dev32Init_ends (securityRc : Bool → BitVec 32 → BitVec 32) {reqpkt : PTR16}
    {request : ReqpktInit} {tr : List BaseEvent} {r : BitVec 32 × ReqpktInit}
    (h : Runs baseKernel () (dev32Init img mem reqpkt request) tr r ()) :
    DeviceEnds img request ⟨tr.any (fails securityRc), tr.any converts, tr.countP locks,
      tr.countP unlocks⟩ r := by
  have hends := (dev32Init_tracks img mem securityRc reqpkt request).sound h
  rw [foldl_log] at hends
  simpa [Log.none] using hends

end Routine

/-! ## The argument of the routine -/

section Argument

variable {base : BitVec 16 → Addr} {tkssBase : BitVec 32} {devHlp32 : Addr}
  {ERROR_NOBLOCK : BitVec 32} {arg : BitVec 32} {parm data : Addr} {m : Mem} {h : List IoctlEvent}

/-- A routine is called with `arg`. -/
def Passes (arg : BitVec 32) (e : IoctlEvent) : Prop :=
  ∀ init arg', e.1 = .callInit init arg' → arg' = arg

/-- Every call of a routine by `p` in the memory `m` passes `arg`. -/
def PassesArg (base : BitVec 16 → Addr) (tkssBase : BitVec 32) (devHlp32 : Addr) (arg : BitVec 32)
    (m : Mem) (p : IoctlProg (BitVec 32)) : Prop :=
  ∀ h, Wp (memoryEnv base tkssBase devHlp32) (fun _ e => Passes arg e) (fun _ _ _ => True) h m p

theorem passesArg_return {status : BitVec 32} :
    PassesArg base tkssBase devHlp32 arg m (return status) := fun _ => trivial

theorem passesArg_call {op : IoctlOp} {k : op.Res → IoctlProg (BitVec 32)}
    (hop : ∀ init arg', op = .callInit init arg' → arg' = arg)
    (hk : ∀ r m', memoryEnv base tkssBase devHlp32 m op r m' →
      PassesArg base tkssBase devHlp32 arg m' (k r)) :
    PassesArg base tkssBase devHlp32 arg m (Prog.perform op >>= k) :=
  fun _ r m' hE => ⟨hop, hk r m' hE _⟩

theorem passesArg_ite {c : Prop} [Decidable c] {p q : IoctlProg (BitVec 32)}
    (hp : c → PassesArg base tkssBase devHlp32 arg m p)
    (hq : ¬ c → PassesArg base tkssBase devHlp32 arg m q) :
    PassesArg base tkssBase devHlp32 arg m (if c then p else q) :=
  fun h => wp_ite (fun hc => hp hc h) fun hc => hq hc h

theorem refuse_passes {rc : BitVec 32} :
    PassesArg base tkssBase devHlp32 arg m (refuse parm data rc) :=
  passesArg_call nofun fun _ _ _ => passesArg_call nofun fun _ _ _ => passesArg_return

theorem unlock_passes {lock : BitVec 96} {status : BitVec 32} :
    PassesArg base tkssBase devHlp32 arg m (unlock lock status) :=
  passesArg_call nofun fun _ _ _ => passesArg_return

/-- The field of the argument stays as it is until it is loaded. -/
theorem initDevice_passes (harg : read m (data + 4#32) 4 = arg)
    (hunused : Unused tkssBase devHlp32 m data 16 (read m (data + 8#32) 4)
      (read m (data + 12#32) 4))
    (hparm : Apart data 16 parm 4) :
    PassesArg base tkssBase devHlp32 arg m (initDevice parm data) := by
  refine passesArg_call nofun ?_
  rintro (magicIn : BitVec 32) _ ⟨-, rfl⟩
  refine passesArg_ite (fun _ => ?_) fun _ => refuse_passes
  refine passesArg_call nofun ?_
  rintro _ _ ⟨rfl, rfl⟩
  refine passesArg_call nofun ?_
  rintro _ m ⟨rfl, rfl⟩
  refine passesArg_call nofun ?_
  rintro (rc : BitVec 16) m' hexport
  have hm' : m' = (mwdd32ExportDevhelp32 tkssBase devHlp32 m (read m (data + 8#32) 4)
    (read m (data + 12#32) 4)).1 := congrArg Prod.fst hexport
  refine passesArg_ite (fun _ => ?_) fun _ => refuse_passes
  refine passesArg_call nofun ?_
  rintro _ _ rfl
  refine passesArg_call nofun ?_
  rintro _ _ ⟨-, rfl⟩
  refine passesArg_call nofun ?_
  rintro _ _ ⟨rfl, rfl⟩
  refine passesArg_call ?_ fun _ _ _ => passesArg_call nofun fun _ _ _ => passesArg_return
  rintro _ _ ⟨⟩
  have hfield : Within (data + 4#32) 4 data 16 := by
    rw [Within, toNat_add_ofNat_sub_self _ (by omega)]
    omega
  rw [BitVec.add_zero, read_write_of_apart (hparm.left_within hfield (by omega)), hm',
    hunused.export_agreesOn.read_eq hfield, harg]

theorem withBuffers_passes {request : Addr} {body : Addr → Addr → IoctlProg (BitVec 32)}
    (hbody : PassesArg base tkssBase devHlp32 arg m (body (linear base (read m (request + 15#32) 4))
      (linear base (read m (request + 19#32) 4)))) :
    PassesArg base tkssBase devHlp32 arg m (withBuffers ERROR_NOBLOCK request body) := by
  refine passesArg_call nofun ?_
  rintro _ _ ⟨rfl, rfl⟩
  refine passesArg_call nofun ?_
  rintro ⟨rc, parm⟩ _ ⟨hlin, rfl⟩
  refine passesArg_ite (fun hrc => ?_) fun _ => passesArg_return
  obtain rfl := hlin hrc
  refine passesArg_call nofun ?_
  rintro _ _ ⟨rfl, rfl⟩
  refine passesArg_call nofun ?_
  rintro ⟨rc, data⟩ _ ⟨hlin, rfl⟩
  refine passesArg_ite (fun hrc => ?_) fun _ => passesArg_return
  obtain rfl := hlin hrc
  refine passesArg_call nofun ?_
  rintro ⟨rc, lockParm⟩ _ rfl
  refine passesArg_ite (fun _ => ?_) fun _ => passesArg_return
  refine passesArg_call nofun ?_
  rintro ⟨rc, lockData⟩ _ rfl
  refine passesArg_ite (fun _ h => ?_) fun _ => unlock_passes
  refine wp_bind.mpr (wp_mono (hbody h) fun h status m _ => ?_)
  exact wp_bind.mpr (wp_mono (unlock_passes h) fun h status m _ => unlock_passes h)

theorem dispatch_passes {request : Addr} {cat : BitVec 32} {pparm pdata : PTR16}
    (hpacket : Packet m request cat 0x42 pparm pdata)
    (harg : read m (linear base pdata + 4#32) 4 = arg)
    (hunused : Unused tkssBase devHlp32 m (linear base pdata) 16
      (read m (linear base pdata + 8#32) 4)
      (read m (linear base pdata + 12#32) 4))
    (hparm : Apart (linear base pdata) 16 (linear base pparm) 4) :
    PassesArg base tkssBase devHlp32 arg m (dispatch ERROR_NOBLOCK request) := by
  refine passesArg_call nofun ?_
  rintro (cat' : BitVec 32) _ ⟨-, rfl⟩
  refine passesArg_ite (fun _ => ?_) fun _ => passesArg_return
  refine passesArg_call nofun ?_
  rintro (func : BitVec 32) _ ⟨rfl, rfl⟩
  refine passesArg_ite (fun hfunc => ?_) fun _ => passesArg_ite (fun _ => ?_) fun _ =>
    passesArg_return
  · exact absurd (hpacket.func.symm.trans hfunc) (by decide)
  · refine withBuffers_passes ?_
    rw [hpacket.parm, hpacket.data]
    exact initDevice_passes harg hunused hparm

/-- **The argument.** For function 0x42, mwdd32 calls a routine with the field `pReqPkt` of the
    data. -/
theorem ioctl_passes {reqpkt : PTR16} {cat : BitVec 32} {pparm pdata : PTR16} {tr : List IoctlEvent}
    {status : BitVec 32} {m' : Mem} (hpacket : Packet m (linear base reqpkt) cat 0x42 pparm pdata)
    (harg : read m (linear base pdata + 4#32) 4 = arg)
    (hunused : Unused tkssBase devHlp32 m (linear base pdata) 16
      (read m (linear base pdata + 8#32) 4)
      (read m (linear base pdata + 12#32) 4))
    (hparm : Apart (linear base pdata) 16 (linear base pparm) 4)
    (hr : Runs (memoryEnv base tkssBase devHlp32) m (mwdd32Ioctl ERROR_NOBLOCK reqpkt) tr
      status m') :
    ∀ e ∈ tr, Passes arg e := by
  have hpass : PassesArg base tkssBase devHlp32 arg m (mwdd32Ioctl ERROR_NOBLOCK reqpkt) := by
    refine passesArg_call nofun ?_
    rintro ⟨rc, request⟩ _ ⟨hlin, rfl⟩
    refine passesArg_ite (fun hrc h => ?_) fun _ => passesArg_return
    obtain rfl := hlin hrc
    exact wp_bind.mpr
      (wp_mono (dispatch_passes hpacket harg hunused hparm h) fun _ _ _ _ => trivial)
  intro e he
  obtain ⟨pre, post, rfl⟩ := List.append_of_mem he
  exact ((hpass []).sound hr).1 pre e post rfl

end Argument

/-! ## The stub and the routine -/

/-- The packet of an initialisation, and the calls that `dev32_init` has made. -/
structure DeviceState where
  calls : List BaseEvent
  request : ReqpktInit

section System

variable (img : Image) (mem : Memory) (base : BitVec 16 → Addr) (tkssBase : BitVec 32)
  (devHlp32 : Addr) (ERROR_NOBLOCK : BitVec 32) (S : Stub) (reqpkt : PTR16)

/-- What the routines that mwdd32 calls do to the packet at `reqpkt`: the stub's own one, called
    with this pointer, is `dev32_init`; any other call may do anything. -/
inductive RoutineRuns : List IoctlEvent → DeviceState → DeviceState → Prop
  | nil {s : DeviceState} : RoutineRuns [] s s
  | own {s s' : DeviceState} {rc : BitVec 32} {request : ReqpktInit} {calls : List BaseEvent}
      {tr : List IoctlEvent} :
      Runs baseKernel () (dev32Init img mem reqpkt s.request) calls (rc, request) () →
      RoutineRuns tr ⟨s.calls ++ calls, request⟩ s' →
      RoutineRuns (⟨.callInit S.init reqpkt, rc⟩ :: tr) s s'
  | other {s s₁ s' : DeviceState} {init arg rc : BitVec 32} {tr : List IoctlEvent} :
      ¬ (init = S.init ∧ arg = reqpkt) → RoutineRuns tr s₁ s' →
      RoutineRuns (⟨.callInit init arg, rc⟩ :: tr) s s'
  | service {s s' : DeviceState} {e : IoctlEvent} {tr : List IoctlEvent} :
      inits [e] = [] → RoutineRuns tr s s' → RoutineRuns (e :: tr) s s'

/-- DOS, with what the routines called by an IOCTL do. An open leaves the pointer to the packet,
    which the stub has pushed, where it is. -/
def deviceEnv : Env (List IoctlEvent × DeviceState) DosOp DosRes := fun s op res s' =>
  dosEnv base tkssBase devHlp32 ERROR_NOBLOCK S s.1 op res s'.1 ∧
  (∃ tr, s'.1 = s.1 ++ tr ∧ RoutineRuns img mem S reqpkt tr s.2 s'.2) ∧
  match op with
  | .dos16Open m _ _ => AgreesOn m res.2 (S.at base 4) 4
  | _ => True

end System

section Start

variable {img : Image} {mem : Memory} {base : BitVec 16 → Addr} {tkssBase : BitVec 32}
  {devHlp32 : Addr} {ERROR_NOBLOCK : BitVec 32} {S : Stub} {reqpkt : PTR16} {s s' : DeviceState}
  {tr tr' : List IoctlEvent}

theorem RoutineRuns.append {s₁ : DeviceState} (h : RoutineRuns img mem S reqpkt tr s s₁)
    (h' : RoutineRuns img mem S reqpkt tr' s₁ s') :
    RoutineRuns img mem S reqpkt (tr ++ tr') s s' := by
  induction h with
  | nil => exact h'
  | own hrun _ ih => exact .own hrun (ih h')
  | other hne _ ih => exact .other hne (ih h')
  | service he _ ih => exact .service he (ih h')

/-- Services of mwdd32 leave the packet alone. -/
theorem RoutineRuns.eq_of_inits (h : RoutineRuns img mem S reqpkt tr s s')
    (hno : inits tr = []) : s' = s := by
  induction h with
  | nil => rfl
  | own => cases hno
  | other => cases hno
  | service he _ ih =>
    refine ih ?_
    rwa [← List.singleton_append, inits_append, he] at hno

/-- A trace with one call of the stub's routine is one run of `dev32_init`. -/
theorem RoutineRuns.once {pre post : List IoctlEvent} {rc : BitVec 32}
    (h : RoutineRuns img mem S reqpkt (pre ++ ⟨.callInit S.init reqpkt, rc⟩ :: post) s s')
    (hpre : inits pre = []) (hpost : inits post = []) :
    ∃ calls, Runs baseKernel () (dev32Init img mem reqpkt s.request) calls (rc, s'.request) () ∧
      s'.calls = s.calls ++ calls := by
  induction pre generalizing s with
  | nil =>
    cases h with
    | own hrun hrest =>
      obtain rfl := hrest.eq_of_inits hpost
      exact ⟨_, hrun, rfl⟩
    | other hne => exact absurd ⟨rfl, rfl⟩ hne
    | service he => cases he
  | cons e pre ih =>
    rw [← List.singleton_append, inits_append] at hpre
    obtain ⟨he, hpre⟩ := List.append_eq_nil_iff.mp hpre
    cases h with
    | own => cases he
    | other => cases he
    | service _ hrest => exact ih hrest hpre

/-- The pointer to the packet, above the stub's frame and its return address. -/
theorem at_reqpkt (base : BitVec 16 → Addr) (hbp : 24 ≤ S.bp.toNat)
    (hframe : S.bp.toNat + 8 ≤ 2 ^ 16) :
    S.at base 4 = S.at base (-24) + 28#32 := by
  have hlow : (S.bp + 4).setWidth 32 = (S.bp + -24).setWidth 32 + 28#32 := by
    have h1 : (S.bp + 4).toNat = S.bp.toNat + 4 := by
      rw [BitVec.toNat_add]
      show (S.bp.toNat + 4) % 65536 = _
      omega
    have h2 : (S.bp + -24).toNat = S.bp.toNat - 24 := by
      rw [show (-24 : BitVec 16) = 65512#16 by decide, BitVec.toNat_add]
      show (S.bp.toNat + 65512) % 65536 = _
      omega
    apply BitVec.eq_of_toNat_eq
    rw [BitVec.toNat_add, BitVec.toNat_setWidth, BitVec.toNat_setWidth, h1, h2]
    show (S.bp.toNat + 4) % 2 ^ 32 = ((S.bp.toNat - 24) % 2 ^ 32 + 28) % 2 ^ 32
    omega
  rw [at_def, at_def, hlow, BitVec.add_assoc]

/-- The stub copies the pointer to the data buffer. -/
theorem read_fillDevice {m : Mem} (hbp : 24 ≤ S.bp.toNat) (hframe : S.bp.toNat + 8 ≤ 2 ^ 16) :
    read (fillDevice base S m) (S.at base (-24) + 4#32) 4 = read m (S.at base 4) 4 := by
  have h4 := at_eq base hbp (d := -20) (k := 4) (by decide) rfl
  have h8 := at_eq base hbp (d := -16) (k := 8) (by decide) rfl
  have h12 := at_eq base hbp (d := -12) (k := 12) (by decide) rfl
  have h16 := at_eq base hbp (d := -8) (k := 16) (by decide) rfl
  have h28 := at_reqpkt base hbp hframe
  obtain ⟨s, x, hF⟩ : ∃ s x, S.at base (-24) = s + x := ⟨_, _, at_def _⟩
  unfold fillDevice
  rw [h4, h8, h12, h16, h28, hF]
  simp [BitVec.add_assoc]

/-- An IOCTL on the stub's buffers calls a routine with the pointer that the stub has put there. -/
theorem devIoctl_passes (hL : Layout base devHlp32 S) {m : Mem} {arg : BitVec 32}
    (hdata : DataInput S.init S.pTKSSBase S.pDevHelp32 m (S.at base (-24)))
    (harg : read m (S.at base (-24) + 4#32) 4 = arg) {fileHandle : BitVec 16}
    {res : BitVec 16 × Mem} {log log' : List IoctlEvent}
    (hE : dosEnv base tkssBase devHlp32 ERROR_NOBLOCK S log
      (.dos16DevIoctl m (S.far (-24)) (S.far (-8)) 0x42 0xF0 fileHandle) res log') :
    ∃ tr, log' = log ++ tr ∧ ∀ e ∈ tr, Passes arg e := by
  rcases hE with ⟨-, rfl⟩ | ⟨packet, m₀, tr, status, m₁, hm, hpacket, hrun, -, -, rfl⟩
  · exact ⟨[], (List.append_nil _).symm, by simp⟩
  have hF : ∀ {k n : ℕ}, k + n ≤ 24 →
      Within (S.at base (-24) + BitVec.ofNat 32 k) n (S.at base (-24)) 24 := by
    intro k n hk
    rw [Within, toNat_add_ofNat_sub_self _ (by omega)]
    exact hk
  have hbuf : Within (S.at base (-24)) 16 (S.at base (-24)) 24 := by
    rw [within_self]
    omega
  obtain ⟨-, hp, hd⟩ := hdata
  have hp₀ := (hm.read_eq (hF (by omega))).trans hp
  have hd₀ := (hm.read_eq (hF (by omega))).trans hd
  have hunused : Unused tkssBase devHlp32 m₀ (S.at base (-24)) 16 S.pTKSSBase S.pDevHelp32 := by
    refine ⟨hL.table.right_within hbuf (by omega), fun _ => hL.var.right_within hbuf (by omega),
      fun _ _ => (hL.record.right_within hbuf (by omega)).mono ?_ le_rfl⟩
    have := slots_le (recordVersion (write m₀ S.pTKSSBase 4 tkssBase) S.pDevHelp32)
    unfold recordSize
    omega
  have hparm : Apart (S.at base (-24)) 16 (S.at base (-8)) 4 := by
    obtain ⟨s, x, hF⟩ : ∃ s x, S.at base (-24) = s + x := ⟨_, _, at_def _⟩
    rw [at_eq base hL.bp (d := -8) (k := 16) (by decide) rfl, hF, BitVec.add_assoc]
    simp
  refine ⟨tr, rfl, ioctl_passes hpacket ((hm.read_eq (hF (by omega))).trans harg) ?_ hparm hrun⟩
  show Unused tkssBase devHlp32 m₀ _ 16 (read m₀ (S.at base (-24) + 8#32) 4)
    (read m₀ (S.at base (-24) + 12#32) 4)
  rwa [hp₀, hd₀]

/-- All that `device_init` has mwdd32 call gets the pointer to the packet. -/
theorem deviceInit_passes (hL : Layout base devHlp32 S) (hframe : S.bp.toNat + 8 ≤ 2 ^ 16) {m : Mem}
    (hreqpkt : read m (S.at base 4) 4 = reqpkt) :
    Wp (deviceEnv img mem base tkssBase devHlp32 ERROR_NOBLOCK S reqpkt) (fun _ _ => True)
      (fun _ _ st => ∀ e ∈ st.1, Passes reqpkt e) [] ([], s) (deviceInit base S m) := by
  rintro ⟨ax, m⟩ ⟨_, s⟩ ⟨rfl, -, hm⟩
  refine ⟨trivial, wp_ite (fun _ => ?_) fun _ e he => nomatch he⟩
  rintro ⟨ax, m'⟩ ⟨log, s⟩ ⟨hE, -, -⟩
  have harg : read (fillDevice base S m) (S.at base (-24) + 4#32) 4 = reqpkt :=
    (read_fillDevice hL.bp hframe).trans ((read_congr hm).trans hreqpkt)
  obtain ⟨tr, rfl, hpass⟩ := devIoctl_passes hL (fillDevice_input hL.bp) harg hE
  refine ⟨trivial, wp_ite (fun _ => ?_) fun _ => hpass⟩
  rintro ⟨ax, m⟩ ⟨_, s⟩ ⟨⟨-, rfl⟩, -⟩
  exact ⟨trivial, wp_ite (fun _ => wp_ite (fun _ => hpass) fun _ => hpass) fun _ => hpass⟩

/-- If `device_init` returns no error, `dev32_init` ran once on the packet and returned this
    status. -/
theorem deviceInit_ran (hL : Layout base devHlp32 S) (hframe : S.bp.toNat + 8 ≤ 2 ^ 16) {m : Mem}
    (hreqpkt : read m (S.at base 4) 4 = reqpkt) {dos : List DosEvent} {ax : BitVec 16}
    {log : List IoctlEvent}
    (h : Runs (deviceEnv img mem base tkssBase devHlp32 ERROR_NOBLOCK S reqpkt) ([], s)
      (deviceInit base S m) dos ax (log, s')) (hax : ax &&& STERR.setWidth 16 = 0) :
    ∃ calls rc, Runs baseKernel () (dev32Init img mem reqpkt s.request) calls (rc, s'.request) () ∧
      s'.calls = s.calls ++ calls ∧ ax = rc.setWidth 16 := by
  have hpass := ((deviceInit_passes hL hframe hreqpkt).sound h).2
  have hroutine : RoutineRuns img mem S reqpkt log s s' := by
    refine h.invariant (I := fun st => RoutineRuns img mem S reqpkt st.1 s st.2) ?_ .nil
    rintro ⟨log, s₁⟩ op res ⟨_, s₂⟩ hI ⟨-, ⟨tr, rfl, hstep⟩, -⟩
    exact hI.append hstep
  have hdos := h.map (dosEnv base tkssBase devHlp32 ERROR_NOBLOCK S) Prod.fst fun _ _ _ _ hE => hE.1
  obtain ⟨rc, ⟨pre, arg, post, rfl, hpre, hpost, -⟩, rfl⟩ :=
    ((deviceInit_sound hL).sound hdos).2.ran hax
  have harg : arg = reqpkt := hpass _ (List.mem_append_right pre List.mem_cons_self) _ _ rfl
  subst harg
  obtain ⟨calls, hrun, hcalls⟩ := hroutine.once hpre hpost
  exact ⟨calls, rc, hrun, hcalls, rfl⟩

end Start

/-! ## The driver -/

section Driver

variable (img : Image) (mem : Memory) (securityRc : Bool → BitVec 32 → BitVec 32)
  (base : BitVec 16 → Addr) (tkssBase : BitVec 32) (devHlp32 : Addr) (ERROR_NOBLOCK : BitVec 32)
  (S : Stub)

/-- The services of a driver whose ring 3 part is the stub `S`, for a request with this packet. The
    state has the calls that `dev32_init` has made. -/
def deviceKernel (init : ReqpktInit) : Env (List BaseEvent) DriverOp DriverOp.Res
  | calls, .deviceInit reqpkt, r, calls' => ∃ m dos log, read m (S.at base 4) 4 = reqpkt ∧
      Runs (deviceEnv img mem base tkssBase devHlp32 ERROR_NOBLOCK S reqpkt) ([], ⟨calls, init⟩)
        (deviceInit base S m) dos r.1 (log, ⟨calls', r.2⟩)
  | calls, op, r, calls' => driverKernel () op r () ∧ calls' = calls

/-- A driver reports success with its ends, when `dev32_init` ran on its packet with these calls,
    none of which failed, and has locked both segments, and an error without any ends. -/
structure DeviceStarted (reqpkt : PTR16) (request : Request) (calls : List BaseEvent)
    (out : Outcome 16) : Prop where
  success : out.status &&& STERR.setWidth 16 = 0 → out.status = STDON.setWidth 16 ∧
    out.request = { request with init := request.init.setEnds img.codeend img.dataend } ∧
    Runs baseKernel () (dev32Init img mem reqpkt request.init) calls
      (STDON, request.init.setEnds img.codeend img.dataend) () ∧
    calls.any (fails securityRc) = false ∧ calls.countP locks = 2
  error : out.status &&& STERR.setWidth 16 ≠ 0 → out.request.init.first = 0

variable {img mem securityRc base tkssBase devHlp32 ERROR_NOBLOCK S} {reqpkt : PTR16}
  {count : BitVec 32} {request : Request} {tr : List DriverEvent} {out : Outcome 16}
  {calls : List BaseEvent}

/-- **Initialisation by `DEVICE=`.** For every outcome of the calls of DOS, of the services of
    mwdd32 and of those of the driver. -/
theorem deviceStart (hL : Layout base devHlp32 S) (hframe : S.bp.toNat + 8 ≤ 2 ^ 16)
    (h : Runs (deviceKernel img mem base tkssBase devHlp32 ERROR_NOBLOCK S request.init) []
      (Driver.dev32.stubStrategy img mem securityRc ERROR_NOBLOCK reqpkt 0 count request) tr out
      calls) :
    DeviceStarted img mem securityRc reqpkt request calls out := by
  obtain ⟨tr, ⟨ax, init⟩, _, _, hcall, hret, rfl⟩ := runs_bind.mp h
  cases hcall with
  | call hE hcall =>
    cases hcall
    obtain ⟨m, dos, log, hreqpkt, hrun⟩ := hE
    simp only at hret hrun
    split_ifs at hret with hax <;> cases hret
    · exact ⟨fun h => absurd h hax, fun _ => rfl⟩
    · have hax : ax &&& STERR.setWidth 16 = 0 := not_not.mp hax
      refine ⟨fun _ => ?_, fun h => absurd hax h⟩
      obtain ⟨_, rc, hroutine, rfl, rfl⟩ := deviceInit_ran hL hframe hreqpkt hrun hax
      obtain ⟨hresult, hlocked, -⟩ := dev32Init_ends securityRc hroutine
      cases hfailed : calls.any (fails securityRc) with
      | true =>
        rw [hfailed, if_pos rfl, Prod.mk.injEq] at hresult
        rw [hresult.1] at hax
        exact absurd hax (by decide)
      | false =>
        rw [hfailed, if_neg Bool.false_ne_true, Prod.mk.injEq] at hresult
        obtain ⟨rfl, hends⟩ := hresult
        have hends : init = request.init.setEnds img.codeend img.dataend := hends
        subst hends
        exact ⟨rfl, rfl, hroutine, rfl, hlocked hfailed⟩

end Driver

/-! ### Samples -/

/-- The routines of a trace can run, if `dev32_init` can return what the stub's one did. -/
theorem RoutineRuns.exists {img : Image} {mem : Memory} {S : Stub} {reqpkt : PTR16}
    {tr : List IoctlEvent}
    (hroutine : ∀ rc, (S.init, rc) ∈ inits tr → ∀ request, ∃ calls request',
      Runs baseKernel () (dev32Init img mem reqpkt request) calls (rc, request') ())
        (s : DeviceState) :
    ∃ s', RoutineRuns img mem S reqpkt tr s s' := by
  induction tr generalizing s with
  | nil => exact ⟨s, .nil⟩
  | cons e tr ih =>
    have hrest := ih fun rc hmem => hroutine rc (by
      rw [← List.singleton_append, inits_append]
      exact List.mem_append_right _ hmem)
    obtain ⟨op, r⟩ := e
    cases op with
    | callInit init arg =>
      by_cases hown : init = S.init ∧ arg = reqpkt
      · obtain ⟨rfl, rfl⟩ := hown
        obtain ⟨calls, request, hrun⟩ := hroutine r List.mem_cons_self s.request
        obtain ⟨s', hs'⟩ := hrest ⟨s.calls ++ calls, request⟩
        exact ⟨s', .own hrun hs'⟩
      · obtain ⟨s', hs'⟩ := hrest s
        exact ⟨s', .other hown hs'⟩
    | _ =>
      obtain ⟨s', hs'⟩ := hrest s
      exact ⟨s', .service rfl hs'⟩

/-- The calls of DOS for a driver with its packet there. -/
def sampleEnv : Env (List IoctlEvent × DeviceState) DosOp DosRes :=
  deviceEnv sampleImage sampleMemory stubBase 0x400 0x1000 1 sampleStub 0x300000

/-- The IOCTL of the sample -/
abbrev sampleIoctl : List IoctlEvent × BitVec 32 × Mem :=
  stubIoctl 0x42 STDON (fillDevice stubBase sampleStub stubMem)

theorem sampleIoctl_routine : ∀ rc, (sampleStub.init, rc) ∈ inits sampleIoctl.1 → ∀ request,
    ∃ calls request', Runs baseKernel () (dev32Init sampleImage sampleMemory 0x300000 request) calls
      (rc, request') () := by
  intro rc hmem request
  have hinits : inits sampleIoctl.1 = [(0x5000, STDON)] := by decide
  rw [hinits, List.mem_singleton] at hmem
  cases hmem
  have hservices := @answers_baseKernel (fun _ _ => (false, 0)) fun _ _ h => nomatch h
  exact ⟨_, _, Runs.answer hservices (dev32Init sampleImage sampleMemory 0x300000 request)⟩

/-- The IOCTL is served. -/
theorem sampleEnv_ioctl (h : BitVec 16) : ∃ s, sampleEnv ([], ⟨[], sampleRequest⟩)
    (.dos16DevIoctl (fillDevice stubBase sampleStub stubMem) (sampleStub.far (-24))
      (sampleStub.far (-8)) 0x42 0xF0 h) (0, sampleIoctl.2.2) (sampleIoctl.1, s) := by
  obtain ⟨s, hs⟩ := RoutineRuns.exists sampleIoctl_routine ⟨[], sampleRequest⟩
  have hioctl := @stubIoctl_dosEnv 0x42 STDON (fillDevice stubBase sampleStub stubMem)
    (by constructor <;> decide) (by decide) h
  exact ⟨s, hioctl, ⟨_, rfl, hs⟩, trivial⟩

/-- `device_init` returns what `dev32_init` did. -/
theorem sampleStart : ∃ dos log s, Runs sampleEnv ([], ⟨[], sampleRequest⟩)
    (deviceInit stubBase sampleStub stubMem) dos 0x0100 (log, s) := by
  obtain ⟨s, hioctl⟩ :=
    sampleEnv_ioctl (fileHandle stubBase sampleStub (fillDevice stubBase sampleStub stubMem))
  have hopen : sampleEnv ([], ⟨[], sampleRequest⟩)
      (.dos16Open stubMem (sampleStub.far (-2)) (sampleStub.far (-4))) (0, stubMem)
      ([], ⟨[], sampleRequest⟩) := ⟨rfl, ⟨[], rfl, .nil⟩, AgreesOn.refl _ _ _⟩
  have hclose : ∀ h, sampleEnv (sampleIoctl.1, s) (.dos16Close sampleIoctl.2.2 h)
      (0, sampleIoctl.2.2) (sampleIoctl.1, s) := fun h =>
    ⟨⟨AgreesOn.refl _ _ _, rfl⟩, ⟨[], (List.append_nil _).symm, .nil⟩, trivial⟩
  have hend := @stub_end _ sampleEnv (sampleIoctl.1, s) sampleIoctl.2.2 0x0100
    ((STDON + STERR + ERROR_I24_GEN_FAILURE).setWidth 16) (by decide) (by decide)
  exact ⟨_, _, s, .call hopen (.call hioctl (.call (hclose _) hend))⟩

theorem deviceStart_sample : ∃ tr out calls,
    Runs (deviceKernel sampleImage sampleMemory stubBase 0x400 0x1000 1 sampleStub sampleRequest) []
      (Driver.dev32.stubStrategy sampleImage sampleMemory (fun _ _ => 0) 1 0x300000 0 0
        sampleTransfer) tr out calls ∧
    out.status = 0x0100 ∧
    DeviceStarted sampleImage sampleMemory (fun _ _ => 0) 0x300000 sampleTransfer calls out ∧
    calls.countP locks = 2 := by
  obtain ⟨dos, log, s, hrun⟩ := sampleStart
  have hinit : deviceKernel sampleImage sampleMemory stubBase 0x400 0x1000 1 sampleStub
      sampleRequest [] (.deviceInit 0x300000) (0x0100, s.request) s.calls :=
    ⟨stubMem, dos, log, by decide, hrun⟩
  have hstub : Runs
      (deviceKernel sampleImage sampleMemory stubBase 0x400 0x1000 1 sampleStub sampleRequest) []
      (Driver.dev32.stubStrategy sampleImage sampleMemory (fun _ _ => 0) 1 0x300000 0 0
        sampleTransfer) [⟨.deviceInit 0x300000, (0x0100, s.request)⟩]
      ⟨0, { sampleTransfer with init := s.request }, 0x0100⟩ s.calls := .call hinit .ret
  have hstarted : DeviceStarted sampleImage sampleMemory (fun _ _ => 0) 0x300000 sampleTransfer
      s.calls _ := deviceStart sampleStub_layout (by decide) hstub
  have hok : (0x0100 : BitVec 16) &&& STERR.setWidth 16 = 0 := by decide
  obtain ⟨-, -, -, -, hlocks⟩ := hstarted.success hok
  exact ⟨_, _, _, hstub, rfl, hstarted, hlocks⟩

end Mwdd32.Skeleton
