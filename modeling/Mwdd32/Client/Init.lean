import Mwdd32.Server.Handshake

/-!
# Ring 3 initialisation of the clients

`FS_INIT` (`fsh32/fs_init.asm`, lines 66–159) and the `device_init` of the device
driver skeleton (`skeleton/device/dev32_start.asm`, lines 141–233) open mwdd32, have
it call the client's 32-bit init routine by an IOCTL, close it and return what the
routine returned.

* `handshake_sound`: success means that the routine ran once, behind an export, and
  the result is its own.
-/

namespace Mwdd32.Client

open ByteMem Interaction Server

/-! ## Model -/

/-- A stub in its 16-bit stack frame, with the FLAT offsets that it is linked with: the
    init routine and the variables `TKSSBase` and `DevHelp32`. -/
structure Stub where
  ss : BitVec 16
  bp : BitVec 16
  init : BitVec 32
  pTKSSBase : BitVec 32
  pDevHelp32 : BitVec 32

/-- The far pointer to `ss:[bp + d]` -/
def Stub.far (S : Stub) (d : BitVec 16) : PTR16 := S.ss ++ (S.bp + d)

/-- `ss:[bp + d]` -/
def Stub.at (S : Stub) (base : BitVec 16 → Addr) (d : BitVec 16) : Addr := linear base (S.far d)

/-- The calls, with the memory that they find. `DOS16OPEN` gets the name `mwdd32$`. -/
inductive DosOp
  | dos16Open (m : Mem) (pFileHandle pActionTaken : PTR16)
  | dos16DevIoctl (m : Mem) (pData pParm : PTR16) (func cat fileHandle : BitVec 16)
  | dos16Close (m : Mem) (fileHandle : BitVec 16)

/-- A call returns AX and leaves a memory. -/
abbrev DosRes : DosOp → Type := fun _ => BitVec 16 × Mem

/-- A routine that calls DOS -/
abbrev DosProg := Prog DosOp DosRes

open Prog in
/-- `DOS16OPEN` of `mwdd32$` with the pointers to its two results: the return code, and the
    memory -/
abbrev dos16Open (m : Mem) (pFileHandle pActionTaken : PTR16) : DosProg (BitVec 16 × Mem) :=
  perform (DosOp.dos16Open m pFileHandle pActionTaken)

open Prog in
/-- `DOS16DEVIOCTL` with its two buffers: the return code, and the memory -/
abbrev dos16DevIoctl (m : Mem) (pData pParm : PTR16) (func cat fileHandle : BitVec 16) :
    DosProg (BitVec 16 × Mem) :=
  perform (DosOp.dos16DevIoctl m pData pParm func cat fileHandle)

open Prog in
/-- `DOS16CLOSE`: the return code, and the memory -/
abbrev dos16Close (m : Mem) (fileHandle : BitVec 16) : DosProg (BitVec 16 × Mem) :=
  perform (DosOp.dos16Close m fileHandle)

section

variable (base : BitVec 16 → Addr) (S : Stub)

/-- `FileHandle`, at `bp - 2` -/
def fileHandle (m : Mem) : BitVec 16 := (read m (S.at base (-2)) 2).setWidth 16

/-- The buffers of `FS_INIT`: the magic number at `bp - 8`, the input fields at `bp - 24` -/
def fillFsd (m : Mem) : Mem :=
  let m := write m (S.at base (-8)) 4 MAGIC_IN
  let m := write m (S.at base (-24)) 4 S.init
  let m := write m (S.at base (-20)) 2 ((S.bp + 6).setWidth 32)
  let m := write m (S.at base (-18)) 2 (S.ss.setWidth 32)
  let m := write m (S.at base (-16)) 4 S.pTKSSBase
  write m (S.at base (-12)) 4 S.pDevHelp32

/-- The buffers of `device_init` -/
def fillDevice (m : Mem) : Mem :=
  let m := write m (S.at base (-8)) 4 MAGIC_IN
  let m := write m (S.at base (-24)) 4 S.init
  let m := write m (S.at base (-20)) 4 (read m (S.at base 4) 4)
  let m := write m (S.at base (-16)) 4 S.pTKSSBase
  write m (S.at base (-12)) 4 S.pDevHelp32

/-- `FS_INIT` from its entry to its result in AX -/
def fsInit (m : Mem) : DosProg (BitVec 16) := do
  let (ax, m) ← dos16Open m (S.far (-2)) (S.far (-4))
  if ax = 0 then
    let m := fillFsd base S m
    let (ax, m) ← dos16DevIoctl m (S.far (-24)) (S.far (-8)) 0x41 0xF0 (fileHandle base S m)
    if ax = 0 then
      let (ax, m) ← dos16Close m (fileHandle base S m)
      if ax = 0 then
        if read m (S.at base (-8)) 4 = MAGIC_OUT then
          return (read m (S.at base (-24)) 2).setWidth 16
        else return ERROR_INVALID_PARAMETER.setWidth 16
      else return ax
    else return ax
  else return ax

/-- `device_init` -/
def deviceInit (m : Mem) : DosProg (BitVec 16) := do
  let error := (STDON + STERR + ERROR_I24_GEN_FAILURE).setWidth 16
  let (ax, m) ← dos16Open m (S.far (-2)) (S.far (-4))
  if ax = 0 then
    let m := fillDevice base S m
    let (ax, m) ← dos16DevIoctl m (S.far (-24)) (S.far (-8)) 0x42 0xF0 (fileHandle base S m)
    if ax = 0 then
      let (ax, m) ← dos16Close m (fileHandle base S m)
      if ax = 0 then
        if read m (S.at base (-8)) 4 = MAGIC_OUT then
          return (read m (S.at base (-24)) 2).setWidth 16
        else return error
      else return error
    else return error
  else return error

end

/-! ## The system -/

section

variable (base : BitVec 16 → Addr) (tkssBase : BitVec 32) (devHlp32 : Addr)
  (ERROR_NOBLOCK : BitVec 32) (S : Stub)

/-- The stub's 24 bytes of local variables are one range and none that an export for the
    stub uses. -/
structure Layout : Prop where
  bp : 24 ≤ S.bp.toNat
  var : Apart S.pTKSSBase 4 (S.at base (-24)) 24
  record : Apart S.pDevHelp32 144 (S.at base (-24)) 24
  table : Apart devHlp32 144 (S.at base (-24)) 24

/-- What DOS may answer, with the calls that `mwdd32_ioctl` has made. `DOS16DEVIOCTL` fails
    before it gets to mwdd32, or runs `mwdd32_ioctl` on a packet that describes the stub's
    buffers, and then returns zero if and only if the status is without `STERR`. -/
def dosEnv : Env (List IoctlEvent) DosOp DosRes := fun log op res log' =>
  match op with
  | .dos16Open _ _ _ => log' = log
  | .dos16DevIoctl m pData pParm func cat _ =>
    (res.1 ≠ 0 ∧ log' = log) ∨
    ∃ reqpkt m₀ tr status m₁,
      AgreesOn m m₀ (S.at base (-24)) 24 ∧
      Packet m₀ (linear base reqpkt) (cat.setWidth 32) (func.setWidth 32) pParm pData ∧
      Runs (memoryEnv base tkssBase devHlp32) m₀ (mwdd32Ioctl ERROR_NOBLOCK reqpkt) tr status m₁ ∧
      AgreesOn m₁ res.2 (S.at base (-24)) 24 ∧
      (res.1 = 0 ↔ status &&& STERR = 0) ∧ log' = log ++ tr
  | .dos16Close m _ => AgreesOn m res.2 (S.at base (-24)) 24 ∧ log' = log

end

/-- A result is that of the stub's own routine if it is a success, and none otherwise. -/
structure Sound (ok : BitVec 16 → Prop) (S : Stub) (log : List IoctlEvent) (ax : BitVec 16) :
    Prop where
  ran : ok ax → ∃ rc, RanOnce S.init S.pTKSSBase S.pDevHelp32 log rc ∧ ax = rc.setWidth 16
  failed : inits log = [] → ¬ ok ax

variable {base : BitVec 16 → Addr} {tkssBase : BitVec 32} {devHlp32 : Addr}
  {ERROR_NOBLOCK : BitVec 32} {S : Stub} {m : Mem}

/-! ## The frame -/

theorem at_def (d : BitVec 16) : S.at base d = base S.ss + (S.bp + d).setWidth 32 := by
  have hseg : (S.ss ++ (S.bp + d)).extractLsb' 16 16 = S.ss := by
    ext i hi
    simp
    grind
  have hofs : (S.ss ++ (S.bp + d)).setWidth 16 = S.bp + d := by
    ext i hi
    simp
    grind
  rw [Stub.at, Stub.far, linear, hseg, hofs]

/-- The local variables at their distance from the lowest one. -/
theorem at_eq (base : BitVec 16 → Addr) (hbp : 24 ≤ S.bp.toNat) {d : BitVec 16} {k : ℕ}
    (hk : k < 24) (hd : (d + 24#16).toNat = k) :
    S.at base d = S.at base (-24) + BitVec.ofNat 32 k := by
  have hlow : (S.bp + d).setWidth 32 = (S.bp + -24).setWidth 32 + BitVec.ofNat 32 k := by
    have hlt := S.bp.isLt
    have hd' : (d.toNat + 24) % 65536 = k := hd
    have h1 : (S.bp + d).toNat = S.bp.toNat - 24 + k := by
      rw [BitVec.toNat_add]
      omega
    have h2 : (S.bp + -24).toNat = S.bp.toNat - 24 := by
      rw [show (-24 : BitVec 16) = 65512#16 by decide, BitVec.toNat_add]
      show (S.bp.toNat + 65512) % 65536 = _
      omega
    apply BitVec.eq_of_toNat_eq
    rw [BitVec.toNat_add, BitVec.toNat_setWidth, BitVec.toNat_setWidth, BitVec.toNat_ofNat, h1, h2]
    omega
  rw [at_def, at_def, hlow, BitVec.add_assoc]

theorem fillFsd_input (hbp : 24 ≤ S.bp.toNat) :
    DataInput S.init S.pTKSSBase S.pDevHelp32 (fillFsd base S m) (S.at base (-24)) := by
  have h4 := at_eq base hbp (d := -20) (k := 4) (by decide) rfl
  have h6 := at_eq base hbp (d := -18) (k := 6) (by decide) rfl
  have h8 := at_eq base hbp (d := -16) (k := 8) (by decide) rfl
  have h12 := at_eq base hbp (d := -12) (k := 12) (by decide) rfl
  have h16 := at_eq base hbp (d := -8) (k := 16) (by decide) rfl
  obtain ⟨s, x, hF⟩ : ∃ s x, S.at base (-24) = s + x := ⟨_, _, at_def _⟩
  unfold fillFsd
  rw [h4, h6, h8, h12, h16, hF]
  constructor <;> simp [BitVec.add_assoc]

theorem fillDevice_input (hbp : 24 ≤ S.bp.toNat) :
    DataInput S.init S.pTKSSBase S.pDevHelp32 (fillDevice base S m) (S.at base (-24)) := by
  have h4 := at_eq base hbp (d := -20) (k := 4) (by decide) rfl
  have h8 := at_eq base hbp (d := -16) (k := 8) (by decide) rfl
  have h12 := at_eq base hbp (d := -12) (k := 12) (by decide) rfl
  have h16 := at_eq base hbp (d := -8) (k := 16) (by decide) rfl
  obtain ⟨s, x, hF⟩ : ∃ s x, S.at base (-24) = s + x := ⟨_, _, at_def _⟩
  unfold fillDevice
  rw [h4, h8, h12, h16, hF]
  constructor <;> simp [BitVec.add_assoc]

/-- The answer of an IOCTL on a stub's buffers: an error, or the result of the stub's routine in
    the data buffer. -/
theorem devIoctl_answer (hL : Layout base devHlp32 S)
    (hdata : DataInput S.init S.pTKSSBase S.pDevHelp32 m (S.at base (-24)))
    {func fileHandle : BitVec 16} {res : BitVec 16 × Mem} {log : List IoctlEvent}
    (hE : dosEnv base tkssBase devHlp32 ERROR_NOBLOCK S []
      (.dos16DevIoctl m (S.far (-24)) (S.far (-8)) func 0xF0 fileHandle) res log) :
    res.1 ≠ 0 ∨ ∃ rc, RanOnce S.init S.pTKSSBase S.pDevHelp32 log rc ∧
      read res.2 (S.at base (-24)) 4 = rc := by
  rcases hE with ⟨hax, -⟩ | ⟨reqpkt, m₀, tr, status, m₁, hm, hpacket, hrun, hm', hax, rfl⟩
  · exact .inl hax
  have hF : ∀ {k : ℕ} {n : ℕ}, k + n ≤ 24 →
      Within (S.at base (-24) + BitVec.ofNat 32 k) n (S.at base (-24)) 24 := by
    intro k n hk
    rw [Within, toNat_add_ofNat_sub_self _ (by omega)]
    exact hk
  obtain ⟨hinit, hp, hd⟩ := hdata
  have hdata₀ : DataInput S.init S.pTKSSBase S.pDevHelp32 m₀ (S.at base (-24)) :=
    ⟨(hm.read_eq (hF (by omega))).trans hinit, (hm.read_eq (hF (by omega))).trans hp,
      (hm.read_eq (hF (by omega))).trans hd⟩
  have hbuf : Within (S.at base (-24)) 16 (S.at base (-24)) 24 := by
    rw [within_self]
    omega
  have hunused : Unused tkssBase devHlp32 m₀ (S.at base (-24)) 16 S.pTKSSBase S.pDevHelp32 := by
    refine ⟨hL.table.right_within hbuf (by omega), fun _ => hL.var.right_within hbuf (by omega),
      fun _ _ => (hL.record.right_within hbuf (by omega)).mono ?_ le_rfl⟩
    have := slots_le (recordVersion (write m₀ S.pTKSSBase 4 tkssBase) S.pDevHelp32)
    unfold recordSize
    omega
  have hparm : Apart (S.at base (-24)) 16 (S.at base (-8)) 4 := by
    obtain ⟨s, x, hF⟩ : ∃ s x, S.at base (-24) = s + x := ⟨_, _, at_def _⟩
    rw [at_eq base hL.bp (d := -8) (k := 16) (by decide) rfl, hF, BitVec.add_assoc]
    simp
  rcases ioctl_served hpacket hdata₀ hunused hparm hrun with ⟨-, hst⟩ | ⟨rc, hran, hrc⟩
  · exact .inl fun h => hst (hax.mp h)
  · refine .inr ⟨rc, hran, ?_⟩
    rw [← hrc]
    exact hm'.read_eq (by rw [within_self]; omega)

/-- What is returned from the data buffer after `DOS16CLOSE`. -/
theorem result_eq {m m' : Mem} {rc : BitVec 32} (hm : AgreesOn m m' (S.at base (-24)) 24)
    (hrc : read m (S.at base (-24)) 4 = rc) :
    (read m' (S.at base (-24)) 2).setWidth 16 = rc.setWidth 16 := by
  rw [hm.read_eq (by rw [within_self]; omega), read_two, hrc,
    BitVec.setWidth_setWidth_of_le _ (by omega), BitVec.setWidth_eq]

theorem sound_of_not_ok {ok : BitVec 16 → Prop} {log : List IoctlEvent} {ax : BitVec 16}
    (h : ¬ ok ax) : Sound ok S log ax :=
  ⟨fun hok => absurd hok h, fun _ => h⟩

theorem sound_of_ranOnce {ok : BitVec 16 → Prop} {log : List IoctlEvent} {ax : BitVec 16}
    {rc : BitVec 32} (h : RanOnce S.init S.pTKSSBase S.pDevHelp32 log rc)
    (hax : ax = rc.setWidth 16) :
    Sound ok S log ax := by
  refine ⟨fun _ => ⟨rc, h, hax⟩, fun hno => ?_⟩
  obtain ⟨pre, arg, post, rfl, -, -, -⟩ := h
  rw [inits_append] at hno
  cases (List.append_eq_nil_iff.mp hno).2

/-! ## Soundness -/

theorem fsInit_sound (hL : Layout base devHlp32 S) :
    Wp (dosEnv base tkssBase devHlp32 ERROR_NOBLOCK S) (fun _ _ => True)
      (fun _ ax log => Sound (· = 0) S log ax) [] [] (fsInit base S m) := by
  rintro ⟨ax, m⟩ _ rfl
  refine ⟨trivial, wp_ite (fun _ => ?_) fun hax => sound_of_not_ok hax⟩
  intro ⟨ax, m⟩ log hE
  have hanswer := devIoctl_answer hL (fillFsd_input hL.bp) hE
  refine ⟨trivial, wp_ite (fun hax => ?_) fun hax => sound_of_not_ok hax⟩
  obtain ⟨rc, hran, hrc⟩ := hanswer.resolve_left (not_not.mpr hax)
  rintro ⟨ax, m⟩ _ ⟨hm, rfl⟩
  refine ⟨trivial, wp_ite (fun _ => ?_) fun hax => sound_of_not_ok hax⟩
  exact wp_ite (fun _ => sound_of_ranOnce hran (result_eq hm hrc)) fun _ =>
    sound_of_not_ok (by decide)

theorem deviceInit_sound (hL : Layout base devHlp32 S) :
    Wp (dosEnv base tkssBase devHlp32 ERROR_NOBLOCK S) (fun _ _ => True)
      (fun _ ax log => Sound (· &&& STERR.setWidth 16 = 0) S log ax) [] []
        (deviceInit base S m) := by
  have herror : ∀ log, Sound (· &&& STERR.setWidth 16 = 0) S log
      ((STDON + STERR + ERROR_I24_GEN_FAILURE).setWidth 16) := fun _ => sound_of_not_ok (by decide)
  rintro ⟨ax, m⟩ _ rfl
  refine ⟨trivial, wp_ite (fun _ => ?_) fun _ => herror _⟩
  intro ⟨ax, m⟩ log hE
  have hanswer := devIoctl_answer hL (fillDevice_input hL.bp) hE
  refine ⟨trivial, wp_ite (fun hax => ?_) fun _ => herror _⟩
  obtain ⟨rc, hran, hrc⟩ := hanswer.resolve_left (not_not.mpr hax)
  rintro ⟨ax, m⟩ _ ⟨hm, rfl⟩
  refine ⟨trivial, wp_ite (fun _ => ?_) fun _ => herror _⟩
  exact wp_ite (fun _ => sound_of_ranOnce hran (result_eq hm hrc)) fun _ => herror _

/-- **The handshake.** For every outcome of the calls of DOS, every outcome of the services that
    `mwdd32_ioctl` calls, and every init routine. -/
theorem handshake_sound (hL : Layout base devHlp32 S) (m : Mem) :
    (∀ tr ax log, Runs (dosEnv base tkssBase devHlp32 ERROR_NOBLOCK S) [] (fsInit base S m)
      tr ax log → Sound (· = 0) S log ax) ∧
    ∀ tr ax log, Runs (dosEnv base tkssBase devHlp32 ERROR_NOBLOCK S) [] (deviceInit base S m)
      tr ax log → Sound (· &&& STERR.setWidth 16 = 0) S log ax :=
  ⟨fun _ _ _ h => ((fsInit_sound hL).sound h).2, fun _ _ _ h => ((deviceInit_sound hL).sound h).2⟩

/-- A stack of selector 8 at `0x10000`. -/
def stubBase (sel : BitVec 16) : Addr := if sel = 8 then 0x10000 else 0

/-- A stub with its frame in segment 8 -/
def sampleStub : Stub := ⟨8, 0x1000, 0x5000, 0x3000, 0x2000⟩

theorem sampleStub_layout : Layout stubBase 0x1000 sampleStub :=
  ⟨by decide, by decide, by decide, by decide⟩

/-- A stack with a packet at `0030:0000`, and a record of version 1. -/
def stubMem : Mem :=
  write (write (write (fun _ => 0) 0x11004 4 0x300000) 0x2000 4 DEVHELP32_MAGIC) 0x2004 4 1

/-- The packet of the IOCTL `func`, at 0x600. -/
def stubPacket (func : BitVec 16) (m : Mem) : Mem :=
  write (write (write (write m 0x60D 1 0xF0) 0x60E 1 (func.setWidth 32)) 0x60F 4
    (sampleStub.far (-8)))
    0x613 4 (sampleStub.far (-24))

/-- Services that succeed, for a routine that returns `rc`. -/
def stubServices (rc : BitVec 32) (m : Mem) : (op : IoctlOp) → op.Res × Mem
  | .virtToLin p => ((NO_ERROR, linear stubBase p), m)
  | .load _ p off n => (read m (p + BitVec.ofNat 32 off) n, m)
  | .store _ p off n v => ((), write m (p + BitVec.ofNat 32 off) n v)
  | .vmLock _ p _ => ((NO_ERROR, p.setWidth 96), m)
  | .vmUnlock _ => (NO_ERROR, m)
  | .exportDevhelp32 pTKSSBase pDevHelp32 =>
    let r := mwdd32ExportDevhelp32 0x400 0x1000 m pTKSSBase pDevHelp32
    (r.2, r.1)
  | .callInit _ _ => (rc, m)

theorem stubServices_memoryEnv (rc : BitVec 32) (m : Mem) (op : IoctlOp) :
    memoryEnv stubBase 0x400 0x1000 m op (stubServices rc m op).1 (stubServices rc m op).2 := by
  cases op <;> first | exact ⟨fun _ => rfl, rfl⟩ | exact ⟨rfl, rfl⟩ | rfl | trivial

/-- The IOCTL `func` on the buffers in `m` -/
def stubIoctl (func : BitVec 16) (rc : BitVec 32) (m : Mem) : List IoctlEvent × BitVec 32 × Mem :=
  (mwdd32Ioctl 1 0x600).answerIn (stubServices rc) (stubPacket func m)

/-- An IOCTL without `STERR` is a success of `DOS16DEVIOCTL`. -/
theorem stubIoctl_dosEnv {func : BitVec 16} {rc : BitVec 32} {m : Mem}
    (hpacket : Packet (stubPacket func m) (linear stubBase 0x600) 0xF0 (func.setWidth 32)
      (sampleStub.far (-8)) (sampleStub.far (-24)))
    (hstatus : (stubIoctl func rc m).2.1 &&& STERR = 0) (h : BitVec 16) :
    dosEnv stubBase 0x400 0x1000 1 sampleStub []
      (.dos16DevIoctl m (sampleStub.far (-24)) (sampleStub.far (-8)) func 0xF0 h)
      (0, (stubIoctl func rc m).2.2) (stubIoctl func rc m).1 := by
  have hagree : AgreesOn m (stubPacket func m) (sampleStub.at stubBase (-24)) 24 :=
    (((write_agreesOn (by decide)).trans (write_agreesOn (by decide))).trans
      (write_agreesOn (by decide))).trans (write_agreesOn (by decide))
  exact .inr ⟨0x600, _, _, _, _, hagree, hpacket, Runs.answerIn (stubServices_memoryEnv rc) _ _,
    AgreesOn.refl _ _ _, iff_of_true rfl hstatus, rfl⟩

/-- What a stub does behind its `DOS16CLOSE`. -/
theorem stub_end {σ : Type} {E : Env σ DosOp DosRes} {st : σ} {m : Mem} {ax error : BitVec 16}
    (hmagic : read m (sampleStub.at stubBase (-8)) 4 = MAGIC_OUT)
    (hax : (read m (sampleStub.at stubBase (-24)) 2).setWidth 16 = ax) :
    Runs E st (if read m (sampleStub.at stubBase (-8)) 4 = MAGIC_OUT then
        return (read m (sampleStub.at stubBase (-24)) 2).setWidth 16
      else return error) [] ax st := by
  rw [if_pos hmagic, hax]
  exact .ret

theorem fsInit_run : ∃ tr log, Runs (dosEnv stubBase 0x400 0x1000 1 sampleStub) []
    (fsInit stubBase sampleStub stubMem) tr 0 log := by
  let m := fillFsd stubBase sampleStub stubMem
  have hopen : dosEnv stubBase 0x400 0x1000 1 sampleStub []
      (.dos16Open stubMem (sampleStub.far (-2)) (sampleStub.far (-4))) (0, stubMem) [] := rfl
  have hioctl := @stubIoctl_dosEnv 0x41 0 m (by constructor <;> decide) (by decide)
  have hclose : ∀ h, dosEnv stubBase 0x400 0x1000 1 sampleStub (stubIoctl 0x41 0 m).1
      (.dos16Close (stubIoctl 0x41 0 m).2.2 h) (0, (stubIoctl 0x41 0 m).2.2)
        (stubIoctl 0x41 0 m).1 :=
    fun _ => ⟨AgreesOn.refl _ _ _, rfl⟩
  exact ⟨_, _, .call hopen (.call (hioctl _) (.call (hclose _) (stub_end (by decide) (by decide))))⟩

theorem deviceInit_run : ∃ tr log, Runs (dosEnv stubBase 0x400 0x1000 1 sampleStub) []
    (deviceInit stubBase sampleStub stubMem) tr 0x0100 log := by
  let m := fillDevice stubBase sampleStub stubMem
  have hopen : dosEnv stubBase 0x400 0x1000 1 sampleStub []
      (.dos16Open stubMem (sampleStub.far (-2)) (sampleStub.far (-4))) (0, stubMem) [] := rfl
  have hioctl := @stubIoctl_dosEnv 0x42 STDON m (by constructor <;> decide) (by decide)
  have hclose : ∀ h, dosEnv stubBase 0x400 0x1000 1 sampleStub (stubIoctl 0x42 STDON m).1
      (.dos16Close (stubIoctl 0x42 STDON m).2.2 h) (0, (stubIoctl 0x42 STDON m).2.2)
      (stubIoctl 0x42 STDON m).1 := fun _ => ⟨AgreesOn.refl _ _ _, rfl⟩
  exact ⟨_, _, .call hopen (.call (hioctl _) (.call (hclose _) (stub_end (by decide) (by decide))))⟩

/-- `FS_INIT` and `device_init`, each with a routine that succeeds. -/
theorem handshake_sample :
    (∃ tr log rc, Runs (dosEnv stubBase 0x400 0x1000 1 sampleStub) []
      (fsInit stubBase sampleStub stubMem) tr 0 log ∧
      RanOnce 0x5000 0x3000 0x2000 log rc ∧ rc.setWidth 16 = 0#16) ∧
    ∃ tr log rc, Runs (dosEnv stubBase 0x400 0x1000 1 sampleStub) []
      (deviceInit stubBase sampleStub stubMem) tr 0x0100 log ∧
      RanOnce 0x5000 0x3000 0x2000 log rc ∧ rc.setWidth 16 = 0x0100#16 := by
  obtain ⟨hfsd, hdevice⟩ :=
    @handshake_sound stubBase 0x400 0x1000 1 sampleStub sampleStub_layout stubMem
  obtain ⟨tr, log, hrun⟩ := fsInit_run
  obtain ⟨tr', log', hrun'⟩ := deviceInit_run
  obtain ⟨rc, hran, hrc⟩ := (hfsd tr 0 log hrun).ran rfl
  obtain ⟨rc', hran', hrc'⟩ := (hdevice tr' 0x0100 log' hrun').ran (by decide)
  exact ⟨⟨tr, log, rc, hrun, hran, hrc.symm⟩, tr', log', rc', hrun', hran', hrc'.symm⟩

end Mwdd32.Client
