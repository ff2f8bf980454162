import Mwdd32.Skeleton.InitBase

/-!
# The security requests of `sec32_init_base`

The SES driver registers its callbacks with `DHSEC_SETIMPORT` and fetches the kernel's helpers with
`DHSEC_GETEXPORT`, after its segments are locked. `DevHlp32_Security` returns `NO_ERROR` whatever
the carry flag says.

* `sec32InitBase_tracks`: the locks and requests of a run, by its status.
* `sec32InitBase_iff`: the status is right about them unless the kernel refuses a request.
-/

namespace Mwdd32.Skeleton

open Interaction DevHlp Util

/-- What `DevHlp32_Security` returns, whatever its arguments. -/
def devHlp32SecurityRc : Bool → BitVec 32 → BitVec 32 := fun cf eax =>
  Wrapper.rc (fun _ => 0) cf eax .security

/-- Granted locks, and requests to the security helpers. -/
def guards : BaseEvent → Bool
  | ⟨.init (.service .vmLock _), (cf, _)⟩ => !cf
  | ⟨.init (.service .security _), _⟩ => true
  | _ => false

/-- A request to the security helpers returned with the carry flag set. -/
def refused : BaseEvent → Bool
  | ⟨.init (.service .security _), (cf, _)⟩ => cf
  | _ => false

section Guards

variable (img : Image)

/-- The two locks and then the two requests, with the carry flags of the requests. -/
def guarded (a b c d : BitVec 32) (cfImport cfExport : Bool) : List BaseEvent :=
  [⟨.init (.service .vmLock (lockData img)), false, a⟩,
    ⟨.init (.service .vmLock (lockCode img)), false, b⟩,
    ⟨.init (.service .security [DHSEC_SETIMPORT, img.securityImports]), cfImport, c⟩,
    ⟨.init (.service .security [DHSEC_GETEXPORT, img.securityExports]), cfExport, d⟩]

/-- Both segments were locked, and then both requests were accepted. -/
def Installed (tr : List BaseEvent) : Prop :=
  ∃ a b c d, tr.filter guards = guarded img a b c d false false

/-- A status without `STERR` means that the callbacks are installed, and a refused request is an
    error that sets no ends. -/
structure ClaimsTrue (tr : List BaseEvent) (status : BitVec 32) (request : ReqpktInit) : Prop where
  success : status &&& STERR = 0 → Installed img tr
  error : tr.any refused = true →
    status &&& STERR ≠ 0 ∧ request.codeend = 0 ∧ request.dataend = 0

/-- The guarded events so far. -/
def guardStep (L : List BaseEvent) (e : BaseEvent) : List BaseEvent :=
  if guards e then L ++ [e] else L

theorem foldl_guardStep (tr L : List BaseEvent) : tr.foldl guardStep L = L ++ tr.filter guards := by
  induction tr generalizing L with
  | nil => simp
  | cons e tr ih =>
    rw [List.foldl_cons, ih, List.filter_cons, guardStep]
    split_ifs <;> simp

theorem guardStep_silent {L : List BaseEvent} (op : InitOp) (r : op.Res) (hop : silent op = true) :
    guardStep L ⟨.init op, r⟩ = L := by
  cases op with
  | service w args => cases w <;> first | contradiction | rfl
  | saveMessage text => rfl

theorem guards_of_refused {e : BaseEvent} (h : refused e = true) : guards e = true := by
  unfold refused at h
  split at h
  · rfl
  · exact absurd h Bool.false_ne_true

theorem any_refused_filter (tr : List BaseEvent) :
    (tr.filter guards).any refused = tr.any refused := by
  rw [List.any_filter]
  refine congrArg (List.any tr) (funext fun e => ?_)
  cases hr : refused e with
  | false => rw [Bool.and_false]
  | true => rw [guards_of_refused hr, Bool.and_true]

theorem any_refused_guarded (a b c d : BitVec 32) (cfImport cfExport : Bool) :
    (guarded img a b c d cfImport cfExport).any refused = (cfImport || cfExport) := by
  simp [guarded, refused]

end Guards

variable (img : Image) (mem : Memory)

/-- An error comes before the requests, which are not refused then. -/
structure Guarded (L : List BaseEvent) (status : BitVec 32) : Prop where
  error : status &&& STERR ≠ 0 → L.any refused = false
  success : status &&& STERR = 0 → ∃ a b c d cfImport cfExport, L =
    guarded img a b c d cfImport cfExport

theorem guarded_fail {L : List BaseEvent} (hL : L.any refused = false) : Guarded img L initFail :=
  ⟨fun _ => hL, fun h => absurd h (by decide)⟩

theorem guarded_done (a b c d : BitVec 32) (cfImport cfExport : Bool) :
    Guarded img (guarded img a b c d cfImport cfExport) STDON :=
  ⟨fun h => absurd rfl h, fun _ => ⟨a, b, c, d, cfImport, cfExport, rfl⟩⟩

theorem sec32InitBase_tracks (reqpkt : PTR16) (request : ReqpktInit) :
    Tracks baseKernel guardStep (fun L r _ => Guarded img L r.1) [] ()
      (sec32InitBase img mem devHlp32SecurityRc reqpkt request) := by
  refine tracks_preInit (tracks_pos ?_) fun rc hrc => tracks_neg hrc (guarded_fail img rfl)
  refine tracks_virtToLin (fun _ => tracks_pos ?_) fun rc hrc =>
    tracks_neg hrc (guarded_fail img rfl)
  refine tracks_virtToLin (fun cmd => tracks_pos ?_) fun rc hrc =>
    tracks_neg hrc (guarded_fail img rfl)
  refine tracks_virtToLin (fun szParm => tracks_pos ?_) fun rc hrc =>
    tracks_neg hrc (guarded_fail img rfl)
  refine tracks_lockSegments img (fun a b => tracks_pos ?_)
    (fun rc hrc => tracks_neg hrc (guarded_fail img rfl))
    fun a rc hrc => tracks_neg hrc (guarded_fail img rfl)
  -- the error branches of the requests are never taken
  refine tracks_security (fun cf c _ => tracks_pos ?_) fun cf c hrc => absurd rfl hrc
  refine tracks_security (fun cf' d _ => tracks_pos ?_) fun cf' d hrc => absurd rfl hrc
  exact tracks_banner guardStep_silent (guarded_done img a b c d cf cf')

variable {img mem}

/-- **The SES driver claims no protection that it does not have** exactly when the kernel refuses no
    request. -/
theorem sec32InitBase_iff {reqpkt : PTR16} {request out : ReqpktInit} {tr : List BaseEvent}
    {status : BitVec 32}
    (h : Runs baseKernel () (sec32InitBase img mem devHlp32SecurityRc reqpkt request) tr
      (status, out) ()) :
    ClaimsTrue img tr status out ↔ tr.any refused = false := by
  have hg : Guarded img (tr.filter guards) status := by
    have hsound := (sec32InitBase_tracks img mem reqpkt request).sound h
    rwa [foldl_guardStep] at hsound
  constructor
  · intro hclaims
    by_cases hs : status &&& STERR = 0
    · obtain ⟨a, b, c, d, htr⟩ := hclaims.success hs
      rw [← any_refused_filter, htr, any_refused_guarded]
      rfl
    · rw [← any_refused_filter]
      exact hg.error hs
  · intro hno
    refine ⟨fun hs => ?_, fun href => absurd (hno.symm.trans href) Bool.false_ne_true⟩
    obtain ⟨a, b, c, d, cfImport, cfExport, htr⟩ := hg.success hs
    rw [← any_refused_filter, htr, any_refused_guarded, Bool.or_eq_false_iff] at hno
    obtain ⟨rfl, rfl⟩ := hno
    exact ⟨a, b, c, d, htr⟩

/-- A kernel that grants everything, or refuses every request to the security helpers. -/
def securityKernel (refuse : Bool) (w : Wrapper) (_ : List (BitVec 32)) : Bool × BitVec 32 :=
  (refuse && w = .security, 87)

theorem securityKernel_error (refuse : Bool) (w : Wrapper) (args : List (BitVec 32)) :
    (securityKernel refuse w args).1 = true → I386.low (securityKernel refuse w args).2 ≠ 0 :=
  fun _ => (by decide : I386.low (87 : BitVec 32) ≠ 0)

theorem sec32InitBase_sample : ∃ tr status out,
    Runs baseKernel ()
      (sec32InitBase sampleImage sampleMemory devHlp32SecurityRc 0 sampleRequest) tr
      (status, out) () ∧ status &&& STERR = 0 ∧ ClaimsTrue sampleImage tr status out := by
  have hrun := Runs.answer (answers_baseKernel (securityKernel_error false))
    (sec32InitBase sampleImage sampleMemory devHlp32SecurityRc 0 sampleRequest)
  exact ⟨_, _, _, hrun, by decide, (sec32InitBase_iff hrun).mpr (by decide)⟩

/-- The kernel refuses both requests, and the driver stays loaded with its ends set. -/
theorem sec32InitBase_refused : ∃ tr status out,
    Runs baseKernel ()
      (sec32InitBase sampleImage sampleMemory devHlp32SecurityRc 0 sampleRequest) tr
      (status, out) () ∧
    tr.any refused = true ∧ status = STDON ∧ out.codeend = sampleImage.codeend ∧
    out.dataend = sampleImage.dataend ∧ ¬ ClaimsTrue sampleImage tr status out := by
  have hrun := Runs.answer (answers_baseKernel (securityKernel_error true))
    (sec32InitBase sampleImage sampleMemory devHlp32SecurityRc 0 sampleRequest)
  refine ⟨_, _, _, hrun, by decide, by decide, by decide, by decide, fun h => ?_⟩
  exact absurd (h.error (by decide)).1 (by decide)

end Mwdd32.Skeleton
