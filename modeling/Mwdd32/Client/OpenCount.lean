import Mwdd32.Client.Init

/-!
# Handles on mwdd32

`mwdd32_open` and `mwdd32_close` (`mwdd32/mwdd32_open.c`, `mwdd32/mwdd32_close.c`) count
the opens of mwdd32. The stubs close their handle after an IOCTL that succeeds, and keep it
open after one that fails.

* `closes_eq_iff`: one run closes what it opened if and only if its IOCTL did not fail.
* `openCount_eq`: what a sequence of runs leaves in `open_count`.
* `noLeak_iff`: no sequence leaks a handle, if and only if no IOCTL in it failed.
-/

namespace Mwdd32.Client

open ByteMem Interaction Server

/-! ## The server -/

/-- `mwdd32_open(reqpkt)` with the return code of `DevHlp32_VirtToLin`: `open_count` and the
    status -/
def mwdd32Open (rc openCount : BitVec 32) : BitVec 32 × BitVec 32 :=
  if rc = NO_ERROR then (openCount + 1, STDON)
  else (openCount, STERR + ERROR_I24_INVALID_PARAMETER ||| STDON)

/-- `mwdd32_close(reqpkt)` -/
def mwdd32Close (rc openCount : BitVec 32) : BitVec 32 × BitVec 32 :=
  if rc = NO_ERROR then (openCount - 1, STDON)
  else (openCount, STERR + ERROR_I24_INVALID_PARAMETER ||| STDON)

/-- A call of DOS and its answer -/
abbrev DosEvent := Event DosOp DosRes

/-- `open_count` after a call of a stub: an open that succeeds has reached `mwdd32_open`, a close
    reaches `mwdd32_close`, both with a valid packet. -/
def countStep (openCount : BitVec 32) : DosEvent → BitVec 32
  | ⟨.dos16Open _ _ _, ax, _⟩ => if ax = 0 then (mwdd32Open NO_ERROR openCount).1 else openCount
  | ⟨.dos16DevIoctl _ _ _ _ _ _, _⟩ => openCount
  | ⟨.dos16Close _ _, _⟩ => (mwdd32Close NO_ERROR openCount).1

/-! ## The stubs -/

section

variable (base : BitVec 16 → Addr) (S : Stub)

/-- `DOS16DEVIOCTL` keeps the stub's file handle; any call may return anything. -/
def keepsHandle : Env Unit DosOp DosRes := fun _ op res _ =>
  match op with
  | .dos16DevIoctl m _ _ _ _ _ => AgreesOn m res.2 (S.at base (-2)) 2
  | _ => True

/-- The handles that a run has opened, -/
def opens (tr : List DosEvent) : List (BitVec 16) :=
  tr.filterMap fun
    | ⟨.dos16Open _ _ _, ax, m⟩ => if ax = 0 then some (fileHandle base S m) else none
    | _ => none

/-- those that it has closed, -/
def closes (tr : List DosEvent) : List (BitVec 16) :=
  tr.filterMap fun
    | ⟨.dos16Close _ fileHandle, _⟩ => some fileHandle
    | _ => none

/-- and the errors of its IOCTL. -/
def ioctlErrors (tr : List DosEvent) : List (BitVec 16) :=
  tr.filterMap fun
    | ⟨.dos16DevIoctl _ _ _ _ _ _, ax, _⟩ => if ax = 0 then none else some ax
    | _ => none

/-- A run of one of the two stubs, in a frame of 24 bytes. -/
structure IsRun (tr : List DosEvent) : Prop where
  bp : 24 ≤ S.bp.toNat
  run : ∃ m ax, Runs (keepsHandle base S) () (fsInit base S m) tr ax () ∨
    Runs (keepsHandle base S) () (deviceInit base S m) tr ax ()

end

variable {base : BitVec 16 → Addr} {S : Stub} {m : Mem} {tr tr' : List DosEvent}

/-- Filling the buffers leaves the handle alone. -/
theorem fileHandle_fillFsd (hbp : 24 ≤ S.bp.toNat) :
    fileHandle base S (fillFsd base S m) = fileHandle base S m := by
  have h4 := at_eq base hbp (d := -20) (k := 4) (by decide) rfl
  have h6 := at_eq base hbp (d := -18) (k := 6) (by decide) rfl
  have h8 := at_eq base hbp (d := -16) (k := 8) (by decide) rfl
  have h12 := at_eq base hbp (d := -12) (k := 12) (by decide) rfl
  have h16 := at_eq base hbp (d := -8) (k := 16) (by decide) rfl
  have h22 := at_eq base hbp (d := -2) (k := 22) (by decide) rfl
  obtain ⟨s, x, hF⟩ : ∃ s x, S.at base (-24) = s + x := ⟨_, _, at_def _⟩
  unfold fillFsd fileHandle
  rw [h4, h6, h8, h12, h16, h22, hF]
  simp [BitVec.add_assoc]

theorem fileHandle_fillDevice (hbp : 24 ≤ S.bp.toNat) :
    fileHandle base S (fillDevice base S m) = fileHandle base S m := by
  have h4 := at_eq base hbp (d := -20) (k := 4) (by decide) rfl
  have h8 := at_eq base hbp (d := -16) (k := 8) (by decide) rfl
  have h12 := at_eq base hbp (d := -12) (k := 12) (by decide) rfl
  have h16 := at_eq base hbp (d := -8) (k := 16) (by decide) rfl
  have h22 := at_eq base hbp (d := -2) (k := 22) (by decide) rfl
  obtain ⟨s, x, hF⟩ : ∃ s x, S.at base (-24) = s + x := ⟨_, _, at_def _⟩
  unfold fillDevice fileHandle
  rw [h4, h8, h12, h16, h22, hF]
  simp [BitVec.add_assoc]

/-- A run closes what it opened if and only if its IOCTL did not fail. -/
def ClosesUnlessError (base : BitVec 16 → Addr) (S : Stub) (tr : List DosEvent) : Prop :=
  closes tr = opens base S tr ↔ ioctlErrors tr = []

section Traces

variable {m₁ m₂ m₃ m₄ m₅ : Mem} {ax ax₁ : BitVec 16} {p q p₁ q₁ : PTR16}
  {func cat h h₁ : BitVec 16}

theorem open_failed (hax : ax ≠ 0) :
    ClosesUnlessError base S [⟨.dos16Open m p q, ax, m₁⟩] := by
  simpa [ClosesUnlessError, opens, closes, ioctlErrors] using hax

/-- The branch that leaves the handle open. -/
theorem ioctl_failed (hax : ax = 0) (hax₁ : ax₁ ≠ 0) : ClosesUnlessError base S
    [⟨.dos16Open m p q, ax, m₁⟩, ⟨.dos16DevIoctl m₂ p₁ q₁ func cat h, ax₁, m₃⟩] := by
  subst hax
  refine iff_of_false (fun hclosed => ?_) fun hnone => ?_
  · cases hclosed
  · simp [ioctlErrors] at hnone
    exact hax₁ hnone

theorem ioctl_done (hax : ax = 0) (hax₁ : ax₁ = 0) (hh : h₁ = fileHandle base S m₁)
    {res : BitVec 16 × Mem} : ClosesUnlessError base S
    [⟨.dos16Open m p q, ax, m₁⟩, ⟨.dos16DevIoctl m₂ p₁ q₁ func cat h, ax₁, m₃⟩,
      ⟨.dos16Close m₄ h₁, res⟩] := by
  subst hax hax₁ hh
  exact iff_of_true rfl rfl

end Traces

theorem handle_kept {m m' : Mem} (hm : AgreesOn m m' (S.at base (-2)) 2) :
    fileHandle base S m' = fileHandle base S m := by
  rw [fileHandle, fileHandle, read_congr hm]

theorem fsInit_closes (hbp : 24 ≤ S.bp.toNat) :
    Wp (keepsHandle base S) (fun _ _ => True) (fun tr _ _ => ClosesUnlessError base S tr) [] ()
      (fsInit base S m) := by
  rintro ⟨ax, m⟩ _ -
  refine ⟨trivial, wp_ite (fun hax => ?_) fun hax => open_failed hax⟩
  intro ⟨ax₁, m₁⟩ _ hm
  refine ⟨trivial, wp_ite (fun hax₁ => ?_) fun hax₁ => ioctl_failed hax hax₁⟩
  have hh := (handle_kept hm).trans (fileHandle_fillFsd hbp)
  rintro ⟨ax₂, m₂⟩ _ -
  refine ⟨trivial, wp_ite (fun _ => wp_ite (fun _ => ?_) fun _ => ?_) fun _ => ?_⟩
  all_goals exact ioctl_done hax hax₁ hh

theorem deviceInit_closes (hbp : 24 ≤ S.bp.toNat) :
    Wp (keepsHandle base S) (fun _ _ => True) (fun tr _ _ => ClosesUnlessError base S tr) [] ()
      (deviceInit base S m) := by
  rintro ⟨ax, m⟩ _ -
  refine ⟨trivial, wp_ite (fun hax => ?_) fun hax => open_failed hax⟩
  intro ⟨ax₁, m₁⟩ _ hm
  refine ⟨trivial, wp_ite (fun hax₁ => ?_) fun hax₁ => ioctl_failed hax hax₁⟩
  have hh := (handle_kept hm).trans (fileHandle_fillDevice hbp)
  rintro ⟨ax₂, m₂⟩ _ -
  refine ⟨trivial, wp_ite (fun _ => wp_ite (fun _ => ?_) fun _ => ?_) fun _ => ?_⟩
  all_goals exact ioctl_done hax hax₁ hh

theorem closes_eq_iff (h : IsRun base S tr) :
    closes tr = opens base S tr ↔ ioctlErrors tr = [] := by
  obtain ⟨hbp, m, ax, hrun | hrun⟩ := h
  · exact ((fsInit_closes hbp).sound hrun).2
  · exact ((deviceInit_closes hbp).sound hrun).2

/-! ## Sequences of runs -/

/-- `open_count` after the runs -/
def openCount (count : BitVec 32) (runs : List (Stub × List DosEvent)) : BitVec 32 :=
  (runs.flatMap Prod.snd).foldl countStep count

/-- One run changes the count by what it has opened and closed. -/
theorem foldl_countStep (base : BitVec 16 → Addr) (S : Stub) (tr : List DosEvent)
    (count : BitVec 32) : tr.foldl countStep count =
      count + BitVec.ofNat 32 (opens base S tr).length - BitVec.ofNat 32 (closes tr).length := by
  induction tr generalizing count with
  | nil => simp [opens, closes]
  | cons e tr ih =>
    rw [List.foldl_cons, ih]
    obtain ⟨op, ax, m⟩ := e
    cases op with
    | dos16Open m₀ p q =>
      by_cases hax : ax = 0
      · subst hax
        have hcons : opens base S (⟨.dos16Open m₀ p q, 0, m⟩ :: tr) =
            fileHandle base S m :: opens base S tr := rfl
        rw [hcons, List.length_cons, BitVec.ofNat_add]
        show count + 1 + _ - _ = count + (_ + 1) - BitVec.ofNat 32 (closes tr).length
        ring
      · have hcons : opens base S (⟨.dos16Open m₀ p q, ax, m⟩ :: tr) = opens base S tr :=
          List.filterMap_cons_none (if_neg hax)
        rw [hcons, show countStep count ⟨.dos16Open m₀ p q, ax, m⟩ = count from if_neg hax]
        rfl
    | dos16DevIoctl m₀ p q func cat h => rfl
    | dos16Close m₀ h =>
      have hcons : closes (⟨.dos16Close m₀ h, ax, m⟩ :: tr) = h :: closes tr := rfl
      rw [hcons, List.length_cons, BitVec.ofNat_add]
      show count - 1 + BitVec.ofNat 32 (opens base S tr).length - _ =
        count + BitVec.ofNat 32 (opens base S tr).length - (_ + 1)
      ring

/-- A run that closes what it opened leaves the count as it was. -/
theorem foldl_countStep_of_closes {count : BitVec 32} (h : closes tr = opens base S tr) :
    tr.foldl countStep count = count := by
  rw [foldl_countStep base S, h]
  ring

/-- In a sequence of runs each one closes what it opened, and mwdd32's count is what it was. -/
def NoLeak (base : BitVec 16 → Addr) (runs : List (Stub × List DosEvent)) : Prop :=
  (∀ r ∈ runs, closes r.2 = opens base r.1 r.2) ∧ ∀ count, openCount count runs = count

theorem openCount_of_closes {runs : List (Stub × List DosEvent)}
    (h : ∀ r ∈ runs, closes r.2 = opens base r.1 r.2) (count : BitVec 32) :
    openCount count runs = count := by
  induction runs with
  | nil => rfl
  | cons r runs ih =>
    have hr := h r List.mem_cons_self
    rw [openCount, List.flatMap_cons, List.foldl_append, foldl_countStep_of_closes hr]
    exact ih fun r' hr' => h r' (List.mem_cons_of_mem _ hr')

/-- **Handles.** A sequence of initialisations leaks no handle on mwdd32, if and only if no
    IOCTL in it failed. -/
theorem noLeak_iff {runs : List (Stub × List DosEvent)} (h : ∀ r ∈ runs, IsRun base r.1 r.2) :
    NoLeak base runs ↔ ∀ r ∈ runs, ioctlErrors r.2 = [] := by
  constructor
  · rintro ⟨hcloses, -⟩ r hr
    exact (closes_eq_iff (h r hr)).mp (hcloses r hr)
  · intro hnone
    have hcloses : ∀ r ∈ runs, closes r.2 = opens base r.1 r.2 := fun r hr =>
      (closes_eq_iff (h r hr)).mpr (hnone r hr)
    exact ⟨hcloses, openCount_of_closes hcloses⟩

/-- Calls that succeed, but for an IOCTL that returns `ax`; the handle is 5. -/
def sampleDos (ax : BitVec 16) : (op : DosOp) → DosRes op
  | .dos16Open m _ _ => (0, write m 0x10FFE 2 5)
  | .dos16DevIoctl m _ _ _ _ _ => (ax, m)
  | .dos16Close m _ => (0, m)

/-- The run of `FS_INIT` with these answers. -/
def sampleRun (ax : BitVec 16) : List DosEvent :=
  ((fsInit stubBase sampleStub fun _ => 0).answer (sampleDos ax)).1

theorem sampleRun_isRun (ax : BitVec 16) : IsRun stubBase sampleStub (sampleRun ax) := by
  refine ⟨by decide, fun _ => 0, _, .inl (Runs.answer (f := sampleDos ax) ?_ _)⟩
  rintro (_ | _ | _)
  · trivial
  · exact AgreesOn.refl _ _ _
  · trivial

theorem noLeak_sample : NoLeak stubBase [(sampleStub, sampleRun 0)] := by
  refine (noLeak_iff ?_).mpr ?_
  · simpa using sampleRun_isRun 0
  · decide

/-- An IOCTL that fails leaves handle 5 open, and the count at 1. -/
theorem leak_sample : IsRun stubBase sampleStub (sampleRun 31) ∧
    opens stubBase sampleStub (sampleRun 31) = [5] ∧ closes (sampleRun 31) = [] ∧
    openCount 0 [(sampleStub, sampleRun 31)] = 1 :=
  ⟨sampleRun_isRun 31, by decide, by decide, by decide⟩

end Mwdd32.Client
