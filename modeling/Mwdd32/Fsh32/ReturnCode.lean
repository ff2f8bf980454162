import Mwdd32.Fsh32.Wrappers

/-!
# Return codes of the FSH32 wrappers

A 16-bit helper returns its result in AX and leaves anything in the high word of EAX.

* `rc_normalised_iff`: the wrappers that return an `int` extend AX with zeroes, except for
  `fsh32_forcenoswap`, which returns EAX.
-/

namespace Mwdd32.Fsh32

open ByteMem Interaction I386 Opnd Reg

/-- The wrappers that return an `int`: all but `fsh32_removeshare` -/
inductive IntWrapper
  | dovolio
  | fsh (w : Helper) (hw : w ≠ .removeshare)

/-- The EAX that `FSH_DOVOLIO` leaves, if it is called -/
def Dovolio.helperEax (tr : List DovolioEvent) : Option (BitVec 32) :=
  (tr.find? fun e => e.1.1 = .fshDovolio).map fun e => e.2.reg .eax

variable (base : BitVec 16 → Addr) (ra : BitVec 32) (devHlp : Dovolio.Call → BitVec 32)

/-- A wrapper was called, its 16-bit helper left `eax`, if it was called, all its other calls
    succeeded if and only if `others` holds, and it returned `rc`. -/
inductive Called : IntWrapper → Option (BitVec 32) → Prop → BitVec 32 → Prop
  | dovolio {c u : Cpu} {tr : List Dovolio.DovolioEvent} : Dovolio.Layout base ra c →
      Runs (Dovolio.kernel base ra (Dovolio.pcSec base ra c)) () (Dovolio.exec devHlp base ra c) tr
        (some u) () →
      Called .dovolio (Dovolio.helperEax tr)
        (∀ e ∈ tr, e.1.1 ≠ .fshDovolio → Dovolio.Succeeded e) (u.reg .eax)
  | fsh {w : Helper} {c c1 c2 u : Cpu} (hw : w ≠ .removeshare) :
      (∀ o ∈ w.outputs, w.Outside base ra c o) →
      Runs (Helper.pascal base ra) () (w.exec base ra c) [⟨(w, c1), c2⟩] (some u) () →
      Called (.fsh w hw) (some (c2.reg .eax)) True (u.reg .eax)

/-- The result is a 16-bit number and, if the other calls succeeded, 0 when AX is. -/
def Normalised (eax : Option (BitVec 32)) (others : Prop) (rc : BitVec 32) : Prop :=
  0 ≤ rc.toInt ∧ rc.toInt ≤ 65535 ∧ (others → ∃ x ∈ eax, rc = 0 ↔ low x = 0)

variable {base ra devHlp}

theorem high_eq_zero_iff (x : BitVec 32) : high x = 0 ↔ x.toNat < 2 ^ 16 := by
  rw [high, ← BitVec.toNat_inj, BitVec.toNat_ushiftRight, Nat.shiftRight_eq_div_pow]
  simp

theorem toInt_range_iff (x : BitVec 32) : 0 ≤ x.toInt ∧ x.toInt ≤ 65535 ↔ high x = 0 := by
  have hx := x.isLt
  rw [high_eq_zero_iff, BitVec.toInt_eq_toNat_cond]
  split_ifs <;> omega

theorem high_low (x : BitVec 32) : high (low x) = 0 := by
  rw [high_eq_zero_iff, toNat_low]
  omega

theorem low_eq_self {x : BitVec 32} (h : high x = 0) : low x = x := by
  apply BitVec.eq_of_toNat_eq
  rw [toNat_low, Nat.mod_eq_of_lt ((high_eq_zero_iff x).mp h)]

/-- What `movzx eax, ax` leaves. -/
theorem normalised_low (x : BitVec 32) (others : Prop) : Normalised (some x) others (low x) := by
  obtain ⟨h0, h1⟩ := (toInt_range_iff (low x)).mpr (high_low x)
  exact ⟨h0, h1, fun _ => ⟨x, rfl, Iff.rfl⟩⟩

theorem normalised_self_iff (x : BitVec 32) : Normalised (some x) True x ↔ high x = 0 := by
  constructor
  · rintro ⟨h0, h1, -⟩
    exact (toInt_range_iff x).mp ⟨h0, h1⟩
  · intro h
    have hn := normalised_low x True
    rwa [low_eq_self h] at hn

/-- `fsh32_dovolio` ends with `movzx eax, ax` on each of its courses. -/
theorem dovolio_normalised {c u : Cpu} {tr : List Dovolio.DovolioEvent}
    (h : Dovolio.Course base ra c u tr) :
    Normalised (Dovolio.helperEax tr) (∀ e ∈ tr, e.1.1 ≠ .fshDovolio → Dovolio.Succeeded e)
      (u.reg .eax) := by
  cases h with
  | @refused a a' _ acf _ heax =>
    obtain ⟨h0, h1⟩ := (toInt_range_iff _).mpr (high_low (a'.reg .eax))
    rw [heax]
    refine ⟨h0, h1, fun hs => ?_⟩
    simp [Dovolio.Succeeded, acf] at hs
  | @unmapped a a' l l' f f' sel n _ _ _ _ _ lcf _ _ _ heax =>
    rw [heax]
    have hrange := (toInt_range_iff (if f'.cf then low (f'.reg .eax) else low (l'.reg .eax))).mpr
      (by split_ifs <;> exact high_low _)
    refine ⟨hrange.1, hrange.2, fun hs => ?_⟩
    simp [Dovolio.Succeeded, lcf] at hs
  | @called a a' l l' d d' f f' sel n _ _ _ _ _ _ _ ht =>
    rw [ht.eax]
    cases hf : f'.cf with
    | true =>
      obtain ⟨h0, h1⟩ := (toInt_range_iff _).mpr (high_low (f'.reg .eax))
      refine ⟨by simpa using h0, by simpa using h1, fun hs => ?_⟩
      simp [Dovolio.Succeeded, hf] at hs
    | false => exact normalised_low (d'.reg .eax) _

/-- **Return codes of the FSH32 wrappers.** -/
theorem rc_normalised_iff {w : IntWrapper} {eax : Option (BitVec 32)} {others : Prop}
    {rc : BitVec 32} (h : Called base ra devHlp w eax others rc) :
    Normalised eax others rc ↔
      (w = .fsh .forcenoswap (by decide) → ∀ x ∈ eax, high x = 0) := by
  cases h with
  | dovolio hl hrun =>
    obtain ⟨u, hu, -, hcourse⟩ := Dovolio.course hl hrun
    cases hu
    exact iff_of_true (dovolio_normalised hcourse) (by simp)
  | @fsh w c c1 c2 u hw hout hrun =>
    obtain ⟨-, d1, d2, v, htr, hv, ho⟩ := (Helper.spec w c hout).sound hrun
    cases htr
    cases hv
    rw [ho.rc]
    by_cases hf : w = .forcenoswap
    · subst hf
      simp [Helper.rc, normalised_self_iff]
    · have hrc : w.rc (c2.reg .eax) = low (c2.reg .eax) := by
        cases w <;> first | rfl | contradiction
      rw [hrc]
      exact iff_of_true (normalised_low _ _) (by simp [hf])

/-- A wrapper can be called with a helper that leaves any EAX. -/
theorem called_fsh {w : Helper} (hw : w ≠ .removeshare) {c : Cpu}
    (hout : ∀ o ∈ w.outputs, w.Outside base ra c o) (eax : BitVec 32) :
    Called base ra devHlp (.fsh w hw) (some eax) True (w.rc eax) := by
  obtain ⟨tr, res, hrun, heax⟩ := Helper.runs_returning eax w c
  obtain ⟨-, c1, c2, u, rfl, rfl, ho⟩ := (Helper.spec w c hout).sound hrun
  have hc2 : c2.reg .eax = eax := heax _ List.mem_cons_self
  have h : Called base ra devHlp (.fsh w hw) (some (c2.reg .eax)) True (u.reg .eax) :=
    .fsh hw hout hrun
  rwa [ho.rc, hc2] at h

theorem called_forcenoswap (eax : BitVec 32) :
    Called base ra devHlp (.fsh .forcenoswap (by decide)) (some eax) True eax :=
  called_fsh (c := Helper.sampleCpu) (by decide) (by simp [Helper.outputs]) eax

/-- `fsh32_getvolparm` with a helper that fails and leaves a 7 above its return code -/
theorem rc_normalised_sample :
    Called (fun _ => 0) 0 (fun _ => 0) (.fsh .getvolparm (by decide)) (some 0x70057) True 0x57 ∧
    Normalised (some 0x70057) True 0x57 := by
  have h : Called (fun _ => 0) 0 (fun _ => 0) (.fsh .getvolparm (by decide))
      (some 0x70057) True 0x57 :=
    called_fsh (by decide) (Helper.sample_outside (.inr rfl)) 0x70057
  exact ⟨h, (rc_normalised_iff h).mpr (by simp)⟩

/-- `fsh32_forcenoswap` returns 0x10000 when the helper leaves AX = 0 and a 1 above it. -/
theorem rc_normalised_failing_sample :
    Called (fun _ => 0) 0 (fun _ => 0) (.fsh .forcenoswap (by decide)) (some 0x10000) True 0x10000 ∧
    ¬ Normalised (some 0x10000) True 0x10000 := by
  refine ⟨called_forcenoswap 0x10000, fun h => ?_⟩
  exact absurd ((normalised_self_iff 0x10000).mp h) (by decide)

end Mwdd32.Fsh32
