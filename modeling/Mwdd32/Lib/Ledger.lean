import Mathlib.Data.Set.Lattice
import Mathlib.Logic.Function.Basic

/-!
# Who owns what

Resources that are allocated one at a time and have one owner each.

* `Accounted used owns`: what is in use is what the owners have, and no resource has two.
* `Accounted.grant`, `Accounted.release`: the two ways in which the ledger changes.
-/

namespace Ledger

variable {Owner R : Type*} [DecidableEq Owner]

/-- Every resource in use has one owner, and no other resource has one. -/
structure Accounted (used : Set R) (owns : Owner → Set R) : Prop where
  used : used = ⋃ o, owns o
  unique : ∀ {o o' r}, r ∈ owns o → r ∈ owns o' → o = o'

variable {used : Set R} {owns : Owner → Set R} {o : Owner} {r : R}

omit [DecidableEq Owner] in
theorem Accounted.mem_used (h : Accounted used owns) (hr : r ∈ owns o) : r ∈ used := by
  rw [h.used]
  exact Set.mem_iUnion_of_mem o hr

theorem mem_update {s : Set R} {o' : Owner} {r' : R} :
    r' ∈ Function.update owns o s o' ↔ o' = o ∧ r' ∈ s ∨ o' ≠ o ∧ r' ∈ owns o' := by
  by_cases ho : o' = o
  · subst ho
    simp
  · simp [ho]

theorem Accounted.grant (h : Accounted used owns) (o : Owner) (hr : r ∉ used) :
    Accounted (insert r used) (Function.update owns o (insert r (owns o))) := by
  have hfresh : ∀ o', r ∉ owns o' := fun o' ho => hr (h.mem_used ho)
  have hmem : ∀ o' r', r' ∈ Function.update owns o (insert r (owns o)) o' ↔
      o' = o ∧ r' = r ∨ r' ∈ owns o' := by
    intro o' r'
    rw [mem_update, Set.mem_insert_iff]
    by_cases ho : o' = o
    · subst ho
      simp
    · simp [ho]
  refine ⟨?_, fun {o₁ o₂ r'} h₁ h₂ => ?_⟩
  · ext r'
    simp only [Set.mem_insert_iff, h.used, Set.mem_iUnion, hmem]
    constructor
    · rintro (rfl | ⟨o', ho'⟩)
      · exact ⟨o, .inl ⟨rfl, rfl⟩⟩
      · exact ⟨o', .inr ho'⟩
    · rintro ⟨o', ⟨-, rfl⟩ | ho'⟩
      · exact .inl rfl
      · exact .inr ⟨o', ho'⟩
  · rw [hmem] at h₁ h₂
    rcases h₁ with ⟨rfl, rfl⟩ | h₁
    · rcases h₂ with ⟨rfl, -⟩ | h₂
      · rfl
      · exact absurd h₂ (hfresh o₂)
    · rcases h₂ with ⟨rfl, rfl⟩ | h₂
      · exact absurd h₁ (hfresh o₁)
      · exact h.unique h₁ h₂

theorem Accounted.release (h : Accounted used owns) (hr : r ∈ owns o) :
    Accounted (used \ {r}) (Function.update owns o (owns o \ {r})) := by
  have hmem : ∀ o' r', r' ∈ Function.update owns o (owns o \ {r}) o' ↔ r' ∈ owns o' ∧ r' ≠ r := by
    intro o' r'
    rw [mem_update, Set.mem_sdiff, Set.mem_singleton_iff]
    by_cases ho : o' = o
    · subst ho
      simp
    · have hne : r' ∈ owns o' → r' ≠ r := by
        rintro hr' rfl
        exact ho (h.unique hr' hr)
      simp only [ho, false_and, false_or, ne_eq, not_false_eq_true, true_and]
      exact ⟨fun hr' => ⟨hr', hne hr'⟩, And.left⟩
  refine ⟨?_, fun {o₁ o₂ r'} h₁ h₂ => ?_⟩
  · ext r'
    simp only [Set.mem_sdiff, Set.mem_singleton_iff, h.used, Set.mem_iUnion, hmem]
    exact ⟨fun ⟨⟨o', ho'⟩, hne⟩ => ⟨o', ho', hne⟩, fun ⟨o', ho', hne⟩ => ⟨⟨o', ho'⟩, hne⟩⟩
  · exact h.unique ((hmem o₁ r').mp h₁).1 ((hmem o₂ r').mp h₂).1

end Ledger
