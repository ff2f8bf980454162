import Mwdd32.DevHlp.Exec

/-!
# GDT selectors

What a run of assembly code does with the selectors of the GDT, and
`DevHlp32_AllocGDTSelector` (`devhlp32/DevHlp32_AllocGDTSelector.c`), which allocates an array of
them one at a time and frees those that it got when one allocation fails.

* `allocGDTSelector_all_or_nothing`: the array is filled, or no selector stays allocated.
-/

namespace Mwdd32.DevHlp

open ByteMem Interaction I386

/-! ## Selectors in a run -/

section Trace

variable {X : Type} [DecidableEq X] (base : BitVec 16 → Addr) (x : X)
  (tr : List (Event (X × Cpu) fun _ => Cpu))

/-- The selectors that the kernel allocated in the calls `x`: it stored each at ES:DI. -/
def granted : List (BitVec 32) :=
  (tr.filter fun e => e.1.1 = x ∧ e.2.cf = false).map
    fun e => read e.2.mem (base (e.1.2.sreg .es) + low (e.1.2.reg .edi)) 2

/-- The selectors that the calls `x` asked to free, in AX. -/
def freed : List (BitVec 32) :=
  (tr.filter fun e => e.1.1 = x).map fun e => low (e.1.2.reg .eax)

/-- Some call `x` returned with the carry flag set. -/
def Failed : Prop := ∃ e ∈ tr, e.1.1 = x ∧ e.2.cf = true

end Trace

/-! ## DevHlp32_AllocGDTSelector -/

namespace AllocGDTSelector

/-- The DevHlp services that the routine calls through their wrappers -/
inductive Op
  | allocOne
  | free (sel : BitVec 16)

/-- A service returns the carry flag and `eax`; a selector comes with it if the carry flag is
    clear. -/
def Op.Res : Op → Type
  | .allocOne => Bool × BitVec 32 × BitVec 16
  | .free _ => Bool × BitVec 32

/-- The return code, and `sel` -/
def devHlp32AllocOneGDTSelector : Prog Op Op.Res (BitVec 32 × BitVec 16) :=
  .call .allocOne fun r => .ret (Wrapper.rc (fun _ => 0) r.1 r.2.1 .allocOneGDTSelector, r.2.2)

/-- The return code -/
def devHlp32FreeGDTSelector (sel : BitVec 16) : Prog Op Op.Res (BitVec 32) :=
  .call (.free sel) fun r => .ret (Wrapper.rc (fun _ => 0) r.1 r.2 .freeGDTSelector)

variable (psel : Addr)

/-- `psel[i]` -/
def elem (i : ℕ) : Addr := psel + BitVec.ofNat 32 (2 * i)

/-- The first loop, with `todo = count - i` iterations to go: `rc`, `i` and the memory behind it -/
def allocate : (todo i : ℕ) → Mem → Prog Op Op.Res (BitVec 32 × ℕ × Mem)
  | 0, i, m => .ret (NO_ERROR, i, m)
  | todo + 1, i, m => do
    let (rc, sel) ← devHlp32AllocOneGDTSelector
    if rc = NO_ERROR then
      allocate todo (i + 1) (write m (elem psel i) 2 (sel.setWidth 32))
    else
      return (rc, i, m)

/-- The second loop -/
def release (m : Mem) : (i : ℕ) → Prog Op Op.Res Unit
  | 0 => .ret ()
  | i + 1 => do
    let _ ← devHlp32FreeGDTSelector ((read m (elem psel i) 2).setWidth 16)
    release m i

/-- `DevHlp32_AllocGDTSelector.c`, lines 37–59: the return code and the memory. `count` is a
    signed integer. -/
def devHlp32AllocGDTSelector (count : BitVec 32) (m : Mem) :
    Prog Op Op.Res (BitVec 32 × Mem) := do
  let (rc, i, m) ← allocate psel count.toInt.toNat 0 m
  if rc ≠ NO_ERROR then
    release psel m i
  return (rc, m)

/-- The kernel, with the set of the allocated selectors. It may refuse an allocation, with a
    non-zero AX, and grants a selector that is not allocated; to free one that is allocated
    succeeds. -/
def gdt : Env (Set (BitVec 16)) Op Op.Res
  | S, .allocOne, (cf, eax, sel), S' =>
    if cf then low eax ≠ 0 ∧ S' = S else sel ∉ S ∧ S' = insert sel S
  | S, .free sel, (cf, _), S' => (sel ∈ S → cf = false ∧ S' = S \ {sel}) ∧ (sel ∉ S → S' = S)

/-- The selector that an event granted -/
def grantedBy : Event Op Op.Res → Option (BitVec 16)
  | ⟨.allocOne, false, _, sel⟩ => some sel
  | _ => none

/-- The selector that an event freed -/
def freedBy : Event Op Op.Res → Option (BitVec 16)
  | ⟨.free sel, _⟩ => some sel
  | _ => none

/-- `psel[0]` to `psel[n - 1]` -/
def selectors (m : Mem) (n : ℕ) : List (BitVec 16) :=
  (List.range n).map fun i => (read m (elem psel i) 2).setWidth 16

/-- All the selectors were allocated and are in the array. -/
structure Filled (S : Set (BitVec 16)) (m : Mem) (n : ℕ) (tr : List (Event Op Op.Res)) (m' : Mem)
    (S' : Set (BitVec 16)) : Prop where
  granted : tr.filterMap grantedBy = selectors psel m' n
  freed : tr.filterMap freedBy = []
  nodup : (selectors psel m' n).Nodup
  fresh : ∀ sel ∈ selectors psel m' n, sel ∉ S
  allocated : S' = S ∪ {sel | sel ∈ selectors psel m' n}
  beyond : AgreesOff m m' psel (2 * n)

/-- The allocation failed with `rc`, and what was allocated before it was freed. -/
structure RolledBack (S : Set (BitVec 16)) (tr : List (Event Op Op.Res)) (rc : BitVec 32)
    (S' : Set (BitVec 16)) : Prop where
  refused : ∃ pre post sel, tr = pre ++ ⟨.allocOne, true, rc, sel⟩ :: post
  freed : tr.filterMap freedBy = (tr.filterMap grantedBy).reverse
  nodup : (tr.filterMap grantedBy).Nodup
  allocated : S' = S

variable {psel} {S S' : Set (BitVec 16)} {m m' : Mem} {n i : ℕ} {h : List (Event Op Op.Res)}

theorem selectors_succ (m : Mem) (n : ℕ) :
    selectors psel m (n + 1) = selectors psel m n ++ [(read m (elem psel n) 2).setWidth 16] := by
  simp [selectors, List.range_succ]

/-- The elements of an array of less than 2 GiB do not overlap. -/
theorem apart_elem {j : ℕ} (hj : j < i) (hi : i < 2 ^ 31 - 1) :
    Apart (elem psel j) 2 (elem psel i) 2 := by
  have h1 : (elem psel j - psel).toNat = 2 * j := toNat_add_ofNat_sub_self _ (by omega)
  have h2 : (elem psel i - psel).toNat = 2 * i := toNat_add_ofNat_sub_self _ (by omega)
  have e1 : elem psel i - elem psel j = (elem psel i - psel) - (elem psel j - psel) := by ring
  have e2 : elem psel j - elem psel i = (elem psel j - psel) - (elem psel i - psel) := by ring
  unfold Apart
  rw [e1, e2, BitVec.toNat_sub (elem psel i - psel), BitVec.toNat_sub (elem psel j - psel), h1, h2]
  omega

/-- Storing an element does not change those before it. -/
theorem selectors_write (m : Mem) (v : BitVec 32) (hi : i < 2 ^ 31 - 1) :
    selectors psel (write m (elem psel i) 2 v) i = selectors psel m i := by
  apply List.map_congr_left
  intro j hj
  rw [read_write_of_apart (apart_elem (List.mem_range.mp hj) hi)]

theorem Filled.nil : Filled psel S m 0 [] m S := by
  refine ⟨rfl, rfl, List.nodup_nil, ?_, ?_, AgreesOff.refl _ _ _⟩
  · simp [selectors]
  · simp [selectors]

/-- One more selector -/
theorem Filled.grant (hf : Filled psel S m i h m' S') (hi : i < 2 ^ 31 - 1) {eax : BitVec 32}
    {sel : BitVec 16} (hsel : sel ∉ S') :
    Filled psel S m (i + 1) (h ++ [⟨.allocOne, false, eax, sel⟩])
      (write m' (elem psel i) 2 (sel.setWidth 32)) (insert sel S') := by
  have hsels : selectors psel (write m' (elem psel i) 2 (sel.setWidth 32)) (i + 1) =
      selectors psel m' i ++ [sel] := by
    rw [selectors_succ, selectors_write _ _ hi, read_write_self16]
    simp
  rw [hf.allocated, Set.mem_union, not_or] at hsel
  constructor
  · rw [hsels, ← hf.granted]
    simp [grantedBy]
  · rw [List.filterMap_append, hf.freed]
    rfl
  · rw [hsels, List.nodup_append]
    refine ⟨hf.nodup, List.nodup_singleton _, ?_⟩
    rintro a ha b hb rfl
    rw [List.mem_singleton] at hb
    exact hsel.2 (hb ▸ ha)
  · intro a ha
    rw [hsels, List.mem_append, List.mem_singleton] at ha
    rcases ha with ha | rfl
    · exact hf.fresh a ha
    · exact hsel.1
  · rw [hsels, hf.allocated]
    ext a
    simp [or_comm, or_left_comm]
  · have hw : Within (elem psel i) 2 psel (2 * (i + 1)) := by
      unfold Within
      rw [elem, toNat_add_ofNat_sub_self _ (by omega)]
      omega
    refine AgreesOff.write_within (hf.beyond.within ?_) hw
    simp

theorem allocate_wp (todo : ℕ) (hf : Filled psel S m i h m' S') (hi : i + todo ≤ 2 ^ 31 - 1) :
    Wp gdt (fun _ _ => True) (fun tr a S₁ =>
        (a.1 = NO_ERROR ∧ Filled psel S m (i + todo) tr a.2.2 S₁) ∨
        (a.1 ≠ NO_ERROR ∧ ∃ pre sel, tr = pre ++ [⟨.allocOne, true, a.1, sel⟩] ∧
          Filled psel S m a.2.1 pre a.2.2 S₁))
      h S' (allocate psel todo i m') := by
  induction todo generalizing i h m' S' with
  | zero => exact .inl ⟨rfl, hf⟩
  | succ todo ih =>
    intro ⟨cf, eax, sel⟩ S₁ hk
    refine ⟨trivial, ?_⟩
    cases cf with
    | true =>
      obtain ⟨hax, rfl⟩ : low eax ≠ 0 ∧ S₁ = S' := hk
      have hne : eax ≠ NO_ERROR := by
        rintro rfl
        exact hax low_zero
      refine wp_ite (fun h0 => absurd h0 hne) fun _ => .inr ⟨hne, h, sel, rfl, hf⟩
    | false =>
      obtain ⟨hsel, rfl⟩ : sel ∉ S' ∧ S₁ = insert sel S' := hk
      rw [show i + (todo + 1) = i + 1 + todo by omega]
      exact ih (hf.grant (by omega) hsel) (by omega)

/-- The second loop frees what the first one got, last first. -/
theorem release_wp (hnodup : (selectors psel m n).Nodup)
    (hfresh : ∀ sel ∈ selectors psel m n, sel ∉ S)
    (hS : S' = S ∪ {sel | sel ∈ selectors psel m n}) :
    Wp gdt (fun _ _ => True) (fun tr _ S₁ => S₁ = S ∧ ∃ post, tr = h ++ post ∧
        post.filterMap grantedBy = [] ∧ post.filterMap freedBy = (selectors psel m n).reverse)
      h S' (release psel m n) := by
  induction n generalizing h S' with
  | zero =>
    refine ⟨?_, [], by simp, rfl, rfl⟩
    rw [hS]
    simp [selectors]
  | succ n ih =>
    rw [selectors_succ] at hnodup hfresh hS
    rintro ⟨cf, eax⟩ S₁ ⟨hk, -⟩
    obtain ⟨-, rfl⟩ := hk (by simp [hS])
    rw [List.nodup_append] at hnodup
    refine ⟨trivial, wp_mono (ih hnodup.1 (fun sel hs => hfresh sel (by simp [hs])) ?_) ?_⟩
    · rw [hS]
      ext a
      have hx := hfresh _ (List.mem_append_right _ (List.mem_singleton_self _))
      have hne := fun ha => hnodup.2.2 a ha _ (List.mem_singleton_self _)
      simp only [Set.mem_sdiff, Set.mem_union, Set.mem_ofPred_eq, Set.mem_singleton_iff,
        List.mem_append, List.mem_singleton]
      constructor
      · rintro ⟨ha | ha | ha, hax⟩
        · exact .inl ha
        · exact .inr ha
        · exact absurd ha hax
      · rintro (ha | ha)
        · exact ⟨.inl ha, fun hax => hx (hax ▸ ha)⟩
        · exact ⟨.inr (.inl ha), hne ha⟩
    · rintro tr a S₂ ⟨rfl, post, rfl, hpg, hpf⟩
      refine ⟨rfl, ⟨_, _⟩ :: post, List.append_assoc _ _ _, ?_, ?_⟩
      · simpa [grantedBy] using hpg
      · simpa [freedBy, selectors_succ] using hpf

theorem exec_wp (psel : Addr) (count : BitVec 32) (S : Set (BitVec 16)) (m : Mem) :
    Wp gdt (fun _ _ => True) (fun tr a S' =>
        (a.1 = NO_ERROR ∧ Filled psel S m count.toInt.toNat tr a.2 S') ∨
        (a.1 ≠ NO_ERROR ∧ RolledBack S tr a.1 S'))
      [] S (devHlp32AllocGDTSelector psel count m) := by
  have hcount : 0 + count.toInt.toNat ≤ 2 ^ 31 - 1 := by
    have := count.toInt_lt
    omega
  unfold devHlp32AllocGDTSelector
  rw [wp_bind]
  refine wp_mono (allocate_wp _ Filled.nil hcount) ?_
  rintro tr ⟨rc, i, m'⟩ S₁ (⟨hrc, hf⟩ | ⟨hrc, pre, sel, rfl, hf⟩)
  · rw [Nat.zero_add] at hf
    cases hrc
    exact .inl ⟨rfl, hf⟩
  · refine wp_ite (fun _ => ?_) fun h => absurd hrc h
    rw [wp_bind]
    refine wp_mono (release_wp hf.nodup hf.fresh hf.allocated) ?_
    rintro _ ⟨⟩ S₂ ⟨rfl, post, rfl, hpg, hpf⟩
    have hg :
        (pre ++ [(⟨.allocOne, true, rc, sel⟩ : Event Op Op.Res)] ++ post).filterMap grantedBy =
          selectors psel m' i := by
      rw [List.append_assoc, List.filterMap_append, hf.granted, List.singleton_append,
        List.filterMap_cons_none rfl, hpg, List.append_nil]
    have hfr : (pre ++ [(⟨.allocOne, true, rc, sel⟩ : Event Op Op.Res)] ++ post).filterMap freedBy =
        (selectors psel m' i).reverse := by
      rw [List.append_assoc, List.filterMap_append, hf.freed, List.singleton_append,
        List.filterMap_cons_none rfl, hpf, List.nil_append]
    refine .inr ⟨hrc, ⟨pre, post, sel, List.append_assoc _ _ _⟩, ?_, ?_, rfl⟩
    · rw [hg, hfr]
    · rw [hg]
      exact hf.nodup

end AllocGDTSelector

open AllocGDTSelector

/-- **`DevHlp32_AllocGDTSelector` is all-or-nothing.** -/
theorem allocGDTSelector_all_or_nothing (psel : Addr) (count : BitVec 32) (m m' : Mem)
    (S S' : Set (BitVec 16)) (tr : List (Event Op Op.Res)) (rc : BitVec 32)
    (h : Runs gdt S (devHlp32AllocGDTSelector psel count m) tr (rc, m') S') :
    (rc = NO_ERROR → Filled psel S m count.toInt.toNat tr m' S') ∧
    (rc ≠ NO_ERROR → RolledBack S tr rc S') := by
  rcases ((exec_wp psel count S m).sound h).2 with ⟨hrc, hf⟩ | ⟨hrc, hr⟩
  · exact ⟨fun _ => hf, fun hne => absurd hrc hne⟩
  · exact ⟨fun h0 => absurd h0 hrc, fun _ => hr⟩

/-- The kernel grants one of two selectors and then refuses with code 8. -/
theorem allocGDTSelector_sample : ∃ tr m', Runs gdt ∅ (devHlp32AllocGDTSelector 0 2 fun _ => 0) tr
    (8, m') ∅ ∧ RolledBack ∅ tr 8 ∅ := by
  have hrun : Runs gdt ∅ (devHlp32AllocGDTSelector 0 2 fun _ => 0)
      [⟨.allocOne, false, 0, 0x10⟩, ⟨.allocOne, true, 8, 0⟩, ⟨.free 0x10, false, 0⟩]
      (8, write (fun _ => 0) 0 2 0x10) ∅ := by
    have hgrant : gdt ∅ .allocOne (false, 0, 0x10) {0x10} := by simp [gdt]
    have hrefuse : gdt {0x10} .allocOne (true, 8, 0) {0x10} := by
      simp [gdt]
      decide
    have hfree : gdt {0x10} (.free 0x10) (false, 0) ∅ := by simp [gdt]
    exact .call hgrant (.call hrefuse (.call hfree .ret))
  exact ⟨_, _, hrun, (allocGDTSelector_all_or_nothing 0 2 _ _ ∅ ∅ _ 8 hrun).2 (by decide)⟩

end Mwdd32.DevHlp
