import Mwdd32.Fsh32.Dovolio
import Mwdd32.Lib.Ledger
import Mwdd32.Lib.Tasks

/-!
# Transfers side by side

While `FSH_DOVOLIO` waits for the disk in one thread, other threads run and may be in
`fsh32_dovolio` as well, each with its own stack. What they share is the GDT. Between two kernel
calls of a thread, and while it is in one, the others make any calls of their own.

* `transfers_wp`: what one thread asks of the kernel in each call, by the calls before it.
* `Isolated.step`: a step of one thread leaves the selectors of the others, and how they are mapped.
-/

namespace Mwdd32.Fsh32

open ByteMem Interaction I386 Transition Ledger DevHlp

namespace Dovolio

/-! ## The GDT -/

/-- An entry of the GDT -/
inductive Descriptor
  | free
  | allocated
  | mapped (lin bytes : BitVec 32)

/-- The descriptors, and the selectors of those who do not call `fsh32_dovolio` -/
structure Gdt where
  table : BitVec 16 → Descriptor
  others : Set (BitVec 16)

/-- The selectors that somebody has -/
def Gdt.used (G : Gdt) : Set (BitVec 16) := {sel | G.table sel ≠ .free}

/-- The entry of `sel` becomes `d`. -/
def Gdt.set (G : Gdt) (sel : BitVec 16) (d : Descriptor) : Gdt :=
  { G with table := Function.update G.table sel d }

/-- The selector in AX -/
def axSel (c : Cpu) : BitVec 16 := (c.reg .eax).setWidth 16

variable (base : BitVec 16 → Addr)

/-- The selector that an allocation stored at ES:DI -/
def storedSel (e : DovolioEvent) : BitVec 16 :=
  (read e.2.mem (base (e.1.2.sreg .es) + low (e.1.2.reg .edi)) 2).setWidth 16

/-- What a call of the kernel does to the GDT. To map or to free a selector that is not allocated
    may do anything, to free one that is allocated succeeds. -/
def Gdt.Effect (G : Gdt) (e : DovolioEvent) (G' : Gdt) : Prop :=
  match e.1.1 with
  | .allocGDTSelector =>
    if e.2.cf then G' = G
    else storedSel base e ∉ G.used ∧ G' = G.set (storedSel base e) .allocated
  | .linToGDTSelector => axSel e.1.2 ∈ G.used →
    if e.2.cf then ∃ d ≠ .free, G' = G.set (axSel e.1.2) d
    else G' = G.set (axSel e.1.2) (.mapped (e.1.2.reg .ebx) (e.1.2.reg .ecx))
  | .fshDovolio => G' = G
  | .freeGDTSelector => axSel e.1.2 ∈ G.used → e.2.cf = false ∧ G' = G.set (axSel e.1.2) .free

/-- Others allocate selectors, and map and free their own. -/
inductive Gdt.Interfere (G : Gdt) : Gdt → Prop
  | alloc {sel : BitVec 16} : sel ∉ G.used →
      Interfere G { G.set sel .allocated with others := insert sel G.others }
  | map {sel : BitVec 16} {d : Descriptor} : sel ∈ G.others → d ≠ .free → Interfere G (G.set sel d)
  | free {sel : BitVec 16} : sel ∈ G.others →
      Interfere G { G.set sel .free with others := G.others \ {sel} }

variable (devHlp : Call → BitVec 32) (ra : BitVec 32)

/-- A state in which `fsh32_dovolio` may be called -/
abbrev Caller := {c : Cpu // Layout base ra c}

/-- `fsh32_dovolio` by the state in which it is called -/
def transfers : Service (Caller base ra) Gdt (Call × Cpu) (fun _ => Cpu) (Option Cpu) where
  code c := exec devHlp base ra c
  env c := kernel base ra (pcSec base ra c)
  effect := Gdt.Effect base
  interfere := Gdt.Interfere

/-- A thread in `fsh32_dovolio` -/
abbrev TransferTask := Task (Caller base ra) (Call × Cpu) (fun _ => Cpu) (Option Cpu)

/-- The threads that are in `fsh32_dovolio`, and the GDT -/
abbrev TransferPool (Tid : Type) :=
  Pool Tid (Caller base ra) Gdt (Call × Cpu) (fun _ => Cpu) (Option Cpu)

/-- At first all selectors in use are those of others. -/
abbrev transferSystem (Tid : Type) [DecidableEq Tid] :
    System (TransferPool base ra Tid) (Move Tid (Caller base ra) (Call × Cpu) fun _ => Cpu) :=
  (transfers base devHlp ra).system Tid fun G => G.used = G.others

/-- The selector of a thread that has made the calls `h`, if it has one -/
def held (h : List DovolioEvent) : Set (BitVec 16) :=
  {sel | granted base .allocGDTSelector h = [sel.setWidth 32] ∧ freed .freeGDTSelector h = []}

variable {ra} in
/-- The selectors of each thread, and of the others -/
def owns {Tid : Type} (pool : TransferPool base ra Tid) : Option Tid → Set (BitVec 16)
  | none => pool.shared.others
  | some t => (pool.task t).elim ∅ fun task => held base task.trace

/-! ## One thread -/

/-- What a call is asked for behind the calls `h` -/
structure Proper (c : Cpu) (h : List DovolioEvent) (e : DovolioEvent) : Prop where
  alloc : e.1.1 = .allocGDTSelector → h = []
  lin : e.1.1 = .linToGDTSelector → axSel e.1.2 ∈ held base h ∧ ∀ l ∈ h, l.1.1 ≠ .linToGDTSelector
  dovolio : e.1.1 = .fshDovolio → ∃ l ∈ h, l.1.1 = .linToGDTSelector ∧ l.2.cf = false ∧
    axSel l.1.2 ∈ held base h ∧ l.1.2.reg .ebx = arg (.stack32 base ra) c 3 ∧
    l.1.2.reg .ecx = read c.mem (pcSec base ra c) 2 <<< 9 ∧
    DovolioFrame base ra c ((axSel l.1.2).setWidth 32) e.1.2
  free : e.1.1 = .freeGDTSelector → axSel e.1.2 ∈ held base h

variable {base devHlp ra} {c : Cpu} {h : List DovolioEvent} {e : DovolioEvent} {sel : BitVec 16}

/-- The selector that was granted in the first call is held until it is freed. -/
theorem mem_held {a a' x : Cpu} (mid : List DovolioEvent) (acf : a'.cf = false)
    (hax : low (x.reg .eax) = read a'.mem (base (a.sreg .es) + low (a.reg .edi)) 2)
    (hmid : ∀ e ∈ mid, e.1.1 ≠ .allocGDTSelector ∧ e.1.1 ≠ .freeGDTSelector) :
    axSel x ∈ held base (⟨(.allocGDTSelector, a), a'⟩ :: mid) := by
  have hgranted : granted base .allocGDTSelector mid = [] := by
    rw [granted, List.map_eq_nil_iff, List.filter_eq_nil_iff]
    intro e he
    simp [(hmid e he).1]
  have hfreed : freed .freeGDTSelector mid = [] := by
    rw [freed, List.map_eq_nil_iff, List.filter_eq_nil_iff]
    intro e he
    simp [(hmid e he).2]
  have hsel : (axSel x).setWidth 32 = low (x.reg .eax) := rfl
  constructor
  · rw [hsel, hax]
    simp [granted, acf] at hgranted ⊢
    exact hgranted
  · simpa [freed] using hfreed

theorem proper_of_course {u : Cpu} {tr : List DovolioEvent} (hl : Layout base ra c)
    (hcourse : Course base ra c u tr) : Always (Proper base ra c) tr := by
  cases hcourse with
  | refused => exact always_cons.mpr ⟨⟨fun _ => rfl, nofun, nofun, nofun⟩, always_nil _⟩
  | @unmapped a a' l l' f f' sel n ha acf hsel hn hm lcf lne hfax hfail =>
    rw [← ha.selAddr hl] at hsel
    have hlin := mem_held [] acf (hm.eax.trans hsel) (by simp)
    have hfree := mem_held [⟨(.linToGDTSelector, l), l'⟩] acf (hfax.trans hsel) (by simp)
    refine always_cons.mpr ⟨⟨fun _ => rfl, nofun, nofun, nofun⟩,
      always_cons.mpr ⟨⟨nofun, fun _ => ?_, nofun, nofun⟩,
      always_cons.mpr ⟨⟨nofun, nofun, nofun, fun _ => hfree⟩, always_nil _⟩⟩⟩
    exact ⟨hlin, by simp⟩
  | @called a a' l l' d d' f f' sel n ha acf hsel hn hm lcf hfail ht =>
    rw [← ha.selAddr hl] at hsel
    have hlin := mem_held [] acf (hm.eax.trans hsel) (by simp)
    have hmapped := mem_held [⟨(.linToGDTSelector, l), l'⟩] acf (hm.eax.trans hsel) (by simp)
    have hfree := mem_held [⟨(.linToGDTSelector, l), l'⟩, ⟨(.fshDovolio, d), d'⟩] acf
      (ht.freed.trans hsel) (by simp)
    refine always_cons.mpr ⟨⟨fun _ => rfl, nofun, nofun, nofun⟩,
      always_cons.mpr ⟨⟨nofun, fun _ => ?_, nofun, nofun⟩,
      always_cons.mpr ⟨⟨nofun, nofun, fun _ => ?_, nofun⟩,
      always_cons.mpr ⟨⟨nofun, nofun, nofun, fun _ => hfree⟩, always_nil _⟩⟩⟩⟩
    · exact ⟨hlin, by simp⟩
    · refine ⟨⟨(.linToGDTSelector, l), l'⟩, by simp, rfl, lcf, hmapped, hm.ebx, ?_, ?_⟩
      · rw [← hn]
        exact hm.ecx
      · rw [show (axSel l).setWidth 32 = sel from hm.eax]
        exact ht.frame

/-- When the routine has returned it holds nothing. -/
theorem held_of_course {u : Cpu} {tr : List DovolioEvent} (hcourse : Course base ra c u tr) :
    held base tr = ∅ := by
  rw [Set.eq_empty_iff_forall_notMem]
  rintro sel ⟨hgranted, hfreed⟩
  cases hcourse with
  | refused _ acf => simp [granted, acf] at hgranted
  | unmapped => simp [freed] at hfreed
  | called => simp [freed] at hfreed

theorem kernel_exists (p : Addr) (s : Unit) (op : Call × Cpu) :
    ∃ r s', kernel base ra p s op r s' :=
  ⟨succeeding op, (), kernel_succeeding p op⟩

/-- Every call that a thread can make is proper, and it ends without a selector. -/
theorem transfers_wp (c : Caller base ra) :
    Wp ((transfers base devHlp ra).env c) (Proper base ra c) (fun tr _ _ => held base tr = ∅) [] ()
      ((transfers base devHlp ra).code c) := by
  have hwp := (@exec_wp devHlp base ra _ c.2).always (fun _ => kernel_exists _ ())
    (fun tr res _ ⟨u, _, _, hcourse⟩ => proper_of_course c.2 hcourse)
  exact wp_mono hwp fun tr res _ ⟨u, _, _, hcourse⟩ => held_of_course hcourse

/-! ## All threads -/

/-- A selector that the thread has mapped is mapped as it asked for. -/
def MapsTo (base : BitVec 16 → Addr) (table : BitVec 16 → Descriptor)
    (h : List DovolioEvent) : Prop :=
  ∀ l ∈ h, l.1.1 = .linToGDTSelector → l.2.cf = false → axSel l.1.2 ∈ held base h →
    table (axSel l.1.2) = .mapped (l.1.2.reg .ebx) (l.1.2.reg .ecx)

/-- The selectors in use have one owner each, and those of the threads are mapped as they asked
    for. -/
structure Isolated {Tid : Type} (pool : TransferPool base ra Tid) : Prop where
  accounted : Accounted pool.shared.used (owns base pool)
  mapped : ∀ t task, pool.task t = some task → MapsTo base pool.shared.table task.trace

theorem MapsTo.congr {table table' : BitVec 16 → Descriptor} (hm : MapsTo base table h)
    (ht : ∀ sel ∈ held base h, table' sel = table sel) : MapsTo base table' h := by
  intro l hl hx hcf hheld
  rw [ht _ hheld]
  exact hm l hl hx hcf hheld

theorem held_nil : held base [] = ∅ := by
  ext sel
  simp [held, granted]

theorem held_alloc (he : e.1.1 = .allocGDTSelector) (hcf : e.2.cf = false) :
    held base [e] = {storedSel base e} := by
  have hword : ∀ sel : BitVec 16, read e.2.mem (base (e.1.2.sreg .es) + low (e.1.2.reg .edi)) 2 =
      sel.setWidth 32 ↔ sel = storedSel base e := by
    intro sel
    constructor
    · intro h
      rw [storedSel, h, ← low_selector, selector_low]
    · rintro rfl
      exact (low_read_word _ _).symm
  ext sel
  simp [held, granted, freed, he, hcf, hword]

/-- The calls that neither allocate nor free -/
theorem held_append (halloc : e.1.1 = .allocGDTSelector → e.2.cf = true)
    (hfree : e.1.1 ≠ .freeGDTSelector) : held base (h ++ [e]) = held base h := by
  have hnot : ¬ (e.1.1 = .allocGDTSelector ∧ e.2.cf = false) := fun ⟨hx, hcf⟩ => by
    rw [halloc hx] at hcf
    cases hcf
  have hgranted : granted base .allocGDTSelector (h ++ [e]) = granted base .allocGDTSelector h := by
    simp [granted, List.filter_append, hnot]
  have hfreed : freed .freeGDTSelector (h ++ [e]) = freed .freeGDTSelector h := by
    simp [freed, List.filter_append, hfree]
  rw [held, hgranted, hfreed, held]

theorem held_free (he : e.1.1 = .freeGDTSelector) : held base (h ++ [e]) = ∅ := by
  ext sel
  simp [held, freed, he]

theorem held_subsingleton (h : List DovolioEvent) : (held base h).Subsingleton := by
  intro sel hsel sel' hsel'
  have heq := List.singleton_inj.mp (hsel.1.symm.trans hsel'.1)
  rw [← selector_low sel, ← selector_low sel', heq]

/-! ### The GDT -/

theorem Gdt.used_set_free (G : Gdt) (sel : BitVec 16) :
    (G.set sel .free).used = G.used \ {sel} := by
  ext sel'
  by_cases hs : sel' = sel <;> simp [Gdt.used, Gdt.set, hs]

theorem Gdt.used_set (G : Gdt) {d : Descriptor} (hd : d ≠ .free) (sel : BitVec 16) :
    (G.set sel d).used = insert sel G.used := by
  ext sel'
  by_cases hs : sel' = sel <;> simp [Gdt.used, Gdt.set, hs, hd]

theorem Gdt.table_set_of_ne (G : Gdt) (d : Descriptor) {sel sel' : BitVec 16} (h : sel' ≠ sel) :
    (G.set sel d).table sel' = G.table sel' :=
  Function.update_of_ne h ..

/-! ### Steps -/

section Steps

variable {Tid : Type} [DecidableEq Tid] {pool pool' : TransferPool base ra Tid} {t : Tid}

omit [DecidableEq Tid] in
theorem owns_some {task : TransferTask base ra}
    (ht : pool.task t = some task) : owns base pool (some t) = held base task.trace := by
  rw [owns, ht]
  rfl

/-- What `t` owns is what its task holds, and nothing else changes. -/
theorem owns_set (G : Gdt) (x : Option (TransferTask base ra))
    (hG : G.others = pool.shared.others) : owns base (pool.set G t x) =
      Function.update (owns base pool) (some t) (x.elim ∅ fun task => held base task.trace) := by
  funext o
  cases o with
  | none => exact hG
  | some u =>
    by_cases hut : u = t
    · subst hut
      simp [owns]
    · simp [owns, Pool.set_task_of_ne, hut]

/-- The threads whose selectors are not touched keep their mappings. -/
theorem Isolated.mapped_set (hpool : Isolated pool) {G : Gdt}
    {x : Option (TransferTask base ra)}
    (hothers : ∀ u ≠ t, ∀ sel ∈ owns base pool (some u), G.table sel = pool.shared.table sel)
    (hx : ∀ task, x = some task → MapsTo base G.table task.trace) :
    ∀ u task, (pool.set G t x).task u = some task →
      MapsTo base (pool.set G t x).shared.table task.trace := by
  intro u task hu
  by_cases hut : u = t
  · subst hut
    rw [Pool.set_task] at hu
    exact hx task hu
  · rw [Pool.set_task_of_ne _ _ hut] at hu
    refine (hpool.mapped u task hu).congr fun sel hsel => hothers u hut sel ?_
    rwa [owns_some hu]

theorem Isolated.start (hpool : Isolated pool) (ht : pool.task t = none) (c : Caller base ra)
    (rest : Prog (Call × Cpu) (fun _ => Cpu) (Option Cpu)) :
    Isolated (pool.set pool.shared t (some ⟨c, [], rest⟩)) := by
  refine ⟨?_, hpool.mapped_set (fun _ _ _ _ => rfl) ?_⟩
  · have hnone : held base [] = owns base pool (some t) := by
      rw [held_nil, owns, ht]
      rfl
    rw [owns_set _ _ rfl, Option.elim_some, hnone, Function.update_eq_self]
    exact hpool.accounted
  · rintro _ ⟨⟩ l hl
    cases hl

theorem Isolated.finish (hpool : Isolated pool) {task : TransferTask base ra}
    (ht : pool.task t = some task) (hheld : held base task.trace = ∅) :
    Isolated (pool.set pool.shared t none) := by
  refine ⟨?_, hpool.mapped_set (fun _ _ _ _ => rfl) fun _ h => by cases h⟩
  have hnone : owns base pool (some t) = ∅ := by
    rw [owns_some ht, hheld]
  have hset : owns base (pool.set pool.shared t none) = owns base pool := by
    rw [owns_set _ _ rfl, Option.elim_none, Function.update_eq_self_iff.mpr hnone.symm]
  rw [hset]
  exact hpool.accounted

omit [DecidableEq Tid] in
/-- Another one's selector -/
theorem Isolated.ne_of_owns (hpool : Isolated pool) {o o' : Option Tid} (ho : o ≠ o')
    {sel' : BitVec 16} (h : sel ∈ owns base pool o) (h' : sel' ∈ owns base pool o') :
    sel ≠ sel' := by
  rintro rfl
  exact ho (hpool.accounted.unique h h')

omit [DecidableEq Tid] in
theorem Isolated.ne_of_fresh (hpool : Isolated pool) {o : Option Tid} {sel' : BitVec 16}
    (h : sel ∈ owns base pool o) (h' : sel' ∉ pool.shared.used) : sel ≠ sel' := by
  rintro rfl
  exact h' (hpool.accounted.mem_used h)

section Call

variable {c : Caller base ra} {rest rest' : Prog (Call × Cpu) (fun _ => Cpu) (Option Cpu)}

/-- A call that leaves `t` its selector, and at most changes how that is mapped. -/
theorem Isolated.keep {G : Gdt} (hpool : Isolated pool) (ht : pool.task t = some ⟨c, h, rest⟩)
    (hheld : held base (h ++ [e]) = held base h) (hused : G.used = pool.shared.used)
    (hothers : G.others = pool.shared.others)
    (htable : ∀ sel, sel ∉ held base h → G.table sel = pool.shared.table sel)
    (hmaps : MapsTo base G.table (h ++ [e])) :
    Isolated (pool.set G t (some ⟨c, h ++ [e], rest'⟩)) := by
  have howns : owns base pool (some t) = held base h := owns_some ht
  refine ⟨?_, hpool.mapped_set (fun u hut sel hsel => htable sel fun hheld => ?_) ?_⟩
  · rw [owns_set _ _ hothers, Option.elim_some, hheld, ← howns, Function.update_eq_self,
      Pool.set_shared, hused]
    exact hpool.accounted
  · rw [← howns] at hheld
    exact hut (Option.some.inj (hpool.accounted.unique hsel hheld))
  · rintro _ ⟨⟩
    exact hmaps

/-- Behind a call that maps nothing -/
theorem MapsTo.append {table : BitVec 16 → Descriptor} (hm : MapsTo base table h)
    (hheld : held base (h ++ [e]) = held base h) (he : e.1.1 ≠ .linToGDTSelector) :
    MapsTo base table (h ++ [e]) := by
  intro l hl hx hcf hsel
  rw [hheld] at hsel
  rcases List.mem_append.mp hl with hl | hl
  · exact hm l hl hx hcf hsel
  · cases List.mem_singleton.mp hl
    exact absurd hx he

theorem Isolated.alloc {G : Gdt} (hpool : Isolated pool) (ht : pool.task t = some ⟨c, [], rest⟩)
    (hx : e.1.1 = .allocGDTSelector) (hcf : e.2.cf = false)
    (hfresh : storedSel base e ∉ pool.shared.used)
    (hG : G = pool.shared.set (storedSel base e) .allocated) :
    Isolated (pool.set G t (some ⟨c, [e], rest'⟩)) := by
  have hheld : held base [e] = insert (storedSel base e) (owns base pool (some t)) := by
    rw [owns_some ht, held_nil, held_alloc hx hcf]
    exact (insert_empty_eq _).symm
  have hothers : G.others = pool.shared.others := by rw [hG, Gdt.set]
  refine ⟨?_, hpool.mapped_set (fun u _ sel hsel => ?_) ?_⟩
  · rw [owns_set _ _ hothers, Option.elim_some, hheld, Pool.set_shared, hG,
      Gdt.used_set _ (by simp)]
    exact hpool.accounted.grant (some t) hfresh
  · rw [hG]
    exact Gdt.table_set_of_ne _ _ (hpool.ne_of_fresh hsel hfresh)
  · rintro _ ⟨⟩ l hl hlin
    cases List.mem_singleton.mp hl
    rw [hx] at hlin
    cases hlin

theorem Isolated.free {G : Gdt} (hpool : Isolated pool) (ht : pool.task t = some ⟨c, h, rest⟩)
    (hx : e.1.1 = .freeGDTSelector) (hheld : axSel e.1.2 ∈ held base h)
    (hG : G = pool.shared.set (axSel e.1.2) .free) :
    Isolated (pool.set G t (some ⟨c, h ++ [e], rest'⟩)) := by
  have howns : owns base pool (some t) = held base h := owns_some ht
  rw [← howns] at hheld
  have hfree : held base (h ++ [e]) = owns base pool (some t) \ {axSel e.1.2} := by
    have hsingle := (howns ▸ held_subsingleton h).eq_singleton_of_mem hheld
    rw [held_free hx, hsingle, Set.sdiff_self]
  have hothers : G.others = pool.shared.others := by rw [hG, Gdt.set]
  refine ⟨?_, hpool.mapped_set (fun u hut sel hsel => ?_) ?_⟩
  · rw [owns_set _ _ hothers, Option.elim_some, hfree, Pool.set_shared, hG, Gdt.used_set_free]
    exact hpool.accounted.release hheld
  · rw [hG]
    exact Gdt.table_set_of_ne _ _ (hpool.ne_of_owns (fun h => hut (Option.some.inj h)) hsel hheld)
  · rintro _ ⟨⟩ l hl hlin hcf hsel
    rw [held_free hx] at hsel
    cases hsel

theorem Isolated.call {G : Gdt} (hpool : Isolated pool) (ht : pool.task t = some ⟨c, h, rest⟩)
    (hproper : Proper base ra c h e) (heffect : Gdt.Effect base pool.shared e G) :
    Isolated (pool.set G t (some ⟨c, h ++ [e], rest'⟩)) := by
  have hm := hpool.mapped t _ ht
  have hused : ∀ sel ∈ held base h, sel ∈ pool.shared.used := by
    intro sel hsel
    rw [← owns_some ht] at hsel
    exact hpool.accounted.mem_used hsel
  unfold Gdt.Effect at heffect
  cases hx : e.1.1 with
  | allocGDTSelector =>
    rw [hx] at heffect
    cases hcf : e.2.cf with
    | true =>
      have hG : G = pool.shared := by simpa [hcf] using heffect
      have hheld : held base (h ++ [e]) = held base h := held_append (fun _ => hcf) (by simp [hx])
      subst hG
      exact hpool.keep ht hheld rfl rfl (fun _ _ => rfl) (hm.append hheld (by simp [hx]))
    | false =>
      obtain ⟨hfresh, hG⟩ : storedSel base e ∉ pool.shared.used ∧
          G = pool.shared.set (storedSel base e) .allocated := by simpa [hcf] using heffect
      obtain rfl := hproper.alloc hx
      exact hpool.alloc ht hx hcf hfresh hG
  | linToGDTSelector =>
    obtain ⟨hheld, honce⟩ := hproper.lin hx
    rw [hx] at heffect
    have hsame : held base (h ++ [e]) = held base h := held_append (by simp [hx]) (by simp [hx])
    -- the mapping, or what a failed call leaves
    obtain ⟨d, hd, hG, hmap⟩ : ∃ d ≠ .free, G = pool.shared.set (axSel e.1.2) d ∧
        (e.2.cf = false → d = .mapped (e.1.2.reg .ebx) (e.1.2.reg .ecx)) := by
      have heffect := heffect (hused _ hheld)
      cases hcf : e.2.cf with
      | true =>
        obtain ⟨d, hd, hG⟩ : ∃ d ≠ .free, G = pool.shared.set (axSel e.1.2) d := by
          simpa [hcf] using heffect
        exact ⟨d, hd, hG, by simp⟩
      | false => exact ⟨_, by simp, by simpa [hcf] using heffect, fun _ => rfl⟩
    subst hG
    refine hpool.keep ht hsame ?_ rfl (fun sel hsel => ?_) ?_
    · rw [Gdt.used_set _ hd, Set.insert_eq_of_mem (hused _ hheld)]
    · refine Gdt.table_set_of_ne _ _ ?_
      rintro rfl
      exact hsel hheld
    · intro l hl hlin hcf _
      rcases List.mem_append.mp hl with hl | hl
      · exact absurd hlin (honce l hl)
      · cases List.mem_singleton.mp hl
        rw [← hmap hcf]
        exact Function.update_self ..
  | fshDovolio =>
    rw [hx] at heffect
    have hheld : held base (h ++ [e]) = held base h := held_append (by simp [hx]) (by simp [hx])
    have hG : G = pool.shared := heffect
    subst hG
    exact hpool.keep ht hheld rfl rfl (fun _ _ => rfl) (hm.append hheld (by simp [hx]))
  | freeGDTSelector =>
    have hheld := hproper.free hx
    rw [hx] at heffect
    exact hpool.free ht hx hheld (heffect (hused _ hheld)).2

end Call

theorem Isolated.other {G : Gdt} (hpool : Isolated pool) (hG : pool.shared.Interfere G) :
    @Isolated base ra Tid ⟨G, pool.task⟩ := by
  have howns : ∀ G : Gdt, @owns base ra Tid ⟨G, pool.task⟩ =
      Function.update (owns base pool) none G.others := by
    intro G
    funext o
    cases o <;> simp [owns]
  have hkeep : ∀ {sel' : BitVec 16}, (∀ t, ∀ sel ∈ owns base pool (some t), sel ≠ sel') →
      ∀ t task, pool.task t = some task →
        ∀ d, MapsTo base (pool.shared.set sel' d).table task.trace := by
    intro sel' hne t task ht d
    refine (hpool.mapped t task ht).congr fun sel hsel => Gdt.table_set_of_ne _ _ (hne t sel ?_)
    rwa [owns_some ht]
  cases hG with
  | @alloc sel hfresh =>
    refine ⟨?_,
      fun t task ht => hkeep (fun t _ hsel' => hpool.ne_of_fresh hsel' hfresh) t task ht _⟩
    rw [howns]
    have hused := @Gdt.used_set pool.shared .allocated (by simp) sel
    exact hused ▸ hpool.accounted.grant none hfresh
  | @map sel d hsel hd =>
    have hne : ∀ t, ∀ sel' ∈ owns base pool (some t), sel' ≠ sel := fun t _ hsel' =>
      hpool.ne_of_owns (Option.some_ne_none t) hsel' hsel
    refine ⟨?_, fun t task ht => hkeep hne t task ht _⟩
    have hmem : sel ∈ owns base pool none := hsel
    have hused : (pool.shared.set sel d).used = pool.shared.used := by
      rw [Gdt.used_set _ hd, Set.insert_eq_of_mem (hpool.accounted.mem_used hmem)]
    have hsame : Function.update (owns base pool) none (pool.shared.set sel d).others =
        owns base pool :=
      Function.update_eq_self none (owns base pool)
    rw [howns, hsame]
    exact hused ▸ hpool.accounted
  | @free sel hsel =>
    have hne : ∀ t, ∀ sel' ∈ owns base pool (some t), sel' ≠ sel := fun t _ hsel' =>
      hpool.ne_of_owns (Option.some_ne_none t) hsel' hsel
    refine ⟨?_, fun t task ht => hkeep hne t task ht _⟩
    rw [howns]
    have hmem : sel ∈ owns base pool none := hsel
    exact pool.shared.used_set_free sel ▸ hpool.accounted.release hmem

variable (devHlp) in
/-- The calls of every thread are proper. -/
abbrev AllProper (pool : TransferPool base ra Tid) : Prop :=
  pool.Sound (transfers base devHlp ra) (fun c => Proper base ra c) fun _ tr _ _ => held base tr = ∅

theorem Isolated.step {m : Move Tid (Caller base ra) (Call × Cpu) fun _ => Cpu}
    (hpool : Isolated pool)
    (hsound : AllProper devHlp pool) (hstep : Pool.Step (transfers base devHlp ra) pool m pool') :
    Isolated pool' := by
  cases hstep with
  | start ht => exact hpool.start ht _ _
  | call ht hr heffect => exact hpool.call ht (hsound.call ht hr) heffect
  | finish ht => exact hpool.finish ht (hsound.finish ht)
  | other hG => exact hpool.other hG

theorem initially_isolated (hinit : (transferSystem base devHlp ra Tid).init pool) :
    Isolated pool := by
  obtain ⟨hothers, hnone⟩ := hinit
  have howns : ∀ t, owns base pool (some t) = ∅ := by
    intro t
    rw [owns, hnone t]
    rfl
  refine ⟨⟨?_, fun {o o' sel} h h' => ?_⟩, fun t task ht => ?_⟩
  · rw [Set.iUnion_option, Set.iUnion_eq_empty.mpr howns, Set.union_empty, hothers]
    rfl
  · cases o with
    | none =>
      cases o' with
      | none => rfl
      | some t =>
        rw [howns t] at h'
        cases h'
    | some t =>
      rw [howns t] at h
      cases h
  · rw [hnone t] at ht
    cases ht

theorem isolated_of_reachable (hpool : Reachable (transferSystem base devHlp ra Tid) pool) :
    Isolated pool ∧ AllProper devHlp pool := by
  refine ⟨?_, sound_of_reachable transfers_wp hpool⟩
  induction hpool with
  | step hpool hstep ih => exact ih.step (sound_of_reachable transfers_wp hpool) hstep
  | init hinit => exact initially_isolated hinit

end Steps

/-- What the thread `t`, called in `c`, has while it is in a call of the kernel: it maps and frees
    its own selector, and transfers through its own selector, which is mapped to its caller's
    buffer. -/
structure Uses {Tid : Type} (pool : TransferPool base ra Tid) (t : Tid) (c : Cpu)
    (op : Call × Cpu) :
    Prop where
  own : op.1 = .linToGDTSelector ∨ op.1 = .freeGDTSelector → axSel op.2 ∈ owns base pool (some t)
  transfer : op.1 = .fshDovolio → ∃ sel ∈ owns base pool (some t),
    DovolioFrame base ra c (sel.setWidth 32) op.2 ∧
    pool.shared.table sel =
      .mapped (arg (.stack32 base ra) c 3) (read c.mem (pcSec base ra c) 2 <<< 9)

/-! ### Sample -/

/-- A caller of `fsh32_dovolio` that asks for one sector, by the flat addresses -/
def sampleCaller : Caller (fun _ => 0) 0 := ⟨sampleCpu 1, sample_layout 1⟩

/-- A GDT without a selector in use -/
def sampleGdt : Gdt := ⟨fun _ => .free, ∅⟩

/-- The thread `true` is in `FSH_DOVOLIO`. -/
theorem sample_transfer : ∃ pool : TransferPool (fun _ => 0) 0 Bool,
    Reachable (transferSystem (fun _ => 0) (fun _ => 0) 0 Bool) pool ∧
    ∃ h d k, pool.task true = some ⟨sampleCaller, h, .call (.fshDovolio, d) k⟩ := by
  obtain ⟨tr, res, hrun, hok⟩ := @runs_succeeding (fun _ => 0) 0 (fun _ => 0)
    (pcSec (fun _ => 0) 0 (sampleCpu 1)) (sampleCpu 1)
  obtain ⟨u, rfl, -, hcourse⟩ := course (sample_layout 1) hrun
  cases hcourse with
  | refused _ acf => simp [acf] at hok
  | unmapped _ _ _ _ _ lcf => simp [lcf] at hok
  | @called a a' l l' d d' f f' _ _ _ acf _ _ _ lcf =>
    obtain ⟨k₁, ⟨⟩, hcode, hr₁, hrun⟩ := runs_cons.mp hrun
    obtain ⟨k₂, ⟨⟩, hcode₁, hr₂, hrun⟩ := runs_cons.mp hrun
    obtain ⟨k₃, -, hcode₂, -⟩ := runs_cons.mp hrun
    have hinit : Reachable (transferSystem (fun _ => 0) (fun _ => 0) 0 Bool)
        ⟨sampleGdt, fun _ => none⟩ :=
      .init ⟨by simp [Gdt.used, sampleGdt], fun _ => rfl⟩
    have hstart := reachable_start hinit (t := true) rfl sampleCaller
    rw [show (transfers (fun _ => 0) (fun _ => 0) 0).code sampleCaller = _ from hcode] at hstart
    let G := sampleGdt.set (storedSel (fun _ => 0) ⟨(.allocGDTSelector, a), a'⟩) .allocated
    have halloc := reachable_call hstart (Pool.set_task ..) hr₁ (s := G) ?_
    rw [hcode₁] at halloc
    have hlin := reachable_call halloc (Pool.set_task ..) hr₂
      (s := G.set (axSel l) (.mapped (l.reg .ebx) (l.reg .ecx))) ?_
    rw [hcode₂] at hlin
    · exact ⟨_, hlin, _, _, _, Pool.set_task ..⟩
    · intro _
      rw [if_neg (by simpa using lcf)]
      rfl
    · simp [transfers, Gdt.Effect, acf, Gdt.used, sampleGdt, G]

end Dovolio

open Dovolio

variable {base : BitVec 16 → Addr} {devHlp : Dovolio.Call → BitVec 32} {ra : BitVec 32}

/-- **Transfers side by side.** However the calls of the threads follow one another, every selector
    in use has one owner, a thread uses none but its own, no transfer goes to another caller's
    buffer, and a thread that is done owns nothing. -/
theorem transfers_isolated {Tid : Type} [DecidableEq Tid] {pool : TransferPool base ra Tid}
    (hpool : Reachable (transferSystem base devHlp ra Tid) pool) :
    Accounted pool.shared.used (owns base pool) ∧
    (∀ t c h op k, pool.task t = some ⟨c, h, .call op k⟩ → Uses pool t c op) ∧
    ∀ t c h u, pool.task t = some ⟨c, h, .ret u⟩ → owns base pool (some t) = ∅ := by
  obtain ⟨hisolated, hsound⟩ := isolated_of_reachable hpool
  refine ⟨hisolated.accounted, fun t c h op k ht => ?_, fun t c h u ht => ?_⟩
  · have hproper : Proper base ra c h ⟨op, succeeding op⟩ := hsound.call ht (kernel_succeeding _ op)
    have howns : owns base pool (some t) = held base h := owns_some ht
    refine ⟨fun hx => ?_, fun hx => ?_⟩
    · rw [howns]
      rcases hx with hx | hx
      · exact (hproper.lin hx).1
      · exact hproper.free hx
    · obtain ⟨l, hl, hlin, hcf, hheld, hebx, hecx, hframe⟩ := hproper.dovolio hx
      refine ⟨axSel l.1.2, howns ▸ hheld, hframe, ?_⟩
      rw [← hebx, ← hecx]
      exact hisolated.mapped t _ ht l hl hlin hcf hheld
  · rw [owns_some ht]
    exact hsound.finish ht

/-- One of two threads is in `FSH_DOVOLIO`, with a selector that is mapped to its buffer. -/
theorem transfers_isolated_sample : ∃ pool : TransferPool (fun _ => 0) 0 Bool,
    Reachable (transferSystem (fun _ => 0) (fun _ => 0) 0 Bool) pool ∧
    ∃ h d k, pool.task true = some ⟨sampleCaller, h, .call (.fshDovolio, d) k⟩ ∧
      Uses pool true sampleCaller (.fshDovolio, d) := by
  obtain ⟨pool, hpool, h, d, k, ht⟩ := sample_transfer
  exact ⟨pool, hpool, h, d, k, ht, (transfers_isolated hpool).2.1 true sampleCaller h _ k ht⟩

end Mwdd32.Fsh32
