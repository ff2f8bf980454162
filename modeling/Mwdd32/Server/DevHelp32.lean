import Mwdd32.Common
import Mwdd32.Lib.ByteMem

/-!
# The exported service table

`mwdd32_export_devhelp32` (`mwdd32/mwdd32_idc.c`, lines 36–82) fills in the
`struct DevHelp32` of a client from mwdd32's own one, as far as the version of
the client's structure goes.

* `members_prefix`: every version of the structure is a prefix of the initializer
  of mwdd32's own table.
* `export_spec`: the negotiation, for a record, a `TKSSBase` variable and a table
  that do not overlap.
-/

namespace Mwdd32.Server

open ByteMem

/-! ## Layouts -/

/-- The services, one for each member name of `struct DevHelp32`. -/
inductive Service
  | saveMessage | internalError | vmAlloc | vmFree | vmLock | vmUnlock | virtToLin
  | procBlock | procRun | linToPageList | security | yield
  | getInfoSegs | vsprintf | strtoul | atol | strupr | strpbrk | fnmatch
  | strtol
  | sec32AttachSes
  | setIRQ | eoi | unSetIRQ
  | pageListToLin | allocGDTSelector | freeGDTSelector | attachDD | getDosVar
  | verifyAccess | closeEventSem | openEventSem | postEventSem | resetEventSem
  deriving DecidableEq

/-- `version_1` (`include/os2/devhlp32.h`) -/
def version1 : List Service :=
  [.saveMessage, .internalError, .vmAlloc, .vmFree, .vmLock, .vmUnlock, .virtToLin, .procBlock,
   .procRun, .linToPageList, .security, .yield]

/-- `version_2` -/
def version2 : List Service :=
  [.saveMessage, .internalError, .vmAlloc, .vmFree, .vmLock, .vmUnlock, .virtToLin, .procBlock,
   .procRun, .linToPageList, .security, .yield, .getInfoSegs, .vsprintf, .strtoul, .atol,
   .strupr, .strpbrk, .fnmatch]

/-- `version_3` -/
def version3 : List Service :=
  [.saveMessage, .internalError, .vmAlloc, .vmFree, .vmLock, .vmUnlock, .virtToLin, .procBlock,
   .procRun, .linToPageList, .security, .yield, .getInfoSegs, .vsprintf, .strtoul, .atol,
   .strupr, .strpbrk, .fnmatch, .strtol]

/-- `version_4` -/
def version4 : List Service :=
  [.saveMessage, .internalError, .vmAlloc, .vmFree, .vmLock, .vmUnlock, .virtToLin, .procBlock,
   .procRun, .linToPageList, .security, .yield, .getInfoSegs, .vsprintf, .strtoul, .atol,
   .strupr, .strpbrk, .fnmatch, .strtol, .sec32AttachSes]

/-- `version_5` -/
def version5 : List Service :=
  [.saveMessage, .internalError, .vmAlloc, .vmFree, .vmLock, .vmUnlock, .virtToLin, .procBlock,
   .procRun, .linToPageList, .security, .yield, .getInfoSegs, .vsprintf, .strtoul, .atol,
   .strupr, .strpbrk, .fnmatch, .strtol, .sec32AttachSes, .setIRQ, .eoi, .unSetIRQ]

/-- `version_6` -/
def version6 : List Service :=
  [.saveMessage, .internalError, .vmAlloc, .vmFree, .vmLock, .vmUnlock, .virtToLin, .procBlock,
   .procRun, .linToPageList, .security, .yield, .getInfoSegs, .vsprintf, .strtoul, .atol,
   .strupr, .strpbrk, .fnmatch, .strtol, .sec32AttachSes, .setIRQ, .eoi, .unSetIRQ,
   .pageListToLin, .allocGDTSelector, .freeGDTSelector, .attachDD, .getDosVar]

/-- `version_7` -/
def version7 : List Service :=
  [.saveMessage, .internalError, .vmAlloc, .vmFree, .vmLock, .vmUnlock, .virtToLin, .procBlock,
   .procRun, .linToPageList, .security, .yield, .getInfoSegs, .vsprintf, .strtoul, .atol,
   .strupr, .strpbrk, .fnmatch, .strtol, .sec32AttachSes, .setIRQ, .eoi, .unSetIRQ,
   .pageListToLin, .allocGDTSelector, .freeGDTSelector, .attachDD, .getDosVar,
   .verifyAccess, .closeEventSem, .openEventSem, .postEventSem, .resetEventSem]

/-- The initializer of mwdd32's own `DevHlp32` (`mwdd32/mwdd32_ioctl.c`, lines 38–77);
    `__mwdd32_strtoul` and its like are the functions of those services. -/
def initializer : List Service :=
  [.saveMessage, .internalError, .vmAlloc, .vmFree, .vmLock, .vmUnlock, .virtToLin, .procBlock,
   .procRun, .linToPageList, .security, .yield, .getInfoSegs, .vsprintf, .strtoul, .atol,
   .strupr, .strpbrk, .fnmatch, .strtol, .sec32AttachSes, .setIRQ, .eoi, .unSetIRQ,
   .pageListToLin, .allocGDTSelector, .freeGDTSelector, .attachDD, .getDosVar, .verifyAccess,
   .closeEventSem, .openEventSem, .postEventSem, .resetEventSem]

/-- The members of `version_v`, for the versions of the `switch`. -/
def members (version : BitVec 32) : Option (List Service) :=
  match version with
  | 1 => some version1
  | 2 => some version2
  | 3 => some version3
  | 4 => some version4
  | 5 => some version5
  | 6 => some version6
  | 7 => some version7
  | _ => none

/-- The number of slots that a record of this version has. -/
def slots (version : BitVec 32) : ℕ := ((members version).getD []).length

/-! ## Model -/

/-- The first member of a record -/
def DEVHELP32_MAGIC : BitVec 32 := 0xDF3C4E07

/-- `mwdd32_export_devhelp32(pTKSSBase, pDevHelp32)` with the value of mwdd32's variable
    `TKSSBase` and the address of its `DevHlp32`; the `memcpy` of `version_v` copies as
    many bytes as that structure has. -/
def mwdd32ExportDevhelp32 (tkssBase : BitVec 32) (devHlp32 : Addr) (m : Mem)
    (pTKSSBase pDevHelp32 : BitVec 32) : Mem × BitVec 16 :=
  let rc := ERROR_INVALID_PARAMETER.setWidth 16
  if pTKSSBase ≠ 0 then
    let m := write m pTKSSBase 4 tkssBase
    if pDevHelp32 ≠ 0 ∧ read m pDevHelp32 4 = DEVHELP32_MAGIC then
      match members (read m (pDevHelp32 + 4) 4) with
      | some version =>
        (copy m (pDevHelp32 + 8) (devHlp32 + 8) (4 * version.length), NO_ERROR.setWidth 16)
      | none => (m, rc)
    else (m, rc)
  else (m, rc)

/-! ## Versions -/

theorem members_isSome_iff (version : BitVec 32) :
    (∃ l, members version = some l) ↔ 1 ≤ version.toNat ∧ version.toNat ≤ 7 := by
  constructor
  · intro ⟨l, h⟩
    unfold members at h
    split at h <;> cases h <;> decide
  · intro ⟨h1, h7⟩
    have hv : version = BitVec.ofNat 32 version.toNat := by simp
    rw [hv]
    interval_cases version.toNat <;> exact ⟨_, rfl⟩

theorem members_prefix {version : BitVec 32} {l : List Service} (h : members version = some l) :
    l <+: initializer := by
  unfold members at h
  split at h <;> cases h <;> decide

theorem initializer_nodup : initializer.Nodup := by decide

theorem initializer_getElem? {version : BitVec 32} {l : List Service} {i : ℕ} {s : Service}
    (h : members version = some l) (hi : l[i]? = some s) : initializer[i]? = some s := by
  obtain ⟨t, ht⟩ := members_prefix h
  have hlt : i < l.length := (List.getElem?_eq_some_iff.mp hi).1
  rw [← ht, List.getElem?_append_left hlt, hi]

/-- A service is in one slot only, whatever the version. -/
theorem members_slot {v w : BitVec 32} {lv lw : List Service} {i j : ℕ} {s : Service}
    (hv : members v = some lv) (hw : members w = some lw) (hi : lv[i]? = some s)
    (hj : lw[j]? = some s) : i = j := by
  have hi' := initializer_getElem? hv hi
  have hj' := initializer_getElem? hw hj
  have hlt : i < initializer.length := (List.getElem?_eq_some_iff.mp hi').1
  exact (List.getElem?_inj hlt initializer_nodup).mp (hi'.trans hj'.symm)

/-! ## Negotiation -/

/-- The address of slot `i` of the `struct DevHelp32` at `a`. -/
def slot (a : Addr) (i : ℕ) : Addr := a + 8 + BitVec.ofNat 32 (4 * i)

/-- mwdd32's own structure holds the functions `fn` in the order of the initializer. -/
def Loaded (fn : Service → BitVec 32) (devHlp32 : Addr) (m : Mem) : Prop :=
  ∀ i s, initializer[i]? = some s → read m (slot devHlp32 i) 4 = fn s

/-- The version that the record at `a` asks for, and the size of such a record. -/
def recordVersion (m : Mem) (a : Addr) : BitVec 32 := read m (a + 4) 4

/-- The bytes of the record at `a` -/
def recordSize (m : Mem) (a : Addr) : ℕ := 8 + 4 * slots (recordVersion m a)

/-- The record at `a` has the magic number and a version of the `switch`. -/
def Negotiable (m : Mem) (a : Addr) : Prop :=
  read m a 4 = DEVHELP32_MAGIC ∧ 1 ≤ (recordVersion m a).toNat ∧ (recordVersion m a).toNat ≤ 7

/-- The client's `TKSSBase` variable, the client's record and mwdd32's own
    structure do not overlap. -/
structure Separate (devHlp32 : Addr) (m : Mem) (pTKSSBase pDevHelp32 : BitVec 32) : Prop where
  record : pTKSSBase ≠ 0 → pDevHelp32 ≠ 0 → Apart pDevHelp32 (recordSize m pDevHelp32) pTKSSBase 4
  table : pTKSSBase ≠ 0 → Apart devHlp32 144 pTKSSBase 4
  own : pDevHelp32 ≠ 0 → Apart devHlp32 144 pDevHelp32 (recordSize m pDevHelp32)

theorem slots_le (version : BitVec 32) : slots version ≤ 34 := by
  unfold slots members
  split <;> decide

theorem slots_eq {version : BitVec 32} {l : List Service} (h : members version = some l) :
    slots version = l.length := by
  rw [slots, h, Option.getD_some]

theorem length_pos {version : BitVec 32} {l : List Service} (h : members version = some l) :
    0 < l.length := by
  unfold members at h
  split at h <;> cases h <;> decide

variable {devHlp32 : Addr} {m : Mem} {pTKSSBase pDevHelp32 : BitVec 32}

/-- The table is inside a record of its version. -/
theorem table_within {l : List Service} (a : Addr) (hl : members (recordVersion m a) = some l) :
    Within (a + 8) (4 * l.length) a (recordSize m a) := by
  unfold Within recordSize
  rw [show a + 8 - a = 8 by ring, show (8 : BitVec 32).toNat = 8 from rfl, slots_eq hl]

theorem magic_within (a : Addr) : Within a 4 a (recordSize m a) := by
  unfold recordSize
  rw [within_self]
  omega

theorem version_within (a : Addr) : Within (a + 4) 4 a (recordSize m a) := by
  unfold Within recordSize
  rw [show a + 4 - a = 4 by ring, show (4 : BitVec 32).toNat = 4 from rfl]
  omega

/-! ## Memory that an export leaves alone -/

/-- The `n` bytes at `a` are not used by an export to these pointers. -/
structure Unused (tkssBase : BitVec 32) (devHlp32 : Addr) (m : Mem) (a : Addr) (n : ℕ)
    (pTKSSBase pDevHelp32 : BitVec 32) : Prop where
  table : Apart devHlp32 144 a n
  var : pTKSSBase ≠ 0 → Apart pTKSSBase 4 a n
  record : pTKSSBase ≠ 0 → pDevHelp32 ≠ 0 →
    Apart pDevHelp32 (recordSize (write m pTKSSBase 4 tkssBase) pDevHelp32) a n

section Unused

variable {tkssBase : BitVec 32} {a b : Addr} {n k : ℕ} {m' : Mem}

theorem Unused.within (h : Unused tkssBase devHlp32 m a n pTKSSBase pDevHelp32)
    (hw : Within b k a n) (hk : 0 < k) : Unused tkssBase devHlp32 m b k pTKSSBase pDevHelp32 :=
  ⟨h.table.right_within hw hk, fun hp => (h.var hp).right_within hw hk,
    fun hp hd => (h.record hp hd).right_within hw hk⟩

theorem Unused.header (h : Unused tkssBase devHlp32 m a n pTKSSBase pDevHelp32)
    (hm : AgreesOff m m' a n) (hp : pTKSSBase ≠ 0) (hd : pDevHelp32 ≠ 0) :
    read (write m' pTKSSBase 4 tkssBase) pDevHelp32 4 =
      read (write m pTKSSBase 4 tkssBase) pDevHelp32 4 ∧
    recordVersion (write m' pTKSSBase 4 tkssBase) pDevHelp32 =
      recordVersion (write m pTKSSBase 4 tkssBase) pDevHelp32 := by
  have hw := hm.write (b := pTKSSBase) (k := 4) tkssBase
  have hrec := h.record hp hd
  exact ⟨hw.read_eq (hrec.left_within (magic_within _) (by omega)),
    hw.read_eq (hrec.left_within (version_within _) (by omega))⟩

theorem Unused.congr (h : Unused tkssBase devHlp32 m a n pTKSSBase pDevHelp32)
    (hm : AgreesOff m m' a n) : Unused tkssBase devHlp32 m' a n pTKSSBase pDevHelp32 := by
  refine ⟨h.table, h.var, fun hp hd => ?_⟩
  rw [recordSize, (h.header hm hp hd).2]
  exact h.record hp hd

theorem Unused.export_agreesOn (h : Unused tkssBase devHlp32 m a n pTKSSBase pDevHelp32) :
    AgreesOn m (mwdd32ExportDevhelp32 tkssBase devHlp32 m pTKSSBase pDevHelp32).1 a n := by
  unfold mwdd32ExportDevhelp32
  split
  · next hp =>
    have hvar := write_agreesOn (m := m) (v := tkssBase) (h.var hp).symm
    dsimp only
    split
    · next hd =>
      split
      · next l hl =>
        have htable := (h.record hp hd.1).left_within (table_within _ hl)
          (by have := length_pos hl; omega)
        exact hvar.trans (copy_agreesOn htable.symm)
      · exact hvar
    · exact hvar
  · exact AgreesOn.refl _ _ _

/-- The export does not depend on the bytes it does not use. -/
theorem Unused.export_congr (h : Unused tkssBase devHlp32 m a n pTKSSBase pDevHelp32)
    (hm : AgreesOff m m' a n) :
    (mwdd32ExportDevhelp32 tkssBase devHlp32 m' pTKSSBase pDevHelp32).2 =
      (mwdd32ExportDevhelp32 tkssBase devHlp32 m pTKSSBase pDevHelp32).2 ∧
    AgreesOff (mwdd32ExportDevhelp32 tkssBase devHlp32 m pTKSSBase pDevHelp32).1
      (mwdd32ExportDevhelp32 tkssBase devHlp32 m' pTKSSBase pDevHelp32).1 a n := by
  have hvar := hm.write (b := pTKSSBase) (k := 4) tkssBase
  unfold mwdd32ExportDevhelp32
  by_cases hp : pTKSSBase = 0
  · rw [if_neg (not_not.mpr hp), if_neg (not_not.mpr hp)]
    exact ⟨rfl, hm⟩
  rw [if_pos hp, if_pos hp]
  by_cases hd : pDevHelp32 = 0
  · rw [if_neg fun h => h.1 hd, if_neg fun h => h.1 hd]
    exact ⟨rfl, hvar⟩
  obtain ⟨hmagic, hversion⟩ := h.header hm hp hd
  unfold recordVersion at hversion
  dsimp only
  rw [hmagic, hversion]
  split
  · cases hl : members (read (write m pTKSSBase 4 tkssBase) (pDevHelp32 + 4) 4) with
    | none => exact ⟨rfl, hvar⟩
    | some l =>
      have hlen : 4 * l.length ≤ 136 := by
        have := slots_le (read (write m pTKSSBase 4 tkssBase) (pDevHelp32 + 4) 4)
        rw [slots_eq hl] at this
        omega
      have hsrc : Within (devHlp32 + 8) (4 * l.length) devHlp32 144 := by
        rw [Within, show devHlp32 + 8 - devHlp32 = 8 by ring,
          show (8 : BitVec 32).toNat = 8 from rfl]
        omega
      exact ⟨rfl, hvar.copy (h.table.left_within hsrc (by have := length_pos hl; omega))⟩
  · exact ⟨rfl, hvar⟩

end Unused

/-! ## The negotiation -/

/-- Storing `TKSSBase` leaves the header of a separate record alone. -/
theorem read_header {k : ℕ} (tkssBase : BitVec 32) (h : Apart pDevHelp32 (8 + k) pTKSSBase 4) :
    read (write m pTKSSBase 4 tkssBase) pDevHelp32 4 = read m pDevHelp32 4 ∧
    recordVersion (write m pTKSSBase 4 tkssBase) pDevHelp32 = recordVersion m pDevHelp32 := by
  constructor
  · exact read_write_of_apart (h.left_within (by simp; omega) (by omega))
  · refine read_write_of_apart (h.left_within ?_ (by omega))
    unfold Within
    rw [show pDevHelp32 + 4 - pDevHelp32 = 4 by ring, show (4 : BitVec 32).toNat = 4 from rfl]
    omega

/-- The two ways in which `mwdd32_export_devhelp32` ends. -/
theorem export_cases (tkssBase : BitVec 32) (hs : Separate devHlp32 m pTKSSBase pDevHelp32) :
    (∃ l, (pTKSSBase ≠ 0 ∧ pDevHelp32 ≠ 0 ∧ Negotiable m pDevHelp32) ∧
      members (recordVersion m pDevHelp32) = some l ∧
      mwdd32ExportDevhelp32 tkssBase devHlp32 m pTKSSBase pDevHelp32 =
        (copy (write m pTKSSBase 4 tkssBase) (pDevHelp32 + 8) (devHlp32 + 8) (4 * l.length), 0)) ∨
    (¬ (pTKSSBase ≠ 0 ∧ pDevHelp32 ≠ 0 ∧ Negotiable m pDevHelp32) ∧
      (mwdd32ExportDevhelp32 tkssBase devHlp32 m pTKSSBase pDevHelp32).2 = 87 ∧
      ∀ x, (pTKSSBase ≠ 0 → 4 ≤ (x - pTKSSBase).toNat) →
        (mwdd32ExportDevhelp32 tkssBase devHlp32 m pTKSSBase pDevHelp32).1 x = m x) := by
  unfold mwdd32ExportDevhelp32
  by_cases hp : pTKSSBase = 0
  · rw [if_neg (not_not.mpr hp)]
    exact .inr ⟨fun h => h.1 hp, rfl, fun _ _ => rfl⟩
  rw [if_pos hp]
  have hvar : ∀ x, (pTKSSBase ≠ 0 → 4 ≤ (x - pTKSSBase).toNat) →
      write m pTKSSBase 4 tkssBase x = m x := fun _ hx => write_of_le (hx hp)
  by_cases hd : pDevHelp32 = 0
  · rw [if_neg fun h => h.1 hd]
    exact .inr ⟨fun h => h.2.1 hd, rfl, hvar⟩
  obtain ⟨hmagic, hversion⟩ := read_header (m := m) tkssBase (hs.record hp hd)
  by_cases hmg : read m pDevHelp32 4 = DEVHELP32_MAGIC
  · rw [if_pos ⟨hd, hmagic.trans hmg⟩]
    unfold recordVersion at hversion
    rw [hversion]
    cases hv : members (read m (pDevHelp32 + 4) 4) with
    | none =>
      refine .inr ⟨?_, rfl, hvar⟩
      rintro ⟨-, -, -, hrange⟩
      obtain ⟨l, hl⟩ := (members_isSome_iff _).mpr hrange
      rw [recordVersion, hv] at hl
      cases hl
    | some l =>
      exact .inl ⟨l, ⟨hp, hd, hmg, (members_isSome_iff _).mp ⟨l, hv⟩⟩, hv, rfl⟩
  · rw [if_neg fun h => hmg (hmagic.symm.trans h.2)]
    exact .inr ⟨fun h => hmg h.2.2.1, rfl, hvar⟩

/-- Slot `i` is inside a structure with more slots. -/
theorem slot_within {i n : ℕ} (a : Addr) (hi : i < n) (hn : n ≤ 34) :
    Within (slot a i) 4 a (8 + 4 * n) := by
  unfold Within slot
  have he : a + 8 + BitVec.ofNat 32 (4 * i) - a = BitVec.ofNat 32 (8 + 4 * i) := by
    rw [BitVec.ofNat_add, show BitVec.ofNat 32 8 = (8 : BitVec 32) from rfl]
    ring
  rw [he, BitVec.toNat_ofNat, Nat.mod_eq_of_lt (by omega)]
  omega

/-- What a successful negotiation leaves in the slots of both structures. -/
theorem export_slots {fn : Service → BitVec 32} (tkssBase : BitVec 32) {l : List Service}
    (hs : Separate devHlp32 m pTKSSBase pDevHelp32) (hload : Loaded fn devHlp32 m)
    (hp : pTKSSBase ≠ 0) (hd : pDevHelp32 ≠ 0) (hl : members (recordVersion m pDevHelp32) = some l)
    {i : ℕ} {s : Service} (hi : l[i]? = some s) :
    read (copy (write m pTKSSBase 4 tkssBase) (pDevHelp32 + 8) (devHlp32 + 8) (4 * l.length))
      (slot pDevHelp32 i) 4 = fn s ∧
    read (copy (write m pTKSSBase 4 tkssBase) (pDevHelp32 + 8) (devHlp32 + 8) (4 * l.length))
      (slot devHlp32 i) 4 = fn s := by
  have hlt : i < l.length := (List.getElem?_eq_some_iff.mp hi).1
  have hlen : slots (recordVersion m pDevHelp32) = l.length := slots_eq hl
  have h34 : l.length ≤ 34 := hlen ▸ slots_le _
  have hsrc : read (write m pTKSSBase 4 tkssBase) (slot devHlp32 i) 4 = fn s := by
    have hw := slot_within devHlp32 (i := i) (n := 34) (by omega) le_rfl
    rw [read_write_of_apart ((hs.table hp).left_within hw (by omega))]
    exact hload i s (initializer_getElem? hl hi)
  constructor
  · rw [slot, read_copy _ _ _ (by omega) (by omega)]
    exact hsrc
  · have hw := slot_within devHlp32 (i := i) (n := 34) (by omega) le_rfl
    have hapart := (hs.own hd).of_within hw (table_within _ hl) (by omega) (by omega)
    rw [read_congr (copy_agreesOn hapart)]
    exact hsrc

/-- **Version negotiation.** For a client's `TKSSBase` variable, a client's record and
    mwdd32's own structure that do not overlap: success exactly on a known version behind
    the magic number; then the slots of that version hold mwdd32's functions of the same
    names, and nothing else but the variable changes; an error changes nothing but
    the variable; and a service keeps its slot across the versions. -/
theorem export_spec {fn : Service → BitVec 32} (tkssBase : BitVec 32)
    (hs : Separate devHlp32 m pTKSSBase pDevHelp32) (hload : Loaded fn devHlp32 m) :
    let res := mwdd32ExportDevhelp32 tkssBase devHlp32 m pTKSSBase pDevHelp32
    let n := slots (recordVersion m pDevHelp32)
    (res.2 = NO_ERROR.setWidth 16 ↔
      pTKSSBase ≠ 0 ∧ pDevHelp32 ≠ 0 ∧ Negotiable m pDevHelp32) ∧
    (res.2 = NO_ERROR.setWidth 16 →
      (∀ i < n, read res.1 (slot pDevHelp32 i) 4 = read res.1 (slot devHlp32 i) 4) ∧
      (∀ (l : List Service) (i : ℕ) (s : Service),
        members (recordVersion m pDevHelp32) = some l → l[i]? = some s →
        read res.1 (slot pDevHelp32 i) 4 = fn s) ∧
      ∀ x, 4 * n ≤ (x - (pDevHelp32 + 8)).toNat → 4 ≤ (x - pTKSSBase).toNat → res.1 x = m x) ∧
    (res.2 ≠ NO_ERROR.setWidth 16 →
      ∀ x, (pTKSSBase ≠ 0 → 4 ≤ (x - pTKSSBase).toNat) → res.1 x = m x) ∧
    ∀ (v w : BitVec 32) (lv lw : List Service) (i j : ℕ) (s : Service), members v = some lv →
      members w = some lw → lv[i]? = some s → lw[j]? = some s → i = j := by
  intro res n
  have hslot : ∀ (v w : BitVec 32) (lv lw : List Service) (i j : ℕ) (s : Service),
      members v = some lv → members w = some lw → lv[i]? = some s → lw[j]? = some s → i = j :=
    fun _ _ _ _ _ _ _ => members_slot
  rcases export_cases tkssBase hs with ⟨l, hok, hl, hres⟩ | ⟨hfail, hrc, hoff⟩
  · have hmem : res.1 = copy (write m pTKSSBase 4 tkssBase) (pDevHelp32 + 8) (devHlp32 + 8)
        (4 * l.length) := congrArg Prod.fst hres
    have hrc : res.2 = 0 := congrArg Prod.snd hres
    have hn : n = l.length := slots_eq hl
    refine ⟨iff_of_true hrc hok, fun _ => ⟨fun i hi => ?_, fun l' i s hl' hi => ?_, ?_⟩,
      fun hne => absurd hrc hne, hslot⟩
    · have hs' := export_slots tkssBase hs hload hok.1 hok.2.1 hl
        (List.getElem?_eq_getElem (hn ▸ hi))
      rw [hmem, hs'.1, hs'.2]
    · rw [hl] at hl'
      cases hl'
      rw [hmem]
      exact (export_slots tkssBase hs hload hok.1 hok.2.1 hl hi).1
    · intro x hx hxp
      rw [hmem, copy_of_le (hn ▸ hx), write_of_le hxp]
  · have hne : res.2 ≠ NO_ERROR.setWidth 16 := by
      rw [show res.2 = 87 from hrc]
      decide
    exact ⟨iff_of_false hne hfail, fun h => absurd h hne, fun _ => hoff, hslot⟩

/-- mwdd32's own structure at `0x1000`, with small numbers for its functions, and a
    record of version 2 at `0x2000`. -/
def sampleMem : Mem :=
  fun x => if x = 0x2000 then 0x07 else if x = 0x2001 then 0x4E else if x = 0x2002 then 0x3C else
    if x = 0x2003 then 0xDF else if x = 0x2004 then 2 else
    if 0x1008 ≤ x.toNat ∧ x.toNat < 0x1090 ∧ x.toNat % 4 = 0 then x.setWidth 8 else 0

/-- A service at the offset that it has in a record -/
def sampleFn (s : Service) : BitVec 32 := BitVec.ofNat 32 (8 + 4 * initializer.idxOf s)

theorem sampleMem_loaded : Loaded sampleFn 0x1000 sampleMem := by
  have hall : ∀ i : Fin initializer.length,
      read sampleMem (slot 0x1000 i) 4 = sampleFn initializer[i] := by decide
  intro i s hi
  obtain ⟨hlt, rfl⟩ := List.getElem?_eq_some_iff.mp hi
  exact hall ⟨i, hlt⟩

theorem sampleMem_separate : Separate 0x1000 sampleMem 0x3000 0x2000 :=
  ⟨by decide, by decide, by decide⟩

/-- The client of `sampleMem` gets `strtoul` in its slot 14. -/
theorem export_sample :
    let res := mwdd32ExportDevhelp32 0x500 0x1000 sampleMem 0x3000 0x2000
    res.2 = NO_ERROR.setWidth 16 ∧ read res.1 (slot 0x2000 14) 4 = sampleFn .strtoul := by
  obtain ⟨hiff, hok, -⟩ := export_spec 0x500 sampleMem_separate sampleMem_loaded
  have hrc := hiff.mpr (by unfold Negotiable; decide)
  obtain ⟨-, hslots, -⟩ := hok hrc
  exact ⟨hrc, hslots version2 14 .strtoul (by decide) (by decide)⟩

/-- A client whose `TKSSBase` variable is the first dword of its record: storing
    `TKSSBase` destroys the magic number, so a record with the right magic and a known version is
    refused, and a byte of it changes on the error. -/
theorem export_overlap_sample :
    let res := mwdd32ExportDevhelp32 0x500 0x1000 sampleMem 0x2000 0x2000
    ((0x2000 : BitVec 32) ≠ 0 ∧ Negotiable sampleMem 0x2000) ∧
    res.2 ≠ NO_ERROR.setWidth 16 ∧ res.1 0x2000 ≠ sampleMem 0x2000 := by
  unfold Negotiable
  decide

end Mwdd32.Server
