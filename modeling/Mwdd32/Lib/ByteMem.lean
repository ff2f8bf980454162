import Mathlib.Tactic
import Mathlib.Data.BitVec

/-!
# Byte-addressed memory

A memory is a function from 32-bit linear addresses to bytes. `read` and
`write` move little-endian groups of up to four bytes; addresses wrap at
`2^32`, so no access is ever out of range.

* `read_write_of_apart`: a write does not affect a read of other bytes.
* `read_write_self32`, `read_write_self16`: a read gives back what was written.
* `AgreesOn.read_eq`: memories that agree on an interval read alike inside it.
* `Holds.read_dwords`: the dwords of a table whose bytes stand in memory.
* `apart_offset`, `within_offset`: both side conditions only depend on the
  offsets of two addresses with a common base, so `decide` closes them for
  literal offsets.
-/

namespace ByteMem

/-- A 32-bit linear address. -/
abbrev Addr := BitVec 32

/-- The contents of memory. -/
abbrev Mem := Addr → BitVec 8

/-- The `n` bytes at `a` as a little-endian number, extended with zeroes. -/
def read (m : Mem) (a : Addr) : ℕ → BitVec 32
  | 0 => 0
  | n + 1 => (m a).setWidth 32 ||| (read m (a + 1) n <<< 8)

/-- The low `n` bytes of `v` stored at `a`, least significant first. -/
def write (m : Mem) (a : Addr) (n : ℕ) (v : BitVec 32) : Mem :=
  fun x => if (x - a).toNat < n then (v >>> (8 * (x - a).toNat)).setWidth 8 else m x

/-- `memcpy(dst, src, n)` on ranges the caller keeps apart: every source byte
    is read from the memory before the call. -/
def copy (m : Mem) (dst src : Addr) (n : ℕ) : Mem :=
  fun x => if (x - dst).toNat < n then m (src + (x - dst)) else m x

/-- The `n` bytes at `a` and the `k` bytes at `b` have no byte in common. -/
def Apart (a : Addr) (n : ℕ) (b : Addr) (k : ℕ) : Prop :=
  n ≤ (b - a).toNat ∧ k ≤ (a - b).toNat

instance (a : Addr) (n : ℕ) (b : Addr) (k : ℕ) : Decidable (Apart a n b k) :=
  inferInstanceAs (Decidable (_ ∧ _))

/-- The `n` bytes at `a` lie within the `k` bytes at `b`. -/
def Within (a : Addr) (n : ℕ) (b : Addr) (k : ℕ) : Prop := (a - b).toNat + n ≤ k

instance (a : Addr) (n : ℕ) (b : Addr) (k : ℕ) : Decidable (Within a n b k) :=
  inferInstanceAs (Decidable (_ ≤ _))

/-- `m` and `m'` hold the same `n` bytes at `a`. -/
def AgreesOn (m m' : Mem) (a : Addr) (n : ℕ) : Prop :=
  ∀ i < n, m' (a + BitVec.ofNat 32 i) = m (a + BitVec.ofNat 32 i)

/-! ## Offsets -/

theorem toNat_add_ofNat_sub_self (a : Addr) {i : ℕ} (hi : i < 2 ^ 32) :
    (a + BitVec.ofNat 32 i - a).toNat = i := by
  rw [show a + BitVec.ofNat 32 i - a = BitVec.ofNat 32 i by ring, BitVec.toNat_ofNat,
    Nat.mod_eq_of_lt hi]

theorem toNat_sub_comm (a b : Addr) :
    (b - a).toNat = (2 ^ 32 - (a - b).toNat) % 2 ^ 32 := by
  rw [show b - a = -(a - b) by ring, BitVec.toNat_neg]

theorem toNat_add_ofNat_sub (a b : Addr) (i : ℕ) :
    (a + BitVec.ofNat 32 i - b).toNat = ((a - b).toNat + i) % 2 ^ 32 := by
  rw [show a + BitVec.ofNat 32 i - b = (a - b) + BitVec.ofNat 32 i by ring]
  simp

theorem Apart.symm {a b : Addr} {n k : ℕ} (h : Apart a n b k) : Apart b k a n := ⟨h.2, h.1⟩

/-- A byte of the first range is at least `k` past the start of the second. -/
theorem Apart.le_sub {a b : Addr} {n k i : ℕ} (h : Apart a n b k) (hi : i < n) :
    k ≤ (a + BitVec.ofNat 32 i - b).toNat := by
  obtain ⟨h1, h2⟩ := h
  have := (a - b).isLt
  rw [toNat_sub_comm] at h1
  rw [toNat_add_ofNat_sub]
  omega

theorem Apart.mono {a b : Addr} {n k n' k' : ℕ} (h : Apart a n b k) (hn : n' ≤ n) (hk : k' ≤ k) :
    Apart a n' b k' :=
  ⟨hn.trans h.1, hk.trans h.2⟩

/-- What is apart from a range is apart from its parts. -/
theorem Apart.left_within {a b x : Addr} {n k j : ℕ} (h : Apart b k x j) (hw : Within a n b k)
    (hn : 0 < n) : Apart a n x j := by
  obtain ⟨h1, h2⟩ := h
  unfold Within at hw
  have e1 : x - a = (x - b) - (a - b) := by ring
  have e2 : a - x = (b - x) + (a - b) := by ring
  have h3 : (b - x).toNat = (2 ^ 32 - (x - b).toNat) % 2 ^ 32 := toNat_sub_comm _ _
  have := (x - b).isLt
  refine ⟨?_, ?_⟩
  · rw [e1, BitVec.toNat_sub]
    omega
  · rw [e2, BitVec.toNat_add]
    omega

/-- Parts of two ranges that are apart are apart. -/
theorem Apart.of_within {a b x y : Addr} {n k j i : ℕ} (h : Apart b k x j) (ha : Within a n b k)
    (hy : Within y i x j) (hn : 0 < n) (hi : 0 < i) : Apart a n y i :=
  ((h.left_within ha hn).symm.left_within hy hi).symm

/-- What is apart from a range is apart from its parts. -/
theorem Apart.right_within {a x y : Addr} {n j i : ℕ} (h : Apart a n x j) (hw : Within y i x j)
    (hi : 0 < i) : Apart a n y i :=
  (h.symm.left_within hw hi).symm

theorem sub_ofNat_sub (x : Addr) {k n : ℕ} (h : k ≤ n) :
    x - BitVec.ofNat 32 k - (x - BitVec.ofNat 32 n) = BitVec.ofNat 32 (n - k) := by
  have hn : BitVec.ofNat 32 n = BitVec.ofNat 32 k + BitVec.ofNat 32 (n - k) := by
    rw [← BitVec.ofNat_add, Nat.add_sub_cancel' h]
  rw [hn]
  ring

/-- Ranges that start `k` and `n` bytes below `x`. -/
theorem within_below (x : Addr) {k i n j : ℕ} (h : k ≤ n) (hn : n < 2 ^ 32) (hi : n - k + i ≤ j) :
    Within (x - BitVec.ofNat 32 k) i (x - BitVec.ofNat 32 n) j := by
  rw [Within, sub_ofNat_sub x h, BitVec.toNat_ofNat, Nat.mod_eq_of_lt (by omega)]
  exact hi

theorem apart_below (x : Addr) {k i n j : ℕ} (h : j + k ≤ n) (hn : n < 2 ^ 32) (hj : 0 < j)
    (hi : i + (n - k) ≤ 2 ^ 32) :
    Apart (x - BitVec.ofNat 32 n) j (x - BitVec.ofNat 32 k) i := by
  have hsub := sub_ofNat_sub x (k := k) (n := n) (by omega)
  refine ⟨?_, ?_⟩
  · rw [hsub, BitVec.toNat_ofNat, Nat.mod_eq_of_lt (by omega)]
    omega
  · rw [toNat_sub_comm, hsub, BitVec.toNat_ofNat, Nat.mod_eq_of_lt (a := n - k) (by omega)]
    omega

theorem offset_sub_offset (s x c d : Addr) : s + (x + c) - (s + (x + d)) = c - d := by ring

theorem base_sub_offset (s x d : Addr) : s + x - (s + (x + d)) = -d := by ring

theorem offset_sub_base (s x c : Addr) : s + (x + c) - (s + x) = c := by ring

/-- Two ranges at literal offsets of one base are apart when the offsets are. -/
@[simp] theorem apart_offset (s x c d : Addr) (n k : ℕ) :
    Apart (s + (x + c)) n (s + (x + d)) k ↔ n ≤ (d - c).toNat ∧ k ≤ (c - d).toNat := by
  simp only [Apart, offset_sub_offset]

@[simp] theorem apart_base_offset (s x d : Addr) (n k : ℕ) :
    Apart (s + x) n (s + (x + d)) k ↔ n ≤ d.toNat ∧ k ≤ (-d).toNat := by
  simp only [Apart, base_sub_offset, offset_sub_base]

@[simp] theorem apart_offset_base (s x c : Addr) (n k : ℕ) :
    Apart (s + (x + c)) n (s + x) k ↔ n ≤ (-c).toNat ∧ k ≤ c.toNat := by
  simp only [Apart, base_sub_offset, offset_sub_base]

@[simp] theorem within_self (a : Addr) (n k : ℕ) : Within a n a k ↔ n ≤ k := by
  simp [Within]

@[simp] theorem within_offset (s x c d : Addr) (n k : ℕ) :
    Within (s + (x + c)) n (s + (x + d)) k ↔ (c - d).toNat + n ≤ k := by
  simp only [Within, offset_sub_offset]

@[simp] theorem within_base_offset (s x d : Addr) (n k : ℕ) :
    Within (s + x) n (s + (x + d)) k ↔ (-d).toNat + n ≤ k := by
  simp only [Within, base_sub_offset]

@[simp] theorem within_offset_base (s x c : Addr) (n k : ℕ) :
    Within (s + (x + c)) n (s + x) k ↔ c.toNat + n ≤ k := by
  simp only [Within, offset_sub_base]

/-! ## Reading -/

theorem getLsbD_read (m : Mem) (n : ℕ) : ∀ a i, i < 32 → (read m a n).getLsbD i =
    (decide (i < 8 * n) && (m (a + BitVec.ofNat 32 (i / 8))).getLsbD (i % 8)) := by
  induction n with
  | zero => intro a i hi; simp [read]
  | succ n ih =>
    intro a i hi
    rw [read, BitVec.getLsbD_or, BitVec.getLsbD_setWidth, BitVec.getLsbD_shiftLeft]
    by_cases h8 : i < 8
    · have hdiv : i / 8 = 0 := by omega
      have hlt : i < 8 * (n + 1) := by omega
      simp [h8, hlt, hdiv, Nat.mod_eq_of_lt h8, hi]
    · have e1 : a + 1 + BitVec.ofNat 32 ((i - 8) / 8) = a + BitVec.ofNat 32 (i / 8) := by
        rw [BitVec.add_assoc, show (1 : BitVec 32) = BitVec.ofNat 32 1 from rfl,
          ← BitVec.ofNat_add, show 1 + (i - 8) / 8 = i / 8 by omega]
      have e2 : (i - 8) % 8 = i % 8 := by omega
      have e3 : decide (i - 8 < 8 * n) = decide (i < 8 * (n + 1)) := by
        rw [decide_eq_decide]; omega
      rw [ih (a + 1) (i - 8) (by omega), e1, e2, e3, BitVec.getLsbD_of_ge (m a) i (by omega)]
      simp [h8, hi]

/-- Reads of equal bytes are equal. -/
theorem read_eq_read {m m' : Mem} {a b : Addr} {n : ℕ}
    (h : ∀ i < n, m' (b + BitVec.ofNat 32 i) = m (a + BitVec.ofNat 32 i)) :
    read m' b n = read m a n := by
  apply BitVec.eq_of_getLsbD_eq
  intro i hi
  rw [getLsbD_read _ _ _ _ hi, getLsbD_read _ _ _ _ hi]
  by_cases hn : i < 8 * n
  · rw [h (i / 8) (by omega)]
  · simp [hn]

/-- A read only depends on the bytes it covers. -/
theorem read_congr {m m' : Mem} {a : Addr} {n : ℕ} (h : AgreesOn m m' a n) :
    read m' a n = read m a n :=
  read_eq_read h

/-- A byte of a dword. -/
theorem byte_of_read (m : Mem) (a : Addr) {i : ℕ} (hi : i < 4) :
    m (a + BitVec.ofNat 32 i) = (read m a 4 >>> (8 * i)).setWidth 8 := by
  apply BitVec.eq_of_getLsbD_eq
  intro j hj
  rw [BitVec.getLsbD_setWidth, BitVec.getLsbD_ushiftRight, getLsbD_read _ _ _ _ (by omega),
    show (8 * i + j) / 8 = i by omega, show (8 * i + j) % 8 = j by omega]
  simp [hj, show 8 * i + j < 8 * 4 by omega]

/-- The low word of a dword. -/
theorem read_two (m : Mem) (a : Addr) : read m a 2 = ((read m a 4).setWidth 16).setWidth 32 := by
  apply BitVec.eq_of_getLsbD_eq
  intro i hi
  rw [getLsbD_read _ _ _ _ hi, BitVec.getLsbD_setWidth, BitVec.getLsbD_setWidth,
    getLsbD_read _ _ _ _ hi]
  simp only [hi, decide_true, Bool.true_and]

/-- The high word of a dword. -/
theorem read_two_high (m : Mem) (a : Addr) : read m (a + 2) 2 = read m a 4 >>> 16 := by
  apply BitVec.eq_of_getLsbD_eq
  intro i hi
  rw [getLsbD_read _ _ _ _ hi, BitVec.getLsbD_ushiftRight]
  by_cases h16 : i < 16
  · rw [getLsbD_read _ _ _ _ (by omega), BitVec.add_assoc,
      show (2 : Addr) + BitVec.ofNat 32 (i / 8) = BitVec.ofNat 32 ((16 + i) / 8) by
        rw [show (2 : Addr) = BitVec.ofNat 32 2 from rfl, ← BitVec.ofNat_add,
          show 2 + i / 8 = (16 + i) / 8 by omega],
      show (16 + i) % 8 = i % 8 by omega]
    simp only [show i < 8 * 2 by omega, show 16 + i < 8 * 4 by omega]
  · rw [BitVec.getLsbD_of_ge _ (16 + i) (by omega)]
    simp only [show ¬ i < 8 * 2 by omega, decide_false, Bool.false_and]

/-- The low byte of a dword. -/
theorem read_one (m : Mem) (a : Addr) : read m a 1 = ((read m a 4).setWidth 8).setWidth 32 := by
  apply BitVec.eq_of_getLsbD_eq
  intro i hi
  rw [getLsbD_read _ _ _ _ hi, BitVec.getLsbD_setWidth, BitVec.getLsbD_setWidth,
    getLsbD_read _ _ _ _ hi]
  simp only [hi, decide_true, Bool.true_and]

/-! ## Writing -/

theorem write_of_le {m : Mem} {a x : Addr} {n : ℕ} {v : BitVec 32} (h : n ≤ (x - a).toNat) :
    write m a n v x = m x := by
  rw [write, if_neg (by omega)]

theorem write_agreesOn {m : Mem} {a b : Addr} {n k : ℕ} {v : BitVec 32} (h : Apart a n b k) :
    AgreesOn m (write m b k v) a n :=
  fun _ hi => write_of_le (h.le_sub hi)

@[simp] theorem read_write_of_apart {m : Mem} {a b : Addr} {n k : ℕ} {v : BitVec 32}
    (h : Apart a n b k) : read (write m b k v) a n = read m a n :=
  read_congr (write_agreesOn h)

theorem getLsbD_read_write_self {m : Mem} {a : Addr} {n : ℕ} {v : BitVec 32} {i : ℕ}
    (hi : i < 32) :
    (read (write m a n v) a n).getLsbD i = (decide (i < 8 * n) && v.getLsbD i) := by
  rw [getLsbD_read _ _ _ _ hi]
  by_cases h : i < 8 * n
  · have hmod : i % 8 < 8 := Nat.mod_lt _ (by omega)
    rw [write, toNat_add_ofNat_sub_self _ (by omega), if_pos (by omega)]
    simp [h, hmod, Nat.div_add_mod]
  · simp [h]

@[simp] theorem read_write_self32 (m : Mem) (a : Addr) (v : BitVec 32) :
    read (write m a 4 v) a 4 = v := by
  apply BitVec.eq_of_getLsbD_eq
  intro i hi
  rw [getLsbD_read_write_self hi, decide_eq_true (by omega), Bool.true_and]

@[simp] theorem read_write_self16 (m : Mem) (a : Addr) (v : BitVec 32) :
    read (write m a 2 v) a 2 = (v.setWidth 16).setWidth 32 := by
  apply BitVec.eq_of_getLsbD_eq
  intro i hi
  rw [getLsbD_read_write_self hi, BitVec.getLsbD_setWidth, BitVec.getLsbD_setWidth]
  simp only [hi, decide_true, Bool.true_and]

/-- What was read elsewhere is read back where it is written. -/
theorem read_write_read (m m' : Mem) (a b : Addr) (n : ℕ) :
    read (write m a n (read m' b n)) a n = read m' b n := by
  apply BitVec.eq_of_getLsbD_eq
  intro i hi
  rw [getLsbD_read_write_self hi, getLsbD_read _ _ _ _ hi, ← Bool.and_assoc, Bool.and_self]

/-! ## Copying -/

theorem copy_of_le {m : Mem} {dst src x : Addr} {n : ℕ} (h : n ≤ (x - dst).toNat) :
    copy m dst src n x = m x := by
  rw [copy, if_neg (by omega)]

/-- The destination holds the source bytes, as they were before the copy. -/
theorem copy_inside (m : Mem) (dst src : Addr) {n i : ℕ} (hi : i < n) (hn : n ≤ 2 ^ 32) :
    copy m dst src n (dst + BitVec.ofNat 32 i) = m (src + BitVec.ofNat 32 i) := by
  rw [copy, toNat_add_ofNat_sub_self _ (by omega), if_pos hi,
    show dst + BitVec.ofNat 32 i - dst = BitVec.ofNat 32 i by ring]

theorem read_copy (m : Mem) (dst src : Addr) {n k i : ℕ} (hi : i + k ≤ n) (hn : n ≤ 2 ^ 32) :
    read (copy m dst src n) (dst + BitVec.ofNat 32 i) k = read m (src + BitVec.ofNat 32 i) k := by
  refine read_eq_read fun j hj => ?_
  have h := copy_inside m dst src (n := n) (i := i + j) (by omega) hn
  rw [BitVec.ofNat_add] at h
  rw [BitVec.add_assoc, BitVec.add_assoc, h]

theorem copy_agreesOn {m : Mem} {dst src a : Addr} {n k : ℕ} (h : Apart a k dst n) :
    AgreesOn m (copy m dst src n) a k :=
  fun _ hi => copy_of_le (h.le_sub hi)

/-! ## Agreement -/

@[simp] theorem AgreesOn.refl (m : Mem) (a : Addr) (n : ℕ) : AgreesOn m m a n := fun _ _ => rfl

theorem AgreesOn.trans {m m' m'' : Mem} {a : Addr} {n : ℕ} (h : AgreesOn m m' a n)
    (h' : AgreesOn m' m'' a n) : AgreesOn m m'' a n :=
  fun i hi => (h' i hi).trans (h i hi)

theorem agreesOn_write_iff {m m' : Mem} {a b : Addr} {n k : ℕ} {v : BitVec 32} (h : Apart a n b k) :
    AgreesOn m (write m' b k v) a n ↔ AgreesOn m m' a n :=
  forall₂_congr fun _ hi => by rw [write_of_le (h.le_sub hi)]

theorem AgreesOn.within {m m' : Mem} {a b : Addr} {n k : ℕ} (h : AgreesOn m m' b k)
    (hw : Within a n b k) : AgreesOn m m' a n := by
  intro i hi
  have := h ((a - b).toNat + i) (by unfold Within at hw; omega)
  rwa [BitVec.ofNat_add, BitVec.ofNat_toNat, BitVec.setWidth_eq,
    show b + (a - b + BitVec.ofNat 32 i) = a + BitVec.ofNat 32 i by ring] at this

/-- Memories that agree on an interval read alike inside it. -/
theorem AgreesOn.read_eq {m m' : Mem} {a b : Addr} {n k : ℕ} (h : AgreesOn m m' b k)
    (hw : Within a n b k) : read m' a n = read m a n :=
  read_congr (h.within hw)

/-! ## Changes within a range -/

/-- `m` and `m'` differ in the `n` bytes at `a` only. -/
def AgreesOff (m m' : Mem) (a : Addr) (n : ℕ) : Prop :=
  ∀ x, n ≤ (x - a).toNat → m' x = m x

theorem AgreesOff.refl (m : Mem) (a : Addr) (n : ℕ) : AgreesOff m m a n := fun _ _ => rfl

theorem AgreesOff.trans {m m' m'' : Mem} {a : Addr} {n : ℕ} (h : AgreesOff m m' a n)
    (h' : AgreesOff m' m'' a n) : AgreesOff m m'' a n :=
  fun x hx => (h' x hx).trans (h x hx)

theorem AgreesOff.agreesOn {m m' : Mem} {a b : Addr} {n k : ℕ} (h : AgreesOff m m' a n)
    (hb : Apart b k a n) : AgreesOn m m' b k :=
  fun _ hi => h _ (hb.le_sub hi)

theorem AgreesOff.read_eq {m m' : Mem} {a b : Addr} {n k : ℕ} (h : AgreesOff m m' a n)
    (hb : Apart b k a n) : read m' b k = read m b k :=
  read_congr (h.agreesOn hb)

theorem write_agreesOff (m : Mem) (a : Addr) (n : ℕ) (v : BitVec 32) :
    AgreesOff m (write m a n v) a n :=
  fun _ hx => write_of_le hx

/-- What differs in a part of a range differs in the range only. -/
theorem AgreesOff.within {m m' : Mem} {a b : Addr} {n k : ℕ} (h : AgreesOff m m' a n)
    (hw : Within a n b k) : AgreesOff m m' b k := by
  intro x hx
  apply h
  unfold Within at hw
  have e : x - a = (x - b) - (a - b) := by ring
  rw [e, BitVec.toNat_sub]
  omega

theorem AgreesOff.write_within {m m' : Mem} {a b : Addr} {n k : ℕ} {v : BitVec 32}
    (h : AgreesOff m m' a n) (hw : Within b k a n) : AgreesOff m (ByteMem.write m' b k v) a n :=
  h.trans ((write_agreesOff _ _ _ _).within hw)

theorem AgreesOff.write {m m' : Mem} {a b : Addr} {n k : ℕ} (h : AgreesOff m m' a n)
    (v : BitVec 32) : AgreesOff (write m b k v) (write m' b k v) a n := by
  intro x hx
  unfold ByteMem.write
  split
  · rfl
  · exact h x hx

theorem AgreesOff.copy {m m' : Mem} {a dst src : Addr} {n k : ℕ} (h : AgreesOff m m' a n)
    (hs : Apart src k a n) : AgreesOff (copy m dst src k) (copy m' dst src k) a n := by
  intro x hx
  unfold ByteMem.copy
  split
  · next hk =>
    have hsrc := h.agreesOn hs _ hk
    rwa [BitVec.ofNat_toNat, BitVec.setWidth_eq] at hsrc
  · exact h x hx

/-! ## Bytes and dwords in a row -/

/-- The bytes `l` stand at `a`. -/
def Holds (m : Mem) (a : Addr) (l : List (BitVec 8)) : Prop :=
  ∀ i (hi : i < l.length), m (a + BitVec.ofNat 32 i) = l[i]

instance (m : Mem) (a : Addr) (l : List (BitVec 8)) : Decidable (Holds m a l) :=
  inferInstanceAs (Decidable (∀ i (_ : i < l.length), _))

/-- The bytes of `v`, least significant first. -/
def dwordBytes (v : BitVec 32) : List (BitVec 8) :=
  (List.range 4).map fun i => (v >>> (8 * i)).setWidth 8

/-- The bytes of dwords one behind the other. -/
def dwords (l : List (BitVec 32)) : List (BitVec 8) := l.flatMap dwordBytes

@[simp] theorem length_dwordBytes (v : BitVec 32) : (dwordBytes v).length = 4 := rfl

@[simp] theorem length_dwords (l : List (BitVec 32)) : (dwords l).length = 4 * l.length := by
  induction l with
  | nil => rfl
  | cons v l ih =>
    rw [dwords, List.flatMap_cons, List.length_append, List.length_cons, length_dwordBytes]
    change 4 + (dwords l).length = _
    omega

theorem holds_append {m : Mem} {a : Addr} {l l' : List (BitVec 8)} :
    Holds m a (l ++ l') ↔ Holds m a l ∧ Holds m (a + BitVec.ofNat 32 l.length) l' := by
  constructor
  · intro h
    refine ⟨fun i hi => ?_, fun i hi => ?_⟩
    · rw [h i (by simp; omega), List.getElem_append_left hi]
    · rw [BitVec.add_assoc, ← BitVec.ofNat_add, h (l.length + i) (by simp; omega)]
      simp
  · rintro ⟨h, h'⟩ i hi
    rcases Nat.lt_or_ge i l.length with hlt | hge
    · rw [List.getElem_append_left hlt, h i hlt]
    · rw [List.getElem_append_right hge, ← h', BitVec.add_assoc, ← BitVec.ofNat_add]
      congr 3
      omega

theorem holds_cons {m : Mem} {a : Addr} {b : BitVec 8} {l : List (BitVec 8)} :
    Holds m a (b :: l) ↔ m a = b ∧ Holds m (a + 1) l := by
  rw [← List.singleton_append, holds_append]
  simp [Holds]

theorem Holds.read_dword {m : Mem} {a : Addr} {v : BitVec 32} (h : Holds m a (dwordBytes v)) :
    read m a 4 = v := by
  apply BitVec.eq_of_getLsbD_eq
  intro i hi
  rw [getLsbD_read _ _ _ _ hi, h (i / 8) (by simp; omega)]
  simp [dwordBytes, hi, Nat.mod_lt, Nat.div_add_mod]

theorem Holds.read_dwords {m : Mem} {l : List (BitVec 32)} :
    ∀ {a : Addr} {i : ℕ} (_ : Holds m a (dwords l)) (hi : i < l.length),
      read m (a + BitVec.ofNat 32 (4 * i)) 4 = l[i] := by
  induction l with
  | nil =>
    intro a i _ hi
    cases hi
  | cons v l ih =>
    intro a i h hi
    obtain ⟨hv, hl⟩ := holds_append.mp h
    cases i with
    | zero => simpa using hv.read_dword
    | succ i =>
      have hrest := ih hl (by simpa using hi)
      rw [BitVec.add_assoc, ← BitVec.ofNat_add] at hrest
      simpa [Nat.mul_add, Nat.add_comm] using hrest

end ByteMem
