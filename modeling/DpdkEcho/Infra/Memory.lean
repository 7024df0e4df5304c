import Mathlib.Data.Nat.ModEq
import Mathlib.Tactic.Ring

/-!
# Byte-addressed memory

A buffer is seen from its data pointer: `Mem` gives the byte at every offset, also past the
length somebody recorded for it. Loads and stores are total. Whether an access was allowed is
a matter for the caller, who compares the offset with a length of its own.

* `store` overwrites a range, `store_of_mem` / `store_of_not_mem` say what a byte is afterwards
* `loadLE` / `loadBE` read an unsigned number, `storeLE` / `storeBE` write one
* a load depends on its own range only (`loadLE_congr`, `loadBE_congr`), and reads back what
  the store of the same order wrote there (`loadLE_storeLE`, `loadBE_storeBE`)
-/

namespace Infra

/-- Memory as seen from a data pointer. -/
abbrev Mem := Nat → UInt8

/-! ## Overwriting a range -/

/-- Overwrite the `n` bytes from `off` on; byte `off + i` becomes `f i`. -/
def store (m : Mem) (off n : Nat) (f : Nat → UInt8) : Mem :=
  fun a => if off ≤ a ∧ a < off + n then f (a - off) else m a

theorem store_of_mem {m : Mem} {off n a : Nat} {f : Nat → UInt8} (h1 : off ≤ a)
    (h2 : a < off + n) : store m off n f a = f (a - off) := by
  unfold store
  rw [if_pos ⟨h1, h2⟩]

theorem store_of_not_mem {m : Mem} {off n a : Nat} {f : Nat → UInt8}
    (h : a < off ∨ off + n ≤ a) : store m off n f a = m a := by
  unfold store
  rw [if_neg (by omega)]

/-- Only the bytes inside the range matter. -/
theorem store_congr {m : Mem} {off n : Nat} {f g : Nat → UInt8} (h : ∀ i, i < n → f i = g i) :
    store m off n f = store m off n g := by
  funext a
  by_cases ha : off ≤ a ∧ a < off + n
  · rw [store_of_mem ha.1 ha.2, store_of_mem ha.1 ha.2, h (a - off) (by omega)]
  · rw [store_of_not_mem (by omega), store_of_not_mem (by omega)]

/-- Where the byte at `x` comes from when the `n` bytes at `a` and at `b` change places. -/
def swapAddr (a b n x : Nat) : Nat :=
  if a ≤ x ∧ x < a + n then x - a + b else if b ≤ x ∧ x < b + n then x - b + a else x

section
variable {a b n x : Nat}

theorem swapAddr_of_fst (h1 : a ≤ x) (h2 : x < a + n) : swapAddr a b n x = x - a + b :=
  if_pos ⟨h1, h2⟩

theorem swapAddr_of_snd (h1 : b ≤ x) (h2 : x < b + n) (h : x < a ∨ a + n ≤ x) :
    swapAddr a b n x = x - b + a := by
  unfold swapAddr
  rw [if_neg (by omega), if_pos ⟨h1, h2⟩]

theorem swapAddr_of_not_mem (ha : x < a ∨ a + n ≤ x) (hb : x < b ∨ b + n ≤ x) :
    swapAddr a b n x = x := by
  unfold swapAddr
  rw [if_neg (by omega), if_neg (by omega)]

end

/-- Two ranges that do not overlap change places when each is written over the other. -/
theorem store_store_swap {m : Mem} {a b n : Nat} (h : a + n ≤ b ∨ b + n ≤ a) :
    store (store m a n fun i => m (b + i)) b n (fun i => m (a + i))
      = fun x => m (swapAddr a b n x) := by
  funext x
  unfold store swapAddr
  split_ifs <;> first | rfl | exact congrArg m (by omega)

/-! ## Numbers in memory -/

/-- The `n` bytes from `off` on, least significant first. -/
def loadLE (m : Mem) (off : Nat) : Nat → Nat
  | 0 => 0
  | n + 1 => (m off).toNat + 256 * loadLE m (off + 1) n

/-- The `n` bytes from `off` on, most significant first. -/
def loadBE (m : Mem) (off : Nat) : Nat → Nat
  | 0 => 0
  | n + 1 => loadBE m off n * 256 + (m (off + n)).toNat

/-- Byte `i` of `v`, counted from the least significant one. -/
def byteOf (v i : Nat) : UInt8 := UInt8.ofNat (v / 256 ^ i)

/-- Write `v` into the `n` bytes from `off` on, least significant first. -/
abbrev storeLE (m : Mem) (off n v : Nat) : Mem := store m off n (byteOf v)

/-- Write `v` into the `n` bytes from `off` on, most significant first. -/
abbrev storeBE (m : Mem) (off n v : Nat) : Mem := store m off n (fun i => byteOf v (n - 1 - i))

theorem toNat_byteOf (v i : Nat) : (byteOf v i).toNat = v / 256 ^ i % 256 := by
  simp [byteOf]

/-- A number in memory is its lower part and its upper part. -/
theorem loadLE_add (m : Mem) : ∀ (n k off : Nat),
    loadLE m off (n + k) = loadLE m off n + 256 ^ n * loadLE m (off + n) k
  | 0, k, off => by simp [loadLE]
  | n + 1, k, off => by
    rw [show n + 1 + k = n + k + 1 by omega, loadLE, loadLE_add m n k (off + 1), loadLE,
      show off + 1 + n = off + (n + 1) by omega]
    ring

/-! ## A load sees its own range -/

theorem loadLE_congr {m m' : Mem} : ∀ {n off : Nat},
    (∀ a, off ≤ a → a < off + n → m a = m' a) → loadLE m off n = loadLE m' off n
  | 0, _, _ => rfl
  | n + 1, off, h => by
    rw [loadLE, loadLE, h off (by omega) (by omega),
      loadLE_congr (fun a h1 h2 => h a (by omega) (by omega))]

theorem loadBE_congr {m m' : Mem} {off : Nat} : ∀ {n : Nat},
    (∀ a, off ≤ a → a < off + n → m a = m' a) → loadBE m off n = loadBE m' off n
  | 0, _ => rfl
  | n + 1, h => by
    rw [loadBE, loadBE, h (off + n) (by omega) (by omega),
      loadBE_congr (fun a h1 h2 => h a (by omega) (by omega))]

/-- A load is not affected by a store next to it. -/
theorem loadLE_store_of_disjoint {m : Mem} {off n a k : Nat} {f : Nat → UInt8}
    (h : a + k ≤ off ∨ off + n ≤ a) : loadLE (store m off n f) a k = loadLE m a k :=
  loadLE_congr fun _ _ _ => store_of_not_mem (by omega)

theorem loadBE_store_of_disjoint {m : Mem} {off n a k : Nat} {f : Nat → UInt8}
    (h : a + k ≤ off ∨ off + n ≤ a) : loadBE (store m off n f) a k = loadBE m a k :=
  loadBE_congr fun _ _ _ => store_of_not_mem (by omega)

/-! ## Reading back what was written -/

theorem loadLE_of_bytes {m : Mem} : ∀ {n off v : Nat},
    (∀ i, i < n → m (off + i) = byteOf v i) → loadLE m off n = v % 256 ^ n
  | 0, _, v, _ => by simp [loadLE, Nat.mod_one]
  | n + 1, off, v, h => by
    have h0 := h 0 (by omega)
    have ih : loadLE m (off + 1) n = v / 256 % 256 ^ n := by
      refine loadLE_of_bytes (fun i hi => ?_)
      rw [show off + 1 + i = off + (i + 1) by omega, h (i + 1) (by omega), byteOf, byteOf,
        Nat.div_div_eq_div_mul, pow_succ']
    rw [loadLE, ih, show m off = byteOf v 0 from h0, toNat_byteOf, pow_zero, Nat.div_one,
      pow_succ', Nat.mod_mul]

theorem loadBE_of_bytes {m : Mem} {off : Nat} : ∀ {n v : Nat},
    (∀ i, i < n → m (off + i) = byteOf v (n - 1 - i)) → loadBE m off n = v % 256 ^ n
  | 0, v, _ => by simp [loadBE, Nat.mod_one]
  | n + 1, v, h => by
    have hlast := h n (by omega)
    have ih : loadBE m off n = v / 256 % 256 ^ n := by
      refine loadBE_of_bytes (fun i hi => ?_)
      rw [h i (by omega), byteOf, byteOf, Nat.div_div_eq_div_mul, ← pow_succ',
        show n - 1 - i + 1 = n + 1 - 1 - i by omega]
    rw [loadBE, ih, hlast, toNat_byteOf, show n + 1 - 1 - n = 0 by omega, pow_zero, Nat.div_one,
      pow_succ', Nat.mod_mul]
    ring

/-- **A number written in one order and read in the same order comes back**, up to its width. -/
theorem loadLE_storeLE (m : Mem) (off n v : Nat) :
    loadLE (storeLE m off n v) off n = v % 256 ^ n := by
  refine loadLE_of_bytes (fun i hi => ?_)
  rw [storeLE, store_of_mem (by omega) (by omega), Nat.add_sub_cancel_left]

theorem loadBE_storeBE (m : Mem) (off n v : Nat) :
    loadBE (storeBE m off n v) off n = v % 256 ^ n := by
  refine loadBE_of_bytes (fun i hi => ?_)
  rw [storeBE, store_of_mem (by omega) (by omega), Nat.add_sub_cancel_left]

/-! ## Copying -/

theorem loadBE_lt (m : Mem) (off : Nat) : ∀ n, loadBE m off n < 256 ^ n
  | 0 => by simp [loadBE]
  | n + 1 => by
    have hb := (m (off + n)).toNat_lt
    have ih := loadBE_lt m off n
    rw [loadBE, pow_succ]
    omega

/-- The bytes of a number that was read are the bytes it was read from. -/
theorem byteOf_loadBE (m : Mem) (off : Nat) : ∀ (n i : Nat), i < n →
    byteOf (loadBE m off n) (n - 1 - i) = m (off + i)
  | 0, i, h => absurd h (by omega)
  | n + 1, i, h => by
    have hb := (m (off + n)).toNat_lt
    by_cases hi : i = n
    · subst hi
      apply UInt8.toNat_inj.mp
      rw [toNat_byteOf, show i + 1 - 1 - i = 0 by omega, pow_zero, Nat.div_one, loadBE]
      omega
    · rw [← byteOf_loadBE m off n i (by omega), byteOf, byteOf,
        show n + 1 - 1 - i = (n - 1 - i) + 1 by omega, pow_succ', ← Nat.div_div_eq_div_mul,
        show loadBE m off (n + 1) / 256 = loadBE m off n by rw [loadBE]; omega]

/-- **A number read in one order and written in the same order is a copy of its bytes.** -/
theorem storeBE_loadBE (m m' : Mem) (off off' n : Nat) :
    storeBE m off n (loadBE m' off' n) = store m off n fun i => m' (off' + i) :=
  store_congr fun i hi => byteOf_loadBE m' off' n i hi

end Infra
