import Mathlib.Algebra.BigOperators.Group.List.Basic
import DpdkEcho.Infra.Memory

/-!
# The one's complement sum of the Internet protocols

Sixteen-bit words are added with an end-around carry. The carry is worth as much as the bit it
leaves by, so that a sum only depends on the sum of the words as natural numbers
(`onesSum_eq`), and with it not on their order (`onesSum_perm`).
-/

namespace Infra

/-- Addition of 16-bit words with end-around carry. -/
def onesAdd (a b : Nat) : Nat := if a + b < 2 ^ 16 then a + b else a + b - (2 ^ 16 - 1)

/-- The one's complement sum of a list of words. -/
def onesSum (ws : List Nat) : Nat := ws.foldl onesAdd 0

/-- The big-endian words of the `n` bytes from `off` on; an odd byte at the end is padded with a
zero. -/
def words (m : Mem) (off : Nat) : Nat → List Nat
  | 0 => []
  | 1 => [(m off).toNat * 256]
  | n + 2 => loadBE m off 2 :: words m (off + 2) n

/-! ## Sums -/

/-- The word that stands for a sum: zero for zero, and else its residue between 1 and `0xFFFF`. -/
def carryAround (s : Nat) : Nat := if s = 0 then 0 else (s - 1) % 65535 + 1

theorem onesAdd_carryAround {s b : Nat} (hb : b < 2 ^ 16) :
    onesAdd (carryAround s) b = carryAround (s + b) := by
  have hmod := Nat.mod_lt (s - 1) (show 0 < 65535 by decide)
  unfold onesAdd carryAround
  split_ifs <;> omega

theorem foldl_onesAdd : ∀ (ws : List Nat) (s : Nat), (∀ w ∈ ws, w < 2 ^ 16) →
    ws.foldl onesAdd (carryAround s) = carryAround (s + ws.sum)
  | [], _, _ => rfl
  | w :: ws, s, h => by
    have hw := h w List.mem_cons_self
    rw [List.foldl_cons, onesAdd_carryAround hw,
      foldl_onesAdd ws (s + w) (fun x hx => h x (List.mem_cons_of_mem w hx)), List.sum_cons,
      Nat.add_assoc]

theorem onesSum_eq {ws : List Nat} (h : ∀ w ∈ ws, w < 2 ^ 16) :
    onesSum ws = carryAround ws.sum := by
  have hfold := foldl_onesAdd ws 0 h
  rwa [Nat.zero_add] at hfold

/-- **The order of the words does not matter.** -/
theorem onesSum_perm {ws ws' : List Nat} (h : ∀ w ∈ ws, w < 2 ^ 16) (hp : ws.Perm ws') :
    onesSum ws = onesSum ws' := by
  have h' : ∀ w ∈ ws', w < 2 ^ 16 := fun w hw => h w (hp.mem_iff.mpr hw)
  rw [onesSum_eq h, onesSum_eq h', hp.sum_eq]

/-! ## Words -/

theorem words_lt {m : Mem} : ∀ {n off w : Nat}, w ∈ words m off n → w < 2 ^ 16
  | 0, _, _, h => by simp [words] at h
  | 1, off, w, h => by
    have hb := (m off).toNat_lt
    rw [List.mem_singleton.mp h]
    omega
  | n + 2, off, w, h => by
    rcases List.mem_cons.mp h with rfl | h
    · have h0 := (m (off + 0)).toNat_lt
      have h1 := (m (off + 1)).toNat_lt
      simp only [loadBE]
      omega
    · exact words_lt h

/-- Words can be split at an even length. -/
theorem words_append (m : Mem) : ∀ (k off n : Nat),
    words m off (2 * k + n) = words m off (2 * k) ++ words m (off + 2 * k) n
  | 0, off, n => by simp [words]
  | k + 1, off, n => by
    rw [show 2 * (k + 1) + n = 2 * k + n + 2 by omega, show 2 * (k + 1) = 2 * k + 2 by omega,
      words, words, words_append m k (off + 2) n, List.cons_append,
      show off + 2 + 2 * k = off + (2 * k + 2) by omega]

/-- Equal bytes make equal words, also at another place. -/
theorem words_congr {m m' : Mem} : ∀ {n off off' : Nat},
    (∀ i, i < n → m' (off' + i) = m (off + i)) → words m' off' n = words m off n
  | 0, _, _, _ => rfl
  | 1, off, off', h => by
    have h0 : m' off' = m off := h 0 (by omega)
    rw [words, words, h0]
  | n + 2, off, off', h => by
    have hword : loadBE m' off' 2 = loadBE m off 2 := by
      simp only [loadBE, h 0 (by omega), h 1 (by omega)]
    have hrest : words m' (off' + 2) n = words m (off + 2) n := by
      refine words_congr fun i hi => ?_
      rw [show off' + 2 + i = off' + (i + 2) by omega, show off + 2 + i = off + (i + 2) by omega]
      exact h (i + 2) (by omega)
    rw [words, words, hword, hrest]

end Infra
