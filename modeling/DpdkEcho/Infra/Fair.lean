import DpdkEcho.Infra.Machine

/-!
# What happens in the end

An unending run is given by the sequence of its inputs. A property leads to another one when,
whenever the first holds, the second holds then or later.

A step leads on under a fair schedule: a property that lasts until the goal is reached, together
with an input that takes it to the goal and that keeps coming up, leads to the goal
(`LeadsTo.ensures`).
-/

namespace Infra

variable {σ ι ε : Type*}

/-- The state after the first `k` inputs. -/
def runAt (step : σ → ι → σ × List ε) (s : σ) (schedule : Nat → ι) (k : Nat) : σ :=
  final step s ((List.range k).map schedule)

/-- Inputs in `A` keep coming up. -/
def Recurs (schedule : Nat → ι) (A : ι → Prop) : Prop := ∀ k, ∃ k', k ≤ k' ∧ A (schedule k')

/-- Whenever `P` holds, `Q` holds then or later. -/
def LeadsTo (step : σ → ι → σ × List ε) (s : σ) (schedule : Nat → ι) (P Q : σ → Prop) : Prop :=
  ∀ k, P (runAt step s schedule k) → ∃ k', k ≤ k' ∧ Q (runAt step s schedule k')

theorem final_append {step : σ → ι → σ × List ε} : ∀ (is js : List ι) (s : σ),
    final step s (is ++ js) = final step (final step s is) js
  | [], _, _ => rfl
  | i :: is, js, s => final_append is js (step s i).1

section
variable {step : σ → ι → σ × List ε} {s : σ} {schedule : Nat → ι} {P Q R : σ → Prop}

theorem runAt_succ (k : Nat) :
    runAt step s schedule (k + 1) = (step (runAt step s schedule k) (schedule k)).1 := by
  simp [runAt, List.range_succ, final_append]

theorem LeadsTo.trans (h : LeadsTo step s schedule P Q) (h' : LeadsTo step s schedule Q R) :
    LeadsTo step s schedule P R := by
  intro k hP
  obtain ⟨k1, hk1, hQ⟩ := h k hP
  obtain ⟨k2, hk2, hR⟩ := h' k1 hQ
  exact ⟨k2, Nat.le_trans hk1 hk2, hR⟩

theorem LeadsTo.of_imp (h : ∀ s, P s → Q s) : LeadsTo step s schedule P Q :=
  fun k hP => ⟨k, Nat.le_refl k, h _ hP⟩

theorem runAt_stable (hR : ∀ s i, R s → R (step s i).1) {k k' : Nat} (hk : k ≤ k')
    (h : R (runAt step s schedule k)) : R (runAt step s schedule k') := by
  induction hk with
  | refl => exact h
  | step _ ih =>
    rw [runAt_succ]
    exact hR _ _ ih

/-- What lasts is still there when the goal is reached. -/
theorem LeadsTo.and_stable (h : LeadsTo step s schedule P Q)
    (hR : ∀ s i, R s → R (step s i).1) :
    LeadsTo step s schedule (fun s => P s ∧ R s) (fun s => Q s ∧ R s) := by
  rintro k ⟨hP, hRk⟩
  obtain ⟨k', hk', hQ⟩ := h k hP
  exact ⟨k', hk', hQ, runAt_stable hR hk' hRk⟩

/-- One stage after the other. -/
theorem LeadsTo.stages {P : Nat → σ → Prop} {n : Nat}
    (h : ∀ i, i < n → LeadsTo step s schedule (P i) (P (i + 1))) :
    LeadsTo step s schedule (P 0) (P n) := by
  induction n with
  | zero => exact LeadsTo.of_imp fun _ h => h
  | succ n ih => exact (ih fun i hi => h i (by omega)).trans (h n (by omega))

/-- **Progress rule.** -/
theorem LeadsTo.ensures {A : ι → Prop} (hfair : Recurs schedule A)
    (hlast : ∀ s i, P s → P (step s i).1 ∨ Q (step s i).1)
    (hgoal : ∀ s i, P s → A i → Q (step s i).1) : LeadsTo step s schedule P Q := by
  intro k hP
  obtain ⟨k', hk', hA⟩ := hfair k
  -- until the input comes up, the property lasts or the goal is reached early
  have huntil : ∀ m, P (runAt step s schedule (k + m)) ∨
      ∃ k', k ≤ k' ∧ Q (runAt step s schedule k') := by
    intro m
    induction m with
    | zero => exact Or.inl hP
    | succ m ih =>
      rcases ih with ih | ih
      · rcases hlast _ (schedule (k + m)) ih with h | h
        · refine Or.inl ?_
          rw [← Nat.add_assoc, runAt_succ]
          exact h
        · refine Or.inr ⟨k + m + 1, by omega, ?_⟩
          rw [runAt_succ]
          exact h
      · exact Or.inr ih
  obtain ⟨m, rfl⟩ := Nat.exists_eq_add_of_le hk'
  rcases huntil m with h | h
  · refine ⟨k + m + 1, by omega, ?_⟩
    rw [runAt_succ]
    exact hgoal _ _ h hA
  · exact h

end

end Infra
