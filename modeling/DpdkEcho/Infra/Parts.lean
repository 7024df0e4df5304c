import DpdkEcho.Infra.Machine

/-!
# Machines made of parts

The parts of a machine take turns, and an action carries the number of the part that takes it. When
each step of the whole machine is a step of the part or passes it over, every run of the machine is
a run of the part (`PartOf.run`), and what the part keeps is kept (`PartOf.keeps`).
-/

namespace Infra

variable {σ ι τ κ ε : Type*}

/-- The actions of part `i`. -/
def actionsOf (i : Nat) (acts : List (Nat × ε)) : List ε :=
  acts.filterMap fun a => if a.1 = i then some a.2 else none

theorem actionsOf_append (i : Nat) (acts acts' : List (Nat × ε)) :
    actionsOf i (acts ++ acts') = actionsOf i acts ++ actionsOf i acts' := List.filterMap_append

theorem actionsOf_own (i : Nat) (acts : List ε) :
    actionsOf i (acts.map fun e => (i, e)) = acts := by
  simp [actionsOf, List.filterMap_map]

theorem actionsOf_other {i j : Nat} (h : j ≠ i) (acts : List ε) :
    actionsOf i (acts.map fun e => (j, e)) = [] := by
  simp [actionsOf, List.filterMap_map, h]

/-- `own` is the machine of part `i`, whose state is `part`. -/
def PartOf (step : σ → ι → σ × List (Nat × ε)) (i : Nat) (part : σ → τ)
    (own : τ → κ → τ × List ε) : Prop :=
  ∀ s inp,
    (part (step s inp).1 = part s ∧ actionsOf i (step s inp).2 = []) ∨
    ∃ j, part (step s inp).1 = (own (part s) j).1 ∧ actionsOf i (step s inp).2 = (own (part s) j).2

section
variable {step : σ → ι → σ × List (Nat × ε)} {i : Nat} {part : σ → τ} {own : τ → κ → τ × List ε}

theorem PartOf.keeps (h : PartOf step i part own) {P : τ → Prop} (hown : ∀ t j, P t → P (own t j).1)
    {s : σ} (hP : P (part s)) (inp : ι) : P (part (step s inp).1) := by
  rcases h s inp with ⟨hsame, -⟩ | ⟨j, hmove, -⟩
  · rw [hsame]
    exact hP
  · rw [hmove]
    exact hown _ j hP

theorem PartOf.run (h : PartOf step i part own) : ∀ (is : List ι) (s : σ), ∃ js,
    part (final step s is) = final own (part s) js ∧
      actionsOf i (trace step s is) = trace own (part s) js
  | [], s => ⟨[], rfl, rfl⟩
  | inp :: is, s => by
    obtain ⟨js, hfinal, htrace⟩ := PartOf.run h is (step s inp).1
    rw [final_cons, trace_cons, actionsOf_append]
    rcases h s inp with ⟨hsame, hnone⟩ | ⟨j, hmove, hacts⟩
    · refine ⟨js, ?_, ?_⟩
      · rw [hfinal, hsame]
      · rw [hnone, htrace, hsame, List.nil_append]
    · refine ⟨j :: js, ?_, ?_⟩
      · rw [hfinal, hmove, final_cons]
      · rw [hacts, htrace, hmove, trace_cons]

end

end Infra
