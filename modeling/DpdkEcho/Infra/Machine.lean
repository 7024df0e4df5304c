import Mathlib.Data.List.Basic

/-!
# Runs of a deterministic machine driven by its environment

A program that loops forever is a step function: the current state and what the environment
hands over during one iteration give the next state and the actions taken. A run is then a list
of inputs, and a statement about every run quantifies over that list.

`Along` collects a condition that every step of a run meets. An invariant that a step keeps
under the condition holds in every state such a run passes through (`final_invariant`), and
what a step does from an invariant state is all that the run does (`trace_forall`).

A program that ends as soon as a step fails is a `foldlM` in `Except`; what its result is in terms
of the inputs follows from `foldlM_related`.
-/

namespace Infra

variable {σ ι ε : Type*}

/-- The state after the inputs. -/
def final (step : σ → ι → σ × List ε) (s : σ) : List ι → σ
  | [] => s
  | i :: is => final step (step s i).1 is

/-- The actions taken on the way. -/
def trace (step : σ → ι → σ × List ε) (s : σ) : List ι → List ε
  | [] => []
  | i :: is => (step s i).2 ++ trace step (step s i).1 is

/-- Every step of the run meets `G`, stated on the state before the step and its input. -/
def Along (step : σ → ι → σ × List ε) (G : σ → ι → Prop) (s : σ) : List ι → Prop
  | [] => True
  | i :: is => G s i ∧ Along step G (step s i).1 is

/-- The machine together with an observer that keeps a log of its actions. -/
def logged {ρ : Type*} (step : σ → ι → σ × List ε) (observe : ρ → ε → ρ) (s : σ × ρ) (i : ι) :
    (σ × ρ) × List ε :=
  (((step s.1 i).1, (step s.1 i).2.foldl observe s.2), (step s.1 i).2)

section
variable {step : σ → ι → σ × List ε} {G : σ → ι → Prop} {s : σ}

@[simp] theorem final_nil : final step s [] = s := rfl

@[simp] theorem final_cons (i : ι) (is : List ι) :
    final step s (i :: is) = final step (step s i).1 is := rfl

@[simp] theorem trace_nil : trace step s [] = [] := rfl

@[simp] theorem trace_cons (i : ι) (is : List ι) :
    trace step s (i :: is) = (step s i).2 ++ trace step (step s i).1 is := rfl

theorem along_append (is js : List ι) :
    Along step G s (is ++ js) ↔ Along step G s is ∧ Along step G (final step s is) js := by
  induction is generalizing s with
  | nil => simp [Along]
  | cons i is ih => rw [List.cons_append, Along, Along, ih, and_assoc]; rfl

/-- Two conditions that are met along a run are met together. -/
theorem along_and {G' : σ → ι → Prop} : ∀ {is : List ι} {s : σ}, Along step G s is →
    Along step G' s is → Along step (fun s i => G s i ∧ G' s i) s is
  | [], _, _, _ => trivial
  | _ :: _, _, h, h' => ⟨⟨h.1, h'.1⟩, along_and h.2 h'.2⟩

/-- A prefix of a run meets what the run meets. -/
theorem Along.of_prefix {is js : List ι} (h : Along step G s js) (hp : is <+: js) :
    Along step G s is := by
  obtain ⟨ks, rfl⟩ := hp
  exact ((along_append is ks).mp h).1

/-- **Invariant rule.** What holds initially and survives every step that meets the condition
holds at the end of every run whose steps meet it. -/
theorem final_invariant (I : σ → Prop)
    (hstep : ∀ s i, I s → G s i → I (step s i).1) :
    ∀ {is : List ι} {s : σ}, I s → Along step G s is → I (final step s is)
  | [], _, h, _ => h
  | i :: is, s, h, hG => by
    rw [final_cons]
    exact final_invariant I hstep (hstep s i h hG.1) hG.2

/-- **Action rule.** If a step from an invariant state acts within `P` only, so does the run. -/
theorem trace_forall (I : σ → Prop) (P : ε → Prop)
    (hstep : ∀ s i, I s → G s i → I (step s i).1)
    (hact : ∀ s i, I s → G s i → ∀ e ∈ (step s i).2, P e) :
    ∀ {is : List ι} {s : σ}, I s → Along step G s is → ∀ e ∈ trace step s is, P e
  | [], _, _, _ => by simp
  | i :: is, s, h, hG => by
    intro e he
    rcases List.mem_append.mp he with he | he
    · exact hact s i h hG.1 e he
    · exact trace_forall I P hstep hact (hstep s i h hG.1) hG.2 e he

/-- **Closure rule.** A property of action lists that is closed under concatenation holds of what a
run does as soon as it holds of what a step does. -/
theorem trace_closed (P : List ε → Prop) (hnil : P []) (happ : ∀ e f, P e → P f → P (e ++ f))
    (hact : ∀ s i, G s i → P (step s i).2) :
    ∀ {is : List ι} {s : σ}, Along step G s is → P (trace step s is)
  | [], _, _ => hnil
  | i :: _, s, hG => happ _ _ (hact s i hG.1) (trace_closed P hnil happ hact hG.2)

/-- **Strengthening rule.** What the condition gives in an invariant state holds along the run. -/
theorem Along.strengthen {G' : σ → ι → Prop} (I : σ → Prop)
    (hstep : ∀ s i, I s → G s i → I (step s i).1) (himp : ∀ s i, I s → G s i → G' s i) :
    ∀ {is : List ι} {s : σ}, I s → Along step G s is → Along step G' s is
  | [], _, _, _ => trivial
  | i :: _, s, h, hG =>
    ⟨himp s i h hG.1, Along.strengthen I hstep himp (hstep s i h hG.1) hG.2⟩

/-- A condition on the inputs alone is met along the run when each input meets it. -/
theorem along_of_mem : ∀ {is : List ι} {s : σ}, (∀ i ∈ is, ∀ s, G s i) → Along step G s is
  | [], _, _ => trivial
  | i :: _, s, h =>
    ⟨h i List.mem_cons_self s, along_of_mem fun j hj => h j (List.mem_cons_of_mem i hj)⟩

/-- A condition that every step meets is met along every run. -/
theorem along_of_forall (h : ∀ s i, G s i) (is : List ι) (s : σ) : Along step G s is :=
  along_of_mem fun i _ s => h s i

end

/-! ## A fold that may fail -/

/-- **Simulation rule.** A fold that may fail and one that cannot stay related when each step that
succeeds keeps them related. -/
theorem foldlM_related {ε α β γ : Type*} {f : β → α → Except ε β} {g : γ → α → γ}
    (R : γ → β → Prop) (hstep : ∀ c b a b', R c b → f b a = .ok b' → R (g c a) b') :
    ∀ {l : List α} {c : γ} {b b' : β}, R c b → l.foldlM f b = .ok b' → R (l.foldl g c) b'
  | [], _, _, _, hR, h => by
    rw [List.foldlM_nil] at h
    rw [← Except.ok.inj h]
    exact hR
  | a :: l, c, b, b', hR, h => by
    rw [List.foldlM_cons] at h
    cases h1 : f b a with
    | error e =>
      rw [h1] at h
      cases h
    | ok b1 =>
      rw [h1] at h
      have hrest : l.foldlM f b1 = .ok b' := h
      rw [List.foldl_cons]
      exact foldlM_related R hstep (hstep c b a b1 hR h1) hrest

end Infra
