import DpdkEcho.Infra.Fair
import DpdkEcho.Properties.ServerQueues

/-!
# The end of a server process

`main` waits for its own `do_server` to return, asks the other workers to stop and waits for them.
Each worker may also stop on its own.

* `process_ends_with_first` — no worker is stopped before the first one has ended, a worker that
  has returned is silent, and in the end all have returned
* `process_finishes_iff` — if every worker and `main` keep getting their turns, the process comes
  to its end exactly when the loop of its first worker does

Both follow from `Closing`, which holds between any two steps.
-/

namespace DpdkEcho

open Infra

/-- How many flags `main` has cleared. -/
def MainPc.cleared (countCore : Nat) : MainPc → Nat
  | .serving => 0
  | .asking i => i
  | .waiting => countCore
  | .finished => countCore

/-- What holds between any two steps of a process with `n` workers. -/
structure Closing (n : Nat) (p : ServerProcess) : Prop where
  /-- While `main` serves, only a worker itself clears its flag. -/
  serving : p.pc = .serving → ∀ i, (p.worker i).running = !(p.worker i).returned
  /-- A worker that has returned left its loop by itself, or was asked to. -/
  stopped : ∀ i, (p.worker i).returned = true →
    (p.worker i).st.run = false ∨ i ≠ 0 ∧ p.pc ≠ .serving
  /-- `main` goes on when worker 0 has returned. -/
  first : p.pc ≠ .serving → (p.worker 0).returned = true
  cleared : ∀ i, i < p.pc.cleared n → (p.worker i).running = false
  within : p.pc.cleared n ≤ n
  ended : p.pc = .finished → ∀ i, i < n → (p.worker i).returned = true

theorem closing_init (n : Nat) (start : Nat → ServerState) : Closing n (processInit start) where
  serving _ _ := rfl
  stopped _ h := by cases h
  first h := absurd rfl h
  cleared _ h := absurd h (Nat.not_lt_zero _)
  within := Nat.zero_le n
  ended h := by cases h

section
variable {hz : UInt64} {cntx : Context} {w : ServerWorker} {inp : ServerInput}

theorem turn_returned (h : w.returned = true) : w.turn hz cntx inp = (w, []) := by
  unfold ServerWorker.turn
  exact if_pos h

theorem turn_keeps_cleared (h : w.running = false) : (w.turn hz cntx inp).1.running = false := by
  rcases w.turn_cases hz cntx inp with ⟨-, he⟩ | ⟨-, -, hrun, -⟩ | ⟨-, -, he⟩
  · rw [he]; exact h
  · rw [h] at hrun; cases hrun
  · rw [he]

/-- A worker that may not go on returns. -/
theorem turn_returns (h : w.st.run = false ∨ w.running = false) :
    (w.turn hz cntx inp).1.returned = true := by
  rcases w.turn_cases hz cntx inp with ⟨hret, he⟩ | ⟨-, hrun, hflag, -⟩ | ⟨-, -, he⟩
  · rw [he]; exact hret
  · rcases h with h | h
    · rw [h] at hrun; cases hrun
    · rw [h] at hflag; cases hflag
  · rw [he]

theorem turn_keeps_stopped (h : w.st.run = false) : (w.turn hz cntx inp).1.st.run = false := by
  rcases w.turn_cases hz cntx inp with ⟨-, he⟩ | ⟨-, hrun, -, -⟩ | ⟨-, -, he⟩
  · rw [he]; exact h
  · rw [h] at hrun; cases hrun
  · rw [he]; exact h

/-- The flag of a worker that nobody else touches. -/
theorem turn_flag (h : w.running = !w.returned) :
    (w.turn hz cntx inp).1.running = !(w.turn hz cntx inp).1.returned := by
  rcases w.turn_cases hz cntx inp with ⟨-, he⟩ | ⟨-, -, -, he⟩ | ⟨-, -, he⟩
  · rw [he]; exact h
  · rw [he]; exact h
  · rw [he]; rfl

end

section
variable (hz : UInt64) (ws : List Context) (p : ServerProcess) (input : ProcessInput) (i : Nat)

/-- A step moves `main` forward at most by one statement. -/
theorem processStep_pc :
    (processStep hz ws p input).1.pc = p.pc ∨
    (p.pc = .serving ∧ (p.worker 0).returned = true ∧
      (processStep hz ws p input).1.pc = .asking 0) ∨
    (∃ j, p.pc = .asking j ∧ j < ws.length ∧ (processStep hz ws p input).1.pc = .asking (j + 1) ∧
      ((processStep hz ws p input).1.worker j).running = false) ∨
    (∃ j, p.pc = .asking j ∧ ws.length ≤ j ∧ (processStep hz ws p input).1.pc = .waiting) ∨
    (p.pc = .waiting ∧ (∀ j, j < ws.length → (p.worker j).returned = true) ∧
      (processStep hz ws p input).1.pc = .finished) := by
  cases input with
  | turn j inp =>
    left
    simp only [processStep]
    split <;> rfl
  | main =>
    simp only [processStep, mainStep]
    cases hpc : p.pc with
    | serving =>
      by_cases hret : (p.worker 0).returned = true
      · exact Or.inr (Or.inl ⟨rfl, hret, by rw [if_pos hret]⟩)
      · left
        simp only [if_neg hret, hpc]
    | asking j =>
      by_cases hlt : j < ws.length
      · refine Or.inr (Or.inr (Or.inl ⟨j, rfl, hlt, ?_⟩))
        simp only [if_pos hlt, Function.update_self, and_self]
      · refine Or.inr (Or.inr (Or.inr (Or.inl ⟨j, rfl, Nat.le_of_not_lt hlt, ?_⟩)))
        simp only [if_neg hlt]
    | waiting =>
      by_cases hall : ∀ j, j < ws.length → (p.worker j).returned = true
      · refine Or.inr (Or.inr (Or.inr (Or.inr ⟨rfl, hall, ?_⟩)))
        simp only [if_pos hall]
      · left
        simp only [if_neg hall, hpc]
    | finished => exact Or.inl hpc

/-- Who has returned stays so. -/
theorem processStep_returned (h : (p.worker i).returned = true) :
    ((processStep hz ws p input).1.worker i).returned = true := by
  rcases processStep_worker hz ws p input i with he | ⟨inp, cntx, -, -, he⟩ | ⟨-, -, he⟩
  · rw [he]; exact h
  · rw [he, turn_returned h]; exact h
  · rw [he]; exact h

/-- No flag is set again. -/
theorem processStep_cleared (h : (p.worker i).running = false) :
    ((processStep hz ws p input).1.worker i).running = false := by
  rcases processStep_worker hz ws p input i with he | ⟨inp, cntx, -, -, he⟩ | ⟨-, -, he⟩
  · rw [he]; exact h
  · rw [he]; exact turn_keeps_cleared h
  · rw [he]

theorem processStep_stopped (h : (p.worker i).st.run = false) :
    ((processStep hz ws p input).1.worker i).st.run = false := by
  rcases processStep_worker hz ws p input i with he | ⟨inp, cntx, -, -, he⟩ | ⟨-, -, he⟩
  · rw [he]; exact h
  · rw [he]; exact turn_keeps_stopped h
  · rw [he]; exact h

/-- A worker that returns now has left its loop by itself, or its flag was cleared. -/
theorem processStep_returns (h : ((processStep hz ws p input).1.worker i).returned = true) :
    (p.worker i).returned = true ∨ (p.worker i).st.run = false ∨ (p.worker i).running = false := by
  rcases processStep_worker hz ws p input i with he | ⟨inp, cntx, -, -, he⟩ | ⟨-, -, he⟩
  · rw [he] at h; exact Or.inl h
  · rw [he] at h
    rcases (p.worker i).turn_cases hz cntx inp with ⟨hret, -⟩ | ⟨hret, -, -, ht⟩ | ⟨-, hstop, -⟩
    · exact Or.inl hret
    · rw [ht] at h; exact Or.inl h
    · exact Or.inr hstop
  · rw [he] at h; exact Or.inl h

end

/-- The invariant is kept, whoever takes the step. -/
theorem Closing.step {hz : UInt64} {ws : List Context} {p : ServerProcess}
    (h : Closing ws.length p) (input : ProcessInput) :
    Closing ws.length (processStep hz ws p input).1 := by
  have hpc := processStep_pc hz ws p input
  have hleft : p.pc ≠ .serving → (processStep hz ws p input).1.pc ≠ .serving := by
    intro hne hserv
    rcases hpc with hsame | ⟨hs, -⟩ | ⟨j, -, -, hnew, -⟩ | ⟨j, -, -, hnew⟩ | ⟨-, -, hnew⟩
    · exact hne (hsame.symm.trans hserv)
    · exact hne hs
    · rw [hnew] at hserv; cases hserv
    · rw [hnew] at hserv; cases hserv
    · rw [hnew] at hserv; cases hserv
  refine ⟨?_, ?_, ?_, ?_, ?_, ?_⟩
  · intro hserv i
    have hwas : p.pc = .serving := by
      by_contra hne
      exact hleft hne hserv
    rcases processStep_worker hz ws p input i with he | ⟨inp, cntx, -, -, he⟩ | ⟨hask, -, -⟩
    · rw [he]; exact h.serving hwas i
    · rw [he]; exact turn_flag (h.serving hwas i)
    · rw [hwas] at hask; cases hask
  · intro i hret
    have hold : (p.worker i).st.run = false ∨ i ≠ 0 ∧ p.pc ≠ .serving := by
      rcases processStep_returns hz ws p input i hret with hret | hrun | hflag
      · exact h.stopped i hret
      · exact Or.inl hrun
      · by_cases hserv : p.pc = .serving
        · -- its flag is its own, so it has returned before
          have hown := h.serving hserv i
          rw [hflag] at hown
          exact h.stopped i (by simpa using hown.symm)
        · by_cases hi : i = 0
          · subst hi
            exact h.stopped 0 (h.first hserv)
          · exact Or.inr ⟨hi, hserv⟩
    rcases hold with hrun | ⟨hi, hne⟩
    · exact Or.inl (processStep_stopped hz ws p input i hrun)
    · exact Or.inr ⟨hi, hleft hne⟩
  · intro hne
    refine processStep_returned hz ws p input 0 ?_
    rcases hpc with hsame | ⟨-, hret, -⟩ | ⟨j, hask, -⟩ | ⟨j, hask, -⟩ | ⟨hwait, -⟩
    · exact h.first (hsame ▸ hne)
    · exact hret
    · exact h.first (by rw [hask]; exact MainPc.noConfusion)
    · exact h.first (by rw [hask]; exact MainPc.noConfusion)
    · exact h.first (by rw [hwait]; exact MainPc.noConfusion)
  · intro i hi
    have hold : i < p.pc.cleared ws.length →
        ((processStep hz ws p input).1.worker i).running = false :=
      fun hlt => processStep_cleared hz ws p input i (h.cleared i hlt)
    rcases hpc with hsame | ⟨-, -, hnew⟩ | ⟨j, hask, -, hnew, hflag⟩ | ⟨j, hask, hle, hnew⟩ |
      ⟨hwait, -, hnew⟩
    · exact hold (hsame ▸ hi)
    · rw [hnew] at hi
      exact absurd hi (Nat.not_lt_zero i)
    · rw [hnew] at hi
      rcases Nat.lt_succ_iff_lt_or_eq.mp hi with hlt | rfl
      · exact hold (by rw [hask]; exact hlt)
      · exact hflag
    · rw [hnew] at hi
      exact hold (by rw [hask]; exact Nat.lt_of_lt_of_le hi hle)
    · rw [hnew] at hi
      exact hold (by rw [hwait]; exact hi)
  · rcases hpc with hsame | ⟨-, -, hnew⟩ | ⟨j, -, hlt, hnew, -⟩ | ⟨j, -, -, hnew⟩ | ⟨-, -, hnew⟩
    · rw [hsame]; exact h.within
    · rw [hnew]; exact Nat.zero_le _
    · rw [hnew]; exact hlt
    · rw [hnew]; exact Nat.le_refl _
    · rw [hnew]; exact Nat.le_refl _
  · intro hfin i hi
    refine processStep_returned hz ws p input i ?_
    rcases hpc with hsame | ⟨-, -, hnew⟩ | ⟨j, -, -, hnew, -⟩ | ⟨j, -, -, hnew⟩ | ⟨-, hall, -⟩
    · exact h.ended (hsame ▸ hfin) i hi
    · rw [hnew] at hfin; cases hfin
    · rw [hnew] at hfin; cases hfin
    · rw [hnew] at hfin; cases hfin
    · exact hall i hi

/-- Along a run. -/
theorem closing_run (hz : UInt64) (ws : List Context) (start : Nat → ServerState)
    (inputs : List ProcessInput) :
    Closing ws.length (final (processStep hz ws) (processInit start) inputs) :=
  final_invariant (G := fun _ _ => True) (Closing ws.length) (fun _ input h _ => h.step input)
    (closing_init _ start) (along_of_forall (fun _ _ => trivial) inputs _)

/-- Only workers that were started act. -/
theorem acts_lt {hz : UInt64} {ws : List Context} {p : ServerProcess} {inputs : List ProcessInput}
    {i : Nat} {e : ServerEvent} (he : (i, e) ∈ trace (processStep hz ws) p inputs) :
    i < ws.length := by
  refine trace_forall (G := fun _ _ => True) (fun _ => True) (fun a => a.1 < ws.length)
    (fun _ _ _ _ => trivial) ?_ trivial (along_of_forall (fun _ _ => trivial) inputs p) (i, e) he
  rintro p input - - ⟨j, f⟩ hf
  obtain ⟨inp, cntx, -, hget, -⟩ := mem_processStep.mp hf
  exact (List.getElem?_eq_some_iff.mp hget).1

/-- A worker that has returned is silent. -/
theorem returned_silent (hz : UInt64) (ws : List Context) {p : ServerProcess} {i : Nat}
    (h : (p.worker i).returned = true) (inputs : List ProcessInput) (e : ServerEvent) :
    (i, e) ∉ trace (processStep hz ws) p inputs := by
  have hall := @trace_forall _ _ _ (processStep hz ws) (fun _ _ => True)
    (fun p => (p.worker i).returned = true) (fun a => a.1 ≠ i)
    (fun p input h _ => processStep_returned hz ws p input i h)
    (fun p input h _ a ha heq => by
      obtain ⟨j, e⟩ := a
      obtain rfl : j = i := heq
      obtain ⟨inp, cntx, -, -, hmem⟩ := mem_processStep.mp ha
      rw [turn_returned h] at hmem
      cases hmem)
    inputs p h (along_of_forall (fun _ _ => trivial) inputs p)
  exact fun hmem => hall (i, e) hmem rfl

/--
**The end of a server process.** Whatever the interleaving: no worker is stopped from outside before
the first one has left its loop by itself, a worker that has returned does nothing any more, and
when `main` is through, all workers have returned, the first one by itself.
-/
theorem process_ends_with_first (hz : UInt64) (ws : List Context) (start : Nat → ServerState)
    (inputs : List ProcessInput) :
    let p := final (processStep hz ws) (processInit start) inputs
    (∀ i, (p.worker i).returned = true → (p.worker i).st.run = true →
      (p.worker 0).returned = true ∧ (p.worker 0).st.run = false) ∧
    (∀ i, (p.worker i).returned = true → ∀ more e, (i, e) ∉ trace (processStep hz ws) p more) ∧
    (p.pc = .finished → (p.worker 0).st.run = false ∧
      (∀ i, i < ws.length → (p.worker i).returned = true) ∧
      ∀ more, trace (processStep hz ws) p more = []) := by
  intro p
  have hclose : Closing ws.length p := closing_run hz ws start inputs
  have hfirst : p.pc ≠ .serving → (p.worker 0).returned = true ∧ (p.worker 0).st.run = false := by
    intro hne
    refine ⟨hclose.first hne, ?_⟩
    rcases hclose.stopped 0 (hclose.first hne) with hrun | ⟨h0, -⟩
    · exact hrun
    · exact absurd rfl h0
  refine ⟨?_, ?_, ?_⟩
  · intro i hret hrun
    rcases hclose.stopped i hret with hstop | ⟨-, hne⟩
    · exact absurd (hrun.symm.trans hstop) Bool.noConfusion
    · exact hfirst hne
  · exact fun i hret more e => returned_silent hz ws hret more e
  · intro hfin
    refine ⟨(hfirst (by rw [hfin]; exact MainPc.noConfusion)).2, hclose.ended hfin, fun more => ?_⟩
    refine List.eq_nil_iff_forall_not_mem.mpr ?_
    rintro ⟨i, e⟩ hmem
    exact returned_silent hz ws (hclose.ended hfin i (acts_lt hmem)) more e hmem

/-! ## The way to the end -/

section
variable (hz : UInt64) (start : Nat → ServerState) {ws : List Context}
  {schedule : Nat → ProcessInput}

/-- A turn of worker `i`. -/
def TurnOf (i : Nat) (input : ProcessInput) : Prop := ∃ inp, input = .turn i inp

/-- Everyone keeps getting turns. -/
structure FairSchedule (n : Nat) (schedule : Nat → ProcessInput) : Prop where
  worker : ∀ i, i < n → Recurs schedule (TurnOf i)
  main : Recurs schedule (· = .main)

theorem processStep_turnOf (p : ServerProcess) {i : Nat} (hi : i < ws.length)
    {input : ProcessInput} (ha : TurnOf i input) :
    ∃ inp cntx, (processStep hz ws p input).1.worker i = ((p.worker i).turn hz cntx inp).1 := by
  obtain ⟨inp, rfl⟩ := ha
  refine ⟨inp, ws.get ⟨i, hi⟩, ?_⟩
  have hget : ws[i]? = some (ws.get ⟨i, hi⟩) := List.getElem?_eq_getElem hi
  simp only [processStep, hget]
  exact Function.update_self ..

/-- A worker that may not go on returns with its next turn. -/
theorem leadsTo_returned (hfair : FairSchedule ws.length schedule) {i : Nat} (hi : i < ws.length)
    {P : ServerProcess → Prop}
    (hlast : ∀ p input, P p → P (processStep hz ws p input).1)
    (hstop : ∀ p, P p → (p.worker i).st.run = false ∨ (p.worker i).running = false) :
    LeadsTo (processStep hz ws) (processInit start) schedule P
      (fun p => P p ∧ (p.worker i).returned = true) := by
  refine LeadsTo.ensures (hfair.worker i hi) (fun p input h => Or.inl (hlast p input h)) ?_
  intro p input hP hturn
  obtain ⟨inp, cntx, he⟩ := processStep_turnOf hz p hi hturn
  refine ⟨hlast p input hP, ?_⟩
  rw [he]
  exact turn_returns (hstop p hP)

/-- A step of `main` leads on from what the workers keep. -/
theorem leadsTo_main (hfair : FairSchedule ws.length schedule) {P Q : ServerProcess → Prop}
    (hturn : ∀ p i inp, P p → P (processStep hz ws p (.turn i inp)).1)
    (hmain : ∀ p, P p → Q (mainStep ws.length p)) :
    LeadsTo (processStep hz ws) (processInit start) schedule P Q := by
  refine LeadsTo.ensures hfair.main ?_ ?_
  · intro p input hP
    cases input with
    | turn i inp => exact Or.inl (hturn p i inp hP)
    | main => exact Or.inr (hmain p hP)
  · rintro p input hP rfl
    exact hmain p hP

theorem processStep_turn_pc (p : ServerProcess) (i : Nat) (inp : ServerInput) :
    (processStep hz ws p (.turn i inp)).1.pc = p.pc := by
  simp only [processStep]
  split <;> rfl

/-- `main` notices that worker 0 has returned. -/
theorem leadsTo_asking (hfair : FairSchedule ws.length schedule) :
    LeadsTo (processStep hz ws) (processInit start) schedule
      (fun p => p.pc = .serving ∧ (p.worker 0).returned = true) (fun p => p.pc = .asking 0) := by
  refine leadsTo_main hz start hfair ?_ ?_
  · rintro p i inp ⟨hpc, hret⟩
    exact ⟨(processStep_turn_pc hz p i inp).trans hpc, processStep_returned hz ws p _ 0 hret⟩
  · rintro p ⟨hpc, hret⟩
    simp only [mainStep, hpc, if_pos hret]

/-- `main` clears the flags one after the other. -/
theorem leadsTo_waiting (hfair : FairSchedule ws.length schedule) {j : Nat} (hj : j ≤ ws.length) :
    LeadsTo (processStep hz ws) (processInit start) schedule
      (fun p => p.pc = .asking j) (fun p => p.pc = .waiting) := by
  have hnext : ∀ i, i < ws.length - j → LeadsTo (processStep hz ws) (processInit start) schedule
      (fun p => p.pc = .asking (j + i)) (fun p => p.pc = .asking (j + (i + 1))) := by
    intro i hi
    refine leadsTo_main hz start hfair
      (fun p k inp hpc => (processStep_turn_pc hz p k inp).trans hpc) ?_
    intro p hpc
    simp only [mainStep, hpc, if_pos (show j + i < ws.length by omega)]
    rfl
  have hlast : LeadsTo (processStep hz ws) (processInit start) schedule
      (fun p => p.pc = .asking (j + (ws.length - j))) (fun p => p.pc = .waiting) := by
    refine leadsTo_main hz start hfair
      (fun p k inp hpc => (processStep_turn_pc hz p k inp).trans hpc) ?_
    intro p hpc
    simp only [mainStep, hpc, if_neg (show ¬ j + (ws.length - j) < ws.length by omega)]
  exact (LeadsTo.stages (P := fun i (p : ServerProcess) => p.pc = .asking (j + i)) hnext).trans
    hlast

/-- The workers below `i` have returned, and `main` is waiting, or through. -/
def Gathered (n i : Nat) (p : ServerProcess) : Prop :=
  Closing n p ∧ (p.pc = .waiting ∨ p.pc = .finished) ∧ ∀ j, j < i → (p.worker j).returned = true

theorem Gathered.step {i : Nat} {p : ServerProcess} (h : Gathered ws.length i p)
    (input : ProcessInput) : Gathered ws.length i (processStep hz ws p input).1 := by
  obtain ⟨hclose, hpc, hret⟩ := h
  refine ⟨hclose.step input, ?_, fun j hj => processStep_returned hz ws p input j (hret j hj)⟩
  rcases processStep_pc hz ws p input with hsame | ⟨hs, -⟩ | ⟨j, hask, -⟩ | ⟨j, hask, -⟩ |
    ⟨-, -, hnew⟩
  · rw [hsame]; exact hpc
  · rcases hpc with hpc | hpc <;> rw [hpc] at hs <;> cases hs
  · rcases hpc with hpc | hpc <;> rw [hpc] at hask <;> cases hask
  · rcases hpc with hpc | hpc <;> rw [hpc] at hask <;> cases hask
  · exact Or.inr hnew

/-- While `main` waits, the workers return one after the other. -/
theorem leadsTo_finished (hfair : FairSchedule ws.length schedule) :
    LeadsTo (processStep hz ws) (processInit start) schedule (Gathered ws.length 0)
      (fun p => p.pc = .finished) := by
  have hnext : ∀ i, i < ws.length → LeadsTo (processStep hz ws) (processInit start) schedule
      (Gathered ws.length i) (Gathered ws.length (i + 1)) := by
    intro i hi
    refine (leadsTo_returned hz start hfair hi (fun p input h => h.step hz input) ?_).trans
      (LeadsTo.of_imp ?_)
    · rintro p ⟨hclose, hpc, -⟩
      refine Or.inr (hclose.cleared i ?_)
      rcases hpc with hpc | hpc <;> rw [hpc] <;> exact hi
    · rintro p ⟨⟨hclose, hpc, hret⟩, hi⟩
      refine ⟨hclose, hpc, fun j hj => ?_⟩
      rcases Nat.lt_succ_iff_lt_or_eq.mp hj with hlt | rfl
      · exact hret j hlt
      · exact hi
  refine (LeadsTo.stages hnext).trans
    (leadsTo_main hz start hfair (fun p j inp h => h.step hz _) ?_)
  rintro p ⟨-, hpc, hret⟩
  rcases hpc with hpc | hpc
  · simp only [mainStep, hpc, if_pos hret]
  · simp only [mainStep, hpc]

end

/--
**A server process comes to its end.** If every worker and `main` keep getting their turns, `main`
gets through exactly when the first worker leaves its loop by itself at some time. How long the
others would go on does not matter.
-/
theorem process_finishes_iff (hz : UInt64) (ws : List Context) (hws : ws ≠ [])
    (start : Nat → ServerState) (schedule : Nat → ProcessInput)
    (hfair : FairSchedule ws.length schedule) :
    (∃ k, (runAt (processStep hz ws) (processInit start) schedule k).pc = .finished) ↔
      ∃ k,
        ((runAt (processStep hz ws) (processInit start) schedule k).worker 0).st.run = false := by
  have hclose : ∀ k, Closing ws.length (runAt (processStep hz ws) (processInit start) schedule k) :=
    fun k => closing_run hz ws start _
  constructor
  · rintro ⟨k, hfin⟩
    refine ⟨k, ?_⟩
    have hret := (hclose k).first (by rw [hfin]; exact MainPc.noConfusion)
    rcases (hclose k).stopped 0 hret with hrun | ⟨h0, -⟩
    · exact hrun
    · exact absurd rfl h0
  · rintro ⟨k, hrun⟩
    obtain ⟨k1, -, -, hret⟩ := leadsTo_returned hz start hfair
      (List.length_pos_of_ne_nil hws) (P := fun p => (p.worker 0).st.run = false)
      (fun p input h => processStep_stopped hz ws p input 0 h) (fun p h => Or.inl h) k hrun
    -- where `main` is by then
    have hwaits : ∀ k2, (runAt (processStep hz ws) (processInit start) schedule k2).pc = .waiting →
        ∃ k, (runAt (processStep hz ws) (processInit start) schedule k).pc = .finished := by
      intro k2 hwait
      obtain ⟨k3, -, hfin⟩ := leadsTo_finished hz start hfair k2
        ⟨hclose k2, Or.inl hwait, fun j hj => absurd hj (Nat.not_lt_zero j)⟩
      exact ⟨k3, hfin⟩
    cases hpc : (runAt (processStep hz ws) (processInit start) schedule k1).pc with
    | serving =>
      obtain ⟨k2, -, hwait⟩ := ((leadsTo_asking hz start hfair).trans
        (leadsTo_waiting hz start hfair (Nat.zero_le _))) k1 ⟨hpc, hret⟩
      exact hwaits k2 hwait
    | asking j =>
      have hj : j ≤ ws.length := by
        have hle := (hclose k1).within
        rw [hpc] at hle
        exact hle
      obtain ⟨k2, -, hwait⟩ := leadsTo_waiting hz start hfair hj k1 hpc
      exact hwaits k2 hwait
    | waiting => exact hwaits k1 hpc
    | finished => exact ⟨k1, hpc⟩

/-- Two workers and `main` take turns. The clock of worker 0 stands at 61 seconds, the one of worker
1 at its start. -/
def takeTurns (k : Nat) : ProcessInput :=
  if k % 3 = 0 then .turn 0 { firstInput [] with currentTime := 61000 }
  else if k % 3 = 1 then .turn 1 (firstInput [])
  else .main

/-- With two workers, to which nothing is sent. -/
theorem process_finishes_two_workers :
    ∃ w0 w1, startWorkers twoQueueConfig broadcastMac 2 = some [w0, w1] ∧
      ∃ k, (runAt (processStep 1000 [w0, w1])
        (processInit fun i => idleStart (if i = 0 then w0 else w1)) takeTurns k).pc
          = .finished := by
  refine ⟨_, _, rfl, ?_⟩
  refine (process_finishes_iff 1000 [_, _] (List.cons_ne_nil _ _)
    (fun i => idleStart (if i = 0 then _ else _)) takeTurns ⟨?_, ?_⟩).mpr ⟨1, rfl⟩
  · intro i hi k
    have htwo : i = 0 ∨ i = 1 := by
      have hlt : i < 2 := hi
      omega
    rcases htwo with rfl | rfl
    · exact ⟨3 * k, by omega, _, if_pos (by omega)⟩
    · refine ⟨3 * k + 1, by omega, firstInput [], ?_⟩
      rw [takeTurns, if_neg (by omega), if_pos (by omega)]
  · intro k
    refine ⟨3 * k + 2, by omega, ?_⟩
    rw [takeTurns, if_neg (by omega), if_neg (by omega)]

end DpdkEcho
