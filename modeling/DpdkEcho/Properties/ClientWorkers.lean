import DpdkEcho.Client.Workers
import DpdkEcho.Infra.Parts
import DpdkEcho.Properties.ClientShutdown

/-!
# The end of a client process with its workers

* `workers_report_final` — what `main` prints in the end is one text for each worker, in their
  order, with the counts of that worker's own run, as far as it fits into the output buffer
* `workers_finish_iff` — if all threads keep getting their turns, `main` prints exactly when at some
  time every worker may leave its loop; a signal is enough unless an assertion fails
-/

namespace DpdkEcho

open Infra

/-! ## The steps of the process -/

/-- What a step of the process can be. -/
inductive WorkersMove (envs : Nat → ClientEnv) (n : Nat) (p : ClientWorkers) :
    ClientWorkers × List (Nat × ClientEvent) → Prop where
  | idle : WorkersMove envs n p (p, [])
  | act (i : Nat) (input : ClientProcessInput) (hi : i < n) :
      WorkersMove envs n p (p.act envs i input)
  | deliver (s : MainSignal) (hnone : p.handler s = none) :
      WorkersMove envs n p ({ p with handler := Function.update p.handler s (some 0) }, [])
  | clear (s : MainSignal) (i : Nat) (hat : p.handler s = some i) (hi : i < n)
      (hgoing : ¬ (p.worker i).aborted) :
      WorkersMove envs n p
        ({ (p.act envs i .signal).1 with handler := Function.update p.handler s (some (i + 1)) },
          (p.act envs i .signal).2)
  | handled (s : MainSignal) (i : Nat) (hat : p.handler s = some i) (hi : n ≤ i) :
      WorkersMove envs n p ({ p with handler := Function.update p.handler s none }, [])
  | wait (hpc : p.pc = .working) : WorkersMove envs n p ({ p with pc := .waiting }, [])
  | print (hpc : p.pc = .waiting)
      (hall : ∀ i, i < n → ((p.worker i).phase.output (envs i)).isSome = true) :
      WorkersMove envs n p ({ p with
        pc := .printed ((List.range n).filterMap fun i => (p.worker i).phase.output (envs i)) }, [])

theorem workersStep_move (envs : Nat → ClientEnv) (n : Nat) (p : ClientWorkers)
    (input : WorkersInput) : WorkersMove envs n p (workersStep envs n p input) := by
  unfold workersStep
  split
  · exact .idle
  · next hgoing =>
    cases input with
    | transmit i inp =>
      simp only []
      split
      · next hi => exact .act i _ hi
      · exact .idle
    | receive i inp =>
      simp only []
      split
      · next hi => exact .act i _ hi
      · exact .idle
    | signal s =>
      simp only []
      split
      · exact .idle
      · next hnone => exact .deliver s (Option.not_isSome_iff_eq_none.mp hnone)
    | handle s =>
      simp only [ClientWorkers.handle]
      split
      · exact .idle
      · next i hat =>
        split
        · next hi => exact .clear s i hat hi fun hab => hgoing ⟨i, hi, hab⟩
        · next hi => exact .handled s i hat (Nat.le_of_not_lt hi)
    | main =>
      simp only [clientMainStep]
      split
      · next hpc =>
        split
        · exact .wait hpc
        · exact .idle
      · next hpc =>
        split
        · next hall => exact .print hpc hall
        · exact .idle
      · exact .idle

section
variable {envs : Nat → ClientEnv} {n : Nat} {p : ClientWorkers}

/-- A step of worker `j`, seen from worker `i`. -/
theorem act_worker (i j : Nat) (input : ClientProcessInput) :
    ((p.act envs j input).1.worker i = p.worker i ∧ actionsOf i (p.act envs j input).2 = []) ∨
    ∃ own, (p.act envs j input).1.worker i = (clientProcessStep (envs i) (p.worker i) own).1 ∧
      actionsOf i (p.act envs j input).2 = (clientProcessStep (envs i) (p.worker i) own).2 := by
  by_cases hji : j = i
  · subst hji
    exact Or.inr ⟨input, Function.update_self .., actionsOf_own j _⟩
  · exact Or.inl ⟨Function.update_of_ne (Ne.symm hji) .., actionsOf_other hji _⟩

/-- Each worker is a part of the process. -/
theorem worker_partOf (envs : Nat → ClientEnv) (n i : Nat) :
    PartOf (workersStep envs n) i (fun p => p.worker i) (clientProcessStep (envs i)) := by
  intro p input
  have hmove := workersStep_move envs n p input
  generalize workersStep envs n p input = next at hmove ⊢
  cases hmove with
  | act j own _ => exact act_worker i j own
  | clear s j _ _ _ => exact act_worker i j .signal
  | _ => exact Or.inl ⟨rfl, rfl⟩

theorem ClientPhase.output_isSome {env : ClientEnv} {phase : ClientPhase} :
    (phase.output env).isSome = true ↔ ∃ r, phase = .reported r := by
  cases phase <;> simp [ClientPhase.output]

/-- A cleared flag stays so. -/
theorem clientProcessStep_running {env : ClientEnv} {p : ClientProcess} (h : p.running = false)
    (input : ClientProcessInput) : (clientProcessStep env p input).1.running = false := by
  have hmove := clientProcessStep_move env p input
  generalize clientProcessStep env p input = next at hmove ⊢
  cases hmove with
  | report _ _ _ => rfl
  | signal _ => rfl
  | _ => exact h

/-- The flag of a worker that goes on is cleared by the handler. -/
theorem signal_clears {env : ClientEnv} {p : ClientProcess} (h : ¬ p.aborted) :
    (clientProcessStep env p .signal).1.running = false := by
  rw [clientProcessStep, if_neg (show ¬ p.client.transmit.pc = .aborted from h)]

/-! ## What holds throughout -/

/-- What holds between any two steps of the process. -/
structure WorkersInv (envs : Nat → ClientEnv) (n : Nat) (p : ClientWorkers) : Prop where
  winding : ∀ i, Winding (envs i) (p.worker i)
  /-- A handler leaves cleared flags behind. -/
  cleared : ∀ s i, p.handler s = some i → i ≤ n ∧ ∀ j, j < i → (p.worker j).running = false
  /-- What is printed is what the workers have to say. -/
  printed : ∀ outputs, p.pc = .printed outputs →
    ∀ i, i < n → ∃ r, (p.worker i).phase = .reported r
  outputs : ∀ outputs, p.pc = .printed outputs →
    outputs = (List.range n).filterMap fun i => (p.worker i).phase.output (envs i)

theorem workersInv_init (tables : Nat → FlowTables) (now : Nat → UInt64) :
    WorkersInv envs n (workersInit envs tables now) where
  winding i := winding_init (tables i) (now i)
  cleared s i h := by cases h
  printed outputs h := by cases h
  outputs outputs h := by cases h

/-- A worker that has reported stays so. -/
theorem worker_reported {i : Nat} {r : ClientReport} (hwind : Winding (envs i) (p.worker i))
    (hr : (p.worker i).phase = .reported r) (input : WorkersInput) :
    ((workersStep envs n p input).1.worker i).phase = .reported r := by
  refine And.right (a := Winding (envs i) ((workersStep envs n p input).1.worker i)) ?_
  exact (worker_partOf envs n i).keeps (P := fun w => Winding (envs i) w ∧ w.phase = .reported r)
    (fun w own h => ⟨h.1.step own, (reported_step h.1 h.2 own).2⟩) ⟨hwind, hr⟩ input

theorem worker_running {i : Nat} (h : (p.worker i).running = false) (input : WorkersInput) :
    ((workersStep envs n p input).1.worker i).running = false :=
  (worker_partOf envs n i).keeps (P := fun w => w.running = false)
    (fun _ own h => clientProcessStep_running h own) h input

/-- The handlers of a step: as before, or one of them has started, gone on or ended. -/
theorem workersStep_handler (input : WorkersInput) (s : MainSignal) :
    (workersStep envs n p input).1.handler s = p.handler s ∨
    (∃ i, p.handler s = some i ∧ n ≤ i ∧ (workersStep envs n p input).1.handler s = none) ∨
    (p.handler s = none ∧ (workersStep envs n p input).1.handler s = some 0) ∨
    ∃ i, p.handler s = some i ∧ i < n ∧ (workersStep envs n p input).1.handler s = some (i + 1) ∧
      ((workersStep envs n p input).1.worker i).running = false := by
  have hmove := workersStep_move envs n p input
  generalize workersStep envs n p input = next at hmove ⊢
  cases hmove with
  | deliver s' hnone =>
    by_cases hs : s = s'
    · subst hs
      exact Or.inr (Or.inr (Or.inl ⟨hnone, Function.update_self ..⟩))
    · exact Or.inl (Function.update_of_ne hs ..)
  | clear s' i hat hi hgoing =>
    by_cases hs : s = s'
    · subst hs
      refine Or.inr (Or.inr (Or.inr ⟨i, hat, hi, Function.update_self .., ?_⟩))
      show (Function.update p.worker i _ i).running = false
      rw [Function.update_self]
      exact signal_clears hgoing
    · exact Or.inl (Function.update_of_ne hs ..)
  | handled s' i hat hi =>
    by_cases hs : s = s'
    · subst hs
      exact Or.inr (Or.inl ⟨i, hat, hi, Function.update_self ..⟩)
    · exact Or.inl (Function.update_of_ne hs ..)
  | _ => exact Or.inl rfl

/-- `main` in a step: as before, on its way, or it prints. -/
theorem workersStep_pc (input : WorkersInput) :
    (workersStep envs n p input).1.pc = p.pc ∨ (workersStep envs n p input).1.pc = .waiting ∨
    ((workersStep envs n p input).1.pc
        = .printed ((List.range n).filterMap fun i => (p.worker i).phase.output (envs i)) ∧
      ∀ i, i < n → ∃ r, (p.worker i).phase = .reported r) := by
  have hmove := workersStep_move envs n p input
  generalize workersStep envs n p input = next at hmove ⊢
  cases hmove with
  | wait _ => exact Or.inr (Or.inl rfl)
  | print _ hall =>
    exact Or.inr (Or.inr ⟨rfl, fun i hi => ClientPhase.output_isSome.mp (hall i hi)⟩)
  | _ => exact Or.inl rfl

theorem WorkersInv.step (h : WorkersInv envs n p) (input : WorkersInput) :
    WorkersInv envs n (workersStep envs n p input).1 := by
  have hkeep : (∀ i, i < n → ∃ r, (p.worker i).phase = .reported r) →
      (∀ i, i < n → ∃ r, ((workersStep envs n p input).1.worker i).phase = .reported r) ∧
      ((List.range n).filterMap fun i => (p.worker i).phase.output (envs i))
        = (List.range n).filterMap fun i =>
          ((workersStep envs n p input).1.worker i).phase.output (envs i) := by
    intro hall
    refine ⟨fun i hi => ?_, List.filterMap_congr fun i hi => ?_⟩
    · obtain ⟨r, hr⟩ := hall i hi
      exact ⟨r, worker_reported (h.winding i) hr input⟩
    · obtain ⟨r, hr⟩ := hall i (List.mem_range.mp hi)
      rw [hr, worker_reported (h.winding i) hr input]
  refine ⟨fun i => ?_, fun s i hat => ?_, fun outputs hpc => ?_, fun outputs hpc => ?_⟩
  · exact (worker_partOf envs n i).keeps (fun _ own h => h.step own) (h.winding i) input
  · rcases @workersStep_handler envs n p input s with hs | ⟨-, -, -, hs⟩ | ⟨-, hs⟩ |
      ⟨k, hk, hlt, hs, hrun⟩
    · rw [hs] at hat
      obtain ⟨hle, hcl⟩ := h.cleared s i hat
      exact ⟨hle, fun j hj => worker_running (hcl j hj) input⟩
    · rw [hs] at hat; cases hat
    · rw [hs] at hat
      obtain rfl := Option.some.inj hat
      exact ⟨Nat.zero_le n, fun j hj => absurd hj (Nat.not_lt_zero j)⟩
    · rw [hs] at hat
      obtain rfl := Option.some.inj hat
      refine ⟨hlt, fun j hj => ?_⟩
      rcases Nat.lt_succ_iff_lt_or_eq.mp hj with hlt' | rfl
      · exact worker_running ((h.cleared s k hk).2 j hlt') input
      · exact hrun
  · rcases @workersStep_pc envs n p input with hs | hs | ⟨-, hall⟩
    · rw [hs] at hpc
      exact (hkeep (h.printed outputs hpc)).1
    · rw [hs] at hpc; cases hpc
    · exact (hkeep hall).1
  · rcases @workersStep_pc envs n p input with hs | hs | ⟨hs, hall⟩
    · rw [hs] at hpc
      rw [h.outputs outputs hpc]
      exact (hkeep (h.printed outputs hpc)).2
    · rw [hs] at hpc; cases hpc
    · rw [hs] at hpc
      rw [← ClientMainPc.printed.inj hpc]
      exact (hkeep hall).2

theorem workersInv_run (tables : Nat → FlowTables) (now : Nat → UInt64)
    (inputs : List WorkersInput) :
    WorkersInv envs n (final (workersStep envs n) (workersInit envs tables now) inputs) :=
  final_invariant (G := fun _ _ => True) (WorkersInv envs n) (fun _ input h _ => h.step input)
    (workersInv_init tables now) (along_of_forall (fun _ _ => trivial) inputs _)

/-- When all workers have reported, nothing happens any more. -/
theorem workersStep_silent (h : WorkersInv envs n p)
    (hall : ∀ i, i < n → ∃ r, (p.worker i).phase = .reported r) (input : WorkersInput) :
    (workersStep envs n p input).2 = [] := by
  have hact : ∀ i own, i < n → (p.act envs i own).2 = [] := by
    intro i own hi
    obtain ⟨r, hr⟩ := hall i hi
    simp [ClientWorkers.act, (reported_step (h.winding i) hr own).1]
  have hmove := workersStep_move envs n p input
  generalize workersStep envs n p input = next at hmove ⊢
  cases hmove with
  | act i own hi => exact hact i own hi
  | clear s i _ hi _ => exact hact i .signal hi
  | _ => rfl

end

/--
**What a client process prints.** In every interleaving of the workers, their receiver threads, the
handlers and `main`, once `main` has printed: there is one text for each worker, in their order,
whose `Tx`, `Rx` and `failed to push` are the counts of what that worker has done in the whole run.
It is printed whole exactly when it fits into the output buffer, and else cut at its end. No worker
receives, sends or counts anything any more.
-/
theorem workers_report_final (envs : Nat → ClientEnv) (countCore : Nat) (tables : Nat → FlowTables)
    (now : Nat → UInt64) (inputs : List WorkersInput) (outputs : List CStr)
    (h : (final (workersStep envs countCore) (workersInit envs tables now) inputs).pc
      = .printed outputs) :
    let p := final (workersStep envs countCore) (workersInit envs tables now) inputs
    let events := trace (workersStep envs countCore) (workersInit envs tables now) inputs
    let report := fun i => clientReport (envs i).cntx (p.worker i).client
    let text := fun i => clientText (envs i) (report i)
    outputs = (List.range countCore).map (fun i => fmemopenText outputBufferSize (text i)) ∧
    (∀ i, i < countCore → (report i).counts = countsOf (envs i) (actionsOf i events) ∧
      (outputs[i]? = some (text i) ↔ (text i).length < outputBufferSize)) ∧
    ∀ more, trace (workersStep envs countCore) p more = [] := by
  intro p events report text
  have hinv : WorkersInv envs countCore p := workersInv_run tables now inputs
  have hall := hinv.printed outputs h
  have hout : outputs
      = (List.range countCore).map (fun i => fmemopenText outputBufferSize (text i)) := by
    rw [hinv.outputs outputs h, ← List.filterMap_eq_map]
    refine List.filterMap_congr fun i hi => ?_
    obtain ⟨r, hr⟩ := hall i (List.mem_range.mp hi)
    rw [hr, ((hinv.winding i).reported r hr).1]
    rfl
  refine ⟨hout, fun i hi => ⟨?_, ?_⟩, fun more => ?_⟩
  · obtain ⟨own, hfinal, htrace⟩ := (worker_partOf envs countCore i).run inputs
      (workersInit envs tables now)
    have htally := @tally_init_run (envs i) (tables i) (now i) own
    show (clientReport (envs i).cntx (p.worker i).client).counts = _
    rw [show actionsOf i events = _ from htrace, show p.worker i = _ from hfinal]
    exact htally.counts
  · rw [hout, List.getElem?_map, List.getElem?_range hi, Option.map_some, Option.some_inj]
    exact fmemopenText_eq_self_iff (by decide)
  · refine List.eq_nil_iff_forall_not_mem.mpr fun e he => ?_
    refine trace_forall (G := fun _ _ => True) (fun p => WorkersInv envs countCore p ∧
      ∀ i, i < countCore → ∃ r, (p.worker i).phase = .reported r) (fun _ => False) ?_ ?_
      ⟨hinv, hall⟩ (along_of_forall (fun _ _ => trivial) more _) e he
    · rintro p input ⟨hp, hrep⟩ -
      refine ⟨hp.step input, fun i hi => ?_⟩
      obtain ⟨r, hr⟩ := hrep i hi
      exact ⟨r, worker_reported (hp.winding i) hr input⟩
    · rintro p input ⟨hp, hrep⟩ - a ha
      rw [workersStep_silent hp hrep input] at ha
      cases ha

/-- Two workers send a burst each and the second receives a packet, before `main` is interrupted. -/
def burstsThenSignal : List WorkersInput :=
  [.transmit 0 (clientTurn (some fun i => (i, fun _ => 0))),
    .transmit 1 (clientTurn (some fun i => (i, fun _ => 0))),
    .receive 1 (receiverTurnOn [frameOfServer]), .signal .sigint, .handle .sigint, .handle .sigint,
    .transmit 0 (clientTurn none), .transmit 1 (clientTurn none), .receive 0 (receiverTurnOn []),
    .receive 1 (receiverTurnOn []), .transmit 0 (clientTurn none), .transmit 1 (clientTurn none),
    .main, .main]

/-- What a worker reports that has sent one packet and measured no latency. -/
def burstReport (received : UInt64) : ClientReport where
  latencies := [(0x0A000002, List.replicate 7 none)]
  counts := [(0x0A000002, 1, received, 31)]

/-- `main` prints two texts, in the order of the workers. -/
theorem workers_report_final_bursts :
    let p := final (workersStep (fun _ => zipfClientEnv) 2)
      (workersInit (fun _ => zipfClientEnv) (fun _ => ⟨fun _ => 0, fun _ => 0⟩) fun _ => 0)
      burstsThenSignal
    p.pc = .printed [clientText zipfClientEnv (burstReport 0),
      clientText zipfClientEnv (burstReport 1)] ∧
    (clientReport zipfClientEnv.cntx (p.worker 0).client).counts = [(0x0A000002, 1, 0, 31)] ∧
    (clientReport zipfClientEnv.cntx (p.worker 1).client).counts = [(0x0A000002, 1, 1, 31)] ∧
    ∀ more, trace (workersStep (fun _ => zipfClientEnv) 2) p more = [] := by
  intro p
  have hprinted : p.pc = .printed [clientText zipfClientEnv (burstReport 0),
      clientText zipfClientEnv (burstReport 1)] := by decide +kernel
  obtain ⟨-, hall, hsilent⟩ := workers_report_final (fun _ => zipfClientEnv) 2
    (fun _ => ⟨fun _ => 0, fun _ => 0⟩) (fun _ => 0) burstsThenSignal _ hprinted
  have h0 := (hall 0 (by decide)).1
  have h1 := (hall 1 (by decide)).1
  refine ⟨hprinted, ?_, ?_, hsilent⟩
  · rw [h0]
    decide +kernel
  · rw [h1]
    decide +kernel

/-! ## The way to the end -/

/-- All threads and the handlers keep getting turns. -/
structure FairWorkers (envs : Nat → ClientEnv) (n : Nat) (schedule : Nat → WorkersInput) :
    Prop where
  transmit : ∀ i, i < n → Recurs schedule fun input => ∃ inp, input = .transmit i inp
  receive : ∀ i, i < n → (envs i).cntx.bidi = true →
    Recurs schedule fun input => ∃ inp, input = .receive i inp
  handler : ∀ s, Recurs schedule (· = .handle s)
  main : Recurs schedule (· = .main)

/-- Nothing keeps any worker in its loop. -/
structure AllLeaving (envs : Nat → ClientEnv) (n : Nat) (p : ClientWorkers) : Prop where
  inv : WorkersInv envs n p
  leaving : ∀ i, i < n → Leaving (p.worker i)

section
variable {envs : Nat → ClientEnv} {n : Nat} {p : ClientWorkers} {tables : Nat → FlowTables}
  {now : Nat → UInt64} {schedule : Nat → WorkersInput}

theorem AllLeaving.step (h : AllLeaving envs n p) (input : WorkersInput) :
    AllLeaving envs n (workersStep envs n p input).1 := by
  refine ⟨h.inv.step input, fun i hi => ?_⟩
  exact (worker_partOf envs n i).keeps (fun _ own h => h.step own) (h.leaving i hi) input

theorem AllLeaving.going (h : AllLeaving envs n p) : ¬ ∃ i < n, (p.worker i).aborted := by
  rintro ⟨i, hi, hab⟩
  exact (h.leaving i hi).1 hab

/-- While all are leaving, a turn of worker `i` is taken. -/
theorem AllLeaving.turn (h : AllLeaving envs n p) {i : Nat} (hi : i < n) :
    (∀ inp, (workersStep envs n p (.transmit i inp)).1.worker i
      = (clientProcessStep (envs i) (p.worker i) (.transmit inp)).1) ∧
    ∀ inp, (workersStep envs n p (.receive i inp)).1.worker i
      = (clientProcessStep (envs i) (p.worker i) (.receive inp)).1 := by
  constructor
  · intro inp
    rw [workersStep, if_neg h.going]
    simp only [if_pos hi]
    exact Function.update_self ..
  · intro inp
    rw [workersStep, if_neg h.going]
    simp only [if_pos hi]
    exact Function.update_self ..

/-- A turn of worker `i` leads on from what the worker keeps. -/
theorem leadsTo_turn {i : Nat} {P Q : ClientProcess → Prop} {A : WorkersInput → Prop}
    (hfair : Recurs schedule A)
    (hkeep : ∀ w own, P w → P (clientProcessStep (envs i) w own).1)
    (hgoal : ∀ p input, AllLeaving envs n p → A input → P (p.worker i) →
      Q ((workersStep envs n p input).1.worker i)) :
    LeadsTo (workersStep envs n) (workersInit envs tables now) schedule
      (fun p => AllLeaving envs n p ∧ P (p.worker i))
      (fun p => AllLeaving envs n p ∧ Q (p.worker i)) := by
  refine LeadsTo.ensures hfair ?_ ?_
  · rintro p input ⟨hall, hP⟩
    exact Or.inl ⟨hall.step input, (worker_partOf envs n i).keeps hkeep hP input⟩
  · rintro p input ⟨hall, hP⟩ hA
    exact ⟨hall.step input, hgoal p input hall hA hP⟩

/-- Each worker comes to its report. -/
theorem leadsTo_worker_reported (hfair : FairWorkers envs n schedule) {i : Nat} (hi : i < n) :
    LeadsTo (workersStep envs n) (workersInit envs tables now) schedule (AllLeaving envs n)
      (fun p => AllLeaving envs n p ∧ ∃ r, (p.worker i).phase = .reported r) := by
  have hstart : LeadsTo (workersStep envs n) (workersInit envs tables now) schedule
      (AllLeaving envs n)
      (fun p => AllLeaving envs n p ∧ (Winding (envs i) (p.worker i) ∧ Leaving (p.worker i))) :=
    LeadsTo.of_imp fun p h => ⟨h, h.inv.winding i, h.leaving i hi⟩
  have houtside : LeadsTo (workersStep envs n) (workersInit envs tables now) schedule
      (fun p => AllLeaving envs n p ∧ (Winding (envs i) (p.worker i) ∧ Leaving (p.worker i)))
      (fun p => AllLeaving envs n p ∧ Outside (envs i) (p.worker i)) := by
    refine leadsTo_turn (P := fun w => Winding (envs i) w ∧ Leaving w) (hfair.transmit i hi)
      (fun w own h => ⟨h.1.step own, h.2.step own⟩) ?_
    rintro p input hall ⟨inp, rfl⟩ ⟨hwind, hleave⟩
    rw [(hall.turn hi).1]
    exact outside_of_leaving hwind hleave inp
  have hjoined : LeadsTo (workersStep envs n) (workersInit envs tables now) schedule
      (fun p => AllLeaving envs n p ∧ Outside (envs i) (p.worker i))
      (fun p => AllLeaving envs n p ∧ Joined (envs i) (p.worker i)) := by
    cases hbidi : (envs i).cntx.bidi with
    | false =>
      exact LeadsTo.of_imp fun p h => ⟨h.1, h.2, fun hb => by rw [hbidi] at hb; cases hb⟩
    | true =>
      refine leadsTo_turn (hfair.receive i hi hbidi) (fun w own h => h.step own) ?_
      rintro p input hall ⟨inp, rfl⟩ hout
      rw [(hall.turn hi).2]
      exact ⟨hout.step _, fun _ => ended_of_outside hout hbidi inp⟩
  have hreported : LeadsTo (workersStep envs n) (workersInit envs tables now) schedule
      (fun p => AllLeaving envs n p ∧ Joined (envs i) (p.worker i))
      (fun p => AllLeaving envs n p ∧ ∃ r, (p.worker i).phase = .reported r) := by
    refine leadsTo_turn (Q := fun w => ∃ r, w.phase = .reported r) (hfair.transmit i hi)
      (fun w own h => h.step own) ?_
    rintro p input hall ⟨inp, rfl⟩ hjoin
    rw [(hall.turn hi).1]
    exact reported_of_joined hjoin inp
  exact hstart.trans (houtside.trans (hjoined.trans hreported))

/-- All are leaving, and the workers below `i` have reported. -/
structure Reporting (envs : Nat → ClientEnv) (n i : Nat) (p : ClientWorkers) : Prop where
  all : AllLeaving envs n p
  reported : ∀ j, j < i → ∃ r, (p.worker j).phase = .reported r

theorem Reporting.step {i : Nat} (h : Reporting envs n i p) (input : WorkersInput) :
    Reporting envs n i (workersStep envs n p input).1 := by
  refine ⟨h.all.step input, fun j hj => ?_⟩
  obtain ⟨r, hr⟩ := h.reported j hj
  exact ⟨r, worker_reported (h.all.inv.winding j) hr input⟩

/-- `main` notices that worker 0 has returned, and then that all have. -/
theorem leadsTo_printed (hn : 0 < n) (hfair : FairWorkers envs n schedule) :
    LeadsTo (workersStep envs n) (workersInit envs tables now) schedule (Reporting envs n n)
      (fun p => ∃ outputs, p.pc = .printed outputs) := by
  have hmain : ∀ p : ClientWorkers, Reporting envs n n p →
      (workersStep envs n p .main).1 = clientMainStep envs n p := by
    intro p h
    rw [workersStep, if_neg h.all.going]
  have hsome : ∀ p : ClientWorkers, Reporting envs n n p →
      ∀ i, i < n → ((p.worker i).phase.output (envs i)).isSome = true :=
    fun p h i hi => ClientPhase.output_isSome.mpr (h.reported i hi)
  have hwaits : LeadsTo (workersStep envs n) (workersInit envs tables now) schedule
      (Reporting envs n n) (fun p => Reporting envs n n p ∧ p.pc ≠ .working) := by
    refine LeadsTo.ensures hfair.main (fun p input h => Or.inl (h.step input)) ?_
    rintro p input h rfl
    refine ⟨h.step .main, ?_⟩
    rw [hmain p h]
    unfold clientMainStep
    cases hpc : p.pc with
    | working =>
      simp only [hsome p h 0 hn, if_true]
      exact ClientMainPc.noConfusion
    | waiting =>
      simp only [if_pos (hsome p h)]
      exact ClientMainPc.noConfusion
    | printed outputs =>
      simp only [hpc]
      exact ClientMainPc.noConfusion
  refine hwaits.trans (LeadsTo.ensures hfair.main ?_ ?_)
  · rintro p input ⟨h, hpc⟩
    refine Or.inl ⟨h.step input, ?_⟩
    rcases @workersStep_pc envs n p input with hs | hs | ⟨hs, -⟩
    · rw [hs]
      exact hpc
    · rw [hs]
      exact ClientMainPc.noConfusion
    · rw [hs]
      exact ClientMainPc.noConfusion
  · rintro p input ⟨h, hpc⟩ rfl
    rw [hmain p h]
    unfold clientMainStep
    cases hat : p.pc with
    | working => exact absurd hat hpc
    | waiting =>
      simp only [if_pos (hsome p h)]
      exact ⟨_, rfl⟩
    | printed outputs => exact ⟨outputs, hat⟩

theorem leadsTo_end (hn : 0 < n) (hfair : FairWorkers envs n schedule) :
    LeadsTo (workersStep envs n) (workersInit envs tables now) schedule (AllLeaving envs n)
      (fun p => ∃ outputs, p.pc = .printed outputs) := by
  have hnext : ∀ i, i < n → LeadsTo (workersStep envs n) (workersInit envs tables now) schedule
      (Reporting envs n i) (Reporting envs n (i + 1)) := by
    intro i hi
    have hworker : LeadsTo (workersStep envs n) (workersInit envs tables now) schedule
        (fun p => AllLeaving envs n p ∧ Reporting envs n i p)
        (fun p => (AllLeaving envs n p ∧ ∃ r, (p.worker i).phase = .reported r) ∧
          Reporting envs n i p) :=
      (leadsTo_worker_reported hfair hi).and_stable fun p input h => h.step input
    have hsplit : LeadsTo (workersStep envs n) (workersInit envs tables now) schedule
        (Reporting envs n i) (fun p => AllLeaving envs n p ∧ Reporting envs n i p) :=
      LeadsTo.of_imp fun p h => ⟨h.all, h⟩
    refine (hsplit.trans hworker).trans (LeadsTo.of_imp ?_)
    rintro p ⟨⟨hall, hrep⟩, hbelow⟩
    refine ⟨hall, fun j hj => ?_⟩
    rcases Nat.lt_succ_iff_lt_or_eq.mp hj with hlt | rfl
    · exact hbelow.reported j hlt
    · exact hrep
  have hstart : LeadsTo (workersStep envs n) (workersInit envs tables now) schedule
      (AllLeaving envs n) (Reporting envs n 0) :=
    LeadsTo.of_imp fun p h => ⟨h, fun j hj => absurd hj (Nat.not_lt_zero j)⟩
  exact hstart.trans ((LeadsTo.stages hnext).trans (leadsTo_printed hn hfair))

/-- After an abort nothing moves. -/
theorem workersStep_aborted (h : ∃ i < n, (p.worker i).aborted) (input : WorkersInput) :
    workersStep envs n p input = (p, []) := if_pos h

/-- The handler is at `cntxs[i]`, unless the process was aborted. -/
def Handling (envs : Nat → ClientEnv) (n : Nat) (s : MainSignal) (i : Nat) (p : ClientWorkers) :
    Prop :=
  (WorkersInv envs n p ∧ p.handler s = some i) ∨ ∃ j < n, (p.worker j).aborted

/-- The handler clears one flag after the other. -/
theorem leadsTo_handled (hfair : FairWorkers envs n schedule) (s : MainSignal) {i : Nat}
    (hi : i < n) :
    LeadsTo (workersStep envs n) (workersInit envs tables now) schedule (Handling envs n s i)
      (Handling envs n s (i + 1)) := by
  refine LeadsTo.ensures (hfair.handler s) ?_ ?_
  · rintro p input (⟨hinv, hat⟩ | hab)
    · rcases @workersStep_handler envs n p input s with hs | ⟨j, hj, hle, -⟩ | ⟨hnone, -⟩ |
        ⟨j, hj, -, hs, -⟩
      · exact Or.inl (Or.inl ⟨hinv.step input, hs.trans hat⟩)
      · obtain rfl := Option.some.inj (hat.symm.trans hj)
        exact absurd hi (Nat.not_lt_of_le hle)
      · rw [hat] at hnone; cases hnone
      · obtain rfl := Option.some.inj (hat.symm.trans hj)
        exact Or.inr (Or.inl ⟨hinv.step input, hs⟩)
    · rw [workersStep_aborted hab]
      exact Or.inl (Or.inr hab)
  · rintro p input h rfl
    by_cases hab : ∃ j < n, (p.worker j).aborted
    · rw [workersStep_aborted hab]
      exact Or.inr hab
    · obtain ⟨hinv, hat⟩ := h.resolve_right hab
      refine Or.inl ⟨hinv.step _, ?_⟩
      rw [workersStep, if_neg hab]
      simp only [ClientWorkers.handle, hat, if_pos hi]
      exact Function.update_self ..

/-- A handler that has started ends with all workers leaving, unless the process was aborted. -/
theorem leadsTo_all_leaving (hfair : FairWorkers envs n schedule) (s : MainSignal) {i : Nat}
    (hi : i ≤ n) :
    LeadsTo (workersStep envs n) (workersInit envs tables now) schedule (Handling envs n s i)
      (fun p => AllLeaving envs n p ∨ ∃ j < n, (p.worker j).aborted) := by
  have hnext : ∀ j, j < n - i → LeadsTo (workersStep envs n) (workersInit envs tables now) schedule
      (Handling envs n s (i + j)) (Handling envs n s (i + (j + 1))) :=
    fun j hj => leadsTo_handled hfair s (show i + j < n by omega)
  refine (LeadsTo.stages (P := fun j => Handling envs n s (i + j)) hnext).trans (LeadsTo.of_imp ?_)
  rintro p (⟨hinv, hat⟩ | hab)
  · by_cases hab : ∃ j < n, (p.worker j).aborted
    · exact Or.inr hab
    · refine Or.inl ⟨hinv, fun j hj => ⟨fun h => hab ⟨j, hj, h⟩, Or.inl ?_⟩⟩
      exact (hinv.cleared s _ hat).2 j (show j < i + (n - i) by omega)
  · exact Or.inr hab

end

/--
**A client process comes to its end.** If all threads and handlers keep getting their turns, `main`
prints exactly when at some time every worker may leave its loop, because its time is over or its
flag is cleared, and none was aborted. A signal at any time is enough for that, unless an assertion
fails in some worker, which ends the process without any output.
-/
theorem workers_finish_iff (envs : Nat → ClientEnv) (countCore : Nat) (hcore : 0 < countCore)
    (tables : Nat → FlowTables) (now : Nat → UInt64) (schedule : Nat → WorkersInput)
    (hfair : FairWorkers envs countCore schedule) :
    let p := runAt (workersStep envs countCore) (workersInit envs tables now) schedule
    ((∃ k outputs, (p k).pc = .printed outputs) ↔
      ∃ k, ∀ i, i < countCore → ((p k).worker i).client.transmit.pc ≠ .aborted ∧
        (((p k).worker i).running = false ∨ ((p k).worker i).client.transmit.pc = .done)) ∧
    ∀ k s, schedule k = .signal s →
      (∃ k' outputs, (p k').pc = .printed outputs) ∨
      ∃ k', ∃ i < countCore, ((p k').worker i).client.transmit.pc = .aborted := by
  intro p
  have hinv : ∀ k, WorkersInv envs countCore (p k) := fun k => workersInv_run tables now _
  have hends : ∀ k, AllLeaving envs countCore (p k) →
      ∃ k' outputs, (p k').pc = .printed outputs := by
    intro k hall
    obtain ⟨k', -, outputs, hpc⟩ := leadsTo_end hcore hfair k hall
    exact ⟨k', outputs, hpc⟩
  refine ⟨⟨?_, ?_⟩, ?_⟩
  · rintro ⟨k, outputs, hpc⟩
    refine ⟨k, fun i hi => ?_⟩
    obtain ⟨r, hr⟩ := (hinv k).printed outputs hpc i hi
    obtain ⟨-, hrun, -⟩ := ((hinv k).winding i).reported r hr
    refine ⟨(((hinv k).winding i).left ?_).1, Or.inl hrun⟩
    rw [hr]
    exact ClientPhase.noConfusion
  · rintro ⟨k, hleave⟩
    exact hends k ⟨hinv k, hleave⟩
  · intro k s hsig
    by_cases hab : ∃ i < countCore, ((p k).worker i).aborted
    · exact Or.inr ⟨k, hab⟩
    · -- the signal has started its handler, or finds it at work
      have hstep : p (k + 1) = (workersStep envs countCore (p k) (.signal s)).1 := by
        rw [← hsig]
        exact runAt_succ k
      have hsome : ∃ i, (p (k + 1)).handler s = some i := by
        rw [hstep, workersStep, if_neg hab]
        split
        · next h => exact Option.isSome_iff_exists.mp h
        · exact ⟨0, Function.update_self ..⟩
      obtain ⟨i, hi⟩ := hsome
      obtain ⟨k', -, hall | hab⟩ := leadsTo_all_leaving hfair s ((hinv (k + 1)).cleared s i hi).1
        (k + 1) (Or.inl ⟨hinv (k + 1), hi⟩)
      · exact Or.inl (hends k' hall)
      · exact Or.inr ⟨k', hab⟩

/-- A signal and its handler, and then everyone in turn, seven turns a round. -/
def roundAfterSignal (k : Nat) : WorkersInput :=
  if k = 0 then .signal .sigint
  else if k < 3 then .handle .sigint
  else if k % 7 = 0 then .main
  else if k % 7 = 1 then .handle .sigint
  else if k % 7 = 2 then .handle .sighup
  else if k % 7 = 3 then .transmit 0 (clientTurn none)
  else if k % 7 = 4 then .transmit 1 (clientTurn none)
  else if k % 7 = 5 then .receive 0 (receiverTurnOn [])
  else .receive 1 (receiverTurnOn [])

/-- Each turn comes up in each round. -/
theorem roundAfterSignal_recurs {A : WorkersInput → Prop} (j : Nat)
    (h : A (roundAfterSignal (7 + j))) : Recurs roundAfterSignal A := by
  intro k
  refine ⟨7 * (k + 1) + j, by omega, ?_⟩
  have hmod : (7 * (k + 1) + j) % 7 = (7 + j) % 7 := by omega
  have hsame : roundAfterSignal (7 * (k + 1) + j) = roundAfterSignal (7 + j) := by
    unfold roundAfterSignal
    rw [hmod, if_neg (show ¬ 7 * (k + 1) + j = 0 by omega),
      if_neg (show ¬ 7 * (k + 1) + j < 3 by omega), if_neg (show ¬ 7 + j = 0 by omega),
      if_neg (show ¬ 7 + j < 3 by omega)]
  rw [hsame]
  exact h

theorem both_workers {P : Nat → Prop} (h0 : P 0) (h1 : P 1) : ∀ i, i < 2 → P i
  | 0, _ => h0
  | 1, _ => h1

/-- Two workers come to their end after a signal. -/
theorem workers_finish_after_signal :
    ∃ k outputs, (runAt (workersStep (fun _ => zipfClientEnv) 2)
      (workersInit (fun _ => zipfClientEnv) (fun _ => ⟨fun _ => 0, fun _ => 0⟩) fun _ => 0)
      roundAfterSignal k).pc = .printed outputs := by
  refine (workers_finish_iff (fun _ => zipfClientEnv) 2 (by decide)
    (fun _ => ⟨fun _ => 0, fun _ => 0⟩) (fun _ => 0) roundAfterSignal
    ⟨?_, ?_, ?_, ?_⟩).1.mpr ⟨3, ?_⟩
  · exact both_workers (roundAfterSignal_recurs 3 ⟨_, rfl⟩) (roundAfterSignal_recurs 4 ⟨_, rfl⟩)
  · exact both_workers (fun _ => roundAfterSignal_recurs 5 ⟨_, rfl⟩)
      fun _ => roundAfterSignal_recurs 6 ⟨_, rfl⟩
  · intro s
    cases s with
    | sigint => exact roundAfterSignal_recurs 1 rfl
    | sighup => exact roundAfterSignal_recurs 2 rfl
  · exact roundAfterSignal_recurs 0 rfl
  · exact both_workers ⟨ClientPc.noConfusion, Or.inl rfl⟩ ⟨ClientPc.noConfusion, Or.inl rfl⟩

end DpdkEcho
