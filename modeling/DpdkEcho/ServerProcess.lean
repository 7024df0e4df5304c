import DpdkEcho.Main
import DpdkEcho.Server

/-!
# A server process (`main.c`)

In server mode `main` launches `do_server` on the other cores and runs it itself as worker 0. When
that call returns it clears `cntx->running` of every context, waits for the other cores and prints
their output. The flags are the only thing the workers share; a worker looks at its own flag at
the head of its loop.

A run of the process is an interleaving of turns of the workers and of steps of `main`. What lies
behind the end of a worker's `queue_status` is memory of that worker here as well, and writing
there has no other effect.
-/

namespace DpdkEcho

open Infra

/-- A call of `do_server`, with `cntx->running`. -/
structure ServerWorker where
  st : ServerState
  running : Bool
  returned : Bool

/-- Where `main` is. -/
inductive MainPc where
  /-- In `do_server(&cntxs[0])`. -/
  | serving
  /-- In the loop that clears the flags, at `cntxs[i]`. -/
  | asking (i : Nat)
  /-- In `rte_eal_mp_wait_lcore`. -/
  | waiting
  | finished
deriving DecidableEq, Repr

structure ServerProcess where
  worker : Nat → ServerWorker
  pc : MainPc

/-- What happens next. -/
inductive ProcessInput where
  /-- Worker `i` gets to the head of its loop. -/
  | turn (i : Nat) (inp : ServerInput)
  /-- `main` goes on. -/
  | main

/-- All workers are launched. `start i` is what `do_server` has made of its variables. -/
def processInit (start : Nat → ServerState) : ServerProcess where
  worker i := { st := start i, running := true, returned := false }
  pc := .serving

/-- `while (run && cntx->running)`: an iteration, or the end of `do_server`, which clears its
flag. -/
def ServerWorker.turn (hz : UInt64) (cntx : Context) (w : ServerWorker) (inp : ServerInput) :
    ServerWorker × List ServerEvent :=
  if w.returned then (w, [])
  else if w.st.run ∧ w.running then
    let next := serverStep hz cntx w.st inp
    ({ w with st := next.1 }, next.2)
  else ({ w with running := false, returned := true }, [])

/-- The end of `main` in server mode, one statement at a time. -/
def mainStep (countCore : Nat) (p : ServerProcess) : ServerProcess :=
  match p.pc with
  | .serving => if (p.worker 0).returned then { p with pc := .asking 0 } else p
  | .asking i =>
    if i < countCore then
      { worker := Function.update p.worker i { p.worker i with running := false }
        pc := .asking (i + 1) }
    else { p with pc := .waiting }
  | .waiting =>
    if ∀ i < countCore, (p.worker i).returned then { p with pc := .finished } else p
  | .finished => p

/-- One step of the process, with the actions of the worker that takes it. -/
def processStep (hz : UInt64) (ws : List Context) (p : ServerProcess) :
    ProcessInput → ServerProcess × List (Nat × ServerEvent)
  | .turn i inp =>
    match ws[i]? with
    | none => (p, [])
    | some cntx =>
      let next := (p.worker i).turn hz cntx inp
      ({ p with worker := Function.update p.worker i next.1 }, next.2.map fun e => (i, e))
  | .main => (mainStep ws.length p, [])

/-- A turn of a worker: it has returned before, it goes through its loop once more, or it leaves. -/
theorem ServerWorker.turn_cases (hz : UInt64) (cntx : Context) (w : ServerWorker)
    (inp : ServerInput) :
    (w.returned = true ∧ w.turn hz cntx inp = (w, [])) ∨
    (w.returned = false ∧ w.st.run = true ∧ w.running = true ∧
      w.turn hz cntx inp =
        ({ w with st := (serverStep hz cntx w.st inp).1 }, (serverStep hz cntx w.st inp).2)) ∨
    (w.returned = false ∧ (w.st.run = false ∨ w.running = false) ∧
      w.turn hz cntx inp = ({ w with running := false, returned := true }, [])) := by
  unfold ServerWorker.turn
  by_cases hret : w.returned = true
  · exact Or.inl ⟨hret, if_pos hret⟩
  · have hret' : w.returned = false := Bool.eq_false_iff.mpr hret
    rw [if_neg hret]
    by_cases hgo : w.st.run = true ∧ w.running = true
    · exact Or.inr (Or.inl ⟨hret', hgo.1, hgo.2, if_pos hgo⟩)
    · refine Or.inr (Or.inr ⟨hret', ?_, if_neg hgo⟩)
      by_cases hrun : w.st.run = true
      · exact Or.inr (Bool.eq_false_iff.mpr fun h => hgo ⟨hrun, h⟩)
      · exact Or.inl (Bool.eq_false_iff.mpr hrun)

/-- What the actions of a step are: those of one worker. -/
theorem mem_processStep {hz : UInt64} {ws : List Context} {p : ServerProcess}
    {input : ProcessInput} {i : Nat} {e : ServerEvent} :
    (i, e) ∈ (processStep hz ws p input).2 ↔ ∃ inp cntx, input = .turn i inp ∧
      ws[i]? = some cntx ∧ e ∈ ((p.worker i).turn hz cntx inp).2 := by
  cases input with
  | main => simp [processStep]
  | turn j inp =>
    constructor
    · intro he
      unfold processStep at he
      simp only at he
      split at he
      · cases he
      · next cntx hget =>
        obtain ⟨e', he', heq⟩ := List.mem_map.mp he
        obtain ⟨rfl, rfl⟩ := Prod.mk.inj heq
        exact ⟨inp, cntx, rfl, hget, he'⟩
    · rintro ⟨inp', cntx, hin, hget, he⟩
      obtain ⟨rfl, rfl⟩ := ProcessInput.turn.inj hin
      simp only [processStep, hget]
      exact List.mem_map_of_mem he

/-- What a step does to worker `i`: a turn of it, the flag cleared by `main`, or nothing. -/
theorem processStep_worker (hz : UInt64) (ws : List Context) (p : ServerProcess)
    (input : ProcessInput) (i : Nat) :
    (processStep hz ws p input).1.worker i = p.worker i ∨
    (∃ inp cntx, input = .turn i inp ∧ ws[i]? = some cntx ∧
      (processStep hz ws p input).1.worker i = ((p.worker i).turn hz cntx inp).1) ∨
    (p.pc = .asking i ∧ i < ws.length ∧ (processStep hz ws p input).1.worker i =
      { p.worker i with running := false }) := by
  cases input with
  | turn j inp =>
    simp only [processStep]
    cases hget : ws[j]? with
    | none => exact Or.inl rfl
    | some cntx =>
      by_cases hij : i = j
      · subst hij
        refine Or.inr (Or.inl ⟨inp, cntx, rfl, hget, ?_⟩)
        exact Function.update_self ..
      · exact Or.inl (Function.update_of_ne hij ..)
  | main =>
    simp only [processStep, mainStep]
    cases hpc : p.pc with
    | serving =>
      simp only []
      split <;> exact Or.inl rfl
    | waiting =>
      simp only []
      split <;> exact Or.inl rfl
    | finished => exact Or.inl rfl
    | asking j =>
      simp only []
      split
      · next hlt =>
        by_cases hij : i = j
        · subst hij
          exact Or.inr (Or.inr ⟨rfl, hlt, Function.update_self ..⟩)
        · exact Or.inl (Function.update_of_ne hij ..)
      · exact Or.inl rfl

end DpdkEcho
