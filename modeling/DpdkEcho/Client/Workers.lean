import DpdkEcho.Client.Process

/-!
# A client process with its workers (`main.c`)

In client mode `main` installs `handle_main_int` for two signals, launches `do_client` on the other
cores and runs it itself as worker 0. When that call returns it waits for the other cores and prints
the output buffers of all workers. The handler clears `cntx->running` of one context after the
other, while the workers go on.

The workers share nothing but the process: an assertion that fails in one of them ends them all. A
signal is held back while its own handler runs, the other one is not. An output buffer has 2048
bytes, and what does not fit into it is lost. The arrays of `main` have room for 20 workers.
-/

namespace DpdkEcho

open Infra

/-- The signals `main` handles. -/
inductive MainSignal where
  | sigint
  | sighup
deriving DecidableEq, Repr

/-- Where `main` is. -/
inductive ClientMainPc where
  /-- In `process_function(&cntxs[0])`. -/
  | working
  /-- In `rte_eal_mp_wait_lcore`. -/
  | waiting
  /-- It has printed the output buffers, each on lines of its own. -/
  | printed (outputs : List CStr)
deriving DecidableEq

structure ClientWorkers where
  worker : Nat → ClientProcess
  pc : ClientMainPc
  /-- `handle_main_int` is running for this signal, and `cntxs[i]` is next. -/
  handler : MainSignal → Option Nat

/-- What happens next. -/
inductive WorkersInput where
  /-- `do_client` of worker `i` goes on. -/
  | transmit (i : Nat) (inp : TransmitInput)
  /-- The receiver thread of worker `i` gets to the head of its loop. -/
  | receive (i : Nat) (inp : ReceiveInput)
  | signal (s : MainSignal)
  /-- The handler of the signal goes on. -/
  | handle (s : MainSignal)
  /-- `main` goes on. -/
  | main

/-- All workers are launched. -/
def workersInit (envs : Nat → ClientEnv) (tables : Nat → FlowTables) (now : Nat → UInt64) :
    ClientWorkers where
  worker i := clientProcessInit (envs i) (tables i) (now i)
  pc := .working
  handler _ := none

/-- The bytes of an output buffer. -/
def outputBufferSize : Nat := 2048

/-- What a worker that has returned leaves in its output buffer. -/
def ClientPhase.output (env : ClientEnv) : ClientPhase → Option CStr
  | .reported report => some (fmemopenText outputBufferSize (clientText env report))
  | _ => none

/-- A step of worker `i`. -/
def ClientWorkers.act (envs : Nat → ClientEnv) (p : ClientWorkers) (i : Nat)
    (input : ClientProcessInput) : ClientWorkers × List (Nat × ClientEvent) :=
  let next := clientProcessStep (envs i) (p.worker i) input
  ({ p with worker := Function.update p.worker i next.1 }, next.2.map fun e => (i, e))

/-- A turn of the loop in `handle_main_int`, or its end. -/
def ClientWorkers.handle (envs : Nat → ClientEnv) (countCore : Nat) (p : ClientWorkers)
    (s : MainSignal) : ClientWorkers × List (Nat × ClientEvent) :=
  match p.handler s with
  | none => (p, [])
  | some i =>
    if i < countCore then
      let next := p.act envs i .signal
      ({ next.1 with handler := Function.update p.handler s (some (i + 1)) }, next.2)
    else ({ p with handler := Function.update p.handler s none }, [])

/-- The end of `main` in client mode. -/
def clientMainStep (envs : Nat → ClientEnv) (countCore : Nat) (p : ClientWorkers) :
    ClientWorkers :=
  let output := fun i => (p.worker i).phase.output (envs i)
  match p.pc with
  | .working => if (output 0).isSome then { p with pc := .waiting } else p
  | .waiting =>
    if ∀ i < countCore, (output i).isSome then
      { p with pc := .printed ((List.range countCore).filterMap output) }
    else p
  | .printed _ => p

/-- An assertion has failed in this worker. -/
def ClientProcess.aborted (p : ClientProcess) : Prop := p.client.transmit.pc = .aborted

instance (p : ClientProcess) : Decidable p.aborted :=
  inferInstanceAs (Decidable (p.client.transmit.pc = .aborted))

/-- One step of the process, with the actions of the worker that takes it. -/
def workersStep (envs : Nat → ClientEnv) (countCore : Nat) (p : ClientWorkers)
    (input : WorkersInput) : ClientWorkers × List (Nat × ClientEvent) :=
  -- `abort` ends all threads
  if ∃ i < countCore, (p.worker i).aborted then (p, [])
  else
    match input with
    | .transmit i inp => if i < countCore then p.act envs i (.transmit inp) else (p, [])
    | .receive i inp => if i < countCore then p.act envs i (.receive inp) else (p, [])
    | .signal s =>
      if (p.handler s).isSome then (p, [])
      else ({ p with handler := Function.update p.handler s (some 0) }, [])
    | .handle s => p.handle envs countCore s
    | .main => (clientMainStep envs countCore p, [])

end DpdkEcho
