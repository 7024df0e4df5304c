import DpdkEcho.Client.Run

/-!
# `do_client` from its loop to its report (`client.c`, `main.c`)

`do_client` leaves its loop when its time is over or when `handle_main_int` has cleared
`cntx->running`. It then asks the receiver thread to stop, waits for it and prints what has been
counted. Up to there the two threads and the signals may come in any order.

What it prints goes to the stream `cntx->fp`, some of it before the loop. Floating-point arithmetic
is read as exact rational arithmetic.
-/

namespace DpdkEcho

open Infra

/-- The lines of the report. -/
structure ClientReport where
  /-- By destination, the seven percentiles of the latency; in bidirectional mode only. -/
  latencies : List (UInt32 × List (Option ℚ))
  /-- By destination: `Tx`, `Rx` and `failed to push`. -/
  counts : List (UInt32 × UInt64 × UInt64 × UInt64)

/-- The percentiles `do_client` asks for, and what it calls them. -/
def reportedPercentiles : List (ℚ × String) :=
  [(1 / 100, "1.0"), (50 / 100, "50.0"), (90 / 100, "90.0"), (95 / 100, "95.0"),
    (99 / 100, "99.0"), (999 / 1000, "99.9"), (9999 / 10000, "99.99")]

/-- The result of `get_percentile`. An empty histogram makes it divide zero by zero. -/
def percentileResult (hist : PHist) (y : ℚ) : Option ℚ :=
  if hist.countValues = 0 then none else some (getPercentile hist y)

/-- The two loops over the destinations. -/
def clientReport (cntx : Context) (st : ClientState) : ClientReport where
  latencies :=
    if cntx.bidi then
      cntx.dstIps.zipIdx.map fun (ip, k) =>
        (ip, reportedPercentiles.map fun (y, _) => percentileResult (st.receiver.hist k) y)
    else []
  counts :=
    cntx.dstIps.zipIdx.map fun (ip, k) =>
      (ip, st.transmit.totalSentPkts k, st.receiver.totalReceivedPkts k, st.transmit.failedToPush k)

/-! ## The text -/

/-- What `do_client` writes before its loop. -/
def openingText (env : ClientEnv) : CStr :=
  let qid : Nat := env.cntx.defaultQid % 2 ^ 16
  let countQueues : Nat := env.cntx.countQueues % 2 ^ 16
  "sending on queues: [".toList ++ printD qid ++ ", ".toList ++ printD (qid + countQueues - 1) ++
    "]\n".toList ++
  (if env.build.payloadNumber then
    "Generating payload in range 0 .. ".toList ++ printD env.client.maxNum ++
      " (uniformly)\n".toList
  else []) ++
  "Client src port ".toList ++ printD env.cntx.srcPort.toNat ++ ['\n']

/-- `Ip: %u.%u.%u.%u` -/
def ipLine (ip : UInt32) : CStr :=
  "Ip: ".toList ++ ['.'].intercalate ([3, 2, 1, 0].map fun i => printHhu (addrByte ip i)) ++ ['\n']

/-- `%d latency (…): %f` -/
def percentileLine (k : Nat) (name : String) (value : Option ℚ) : CStr :=
  printD k ++ " latency (".toList ++ name.toList ++ "): ".toList ++ printF value ++ ['\n']

/-- A counter, which is printed as a `long`. -/
def countLine (name : String) (count : UInt64) : CStr :=
  name.toList ++ ": ".toList ++ printD (wrapSigned 64 count.toNat) ++ ['\n']

/-- What `do_client` writes behind its loop. The warm-up time is the constant 0. -/
def ClientReport.text (report : ClientReport) : CStr :=
  "=========================\n".toList ++
  (report.latencies.zipIdx.flatMap fun ((ip, values), k) =>
    ipLine ip ++ (reportedPercentiles.zip values).flatMap fun ((_, name), value) =>
      percentileLine k name value) ++
  (report.counts.flatMap fun (ip, sent, received, failed) =>
    ipLine ip ++ countLine "Tx" sent ++ countLine "Rx" received ++
      countLine "failed to push" failed ++ countLine "warmup time" 0) ++
  "Client done\n".toList

/-- All that `do_client` writes. -/
def clientText (env : ClientEnv) (report : ClientReport) : CStr := openingText env ++ report.text

/-! ## The process -/

/-- Where `do_client` is. -/
inductive ClientPhase where
  /-- In its loop. -/
  | looping
  /-- In `pthread_join`. -/
  | joining
  | reported (report : ClientReport)

structure ClientProcess where
  client : ClientState
  phase : ClientPhase
  /-- `cntx->running` -/
  running : Bool
  /-- `recv_arg.running` -/
  recvRunning : Bool
  /-- The receiver thread has ended. -/
  recvEnded : Bool

/-- What happens next. -/
inductive ClientProcessInput where
  /-- `do_client` goes on. -/
  | transmit (inp : TransmitInput)
  /-- The receiver thread gets to the head of its loop. -/
  | receive (inp : ReceiveInput)
  /-- `SIGINT` or `SIGHUP` -/
  | signal

def clientProcessInit (env : ClientEnv) (tables : FlowTables) (now : UInt64) : ClientProcess where
  client := clientInit env tables now
  phase := .looping
  running := true
  recvRunning := true
  recvEnded := false

/-- `do_client` goes on: an iteration of the loop, the way out of it, or the report. -/
def ClientProcess.goOn (env : ClientEnv) (p : ClientProcess) (inp : TransmitInput) :
    ClientProcess × List ClientEvent :=
  match p.phase with
  | .looping =>
    if p.running ∧ p.client.transmit.pc = .loop then
      let next := clientStep env p.client (.transmit inp)
      ({ p with client := next.1 }, next.2)
    else ({ p with phase := .joining, recvRunning := false }, [])
  | .joining =>
    -- without `bidi` there is no thread to wait for
    if env.cntx.bidi ∧ ¬ p.recvEnded then (p, [])
    else ({ p with phase := .reported (clientReport env.cntx p.client), running := false }, [])
  | .reported _ => (p, [])

/-- `while (arg->running)`: a turn of the receiver, or its end. -/
def ClientProcess.receive (env : ClientEnv) (p : ClientProcess) (inp : ReceiveInput) :
    ClientProcess × List ClientEvent :=
  if env.cntx.bidi = false ∨ p.recvEnded then (p, [])
  else if p.recvRunning then
    let next := clientStep env p.client (.receive inp)
    ({ p with client := next.1 }, next.2)
  else ({ p with recvEnded := true }, [])

/-- One step of the process. A process that was ended stays ended. -/
def clientProcessStep (env : ClientEnv) (p : ClientProcess) (input : ClientProcessInput) :
    ClientProcess × List ClientEvent :=
  if p.client.transmit.pc = .aborted then (p, [])
  else
    match input with
    | .transmit inp => p.goOn env inp
    | .receive inp => p.receive env inp
    | .signal => ({ p with running := false }, [])

end DpdkEcho
