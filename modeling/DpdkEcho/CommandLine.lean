import DpdkEcho.Config
import DpdkEcho.Infra.Getopt

/-!
# The words of the command line (`config.c`)

`parse_args` reads its options with `getopt_long`. The words are those that are left after EAL has
taken its own; the last of EAL's takes the place of the name of the program.
-/

namespace DpdkEcho

open Infra

/-- A row of `long_opts`. -/
def longOpt (name : String) (hasArg : Bool) (val : Opt) : LongOpt Opt :=
  { name := name.toList, hasArg := hasArg, val := val }

/-- `long_opts` -/
def longOpts : List (LongOpt Opt) := [
  longOpt "help" false .help,
  longOpt "client" false .client,
  longOpt "server" false .server,
  longOpt "latency-client" false .latencyClient,
  longOpt "ip-local" true .ipLocal,
  longOpt "ip-dest" true .ipDest,
  longOpt "port" true .port,
  longOpt "port-dest" true .destPort,
  longOpt "num-flow" true .numFlow,
  longOpt "duration" true .duration,
  longOpt "delay" true .delay,
  longOpt "rate" true .rate,
  longOpt "batch" true .batchSize,
  longOpt "payload" true .payloadLength,
  longOpt "unidir" false .unidir,
  longOpt "no-arp" true .noArp,
  longOpt "num-queue" true .numQueue,
  longOpt "hdr-encap-sz" true .hdrEncpSz,
  longOpt "zipf-client-addr" true .zipfClientAddr,
  longOpt "max-num" true .maxNum,
  longOpt "add-katran-opt" true .addKatranOpt]

/-- What the loop of `parse_args` gets from `getopt_long`. A refusal is the `default` of the
`switch`. -/
def optsOfArgv (argv : List CStr) : List (Opt × CStr) :=
  (getoptLong longOpts argv).map fun r => r.getD (.unknown, [])

/-- `parse_args` -/
def parseArgv (atof : CStr → ℚ) (argv : List CStr) : Except Exit AppConfig :=
  parseArgs atof (optsOfArgv argv)

end DpdkEcho
