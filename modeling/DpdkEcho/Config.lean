import Mathlib.Data.Rat.Defs
import DpdkEcho.Infra.CString
import DpdkEcho.Exp

/-!
# Command line (`config.h`, `config.c`, and the address texts of `utils/exp.c`)

`getopt_long` delivers the options in order; `parseArgs` runs the handlers over that list and
makes the final checks. `rte_exit` ends the process, so a handler that calls it has no
resulting configuration but an `Exit`.

`client_config` and `server_config` share storage. `server_delay` occupies the first four
bytes of the union: `client_port` and the two padding bytes behind it.
-/

namespace DpdkEcho

open Infra

/-! ## The configuration record -/

inductive Mode where
  | undefined
  | client
  | server
  | latencyClient
deriving DecidableEq, Repr

/-- `struct client_config`. `pad` are the two bytes the compiler leaves between `client_port`
and `count_server_ips`. `zipf_arg` is read as the rational number its text denotes. -/
structure ClientConfig where
  clientPort : UInt16
  pad : UInt16
  countServerIps : Nat
  serverIps : List UInt32
  countFlow : Int
  duration : Int
  rateLimit : Bool
  rate : UInt64
  delayCycles : UInt64
  batch : UInt16
  hdrEncpSz : Int
  selectSrcIp : Bool
  uniqueClientAddresses : UInt32
  uniqueClientPorts : UInt32
  zipfArg : ℚ
  addKatranOpt : UInt32
  maxNum : Int

/-- `struct app_config`. `client` is the union. -/
structure AppConfig where
  bidi : Bool
  useVlan : Bool
  doArp : Bool
  sourceIp : UInt32
  numQueues : UInt16
  mode : Mode
  payloadSize : UInt32
  serverPort : UInt16
  client : ClientConfig
  destMac : List UInt8

/-- `config.server.server_delay` read through the union. -/
def AppConfig.serverDelay (c : AppConfig) : UInt32 :=
  c.client.clientPort.toUInt32 + c.client.pad.toUInt32 * 65536

/-- Assign `config.server.server_delay` through the union. -/
def AppConfig.setServerDelay (c : AppConfig) (d : UInt32) : AppConfig :=
  { c with client := { c.client with clientPort := d.toUInt16, pad := (d / 65536).toUInt16 } }

/-- `memset` followed by the default values of `parse_args`. -/
def defaultConfig : AppConfig where
  bidi := true
  useVlan := false
  doArp := true
  sourceIp := 0
  numQueues := 1
  mode := .undefined
  payloadSize := 64
  serverPort := 8080
  client := {
    clientPort := 3000, pad := 0, countServerIps := 0, serverIps := [], countFlow := 1,
    duration := 0, rateLimit := false, rate := 0, delayCycles := 0, batch := 0, hdrEncpSz := 0,
    selectSrcIp := false, uniqueClientAddresses := 1, uniqueClientPorts := 1, zipfArg := 0,
    addKatranOpt := 0, maxNum := 2000000 }
  destMac := List.replicate 6 0

/-- A call of `rte_exit`. -/
structure Exit where
  failure : Bool
  message : String
deriving DecidableEq, Repr

/-- `rte_exit(EXIT_FAILURE, message)` -/
def rteExit {α : Type} (message : String) : Except Exit α :=
  .error { failure := true, message := message }

/-! ## Argument parsers -/

/-- `MAKE_IP_ADDR` -/
def makeIpAddr (a b c d : UInt8) : UInt32 :=
  (a.toUInt32 <<< 24) ||| (b.toUInt32 <<< 16) ||| (c.toUInt32 <<< 8) ||| d.toUInt32

/-- `str_to_ip`: the address stored, or `none` for the return value -1. -/
def strToIp (s : CStr) : Option UInt32 := do
  let (a, s) ← scanHhu s
  let s ← scanChar '.' s
  let (b, s) ← scanHhu s
  let s ← scanChar '.' s
  let (c, s) ← scanHhu s
  let s ← scanChar '.' s
  let (d, _) ← scanHhu s
  return makeIpAddr a b c d

/-- Byte `i` of an address in the memory of a little-endian machine. -/
def addrByte (addr : UInt32) (i : Nat) : UInt8 := UInt8.ofNat (addr.toNat / 256 ^ i)

/-- `ip_to_str`: what it leaves in a buffer of the given size. -/
def ipToStr (addr : UInt32) (size : Nat) : List Char :=
  snprintf size (printHhu (addrByte addr 3) ++ '.' :: (printHhu (addrByte addr 2) ++ '.' ::
    (printHhu (addrByte addr 1) ++ '.' :: printHhu (addrByte addr 0))))

/-- `_parse_zipf_client_addr_arg` -/
def parseZipfClientAddrArg (atof : CStr → ℚ) (c : ClientConfig) (arg : CStr) :
    Except Exit ClientConfig :=
  match strtok ['/'] arg with
  | none => rteExit "Failed to parse arguments\n"
  | some (total, s) =>
    match strtok ['/'] s with
    | none => rteExit "Failed to parse arguments\n"
    | some (ports, s) =>
      match strtok [] s with
      | none => rteExit "Failed to parse arguments\n"
      | some (zipf, _) =>
        let c := { c with
          selectSrcIp := true
          uniqueClientAddresses := UInt32.ofInt (atoi total)
          uniqueClientPorts := UInt32.ofInt (atoi ports)
          zipfArg := atof zipf }
        if c.uniqueClientPorts > c.uniqueClientAddresses then
          rteExit "Failed to parse arguments\n"
        else .ok c

/-- `sscanf(tmp, "%2hhx", &config.dest_mac[i])`: a failed conversion leaves the byte alone. -/
def setMacByte (mac : List UInt8) (i : Nat) (tok : CStr) : List UInt8 :=
  match scan2hhx tok with
  | some b => mac.set i b
  | none => mac

/-- The `strtok` loop of `_parse_no_arp_arg` from group `i` on, `n` groups. -/
def parseMacGroups : Nat → Nat → List UInt8 → CStr → Option (List UInt8 × CStr)
  | 0, _, mac, s => some (mac, s)
  | n + 1, i, mac, s =>
    match strtok [':'] s with
    | none => none
    | some (tok, s) => parseMacGroups n (i + 1) (setMacByte mac i tok) s

/-- `_parse_no_arp_arg` -/
def parseNoArpArg (mac : List UInt8) (arg : CStr) : Except Exit (List UInt8) :=
  match parseMacGroups 5 0 mac arg with
  | none => rteExit "Failed while parsing --no-arp"
  | some (mac, s) =>
    match strtok [] s with
    | none => rteExit "Failed while parsing --no-arp"
    | some (tok, _) => .ok (setMacByte mac 5 tok)

/-! ## Option handlers -/

/-- `MAX_SERVER_IP_DEST` -/
def maxServerIpDest : Nat := 32

/-- The long options, with `unknown` for what `getopt_long` does not recognise. -/
inductive Opt where
  | help | numQueue | client | server | latencyClient | ipLocal | ipDest | port | destPort
  | numFlow | duration | delay | rate | batchSize | payloadLength | unidir | noArp | hdrEncpSz
  | zipfClientAddr | maxNum | addKatranOpt | unknown
deriving DecidableEq, Repr

/-- `check_only_one_mode`, then the assignment of the mode. -/
def selectMode (c : AppConfig) (m : Mode) : Except Exit AppConfig :=
  if c.mode = .undefined then .ok { c with mode := m }
  else rteExit "Multiple application mode were selected\n"

/-- `check_client_mode` -/
def checkClientMode (c : AppConfig) : Except Exit Unit :=
  if c.mode ≠ .client ∧ c.mode ≠ .latencyClient then
    rteExit "Expected to be in client mode\n"
  else .ok ()

/-- Change the client half of the union. -/
def AppConfig.withClient (c : AppConfig) (f : ClientConfig → ClientConfig) : AppConfig :=
  { c with client := f c.client }

/-- The body of the `switch` of `parse_args`. `ret` is an `int`, also where `atol` is called. -/
def handleOpt (atof : CStr → ℚ) (c : AppConfig) : Opt × CStr → Except Exit AppConfig
  | (.numQueue, arg) =>
    if atoi arg < 1 then rteExit "Invalid number of queues\n"
    else .ok { c with numQueues := UInt16.ofInt (atoi arg) }
  | (.client, _) => selectMode c .client
  | (.server, _) => selectMode c .server
  | (.latencyClient, _) => selectMode c .latencyClient
  | (.ipLocal, arg) =>
    match strToIp arg with
    | none => rteExit "Failed to read source ip address\n"
    | some ip => .ok { c with sourceIp := ip }
  | (.ipDest, arg) => do
    checkClientMode c
    -- the number of addresses is raised before the address is read; a failure ends the process
    if c.client.countServerIps ≥ maxServerIpDest then
      rteExit "Maximum number of destination servers have been reached\n"
    else
      match strToIp arg with
      | none => rteExit "Failed to read destination ip address\n"
      | some ip => .ok (c.withClient fun cl => { cl with
          countServerIps := cl.countServerIps + 1, serverIps := cl.serverIps ++ [ip] })
  | (.port, arg) =>
    if atoi arg ≤ 0 then rteExit "Invalid client port number\n"
    else if c.mode = .undefined then
      rteExit "Expect to set the application mode before defining local port\n"
    else if c.mode = .server then .ok { c with serverPort := UInt16.ofInt (atoi arg) }
    else .ok (c.withClient fun cl => { cl with clientPort := UInt16.ofInt (atoi arg) })
  | (.destPort, arg) => do
    checkClientMode c
    if atoi arg ≤ 0 then rteExit "Invalid server port number\n"
    else .ok { c with serverPort := UInt16.ofInt (atoi arg) }
  | (.numFlow, arg) => .ok (c.withClient fun cl => { cl with countFlow := atoi arg })
  | (.duration, arg) => .ok (c.withClient fun cl => { cl with duration := atoi arg })
  | (.delay, arg) =>
    if c.mode = .undefined then
      rteExit "Expect to set the application mode before setting delay cycles\n"
    else
      let ret := wrapSigned 32 (atol arg)
      if c.mode = .server then .ok (c.setServerDelay (UInt32.ofInt ret))
      else .ok (c.withClient fun cl => { cl with delayCycles := UInt64.ofInt ret })
  | (.rate, arg) =>
    .ok (c.withClient fun cl => { cl with rateLimit := true, rate := UInt64.ofInt (atol arg) })
  | (.batchSize, arg) =>
    if c.mode ≠ .latencyClient ∧ c.mode ≠ .client then
      rteExit "Expected to be in latency-client mode\n"
    else if atoi arg < 1 then rteExit "Unexpected value for batch size\n"
    else .ok (c.withClient fun cl => { cl with batch := UInt16.ofInt (atoi arg) })
  | (.payloadLength, arg) => do
    checkClientMode c
    if atoi arg < 1 then rteExit "Unexpected value for payload length\n"
    else .ok { c with payloadSize := UInt32.ofInt (atoi arg) }
  | (.unidir, _) => .ok { c with bidi := false }
  | (.noArp, arg) => do
    let mac ← parseNoArpArg c.destMac arg
    return { c with doArp := false, destMac := mac }
  | (.hdrEncpSz, arg) =>
    if c.mode ≠ .latencyClient then
      rteExit "Expected to be in latency-client mode (hdr_encp_sze)\n"
    else .ok (c.withClient fun cl => { cl with hdrEncpSz := wrapSigned 16 (atoi arg) })
  | (.zipfClientAddr, arg) =>
    if c.mode ≠ .client then
      rteExit "Expected to be in latency-client mode (zipf-client-addr)\n"
    else do
      let client ← parseZipfClientAddrArg atof c.client arg
      return { c with client := client }
  | (.maxNum, arg) =>
    match scanD arg with
    | none => .ok c
    | some (n, _) => .ok (c.withClient fun cl => { cl with maxNum := n })
  | (.addKatranOpt, arg) =>
    .ok (c.withClient fun cl => { cl with addKatranOpt := UInt32.ofInt (atoi arg) })
  | (.help, _) => .error { failure := false, message := "!" }
  | (.unknown, _) => rteExit "!"

/-- The checks after the option loop. -/
def finishArgs (c : AppConfig) : Except Exit AppConfig :=
  if c.mode = .undefined then rteExit "Application mode not set\n"
  else
    let c := if c.client.batch = 0 then
        if c.mode = .client then c.withClient fun cl => { cl with batch := 32 }
        else if c.mode = .latencyClient then c.withClient fun cl => { cl with batch := 1 }
        else c
      else c
    if c.sourceIp = 0 then rteExit "Expect source Ip to be set!\n"
    else if c.client.countServerIps = 0 ∧ (c.mode = .client ∨ c.mode = .latencyClient) then
      rteExit "Expect at least one destination address\n"
    else .ok c

/-- The option loop of `parse_args`. -/
def parseOpts (atof : CStr → ℚ) (c : AppConfig) (args : List (Opt × CStr)) :
    Except Exit AppConfig := args.foldlM (handleOpt atof) c

/-- `parse_args`, from what `getopt_long` delivers after EAL has taken its own arguments. -/
def parseArgs (atof : CStr → ℚ) (args : List (Opt × CStr)) : Except Exit AppConfig := do
  let c ← parseOpts atof defaultConfig args
  finishArgs c

end DpdkEcho
