import DpdkEcho.Config

/-!
# What an accepted option does

A handler either ends the process or changes the configuration. `applyOpt` is the change,
`modeAllows` the application mode that is needed for it, and `handleOpt_ok` says that there is
nothing else. Statements about accepted command lines are proved from these two.
-/

namespace DpdkEcho

open Infra

/-- The mode in which an option is accepted. -/
def modeAllows (mode : Mode) : Opt → Prop
  | .client | .server | .latencyClient => mode = .undefined
  | .ipDest | .destPort | .payloadLength | .batchSize => mode = .client ∨ mode = .latencyClient
  | .port | .delay => mode ≠ .undefined
  | .hdrEncpSz => mode = .latencyClient
  | .zipfClientAddr => mode = .client
  | .help | .unknown => False
  | _ => True

/-- The change an accepted option makes. -/
def applyOpt (atof : CStr → ℚ) (c : AppConfig) : Opt × CStr → AppConfig
  | (.numQueue, arg) => { c with numQueues := UInt16.ofInt (atoi arg) }
  | (.client, _) => { c with mode := .client }
  | (.server, _) => { c with mode := .server }
  | (.latencyClient, _) => { c with mode := .latencyClient }
  | (.ipLocal, arg) =>
    match strToIp arg with
    | none => c
    | some ip => { c with sourceIp := ip }
  | (.ipDest, arg) =>
    match strToIp arg with
    | none => c
    | some ip => c.withClient fun cl => { cl with
        countServerIps := cl.countServerIps + 1, serverIps := cl.serverIps ++ [ip] }
  | (.port, arg) =>
    if c.mode = .server then { c with serverPort := UInt16.ofInt (atoi arg) }
    else c.withClient fun cl => { cl with clientPort := UInt16.ofInt (atoi arg) }
  | (.destPort, arg) => { c with serverPort := UInt16.ofInt (atoi arg) }
  | (.numFlow, arg) => c.withClient fun cl => { cl with countFlow := atoi arg }
  | (.duration, arg) => c.withClient fun cl => { cl with duration := atoi arg }
  | (.delay, arg) =>
    if c.mode = .server then c.setServerDelay (UInt32.ofInt (wrapSigned 32 (atol arg)))
    else c.withClient fun cl => { cl with delayCycles := UInt64.ofInt (wrapSigned 32 (atol arg)) }
  | (.rate, arg) =>
    c.withClient fun cl => { cl with rateLimit := true, rate := UInt64.ofInt (atol arg) }
  | (.batchSize, arg) => c.withClient fun cl => { cl with batch := UInt16.ofInt (atoi arg) }
  | (.payloadLength, arg) => { c with payloadSize := UInt32.ofInt (atoi arg) }
  | (.unidir, _) => { c with bidi := false }
  | (.noArp, arg) =>
    match parseNoArpArg c.destMac arg with
    | .error _ => c
    | .ok mac => { c with doArp := false, destMac := mac }
  | (.hdrEncpSz, arg) => c.withClient fun cl => { cl with hdrEncpSz := wrapSigned 16 (atoi arg) }
  | (.zipfClientAddr, arg) =>
    match parseZipfClientAddrArg atof c.client arg with
    | .error _ => c
    | .ok client => { c with client := client }
  | (.maxNum, arg) =>
    match scanD arg with
    | none => c
    | some (n, _) => c.withClient fun cl => { cl with maxNum := n }
  | (.addKatranOpt, arg) =>
    c.withClient fun cl => { cl with addKatranOpt := UInt32.ofInt (atoi arg) }
  | (.help, _) => c
  | (.unknown, _) => c

section
variable {atof : CStr → ℚ} {c c' : AppConfig} {o : Opt} {arg : CStr}

/-- **An option is accepted only in its mode, and makes its change and no other.** -/
theorem handleOpt_ok (h : handleOpt atof c (o, arg) = .ok c') :
    modeAllows c.mode o ∧ c' = applyOpt atof c (o, arg) := by
  cases o <;>
    simp only [handleOpt, selectMode, checkClientMode, rteExit, bind, Except.bind, pure,
      Except.pure] at h
  all_goals
    repeat' split at h
  all_goals
    first
    | (cases h; done)
    | (refine ⟨?_, ?_⟩
       · grind [modeAllows]
       · rw [← Except.ok.inj h]
         simp_all [applyOpt])

/-- The four fields of `--zipf-client-addr` do not depend on the rest of the record. -/
theorem parseZipfClientAddrArg_eq (cl : ClientConfig) :
    parseZipfClientAddrArg atof cl arg =
      (parseZipfClientAddrArg atof defaultConfig.client arg).map fun z => { cl with
        selectSrcIp := z.selectSrcIp
        uniqueClientAddresses := z.uniqueClientAddresses
        uniqueClientPorts := z.uniqueClientPorts
        zipfArg := z.zipfArg } := by
  unfold parseZipfClientAddrArg
  simp only [rteExit]
  repeat' split
  all_goals rfl

/-- An accepted command line went through the option loop and through the checks behind it. -/
theorem parseArgs_ok {args : List (Opt × CStr)} (h : parseArgs atof args = .ok c) :
    ∃ c1, parseOpts atof defaultConfig args = .ok c1 ∧ finishArgs c1 = .ok c := by
  cases h1 : parseOpts atof defaultConfig args with
  | error e =>
    rw [parseArgs, h1] at h
    cases h
  | ok c1 =>
    rw [parseArgs, h1] at h
    exact ⟨c1, rfl, h⟩

end

end DpdkEcho
