import DpdkEcho.Properties.OptionValues

/-!
# The order of the options

The handlers share state: the mode decides where `--port` and `--delay` go, the client and the
server half of the configuration share their first bytes, and some options are refused before the
mode is chosen. `configOf` is the record as a function of the argument of each option, with no
order in it.

* `applyOpt_configOf`: an accepted option takes the record of the options so far to the record with
  that option added
* `parseOpts_configOf`: the option loop computes `configOf`
* `parseArgs_perm`: two accepted orders give one configuration
-/

namespace DpdkEcho

open Infra

/-! ## The record the options determine -/

/-- The mode that was chosen. -/
def modeOf (last : Opt → Option CStr) : Mode :=
  if last .client ≠ none then .client
  else if last .server ≠ none then .server
  else if last .latencyClient ≠ none then .latencyClient
  else .undefined

/-- The client half of the record. Its first bytes are the delay of a server. -/
def clientOf (atof : CStr → ℚ) (last : Opt → Option CStr) : ClientConfig :=
  let delay := (last .delay).map fun arg => wrapSigned 32 (atol arg)
  let zipf := ((last .zipfClientAddr).bind fun arg =>
    (parseZipfClientAddrArg atof defaultConfig.client arg).toOption).getD defaultConfig.client
  let ips := ((last .ipDest).bind strToIp).toList
  { clientPort :=
      if modeOf last = .server then (delay.map fun d => (UInt32.ofInt d).toUInt16).getD 3000
      else ((last .port).map fun arg => UInt16.ofInt (atoi arg)).getD 3000
    pad :=
      if modeOf last = .server then (delay.map fun d => (UInt32.ofInt d / 65536).toUInt16).getD 0
      else 0
    countServerIps := ips.length
    serverIps := ips
    countFlow := ((last .numFlow).map atoi).getD 1
    duration := ((last .duration).map atoi).getD 0
    rateLimit := (last .rate).isSome
    rate := ((last .rate).map fun arg => UInt64.ofInt (atol arg)).getD 0
    delayCycles := if modeOf last = .server then 0 else (delay.map UInt64.ofInt).getD 0
    batch := ((last .batchSize).map fun arg => UInt16.ofInt (atoi arg)).getD 0
    hdrEncpSz := ((last .hdrEncpSz).map fun arg => wrapSigned 16 (atoi arg)).getD 0
    selectSrcIp := zipf.selectSrcIp
    uniqueClientAddresses := zipf.uniqueClientAddresses
    uniqueClientPorts := zipf.uniqueClientPorts
    zipfArg := zipf.zipfArg
    addKatranOpt := ((last .addKatranOpt).map fun arg => UInt32.ofInt (atoi arg)).getD 0
    maxNum := (((last .maxNum).bind scanD).map Prod.fst).getD 2000000 }

/-- The record as a function of the argument of each option. -/
def configOf (atof : CStr → ℚ) (last : Opt → Option CStr) : AppConfig :=
  let mac := (last .noArp).bind fun arg => (parseNoArpArg defaultConfig.destMac arg).toOption
  { bidi := (last .unidir).isNone
    useVlan := false
    doArp := mac.isNone
    sourceIp := ((last .ipLocal).bind strToIp).getD 0
    numQueues := ((last .numQueue).map fun arg => UInt16.ofInt (atoi arg)).getD 1
    mode := modeOf last
    payloadSize := ((last .payloadLength).map fun arg => UInt32.ofInt (atoi arg)).getD 64
    serverPort :=
      ((if modeOf last = .server then last .port else last .destPort).map fun arg =>
        UInt16.ofInt (atoi arg)).getD 8080
    client := clientOf atof last
    destMac := mac.getD defaultConfig.destMac }

/-- The options so far with one more. -/
def addArg (last : Opt → Option CStr) (a : Opt × CStr) : Opt → Option CStr :=
  Function.update last a.1 (some a.2)

/-- The options that need a mode before them have one. -/
def ModeFirst (last : Opt → Option CStr) : Prop :=
  modeOf last = .undefined → last .port = none ∧ last .delay = none ∧ last .destPort = none

/-! ## One option -/

section
variable {atof : CStr → ℚ} {last : Opt → Option CStr} {o : Opt} {arg : CStr}

theorem modeOf_eq_undefined_iff : modeOf last = .undefined ↔
    last .client = none ∧ last .server = none ∧ last .latencyClient = none := by
  unfold modeOf
  split
  · simp_all
  · split
    · simp_all
    · split <;> simp_all

/-- Choosing a mode moves no field: the options whose place depends on it have not been given. -/
theorem applyOpt_configOf_mode (hm : modeOf last = .undefined) (hfirst : ModeFirst last)
    (ho : o = .client ∨ o = .server ∨ o = .latencyClient) :
    applyOpt atof (configOf atof last) (o, arg) =
      configOf atof (Function.update last o (some arg)) := by
  obtain ⟨hport, hdelay, hdest⟩ := hfirst hm
  obtain ⟨hc, hs, hl⟩ := modeOf_eq_undefined_iff.mp hm
  rcases ho with rfl | rfl | rfl <;>
    simp [applyOpt, configOf, clientOf, modeOf, hport, hdelay, hdest, hc, hs, hl]

/-- `--port` and `--delay` go to the half of the record that the mode selects. -/
theorem applyOpt_configOf_place (ho : o = .port ∨ o = .delay ∨ o = .destPort)
    (hm : modeAllows (modeOf last) o) :
    applyOpt atof (configOf atof last) (o, arg) =
      configOf atof (Function.update last o (some arg)) := by
  have hmode : ∀ o', o' = .port ∨ o' = .delay ∨ o' = .destPort →
      modeOf (Function.update last o' (some arg)) = modeOf last := by
    rintro o' (rfl | rfl | rfl) <;> rfl
  by_cases hserver : modeOf last = .server
  · rcases ho with rfl | rfl | rfl
    · simp [applyOpt, configOf, clientOf, hmode, hserver]
    · simp [applyOpt, configOf, clientOf, AppConfig.setServerDelay, hmode, hserver]
    · simp [modeAllows, hserver] at hm
  · rcases ho with rfl | rfl | rfl <;>
      simp [applyOpt, configOf, clientOf, AppConfig.withClient, hmode, hserver]

/-- **An accepted option adds itself to the record.** -/
theorem applyOpt_configOf (hnew : last o = none) (hm : modeAllows (modeOf last) o)
    (hfirst : ModeFirst last) :
    applyOpt atof (configOf atof last) (o, arg) =
      configOf atof (Function.update last o (some arg)) := by
  cases o
  case client => exact applyOpt_configOf_mode hm hfirst (.inl rfl)
  case server => exact applyOpt_configOf_mode hm hfirst (.inr (.inl rfl))
  case latencyClient => exact applyOpt_configOf_mode hm hfirst (.inr (.inr rfl))
  case port => exact applyOpt_configOf_place (.inl rfl) hm
  case delay => exact applyOpt_configOf_place (.inr (.inl rfl)) hm
  case destPort => exact applyOpt_configOf_place (.inr (.inr rfl)) hm
  case help => exact hm.elim
  case unknown => exact hm.elim
  case ipLocal =>
    cases hip : strToIp arg <;>
      simp [applyOpt, configOf, clientOf, modeOf, hip, hnew]
  case ipDest =>
    cases hip : strToIp arg <;>
      simp [applyOpt, configOf, clientOf, modeOf, AppConfig.withClient, hip, hnew]
  case maxNum =>
    cases hn : scanD arg <;>
      simp [applyOpt, configOf, clientOf, modeOf, AppConfig.withClient, hn, hnew]
  case noArp =>
    cases hmac : parseNoArpArg defaultConfig.destMac arg <;>
      simp [applyOpt, configOf, clientOf, modeOf, hmac, hnew, Except.toOption]
  case zipfClientAddr =>
    simp only [applyOpt]
    rw [parseZipfClientAddrArg_eq]
    cases hz : parseZipfClientAddrArg atof defaultConfig.client arg <;>
      simp [configOf, clientOf, modeOf, hz, hnew, Except.toOption, Except.map]
  all_goals rfl

/-- An option that is accepted keeps the mode first. -/
theorem modeFirst_update (hm : modeAllows (modeOf last) o) (hfirst : ModeFirst last) :
    ModeFirst (Function.update last o (some arg)) := by
  intro hu
  obtain ⟨hc, hs, hl⟩ := modeOf_eq_undefined_iff.mp hu
  cases o <;> simp_all [ModeFirst, modeAllows, modeOf]

end

/-! ## The command line -/

section
variable {atof : CStr → ℚ}

/-- **The option loop computes the record** from the options so far and those to come. -/
theorem parseOpts_configOf {args : List (Opt × CStr)} {last : Opt → Option CStr} {c' : AppConfig}
    (hnodup : (args.map Prod.fst).Nodup) (hnew : ∀ a ∈ args, last a.1 = none)
    (hfirst : ModeFirst last) (h : parseOpts atof (configOf atof last) args = .ok c') :
    c' = configOf atof (args.foldl addArg last) := by
  induction args generalizing last with
  | nil => exact (Except.ok.inj h).symm
  | cons a args ih =>
    obtain ⟨o, arg⟩ := a
    rw [parseOpts, List.foldlM_cons] at h
    cases hstep : handleOpt atof (configOf atof last) (o, arg) with
    | error e =>
      rw [hstep] at h
      cases h
    | ok c =>
      rw [hstep] at h
      obtain ⟨hm, hc⟩ := handleOpt_ok hstep
      have ho : last o = none := hnew (o, arg) List.mem_cons_self
      rw [applyOpt_configOf ho hm hfirst] at hc
      subst hc
      rw [List.map_cons, List.nodup_cons] at hnodup
      refine ih hnodup.2 (fun a ha => ?_) (modeFirst_update hm hfirst) h
      have hne : a.1 ≠ o := by
        rintro rfl
        exact hnodup.1 (List.mem_map.mpr ⟨a, ha, rfl⟩)
      rw [addArg, Function.update_of_ne hne]
      exact hnew a (List.mem_cons_of_mem _ ha)

/-- With no option repeated, the last argument of an option is its only one. -/
theorem foldl_addArg_eq_some_iff {args : List (Opt × CStr)} (hnodup : (args.map Prod.fst).Nodup)
    (last : Opt → Option CStr) (o : Opt) (arg : CStr) :
    args.foldl addArg last o = some arg ↔
      (o, arg) ∈ args ∨ o ∉ args.map Prod.fst ∧ last o = some arg := by
  induction args generalizing last with
  | nil => simp
  | cons a args ih =>
    obtain ⟨o', arg'⟩ := a
    rw [List.map_cons, List.nodup_cons] at hnodup
    rw [List.foldl_cons, ih hnodup.2]
    by_cases ho : o = o'
    · subst ho
      have hout : ∀ arg, (o, arg) ∉ args := fun arg harg =>
        hnodup.1 (List.mem_map.mpr ⟨_, harg, rfl⟩)
      simp [addArg, hnodup.1, hout, eq_comm]
    · simp [addArg, ho]

theorem lastArgs_perm {args args' : List (Opt × CStr)} (hperm : args.Perm args')
    (hnodup : (args.map Prod.fst).Nodup) : lastArgs args = lastArgs args' := by
  have hnodup' : (args'.map Prod.fst).Nodup := (hperm.map Prod.fst).nodup_iff.mp hnodup
  funext o
  refine Option.ext fun arg => ?_
  change args.foldl addArg _ o = some arg ↔ args'.foldl addArg _ o = some arg
  rw [foldl_addArg_eq_some_iff hnodup, foldl_addArg_eq_some_iff hnodup',
    hperm.mem_iff]
  simp

/-- The configuration before the final checks. -/
theorem parseArgs_configOf {args : List (Opt × CStr)} (hnodup : (args.map Prod.fst).Nodup)
    {c : AppConfig} (h : parseArgs atof args = .ok c) :
    finishArgs (configOf atof (lastArgs args)) = .ok c := by
  obtain ⟨c1, hloop, hfinish⟩ := parseArgs_ok h
  have hnone : ModeFirst fun _ => none := fun _ => ⟨rfl, rfl, rfl⟩
  have hc1 := parseOpts_configOf hnodup (fun _ _ => rfl) hnone hloop
  rw [hc1] at hfinish
  exact hfinish

end

/--
**The order of the options does not matter once they are accepted.** No option is repeated;
`--help` is never accepted.
-/
theorem parseArgs_perm (atof : CStr → ℚ) (args args' : List (Opt × CStr)) (hperm : args.Perm args')
    (hnodup : (args.map Prod.fst).Nodup) (config config' : AppConfig)
    (h : parseArgs atof args = .ok config) (h' : parseArgs atof args' = .ok config') :
    config = config' := by
  have hnodup' : (args'.map Prod.fst).Nodup := (hperm.map Prod.fst).nodup_iff.mp hnodup
  have hfinish := parseArgs_configOf hnodup h
  rw [lastArgs_perm hperm hnodup, parseArgs_configOf hnodup' h'] at hfinish
  exact (Except.ok.inj hfinish).symm

/-- `--server --port 7 --delay 500 --ip-local 10.0.0.1` -/
def serverFirstLine : List (Opt × CStr) :=
  [(.server, []), (.port, "7".toList), (.delay, "500".toList), (.ipLocal, "10.0.0.1".toList)]

/-- `--ip-local 10.0.0.1 --server --delay 500 --port 7` -/
def addressFirstLine : List (Opt × CStr) :=
  [(.ipLocal, "10.0.0.1".toList), (.server, []), (.delay, "500".toList), (.port, "7".toList)]

/-- Both orders of a server. -/
theorem parseArgs_perm_server : ∃ config config',
    parseArgs (fun _ => 0) serverFirstLine = .ok config ∧
    parseArgs (fun _ => 0) addressFirstLine = .ok config' ∧
    config.serverPort = 7 ∧ config.serverDelay = 500 ∧ config = config' :=
  ⟨_, _, rfl, rfl, rfl, rfl,
    parseArgs_perm (fun _ => 0) serverFirstLine addressFirstLine (by decide) (by decide) _ _
      rfl rfl⟩

end DpdkEcho
