import DpdkEcho.Infra.Machine
import DpdkEcho.Main
import DpdkEcho.Properties.Options

/-!
# The delay of the server on its way through the union

`server_delay` lies over `client_port`. `parse_args` writes the default port of a client before it
knows the mode, and a server that is not told its delay reads that port as its delay.

* `parseArgs_serverDelay`: what the delay is after every accepted command line
* `serverDelay_stored_iff`: when every worker gets the delay that was asked for
-/

namespace DpdkEcho

open Infra

/-- The value of the last `--delay` option. -/
def delayArg (args : List (Opt × CStr)) : Option Int :=
  args.foldl (fun d a => if a.1 = .delay then some (atol a.2) else d) none

/-- The delay stored for it: a `long` cut to an `int` and then to 32 bits, or the bytes of the
default `client_port`. -/
def storedDelay : Option Int → UInt32
  | none => 3000
  | some v => UInt32.ofInt (wrapSigned 32 v)

/-! ## The overlay -/

/-- What is written through one half of the union is read back through the other. -/
@[simp] theorem serverDelay_setServerDelay (c : AppConfig) (d : UInt32) :
    (c.setServerDelay d).serverDelay = d := by
  apply UInt32.toNat_inj.mp
  have hd := d.toNat_lt
  simp only [AppConfig.setServerDelay, AppConfig.serverDelay, UInt32.toNat_add, UInt32.toNat_mul,
    UInt16.toNat_toUInt32, UInt32.toNat_toUInt16, UInt32.toNat_div, UInt32.reduceToNat]
  omega

section
variable {atof : CStr → ℚ} {c c' : AppConfig} {o : Opt} {arg : CStr}

/-- Outside the two client modes only `--delay` touches the bytes of `server_delay`. -/
theorem applyOpt_serverDelay (ho : o ≠ .delay) (hm : modeAllows c.mode o)
    (hs : c.mode = .undefined ∨ c.mode = .server) :
    (applyOpt atof c (o, arg)).serverDelay = c.serverDelay := by
  cases o
  case delay => exact absurd rfl ho
  case zipfClientAddr =>
    have hclient : c.mode = .client := hm
    rw [hclient] at hs
    simp at hs
  all_goals
    simp only [applyOpt, AppConfig.withClient]
    repeat' split
    all_goals first | rfl | simp_all [modeAllows]

/-- Once it is chosen, the mode stays. -/
theorem applyOpt_mode (hm : modeAllows c.mode o) (hs : c.mode ≠ .undefined) :
    (applyOpt atof c (o, arg)).mode = c.mode := by
  cases o <;> simp only [applyOpt, AppConfig.withClient, AppConfig.setServerDelay]
  case client | server | latencyClient => exact absurd hm hs
  all_goals
    repeat' split
    all_goals rfl

/-- The bytes of `server_delay` as they are before and after the choice of the server mode. -/
def DelayIs (d : Option Int) (c : AppConfig) : Prop :=
  (c.mode = .undefined → d = none) ∧
    (c.mode = .undefined ∨ c.mode = .server → c.serverDelay = storedDelay d)

theorem handleOpt_delayIs (d : Option Int) (c : AppConfig) (a : Opt × CStr) (c' : AppConfig)
    (hd : DelayIs d c) (h : handleOpt atof c a = .ok c') :
    DelayIs (if a.1 = .delay then some (atol a.2) else d) c' := by
  obtain ⟨o, arg⟩ := a
  obtain ⟨hallow, rfl⟩ := handleOpt_ok h
  by_cases ho : o = .delay
  · subst ho
    have hmode := @applyOpt_mode atof c .delay arg hallow hallow
    constructor
    · intro hu
      exact absurd (hmode.symm.trans hu) hallow
    · intro hs
      rw [hmode] at hs
      have hserver : c.mode = .server := hs.resolve_left hallow
      simp [applyOpt, hserver, storedDelay]
  · rw [if_neg ho]
    by_cases hu : c.mode = .undefined
    · rw [hd.1 hu]
      refine ⟨fun _ => rfl, fun _ => ?_⟩
      rw [applyOpt_serverDelay ho hallow (.inl hu), hd.2 (.inl hu), hd.1 hu]
    · have hmode := @applyOpt_mode atof c o arg hallow hu
      constructor
      · intro hu'
        exact absurd (hmode.symm.trans hu') hu
      · intro hs
        rw [hmode] at hs
        rw [applyOpt_serverDelay ho hallow hs, hd.2 hs]

theorem finishArgs_serverDelay (h : finishArgs c = .ok c') :
    c'.mode = c.mode ∧ c'.serverDelay = c.serverDelay := by
  unfold finishArgs at h
  simp only [rteExit, AppConfig.withClient] at h
  repeat' split at h
  all_goals
    first
    | (rw [← Except.ok.inj h]; exact ⟨rfl, rfl⟩)
    | cases h

/-- **The delay of a server after an accepted command line** depends on the `--delay` options
alone, and is the default port of a client where there is none. -/
theorem parseArgs_serverDelay {args : List (Opt × CStr)} (h : parseArgs atof args = .ok c)
    (hm : c.mode = .server) : c.serverDelay = storedDelay (delayArg args) := by
  obtain ⟨c1, hloop, hfinish⟩ := parseArgs_ok h
  obtain ⟨hmode, hdelay⟩ := finishArgs_serverDelay hfinish
  have hdefault : DelayIs none defaultConfig := ⟨fun _ => rfl, fun _ => rfl⟩
  have hd := foldlM_related DelayIs handleOpt_delayIs hdefault hloop
  rw [hdelay]
  exact hd.2 (.inr (hmode.symm.trans hm))

end

/-! ## What a worker gets -/

theorem storedDelay_some (v : Int) : ((storedDelay (some v)).toNat : Int) = v % 2 ^ 32 := by
  rw [storedDelay, toNat_uint32_ofInt]
  exact Int.bmod_emod

/-- The delay that is stored is the one asked for when it fits, and is never the default. -/
theorem storedDelay_eq_iff (d : Option Int) :
    ((storedDelay d).toNat : Int) = d.getD 0 ↔ ∃ v, d = some v ∧ 0 ≤ v ∧ v < 2 ^ 32 := by
  cases d with
  | none => simp [storedDelay]
  | some v =>
    rw [storedDelay_some, Option.getD_some]
    constructor
    · intro h
      exact ⟨v, rfl, by omega, by omega⟩
    · rintro ⟨w, hw, h0, h1⟩
      obtain rfl := Option.some.inj hw
      omega

/-- **Every worker of a server** has the delay of the last `--delay` option, and 0 without one,
exactly when there is one and its value fits into 32 bits. -/
theorem serverDelay_stored_iff {atof : CStr → ℚ} {args : List (Opt × CStr)} {config : AppConfig}
    {myEth : EtherAddr} {countCore : Nat} {ws : List Context}
    (hargs : parseArgs atof args = .ok config) (hm : config.mode = .server)
    (hws : startWorkers config myEth countCore = some ws) (i : Nat) (hi : i < countCore) :
    ∃ cntx, ws[i]? = some cntx ∧
      ((cntx.delayCycles.toNat : Int) = (delayArg args).getD 0 ↔
        ∃ v, delayArg args = some v ∧ 0 ≤ v ∧ v < 2 ^ 32) := by
  refine ⟨_, startWorkers_server_get hm hws hi, ?_⟩
  rw [← storedDelay_eq_iff, ← parseArgs_serverDelay hargs hm]
  simp [serverContext]

/-- `--server --ip-local 1.1.1.1`, and what follows -/
def serverLine (rest : List (Opt × CStr)) : List (Opt × CStr) :=
  (.server, []) :: (.ipLocal, "1.1.1.1".toList) :: rest

/-- With `--delay 500` the worker waits for 500 cycles. -/
theorem serverDelay_stored_500 :
    ∃ config ws cntx,
      parseArgs (fun _ => 0) (serverLine [(.delay, "500".toList)]) = .ok config ∧
      startWorkers config broadcastMac 1 = some ws ∧ ws[0]? = some cntx ∧
      (cntx.delayCycles.toNat : Int) = 500 := by
  obtain ⟨config, ws, hargs, hm, hws⟩ : ∃ config ws,
      parseArgs (fun _ => 0) (serverLine [(.delay, "500".toList)]) = .ok config ∧
      config.mode = .server ∧ startWorkers config broadcastMac 1 = some ws :=
    ⟨_, _, rfl, rfl, rfl⟩
  obtain ⟨cntx, hget, hiff⟩ := serverDelay_stored_iff hargs hm hws 0 (by decide)
  exact ⟨config, ws, cntx, hargs, hws, hget, hiff.mpr ⟨500, rfl, by decide, by decide⟩⟩

/-- Without `--delay` it waits for 3000 cycles instead of none. -/
theorem serverDelay_default_is_client_port :
    ∃ config cntx, parseArgs (fun _ => 0) (serverLine []) = .ok config ∧
      startWorkers config broadcastMac 1 = some [cntx] ∧ delayArg (serverLine []) = none ∧
      cntx.delayCycles = 3000 ∧ (cntx.delayCycles.toNat : Int) ≠ (delayArg (serverLine [])).getD 0 :=
  ⟨_, _, rfl, rfl, rfl, rfl, by decide⟩

end DpdkEcho
