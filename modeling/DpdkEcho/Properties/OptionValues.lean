import DpdkEcho.Infra.Machine
import DpdkEcho.Properties.ServerDelay

/-!
# Numbers on the command line

`parse_args` reads every number into an `int` and assigns it to a field of another type. The
handlers check the lower end of the range and none checks the upper end.

* `applyOpt_field`, `applyOpt_field_other`: what an option leaves in its own field and in the others
* `parseArgs_fields`: the fields after an accepted command line
* `options_stored_iff`: when they hold what was written
-/

namespace DpdkEcho

open Infra

/-- The argument of the last occurrence of each option. -/
def lastArgs (args : List (Opt × CStr)) : Opt → Option CStr :=
  args.foldl (fun last a => Function.update last a.1 (some a.2)) fun _ => none

/-- The options whose number goes into a field of a type of its own. -/
def numberOpts : List Opt := [.port, .destPort, .numQueue, .batchSize, .delay]

/-- The field of an option. `--port` is the port of the server for a server and the own port of a
client for a client. -/
def AppConfig.field (c : AppConfig) : Opt → Int
  | .port => if c.mode = .server then c.serverPort.toNat else c.client.clientPort.toNat
  | .destPort => c.serverPort.toNat
  | .numQueue => c.numQueues.toNat
  | .batchSize => c.client.batch.toNat
  | .delay => if c.mode = .server then c.serverDelay.toNat else c.client.delayCycles.toNat
  | _ => 0

/-- What a handler makes of its argument: 16 bits of an `int`, or an `int` that is extended to the
64 bits of `delay_cycles` or taken for the 32 bits of `server_delay`. -/
def narrowed (mode : Mode) (o : Opt) (arg : CStr) : Int :=
  if o = .delay then
    if mode = .server then wrapSigned 32 (atol arg) % 2 ^ 32 else wrapSigned 32 (atol arg) % 2 ^ 64
  else atoi arg % 2 ^ 16

/-! ## One option -/

section
variable {atof : CStr → ℚ} {c c' : AppConfig} {o o' : Opt} {arg : CStr}

/-- The check of a handler. `--delay` has none. -/
theorem handleOpt_lower (ho : o ∈ numberOpts) (hdelay : o ≠ .delay)
    (h : handleOpt atof c (o, arg) = .ok c') : 1 ≤ atoi arg := by
  by_contra hlow
  have h1 : atoi arg < 1 := by omega
  have h0 : atoi arg ≤ 0 := by omega
  simp only [numberOpts, List.mem_cons, List.not_mem_nil, or_false] at ho
  rcases ho with rfl | rfl | rfl | rfl | rfl
  · rw [handleOpt, if_pos h0] at h
    cases h
  · rw [handleOpt, if_pos h0] at h
    cases hcheck : checkClientMode c <;> rw [hcheck] at h <;> cases h
  · rw [handleOpt, if_pos h1] at h
    cases h
  · rw [handleOpt, if_pos h1] at h
    split at h <;> cases h
  · exact hdelay rfl

/-- An option leaves its narrowed argument in its field. -/
theorem applyOpt_field (ho : o ∈ numberOpts) :
    (applyOpt atof c (o, arg)).field o = narrowed c.mode o arg := by
  simp only [numberOpts, List.mem_cons, List.not_mem_nil, or_false] at ho
  rcases ho with rfl | rfl | rfl | rfl | rfl
  · simp only [applyOpt]
    split
    · next hserver => simp [AppConfig.field, hserver, narrowed, toNat_uint16_ofInt]
    · next hclient =>
      simp [AppConfig.field, AppConfig.withClient, hclient, narrowed, toNat_uint16_ofInt]
  · simp [applyOpt, AppConfig.field, narrowed, toNat_uint16_ofInt]
  · simp [applyOpt, AppConfig.field, narrowed, toNat_uint16_ofInt]
  · simp [applyOpt, AppConfig.field, AppConfig.withClient, narrowed, toNat_uint16_ofInt]
  · simp only [applyOpt]
    split
    · next hserver =>
      have hmode : (c.setServerDelay (UInt32.ofInt (wrapSigned 32 (atol arg)))).mode = .server :=
        hserver
      simp only [AppConfig.field, if_pos hmode, serverDelay_setServerDelay, toNat_uint32_ofInt,
        narrowed, if_pos hserver, if_true]
    · next hclient =>
      simp [AppConfig.field, AppConfig.withClient, hclient, narrowed, toNat_uint64_ofInt]

theorem parseZipfClientAddrArg_frame {cl cl' : ClientConfig}
    (h : parseZipfClientAddrArg atof cl arg = .ok cl') :
    cl'.clientPort = cl.clientPort ∧ cl'.pad = cl.pad ∧ cl'.batch = cl.batch ∧
      cl'.delayCycles = cl.delayCycles := by
  rw [parseZipfClientAddrArg_eq] at h
  cases hz : parseZipfClientAddrArg atof defaultConfig.client arg with
  | error e =>
    rw [hz] at h
    cases h
  | ok z =>
    rw [hz] at h
    cases h
    exact ⟨rfl, rfl, rfl, rfl⟩

/-- An option leaves the field of another one alone, in the modes in which both are accepted. -/
theorem applyOpt_field_other (ho : o ∈ numberOpts) (hne : o' ≠ o) (hm : modeAllows c.mode o)
    (hm' : modeAllows c.mode o') : (applyOpt atof c (o', arg)).field o = c.field o := by
  cases o'
  case zipfClientAddr =>
    simp only [applyOpt]
    split
    · rfl
    · next cl hcl =>
      obtain ⟨hport, hpad, hbatch, hdelay⟩ := parseZipfClientAddrArg_frame hcl
      cases o <;> simp [AppConfig.field, AppConfig.serverDelay, hport, hpad, hbatch, hdelay]
  case destPort =>
    -- `server_port` belongs to `--port` in the server mode only
    have hclient : c.mode ≠ .server := by
      rcases hm' with hm' | hm' <;> rw [hm'] <;> decide
    cases o <;> first | rfl | exact absurd rfl hne | simp [applyOpt, AppConfig.field, hclient]
  all_goals
    simp only [applyOpt, AppConfig.withClient]
    repeat' split
    all_goals
      cases o <;>
        first
        | rfl
        | simp_all [modeAllows, AppConfig.field, numberOpts, AppConfig.setServerDelay]

/-! ## The command line -/

/-- An option that was given is accepted in the mode, has passed its check, and is in its field. -/
def FieldSet (last : Opt → Option CStr) (c : AppConfig) (o : Opt) : Prop :=
  ∀ arg, last o = some arg →
    modeAllows c.mode o ∧ (o ≠ .delay → 1 ≤ atoi arg) ∧ c.field o = narrowed c.mode o arg

/-- The fields agree with the options so far. -/
structure FieldsSet (last : Opt → Option CStr) (c : AppConfig) : Prop where
  fields : ∀ o ∈ numberOpts, FieldSet last c o
  mode : c.mode = .server ↔ last .server ≠ none

/-- An option does not change what the mode means for another one: for all but `--num-queue` the
mode is chosen by then. -/
theorem applyOpt_mode_agrees (ho : o ∈ numberOpts) (hm : modeAllows c.mode o)
    (hm' : modeAllows c.mode o') :
    modeAllows (applyOpt atof c (o', arg)).mode o ∧
      narrowed (applyOpt atof c (o', arg)).mode o = narrowed c.mode o := by
  by_cases hqueue : o = .numQueue
  · subst hqueue
    exact ⟨trivial, rfl⟩
  · have hdefined : c.mode ≠ .undefined := by
      intro hu
      rw [hu] at hm
      simp only [numberOpts, List.mem_cons, List.not_mem_nil, or_false] at ho
      rcases ho with rfl | rfl | rfl | rfl | rfl <;> simp_all [modeAllows]
    rw [applyOpt_mode hm' hdefined]
    exact ⟨hm, rfl⟩

theorem applyOpt_server_iff (hm' : modeAllows c.mode o') (ho : o' ≠ .server) :
    (applyOpt atof c (o', arg)).mode = .server ↔ c.mode = .server := by
  by_cases hu : c.mode = .undefined
  · cases o' <;> simp only [applyOpt, AppConfig.withClient]
    case server => exact absurd rfl ho
    all_goals
      repeat' split
      all_goals simp_all [modeAllows]
  · rw [applyOpt_mode hm' hu]

/-- **An accepted option keeps the fields in agreement with the options.** -/
theorem handleOpt_fieldsSet (last : Opt → Option CStr) (c : AppConfig) (a : Opt × CStr)
    (c' : AppConfig) (hR : FieldsSet last c) (h : handleOpt atof c a = .ok c') :
    FieldsSet (Function.update last a.1 (some a.2)) c' := by
  obtain ⟨o', arg'⟩ := a
  obtain ⟨hm', hc'⟩ := handleOpt_ok h
  refine ⟨fun o ho arg hlast => ?_, ?_⟩
  · by_cases heq : o' = o
    · subst heq
      rw [Function.update_self] at hlast
      obtain rfl := Option.some.inj hlast
      obtain ⟨hmode, hnarrow⟩ := @applyOpt_mode_agrees atof c o' o' arg' ho hm' hm'
      rw [hc', hnarrow]
      exact ⟨hmode, fun hdelay => handleOpt_lower ho hdelay h, applyOpt_field ho⟩
    · rw [Function.update_of_ne (Ne.symm heq)] at hlast
      obtain ⟨hm, hlow, hfield⟩ := hR.fields o ho arg hlast
      obtain ⟨hmode, hnarrow⟩ := @applyOpt_mode_agrees atof c o o' arg' ho hm hm'
      rw [hc', hnarrow]
      exact ⟨hmode, hlow, (applyOpt_field_other ho heq hm hm').trans hfield⟩
  · by_cases hserver : o' = .server
    · subst hserver
      rw [hc', Function.update_self]
      simp [applyOpt]
    · rw [hc', Function.update_of_ne (Ne.symm hserver), applyOpt_server_iff hm' hserver, hR.mode]

/-- The checks at the end change no field but a batch of zero. -/
theorem finishArgs_field (h : finishArgs c = .ok c') :
    c'.mode = c.mode ∧ (∀ o, o ≠ .batchSize → c'.field o = c.field o) ∧
      (c'.field .batchSize = c.field .batchSize ∨
        c.field .batchSize = 0 ∧ (c'.field .batchSize = 32 ∨ c'.field .batchSize = 1)) := by
  unfold finishArgs at h
  simp only [rteExit, AppConfig.withClient] at h
  repeat' split at h
  all_goals
    first
    | (rw [← Except.ok.inj h]
       refine ⟨rfl, fun o ho => ?_, ?_⟩
       · cases o <;> first | rfl | exact absurd rfl ho
       · simp_all [AppConfig.field])
    | cases h

/-- **The fields after an accepted command line.** -/
theorem parseArgs_fields {args : List (Opt × CStr)} (h : parseArgs atof args = .ok c) :
    (c.mode = .server ↔ lastArgs args .server ≠ none) ∧
    ∀ o ∈ numberOpts, ∀ arg, lastArgs args o = some arg →
      (o ≠ .delay → 1 ≤ atoi arg) ∧
      (c.field o = narrowed c.mode o arg ∨
        o = .batchSize ∧ narrowed c.mode o arg = 0 ∧ (c.field o = 32 ∨ c.field o = 1)) := by
  obtain ⟨c1, hloop, hfinish⟩ := parseArgs_ok h
  have hdefault : FieldsSet (fun _ => none) defaultConfig := by
    refine ⟨fun o _ arg hlast => ?_, by decide⟩
    cases hlast
  obtain ⟨hfields, hserver⟩ := foldlM_related FieldsSet handleOpt_fieldsSet hdefault hloop
  obtain ⟨hmode, hsame, hbatch⟩ := finishArgs_field hfinish
  refine ⟨by rw [hmode]; exact hserver, fun o ho arg hlast => ?_⟩
  obtain ⟨-, hlow, hfield⟩ := hfields o ho arg hlast
  refine ⟨hlow, ?_⟩
  rw [hmode]
  by_cases hb : o = .batchSize
  · subst hb
    rw [← hfield]
    rcases hbatch with hbatch | ⟨hzero, hdef⟩
    · exact Or.inl hbatch
    · exact Or.inr ⟨rfl, hzero, hdef⟩
  · exact Or.inl ((hsame o hb).trans hfield)

end

/-! ## What was written -/

/-- The last occurrence of the option has this number as its argument, and it fits the type the
argument is read as. -/
def Written (args : List (Opt × CStr)) (o : Opt) (v : Int) : Prop :=
  ∃ arg, lastArgs args o = some arg ∧ decimalOf arg = some v ∧
    if o = .delay then -2 ^ 63 ≤ v ∧ v < 2 ^ 63 else -2 ^ 31 ≤ v ∧ v < 2 ^ 31

/-- The field has room for the number. The delay of a client goes through an `int`. -/
def HasRoom (args : List (Opt × CStr)) (o : Opt) (v : Int) : Prop :=
  if o = .delay then 0 ≤ v ∧ v < (if lastArgs args .server = none then 2 ^ 31 else 2 ^ 32)
  else v < 2 ^ 16

section
variable {atof : CStr → ℚ} {args : List (Opt × CStr)} {config : AppConfig} {o : Opt} {v : Int}

theorem wrapSigned_32_eq (v : Int) : ∃ k, wrapSigned 32 v = v + k * 2 ^ 32 ∧
    -2 ^ 31 ≤ wrapSigned 32 v ∧ wrapSigned 32 v < 2 ^ 31 := by
  refine ⟨-(v.bdiv (2 ^ 32)), ?_, ?_, ?_⟩
  · have := Int.bmod_add_bdiv v (2 ^ 32)
    rw [wrapSigned]
    omega
  · have := @Int.le_bmod v (2 ^ 32) (by decide)
    rw [wrapSigned]
    omega
  · have := @Int.bmod_lt v (2 ^ 32) (by decide)
    rw [wrapSigned]
    omega

/-- **A number is stored as it was written exactly when its field has room for it.** -/
theorem field_eq_iff (hparse : parseArgs atof args = .ok config) (ho : o ∈ numberOpts)
    (hv : Written args o v) : config.field o = v ↔ HasRoom args o v := by
  obtain ⟨arg, hlast, hdec, hfits⟩ := hv
  obtain ⟨hserver, hfields⟩ := parseArgs_fields hparse
  obtain ⟨hlow, hfield⟩ := hfields o ho arg hlast
  by_cases hdelay : o = .delay
  · subst hdelay
    rw [if_pos rfl] at hfits
    have hatol : atol arg = v := strtol_of_decimalOf hdec hfits.1 hfits.2
    have hstored : config.field .delay = narrowed config.mode .delay arg :=
      hfield.resolve_right fun h => nomatch h.1
    obtain ⟨k, hk, hmin, hmax⟩ := wrapSigned_32_eq v
    rw [hstored, narrowed, if_pos rfl, HasRoom, if_pos rfl, hatol]
    by_cases hs : config.mode = .server
    · rw [if_pos hs, if_neg (hserver.mp hs)]
      omega
    · rw [if_neg hs, if_pos (not_not.mp (mt hserver.mpr hs))]
      omega
  · rw [if_neg hdelay] at hfits
    have hatoi : atoi arg = v := atoi_of_decimalOf hdec hfits.1 hfits.2
    have hpos := hlow hdelay
    rw [narrowed, if_neg hdelay, hatoi] at hfield
    rw [HasRoom, if_neg hdelay]
    omega

end

/--
**Options are stored as they are written exactly when each has room in its field**: 65535 is the
largest value of `--port`, `--port-dest`, `--num-queue` and `--batch`, the delay of a client ends
at `INT_MAX`, that of a server at `UINT_MAX`. Nothing else is said when a value is too large.
-/
theorem options_stored_iff (atof : CStr → ℚ) (args : List (Opt × CStr)) (config : AppConfig)
    (hparse : parseArgs atof args = .ok config) :
    (∀ o ∈ numberOpts, ∀ v, Written args o v → config.field o = v) ↔
      ∀ o ∈ numberOpts, ∀ v, Written args o v → HasRoom args o v := by
  constructor
  · intro h o ho v hv
    exact (field_eq_iff hparse ho hv).mp (h o ho v hv)
  · intro h o ho v hv
    exact (field_eq_iff hparse ho hv).mpr (h o ho v hv)

/-- `--client --ip-local 10.0.0.1 --ip-dest 10.0.0.2`, and the five numbers -/
def numberLine (port destPort numQueue batch delay : String) : List (Opt × CStr) :=
  [(.client, []), (.ipLocal, "10.0.0.1".toList), (.ipDest, "10.0.0.2".toList),
    (.port, port.toList), (.destPort, destPort.toList), (.numQueue, numQueue.toList),
    (.batchSize, batch.toList), (.delay, delay.toList)]

/-- The largest numbers. -/
theorem options_stored_largest : ∃ config,
    parseArgs (fun _ => 0) (numberLine "65535" "65535" "65535" "65535" "2147483647") = .ok config ∧
    config.field .port = 65535 ∧ config.field .destPort = 65535 ∧
    config.field .numQueue = 65535 ∧ config.field .batchSize = 65535 ∧
    config.field .delay = 2147483647 := by
  refine ⟨_, rfl, ?_⟩
  have hstored := (options_stored_iff (fun _ => 0)
    (numberLine "65535" "65535" "65535" "65535" "2147483647") _ rfl).mpr ?_
  · exact ⟨hstored .port (by decide) _ ⟨_, rfl, rfl, by decide⟩,
      hstored .destPort (by decide) _ ⟨_, rfl, rfl, by decide⟩,
      hstored .numQueue (by decide) _ ⟨_, rfl, rfl, by decide⟩,
      hstored .batchSize (by decide) _ ⟨_, rfl, rfl, by decide⟩,
      hstored .delay (by decide) _ ⟨_, rfl, rfl, by decide⟩⟩
  · rintro o ho v ⟨arg, hlast, hdec, -⟩
    simp only [numberOpts, List.mem_cons, List.not_mem_nil, or_false] at ho
    rcases ho with rfl | rfl | rfl | rfl | rfl
    all_goals
      cases hlast
      cases hdec
      unfold HasRoom
      decide

/-- `--port 70000` is accepted and becomes port 4464, `--num-queue 65537` becomes one queue,
`--batch 65536` the default batch, and `--delay 2147483648` almost `2^64` cycles. -/
theorem options_narrowed : ∃ config,
    parseArgs (fun _ => 0) (numberLine "70000" "8080" "65537" "65536" "2147483648") = .ok config ∧
    Written (numberLine "70000" "8080" "65537" "65536" "2147483648") .port 70000 ∧
    config.field .port = 4464 ∧ config.field .numQueue = 1 ∧ config.field .batchSize = 32 ∧
    config.field .delay = 18446744071562067968 ∧
    ¬ ∀ o ∈ numberOpts, ∀ v,
      Written (numberLine "70000" "8080" "65537" "65536" "2147483648") o v →
        config.field o = v := by
  have hport : Written (numberLine "70000" "8080" "65537" "65536" "2147483648") .port 70000 :=
    ⟨_, rfl, rfl, by decide⟩
  refine ⟨_, rfl, hport, rfl, rfl, rfl, rfl, fun h => ?_⟩
  have hstored := h .port (by decide) 70000 hport
  exact absurd hstored (by decide)

end DpdkEcho
