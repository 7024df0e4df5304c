import DpdkEcho.Main
import DpdkEcho.Properties.OptionOrder
import DpdkEcho.Properties.QueueOwnership

/-!
# The command lines that are accepted

Which option is accepted depends on what came before it, on the mode and on the number of
destinations. `Acceptable` says the same of a command line as a whole.

* `handleOpt_accepts_iff` — when a handler accepts its option
* `parseArgs_accepts_iff` — when `parse_args` accepts a command line
* `destinations_configured` — the destinations of a client are the addresses that were given
-/

namespace DpdkEcho

open Infra

/-- The mode an option selects. -/
def selectedMode : Opt → Option Mode
  | .client => some .client
  | .server => some .server
  | .latencyClient => some .latencyClient
  | _ => none

/-- What a handler asks of its argument, whatever came before. -/
def argOk (atof : CStr → ℚ) : Opt × CStr → Prop
  | (.numQueue, arg) => 1 ≤ atoi arg
  | (.port, arg) => 1 ≤ atoi arg
  | (.destPort, arg) => 1 ≤ atoi arg
  | (.batchSize, arg) => 1 ≤ atoi arg
  | (.payloadLength, arg) => 1 ≤ atoi arg
  | (.ipLocal, arg) => ∃ ip, strToIp arg = some ip
  | (.ipDest, arg) => ∃ ip, strToIp arg = some ip
  | (.noArp, arg) => ∃ mac, parseNoArpArg defaultConfig.destMac arg = .ok mac
  | (.zipfClientAddr, arg) => ∃ cl, parseZipfClientAddrArg atof defaultConfig.client arg = .ok cl
  | _ => True

section
variable {atof : CStr → ℚ} {c c' : AppConfig} {o : Opt} {arg : CStr}

/-- Whether `--no-arp` is accepted does not depend on the bytes that were there before. -/
theorem parseMacGroups_isSome : ∀ (n i i' : Nat) (mac mac' : List UInt8) (s : CStr),
    (parseMacGroups n i mac s).map Prod.snd = (parseMacGroups n i' mac' s).map Prod.snd
  | 0, _, _, _, _, _ => rfl
  | n + 1, i, i', mac, mac', s => by
    unfold parseMacGroups
    cases strtok [':'] s with
    | none => rfl
    | some r => exact parseMacGroups_isSome n (i + 1) (i' + 1) _ _ r.2

theorem parseNoArpArg_accepts (mac mac' : List UInt8) :
    (∃ m, parseNoArpArg mac arg = .ok m) → ∃ m, parseNoArpArg mac' arg = .ok m := by
  rintro ⟨m, h⟩
  have hsame := parseMacGroups_isSome 5 0 0 mac mac' arg
  unfold parseNoArpArg at h ⊢
  cases hg : parseMacGroups 5 0 mac arg with
  | none =>
    rw [hg] at h
    cases h
  | some r =>
    cases hg' : parseMacGroups 5 0 mac' arg with
    | none =>
      rw [hg, hg'] at hsame
      cases hsame
    | some r' =>
      rw [hg, hg'] at hsame
      have hrest : r.2 = r'.2 := Option.some.inj hsame
      rw [hg] at h
      simp only [hrest] at h
      simp only []
      cases htok : strtok [] r'.2 with
      | none =>
        rw [htok] at h
        cases h
      | some t => exact ⟨_, rfl⟩

theorem parseZipfClientAddrArg_accepts (cl : ClientConfig) :
    (∃ z, parseZipfClientAddrArg atof cl arg = .ok z) ↔
      ∃ z, parseZipfClientAddrArg atof defaultConfig.client arg = .ok z := by
  rw [parseZipfClientAddrArg_eq cl]
  cases parseZipfClientAddrArg atof defaultConfig.client arg with
  | error e => exact ⟨fun ⟨z, h⟩ => (by cases h), fun ⟨z, h⟩ => (by cases h)⟩
  | ok z => exact ⟨fun _ => ⟨z, rfl⟩, fun _ => ⟨_, rfl⟩⟩

theorem checkClientMode_ok_iff :
    checkClientMode c = .ok () ↔ c.mode = .client ∨ c.mode = .latencyClient := by
  unfold checkClientMode rteExit
  cases c.mode <;> simp

/-- A result was returned. -/
def Accepts {ε α : Type} (x : Except ε α) : Prop := ∃ a, x = .ok a

@[simp] theorem accepts_ok {ε α : Type} (a : α) : Accepts (.ok a : Except ε α) := ⟨a, rfl⟩

@[simp] theorem not_accepts_rteExit {α : Type} (message : String) :
    ¬ Accepts (rteExit message : Except Exit α) := by
  rintro ⟨a, h⟩
  cases h

theorem accepts_ite {ε α : Type} {p : Prop} [Decidable p] {x y : Except ε α} :
    Accepts (if p then x else y) ↔ (p → Accepts x) ∧ (¬ p → Accepts y) := by
  split
  · next h => exact ⟨fun hx => ⟨fun _ => hx, fun hn => absurd h hn⟩, fun hx => hx.1 h⟩
  · next h => exact ⟨fun hy => ⟨fun hp => absurd hp h, fun _ => hy⟩, fun hy => hy.2 h⟩

theorem accepts_bind {ε α β : Type} {x : Except ε α} {f : α → Except ε β} :
    Accepts (x >>= f) ↔ ∃ a, x = .ok a ∧ Accepts (f a) := by
  cases x with
  | error e => exact ⟨fun ⟨_, h⟩ => (by cases h), fun ⟨_, h, _⟩ => (by cases h)⟩
  | ok a =>
    constructor
    · exact fun h => ⟨a, rfl, h⟩
    · rintro ⟨a', h, hf⟩
      obtain rfl := Except.ok.inj h
      exact hf

theorem accepts_checkClientMode {α : Type} {x : Except Exit α} :
    Accepts (checkClientMode c >>= fun _ => x) ↔
      (c.mode = .client ∨ c.mode = .latencyClient) ∧ Accepts x := by
  rw [accepts_bind]
  constructor
  · rintro ⟨u, hu, hx⟩
    exact ⟨checkClientMode_ok_iff.mp hu, hx⟩
  · rintro ⟨hm, hx⟩
    exact ⟨(), checkClientMode_ok_iff.mpr hm, hx⟩

/-- **When a handler accepts its option.** -/
theorem handleOpt_accepts_iff :
    Accepts (handleOpt atof c (o, arg)) ↔ modeAllows c.mode o ∧ argOk atof (o, arg) ∧
      (o = .ipDest → c.client.countServerIps < maxServerIpDest) := by
  cases o
  case ipDest =>
    simp only [handleOpt]
    rw [accepts_checkClientMode, accepts_ite]
    cases hip : strToIp arg with
    | none => simp [modeAllows, argOk, hip]
    | some ip => simp [modeAllows, argOk, hip]
  case ipLocal =>
    cases hip : strToIp arg <;> simp [handleOpt, modeAllows, argOk, hip]
  case destPort =>
    simp only [handleOpt]
    rw [accepts_checkClientMode, accepts_ite]
    simp [modeAllows, argOk, Int.lt_iff_add_one_le]
  case payloadLength =>
    simp only [handleOpt]
    rw [accepts_checkClientMode, accepts_ite]
    simp [modeAllows, argOk]
  case numQueue =>
    simp only [handleOpt]
    rw [accepts_ite]
    simp [modeAllows, argOk]
  case port =>
    simp only [handleOpt]
    rw [accepts_ite, accepts_ite, accepts_ite]
    simp only [modeAllows, argOk, not_accepts_rteExit, accepts_ok]
    constructor
    · rintro ⟨hlow, hrest⟩
      have hlow' : ¬ atoi arg ≤ 0 := hlow
      exact ⟨(hrest hlow').1, by omega, Opt.noConfusion⟩
    · rintro ⟨hm, hlow, -⟩
      refine ⟨fun h => absurd h (by omega), fun _ => ⟨hm, fun _ => ?_⟩⟩
      exact ⟨fun _ => trivial, fun _ => trivial⟩
  case batchSize =>
    simp only [handleOpt]
    rw [accepts_ite, accepts_ite]
    simp only [modeAllows, argOk, not_accepts_rteExit, accepts_ok]
    constructor
    · rintro ⟨hm, hrest⟩
      have hm' : ¬ (c.mode ≠ .latencyClient ∧ c.mode ≠ .client) := hm
      have hlow : ¬ atoi arg < 1 := (hrest hm').1
      refine ⟨?_, by omega, Opt.noConfusion⟩
      by_contra hnot
      obtain ⟨h1, h2⟩ := not_or.mp hnot
      exact hm' ⟨h2, h1⟩
    · rintro ⟨hm, hlow, -⟩
      refine ⟨fun h => ?_, fun _ => ⟨fun h => absurd h (by omega), fun _ => trivial⟩⟩
      rcases hm with hm | hm
      · exact h.2 hm
      · exact h.1 hm
  case delay =>
    simp only [handleOpt]
    rw [accepts_ite]
    simp only [accepts_ite]
    simp [modeAllows, argOk]
  case client => simp [handleOpt, selectMode, accepts_ite, modeAllows, argOk]
  case server => simp [handleOpt, selectMode, accepts_ite, modeAllows, argOk]
  case latencyClient => simp [handleOpt, selectMode, accepts_ite, modeAllows, argOk]
  case hdrEncpSz => simp [handleOpt, accepts_ite, modeAllows, argOk]
  case noArp =>
    simp only [handleOpt]
    rw [accepts_bind]
    constructor
    · rintro ⟨mac, hmac, -⟩
      exact ⟨trivial, parseNoArpArg_accepts _ _ ⟨mac, hmac⟩, Opt.noConfusion⟩
    · rintro ⟨-, hok, -⟩
      obtain ⟨mac, hmac⟩ := parseNoArpArg_accepts _ c.destMac hok
      exact ⟨mac, hmac, accepts_ok _⟩
  case zipfClientAddr =>
    simp only [handleOpt]
    rw [accepts_ite, accepts_bind]
    constructor
    · rintro ⟨hm, hrest⟩
      have hm' : ¬ c.mode ≠ .client := fun h => not_accepts_rteExit _ (hm h)
      obtain ⟨cl, hcl, -⟩ := hrest hm'
      exact ⟨not_not.mp hm', (parseZipfClientAddrArg_accepts c.client).mp ⟨cl, hcl⟩,
        Opt.noConfusion⟩
    · rintro ⟨hm, hok, -⟩
      obtain ⟨cl, hcl⟩ := (parseZipfClientAddrArg_accepts c.client).mpr hok
      exact ⟨fun h => absurd hm h, fun _ => ⟨cl, hcl, accepts_ok _⟩⟩
  case maxNum =>
    cases hn : scanD arg <;> simp [handleOpt, modeAllows, argOk, hn]
  case help =>
    constructor
    · rintro ⟨c', h⟩
      cases h
    · rintro ⟨hm, -⟩
      exact hm.elim
  case unknown => simp [handleOpt, modeAllows]
  all_goals simp [handleOpt, modeAllows, argOk]

end

/-! ## What the options leave behind -/

/-- The addresses that are given with an option, in order. -/
def givenAddrs (o : Opt) (args : List (Opt × CStr)) : List UInt32 :=
  args.flatMap fun a => if a.1 = o then (strToIp a.2).toList else []

/-- The part of the configuration on which acceptance depends. -/
structure Digest where
  mode : Mode
  dests : List UInt32
  source : UInt32

def AppConfig.digest (c : AppConfig) : Digest where
  mode := c.mode
  dests := c.client.serverIps
  source := c.sourceIp

/-- The number of destinations is the length of their list. -/
def DestsCounted (c : AppConfig) : Prop := c.client.countServerIps = c.client.serverIps.length

/-- What an option does to it. -/
def Digest.add (d : Digest) : Opt × CStr → Digest
  | (.ipLocal, arg) => { d with source := (strToIp arg).getD d.source }
  | (.ipDest, arg) => { d with dests := d.dests ++ (strToIp arg).toList }
  | (o, _) => { d with mode := (selectedMode o).getD d.mode }

section
variable {atof : CStr → ℚ} {c c' : AppConfig}

theorem applyOpt_digest (a : Opt × CStr) :
    (applyOpt atof c a).digest = c.digest.add a ∧
      (DestsCounted c → DestsCounted (applyOpt atof c a)) := by
  obtain ⟨o, arg⟩ := a
  cases o
  case ipLocal =>
    cases hip : strToIp arg <;>
      simp [applyOpt, Digest.add, AppConfig.digest, DestsCounted, hip]
  case ipDest =>
    cases hip : strToIp arg <;>
      simp [applyOpt, AppConfig.withClient, Digest.add, AppConfig.digest, DestsCounted, hip]
  case noArp =>
    simp only [applyOpt]
    split <;> exact ⟨rfl, id⟩
  case maxNum =>
    simp only [applyOpt]
    split <;> exact ⟨rfl, id⟩
  case port =>
    simp only [applyOpt]
    split <;> exact ⟨rfl, id⟩
  case delay =>
    simp only [applyOpt]
    split <;> exact ⟨rfl, id⟩
  case zipfClientAddr =>
    simp only [applyOpt]
    split
    · exact ⟨rfl, id⟩
    · next cl hcl =>
      rw [parseZipfClientAddrArg_eq] at hcl
      cases hz : parseZipfClientAddrArg atof defaultConfig.client arg with
      | error e =>
        rw [hz] at hcl
        cases hcl
      | ok z =>
        rw [hz] at hcl
        obtain rfl := Except.ok.inj hcl
        exact ⟨rfl, id⟩
  all_goals exact ⟨rfl, id⟩

/-- What the options so far have left, and what the next ones need. -/
theorem handleOpt_digest {a : Opt × CStr} (hcount : DestsCounted c) :
    (∃ c', handleOpt atof c a = .ok c' ∧ c'.digest = c.digest.add a ∧ DestsCounted c') ↔
      modeAllows c.digest.mode a.1 ∧ argOk atof a ∧
        (a.1 = .ipDest → c.digest.dests.length < maxServerIpDest) := by
  obtain ⟨o, arg⟩ := a
  have hiff := @handleOpt_accepts_iff atof c o arg
  rw [hcount] at hiff
  refine Iff.trans ⟨?_, ?_⟩ hiff
  · rintro ⟨c', h, -⟩
    exact ⟨c', h⟩
  · rintro ⟨c', h⟩
    obtain ⟨-, rfl⟩ := handleOpt_ok h
    obtain ⟨hdigest, hkeep⟩ := @applyOpt_digest atof c (o, arg)
    exact ⟨_, h, hdigest, hkeep hcount⟩

/-- The next option is accepted. -/
def Digest.Allows (atof : CStr → ℚ) (d : Digest) (a : Opt × CStr) : Prop :=
  modeAllows d.mode a.1 ∧ argOk atof a ∧ (a.1 = .ipDest → d.dests.length < maxServerIpDest)

/-- All options are accepted, one after the other. -/
def Digest.AllowsAll (atof : CStr → ℚ) : Digest → List (Opt × CStr) → Prop
  | _, [] => True
  | d, a :: args => d.Allows atof a ∧ (d.add a).AllowsAll atof args

/-- **The option loop in terms of the digest.** -/
theorem parseOpts_digest : ∀ (args : List (Opt × CStr)) {c : AppConfig}, DestsCounted c →
    (Accepts (parseOpts atof c args) ↔ c.digest.AllowsAll atof args) ∧
      ∀ c', parseOpts atof c args = .ok c' →
        c'.digest = args.foldl Digest.add c.digest ∧ DestsCounted c'
  | [], c, hcount => by
    refine ⟨⟨fun _ => trivial, fun _ => ⟨c, rfl⟩⟩, fun c' h => ?_⟩
    obtain rfl := Except.ok.inj h
    exact ⟨rfl, hcount⟩
  | a :: args, c, hcount => by
    have hcons : parseOpts atof c (a :: args)
        = handleOpt atof c a >>= fun c1 => parseOpts atof c1 args := List.foldlM_cons
    have hstep := @handleOpt_digest atof c a hcount
    have hdet : ∀ c1, handleOpt atof c a = .ok c1 →
        c1.digest = c.digest.add a ∧ DestsCounted c1 := by
      intro c1 h1
      obtain ⟨-, rfl⟩ := @handleOpt_ok atof c c1 a.1 a.2 h1
      obtain ⟨hdigest, hkeep⟩ := @applyOpt_digest atof c a
      exact ⟨hdigest, hkeep hcount⟩
    rw [hcons]
    refine ⟨?_, fun c' h => ?_⟩
    · rw [accepts_bind]
      constructor
      · rintro ⟨c1, h1, hrest⟩
        obtain ⟨hd, hc1⟩ := hdet c1 h1
        refine ⟨hstep.mp ⟨c1, h1, hd, hc1⟩, ?_⟩
        rw [← hd]
        exact (parseOpts_digest args hc1).1.mp hrest
      · rintro ⟨hallow, hrest⟩
        obtain ⟨c1, h1, hd, hc1⟩ := hstep.mpr hallow
        refine ⟨c1, h1, (parseOpts_digest args hc1).1.mpr ?_⟩
        rw [hd]
        exact hrest
    · obtain ⟨c1, h1, -⟩ := accepts_bind.mp ⟨c', h⟩
      rw [h1] at h
      obtain ⟨hd, hc1⟩ := hdet c1 h1
      obtain ⟨hfold, hc'⟩ := (parseOpts_digest args hc1).2 c' h
      rw [hfold, hd]
      exact ⟨rfl, hc'⟩

/-- The checks behind the loop. -/
theorem finishArgs_accepts_iff (hcount : DestsCounted c) :
    Accepts (finishArgs c) ↔ c.digest.mode ≠ .undefined ∧ c.digest.source ≠ 0 ∧
      (c.digest.mode ≠ .server → c.digest.dests ≠ []) := by
  obtain ⟨c2, hc2, hsource, hdests, hmode⟩ : ∃ c2, finishArgs c =
      (if c.mode = .undefined then rteExit "Application mode not set\n"
        else if c2.sourceIp = 0 then rteExit "Expect source Ip to be set!\n"
        else if c2.client.countServerIps = 0 ∧ (c2.mode = .client ∨ c2.mode = .latencyClient) then
          rteExit "Expect at least one destination address\n"
        else .ok c2) ∧
      c2.sourceIp = c.sourceIp ∧ c2.client.countServerIps = c.client.countServerIps ∧
      c2.mode = c.mode := by
    refine ⟨_, rfl, ?_⟩
    repeat' split
    all_goals exact ⟨rfl, rfl, rfl⟩
  rw [hc2, accepts_ite, accepts_ite, accepts_ite, hsource, hdests, hmode, hcount]
  simp only [not_accepts_rteExit, accepts_ok, imp_false, AppConfig.digest, List.length_eq_zero_iff]
  have hclient : c.mode ≠ .undefined →
      ((c.mode = .client ∨ c.mode = .latencyClient) ↔ c.mode ≠ .server) := by
    cases c.mode <;> simp
  constructor
  · rintro ⟨hm, hrest⟩
    obtain ⟨hs, hd⟩ := hrest hm
    exact ⟨hm, hs, fun hne hnil => (hd hs).1 ⟨hnil, (hclient hm).mpr hne⟩⟩
  · rintro ⟨hm, hs, hd⟩
    exact ⟨hm, fun _ => ⟨hs, fun _ => ⟨fun h => hd ((hclient hm).mp h.2) h.1, fun _ => trivial⟩⟩⟩

end

/-! ## The whole line -/

theorem Digest.add_dests (d : Digest) (o : Opt) (arg : CStr) :
    (d.add (o, arg)).dests = d.dests ++ if o = .ipDest then (strToIp arg).toList else [] := by
  cases o
  case ipDest => rfl
  all_goals exact (List.append_nil _).symm

theorem Digest.add_source (d : Digest) (o : Opt) (arg : CStr) :
    (d.add (o, arg)).source = if o = .ipLocal then (strToIp arg).getD d.source else d.source := by
  cases o <;> rfl

theorem Digest.add_mode (d : Digest) (o : Opt) (arg : CStr) :
    (d.add (o, arg)).mode = (selectedMode o).getD d.mode := by
  cases o <;> rfl

/-- The addresses behind an option list. -/
theorem foldl_add (args : List (Opt × CStr)) : ∀ d : Digest,
    (args.foldl Digest.add d).dests = d.dests ++ givenAddrs .ipDest args ∧
      (args.foldl Digest.add d).source
        = (givenAddrs .ipLocal args).getLast?.getD d.source := by
  induction args with
  | nil => exact fun d => ⟨(List.append_nil _).symm, rfl⟩
  | cons a args ih =>
    intro d
    obtain ⟨o, arg⟩ := a
    obtain ⟨hdests, hsource⟩ := ih (d.add (o, arg))
    have hcons : ∀ o', givenAddrs o' ((o, arg) :: args)
        = (if o = o' then (strToIp arg).toList else []) ++ givenAddrs o' args :=
      fun _ => List.flatMap_cons
    rw [List.foldl_cons, hdests, hsource, hcons, hcons, d.add_dests, d.add_source,
      List.getLast?_append, List.append_assoc]
    refine ⟨rfl, ?_⟩
    cases (givenAddrs .ipLocal args).getLast? with
    | some ip => rfl
    | none =>
      split
      · cases strToIp arg <;> rfl
      · rfl

section
variable {atof : CStr → ℚ}

/-- The addresses of accepted options are as many as the options. -/
theorem length_addrs_of_argOk {a : Opt × CStr} (h : argOk atof a) :
    (givenAddrs .ipDest [a]).length = if a.1 = .ipDest then 1 else 0 := by
  obtain ⟨o, arg⟩ := a
  by_cases ho : o = .ipDest
  · subst ho
    obtain ⟨ip, hip⟩ := h
    simp [givenAddrs, hip]
  · simp [givenAddrs, ho]

theorem selectedMode_of_defined {m : Mode} (hm : m ≠ .undefined) {o : Opt} (h : modeAllows m o) :
    selectedMode o = none := by
  cases o
  case client => exact absurd h hm
  case server => exact absurd h hm
  case latencyClient => exact absurd h hm
  all_goals rfl

/-- **Behind the mode**, an option list is accepted when each option is, and there are not too many
destinations. -/
theorem allowsAll_defined {m : Mode} (hm : m ≠ .undefined) : ∀ (args : List (Opt × CStr))
    (d : Digest), d.mode = m → d.dests.length ≤ maxServerIpDest →
    (d.AllowsAll atof args ↔ (∀ a ∈ args, modeAllows m a.1 ∧ argOk atof a) ∧
      d.dests.length + (givenAddrs .ipDest args).length ≤ maxServerIpDest) ∧
    (d.AllowsAll atof args → (args.foldl Digest.add d).mode = m)
  | [], d, hd, hle => ⟨⟨fun _ => ⟨nofun, hle⟩, fun _ => trivial⟩, fun _ => hd⟩
  | a :: args, d, hd, hle => by
    have hcons : (givenAddrs .ipDest (a :: args)).length
        = (givenAddrs .ipDest [a]).length + (givenAddrs .ipDest args).length := by
      simp [givenAddrs]
    have hnext : modeAllows m a.1 → argOk atof a →
        (d.add a).mode = m ∧
          (d.add a).dests.length = d.dests.length + (givenAddrs .ipDest [a]).length := by
      intro hallow hok
      refine ⟨?_, ?_⟩
      · rw [d.add_mode a.1 a.2, selectedMode_of_defined hm hallow]
        exact hd
      · rw [d.add_dests a.1 a.2]
        simp [givenAddrs]
    have hone : argOk atof a → (givenAddrs .ipDest [a]).length = if a.1 = .ipDest then 1 else 0 :=
      length_addrs_of_argOk
    rw [hcons]
    constructor
    · constructor
      · rintro ⟨⟨hallow, hok, hroom⟩, hrest⟩
        rw [hd] at hallow
        obtain ⟨hmode, hlen⟩ := hnext hallow hok
        have hfit : (d.add a).dests.length ≤ maxServerIpDest := by
          rw [hlen, hone hok]
          split
          · next hdest => exact hroom hdest
          · exact hle
        obtain ⟨hall, hsum⟩ := (allowsAll_defined hm args _ hmode hfit).1.mp hrest
        refine ⟨?_, by omega⟩
        intro b hb
        rcases List.mem_cons.mp hb with rfl | hb
        · exact ⟨hallow, hok⟩
        · exact hall b hb
      · rintro ⟨hall, hsum⟩
        obtain ⟨hallow, hok⟩ := hall a List.mem_cons_self
        obtain ⟨hmode, hlen⟩ := hnext hallow hok
        refine ⟨⟨hd.symm ▸ hallow, hok, fun hdest => ?_⟩, ?_⟩
        · rw [hone hok, if_pos hdest] at hsum
          omega
        · refine (allowsAll_defined hm args _ hmode (by omega)).1.mpr ⟨fun b hb => ?_, by omega⟩
          exact hall b (List.mem_cons_of_mem a hb)
    · rintro ⟨⟨hallow, hok, hroom⟩, hrest⟩
      rw [hd] at hallow
      obtain ⟨hmode, hlen⟩ := hnext hallow hok
      refine (allowsAll_defined hm args _ hmode ?_).2 hrest
      rw [hlen, hone hok]
      split
      · next hdest => exact hroom hdest
      · exact hle

/-- An option that chooses a mode is accepted when none is chosen. -/
theorem selectedMode_some {o : Opt} {m : Mode} (h : selectedMode o = some m) (arg : CStr) :
    m ≠ .undefined ∧ modeAllows .undefined o ∧ argOk atof (o, arg) ∧ o ≠ .ipDest := by
  cases o <;> cases h <;> exact ⟨Mode.noConfusion, rfl, trivial, Opt.noConfusion⟩

theorem not_ipDest_of_undefined {o : Opt} (h : modeAllows .undefined o) : o ≠ .ipDest := by
  rintro rfl
  rcases h with h | h <;> cases h

/-- **Before the mode.** A list is accepted and chooses a mode when it has a first option that
chooses one, those before it need none, and those after it are accepted in that mode. -/
theorem allowsAll_undefined : ∀ (args : List (Opt × CStr)) (d : Digest), d.mode = .undefined →
    d.dests = [] →
    ((d.AllowsAll atof args ∧ (args.foldl Digest.add d).mode ≠ .undefined) ↔
      ∃ pre o arg post m, args = pre ++ (o, arg) :: post ∧ selectedMode o = some m ∧
        (∀ a ∈ pre, selectedMode a.1 = none ∧ modeAllows .undefined a.1 ∧ argOk atof a) ∧
        (∀ a ∈ post, modeAllows m a.1 ∧ argOk atof a) ∧
        (givenAddrs .ipDest post).length ≤ maxServerIpDest)
  | [], d, hd, hnil => by
    constructor
    · exact fun h => absurd hd h.2
    · rintro ⟨pre, o, arg, post, m, heq, -⟩
      cases pre <;> cases heq
  | (o, arg) :: args, d, hd, hnil => by
    have hdests : o ≠ .ipDest → (d.add (o, arg)).dests = [] := by
      intro ho
      rw [d.add_dests, if_neg ho, hnil]
      rfl
    cases hsel : selectedMode o with
    | some m =>
      obtain ⟨hm, hallow, hok, hdest⟩ := @selectedMode_some atof o m hsel arg
      have hmode : (d.add (o, arg)).mode = m := by rw [d.add_mode, hsel]; rfl
      obtain ⟨hiff, hkeep⟩ := @allowsAll_defined atof m hm args (d.add (o, arg)) hmode
        (by rw [hdests hdest]; exact Nat.zero_le _)
      rw [hdests hdest, List.length_nil, Nat.zero_add] at hiff
      constructor
      · rintro ⟨⟨-, hrest⟩, -⟩
        obtain ⟨hall, hlen⟩ := hiff.mp hrest
        exact ⟨[], o, arg, args, m, rfl, hsel, nofun, hall, hlen⟩
      · rintro ⟨pre, o', arg', post, m', heq, hsel', hpre, hall, hlen⟩
        cases pre with
        | cons b pre =>
          obtain ⟨rfl, -⟩ := List.cons.inj heq
          have hnone := (hpre _ List.mem_cons_self).1
          rw [hsel] at hnone
          cases hnone
        | nil =>
          cases heq
          obtain rfl := Option.some.inj (hsel.symm.trans hsel')
          have hrest := hiff.mpr ⟨hall, hlen⟩
          refine ⟨⟨⟨hd.symm ▸ hallow, hok, fun h => absurd h hdest⟩, hrest⟩, ?_⟩
          rw [List.foldl_cons, hkeep hrest]
          exact hm
    | none =>
      have hmode : (d.add (o, arg)).mode = .undefined := by rw [d.add_mode, hsel]; exact hd
      constructor
      · rintro ⟨⟨⟨hallow, hok, -⟩, hrest⟩, hdef⟩
        rw [hd] at hallow
        obtain ⟨pre, o', arg', post, m, rfl, hm, hpre, hpost⟩ :=
          (allowsAll_undefined args _ hmode (hdests (not_ipDest_of_undefined hallow))).mp
            ⟨hrest, hdef⟩
        refine ⟨(o, arg) :: pre, o', arg', post, m, rfl, hm, ?_, hpost⟩
        intro a ha
        rcases List.mem_cons.mp ha with rfl | ha
        · exact ⟨hsel, hallow, hok⟩
        · exact hpre a ha
      · rintro ⟨pre, o', arg', post, m, heq, hm, hpre, hpost⟩
        cases pre with
        | nil =>
          cases heq
          rw [hsel] at hm
          cases hm
        | cons b pre =>
          obtain ⟨rfl, rfl⟩ := List.cons.inj heq
          obtain ⟨-, hallow, hok⟩ := hpre _ List.mem_cons_self
          obtain ⟨hrest, hdef⟩ := (allowsAll_undefined _ _ hmode
            (hdests (not_ipDest_of_undefined hallow))).mpr ⟨pre, o', arg', post, m, rfl, hm,
              fun a ha => hpre a (List.mem_cons_of_mem _ ha), hpost⟩
          refine ⟨⟨⟨hd.symm ▸ hallow, hok, fun h => ?_⟩, hrest⟩, hdef⟩
          exact absurd h (not_ipDest_of_undefined hallow)

end

/--
A command line that is accepted: there is exactly one option that chooses a mode, what comes before
it needs none, what comes after it is accepted in that mode, every argument passes the check of its
option, there are at most 32 destinations and for a client at least one, and the last local address
is not 0.
-/
def Acceptable (atof : CStr → ℚ) (args : List (Opt × CStr)) : Prop :=
  ∃ pre o arg post m, args = pre ++ (o, arg) :: post ∧ selectedMode o = some m ∧
    (∀ a ∈ pre, selectedMode a.1 = none ∧ modeAllows .undefined a.1 ∧ argOk atof a) ∧
    (∀ a ∈ post, modeAllows m a.1 ∧ argOk atof a) ∧
    (givenAddrs .ipDest args).length ≤ maxServerIpDest ∧
    (m ≠ .server → givenAddrs .ipDest args ≠ []) ∧
    (givenAddrs .ipLocal args).getLast?.getD 0 ≠ 0

theorem foldl_add_mode {args : List (Opt × CStr)} (h : ∀ a ∈ args, selectedMode a.1 = none) :
    ∀ d : Digest, (args.foldl Digest.add d).mode = d.mode := by
  induction args with
  | nil => exact fun _ => rfl
  | cons a args ih =>
    intro d
    rw [List.foldl_cons, ih (fun b hb => h b (List.mem_cons_of_mem a hb)), d.add_mode a.1 a.2,
      h a List.mem_cons_self]
    rfl

/-- The mode that is chosen is the mode in the end, and the destinations come after it. -/
theorem chosen_mode {atof : CStr → ℚ} {pre post : List (Opt × CStr)} {o : Opt} {arg : CStr}
    {m : Mode} (hsel : selectedMode o = some m)
    (hpre : ∀ a ∈ pre, selectedMode a.1 = none ∧ modeAllows .undefined a.1 ∧ argOk atof a)
    (hpost : ∀ a ∈ post, modeAllows m a.1 ∧ argOk atof a) (d : Digest) :
    ((pre ++ (o, arg) :: post).foldl Digest.add d).mode = m ∧
      givenAddrs .ipDest (pre ++ (o, arg) :: post) = givenAddrs .ipDest post := by
  obtain ⟨hm, -, -, hdest⟩ := @selectedMode_some atof o m hsel arg
  constructor
  · rw [List.foldl_append, List.foldl_cons,
      foldl_add_mode (fun a ha => selectedMode_of_defined hm (hpost a ha).1), Digest.add_mode, hsel]
    rfl
  · have hnone : givenAddrs .ipDest pre = [] := by
      refine List.flatMap_eq_nil_iff.mpr fun a ha => if_neg ?_
      exact not_ipDest_of_undefined (hpre a ha).2.1
    have happ : givenAddrs .ipDest (pre ++ (o, arg) :: post) = givenAddrs .ipDest pre ++
        ((if o = .ipDest then (strToIp arg).toList else []) ++ givenAddrs .ipDest post) := by
      simp [givenAddrs]
    rw [happ, hnone, if_neg hdest]
    rfl

/-- **The command lines `parse_args` accepts.** -/
theorem parseArgs_accepts_iff (atof : CStr → ℚ) (args : List (Opt × CStr)) :
    (∃ config, parseArgs atof args = .ok config) ↔ Acceptable atof args := by
  have hcount : DestsCounted defaultConfig := rfl
  obtain ⟨hloop, hresult⟩ := @parseOpts_digest atof args defaultConfig hcount
  obtain ⟨hdests, hsource⟩ := foldl_add args defaultConfig.digest
  have hsplit := @allowsAll_undefined atof args defaultConfig.digest rfl rfl
  -- the loop and the checks behind it, in terms of the digest
  have hchecks : (∃ config, parseArgs atof args = .ok config) ↔
      defaultConfig.digest.AllowsAll atof args ∧
        (args.foldl Digest.add defaultConfig.digest).mode ≠ .undefined ∧
        (args.foldl Digest.add defaultConfig.digest).source ≠ 0 ∧
        ((args.foldl Digest.add defaultConfig.digest).mode ≠ .server →
          (args.foldl Digest.add defaultConfig.digest).dests ≠ []) := by
    refine accepts_bind.trans ⟨?_, ?_⟩
    · rintro ⟨c, hc, hfinish⟩
      obtain ⟨hd, hcc⟩ := hresult c hc
      rw [← hd]
      exact ⟨hloop.mp ⟨c, hc⟩, (finishArgs_accepts_iff hcc).mp hfinish⟩
    · rintro ⟨hall, hrest⟩
      obtain ⟨c, hc⟩ := hloop.mpr hall
      obtain ⟨hd, hcc⟩ := hresult c hc
      rw [← hd] at hrest
      exact ⟨c, hc, (finishArgs_accepts_iff hcc).mpr hrest⟩
  rw [hchecks, hdests, hsource]
  constructor
  · rintro ⟨hall, hdef, hsrc, hclient⟩
    obtain ⟨pre, o, arg, post, m, rfl, hsel, hpre, hpost, hlen⟩ := hsplit.mp ⟨hall, hdef⟩
    obtain ⟨hmode, hgiven⟩ := @chosen_mode atof pre post o arg m hsel hpre hpost
      defaultConfig.digest
    rw [hmode] at hclient
    exact ⟨pre, o, arg, post, m, rfl, hsel, hpre, hpost, by rw [hgiven]; exact hlen, hclient, hsrc⟩
  · rintro ⟨pre, o, arg, post, m, rfl, hsel, hpre, hpost, hlen, hclient, hsrc⟩
    obtain ⟨hmode, hgiven⟩ := @chosen_mode atof pre post o arg m hsel hpre hpost
      defaultConfig.digest
    rw [hgiven] at hlen
    obtain ⟨hall, hdef⟩ := hsplit.mpr ⟨pre, o, arg, post, m, rfl, hsel, hpre, hpost, hlen⟩
    refine ⟨hall, hdef, hsrc, ?_⟩
    rw [hmode]
    exact hclient

/-! ## The destinations -/

theorem finishArgs_digest {c c' : AppConfig} (h : finishArgs c = .ok c') :
    c'.digest = c.digest := by
  unfold finishArgs at h
  simp only [rteExit] at h
  repeat' split at h
  all_goals
    first
    | cases h
      rfl
    | cases h

/--
**From the command line to the workers.** Every worker of a client talks to the addresses that were
given with `--ip-dest`, in their order, between 1 and 32 of them, from the address that was given
last with `--ip-local`.
-/
theorem destinations_configured (atof : CStr → ℚ) (args : List (Opt × CStr)) (config : AppConfig)
    (hparse : parseArgs atof args = .ok config) (hmode : config.mode ≠ .server) (myEth : EtherAddr)
    (countCore : Nat) (ws : List Context)
    (hstart : startWorkers config myEth countCore = some ws) :
    ∀ w ∈ ws, w.dstIps = givenAddrs .ipDest args ∧ 1 ≤ w.dstIps.length ∧
      w.dstIps.length ≤ maxServerIpDest ∧ w.srcIp ≠ 0 ∧
      (givenAddrs .ipLocal args).getLast? = some w.srcIp := by
  intro w hw
  obtain ⟨c, hc, hfinish⟩ := parseArgs_ok hparse
  obtain ⟨hloop, hresult⟩ := @parseOpts_digest atof args defaultConfig rfl
  obtain ⟨hd, hcc⟩ := hresult c hc
  obtain ⟨hdests, hsource⟩ := foldl_add args defaultConfig.digest
  have hdigest : config.digest = args.foldl Digest.add defaultConfig.digest :=
    (finishArgs_digest hfinish).trans hd
  obtain ⟨hdef, hsrc, hclient⟩ := (finishArgs_accepts_iff hcc).mp ⟨config, hfinish⟩
  rw [hd] at hdef hsrc hclient
  -- a worker of a client takes both addresses over
  have hworker : w.dstIps = config.digest.dests ∧ w.srcIp = config.digest.source := by
    obtain ⟨i, hi, rfl⟩ := List.getElem_of_mem hw
    have hi' : i < countCore := length_startWorkers hstart ▸ hi
    have hget := startWorkers_client_get hmode hstart hi'
    rw [List.getElem?_eq_getElem hi] at hget
    rw [Option.some.inj hget]
    exact ⟨rfl, rfl⟩
  obtain ⟨pre, o, arg, post, m, rfl, hsel, hpre, hpost, hlen⟩ :=
    (@allowsAll_undefined atof args defaultConfig.digest rfl rfl).mp ⟨hloop.mp ⟨c, hc⟩, hdef⟩
  obtain ⟨-, hgiven⟩ := @chosen_mode atof pre post o arg m hsel hpre hpost defaultConfig.digest
  have hserver : (List.foldl Digest.add defaultConfig.digest (pre ++ (o, arg) :: post)).mode
      ≠ .server := by
    rw [← hdigest]
    exact hmode
  rw [hworker.1, hworker.2, hdigest]
  refine ⟨hdests, List.length_pos_iff.mpr (hclient hserver), ?_, hsrc, ?_⟩
  · rw [hdests, hgiven]
    exact hlen
  · rw [hsource] at hsrc ⊢
    cases hlast : (givenAddrs .ipLocal (pre ++ (o, arg) :: post)).getLast? with
    | none =>
      rw [hlast] at hsrc
      exact absurd rfl hsrc
    | some ip => rfl

/-- A client on two cores. -/
theorem destinations_configured_two_cores : ∃ config ws,
    parseArgs (fun _ => 0) twoQueueLine = .ok config ∧ config.mode = .client ∧
    startWorkers config broadcastMac 2 = some ws ∧
    ∀ w ∈ ws, w.dstIps = givenAddrs .ipDest twoQueueLine := by
  obtain ⟨config, hparse, hmode, ws, hstart⟩ : ∃ config,
      parseArgs (fun _ => 0) twoQueueLine = .ok config ∧ config.mode = .client ∧
      ∃ ws, startWorkers config broadcastMac 2 = some ws :=
    ⟨_, rfl, rfl, _, rfl⟩
  refine ⟨config, ws, hparse, hmode, hstart, fun w hw => ?_⟩
  refine (destinations_configured _ _ config hparse ?_ broadcastMac 2 ws hstart w hw).1
  rw [hmode]
  exact Mode.noConfusion

end DpdkEcho
