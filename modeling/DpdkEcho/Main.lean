import DpdkEcho.Config

/-!
# Start-up (`main.c`)

`main` spreads the queues over the cores and fills one `context` for each worker. `next_qid`
and `findex` run along with the loop, as they do in the source.
-/

namespace DpdkEcho

/-- The context of worker `i` in server mode. -/
def serverContext (config : AppConfig) (myEth : EtherAddr) (queuePerCore nextQid findex i : Nat) :
    Context where
  workerId := i
  defaultQid := nextQid % 2 ^ 16
  myEth := myEth
  srcIp := config.sourceIp
  srcPort := config.serverPort
  countQueues := queuePerCore
  useVlan := config.useVlan
  bidi := config.bidi
  doArp := config.doArp
  delayCycles := config.serverDelay.toUInt64
  managedQueues := (List.range queuePerCore).map fun q => findex * queuePerCore + q
  duration := 0
  dstIps := []
  dstPort := 0
  payloadLength := 0
  countFlow := 0
  basePortNumber := 0
  rateLimit := config.client.rateLimit
  rate := config.client.rate
  batch := 0

/-- The context of worker `i` in the two client modes. -/
def clientContext (config : AppConfig) (myEth : EtherAddr) (queuePerCore nextQid i : Nat) :
    Context where
  workerId := i
  defaultQid := nextQid % 2 ^ 16
  myEth := myEth
  srcIp := config.sourceIp
  srcPort := config.client.clientPort
  countQueues := queuePerCore
  useVlan := config.useVlan
  bidi := config.bidi
  doArp := config.doArp
  delayCycles := config.client.delayCycles
  managedQueues := []
  duration := config.client.duration
  dstIps := config.client.serverIps
  dstPort := config.serverPort
  payloadLength := Infra.wrapSigned 32 config.payloadSize.toNat
  countFlow := UInt32.ofInt config.client.countFlow
  basePortNumber := config.serverPort.toUInt32
  rateLimit := config.client.rateLimit
  rate := config.client.rate
  batch := config.client.batch

/-- `for (int i = 0; i < count_core; i++)`, the next `n` turns from worker `i` on. -/
def fillContexts (config : AppConfig) (myEth : EtherAddr) (queuePerCore : Nat) :
    (n i nextQid findex : Nat) → List Context
  | 0, _, _, _ => []
  | n + 1, i, nextQid, findex =>
    if config.mode = .server then
      serverContext config myEth queuePerCore nextQid findex i ::
        fillContexts config myEth queuePerCore n (i + 1) (nextQid + queuePerCore) (findex + 1)
    else
      clientContext config myEth queuePerCore nextQid i ::
        fillContexts config myEth queuePerCore n (i + 1) (nextQid + queuePerCore) findex

/-- The workers `main` starts on `countCore` cores, or `none` where it refuses: more cores than
queues (`rte_exit`) or queues that cannot be shared out evenly (`assert`). -/
def startWorkers (config : AppConfig) (myEth : EtherAddr) (countCore : Nat) :
    Option (List Context) :=
  if countCore > config.numQueues.toNat then none
  else if config.numQueues.toNat % countCore ≠ 0 then none
  else some (fillContexts config myEth (config.numQueues.toNat / countCore) countCore 0 0 0)

section
variable {config : AppConfig} {myEth : EtherAddr}

/-- The loop gives worker `i + j` the values its two running counters have reached by then. -/
theorem fillContexts_server_get (hm : config.mode = .server) (per : Nat) :
    ∀ (n i nextQid findex j : Nat), j < n →
      (fillContexts config myEth per n i nextQid findex)[j]? =
        some (serverContext config myEth per (nextQid + j * per) (findex + j) (i + j))
  | 0, _, _, _, _, h => absurd h (by omega)
  | n + 1, i, nextQid, findex, 0, _ => by simp [fillContexts, hm]
  | n + 1, i, nextQid, findex, j + 1, h => by
    rw [fillContexts, if_pos hm, List.getElem?_cons_succ,
      fillContexts_server_get hm per n (i + 1) (nextQid + per) (findex + 1) j (by omega)]
    rw [show nextQid + per + j * per = nextQid + (j + 1) * per by rw [Nat.succ_mul]; omega,
      show findex + 1 + j = findex + (j + 1) by omega, show i + 1 + j = i + (j + 1) by omega]

/-- In the client modes only `next_qid` runs along. -/
theorem fillContexts_client_get (hm : config.mode ≠ .server) (per : Nat) :
    ∀ (n i nextQid findex j : Nat), j < n →
      (fillContexts config myEth per n i nextQid findex)[j]? =
        some (clientContext config myEth per (nextQid + j * per) (i + j))
  | 0, _, _, _, _, h => absurd h (by omega)
  | n + 1, i, nextQid, findex, 0, _ => by simp [fillContexts, hm]
  | n + 1, i, nextQid, findex, j + 1, h => by
    rw [fillContexts, if_neg hm, List.getElem?_cons_succ,
      fillContexts_client_get hm per n (i + 1) (nextQid + per) findex j (by omega)]
    rw [show nextQid + per + j * per = nextQid + (j + 1) * per by rw [Nat.succ_mul]; omega,
      show i + 1 + j = i + (j + 1) by omega]

theorem length_fillContexts (per : Nat) : ∀ n i nextQid findex : Nat,
    (fillContexts config myEth per n i nextQid findex).length = n
  | 0, _, _, _ => rfl
  | n + 1, i, nextQid, findex => by
    unfold fillContexts
    split
    · rw [List.length_cons, length_fillContexts per n]
    · rw [List.length_cons, length_fillContexts per n]

end

section
variable {config : AppConfig} {myEth : EtherAddr} {countCore i : Nat} {ws : List Context}

/-- `main` gets past its two checks, and the loop has run. -/
theorem startWorkers_eq_some (h : startWorkers config myEth countCore = some ws) :
    countCore ≤ config.numQueues.toNat ∧ config.numQueues.toNat % countCore = 0 ∧
      ws = fillContexts config myEth (config.numQueues.toNat / countCore) countCore 0 0 0 := by
  unfold startWorkers at h
  split at h
  · cases h
  · next hle =>
    split at h
    · cases h
    · next hmod => exact ⟨Nat.le_of_not_lt hle, not_not.mp hmod, (Option.some.inj h).symm⟩

/-- The shares of the workers: `per` queues each, and there are `countCore * per` queues. -/
theorem startWorkers_shares (hcore : 1 ≤ countCore)
    (h : startWorkers config myEth countCore = some ws) :
    0 < config.numQueues.toNat / countCore ∧
      countCore * (config.numQueues.toNat / countCore) = config.numQueues.toNat := by
  obtain ⟨hle, hmod, -⟩ := startWorkers_eq_some h
  exact ⟨Nat.div_pos hle hcore, Nat.mul_div_cancel' (Nat.dvd_of_mod_eq_zero hmod)⟩

/-- The share of worker `i` ends inside the queues. -/
theorem startWorkers_share_end (h : startWorkers config myEth countCore = some ws)
    (hi : i < countCore) :
    i * (config.numQueues.toNat / countCore) + config.numQueues.toNat / countCore ≤
      config.numQueues.toNat := by
  have hall := (startWorkers_shares (Nat.one_le_of_lt hi) h).2
  calc i * (config.numQueues.toNat / countCore) + config.numQueues.toNat / countCore
      = (i + 1) * (config.numQueues.toNat / countCore) := (Nat.succ_mul _ _).symm
    _ ≤ countCore * (config.numQueues.toNat / countCore) := Nat.mul_le_mul_right _ hi
    _ = config.numQueues.toNat := hall

/-- Worker `i` of a server: it owns the queues `i * per + q`. -/
theorem startWorkers_server_get (hm : config.mode = .server)
    (h : startWorkers config myEth countCore = some ws) (hi : i < countCore) :
    ws[i]? = some (serverContext config myEth (config.numQueues.toNat / countCore)
      (i * (config.numQueues.toNat / countCore)) i i) := by
  obtain ⟨-, -, rfl⟩ := startWorkers_eq_some h
  have hget := @fillContexts_server_get config myEth hm (config.numQueues.toNat / countCore)
    countCore 0 0 0 i hi
  simpa using hget

/-- Worker `i` of a client. -/
theorem startWorkers_client_get (hm : config.mode ≠ .server)
    (h : startWorkers config myEth countCore = some ws) (hi : i < countCore) :
    ws[i]? = some (clientContext config myEth (config.numQueues.toNat / countCore)
      (i * (config.numQueues.toNat / countCore)) i) := by
  obtain ⟨-, -, rfl⟩ := startWorkers_eq_some h
  have hget := @fillContexts_client_get config myEth hm (config.numQueues.toNat / countCore)
    countCore 0 0 0 i hi
  simpa using hget

theorem length_startWorkers (h : startWorkers config myEth countCore = some ws) :
    ws.length = countCore := by
  obtain ⟨-, -, rfl⟩ := startWorkers_eq_some h
  exact length_fillContexts ..

end

end DpdkEcho
