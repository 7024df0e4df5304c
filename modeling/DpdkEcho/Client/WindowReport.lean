import DpdkEcho.Client.Transmit

/-!
# What the transmit loop prints (`client.c`)

Once a second `do_client` prints, for every flow, how many packets of it were sent since the last
time, and starts the counters over. `printingStep` is `transmitStep` with the printed numbers for
its actions.
-/

namespace DpdkEcho

/-- The iteration prints: it gets into the sending branch, and more than a second has passed. -/
def windowDue (env : ClientEnv) (st : TransmitState) (inp : TransmitInput) : Prop :=
  st.pc = .loop ∧ (st.checkDuration env.hz inp).pc = .loop ∧
    (st.checkDuration env.hz inp).canSend = true ∧ st.selectedDst = 0 ∧
    st.deltaTime inp.endTime > env.hz.toNat

instance (env : ClientEnv) (st : TransmitState) (inp : TransmitInput) :
    Decidable (windowDue env st inp) := inferInstanceAs (Decidable (_ ∧ _ ∧ _ ∧ _ ∧ _))

/-- `throughput[i]` for every flow. -/
def windowReport (cntx : Context) (st : TransmitState) : List UInt64 :=
  (List.range (flowSlots cntx).toNat).map fun i : Nat => st.throughput i

/-- An iteration with what it prints. -/
def printingStep (env : ClientEnv) (st : TransmitState) (inp : TransmitInput) :
    TransmitState × List (List UInt64) :=
  ((transmitStep env st inp).1,
    if windowDue env st inp then [windowReport env.cntx st] else [])

end DpdkEcho
