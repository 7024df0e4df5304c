import DpdkEcho.Infra.CString
import DpdkEcho.Server

/-!
# What the server prints (`server.c`)

Once a second `do_server` prints how many packets it has accepted since the last report and how
large the bursts were on average, and starts both over. The counters behind the average
(`sum_nb_rx`, `count_rx`) influence nothing else; `reportingStep` is `serverStep` with them and with
the reports for its actions. The average itself is the quotient of the two, in `float`, and is left
out.
-/

namespace DpdkEcho

open Infra

/-- `sum_nb_rx` and `count_rx`, both `int`s. -/
structure BurstStats where
  sumNbRx : Int
  countRx : Int

/-- The values behind a report. -/
structure Report where
  throughput : UInt64
  stats : BurstStats

/-- The iteration is not the one that ends the server for want of a first packet. -/
def keepsWaiting (hz : UInt64) (st : ServerState) (inp : ServerInput) : Prop :=
  ¬ (¬ st.firstPkt = true ∧ inp.currentTime - st.expBegin > 60 * hz)

instance (hz : UInt64) (st : ServerState) (inp : ServerInput) :
    Decidable (keepsWaiting hz st inp) :=
  inferInstanceAs (Decidable (¬ _))

/-- The iteration prints a report. -/
def reportDue (hz : UInt64) (st : ServerState) (inp : ServerInput) : Prop :=
  st.run = true ∧ keepsWaiting hz st inp ∧ inp.currentTime - st.startTime > hz

instance (hz : UInt64) (st : ServerState) (inp : ServerInput) : Decidable (reportDue hz st inp) :=
  inferInstanceAs (Decidable (_ ∧ _ ∧ _))

/-- `sum_nb_rx += nb_rx; count_rx++` for a burst that is not empty. -/
def BurstStats.add (stats : BurstStats) (nbRx : Nat) : BurstStats :=
  if nbRx = 0 then stats
  else
    { sumNbRx := wrapSigned 32 (stats.sumNbRx + nbRx)
      countRx := wrapSigned 32 (stats.countRx + 1) }

/-- An iteration with its report. -/
def reportingStep (hz : UInt64) (cntx : Context) (s : ServerState × BurstStats)
    (inp : ServerInput) : (ServerState × BurstStats) × List Report :=
  let next := serverStep hz cntx s.1 inp
  let nbRx := (receivedBufs next.2).length
  if reportDue hz s.1 inp then
    ((next.1, BurstStats.add ⟨0, 0⟩ nbRx), [⟨s.1.throughput, s.2⟩])
  else ((next.1, s.2.add nbRx), [])

end DpdkEcho
