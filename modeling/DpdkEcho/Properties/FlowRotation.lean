import Mathlib.Data.List.Rotate
import DpdkEcho.Properties.FlowAccounting
import DpdkEcho.Properties.FlowTables

/-!
# The flows take turns

With one destination, every iteration that gets into the sending branch moves `dst_port`, `flow`
and `selected_dst` on, whatever becomes of its burst: it may be sent, held back by the rate limit,
or there may be no buffers for it. So these variables count the iterations of the branch.

* `trySend_place`, `transmitStep_place`: where an iteration leaves the variables
* `Rotation.step`, `rotation_run`: what `n` iterations of the branch leave
* `sendPorts_window`: any `count_flow` iterations in a row go through all ports
-/

namespace DpdkEcho

open Infra

/-! ## The sending branch -/

/-- The iteration gets into `if (can_send)`. -/
def EntersSend (env : ClientEnv) (st : TransmitState) (inp : TransmitInput) : Prop :=
  st.pc = .loop ∧ (st.checkDuration env.hz inp).pc = .loop ∧
    (st.checkDuration env.hz inp).canSend = true

instance (env : ClientEnv) (st : TransmitState) (inp : TransmitInput) :
    Decidable (EntersSend env st inp) := inferInstanceAs (Decidable (_ ∧ _ ∧ _))

/-- The destination ports that the iterations of the sending branch select, in order. -/
def sendPorts (env : ClientEnv) : TransmitState → List TransmitInput → List UInt32
  | _, [] => []
  | st, inp :: inps =>
    let st' := (transmitStep env st inp).1
    if EntersSend env st inp then st'.dstPort :: sendPorts env st' inps
    else sendPorts env st' inps

section
variable {env : ClientEnv} {st : TransmitState} {inp : TransmitInput}

/-- The branch goes on to the next port, on each of its ways out. -/
theorem trySend_place (hzero : st.selectedDst = 0) :
    SamePlace (st.selectNext env.cntx) (trySend env st inp).1 := by
  obtain ⟨-, hreset⟩ := resetWindow_same env (st.selectNext env.cntx) inp.endTime
  unfold trySend
  simp only
  rw [if_neg (not_not.mpr hzero)]
  split
  · exact hreset
  · rcases transmitBurst_cases env ((st.selectNext env.cntx).resetWindow env inp.endTime) inp
      st.selectedDst st.flow (st.flowQ st.flow) with he | ⟨bufs, he⟩ | ⟨st', b, he, -, -, -, -, hpl⟩
    · rw [he]
      exact hreset
    · rw [he]
      exact hreset.abort
    · rw [he]
      exact hreset.trans hpl

/-- **An iteration moves on exactly when it gets into the sending branch.** -/
theorem transmitStep_place (hzero : st.selectedDst = 0) :
    SamePlace (if EntersSend env st inp then st.selectNext env.cntx else st)
      (transmitStep env st inp).1 := by
  obtain ⟨-, hplace⟩ := checkDuration_same env.hz st inp
  by_cases hpc : st.pc = .loop
  · by_cases hsend : (st.checkDuration env.hz inp).pc = .loop ∧
        (st.checkDuration env.hz inp).canSend = true
    · have henters : EntersSend env st inp := ⟨hpc, hsend⟩
      have hzero' : (st.checkDuration env.hz inp).selectedDst = 0 := hplace.selectedDst.trans hzero
      rw [if_pos henters, transmitStep, if_neg (not_not.mpr hpc)]
      simp only
      rw [if_pos hsend]
      exact (hplace.selectNext env.cntx).trans (trySend_place hzero')
    · have hstays : ¬EntersSend env st inp := fun h => hsend h.2
      rw [if_neg hstays, transmitStep, if_neg (not_not.mpr hpc)]
      simp only
      rw [if_neg hsend]
      exact hplace
  · have hstays : ¬EntersSend env st inp := fun h => hpc h.1
    rw [if_neg hstays, transmitStep_ended hpc]
    exact ⟨rfl, rfl, rfl, rfl⟩

end

/-! ## The rotation -/

/-- The variables after `n` iterations of the sending branch. The table of the queues is as it was
filled. -/
structure Rotation (w : Context) (n : Nat) (st : TransmitState) : Prop where
  flowQ : ∀ j, j < w.countFlow.toNat → st.flowQ j = slotQueue w j
  selectedDst : st.selectedDst = 0
  flow : st.flow = (n % w.countFlow.toNat : Nat)
  offset : (st.dstPort - w.basePortNumber).toNat = n % w.countFlow.toNat

section
variable {w : Context} {n : Nat} {st st' : TransmitState}

theorem Rotation.of_same (h : Rotation w n st) (hs : SamePlace st st') : Rotation w n st' where
  flowQ := by rw [hs.flowQ]; exact h.flowQ
  selectedDst := by rw [hs.selectedDst, h.selectedDst]
  flow := by rw [hs.flow, h.flow]
  offset := by rw [hs.dstPort, h.offset]

theorem Rotation.dstPort (hw : WellPlaced w) (hmin : 1 ≤ w.countFlow.toNat)
    (hmax : w.countFlow.toNat ≤ 65535) (h : Rotation w n st) :
    st.dstPort.toNat = w.basePortNumber.toNat + n % w.countFlow.toNat := by
  have hbase := hw.basePort_lt
  have hlt : n % w.countFlow.toNat < w.countFlow.toNat := Nat.mod_lt n hmin
  have hsplit : st.dstPort = w.basePortNumber + (st.dstPort - w.basePortNumber) := by grind
  rw [hsplit, UInt32.toNat_add, h.offset]
  exact Nat.mod_eq_of_lt (by omega)

/-- One more iteration of the branch. -/
theorem Rotation.selectNext (hw : WellPlaced w) (hone : w.dstIps.length = 1)
    (hmin : 1 ≤ w.countFlow.toNat) (hmax : w.countFlow.toNat ≤ 65535) (h : Rotation w n st) :
    Rotation w (n + 1) (st.selectNext w) := by
  have hplace : FlowAt w st := by
    refine ⟨h.selectedDst, by rw [h.flow, h.offset], ?_⟩
    rw [h.offset]
    exact Nat.mod_lt n hmin
  obtain ⟨hdst, hflow, -⟩ := hplace.selectNext hone hmax
  have hoffset : ((st.selectNext w).dstPort - w.basePortNumber).toNat =
      (n + 1) % w.countFlow.toNat := by
    refine (nextPort_succ hw.basePort_lt hmax hplace.offset).trans ?_
    rw [h.offset, Nat.mod_add_mod]
  exact ⟨h.flowQ, hdst, by rw [hflow, hoffset], hoffset⟩

end

section
variable {env : ClientEnv} (hw : WellPlaced env.cntx) (hone : env.cntx.dstIps.length = 1)
  (hmin : 1 ≤ env.cntx.countFlow.toNat) (hmax : env.cntx.countFlow.toNat ≤ 65535)
include hw hone hmin hmax

/-- One iteration of the loop. -/
theorem Rotation.step {n : Nat} {st : TransmitState} (inp : TransmitInput)
    (h : Rotation env.cntx n st) :
    Rotation env.cntx (if EntersSend env st inp then n + 1 else n) (transmitStep env st inp).1 := by
  have hplace := @transmitStep_place env st inp h.selectedDst
  split
  · next henters =>
    rw [if_pos henters] at hplace
    exact (h.selectNext hw hone hmin hmax).of_same hplace
  · next hstays =>
    rw [if_neg hstays] at hplace
    exact h.of_same hplace

/-- **The variables count the iterations of the sending branch**, and the port that such an
iteration selects is the one after that of the iteration before. -/
theorem rotation_run : ∀ (inps : List TransmitInput) {n : Nat} {st : TransmitState},
    Rotation env.cntx n st →
      Rotation env.cntx (n + (sendPorts env st inps).length) (final (transmitStep env) st inps) ∧
      (sendPorts env st inps).map UInt32.toNat =
        (List.range (sendPorts env st inps).length).map fun j =>
          env.cntx.basePortNumber.toNat + (n + j + 1) % env.cntx.countFlow.toNat
  | [], n, st, h => ⟨h, rfl⟩
  | inp :: inps, n, st, h => by
    have hstep := h.step hw hone hmin hmax inp
    obtain ⟨hfinal, hports⟩ := rotation_run inps hstep
    rw [final_cons, sendPorts]
    split
    · next henters =>
      rw [if_pos henters] at hstep hfinal hports
      refine ⟨by rw [List.length_cons, ← Nat.add_assoc, Nat.add_right_comm]; exact hfinal, ?_⟩
      rw [List.map_cons, List.length_cons, List.range_succ_eq_map, List.map_cons, List.map_map,
        hports, hstep.dstPort hw hmin hmax]
      refine congrArg (List.cons _) (List.map_congr_left fun j _ => ?_)
      rw [Function.comp_apply, Nat.succ_eq_add_one, ← Nat.add_assoc n j 1, Nat.add_right_comm n 1 j]
    · next hstays =>
      rw [if_neg hstays] at hfinal hports
      exact ⟨hfinal, hports⟩

/-- Any `count_flow` iterations of the branch in a row go through all ports: what they select is the
range of the ports, turned around. -/
theorem sendPorts_window {n : Nat} {st : TransmitState} (h : Rotation env.cntx n st)
    (inps : List TransmitInput) (i : Nat)
    (hi : i + env.cntx.countFlow.toNat ≤ (sendPorts env st inps).length) :
    ((((sendPorts env st inps).drop i).take env.cntx.countFlow.toNat).map UInt32.toNat).Perm
      (List.range' env.cntx.basePortNumber.toNat env.cntx.countFlow.toNat) := by
  obtain ⟨-, hports⟩ := rotation_run hw hone hmin hmax inps h
  have hrotate : (((sendPorts env st inps).drop i).take env.cntx.countFlow.toNat).map UInt32.toNat =
      (List.range' env.cntx.basePortNumber.toNat env.cntx.countFlow.toNat).rotate (n + i + 1) := by
    rw [List.map_take, List.map_drop, hports]
    refine List.ext_getElem ?_ fun j hj hj' => ?_
    · simp
      omega
    · simp [List.getElem_rotate]
      congr 1
      omega
  rw [hrotate]
  exact List.rotate_perm _ _

end

/-- The variables of the transmit loop after a run, by the number of iterations of the sending
branch in it. -/
structure FlowsRotate (env : ClientEnv) (init : TransmitState) (inps : List TransmitInput) :
    Prop where
  dstPort : (final (transmitStep env) init inps).dstPort.toNat = env.cntx.basePortNumber.toNat +
    (sendPorts env init inps).length % env.cntx.countFlow.toNat
  flow : (final (transmitStep env) init inps).flow =
    ((sendPorts env init inps).length % env.cntx.countFlow.toNat : Nat)
  index : 0 ≤ (final (transmitStep env) init inps).flow ∧
    (final (transmitStep env) init inps).flow < (flowSlots env.cntx).toNat
  queue : Owns env.cntx ((final (transmitStep env) init inps).flowQ
    (final (transmitStep env) init inps).flow).toNat
  selectedDst : (final (transmitStep env) init inps).selectedDst = 0
  window : ∀ i, i + env.cntx.countFlow.toNat ≤ (sendPorts env init inps).length →
    ((((sendPorts env init inps).drop i).take env.cntx.countFlow.toNat).map UInt32.toNat).Perm
      (List.range' env.cntx.basePortNumber.toNat env.cntx.countFlow.toNat)

/--
**The flows take turns.** With one destination and up to 65535 flows `do_client` fills its tables
and gets to the loop, and in every run the port, the flow and its queue are those of the number of
iterations of the sending branch. The assertion that there is one destination always holds.
-/
theorem flows_rotate (env : ClientEnv) (hw : WellPlaced env.cntx)
    (hone : env.cntx.dstIps.length = 1) (hmin : 1 ≤ env.cntx.countFlow.toNat)
    (hmax : env.cntx.countFlow.toNat ≤ 65535) (stack : FlowTables) :
    ∃ tables, FillsAfter env.cntx env.cntx.countFlow.toNat stack tables ∧
      ∀ now inps, FlowsRotate env (transmitInit env tables now) inps := by
  have hslots : (flowSlots env.cntx).toNat = env.cntx.countFlow.toNat := by
    rw [flowSlots_single hone]
  have hzero : (0 : UInt16).toNat = 0 := rfl
  obtain ⟨tables, hfill⟩ := fillFlows_total (by omega) (flowSlots env.cntx).toNat 0 stack
    (Nat.sub_le _ _)
  rw [hslots] at hfill
  refine ⟨tables, ⟨fillFlows_early _ 0 stack (by omega) (by omega), hfill⟩, fun now inps => ?_⟩
  have hfilled := (fillFlows_spec hfill fun j hj => absurd hj (Nat.not_lt_zero j)).2
  have hinit : Rotation env.cntx 0 (transmitInit env tables now) := by
    obtain ⟨hdst, -, -⟩ := @transmitInit_flowAt env tables now hmin
    refine ⟨fun j hj => (hfilled j (by omega)).1, hdst, by rw [Nat.zero_mod]; rfl, ?_⟩
    rw [Nat.zero_mod]
    exact congrArg UInt32.toNat (UInt32.sub_self _)
  obtain ⟨hfinal, -⟩ := rotation_run hw hone hmin hmax inps hinit
  rw [Nat.zero_add] at hfinal
  have hlt := Nat.mod_lt (sendPorts env (transmitInit env tables now) inps).length hmin
  refine ⟨hfinal.dstPort hw hmin hmax, hfinal.flow, ?_, ?_, hfinal.selectedDst,
    sendPorts_window hw hone hmin hmax hinit inps⟩
  · rw [hfinal.flow, hslots]
    omega
  · rw [hfinal.flow, hfinal.flowQ _ hlt]
    exact slotQueue_owned hw _

/-- Three iterations with two flows. -/
theorem flows_rotate_two : ∃ tables,
    FillsAfter (delayClientEnv 0 4 2).cntx 2 ⟨fun _ => 7, fun _ => 7⟩ tables ∧
    FlowsRotate (delayClientEnv 0 4 2) (transmitInit (delayClientEnv 0 4 2) tables 0)
      [readyInput 0, readyInput 1, readyInput 2] := by
  obtain ⟨tables, hfill, hrun⟩ := flows_rotate (delayClientEnv 0 4 2)
    ⟨by decide, by decide, by decide⟩ rfl (by decide) (by decide) ⟨fun _ => 7, fun _ => 7⟩
  exact ⟨tables, hfill, hrun 0 _⟩

end DpdkEcho
