import Corduit.Netstack.Stack.Tracking

/-!
# A reader removes its own connection

The last step of a reader removes its addresses from the table, whatever the
table holds under them.  The reader outlives the table entry of its
connection: a RST removes the entry and leaves the thread alone.  If the client
then opens a new connection from the same addresses, the removal hits that one.

It does not as long as a SYN is accepted only when no thread of an earlier
connection with these addresses is left.
-/

namespace Corduit.Netstack.Stack

open Netstack.FakeIp Netstack.Tcp Transition

namespace SolidStack

/-- A reader that is about to remove its addresses finds its own connection in
the table, or none. -/
def RemovesOwn (stack : SolidStack) : StackOp → Prop
  | .remove index => ∀ flow, stack.flowIn index .removing = some flow →
      ∀ id, stack.connections.lookup flow.key = some id → id = flow.cell
  | _ => True

/-- No thread serves the addresses of a SYN that is accepted. -/
def Fresh (stack : SolidStack) : StackOp → Prop
  | .packet arrival => stack.Creates arrival → ∀ flow ∈ stack.flows, flow.key ≠ arrival.key
  | _ => True

/-- Under the addresses of a thread, the table holds the thread's connection or
none. -/
def Owned (stack : SolidStack) : Prop :=
  ∀ flow ∈ stack.flows, ∀ id, stack.connections.lookup flow.key = some id → id = flow.cell

theorem Owned.of_shrinks {stack stack' : SolidStack} (owned : stack.Owned)
    (shrinks : stack.Shrinks stack') : stack'.Owned := by
  intro flow member id located
  rcases shrinks.flows flow member with ⟨earlier, earlierMember, key_eq, cell_eq⟩
  have before := shrinks.connections flow.key id located
  rw [← key_eq] at before
  exact (owned earlier earlierMember id before).trans cell_eq

section

variable {stack : SolidStack} (owned : stack.Owned)

include owned

theorem Owned.accept {arrival : Arrival} (alone : ∀ flow ∈ stack.flows, flow.key ≠ arrival.key) :
    (stack.accept arrival).1.Owned := by
  intro flow member id located
  rw [connections_accept] at located
  rcases mem_flows_accept member with earlier | rfl
  · rw [AList.lookup_insert_ne (alone flow earlier)] at located
    exact owned flow earlier id located
  · rw [AList.lookup_insert] at located
    exact (Option.some.inj located).symm

theorem Owned.step {op : StackOp} (fresh : stack.Fresh op) : (stack.step op).Owned := by
  rcases stack.step_cases op with ⟨arrival, rfl, creates, accepted⟩ | shrinks
  · rw [accepted]
    exact owned.accept (fresh creates)
  · exact owned.of_shrinks shrinks

theorem Owned.removesOwn (op : StackOp) :
    stack.RemovesOwn op := by
  cases op with
  | remove index =>
      intro flow located
      have member : flow ∈ stack.flows :=
        List.mem_of_getElem? (Option.filter_eq_some_iff.mp located).1
      exact owned flow member
  | _ => trivial

end

/-- In every interleaving in which each accepted SYN finds the threads of its
addresses gone, no reader removes another's connection. -/
theorem removesOwn_run (config : TcpConfig) (tun : TunTx) {ops : List StackOp}
    (fresh : RunMeets step Fresh (start config tun) ops) :
    RunMeets step RemovesOwn (start config tun) ops := by
  have initially : (start config tun).Owned := by simp [Owned, start]
  exact runMeets_of_invariant Owned (fun _ op owned _ => owned.removesOwn op)
    (fun _ _ owned fresh => owned.step fresh) initially fresh

/-- A thread at `index` whose addresses are those of another connection in the
table. -/
structure Stale (stack : SolidStack) (index : Nat) (flow : Flow) (id : Nat) : Prop where
  located : stack.flows[index]? = some flow
  cell : ∃ cell, stack.cells[flow.cell]? = some cell
  tracked : stack.connections.lookup flow.key = some id
  other : id ≠ flow.cell

theorem flowIn_eq_some {stack : SolidStack} {index : Nat} {flow : Flow} {phase : FlowPhase}
    (located : stack.flows[index]? = some flow) (phase_eq : flow.phase = phase) :
    stack.flowIn index phase = some flow := by
  simp [flowIn, located, phase_eq]

section

variable {stack : SolidStack} {index id : Nat} {flow : Flow} (stale : stack.Stale index flow id)

include stale

theorem Stale.setPhase (phase : FlowPhase) :
    (stack.setPhase index phase).Stale index { flow with phase := phase } id where
  located := by simp [SolidStack.setPhase, stale.located]
  cell := stale.cell
  tracked := stale.tracked
  other := stale.other

theorem Stale.onConn (update : TcpConnection → TcpConnection) :
    (stack.onConn flow.cell update).Stale index flow id where
  located := stale.located
  cell := by
    rcases stale.cell with ⟨cell, located⟩
    exact ⟨Cell.onConn update cell, by simp [SolidStack.onConn, located]⟩
  tracked := stale.tracked
  other := stale.other

theorem Stale.removing (phase_eq : flow.phase = .removing) :
    ¬ RunMeets step RemovesOwn stack [.remove index] := by
  rintro ⟨own, _⟩
  exact stale.other (own flow (flowIn_eq_some stale.located phase_eq) id stale.tracked)

theorem Stale.reading (phase_eq : flow.phase = .reading) :
    ¬ RunMeets step RemovesOwn stack [.finish index, .remove index] := by
  rcases stale.cell with ⟨cell, located⟩
  have finished : stack.step (.finish index) = stack.setPhase index .removing := by
    simp [step, act, flowIn_eq_some stale.located phase_eq, finishFlow, located]
  rintro ⟨_, rest⟩
  rw [finished] at rest
  exact (stale.setPhase .removing).removing rfl rest

theorem Stale.dialing (phase_eq : flow.phase = .dialing) :
    ¬ RunMeets step RemovesOwn stack [.dial index .connected, .finish index, .remove index] := by
  have dialed : stack.step (.dial index .connected) =
      (stack.onConn flow.cell (attachProxy .connected)).setPhase index .reading := by
    simp [step, act, flowIn_eq_some stale.located phase_eq, dial]
  rintro ⟨_, rest⟩
  rw [dialed] at rest
  exact ((stale.onConn _).setPhase .reading).reading rfl rest

/-- A stale thread can always go on to remove the other connection. -/
theorem Stale.removes : ∃ more, ¬ RunMeets step RemovesOwn stack more := by
  cases phase_eq : flow.phase with
  | dialing => exact ⟨_, stale.dialing phase_eq⟩
  | reading => exact ⟨_, stale.reading phase_eq⟩
  | removing => exact ⟨_, stale.removing phase_eq⟩

end

/-- A SYN accepted while a thread of its addresses is left makes that thread
stale. -/
theorem stale_accept {stack : SolidStack} (named : stack.Named) {arrival : Arrival}
    {flow : Flow} (member : flow ∈ stack.flows) (same : flow.key = arrival.key) :
    ∃ index, (stack.accept arrival).1.Stale index flow stack.cells.length := by
  rcases List.getElem?_of_mem member with ⟨index, located⟩
  rcases named.flows flow member with ⟨cell, cellAt, _⟩
  have bound := (List.getElem?_eq_some_iff.mp cellAt).1
  refine ⟨index, flows_accept arrival located, ⟨cell, ?_⟩, ?_, by omega⟩
  · rw [cells_accept, List.getElem?_append_left bound, cellAt]
  · rw [connections_accept, same, AList.lookup_insert]

theorem step_of_creates {stack : SolidStack} {arrival : Arrival}
    (creates : stack.Creates arrival) :
    stack.step (.packet arrival) = (stack.accept arrival).1 := by
  rcases creates with ⟨idle, syn, absent, mapped, free⟩
  simp [step, act, handleTcpPacket, handleTcpSyn, idle, syn, absent, mapped, Nat.not_le.mpr free]

/-- No reader removes another's connection in any interleaving in which each
accepted SYN finds the threads of its addresses gone; and from a SYN that does
not, some interleaving leads to such a removal. -/
theorem removesOwn_exactly_fresh (config : TcpConfig) (tun : TunTx) (ops : List StackOp) :
    (RunMeets step Fresh (start config tun) ops →
      RunMeets step RemovesOwn (start config tun) ops) ∧
    ∀ arrival, ¬ (run step (start config tun) ops).Fresh (.packet arrival) →
      ∃ more, ¬ RunMeets step RemovesOwn (start config tun) (ops ++ .packet arrival :: more) := by
  refine ⟨fun fresh => removesOwn_run config tun fresh, fun arrival taken => ?_⟩
  obtain ⟨creates, flow, member, same⟩ :
      (run step (start config tun) ops).Creates arrival ∧
        ∃ flow ∈ (run step (start config tun) ops).flows, flow.key = arrival.key := by
    simpa [Fresh] using taken
  rcases stale_accept (named_run config tun ops) member same with ⟨index, stale⟩
  rcases stale.removes with ⟨more, breaks⟩
  refine ⟨more, fun all => breaks ?_⟩
  rw [← step_of_creates creates]
  exact ((runMeets_append _ _ _).mp all).2.2

/-- A connection is opened, its proxy connected, and the client resets it. -/
def resetRun : List StackOp :=
  [.packet (.sample .synOnly 7), .dial 0 .connected, .packet (.sample .rstOnly 0), .execute]

/-- When the reader has left, the client may use its addresses again; before
that, the next SYN is not fresh. -/
theorem removesOwn_resetRun :
    RunMeets step RemovesOwn (start {} .listening)
      (resetRun ++ [.finish 0, .remove 0, .packet (.sample .synOnly 9), .dial 0 .connected]) ∧
    ∃ more, ¬ RunMeets step RemovesOwn (start {} .listening)
      (resetRun ++ .packet (.sample .synOnly 9) :: more) := by
  refine ⟨(removesOwn_exactly_fresh {} .listening _).1 ?_,
    (removesOwn_exactly_fresh {} .listening resetRun).2 _ fun fresh => ?_⟩
  · refine ⟨fun _ => by decide, trivial, fun creates => ?_, trivial, trivial, trivial,
      fun _ => by decide, trivial, trivial⟩
    exact absurd creates.2.1 (by decide)
  · have creates := fresh ⟨by decide, by decide, by decide, by decide, by decide⟩
    exact absurd creates (by decide)

/-- The client resets its connection and opens a new one from the same port;
then the reader of the first sees the end of its stream. -/
def reuseRun : List StackOp :=
  resetRun ++ [.packet (.sample .synOnly 9), .finish 0, .remove 0]

/-- The reader of the first connection removes the second. -/
theorem late_reader_removes_other :
    let reused := run step (start {} .listening) (reuseRun.take 6)
    reused.connections.lookup (TcpConnection.Opening.sample 100 {}).key = some 1 ∧
    reused.flowIn 0 .removing =
      some ⟨(TcpConnection.Opening.sample 100 {}).key, 0, .removing⟩ ∧
    (run step (start {} .listening) reuseRun).connections.lookup
      (TcpConnection.Opening.sample 100 {}).key = none ∧
    ¬ RunMeets step RemovesOwn (start {} .listening) reuseRun := by
  refine ⟨by decide, by decide, by decide, fun own => ?_⟩
  have last := own.2.2.2.2.2.2.1 ⟨(TcpConnection.Opening.sample 100 {}).key, 0, .removing⟩
    (by decide) 1 (by decide)
  exact absurd last (by decide)

end SolidStack

end Corduit.Netstack.Stack
