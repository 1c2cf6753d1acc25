import Corduit.Netstack.Stack.Core

/-!
# What a step can do to the table

Only one kind of step adds to the table, to the threads or to the cells: a SYN
that is accepted.  Every other step shrinks them.  It follows that a table
entry always names a connection that was opened for its addresses.
-/

namespace Corduit.Netstack.Stack

open Collection Netstack.Tcp Transition Word

namespace SolidStack

/-- Nothing is added: table entries and threads may disappear, and the cells
keep what they were opened with. -/
structure Shrinks (stack stack' : SolidStack) : Prop where
  connections : ∀ key id, stack'.connections.lookup key = some id →
    stack.connections.lookup key = some id
  flows : ∀ flow ∈ stack'.flows, ∃ earlier ∈ stack.flows,
    earlier.key = flow.key ∧ earlier.cell = flow.cell
  cells : stack'.cells.map Cell.opening = stack.cells.map Cell.opening

theorem Shrinks.refl (stack : SolidStack) : stack.Shrinks stack where
  connections _ _ located := located
  flows flow member := ⟨flow, member, rfl, rfl⟩
  cells := rfl

theorem Shrinks.trans {first second third : SolidStack} (before : first.Shrinks second)
    (after : second.Shrinks third) : first.Shrinks third where
  connections key id located := before.connections key id (after.connections key id located)
  flows flow member := by
    rcases after.flows flow member with ⟨middle, middleMember, key_eq, cell_eq⟩
    rcases before.flows middle middleMember with ⟨earlier, earlierMember, key_eq', cell_eq'⟩
    exact ⟨earlier, earlierMember, key_eq'.trans key_eq, cell_eq'.trans cell_eq⟩
  cells := after.cells.trans before.cells

section Steps

variable (stack : SolidStack)

theorem lookup_of_erase {key : NatKey} (other : NatKey) (id : Nat)
    (located : (stack.connections.erase key).lookup other = some id) :
    stack.connections.lookup other = some id := by
  by_cases same : other = key
  · subst same
    simp at located
  · rwa [AList.lookup_erase_ne same] at located

theorem cells_modify (update : Cell → Cell)
    (kept : ∀ cell, (update cell).opening = cell.opening) (id : Nat) :
    (stack.cells.modify id update).map Cell.opening = stack.cells.map Cell.opening :=
  map_modify_of_same (fun cell _ => kept cell) id

theorem shrinks_onConn (id : Nat) (update : TcpConnection → TcpConnection) :
    stack.Shrinks (stack.onConn id update) :=
  { Shrinks.refl stack with cells := stack.cells_modify (Cell.onConn update) (fun _ => rfl) id }

theorem shrinks_endFlow (index : Nat) : stack.Shrinks (stack.endFlow index) :=
  { Shrinks.refl stack with
    flows := fun flow member => ⟨flow, List.mem_of_mem_eraseIdx member, rfl, rfl⟩ }

theorem shrinks_setPhase (index : Nat) (phase : FlowPhase) :
    stack.Shrinks (stack.setPhase index phase) := by
  refine { Shrinks.refl stack with flows := ?_ }
  refine forall_mem_modify (fun flow member => ⟨flow, member, rfl, rfl⟩) ?_
  rintro flow _ ⟨earlier, member, key_eq, cell_eq⟩
  exact ⟨earlier, member, key_eq, cell_eq⟩

theorem shrinks_process (arrival : Arrival) (id : Nat) :
    stack.Shrinks (stack.process arrival id) := by
  unfold process
  split
  · exact Shrinks.refl stack
  · exact { Shrinks.refl stack with
      cells := stack.cells_modify arrival.processBy (fun _ => rfl) id }

theorem shrinks_execute : stack.Shrinks stack.execute.1 := by
  unfold execute
  split
  · exact Shrinks.refl stack
  · split
    · exact { Shrinks.refl stack with }
    · refine { Shrinks.refl stack with
        connections := ?_
        cells := stack.cells_modify (Cell.onConn _) (fun _ => rfl) _ }
      intro key id located
      dsimp only at located
      split at located
      · exact stack.lookup_of_erase key id located
      · exact located

section

variable (index : Nat) (flow : Flow)

theorem shrinks_dial (outcome : DialOutcome) :
    stack.Shrinks (stack.dial index flow outcome) := by
  cases outcome with
  | failed => exact stack.shrinks_endFlow index
  | connected => exact (stack.shrinks_onConn _ _).trans (shrinks_setPhase _ _ _)
  | noWriter => exact (stack.shrinks_onConn _ _).trans (shrinks_endFlow _ _)
  | noReader => exact (stack.shrinks_onConn _ _).trans (shrinks_endFlow _ _)

theorem shrinks_readFlow (data : List Byte) :
    stack.Shrinks (stack.readFlow index flow data).1 := by
  unfold readFlow
  split
  · exact Shrinks.refl stack
  · dsimp only
    split
    · exact { stack.shrinks_onConn _ _ with
        flows := fun flow member => ⟨flow, List.mem_of_mem_eraseIdx member, rfl, rfl⟩ }
    · exact stack.shrinks_onConn _ _

theorem shrinks_finishFlow :
    stack.Shrinks (stack.finishFlow index flow).1 := by
  unfold finishFlow
  split
  · exact Shrinks.refl stack
  · exact stack.shrinks_setPhase index _

theorem shrinks_removeFlow :
    stack.Shrinks (stack.removeFlow index flow) :=
  { stack.shrinks_endFlow index with connections := stack.lookup_of_erase }

end

theorem shrinks_evict : stack.Shrinks stack.evict := by
  unfold evict
  split
  · exact Shrinks.refl stack
  · exact { Shrinks.refl stack with connections := stack.lookup_of_erase }

end Steps

/-- The packet is a SYN that is accepted. -/
def Creates (stack : SolidStack) (arrival : Arrival) : Prop :=
  stack.job = none ∧ arrival.isSyn = true ∧
    stack.connections.lookup arrival.key = none ∧ arrival.unmapped = false ∧
    stack.slots < MAX_TUN_PROXY_CONNECTIONS

/-- A packet that is not an accepted SYN only touches the connection it names. -/
theorem packet_cases (stack : SolidStack) (arrival : Arrival) :
    (stack.Creates arrival ∧ stack.step (.packet arrival) = (stack.accept arrival).1) ∨
    stack.Shrinks (stack.step (.packet arrival)) := by
  simp only [step, act]
  cases job : stack.job with
  | some job => exact Or.inr (Shrinks.refl stack)
  | none =>
      simp only [Option.isSome_none, Bool.false_eq_true, if_false, handleTcpPacket]
      split
      · rename_i syn
        unfold handleTcpSyn
        split
        · exact Or.inr (Shrinks.refl stack)
        · rename_i absent
          split
          · exact Or.inr (Shrinks.refl stack)
          · rename_i mapped
            split
            · exact Or.inr (Shrinks.refl stack)
            · rename_i free
              have known : arrival.unmapped = false := by simpa using mapped
              exact Or.inl ⟨⟨job, syn, absent, known, Nat.lt_of_not_le free⟩, rfl⟩
      · split
        · exact Or.inr (stack.shrinks_process arrival _)
        · split <;> exact Or.inr (Shrinks.refl stack)

/-- Every step accepts a SYN or shrinks the stack. -/
theorem step_cases (stack : SolidStack) (op : StackOp) :
    (∃ arrival, op = .packet arrival ∧ stack.Creates arrival ∧
      stack.step op = (stack.accept arrival).1) ∨
    stack.Shrinks (stack.step op) := by
  cases op with
  | packet arrival =>
      rcases stack.packet_cases arrival with ⟨creates, accepted⟩ | shrinks
      · exact Or.inl ⟨arrival, rfl, creates, accepted⟩
      · exact Or.inr shrinks
  | execute => exact Or.inr stack.shrinks_execute
  | dial index outcome =>
      simp only [step, act]
      split
      · exact Or.inr (Shrinks.refl stack)
      · exact Or.inr (stack.shrinks_dial index _ outcome)
  | read index data =>
      simp only [step, act]
      split
      · exact Or.inr (Shrinks.refl stack)
      · split
        · exact Or.inr (stack.shrinks_readFlow index _ data)
        · exact Or.inr (Shrinks.refl stack)
  | finish index =>
      simp only [step, act]
      split
      · exact Or.inr (Shrinks.refl stack)
      · exact Or.inr (stack.shrinks_finishFlow index _)
  | remove index =>
      simp only [step, act]
      split
      · exact Or.inr (Shrinks.refl stack)
      · exact Or.inr (stack.shrinks_removeFlow index _)
  | writer id op =>
      simp only [step, act]
      split
      · exact Or.inr (stack.shrinks_onConn id _)
      · exact Or.inr (Shrinks.refl stack)
  | collect now => exact Or.inr { Shrinks.refl stack with }
  | evict => exact Or.inr stack.shrinks_evict
  | hangUp =>
      simp only [step, act]
      split
      · exact Or.inr { Shrinks.refl stack with }
      · exact Or.inr (Shrinks.refl stack)

theorem accept_cases (stack : SolidStack) (arrival : Arrival) :
    ∃ flows slots,
      (stack.accept arrival).1 =
        { stack.track (stack.openingFor arrival) with flows := flows, slots := slots } ∧
      (flows = stack.flows ∨
        flows = stack.flows ++ [⟨arrival.key, stack.cells.length, .dialing⟩]) := by
  unfold accept
  dsimp only
  split
  · exact ⟨stack.flows, stack.slots, rfl, Or.inl rfl⟩
  · split
    · exact ⟨_, _, rfl, Or.inr rfl⟩
    · exact ⟨stack.flows, stack.slots, rfl, Or.inl rfl⟩

variable {stack : SolidStack}

theorem mem_flows_accept {arrival : Arrival} {flow : Flow}
    (member : flow ∈ (stack.accept arrival).1.flows) :
    flow ∈ stack.flows ∨ flow = ⟨arrival.key, stack.cells.length, .dialing⟩ := by
  rcases stack.accept_cases arrival with ⟨flows, slots, eq, same | more⟩
  · rw [eq, same] at member
    exact Or.inl member
  · rw [eq, more] at member
    rcases List.mem_append.mp member with earlier | last
    · exact Or.inl earlier
    · exact Or.inr (List.mem_singleton.mp last)

theorem flows_accept (arrival : Arrival) {index : Nat} {flow : Flow}
    (located : stack.flows[index]? = some flow) :
    (stack.accept arrival).1.flows[index]? = some flow := by
  rcases stack.accept_cases arrival with ⟨flows, slots, eq, same | more⟩
  · rw [eq, same]
    exact located
  · rw [eq, more]
    dsimp only
    rw [List.getElem?_append_left (List.getElem?_eq_some_iff.mp located).1, located]

theorem connections_accept (stack : SolidStack) (arrival : Arrival) :
    (stack.accept arrival).1.connections =
      stack.connections.insert arrival.key stack.cells.length := by
  rcases stack.accept_cases arrival with ⟨flows, slots, eq, _⟩
  rw [eq]
  rfl

theorem cells_accept (stack : SolidStack) (arrival : Arrival) :
    (stack.accept arrival).1.cells =
      stack.cells ++ [⟨.opened (stack.openingFor arrival), stack.openingFor arrival, 0⟩] := by
  rcases stack.accept_cases arrival with ⟨flows, slots, eq, _⟩
  rw [eq]
  rfl

/-- The cell was opened for these addresses. -/
def OpenedFor (stack : SolidStack) (id : Nat) (key : NatKey) : Prop :=
  ∃ cell, stack.cells[id]? = some cell ∧ cell.opening.key = key

theorem openedFor_iff {id : Nat} {key : NatKey} :
    stack.OpenedFor id key ↔
      ∃ opening, (stack.cells.map Cell.opening)[id]? = some opening ∧ opening.key = key := by
  simp [OpenedFor, List.getElem?_map]

/-- Table entries and threads name cells that were opened for their addresses. -/
structure Named (stack : SolidStack) : Prop where
  tracked : ∀ key id, stack.connections.lookup key = some id → stack.OpenedFor id key
  flows : ∀ flow ∈ stack.flows, stack.OpenedFor flow.cell flow.key

theorem Named.of_shrinks {stack stack' : SolidStack} (named : stack.Named)
    (shrinks : stack.Shrinks stack') : stack'.Named := by
  have kept : ∀ id key, stack.OpenedFor id key → stack'.OpenedFor id key := by
    intro id key opened
    rw [openedFor_iff, shrinks.cells]
    exact openedFor_iff.mp opened
  refine ⟨fun key id located => kept id key (named.tracked key id
    (shrinks.connections key id located)), fun flow member => ?_⟩
  rcases shrinks.flows flow member with ⟨earlier, earlierMember, key_eq, cell_eq⟩
  rw [← key_eq, ← cell_eq]
  exact kept _ _ (named.flows earlier earlierMember)

theorem OpenedFor.accept {id : Nat} {key : NatKey} (opened : stack.OpenedFor id key)
    (arrival : Arrival) :
    (stack.accept arrival).1.OpenedFor id key := by
  rcases opened with ⟨cell, located, key_eq⟩
  refine ⟨cell, ?_, key_eq⟩
  rw [cells_accept, List.getElem?_append_left (List.getElem?_eq_some_iff.mp located).1, located]

theorem openedFor_accept (stack : SolidStack) (arrival : Arrival) :
    (stack.accept arrival).1.OpenedFor stack.cells.length arrival.key := by
  refine ⟨⟨.opened (stack.openingFor arrival), stack.openingFor arrival, 0⟩, ?_, rfl⟩
  rw [cells_accept, List.getElem?_concat_length]

theorem Named.accept (named : stack.Named) (arrival : Arrival) :
    (stack.accept arrival).1.Named := by
  constructor
  · intro key id located
    rw [connections_accept] at located
    by_cases same : key = arrival.key
    · subst same
      obtain rfl : stack.cells.length = id := by simpa using located
      exact stack.openedFor_accept arrival
    · rw [AList.lookup_insert_ne same] at located
      exact (named.tracked key id located).accept arrival
  · intro flow member
    rcases mem_flows_accept member with earlier | rfl
    · exact (named.flows flow earlier).accept arrival
    · exact stack.openedFor_accept arrival

theorem named_run (config : TcpConfig) (tun : TunTx) (ops : List StackOp) :
    (run step (start config tun) ops).Named := by
  refine run_invariant Named ?_ ⟨by simp [start], by simp [start]⟩ ops
  intro stack op named
  rcases stack.step_cases op with ⟨arrival, _, _, accepted⟩ | shrinks
  · rw [accepted]
    exact named.accept arrival
  · exact named.of_shrinks shrinks

end SolidStack

end Corduit.Netstack.Stack
