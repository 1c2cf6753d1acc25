import Corduit.Netstack.Tcp.Inflight
import Corduit.Netstack.Tcp.Schedule

/-!
# The hand-off, step by step

`deliver_to_proxy` and `set_proxy_tx` raise the counter, send, and on a failed
send take the count back.  The writer threads run between these steps.  Here a
call of the connection is a sequence of steps with the stage it has reached,
and every interleaving with the writers' steps is a run.

The counter is exact in every state of a run (it equals what is in the
channels, in the writers' hands, on their books, or between the raise and the
send) exactly when every receiver that is dropped leaves an empty channel.
-/

namespace Corduit.Netstack.Tcp

open Collection Transition Word

/-- How far the connection's call has come.  `attaching` tells the flush of
`set_proxy_tx` from `deliver_to_proxy`. -/
inductive Stage where
  | idle
  | counted (data : List Byte) (attaching : Bool)
  | refused (data : List Byte) (attaching : Bool)
  deriving DecidableEq

/-- The bytes counted and not in a channel. -/
def Stage.data : Stage → List Byte
  | .idle => []
  | .counted data _ => data
  | .refused data _ => data

/-- A connection in the middle of a call. -/
structure Sharing where
  conn : TcpConnection
  stage : Stage

/-- One atomic step of the connection's thread or of a writer. -/
inductive HandOffStep where
  | deliver (data : List Byte)
  | attach (receiverAlive : Bool)
  | send
  | rollback
  | receive (index : Nat)
  | take (index : Nat)
  | written (index : Nat)
  | dropWriter (index : Nat)
  | dropReceiver (index : Nat)

namespace Sharing

/-- The end of a call: `set_proxy_tx` marks the proxy alive. -/
def finish (conn : TcpConnection) (attaching : Bool) : Sharing where
  conn := if attaching then { conn with proxyAlive := true } else conn
  stage := .idle

/-- `deliver_to_proxy` up to the raise of the counter. -/
def deliver (conn : TcpConnection) (data : List Byte) : Sharing :=
  if data.isEmpty then
    ⟨conn, .idle⟩
  else
    match conn.proxyTx with
    | none => ⟨{ conn with pendingData := conn.pendingData ++ data }, .idle⟩
    | some _ => ⟨conn.reserve data.length, .counted data false⟩

/-- `set_proxy_tx` up to the raise of the counter. -/
def attach (conn : TcpConnection) (receiverAlive : Bool) : Sharing :=
  let conn := conn.attach receiverAlive
  if conn.pendingData.isEmpty then
    finish conn true
  else
    ⟨{ conn with pendingData := [] }.reserve conn.pendingData.length,
      .counted conn.pendingData true⟩

/-- The send of a counted chunk. -/
def send (conn : TcpConnection) (data : List Byte) (attaching : Bool) : Sharing :=
  match conn.channelSend data with
  | some conn => finish conn attaching
  | none => ⟨conn, .refused data attaching⟩

/-- One step.  A step of the connection's thread that its stage does not allow
changes nothing. -/
def next (shared : Sharing) : HandOffStep → Sharing
  | .deliver data =>
      match shared.stage with
      | .idle => deliver shared.conn data
      | _ => shared
  | .attach receiverAlive =>
      match shared.stage with
      | .idle => attach shared.conn receiverAlive
      | _ => shared
  | .send =>
      match shared.stage with
      | .counted data attaching => send shared.conn data attaching
      | _ => shared
  | .rollback =>
      match shared.stage with
      | .refused data attaching => finish (shared.conn.rollback data.length) attaching
      | _ => shared
  | .receive index => { shared with conn := shared.conn.receive index }
  | .take index => { shared with conn := shared.conn.take index }
  | .written index => { shared with conn := shared.conn.written index }
  | .dropWriter index => { shared with conn := shared.conn.dropWriter index }
  | .dropReceiver index => { shared with conn := shared.conn.dropReceiver index }

/-- The counter is right: it equals what is in the channels, in the writers'
hands and on their books, and between the raise and the send; whatever may be
subtracted from it is in it; the books of each writer are the chunks it took,
each given back at most once; and an idle pipe counts nothing. -/
structure Exact (shared : Sharing) : Prop where
  balance : shared.conn.proxyInflight =
    (shared.conn.links.map fun link => link.inChannel + link.inHand + link.held).sum +
      shared.stage.data.length
  releasable : ∀ link ∈ shared.conn.links, link.held ≤ shared.conn.proxyInflight
  refundable : shared.stage.data.length ≤ shared.conn.proxyInflight
  once : ∀ link ∈ shared.conn.links, link.released + link.held = total (link.sent.take link.taken)
  drained : shared.stage = .idle →
    (∀ link ∈ shared.conn.links, link.inChannel = 0 ∧ link.inHand = 0 ∧ link.held = 0) →
    shared.conn.proxyInflight = 0

/-- A link whose receiver is gone has nothing left unreceived. -/
def Complete (link : ProxyLink) : Prop :=
  link.receiverAlive = false → link.received = link.sent.length

/-- A receiver is dropped only when its channel is empty. -/
def DropsEmpty (shared : Sharing) : HandOffStep → Prop
  | .dropReceiver index => ∀ link, shared.conn.links[index]? = some link →
      link.receiverAlive = true → link.received = link.sent.length
  | _ => True

/-- What holds along every run, whatever is dropped. -/
structure Consistent (shared : Sharing) : Prop where
  accounted : Accounted shared.conn shared.stage.data.length
  counted : shared.stage ≠ .idle → shared.stage.data ≠ []

/-- What a dropped receiver took along. -/
def lost (link : ProxyLink) : Nat :=
  if link.receiverAlive then 0 else link.unreceived

theorem owed_eq (link : ProxyLink) :
    link.owed = (link.inChannel + link.inHand + link.held) + lost link := by
  simp only [ProxyLink.owed, ProxyLink.inChannel, lost]
  split <;> omega

theorem lost_eq_zero_iff {link : ProxyLink} (wellFormed : link.WellFormed) :
    lost link = 0 ↔ Complete link := by
  have nonempty : ∀ chunk ∈ link.sent.drop link.received, chunk ≠ [] :=
    fun chunk member => wellFormed.chunks chunk (List.mem_of_mem_drop member)
  have received_le := wellFormed.received_le
  unfold lost Complete
  cases link.receiverAlive with
  | true => simp
  | false =>
      simp only [Bool.false_eq_true, if_false, ProxyLink.unreceived, forall_const]
      rw [total_eq_zero_iff nonempty, List.drop_eq_nil_iff]
      omega

theorem Consistent.exact_iff {shared : Sharing} (holds : Consistent shared) :
    Exact shared ↔ ∀ link ∈ shared.conn.links, Complete link := by
  have counter := holds.accounted.counter
  have split : (shared.conn.links.map ProxyLink.owed).sum =
      (shared.conn.links.map fun link => link.inChannel + link.inHand + link.held).sum +
        (shared.conn.links.map lost).sum := by
    rw [← List.sum_map_add]
    exact congrArg List.sum (List.map_congr_left fun link _ => owed_eq link)
  have complete_iff : (shared.conn.links.map lost).sum = 0 ↔
      ∀ link ∈ shared.conn.links, Complete link := by
    rw [List.sum_eq_zero_iff]
    simp only [List.forall_mem_map]
    exact forall₂_congr fun link member => lost_eq_zero_iff (holds.accounted.links link member)
  rw [← complete_iff]
  constructor
  · intro exact
    have balance := exact.balance
    omega
  · intro nothing
    have balance : shared.conn.proxyInflight =
        (shared.conn.links.map fun link => link.inChannel + link.inHand + link.held).sum +
          shared.stage.data.length := by omega
    refine ⟨balance, fun link member => holds.accounted.held_le member, by omega,
      fun link member => (holds.accounted.links link member).books, ?_⟩
    intro idle drained
    rw [balance, idle, List.sum_eq_zero_iff.mpr]
    · rfl
    · simp only [List.forall_mem_map]
      intro link member
      have empty := drained link member
      omega

section

variable {conn : TcpConnection} (holds : Accounted conn 0)

include holds

theorem Consistent.finish (attaching : Bool) :
    Consistent (Sharing.finish conn attaching) := by
  refine ⟨?_, fun busy => absurd rfl busy⟩
  cases attaching with
  | true => exact ⟨holds.links, holds.counter⟩
  | false => exact holds

theorem Consistent.deliver (data : List Byte) :
    Consistent (Sharing.deliver conn data) := by
  unfold Sharing.deliver
  split
  · exact ⟨holds, fun busy => absurd rfl busy⟩
  · rename_i nonempty
    split
    · exact ⟨⟨holds.links, holds.counter⟩, fun busy => absurd rfl busy⟩
    · have reserved := holds.reserve data.length
      rw [Nat.zero_add] at reserved
      exact ⟨reserved, fun _ => by simpa [Stage.data] using nonempty⟩

theorem Consistent.attach (receiverAlive : Bool) :
    Consistent (Sharing.attach conn receiverAlive) := by
  have attached := holds.attach receiverAlive
  unfold Sharing.attach
  dsimp only
  split
  · exact .finish attached true
  · rename_i nonempty
    have emptied : Accounted { conn.attach receiverAlive with pendingData := [] } 0 :=
      ⟨attached.links, attached.counter⟩
    have reserved := emptied.reserve (conn.attach receiverAlive).pendingData.length
    rw [Nat.zero_add] at reserved
    exact ⟨reserved, fun _ => by simpa [Stage.data] using nonempty⟩

end

theorem Consistent.send {conn : TcpConnection} {data : List Byte}
    (holds : Accounted conn data.length) (nonempty : data ≠ []) (attaching : Bool) :
    Consistent (Sharing.send conn data attaching) := by
  unfold Sharing.send
  rw [← Nat.zero_add data.length] at holds
  split
  · rename_i conn' sent
    exact .finish (holds.channelSend nonempty sent) attaching
  · rw [Nat.zero_add] at holds
    exact ⟨holds, fun _ => nonempty⟩

theorem Consistent.next {shared : Sharing} (holds : Consistent shared) (step : HandOffStep) :
    Consistent (shared.next step) := by
  rcases shared with ⟨conn, stage⟩
  have accounted : Accounted conn stage.data.length := holds.accounted
  have counted : stage ≠ .idle → stage.data ≠ [] := holds.counted
  cases step with
  | deliver data =>
      cases stage with
      | idle => exact .deliver accounted data
      | counted _ _ => exact holds
      | refused _ _ => exact holds
  | attach receiverAlive =>
      cases stage with
      | idle => exact .attach accounted receiverAlive
      | counted _ _ => exact holds
      | refused _ _ => exact holds
  | send =>
      cases stage with
      | idle => exact holds
      | counted data attaching => exact .send accounted (counted (by simp)) attaching
      | refused _ _ => exact holds
  | rollback =>
      cases stage with
      | idle => exact holds
      | counted _ _ => exact holds
      | refused data attaching =>
          have reserved : Accounted conn (0 + data.length) := by
            rw [Nat.zero_add]
            exact accounted
          exact .finish reserved.rollback.2 attaching
  | receive index => exact ⟨accounted.receive index, counted⟩
  | take index => exact ⟨accounted.take index, counted⟩
  | written index => exact ⟨accounted.written index, counted⟩
  | dropWriter index => exact ⟨accounted.dropWriter index, counted⟩
  | dropReceiver index => exact ⟨accounted.dropReceiver index, counted⟩

/-- Nothing was lost on any link. -/
def AllComplete (conn : TcpConnection) : Prop :=
  ∀ link ∈ conn.links, Complete link

section AllComplete

variable {conn : TcpConnection}

theorem allComplete_modifyLink (holds : AllComplete conn) {update : ProxyLink → ProxyLink}
    (kept : ∀ link, Complete link → Complete (update link)) (index : Nat) :
    AllComplete (conn.modifyLink index update) := by
  unfold AllComplete
  rw [TcpConnection.links_modifyLink]
  exact forall_mem_modify holds fun link _ => kept link

theorem complete_receiveNext {link : ProxyLink} (complete : Complete link) :
    Complete link.receiveNext := by
  unfold ProxyLink.receiveNext
  split
  · rename_i enabled
    intro gone
    exact absurd enabled.1 (by simpa using gone)
  · exact complete

theorem complete_takeNext {link : ProxyLink} (complete : Complete link) :
    Complete link.takeNext := by
  unfold ProxyLink.takeNext
  split
  · exact complete
  · split <;> exact complete

variable (holds : AllComplete conn)

include holds

theorem allComplete_releaseHeld (index : Nat) :
    AllComplete (conn.releaseHeld index) := by
  unfold TcpConnection.releaseHeld
  split
  · exact holds
  · split
    · refine allComplete_modifyLink ?_ ?_ index
      · exact holds
      · exact fun _ complete => complete
    · exact holds

theorem allComplete_dropWriter (index : Nat) :
    AllComplete (conn.dropWriter index) := by
  unfold TcpConnection.dropWriter
  split
  · refine allComplete_modifyLink ?_ ?_ index
    · exact allComplete_releaseHeld holds index
    · exact fun _ complete => complete
  · exact holds

theorem allComplete_channelSend {data : List Byte} {conn' : TcpConnection}
    (sent : conn.channelSend data = some conn') : AllComplete conn' := by
  unfold TcpConnection.channelSend at sent
  split at sent
  · contradiction
  · split at sent
    · rename_i link attached alive
      obtain rfl := Option.some.inj sent
      intro other member
      simp only [TcpConnection.links, Option.toList_some, List.mem_append,
        List.mem_singleton] at member
      rcases member with old | rfl
      · exact holds other (by simp [TcpConnection.links, old])
      · exact fun gone => absurd alive (by simpa using gone)
    · contradiction

theorem allComplete_attach (receiverAlive : Bool) :
    AllComplete (conn.attach receiverAlive) := by
  intro link member
  simp only [TcpConnection.links, TcpConnection.attach, Option.toList_some, List.mem_append,
    List.mem_singleton] at member
  rcases member with old | rfl
  · exact holds link (by simpa [TcpConnection.links] using old)
  · exact fun _ => rfl

theorem allComplete_finish (attaching : Bool) :
    AllComplete (finish conn attaching).conn := by
  cases attaching <;> exact holds

/-- Dropping a receiver loses nothing exactly when its channel is empty. -/
theorem allComplete_dropReceiver_iff (index : Nat) :
    AllComplete (conn.dropReceiver index) ↔ ∀ link, conn.links[index]? = some link →
      link.receiverAlive = true → link.received = link.sent.length := by
  unfold AllComplete TcpConnection.dropReceiver
  rw [TcpConnection.links_modifyLink]
  constructor
  · intro complete link located _
    refine complete { link with receiverAlive := false } (List.mem_of_getElem? (i := index) ?_) rfl
    simp [located]
  · intro empty
    apply forall_mem_modify holds
    intro link located complete _
    cases alive : link.receiverAlive with
    | true => exact empty link located alive
    | false => exact complete alive

end AllComplete

/-- When nothing was lost before a step, nothing is lost after it exactly when
it drops no receiver of a channel that is not empty. -/
theorem allComplete_next_iff {shared : Sharing} (holds : AllComplete shared.conn)
    (step : HandOffStep) : AllComplete (shared.next step).conn ↔ DropsEmpty shared step := by
  rcases shared with ⟨conn, stage⟩
  cases step with
  | deliver data =>
      apply iff_of_true _ trivial
      cases stage with
      | idle =>
          change AllComplete (Sharing.deliver conn data).conn
          unfold Sharing.deliver
          split
          · exact holds
          · split <;> exact holds
      | counted _ _ => exact holds
      | refused _ _ => exact holds
  | attach receiverAlive =>
      apply iff_of_true _ trivial
      have attached := allComplete_attach holds receiverAlive
      cases stage with
      | idle =>
          change AllComplete (Sharing.attach conn receiverAlive).conn
          unfold Sharing.attach
          dsimp only
          split
          · exact allComplete_finish attached true
          · exact attached
      | counted _ _ => exact holds
      | refused _ _ => exact holds
  | send =>
      apply iff_of_true _ trivial
      cases stage with
      | idle => exact holds
      | counted data attaching =>
          change AllComplete (Sharing.send conn data attaching).conn
          unfold Sharing.send
          split
          · rename_i conn' sent
            exact allComplete_finish (allComplete_channelSend holds sent) attaching
          · exact holds
      | refused _ _ => exact holds
  | rollback =>
      apply iff_of_true _ trivial
      cases stage with
      | idle => exact holds
      | counted _ _ => exact holds
      | refused data attaching =>
          have kept : AllComplete (conn.rollback data.length) := holds
          exact allComplete_finish kept attaching
  | receive index =>
      exact iff_of_true (allComplete_modifyLink holds (fun _ => complete_receiveNext) index) trivial
  | take index =>
      exact iff_of_true (allComplete_modifyLink holds (fun _ => complete_takeNext) index) trivial
  | written index =>
      apply iff_of_true _ trivial
      change AllComplete (conn.written index)
      unfold TcpConnection.written
      split
      · exact allComplete_releaseHeld holds index
      · exact holds
  | dropWriter index => exact iff_of_true (allComplete_dropWriter holds index) trivial
  | dropReceiver index => exact allComplete_dropReceiver_iff holds index

/-- Whatever is dropped and whenever, no subtraction from the counter wraps and
no chunk is given back twice. -/
theorem consistent_run (opening : TcpConnection.Opening) (steps : List HandOffStep) :
    Consistent (run next ⟨TcpConnection.opened opening, .idle⟩ steps) := by
  refine run_invariant Consistent (fun _ step holds => holds.next step) ?_ steps
  refine ⟨⟨?_, rfl⟩, fun busy => absurd rfl busy⟩
  simp [TcpConnection.links, TcpConnection.opened, TcpConnection.newPassive]

/-- Along every interleaving of a connection's calls with its writers, the
counter is exact in every state exactly when every receiver that is dropped
leaves an empty channel. -/
theorem exact_always_iff_dropsEmpty (opening : TcpConnection.Opening)
    (steps : List HandOffStep) :
    RunAlways next Exact ⟨TcpConnection.opened opening, .idle⟩ steps ↔
      RunMeets next DropsEmpty ⟨TcpConnection.opened opening, .idle⟩ steps := by
  refine runAlways_iff_runMeets (fun shared => Consistent shared ∧ AllComplete shared.conn)
    ?_ ?_ ?_ ?_
  · exact fun shared holds => holds.1.exact_iff.mpr holds.2
  · intro shared step holds
    exact (holds.1.next step).exact_iff.trans (allComplete_next_iff holds.2 step)
  · intro shared step holds empty
    exact ⟨holds.1.next step, (allComplete_next_iff holds.2 step).mpr empty⟩
  · refine ⟨consistent_run opening [], ?_⟩
    simp [AllComplete, TcpConnection.links, TcpConnection.opened, TcpConnection.newPassive]

/-- A writer that stops while a chunk is in its channel: the chunk is gone with
the receiver and its three bytes stay counted. -/
theorem dropped_channel_stays_counted :
    let shared := run next ⟨TcpConnection.opened (.sample 100 {}), .idle⟩
      [.attach true, .deliver [1, 2, 3], .send, .dropWriter 0, .dropReceiver 0]
    shared.conn.proxyInflight = 3 ∧ shared.stage = .idle ∧
      (shared.conn.links.map fun link => link.inChannel + link.inHand + link.held) = [0] ∧
      ¬ Exact shared := by
  refine ⟨by decide, by decide, by decide, fun exact => ?_⟩
  exact absurd exact.balance (by decide)

end Sharing

end Corduit.Netstack.Tcp
