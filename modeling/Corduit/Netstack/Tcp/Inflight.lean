import Corduit.Netstack.Tcp.Reassembly
import Mathlib.Algebra.Order.BigOperators.Group.List

/-!
# In-flight accounting

The in-flight counter is raised by the connection before a chunk is sent and
lowered by the writer when a batch is on the wire, or when the writer stops.
Both threads move in between, so the steps here are finer than the operations
of a schedule: raising the counter, sending, and taking the count back after a
failed send are three steps, and the writer may move between any two.

The counter always equals what the links owe it plus what is between the raise
and the send.  What a link owes are the chunks not received yet, the chunk in
the writer's hand and what is on the writer's books.  The chunks that are still
unreceived when the receiver is dropped stay in that sum for good.
-/

namespace Corduit.Netstack.Tcp

open Collection Transition Word

/-- The bytes of a list of chunks. -/
def total (chunks : List (List Byte)) : Nat :=
  (chunks.map List.length).sum

@[simp]
theorem total_nil : total [] = 0 :=
  rfl

@[simp]
theorem total_append (first second : List (List Byte)) :
    total (first ++ second) = total first + total second := by
  simp [total]

@[simp]
theorem total_cons (chunk : List Byte) (chunks : List (List Byte)) :
    total (chunk :: chunks) = chunk.length + total chunks := by
  simp [total]

theorem total_eq_zero_iff {chunks : List (List Byte)} (nonempty : ∀ chunk ∈ chunks, chunk ≠ []) :
    total chunks = 0 ↔ chunks = [] := by
  cases chunks with
  | nil => simp
  | cons chunk chunks =>
      have positive := List.length_pos_of_ne_nil (nonempty chunk List.mem_cons_self)
      simp only [total_cons, reduceCtorEq, iff_false]
      omega

namespace ProxyLink

/-- Received by the writer and not on its books yet. -/
def inHand (link : ProxyLink) : Nat :=
  total ((link.sent.take link.received).drop link.taken)

/-- Sent and never received. -/
def unreceived (link : ProxyLink) : Nat :=
  total (link.sent.drop link.received)

/-- What is still in the channel; a dropped receiver takes it along. -/
def inChannel (link : ProxyLink) : Nat :=
  if link.receiverAlive then link.unreceived else 0

/-- What the counter still holds for this link. -/
def owed (link : ProxyLink) : Nat :=
  link.unreceived + link.inHand + link.held

/-- The writer receives in order, takes what it received, and its books add up
to what it took: what it gave back plus what it holds. -/
structure WellFormed (link : ProxyLink) : Prop where
  taken_le : link.taken ≤ link.received
  received_le : link.received ≤ link.sent.length
  books : link.released + link.held = total (link.sent.take link.taken)
  chunks : ∀ chunk ∈ link.sent, chunk ≠ []

theorem WellFormed.fresh (receiverAlive : Bool) : (fresh receiverAlive).WellFormed where
  taken_le := Nat.le_refl _
  received_le := Nat.le_refl _
  books := rfl
  chunks := by simp [ProxyLink.fresh]

variable {link : ProxyLink}

variable (holds : link.WellFormed)

include holds

theorem WellFormed.send {data : List Byte} (nonempty : data ≠ []) :
    ({ link with sent := link.sent ++ [data] } : ProxyLink).WellFormed ∧
      ({ link with sent := link.sent ++ [data] } : ProxyLink).owed = link.owed + data.length := by
  have received_le := holds.received_le
  have taken_le := holds.taken_le
  refine ⟨⟨taken_le, ?_, ?_, ?_⟩, ?_⟩
  · simp only [List.length_append]
    omega
  · change _ = total ((link.sent ++ [data]).take link.taken)
    rw [List.take_append_of_le_length (by omega)]
    exact holds.books
  · simp only [List.mem_append, List.mem_singleton]
    rintro chunk (member | rfl)
    · exact holds.chunks chunk member
    · exact nonempty
  · simp only [owed, unreceived, inHand]
    rw [List.take_append_of_le_length received_le, List.drop_append_of_le_length received_le]
    simp only [total_append, total_cons, total_nil]
    omega

theorem WellFormed.receiveNext :
    link.receiveNext.WellFormed ∧ link.receiveNext.owed = link.owed := by
  have taken_le := holds.taken_le
  unfold ProxyLink.receiveNext
  split
  · rename_i enabled
    rcases enabled with ⟨_, _, _, available⟩
    refine ⟨⟨?_, available, holds.books, holds.chunks⟩, ?_⟩
    · change link.taken ≤ link.received + 1
      omega
    · have rest : link.sent.drop link.received =
          link.sent.get ⟨link.received, available⟩ :: link.sent.drop (link.received + 1) :=
        List.drop_eq_getElem_cons available
      simp only [owed, unreceived, inHand, rest, List.take_succ_eq_append_getElem available]
      rw [List.drop_append_of_le_length (by simp; omega)]
      simp only [total_append, total_cons, total_nil, List.get_eq_getElem]
      omega
  · exact ⟨holds, rfl⟩

theorem WellFormed.takeNext :
    link.takeNext.WellFormed ∧ link.takeNext.owed = link.owed := by
  have received_le := holds.received_le
  have books := holds.books
  unfold ProxyLink.takeNext
  split
  · exact ⟨holds, rfl⟩
  · rename_i chunk located
    split
    · rename_i enabled
      rcases enabled with ⟨_, behind⟩
      have available : link.taken < link.sent.length := by omega
      have chunk_eq : link.sent.get ⟨link.taken, available⟩ = chunk := by
        simpa [List.getElem?_eq_getElem available] using located
      refine ⟨⟨behind, received_le, ?_, holds.chunks⟩, ?_⟩
      · change link.released + (link.held + chunk.length) =
          total (link.sent.take (link.taken + 1))
        rw [List.take_succ_eq_append_getElem available, total_append, total_cons, total_nil,
          ← chunk_eq, ← books]
        simp only [List.get_eq_getElem]
        omega
      · have inTake : link.taken < (link.sent.take link.received).length := by
          simp
          omega
        simp only [owed, unreceived, inHand]
        rw [List.drop_eq_getElem_cons inTake, total_cons, List.getElem_take, ← chunk_eq]
        simp only [List.get_eq_getElem]
        omega
    · exact ⟨holds, rfl⟩

theorem WellFormed.settle :
    link.settle.WellFormed ∧ link.settle.owed + link.held = link.owed := by
  refine ⟨⟨holds.taken_le, holds.received_le, ?_, holds.chunks⟩, ?_⟩
  · exact holds.books
  · simp only [owed, unreceived, inHand, ProxyLink.settle]
    omega

end ProxyLink

/-- The counter is what the links owe it plus `reserved`, which has been
counted and not been sent yet. -/
structure Accounted (conn : TcpConnection) (reserved : Nat) : Prop where
  links : ∀ link ∈ conn.links, link.WellFormed
  counter : conn.proxyInflight = (conn.links.map ProxyLink.owed).sum + reserved

namespace Accounted

variable {conn : TcpConnection} {reserved : Nat}

theorem reserve (holds : Accounted conn reserved) (len : Nat) :
    Accounted (conn.reserve len) (reserved + len) where
  links := holds.links
  counter := by
    change conn.proxyInflight + len = (conn.links.map ProxyLink.owed).sum + (reserved + len)
    rw [holds.counter, Nat.add_assoc]

theorem channelSend {data : List Byte} (holds : Accounted conn (reserved + data.length))
    (nonempty : data ≠ []) {conn' : TcpConnection} (sent : conn.channelSend data = some conn') :
    Accounted conn' reserved := by
  unfold TcpConnection.channelSend at sent
  split at sent
  · contradiction
  · rename_i link attached
    split at sent
    · obtain rfl := Option.some.inj sent
      have links_eq : conn.links = conn.oldLinks ++ [link] := by
        simp [TcpConnection.links, attached]
      have wellFormed := holds.links
      have counter := holds.counter
      rw [links_eq] at wellFormed counter
      rcases (wellFormed link (by simp)).send nonempty with ⟨pushed, owed⟩
      constructor
      · intro other member
        simp only [TcpConnection.links, Option.toList_some, List.mem_append,
          List.mem_singleton] at member
        rcases member with old | rfl
        · exact wellFormed other (by simp [old])
        · exact pushed
      · simp only [TcpConnection.links, Option.toList_some, List.map_append, List.map_cons,
          List.map_nil, List.sum_append, List.sum_cons, List.sum_nil, owed] at counter ⊢
        omega
    · contradiction

/-- Taking a count back never wraps. -/
theorem rollback {len : Nat} (holds : Accounted conn (reserved + len)) :
    len ≤ conn.proxyInflight ∧ Accounted (conn.rollback len) reserved := by
  have counter := holds.counter
  refine ⟨by omega, holds.links, ?_⟩
  change wrappingSub conn.proxyInflight len = (conn.links.map ProxyLink.owed).sum + reserved
  rw [wrappingSub_of_le (by omega)]
  omega

variable (holds : Accounted conn reserved)

include holds

theorem attach (receiverAlive : Bool) :
    Accounted (conn.attach receiverAlive) reserved := by
  have links_eq : (conn.attach receiverAlive).links =
      conn.links ++ [ProxyLink.fresh receiverAlive] := by
    simp [TcpConnection.links, TcpConnection.attach]
  constructor
  · rw [links_eq]
    simp only [List.mem_append, List.mem_singleton]
    rintro link (member | rfl)
    · exact holds.links link member
    · exact ProxyLink.WellFormed.fresh receiverAlive
  · rw [links_eq]
    simp only [List.map_append, List.map_cons, List.map_nil, List.sum_append, List.sum_cons,
      List.sum_nil]
    exact holds.counter

theorem modifyLink {update : ProxyLink → ProxyLink}
    (kept : ∀ link : ProxyLink, link.WellFormed →
      (update link).WellFormed ∧ (update link).owed = link.owed)
    (index : Nat) :
    Accounted (conn.modifyLink index update) reserved := by
  constructor
  · rw [TcpConnection.links_modifyLink]
    exact forall_mem_modify holds.links fun link _ wellFormed => (kept link wellFormed).1
  · rw [TcpConnection.proxyInflight_modifyLink, TcpConnection.links_modifyLink,
      map_modify_of_same fun link member => (kept link (holds.links link member)).2]
    exact holds.counter

/-- A link never owes less than its writer holds. -/
theorem held_le {link : ProxyLink} (member : link ∈ conn.links) :
    link.held ≤ conn.proxyInflight := by
  have owes : link.owed ≤ (conn.links.map ProxyLink.owed).sum :=
    List.single_le_sum (by simp) _ (List.mem_map_of_mem member)
  have counter := holds.counter
  have held : link.held ≤ link.owed := Nat.le_add_left _ _
  omega

/-- Releasing what a writer holds never wraps. -/
theorem releaseHeld (index : Nat) :
    Accounted (conn.releaseHeld index) reserved := by
  unfold TcpConnection.releaseHeld
  split
  · exact holds
  · rename_i link located
    split
    · have member : link ∈ conn.links := List.mem_of_getElem? located
      have enough := holds.held_le member
      have settled := (holds.links link member).settle
      constructor
      · rw [TcpConnection.links_modifyLink]
        exact forall_mem_modify holds.links fun link _ wellFormed => wellFormed.settle.1
      · rw [TcpConnection.proxyInflight_modifyLink, TcpConnection.links_modifyLink]
        change wrappingSub conn.proxyInflight link.held =
          ((conn.links.modify index ProxyLink.settle).map ProxyLink.owed).sum + reserved
        have sums := sum_map_modify ProxyLink.settle ProxyLink.owed located
        have counter := holds.counter
        rw [wrappingSub_of_le enough]
        omega
    · exact holds

theorem receive (index : Nat) :
    Accounted (conn.receive index) reserved :=
  holds.modifyLink (fun _ wellFormed => wellFormed.receiveNext) index

theorem take (index : Nat) :
    Accounted (conn.take index) reserved :=
  holds.modifyLink (fun _ wellFormed => wellFormed.takeNext) index

theorem written (index : Nat) :
    Accounted (conn.written index) reserved := by
  unfold TcpConnection.written
  split
  · exact holds.releaseHeld index
  · exact holds

theorem dropWriter (index : Nat) :
    Accounted (conn.dropWriter index) reserved := by
  unfold TcpConnection.dropWriter
  split
  · have released := holds.releaseHeld index
    refine Accounted.modifyLink ?_ ?_ index
    · exact ⟨released.links, released.counter⟩
    · exact fun link wellFormed => ⟨⟨wellFormed.taken_le, wellFormed.received_le,
        wellFormed.books, wellFormed.chunks⟩, rfl⟩
  · exact holds

theorem dropReceiver (index : Nat) :
    Accounted (conn.dropReceiver index) reserved := by
  refine holds.modifyLink ?_ index
  exact fun link wellFormed => ⟨⟨wellFormed.taken_le, wellFormed.received_le,
    wellFormed.books, wellFormed.chunks⟩, rfl⟩

theorem handOff {data : List Byte} (nonempty : data ≠ []) :
    Accounted (conn.handOff data) reserved := by
  have counted := holds.reserve data.length
  unfold TcpConnection.handOff
  cases sent : (conn.reserve data.length).channelSend data with
  | some conn' =>
      simp only [sent]
      exact counted.channelSend nonempty sent
  | none =>
      simp only [sent]
      exact counted.rollback.2

theorem deliverToProxy (data : List Byte) :
    Accounted (conn.deliverToProxy data) reserved := by
  unfold TcpConnection.deliverToProxy
  split
  · exact holds
  · rename_i nonempty
    split
    · exact ⟨holds.links, holds.counter⟩
    · exact holds.handOff (by simpa using nonempty)

theorem setProxyTx (receiverAlive : Bool) :
    Accounted (conn.setProxyTx receiverAlive) reserved := by
  have attached := holds.attach receiverAlive
  unfold TcpConnection.setProxyTx TcpConnection.flushPending
  split
  · exact ⟨attached.links, attached.counter⟩
  · rename_i nonempty
    have emptied : Accounted { conn.attach receiverAlive with pendingData := [] } reserved :=
      ⟨attached.links, attached.counter⟩
    have flushed := emptied.handOff
      (by simpa using nonempty : (conn.attach receiverAlive).pendingData ≠ [])
    exact ⟨flushed.links, flushed.counter⟩

end Accounted

end Corduit.Netstack.Tcp
