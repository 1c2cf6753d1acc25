import Corduit.Engine.Outbound.Fragments.Core
import Corduit.Engine.RuleProvider
import Corduit.Protocol.Quic.Connection.Outbound

/-!
# Sending relay packets

Both protocols cut a payload into chunks and hand the message of each to the
QUIC connection as a datagram; the first failure ends the packet, and what was
handed over before stays on its way.

A division by zero stops the program, and is `none`.
-/

namespace Corduit.Engine.Outbound

open Collection Engine Protocol.Quic Word

/-- `Display` of the error of a datagram that does not fit. -/
def datagramTooLarge : String :=
  "QUIC datagram exceeds packet size"

/-- `ClientConnection::send_datagram` on an open connection, up to the packet
size of the peer. -/
def sendDatagram (peerMaxUdpPayload : Nat) (data : List Byte) : Except String Unit :=
  if data.length > min peerMaxUdpPayload MAX_UDP_PAYLOAD - DATAGRAM_OVERHEAD then
    .error datagramTooLarge
  else
    .ok ()

/-- What a call of `send_udp_packet` hands over, and its result. -/
structure Sending where
  datagrams : List (List Byte)
  result : Except Error Unit

/-- One message. -/
def sendMessage (peerMaxUdpPayload : Nat) (message : Except Error (List Byte)) : Sending :=
  match message with
  | .error error => ⟨[], .error error⟩
  | .ok message =>
      match sendDatagram peerMaxUdpPayload message with
      | .error error => ⟨[], .error (.network s!"Failed to send UDP datagram: {error}")⟩
      | .ok () => ⟨[message], .ok ()⟩

/-- The messages of the fragments, one after the other. -/
def sendFragments (peerMaxUdpPayload : Nat)
    (build : Byte → List Byte → Except Error (List Byte)) : List (Byte × List Byte) → Sending
  | [] => ⟨[], .ok ()⟩
  | (fragId, chunk) :: rest =>
      match build fragId chunk with
      | .error error => ⟨[], .error error⟩
      | .ok message =>
          match sendDatagram peerMaxUdpPayload message with
          | .error error => ⟨[], .error (.network s!"Failed to send UDP fragment: {error}")⟩
          | .ok () =>
              let later := sendFragments peerMaxUdpPayload build rest
              ⟨message :: later.datagrams, later.result⟩

/-- `usize::div_ceil`. -/
def divCeil (count size : Nat) : Nat :=
  (count + size - 1) / size

variable {peerMaxUdpPayload : Nat}

theorem sendDatagram_ok {data : List Byte} (sent : sendDatagram peerMaxUdpPayload data = .ok ()) :
    data.length ≤ MAX_UDP_PAYLOAD - DATAGRAM_OVERHEAD := by
  unfold sendDatagram at sent
  by_cases large : data.length > min peerMaxUdpPayload MAX_UDP_PAYLOAD - DATAGRAM_OVERHEAD
  · rw [if_pos large] at sent
    cases sent
  · exact Nat.le_trans (Nat.le_of_not_gt large)
      (Nat.sub_le_sub_right (Nat.min_le_right _ _) _)

theorem mem_sendMessage {message : Except Error (List Byte)} {datagram : List Byte}
    (member : datagram ∈ (sendMessage peerMaxUdpPayload message).datagrams) :
    message = .ok datagram ∧ datagram.length ≤ MAX_UDP_PAYLOAD - DATAGRAM_OVERHEAD := by
  cases message with
  | error error => cases member
  | ok message =>
      rw [sendMessage] at member
      cases sent : sendDatagram peerMaxUdpPayload message with
      | error error =>
          simp only [sent] at member
          cases member
      | ok _ =>
          simp only [sent] at member
          rw [List.mem_singleton.mp member]
          exact ⟨rfl, sendDatagram_ok sent⟩

theorem mem_sendFragments {build : Byte → List Byte → Except Error (List Byte)}
    {fragments : List (Byte × List Byte)} {datagram : List Byte}
    (member : datagram ∈ (sendFragments peerMaxUdpPayload build fragments).datagrams) :
    ∃ fragment ∈ fragments, build fragment.1 fragment.2 = .ok datagram ∧
      datagram.length ≤ MAX_UDP_PAYLOAD - DATAGRAM_OVERHEAD := by
  induction fragments with
  | nil => cases member
  | cons fragment fragments ih =>
      rw [sendFragments] at member
      cases built : build fragment.1 fragment.2 with
      | error error =>
          simp only [built] at member
          cases member
      | ok message =>
          cases sent : sendDatagram peerMaxUdpPayload message with
          | error error =>
              simp only [built, sent] at member
              cases member
          | ok _ =>
              simp only [built, sent] at member
              rcases List.mem_cons.mp member with rfl | later
              · exact ⟨fragment, List.mem_cons_self, built, sendDatagram_ok sent⟩
              · rcases ih later with ⟨other, inside, built', small⟩
                exact ⟨other, List.mem_cons_of_mem _ inside, built', small⟩

end Corduit.Engine.Outbound
