import Corduit.Netstack.Packet.Core
import Corduit.Text.Utf8
import Corduit.Transport.Session
import Corduit.Word.Checked

/-!
# The DNS responder

The stack answers DNS queries itself.  A query's name is read label by label into
a text, with what is not UTF-8 replaced, and an answer writes the text back, with
the dots as boundaries of labels.
-/

namespace Corduit.Netstack.Dns

open Text Transport Word

/-- The types of questions. -/
inductive DnsQueryType where
  | a
  | aaaa
  | cname
  | other
deriving DecidableEq

namespace DnsQueryType

/-- The type of a number. -/
def fromU16 (value : Nat) : DnsQueryType :=
  match value with
  | 1 => a
  | 28 => aaaa
  | 5 => cname
  | _ => other

/-- The number of a type. -/
def toU16 : DnsQueryType → BitVec 16
  | a => 1
  | aaaa => 28
  | cname => 5
  | other => 0

end DnsQueryType

/-- The question of a datagram. -/
structure DnsQuery where
  id : BitVec 16
  domain : String
  qtype : DnsQueryType
  qclass : BitVec 16
deriving DecidableEq

/-- `SolidTcpError::DnsError`. -/
structure DnsError where
  message : String
deriving DecidableEq

/-- The longest name. -/
def MAX_NAME_BYTES : Nat := 255

/-- The most pointers of a name. -/
def MAX_POINTERS : Nat := 128

/-- The variables of the loop of `parse_name`. -/
structure NameWalk (β : Type) where
  labels : List β
  pos : Nat
  jumped : Bool
  jumpPos : Nat
  pointers : Nat
  nameBytes : Nat

variable {β : Type}

/-- A turn of the loop of `parse_name`; `read` is what is made of the bytes of a
label. -/
def nameTurn (read : List Byte → β) (data : List Byte) (walk : NameWalk β) :
    Turn (NameWalk β) (Except DnsError (List β × Nat)) :=
  match data[walk.pos]? with
  | none => .returns (.error ⟨"Name truncated"⟩) walk
  | some byte =>
      let len := byte.toNat
      if len = 0 then
        .returns (.ok (walk.labels, if walk.jumped then walk.jumpPos else walk.pos + 1)) walk
      else if byte &&& 0xC0 = 0xC0 then
        match data[walk.pos + 1]? with
        | none => .returns (.error ⟨"Ptr truncated"⟩) walk
        | some low =>
            if walk.pointers + 1 > MAX_POINTERS then
              .returns (.error ⟨"Compression pointer loop"⟩) walk
            else
              .again
                { walk with
                  pointers := walk.pointers + 1
                  jumped := true
                  jumpPos := if walk.jumped then walk.jumpPos else walk.pos + 2
                  pos := (byte &&& 0x3F).toNat <<< 8 ||| low.toNat }
      else if walk.pos + 1 + len > data.length then
        .returns (.error ⟨"Label truncated"⟩) walk
      else if walk.nameBytes + (len + 1) > MAX_NAME_BYTES then
        .returns (.error ⟨"Name too long"⟩) walk
      else
        .again
          { walk with
            nameBytes := walk.nameBytes + (len + 1)
            labels := walk.labels ++ [read (slice data (walk.pos + 1) len)]
            pos := walk.pos + 1 + len }

/-- The same turn with the accesses of the source, which panic outside of the
message. -/
def nameTurnIndexed (read : List Byte → β) (data : List Byte) (walk : NameWalk β) :
    Except (Halt DnsError) (Turn (NameWalk β) (Except DnsError (List β × Nat))) :=
  if data.length ≤ walk.pos then .ok (.returns (.error ⟨"Name truncated"⟩) walk)
  else do
    let byte ← Checked.index data walk.pos
    let len := byte.toNat
    if len = 0 then
      .ok (.returns (.ok (walk.labels, if walk.jumped then walk.jumpPos else walk.pos + 1)) walk)
    else if byte &&& 0xC0 = 0xC0 then
      if data.length ≤ walk.pos + 1 then .ok (.returns (.error ⟨"Ptr truncated"⟩) walk)
      else if walk.pointers + 1 > MAX_POINTERS then
        .ok (.returns (.error ⟨"Compression pointer loop"⟩) walk)
      else do
        let low ← Checked.index data (walk.pos + 1)
        .ok (.again
          { walk with
            pointers := walk.pointers + 1
            jumped := true
            jumpPos := if walk.jumped then walk.jumpPos else walk.pos + 2
            pos := (byte &&& 0x3F).toNat <<< 8 ||| low.toNat })
    else if walk.pos + 1 + len > data.length then
      .ok (.returns (.error ⟨"Label truncated"⟩) walk)
    else if walk.nameBytes + (len + 1) > MAX_NAME_BYTES then
      .ok (.returns (.error ⟨"Name too long"⟩) walk)
    else do
      let label ← Checked.range data (walk.pos + 1) (walk.pos + 1 + len)
      .ok (.again
        { walk with
          nameBytes := walk.nameBytes + (len + 1)
          labels := walk.labels ++ [read label]
          pos := walk.pos + 1 + len })

/-- No access is outside of the message. -/
theorem nameTurnIndexed_eq (read : List Byte → β) (data : List Byte) (walk : NameWalk β) :
    nameTurnIndexed read data walk = .ok (nameTurn read data walk) := by
  rw [nameTurnIndexed, nameTurn]
  cases found : data[walk.pos]? with
  | none => rw [if_pos (List.getElem?_eq_none_iff.mp found)]
  | some byte =>
      have inside := (List.getElem?_eq_some_iff.mp found).1
      rw [if_neg (Nat.not_le.mpr inside), Checked.index, found, Checked.ok_bind]
      dsimp only
      split
      · rfl
      split
      · cases next : data[walk.pos + 1]? with
        | none => rw [if_pos (List.getElem?_eq_none_iff.mp next)]
        | some low =>
            have inside := (List.getElem?_eq_some_iff.mp next).1
            rw [if_neg (Nat.not_le.mpr inside), Checked.index, next]
            dsimp only
            split
            · rfl
            · rfl
      split
      · rfl
      split
      · rfl
      · rw [Checked.range_of_le (Nat.le_add_right _ _) (by omega), Checked.ok_bind,
          Nat.add_sub_cancel_left]

theorem isPointer_iff (byte : Byte) : byte &&& 0xC0 = 0xC0 ↔ 192 ≤ byte.toNat := by
  revert byte
  decide

/-- What a turn does: it fails, ends the name, follows a pointer or takes a label. -/
inductive NameTurned (read : List Byte → β) (data : List Byte) (walk : NameWalk β) :
    Turn (NameWalk β) (Except DnsError (List β × Nat)) → Prop where
  | fails (error : DnsError) : NameTurned read data walk (.returns (.error error) walk)
  | ends (there : data[walk.pos]? = some 0) : NameTurned read data walk
      (.returns (.ok (walk.labels, if walk.jumped then walk.jumpPos else walk.pos + 1)) walk)
  | follows {byte low : Byte} (there : data[walk.pos]? = some byte) (mark : 192 ≤ byte.toNat)
      (next : data[walk.pos + 1]? = some low) (few : walk.pointers < MAX_POINTERS) :
      NameTurned read data walk (.again
        { walk with
          pointers := walk.pointers + 1
          jumped := true
          jumpPos := if walk.jumped then walk.jumpPos else walk.pos + 2
          pos := (byte &&& 0x3F).toNat <<< 8 ||| low.toNat })
  | takes {byte : Byte} (there : data[walk.pos]? = some byte) (filled : byte.toNat ≠ 0)
      (plain : byte.toNat < 192) (inside : walk.pos + 1 + byte.toNat ≤ data.length)
      (room : walk.nameBytes + (byte.toNat + 1) ≤ MAX_NAME_BYTES) :
      NameTurned read data walk (.again
        { walk with
          nameBytes := walk.nameBytes + (byte.toNat + 1)
          labels := walk.labels ++ [read (slice data (walk.pos + 1) byte.toNat)]
          pos := walk.pos + 1 + byte.toNat })

theorem nameTurned (read : List Byte → β) (data : List Byte) (walk : NameWalk β) :
    NameTurned read data walk (nameTurn read data walk) := by
  rw [nameTurn]
  cases there : data[walk.pos]? with
  | none => exact .fails _
  | some byte =>
      dsimp only
      split
      · rename_i zero
        refine .ends (there.trans (congrArg some (BitVec.eq_of_toNat_eq zero)))
      rename_i filled
      split
      · rename_i mark
        cases next : data[walk.pos + 1]? with
        | none => exact .fails _
        | some low =>
            dsimp only
            split
            · exact .fails _
            · exact .follows there ((isPointer_iff byte).mp mark) next (by omega)
      rename_i plain
      rw [isPointer_iff] at plain
      split
      · exact .fails _
      split
      · exact .fails _
      · exact .takes there filled (by omega) (by omega) (by omega)

/-- What bounds the turns: every one but the last uses up a pointer or bytes of the
name. -/
def NameWalk.left (walk : NameWalk β) : Nat :=
  (MAX_POINTERS - walk.pointers) + (MAX_NAME_BYTES - walk.nameBytes)

/-- The loop of `parse_name` from a position on. -/
def walkName (read : List Byte → β) (data : List Byte) (start : Nat) :
    Option (Except DnsError (List β × Nat)) :=
  (loop (nameTurn read data) (MAX_POINTERS + MAX_NAME_BYTES + 1)
    ⟨[], start, false, 0, 0, 0⟩).map Prod.fst

/-- `DnsHandler::parse_name`, which always returns. -/
def parseName (data : List Byte) (start : Nat) : Option (Except DnsError (String × Nat)) :=
  (walkName fromUtf8Lossy data start).map fun walked =>
    walked.map fun (labels, pos) => (".".intercalate labels, pos)

/-- `DnsHandler::parse_query`. -/
def parseQuery (data : List Byte) : Option (Except DnsError DnsQuery) :=
  if data.length < 12 then some (.error ⟨"Too short"⟩)
  else if (data.getD 2 0) &&& 0x80 ≠ 0 then some (.error ⟨"Not a query"⟩)
  else
    (parseName data 12).map fun parsed =>
      match parsed with
      | .error error => .error error
      | .ok (domain, offset) =>
          if offset + 4 > data.length then .error ⟨"Truncated"⟩
          else .ok
            { id := BitVec.ofNat 16 (ofBeBytes (slice data 0 2))
              domain := domain
              qtype := DnsQueryType.fromU16 (ofBeBytes (slice data offset 2))
              qclass := BitVec.ofNat 16 (ofBeBytes (slice data (offset + 2) 2)) }

/-- The loop never runs out of turns. -/
theorem walkName_isSome (read : List Byte → β) (data : List Byte) (start : Nat) :
    (walkName read data start).isSome = true := by
  have meets : ∀ walk : NameWalk β,
      walk.pointers ≤ MAX_POINTERS ∧ walk.nameBytes ≤ MAX_NAME_BYTES →
      (nameTurn read data walk).Meets
        (fun walk => walk.pointers ≤ MAX_POINTERS ∧ walk.nameBytes ≤ MAX_NAME_BYTES)
        NameWalk.left (fun _ _ => True) walk.left := by
    intro walk bounds
    have turned := nameTurned read data walk
    generalize nameTurn read data walk = turn at turned ⊢
    cases turned with
    | fails error => trivial
    | ends there => trivial
    | follows there mark next few =>
        refine ⟨⟨few, bounds.2⟩, ?_⟩
        rw [NameWalk.left, NameWalk.left]
        dsimp only
        omega
    | takes there filled plain inside room =>
        refine ⟨⟨bounds.1, room⟩, ?_⟩
        rw [NameWalk.left, NameWalk.left]
        dsimp only
        omega
  have initially : (⟨[], start, false, 0, 0, 0⟩ : NameWalk β).pointers ≤ MAX_POINTERS ∧
      (⟨[], start, false, 0, 0, 0⟩ : NameWalk β).nameBytes ≤ MAX_NAME_BYTES :=
    ⟨Nat.zero_le _, Nat.zero_le _⟩
  have enough : (⟨[], start, false, 0, 0, 0⟩ : NameWalk β).left <
      MAX_POINTERS + MAX_NAME_BYTES + 1 := Nat.lt_succ_self _
  rcases loop_returns _ NameWalk.left (fun _ _ => True) meets initially enough with
    ⟨result, walk, returned, _⟩
  rw [walkName, returned]
  rfl

/-- `DnsHandler::encode_name`; the length is cut to a byte. -/
def encodeName (name : String) : List Byte :=
  ((split '.' name).flatMap fun label =>
    if label.isEmpty then []
    else BitVec.ofNat 8 (asBytes label).length :: asBytes label) ++ [0x00]

/-- A response with the question of the query: its flags, the number of answers and
the answers. -/
def respond (flags answers : BitVec 16) (query : DnsQuery) (records : List Byte) : List Byte :=
  toBeBytes 2 query.id ++ toBeBytes 2 flags ++ toBeBytes 2 (1 : BitVec 16) ++
    toBeBytes 2 answers ++ toBeBytes 2 (0 : BitVec 16) ++ toBeBytes 2 (0 : BitVec 16) ++
    encodeName query.domain ++ toBeBytes 2 query.qtype.toU16 ++ toBeBytes 2 query.qclass ++
    records

/-- The type of the record of an address, the length of its data and the data. -/
def addressData : IpAddr → BitVec 16 × BitVec 16 × List Byte
  | .v4 addr => (1, 4, toBeBytes 4 addr)
  | .v6 addr => (28, 16, toBeBytes 16 addr)

/-- An answer with an address. -/
def addressRecord (ttl : BitVec 32) (ip : IpAddr) : List Byte :=
  let (type, length, data) := addressData ip
  toBeBytes 2 (0xC00C : BitVec 16) ++ toBeBytes 2 type ++ toBeBytes 2 (1 : BitVec 16) ++
    toBeBytes 4 ttl ++ toBeBytes 2 length ++ data

/-- `DnsHandler::build_response`, with `policy.fake_ip_ttl`. -/
def buildResponse (fakeIpTtl : BitVec 32) (query : DnsQuery) (ip : Ipv4Addr) : List Byte :=
  respond 0x8180 1 query (addressRecord fakeIpTtl (.v4 ip))

/-- `DnsHandler::build_nxdomain`. -/
def buildNxdomain (query : DnsQuery) : List Byte :=
  respond 0x8183 0 query []

/-- `DnsHandler::build_address_response`; the number of addresses is cut to 16
bits. -/
def buildAddressResponse (query : DnsQuery) (addresses : List IpAddr) (ttl : BitVec 32) :
    List Byte :=
  respond 0x8180 (BitVec.ofNat 16 addresses.length) query (addresses.flatMap (addressRecord ttl))

/-- `DnsHandler::build_servfail`. -/
def buildServfail (query : DnsQuery) : List Byte :=
  respond 0x8182 0 query []

/-- `DnsHandler::build_empty_response`. -/
def buildEmptyResponse (query : DnsQuery) : List Byte :=
  respond 0x8180 0 query []

end Corduit.Netstack.Dns
