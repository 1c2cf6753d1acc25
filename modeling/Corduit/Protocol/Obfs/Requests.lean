import Corduit.Protocol.Obfs.Core

/-!
# What the writer puts on the wire

The layout of a TLS client hello, read as a TLS server would: a record, in it
a handshake message, in it the session id, the cipher suites, the compression
methods and the extensions.  The ticket among the extensions and the records
behind the hello are what was written.
-/

namespace Corduit.Protocol.Obfs

open Collection Text Transport Word

/-- The extensions of a hello, by type, at most `bound` of them. -/
def decodeExtensions : (bound : Nat) → List Byte → Option (List (List Byte × List Byte))
  | _, [] => some []
  | 0, _ :: _ => none
  | bound + 1, bytes@(_ :: _) => do
      let (type, bytes) ← takeExact 2 bytes
      let (data, bytes) ← takePrefixed 2 bytes
      let others ← decodeExtensions bound bytes
      some ((type, data) :: others)

/-- The session ticket of a client hello and what follows its record. -/
def decodeClientHello (bytes : List Byte) : Option (List Byte × List Byte) := do
  let (head, bytes) ← takeExact 3 bytes
  let (message, rest) ← takePrefixed 2 bytes
  let (kind, message) ← takeExact 1 message
  let (hello, behind) ← takePrefixed 3 message
  let (_, hello) ← takeExact 34 hello
  let (_, hello) ← takePrefixed 1 hello
  let (_, hello) ← takePrefixed 2 hello
  let (_, hello) ← takePrefixed 1 hello
  let (extensions, behind') ← takePrefixed 2 hello
  let items ← decodeExtensions extensions.length extensions
  let ticket ← items.lookup [0x00, 0x23]
  if head = [0x16, 0x03, 0x01] ∧ kind = [0x01] ∧ behind = [] ∧ behind' = [] then some (ticket, rest)
  else none

/-- The payloads of application-data records, one after the other, of at most
`bound` records. -/
def decodeRecords : (bound : Nat) → List Byte → Option (List Byte)
  | _, [] => some []
  | 0, _ :: _ => none
  | bound + 1, bytes@(_ :: _) => do
      let (head, bytes) ← takeExact 3 bytes
      let (payload, bytes) ← takePrefixed 2 bytes
      let others ← decodeRecords bound bytes
      if head = recordPrefix then some (payload ++ others) else none

/-- What a connection carries: nothing yet, or a client hello and records. -/
def decodeSent (bytes : List Byte) : Option (List Byte) :=
  if bytes = [] then some []
  else do
    let (ticket, rest) ← decodeClientHello bytes
    let others ← decodeRecords rest.length rest
    some (ticket ++ others)

theorem length_u16Bytes (number : Nat) : (u16Bytes number).length = 2 :=
  length_toBeBytes 2 _

theorem ofBeBytes_u16Bytes {number : Nat} (small : number < 2 ^ 16) :
    ofBeBytes (u16Bytes number) = number :=
  ofBeBytes_length small (by omega)

theorem decodeRecords_flatMap {payloads : List (List Byte)}
    (small : ∀ payload ∈ payloads, payload.length < 2 ^ 16) {bound : Nat}
    (enough : payloads.length ≤ bound) :
    decodeRecords bound (payloads.flatMap record) = some payloads.flatten := by
  induction payloads generalizing bound with
  | nil => cases bound <;> rfl
  | cons payload payloads ih =>
      rw [List.forall_mem_cons] at small
      cases bound with
      | zero => exact absurd enough (Nat.not_succ_le_zero _)
      | succ bound =>
          have later := ih small.2 (Nat.le_of_succ_le_succ enough)
          have grouped : (payload :: payloads).flatMap record =
              recordPrefix ++ (u16Bytes payload.length ++ (payload ++ payloads.flatMap record)) := by
            rw [List.flatMap_cons, record]
            simp only [List.append_assoc]
          have first : takeExact 3 ((payload :: payloads).flatMap record) =
              some (recordPrefix, u16Bytes payload.length ++ (payload ++ payloads.flatMap record)) := by
            have three : recordPrefix.length = 3 := rfl
            rw [grouped]
            exact takeExact_append three _
          have second := takePrefixed_append (length_u16Bytes payload.length)
            (ofBeBytes_u16Bytes small.1) (payloads.flatMap record)
          cases shape : (payload :: payloads).flatMap record with
          | nil =>
              rw [shape] at grouped
              exact absurd grouped nofun
          | cons byte bytes =>
              rw [shape] at first
              rw [decodeRecords, first]
              dsimp only [Option.bind_eq_bind, Option.bind_some]
              rw [second]
              dsimp only [Option.bind_eq_bind, Option.bind_some]
              rw [later]
              rfl

theorem appendRecords_eq (text : List Byte) :
    ∃ payloads : List (List Byte), appendRecords text = payloads.flatMap record ∧ payloads.flatten = text ∧
      ∀ payload ∈ payloads, payload.length < 2 ^ 16 := by
  have positive : 0 < tlsObfsRecordPayloadLen := by decide
  refine ⟨chunks tlsObfsRecordPayloadLen text, rfl, flatten_chunks positive text, ?_⟩
  intro payload member
  have short := (mem_chunks positive member).2
  have small : tlsObfsRecordPayloadLen < 2 ^ 16 := by decide
  omega

theorem appendRecords_flatMap (texts : List (List Byte)) :
    ∃ payloads : List (List Byte), texts.flatMap appendRecords = payloads.flatMap record ∧
      payloads.flatten = texts.flatten ∧ ∀ payload ∈ payloads, payload.length < 2 ^ 16 := by
  induction texts with
  | nil => exact ⟨[], rfl, rfl, nofun⟩
  | cons text texts ih =>
      rcases appendRecords_eq text with ⟨first, records, flat, small⟩
      rcases ih with ⟨others, records', flat', small'⟩
      refine ⟨first ++ others, ?_, ?_, ?_⟩
      · rw [List.flatMap_cons, List.flatMap_append, records, records']
      · rw [List.flatten_append, List.flatten_cons, flat, flat']
      · intro payload member
        rcases List.mem_append.mp member with early | late
        · exact small payload early
        · exact small' payload late

theorem length_le_flatMap_record (payloads : List (List Byte)) :
    payloads.length ≤ (payloads.flatMap record).length := by
  induction payloads with
  | nil => exact Nat.le_refl 0
  | cons payload payloads ih =>
      have prefixed : recordPrefix.length = 3 := rfl
      rw [List.flatMap_cons, List.length_append, List.length_cons, record, List.length_append,
        List.length_append, prefixed]
      omega

theorem decodeExtensions_cons {bound : Nat} {type data rest : List Byte} (two : type.length = 2)
    (small : data.length < 2 ^ 16) {others : List (List Byte × List Byte)}
    (later : decodeExtensions bound rest = some others) :
    decodeExtensions (bound + 1) (type ++ (u16Bytes data.length ++ (data ++ rest))) =
      some ((type, data) :: others) := by
  have first := takeExact_append two (u16Bytes data.length ++ (data ++ rest))
  have second := takePrefixed_append (length_u16Bytes data.length) (ofBeBytes_u16Bytes small) rest
  cases type with
  | nil => exact absurd two nofun
  | cons byte type =>
      rw [List.cons_append] at first ⊢
      rw [decodeExtensions, first]
      dsimp only [Option.bind_eq_bind, Option.bind_some]
      rw [second]
      dsimp only [Option.bind_eq_bind, Option.bind_some]
      rw [later]
      rfl

/-- The formats of points that the hello offers. -/
def ecPointFormats : List Byte :=
  [0x03, 0x01, 0x00, 0x02]

/-- The groups that the hello offers. -/
def supportedGroups : List Byte :=
  [0x00, 0x08, 0x00, 0x1d, 0x00, 0x17, 0x00, 0x19, 0x00, 0x18]

/-- The signature algorithms that the hello offers. -/
def signatureAlgorithms : List Byte := [
  0x00, 0x1e, 0x06, 0x01, 0x06, 0x02, 0x06, 0x03, 0x05, 0x01, 0x05, 0x02, 0x05, 0x03, 0x04, 0x01,
  0x04, 0x02, 0x04, 0x03, 0x03, 0x01, 0x03, 0x02, 0x03, 0x03, 0x02, 0x01, 0x02, 0x02, 0x02, 0x03]

theorem decodeExtensions_trailer {bound : Nat} (enough : 5 ≤ bound) :
    ∃ others, decodeExtensions bound tlsObfsExtensionTrailer = some others := by
  rcases Nat.exists_eq_add_of_le' enough with ⟨more, rfl⟩
  have nothing : decodeExtensions more [] = some [] := by
    cases more <;> rfl
  have shape : tlsObfsExtensionTrailer =
      [0x00, 0x0b] ++ (u16Bytes ecPointFormats.length ++ (ecPointFormats ++
        ([0x00, 0x0a] ++ (u16Bytes supportedGroups.length ++ (supportedGroups ++
          ([0x00, 0x0d] ++ (u16Bytes signatureAlgorithms.length ++ (signatureAlgorithms ++
            ([0x00, 0x16] ++ (u16Bytes ([] : List Byte).length ++ ([] ++
              ([0x00, 0x17] ++ (u16Bytes ([] : List Byte).length ++ ([] ++ [])))))))))))))) := by
    decide +kernel
  rw [shape]
  have last := decodeExtensions_cons (by decide : ([0x00, 0x17] : List Byte).length = 2)
    (by decide : ([] : List Byte).length < 2 ^ 16) nothing
  have before := decodeExtensions_cons (by decide : ([0x00, 0x16] : List Byte).length = 2)
    (by decide : ([] : List Byte).length < 2 ^ 16) last
  have algorithms := decodeExtensions_cons (by decide : ([0x00, 0x0d] : List Byte).length = 2)
    (by decide : signatureAlgorithms.length < 2 ^ 16) before
  have groups := decodeExtensions_cons (by decide : ([0x00, 0x0a] : List Byte).length = 2)
    (by decide : supportedGroups.length < 2 ^ 16) algorithms
  exact ⟨_, decodeExtensions_cons (by decide : ([0x00, 0x0b] : List Byte).length = 2)
    (by decide : ecPointFormats.length < 2 ^ 16) groups⟩

/-- The name of the host as the extension has it. -/
def serverName (host : List Byte) : List Byte :=
  u16Bytes (host.length + 3) ++ ([0x00] ++ (u16Bytes host.length ++ host))

/-- The extensions of the hello. -/
def helloExtensions (host payload : List Byte) : List Byte :=
  [0x00, 0x23] ++ (u16Bytes payload.length ++ (payload ++
    ([0x00, 0x00] ++ (u16Bytes (serverName host).length ++ (serverName host ++
      tlsObfsExtensionTrailer)))))

/-- The handshake message of the hello, behind its length. -/
def helloMessage (draw : Draw) (host payload : List Byte) : List Byte :=
  ([0x03, 0x03] ++ toBeBytes 4 draw.unixSeconds ++ draw.randomBytes.bytes) ++
    ([0x20] ++ (draw.sessionId.bytes ++
      (u16Bytes tlsObfsCipherSuites.length ++ (tlsObfsCipherSuites ++
        ([0x01] ++ ([0x00] ++
          (u16Bytes (helloExtensions host payload).length ++
            (helloExtensions host payload ++ []))))))))

theorem length_serverName (host : List Byte) : (serverName host).length = host.length + 5 := by
  simp only [serverName, List.length_append, length_u16Bytes, List.length_cons, List.length_nil]
  omega

theorem length_helloExtensions (host payload : List Byte) :
    (helloExtensions host payload).length =
      tlsObfsClientExtensionsOverhead + host.length + payload.length := by
  have trailer : tlsObfsExtensionTrailer.length = 0x42 := rfl
  simp only [helloExtensions, List.length_append, length_u16Bytes, List.length_cons,
    List.length_nil, length_serverName, trailer, tlsObfsClientExtensionsOverhead]
  omega

theorem length_helloMessage (draw : Draw) (host payload : List Byte) :
    (helloMessage draw host payload).length =
      tlsObfsClientHandshakeOverhead + host.length + payload.length := by
  have suites : tlsObfsCipherSuites.length = 0x38 := rfl
  simp only [helloMessage, List.length_append, length_u16Bytes, List.length_cons, List.length_nil,
    length_helloExtensions, length_toBeBytes, Octets.length_bytes, suites,
    tlsObfsClientExtensionsOverhead, tlsObfsClientHandshakeOverhead]
  omega

/-- The record of the hello, behind its length. -/
def helloBody (draw : Draw) (host payload : List Byte) : List Byte :=
  [0x01] ++ (([0x00] ++ u16Bytes (helloMessage draw host payload).length) ++
    (helloMessage draw host payload ++ []))

theorem length_helloBody (draw : Draw) (host payload : List Byte) :
    (helloBody draw host payload).length =
      tlsObfsClientRecordOverhead + host.length + payload.length := by
  simp only [helloBody, List.length_append, List.length_cons, List.length_nil, length_u16Bytes,
    length_helloMessage, tlsObfsClientHandshakeOverhead, tlsObfsClientRecordOverhead]
  omega

theorem take_min_length (buf : List Byte) (count : Nat) :
    buf.take (min buf.length count) = buf.take count := by
  rcases Nat.le_total buf.length count with short | long
  · rw [Nat.min_eq_left short, List.take_length, List.take_of_length_le short]
  · rw [Nat.min_eq_right long]

theorem drop_min_length (buf : List Byte) (count : Nat) :
    buf.drop (min buf.length count) = buf.drop count := by
  rcases Nat.le_total buf.length count with short | long
  · rw [Nat.min_eq_left short, List.drop_length, List.drop_eq_nil_of_le short]
  · rw [Nat.min_eq_right long]

/-- The hello by its layout: every length field says what it should. -/
theorem clientHello_eq (stream : TlsObfsStream) (draw : Draw) (buf : List Byte) :
    stream.clientHello draw buf =
      [0x16, 0x03, 0x01] ++
        (u16Bytes (helloBody draw (asBytes stream.host)
          (buf.take tlsObfsClientHelloPayloadLen)).length ++
        (helloBody draw (asBytes stream.host) (buf.take tlsObfsClientHelloPayloadLen) ++
          appendRecords (buf.drop tlsObfsClientHelloPayloadLen))) := by
  have ticketType : u16Bytes 0x0023 = [0x00] ++ [0x23] := by decide +kernel
  have nameType : u16Bytes 0x0000 = [0x00] ++ [0x00] := by decide +kernel
  unfold TlsObfsStream.clientHello
  dsimp only
  rw [take_min_length, drop_min_length, length_helloBody]
  generalize asBytes stream.host = host
  generalize buf.take tlsObfsClientHelloPayloadLen = payload
  generalize appendRecords (buf.drop tlsObfsClientHelloPayloadLen) = records
  rw [helloBody, length_helloMessage, helloMessage, length_helloExtensions, helloExtensions,
    length_serverName, serverName, ticketType, nameType]
  have pair : ∀ (first second : Byte) (rest : List Byte),
      [first, second] ++ rest = [first] ++ ([second] ++ rest) := fun _ _ _ => rfl
  simp only [List.append_assoc, List.append_nil, pair]

theorem decodeClientHello_clientHello {stream : TlsObfsStream}
    (valid : validateObfsHost stream.host = true) (draw : Draw) (buf more : List Byte) :
    decodeClientHello (stream.clientHello draw buf ++ more) =
      some (buf.take tlsObfsClientHelloPayloadLen,
        appendRecords (buf.drop tlsObfsClientHelloPayloadLen) ++ more) := by
  have hostShort : (asBytes stream.host).length ≤ 255 := by
    simp only [validateObfsHost, checkField, Bool.not_eq_true', Bool.or_eq_false_iff,
      decide_eq_false_iff_not] at valid
    exact Nat.le_of_not_lt valid.1.2
  have payloadShort : (buf.take tlsObfsClientHelloPayloadLen).length ≤ 1024 :=
    List.length_take_le _ _
  rw [clientHello_eq]
  generalize asBytes stream.host = host at hostShort ⊢
  generalize buf.take tlsObfsClientHelloPayloadLen = payload at payloadShort ⊢
  generalize appendRecords (buf.drop tlsObfsClientHelloPayloadLen) = records
  have regrouped : [0x16, 0x03, 0x01] ++ (u16Bytes (helloBody draw host payload).length ++
      (helloBody draw host payload ++ records)) ++ more =
      [0x16, 0x03, 0x01] ++ (u16Bytes (helloBody draw host payload).length ++
        (helloBody draw host payload ++ (records ++ more))) := by
    simp only [List.append_assoc]
  rw [regrouped]
  have bodySmall : (helloBody draw host payload).length < 2 ^ 16 := by
    rw [length_helloBody, tlsObfsClientRecordOverhead]
    omega
  have messageSmall : (helloMessage draw host payload).length < 2 ^ 16 := by
    rw [length_helloMessage, tlsObfsClientHandshakeOverhead]
    omega
  have extensionsSmall : (helloExtensions host payload).length < 2 ^ 16 := by
    rw [length_helloExtensions, tlsObfsClientExtensionsOverhead]
    omega
  have nameSmall : (serverName host).length < 2 ^ 16 := by
    rw [length_serverName]
    omega
  have enough : 2 + 5 ≤ (helloExtensions host payload).length := by
    rw [length_helloExtensions, tlsObfsClientExtensionsOverhead]
    omega
  have extensions : ∃ others, decodeExtensions (helloExtensions host payload).length
      (helloExtensions host payload) = some (([0x00, 0x23], payload) :: others) := by
    rcases Nat.exists_eq_add_of_le' enough with ⟨more, length⟩
    rcases decodeExtensions_trailer (Nat.le_add_left 5 more) with ⟨others, trailer⟩
    rw [length]
    exact ⟨_, decodeExtensions_cons (by decide : ([0x00, 0x23] : List Byte).length = 2) (by omega)
      (decodeExtensions_cons (by decide : ([0x00, 0x00] : List Byte).length = 2) nameSmall trailer)⟩
  rcases extensions with ⟨others, extensions⟩
  have threeBytes : ofBeBytes ([0x00] ++ u16Bytes (helloMessage draw host payload).length) =
      (helloMessage draw host payload).length := by
    rw [ofBeBytes_append, ofBeBytes_u16Bytes messageSmall]
    simp [ofBeBytes]
  have randomLength : ([0x03, 0x03] ++ toBeBytes 4 draw.unixSeconds ++
      draw.randomBytes.bytes).length = 34 := by
    rw [List.length_append, List.length_append, length_toBeBytes, Octets.length_bytes]
    rfl
  have threeWide : ([0x00] ++ u16Bytes (helloMessage draw host payload).length).length = 3 := by
    rw [List.length_append, length_u16Bytes]
    rfl
  have idSpelled : ofBeBytes [0x20] = draw.sessionId.bytes.length := by
    rw [Octets.length_bytes]
    decide
  rw [decodeClientHello, takeExact_append (by decide : ([0x16, 0x03, 0x01] : List Byte).length = 3)]
  dsimp only [Option.bind_eq_bind, Option.bind_some]
  rw [takePrefixed_append (length_u16Bytes _) (ofBeBytes_u16Bytes bodySmall)]
  dsimp only [Option.bind_eq_bind, Option.bind_some]
  rw [helloBody, takeExact_append (by decide : ([0x01] : List Byte).length = 1)]
  dsimp only [Option.bind_eq_bind, Option.bind_some]
  rw [takePrefixed_append threeWide threeBytes]
  dsimp only [Option.bind_eq_bind, Option.bind_some]
  rw [helloMessage, takeExact_append randomLength]
  dsimp only [Option.bind_eq_bind, Option.bind_some]
  rw [takePrefixed_append (by decide : ([0x20] : List Byte).length = 1) idSpelled]
  dsimp only [Option.bind_eq_bind, Option.bind_some]
  rw [takePrefixed_append (length_u16Bytes _) (ofBeBytes_u16Bytes (by decide))]
  dsimp only [Option.bind_eq_bind, Option.bind_some]
  rw [takePrefixed_append (by decide : ([0x01] : List Byte).length = 1) (by decide : ofBeBytes [0x01] =
    ([0x00] : List Byte).length)]
  dsimp only [Option.bind_eq_bind, Option.bind_some]
  rw [takePrefixed_append (length_u16Bytes _) (ofBeBytes_u16Bytes extensionsSmall)]
  dsimp only [Option.bind_eq_bind, Option.bind_some]
  rw [extensions]
  rfl

namespace TlsObfsStream

/-- `write` called once for each text; the draw is that of the first call. -/
def writeAll (stream : TlsObfsStream) (draw : Draw) :
    List (List Byte) → List (Except IoError Nat) × TlsObfsStream
  | [] => ([], stream)
  | buf :: bufs =>
      let (result, stream') := stream.write draw buf
      let (results, last) := stream'.writeAll draw bufs
      (result :: results, last)

theorem write_hello {stream : TlsObfsStream} (fresh : stream.clientHelloSent = false)
    (takes : stream.outgoing = {}) (draw : Draw) (buf : List Byte) :
    stream.write draw buf = (.ok buf.length, { stream with
      clientHelloSent := true
      outgoing := { sent := stream.clientHello draw buf } }) := by
  have appended : stream.outgoing.writeAll (stream.clientHello draw buf) =
      (.ok (), { sent := stream.clientHello draw buf }) := by
    rw [takes]
    dsimp only [Outgoing.writeAll]
    rw [List.nil_append]
  rw [write, fresh, appended]
  rfl

section

variable {stream : TlsObfsStream} (begun : stream.clientHelloSent = true)
  (takes : stream.outgoing.fates = []) (draw : Draw)

include begun takes

theorem write_records (buf : List Byte) :
    ∃ outgoing, stream.write draw buf = (.ok buf.length, { stream with outgoing := outgoing }) ∧
      outgoing.fates = [] ∧ outgoing.sent = stream.outgoing.sent ++ appendRecords buf := by
  rcases stream with ⟨incoming, ⟨sent, closed, fates, closings⟩, host, hello, skip, length, payload,
    first⟩
  cases begun
  cases takes
  cases buf with
  | nil => exact ⟨_, rfl, rfl, (List.append_nil sent).symm⟩
  | cons byte buf => exact ⟨_, rfl, rfl, rfl⟩

theorem writeAll_records (bufs : List (List Byte)) :
    (stream.writeAll draw bufs).1 = bufs.map (fun buf => .ok buf.length) ∧
      (stream.writeAll draw bufs).2.outgoing.sent =
        stream.outgoing.sent ++ bufs.flatMap appendRecords := by
  induction bufs generalizing stream with
  | nil => exact ⟨rfl, (List.append_nil _).symm⟩
  | cons buf bufs ih =>
      rcases write_records begun takes draw buf with ⟨outgoing, written, takes', sent⟩
      have later := @ih { stream with outgoing := outgoing } begun takes'
      rw [writeAll, written]
      dsimp only
      rw [later.1, later.2, sent, List.map_cons, List.flatMap_cons, List.append_assoc]
      exact ⟨rfl, rfl⟩

end

/-- Whatever is written, in however many calls, is what a server decodes. -/
theorem writeAll_decoded {stream : TlsObfsStream} (valid : validateObfsHost stream.host = true)
    (fresh : stream.clientHelloSent = false) (takes : stream.outgoing = {}) (draw : Draw)
    (bufs : List (List Byte)) :
    (stream.writeAll draw bufs).1 = bufs.map (fun buf => .ok buf.length) ∧
      decodeSent (stream.writeAll draw bufs).2.outgoing.sent = some bufs.flatten := by
  cases bufs with
  | nil =>
      rw [writeAll, takes]
      exact ⟨rfl, rfl⟩
  | cons buf bufs =>
      have later := @writeAll_records { stream with
        clientHelloSent := true
        outgoing := { sent := stream.clientHello draw buf } } rfl rfl draw bufs
      rw [writeAll, write_hello fresh takes]
      dsimp only
      rw [later.1, later.2, List.map_cons]
      refine ⟨rfl, ?_⟩
      have nonempty : stream.clientHello draw buf ++ bufs.flatMap appendRecords ≠ [] := by
        rw [clientHello_eq]
        exact List.cons_ne_nil _ _
      rcases appendRecords_flatMap (buf.drop tlsObfsClientHelloPayloadLen :: bufs) with
        ⟨payloads, records, flat, small⟩
      rw [List.flatMap_cons] at records
      rw [decodeSent, if_neg nonempty, decodeClientHello_clientHello valid draw buf]
      dsimp only [Option.bind_eq_bind, Option.bind_some]
      rw [records, decodeRecords_flatMap small (length_le_flatMap_record payloads), flat]
      dsimp only [Option.bind_eq_bind, Option.bind_some]
      rw [List.flatten_cons, List.flatten_cons, ← List.append_assoc, List.take_append_drop]

end TlsObfsStream

end Corduit.Protocol.Obfs
