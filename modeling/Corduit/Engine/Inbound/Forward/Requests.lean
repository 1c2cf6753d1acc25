import Corduit.Engine.RuleProvider
import Corduit.Http.Request
import Corduit.Transport.Poll

/-!
# Forwarding a request

A request whose body has been taken out of its framing is written for the
origin: its request line, the header fields that are passed on, a host and a
length where the client has given none, and the body.

Method and header names are tokens.  The HTTP library's header map is the list
of its entries and the lookup, of which nothing is used but the value that it
finds; whether a value has a text is up to the library too.
-/

namespace Corduit.Engine.Inbound.Forward

open Http Text Transport Word

/-- `HOP_BY_HOP`. -/
def hopByHop : List String :=
  ["connection", "proxy-connection", "keep-alive", "te", "trailer", "transfer-encoding",
    "upgrade", "proxy-authorization"]

/-- `Method` and `HeaderName`. -/
structure Token where
  text : String
  solid : text ≠ ""
  codes : text.toList.all (fun char => isTokenCode char.toNat) = true

/-- `HeaderValue`: its bytes and its text, if `to_str` gives one. -/
structure HeaderValue where
  bytes : List Byte
  toStr : Option String
  unbroken : Unbroken bytes
  spells : ∀ text, toStr = some text → asBytes text = bytes

/-- `HeaderMap`: the entries and the value that is found under a name. -/
structure HeaderMap where
  iter : List (Token × HeaderValue)
  get : String → Option HeaderValue

/-- The name in lower case. -/
def Token.lower (name : Token) : String :=
  toAsciiLowercase name.text

namespace HeaderMap

variable (headers : HeaderMap)

/-- The text of the `Connection` header that is looked at. -/
def connection : Option String :=
  (headers.get "connection").bind HeaderValue.toStr

/-- The names that it lists. -/
def connectionNamed : List String :=
  match headers.connection with
  | none => []
  | some value =>
      (((split ',' value).map trim).filter fun token => !token.isEmpty).map toAsciiLowercase

/-- A header of this name is not passed on. -/
def strips (name : Token) : Bool :=
  hopByHop.contains name.lower || headers.connectionNamed.contains name.lower

/-- The head so far, and whether a host and a length have been passed on. -/
structure Building where
  out : List Byte
  hasHost : Bool
  hasContentLength : Bool

/-- The loop over the entries. -/
def copy (building : Building) (entry : Token × HeaderValue) : Building :=
  if headers.strips entry.1 then building
  else
    { out :=
        match entry.2.toStr with
        | some value =>
            building.out ++ asBytes entry.1.text ++ ascii ": " ++ asBytes value ++ ascii "\r\n"
        | none => building.out
      hasHost := building.hasHost || entry.1.lower = "host"
      hasContentLength := building.hasContentLength || entry.1.lower = "content-length" }

end HeaderMap

/-- The request line and the fields. -/
def buildRequestHead (method : Token) (path : String) (headers : HeaderMap) (host : String)
    (port : BitVec 16) (bodyLen : Nat) : List Byte :=
  let out := asBytes method.text ++ ascii " " ++ asBytes path ++ ascii " HTTP/1.1\r\n"
  let built := headers.iter.foldl headers.copy ⟨out, false, false⟩
  let out :=
    if built.hasHost then built.out
    else built.out ++ ascii "Host: " ++ asBytes host ++ asBytes (":" ++ toString port.toNat) ++
      ascii "\r\n"
  let out :=
    if 0 < bodyLen ∧ built.hasContentLength = false then
      out ++ ascii "Content-Length: " ++ asBytes (toString bodyLen) ++ ascii "\r\n"
    else out
  out ++ ascii "\r\n"

/-- The head and then the body. -/
def sendRequest (write : Outgoing) (method : Token) (path : String) (headers : HeaderMap)
    (host : String) (port : BitVec 16) (body : List Byte) : Except Error Unit × Outgoing :=
  let head := buildRequestHead method path headers host port body.length
  match write.writeAll head with
  | (.error error, write) =>
      (.error (.network ("Failed to write request head: " ++ error.text)), write)
  | (.ok (), write) =>
      if body = [] then (.ok (), write)
      else
        match write.writeAll body with
        | (.error error, write) =>
            (.error (.network ("Failed to write request body: " ++ error.text)), write)
        | (.ok (), write) => (.ok (), write)

namespace Token

variable (name : Token)

theorem small : IsAscii name.text := by
  intro char member
  have range := isTokenCode_range (List.all_eq_true.mp name.codes char member)
  omega

theorem asBytes_text : asBytes name.text = ascii name.text :=
  asBytes_eq_ascii name.small

theorem isToken_asBytes : isToken (asBytes name.text) = true := by
  rw [asBytes_text, isToken_iff]
  constructor
  · intro empty
    apply name.solid
    rw [← String.toList_inj]
    exact List.map_eq_nil_iff.mp empty
  · intro byte member
    rcases List.mem_map.mp member with ⟨char, inside, rfl⟩
    have bound := name.small char inside
    have value : (BitVec.ofNat 8 char.toNat).toNat = char.toNat := by
      rw [BitVec.toNat_ofNat]
      omega
    rw [value]
    exact List.all_eq_true.mp name.codes char inside

theorem map_lowerByte : (asBytes name.text).map lowerByte = ascii name.lower := by
  rw [asBytes_text, map_lowerByte_ascii name.small]
  rfl

theorem isNamed_iff {literal : String} (small : IsAscii literal)
    (value : List Byte) :
    Field.isNamed ⟨asBytes name.text, value⟩ literal = true ↔ name.lower = literal := by
  rw [Field.isNamed, decide_eq_true_eq, map_lowerByte]
  constructor
  · exact ascii_inj (small_toAsciiLowercase name.small) small
  · exact congrArg ascii

end Token

namespace HeaderMap

variable {headers : HeaderMap}

/-- A header that the `Connection` header that is looked at lists is not passed on. -/
theorem strips_of_lists {text : String} (looked : headers.connection = some text) {name : Token}
    (listed : lists (asBytes text) (asBytes name.text) = true) : headers.strips name = true := by
  rcases exists_mem_split_of_lists name.isToken_asBytes listed with
    ⟨part, member, solid, small, same⟩
  have name_eq : toAsciiLowercase (trim part) = name.lower := by
    apply ascii_inj (small_toAsciiLowercase small) (small_toAsciiLowercase name.small)
    rw [← map_lowerByte_ascii small, same, name.map_lowerByte]
    rfl
  have named : name.lower ∈ headers.connectionNamed := by
    rw [connectionNamed, looked, ← name_eq]
    apply List.mem_map_of_mem
    rw [List.mem_filter]
    constructor
    · exact List.mem_map_of_mem member
    · simpa using solid
  rw [strips, Bool.or_eq_true]
  right
  exact List.contains_iff_mem.mpr named

end HeaderMap

/-- The fields that are written for an entry. -/
def HeaderMap.passed (headers : HeaderMap) (entry : Token × HeaderValue) : List Field :=
  if headers.strips entry.1 then []
  else entry.2.toStr.toList.map fun value => ⟨asBytes entry.1.text, asBytes value⟩

/-- A header of this name is passed on, even if it is not written for want of a text. -/
def HeaderMap.passes (headers : HeaderMap) (name : String) : Bool :=
  headers.iter.any fun entry => !headers.strips entry.1 && entry.1.lower = name

/-- The arguments of `send_request`. -/
structure Forwarding where
  method : Token
  path : String
  headers : HeaderMap
  host : String
  port : BitVec 16
  body : List Byte

namespace HeaderMap

variable {headers : HeaderMap}

theorem ascii_lineEnd : ascii "\r\n" = lineEnd := by
  decide

theorem copy_eq (building : Building) (entry : Token × HeaderValue) :
    headers.copy building entry =
      ⟨building.out ++ (headers.passed entry).flatMap Field.line,
        building.hasHost || (!headers.strips entry.1 && entry.1.lower = "host"),
        building.hasContentLength ||
          (!headers.strips entry.1 && entry.1.lower = "content-length")⟩ := by
  rw [copy, passed]
  cases headers.strips entry.1 with
  | true => simp
  | false =>
      cases entry.2.toStr with
      | none => simp
      | some value => simp [Field.line, ascii_lineEnd]

theorem foldl_copy (entries : List (Token × HeaderValue)) (building : Building) :
    entries.foldl headers.copy building =
      ⟨building.out ++ (entries.flatMap headers.passed).flatMap Field.line,
        building.hasHost ||
          entries.any fun entry => !headers.strips entry.1 && entry.1.lower = "host",
        building.hasContentLength ||
          entries.any fun entry => !headers.strips entry.1 && entry.1.lower = "content-length"⟩ := by
  induction entries generalizing building with
  | nil => simp
  | cons entry entries ih =>
      rw [List.foldl_cons, ih, copy_eq]
      simp [Bool.or_assoc]

theorem foldl_copy_iter (out : List Byte) :
    headers.iter.foldl headers.copy ⟨out, false, false⟩ =
      ⟨out ++ (headers.iter.flatMap headers.passed).flatMap Field.line, headers.passes "host",
        headers.passes "content-length"⟩ := by
  rw [foldl_copy, Bool.false_or, Bool.false_or]
  rfl

end HeaderMap

namespace Forwarding

variable (forwarding : Forwarding)

/-- The `Host` field of a request that has none to pass on. -/
def hostField : Field :=
  ⟨ascii "Host", asBytes forwarding.host ++ asBytes (":" ++ toString forwarding.port.toNat)⟩

/-- The `Content-Length` field of a body for which there is none to pass on. -/
def lengthField : Field :=
  ⟨ascii "Content-Length", asBytes (toString forwarding.body.length)⟩

/-- The fields that are written. -/
def fields : List Field :=
  forwarding.headers.iter.flatMap forwarding.headers.passed ++
    (if forwarding.headers.passes "host" then [] else [forwarding.hostField]) ++
    if 0 < forwarding.body.length ∧ forwarding.headers.passes "content-length" = false then
      [forwarding.lengthField]
    else []

theorem buildRequestHead_eq :
    buildRequestHead forwarding.method forwarding.path forwarding.headers forwarding.host
        forwarding.port forwarding.body.length =
      asBytes forwarding.method.text ++ (space :: (asBytes forwarding.path ++
        ascii " HTTP/1.1")) ++ (lineEnd ++ (forwarding.fields.flatMap Field.line ++ lineEnd)) := by
  have version : ascii " HTTP/1.1\r\n" = ascii " HTTP/1.1" ++ lineEnd := by decide
  have host : ascii "Host: " = ascii "Host" ++ ascii ": " := by decide
  have length : ascii "Content-Length: " = ascii "Content-Length" ++ ascii ": " := by decide
  have blank : ascii " " = [space] := by decide
  rw [buildRequestHead, HeaderMap.foldl_copy_iter, fields, version, host, length, blank,
    HeaderMap.ascii_lineEnd]
  dsimp only
  by_cases adds : 0 < forwarding.body.length ∧ forwarding.headers.passes "content-length" = false
  · rw [if_pos adds, if_pos adds]
    cases forwarding.headers.passes "host" with
    | true => simp [lengthField, Field.line]
    | false => simp [hostField, lengthField, Field.line]
  · rw [if_neg adds, if_neg adds]
    cases forwarding.headers.passes "host" with
    | true => simp
    | false => simp [hostField, Field.line]

/-- `send_request`, with what it writes to. -/
def send (write : Outgoing) : Except Error Unit × Outgoing :=
  sendRequest write forwarding.method forwarding.path forwarding.headers forwarding.host
    forwarding.port forwarding.body

theorem sent_of_send {write write' : Outgoing}
    (succeeds : forwarding.send write = (.ok (), write')) :
    write'.sent = write.sent ++ (buildRequestHead forwarding.method forwarding.path
      forwarding.headers forwarding.host forwarding.port forwarding.body.length ++
        forwarding.body) := by
  rw [send, sendRequest] at succeeds
  generalize buildRequestHead _ _ _ _ _ _ = head at succeeds ⊢
  cases first : write.writeAll head with
  | mk result between =>
      rw [first] at succeeds
      cases result with
      | error error => cases succeeds
      | ok =>
          have headSent := Outgoing.sent_of_writeAll first
          dsimp only at succeeds
          split at succeeds
          case isTrue empty =>
            cases succeeds
            rw [headSent, empty, List.append_nil]
          case isFalse =>
            cases second : between.writeAll forwarding.body with
            | mk result last =>
                rw [second] at succeeds
                cases result with
                | error error => cases succeeds
                | ok =>
                    cases succeeds
                    rw [Outgoing.sent_of_writeAll second, headSent, List.append_assoc]

variable {forwarding}

theorem forall_mem_fields {property : Field → Prop} :
    (∀ field ∈ forwarding.fields.map Field.trimmed, property field) ↔
      (∀ entry ∈ forwarding.headers.iter, forwarding.headers.strips entry.1 = false →
        entry.2.toStr.isSome = true →
          property ⟨asBytes entry.1.text, trimOws entry.2.bytes⟩) ∧
      (forwarding.headers.passes "host" = false → property forwarding.hostField.trimmed) ∧
      (forwarding.body ≠ [] → forwarding.headers.passes "content-length" = false →
        property forwarding.lengthField.trimmed) := by
  have entries : (∀ field ∈ forwarding.headers.iter.flatMap forwarding.headers.passed,
      property field.trimmed) ↔
      ∀ entry ∈ forwarding.headers.iter, forwarding.headers.strips entry.1 = false →
        entry.2.toStr.isSome = true →
          property ⟨asBytes entry.1.text, trimOws entry.2.bytes⟩ := by
    rw [List.forall_mem_flatMap]
    apply forall₂_congr
    intro entry _
    rw [HeaderMap.passed]
    cases forwarding.headers.strips entry.1 with
    | true => simp
    | false =>
        have spells := entry.2.spells
        cases text : entry.2.toStr with
        | none => simp
        | some value => simp [Field.trimmed, spells value text]
  have host : (∀ field ∈ (if forwarding.headers.passes "host" then [] else
      [forwarding.hostField]), property field.trimmed) ↔
      (forwarding.headers.passes "host" = false → property forwarding.hostField.trimmed) := by
    cases forwarding.headers.passes "host" <;> simp
  have length : (∀ field ∈ (if 0 < forwarding.body.length ∧
      forwarding.headers.passes "content-length" = false then [forwarding.lengthField] else []),
      property field.trimmed) ↔
      (forwarding.body ≠ [] → forwarding.headers.passes "content-length" = false →
        property forwarding.lengthField.trimmed) := by
    split
    case isTrue adds => simp [List.length_pos_iff.mp adds.1, adds.2]
    case isFalse kept =>
      have vacuous := not_and.mp kept
      simp only [List.not_mem_nil, false_implies, implies_true, true_iff]
      exact fun body passes => absurd passes (vacuous (List.length_pos_iff.mpr body))
  rw [List.forall_mem_map, fields]
  simp only [List.mem_append, or_imp, forall_and]
  rw [entries, host, length, and_assoc]

theorem unbroken_port : Unbroken (asBytes (":" ++ toString forwarding.port.toNat)) := by
  have colon : asBytes ":" = ascii ":" := asBytes_eq_ascii (by decide)
  rw [asBytes_append, unbroken_append, colon]
  exact ⟨by decide, unbroken_of_decimal (decimal_toString _)⟩

theorem valid_of_mem_fields
    (host : forwarding.headers.passes "host" = true ∨ Unbroken (asBytes forwarding.host)) :
    ∀ field ∈ forwarding.fields, field.Valid := by
  intro field member
  rw [fields, List.mem_append, List.mem_append] at member
  rcases member with (passed | added) | added
  · rcases List.mem_flatMap.mp passed with ⟨entry, _, inside⟩
    rw [HeaderMap.passed] at inside
    split at inside
    · cases inside
    · rcases List.mem_map.mp inside with ⟨value, text, rfl⟩
      constructor
      · exact entry.1.isToken_asBytes
      · have spelled := entry.2.spells value (Option.mem_toList.mp text)
        rw [spelled]
        exact entry.2.unbroken
  · split at added
    · cases added
    · rw [List.mem_singleton.mp added]
      constructor
      · exact (by decide : isToken (ascii "Host") = true)
      · rcases host with passes | unbroken
        · exact absurd passes ‹_›
        · exact unbroken_append.mpr ⟨unbroken, unbroken_port⟩
  · split at added
    · rw [List.mem_singleton.mp added]
      constructor
      · exact (by decide : isToken (ascii "Content-Length") = true)
      · exact unbroken_of_decimal (decimal_toString _)
    · cases added

theorem unbroken_host (unbroken : Unbroken forwarding.hostField.trimmed.value) :
    Unbroken (asBytes forwarding.host) := by
  have whole : Unbroken forwarding.hostField.value := unbroken_trimOws.mp unbroken
  exact (unbroken_append.mp whole).1

variable (forwarding)

/-- The fields of a request frame the body, and none of them is for one hop only. -/
structure Framed (request : Request) : Prop where
  lengths : ∀ field ∈ request.fields, field.isNamed "content-length" = true →
    decimal field.value = some forwarding.body.length
  coding : ∀ field ∈ request.fields, field.isNamed "transfer-encoding" = false
  framed : forwarding.body ≠ [] → ∃ field ∈ request.fields, field.isNamed "content-length" = true
  hops : ∀ field ∈ request.fields, ∀ hop ∈ hopByHop, field.isNamed hop = false
  named : ∀ field ∈ request.fields, ∀ entry ∈ forwarding.headers.iter,
    entry.1.lower = "connection" → lists entry.2.bytes field.name = false

/-- Whatever is written is one request, with the given method, target and body and the fields
that were meant, which frame the body. -/
def Forwards : Prop :=
  ∀ write write', forwarding.send write = (.ok (), write') →
    ∃ bytes request, write'.sent = write.sent ++ bytes ∧ readRequest bytes = some request ∧
      request.method = asBytes forwarding.method.text ∧
      request.target = asBytes forwarding.path ∧
      request.fields = forwarding.fields.map Field.trimmed ∧
      request.body = forwarding.body ∧ forwarding.Framed request

/-- When the fields that are passed on frame the body, and the `Connection` headers that are not
looked at list none of them. -/
structure Unambiguous : Prop where
  target : IsTarget (asBytes forwarding.path)
  host : forwarding.headers.passes "host" = true ∨ Unbroken (asBytes forwarding.host)
  lengths : ∀ entry ∈ forwarding.headers.iter, forwarding.headers.strips entry.1 = false →
    entry.2.toStr.isSome = true → entry.1.lower = "content-length" →
      decimal (trimOws entry.2.bytes) = some forwarding.body.length
  framed : forwarding.body ≠ [] → forwarding.headers.passes "content-length" = true →
    ∃ entry ∈ forwarding.headers.iter, forwarding.headers.strips entry.1 = false ∧
      entry.2.toStr.isSome = true ∧ entry.1.lower = "content-length"
  others : ∀ entry ∈ forwarding.headers.iter, forwarding.headers.strips entry.1 = false →
    entry.2.toStr.isSome = true → ∀ other ∈ forwarding.headers.iter,
      other.1.lower = "connection" →
        forwarding.headers.connection.map asBytes ≠ some other.2.bytes →
          lists other.2.bytes (asBytes entry.1.text) = false
  added : ∀ other ∈ forwarding.headers.iter, other.1.lower = "connection" →
    (forwarding.headers.passes "host" = false → lists other.2.bytes (ascii "Host") = false) ∧
    (forwarding.body ≠ [] → forwarding.headers.passes "content-length" = false →
      lists other.2.bytes (ascii "Content-Length") = false)

theorem bodyLength_of_framed {request : Request} (framed : forwarding.Framed request) :
    bodyLength request.fields = some forwarding.body.length := by
  have uncoded : request.fields.any (·.isNamed "transfer-encoding") = false := by
    rw [List.any_eq_false]
    intro field member
    rw [framed.coding field member]
    exact Bool.false_ne_true
  have stated : ∀ length ∈ (request.fields.filter (·.isNamed "content-length")).map
      (decimal ·.value), length = some forwarding.body.length := by
    intro length member
    rcases List.mem_map.mp member with ⟨field, inside, rfl⟩
    have both := List.mem_filter.mp inside
    exact framed.lengths field both.1 both.2
  rw [bodyLength, uncoded, if_neg Bool.false_ne_true]
  cases lengths : (request.fields.filter (·.isNamed "content-length")).map (decimal ·.value) with
  | nil =>
      by_cases empty : forwarding.body = []
      · rw [empty]
        rfl
      · rcases framed.framed empty with ⟨field, member, named⟩
        have inside : field ∈ request.fields.filter (·.isNamed "content-length") :=
          List.mem_filter.mpr ⟨member, named⟩
        rw [List.map_eq_nil_iff.mp lengths] at inside
        cases inside
  | cons length lengths' =>
      rw [lengths, List.forall_mem_cons] at stated
      have all : lengths'.all (· = length) = true := by
        rw [List.all_eq_true]
        intro other member
        rw [stated.1, stated.2 other member]
        exact decide_eq_true rfl
      dsimp only
      rw [if_pos all, stated.1]

theorem isNamed_hostField {literal : String}
    (other : (ascii "Host").map lowerByte ≠ ascii literal) :
    forwarding.hostField.trimmed.isNamed literal = false :=
  decide_eq_false other

theorem isNamed_lengthField : forwarding.lengthField.trimmed.isNamed "content-length" = true :=
  decide_eq_true (by decide : (ascii "Content-Length").map lowerByte = ascii "content-length")

/-- A length is written when one is added or one of those that are passed on has a text. -/
theorem exists_length_iff :
    (∃ field ∈ forwarding.fields.map Field.trimmed, field.isNamed "content-length" = true) ↔
      (forwarding.body ≠ [] ∧ forwarding.headers.passes "content-length" = false) ∨
      ∃ entry ∈ forwarding.headers.iter, forwarding.headers.strips entry.1 = false ∧
        entry.2.toStr.isSome = true ∧ entry.1.lower = "content-length" := by
  have named (entry : Token × HeaderValue) (value : List Byte) :=
    @Token.isNamed_iff entry.1 "content-length" (by decide) value
  rw [← not_iff_not]
  simp only [not_exists, not_and, not_or, Bool.not_eq_true]
  rw [forall_mem_fields]
  constructor
  · rintro ⟨passed, _, added⟩
    constructor
    · intro body none
      rw [isNamed_lengthField] at added
      cases added body none
    · intro entry member kept text isLength
      have unnamed := passed entry member kept text
      rw [(named entry _).mpr isLength] at unnamed
      cases unnamed
  · rintro ⟨added, passed⟩
    refine ⟨?_, ?_, ?_⟩
    · intro entry member kept text
      rw [Bool.eq_false_iff, Ne, named]
      exact passed entry member kept text
    · exact fun _ => forwarding.isNamed_hostField (by decide)
    · exact fun body none => absurd none (added body)

/-- No field that is written is for one hop only. -/
theorem hops_of_fields : ∀ field ∈ forwarding.fields.map Field.trimmed,
    ∀ hop ∈ hopByHop, field.isNamed hop = false := by
  rw [forall_mem_fields]
  refine ⟨?_, ?_, ?_⟩
  · intro entry _ kept _ hop member
    have small : ∀ hop ∈ hopByHop, IsAscii hop := by decide
    rw [Bool.eq_false_iff, Ne, entry.1.isNamed_iff (small hop member)]
    rintro rfl
    have stripped : hopByHop.contains entry.1.lower = true := List.contains_iff_mem.mpr member
    rw [HeaderMap.strips, stripped] at kept
    cases kept
  · intro _
    have others : ∀ hop ∈ hopByHop, (ascii "Host").map lowerByte ≠ ascii hop := by decide
    exact fun hop member => forwarding.isNamed_hostField (others hop member)
  · intro _ _
    have others : ∀ hop ∈ hopByHop, (ascii "Content-Length").map lowerByte ≠ ascii hop := by decide
    exact fun hop member => decide_eq_false (others hop member)

/-- The fields that are written frame the body under the condition, and only then. -/
theorem framed_iff {request : Request}
    (fields_eq : request.fields = forwarding.fields.map Field.trimmed)
    (target : IsTarget (asBytes forwarding.path))
    (host : forwarding.headers.passes "host" = true ∨ Unbroken (asBytes forwarding.host)) :
    forwarding.Framed request ↔ forwarding.Unambiguous := by
  constructor
  · rintro ⟨lengths, coding, framed, hops, named⟩
    rw [fields_eq, forall_mem_fields] at lengths named
    refine ⟨target, host, ?_, ?_, ?_, ?_⟩
    · intro entry member kept text isLength
      exact lengths.1 entry member kept text ((entry.1.isNamed_iff (by decide) _).mpr isLength)
    · intro body passes
      rw [fields_eq, exists_length_iff] at framed
      rcases framed body with ⟨_, none⟩ | some
      · exact absurd passes (by rw [none]; exact Bool.false_ne_true)
      · exact some
    · exact fun entry member kept text other member' isConnection _ =>
        named.1 entry member kept text other member' isConnection
    · intro other member isConnection
      exact ⟨fun none => named.2.1 none other member isConnection,
        fun some none => named.2.2 some none other member isConnection⟩
  · intro unambiguous
    refine ⟨?_, ?_, ?_, ?_, ?_⟩
    · rw [fields_eq, forall_mem_fields]
      refine ⟨?_, ?_, ?_⟩
      · intro entry member kept text isLength
        exact unambiguous.lengths entry member kept text
          ((entry.1.isNamed_iff (by decide) _).mp isLength)
      · intro _ isLength
        rw [forwarding.isNamed_hostField (by decide)] at isLength
        cases isLength
      · intro _ _ _
        have read := decimal_toString forwarding.body.length
        exact (congrArg decimal (trimOws_of_decimal read)).trans read
    · rw [fields_eq]
      exact fun field member => forwarding.hops_of_fields field member _ (by decide)
    · intro body
      rw [fields_eq, exists_length_iff]
      cases passes : forwarding.headers.passes "content-length" with
      | false => exact Or.inl ⟨body, rfl⟩
      | true => exact Or.inr (unambiguous.framed body passes)
    · rw [fields_eq]
      exact forwarding.hops_of_fields
    · rw [fields_eq, forall_mem_fields]
      refine ⟨?_, ?_, ?_⟩
      · intro entry member kept text other member' isConnection
        by_cases looked : forwarding.headers.connection.map asBytes = some other.2.bytes
        · rcases Option.map_eq_some_iff.mp looked with ⟨value, found, spelled⟩
          rw [Bool.eq_false_iff, ← spelled]
          intro listed
          rw [HeaderMap.strips_of_lists found listed] at kept
          cases kept
        · exact unambiguous.others entry member kept text other member' isConnection looked
      · exact fun none other member isConnection =>
          (unambiguous.added other member isConnection).1 none
      · exact fun some none other member isConnection =>
          (unambiguous.added other member isConnection).2 some none

/-- What is written is one request with the given body exactly when the fields that are passed
on frame it, the `Connection` headers that are not looked at list none of them, and neither the
path nor the host breaks a line. -/
theorem forwards_iff : forwarding.Forwards ↔ forwarding.Unambiguous := by
  have layout : buildRequestHead forwarding.method forwarding.path forwarding.headers
        forwarding.host forwarding.port forwarding.body.length ++ forwarding.body =
      asBytes forwarding.method.text ++ (space :: (asBytes forwarding.path ++
        ascii " HTTP/1.1")) ++
          (lineEnd ++ (forwarding.fields.flatMap Field.line ++ (lineEnd ++ forwarding.body))) := by
    rw [buildRequestHead_eq]
    simp only [List.append_assoc]
  constructor
  · intro forwards
    have succeeds : ∃ write', forwarding.send {} = (.ok (), write') := by
      rw [send, sendRequest]
      generalize buildRequestHead _ _ _ _ _ _ = head
      by_cases empty : forwarding.body = []
      · exact ⟨_, if_pos empty⟩
      · exact ⟨_, if_neg empty⟩
    rcases succeeds with ⟨write', succeeds⟩
    rcases forwards {} write' succeeds with
      ⟨bytes, request, sent, read, method_eq, target_eq, fields_eq, body_eq, framed⟩
    rcases readRequest_sound read with ⟨isTarget, unbroken, _⟩
    have target : IsTarget (asBytes forwarding.path) := target_eq ▸ isTarget
    have host : forwarding.headers.passes "host" = true ∨ Unbroken (asBytes forwarding.host) := by
      rw [fields_eq, forall_mem_fields] at unbroken
      cases passes : forwarding.headers.passes "host" with
      | true => exact Or.inl rfl
      | false => exact Or.inr (unbroken_host (unbroken.2.1 passes))
    exact (forwarding.framed_iff fields_eq target host).mp framed
  · intro unambiguous write write' succeeds
    have target := unambiguous.target
    have host := unambiguous.host
    have framed := (@framed_iff forwarding ⟨asBytes forwarding.method.text,
      asBytes forwarding.path, forwarding.fields.map Field.trimmed, forwarding.body⟩ rfl target
        host).mpr unambiguous
    refine ⟨_, _, forwarding.sent_of_send succeeds, ?_, rfl, rfl, rfl, rfl, framed⟩
    rw [layout, readRequest_lines forwarding.method.isToken_asBytes target
      (valid_of_mem_fields host), if_pos (forwarding.bodyLength_of_framed framed)]

end Forwarding

/-- A value with an ASCII text. -/
def HeaderValue.ofText (text : String) (small : IsAscii text)
    (unbroken : Unbroken (ascii text)) : HeaderValue where
  bytes := ascii text
  toStr := some text
  unbroken := unbroken
  spells := by
    rintro _ ⟨⟩
    exact asBytes_eq_ascii small

/-- The length that a client states beside a transfer coding. -/
def statedLength : Token × HeaderValue :=
  (⟨"content-length", by decide, by decide⟩, .ofText "5" (by decide) (by decide))

/-- A map that finds the first entry of a name. -/
def HeaderMap.ofEntries (entries : List (Token × HeaderValue)) : HeaderMap where
  iter := entries
  get name := (entries.find? fun entry => entry.1.lower = name).map Prod.snd

/-- The headers of a request in chunks that states a length of five. -/
def chunkedHeaders : HeaderMap :=
  .ofEntries [(⟨"host", by decide, by decide⟩, .ofText "example.org" (by decide) (by decide)),
    statedLength,
    (⟨"transfer-encoding", by decide, by decide⟩, .ofText "chunked" (by decide) (by decide))]

/-- The request, with three bytes in its chunks. -/
def chunkedRequest : Forwarding where
  method := ⟨"POST", by decide, by decide⟩
  path := "/"
  headers := chunkedHeaders
  host := "example.org"
  port := 80
  body := [97, 98, 99]

/-- The client's length is written in front of the three bytes. -/
theorem chunkedRequest_not_forwards : ¬ chunkedRequest.Forwards := by
  intro forwards
  rcases forwards {} _ rfl with ⟨_, request, _, _, _, _, fields_eq, _, framed⟩
  have lengths := framed.lengths
  rw [fields_eq, Forwarding.forall_mem_fields] at lengths
  have among : statedLength ∈ chunkedRequest.headers.iter :=
    List.mem_cons_of_mem _ List.mem_cons_self
  have stated := lengths.1 statedLength among (by decide) rfl
    ((Token.isNamed_iff _ (by decide) _).mpr (by decide))
  exact absurd stated (by decide)

end Corduit.Engine.Inbound.Forward
