import Corduit.Netstack.Dns.Names

/-!
# Answers echo the question

A response repeats the name of the query's question, written again from its text.
It comes out the same where the text has no empty part and its parts are short
enough to be labels; elsewhere the question of the response is another one, or
cannot be read.
-/

namespace Corduit.Netstack.Dns

open Text Transport Word

/-- What the handler answers a query with. -/
inductive Response where
  | address (ip : Ipv4Addr)
  | addresses (ips : List IpAddr) (ttl : BitVec 32)
  | nxdomain
  | servfail
  | empty

namespace Response

/-- The bytes of a response. -/
def bytes (fakeIpTtl : BitVec 32) (query : DnsQuery) : Response → List Byte
  | address ip => buildResponse fakeIpTtl query ip
  | addresses ips ttl => buildAddressResponse query ips ttl
  | nxdomain => buildNxdomain query
  | servfail => buildServfail query
  | empty => buildEmptyResponse query

/-- The header has room for the number of the answers. -/
def Counted : Response → Prop
  | addresses ips _ => ips.length < 65536
  | _ => True

/-- Every response is the question with addresses behind it. -/
theorem bytes_eq (fakeIpTtl : BitVec 32) (query : DnsQuery) (response : Response) :
    ∃ (flags : BitVec 16) (ttl : BitVec 32) (ips : List IpAddr),
      response.bytes fakeIpTtl query =
        respond flags (BitVec.ofNat 16 ips.length) query (ips.flatMap (addressRecord ttl)) ∧
      (response.Counted ↔ ips.length < 65536) := by
  cases response with
  | address ip =>
      refine ⟨0x8180, fakeIpTtl, [.v4 ip], ?_, ⟨fun _ => by simp, fun _ => trivial⟩⟩
      rw [List.flatMap_singleton]
      rfl
  | addresses ips ttl => exact ⟨0x8180, ttl, ips, rfl, Iff.rfl⟩
  | nxdomain => exact ⟨0x8183, 0, [], rfl, ⟨fun _ => by decide, fun _ => trivial⟩⟩
  | servfail => exact ⟨0x8182, 0, [], rfl, ⟨fun _ => by decide, fun _ => trivial⟩⟩
  | empty => exact ⟨0x8180, 0, [], rfl, ⟨fun _ => by decide, fun _ => trivial⟩⟩

end Response

/-- A field of two bytes. -/
def word (message : List Byte) (pos : Nat) : Nat :=
  ofBeBytes (slice message pos 2)

/-- From a position to the end of the message there are so many addresses of the
domain, each named by the pointer to the question and as long as its type says. -/
def Records (message : List Byte) (domain : String) : (count pos : Nat) → Prop
  | 0, pos => pos = message.length
  | count + 1, pos =>
      slice message pos 2 = [0xC0, 0x0C] ∧
        parseName message pos = some (.ok (domain, pos + 2)) ∧
        pos + 12 ≤ message.length ∧
        (word message (pos + 2) = 1 ∧ word message (pos + 10) = 4 ∨
          word message (pos + 2) = 28 ∧ word message (pos + 10) = 16) ∧
        Records message domain count (pos + 12 + word message (pos + 10))

/-- The message repeats the id and the question of the query, and its records are
those that its header counts. -/
def Echoes (data message : List Byte) : Prop :=
  ∃ domain offset offset',
    parseName data 12 = some (.ok (domain, offset)) ∧
      parseName message 12 = some (.ok (domain, offset')) ∧
      offset' + 4 ≤ message.length ∧
      word message 0 = word data 0 ∧
      word message 4 = 1 ∧ word message 8 = 0 ∧ word message 10 = 0 ∧
      (word data offset = 1 ∨ word data offset = 28 →
        word message offset' = word data offset) ∧
      word message (offset' + 2) = word data (offset + 2) ∧
      Records message domain (word message 6) (offset' + 4)

theorem word_lt (message : List Byte) (pos : Nat) : word message pos < 65536 := by
  have small := ofBeBytes_lt (slice message pos 2)
  have short : (slice message pos 2).length ≤ 2 := by
    rw [slice, List.length_take]
    exact Nat.min_le_left _ _
  exact small.trans_le (Nat.pow_le_pow_right (by decide) short)

theorem word_here {front back : List Byte} {value : BitVec 16} {pos : Nat}
    (place : front.length = pos) :
    word (front ++ (toBeBytes 2 value ++ back)) pos = value.toNat := by
  have written := ofBeBytes_toBeBytes 2 value
  rw [Nat.mod_eq_of_lt (value.isLt.trans_le (by decide))] at written
  rw [word, slice, ← place, List.drop_left,
    List.take_left' (length_toBeBytes 2 value), written]

theorem Records.count_unique {message : List Byte} {domain : String} {count count' pos : Nat}
    (records : Records message domain count pos) (records' : Records message domain count' pos) :
    count = count' := by
  induction count generalizing count' pos with
  | zero =>
      cases count' with
      | zero => rfl
      | succ count' =>
          have inside := records'.2.2.1
          have ended : pos = message.length := records
          omega
  | succ count ih =>
      cases count' with
      | zero =>
          have inside := records.2.2.1
          have ended : pos = message.length := records'
          omega
      | succ count' => rw [ih records.2.2.2.2 records'.2.2.2.2]

/-- The labels of the question as they are in the query. -/
def questionLabels (data : List Byte) : List (List Byte) :=
  match walkName id data 12 with
  | some (.ok (labels, _)) => labels
  | _ => []

/-- The parts of the texts of labels. -/
def textParts (labels : List (List Byte)) : List String :=
  labels.flatMap fun label => split '.' (fromUtf8Lossy label)

/-- The texts of the labels have no empty part, and their parts are labels that can
be written. -/
def Survives (labels : List (List Byte)) : Prop :=
  (∀ part ∈ textParts labels, part ≠ "") ∧ Fits ((textParts labels).map asBytes)
deriving Decidable

/-- The parts of a name that are written. -/
def pieces (name : String) : List String :=
  (split '.' name).filter fun part => !part.isEmpty

theorem ne_empty_of_mem_pieces {name piece : String} (member : piece ∈ pieces name) :
    piece ≠ "" := by
  have solid := (List.mem_filter.mp member).2
  rw [Bool.not_eq_true', ← Bool.not_eq_true, String.isEmpty_iff] at solid
  exact solid

theorem asBytes_ne_nil {text : String} (solid : text ≠ "") : asBytes text ≠ [] := by
  intro none
  rw [asBytes_eq_flatMap, List.flatMap_eq_nil_iff] at none
  apply solid
  apply String.toList_injective
  cases chars : text.toList with
  | nil => rfl
  | cons char rest =>
      have empty := none char (chars ▸ List.mem_cons_self)
      exact absurd (congrArg List.length empty) (Nat.ne_of_gt (length_charBytes char).1)

theorem filled_pieces (name : String) : ∀ label ∈ (pieces name).map asBytes, label ≠ [] := by
  intro label member
  rcases List.mem_map.mp member with ⟨piece, inside, rfl⟩
  exact asBytes_ne_nil (ne_empty_of_mem_pieces inside)

theorem encodeName_eq (name : String) :
    encodeName name = labelBytes ((pieces name).map asBytes) ++ [0] := by
  rw [encodeName, pieces, labelBytes, List.flatMap_map]
  congr 1
  induction split '.' name with
  | nil => rfl
  | cons part parts ih =>
      rw [List.flatMap_cons, ih, List.filter_cons]
      cases part.isEmpty with
      | true => rfl
      | false => rfl

theorem fromUtf8Lossy_ne_empty {bytes : List Byte} (some : bytes ≠ []) :
    fromUtf8Lossy bytes ≠ "" := by
  have length : bytes.length = bytes.length - 1 + 1 :=
    (Nat.succ_pred_eq_of_pos (List.length_pos_iff.mpr some)).symm
  rw [fromUtf8Lossy, length, fromUtf8LossyFrom, if_neg (by simpa using some)]
  intro empty
  cases first : firstCharacter bytes with
  | none =>
      rw [first] at empty
      exact absurd (String.append_eq_empty_iff.mp empty).1 (by decide)
  | some found =>
      rcases found with ⟨character, size⟩
      rw [first] at empty
      obtain rfl := (String.append_eq_empty_iff.mp empty).1
      rw [firstCharacter] at first
      rcases List.exists_of_findSome?_eq_some first with ⟨tried, member, found⟩
      split at found
      · rename_i inside
        rcases Option.map_eq_some_iff.mp found with ⟨text, decoded, pair⟩
        cases pair
        have none : [] = bytes.take size := fromUtf8_eq_some_iff.mp decoded
        have shorter := congrArg List.length none
        rw [List.length_take, Nat.min_eq_left inside, List.length_nil] at shorter
        rw [← shorter] at member
        exact absurd member (by decide)
      · cases found

theorem domain_of_parseName {data : List Byte} {domain : String} {offset : Nat}
    (named : parseName data 12 = some (.ok (domain, offset))) :
    domain = ".".intercalate ((questionLabels data).map fromUtf8Lossy) ∧
      ∀ label ∈ questionLabels data, label ≠ [] := by
  rw [parseName_eq] at named
  rw [questionLabels]
  cases walked : walkName id data 12 with
  | none =>
      rw [walked] at named
      cases named
  | some result =>
      rw [walked] at named
      cases result with
      | error error => cases named
      | ok found =>
          rcases found with ⟨labels, pos⟩
          cases named
          refine ⟨rfl, ?_⟩
          rw [walkName] at walked
          rcases Option.map_eq_some_iff.mp walked with ⟨⟨result, last⟩, done, rfl⟩
          exact ne_nil_of_loop (fun label member => absurd member List.not_mem_nil) done

section Texts

variable {labels : List (List Byte)}

theorem split_text (some : labels ≠ []) :
    split '.' (".".intercalate (labels.map fromUtf8Lossy)) = textParts labels := by
  have texts : labels.map fromUtf8Lossy ≠ [] := fun none => some (List.map_eq_nil_iff.mp none)
  rw [toString_dot, split_intercalate texts, List.flatMap_map]
  rfl

theorem pieces_text (labels : List (List Byte)) :
    pieces (".".intercalate (labels.map fromUtf8Lossy)) =
      (textParts labels).filter fun part => !part.isEmpty := by
  by_cases none : labels = []
  · rw [none]
    rfl
  · rw [pieces, split_text none]

theorem flatMap_split_pieces (name : String) : (pieces name).flatMap (split '.') = pieces name := by
  have alone : ∀ piece ∈ pieces name, split '.' piece = [piece] := fun piece member =>
    split_of_mem_split (List.mem_of_mem_filter member)
  rw [List.flatMap_congr alone]
  exact List.flatMap_singleton' _

theorem text_ne_empty (some : labels ≠ []) (filled : ∀ label ∈ labels, label ≠ []) :
    ".".intercalate (labels.map fromUtf8Lossy) ≠ "" := by
  intro empty
  cases labels with
  | nil => exact some rfl
  | cons label labels =>
      apply fromUtf8Lossy_ne_empty (filled label List.mem_cons_self)
      have chars := congrArg String.toList empty
      rw [toString_dot, toList_intercalate, List.map_cons, List.map_cons] at chars
      apply String.toList_injective
      by_cases last : labels = []
      · rw [last, List.map_nil, List.map_nil, List.intercalate_singleton] at chars
        exact chars
      · rw [List.intercalate_cons_of_ne_nil (by simpa using last), List.append_assoc] at chars
        exact (List.append_eq_nil_iff.mp chars).1

theorem intercalate_pieces_iff (filled : ∀ label ∈ labels, label ≠ []) :
    ".".intercalate (pieces (".".intercalate (labels.map fromUtf8Lossy))) =
        ".".intercalate (labels.map fromUtf8Lossy) ↔
      ∀ part ∈ textParts labels, part ≠ "" := by
  by_cases none : labels = []
  · rw [none]
    exact ⟨fun _ part member => absurd member List.not_mem_nil, fun _ => rfl⟩
  constructor
  · intro same part member
    have written : pieces (".".intercalate (labels.map fromUtf8Lossy)) ≠ [] := by
      intro blank
      rw [blank] at same
      exact text_ne_empty none filled same.symm
    have parts := (@split_intercalate '.' _ written).symm.trans (congrArg (split '.') same)
    rw [split_text none, flatMap_split_pieces] at parts
    rw [← parts] at member
    exact ne_empty_of_mem_pieces member
  · intro solid
    have all : pieces (".".intercalate (labels.map fromUtf8Lossy)) = textParts labels := by
      rw [pieces_text, List.filter_eq_self]
      intro part member
      rw [Bool.not_eq_true', ← Bool.not_eq_true, String.isEmpty_iff]
      exact solid part member
    rw [all, ← split_text none]
    exact intercalate_split _

theorem labels_survive_iff (filled : ∀ label ∈ labels, label ≠ []) :
    Survives labels ↔
      ".".intercalate (pieces (".".intercalate (labels.map fromUtf8Lossy))) =
          ".".intercalate (labels.map fromUtf8Lossy) ∧
        Fits ((pieces (".".intercalate (labels.map fromUtf8Lossy))).map asBytes) := by
  rw [intercalate_pieces_iff filled, Survives, pieces_text]
  refine and_congr_right fun solid => ?_
  rw [List.filter_eq_self.mpr]
  intro part member
  rw [Bool.not_eq_true', ← Bool.not_eq_true, String.isEmpty_iff]
  exact solid part member

end Texts

section Fields

variable {flags answers : BitVec 16} {query : DnsQuery} {records : List Byte}

theorem word_first (value : BitVec 16) (back : List Byte) :
    word (toBeBytes 2 value ++ back) 0 = value.toNat :=
  @word_here [] back value 0 rfl

theorem word_next (value : BitVec 16) (back : List Byte) (pos : Nat) :
    word (toBeBytes 2 value ++ back) (pos + 2) = word back pos := rfl

theorem respond_eq : respond flags answers query records =
    toBeBytes 2 query.id ++ (toBeBytes 2 flags ++ (toBeBytes 2 (1 : BitVec 16) ++
      (toBeBytes 2 answers ++ (toBeBytes 2 (0 : BitVec 16) ++ (toBeBytes 2 (0 : BitVec 16) ++
        (labelBytes ((pieces query.domain).map asBytes) ++ 0 ::
          (toBeBytes 2 query.qtype.toU16 ++ (toBeBytes 2 query.qclass ++ records)))))))) := by
  rw [respond, encodeName_eq]
  simp only [List.append_assoc, List.cons_append, List.nil_append]

theorem word_respond :
    word (respond flags answers query records) 0 = query.id.toNat ∧
      word (respond flags answers query records) 4 = 1 ∧
      word (respond flags answers query records) 6 = answers.toNat ∧
      word (respond flags answers query records) 8 = 0 ∧
      word (respond flags answers query records) 10 = 0 := by
  rw [respond_eq]
  refine ⟨word_first _ _, ?_, ?_, ?_, ?_⟩
  · rw [word_next _ _ 2, word_next _ _ 0, word_first]
    rfl
  · rw [word_next _ _ 4, word_next _ _ 2, word_next _ _ 0, word_first]
  · rw [word_next _ _ 6, word_next _ _ 4, word_next _ _ 2, word_next _ _ 0, word_first]
    rfl
  · rw [word_next _ _ 8, word_next _ _ 6, word_next _ _ 4, word_next _ _ 2, word_next _ _ 0,
      word_first]
    rfl

theorem drop_respond : (respond flags answers query records).drop 12 =
    labelBytes ((pieces query.domain).map asBytes) ++ 0 ::
      (toBeBytes 2 query.qtype.toU16 ++ (toBeBytes 2 query.qclass ++ records)) := by
  rw [respond_eq]
  rfl

theorem respond_split : ∃ front, front.length =
      12 + nameLength ((pieces query.domain).map asBytes) + 1 ∧
    respond flags answers query records =
      front ++ (toBeBytes 2 query.qtype.toU16 ++ (toBeBytes 2 query.qclass ++ records)) := by
  refine ⟨(respond flags answers query records).take 12 ++
    (labelBytes ((pieces query.domain).map asBytes) ++ [0]), ?_, ?_⟩
  · have long : (respond flags answers query records).length ≥ 12 := by
      rw [respond_eq]
      simp only [List.length_append, length_toBeBytes]
      omega
    rw [List.length_append, List.length_take, Nat.min_eq_left long, List.length_append,
      length_labelBytes]
    rfl
  · have whole := List.take_append_drop 12 (respond flags answers query records)
    rw [drop_respond] at whole
    rw [List.append_assoc, List.append_assoc, List.singleton_append]
    exact whole.symm

theorem word_addressRecord (ttl : BitVec 32) (ip : IpAddr) (front rest : List Byte) :
    word (front ++ (addressRecord ttl ip ++ rest)) (front.length + 2) =
        (addressData ip).1.toNat ∧
      word (front ++ (addressRecord ttl ip ++ rest)) (front.length + 10) =
        (addressData ip).2.1.toNat ∧
      (addressRecord ttl ip).length = 12 + (addressData ip).2.1.toNat := by
  have shape : ∀ pos, word (front ++ (addressRecord ttl ip ++ rest)) (front.length + pos) =
      word (addressRecord ttl ip ++ rest) pos := by
    intro pos
    rw [word, slice_skip (Nat.le_add_right _ _), Nat.add_sub_cancel_left, word]
  rw [shape, shape, addressRecord]
  simp only [List.append_assoc]
  refine ⟨?_, ?_, ?_⟩
  · rw [word_next _ _ 0, word_first]
  · rw [word_next _ _ 8, word_next _ _ 6, word_next _ _ 4]
    have skipped : ∀ back : List Byte, word (toBeBytes 4 ttl ++ back) 4 = word back 0 :=
      fun back => rfl
    rw [skipped, word_first]
  · cases ip with
    | v4 addr => simp [addressData]
    | v6 addr => simp [addressData]

/-- The answers of a response are the records that it counts, where the pointer is
read as the question's name. -/
theorem records_addresses {message front : List Byte} {domain : String} {ttl : BitVec 32}
    {ips : List IpAddr}
    (named : ∀ (pos : Nat) (tail : List Byte), message.drop pos = 0xC0 :: 0x0C :: tail →
      parseName message pos = some (.ok (domain, pos + 2)))
    (shape : message = front ++ ips.flatMap (addressRecord ttl)) :
    Records message domain ips.length front.length := by
  induction ips generalizing front with
  | nil =>
      rw [shape, List.flatMap_nil, List.append_nil]
      rfl
  | cons ip ips ih =>
      rw [List.flatMap_cons] at shape
      have words := word_addressRecord ttl ip front (ips.flatMap (addressRecord ttl))
      rw [← shape] at words
      have here : message.drop front.length =
          addressRecord ttl ip ++ ips.flatMap (addressRecord ttl) := by
        rw [shape, List.drop_left]
      have length := congrArg List.length shape
      rw [List.length_append, List.length_append, words.2.2] at length
      refine ⟨?_, named _ _ here, by omega, ?_, ?_⟩
      · rw [slice, here]
        rfl
      · rw [words.1, words.2.1]
        cases ip with
        | v4 addr => exact Or.inl ⟨rfl, rfl⟩
        | v6 addr => exact Or.inr ⟨rfl, rfl⟩
      · have rest := @ih (front ++ addressRecord ttl ip) (by rw [shape, List.append_assoc])
        rw [List.length_append, words.2.2] at rest
        rw [words.2.1, Nat.add_assoc]
        exact rest

end Fields

theorem parseQuery_eq_ok {data : List Byte} {query : DnsQuery}
    (accepted : parseQuery data = some (.ok query)) :
    ∃ offset, parseName data 12 = some (.ok (query.domain, offset)) ∧
      query.id.toNat = word data 0 ∧ query.qtype = DnsQueryType.fromU16 (word data offset) ∧
      query.qclass.toNat = word data (offset + 2) := by
  have small (pos : Nat) : (BitVec.ofNat 16 (word data pos)).toNat = word data pos := by
    rw [BitVec.toNat_ofNat, Nat.mod_eq_of_lt (word_lt data pos)]
  rw [parseQuery] at accepted
  by_cases short : data.length < 12
  · rw [if_pos short] at accepted
    cases accepted
  rw [if_neg short] at accepted
  by_cases response : data.getD 2 0 &&& 0x80 ≠ 0
  · rw [if_pos response] at accepted
    cases accepted
  rw [if_neg response] at accepted
  rcases Option.map_eq_some_iff.mp accepted with ⟨parsed, named, found⟩
  cases parsed with
  | error error => cases found
  | ok walked =>
      rcases walked with ⟨domain, offset⟩
      dsimp only at found
      by_cases cut : offset + 4 > data.length
      · rw [if_pos cut] at found
        cases found
      · rw [if_neg cut] at found
        cases found
        exact ⟨offset, named, small 0, rfl, small (offset + 2)⟩

theorem toU16_fromU16 {value : Nat} (address : value = 1 ∨ value = 28) :
    (DnsQueryType.fromU16 value).toU16.toNat = value := by
  rcases address with rfl | rfl
  · rfl
  · rfl

section Echo

variable {data : List Byte} {query : DnsQuery} {flags answers : BitVec 16} {ttl : BitVec 32}
  {ips : List IpAddr}

/-- A question that survives is repeated, with its answers, if the header counts them. -/
theorem echoes_respond (accepted : parseQuery data = some (.ok query))
    (survives : Survives (questionLabels data)) :
    Echoes data (respond flags (BitVec.ofNat 16 ips.length) query
        (ips.flatMap (addressRecord ttl))) ↔ ips.length < 65536 := by
  rcases parseQuery_eq_ok accepted with ⟨offset, named, id_eq, qtype_eq, qclass_eq⟩
  rcases domain_of_parseName named with ⟨domain_eq, filled⟩
  rw [labels_survive_iff filled, ← domain_eq] at survives
  rcases survives with ⟨same, fits⟩
  have written := filled_pieces query.domain
  have texts : ((pieces query.domain).map asBytes).map fromUtf8Lossy = pieces query.domain := by
    rw [List.map_map]
    exact (List.map_congr_left fun piece _ => fromUtf8Lossy_asBytes piece).trans (List.map_id _)
  generalize message_eq : respond flags (BitVec.ofNat 16 ips.length) query
    (ips.flatMap (addressRecord ttl)) = message
  have header := @word_respond flags (BitVec.ofNat 16 ips.length) query
    (ips.flatMap (addressRecord ttl))
  have question := @drop_respond flags (BitVec.ofNat 16 ips.length) query
    (ips.flatMap (addressRecord ttl))
  rcases @respond_split flags (BitVec.ofNat 16 ips.length) query
    (ips.flatMap (addressRecord ttl)) with ⟨front, place, shape⟩
  rw [message_eq] at header question shape
  have read := parseName_labels written fits question
  have pointed := fun (pos : Nat) (tail : List Byte) =>
    @parseName_pointer message _ pos _ tail written fits question
  rw [texts, same] at read
  rw [texts, same] at pointed
  have shape' : message = (front ++ (toBeBytes 2 query.qtype.toU16 ++ toBeBytes 2 query.qclass)) ++
      ips.flatMap (addressRecord ttl) := by
    rw [shape, List.append_assoc, List.append_assoc]
  have records := records_addresses pointed shape'
  have behind : (front ++ (toBeBytes 2 query.qtype.toU16 ++ toBeBytes 2 query.qclass)).length =
      12 + nameLength ((pieces query.domain).map asBytes) + 1 + 4 := by
    rw [List.length_append, List.length_append, length_toBeBytes, length_toBeBytes, place]
  rw [behind] at records
  constructor
  · rintro ⟨domain, _, offset', there, read', _, _, _, _, _, _, _, counted⟩
    rw [named] at there
    cases there
    rw [read] at read'
    cases read'
    have number := records.count_unique counted
    rw [header.2.2.1, BitVec.toNat_ofNat] at number
    omega
  · intro few
    refine ⟨query.domain, offset, _, named, read, ?_, header.1.trans id_eq, header.2.1,
      header.2.2.2.1, header.2.2.2.2, fun address => ?_, ?_, ?_⟩
    · rw [shape', List.length_append, behind]
      exact Nat.le_add_right _ _
    · rw [shape, word_here place, qtype_eq, toU16_fromU16 address]
    · have class_place : (front ++ toBeBytes 2 query.qtype.toU16).length =
          12 + nameLength ((pieces query.domain).map asBytes) + 1 + 2 := by
        rw [List.length_append, length_toBeBytes, place]
      rw [shape, ← List.append_assoc, word_here class_place, qclass_eq]
    · rw [header.2.2.1, BitVec.toNat_ofNat, Nat.mod_eq_of_lt few]
      exact records

theorem survives_of_echoes (accepted : parseQuery data = some (.ok query))
    (echoes : Echoes data (respond flags 0 query [])) : Survives (questionLabels data) := by
  rcases parseQuery_eq_ok accepted with ⟨offset, named, _⟩
  rcases domain_of_parseName named with ⟨domain_eq, filled⟩
  rw [labels_survive_iff filled, ← domain_eq]
  have written := filled_pieces query.domain
  rcases echoes with ⟨domain, _, offset', there, read, _, _, _, _, _, _, _, records⟩
  rw [named] at there
  cases there
  have header := @word_respond flags 0 query []
  have question := @drop_respond flags 0 query []
  generalize respond flags 0 query [] = message at *
  rw [header.2.2.1] at records
  have ended : offset' + 4 = message.length := records
  have fits : Fits ((pieces query.domain).map asBytes) := by
    by_contra unfit
    rw [parseName, walkName] at read
    rcases Option.map_eq_some_iff.mp read with ⟨result, walked, found⟩
    rcases Option.map_eq_some_iff.mp walked with ⟨⟨result', last⟩, done, rfl⟩
    cases result' with
    | error error => cases found
    | ok labelled =>
        rcases labelled with ⟨labels, pos⟩
        obtain rfl : pos = offset' := congrArg Prod.snd (Except.ok.inj found)
        have early := @offset_lt_of_not_fits String fromUtf8Lossy message
          ((pieces query.domain).map asBytes) ⟨[], 12, false, 0, 0, 0⟩ last _ pos labels _
          rfl written question rfl (Nat.zero_le _)
          (fun fits => unfit ⟨fits.1, by rw [← Nat.zero_add (nameLength _)]; exact fits.2⟩) done
        omega
  refine ⟨?_, fits⟩
  have decoded := parseName_labels written fits question
  have texts : ((pieces query.domain).map asBytes).map fromUtf8Lossy = pieces query.domain := by
    rw [List.map_map]
    exact (List.map_congr_left fun piece _ => fromUtf8Lossy_asBytes piece).trans (List.map_id _)
  rw [texts, read] at decoded
  exact (congrArg Prod.fst (Except.ok.inj (Option.some.inj decoded))).symm

end Echo

/-- The responses whose answers the header counts echo the question of an accepted
datagram exactly where its labels survive; there the others do not. -/
theorem responses_echo_iff {data : List Byte} {query : DnsQuery} (fakeIpTtl : BitVec 32)
    (accepted : parseQuery data = some (.ok query)) :
    ((∀ response : Response, response.Counted →
        Echoes data (response.bytes fakeIpTtl query)) ↔ Survives (questionLabels data)) ∧
      (Survives (questionLabels data) → ∀ response : Response,
        Echoes data (response.bytes fakeIpTtl query) ↔ response.Counted) := by
  have counted : Survives (questionLabels data) → ∀ response : Response,
      (Echoes data (response.bytes fakeIpTtl query) ↔ response.Counted) := by
    intro survives response
    rcases response.bytes_eq fakeIpTtl query with ⟨flags, ttl, ips, bytes_eq, few⟩
    rw [bytes_eq, few]
    exact echoes_respond accepted survives
  refine ⟨⟨fun echoes => ?_, fun survives response => (counted survives response).mpr⟩, counted⟩
  exact survives_of_echoes accepted (echoes .nxdomain trivial)

/-- A query whose only label is `ab`. -/
def plainQuery : List Byte :=
  [0x12, 0x34, 0x01, 0x00, 0x00, 0x01, 0x00, 0x00, 0x00, 0x00, 0x00, 0x00,
    0x02, 0x61, 0x62, 0x00, 0x00, 0x01, 0x00, 0x01]

theorem plainQuery_echo_iff :
    ((∀ response : Response, response.Counted →
        Echoes plainQuery (response.bytes 1 ⟨0x1234, "ab", .a, 1⟩)) ↔
      Survives (questionLabels plainQuery)) ∧
      (Survives (questionLabels plainQuery) → ∀ response : Response,
        Echoes plainQuery (response.bytes 1 ⟨0x1234, "ab", .a, 1⟩) ↔ response.Counted) :=
  responses_echo_iff 1 (by decide +kernel)

/-- A query whose only label is `a.`. -/
def dottedQuery : List Byte :=
  [0x12, 0x34, 0x01, 0x00, 0x00, 0x01, 0x00, 0x00, 0x00, 0x00, 0x00, 0x00,
    0x02, 0x61, 0x2E, 0x00, 0x00, 0x01, 0x00, 0x01]

/-- The query is accepted, and the answer to it is about `a`. -/
theorem dottedQuery_not_echoed :
    parseQuery dottedQuery = some (.ok ⟨0x1234, "a.", .a, 1⟩) ∧
      ¬Echoes dottedQuery (buildNxdomain ⟨0x1234, "a.", .a, 1⟩) := by
  refine ⟨by decide +kernel, ?_⟩
  rintro ⟨domain, offset, offset', asked, answered, _⟩
  have question : parseName dottedQuery 12 = some (.ok ("a.", 16)) := by decide +kernel
  have answer : parseName (buildNxdomain ⟨0x1234, "a.", .a, 1⟩) 12 = some (.ok ("a", 15)) := by
    decide +kernel
  rw [question] at asked
  rw [answer] at answered
  cases asked
  have same : "a" = "a." := congrArg Prod.fst (Except.ok.inj (Option.some.inj answered))
  exact absurd same (by decide)

end Corduit.Netstack.Dns
