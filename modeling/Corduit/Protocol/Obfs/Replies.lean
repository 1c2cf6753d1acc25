import Corduit.Protocol.Obfs.Reading
import Corduit.Protocol.Obfs.Requests

/-!
# Replies

A server's reply is a hello of a fixed length, a first record whose header is
only its length, and records with full headers.  The reader skips a header in
front of the second record and never again, so the third is out of step; and it
takes a close inside bytes that it skips for the end.  Up to there it delivers
what a reply carries, wherever the reply is cut off.
-/

namespace Corduit.Protocol.Obfs

open Text Transport Word

/-- Records, the first of them behind a header of its own. -/
def encodeRecords (header : List Byte) : List (List Byte) → List Byte
  | [] => []
  | payload :: payloads =>
      header ++ (u16Bytes payload.length ++ (payload ++ encodeRecords recordPrefix payloads))

/-- A server's hello and the payloads of its records. -/
structure Reply where
  hello : Octets tlsObfsServerHelloPrefix
  records : List (List Byte)

/-- The reply on the wire. -/
def Reply.encode (reply : Reply) : List Byte :=
  reply.hello.bytes ++ encodeRecords [] reply.records

/-- The payload among the first bytes of records whose first header has some
length. -/
def payloadWithin (header : Nat) : List (List Byte) → (available : Nat) → List Byte
  | [], _ => []
  | payload :: payloads, available =>
      payload.take (available - header) ++
        payloadWithin 5 payloads (available - header - payload.length)

/-- That many bytes of records end where a record ends. -/
def wholeAt (header : Nat) : (sizes : List Nat) → (available : Nat) → Bool
  | [], _ => true
  | size :: sizes, available =>
      available = 0 ∨ (header + size ≤ available ∧ wholeAt 5 sizes (available - header - size) = true)

/-- What a reply carries up to a cut. -/
def Reply.payload (reply : Reply) (cut : Nat) : List Byte :=
  payloadWithin 2 reply.records (cut - tlsObfsServerHelloPrefix)

/-- A reply cut there is not cut inside its hello, a header or a payload. -/
def endsWell (sizes : List Nat) (cut : Nat) : Bool :=
  cut = 0 ∨ (tlsObfsServerHelloPrefix ≤ cut ∧ wholeAt 2 sizes (cut - tlsObfsServerHelloPrefix) = true)

/-- The reader is in step up to the cut: it is not inside the hello, not within
the first three bytes of the second record, and not more than two bytes into the
third. -/
def InStep : (sizes : List Nat) → (cut : Nat) → Prop
  | first :: second :: more, cut =>
      (cut = 0 ∨ tlsObfsServerHelloPrefix ≤ cut) ∧
      ¬ (tlsObfsServerHelloPrefix + 2 + first < cut ∧
          cut ≤ tlsObfsServerHelloPrefix + 2 + first + tlsObfsRecordPrefix) ∧
      (more ≠ [] → cut ≤ tlsObfsServerHelloPrefix + 2 + first + 5 + second + 2)
  | _, cut => cut = 0 ∨ tlsObfsServerHelloPrefix ≤ cut

instance : (sizes : List Nat) → (cut : Nat) → Decidable (InStep sizes cut)
  | first :: second :: more, cut =>
      inferInstanceAs (Decidable ((cut = 0 ∨ tlsObfsServerHelloPrefix ≤ cut) ∧
        ¬ (tlsObfsServerHelloPrefix + 2 + first < cut ∧
            cut ≤ tlsObfsServerHelloPrefix + 2 + first + tlsObfsRecordPrefix) ∧
        (more ≠ [] → cut ≤ tlsObfsServerHelloPrefix + 2 + first + 5 + second + 2)))
  | [_], cut => inferInstanceAs (Decidable (cut = 0 ∨ tlsObfsServerHelloPrefix ≤ cut))
  | [], cut => inferInstanceAs (Decidable (cut = 0 ∨ tlsObfsServerHelloPrefix ≤ cut))

theorem payloadWithin_zero (header : Nat) (payloads : List (List Byte)) :
    payloadWithin header payloads 0 = [] := by
  induction payloads generalizing header with
  | nil => rfl
  | cons payload payloads ih =>
      rw [payloadWithin, Nat.zero_sub, Nat.zero_sub, List.take_zero, ih, List.nil_append]

variable {header available : Nat} {payload : List Byte} {payloads : List (List Byte)} {cut : Nat}

theorem payloadWithin_header (short : available ≤ header) (payloads : List (List Byte)) :
    payloadWithin header payloads available = [] := by
  cases payloads with
  | nil => rfl
  | cons payload payloads =>
      rw [payloadWithin, Nat.sub_eq_zero_of_le short, Nat.zero_sub, List.take_zero,
        payloadWithin_zero, List.nil_append]

theorem payloadWithin_inside (inside : available - header ≤ payload.length)
    (payloads : List (List Byte)) :
    payloadWithin header (payload :: payloads) available = payload.take (available - header) := by
  rw [payloadWithin, Nat.sub_eq_zero_of_le inside, payloadWithin_zero, List.append_nil]

theorem payloadWithin_behind (behind : header + payload.length ≤ available)
    (payloads : List (List Byte)) :
    payloadWithin header (payload :: payloads) available =
      payload ++ payloadWithin 5 payloads (available - header - payload.length) := by
  rw [payloadWithin, List.take_of_length_le (by omega)]

theorem wholeAt_zero (header : Nat) (sizes : List Nat) : wholeAt header sizes 0 = true := by
  cases sizes <;> simp [wholeAt]

theorem wholeAt_inside {header size available : Nat} (some : available ≠ 0)
    (inside : available < header + size) (sizes : List Nat) :
    wholeAt header (size :: sizes) available = false := by
  simp only [wholeAt, decide_eq_false_iff_not, not_or, not_and]
  exact ⟨some, fun behind => absurd behind (Nat.not_le.mpr inside)⟩

theorem wholeAt_behind {header size available : Nat} (positive : 0 < header)
    (behind : header + size ≤ available) (sizes : List Nat) :
    wholeAt header (size :: sizes) available = wholeAt 5 sizes (available - header - size) := by
  have some : available ≠ 0 := by omega
  rw [wholeAt, Bool.eq_iff_iff, decide_eq_true_iff]
  exact ⟨fun holds => (holds.resolve_left some).2, fun later => Or.inr ⟨behind, later⟩⟩

namespace Outlook

variable {skip available : Nat} {first : Bool} {header payload more text : List Byte}
  {clean : Bool}

theorem record_skipping (short : available ≤ skip) (bytes : List Byte) :
    Outlook 0 skip first [] (bytes.take available) [] true :=
  closed rfl rfl (Nat.le_trans (List.length_take_le _ _) short) rfl rfl

theorem take_header (wide : header.length = skip) (enough : skip ≤ available) (bytes : List Byte) :
    (header ++ bytes).take available = header ++ bytes.take (available - skip) := by
  rw [List.take_append, wide, List.take_of_length_le (by omega)]

theorem record_half (wide : header.length = skip) (half : available = skip + 1)
    (bytes : List Byte) : Outlook 0 skip first []
      ((header ++ (u16Bytes payload.length ++ bytes)).take available) [] false := by
  rw [take_header wide (by omega), half, Nat.add_sub_cancel_left]
  apply skipped wide
  refine short rfl rfl ?_ rfl rfl
  rw [List.length_take, List.length_append, length_u16Bytes, List.length_nil]
  omega

section

variable (wide : header.length = skip) (small : payload.length < 2 ^ 16)

include wide small

theorem record_opened (enough : skip + 2 ≤ available) {bytes : List Byte}
    (later : Outlook payload.length (if first then tlsObfsRecordPrefix else 0) false []
      (bytes.take (available - skip - 2)) text clean) :
    Outlook 0 skip first [] ((header ++ (u16Bytes payload.length ++ bytes)).take available) text
      clean := by
  rw [take_header wide (by omega)]
  apply skipped wide
  rw [take_header (length_u16Bytes _) (by omega)]
  refine opens rfl rfl (length_u16Bytes payload.length) rfl ?_
  rw [ofBeBytes_u16Bytes small]
  exact later

theorem record_inside (enough : skip + 2 ≤ available)
    (inside : available < skip + 2 + payload.length) (more : List Byte) : Outlook 0 skip first []
      ((header ++ (u16Bytes payload.length ++ (payload ++ more))).take available)
      (payload.take (available - (skip + 2))) false := by
  apply record_opened wide small enough
  have taken : (payload ++ more).take (available - skip - 2) =
      payload.take (available - (skip + 2)) := by
    rw [Nat.sub_sub, List.take_append_of_le_length (by omega)]
  rw [taken]
  refine owes ?_ rfl rfl
  rw [List.length_take]
  omega

theorem record_behind (behind : skip + 2 + payload.length ≤ available)
    (later : Outlook 0 (if first then tlsObfsRecordPrefix else 0) false []
      (more.take (available - (skip + 2) - payload.length)) text clean) :
    Outlook 0 skip first []
      ((header ++ (u16Bytes payload.length ++ (payload ++ more))).take available)
      (payload ++ text) clean := by
  apply record_opened wide small (by omega)
  have left : available - skip - 2 - payload.length = available - (skip + 2) - payload.length := by
    omega
  rw [take_header rfl (by omega), left]
  exact pay rfl later

end

theorem head_of_payload {size : Nat} (owed : 0 < size) {byte : Byte} {wire : List Byte}
    (outlook : Outlook size skip first [] (byte :: wire) text clean) :
    ∃ rest, text = byte :: rest := by
  cases outlook with
  | owes short same broken => exact ⟨wire, same⟩
  | @pays _ _ _ _ _ _ bytes wire' text' _ owed all split delivered later =>
      cases bytes with
      | nil => exact absurd owed (by rw [← all]; exact Nat.lt_irrefl 0)
      | cons head bytes =>
          injection split with same _
          exact ⟨bytes ++ text', by rw [delivered, same, List.cons_append]⟩
  | closed paid => exact absurd owed (by rw [paid]; exact Nat.lt_irrefl 0)
  | skips paid => exact absurd owed (by rw [paid]; exact Nat.lt_irrefl 0)
  | short paid => exact absurd owed (by rw [paid]; exact Nat.lt_irrefl 0)
  | opens paid => exact absurd owed (by rw [paid]; exact Nat.lt_irrefl 0)

end Outlook

/-- Up to two bytes of the third record, the reader delivers what the records
behind the second carry. -/
theorem outlook_third {available : Nat} (few : payloads ≠ [] → available ≤ 2) :
    Outlook 0 0 false [] ((encodeRecords recordPrefix payloads).take available)
      (payloadWithin 5 payloads available) (wholeAt 5 (payloads.map List.length) available) := by
  cases payloads with
  | nil => exact Outlook.closed rfl rfl (by simp [encodeRecords]) rfl rfl
  | cons payload payloads =>
      have few' := few (List.cons_ne_nil _ _)
      rw [payloadWithin_header (by omega)]
      rcases Nat.eq_zero_or_pos available with rfl | some
      · rw [wholeAt_zero]
        exact Outlook.record_skipping (Nat.le_refl 0) _
      · rw [List.map_cons, wholeAt_inside (Nat.ne_of_gt some) (by omega)]
        rcases (by omega : available = 1 ∨ available = 2) with rfl | rfl
        · exact Outlook.short rfl rfl rfl rfl rfl
        · refine @Outlook.opens _ _ _ _ _ _ [0x17, 0x03] [] _ rfl rfl rfl rfl ?_
          exact Outlook.owes (by decide) rfl rfl

theorem outlook_second (small : ∀ payload ∈ payloads, payload.length < 2 ^ 16) {available : Nat}
    (header : payloads ≠ [] → ¬ (0 < available ∧ available ≤ tlsObfsRecordPrefix))
    (few : ∀ second more, payloads = second :: more → more ≠ [] → available ≤ 5 + second.length + 2) :
    Outlook 0 tlsObfsRecordPrefix false [] ((encodeRecords recordPrefix payloads).take available)
      (payloadWithin 5 payloads available) (wholeAt 5 (payloads.map List.length) available) := by
  have skipped : tlsObfsRecordPrefix = 3 := rfl
  cases payloads with
  | nil => exact Outlook.closed rfl rfl (by simp [encodeRecords]) rfl rfl
  | cons payload payloads =>
      rw [List.forall_mem_cons] at small
      have header' := header (List.cons_ne_nil _ _)
      have few' := few payload payloads rfl
      have wide : recordPrefix.length = tlsObfsRecordPrefix := rfl
      rw [encodeRecords, List.map_cons]
      rcases Nat.eq_zero_or_pos available with rfl | some
      · rw [wholeAt_zero, payloadWithin_zero]
        exact Outlook.record_skipping (Nat.zero_le _) _
      · rcases Nat.lt_or_ge available (5 + payload.length) with inside | behind
        · rw [wholeAt_inside (Nat.ne_of_gt some) inside, payloadWithin_inside (by omega)]
          rcases (by omega : available = 4 ∨ 5 ≤ available) with half | enough
          · rw [half, List.take_zero]
            exact Outlook.record_half wide rfl _
          · exact Outlook.record_inside wide small.1 enough inside _
        · rw [wholeAt_behind (by decide) behind, payloadWithin_behind behind]
          apply Outlook.record_behind wide small.1 behind
          apply outlook_third
          intro more
          have bounded := few' more
          omega

theorem endsWell_of_le (started : tlsObfsServerHelloPrefix ≤ cut) (sizes : List Nat) :
    endsWell sizes cut = wholeAt 2 sizes (cut - tlsObfsServerHelloPrefix) := by
  have some : cut ≠ 0 := by
    rintro rfl
    exact absurd started (by decide)
  rw [endsWell, Bool.eq_iff_iff, decide_eq_true_iff]
  exact ⟨fun holds => (holds.resolve_left some).2, fun whole => Or.inr ⟨started, whole⟩⟩

/-- A reply that is cut while the reader is in step is delivered up to the cut. -/
theorem outlook_reply {reply : Reply} (small : ∀ payload ∈ reply.records, payload.length < 2 ^ 16)
    (inStep : InStep (reply.records.map List.length) cut) :
    Outlook 0 tlsObfsServerHelloPrefix true [] (reply.encode.take cut) (reply.payload cut)
      (endsWell (reply.records.map List.length) cut) := by
  rcases reply with ⟨hello, records⟩
  have wide := hello.length_bytes
  have greeting : tlsObfsServerHelloPrefix = 105 := rfl
  have skipped : tlsObfsRecordPrefix = 3 := rfl
  have started : cut = 0 ∨ tlsObfsServerHelloPrefix ≤ cut := by
    rcases records with _ | ⟨first, _ | ⟨second, more⟩⟩
    · exact inStep
    · exact inStep
    · exact inStep.1
  dsimp only [Reply.encode, Reply.payload] at small inStep ⊢
  rcases started with rfl | started
  · rw [Nat.zero_sub, payloadWithin_zero]
    exact Outlook.record_skipping (Nat.zero_le _) _
  · rw [endsWell_of_le started]
    cases records with
    | nil =>
        refine Outlook.closed rfl rfl ?_ rfl rfl
        rw [encodeRecords, List.append_nil]
        exact Nat.le_trans (List.length_take_le' _ _) (Nat.le_of_eq wide)
    | cons payload payloads =>
        rw [List.forall_mem_cons] at small
        rw [encodeRecords, List.nil_append, List.map_cons]
        rcases Nat.lt_or_ge cut (tlsObfsServerHelloPrefix + 2 + payload.length) with inside | behind
        · rcases Nat.eq_or_lt_of_le started with same | further
          · rw [← same, Nat.sub_self, wholeAt_zero, payloadWithin_zero]
            exact Outlook.record_skipping (Nat.le_refl _) _
          · rw [wholeAt_inside (by omega) (by omega), payloadWithin_inside (by omega)]
            rcases (by omega : cut = tlsObfsServerHelloPrefix + 1 ∨
                tlsObfsServerHelloPrefix + 2 ≤ cut) with half | enough
            · rw [half, Nat.add_sub_cancel_left, List.take_zero]
              exact Outlook.record_half wide rfl _
            · rw [Nat.sub_sub]
              exact Outlook.record_inside wide small.1 enough inside _
        · have left : cut - tlsObfsServerHelloPrefix - 2 - payload.length =
              cut - (tlsObfsServerHelloPrefix + 2) - payload.length := by omega
          rw [wholeAt_behind (by decide) (by omega), payloadWithin_behind (by omega), left]
          apply Outlook.record_behind wide small.1 behind
          rw [if_pos rfl]
          apply outlook_second small.2
          · intro more
            cases payloads with
            | nil => exact absurd rfl more
            | cons second more =>
                have apart := inStep.2.1
                omega
          · rintro second more rfl others
            have bounded := inStep.2.2 (by simpa using others)
            omega

theorem mem_payloadWithin {byte : Byte} (member : byte ∈ payloadWithin header payloads available) :
    ∃ payload ∈ payloads, byte ∈ payload := by
  induction payloads generalizing header available with
  | nil => exact absurd member List.not_mem_nil
  | cons payload payloads ih =>
      rcases List.mem_append.mp member with here | later
      · exact ⟨payload, List.mem_cons_self, List.mem_of_mem_take here⟩
      · rcases ih later with ⟨other, found, inside⟩
        exact ⟨other, List.mem_cons_of_mem _ found, inside⟩

/-- A reply whose payloads are all zeros. -/
def zeroReply (sizes : List Nat) : Reply :=
  ⟨Octets.filled _ 0, sizes.map fun size => List.replicate size 0⟩

theorem sizes_zeroReply (sizes : List Nat) :
    (zeroReply sizes).records.map List.length = sizes := by
  rw [zeroReply, List.map_map]
  refine (List.map_congr_left fun size _ => ?_).trans (List.map_id sizes)
  exact List.length_replicate

theorem three_not_mem_zeroReply (sizes : List Nat) (cut : Nat) :
    (0x03 : Byte) ∉ (zeroReply sizes).payload cut := by
  intro member
  rcases mem_payloadWithin member with ⟨payload, found, inside⟩
  rcases List.mem_map.mp found with ⟨size, _, rfl⟩
  exact absurd (List.eq_of_mem_replicate inside) (by decide)

theorem outlook_astray {available : Nat} (enough : 2 < available) :
    ∃ text clean, Outlook 0 0 false []
      ((encodeRecords recordPrefix (payload :: payloads)).take available) (0x03 :: text) clean := by
  rcases Nat.exists_eq_add_of_lt enough with ⟨more, rfl⟩
  generalize shape : (u16Bytes payload.length ++
    (payload ++ encodeRecords recordPrefix payloads)).take more = wire
  have three : recordPrefix.length = 3 := rfl
  have left : 2 + more + 1 - 3 = more := by omega
  have taken : (encodeRecords recordPrefix (payload :: payloads)).take (2 + more + 1) =
      [0x17, 0x03] ++ 0x03 :: wire := by
    rw [encodeRecords, Outlook.take_header three (by omega), left, shape]
    rfl
  rw [taken]
  rcases Outlook.exists_of_wire (ofBeBytes [0x17, 0x03]) (0x03 :: wire) with
    ⟨text, clean, outlook⟩
  rcases Outlook.head_of_payload (by decide) outlook with ⟨rest, rfl⟩
  exact ⟨rest, clean, @Outlook.opens _ _ _ _ _ _ [0x17, 0x03] _ _ rfl rfl rfl rfl outlook⟩

/-- Out of step, the reader makes something else of zeros than it should. -/
theorem outlook_zeroReply {sizes : List Nat} (small : ∀ size ∈ sizes, size < 2 ^ 16)
    (outOfStep : ¬ InStep sizes cut) :
    ∃ text clean, Outlook 0 tlsObfsServerHelloPrefix true [] ((zeroReply sizes).encode.take cut)
        text clean ∧
      ¬ (text = (zeroReply sizes).payload cut ∧ clean = endsWell sizes cut) := by
  have greeting : tlsObfsServerHelloPrefix = 105 := rfl
  have skipped : tlsObfsRecordPrefix = 3 := rfl
  by_cases started : cut = 0 ∨ tlsObfsServerHelloPrefix ≤ cut
  · rcases sizes with _ | ⟨first, _ | ⟨second, more⟩⟩
    · exact absurd started outOfStep
    · exact absurd started outOfStep
    · rw [List.forall_mem_cons, List.forall_mem_cons] at small
      have wide := (zeroReply (first :: second :: more)).hello.length_bytes
      have firstSmall : (List.replicate first (0 : Byte)).length < 2 ^ 16 := by
        rw [List.length_replicate]
        exact small.1
      have secondSmall : (List.replicate second (0 : Byte)).length < 2 ^ 16 := by
        rw [List.length_replicate]
        exact small.2.1
      by_cases apart : tlsObfsServerHelloPrefix + 2 + first < cut ∧
          cut ≤ tlsObfsServerHelloPrefix + 2 + first + tlsObfsRecordPrefix
      · refine ⟨List.replicate first 0 ++ [], true, ?_, ?_⟩
        · apply Outlook.record_behind wide firstSmall
          · rw [List.length_replicate]
            omega
          · apply Outlook.record_skipping
            rw [List.length_replicate, if_pos rfl]
            omega
        · rintro ⟨_, ends⟩
          rw [endsWell_of_le (by omega), wholeAt_behind (by decide) (by omega),
            wholeAt_inside (by omega) (by omega)] at ends
          exact absurd ends nofun
      · have third : more ≠ [] ∧
            tlsObfsServerHelloPrefix + 2 + first + 5 + second + 2 < cut := by
          by_contra few
          refine outOfStep ⟨started, apart, fun others => ?_⟩
          exact Nat.le_of_not_lt fun further => few ⟨others, further⟩
        rcases List.exists_cons_of_ne_nil third.1 with ⟨size, sizes, rfl⟩
        rcases @outlook_astray (List.replicate size 0) (sizes.map fun size => List.replicate size 0)
          (cut - (tlsObfsServerHelloPrefix + 2) - first - (tlsObfsRecordPrefix + 2) - second)
          (by omega) with ⟨text, clean, astray⟩
        refine ⟨List.replicate first 0 ++ (List.replicate second 0 ++ 0x03 :: text), clean, ?_, ?_⟩
        · apply Outlook.record_behind wide firstSmall
          · rw [List.length_replicate]
            omega
          · rw [List.length_replicate, if_pos rfl, List.map_cons, encodeRecords]
            have behind : recordPrefix.length = tlsObfsRecordPrefix := rfl
            apply Outlook.record_behind behind secondSmall
            · rw [List.length_replicate]
              omega
            · rw [List.length_replicate]
              exact astray
        · rintro ⟨same, _⟩
          refine three_not_mem_zeroReply (first :: second :: size :: sizes) cut ?_
          rw [← same]
          exact List.mem_append_right _ (List.mem_append_right _ List.mem_cons_self)
  · refine ⟨[], true, Outlook.record_skipping (by omega) _, ?_⟩
    rintro ⟨_, ends⟩
    rw [endsWell, eq_comm, decide_eq_true_iff] at ends
    exact started (ends.imp_right And.left)

/-- Every reply with records of these sizes is delivered up to the cut, whatever
its bytes, the schedule and the buffers. -/
def Reads (host : String) (sizes : List Nat) (cut : Nat) : Prop :=
  ∀ (reply : Reply) (polls : List Poll) (outgoing : Outgoing) (rooms : List Nat),
    reply.records.map List.length = sizes → Idles polls →
    ∃ stream answers later,
      TlsObfsStream.new ⟨reply.encode.take cut, polls⟩ outgoing host = some stream ∧
      session TlsObfsStream.read stream rooms = some (answers, later) ∧
      Tells (endsWell sizes cut) polls.length rooms answers (reply.payload cut)

/-- Whatever is written, in however many calls, is accepted and decodes to what
was written. -/
def Writes (host : String) : Prop :=
  ∀ (incoming : Incoming) (draw : Draw) (bufs : List (List Byte)),
    ∃ stream, TlsObfsStream.new incoming {} host = some stream ∧
      (stream.writeAll draw bufs).1 = bufs.map (fun buf => .ok buf.length) ∧
      decodeSent (stream.writeAll draw bufs).2.outgoing.sent = some bufs.flatten

theorem writes {host : String} (valid : validateObfsHost host = true) : Writes host := by
  intro incoming draw bufs
  exact ⟨_, if_pos valid, TlsObfsStream.writeAll_decoded valid rfl rfl draw bufs⟩

theorem ahead_new {incoming : Incoming} {outgoing : Outgoing} {host : String} {text : List Byte}
    {clean : Bool} (idles : Idles incoming.polls)
    (outlook : Outlook 0 tlsObfsServerHelloPrefix true [] incoming.wire text clean) :
    TlsObfsStream.Ahead ⟨incoming, outgoing, host, false, tlsObfsServerHelloPrefix,
      Scratch.zeroed 2, 0, true⟩ text clean :=
  ⟨rfl, Nat.zero_le _, idles, outlook⟩

section

variable {host : String} (valid : validateObfsHost host = true) {sizes : List Nat}
  (small : ∀ size ∈ sizes, size < 2 ^ 16) {cut : Nat}

include valid small

theorem reads (inStep : InStep sizes cut) :
    Reads host sizes cut := by
  rintro reply polls outgoing rooms rfl idles
  have small' : ∀ payload ∈ reply.records, payload.length < 2 ^ 16 :=
    fun payload member => small _ (List.mem_map_of_mem member)
  rcases TlsObfsStream.session_tells (@ahead_new ⟨reply.encode.take cut, polls⟩ outgoing host _ _
    idles (outlook_reply small' inStep)) rooms with
    ⟨answers, later, done, tells⟩
  exact ⟨_, answers, later, if_pos valid, done, tells⟩

/-- Out of step, a reply of zeros is not delivered. -/
theorem not_reads (outOfStep : ¬ InStep sizes cut) :
    ¬ Reads host sizes cut := by
  intro reads
  rcases outlook_zeroReply small outOfStep with ⟨text, clean, outlook, differs⟩
  have idles : Idles [] := nofun
  rcases reads (zeroReply sizes) [] {} (List.replicate
      (text.length + ((zeroReply sizes).payload cut).length + 1) 1)
      (sizes_zeroReply sizes) idles with ⟨stream, answers, later, opened, done, tells⟩
  rcases TlsObfsStream.session_tells (@ahead_new ⟨(zeroReply sizes).encode.take cut, []⟩ {} host _ _
    idles outlook)
    (List.replicate (text.length + ((zeroReply sizes).payload cut).length + 1) 1) with
    ⟨answers', later', done', tells'⟩
  have same : some stream = some _ := opened.symm.trans (if_pos valid)
  rw [Option.some.inj same, done'] at done
  have answered : answers' = answers := congrArg Prod.fst (Option.some.inj done)
  rw [answered] at tells'
  refine differs (Tells.unique tells' tells ?_ ?_)
  · intro room member
    rw [List.eq_of_mem_replicate member]
    exact Nat.one_ne_zero
  · rw [List.length_replicate]
    exact Nat.lt_succ_self _

end

/-- The stream carries both directions exactly when the reply is cut, or ends,
while its reader is in step. -/
theorem carries_iff {host : String} (valid : validateObfsHost host = true) {sizes : List Nat}
    (small : ∀ size ∈ sizes, size ≤ 65535) (cut : Nat) :
    (Reads host sizes cut ∧ Writes host) ↔ InStep sizes cut := by
  have small' : ∀ size ∈ sizes, size < 2 ^ 16 := fun size member =>
    Nat.lt_succ_of_le (small size member)
  constructor
  · intro carries
    by_contra outOfStep
    exact not_reads valid small' outOfStep carries.1
  · exact fun inStep => ⟨reads valid small' inStep, writes valid⟩

/-- Two records, one of them empty, and the end behind them. -/
theorem carries_two_records :
    Reads "example.com" [300, 0] 412 ∧ Writes "example.com" :=
  (carries_iff (by decide +kernel) (by decide) 412).mpr (by decide)

/-- A third record of one byte. -/
theorem third_record_not_read : ¬ Reads "example.com" [1, 1, 1] 120 :=
  not_reads (by decide +kernel) (by decide) (by decide)

end Corduit.Protocol.Obfs
