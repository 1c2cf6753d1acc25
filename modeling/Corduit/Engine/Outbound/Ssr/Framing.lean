import Corduit.Engine.Outbound.Ssr.Protocol

/-!
# Framing of ShadowsocksR

What a writer frames a reader gives back, however it is cut into pieces: every
frame names its own length and the length of its random prefix.  Whatever a peer
sends, the reader does not panic, accepts only frames that verify and keeps less
than a frame.
-/

namespace Corduit.Engine.Outbound.Ssr

open Word

/-- The payload of a frame stands between its random prefix and its last four
bytes. -/
def Placed (fromBytes : List Byte → Nat) (frame payload : List Byte) : Prop :=
  ∃ start, payloadStart fromBytes frame = some start ∧ start ≤ frame.length - 4 ∧
    payload = slice frame start (frame.length - 4 - start)

/-- A frame names its own length. -/
structure IsFrame (fromBytes : List Byte → Nat) (frame payload : List Byte) : Prop where
  long : 7 ≤ frame.length
  bounded : frame.length < MAX_FRAME
  declared : fromBytes (frame.take 2) = frame.length
  placed : Placed fromBytes frame payload

/-- The MACs of a frame of `auth_aes128` under the key of one frame. -/
structure VerifiesAes128 (hmac : (key data : List Byte) → Octets 64) (macKey frame : List Byte) :
    Prop where
  length : hmacTruncated hmac macKey (frame.take 2) 2 = slice frame 2 2
  whole : hmacTruncated hmac macKey (frame.take (frame.length - 4)) 4 =
    frame.drop (frame.length - 4)

theorem payloadStart_of_long (fromBytes : List Byte → Nat) {frame : List Byte}
    (long : 7 ≤ frame.length) : ∃ start, payloadStart fromBytes frame = some start := by
  have fourth : frame[4]? = some frame[4] := List.getElem?_eq_getElem (by omega)
  have fifth : frame[5]? = some frame[5] := List.getElem?_eq_getElem (by omega)
  have sixth : frame[6]? = some frame[6] := List.getElem?_eq_getElem (by omega)
  rw [payloadStart, fourth, Option.bind_eq_bind, Option.bind_some]
  by_cases short : frame[4].toNat < 255
  · exact ⟨_, if_pos short⟩
  · rw [if_neg short, fifth, sixth]
    exact ⟨_, rfl⟩

/-- A frame is opened: its payload comes out exactly when the frame is right and
its random prefix ends inside. -/
def Opens (opened : Option FoundFrame) (fromBytes : List Byte → Nat) (recvId : BitVec 32)
    (frame : List Byte) (right : Prop) : Prop :=
  ∃ found, opened = some found ∧ found ≠ .waits ∧ ∀ used payload state,
    found = .takes used payload state ↔
      used = frame.length ∧ state = recvId + 1 ∧ right ∧ Placed fromBytes frame payload

section Finding

variable {sums : Sums} {userKey frame : List Byte} {sha1 : Bool} {recvId : BitVec 32}

theorem opens_fails {fromBytes : List Byte → Nat} {error : Error} {state : BitVec 32}
    {right : Prop} (wrong : ¬right) :
    Opens (some (.fails error state)) fromBytes recvId frame right := by
  refine ⟨_, rfl, fun same => (nomatch same), fun used payload state => ?_⟩
  exact iff_of_false (fun same => (nomatch same)) fun rest => wrong rest.2.2.1

theorem openPayload_opens {name : String} {fromBytes : List Byte → Nat} {refusedId : BitVec 32}
    {right : Prop} (verified : right) (long : 7 ≤ frame.length) :
    Opens (openPayload name fromBytes refusedId recvId frame (frame.length - 4)) fromBytes recvId
      frame right := by
  rcases payloadStart_of_long fromBytes long with ⟨start, begins⟩
  have inside : frame.length - 4 ≤ frame.length := Nat.sub_le _ _
  simp only [openPayload, Option.bind_eq_bind]
  rw [begins, Option.bind_some]
  by_cases beyond : start > frame.length - 4
  · rw [if_pos beyond]
    refine ⟨_, rfl, fun same => (nomatch same), fun used payload state => ?_⟩
    refine iff_of_false (fun same => (nomatch same)) ?_
    rintro ⟨_, _, _, other, found, within, _⟩
    rw [begins] at found
    cases found
    exact absurd within (Nat.not_le_of_gt beyond)
  · rw [if_neg beyond, range?_of_le (Nat.le_of_not_gt beyond) inside, Option.bind_some]
    refine ⟨_, rfl, fun same => (nomatch same), fun used payload state => ?_⟩
    constructor
    · intro same
      cases same
      exact ⟨rfl, rfl, verified, start, begins, Nat.le_of_not_gt beyond, rfl⟩
    · rintro ⟨rfl, rfl, _, other, found, _, rfl⟩
      rw [begins] at found
      cases found
      rfl

/-- `auth_sha1_v4` opens a frame exactly when its checksum is right. -/
theorem openSha1_opens (long : 7 ≤ frame.length) :
    Opens (openSha1 sums recvId frame) ofBeBytes recvId frame
      (sums.adler32 (frame.take (frame.length - 4)) =
        BitVec.ofNat 32 (ofLeBytes (frame.drop (frame.length - 4)))) := by
  have inside : frame.length - 4 ≤ frame.length := Nat.sub_le _ _
  simp only [openSha1, Option.bind_eq_bind]
  rw [checkedSub_of_le (by omega), Option.bind_some, range?_drop inside, Option.bind_some,
    range?_take inside, Option.bind_some]
  by_cases right : sums.adler32 (frame.take (frame.length - 4)) =
      BitVec.ofNat 32 (ofLeBytes (frame.drop (frame.length - 4)))
  · rw [if_neg (not_not.mpr right)]
    exact openPayload_opens right long
  · rw [if_pos right]
    exact opens_fails right

/-- `auth_aes128` opens a frame exactly when both its MACs are right. -/
theorem openAes128_opens (long : 7 ≤ frame.length) :
    Opens (openAes128 sums userKey sha1 recvId frame) ofLeBytes recvId frame
      (VerifiesAes128 (sums.hmac sha1) (userKey ++ toLeBytes 4 recvId) frame) := by
  have inside : frame.length - 4 ≤ frame.length := Nat.sub_le _ _
  simp only [openAes128, Option.bind_eq_bind]
  rw [range?_take (by omega), Option.bind_some, range?_of_le (by omega) (by omega),
    Option.bind_some]
  by_cases length : hmacTruncated (sums.hmac sha1) (userKey ++ toLeBytes 4 recvId)
      (frame.take 2) 2 = slice frame 2 2
  · rw [if_neg (not_not.mpr length), checkedSub_of_le (by omega), Option.bind_some,
      range?_take inside, Option.bind_some, range?_drop inside, Option.bind_some]
    by_cases whole : hmacTruncated (sums.hmac sha1) (userKey ++ toLeBytes 4 recvId)
        (frame.take (frame.length - 4)) 4 = frame.drop (frame.length - 4)
    · rw [if_neg (not_not.mpr whole)]
      exact openPayload_opens ⟨length, whole⟩ long
    · rw [if_pos whole]
      exact opens_fails fun verifies => whole verifies.whole
  · rw [if_pos length]
    exact opens_fails fun verifies => length verifies.length

end Finding

/-- A reader finds the frames that verify: in every buffer it finds something,
it takes off just such frames, it waits for less than a frame, and less than
such a frame makes it wait. -/
structure FindsFrames (find : BitVec 32 → List Byte → Option FoundFrame)
    (verifies : BitVec 32 → (frame payload : List Byte) → Prop) : Prop where
  nonempty : ∀ recvId frame payload, verifies recvId frame payload → frame ≠ []
  idle : ∀ recvId, find recvId [] = some .waits
  total : ∀ recvId recvBuf, ∃ found, find recvId recvBuf = some found
  takes_iff : ∀ recvId recvBuf used payload state,
    find recvId recvBuf = some (.takes used payload state) ↔
      ∃ frame rest, recvBuf = frame ++ rest ∧ used = frame.length ∧ state = recvId + 1 ∧
        verifies recvId frame payload
  bounded : ∀ recvId recvBuf, find recvId recvBuf = some .waits → recvBuf.length < MAX_FRAME
  short : ∀ recvId frame payload, verifies recvId frame payload → ∀ front, front <+: frame →
    front ≠ frame → find recvId front = some .waits

theorem IsFrame.declared_append {fromBytes : List Byte → Nat} {frame payload : List Byte}
    (isFrame : IsFrame fromBytes frame payload) {front : List Byte} (long : 4 ≤ front.length)
    (within : front <+: frame) : fromBytes (front.take 2) = frame.length := by
  rcases within with ⟨rest, rfl⟩
  have declared := isFrame.declared
  rw [List.take_append_of_le_length (by omega)] at declared
  exact declared

theorem findsFrames_of_shape {find opening : BitVec 32 → List Byte → Option FoundFrame}
    {fromBytes : List Byte → Nat} {head : List Byte → Prop} {right : BitVec 32 → List Byte → Prop}
    (tiny : ∀ recvId recvBuf, recvBuf.length < 4 → find recvId recvBuf = some .waits)
    (wrong : ∀ recvId recvBuf, 4 ≤ recvBuf.length → ¬head (recvBuf.take 4) →
      ∃ error state, find recvId recvBuf = some (.fails error state))
    (outside : ∀ recvId recvBuf, 4 ≤ recvBuf.length → head (recvBuf.take 4) →
      ¬(7 ≤ fromBytes (recvBuf.take 2) ∧ fromBytes (recvBuf.take 2) < MAX_FRAME) →
      ∃ error state, find recvId recvBuf = some (.fails error state))
    (inside : ∀ recvId recvBuf, 4 ≤ recvBuf.length → head (recvBuf.take 4) →
      7 ≤ fromBytes (recvBuf.take 2) → fromBytes (recvBuf.take 2) < MAX_FRAME →
      find recvId recvBuf = if recvBuf.length < fromBytes (recvBuf.take 2) then some .waits
        else opening recvId (recvBuf.take (fromBytes (recvBuf.take 2))))
    (opens : ∀ recvId frame, 7 ≤ frame.length →
      Opens (opening recvId frame) fromBytes recvId frame (right recvId frame)) :
    FindsFrames find fun recvId frame payload =>
      head (frame.take 4) ∧ right recvId frame ∧ IsFrame fromBytes frame payload := by
  -- what is found in four bytes or more
  have looks : ∀ recvId recvBuf, 4 ≤ recvBuf.length →
      (∃ error state, find recvId recvBuf = some (.fails error state)) ∨
      head (recvBuf.take 4) ∧ 7 ≤ fromBytes (recvBuf.take 2) ∧
        fromBytes (recvBuf.take 2) < MAX_FRAME := by
    intro recvId recvBuf long
    by_cases heads : head (recvBuf.take 4)
    · by_cases bounds : 7 ≤ fromBytes (recvBuf.take 2) ∧ fromBytes (recvBuf.take 2) < MAX_FRAME
      · exact .inr ⟨heads, bounds⟩
      · exact .inl (outside recvId recvBuf long heads bounds)
    · exact .inl (wrong recvId recvBuf long heads)
  constructor
  case nonempty =>
    rintro recvId frame payload ⟨_, _, isFrame⟩ rfl
    exact absurd isFrame.long (by decide)
  case idle =>
    intro recvId
    exact tiny recvId [] (by decide)
  case total =>
    intro recvId recvBuf
    by_cases little : recvBuf.length < 4
    · exact ⟨_, tiny recvId recvBuf little⟩
    · rcases looks recvId recvBuf (Nat.le_of_not_lt little) with
        ⟨error, state, fails⟩ | ⟨heads, long, bounded⟩
      · exact ⟨_, fails⟩
      · rw [inside recvId recvBuf (Nat.le_of_not_lt little) heads long bounded]
        by_cases short : recvBuf.length < fromBytes (recvBuf.take 2)
        · exact ⟨_, if_pos short⟩
        · rw [if_neg short]
          have whole : 7 ≤ (recvBuf.take (fromBytes (recvBuf.take 2))).length := by
            rw [List.length_take_of_le (Nat.le_of_not_lt short)]
            exact long
          rcases opens recvId _ whole with ⟨found, opened, _⟩
          exact ⟨found, opened⟩
  case takes_iff =>
    intro recvId recvBuf used payload state
    constructor
    · intro takes
      by_cases little : recvBuf.length < 4
      · rw [tiny recvId recvBuf little] at takes
        cases takes
      · rcases looks recvId recvBuf (Nat.le_of_not_lt little) with
          ⟨error, state, fails⟩ | ⟨heads, long, bounded⟩
        · rw [fails] at takes
          cases takes
        · rw [inside recvId recvBuf (Nat.le_of_not_lt little) heads long bounded] at takes
          by_cases short : recvBuf.length < fromBytes (recvBuf.take 2)
          · rw [if_pos short] at takes
            cases takes
          · rw [if_neg short] at takes
            have length := List.length_take_of_le (Nat.le_of_not_lt short)
            have whole : 7 ≤ (recvBuf.take (fromBytes (recvBuf.take 2))).length := by
              rw [length]
              exact long
            rcases opens recvId _ whole with ⟨found, opened, _, accepts⟩
            rw [opened, Option.some_inj] at takes
            rcases (accepts _ _ _).mp takes with ⟨used_eq, state_eq, verified, placed⟩
            refine ⟨_, _, (List.take_append_drop (fromBytes (recvBuf.take 2)) recvBuf).symm,
              used_eq, state_eq, ?_, verified, whole, ?_, ?_, placed⟩
            · rw [List.take_take, Nat.min_eq_left (by omega)]
              exact heads
            · rw [length]
              exact bounded
            · rw [length, List.take_take, Nat.min_eq_left (by omega)]
    · rintro ⟨frame, rest, rfl, rfl, rfl, heads, verified, isFrame⟩
      have long := isFrame.long
      have four : (frame ++ rest).take 4 = frame.take 4 :=
        List.take_append_of_le_length (by omega)
      have two : (frame ++ rest).take 2 = frame.take 2 :=
        List.take_append_of_le_length (by omega)
      have enough : 4 ≤ (frame ++ rest).length := by
        rw [List.length_append]
        omega
      rw [inside recvId _ enough (by rw [four]; exact heads)
        (by rw [two, isFrame.declared]; exact long)
        (by rw [two, isFrame.declared]; exact isFrame.bounded), two, isFrame.declared,
        if_neg (by rw [List.length_append]; omega), List.take_left]
      rcases opens recvId frame long with ⟨found, opened, _, accepts⟩
      rw [opened, (accepts _ _ _).mpr ⟨rfl, rfl, verified, isFrame.placed⟩]
  case bounded =>
    intro recvId recvBuf waits
    by_cases little : recvBuf.length < 4
    · exact little.trans (by decide)
    · rcases looks recvId recvBuf (Nat.le_of_not_lt little) with
        ⟨error, state, fails⟩ | ⟨heads, long, bounded⟩
      · rw [fails] at waits
        cases waits
      · rw [inside recvId recvBuf (Nat.le_of_not_lt little) heads long bounded] at waits
        by_cases short : recvBuf.length < fromBytes (recvBuf.take 2)
        · exact short.trans bounded
        · rw [if_neg short] at waits
          have whole : 7 ≤ (recvBuf.take (fromBytes (recvBuf.take 2))).length := by
            rw [List.length_take_of_le (Nat.le_of_not_lt short)]
            exact long
          rcases opens recvId _ whole with ⟨found, opened, notWaits, _⟩
          rw [opened, Option.some_inj] at waits
          exact absurd waits notWaits
  case short =>
    rintro recvId frame payload ⟨heads, _, isFrame⟩ front within apart
    by_cases little : front.length < 4
    · exact tiny recvId front little
    · have enough := Nat.le_of_not_lt little
      have declared := isFrame.declared_append enough within
      have less : front.length < frame.length :=
        Nat.lt_of_le_of_ne within.length_le fun same => apart (within.eq_of_length same)
      rw [inside recvId front enough ?_ (by rw [declared]; exact isFrame.long)
        (by rw [declared]; exact isFrame.bounded), declared, if_pos less]
      rcases within with ⟨rest, rfl⟩
      rw [List.take_append_of_le_length enough] at heads
      exact heads

/-- The first check of `auth_sha1_v4`, of four bytes. -/
def HeadSha1 (sums : Sums) (front : List Byte) : Prop :=
  toLeBytes 2 ((sums.crc32 (front.take 2)).setWidth 16) = slice front 2 2
deriving Decidable

/-- The checksum of a frame of `auth_sha1_v4`. -/
def AdlerSha1 (sums : Sums) (frame : List Byte) : Prop :=
  sums.adler32 (frame.take (frame.length - 4)) =
    BitVec.ofNat 32 (ofLeBytes (frame.drop (frame.length - 4)))

/-- A frame verifies under a frame number, and carries a payload. -/
def SsrProtocol.Verifies (sums : Sums) (userKey : List Byte) :
    SsrProtocol → BitVec 32 → (frame payload : List Byte) → Prop
  | .origin, _, frame, payload => frame = payload
  | .authSha1V4, _, frame, payload =>
      HeadSha1 sums (frame.take 4) ∧ AdlerSha1 sums frame ∧ IsFrame ofBeBytes frame payload
  | .authAes128 sha1, recvId, frame, payload =>
      True ∧ VerifiesAes128 (sums.hmac sha1) (userKey ++ toLeBytes 4 recvId) frame ∧
        IsFrame ofLeBytes frame payload

/-- How a protocol looks for a frame. -/
def SsrProtocol.find (sums : Sums) (userKey : List Byte) :
    SsrProtocol → BitVec 32 → List Byte → Option FoundFrame
  | .origin => fun _ _ => some .waits
  | .authSha1V4 => findSha1 sums
  | .authAes128 sha1 => findAes128 sums userKey sha1

theorem findSha1_finds (sums : Sums) : FindsFrames (findSha1 sums) fun _ frame payload =>
    HeadSha1 sums (frame.take 4) ∧ AdlerSha1 sums frame ∧ IsFrame ofBeBytes frame payload := by
  have two : ∀ recvBuf : List Byte, (recvBuf.take 4).take 2 = recvBuf.take 2 := fun recvBuf => by
    rw [List.take_take, Nat.min_eq_left (by decide)]
  have next : ∀ recvBuf : List Byte, slice (recvBuf.take 4) 2 2 = slice recvBuf 2 2 :=
    fun recvBuf => by rw [slice, slice, List.drop_take, List.take_take, Nat.min_eq_left (by decide)]
  have looks : ∀ recvId (recvBuf : List Byte), 4 ≤ recvBuf.length → findSha1 sums recvId recvBuf =
      if ¬HeadSha1 sums (recvBuf.take 4) then
        some (.fails (frameError "auth_sha1_v4" "failed its CRC check") recvId)
      else if ¬(7 ≤ ofBeBytes (recvBuf.take 2) ∧ ofBeBytes (recvBuf.take 2) < MAX_FRAME) then
        some (.fails (frameError "auth_sha1_v4"
          ("length " ++ toString (ofBeBytes (recvBuf.take 2)) ++ " is out of range")) recvId)
      else if recvBuf.length < ofBeBytes (recvBuf.take 2) then some .waits
      else (range? recvBuf 0 (ofBeBytes (recvBuf.take 2))).bind (openSha1 sums recvId) := by
    intro recvId recvBuf enough
    simp only [findSha1, Option.bind_eq_bind]
    rw [if_neg (Nat.not_lt.mpr enough), range?_take (by omega), Option.bind_some,
      range?_of_le (by decide) enough, Option.bind_some]
    simp only [HeadSha1, two, next]
    rfl
  refine findsFrames_of_shape (fun recvId recvBuf little => if_pos little) ?_ ?_ ?_
    fun recvId frame long => openSha1_opens long
  · intro recvId recvBuf enough wrong
    rw [looks recvId recvBuf enough, if_pos wrong]
    exact ⟨_, _, rfl⟩
  · intro recvId recvBuf enough head outside
    rw [looks recvId recvBuf enough, if_neg (not_not.mpr head), if_pos outside]
    exact ⟨_, _, rfl⟩
  · intro recvId recvBuf enough head long bounded
    rw [looks recvId recvBuf enough, if_neg (not_not.mpr head),
      if_neg (not_not.mpr ⟨long, bounded⟩)]
    by_cases short : recvBuf.length < ofBeBytes (recvBuf.take 2)
    · rw [if_pos short, if_pos short]
    · rw [if_neg short, if_neg short, range?_take (Nat.le_of_not_lt short), Option.bind_some]

theorem findAes128_finds (sums : Sums) (userKey : List Byte) (sha1 : Bool) :
    FindsFrames (findAes128 sums userKey sha1) fun recvId frame payload =>
      True ∧ VerifiesAes128 (sums.hmac sha1) (userKey ++ toLeBytes 4 recvId) frame ∧
        IsFrame ofLeBytes frame payload := by
  have looks : ∀ recvId (recvBuf : List Byte), 4 ≤ recvBuf.length →
      findAes128 sums userKey sha1 recvId recvBuf =
      if ¬(7 ≤ ofLeBytes (recvBuf.take 2) ∧ ofLeBytes (recvBuf.take 2) < MAX_FRAME) then
        some (.fails (frameError "auth_aes128"
          ("length " ++ toString (ofLeBytes (recvBuf.take 2)) ++ " is out of range")) recvId)
      else if recvBuf.length < ofLeBytes (recvBuf.take 2) then some .waits
      else (range? recvBuf 0 (ofLeBytes (recvBuf.take 2))).bind
        (openAes128 sums userKey sha1 recvId) := by
    intro recvId recvBuf enough
    simp only [findAes128, Option.bind_eq_bind]
    rw [if_neg (Nat.not_lt.mpr enough), range?_take (by omega), Option.bind_some]
    rfl
  refine @findsFrames_of_shape _ _ _ (fun _ => True)
    (fun recvId frame => VerifiesAes128 (sums.hmac sha1) (userKey ++ toLeBytes 4 recvId) frame)
    (fun recvId recvBuf little => if_pos little) ?_ ?_ ?_
    fun recvId frame long => openAes128_opens long
  · intro recvId recvBuf _ wrong
    exact absurd trivial wrong
  · intro recvId recvBuf enough _ outside
    rw [looks recvId recvBuf enough, if_pos outside]
    exact ⟨_, _, rfl⟩
  · intro recvId recvBuf enough _ long bounded
    rw [looks recvId recvBuf enough, if_neg (not_not.mpr ⟨long, bounded⟩)]
    by_cases short : recvBuf.length < ofLeBytes (recvBuf.take 2)
    · rw [if_pos short, if_pos short]
    · rw [if_neg short, if_neg short, range?_take (Nat.le_of_not_lt short), Option.bind_some]

theorem SsrProtocol.find_finds (sums : Sums) (userKey : List Byte) {protocol : SsrProtocol}
    (auth : protocol ≠ .origin) :
    FindsFrames (protocol.find sums userKey) (protocol.Verifies sums userKey) := by
  cases protocol with
  | origin => exact absurd rfl auth
  | authSha1V4 => exact findSha1_finds sums
  | authAes128 sha1 => exact findAes128_finds sums userKey sha1

/-- Frames with their payloads verify under one frame number after the other. -/
def VerifiesAll (verifies : BitVec 32 → (frame payload : List Byte) → Prop) :
    BitVec 32 → List (List Byte × List Byte) → BitVec 32 → Prop
  | recvId, [], recvId' => recvId = recvId'
  | recvId, (frame, payload) :: frames, recvId' =>
      verifies recvId frame payload ∧ VerifiesAll verifies (recvId + 1) frames recvId'

section Reading

variable {verifies : BitVec 32 → (frame payload : List Byte) → Prop}
  {find : BitVec 32 → List Byte → Option FoundFrame} {recvId recvId' : BitVec 32}

theorem VerifiesAll.append {middle : BitVec 32} {first second : List (List Byte × List Byte)}
    (front : VerifiesAll verifies recvId first middle)
    (back : VerifiesAll verifies middle second recvId') :
    VerifiesAll verifies recvId (first ++ second) recvId' := by
  induction first generalizing recvId with
  | nil =>
      cases front
      exact back
  | cons entry first ih => exact ⟨front.1, ih front.2⟩

variable (finds : FindsFrames find verifies)

include finds

theorem verifiesAll_of_accepts {recvBuf pending : List Byte} {frames : List (List Byte × List Byte)}
    (accepts : Accepts find recvId recvBuf frames recvId' pending) :
    VerifiesAll verifies recvId frames recvId' := by
  induction frames generalizing recvId recvBuf with
  | nil => exact accepts.1
  | cons entry frames ih =>
      rcases entry with ⟨frame, payload⟩
      rcases accepts with ⟨middle, rest, rfl, takes, later⟩
      rcases (finds.takes_iff _ _ _ _ _).mp takes with
        ⟨other, behind, split, length, rfl, verified⟩
      have same : frame = other := (List.append_inj split length).1
      rw [same]
      exact ⟨verified, ih later⟩

/-- Frames that verify are found whatever follows them. -/
theorem delimitsAll_of_verifies {frames : List (List Byte × List Byte)}
    (verified : VerifiesAll verifies recvId frames recvId') :
    DelimitsAll find recvId frames recvId' := by
  induction frames generalizing recvId with
  | nil => exact verified
  | cons entry frames ih =>
      rcases entry with ⟨frame, payload⟩
      refine ⟨recvId + 1, ⟨?_, ?_, ?_⟩, ih verified.2⟩
      · exact finds.nonempty _ _ _ verified.1
      · intro rest
        exact (finds.takes_iff _ _ _ _ _).mpr ⟨frame, rest, rfl, rfl, rfl, verified.1⟩
      · exact finds.short _ _ _ verified.1

theorem VerifiesAll.behind {middle : BitVec 32} {done later : List (List Byte × List Byte)}
    (verified : VerifiesAll verifies recvId (done ++ later) recvId')
    (passed : DelimitsAll find recvId done middle) : VerifiesAll verifies middle later recvId' := by
  induction done generalizing recvId with
  | nil =>
      cases passed
      exact verified
  | cons entry done ih =>
      rcases passed with ⟨next, here, passed⟩
      have takes := here.whole []
      rcases (finds.takes_iff _ _ _ _ _).mp takes with ⟨_, _, _, _, rfl, _⟩
      exact ih verified.2 passed

end Reading

/-- What a call of `unwrap` may do with the bytes it has: it takes frames that
verify off them, appends their payloads, keeps the others, and when it succeeds
these are less than the longest frame. -/
structure UnwrapsSafely (sums : Sums) (state : SsrProtocolState) (buf : List Byte)
    (result : Unwrapped) (frames : List (List Byte × List Byte)) : Prop where
  split : state.recvBuf ++ buf = frames.flatMap Prod.fst ++ result.state.recvBuf
  out : result.out = frames.flatMap Prod.snd
  verified : ∃ recvId,
    VerifiesAll (state.protocol.Verifies sums state.userKey) state.recvId frames recvId
  bounded : result.ended = .ok () → result.state.recvBuf.length < MAX_FRAME
  kept : result.state =
    { state with recvBuf := result.state.recvBuf, recvId := result.state.recvId }

variable {state : SsrProtocolState}

theorem SsrProtocolState.unwrap_eq (sums : Sums) (auth : state.protocol ≠ .origin)
    (buf : List Byte) :
    state.unwrap sums buf = state.unwrapWith (state.protocol.find sums state.userKey) buf := by
  rw [SsrProtocolState.unwrap]
  cases protocol : state.protocol with
  | origin => exact absurd protocol auth
  | authSha1V4 => rfl
  | authAes128 sha1 => rfl

theorem SsrProtocolState.guardBuffer_of_lt (short : state.recvBuf.length < MAX_FRAME) :
    state.guardBuffer = .ok () := by
  rw [SsrProtocolState.guardBuffer, if_neg]
  exact Nat.not_lt.mpr (short.le.trans (by decide))

/-- Whatever the peer sends, `unwrap` returns, and does what it may. -/
theorem unwrap_spec (sums : Sums) (auth : state.protocol ≠ .origin) (buf : List Byte) :
    ∃ result frames, state.unwrap sums buf = some result ∧
      UnwrapsSafely sums state buf result frames := by
  have finds := SsrProtocol.find_finds sums state.userKey auth
  have uses : ∀ recvId recvBuf used payload recvId',
      state.protocol.find sums state.userKey recvId recvBuf = some (.takes used payload recvId') →
        0 < used ∧ used ≤ recvBuf.length := by
    intro recvId recvBuf used payload recvId' takes
    rcases (finds.takes_iff _ _ _ _ _).mp takes with ⟨frame, rest, rfl, rfl, _, verified⟩
    refine ⟨List.length_pos_iff.mpr (finds.nonempty _ _ _ verified), ?_⟩
    rw [List.length_append]
    exact Nat.le_add_right _ _
  rcases deframe_spec finds.total uses (Nat.lt_succ_self (state.recvBuf ++ buf).length)
    state.recvId with ⟨read, frames, middle, ran, accepts, items, ends⟩
  have out : read.items.flatten = frames.flatMap Prod.snd := by
    rw [items, ← List.flatMap_def]
  rw [SsrProtocolState.unwrap_eq sums auth, SsrProtocolState.unwrapWith, ran, Option.map_some]
  rcases ends with ⟨ended, _, waits⟩ | ⟨error, ended, _⟩
  · rw [ended]
    refine ⟨_, frames, rfl, accepts.split, out, ⟨middle, verifiesAll_of_accepts finds accepts⟩,
      fun _ => ?_, rfl⟩
    exact finds.bounded _ _ waits
  · rw [ended]
    exact ⟨_, frames, rfl, accepts.split, out, ⟨middle, verifiesAll_of_accepts finds accepts⟩,
      fun succeeded => (nomatch succeeded), rfl⟩

end Corduit.Engine.Outbound.Ssr
