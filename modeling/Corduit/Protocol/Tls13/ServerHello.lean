import Corduit.Protocol.Tls13.Core
import Corduit.Transition.Core
import Corduit.Word.Checked
import Corduit.Word.Vectors

/-!
# TLS 1.3: what a ServerHello is

The parser of a ServerHello indexes the bytes at places that it counts on.  No
place is outside of them, and what it returns is what the parser of the bodies
returns, which takes the same fields off the front.

A ServerHello is laid out, and a genuine one is one that a server of TLS 1.3
sends.  The parser leaves out some of what makes a message genuine, and it is
right on every body that does not come to one of these.
-/

namespace Corduit.Protocol.Tls13

open Transition Word

/-- `supported_versions`. -/
def EXT_SUPPORTED_VERSIONS : Nat := 0x002b

namespace Places

/-- `u16::from_be_bytes([bytes[place], bytes[place + 1]])`. -/
def u16At (bytes : List Byte) (place : Nat) : Except (Halt Tls13Error) Nat := do
  let high ← Checked.index bytes place
  let low ← Checked.index bytes (place + 1)
  return ofBeBytes [high, low]

/-- The loop of `parse_extensions`, with the place where it ends. -/
def extensionsFrom (buf : List Byte) (stop : Nat) : (bound : Nat) → (pos : Nat) →
    Except (Halt Tls13Error) (List (Nat × List Byte) × Nat)
  | 0, _ => .error .unending
  | bound + 1, pos =>
      if pos < stop then do
        let left ← Checked.sub stop pos
        if left < 4 then
          .error (.fails (.protocol "truncated extension"))
        else
          let extType ← u16At buf pos
          let extLen ← u16At buf (pos + 2)
          let left ← Checked.sub stop (pos + 4)
          if left < extLen then
            .error (.fails (.protocol "truncated extension body"))
          else
            let data ← Checked.range buf (pos + 4) (pos + 4 + extLen)
            let later ← extensionsFrom buf stop bound (pos + 4 + extLen)
            return ((extType, data) :: later.1, later.2)
      else
        return ([], pos)

/-- The extensions at a place. -/
def parseExtensions (buf : List Byte) (pos : Nat) :
    Except (Halt Tls13Error) (List (Nat × List Byte) × Nat) := do
  let left ← Checked.sub buf.length pos
  if left < 2 then
    .error (.fails (.protocol "truncated extension block"))
  else
    let total ← u16At buf pos
    let left ← Checked.sub buf.length (pos + 2)
    if left < total then
      .error (.fails (.protocol "truncated extension block"))
    else
      extensionsFrom buf (pos + 2 + total) (total + 1) (pos + 2)

/-- The part of `parse_server_hello` behind the extensions. -/
def parseKeyShare (exts : List (Nat × List Byte)) : Except (Halt Tls13Error) (List Byte) := do
  let found ← Checked.okOr (.protocol "ServerHello missing key_share")
    (exts.find? fun entry => entry.1 = EXT_KEY_SHARE)
  let keyShare := found.2
  if keyShare.length < 4 then
    .error (.fails (.unsupported "ServerHello key_share is not X25519"))
  else
    let group ← Checked.range keyShare 0 2
    if group ≠ GROUP_X25519 then
      .error (.fails (.unsupported "ServerHello key_share is not X25519"))
    else
      let keyLen ← u16At keyShare 2
      if keyShare.length < 4 + keyLen ∨ keyLen ≠ 32 then
        .error (.fails (.protocol "invalid ServerHello key_share"))
      else
        Checked.range keyShare 4 36

/-- The parser with its indices checked. -/
def parseServerHello (body : List Byte) : Except (Halt Tls13Error) ServerHello :=
  if body.length < 35 then
    .error (.fails (.protocol "truncated ServerHello"))
  else do
    let random ← Checked.range body 2 34
    if random = HRR_RANDOM then
      .error (.fails (.unsupported
        "server sent HelloRetryRequest (this client offers a single X25519 key share)"))
    else
      let ending ← Checked.range random 24 random.length
      if ending = DOWNGRADE_TLS12 then
        .error (.fails (.unsupported "server signals a TLS 1.2 downgrade; refusing TLS 1.2"))
      else
        let sidLen := (← Checked.index body 34).toNat
        if body.length < 35 + sidLen + 3 then
          .error (.fails (.protocol "truncated ServerHello"))
        else
          let legacySessionIdEcho ← Checked.range body 35 (35 + sidLen)
          let pos := 35 + sidLen
          let suite ← u16At body pos
          let pos := pos + 2
          if !isSupportedSuite suite then
            .error (.fails (.unsupported
              ("server selected unsupported cipher suite 0x" ++ hex4 suite)))
          else
            let method ← Checked.index body pos
            if method ≠ 0x00 then
              .error (.fails (.protocol "server selected a compression method"))
            else
              let exts ← parseExtensions body (pos + 1)
              let keyShare ← parseKeyShare exts.1
              return ⟨legacySessionIdEcho, suite, keyShare⟩

section Inside

variable {bytes : List Byte} {place : Nat}

theorem index_of_lt (inside : place < bytes.length) :
    (Checked.index bytes place : Except (Halt Tls13Error) Byte) = .ok (bytes.getD place 0) := by
  rw [Checked.index, List.getElem?_eq_getElem inside, List.getD_eq_getElem?_getD,
    List.getElem?_eq_getElem inside]
  rfl

theorem slice_two (inside : place + 2 ≤ bytes.length) :
    slice bytes place 2 = [bytes.getD place 0, bytes.getD (place + 1) 0] := by
  have first : place < bytes.length := by omega
  have second : place + 1 < bytes.length := by omega
  rw [slice, List.drop_eq_getElem_cons first, List.drop_eq_getElem_cons second]
  simp only [List.take_succ_cons, List.take_zero]
  simp [List.getD_eq_getElem?_getD, first, second]

theorem u16At_of_le (inside : place + 2 ≤ bytes.length) :
    u16At bytes place = .ok (ofBeBytes (slice bytes place 2)) := by
  rw [u16At, index_of_lt (by omega), index_of_lt (by omega), slice_two inside]
  rfl

end Inside

/-- What the parser of a body returns, as a computation that could have panicked. -/
def returned {α : Type} (parsed : Except Tls13Error α) : Except (Halt Tls13Error) α :=
  parsed.mapError .fails

variable {α : Type}

@[simp]
theorem returned_ok (value : α) : returned (.ok value) = .ok value :=
  rfl

@[simp]
theorem returned_error (error : Tls13Error) :
    returned (.error error : Except Tls13Error α) = .error (.fails error) :=
  rfl

theorem returned_bind {α β : Type} (parsed : Except Tls13Error α)
    (next : α → Except Tls13Error β) :
    returned (parsed >>= next) = returned parsed >>= fun value => returned (next value) := by
  cases parsed with
  | error error => rfl
  | ok value => rfl

theorem returned_eq_ok_iff {parsed : Except Tls13Error α} {value : α} :
    returned parsed = .ok value ↔ parsed = .ok value := by
  cases parsed with
  | error error => simp
  | ok value => simp

theorem returns_returned (parsed : Except Tls13Error α) :
    Checked.Returns (returned parsed) := by
  cases parsed with
  | error error => exact .fails error
  | ok value => exact .ok trivial

theorem extensionsFrom_eq {buf : List Byte} {stop : Nat} (inside : stop ≤ buf.length)
    {bound pos : Nat} (ordered : pos ≤ stop) (enough : stop - pos ≤ bound) :
    extensionsFrom buf stop (bound + 1) pos =
      (returned (parseExtensionsFrom bound (slice buf pos (stop - pos)))).map (·, stop) := by
  induction bound generalizing pos with
  | zero =>
      obtain rfl : pos = stop := by omega
      rw [extensionsFrom, if_neg (Nat.lt_irrefl pos)]
      rfl
  | succ bound ih =>
      have long : (slice buf pos (stop - pos)).length = stop - pos := length_slice (by omega)
      rw [extensionsFrom, parseExtensionsFrom, long]
      by_cases left : pos < stop
      · have nonempty : ¬ (slice buf pos (stop - pos)).isEmpty := by
          rw [List.isEmpty_iff_length_eq_zero, long]
          omega
        rw [if_pos left, if_neg nonempty, Checked.sub_of_le ordered, Checked.ok_bind]
        by_cases short : stop - pos < 4
        · rw [if_pos short, if_pos short]
          rfl
        · rw [if_neg short, if_neg short, u16At_of_le (by omega), u16At_of_le (by omega),
            slice_slice (by omega), slice_slice (by omega), Checked.sub_of_le (by omega)]
          simp only [Checked.ok_bind, Nat.add_zero, Nat.sub_add_eq]
          by_cases body : stop - pos - 4 < ofBeBytes (slice buf (pos + 2) 2)
          · rw [if_pos body, if_pos body]
            rfl
          · have behind : stop - (pos + 4 + ofBeBytes (slice buf (pos + 2) 2)) =
                stop - pos - (4 + ofBeBytes (slice buf (pos + 2) 2)) := by omega
            rw [if_neg body, if_neg body, Checked.range_of_le (by omega) (by omega),
              Nat.add_sub_cancel_left, slice_slice (by omega), drop_slice, Checked.ok_bind,
              ih (by omega) (by omega), behind, ← Nat.add_assoc]
            cases parseExtensionsFrom bound (slice buf (pos + 4 + ofBeBytes (slice buf (pos + 2) 2))
              (stop - pos - (4 + ofBeBytes (slice buf (pos + 2) 2)))) with
            | error error => rfl
            | ok later => rfl
      · obtain rfl : pos = stop := by omega
        rw [if_neg left, Nat.sub_self]
        rfl

theorem parseExtensions_eq {buf : List Byte} {pos : Nat} (inside : pos ≤ buf.length) :
    (parseExtensions buf pos).map Prod.fst = returned (Tls13.parseExtensions (buf.drop pos)) := by
  rw [parseExtensions, Tls13.parseExtensions, Checked.sub_of_le inside, Checked.ok_bind,
    List.length_drop]
  by_cases short : buf.length - pos < 2
  · rw [if_pos short, if_pos short]
    rfl
  · have front : slice (buf.drop pos) 0 2 = slice buf pos 2 := by
      rw [slice, slice, List.drop_zero]
    have rest (total : Nat) : slice (buf.drop pos) 2 total = slice buf (pos + 2) total := by
      rw [slice, slice, List.drop_drop]
    rw [if_neg short, if_neg short, u16At_of_le (by omega), Checked.sub_of_le (by omega), front,
      Checked.ok_bind, Checked.ok_bind, Nat.sub_add_eq]
    dsimp only
    rw [rest]
    by_cases long : buf.length - pos - 2 < ofBeBytes (slice buf pos 2)
    · rw [if_pos long, if_pos long]
      rfl
    · rw [if_neg long, if_neg long, extensionsFrom_eq (by omega) (Nat.le_add_right _ _) (by omega),
        Nat.add_sub_cancel_left]
      cases parseExtensionsFrom (ofBeBytes (slice buf pos 2))
        (slice buf (pos + 2) (ofBeBytes (slice buf pos 2))) with
      | error error => rfl
      | ok exts => rfl

theorem parseKeyShare_eq (exts : List (Nat × List Byte)) :
    parseKeyShare exts = returned (Tls13.parseKeyShare exts) := by
  rw [parseKeyShare, Tls13.parseKeyShare]
  cases exts.find? fun entry => entry.1 = EXT_KEY_SHARE with
  | none => rfl
  | some entry =>
      rcases entry with ⟨kind, share⟩
      rw [Checked.okOr, Checked.ok_bind]
      dsimp only
      by_cases short : share.length < 4
      · rw [if_pos short, if_pos (Or.inl short)]
        rfl
      · rw [if_neg short, Checked.range_of_le (by decide) (by omega), Checked.ok_bind]
        by_cases group : slice share 0 2 = GROUP_X25519
        · rw [if_neg (not_not_intro group), if_neg (not_or_intro short (not_not_intro group)),
            u16At_of_le (by omega), Checked.ok_bind]
          by_cases wrong : share.length < 4 + ofBeBytes (slice share 2 2) ∨
              ofBeBytes (slice share 2 2) ≠ 32
          · rw [if_pos wrong, if_pos wrong]
            rfl
          · rw [if_neg wrong, if_neg wrong, Checked.range_of_le (by decide) (by omega)]
            rfl
        · rw [if_pos group, if_pos (Or.inr group)]
          rfl

theorem keyShare_eq {body : List Byte} {pos : Nat} (inside : pos ≤ body.length)
    (make : List Byte → α) :
    (do
      let exts ← parseExtensions body pos
      let keyShare ← parseKeyShare exts.1
      return make keyShare) =
    returned (do
      let exts ← Tls13.parseExtensions (body.drop pos)
      let keyShare ← Tls13.parseKeyShare exts
      return make keyShare) := by
  rw [returned_bind, ← parseExtensions_eq inside]
  cases parseExtensions body pos with
  | error halt => rfl
  | ok found =>
      change (parseKeyShare found.1 >>= fun keyShare => _) = returned (_ >>= _)
      rw [returned_bind, ← parseKeyShare_eq]
      rfl

theorem parseServerHello_eq (body : List Byte) :
    parseServerHello body = returned (Tls13.parseServerHello body) := by
  rw [parseServerHello, Tls13.parseServerHello]
  dsimp only
  by_cases short : body.length < 35
  · rw [if_pos short, if_pos short]
    rfl
  rw [if_neg short, if_neg short, Checked.range_of_le (by decide) (by omega), Checked.ok_bind]
  by_cases retry : slice body 2 32 = HRR_RANDOM
  · rw [if_pos retry, if_pos retry]
    rfl
  have long : (slice body 2 32).length = 32 := length_slice (by omega)
  rw [if_neg retry, if_neg retry, long, Checked.range_of_le (by decide) (Nat.le_of_eq long.symm),
    Checked.ok_bind, show slice (slice body 2 32) 24 (32 - 24) = (slice body 2 32).drop 24 by
      rw [drop_slice, slice_slice (by decide)]]
  by_cases downgrade : (slice body 2 32).drop 24 = DOWNGRADE_TLS12
  · rw [if_pos downgrade, if_pos downgrade]
    rfl
  rw [if_neg downgrade, if_neg downgrade, index_of_lt (by omega), Checked.ok_bind]
  by_cases cut : body.length < 35 + (body.getD 34 0).toNat + 3
  · rw [if_pos cut, if_pos cut]
    rfl
  rw [if_neg cut, if_neg cut, Checked.range_of_le (by omega) (by omega), u16At_of_le (by omega),
    Checked.ok_bind, Checked.ok_bind]
  by_cases suite : isSupportedSuite (ofBeBytes (slice body (35 + (body.getD 34 0).toNat) 2))
  · have behind : 35 + (body.getD 34 0).toNat + 2 = 37 + (body.getD 34 0).toNat := by omega
    rw [suite, behind, index_of_lt (by omega), Checked.ok_bind]
    by_cases method : body.getD (37 + (body.getD 34 0).toNat) 0 = 0
    · have place : 37 + (body.getD 34 0).toNat + 1 = 38 + (body.getD 34 0).toNat := by omega
      rw [if_neg (not_not_intro method), if_neg (not_not_intro method), Bool.not_true,
        if_neg Bool.false_ne_true, if_neg Bool.false_ne_true, place, Nat.add_sub_cancel_left]
      exact keyShare_eq (by omega) _
    · rw [if_pos method, if_pos method]
      rfl
  · rw [Bool.eq_false_of_not_eq_true suite]
    rfl

end Places

/-- An extension: its type, and its data behind their length. -/
def extension : Layout (Nat × List Byte) :=
  .both (.number 2) (.bounded 2 0 65535)

/-- `KeyShareEntry`: a group, and a key of it behind its length. -/
def keyShareEntry : Layout (Nat × List Byte) :=
  .both (.number 2) (.bounded 2 1 65535)

/-- All fields of a ServerHello. -/
structure HelloFields where
  version : Nat
  random : List Byte
  session : List Byte
  suite : Nat
  compression : Nat
  extensions : List (Nat × List Byte)
  deriving DecidableEq

/-- The extension block of a ServerHello. -/
def extensionBlock : Layout (List (Nat × List Byte)) :=
  .vector 2 0 65535 extension

/-- The fields one behind the other; the length of a session id is any that a byte says. -/
def HelloFields.layout : Layout HelloFields :=
  (Layout.both (.number 2) (.both (.exactly 32) (.both (.bounded 1 0 255) (.both (.number 2)
    (.both (.number 1) extensionBlock))))).through
      (fun hello => (hello.version, hello.random, hello.session, hello.suite, hello.compression,
        hello.extensions))
      (fun (version, random, session, suite, compression, extensions) =>
        ⟨version, random, session, suite, compression, extensions⟩)
      (fun _ => rfl) (fun _ => rfl)

/-- An extension is at the front when its head and the data that its length says are. -/
theorem extension_read_of_long {data : List Byte} (head : 4 ≤ data.length)
    (long : ofBeBytes (slice data 2 2) ≤ data.length - 4) :
    extension.read data =
      some ((ofBeBytes (slice data 0 2), slice data 4 (ofBeBytes (slice data 2 2))),
        data.drop (4 + ofBeBytes (slice data 2 2))) := by
  have kind := @Layout.number_read_drop 2 0 data (by omega)
  have small : ofBeBytes (slice data 2 2) < 256 ^ 2 := by
    have bound := ofBeBytes_lt (slice data 2 2)
    rwa [length_slice (by omega)] at bound
  have body := @Layout.bounded_read_drop 2 0 65535 2 data (by omega) (by omega)
  rw [List.drop_zero] at kind
  simp only [extension, Layout.both, kind, body, Option.bind_some, Option.map_some, Nat.zero_add]

theorem long_of_extension_read {data rest : List Byte} {entry : Nat × List Byte}
    (read : extension.read data = some (entry, rest)) :
    4 ≤ data.length ∧ ofBeBytes (slice data 2 2) ≤ data.length - 4 := by
  rcases extension.write_read _ _ _ read with ⟨rfl, small, room⟩
  have spelled : ofBeBytes (toBeBytes 2 (BitVec.ofNat 16 entry.2.length)) = entry.2.length :=
    ofBeBytes_length room.2 room.2
  have lengthField : slice (extension.write entry ++ rest) 2 2 =
      toBeBytes 2 (BitVec.ofNat 16 entry.2.length) :=
    rfl
  have whole : (extension.write entry ++ rest).length = 4 + entry.2.length + rest.length := by
    simp [extension, Layout.both, Layout.number, Layout.bounded]
    omega
  rw [lengthField, spelled, whole]
  omega

variable {exts : List (Nat × List Byte)}

theorem parseExtensionsFrom_eq_ok_iff {bound : Nat} {data : List Byte}
    (enough : data.length ≤ bound) :
    parseExtensionsFrom bound data = .ok exts ↔ extension.readAll bound data = some exts := by
  induction bound generalizing data exts with
  | zero =>
      obtain rfl := List.eq_nil_of_length_eq_zero (Nat.le_zero.mp enough)
      simp [parseExtensionsFrom, Layout.readAll]
  | succ bound ih =>
      cases data with
      | nil => simp [parseExtensionsFrom, Layout.readAll]
      | cons byte rest =>
          rw [parseExtensionsFrom, Layout.readAll, if_neg (by simp)]
          by_cases head : (byte :: rest).length < 4
          · rw [if_pos head]
            apply iff_of_false
            · rintro ⟨⟩
            · intro found
              rcases Option.bind_eq_some_iff.mp found with ⟨⟨entry, behind⟩, read, _⟩
              exact absurd (long_of_extension_read read).1 (Nat.not_le.mpr head)
          · rw [if_neg head]
            dsimp only
            by_cases short : (byte :: rest).length - 4 < ofBeBytes (slice (byte :: rest) 2 2)
            · rw [if_pos short]
              apply iff_of_false
              · rintro ⟨⟩
              · intro found
                rcases Option.bind_eq_some_iff.mp found with ⟨⟨entry, behind⟩, read, _⟩
                exact absurd (long_of_extension_read read).2 (Nat.not_le.mpr short)
            · have read := extension_read_of_long (Nat.le_of_not_lt head) (Nat.le_of_not_lt short)
              have fewer : ((byte :: rest).drop
                  (4 + ofBeBytes (slice (byte :: rest) 2 2))).length ≤ bound := by
                rw [List.length_drop]
                omega
              rw [if_neg short, read, bind_eq_ok_iff, Option.bind_eq_bind, Option.bind_some,
                Option.bind_eq_bind, Option.bind_eq_some_iff]
              simp only [ih fewer, pure_eq_ok_iff, Option.pure_def, Option.some.injEq]

theorem long_of_extensionBlock_read {buf rest : List Byte}
    (read : extensionBlock.read buf = some (exts, rest)) :
    2 ≤ buf.length ∧ ofBeBytes (slice buf 0 2) ≤ buf.length - 2 := by
  rcases Option.bind_eq_some_iff.mp read with ⟨⟨data, behind⟩, block, _⟩
  rcases Layout.length_of_bounded_read block with ⟨spelled, whole⟩
  omega

theorem parseExtensions_eq_ok_iff {buf : List Byte} :
    parseExtensions buf = .ok exts ↔ ∃ rest, extensionBlock.read buf = some (exts, rest) := by
  rw [parseExtensions]
  dsimp only
  by_cases short : buf.length < 2
  · rw [if_pos short]
    apply iff_of_false
    · rintro ⟨⟩
    · rintro ⟨rest, read⟩
      exact absurd (long_of_extensionBlock_read read).1 (Nat.not_le.mpr short)
  · by_cases long : buf.length - 2 < ofBeBytes (slice buf 0 2)
    · rw [if_neg short, if_pos long]
      apply iff_of_false
      · rintro ⟨⟩
      · rintro ⟨rest, read⟩
        exact absurd (long_of_extensionBlock_read read).2 (Nat.not_le.mpr long)
    · have small : ofBeBytes (slice buf 0 2) < 256 ^ 2 := by
        have bound := ofBeBytes_lt (slice buf 0 2)
        rwa [length_slice (by omega)] at bound
      have block := @Layout.bounded_read_drop 2 0 65535 0 buf (by omega) (by omega)
      have wide : (slice buf 2 (ofBeBytes (slice buf 0 2))).length = ofBeBytes (slice buf 0 2) :=
        length_slice (by omega)
      rw [if_neg short, if_neg long, parseExtensionsFrom_eq_ok_iff (Nat.le_of_eq wide)]
      rw [List.drop_zero, Nat.zero_add] at block
      simp only [extensionBlock, Layout.vector, block, Option.bind_some, Layout.readMany, wide,
        Option.map_eq_some_iff, Prod.mk.injEq]
      constructor
      · intro found
        exact ⟨_, exts, found, rfl, rfl⟩
      · rintro ⟨rest, found, many, rfl, rfl⟩
        exact many

theorem keyShareEntry_write {key : List Byte} (long : key.length = 32) :
    keyShareEntry.write (0x001d, key) = GROUP_X25519 ++ ([0x00, 0x20] ++ key) := by
  simp [keyShareEntry, Layout.both, Layout.number, Layout.bounded, long, toBeBytes, GROUP_X25519]

theorem eq_keyShareEntry {share : List Byte} (long : 36 ≤ share.length)
    (group : slice share 0 2 = GROUP_X25519) (spelled : ofBeBytes (slice share 2 2) = 32) :
    share = keyShareEntry.write (0x001d, slice share 4 32) ++ share.drop 36 := by
  have number : ofBeBytes GROUP_X25519 = 0x001d := by
    decide
  have front := @Layout.number_read_drop 2 0 share (by omega)
  have back := @Layout.bounded_read_drop 2 1 65535 2 share (by omega) (by omega)
  rw [List.drop_zero, group, number, Nat.zero_add] at front
  rw [spelled] at back
  have read : keyShareEntry.read share = some ((0x001d, slice share 4 32), share.drop 36) := by
    simp only [keyShareEntry, Layout.both, front, back, Option.bind_some, Option.map_some]
  exact (keyShareEntry.write_read _ _ _ read).1

/-- The key is taken out of the first key share, when that begins with an X25519 key of 32
bytes. -/
theorem parseKeyShare_eq_ok_iff {key : List Byte} :
    parseKeyShare exts = .ok key ↔ key.length = 32 ∧ ∃ more,
      exts.find? (fun entry => entry.1 = EXT_KEY_SHARE) =
        some (EXT_KEY_SHARE, keyShareEntry.write (0x001d, key) ++ more) := by
  constructor
  · intro parsed
    rw [parseKeyShare] at parsed
    cases found : exts.find? (fun entry => entry.1 = EXT_KEY_SHARE) with
    | none =>
        rw [found] at parsed
        cases parsed
    | some entry =>
        rcases entry with ⟨kind, share⟩
        have isShare : kind = EXT_KEY_SHARE := by
          simpa using List.find?_some found
        rw [found] at parsed
        dsimp only at parsed
        split at parsed
        · cases parsed
        · rename_i group
          split at parsed
          · cases parsed
          · rename_i length
            obtain rfl := Except.ok.inj parsed
            simp only [not_or, not_not, Nat.not_lt] at group length
            rcases group with ⟨_, group⟩
            rcases length with ⟨long, spelled⟩
            rw [spelled] at long
            refine ⟨length_slice long, share.drop 36, ?_⟩
            rw [isShare, ← eq_keyShareEntry long group spelled]
  · rintro ⟨long, more, found⟩
    have wide : (GROUP_X25519 ++ ([0x00, 0x20] ++ key) ++ more).length = 36 + more.length := by
      simp [GROUP_X25519, long]
      omega
    have length : ofBeBytes (slice (GROUP_X25519 ++ ([0x00, 0x20] ++ key) ++ more) 2 2) = 32 :=
      (by decide : ofBeBytes [0x00, 0x20] = 32)
    have taken : slice (GROUP_X25519 ++ ([0x00, 0x20] ++ key) ++ more) 4 32 = key :=
      slice_here long more
    rw [parseKeyShare, found, keyShareEntry_write long]
    dsimp only
    rw [length, taken, wide, if_neg, if_neg]
    · omega
    · apply not_or_intro
      · omega
      · exact not_not_intro rfl

/-- What the program looks at: the key is in the first key share, with more behind it. -/
structure HelloFields.Passes (hello : HelloFields) (key more : List Byte) : Prop where
  retry : hello.random ≠ HRR_RANDOM
  sentinel : hello.random.drop 24 ≠ DOWNGRADE_TLS12
  suite : isSupportedSuite hello.suite
  compression : hello.compression = 0
  share : hello.extensions.find? (fun entry => entry.1 = EXT_KEY_SHARE) =
    some (EXT_KEY_SHARE, keyShareEntry.write (0x001d, key) ++ more)
  length_key : key.length = 32

theorem ofBeBytes_slice_one {bytes : List Byte} {place : Nat} (inside : place < bytes.length) :
    ofBeBytes (slice bytes place 1) = (bytes.getD place 0).toNat := by
  rw [slice, List.drop_eq_getElem_cons inside, List.take_succ_cons, List.take_zero]
  simp [ofBeBytes, inside]

/-- The fields at the places where the program finds them. -/
def fieldsAt (body : List Byte) (exts : List (Nat × List Byte)) : HelloFields where
  version := ofBeBytes (slice body 0 2)
  random := slice body 2 32
  session := slice body 35 (body.getD 34 0).toNat
  suite := ofBeBytes (slice body (35 + (body.getD 34 0).toNat) 2)
  compression := (body.getD (37 + (body.getD 34 0).toNat) 0).toNat
  extensions := exts

theorem layout_read_of_long {body : List Byte} (long : 38 + (body.getD 34 0).toNat ≤ body.length) :
    HelloFields.layout.read body =
      (extensionBlock.read (body.drop (38 + (body.getD 34 0).toNat))).map fun (exts, rest) =>
        (fieldsAt body exts, rest) := by
  have version : (Layout.number 2).read body = some (ofBeBytes (slice body 0 2), body.drop 2) :=
    @Layout.number_read_drop 2 0 body (by omega)
  have random : (Layout.exactly 32).read (body.drop 2) = some (slice body 2 32, body.drop 34) :=
    Layout.takeExact_drop (by omega)
  have length : ofBeBytes (slice body 34 1) = (body.getD 34 0).toNat := ofBeBytes_slice_one (by omega)
  have session : (Layout.bounded 1 0 255).read (body.drop 34) =
      some (slice body 35 (body.getD 34 0).toNat, body.drop (35 + (body.getD 34 0).toNat)) := by
    have small := (body.getD 34 0).isLt
    rw [← length]
    exact Layout.bounded_read_drop (by omega) (by omega)
  have suite : (Layout.number 2).read (body.drop (35 + (body.getD 34 0).toNat)) =
      some (ofBeBytes (slice body (35 + (body.getD 34 0).toNat) 2),
        body.drop (37 + (body.getD 34 0).toNat)) := by
    rw [Layout.number_read_drop (by omega), Nat.add_right_comm]
  have method : (Layout.number 1).read (body.drop (37 + (body.getD 34 0).toNat)) =
      some ((body.getD (37 + (body.getD 34 0).toNat) 0).toNat,
        body.drop (38 + (body.getD 34 0).toNat)) := by
    rw [Layout.number_read_drop (by omega), Nat.add_right_comm, ofBeBytes_slice_one (by omega)]
  simp only [HelloFields.layout, Layout.through, Layout.both, version, random, session, suite,
    method, Option.bind_some, Option.map_map]
  rfl

theorem long_of_layout_read {body rest : List Byte} {hello : HelloFields}
    (read : HelloFields.layout.read body = some (hello, rest)) :
    38 + (body.getD 34 0).toNat ≤ body.length := by
  rcases HelloFields.layout.write_read _ _ _ read with ⟨rfl, _, length_random, ⟨_, room⟩, _⟩
  have front : (toBeBytes 2 (BitVec.ofNat 16 hello.version) ++ hello.random).length = 34 := by
    rw [List.length_append, length_toBeBytes, length_random]
  have written : HelloFields.layout.write hello ++ rest =
      (toBeBytes 2 (BitVec.ofNat 16 hello.version) ++ hello.random) ++
        (BitVec.ofNat 8 hello.session.length :: (hello.session ++
          (toBeBytes 2 (BitVec.ofNat 16 hello.suite) ++
            (toBeBytes 1 (BitVec.ofNat 8 hello.compression) ++
              (extensionBlock.write hello.extensions ++ rest))))) := by
    simp [HelloFields.layout, Layout.through, Layout.both, Layout.number, Layout.exactly,
      Layout.bounded, toBeBytes]
  have length : ((HelloFields.layout.write hello ++ rest).getD 34 0).toNat =
      hello.session.length := by
    rw [written, List.getD_eq_getElem?_getD, List.getElem?_append_right (Nat.le_of_eq front), front]
    exact Nat.mod_eq_of_lt room
  rw [length, written]
  simp only [List.length_append, List.length_cons, length_toBeBytes] at front ⊢
  omega

theorem parseServerHello_eq_ok_iff {body : List Byte} {parsed : ServerHello} :
    parseServerHello body = .ok parsed ↔ ∃ hello rest more,
      HelloFields.layout.read body = some (hello, rest) ∧ hello.Passes parsed.keyShare more ∧
        parsed.legacySessionIdEcho = hello.session ∧ parsed.suite = hello.suite := by
  constructor
  · intro accepted
    rw [parseServerHello] at accepted
    split at accepted
    case isTrue => cases accepted
    split at accepted
    case isTrue => cases accepted
    split at accepted
    case isTrue => cases accepted
    split at accepted
    case isTrue => cases accepted
    split at accepted
    case isTrue => cases accepted
    split at accepted
    case isTrue => cases accepted
    rename_i retry sentinel long suite method
    rcases bind_eq_ok_iff.mp accepted with ⟨exts, block, accepted⟩
    rcases bind_eq_ok_iff.mp accepted with ⟨key, share, accepted⟩
    obtain rfl := pure_eq_ok_iff.mp accepted
    rcases parseExtensions_eq_ok_iff.mp block with ⟨rest, read⟩
    rcases parseKeyShare_eq_ok_iff.mp share with ⟨length_key, more, found⟩
    refine ⟨fieldsAt body exts, rest, more, ?_, ⟨retry, sentinel, ?_, ?_, found, length_key⟩, rfl, rfl⟩
    · rw [layout_read_of_long (by omega), read]
      rfl
    · change isSupportedSuite (ofBeBytes (slice body (35 + (body.getD 34 0).toNat) 2)) = true
      simpa using suite
    · exact congrArg BitVec.toNat (not_not.mp method)
  · rintro ⟨hello, rest, more, read, passes, session, suite⟩
    have long := long_of_layout_read read
    rw [layout_read_of_long long] at read
    rcases Option.map_eq_some_iff.mp read with ⟨⟨exts, behind⟩, block, same⟩
    cases same
    have parsedExts := parseExtensions_eq_ok_iff.mpr ⟨_, block⟩
    have share := parseKeyShare_eq_ok_iff.mpr ⟨passes.length_key, more, passes.share⟩
    have retry : slice body 2 32 ≠ HRR_RANDOM := passes.retry
    have sentinel : (slice body 2 32).drop 24 ≠ DOWNGRADE_TLS12 := passes.sentinel
    have method : body.getD (37 + (body.getD 34 0).toNat) 0 = 0 :=
      BitVec.eq_of_toNat_eq passes.compression
    have supported : isSupportedSuite (ofBeBytes (slice body (35 + (body.getD 34 0).toNat) 2)) =
        true :=
      passes.suite
    rw [parseServerHello, if_neg (by omega), if_neg retry, if_neg sentinel, if_neg (by omega),
      supported, if_neg (by decide), if_neg (not_not_intro method), parsedExts]
    apply bind_eq_ok_iff.mpr
    refine ⟨exts, rfl, bind_eq_ok_iff.mpr ⟨parsed.keyShare, share, ?_⟩⟩
    rw [pure_eq_ok_iff]
    rcases parsed with ⟨echo, chosen, key⟩
    cases session
    cases suite
    rfl

/-- What a server sends when it is to speak TLS 1.2. -/
def DOWNGRADE_01 : List Byte :=
  [0x44, 0x4f, 0x57, 0x4e, 0x47, 0x52, 0x44, 0x01]

namespace HelloFields

/-- A message of TLS 1.3 that brings an X25519 key. -/
structure Genuine (hello : HelloFields) (key : List Byte) : Prop where
  version : hello.version = 0x0303
  retry : hello.random ≠ HRR_RANDOM
  sentinel00 : hello.random.drop 24 ≠ DOWNGRADE_TLS12
  sentinel01 : hello.random.drop 24 ≠ DOWNGRADE_01
  session : hello.session.length ≤ 32
  suite : hello.suite ∈ [SUITE_AES_128, SUITE_AES_256, SUITE_CHACHA]
  compression : hello.compression = 0
  distinct : (hello.extensions.map Prod.fst).Nodup
  versions : (EXT_SUPPORTED_VERSIONS, [0x03, 0x04]) ∈ hello.extensions
  share : (EXT_KEY_SHARE, keyShareEntry.write (0x001d, key)) ∈ hello.extensions
  length_key : key.length = 32

/-- What of it the program leaves out. -/
structure Complete (hello : HelloFields) : Prop where
  version : hello.version = 0x0303
  sentinel01 : hello.random.drop 24 ≠ DOWNGRADE_01
  session : hello.session.length ≤ 32
  distinct : (hello.extensions.map Prod.fst).Nodup
  versions : (EXT_SUPPORTED_VERSIONS, [0x03, 0x04]) ∈ hello.extensions

variable {hello : HelloFields} {key more : List Byte}

theorem suite_mem_iff (suite : Nat) :
    suite ∈ [SUITE_AES_128, SUITE_AES_256, SUITE_CHACHA] ↔ isSupportedSuite suite := by
  simp [isSupportedSuite, or_assoc]

theorem find?_of_nodup {extensions : List (Nat × List Byte)} {kind : Nat} {data : List Byte}
    (distinct : (extensions.map Prod.fst).Nodup) (member : (kind, data) ∈ extensions) :
    extensions.find? (fun entry => entry.1 = kind) = some (kind, data) := by
  induction extensions with
  | nil => cases member
  | cons entry extensions ih =>
      rw [List.map_cons, List.nodup_cons] at distinct
      rcases List.mem_cons.mp member with rfl | later
      · simp
      · have other : entry.1 ≠ kind := by
          rintro rfl
          exact distinct.1 (List.mem_map.mpr ⟨_, later, rfl⟩)
        rw [List.find?_cons_of_neg (by simpa using other)]
        exact ih distinct.2 later

theorem Genuine.passes (genuine : hello.Genuine key) : hello.Passes key [] where
  retry := genuine.retry
  sentinel := genuine.sentinel00
  suite := (suite_mem_iff hello.suite).mp genuine.suite
  compression := genuine.compression
  share := by
    rw [List.append_nil]
    exact find?_of_nodup genuine.distinct genuine.share
  length_key := genuine.length_key

theorem Genuine.complete (genuine : hello.Genuine key) : hello.Complete where
  version := genuine.version
  sentinel01 := genuine.sentinel01
  session := genuine.session
  distinct := genuine.distinct
  versions := genuine.versions

theorem Passes.genuine (passes : hello.Passes key []) (complete : hello.Complete) :
    hello.Genuine key where
  version := complete.version
  retry := passes.retry
  sentinel00 := passes.sentinel
  sentinel01 := complete.sentinel01
  session := complete.session
  suite := (suite_mem_iff hello.suite).mpr passes.suite
  compression := passes.compression
  distinct := complete.distinct
  versions := complete.versions
  share := by
    have share := List.mem_of_find?_eq_some passes.share
    rwa [List.append_nil] at share
  length_key := passes.length_key

theorem Passes.unique {more' : List Byte} (passes : hello.Passes key more)
    (passes' : hello.Passes key more') : more = more' := by
  have shares := passes.share.symm.trans passes'.share
  simpa using shares

end HelloFields

/-- The bytes are a ServerHello of TLS 1.3, and these are its parts. -/
def IsServerHello (body : List Byte) (parsed : ServerHello) : Prop :=
  ∃ hello : HelloFields, body = HelloFields.layout.write hello ∧ HelloFields.layout.fits hello ∧
    hello.Genuine parsed.keyShare ∧ parsed.legacySessionIdEcho = hello.session ∧
      parsed.suite = hello.suite

/-- The parser comes back, and it accepts the bytes as a ServerHello when they are one. -/
def AcceptsGenuine (body : List Byte) : Prop :=
  Checked.Returns (Places.parseServerHello body) ∧
    ∀ parsed, Places.parseServerHello body = .ok parsed ↔ IsServerHello body parsed

/-- When the bytes begin with a message that the program lets pass, the message is complete,
with nothing behind its key and nothing behind itself. -/
def LetsCompletePass (body : List Byte) : Prop :=
  ∀ hello rest key more, body = HelloFields.layout.write hello ++ rest →
    HelloFields.layout.fits hello → hello.Passes key more →
      hello.Complete ∧ more = [] ∧ rest = []

/-- Exactly the bytes on which what the program leaves out makes no difference are accepted
when they are a ServerHello. -/
theorem acceptsGenuine_iff (body : List Byte) : AcceptsGenuine body ↔ LetsCompletePass body := by
  constructor
  · rintro ⟨_, accepts⟩ hello rest key more written fits passes
    have read := Layout.read_eq_some_iff.mpr ⟨written, fits⟩
    have accepted : Places.parseServerHello body = .ok ⟨hello.session, hello.suite, key⟩ := by
      rw [Places.parseServerHello_eq, Places.returned_eq_ok_iff, parseServerHello_eq_ok_iff]
      exact ⟨hello, rest, more, read, passes, rfl, rfl⟩
    rcases (accepts _).mp accepted with ⟨other, whole, fits', genuine, _, _⟩
    have read' := Layout.read_eq_some_iff.mpr ⟨whole.trans (List.append_nil _).symm, fits'⟩
    rcases Prod.mk.inj (Option.some.inj (read.symm.trans read')) with ⟨rfl, nothing⟩
    exact ⟨genuine.complete, passes.unique genuine.passes, nothing⟩
  · intro complete
    constructor
    · rw [Places.parseServerHello_eq]
      exact Places.returns_returned _
    · intro parsed
      rw [Places.parseServerHello_eq, Places.returned_eq_ok_iff, parseServerHello_eq_ok_iff]
      constructor
      · rintro ⟨hello, rest, more, read, passes, session, suite⟩
        rcases Layout.read_eq_some_iff.mp read with ⟨written, fits⟩
        rcases complete hello rest _ more written fits passes with ⟨complete, rfl, rfl⟩
        rw [List.append_nil] at written
        exact ⟨hello, written, fits, passes.genuine complete, session, suite⟩
      · rintro ⟨hello, written, fits, genuine, session, suite⟩
        have read := Layout.read_eq_some_iff.mpr ⟨written.trans (List.append_nil _).symm, fits⟩
        exact ⟨hello, [], [], read, genuine.passes, session, suite⟩

/-- A message that is genuine but for its random, which says that the server is to speak TLS
1.2. -/
def downgraded : HelloFields where
  version := 0x0303
  random := List.replicate 24 7 ++ DOWNGRADE_01
  session := []
  suite := SUITE_AES_128
  compression := 0
  extensions := [(EXT_SUPPORTED_VERSIONS, [0x03, 0x04]),
    (EXT_KEY_SHARE, keyShareEntry.write (0x001d, List.replicate 32 5))]

theorem downgraded_passes : downgraded.Passes (List.replicate 32 5) [] where
  retry := by decide
  sentinel := by decide
  suite := by decide
  compression := rfl
  share := by decide
  length_key := List.length_replicate

/-- Such a message is accepted. -/
theorem downgraded_not_acceptsGenuine :
    ¬ AcceptsGenuine (HelloFields.layout.write downgraded) := by
  rintro ⟨_, accepts⟩
  have read : HelloFields.layout.read (HelloFields.layout.write downgraded) =
      some (downgraded, []) := by
    decide +kernel
  have accepted : Places.parseServerHello (HelloFields.layout.write downgraded) =
      .ok ⟨[], SUITE_AES_128, List.replicate 32 5⟩ := by
    rw [Places.parseServerHello_eq, Places.returned_eq_ok_iff, parseServerHello_eq_ok_iff]
    exact ⟨downgraded, [], [], read, downgraded_passes, rfl, rfl⟩
  rcases (accepts _).mp accepted with ⟨other, whole, fits, genuine, _, _⟩
  have read' := Layout.read_eq_some_iff.mpr ⟨whole.trans (List.append_nil _).symm, fits⟩
  rcases Prod.mk.inj (Option.some.inj (read.symm.trans read')) with ⟨rfl, _⟩
  exact genuine.sentinel01 rfl

end Corduit.Protocol.Tls13
