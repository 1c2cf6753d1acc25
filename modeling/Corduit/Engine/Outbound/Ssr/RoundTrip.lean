import Corduit.Engine.Outbound.Ssr.Reading

/-!
# Round trips of ShadowsocksR

The reader applies its cipher as the writer does.  That takes a keystream back,
but not cipher feedback, which feeds back what comes out: behind the first block
the two directions go apart.  The keystream of `chacha20-ietf` ends, by design,
with its last block.
-/

namespace Corduit.Engine.Outbound.Ssr

open Crypto Transport Word

variable {encryptBlock : BlockCipher}

namespace SsrCipher

/-- Every cipher but cipher feedback takes itself back. -/
theorem steps_twice {cipher : SsrCipher} (notCfb : ∀ inner, cipher ≠ cfb inner)
    (text : List Byte) :
    (steps (step encryptBlock) cipher (steps (step encryptBlock) cipher text).1).1 = text := by
  refine congrArg Prod.fst (@steps_inverse _ _ _ (fun cipher : SsrCipher => ∀ inner, cipher ≠ cfb inner)
    (fun cipher byte notCfb => ?_) _ notCfb text)
  cases cipher with
  | none => exact ⟨rfl, fun inner same => by cases same⟩
  | cfb cipher => exact absurd rfl (notCfb cipher)
  | rc4 cipher =>
      exact ⟨congrArg (Prod.map id rc4) (xorStep_inverse Rc4.nextByte cipher byte),
        fun inner same => by cases same⟩
  | ctr cipher =>
      exact ⟨congrArg (Prod.map id ctr) (xorStep_inverse (Ctr.nextByte encryptBlock) cipher byte),
        fun inner same => by cases same⟩
  | chacha20 cipher =>
      exact ⟨congrArg (Prod.map id chacha20)
        (xorStep_inverse (Pending.nextByte ChaCha20Legacy.nextBlock) cipher byte),
        fun inner same => by cases same⟩
  | chacha20Ietf cipher =>
      exact ⟨congrArg (Prod.map id chacha20Ietf)
        (xorStep_inverse (Pending.nextByte ChaCha20.nextBlock) cipher byte),
        fun inner same => by cases same⟩
  | salsa20 cipher =>
      exact ⟨congrArg (Prod.map id salsa20)
        (xorStep_inverse (Pending.nextByte Salsa20.nextBlock) cipher byte),
        fun inner same => by cases same⟩

theorem steps_cfb (cipher : Cfb128) (text : List Byte) :
    steps (step encryptBlock) (cfb cipher) text =
      (cipher.encrypt encryptBlock text).map id cfb :=
  @steps_embed _ _ (Cfb128.encryptByte encryptBlock) _ cfb (fun _ _ => rfl) cipher text

theorem steps_chacha20Ietf (cipher : ChaCha20) (text : List Byte) :
    steps (step encryptBlock) (chacha20Ietf cipher) text =
      (steps (xorStep (Pending.nextByte ChaCha20.nextBlock)) cipher text).map id chacha20Ietf :=
  @steps_embed _ _ _ _ chacha20Ietf (fun _ _ => rfl) cipher text

theorem lasts_of_not_chacha20Ietf {cipher : SsrCipher}
    (notIetf : ∀ inner, cipher ≠ chacha20Ietf inner) (count : Nat) :
    Lasts encryptBlock cipher count := by
  intro front _
  have other := @steps_invariant _ (step encryptBlock)
    (fun cipher : SsrCipher => ∀ inner, cipher ≠ chacha20Ietf inner) (fun cipher byte notIetf => by
      cases cipher with
      | chacha20Ietf cipher => exact absurd rfl (notIetf cipher)
      | _ => exact fun inner same => by cases same) _ notIetf front
  generalize (steps (step encryptBlock) cipher front).2 = last at other
  cases last with
  | chacha20Ietf last => exact absurd rfl (other last)
  | _ => rfl

/-- What a method's cipher starts as. -/
inductive Initial (kind : MethodKind) : SsrCipher → Prop where
  | cfb (feeds : kind = .cfb) {cipher : Cfb128} (fresh : cipher.offset = 0) :
      Initial kind (cfb cipher)
  | chacha20Ietf (counts : kind = .chacha20Ietf) (key nonce : List Byte) :
      Initial kind (chacha20Ietf (ChaCha20.new key nonce 0))
  | other (notCfb : kind ≠ .cfb) (notIetf : kind ≠ .chacha20Ietf) {cipher : SsrCipher}
      (cipher_notCfb : ∀ inner, cipher ≠ .cfb inner)
      (cipher_notIetf : ∀ inner, cipher ≠ .chacha20Ietf inner) : Initial kind cipher

variable {kind : MethodKind} {cipher : SsrCipher} (initial : Initial kind cipher)

include initial

theorem Initial.lasts {count : Nat}
    (short : kind = .chacha20Ietf → count ≤ ChaCha20.beforeLast + 1) :
    Lasts encryptBlock cipher count := by
  cases initial with
  | cfb feeds fresh => exact lasts_of_not_chacha20Ietf (fun inner same => by cases same) count
  | chacha20Ietf counts key nonce =>
      intro front less
      rw [steps_chacha20Ietf]
      apply Bool.eq_false_iff.mpr
      intro exhausted
      have far := (ChaCha20.isExhausted_iff key nonce front).mp exhausted
      exact absurd (short counts) (by omega)
  | other _ _ _ notIetf => exact lasts_of_not_chacha20Ietf notIetf count

theorem Initial.twice {text : List Byte} (short : kind = .cfb → text.length ≤ 16) :
    (steps (step encryptBlock) cipher (steps (step encryptBlock) cipher text).1).1 = text := by
  cases initial with
  | cfb feeds fresh =>
      rw [steps_cfb, steps_cfb]
      exact Cfb128.encrypt_twice fresh (short feeds)
  | chacha20Ietf counts key nonce => exact steps_twice (fun inner same => by cases same) text
  | other _ _ notCfb _ => exact steps_twice notCfb text

end SsrCipher

namespace SsrMethod

/-- The lengths are the ones that the cipher takes. -/
def Fits (method : SsrMethod) : Prop :=
  match method.kind with
  | .none => True
  | .rc4 => method.keyLen = 16
  | .rc4Md5 => method.keyLen = 16
  | .cfb | .ctr =>
      (method.keyLen = 16 ∨ method.keyLen = 24 ∨ method.keyLen = 32) ∧ method.ivLen = 16
  | .chacha20 | .salsa20 => method.keyLen = 32 ∧ method.ivLen = 8
  | .chacha20Ietf => method.keyLen = 32 ∧ method.ivLen = 12

theorem fits_of_mem_table : ∀ entry ∈ table, entry.2.Fits := by
  simp [table, Fits]

theorem fits_of_parse {name : String} {method : SsrMethod} (accepted : parse name = .ok method) :
    method.Fits := by
  rw [parse] at accepted
  cases found : table.lookup (Text.toAsciiLowercase (Text.trim name)) with
  | none =>
      rw [found] at accepted
      cases accepted
  | some entry =>
      rw [found] at accepted
      cases accepted
      rcases List.lookup_eq_some_iff.mp found with ⟨before, after, split, _⟩
      have member : (Text.toAsciiLowercase (Text.trim name), method) ∈ table := by
        rw [split]
        exact List.mem_append_right _ List.mem_cons_self
      exact fits_of_mem_table _ member

end SsrMethod

namespace SsrCrypto

variable {method : SsrMethod}

theorem length_key (method : SsrMethod)
    (password : List Byte) : (new method password).key.length = method.keyLen := by
  rw [new]
  dsimp only
  rw [List.length_take, length_evpBytesToKey]
  exact Nat.min_eq_left (Nat.le_add_right _ _)

theorem length_iv (method : SsrMethod)
    (password : List Byte) : (new method password).iv.length = method.ivLen := by
  rw [new]
  dsimp only
  rw [List.length_drop, length_evpBytesToKey, Nat.add_sub_cancel_left]

theorem fixed_of_length {keyLen nonceLen : Nat} {key iv : List Byte}
    (keyLength : key.length = keyLen) (ivLength : iv.length = nonceLen) :
    fixed keyLen nonceLen key iv = .ok (key, iv) :=
  if_neg (by rw [not_or]; exact ⟨not_not_intro keyLength, not_not_intro ivLength⟩)

/-- Every method builds a cipher from an IV of its length. -/
theorem cipher_initial (fits : method.Fits) (password : List Byte) {iv : List Byte}
    (length : iv.length = method.ivLen) :
    ∃ cipher, (new method password).cipher iv = .ok cipher ∧
      SsrCipher.Initial method.kind cipher := by
  have keyLength := length_key method password
  have method_eq : (new method password).method = method := rfl
  rw [SsrMethod.Fits] at fits
  rw [SsrCrypto.cipher, method_eq]
  generalize (new method password).key = key at keyLength
  have rc4 : ∀ {key : List Byte}, key.length = 16 → ∃ cipher,
      built "key" .rc4 (Rc4.new key) = .ok (.rc4 cipher) := by
    intro key sixteen
    have accepted : ¬ (key = [] ∨ key.length > 256) := by
      rintro (rfl | long)
      · cases sixteen
      · omega
    rw [Rc4.new, if_neg accepted]
    exact ⟨_, rfl⟩
  cases kind : method.kind with
  | none =>
      exact ⟨_, rfl, .other (by decide) (by decide) (fun _ same => by cases same)
        fun _ same => by cases same⟩
  | rc4 =>
      rw [kind] at fits
      rcases rc4 (keyLength.trans fits) with ⟨cipher, ok⟩
      exact ⟨_, ok, .other (by decide) (by decide) (fun _ same => by cases same)
        fun _ same => by cases same⟩
  | rc4Md5 =>
      rcases rc4 (@Vector.length_toList _ _ ((Md5.new.update key).update iv).finalize) with ⟨cipher, ok⟩
      exact ⟨_, ok, .other (by decide) (by decide) (fun _ same => by cases same)
        fun _ same => by cases same⟩
  | cfb =>
      rw [kind] at fits
      have block : blockOf iv = some ⟨iv.toArray, length.trans fits.2⟩ := dif_pos _
      have aes : Aes.new key = .ok ⟨key⟩ := if_pos (keyLength ▸ fits.1)
      dsimp only
      rw [Cfb128.new, block, aes]
      exact ⟨_, rfl, .cfb rfl rfl⟩
  | ctr =>
      rw [kind] at fits
      have block : blockOf iv = some ⟨iv.toArray, length.trans fits.2⟩ := dif_pos _
      have aes : Aes.new key = .ok ⟨key⟩ := if_pos (keyLength ▸ fits.1)
      dsimp only
      rw [Ctr.new, block, aes]
      exact ⟨_, rfl, .other (by decide) (by decide) (fun _ same => by cases same)
        fun _ same => by cases same⟩
  | chacha20 =>
      rw [kind] at fits
      dsimp only
      rw [fixed_of_length (keyLength.trans fits.1) (length.trans fits.2)]
      exact ⟨_, rfl, .other (by decide) (by decide) (fun _ same => by cases same)
        fun _ same => by cases same⟩
  | chacha20Ietf =>
      rw [kind] at fits
      dsimp only
      rw [fixed_of_length (keyLength.trans fits.1) (length.trans fits.2)]
      exact ⟨_, rfl, .chacha20Ietf rfl _ _⟩
  | salsa20 =>
      rw [kind] at fits
      dsimp only
      rw [fixed_of_length (keyLength.trans fits.1) (length.trans fits.2)]
      exact ⟨_, rfl, .other (by decide) (by decide) (fun _ same => by cases same)
        fun _ same => by cases same⟩

end SsrCrypto

namespace SsrStream

/-- What calls of `write` put on the wire: the IV, unless it was sent, and what the
cipher makes of the text. -/
theorem writeAll_eq {stream : SsrStream} {calls : List WriteCall}
    (lasts : SsrCipher.Lasts encryptBlock stream.writeCipher
      (calls.flatMap WriteCall.buf).length) :
    stream.writeAll encryptBlock calls =
      .ok ((if stream.ivSent ∨ calls.flatMap WriteCall.buf = [] then [] else stream.crypto.iv) ++
        (steps (SsrCipher.step encryptBlock) stream.writeCipher
          (calls.flatMap WriteCall.buf)).1) := by
  induction calls generalizing stream with
  | nil =>
      rw [writeAll, List.flatMap_nil, if_pos (Or.inr rfl)]
      rfl
  | cons call calls ih =>
      rw [List.flatMap_cons] at lasts ⊢
      rw [writeAll, write]
      by_cases none : call.buf = []
      · rw [if_pos none]
        rw [none, List.nil_append] at lasts
        dsimp only
        rw [ih lasts, none, List.nil_append]
        rfl
      · rw [if_neg none]
        have some := List.length_pos_iff.mpr none
        rw [List.length_append] at lasts
        dsimp only
        rw [OriginState.wrap_eq, lasts.apply (Nat.add_pos_left some _)]
        dsimp only [PlainState.wrap]
        rw [ih lasts.behind, if_pos (Or.inl rfl), List.nil_append, steps_append]
        have whole : call.buf ++ calls.flatMap WriteCall.buf ≠ [] :=
          List.append_ne_nil_of_left_ne_nil none _
        cases sent : stream.ivSent with
        | true => rw [if_pos rfl, if_pos (Or.inl rfl)]; rfl
        | false =>
            rw [if_neg Bool.false_ne_true, if_neg (by rw [not_or]; exact ⟨Bool.false_ne_true, whole⟩)]
            exact congrArg Except.ok (List.append_assoc _ _ _)

variable {method : SsrMethod} {password : List Byte}

/-- A new stream for a method: one cipher to write with and, once the IV is there,
the same one to read with. -/
theorem new_eq (fits : method.Fits) (password : List Byte) :
    ∃ cipher, SsrCipher.Initial method.kind cipher ∧
      (SsrCrypto.new method password).cipher (SsrCrypto.new method password).iv =
        .ok cipher ∧
      ∀ inner, new inner method password =
        .ok { inner := inner
              crypto := SsrCrypto.new method password
              readCipher := if method.ivLen = 0 then some cipher else none
              writeCipher := cipher } := by
  have ivLength := SsrCrypto.length_iv method password
  rcases SsrCrypto.cipher_initial fits password ivLength with ⟨cipher, builds, initial⟩
  refine ⟨cipher, initial, builds, fun inner => ?_⟩
  rw [new, builds]
  dsimp only
  by_cases none : method.ivLen = 0
  · have empty : (SsrCrypto.new method password).iv = [] :=
      List.length_eq_zero_iff.mp (ivLength.trans none)
    rw [empty] at builds
    rw [if_pos none, if_pos none, builds]
  · rw [if_neg none, if_neg none]

/-- What a reader returns of a text that was written: all calls of `write` are
accepted, and however the reads go, they return `returned` and nothing else; enough
of them return all of it. -/
def Returns (encryptBlock : BlockCipher)
    (method : SsrMethod) (password plaintext returned : List Byte) : Prop :=
  ∀ (replies : Incoming) (calls : List WriteCall), calls.flatMap WriteCall.buf = plaintext →
    ∃ writer wire, new replies method password = .ok writer ∧
      writer.writeAll encryptBlock calls = .ok wire ∧
      ∀ (polls : List Poll) (rooms : List Nat), ∃ reader answers reader',
        new ⟨wire, polls⟩ method password = .ok reader ∧
          session (read encryptBlock) reader rooms = some (answers, reader') ∧
          Spells (fun error => Poll.fails error ∈ polls) rooms answers returned ∧
          (plaintext.length + polls.length < (rooms.filter (0 < ·)).length →
            Ends rooms answers ∧ received answers = returned)

/-- What was written is what is read. -/
def RoundTrips (encryptBlock : BlockCipher)
    (method : SsrMethod) (password plaintext : List Byte) : Prop :=
  Returns encryptBlock method password plaintext plaintext

theorem ahead_new {cipher : SsrCipher} {plaintext wire : List Byte} {polls : List Poll}
    {allowed : IoError → Prop} (raises : Raises polls allowed)
    (builds : (SsrCrypto.new method password).cipher (SsrCrypto.new method password).iv =
      .ok cipher)
    (lasts : SsrCipher.Lasts encryptBlock cipher plaintext.length)
    (wire_eq : wire = (if plaintext = [] then [] else (SsrCrypto.new method password).iv) ++
      (steps (SsrCipher.step encryptBlock) cipher plaintext).1) :
    Ahead encryptBlock allowed
      { inner := ⟨wire, polls⟩
        crypto := SsrCrypto.new method password
        readCipher := if method.ivLen = 0 then some cipher else none
        writeCipher := cipher }
      (steps (SsrCipher.step encryptBlock) cipher
        (steps (SsrCipher.step encryptBlock) cipher plaintext).1).1 := by
  have ivLength := SsrCrypto.length_iv method password
  refine ⟨⟨cipher, (steps (SsrCipher.step encryptBlock) cipher plaintext).1, ?_, ?_, rfl⟩, rfl,
    raises⟩
  · by_cases none : method.ivLen = 0
    · have empty : (SsrCrypto.new method password).iv = [] :=
        List.length_eq_zero_iff.mp (ivLength.trans none)
      refine .reading (if_pos none) ?_
      rw [wire_eq, empty, ite_self]
      rfl
    · by_cases nothing : plaintext = []
      · subst nothing
        exact .silent (if_neg none) rfl wire_eq rfl
      · rw [if_neg nothing] at wire_eq
        exact .starting (if_neg none) ivLength builds wire_eq
  · rwa [length_steps]

/-- The reader of a connection returns what its cipher makes of what the writer's
makes of the text. -/
theorem returns_twice (fits : method.Fits) (password : List Byte) :
    ∃ cipher, SsrCipher.Initial method.kind cipher ∧
      ∀ encryptBlock plaintext, SsrCipher.Lasts encryptBlock cipher plaintext.length →
        Returns encryptBlock method password plaintext
          (steps (SsrCipher.step encryptBlock) cipher
            (steps (SsrCipher.step encryptBlock) cipher plaintext).1).1 := by
  rcases @new_eq method fits password with ⟨cipher, initial, builds, new_ok⟩
  refine ⟨cipher, initial, fun encryptBlock plaintext lasts replies calls calls_eq => ?_⟩
  have written := @writeAll_eq encryptBlock
    { inner := replies
      crypto := SsrCrypto.new method password
      readCipher := if method.ivLen = 0 then some cipher else none
      writeCipher := cipher } calls (by rw [calls_eq]; exact lasts)
  rw [calls_eq] at written
  simp only [Bool.false_eq_true, false_or] at written
  refine ⟨_, _, new_ok replies, written, fun polls rooms => ?_⟩
  have ahead := @ahead_new _ _ _ _ plaintext _ polls (fun error => Poll.fails error ∈ polls)
    (fun error member => member) builds lasts rfl
  have delivers := read_delivers encryptBlock fun error => Poll.fails error ∈ polls
  rcases delivers.spells ahead rooms with ⟨answers, reader', rest, done, spells, _, _⟩
  refine ⟨_, answers, reader', new_ok _, done, spells, fun enough => ?_⟩
  exact delivers.ends ahead done (by rw [length_steps, length_steps]; exact enough)

theorem Returns.unique {plaintext first second : List Byte}
    (returns : Returns encryptBlock method password plaintext first)
    (returns' : Returns encryptBlock method password plaintext second) : first = second := by
  rcases returns ⟨[], []⟩ [⟨plaintext, 0⟩] (by rw [List.flatMap_singleton]) with
    ⟨writer, wire, new_ok, written, reads⟩
  rcases returns' ⟨[], []⟩ [⟨plaintext, 0⟩] (by rw [List.flatMap_singleton]) with
    ⟨writer', wire', new_ok', written', reads'⟩
  cases new_ok.symm.trans new_ok'
  cases written.symm.trans written'
  let rooms := List.replicate (plaintext.length + 1) 1
  have enough : plaintext.length + ([] : List Poll).length < (rooms.filter (0 < ·)).length := by
    rw [List.filter_replicate_of_pos (by decide), List.length_replicate]
    exact Nat.lt_succ_self _
  rcases reads [] rooms with ⟨reader, answers, last, opened, done, _, all⟩
  rcases reads' [] rooms with ⟨reader', answers', last', opened', done', _, all'⟩
  cases opened.symm.trans opened'
  cases done.symm.trans done'
  exact (all enough).2.symm.trans (all' enough).2

theorem writeAll_exhausted {stream : SsrStream} {front back : List Byte}
    (front_some : front ≠ []) (back_some : back ≠ [])
    (fresh : stream.writeCipher.exhausted = false)
    (used : (steps (SsrCipher.step encryptBlock) stream.writeCipher front).2.exhausted = true) :
    stream.writeAll encryptBlock [⟨front, 0⟩, ⟨back, 0⟩] =
      .error (otherError SsrCipher.exhaustedText) := by
  rw [writeAll, write, if_neg front_some]
  dsimp only
  rw [OriginState.wrap_eq, SsrCipher.apply_eq, if_neg (by rw [fresh]; exact Bool.false_ne_true)]
  dsimp only
  rw [writeAll, write, if_neg back_some]
  dsimp only
  rw [OriginState.wrap_eq, SsrCipher.apply_eq, if_pos used]
  rfl

/-- A text that goes on behind the first byte of the last block is not accepted when it
is cut there. -/
theorem ends_with_chacha20Ietf (fits : method.Fits) (counts : method.kind = .chacha20Ietf)
    (password : List Byte) {plaintext returned : List Byte}
    (long : ChaCha20.beforeLast + 1 < plaintext.length) :
    ¬ Returns encryptBlock method password plaintext returned := by
  intro returns
  rcases @new_eq method fits password with ⟨cipher, initial, _, new_ok⟩
  have length : (plaintext.take (ChaCha20.beforeLast + 1)).length = ChaCha20.beforeLast + 1 :=
    List.length_take_of_le (Nat.le_of_lt long)
  have front_some : plaintext.take (ChaCha20.beforeLast + 1) ≠ [] := by
    rw [← List.length_pos_iff, length]
    exact Nat.succ_pos _
  have back_some : plaintext.drop (ChaCha20.beforeLast + 1) ≠ [] := by
    rw [← List.length_pos_iff, List.length_drop]
    exact Nat.sub_pos_of_lt long
  rcases returns ⟨[], []⟩ [⟨plaintext.take (ChaCha20.beforeLast + 1), 0⟩,
    ⟨plaintext.drop (ChaCha20.beforeLast + 1), 0⟩] (by
      rw [List.flatMap_cons, List.flatMap_singleton, List.take_append_drop]) with
    ⟨writer, wire, opened, written, _⟩
  cases (new_ok ⟨[], []⟩).symm.trans opened
  cases initial with
  | cfb feeds fresh =>
      rw [counts] at feeds
      cases feeds
  | other _ notIetf => exact notIetf counts
  | chacha20Ietf _ key nonce =>
      have used : (steps (SsrCipher.step encryptBlock)
          (.chacha20Ietf (ChaCha20.new key nonce 0))
          (plaintext.take (ChaCha20.beforeLast + 1))).2.exhausted = true := by
        rw [SsrCipher.steps_chacha20Ietf]
        apply (ChaCha20.isExhausted_iff key nonce _).mpr
        rw [length]
        exact Nat.lt_succ_self _
      rw [writeAll_exhausted front_some back_some rfl used] at written
      cases written

/-- Every text comes back exactly when it is not longer than a block under cipher
feedback, and does not go on behind the first byte of the last block of
`chacha20-ietf`. -/
theorem round_trips_iff {name : String}
    (accepted : SsrMethod.parse name = .ok method) (password plaintext : List Byte) :
    (∀ encryptBlock : BlockCipher, RoundTrips encryptBlock method password plaintext) ↔
      (method.kind = .cfb → plaintext.length ≤ 16) ∧
        (method.kind = .chacha20Ietf → plaintext.length ≤ ChaCha20.beforeLast + 1) := by
  have fits := SsrMethod.fits_of_parse accepted
  rcases @returns_twice method fits password with ⟨cipher, initial, returns⟩
  constructor
  · intro all
    constructor
    · intro feeds
      by_contra long
      cases initial with
      | @cfb _ cipher fresh =>
          have lasts := @SsrCipher.lasts_of_not_chacha20Ietf (Cfb128.masking cipher.feedback[0])
            (.cfb cipher) (fun inner same => by cases same) plaintext.length
          have same := (returns _ plaintext lasts).unique (all _)
          rw [SsrCipher.steps_cfb, SsrCipher.steps_cfb] at same
          exact Cfb128.encrypt_twice_ne fresh (Nat.lt_of_not_le long) same
      | chacha20Ietf counts key nonce =>
          rw [feeds] at counts
          cases counts
      | other notCfb => exact notCfb feeds
    · intro counts
      by_contra long
      exact ends_with_chacha20Ietf fits counts password (Nat.lt_of_not_le long)
        (all fun _ block => block)
  · rintro ⟨short, short'⟩ encryptBlock
    have twice := returns encryptBlock plaintext (initial.lasts short')
    rwa [initial.twice short] at twice

/-- `aes-256-cfb` and a text of one block, with a block cipher that combines every
byte with the first one of the key. -/
theorem round_trips_block :
    SsrMethod.parse "AES-256-CFB" = .ok ⟨32, 16, .cfb⟩ ∧
      RoundTrips (fun key block => block.map (· ^^^ key.headD 0)) ⟨32, 16, .cfb⟩ [0x70]
        (List.replicate 16 0x41) :=
  ⟨by decide +kernel, (round_trips_iff
    (by decide +kernel : SsrMethod.parse "AES-256-CFB" = .ok ⟨32, 16, .cfb⟩) [0x70]
    (List.replicate 16 0x41)).mpr ⟨by decide, by decide⟩ _⟩

/-- A text that goes over a new connection, read byte by byte. -/
def exchange (encryptBlock : BlockCipher) (method : SsrMethod) (password plaintext : List Byte) :
    Option (List Byte) :=
  match new ⟨[], []⟩ method password with
  | .error _ => none
  | .ok writer =>
      match writer.writeAll encryptBlock [⟨plaintext, 0⟩] with
      | .error _ => none
      | .ok wire =>
          match new ⟨wire, []⟩ method password with
          | .error _ => none
          | .ok reader =>
              (session (read encryptBlock) reader (List.replicate (plaintext.length + 1) 1)).map
                fun (answers, _) => received answers

theorem RoundTrips.exchange {plaintext : List Byte}
    (returns : RoundTrips encryptBlock method password plaintext) :
    exchange encryptBlock method password plaintext = some plaintext := by
  rcases returns ⟨[], []⟩ [⟨plaintext, 0⟩] (by rw [List.flatMap_singleton]) with
    ⟨writer, wire, opened, written, reads⟩
  rcases reads [] (List.replicate (plaintext.length + 1) 1) with
    ⟨reader, answers, last, opened', done, _, all⟩
  have enough : plaintext.length + ([] : List Poll).length <
      ((List.replicate (plaintext.length + 1) 1).filter (0 < ·)).length := by
    rw [List.filter_replicate_of_pos (by decide), List.length_replicate]
    exact Nat.lt_succ_self _
  rw [SsrStream.exchange, opened]
  dsimp only
  rw [written]
  dsimp only
  rw [opened']
  dsimp only
  rw [done]
  exact congrArg some (all enough).2

/-- `aes-256-cfb` and a byte more than a block, with a block cipher that combines
every byte with the first one of the key. -/
theorem longer_text_changed :
    SsrMethod.parse "aes-256-cfb" = .ok ⟨32, 16, .cfb⟩ ∧
      ¬ RoundTrips (fun key block => block.map (· ^^^ key.headD 0)) ⟨32, 16, .cfb⟩ [0x70]
        (List.replicate 17 0x41) :=
  ⟨by decide +kernel, fun returns => absurd returns.exchange (by decide +kernel)⟩

end SsrStream

end Corduit.Engine.Outbound.Ssr
