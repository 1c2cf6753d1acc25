import Corduit.Engine.Outbound.Shadowsocks.Polls

/-!
# What a Shadowsocks reader returns

Writes of any sizes are chunks that fit, each of them two operations of the
cipher, and a reader over a transport that does not fail returns them.  The
counter of the operations wraps, so the nonces are distinct as long as there
are counters.
-/

namespace Corduit.Engine.Outbound.Shadowsocks

open Collection Crypto Transport Word

variable {primitives : Primitives} {cipher : AeadCipher}

/-- The nonce of an operation. -/
def AeadCipher.nonce (cipher : AeadCipher) (count : Nat) : List Byte :=
  (cipher.behind count).nextNonce.1

/-- The nonces of consecutive operations. -/
def AeadCipher.nonces (cipher : AeadCipher) (first count : Nat) : List (List Byte) :=
  (List.range' first count).map cipher.nonce

theorem AeadCipher.nonce_eq_iff {count other : Nat} :
    cipher.nonce count = cipher.nonce other ↔ count % 2 ^ 64 = other % 2 ^ 64 := by
  rw [nonce, nonce, nextNonce, nextNonce]
  dsimp only [behind]
  constructor
  · intro same
    have fields := (List.append_inj same (by rw [length_toLeBytes, length_toLeBytes])).1
    have values := congrArg (fun bytes => BitVec.ofNat 64 (ofLeBytes bytes)) fields
    rw [ofNat_ofLeBytes _ (by norm_num), ofNat_ofLeBytes _ (by norm_num)] at values
    have numbers := congrArg BitVec.toNat values
    rwa [BitVec.toNat_ofNat, BitVec.toNat_ofNat] at numbers
  · intro same
    have counters : BitVec.ofNat 64 count = BitVec.ofNat 64 other := by
      rw [← BitVec.toNat_inj, BitVec.toNat_ofNat, BitVec.toNat_ofNat, same]
    rw [counters]

/-- The first operations have distinct nonces exactly if there are at most 2^64 of
them. -/
theorem AeadCipher.nodup_nonces_iff (count : Nat) :
    (cipher.nonces 0 count).Nodup ↔ count ≤ 2 ^ 64 := by
  rw [nonces, List.nodup_map_iff_inj_on List.nodup_range']
  constructor
  · intro distinct
    by_contra more
    have first : 0 ∈ List.range' 0 count := by
      rw [List.mem_range'_1]
      omega
    have wrapped : 2 ^ 64 ∈ List.range' 0 count := by
      rw [List.mem_range'_1]
      omega
    have same := distinct 0 first (2 ^ 64) wrapped (nonce_eq_iff.mpr (by norm_num))
    omega
  · intro within one member other member' same
    rw [List.mem_range'_1] at member member'
    rw [nonce_eq_iff] at same
    omega

theorem AeadCipher.nonces_append (first count count' : Nat) :
    cipher.nonces first count ++ cipher.nonces (first + count) count' =
      cipher.nonces first (count + count') := by
  rw [nonces, nonces, nonces, ← List.map_append, List.range'_append_1]

/-- The nonces that `send_encrypted_chunk` seals with. -/
def chunkNonces (enc : AeadCipher) (data : List Byte) : List (List Byte) :=
  if chunkMax < data.length then []
  else enc.nextNonce.1 :: (if 0 < data.length then [enc.nextNonce.2.nextNonce.1] else [])

/-- Texts that `write` sends as chunks. -/
def Piece (data : List Byte) : Prop :=
  data ≠ [] ∧ data.length ≤ chunkMax

theorem Piece.chunk {data : List Byte} (piece : Piece data) : Chunk data :=
  ⟨piece.1, Nat.lt_of_le_of_lt piece.2 (by decide)⟩

theorem sendEncryptedChunk_behind {data : List Byte} (piece : Piece data) (count : Nat) :
    sendEncryptedChunk primitives (cipher.behind count) data =
      (.ok (nthChunk primitives cipher count data), cipher.behind (count + 2)) := by
  rw [sendEncryptedChunk, if_neg (Nat.not_lt.mpr piece.2), sealChunk_behind piece.1]

theorem chunkNonces_behind {data : List Byte} (piece : Piece data) (count : Nat) :
    chunkNonces (cipher.behind count) data = cipher.nonces count 2 := by
  have next : (cipher.behind count).nextNonce.2 = cipher.behind (count + 1) := by
    rw [AeadCipher.nextNonce, AeadCipher.behind, AeadCipher.behind, BitVec.ofNat_add]
    rfl
  rw [chunkNonces, if_neg (Nat.not_lt.mpr piece.2), if_pos (List.length_pos_iff.mpr piece.1), next]
  rfl

namespace ShadowsocksStream

/-- What a session of writes returned, put on the wire and sealed with. -/
structure Sent where
  results : List (Except IoError Nat)
  wire : List Byte
  nonces : List (List Byte)

/-- The nonces of chunks that are sent one after the other. -/
def sendNonces (primitives : Primitives) : AeadCipher → List (List Byte) → List (List Byte)
  | _, [] => []
  | enc, chunk :: chunks =>
      match sendEncryptedChunk primitives enc chunk with
      | (.error _, _) => chunkNonces enc chunk
      | (.ok _, enc') => chunkNonces enc chunk ++ sendNonces primitives enc' chunks

/-- Calls of `write`, one after the other. -/
def writes (primitives : Primitives) : ShadowsocksStream → List (List Byte) → Sent
  | _, [] => ⟨[], [], []⟩
  | stream, buf :: bufs =>
      let nonces := sendNonces primitives stream.enc (chunks chunkMax buf)
      match stream.write primitives buf with
      | (.error error, stream') =>
          let later := writes primitives stream' bufs
          ⟨.error error :: later.results, later.wire, nonces ++ later.nonces⟩
      | (.ok (count, bytes), stream') =>
          let later := writes primitives stream' bufs
          ⟨.ok count :: later.results, bytes ++ later.wire, nonces ++ later.nonces⟩

/-- The chunks of some writes. -/
def pieces (bufs : List (List Byte)) : List (List Byte) :=
  bufs.flatMap (chunks chunkMax)

theorem piece_of_mem_pieces {bufs : List (List Byte)} {data : List Byte}
    (member : data ∈ pieces bufs) : Piece data := by
  rcases List.mem_flatMap.mp member with ⟨buf, _, cut⟩
  exact mem_chunks (by decide) cut

theorem flatten_pieces (bufs : List (List Byte)) : (pieces bufs).flatten = bufs.flatten := by
  induction bufs with
  | nil => rfl
  | cons buf bufs ih =>
      rw [pieces, List.flatMap_cons, List.flatten_append, flatten_chunks (by decide), ← pieces, ih,
        List.flatten_cons]

theorem sendChunks_behind {data : List (List Byte)} (all : ∀ piece ∈ data, Piece piece)
    (count : Nat) :
    sendChunks primitives (cipher.behind count) data =
      (.ok (chunksFrom primitives cipher count data), cipher.behind (count + 2 * data.length)) ∧
    sendNonces primitives (cipher.behind count) data = cipher.nonces count (2 * data.length) := by
  induction data generalizing count with
  | nil => exact ⟨rfl, rfl⟩
  | cons piece data ih =>
      rcases ih (fun other member => all other (List.mem_cons_of_mem _ member)) (count + 2) with
        ⟨sent, sealed⟩
      have first := all piece List.mem_cons_self
      have twice : count + 2 + 2 * data.length = count + 2 * (data.length + 1) := by omega
      have double : 2 + 2 * data.length = 2 * (data.length + 1) := by omega
      rw [sendChunks, sendNonces, sendEncryptedChunk_behind first, chunkNonces_behind first]
      dsimp only
      rw [sent, sealed, List.length_cons, AeadCipher.nonces_append, twice, double]
      exact ⟨rfl, rfl⟩

theorem chunksFrom_append (count : Nat) (first second : List (List Byte)) :
    chunksFrom primitives cipher count (first ++ second) =
      chunksFrom primitives cipher count first ++
        chunksFrom primitives cipher (count + 2 * first.length) second := by
  induction first generalizing count with
  | nil => rfl
  | cons data first ih =>
      have twice : count + 2 + 2 * first.length = count + 2 * (first.length + 1) := by omega
      rw [List.cons_append, chunksFrom, ih, chunksFrom, List.length_cons, List.append_assoc, twice]

/-- Every write takes its whole buffer, and together they send the chunks with
the operations of the cipher one after the other. -/
theorem writes_behind {stream : ShadowsocksStream} {count : Nat}
    (enc : stream.enc = cipher.behind count) (bufs : List (List Byte)) :
    writes primitives stream bufs =
      ⟨bufs.map fun buf => .ok buf.length, chunksFrom primitives cipher count (pieces bufs),
        cipher.nonces count (2 * (pieces bufs).length)⟩ := by
  induction bufs generalizing stream count with
  | nil => rfl
  | cons buf bufs ih =>
      have all : ∀ piece ∈ chunks chunkMax buf, Piece piece :=
        fun piece member => mem_chunks (by decide) member
      rcases @sendChunks_behind primitives cipher _ all count with ⟨sent, sealed⟩
      rw [writes, write, enc, sent]
      dsimp only
      rw [ih rfl, sealed]
      have twice : 2 * (chunks chunkMax buf).length + 2 * (pieces bufs).length =
          2 * (chunks chunkMax buf ++ pieces bufs).length := by
        rw [List.length_append]
        omega
      dsimp only
      rw [AeadCipher.nonces_append, ← chunksFrom_append, twice]
      rfl

theorem punctual_of_steady {stream : ShadowsocksStream} (steady : Steady stream.inner.polls) :
    stream.Punctual primitives := by
  intro _ _ taken failed
  rw [Incoming.failsAfter_of_steady steady] at failed
  cases failed

theorem read_delivers_of_steady (opens : primitives.Opens) (peer : Peer) :
    Delivers (read primitives) (terms primitives (fun _ => False) peer) :=
  fun stream text room ahead => read_delivers opens (fun _ => nofun) stream text room ahead
    (punctual_of_steady ahead.raises)

/-- The peer that sends what was written. -/
def writer (cipherType : CipherType) (password : List Byte) {salt : List Byte}
    (salted : salt.length = cipherType.spec.saltLen) (bufs : List (List Byte)) : Peer where
  cipherType := cipherType
  password := password
  salt := salt
  chunks := pieces bufs
  salted := salted
  sized _ member := (piece_of_mem_pieces member).chunk

/-- A reader returns what was written, whatever the sizes of the writes and of the
reads; every chunk fits, and no nonce is used twice as long as there are at most
2^64 operations. -/
theorem read_returns_writes (opens : primitives.Opens) (cipherType : CipherType)
    (password : List Byte) {salt : List Byte} (salted : salt.length = cipherType.spec.saltLen)
    (enc : AeadCipher) (bufs : List (List Byte)) {polls : List Poll} (steady : Steady polls)
    (rooms : List Nat) :
    let cipher := AeadCipher.new cipherType.spec
      (deriveSubkeyForCipher primitives password salt cipherType.spec)
    let sent := writes primitives (new ⟨[], []⟩ cipher cipherType.spec password) bufs
    (sent.results = bufs.map fun buf => .ok buf.length) ∧
    (∃ answers stream,
      session (read primitives) (new ⟨salt ++ sent.wire, polls⟩ enc cipherType.spec password)
        rooms = some (answers, stream) ∧
      Spells (fun _ => False) rooms answers bufs.flatten ∧
      (bufs.flatten.length + polls.length < (rooms.filter (0 < ·)).length →
        Ends rooms answers ∧ received answers = bufs.flatten)) ∧
    (∃ chunks : List (List Byte), sent.wire = chunksFrom primitives cipher 0 chunks ∧
      ∀ data ∈ chunks, data ≠ [] ∧ data.length ≤ chunkMax) ∧
    (sent.nonces.Nodup ↔ sent.nonces.length ≤ 2 ^ 64) := by
  intro cipher sent
  have sent_eq : sent = _ := writes_behind (rfl : _ = cipher.behind 0) bufs
  rw [sent_eq]
  refine ⟨rfl, ?_, ⟨pieces bufs, rfl, fun _ => piece_of_mem_pieces⟩, ?_⟩
  · have ahead : Ahead primitives (fun _ => False) (writer cipherType password salted bufs)
        (new ⟨(writer cipherType password salted bufs).wire primitives, polls⟩ enc cipherType.spec
          password) bufs.flatten :=
      flatten_pieces bufs ▸ ahead_new (writer cipherType password salted bufs) enc steady
    have delivers := read_delivers_of_steady opens (writer cipherType password salted bufs)
    rcases delivers.spells ahead rooms with ⟨answers, stream, _, done, spells, _, _⟩
    exact ⟨answers, stream, done, spells, fun enough => delivers.ends ahead done enough⟩
  · dsimp only
    rw [AeadCipher.nodup_nonces_iff, AeadCipher.nonces, List.length_map, List.length_range']

/-- Two writes, read byte by byte. -/
theorem read_returns_writes_bytes :
    ∃ answers stream,
      session (read exampleFunctions)
        (new ⟨List.replicate 16 1 ++ (writes exampleFunctions (new ⟨[], []⟩
          (.new CipherType.aes128Gcm.spec (deriveSubkeyForCipher exampleFunctions []
            (List.replicate 16 1) CipherType.aes128Gcm.spec)) CipherType.aes128Gcm.spec [])
              [[1, 2], [3]]).wire, [.gives 4]⟩
          (.new CipherType.aes128Gcm.spec []) CipherType.aes128Gcm.spec []) (List.replicate 5 1) =
        some (answers, stream) ∧
      Ends (List.replicate 5 1) answers ∧ received answers = [1, 2, 3] := by
  have steady : Steady [.gives 4] := fun error member => by simp at member
  have round := read_returns_writes opens_exampleFunctions .aes128Gcm []
    (rfl : (List.replicate 16 (1 : Byte)).length = _) (.new CipherType.aes128Gcm.spec [])
    [[1, 2], [3]] steady (List.replicate 5 1)
  rcases round.2.1 with ⟨answers, stream, done, _, ends⟩
  exact ⟨answers, stream, done, ends (by decide)⟩

theorem length_pieces_replicate (count : Nat) :
    (pieces (List.replicate count [0])).length = count := by
  induction count with
  | zero => rfl
  | succ count ih =>
      rw [List.replicate_succ, pieces, List.flatMap_cons, List.length_append, ← pieces, ih]
      exact Nat.add_comm 1 count

/-- With 2^63 + 1 writes of one byte the counter wraps. -/
theorem not_nodup_nonces_wrapped :
    ¬ (writes exampleFunctions (new ⟨[], []⟩
      (.new CipherType.aes128Gcm.spec (List.replicate 16 1)) CipherType.aes128Gcm.spec [])
        (List.replicate (2 ^ 63 + 1) [0])).nonces.Nodup := by
  rw [writes_behind
    (rfl : _ = (AeadCipher.new CipherType.aes128Gcm.spec (List.replicate 16 1)).behind 0)]
  dsimp only
  rw [AeadCipher.nodup_nonces_iff, length_pieces_replicate]
  omega

end ShadowsocksStream

end Corduit.Engine.Outbound.Shadowsocks
