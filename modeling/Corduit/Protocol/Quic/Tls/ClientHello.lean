import Corduit.Protocol.Quic.Tls.Client
import Corduit.Protocol.Quic.Tls.Parameters
import Corduit.Text.Utf8
import Corduit.Word.Vectors

/-!
# The first message of a client

A ClientHello nests vectors behind lengths of one, two and three bytes.  Its
grammar is a layout; the client writes the lengths by hand, and three of the
lists that it offers go without one or with one of the wrong width.
-/

namespace Corduit.Protocol.Quic

open Text Word

/-- `server_name`. -/
def EXT_SERVER_NAME : Nat := 0
/-- `supported_groups`. -/
def EXT_SUPPORTED_GROUPS : Nat := 10
/-- `signature_algorithms`. -/
def EXT_SIGNATURE_ALGORITHMS : Nat := 13
/-- `supported_versions`. -/
def EXT_SUPPORTED_VERSIONS : Nat := 43

/-- `rsa_pss_rsae_sha256`. -/
def SIG_RSA_PSS_SHA256 : Nat := 0x0804
/-- `rsa_pss_rsae_sha384`. -/
def SIG_RSA_PSS_SHA384 : Nat := 0x0805
/-- `ecdsa_secp256r1_sha256`. -/
def SIG_ECDSA_SECP256R1_SHA256 : Nat := 0x0403
/-- `ecdsa_secp384r1_sha384`. -/
def SIG_ECDSA_SECP384R1_SHA384 : Nat := 0x0503
/-- `ed25519`. -/
def SIG_ED25519 : Nat := 0x0807

/-- An extension of a ClientHello; what the handshake itself does not speak of is data. -/
inductive Extension where
  | serverName (names : List (Nat × List Byte))
  | supportedGroups (groups : List Nat)
  | signatureAlgorithms (schemes : List Nat)
  | alpn (protocols : List (List Byte))
  | supportedVersions (versions : List Nat)
  | keyShare (shares : List (Nat × List Byte))
  | other (kind : Nat) (data : List Byte)
  deriving DecidableEq, Repr

namespace Extension

/-- `ServerNameList`: names behind their type. -/
def serverNames : Layout (List (Nat × List Byte)) :=
  .vector 2 1 65535 (.both (.number 1) (.bounded 2 1 65535))

/-- `NamedGroupList`. -/
def namedGroups : Layout (List Nat) :=
  .vector 2 2 65535 (.number 2)

/-- `SignatureSchemeList`. -/
def signatureSchemes : Layout (List Nat) :=
  .vector 2 2 65534 (.number 2)

/-- `ProtocolNameList`. -/
def protocolNames : Layout (List (List Byte)) :=
  .vector 2 2 65535 (.bounded 1 1 255)

/-- The versions of a client, behind a length of one byte. -/
def versions : Layout (List Nat) :=
  .vector 1 2 254 (.number 2)

/-- The key shares of a client: a list of keys behind their group. -/
def clientShares : Layout (List (Nat × List Byte)) :=
  .vector 2 0 65535 (.both (.number 2) (.bounded 2 1 65535))

/-- The type of an extension. -/
def kind : Extension → Nat
  | serverName _ => EXT_SERVER_NAME
  | supportedGroups _ => EXT_SUPPORTED_GROUPS
  | signatureAlgorithms _ => EXT_SIGNATURE_ALGORITHMS
  | alpn _ => EXT_ALPN
  | supportedVersions _ => EXT_SUPPORTED_VERSIONS
  | keyShare _ => EXT_KEY_SHARE
  | other kind _ => kind

/-- The data of an extension. -/
def body : Extension → List Byte
  | serverName names => serverNames.write names
  | supportedGroups groups => namedGroups.write groups
  | signatureAlgorithms schemes => signatureSchemes.write schemes
  | alpn protocols => protocolNames.write protocols
  | supportedVersions offered => versions.write offered
  | keyShare shares => clientShares.write shares
  | other _ data => data

/-- The types whose data has a grammar. -/
def grammatical : List Nat :=
  [EXT_SERVER_NAME, EXT_SUPPORTED_GROUPS, EXT_SIGNATURE_ALGORITHMS, EXT_ALPN,
    EXT_SUPPORTED_VERSIONS, EXT_KEY_SHARE]

/-- The contents fit their length fields. -/
def bodyFits : Extension → Prop
  | serverName names => serverNames.fits names
  | supportedGroups groups => namedGroups.fits groups
  | signatureAlgorithms schemes => signatureSchemes.fits schemes
  | alpn protocols => protocolNames.fits protocols
  | supportedVersions offered => versions.fits offered
  | keyShare shares => clientShares.fits shares
  | other kind _ => kind ∉ grammatical

/-- Read the data of an extension, all of it. -/
def readBody (kind : Nat) (data : List Byte) : Option Extension :=
  if kind = EXT_SERVER_NAME then (serverNames.wholly data).map serverName
  else if kind = EXT_SUPPORTED_GROUPS then (namedGroups.wholly data).map supportedGroups
  else if kind = EXT_SIGNATURE_ALGORITHMS then (signatureSchemes.wholly data).map signatureAlgorithms
  else if kind = EXT_ALPN then (protocolNames.wholly data).map alpn
  else if kind = EXT_SUPPORTED_VERSIONS then (versions.wholly data).map supportedVersions
  else if kind = EXT_KEY_SHARE then (clientShares.wholly data).map keyShare
  else some (other kind data)

theorem readBody_body {extension : Extension} (fits : extension.bodyFits) :
    readBody extension.kind extension.body = some extension := by
  cases extension with
  | serverName names => exact congrArg (Option.map _) (Layout.wholly_write fits)
  | supportedGroups groups => exact congrArg (Option.map _) (Layout.wholly_write fits)
  | signatureAlgorithms schemes => exact congrArg (Option.map _) (Layout.wholly_write fits)
  | alpn protocols => exact congrArg (Option.map _) (Layout.wholly_write fits)
  | supportedVersions offered => exact congrArg (Option.map _) (Layout.wholly_write fits)
  | keyShare shares => exact congrArg (Option.map _) (Layout.wholly_write fits)
  | other kind data =>
      simp only [bodyFits, grammatical, List.mem_cons, List.not_mem_nil, or_false, not_or] at fits
      rcases fits with ⟨name, groups, schemes, protocols, offered, share⟩
      simp [readBody, Extension.kind, body, name, groups, schemes, protocols, offered, share]

theorem wholly_map_eq {α : Type} {grammar : Layout α} {make : α → Extension} {data : List Byte}
    {extension : Extension} (found : (grammar.wholly data).map make = some extension) :
    ∃ value, make value = extension ∧ data = grammar.write value ∧ grammar.fits value := by
  rcases Option.map_eq_some_iff.mp found with ⟨value, read, made⟩
  exact ⟨value, made, Layout.wholly_eq_some_iff.mp read⟩

theorem eq_of_readBody {kind : Nat} {data : List Byte} {extension : Extension}
    (found : readBody kind data = some extension) :
    (kind, data) = (extension.kind, extension.body) ∧ extension.bodyFits := by
  unfold readBody at found
  split at found
  case isTrue isName =>
    rcases wholly_map_eq found with ⟨names, rfl, rfl, fits⟩
    exact ⟨congrArg (·, _) isName, fits⟩
  split at found
  case isTrue isGroups =>
    rcases wholly_map_eq found with ⟨groups, rfl, rfl, fits⟩
    exact ⟨congrArg (·, _) isGroups, fits⟩
  split at found
  case isTrue isSchemes =>
    rcases wholly_map_eq found with ⟨schemes, rfl, rfl, fits⟩
    exact ⟨congrArg (·, _) isSchemes, fits⟩
  split at found
  case isTrue isAlpn =>
    rcases wholly_map_eq found with ⟨protocols, rfl, rfl, fits⟩
    exact ⟨congrArg (·, _) isAlpn, fits⟩
  split at found
  case isTrue isVersions =>
    rcases wholly_map_eq found with ⟨offered, rfl, rfl, fits⟩
    exact ⟨congrArg (·, _) isVersions, fits⟩
  split at found
  case isTrue isShare =>
    rcases wholly_map_eq found with ⟨shares, rfl, rfl, fits⟩
    exact ⟨congrArg (·, _) isShare, fits⟩
  obtain rfl := Option.some.inj found
  constructor
  · rfl
  · simp_all [bodyFits, grammatical]

/-- A type and its data behind their length. -/
def frame : Layout (Nat × List Byte) :=
  .both (.number 2) (.bounded 2 0 65535)

/-- An extension in its frame. -/
def layout : Layout Extension where
  write extension := frame.write (extension.kind, extension.body)
  read bytes := (frame.read bytes).bind fun (framed, rest) =>
    (readBody framed.1 framed.2).map fun extension => (extension, rest)
  fits extension := frame.fits (extension.kind, extension.body) ∧ extension.bodyFits
  read_write extension rest := by
    rintro ⟨framed, fits⟩
    simp [frame.read_write _ rest framed, readBody_body fits]
  write_read bytes extension rest found := by
    rcases Option.bind_eq_some_iff.mp found with ⟨⟨⟨kind, data⟩, behind⟩, framed, mapped⟩
    rcases Option.map_eq_some_iff.mp mapped with ⟨other, body, same⟩
    rcases Prod.mk.inj same with ⟨rfl, rfl⟩
    rcases eq_of_readBody body with ⟨pair, fits⟩
    rw [← pair]
    rcases frame.write_read _ _ _ framed with ⟨whole, room⟩
    exact ⟨whole, room, fits⟩

end Extension

/-- A ClientHello. -/
structure ClientHello where
  version : Nat
  random : List Byte
  session : List Byte
  suites : List Nat
  compression : List Byte
  extensions : List Extension
  deriving DecidableEq, Repr

namespace ClientHello

/-- The fields in the order in which they are written. -/
def fields : Layout (Nat × List Byte × List Byte × List Nat × List Byte × List Extension) :=
  .both (.number 2) (.both (.exactly 32) (.both (.bounded 1 0 32)
    (.both (.vector 2 2 65534 (.number 2)) (.both (.bounded 1 1 255)
      (.vector 2 8 65535 Extension.layout)))))

/-- The body of the message. -/
def layout : Layout ClientHello :=
  fields.through
    (fun hello => (hello.version, hello.random, hello.session, hello.suites, hello.compression,
      hello.extensions))
    (fun (version, random, session, suites, compression, extensions) =>
      ⟨version, random, session, suites, compression, extensions⟩)
    (fun _ => rfl) (fun _ => rfl)

/-- A handshake message that is a ClientHello with nothing behind it. -/
def read (bytes : List Byte) : Option ClientHello :=
  match takeHsMessage bytes with
  | some (kind, body, []) => if kind = HS_CLIENT_HELLO then layout.wholly body else none
  | _ => none

end ClientHello

theorem eq_of_takeHsMessage {kind other : Byte} {body taken : List Byte}
    (found : takeHsMessage (hsMessage kind body) = some (other, taken, [])) : taken = body := by
  simp only [hsMessage, toBeBytes, List.cons_append, List.nil_append, takeHsMessage] at found
  split at found
  · cases found
  · rcases Prod.mk.inj (Option.some.inj found) with ⟨_, pair⟩
    rcases Prod.mk.inj pair with ⟨taken_eq, nothing⟩
    rw [← taken_eq]
    exact List.take_of_length_le (List.drop_eq_nil_iff.mp nothing)

/-- Type, length and data. -/
def encodeExtension (extType : Nat) (data : List Byte) : List Byte :=
  toBeBytes 2 (BitVec.ofNat 16 extType) ++ toBeBytes 2 (BitVec.ofNat 16 data.length) ++ data

section Offer

variable (serverName : String) (alpn : List String) (tp : TransportParameters) (scid : List Byte)
  (clientRandom clientPub : Octets 32)

/-- The server name. -/
def sni : List Byte :=
  0 :: toBeBytes 2 (BitVec.ofNat 16 (asBytes serverName).length) ++ asBytes serverName

/-- The schemes on offer. -/
def schemes : List Nat :=
  [SIG_RSA_PSS_SHA256, SIG_RSA_PSS_SHA384, SIG_ECDSA_SECP256R1_SHA256, SIG_ECDSA_SECP384R1_SHA384,
    SIG_ED25519]

/-- The list of schemes. -/
def sigs : List Byte :=
  toBeBytes 2 (BitVec.ofNat 16 (schemes.length * 2)) ++
    schemes.flatMap fun scheme => toBeBytes 2 (BitVec.ofNat 16 scheme)

/-- The list of protocols. -/
def alpnBody : List Byte :=
  let list := alpn.flatMap fun protocol =>
    BitVec.ofNat 8 (asBytes protocol).length :: asBytes protocol
  toBeBytes 2 (BitVec.ofNat 16 list.length) ++ list

/-- The key share. -/
def ks : List Byte :=
  [0x00, 0x1d] ++ toBeBytes 2 (BitVec.ofNat 16 32) ++ clientPub.bytes

/-- The extensions, in order. -/
def exts : List (List Byte) :=
  [encodeExtension EXT_SERVER_NAME (sni serverName),
    encodeExtension EXT_SUPPORTED_GROUPS [0x00, 0x02, 0x00, 0x1d],
    encodeExtension EXT_SIGNATURE_ALGORITHMS sigs,
    encodeExtension EXT_SUPPORTED_VERSIONS [0x00, 0x02, 0x03, 0x04]] ++
  (if alpn.isEmpty then [] else [encodeExtension EXT_ALPN (alpnBody alpn)]) ++
  [encodeExtension EXT_QUIC_TP (encodeClientTp tp scid), encodeExtension EXT_KEY_SHARE (ks clientPub)]

/-- The extensions behind their length. -/
def extsWire (exts : List (List Byte)) : List Byte :=
  toBeBytes 2 (BitVec.ofNat 16 (exts.map List.length).sum) ++ exts.flatten

/-- The message that `Tls13Client::new` builds, with the random and the public key that it
has drawn. -/
def clientHello : List Byte :=
  hsMessage HS_CLIENT_HELLO <|
    [0x03, 0x03] ++ clientRandom.bytes ++ [0x00] ++
      [0x00, 0x06, 0x13, 0x01, 0x13, 0x02, 0x13, 0x03] ++ [0x01, 0x00] ++
        extsWire (exts serverName alpn tp scid clientPub)

/-- What the client has to offer. -/
def offer : ClientHello where
  version := 0x0303
  random := clientRandom.bytes
  session := []
  suites := [SUITE_AES_128, SUITE_AES_256, SUITE_CHACHA]
  compression := [0]
  extensions :=
    [.serverName [(0, asBytes serverName)], .supportedGroups [0x001d],
      .signatureAlgorithms schemes, .supportedVersions [0x0304]] ++
    (if alpn.isEmpty then [] else [.alpn (alpn.map asBytes)]) ++
    [.other EXT_QUIC_TP (encodeClientTp tp scid), .keyShare [(0x001d, clientPub.bytes)]]

/-- The message says what the client has to offer. -/
def IsOffered : Prop :=
  ClientHello.read (clientHello serverName alpn tp scid clientRandom clientPub) =
    some (offer serverName alpn tp scid clientRandom clientPub)

end Offer

section Fits

variable {serverName : String} {alpn : List String} {tp : TransportParameters} {scid : List Byte}
  {clientRandom clientPub : Octets 32}

theorem version_fits : (Layout.number 2).fits 0x0303 :=
  (by decide : 0x0303 < 256 ^ 2)

theorem session_fits : (Layout.bounded 1 0 32).fits [] :=
  ⟨by decide, by decide⟩

theorem compression_fits : (Layout.bounded 1 1 255).fits [0] :=
  ⟨by decide, by decide⟩

theorem suites_fit : (Layout.vector 2 2 65534 (.number 2)).fits
    [SUITE_AES_128, SUITE_AES_256, SUITE_CHACHA] :=
  ⟨⟨by decide, by decide⟩, Layout.allFit_number (by decide)⟩

end Fits

section Written

variable {serverName : String} {alpn : List String} {tp : TransportParameters} {scid : List Byte}
  {clientRandom clientPub : Octets 32}

theorem encodeExtension_eq (extType : Nat) (data : List Byte) :
    encodeExtension extType data = Extension.frame.write (extType, data) := by
  simp [encodeExtension, Extension.frame, Layout.both, Layout.number, Layout.bounded]

/-- The server name has no list around it: what stands in the place of the length of the
list is the type of the name and the high byte of the length of the name. -/
theorem readBody_sni (short : (asBytes serverName).length ≤ 255) :
    Extension.readBody EXT_SERVER_NAME (sni serverName) = none := by
  have high : (BitVec.ofNat 16 (asBytes serverName).length >>> 8).setWidth 8 = (0 : Byte) := by
    apply BitVec.eq_of_toNat_eq
    simp [Nat.shiftRight_eq_div_pow]
    omega
  have split : sni serverName = [0, 0] ++
      ((BitVec.ofNat 16 (asBytes serverName).length).setWidth 8 :: asBytes serverName) := by
    simp [sni, toBeBytes, high]
  have broken : Extension.serverNames.wholly (sni serverName) = none := by
    rw [split]
    refine Layout.vector_wholly_eq_none ?_ ?_
    · rfl
    · simp [ofBeBytes]
  simp [Extension.readBody, broken]

theorem read_sni (short : (asBytes serverName).length ≤ 255) (rest : List Byte) :
    Extension.layout.read (encodeExtension EXT_SERVER_NAME (sni serverName) ++ rest) = none := by
  have small : (sni serverName).length ≤ 65535 := by
    simp [sni]
    omega
  have framed := Extension.frame.read_write (EXT_SERVER_NAME, sni serverName) rest
    ⟨Nat.pow_pos (by decide), Layout.fits_bounded (Nat.zero_le _) small (by decide)⟩
  simp [Extension.layout, encodeExtension_eq, framed, readBody_sni short]

theorem fields_written (bytes : List Byte) :
    [0x03, 0x03] ++ clientRandom.bytes ++ [0x00] ++
        [0x00, 0x06, 0x13, 0x01, 0x13, 0x02, 0x13, 0x03] ++ [0x01, 0x00] ++ bytes =
      (Layout.number 2).write 0x0303 ++ ((Layout.exactly 32).write clientRandom.bytes ++
        ((Layout.bounded 1 0 32).write [] ++ ((Layout.vector 2 2 65534 (.number 2)).write
          [SUITE_AES_128, SUITE_AES_256, SUITE_CHACHA] ++
            ((Layout.bounded 1 1 255).write [0] ++ bytes)))) := by
  have suites : (Layout.vector 2 2 65534 (.number 2)).write
      [SUITE_AES_128, SUITE_AES_256, SUITE_CHACHA] =
        [0x00, 0x06, 0x13, 0x01, 0x13, 0x02, 0x13, 0x03] := by
    decide
  rw [suites]
  simp [Layout.number, Layout.exactly, Layout.bounded, toBeBytes]

/-- The body of the message is read only when its extensions are. -/
theorem readMany_of_layout_read {exts : List (List Byte)} {hello : ClientHello}
    (read : ClientHello.layout.read ([0x03, 0x03] ++ clientRandom.bytes ++ [0x00] ++
      [0x00, 0x06, 0x13, 0x01, 0x13, 0x02, 0x13, 0x03] ++ [0x01, 0x00] ++ extsWire exts) =
        some (hello, [])) :
    Extension.layout.readMany exts.flatten = some hello.extensions := by
  rw [fields_written] at read
  rcases Option.map_eq_some_iff.mp read with ⟨⟨found, rest⟩, fields, same⟩
  cases same
  have afterVersion := Layout.second_of_both_read version_fits fields
  have afterRandom := Layout.second_of_both_read clientRandom.length_bytes afterVersion
  have afterSession := Layout.second_of_both_read session_fits afterRandom
  have afterSuites := Layout.second_of_both_read suites_fit afterSession
  have afterCompression := Layout.second_of_both_read compression_fits afterSuites
  exact Layout.readMany_of_vector_read (length_toBeBytes 2 _) afterCompression

/-- No server reads the message. -/
theorem read_clientHello (short : (asBytes serverName).length ≤ 255) :
    ClientHello.read (clientHello serverName alpn tp scid clientRandom clientPub) = none := by
  unfold ClientHello.read
  split
  · rename_i kind body found
    split
    · rw [eq_of_takeHsMessage found]
      apply Layout.wholly_eq_none
      intro hello read
      have many := readMany_of_layout_read read
      have broken := read_sni short (exts serverName alpn tp scid clientPub).tail.flatten
      have front : (exts serverName alpn tp scid clientPub).flatten =
          encodeExtension EXT_SERVER_NAME (sni serverName) ++
            (exts serverName alpn tp scid clientPub).tail.flatten := rfl
      rw [front, Layout.readMany_eq_none _ broken] at many
      · cases many
      · simp [encodeExtension, toBeBytes]
    · rfl
  · rfl

/-- The message does not say what the client has to offer. -/
theorem not_isOffered (short : (asBytes serverName).length ≤ 255) :
    ¬ IsOffered serverName alpn tp scid clientRandom clientPub := by
  rw [IsOffered, read_clientHello short]
  rintro ⟨⟩

end Written

theorem asBytes_example : asBytes "example.org" = ascii "example.org" := by
  decide

/-- A client that asks for HTTP/3. -/
theorem example_not_isOffered :
    ¬ IsOffered "example.org" ["h3"] {} [1, 2, 3, 4] (.filled 32 7) (.filled 32 9) :=
  not_isOffered (by rw [asBytes_example]; decide)

/-- Names and protocols of the right size are not enough. -/
theorem sized_not_isOffered :
    ¬ ∀ serverName alpn tp scid clientRandom clientPub, (asBytes serverName).length ≤ 255 →
      (∀ protocol ∈ alpn, 1 ≤ (asBytes protocol).length ∧ (asBytes protocol).length ≤ 255) →
        IsOffered serverName alpn tp scid clientRandom clientPub := by
  intro every
  have short : (asBytes "example.org").length ≤ 255 := by
    rw [asBytes_example]
    decide
  have offered := every "example.org" [] {} [1, 2, 3, 4] (.filled 32 7) (.filled 32 9) short
    fun protocol member => absurd member List.not_mem_nil
  rw [IsOffered, read_clientHello short] at offered
  cases offered

end Corduit.Protocol.Quic
