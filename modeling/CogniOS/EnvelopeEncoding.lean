/-
# The encoding of an envelope

`decode_canonical_v2_envelope`: the bytes of an envelope are read, encoded again and compared,
and the document is checked.  The event, the key and the signature do not fix the bytes: the
version is compared as a number, and the last character of the signature has four bits that no
byte of it takes.

* `decodeCanonicalV2Envelope_eq_ok` : what is accepted is the encoding of a valid envelope;
* `validateV2Envelope_eq_ok` : a valid envelope, field by field;
* `decodeCanonicalV2Envelope_eq_iff` : when two accepted texts of one event, key and signature
  are the same.
-/
import CogniOS.LedgerV2
import CogniOS.JsonRead

namespace LedgerV2

/-! ## Decoding -/

/-- The document that some bytes hold. -/
def readDocument (encoded : List UInt8) : Option Json :=
  (Utf8.decode encoded).bind (Json.loads Json.lastWins)

/-- `decode_canonical_v2_envelope`.  A float literal is kept as it stands where `json.dumps`
writes the `repr` of its value: `reprs` holds of the literals that are their own `repr`. -/
def decodeCanonicalV2Envelope (h : Hasher) (a : Authority) (reprs : FloatLit → Bool)
    (encoded : List UInt8) : Except CogniError Json := do
  require (encoded ≠ []) (error "Ledger v2 encoded envelope is invalid")
  require (encoded.length ≤ maxDocumentBytes)
    (error "Ledger v2 encoded envelope exceeds its limit")
  let document ← orRaise (readDocument encoded) (error "Ledger v2 encoded envelope is invalid")
  let canonical ← canonicalJsonBytes document
  require (canonical = encoded ∧ document.floatsAll reprs = true)
    (error "Ledger v2 envelope bytes are not canonical")
  validateV2Envelope h a document
  .ok document

/-- **What is accepted** is the encoding of a valid envelope. -/
theorem decodeCanonicalV2Envelope_eq_ok {h : Hasher} {a : Authority} {reprs : FloatLit → Bool}
    {encoded : List UInt8} {document : Json} :
    decodeCanonicalV2Envelope h a reprs encoded = .ok document ↔
      document.WellFormed ∧ encoded = document.encoding ∧ document.floatsAll reprs = true ∧
        validateV2Envelope h a document = .ok () := by
  constructor
  · intro hok
    unfold decodeCanonicalV2Envelope at hok
    obtain ⟨-, hok⟩ := require_bind_eq_ok.mp hok
    obtain ⟨-, hok⟩ := require_bind_eq_ok.mp hok
    obtain ⟨read, hread, hok⟩ := bind_eq_ok.mp hok
    obtain ⟨canonical, hcanonical, hok⟩ := bind_eq_ok.mp hok
    obtain ⟨⟨heq, hfloats⟩, hok⟩ := require_bind_eq_ok.mp hok
    obtain ⟨_, hvalid, hend⟩ := bind_eq_ok.mp hok
    cases hend
    obtain ⟨text, -, hloads⟩ := Option.bind_eq_some_iff.mp (orRaise_eq_ok.mp hread)
    refine ⟨Json.wellFormed_loads Json.sortsPairs_lastWins hloads, ?_, hfloats, hvalid⟩
    rw [← heq, (Json.boundedEncoding_eq_ok.mp hcanonical).2]
  · rintro ⟨hwell, rfl, hfloats, hvalid⟩
    have hread : readDocument document.encoding = some document :=
      Json.loads_encoding Json.keepsSorted_lastWins hwell
    have hbytes : canonicalJsonBytes document = .ok document.encoding := by
      unfold validateV2Envelope at hvalid
      obtain ⟨_, hexact, -⟩ := bind_eq_ok.mp hvalid
      unfold exactObject at hexact
      obtain ⟨-, hexact⟩ := require_bind_eq_ok.mp hexact
      obtain ⟨bytes, hbytes, -⟩ := bind_eq_ok.mp hexact
      rw [hbytes, (Json.boundedEncoding_eq_ok.mp hbytes).2]
    have hlen := (Json.boundedEncoding_eq_ok.mp hbytes).1
    unfold decodeCanonicalV2Envelope
    refine require_bind_eq_ok.mpr ⟨?_, require_bind_eq_ok.mpr ⟨hlen, ?_⟩⟩
    · intro hnil
      rw [readDocument, hnil] at hread
      cases hread
    refine bind_eq_ok.mpr ⟨document, orRaise_eq_ok.mpr hread, ?_⟩
    refine bind_eq_ok.mpr ⟨_, hbytes, require_bind_eq_ok.mpr ⟨⟨rfl, hfloats⟩, ?_⟩⟩
    exact bind_eq_ok.mpr ⟨(), hvalid, rfl⟩

/-! ## The fields of an envelope -/

/-- The parts of an envelope that its other fields do not fix. -/
@[ext]
structure Parts where
  event : Json
  keyId : Json
  version : Json
  signature : List Char
  deriving DecidableEq

/-- The envelope with these parts. -/
def Parts.document (h : Hasher) (p : Parts) : Json :=
  .obj [("algorithm", .str signatureAlgorithm), ("domain", .str domain), ("event", p.event),
    ("event_hash", eventDigest h p.event), ("key_id", p.keyId), ("kind", .str "ledger-event"),
    ("protocol_id", .str protocolId), ("schema_version", p.version),
    ("signature_b64", .str (String.ofList p.signature))]

section Fields

variable (h : Hasher) (p : Parts)

@[simp] theorem get_document_event : (p.document h).get "event" = p.event := rfl

@[simp] theorem get_document_eventHash :
    (p.document h).get "event_hash" = eventDigest h p.event := rfl

@[simp] theorem get_document_keyId : (p.document h).get "key_id" = p.keyId := rfl

@[simp] theorem get_document_version : (p.document h).get "schema_version" = p.version := rfl

@[simp] theorem get_document_signature :
    (p.document h).get "signature_b64" = .str (String.ofList p.signature) := rfl

theorem identity_document :
    (p.document h).get "protocol_id" = .str protocolId ∧
      (p.document h).get "domain" = .str domain ∧
      (p.document h).get "kind" = .str "ledger-event" ∧
      (p.document h).get "algorithm" = .str signatureAlgorithm :=
  ⟨rfl, rfl, rfl, rfl⟩

theorem keys_document : (p.document h).keys = envelopeKeys := rfl

theorem wellFormed_document :
    (p.document h).WellFormed ↔
      p.event.WellFormed ∧ p.keyId.WellFormed ∧ p.version.WellFormed := by
  constructor
  · rintro ⟨-, -, -, hevent, -, hkey, -, -, hversion, -⟩
    exact ⟨hevent, hkey, hversion⟩
  · rintro ⟨hevent, hkey, hversion⟩
    refine ⟨?_, trivial, trivial, hevent, trivial, hkey, trivial, trivial, hversion, trivial,
      trivial⟩
    rw [Json.keySorted_iff]
    show envelopeKeys.Pairwise (· < ·)
    decide +kernel

end Fields

/-- What is checked of the parts of an envelope, with the bytes of its signature. -/
structure Parts.Valid (h : Hasher) (a : Authority) (p : Parts) (bytes : List UInt8) : Prop where
  version : p.version.equalsInt schemaVersion = true
  keyId : requireSha256 p.keyId "Ledger v2 key_id" = .ok ()
  event : validateV2Event a p.event = .ok ()
  eventSize : p.event.encoding.length ≤ maxDocumentBytes
  size : (p.document h).encoding.length ≤ maxDocumentBytes
  signatureSize : p.signature.length ≤ 1024
  decoded : Base64.decode true p.signature = some bytes
  signature : bytes.length = 64

theorem exactObject_eq_ok {value : Json} {keys : List String} {label : String} :
    exactObject value keys label = .ok () ↔
      value.isObj = true ∧ value.keys = keys ∧ value.encoding.length ≤ maxDocumentBytes := by
  unfold exactObject
  rw [require_bind_eq_ok]
  constructor
  · rintro ⟨⟨hobj, hkeys⟩, hok⟩
    obtain ⟨bytes, hbytes, -⟩ := bind_eq_ok.mp hok
    exact ⟨hobj, hkeys, (Json.boundedEncoding_eq_ok.mp hbytes).1⟩
  · rintro ⟨hobj, hkeys, hlen⟩
    exact ⟨⟨hobj, hkeys⟩, bind_eq_ok.mpr ⟨_, Json.boundedEncoding_eq_ok.mpr ⟨hlen, rfl⟩, rfl⟩⟩

/-- An object with nine fields is known by its keys. -/
theorem eq_document_of_keys {envelope : Json} (hobj : envelope.isObj = true)
    (hkeys : envelope.keys = envelopeKeys) :
    envelope = .obj [("algorithm", envelope.get "algorithm"), ("domain", envelope.get "domain"),
      ("event", envelope.get "event"), ("event_hash", envelope.get "event_hash"),
      ("key_id", envelope.get "key_id"), ("kind", envelope.get "kind"),
      ("protocol_id", envelope.get "protocol_id"),
      ("schema_version", envelope.get "schema_version"),
      ("signature_b64", envelope.get "signature_b64")] := by
  cases envelope with
  | obj fields =>
    rw [Json.keys_obj, envelopeKeys] at hkeys
    obtain ⟨⟨k₁, v₁⟩, r₁, rfl, rfl, h₁⟩ := List.map_eq_cons_iff.mp hkeys
    obtain ⟨⟨k₂, v₂⟩, r₂, rfl, rfl, h₂⟩ := List.map_eq_cons_iff.mp h₁
    obtain ⟨⟨k₃, v₃⟩, r₃, rfl, rfl, h₃⟩ := List.map_eq_cons_iff.mp h₂
    obtain ⟨⟨k₄, v₄⟩, r₄, rfl, rfl, h₄⟩ := List.map_eq_cons_iff.mp h₃
    obtain ⟨⟨k₅, v₅⟩, r₅, rfl, rfl, h₅⟩ := List.map_eq_cons_iff.mp h₄
    obtain ⟨⟨k₆, v₆⟩, r₆, rfl, rfl, h₆⟩ := List.map_eq_cons_iff.mp h₅
    obtain ⟨⟨k₇, v₇⟩, r₇, rfl, rfl, h₇⟩ := List.map_eq_cons_iff.mp h₆
    obtain ⟨⟨k₈, v₈⟩, r₈, rfl, rfl, h₈⟩ := List.map_eq_cons_iff.mp h₇
    obtain ⟨⟨k₉, v₉⟩, r₉, rfl, rfl, h₉⟩ := List.map_eq_cons_iff.mp h₈
    obtain rfl := List.map_eq_nil_iff.mp h₉
    rfl
  | _ => cases hobj

/-- **A valid envelope, field by field.** -/
theorem validateV2Envelope_eq_ok {h : Hasher} {a : Authority} {envelope : Json} :
    validateV2Envelope h a envelope = .ok () ↔
      ∃ p bytes, envelope = Parts.document h p ∧ p.Valid h a bytes := by
  constructor
  · intro hok
    unfold validateV2Envelope at hok
    obtain ⟨_, hexact, hok⟩ := bind_eq_ok.mp hok
    obtain ⟨hobj, hkeys, hsize⟩ := exactObject_eq_ok.mp hexact
    obtain ⟨⟨hversion, hprotocol, hdomain, hkind, halgorithm⟩, hok⟩ := require_bind_eq_ok.mp hok
    obtain ⟨_, hkey, hok⟩ := bind_eq_ok.mp hok
    obtain ⟨_, hevent, hok⟩ := bind_eq_ok.mp hok
    obtain ⟨digest, hdigest, hok⟩ := bind_eq_ok.mp hok
    obtain ⟨hhash, hok⟩ := require_bind_eq_ok.mp hok
    obtain ⟨bytes, hbytes, hok⟩ := bind_eq_ok.mp hok
    have hlen : bytes.length = 64 := require_eq_ok.mp hok
    unfold decodedSignature at hbytes
    obtain ⟨text, htext, hbytes⟩ := bind_eq_ok.mp hbytes
    obtain ⟨hshort, hbytes⟩ := require_bind_eq_ok.mp hbytes
    have hsignature := Json.asStr?_eq_some.mp (orRaise_eq_ok.mp htext)
    have heventSize : (envelope.get "event").encoding.length ≤ maxDocumentBytes := by
      unfold canonicalJsonSha256 at hdigest
      obtain ⟨encoded, hencoded, -⟩ := bind_eq_ok.mp hdigest
      exact (Json.boundedEncoding_eq_ok.mp hencoded).1
    have hdocument : envelope = Parts.document h
        ⟨envelope.get "event", envelope.get "key_id", envelope.get "schema_version",
          text.toList⟩ := by
      have hshape := eq_document_of_keys hobj hkeys
      rw [halgorithm, hdomain, hkind, hprotocol, hhash, hsignature,
        canonicalJsonSha256_eq_ok hdigest] at hshape
      rw [Parts.document, String.ofList_toList]
      exact hshape
    refine ⟨_, bytes, hdocument, ?_⟩
    exact
      { version := hversion
        keyId := hkey
        event := hevent
        eventSize := heventSize
        size := by rw [← hdocument]; exact hsize
        signatureSize := by rw [String.length_toList]; exact hshort
        decoded := orRaise_eq_ok.mp hbytes
        signature := hlen }
  · rintro ⟨p, bytes, rfl, hp⟩
    unfold validateV2Envelope
    have hexact : exactObject (p.document h) envelopeKeys "Ledger v2 envelope" = .ok () :=
      exactObject_eq_ok.mpr ⟨rfl, keys_document h p, hp.size⟩
    refine bind_eq_ok.mpr ⟨(), hexact, ?_⟩
    refine require_bind_eq_ok.mpr ⟨⟨hp.version, identity_document h p⟩, ?_⟩
    refine bind_eq_ok.mpr ⟨(), hp.keyId, bind_eq_ok.mpr ⟨(), hp.event, ?_⟩⟩
    have hdigest : canonicalJsonSha256 h ((p.document h).get "event") =
        .ok (h.hexdigest p.event.encoding) := by
      unfold canonicalJsonSha256
      exact bind_eq_ok.mpr ⟨_, Json.boundedEncoding_eq_ok.mpr ⟨hp.eventSize, rfl⟩, rfl⟩
    refine bind_eq_ok.mpr ⟨_, hdigest, require_bind_eq_ok.mpr ⟨rfl, ?_⟩⟩
    have hdecoded : decodedSignature ((p.document h).get "signature_b64") = .ok bytes := by
      unfold decodedSignature
      refine bind_eq_ok.mpr ⟨_, orRaise_eq_ok.mpr rfl, require_bind_eq_ok.mpr ⟨?_, ?_⟩⟩
      · rw [String.length_ofList]
        exact hp.signatureSize
      · rw [String.toList_ofList]
        exact orRaise_eq_ok.mpr hp.decoded
    exact bind_eq_ok.mpr ⟨bytes, hdecoded, require_eq_ok.mpr hp.signature⟩

/-! ## The spelling of a signature -/

theorem escapeChar_charOf : ∀ n < 64, Json.escapeChar (Base64.charOf n) = [Base64.charOf n] := by
  decide +kernel

theorem toNat_charOf : ∀ n < 64, (Base64.charOf n).toNat < 0x80 := by decide +kernel

/-- The text of an encoding stands in a document as it is. -/
theorem length_quote_encodeSpare {n : ℕ} {bytes : List UInt8} (hn : n < Base64.spellings bytes) :
    (Utf8.encode (Json.quote (Base64.encodeSpare n bytes))).length =
      (Base64.encode bytes).length + 2 := by
  have hchars : ∀ c ∈ Base64.encodeSpare n bytes,
      Json.escapeChar c = [c] ∧ c.toNat < 0x80 := by
    intro c hc
    rcases Base64.mem_encodeSpare hn hc with rfl | ⟨m, hm, rfl⟩
    · decide
    · exact ⟨escapeChar_charOf m hm, toNat_charOf m hm⟩
  have hflat : (Base64.encodeSpare n bytes).flatMap Json.escapeChar =
      Base64.encodeSpare n bytes :=
    Json.flatMap_escapeChar_self fun c hc => (hchars c hc).1
  have hascii : ∀ c ∈ Json.quote (Base64.encodeSpare n bytes), c.toNat < 0x80 := by
    intro c hc
    rw [Json.quote, hflat] at hc
    rcases List.mem_cons.mp hc with rfl | hc
    · decide
    rcases List.mem_append.mp hc with hc | hc
    · exact (hchars c hc).2
    · rw [List.mem_singleton.mp hc]
      decide
  rw [Utf8.length_encode_ascii hascii, Json.quote, hflat, List.length_cons,
    List.length_append, Base64.length_encodeSpare]
  rfl

/-- The signature is the last field of an envelope. -/
theorem encoding_document (h : Hasher) (event keyId version : Json) :
    ∃ front, ∀ signature : List Char,
      (Parts.document h ⟨event, keyId, version, signature⟩).encoding =
        front ++ Utf8.encode (Json.quote signature) ++ Utf8.encode ['}'] := by
  refine ⟨Utf8.encode (('{' :: (Json.quote "algorithm".toList ++ ':' ::
    (Json.dumps 0 (.str signatureAlgorithm)))) ++
    ([("domain", Json.str domain), ("event", event), ("event_hash", eventDigest h event),
      ("key_id", keyId), ("kind", .str "ledger-event"), ("protocol_id", .str protocolId),
      ("schema_version", version)].flatMap fun q =>
        ',' :: (Json.quote q.1.toList ++ ':' :: Json.dumps 0 q.2)) ++
    (',' :: (Json.quote "signature_b64".toList ++ [':']))), fun signature => ?_⟩
  rw [← Utf8.encode_append, ← Utf8.encode_append, Json.encoding, Parts.document]
  congr 1
  simp only [Json.dumps, Json.dumpsFields, List.replicate_zero, List.nil_append,
    List.flatMap_cons, List.flatMap_nil, List.append_assoc, List.cons_append, List.append_nil,
    String.toList_ofList]

/-- The parts with another spelling of the signature. -/
def Parts.respell (p : Parts) (n : ℕ) (bytes : List UInt8) : Parts :=
  { p with signature := Base64.encodeSpare n bytes }

/-- Every spelling of the signature of a valid envelope is valid. -/
theorem Parts.Valid.respell {h : Hasher} {a : Authority} {p : Parts} {bytes : List UInt8}
    (hp : p.Valid h a bytes) {n : ℕ} (hn : n < Base64.spellings bytes) :
    (p.respell n bytes).Valid h a bytes := by
  obtain ⟨m, hm, hm'⟩ := Base64.eq_encodeSpare_of_decode hp.decoded
  have hlen : (Base64.encodeSpare n bytes).length = p.signature.length := by
    rw [hm', Base64.length_encodeSpare, Base64.length_encodeSpare]
  have hsize : ((p.respell n bytes).document h).encoding.length =
      (p.document h).encoding.length := by
    obtain ⟨front, hfront⟩ := encoding_document h p.event p.keyId p.version
    have hold : p.document h =
        Parts.document h ⟨p.event, p.keyId, p.version, Base64.encodeSpare m bytes⟩ := by
      rw [← hm']
    rw [hold, Parts.respell, hfront, hfront]
    simp only [List.length_append, length_quote_encodeSpare hn, length_quote_encodeSpare hm]
  exact
    { version := hp.version
      keyId := hp.keyId
      event := hp.event
      eventSize := hp.eventSize
      size := by rw [hsize]; exact hp.size
      signatureSize := by
        show (Base64.encodeSpare n bytes).length ≤ 1024
        rw [hlen]
        exact hp.signatureSize
      decoded := Base64.decode_encodeSpare true hn
      signature := hp.signature }

theorem wellFormed_respell {h : Hasher} {p : Parts} (n : ℕ) (bytes : List UInt8)
    (hw : (p.document h).WellFormed) : ((p.respell n bytes).document h).WellFormed :=
  (wellFormed_document h _).mpr ((wellFormed_document h p).mp hw)

theorem floatsAll_respell (h : Hasher) (p : Parts) (n : ℕ) (bytes : List UInt8)
    (reprs : FloatLit → Bool) :
    ((p.respell n bytes).document h).floatsAll reprs = (p.document h).floatsAll reprs := rfl

/-! ## What the parts leave open -/

/-- The version as some bytes write it. -/
def writtenVersion (encoded : List UInt8) : Json :=
  ((readDocument encoded).getD .null).get "schema_version"

/-- The spare bits of the signature as some bytes write it. -/
def writtenSpareBits (encoded : List UInt8) : ℕ :=
  Base64.spareBits
    ((((readDocument encoded).getD .null).get "signature_b64").asStr?.getD "").toList

/-- Two documents with one event, one key and one signature. -/
def SameParts (d e : Json) : Prop :=
  d.get "event" = e.get "event" ∧ d.get "key_id" = e.get "key_id" ∧
    decodedSignature (d.get "signature_b64") = decodedSignature (e.get "signature_b64")

theorem decodedSignature_document {h : Hasher} {a : Authority} {p : Parts} {bytes : List UInt8}
    (hp : p.Valid h a bytes) :
    decodedSignature ((p.document h).get "signature_b64") = .ok bytes := by
  unfold decodedSignature
  refine bind_eq_ok.mpr ⟨_, orRaise_eq_ok.mpr rfl, require_bind_eq_ok.mpr ⟨?_, ?_⟩⟩
  · rw [String.length_ofList]
    exact hp.signatureSize
  · rw [String.toList_ofList]
    exact orRaise_eq_ok.mpr hp.decoded

theorem written_encoding {h : Hasher} {p : Parts} (hw : (p.document h).WellFormed) :
    writtenVersion (p.document h).encoding = p.version ∧
      writtenSpareBits (p.document h).encoding = Base64.spareBits p.signature := by
  have hread : readDocument (p.document h).encoding = some (p.document h) :=
    Json.loads_encoding Json.keepsSorted_lastWins hw
  rw [writtenVersion, writtenSpareBits, hread]
  refine ⟨rfl, ?_⟩
  show Base64.spareBits (String.ofList p.signature).toList = _
  rw [String.toList_ofList]

/-- **When the bytes are fixed.**  Two accepted texts of one event, key and signature are the
same where they write the version alike and the spare bits of the signature alike; and no
accepted text is the only one of its event, key and signature. -/
theorem decodeCanonicalV2Envelope_eq_iff (h : Hasher) (a : Authority) (reprs : FloatLit → Bool) :
    (∀ x y d e, decodeCanonicalV2Envelope h a reprs x = .ok d →
      decodeCanonicalV2Envelope h a reprs y = .ok e → SameParts d e →
      (x = y ↔ writtenVersion x = writtenVersion y ∧ writtenSpareBits x = writtenSpareBits y)) ∧
    ∀ x d, decodeCanonicalV2Envelope h a reprs x = .ok d →
      ∃ y e, decodeCanonicalV2Envelope h a reprs y = .ok e ∧ SameParts d e ∧ x ≠ y := by
  constructor
  · intro x y d e hx hy hsame
    refine ⟨by rintro rfl; exact ⟨rfl, rfl⟩, fun ⟨hversion, hspare⟩ => ?_⟩
    obtain ⟨hwellx, rfl, -, hvalidx⟩ := decodeCanonicalV2Envelope_eq_ok.mp hx
    obtain ⟨hwelly, rfl, -, hvalidy⟩ := decodeCanonicalV2Envelope_eq_ok.mp hy
    obtain ⟨p, bytes, rfl, hp⟩ := validateV2Envelope_eq_ok.mp hvalidx
    obtain ⟨q, bytes', rfl, hq⟩ := validateV2Envelope_eq_ok.mp hvalidy
    obtain ⟨hevent, hkey, hsignature⟩ := hsame
    rw [decodedSignature_document hp, decodedSignature_document hq] at hsignature
    obtain rfl := Except.ok.inj hsignature
    rw [(written_encoding hwellx).1, (written_encoding hwelly).1] at hversion
    rw [(written_encoding hwellx).2, (written_encoding hwelly).2] at hspare
    have htext := (Base64.eq_iff_spareBits_eq hp.decoded hq.decoded).mpr hspare
    have hparts : p = q := Parts.ext hevent hkey hversion htext
    rw [hparts]
  · intro x d hx
    obtain ⟨hwell, rfl, hfloats, hvalid⟩ := decodeCanonicalV2Envelope_eq_ok.mp hx
    obtain ⟨p, bytes, rfl, hp⟩ := validateV2Envelope_eq_ok.mp hvalid
    -- Sixteen texts are spellings of 64 bytes; one of them has other spare bits.
    have hspellings : Base64.spellings bytes = 16 := by
      rw [Base64.spellings, hp.signature]
      decide
    obtain ⟨n, hn, hne⟩ : ∃ n < Base64.spellings bytes, n ≠ Base64.spareBits p.signature := by
      rw [hspellings]
      by_cases hzero : Base64.spareBits p.signature = 0
      · exact ⟨1, by decide, by omega⟩
      · exact ⟨0, by decide, fun heq => hzero heq.symm⟩
    have hq := hp.respell hn
    refine ⟨((p.respell n bytes).document h).encoding, (p.respell n bytes).document h, ?_, ?_, ?_⟩
    · refine decodeCanonicalV2Envelope_eq_ok.mpr ⟨wellFormed_respell n bytes hwell, rfl, ?_, ?_⟩
      · rw [floatsAll_respell]
        exact hfloats
      · exact validateV2Envelope_eq_ok.mpr ⟨_, bytes, rfl, hq⟩
    · refine ⟨rfl, rfl, ?_⟩
      rw [decodedSignature_document hp, decodedSignature_document hq]
    · intro heq
      have hspare := congrArg writtenSpareBits heq
      rw [(written_encoding hwell).2, (written_encoding (wellFormed_respell n bytes hwell)).2,
        Parts.respell, Base64.spareBits_encodeSpare hn] at hspare
      exact hne hspare.symm

/-! ## Two texts of one envelope -/

/-- The parts of the sample envelope, with its signature in the spelling `n`. -/
def sampleParts (n : ℕ) : Parts where
  event := sampleEvent
  keyId := .str genesisHash
  version := .int schemaVersion
  signature := Base64.encodeSpare n (List.replicate 64 0)

theorem validate_of_verifyV2Chain {h : Hasher} {a : Authority} {envelope : Json}
    {report : ChainReport} (hok : verifyV2Chain h a [envelope] = .ok report) :
    validateV2Envelope h a envelope = .ok () := by
  unfold verifyV2Chain at hok
  obtain ⟨-, hok⟩ := require_bind_eq_ok.mp hok
  obtain ⟨-, hok⟩ := require_bind_eq_ok.mp hok
  obtain ⟨_, hloop, -⟩ := bind_eq_ok.mp hok
  obtain ⟨_, hstep, -⟩ := bind_eq_ok.mp hloop
  obtain ⟨_, hverified, -⟩ := bind_eq_ok.mp hstep
  obtain ⟨_, hvalid, -⟩ := bind_eq_ok.mp hverified
  exact hvalid

theorem wellFormed_sampleParts (n : ℕ) : ((sampleParts n).document sha256).WellFormed :=
  (wellFormed_document _ _).mpr ⟨wellFormed_eventOf (wellFormed_sampleEnvelope 0), trivial, trivial⟩

/-- The signature of zeros has sixteen spellings. -/
theorem valid_sampleParts {n : ℕ} (hn : n < 16) :
    (sampleParts n).Valid sha256 sampleAuthority (List.replicate 64 0) := by
  obtain ⟨_, hchain, -⟩ := toOption_map_eq_some (head_sampleEnvelope 0 (by simp))
  obtain ⟨p, bytes, heq, hp⟩ := validateV2Envelope_eq_ok.mp (validate_of_verifyV2Chain hchain)
  have hget : ∀ key, (sampleEnvelope 0).get key = (p.document sha256).get key := fun key => by
    rw [heq]
  have hevent : sampleEvent = p.event := hget "event"
  have hkey : Json.str genesisHash = p.keyId := hget "key_id"
  have hversion : Json.int schemaVersion = p.version := hget "schema_version"
  have hsignature : Base64.encode (List.replicate 64 0) = p.signature :=
    String.ofList_injective (Json.str.inj (hget "signature_b64"))
  have hbytes : bytes = List.replicate 64 0 := by
    have hdecoded := hp.decoded
    rw [← hsignature, Base64.decode_encode] at hdecoded
    exact (Option.some.inj hdecoded).symm
  subst hbytes
  have hspelled := hp.respell (n := n) hn
  rw [Parts.respell, ← hevent, ← hkey, ← hversion] at hspelled
  exact hspelled

theorem decode_sampleParts {n : ℕ} (hn : n < 16) :
    decodeCanonicalV2Envelope sha256 sampleAuthority (fun _ => true)
      ((sampleParts n).document sha256).encoding = .ok ((sampleParts n).document sha256) :=
  decodeCanonicalV2Envelope_eq_ok.mpr ⟨wellFormed_sampleParts n, rfl, rfl,
    validateV2Envelope_eq_ok.mpr ⟨_, _, rfl, valid_sampleParts hn⟩⟩

theorem sameParts_sampleParts :
    SameParts ((sampleParts 0).document sha256) ((sampleParts 1).document sha256) := by
  have hevent : ∀ n, ((sampleParts n).document sha256).get "event" = sampleEvent :=
    fun n => get_document_event sha256 (sampleParts n)
  have hkey : ∀ n, ((sampleParts n).document sha256).get "key_id" = .str genesisHash :=
    fun n => get_document_keyId sha256 (sampleParts n)
  refine ⟨?_, ?_, ?_⟩
  · exact (hevent 0).trans (hevent 1).symm
  · exact (hkey 0).trans (hkey 1).symm
  · exact (decodedSignature_document (valid_sampleParts (by decide : 0 < 16))).trans
      (decodedSignature_document (valid_sampleParts (by decide : 1 < 16))).symm

theorem encoding_sampleParts_ne :
    ((sampleParts 0).document sha256).encoding ≠ ((sampleParts 1).document sha256).encoding := by
  intro heq
  have hspare := congrArg writtenSpareBits heq
  rw [(written_encoding (wellFormed_sampleParts 0)).2,
    (written_encoding (wellFormed_sampleParts 1)).2, sampleParts, sampleParts,
    Base64.spareBits_encodeSpare (by decide), Base64.spareBits_encodeSpare (by decide)] at hspare
  exact absurd hspare (by decide)

/-- The signature of zeros ends in `AA==` or in `AB==`. -/
theorem decodeCanonicalV2Envelope_two :
    ¬∀ (h : Hasher) (a : Authority) (reprs : FloatLit → Bool) (x y : List UInt8) (d e : Json),
      decodeCanonicalV2Envelope h a reprs x = .ok d →
      decodeCanonicalV2Envelope h a reprs y = .ok e → SameParts d e → x = y := by
  intro hunique
  exact encoding_sampleParts_ne (hunique sha256 sampleAuthority (fun _ => true) _ _ _ _
    (decode_sampleParts (by decide)) (decode_sampleParts (by decide)) sameParts_sampleParts)

/-- The two texts write the spare bits differently. -/
theorem decodeCanonicalV2Envelope_eq_iff_sample :
    ¬(writtenVersion ((sampleParts 0).document sha256).encoding =
        writtenVersion ((sampleParts 1).document sha256).encoding ∧
      writtenSpareBits ((sampleParts 0).document sha256).encoding =
        writtenSpareBits ((sampleParts 1).document sha256).encoding) := by
  have hiff := (decodeCanonicalV2Envelope_eq_iff sha256 sampleAuthority (fun _ => true)).1
    _ _ _ _ (decode_sampleParts (by decide : 0 < 16)) (decode_sampleParts (by decide : 1 < 16))
    sameParts_sampleParts
  exact fun hwritten => encoding_sampleParts_ne (hiff.mpr hwritten)

end LedgerV2
