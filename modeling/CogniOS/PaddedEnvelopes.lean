/-
# Envelopes of every size

A family of valid envelopes whose payload is a text of a given length.  It has one for each place
of a chain and for each size up to the limit of a document.

* `length_paddedEnvelope` : how long they are;
* `validateV2Envelope_padded`, `verifyV2Chain_padded` : they are valid and extend a chain.
-/
import CogniOS.StoreProgress

namespace LedgerStore

open LedgerV2 (Parts eventKeys envelopeKeys genesisHash isIdentifier maxDocumentBytes maxEvents
  requireIdentifier requireSha256 requireTimestamp sampleAuthority schemaVersion
  validateV2Envelope validateV2Event verifyV2Chain)

/-! ## The family -/

/-- A text of `k` letters. -/
def padding (k : ℕ) : String := String.ofList (List.replicate k 'x')

/-- An event of a ledger at a place of its chain. -/
def paddedEvent (ledgerId : String) (head : Json) (n k : ℕ) : Json :=
  .obj [("action", .str "task.created"), ("actor", .str "orchestrator"),
    ("ledger_id", .str ledgerId), ("payload", .obj [("text", .str (padding k))]),
    ("previous_hash", head), ("sequence", .int n), ("task_id", .null),
    ("timestamp", .str "2026-01-01T00:00:00Z")]

def paddedParts (ledgerId : String) (head : Json) (n k : ℕ) : Parts where
  event := paddedEvent ledgerId head n k
  keyId := .str genesisHash
  version := .int schemaVersion
  signature := Base64.encode (List.replicate 64 0)

/-- Its envelope. -/
def paddedEnvelope (h : Hasher) (ledgerId : String) (head : Json) (n k : ℕ) : Json :=
  (paddedParts ledgerId head n k).document h

/-! ## The parts that are the same in all -/

/-- Their lengths and checks, which are computed. -/
theorem fixedTexts :
    eventKeys.Pairwise (· < ·) ∧ (eventKeys.map Json.keyLength).sum = 96 ∧
      (envelopeKeys.map Json.keyLength).sum = 114 ∧
      (LedgerV2.signaturePreimageKeys.map Json.keyLength).sum = 110 ∧
      Json.keyLength "text" = 8 ∧ (Json.str "task.created").encoding.length = 14 ∧
      (Json.str "orchestrator").encoding.length = 14 ∧
      (Json.str "2026-01-01T00:00:00Z").encoding.length = 22 ∧ Json.null.encoding.length = 4 ∧
      (Json.str LedgerV2.signatureAlgorithm).encoding.length = 32 ∧
      (Json.str LedgerV2.domain).encoding.length = 26 ∧
      (Json.str "ledger-event").encoding.length = 14 ∧
      (Json.str "ledger-event-signature").encoding.length = 24 ∧
      (Json.str LedgerV2.protocolId).encoding.length = 30 ∧
      (Json.int schemaVersion).encoding.length = 1 ∧
      requireSha256 (.str genesisHash) "" = .ok () ∧
      requireTimestamp sampleAuthority (.str "2026-01-01T00:00:00Z") = .ok () ∧
      isIdentifier "orchestrator" = true ∧ isIdentifier "task.created" = true ∧
      Json.str "task.created" ≠ .str LedgerV2.migrationAction ∧
      LedgerV2.envelopeKeys ≠ LedgerV2.legacyHmacV1EventKeys := by
  decide +kernel

theorem length_encode_zeros : (Base64.encode (List.replicate 64 0)).length ≤ 1024 := by
  decide +kernel

theorem decode_zeros : Base64.decode true (Base64.encode (List.replicate 64 0)) =
    some (List.replicate 64 0) :=
  Base64.decode_encode true _

theorem length_encoding_zeros :
    (Json.str (String.ofList (Base64.encode (List.replicate 64 0)))).encoding.length = 90 := by
  have hlength := LedgerV2.length_quote_encodeSpare (Base64.spellings_pos (List.replicate 64 0))
  rw [Base64.encodeSpare_zero] at hlength
  rw [Json.encoding, Json.dumps, String.toList_ofList, hlength]
  rfl

theorem decodedSignature_zeros :
    LedgerV2.decodedSignature (.str (String.ofList (Base64.encode (List.replicate 64 0)))) =
      .ok (List.replicate 64 0) := by
  have hshort : (String.ofList (Base64.encode (List.replicate 64 0))).length ≤ 1024 := by
    rw [String.length_ofList]
    exact length_encode_zeros
  unfold LedgerV2.decodedSignature
  refine bind_eq_ok.mpr ⟨_, rfl, require_bind_eq_ok.mpr ⟨hshort, orRaise_eq_ok.mpr ?_⟩⟩
  rw [String.toList_ofList, decode_zeros]

/-- The parts of such an envelope that are the same in all, and that they pass their checks. -/
structure FixedParts : Prop where
  sorted : eventKeys.Pairwise (· < ·)
  eventKeys : (eventKeys.map Json.keyLength).sum = 96
  envelopeKeys : (envelopeKeys.map Json.keyLength).sum = 114
  preimageKeys : (LedgerV2.signaturePreimageKeys.map Json.keyLength).sum = 110
  textKey : Json.keyLength "text" = 8
  action : (Json.str "task.created").encoding.length = 14
  actor : (Json.str "orchestrator").encoding.length = 14
  time : (Json.str "2026-01-01T00:00:00Z").encoding.length = 22
  task : Json.null.encoding.length = 4
  algorithm : (Json.str LedgerV2.signatureAlgorithm).encoding.length = 32
  domain : (Json.str LedgerV2.domain).encoding.length = 26
  kind : (Json.str "ledger-event").encoding.length = 14
  preimageKind : (Json.str "ledger-event-signature").encoding.length = 24
  protocol : (Json.str LedgerV2.protocolId).encoding.length = 30
  version : (Json.int schemaVersion).encoding.length = 1
  key : (Json.str genesisHash).encoding.length = 66
  signature : (Json.str (String.ofList
    (Base64.encode (List.replicate 64 0)))).encoding.length = 90
  validTime : requireTimestamp sampleAuthority (.str "2026-01-01T00:00:00Z") = .ok ()
  validActor : isIdentifier "orchestrator" = true
  validAction : isIdentifier "task.created" = true
  validHash : requireSha256 (.str genesisHash) "" = .ok ()
  signatureSize : (Base64.encode (List.replicate 64 0)).length ≤ 1024
  decoded : Base64.decode true (Base64.encode (List.replicate 64 0)) = some (List.replicate 64 0)
  readSignature : LedgerV2.decodedSignature
    (.str (String.ofList (Base64.encode (List.replicate 64 0)))) = .ok (List.replicate 64 0)
  quiet : Json.str "task.created" ≠ .str LedgerV2.migrationAction
  current : LedgerV2.envelopeKeys ≠ LedgerV2.legacyHmacV1EventKeys

theorem fixedParts : FixedParts := by
  obtain ⟨hsorted, heventKeys, henvelopeKeys, hpreimageKeys, htextKey, haction, hactor, htime,
    htask, halgorithm, hdomain, hkind, hpreimageKind, hprotocol, hversion, hhash, hvalidTime,
    hvalidActor, hvalidAction, hquiet, hcurrent⟩ := fixedTexts
  exact
    { sorted := hsorted
      eventKeys := heventKeys
      envelopeKeys := henvelopeKeys
      preimageKeys := hpreimageKeys
      textKey := htextKey
      action := haction
      actor := hactor
      time := htime
      task := htask
      algorithm := halgorithm
      domain := hdomain
      kind := hkind
      preimageKind := hpreimageKind
      protocol := hprotocol
      version := hversion
      key := length_of_sha256 hhash
      signature := length_encoding_zeros
      validTime := hvalidTime
      validActor := hvalidActor
      validAction := hvalidAction
      validHash := hhash
      signatureSize := length_encode_zeros
      decoded := decode_zeros
      readSignature := decodedSignature_zeros
      quiet := hquiet
      current := hcurrent }

section Family

variable (h : Hasher) (ledgerId : String) (head : Json) (n k : ℕ)

theorem isPlain_padding : Json.isPlain (padding k) = true := by
  rw [Json.isPlain, padding, String.toList_ofList, List.all_eq_true]
  intro c hc
  rw [List.eq_of_mem_replicate hc]
  decide

theorem length_padding : (Json.str (padding k)).encoding.length = k + 2 := by
  rw [Json.length_encoding_str (isPlain_padding k), padding, String.length_ofList,
    List.length_replicate]

theorem wellFormed_paddedEvent (hhead : head.WellFormed) :
    (paddedEvent ledgerId head n k).WellFormed := by
  refine ⟨?_, trivial, trivial, trivial, ⟨List.pairwise_singleton _ _, trivial, trivial⟩, hhead,
    trivial, trivial, trivial, trivial⟩
  rw [Json.keySorted_iff]
  exact fixedParts.sorted

theorem wellFormed_paddedEnvelope (hhead : head.WellFormed) :
    (paddedEnvelope h ledgerId head n k).WellFormed :=
  (LedgerV2.wellFormed_document h _).mpr
    ⟨wellFormed_paddedEvent ledgerId head n k hhead, trivial, trivial⟩

theorem floatsAll_paddedEnvelope {reprs : FloatLit → Bool} (hhead : head.floatsAll reprs = true) :
    (paddedEnvelope h ledgerId head n k).floatsAll reprs = true := by
  simp only [paddedEnvelope, paddedParts, paddedEvent, Parts.document, LedgerV2.eventDigest,
    Json.floatsAll, Json.floatsAllFields, hhead, Bool.and_self]

theorem length_paddedEvent (hledger : isIdentifier ledgerId = true)
    (hhead : requireSha256 head "" = .ok ()) :
    (paddedEvent ledgerId head n k).encoding.length =
      k + ledgerId.length + (Json.int n).encoding.length + 230 := by
  have hpayload : (Json.obj [("text", .str (padding k))]).encoding.length = k + 11 := by
    rw [Json.length_encoding_obj (by simp), Json.fieldsLength_cons, length_padding,
      fixedParts.textKey]
    show 8 + (k + 2) + 0 + 1 = _
    omega
  have hid := Json.length_encoding_str (isPlain_of_isIdentifier hledger).1
  rw [paddedEvent, Json.length_encoding_obj (by simp), Json.fieldsLength]
  have hmap : [("action", Json.str "task.created"), ("actor", .str "orchestrator"),
      ("ledger_id", .str ledgerId), ("payload", .obj [("text", .str (padding k))]),
      ("previous_hash", head), ("sequence", .int n), ("task_id", .null),
      ("timestamp", .str "2026-01-01T00:00:00Z")].map (fun p => Json.keyLength p.1) =
      eventKeys.map Json.keyLength := rfl
  rw [hmap, fixedParts.eventKeys]
  simp only [List.map_cons, List.map_nil, List.sum_cons, List.sum_nil, fixedParts.action,
    fixedParts.actor, fixedParts.time, fixedParts.task, hpayload, hid, length_of_sha256 hhead]
  omega

theorem length_paddedEnvelope (hledger : isIdentifier ledgerId = true)
    (hhead : requireSha256 head "" = .ok ()) :
    (paddedEnvelope h ledgerId head n k).encoding.length =
      k + ledgerId.length + (Json.int n).encoding.length + 670 := by
  have hdigest : ∀ message, (Json.str (h.hexdigest message)).encoding.length = 66 := fun message =>
    length_of_sha256 (requireSha256_hexdigest h message "")
  have hevent := length_paddedEvent ledgerId head n k hledger hhead
  rw [paddedEnvelope, Parts.document, Json.length_encoding_obj (by simp), Json.fieldsLength]
  show (envelopeKeys.map Json.keyLength).sum + _ + 1 = _
  rw [fixedParts.envelopeKeys]
  simp only [paddedParts, LedgerV2.eventDigest, List.map_cons, List.map_nil, List.sum_cons,
    List.sum_nil, fixedParts.algorithm, fixedParts.domain, fixedParts.kind, fixedParts.protocol,
    fixedParts.version, fixedParts.key, fixedParts.signature, hdigest, hevent]
  omega

end Family

/-! ## Their validity -/

section Validity

variable {h : Hasher} {ledgerId : String} {head : Json} {n k : ℕ}

theorem validateV2Event_padded (hledger : isIdentifier ledgerId = true)
    (hhead : requireSha256 head "" = .ok ()) (hn : n < maxEvents)
    (hsize : (paddedEvent ledgerId head (n + 1) k).encoding.length ≤ maxDocumentBytes) :
    validateV2Event sampleAuthority (paddedEvent ledgerId head (n + 1) k) = .ok () := by
  have hactor : requireIdentifier (.str "orchestrator") "Ledger v2 actor" = .ok () :=
    requireIdentifier_iff.mpr ⟨_, rfl, fixedParts.validActor⟩
  have haction : requireIdentifier (.str "task.created") "Ledger v2 action" = .ok () :=
    requireIdentifier_iff.mpr ⟨_, rfl, fixedParts.validAction⟩
  unfold validateV2Event
  refine bind_eq_ok.mpr ⟨(), LedgerV2.exactObject_eq_ok.mpr ⟨rfl, rfl, hsize⟩, ?_⟩
  refine require_bind_eq_ok.mpr ⟨?_, ?_⟩
  · show decide ((1 : ℤ) ≤ (n + 1 : ℕ) ∧ ((n + 1 : ℕ) : ℤ) ≤ maxEvents) = true
    rw [decide_eq_true_eq]
    push_cast
    omega
  refine bind_eq_ok.mpr ⟨(), requireIdentifier_iff.mpr ⟨ledgerId, rfl, hledger⟩, ?_⟩
  refine bind_eq_ok.mpr ⟨(), fixedParts.validTime, bind_eq_ok.mpr ⟨(), hactor, ?_⟩⟩
  refine bind_eq_ok.mpr ⟨(), haction, ?_⟩
  have htask : ¬(paddedEvent ledgerId head (n + 1) k).get "task_id" ≠ .null := not_not.mpr rfl
  rw [if_neg htask]
  exact require_bind_eq_ok.mpr ⟨rfl, relabel_sha256 _ hhead⟩

theorem validateV2Envelope_padded (hledger : isIdentifier ledgerId = true)
    (hhead : requireSha256 head "" = .ok ()) (hn : n < maxEvents)
    (hsize : (paddedEnvelope h ledgerId head (n + 1) k).encoding.length ≤ maxDocumentBytes) :
    validateV2Envelope h sampleAuthority (paddedEnvelope h ledgerId head (n + 1) k) = .ok () := by
  have hevent : (paddedEvent ledgerId head (n + 1) k).encoding.length ≤ maxDocumentBytes := by
    rw [length_paddedEnvelope h ledgerId head (n + 1) k hledger hhead] at hsize
    rw [length_paddedEvent ledgerId head (n + 1) k hledger hhead]
    omega
  refine LedgerV2.validateV2Envelope_eq_ok.mpr ⟨_, List.replicate 64 0, rfl, ?_⟩
  exact
    { version := rfl
      keyId := relabel_sha256 _ fixedParts.validHash
      event := validateV2Event_padded hledger hhead hn hevent
      eventSize := hevent
      size := hsize
      signatureSize := fixedParts.signatureSize
      decoded := fixedParts.decoded
      signature := List.length_replicate }

/-- The payload of the signature takes little more than the envelope, as far as its ledger has a
long name. -/
theorem length_signaturePayload_padded (hledger : isIdentifier ledgerId = true)
    (hhead : requireSha256 head "" = .ok ()) :
    (LedgerV2.signaturePayload (paddedEvent ledgerId head n k)
      (LedgerV2.eventDigest h (paddedEvent ledgerId head n k))
      (.str genesisHash)).encoding.length + 82 =
        (paddedEnvelope h ledgerId head n k).encoding.length + ledgerId.length := by
  have hdigest : (LedgerV2.eventDigest h (paddedEvent ledgerId head n k)).encoding.length = 66 :=
    length_of_sha256 (requireSha256_hexdigest h _ "")
  have hevent := length_paddedEvent ledgerId head n k hledger hhead
  have hid : ((paddedEvent ledgerId head n k).get "ledger_id").encoding.length =
      ledgerId.length + 2 := Json.length_encoding_str (isPlain_of_isIdentifier hledger).1
  rw [length_paddedEnvelope h ledgerId head n k hledger hhead, LedgerV2.signaturePayload,
    Json.length_encoding_obj (by simp), Json.fieldsLength]
  show (LedgerV2.signaturePreimageKeys.map Json.keyLength).sum + _ + 1 + 82 = _
  rw [fixedParts.preimageKeys]
  simp only [List.map_cons, List.map_nil, List.sum_cons, List.sum_nil, fixedParts.algorithm,
    fixedParts.domain, fixedParts.preimageKind, fixedParts.protocol, fixedParts.version,
    fixedParts.key, hdigest, hevent, hid]
  omega

theorem verifyV2Event_padded (hledger : isIdentifier ledgerId = true)
    (hhead : requireSha256 head "" = .ok ()) (hn : n < maxEvents)
    (hsize : (paddedEnvelope h ledgerId head (n + 1) k).encoding.length + ledgerId.length ≤
      maxDocumentBytes) :
    LedgerV2.verifyV2Event h sampleAuthority (paddedEnvelope h ledgerId head (n + 1) k) =
      .ok () := by
  have hpayload : (LedgerV2.signaturePayload (paddedEvent ledgerId head (n + 1) k)
      (LedgerV2.eventDigest h (paddedEvent ledgerId head (n + 1) k))
      (.str genesisHash)).encoding.length ≤ maxDocumentBytes := by
    have := length_signaturePayload_padded (h := h) (n := n + 1) (k := k) hledger hhead
    omega
  unfold LedgerV2.verifyV2Event
  refine bind_eq_ok.mpr ⟨(), validateV2Envelope_padded hledger hhead hn (by omega), ?_⟩
  refine bind_eq_ok.mpr ⟨.str genesisHash, rfl, ?_⟩
  refine bind_eq_ok.mpr ⟨(), relabel_sha256 _ fixedParts.validHash, ?_⟩
  refine require_bind_eq_ok.mpr ⟨rfl, bind_eq_ok.mpr ⟨_, fixedParts.readSignature, ?_⟩⟩
  refine bind_eq_ok.mpr ⟨(), LedgerV2.exactObject_eq_ok.mpr ⟨rfl, rfl, hpayload⟩, ?_⟩
  refine bind_eq_ok.mpr ⟨_, Json.boundedEncoding_eq_ok.mpr ⟨hpayload, rfl⟩, ?_⟩
  exact bind_eq_ok.mpr ⟨true, rfl, require_eq_ok.mpr rfl⟩

/-- **One envelope more in a chain.** -/
theorem verifyV2Chain_padded {envelopes : List Json} {report : LedgerV2.ChainReport}
    (hbefore : verifyV2Chain h sampleAuthority envelopes = .ok report)
    (hid : report.ledgerId = .null ∨ report.ledgerId = .str ledgerId)
    (hledger : isIdentifier ledgerId = true) (hhead : requireSha256 report.head "" = .ok ())
    (hn : envelopes.length < maxEvents)
    (hsize : (paddedEnvelope h ledgerId report.head (envelopes.length + 1) k).encoding.length +
      ledgerId.length ≤ maxDocumentBytes) :
    ∃ report', verifyV2Chain h sampleAuthority
        (envelopes ++ [paddedEnvelope h ledgerId report.head (envelopes.length + 1) k]) =
          .ok report' ∧
      report'.ledgerId = .str ledgerId := by
  obtain ⟨-, hlegacy, st, hloop, rfl⟩ := verifyV2Chain_iff.mp hbefore
  have hverified := verifyV2Event_padded (h := h) hledger hhead hn hsize
  have hstep : LedgerV2.chainStep h sampleAuthority (1 + envelopes.length) st
      (paddedEnvelope h ledgerId st.previousHash (envelopes.length + 1) k) =
      .ok ⟨LedgerV2.eventDigest h (paddedEvent ledgerId st.previousHash (envelopes.length + 1) k),
        st.migratedFromV1, .str ledgerId⟩ := by
    unfold LedgerV2.chainStep
    refine bind_eq_ok.mpr ⟨(), hverified, require_bind_eq_ok.mpr ⟨?_, ?_⟩⟩
    · show Json.int ((envelopes.length + 1 : ℕ) : ℤ) = .int ((1 + envelopes.length : ℕ) : ℤ)
      rw [add_comm]
    refine require_bind_eq_ok.mpr ⟨rfl, require_bind_eq_ok.mpr ⟨?_, ?_⟩⟩
    · rcases hid with hnull | hsame
      · exact .inl hnull
      · exact .inr hsame.symm
    have haction : ((paddedEnvelope h ledgerId st.previousHash (envelopes.length + 1) k).get
        "event").get "action" = .str LedgerV2.migrationAction ↔ False :=
      iff_false_intro fixedParts.quiet
    simp only [haction, decide_false, Bool.false_eq_true, if_false, Bool.or_false]
    rfl
  refine ⟨reportOf _ _, verifyV2Chain_iff.mpr ⟨?_, ?_, _, chainLoop_snoc.mpr ⟨st, hloop, hstep⟩,
    rfl⟩, rfl⟩
  · rw [List.length_append]
    exact hn
  · rintro ⟨item, hitem, hobj, hitemKeys⟩
    rcases List.mem_append.mp hitem with hitem | hitem
    · exact hlegacy ⟨item, hitem, hobj, hitemKeys⟩
    · rw [List.mem_singleton.mp hitem] at hitemKeys
      exact fixedParts.current hitemKeys

end Validity

end LedgerStore
