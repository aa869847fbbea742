/-
# Records of the ledger store

The lines of the two files of `ledger_authority_store_v2.py`: the event log, whose lines are
envelopes, and the append journal, whose lines are PREPARE and COMMIT records.

* `makePrepare`, `makeCommit` build the records and `validateJournalRecord` checks one;
* `validateJournalChain` checks the sequence of them and collects the transactions;
* `decodeLedgerLine_eq_ok`, `decodeJournalLine_eq_ok` : a line is the encoding of what it holds;
* `makePrepare_eq_ok` : the PREPARE that is built, field by field.
-/
import CogniOS.LedgerV2
import CogniOS.JsonRead
import CogniOS.LineFile

namespace LedgerStore

open LedgerV2 (Authority canonicalJsonBytes error requireIdentifier requireSha256 schemaVersion
  protocolId genesisHash validateV2Envelope)

/-! ## Constants -/

def journalDomain : String := "cogni-os.ledger-append-journal.v2"

def journalGenesisHash : String := String.ofList (List.replicate 64 '0')

def maxStoreLineBytes : ℕ := LedgerV2.maxDocumentBytes

def maxStoreBytes : ℕ := 128 * 1024 * 1024

def maxStoreEvents : ℕ := 100000

def maxJournalLineBytes : ℕ := LedgerV2.maxDocumentBytes + 16 * 1024

def maxJournalBytes : ℕ := 256 * 1024 * 1024

def maxJournalEntries : ℕ := maxStoreEvents * 2

/-- `PREPARE_KEYS`, in key order. -/
def prepareKeys : List String :=
  ["domain", "envelope", "envelope_sha256", "event_hash", "expected_head", "expected_sequence",
    "journal_hash", "journal_sequence", "kind", "ledger_id", "post_log_sha256",
    "post_log_size_bytes", "pre_log_sha256", "pre_log_size_bytes", "previous_journal_hash",
    "protocol_id", "schema_version", "tx_id"]

def commitKeys : List String :=
  ["domain", "event_hash", "expected_sequence", "journal_hash", "journal_sequence", "kind",
    "ledger_id", "post_log_sha256", "post_log_size_bytes", "prepare_hash",
    "previous_journal_hash", "protocol_id", "schema_version", "tx_id"]

/-- The fields of a COMMIT that repeat its PREPARE. -/
def boundKeys : List String :=
  ["ledger_id", "expected_sequence", "event_hash", "post_log_sha256", "post_log_size_bytes"]

/-! ## Field checks -/

/-- `_positive_bounded_int`. -/
def positiveBoundedInt (value : Json) (maximum : ℕ) (label : String) : Except CogniError Unit :=
  require (value.asInt?.any (fun n : ℤ => 1 ≤ n ∧ n ≤ maximum) = true)
    (error (label ++ " is invalid"))

/-- `_bounded_nonnegative_int`. -/
def boundedNonnegativeInt (value : Json) (maximum : ℕ) (label : String) :
    Except CogniError Unit :=
  require (value.asInt?.any (fun n : ℤ => 0 ≤ n ∧ n ≤ maximum) = true)
    (error (label ++ " is invalid"))

theorem positiveBoundedInt_eq_ok {value : Json} {maximum : ℕ} {label : String} {u : Unit} :
    positiveBoundedInt value maximum label = .ok u ↔
      ∃ n : ℤ, value = .int n ∧ 1 ≤ n ∧ n ≤ maximum := by
  unfold positiveBoundedInt
  rw [require_eq_ok]
  cases value <;> simp [Json.asInt?]

theorem boundedNonnegativeInt_eq_ok {value : Json} {maximum : ℕ} {label : String} {u : Unit} :
    boundedNonnegativeInt value maximum label = .ok u ↔
      ∃ n : ℤ, value = .int n ∧ 0 ≤ n ∧ n ≤ maximum := by
  unfold boundedNonnegativeInt
  rw [require_eq_ok]
  cases value <;> simp [Json.asInt?]

/-! ## Lines -/

section Lines

variable (h : Hasher) (a : Authority) (reprs : FloatLit → Bool)

/-- `_decode_json_object`; `reprs` holds of the float literals that `json.dumps` writes. -/
def decodeJsonObject (label : String) (body : List UInt8) (lineNumber : ℕ) :
    Except CogniError Json := do
  require (body ≠ []) (error (label ++ " contains blank line " ++ toString lineNumber))
  let text ← orRaise (Utf8.decode body)
    (error (label ++ " line " ++ toString lineNumber ++ " is not UTF-8 JSON"))
  let _ ← orRaise (Json.loads Json.lastWins text)
    (error (label ++ " line " ++ toString lineNumber ++ " is not UTF-8 JSON"))
  let value ← orRaise (Json.loads Json.uniqueKeys text)
    (error (label ++ " has duplicate JSON key at line " ++ toString lineNumber))
  require (value.isObj = true)
    (error (label ++ " line " ++ toString lineNumber ++ " is not an object"))
  let canonical ← canonicalJsonBytes value
  require (canonical = body ∧ value.floatsAll reprs = true)
    (error (label ++ " line " ++ toString lineNumber ++ " is not canonical JSON"))
  .ok value

/-- `_decode_ledger_line`. -/
def decodeLedgerLine (body : List UInt8) (lineNumber : ℕ) : Except CogniError Json := do
  let value ← decodeJsonObject reprs "Ledger v2 log" body lineNumber
  require (value.keys ≠ LedgerV2.legacyHmacV1EventKeys)
    (error "HMAC v1 event must not be mixed into the Ed25519 v2 store")
  validateV2Envelope h a value
  .ok value

variable {h a reprs}

/-- A line is the canonical encoding of its object. -/
theorem decodeJsonObject_eq_ok {label : String} {body : List UInt8} {n : ℕ} {value : Json} :
    decodeJsonObject reprs label body n = .ok value ↔
      value.isObj = true ∧ value.WellFormed ∧ body = value.encoding ∧
        value.encoding.length ≤ LedgerV2.maxDocumentBytes ∧ value.floatsAll reprs = true := by
  constructor
  · intro hok
    unfold decodeJsonObject at hok
    obtain ⟨-, hok⟩ := require_bind_eq_ok.mp hok
    obtain ⟨text, -, hok⟩ := bind_eq_ok.mp hok
    obtain ⟨_, -, hok⟩ := bind_eq_ok.mp hok
    obtain ⟨read, hread, hok⟩ := bind_eq_ok.mp hok
    obtain ⟨hobj, hok⟩ := require_bind_eq_ok.mp hok
    obtain ⟨canonical, hcanonical, hok⟩ := bind_eq_ok.mp hok
    obtain ⟨⟨hbody, hfloats⟩, hend⟩ := require_bind_eq_ok.mp hok
    obtain rfl := Except.ok.inj hend
    obtain ⟨hlen, hencoding⟩ := Json.boundedEncoding_eq_ok.mp hcanonical
    refine ⟨hobj, ?_, by rw [← hbody, hencoding], hlen, hfloats⟩
    exact Json.wellFormed_loads Json.sortsPairs_uniqueKeys (orRaise_eq_ok.mp hread)
  · rintro ⟨hobj, hwell, rfl, hlen, hfloats⟩
    have htext : Utf8.decode value.encoding = some (value.dumps 0) := Utf8.decode_encode _
    have hlast := Json.loads_dumps Json.keepsSorted_lastWins 0 value hwell
    have hunique := Json.loads_dumps Json.keepsSorted_uniqueKeys 0 value hwell
    unfold decodeJsonObject
    refine require_bind_eq_ok.mpr ⟨?_, ?_⟩
    · intro hnil
      rw [hnil] at htext
      have hempty : Json.dumps 0 value = [] := by simpa [Utf8.decode] using htext.symm
      rw [hempty] at hlast
      cases hlast
    refine bind_eq_ok.mpr ⟨_, orRaise_eq_ok.mpr htext, ?_⟩
    refine bind_eq_ok.mpr ⟨_, orRaise_eq_ok.mpr hlast, ?_⟩
    refine bind_eq_ok.mpr ⟨_, orRaise_eq_ok.mpr hunique, require_bind_eq_ok.mpr ⟨hobj, ?_⟩⟩
    refine bind_eq_ok.mpr ⟨_, Json.boundedEncoding_eq_ok.mpr ⟨hlen, rfl⟩, ?_⟩
    exact require_bind_eq_ok.mpr ⟨⟨rfl, hfloats⟩, rfl⟩

/-- A valid envelope is an object with the keys of an envelope, and within the limit. -/
theorem validateV2Envelope_exact {envelope : Json}
    (hok : validateV2Envelope h a envelope = .ok ()) :
    envelope.isObj = true ∧ envelope.keys = LedgerV2.envelopeKeys ∧
      envelope.encoding.length ≤ LedgerV2.maxDocumentBytes := by
  unfold validateV2Envelope at hok
  obtain ⟨_, hexact, -⟩ := bind_eq_ok.mp hok
  unfold LedgerV2.exactObject at hexact
  obtain ⟨⟨hobj, hkeys⟩, hexact⟩ := require_bind_eq_ok.mp hexact
  obtain ⟨_, hbytes, -⟩ := bind_eq_ok.mp hexact
  exact ⟨hobj, hkeys, (Json.boundedEncoding_eq_ok.mp hbytes).1⟩

/-- A line of the log is the encoding of a valid envelope. -/
theorem decodeLedgerLine_eq_ok {body : List UInt8} {n : ℕ} {value : Json} :
    decodeLedgerLine h a reprs body n = .ok value ↔
      value.WellFormed ∧ body = value.encoding ∧ value.floatsAll reprs = true ∧
        validateV2Envelope h a value = .ok () := by
  unfold decodeLedgerLine
  rw [bind_eq_ok]
  constructor
  · rintro ⟨read, hread, hok⟩
    obtain ⟨-, hok⟩ := require_bind_eq_ok.mp hok
    obtain ⟨_, hvalid, hend⟩ := bind_eq_ok.mp hok
    obtain rfl := Except.ok.inj hend
    obtain ⟨-, hwell, hbody, -, hfloats⟩ := decodeJsonObject_eq_ok.mp hread
    exact ⟨hwell, hbody, hfloats, hvalid⟩
  · rintro ⟨hwell, hbody, hfloats, hvalid⟩
    obtain ⟨hobj, hkeys, hlen⟩ := validateV2Envelope_exact hvalid
    refine ⟨value, decodeJsonObject_eq_ok.mpr ⟨hobj, hwell, hbody, hlen, hfloats⟩, ?_⟩
    refine require_bind_eq_ok.mpr ⟨?_, bind_eq_ok.mpr ⟨(), hvalid, rfl⟩⟩
    rw [hkeys]
    decide +kernel

end Lines

/-! ## Journal records -/

section Records

variable (h : Hasher) (a : Authority) (reprs : FloatLit → Bool)

/-- `_with_journal_hash`. -/
def withJournalHash (unsigned : List (String × Json)) : Except CogniError Json := do
  let encoded ← canonicalJsonBytes (.obj unsigned)
  .ok (.obj (Json.setField "journal_hash" (.str (h.hexdigest encoded)) unsigned))

/-- What `_make_prepare` reads of the snapshot before the append. -/
structure LogPosition where
  logSha256 : String
  logSizeBytes : ℕ
  deriving DecidableEq

/-- The fields of a PREPARE without its hash. -/
def prepareFields (txId : Json) (journalSequence : ℕ) (previousJournalHash envelope : Json)
    (pre post : LogPosition) (envelopeSha256 : String) : List (String × Json) :=
  [("domain", .str journalDomain), ("envelope", envelope),
    ("envelope_sha256", .str envelopeSha256), ("event_hash", envelope.get "event_hash"),
    ("expected_head", (envelope.get "event").get "previous_hash"),
    ("expected_sequence", (envelope.get "event").get "sequence"),
    ("journal_sequence", .int journalSequence), ("kind", .str "PREPARE"),
    ("ledger_id", (envelope.get "event").get "ledger_id"),
    ("post_log_sha256", .str post.logSha256), ("post_log_size_bytes", .int post.logSizeBytes),
    ("pre_log_sha256", .str pre.logSha256), ("pre_log_size_bytes", .int pre.logSizeBytes),
    ("previous_journal_hash", previousJournalHash), ("protocol_id", .str protocolId),
    ("schema_version", .int schemaVersion), ("tx_id", txId)]

/-- `_make_prepare`. -/
def makePrepare (txId : Json) (journalSequence : ℕ) (previousJournalHash envelope : Json)
    (pre post : LogPosition) : Except CogniError Json := do
  let encoded ← canonicalJsonBytes envelope
  withJournalHash h (prepareFields txId journalSequence previousJournalHash envelope pre post
    (h.hexdigest encoded))

/-- The fields of a COMMIT without its hash. -/
def commitFields (prepare : Json) (journalSequence : ℕ) (previousJournalHash : Json) :
    List (String × Json) :=
  [("domain", .str journalDomain), ("event_hash", prepare.get "event_hash"),
    ("expected_sequence", prepare.get "expected_sequence"),
    ("journal_sequence", .int journalSequence), ("kind", .str "COMMIT"),
    ("ledger_id", prepare.get "ledger_id"), ("post_log_sha256", prepare.get "post_log_sha256"),
    ("post_log_size_bytes", prepare.get "post_log_size_bytes"),
    ("prepare_hash", prepare.get "journal_hash"),
    ("previous_journal_hash", previousJournalHash), ("protocol_id", .str protocolId),
    ("schema_version", .int schemaVersion), ("tx_id", prepare.get "tx_id")]

/-- A record without its hash. -/
def unsignedRecord : Json → Json
  | .obj fields => .obj (fields.filter fun p => p.1 ≠ "journal_hash")
  | value => value

/-- What `_validate_journal_record` asks of a PREPARE only. -/
def validatePrepare (value : Json) : Except CogniError Unit := do
  requireSha256 (value.get "expected_head") "expected_head"
  requireSha256 (value.get "pre_log_sha256") "pre_log_sha256"
  boundedNonnegativeInt (value.get "pre_log_size_bytes") maxStoreBytes "pre_log_size_bytes"
  requireSha256 (value.get "envelope_sha256") "envelope_sha256"
  let envelope := value.get "envelope"
  validateV2Envelope h a envelope
  let event := envelope.get "event"
  let encoded ← canonicalJsonBytes envelope
  require (.str (h.hexdigest encoded) = value.get "envelope_sha256" ∧
      envelope.get "event_hash" = value.get "event_hash" ∧
      event.get "ledger_id" = value.get "ledger_id" ∧
      event.get "sequence" = value.get "expected_sequence" ∧
      event.get "previous_hash" = value.get "expected_head" ∧
      (value.get "post_log_size_bytes").asInt? =
        (value.get "pre_log_size_bytes").asInt?.map fun size : ℤ => size + encoded.length + 1)
    (error "Ledger v2 PREPARE does not bind its exact envelope transition")

/-- What `_validate_journal_record` asks of the fields that only one kind of record has. -/
def validateKindFields (value : Json) : Except CogniError Unit :=
  if value.get "kind" = .str "PREPARE" then validatePrepare h a value
  else requireSha256 (value.get "prepare_hash") "prepare_hash"

/-- `_validate_journal_record`. -/
def validateJournalRecord (value : Json) : Except CogniError Json := do
  require (value.isObj = true) (error "Ledger v2 journal record is not an object")
  require ((value.get "kind" = .str "PREPARE" ∧ value.keys = prepareKeys) ∨
      (value.get "kind" = .str "COMMIT" ∧ value.keys = commitKeys))
    (error "Ledger v2 journal schema is not exact")
  require ((value.get "schema_version").equalsInt schemaVersion = true ∧
      value.get "protocol_id" = .str protocolId ∧ value.get "domain" = .str journalDomain)
    (error "Ledger v2 journal identity is invalid")
  positiveBoundedInt (value.get "journal_sequence") maxJournalEntries "journal_sequence"
  requireSha256 (value.get "previous_journal_hash") "previous_journal_hash"
  requireIdentifier (value.get "tx_id") "tx_id"
  requireIdentifier (value.get "ledger_id") "journal ledger_id"
  positiveBoundedInt (value.get "expected_sequence") maxStoreEvents "expected_sequence"
  requireSha256 (value.get "event_hash") "journal event_hash"
  requireSha256 (value.get "post_log_sha256") "post_log_sha256"
  boundedNonnegativeInt (value.get "post_log_size_bytes") maxStoreBytes "post_log_size_bytes"
  validateKindFields h a value
  requireSha256 (value.get "journal_hash") "journal_hash"
  let encoded ← canonicalJsonBytes (unsignedRecord value)
  require (.str (h.hexdigest encoded) = value.get "journal_hash")
    (error "Ledger v2 journal record hash is invalid")
  .ok value

/-- `_decode_journal_line`. -/
def decodeJournalLine (body : List UInt8) (lineNumber : ℕ) : Except CogniError Json := do
  let value ← decodeJsonObject reprs "Ledger v2 journal" body lineNumber
  validateJournalRecord h a value

variable {h a reprs}

/-- What is checked of a record. -/
structure RecordRules (h : Hasher) (a : Authority) (value : Json) : Prop where
  obj : value.isObj = true
  schema : (value.get "kind" = .str "PREPARE" ∧ value.keys = prepareKeys) ∨
    (value.get "kind" = .str "COMMIT" ∧ value.keys = commitKeys)
  identity : (value.get "schema_version").equalsInt schemaVersion = true ∧
    value.get "protocol_id" = .str protocolId ∧ value.get "domain" = .str journalDomain
  journalSequence :
    positiveBoundedInt (value.get "journal_sequence") maxJournalEntries "journal_sequence" = .ok ()
  previous : requireSha256 (value.get "previous_journal_hash") "previous_journal_hash" = .ok ()
  txId : requireIdentifier (value.get "tx_id") "tx_id" = .ok ()
  ledgerId : requireIdentifier (value.get "ledger_id") "journal ledger_id" = .ok ()
  expectedSequence :
    positiveBoundedInt (value.get "expected_sequence") maxStoreEvents "expected_sequence" = .ok ()
  eventHash : requireSha256 (value.get "event_hash") "journal event_hash" = .ok ()
  postHash : requireSha256 (value.get "post_log_sha256") "post_log_sha256" = .ok ()
  postSize : boundedNonnegativeInt (value.get "post_log_size_bytes") maxStoreBytes
    "post_log_size_bytes" = .ok ()
  ofKind : validateKindFields h a value = .ok ()
  journalHash : requireSha256 (value.get "journal_hash") "journal_hash" = .ok ()
  unsignedSize : (unsignedRecord value).encoding.length ≤ LedgerV2.maxDocumentBytes
  hash : .str (h.hexdigest (unsignedRecord value).encoding) = value.get "journal_hash"

theorem validateJournalRecord_eq_ok {value u : Json} :
    validateJournalRecord h a value = .ok u ↔ RecordRules h a value ∧ u = value := by
  constructor
  · intro hok
    unfold validateJournalRecord at hok
    obtain ⟨hobj, hok⟩ := require_bind_eq_ok.mp hok
    obtain ⟨hschema, hok⟩ := require_bind_eq_ok.mp hok
    obtain ⟨hidentity, hok⟩ := require_bind_eq_ok.mp hok
    obtain ⟨_, hsequence, hok⟩ := bind_eq_ok.mp hok
    obtain ⟨_, hprevious, hok⟩ := bind_eq_ok.mp hok
    obtain ⟨_, htx, hok⟩ := bind_eq_ok.mp hok
    obtain ⟨_, hledger, hok⟩ := bind_eq_ok.mp hok
    obtain ⟨_, hexpected, hok⟩ := bind_eq_ok.mp hok
    obtain ⟨_, hevent, hok⟩ := bind_eq_ok.mp hok
    obtain ⟨_, hpost, hok⟩ := bind_eq_ok.mp hok
    obtain ⟨_, hsize, hok⟩ := bind_eq_ok.mp hok
    obtain ⟨_, hkind, hok⟩ := bind_eq_ok.mp hok
    obtain ⟨_, hhash, hok⟩ := bind_eq_ok.mp hok
    obtain ⟨encoded, hencoded, hok⟩ := bind_eq_ok.mp hok
    obtain ⟨hdigest, hend⟩ := require_bind_eq_ok.mp hok
    obtain ⟨hlen, rfl⟩ := Json.boundedEncoding_eq_ok.mp hencoded
    exact ⟨⟨hobj, hschema, hidentity, hsequence, hprevious, htx, hledger, hexpected, hevent, hpost,
      hsize, hkind, hhash, hlen, hdigest⟩, (Except.ok.inj hend).symm⟩
  · rintro ⟨hr, rfl⟩
    unfold validateJournalRecord
    refine require_bind_eq_ok.mpr ⟨hr.obj, require_bind_eq_ok.mpr ⟨hr.schema, ?_⟩⟩
    refine require_bind_eq_ok.mpr ⟨hr.identity, bind_eq_ok.mpr ⟨(), hr.journalSequence, ?_⟩⟩
    refine bind_eq_ok.mpr ⟨(), hr.previous, bind_eq_ok.mpr ⟨(), hr.txId, ?_⟩⟩
    refine bind_eq_ok.mpr ⟨(), hr.ledgerId, bind_eq_ok.mpr ⟨(), hr.expectedSequence, ?_⟩⟩
    refine bind_eq_ok.mpr ⟨(), hr.eventHash, bind_eq_ok.mpr ⟨(), hr.postHash, ?_⟩⟩
    refine bind_eq_ok.mpr ⟨(), hr.postSize, bind_eq_ok.mpr ⟨(), hr.ofKind, ?_⟩⟩
    refine bind_eq_ok.mpr ⟨(), hr.journalHash, ?_⟩
    exact bind_eq_ok.mpr ⟨_, Json.boundedEncoding_eq_ok.mpr ⟨hr.unsignedSize, rfl⟩,
      require_bind_eq_ok.mpr ⟨hr.hash, rfl⟩⟩

/-- A line of the journal is the encoding of a valid record. -/
theorem decodeJournalLine_eq_ok {body : List UInt8} {n : ℕ} {value : Json} :
    decodeJournalLine h a reprs body n = .ok value ↔
      value.WellFormed ∧ body = value.encoding ∧
        value.encoding.length ≤ LedgerV2.maxDocumentBytes ∧ value.floatsAll reprs = true ∧
        validateJournalRecord h a value = .ok value := by
  unfold decodeJournalLine
  rw [bind_eq_ok]
  constructor
  · rintro ⟨read, hread, hok⟩
    obtain rfl := (validateJournalRecord_eq_ok.mp hok).2
    obtain ⟨-, hwell, hbody, hlen, hfloats⟩ := decodeJsonObject_eq_ok.mp hread
    exact ⟨hwell, hbody, hlen, hfloats, hok⟩
  · rintro ⟨hwell, hbody, hlen, hfloats, hok⟩
    have hobj := (validateJournalRecord_eq_ok.mp hok).1.obj
    exact ⟨value, decodeJsonObject_eq_ok.mpr ⟨hobj, hwell, hbody, hlen, hfloats⟩, hok⟩

end Records

/-! ## The chain of records -/

/-- A transaction of the journal with its records. -/
structure TransactionState where
  txId : Json
  prepare : Json
  commit : Option Json
  deriving DecidableEq

/-- The status is `committed` rather than `prepared` where there is a COMMIT. -/
def TransactionState.committed (t : TransactionState) : Bool := t.commit.isSome

/-- The variables of the loop of `_validate_journal_chain`. -/
structure ChainState where
  previous : Json
  transactions : List TransactionState
  unresolved : Option Json

/-- The transaction of a `tx_id`. -/
def findTransaction (transactions : List TransactionState) (txId : Json) :
    Option TransactionState := transactions.find? (·.txId = txId)

/-- One turn of the loop. -/
def chainStep (index : ℕ) (st : ChainState) (entry : Json) : Except CogniError ChainState := do
  require (entry.get "journal_sequence" = .int index ∧
      entry.get "previous_journal_hash" = st.previous)
    (error "Ledger v2 journal chain is discontinuous")
  let txId := entry.get "tx_id"
  if entry.get "kind" = .str "PREPARE" then
    require (st.unresolved = none ∧ findTransaction st.transactions txId = none)
      (error "Ledger v2 journal contains overlapping or reused tx_id")
    .ok { previous := entry.get "journal_hash"
          transactions := st.transactions ++ [⟨txId, entry, none⟩]
          unresolved := some txId }
  else do
    let state ← orRaise (findTransaction st.transactions txId)
      (error "Ledger v2 COMMIT has no immediately pending PREPARE")
    require (st.unresolved = some txId)
      (error "Ledger v2 COMMIT has no immediately pending PREPARE")
    require (entry.get "prepare_hash" = state.prepare.get "journal_hash" ∧
        entry.get "previous_journal_hash" = state.prepare.get "journal_hash" ∧
        ∀ key ∈ boundKeys, entry.get key = state.prepare.get key)
      (error "Ledger v2 COMMIT does not bind its PREPARE")
    .ok { previous := entry.get "journal_hash"
          transactions := st.transactions.map fun t =>
            if t.txId = txId then { t with commit := some entry } else t
          unresolved := none }

/-- The loop, from the index of the next record. -/
def chainLoop : ℕ → ChainState → List Json → Except CogniError ChainState
  | _, st, [] => .ok st
  | index, st, entry :: rest => do
      let st ← chainStep index st entry
      chainLoop (index + 1) st rest

/-- `_validate_journal_chain`, with the hash of the last record. -/
def validateJournalChain (entries : List Json) : Except CogniError ChainState :=
  chainLoop 1 ⟨.str journalGenesisHash, [], none⟩ entries

/-! ## Records that are built -/

section Built

variable {h : Hasher}

/-- Setting a key between two parts of an object. -/
theorem setField_insert {k : String} (v : Json) {before after : List (String × Json)}
    (hbefore : ∀ p ∈ before, p.1 < k) (hafter : ∀ p ∈ after.head?, k < p.1) :
    Json.setField k v (before ++ after) = before ++ (k, v) :: after := by
  induction before with
  | nil =>
    cases after with
    | nil => rfl
    | cons p after =>
      obtain ⟨l, w⟩ := p
      have hlt : k < l := hafter (l, w) rfl
      rw [List.nil_append, Json.setField, if_pos hlt]
      rfl
  | cons p before ih =>
    obtain ⟨l, w⟩ := p
    obtain ⟨hl, hmore⟩ := List.forall_mem_cons.mp hbefore
    have hl : l < k := hl
    rw [List.cons_append, Json.setField, if_neg (not_lt_of_gt hl), if_neg (ne_of_gt hl), ih hmore]
    rfl

/-- A record with its hash, where the hash comes between two parts of its fields. -/
theorem withJournalHash_eq_ok {before after : List (String × Json)} {record : Json}
    (hbefore : ∀ p ∈ before, p.1 < "journal_hash")
    (hafter : ∀ p ∈ after.head?, "journal_hash" < p.1) :
    withJournalHash h (before ++ after) = .ok record ↔
      (Json.obj (before ++ after)).encoding.length ≤ LedgerV2.maxDocumentBytes ∧
        record = .obj (before ++ ("journal_hash",
          .str (h.hexdigest (Json.obj (before ++ after)).encoding)) :: after) := by
  unfold withJournalHash
  rw [bind_eq_ok]
  constructor
  · rintro ⟨encoded, hencoded, hend⟩
    obtain ⟨hlen, rfl⟩ := Json.boundedEncoding_eq_ok.mp hencoded
    obtain rfl := Except.ok.inj hend
    exact ⟨hlen, by rw [setField_insert _ hbefore hafter]⟩
  · rintro ⟨hlen, rfl⟩
    refine ⟨_, Json.boundedEncoding_eq_ok.mpr ⟨hlen, rfl⟩, ?_⟩
    rw [setField_insert _ hbefore hafter]

/-- The fields of a PREPARE before its hash. -/
def prepareBefore (envelope : Json) (envelopeSha256 : String) : List (String × Json) :=
  [("domain", .str journalDomain), ("envelope", envelope),
    ("envelope_sha256", .str envelopeSha256), ("event_hash", envelope.get "event_hash"),
    ("expected_head", (envelope.get "event").get "previous_hash"),
    ("expected_sequence", (envelope.get "event").get "sequence")]

/-- The fields of a PREPARE after its hash. -/
def prepareAfter (txId : Json) (journalSequence : ℕ) (previousJournalHash envelope : Json)
    (pre post : LogPosition) : List (String × Json) :=
  [("journal_sequence", .int journalSequence), ("kind", .str "PREPARE"),
    ("ledger_id", (envelope.get "event").get "ledger_id"),
    ("post_log_sha256", .str post.logSha256), ("post_log_size_bytes", .int post.logSizeBytes),
    ("pre_log_sha256", .str pre.logSha256), ("pre_log_size_bytes", .int pre.logSizeBytes),
    ("previous_journal_hash", previousJournalHash), ("protocol_id", .str protocolId),
    ("schema_version", .int schemaVersion), ("tx_id", txId)]

/-- A PREPARE. -/
def prepareRecord (h : Hasher) (txId : Json) (journalSequence : ℕ)
    (previousJournalHash envelope : Json) (pre post : LogPosition) : Json :=
  .obj (prepareBefore envelope (h.hexdigest envelope.encoding) ++ ("journal_hash",
    .str (h.hexdigest (Json.obj (prepareFields txId journalSequence previousJournalHash envelope
      pre post (h.hexdigest envelope.encoding))).encoding)) ::
    prepareAfter txId journalSequence previousJournalHash envelope pre post)

/-- The keys of the records stand in their order. -/
theorem journalKeys_ordered :
    prepareKeys.Pairwise (· < ·) ∧ commitKeys.Pairwise (· < ·) ∧
      (∀ k ∈ ["domain", "envelope", "envelope_sha256", "event_hash", "expected_head",
        "expected_sequence"], k < "journal_hash") ∧
      "journal_hash" < "journal_sequence" := by
  decide +kernel

theorem makePrepare_eq_ok {txId : Json} {n : ℕ} {previous envelope : Json}
    {pre post : LogPosition} {record : Json} :
    makePrepare h txId n previous envelope pre post = .ok record ↔
      envelope.encoding.length ≤ LedgerV2.maxDocumentBytes ∧
        (Json.obj (prepareFields txId n previous envelope pre post
          (h.hexdigest envelope.encoding))).encoding.length ≤ LedgerV2.maxDocumentBytes ∧
        record = prepareRecord h txId n previous envelope pre post := by
  have hbefore : ∀ (sha : String), ∀ p ∈ prepareBefore envelope sha, p.1 < "journal_hash" := by
    intro sha p hp
    have hkey : p.1 ∈ ["domain", "envelope", "envelope_sha256", "event_hash", "expected_head",
        "expected_sequence"] := List.mem_map_of_mem hp
    exact journalKeys_ordered.2.2.1 _ hkey
  have hafter : ∀ p ∈ (prepareAfter txId n previous envelope pre post).head?,
      "journal_hash" < p.1 := by
    rintro p hp
    obtain rfl := Option.some.inj hp
    exact journalKeys_ordered.2.2.2
  unfold makePrepare
  rw [bind_eq_ok]
  constructor
  · rintro ⟨encoded, hencoded, hok⟩
    obtain ⟨hlen, rfl⟩ := Json.boundedEncoding_eq_ok.mp hencoded
    obtain ⟨hsize, rfl⟩ := (withJournalHash_eq_ok (hbefore _) hafter).mp hok
    exact ⟨hlen, hsize, rfl⟩
  · rintro ⟨hlen, hsize, rfl⟩
    exact ⟨_, Json.boundedEncoding_eq_ok.mpr ⟨hlen, rfl⟩,
      (withJournalHash_eq_ok (hbefore _) hafter).mpr ⟨hsize, rfl⟩⟩

section PrepareFields

variable (h : Hasher) (txId : Json) (n : ℕ) (previous envelope : Json) (pre post : LogPosition)

@[simp] theorem get_prepare_kind :
    (prepareRecord h txId n previous envelope pre post).get "kind" = .str "PREPARE" := rfl

@[simp] theorem get_prepare_envelope :
    (prepareRecord h txId n previous envelope pre post).get "envelope" = envelope := rfl

/-- The keys of a PREPARE are those that its reader asks for. -/
theorem keys_prepareRecord :
    (prepareRecord h txId n previous envelope pre post).keys = prepareKeys := rfl

theorem unsignedRecord_prepareRecord :
    unsignedRecord (prepareRecord h txId n previous envelope pre post) =
      .obj (prepareFields txId n previous envelope pre post (h.hexdigest envelope.encoding)) := rfl

theorem wellFormed_prepareRecord (htx : txId.WellFormed) (hprevious : previous.WellFormed)
    (henvelope : envelope.WellFormed) :
    (prepareRecord h txId n previous envelope pre post).WellFormed := by
  have hevent := Json.wellFormed_get henvelope "event"
  refine ⟨?_, ?_⟩
  · rw [Json.keySorted_iff]
    exact journalKeys_ordered.1
  · exact ⟨trivial, henvelope, trivial, Json.wellFormed_get henvelope _,
      Json.wellFormed_get hevent _, Json.wellFormed_get hevent _, trivial, trivial, trivial,
      Json.wellFormed_get hevent _, trivial, trivial, trivial, trivial, hprevious, trivial,
      trivial, htx, trivial⟩

end PrepareFields

/-- The fields of a COMMIT before its hash. -/
def commitBefore (prepare : Json) : List (String × Json) :=
  [("domain", .str journalDomain), ("event_hash", prepare.get "event_hash"),
    ("expected_sequence", prepare.get "expected_sequence")]

/-- The fields of a COMMIT after its hash. -/
def commitAfter (prepare : Json) (journalSequence : ℕ) (previousJournalHash : Json) :
    List (String × Json) :=
  [("journal_sequence", .int journalSequence), ("kind", .str "COMMIT"),
    ("ledger_id", prepare.get "ledger_id"), ("post_log_sha256", prepare.get "post_log_sha256"),
    ("post_log_size_bytes", prepare.get "post_log_size_bytes"),
    ("prepare_hash", prepare.get "journal_hash"),
    ("previous_journal_hash", previousJournalHash), ("protocol_id", .str protocolId),
    ("schema_version", .int schemaVersion), ("tx_id", prepare.get "tx_id")]

/-- A COMMIT. -/
def commitRecord (h : Hasher) (prepare : Json) (journalSequence : ℕ)
    (previousJournalHash : Json) : Json :=
  .obj (commitBefore prepare ++ ("journal_hash", .str (h.hexdigest
    (Json.obj (commitFields prepare journalSequence previousJournalHash)).encoding)) ::
    commitAfter prepare journalSequence previousJournalHash)

theorem withJournalHash_commitFields {prepare : Json} {n : ℕ} {previous record : Json} :
    withJournalHash h (commitFields prepare n previous) = .ok record ↔
      (Json.obj (commitFields prepare n previous)).encoding.length ≤ LedgerV2.maxDocumentBytes ∧
        record = commitRecord h prepare n previous := by
  have hbefore : ∀ p ∈ commitBefore prepare, p.1 < "journal_hash" := by
    intro p hp
    have hkey : p.1 ∈ ["domain", "event_hash", "expected_sequence"] := List.mem_map_of_mem hp
    exact journalKeys_ordered.2.2.1 _ (List.Sublist.subset (by decide) hkey)
  have hafter : ∀ p ∈ (commitAfter prepare n previous).head?, "journal_hash" < p.1 := by
    rintro p hp
    obtain rfl := Option.some.inj hp
    exact journalKeys_ordered.2.2.2
  exact withJournalHash_eq_ok hbefore hafter

section CommitFields

variable (h : Hasher) (prepare : Json) (n : ℕ) (previous : Json)

@[simp] theorem get_commit_kind :
    (commitRecord h prepare n previous).get "kind" = .str "COMMIT" := rfl

@[simp] theorem get_commit_txId :
    (commitRecord h prepare n previous).get "tx_id" = prepare.get "tx_id" := rfl

theorem keys_commitRecord : (commitRecord h prepare n previous).keys = commitKeys := rfl

theorem unsignedRecord_commitRecord :
    unsignedRecord (commitRecord h prepare n previous) =
      .obj (commitFields prepare n previous) := rfl

theorem wellFormed_commitRecord (hprepare : prepare.WellFormed) (hprevious : previous.WellFormed) :
    (commitRecord h prepare n previous).WellFormed := by
  refine ⟨?_, ?_⟩
  · rw [Json.keySorted_iff]
    exact journalKeys_ordered.2.1
  · exact ⟨trivial, Json.wellFormed_get hprepare _, Json.wellFormed_get hprepare _, trivial,
      trivial, trivial, Json.wellFormed_get hprepare _, Json.wellFormed_get hprepare _,
      Json.wellFormed_get hprepare _, Json.wellFormed_get hprepare _, hprevious, trivial, trivial,
      Json.wellFormed_get hprepare _, trivial⟩

end CommitFields

end Built

end LedgerStore
