/-
# The durable ledger store

`LedgerAuthorityV2Store`: the event log, the append journal and the transactions that this
process does not know the outcome of.  A step of a call that reads a file may fail, and one that
appends a record may fail with any part of it written.  The advisory lock makes the calls follow
one another.

* `readCombined` reads and compares the two files;
* `append` writes PREPARE, event and COMMIT, and `reconcile` completes what was cut short;
* `run` is a sequence of calls with restarts of the process between them.
-/
import CogniOS.EnvelopeEncoding
import CogniOS.StoreRecords

namespace LedgerStore

open LedgerV2 (Authority canonicalJsonBytes error requireIdentifier requireSha256 readDocument
  validateV2Envelope verifyV2Chain)
open Utf8 (lf)

/-! ## The store -/

/-- The two files and `_indeterminate_tx_ids`. -/
structure Store where
  log : List UInt8
  journal : List UInt8
  indeterminate : Finset Json

/-- A new store. -/
def Store.empty : Store := ⟨[], [], ∅⟩

/-- `VerifiedV2StoreSnapshot`. -/
structure Snapshot where
  envelopes : List Json
  eventCount : ℕ
  headHash : Json
  ledgerId : Json
  logSha256 : String
  logSizeBytes : ℕ
  journalEntryCount : ℕ
  journalHeadHash : Json
  journalSha256 : String
  journalSizeBytes : ℕ
  deriving DecidableEq

/-- `_JournalSnapshot`. -/
structure JournalSnapshot where
  entries : List Json
  transactions : List TransactionState
  entryCount : ℕ
  headHash : Json
  sha256 : String
  sizeBytes : ℕ
  deriving DecidableEq

/-- The snapshot of the log with what is known of the journal. -/
def Snapshot.withJournal (ledger : Snapshot) (journal : JournalSnapshot) : Snapshot :=
  { ledger with
    journalEntryCount := journal.entryCount
    journalHeadHash := journal.headHash
    journalSha256 := journal.sha256
    journalSizeBytes := journal.sizeBytes }

/-- `_CombinedAudit`. -/
structure Audit where
  ledger : Snapshot
  journal : JournalSnapshot
  deriving DecidableEq

/-- `DurableV2Append`. -/
structure DurableAppend where
  txId : Json
  envelope : Json
  snapshot : Snapshot

/-- The exceptions of a call: `IndeterminateCommit`, `RetryableAppendNotApplied`, or another. -/
inductive StoreError
  | indeterminate (txId : Json) (phase : String)
  | retryable (txId : Json)
  | failed (e : CogniError)
  deriving DecidableEq

/-- A `tx_id` in a message. -/
def shown (txId : Json) : String := txId.asStr?.getD ""

/-- A check of a call whose exception is not caught. -/
def failing {α : Type} (x : Except CogniError α) : Except StoreError α := x.mapError .failed

/-! ## Reading -/

section Reading

variable (h : Hasher) (a : Authority) (reprs : FloatLit → Bool)

/-- How `_read_ledger_unlocked` reads the log. -/
def ledgerFormat : LineFile.Format Json CogniError where
  maximumLine := maxStoreLineBytes
  maximumBytes := maxStoreBytes
  maximumEntries := maxStoreEvents
  decoder := decodeLedgerLine h a reprs
  bytesError := error "Ledger v2 log exceeds byte limit"
  entriesError := error "Ledger v2 log exceeds entry limit"
  lineError := error "Ledger v2 log line exceeds its limit"
  terminalError := error "Ledger v2 log non-empty file lacks terminal LF"

/-- How `_read_journal_unlocked` reads the journal. -/
def journalFormat : LineFile.Format Json CogniError where
  maximumLine := maxJournalLineBytes
  maximumBytes := maxJournalBytes
  maximumEntries := maxJournalEntries
  decoder := decodeJournalLine h a reprs
  bytesError := error "Ledger v2 journal exceeds byte limit"
  entriesError := error "Ledger v2 journal exceeds entry limit"
  lineError := error "Ledger v2 journal line exceeds its limit"
  terminalError := error "Ledger v2 journal non-empty file lacks terminal LF"

/-- `_read_ledger_unlocked`. -/
def readLedger (log : List UInt8) : Except CogniError Snapshot := do
  let read ← LineFile.readLines (ledgerFormat h a reprs) log
  let summary ← verifyV2Chain h a read.1
  .ok { envelopes := read.1, eventCount := read.1.length, headHash := summary.head,
        ledgerId := summary.ledgerId, logSha256 := h.hexdigest log, logSizeBytes := read.2,
        journalEntryCount := 0, journalHeadHash := .str journalGenesisHash,
        journalSha256 := h.hexdigest [], journalSizeBytes := 0 }

/-- `_read_journal_unlocked`. -/
def readJournal (journal : List UInt8) : Except CogniError JournalSnapshot := do
  let read ← LineFile.readLines (journalFormat h a reprs) journal
  let chain ← validateJournalChain read.1
  .ok { entries := read.1, transactions := chain.transactions, entryCount := read.1.length,
        headHash := chain.previous, sha256 := h.hexdigest journal, sizeBytes := read.2 }

/-- `_ledger_prefixes`, after what is `written` already. -/
def ledgerPrefixes (written : List UInt8) : List Json → Except CogniError (List LogPosition)
  | [] => .ok [⟨h.hexdigest written, written.length⟩]
  | envelope :: envelopes => do
      let encoded ← canonicalJsonBytes envelope
      let positions ← ledgerPrefixes (written ++ (encoded ++ [lf])) envelopes
      .ok (⟨h.hexdigest written, written.length⟩ :: positions)

/-- `_hash_envelope_lines`. -/
def hashEnvelopeLines (envelopes : List Json) : Except CogniError String := do
  let positions ← ledgerPrefixes h [] envelopes
  .ok (positions.getLast?.getD ⟨h.hexdigest [], 0⟩).logSha256

/-- One PREPARE against the log, in the loop of `_validate_combined`. -/
def checkPrepare (positions : List LogPosition) (ledger : Snapshot) (ordinal : ℕ)
    (prepare : Json) : Except CogniError Unit := do
  require (prepare.get "expected_sequence" = .int ordinal)
    (error "Ledger v2 journal event sequence is not contiguous")
  let pre := positions.getD (ordinal - 1) ⟨"", 0⟩
  require (prepare.get "pre_log_sha256" = .str pre.logSha256 ∧
      prepare.get "pre_log_size_bytes" = .int pre.logSizeBytes)
    (error "Ledger v2 PREPARE pre-state does not match the event log")
  let post := positions.getD ordinal ⟨"", 0⟩
  require (ordinal ≤ ledger.eventCount →
      (prepare.get "envelope").equals (ledger.envelopes.getD (ordinal - 1) .null) = true ∧
      prepare.get "post_log_sha256" = .str post.logSha256 ∧
      prepare.get "post_log_size_bytes" = .int post.logSizeBytes)
    (error "Ledger v2 PREPARE post-state does not match the event log")

/-- The loop over the PREPARE records. -/
def checkPrepares (positions : List LogPosition) (ledger : Snapshot) :
    ℕ → List Json → Except CogniError Unit
  | _, [] => .ok ()
  | ordinal, prepare :: prepares => do
      checkPrepare positions ledger ordinal prepare
      checkPrepares positions ledger (ordinal + 1) prepares

/-- The transactions without a COMMIT. -/
def unresolved (transactions : List TransactionState) : List TransactionState :=
  transactions.filter fun t => !t.committed

/-- What `_validate_combined` asks of the first unresolved transaction. -/
def checkUnresolved (ledger : Snapshot) (requireClean : Bool) :
    List TransactionState → Except CogniError Unit
  | [] => .ok ()
  | state :: _ => do
      require (state.prepare.get "expected_sequence" = .int ledger.eventCount ∨
          state.prepare.get "expected_sequence" = .int (ledger.eventCount + 1))
        (error "Ledger v2 unresolved transaction has an indeterminate log position")
      require (requireClean = false) (error ("Ledger v2 transaction " ++ shown state.txId ++ " is unresolved"))

/-- `_validate_combined`. -/
def validateCombined (ledger : Snapshot) (journal : JournalSnapshot) (requireClean : Bool) :
    Except CogniError Unit := do
  let positions ← ledgerPrefixes h [] ledger.envelopes
  let prepares := journal.entries.filter fun entry => entry.get "kind" = .str "PREPARE"
  let commits := journal.entries.filter fun entry => entry.get "kind" = .str "COMMIT"
  require (prepares.length ≤ ledger.eventCount + 1 ∧ commits.length ≤ ledger.eventCount)
    (error "Ledger v2 journal cardinality is inconsistent with the event log")
  checkPrepares positions ledger 1 prepares
  require (unresolved journal.transactions ≠ [] ∨ commits.length = ledger.eventCount)
    (error "Ledger v2 contains an event without a committed journal transaction")
  checkUnresolved ledger requireClean (unresolved journal.transactions)

/-- A step that reads a file, which may fail. -/
def reading {α : Type} (fault : Bool) (x : Except CogniError α) : Except CogniError α :=
  if fault then .error (error "Ledger v2 file open failed") else x

/-- `_read_combined_unlocked`; `allowed` are the transactions that may be indeterminate in this
process where the store has to be clean. -/
def readCombined (logFault journalFault : Bool) (s : Store) (requireClean : Bool)
    (allowed : Finset Json) : Except CogniError Audit := do
  let ledger ← reading logFault (readLedger h a reprs s.log)
  let journal ← reading journalFault (readJournal h a reprs s.journal)
  validateCombined h ledger journal requireClean
  require (requireClean = true → s.indeterminate \ allowed = ∅)
    (error "Ledger v2 has an in-process indeterminate transaction")
  .ok ⟨ledger.withJournal journal, journal⟩

/-- `read_verified`. -/
def readVerified (s : Store) : Except CogniError Snapshot := do
  let audit ← readCombined h a reprs false false s true ∅
  .ok audit.ledger

end Reading

/-! ## Appending -/

/-- `_append_record` on the content of a file, with the content after it.  Where the step fails,
the number is how many bytes of the record were written. -/
def appendRecord (fault : Option ℕ) (file record : List UInt8) (maximum : ℕ) (label : String) :
    Except CogniError Unit × List UInt8 :=
  if maximum < file.length + record.length then
    (.error (error (label ++ " exceeds byte limit")), file)
  else
    match fault with
    | none => (.ok (), file ++ record)
    | some written =>
        (.error (error (label ++ " did not durably complete")), file ++ record.take written)

/-- `_append_record` of the canonical line of a document. -/
def appendDocument (fault : Option ℕ) (file : List UInt8) (document : Json) (maximum : ℕ)
    (label : String) : Except CogniError Unit × List UInt8 :=
  match canonicalJsonBytes document with
  | .error e => (.error e, file)
  | .ok encoded => appendRecord fault file (encoded ++ [lf]) maximum label

/-- `_require_snapshot_matches_prepare`. -/
def requireSnapshotMatchesPrepare (snapshot : Snapshot) (prepare : Json) (applied : Bool) :
    Except CogniError Unit :=
  require (if applied then
      prepare.get "expected_sequence" = .int snapshot.eventCount ∧
        snapshot.headHash = prepare.get "event_hash" ∧
        prepare.get "post_log_sha256" = .str snapshot.logSha256 ∧
        prepare.get "post_log_size_bytes" = .int snapshot.logSizeBytes ∧
        (snapshot.envelopes.getLast?.getD .null).equals (prepare.get "envelope") = true
    else
      prepare.get "expected_sequence" = .int (snapshot.eventCount + 1) ∧
        snapshot.headHash = prepare.get "expected_head" ∧
        prepare.get "pre_log_sha256" = .str snapshot.logSha256 ∧
        prepare.get "pre_log_size_bytes" = .int snapshot.logSizeBytes)
    (error "Ledger v2 state matches neither the PREPARE pre-state nor requested state")

/-- The steps of `append` that fail, in their order. -/
structure AppendFaults where
  readLog : Bool
  readJournal : Bool
  prepare : Option ℕ
  rereadLog : Bool
  rereadJournal : Bool
  event : Option ℕ
  logAfterEvent : Bool
  journalAfterEvent : Bool
  commit : Option ℕ
  finalLog : Bool
  finalJournal : Bool

/-- No step fails. -/
def AppendFaults.none : AppendFaults where
  readLog := false
  readJournal := false
  prepare := Option.none
  rereadLog := false
  rereadJournal := false
  event := Option.none
  logAfterEvent := false
  journalAfterEvent := false
  commit := Option.none
  finalLog := false
  finalJournal := false

/-- What `append` writes. -/
structure Plan where
  audit : Audit
  document : Json
  record : List UInt8
  prepare : Json

/-- A transaction that is committed already, or the plan of a new one. -/
inductive Admission
  | existing (result : DurableAppend)
  | fresh (plan : Plan)

section Append

variable (h : Hasher) (a : Authority) (reprs : FloatLit → Bool)

/-- `_make_commit`. -/
def makeCommit (prepare : Json) (journal : JournalSnapshot) : Except CogniError Json := do
  require (journal.headHash = prepare.get "journal_hash")
    (error "Ledger v2 PREPARE is not the current journal head")
  withJournalHash h (commitFields prepare (journal.entryCount + 1) journal.headHash)

/-- `_require_same_intent`, where the transaction exists. -/
def requireSameIntent (existing : Option TransactionState)
    (document txId expectedHead expectedSequence : Json) : Except CogniError Unit :=
  require (∀ state ∈ existing, (state.prepare.get "envelope").equals document = true ∧
      state.prepare.get "expected_head" = expectedHead ∧
      state.prepare.get "expected_sequence" = expectedSequence)
    (error ("Ledger v2 tx_id " ++ shown txId ++ " was reused with a different intent"))

/-- The checks of `append` for transactions whose outcome is not known. -/
def checkResolved (s : Store) (transactions : List TransactionState) (txId : Json) :
    Except StoreError Unit :=
  if txId ∈ s.indeterminate then .error (.indeterminate txId "existing-indeterminate")
  else if s.indeterminate ≠ ∅ then
    .error (.failed (error "Ledger v2 has an in-process indeterminate transaction"))
  else if (findTransaction transactions txId).any (fun t => !t.committed) = true then
    .error (.indeterminate txId "existing-prepare")
  else if unresolved transactions ≠ [] then
    .error (.failed (error "Ledger v2 journal has an unresolved transaction"))
  else .ok ()

/-- The compare-and-append checks and the PREPARE of a new transaction. -/
def makePlan (audit : Audit) (document : Json) (encodedBody : List UInt8)
    (txId expectedHead expectedSequence : Json) : Except CogniError Plan := do
  let before := audit.ledger
  require (before.headHash = expectedHead)
    (error "Ledger v2 expected head changed before append")
  require (expectedSequence = .int (before.eventCount + 1))
    (error "Ledger v2 expected sequence changed before append")
  require ((document.get "event").get "sequence" = expectedSequence ∧
      (document.get "event").get "previous_hash" = expectedHead)
    (error "Ledger v2 candidate position does not match compare-and-append")
  let _ ← verifyV2Chain h a (before.envelopes ++ [document])
  let record := encodedBody ++ [lf]
  require (encodedBody.length ≤ maxStoreLineBytes)
    (error "Ledger v2 record exceeds line limit")
  require (before.logSizeBytes + record.length ≤ maxStoreBytes)
    (error "Ledger v2 store exceeds byte limit")
  let postHash ← hashEnvelopeLines h (before.envelopes ++ [document])
  let prepare ← makePrepare h txId (audit.journal.entryCount + 1) audit.journal.headHash document
    ⟨before.logSha256, before.logSizeBytes⟩ ⟨postHash, before.logSizeBytes + record.length⟩
  .ok ⟨audit, document, record, prepare⟩

/-- `append` up to its first write. -/
def checkAppend (faults : AppendFaults) (s : Store)
    (envelope txId expectedHead expectedSequence : Json) : Except StoreError Admission := do
  failing (requireIdentifier txId "tx_id")
  failing (requireSha256 expectedHead "expected_head")
  failing (positiveBoundedInt expectedSequence maxStoreEvents "expected_sequence")
  let encodedBody ← failing (canonicalJsonBytes envelope)
  let document ← failing (orRaise (readDocument encodedBody)
    (error "Ledger v2 document is not canonical JSON"))
  failing (validateV2Envelope h a document)
  let audit ← failing (readCombined h a reprs faults.readLog faults.readJournal s false ∅)
  let existing := findTransaction audit.journal.transactions txId
  failing (requireSameIntent existing document txId expectedHead expectedSequence)
  checkResolved s audit.journal.transactions txId
  match existing with
  | some state => .ok (.existing ⟨txId, state.prepare.get "envelope", audit.ledger⟩)
  | none => do
      let plan ← failing
        (makePlan h a audit document encodedBody txId expectedHead expectedSequence)
      .ok (.fresh plan)

/-- The outcome of a transaction is not known to this process. -/
def Store.mark (s : Store) (txId : Json) : Store :=
  { s with indeterminate := insert txId s.indeterminate }

def Store.unmark (s : Store) (txId : Json) : Store :=
  { s with indeterminate := s.indeterminate.erase txId }

/-- What `append` does where its PREPARE has failed: nothing has changed if the files read as
before. -/
def prepareFailed (faults : AppendFaults) (s : Store) (txId : Json) (plan : Plan) :
    Except StoreError DurableAppend × Store :=
  let observed :=
    (readCombined h a reprs faults.rereadLog faults.rereadJournal s true ∅).toOption
  if observed = some plan.audit then (.error (.retryable txId), s.unmark txId)
  else (.error (.indeterminate txId "prepare"), s.mark txId)

/-- The COMMIT of an event that is in the log, and the last look at the files. -/
def appendCommit (faults : AppendFaults) (s : Store) (txId : Json) (plan : Plan) :
    Except StoreError DurableAppend × Store :=
  -- Neither this read nor the making of the record is in a `try` of the source.
  match reading faults.journalAfterEvent (readJournal h a reprs s.journal) >>=
      makeCommit h plan.prepare with
  | .error e => (.error (.failed e), s)
  | .ok commit =>
      let written := appendDocument faults.commit s.journal commit maxJournalBytes
        "Ledger v2 journal COMMIT"
      let s : Store := { s with journal := written.2 }
      match written.1 with
      | .error _ => (.error (.indeterminate txId "commit"), s.mark txId)
      | .ok () =>
          match readCombined h a reprs faults.finalLog faults.finalJournal s true ∅ with
          | .error _ => (.error (.indeterminate txId "postcheck"), s.mark txId)
          | .ok final => (.ok ⟨txId, plan.document, final.ledger⟩, s.unmark txId)

/-- The event, once its PREPARE is in the journal. -/
def appendEvent (faults : AppendFaults) (s : Store) (txId : Json) (plan : Plan) :
    Except StoreError DurableAppend × Store :=
  let written :=
    appendRecord faults.event s.log plan.record maxStoreBytes "Ledger v2 event append"
  let s : Store := { s with log := written.2 }
  let checked : Except CogniError Unit := do
    written.1
    let after ← reading faults.logAfterEvent (readLedger h a reprs s.log)
    requireSnapshotMatchesPrepare after plan.prepare true
  match checked with
  | .error _ => (.error (.indeterminate txId "event"), s.mark txId)
  | .ok () => appendCommit h a reprs faults s txId plan

/-- The PREPARE of a new transaction. -/
def appendPrepare (faults : AppendFaults) (s : Store) (txId : Json) (plan : Plan) :
    Except StoreError DurableAppend × Store :=
  let written := appendDocument faults.prepare s.journal plan.prepare maxJournalBytes
    "Ledger v2 journal PREPARE"
  let s : Store := { s with journal := written.2 }
  match written.1 with
  | .error _ => prepareFailed h a reprs faults s txId plan
  | .ok () => appendEvent h a reprs faults s txId plan

/-- `append`. -/
def append (faults : AppendFaults) (s : Store)
    (envelope txId expectedHead expectedSequence : Json) :
    Except StoreError DurableAppend × Store :=
  match checkAppend h a reprs faults s envelope txId expectedHead expectedSequence with
  | .error e => (.error e, s)
  | .ok (.existing result) => (.ok result, s)
  | .ok (.fresh plan) => appendPrepare h a reprs faults s txId plan

end Append

/-! ## Reconciling -/

/-- The steps of `reconcile_transaction` that fail. -/
structure ReconcileFaults where
  readLog : Bool
  readJournal : Bool
  sync : Bool
  event : Option ℕ
  logAfterEvent : Bool
  journalAfterEvent : Bool
  commit : Option ℕ
  finalLog : Bool
  finalJournal : Bool

def ReconcileFaults.none : ReconcileFaults where
  readLog := false
  readJournal := false
  sync := false
  event := Option.none
  logAfterEvent := false
  journalAfterEvent := false
  commit := Option.none
  finalLog := false
  finalJournal := false

section Reconcile

variable (h : Hasher) (a : Authority) (reprs : FloatLit → Bool)

/-- The checks of `reconcile_transaction`, with the audit and the transaction. -/
def findPending (faults : ReconcileFaults) (s : Store) (txId : Json) :
    Except CogniError (Audit × TransactionState) := do
  requireIdentifier txId "tx_id"
  let audit ← readCombined h a reprs faults.readLog faults.readJournal s false ∅
  let state ← orRaise (findTransaction audit.journal.transactions txId)
    (error ("Ledger v2 transaction " ++ shown txId ++ " does not exist"))
  require ((unresolved audit.journal.transactions).filter (fun t => t.txId ≠ txId) = [])
    (error "Ledger v2 has another unresolved transaction")
  require (s.indeterminate.erase txId = ∅)
    (error "Ledger v2 has another in-process indeterminate transaction")
  .ok (audit, state)

/-- The last look of `reconcile_transaction` at the files. -/
def finishReconcile (faults : ReconcileFaults) (s : Store) (txId prepare : Json) :
    Except StoreError DurableAppend × Store :=
  match readCombined h a reprs faults.finalLog faults.finalJournal s true {txId} with
  | .error _ => (.error (.indeterminate txId "reconcile-postcheck"), s)
  | .ok clean => (.ok ⟨txId, prepare.get "envelope", clean.ledger⟩, s.unmark txId)

/-- The COMMIT of a transaction whose event is in the log. -/
def reconcileCommit (faults : ReconcileFaults) (s : Store) (txId prepare : Json) :
    Except StoreError DurableAppend × Store :=
  match reading faults.journalAfterEvent (readJournal h a reprs s.journal) >>=
      makeCommit h prepare with
  | .error e => (.error (.failed e), s)
  | .ok commit =>
      let written := appendDocument faults.commit s.journal commit maxJournalBytes
        "Ledger v2 reconciled COMMIT"
      let s : Store := { s with journal := written.2 }
      match written.1 with
      | .error _ => (.error (.indeterminate txId "reconcile-commit"), s)
      | .ok () => finishReconcile h a reprs faults s txId prepare

/-- The event of a transaction that is only prepared. -/
def reconcileEvent (faults : ReconcileFaults) (s : Store) (txId prepare : Json) :
    Except StoreError DurableAppend × Store :=
  match canonicalJsonBytes (prepare.get "envelope") with
  | .error e => (.error (.failed e), s)
  | .ok encoded =>
      let written := appendRecord faults.event s.log (encoded ++ [lf]) maxStoreBytes
        "Ledger v2 reconciled event append"
      let s : Store := { s with log := written.2 }
      match written.1 with
      | .error _ => (.error (.indeterminate txId "reconcile-event"), s)
      | .ok () =>
          match (do
              let after ← reading faults.logAfterEvent (readLedger h a reprs s.log)
              requireSnapshotMatchesPrepare after prepare true : Except CogniError Unit) with
          | .error e => (.error (.failed e), s)
          | .ok () => reconcileCommit h a reprs faults s txId prepare

/-- `reconcile_transaction`. -/
def reconcile (faults : ReconcileFaults) (s : Store) (txId : Json) :
    Except StoreError DurableAppend × Store :=
  match findPending h a reprs faults s txId with
  | .error e => (.error (.failed e), s)
  | .ok (audit, state) =>
      let s := s.mark txId
      if state.committed then
        if faults.sync then (.error (.indeterminate txId "reconcile-sync"), s)
        else finishReconcile h a reprs faults s txId state.prepare
      else
        match requireSnapshotMatchesPrepare audit.ledger state.prepare false with
        | .ok () => reconcileEvent h a reprs faults s txId state.prepare
        | .error _ =>
            match requireSnapshotMatchesPrepare audit.ledger state.prepare true with
            | .error e => (.error (.failed e), s)
            | .ok () => reconcileCommit h a reprs faults s txId state.prepare

end Reconcile

/-! ## Runs -/

/-- A call, or the start of a new process. -/
inductive Call
  | append (faults : AppendFaults) (envelope txId expectedHead expectedSequence : Json)
  | reconcile (faults : ReconcileFaults) (txId : Json)
  | restart

section Calls

variable (h : Hasher) (a : Authority) (reprs : FloatLit → Bool)

/-- The result of a call and the store after it. -/
def call (s : Store) : Call → Option (Except StoreError DurableAppend) × Store
  | .append faults envelope txId expectedHead expectedSequence =>
      let result := append h a reprs faults s envelope txId expectedHead expectedSequence
      (some result.1, result.2)
  | .reconcile faults txId =>
      let result := reconcile h a reprs faults s txId
      (some result.1, result.2)
  | .restart => (none, { s with indeterminate := ∅ })

/-- The store after a list of calls. -/
def run (s : Store) (calls : List Call) : Store :=
  calls.foldl (fun s c => (call h a reprs s c).2) s

end Calls

end LedgerStore
