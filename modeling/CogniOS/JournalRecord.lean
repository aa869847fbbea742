/-
# Records of the verifier journal

The states, the transition table and the records of `verifier_journal.py`, with the exact
validation of a record and its canonical bytes.

* `JournalState` and `allowedTransitions` are the public state machine;
* `validateRecord` is `_validate_record` and `JournalRecord.asDict` its inverse;
* `readRecord_bytes` : a valid record is read back from its bytes.
-/
import CogniOS.WrittenJson

namespace VerifierJournal

/-! ## Constants and states -/

def journalId : String := "cogni-os.verifier-journal.v1"

def schemaVersion : ℤ := 1

def maxRecordBytes : ℕ := 4096

def maxRecords : ℕ := 4096

def maxDirectoryEntriesScanned : ℕ := maxRecords * 3 + 32

def maxAttempt : ℤ := 1000000

/-- The largest number of a record, `2**63 - 1`. -/
def maxNumber : ℤ := 9223372036854775807

/-- `VerifierJournalError`, a kind of `RuntimeError`. -/
def error (message : String) : CogniError := ⟨.other, message⟩

/-- `ALL_STATES`. -/
inductive JournalState
  | requested
  | claimed
  | sourceVerified
  | snapshotAcquired
  | executing
  | executionSealed
  | releasePending
  | cleanupAcked
  | receiptPersisted
  | terminalAppended
  | done
  | failed
  | quarantined
  | crashAborted
  | failedCleanupRequired
  deriving DecidableEq

namespace JournalState

/-- The text of a state. -/
def text : JournalState → String
  | requested => "REQUESTED"
  | claimed => "CLAIMED"
  | sourceVerified => "SOURCE_VERIFIED"
  | snapshotAcquired => "SNAPSHOT_ACQUIRED"
  | executing => "EXECUTING"
  | executionSealed => "EXECUTION_SEALED"
  | releasePending => "RELEASE_PENDING"
  | cleanupAcked => "CLEANUP_ACKED"
  | receiptPersisted => "RECEIPT_PERSISTED"
  | terminalAppended => "TERMINAL_APPENDED"
  | done => "DONE"
  | failed => "FAILED"
  | quarantined => "QUARANTINED"
  | crashAborted => "CRASH_ABORTED"
  | failedCleanupRequired => "FAILED_CLEANUP_REQUIRED"

/-- All states. -/
def all : List JournalState :=
  [requested, claimed, sourceVerified, snapshotAcquired, executing, executionSealed,
    releasePending, cleanupAcked, receiptPersisted, terminalAppended, done, failed, quarantined,
    crashAborted, failedCleanupRequired]

instance : Fintype JournalState where
  elems := all.toFinset
  complete := by intro state; cases state <;> decide

/-- The state with a text. -/
def ofText (s : String) : Option JournalState := all.find? (·.text = s)

theorem ofText_text (state : JournalState) : ofText state.text = some state := by
  cases state <;> decide

theorem text_of_ofText {s : String} {state : JournalState} (h : ofText s = some state) :
    state.text = s := by
  simpa using List.find?_some h

/-- `FAILURE_STATES`. -/
def isFailure (state : JournalState) : Bool :=
  state ∈ [failed, quarantined, crashAborted, failedCleanupRequired]

/-- `TERMINAL_STATES`. -/
def isTerminal (state : JournalState) : Bool := state ∈ [done, failed, quarantined]

/-- `failure_carry_states`. -/
def carriesFailure (state : JournalState) : Bool :=
  state ∈ [releasePending, cleanupAcked, receiptPersisted, terminalAppended, done]

end JournalState

open JournalState

/-- `ALLOWED_TRANSITIONS`. -/
def allowedTransitions : JournalState → List JournalState
  | requested => [claimed, failed, quarantined]
  | claimed => [sourceVerified, failed, quarantined]
  | sourceVerified => [snapshotAcquired, failed, quarantined]
  | snapshotAcquired => [executing]
  | executing => [executionSealed]
  | executionSealed => [releasePending]
  | crashAborted => [releasePending]
  | failedCleanupRequired => [releasePending]
  | releasePending => [cleanupAcked]
  | cleanupAcked => [receiptPersisted, quarantined]
  | receiptPersisted => [terminalAppended, quarantined]
  | terminalAppended => [done, quarantined]
  | done => []
  | failed => []
  | quarantined => []

/-! ## Records -/

/-- `VerifierJournalRecord` without its two constant fields. -/
structure JournalRecord where
  dispatchEventHash : String
  taskId : String
  attempt : ℤ
  actor : String
  runId : String
  state : JournalState
  previousState : Option JournalState
  revision : ℤ
  createdAtNs : ℤ
  updatedAtNs : ℤ
  failureCode : Option String
  quarantineReason : Option String
  deriving DecidableEq

/-- A text or `None`. -/
def optionalText : Option String → Json
  | none => .null
  | some s => .str s

/-- `as_dict`. -/
def JournalRecord.asDict (r : JournalRecord) : Json :=
  .obj [("actor", .str r.actor), ("attempt", .int r.attempt), ("created_at_ns", .int r.createdAtNs),
    ("dispatch_event_hash", .str r.dispatchEventHash),
    ("failure_code", optionalText r.failureCode), ("journal_id", .str journalId),
    ("previous_state", optionalText (r.previousState.map text)),
    ("quarantine_reason", optionalText r.quarantineReason), ("revision", .int r.revision),
    ("run_id", .str r.runId), ("schema_version", .int schemaVersion),
    ("state", .str r.state.text), ("task_id", .str r.taskId),
    ("updated_at_ns", .int r.updatedAtNs)]

/-- `_RECORD_KEYS` in key order. -/
def recordKeys : List String :=
  ["actor", "attempt", "created_at_ns", "dispatch_event_hash", "failure_code", "journal_id",
    "previous_state", "quarantine_reason", "revision", "run_id", "schema_version", "state",
    "task_id", "updated_at_ns"]

/-! ## Validation -/

/-- `_validate_utf8_identifier`. -/
def validateIdentifier (value : Json) (name : String) (maximumBytes : ℕ)
    (pattern : String → Bool) : Except CogniError String := do
  let s ← orRaise value.asStr? (error ("Invalid " ++ name))
  require (pattern s = true) (error ("Invalid " ++ name))
  require ((Utf8.encode s.toList).length ≤ maximumBytes)
    (error (name ++ " exceeds its fixed size limit"))
  .ok s

/-- `_validate_optional_text`. -/
def validateOptionalText (value : Json) (name : String) (maximumBytes : ℕ) :
    Except CogniError (Option String) :=
  if value = .null then .ok none
  else do
    let s ← orRaise value.asStr? (error ("Invalid " ++ name))
    require (s ≠ "") (error ("Invalid " ++ name))
    require ((Utf8.encode s.toList).length ≤ maximumBytes)
      (error (name ++ " exceeds its fixed size limit"))
    require (s.toList.all (fun c => 0x20 ≤ c.toNat) = true)
      (error (name ++ " contains a control character"))
    .ok (some s)

/-- `_validate_dispatch_hash`. -/
def validateDispatchHash (value : Json) : Except CogniError String := do
  let s ← orRaise value.asStr?
    (error "dispatch_event_hash must be 64 lowercase hexadecimal characters")
  require (Hex.isHex 64 s = true)
    (error "dispatch_event_hash must be 64 lowercase hexadecimal characters")
  .ok s

/-- `_FAILURE_CODE_RE.fullmatch`. -/
def isFailureCode (s : String) : Bool :=
  match s.toList with
  | [] => false
  | c :: cs =>
      (isAlnum c && !c.isUpper) &&
        cs.all (fun d => (isAlnum d && !d.isUpper) || d ∈ ['.', '_', '-']) && cs.length ≤ 63

/-- The check of `attempt`. -/
def validateAttempt (value : Json) : Except CogniError ℤ := do
  let attempt ← orRaise value.asInt? (error "attempt must be an integer")
  require (1 ≤ attempt ∧ attempt ≤ maxAttempt) (error "attempt is outside the fixed range")
  .ok attempt

/-- The check of `revision` and of the two times. -/
def validateNumber (value : Json) (name : String) : Except CogniError ℤ := do
  let number ← orRaise value.asInt? (error (name ++ " must be a non-negative integer"))
  require (0 ≤ number) (error (name ++ " must be a non-negative integer"))
  require (number ≤ maxNumber) (error (name ++ " exceeds its fixed range"))
  .ok number

/-- The check of `previous_state`. -/
def validatePreviousState (value : Json) : Except CogniError (Option JournalState) :=
  if value = .null then .ok none
  else (orRaise (value.asStr?.bind ofText) (error "Unknown previous verifier journal state")).map
    some

/-- The rules of `_validate_record` between the fields of a record. -/
def checkMetadata (r : JournalRecord) : Except CogniError Unit := do
  require (r.createdAtNs ≤ r.updatedAtNs) (error "Journal timestamps are not monotonic")
  require (¬(r.revision = 0 ∧ r.previousState ≠ none))
    (error "Initial journal record has a previous state")
  require (¬(0 < r.revision ∧ r.previousState = none))
    (error "Updated journal record lacks a previous state")

/-- The rules of `_validate_record` on failure metadata. -/
def checkFailure (r : JournalRecord) : Except CogniError Unit := do
  require (¬(r.state ∈ [failed, crashAborted, failedCleanupRequired] ∧ r.failureCode = none))
    (error "Failure state requires failure_code")
  require (¬(r.state = quarantined ∧ (r.failureCode = none ∨ r.quarantineReason = none)))
    (error "QUARANTINED requires failure_code and quarantine_reason")
  require (¬(r.state.isFailure = false ∧ r.state.carriesFailure = false ∧ r.failureCode ≠ none))
    (error "State cannot carry failure metadata")
  require (¬(r.state ≠ quarantined ∧ r.quarantineReason ≠ none))
    (error "Non-quarantine failure carries a reason")

/-- `_validate_record`. -/
def validateRecord (value : Json) : Except CogniError JournalRecord := do
  require (value.isObj = true ∧ value.keys = recordKeys)
    (error "Verifier journal record schema is not exact")
  require ((value.get "schema_version").equalsInt schemaVersion = true)
    (error "Unsupported verifier journal schema version")
  require (value.get "journal_id" = .str journalId)
    (error "Unexpected verifier journal identifier")
  let dispatchEventHash ← validateDispatchHash (value.get "dispatch_event_hash")
  let taskId ← validateIdentifier (value.get "task_id") "task_id" 80 isTaskId
  let actor ← validateIdentifier (value.get "actor") "actor" 50 isAgentId
  let runId ← validateIdentifier (value.get "run_id") "run_id" 32 (Hex.isHex 32)
  let attempt ← validateAttempt (value.get "attempt")
  let state ← orRaise ((value.get "state").asStr?.bind ofText)
    (error "Unknown verifier journal state")
  let previousState ← validatePreviousState (value.get "previous_state")
  let revision ← validateNumber (value.get "revision") "revision"
  let createdAtNs ← validateNumber (value.get "created_at_ns") "created_at_ns"
  let updatedAtNs ← validateNumber (value.get "updated_at_ns") "updated_at_ns"
  let r : JournalRecord :=
    { dispatchEventHash, taskId, attempt, actor, runId, state, previousState, revision,
      createdAtNs, updatedAtNs, failureCode := none, quarantineReason := none }
  checkMetadata r
  let failureCode ← validateOptionalText (value.get "failure_code") "failure_code" 64
  require (failureCode.all isFailureCode = true) (error "Invalid failure_code")
  let quarantineReason ←
    validateOptionalText (value.get "quarantine_reason") "quarantine_reason" 512
  let r := { r with failureCode, quarantineReason }
  checkFailure r
  .ok r

/-! ## What validation accepts -/

theorem validateIdentifier_eq_ok {value : Json} {name : String} {maximumBytes : ℕ}
    {pattern : String → Bool} {s : String} :
    validateIdentifier value name maximumBytes pattern = .ok s ↔
      value = .str s ∧ pattern s = true ∧ (Utf8.encode s.toList).length ≤ maximumBytes := by
  unfold validateIdentifier
  constructor
  · intro hok
    obtain ⟨text, htext, hok⟩ := bind_eq_ok.mp hok
    obtain ⟨hpattern, hok⟩ := require_bind_eq_ok.mp hok
    obtain ⟨hlen, hok⟩ := require_bind_eq_ok.mp hok
    cases hok
    exact ⟨Json.asStr?_eq_some.mp (orRaise_eq_ok.mp htext), hpattern, hlen⟩
  · rintro ⟨rfl, hpattern, hlen⟩
    exact bind_eq_ok.mpr ⟨s, rfl, require_bind_eq_ok.mpr
      ⟨hpattern, require_bind_eq_ok.mpr ⟨hlen, rfl⟩⟩⟩

theorem validateDispatchHash_eq_ok {value : Json} {s : String} :
    validateDispatchHash value = .ok s ↔ value = .str s ∧ Hex.isHex 64 s = true := by
  unfold validateDispatchHash
  constructor
  · intro hok
    obtain ⟨text, htext, hok⟩ := bind_eq_ok.mp hok
    obtain ⟨hhex, hok⟩ := require_bind_eq_ok.mp hok
    cases hok
    exact ⟨Json.asStr?_eq_some.mp (orRaise_eq_ok.mp htext), hhex⟩
  · rintro ⟨rfl, hhex⟩
    exact bind_eq_ok.mpr ⟨s, rfl, require_bind_eq_ok.mpr ⟨hhex, rfl⟩⟩

theorem validateOptionalText_eq_ok {value : Json} {name : String} {maximumBytes : ℕ}
    {x : Option String} :
    validateOptionalText value name maximumBytes = .ok x ↔
      value = optionalText x ∧ ∀ s ∈ x, s ≠ "" ∧ (Utf8.encode s.toList).length ≤ maximumBytes ∧
        s.toList.all (fun c => 0x20 ≤ c.toNat) = true := by
  unfold validateOptionalText
  constructor
  · intro hok
    split at hok
    · rename_i hnull
      cases hok
      exact ⟨hnull, fun s hs => absurd hs (by simp)⟩
    · obtain ⟨text, htext, hok⟩ := bind_eq_ok.mp hok
      obtain ⟨hne, hok⟩ := require_bind_eq_ok.mp hok
      obtain ⟨hlen, hok⟩ := require_bind_eq_ok.mp hok
      obtain ⟨hcontrol, hok⟩ := require_bind_eq_ok.mp hok
      cases hok
      refine ⟨Json.asStr?_eq_some.mp (orRaise_eq_ok.mp htext), ?_⟩
      rintro s hs
      obtain rfl : text = s := by simpa using hs
      exact ⟨hne, hlen, hcontrol⟩
  · rintro ⟨rfl, htext⟩
    cases x with
    | none => rfl
    | some s =>
      obtain ⟨hne, hlen, hcontrol⟩ := htext s rfl
      show (do
        let s' ← orRaise (Json.str s).asStr? _
        _) = _
      exact bind_eq_ok.mpr ⟨s, rfl, require_bind_eq_ok.mpr ⟨hne, require_bind_eq_ok.mpr
        ⟨hlen, require_bind_eq_ok.mpr ⟨hcontrol, rfl⟩⟩⟩⟩

theorem validateAttempt_eq_ok {value : Json} {n : ℤ} :
    validateAttempt value = .ok n ↔ value = .int n ∧ 1 ≤ n ∧ n ≤ maxAttempt := by
  unfold validateAttempt
  constructor
  · intro hok
    obtain ⟨m, hm, hok⟩ := bind_eq_ok.mp hok
    obtain ⟨hrange, hok⟩ := require_bind_eq_ok.mp hok
    cases hok
    exact ⟨Json.asInt?_eq_some.mp (orRaise_eq_ok.mp hm), hrange⟩
  · rintro ⟨rfl, hrange⟩
    exact bind_eq_ok.mpr ⟨n, rfl, require_bind_eq_ok.mpr ⟨hrange, rfl⟩⟩

theorem validateNumber_eq_ok {value : Json} {name : String} {n : ℤ} :
    validateNumber value name = .ok n ↔ value = .int n ∧ 0 ≤ n ∧ n ≤ maxNumber := by
  unfold validateNumber
  constructor
  · intro hok
    obtain ⟨m, hm, hok⟩ := bind_eq_ok.mp hok
    obtain ⟨hlow, hok⟩ := require_bind_eq_ok.mp hok
    obtain ⟨hhigh, hok⟩ := require_bind_eq_ok.mp hok
    cases hok
    exact ⟨Json.asInt?_eq_some.mp (orRaise_eq_ok.mp hm), hlow, hhigh⟩
  · rintro ⟨rfl, hlow, hhigh⟩
    exact bind_eq_ok.mpr ⟨n, rfl, require_bind_eq_ok.mpr
      ⟨hlow, require_bind_eq_ok.mpr ⟨hhigh, rfl⟩⟩⟩

theorem validatePreviousState_eq_ok {value : Json} {x : Option JournalState}
    (hok : validatePreviousState value = .ok x) : value = optionalText (x.map text) := by
  unfold validatePreviousState at hok
  split at hok
  · rename_i hnull
    cases hok
    exact hnull
  · cases hstate : value.asStr?.bind ofText with
    | none =>
      rw [hstate] at hok
      cases hok
    | some state =>
      rw [hstate] at hok
      cases hok
      obtain ⟨s, hs, hof⟩ := Option.bind_eq_some_iff.mp hstate
      rw [Json.asStr?_eq_some.mp hs, ← text_of_ofText hof]
      rfl

theorem validateState_eq_ok {value : Json} {e : CogniError} {state : JournalState}
    (hok : orRaise (value.asStr?.bind ofText) e = .ok state) : value = .str state.text := by
  obtain ⟨s, hs, hof⟩ := Option.bind_eq_some_iff.mp (orRaise_eq_ok.mp hok)
  rw [Json.asStr?_eq_some.mp hs, text_of_ofText hof]

theorem optionalText_injective : Function.Injective optionalText := by
  intro x y h
  cases x <;> cases y <;> simp_all [optionalText]

theorem text_injective : Function.Injective text := by
  intro a b h
  have hof := ofText_text a
  rw [h, ofText_text b] at hof
  exact (Option.some.inj hof).symm

/-- What a valid record satisfies. -/
structure RecordRules (r : JournalRecord) : Prop where
  hash : Hex.isHex 64 r.dispatchEventHash = true
  taskId : isTaskId r.taskId = true
  actor : isAgentId r.actor = true
  runId : Hex.isHex 32 r.runId = true
  attempt : 1 ≤ r.attempt ∧ r.attempt ≤ maxAttempt
  revision : 0 ≤ r.revision ∧ r.revision ≤ maxNumber
  createdAtNs : 0 ≤ r.createdAtNs ∧ r.createdAtNs ≤ maxNumber
  updatedAtNs : 0 ≤ r.updatedAtNs ∧ r.updatedAtNs ≤ maxNumber
  metadata : checkMetadata r = .ok ()
  failureCode : ∀ code ∈ r.failureCode, isFailureCode code = true
  quarantineReason : ∀ reason ∈ r.quarantineReason, reason ≠ "" ∧
    (Utf8.encode reason.toList).length ≤ 512 ∧
    reason.toList.all (fun c => 0x20 ≤ c.toNat) = true
  failure : checkFailure r = .ok ()

theorem checkMetadata_congr {r r' : JournalRecord} (hcreated : r'.createdAtNs = r.createdAtNs)
    (hupdated : r'.updatedAtNs = r.updatedAtNs) (hrevision : r'.revision = r.revision)
    (hprevious : r'.previousState = r.previousState) : checkMetadata r' = checkMetadata r := by
  unfold checkMetadata
  rw [hcreated, hupdated, hrevision, hprevious]

/-- **Validation.**  An accepted document has the fields of its record, and the record follows
the rules. -/
theorem validateRecord_eq_ok {value : Json} {r : JournalRecord}
    (hok : validateRecord value = .ok r) : RecordRules r ∧
      value.get "dispatch_event_hash" = .str r.dispatchEventHash ∧
      value.get "task_id" = .str r.taskId ∧ value.get "actor" = .str r.actor ∧
      value.get "run_id" = .str r.runId ∧ value.get "attempt" = .int r.attempt ∧
      value.get "state" = .str r.state.text ∧
      value.get "previous_state" = optionalText (r.previousState.map text) ∧
      value.get "revision" = .int r.revision ∧ value.get "created_at_ns" = .int r.createdAtNs ∧
      value.get "updated_at_ns" = .int r.updatedAtNs ∧
      value.get "failure_code" = optionalText r.failureCode ∧
      value.get "quarantine_reason" = optionalText r.quarantineReason := by
  unfold validateRecord at hok
  obtain ⟨-, hok⟩ := require_bind_eq_ok.mp hok
  obtain ⟨-, hok⟩ := require_bind_eq_ok.mp hok
  obtain ⟨-, hok⟩ := require_bind_eq_ok.mp hok
  obtain ⟨hash, hhash, hok⟩ := bind_eq_ok.mp hok
  obtain ⟨taskId, htask, hok⟩ := bind_eq_ok.mp hok
  obtain ⟨actor, hactor, hok⟩ := bind_eq_ok.mp hok
  obtain ⟨runId, hrun, hok⟩ := bind_eq_ok.mp hok
  obtain ⟨attempt, hattempt, hok⟩ := bind_eq_ok.mp hok
  obtain ⟨state, hstate, hok⟩ := bind_eq_ok.mp hok
  obtain ⟨previousState, hprevious, hok⟩ := bind_eq_ok.mp hok
  obtain ⟨revision, hrevision, hok⟩ := bind_eq_ok.mp hok
  obtain ⟨created, hcreated, hok⟩ := bind_eq_ok.mp hok
  obtain ⟨updated, hupdated, hok⟩ := bind_eq_ok.mp hok
  obtain ⟨_, hmetadata, hok⟩ := bind_eq_ok.mp hok
  obtain ⟨failureCode, hfailure, hok⟩ := bind_eq_ok.mp hok
  obtain ⟨hcode, hok⟩ := require_bind_eq_ok.mp hok
  obtain ⟨reason, hreason, hok⟩ := bind_eq_ok.mp hok
  obtain ⟨_, hrules, hok⟩ := bind_eq_ok.mp hok
  cases hok
  obtain ⟨hhash, hhex⟩ := validateDispatchHash_eq_ok.mp hhash
  obtain ⟨htask, hisTask, -⟩ := validateIdentifier_eq_ok.mp htask
  obtain ⟨hactor, hisActor, -⟩ := validateIdentifier_eq_ok.mp hactor
  obtain ⟨hrun, hisRun, -⟩ := validateIdentifier_eq_ok.mp hrun
  obtain ⟨hattempt, hattemptRange⟩ := validateAttempt_eq_ok.mp hattempt
  obtain ⟨hrevision, hrevisionRange⟩ := validateNumber_eq_ok.mp hrevision
  obtain ⟨hcreated, hcreatedRange⟩ := validateNumber_eq_ok.mp hcreated
  obtain ⟨hupdated, hupdatedRange⟩ := validateNumber_eq_ok.mp hupdated
  obtain ⟨hfailure, -⟩ := validateOptionalText_eq_ok.mp hfailure
  obtain ⟨hreason, hreasonText⟩ := validateOptionalText_eq_ok.mp hreason
  exact ⟨{
    hash := hhex
    taskId := hisTask
    actor := hisActor
    runId := hisRun
    attempt := hattemptRange
    revision := hrevisionRange
    createdAtNs := hcreatedRange
    updatedAtNs := hupdatedRange
    metadata := (checkMetadata_congr rfl rfl rfl rfl).trans hmetadata
    failureCode := by
      rintro code hmem
      rw [Option.mem_def] at hmem
      rw [show failureCode = some code from hmem] at hcode
      exact hcode
    quarantineReason := hreasonText
    failure := hrules }, hhash, htask, hactor, hrun, hattempt, validateState_eq_ok hstate,
    validatePreviousState_eq_ok hprevious, hrevision, hcreated, hupdated, hfailure, hreason⟩

/-- Validation of the document of a record returns that record. -/
theorem eq_of_validateRecord_asDict {u r : JournalRecord} (hok : validateRecord u.asDict = .ok r) :
    r = u := by
  obtain ⟨-, hhash, htask, hactor, hrun, hattempt, hstate, hprevious, hrevision, hcreated,
    hupdated, hfailure, hreason⟩ := validateRecord_eq_ok hok
  have hhash : r.dispatchEventHash = u.dispatchEventHash := (Json.str.inj hhash).symm
  have htask : r.taskId = u.taskId := (Json.str.inj htask).symm
  have hactor : r.actor = u.actor := (Json.str.inj hactor).symm
  have hrun : r.runId = u.runId := (Json.str.inj hrun).symm
  have hattempt : r.attempt = u.attempt := (Json.int.inj hattempt).symm
  have hstate : r.state = u.state := (text_injective (Json.str.inj hstate)).symm
  have hprevious : r.previousState = u.previousState :=
    (Option.map_injective text_injective (optionalText_injective hprevious)).symm
  have hrevision : r.revision = u.revision := (Json.int.inj hrevision).symm
  have hcreated : r.createdAtNs = u.createdAtNs := (Json.int.inj hcreated).symm
  have hupdated : r.updatedAtNs = u.updatedAtNs := (Json.int.inj hupdated).symm
  have hfailure : r.failureCode = u.failureCode := (optionalText_injective hfailure).symm
  have hreason : r.quarantineReason = u.quarantineReason := (optionalText_injective hreason).symm
  cases r
  cases u
  simp_all

/-! ### Patterns -/

theorem isPlain_of_isTaskId {s : String} (h : isTaskId s = true) :
    Json.isPlain s = true ∧ s.toList.length ≤ 80 := by
  unfold isTaskId at h
  unfold Json.isPlain
  cases hs : s.toList with
  | nil => simp
  | cons c cs =>
    rw [hs] at h
    simp only [Bool.and_eq_true, decide_eq_true_eq, List.all_eq_true, Bool.or_eq_true] at h
    obtain ⟨⟨hc, hcs⟩, hlen⟩ := h
    refine ⟨List.all_eq_true.mpr fun d hd => ?_, by rw [List.length_cons]; omega⟩
    unfold Json.isPlainChar
    rw [Bool.or_eq_true, decide_eq_true_eq]
    rcases List.mem_cons.mp hd with rfl | hd
    · exact .inl hc
    · exact hcs d hd

/-- The patterns of an actor and of a failure code. -/
theorem isPlain_of_lowercase {s : String} {n : ℕ} (h : (match s.toList with
      | [] => false
      | c :: cs =>
          (isAlnum c && !c.isUpper) &&
            cs.all (fun d => (isAlnum d && !d.isUpper) || d ∈ ['.', '_', '-']) &&
            cs.length ≤ n) = true) :
    Json.isPlain s = true ∧ s.toList.length ≤ n + 1 ∧ s ≠ "" := by
  unfold Json.isPlain
  cases hs : s.toList with
  | nil =>
    rw [hs] at h
    exact absurd h Bool.false_ne_true
  | cons c cs =>
    rw [hs] at h
    simp only [Bool.and_eq_true, decide_eq_true_eq, List.all_eq_true, Bool.or_eq_true] at h
    obtain ⟨⟨⟨hc, -⟩, hcs⟩, hlen⟩ := h
    refine ⟨List.all_eq_true.mpr fun d hd => ?_, by rw [List.length_cons]; omega, ?_⟩
    · unfold Json.isPlainChar
      rw [Bool.or_eq_true, decide_eq_true_eq]
      rcases List.mem_cons.mp hd with rfl | hd
      · exact .inl hc
      · exact (hcs d hd).imp And.left id
    · rintro rfl
      exact absurd hs (by simp)

theorem isPlain_of_isHex {n : ℕ} {s : String} (h : Hex.isHex n s = true) :
    Json.isPlain s = true ∧ s.toList.length = n := by
  unfold Hex.isHex at h
  rw [Bool.and_eq_true, decide_eq_true_eq] at h
  refine ⟨List.all_eq_true.mpr fun c hc => ?_, h.1⟩
  have hdigit := List.all_eq_true.mp h.2 c hc
  unfold Hex.isDigit at hdigit
  unfold Json.isPlainChar isAlnum
  rw [Bool.or_eq_true] at hdigit
  rcases hdigit with hdigit | hletter
  · simp [hdigit]
  · rw [Bool.and_eq_true, decide_eq_true_eq, decide_eq_true_eq] at hletter
    have hz : c ≤ 'z' := hletter.2.trans (by decide)
    simp [hletter.1, hz]

/-- A plain text has as many bytes as characters. -/
theorem length_encode_plain {s : String} (h : Json.isPlain s = true) :
    (Utf8.encode s.toList).length = s.toList.length :=
  Utf8.length_encode_ascii fun c hc => by
    have := (Json.toNat_of_isPlainChar (List.all_eq_true.mp h c hc)).2.1
    omega

/-- A plain text has no control characters. -/
theorem all_isPlain {s : String} (h : Json.isPlain s = true) :
    s.toList.all (fun c => 0x20 ≤ c.toNat) = true :=
  List.all_eq_true.mpr fun c hc => by
    have := (Json.toNat_of_isPlainChar (List.all_eq_true.mp h c hc)).1
    rw [decide_eq_true_eq]
    omega

/-- The record passes its own validation. -/
def JournalRecord.Valid (r : JournalRecord) : Prop := validateRecord r.asDict = .ok r

instance (r : JournalRecord) : Decidable r.Valid := by
  unfold JournalRecord.Valid
  cases h : validateRecord r.asDict with
  | error e => exact isFalse (by simp)
  | ok v => exact decidable_of_iff (v = r) (by simp)

/-- **The rules are all that validation asks of a record.** -/
theorem valid_iff_rules {r : JournalRecord} : r.Valid ↔ RecordRules r := by
  constructor
  · exact fun h => (validateRecord_eq_ok h).1
  · intro h
    obtain ⟨htaskPlain, htaskLen⟩ := isPlain_of_isTaskId h.taskId
    obtain ⟨hactorPlain, hactorLen, -⟩ := isPlain_of_lowercase (n := 49) h.actor
    obtain ⟨hrunPlain, hrunLen⟩ := isPlain_of_isHex h.runId
    have htask : validateIdentifier (.str r.taskId) "task_id" 80 isTaskId = .ok r.taskId :=
      validateIdentifier_eq_ok.mpr ⟨rfl, h.taskId, by rw [length_encode_plain htaskPlain]; omega⟩
    have hactor : validateIdentifier (.str r.actor) "actor" 50 isAgentId = .ok r.actor :=
      validateIdentifier_eq_ok.mpr ⟨rfl, h.actor, by rw [length_encode_plain hactorPlain]; omega⟩
    have hrun : validateIdentifier (.str r.runId) "run_id" 32 (Hex.isHex 32) = .ok r.runId :=
      validateIdentifier_eq_ok.mpr ⟨rfl, h.runId, by rw [length_encode_plain hrunPlain]; omega⟩
    have hstate : orRaise ((Json.str r.state.text).asStr?.bind ofText)
        (error "Unknown verifier journal state") = .ok r.state :=
      orRaise_eq_ok.mpr (ofText_text r.state)
    have hprevious : validatePreviousState (optionalText (r.previousState.map text)) =
        .ok r.previousState := by
      cases r.previousState with
      | none => rfl
      | some state =>
        show (orRaise (ofText state.text) _).map some = _
        rw [ofText_text]
        rfl
    have hcode : validateOptionalText (optionalText r.failureCode) "failure_code" 64 =
        .ok r.failureCode := by
      refine validateOptionalText_eq_ok.mpr ⟨rfl, fun code hmem => ?_⟩
      obtain ⟨hplain, hlen, hne⟩ := isPlain_of_lowercase (n := 63) (h.failureCode code hmem)
      exact ⟨hne, by rw [length_encode_plain hplain]; omega, all_isPlain hplain⟩
    have hreason : validateOptionalText (optionalText r.quarantineReason) "quarantine_reason" 512 =
        .ok r.quarantineReason :=
      validateOptionalText_eq_ok.mpr ⟨rfl, h.quarantineReason⟩
    have hpattern : r.failureCode.all isFailureCode = true := by
      have hall := h.failureCode
      cases hfailure : r.failureCode with
      | none => rfl
      | some code => exact hall code hfailure
    unfold JournalRecord.Valid validateRecord
    refine require_bind_eq_ok.mpr ⟨⟨rfl, rfl⟩, require_bind_eq_ok.mpr ⟨rfl,
      require_bind_eq_ok.mpr ⟨rfl, bind_eq_ok.mpr ⟨_, validateDispatchHash_eq_ok.mpr ⟨rfl, h.hash⟩,
      bind_eq_ok.mpr ⟨_, htask, bind_eq_ok.mpr ⟨_, hactor, bind_eq_ok.mpr ⟨_, hrun,
      bind_eq_ok.mpr ⟨_, validateAttempt_eq_ok.mpr ⟨rfl, h.attempt⟩,
      bind_eq_ok.mpr ⟨_, hstate, bind_eq_ok.mpr ⟨_, hprevious,
      bind_eq_ok.mpr ⟨_, validateNumber_eq_ok.mpr ⟨rfl, h.revision⟩,
      bind_eq_ok.mpr ⟨_, validateNumber_eq_ok.mpr ⟨rfl, h.createdAtNs⟩,
      bind_eq_ok.mpr ⟨_, validateNumber_eq_ok.mpr ⟨rfl, h.updatedAtNs⟩,
      bind_eq_ok.mpr ⟨(), (checkMetadata_congr rfl rfl rfl rfl).trans h.metadata,
      bind_eq_ok.mpr ⟨_, hcode, require_bind_eq_ok.mpr ⟨hpattern,
      bind_eq_ok.mpr ⟨_, hreason, bind_eq_ok.mpr ⟨(), h.failure, rfl⟩⟩⟩⟩⟩⟩⟩⟩⟩⟩⟩⟩⟩⟩⟩⟩⟩⟩

/-! ## Bytes -/

/-- `_canonical_json_bytes`. -/
def canonicalJsonBytes (value : Json) : Except CogniError (List UInt8) :=
  let encoded := value.encoding ++ [Utf8.lf]
  if maxRecordBytes < encoded.length then
    .error (error "Journal record exceeds the fixed size limit")
  else .ok encoded

/-- The checks of `_read_json_exact` on the content of a file. -/
def readJsonExact (raw : List UInt8) (expectedKeys : List String) : Except CogniError Json := do
  require (raw.length ≤ maxRecordBytes) (error "Journal entry exceeds the size limit")
  require (raw.getLast? = some Utf8.lf) (error "Journal JSON lacks its canonical newline")
  let value ← orRaise ((Utf8.decode raw).bind (Json.loads Json.lastWins))
    (error "Journal file is not valid UTF-8 JSON")
  require (value.isObj = true ∧ value.keys = expectedKeys)
    (error "Journal file schema is not exact")
  let encoded ← canonicalJsonBytes value
  require (encoded = raw) (error "Journal file is not canonical JSON")
  .ok value

/-- The canonical bytes of a document, of any size. -/
def fileBytes (value : Json) : List UInt8 := value.encoding ++ [Utf8.lf]

theorem canonicalJsonBytes_eq_ok {value : Json} {encoded : List UInt8} :
    canonicalJsonBytes value = .ok encoded ↔
      (fileBytes value).length ≤ maxRecordBytes ∧ encoded = fileBytes value := by
  have hdef : canonicalJsonBytes value =
      if maxRecordBytes < (fileBytes value).length then
        .error (error "Journal record exceeds the fixed size limit")
      else .ok (fileBytes value) := rfl
  rw [hdef]
  by_cases hlong : maxRecordBytes < (fileBytes value).length
  · rw [if_pos hlong]
    constructor
    · intro hok
      cases hok
    · rintro ⟨hle, -⟩
      omega
  · rw [if_neg hlong]
    constructor
    · intro hok
      cases hok
      exact ⟨by omega, rfl⟩
    · rintro ⟨-, rfl⟩
      rfl

/-- A document is read back from its bytes. -/
theorem loads_fileBytes {value : Json} (hw : value.WellFormed) :
    (Utf8.decode (fileBytes value)).bind (Json.loads Json.lastWins) = some value := by
  have hencode : fileBytes value = Utf8.encode (value.dumps 0 ++ ['\n']) := by
    rw [Utf8.encode_append]
    rfl
  have hskip : Json.skipWs (value.dumps 0 ++ ['\n']) = value.dumps 0 ++ ['\n'] :=
    Json.skipWs_dumps 0 value ['\n']
  have hlen := Json.size_le_length 0 value
  have hscan := Json.scanValue_dumps Json.keepsSorted_lastWins 0 value
    ((value.dumps 0 ++ ['\n']).length + 1) ['\n'] hw
    (by rw [List.length_append]; omega) (JsonNumber.ends_cons [] (by decide) (by decide))
  rw [hencode, Utf8.decode_encode, Option.bind_some, Json.loads, hskip, hscan]
  rfl

theorem readJsonExact_fileBytes {value : Json} {keys : List String} (hw : value.WellFormed)
    (hobj : value.isObj = true) (hkeys : value.keys = keys)
    (hlen : (fileBytes value).length ≤ maxRecordBytes) :
    readJsonExact (fileBytes value) keys = .ok value := by
  unfold readJsonExact
  have hlast : (fileBytes value).getLast? = some Utf8.lf := by simp [fileBytes]
  refine require_bind_eq_ok.mpr ⟨hlen, require_bind_eq_ok.mpr ⟨hlast, bind_eq_ok.mpr
    ⟨value, orRaise_eq_ok.mpr (loads_fileBytes hw), require_bind_eq_ok.mpr
      ⟨⟨hobj, hkeys⟩, bind_eq_ok.mpr ⟨fileBytes value, ?_, require_bind_eq_ok.mpr
        ⟨rfl, rfl⟩⟩⟩⟩⟩⟩
  exact canonicalJsonBytes_eq_ok.mpr ⟨hlen, rfl⟩

/-- The encoding of a document has no newline. -/
theorem lf_notMem_encoding (value : Json) : Utf8.lf ∉ value.encoding := by
  intro hmem
  have hline := Json.toNat_of_mem_dumps (Utf8.lf_mem_encode hmem)
  exact absurd hline (by decide)

/-- A file with the bytes of a document is read as that document, if it is read. -/
theorem eq_of_readJsonExact_fileBytes {value v : Json} {keys : List String}
    (hw : value.WellFormed) (hread : readJsonExact (fileBytes value) keys = .ok v) :
    v = value ∧ value.keys = keys := by
  unfold readJsonExact at hread
  obtain ⟨-, hread⟩ := require_bind_eq_ok.mp hread
  obtain ⟨-, hread⟩ := require_bind_eq_ok.mp hread
  obtain ⟨w, hw', hread⟩ := bind_eq_ok.mp hread
  rw [loads_fileBytes hw] at hw'
  obtain rfl : value = w := by simpa using hw'
  obtain ⟨hkeys, hread⟩ := require_bind_eq_ok.mp hread
  obtain ⟨_, -, hread⟩ := bind_eq_ok.mp hread
  obtain ⟨-, hread⟩ := require_bind_eq_ok.mp hread
  cases hread
  exact ⟨rfl, hkeys.2⟩

/-- A file that was cut is not read. -/
theorem readJsonExact_cut {value : Json} (keys : List String) {k : ℕ}
    (hk : k < (fileBytes value).length) :
    ∃ e, readJsonExact ((fileBytes value).take k) keys = .error e := by
  have hcut : (fileBytes value).take k = value.encoding.take k := by
    unfold fileBytes at hk ⊢
    rw [List.length_append, List.length_singleton] at hk
    rw [List.take_append_of_le_length (by omega)]
  have hlast : ((fileBytes value).take k).getLast? ≠ some Utf8.lf := by
    rw [hcut]
    intro h
    exact lf_notMem_encoding value (List.mem_of_mem_take (List.mem_of_getLast? h))
  cases hread : readJsonExact ((fileBytes value).take k) keys with
  | error e => exact ⟨e, rfl⟩
  | ok v =>
    unfold readJsonExact at hread
    obtain ⟨-, hread⟩ := require_bind_eq_ok.mp hread
    exact absurd (require_bind_eq_ok.mp hread).1 hlast

/-- The content of the file of a record. -/
def JournalRecord.bytes (r : JournalRecord) : List UInt8 := fileBytes r.asDict

/-- The record in the content of a file. -/
def readRecord (raw : List UInt8) : Except CogniError JournalRecord := do
  let value ← readJsonExact raw recordKeys
  validateRecord value

theorem wellFormed_optionalText (x : Option String) : (optionalText x).WellFormed := by
  cases x <;> trivial

theorem wellFormed_asDict (r : JournalRecord) : r.asDict.WellFormed := by
  refine ⟨?_, ?_⟩
  · rw [Json.keySorted_iff]
    show recordKeys.Pairwise (· < ·)
    decide +kernel
  · exact ⟨trivial, trivial, trivial, trivial, wellFormed_optionalText _, trivial,
      wellFormed_optionalText _, wellFormed_optionalText _, trivial, trivial, trivial, trivial,
      trivial, trivial, trivial⟩

/-- **A valid record is read back from its bytes.** -/
theorem readRecord_bytes {r : JournalRecord} (hvalid : r.Valid)
    (hlen : r.bytes.length ≤ maxRecordBytes) : readRecord r.bytes = .ok r :=
  bind_eq_ok.mpr ⟨r.asDict, readJsonExact_fileBytes (wellFormed_asDict r) rfl rfl hlen, hvalid⟩

/-! ## Sizes -/

theorem length_dumps_str {s : String} (h : Json.isPlain s = true) :
    ((Json.str s).dumps 0).length = s.toList.length + 2 :=
  Json.length_quote h

theorem length_dumps_number {n : ℤ} (h : 0 ≤ n ∧ n ≤ maxNumber) :
    ((Json.int n).dumps 0).length ≤ 19 :=
  Json.length_intText (by decide) h.1 (h.2.trans_lt (by decide))

/-- The plain texts of an optional text, and the size of it. -/
theorem length_dumps_optionalText {x : Option String} {n : ℕ}
    (h : ∀ s ∈ x, Json.isPlain s = true ∧ s.toList.length ≤ n) :
    ((optionalText x).dumps 0).length ≤ n + 4 := by
  cases x with
  | none =>
    show 4 ≤ n + 4
    omega
  | some s =>
    obtain ⟨hplain, hlen⟩ := h s rfl
    show ((Json.str s).dumps 0).length ≤ n + 4
    rw [length_dumps_str hplain]
    omega

theorem plainTexts_optionalText {x : Option String} (h : ∀ s ∈ x, Json.isPlain s = true) :
    (optionalText x).PlainTexts := by
  cases x with
  | none => exact fun _ hs => absurd hs List.not_mem_nil
  | some s => exact Json.plainTexts_str (h s rfl)

theorem isPlain_text (state : JournalState) :
    Json.isPlain state.text = true ∧ state.text.toList.length ≤ 23 := by
  cases state <;> decide

theorem length_quote_keys : ∀ key ∈ recordKeys, (Json.quote key.toList).length ≤ 21 := by decide

/-- What the texts of a valid record are. -/
structure PlainRecord (r : JournalRecord) : Prop where
  hash : Json.isPlain r.dispatchEventHash = true ∧ r.dispatchEventHash.toList.length = 64
  taskId : Json.isPlain r.taskId = true ∧ r.taskId.toList.length ≤ 80
  actor : Json.isPlain r.actor = true ∧ r.actor.toList.length ≤ 50
  runId : Json.isPlain r.runId = true ∧ r.runId.toList.length = 32
  failureCode : ∀ s ∈ r.failureCode, Json.isPlain s = true ∧ s.toList.length ≤ 64
  previousState : ∀ s ∈ r.previousState.map text, Json.isPlain s = true ∧ s.toList.length ≤ 23
  state : Json.isPlain r.state.text = true ∧ r.state.text.toList.length ≤ 23

theorem RecordRules.plain {r : JournalRecord} (h : RecordRules r) : PlainRecord r where
  hash := isPlain_of_isHex h.hash
  taskId := isPlain_of_isTaskId h.taskId
  actor := by
    obtain ⟨hplain, hlen, -⟩ := isPlain_of_lowercase (n := 49) h.actor
    exact ⟨hplain, hlen⟩
  runId := isPlain_of_isHex h.runId
  failureCode := by
    intro code hmem
    obtain ⟨hplain, hlen, -⟩ := isPlain_of_lowercase (n := 63) (h.failureCode code hmem)
    exact ⟨hplain, hlen⟩
  previousState := by
    intro s hs
    obtain ⟨state, -, rfl⟩ := Option.mem_map.mp hs
    exact isPlain_text state
  state := isPlain_text r.state

theorem PlainRecord.plainTexts {r : JournalRecord} (h : PlainRecord r)
    (hreason : r.quarantineReason = none) : r.asDict.PlainTexts := by
  refine Json.plainTexts_obj ?_
  have hfailure := plainTexts_optionalText fun s hs => (h.failureCode s hs).1
  have hprevious := plainTexts_optionalText fun s hs => (h.previousState s hs).1
  have hnone : (optionalText r.quarantineReason).PlainTexts := by
    rw [hreason]
    exact plainTexts_optionalText fun s hs => absurd hs (by simp)
  have hjournal : (Json.str journalId).PlainTexts := Json.plainTexts_str (by decide)
  simp only [List.forall_mem_cons, List.not_mem_nil, false_implies, implies_true, and_true]
  exact ⟨⟨by decide, Json.plainTexts_str h.actor.1⟩, ⟨by decide, Json.plainTexts_int _⟩,
    ⟨by decide, Json.plainTexts_int _⟩, ⟨by decide, Json.plainTexts_str h.hash.1⟩,
    ⟨by decide, hfailure⟩, ⟨by decide, hjournal⟩, ⟨by decide, hprevious⟩, ⟨by decide, hnone⟩,
    ⟨by decide, Json.plainTexts_int _⟩, ⟨by decide, Json.plainTexts_str h.runId.1⟩,
    ⟨by decide, Json.plainTexts_int _⟩, ⟨by decide, Json.plainTexts_str h.state.1⟩,
    ⟨by decide, Json.plainTexts_str h.taskId.1⟩, ⟨by decide, Json.plainTexts_int _⟩⟩

/-- A valid record without a quarantine reason fits into its file. -/
theorem length_bytes_le {r : JournalRecord} (h : RecordRules r)
    (hreason : r.quarantineReason = none) : r.bytes.length ≤ maxRecordBytes := by
  have hp := h.plain
  have hattempt : ((Json.int r.attempt).dumps 0).length ≤ 19 :=
    length_dumps_number ⟨by have := h.attempt.1; omega, h.attempt.2.trans (by decide)⟩
  have hrevision := length_dumps_number h.revision
  have hcreated := length_dumps_number h.createdAtNs
  have hupdated := length_dumps_number h.updatedAtNs
  have hcode := length_dumps_optionalText hp.failureCode
  have hprevious := length_dumps_optionalText hp.previousState
  have hnone : ((optionalText r.quarantineReason).dumps 0).length = 4 := by rw [hreason]; rfl
  have hjournal : ((Json.str journalId).dumps 0).length ≤ 40 := by decide
  have hversion : ((Json.int schemaVersion).dumps 0).length = 1 := by decide
  have hkeys := length_quote_keys
  simp only [recordKeys, List.forall_mem_cons] at hkeys
  have hend : (Json.dumpsFields 0 []).length = 1 := rfl
  have hmax : maxRecordBytes = 4096 := rfl
  unfold JournalRecord.bytes fileBytes
  rw [List.length_append, Json.length_encoding (hp.plainTexts hreason)]
  unfold JournalRecord.asDict
  rw [Json.length_dumps_obj]
  simp only [Json.length_dumpsFields_cons, length_dumps_str hp.hash.1,
    length_dumps_str hp.taskId.1, length_dumps_str hp.actor.1, length_dumps_str hp.runId.1,
    length_dumps_str hp.state.1, hversion, hnone, hend, List.length_singleton]
  have := hp.hash.2
  have := hp.taskId.2
  have := hp.actor.2
  have := hp.runId.2
  have := hp.state.2
  omega

end VerifierJournal
