/-
# The verifier journal

The operations of `VerifierJournal` as programs over the directory of the journal: a record
file and a claim marker for each dispatch hash.

* `claimDispatch`, `transition`, `recover` and `recoverAll` follow the source;
* `JournalRun` is a history of calls, each of which may be cut between its writes;
* `Sound` collects what holds of the records of one dispatch over a whole history, and
  `sound_of_run` shows it.
-/
import CogniOS.FileStore
import CogniOS.JournalRecord
import CogniOS.EventLog

namespace VerifierJournal

open FileStore JournalState

/-! ## Files -/

/-- `_record_name`. -/
def recordName (dispatchEventHash : String) : String := dispatchEventHash ++ ".json"

/-- `_claim_name`. -/
def claimName (dispatchEventHash : String) : String := dispatchEventHash ++ ".claim"

/-- The dispatch hash of the name of a record file: 64 hexadecimal digits and `.json`. -/
def hashOfName (name : String) : Option String :=
  let stem := String.ofList (name.toList.take (name.toList.length - 5))
  if name.toList.drop (name.toList.length - 5) = ".json".toList ∧ Hex.isHex 64 stem = true then
    some stem
  else none

/-- Readings of the clock and fresh temporary names. -/
structure Env where
  clockNs : ℕ → ℤ
  uuid : ℕ → Token

/-- The temporary name of `_replace`. -/
def temporaryName (name : String) (uuid : Token) : String :=
  "." ++ name ++ "." ++ uuid.text ++ ".tmp"

/-- `_now_ns` of a reading. -/
def nowNs (reading : ℤ) : Except CogniError ℤ := do
  require (0 ≤ reading ∧ reading ≤ maxNumber) (error "Journal clock is outside its fixed range")
  .ok reading

/-- `load` on a directory; `none` is a missing file. -/
def load (d : Directory) (dispatchEventHash : String) :
    Except CogniError (Option JournalRecord) := do
  let hash ← validateDispatchHash (.str dispatchEventHash)
  match d.lookup (recordName hash) with
  | none => .ok none
  | some raw => do
      let record ← readRecord raw
      require (record.dispatchEventHash = hash)
        (error "Journal filename and dispatch hash disagree")
      .ok (some record)

/-- `load` where a missing file is an exception. -/
def loadExisting (d : Directory) (dispatchEventHash : String) :
    Except CogniError JournalRecord := do
  let record ← load d dispatchEventHash
  orRaise record ⟨.os, "FileNotFoundError"⟩

/-- `_bounded_directory_names`. -/
def boundedDirectoryNames (d : Directory) : Except CogniError (List String) := do
  require (d.keys.length ≤ maxDirectoryEntriesScanned)
    (error "Journal directory scan exceeds its fixed limit")
  .ok d.keys

/-- `_ensure_capacity_for_new_record`. -/
def ensureCapacityForNewRecord (d : Directory) : Except CogniError Unit := do
  let names ← boundedDirectoryNames d
  require ((names.filterMap hashOfName).length < maxRecords)
    (error "Journal record count reached its limit")

/-- `list_records`. -/
def listRecords (d : Directory) : Except CogniError (List JournalRecord) := do
  let names ← boundedDirectoryNames d
  let hashes := (names.filterMap hashOfName).mergeSort (· ≤ ·)
  require (hashes.length ≤ maxRecords) (error "Journal record count exceeds its limit")
  hashes.mapM (loadExisting d)

/-! ## Transitions -/

/-- `_next_record`. -/
def nextRecord (current : JournalRecord) (newState : JournalState)
    (failureCode quarantineReason : Option String) (reading : ℤ) :
    Except CogniError JournalRecord := do
  let now ← nowNs reading
  validateRecord (JournalRecord.asDict
    { current with
      state := newState
      previousState := some current.state
      revision := current.revision + 1
      updatedAtNs := max current.updatedAtNs now
      failureCode := if failureCode = none then current.failureCode else failureCode
      quarantineReason })

/-- `_replace_record`. -/
def replaceRecord (uuid : Token) (record : JournalRecord) : Action CogniError Unit := do
  let content ← canonicalJsonBytes record.asDict
  Action.write (.replace (temporaryName (recordName record.dispatchEventHash) uuid)
    (recordName record.dispatchEventHash) content)

/-- `transition`. -/
def transition (env : Env) (dispatchEventHash : String) (newState : JournalState)
    (expectedRevision : Option ℤ) (failureCode quarantineReason : Option String) :
    Action CogniError JournalRecord := do
  let hash ← validateDispatchHash (.str dispatchEventHash)
  require (newState ∉ [crashAborted, failedCleanupRequired])
    (error (newState.text ++ " may only be written by recover()"))
  let d ← Action.directory
  let current ← loadExisting d hash
  require (∀ expected ∈ expectedRevision, current.revision = expected)
    (error "Journal revision changed concurrently")
  require (newState ∈ allowedTransitions current.state)
    (error ("Illegal verifier journal transition: " ++ current.state.text ++ " -> " ++
      newState.text))
  let updated ← nextRecord current newState failureCode quarantineReason (env.clockNs 0)
  replaceRecord (env.uuid 0) updated
  pure updated

/-- `mark_failed`. -/
def markFailed (env : Env) (dispatchEventHash failureCode : String) :
    Action CogniError JournalRecord :=
  transition env dispatchEventHash failed none (some failureCode) none

/-- `quarantine`. -/
def quarantine (env : Env) (dispatchEventHash failureCode reason : String) :
    Action CogniError JournalRecord :=
  transition env dispatchEventHash quarantined none (some failureCode) (some reason)

/-- What `recover` makes of a state, with the failure code; other states stay. -/
def recoveryOf : JournalState → Option (JournalState × String)
  | executing => some (crashAborted, "verifier_crash_during_execution")
  | snapshotAcquired => some (failedCleanupRequired, "verifier_restart_after_snapshot")
  | _ => none

/-- `recover`. -/
def recover (env : Env) (dispatchEventHash : String) : Action CogniError JournalRecord := do
  let hash ← validateDispatchHash (.str dispatchEventHash)
  let d ← Action.directory
  let current ← loadExisting d hash
  match recoveryOf current.state with
  | none => pure current
  | some (recoveryState, failureCode) => do
      let aborted ← nextRecord current recoveryState (some failureCode) none (env.clockNs 0)
      replaceRecord (env.uuid 0) aborted
      pure aborted

/-- The environment from a later reading on. -/
def Env.drop (env : Env) (n : ℕ) : Env := ⟨fun k => env.clockNs (k + n), fun k => env.uuid (k + n)⟩

/-- The loop of `recover_all`. -/
def recoverEach (env : Env) : List JournalRecord → Action CogniError (List JournalRecord)
  | [] => pure []
  | record :: rest => do
      let first ← recover env record.dispatchEventHash
      let others ← recoverEach (env.drop 1) rest
      pure (first :: others)

/-- `recover_all`. -/
def recoverAll (env : Env) : Action CogniError (List JournalRecord) := do
  let d ← Action.directory
  let records ← listRecords d
  recoverEach env records

/-! ## Claims -/

/-- The identity of a dispatch. -/
structure Identity where
  dispatchEventHash : String
  taskId : String
  attempt : ℤ
  actor : String
  runId : String
  deriving DecidableEq

/-- The identity of a record. -/
def JournalRecord.identity (r : JournalRecord) : Identity :=
  ⟨r.dispatchEventHash, r.taskId, r.attempt, r.actor, r.runId⟩

/-- The first record of a dispatch. -/
def requestedRecord (i : Identity) (now : ℤ) : JournalRecord where
  dispatchEventHash := i.dispatchEventHash
  taskId := i.taskId
  attempt := i.attempt
  actor := i.actor
  runId := i.runId
  state := requested
  previousState := none
  revision := 0
  createdAtNs := now
  updatedAtNs := now
  failureCode := none
  quarantineReason := none

/-- `_validated_identity`. -/
def validatedIdentity (i : Identity) : Except CogniError Identity := do
  let record ← validateRecord (requestedRecord i 0).asDict
  .ok record.identity

/-- The claim marker. -/
def markerDict (i : Identity) (claimedAtNs : ℤ) : Json :=
  .obj [("actor", .str i.actor), ("attempt", .int i.attempt), ("claimed_at_ns", .int claimedAtNs),
    ("dispatch_event_hash", .str i.dispatchEventHash), ("journal_id", .str journalId),
    ("run_id", .str i.runId), ("schema_version", .int schemaVersion), ("task_id", .str i.taskId)]

/-- `_CLAIM_KEYS` in key order. -/
def claimKeys : List String :=
  ["actor", "attempt", "claimed_at_ns", "dispatch_event_hash", "journal_id", "run_id",
    "schema_version", "task_id"]

/-- `_validate_claim_marker`. -/
def validateClaimMarker (marker : Json) (i : Identity) : Except CogniError Unit := do
  require ((marker.get "schema_version").equalsInt schemaVersion = true)
    (error "Unsupported claim marker schema version")
  require (marker.get "journal_id" = .str journalId)
    (error "Unexpected claim marker identifier")
  require ((marker.get "claimed_at_ns").asInt?.any (fun n : ℤ => 0 ≤ n ∧ n ≤ maxNumber) = true)
    (error "Invalid claim marker timestamp")
  let hash ← validateDispatchHash (marker.get "dispatch_event_hash")
  let taskId ← validateIdentifier (marker.get "task_id") "task_id" 80 isTaskId
  let actor ← validateIdentifier (marker.get "actor") "actor" 50 isAgentId
  let runId ← validateIdentifier (marker.get "run_id") "run_id" 32 (Hex.isHex 32)
  let attempt ← orRaise (marker.get "attempt").asInt? (error "Invalid claim marker attempt")
  require (1 ≤ attempt ∧ attempt ≤ maxAttempt) (error "Invalid claim marker attempt")
  require (Identity.mk hash taskId attempt actor runId = i)
    (error "Claim marker identity does not match dispatch")

/-- The claim marker in a directory. -/
def readMarker (d : Directory) (dispatchEventHash : String) : Except CogniError (Option Json) :=
  match d.lookup (claimName dispatchEventHash) with
  | none => .ok none
  | some raw => (readJsonExact raw claimKeys).map some

/-- `VerifierJournalClaim`. -/
structure JournalClaim where
  record : JournalRecord
  newDispatch : Bool
  claimAcquired : Bool

/-- The first part of `claim_dispatch`: the record that is there or a new one.  No other process
writes, so the creation after a failed `load` does not find a file. -/
def ensureRecord (env : Env) (i : Identity) : Action CogniError (JournalRecord × Bool) := do
  let d ← Action.directory
  let existing ← load d i.dispatchEventHash
  match existing with
  | some record => pure (record, false)
  | none => do
      ensureCapacityForNewRecord d
      let now ← nowNs (env.clockNs 0)
      let content ← canonicalJsonBytes (requestedRecord i now).asDict
      Action.write (.create (recordName i.dispatchEventHash) content)
      pure (requestedRecord i now, true)

/-- The second part: the claim marker, created or found. -/
def ensureMarker (env : Env) (i : Identity) : Action CogniError Bool := do
  let now ← nowNs (env.clockNs 1)
  let content ← canonicalJsonBytes (markerDict i now)
  let d ← Action.directory
  let stored ← readMarker d i.dispatchEventHash
  match stored with
  | some marker => do
      validateClaimMarker marker i
      pure false
  | none => do
      Action.write (.create (claimName i.dispatchEventHash) content)
      pure true

/-- The third part: the transition out of `REQUESTED`, which a crash may have left. -/
def completeClaim (env : Env) (i : Identity) : Action CogniError JournalRecord := do
  let d ← Action.directory
  let record ← loadExisting d i.dispatchEventHash
  if record.state = requested then
    transition (env.drop 2) i.dispatchEventHash claimed (some record.revision) none none
  else pure record

/-- `claim_dispatch`. -/
def claimDispatch (env : Env) (i : Identity) : Action CogniError JournalClaim := do
  let identity ← validatedIdentity i
  let (record, newDispatch) ← ensureRecord env i
  require (record.identity = identity)
    (error "Duplicate dispatch hash has different bounded identifiers")
  let claimAcquired ← ensureMarker env i
  let record ← completeClaim env i
  pure { record, newDispatch, claimAcquired }

/-! ## One update -/

/-- A transition of the table, or the step of `recover`. -/
def Moves (s s' : JournalState) : Prop :=
  s' ∈ allowedTransitions s ∨ (recoveryOf s).map Prod.fst = some s'

instance (s s' : JournalState) : Decidable (Moves s s') := by
  unfold Moves; infer_instance

/-- One version of a record follows from the one before it. -/
structure Updates (r r' : JournalRecord) : Prop where
  moves : Moves r.state r'.state
  identity : r'.identity = r.identity
  revision : r'.revision = r.revision + 1
  failure : r.failureCode ≠ none → r'.failureCode ≠ none
  rules : RecordRules r'

/-- The state is not before the execution. -/
def isExecuted (s : JournalState) : Bool :=
  s ∉ [requested, claimed, sourceVerified, snapshotAcquired]

theorem isExecuted_of_moves : ∀ s s', Moves s s' → isExecuted s = true →
    isExecuted s' = true ∧ s' ≠ executing := by
  decide

/-- The state is one of those that a record with a snapshot can have. -/
def hasSnapshot (s : JournalState) : Bool := s ∉ [requested, claimed, sourceVerified, failed]

theorem hasSnapshot_of_moves : ∀ s s', Moves s s' → hasSnapshot s = true →
    hasSnapshot s' = true := by
  decide

theorem not_isTerminal_of_moves : ∀ s s', Moves s s' → s.isTerminal = false := by decide

/-- The state is one that only `recover` writes. -/
def isRecovery (s : JournalState) : Bool := s ∈ [crashAborted, failedCleanupRequired]

theorem isExecuted_of_isRecovery : ∀ s, isRecovery s = true → isExecuted s = true := by decide

/-- One version comes later than another. -/
abbrev Later : JournalRecord → JournalRecord → Prop := Relation.TransGen Updates

theorem Later.isExecuted {r r' : JournalRecord} (h : Later r r')
    (hr : isExecuted r.state = true) : isExecuted r'.state = true ∧ r'.state ≠ executing := by
  induction h with
  | single hu => exact isExecuted_of_moves _ _ hu.moves hr
  | tail _ hu ih => exact isExecuted_of_moves _ _ hu.moves ih.1

theorem Later.hasSnapshot {r r' : JournalRecord} (h : Later r r')
    (hr : hasSnapshot r.state = true) : hasSnapshot r'.state = true := by
  induction h with
  | single hu => exact hasSnapshot_of_moves _ _ hu.moves hr
  | tail _ hu ih => exact hasSnapshot_of_moves _ _ hu.moves ih

theorem Later.failureCode {r r' : JournalRecord} (h : Later r r') (hr : r.failureCode ≠ none) :
    r'.failureCode ≠ none := by
  induction h with
  | single hu => exact hu.failure hr
  | tail _ hu ih => exact hu.failure ih

theorem Later.not_isTerminal {r r' : JournalRecord} (h : Later r r') :
    r.state.isTerminal = false := by
  induction h with
  | single hu => exact not_isTerminal_of_moves _ _ hu.moves
  | tail _ _ ih => exact ih

theorem failureCode_of_isRecovery {r : JournalRecord} (hrules : RecordRules r)
    (hr : isRecovery r.state = true) : r.failureCode ≠ none := by
  have hfailure := hrules.failure
  unfold checkFailure at hfailure
  obtain ⟨hrequired, -⟩ := require_bind_eq_ok.mp hfailure
  intro hnone
  refine hrequired ⟨?_, hnone⟩
  unfold isRecovery at hr
  simp only [decide_eq_true_eq, List.mem_cons] at hr ⊢
  exact .inr hr

/-! ## Names and loading -/

theorem recordName_injective : Function.Injective recordName := by
  intro h h' heq
  have hlist := congrArg String.toList heq
  rw [recordName, recordName, String.toList_append, String.toList_append] at hlist
  exact String.toList_injective (List.append_cancel_right hlist)

theorem claimName_injective : Function.Injective claimName := by
  intro h h' heq
  have hlist := congrArg String.toList heq
  rw [claimName, claimName, String.toList_append, String.toList_append] at hlist
  exact String.toList_injective (List.append_cancel_right hlist)

theorem recordName_ne_claimName (h h' : String) : recordName h ≠ claimName h' := by
  intro heq
  have hlast := congrArg (fun s => s.toList.getLast?) heq
  simp only [recordName, claimName, String.toList_append] at hlast
  rw [List.getLast?_append_of_ne_nil _ (by decide),
    List.getLast?_append_of_ne_nil _ (by decide)] at hlast
  exact absurd hlast (by decide)

theorem wellFormed_markerDict (i : Identity) (now : ℤ) : (markerDict i now).WellFormed := by
  refine ⟨?_, ?_⟩
  · rw [Json.keySorted_iff]
    show claimKeys.Pairwise (· < ·)
    decide +kernel
  · exact ⟨trivial, trivial, trivial, trivial, trivial, trivial, trivial, trivial, trivial⟩

theorem valid_of_validateRecord {u r : JournalRecord} (hok : validateRecord u.asDict = .ok r) :
    u.Valid := by
  have heq := eq_of_validateRecord_asDict hok
  rw [heq] at hok
  exact hok

theorem loadExisting_eq_ok {d : Directory} {h : String} {r : JournalRecord} :
    loadExisting d h = .ok r ↔ load d h = .ok (some r) := by
  unfold loadExisting
  constructor
  · intro hok
    obtain ⟨record, hload, hsome⟩ := bind_eq_ok.mp hok
    rw [hload, orRaise_eq_ok.mp hsome]
  · intro hload
    exact bind_eq_ok.mpr ⟨some r, hload, rfl⟩

theorem load_eq_ok_some {d : Directory} {h : String} {r : JournalRecord}
    (hload : load d h = .ok (some r)) :
    r.dispatchEventHash = h ∧ ∃ raw, d.lookup (recordName h) = some raw ∧
      readRecord raw = .ok r := by
  unfold load at hload
  obtain ⟨hash, hhash, hload⟩ := bind_eq_ok.mp hload
  obtain ⟨hstr, -⟩ := validateDispatchHash_eq_ok.mp hhash
  obtain rfl : h = hash := Json.str.inj hstr
  split at hload
  · cases hload
  · rename_i raw hraw
    obtain ⟨record, hread, hload⟩ := bind_eq_ok.mp hload
    obtain ⟨hsame, hload⟩ := require_bind_eq_ok.mp hload
    cases hload
    exact ⟨hsame, raw, hraw, hread⟩

theorem rules_of_valid {r : JournalRecord} (hvalid : r.Valid) : RecordRules r :=
  (validateRecord_eq_ok hvalid).1

theorem load_of_lookup {d d' : Directory} {h : String}
    (hsame : d'.lookup (recordName h) = d.lookup (recordName h)) : load d' h = load d h := by
  unfold load
  cases hhash : validateDispatchHash (.str h) with
  | error e => rfl
  | ok hash =>
    obtain rfl : h = hash := Json.str.inj (validateDispatchHash_eq_ok.mp hhash).1
    show (match d'.lookup (recordName h) with
      | none => _
      | some raw => _) = _
    rw [hsame]
    rfl

theorem load_apply_of_ne {d : Directory} {w : Write} {h : String} (hne : recordName h ≠ w.name) :
    load (w.apply d) h = load d h :=
  load_of_lookup (by rw [Write.lookup_apply, if_neg hne])

theorem load_apply_record {d : Directory} {w : Write} {r : JournalRecord}
    (hname : w.name = recordName r.dispatchEventHash) (hcontent : w.content = r.bytes)
    (hvalid : r.Valid) (hlen : r.bytes.length ≤ maxRecordBytes) :
    load (w.apply d) r.dispatchEventHash = .ok (some r) := by
  have hhex := (rules_of_valid hvalid).hash
  unfold load
  refine bind_eq_ok.mpr ⟨_, validateDispatchHash_eq_ok.mpr ⟨rfl, hhex⟩, ?_⟩
  rw [Write.lookup_apply, if_pos hname.symm, hcontent]
  exact bind_eq_ok.mpr ⟨r, readRecord_bytes hvalid hlen, require_bind_eq_ok.mpr ⟨rfl, rfl⟩⟩

/-! ## The writes of the operations -/

/-- How many records there are. -/
def recordCount (d : Directory) : ℕ := (d.keys.filterMap hashOfName).length

/-- The writes that the operations make. -/
inductive GoodWrite (d : Directory) : Write → Prop
  /-- The first version of a record. -/
  | first (r : JournalRecord) (hstate : r.state = requested) (hrevision : r.revision = 0)
      (hvalid : r.Valid) (hlen : r.bytes.length ≤ maxRecordBytes)
      (hnone : load d r.dispatchEventHash = .ok none) (hcount : recordCount d < maxRecords) :
      GoodWrite d (.create (recordName r.dispatchEventHash) r.bytes)
  /-- The next version of a record. -/
  | update (r r' : JournalRecord) (uuid : Token) (hupdates : Updates r r')
      (hvalid : r'.Valid) (hlen : r'.bytes.length ≤ maxRecordBytes)
      (hload : load d r.dispatchEventHash = .ok (some r)) :
      GoodWrite d (.replace (temporaryName (recordName r'.dispatchEventHash) uuid)
        (recordName r'.dispatchEventHash) r'.bytes)
  /-- The claim marker of a record. -/
  | marker (r : JournalRecord) (now : ℤ) (hnow : 0 ≤ now ∧ now ≤ maxNumber)
      (hlen : (fileBytes (markerDict r.identity now)).length ≤ maxRecordBytes)
      (hload : load d r.dispatchEventHash = .ok (some r))
      (hnone : d.lookup (claimName r.dispatchEventHash) = none) :
      GoodWrite d (.create (claimName r.dispatchEventHash)
        (fileBytes (markerDict r.identity now)))

/-- The programs of the journal make only such writes. -/
abbrev Journals {α : Type} (P : Directory → Prop) (x : Action CogniError α)
    (Q : α → Directory → Prop) : Prop :=
  Triple GoodWrite P x Q

theorem nextRecord_eq_ok {current updated : JournalRecord} {newState : JournalState}
    {failureCode quarantineReason : Option String} {reading : ℤ}
    (hok : nextRecord current newState failureCode quarantineReason reading = .ok updated) :
    updated.Valid ∧ updated.state = newState ∧ updated.identity = current.identity ∧
      updated.revision = current.revision + 1 ∧
      (current.failureCode ≠ none → updated.failureCode ≠ none) := by
  unfold nextRecord at hok
  obtain ⟨now, -, hok⟩ := bind_eq_ok.mp hok
  have hvalid := valid_of_validateRecord hok
  obtain rfl := eq_of_validateRecord_asDict hok
  refine ⟨hvalid, rfl, rfl, rfl, fun hcurrent => ?_⟩
  show (if failureCode = none then current.failureCode else failureCode) ≠ none
  split
  · exact hcurrent
  · assumption

/-- The next version of a record, written over the current one. -/
theorem triple_replaceRecord {G : Directory → Write → Prop} {current updated : JournalRecord}
    {uuid : Token} {h : String} {Q : Unit → Directory → Prop}
    (hwrite : ∀ d, load d h = .ok (some current) → updated.bytes.length ≤ maxRecordBytes →
      G d (.replace (temporaryName (recordName updated.dispatchEventHash) uuid)
        (recordName updated.dispatchEventHash) updated.bytes) ∧
      Q () (Write.apply (.replace (temporaryName (recordName updated.dispatchEventHash) uuid)
        (recordName updated.dispatchEventHash) updated.bytes) d)) :
    Triple G (fun d => load d h = .ok (some current)) (replaceRecord uuid updated) Q := by
  unfold replaceRecord
  refine Triple.bind (Q := fun content d => load d h = .ok (some current) ∧
    updated.bytes.length ≤ maxRecordBytes ∧ content = updated.bytes)
    (Triple.lift fun d content hd hcontent => ⟨hd, canonicalJsonBytes_eq_ok.mp hcontent⟩)
    fun content => Triple.write fun d hd => ?_
  obtain ⟨hload, hlen, rfl⟩ := hd
  exact hwrite d hload hlen

theorem journals_transition (env : Env) (h : String) (newState : JournalState)
    (expectedRevision : Option ℤ) (failureCode quarantineReason : Option String) :
    Journals (fun _ => True)
      (transition env h newState expectedRevision failureCode quarantineReason)
      fun _ _ => True := by
  unfold transition
  refine Triple.bind (Q := fun _ _ => True) (Triple.lift fun _ _ _ _ => trivial) fun hash => ?_
  refine Triple.bind (Q := fun _ _ => True) (Triple.lift fun _ _ _ _ => trivial) fun _ => ?_
  refine Triple.bind (Q := fun d' d => d' = d) (Triple.directory fun d _ => rfl) fun d' => ?_
  refine Triple.bind (Q := fun current d => load d hash = .ok (some current))
    (Triple.lift fun d current hd hok => ?_) fun current => ?_
  · rw [← hd]
    exact loadExisting_eq_ok.mp hok
  refine Triple.bind (Q := fun _ d => load d hash = .ok (some current))
    (Triple.lift fun _ _ hd _ => hd) fun _ => ?_
  refine Triple.bind (Q := fun _ d => load d hash = .ok (some current) ∧
    newState ∈ allowedTransitions current.state)
    (Triple.lift fun _ _ hd hok => ⟨hd, require_eq_ok.mp hok⟩) fun _ => ?_
  refine Triple.bind (Q := fun updated d => load d hash = .ok (some current) ∧
    updated.Valid ∧ Updates current updated) (Triple.lift fun d updated hd hok => ?_)
    fun updated => ?_
  · obtain ⟨hvalid, hstate, hidentity, hrevision, hfailure⟩ := nextRecord_eq_ok hok
    exact ⟨hd.1, hvalid, ⟨.inl (hstate ▸ hd.2), hidentity, hrevision, hfailure,
      rules_of_valid hvalid⟩⟩
  · intro d hd
    refine Triple.bind (Q := fun _ _ => True) (R := fun _ _ => True)
      (triple_replaceRecord fun d hload hlen => ⟨?_, trivial⟩)
      (fun _ => Triple.pure fun _ _ => trivial) d hd.1
    obtain ⟨rfl, -⟩ := load_eq_ok_some hload
    exact .update current updated _ hd.2.2 hd.2.1 hlen hload

/-- The writes of `recover`. -/
inductive RecoveryWrite (d : Directory) : Write → Prop
  | recover (r r' : JournalRecord) (uuid : Token) (hrecovery : recoveryOf r.state ≠ none)
      (hupdates : Updates r r') (hvalid : r'.Valid) (hlen : r'.bytes.length ≤ maxRecordBytes)
      (hload : load d r.dispatchEventHash = .ok (some r)) :
      RecoveryWrite d (.replace (temporaryName (recordName r'.dispatchEventHash) uuid)
        (recordName r'.dispatchEventHash) r'.bytes)

theorem RecoveryWrite.good {d : Directory} {w : Write} (h : RecoveryWrite d w) :
    GoodWrite d w := by
  cases h with
  | recover r r' uuid hrecovery hupdates hvalid hlen hload =>
    exact .update r r' uuid hupdates hvalid hlen hload

theorem recovers_recover (env : Env) (h : String) :
    Triple RecoveryWrite (fun _ => True) (recover env h) fun _ _ => True := by
  unfold recover
  refine Triple.bind (Q := fun _ _ => True) (Triple.lift fun _ _ _ _ => trivial) fun hash => ?_
  refine Triple.bind (Q := fun d' d => d' = d) (Triple.directory fun d _ => rfl) fun d' => ?_
  refine Triple.bind (Q := fun current d => load d hash = .ok (some current))
    (Triple.lift fun d current hd hok => ?_) fun current => ?_
  · rw [← hd]
    exact loadExisting_eq_ok.mp hok
  cases hrecovery : recoveryOf current.state with
  | none => exact Triple.pure fun _ _ => trivial
  | some p =>
    obtain ⟨recoveryState, failureCode⟩ := p
    refine Triple.bind (Q := fun aborted d => load d hash = .ok (some current) ∧
      aborted.Valid ∧ Updates current aborted) (Triple.lift fun d aborted hd hok => ?_)
      fun aborted => ?_
    · obtain ⟨hvalid, hstate, hidentity, hrevision, hfailure⟩ := nextRecord_eq_ok hok
      refine ⟨hd, hvalid, ⟨.inr ?_, hidentity, hrevision, hfailure, rules_of_valid hvalid⟩⟩
      rw [hrecovery, hstate]
      rfl
    · intro d hd
      refine Triple.bind (Q := fun _ _ => True) (R := fun _ _ => True)
        (triple_replaceRecord fun d hload hlen => ⟨?_, trivial⟩)
        (fun _ => Triple.pure fun _ _ => trivial) d hd.1
      obtain ⟨rfl, -⟩ := load_eq_ok_some hload
      exact .recover current aborted _ (by rw [hrecovery]; exact Option.some_ne_none _) hd.2.2
        hd.2.1 hlen hload

theorem recovers_recoverEach (env : Env) (records : List JournalRecord) :
    Triple RecoveryWrite (fun _ => True) (recoverEach env records) fun _ _ => True := by
  induction records generalizing env with
  | nil => exact Triple.pure fun _ _ => trivial
  | cons record rest ih =>
    unfold recoverEach
    exact Triple.bind (recovers_recover _ _) fun _ => Triple.bind (Q := fun _ _ => True) (ih _)
      fun _ => Triple.pure fun _ _ => trivial

theorem recovers_recoverAll (env : Env) :
    Triple RecoveryWrite (fun _ => True) (recoverAll env) fun _ _ => True := by
  unfold recoverAll
  exact Triple.bind (Triple.directory (Q := fun _ _ => True) fun _ _ => trivial) fun _ =>
    Triple.bind (Triple.lift (Q := fun _ _ => True) fun _ _ _ _ => trivial) fun _ =>
      recovers_recoverEach _ _

/-- A valid identity makes a valid first record at any time. -/
theorem valid_requestedRecord {i : Identity} {now : ℤ} (hvalid : (requestedRecord i 0).Valid)
    (hnow : 0 ≤ now ∧ now ≤ maxNumber) : (requestedRecord i now).Valid := by
  have h := valid_iff_rules.mp hvalid
  refine valid_iff_rules.mpr {
    hash := h.hash
    taskId := h.taskId
    actor := h.actor
    runId := h.runId
    attempt := h.attempt
    revision := h.revision
    createdAtNs := hnow
    updatedAtNs := hnow
    metadata := ?_
    failureCode := h.failureCode
    quarantineReason := h.quarantineReason
    failure := h.failure }
  refine require_bind_eq_ok.mpr ⟨le_refl _, require_bind_eq_ok.mpr ⟨?_, require_eq_ok.mpr ?_⟩⟩
  · exact fun hinitial => hinitial.2 rfl
  · exact fun hlater => absurd hlater.1 (lt_irrefl _)

theorem validatedIdentity_eq_ok {i i' : Identity} (hok : validatedIdentity i = .ok i') :
    i' = i ∧ (requestedRecord i 0).Valid := by
  unfold validatedIdentity at hok
  obtain ⟨record, hrecord, hok⟩ := bind_eq_ok.mp hok
  have hvalid := valid_of_validateRecord hrecord
  obtain rfl := eq_of_validateRecord_asDict hrecord
  cases hok
  exact ⟨rfl, hvalid⟩

theorem nowNs_eq_ok {reading now : ℤ} (hok : nowNs reading = .ok now) :
    now = reading ∧ 0 ≤ now ∧ now ≤ maxNumber := by
  unfold nowNs at hok
  obtain ⟨hrange, hok⟩ := require_bind_eq_ok.mp hok
  cases hok
  exact ⟨rfl, hrange⟩

theorem ensureCapacity_eq_ok {d : Directory} {u : Unit}
    (hok : ensureCapacityForNewRecord d = .ok u) :
    d.keys.length ≤ maxDirectoryEntriesScanned ∧ recordCount d < maxRecords := by
  unfold ensureCapacityForNewRecord boundedDirectoryNames at hok
  obtain ⟨names, hnames, hok⟩ := bind_eq_ok.mp hok
  obtain ⟨hscan, hnames⟩ := require_bind_eq_ok.mp hnames
  cases hnames
  exact ⟨hscan, require_eq_ok.mp hok⟩

/-- The record that `ensureRecord` returns is there. -/
theorem journals_ensureRecord (env : Env) {i : Identity} (hvalid : (requestedRecord i 0).Valid) :
    Journals (fun _ => True) (ensureRecord env i) fun result d =>
      load d i.dispatchEventHash = .ok (some result.1) := by
  unfold ensureRecord
  refine Triple.bind (Q := fun d' d => d' = d) (Triple.directory fun d _ => rfl) fun d' => ?_
  refine Triple.bind (Q := fun existing d => d' = d ∧ load d i.dispatchEventHash = .ok existing)
    (Triple.lift fun d existing hd hok => ⟨hd, hd ▸ hok⟩) fun existing => ?_
  cases existing with
  | some record => exact Triple.pure fun _ hd => hd.2
  | none =>
    refine Triple.bind (Q := fun _ d => load d i.dispatchEventHash = .ok none ∧
      recordCount d < maxRecords) (Triple.lift fun d _ hd hok => ?_) fun _ => ?_
    · obtain ⟨rfl, hnone⟩ := hd
      exact ⟨hnone, (ensureCapacity_eq_ok hok).2⟩
    refine Triple.bind (Q := fun now d => (load d i.dispatchEventHash = .ok none ∧
      recordCount d < maxRecords) ∧ 0 ≤ now ∧ now ≤ maxNumber)
      (Triple.lift fun _ _ hd hok => ⟨hd, (nowNs_eq_ok hok).2⟩) fun now => ?_
    refine Triple.bind (Q := fun content d => ((load d i.dispatchEventHash = .ok none ∧
      recordCount d < maxRecords) ∧ 0 ≤ now ∧ now ≤ maxNumber) ∧
      (requestedRecord i now).bytes.length ≤ maxRecordBytes ∧
      content = (requestedRecord i now).bytes)
      (Triple.lift fun _ _ hd hok => ⟨hd, canonicalJsonBytes_eq_ok.mp hok⟩) fun content => ?_
    refine Triple.bind (Q := fun _ d => load d i.dispatchEventHash =
      .ok (some (requestedRecord i now))) (Triple.write fun d hd => ?_)
      fun _ => Triple.pure fun _ hd => hd
    obtain ⟨⟨⟨hnone, hcount⟩, hnow⟩, hlen, rfl⟩ := hd
    have hrecord := valid_requestedRecord hvalid hnow
    exact ⟨.first (requestedRecord i now) rfl rfl hrecord hlen hnone hcount,
      load_apply_record (r := requestedRecord i now) rfl rfl hrecord hlen⟩

theorem readMarker_eq_ok_none {d : Directory} {h : String} (hok : readMarker d h = .ok none) :
    d.lookup (claimName h) = none := by
  unfold readMarker at hok
  split at hok
  · assumption
  · rename_i raw hraw
    cases hread : readJsonExact raw claimKeys with
    | error e => rw [hread] at hok; cases hok
    | ok v => rw [hread] at hok; cases hok

/-- The marker is acquired only where there was none. -/
theorem journals_ensureMarker (env : Env) {i : Identity} {r : JournalRecord}
    (hidentity : r.identity = i) (d₀ : Directory) :
    Journals (fun d => d = d₀ ∧ load d i.dispatchEventHash = .ok (some r)) (ensureMarker env i)
      fun acquired d => acquired = true →
        d₀.lookup (claimName i.dispatchEventHash) = none ∧
          d.lookup (claimName i.dispatchEventHash) ≠ none := by
  subst hidentity
  unfold ensureMarker
  refine Triple.bind (Q := fun now d =>
    (d = d₀ ∧ load d r.dispatchEventHash = .ok (some r)) ∧ 0 ≤ now ∧ now ≤ maxNumber)
    (Triple.lift fun _ _ hd hok => ⟨hd, (nowNs_eq_ok hok).2⟩) fun now => ?_
  refine Triple.bind (Q := fun content d =>
    ((d = d₀ ∧ load d r.dispatchEventHash = .ok (some r)) ∧ 0 ≤ now ∧ now ≤ maxNumber) ∧
    (fileBytes (markerDict r.identity now)).length ≤ maxRecordBytes ∧
    content = fileBytes (markerDict r.identity now))
    (Triple.lift fun _ _ hd hok => ⟨hd, canonicalJsonBytes_eq_ok.mp hok⟩) fun content => ?_
  refine Triple.bind (Q := fun d' d => d' = d ∧
    ((d = d₀ ∧ load d r.dispatchEventHash = .ok (some r)) ∧ 0 ≤ now ∧ now ≤ maxNumber) ∧
    (fileBytes (markerDict r.identity now)).length ≤ maxRecordBytes ∧
    content = fileBytes (markerDict r.identity now))
    (Triple.directory fun d hd => ⟨rfl, hd⟩) fun d' => ?_
  refine Triple.bind (Q := fun stored d => readMarker d r.dispatchEventHash = .ok stored ∧
    ((d = d₀ ∧ load d r.dispatchEventHash = .ok (some r)) ∧ 0 ≤ now ∧ now ≤ maxNumber) ∧
    (fileBytes (markerDict r.identity now)).length ≤ maxRecordBytes ∧
    content = fileBytes (markerDict r.identity now)) (Triple.lift fun d stored hd hok => ?_)
    fun stored => ?_
  · obtain ⟨rfl, hd⟩ := hd
    exact ⟨hok, hd⟩
  cases stored with
  | some marker =>
    exact Triple.bind (Q := fun _ _ => True) (Triple.lift fun _ _ _ _ => trivial) fun _ =>
      Triple.pure fun _ _ hfalse => absurd hfalse (by decide)
  | none =>
    refine Triple.bind (Q := fun _ d => d₀.lookup (claimName r.dispatchEventHash) = none ∧
      d.lookup (claimName r.dispatchEventHash) ≠ none) (Triple.write fun d hd => ?_)
      fun _ => Triple.pure fun _ hd _ => hd
    obtain ⟨hread, ⟨⟨rfl, hload⟩, hnow⟩, hlen, rfl⟩ := hd
    have hnone := readMarker_eq_ok_none hread
    refine ⟨.marker r now hnow hlen hload hnone, hnone, ?_⟩
    have hname : claimName r.dispatchEventHash =
        (Write.create (claimName r.identity.dispatchEventHash)
          (fileBytes (markerDict r.identity now))).name := rfl
    rw [Write.lookup_apply, if_pos hname]
    exact Option.some_ne_none _

theorem journals_completeClaim (env : Env) (i : Identity) :
    Journals (fun _ => True) (completeClaim env i) fun _ _ => True := by
  unfold completeClaim
  refine Triple.bind (Q := fun _ _ => True) (Triple.directory fun _ _ => trivial) fun d => ?_
  refine Triple.bind (Q := fun _ _ => True) (Triple.lift fun _ _ _ _ => trivial) fun record => ?_
  split
  · exact journals_transition _ _ _ _ _ _
  · exact Triple.pure fun _ _ => trivial

/-- **One claim.**  It makes only writes of the journal, and it is acquired only where there was
no marker, which it leaves. -/
theorem journals_claimDispatch (env : Env) (i : Identity) (d₀ : Directory) :
    Journals (fun d => d = d₀) (claimDispatch env i) fun claim d => claim.claimAcquired = true →
      d₀.lookup (claimName i.dispatchEventHash) = none ∧
        d.lookup (claimName i.dispatchEventHash) ≠ none := by
  unfold claimDispatch
  refine Triple.bind (Q := fun identity d => d = d₀ ∧ identity = i ∧ (requestedRecord i 0).Valid)
    (Triple.lift fun _ _ hd hok => ⟨hd, validatedIdentity_eq_ok hok⟩) fun identity =>
      Triple.assume fun hidentity => ?_
  obtain ⟨rfl, hvalid⟩ := hidentity
  -- The record is written first; no marker goes away.
  refine Triple.bind (Q := fun result d =>
    load d identity.dispatchEventHash = .ok (some result.1) ∧ Grown d₀ d)
    (((journals_ensureRecord env hvalid).keep fun d w hd => hd.apply w).weaken
      (fun d hd => ⟨trivial, hd ▸ Grown.refl d⟩) fun _ _ hd => hd) fun result => ?_
  refine Triple.bind (Q := fun _ d => (load d identity.dispatchEventHash = .ok (some result.1) ∧
    Grown d₀ d) ∧ result.1.identity = identity)
    (Triple.lift fun _ _ hd hok => ⟨hd, require_eq_ok.mp hok⟩) fun _ =>
      Triple.assume fun hsame => ?_
  refine Triple.bind (Q := fun acquired d => acquired = true →
    d₀.lookup (claimName identity.dispatchEventHash) = none ∧
      d.lookup (claimName identity.dispatchEventHash) ≠ none) ?_ fun acquired => ?_
  · intro d hd
    obtain ⟨hsteps, hpost⟩ := journals_ensureMarker env hsame d d ⟨rfl, hd.1⟩
    refine ⟨hsteps, fun acquired hacquired htrue => ?_⟩
    obtain ⟨hnone, hsome⟩ := hpost acquired hacquired htrue
    exact ⟨by_contra fun hd₀ => hd.2 _ hd₀ hnone, hsome⟩
  · refine Triple.bind (Q := fun _ d => True ∧ (acquired = true →
      d₀.lookup (claimName identity.dispatchEventHash) = none ∧
        d.lookup (claimName identity.dispatchEventHash) ≠ none))
      (((journals_completeClaim env identity).keep fun d w hd htrue =>
        ⟨(hd htrue).1, lookup_apply_ne_none w (hd htrue).2⟩).weaken
        (fun _ hd => ⟨trivial, hd⟩) fun _ _ hd => hd) fun record =>
      Triple.pure fun _ hd => hd.2

/-! ## Histories -/

/-- The calls of the journal. -/
inductive Call
  | claimDispatch (i : Identity)
  | transition (dispatchEventHash : String) (newState : JournalState)
      (expectedRevision : Option ℤ) (failureCode quarantineReason : Option String)
  | markFailed (dispatchEventHash failureCode : String)
  | quarantine (dispatchEventHash failureCode reason : String)
  | recover (dispatchEventHash : String)
  | recoverAll

/-- The program of a call; only a claim has a result that is looked at. -/
def Call.perform (env : Env) : Call → Action CogniError (Option JournalClaim)
  | claimDispatch i => do
      let claim ← VerifierJournal.claimDispatch env i
      pure (some claim)
  | transition h newState expectedRevision failureCode quarantineReason => do
      let _ ← VerifierJournal.transition env h newState expectedRevision failureCode
        quarantineReason
      pure none
  | markFailed h failureCode => do
      let _ ← VerifierJournal.markFailed env h failureCode
      pure none
  | quarantine h failureCode reason => do
      let _ ← VerifierJournal.quarantine env h failureCode reason
      pure none
  | recover h => do
      let _ ← VerifierJournal.recover env h
      pure none
  | recoverAll => do
      let _ ← VerifierJournal.recoverAll env
      pure none

/-- The dispatch whose claim a call has acquired. -/
def Call.acquires : Call → Option JournalClaim → List String
  | claimDispatch i, some claim => if claim.claimAcquired then [i.dispatchEventHash] else []
  | _, _ => []

/-- All writes so far, and the dispatches for which `claim_dispatch` has returned
`claim_acquired=True`. -/
structure JournalHistory where
  writes : List Write
  acquired : List String

/-- The directory of the journal. -/
def JournalHistory.directory (s : JournalHistory) : Directory := applyAll s.writes ∅

/-- What happens to the journal. -/
inductive JournalEvent
  /-- A call that comes to its end. -/
  | call (env : Env) (c : Call)
  /-- A call that ends after some of its writes, by a failed write or by a crash. -/
  | cut (env : Env) (c : Call) (k : ℕ)
  /-- A restart: the journal keeps nothing in memory. -/
  | restart

/-- One event. -/
def JournalHistory.step (s : JournalHistory) : JournalEvent → JournalHistory
  | .call env c =>
      { writes := s.writes ++ (c.perform env s.directory).1
        acquired := s.acquired ++
          match (c.perform env s.directory).2 with
          | .ok result => c.acquires result
          | .error _ => [] }
  | .cut env c k => { s with writes := s.writes ++ (c.perform env s.directory).1.take k }
  | .restart => s

/-- The history of the events, from an empty journal. -/
def JournalHistory.run (events : List JournalEvent) : JournalHistory :=
  events.foldl JournalHistory.step ⟨[], []⟩

/-- The record in a write. -/
def versionOf (w : Write) : Option (String × JournalRecord) :=
  (readRecord w.content).toOption.map fun r => (r.dispatchEventHash, r)

/-- The versions of the record of a dispatch, oldest first. -/
def JournalHistory.versions (s : JournalHistory) (h : String) : List JournalRecord :=
  EventLog.history versionOf h s.writes

/-- What holds of the records over a whole history. -/
structure Sound (s : JournalHistory) : Prop where
  /-- Each dispatch is acquired at most once. -/
  acquired : s.acquired.Nodup
  /-- The journal holds the last version of each record. -/
  stored : ∀ h, Hex.isHex 64 h = true → load s.directory h = .ok (s.versions h).getLast?
  /-- An update adds one to the revision and keeps the identity. -/
  updated : ∀ h, (s.versions h).IsChain fun r r' =>
    r'.revision = r.revision + 1 ∧ r'.identity = r.identity
  /-- The execution is entered once. -/
  executedOnce : ∀ h, (s.versions h).Pairwise fun r r' =>
    r.state = executing → r'.state ≠ executing
  /-- The execution is not entered after a recovery. -/
  notAfterRecovery : ∀ h, (s.versions h).Pairwise fun r r' =>
    isRecovery r.state = true → r'.state ≠ executing
  /-- No failure without cleanup once there is a snapshot. -/
  failedBeforeSnapshot : ∀ h, (s.versions h).Pairwise fun r r' =>
    r.state = snapshotAcquired → r'.state ≠ failed
  /-- A failure code is not cleared. -/
  failureKept : ∀ h, (s.versions h).Pairwise fun r r' =>
    r.failureCode ≠ none → r'.failureCode ≠ none
  /-- A recovered run is done only with a failure code. -/
  doneWithFailure : ∀ h, (s.versions h).Pairwise fun r r' =>
    isRecovery r.state = true → r'.state = done → r'.failureCode ≠ none
  /-- A terminal version is the last one. -/
  terminalLast : ∀ h, (s.versions h).Pairwise fun r _ => r.state.isTerminal = false

/-! ## What the writes keep -/

theorem versionOf_record {w : Write} {r : JournalRecord} (hcontent : w.content = r.bytes)
    (hvalid : r.Valid) (hlen : r.bytes.length ≤ maxRecordBytes) :
    versionOf w = some (r.dispatchEventHash, r) := by
  rw [versionOf, hcontent, readRecord_bytes hvalid hlen]
  rfl

theorem versionOf_marker {w : Write} {i : Identity} {now : ℤ}
    (hcontent : w.content = fileBytes (markerDict i now)) : versionOf w = none := by
  rw [versionOf, hcontent]
  cases hread : readRecord (fileBytes (markerDict i now)) with
  | error e => rfl
  | ok r =>
    obtain ⟨v, hv, -⟩ := bind_eq_ok.mp hread
    have hkeys := (eq_of_readJsonExact_fileBytes (wellFormed_markerDict i now) hv).2
    exact absurd hkeys (show claimKeys ≠ recordKeys by decide)

/-- The first version of a record. -/
def Starts (r : JournalRecord) : Prop := r.state = requested

/-- What a list of writes of the journal has built. -/
structure Built (ws : List Write) : Prop where
  stored : ∀ h, Hex.isHex 64 h = true →
    load (applyAll ws ∅) h = .ok (EventLog.latest versionOf h ws)
  continues : ∀ h, EventLog.Continues versionOf Starts Updates h ws

/-- A version of the record of one dispatch leaves the other dispatches alone. -/
theorem Built.snoc_version {ws : List Write} {w : Write} {r : JournalRecord} (hb : Built ws)
    (hname : w.name = recordName r.dispatchEventHash) (hcontent : w.content = r.bytes)
    (hvalid : r.Valid) (hlen : r.bytes.length ≤ maxRecordBytes)
    (hcontinues : EventLog.Continues versionOf Starts Updates r.dispatchEventHash (ws ++ [w])) :
    Built (ws ++ [w]) := by
  have hversion := versionOf_record hcontent hvalid hlen
  refine ⟨fun h hhex => ?_, fun h => ?_⟩
  · rw [applyAll_append, applyAll_cons, applyAll_nil, EventLog.latest_snoc]
    by_cases hh : r.dispatchEventHash = h
    · subst hh
      rw [load_apply_record hname hcontent hvalid hlen, EventLog.pick_eq_some.mpr hversion]
      rfl
    · rw [load_apply_of_ne (by rw [hname]; exact fun heq => hh (recordName_injective heq).symm),
        EventLog.pick_of_ne hversion hh, hb.stored h hhex]
      rfl
  · by_cases hh : r.dispatchEventHash = h
    · rw [← hh]
      exact hcontinues
    · exact (hb.continues h).snoc_silent (EventLog.pick_of_ne hversion hh)

/-- One write more. -/
theorem Built.snoc {ws : List Write} {w : Write} (hb : Built ws)
    (hw : GoodWrite (applyAll ws ∅) w) : Built (ws ++ [w]) := by
  cases hw with
  | first r hstate hrevision hvalid hlen hnone hcount =>
    have hversion := versionOf_record (w := .create (recordName r.dispatchEventHash) r.bytes) rfl
      hvalid hlen
    refine hb.snoc_version rfl rfl hvalid hlen
      (.snoc_first (EventLog.pick_eq_some.mpr hversion) ?_ hstate)
    have hstored := hb.stored _ (rules_of_valid hvalid).hash
    rw [hnone] at hstored
    exact (Except.ok.inj hstored).symm
  | update r r' uuid hupdates hvalid hlen hload =>
    have hversion := versionOf_record
      (w := .replace (temporaryName (recordName r'.dispatchEventHash) uuid)
        (recordName r'.dispatchEventHash) r'.bytes) rfl hvalid hlen
    have hsame : r'.dispatchEventHash = r.dispatchEventHash :=
      congrArg Identity.dispatchEventHash hupdates.identity
    refine hb.snoc_version rfl rfl hvalid hlen
      ((hb.continues _).snoc_next (EventLog.pick_eq_some.mpr hversion) (y := r) ?_ hupdates)
    have hstored := hb.stored _ (rules_of_valid hvalid).hash
    rw [hsame] at hstored ⊢
    rw [hload] at hstored
    exact (Except.ok.inj hstored).symm
  | marker r now hnow hlen hload hnone =>
    have hversion := versionOf_marker (w := .create (claimName r.dispatchEventHash)
      (fileBytes (markerDict r.identity now))) rfl
    refine ⟨fun h hhex => ?_, fun h =>
      (hb.continues h).snoc_silent (EventLog.pick_of_none hversion)⟩
    rw [applyAll_append, applyAll_cons, applyAll_nil, EventLog.latest_snoc,
      EventLog.pick_of_none hversion, load_apply_of_ne (recordName_ne_claimName _ _),
      hb.stored h hhex]
    rfl

theorem built_of_steps (ws : List Write) (hsteps : Steps GoodWrite ∅ ws) : Built ws := by
  induction ws using List.reverseRecOn with
  | nil =>
    refine ⟨fun h hhex => ?_, fun h => EventLog.continues_nil⟩
    unfold load
    exact bind_eq_ok.mpr ⟨h, validateDispatchHash_eq_ok.mpr ⟨rfl, hhex⟩, rfl⟩
  | append_singleton ws w ih =>
    obtain ⟨hws, hw, -⟩ := steps_append.mp hsteps
    exact (ih hws).snoc hw

/-! ## Soundness -/

theorem Call.mem_acquires {c : Call} {result : Option JournalClaim} {h : String}
    (hh : h ∈ c.acquires result) : c.acquires result = [h] := by
  unfold Call.acquires at hh ⊢
  split at hh
  · split at hh
    · rename_i hacquired
      rw [if_pos hacquired, List.mem_singleton.mp hh]
    · exact absurd hh List.not_mem_nil
  · exact absurd hh List.not_mem_nil

/-- A program whose result is dropped acquires nothing. -/
theorem journals_drop {α : Type} {x : Action CogniError α} {c : Call} {d₀ : Directory}
    (hx : Journals (fun _ => True) x fun _ _ => True) (hc : c.acquires none = []) :
    Journals (fun d => d = d₀) (do let _ ← x; pure none) fun result d =>
      ∀ h ∈ c.acquires result, d₀.lookup (claimName h) = none ∧ d.lookup (claimName h) ≠ none :=
  Triple.bind (hx.weaken (fun _ _ => trivial) fun _ _ h => h) fun _ =>
    Triple.pure fun _ _ h hh => absurd hh (by rw [hc]; exact List.not_mem_nil)

/-- Every call makes only writes of the journal, and acquires only a dispatch without a marker. -/
theorem journals_perform (env : Env) (c : Call) (d₀ : Directory) :
    Journals (fun d => d = d₀) (c.perform env) fun result d =>
      ∀ h ∈ c.acquires result, d₀.lookup (claimName h) = none ∧ d.lookup (claimName h) ≠ none := by
  cases c with
  | claimDispatch i =>
    refine Triple.bind (journals_claimDispatch env i d₀) fun claim =>
      Triple.pure fun d hd h hh => ?_
    unfold Call.acquires at hh
    dsimp only at hh
    split at hh
    · rw [List.mem_singleton.mp hh]
      exact hd ‹_›
    · exact absurd hh List.not_mem_nil
  | transition h newState expectedRevision failureCode quarantineReason =>
    exact journals_drop (journals_transition _ _ _ _ _ _) rfl
  | markFailed h failureCode => exact journals_drop (journals_transition _ _ _ _ _ _) rfl
  | quarantine h failureCode reason => exact journals_drop (journals_transition _ _ _ _ _ _) rfl
  | recover h => exact journals_drop ((recovers_recover _ _).mono fun _ _ h => h.good) rfl
  | recoverAll => exact journals_drop ((recovers_recoverAll _).mono fun _ _ h => h.good) rfl

/-- What every event keeps. -/
structure HistoryInv (s : JournalHistory) : Prop where
  steps : Steps GoodWrite ∅ s.writes
  marked : ∀ h ∈ s.acquired, s.directory.lookup (claimName h) ≠ none
  nodup : s.acquired.Nodup

theorem HistoryInv.step {s : JournalHistory} (hs : HistoryInv s) (e : JournalEvent) :
    HistoryInv (s.step e) := by
  cases e with
  | restart => exact hs
  | cut env c k =>
    obtain ⟨hsteps, -⟩ := journals_perform env c s.directory s.directory rfl
    refine ⟨steps_append.mpr ⟨hs.steps, hsteps.take k⟩, fun h hh => ?_, hs.nodup⟩
    show (applyAll (s.writes ++ _) ∅).lookup (claimName h) ≠ none
    rw [applyAll_append]
    exact lookup_applyAll_ne_none _ (hs.marked h hh)
  | call env c =>
    obtain ⟨hsteps, hpost⟩ := journals_perform env c s.directory s.directory rfl
    have hdir : (s.step (.call env c)).directory =
        applyAll (c.perform env s.directory).1 s.directory := applyAll_append _ _ _
    refine ⟨steps_append.mpr ⟨hs.steps, hsteps⟩, ?_, ?_⟩
    · intro h hh
      rw [hdir]
      rcases List.mem_append.mp hh with hh | hh
      · exact lookup_applyAll_ne_none _ (hs.marked h hh)
      · cases hresult : (c.perform env s.directory).2 with
        | error e => rw [hresult] at hh; exact absurd hh List.not_mem_nil
        | ok result =>
          rw [hresult] at hh
          exact (hpost result hresult h hh).2
    · cases hresult : (c.perform env s.directory).2 with
      | error e =>
        show (s.acquired ++ _).Nodup
        rw [hresult, List.append_nil]
        exact hs.nodup
      | ok result =>
        show (s.acquired ++ _).Nodup
        rw [hresult]
        refine List.Nodup.append hs.nodup ?_ ?_
        · show (c.acquires result).Nodup
          cases hnew : c.acquires result with
          | nil => exact .nil
          | cons h rest =>
            have hone : c.acquires result = [h] := Call.mem_acquires (by simp [hnew])
            rw [hnew] at hone
            rw [hone]
            exact List.nodup_singleton h
        · -- What was acquired before has its marker already.
          intro h hold hnew
          exact hs.marked h hold (hpost result hresult h hnew).1

theorem historyInv_run (events : List JournalEvent) : HistoryInv (JournalHistory.run events) := by
  induction events using List.reverseRecOn with
  | nil => exact ⟨trivial, fun h hh => absurd hh List.not_mem_nil, .nil⟩
  | append_singleton events e ih =>
    unfold JournalHistory.run
    rw [List.foldl_append]
    exact ih.step e

theorem rules_of_mem_versions {s : JournalHistory} {h : String} {r : JournalRecord}
    (hr : r ∈ s.versions h) : RecordRules r := by
  obtain ⟨w, -, hw⟩ := EventLog.mem_history.mp hr
  unfold versionOf at hw
  cases hread : readRecord w.content with
  | error e => rw [hread] at hw; cases hw
  | ok r' =>
    rw [hread] at hw
    obtain rfl : r' = r := congrArg Prod.snd (Option.some.inj hw)
    obtain ⟨v, -, hvalidate⟩ := bind_eq_ok.mp hread
    exact (validateRecord_eq_ok hvalidate).1

/-- **Soundness.**  Whatever is called, cut and restarted, at most one claim of a dispatch is
acquired, and its record goes through the states as it should. -/
theorem sound_of_run (events : List JournalEvent) : Sound (JournalHistory.run events) := by
  have hinv := historyInv_run events
  generalize JournalHistory.run events = s at hinv
  have hbuilt := built_of_steps s.writes hinv.steps
  have hchain : ∀ h, (s.versions h).IsChain Updates := fun h => (hbuilt.continues h).2
  have hlater : ∀ h, (s.versions h).Pairwise Later := fun h =>
    List.isChain_iff_pairwise.mp ((hchain h).imp fun _ _ hu => .single hu)
  refine {
    acquired := hinv.nodup
    stored := hbuilt.stored
    updated := fun h => (hchain h).imp fun _ _ hu => ⟨hu.revision, hu.identity⟩
    executedOnce := fun h => (hlater h).imp fun {r r'} hl hr =>
      (hl.isExecuted (by rw [hr]; decide)).2
    notAfterRecovery := fun h => (hlater h).imp fun {r r'} hl hr =>
      (hl.isExecuted (isExecuted_of_isRecovery _ hr)).2
    failedBeforeSnapshot := fun h => (hlater h).imp fun {r r'} hl hr hfailed => ?_
    failureKept := fun h => (hlater h).imp fun {r r'} hl hr => hl.failureCode hr
    doneWithFailure := fun h => (hlater h).imp_of_mem fun {r r'} hmem _ hl hr _ =>
      hl.failureCode (failureCode_of_isRecovery (rules_of_mem_versions hmem) hr)
    terminalLast := fun h => (hlater h).imp fun {r r'} hl => hl.not_isTerminal }
  have hsnapshot := hl.hasSnapshot (by rw [hr]; decide)
  rw [hfailed] at hsnapshot
  exact absurd hsnapshot (by decide)

end VerifierJournal
