/-
# The workspace ledger and its projections

The events that `workspace.py` signs, one constructor each, with the payloads it
builds; the ledger of signed events; the agent and task files; and the lock that a
running verification holds on its task.
-/
import CogniOS.TaskModel
import CogniOS.VerificationLifecycle
import CogniOS.LedgerText
import CogniOS.EventLog

open Independence VerificationLifecycle

namespace Workspace

/-! ## Records -/

/-- `workspace.json`. -/
structure Config where
  workspaceId : Token
  name : String
  orchestrator : String
  createdAt : Utc
  leaseSeconds : ℤ
  maxEvidenceBytes : ℤ

def Config.toJson (c : Config) : Json :=
  .obj [
    ("created_at", .str c.createdAt.text),
    ("defaults", .obj [
      ("gates", .obj defaultGates),
      ("lease_seconds", .int c.leaseSeconds),
      ("max_evidence_bytes", .int c.maxEvidenceBytes),
      ("permissions", .obj defaultPermissions)]),
    ("name", .str c.name),
    ("orchestrator", .str c.orchestrator),
    ("schema_version", .int 1),
    ("workspace_id", .str c.workspaceId.text)]

/-- An agent record. -/
structure Agent where
  id : String
  role : String
  mode : String
  command : Option (List String)
  createdAt : Utc
  writeRoots : List String
  identity : Option Identity
  deriving DecidableEq

def Agent.toJson (a : Agent) : Json :=
  .obj [
    ("command", optRecordJson (fun args => .arr (args.map .str)) a.command),
    ("created_at", .str a.createdAt.text),
    ("id", .str a.id),
    ("identity", optRecordJson Identity.toJson a.identity),
    ("mode", .str a.mode),
    ("role", .str a.role),
    ("schema_version", .int 2),
    ("write_roots", .arr (a.writeRoots.map .str))]

/-- What `recover_lease` records beside the task. -/
structure Recovery where
  forced : Bool
  reason : String
  previousState : TaskState
  previousHolder : String
  previousExpiresAt : Utc
  previousAttempt : ℕ
  sessionId : Option String
  issuedAt : Utc
  leaseExpired : Bool
  sourceAction : String
  sourceSequence : ℕ
  sourceEventHash : String
  observedAt : Utc
  capabilityReceipt : Json

/-- The start of a verification run. -/
structure Started where
  runId : Token
  taskAttempt : ℕ
  manifestSha256 : Sha256Hex
  workerManifestSha256 : Option Sha256Hex
  verifierIdentity : Snapshot
  contractInputsSha256 : Sha256Hex
  capabilityReceipt : Json

/-- `VERIFICATION_FAILURE_STAGES`. -/
inductive FailureStage
  | trustedRunner
  | executorAttestation
  | archive
  | stateTransition
  deriving DecidableEq

def FailureStage.text : FailureStage → String
  | trustedRunner => "trusted_runner"
  | executorAttestation => "executor_attestation"
  | archive => "archive"
  | stateTransition => "state_transition"

/-- `_verification_error_type`. -/
def verificationErrorType (e : CogniError) : String :=
  match e.kind with
  | .timeout => "timeout_error"
  | .evidence => "evidence_error"
  | .integrity => "integrity_error"
  | .authorization => "authorization_error"
  | .configuration => "configuration_error"
  | .lease => "state_error"
  | .transition => "state_error"
  | .os => "io_error"
  | .lockTimeout => "unexpected_error"
  | .other => "unexpected_error"

/-- The failure record of a run; `start` is the started event as it was read back. -/
structure FailedRun where
  runId : Token
  taskAttempt : ℕ
  stage : FailureStage
  errorType : String
  start : Json
  contractInputsSha256 : Sha256Hex
  capabilityReceipt : Json

/-- The record that closes an orphan run. -/
structure RecoveredRun where
  runId : Token
  taskAttempt : ℤ
  start : Json
  recoveredBy : String
  capabilityReceipt : Json

/-- The effective statuses of `restate_verification`. -/
inductive RestatedStatus
  | disputed
  | revoked
  deriving DecidableEq

def RestatedStatus.text : RestatedStatus → String
  | disputed => "verification_disputed"
  | revoked => "verification_revoked"

/-- A correction of an earlier verification. -/
structure Restatement where
  targetSequence : ℕ
  targetHash : String
  originalVerifier : String
  status : RestatedStatus
  reason : String
  capabilityReceipt : Json

/-! ## Event bodies -/

/-- What an event of the workspace says. -/
inductive Body
  | initialized (config : Config)
  | agentAdded (agent : Agent)
  | created (task : Task)
  | claimed (task : Task)
  | started (task : Task)
  | heartbeat (task : Task)
  | blocked (task : Task) (reason : String)
  | submitted (task : Task) (workerIdentity : Option Snapshot) (bundle : Json)
  | recovered (r : Recovery) (task : Task)
  | verificationStarted (s : Started)
  | verificationFailed (f : FailedRun)
  | verificationRecovered (r : RecoveredRun)
  /-- `task.verified` where accepted, else `task.rejected`. -/
  | decided (accepted : Bool) (v : Verification) (task : Task)
  | restated (r : Restatement)

namespace Body

def action : Body → String
  | initialized _ => "workspace.initialized"
  | agentAdded _ => "agent.added"
  | created _ => "task.created"
  | claimed _ => "task.claimed"
  | started _ => "task.started"
  | heartbeat _ => "task.heartbeat"
  | blocked _ _ => "task.blocked"
  | submitted _ _ _ => "task.submitted"
  | recovered r _ => if r.forced then "task.lease_force_recovered" else "task.lease_recovered"
  | verificationStarted _ => "verification.started"
  | verificationFailed _ => "verification.failed"
  | verificationRecovered _ => "verification.failed"
  | decided accepted _ _ => if accepted then "task.verified" else "task.rejected"
  | restated _ => "verification.restatement"

/-- The task snapshot in the payload. -/
def task? : Body → Option Task
  | created t => some t
  | claimed t => some t
  | started t => some t
  | heartbeat t => some t
  | blocked t _ => some t
  | submitted t _ _ => some t
  | recovered _ t => some t
  | decided _ _ t => some t
  | _ => none

def payload : Body → List (String × Json)
  | initialized config => [("config", config.toJson)]
  | agentAdded agent => [("agent", agent.toJson)]
  | created t => [("task", t.toJson)]
  | claimed t => [("task", t.toJson)]
  | started t => [("task", t.toJson)]
  | heartbeat t => [("task", t.toJson)]
  | blocked t reason => [("reason", .str reason), ("task", t.toJson)]
  | submitted t workerIdentity bundle =>
      [("bundle", bundle), ("task", t.toJson), ("worker_identity", snapshotJson workerIdentity)]
  | recovered r t => [
      ("capability_receipt", r.capabilityReceipt),
      ("liveness_evidence", .obj [
        ("issued_at", .str r.issuedAt.text),
        ("kind", .str (if r.forced then "forced_capability_override"
          else "signed_activity_plus_expired_lease")),
        ("lease_expired", .bool r.leaseExpired),
        ("observed_at", .str r.observedAt.text),
        ("session_id", optJson r.sessionId),
        ("source_action", .str r.sourceAction),
        ("source_event_hash", .str r.sourceEventHash),
        ("source_sequence", .int r.sourceSequence)]),
      ("previous_attempt", .int r.previousAttempt),
      ("previous_expires_at", .str r.previousExpiresAt.text),
      ("previous_holder", .str r.previousHolder),
      ("previous_state", .str r.previousState.text),
      ("reason", .str r.reason),
      ("recovery_mode", .str (if r.forced then "forced" else "expired_lease")),
      ("schema_version", .int 2),
      ("task", t.toJson),
      ("transition", .obj [
        ("from", .str r.previousState.text),
        ("to", .str "pending"),
        ("via", .str "blocked")])]
  | verificationStarted s => [
      ("capability_receipt", s.capabilityReceipt),
      ("run_id", .str s.runId.text),
      ("schema_version", .int 1),
      ("task_attempt", .int s.taskAttempt),
      ("verification_contract_inputs_sha256", .str s.contractInputsSha256.text),
      ("verifier_identity", s.verifierIdentity.toJson),
      ("verifier_manifest_sha256", .str s.manifestSha256.text),
      ("worker_manifest_sha256", optSha256Json s.workerManifestSha256)]
  | verificationFailed f => [
      ("capability_receipt", f.capabilityReceipt),
      ("error_type", .str f.errorType),
      ("run_id", .str f.runId.text),
      ("schema_version", .int 1),
      ("stage", .str f.stage.text),
      ("task_attempt", .int f.taskAttempt),
      ("verification_contract_inputs_sha256", .str f.contractInputsSha256.text),
      ("verifier_identity", (payloadOf f.start).get "verifier_identity"),
      ("verifier_manifest_sha256", (payloadOf f.start).get "verifier_manifest_sha256"),
      ("worker_manifest_sha256", (payloadOf f.start).get "worker_manifest_sha256")]
  | verificationRecovered r => [
      ("capability_receipt", r.capabilityReceipt),
      ("error_type", .str "interrupted_error"),
      ("recovered_by", .str r.recoveredBy),
      ("run_id", .str r.runId.text),
      ("schema_version", .int 1),
      ("stage", .str "recovery"),
      ("started_actor", r.start.get "actor"),
      ("started_capability_receipt", (payloadOf r.start).get "capability_receipt"),
      ("started_event_hash", r.start.get "event_hash"),
      ("started_sequence", r.start.get "sequence"),
      ("task_attempt", .int r.taskAttempt),
      ("verification_contract_inputs_sha256",
        (payloadOf r.start).get "verification_contract_inputs_sha256"),
      ("verifier_identity", (payloadOf r.start).get "verifier_identity"),
      ("verifier_manifest_sha256", (payloadOf r.start).get "verifier_manifest_sha256"),
      ("worker_manifest_sha256", (payloadOf r.start).get "worker_manifest_sha256")]
  | decided _ v t => [
      ("capability_receipt", v.capabilityReceipt),
      ("independence", v.independence.toJson),
      ("run_id", .str v.runId.text),
      ("task", t.toJson),
      ("trusted_validation", .obj v.trustedValidation),
      ("verification_contract_inputs_sha256", .str v.contractInputsSha256.text),
      ("verifier_evidence", v.evidenceJson),
      ("verifier_identity", v.verifierIdentity.toJson),
      ("worker_manifest_sha256", optSha256Json v.workerManifestSha256)]
  | restated r => [
      ("capability_receipt", r.capabilityReceipt),
      ("effective_status", .str r.status.text),
      ("original_verifier", .str r.originalVerifier),
      ("reason", .str r.reason),
      ("schema_version", .int 1),
      ("target_verification_hash", .str r.targetHash),
      ("target_verification_sequence", .int r.targetSequence)]

/-- The payload holds the snapshot of the task, and no other value under its key. -/
theorem get?_task (b : Body) : (Json.obj b.payload).get? "task" = b.task?.map Task.toJson := by
  cases b <;> rfl

end Body

/-! ## The signed ledger -/

/-- What an operation passes to `Ledger.append`. -/
structure Entry where
  timestamp : Utc
  actor : String
  taskId : Option String
  body : Body

def Entry.request (e : Entry) : Ledger.Request where
  timestamp := e.timestamp.stamp
  actor := e.actor
  action := e.body.action
  taskId := e.taskId
  payload := e.body.payload

/-- A signed event and what it says. -/
structure Signed where
  body : Body
  event : Ledger.Event
  action_eq : event.action = body.action
  payload_eq : event.payload = .obj body.payload

/-- The snapshot in an event that names a task. -/
def Signed.snapshot? (e : Signed) : Option (String × Task) :=
  match e.event.taskId, e.body.task? with
  | some id, some t => some (id, t)
  | _, _ => none

/-- No string that the event was signed with has an unescaped line boundary in it. -/
def Signed.NoLineBreak (e : Signed) : Prop :=
  ∀ str ∈ e.event.actor :: e.event.action :: (e.event.taskId.toList ++ e.event.payload.strings),
    ∀ c ∈ str.toList, c ≠ '\u0085' ∧ c ≠ '\u2028' ∧ c ≠ '\u2029'

-- Not by instance search, which would look at every character there is.
instance (e : Signed) : Decidable e.NoLineBreak :=
  @List.decidableBAll String _ (fun str => List.decidableBAll _ str.toList) _

/-- The signed event for an entry after the given events. -/
def sign (signer : Ledger.Signer) (ledger : List Signed) (e : Entry) : Signed where
  body := e.body
  event := Ledger.mkEvent signer (ledger.map Signed.event) e.request
  action_eq := rfl
  payload_eq := rfl

section Sign

variable (signer : Ledger.Signer) (ledger : List Signed) (e : Entry)

@[simp] theorem sign_body : (sign signer ledger e).body = e.body := rfl

@[simp] theorem sign_taskId : (sign signer ledger e).event.taskId = e.taskId := rfl

@[simp] theorem sign_actor : (sign signer ledger e).event.actor = e.actor := rfl

theorem sign_noLineBreak_iff : (sign signer ledger e).NoLineBreak ↔ e.request.NoLineBreak :=
  Iff.rfl

@[simp] theorem sign_sequence : (sign signer ledger e).event.sequence = ledger.length + 1 := by
  simp [sign]

end Sign

/-! ## The state -/

/-- The local variables of `Workspace.verify` while the trusted runner is at work. -/
structure VerifyRun where
  actor : String
  task : Task
  accept : Bool
  decision : String
  note : String
  verifierIdentity : Snapshot
  independence : Evaluation
  manifest : Manifest
  workerManifestSha256 : Option Sha256Hex
  runId : Token
  capabilityReceipt : Json
  contractInputsSha256 : Sha256Hex

/-- The ledger, the agent files, the task files, and the verification that holds the
lock of a task. -/
structure State where
  ledger : List Signed
  agents : AList fun _ : String => Agent
  files : AList fun _ : String => Task
  verifying : String → Option VerifyRun

namespace State

/-- The last signed snapshot of a task. -/
def latest (s : State) (id : String) : Option Task := EventLog.latest Signed.snapshot? id s.ledger

/-- The events as the dictionaries that `Ledger.read_verified` returns. -/
def events (s : State) : List Json := s.ledger.map fun e => e.event.toJson

/-- The ledger can be read: no event has an unescaped line boundary in it. -/
def Readable (s : State) : Prop := ∀ e ∈ s.ledger, e.NoLineBreak

instance (s : State) : Decidable s.Readable :=
  inferInstanceAs (Decidable (∀ e ∈ s.ledger, e.NoLineBreak))

end State

end Workspace
