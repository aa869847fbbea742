/-
# Tasks

The task record and the transition rules of `model.py`, with the evidence records
that `evidence.py` and `Workspace.verify` put into it.
-/
import CogniOS.Independence

open Independence

namespace Workspace

/-! ## States -/

/-- `TASK_STATES`. -/
inductive TaskState
  | pending
  | claimed
  | running
  | blocked
  | submitted
  | verified
  | rejected
  | archived
  deriving DecidableEq

namespace TaskState

def text : TaskState → String
  | pending => "pending"
  | claimed => "claimed"
  | running => "running"
  | blocked => "blocked"
  | submitted => "submitted"
  | verified => "verified"
  | rejected => "rejected"
  | archived => "archived"

/-- `TRANSITIONS`. -/
def transitions : TaskState → List TaskState
  | pending => [claimed, submitted]
  | claimed => [running, blocked]
  | running => [blocked, submitted]
  | blocked => [pending]
  | submitted => [verified, rejected]
  | rejected => [pending]
  | verified => [archived]
  | archived => []

/-- The states that a worker holds a lease in. -/
def leased : TaskState → Bool
  | claimed => true
  | running => true
  | _ => false

/-- A path of the given number of steps in `TRANSITIONS`. -/
inductive Path : TaskState → TaskState → ℕ → Prop
  | nil (a : TaskState) : Path a a 0
  | snoc {a b c : TaskState} {n : ℕ} : Path a b n → c ∈ b.transitions → Path a c (n + 1)

theorem Path.single {a b : TaskState} (h : b ∈ a.transitions) : Path a b 1 := .snoc (.nil a) h

end TaskState

/-! ## Records -/

/-- A task lease. -/
structure Lease where
  holder : String
  sessionId : String
  issuedAt : Utc
  tokenHash : String
  expiresAt : Utc
  durationSeconds : ℤ
  deriving DecidableEq

def Lease.toJson (l : Lease) : Json :=
  .obj [
    ("duration_seconds", .int l.durationSeconds),
    ("expires_at", .str l.expiresAt.text),
    ("holder", .str l.holder),
    ("issued_at", .str l.issuedAt.text),
    ("session_id", .str l.sessionId),
    ("token_hash", .str l.tokenHash)]

/-- What `validate_manifest` returns. -/
structure Manifest where
  path : String
  sha256 : Sha256Hex
  artifacts : List Json
  validations : List Json
  knownAnswerChecks : List Json
  claims : List Json
  passed : ℤ
  failed : ℤ
  skipped : ℤ
  deriving DecidableEq

def Manifest.toJson (m : Manifest) : Json :=
  .obj [
    ("artifacts", .arr m.artifacts),
    ("claims", .arr m.claims),
    ("known_answer_checks", .arr m.knownAnswerChecks),
    ("manifest_path", .str m.path),
    ("manifest_sha256", .str m.sha256.text),
    ("totals", .obj [("failed", .int m.failed), ("passed", .int m.passed),
      ("skipped", .int m.skipped)]),
    ("validations", .arr m.validations)]

/-- The result of a submission; `report` is what `validate_report` returns. -/
structure Submission where
  submittedAt : Utc
  submittedBy : String
  report : Json
  manifest : Manifest
  deriving DecidableEq

def Submission.toJson (r : Submission) : Json :=
  .obj [
    ("manifest", r.manifest.toJson),
    ("report", r.report),
    ("submitted_at", .str r.submittedAt.text),
    ("submitted_by", .str r.submittedBy)]

/-- A worker manifest digest, `null` when there is none. -/
def optSha256Json : Option Sha256Hex → Json
  | some h => .str h.text
  | none => .null

/-- `verification_record` of `Workspace.verify`.  The bundle, the attestation, the
receipts and the runner result are documents of other components. -/
structure Verification where
  runId : Token
  verifiedAt : Utc
  verifiedBy : String
  decision : String
  note : String
  independence : Evaluation
  manifestSha256 : Sha256Hex
  bundle : Json
  executorAttestation : List (String × Json)
  trustedValidation : List (String × Json)
  verifierIdentity : Snapshot
  workerManifestSha256 : Option Sha256Hex
  contractInputsSha256 : Sha256Hex
  capabilityReceipt : Json
  deriving DecidableEq

namespace Verification

/-- `verification_record["verifier_evidence"]`. -/
def evidenceJson (v : Verification) : Json :=
  .obj [
    ("bundle", v.bundle),
    ("executor_attestation", .obj v.executorAttestation),
    ("manifest_sha256", .str v.manifestSha256.text)]

def toJson (v : Verification) : Json :=
  .obj [
    ("capability_receipt", v.capabilityReceipt),
    ("decision", .str v.decision),
    ("independence", v.independence.toJson),
    ("note", .str v.note),
    ("run_id", .str v.runId.text),
    ("trusted_validation", .obj v.trustedValidation),
    ("verification_contract_inputs_sha256", .str v.contractInputsSha256.text),
    ("verified_at", .str v.verifiedAt.text),
    ("verified_by", .str v.verifiedBy),
    ("verifier_evidence", v.evidenceJson),
    ("verifier_identity", v.verifierIdentity.toJson),
    ("worker_manifest_sha256", optSha256Json v.workerManifestSha256)]

end Verification

/-- A task record. -/
structure Task where
  id : String
  title : String
  description : String
  owner : String
  createdBy : String
  state : TaskState
  revision : ℕ
  attempt : ℕ
  createdAt : Utc
  updatedAt : Utc
  prerequisites : List String
  allowedWriteRoots : List String
  permissions : List (String × Json)
  gates : List (String × Json)
  idempotencyKey : String
  lease : Option Lease
  result : Option Submission
  verification : Option Verification
  blockedReason : Option String
  deriving DecidableEq

/-- An optional record as JSON. -/
def optRecordJson {α : Type} (toJson : α → Json) : Option α → Json
  | some a => toJson a
  | none => .null

def Task.toJson (t : Task) : Json :=
  .obj [
    ("allowed_write_roots", .arr (t.allowedWriteRoots.map .str)),
    ("attempt", .int t.attempt),
    ("blocked_reason", optJson t.blockedReason),
    ("created_at", .str t.createdAt.text),
    ("created_by", .str t.createdBy),
    ("description", .str t.description),
    ("gates", .obj t.gates),
    ("id", .str t.id),
    ("idempotency_key", .str t.idempotencyKey),
    ("lease", optRecordJson Lease.toJson t.lease),
    ("owner", .str t.owner),
    ("permissions", .obj t.permissions),
    ("prerequisites", .arr (t.prerequisites.map .str)),
    ("result", optRecordJson Submission.toJson t.result),
    ("revision", .int t.revision),
    ("schema_version", .int 1),
    ("state", .str t.state.text),
    ("title", .str t.title),
    ("updated_at", .str t.updatedAt.text),
    ("verification", optRecordJson Verification.toJson t.verification)]

/-! ## New tasks and transitions -/

/-- `validate_task`; the record types leave these checks. -/
def validateTask (t : Task) : Except CogniError Unit := do
  validateTaskId t.id
  validateAgentId t.owner
  require (strip t.title ≠ "") ⟨.configuration, "Task title cannot be empty"⟩
  require (1 ≤ t.revision) ⟨.configuration, "Task revision must be a positive integer"⟩

/-- The arguments of `new_task`. -/
structure NewTask where
  taskId : String
  title : String
  description : String
  owner : String
  prerequisites : List String
  allowedWriteRoots : List String
  permissions : List (String × Json)
  gates : List (String × Json)
  idempotencyKey : Option String

/-- The dictionary `{**defaults, **given}`. -/
def merged (defaults given : List (String × Json)) : List (String × Json) :=
  given.foldl (fun fields p => Json.setField p.1 p.2 fields) defaults

def defaultPermissions : List (String × Json) :=
  [("gpu", .bool false), ("network", .bool false), ("performance_metrics", .bool false)]

def defaultGates : List (String × Json) :=
  [("allow_skips", .bool false), ("require_independent_verification", .bool true),
    ("require_known_answer_check", .bool true), ("require_validation", .bool true)]

/-- `new_task`. -/
def newTask (now : Utc) (createdBy : String) (a : NewTask) : Except CogniError Task := do
  validateTaskId a.taskId
  validateAgentId a.owner
  validateAgentId createdBy
  let record : Task := {
    id := a.taskId
    title := strip a.title
    description := strip a.description
    owner := a.owner
    createdBy := createdBy
    state := .pending
    revision := 1
    attempt := 0
    createdAt := now
    updatedAt := now
    prerequisites := a.prerequisites
    allowedWriteRoots := a.allowedWriteRoots
    permissions := merged defaultPermissions a.permissions
    gates := merged defaultGates a.gates
    idempotencyKey := if a.idempotencyKey.getD "" = "" then a.taskId else a.idempotencyKey.getD ""
    lease := none
    result := none
    verification := none
    blockedReason := none }
  validateTask record
  return record

/-- `transition`; `updates` sets the fields given by keyword. -/
def transition (now : Utc) (t : Task) (target : TaskState) (updates : Task → Task) :
    Except CogniError Task := do
  require (target ∈ t.state.transitions) ⟨.transition,
    s!"Task {t.id} cannot transition {t.state.text} -> {target.text}"⟩
  let result := updates { t with state := target, revision := t.revision + 1, updatedAt := now }
  validateTask result
  return result

/-- `lease_expired`. -/
def leaseExpired (t : Task) (now : Utc) : Bool :=
  match t.lease with
  | none => false
  | some lease => lease.expiresAt.seconds ≤ now.seconds

/-- `lease_expiry`. -/
def leaseExpiry (seconds : ℤ) (now : Utc) : Except CogniError Utc := do
  require (10 ≤ seconds) ⟨.configuration, "Lease duration must be at least 10 seconds"⟩
  require (now.seconds + seconds.toNat ≤ Utc.last.seconds) ⟨.other, "date value out of range"⟩
  return ⟨now.seconds + seconds.toNat⟩

/-- What a transition returns. -/
theorem transition_eq_ok {now : Utc} {t u : Task} {target : TaskState} {updates : Task → Task}
    (h : transition now t target updates = .ok u) :
    target ∈ t.state.transitions ∧
      u = updates { t with state := target, revision := t.revision + 1, updatedAt := now } := by
  rw [transition, require_bind_eq_ok] at h
  obtain ⟨hmem, h⟩ := h
  obtain ⟨_, -, h⟩ := bind_eq_ok.mp h
  exact ⟨hmem, (Except.ok.inj h).symm⟩

/-- What a new task is. -/
theorem newTask_eq_ok {now : Utc} {createdBy : String} {a : NewTask} {t : Task}
    (h : newTask now createdBy a = .ok t) :
    t.id = a.taskId ∧ t.owner = a.owner ∧ t.state = .pending ∧ t.revision = 1 ∧ t.attempt = 0 ∧
      t.prerequisites = a.prerequisites ∧ t.lease = none := by
  simp only [newTask, bind_eq_ok] at h
  obtain ⟨_, -, _, -, _, -, _, -, h⟩ := h
  obtain rfl := Except.ok.inj h
  exact ⟨rfl, rfl, rfl, rfl, rfl, rfl, rfl⟩

end Workspace
