/-
# The workspace operations

The methods of `Workspace` (`workspace.py`).  An operation reads the state, checks its
arguments and returns an `Effect`: the event it signs, then the files it replaces.
`step` performs the effect, as far as the fault of the call lets it come.

The validators, the trusted runner, the executor attestation, the archive and the
actor-capability authority are parameters of the calls.
-/
import CogniOS.WorkspaceState

open Independence VerificationLifecycle

namespace Workspace

/-! ## Calls -/

/-- The actor-capability authority during one call: it refuses, or returns a receipt
that is bound to what it was asked for. -/
structure Authority where
  authorize : Scope → Except CogniError Json
  bound : ∀ scope receipt, authorize scope = .ok receipt → receiptIsBound receipt scope = true

/-- What `run_trusted_validations` returns: its contract hash is a SHA-256 digest. -/
structure RunnerResult where
  fields : List (String × Json)
  contract : ∀ v, fields.lookup "validation_contract_sha256" = some v →
    ∃ h : Sha256Hex, v = .str h.text

/-- The arguments of `add_agent`. -/
structure NewAgent where
  agentId : String
  role : String
  mode : String
  command : Option (List String)
  writeRoots : List String
  controlPrincipal : String
  modelFamily : String
  aliasOf : String

/-- The operations.  `Workspace.verify` is cut at the signed start: `verifyEnd` is the rest of
the call, and `verifyCrash` its end by a crash. -/
inductive Op
  | addAgent (actor : String) (a : NewAgent)
  | addTask (actor : String) (a : NewTask)
  | claim (actor : String) (taskId : String) (leaseSeconds : ℤ) (leaseToken sessionId : Token)
  | recoverLease (actor taskId reason : String) (force : Bool)
  | start (actor taskId leaseToken : String)
  | heartbeat (actor taskId leaseToken : String)
  | block (actor taskId leaseToken reason : String)
  | submit (actor taskId leaseToken : String)
      (validated : Except CogniError (Json × Manifest)) (bundle : Except CogniError Json)
  | verifyBegin (actor taskId decision note : String)
      (evidence : Option (Except CogniError Manifest)) (candidates : List Token)
  | verifyEnd (taskId : String) (runner : Except CogniError RunnerResult)
      (attestation : Except CogniError (List (String × Json))) (archive : Except CogniError Json)
  | verifyCrash (taskId : String)
  | reconcileVerification (actor taskId runId : String)
  | restateVerification (actor taskId effectiveStatus reason : String)
      (targetSequence : Option ℤ)

/-- How far the effect of a call comes. -/
inductive Fault
  | none
  /-- The append raises, or the process dies before it. -/
  | append
  /-- The file is not replaced after the append. -/
  | write
  deriving DecidableEq

/-- An operation with what the environment does during the call. -/
structure Call where
  op : Op
  clock : Clock
  authority : Authority
  fault : Fault

/-- The immutable part of a workspace. -/
structure Broker where
  config : Config
  signer : Ledger.Signer

/-- What an operation does once its checks have passed. -/
structure Effect where
  entry : Option Entry
  agent : Option Agent := none
  file : Option (String × Task) := none
  verifying : Option (String × VerifyRun) := none
  /-- The exception that is raised afterwards. -/
  raised : Option CogniError := none

/-! ## Reading -/

namespace State

/-- `_task_lock`: a verification in progress holds the lock of its task. -/
def lockTask (s : State) (id : String) : Except CogniError Unit := do
  validateTaskId id
  require ((s.verifying id).isNone = true) ⟨.lockTimeout, s!"Timed out waiting for lock {id}.lock"⟩

/-- `get_task`. -/
def getTask (s : State) (id : String) : Except CogniError Task := do
  validateTaskId id
  orRaise (s.files.lookup id) ⟨.configuration, s!"Task not found: {id}"⟩

/-- `get_agent`. -/
def getAgent (s : State) (id : String) : Except CogniError Agent := do
  validateAgentId id
  orRaise (s.agents.lookup id) ⟨.configuration, s!"Agent not found: {id}"⟩

/-- `list_tasks`: in the order of the file names. -/
def listTasks (s : State) : List Task :=
  (s.files.entries.mergeSort fun a b => decide (a.1 ++ ".json" ≤ b.1 ++ ".json")).map (·.2)

/-- `ledger.read_verified`. -/
def readVerified (s : State) : Except CogniError (List Signed) := do
  require s.Readable ⟨.integrity, "Malformed ledger JSON"⟩
  return s.ledger

/-- `_unsatisfied_prerequisites`. -/
def unsatisfiedPrerequisites (s : State) (t : Task) : List String :=
  t.prerequisites.filterMap fun id =>
    match s.getTask id with
    | .error _ => some s!"{id}:missing"
    | .ok p =>
        if p.state = .verified ∨ p.state = .archived then none else some s!"{id}:{p.state.text}"

end State

/-- The last event that carries a snapshot of the task. -/
def lastSnapshotEvent (id : String) (ledger : List Signed) : Option Signed :=
  ledger.reverse.find? fun e => (EventLog.pick Signed.snapshot? id e).isSome

/-! ## Agents and tasks -/

section Operations

variable (w : Broker) (s : State) (c : Call)

/-- `authorize_actor_capability`. -/
def authorize (actor operation : String) (taskId runId : Json) (taskAttempt : Json) :
    Except CogniError Json := do
  validateAgentId actor
  c.authority.authorize ⟨.str actor, operation, taskId, runId, taskAttempt⟩

/-- The identity of a new agent. -/
def newIdentity (a : NewAgent) : Except CogniError (Option Identity) :=
  if a.aliasOf ≠ "" then do
    let target ← s.getAgent a.aliasOf
    let identity ← orRaise target.identity
      ⟨.configuration, s!"Alias target agent {a.aliasOf} has no identity"⟩
    let identity ← buildIdentity identity.controlPrincipal identity.modelFamily (some a.aliasOf)
      (a.aliasOf :: identity.aliasChain)
    return some identity
  else if a.controlPrincipal ≠ "" ∨ a.modelFamily ≠ "" then do
    require (a.controlPrincipal ≠ "" ∧ a.modelFamily ≠ "") ⟨.configuration,
      "control_principal and model_family must be provided together"⟩
    let identity ← buildIdentity a.controlPrincipal a.modelFamily none []
    return some identity
  else return none

/-- `add_agent`. -/
def addAgent (actor : String) (a : NewAgent) : Except CogniError Effect := do
  require (actor = w.config.orchestrator)
    ⟨.authorization, "Only the orchestrator can register agents"⟩
  let _ ← authorize c actor "agent.add" .null .null .null
  validateAgentId a.agentId
  require ((s.agents.lookup a.agentId).isNone = true)
    ⟨.configuration, s!"Agent already exists: {a.agentId}"⟩
  require (a.role ∈ ["orchestrator", "worker", "verifier", "advisor"])
    ⟨.configuration, s!"Invalid agent role: {a.role}"⟩
  require (a.mode ∈ ["manual", "command"]) ⟨.configuration, s!"Invalid agent mode: {a.mode}"⟩
  let identity ← newIdentity s a
  let record : Agent :=
    ⟨a.agentId, a.role, a.mode, a.command, c.clock 0, a.writeRoots, identity⟩
  return { entry := some ⟨c.clock 1, actor, none, .agentAdded record⟩, agent := some record }

/-- `add_task`. -/
def addTask (actor : String) (a : NewTask) : Except CogniError Effect := do
  require (actor = w.config.orchestrator)
    ⟨.authorization, "Only the orchestrator can create tasks"⟩
  let _ ← authorize c actor "task.add" .null .null .null
  validateTaskId a.taskId
  require ((s.files.lookup a.taskId).isNone = true)
    ⟨.configuration, s!"Task already exists: {a.taskId}"⟩
  let _ ← s.getAgent a.owner
  a.prerequisites.forM validateTaskId
  require (a.taskId ∉ a.prerequisites) ⟨.configuration, "A task cannot depend on itself"⟩
  require a.prerequisites.Nodup ⟨.configuration, "Task prerequisites cannot contain duplicates"⟩
  let missing := a.prerequisites.filter fun id => (s.files.lookup id).isNone
  require (missing = []) ⟨.configuration,
    "Task prerequisites do not exist: " ++ ", ".intercalate missing⟩
  let record ← newTask (c.clock 0) actor a
  return {
    entry := some ⟨c.clock 1, actor, some a.taskId, .created record⟩
    file := some (a.taskId, record) }

/-! ## Leases -/

/-- The digest of a lease token. -/
def tokenHash (token : String) : String := w.signer.sha256.hexdigest (Utf8.encode token.toList)

/-- The claim of a task whose file is pending and whose prerequisites are satisfied. -/
def claimTask (actor taskId : String) (current : Task) (duration : ℤ)
    (leaseToken sessionId : Token) : Except CogniError Effect := do
  let expiresAt ← leaseExpiry duration (c.clock 0)
  let lease : Lease := {
    holder := actor
    sessionId := sessionId.text
    issuedAt := c.clock 0
    tokenHash := tokenHash w leaseToken.text
    expiresAt := expiresAt
    durationSeconds := duration }
  let updated ← transition (c.clock 1) current .claimed fun t =>
    { t with attempt := current.attempt + 1, lease := some lease }
  return {
    entry := some ⟨c.clock 2, actor, some taskId, .claimed updated⟩
    file := some (taskId, updated) }

/-- The loop of `claim` over the candidates. -/
def claimFrom (actor : String) (specific : Bool) (duration : ℤ) (leaseToken sessionId : Token) :
    List Task → Except CogniError Effect
  | [] => .error ⟨.lease, "No matching claimable task available"⟩
  | task :: rest =>
      if task.owner ≠ actor ∨ task.state ≠ .pending then
        claimFrom actor specific duration leaseToken sessionId rest
      else do
        s.lockTask task.id
        let current ← s.getTask task.id
        if current.state ≠ .pending then
          claimFrom actor specific duration leaseToken sessionId rest
        else if s.unsatisfiedPrerequisites current = [] then
          claimTask w c actor task.id current duration leaseToken sessionId
        else if specific then
          .error ⟨.lease, "Task prerequisites are not verified: " ++
            ", ".intercalate (s.unsatisfiedPrerequisites current)⟩
        else claimFrom actor specific duration leaseToken sessionId rest

/-- `claim`; the empty id asks for any task, zero seconds for the default. -/
def claim (actor taskId : String) (leaseSeconds : ℤ) (leaseToken sessionId : Token) :
    Except CogniError Effect := do
  let _ ← s.getAgent actor
  let duration := if leaseSeconds = 0 then w.config.leaseSeconds else leaseSeconds
  if taskId ≠ "" then do
    let task ← s.getTask taskId
    claimFrom w s c actor true duration leaseToken sessionId [task]
  else claimFrom w s c actor false duration leaseToken sessionId s.listTasks

/-- `_check_lease`. -/
def checkLease (task : Task) (actor leaseToken : String) (now : Utc) : Except CogniError Unit := do
  let lease ← orRaise task.lease ⟨.lease, "Actor does not hold the lease for this task"⟩
  require (lease.holder = actor) ⟨.lease, "Actor does not hold the lease for this task"⟩
  require (leaseToken.toList.all (·.toNat < 0x80) = true) ⟨.other, "ordinal not in range(128)"⟩
  require (lease.tokenHash = tokenHash w leaseToken) ⟨.lease, "Invalid lease token"⟩
  require (leaseExpired task now = false) ⟨.lease, "Task lease has expired"⟩

/-- The file of a task whose lease the actor holds. -/
def leasedTask (actor taskId leaseToken : String) : Except CogniError Task := do
  s.lockTask taskId
  let task ← s.getTask taskId
  checkLease w task actor leaseToken (c.clock 0)
  return task

/-- `start`. -/
def start (actor taskId leaseToken : String) : Except CogniError Effect := do
  let task ← leasedTask w s c actor taskId leaseToken
  let updated ← transition (c.clock 1) task .running id
  return {
    entry := some ⟨c.clock 2, actor, some taskId, .started updated⟩
    file := some (taskId, updated) }

/-- `heartbeat`. -/
def heartbeat (actor taskId leaseToken : String) : Except CogniError Effect := do
  let task ← leasedTask w s c actor taskId leaseToken
  require (task.state.leased = true)
    ⟨.transition, s!"Cannot heartbeat task in state {task.state.text}"⟩
  let lease ← orRaise task.lease ⟨.other, "lease"⟩
  let expiresAt ← leaseExpiry lease.durationSeconds (c.clock 1)
  let updated := { task with
    lease := some { lease with expiresAt := expiresAt }
    updatedAt := c.clock 2 }
  return {
    entry := some ⟨c.clock 3, actor, some taskId, .heartbeat updated⟩
    file := some (taskId, updated) }

/-- `block`. -/
def block (actor taskId leaseToken reason : String) : Except CogniError Effect := do
  let task ← leasedTask w s c actor taskId leaseToken
  let updated ← transition (c.clock 1) task .blocked fun t =>
    { t with lease := none, blockedReason := some (strip reason) }
  return {
    entry := some ⟨c.clock 2, actor, some taskId, .blocked updated (strip reason)⟩
    file := some (taskId, updated) }

/-- `submit`. -/
def submit (actor taskId leaseToken : String) (validated : Except CogniError (Json × Manifest))
    (bundle : Except CogniError Json) : Except CogniError Effect := do
  let task ← leasedTask w s c actor taskId leaseToken
  let (report, manifest) ← validated
  let agent ← s.getAgent actor
  let workerIdentity ← identitySnapshot actor agent.identity
  let result : Submission := ⟨c.clock 1, actor, report, manifest⟩
  let updated ← transition (c.clock 2) task .submitted fun t =>
    { t with lease := none, result := some result }
  let bundle ← bundle
  return {
    entry := some ⟨c.clock 3, actor, some taskId, .submitted updated workerIdentity bundle⟩
    file := some (taskId, updated) }

/-- The capability receipt of a forced recovery, `null` for a normal one. -/
def recoveryReceipt (actor taskId : String) (task : Task) (lease : Lease) (force : Bool) :
    Except CogniError Json :=
  if force then
    authorize c actor "task.recover_lease.force" (.str taskId)
      (if Hex.isHex 32 lease.sessionId then .str lease.sessionId else .null) (.int task.attempt)
  else .ok .null

/-- `recover_lease`. -/
def recoverLease (actor taskId reason : String) (force : Bool) : Except CogniError Effect := do
  validateTaskId taskId
  validateAgentId actor
  require (actor = w.config.orchestrator)
    ⟨.authorization, "Only the accountable orchestrator can recover a task lease"⟩
  require (strip reason ≠ "") ⟨.evidence, "Lease recovery reason must be non-empty"⟩
  s.lockTask taskId
  let task ← s.getTask taskId
  let ledger ← s.readVerified
  let source := lastSnapshotEvent taskId ledger
  require (source.bind (·.body.task?) = some task)
    ⟨.integrity, "Task projection differs from the signed ledger before recovery"⟩
  require (task.state.leased = true) ⟨.transition,
    s!"Task {taskId} lease cannot be recovered from state {task.state.text}"⟩
  let lease ← orRaise task.lease ⟨.lease, "Active task has no recoverable lease metadata"⟩
  require (lease.holder ≠ "") ⟨.lease, "Active task lease holder is invalid"⟩
  let sessionIsValid := Hex.isHex 32 lease.sessionId
  require (force = true ∨ sessionIsValid = true)
    ⟨.lease, "Active task has no signed recovery session identity"⟩
  let source ← orRaise source
    ⟨.integrity, "Latest signed active task event is not liveness evidence"⟩
  require (source.event.action ∈ ["task.claimed", "task.started", "task.heartbeat"])
    ⟨.integrity, "Latest signed active task event is not liveness evidence"⟩
  require (source.event.actor = lease.holder)
    ⟨.integrity, "Signed liveness event actor differs from the lease holder"⟩
  let expired := leaseExpired task (c.clock 0)
  require (force = true ∨ expired = true) ⟨.lease, "A healthy task lease cannot be recovered"⟩
  require (1 ≤ task.attempt) ⟨.integrity, "Active task attempt is invalid"⟩
  let receipt ← recoveryReceipt c actor taskId task lease force
  let blocked ← transition (c.clock 1) task .blocked fun t =>
    { t with lease := none, blockedReason := some (strip reason) }
  let requeued ← transition (c.clock 2) blocked .pending fun t =>
    { t with lease := none, blockedReason := none }
  require (requeued.attempt = task.attempt)
    ⟨.integrity, "Lease recovery changed the task attempt"⟩
  let recovery : Recovery := {
    forced := force
    reason := strip reason
    previousState := task.state
    previousHolder := lease.holder
    previousExpiresAt := lease.expiresAt
    previousAttempt := task.attempt
    sessionId := if sessionIsValid then some lease.sessionId else none
    issuedAt := lease.issuedAt
    leaseExpired := expired
    sourceAction := source.event.action
    sourceSequence := source.event.sequence
    sourceEventHash := source.event.eventHash
    observedAt := c.clock 3
    capabilityReceipt := receipt }
  return {
    entry := some ⟨c.clock 4, actor, some taskId, .recovered recovery requeued⟩
    file := some (taskId, requeued) }

/-! ## Verification -/

/-- The worker identity in the last submission of the task. -/
def submittedIdentity (taskId : String) (ledger : List Signed) : Option Snapshot :=
  match ledger.reverse.find? fun e =>
      e.event.action = "task.submitted" ∧ e.event.taskId = some taskId with
  | some ⟨.submitted _ workerIdentity _, _, _, _⟩ => workerIdentity
  | _ => none

/-- The run ids in the events of the `verification.` family. -/
def usedRunIds (ledger : List Signed) : List Json :=
  (ledger.filter fun e => "verification.".toList.isPrefixOf e.event.action.toList).map fun e =>
    e.event.payload.get "run_id"

/-- The dictionary behind `verification_contract_inputs_sha256`. -/
def contractInputs (actor taskId : String) (task : Task) (runId : Token)
    (verifierIdentity : Snapshot) (manifest : Manifest)
    (workerManifest : Option Sha256Hex) : Json :=
  .obj [
    ("actor", .str actor),
    ("gates", .obj task.gates),
    ("permissions", .obj task.permissions),
    ("run_id", .str runId.text),
    ("task_attempt", .int task.attempt),
    ("task_id", .str taskId),
    ("verifier_identity", verifierIdentity.toJson),
    ("verifier_manifest_sha256", .str manifest.sha256.text),
    ("worker_manifest_sha256", optSha256Json workerManifest)]

/-- `verify` up to the signed start of the run. -/
def verifyBegin (actor taskId decision note : String)
    (evidence : Option (Except CogniError Manifest)) (candidates : List Token) :
    Except CogniError Effect := do
  require (decision = "accept" ∨ decision = "reject")
    ⟨.configuration, "Verification decision must be 'accept' or 'reject'"⟩
  require (strip note ≠ "") ⟨.evidence, "Verification note must be non-empty"⟩
  let evidence ← orRaise evidence ⟨.evidence, "Verifier evidence manifest is required"⟩
  let agent ← s.getAgent actor
  require (agent.role ∈ ["verifier", "orchestrator"])
    ⟨.authorization, "Actor role is not authorized for verification"⟩
  s.lockTask taskId
  let task ← s.getTask taskId
  require (task.state = .submitted)
    ⟨.transition, s!"Task {taskId} is not submitted for verification"⟩
  let verifierIdentity ← identitySnapshot actor agent.identity
  let ledger ← s.readVerified
  let independence ← evaluateIndependence (submittedIdentity taskId ledger) verifierIdentity
  require (independence.independent = true) ⟨.authorization,
    "Independent verification failed: " ++ ", ".intercalate independence.reasons⟩
  -- An unknown verifier is not independent, so that the identity is there.
  let verifierIdentity ← orRaise verifierIdentity ⟨.authorization, "verifier_identity_unknown"⟩
  let manifest ← evidence
  let result ← orRaise task.result ⟨.other, "result"⟩
  let workerManifest := result.manifest.sha256
  require (workerManifest.text ≠ manifest.sha256.text) ⟨.evidence,
    "Verifier evidence must be independently produced, not the worker submission manifest"⟩
  let runId ← orRaise ((candidates.take 8).find? fun token => .str token.text ∉ usedRunIds ledger)
    ⟨.integrity, "Could not allocate a unique verification run ID"⟩
  let receipt ← authorize c actor "task.verify" (.str taskId) (.str runId.text)
    (.int task.attempt)
  let contract := w.signer.sha256.digest (canonicalJson
    (contractInputs actor taskId task runId verifierIdentity manifest (some workerManifest)))
  return {
    entry := some ⟨c.clock 0, actor, some taskId, .verificationStarted {
      runId := runId
      taskAttempt := task.attempt
      manifestSha256 := manifest.sha256
      workerManifestSha256 := some workerManifest
      verifierIdentity := verifierIdentity
      contractInputsSha256 := contract
      capabilityReceipt := receipt }⟩
    verifying := some (taskId, {
      actor := actor
      task := task
      accept := decide (decision = "accept")
      decision := decision
      note := strip note
      verifierIdentity := verifierIdentity
      independence := independence
      manifest := manifest
      workerManifestSha256 := some workerManifest
      runId := runId
      capabilityReceipt := receipt
      contractInputsSha256 := contract }) }

/-- `find_verification_run` with its `ValueError` as an `IntegrityError`. -/
def findRun (taskId runId : String) : Except CogniError (Option Json × List Json) :=
  match findVerificationRun s.events taskId runId with
  | .ok found => .ok found
  | .error e => .error { e with kind := .integrity }

/-- `_record_verification_failure`, which leaves the exception to be raised again. -/
def recordVerificationFailure (taskId : String) (run : VerifyRun) (stage : FailureStage)
    (error : CogniError) : Except CogniError Effect := do
  let _ ← s.readVerified
  let (started, terminals) ← findRun s taskId run.runId.text
  let started ← orRaise started
    ⟨.integrity, "Verification failure has no signed started event"⟩
  require ((payloadOf started).get "task_attempt" = .int run.task.attempt)
    ⟨.integrity, "Verification failure attempt differs from started run"⟩
  require (terminals.length ≤ 1)
    ⟨.integrity, "Verification run already has multiple terminal events"⟩
  match terminals with
  | terminal :: _ =>
      if hasAction terminal "verification.failed" then
        return { entry := none, raised := some error }
      else .error ⟨.integrity, "Verification run already has a task terminal event"⟩
  | [] =>
      return {
        entry := some ⟨c.clock 0, run.actor, some taskId, .verificationFailed {
          runId := run.runId
          taskAttempt := run.task.attempt
          stage := stage
          errorType := verificationErrorType error
          start := started
          contractInputsSha256 := run.contractInputsSha256
          capabilityReceipt := run.capabilityReceipt }⟩
        raised := some error }

/-- `TRUSTED_RECEIPT_RESULT_KEYS`. -/
def trustedReceiptResultKeys : List String :=
  ["schema_version", "runner", "task_id", "attempt", "actor", "run_id", "source_commit",
    "verifier_manifest_sha256", "validation_contract_sha256", "receipt_preimage_sha256",
    "source_clean", "source_postcheck_passed", "source_postcheck_error", "isolation_policy",
    "isolation_attested", "isolation_backend", "snapshot", "snapshot_precheck_passed",
    "snapshot_protection", "snapshot_postcheck_passed", "snapshot_postcheck_error",
    "operational_change_count", "operational_paths_sha256", "started_at", "completed_at",
    "gpu_allowed", "cuda_visible_devices", "network_allowed", "network_enforcement",
    "environment_sha256", "sandbox_environment", "sandbox_environment_sha256",
    "max_output_bytes", "validations", "passed", "failure", "receipt_path", "receipt_sha256"]

/-- The checks of the runner result and the attestation of the executor. -/
def attestedResult (result : RunnerResult)
    (attestation : Except CogniError (List (String × Json))) :
    Except CogniError (List (String × Json)) := do
  require ((result.fields.map (·.1)).all (· ∈ trustedReceiptResultKeys) = true ∧
      trustedReceiptResultKeys.all (· ∈ result.fields.map (·.1)) = true)
    ⟨.evidence, "Trusted runner result schema is invalid"⟩
  match result.fields.lookup "validations" with
  | some (.arr _) => attestation
  | _ => .error ⟨.evidence, "Trusted runner validations must be a list"⟩

/-- The verification record of a run whose stages have all passed. -/
def verificationRecord (run : VerifyRun) (now : Utc) (result : RunnerResult)
    (attestation : List (String × Json)) (bundle : Json) : Verification where
  runId := run.runId
  verifiedAt := now
  verifiedBy := run.actor
  decision := run.decision
  note := run.note
  independence := run.independence
  manifestSha256 := run.manifest.sha256
  bundle := bundle
  executorAttestation := attestation
  trustedValidation := result.fields
  verifierIdentity := run.verifierIdentity
  workerManifestSha256 := run.workerManifestSha256
  contractInputsSha256 := run.contractInputsSha256
  capabilityReceipt := run.capabilityReceipt

/-- `verify` from the trusted runner on. -/
def verifyEnd (taskId : String) (runner : Except CogniError RunnerResult)
    (attestation : Except CogniError (List (String × Json))) (archive : Except CogniError Json) :
    Except CogniError Effect := do
  let run ← orRaise (s.verifying taskId) ⟨.other, "no verification in progress"⟩
  match runner with
  | .error e => recordVerificationFailure s c taskId run .trustedRunner e
  | .ok result =>
    match attestedResult result attestation with
    | .error e => recordVerificationFailure s c taskId run .executorAttestation e
    | .ok attestation =>
      match archive with
      | .error e => recordVerificationFailure s c taskId run .archive e
      | .ok bundle =>
        let record := verificationRecord run (c.clock 0) result attestation bundle
        let target := if run.accept then TaskState.verified else .rejected
        match transition (c.clock 1) run.task target fun t =>
            { t with verification := some record } with
        | .error e => recordVerificationFailure s c taskId run .stateTransition e
        | .ok updated =>
            return {
              entry := some ⟨c.clock 2, run.actor, some taskId,
                .decided run.accept record updated⟩
              file := some (taskId, updated) }

/-- `_signed_task_projection`. -/
def signedTaskProjection (taskId : String) (ledger : List Signed) : Except CogniError Task := do
  let snapshot ← orRaise ((lastSnapshotEvent taskId ledger).bind (·.body.task?))
    ⟨.integrity, "Signed task projection is missing or malformed"⟩
  require (snapshot.id = taskId)
    ⟨.integrity, "Signed task projection is missing or malformed"⟩
  return snapshot

/-- `validate_verification_run_id`, with its `ValueError` as a `ConfigurationError`. -/
def validateRunId (runId : String) : Except CogniError Token :=
  if h : Hex.isHex 32 runId = true then .ok ⟨runId, h⟩ else
    .error ⟨.configuration, "Verification run id must be 32 lowercase hexadecimal chars"⟩

/-- The attempt of a started run, a positive integer. -/
def startedAttempt (started : Json) : Except CogniError ℤ :=
  match (payloadOf started).get "task_attempt" with
  | .int n => if 1 ≤ n then .ok n else
      .error ⟨.integrity, "Verification started event has invalid attempt"⟩
  | _ => .error ⟨.integrity, "Verification started event has invalid attempt"⟩

/-- The failure record of an orphan; a run with a terminal event needs none. -/
def reconcileEntry (actor taskId : String) (runId : Token) (started : Json) (attempt : ℤ)
    (receipt : Json) (terminals : List Json) : Except CogniError (Option Entry) :=
  match terminals with
  | [] => .ok (some ⟨c.clock 0, actor, some taskId, .verificationRecovered {
      runId := runId
      taskAttempt := attempt
      start := started
      recoveredBy := actor
      capabilityReceipt := receipt }⟩)
  | terminal :: _ =>
      if terminalAttempt terminal = .int attempt then .ok none else
        .error ⟨.integrity, "Verification terminal attempt differs from started run"⟩

/-- `reconcile_verification`. -/
def reconcileVerification (actor taskId runId : String) : Except CogniError Effect := do
  validateAgentId actor
  require (actor = w.config.orchestrator)
    ⟨.authorization, "Only the accountable orchestrator can reconcile verification"⟩
  validateTaskId taskId
  let token ← validateRunId runId
  s.lockTask taskId
  let ledger ← s.readVerified
  let (started, terminals) ← findRun s taskId runId
  let started ← orRaise started
    ⟨.evidence, "Verification run has no signed started event"⟩
  require (terminals.length ≤ 1)
    ⟨.integrity, "Verification run has more than one terminal event"⟩
  let attempt ← startedAttempt started
  let receipt ← authorize c actor "task.reconcile_verification" (.str taskId) (.str runId)
    (.int attempt)
  let entry ← reconcileEntry c actor taskId token started attempt receipt terminals
  match signedTaskProjection taskId ledger with
  | .error e => return { entry := entry, raised := some e }
  | .ok authoritative =>
      return {
        entry := entry
        file := if s.files.lookup taskId = some authoritative then none
          else some (taskId, authoritative) }

/-- The status that a restatement may set. -/
def restatedStatus (effectiveStatus : String) : Except CogniError RestatedStatus :=
  if effectiveStatus = "verification_disputed" then .ok .disputed
  else if effectiveStatus = "verification_revoked" then .ok .revoked
  else .error ⟨.configuration,
    "Effective verification status must be verification_disputed or verification_revoked"⟩

/-- The restatement that an event makes of the given verification. -/
def restatementOf (target : Ledger.Event) (e : Signed) : Option Restatement :=
  match e.body with
  | .restated r =>
      if r.targetSequence = target.sequence ∧ r.targetHash = target.eventHash then some r else none
  | _ => none

/-- The `task.verified` events of a task. -/
def verifiedEvents (taskId : String) (ledger : List Signed) : List Signed :=
  ledger.filter fun e => e.event.action = "task.verified" ∧ e.event.taskId = some taskId

/-- The verification that a restatement is about. -/
def restatementTarget (taskId : String) (targetSequence : Option ℤ) (ledger : List Signed) :
    Except CogniError Signed :=
  match targetSequence with
  | none => orRaise (verifiedEvents taskId ledger).getLast?
      ⟨.evidence, s!"No task.verified event found for {taskId}"⟩
  | some n => orRaise ((verifiedEvents taskId ledger).find? fun e => (e.event.sequence : ℤ) = n)
      ⟨.evidence, s!"No task.verified event found for {taskId} at sequence {n}"⟩

/-- `restate_verification`. -/
def restateVerification (actor taskId effectiveStatus reason : String)
    (targetSequence : Option ℤ) : Except CogniError Effect := do
  require (actor = w.config.orchestrator)
    ⟨.authorization, "Only the accountable orchestrator can restate verification trust"⟩
  let status ← restatedStatus effectiveStatus
  require (strip reason ≠ "") ⟨.evidence, "Verification restatement reason must be non-empty"⟩
  require (∀ n ∈ targetSequence, 1 ≤ n)
    ⟨.configuration, "Target verification sequence must be a positive integer"⟩
  s.lockTask taskId
  let _ ← s.getTask taskId
  let ledger ← s.readVerified
  let target ← restatementTarget taskId targetSequence ledger
  let task ← orRaise target.body.task?
    ⟨.integrity, "Target verification lacks a valid attempt binding"⟩
  require (1 ≤ task.attempt) ⟨.integrity, "Target verification lacks a valid attempt binding"⟩
  let runId := match task.verification with
    | some v => .str v.runId.text
    | none => .null
  let receipt ← authorize c actor "task.restate_verification" (.str taskId) runId
    (.int task.attempt)
  let entry : Entry := ⟨c.clock 0, actor, some taskId, .restated {
    targetSequence := target.event.sequence
    targetHash := target.event.eventHash
    originalVerifier := target.event.actor
    status := status
    reason := strip reason
    capabilityReceipt := receipt }⟩
  match ledger.reverse.findSome? (restatementOf target.event) with
  | some previous =>
      if previous.status = status ∧ previous.reason = strip reason then return { entry := none }
      else if previous.status = .revoked then
        .error ⟨.transition, "A revoked verification cannot be restored or weakened"⟩
      else return { entry := some entry }
  | none => return { entry := some entry }

/-! ## Steps -/

/-- The effect of a call, without the append's own check of the ledger. -/
def checkedEffect : Except CogniError Effect :=
  match c.op with
  | .addAgent actor a => addAgent w s c actor a
  | .addTask actor a => addTask w s c actor a
  | .claim actor taskId seconds leaseToken sessionId =>
      claim w s c actor taskId seconds leaseToken sessionId
  | .recoverLease actor taskId reason force => recoverLease w s c actor taskId reason force
  | .start actor taskId leaseToken => start w s c actor taskId leaseToken
  | .heartbeat actor taskId leaseToken => heartbeat w s c actor taskId leaseToken
  | .block actor taskId leaseToken reason => block w s c actor taskId leaseToken reason
  | .submit actor taskId leaseToken validated bundle =>
      submit w s c actor taskId leaseToken validated bundle
  | .verifyBegin actor taskId decision note evidence candidates =>
      verifyBegin w s c actor taskId decision note evidence candidates
  | .verifyEnd taskId runner attestation archive => verifyEnd s c taskId runner attestation archive
  | .verifyCrash _ => .error ⟨.other, "crash"⟩
  | .reconcileVerification actor taskId runId => reconcileVerification w s c actor taskId runId
  | .restateVerification actor taskId status reason target =>
      restateVerification w s c actor taskId status reason target

/-- The effect of a call: an append reads and verifies the ledger first. -/
def effect : Except CogniError Effect := do
  let e ← checkedEffect w s c
  require (e.entry.isNone = true ∨ s.Readable) ⟨.integrity, "Malformed ledger JSON"⟩
  return e

/-- The ledger after the event of an effect. -/
def State.append (e : Effect) : State :=
  match e.entry with
  | none => s
  | some entry => { s with ledger := s.ledger ++ [sign w.signer s.ledger entry] }

/-- The files after an effect. -/
def State.replaceFiles (s : State) (e : Effect) : State :=
  { s with
    agents := match e.agent with
      | some agent => s.agents.insert agent.id agent
      | none => s.agents
    files := match e.file with
      | some (id, task) => s.files.insert id task
      | none => s.files
    verifying := match e.verifying with
      | some (id, run) => Function.update s.verifying id (some run)
      | none => s.verifying }

/-- An effect as far as the fault lets it come. -/
def State.apply (e : Effect) (fault : Fault) : State :=
  match fault with
  | .append => s
  | .write => s.append w e
  | .none => (s.append w e).replaceFiles e

/-- The end of `verify` gives the lock of its task back, however it ends. -/
def State.unlock (s : State) (op : Op) : State :=
  match op with
  | .verifyEnd taskId _ _ _ => { s with verifying := Function.update s.verifying taskId none }
  | .verifyCrash taskId => { s with verifying := Function.update s.verifying taskId none }
  | _ => s

/-- The state after a call; one that raises before its event changes nothing. -/
def step : State :=
  (match effect w s c with
  | .ok e => s.apply w e c.fault
  | .error _ => s).unlock c.op

end Operations

end Workspace
