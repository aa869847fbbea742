/-
# Verification runs

The audit of `verification_lifecycle.py` over the events of the ledger, as the JSON
objects that `Ledger.read_verified` returns.
-/
import CogniOS.Util

namespace VerificationLifecycle

/-! ## Reading events -/

/-- `event.get("payload", {})`. -/
def payloadOf (event : Json) : Json := (event.get? "payload").getD (.obj [])

/-- `event.get("action") == action`. -/
def hasAction (event : Json) (action : String) : Bool := event.get "action" == .str action

/-- The actions in `VERIFICATION_TERMINAL_ACTIONS`. -/
def isTerminal (event : Json) : Bool :=
  hasAction event "verification.failed" || hasAction event "task.verified" ||
    hasAction event "task.rejected"

def isStarted (event : Json) : Bool := hasAction event "verification.started"

def isDecided (event : Json) : Bool :=
  hasAction event "task.verified" || hasAction event "task.rejected"

/-- A string that matches `_SHA256_RE` once it is in lower case. -/
def isSha256Text (v : Json) : Bool :=
  match v with
  | .str s => Hex.isHex 64 (String.ofList (s.toList.map Char.toLower))
  | _ => false

/-- A string that matches `_RUN_ID_RE`. -/
def isRunId (v : Json) : Bool :=
  match v with
  | .str s => Hex.isHex 32 s
  | _ => false

def isStr (v : Json) : Bool :=
  match v with
  | .str _ => true
  | _ => false

def isBool (v : Json) : Bool :=
  match v with
  | .bool _ => true
  | _ => false

/-- `isinstance(v, int)`; booleans are integers too. -/
def asInt (v : Json) : Option ℤ :=
  match v with
  | .int n => some n
  | .bool b => some (if b then 1 else 0)
  | _ => none

/-! ## Receipts and bindings -/

/-- What a capability is asked for. -/
structure Scope where
  actor : Json
  operation : String
  taskId : Json
  runId : Json
  taskAttempt : Json

/-- `_receipt_is_bound`. -/
def receiptIsBound (value : Json) (scope : Scope) : Bool :=
  let attestation := value.get "os_principal_attestation"
  value.isObj &&
    value.get "schema_version" == .int 2 &&
    value.get "receipt_type" == .str "actor-capability-consumption" &&
    value.get "actor" == scope.actor &&
    value.get "operation" == .str scope.operation &&
    value.get "task_id" == scope.taskId &&
    value.get "run_id" == scope.runId &&
    value.get "task_attempt" == scope.taskAttempt &&
    (match value.get "nonce_sha256" with
      | .str nonce => Hex.isHex 64 nonce
      | _ => false) &&
    (match value.get "signature" with
      | .str signature => signature != ""
      | _ => false) &&
    attestation.isObj &&
    isBool (value.get "independent_trust_root") &&
    isBool (value.get "actor_os_isolation_proven") &&
    attestation.get "independent_trust_root" == value.get "independent_trust_root" &&
    attestation.get "actor_os_isolation_proven" == value.get "actor_os_isolation_proven"

/-- The scope of the receipt that a run starts with. -/
def startScope (start : Json) : Scope where
  actor := start.get "actor"
  operation := "task.verify"
  taskId := start.get "task_id"
  runId := (payloadOf start).get "run_id"
  taskAttempt := (payloadOf start).get "task_attempt"

/-- What `_verification_binding_reasons` finds in the started event. -/
def startedReasons (start : Json) : List String :=
  let payload := payloadOf start
  let workerManifest := payload.get "worker_manifest_sha256"
  reasonIf (!receiptIsBound (payload.get "capability_receipt") (startScope start))
      "started_capability_receipt_invalid" ++
    reasonIf (!(payload.get "verifier_identity").isObj) "started_verifier_identity_missing" ++
    reasonIf (!isSha256Text (payload.get "verifier_manifest_sha256"))
      "started_verifier_manifest_invalid" ++
    reasonIf (workerManifest != .null && !isSha256Text workerManifest)
      "started_worker_manifest_invalid" ++
    reasonIf (!isSha256Text (payload.get "verification_contract_inputs_sha256"))
      "started_contract_inputs_invalid"

/-- What it finds between the started event and a `task.verified` or `task.rejected`. -/
def decidedReasons (start terminal : Json) : List String :=
  let started := payloadOf start
  let payload := payloadOf terminal
  let verification := (payload.get "task").get "verification"
  reasonIf (terminal.get "actor" != start.get "actor") "terminal_actor_mismatch" ++
    if !verification.isObj then ["terminal_verification_missing"]
    else
      let evidence := verification.get "verifier_evidence"
      let trusted := verification.get "trusted_validation"
      let mismatch (key : String) : Bool :=
        verification.get key != started.get key || payload.get key != started.get key
      reasonIf (mismatch "verifier_identity") "terminal_verifier_identity_mismatch" ++
      (if !evidence.isObj || evidence.get "manifest_sha256" != started.get "verifier_manifest_sha256"
          || payload.get "verifier_evidence" != evidence then
        ["terminal_verifier_manifest_mismatch"]
      else
        reasonIf (!(evidence.get "executor_attestation").isObj)
          "terminal_executor_attestation_missing") ++
      reasonIf (mismatch "worker_manifest_sha256") "terminal_worker_manifest_mismatch" ++
      reasonIf (mismatch "verification_contract_inputs_sha256")
        "terminal_contract_inputs_mismatch" ++
      reasonIf (mismatch "capability_receipt") "terminal_capability_receipt_mismatch" ++
      if payload.get "trusted_validation" != trusted then ["terminal_trusted_contract_mismatch"]
      else
        reasonIf (!trusted.isObj || !isSha256Text (trusted.get "validation_contract_sha256"))
          "terminal_trusted_contract_invalid"

/-- What it finds between the started event and a `verification.failed`. -/
def failedReasons (start terminal : Json) : List String :=
  let started := payloadOf start
  let payload := payloadOf terminal
  let mismatch (key : String) : Bool := payload.get key != started.get key
  (if payload.get "stage" == .str "recovery" then
    reasonIf (payload.get "started_actor" != start.get "actor" ||
        payload.get "started_capability_receipt" != started.get "capability_receipt")
      "recovery_started_binding_mismatch" ++
    reasonIf (!receiptIsBound (payload.get "capability_receipt")
        { startScope start with
          actor := terminal.get "actor"
          operation := "task.reconcile_verification" })
      "recovery_capability_receipt_invalid"
  else
    reasonIf (terminal.get "actor" != start.get "actor") "failed_terminal_actor_mismatch" ++
    reasonIf (mismatch "capability_receipt") "failed_terminal_capability_receipt_mismatch") ++
  reasonIf (mismatch "verifier_identity" || mismatch "verifier_manifest_sha256" ||
      mismatch "worker_manifest_sha256" || mismatch "verification_contract_inputs_sha256")
    "failed_terminal_context_mismatch"

/-- `_verification_binding_reasons`. -/
def verificationBindingReasons (start terminal : Json) : List String :=
  startedReasons start ++
    if isDecided terminal then decidedReasons start terminal
    else if hasAction terminal "verification.failed" then failedReasons start terminal
    else []

/-! ## The audit of all runs -/

/-- An event of the lifecycle protocol; decisions without a run id predate it. -/
def isLifecycle (event : Json) : Bool :=
  (isStarted event || isTerminal event) &&
    !((payloadOf event).get "run_id" == .null && isDecided event)

/-- The started events of one run. -/
def startedOf (runId : String) (events : List Json) : List Json :=
  events.filter fun e => isStarted e && (payloadOf e).get "run_id" == .str runId

/-- The terminal events of one run. -/
def terminalsOf (runId : String) (events : List Json) : List Json :=
  events.filter fun e => isTerminal e && (payloadOf e).get "run_id" == .str runId

/-- The attempt of a terminal event, which a decision has in its task snapshot. -/
def terminalAttempt (terminal : Json) : Json :=
  let payload := payloadOf terminal
  if payload.get "task_attempt" == .null then (payload.get "task").get "attempt"
  else payload.get "task_attempt"

/-- What a decision says about the task of the run. -/
def taskReasons (runId : String) (start terminal : Json) : List String :=
  let task := (payloadOf terminal).get "task"
  let expected := if hasAction terminal "task.verified" then "verified" else "rejected"
  if !task.isObj then ["terminal_task_missing"]
  else
    reasonIf (task.get "id" != start.get "task_id") "terminal_task_snapshot_id_mismatch" ++
    reasonIf (task.get "state" != .str expected) "terminal_task_state_mismatch" ++
    reasonIf (!(task.get "verification").isObj ||
      (task.get "verification").get "run_id" != .str runId) "terminal_task_run_id_mismatch"

/-- The shape of a failure record. -/
def failureReasons (terminal : Json) : List String :=
  let payload := payloadOf terminal
  reasonIf (payload.get "schema_version" != .int 1) "failed_terminal_schema_mismatch" ++
    reasonIf (!isStr (payload.get "stage")) "failed_terminal_stage_missing" ++
    reasonIf (!isStr (payload.get "error_type")) "failed_terminal_error_type_missing"

/-- A terminal event comes after the event that started its run. -/
def isAfter (start terminal : Json) : Bool :=
  match asInt (terminal.get "sequence"), asInt (start.get "sequence") with
  | some n, some m => m < n
  | some n, none => 0 < n
  | none, _ => false

/-- The reasons that a start and a terminal do not belong together. -/
def pairReasons (runId : String) (start terminal : Json) : List String :=
  reasonIf (terminal.get "task_id" != start.get "task_id") "terminal_task_id_mismatch" ++
    reasonIf (!isAfter start terminal) "terminal_not_after_started" ++
    reasonIf (terminalAttempt terminal != (payloadOf start).get "task_attempt")
      "terminal_attempt_mismatch" ++
    (if isDecided terminal then taskReasons runId start terminal
    else if hasAction terminal "verification.failed" then failureReasons terminal
    else []) ++
    verificationBindingReasons start terminal

/-- One entry of `runs`. -/
structure RunRecord where
  runId : String
  taskId : Json
  startedSequence : Json
  terminalSequence : Json
  terminalAction : Json
  reasons : List String
  deriving DecidableEq

/-- `record["valid"]`. -/
def RunRecord.valid (r : RunRecord) : Bool := r.reasons.isEmpty

/-- A field of the only event of a list. -/
def onlyField (events : List Json) (key : String) : Json :=
  match events with
  | [e] => e.get key
  | _ => .null

/-- The record of one run from its started and its terminal events. -/
def runRecord (runId : String) (starts terminals : List Json) : RunRecord where
  runId := runId
  taskId := match starts with
    | [start] => start.get "task_id"
    | _ => onlyField terminals "task_id"
  startedSequence := onlyField starts "sequence"
  terminalSequence := onlyField terminals "sequence"
  terminalAction := onlyField terminals "action"
  reasons :=
    (match starts with
      | [] => ["missing_started"]
      | [_] => []
      | _ => ["duplicate_started"]) ++
    reasonIf (1 < terminals.length) "multiple_terminal_events" ++
    match starts, terminals with
    | [start], [terminal] => pairReasons runId start terminal
    | _, _ => []

/-- One entry of `invalid_events`. -/
structure InvalidEvent where
  sequence : Json
  taskId : Json
  action : Json
  reason : String
  deriving DecidableEq

/-- The result of `audit_verification_runs`. -/
structure RunAudit where
  runs : List RunRecord
  orphanedRuns : List RunRecord
  invalidRuns : List RunRecord
  invalidEvents : List InvalidEvent
  deriving DecidableEq

def RunAudit.valid (a : RunAudit) : Bool :=
  a.invalidEvents.isEmpty && a.invalidRuns.isEmpty && a.orphanedRuns.isEmpty

/-- The run ids of the protocol's events, each once and in order. -/
def runIds (events : List Json) : List String :=
  ((events.filter isLifecycle).filterMap fun e =>
    match (payloadOf e).get "run_id" with
    | .str s => if Hex.isHex 32 s then some s else none
    | _ => none).dedup.mergeSort fun a b => decide (a ≤ b)

/-- A run with its one start and no terminal event. -/
def isOrphan (events : List Json) (r : RunRecord) : Bool :=
  (startedOf r.runId events).length == 1 && (terminalsOf r.runId events).isEmpty && r.valid

/-- `audit_verification_runs`. -/
def auditVerificationRuns (events : List Json) : RunAudit :=
  let runs := (runIds events).map fun id =>
    runRecord id (startedOf id events) (terminalsOf id events)
  { runs := runs
    orphanedRuns := runs.filter (isOrphan events)
    invalidRuns := runs.filter fun r => !r.valid
    invalidEvents := ((events.filter isLifecycle).filter fun e =>
      !isRunId ((payloadOf e).get "run_id")).map fun e =>
        ⟨e.get "sequence", e.get "task_id", e.get "action", "invalid_run_id"⟩ }

/-! ## One run -/

/-- `find_verification_run`: the start and the terminal events of one run. -/
def findVerificationRun (events : List Json) (taskId runId : String) :
    Except CogniError (Option Json × List Json) := do
  let starts := startedOf runId events
  let terminals := terminalsOf runId events
  require ((starts ++ terminals).all fun e => e.get "task_id" == .str taskId)
    ⟨.other, "Verification run id is bound to a different task"⟩
  require (starts.length ≤ 1) ⟨.other, "Verification run has duplicate started events"⟩
  let reasons := match starts, terminals with
    | [start], [terminal] => verificationBindingReasons start terminal
    | _, _ => []
  require (reasons = []) ⟨.other,
    "Verification run start/terminal binding is invalid: " ++ ", ".intercalate reasons⟩
  return (starts.head?, terminals)

end VerificationLifecycle
