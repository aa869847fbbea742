/-
# The broker lease of the trusted runner

`run_trusted_validations` of `trusted_runner.py`, with the lease of the snapshot broker that it
holds: `_BrokerLeaseGuard`, `BrokerLease` and the release of `SnapshotBrokerClient`.  What Git, the
sandbox, the files and the broker do is a parameter, and each of these steps may raise.

* `trustedReceiptPreimageSha256` : the hash that the broker signs with the cleanup;
* `runTrustedValidations` : the run, where the `finally` of the guard comes last;
* `lease_discipline` : one hash is released, at least once, and a receipt is returned only with it.
-/
import CogniOS.StateProgram
import CogniOS.BrokerFrames
import CogniOS.VerifierProtocol

namespace TrustedRunner

open StateProgram

/-- An `EvidenceError`. -/
def error (message : String) : CogniError := ⟨.evidence, message⟩

/-- A `KeyError` of a document. -/
def missing (key : String) : CogniError := ⟨.other, key⟩

/-! ## Hashes of the receipt -/

/-- `TRUSTED_RUNNER_ID`. -/
def trustedRunnerId : String := "cogni-os-trusted-runner-v3"

/-- `TRUSTED_RECEIPT_DOCUMENT_KEYS` in key order. -/
def trustedReceiptDocumentKeys : List String :=
  ["actor", "attempt", "completed_at", "cuda_visible_devices", "environment_sha256", "failure",
    "gpu_allowed", "isolation_attested", "isolation_backend", "isolation_policy",
    "max_output_bytes", "network_allowed", "network_enforcement", "operational_change_count",
    "operational_paths_sha256", "passed", "receipt_preimage_sha256", "run_id", "runner",
    "sandbox_environment", "sandbox_environment_sha256", "schema_version", "snapshot",
    "snapshot_postcheck_error", "snapshot_postcheck_passed", "snapshot_precheck_passed",
    "snapshot_protection", "source_clean", "source_commit", "source_postcheck_error",
    "source_postcheck_passed", "started_at", "task_id", "validation_contract_sha256",
    "validations", "verifier_manifest_sha256"]

/-- The protection of the snapshot without the cleanup of the broker. -/
def withoutCleanup : Json → Json
  | .obj fields => .obj (Json.setField "cleanup_attestation" .null fields)
  | value => value

/-- The fields that the preimage has. -/
def isCommitted (p : String × Json) : Bool :=
  p.1 ∈ trustedReceiptDocumentKeys ∧ p.1 ≠ "receipt_preimage_sha256"

/-- A field as the preimage has it. -/
def committed (p : String × Json) : String × Json :=
  if p.1 = "snapshot_protection" then (p.1, withoutCleanup p.2) else p

/-- The receipt of the preimage. -/
def preimageFields (fields : List (String × Json)) : List (String × Json) :=
  (fields.filter isCommitted).map committed

/-- `trusted_receipt_preimage_sha256` of a document with these fields. -/
def trustedReceiptPreimageSha256 (h : Hasher) (fields : List (String × Json)) : String :=
  h.hexdigest (Json.obj [("domain", .str "cogni-os-trusted-receipt-preimage-v1"),
    ("receipt", .obj (preimageFields fields))]).encoding

/-- One validation of the contract: the hash of the output is nested, or a field of its own. -/
def contractValidation (validation : Json) : Json :=
  .obj [("command_argv", validation.get "command_argv"),
    ("exit_code", validation.get "exit_code"),
    ("raw_output_sha256",
      if (validation.get "raw_output").isObj then (validation.get "raw_output").get "sha256"
      else validation.get "raw_output_sha256")]

/-- The arguments of `run_trusted_validations` that the receipt names. -/
structure Arguments where
  taskId : String
  attempt : ℤ
  actor : String
  runId : String
  gpuAllowed : Bool
  networkAllowed : Bool
  timeoutSeconds : ℤ
  validations : List Json

/-- `validation_contract_sha256`. -/
def validationContractSha256 (h : Hasher) (arguments : Arguments)
    (sourceCommit sourceTree snapshotSha256 : Json) (manifestSha256 : String) : String :=
  h.hexdigest (Json.obj [("actor", .str arguments.actor), ("attempt", .int arguments.attempt),
    ("gpu_allowed", .bool arguments.gpuAllowed),
    ("network_allowed", .bool arguments.networkAllowed), ("runner", .str trustedRunnerId),
    ("schema_version", .int 3), ("snapshot_sha256", snapshotSha256),
    ("source_commit", sourceCommit), ("source_tree", sourceTree),
    ("task_id", .str arguments.taskId),
    ("validations", .arr (arguments.validations.map contractValidation)),
    ("verifier_manifest_sha256", .str manifestSha256)]).encoding

/-! ## The lease -/

/-- What the broker has granted. -/
structure Acquired where
  leaseId : String
  snapshot : Json
  acquireAttestation : Json
  acquireAttestationSha256 : String
  taskId : String
  attempt : ℤ
  actor : String
  runId : String
  validationContractSha256 : String

/-- `BrokerLease`. -/
structure Lease extends Acquired where
  /-- The descriptor of the snapshot is open. -/
  descriptorOpen : Bool
  released : Bool
  releaseStarted : Bool
  releaseRequest : Option Json

/-- The lease that `acquire` returns. -/
def Acquired.lease (a : Acquired) : Lease :=
  { a with
    descriptorOpen := true
    released := false
    releaseStarted := false
    releaseRequest := none }

/-- What becomes of a request. -/
inductive Exchange
  /-- There is no connection, and nothing is sent. -/
  | unsent (e : CogniError)
  /-- The request goes out, and its response does not come. -/
  | lost (e : CogniError)
  | answered (response : Json)

/-- What one call of `BrokerLease.release` meets. -/
structure Attempt where
  /-- `os.close` of the descriptor. -/
  closing : Except CogniError Unit
  /-- The reading of the clock and the random texts of a new request. -/
  now : ℤ
  requestId : String
  nonce : String
  /-- The second reading, in `validate_request`. -/
  checkedAt : ℤ
  exchange : Exchange
  /-- The manifest hash of `runtime_binding`, once the preflight has set it. -/
  runtimeManifestSha256 : Option Json

/-- What the broker client relies on. -/
structure Client where
  hasher : Hasher
  /-- What the `n`-th call meets. -/
  meets : ℕ → Attempt
  /-- The key binding and the Ed25519 check of `verify_signed_envelope`. -/
  verifies : Json → Except CogniError Unit
  /-- `os.close` of a leaked descriptor. -/
  closing : Except CogniError Unit
  /-- `str` of a value. -/
  text : Json → String

/-- The guard with its lease, and what was asked for and sent so far. -/
structure World where
  lease : Option Lease
  attempted : Bool
  receiptPreimageSha256 : Option String
  /-- The hashes with which `BrokerLease.release` was called. -/
  calls : List String
  /-- The release requests that went to the broker. -/
  sent : List Json
  /-- The receipts that were written. -/
  receipts : List Json

/-- A step of the runner. -/
abbrev Runner (α : Type) : Type := Program World CogniError α

/-- Change the lease. -/
def setLease (f : Lease → Lease) : Runner Unit :=
  Program.modify fun w => { w with lease := w.lease.map f }

/-- `ERROR_RESPONSE_KEYS` in key order. -/
def errorResponseKeys : List String :=
  ["error_code", "message", "ok", "operation", "protocol_id", "request_id", "schema_version"]

/-- `RELEASE_RESPONSE_KEYS` in key order. -/
def releaseResponseKeys : List String :=
  ["cleanup_attestation", "ok", "operation", "protocol_id", "request_id", "schema_version"]

/-- The request of a release, as `_request` builds it. -/
def buildRequest (attempt : Attempt) (lease : Lease) (receiptPreimageSha256 : String) :
    Except CogniError Json := do
  let request := Json.obj [("acquire_attestation_sha256", .str lease.acquireAttestationSha256),
    ("actor", .str lease.actor), ("attempt", .int lease.attempt),
    ("expires_at", .int (attempt.now + 60)), ("issued_at", .int attempt.now),
    ("lease_id", .str lease.leaseId), ("nonce", .str attempt.nonce), ("operation", .str "release"),
    ("protocol_id", .str SnapshotBroker.protocolId),
    ("receipt_preimage_sha256", .str receiptPreimageSha256), ("request_id", .str attempt.requestId),
    ("run_id", .str lease.runId), ("schema_version", .int SnapshotBroker.schemaVersion),
    ("task_id", .str lease.taskId),
    ("validation_contract_sha256", .str lease.validationContractSha256)]
  let _ ← SnapshotBroker.validateRequest attempt.checkedAt request
  .ok request

/-- The checks of a response to a release. -/
def checkResponse (client : Client) (attempt : Attempt) (lease : Lease)
    (receiptPreimageSha256 : String) (request response : Json) : Except CogniError Json := do
  require (response.get "ok" = .bool true ∨ response.keys = errorResponseKeys)
    (error "Snapshot broker cleanup error schema is not exact")
  require (response.get "ok" = .bool true)
    (error ("Snapshot broker refused cleanup: " ++ client.text (response.get "message")))
  require (response.keys = releaseResponseKeys ∧
      (response.get "schema_version").equalsInt SnapshotBroker.schemaVersion = true ∧
      response.get "protocol_id" = .str SnapshotBroker.protocolId ∧
      response.get "operation" = .str "release" ∧
      response.get "request_id" = request.get "request_id")
    (error "Snapshot broker cleanup response schema is not exact")
  let cleanup := response.get "cleanup_attestation"
  let payload ← SnapshotBroker.validateSignedEnvelope cleanup .cleaned
  client.verifies cleanup
  let runtimeManifestSha256 ← orRaise attempt.runtimeManifestSha256
    (error "Snapshot broker runtime provenance was not checked")
  let requestSha256 ← SnapshotBroker.canonicalJsonSha256 client.hasher request
  let acquirePayload := lease.acquireAttestation.get "payload"
  require (payload.get "request_sha256" = .str requestSha256 ∧
      payload.get "request_nonce" = request.get "nonce" ∧
      payload.get "lease_id" = .str lease.leaseId ∧
      payload.get "acquire_attestation_sha256" = .str lease.acquireAttestationSha256 ∧
      (payload.get "snapshot_sha256").equals (lease.snapshot.get "sha256") = true ∧
      (payload.get "snapshot_device").equals (acquirePayload.get "snapshot_device") = true ∧
      (payload.get "snapshot_inode").equals (acquirePayload.get "snapshot_inode") = true ∧
      payload.get "task_id" = .str lease.taskId ∧
      (payload.get "attempt").equalsInt lease.attempt = true ∧
      payload.get "actor" = .str lease.actor ∧ payload.get "run_id" = .str lease.runId ∧
      payload.get "validation_contract_sha256" = .str lease.validationContractSha256 ∧
      payload.get "receipt_preimage_sha256" = .str receiptPreimageSha256 ∧
      (payload.get "broker_runtime_manifest_sha256").equals runtimeManifestSha256 = true ∧
      payload.get "namespace_removed" = .bool true)
    (error "Snapshot broker cleanup proof does not match the lease")
  .ok cleanup

/-- The request of the lease, which its first release builds. -/
def requestOf (attempt : Attempt) (lease : Lease) (receiptPreimageSha256 : String) :
    Runner Json :=
  match lease.releaseRequest with
  | some request => pure request
  | none => do
      let request ← buildRequest attempt lease receiptPreimageSha256
      setLease fun lease => { lease with releaseRequest := some request }
      pure request

/-- Send a request and wait for its response. -/
def send (attempt : Attempt) (request : Json) : Runner Json :=
  match attempt.exchange with
  | .unsent e => Except.error (α := Json) e
  | .lost e => do
      Program.modify fun w => { w with sent := w.sent ++ [request] }
      Except.error (α := Json) e
  | .answered response => do
      Program.modify fun w => { w with sent := w.sent ++ [request] }
      pure response

/-- `SnapshotBrokerClient.release`. -/
def clientRelease (client : Client) (attempt : Attempt) (lease : Lease)
    (receiptPreimageSha256 : String) : Runner Json := do
  let request ← requestOf attempt lease receiptPreimageSha256
  require (request.get "receipt_preimage_sha256" = .str receiptPreimageSha256)
    (error "Snapshot broker cleanup retry changed the receipt preimage")
  let response ← send attempt request
  checkResponse client attempt lease receiptPreimageSha256 request response

/-- The descriptor is closed before the first request. -/
def startRelease (attempt : Attempt) (lease : Lease) : Runner Unit :=
  if lease.releaseStarted then pure ()
  else do
    require (lease.descriptorOpen = true) (error "Snapshot broker lease descriptor is closed")
    attempt.closing
    setLease fun lease => { lease with descriptorOpen := false, releaseStarted := true }

/-- `BrokerLease.release`. -/
def leaseRelease (client : Client) (lease : Lease) (receiptPreimageSha256 : String) :
    Runner Json := do
  let w ← Program.get
  Program.modify fun w => { w with calls := w.calls ++ [receiptPreimageSha256] }
  require (lease.released = false) (error "Snapshot broker lease was already released")
  startRelease (client.meets w.calls.length) lease
  let cleanup ← clientRelease client (client.meets w.calls.length) lease receiptPreimageSha256
  setLease fun lease => { lease with released := true }
  pure cleanup

/-- `close_without_claiming_cleanup`. -/
def closeWithoutClaimingCleanup (client : Client) : Runner Unit := do
  let w ← Program.get
  if w.lease.any (·.descriptorOpen) then do
    client.closing
    setLease fun lease => { lease with descriptorOpen := false }
  else pure ()

/-! ## The guard -/

/-- `_BrokerLeaseGuard.attach`. -/
def attach (lease : Lease) : Runner Unit := do
  let w ← Program.get
  require (w.lease.isNone = true)
    (error "Trusted verifier acquired more than one broker lease")
  Program.modify fun w => { w with lease := some lease }

/-- The guard remembers the hash of its first release. -/
def remember (receiptPreimageSha256 : String) : Runner Unit :=
  Program.modify fun w =>
    { w with attempted := true, receiptPreimageSha256 := some receiptPreimageSha256 }

/-- `_BrokerLeaseGuard.release`. -/
def guardRelease (client : Client) (receiptPreimageSha256 : String) : Runner Json := do
  let w ← Program.get
  let lease ← orRaise w.lease (error "Trusted verifier broker cleanup lifecycle is invalid")
  if w.attempted then do
    require (w.receiptPreimageSha256 = some receiptPreimageSha256 ∧ lease.released = false)
      (error "Trusted verifier broker cleanup lifecycle is invalid")
    leaseRelease client lease receiptPreimageSha256
  else do
    remember receiptPreimageSha256
    leaseRelease client lease receiptPreimageSha256

/-- A character as `ensure_ascii=True` writes it. -/
def asciiChar (c : Char) : List Char :=
  let digits := fun n : ℕ => ['\\', 'u', Nat.digitChar (n / 4096 % 16),
    Nat.digitChar (n / 256 % 16), Nat.digitChar (n / 16 % 16), Nat.digitChar (n % 16)]
  if c.toNat < 0x7f then [c]
  else if c.toNat < 0x10000 then digits c.toNat
  else digits (0xd800 + (c.toNat - 0x10000) / 1024) ++ digits (0xdc00 + (c.toNat - 0x10000) % 1024)

/-- The hash that an aborted run releases its lease with. -/
def abortHash (h : Hasher) (lease : Lease) : String :=
  h.hexdigest (Utf8.encode (((Json.obj
    [("acquire_attestation_sha256", .str lease.acquireAttestationSha256),
      ("actor", .str lease.actor), ("attempt", .int lease.attempt),
      ("domain", .str "cogni-os-trusted-receipt-abort-v1"), ("run_id", .str lease.runId),
      ("task_id", .str lease.taskId),
      ("validation_contract_sha256", .str lease.validationContractSha256)]).dumps 0).flatMap
        asciiChar))

/-- A release whose failure is not told. -/
def releaseQuietly (client : Client) (release : Runner Json) : Runner Unit :=
  Program.tryCatch (do let _ ← release; pure ()) fun _ => closeWithoutClaimingCleanup client

/-- `_BrokerLeaseGuard.cleanup_after_abort`. -/
def cleanupAfterAbort (client : Client) : Runner Unit := do
  let w ← Program.get
  match w.lease with
  | none => pure ()
  | some lease =>
      if w.attempted = false then do
        remember (abortHash client.hasher lease)
        releaseQuietly client (leaseRelease client lease (abortHash client.hasher lease))
      else if lease.released = false then
        releaseQuietly client do
          let receiptPreimageSha256 ← orRaise w.receiptPreimageSha256
            (error "Trusted verifier cleanup retry lost its receipt binding")
          leaseRelease client lease receiptPreimageSha256
      else pure ()

/-! ## The run -/

/-- What is known of a run before the lease is acquired. -/
structure Prepared where
  arguments : Arguments
  /-- `_source_state`. -/
  source : Json
  verifierManifestSha256 : String
  isolationBackend : Json
  startedAt : String

/-- The environments of the sandbox. -/
structure Environments where
  cudaVisibleDevices : Json
  environmentSha256 : String
  sandboxEnvironment : Json
  sandboxEnvironmentSha256 : String

/-- What one validation has left. -/
structure Execution where
  isolationLaunchArgv : Json
  startedAt : String
  completedAt : String
  durationMs : Json
  timedOut : Bool
  outputTruncated : Bool
  exitCode : Option ℤ
  startError : Option String
  outputPath : String
  outputSha256 : String
  outputSizeBytes : ℤ
  executableSha256After : Option String

/-- What the steps of a run find; each of them may raise. -/
structure Stages where
  /-- Everything before the acquisition: the checks of the arguments, the source state, the
  isolation backend and the directory of the run. -/
  prepared : Except CogniError Prepared
  /-- There is a broker client. -/
  brokered : Bool
  /-- `_materialize_committed_snapshot`. -/
  materialized : Except CogniError Json
  /-- `SnapshotBrokerClient.acquire`. -/
  acquired : Except CogniError Acquired
  /-- The removal of the materialized source, once the lease is there. -/
  sourceRemoved : Except CogniError Unit
  /-- `_committed_snapshot_postcheck` before the validations. -/
  precheck : Except CogniError Json
  /-- `_require_broker_protected_snapshot`. -/
  directProtection : Except CogniError Json
  /-- `_validate_command_argv` of every validation. -/
  policies : Except CogniError (ℕ → Json)
  environments : Except CogniError Environments
  execution : ℕ → Except CogniError Execution
  sourcePostcheck : Except CogniError Unit
  snapshotPostcheck : Except CogniError Json
  /-- `_remove_committed_snapshot` of a direct materialization. -/
  snapshotRemoved : Except CogniError Unit
  completedAt : String
  /-- `atomic_write_json` of the receipt. -/
  written : Except CogniError String
  /-- `sha256_file` of the receipt. -/
  receiptSha256 : Except CogniError String

/-- An optional text. -/
def optText : Option String → Json
  | some s => .str s
  | none => .null

/-- An exit code that may be missing. -/
def optCode : Option ℤ → Json
  | some n => .int n
  | none => .null

def codeText : Option ℤ → String
  | some n => String.ofList (JsonNumber.intText n)
  | none => "None"

def indexText (index : ℕ) : String := String.ofList (Nat.toDigits 10 index)

/-- The entry of a validation in the receipt. -/
def receiptEntry (index : ℕ) (timeoutSeconds : ℤ) (validation policy : Json) (x : Execution) :
    Json :=
  .obj [("command_argv", validation.get "command_argv"), ("command_policy", policy),
    ("completed_at", .str x.completedAt), ("duration_ms", x.durationMs),
    ("executable_sha256_after", optText x.executableSha256After),
    ("executed_argv", policy.get "executed_argv"), ("exit_code", optCode x.exitCode),
    ("index", .int index), ("isolation_launch_argv", x.isolationLaunchArgv),
    ("output_path", .str x.outputPath), ("output_sha256", .str x.outputSha256),
    ("output_size_bytes", .int x.outputSizeBytes), ("output_truncated", .bool x.outputTruncated),
    ("started_at", .str x.startedAt), ("timed_out", .bool x.timedOut),
    ("timeout_seconds", .int timeoutSeconds)]

/-- The failure of a validation. -/
def failureOf (index : ℕ) (validation policy : Json) (x : Execution) :
    Except CogniError (Option String) :=
  if x.startError.any (· ≠ "") then
    .ok (some ("Trusted verifier command could not start: " ++ x.startError.getD ""))
  else if x.timedOut then
    .ok (some ("Trusted verifier validation " ++ indexText index ++ " timed out"))
  else if x.outputTruncated then
    .ok (some ("Trusted verifier validation " ++ indexText index ++
      " exceeded the 4194304-byte output limit"))
  else if optText x.executableSha256After ≠ policy.get "executable_sha256" then
    .ok (some ("Trusted verifier executable changed during validation " ++ indexText index))
  else if x.exitCode ≠ some 0 then
    .ok (some ("Trusted verifier validation " ++ indexText index ++ " failed with exit code " ++
      codeText x.exitCode))
  else if (optCode x.exitCode).equals (validation.get "exit_code") = false then
    .ok (some ("Trusted verifier validation " ++ indexText index ++ " exit code was forged"))
  else do
    let rawOutput ← orRaise (validation.get? "raw_output") (missing "raw_output")
    let sha256 ← orRaise (rawOutput.get? "sha256") (missing "sha256")
    .ok (if .str x.outputSha256 = sha256 then none
      else some ("Trusted verifier validation " ++ indexText index ++ " output was forged"))

/-- The validations from an index on, as far as the first failure. -/
def runValidations (stages : Stages) (policies : ℕ → Json) (timeoutSeconds : ℤ) :
    ℕ → List Json → Except CogniError (List Json × Option String)
  | _, [] => .ok ([], none)
  | index, validation :: rest => do
      let x ← stages.execution index
      let failure ← failureOf index validation (policies index) x
      let entry := receiptEntry index timeoutSeconds validation (policies index) x
      match failure with
      | some text => .ok ([entry], some text)
      | none => do
          let results ← runValidations stages policies timeoutSeconds (index + 1) rest
          .ok (entry :: results.1, results.2)

/-- `except EvidenceError`: the message, where the exception is of this kind. -/
def caught {α : Type} : Except CogniError α → Except CogniError (Except String α)
  | .ok a => .ok (.ok a)
  | .error e => if e.kind = .evidence then .ok (.error e.message) else .error e

/-- The error of the source after the validations. -/
def sourceError (stages : Stages) : Except CogniError (Option String) := do
  let outcome ← caught stages.sourcePostcheck
  match outcome with
  | .ok () => .ok none
  | .error message => .ok (some ("Trusted verifier source postcheck failed: " ++ message))

/-- The error of the snapshot after the validations. -/
def snapshotError (stages : Stages) (snapshot : Json) : Except CogniError (Option String) := do
  let outcome ← caught stages.snapshotPostcheck
  match outcome with
  | .ok completed =>
      .ok (if completed.equals snapshot then none else
        some "Trusted verifier committed sandbox snapshot changed during validation")
  | .error message =>
      .ok (some ("Trusted verifier sandbox snapshot postcheck failed: " ++ message))

/-- `SNAPSHOT_PROTECTION_POLICY_ID` and the rest of the protection that the broker gives. -/
def brokerProtection (lease : Lease) : List (String × Json) :=
  let payload := lease.acquireAttestation.get "payload"
  [("acquire_attestation", lease.acquireAttestation),
    ("acquire_attestation_sha256", .str lease.acquireAttestationSha256),
    ("actor_write_access", .bool false), ("broker", .str "external-privileged-fd-lease"),
    ("cleanup_attestation", .null), ("descriptor_type", payload.get "descriptor_type"),
    ("links_rejected", .bool true), ("owner_uid", payload.get "snapshot_owner_uid"),
    ("platform", .str "linux"), ("policy_id", .str "cogni-os-root-broker-snapshot-v1"),
    ("proof", .str "root-signed-snapshot-provenance-and-cleanup-only"),
    ("runner_euid", payload.get "caller_uid"), ("snapshot_device", payload.get "snapshot_device"),
    ("snapshot_inode", payload.get "snapshot_inode")]

/-- The removal of a direct materialization, which can be the failure of the run. -/
def removalFailure (stages : Stages) (lease : Option Lease) (snapshotFailed : Option String)
    (failure : Option String) : Except CogniError (Option String) :=
  if lease.isNone ∧ snapshotFailed = none then
    match stages.snapshotRemoved with
    | .ok () => .ok failure
    | .error e =>
        if e.kind ∈ [ErrorKind.evidence, ErrorKind.os] then
          .ok (failure <|> some ("Trusted verifier sandbox cleanup failed: " ++ e.message))
        else .error e
  else .ok failure

/-- The protection of a snapshot that no broker holds. -/
def directProtectionOf (stages : Stages) (lease : Option Lease) : Except CogniError Json :=
  if lease.isNone then stages.directProtection else .ok .null

/-- What a run has found before the release. -/
structure Findings where
  snapshot : Json
  contractSha256 : String
  direct : Json
  environments : Environments
  entries : List Json
  sourceFailed : Option String
  snapshotFailed : Option String
  failure : Option String

/-- The part of the run between the acquisition and the release. -/
def execute (h : Hasher) (stages : Stages) (prepared : Prepared) (materialized : Json)
    (lease : Option Lease) : Except CogniError Findings := do
  let snapshot := (lease.map (·.snapshot)).getD materialized
  let precheck ← stages.precheck
  require (precheck.equals snapshot = true)
    (error "Trusted verifier pinned snapshot does not match its Git object manifest")
  let contractSha256 := validationContractSha256 h prepared.arguments
    (prepared.source.get "commit") (materialized.get "tree_oid") (materialized.get "sha256")
    prepared.verifierManifestSha256
  let direct ← directProtectionOf stages lease
  let policies ← stages.policies
  let environments ← stages.environments
  let results ← runValidations stages policies prepared.arguments.timeoutSeconds 0
    prepared.arguments.validations
  let sourceFailed ← sourceError stages
  let snapshotFailed ← snapshotError stages snapshot
  let failure ← removalFailure stages lease snapshotFailed
    (results.2 <|> sourceFailed <|> snapshotFailed)
  .ok
    { snapshot, contractSha256, direct, environments, entries := results.1, sourceFailed,
      snapshotFailed, failure }

/-- The protection of the snapshot of a run. -/
def protectionOf (lease : Option Lease) (direct : Json) : Json :=
  match lease with
  | some lease => .obj (brokerProtection lease)
  | none => direct

/-- The receipt before its preimage is hashed. -/
def receiptFields (stages : Stages) (prepared : Prepared) (lease : Option Lease) (f : Findings) :
    List (String × Json) :=
  [("actor", .str prepared.arguments.actor), ("attempt", .int prepared.arguments.attempt),
    ("completed_at", .str stages.completedAt),
    ("cuda_visible_devices", f.environments.cudaVisibleDevices),
    ("environment_sha256", .str f.environments.environmentSha256),
    ("failure", optText f.failure), ("gpu_allowed", .bool prepared.arguments.gpuAllowed),
    ("isolation_attested", .bool true), ("isolation_backend", prepared.isolationBackend),
    ("isolation_policy", .str "cogni-os-deny-by-default-v2"), ("max_output_bytes", .int 4194304),
    ("network_allowed", .bool prepared.arguments.networkAllowed),
    ("network_enforcement", prepared.isolationBackend.get "network_enforcement"),
    ("operational_change_count", prepared.source.get "operational_change_count"),
    ("operational_paths_sha256", prepared.source.get "operational_paths_sha256"),
    ("passed", .bool (f.failure = none ∧
      f.entries.length = prepared.arguments.validations.length)),
    ("receipt_preimage_sha256", .str ""), ("run_id", .str prepared.arguments.runId),
    ("runner", .str trustedRunnerId), ("sandbox_environment", f.environments.sandboxEnvironment),
    ("sandbox_environment_sha256", .str f.environments.sandboxEnvironmentSha256),
    ("schema_version", .int 3), ("snapshot", f.snapshot),
    ("snapshot_postcheck_error", optText f.snapshotFailed),
    ("snapshot_postcheck_passed", .bool (f.snapshotFailed = none)),
    ("snapshot_precheck_passed", .bool true),
    ("snapshot_protection", protectionOf lease f.direct),
    ("source_clean", prepared.source.get "source_clean"),
    ("source_commit", prepared.source.get "commit"),
    ("source_postcheck_error", optText f.sourceFailed),
    ("source_postcheck_passed", .bool (f.sourceFailed = none)),
    ("started_at", .str prepared.startedAt), ("task_id", .str prepared.arguments.taskId),
    ("validation_contract_sha256", .str f.contractSha256), ("validations", .arr f.entries),
    ("verifier_manifest_sha256", .str prepared.verifierManifestSha256)]

/-- The receipt document as it is changed, and the failure so far. -/
structure Receipt where
  fields : List (String × Json)
  failure : Option String

/-- The acquisition; the materialized source is removed in either case. -/
def acquire (stages : Stages) : Runner (Option Lease) :=
  if stages.brokered then
    Program.andFinally
      (do
        let acquired ← stages.acquired
        attach acquired.lease
        pure (some acquired.lease))
      stages.sourceRemoved
  else pure none

/-- The receipt with the hash of its preimage. -/
def withPreimage (preimageSha256 : String) (x : Receipt) : Receipt :=
  { x with fields := Json.setField "receipt_preimage_sha256" (.str preimageSha256) x.fields }

/-- `snapshot_protection["cleanup_attestation"] = cleanup`, inside the receipt. -/
def withCleanup (lease : Lease) (cleanup : Json) (x : Receipt) : Receipt :=
  let protection := Json.obj (Json.setField "cleanup_attestation" cleanup (brokerProtection lease))
  { x with fields := Json.setField "snapshot_protection" protection x.fields }

/-- The receipt of a run whose release has failed. -/
def withFailure (message : String) (x : Receipt) : Receipt :=
  let failure := x.failure <|> some ("Trusted verifier broker cleanup failed: " ++ message)
  { fields := Json.setField "failure" (optText failure)
      (Json.setField "passed" (.bool false) x.fields)
    failure }

/-- The release of the lease, where there is one. -/
def settle (client : Client) (lease : Option Lease) (preimageSha256 : String) (x : Receipt) :
    Runner Receipt :=
  match lease with
  | none => pure x
  | some lease =>
      Program.tryCatch
        (do
          let cleanup ← guardRelease client preimageSha256
          pure (withCleanup lease cleanup x))
        fun e => if e.kind = .evidence then pure (withFailure e.message x)
          else Except.error (α := Receipt) e

/-- The receipt goes to `receipt.json`. -/
def writeReceipt (document : Json) : Runner Unit :=
  Program.modify fun w => { w with receipts := w.receipts ++ [document] }

/-- `_run_trusted_validations_impl`. -/
def runImpl (client : Client) (stages : Stages) : Runner Json := do
  let prepared ← stages.prepared
  let materialized ← stages.materialized
  let lease ← acquire stages
  let findings ← execute client.hasher stages prepared materialized lease
  let fields := receiptFields stages prepared lease findings
  let preimageSha256 := trustedReceiptPreimageSha256 client.hasher fields
  let settled ← settle client lease preimageSha256
    (withPreimage preimageSha256 ⟨fields, findings.failure⟩)
  writeReceipt (.obj settled.fields)
  let path ← stages.written
  let receiptSha256 ← stages.receiptSha256
  match settled.failure with
  | some failure => Except.error (α := Json) (error (failure ++ "; receipt=" ++ receiptSha256))
  | none =>
      pure (.obj (Json.setField "receipt_sha256" (.str receiptSha256)
        (Json.setField "receipt_path" (.str path) settled.fields)))

/-- `run_trusted_validations`. -/
def runTrustedValidations (client : Client) (stages : Stages) : Runner Json :=
  (runImpl client stages).andFinally (cleanupAfterAbort client)

/-- The guard at the start of a run. -/
def freshWorld : World where
  lease := none
  attempted := false
  receiptPreimageSha256 := none
  calls := []
  sent := []
  receipts := []

/-! ## The release of a lease -/

/-- The release is bound to a hash: every call has it, and so has the one request that is sent. -/
structure Bound (a : Acquired) (hash : String) (rs : List Json) (w : World) : Prop where
  lease : ∃ lease, w.lease = some lease ∧ lease.toAcquired = a ∧
    (∀ r ∈ w.sent, lease.releaseRequest = some r) ∧
    ∀ r, lease.releaseRequest = some r → r.get "receipt_preimage_sha256" = .str hash
  attempted : w.attempted = true
  remembered : w.receiptPreimageSha256 = some hash
  calls : ∀ c ∈ w.calls, c = hash
  receipts : w.receipts = rs

/-- A release was called. -/
def Tried (a : Acquired) (hash : String) (rs : List Json) (w : World) : Prop :=
  Bound a hash rs w ∧ w.calls ≠ []

/-- A release was called, and the request of the lease is this one. -/
def Requests (a : Acquired) (hash : String) (rs : List Json) (request : Option Json) (w : World) :
    Prop :=
  Tried a hash rs w ∧ ∃ lease, w.lease = some lease ∧ lease.releaseRequest = request

/-- What the broker has signed for a lease and a hash. -/
structure Attests (client : Client) (a : Acquired) (hash : String) (cleanup : Json) : Prop where
  verified : client.verifies cleanup = .ok ()
  leaseId : (cleanup.get "payload").get "lease_id" = .str a.leaseId
  receiptPreimageSha256 : (cleanup.get "payload").get "receipt_preimage_sha256" = .str hash
  namespaceRemoved : (cleanup.get "payload").get "namespace_removed" = .bool true

/-- The lease is released with this hash. -/
def Released (client : Client) (a : Acquired) (hash : String) (rs : List Json) (cleanup : Json)
    (w : World) : Prop :=
  Tried a hash rs w ∧ (∃ lease, w.lease = some lease ∧ lease.released = true) ∧
    Attests client a hash cleanup

section Release

variable {rs : List Json}

theorem Bound.setLease {a : Acquired} {hash : String} {w : World}
    (hw : Bound a hash rs w)
    {f : Lease → Lease} (hf : ∀ lease, (f lease).toAcquired = lease.toAcquired ∧
      (f lease).releaseRequest = lease.releaseRequest) :
    Bound a hash rs { w with lease := w.lease.map f } := by
  obtain ⟨lease, hlease, hacquired, hsent, hrequest⟩ := hw.lease
  obtain ⟨hsame, hkept⟩ := hf lease
  refine ⟨⟨f lease, ?_, hsame.trans hacquired, fun r hr => ?_, fun r hr => ?_⟩, hw.attempted,
    hw.remembered, hw.calls, hw.receipts⟩
  · rw [hlease]
    rfl
  · rw [hkept]
    exact hsent r hr
  · rw [hkept] at hr
    exact hrequest r hr

theorem payload_of_validateSignedEnvelope {envelope payload : Json}
    {a : SnapshotBroker.Attestation}
    (hok : SnapshotBroker.validateSignedEnvelope envelope a = .ok payload) :
    payload = envelope.get "payload" := by
  unfold SnapshotBroker.validateSignedEnvelope at hok
  obtain ⟨-, hok⟩ := require_bind_eq_ok.mp hok
  obtain ⟨-, hok⟩ := require_bind_eq_ok.mp hok
  obtain ⟨-, hok⟩ := require_bind_eq_ok.mp hok
  obtain ⟨-, hok⟩ := require_bind_eq_ok.mp hok
  obtain ⟨_, -, hok⟩ := bind_eq_ok.mp hok
  obtain ⟨-, hok⟩ := require_bind_eq_ok.mp hok
  obtain ⟨-, hok⟩ := require_bind_eq_ok.mp hok
  obtain ⟨-, hok⟩ := require_bind_eq_ok.mp hok
  obtain ⟨_, -, hok⟩ := bind_eq_ok.mp hok
  obtain ⟨_, -, hok⟩ := bind_eq_ok.mp hok
  obtain ⟨-, hok⟩ := require_bind_eq_ok.mp hok
  obtain ⟨_, -, hok⟩ := bind_eq_ok.mp hok
  obtain ⟨-, hok⟩ := require_bind_eq_ok.mp hok
  exact (Except.ok.inj hok).symm

theorem checkResponse_eq_ok {client : Client} {attempt : Attempt} {lease : Lease} {hash : String}
    {request response cleanup : Json}
    (hok : checkResponse client attempt lease hash request response = .ok cleanup) :
    Attests client lease.toAcquired hash cleanup := by
  unfold checkResponse at hok
  obtain ⟨-, hok⟩ := require_bind_eq_ok.mp hok
  obtain ⟨-, hok⟩ := require_bind_eq_ok.mp hok
  obtain ⟨-, hok⟩ := require_bind_eq_ok.mp hok
  obtain ⟨payload, hpayload, hok⟩ := bind_eq_ok.mp hok
  obtain ⟨⟨⟩, hverified, hok⟩ := bind_eq_ok.mp hok
  obtain ⟨_, -, hok⟩ := bind_eq_ok.mp hok
  obtain ⟨_, -, hok⟩ := bind_eq_ok.mp hok
  obtain ⟨hsame, hok⟩ := require_bind_eq_ok.mp hok
  obtain rfl := Except.ok.inj hok
  obtain rfl := payload_of_validateSignedEnvelope hpayload
  obtain ⟨-, -, hlease, -, -, -, -, -, -, -, -, -, hhash, -, hremoved⟩ := hsame
  exact ⟨hverified, hlease, hhash, hremoved⟩

theorem buildRequest_eq_ok {attempt : Attempt} {lease : Lease} {hash : String} {request : Json}
    (hok : buildRequest attempt lease hash = .ok request) :
    request.get "receipt_preimage_sha256" = .str hash := by
  unfold buildRequest at hok
  obtain ⟨_, -, hok⟩ := bind_eq_ok.mp hok
  obtain rfl := Except.ok.inj hok
  rfl

/-- A lease keeps its request, and a new request has the hash. -/
theorem triple_requestOf (a : Acquired) (attempt : Attempt) (lease : Lease) (hash : String) :
    Triple (Requests a hash rs lease.releaseRequest) (requestOf attempt lease hash)
      (fun request => Requests a hash rs (some request)) fun _ => Tried a hash rs := by
  unfold requestOf
  cases hrequest : lease.releaseRequest with
  | some request => exact Triple.pure fun w hw => hw
  | none =>
    refine Triple.bind (Q := fun request w => Requests a hash rs none w ∧
      request.get "receipt_preimage_sha256" = .str hash)
      (Triple.lift (fun w request hw hok => ⟨hw, buildRequest_eq_ok hok⟩) fun w e hw _ => hw.1)
      fun request => ?_
    refine Triple.bind (Q := fun _ => Requests a hash rs (some request)) (Triple.modify ?_) fun _ =>
      Triple.pure fun w hw => hw
    rintro w ⟨⟨⟨hbound, hcalls⟩, current, hcurrent, hnone⟩, hhash⟩
    obtain ⟨lease', hlease', hacquired, hsent, -⟩ := hbound.lease
    obtain rfl : current = lease' := Option.some.inj (hcurrent.symm.trans hlease')
    have hlease : w.lease.map (fun l : Lease => { l with releaseRequest := some request }) =
        some { current with releaseRequest := some request } := by
      rw [hcurrent]
      rfl
    refine ⟨⟨⟨⟨_, hlease, hacquired, fun r hr => ?_, fun r hr => ?_⟩, hbound.attempted,
      hbound.remembered, hbound.calls, hbound.receipts⟩, hcalls⟩, _, hlease, rfl⟩
    · -- Nothing was sent before there was a request.
      rw [hnone] at hsent
      cases hsent r hr
    · obtain rfl : request = r := Option.some.inj hr
      exact hhash

/-- Only the request of the lease is sent. -/
theorem triple_send (a : Acquired) (attempt : Attempt) (hash : String) (request : Json) :
    Triple (Requests a hash rs (some request)) (send attempt request) (fun _ => Tried a hash rs)
      fun _ => Tried a hash rs := by
  have hsend : ∀ w, Requests a hash rs (some request) w →
      Tried a hash rs { w with sent := w.sent ++ [request] } := by
    rintro w ⟨⟨hbound, hcalls⟩, current, hcurrent, hrequest⟩
    obtain ⟨lease, hlease, hacquired, hsent, hhash⟩ := hbound.lease
    obtain rfl : current = lease := Option.some.inj (hcurrent.symm.trans hlease)
    refine ⟨⟨⟨current, hcurrent, hacquired, fun r hr => ?_, hhash⟩, hbound.attempted,
      hbound.remembered, hbound.calls, hbound.receipts⟩, hcalls⟩
    rcases List.mem_append.mp hr with hold | hnew
    · exact hsent r hold
    · rw [List.mem_singleton.mp hnew]
      exact hrequest
  unfold send
  cases attempt.exchange with
  | unsent e =>
    exact Triple.lift (fun w a hw hok => (by cases hok)) fun w e' hw _ => hw.1
  | lost e =>
    exact Triple.bind (Q := fun _ => Tried a hash rs) (Triple.modify hsend) fun _ =>
      Triple.lift (fun w a hw hok => (by cases hok)) fun w e' hw _ => hw
  | answered response =>
    exact Triple.bind (Q := fun _ => Tried a hash rs) (Triple.modify hsend) fun _ =>
      Triple.pure fun w hw => hw

theorem triple_clientRelease (a : Acquired) (client : Client) (attempt : Attempt) (lease : Lease)
    (hash : String) :
    Triple (Requests a hash rs lease.releaseRequest) (clientRelease client attempt lease hash)
      (fun cleanup w => Tried a hash rs w ∧ Attests client lease.toAcquired hash cleanup)
      fun _ => Tried a hash rs := by
  unfold clientRelease
  refine Triple.bind (triple_requestOf a attempt lease hash) fun request => ?_
  refine Triple.bind (Q := fun _ => Requests a hash rs (some request))
    (Triple.lift (fun w _ hw _ => hw) fun w e hw _ => hw.1) fun _ => ?_
  refine Triple.bind (triple_send a attempt hash request) fun response => ?_
  exact Triple.lift (fun w cleanup hw hok => ⟨hw, checkResponse_eq_ok hok⟩) fun w e hw _ => hw

theorem triple_startRelease (a : Acquired) (attempt : Attempt) (lease : Lease) (hash : String)
    (request : Option Json) :
    Triple (Requests a hash rs request) (startRelease attempt lease)
      (fun _ => Requests a hash rs request) fun _ => Tried a hash rs := by
  unfold startRelease
  split
  · exact Triple.pure fun w hw => hw
  · refine Triple.bind (Q := fun _ => Requests a hash rs request)
      (Triple.lift (fun w _ hw _ => hw) fun w e hw _ => hw.1) fun _ => ?_
    refine Triple.bind (Q := fun _ => Requests a hash rs request)
      (Triple.lift (fun w _ hw _ => hw) fun w e hw _ => hw.1) fun _ => Triple.modify ?_
    rintro w ⟨⟨hbound, hcalls⟩, current, hcurrent, hrequest⟩
    refine ⟨⟨hbound.setLease fun _ => ⟨rfl, rfl⟩, hcalls⟩,
      { current with descriptorOpen := false, releaseStarted := true }, ?_, hrequest⟩
    show w.lease.map _ = _
    rw [hcurrent]
    rfl

/-- **One release.**  Whatever happens, the call and what it sends have the hash; where it returns,
the lease is released and the attestation is for the hash. -/
theorem triple_leaseRelease (client : Client) (lease : Lease) (hash : String) :
    Triple (fun w => Bound lease.toAcquired hash rs w ∧ w.lease = some lease)
      (leaseRelease client lease hash)
      (fun cleanup => Released client lease.toAcquired hash rs cleanup)
      fun _ => Tried lease.toAcquired hash rs := by
  unfold leaseRelease
  refine Triple.bind (Q := fun w₀ w => Bound lease.toAcquired hash rs w ∧ w.lease = some lease)
    (Triple.get fun w hw => hw) fun w₀ => ?_
  refine Triple.bind (Q := fun _ => Requests lease.toAcquired hash rs lease.releaseRequest)
    (Triple.modify ?_) fun _ => ?_
  · rintro w ⟨hbound, hlease⟩
    refine ⟨⟨⟨hbound.lease, hbound.attempted, hbound.remembered, fun c hc => ?_, hbound.receipts⟩,
      ?_⟩, lease, hlease, rfl⟩
    · rcases List.mem_append.mp hc with hold | hnew
      · exact hbound.calls c hold
      · exact List.mem_singleton.mp hnew
    · exact List.append_ne_nil_of_right_ne_nil _ (List.cons_ne_nil _ _)
  refine Triple.bind (Q := fun _ => Requests lease.toAcquired hash rs lease.releaseRequest)
    (Triple.lift (fun w _ hw _ => hw) fun w e hw _ => hw.1) fun _ => ?_
  refine Triple.bind (triple_startRelease _ _ lease hash _) fun _ => ?_
  refine Triple.bind (triple_clientRelease lease.toAcquired client _ lease hash) fun cleanup => ?_
  refine Triple.bind (Q := fun _ => Released client lease.toAcquired hash rs cleanup)
    (Triple.modify ?_) fun _ => Triple.pure fun w hw => hw
  rintro w ⟨⟨hbound, hcalls⟩, hattests⟩
  obtain ⟨current, hcurrent, -⟩ := hbound.lease
  refine ⟨⟨hbound.setLease fun _ => ⟨rfl, rfl⟩, hcalls⟩,
    ⟨{ current with released := true }, ?_, rfl⟩, hattests⟩
  show w.lease.map _ = _
  rw [hcurrent]
  rfl

/-! ## The guard over a run -/

/-- The guard has a lease that was not released. -/
structure Held (a : Acquired) (rs : List Json) (w : World) : Prop where
  lease : w.lease = some a.lease
  attempted : w.attempted = false
  calls : w.calls = []
  sent : w.sent = []
  receipts : w.receipts = rs

theorem Held.remember {a : Acquired} {w : World} (hw : Held a rs w) (hash : String) :
    Bound a hash rs { w with attempted := true, receiptPreimageSha256 := some hash } where
  lease := ⟨a.lease, hw.lease, rfl, fun r hr => (by rw [hw.sent] at hr; cases hr),
    fun r hr => (by cases hr)⟩
  attempted := rfl
  remembered := rfl
  calls c hc := by
    rw [hw.calls] at hc
    cases hc
  receipts := hw.receipts

/-- A release of a lease that was held. -/
theorem triple_remember (client : Client) (a : Acquired) (hash : String) :
    Triple (Held a rs) (remember hash >>= fun _ => leaseRelease client a.lease hash)
      (fun cleanup => Released client a hash rs cleanup) fun _ => Tried a hash rs :=
  Triple.bind (Q := fun _ w => Bound a hash rs w ∧ w.lease = some a.lease)
    (Triple.modify fun _ hw => ⟨hw.remember hash, hw.lease⟩) fun _ =>
      triple_leaseRelease client a.lease hash

theorem triple_guardRelease (client : Client) (a : Acquired) (hash : String) :
    Triple (Held a rs) (guardRelease client hash) (fun cleanup => Released client a hash rs cleanup)
      fun _ => Tried a hash rs := by
  unfold guardRelease
  refine Triple.of_start fun w hw => ?_
  refine Triple.bind (Q := fun w₀ w' => w₀ = w ∧ w' = w) (Triple.get fun _ hs => ⟨hs, hs⟩)
    fun w₀ => ?_
  refine Triple.bind (Q := fun lease w' => (w₀ = w ∧ w' = w) ∧ lease = a.lease)
    (Triple.lift ?_ ?_) fun lease => Triple.of_start ?_
  · rintro w' lease ⟨rfl, rfl⟩ hok
    have hfound := orRaise_eq_ok.mp (show orRaise _ _ = .ok lease from hok)
    exact ⟨⟨rfl, rfl⟩, Option.some.inj (hfound.symm.trans hw.lease)⟩
  · rintro w' e ⟨rfl, rfl⟩ herror
    rw [hw.lease] at herror
    cases herror
  · rintro w' ⟨⟨rfl, rfl⟩, rfl⟩
    rw [if_neg (by rw [hw.attempted]; decide)]
    exact (triple_remember client a hash).weaken (fun w'' heq => heq ▸ hw) (fun _ _ h => h)
      fun _ _ h => h

/-- The guard has no lease. -/
def Unattached (rs : List Json) (w : World) : Prop :=
  w.lease = none ∧ w.attempted = false ∧ w.calls = [] ∧ w.sent = [] ∧ w.receipts = rs

/-- What a run leaves before the cleanup. -/
inductive Left (rs : List Json) (w : World) : Prop
  | unattached (hw : Unattached rs w)
  | held (a : Acquired) (hw : Held a rs w)
  | tried (a : Acquired) (hash : String) (hw : Tried a hash rs w)

/-- What a run leaves: there was no lease, or its release was called, always with one hash. -/
inductive Done (rs : List Json) (w : World) : Prop
  | unattached (hw : Unattached rs w)
  | tried (a : Acquired) (hash : String) (hw : Tried a hash rs w)

theorem triple_closeWithoutClaimingCleanup (a : Acquired) (client : Client) (hash : String) :
    Triple (Tried a hash rs) (closeWithoutClaimingCleanup client) (fun _ => Tried a hash rs)
      fun _ => Tried a hash rs := by
  unfold closeWithoutClaimingCleanup
  refine Triple.bind (Q := fun _ => Tried a hash rs) (Triple.get fun w hw => hw) fun w₀ => ?_
  split
  · refine Triple.bind (Q := fun _ => Tried a hash rs)
      (Triple.lift (fun w _ hw _ => hw) fun w e hw _ => hw) fun _ => Triple.modify ?_
    exact fun w hw => ⟨hw.1.setLease fun _ => ⟨rfl, rfl⟩, hw.2⟩
  · exact Triple.pure fun w hw => hw

theorem triple_releaseQuietly (client : Client) (a : Acquired) (hash : String)
    {P : World → Prop} {release : Runner Json}
    (hrelease : Triple P release (fun _ => Tried a hash rs) fun _ => Tried a hash rs) :
    Triple P (releaseQuietly client release) (fun _ => Tried a hash rs) fun _ => Tried a hash rs :=
  Triple.tryCatch (Triple.bind hrelease fun _ => Triple.pure fun _ hw => hw) fun _ =>
    triple_closeWithoutClaimingCleanup a client hash

/-- **The cleanup attempts the release that is missing**, with the hash that was used before. -/
theorem triple_cleanupAfterAbort (client : Client) :
    Triple (Left rs) (cleanupAfterAbort client) (fun _ => Done rs) fun _ => Done rs := by
  unfold cleanupAfterAbort
  refine Triple.of_start fun w hw => ?_
  refine Triple.bind (Q := fun w₀ w' => w₀ = w ∧ w' = w) (Triple.get fun _ hs => ⟨hs, hs⟩)
    fun w₀ => Triple.of_start ?_
  rintro w' ⟨rfl, rfl⟩
  cases hw with
  | unattached hw =>
    rw [hw.1]
    exact Triple.pure fun s hs => hs ▸ .unattached hw
  | held a hw =>
    -- No release was tried; this one has the hash of the abort.
    rw [hw.lease]
    dsimp only
    rw [if_pos hw.attempted]
    refine (Triple.bind (Q := fun _ s => Bound a (abortHash client.hasher a.lease) rs s ∧
      s.lease = some a.lease) (P := fun s => s = w')
      (Triple.modify fun s hs => hs ▸ ⟨hw.remember _, hw.lease⟩) fun _ =>
        triple_releaseQuietly client a _ ((triple_leaseRelease client a.lease _).weaken
          (fun _ h => h) (fun _ _ h => h.1) fun _ _ h => h)).weaken (fun _ h => h)
            (fun _ _ h => .tried _ _ h) fun _ _ h => .tried _ _ h
  | tried a hash hw =>
    -- A release was tried before, and a retry repeats its hash.
    obtain ⟨lease, hlease, rfl, -⟩ := hw.1.lease
    rw [hlease]
    dsimp only
    rw [if_neg (by rw [hw.1.attempted]; decide)]
    split
    · refine (triple_releaseQuietly client lease.toAcquired hash (P := fun s => s = w')
        (Triple.bind (Q := fun h s => s = w' ∧ h = hash) (Triple.lift ?_ ?_) fun h => ?_)).weaken
          (fun _ h => h) (fun _ _ h => .tried _ _ h) fun _ _ h => .tried _ _ h
      · rintro s h rfl hok
        have hfound := orRaise_eq_ok.mp (show orRaise _ _ = .ok h from hok)
        exact ⟨rfl, Option.some.inj (hfound.symm.trans hw.1.remembered)⟩
      · rintro s e rfl herror
        rw [hw.1.remembered] at herror
        cases herror
      · refine Triple.of_start ?_
        rintro s ⟨rfl, rfl⟩
        exact (triple_leaseRelease client lease h).weaken (fun _ hs => hs ▸ ⟨hw.1, hlease⟩)
          (fun _ _ hr => hr.1) fun _ _ hr => hr
    · exact Triple.pure fun s hs => hs ▸ .tried _ hash hw

/-- A lease that is released stays as it is. -/
theorem triple_cleanupAfterAbort_released (client : Client) {w : World}
    (hw : w.lease = none ∨ w.attempted = true ∧ w.lease.any (·.released) = true) :
    Triple (fun s => s = w) (cleanupAfterAbort client) (fun _ s => s = w) fun _ _ => False := by
  unfold cleanupAfterAbort
  refine Triple.bind (Q := fun w₀ s => w₀ = w ∧ s = w) (Triple.get fun _ hs => ⟨hs, hs⟩)
    fun w₀ => Triple.of_start ?_
  rintro s ⟨rfl, rfl⟩
  rcases hw with hnone | ⟨hattempted, hreleased⟩
  · rw [hnone]
    exact Triple.pure fun t ht => ht
  · cases hlease : s.lease with
    | none => exact Triple.pure fun t ht => ht
    | some lease =>
      rw [hlease] at hreleased
      have hreleased : lease.released = true := hreleased
      dsimp only
      rw [if_neg (by rw [hattempted]; decide), if_neg (by rw [hreleased]; decide)]
      exact Triple.pure fun t ht => ht

/-! ## The preimage of the receipt -/

/-- A field that is no part of the preimage. -/
theorem preimageFields_other {k : String}
    (hk : k ∉ trustedReceiptDocumentKeys ∨ k = "receipt_preimage_sha256") (v : Json)
    (fields : List (String × Json)) :
    preimageFields (Json.setField k v fields) = preimageFields fields := by
  unfold preimageFields
  rw [Json.filter_setField fun v => ?_]
  refine decide_eq_false ?_
  rintro ⟨hmem, hne⟩
  exact hk.elim (fun h => h hmem) hne

/-- The cleanup of the broker is no part of the preimage. -/
theorem preimageFields_cleanup {fields : List (String × Json)} (hsorted : Json.KeySorted fields)
    {protection protection' : Json} (hmem : ("snapshot_protection", protection) ∈ fields)
    (hsame : withoutCleanup protection' = withoutCleanup protection) :
    preimageFields (Json.setField "snapshot_protection" protection' fields) =
      preimageFields fields := by
  refine Json.map_filter_setField hsorted hmem rfl ?_
  unfold committed
  rw [if_pos rfl, if_pos rfl, hsame]

/-- The cleanup is the last thing that is set in the protection. -/
theorem withoutCleanup_setField (cleanup : Json) (fields : List (String × Json)) :
    withoutCleanup (.obj (Json.setField "cleanup_attestation" cleanup fields)) =
      withoutCleanup (.obj fields) := by
  show Json.obj _ = Json.obj _
  rw [Json.setField_setField]

/-! ## The outcome of a run -/

theorem keys_receiptFields (stages : Stages) (prepared : Prepared) (lease : Option Lease)
    (f : Findings) :
    (receiptFields stages prepared lease f).map Prod.fst = trustedReceiptDocumentKeys := rfl

theorem keysOrdered : trustedReceiptDocumentKeys.Pairwise (· < ·) ∧
    "receipt_path" ∉ trustedReceiptDocumentKeys ∧
    "receipt_sha256" ∉ trustedReceiptDocumentKeys := by
  decide +kernel

theorem keySorted_receiptFields (stages : Stages) (prepared : Prepared) (lease : Option Lease)
    (f : Findings) : Json.KeySorted (receiptFields stages prepared lease f) := by
  rw [Json.keySorted_iff, keys_receiptFields]
  exact keysOrdered.1

theorem lookup_protection (stages : Stages) (prepared : Prepared) (lease : Option Lease)
    (f : Findings) : (receiptFields stages prepared lease f).lookup "snapshot_protection" =
      some (protectionOf lease f.direct) := rfl

theorem mem_of_lookup {fields : List (String × Json)} {k : String} {v : Json}
    (h : fields.lookup k = some v) : (k, v) ∈ fields := by
  obtain ⟨before, after, rfl, -⟩ := List.lookup_eq_some_iff.mp h
  exact List.mem_append_right _ List.mem_cons_self

/-- The receipt is for this hash and has this cleanup. -/
structure Sealed (h : Hasher) (hash : String) (cleanup document : Json) : Prop where
  recorded : document.get "receipt_preimage_sha256" = .str hash
  preimage : ∃ fields, document = .obj fields ∧ trustedReceiptPreimageSha256 h fields = hash
  cleanup : (document.get "snapshot_protection").get "cleanup_attestation" = cleanup

/-- **What is set after the hash was taken does not change it.** -/
theorem sealed_withCleanup (h : Hasher) (stages : Stages) (prepared : Prepared) (lease : Lease)
    (f : Findings) (cleanup : Json) {hash : String}
    (hhash : hash = trustedReceiptPreimageSha256 h (receiptFields stages prepared (some lease) f)) :
    Sealed h hash cleanup (.obj (withCleanup lease cleanup (withPreimage hash
      ⟨receiptFields stages prepared (some lease) f, f.failure⟩)).fields) := by
  have hsorted := keySorted_receiptFields stages prepared (some lease) f
  have hlookup := lookup_protection stages prepared (some lease) f
  generalize receiptFields stages prepared (some lease) f = fields at hhash hsorted hlookup ⊢
  have hmem : ("snapshot_protection", Json.obj (brokerProtection lease)) ∈
      Json.setField "receipt_preimage_sha256" (.str hash) fields := by
    refine mem_of_lookup ?_
    rw [Json.lookup_setField, if_neg (by decide)]
    exact hlookup
  refine ⟨?_, ⟨_, rfl, ?_⟩, ?_⟩
  · rw [withCleanup, Json.get_setField, if_neg (by decide), withPreimage, Json.get_setField,
      if_pos rfl]
  · unfold trustedReceiptPreimageSha256
    rw [withCleanup, withPreimage,
      preimageFields_cleanup (Json.keySorted_setField _ _ hsorted) hmem
        (withoutCleanup_setField cleanup _), preimageFields_other (.inr rfl)]
    exact hhash.symm
  · rw [withCleanup, Json.get_setField, if_pos rfl, Json.get_setField, if_pos rfl]

/-- The returned document has two fields more. -/
theorem Sealed.setField {h : Hasher} {hash : String} {cleanup : Json}
    {fields : List (String × Json)} (hsealed : Sealed h hash cleanup (.obj fields)) {k : String}
    (hk : k ∉ trustedReceiptDocumentKeys) (v : Json) :
    Sealed h hash cleanup (.obj (Json.setField k v fields)) := by
  have hrecorded : "receipt_preimage_sha256" ≠ k := by
    rintro rfl
    exact hk (by decide)
  have hprotection : "snapshot_protection" ≠ k := by
    rintro rfl
    exact hk (by decide)
  obtain ⟨fields', hfields, hpreimage⟩ := hsealed.preimage
  obtain rfl := Json.obj.inj hfields
  refine ⟨?_, ⟨_, rfl, ?_⟩, ?_⟩
  · rw [Json.get_setField, if_neg hrecorded]
    exact hsealed.recorded
  · unfold trustedReceiptPreimageSha256
    rw [preimageFields_other (.inl hk)]
    exact hpreimage
  · rw [Json.get_setField, if_neg hprotection]
    exact hsealed.cleanup

/-- The lease that the acquisition has left. -/
def Acquiring (rs : List Json) (stages : Stages) (lease : Option Lease) (w : World) : Prop :=
  stages.brokered = false ∧ lease = none ∧ Unattached rs w ∨
    stages.brokered = true ∧ ∃ a, stages.acquired = .ok a ∧ lease = some a.lease ∧ Held a rs w

theorem triple_acquire (stages : Stages) :
    Triple (Unattached rs) (acquire stages) (Acquiring rs stages) fun _ => Left rs := by
  unfold acquire
  by_cases hbrokered : stages.brokered = true
  · rw [if_pos hbrokered]
    refine Triple.andFinally (Q := Acquiring rs stages) (R := fun _ => Left rs) ?_ (fun lease => ?_)
      fun e => ?_
    · refine Triple.bind (Q := fun a w => Unattached rs w ∧ stages.acquired = .ok a)
        (Triple.lift (fun w a hw hok => ⟨hw, hok⟩) fun w e hw _ => .unattached hw)
        fun a => Triple.assume fun hacquired => ?_
      refine Triple.bind (Q := fun _ => Held a rs) ?_ fun _ =>
        Triple.pure fun w hw => .inr ⟨hbrokered, a, hacquired, rfl, hw⟩
      unfold attach
      refine Triple.bind (Q := fun _ => Unattached rs) (Triple.get fun w hw => hw) fun w₀ => ?_
      refine Triple.bind (Q := fun _ => Unattached rs)
        (Triple.lift (fun w _ hw _ => hw) fun w e hw _ => .unattached hw) fun _ =>
          Triple.modify ?_
      rintro w ⟨-, hattempted, hcalls, hsent, hreceipts⟩
      exact ⟨rfl, hattempted, hcalls, hsent, hreceipts⟩
    · refine Triple.lift (fun w _ hw _ => hw) fun w e hw _ => ?_
      rcases hw with ⟨-, -, hw⟩ | ⟨-, a, -, -, hw⟩
      · exact .unattached hw
      · exact .held a hw
    · exact Triple.lift (fun w _ hw _ => hw) fun w e hw _ => hw
  · rw [if_neg hbrokered]
    exact Triple.pure fun w hw => .inl ⟨Bool.eq_false_iff.mpr hbrokered, rfl, hw⟩

/-- The receipt after the release: with the cleanup of the broker, or failed. -/
def Settled (client : Client) (a : Acquired) (hash : String) (rs : List Json) (x r : Receipt)
    (w : World) : Prop :=
  (∃ cleanup, Released client a hash rs cleanup w ∧ r = withCleanup a.lease cleanup x) ∨
    Tried a hash rs w ∧ ∃ message, r = withFailure message x

theorem Settled.left {client : Client} {a : Acquired} {hash : String} {x r : Receipt} {w : World}
    (h : Settled client a hash rs x r w) : Left rs w := by
  rcases h with ⟨cleanup, ⟨hw, -⟩, -⟩ | ⟨hw, -⟩
  · exact .tried a hash hw
  · exact .tried a hash hw

/-- A receipt is written after the release. -/
theorem Settled.written {client : Client} {a : Acquired} {hash : String} {x r : Receipt}
    {w : World} (h : Settled client a hash [] x r w) (document : Json) :
    Settled client a hash [document] x r { w with receipts := w.receipts ++ [document] } := by
  have hwrite : ∀ {w : World}, Tried a hash [] w →
      Tried a hash [document] { w with receipts := w.receipts ++ [document] } := by
    rintro w ⟨hbound, hcalls⟩
    refine ⟨⟨hbound.lease, hbound.attempted, hbound.remembered, hbound.calls, ?_⟩, hcalls⟩
    rw [hbound.receipts]
    rfl
  rcases h with ⟨cleanup, ⟨htried, hlease, hattests⟩, hr⟩ | ⟨htried, hr⟩
  · exact .inl ⟨cleanup, ⟨hwrite htried, hlease, hattests⟩, hr⟩
  · exact .inr ⟨hwrite htried, hr⟩

theorem triple_settle (client : Client) (a : Acquired) (hash : String) (x : Receipt) :
    Triple (Held a rs) (settle client (some a.lease) hash x) (Settled client a hash rs x)
      fun _ => Tried a hash rs := by
  unfold settle
  refine Triple.tryCatch (R := fun _ => Tried a hash rs) ?_ fun e => ?_
  · exact Triple.bind (triple_guardRelease client a hash) fun cleanup =>
      Triple.pure fun w hw => .inl ⟨cleanup, hw, rfl⟩
  · split
    · exact Triple.pure fun w hw => .inr ⟨hw, e.message, rfl⟩
    · exact Triple.lift (fun w _ hw hok => (by cases hok)) fun w e hw _ => hw

end Release

/-! ## What a passed receipt says -/

/-- A validation has run as its manifest says. -/
structure Succeeded (validation policy : Json) (x : Execution) : Prop where
  started : x.startError.any (· ≠ "") = false
  timedOut : x.timedOut = false
  outputTruncated : x.outputTruncated = false
  executable : optText x.executableSha256After = policy.get "executable_sha256"
  exitCode : x.exitCode = some 0
  declared : (Json.int 0).equals (validation.get "exit_code") = true
  output : ∃ rawOutput, validation.get? "raw_output" = some rawOutput ∧
    rawOutput.get? "sha256" = some (.str x.outputSha256)

theorem succeeded_of_failureOf {index : ℕ} {validation policy : Json} {x : Execution}
    (hok : failureOf index validation policy x = .ok none) : Succeeded validation policy x := by
  unfold failureOf at hok
  -- The checks in the order of the source: one that fails returns its text.
  by_cases hstarted : x.startError.any (· ≠ "") = true
  · rw [if_pos hstarted] at hok
    cases hok
  rw [if_neg hstarted] at hok
  by_cases htimedOut : x.timedOut = true
  · rw [if_pos htimedOut] at hok
    cases hok
  rw [if_neg htimedOut] at hok
  by_cases htruncated : x.outputTruncated = true
  · rw [if_pos htruncated] at hok
    cases hok
  rw [if_neg htruncated] at hok
  by_cases hexecutable : optText x.executableSha256After ≠ policy.get "executable_sha256"
  · rw [if_pos hexecutable] at hok
    cases hok
  rw [if_neg hexecutable] at hok
  by_cases hcode : x.exitCode ≠ some 0
  · rw [if_pos hcode] at hok
    cases hok
  rw [if_neg hcode] at hok
  by_cases hdeclared : (optCode x.exitCode).equals (validation.get "exit_code") = false
  · rw [if_pos hdeclared] at hok
    cases hok
  rw [if_neg hdeclared] at hok
  obtain ⟨rawOutput, hraw, hok⟩ := bind_eq_ok.mp hok
  obtain ⟨sha256, hsha, hok⟩ := bind_eq_ok.mp hok
  have hcode := not_not.mp hcode
  rw [hcode] at hdeclared
  refine ⟨Bool.eq_false_iff.mpr hstarted, Bool.eq_false_iff.mpr htimedOut,
    Bool.eq_false_iff.mpr htruncated, not_not.mp hexecutable, hcode,
    Bool.not_eq_false _ ▸ hdeclared, rawOutput, orRaise_eq_ok.mp hraw, ?_⟩
  by_cases houtput : Json.str x.outputSha256 = sha256
  · rw [houtput]
    exact orRaise_eq_ok.mp hsha
  · rw [if_neg houtput] at hok
    cases hok

theorem succeeded_of_runValidations {stages : Stages} {policies : ℕ → Json} {timeoutSeconds : ℤ}
    {index : ℕ} {validations : List Json} {results : List Json × Option String}
    (hok : runValidations stages policies timeoutSeconds index validations = .ok results)
    (hnone : results.2 = none) (i : ℕ) (validation : Json)
    (hi : validations[i]? = some validation) :
    ∃ x, stages.execution (index + i) = .ok x ∧
      Succeeded validation (policies (index + i)) x := by
  induction validations generalizing index results i with
  | nil => cases hi
  | cons first rest ih =>
    unfold runValidations at hok
    obtain ⟨x, hx, hok⟩ := bind_eq_ok.mp hok
    obtain ⟨failure, hfailure, hok⟩ := bind_eq_ok.mp hok
    cases failure with
    | some text =>
      obtain rfl := Except.ok.inj hok
      cases hnone
    | none =>
      obtain ⟨others, hothers, hok⟩ := bind_eq_ok.mp hok
      obtain rfl := Except.ok.inj hok
      cases i with
      | zero =>
        obtain rfl : first = validation := Option.some.inj hi
        exact ⟨x, hx, succeeded_of_failureOf hfailure⟩
      | succ i =>
        obtain ⟨y, hy, hsucceeded⟩ := ih hothers hnone i hi
        have hindex : index + 1 + i = index + (i + 1) := by omega
        rw [hindex] at hy hsucceeded
        exact ⟨y, hy, hsucceeded⟩

theorem caught_eq_ok {α : Type} {x : Except CogniError α} {a : α} :
    caught x = .ok (.ok a) ↔ x = .ok a := by
  unfold caught
  cases x with
  | ok b =>
    exact ⟨fun h => congrArg Except.ok (Except.ok.inj (Except.ok.inj h)),
      fun h => (by rw [Except.ok.inj h])⟩
  | error e =>
    dsimp only
    split
    · exact ⟨fun h => (by cases h), fun h => (by cases h)⟩
    · exact ⟨fun h => (by cases h), fun h => (by cases h)⟩

/-- A run without a failure. -/
structure Passed (stages : Stages) (arguments : Arguments) (snapshot : Json) : Prop where
  validations : ∃ policies, stages.policies = .ok policies ∧
    ∀ i validation, arguments.validations[i]? = some validation →
      ∃ x, stages.execution i = .ok x ∧ Succeeded validation (policies i) x
  source : stages.sourcePostcheck = .ok ()
  snapshot : ∃ completed, stages.snapshotPostcheck = .ok completed ∧
    completed.equals snapshot = true

theorem passed_of_execute {h : Hasher} {stages : Stages} {prepared : Prepared}
    {materialized : Json} {lease : Option Lease} {f : Findings}
    (hok : execute h stages prepared materialized lease = .ok f) (hnone : f.failure = none) :
    Passed stages prepared.arguments f.snapshot := by
  unfold execute at hok
  obtain ⟨precheck, -, hok⟩ := bind_eq_ok.mp hok
  obtain ⟨-, hok⟩ := require_bind_eq_ok.mp hok
  obtain ⟨direct, -, hok⟩ := bind_eq_ok.mp hok
  obtain ⟨policies, hpolicies, hok⟩ := bind_eq_ok.mp hok
  obtain ⟨environments, -, hok⟩ := bind_eq_ok.mp hok
  obtain ⟨results, hresults, hok⟩ := bind_eq_ok.mp hok
  obtain ⟨sourceFailed, hsource, hok⟩ := bind_eq_ok.mp hok
  obtain ⟨snapshotFailed, hsnapshot, hok⟩ := bind_eq_ok.mp hok
  obtain ⟨failure, hremoval, hok⟩ := bind_eq_ok.mp hok
  obtain rfl := Except.ok.inj hok
  obtain rfl : failure = none := hnone
  -- The removal keeps the first failure, so none of the checks before it has failed.
  have hclear : (results.2 <|> sourceFailed <|> snapshotFailed) = none := by
    unfold removalFailure at hremoval
    split at hremoval
    · split at hremoval
      · exact Except.ok.inj hremoval
      · split at hremoval
        · have hsome := Except.ok.inj hremoval
          cases hfailure : (results.2 <|> sourceFailed <|> snapshotFailed) with
          | none => rfl
          | some text =>
            rw [hfailure] at hsome
            cases hsome
        · cases hremoval
    · exact Except.ok.inj hremoval
  have hvalidations : results.2 = none := by
    cases hresult : results.2 with
    | none => rfl
    | some text =>
      rw [hresult] at hclear
      cases hclear
  rw [hvalidations] at hclear
  have hsourceNone : sourceFailed = none := by
    cases sourceFailed with
    | none => rfl
    | some text => cases hclear
  subst hsourceNone
  have hsnapshotNone : snapshotFailed = none := hclear
  subst hsnapshotNone
  -- A check that has not failed has run to its end.
  refine ⟨⟨policies, hpolicies, fun i validation hi => ?_⟩, ?_, ?_⟩
  · obtain ⟨x, hx, hsucceeded⟩ := succeeded_of_runValidations hresults hvalidations i validation hi
    rw [Nat.zero_add] at hx hsucceeded
    exact ⟨x, hx, hsucceeded⟩
  · unfold sourceError at hsource
    obtain ⟨outcome, houtcome, hsource⟩ := bind_eq_ok.mp hsource
    cases outcome with
    | error message => cases hsource
    | ok u => exact caught_eq_ok.mp houtcome
  · unfold snapshotError at hsnapshot
    obtain ⟨outcome, houtcome, hsnapshot⟩ := bind_eq_ok.mp hsnapshot
    cases outcome with
    | error message => cases hsnapshot
    | ok completed =>
      refine ⟨completed, caught_eq_ok.mp houtcome, ?_⟩
      by_contra hdiffers
      have hsome := Except.ok.inj hsnapshot
      rw [if_neg hdiffers] at hsome
      cases hsome

/-! ## The discipline of a run -/

/-- A receipt that says `passed` is of a run without a failure, and of a lease that the broker has
cleaned up for it. -/
structure Truthful (client : Client) (stages : Stages) (document : Json) : Prop where
  passed : document.get "passed" = .bool true → ∃ prepared, stages.prepared = .ok prepared ∧
    Passed stages prepared.arguments (document.get "snapshot")
  released : document.get "passed" = .bool true → stages.brokered = true →
    ∃ a hash cleanup, stages.acquired = .ok a ∧ Attests client a hash cleanup ∧
      Sealed client.hasher hash cleanup document

/-- What a run without a broker writes. -/
theorem truthful_direct {client : Client} {stages : Stages} {prepared : Prepared}
    {materialized : Json} {f : Findings} (hprepared : stages.prepared = .ok prepared)
    (hbrokered : stages.brokered = false)
    (hok : execute client.hasher stages prepared materialized none = .ok f) (hash : String) :
    Truthful client stages (.obj (withPreimage hash
      ⟨receiptFields stages prepared none f, f.failure⟩).fields) := by
  refine ⟨fun hpassed => ⟨prepared, hprepared, ?_⟩, fun _ htrue => ?_⟩
  · rw [withPreimage, Json.get_setField, if_neg (by decide)] at hpassed ⊢
    have hboth := of_decide_eq_true (Json.bool.inj hpassed)
    exact passed_of_execute hok hboth.1
  · rw [hbrokered] at htrue
    cases htrue

/-- What a run with a broker writes. -/
theorem truthful_settled {client : Client} {stages : Stages} {prepared : Prepared}
    {materialized : Json} {a : Acquired} {f : Findings} {r : Receipt} {w : World} {hash : String}
    {rs : List Json} (hprepared : stages.prepared = .ok prepared)
    (hacquired : stages.acquired = .ok a)
    (hok : execute client.hasher stages prepared materialized (some a.lease) = .ok f)
    (hhash : hash = trustedReceiptPreimageSha256 client.hasher
      (receiptFields stages prepared (some a.lease) f))
    (hr : Settled client a hash rs (withPreimage hash
      ⟨receiptFields stages prepared (some a.lease) f, f.failure⟩) r w) :
    Truthful client stages (.obj r.fields) := by
  rcases hr with ⟨cleanup, ⟨-, -, hattests⟩, rfl⟩ | ⟨-, message, rfl⟩
  · refine ⟨fun hpassed => ⟨prepared, hprepared, ?_⟩, fun _ _ => ⟨a, hash, cleanup, hacquired,
      hattests, sealed_withCleanup client.hasher stages prepared a.lease f cleanup hhash⟩⟩
    rw [withCleanup, Json.get_setField, if_neg (by decide), withPreimage, Json.get_setField,
      if_neg (by decide)] at hpassed ⊢
    have hboth := of_decide_eq_true (Json.bool.inj hpassed)
    exact passed_of_execute hok hboth.1
  · -- A receipt whose release has failed does not say that it passed.
    have hfailed : (Json.obj (withFailure message (withPreimage hash
        ⟨receiptFields stages prepared (some a.lease) f, f.failure⟩)).fields).get "passed" =
          .bool false := by
      rw [withFailure, Json.get_setField, if_neg (by decide), Json.get_setField, if_pos rfl]
    refine ⟨fun hpassed => ?_, fun hpassed _ => ?_⟩
    · rw [hfailed] at hpassed
      cases hpassed
    · rw [hfailed] at hpassed
      cases hpassed

/-- What was written is truthful. -/
def Honest (client : Client) (stages : Stages) (rs : List Json) : Prop :=
  ∀ document ∈ rs, Truthful client stages document

/-- The document that a run returns. -/
def Finished (client : Client) (stages : Stages) (document : Json) (w : World) : Prop :=
  ∃ rs, Honest client stages rs ∧ (stages.brokered = false ∧ Unattached rs w ∨
    stages.brokered = true ∧ ∃ a hash cleanup, Released client a hash rs cleanup w ∧
      Sealed client.hasher hash cleanup document)

/-- A run that raises. -/
def Raised (client : Client) (stages : Stages) (w : World) : Prop :=
  ∃ rs, Honest client stages rs ∧ Left rs w

theorem Raised.of_left {client : Client} {stages : Stages} {w : World} (hw : Left [] w) :
    Raised client stages w :=
  ⟨[], fun _ h => (by cases h), hw⟩

/-- The rest of a run, once the receipt is made. -/
theorem triple_finish {client : Client} {stages : Stages} {P : List Json → World → Prop}
    (hleft : ∀ rs w, P rs w → Left rs w)
    (hwrite : ∀ document w, P [] w → P [document] { w with receipts := w.receipts ++ [document] })
    {r : Receipt} (htruthful : Truthful client stages (.obj r.fields))
    (hfinished : ∀ w path sha256, P [.obj r.fields] w → r.failure = none →
      Finished client stages (.obj (Json.setField "receipt_sha256" sha256
        (Json.setField "receipt_path" path r.fields))) w) :
    Triple (P []) (do
      writeReceipt (.obj r.fields)
      let path ← stages.written
      let receiptSha256 ← stages.receiptSha256
      match r.failure with
      | some failure => Except.error (α := Json) (error (failure ++ "; receipt=" ++ receiptSha256))
      | none =>
          pure (.obj (Json.setField "receipt_sha256" (.str receiptSha256)
            (Json.setField "receipt_path" (.str path) r.fields))))
      (Finished client stages) fun _ => Raised client stages := by
  have hraised : ∀ w, P [.obj r.fields] w → Raised client stages w := fun w hw =>
    ⟨_, fun document hmem => List.mem_singleton.mp hmem ▸ htruthful, hleft _ _ hw⟩
  refine Triple.bind (Q := fun _ => P [.obj r.fields])
    (Triple.modify fun w hw => hwrite _ w hw) fun _ => ?_
  refine Triple.bind (Q := fun _ => P [.obj r.fields])
    (Triple.lift (fun w _ hw _ => hw) fun w e hw _ => hraised w hw) fun path => ?_
  refine Triple.bind (Q := fun _ => P [.obj r.fields])
    (Triple.lift (fun w _ hw _ => hw) fun w e hw _ => hraised w hw) fun receiptSha256 => ?_
  cases hfailure : r.failure with
  | some failure =>
    exact Triple.lift (fun w _ _ hok => (by cases hok)) fun w e hw _ => hraised w hw
  | none => exact Triple.pure fun w hw => hfinished w _ _ hw hfailure

/-- The run without the cleanup. -/
theorem triple_runImpl (client : Client) (stages : Stages) :
    Triple (Unattached []) (runImpl client stages) (Finished client stages)
      fun _ => Raised client stages := by
  unfold runImpl
  refine Triple.bind (Q := fun prepared w => Unattached [] w ∧ stages.prepared = .ok prepared)
    (Triple.lift (fun w _ hw hok => ⟨hw, hok⟩) fun w e hw _ => .of_left (.unattached hw))
    fun prepared => Triple.assume fun hprepared => ?_
  refine Triple.bind (Q := fun _ => Unattached [])
    (Triple.lift (fun w _ hw _ => hw) fun w e hw _ => .of_left (.unattached hw))
    fun materialized => ?_
  refine Triple.bind ((triple_acquire stages).weaken (fun _ h => h) (fun _ _ h => h)
    fun _ _ h => .of_left h) fun lease => Triple.of_start fun w hw => ?_
  -- Whatever raises from here on leaves the lease as it is now.
  have hleft : Raised client stages w := by
    rcases hw with ⟨-, -, hw⟩ | ⟨-, a, -, -, hw⟩
    · exact .of_left (.unattached hw)
    · exact .of_left (.held a hw)
  refine Triple.bind (Q := fun f s => s = w ∧
      execute client.hasher stages prepared materialized lease = .ok f)
    (Triple.lift (fun s f hs hok => ⟨hs, hok⟩) fun s e hs _ => hs ▸ hleft)
    fun f => Triple.assume fun hexecute => ?_
  dsimp only
  -- A direct run has no lease; a brokered one has to settle it before the receipt is written.
  rcases hw with ⟨hbrokered, rfl, hw⟩ | ⟨hbrokered, a, hacquired, rfl, hw⟩
  · refine Triple.bind (Q := fun r s => Unattached [] s ∧ r = withPreimage _ _)
      (Triple.pure fun s hs => ⟨hs ▸ hw, rfl⟩) fun r => Triple.assume ?_
    rintro rfl
    refine triple_finish (P := Unattached) (fun rs s hs => .unattached hs) ?_
      (truthful_direct hprepared hbrokered hexecute _) ?_
    · rintro document s ⟨hlease, hattempted, hcalls, hsent, hreceipts⟩
      exact ⟨hlease, hattempted, hcalls, hsent, by rw [hreceipts]; rfl⟩
    · intro s path sha256 hs _
      refine ⟨_, fun document hmem => ?_, .inl ⟨hbrokered, hs⟩⟩
      rw [List.mem_singleton.mp hmem]
      exact truthful_direct hprepared hbrokered hexecute _
  · refine Triple.bind (((triple_settle client a _ _).weaken (fun s hs => hs ▸ hw)
      (fun _ _ h => h) fun _ _ h => .of_left (.tried a _ h))) fun r => Triple.of_start ?_
    intro s hs
    have htruthful := truthful_settled hprepared hacquired hexecute rfl hs
    refine (triple_finish (P := fun rs => Settled client a _ rs _ r) (fun _ _ h => h.left)
      (fun document t ht => ht.written document) htruthful ?_).weaken (fun t ht => ht ▸ hs)
        (fun _ _ h => h) fun _ _ h => h
    intro t path sha256 ht hnone
    rcases ht with ⟨cleanup, hreleased, rfl⟩ | ⟨-, message, rfl⟩
    · refine ⟨_, fun document hmem => List.mem_singleton.mp hmem ▸ htruthful,
        .inr ⟨hbrokered, a, _, cleanup, hreleased, ?_⟩⟩
      exact ((sealed_withCleanup client.hasher stages prepared a.lease f cleanup rfl).setField
        keysOrdered.2.1 path).setField keysOrdered.2.2 sha256
    · cases hfailure : f.failure with
      | none =>
        rw [withFailure, withPreimage, hfailure] at hnone
        cases hnone
      | some text =>
        rw [withFailure, withPreimage, hfailure] at hnone
        cases hnone

/-- The lease discipline of one run, by what it returns or raises and the world that it leaves. -/
structure Disciplined (client : Client) (stages : Stages) (outcome : Except CogniError Json)
    (w : World) : Prop where
  /-- One hash is released and nothing else, with one request that is repeated. -/
  hash : ∃ hash, (∀ c ∈ w.calls, c = hash) ∧
    ∀ r ∈ w.sent, r.get "receipt_preimage_sha256" = .str hash
  request : ∀ r ∈ w.sent, ∀ r' ∈ w.sent, r = r'
  /-- An attached lease is released at least once. -/
  attempted : w.lease ≠ none → w.calls ≠ []
  /-- A document is returned with a cleanup for the hash that it records and still has. -/
  returned : ∀ document, outcome = .ok document → stages.brokered = true →
    ∃ lease hash cleanup, w.lease = some lease ∧ lease.released = true ∧ hash ∈ w.calls ∧
      Attests client lease.toAcquired hash cleanup ∧ Sealed client.hasher hash cleanup document

theorem Tried.hash {a : Acquired} {hash : String} {rs : List Json} {w : World}
    (hw : Tried a hash rs w) : (∀ c ∈ w.calls, c = hash) ∧
      ∀ r ∈ w.sent, r.get "receipt_preimage_sha256" = .str hash := by
  obtain ⟨lease, -, -, hsent, hrequest⟩ := hw.1.lease
  exact ⟨hw.1.calls, fun r hr => hrequest r (hsent r hr)⟩

theorem Tried.request {a : Acquired} {hash : String} {rs : List Json} {w : World}
    (hw : Tried a hash rs w) {r r' : Json} (hr : r ∈ w.sent) (hr' : r' ∈ w.sent) : r = r' := by
  obtain ⟨lease, -, -, hsent, -⟩ := hw.1.lease
  exact Option.some.inj ((hsent r hr).symm.trans (hsent r' hr'))

/-- What holds when nothing was returned, or when there is no broker. -/
theorem Done.disciplined {client : Client} {stages : Stages} {outcome : Except CogniError Json}
    {rs : List Json} {w : World} (hw : Done rs w)
    (hreturned : ∀ document, outcome = .ok document → stages.brokered = false) :
    Disciplined client stages outcome w := by
  have hnever : ∀ document, outcome = .ok document → stages.brokered = true →
      ∃ lease hash cleanup, w.lease = some lease ∧ lease.released = true ∧ hash ∈ w.calls ∧
        Attests client lease.toAcquired hash cleanup ∧
        Sealed client.hasher hash cleanup document := by
    intro document hok hbrokered
    rw [hreturned document hok] at hbrokered
    cases hbrokered
  cases hw with
  | unattached hw =>
    obtain ⟨hlease, -, hcalls, hsent, -⟩ := hw
    refine ⟨⟨"", fun c hc => ?_, fun r hr => ?_⟩, fun r hr => ?_, fun hsome => absurd hlease hsome,
      hnever⟩
    · rw [hcalls] at hc
      cases hc
    · rw [hsent] at hr
      cases hr
    · rw [hsent] at hr
      cases hr
  | tried a hash hw =>
    exact ⟨⟨hash, hw.hash⟩, fun r hr r' hr' => hw.request hr hr', fun _ => hw.2, hnever⟩

theorem Released.disciplined {client : Client} {stages : Stages} {a : Acquired} {hash : String}
    {rs : List Json} {cleanup document : Json} {w : World}
    (hw : Released client a hash rs cleanup w)
    (hsealed : Sealed client.hasher hash cleanup document) :
    Disciplined client stages (.ok document) w := by
  obtain ⟨htried, ⟨lease, hlease, hreleased⟩, hattests⟩ := hw
  refine ⟨⟨hash, htried.hash⟩, fun r hr r' hr' => htried.request hr hr', fun _ => htried.2, ?_⟩
  intro returned hok _
  obtain rfl := Except.ok.inj hok
  obtain ⟨lease', hlease', rfl, -⟩ := htried.1.lease
  obtain rfl : lease = lease' := Option.some.inj (hlease.symm.trans hlease')
  obtain ⟨c, hc⟩ := List.exists_mem_of_ne_nil _ htried.2
  exact ⟨lease, hash, cleanup, hlease, hreleased, htried.1.calls c hc ▸ hc, hattests, hsealed⟩

/-- The whole run: the cleanup leaves a returned document as it is. -/
theorem triple_runTrustedValidations (client : Client) (stages : Stages) :
    Triple (Unattached []) (runTrustedValidations client stages) (Finished client stages)
      fun _ w => ∃ rs, Honest client stages rs ∧ Done rs w := by
  unfold runTrustedValidations
  refine Triple.andFinally (triple_runImpl client stages) (fun document => ?_) fun e => ?_
  · refine Triple.of_start fun w hw => ?_
    have hrest : w.lease = none ∨ w.attempted = true ∧ w.lease.any (·.released) = true := by
      obtain ⟨rs, -, ⟨-, hw⟩ | ⟨-, a, hash, cleanup, ⟨htried, ⟨lease, hlease, hreleased⟩, -⟩, -⟩⟩ :=
        hw
      · exact .inl hw.1
      · refine .inr ⟨htried.1.attempted, ?_⟩
        rw [hlease]
        exact hreleased
    exact (triple_cleanupAfterAbort_released client hrest).weaken (fun _ h => h)
      (fun _ _ h => h ▸ hw) fun _ _ h => h.elim
  · refine Triple.of_start ?_
    rintro w ⟨rs, hhonest, hleft⟩
    exact (triple_cleanupAfterAbort client).weaken (fun _ h => h ▸ hleft)
      (fun _ _ h => ⟨rs, hhonest, h⟩) fun _ _ h => ⟨rs, hhonest, h⟩

theorem unattached_freshWorld : Unattached [] freshWorld := ⟨rfl, rfl, rfl, rfl, rfl⟩

/-- **The lease discipline**, whatever the steps of the run and the broker do. -/
theorem lease_discipline (client : Client) (stages : Stages) :
    Disciplined client stages (runTrustedValidations client stages freshWorld).1
      (runTrustedValidations client stages freshWorld).2 := by
  have hrun := triple_runTrustedValidations client stages
  rcases houtcome : runTrustedValidations client stages freshWorld with ⟨e | document, w⟩
  · obtain ⟨rs, -, hdone⟩ := hrun.raises _ e w unattached_freshWorld houtcome
    exact hdone.disciplined fun document hok => (by cases hok)
  · obtain ⟨rs, -, ⟨hbrokered, hw⟩ | ⟨-, a, hash, cleanup, hw, hsealed⟩⟩ :=
      hrun.returns _ document w unattached_freshWorld houtcome
    · exact (Done.unattached hw).disciplined fun _ _ => hbrokered
    · exact hw.disciplined hsealed

/-- **Every receipt that a run writes is truthful**, whether the run returns or raises. -/
theorem written_receipts_truthful (client : Client) (stages : Stages) :
    Honest client stages (runTrustedValidations client stages freshWorld).2.receipts := by
  have hrun := triple_runTrustedValidations client stages
  rcases houtcome : runTrustedValidations client stages freshWorld with ⟨e | document, w⟩
  · obtain ⟨rs, hhonest, hdone⟩ := hrun.raises _ e w unattached_freshWorld houtcome
    cases hdone with
    | unattached hw => exact hw.2.2.2.2 ▸ hhonest
    | tried a hash hw => exact hw.1.receipts ▸ hhonest
  · obtain ⟨rs, hhonest, ⟨-, hw⟩ | ⟨-, a, hash, cleanup, hw, -⟩⟩ :=
      hrun.returns _ document w unattached_freshWorld houtcome
    · exact hw.2.2.2.2 ▸ hhonest
    · exact hw.1.1.receipts ▸ hhonest

end TrustedRunner
