/-
# Requests to the snapshot broker

`snapshot_broker_protocol.py`: canonical documents, the validity window and the schema of an
acquire or a release request.

* `validateWindow` is `_validate_window` at one reading of the clock;
* `validateRequest` is `validate_request`.
-/
import CogniOS.WrittenJson

namespace SnapshotBroker

/-! ## Constants -/

def protocolId : String := "cogni-os-snapshot-fd-lease-v1"

def schemaVersion : ℤ := 1

def sourceDescriptorType : String := "sealed-O_RDONLY-directory"

def materializationPolicyId : String := "git-object-dirfd-nofollow-stream-v2"

def maxFrameBytes : ℕ := 16 * 1024 * 1024

def maxTtlSeconds : ℤ := 120

def maxClockSkewSeconds : ℤ := 5

def maxNonceBytes : ℕ := 128

/-- `ACQUIRE_REQUEST_KEYS` in key order. -/
def acquireRequestKeys : List String :=
  ["actor", "attempt", "expected_snapshot_sha256", "expires_at", "issued_at",
    "materialization_policy", "nonce", "operation", "protocol_id", "request_id", "run_id",
    "schema_version", "source_commit", "source_descriptor_type", "task_id", "tree_oid",
    "validation_contract_sha256"]

/-- `RELEASE_REQUEST_KEYS` in key order. -/
def releaseRequestKeys : List String :=
  ["acquire_attestation_sha256", "actor", "attempt", "expires_at", "issued_at", "lease_id",
    "nonce", "operation", "protocol_id", "receipt_preimage_sha256", "request_id", "run_id",
    "schema_version", "task_id", "validation_contract_sha256"]

/-- `SnapshotBrokerError`, a kind of `EvidenceError`. -/
def error (message : String) : CogniError := ⟨.evidence, message⟩

/-- `canonical_json_bytes`. -/
def canonicalJsonBytes (value : Json) : Except CogniError (List UInt8) :=
  value.boundedEncoding maxFrameBytes
    (error "Snapshot broker document exceeds its byte limit")

/-- `canonical_json_sha256`. -/
def canonicalJsonSha256 (h : Hasher) (value : Json) : Except CogniError String := do
  let encoded ← canonicalJsonBytes value
  .ok (h.hexdigest encoded)

/-! ## Validation -/

/-- `_is_hex`. -/
def isHex (value : Json) (length : ℕ) : Bool := value.isHexText length

/-- The characters of an identifier: ASCII letters and digits, hyphen, underscore and dot. -/
def isIdentifierText (s : String) : Bool :=
  s.toList.all fun c => isAlnum c || c ∈ ['-', '_', '.']

/-- `_valid_identifier`; the text is ASCII, so its characters are its bytes. -/
def validIdentifier (value : Json) (maximum : ℕ) : Bool :=
  value.asStr?.any fun s => s ≠ "" && s.length ≤ maximum && isIdentifierText s

/-- `_validate_window`. -/
def validateWindow (now : ℤ) (document : Json) : Except CogniError Unit :=
  match (document.get "issued_at").asInt?, (document.get "expires_at").asInt? with
  | some issuedAt, some expiresAt => do
      require (issuedAt < expiresAt ∧ expiresAt - issuedAt ≤ maxTtlSeconds)
        (error "Snapshot broker request lifetime is invalid")
      require (issuedAt ≤ now + maxClockSkewSeconds ∧ now ≤ expiresAt)
        (error "Snapshot broker request is expired or not yet valid")
  | _, _ => .error (error "Snapshot broker request lifetime is invalid")

/-- `_validate_execution_binding`. -/
def validateExecutionBinding (document : Json) : Except CogniError Unit :=
  require (validIdentifier (document.get "task_id") 256 = true ∧
      (document.get "attempt").asInt?.any (fun n : ℤ => 1 ≤ n) = true ∧
      validIdentifier (document.get "actor") 256 = true ∧
      isHex (document.get "run_id") 32 = true ∧
      isHex (document.get "validation_contract_sha256") 64 = true)
    (error "Snapshot broker execution binding is invalid")

/-- The operations of the protocol. -/
inductive Operation
  | acquire
  | release
  deriving DecidableEq

/-- The keys of a request. -/
def Operation.keys : Operation → List String
  | acquire => acquireRequestKeys
  | release => releaseRequestKeys

/-- The operation that a request names. -/
def operationOf (document : Json) : Option Operation :=
  if document.get "operation" = .str "acquire" then some .acquire
  else if document.get "operation" = .str "release" then some .release
  else none

/-- `validate_request`. -/
def validateRequest (now : ℤ) (document : Json) : Except CogniError Operation := do
  require (document.isObj = true) (error "Snapshot broker request must be an object")
  let operation ← orRaise (operationOf document)
    (error "Snapshot broker request schema is not exact")
  require (document.keys = operation.keys)
    (error "Snapshot broker request schema is not exact")
  require ((document.get "schema_version").equalsInt schemaVersion = true ∧
      document.get "protocol_id" = .str protocolId ∧
      validIdentifier (document.get "request_id") maxNonceBytes = true ∧
      validIdentifier (document.get "nonce") maxNonceBytes = true)
    (error "Snapshot broker request identity is invalid")
  validateWindow now document
  validateExecutionBinding document
  match operation with
  | .acquire =>
      require (document.get "source_descriptor_type" = .str sourceDescriptorType ∧
          isHex (document.get "source_commit") 40 = true ∧
          isHex (document.get "tree_oid") 40 = true ∧
          document.get "materialization_policy" = .str materializationPolicyId ∧
          isHex (document.get "expected_snapshot_sha256") 64 = true)
        (error "Snapshot broker acquire binding is invalid")
  | .release =>
      require (validIdentifier (document.get "lease_id") maxNonceBytes = true ∧
          isHex (document.get "acquire_attestation_sha256") 64 = true ∧
          isHex (document.get "receipt_preimage_sha256") 64 = true)
        (error "Snapshot broker release binding is invalid")
  .ok operation

/-! ## What an accepted request has -/

/-- The `expires_at` of a request. -/
def expiresAt (document : Json) : ℤ := ((document.get "expires_at").asInt?).getD 0

/-- The nonce of a request. -/
def nonceOf (document : Json) : String := ((document.get "nonce").asStr?).getD ""

end SnapshotBroker
