/-
# The leases of the snapshot broker

`SnapshotBrokerDaemon` of `snapshot_broker.py`: the leases in memory, their records and their
namespaces on the disk, the cache of cleanup responses, and the bodies that change them under the
lease lock.  A body is a program that says which steps it makes on the disk.

* `acquire`, `release`, `evictExpiredLeases`, `rollbackAcquireResponse` : the bodies;
* `next` : what the connection threads do, one body or one message at a time;
* `broker_sound` : leases, records and namespaces correspond, and a cleanup is signed once, for a
  namespace that is gone, and goes to the caller that has acquired it.
-/
import CogniOS.StateProgram
import CogniOS.NonceStore
import CogniOS.BrokerFrames
import CogniOS.VerifierProtocol
import CogniOS.FileStore

namespace BrokerDaemon

open SnapshotBroker (error Operation Attestation NonceRoot canonicalJsonBytes canonicalJsonSha256
  validateRequest validateSignedEnvelope protocolId schemaVersion materializationPolicyId
  signatureAlgorithm descriptorType isHex validIdentifier maxFrameBytes)
open StateProgram
open FileStore (Directory)

/-! ## Constants -/

def maxActiveBrokerLeases : ℕ := 64

def brokerLeaseTtlSeconds : ℤ := 3600

/-- `MAX_PERSISTED_LEASE_FILES`. -/
def maxPersistedLeaseFiles : ℕ := maxActiveBrokerLeases * 2

/-- `MAX_CLEANUP_TOMBSTONES`. -/
def maxCleanupTombstones : ℕ := maxActiveBrokerLeases * 2

/-- `BROKER_STORE_ROOT`. -/
def storeRoot : String := "/run/cogni-os/trusted-snapshots"

/-- A `FileNotFoundError`. -/
def notFound : CogniError := ⟨.os, "No such file or directory"⟩

/-- A `FileExistsError`. -/
def fileExists : CogniError := ⟨.os, "File exists"⟩

/-! ## The state of the daemon -/

/-- What `SO_PEERCRED` says of a connection. -/
structure Peer where
  pid : ℕ
  uid : ℕ
  gid : ℕ
  deriving DecidableEq

/-- `_ServerLease`; its `snapshot_path` is the lease id under the store root.  The parts that come
from the request are kept as they stand there. -/
structure ServerLease where
  leaseId : String
  callerUid : ℕ
  callerGid : ℕ
  callerPid : ℕ
  snapshot : Json
  snapshotDevice : ℕ
  snapshotInode : ℕ
  acquireAttestationSha256 : String
  expiresAt : ℤ
  taskId : Json
  attempt : Json
  actor : Json
  runId : Json
  validationContractSha256 : Json

/-- `_CleanupTombstone`. -/
structure Tombstone where
  callerUid : ℕ
  callerGid : ℕ
  requestSha256 : String
  expiresAt : ℤ
  response : Json

/-- The root of a namespace. -/
structure Tree where
  device : ℕ
  inode : ℕ
  ownerUid : ℕ
  mode : ℕ
  deriving DecidableEq

/-- The lease root and the store root. -/
structure Disk where
  records : Directory
  store : AList fun _ : String => Tree

/-- A step on the disk.  What is copied into a namespace, or removed from it, is left out. -/
inductive DiskOp
  | mkdir (name : String) (device inode : ℕ)
  | fchmod (name : String) (mode : ℕ)
  | rmdir (name : String)
  | create (name : String)
  | write (name : String) (content : List UInt8)
  | rename (source target : String)
  | unlink (name : String)

/-- A step of the daemon, which runs as uid 0. -/
def DiskOp.apply (d : Disk) : DiskOp → Disk
  | .mkdir name device inode => { d with store := d.store.insert name ⟨device, inode, 0, 0o700⟩ }
  | .fchmod name mode =>
      match d.store.lookup name with
      | some tree => { d with store := d.store.insert name { tree with mode := mode } }
      | none => d
  | .rmdir name => { d with store := d.store.erase name }
  | .create name => { d with records := d.records.insert name [] }
  | .write name content => { d with records := d.records.insert name content }
  | .rename source target =>
      match d.records.lookup source with
      | some content => { d with records := (d.records.erase source).insert target content }
      | none => d
  | .unlink name => { d with records := d.records.erase name }

theorem DiskOp.apply_fchmod {d : Disk} {name : String} {tree : Tree}
    (h : d.store.lookup name = some tree) (mode : ℕ) :
    (DiskOp.fchmod name mode).apply d =
      { d with store := d.store.insert name { tree with mode := mode } } := by
  show (match d.store.lookup name with | some _ => _ | none => _) = _
  rw [h]

theorem DiskOp.apply_rename {d : Disk} {source : String} {content : List UInt8}
    (h : d.records.lookup source = some content) (target : String) :
    (DiskOp.rename source target).apply d =
      { d with records := (d.records.erase source).insert target content } := by
  show (match d.records.lookup source with | some _ => _ | none => _) = _
  rw [h]

/-- A cleanup response, with the lease and the caller it was made for. -/
structure Cleaned where
  leaseId : String
  uid : ℕ
  gid : ℕ
  response : Json

/-- The daemon between two bodies.  The last three are its history. -/
structure World where
  disk : Disk
  leases : AList fun _ : String => ServerLease
  tombstones : List (String × Tombstone)
  nonces : NonceRoot
  /-- The steps made on the disk. -/
  trace : List DiskOp
  /-- The leases that were granted. -/
  granted : List ServerLease
  /-- The cleanups that were signed for a namespace that was then removed. -/
  cleaned : List Cleaned

/-- A body of the daemon. -/
abbrev Broker (α : Type) : Type := Program World CogniError α

/-- Make a step on the disk. -/
def perform (op : DiskOp) : Broker Unit :=
  Program.modify fun w => { w with disk := op.apply w.disk, trace := w.trace ++ [op] }

/-! ## Lease records -/

/-- `_lease_record_path`. -/
def recordName (leaseId : String) : String := leaseId ++ ".json"

/-- `snapshot_path` as text. -/
def snapshotPath (leaseId : String) : String := storeRoot ++ "/" ++ leaseId

/-- `_lease_record`, in key order. -/
def leaseRecord (lease : ServerLease) : Json :=
  .obj [("acquire_attestation_sha256", .str lease.acquireAttestationSha256),
    ("actor", lease.actor), ("attempt", lease.attempt), ("caller_gid", .int lease.callerGid),
    ("caller_pid", .int lease.callerPid), ("caller_uid", .int lease.callerUid),
    ("expires_at", .int lease.expiresAt), ("lease_id", .str lease.leaseId),
    ("run_id", lease.runId), ("schema_version", .int 1),
    ("snapshot_device", .int lease.snapshotDevice), ("snapshot_inode", .int lease.snapshotInode),
    ("snapshot_path", .str (snapshotPath lease.leaseId)),
    ("snapshot_sha256", lease.snapshot.get "sha256"), ("task_id", lease.taskId),
    ("validation_contract_sha256", lease.validationContractSha256)]

/-- The temporary name of a record. -/
def temporaryName (name : String) (token : Token) : String :=
  "." ++ name ++ "." ++ token.text ++ ".tmp"

/-- `_persist_lease`: the record is written under a temporary name and renamed. -/
def persistLease (lease : ServerLease) (temporary : Token) : Broker Unit := do
  let content ← canonicalJsonBytes (leaseRecord lease)
  let finalName := recordName lease.leaseId
  let temporaryName := temporaryName finalName temporary
  let w ← Program.get
  require (finalName ∉ w.disk.records.keys) (error "Snapshot broker lease record already exists")
  require (temporaryName ∉ w.disk.records.keys) fileExists
  perform (.create temporaryName)
  perform (.write temporaryName content)
  perform (.rename temporaryName finalName)

/-- `_delete_lease_record`. -/
def deleteLeaseRecord (leaseId : String) : Broker Unit := do
  let w ← Program.get
  if recordName leaseId ∈ w.disk.records.keys then perform (.unlink (recordName leaseId))
  else pure ()

/-! ## Namespaces -/

/-- The root has the identity of the lease. -/
def Tree.Protects (tree : Tree) (lease : ServerLease) : Prop :=
  tree.ownerUid = 0 ∧ tree.mode = 0o555 ∧ tree.device = lease.snapshotDevice ∧
    tree.inode = lease.snapshotInode

instance (tree : Tree) (lease : ServerLease) : Decidable (tree.Protects lease) :=
  inferInstanceAs (Decidable (_ ∧ _))

/-- `_lease_namespace_identity`. -/
def leaseNamespaceIdentity (lease : ServerLease) : Broker Unit := do
  let w ← Program.get
  let tree ← orRaise (w.disk.store.lookup lease.leaseId) notFound
  require (tree.Protects lease) (error "Snapshot broker lease pathname identity changed")

/-- `_remove_committed_snapshot`: the root is made writable, emptied and removed. -/
def removeCommittedSnapshot (name : String) : Broker Unit := do
  let w ← Program.get
  let tree ← orRaise (w.disk.store.lookup name) notFound
  require (tree.ownerUid = 0) (error "Snapshot broker cleanup root is unsafe")
  perform (.fchmod name 0o700)
  perform (.rmdir name)

/-- `_remove_lease_namespace`. -/
def removeLeaseNamespace (lease : ServerLease) : Broker Unit := do
  leaseNamespaceIdentity lease
  removeCommittedSnapshot lease.leaseId
  let w ← Program.get
  require (lease.leaseId ∉ w.disk.store.keys)
    (error "Snapshot broker cleanup did not remove the lease")

/-- Forget a lease. -/
def forget (leaseId : String) : Broker Unit :=
  Program.modify fun w => { w with leases := w.leases.erase leaseId }

/-- Run a program where a namespace is there. -/
def whereThere (name : String) (x : Broker Unit) : Broker Unit := do
  let w ← Program.get
  if name ∈ w.disk.store.keys then x else pure ()

/-- The namespace where it is there, the record and the lease. -/
def dropLease (lease : ServerLease) : Broker Unit := do
  whereThere lease.leaseId (removeLeaseNamespace lease)
  deleteLeaseRecord lease.leaseId
  forget lease.leaseId

/-- `_evict_expired_leases`. -/
def evictExpiredLeases (now : ℤ) : Broker Unit := do
  let w ← Program.get
  ((w.leases.entries.map Sigma.snd).filter fun lease => lease.expiresAt < now).forM dropLease

/-- `_rollback_acquire_response`. -/
def rollbackAcquireResponse (leaseId : String) : Broker Unit := do
  let w ← Program.get
  match w.leases.lookup leaseId with
  | none => pure ()
  | some lease => dropLease lease

/-! ## The cache of cleanup responses -/

/-- The lease id of a request. -/
def leaseIdOf (request : Json) : String := (request.get "lease_id").asStr?.getD ""

/-- `_cached_cleanup_response`. -/
def cachedCleanupResponse (h : Hasher) (now : ℤ) (peer : Peer) (request : Json) :
    Broker (Option Json) := do
  Program.modify fun w => { w with tombstones := w.tombstones.filter fun p => ¬p.2.expiresAt < now }
  let w ← Program.get
  match w.tombstones.lookup (leaseIdOf request) with
  | none => pure none
  | some tombstone => do
      let requestSha256 ← canonicalJsonSha256 h request
      require (tombstone.callerUid = peer.uid ∧ tombstone.callerGid = peer.gid ∧
          tombstone.requestSha256 = requestSha256)
        (error "Snapshot broker cleanup retry does not match the original")
      pure (some tombstone.response)

/-- An item of a dictionary is set. -/
def assign {α : Type} (key : String) (value : α) (items : List (String × α)) :
    List (String × α) :=
  if items.any (·.1 = key) then items.map fun p => if p.1 = key then (key, value) else p
  else items ++ [(key, value)]

/-- The oldest responses make room for one more. -/
def makeRoom {α : Type} (items : List α) : List α :=
  items.drop (items.length - (maxCleanupTombstones - 1))

theorem makeRoom_subset {α : Type} (items : List α) : makeRoom items ⊆ items :=
  List.drop_subset _ _

/-- `_remember_cleanup_response`. -/
def rememberCleanupResponse (h : Hasher) (peer : Peer) (request response : Json) :
    Broker Unit := do
  let requestSha256 ← canonicalJsonSha256 h request
  Program.modify fun w => { w with
    tombstones := assign (leaseIdOf request)
      ⟨peer.uid, peer.gid, requestSha256, SnapshotBroker.expiresAt request, response⟩
      (makeRoom w.tombstones) }

/-! ## Signing -/

/-- What the key of the broker gives for a payload. -/
structure Signature where
  publicKeySha256 : String
  signatureB64 : String

/-- A signed envelope. -/
def envelope (payload : Json) (s : Signature) : Json :=
  .obj [("algorithm", .str signatureAlgorithm), ("payload", payload),
    ("public_key_sha256", .str s.publicKeySha256), ("schema_version", .int schemaVersion),
    ("signature_b64", .str s.signatureB64)]

/-- The signature that stands in while a payload is checked. -/
def blankSignature : Signature where
  publicKeySha256 := String.ofList (List.replicate 64 '0')
  signatureB64 := String.ofList (Base64.encode (List.replicate 64 48))

/-- `sign_payload`. -/
def signPayload (sign : Json → Except CogniError Signature) (a : Attestation) (payload : Json) :
    Except CogniError Json := do
  let _ ← validateSignedEnvelope (envelope payload blankSignature) a
  let signature ← sign payload
  .ok (envelope payload signature)

/-! ## Acquiring -/

/-- What becomes of the copy of the source. -/
inductive Copied
  /-- It is refused before the namespace is made. -/
  | refused (e : CogniError)
  /-- It stops before the root of the namespace is sealed. -/
  | stopped (device inode : ℕ) (e : CogniError)
  | made (device inode : ℕ) (directories files : List Json) (sizeBytes : ℤ)

/-- What one call of `_acquire` meets. -/
structure Acquisition where
  /-- The manifest hash of `runtime_binding`. -/
  runtimeManifestSha256 : Option String
  /-- `_require_sealed_source_descriptor`. -/
  sealedSource : Except CogniError Unit
  /-- `secrets.token_hex`, for the lease, the temporary record and the nonce of the broker. -/
  token : Token
  temporary : Token
  brokerNonce : String
  copied : Copied
  now : ℤ

/-- The id of a new lease. -/
def newLeaseId (token : Token) : String := "lease-" ++ token.text

/-- What `_copy_sealed_source_descriptor` returns. -/
def snapshotDocument (h : Hasher) (request : Json) (directories files : List Json)
    (sizeBytes : ℤ) : Json :=
  .obj [("directories", .arr directories), ("file_count", .int files.length),
    ("files", .arr files), ("materialization_policy", .str materializationPolicyId),
    ("object_format", .str "sha1"), ("schema_version", .int 1),
    ("sha256", .str (h.hexdigest (Json.obj [("directories", .arr directories),
      ("files", .arr files)]).encoding)),
    ("size_bytes", .int sizeBytes), ("source_commit", request.get "source_commit"),
    ("tree_oid", request.get "tree_oid")]

/-- `os.mkdir` of a namespace. -/
def makeNamespace (name : String) (device inode : ℕ) : Broker Unit := do
  let w ← Program.get
  require (name ∉ w.disk.store.keys) fileExists
  perform (.mkdir name device inode)

/-- `_copy_sealed_source_descriptor`. -/
def copySealedSourceDescriptor (h : Hasher) (copied : Copied) (leaseId : String)
    (request : Json) : Broker Json :=
  match copied with
  | .refused e => Except.error (α := Json) e
  | .stopped device inode e => do
      makeNamespace leaseId device inode
      Except.error (α := Json) e
  | .made device inode directories files sizeBytes => do
      makeNamespace leaseId device inode
      perform (.fchmod leaseId 0o555)
      pure (snapshotDocument h request directories files sizeBytes)

/-- The payload of an acquire attestation. -/
def acquirePayload (a : Acquisition) (peer : Peer) (request snapshot : Json) (tree : Tree)
    (requestSha256 runtimeManifestSha256 : String) : Json :=
  .obj [("actor", request.get "actor"), ("attempt", request.get "attempt"),
    ("broker_nonce", .str a.brokerNonce),
    ("broker_runtime_manifest_sha256", .str runtimeManifestSha256),
    ("caller_gid", .int peer.gid), ("caller_pid", .int peer.pid), ("caller_uid", .int peer.uid),
    ("descriptor_type", .str descriptorType), ("expires_at", .int (a.now + brokerLeaseTtlSeconds)),
    ("issued_at", .int a.now), ("kind", .str Attestation.acquired.kind),
    ("lease_id", .str (newLeaseId a.token)),
    ("materialization_policy", snapshot.get "materialization_policy"),
    ("protocol_id", .str protocolId), ("request_id", request.get "request_id"),
    ("request_nonce", request.get "nonce"), ("request_sha256", .str requestSha256),
    ("run_id", request.get "run_id"), ("schema_version", .int schemaVersion),
    ("snapshot_device", .int tree.device), ("snapshot_inode", .int tree.inode),
    ("snapshot_owner_uid", .int tree.ownerUid), ("snapshot_sha256", snapshot.get "sha256"),
    ("source_commit", snapshot.get "source_commit"), ("task_id", request.get "task_id"),
    ("tree_oid", snapshot.get "tree_oid"),
    ("validation_contract_sha256", request.get "validation_contract_sha256")]

/-- The lease of an acquire request. -/
def newLease (a : Acquisition) (peer : Peer) (request snapshot : Json) (tree : Tree)
    (attestationSha256 : String) : ServerLease where
  leaseId := newLeaseId a.token
  callerUid := peer.uid
  callerGid := peer.gid
  callerPid := peer.pid
  snapshot := snapshot
  snapshotDevice := tree.device
  snapshotInode := tree.inode
  acquireAttestationSha256 := attestationSha256
  expiresAt := a.now + brokerLeaseTtlSeconds
  taskId := request.get "task_id"
  attempt := request.get "attempt"
  actor := request.get "actor"
  runId := request.get "run_id"
  validationContractSha256 := request.get "validation_contract_sha256"

/-- What the daemon has from its installation. -/
structure Config where
  hasher : Hasher
  /-- The key of the broker. -/
  sign : Json → Except CogniError Signature
  /-- The class and the text of an exception, as an error response has them. -/
  errorCode : CogniError → String
  errorText : CogniError → String

/-- The lease is in memory. -/
def enterLease (lease : ServerLease) : Broker Unit :=
  Program.modify fun w => { w with
    leases := w.leases.insert lease.leaseId lease
    granted := w.granted ++ [lease] }

/-- The response to an acquire request. -/
def acquireResponse (request snapshot attestation : Json) : Json :=
  .obj [("attestation", attestation), ("ok", .bool true), ("operation", .str "acquire"),
    ("protocol_id", .str protocolId), ("request_id", request.get "request_id"),
    ("schema_version", .int schemaVersion), ("snapshot", snapshot)]

/-- The `try` of `_acquire`. -/
def materialize (cfg : Config) (a : Acquisition) (peer : Peer) (request : Json)
    (runtimeManifestSha256 : String) : Broker Json := do
  let leaseId := newLeaseId a.token
  let snapshot ← copySealedSourceDescriptor cfg.hasher a.copied leaseId request
  let w ← Program.get
  let tree ← orRaise (w.disk.store.lookup leaseId) notFound
  require (tree.ownerUid = 0 ∧ tree.mode = 0o555)
    (error "Broker materialized an unsafe snapshot root")
  require (snapshot.get "sha256" = request.get "expected_snapshot_sha256")
    (error "Broker snapshot does not match the requested manifest")
  let requestSha256 ← canonicalJsonSha256 cfg.hasher request
  let attestation ← signPayload cfg.sign .acquired
    (acquirePayload a peer request snapshot tree requestSha256 runtimeManifestSha256)
  let attestationSha256 ← canonicalJsonSha256 cfg.hasher attestation
  let lease := newLease a peer request snapshot tree attestationSha256
  persistLease lease a.temporary
  enterLease lease
  pure (acquireResponse request snapshot attestation)

/-- The `except` of `_acquire`; nothing raises after the record is there. -/
def abandon (leaseId : String) (e : CogniError) : Broker Json := do
  forget leaseId
  whereThere leaseId (removeCommittedSnapshot leaseId)
  Except.error (α := Json) e

/-- `_acquire`. -/
def acquire (cfg : Config) (a : Acquisition) (peer : Peer) (request : Json) : Broker Json := do
  let w ← Program.get
  require (w.leases.keys.length < maxActiveBrokerLeases)
    (error "Snapshot broker active lease limit was reached")
  require (request.get "materialization_policy" = .str materializationPolicyId)
    (error "Snapshot materialization policy is unsupported")
  let runtimeManifestSha256 ← orRaise a.runtimeManifestSha256
    (error "Snapshot broker runtime provenance is unavailable")
  a.sealedSource
  Program.tryCatch (materialize cfg a peer request runtimeManifestSha256)
    (abandon (newLeaseId a.token))

/-! ## Releasing -/

/-- What one call of `_release` meets. -/
structure Releasing where
  runtimeManifestSha256 : Option String
  brokerNonce : String
  now : ℤ

/-- The payload of a cleanup attestation. -/
def cleanupPayload (r : Releasing) (peer : Peer) (request : Json) (lease : ServerLease)
    (requestSha256 runtimeManifestSha256 : String) : Json :=
  .obj [("acquire_attestation_sha256", .str lease.acquireAttestationSha256),
    ("actor", lease.actor), ("attempt", lease.attempt), ("broker_nonce", .str r.brokerNonce),
    ("broker_runtime_manifest_sha256", .str runtimeManifestSha256),
    ("caller_gid", .int peer.gid), ("caller_pid", .int peer.pid), ("caller_uid", .int peer.uid),
    ("issued_at", .int r.now), ("kind", .str Attestation.cleaned.kind),
    ("lease_id", .str lease.leaseId), ("namespace_removed", .bool true),
    ("protocol_id", .str protocolId),
    ("receipt_preimage_sha256", request.get "receipt_preimage_sha256"),
    ("request_id", request.get "request_id"), ("request_nonce", request.get "nonce"),
    ("request_sha256", .str requestSha256), ("run_id", lease.runId),
    ("schema_version", .int schemaVersion), ("snapshot_device", .int lease.snapshotDevice),
    ("snapshot_inode", .int lease.snapshotInode),
    ("snapshot_sha256", lease.snapshot.get "sha256"), ("task_id", lease.taskId),
    ("validation_contract_sha256", lease.validationContractSha256)]

/-- The response to a release request. -/
def releaseResponse (request cleanup : Json) : Json :=
  .obj [("cleanup_attestation", cleanup), ("ok", .bool true), ("operation", .str "release"),
    ("protocol_id", .str protocolId), ("request_id", request.get "request_id"),
    ("schema_version", .int schemaVersion)]

/-- The request is for the execution of the lease. -/
def SameBinding (request : Json) (lease : ServerLease) : Prop :=
  request.get "task_id" = lease.taskId ∧ request.get "attempt" = lease.attempt ∧
    request.get "actor" = lease.actor ∧ request.get "run_id" = lease.runId ∧
    request.get "validation_contract_sha256" = lease.validationContractSha256

instance (request : Json) (lease : ServerLease) : Decidable (SameBinding request lease) :=
  inferInstanceAs (Decidable (_ ∧ _))

/-- The cleanup of a namespace that is gone. -/
def recordCleanup (leaseId : String) (peer : Peer) (response : Json) : Broker Unit :=
  Program.modify fun w =>
    { w with cleaned := w.cleaned ++ [⟨leaseId, peer.uid, peer.gid, response⟩] }

/-- `_release`. -/
def release (cfg : Config) (r : Releasing) (peer : Peer) (request : Json) : Broker Json := do
  let w ← Program.get
  let lease ← orRaise (w.leases.lookup (leaseIdOf request))
    (error "Snapshot broker lease does not exist")
  require (lease.callerUid = peer.uid ∧ lease.callerGid = peer.gid)
    (error "Snapshot broker lease belongs to another caller")
  require (request.get "acquire_attestation_sha256" = .str lease.acquireAttestationSha256)
    (error "Snapshot broker release proof does not match acquisition")
  require (SameBinding request lease)
    (error "Snapshot broker release execution binding changed")
  let runtimeManifestSha256 ← orRaise r.runtimeManifestSha256
    (error "Snapshot broker runtime provenance is unavailable")
  let requestSha256 ← canonicalJsonSha256 cfg.hasher request
  let cleanup ← signPayload cfg.sign .cleaned
    (cleanupPayload r peer request lease requestSha256 runtimeManifestSha256)
  removeLeaseNamespace lease
  let response := releaseResponse request cleanup
  rememberCleanupResponse cfg.hasher peer request response
  deleteLeaseRecord lease.leaseId
  forget lease.leaseId
  recordCleanup lease.leaseId peer response
  pure response

/-! ## Connections -/

/-- How far a connection has come; where it holds a message, the message is sent next. -/
inductive Stage
  | accepted
  | evicted
  /-- A release request, before the cache is asked. -/
  | received (request : Json)
  | uncached (operation : Operation) (request : Json)
  | admitted (operation : Operation) (request : Json)
  | granting (request : Json) (leaseId : String) (response : Json)
  | withdrawing (request : Json) (leaseId : String) (e : CogniError)
  | answering (request response : Json)
  | refusing (response : Json)
  | closed

structure Connection where
  peer : Peer
  stage : Stage

/-- `_error_response`. -/
def errorResponse (cfg : Config) (operation : String) (requestId : Json) (e : CogniError) : Json :=
  .obj [("error_code", .str (cfg.errorCode e)), ("message", .str (cfg.errorText e)),
    ("ok", .bool false), ("operation", .str operation), ("protocol_id", .str protocolId),
    ("request_id", requestId), ("schema_version", .int schemaVersion)]

/-- The operation of a request as text. -/
def operationText : Operation → String
  | .acquire => "acquire"
  | .release => "release"

/-- `except` of `handle_connection`: the operation and the request id are those known so far. -/
def Stage.failed (cfg : Config) (e : CogniError) : Stage → Stage
  | .received request =>
      .refusing (errorResponse cfg "release" (request.get "request_id") e)
  | .uncached operation request =>
      .refusing (errorResponse cfg (operationText operation) (request.get "request_id") e)
  | .admitted operation request =>
      .refusing (errorResponse cfg (operationText operation) (request.get "request_id") e)
  | .withdrawing request _ _ =>
      .refusing (errorResponse cfg "acquire" (request.get "request_id") e)
  | _ => .refusing (errorResponse cfg "error" (.str "unknown") e)

/-- What a connection does next, other than sending. -/
inductive Act
  | evict (now : ℤ)
  /-- A frame comes with this number of descriptors. -/
  | receive (now : ℤ) (frame : Except CogniError Json) (descriptors : ℕ)
  | lookup (now : ℤ)
  | consume (now : ℤ)
  | acquire (a : Acquisition)
  | release (r : Releasing)
  | rollback

/-- The descriptors that a request comes with. -/
def expectedDescriptors : Operation → ℕ
  | .acquire => 1
  | .release => 0

/-- The stage after a valid request. -/
def afterRequest (cfg : Config) (operation : Operation) (request : Json) (descriptors : ℕ) :
    Stage :=
  if descriptors ≠ expectedDescriptors operation then
    .refusing (errorResponse cfg (operationText operation) (request.get "request_id")
      (error "Snapshot broker source descriptor count does not match the request"))
  else
    match operation with
    | .acquire => .uncached .acquire request
    | .release => .received request

/-- The stage after the cache was asked. -/
def afterLookup (request : Json) : Option Json → Stage
  | some response => .answering request response
  | none => .uncached .release request

/-- `_NonceReplayStore.consume`. -/
def consumeNonce (h : Hasher) (now : ℤ) (peer : Peer) (request : Json) : Broker Unit := do
  let w ← Program.get
  let outcome := SnapshotBroker.consume h now peer.uid (SnapshotBroker.nonceOf request)
    (SnapshotBroker.expiresAt request) w.nonces
  Program.modify fun w => { w with nonces := outcome.1 }
  outcome.2

/-- One part of `handle_connection`; an act that does not fit the stage is none. -/
def advance (cfg : Config) (peer : Peer) : Stage → Act → Broker Stage
  | .accepted, .evict now => do
      evictExpiredLeases now
      pure .evicted
  | .evicted, .receive now frame descriptors => do
      let request ← frame
      let operation ← validateRequest now request
      pure (afterRequest cfg operation request descriptors)
  | .received request, .lookup now => do
      let cached ← cachedCleanupResponse cfg.hasher now peer request
      pure (afterLookup request cached)
  | .uncached operation request, .consume now => do
      consumeNonce cfg.hasher now peer request
      pure (.admitted operation request)
  | .admitted .acquire request, .acquire a => do
      let response ← acquire cfg a peer request
      pure (.granting request (newLeaseId a.token) response)
  | .admitted .release request, .release r => do
      let response ← release cfg r peer request
      pure (.answering request response)
  | .withdrawing _ leaseId e, .rollback => do
      rollbackAcquireResponse leaseId
      Except.error (α := Stage) e
  | stage, _ => pure stage

/-- The message of a stage. -/
def Stage.message : Stage → Option Json
  | .granting _ _ response => some response
  | .answering _ response => some response
  | .refusing response => some response
  | _ => none

/-- The stage after a message was sent, or could not be. -/
def Stage.afterSend (cfg : Config) : Stage → Except CogniError Unit → Stage
  | .granting request leaseId _, .error e => .withdrawing request leaseId e
  | .answering request _, .error e =>
      .refusing (errorResponse cfg "release" (request.get "request_id") e)
  | _, _ => .closed

/-- A message that a connection has sent, or tried to send. -/
structure Message where
  peer : Peer
  response : Json

/-- The daemon with its connections. -/
structure System where
  world : World
  connections : List Connection
  sent : List Message

/-- What happens next. -/
inductive Event
  /-- A peer connects, and is authorized or not. -/
  | connect (peer : Peer) (authorized : Except CogniError Unit)
  | act (k : ℕ) (a : Act)
  | send (k : ℕ) (outcome : Except CogniError Unit)

/-- The first stage of a connection. -/
def firstStage (cfg : Config) : Except CogniError Unit → Stage
  | .ok () => .accepted
  | .error e => .refusing (errorResponse cfg "error" (.str "unknown") e)

/-- A connection makes an act. -/
def System.act (cfg : Config) (s : System) (k : ℕ) (c : Connection) (a : Act) : System :=
  match advance cfg c.peer c.stage a s.world with
  | (.ok stage, w) => ⟨w, s.connections.set k ⟨c.peer, stage⟩, s.sent⟩
  | (.error e, w) => ⟨w, s.connections.set k ⟨c.peer, c.stage.failed cfg e⟩, s.sent⟩

/-- A connection sends its message. -/
def System.send (cfg : Config) (s : System) (k : ℕ) (c : Connection)
    (outcome : Except CogniError Unit) : System :=
  c.stage.message.elim s fun response =>
    ⟨s.world, s.connections.set k ⟨c.peer, c.stage.afterSend cfg outcome⟩,
      s.sent ++ [⟨c.peer, response⟩]⟩

/-- One step of the daemon. -/
def next (cfg : Config) (s : System) : Event → System
  | .connect peer authorized =>
      { s with connections := s.connections ++ [⟨peer, firstStage cfg authorized⟩] }
  | .act k a => s.connections[k]?.elim s fun c => s.act cfg k c a
  | .send k outcome => s.connections[k]?.elim s fun c => s.send cfg k c outcome

/-- `secrets.token_hex` does not return the token of a lease again. -/
def Fresh (s : System) : Event → Prop
  | .act _ (.acquire a) => ∀ lease ∈ s.world.granted, lease.leaseId ≠ newLeaseId a.token
  | _ => True

/-- The steps of the daemon. -/
def Step (cfg : Config) (s : System) (e : Event) (t : System) : Prop := t = next cfg s e

/-! ## What the bodies do -/

section Dictionary

variable {β : Type}

theorem lookup_insert_eq (d : AList fun _ : String => β) (key : String) (value : β) :
    (d.insert key value).lookup = Function.update d.lookup key (some value) := by
  funext k
  by_cases hk : k = key
  · rw [hk, AList.lookup_insert, Function.update_self]
  · rw [AList.lookup_insert_ne hk, Function.update_of_ne hk]

theorem lookup_erase_eq (d : AList fun _ : String => β) (key : String) :
    (d.erase key).lookup = Function.update d.lookup key none := by
  funext k
  by_cases hk : k = key
  · rw [hk, AList.lookup_erase, Function.update_self]
  · rw [AList.lookup_erase_ne hk, Function.update_of_ne hk]

theorem notMem_keys {d : AList fun _ : String => β} {key : String} :
    key ∉ d.keys ↔ d.lookup key = none :=
  AList.lookup_eq_none.symm

theorem mem_keys {d : AList fun _ : String => β} {key : String} :
    key ∈ d.keys ↔ d.lookup key ≠ none := by
  rw [Ne, ← notMem_keys, not_not]

end Dictionary

/-- What a body leaves alone. -/
structure Frame (w w' : World) : Prop where
  tombstones : w'.tombstones = w.tombstones
  nonces : w'.nonces = w.nonces
  cleaned : w'.cleaned = w.cleaned

theorem Frame.refl (w : World) : Frame w w := ⟨rfl, rfl, rfl⟩

theorem Frame.trans {w w' w'' : World} (h : Frame w w') (h' : Frame w' w'') : Frame w w'' :=
  ⟨h'.tombstones.trans h.tombstones, h'.nonces.trans h.nonces, h'.cleaned.trans h.cleaned⟩

/-- A namespace is removed. -/
structure Unmade (name : String) (w w' : World) : Prop extends Frame w w' where
  leases : w'.leases = w.leases
  records : w'.disk.records = w.disk.records
  store : w'.disk.store.lookup = Function.update w.disk.store.lookup name none
  granted : w'.granted = w.granted

/-- A namespace and its record are removed. -/
structure Unrecorded (leaseId : String) (w w' : World) : Prop extends Frame w w' where
  leases : w'.leases = w.leases
  records : w'.disk.records.lookup =
    Function.update w.disk.records.lookup (recordName leaseId) none
  store : w'.disk.store.lookup = Function.update w.disk.store.lookup leaseId none
  granted : w'.granted = w.granted

/-- Whatever there was of a lease is gone. -/
structure Dropped (leaseId : String) (w w' : World) : Prop extends Frame w w' where
  leases : w'.leases = w.leases.erase leaseId
  records : w'.disk.records.lookup =
    Function.update w.disk.records.lookup (recordName leaseId) none
  store : w'.disk.store.lookup = Function.update w.disk.store.lookup leaseId none
  granted : w'.granted = w.granted

/-- A lease is granted, with its record and its namespace. -/
structure Granted (lease : ServerLease) (w w' : World) : Prop extends Frame w w' where
  leases : w'.leases = w.leases.insert lease.leaseId lease
  records : w'.disk.records.lookup = Function.update w.disk.records.lookup
    (recordName lease.leaseId) (some (leaseRecord lease).encoding)
  store : ∃ tree, tree.Protects lease ∧
    w'.disk.store.lookup = Function.update w.disk.store.lookup lease.leaseId (some tree)
  granted : w'.granted = w.granted ++ [lease]

section Bodies

variable {w : World}

/-- The program starts from this world. -/
abbrev At (w v : World) : Prop := v = w

theorem triple_get {Q : World → World → Prop} {R : CogniError → World → Prop} (h : Q w w) :
    Triple (At w) Program.get Q R :=
  Triple.get fun _ hv => hv ▸ h

/-- A namespace of root is removed. -/
theorem triple_removeCommittedSnapshot (name : String) :
    Triple (At w) (removeCommittedSnapshot name) (fun _ => Unmade name w)
      fun _ v => v = w ∧ ∀ tree, w.disk.store.lookup name = some tree → tree.ownerUid ≠ 0 := by
  unfold removeCommittedSnapshot
  refine Triple.bind (Q := fun w₀ v => v = w ∧ w₀ = w) (triple_get ⟨rfl, rfl⟩) fun w₀ =>
    Triple.assume ?_
  rintro rfl
  refine Triple.bind (Q := fun tree v => v = w₀ ∧ w₀.disk.store.lookup name = some tree)
    (Triple.lift (fun v tree hv hok => ⟨hv, orRaise_eq_ok.mp hok⟩) fun v e hv herror => ⟨hv, ?_⟩)
    fun tree => Triple.assume fun htree => ?_
  · intro tree htree
    rw [htree] at herror
    cases herror
  refine Triple.bind (Q := fun _ v => v = w₀)
    (Triple.lift (fun v _ hv _ => hv) fun v e hv herror => ⟨hv, ?_⟩) fun _ => ?_
  · intro tree' htree' howner
    obtain rfl : tree = tree' := Option.some.inj (htree.symm.trans htree')
    rw [require, if_pos howner] at herror
    cases herror
  refine Triple.bind (Q := fun _ v => Frame w₀ v ∧ v.leases = w₀.leases ∧
      v.disk.records = w₀.disk.records ∧ v.granted = w₀.granted ∧
      v.disk.store.lookup = Function.update w₀.disk.store.lookup name
        (some { tree with mode := 0o700 })) (Triple.modify ?_) fun _ => Triple.modify ?_
  · rintro v rfl
    refine ⟨⟨rfl, rfl, rfl⟩, rfl, ?_, rfl, ?_⟩
    · exact (congrArg Disk.records (DiskOp.apply_fchmod htree 0o700)).trans rfl
    · refine (congrArg (fun d => d.store.lookup) (DiskOp.apply_fchmod htree _)).trans ?_
      exact lookup_insert_eq _ _ _
  · rintro v ⟨hframe, hleases, hrecords, hgranted, hstore⟩
    refine ⟨⟨hframe.tombstones, hframe.nonces, hframe.cleaned⟩, hleases, hrecords, ?_, hgranted⟩
    refine (lookup_erase_eq _ _).trans ?_
    rw [hstore, Function.update_idem]

theorem triple_leaseNamespaceIdentity (lease : ServerLease) :
    Triple (At w) (leaseNamespaceIdentity lease)
      (fun _ v => v = w ∧ ∃ tree, w.disk.store.lookup lease.leaseId = some tree ∧
        tree.Protects lease) fun _ v => v = w := by
  unfold leaseNamespaceIdentity
  refine Triple.bind (Q := fun w₀ v => v = w ∧ w₀ = w) (triple_get ⟨rfl, rfl⟩) fun w₀ =>
    Triple.assume ?_
  rintro rfl
  refine Triple.bind (Q := fun tree v => v = w₀ ∧ w₀.disk.store.lookup lease.leaseId = some tree)
    (Triple.lift (fun v tree hv hok => ⟨hv, orRaise_eq_ok.mp hok⟩) fun v e hv _ => hv) fun tree =>
    Triple.assume fun htree => ?_
  exact Triple.lift (fun v _ hv hok => ⟨hv, tree, htree, require_eq_ok.mp hok⟩) fun v e hv _ => hv

theorem triple_removeLeaseNamespace (lease : ServerLease) :
    Triple (At w) (removeLeaseNamespace lease) (fun _ => Unmade lease.leaseId w)
      fun _ v => v = w := by
  unfold removeLeaseNamespace
  refine Triple.bind (Q := fun _ v => v = w)
    ((triple_leaseNamespaceIdentity lease).weaken (fun _ h => h) (fun _ _ h => h.1)
      fun _ _ h => h) fun _ => ?_
  refine Triple.bind ((triple_removeCommittedSnapshot lease.leaseId).weaken (fun _ h => h)
    (fun _ _ h => h) fun _ _ h => h.1) fun _ => ?_
  refine Triple.bind (Q := fun w₀ v => Unmade lease.leaseId w v ∧ w₀ = v)
    (Triple.get fun v hv => ⟨hv, rfl⟩) fun w₀ => Triple.of_start ?_
  rintro v ⟨hv, rfl⟩
  refine Triple.lift (fun _ _ heq _ => heq ▸ hv) fun _ e _ herror => ?_
  -- The namespace is gone.
  have hgone : lease.leaseId ∉ w₀.disk.store.keys :=
    notMem_keys.mpr ((congrFun hv.store _).trans (Function.update_self _ _ _))
  rw [require, if_pos hgone] at herror
  cases herror

theorem unmade_of_lookup {name : String} (h : w.disk.store.lookup name = none) :
    Unmade name w w :=
  ⟨Frame.refl w, rfl, rfl, (Function.update_eq_self_iff.mpr h.symm).symm, rfl⟩

theorem triple_whereThere {name : String} {x : Broker Unit}
    (hx : Triple (At w) x (fun _ => Unmade name w) fun _ v => v = w) :
    Triple (At w) (whereThere name x) (fun _ => Unmade name w) fun _ v => v = w := by
  unfold whereThere
  refine Triple.bind (Q := fun w₀ v => v = w ∧ w₀ = w) (triple_get ⟨rfl, rfl⟩) fun w₀ =>
    Triple.assume ?_
  rintro rfl
  split
  · exact hx
  · rename_i hnone
    refine Triple.pure ?_
    rintro v rfl
    exact unmade_of_lookup (notMem_keys.mp hnone)

/-- The record goes after the namespace. -/
theorem triple_deleteLeaseRecord (leaseId : String) :
    Triple (Unmade leaseId w) (deleteLeaseRecord leaseId) (fun _ => Unrecorded leaseId w)
      fun _ _ => False := by
  unfold deleteLeaseRecord
  refine Triple.bind (Q := fun w₀ v => Unmade leaseId w v ∧ w₀ = v)
    (Triple.get fun v hv => ⟨hv, rfl⟩) fun w₀ => ?_
  split
  · refine Triple.modify ?_
    rintro v ⟨hv, rfl⟩
    refine ⟨hv.toFrame.trans ⟨rfl, rfl, rfl⟩, hv.leases, ?_, hv.store, hv.granted⟩
    refine (lookup_erase_eq _ _).trans ?_
    rw [hv.records]
  · rename_i hnone
    refine Triple.pure ?_
    rintro v ⟨hv, rfl⟩
    refine ⟨hv.toFrame, hv.leases, ?_, hv.store, hv.granted⟩
    rw [hv.records] at hnone ⊢
    exact (Function.update_eq_self_iff.mpr (notMem_keys.mp hnone).symm).symm

theorem triple_forget (leaseId : String) {R : CogniError → World → Prop} :
    Triple (Unrecorded leaseId w) (forget leaseId) (fun _ => Dropped leaseId w) R :=
  Triple.modify fun _ hv => ⟨hv.toFrame.trans ⟨rfl, rfl, rfl⟩,
    congrArg (AList.erase leaseId) hv.leases, hv.records, hv.store, hv.granted⟩

/-- **A lease is dropped whole or not at all.** -/
theorem triple_dropLease (lease : ServerLease) :
    Triple (At w) (dropLease lease) (fun _ => Dropped lease.leaseId w) fun _ v => v = w := by
  unfold dropLease
  refine Triple.bind (triple_whereThere (triple_removeLeaseNamespace lease)) fun _ => ?_
  exact Triple.bind ((triple_deleteLeaseRecord lease.leaseId).weaken (fun _ h => h)
    (fun _ _ h => h) fun _ _ h => h.elim) fun _ => triple_forget lease.leaseId

/-- A record is written. -/
structure Recorded (lease : ServerLease) (w w' : World) : Prop extends Frame w w' where
  leases : w'.leases = w.leases
  records : w'.disk.records.lookup = Function.update w.disk.records.lookup
    (recordName lease.leaseId) (some (leaseRecord lease).encoding)
  store : w'.disk.store = w.disk.store
  granted : w'.granted = w.granted
  size : (leaseRecord lease).encoding.length ≤ maxFrameBytes

theorem triple_persistLease (lease : ServerLease) (temporary : Token) :
    Triple (At w) (persistLease lease temporary) (fun _ => Recorded lease w) fun _ v => v = w := by
  unfold persistLease
  refine Triple.bind (Q := fun content v => v = w ∧
      canonicalJsonBytes (leaseRecord lease) = .ok content)
    (Triple.lift (fun v content hv hok => ⟨hv, hok⟩) fun v e hv _ => hv) fun content =>
    Triple.assume fun hcontent => ?_
  obtain ⟨hsize, rfl⟩ := Json.boundedEncoding_eq_ok.mp hcontent
  refine Triple.bind (Q := fun w₀ v => v = w ∧ w₀ = w) (triple_get ⟨rfl, rfl⟩) fun w₀ =>
    Triple.assume ?_
  rintro rfl
  refine Triple.bind (Q := fun _ v => v = w₀)
    (Triple.lift (fun v _ hv _ => hv) fun v e hv _ => hv) fun _ => ?_
  refine Triple.bind (Q := fun _ v => v = w₀ ∧
      temporaryName (recordName lease.leaseId) temporary ∉ w₀.disk.records.keys)
    (Triple.lift (fun v _ hv hok => ⟨hv, require_eq_ok.mp hok⟩) fun v e hv _ => hv) fun _ =>
    Triple.assume fun hnew => ?_
  -- The temporary name is new, so the records are as before once it is gone.
  have hsame : Function.update w₀.disk.records.lookup
      (temporaryName (recordName lease.leaseId) temporary) none = w₀.disk.records.lookup :=
    Function.update_eq_self_iff.mpr (notMem_keys.mp hnew).symm
  generalize temporaryName (recordName lease.leaseId) temporary = name at hsame
  refine Triple.bind (Q := fun _ v => Frame w₀ v ∧ v.leases = w₀.leases ∧ v.granted = w₀.granted ∧
      v.disk = ⟨w₀.disk.records.insert name [], w₀.disk.store⟩)
    (Triple.modify fun v hv => hv ▸ ⟨⟨rfl, rfl, rfl⟩, rfl, rfl, rfl⟩) fun _ => ?_
  refine Triple.bind (Q := fun _ v => Frame w₀ v ∧ v.leases = w₀.leases ∧ v.granted = w₀.granted ∧
      v.disk = ⟨(w₀.disk.records.insert name []).insert name (leaseRecord lease).encoding,
        w₀.disk.store⟩) (Triple.modify ?_) fun _ => Triple.modify ?_
  · rintro v ⟨hframe, hleases, hgranted, hdisk⟩
    refine ⟨hframe.trans ⟨rfl, rfl, rfl⟩, hleases, hgranted, ?_⟩
    have hwrite := congrArg (fun d => (DiskOp.write name (leaseRecord lease).encoding).apply d) hdisk
    exact hwrite
  · rintro v ⟨hframe, hleases, hgranted, hdisk⟩
    have hlast := DiskOp.apply_rename (d := v.disk) (by rw [hdisk]; exact AList.lookup_insert _)
      (recordName lease.leaseId)
    refine ⟨hframe.trans ⟨rfl, rfl, rfl⟩, hleases, ?_, ?_, hgranted, hsize⟩
    · refine (congrArg (fun d => d.records.lookup) hlast).trans ?_
      show ((v.disk.records.erase name).insert _ _).lookup = _
      rw [hdisk, lookup_insert_eq, lookup_erase_eq, lookup_insert_eq, lookup_insert_eq,
        Function.update_idem, Function.update_idem, hsame]
    · refine (congrArg Disk.store hlast).trans ?_
      rw [hdisk]

/-- An acquisition that has stopped: a namespace may be there. -/
structure Aborted (leaseId : String) (w w' : World) : Prop extends Frame w w' where
  leases : w'.leases = w.leases
  records : w'.disk.records = w.disk.records
  store : w'.disk.store.lookup leaseId = none ∧ w'.disk.store = w.disk.store ∨
    ∃ tree, tree.ownerUid = 0 ∧
      w'.disk.store.lookup = Function.update w.disk.store.lookup leaseId (some tree)
  granted : w'.granted = w.granted

/-- A sealed namespace. -/
structure Made (leaseId : String) (w w' : World) : Prop extends Frame w w' where
  leases : w'.leases = w.leases
  records : w'.disk.records = w.disk.records
  store : ∃ tree, tree.ownerUid = 0 ∧
    w'.disk.store.lookup = Function.update w.disk.store.lookup leaseId (some tree)
  granted : w'.granted = w.granted

theorem Made.aborted {leaseId : String} {w w' : World} (h : Made leaseId w w') :
    Aborted leaseId w w' :=
  ⟨h.toFrame, h.leases, h.records, .inr h.store, h.granted⟩

theorem aborted_of_eq {leaseId : String} {w' : World} (h : w.disk.store.lookup leaseId = none)
    (heq : w' = w) : Aborted leaseId w w' := by
  subst heq
  exact ⟨Frame.refl w', rfl, rfl, .inl ⟨h, rfl⟩, rfl⟩

theorem triple_makeNamespace {name : String} (hnone : w.disk.store.lookup name = none)
    (device inode : ℕ) :
    Triple (At w) (makeNamespace name device inode) (fun _ => Made name w)
      fun _ => Aborted name w := by
  unfold makeNamespace
  refine Triple.bind (Q := fun w₀ v => v = w ∧ w₀ = w) (triple_get ⟨rfl, rfl⟩) fun w₀ =>
    Triple.assume ?_
  rintro rfl
  refine Triple.bind (Q := fun _ v => v = w₀)
    (Triple.lift (fun v _ hv _ => hv) fun v e hv _ => aborted_of_eq hnone hv) fun _ =>
    Triple.modify ?_
  rintro v rfl
  exact ⟨⟨rfl, rfl, rfl⟩, rfl, rfl, ⟨_, rfl, lookup_insert_eq _ _ _⟩, rfl⟩

theorem triple_copySealedSourceDescriptor (h : Hasher) (copied : Copied) {leaseId : String}
    (hnone : w.disk.store.lookup leaseId = none) (request : Json) :
    Triple (At w) (copySealedSourceDescriptor h copied leaseId request)
      (fun snapshot v => Made leaseId w v ∧ isHex (snapshot.get "sha256") 64 = true)
      fun _ => Aborted leaseId w := by
  unfold copySealedSourceDescriptor
  cases copied with
  | refused e =>
    exact Triple.lift (fun v _ _ hok => (by cases hok)) fun v _ hv _ => aborted_of_eq hnone hv
  | stopped device inode e =>
    refine Triple.bind (triple_makeNamespace hnone device inode) fun _ => ?_
    exact Triple.lift (fun v _ _ hok => (by cases hok)) fun v _ hv _ => hv.aborted
  | made device inode directories files sizeBytes =>
    refine Triple.bind (triple_makeNamespace hnone device inode) fun _ => ?_
    refine Triple.bind (Q := fun _ => Made leaseId w) (Triple.modify ?_) fun _ =>
      Triple.pure fun v hv => ⟨hv, h.hex _⟩
    rintro v ⟨hframe, hleases, hrecords, ⟨tree, howner, hstore⟩, hgranted⟩
    have htree : v.disk.store.lookup leaseId = some tree :=
      (congrFun hstore leaseId).trans (Function.update_self _ _ _)
    have hmode := DiskOp.apply_fchmod htree 0o555
    refine ⟨hframe.trans ⟨rfl, rfl, rfl⟩, hleases, ?_, ⟨{ tree with mode := 0o555 }, howner, ?_⟩,
      hgranted⟩
    · exact (congrArg Disk.records hmode).trans hrecords
    · refine (congrArg (fun d => d.store.lookup) hmode).trans ?_
      refine (lookup_insert_eq _ _ _).trans ?_
      rw [hstore, Function.update_idem]

/-- What a lease has from its acquisition. -/
structure Issued (cfg : Config) (a : Acquisition) (peer : Peer) (request : Json)
    (lease : ServerLease) : Prop where
  leaseId : lease.leaseId = newLeaseId a.token
  callerUid : lease.callerUid = peer.uid
  callerGid : lease.callerGid = peer.gid
  taskId : lease.taskId = request.get "task_id"
  attempt : lease.attempt = request.get "attempt"
  actor : lease.actor = request.get "actor"
  runId : lease.runId = request.get "run_id"
  validationContractSha256 :
    lease.validationContractSha256 = request.get "validation_contract_sha256"
  snapshot : isHex (lease.snapshot.get "sha256") 64 = true
  attestation : Hex.isHex 64 lease.acquireAttestationSha256 = true
  size : (leaseRecord lease).encoding.length ≤ maxFrameBytes

theorem isHex_of_canonicalJsonSha256 {h : Hasher} {value : Json} {sha256 : String}
    (hok : canonicalJsonSha256 h value = .ok sha256) : Hex.isHex 64 sha256 = true := by
  unfold canonicalJsonSha256 at hok
  obtain ⟨encoded, -, hok⟩ := bind_eq_ok.mp hok
  exact Except.ok.inj hok ▸ h.hex encoded

theorem triple_materialize (cfg : Config) (a : Acquisition) (peer : Peer) (request : Json)
    (runtimeManifestSha256 : String) (hnone : w.disk.store.lookup (newLeaseId a.token) = none) :
    Triple (At w) (materialize cfg a peer request runtimeManifestSha256)
      (fun response v => ∃ lease snapshot attestation, Granted lease w v ∧
        Issued cfg a peer request lease ∧ response = acquireResponse request snapshot attestation)
      fun _ => Aborted (newLeaseId a.token) w := by
  unfold materialize
  refine Triple.bind (triple_copySealedSourceDescriptor cfg.hasher a.copied hnone request)
    fun snapshot => Triple.assume fun hsnapshot => ?_
  refine Triple.bind (Q := fun w₀ v => Made (newLeaseId a.token) w v ∧ w₀ = v)
    (Triple.get fun v hv => ⟨hv, rfl⟩) fun w₀ => Triple.of_start ?_
  rintro v ⟨hmade, rfl⟩
  -- Nothing is written before the record, so a raise leaves only the namespace.
  have habort : ∀ u, u = w₀ → Aborted (newLeaseId a.token) w u := by
    rintro u rfl
    exact hmade.aborted
  refine Triple.bind (Q := fun tree u => u = w₀ ∧
      w₀.disk.store.lookup (newLeaseId a.token) = some tree)
    (Triple.lift (fun u tree hu hok => ⟨hu, orRaise_eq_ok.mp hok⟩) fun u e hu _ => habort u hu)
    fun tree => Triple.assume fun htree => ?_
  refine Triple.bind (Q := fun _ u => u = w₀ ∧ tree.ownerUid = 0 ∧ tree.mode = 0o555)
    (Triple.lift (fun u _ hu hok => ⟨hu, require_eq_ok.mp hok⟩) fun u e hu _ => habort u hu)
    fun _ => Triple.assume fun hsafe => ?_
  refine Triple.bind (Q := fun _ u => u = w₀)
    (Triple.lift (fun u _ hu _ => hu) fun u e hu _ => habort u hu) fun _ => ?_
  refine Triple.bind (Q := fun _ u => u = w₀)
    (Triple.lift (fun u _ hu _ => hu) fun u e hu _ => habort u hu) fun requestSha256 => ?_
  refine Triple.bind (Q := fun _ u => u = w₀)
    (Triple.lift (fun u _ hu _ => hu) fun u e hu _ => habort u hu) fun attestation => ?_
  refine Triple.bind (Q := fun sha256 u => u = w₀ ∧ Hex.isHex 64 sha256 = true)
    (Triple.lift (fun u _ hu hok => ⟨hu, isHex_of_canonicalJsonSha256 hok⟩)
      fun u e hu _ => habort u hu) fun attestationSha256 => Triple.assume fun hattestation => ?_
  dsimp only
  refine Triple.bind ((triple_persistLease _ a.temporary).weaken (fun _ h => h)
    (fun _ _ h => h) fun _ u hu => habort u hu) fun _ => ?_
  refine Triple.bind (Q := fun _ u => ∃ lease, Granted lease w u ∧ Issued cfg a peer request lease)
    (Triple.modify ?_) fun _ => Triple.pure ?_
  · rintro u ⟨hframe, hleases, hrecords, hstore, hgranted, hsize⟩
    obtain ⟨tree', -, hlookup⟩ := hmade.store
    have hsame : tree' = tree := by
      rw [congrFun hlookup (newLeaseId a.token), Function.update_self] at htree
      exact Option.some.inj htree
    refine ⟨_, ⟨(hmade.toFrame.trans hframe).trans ⟨rfl, rfl, rfl⟩, ?_, ?_,
      ⟨tree, ⟨hsafe.1, hsafe.2, rfl, rfl⟩, ?_⟩, ?_⟩,
      ⟨rfl, rfl, rfl, rfl, rfl, rfl, rfl, rfl, hsnapshot, hattestation, hsize⟩⟩
    · show u.leases.insert _ _ = _
      rw [hleases, hmade.leases]
    · rw [← hmade.records]
      exact hrecords
    · show u.disk.store.lookup = _
      rw [hstore, hlookup, hsame]
      rfl
    · show u.granted ++ _ = _
      rw [hgranted, hmade.granted]
  · rintro u ⟨lease, hlease, hissued⟩
    exact ⟨lease, snapshot, attestation, hlease, hissued, rfl⟩

/-- **A failed acquisition leaves nothing behind.** -/
theorem triple_abandon {leaseId : String}
    (hnone : w.disk.records.lookup (recordName leaseId) = none) (e : CogniError) :
    Triple (Aborted leaseId w) (abandon leaseId e) (fun _ _ => False)
      fun _ => Dropped leaseId w := by
  have hrecords : Function.update w.disk.records.lookup (recordName leaseId) none =
      w.disk.records.lookup := Function.update_eq_self_iff.mpr hnone.symm
  have hraise : ∀ {P : World → Prop}, (∀ u, P u → Dropped leaseId w u) →
      Triple P (Except.error (α := Json) e : Broker Json) (fun _ _ => False)
        fun _ => Dropped leaseId w := fun hP =>
    Triple.lift (fun u _ _ hok => (by cases hok)) fun u _ hu _ => hP u hu
  unfold abandon
  refine Triple.bind (Q := fun _ v => Frame w v ∧ v.leases = w.leases.erase leaseId ∧
      v.disk.records = w.disk.records ∧ v.granted = w.granted ∧
      (v.disk.store.lookup leaseId = none ∧ v.disk.store = w.disk.store ∨
        ∃ tree, tree.ownerUid = 0 ∧ v.disk.store.lookup =
          Function.update w.disk.store.lookup leaseId (some tree)))
    (Triple.modify ?_) fun _ => Triple.of_start ?_
  · rintro v ⟨hframe, hleases, hkept, hstore, hgranted⟩
    exact ⟨hframe.trans ⟨rfl, rfl, rfl⟩, congrArg (AList.erase leaseId) hleases, hkept, hgranted,
      hstore⟩
  rintro v ⟨hframe, hleases, hkept, hgranted, hstore⟩
  refine Triple.bind (Q := fun _ u => Dropped leaseId w u) ?_ fun _ => hraise fun _ hu => hu
  unfold whereThere
  refine Triple.bind (Q := fun w₀ u => u = v ∧ w₀ = v) (triple_get ⟨rfl, rfl⟩) fun w₀ =>
    Triple.assume ?_
  rintro rfl
  -- There is no namespace, or one that belongs to root and can be removed.
  rcases hstore with ⟨habsent, hstore⟩ | ⟨tree, howner, hstore⟩
  · rw [if_neg (notMem_keys.mpr habsent)]
    refine Triple.pure ?_
    rintro u rfl
    refine ⟨hframe, hleases, ?_, ?_, hgranted⟩
    · rw [hkept, hrecords]
    · rw [hstore] at habsent ⊢
      exact (Function.update_eq_self_iff.mpr habsent.symm).symm
  · have htree : w₀.disk.store.lookup leaseId = some tree :=
      (congrFun hstore leaseId).trans (Function.update_self _ _ _)
    rw [if_pos (mem_keys.mpr (by rw [htree]; exact Option.some_ne_none _))]
    refine (triple_removeCommittedSnapshot leaseId).weaken (fun _ h => h) ?_ ?_
    · rintro _ u ⟨hframe', hleases', hrecords', hstore', hgranted'⟩
      refine ⟨hframe.trans hframe', hleases'.trans hleases, ?_, ?_, hgranted'.trans hgranted⟩
      · rw [hrecords', hkept, hrecords]
      · rw [hstore', hstore, Function.update_idem]
    · rintro _ u ⟨-, hforeign⟩
      exact absurd howner (hforeign tree htree)

/-- What an acquisition can do. -/
theorem triple_acquire (cfg : Config) (a : Acquisition) (peer : Peer) (request : Json)
    (hstore : w.disk.store.lookup (newLeaseId a.token) = none)
    (hrecord : w.disk.records.lookup (recordName (newLeaseId a.token)) = none) :
    Triple (At w) (acquire cfg a peer request)
      (fun response v => w.leases.keys.length < maxActiveBrokerLeases ∧
        ∃ lease snapshot attestation, Granted lease w v ∧
        Issued cfg a peer request lease ∧ response = acquireResponse request snapshot attestation)
      fun _ v => v = w ∨ Dropped (newLeaseId a.token) w v := by
  unfold acquire
  refine Triple.bind (Q := fun w₀ v => v = w ∧ w₀ = w) (triple_get ⟨rfl, rfl⟩) fun w₀ =>
    Triple.assume ?_
  rintro rfl
  refine Triple.bind (Q := fun _ v => v = w₀ ∧ w₀.leases.keys.length < maxActiveBrokerLeases)
    (Triple.lift (fun v _ hv hok => ⟨hv, require_eq_ok.mp hok⟩) fun v e hv _ => .inl hv)
    fun _ => Triple.assume fun hactive => ?_
  refine Triple.bind (Q := fun _ v => v = w₀)
    (Triple.lift (fun v _ hv _ => hv) fun v e hv _ => .inl hv) fun _ => ?_
  refine Triple.bind (Q := fun _ v => v = w₀)
    (Triple.lift (fun v _ hv _ => hv) fun v e hv _ => .inl hv) fun runtimeManifestSha256 => ?_
  refine Triple.bind (Q := fun _ v => v = w₀)
    (Triple.lift (fun v _ hv _ => hv) fun v e hv _ => .inl hv) fun _ => ?_
  refine Triple.tryCatch ((triple_materialize cfg a peer request runtimeManifestSha256
    hstore).weaken (fun _ h => h) (fun _ _ h => ⟨hactive, h⟩) fun _ _ h => h) fun e => ?_
  exact (triple_abandon hrecord e).weaken (fun _ h => h) (fun _ _ h => h.elim)
    fun _ _ h => .inr h

/-- A release: the lease was there, the caller and the binding were its own, and all of it is gone
but a response in the cache. -/
structure Freed (cfg : Config) (r : Releasing) (peer : Peer) (request : Json) (lease : ServerLease)
    (response : Json) (w w' : World) : Prop where
  found : w.leases.lookup (leaseIdOf request) = some lease
  caller : lease.callerUid = peer.uid ∧ lease.callerGid = peer.gid
  binding : SameBinding request lease
  signed : ∃ requestSha256 runtime signature, response = releaseResponse request
    (envelope (cleanupPayload r peer request lease requestSha256 runtime) signature)
  leases : w'.leases = w.leases.erase lease.leaseId
  records : w'.disk.records.lookup =
    Function.update w.disk.records.lookup (recordName lease.leaseId) none
  store : w'.disk.store.lookup = Function.update w.disk.store.lookup lease.leaseId none
  granted : w'.granted = w.granted
  tombstones : ∃ requestSha256 kept, kept ⊆ w.tombstones ∧ w'.tombstones =
    assign (leaseIdOf request) ⟨peer.uid, peer.gid, requestSha256,
      SnapshotBroker.expiresAt request, response⟩ kept
  cleaned : w'.cleaned = w.cleaned ++ [⟨lease.leaseId, peer.uid, peer.gid, response⟩]

theorem signPayload_eq_ok {sign : Json → Except CogniError Signature} {a : Attestation}
    {payload document : Json} (hok : signPayload sign a payload = .ok document) :
    ∃ signature, document = envelope payload signature := by
  unfold signPayload at hok
  obtain ⟨_, -, hok⟩ := bind_eq_ok.mp hok
  obtain ⟨signature, -, hok⟩ := bind_eq_ok.mp hok
  exact ⟨signature, (Except.ok.inj hok).symm⟩

/-- **A release frees the whole lease or nothing.** -/
theorem triple_release (cfg : Config) (r : Releasing) (peer : Peer) (request : Json) :
    Triple (At w) (release cfg r peer request)
      (fun response v => ∃ lease, Freed cfg r peer request lease response w v)
      fun _ v => v = w := by
  unfold release
  refine Triple.bind (Q := fun w₀ v => v = w ∧ w₀ = w) (triple_get ⟨rfl, rfl⟩) fun w₀ =>
    Triple.assume ?_
  rintro rfl
  refine Triple.bind (Q := fun lease v => v = w₀ ∧
      w₀.leases.lookup (leaseIdOf request) = some lease)
    (Triple.lift (fun v _ hv hok => ⟨hv, orRaise_eq_ok.mp hok⟩) fun v e hv _ => hv)
    fun lease => Triple.assume fun hlease => ?_
  refine Triple.bind (Q := fun _ v => v = w₀ ∧
      lease.callerUid = peer.uid ∧ lease.callerGid = peer.gid)
    (Triple.lift (fun v _ hv hok => ⟨hv, require_eq_ok.mp hok⟩) fun v e hv _ => hv)
    fun _ => Triple.assume fun hcaller => ?_
  refine Triple.bind (Q := fun _ v => v = w₀)
    (Triple.lift (fun v _ hv _ => hv) fun v e hv _ => hv) fun _ => ?_
  refine Triple.bind (Q := fun _ v => v = w₀ ∧ SameBinding request lease)
    (Triple.lift (fun v _ hv hok => ⟨hv, require_eq_ok.mp hok⟩) fun v e hv _ => hv)
    fun _ => Triple.assume fun hbinding => ?_
  refine Triple.bind (Q := fun _ v => v = w₀)
    (Triple.lift (fun v _ hv _ => hv) fun v e hv _ => hv) fun runtime => ?_
  refine Triple.bind (Q := fun sha256 v => v = w₀ ∧
      canonicalJsonSha256 cfg.hasher request = .ok sha256)
    (Triple.lift (fun v _ hv hok => ⟨hv, hok⟩) fun v e hv _ => hv)
    fun requestSha256 => Triple.assume fun hsha => ?_
  refine Triple.bind (Q := fun cleanup v => v = w₀ ∧ ∃ signature, cleanup =
      envelope (cleanupPayload r peer request lease requestSha256 runtime) signature)
    (Triple.lift (fun v _ hv hok => ⟨hv, signPayload_eq_ok hok⟩) fun v e hv _ => hv)
    fun cleanup => Triple.assume ?_
  rintro ⟨signature, rfl⟩
  refine Triple.bind (triple_removeLeaseNamespace lease) fun _ => ?_
  dsimp only
  refine Triple.bind (Q := fun _ v => v.leases = w₀.leases ∧ v.disk.records = w₀.disk.records ∧
      v.disk.store.lookup = Function.update w₀.disk.store.lookup lease.leaseId none ∧
      v.granted = w₀.granted ∧ v.cleaned = w₀.cleaned ∧ ∃ kept, kept ⊆ w₀.tombstones ∧
      v.tombstones = assign (leaseIdOf request) ⟨peer.uid, peer.gid, requestSha256,
        SnapshotBroker.expiresAt request, releaseResponse request (envelope
          (cleanupPayload r peer request lease requestSha256 runtime) signature)⟩ kept) ?_
    fun _ => ?_
  · unfold rememberCleanupResponse
    refine Triple.bind (Q := fun sha256 v => Unmade lease.leaseId w₀ v ∧ sha256 = requestSha256)
      (Triple.lift (fun v sha256 hv hok => ⟨hv, Except.ok.inj (hok.symm.trans hsha)⟩) ?_)
      fun sha256 => Triple.assume ?_
    · -- The request was hashed before.
      intro v e _ herror
      rw [hsha] at herror
      cases herror
    · rintro rfl
      refine Triple.modify ?_
      intro v hv
      refine ⟨hv.leases, hv.records, hv.store, hv.granted, hv.cleaned,
        makeRoom w₀.tombstones, makeRoom_subset _, ?_⟩
      dsimp only
      rw [hv.tombstones]
  refine Triple.of_start ?_
  rintro v ⟨hleases, hrecords, hstore, hgranted, hcleaned, htombstones⟩
  -- The cache is all that has changed beside the namespace.
  have hunmade : ∀ u, u = v → Unmade lease.leaseId { w₀ with
      tombstones := v.tombstones
      nonces := v.nonces } u := by
    rintro u rfl
    exact ⟨⟨rfl, rfl, hcleaned⟩, hleases, hrecords, hstore, hgranted⟩
  refine Triple.bind ((triple_deleteLeaseRecord lease.leaseId).weaken hunmade (fun _ _ h => h)
    fun _ _ h => h.elim) fun _ => ?_
  refine Triple.bind (triple_forget lease.leaseId) fun _ => ?_
  refine Triple.bind (Q := fun _ => Freed cfg r peer request lease _ w₀) (Triple.modify ?_)
    fun _ => Triple.pure fun u hu => ⟨lease, hu⟩
  intro u hu
  exact ⟨hlease, hcaller, hbinding, ⟨requestSha256, runtime, signature, rfl⟩, hu.leases, hu.records,
    hu.store, hu.granted, ⟨requestSha256, htombstones.imp fun _ h => ⟨h.1, hu.tombstones.trans h.2⟩⟩,
    congrArg (· ++ _) hu.cleaned⟩

end Bodies

/-! ## The invariant of the daemon -/

/-- Leases, records and namespaces correspond. -/
structure Corresponds (w : World) : Prop where
  lease : ∀ leaseId lease, w.leases.lookup leaseId = some lease → lease.leaseId = leaseId ∧
    w.disk.records.lookup (recordName leaseId) = some (leaseRecord lease).encoding ∧
    ∃ tree, w.disk.store.lookup leaseId = some tree ∧ tree.Protects lease
  record : ∀ name, w.disk.records.lookup name ≠ none →
    ∃ leaseId, recordName leaseId = name ∧ w.leases.lookup leaseId ≠ none
  store : ∀ leaseId, w.disk.store.lookup leaseId ≠ none → w.leases.lookup leaseId ≠ none

theorem recordName_injective : Function.Injective recordName := fun a b h => by
  have htext := congrArg String.toList h
  simp only [recordName, String.toList_append] at htext
  exact String.toList_inj.mp (List.append_cancel_right htext)

theorem Corresponds.dropped {w v : World} {leaseId : String} (hw : Corresponds w)
    (herase : v.leases = w.leases.erase leaseId)
    (hrecords : v.disk.records.lookup =
      Function.update w.disk.records.lookup (recordName leaseId) none)
    (hstore : v.disk.store.lookup = Function.update w.disk.store.lookup leaseId none) :
    Corresponds v := by
  have hleases : v.leases.lookup = Function.update w.leases.lookup leaseId none := by
    rw [herase]
    exact lookup_erase_eq _ _
  refine ⟨fun id l hl => ?_, fun name hname => ?_, fun id hid => ?_⟩
  · rw [congrFun hleases id] at hl
    have hne : id ≠ leaseId := by
      rintro rfl
      rw [Function.update_self] at hl
      cases hl
    rw [Function.update_of_ne hne] at hl
    obtain ⟨hsame, hrecord, tree, htree, hprotects⟩ := hw.lease id l hl
    refine ⟨hsame, ?_, tree, ?_, hprotects⟩
    · rw [congrFun hrecords _, Function.update_of_ne fun h => hne (recordName_injective h)]
      exact hrecord
    · rw [congrFun hstore id, Function.update_of_ne hne]
      exact htree
  · rw [congrFun hrecords name] at hname
    have hne : name ≠ recordName leaseId := by
      rintro rfl
      exact hname (Function.update_self _ _ _)
    rw [Function.update_of_ne hne] at hname
    obtain ⟨id, rfl, hid⟩ := hw.record name hname
    refine ⟨id, rfl, ?_⟩
    rw [congrFun hleases id, Function.update_of_ne fun h => hne (congrArg recordName h)]
    exact hid
  · rw [congrFun hstore id] at hid
    have hne : id ≠ leaseId := by
      rintro rfl
      exact hid (Function.update_self _ _ _)
    rw [Function.update_of_ne hne] at hid
    rw [congrFun hleases id, Function.update_of_ne hne]
    exact hw.store id hid

theorem Corresponds.granted {w v : World} {lease : ServerLease} (hw : Corresponds w)
    (hv : Granted lease w v) : Corresponds v := by
  have hleases : v.leases.lookup =
      Function.update w.leases.lookup lease.leaseId (some lease) := by
    rw [hv.leases]
    exact lookup_insert_eq _ _ _
  obtain ⟨tree, hprotects, hstore⟩ := hv.store
  refine ⟨fun id l hl => ?_, fun name hname => ?_, fun id hid => ?_⟩
  · rw [congrFun hleases id] at hl
    rw [congrFun hv.records _, congrFun hstore id]
    by_cases hid : id = lease.leaseId
    · subst hid
      rw [Function.update_self] at hl
      obtain rfl := Option.some.inj hl
      exact ⟨rfl, Function.update_self _ _ _, tree, Function.update_self _ _ _, hprotects⟩
    · rw [Function.update_of_ne hid] at hl
      rw [Function.update_of_ne fun h => hid (recordName_injective h), Function.update_of_ne hid]
      exact hw.lease id l hl
  · by_cases hid : name = recordName lease.leaseId
    · refine ⟨lease.leaseId, hid.symm, ?_⟩
      rw [congrFun hleases _, Function.update_self]
      exact Option.some_ne_none _
    · rw [congrFun hv.records name, Function.update_of_ne hid] at hname
      obtain ⟨id, rfl, hlease⟩ := hw.record name hname
      refine ⟨id, rfl, ?_⟩
      rw [congrFun hleases id, Function.update_of_ne fun h => hid (congrArg recordName h)]
      exact hlease
  · by_cases heq : id = lease.leaseId
    · rw [congrFun hleases id, heq, Function.update_self]
      exact Option.some_ne_none _
    · rw [congrFun hstore id, Function.update_of_ne heq] at hid
      rw [congrFun hleases id, Function.update_of_ne heq]
      exact hw.store id hid

/-- The payload of the attestation in a response. -/
def payloadOf (response : Json) : Json := (response.get "cleanup_attestation").get "payload"

/-- The response attests the cleanup of a lease. -/
structure Attests (lease : ServerLease) (response : Json) : Prop where
  leaseId : (payloadOf response).get "lease_id" = .str lease.leaseId
  callerUid : (payloadOf response).get "caller_uid" = .int lease.callerUid
  callerGid : (payloadOf response).get "caller_gid" = .int lease.callerGid
  acquireAttestationSha256 : (payloadOf response).get "acquire_attestation_sha256" =
    .str lease.acquireAttestationSha256
  taskId : (payloadOf response).get "task_id" = lease.taskId
  attempt : (payloadOf response).get "attempt" = lease.attempt
  actor : (payloadOf response).get "actor" = lease.actor
  runId : (payloadOf response).get "run_id" = lease.runId
  validationContractSha256 : (payloadOf response).get "validation_contract_sha256" =
    lease.validationContractSha256
  namespaceRemoved : (payloadOf response).get "namespace_removed" = .bool true

/-- What a record needs to be read again. -/
structure Lawful (lease : ServerLease) : Prop where
  leaseId : ∃ token, lease.leaseId = newLeaseId token
  snapshot : isHex (lease.snapshot.get "sha256") 64 = true
  attestation : Hex.isHex 64 lease.acquireAttestationSha256 = true
  size : (leaseRecord lease).encoding.length ≤ maxFrameBytes
  binding : ∃ request, SnapshotBroker.validateExecutionBinding request = .ok () ∧
    SameBinding request lease

/-- A cleanup of a granted lease. -/
structure Settles (lease : ServerLease) (c : Cleaned) : Prop where
  leaseId : c.leaseId = lease.leaseId
  uid : c.uid = lease.callerUid
  gid : c.gid = lease.callerGid
  attests : Attests lease c.response

/-- The invariant of the daemon between two bodies. -/
structure WorldInv (w : World) : Prop where
  active : w.leases.keys.length ≤ maxActiveBrokerLeases
  corresponds : Corresponds w
  /-- No id was granted twice. -/
  distinct : (w.granted.map ServerLease.leaseId).Nodup
  /-- A lease in memory has the record of one that was granted. -/
  known : ∀ leaseId lease, w.leases.lookup leaseId = some lease →
    ∃ g ∈ w.granted, leaseRecord g = leaseRecord lease
  lawful : ∀ leaseId lease, w.leases.lookup leaseId = some lease → Lawful lease
  cleaned : ∀ c ∈ w.cleaned, (∃ g ∈ w.granted, Settles g c) ∧ w.leases.lookup c.leaseId = none
  once : (w.cleaned.map Cleaned.leaseId).Nodup
  tombstones : ∀ p ∈ w.tombstones, ∃ c ∈ w.cleaned, c.uid = p.2.callerUid ∧
    c.gid = p.2.callerGid ∧ c.response = p.2.response

theorem leaseId_of_leaseRecord {g l : ServerLease} (h : leaseRecord g = leaseRecord l) :
    g.leaseId = l.leaseId :=
  Json.str.inj (congrArg (Json.get · "lease_id") h)

theorem WorldInv.unknown {w : World} (hw : WorldInv w) {leaseId : String}
    (hfresh : ∀ g ∈ w.granted, g.leaseId ≠ leaseId) : w.leases.lookup leaseId = none := by
  by_contra hne
  obtain ⟨lease, hlease⟩ := Option.ne_none_iff_exists'.mp hne
  obtain ⟨g, hg, hsame⟩ := hw.known leaseId lease hlease
  exact hfresh g hg ((leaseId_of_leaseRecord hsame).trans
    (hw.corresponds.lease leaseId lease hlease).1)

theorem lookup_erase_eq_some {d : AList fun _ : String => ServerLease} {a b : String}
    {lease : ServerLease} (h : (d.erase a).lookup b = some lease) : d.lookup b = some lease := by
  rw [congrFun (lookup_erase_eq d a) b] at h
  by_cases hb : b = a
  · rw [hb, Function.update_self] at h
    cases h
  · rwa [Function.update_of_ne hb] at h

theorem lookup_erase_eq_none {d : AList fun _ : String => ServerLease} {b : String} (a : String)
    (h : d.lookup b = none) : (d.erase a).lookup b = none := by
  rw [congrFun (lookup_erase_eq d a) b]
  by_cases hb : b = a
  · rw [hb, Function.update_self]
  · rw [Function.update_of_ne hb, h]

theorem length_keys_erase_le (d : AList fun _ : String => ServerLease) (a : String) :
    (d.erase a).keys.length ≤ d.keys.length := by
  rw [AList.keys_erase]
  exact List.length_erase_le

theorem WorldInv.dropped {w v : World} {leaseId : String} (hw : WorldInv w)
    (hv : Dropped leaseId w v) : WorldInv v where
  active := by
    rw [hv.leases]
    exact (length_keys_erase_le _ _).trans hw.active
  corresponds := hw.corresponds.dropped hv.leases hv.records hv.store
  distinct := hv.granted ▸ hw.distinct
  known id lease hlease := by
    rw [hv.leases] at hlease
    rw [hv.granted]
    exact hw.known id lease (lookup_erase_eq_some hlease)
  lawful id lease hlease := by
    rw [hv.leases] at hlease
    exact hw.lawful id lease (lookup_erase_eq_some hlease)
  cleaned c hc := by
    rw [hv.cleaned] at hc
    rw [hv.granted, hv.leases]
    exact (hw.cleaned c hc).imp_right (lookup_erase_eq_none leaseId)
  once := hv.cleaned ▸ hw.once
  tombstones := by
    rw [hv.tombstones, hv.cleaned]
    exact hw.tombstones

theorem WorldInv.granted {w v : World} {lease : ServerLease} (hw : WorldInv w)
    (hv : Granted lease w v) (hactive : w.leases.keys.length < maxActiveBrokerLeases)
    (hfresh : ∀ g ∈ w.granted, g.leaseId ≠ lease.leaseId) (hlawful : Lawful lease) :
    WorldInv v := by
  have hleases : v.leases.lookup =
      Function.update w.leases.lookup lease.leaseId (some lease) := by
    rw [hv.leases]
    exact lookup_insert_eq _ _ _
  -- A lease in memory is the new one or an old one.
  have hcases : ∀ id l, v.leases.lookup id = some l → l = lease ∨ w.leases.lookup id = some l := by
    intro id l hl
    rw [congrFun hleases id] at hl
    by_cases hid : id = lease.leaseId
    · rw [hid, Function.update_self] at hl
      exact .inl (Option.some.inj hl).symm
    · rw [Function.update_of_ne hid] at hl
      exact .inr hl
  refine ⟨?_, hw.corresponds.granted hv, ?_, fun id l hl => ?_, fun id l hl => ?_, fun c hc => ?_,
    hv.cleaned ▸ hw.once, ?_⟩
  · have hnew : lease.leaseId ∉ w.leases.keys := notMem_keys.mpr (hw.unknown hfresh)
    rw [hv.leases, AList.keys_insert, List.erase_of_not_mem hnew, List.length_cons]
    exact hactive
  · rw [hv.granted, List.map_append, List.map_singleton, List.nodup_append_comm,
      List.singleton_append, List.nodup_cons]
    refine ⟨fun hmem => ?_, hw.distinct⟩
    obtain ⟨g, hg, heq⟩ := List.mem_map.mp hmem
    exact hfresh g hg heq
  · rw [hv.granted]
    rcases hcases id l hl with rfl | hold
    · exact ⟨l, List.mem_append_right _ (List.mem_singleton_self l), rfl⟩
    · obtain ⟨g, hg, hsame⟩ := hw.known id l hold
      exact ⟨g, List.mem_append_left _ hg, hsame⟩
  · rcases hcases id l hl with rfl | hold
    · exact hlawful
    · exact hw.lawful id l hold
  · rw [hv.cleaned] at hc
    obtain ⟨⟨g, hg, hsettles⟩, hnone⟩ := hw.cleaned c hc
    rw [hv.granted]
    refine ⟨⟨g, List.mem_append_left _ hg, hsettles⟩, ?_⟩
    rw [congrFun hleases _, Function.update_of_ne fun h => hfresh g hg (hsettles.leaseId ▸ h)]
    exact hnone
  · rw [hv.tombstones, hv.cleaned]
    exact hw.tombstones

/-- What a release attests is what was granted. -/
theorem Freed.attests {cfg : Config} {r : Releasing} {peer : Peer} {request : Json}
    {lease g : ServerLease} {response : Json} {w v : World}
    (hv : Freed cfg r peer request lease response w v)
    (hsame : leaseRecord g = leaseRecord lease) : Attests g response := by
  obtain ⟨requestSha256, runtime, signature, rfl⟩ := hv.signed
  have hfield := fun key => congrArg (Json.get · key) hsame
  refine ⟨?_, ?_, ?_, ?_, ?_, ?_, ?_, ?_, ?_, rfl⟩
  · exact (hfield "lease_id").symm
  · exact (congrArg (fun n : ℕ => Json.int n) hv.caller.1.symm).trans (hfield "caller_uid").symm
  · exact (congrArg (fun n : ℕ => Json.int n) hv.caller.2.symm).trans (hfield "caller_gid").symm
  · exact (hfield "acquire_attestation_sha256").symm
  · exact (hfield "task_id").symm
  · exact (hfield "attempt").symm
  · exact (hfield "actor").symm
  · exact (hfield "run_id").symm
  · exact (hfield "validation_contract_sha256").symm

theorem mem_assign {α : Type} {key : String} {value : α} {items : List (String × α)}
    {p : String × α} (hp : p ∈ assign key value items) : p = (key, value) ∨ p ∈ items := by
  unfold assign at hp
  split at hp
  · obtain ⟨q, hq, rfl⟩ := List.mem_map.mp hp
    split
    · exact .inl rfl
    · exact .inr hq
  · rcases List.mem_append.mp hp with hold | hnew
    · exact .inr hold
    · exact .inl (List.mem_singleton.mp hnew)

theorem WorldInv.freed {cfg : Config} {r : Releasing} {peer : Peer} {request : Json}
    {lease : ServerLease} {response : Json} {w v : World} (hw : WorldInv w)
    (hv : Freed cfg r peer request lease response w v) : WorldInv v := by
  have hid := (hw.corresponds.lease _ _ hv.found).1
  obtain ⟨g, hg, hsame⟩ := hw.known _ _ hv.found
  have hgone : v.leases.lookup lease.leaseId = none := by
    rw [hv.leases]
    exact AList.lookup_erase _ _
  -- The lease was in memory, so it was not cleaned up before.
  have hnew : ∀ c ∈ w.cleaned, c.leaseId ≠ lease.leaseId := by
    intro c hc heq
    have hnone := (hw.cleaned c hc).2
    rw [heq, hid, hv.found] at hnone
    cases hnone
  refine ⟨?_, ?_, hv.granted ▸ hw.distinct, fun id l hl => ?_, fun id l hl => ?_, fun c hc => ?_,
    ?_, fun p hp => ?_⟩
  · rw [hv.leases]
    exact (length_keys_erase_le _ _).trans hw.active
  · exact hw.corresponds.dropped hv.leases hv.records hv.store
  · rw [hv.leases] at hl
    rw [hv.granted]
    exact hw.known id l (lookup_erase_eq_some hl)
  · rw [hv.leases] at hl
    exact hw.lawful id l (lookup_erase_eq_some hl)
  · rw [hv.cleaned] at hc
    rw [hv.granted]
    rcases List.mem_append.mp hc with hold | hlast
    · rw [hv.leases]
      exact (hw.cleaned c hold).imp_right (lookup_erase_eq_none _)
    · rw [List.mem_singleton.mp hlast]
      have huid : lease.callerUid = g.callerUid := Int.ofNat.inj (Json.int.inj
        (congrArg (Json.get · "caller_uid") hsame)).symm
      have hgid : lease.callerGid = g.callerGid := Int.ofNat.inj (Json.int.inj
        (congrArg (Json.get · "caller_gid") hsame)).symm
      exact ⟨⟨g, hg, (leaseId_of_leaseRecord hsame).symm, hv.caller.1.symm.trans huid,
        hv.caller.2.symm.trans hgid, hv.attests hsame⟩, hgone⟩
  · rw [hv.cleaned, List.map_append, List.map_singleton, List.nodup_append_comm,
      List.singleton_append, List.nodup_cons]
    refine ⟨fun hmem => ?_, hw.once⟩
    obtain ⟨c, hc, heq⟩ := List.mem_map.mp hmem
    exact hnew c hc heq
  · obtain ⟨requestSha256, kept, hkept, htombstones⟩ := hv.tombstones
    rw [htombstones] at hp
    rw [hv.cleaned]
    rcases mem_assign hp with rfl | hold
    · exact ⟨_, List.mem_append_right _ (List.mem_singleton_self _), rfl, rfl, rfl⟩
    · obtain ⟨c, hc, hrest⟩ := hw.tombstones p (hkept hold)
      exact ⟨c, List.mem_append_left _ hc, hrest⟩

/-! ## Any order of steps -/

/-- A successful response to a release. -/
def IsCleanup (response : Json) : Prop :=
  response.get "operation" = .str "release" ∧ response.get "ok" = .bool true

/-- A successful response to a release is one that was recorded for the peer. -/
def Proven (cleaned : List Cleaned) (peer : Peer) (response : Json) : Prop :=
  IsCleanup response → ∃ c ∈ cleaned, c.uid = peer.uid ∧ c.gid = peer.gid ∧ c.response = response

/-- The request that a stage holds for a body. -/
def Stage.request : Stage → Option Json
  | .received request => some request
  | .uncached _ request => some request
  | .admitted _ request => some request
  | _ => none

/-- A connection sends proven responses and serves valid requests. -/
structure Stage.Sound (cleaned : List Cleaned) (peer : Peer) (stage : Stage) : Prop where
  message : ∀ response, stage.message = some response → Proven cleaned peer response
  request : ∀ request, stage.request = some request →
    SnapshotBroker.validateExecutionBinding request = .ok ()

/-- The invariant of the daemon and its connections. -/
structure SystemInv (s : System) : Prop where
  world : WorldInv s.world
  connections : ∀ c ∈ s.connections, c.stage.Sound s.world.cleaned c.peer
  sent : ∀ m ∈ s.sent, Proven s.world.cleaned m.peer m.response

theorem Proven.mono {cleaned cleaned' : List Cleaned} (h : cleaned ⊆ cleaned') {peer : Peer}
    {response : Json} (hproven : Proven cleaned peer response) : Proven cleaned' peer response :=
  fun hcleanup => (hproven hcleanup).imp fun _ hc => ⟨h hc.1, hc.2⟩

theorem Stage.Sound.mono {cleaned cleaned' : List Cleaned} (h : cleaned ⊆ cleaned') {peer : Peer}
    {stage : Stage} (hs : stage.Sound cleaned peer) : stage.Sound cleaned' peer :=
  ⟨fun r hr => (hs.message r hr).mono h, hs.request⟩

/-- A stage without a message and a request. -/
theorem sound_of_none {cleaned : List Cleaned} {peer : Peer} {stage : Stage}
    (hmessage : stage.message = none) (hrequest : stage.request = none) :
    stage.Sound cleaned peer :=
  ⟨fun r hr => (by rw [hmessage] at hr; cases hr), fun r hr => (by rw [hrequest] at hr; cases hr)⟩

/-- A stage that holds a valid request. -/
theorem sound_of_request {cleaned : List Cleaned} {peer : Peer} {stage : Stage} {request : Json}
    (hmessage : stage.message = none) (hrequest : stage.request = some request)
    (hvalid : SnapshotBroker.validateExecutionBinding request = .ok ()) :
    stage.Sound cleaned peer :=
  ⟨fun r hr => (by rw [hmessage] at hr; cases hr),
    fun r hr => Option.some.inj (hrequest.symm.trans hr) ▸ hvalid⟩

theorem sound_refusing (cfg : Config) (cleaned : List Cleaned) (peer : Peer) (operation : String)
    (requestId : Json) (e : CogniError) :
    (Stage.refusing (errorResponse cfg operation requestId e)).Sound cleaned peer := by
  refine ⟨fun r hr hcleanup => ?_, fun r hr => (by cases hr)⟩
  obtain rfl := Option.some.inj hr
  cases hcleanup.2

theorem sound_failed (cfg : Config) (cleaned : List Cleaned) (peer : Peer) (e : CogniError)
    (stage : Stage) : (stage.failed cfg e).Sound cleaned peer := by
  cases stage <;> exact sound_refusing cfg cleaned peer _ _ e

theorem sound_afterSend (cfg : Config) (cleaned : List Cleaned) (peer : Peer) (stage : Stage)
    (outcome : Except CogniError Unit) : (stage.afterSend cfg outcome).Sound cleaned peer := by
  unfold Stage.afterSend
  split
  · exact sound_of_none rfl rfl
  · exact sound_refusing cfg cleaned peer _ _ _
  · exact sound_of_none rfl rfl

theorem sound_firstStage (cfg : Config) (cleaned : List Cleaned) (peer : Peer)
    (authorized : Except CogniError Unit) : (firstStage cfg authorized).Sound cleaned peer := by
  cases authorized with
  | ok => exact sound_of_none rfl rfl
  | error e => exact sound_refusing cfg cleaned peer _ _ e

theorem binding_of_validateRequest {now : ℤ} {request : Json} {operation : Operation}
    (hok : validateRequest now request = .ok operation) :
    SnapshotBroker.validateExecutionBinding request = .ok () := by
  unfold validateRequest at hok
  obtain ⟨-, hok⟩ := require_bind_eq_ok.mp hok
  obtain ⟨_, -, hok⟩ := bind_eq_ok.mp hok
  obtain ⟨-, hok⟩ := require_bind_eq_ok.mp hok
  obtain ⟨-, hok⟩ := require_bind_eq_ok.mp hok
  obtain ⟨_, -, hok⟩ := bind_eq_ok.mp hok
  obtain ⟨⟨⟩, hbinding, -⟩ := bind_eq_ok.mp hok
  exact hbinding

theorem sound_afterRequest (cfg : Config) (cleaned : List Cleaned) (peer : Peer)
    {now : ℤ} {operation : Operation} {request : Json}
    (hvalid : validateRequest now request = .ok operation) (descriptors : ℕ) :
    (afterRequest cfg operation request descriptors).Sound cleaned peer := by
  unfold afterRequest
  split
  · exact sound_refusing cfg cleaned peer _ _ _
  · cases operation with
    | acquire => exact sound_of_request rfl rfl (binding_of_validateRequest hvalid)
    | release => exact sound_of_request rfl rfl (binding_of_validateRequest hvalid)

/-- The invariant after a body that started from `w`. -/
structure Later (w v : World) : Prop where
  inv : WorldInv v
  cleaned : w.cleaned ⊆ v.cleaned

section Steps

variable {w : World}

theorem Later.refl (hw : WorldInv w) : Later w w := ⟨hw, fun _ h => h⟩

theorem Later.of_eq (hw : WorldInv w) {v : World} (h : v = w) : Later w v := by
  subst h
  exact Later.refl hw

theorem Later.dropped {v u : World} (hv : Later w v) {leaseId : String}
    (hu : Dropped leaseId v u) : Later w u :=
  ⟨hv.inv.dropped hu, hu.cleaned ▸ hv.cleaned⟩

theorem later_dropLease (lease : ServerLease) :
    Triple (Later w) (dropLease lease) (fun _ => Later w) fun _ => Later w :=
  Triple.of_start fun _ hv => (triple_dropLease lease).weaken (fun _ h => h)
    (fun _ _ hu => hv.dropped hu) fun _ _ hu => hu ▸ hv

theorem later_evictExpiredLeases (now : ℤ) :
    Triple (Later w) (evictExpiredLeases now) (fun _ => Later w) fun _ => Later w := by
  unfold evictExpiredLeases
  exact Triple.bind (Q := fun _ => Later w) (Triple.get fun v hv => hv) fun w₀ =>
    Triple.forM fun lease _ => later_dropLease lease

theorem later_rollbackAcquireResponse (leaseId : String) :
    Triple (Later w) (rollbackAcquireResponse leaseId) (fun _ => Later w) fun _ => Later w := by
  unfold rollbackAcquireResponse
  refine Triple.bind (Q := fun _ => Later w) (Triple.get fun v hv => hv) fun w₀ => ?_
  cases w₀.leases.lookup leaseId with
  | none => exact Triple.pure fun v hv => hv
  | some lease => exact later_dropLease lease

/-- The cache forgets. -/
theorem WorldInv.forgets {v : World} (hv : WorldInv v) {tombstones : List (String × Tombstone)}
    (hsub : tombstones ⊆ v.tombstones) : WorldInv { v with tombstones := tombstones } :=
  ⟨hv.active, ⟨hv.corresponds.lease, hv.corresponds.record, hv.corresponds.store⟩, hv.distinct,
    hv.known, hv.lawful, hv.cleaned, hv.once, fun p hp => hv.tombstones p (hsub hp)⟩

theorem mem_of_lookup {α : Type} {items : List (String × α)} {key : String} {value : α}
    (h : items.lookup key = some value) : (key, value) ∈ items := by
  obtain ⟨before, after, rfl, -⟩ := List.lookup_eq_some_iff.mp h
  exact List.mem_append_right _ List.mem_cons_self

/-- A response from the cache is proven for its peer. -/
theorem later_cachedCleanupResponse (h : Hasher) (now : ℤ) (peer : Peer) (request : Json) :
    Triple (Later w) (cachedCleanupResponse h now peer request)
      (fun cached v => Later w v ∧ ∀ response, cached = some response →
        Proven v.cleaned peer response) fun _ => Later w := by
  unfold cachedCleanupResponse
  refine Triple.bind (Q := fun _ => Later w) (Triple.modify fun v hv =>
    ⟨hv.inv.forgets (List.filter_subset_self _), hv.cleaned⟩) fun _ => ?_
  refine Triple.bind (Q := fun w₀ v => Later w v ∧ w₀ = v) (Triple.get fun v hv => ⟨hv, rfl⟩)
    fun w₀ => Triple.of_start ?_
  rintro v ⟨hv, rfl⟩
  cases hlookup : w₀.tombstones.lookup (leaseIdOf request) with
  | none =>
    refine Triple.pure ?_
    rintro u rfl
    exact ⟨hv, fun response hr => (by cases hr)⟩
  | some tombstone =>
    refine Triple.bind (Q := fun _ u => u = w₀) (Triple.lift (fun u _ hu _ => hu)
      fun u e hu _ => hu ▸ hv) fun requestSha256 => ?_
    refine Triple.bind (Q := fun _ u => u = w₀ ∧ tombstone.callerUid = peer.uid ∧
        tombstone.callerGid = peer.gid) (Triple.lift (fun u _ hu hok => ⟨hu, ?_⟩)
      fun u e hu _ => hu ▸ hv) fun _ => Triple.assume fun hcaller => Triple.pure ?_
    · exact ⟨(require_eq_ok.mp hok).1, (require_eq_ok.mp hok).2.1⟩
    · rintro u rfl
      refine ⟨hv, fun response hr _ => ?_⟩
      obtain rfl := Option.some.inj hr
      obtain ⟨c, hc, huid, hgid, hresponse⟩ := hv.inv.tombstones _ (mem_of_lookup hlookup)
      exact ⟨c, hc, huid.trans hcaller.1, hgid.trans hcaller.2, hresponse⟩

theorem later_consumeNonce (h : Hasher) (now : ℤ) (peer : Peer) (request : Json) :
    Triple (Later w) (consumeNonce h now peer request) (fun _ => Later w) fun _ => Later w := by
  unfold consumeNonce
  refine Triple.bind (Q := fun _ => Later w) (Triple.get fun v hv => hv) fun w₀ => ?_
  dsimp only
  refine Triple.bind (Q := fun _ => Later w) (Triple.modify fun v hv => ⟨?_, hv.cleaned⟩) fun _ =>
    Triple.lift (fun v _ hv _ => hv) fun v e hv _ => hv
  exact ⟨hv.inv.active, ⟨hv.inv.corresponds.lease, hv.inv.corresponds.record,
    hv.inv.corresponds.store⟩, hv.inv.distinct, hv.inv.known, hv.inv.lawful, hv.inv.cleaned,
    hv.inv.once, hv.inv.tombstones⟩

theorem lawful_of_issued {cfg : Config} {a : Acquisition} {peer : Peer} {request : Json}
    {lease : ServerLease} (h : Issued cfg a peer request lease)
    (hvalid : SnapshotBroker.validateExecutionBinding request = .ok ()) : Lawful lease :=
  ⟨⟨a.token, h.leaseId⟩, h.snapshot, h.attestation, h.size, request, hvalid, h.taskId.symm,
    h.attempt.symm, h.actor.symm, h.runId.symm, h.validationContractSha256.symm⟩

theorem later_acquire (cfg : Config) {a : Acquisition} (peer : Peer) {request : Json}
    (hw : WorldInv w) (hvalid : SnapshotBroker.validateExecutionBinding request = .ok ())
    (hfresh : ∀ g ∈ w.granted, g.leaseId ≠ newLeaseId a.token) :
    Triple (At w) (acquire cfg a peer request)
      (fun response v => Later w v ∧ ∃ snapshot attestation,
        response = acquireResponse request snapshot attestation) fun _ => Later w := by
  have hunknown := hw.unknown hfresh
  have hstore : w.disk.store.lookup (newLeaseId a.token) = none := by
    by_contra hne
    exact hw.corresponds.store _ hne hunknown
  have hrecord : w.disk.records.lookup (recordName (newLeaseId a.token)) = none := by
    by_contra hne
    obtain ⟨id, hid, hne⟩ := hw.corresponds.record _ hne
    exact hne (recordName_injective hid ▸ hunknown)
  refine (triple_acquire cfg a peer request hstore hrecord).weaken (fun _ h => h) ?_ ?_
  · rintro response v ⟨hactive, lease, snapshot, attestation, hgranted, hissued, hresponse⟩
    exact ⟨⟨hw.granted hgranted hactive (hissued.leaseId ▸ hfresh) (lawful_of_issued hissued hvalid),
      hgranted.cleaned ▸ fun _ h => h⟩, snapshot, attestation, hresponse⟩
  · rintro e v (heq | hdropped)
    · exact .of_eq hw heq
    · exact (Later.refl hw).dropped hdropped

theorem later_release (cfg : Config) (r : Releasing) (peer : Peer) (request : Json)
    (hw : WorldInv w) :
    Triple (At w) (release cfg r peer request)
      (fun response v => Later w v ∧ Proven v.cleaned peer response) fun _ => Later w := by
  refine (triple_release cfg r peer request).weaken (fun _ h => h) ?_ fun _ v hv => .of_eq hw hv
  rintro response v ⟨lease, hfreed⟩
  refine ⟨⟨hw.freed hfreed, ?_⟩, fun _ => ⟨⟨lease.leaseId, peer.uid, peer.gid, response⟩, ?_, rfl,
    rfl, rfl⟩⟩
  · rw [hfreed.cleaned]
    exact List.subset_append_left _ _
  · rw [hfreed.cleaned]
    exact List.mem_append_right _ (List.mem_singleton_self _)

/-- **Any part of a connection** keeps the invariant. -/
theorem later_advance (cfg : Config) {peer : Peer} {stage : Stage} {act : Act} (hw : WorldInv w)
    (hstage : stage.Sound w.cleaned peer)
    (hfresh : ∀ a, act = .acquire a → ∀ g ∈ w.granted, g.leaseId ≠ newLeaseId a.token) :
    Triple (At w) (advance cfg peer stage act)
      (fun stage' v => Later w v ∧ stage'.Sound v.cleaned peer) fun _ => Later w := by
  have hstart : ∀ v, v = w → Later w v := fun v hv => .of_eq hw hv
  unfold advance
  split
  · refine Triple.bind ((later_evictExpiredLeases _).weaken hstart (fun _ _ h => h)
      fun _ _ h => h) fun _ => Triple.pure fun v hv => ⟨hv, sound_of_none rfl rfl⟩
  · rename_i now frame descriptors
    refine Triple.bind (Q := fun _ v => v = w)
      (Triple.lift (fun v _ hv _ => hv) fun v e hv _ => hstart v hv) fun request => ?_
    refine Triple.bind (Q := fun operation v => v = w ∧ validateRequest now request = .ok operation)
      (Triple.lift (fun v _ hv hok => ⟨hv, hok⟩) fun v e hv _ => hstart v hv) fun operation =>
        Triple.assume fun hvalid => Triple.pure fun v hv => ⟨hstart v hv, ?_⟩
    exact sound_afterRequest cfg v.cleaned peer hvalid _
  · rename_i request now
    refine Triple.bind ((later_cachedCleanupResponse _ _ _ _).weaken hstart (fun _ _ h => h)
      fun _ _ h => h) fun cached => Triple.pure ?_
    rintro v ⟨hv, hproven⟩
    cases cached with
    | none => exact ⟨hv, sound_of_request rfl rfl (hstage.request request rfl)⟩
    | some response =>
      refine ⟨hv, fun r hr => ?_, fun r hr => (by cases hr)⟩
      obtain rfl := Option.some.inj hr
      exact hproven response rfl
  · rename_i operation request now
    exact Triple.bind ((later_consumeNonce _ _ _ _).weaken hstart (fun _ _ h => h)
      fun _ _ h => h) fun _ => Triple.pure fun v hv =>
        ⟨hv, sound_of_request rfl rfl (hstage.request request rfl)⟩
  · rename_i request a
    refine Triple.bind (later_acquire cfg peer hw (hstage.request request rfl) (hfresh a rfl))
      fun response => Triple.pure ?_
    rintro v ⟨hv, snapshot, attestation, rfl⟩
    refine ⟨hv, fun r hr hcleanup => ?_, fun r hr => (by cases hr)⟩
    obtain rfl := Option.some.inj hr
    have hoperation : Json.str "acquire" = .str "release" := hcleanup.1
    exact absurd (Json.str.inj hoperation) (by decide)
  · rename_i request r
    refine Triple.bind (later_release cfg r peer request hw) fun response => Triple.pure ?_
    rintro v ⟨hv, hproven⟩
    refine ⟨hv, fun r hr => ?_, fun r hr => (by cases hr)⟩
    obtain rfl := Option.some.inj hr
    exact hproven
  · exact Triple.bind ((later_rollbackAcquireResponse _).weaken hstart (fun _ _ h => h)
      fun _ _ h => h) fun _ => Triple.lift (fun v _ _ hok => (by cases hok)) fun v e hv _ => hv
  · exact Triple.pure fun v hv => ⟨hstart v hv, hv ▸ hstage⟩

end Steps

theorem SystemInv.set {s : System} (hs : SystemInv s) {w : World} (hw : Later s.world w) (k : ℕ)
    {peer : Peer} {stage : Stage} (hstage : stage.Sound w.cleaned peer) :
    SystemInv ⟨w, s.connections.set k ⟨peer, stage⟩, s.sent⟩ := by
  refine ⟨hw.inv, fun c hc => ?_, fun m hm => (hs.sent m hm).mono hw.cleaned⟩
  rcases List.mem_or_eq_of_mem_set hc with hold | rfl
  · exact (hs.connections c hold).mono hw.cleaned
  · exact hstage

/-- **Every step keeps the invariant.** -/
theorem SystemInv.next {cfg : Config} {s : System} (hs : SystemInv s) {e : Event}
    (hfresh : Fresh s e) : SystemInv (next cfg s e) := by
  cases e with
  | connect peer authorized =>
    refine ⟨hs.world, fun c hc => ?_, hs.sent⟩
    rcases List.mem_append.mp hc with hold | hnew
    · exact hs.connections c hold
    · rw [List.mem_singleton.mp hnew]
      exact sound_firstStage cfg s.world.cleaned peer authorized
  | act k a =>
    show SystemInv (s.connections[k]?.elim s _)
    cases hk : s.connections[k]? with
    | none => exact hs
    | some c =>
      have hc := hs.connections c (List.mem_of_getElem? hk)
      have hnew : ∀ acquisition, a = .acquire acquisition →
          ∀ g ∈ s.world.granted, g.leaseId ≠ newLeaseId acquisition.token := by
        rintro acquisition rfl
        exact hfresh
      have hadvance := later_advance cfg hs.world hc hnew
      show SystemInv (s.act cfg k c a)
      unfold System.act
      rcases houtcome : advance cfg c.peer c.stage a s.world with ⟨e | stage, w⟩
      · have hw := hadvance.raises _ _ _ rfl houtcome
        exact hs.set hw k (sound_failed cfg w.cleaned c.peer e c.stage)
      · obtain ⟨hw, hstage⟩ := hadvance.returns _ _ _ rfl houtcome
        exact hs.set hw k hstage
  | send k outcome =>
    show SystemInv (s.connections[k]?.elim s _)
    cases hk : s.connections[k]? with
    | none => exact hs
    | some c =>
      have hc := hs.connections c (List.mem_of_getElem? hk)
      show SystemInv (s.send cfg k c outcome)
      unfold System.send
      cases hmessage : c.stage.message with
      | none => exact hs
      | some response =>
        have hset := hs.set (Later.refl hs.world) k
          (sound_afterSend cfg s.world.cleaned c.peer c.stage outcome)
        refine ⟨hset.world, hset.connections, fun m hm => ?_⟩
        rcases List.mem_append.mp hm with hold | hnew
        · exact hs.sent m hold
        · rw [List.mem_singleton.mp hnew]
          exact hc.message response hmessage

/-- What holds of the daemon and of all that it has sent. -/
structure Sound (s : System) : Prop where
  active : s.world.leases.keys.length ≤ maxActiveBrokerLeases
  corresponds : Corresponds s.world
  /-- A cleanup attests a lease that was granted, to its caller, and the namespace is gone. -/
  proven : ∀ m ∈ s.sent, IsCleanup m.response → ∃ lease ∈ s.world.granted,
    Attests lease m.response ∧ m.peer.uid = lease.callerUid ∧ m.peer.gid = lease.callerGid ∧
      s.world.disk.store.lookup lease.leaseId = none
  /-- There is one successful response for a lease. -/
  once : ∀ m ∈ s.sent, ∀ m' ∈ s.sent, IsCleanup m.response → IsCleanup m'.response →
    (payloadOf m.response).get "lease_id" = (payloadOf m'.response).get "lease_id" →
      m.response = m'.response

theorem SystemInv.sound {s : System} (hs : SystemInv s) : Sound s := by
  refine ⟨hs.world.active, hs.world.corresponds, fun m hm hcleanup => ?_,
    fun m hm m' hm' hcleanup hcleanup' hsame => ?_⟩
  · obtain ⟨c, hc, huid, hgid, hresponse⟩ := hs.sent m hm hcleanup
    obtain ⟨⟨g, hg, hsettles⟩, hnone⟩ := hs.world.cleaned c hc
    refine ⟨g, hg, hresponse ▸ hsettles.attests, huid.symm.trans hsettles.uid,
      hgid.symm.trans hsettles.gid, ?_⟩
    by_contra hne
    exact hs.world.corresponds.store _ hne (hsettles.leaseId ▸ hnone)
  · obtain ⟨c, hc, -, -, hresponse⟩ := hs.sent m hm hcleanup
    obtain ⟨c', hc', -, -, hresponse'⟩ := hs.sent m' hm' hcleanup'
    obtain ⟨⟨g, -, hsettles⟩, -⟩ := hs.world.cleaned c hc
    obtain ⟨⟨g', -, hsettles'⟩, -⟩ := hs.world.cleaned c' hc'
    rw [← hresponse, ← hresponse', hsettles.attests.leaseId, hsettles'.attests.leaseId,
      ← hsettles.leaseId, ← hsettles'.leaseId] at hsame
    have heq := List.inj_on_of_nodup_map hs.world.once hc hc' (Json.str.inj hsame)
    rw [← hresponse, ← hresponse', heq]

theorem run_foldl {cfg : Config} {s : System} (es : List Event)
    (hes : ∀ e ∈ es, ∀ t, Fresh t e) :
    Runs.Run (Runs.Guarded (Step cfg) Fresh) s es (es.foldl (next cfg) s) := by
  induction es generalizing s with
  | nil => exact .nil s
  | cons e es ih =>
    exact .cons ⟨rfl, hes e List.mem_cons_self s⟩
      (ih fun e' he' => hes e' (List.mem_cons_of_mem _ he'))

end BrokerDaemon
