/-
# The readers of restatements

`audit_verification_events` of `independence.py` and `_effective_restatement` of
`trust_projection.py`, which both find out what a verification is worth today.  The identity
registry, the evaluation of two identities and the validity of a capability receipt are
parameters.
-/
import CogniOS.VerificationLifecycle
import Mathlib

open VerificationLifecycle

/-! ## Common parts -/

/-- `str` of an actor or a task id, where an event holds a text or `None`. -/
def strOf : Json → String
  | .str s => s
  | _ => "None"

/-- Membership in the set of the two statuses; a list or a dictionary has no hash. -/
def isRestatedStatus (v : Json) : Except CogniError Bool :=
  match v with
  | .arr _ => .error ⟨.other, "unhashable type: 'list'"⟩
  | .obj _ => .error ⟨.other, "unhashable type: 'dict'"⟩
  | v => .ok (v == .str "verification_disputed" || v == .str "verification_revoked")

/-- A string that is not blank. -/
def isReason (v : Json) : Bool :=
  match v with
  | .str s => strip s != ""
  | _ => false

/-- The value under an integer key; a boolean is no key. -/
def byNumber {α : Type} (table : AList fun _ : ℤ => α) (key : Json) : Option α :=
  match key with
  | .int n => table.lookup n
  | _ => none

theorem byNumber_insert {α : Type} (table : AList fun _ : ℤ => α) (n : ℤ) (x : α) :
    byNumber (table.insert n x) (.int n) = some x :=
  AList.lookup_insert table

theorem byNumber_insert_ne {α : Type} (table : AList fun _ : ℤ => α) {m n : ℤ} (x : α)
    (h : m ≠ n) : byNumber (table.insert n x) (.int m) = byNumber table (.int m) :=
  AList.lookup_insert_ne h

/-- An event comes after the event with the given number. -/
def isLater (event number : Json) : Bool :=
  match event.get "sequence", number with
  | .int n, .int m => m < n
  | _, _ => false

/-! ## The auditor -/

namespace Independence

structure SubmissionRecord where
  sequence : Json
  taskId : String
  actor : String
  workerIdentity : Json

/-- A `task.verified` event with its audited independence. -/
structure VerificationRecord where
  sequence : Json
  eventHash : Json
  taskId : String
  workerActor : Option String
  verifierActor : String
  workerIdentity : Json
  verifierIdentity : Json
  recordedIndependence : Json
  auditedReasons : List String

structure RestatementRecord where
  sequence : Json
  taskId : Json
  actor : Json
  targetSequence : Json
  targetHash : Json
  effectiveStatus : Json
  reason : Json
  reasons : List String

/-- A verification with the restatement that is in force. -/
structure AuditedVerification extends VerificationRecord where
  restatement : Option RestatementRecord
  effectiveStatus : Json

/-- What the first loop collects. -/
structure Collected where
  taskSubmissions : AList fun _ : String => SubmissionRecord
  submissions : List SubmissionRecord
  verifications : List VerificationRecord
  bySequence : AList fun _ : ℤ => VerificationRecord
  restatements : List Json

/-- What the second loop collects. -/
structure RestatementAudit where
  restatements : List RestatementRecord
  invalid : List RestatementRecord
  latest : AList fun _ : ℤ => RestatementRecord

/-- The result of `audit_verification_events`. -/
structure VerificationAudit where
  submissions : List SubmissionRecord
  verifications : List AuditedVerification
  restatements : List RestatementRecord
  invalidRestatements : List RestatementRecord
  unresolvedUntrusted : List VerificationRecord

def VerificationAudit.valid (a : VerificationAudit) : Bool :=
  a.invalidRestatements.isEmpty && a.unresolvedUntrusted.isEmpty

section Audit

variable (identities : String → Json) (evaluate : Json → Json → List String)

/-- The signed identity, or the one in the registry. -/
def identityOr (signed : Json) (actor : String) : Json :=
  if signed.isObj then signed else identities actor

def verificationRecord (c : Collected) (event : Json) : VerificationRecord :=
  let taskId := strOf (event.get "task_id")
  let actor := strOf (event.get "actor")
  let submission := c.taskSubmissions.lookup taskId
  let workerIdentity := (submission.map (·.workerIdentity)).getD .null
  let verifierIdentity := identityOr identities ((payloadOf event).get "verifier_identity") actor
  { sequence := event.get "sequence"
    eventHash := event.get "event_hash"
    taskId := taskId
    workerActor := submission.map (·.actor)
    verifierActor := actor
    workerIdentity := workerIdentity
    verifierIdentity := verifierIdentity
    recordedIndependence := (payloadOf event).get "independence"
    auditedReasons := evaluate workerIdentity verifierIdentity }

/-- One round of the first loop. -/
def collect (c : Collected) (event : Json) : Collected :=
  if hasAction event "task.submitted" then
    let taskId := strOf (event.get "task_id")
    let actor := strOf (event.get "actor")
    let record : SubmissionRecord := ⟨event.get "sequence", taskId, actor,
      identityOr identities ((payloadOf event).get "worker_identity") actor⟩
    { c with
      taskSubmissions := c.taskSubmissions.insert taskId record
      submissions := c.submissions ++ [record] }
  else if hasAction event "task.verified" then
    let record := verificationRecord identities evaluate c event
    { c with
      verifications := c.verifications ++ [record]
      bySequence := match asInt (event.get "sequence") with
        | some n => c.bySequence.insert n record
        | none => c.bySequence }
  else if hasAction event "verification.restatement" then
    { c with restatements := c.restatements ++ [event] }
  else c

/-- The payload of a restatement, empty when it is no object. -/
def restatedPayload (event : Json) : Json :=
  if (event.get "payload").isObj then event.get "payload" else .obj []

/-- The reasons that a restatement is invalid. -/
def restatementReasons (bySequence : AList fun _ : ℤ => VerificationRecord)
    (orchestrator : Option String) (event : Json) : Except CogniError (List String) := do
  let payload := restatedPayload event
  let targetSequence := payload.get "target_verification_sequence"
  let known ← isRestatedStatus (payload.get "effective_status")
  return reasonIf (!(event.get "payload").isObj) "payload_not_object" ++
    (match byNumber bySequence targetSequence with
    | none => ["target_verification_missing"]
    | some target =>
        reasonIf (event.get "task_id" != .str target.taskId) "task_id_mismatch" ++
        reasonIf (payload.get "target_verification_hash" != target.eventHash)
          "target_hash_mismatch" ++
        reasonIf (!isLater event targetSequence) "restatement_not_after_target" ++
        reasonIf (payload.get "original_verifier" != .str target.verifierActor)
          "original_verifier_mismatch") ++
    reasonIf (payload.get "schema_version" != .int 1) "unsupported_schema_version" ++
    reasonIf (!known) "invalid_effective_status" ++
    reasonIf (!isReason (payload.get "reason")) "missing_reason" ++
    match orchestrator with
    | some orchestrator =>
        reasonIf (event.get "actor" != .str orchestrator) "actor_is_not_orchestrator"
    | none => []

def restatementRecord (event : Json) (reasons : List String) : RestatementRecord :=
  let payload := restatedPayload event
  { sequence := event.get "sequence"
    taskId := event.get "task_id"
    actor := event.get "actor"
    targetSequence := payload.get "target_verification_sequence"
    targetHash := payload.get "target_verification_hash"
    effectiveStatus := payload.get "effective_status"
    reason := payload.get "reason"
    reasons := reasons }

/-- One round of the second loop. -/
def auditRestatement (bySequence : AList fun _ : ℤ => VerificationRecord)
    (orchestrator : Option String) (a : RestatementAudit) (event : Json) :
    Except CogniError RestatementAudit := do
  let reasons ← restatementReasons bySequence orchestrator event
  let record := restatementRecord event reasons
  if reasons ≠ [] then
    return { a with
      restatements := a.restatements ++ [record]
      invalid := a.invalid ++ [record] }
  else if (byNumber a.latest record.targetSequence).any
      (·.effectiveStatus == .str "verification_revoked") &&
      record.effectiveStatus != .str "verification_revoked" then
    let weak := { record with reasons := ["revocation_cannot_be_weakened"] }
    return { a with
      restatements := a.restatements ++ [weak]
      invalid := a.invalid ++ [weak] }
  else
    return { a with
      restatements := a.restatements ++ [record]
      latest := match record.targetSequence with
        | .int n => a.latest.insert n record
        | _ => a.latest }

/-- The last accepted restatement of a verification. -/
def restatementFor (latest : AList fun _ : ℤ => RestatementRecord) (v : VerificationRecord) :
    Option RestatementRecord :=
  (asInt v.sequence).bind latest.lookup

/-- The status in force: the restatement's, or what the identities say. -/
def auditedVerification (latest : AList fun _ : ℤ => RestatementRecord)
    (v : VerificationRecord) : AuditedVerification :=
  match restatementFor latest v with
  | some r => { v with restatement := some r, effectiveStatus := r.effectiveStatus }
  | none => { v with
      restatement := none
      effectiveStatus := .str (if v.auditedReasons.isEmpty then "verified"
        else "verification_disputed") }

/-- `audit_verification_events`. -/
def auditVerificationEvents (events : List Json) (orchestrator : Option String) :
    Except CogniError VerificationAudit := do
  let c := events.foldl (collect identities evaluate) ⟨∅, [], [], ∅, []⟩
  let a ← c.restatements.foldlM (auditRestatement c.bySequence orchestrator) ⟨[], [], ∅⟩
  return {
    submissions := c.submissions
    verifications := c.verifications.map (auditedVerification a.latest)
    restatements := a.restatements
    invalidRestatements := a.invalid
    unresolvedUntrusted := c.verifications.filter fun v =>
      (restatementFor a.latest v).isNone && !v.auditedReasons.isEmpty }

end Audit

end Independence

/-! ## The trust projection -/

namespace TrustProjection

/-- The orchestrator that the only initialization names. -/
def orchestratorOf (events : List Json) : Except CogniError String :=
  match events.filter (hasAction · "workspace.initialized") with
  | [initialization] =>
      match ((payloadOf initialization).get "config").get "orchestrator" with
      | .str orchestrator =>
          if orchestrator ≠ "" ∧ initialization.get "actor" = .str orchestrator then
            .ok orchestrator
          else .error ⟨.other, "workspace orchestrator authority is invalid"⟩
      | _ => .error ⟨.other, "workspace orchestrator authority is invalid"⟩
  | _ => .error ⟨.other, "workspace orchestrator authority is ambiguous"⟩

/-- `verified_by_sequence`. -/
def verifiedBySequence (events : List Json) : AList fun _ : ℤ => Json :=
  events.foldl (fun table event =>
    if hasAction event "task.verified" then
      match event.get "sequence" with
      | .int n => table.insert n event
      | _ => table
    else table) ∅

/-- What the loop knows: the status of each target, and of the given verification. -/
structure Effective where
  byTarget : AList fun _ : ℤ => String
  status : Option String

/-- The scope of the receipt in a restatement. -/
def restatedScope (orchestrator taskId : String) (target : Json) : Scope :=
  let task := (payloadOf target).get "task"
  ⟨.str orchestrator, "task.restate_verification", .str taskId,
    (task.get "verification").get "run_id", task.get "attempt"⟩

/-- What the loop does with a restatement of the number `n` of the task. -/
def effectiveStep (validReceipt : Json → Scope → Bool) (orchestrator taskId : String)
    (targetSequence : ℤ) (targetHash : Json) (table : AList fun _ : ℤ => Json) (acc : Effective)
    (event : Json) : Except CogniError Effective := do
  let notAuthoritative : CogniError :=
    ⟨.other, "verification restatement is not authoritative"⟩
  if hasAction event "verification.restatement" && event.get "task_id" == .str taskId then
    let payload := event.get "payload"
    require (payload.isObj = true) ⟨.other, "verification restatement payload is invalid"⟩
    let number := payload.get "target_verification_sequence"
    require (payload.get "schema_version" = .int 1 ∧ event.get "actor" = .str orchestrator)
      notAuthoritative
    let target ← orRaise (byNumber table number) notAuthoritative
    require (target.get "task_id" = .str taskId ∧
        payload.get "target_verification_hash" = target.get "event_hash" ∧
        payload.get "original_verifier" = target.get "actor") notAuthoritative
    let known ← isRestatedStatus (payload.get "effective_status")
    require (known = true ∧ isReason (payload.get "reason") = true ∧
        isLater event number = true ∧
        validReceipt (payload.get "capability_receipt")
          (restatedScope orchestrator taskId target) = true) notAuthoritative
    match number, payload.get "effective_status" with
    | .int n, .str status =>
        require (¬(acc.byTarget.lookup n = some "verification_revoked" ∧
            status ≠ "verification_revoked"))
          ⟨.other, "verification revocation cannot be weakened"⟩
        if n = targetSequence then
          require (target.get "event_hash" = targetHash)
            ⟨.other, "verification restatement target changed"⟩
          return ⟨acc.byTarget.insert n status, some status⟩
        else return ⟨acc.byTarget.insert n status, acc.status⟩
    | _, _ => .error notAuthoritative
  else return acc

/-- `_effective_restatement`. -/
def effectiveRestatement (validReceipt : Json → Scope → Bool) (events : List Json)
    (verification : Json) : Except CogniError (Option String) := do
  let orchestrator ← orchestratorOf events
  match verification.get "sequence", verification.get "task_id", verification.get "actor" with
  | .int n, .str taskId, .str verifier =>
      let targetHash := verification.get "event_hash"
      require (isSha256Text targetHash = true ∧ taskId ≠ "" ∧ verifier ≠ "")
        ⟨.other, "verification event identity is invalid"⟩
      let acc ← events.foldlM (effectiveStep validReceipt orchestrator taskId n targetHash
        (verifiedBySequence events)) ⟨∅, none⟩
      return acc.status
  | _, _, _ => .error ⟨.other, "verification event identity is invalid"⟩

end TrustProjection
