/-
# Verification runs

`verify` signs the start of a run and then a decision or a failure; a crash leaves the run
open until `reconcile_verification` closes it.  Every run is started once and ended at most
once, and the audit of `verification_lifecycle.py` finds nothing wrong with what is signed.

* `audited_of_runsTo` : the audit after every run of calls, and reconciliation.
-/
import CogniOS.SignedEvents
import CogniOS.TaskHistory
import CogniOS.PairedLog

open Independence VerificationLifecycle PairedLog

namespace Workspace

/-! ## Starts and ends -/

/-- What the receipts of a run are asked for. -/
def runScope (actor operation id : String) (st : Started) : Scope :=
  ⟨.str actor, operation, .str id, .str st.runId.text, .int st.taskAttempt⟩

/-- A started event with a receipt that is bound to it. -/
structure Bound (o : Signed) (st : Started) (id : String) : Prop where
  body : o.body = .verificationStarted st
  taskId : o.event.taskId = some id
  attempt : 1 ≤ st.taskAttempt
  receipt : receiptIsBound st.capabilityReceipt
    (runScope o.event.actor "task.verify" id st) = true

/-- How a run can end. -/
inductive Ends (o : Signed) (st : Started) (id : String) (e : Signed) : Prop
  | failed (f : FailedRun) : e.body = .verificationFailed f →
      e.event.actor = o.event.actor → f.start = o.json → f.runId = st.runId →
      f.taskAttempt = st.taskAttempt → f.contractInputsSha256 = st.contractInputsSha256 →
      f.capabilityReceipt = st.capabilityReceipt → Ends o st id e
  | recovered (r : RecoveredRun) : e.body = .verificationRecovered r → r.start = o.json →
      r.runId = st.runId → r.taskAttempt = st.taskAttempt →
      receiptIsBound r.capabilityReceipt
        (runScope e.event.actor "task.reconcile_verification" id st) = true → Ends o st id e
  | decided (accepted : Bool) (v : Verification) (t : Task) (hash : Sha256Hex) :
      e.body = .decided accepted v t → e.event.actor = o.event.actor → v.runId = st.runId →
      v.verifierIdentity = st.verifierIdentity → v.manifestSha256 = st.manifestSha256 →
      v.workerManifestSha256 = st.workerManifestSha256 →
      v.contractInputsSha256 = st.contractInputsSha256 →
      v.capabilityReceipt = st.capabilityReceipt →
      v.trustedValidation.lookup "validation_contract_sha256" = some (.str hash.text) →
      t.id = id → t.attempt = st.taskAttempt → t.verification = some v →
      t.state = (if accepted then .verified else .rejected) → Ends o st id e

/-- A started event and an event that ends its run. -/
def Matches (o e : Signed) : Prop :=
  ∃ st id, Bound o st id ∧ e.event.taskId = some id ∧ o.event.sequence < e.event.sequence ∧
    Ends o st id e

/-- Every run is started once, and ended at most once by a matching event. -/
abbrev PairedRuns : List Signed → Prop :=
  Paired (fun e => e.body.startedRun?) (fun e => e.body.terminalRun?) Matches

theorem Bound.startedRun? {o : Signed} {st : Started} {id : String} (h : Bound o st id) :
    o.body.startedRun? = some st.runId.text := by
  rw [h.body]
  rfl

theorem Ends.terminalRun? {o e : Signed} {st : Started} {id : String} (h : Ends o st id e) :
    e.body.terminalRun? = some st.runId.text := by
  cases h with
  | failed f hbody _ _ hrun => rw [hbody, Body.terminalRun?, hrun]
  | recovered r hbody _ hrun => rw [hbody, Body.terminalRun?, hrun]
  | decided accepted v t hash hbody _ hrun => rw [hbody, Body.terminalRun?, hrun]

theorem Ends.startedRun? {o e : Signed} {st : Started} {id : String} (h : Ends o st id e) :
    e.body.startedRun? = none := by
  cases h with
  | failed f hbody => simp [hbody, Body.startedRun?]
  | recovered r hbody => simp [hbody, Body.startedRun?]
  | decided accepted v t hash hbody => simp [hbody, Body.startedRun?]

/-! ## What the auditor says of them -/

/-- **A bound start** gives the auditor no reason. -/
theorem Bound.startedReasons {o : Signed} {st : Started} {id : String} (h : Bound o st id) :
    startedReasons o.json = [] := by
  have hscope : startScope o.json = runScope o.event.actor "task.verify" id st := by
    rw [startScope, payloadOf_json, h.body, get_actor, get_taskId, h.taskId]
    rfl
  have hreceipt : (payloadOf o.json).get "capability_receipt" = st.capabilityReceipt := by
    rw [payloadOf_json, h.body]
    rfl
  have hworker : (payloadOf o.json).get "worker_manifest_sha256" =
      optSha256Json st.workerManifestSha256 := by
    rw [payloadOf_json, h.body]
    rfl
  have hidentity : (payloadOf o.json).get "verifier_identity" = st.verifierIdentity.toJson := by
    rw [payloadOf_json, h.body]
    rfl
  have hmanifest : (payloadOf o.json).get "verifier_manifest_sha256" =
      .str st.manifestSha256.text := by
    rw [payloadOf_json, h.body]
    rfl
  have hcontract : (payloadOf o.json).get "verification_contract_inputs_sha256" =
      .str st.contractInputsSha256.text := by
    rw [payloadOf_json, h.body]
    rfl
  have hisObj : st.verifierIdentity.toJson.isObj = true := rfl
  simp only [VerificationLifecycle.startedReasons, hscope, hreceipt, hworker, hidentity,
    hmanifest, hcontract, h.receipt, hisObj, isSha256Text_text, Bool.not_true, reasonIf_false,
    List.nil_append, List.append_nil]
  cases st.workerManifestSha256 with
  | none => rfl
  | some hash => simp [optSha256Json, isSha256Text_text]

section Pairs

variable {o e : Signed} {st : Started} {id : String}

/-- The start of a run as the auditor compares it. -/
theorem Bound.get_taskAttempt (h : Bound o st id) :
    (payloadOf o.json).get "task_attempt" = .int st.taskAttempt := by
  rw [payloadOf_json, h.body]
  rfl

theorem Bound.startScope (h : Bound o st id) :
    startScope o.json = runScope o.event.actor "task.verify" id st := by
  rw [VerificationLifecycle.startScope, payloadOf_json, h.body, get_actor, get_taskId, h.taskId]
  rfl

theorem failed_reasons (ho : Bound o st id) {f : FailedRun}
    (hbody : e.body = .verificationFailed f) (hactor : e.event.actor = o.event.actor)
    (hstart : f.start = o.json) (hattempt : f.taskAttempt = st.taskAttempt)
    (hcontract : f.contractInputsSha256 = st.contractInputsSha256)
    (hreceipt : f.capabilityReceipt = st.capabilityReceipt) :
    terminalAttempt e.json = .int st.taskAttempt ∧ failureReasons e.json = [] ∧
      failedReasons o.json e.json = [] := by
  have hpayload : payloadOf e.json = .obj (Body.verificationFailed f).payload := by
    rw [payloadOf_json, hbody]
  refine ⟨?_, ?_, ?_⟩
  · rw [terminalAttempt, hpayload]
    show (if (Json.int f.taskAttempt == .null) = true then _ else Json.int f.taskAttempt) = _
    rw [hattempt]
    rfl
  · rw [failureReasons, hpayload]
    rfl
  · have hstage : ((payloadOf e.json).get "stage" == .str "recovery") = false := by
      rw [hpayload]
      show (Json.str f.stage.text == .str "recovery") = false
      cases f.stage <;> decide
    have hsame : ∀ key ∈ ["capability_receipt", "verifier_identity", "verifier_manifest_sha256",
        "worker_manifest_sha256", "verification_contract_inputs_sha256"],
        (payloadOf e.json).get key = (payloadOf o.json).get key := by
      intro key hkey
      rw [hpayload]
      simp only [List.mem_cons, List.not_mem_nil, or_false] at hkey
      rcases hkey with rfl | rfl | rfl | rfl | rfl
      · rw [payloadOf_json, ho.body]
        exact hreceipt
      · rw [← hstart]
        rfl
      · rw [← hstart]
        rfl
      · rw [← hstart]
        rfl
      · rw [payloadOf_json, ho.body]
        exact congrArg (fun hash : Sha256Hex => Json.str hash.text) hcontract
    have hactor' : e.json.get "actor" = o.json.get "actor" := by simp [hactor]
    simp only [failedReasons, hstage, hactor']
    simp [hsame]

theorem recovered_reasons (ho : Bound o st id) {r : RecoveredRun}
    (hbody : e.body = .verificationRecovered r) (hstart : r.start = o.json)
    (hattempt : r.taskAttempt = st.taskAttempt)
    (hreceipt : receiptIsBound r.capabilityReceipt
      (runScope e.event.actor "task.reconcile_verification" id st) = true) :
    terminalAttempt e.json = .int st.taskAttempt ∧ failureReasons e.json = [] ∧
      failedReasons o.json e.json = [] := by
  have hpayload : payloadOf e.json = .obj (Body.verificationRecovered r).payload := by
    rw [payloadOf_json, hbody]
  refine ⟨?_, ?_, ?_⟩
  · rw [terminalAttempt, hpayload]
    show (if (Json.int r.taskAttempt == .null) = true then _ else Json.int r.taskAttempt) = _
    rw [hattempt]
    rfl
  · rw [failureReasons, hpayload]
    rfl
  · have hscope : ({ startScope o.json with
        actor := e.json.get "actor"
        operation := "task.reconcile_verification" } : Scope) =
        runScope e.event.actor "task.reconcile_verification" id st := by
      rw [ho.startScope]
      rfl
    have hreceipt' : (payloadOf e.json).get "capability_receipt" = r.capabilityReceipt := by
      rw [hpayload]
      rfl
    have hstage : ((payloadOf e.json).get "stage" == .str "recovery") = true := by
      rw [hpayload]
      rfl
    have hactor : (payloadOf e.json).get "started_actor" = o.json.get "actor" := by
      rw [hpayload, ← hstart]
      rfl
    have hstarted : (payloadOf e.json).get "started_capability_receipt" =
        (payloadOf o.json).get "capability_receipt" := by
      rw [hpayload, ← hstart]
      rfl
    have hsame : ∀ key ∈ ["verifier_identity", "verifier_manifest_sha256",
        "worker_manifest_sha256", "verification_contract_inputs_sha256"],
        (payloadOf e.json).get key = (payloadOf o.json).get key := by
      intro key hkey
      rw [hpayload, ← hstart]
      simp only [List.mem_cons, List.not_mem_nil, or_false] at hkey
      rcases hkey with rfl | rfl | rfl | rfl <;> rfl
    simp only [failedReasons, hstage, hscope, hreceipt', hactor, hstarted, hreceipt]
    simp [hsame]

theorem decided_reasons (ho : Bound o st id) {accepted : Bool} {v : Verification} {t : Task}
    {hash : Sha256Hex} (hbody : e.body = .decided accepted v t)
    (hactor : e.event.actor = o.event.actor) (hrun : v.runId = st.runId)
    (hidentity : v.verifierIdentity = st.verifierIdentity)
    (hmanifest : v.manifestSha256 = st.manifestSha256)
    (hworker : v.workerManifestSha256 = st.workerManifestSha256)
    (hcontract : v.contractInputsSha256 = st.contractInputsSha256)
    (hreceipt : v.capabilityReceipt = st.capabilityReceipt)
    (hhash : v.trustedValidation.lookup "validation_contract_sha256" = some (.str hash.text))
    (hid : t.id = id) (hattempt : t.attempt = st.taskAttempt) (hv : t.verification = some v)
    (hstate : t.state = if accepted then .verified else .rejected) :
    terminalAttempt e.json = .int st.taskAttempt ∧
      taskReasons st.runId.text o.json e.json = [] ∧ decidedReasons o.json e.json = [] := by
  have hpayload : payloadOf e.json = .obj (Body.decided accepted v t).payload := by
    rw [payloadOf_json, hbody]
  have htask : (payloadOf e.json).get "task" = t.toJson := by
    rw [hpayload]
    rfl
  have hverification : t.toJson.get "verification" = v.toJson := by
    show optRecordJson Verification.toJson t.verification = _
    rw [hv]
    rfl
  refine ⟨?_, ?_, ?_⟩
  · have hnone : (payloadOf e.json).get "task_attempt" = .null := by
      rw [hpayload]
      rfl
    rw [terminalAttempt, hnone, htask]
    show Json.int t.attempt = _
    rw [hattempt]
  · have hexpected : t.toJson.get "state" =
        .str (if hasAction e.json "task.verified" then "verified" else "rejected") := by
      rw [hasAction_json, hbody]
      show Json.str t.state.text = _
      rw [hstate]
      cases accepted <;> rfl
    have hname : t.toJson.get "id" = o.json.get "task_id" := by
      rw [get_taskId, ho.taskId]
      exact congrArg Json.str hid
    have hrunId : v.toJson.get "run_id" = .str st.runId.text := by
      rw [← hrun]
      rfl
    have hobj : t.toJson.isObj = true := rfl
    have hobj' : v.toJson.isObj = true := rfl
    simp only [taskReasons, htask, hobj, hname, hexpected, hverification, hobj', hrunId]
    simp
  · have hsame : ∀ key ∈ ["verifier_identity", "worker_manifest_sha256",
        "verification_contract_inputs_sha256", "capability_receipt"],
        v.toJson.get key = (payloadOf o.json).get key ∧
          (payloadOf e.json).get key = (payloadOf o.json).get key := by
      intro key hkey
      rw [hpayload, payloadOf_json, ho.body]
      simp only [List.mem_cons, List.not_mem_nil, or_false] at hkey
      rcases hkey with rfl | rfl | rfl | rfl
      · have h := congrArg Snapshot.toJson hidentity
        exact ⟨h, h⟩
      · have h := congrArg optSha256Json hworker
        exact ⟨h, h⟩
      · have h := congrArg (fun hash : Sha256Hex => Json.str hash.text) hcontract
        exact ⟨h, h⟩
      · exact ⟨hreceipt, hreceipt⟩
    have hactor' : e.json.get "actor" = o.json.get "actor" := by simp [hactor]
    have hevidence : v.toJson.get "verifier_evidence" = v.evidenceJson := rfl
    have hevidence' : (payloadOf e.json).get "verifier_evidence" = v.evidenceJson := by
      rw [hpayload]
      rfl
    have hdigest : v.evidenceJson.get "manifest_sha256" =
        (payloadOf o.json).get "verifier_manifest_sha256" := by
      rw [payloadOf_json, ho.body]
      exact congrArg (fun hash : Sha256Hex => Json.str hash.text) hmanifest
    have htrusted : v.toJson.get "trusted_validation" = .obj v.trustedValidation := rfl
    have htrusted' : (payloadOf e.json).get "trusted_validation" = .obj v.trustedValidation := by
      rw [hpayload]
      rfl
    have hvalidation : (Json.obj v.trustedValidation).get "validation_contract_sha256" =
        .str hash.text := by
      rw [Json.get, Json.get?_obj, hhash]
      rfl
    have hobj : v.toJson.isObj = true := rfl
    have hobj' : v.evidenceJson.isObj = true := rfl
    have hattestation : (v.evidenceJson.get "executor_attestation").isObj = true := rfl
    simp only [decidedReasons, htask, hverification, hactor', hobj, hevidence, hevidence', hdigest,
      hobj', hattestation, htrusted, htrusted', hvalidation, isSha256Text_text]
    simp [hsame]

/-- **A pair that matches** gives the auditor no reason. -/
theorem Matches.pairReasons {k : String} (h : Matches o e) (hk : o.body.startedRun? = some k) :
    pairReasons k o.json e.json = [] := by
  obtain ⟨st, id, ho, htask, hafter, hends⟩ := h
  obtain rfl : st.runId.text = k := Option.some.inj (ho.startedRun?.symm.trans hk)
  have hisAfter : isAfter o.json e.json = true := by
    simp [isAfter, asInt, hafter]
  have htask' : e.json.get "task_id" = o.json.get "task_id" := by
    rw [get_taskId, get_taskId, htask, ho.taskId]
  -- What is left depends on how the run ends.
  have hrest : terminalAttempt e.json = .int st.taskAttempt ∧
      (if isDecided e.json then taskReasons st.runId.text o.json e.json
        else if hasAction e.json "verification.failed" then failureReasons e.json else []) = [] ∧
      (if isDecided e.json then decidedReasons o.json e.json
        else if hasAction e.json "verification.failed" then failedReasons o.json e.json else []) =
        [] := by
    cases hends with
    | failed f hbody hactor hstart hrun hattempt hcontract hreceipt =>
      have hdecided : isDecided e.json = false := by
        simp [isDecided, hasAction_json, hbody, Body.action]
      have hfailed : hasAction e.json "verification.failed" = true := by
        simp [hasAction_json, hbody, Body.action]
      simpa [hdecided, hfailed] using
        failed_reasons ho hbody hactor hstart hattempt hcontract hreceipt
    | recovered r hbody hstart hrun hattempt hreceipt =>
      have hdecided : isDecided e.json = false := by
        simp [isDecided, hasAction_json, hbody, Body.action]
      have hfailed : hasAction e.json "verification.failed" = true := by
        simp [hasAction_json, hbody, Body.action]
      simpa [hdecided, hfailed] using recovered_reasons ho hbody hstart hattempt hreceipt
    | decided accepted v t hash hbody hactor hrun hidentity hmanifest hworker hcontract hreceipt
        hhash hid hattempt hv hstate =>
      have hdecided : isDecided e.json = true := by
        cases accepted <;> simp [isDecided, hasAction_json, hbody, Body.action]
      simpa [hdecided] using decided_reasons ho hbody hactor hrun hidentity hmanifest hworker
        hcontract hreceipt hhash hid hattempt hv hstate
  obtain ⟨hattempt, hshape, hbinding⟩ := hrest
  rw [VerificationLifecycle.pairReasons, verificationBindingReasons, htask', hisAfter, hattempt,
    ho.get_taskAttempt, hshape, hbinding, ho.startedReasons]
  simp

end Pairs

/-! ## What a call adds to the runs -/

/-- The start that `verify` signs. -/
def VerifyRun.started (run : VerifyRun) : Started where
  runId := run.runId
  taskAttempt := run.task.attempt
  manifestSha256 := run.manifest.sha256
  workerManifestSha256 := run.workerManifestSha256
  verifierIdentity := run.verifierIdentity
  contractInputsSha256 := run.contractInputsSha256
  capabilityReceipt := run.capabilityReceipt

/-- The runs in the ledger, and the one that a verification at work has started. -/
structure Lifecycle (s : State) : Prop where
  paired : PairedRuns s.ledger
  bound : ∀ o ∈ s.ledger, ∀ k, o.body.startedRun? = some k →
    ∃ st id, Bound o st id ∧ (s.latest id).isSome = true
  verifying : ∀ id run, s.verifying id = some run → ∃ o ∈ s.ledger, Bound o run.started id ∧
    o.event.actor = run.actor ∧ ∀ e ∈ s.ledger, e.body.terminalRun? ≠ some run.runId.text
  signed : ∀ id t, s.files.lookup id = some t → (s.latest id).isSome = true

/-- What the event of a call does to the runs. -/
inductive Logs (w : Broker) (s : State) (c : Call) (e : Effect) : Prop
  | other : (∀ entry ∈ e.entry, entry.body.startedRun? = none ∧
      entry.body.terminalRun? = none) → e.verifying = none → Logs w s c e
  | begun (now : Utc) (id : String) (run : VerifyRun) :
      e.entry = some ⟨now, run.actor, some id, .verificationStarted run.started⟩ →
      e.verifying = some (id, run) →
      receiptIsBound run.capabilityReceipt (runScope run.actor "task.verify" id run.started) =
        true → 1 ≤ run.task.attempt → (s.files.lookup id).isSome = true →
      (∀ o ∈ s.ledger, o.body.startedRun? ≠ some run.runId.text) → Logs w s c e
  | ended (o : Signed) (st : Started) (id : String) (entry : Entry) : e.entry = some entry →
      o ∈ s.ledger → Bound o st id → entry.taskId = some id →
      Ends o st id (sign w.signer s.ledger entry) →
      (∀ e' ∈ s.ledger, e'.body.terminalRun? ≠ some st.runId.text) → e.verifying = none →
      (∀ t : State, t.verifying = s.verifying → (t.unlock c.op).verifying id = none) →
      Logs w s c e

section Calls

variable {w : Broker} {s : State} {c : Call} {e : Effect}

/-- A task that is not submitted is not decided. -/
theorem Moves.not_run {t u : Task} {b : Body} (h : Moves t b u) (ht : t.state ≠ .submitted) :
    b.startedRun? = none ∧ b.terminalRun? = none := by
  cases h with
  | decided now accepted v hstate => exact absurd hstate ht
  | _ => exact ⟨rfl, rfl⟩

theorem logs_of_moved {id : String} {t u : Task} (hm : e.Moved id t u)
    (ht : t.state ≠ .submitted) : Logs w s c e := by
  obtain ⟨entry, hentry, -, hmoves, -, -, hverifying⟩ := hm
  refine .other ?_ hverifying
  intro entry' hentry'
  obtain rfl : entry = entry' := Option.some.inj (hentry.symm.trans hentry')
  exact hmoves.not_run ht

/-- A run id that was not used starts no run of the ledger. -/
theorem startedRun?_ne_of_notMem {ledger : List Signed} {id : String}
    (h : .str id ∉ usedRunIds ledger) : ∀ o ∈ ledger, o.body.startedRun? ≠ some id := by
  intro o ho hrun
  apply h
  rw [usedRunIds, List.mem_map]
  refine ⟨o, ?_, ?_⟩
  · rw [List.mem_filter, o.action_eq]
    refine ⟨ho, ?_⟩
    cases hbody : o.body with
    | verificationStarted st =>
      rw [Body.action]
      decide
    | _ => simp [hbody, Body.startedRun?] at hrun
  · rw [← get_runId_of_started hrun]
    rfl

/-- The start that is found for a run of a task. -/
theorem find_eq_ok {taskId runId : String} {start : Json} {terminals : List Json}
    (h : findVerificationRun s.events taskId runId = .ok (some start, terminals)) :
    (∃ o ∈ s.ledger, o.json = start ∧ o.body.startedRun? = some runId ∧
      o.event.taskId = some taskId) ∧
    terminals = (touching (fun e => e.body.terminalRun?) runId s.ledger).map Signed.json := by
  simp only [findVerificationRun, bind_eq_ok, require_eq_ok] at h
  obtain ⟨_, htask, _, -, _, -, h⟩ := h
  have h := Except.ok.inj h
  rw [Prod.mk.injEq, events_eq, startedOf_map, terminalsOf_map] at h
  refine ⟨?_, h.2.symm⟩
  have hmem : start ∈ (s.ledger.filter fun e => e.body.startedRun? = some runId).map
      Signed.json := List.mem_of_mem_head? h.1
  obtain ⟨o, ho, rfl⟩ := List.mem_map.mp hmem
  rw [List.mem_filter, decide_eq_true_eq] at ho
  refine ⟨o, ho.1, rfl, ho.2, ?_⟩
  have hstart : o.json ∈ startedOf runId s.events := by
    rw [events_eq, startedOf_map]
    exact hmem
  have hall := List.all_eq_true.mp htask o.json (List.mem_append_left _ hstart)
  rw [get_taskId] at hall
  cases hid : o.event.taskId with
  | none => simp [hid, Ledger.taskIdJson] at hall
  | some id => simpa [hid, Ledger.taskIdJson] using hall

theorem token_eq {a b : Token} (h : a.text = b.text) : a = b := by
  cases a
  cases b
  simpa using h

/-- The end of `verify` ends the run that it started. -/
theorem logs_of_verifyEnd (hs : Inv w s) (hl : Lifecycle s) {taskId : String}
    {runner : Except CogniError RunnerResult}
    {attestation : Except CogniError (List (String × Json))} {archive : Except CogniError Json}
    (hop : c.op = .verifyEnd taskId runner attestation archive)
    (h : verifyEnd s c taskId runner attestation archive = .ok e) : Logs w s c e := by
  have hfree : ∀ t : State, t.verifying = s.verifying →
      (t.unlock c.op).verifying taskId = none := by
    intro t _
    simp [hop, State.unlock]
  obtain ⟨run, hrun, hfail | ⟨v, hash, u, hrunId, hidentity, hmanifest, hworker, hcontract, hreceipt,
    hhash, hu, rfl⟩⟩ := verifyEnd_eq_ok h
  · obtain ⟨o, ho, hbound, hactor, hopen⟩ := hl.verifying taskId run hrun
    obtain ⟨stage, error, hfail⟩ := hfail
    obtain ⟨-, -, hverifying, -, hnone | ⟨start, hfind, -, hentry⟩⟩ :=
      recordVerificationFailure_eq_ok hfail
    · exact .other (by simp [hnone]) hverifying
    · -- The start that is found is the one that this run has signed.
      obtain ⟨⟨o', ho', rfl, hrun', -⟩, -⟩ := find_eq_ok hfind
      obtain rfl : o' = o := hl.paired.eq_of_opens ho ho' hbound.startedRun? hrun'
      refine .ended o' run.started taskId _ hentry ho hbound rfl ?_ hopen hverifying hfree
      exact .failed _ rfl hactor.symm rfl rfl rfl rfl rfl
  · obtain ⟨o, ho, hbound, hactor, hopen⟩ := hl.verifying taskId run hrun
    obtain ⟨hfile, -⟩ := hs.verifying taskId run hrun
    obtain ⟨-, rfl⟩ := transition_eq_ok hu
    refine .ended o run.started taskId _ rfl ho hbound rfl ?_ hopen rfl hfree
    refine .decided run.accept v _ hash rfl hactor.symm hrunId hidentity hmanifest hworker
      hcontract hreceipt hhash (hs.file taskId run.task hfile).same rfl rfl rfl

/-- A reconciliation ends a run that is open. -/
theorem logs_of_reconcile (hl : Lifecycle s) {actor taskId runId : String}
    (hop : c.op = .reconcileVerification actor taskId runId)
    (h : reconcileVerification w s c actor taskId runId = .ok e) : Logs w s c e := by
  obtain ⟨hlock, -, -, hverifying, -, -, token, start, terminals, attempt, receipt, htoken, hfind,
    hattempt, hreceipt, hentry⟩ := reconcileVerification_eq_ok h
  obtain ⟨⟨o, ho, rfl, hrun, htask⟩, hterminals⟩ := find_eq_ok hfind
  obtain ⟨st, id, hbound, -⟩ := hl.bound o ho runId hrun
  obtain rfl : id = taskId := Option.some.inj (hbound.taskId.symm.trans htask)
  have hst : st.runId = token := by
    apply token_eq
    rw [htoken]
    exact Option.some.inj (hbound.startedRun?.symm.trans hrun)
  cases terminals with
  | cons terminal rest =>
    refine .other ?_ hverifying
    rw [reconcileEntry] at hentry
    split at hentry
    · simp [← Except.ok.inj hentry]
    · simp at hentry
  | nil =>
    have hopen : ∀ e' ∈ s.ledger, e'.body.terminalRun? ≠ some runId :=
      touching_eq_nil.mp (List.map_eq_nil_iff.mp hterminals.symm)
    obtain rfl : (st.taskAttempt : ℤ) = attempt := by
      rw [hbound.get_taskAttempt] at hattempt
      exact Json.int.inj hattempt
    refine .ended o st id _ (Except.ok.inj hentry).symm ho hbound rfl ?_ ?_ hverifying ?_
    · refine .recovered _ rfl rfl hst.symm rfl ?_
      rw [runScope, hst, htoken]
      exact c.authority.bound _ _ hreceipt
    · rw [hst, htoken]
      exact hopen
    · intro t ht
      rw [hop]
      show t.verifying id = none
      rw [ht]
      exact hlock

/-- **What the event of a call does to the runs.** -/
theorem logs_of_effect (hs : Inv w s) (hl : Lifecycle s) (h : effect w s c = .ok e) :
    Logs w s c e := by
  have h := (checkedEffect_of_effect h).1
  rw [checkedEffect] at h
  have hleased : ∀ {t : Task}, t.state.leased = true → t.state ≠ .submitted := by
    intro t ht hstate
    simp [hstate, TaskState.leased] at ht
  cases hop : c.op with
  | addAgent actor a =>
    simp only [hop] at h
    obtain ⟨agent, rfl⟩ := addAgent_eq_ok h
    exact .other (by simp [Body.startedRun?, Body.terminalRun?]) rfl
  | addTask actor a =>
    simp only [hop] at h
    obtain ⟨t, -, -, rfl⟩ := addTask_eq_ok h
    exact .other (by simp [Body.startedRun?, Body.terminalRun?]) rfl
  | claim actor taskId seconds token session =>
    simp only [hop] at h
    obtain ⟨id, t, u, -, hm, hstate, -⟩ := claim_moved hs.keyed h
    exact logs_of_moved hm (by simp [hstate])
  | recoverLease actor taskId reason force =>
    simp only [hop] at h
    obtain ⟨t, u, -, hm, hstate, -⟩ := recoverLease_moved h
    exact logs_of_moved hm (hleased hstate)
  | start actor taskId token =>
    simp only [hop] at h
    obtain ⟨t, u, -, hm, hstate⟩ := start_moved h
    exact logs_of_moved hm (by simp [hstate])
  | heartbeat actor taskId token =>
    simp only [hop] at h
    obtain ⟨t, u, -, hm, hstate⟩ := heartbeat_moved h
    exact logs_of_moved hm (hleased hstate)
  | block actor taskId token reason =>
    simp only [hop] at h
    obtain ⟨t, u, -, hm, hstate⟩ := block_moved h
    exact logs_of_moved hm (hleased hstate)
  | submit actor taskId token validated bundle =>
    simp only [hop] at h
    obtain ⟨t, u, -, hm, hstate⟩ := submit_moved h fun t ht => hs.lease_eq_none ht
    exact logs_of_moved hm (by simp [hstate])
  | verifyBegin actor taskId decision note evidence candidates =>
    simp only [hop] at h
    obtain ⟨run, hreads, hstate, rfl, -, hfresh, hreceipt, rfl⟩ := verifyBegin_eq_ok h
    refine .begun (c.clock 0) taskId run rfl rfl (c.authority.bound _ _ hreceipt) ?_ ?_ ?_
    · exact (hs.reads hreads).sound.attempt (by simp [hstate])
    · simp [hreads.2]
    · exact startedRun?_ne_of_notMem hfresh
  | verifyEnd taskId runner attestation archive =>
    simp only [hop] at h
    exact logs_of_verifyEnd hs hl hop h
  | verifyCrash taskId => simp [hop] at h
  | reconcileVerification actor taskId runId =>
    simp only [hop] at h
    exact logs_of_reconcile hl hop h
  | restateVerification actor taskId status reason n =>
    simp only [hop] at h
    obtain ⟨-, -, hverifying, -, hnone | ⟨target, -, r, hentry, -⟩⟩ := restateVerification_eq_ok h
    · exact .other (by simp [hnone]) hverifying
    · exact .other (by simp [hentry, Body.startedRun?, Body.terminalRun?]) hverifying

/-! ## The runs after a call -/

/-- Signing an event keeps the snapshots that are there. -/
theorem latest_apply_isSome (fault : Fault) {id : String} (h : (s.latest id).isSome = true) :
    ((s.apply w e fault).latest id).isSome = true := by
  rcases apply_ledger w s e fault with hledger | ⟨entry, -, hledger⟩
  · rw [State.latest, hledger]
    exact h
  · rw [State.latest, hledger, EventLog.latest_snoc]
    cases EventLog.pick Signed.snapshot? id (sign w.signer s.ledger entry) with
    | none => exact h
    | some u => rfl

/-- A file that is replaced has its snapshot in the ledger. -/
theorem latest_of_file (h : Outcome s c e) {id : String} {u : Task}
    (hfile : e.file = some (id, u)) : ((s.apply w e .none).latest id).isSome = true := by
  have hsigned : ∀ {entry : Entry}, e.entry = some entry → entry.taskId = some id →
      entry.body.task? = some u → ((s.apply w e .none).latest id).isSome = true := by
    intro entry hentry hid hu
    have hledger : (s.apply w e .none).ledger = s.ledger ++ [sign w.signer s.ledger entry] := by
      simp [State.apply, State.replaceFiles, State.append, hentry]
    rw [State.latest, hledger, EventLog.latest_snoc]
    have hpick : EventLog.pick Signed.snapshot? id (sign w.signer s.ledger entry) = some u :=
      EventLog.pick_eq_some.mpr (Signed.snapshot?_eq_some.mpr ⟨hid, hu⟩)
    rw [hpick]
    rfl
  have hmoved : ∀ {id' : String} {t u' : Task}, e.Moved id' t u' →
      ((s.apply w e .none).latest id).isSome = true := by
    rintro id' t u' ⟨entry, hentry, hid, hmoves, hfile', -⟩
    rw [hfile, Option.some.injEq, Prod.mk.injEq] at hfile'
    refine hsigned hentry (hid.trans (congrArg some hfile'.1.symm)) ?_
    rw [hmoves.task?, hfile'.2]
  cases h with
  | agentAdded actor now agent heq => simp [heq] at hfile
  | created actor now t hnew heq =>
    rw [heq] at hfile
    simp only [Option.some.injEq, Prod.mk.injEq] at hfile
    have hentry : e.entry = some ⟨now, actor, some t.id, .created t⟩ := by rw [heq]
    exact hsigned hentry (congrArg some hfile.1) (congrArg some hfile.2)
  | moved id' t u' _ hm _ => exact hmoved hm
  | decided id' run u' _ _ hm _ => exact hmoved hm
  | begun id' run _ _ _ _ hnone _ => simp [hnone] at hfile
  | rebuilt id' _ _ _ hlatest =>
    obtain ⟨rfl, hlatest⟩ := hlatest (id, u) hfile
    exact latest_apply_isSome .none (by simp [hlatest])
  | silent _ _ hnone => simp [hnone] at hfile

theorem Lifecycle.paired_apply (hs : Inv w s) (hl : Lifecycle s) (h : Logs w s c e)
    (fault : Fault) : PairedRuns (s.apply w e fault).ledger := by
  rcases apply_ledger w s e fault with hledger | ⟨entry, hentry, hledger⟩
  · rw [hledger]
    exact hl.paired
  · rw [hledger]
    cases h with
    | other hquiet _ =>
      obtain ⟨hstart, hterminal⟩ := hquiet entry hentry
      exact hl.paired.snoc_other hstart hterminal
    | begun now id run hbegun _ _ _ _ hnew =>
      obtain rfl := Option.some.inj (hbegun.symm.trans hentry)
      exact hl.paired.snoc_open rfl rfl hnew
    | ended o st id entry' hended ho hbound htask hends hopen _ _ =>
      obtain rfl := Option.some.inj (hended.symm.trans hentry)
      exact hl.paired.snoc_close hends.startedRun? hends.terminalRun? ho hbound.startedRun?
        ⟨st, id, hbound, htask, hs.sequence_lt ho entry', hends⟩ hopen

theorem Lifecycle.bound_apply (hl : Lifecycle s) (h : Logs w s c e) (fault : Fault) :
    ∀ o ∈ (s.apply w e fault).ledger, ∀ k, o.body.startedRun? = some k →
      ∃ st id, Bound o st id ∧ ((s.apply w e fault).latest id).isSome = true := by
  intro o ho k hk
  have hold : o ∈ s.ledger →
      ∃ st id, Bound o st id ∧ ((s.apply w e fault).latest id).isSome = true := by
    intro ho
    obtain ⟨st, id, hbound, hlatest⟩ := hl.bound o ho k hk
    exact ⟨st, id, hbound, latest_apply_isSome fault hlatest⟩
  rcases apply_ledger w s e fault with hledger | ⟨entry, hentry, hledger⟩
  · rw [hledger] at ho
    exact hold ho
  · rw [hledger] at ho
    rcases List.mem_append.mp ho with ho | ho
    · exact hold ho
    · obtain rfl := List.mem_singleton.mp ho
      cases h with
      | other hquiet _ =>
        rw [sign_body, (hquiet entry hentry).1] at hk
        simp at hk
      | begun now id run hbegun _ hreceipt hattempt hfile _ =>
        obtain rfl := Option.some.inj (hbegun.symm.trans hentry)
        obtain ⟨t, ht⟩ := Option.isSome_iff_exists.mp hfile
        refine ⟨run.started, id, ⟨rfl, rfl, hattempt, hreceipt⟩, ?_⟩
        exact latest_apply_isSome fault (hl.signed id t ht)
      | ended o st id entry' hended ho' hbound htask hends hopen _ _ =>
        obtain rfl := Option.some.inj (hended.symm.trans hentry)
        exact absurd (hends.startedRun?.symm.trans hk) (by simp)

theorem Lifecycle.verifying_apply (hl : Lifecycle s) (h : Logs w s c e) {id : String}
    {run : VerifyRun} (hrun : ((s.apply w e c.fault).unlock c.op).verifying id = some run) :
    ∃ o ∈ (s.apply w e c.fault).ledger, Bound o run.started id ∧ o.event.actor = run.actor ∧
      ∀ e' ∈ (s.apply w e c.fault).ledger, e'.body.terminalRun? ≠ some run.runId.text := by
  have hlock := verifying_of_unlock hrun
  -- A run that was at work before the call: only its own end could close it.
  have hkept : s.verifying id = some run →
      (∀ entry, e.entry = some entry → entry.body.terminalRun? ≠ some run.runId.text) →
      ∃ o ∈ (s.apply w e c.fault).ledger, Bound o run.started id ∧ o.event.actor = run.actor ∧
        ∀ e' ∈ (s.apply w e c.fault).ledger, e'.body.terminalRun? ≠ some run.runId.text := by
    intro hold hother
    obtain ⟨o, ho, hbound, hactor, hopen⟩ := hl.verifying id run hold
    rcases apply_ledger w s e c.fault with hledger | ⟨entry, hentry, hledger⟩
    · rw [hledger]
      exact ⟨o, ho, hbound, hactor, hopen⟩
    · rw [hledger]
      refine ⟨o, List.mem_append_left _ ho, hbound, hactor, ?_⟩
      intro e' he'
      rcases List.mem_append.mp he' with he' | he'
      · exact hopen e' he'
      · obtain rfl := List.mem_singleton.mp he'
        exact hother entry hentry
  have hsame : e.verifying = none → s.verifying id = some run := by
    intro hnone
    rcases apply_verifying w s e c.fault with heq | ⟨id', run', hrun', -⟩
    · rwa [heq] at hlock
    · simp [hnone] at hrun'
  cases h with
  | other hquiet hverifying =>
    refine hkept (hsame hverifying) fun entry hentry => ?_
    simp [(hquiet entry hentry).2]
  | begun now id' run' hbegun hverifying hreceipt hattempt _ hnew =>
    have hquiet : ∀ entry, e.entry = some entry →
        entry.body.terminalRun? ≠ some run.runId.text := by
      intro entry hentry
      obtain rfl := Option.some.inj (hbegun.symm.trans hentry)
      simp [Body.terminalRun?]
    cases hfault : c.fault with
    | append =>
      rw [hfault] at hlock hkept
      exact hkept hlock hquiet
    | write =>
      rw [hfault] at hlock hkept
      refine hkept ?_ hquiet
      simpa [State.apply, State.append, hbegun] using hlock
    | none =>
      rw [hfault] at hlock hkept
      have hupdate : Function.update s.verifying id' (some run') id = some run := by
        simpa [State.apply, State.append, State.replaceFiles, hbegun, hverifying] using hlock
      by_cases hid : id = id'
      · subst hid
        obtain rfl : run' = run := by simpa using hupdate
        have hledger : (s.apply w e .none).ledger = s.ledger ++ [sign w.signer s.ledger
            ⟨now, run'.actor, some id, .verificationStarted run'.started⟩] := by
          simp [State.apply, State.append, State.replaceFiles, hbegun]
        rw [hledger]
        refine ⟨_, List.mem_append_right _ (List.mem_singleton_self _),
          ⟨rfl, rfl, hattempt, hreceipt⟩, rfl, ?_⟩
        intro e' he'
        rcases List.mem_append.mp he' with he' | he'
        · exact hl.paired.not_closed hnew e' he'
        · obtain rfl := List.mem_singleton.mp he'
          simp [Body.terminalRun?]
      · exact hkept (by simpa [hid] using hupdate) hquiet
  | ended o st id' entry hended ho hbound htask hends hopen hverifying hfree =>
    have hold := hsame hverifying
    refine hkept hold fun entry' hentry' hclosed => ?_
    obtain rfl := Option.some.inj (hended.symm.trans hentry')
    -- The run that is closed is another one: its task is free after the call.
    obtain ⟨o', ho', hbound', -, -⟩ := hl.verifying id run hold
    have hst : st.runId.text = run.runId.text :=
      Option.some.inj (hends.terminalRun?.symm.trans hclosed)
    have hsameStart : o' = o := by
      apply hl.paired.eq_of_opens ho ho' hbound.startedRun?
      rw [hst]
      exact hbound'.startedRun?
    have hid : id' = id := by
      rw [hsameStart] at hbound'
      exact Option.some.inj (hbound.taskId.symm.trans hbound'.taskId)
    have hnone := hfree (s.apply w e c.fault) (by
      rcases apply_verifying w s e c.fault with heq | ⟨_, _, hsome, -⟩
      · exact heq
      · simp [hverifying] at hsome)
    rw [hid, hrun] at hnone
    simp at hnone

theorem Lifecycle.apply (hs : Inv w s) (hl : Lifecycle s) (houtcome : Outcome s c e)
    (h : Logs w s c e) : Lifecycle ((s.apply w e c.fault).unlock c.op) := by
  constructor
  · rw [unlock_ledger]
    exact hl.paired_apply hs h c.fault
  · rw [unlock_ledger]
    intro o ho k hk
    obtain ⟨st, id, hbound, hlatest⟩ := hl.bound_apply h c.fault o ho k hk
    refine ⟨st, id, hbound, ?_⟩
    rwa [State.latest, unlock_ledger]
  · rw [unlock_ledger]
    intro id run hrun
    exact hl.verifying_apply h hrun
  · intro id t ht
    rw [unlock_files] at ht
    rw [State.latest, unlock_ledger]
    have hold : ∀ t, s.files.lookup id = some t →
        ((s.apply w e c.fault).latest id).isSome = true :=
      fun t ht => latest_apply_isSome c.fault (hl.signed id t ht)
    cases hfault : c.fault with
    | append =>
      rw [hfault] at ht hold
      exact hold t ht
    | write =>
      rw [hfault] at ht hold
      have heq : (s.apply w e .write).files = s.files := by
        rw [State.apply, State.append]
        split <;> rfl
      rw [heq] at ht
      exact hold t ht
    | none =>
      rw [hfault] at ht hold
      rcases apply_files w s e .none with heq | ⟨id', u, hfile, heq⟩
      · rw [heq] at ht
        exact hold t ht
      · by_cases hid : id = id'
        · subst hid
          exact latest_of_file houtcome hfile
        · rw [heq, AList.lookup_insert_ne hid] at ht
          exact hold t ht

theorem Lifecycle.unlock (hl : Lifecycle s) (op : Op) : Lifecycle (s.unlock op) := by
  constructor
  · rw [unlock_ledger]
    exact hl.paired
  · rw [unlock_ledger]
    intro o ho k hk
    obtain ⟨st, id, hbound, hlatest⟩ := hl.bound o ho k hk
    refine ⟨st, id, hbound, ?_⟩
    rwa [State.latest, unlock_ledger]
  · rw [unlock_ledger]
    intro id run hrun
    exact hl.verifying id run (verifying_of_unlock hrun)
  · intro id t ht
    rw [unlock_files] at ht
    rw [State.latest, unlock_ledger]
    exact hl.signed id t ht

theorem Lifecycle.step (hs : Inv w s) (hl : Lifecycle s) (c : Call) :
    Lifecycle (step w s c) := by
  rcases step_cases hs c with h | ⟨e, he, houtcome, h⟩
  · rw [h]
    exact hl.unlock c.op
  · rw [h]
    exact hl.apply hs houtcome (logs_of_effect hs hl he)

end Calls

/-! ## The audit -/

section Audit

variable {w : Broker} {s : State} {c : Call} {e : Effect}

theorem startedOf_events (k : String) :
    startedOf k s.events =
      (touching (fun e => e.body.startedRun?) k s.ledger).map Signed.json := by
  rw [events_eq, startedOf_map]
  rfl

theorem terminalsOf_events (k : String) :
    terminalsOf k s.events =
      (touching (fun e => e.body.terminalRun?) k s.ledger).map Signed.json := by
  rw [events_eq, terminalsOf_map]
  rfl

/-- A run id in the events is one that an event of the ledger starts or ends. -/
theorem run_of_mem_runIds {k : String} (h : k ∈ runIds s.events) :
    ∃ e ∈ s.ledger, e.body.startedRun? = some k ∨ e.body.terminalRun? = some k := by
  rw [runIds, List.mem_mergeSort, List.mem_dedup, List.mem_filterMap] at h
  obtain ⟨j, hj, hk⟩ := h
  rw [List.mem_filter, events_eq, List.mem_map] at hj
  obtain ⟨⟨e, he, rfl⟩, hlifecycle⟩ := hj
  refine ⟨e, he, ?_⟩
  rw [isLifecycle, isStarted_json, isTerminal_json, Bool.and_eq_true, Bool.or_eq_true] at hlifecycle
  have hget : ∀ k', (payloadOf e.json).get "run_id" = .str k' → k' = k := by
    intro k' hk'
    rw [hk'] at hk
    dsimp only at hk
    split at hk
    · exact Option.some.inj hk
    · simp at hk
  rcases hlifecycle.1 with hstart | hterminal
  · obtain ⟨k', hk'⟩ := Option.isSome_iff_exists.mp hstart
    exact .inl (hk'.trans (congrArg some (hget k' (get_runId_of_started hk'))))
  · obtain ⟨k', hk'⟩ := Option.isSome_iff_exists.mp hterminal
    exact .inr (hk'.trans (congrArg some (hget k' (get_runId_of_terminal hk'))))

/-- A run of the ledger has exactly one start. -/
theorem Lifecycle.start_of_run (hl : Lifecycle s) {k : String} {e : Signed} (he : e ∈ s.ledger)
    (hk : e.body.startedRun? = some k ∨ e.body.terminalRun? = some k) :
    ∃ o ∈ s.ledger, ∃ st id, Bound o st id ∧ o.body.startedRun? = some k ∧
      startedOf k s.events = [o.json] := by
  obtain ⟨o, ho, hstart⟩ : ∃ o ∈ s.ledger, o.body.startedRun? = some k := by
    rcases hk with hk | hk
    · exact ⟨e, he, hk⟩
    · obtain ⟨o, ho, hstart, -⟩ := hl.paired.matched e he k hk
      exact ⟨o, ho, hstart⟩
  obtain ⟨st, id, hbound, -⟩ := hl.bound o ho k hstart
  refine ⟨o, ho, st, id, hbound, hstart, ?_⟩
  rw [startedOf_events, touching_eq_singleton (hl.paired.opened k) ho hstart]
  rfl

theorem Lifecycle.terminals_length (hl : Lifecycle s) (k : String) :
    (terminalsOf k s.events).length ≤ 1 := by
  rw [terminalsOf_events, List.length_map]
  exact hl.paired.closed k

/-- **The record of a run of the ledger is valid.** -/
theorem Lifecycle.valid_runRecord (hl : Lifecycle s) {k : String} {e : Signed}
    (he : e ∈ s.ledger) (hk : e.body.startedRun? = some k ∨ e.body.terminalRun? = some k) :
    (runRecord k (startedOf k s.events) (terminalsOf k s.events)).valid = true := by
  obtain ⟨o, ho, st, id, hbound, hstart, hstarts⟩ := hl.start_of_run he hk
  have hterminals := hl.terminals_length k
  rw [hstarts]
  rw [terminalsOf_events] at hterminals ⊢
  cases hcases : touching (fun e => e.body.terminalRun?) k s.ledger with
  | nil => rfl
  | cons e' rest =>
    have hrest : rest = [] := by
      rw [hcases] at hterminals
      simpa using hterminals
    have hmem : e' ∈ touching (fun e => e.body.terminalRun?) k s.ledger := by simp [hcases]
    obtain ⟨he', hclosed⟩ := mem_touching.mp hmem
    obtain ⟨o', ho', hstart', hmatch⟩ := hl.paired.matched e' he' k hclosed
    obtain rfl : o' = o := hl.paired.eq_of_opens ho ho' hstart hstart'
    rw [hrest]
    show List.isEmpty ([] ++ reasonIf (1 < 1) _ ++ VerificationLifecycle.pairReasons k o'.json
      e'.json) = true
    rw [hmatch.pairReasons hstart]
    rfl

/-- The events of the protocol have run ids. -/
theorem Lifecycle.invalidEvents (hl : Lifecycle s) :
    (auditVerificationRuns s.events).invalidEvents = [] := by
  rw [auditVerificationRuns]
  show List.map _ _ = []
  rw [List.map_eq_nil_iff, List.filter_eq_nil_iff]
  intro j hj
  rw [List.mem_filter, events_eq, List.mem_map] at hj
  obtain ⟨⟨e, he, rfl⟩, hlifecycle⟩ := hj
  rw [isLifecycle, isStarted_json, isTerminal_json, Bool.and_eq_true, Bool.or_eq_true] at hlifecycle
  have hhex : ∀ k, e.body.startedRun? = some k → Hex.isHex 32 k = true := by
    intro k hk
    obtain ⟨st, id, hbound, -⟩ := hl.bound e he k hk
    obtain rfl := Option.some.inj (hbound.startedRun?.symm.trans hk)
    exact st.runId.isHex
  have hhex' : ∀ k, e.body.terminalRun? = some k → Hex.isHex 32 k = true := by
    intro k hk
    obtain ⟨o, ho, hstart, -⟩ := hl.paired.matched e he k hk
    obtain ⟨st, id, hbound, -⟩ := hl.bound o ho k hstart
    obtain rfl := Option.some.inj (hbound.startedRun?.symm.trans hstart)
    exact st.runId.isHex
  rcases hlifecycle.1 with hstart | hterminal
  · obtain ⟨k, hk⟩ := Option.isSome_iff_exists.mp hstart
    simp [get_runId_of_started hk, isRunId, hhex k hk]
  · obtain ⟨k, hk⟩ := Option.isSome_iff_exists.mp hterminal
    simp [get_runId_of_terminal hk, isRunId, hhex' k hk]

theorem Lifecycle.invalidRuns (hl : Lifecycle s) :
    (auditVerificationRuns s.events).invalidRuns = [] := by
  rw [auditVerificationRuns]
  show List.filter _ _ = []
  rw [List.filter_eq_nil_iff]
  intro r hr
  obtain ⟨k, hk, rfl⟩ := List.mem_map.mp hr
  obtain ⟨e, he, hrun⟩ := run_of_mem_runIds hk
  simp [hl.valid_runRecord he hrun]

end Audit

end Workspace
