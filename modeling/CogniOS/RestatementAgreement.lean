/-
# The readers agree with the writer

The auditor and the trust projection go over the events of a ledger.  On a ledger that a
workspace wrote, both loops keep the last restatement of each verification.

* `agreement_of_runsTo` : the status of every verification after every run.
-/
import CogniOS.RestatementReaders
import CogniOS.Restatements

open Independence VerificationLifecycle TrustProjection

namespace Workspace

/-! ## The fields of a restatement -/

section Fields

variable {w : Broker} {target e : Signed} {r : Restatement}

theorem restatedPayload_json (hbody : e.body = .restated r) :
    e.json.get "payload" = .obj (Body.restated r).payload := by
  rw [← hbody, ← e.payload_eq]
  rfl

theorem restatedPayload_eq (hbody : e.body = .restated r) :
    restatedPayload e.json = .obj (Body.restated r).payload := by
  rw [restatedPayload, restatedPayload_json hbody]
  rfl

theorem isRestatedStatus_text (status : RestatedStatus) :
    isRestatedStatus (.str status.text) = .ok true := by
  cases status <;> decide

theorem isReason_of_strip {reason : String} (h : strip reason ≠ "") :
    isReason (.str reason) = true := by
  simpa [isReason] using h

theorem strOf_taskId {id : String} (h : e.event.taskId = some id) :
    strOf (e.json.get "task_id") = id := by
  rw [get_taskId, h]
  rfl

/-- The scope that the projection asks for is the one that the writer asked for. -/
theorem restatedScope_json {orchestrator id : String} {t : Task}
    (ht : target.body.task? = some t) :
    restatedScope orchestrator id target.json = restatementScope orchestrator id t := by
  have htask : (payloadOf target.json).get "task" = t.toJson := by
    rw [payloadOf_json, Json.get, Body.get?_task, ht]
    rfl
  rw [restatedScope, htask]
  have hrun : (t.toJson.get "verification").get "run_id" =
      (restatementScope orchestrator id t).runId := by
    unfold restatementScope
    show (optRecordJson Verification.toJson t.verification).get "run_id" = _
    cases t.verification <;> rfl
  rw [hrun]
  rfl

end Fields

/-! ## The auditor -/

section Auditor

variable {w : Broker} {identities : String → Json} {evaluate : Json → Json → List String}
  {ledger : List Signed}

/-- The first loop over a ledger. -/
def collected (identities : String → Json) (evaluate : Json → Json → List String)
    (ledger : List Signed) : Collected :=
  (ledger.map Signed.json).foldl (collect identities evaluate) ⟨∅, [], [], ∅, []⟩

theorem collected_snoc (e : Signed) : collected identities evaluate (ledger ++ [e]) =
    collect identities evaluate (collected identities evaluate ledger) e.json := by
  simp [collected]

/-- What the first loop makes of an event, by its body. -/
theorem collect_json (c : Collected) (e : Signed) : collect identities evaluate c e.json =
    if e.body.action = "task.submitted" then
      { c with
        taskSubmissions := (collect identities evaluate c e.json).taskSubmissions
        submissions := (collect identities evaluate c e.json).submissions }
    else if e.body.action = "task.verified" then
      { c with
        verifications := c.verifications ++ [Independence.verificationRecord identities evaluate c e.json]
        bySequence := c.bySequence.insert e.event.sequence
          (Independence.verificationRecord identities evaluate c e.json) }
    else if e.body.action = "verification.restatement" then
      { c with restatements := c.restatements ++ [e.json] }
    else c := by
  simp only [collect, hasAction_json, get_sequence, asInt, decide_eq_true_eq]
  split_ifs <;> rfl

theorem collected_restatements : (collected identities evaluate ledger).restatements =
    (ledger.filter (·.body.action = "verification.restatement")).map Signed.json := by
  induction ledger using List.reverseRecOn with
  | nil => rfl
  | append_singleton ledger e ih =>
    rw [collected_snoc, collect_json, List.filter_append, List.map_append, ← ih]
    split_ifs with hsubmitted hverified hrestated
    · simp [hsubmitted]
    · simp [hverified]
    · simp [hrestated]
    · simp [hrestated]

variable (identities evaluate) in
theorem collected_sequences (ledger : List Signed) : (collected identities evaluate ledger).verifications.map
      (·.sequence) =
    (ledger.filter (·.body.action = "task.verified")).map fun e => .int e.event.sequence := by
  induction ledger using List.reverseRecOn with
  | nil => rfl
  | append_singleton ledger e ih =>
    rw [collected_snoc, collect_json, List.filter_append, List.map_append, ← ih]
    split_ifs with hsubmitted hverified hrestated
    · simp [hsubmitted]
    · simp [hverified, Independence.verificationRecord]
    · simp [hrestated]
    · simp [hverified]

variable (identities evaluate) in
/-- The record of a verification names it and its verifier. -/
theorem collected_lookup (hnodup : (ledger.map (·.event.sequence)).Nodup) {target : Signed}
    (htarget : target ∈ ledger) (hverified : target.body.action = "task.verified") :
    ∃ record, byNumber (collected identities evaluate ledger).bySequence
        (.int target.event.sequence) = some record ∧
      record.eventHash = .str target.event.eventHash ∧
      record.taskId = strOf (target.json.get "task_id") ∧
      record.verifierActor = target.event.actor := by
  induction ledger using List.reverseRecOn with
  | nil => simp at htarget
  | append_singleton ledger e ih =>
    rw [List.map_append, List.nodup_append] at hnodup
    obtain ⟨hnodup, -, hdisjoint⟩ := hnodup
    rw [collected_snoc, collect_json]
    rcases List.mem_append.mp htarget with hold | hnew
    · have hne : (target.event.sequence : ℤ) ≠ e.event.sequence := by
        have := hdisjoint _ (List.mem_map_of_mem hold) e.event.sequence (by simp)
        exact_mod_cast this
      obtain ⟨record, hrecord, hfields⟩ := ih hnodup hold
      refine ⟨record, ?_, hfields⟩
      split_ifs
      · exact hrecord
      · rw [byNumber_insert_ne _ _ hne]
        exact hrecord
      · exact hrecord
      · exact hrecord
    · obtain rfl := List.mem_singleton.mp hnew
      refine ⟨Independence.verificationRecord identities evaluate (collected identities evaluate ledger)
        target.json, ?_, rfl, rfl, rfl⟩
      rw [if_neg (by simp [hverified]), if_pos hverified]
      exact byNumber_insert _ _ _

/-- **A restatement that the writer signed is valid.** -/
theorem restatementReasons_eq (hnodup : (ledger.map (·.event.sequence)).Nodup) {target e : Signed}
    {r : Restatement} (htarget : target ∈ ledger) (hbody : e.body = .restated r)
    (h : Corrects w target e r) :
    restatementReasons (collected identities evaluate ledger).bySequence
      (some w.config.orchestrator) e.json = .ok [] := by
  obtain ⟨record, hrecord, hhash, htask, hverifier⟩ :=
    collected_lookup identities evaluate hnodup htarget h.verified
  obtain ⟨id, -, hid, -⟩ := h.receipt
  have hpayload := restatedPayload_eq hbody
  have hnumber : (Json.obj (Body.restated r).payload).get "target_verification_sequence" =
      .int target.event.sequence := by
    rw [← h.sequence]
    rfl
  have hlater : isLater e.json (.int target.event.sequence) = true := by
    simp [isLater, h.later]
  have htask' : e.json.get "task_id" = .str record.taskId := by
    rw [htask, strOf_taskId hid, get_taskId, h.taskId, hid]
    rfl
  have hobj : (e.json.get "payload").isObj = true := by
    rw [restatedPayload_json hbody]
    rfl
  have hstatus : (Json.obj (Body.restated r).payload).get "effective_status" =
      .str r.status.text := rfl
  have hhash' : (Json.obj (Body.restated r).payload).get "target_verification_hash" =
      record.eventHash := by
    rw [hhash, ← h.hash]
    rfl
  have hverifier' : (Json.obj (Body.restated r).payload).get "original_verifier" =
      .str record.verifierActor := by
    rw [hverifier, ← h.verifier]
    rfl
  have hschema : (Json.obj (Body.restated r).payload).get "schema_version" = .int 1 := rfl
  have hreason : isReason ((Json.obj (Body.restated r).payload).get "reason") = true :=
    isReason_of_strip h.reason
  have hactor : e.json.get "actor" = .str w.config.orchestrator := by
    rw [get_actor, h.actor]
  simp only [restatementReasons, hpayload, hnumber, hrecord, hlater, htask', hobj, hstatus,
    isRestatedStatus_text, hhash', hverifier', hschema, hreason, hactor]
  simp [bind, Except.bind, pure, Except.pure]

/-- The status of the last restatement of a number in the events so far. -/
def lastStatus (n : ℕ) (ledger : List Signed) : Option RestatedStatus :=
  EventLog.latest Signed.restated? n ledger

theorem lastStatus_snoc_other {n : ℕ} {e : Signed} (h : ∀ r, e.body = .restated r →
    r.targetSequence ≠ n) : lastStatus n (ledger ++ [e]) = lastStatus n ledger := by
  have hnone : EventLog.pick Signed.restated? n e = none := by
    cases hbody : e.body with
    | restated r =>
      have hrestated : e.restated? = some (r.targetSequence, r.status) := by
        rw [Signed.restated?, hbody]
      exact EventLog.pick_of_ne hrestated (h r hbody)
    | _ => exact EventLog.pick_of_none (by rw [Signed.restated?, hbody])
  rw [lastStatus, EventLog.latest_snoc, hnone]
  rfl

theorem lastStatus_snoc {e : Signed} {r : Restatement} (hbody : e.body = .restated r) :
    lastStatus r.targetSequence (ledger ++ [e]) = some r.status := by
  have hpick : EventLog.pick Signed.restated? r.targetSequence e = some r.status :=
    EventLog.pick_eq_some.mpr (by rw [Signed.restated?, hbody])
  rw [lastStatus, EventLog.latest_snoc, hpick]
  rfl

/-- The restatement before another one of the same number left the verification disputed. -/
theorem lastStatus_of_monotone {e : Signed} {r : Restatement} (hbody : e.body = .restated r)
    (h : Monotone r.targetSequence (ledger ++ [e])) :
    lastStatus r.targetSequence ledger ≠ some .revoked := by
  have hpick : EventLog.pick Signed.restated? r.targetSequence e = some r.status :=
    EventLog.pick_eq_some.mpr (by rw [Signed.restated?, hbody])
  intro hrevoked
  have hdisputed := EventLog.Continues.last h hpick hrevoked
  simp at hdisputed

/-- The text of a status as it stands in the events. -/
def statusJson (status : RestatedStatus) : Json := .str status.text

theorem statusJson_injective : Function.Injective statusJson := by
  intro a b h
  cases a <;> cases b <;> simp_all [statusJson, RestatedStatus.text]

/-- A valid restatement that weakens no revocation is put in force. -/
theorem auditRestatement_eq {table : AList fun _ : ℤ => VerificationRecord}
    {orchestrator : String} {a : RestatementAudit} {e : Signed} {r : Restatement}
    (hbody : e.body = .restated r)
    (hvalid : restatementReasons table (some orchestrator) e.json = .ok [])
    (hopen : (byNumber a.latest (.int r.targetSequence)).map (·.effectiveStatus) ≠
      some (statusJson .revoked)) :
    auditRestatement table (some orchestrator) a e.json = .ok {
      restatements := a.restatements ++ [restatementRecord e.json []]
      invalid := a.invalid
      latest := a.latest.insert r.targetSequence (restatementRecord e.json []) } := by
  have hnumber : (restatementRecord e.json []).targetSequence = .int r.targetSequence := by
    rw [restatementRecord, restatedPayload_eq hbody]
    rfl
  have hweak : (byNumber a.latest (.int r.targetSequence)).any
      (·.effectiveStatus == .str "verification_revoked") = false := by
    cases hlookup : byNumber a.latest (.int r.targetSequence) with
    | none => rfl
    | some record =>
      rw [hlookup] at hopen
      simpa [statusJson, RestatedStatus.text] using hopen
  rw [auditRestatement, hvalid]
  simp only [bind, Except.bind, hnumber, hweak]
  simp [pure, Except.pure]

/-- **The second loop** over the events so far: all of them are valid, and the last one of each
number is in force. -/
theorem auditRestatements_eq {table : AList fun _ : ℤ => VerificationRecord}
    {orchestrator : String} (hvalid : ∀ e ∈ ledger, ∀ r, e.body = .restated r →
      restatementReasons table (some orchestrator) e.json = .ok [])
    (hmonotone : ∀ n, Monotone n ledger) :
    ∃ a, ((ledger.filter (·.body.action = "verification.restatement")).map Signed.json).foldlM
        (auditRestatement table (some orchestrator)) ⟨[], [], ∅⟩ = .ok a ∧ a.invalid = [] ∧
      ∀ n : ℕ, (byNumber a.latest (.int n)).map (·.effectiveStatus) =
        (lastStatus n ledger).map statusJson := by
  induction ledger using List.reverseRecOn with
  | nil => exact ⟨⟨[], [], ∅⟩, rfl, rfl, fun n => rfl⟩
  | append_singleton ledger e ih =>
    obtain ⟨a, ha, hinvalid, hlatest⟩ := ih (fun e he => hvalid e (List.mem_append_left _ he))
      fun n => (hmonotone n).of_snoc
    rw [List.filter_append, List.map_append, List.foldlM_append, ha]
    by_cases haction : e.body.action = "verification.restatement"
    · obtain ⟨r, hbody⟩ := Body.action_eq_restatement haction
      have hmem := List.mem_append_right ledger (List.mem_singleton_self e)
      have hopen : (byNumber a.latest (.int r.targetSequence)).map (·.effectiveStatus) ≠
          some (statusJson .revoked) := by
        have hnot := lastStatus_of_monotone hbody (hmonotone r.targetSequence)
        rw [hlatest]
        intro hrevoked
        obtain ⟨status, hstatus, heq⟩ := Option.map_eq_some_iff.mp hrevoked
        exact hnot (hstatus.trans (congrArg some (statusJson_injective heq)))
      have hround := auditRestatement_eq hbody (hvalid e hmem r hbody) hopen
      have hlast : ([e].filter (·.body.action = "verification.restatement")).map Signed.json =
          [e.json] := by simp [haction]
      refine ⟨{ a with
        restatements := a.restatements ++ [restatementRecord e.json []]
        latest := a.latest.insert r.targetSequence (restatementRecord e.json []) }, ?_, hinvalid, ?_⟩
      · rw [hlast]
        show (auditRestatement table (some orchestrator) a e.json >>= pure) = _
        rw [hround]
        rfl
      intro n
      by_cases hn : r.targetSequence = n
      · subst hn
        rw [lastStatus_snoc hbody]
        rw [byNumber_insert, restatementRecord, restatedPayload_eq hbody]
        rfl
      · have hne : (n : ℤ) ≠ r.targetSequence := by
          intro heq
          exact hn (by exact_mod_cast heq.symm)
        have hother : ∀ r', e.body = .restated r' → r'.targetSequence ≠ n := by
          intro r' hr'
          rwa [← Body.restated.inj (hbody.symm.trans hr')]
        rw [byNumber_insert_ne _ _ hne, lastStatus_snoc_other hother, hlatest n]
    · have hother : ∀ r, e.body ≠ .restated r := by
        intro r hbody
        simp [hbody, Body.action] at haction
      refine ⟨a, by simp [haction, bind, Except.bind, pure, Except.pure], hinvalid, ?_⟩
      intro n
      rw [lastStatus_snoc_other fun r hr => absurd hr (hother r), hlatest n]

end Auditor

/-! ## The trust projection -/

section Projection

variable {w : Broker} {ledger : List Signed}

/-- The orchestrator is the one of the only opening event. -/
theorem orchestratorOf_eq (h : TrustLog w ledger) (hne : w.config.orchestrator ≠ "") :
    orchestratorOf (ledger.map Signed.json) = .ok w.config.orchestrator := by
  obtain ⟨o, ho, hbody, hactor⟩ := h.opening
  have hfilter : (ledger.map Signed.json).filter (hasAction · "workspace.initialized") =
      [o.json] := by
    have hsame : (hasAction · "workspace.initialized") ∘ Signed.json =
        fun e : Signed => decide (e.body.action = "workspace.initialized") := by
      funext e
      exact hasAction_json e _
    rw [List.filter_map, hsame, ho]
    rfl
  have hname : ((payloadOf o.json).get "config").get "orchestrator" =
      .str w.config.orchestrator := by
    rw [payloadOf_json, hbody]
    rfl
  rw [orchestratorOf, hfilter]
  simp only [hname, get_actor, hactor]
  rw [if_pos ⟨hne, trivial⟩]

/-- The table of the verifications holds each of them under its number. -/
theorem verifiedBySequence_lookup (hnodup : (ledger.map (·.event.sequence)).Nodup)
    {target : Signed} (htarget : target ∈ ledger)
    (hverified : target.body.action = "task.verified") :
    byNumber (verifiedBySequence (ledger.map Signed.json)) (.int target.event.sequence) =
      some target.json := by
  induction ledger using List.reverseRecOn with
  | nil => simp at htarget
  | append_singleton ledger e ih =>
    rw [List.map_append, List.nodup_append] at hnodup
    obtain ⟨hnodup, -, hdisjoint⟩ := hnodup
    have hsnoc : verifiedBySequence ((ledger ++ [e]).map Signed.json) =
        if e.body.action = "task.verified" then
          (verifiedBySequence (ledger.map Signed.json)).insert (e.event.sequence : ℤ) e.json
        else verifiedBySequence (ledger.map Signed.json) := by
      simp [verifiedBySequence, hasAction_json]
    rw [hsnoc]
    rcases List.mem_append.mp htarget with hold | hnew
    · have hne : (target.event.sequence : ℤ) ≠ e.event.sequence := by
        have := hdisjoint _ (List.mem_map_of_mem hold) e.event.sequence (by simp)
        exact_mod_cast this
      split_ifs
      · rw [byNumber_insert_ne _ _ hne]
        exact ih hnodup hold
      · exact ih hnodup hold
    · obtain rfl := List.mem_singleton.mp hnew
      rw [if_pos hverified, byNumber_insert]

variable {validReceipt : Json → Scope → Bool} {table : AList fun _ : ℤ => Json} {id : String}
  {number : ℤ} {hash : Json} {acc : Effective} {e target : Signed} {r : Restatement}

/-- An event that restates no verification of the task is passed over. -/
theorem effectiveStep_other
    (h : e.body.action ≠ "verification.restatement" ∨ e.event.taskId ≠ some id) :
    effectiveStep validReceipt w.config.orchestrator id number hash table acc e.json = .ok acc := by
  have hskip : (hasAction e.json "verification.restatement" &&
      e.json.get "task_id" == .str id) = false := by
    rw [hasAction_json, get_taskId, Bool.and_eq_false_iff]
    rcases h with h | h
    · exact .inl (decide_eq_false h)
    · right
      cases htask : e.event.taskId with
      | none => rfl
      | some id' =>
        rw [htask] at h
        simpa [Ledger.taskIdJson] using h
  rw [effectiveStep]
  simp only [hskip]
  rfl

/-- **A restatement that the writer signed is authoritative.** -/
theorem effectiveStep_restated (h : Corrects w target e r) (hbody : e.body = .restated r)
    (hid : target.event.taskId = some id)
    (htable : byNumber table (.int target.event.sequence) = some target.json)
    (hreceipt : validReceipt r.capabilityReceipt
      (restatedScope w.config.orchestrator id target.json) = true)
    (hopen : byNumber acc.byTarget (.int target.event.sequence) ≠ some "verification_revoked")
    (hhash : target.event.sequence = number → .str target.event.eventHash = hash) :
    effectiveStep validReceipt w.config.orchestrator id number hash table acc e.json =
      .ok ⟨acc.byTarget.insert target.event.sequence r.status.text,
        if (target.event.sequence : ℤ) = number then some r.status.text else acc.status⟩ := by
  have htask : e.json.get "task_id" = .str id := by
    rw [get_taskId, h.taskId, hid]
    rfl
  have htask' : target.json.get "task_id" = .str id := by
    rw [get_taskId, hid]
    rfl
  have hown : (hasAction e.json "verification.restatement" &&
      e.json.get "task_id" == .str id) = true := by
    rw [hasAction_json, hbody, htask]
    simp [Body.action]
  have hnumber : (Json.obj (Body.restated r).payload).get "target_verification_sequence" =
      .int target.event.sequence := by
    rw [← h.sequence]
    rfl
  have hactor : e.json.get "actor" = .str w.config.orchestrator := by
    rw [get_actor, h.actor]
  have hstatus : (Json.obj (Body.restated r).payload).get "effective_status" =
      .str r.status.text := rfl
  have hhash' : (Json.obj (Body.restated r).payload).get "target_verification_hash" =
      target.json.get "event_hash" := by
    rw [get_eventHash, ← h.hash]
    rfl
  have hverifier : (Json.obj (Body.restated r).payload).get "original_verifier" =
      target.json.get "actor" := by
    rw [get_actor, ← h.verifier]
    rfl
  have hschema : (Json.obj (Body.restated r).payload).get "schema_version" = .int 1 := rfl
  have hreason : isReason ((Json.obj (Body.restated r).payload).get "reason") = true :=
    isReason_of_strip h.reason
  have hcapability : (Json.obj (Body.restated r).payload).get "capability_receipt" =
      r.capabilityReceipt := rfl
  have hlater : isLater e.json (.int target.event.sequence) = true := by
    simp [isLater, h.later]
  have hobj : (Json.obj (Body.restated r).payload).isObj = true := rfl
  have hweak : ¬(acc.byTarget.lookup (target.event.sequence : ℤ) = some "verification_revoked" ∧
      r.status.text ≠ "verification_revoked") := fun hweak => hopen hweak.1
  rw [effectiveStep, restatedPayload_json hbody]
  simp only [hown, hobj, hnumber, hschema, hactor, htable, hhash', hverifier, hstatus,
    isRestatedStatus_text, hreason, hlater, hcapability, orRaise, require]
  simp only [bind, Except.bind, and_self, if_true, pure, Except.pure, hweak, not_false_eq_true]
  by_cases hn : (target.event.sequence : ℤ) = number
  · have heq : target.json.get "event_hash" = hash := by
      rw [get_eventHash]
      exact hhash hn
    simp [hn, heq, htask', hreceipt, -get_taskId]
  · simp [hn, htask', hreceipt, -get_taskId]

/-- **The loop of the projection** over the events so far: every restatement of the task is
authoritative, and the last one of each number counts. -/
theorem effective_foldlM {full : List Signed} {v : Signed} (hv : v ∈ full)
    (hverified : v.body.action = "task.verified") (hid : v.event.taskId = some id)
    (hunique : ∀ a ∈ full, ∀ b ∈ full, a.event.sequence = b.event.sequence → a = b)
    (htable : ∀ a ∈ full, a.body.action = "task.verified" →
      byNumber table (.int a.event.sequence) = some a.json)
    (hcorrects : ∀ e ∈ ledger, ∀ r, e.body = .restated r → ∃ target ∈ full, Corrects w target e r ∧
      ∀ id, target.event.taskId = some id → validReceipt r.capabilityReceipt
        (restatedScope w.config.orchestrator id target.json) = true)
    (hmonotone : ∀ n, Monotone n ledger) :
    ∃ acc, (ledger.map Signed.json).foldlM (effectiveStep validReceipt w.config.orchestrator id
        v.event.sequence (.str v.event.eventHash) table) ⟨∅, none⟩ = .ok acc ∧
      acc.status = (lastStatus v.event.sequence ledger).map RestatedStatus.text ∧
      ∀ a ∈ full, a.body.action = "task.verified" → a.event.taskId = some id →
        byNumber acc.byTarget (.int a.event.sequence) =
          (lastStatus a.event.sequence ledger).map RestatedStatus.text := by
  induction ledger using List.reverseRecOn with
  | nil => exact ⟨⟨∅, none⟩, rfl, rfl, fun a _ _ _ => rfl⟩
  | append_singleton ledger e ih =>
    obtain ⟨acc, hacc, hstatus, hbyTarget⟩ :=
      ih (fun e he => hcorrects e (List.mem_append_left _ he)) fun n => (hmonotone n).of_snoc
    rw [List.map_append, List.foldlM_append, hacc]
    -- An event that says nothing about the task leaves everything as it is.
    have hother : (e.body.action ≠ "verification.restatement" ∨ e.event.taskId ≠ some id) →
        (∀ a ∈ full, a.body.action = "task.verified" → a.event.taskId = some id →
          ∀ r, e.body = .restated r → r.targetSequence ≠ a.event.sequence) →
        ∃ acc', ([e].map Signed.json).foldlM (effectiveStep validReceipt w.config.orchestrator id
            v.event.sequence (.str v.event.eventHash) table) acc = .ok acc' ∧
          acc'.status = (lastStatus v.event.sequence (ledger ++ [e])).map RestatedStatus.text ∧
          ∀ a ∈ full, a.body.action = "task.verified" → a.event.taskId = some id →
            byNumber acc'.byTarget (.int a.event.sequence) =
              (lastStatus a.event.sequence (ledger ++ [e])).map RestatedStatus.text := by
      intro hskip hnumber
      refine ⟨acc, ?_, ?_, ?_⟩
      · show (effectiveStep _ _ _ _ _ _ acc e.json >>= pure) = _
        rw [effectiveStep_other hskip]
        rfl
      · rw [lastStatus_snoc_other (hnumber v hv hverified hid), hstatus]
      · intro a ha haverified haid
        rw [lastStatus_snoc_other (hnumber a ha haverified haid), hbyTarget a ha haverified haid]
    by_cases haction : e.body.action = "verification.restatement"
    · obtain ⟨r, hbody⟩ := Body.action_eq_restatement haction
      obtain ⟨target, htarget, h, hvalid⟩ := hcorrects e (by simp) r hbody
      by_cases htask : target.event.taskId = some id
      · have hopen : byNumber acc.byTarget (.int target.event.sequence) ≠
            some "verification_revoked" := by
          have hnot := lastStatus_of_monotone hbody (hmonotone r.targetSequence)
          rw [h.sequence] at hnot
          rw [hbyTarget target htarget h.verified htask]
          intro hrevoked
          obtain ⟨status, hlast, htext⟩ := Option.map_eq_some_iff.mp hrevoked
          cases status with
          | disputed => simp [RestatedStatus.text] at htext
          | revoked => exact hnot hlast
        have hhash : (target.event.sequence : ℤ) = v.event.sequence →
            Json.str target.event.eventHash = .str v.event.eventHash := by
          intro hsame
          rw [hunique target htarget v hv (by exact_mod_cast hsame)]
        have hround := effectiveStep_restated h hbody htask (htable target htarget h.verified)
          (hvalid id htask) hopen hhash
        have hlast : lastStatus target.event.sequence (ledger ++ [e]) = some r.status := by
          rw [← h.sequence]
          exact lastStatus_snoc hbody
        have hkept : ∀ n, n ≠ target.event.sequence →
            lastStatus n (ledger ++ [e]) = lastStatus n ledger := by
          intro n hn
          apply lastStatus_snoc_other
          intro r' hr'
          rw [← Body.restated.inj (hbody.symm.trans hr'), h.sequence]
          exact hn.symm
        refine ⟨_, congrArg (· >>= pure) hround, ?_, ?_⟩
        · show (if _ then _ else _) = _
          by_cases hn : v.event.sequence = target.event.sequence
          · rw [if_pos (by exact_mod_cast hn.symm), hn, hlast]
            rfl
          · have hne : ¬ (target.event.sequence : ℤ) = v.event.sequence := by
              exact_mod_cast fun h : target.event.sequence = v.event.sequence => hn h.symm
            rw [if_neg hne, hkept _ hn, hstatus]
        · intro a ha haverified haid
          show byNumber (acc.byTarget.insert _ _) _ = _
          by_cases hn : a.event.sequence = target.event.sequence
          · rw [hn, byNumber_insert, hlast]
            rfl
          · rw [byNumber_insert_ne _ _ (by exact_mod_cast hn), hkept _ hn,
              hbyTarget a ha haverified haid]
      · refine hother (.inr (by rw [h.taskId]; exact htask)) ?_
        intro a ha _ haid r' hr' heq
        obtain rfl := Body.restated.inj (hbody.symm.trans hr')
        have hsame := hunique a ha target htarget (heq.symm.trans h.sequence)
        rw [← hsame] at htask
        exact htask haid
    · refine hother (.inl haction) ?_
      intro a _ _ _ r hr
      simp [hr, Body.action] at haction

end Projection

/-! ## Agreement -/

/-- The statuses that a verification was restated to, oldest first. -/
def restatements (v : Signed) (ledger : List Signed) : List RestatedStatus :=
  (ledger.filterMap (restatementOf v.event)).map (·.status)

/-- What everybody says about the verifications of a ledger. -/
structure Agreement (w : Broker) (identities : String → Json)
    (evaluate : Json → Json → List String) (validReceipt : Json → Scope → Bool) (s : State)
    (a : VerificationAudit) : Prop where
  audit : auditVerificationEvents identities evaluate s.events (some w.config.orchestrator) = .ok a
  valid : a.invalidRestatements = []
  /-- Disputes, and then at most one revocation. -/
  order : ∀ v ∈ s.ledger, v.body.action = "task.verified" → ∃ n,
    restatements v s.ledger = List.replicate n .disputed ∨
      restatements v s.ledger = List.replicate n .disputed ++ [.revoked]
  audited : ∀ v ∈ s.ledger, v.body.action = "task.verified" →
    ∃ record ∈ a.verifications, record.sequence = .int v.event.sequence
  latest : ∀ v ∈ s.ledger, v.body.action = "task.verified" → ∀ record ∈ a.verifications,
    record.sequence = .int v.event.sequence → record.restatement.map (·.effectiveStatus) =
      (restatements v s.ledger).getLast?.map statusJson
  projected : ∀ v ∈ s.ledger, v.body.action = "task.verified" →
    effectiveRestatement validReceipt s.events v.json =
      .ok ((restatements v s.ledger).getLast?.map RestatedStatus.text)

section Agreement

variable {w : Broker} {s : State}

theorem Inv.nodup (hs : Inv w s) : (s.ledger.map (·.event.sequence)).Nodup := by
  rw [List.nodup_iff_injective_getElem]
  intro i j hij
  have hi : (i : ℕ) < s.ledger.length := by simpa using i.isLt
  have hj : (j : ℕ) < s.ledger.length := by simpa using j.isLt
  have hsequence := fun k (hk : k < s.ledger.length) =>
    hs.chain.sequence k (by rwa [List.length_map])
  simp only [List.getElem_map] at hij hsequence
  rw [hsequence i hi, hsequence j hj] at hij
  exact Fin.ext (by omega)

/-- The restatements of a verification are those of its number. -/
theorem Trusted.restatements_eq (hs : Inv w s) (ht : Trusted w s) {v : Signed}
    (hv : v ∈ s.ledger) :
    restatements v s.ledger = EventLog.history Signed.restated? v.event.sequence s.ledger := by
  rw [restatements, List.map_filterMap, EventLog.history]
  apply List.filterMap_congr
  intro e he
  exact (ht.pick_restated hs hv he).symm

/-- A chain in which only the last element may be a revocation. -/
theorem exists_replicate {statuses : List RestatedStatus}
    (h : statuses.IsChain fun status _ => status = .disputed) :
    ∃ n, statuses = List.replicate n .disputed ∨
      statuses = List.replicate n .disputed ++ [.revoked] := by
  induction h with
  | nil => exact ⟨0, .inl rfl⟩
  | singleton status =>
    cases status with
    | disputed => exact ⟨1, .inl rfl⟩
    | revoked => exact ⟨0, .inr rfl⟩
  | cons_cons hfirst _ ih =>
    obtain ⟨n, hn⟩ := ih
    refine ⟨n + 1, ?_⟩
    rw [hfirst]
    rcases hn with hn | hn
    · exact .inl (by rw [hn]; rfl)
    · exact .inr (by rw [hn]; rfl)

theorem auditedVerification_sequence (latest : AList fun _ : ℤ => RestatementRecord)
    (v : VerificationRecord) : (auditedVerification latest v).sequence = v.sequence := by
  rw [auditedVerification]
  split <;> rfl

theorem auditedVerification_restatement (latest : AList fun _ : ℤ => RestatementRecord)
    (v : VerificationRecord) :
    (auditedVerification latest v).restatement = restatementFor latest v := by
  rw [auditedVerification]
  split <;> simp_all

/-- **The writer, the auditor and the trust projection agree** after every run of calls. -/
theorem agreement_of_runsTo {cs : List Call} (h : RunsTo w cs s) (identities : String → Json)
    (evaluate : Json → Json → List String) {validReceipt : Json → Scope → Bool}
    (hreceipts : ∀ e ∈ s.ledger, ∀ r, e.body = .restated r → ∀ scope,
      receiptIsBound r.capabilityReceipt scope = true →
        validReceipt r.capabilityReceipt scope = true) :
    ∃ a, Agreement w identities evaluate validReceipt s a := by
  have hs := h.inv
  have ht := h.trusted
  have hnodup := hs.nodup
  have hreasons : ∀ e ∈ s.ledger, ∀ r, e.body = .restated r →
      restatementReasons (collected identities evaluate s.ledger).bySequence
        (some w.config.orchestrator) e.json = .ok [] := by
    intro e he r hbody
    obtain ⟨target, htarget, hcorrects⟩ := ht.log.corrects e he r hbody
    exact restatementReasons_eq hnodup htarget hbody hcorrects
  obtain ⟨a, ha, hinvalid, hlatest⟩ := auditRestatements_eq hreasons ht.log.monotone
  have hlast : ∀ v ∈ s.ledger, lastStatus v.event.sequence s.ledger =
      (restatements v s.ledger).getLast? := by
    intro v hv
    rw [ht.restatements_eq hs hv]
    rfl
  have hsequences := collected_sequences identities evaluate s.ledger
  have haudit : ∃ b, auditVerificationEvents identities evaluate s.events
        (some w.config.orchestrator) = .ok b ∧ b.invalidRestatements = a.invalid ∧
      b.verifications = (collected identities evaluate s.ledger).verifications.map
        (auditedVerification a.latest) := by
    rw [auditVerificationEvents, events_eq]
    show ∃ b, ((collected identities evaluate s.ledger).restatements.foldlM (auditRestatement
      (collected identities evaluate s.ledger).bySequence _) _ >>= _) = _ ∧ _
    rw [collected_restatements, ha]
    exact ⟨_, rfl, rfl, rfl⟩
  obtain ⟨b, haudit, hb, hverifications⟩ := haudit
  refine ⟨b, haudit, hb.trans hinvalid, ?_, ?_, ?_, ?_⟩
  · intro v hv _
    rw [ht.restatements_eq hs hv]
    exact exists_replicate (ht.log.monotone v.event.sequence).2
  · intro v hv hverified
    have hmem : Json.int v.event.sequence ∈
        (collected identities evaluate s.ledger).verifications.map (·.sequence) := by
      rw [hsequences]
      exact List.mem_map_of_mem (List.mem_filter.mpr ⟨hv, decide_eq_true hverified⟩)
    obtain ⟨record, hrecord, hsequence⟩ := List.mem_map.mp hmem
    refine ⟨auditedVerification a.latest record, ?_, ?_⟩
    · rw [hverifications]
      exact List.mem_map_of_mem hrecord
    · rw [auditedVerification_sequence, hsequence]
  · intro v hv _ audited haudited hsequence
    rw [hverifications] at haudited
    obtain ⟨record, -, rfl⟩ := List.mem_map.mp haudited
    rw [auditedVerification_sequence] at hsequence
    rw [auditedVerification_restatement, restatementFor, hsequence, ← hlast v hv]
    exact hlatest v.event.sequence
  · intro v hv hverified
    obtain ⟨⟨id, hid, hne⟩, hactor⟩ := ht.log.verified v hv hverified
    have horchestrator := orchestratorOf_eq ht.log (ne_empty_of_isAgentId h.orchestrator)
    have hcorrects : ∀ e ∈ s.ledger, ∀ r, e.body = .restated r → ∃ target ∈ s.ledger,
        Corrects w target e r ∧ ∀ id, target.event.taskId = some id →
          validReceipt r.capabilityReceipt
            (restatedScope w.config.orchestrator id target.json) = true := by
      intro e he r hbody
      obtain ⟨target, htarget, hcorrects⟩ := ht.log.corrects e he r hbody
      refine ⟨target, htarget, hcorrects, ?_⟩
      intro id' hid'
      obtain ⟨id'', t, hid'', htask, hreceipt⟩ := hcorrects.receipt
      obtain rfl : id' = id'' := Option.some.inj (hid'.symm.trans hid'')
      rw [restatedScope_json htask]
      exact hreceipts e he r hbody _ hreceipt
    obtain ⟨acc, hacc, hstatus, -⟩ := effective_foldlM hv hverified hid
      (fun a ha b hb => hs.eq_of_sequence ha hb)
      (fun a ha haverified => verifiedBySequence_lookup hnodup ha haverified) hcorrects
      ht.log.monotone
    have htaskId : v.json.get "task_id" = .str id := by
      rw [get_taskId, hid]
      rfl
    have hidentity : isSha256Text (v.json.get "event_hash") = true ∧ id ≠ "" ∧
        v.event.actor ≠ "" := ⟨hs.isSha256Text hv, hne, hactor⟩
    rw [effectiveRestatement, events_eq, horchestrator]
    simp only [bind, Except.bind, get_sequence, htaskId, get_actor, require]
    rw [if_pos hidentity, get_eventHash, hacc]
    simp only [pure, Except.pure, hstatus, hlast v hv]

end Agreement

/-- A verification that is accepted and then disputed. -/
theorem agreement_of_runsTo_disputed :
    ∃ s, RunsTo sampleBroker (sampleTurnIn "T" ++
        [sampleAccept "T", sampleRestate "T" "verification_disputed"]) s ∧
      s.ledger.getLast?.map (·.body.action) = some "verification.restatement" ∧
      ∃ a, Agreement sampleBroker (fun _ => .null) (fun _ _ => []) receiptIsBound s a := by
  have hrun := runsTo_foldl initialize_sample
    (sampleTurnIn "T" ++ [sampleAccept "T", sampleRestate "T" "verification_disputed"])
  refine ⟨_, hrun, by decide +kernel, ?_⟩
  exact agreement_of_runsTo hrun (fun _ => .null) (fun _ _ => []) fun _ _ _ _ _ h => h

end Workspace
