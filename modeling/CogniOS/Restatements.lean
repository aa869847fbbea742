/-
# Restated verifications

A restatement is signed after a look at the ledger, and two other components read it back
with loops of their own.  All three agree on every ledger that a workspace can write.

* `restated_of_runsTo` : the writer, the auditor and the trust projection.
-/
import CogniOS.RestatementReaders
import CogniOS.SignedEvents
import CogniOS.TaskHistory

open Independence VerificationLifecycle TrustProjection

namespace Workspace

/-! ## The bodies that matter -/

theorem Body.action_eq_verified {b : Body} (h : b.action = "task.verified") :
    ∃ v t, b = .decided true v t := by
  cases b with
  | decided accepted v t =>
    cases accepted with
    | true => exact ⟨v, t, rfl⟩
    | false => simp [Body.action] at h
  | recovered r t => cases hr : r.forced <;> simp [Body.action, hr] at h
  | _ => simp [Body.action] at h

theorem Body.action_eq_initialized {b : Body} (h : b.action = "workspace.initialized") :
    ∃ config, b = .initialized config := by
  cases b with
  | initialized config => exact ⟨config, rfl⟩
  | decided accepted v t => cases accepted <;> simp [Body.action] at h
  | recovered r t => cases hr : r.forced <;> simp [Body.action, hr] at h
  | _ => simp [Body.action] at h

theorem Body.action_eq_restatement {b : Body} (h : b.action = "verification.restatement") :
    ∃ r, b = .restated r := by
  cases b with
  | restated r => exact ⟨r, rfl⟩
  | decided accepted v t => cases accepted <;> simp [Body.action] at h
  | recovered r t => cases hr : r.forced <;> simp [Body.action, hr] at h
  | _ => simp [Body.action] at h

/-- A body that says nothing about the trust in a verification. -/
def Body.plain : Body → Bool
  | .initialized _ => false
  | .decided accepted _ _ => !accepted
  | .restated _ => false
  | _ => true

theorem Moves.plain {t u : Task} {b : Body} (h : Moves t b u) (ht : t.state ≠ .submitted) :
    b.plain = true := by
  cases h with
  | decided now accepted v hstate => exact absurd hstate ht
  | _ => rfl

/-- The number and the status in a restatement. -/
def Signed.restated? (e : Signed) : Option (ℕ × RestatedStatus) :=
  match e.body with
  | .restated r => some (r.targetSequence, r.status)
  | _ => none

theorem restated?_of_plain {e : Signed} (h : e.body.plain = true) : e.restated? = none := by
  rw [Signed.restated?]
  cases hb : e.body <;> simp_all [Body.plain]

/-- A signed restatement and the verification that it is about. -/
structure Corrects (w : Broker) (target e : Signed) (r : Restatement) : Prop where
  verified : target.body.action = "task.verified"
  actor : e.event.actor = w.config.orchestrator
  taskId : e.event.taskId = target.event.taskId
  later : target.event.sequence < e.event.sequence
  sequence : r.targetSequence = target.event.sequence
  hash : r.targetHash = target.event.eventHash
  verifier : r.originalVerifier = target.event.actor
  reason : strip r.reason ≠ ""
  receipt : ∃ id t, target.event.taskId = some id ∧ target.body.task? = some t ∧
    receiptIsBound r.capabilityReceipt (restatementScope w.config.orchestrator id t) = true

/-! ## The writer -/

/-- After every restatement but the last one, the verification was disputed. -/
abbrev Monotone (n : ℕ) (ledger : List Signed) : Prop :=
  EventLog.Continues Signed.restated? (fun _ => True) (fun status _ => status = .disputed) n ledger

/-- What a ledger says about the trust in its verifications. -/
structure TrustLog (w : Broker) (ledger : List Signed) : Prop where
  opening : ∃ o, ledger.filter (·.body.action = "workspace.initialized") = [o] ∧
    o.body = .initialized w.config ∧ o.event.actor = w.config.orchestrator
  verified : ∀ e ∈ ledger, e.body.action = "task.verified" →
    (∃ id, e.event.taskId = some id ∧ id ≠ "") ∧ e.event.actor ≠ ""
  corrects : ∀ e ∈ ledger, ∀ r, e.body = .restated r → ∃ target ∈ ledger, Corrects w target e r
  monotone : ∀ n, Monotone n ledger

/-- A verification at work has an actor. -/
structure Trusted (w : Broker) (s : State) : Prop where
  log : TrustLog w s.ledger
  verifying : ∀ id run, s.verifying id = some run → run.actor ≠ ""

theorem Body.action_of_plain {b : Body} (h : b.plain = true) :
    b.action ≠ "workspace.initialized" ∧ b.action ≠ "task.verified" := by
  constructor
  · intro haction
    obtain ⟨config, rfl⟩ := action_eq_initialized haction
    simp [plain] at h
  · intro haction
    obtain ⟨v, t, rfl⟩ := action_eq_verified haction
    simp [plain] at h

section Log

variable {w : Broker} {ledger : List Signed} {e : Signed}

theorem TrustLog.opening_snoc (h : TrustLog w ledger)
    (he : e.body.action ≠ "workspace.initialized") :
    ∃ o, (ledger ++ [e]).filter (·.body.action = "workspace.initialized") = [o] ∧
      o.body = .initialized w.config ∧ o.event.actor = w.config.orchestrator := by
  obtain ⟨o, ho, hbody, hactor⟩ := h.opening
  exact ⟨o, by simp [List.filter_append, ho, he], hbody, hactor⟩

theorem TrustLog.corrects_snoc (h : TrustLog w ledger)
    (he : ∀ r, e.body = .restated r → ∃ target ∈ ledger, Corrects w target e r) :
    ∀ e' ∈ ledger ++ [e], ∀ r, e'.body = .restated r →
      ∃ target ∈ ledger ++ [e], Corrects w target e' r := by
  intro e' he' r hr
  have hold : ∃ target ∈ ledger, Corrects w target e' r := by
    rcases List.mem_append.mp he' with he' | he'
    · exact h.corrects e' he' r hr
    · obtain rfl := List.mem_singleton.mp he'
      exact he r hr
  obtain ⟨target, htarget, hcorrects⟩ := hold
  exact ⟨target, List.mem_append_left _ htarget, hcorrects⟩

theorem TrustLog.snoc_plain (h : TrustLog w ledger) (he : e.body.plain = true) :
    TrustLog w (ledger ++ [e]) := by
  obtain ⟨hinit, hverified⟩ := Body.action_of_plain he
  refine ⟨h.opening_snoc hinit, ?_, h.corrects_snoc ?_, ?_⟩
  · intro e' he' haction
    rcases List.mem_append.mp he' with he' | he'
    · exact h.verified e' he' haction
    · obtain rfl := List.mem_singleton.mp he'
      exact absurd haction hverified
  · intro r hr
    simp [hr, Body.plain] at he
  · intro n
    exact (h.monotone n).snoc_silent (EventLog.pick_of_none (restated?_of_plain he))

theorem TrustLog.snoc_verified (h : TrustLog w ledger) {v : Verification} {t : Task} {id : String}
    (hbody : e.body = .decided true v t) (hid : e.event.taskId = some id) (hne : id ≠ "")
    (hactor : e.event.actor ≠ "") : TrustLog w (ledger ++ [e]) := by
  refine ⟨h.opening_snoc (by simp [hbody, Body.action]), ?_, h.corrects_snoc (by simp [hbody]), ?_⟩
  · intro e' he' haction
    rcases List.mem_append.mp he' with he' | he'
    · exact h.verified e' he' haction
    · obtain rfl := List.mem_singleton.mp he'
      exact ⟨⟨id, hid, hne⟩, hactor⟩
  · intro n
    refine (h.monotone n).snoc_silent (EventLog.pick_of_none ?_)
    rw [Signed.restated?, hbody]

theorem TrustLog.snoc_restated (h : TrustLog w ledger) {target : Signed} {r : Restatement}
    (hbody : e.body = .restated r) (htarget : target ∈ ledger) (hcorrects : Corrects w target e r)
    (hopen : ∀ x, EventLog.latest Signed.restated? target.event.sequence ledger = some x →
      x = .disputed) : TrustLog w (ledger ++ [e]) := by
  have hrestated : e.restated? = some (target.event.sequence, r.status) := by
    rw [Signed.restated?, hbody, ← hcorrects.sequence]
  refine ⟨h.opening_snoc (by simp [hbody, Body.action]), ?_, h.corrects_snoc ?_, ?_⟩
  · intro e' he' haction
    rcases List.mem_append.mp he' with he' | he'
    · exact h.verified e' he' haction
    · obtain rfl := List.mem_singleton.mp he'
      simp [hbody, Body.action] at haction
  · intro r' hr'
    obtain rfl := Body.restated.inj (hbody.symm.trans hr')
    exact ⟨target, htarget, hcorrects⟩
  · intro n
    by_cases hn : target.event.sequence = n
    · subst hn
      have hpick := EventLog.pick_eq_some.mpr hrestated
      cases hlatest : EventLog.latest Signed.restated? target.event.sequence ledger with
      | none => exact EventLog.Continues.snoc_first hpick hlatest trivial
      | some x => exact (h.monotone _).snoc_next hpick hlatest (hopen x hlatest)
    · exact (h.monotone n).snoc_silent (EventLog.pick_of_ne hrestated hn)

end Log

/-- What the event of a call does to the trust. -/
inductive Trusts (w : Broker) (s : State) (c : Call) (e : Effect) : Prop
  | plain : (∀ entry ∈ e.entry, entry.body.plain = true) →
      (∀ p ∈ e.verifying, p.2.actor ≠ "") → Trusts w s c e
  | verified (id : String) (run : VerifyRun) (entry : Entry) (v : Verification) (t : Task) :
      s.verifying id = some run → e.entry = some entry → entry.body = .decided true v t →
      entry.actor = run.actor → entry.taskId = some id → e.verifying = none → Trusts w s c e
  | restated (actor id status reason : String) (n : Option ℤ) (entry : Entry) (target : Signed)
      (r : Restatement) : c.op = .restateVerification actor id status reason n →
      entry.taskId = some id → e.entry = some entry → target ∈ s.ledger →
      entry.body = .restated r →
      Corrects w target (sign w.signer s.ledger entry) r →
      (∀ previous, s.ledger.reverse.findSome? (restatementOf target.event) = some previous →
        previous.status ≠ .revoked) → e.verifying = none → Trusts w s c e

section Calls

variable {w : Broker} {s : State} {c : Call} {e : Effect}

theorem trusts_of_moved {id : String} {t u : Task} (hm : e.Moved id t u)
    (ht : t.state ≠ .submitted) : Trusts w s c e := by
  obtain ⟨entry, hentry, -, hmoves, -, -, hverifying⟩ := hm
  refine .plain ?_ (by simp [hverifying])
  intro entry' hentry'
  obtain rfl : entry = entry' := Option.some.inj (hentry.symm.trans hentry')
  exact hmoves.plain ht

theorem ne_empty_of_isAgentId {id : String} (h : isAgentId id = true) : id ≠ "" := by
  rintro rfl
  simp [isAgentId] at h

theorem verifyBegin_actor {actor taskId decision note : String}
    {evidence : Option (Except CogniError Manifest)} {candidates : List Token}
    (h : verifyBegin w s c actor taskId decision note evidence candidates = .ok e) :
    actor ≠ "" := by
  simp only [verifyBegin, State.getAgent, validateAgentId, bind_eq_ok, require_eq_ok] at h
  obtain ⟨_, -, _, -, evidence, -, agent, ⟨_, hvalid, -⟩, -⟩ := h
  exact ne_empty_of_isAgentId hvalid

/-- The restatement that a call signs corrects a verification of the ledger. -/
theorem trusts_of_restate (hs : Inv w s) {actor taskId status reason : String} {n : Option ℤ}
    (hop : c.op = .restateVerification actor taskId status reason n)
    (h : restateVerification w s c actor taskId status reason n = .ok e) : Trusts w s c e := by
  obtain ⟨rfl, -, hverifying, -, hnone | ⟨target, hmem, r, hentry, hsequence, hhash, hverifier,
    hreason, ⟨t, ht, hreceipt⟩, hopen⟩⟩ := restateVerification_eq_ok h
  · exact .plain (by simp [hnone]) (by simp [hverifying])
  · rw [verifiedEvents, List.mem_filter, decide_eq_true_eq] at hmem
    obtain ⟨hmem, haction, htask⟩ := hmem
    refine .restated _ _ _ _ _ _ target r hop rfl hentry hmem rfl ?_ hopen hverifying
    exact {
      verified := target.action_eq.symm.trans haction
      actor := rfl
      taskId := htask.symm
      later := hs.sequence_lt hmem _
      sequence := hsequence
      hash := hhash
      verifier := hverifier
      reason := hreason
      receipt := ⟨taskId, t, htask, ht, hreceipt⟩ }

/-- The end of a verification is plain unless it accepts. -/
theorem trusts_of_verifyEnd {taskId : String} {runner : Except CogniError RunnerResult}
    {attestation : Except CogniError (List (String × Json))} {archive : Except CogniError Json}
    (h : verifyEnd s c taskId runner attestation archive = .ok e) : Trusts w s c e := by
  obtain ⟨run, hrun, ⟨stage, error, hfail⟩ | ⟨v, hash, u, -, -, -, -, -, -, -, -, rfl⟩⟩ :=
    verifyEnd_eq_ok h
  · obtain ⟨-, -, hverifying, -, hnone | ⟨start, -, -, hentry⟩⟩ :=
      recordVerificationFailure_eq_ok hfail
    · exact .plain (by simp [hnone]) (by simp [hverifying])
    · exact .plain (by simp [hentry, Body.plain]) (by simp [hverifying])
  · cases haccept : run.accept with
    | true => exact .verified taskId run _ v u hrun rfl rfl rfl rfl rfl
    | false => exact .plain (by simp [Body.plain]) (by simp)

/-- **What the event of a call does to the trust.** -/
theorem trusts_of_effect (hs : Inv w s) (h : effect w s c = .ok e) : Trusts w s c e := by
  have h := (checkedEffect_of_effect h).1
  rw [checkedEffect] at h
  have hleased : ∀ {t : Task}, t.state.leased = true → t.state ≠ .submitted := by
    intro t ht hstate
    simp [hstate, TaskState.leased] at ht
  cases hop : c.op with
  | addAgent actor a =>
    simp only [hop] at h
    obtain ⟨agent, rfl⟩ := addAgent_eq_ok h
    exact .plain (by simp [Body.plain]) (by simp)
  | addTask actor a =>
    simp only [hop] at h
    obtain ⟨t, -, -, rfl⟩ := addTask_eq_ok h
    exact .plain (by simp [Body.plain]) (by simp)
  | claim actor taskId seconds token session =>
    simp only [hop] at h
    obtain ⟨id, t, u, -, hm, hstate, -⟩ := claim_moved hs.keyed h
    exact trusts_of_moved hm (by simp [hstate])
  | recoverLease actor taskId reason force =>
    simp only [hop] at h
    obtain ⟨t, u, -, hm, hstate, -⟩ := recoverLease_moved h
    exact trusts_of_moved hm (hleased hstate)
  | start actor taskId token =>
    simp only [hop] at h
    obtain ⟨t, u, -, hm, hstate⟩ := start_moved h
    exact trusts_of_moved hm (by simp [hstate])
  | heartbeat actor taskId token =>
    simp only [hop] at h
    obtain ⟨t, u, -, hm, hstate⟩ := heartbeat_moved h
    exact trusts_of_moved hm (hleased hstate)
  | block actor taskId token reason =>
    simp only [hop] at h
    obtain ⟨t, u, -, hm, hstate⟩ := block_moved h
    exact trusts_of_moved hm (hleased hstate)
  | submit actor taskId token validated bundle =>
    simp only [hop] at h
    obtain ⟨t, u, -, hm, hstate⟩ := submit_moved h fun t ht => hs.lease_eq_none ht
    exact trusts_of_moved hm (by simp [hstate])
  | verifyBegin actor taskId decision note evidence candidates =>
    simp only [hop] at h
    have hactor := verifyBegin_actor h
    obtain ⟨run, -, -, rfl, -, -, -, rfl⟩ := verifyBegin_eq_ok h
    exact .plain (by simp [Body.plain]) (by simpa using hactor)
  | verifyEnd taskId runner attestation archive =>
    simp only [hop] at h
    exact trusts_of_verifyEnd h
  | verifyCrash taskId => simp [hop] at h
  | reconcileVerification actor taskId runId =>
    simp only [hop] at h
    obtain ⟨-, -, -, hverifying, -, -, token, start, terminals, attempt, receipt, -, -, -, -,
      hentry⟩ := reconcileVerification_eq_ok h
    refine .plain ?_ (by simp [hverifying])
    intro entry hmem
    cases terminals with
    | nil =>
      obtain rfl := Option.some.inj ((Except.ok.inj hentry).trans hmem)
      rfl
    | cons terminal rest =>
      rw [reconcileEntry] at hentry
      split at hentry
      · simp [← Except.ok.inj hentry] at hmem
      · simp at hentry
  | restateVerification actor taskId status reason n =>
    simp only [hop] at h
    exact trusts_of_restate hs hop h

/-! ## The writer along a run -/

/-- Two events of one number are the same. -/
theorem Inv.eq_of_sequence (hs : Inv w s) {a b : Signed} (ha : a ∈ s.ledger) (hb : b ∈ s.ledger)
    (h : a.event.sequence = b.event.sequence) : a = b := by
  obtain ⟨i, hi, rfl⟩ := List.mem_iff_getElem.mp ha
  obtain ⟨j, hj, rfl⟩ := List.mem_iff_getElem.mp hb
  have hsequence := fun k (hk : k < s.ledger.length) =>
    hs.chain.sequence k (by rwa [List.length_map])
  simp only [List.getElem_map] at hsequence
  rw [hsequence i hi, hsequence j hj] at h
  obtain rfl : i = j := by omega
  rfl

/-- The number of a verification determines its hash, so that it is enough to compare one. -/
theorem Trusted.pick_restated (hs : Inv w s) (ht : Trusted w s) {target e : Signed}
    (htarget : target ∈ s.ledger) (he : e ∈ s.ledger) :
    EventLog.pick Signed.restated? target.event.sequence e =
      (restatementOf target.event e).map (·.status) := by
  cases hbody : e.body with
  | restated r =>
    obtain ⟨target', htarget', hcorrects⟩ := ht.log.corrects e he r hbody
    have hrestated : e.restated? = some (r.targetSequence, r.status) := by
      rw [Signed.restated?, hbody]
    by_cases hn : r.targetSequence = target.event.sequence
    · have hsame := hs.eq_of_sequence htarget' htarget (hcorrects.sequence.symm.trans hn)
      have hhash : r.targetHash = target.event.eventHash := by rw [hcorrects.hash, hsame]
      rw [EventLog.pick, hrestated, restatementOf, hbody]
      simp [hn, hhash]
    · rw [EventLog.pick_of_ne hrestated hn, restatementOf, hbody]
      simp [hn]
  | _ => simp [EventLog.pick, Signed.restated?, restatementOf, hbody]

/-- What the writer looks for before it signs is the last restatement of the number. -/
theorem Trusted.latest_status (hs : Inv w s) (ht : Trusted w s) {target : Signed}
    (htarget : target ∈ s.ledger) :
    EventLog.latest Signed.restated? target.event.sequence s.ledger =
      (s.ledger.reverse.findSome? (restatementOf target.event)).map (·.status) := by
  rw [EventLog.latest, EventLog.history, ← List.head?_reverse, ← List.filterMap_reverse,
    ← List.head?_filterMap, ← List.head?_map, List.map_filterMap]
  congr 1
  apply List.filterMap_congr
  intro e he
  exact ht.pick_restated hs htarget (List.mem_reverse.mp he)

theorem Trusted.log_apply (hs : Inv w s) (ht : Trusted w s) (h : Trusts w s c e)
    (fault : Fault) :
    TrustLog w (s.apply w e fault).ledger := by
  rcases apply_ledger w s e fault with hledger | ⟨entry, hentry, hledger⟩
  · rw [hledger]
    exact ht.log
  · rw [hledger]
    cases h with
    | plain hplain _ => exact ht.log.snoc_plain (hplain entry hentry)
    | verified id run entry' v t hrun hentry' hbody hactor hid _ =>
      obtain rfl := Option.some.inj (hentry'.symm.trans hentry)
      obtain ⟨hfile, -⟩ := hs.verifying id run hrun
      have hne := ne_empty_of_isTaskId (hs.file id run.task hfile).valid
      have hactor' : entry'.actor ≠ "" := by
        rw [hactor]
        exact ht.verifying id run hrun
      exact ht.log.snoc_verified hbody hid hne hactor'
    | restated _ _ _ _ _ entry' target r _ _ hentry' htarget hbody hcorrects hopen _ =>
      obtain rfl := Option.some.inj (hentry'.symm.trans hentry)
      refine ht.log.snoc_restated hbody htarget hcorrects ?_
      intro x hx
      rw [ht.latest_status hs htarget, Option.map_eq_some_iff] at hx
      obtain ⟨previous, hprevious, rfl⟩ := hx
      have hne := hopen previous hprevious
      cases hstatus : previous.status with
      | disputed => rfl
      | revoked => exact absurd hstatus hne

theorem Trusted.apply (hs : Inv w s) (ht : Trusted w s) (h : Trusts w s c e) :
    Trusted w ((s.apply w e c.fault).unlock c.op) := by
  constructor
  · rw [unlock_ledger]
    exact ht.log_apply hs h c.fault
  · intro id run hrun
    have hlock := verifying_of_unlock hrun
    rcases apply_verifying w s e c.fault with heq | ⟨id', run', hrun', heq⟩
    · rw [heq] at hlock
      exact ht.verifying id run hlock
    · rw [heq] at hlock
      by_cases hid : id = id'
      · subst hid
        obtain rfl : run' = run := by simpa using hlock
        cases h with
        | plain _ hactor => exact hactor (id, run') hrun'
        | verified _ _ _ _ _ _ _ _ _ _ hnone => simp [hnone] at hrun'
        | restated _ _ _ _ _ _ _ _ _ _ _ _ _ _ _ hnone => simp [hnone] at hrun'
      · exact ht.verifying id run (by simpa [hid] using hlock)

theorem Trusted.unlock (ht : Trusted w s) (op : Op) : Trusted w (s.unlock op) := by
  constructor
  · rw [unlock_ledger]
    exact ht.log
  · intro id run hrun
    exact ht.verifying id run (verifying_of_unlock hrun)

theorem Trusted.step (hs : Inv w s) (ht : Trusted w s) (c : Call) : Trusted w (step w s c) := by
  rcases step_cases hs c with h | ⟨e, he, -, h⟩
  · rw [h]
    exact ht.unlock c.op
  · rw [h]
    exact ht.apply hs (trusts_of_effect hs he)

theorem Fresh.trusted (h : Fresh w s) : Trusted w s := by
  obtain ⟨agents, hbodies⟩ := h.bodies
  cases hledger : s.ledger with
  | nil => simp [hledger] at hbodies
  | cons o rest =>
    rw [hledger, List.map_cons, List.cons.injEq] at hbodies
    obtain ⟨ho, hrest⟩ := hbodies
    have hadded : ∀ e ∈ rest, ∃ agent, e.body = .agentAdded agent := by
      intro e he
      have hmem : e.body ∈ rest.map Signed.body := List.mem_map_of_mem he
      rw [hrest, List.mem_map] at hmem
      obtain ⟨agent, -, hagent⟩ := hmem
      exact ⟨agent, hagent.symm⟩
    -- The rest of the opening is plain, so that it is enough to look at the first event.
    have hfirst : TrustLog w [o] := by
      refine ⟨⟨o, by simp [ho, Body.action], ho, h.actors o (by simp [hledger])⟩, ?_, ?_, ?_⟩
      · simp [ho, Body.action]
      · simp [ho]
      · intro n
        have hnone : EventLog.pick Signed.restated? n o = none :=
          EventLog.pick_of_none (by rw [Signed.restated?, ho])
        exact EventLog.continues_nil.snoc_silent hnone
    have hall : ∀ rest : List Signed, (∀ e ∈ rest, ∃ agent, e.body = .agentAdded agent) →
        TrustLog w (o :: rest) := by
      intro rest
      induction rest using List.reverseRecOn with
      | nil => exact fun _ => hfirst
      | append_singleton rest e ih =>
        intro hadded
        obtain ⟨agent, hagent⟩ := hadded e (by simp)
        rw [← List.cons_append]
        refine (ih fun e he => hadded e (by simp [he])).snoc_plain ?_
        rw [hagent]
        rfl
    refine ⟨by rw [hledger]; exact hall rest hadded, ?_⟩
    simp [h.verifying]

/-- **The trust after every run of calls.** -/
theorem RunsTo.trusted {cs : List Call} (h : RunsTo w cs s) : Trusted w s := by
  obtain ⟨now, principal, family, preset, start, hstart, hrun⟩ := h
  have hfresh := fresh_of_initialized hstart
  have hboth : Inv w s ∧ Trusted w s := by
    apply hrun.invariant (I := fun s => Inv w s ∧ Trusted w s) _ ⟨hfresh.inv, hfresh.trusted⟩
    rintro s c t ⟨hs, ht⟩ rfl
    exact ⟨hs.step c, ht.step hs c⟩
  exact hboth.2

end Calls

end Workspace
