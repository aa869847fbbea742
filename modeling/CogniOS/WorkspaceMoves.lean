/-
# What the operations do to a task

`Moves` is the abstract task machine: the body of a task event, and the snapshot that it
signs, from the task before it.  The operations of `WorkspaceOps` refine it: `effect_cases`
says everything that a call which passes its checks can do.
-/
import CogniOS.WorkspaceOps

open Independence VerificationLifecycle

namespace Workspace

/-! ## The task machine -/

/-- The moves of a task and the events that sign them. -/
inductive Moves (t : Task) : Body → Task → Prop
  | claimed (now : Utc) (l : Lease) : t.state = .pending → l.holder = t.owner →
      Moves t (.claimed { t with
          state := .claimed, revision := t.revision + 1, updatedAt := now
          attempt := t.attempt + 1, lease := some l })
        { t with
          state := .claimed, revision := t.revision + 1, updatedAt := now
          attempt := t.attempt + 1, lease := some l }
  | started (now : Utc) : t.state = .claimed →
      Moves t (.started { t with
          state := .running, revision := t.revision + 1, updatedAt := now })
        { t with state := .running, revision := t.revision + 1, updatedAt := now }
  | heartbeat (now expiresAt : Utc) (l : Lease) : t.state.leased = true → t.lease = some l →
      Moves t (.heartbeat { t with
          lease := some { l with expiresAt := expiresAt }, updatedAt := now })
        { t with lease := some { l with expiresAt := expiresAt }, updatedAt := now }
  | blocked (now : Utc) (reason : String) : t.state.leased = true →
      Moves t (.blocked { t with
          state := .blocked, revision := t.revision + 1, updatedAt := now
          lease := none, blockedReason := some reason } reason)
        { t with
          state := .blocked, revision := t.revision + 1, updatedAt := now
          lease := none, blockedReason := some reason }
  | submitted (now : Utc) (result : Submission) (identity : Option Snapshot) (bundle : Json) :
      t.state = .running →
      Moves t (.submitted { t with
          state := .submitted, revision := t.revision + 1, updatedAt := now
          lease := none, result := some result } identity bundle)
        { t with
          state := .submitted, revision := t.revision + 1, updatedAt := now
          lease := none, result := some result }
  | recovered (now : Utc) (r : Recovery) : t.state.leased = true →
      Moves t (.recovered r { t with
          state := .pending, revision := t.revision + 2, updatedAt := now
          lease := none, blockedReason := none })
        { t with
          state := .pending, revision := t.revision + 2, updatedAt := now
          lease := none, blockedReason := none }
  | decided (now : Utc) (accepted : Bool) (v : Verification) : t.state = .submitted →
      Moves t (.decided accepted v { t with
          state := if accepted then .verified else .rejected, revision := t.revision + 1
          updatedAt := now, verification := some v })
        { t with
          state := if accepted then .verified else .rejected, revision := t.revision + 1
          updatedAt := now, verification := some v }

/-- The event signs the snapshot that the task moves to. -/
theorem Moves.task? {t u : Task} {b : Body} (h : Moves t b u) : b.task? = some u := by
  cases h <;> rfl

/-- The fields that no move touches. -/
structure SameTask (t u : Task) : Prop where
  id : u.id = t.id
  owner : u.owner = t.owner
  prerequisites : u.prerequisites = t.prerequisites
  permissions : u.permissions = t.permissions
  gates : u.gates = t.gates
  createdAt : u.createdAt = t.createdAt

theorem Moves.sameTask {t u : Task} {b : Body} (h : Moves t b u) : SameTask t u := by
  cases h <;> exact ⟨rfl, rfl, rfl, rfl, rfl, rfl⟩

/-- An effect that signs a move of a task and then replaces its file. -/
def Effect.Moved (e : Effect) (id : String) (t u : Task) : Prop :=
  ∃ entry : Entry, e.entry = some entry ∧ entry.taskId = some id ∧ Moves t entry.body u ∧
    e.file = some (id, u) ∧ e.agent = none ∧ e.verifying = none

/-- The file of a task that no verification is at work on. -/
def State.Reads (s : State) (id : String) (t : Task) : Prop :=
  s.verifying id = none ∧ s.files.lookup id = some t

/-! ## Reading -/

theorem lockTask_eq_ok {s : State} {id : String} {u : Unit} (h : s.lockTask id = .ok u) :
    s.verifying id = none := by
  simp only [State.lockTask, bind_eq_ok, require_eq_ok] at h
  obtain ⟨-, -, h⟩ := h
  exact Option.isNone_iff_eq_none.mp h

theorem getTask_eq_ok {s : State} {id : String} {t : Task} (h : s.getTask id = .ok t) :
    s.files.lookup id = some t := by
  simp only [State.getTask, bind_eq_ok, orRaise_eq_ok] at h
  obtain ⟨-, -, h⟩ := h
  exact h

theorem readVerified_eq_ok {s : State} {ledger : List Signed} (h : s.readVerified = .ok ledger) :
    ledger = s.ledger ∧ s.Readable := by
  rw [State.readVerified, require_bind_eq_ok] at h
  exact ⟨(Except.ok.inj h.2).symm, h.1⟩

theorem forM_eq_ok {α : Type} {f : α → Except CogniError Unit} {xs : List α} {u : Unit}
    (h : xs.forM f = .ok u) : ∀ x ∈ xs, f x = .ok () := forM_eq_ok_iff.mp h

theorem Signed.snapshot?_eq_some {e : Signed} {id : String} {t : Task} :
    e.snapshot? = some (id, t) ↔ e.event.taskId = some id ∧ e.body.task? = some t := by
  rw [Signed.snapshot?]
  cases e.event.taskId <;> cases e.body.task? <;> simp

/-- The snapshot that `recover_lease` and `_signed_task_projection` read is the latest one. -/
theorem lastSnapshotEvent_task (id : String) (ledger : List Signed) :
    (lastSnapshotEvent id ledger).bind (·.body.task?) =
      EventLog.latest Signed.snapshot? id ledger := by
  rw [EventLog.latest_eq_find, lastSnapshotEvent]
  cases hfind : ledger.reverse.find? fun e => (EventLog.pick Signed.snapshot? id e).isSome with
  | none => rfl
  | some e =>
    have hsome := List.find?_some hfind
    obtain ⟨t, ht⟩ := Option.isSome_iff_exists.mp hsome
    rw [Option.bind_some, Option.bind_some, ht]
    exact (Signed.snapshot?_eq_some.mp (EventLog.pick_eq_some.mp ht)).2

/-- Every task file is named after its task. -/
def State.Keyed (s : State) : Prop := ∀ id t, s.files.lookup id = some t → t.id = id

theorem mem_listTasks {s : State} {t : Task} (h : t ∈ s.listTasks) :
    ∃ id, s.files.lookup id = some t := by
  obtain ⟨entry, hentry, rfl⟩ := List.mem_map.mp h
  refine ⟨entry.1, ?_⟩
  exact AList.mem_lookup_iff.mpr (List.mem_mergeSort.mp hentry)

section Operations

variable {w : Broker} {s : State} {c : Call} {e : Effect}

/-! ## Leases -/

theorem claimTask_moved {actor id : String} {t : Task} {duration : ℤ} {token session : Token}
    (hstate : t.state = .pending) (howner : t.owner = actor)
    (h : claimTask w c actor id t duration token session = .ok e) :
    ∃ u, e.Moved id t u ∧ u.state = .claimed := by
  simp only [claimTask, bind_eq_ok] at h
  obtain ⟨expiresAt, -, u, hu, h⟩ := h
  obtain ⟨-, rfl⟩ := transition_eq_ok hu
  obtain rfl := Except.ok.inj h
  refine ⟨_, ⟨_, rfl, rfl, ?_, rfl, rfl, rfl⟩, rfl⟩
  exact .claimed (c.clock 1) _ hstate howner.symm

/-- A claim takes one of the candidates, whose file is pending and satisfied. -/
theorem claimFrom_eq_ok {actor : String} {specific : Bool} {duration : ℤ} {token session : Token}
    {candidates : List Task}
    (h : claimFrom w s c actor specific duration token session candidates = .ok e) :
    ∃ t ∈ candidates, t.owner = actor ∧ ∃ current, s.Reads t.id current ∧
      current.state = .pending ∧ s.unsatisfiedPrerequisites current = [] ∧
      claimTask w c actor t.id current duration token session = .ok e := by
  induction candidates with
  | nil => simp [claimFrom] at h
  | cons t rest ih =>
    have hrest : ∀ h : claimFrom w s c actor specific duration token session rest = .ok e,
        ∃ t' ∈ t :: rest, t'.owner = actor ∧ ∃ current, s.Reads t'.id current ∧
          current.state = .pending ∧ s.unsatisfiedPrerequisites current = [] ∧
          claimTask w c actor t'.id current duration token session = .ok e := by
      intro h
      obtain ⟨t', ht', hfound⟩ := ih h
      exact ⟨t', List.mem_cons_of_mem _ ht', hfound⟩
    rw [claimFrom] at h
    split at h
    case isTrue => exact hrest h
    case isFalse hskip =>
      simp only [bind_eq_ok] at h
      obtain ⟨_, hlock, current, hcurrent, h⟩ := h
      split at h
      · exact hrest h
      split at h
      · rename_i hpending hsatisfied
        refine ⟨t, List.mem_cons_self, by tauto, current, ?_, not_not.mp hpending, hsatisfied, h⟩
        exact ⟨lockTask_eq_ok hlock, getTask_eq_ok hcurrent⟩
      · split at h
        · simp at h
        · exact hrest h

/-- **`claim`** moves a pending task of the actor whose prerequisites are satisfied. -/
theorem claim_moved (hs : s.Keyed) {actor taskId : String} {seconds : ℤ} {token session : Token}
    (h : claim w s c actor taskId seconds token session = .ok e) :
    ∃ id t u, s.Reads id t ∧ e.Moved id t u ∧ t.state = .pending ∧ u.state = .claimed ∧
      t.owner = actor ∧ s.unsatisfiedPrerequisites t = [] ∧ (taskId ≠ "" → id = taskId) := by
  simp only [claim, bind_eq_ok] at h
  obtain ⟨_, -, h⟩ := h
  have hfrom : ∃ candidates : List Task, ∃ specific duration,
      (∀ t ∈ candidates, ∃ id, s.files.lookup id = some t ∧ (taskId ≠ "" → id = taskId)) ∧
      claimFrom w s c actor specific duration token session candidates = .ok e := by
    split at h
    case isTrue =>
      obtain ⟨t, ht, h⟩ := bind_eq_ok.mp h
      refine ⟨[t], _, _, ?_, h⟩
      intro t' ht'
      obtain rfl := List.mem_singleton.mp ht'
      exact ⟨taskId, getTask_eq_ok ht, fun _ => rfl⟩
    case isFalse hany =>
      refine ⟨_, _, _, ?_, h⟩
      intro t ht
      obtain ⟨id, hid⟩ := mem_listTasks ht
      exact ⟨id, hid, fun hne => absurd hne hany⟩
  obtain ⟨candidates, specific, duration, hfiles, h⟩ := hfrom
  obtain ⟨t, ht, howner, current, hreads, hpending, hsatisfied, h⟩ := claimFrom_eq_ok h
  obtain ⟨id, hid, hname⟩ := hfiles t ht
  -- The file is named after the candidate, so that the candidate is what is read again.
  obtain rfl := hs id t hid
  obtain rfl : t = current := Option.some.inj (hid.symm.trans hreads.2)
  obtain ⟨u, hmoved, hu⟩ := claimTask_moved hpending howner h
  exact ⟨t.id, t, u, hreads, hmoved, hpending, hu, howner, hsatisfied, hname⟩

theorem leasedTask_eq_ok {actor taskId token : String} {t : Task}
    (h : leasedTask w s c actor taskId token = .ok t) :
    s.Reads taskId t ∧ checkLease w t actor token (c.clock 0) = .ok () := by
  simp only [leasedTask, bind_eq_ok] at h
  obtain ⟨_, hlock, t', ht', _, hlease, h⟩ := h
  obtain rfl := Except.ok.inj h
  exact ⟨⟨lockTask_eq_ok hlock, getTask_eq_ok ht'⟩, hlease⟩

theorem start_moved {actor taskId token : String} (h : start w s c actor taskId token = .ok e) :
    ∃ t u, s.Reads taskId t ∧ e.Moved taskId t u ∧ t.state = .claimed := by
  simp only [start, bind_eq_ok] at h
  obtain ⟨t, ht, u, hu, h⟩ := h
  obtain ⟨hmem, rfl⟩ := transition_eq_ok hu
  obtain rfl := Except.ok.inj h
  have hstate : t.state = .claimed := by
    revert hmem
    cases t.state <;> decide
  refine ⟨t, _, (leasedTask_eq_ok ht).1, ⟨_, rfl, rfl, ?_, rfl, rfl, rfl⟩, hstate⟩
  exact .started (c.clock 1) hstate

theorem heartbeat_moved {actor taskId token : String}
    (h : heartbeat w s c actor taskId token = .ok e) :
    ∃ t u, s.Reads taskId t ∧ e.Moved taskId t u ∧ t.state.leased = true := by
  simp only [heartbeat, bind_eq_ok, require_eq_ok, orRaise_eq_ok] at h
  obtain ⟨t, ht, _, hstate, l, hl, expiresAt, -, h⟩ := h
  obtain rfl := Except.ok.inj h
  refine ⟨t, _, (leasedTask_eq_ok ht).1, ⟨_, rfl, rfl, ?_, rfl, rfl, rfl⟩, hstate⟩
  exact .heartbeat (c.clock 2) expiresAt l hstate hl

theorem block_moved {actor taskId token reason : String}
    (h : block w s c actor taskId token reason = .ok e) :
    ∃ t u, s.Reads taskId t ∧ e.Moved taskId t u ∧ t.state.leased = true := by
  simp only [block, bind_eq_ok] at h
  obtain ⟨t, ht, u, hu, h⟩ := h
  obtain ⟨hmem, rfl⟩ := transition_eq_ok hu
  obtain rfl := Except.ok.inj h
  have hstate : t.state.leased = true := by
    revert hmem
    cases t.state <;> decide
  refine ⟨t, _, (leasedTask_eq_ok ht).1, ⟨_, rfl, rfl, ?_, rfl, rfl, rfl⟩, hstate⟩
  exact .blocked (c.clock 1) _ hstate

/-- A task with a lease that may be submitted is running: a pending one has no lease. -/
theorem submit_moved {actor taskId token : String}
    {validated : Except CogniError (Json × Manifest)} {bundle : Except CogniError Json}
    (h : submit w s c actor taskId token validated bundle = .ok e)
    (hlease : ∀ t, s.files.lookup taskId = some t → t.state = .pending → t.lease = none) :
    ∃ t u, s.Reads taskId t ∧ e.Moved taskId t u ∧ t.state = .running := by
  simp only [submit, bind_eq_ok] at h
  obtain ⟨t, ht, ⟨report, manifest⟩, -, agent, -, identity, -, u, hu, bundle, -, h⟩ := h
  obtain ⟨hmem, rfl⟩ := transition_eq_ok hu
  obtain rfl := Except.ok.inj h
  obtain ⟨hreads, hcheck⟩ := leasedTask_eq_ok ht
  have hstate : t.state = .running := by
    have hcases : t.state = .pending ∨ t.state = .running := by
      revert hmem
      cases t.state <;> decide
    rcases hcases with hpending | hrunning
    · rw [checkLease, hlease t hreads.2 hpending] at hcheck
      simp [orRaise, bind, Except.bind] at hcheck
    · exact hrunning
  refine ⟨t, _, hreads, ⟨_, rfl, rfl, ?_, rfl, rfl, rfl⟩, hstate⟩
  exact .submitted (c.clock 2) _ _ _ hstate

/-- **`recover_lease`** finds the file equal to the last signed snapshot and requeues it. -/
theorem recoverLease_moved {actor taskId reason : String} {force : Bool}
    (h : recoverLease w s c actor taskId reason force = .ok e) :
    ∃ t u, s.Reads taskId t ∧ e.Moved taskId t u ∧ t.state.leased = true ∧
      s.latest taskId = some t := by
  simp only [recoverLease, bind_eq_ok, require_eq_ok, orRaise_eq_ok] at h
  obtain ⟨_, -, _, -, _, -, _, -, _, hlock, t, ht, ledger, hledger, _, hsame, _, hstate, l, -,
    _, -, _, -, source, hsource, _, -, _, -, _, -, _, -, receipt, -, blocked, hblocked, u, hu,
    _, -, h⟩ := h
  obtain ⟨-, rfl⟩ := transition_eq_ok hblocked
  obtain ⟨-, rfl⟩ := transition_eq_ok hu
  obtain rfl := Except.ok.inj h
  obtain ⟨rfl, -⟩ := readVerified_eq_ok hledger
  refine ⟨t, _, ⟨lockTask_eq_ok hlock, getTask_eq_ok ht⟩, ⟨_, rfl, rfl, ?_, rfl, rfl, rfl⟩,
    hstate, ?_⟩
  · exact .recovered (c.clock 2) _ hstate
  · rw [State.latest, ← lastSnapshotEvent_task]
    exact hsame

/-! ## Verification -/

theorem verifyBegin_eq_ok {actor taskId decision note : String}
    {evidence : Option (Except CogniError Manifest)} {candidates : List Token}
    (h : verifyBegin w s c actor taskId decision note evidence candidates = .ok e) :
    ∃ run : VerifyRun, s.Reads taskId run.task ∧ run.task.state = .submitted ∧
      run.actor = actor ∧ run.accept = decide (run.decision = "accept") ∧
      .str run.runId.text ∉ usedRunIds s.ledger ∧
      c.authority.authorize ⟨.str actor, "task.verify", .str taskId, .str run.runId.text,
        .int run.task.attempt⟩ = .ok run.capabilityReceipt ∧
      e = {
        entry := some ⟨c.clock 0, actor, some taskId, .verificationStarted {
          runId := run.runId
          taskAttempt := run.task.attempt
          manifestSha256 := run.manifest.sha256
          workerManifestSha256 := run.workerManifestSha256
          verifierIdentity := run.verifierIdentity
          contractInputsSha256 := run.contractInputsSha256
          capabilityReceipt := run.capabilityReceipt }⟩
        verifying := some (taskId, run) } := by
  simp only [verifyBegin, authorize, bind_eq_ok, require_eq_ok, orRaise_eq_ok] at h
  obtain ⟨_, -, _, -, evidence, -, agent, -, _, -, _, hlock, t, ht, _, hstate, identity?, -,
    ledger, hledger, independence, -, _, -, identity, -, manifest, -, result, -, _, -, runId,
    hrunId, receipt, ⟨_, -, hreceipt⟩, h⟩ := h
  obtain rfl := Except.ok.inj h
  obtain ⟨rfl, -⟩ := readVerified_eq_ok hledger
  have hfresh : .str runId.text ∉ usedRunIds s.ledger := by
    simpa using List.find?_some hrunId
  exact ⟨⟨actor, t, _, decision, _, identity, independence, manifest, _, runId, receipt, _⟩,
    ⟨lockTask_eq_ok hlock, getTask_eq_ok ht⟩, hstate, rfl, rfl, hfresh, hreceipt, rfl⟩

/-- A failure record copies the started event of its run. -/
theorem recordVerificationFailure_eq_ok {taskId : String} {run : VerifyRun}
    {stage : FailureStage} {error : CogniError}
    (h : recordVerificationFailure s c taskId run stage error = .ok e) :
    e.file = none ∧ e.agent = none ∧ e.verifying = none ∧ e.raised = some error ∧
      (e.entry = none ∨ ∃ start,
        findVerificationRun s.events taskId run.runId.text = .ok (some start, []) ∧
        (payloadOf start).get "task_attempt" = .int run.task.attempt ∧
        e.entry = some ⟨c.clock 0, run.actor, some taskId, .verificationFailed {
          runId := run.runId
          taskAttempt := run.task.attempt
          stage := stage
          errorType := verificationErrorType error
          start := start
          contractInputsSha256 := run.contractInputsSha256
          capabilityReceipt := run.capabilityReceipt }⟩) := by
  simp only [recordVerificationFailure, bind_eq_ok, require_eq_ok, orRaise_eq_ok] at h
  obtain ⟨_, -, ⟨started, terminals⟩, hfind, start, hstart, _, hattempt, _, -, h⟩ := h
  obtain rfl : started = some start := hstart
  cases terminals with
  | cons terminal rest =>
    simp only at h
    split at h
    · obtain rfl := Except.ok.inj h
      exact ⟨rfl, rfl, rfl, rfl, .inl rfl⟩
    · simp at h
  | nil =>
    obtain rfl := Except.ok.inj h
    refine ⟨rfl, rfl, rfl, rfl, .inr ⟨start, ?_, hattempt, rfl⟩⟩
    rw [findRun] at hfind
    split at hfind
    · rename_i found hfound
      rw [hfound, Except.ok.inj hfind]
    · simp at hfind

/-- The result of the runner has a contract hash where its schema is complete. -/
theorem attestedResult_eq_ok {result : RunnerResult}
    {attestation : Except CogniError (List (String × Json))} {a : List (String × Json)}
    (h : attestedResult result attestation = .ok a) :
    ∃ hash : Sha256Hex,
      result.fields.lookup "validation_contract_sha256" = some (.str hash.text) := by
  rw [attestedResult, require_bind_eq_ok] at h
  have hkey : "validation_contract_sha256" ∈ result.fields.map (·.1) := by
    have hall := List.all_eq_true.mp h.1.2 "validation_contract_sha256"
      (by simp [trustedReceiptResultKeys])
    simpa using hall
  have hsome : (result.fields.lookup "validation_contract_sha256").isSome = true := by
    obtain ⟨p, hp, hkey⟩ := List.mem_map.mp hkey
    rw [List.lookup_isSome_iff]
    exact ⟨p, hp, by simp [hkey]⟩
  obtain ⟨v, hv⟩ := Option.isSome_iff_exists.mp hsome
  obtain ⟨hash, rfl⟩ := result.contract v hv
  exact ⟨hash, hv⟩

/-- **`verify`** ends with a decision, or with the failure record of a stage. -/
theorem verifyEnd_eq_ok {taskId : String} {runner : Except CogniError RunnerResult}
    {attestation : Except CogniError (List (String × Json))} {archive : Except CogniError Json}
    (h : verifyEnd s c taskId runner attestation archive = .ok e) :
    ∃ run, s.verifying taskId = some run ∧
      ((∃ stage error, recordVerificationFailure s c taskId run stage error = .ok e) ∨
        ∃ (v : Verification) (hash : Sha256Hex) (u : Task),
          v.runId = run.runId ∧ v.verifierIdentity = run.verifierIdentity ∧
          v.manifestSha256 = run.manifest.sha256 ∧
          v.workerManifestSha256 = run.workerManifestSha256 ∧
          v.contractInputsSha256 = run.contractInputsSha256 ∧
          v.capabilityReceipt = run.capabilityReceipt ∧
          v.trustedValidation.lookup "validation_contract_sha256" = some (.str hash.text) ∧
          transition (c.clock 1) run.task (if run.accept then .verified else .rejected)
            (fun t => { t with verification := some v }) = .ok u ∧
          e = {
            entry := some ⟨c.clock 2, run.actor, some taskId, .decided run.accept v u⟩
            file := some (taskId, u) }) := by
  simp only [verifyEnd, bind_eq_ok, orRaise_eq_ok] at h
  obtain ⟨run, hrun, h⟩ := h
  refine ⟨run, hrun, ?_⟩
  split at h
  · exact .inl ⟨_, _, h⟩
  rename_i result
  split at h
  · exact .inl ⟨_, _, h⟩
  rename_i hattested
  split at h
  · exact .inl ⟨_, _, h⟩
  split at h
  · exact .inl ⟨_, _, h⟩
  rename_i u hu
  obtain ⟨hash, hhash⟩ := attestedResult_eq_ok hattested
  refine .inr ⟨_, hash, u, rfl, rfl, rfl, rfl, rfl, rfl, hhash, hu, ?_⟩
  exact (Except.ok.inj h).symm

/-- The decision of a verification moves the task that the run started with. -/
theorem decided_moved {id : String} {run : VerifyRun} {v : Verification} {u : Task}
    {now stamp : Utc} (hstate : run.task.state = .submitted)
    (hu : transition now run.task (if run.accept then .verified else .rejected)
      (fun t => { t with verification := some v }) = .ok u) :
    ({ entry := some ⟨stamp, run.actor, some id, .decided run.accept v u⟩
       file := some (id, u) } : Effect).Moved id run.task u := by
  obtain ⟨-, rfl⟩ := transition_eq_ok hu
  refine ⟨_, rfl, rfl, ?_, rfl, rfl, rfl⟩
  exact .decided now run.accept v hstate

theorem findRun_eq_ok {taskId runId : String} {found : Option Json × List Json}
    (h : findRun s taskId runId = .ok found) :
    findVerificationRun s.events taskId runId = .ok found := by
  rw [findRun] at h
  split at h
  · rename_i found' hfound
    rw [hfound, Except.ok.inj h]
  · simp at h

/-- The record that closes an orphan carries no snapshot. -/
theorem reconcileEntry_task? {actor taskId : String} {token : Token} {start receipt : Json}
    {attempt : ℤ} {terminals : List Json} {closing : Option Entry}
    (h : reconcileEntry c actor taskId token start attempt receipt terminals = .ok closing) :
    ∀ entry ∈ closing, entry.body.task? = none := by
  intro entry hmem
  cases terminals with
  | nil =>
    obtain rfl := Except.ok.inj h
    obtain rfl : _ = entry := Option.some.inj hmem
    rfl
  | cons terminal rest =>
    rw [reconcileEntry] at h
    split at h
    · obtain rfl := Except.ok.inj h
      simp at hmem
    · simp at h

/-- **`reconcile_verification`** closes an orphan and rebuilds the task file. -/
theorem reconcileVerification_eq_ok {actor taskId runId : String}
    (h : reconcileVerification w s c actor taskId runId = .ok e) :
    s.verifying taskId = none ∧ actor = w.config.orchestrator ∧ e.agent = none ∧
      e.verifying = none ∧
      (∀ p ∈ e.file, p.1 = taskId ∧ s.latest taskId = some p.2) ∧
      (e.raised = none → ∃ t, s.latest taskId = some t ∧
        (e.file = none → s.files.lookup taskId = some t)) ∧
      ∃ (token : Token) (start : Json) (terminals : List Json) (attempt : ℤ) (receipt : Json),
        token.text = runId ∧
        findVerificationRun s.events taskId runId = .ok (some start, terminals) ∧
        (payloadOf start).get "task_attempt" = .int attempt ∧
        c.authority.authorize ⟨.str actor, "task.reconcile_verification", .str taskId,
          .str runId, .int attempt⟩ = .ok receipt ∧
        reconcileEntry c actor taskId token start attempt receipt terminals = .ok e.entry := by
  simp only [reconcileVerification, authorize, bind_eq_ok, require_eq_ok, orRaise_eq_ok] at h
  obtain ⟨_, -, _, hactor, _, -, token, htoken, _, hlock, ledger, hledger, ⟨started, terminals⟩,
    hfind, start, hstart, _, -, attempt, hattempt, receipt, ⟨_, -, hreceipt⟩, entry, hentry, h⟩ := h
  obtain rfl : started = some start := hstart
  obtain ⟨rfl, -⟩ := readVerified_eq_ok hledger
  have htext : token.text = runId := by
    rw [validateRunId] at htoken
    split at htoken
    · rw [← Except.ok.inj htoken]
    · simp at htoken
  have hattempt' : (payloadOf start).get "task_attempt" = .int attempt := by
    rw [startedAttempt] at hattempt
    split at hattempt
    · rename_i n hn
      split at hattempt
      · rw [hn, Except.ok.inj hattempt]
      · simp at hattempt
    · simp at hattempt
  have hprojection : ∀ t, signedTaskProjection taskId s.ledger = .ok t →
      s.latest taskId = some t := by
    intro t ht
    simp only [signedTaskProjection, bind_eq_ok, require_eq_ok, orRaise_eq_ok] at ht
    obtain ⟨snapshot, hsnapshot, _, -, ht⟩ := ht
    obtain rfl := Except.ok.inj ht
    rw [State.latest, ← lastSnapshotEvent_task]
    exact hsnapshot
  have hrun := findRun_eq_ok hfind
  split at h
  · obtain rfl := Except.ok.inj h
    refine ⟨lockTask_eq_ok hlock, hactor, rfl, rfl, by simp, by simp, ?_⟩
    exact ⟨token, start, terminals, attempt, receipt, htext, hrun, hattempt', hreceipt, hentry⟩
  · rename_i t ht
    have hlatest := hprojection t ht
    obtain rfl := Except.ok.inj h
    refine ⟨lockTask_eq_ok hlock, hactor, rfl, rfl, ?_, ?_, ?_⟩
    · intro p hp
      simp only at hp
      split at hp
      · simp at hp
      · obtain rfl : (taskId, t) = p := by simpa using hp
        exact ⟨rfl, hlatest⟩
    · intro _
      refine ⟨t, hlatest, ?_⟩
      intro hfile
      simpa using hfile
    · exact ⟨token, start, terminals, attempt, receipt, htext, hrun, hattempt', hreceipt, hentry⟩

/-- What the receipt of a restatement is asked for. -/
def restatementScope (actor taskId : String) (t : Task) : Scope where
  actor := .str actor
  operation := "task.restate_verification"
  taskId := .str taskId
  runId := match t.verification with
    | some v => .str v.runId.text
    | none => .null
  taskAttempt := .int t.attempt

/-- **`restate_verification`** signs at most one restatement, never after a revocation. -/
theorem restateVerification_eq_ok {actor taskId status reason : String} {n : Option ℤ}
    (h : restateVerification w s c actor taskId status reason n = .ok e) :
    actor = w.config.orchestrator ∧ e.agent = none ∧ e.verifying = none ∧ e.file = none ∧
      (e.entry = none ∨ ∃ target ∈ verifiedEvents taskId s.ledger, ∃ r : Restatement,
        e.entry = some ⟨c.clock 0, actor, some taskId, .restated r⟩ ∧
        r.targetSequence = target.event.sequence ∧ r.targetHash = target.event.eventHash ∧
        r.originalVerifier = target.event.actor ∧ strip r.reason ≠ "" ∧
        (∃ t, target.body.task? = some t ∧
          receiptIsBound r.capabilityReceipt (restatementScope actor taskId t) = true) ∧
        ∀ previous, s.ledger.reverse.findSome? (restatementOf target.event) = some previous →
          previous.status ≠ .revoked) := by
  simp only [restateVerification, authorize, bind_eq_ok, require_eq_ok, orRaise_eq_ok] at h
  obtain ⟨_, hactor, status, -, _, hreason, _, -, _, -, _, -, ledger, hledger, target, htarget,
    task, htask, _, -, receipt, ⟨_, -, hreceipt⟩, h⟩ := h
  obtain ⟨rfl, -⟩ := readVerified_eq_ok hledger
  have hbound : ∃ t, target.body.task? = some t ∧
      receiptIsBound receipt (restatementScope actor taskId t) = true :=
    ⟨task, htask, c.authority.bound _ _ hreceipt⟩
  have hmem : target ∈ verifiedEvents taskId s.ledger := by
    cases n with
    | none => exact List.mem_of_getLast? (orRaise_eq_ok.mp htarget)
    | some n => exact List.mem_of_find?_eq_some (orRaise_eq_ok.mp htarget)
  have hstrip : strip (strip reason) ≠ "" := by
    rw [strip_strip]
    exact hreason
  split at h
  · rename_i previous hprevious
    split at h
    · obtain rfl := Except.ok.inj h
      exact ⟨hactor, rfl, rfl, rfl, .inl rfl⟩
    split at h
    · simp at h
    · rename_i hnot
      obtain rfl := Except.ok.inj h
      refine ⟨hactor, rfl, rfl, rfl,
        .inr ⟨target, hmem, _, rfl, rfl, rfl, rfl, hstrip, hbound, ?_⟩⟩
      intro previous' hprevious'
      rw [hprevious, Option.some.injEq] at hprevious'
      rw [← hprevious']
      exact hnot
  · rename_i hnone
    obtain rfl := Except.ok.inj h
    refine ⟨hactor, rfl, rfl, rfl,
      .inr ⟨target, hmem, _, rfl, rfl, rfl, rfl, hstrip, hbound, ?_⟩⟩
    intro previous hprevious
    simp [hnone] at hprevious

/-! ## Agents and new tasks -/

theorem addAgent_eq_ok {actor : String} {a : NewAgent} (h : addAgent w s c actor a = .ok e) :
    ∃ agent : Agent, e = {
      entry := some ⟨c.clock 1, actor, none, .agentAdded agent⟩, agent := some agent } := by
  simp only [addAgent, bind_eq_ok] at h
  obtain ⟨_, -, _, -, _, -, _, -, _, -, _, -, identity, -, h⟩ := h
  exact ⟨_, (Except.ok.inj h).symm⟩

/-- A new task: its prerequisites are other tasks that have a file. -/
structure New (s : State) (t : Task) : Prop where
  valid : isTaskId t.id = true
  absent : s.files.lookup t.id = none
  state : t.state = .pending
  revision : t.revision = 1
  attempt : t.attempt = 0
  lease : t.lease = none
  prerequisites : ∀ p ∈ t.prerequisites, (s.files.lookup p).isSome = true
  irreflexive : t.id ∉ t.prerequisites

theorem addTask_eq_ok {actor : String} {a : NewTask} (h : addTask w s c actor a = .ok e) :
    ∃ t : Task, t.id = a.taskId ∧ New s t ∧ e = {
      entry := some ⟨c.clock 1, actor, some t.id, .created t⟩, file := some (t.id, t) } := by
  simp only [addTask, bind_eq_ok, require_eq_ok] at h
  obtain ⟨_, -, _, -, _, hvalid, _, habsent, _, -, _, -, _, hirrefl, _, -, _, hmissing, t, ht, h⟩ := h
  obtain ⟨hid, -, hstate, hrevision, hattempt, hprereqs, hlease⟩ := newTask_eq_ok ht
  refine ⟨t, hid, ⟨?_, ?_, hstate, hrevision, hattempt, hlease, ?_, ?_⟩, ?_⟩
  · rw [hid]
    exact require_eq_ok.mp hvalid
  · rw [hid]
    exact Option.isNone_iff_eq_none.mp habsent
  · intro p hp
    rw [hprereqs] at hp
    have hnot := List.filter_eq_nil_iff.mp hmissing p hp
    simpa [Option.isNone_iff_eq_none, Option.isSome_iff_ne_none] using hnot
  · rw [hid, hprereqs]
    exact hirrefl
  · rw [hid]
    exact (Except.ok.inj h).symm

end Operations

end Workspace
