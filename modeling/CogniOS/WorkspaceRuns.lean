/-
# Runs of a workspace

`Workspace.initialize` and the runs of calls from there.  `Outcome` sorts what a call can
do, and `Inv` is what holds after every run, whatever faults and crashes it has.
-/
import CogniOS.WorkspaceMoves
import CogniOS.Runs

open Independence VerificationLifecycle

namespace Workspace

/-! ## Initialization and runs -/

/-- An agent that `initialize` registers. -/
def commitAgent (w : Broker) (now : Utc) (s : State) (agent : Agent) : State :=
  s.apply w { entry := some ⟨now, w.config.orchestrator, none, .agentAdded agent⟩
              agent := some agent } .none

/-- A manual agent without write roots. -/
def presetAgent (now : Utc) (id role controlPrincipal modelFamily : String) : Agent :=
  ⟨id, role, "manual", none, now, [], some ⟨controlPrincipal, modelFamily, none, []⟩⟩

/-- The agents of the preset `cogni-codex-antigravity`. -/
def presetAgents (now : Utc) : List Agent :=
  [presetAgent now "antigravity" "worker" "antigravity-executant" "google-antigravity",
    presetAgent now "antigravity-verifier" "verifier" "antigravity-verifier-control"
      "google-antigravity-verifier"]

/-- The identity of the orchestrator, when one is given. -/
def orchestratorIdentity (controlPrincipal modelFamily : String) :
    Except CogniError (Option Identity) :=
  if controlPrincipal = "" ∧ modelFamily = "" then .ok none
  else do
    require (controlPrincipal ≠ "" ∧ modelFamily ≠ "") ⟨.configuration,
      "Both orchestrator_control_principal and orchestrator_model_family are required together"⟩
    let identity ← buildIdentity controlPrincipal modelFamily none []
    return some identity

/-- `Workspace.initialize`: the signed configuration, the orchestrator and the preset. -/
def initializeWorkspace (w : Broker) (now : Utc) (controlPrincipal modelFamily : String) (preset : Bool) :
    Except CogniError State := do
  validateAgentId w.config.orchestrator
  let identity ← orchestratorIdentity controlPrincipal modelFamily
  let orchestrator : Agent := ⟨w.config.orchestrator, "orchestrator", "manual", none, now,
    ["tasks", "shared", "archive"], identity⟩
  let empty : State := ⟨[], ∅, ∅, fun _ => none⟩
  let created := empty.apply w
    { entry := some ⟨now, w.config.orchestrator, none, .initialized w.config⟩ } .none
  let agents := orchestrator :: if preset then presetAgents now else []
  return agents.foldl (commitAgent w now) created

/-- A call as a step. -/
def Step (w : Broker) (s : State) (c : Call) (t : State) : Prop := t = step w s c

/-- The runs of calls on a new workspace. -/
def RunsTo (w : Broker) (cs : List Call) (s : State) : Prop :=
  ∃ now controlPrincipal modelFamily preset start,
    initializeWorkspace w now controlPrincipal modelFamily preset = .ok start ∧
      Runs.Run (Step w) start cs s

/-! ## What a call can do -/

/-- An effect whose event, if there is one, carries no snapshot. -/
structure Effect.Quiet (e : Effect) : Prop where
  agent : e.agent = none
  body : ∀ entry ∈ e.entry, entry.body.task? = none

/-- The operation is the start of a verification of the task. -/
def Op.begins (op : Op) (id : String) : Prop :=
  match op with
  | .verifyBegin _ taskId _ _ _ _ => taskId = id
  | _ => False

/-- What a call can do once its checks have passed. -/
inductive Outcome (s : State) (c : Call) (e : Effect) : Prop
  | agentAdded (actor : String) (now : Utc) (agent : Agent) :
      e = { entry := some ⟨now, actor, none, .agentAdded agent⟩, agent := some agent } →
      Outcome s c e
  | created (actor : String) (now : Utc) (t : Task) : New s t →
      e = { entry := some ⟨now, actor, some t.id, .created t⟩, file := some (t.id, t) } →
      Outcome s c e
  | moved (id : String) (t u : Task) : s.Reads id t → e.Moved id t u →
      (u.state = .claimed → t.state = .pending → s.unsatisfiedPrerequisites t = []) →
      Outcome s c e
  | begun (id : String) (run : VerifyRun) : c.op.begins id → s.Reads id run.task →
      run.task.state = .submitted →
      e.Quiet → e.file = none → e.verifying = some (id, run) → Outcome s c e
  | decided (id : String) (run : VerifyRun) (u : Task) : s.verifying id = some run →
      (∀ t : State, (t.unlock c.op).verifying id = none) → e.Moved id run.task u →
      (u.state ≠ .claimed) → Outcome s c e
  | rebuilt (id : String) : s.verifying id = none → e.Quiet → e.verifying = none →
      (∀ p ∈ e.file, p.1 = id ∧ s.latest id = some p.2) → Outcome s c e
  | silent : e.Quiet → e.verifying = none → e.file = none → Outcome s c e

/-! ## The invariant -/

/-- What every snapshot of a task satisfies. -/
structure Sound (t : Task) : Prop where
  lease : t.lease.isSome = t.state.leased
  holder : ∀ l ∈ t.lease, l.holder = t.owner
  attempt : t.state ≠ .pending → 1 ≤ t.attempt

theorem New.sound {s : State} {t : Task} (h : New s t) : Sound t := by
  refine ⟨?_, ?_, ?_⟩
  · rw [h.lease, h.state]
    rfl
  · simp [h.lease]
  · simp [h.state]

theorem Sound.attempt_of_leased {t : Task} (h : Sound t) (hl : t.state.leased = true) :
    1 ≤ t.attempt := by
  apply h.attempt
  rintro hp
  simp [hp, TaskState.leased] at hl

theorem Moves.sound {t u : Task} {b : Body} (h : Moves t b u) (ht : Sound t) : Sound u := by
  cases h with
  | claimed now l hstate hholder => exact ⟨rfl, by simpa using hholder, by simp⟩
  | started now hstate =>
    have hleased : t.state.leased = true := by rw [hstate]; rfl
    refine ⟨?_, ht.holder, fun _ => ht.attempt_of_leased hleased⟩
    show t.lease.isSome = true
    rw [ht.lease, hleased]
  | heartbeat now expiresAt l hleased hl =>
    refine ⟨by simp [hleased], ?_, fun _ => ht.attempt_of_leased hleased⟩
    simpa using ht.holder l hl
  | blocked now reason hleased =>
    exact ⟨rfl, by simp, fun _ => ht.attempt_of_leased hleased⟩
  | submitted now result identity bundle hstate =>
    exact ⟨rfl, by simp, fun _ => ht.attempt (by simp [hstate])⟩
  | recovered now r hleased =>
    exact ⟨rfl, by simp, by simp⟩
  | decided now accepted v hstate =>
    have hnone : t.lease = none := by
      rw [← Option.not_isSome_iff_eq_none, ht.lease, hstate]
      decide
    refine ⟨?_, by simp [hnone], fun _ => ht.attempt (by simp [hstate])⟩
    cases accepted <;> simp [hnone, TaskState.leased]

/-- A record kept under the valid name of its task. -/
structure Named (id : String) (t : Task) : Prop where
  same : t.id = id
  valid : isTaskId id = true
  sound : Sound t

/-- What holds after every run. -/
structure Inv (w : Broker) (s : State) : Prop where
  file : ∀ id t, s.files.lookup id = some t → Named id t
  snapshot : ∀ e ∈ s.ledger, ∀ id t, e.snapshot? = some (id, t) → Named id t
  verifying : ∀ id run, s.verifying id = some run →
    s.files.lookup id = some run.task ∧ run.task.state = .submitted
  chain : Ledger.Chain w.signer (s.ledger.map Signed.event)

section Invariant

variable {w : Broker} {s : State} {c : Call} {e : Effect}

theorem Inv.keyed (h : Inv w s) : s.Keyed := fun id t ht => (h.file id t ht).same

/-- A pending file has no lease. -/
theorem Inv.lease_eq_none (h : Inv w s) {id : String} {t : Task}
    (ht : s.files.lookup id = some t) (hp : t.state = .pending) : t.lease = none := by
  rw [← Option.not_isSome_iff_eq_none, (h.file id t ht).sound.lease, hp]
  decide

theorem checkedEffect_of_effect (h : effect w s c = .ok e) :
    checkedEffect w s c = .ok e ∧ (e.entry = none ∨ s.Readable) := by
  simp only [effect, bind_eq_ok, require_eq_ok] at h
  obtain ⟨e', he, _, hread, h⟩ := h
  obtain rfl := Except.ok.inj h
  exact ⟨he, by simpa using hread⟩

/-- **The outcomes of a call.** -/
theorem outcome_of_effect (hs : Inv w s) (h : effect w s c = .ok e) : Outcome s c e := by
  have h := (checkedEffect_of_effect h).1
  obtain ⟨op, clock, authority, fault⟩ := c
  cases op with
  | addAgent actor a =>
    obtain ⟨agent, rfl⟩ := addAgent_eq_ok h
    exact .agentAdded _ _ agent rfl
  | addTask actor a =>
    obtain ⟨t, -, hnew, rfl⟩ := addTask_eq_ok h
    exact .created _ _ t hnew rfl
  | claim actor taskId seconds token session =>
    obtain ⟨id, t, u, hreads, hmoved, -, -, -, hsatisfied, -⟩ := claim_moved hs.keyed h
    exact .moved id t u hreads hmoved fun _ _ => hsatisfied
  | recoverLease actor taskId reason force =>
    obtain ⟨t, u, hreads, hmoved, hleased, -⟩ := recoverLease_moved h
    refine .moved taskId t u hreads hmoved fun _ hp => ?_
    simp [hp, TaskState.leased] at hleased
  | start actor taskId token =>
    obtain ⟨t, u, hreads, hmoved, hstate⟩ := start_moved h
    exact .moved taskId t u hreads hmoved fun _ hp => by simp [hp] at hstate
  | heartbeat actor taskId token =>
    obtain ⟨t, u, hreads, hmoved, hleased⟩ := heartbeat_moved h
    exact .moved taskId t u hreads hmoved fun _ hp => by simp [hp, TaskState.leased] at hleased
  | block actor taskId token reason =>
    obtain ⟨t, u, hreads, hmoved, hleased⟩ := block_moved h
    exact .moved taskId t u hreads hmoved fun _ hp => by simp [hp, TaskState.leased] at hleased
  | submit actor taskId token validated bundle =>
    obtain ⟨t, u, hreads, hmoved, hstate⟩ := submit_moved h fun t ht => hs.lease_eq_none ht
    exact .moved taskId t u hreads hmoved fun _ hp => by simp [hp] at hstate
  | verifyBegin actor taskId decision note evidence candidates =>
    obtain ⟨run, hreads, hstate, -, -, -, -, rfl⟩ := verifyBegin_eq_ok h
    exact .begun taskId run rfl hreads hstate ⟨rfl, by simp [Body.task?]⟩ rfl rfl
  | verifyEnd taskId runner attestation archive =>
    obtain ⟨run, hrun, hfail | ⟨v, hash, u, -, -, -, -, -, -, -, hu, rfl⟩⟩ := verifyEnd_eq_ok h
    · obtain ⟨stage, error, hfail⟩ := hfail
      obtain ⟨hfile, hagent, hverifying, -, hentry⟩ := recordVerificationFailure_eq_ok hfail
      refine .silent ⟨hagent, ?_⟩ hverifying hfile
      rcases hentry with hentry | ⟨start, -, -, hentry⟩
      · simp [hentry]
      · simp [hentry, Body.task?]
    · have hstate := (hs.verifying taskId run hrun).2
      refine .decided taskId run u hrun (fun t => by simp [State.unlock])
        (decided_moved hstate hu) ?_
      obtain ⟨-, rfl⟩ := transition_eq_ok hu
      cases run.accept <;> simp
  | verifyCrash taskId => simp [checkedEffect] at h
  | reconcileVerification actor taskId runId =>
    obtain ⟨hlock, -, hagent, hverifying, hfile, -, token, start, terminals, attempt, receipt,
      -, -, -, -, hentry⟩ := reconcileVerification_eq_ok h
    exact .rebuilt taskId hlock ⟨hagent, reconcileEntry_task? hentry⟩ hverifying hfile
  | restateVerification actor taskId status reason n =>
    obtain ⟨-, hagent, hverifying, hfile, hentry⟩ := restateVerification_eq_ok h
    refine .silent ⟨hagent, ?_⟩ hverifying hfile
    rcases hentry with hentry | ⟨target, -, r, hentry, -⟩
    · simp [hentry]
    · simp [hentry, Body.task?]

/-! ## The invariant along a run -/

section Apply

variable (w s e) (fault : Fault)

theorem apply_ledger : (s.apply w e fault).ledger = s.ledger ∨ ∃ entry, e.entry = some entry ∧
    (s.apply w e fault).ledger = s.ledger ++ [sign w.signer s.ledger entry] := by
  cases hentry : e.entry with
  | none => cases fault <;> simp [State.apply, State.append, State.replaceFiles, hentry]
  | some entry => cases fault <;> simp [State.apply, State.append, State.replaceFiles, hentry]

theorem apply_files : (s.apply w e fault).files = s.files ∨ ∃ id t, e.file = some (id, t) ∧
    (s.apply w e fault).files = s.files.insert id t := by
  have happend : (s.append w e).files = s.files := by
    rw [State.append]
    split <;> rfl
  cases fault with
  | append => exact .inl rfl
  | write => exact .inl happend
  | none =>
    cases hfile : e.file with
    | none => exact .inl (by simp [State.apply, State.replaceFiles, hfile, happend])
    | some p =>
      exact .inr ⟨p.1, p.2, rfl, by simp [State.apply, State.replaceFiles, hfile, happend]⟩

theorem apply_verifying : (s.apply w e fault).verifying = s.verifying ∨
    ∃ id run, e.verifying = some (id, run) ∧
      (s.apply w e fault).verifying = Function.update s.verifying id (some run) := by
  have happend : (s.append w e).verifying = s.verifying := by
    rw [State.append]
    split <;> rfl
  cases fault with
  | append => exact .inl rfl
  | write => exact .inl happend
  | none =>
    cases hrun : e.verifying with
    | none => exact .inl (by simp [State.apply, State.replaceFiles, hrun, happend])
    | some p =>
      exact .inr ⟨p.1, p.2, rfl, by simp [State.apply, State.replaceFiles, hrun, happend]⟩

end Apply

@[simp] theorem unlock_ledger (op : Op) : (s.unlock op).ledger = s.ledger := by
  cases op <;> rfl

@[simp] theorem unlock_files (op : Op) : (s.unlock op).files = s.files := by
  cases op <;> rfl

theorem verifying_of_unlock {op : Op} {id : String} {run : VerifyRun}
    (h : (s.unlock op).verifying id = some run) : s.verifying id = some run := by
  have hupdate : ∀ id', (Function.update s.verifying id' none) id = some run →
      s.verifying id = some run := by
    intro id' h
    by_cases hid : id = id'
    · simp [hid] at h
    · simpa [hid] using h
  cases op with
  | verifyEnd taskId _ _ _ => exact hupdate taskId h
  | verifyCrash taskId => exact hupdate taskId h
  | _ => exact h

theorem Inv.latest (hs : Inv w s) {id : String} {t : Task} (h : s.latest id = some t) :
    Named id t := by
  obtain ⟨e, he, hsnap⟩ := EventLog.mem_history.mp (EventLog.latest_mem_history h)
  exact hs.snapshot e he id t hsnap

/-- The task that a move starts from. -/
theorem Inv.reads (hs : Inv w s) {id : String} {t : Task} (h : s.Reads id t) : Named id t :=
  hs.file id t h.2

theorem Named.moved {id : String} {t u : Task} (h : Named id t) (hmoved : e.Moved id t u) :
    Named id u := by
  obtain ⟨entry, -, -, hmoves, -⟩ := hmoved
  exact ⟨hmoves.sameTask.id.trans h.same, h.valid, hmoves.sound h.sound⟩

/-- A snapshot that is signed is what the file is replaced by. -/
theorem Outcome.file_of_entry (h : Outcome s c e) {entry : Entry} (he : e.entry = some entry)
    {u : Task} (hu : entry.body.task? = some u) :
    ∃ id, entry.taskId = some id ∧ e.file = some (id, u) := by
  have hmoved : ∀ {id : String} {t u' : Task}, e.Moved id t u' →
      ∃ id, entry.taskId = some id ∧ e.file = some (id, u) := by
    rintro id t u' ⟨entry', hentry', hid, hmoves, hfile, -⟩
    obtain rfl : entry' = entry := Option.some.inj (hentry'.symm.trans he)
    obtain rfl : u' = u := Option.some.inj (hmoves.task?.symm.trans hu)
    exact ⟨id, hid, hfile⟩
  have hquiet : e.Quiet → ∃ id, entry.taskId = some id ∧ e.file = some (id, u) := by
    intro hquiet
    rw [hquiet.body entry he] at hu
    simp at hu
  cases h with
  | agentAdded actor now agent heq =>
    subst heq
    obtain rfl := Option.some.inj he
    simp [Body.task?] at hu
  | created actor now t hnew heq =>
    subst heq
    obtain rfl := Option.some.inj he
    obtain rfl := Option.some.inj hu
    exact ⟨t.id, rfl, rfl⟩
  | moved id t u' _ hm _ => exact hmoved hm
  | decided id run u' _ _ hm _ => exact hmoved hm
  | begun id run _ _ _ hq _ _ => exact hquiet hq
  | rebuilt id _ hq _ _ => exact hquiet hq
  | silent hq _ _ => exact hquiet hq

/-- The file of an effect is named after its task. -/
theorem Outcome.named_file (hs : Inv w s) (h : Outcome s c e) {id : String} {u : Task}
    (hu : e.file = some (id, u)) : Named id u := by
  have hmoved : ∀ {id' : String} {t u' : Task}, Named id' t → e.Moved id' t u' → Named id u := by
    intro id' t u' ht hm
    have hnamed := ht.moved hm
    obtain ⟨-, -, -, -, hfile, -⟩ := hm
    rw [hu, Option.some.injEq, Prod.mk.injEq] at hfile
    rw [hfile.1, hfile.2]
    exact hnamed
  cases h with
  | agentAdded actor now agent heq => simp [heq] at hu
  | created actor now t hnew heq =>
    rw [heq] at hu
    simp only [Option.some.injEq, Prod.mk.injEq] at hu
    rw [← hu.1, ← hu.2]
    exact ⟨rfl, hnew.valid, hnew.sound⟩
  | moved id' t u' hreads hm _ => exact hmoved (hs.reads hreads) hm
  | decided id' run u' hrun _ hm _ =>
    exact hmoved (hs.file id' run.task (hs.verifying id' run hrun).1) hm
  | begun id' run _ _ _ _ hfile _ => simp [hfile] at hu
  | rebuilt id' _ _ _ hfile =>
    obtain ⟨hid, hlatest⟩ := hfile (id, u) hu
    obtain rfl : id = id' := hid
    exact hs.latest hlatest
  | silent _ _ hfile => simp [hfile] at hu

/-- A verification holds the file of its task as it was at the start. -/
theorem Outcome.verifying (hs : Inv w s) (h : Outcome s c e) (fault : Fault) {id : String}
    {run : VerifyRun} (hrun : ((s.apply w e fault).unlock c.op).verifying id = some run) :
    (s.apply w e fault).files.lookup id = some run.task ∧ run.task.state = .submitted := by
  have hlock := verifying_of_unlock hrun
  -- The file of a task that was locked before the call is the same afterwards.
  have hkept : s.verifying id = some run →
      (∀ t, e.file ≠ some (id, t)) →
      (s.apply w e fault).files.lookup id = some run.task ∧ run.task.state = .submitted := by
    intro hold hne
    obtain ⟨hfile, hstate⟩ := hs.verifying id run hold
    refine ⟨?_, hstate⟩
    rcases apply_files w s e fault with hfiles | ⟨id', t, hfile', hfiles⟩
    · rw [hfiles, hfile]
    · have hid : id ≠ id' := by
        rintro rfl
        exact hne t hfile'
      rw [hfiles, AList.lookup_insert_ne hid, hfile]
  have hsame : e.verifying = none → s.verifying id = some run := by
    intro hnone
    rcases apply_verifying w s e fault with heq | ⟨id', run', hrun', -⟩
    · rw [← heq]
      exact hlock
    · simp [hnone] at hrun'
  cases h with
  | agentAdded actor now agent heq =>
    exact hkept (hsame (by rw [heq])) (by simp [heq])
  | created actor now t hnew heq =>
    have hold := hsame (by rw [heq])
    refine hkept hold fun t' ht' => ?_
    rw [heq] at ht'
    simp only [Option.some.injEq, Prod.mk.injEq] at ht'
    have := (hs.verifying id run hold).1
    rw [← ht'.1, hnew.absent] at this
    simp at this
  | moved id' t u hreads hm _ =>
    obtain ⟨-, -, -, -, hfile, -, hverifying⟩ := hm
    have hold := hsame hverifying
    refine hkept hold fun t' ht' => ?_
    rw [hfile, Option.some.injEq, Prod.mk.injEq] at ht'
    rw [← ht'.1, hreads.1] at hold
    simp at hold
  | begun id' run' _ hreads hstate _ hfile hverifying =>
    rcases apply_verifying w s e fault with heq | ⟨id'', run'', hrun'', heq⟩
    · rw [heq] at hlock
      exact hkept hlock (by simp [hfile])
    · rw [hverifying, Option.some.injEq, Prod.mk.injEq] at hrun''
      obtain ⟨rfl, rfl⟩ := hrun''
      rw [heq] at hlock
      by_cases hid : id = id'
      · subst hid
        obtain rfl : run' = run := by simpa using hlock
        refine ⟨?_, hstate⟩
        rcases apply_files w s e fault with hfiles | ⟨_, _, hfile', -⟩
        · rw [hfiles]
          exact hreads.2
        · simp [hfile] at hfile'
      · exact hkept (by simpa [hid] using hlock) (by simp [hfile])
  | decided id' run' u hrun' hfree hm _ =>
    obtain ⟨-, -, -, -, hfile, -, hverifying⟩ := hm
    refine hkept (hsame hverifying) fun t' ht' => ?_
    rw [hfile, Option.some.injEq, Prod.mk.injEq] at ht'
    have := hfree (s.apply w e fault)
    rw [ht'.1, hrun] at this
    simp at this
  | rebuilt id' hfree _ hverifying hfile =>
    have hold := hsame hverifying
    refine hkept hold fun t' ht' => ?_
    obtain rfl : id = id' := (hfile (id, t') ht').1
    simp [hfree] at hold
  | silent _ hverifying hfile => exact hkept (hsame hverifying) (by simp [hfile])

theorem Inv.apply (hs : Inv w s) (h : Outcome s c e) (fault : Fault) :
    Inv w ((s.apply w e fault).unlock c.op) := by
  constructor
  · intro id t ht
    rw [unlock_files] at ht
    rcases apply_files w s e fault with hfiles | ⟨id', u, hfile, hfiles⟩
    · rw [hfiles] at ht
      exact hs.file id t ht
    · rw [hfiles] at ht
      by_cases hid : id = id'
      · subst hid
        rw [AList.lookup_insert, Option.some.injEq] at ht
        subst ht
        exact h.named_file hs hfile
      · rw [AList.lookup_insert_ne hid] at ht
        exact hs.file id t ht
  · intro e' he' id t ht
    rw [unlock_ledger] at he'
    rcases apply_ledger w s e fault with hledger | ⟨entry, hentry, hledger⟩
    · rw [hledger] at he'
      exact hs.snapshot e' he' id t ht
    · rw [hledger] at he'
      rcases List.mem_append.mp he' with he' | he'
      · exact hs.snapshot e' he' id t ht
      · obtain rfl := List.mem_singleton.mp he'
        obtain ⟨hid, htask⟩ := Signed.snapshot?_eq_some.mp ht
        obtain ⟨id', hid', hfile⟩ := h.file_of_entry hentry htask
        rw [sign_taskId] at hid
        obtain rfl : id' = id := Option.some.inj (hid'.symm.trans hid)
        exact h.named_file hs hfile
  · intro id run hrun
    rw [unlock_files]
    exact h.verifying hs fault hrun
  · rw [unlock_ledger]
    rcases apply_ledger w s e fault with hledger | ⟨entry, -, hledger⟩
    · rw [hledger]
      exact hs.chain
    · rw [hledger, List.map_append]
      exact .append entry.request hs.chain

theorem Inv.unlock (hs : Inv w s) (op : Op) : Inv w (s.unlock op) := by
  constructor
  · rw [unlock_files]
    exact hs.file
  · rw [unlock_ledger]
    exact hs.snapshot
  · intro id run hrun
    rw [unlock_files]
    exact hs.verifying id run (verifying_of_unlock hrun)
  · rw [unlock_ledger]
    exact hs.chain

/-- A signed event has a lower number than the next one. -/
theorem Inv.sequence_lt (hs : Inv w s) {o : Signed} (ho : o ∈ s.ledger) (entry : Entry) :
    o.event.sequence < (sign w.signer s.ledger entry).event.sequence := by
  have hmem : o.event ∈ s.ledger.map Signed.event := List.mem_map_of_mem ho
  obtain ⟨i, hi, heq⟩ := List.mem_iff_getElem.mp hmem
  have hsequence := hs.chain.sequence i hi
  rw [List.length_map] at hi
  rw [sign_sequence, ← heq, hsequence]
  omega

/-- **A step**: nothing but a lock is touched, or the effect of the call is applied. -/
theorem step_cases (hs : Inv w s) (c : Call) :
    step w s c = s.unlock c.op ∨ ∃ e, effect w s c = .ok e ∧ Outcome s c e ∧
      step w s c = (s.apply w e c.fault).unlock c.op := by
  rw [step]
  cases h : effect w s c with
  | error f => exact .inl rfl
  | ok e => exact .inr ⟨e, rfl, outcome_of_effect hs h, rfl⟩

theorem Inv.step (hs : Inv w s) (c : Call) : Inv w (step w s c) := by
  rcases step_cases hs c with h | ⟨e, -, houtcome, h⟩
  · rw [h]
    exact hs.unlock c.op
  · rw [h]
    exact hs.apply houtcome c.fault

/-! ## The initial state -/

/-- The state before any task: no event has a snapshot. -/
structure Fresh (w : Broker) (s : State) : Prop where
  files : s.files = ∅
  verifying : s.verifying = fun _ => none
  chain : Ledger.Chain w.signer (s.ledger.map Signed.event)
  bodies : ∃ agents : List Agent,
    s.ledger.map Signed.body = .initialized w.config :: agents.map .agentAdded
  actors : ∀ e ∈ s.ledger, e.event.actor = w.config.orchestrator

theorem Fresh.commitAgent (h : Fresh w s) (now : Utc) (agent : Agent) :
    Fresh w (commitAgent w now s agent) := by
  obtain ⟨agents, hbodies⟩ := h.bodies
  refine ⟨h.files, h.verifying, ?_, ⟨agents ++ [agent], ?_⟩, ?_⟩
  · simp only [Workspace.commitAgent, State.apply, State.replaceFiles, State.append, List.map_append]
    exact .append _ h.chain
  · simp [Workspace.commitAgent, State.apply, State.replaceFiles, State.append, hbodies]
  · intro e he
    rcases List.mem_append.mp he with he | he
    · exact h.actors e he
    · obtain rfl := List.mem_singleton.mp he
      rfl

theorem fresh_of_initialized {now : Utc} {principal family : String} {preset : Bool}
    (h : initializeWorkspace w now principal family preset = .ok s) : Fresh w s := by
  simp only [initializeWorkspace, bind_eq_ok] at h
  obtain ⟨_, -, identity, -, h⟩ := h
  obtain rfl := Except.ok.inj h
  have hfold : ∀ (agents : List Agent) (s : State), Fresh w s →
      Fresh w (agents.foldl (commitAgent w now) s) := by
    intro agents
    induction agents with
    | nil => exact fun s hs => hs
    | cons agent agents ih => exact fun s hs => ih _ (hs.commitAgent now agent)
  apply hfold
  refine ⟨rfl, rfl, ?_, ⟨[], rfl⟩, ?_⟩
  · exact .append _ Ledger.Chain.nil
  · intro e he
    obtain rfl := List.mem_singleton.mp he
    rfl

theorem Fresh.body_cases (h : Fresh w s) {e : Signed} (he : e ∈ s.ledger) :
    e.body = .initialized w.config ∨ ∃ agent, e.body = .agentAdded agent := by
  obtain ⟨agents, hbodies⟩ := h.bodies
  have hmem : e.body ∈ s.ledger.map Signed.body := List.mem_map_of_mem he
  rw [hbodies] at hmem
  rcases List.mem_cons.mp hmem with heq | hmem
  · exact .inl heq
  · obtain ⟨agent, -, heq⟩ := List.mem_map.mp hmem
    exact .inr ⟨agent, heq.symm⟩

theorem Fresh.snapshot? (h : Fresh w s) : ∀ e ∈ s.ledger, e.snapshot? = none := by
  intro e he
  have htask : e.body.task? = none := by
    rcases h.body_cases he with heq | ⟨agent, heq⟩
    · rw [heq]
      rfl
    · rw [heq]
      rfl
  simp [Signed.snapshot?, htask]

theorem Fresh.inv (h : Fresh w s) : Inv w s := by
  refine ⟨?_, ?_, ?_, h.chain⟩
  · simp [h.files]
  · intro e he id t ht
    simp [h.snapshot? e he] at ht
  · simp [h.verifying]

/-- **The invariant holds after every run.** -/
theorem RunsTo.inv {cs : List Call} (h : RunsTo w cs s) : Inv w s := by
  obtain ⟨now, principal, family, preset, start, hstart, hrun⟩ := h
  apply hrun.invariant _ (fresh_of_initialized hstart).inv
  rintro s c t hs rfl
  exact hs.step c

/-- The orchestrator of a workspace has a valid name. -/
theorem RunsTo.orchestrator {cs : List Call} (h : RunsTo w cs s) :
    isAgentId w.config.orchestrator = true := by
  obtain ⟨now, principal, family, preset, start, hstart, -⟩ := h
  simp only [initializeWorkspace, bind_eq_ok, validateAgentId, require_eq_ok] at hstart
  obtain ⟨_, hvalid, -⟩ := hstart
  exact hvalid

end Invariant

/-- The calls of a list, one after the other. -/
theorem run_foldl (w : Broker) (start : State) (cs : List Call) :
    Runs.Run (Step w) start cs (cs.foldl (step w) start) := by
  induction cs using List.reverseRecOn with
  | nil => exact .nil start
  | append_singleton cs c ih =>
    rw [List.foldl_append]
    exact .snoc ih rfl

theorem runsTo_foldl {w : Broker} {now : Utc} {principal family : String} {preset : Bool}
    {start : State} (h : initializeWorkspace w now principal family preset = .ok start)
    (cs : List Call) : RunsTo w cs (cs.foldl (step w) start) :=
  ⟨now, principal, family, preset, start, h, run_foldl w start cs⟩

/-! ## A sample workspace -/

/-- A receipt for a scope. -/
def sampleReceipt (scope : Scope) : Json :=
  .obj [
    ("actor", scope.actor),
    ("actor_os_isolation_proven", .bool false),
    ("independent_trust_root", .bool false),
    ("nonce_sha256", .str Ledger.genesisHash),
    ("operation", .str scope.operation),
    ("os_principal_attestation", .obj [
      ("actor_os_isolation_proven", .bool false), ("independent_trust_root", .bool false)]),
    ("receipt_type", .str "actor-capability-consumption"),
    ("run_id", scope.runId),
    ("schema_version", .int 2),
    ("signature", .str "c2lnbmF0dXJl"),
    ("task_attempt", scope.taskAttempt),
    ("task_id", scope.taskId)]

/-- An authority that grants everything. -/
def sampleAuthority : Authority where
  authorize scope := .ok (sampleReceipt scope)
  bound scope receipt h := by
    obtain rfl := Except.ok.inj h
    simp [receiptIsBound, sampleReceipt, Json.get, Json.get?, List.lookup, isBool]
    decide

/-- A token of 32 hexadecimal digits. -/
def sampleToken : Token := ⟨"00112233445566778899aabbccddeeff", by decide⟩

def sampleTime : Utc := ⟨1767225600⟩

def sampleBroker : Broker where
  config := ⟨sampleToken, "demo", "codex", sampleTime, 1800, 50 * 1024 * 1024⟩
  signer := ⟨sha256, hmacSha256 (List.replicate 32 0)⟩

/-- The workspace of `codex` with the preset agents. -/
def sampleStart : State :=
  let created := (⟨[], ∅, ∅, fun _ => none⟩ : State).apply sampleBroker
    { entry := some ⟨sampleTime, "codex", none, .initialized sampleBroker.config⟩ } .none
  let orchestrator : Agent := ⟨"codex", "orchestrator", "manual", none, sampleTime,
    ["tasks", "shared", "archive"], some ⟨"human-operator", "openai-codex", none, []⟩⟩
  (orchestrator :: presetAgents sampleTime).foldl (commitAgent sampleBroker sampleTime) created

theorem initialize_sample : initializeWorkspace sampleBroker sampleTime "human-operator"
    "openai-codex" true = .ok sampleStart := rfl

/-- A call without a fault, under a clock that ticks once a reading. -/
def sampleCall (op : Op) : Call := ⟨op, fun n => ⟨1767225600 + n⟩, sampleAuthority, .none⟩

/-- The arguments of `add_task` for a task of the preset worker. -/
def sampleTask (id : String) (prerequisites : List String) : NewTask :=
  ⟨id, "title", "", "antigravity", prerequisites, [], [], [], none⟩

def sampleAdd (id : String) (prerequisites : List String) : Call :=
  sampleCall (.addTask "codex" (sampleTask id prerequisites))

def sampleClaim (id : String) : Call :=
  sampleCall (.claim "antigravity" id 0 sampleToken sampleToken)

def sampleStartTask (id : String) : Call :=
  sampleCall (.start "antigravity" id sampleToken.text)

/-- A manifest with the given digest. -/
def sampleManifest (sha256 : Sha256Hex) : Manifest := ⟨"manifest.json", sha256, [], [], [], [], 1, 0, 0⟩

def sampleWork : Sha256Hex := ⟨Ledger.genesisHash, by decide⟩

def sampleEvidence : Sha256Hex :=
  ⟨"00112233445566778899aabbccddeeff00112233445566778899aabbccddeeff", by decide⟩

def sampleSubmit (id : String) : Call :=
  sampleCall (.submit "antigravity" id sampleToken.text (.ok (.null, sampleManifest sampleWork))
    (.ok .null))

/-- The orchestrator verifies what the preset worker has submitted. -/
def sampleVerify (id : String) : Call :=
  sampleCall (.verifyBegin "codex" id "accept" "checked"
    (some (.ok (sampleManifest sampleEvidence))) [sampleToken])

/-- A task on its way into verification. -/
def sampleTurnIn (id : String) : List Call :=
  [sampleAdd id [], sampleClaim id, sampleStartTask id, sampleSubmit id, sampleVerify id]

/-- What a trusted runner returns for a validation contract. -/
def sampleResult : RunnerResult where
  fields := trustedReceiptResultKeys.map fun key =>
    (key, if key = "validations" then .arr []
      else if key = "validation_contract_sha256" then .str sampleEvidence.text else .null)
  contract := by
    intro v hv
    obtain rfl : .str sampleEvidence.text = v := Option.some.inj hv
    exact ⟨sampleEvidence, rfl⟩

/-- All stages of the verification pass. -/
def sampleAccept (id : String) : Call :=
  sampleCall (.verifyEnd id (.ok sampleResult) (.ok []) (.ok .null))

def sampleRestate (id status : String) : Call :=
  sampleCall (.restateVerification "codex" id status "reproduced differently" none)

end Workspace
