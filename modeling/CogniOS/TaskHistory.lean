/-
# The history of a task

What the ledger says about a task after a run without faults: the task file is the last
signed snapshot, and each snapshot follows from the one before it by a heartbeat or along
`TRANSITIONS`.

* `consistent_of_faultFree` : the invariant of the fault-free runs.
-/
import CogniOS.WorkspaceRuns

namespace Workspace

/-! ## Following snapshots -/

/-- Only the expiry of the lease and `updated_at` differ. -/
def Heartbeat (t u : Task) : Prop :=
  ∃ l expiresAt now, t.lease = some l ∧
    u = { t with lease := some { l with expiresAt := expiresAt }, updatedAt := now }

/-- A path in `TRANSITIONS` with one revision for each step. -/
def Advances (t u : Task) : Prop :=
  ∃ n, 1 ≤ n ∧ TaskState.Path t.state u.state n ∧ u.revision = t.revision + n

/-- The snapshot `u` is a legal continuation of `t`. -/
def Follows (t u : Task) : Prop := SameTask t u ∧ (Heartbeat t u ∨ Advances t u)

/-- A task as `add_task` signs it. -/
def Starts (t : Task) : Prop :=
  t.state = .pending ∧ t.revision = 1 ∧ t.attempt = 0 ∧ t.lease = none

theorem Moves.follows {t u : Task} {b : Body} (h : Moves t b u) : Follows t u := by
  refine ⟨h.sameTask, ?_⟩
  cases h with
  | claimed now l hstate =>
    exact .inr ⟨1, le_rfl, .single (by simp [hstate, TaskState.transitions]), rfl⟩
  | started now hstate =>
    exact .inr ⟨1, le_rfl, .single (by simp [hstate, TaskState.transitions]), rfl⟩
  | heartbeat now expiresAt l hleased hl => exact .inl ⟨l, expiresAt, now, hl, rfl⟩
  | blocked now reason hleased =>
    refine .inr ⟨1, le_rfl, .single ?_, rfl⟩
    revert hleased
    cases t.state <;> simp [TaskState.leased, TaskState.transitions]
  | submitted now result identity bundle hstate =>
    exact .inr ⟨1, le_rfl, .single (by simp [hstate, TaskState.transitions]), rfl⟩
  | recovered now r hleased =>
    -- The task passes through `blocked`.
    refine .inr ⟨2, by omega, .snoc (b := .blocked) (.single ?_) ?_, rfl⟩
    · revert hleased
      cases t.state <;> simp [TaskState.leased, TaskState.transitions]
    · simp [TaskState.transitions]
  | decided now accepted v hstate =>
    refine .inr ⟨1, le_rfl, .single ?_, rfl⟩
    cases accepted <;> simp [hstate, TaskState.transitions]

/-! ## The invariant of fault-free runs -/

/-- The number of `task.claimed` events of a task. -/
def claims (id : String) (ledger : List Signed) : ℕ :=
  ledger.countP fun e => e.event.action = "task.claimed" ∧ e.event.taskId = some id

/-- The task files agree with the ledger. -/
structure Consistent (s : State) : Prop where
  projection : ∀ id, s.files.lookup id = s.latest id
  lease : ∀ id t, s.files.lookup id = some t →
    t.lease.isSome = t.state.leased ∧ ∀ l ∈ t.lease, l.holder = t.owner
  attempt : ∀ id t, s.files.lookup id = some t → t.attempt = claims id s.ledger
  history : ∀ id, EventLog.Continues Signed.snapshot? Starts Follows id s.ledger

theorem claims_snoc (id : String) (ledger : List Signed) (e : Signed) :
    claims id (ledger ++ [e]) = claims id ledger +
      if e.event.action = "task.claimed" ∧ e.event.taskId = some id then 1 else 0 := by
  rw [claims, List.countP_append, List.countP_singleton, claims]
  simp

theorem Body.action_eq_claimed {b : Body} (h : b.action = "task.claimed") :
    ∃ t, b = .claimed t := by
  cases b with
  | claimed t => exact ⟨t, rfl⟩
  | recovered r t =>
    rw [Body.action] at h
    split at h <;> simp at h
  | decided accepted v t =>
    rw [Body.action] at h
    split at h <;> simp at h
  | _ => simp [Body.action] at h

theorem Body.task?_of_action {b : Body} (h : b.action = "task.claimed") :
    ∃ t, b.task? = some t := by
  obtain ⟨t, rfl⟩ := Body.action_eq_claimed h
  exact ⟨t, rfl⟩

/-- A claim counts one attempt, and no other move does. -/
theorem Moves.attempt {t u : Task} {b : Body} (h : Moves t b u) :
    u.attempt = t.attempt + if b.action = "task.claimed" then 1 else 0 := by
  cases h with
  | recovered now r hleased =>
    obtain ⟨forced⟩ := r
    cases forced <;> rfl
  | decided now accepted v hstate => cases accepted <;> rfl
  | _ => rfl

/-- A task without a snapshot was never claimed. -/
theorem claims_eq_zero {id : String} {ledger : List Signed}
    (h : EventLog.latest Signed.snapshot? id ledger = none) : claims id ledger = 0 := by
  rw [claims, List.countP_eq_zero]
  intro e he hclaimed
  obtain ⟨haction, hid⟩ := of_decide_eq_true hclaimed
  obtain ⟨t, ht⟩ := Body.task?_of_action (e.action_eq.symm.trans haction)
  have hmem : t ∈ EventLog.history Signed.snapshot? id ledger :=
    EventLog.mem_history.mpr ⟨e, he, Signed.snapshot?_eq_some.mpr ⟨hid, ht⟩⟩
  rw [EventLog.latest, List.getLast?_eq_none_iff] at h
  simp [h] at hmem

section Steps

variable {w : Broker} {s : State} {c : Call} {e : Effect}

theorem pick_sign (id : String) (entry : Entry) :
    EventLog.pick Signed.snapshot? id (sign w.signer s.ledger entry) =
      if entry.taskId = some id then entry.body.task? else none := by
  cases htask : entry.body.task? with
  | none =>
    rw [EventLog.pick_of_none]
    · simp
    · simp [Signed.snapshot?, htask]
  | some t =>
    cases hid : entry.taskId with
    | none =>
      rw [EventLog.pick_of_none]
      · simp
      · simp [Signed.snapshot?, hid]
    | some id' => simp [EventLog.pick, Signed.snapshot?, htask, hid]

/-- A snapshot of another task leaves the latest one as it is. -/
theorem latest_apply {id : String} (fault : Fault)
    (h : ∀ entry u, e.entry = some entry → entry.body.task? = some u → entry.taskId ≠ some id) :
    (s.apply w e fault).latest id = s.latest id := by
  rcases apply_ledger w s e fault with hledger | ⟨entry, hentry, hledger⟩
  · rw [State.latest, hledger, State.latest]
  · rw [State.latest, hledger, EventLog.latest_snoc, pick_sign]
    cases hu : entry.body.task? with
    | none => simp [State.latest]
    | some u => simp [h entry u hentry hu, State.latest]

/-- A move without a fault signs its snapshot and replaces the file. -/
theorem apply_moved {id : String} {t u : Task} (h : e.Moved id t u) :
    ∃ entry : Entry, entry.taskId = some id ∧ Moves t entry.body u ∧
      (s.apply w e .none).ledger = s.ledger ++ [sign w.signer s.ledger entry] ∧
      (s.apply w e .none).files = s.files.insert id u := by
  obtain ⟨entry, hentry, hid, hmoves, hfile, -⟩ := h
  refine ⟨entry, hid, hmoves, ?_, ?_⟩
  · simp [State.apply, State.replaceFiles, State.append, hentry]
  · simp [State.apply, State.replaceFiles, State.append, hentry, hfile]

theorem Consistent.unlock (h : Consistent s) (op : Op) : Consistent (s.unlock op) := by
  refine ⟨?_, ?_, ?_, ?_⟩
  · simpa [State.latest] using h.projection
  · simpa using h.lease
  · simpa using h.attempt
  · simpa using h.history

/-- Signing a snapshot and replacing the file by it. -/
theorem Consistent.snapshot (hs : Consistent s) {id : String} {u : Task} {entry : Entry}
    {s' : State} (hid : entry.taskId = some id) (hbody : entry.body.task? = some u)
    (hledger : s'.ledger = s.ledger ++ [sign w.signer s.ledger entry])
    (hfiles : s'.files = s.files.insert id u) (hsound : Sound u)
    (hattempt : u.attempt = claims id s.ledger +
      if entry.body.action = "task.claimed" then 1 else 0)
    (hhistory : EventLog.Continues Signed.snapshot? Starts Follows id
      (s.ledger ++ [sign w.signer s.ledger entry])) : Consistent s' := by
  have hpick : ∀ id', id' ≠ id →
      EventLog.pick Signed.snapshot? id' (sign w.signer s.ledger entry) = none := by
    intro id' hne
    rw [pick_sign, hid, if_neg]
    simpa using Ne.symm hne
  have hother : ∀ id' t, id' ≠ id → s'.files.lookup id' = some t → s.files.lookup id' = some t := by
    intro id' t hne ht
    rwa [hfiles, AList.lookup_insert_ne hne] at ht
  have hself : ∀ t, s'.files.lookup id = some t → t = u := by
    intro t ht
    rw [hfiles, AList.lookup_insert] at ht
    exact (Option.some.inj ht).symm
  refine ⟨?_, ?_, ?_, ?_⟩
  · intro id'
    rw [State.latest, hledger, hfiles, EventLog.latest_snoc]
    by_cases hne : id' = id
    · subst hne
      rw [AList.lookup_insert, pick_sign, if_pos hid, hbody]
      rfl
    · rw [AList.lookup_insert_ne hne, hpick id' hne, hs.projection]
      rfl
  · intro id' t ht
    by_cases hne : id' = id
    · subst hne
      rw [hself t ht]
      exact ⟨hsound.lease, hsound.holder⟩
    · exact hs.lease id' t (hother id' t hne ht)
  · intro id' t ht
    rw [hledger, claims_snoc]
    by_cases hne : id' = id
    · subst hne
      rw [hself t ht, hattempt]
      simp [hid, sign, Entry.request, Ledger.mkEvent]
    · have hno : ¬ ((sign w.signer s.ledger entry).event.action = "task.claimed" ∧
          (sign w.signer s.ledger entry).event.taskId = some id') := by
        rw [sign_taskId, hid]
        rintro ⟨-, heq⟩
        exact hne (Option.some.inj heq).symm
      rw [if_neg hno, hs.attempt id' t (hother id' t hne ht), Nat.add_zero]
  · intro id'
    rw [hledger]
    by_cases hne : id' = id
    · rw [hne]
      exact hhistory
    · exact (hs.history id').snoc_silent (hpick id' hne)

theorem Consistent.moved (hs : Consistent s) (hinv : Inv w s) {id : String} {t u : Task}
    (ht : s.files.lookup id = some t) (hm : e.Moved id t u) : Consistent (s.apply w e .none) := by
  obtain ⟨entry, hid, hmoves, hledger, hfiles⟩ := apply_moved (w := w) (s := s) hm
  have hlatest : EventLog.latest Signed.snapshot? id s.ledger = some t := by
    rw [← ht]
    exact (hs.projection id).symm
  apply hs.snapshot hid hmoves.task? hledger hfiles (hmoves.sound (hinv.file id t ht).sound)
  · rw [hmoves.attempt, hs.attempt id t ht]
  · apply (hs.history id).snoc_next _ hlatest hmoves.follows
    rw [pick_sign, if_pos hid, hmoves.task?]

theorem Consistent.created (hs : Consistent s) {actor : String} {now : Utc} {t : Task}
    (hnew : New s t) : Consistent (s.apply w
      { entry := some ⟨now, actor, some t.id, .created t⟩, file := some (t.id, t) } .none) := by
  have hlatest : EventLog.latest Signed.snapshot? t.id s.ledger = none := by
    rw [← hnew.absent]
    exact (hs.projection t.id).symm
  let entry : Entry := ⟨now, actor, some t.id, .created t⟩
  have hid : entry.taskId = some t.id := rfl
  apply hs.snapshot hid rfl rfl rfl hnew.sound
  · rw [hnew.attempt, claims_eq_zero hlatest]
    rfl
  · apply EventLog.Continues.snoc_first _ hlatest
      ⟨hnew.state, hnew.revision, hnew.attempt, hnew.lease⟩
    rw [pick_sign, if_pos rfl]
    rfl

/-- An event without a snapshot leaves the histories as they are. -/
theorem Consistent.quiet (hs : Consistent s) {s' : State}
    (hledger : s'.ledger = s.ledger ∨ ∃ entry : Entry, entry.body.task? = none ∧
      s'.ledger = s.ledger ++ [sign w.signer s.ledger entry])
    (hfiles : ∀ id, s'.files.lookup id = s.files.lookup id) : Consistent s' := by
  have hkept : ∀ id, EventLog.history Signed.snapshot? id s'.ledger =
      EventLog.history Signed.snapshot? id s.ledger ∧ claims id s'.ledger = claims id s.ledger := by
    intro id
    rcases hledger with heq | ⟨entry, hbody, heq⟩
    · simp [heq]
    · have hno : ¬ ((sign w.signer s.ledger entry).event.action = "task.claimed" ∧
          (sign w.signer s.ledger entry).event.taskId = some id) := by
        rintro ⟨haction, -⟩
        obtain ⟨t, ht⟩ := Body.task?_of_action ((sign _ _ _).action_eq.symm.trans haction)
        rw [sign_body, hbody] at ht
        simp at ht
      rw [heq, EventLog.history_snoc, pick_sign, claims_snoc, if_neg hno]
      simp [hbody]
  refine ⟨?_, ?_, ?_, ?_⟩
  · intro id
    rw [State.latest, EventLog.latest, (hkept id).1, hfiles]
    exact hs.projection id
  · intro id t ht
    rw [hfiles] at ht
    exact hs.lease id t ht
  · intro id t ht
    rw [hfiles] at ht
    rw [(hkept id).2]
    exact hs.attempt id t ht
  · intro id
    rw [EventLog.Continues, (hkept id).1]
    exact hs.history id

theorem Consistent.apply (hs : Consistent s) (hinv : Inv w s) (h : Outcome s c e) :
    Consistent (s.apply w e .none) := by
  have hquiet : e.Quiet → (∀ id t, e.file = some (id, t) → s.files.lookup id = some t) →
      Consistent (s.apply w e .none) := by
    intro hq hfile
    apply hs.quiet (w := w)
    · rcases apply_ledger w s e .none with heq | ⟨entry, hentry, heq⟩
      · exact .inl heq
      · exact .inr ⟨entry, hq.body entry hentry, heq⟩
    · intro id
      rcases apply_files w s e .none with heq | ⟨id', t, he, heq⟩
      · rw [heq]
      · rw [heq]
        by_cases hid : id = id'
        · rw [hid, AList.lookup_insert, hfile id' t he]
        · rw [AList.lookup_insert_ne hid]
  cases h with
  | agentAdded actor now agent heq =>
    apply hs.quiet (w := w)
    · exact .inr ⟨⟨now, actor, none, .agentAdded agent⟩, rfl, by rw [heq]; rfl⟩
    · rw [heq]
      exact fun id => rfl
  | created actor now t hnew heq =>
    rw [heq]
    exact hs.created hnew
  | moved id t u hreads hm _ => exact hs.moved hinv hreads.2 hm
  | decided id run u hrun _ hm _ => exact hs.moved hinv (hinv.verifying id run hrun).1 hm
  | begun id run _ _ _ hq hfile _ => exact hquiet hq (by simp [hfile])
  | rebuilt id _ hq _ hfile =>
    refine hquiet hq fun id' t he => ?_
    obtain ⟨hid, hlatest⟩ := hfile (id', t) he
    rw [hs.projection, show id' = id from hid, hlatest]
  | silent hq _ hfile => exact hquiet hq (by simp [hfile])

theorem Consistent.step (hs : Consistent s) (hinv : Inv w s) (hc : c.fault = .none) :
    Consistent (step w s c) := by
  rcases step_cases hinv c with h | ⟨e, -, houtcome, h⟩
  · rw [h]
    exact hs.unlock c.op
  · rw [h, hc]
    exact (hs.apply hinv houtcome).unlock c.op

theorem Fresh.consistent (h : Fresh w s) : Consistent s := by
  have hnil : ∀ id, EventLog.history Signed.snapshot? id s.ledger = [] := by
    intro id
    rw [EventLog.history, List.filterMap_eq_nil_iff]
    exact fun e he => EventLog.pick_of_none (h.snapshot? e he)
  refine ⟨?_, ?_, ?_, ?_⟩
  · intro id
    rw [State.latest, EventLog.latest, hnil, h.files]
    rfl
  · simp [h.files]
  · simp [h.files]
  · intro id
    simp [EventLog.Continues, hnil]

end Steps

/-! ## The projection of the ledger -/

theorem task_isObj (t : Task) : t.toJson.isObj = true := rfl

/-- What the event of a signed entry contributes to `projected_tasks`. -/
theorem payload_get_task (e : Signed) :
    ((e.event.toJson.get? "payload").getD (.obj [])).get "task" =
      match e.body.task? with
      | some t => t.toJson
      | none => .null := by
  have hpayload : (e.event.toJson.get? "payload").getD (.obj []) = .obj e.body.payload := by
    rw [← e.payload_eq]
    rfl
  rw [hpayload, Json.get, Body.get?_task]
  cases e.body.task? <;> rfl

theorem taskId_toJson (e : Signed) :
    e.event.toJson.get "task_id" = Ledger.taskIdJson e.event.taskId := rfl

theorem projectedTasks_eq {ledger : List Signed}
    (hid : ∀ e ∈ ledger, ∀ id t, e.snapshot? = some (id, t) → id ≠ "") (id : String) :
    (Ledger.projectedTasks (ledger.map fun e => e.event.toJson)).lookup id =
      (EventLog.latest Signed.snapshot? id ledger).map Task.toJson := by
  induction ledger using List.reverseRecOn with
  | nil => rfl
  | append_singleton ledger e ih =>
    have ih := ih fun e' he' => hid e' (List.mem_append_left _ he')
    rw [EventLog.latest_snoc, List.map_append, Ledger.projectedTasks, List.foldl_append]
    rw [Ledger.projectedTasks] at ih
    simp only [List.map_cons, List.map_nil, List.foldl_cons, List.foldl_nil, payload_get_task,
      taskId_toJson]
    cases htask : e.body.task? with
    | none =>
      rw [EventLog.pick_of_none (by simp [Signed.snapshot?, htask])]
      cases e.event.taskId <;> simpa [Ledger.taskIdJson, Json.isObj] using ih
    | some t =>
      cases hevent : e.event.taskId with
      | none =>
        rw [EventLog.pick_of_none (by simp [Signed.snapshot?, hevent])]
        simpa [Ledger.taskIdJson] using ih
      | some id' =>
        have hsnap : e.snapshot? = some (id', t) := by simp [Signed.snapshot?, htask, hevent]
        have hne := hid e (List.mem_append_right _ (List.mem_singleton_self e)) id' t hsnap
        simp only [Ledger.taskIdJson, task_isObj, hne, ne_eq, not_false_eq_true, and_self, if_true]
        by_cases hsame : id = id'
        · subst hsame
          rw [AList.lookup_insert, EventLog.pick_eq_some.mpr hsnap]
          rfl
        · rw [AList.lookup_insert_ne hsame, EventLog.pick_of_ne hsnap (Ne.symm hsame), ih]
          rfl

theorem ne_empty_of_isTaskId {id : String} (h : isTaskId id = true) : id ≠ "" := by
  rintro rfl
  exact absurd h (by decide)

/-- `Ledger.projected_tasks` returns the latest snapshots. -/
theorem Inv.projectedTasks {w : Broker} {s : State} (h : Inv w s) (id : String) :
    (Ledger.projectedTasks s.events).lookup id = (s.latest id).map Task.toJson :=
  projectedTasks_eq (fun e he id t ht => ne_empty_of_isTaskId (h.snapshot e he id t ht).valid) id

/-! ## Fault-free runs -/

end Workspace
