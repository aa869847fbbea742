/-
# Lost writes of task files

An operation signs its event before it replaces the task file, so that a lost write leaves
the file behind the ledger.  Only `recover_lease` compares the two.  The other operations
are fail-closed exactly as long as no call that passes its own checks meets such a file.

* `failClosed_iff` : the runs in which every step is fail-closed.
-/
import CogniOS.TaskHistory

open Independence Runs

namespace Workspace

/-! ## The checks of the operations -/

/-- The call raises no exception. -/
def Passes {α : Type} (x : Except CogniError α) : Prop := ∃ a, x = .ok a

section Passes

variable {α β : Type}

@[simp] theorem passes_ok (a : α) : Passes (.ok a : Except CogniError α) := ⟨a, rfl⟩

@[simp] theorem not_passes_error (e : CogniError) : ¬ Passes (.error e : Except CogniError α) := by
  rintro ⟨a, ha⟩
  simp at ha

end Passes

/-- `transition` accepts the target. -/
structure CanMove (t : Task) (target : TaskState) : Prop where
  edge : target ∈ t.state.transitions
  id : isTaskId t.id = true
  owner : isAgentId t.owner = true
  title : strip t.title ≠ ""

/-- Updates that leave alone what `validate_task` looks at. -/
def Keeps (updates : Task → Task) : Prop :=
  ∀ u, (updates u).id = u.id ∧ (updates u).owner = u.owner ∧ (updates u).title = u.title ∧
    (updates u).revision = u.revision

theorem CanMove.of_transition {now : Utc} {t u : Task} {target : TaskState}
    {updates : Task → Task} (h : transition now t target updates = .ok u)
    (hupdates : Keeps updates) : CanMove t target := by
  obtain ⟨hid, howner, htitle, -⟩ :=
    hupdates { t with state := target, revision := t.revision + 1, updatedAt := now }
  simp only [transition, validateTask, validateTaskId, validateAgentId, bind_eq_ok,
    require_eq_ok, hid, howner, htitle] at h
  obtain ⟨_, hedge, _, ⟨_, hid, _, howner, _, htitle, -⟩, -⟩ := h
  exact ⟨hedge, hid, howner, htitle⟩

theorem CanMove.transition {t : Task} {target : TaskState} (h : CanMove t target) (now : Utc)
    (updates : Task → Task) (hupdates : Keeps updates) :
    Workspace.transition now t target updates =
      .ok (updates { t with state := target, revision := t.revision + 1, updatedAt := now }) := by
  obtain ⟨hid, howner, htitle, hrevision⟩ :=
    hupdates { t with state := target, revision := t.revision + 1, updatedAt := now }
  simp [Workspace.transition, validateTask, validateTaskId, validateAgentId, require, hid, howner,
    htitle, hrevision, h.edge, h.id, h.owner, h.title, bind, Except.bind, pure, Except.pure]

namespace State

/-- A task that the actor may claim: it owns the task, and the file is pending and satisfied. -/
def Fits (s : State) (actor : String) (t : Task) : Prop :=
  t.owner = actor ∧ t.state = .pending ∧ s.unsatisfiedPrerequisites t = []

instance (s : State) (actor : String) : DecidablePred (s.Fits actor) := fun _ =>
  inferInstanceAs (Decidable (_ ∧ _ ∧ _))

/-- The task that a claim takes: the given one, or the first one that fits. -/
def claimable (s : State) (actor taskId : String) : Option Task :=
  if taskId ≠ "" then (s.files.lookup taskId).filter (s.Fits actor)
  else s.listTasks.find? (s.Fits actor)

end State

/-- The task that an operation is about. -/
def Op.subject? (op : Op) (s : State) : Option String :=
  match op with
  | .addTask _ a => some a.taskId
  | .claim actor taskId _ _ _ => (s.claimable actor taskId).map (·.id)
  | .recoverLease _ taskId _ _ => some taskId
  | .start _ taskId _ => some taskId
  | .heartbeat _ taskId _ => some taskId
  | .block _ taskId _ _ => some taskId
  | .submit _ taskId _ _ _ => some taskId
  | .verifyBegin _ taskId _ _ _ _ => some taskId
  | .verifyEnd taskId _ _ _ => some taskId
  | .verifyCrash taskId => some taskId
  | .addAgent _ _ => none
  | .reconcileVerification _ _ _ => none
  | .restateVerification _ _ _ _ _ => none

/-- The operations that take the task file as it is. -/
def Op.blind : Op → Bool
  | .addTask _ _ => true
  | .claim _ _ _ _ _ => true
  | .start _ _ _ => true
  | .heartbeat _ _ _ => true
  | .block _ _ _ _ => true
  | .submit _ _ _ _ _ => true
  | .verifyBegin _ _ _ _ _ _ => true
  | _ => false

/-- The checks that a call makes on a task, without a look at the ledger's snapshot of it. -/
inductive Accepts (w : Broker) (s : State) (c : Call) : String → Prop
  | addTask {actor : String} {a : NewTask} : c.op = .addTask actor a →
      actor = w.config.orchestrator → Passes (authorize c actor "task.add" .null .null .null) →
      isTaskId a.taskId = true → s.files.lookup a.taskId = none → Passes (s.getAgent a.owner) →
      (∀ p ∈ a.prerequisites, isTaskId p = true ∧ (s.files.lookup p).isSome = true) →
      a.taskId ∉ a.prerequisites → a.prerequisites.Nodup →
      Passes (newTask (c.clock 0) actor a) → Accepts w s c a.taskId
  | claim {actor taskId : String} {seconds : ℤ} {token session : Token} {t : Task} :
      c.op = .claim actor taskId seconds token session → Passes (s.getAgent actor) →
      s.claimable actor taskId = some t →
      Passes (leaseExpiry (if seconds = 0 then w.config.leaseSeconds else seconds) (c.clock 0)) →
      CanMove t .claimed → Accepts w s c t.id
  | start {actor taskId token : String} {t : Task} : c.op = .start actor taskId token →
      leasedTask w s c actor taskId token = .ok t → CanMove t .running → Accepts w s c taskId
  | heartbeat {actor taskId token : String} {t : Task} {l : Lease} :
      c.op = .heartbeat actor taskId token → leasedTask w s c actor taskId token = .ok t →
      t.state.leased = true → t.lease = some l →
      Passes (leaseExpiry l.durationSeconds (c.clock 1)) → Accepts w s c taskId
  | block {actor taskId token reason : String} {t : Task} :
      c.op = .block actor taskId token reason → leasedTask w s c actor taskId token = .ok t →
      CanMove t .blocked → Accepts w s c taskId
  | submit {actor taskId token : String} {validated : Except CogniError (Json × Manifest)}
      {bundle : Except CogniError Json} {t : Task} {agent : Agent} :
      c.op = .submit actor taskId token validated bundle →
      leasedTask w s c actor taskId token = .ok t → Passes validated →
      s.getAgent actor = .ok agent → Passes (identitySnapshot actor agent.identity) →
      CanMove t .submitted → Passes bundle → Accepts w s c taskId
  | verify {actor taskId decision note : String} {manifest : Manifest} {candidates : List Token}
      {agent : Agent} {t : Task} {identity : Snapshot} {independence : Evaluation}
      {result : Submission} {runId : Token} :
      c.op = .verifyBegin actor taskId decision note (some (.ok manifest)) candidates →
      decision = "accept" ∨ decision = "reject" → strip note ≠ "" →
      s.getAgent actor = .ok agent → agent.role ∈ ["verifier", "orchestrator"] →
      s.Reads taskId t → t.state = .submitted →
      identitySnapshot actor agent.identity = .ok (some identity) →
      evaluateIndependence (submittedIdentity taskId s.ledger) (some identity) =
        .ok independence →
      independence.independent = true → t.result = some result →
      result.manifest.sha256.text ≠ manifest.sha256.text →
      ((candidates.take 8).find? fun token => .str token.text ∉ usedRunIds s.ledger) =
        some runId →
      Passes (authorize c actor "task.verify" (.str taskId) (.str runId.text)
        (.int t.attempt)) →
      Accepts w s c taskId

section Checks

variable {w : Broker} {s : State} {c : Call} {e : Effect}

/-- The file of a task that is not locked can be read. -/
theorem lockTask_of_reads (hs : Inv w s) {id : String} {t : Task} (h : s.Reads id t) :
    s.lockTask id = .ok () ∧ s.getTask id = .ok t := by
  have hvalid := (hs.reads h).valid
  constructor
  · simp [State.lockTask, validateTaskId, require, hvalid, h.1, bind, Except.bind]
  · simp [State.getTask, validateTaskId, require, hvalid, h.2, orRaise, bind, Except.bind]

/-- A pending file is not locked. -/
theorem Inv.reads_pending (hs : Inv w s) {t : Task} (ht : s.files.lookup t.id = some t)
    (hp : t.state = .pending) : s.Reads t.id t := by
  refine ⟨?_, ht⟩
  by_contra hlocked
  obtain ⟨run, hrun⟩ := Option.ne_none_iff_exists'.mp hlocked
  obtain ⟨hfile, hstate⟩ := hs.verifying t.id run hrun
  obtain rfl := Option.some.inj (ht.symm.trans hfile)
  simp [hp] at hstate

/-- The loop of `claim` takes the first candidate that fits. -/
theorem claimFrom_iff (hs : Inv w s) {actor : String} {specific : Bool} {duration : ℤ}
    {token session : Token} {candidates : List Task}
    (hfiles : ∀ t ∈ candidates, s.files.lookup t.id = some t)
    (hspecific : specific = true → candidates.length ≤ 1) :
    claimFrom w s c actor specific duration token session candidates = .ok e ↔
      ∃ t, candidates.find? (s.Fits actor) = some t ∧
        claimTask w c actor t.id t duration token session = .ok e := by
  induction candidates with
  | nil => simp [claimFrom]
  | cons t rest ih =>
    have ih := ih (fun u hu => hfiles u (List.mem_cons_of_mem _ hu)) fun hone => by
      have := hspecific hone
      simp only [List.length_cons] at this
      omega
    rw [claimFrom, List.find?_cons]
    split
    case isTrue hskip =>
      have hno : ¬ s.Fits actor t := by
        rintro ⟨howner, hpending, -⟩
        tauto
      simpa [hno] using ih
    case isFalse htake =>
      push Not at htake
      obtain ⟨howner, hpending⟩ := htake
      have hreads := hs.reads_pending (hfiles t List.mem_cons_self) hpending
      obtain ⟨hlock, hget⟩ := lockTask_of_reads hs hreads
      simp only [hlock, hget, bind, Except.bind]
      rw [if_neg (not_not.mpr hpending)]
      by_cases hsatisfied : s.unsatisfiedPrerequisites t = []
      · have hfits : s.Fits actor t := ⟨howner, hpending, hsatisfied⟩
        simp [hsatisfied, hfits]
      · have hno : ¬ s.Fits actor t := fun h => hsatisfied h.2.2
        rw [if_neg hsatisfied]
        cases hone : specific with
        | false => simpa [hno, hone] using ih
        | true =>
          -- The given task is the only candidate.
          have hnil : rest = [] := by
            have := hspecific hone
            simpa using this
          simp [hno, hnil]

theorem mem_listTasks_lookup (hs : Inv w s) {t : Task} (ht : t ∈ s.listTasks) :
    s.files.lookup t.id = some t := by
  obtain ⟨id, hid⟩ := mem_listTasks ht
  rwa [hs.keyed id t hid]

theorem passes_claimTask {actor taskId : String} {t : Task} {duration : ℤ}
    {token session : Token} :
    Passes (claimTask w c actor taskId t duration token session) ↔
      Passes (leaseExpiry duration (c.clock 0)) ∧ CanMove t .claimed := by
  constructor
  · rintro ⟨e, h⟩
    simp only [claimTask, bind_eq_ok] at h
    obtain ⟨expiresAt, hexpires, u, hu, -⟩ := h
    exact ⟨⟨expiresAt, hexpires⟩, .of_transition hu fun _ => ⟨rfl, rfl, rfl, rfl⟩⟩
  · rintro ⟨⟨expiresAt, hexpires⟩, hmove⟩
    have hu := fun lease => hmove.transition (c.clock 1)
      (fun u => { u with attempt := t.attempt + 1, lease := some lease })
      fun _ => ⟨rfl, rfl, rfl, rfl⟩
    simp only [claimTask, hexpires, hu, bind, Except.bind]
    exact passes_ok _

/-- **`claim`** passes on the task that may be claimed. -/
theorem claim_iff (hs : Inv w s) {actor taskId : String} {seconds : ℤ} {token session : Token} :
    claim w s c actor taskId seconds token session = .ok e ↔ Passes (s.getAgent actor) ∧
      ∃ t, s.claimable actor taskId = some t ∧ claimTask w c actor t.id t
        (if seconds = 0 then w.config.leaseSeconds else seconds) token session = .ok e := by
  have hbody : ∀ agent, s.getAgent actor = .ok agent →
      (claim w s c actor taskId seconds token session = .ok e ↔
        ∃ t, s.claimable actor taskId = some t ∧ claimTask w c actor t.id t
          (if seconds = 0 then w.config.leaseSeconds else seconds) token session = .ok e) := by
    intro agent hagent
    rw [claim, hagent, State.claimable]
    show (if taskId ≠ "" then _ else _) = _ ↔ _
    by_cases hone : taskId ≠ ""
    · rw [if_pos hone, if_pos hone]
      cases hfile : s.files.lookup taskId with
      | none =>
        have hget : ∀ t, s.getTask taskId ≠ .ok t := by
          intro t ht
          simp [getTask_eq_ok ht] at hfile
        simp [bind_eq_ok, hget]
      | some t =>
        obtain rfl := hs.keyed taskId t hfile
        have hget : s.getTask t.id = .ok t := by
          simp [State.getTask, validateTaskId, require, (hs.file t.id t hfile).valid, hfile,
            orRaise, bind, Except.bind]
        rw [hget]
        show claimFrom w s c actor true _ token session [t] = .ok e ↔ _
        rw [claimFrom_iff hs (by simpa using hfile) (by simp)]
        rw [List.find?_singleton]
        rfl
    · rw [if_neg hone, if_neg hone]
      exact claimFrom_iff hs (fun t ht => mem_listTasks_lookup hs ht) (by simp)
  constructor
  · intro h
    obtain ⟨agent, hagent, -⟩ := bind_eq_ok.mp h
    exact ⟨⟨agent, hagent⟩, (hbody agent hagent).mp h⟩
  · rintro ⟨⟨agent, hagent⟩, h⟩
    exact (hbody agent hagent).mpr h

/-- A call that passes has its checks passed, and signs an event of its task. -/
theorem accepts_of_checkedEffect (hs : Inv w s) (h : checkedEffect w s c = .ok e)
    (hblind : c.op.blind = true) :
    ∃ id entry, c.op.subject? s = some id ∧ Accepts w s c id ∧ e.entry = some entry ∧
      entry.taskId = some id := by
  rw [checkedEffect] at h
  cases hop : c.op with
  | addTask actor a =>
    simp only [hop] at h
    obtain ⟨t, hid, -, rfl⟩ := addTask_eq_ok h
    refine ⟨a.taskId, _, rfl, ?_, rfl, congrArg some hid⟩
    simp only [addTask, bind_eq_ok, require_eq_ok, validateTaskId] at h
    obtain ⟨_, hactor, receipt, hreceipt, _, hvalid, _, habsent, agent, hagent, _, hforM, _,
      hirrefl, _, hnodup, _, hmissing, t', ht, -⟩ := h
    refine .addTask hop hactor ⟨receipt, hreceipt⟩ hvalid (Option.isNone_iff_eq_none.mp habsent)
      ⟨agent, hagent⟩ ?_ hirrefl hnodup ⟨t', ht⟩
    intro p hp
    have hnot := List.filter_eq_nil_iff.mp hmissing p hp
    exact ⟨require_eq_ok.mp (forM_eq_ok hforM p hp), by simpa [Option.isSome_iff_ne_none] using hnot⟩
  | claim actor taskId seconds token session =>
    simp only [hop] at h
    obtain ⟨hagent, t, ht, hclaim⟩ := (claim_iff hs).mp h
    obtain ⟨hexpires, hmove⟩ := passes_claimTask.mp ⟨e, hclaim⟩
    have haccepts : Accepts w s c t.id := .claim hop hagent ht hexpires hmove
    simp only [claimTask, bind_eq_ok] at hclaim
    obtain ⟨expiresAt, -, u, -, hclaim⟩ := hclaim
    obtain rfl := Except.ok.inj hclaim
    refine ⟨t.id, _, ?_, haccepts, rfl, rfl⟩
    rw [Op.subject?, ht]
    rfl
  | start actor taskId token =>
    simp only [hop, start, bind_eq_ok] at h
    obtain ⟨t, ht, u, hu, h⟩ := h
    obtain rfl := Except.ok.inj h
    have hmove : CanMove t .running := .of_transition hu fun _ => ⟨rfl, rfl, rfl, rfl⟩
    exact ⟨taskId, _, rfl, .start hop ht hmove, rfl, rfl⟩
  | heartbeat actor taskId token =>
    simp only [hop, heartbeat, bind_eq_ok, require_eq_ok, orRaise_eq_ok] at h
    obtain ⟨t, ht, _, hleased, l, hl, expiresAt, hexpires, h⟩ := h
    obtain rfl := Except.ok.inj h
    exact ⟨taskId, _, rfl, .heartbeat hop ht hleased hl ⟨expiresAt, hexpires⟩, rfl, rfl⟩
  | block actor taskId token reason =>
    simp only [hop, block, bind_eq_ok] at h
    obtain ⟨t, ht, u, hu, h⟩ := h
    obtain rfl := Except.ok.inj h
    have hmove : CanMove t .blocked := .of_transition hu fun _ => ⟨rfl, rfl, rfl, rfl⟩
    exact ⟨taskId, _, rfl, .block hop ht hmove, rfl, rfl⟩
  | submit actor taskId token validated bundle =>
    simp only [hop, submit, bind_eq_ok] at h
    obtain ⟨t, ht, ⟨report, manifest⟩, hvalidated, agent, hagent, identity, hidentity, u, hu,
      document, hbundle, h⟩ := h
    obtain rfl := Except.ok.inj h
    have hmove : CanMove t .submitted := .of_transition hu fun _ => ⟨rfl, rfl, rfl, rfl⟩
    exact ⟨taskId, _, rfl, .submit hop ht ⟨_, hvalidated⟩ hagent ⟨_, hidentity⟩ hmove
      ⟨document, hbundle⟩, rfl, rfl⟩
  | verifyBegin actor taskId decision note evidence candidates =>
    simp only [hop, verifyBegin, bind_eq_ok, require_eq_ok, orRaise_eq_ok] at h
    obtain ⟨_, hdecision, _, hnote, evidence', hevidence, agent, hagent, _, hrole, _, hlock, t, ht,
      _, hstate, identity?, hidentity?, ledger, hledger, independence, hindependence, _,
      hindependent, identity, hidentity, manifest, hmanifest, result, hresult, _, hdiffers, runId,
      hrunId, receipt, hreceipt, h⟩ := h
    obtain rfl := Except.ok.inj h
    obtain ⟨rfl, -⟩ := readVerified_eq_ok hledger
    subst hmanifest hevidence hidentity
    exact ⟨taskId, _, rfl, .verify hop hdecision hnote hagent hrole
      ⟨lockTask_eq_ok hlock, getTask_eq_ok ht⟩ hstate hidentity? hindependence hindependent hresult
      hdiffers hrunId ⟨receipt, hreceipt⟩, rfl, rfl⟩
  | _ => simp [hop, Op.blind] at hblind

end Checks

/-! ## Failing closed -/

/-- Where the checks that the call makes pass, and nothing keeps it from signing, the task
file is the latest signed snapshot. -/
def ActsOnSigned (w : Broker) (s : State) (c : Call) : Prop :=
  ∀ id, Accepts w s c id → s.Readable → c.fault ≠ .append → s.files.lookup id = s.latest id

/-- The invariant, and a verification holds the signed snapshot of its task. -/
structure Held (w : Broker) (s : State) : Prop extends Inv w s where
  latest : ∀ id run, s.verifying id = some run → s.latest id = some run.task

section Steps

variable {w : Broker} {s : State} {c : Call} {e : Effect}

theorem Fresh.held (h : Fresh w s) : Held w s := by
  refine ⟨h.inv, ?_⟩
  simp [h.verifying]

/-- A call that signs something could read the ledger. -/
theorem readable_of_effect (h : effect w s c = .ok e) {entry : Entry}
    (hentry : e.entry = some entry) : s.Readable := by
  rcases (checkedEffect_of_effect h).2 with hnone | hread
  · simp [hentry] at hnone
  · exact hread

/-- The task of a call that passes is in step with the ledger. -/
theorem Held.signed_of_effect (hs : Held w s) (hacts : ActsOnSigned w s c)
    (h : effect w s c = .ok e) (hfault : c.fault ≠ .append) {id : String}
    (hid : c.op.subject? s = some id) : s.files.lookup id = s.latest id := by
  have hchecked := (checkedEffect_of_effect h).1
  by_cases hblind : c.op.blind = true
  · obtain ⟨id', entry, hid', haccepts, hentry, -⟩ :=
      accepts_of_checkedEffect hs.toInv hchecked hblind
    obtain rfl : id' = id := Option.some.inj (hid'.symm.trans hid)
    exact hacts id' haccepts (readable_of_effect h hentry) hfault
  · rw [checkedEffect] at hchecked
    cases hop : c.op with
    | recoverLease actor taskId reason force =>
      simp only [hop] at hchecked hid
      obtain rfl : taskId = id := Option.some.inj hid
      obtain ⟨t, u, hreads, -, -, hlatest⟩ := recoverLease_moved hchecked
      rw [hreads.2, hlatest]
    | verifyEnd taskId runner attestation archive =>
      simp only [hop] at hchecked hid
      obtain rfl : taskId = id := Option.some.inj hid
      obtain ⟨run, hrun, -⟩ := verifyEnd_eq_ok hchecked
      rw [(hs.verifying taskId run hrun).1, hs.latest taskId run hrun]
    | verifyCrash taskId => simp [hop] at hchecked
    | addAgent actor a => simp [hop, Op.subject?] at hid
    | reconcileVerification actor taskId runId => simp [hop, Op.subject?] at hid
    | restateVerification actor taskId status reason n => simp [hop, Op.subject?] at hid
    | _ => simp [hop, Op.blind] at hblind

/-- The snapshot that a call signs follows the file that it started from. -/
theorem Outcome.follows (hs : Inv w s) (h : Outcome s c e) {entry : Entry}
    (hentry : e.entry = some entry) {id : String} (hid : entry.taskId = some id) {u : Task}
    (hu : entry.body.task? = some u) :
    s.files.lookup id = none ∨ ∃ t, s.files.lookup id = some t ∧ Follows t u := by
  have hmoved : ∀ {id' : String} {t u' : Task}, s.files.lookup id' = some t → e.Moved id' t u' →
      s.files.lookup id = none ∨ ∃ t, s.files.lookup id = some t ∧ Follows t u := by
    rintro id' t u' ht ⟨entry', hentry', hid', hmoves, -⟩
    obtain rfl : entry' = entry := Option.some.inj (hentry'.symm.trans hentry)
    obtain rfl : id' = id := Option.some.inj (hid'.symm.trans hid)
    obtain rfl : u' = u := Option.some.inj (hmoves.task?.symm.trans hu)
    exact .inr ⟨t, ht, hmoves.follows⟩
  have hquiet : ¬ e.Quiet := by
    intro hquiet
    rw [hquiet.body entry hentry] at hu
    simp at hu
  cases h with
  | agentAdded actor now agent heq =>
    rw [heq] at hentry
    obtain rfl := Option.some.inj hentry
    simp [Body.task?] at hu
  | created actor now t hnew heq =>
    rw [heq] at hentry
    obtain rfl := Option.some.inj hentry
    obtain rfl : t.id = id := Option.some.inj hid
    exact .inl hnew.absent
  | moved id' t u' hreads hm _ => exact hmoved hreads.2 hm
  | decided id' run u' hrun _ hm _ => exact hmoved (hs.verifying id' run hrun).1 hm
  | begun id' run _ _ _ hq _ _ => exact absurd hq hquiet
  | rebuilt id' _ hq _ _ => exact absurd hq hquiet
  | silent hq _ _ => exact absurd hq hquiet

theorem subject_of_begins {id : String} (h : c.op.begins id) : c.op.subject? s = some id := by
  cases hop : c.op with
  | verifyBegin actor taskId decision note evidence candidates =>
    rw [hop] at h
    exact congrArg some h
  | _ => simp [hop, Op.begins] at h

/-- What a verification holds stays the signed snapshot while it is at work. -/
theorem Held.latest_apply (hs : Held w s) (hacts : ActsOnSigned w s c)
    (he : effect w s c = .ok e) (h : Outcome s c e) {id : String} {run : VerifyRun}
    (hrun : ((s.apply w e c.fault).unlock c.op).verifying id = some run) :
    (s.apply w e c.fault).latest id = some run.task := by
  have hlock := verifying_of_unlock hrun
  have hkept : s.verifying id = some run → (∀ entry u, e.entry = some entry →
      entry.body.task? = some u → entry.taskId ≠ some id) →
      (s.apply w e c.fault).latest id = some run.task := by
    intro hold hother
    rw [Workspace.latest_apply c.fault hother]
    exact hs.latest id run hold
  have hquiet : e.Quiet → ∀ entry u, e.entry = some entry → entry.body.task? = some u →
      entry.taskId ≠ some id := by
    intro hq entry u hentry hu
    rw [hq.body entry hentry] at hu
    simp at hu
  have hmoved : ∀ {id' : String} {t u : Task}, e.Moved id' t u → id' ≠ id →
      ∀ entry u, e.entry = some entry → entry.body.task? = some u → entry.taskId ≠ some id := by
    rintro id' t u ⟨entry', hentry', hid', -⟩ hne entry u' hentry - htask
    obtain rfl : entry' = entry := Option.some.inj (hentry'.symm.trans hentry)
    exact hne (Option.some.inj (hid'.symm.trans htask))
  have hsame : e.verifying = none → s.verifying id = some run := by
    intro hnone
    rcases apply_verifying w s e c.fault with heq | ⟨id', run', hrun', -⟩
    · rwa [heq] at hlock
    · simp [hnone] at hrun'
  cases h with
  | agentAdded actor now agent heq =>
    refine hkept (hsame (by rw [heq])) fun entry u hentry hu => ?_
    rw [heq] at hentry
    obtain rfl := Option.some.inj hentry
    simp [Body.task?] at hu
  | created actor now t hnew heq =>
    have hold := hsame (by rw [heq])
    refine hkept hold fun entry u hentry _ htask => ?_
    rw [heq] at hentry
    obtain rfl := Option.some.inj hentry
    obtain rfl : t.id = id := Option.some.inj htask
    -- The file of a new task is absent, that of a task in verification is there.
    have hfile := (hs.verifying t.id run hold).1
    simp [hnew.absent] at hfile
  | moved id' t u hreads hm _ =>
    have hold := hsame hm.choose_spec.2.2.2.2.2
    refine hkept hold (hmoved hm ?_)
    rintro rfl
    simp [hreads.1] at hold
  | begun id' run' hbegins hreads hstate hq _ hverifying =>
    rcases apply_verifying w s e c.fault with heq | ⟨id'', run'', hrun'', heq⟩
    · rw [heq] at hlock
      exact hkept hlock (hquiet hq)
    · rw [hverifying, Option.some.injEq, Prod.mk.injEq] at hrun''
      obtain ⟨rfl, rfl⟩ := hrun''
      rw [heq] at hlock
      by_cases hid : id = id'
      · subst hid
        obtain rfl : run' = run := by simpa using hlock
        rw [Workspace.latest_apply c.fault (hquiet hq)]
        have hfault : c.fault ≠ .append := by
          intro hfault
          have hold := verifying_of_unlock hrun
          rw [hfault] at hold
          simp [State.apply, hreads.1] at hold
        rw [← hs.signed_of_effect hacts he hfault (subject_of_begins hbegins)]
        exact hreads.2
      · exact hkept (by simpa [hid] using hlock) (hquiet hq)
  | decided id' run' u hrun' hfree hm _ =>
    refine hkept (hsame hm.choose_spec.2.2.2.2.2) (hmoved hm ?_)
    rintro rfl
    rw [hfree] at hrun
    simp at hrun
  | rebuilt id' _ hq hverifying _ => exact hkept (hsame hverifying) (hquiet hq)
  | silent hq hverifying _ => exact hkept (hsame hverifying) (hquiet hq)

theorem Held.step (hs : Held w s) (hacts : ActsOnSigned w s c) : Held w (step w s c) := by
  refine ⟨hs.toInv.step c, ?_⟩
  intro id run hrun
  rcases step_cases hs.toInv c with hstep | ⟨e, he, houtcome, hstep⟩
  · rw [hstep] at hrun ⊢
    rw [State.latest, unlock_ledger]
    exact hs.latest id run (verifying_of_unlock hrun)
  · rw [hstep] at hrun ⊢
    rw [State.latest, unlock_ledger]
    exact hs.latest_apply hacts he houtcome hrun

end Steps

end Workspace
