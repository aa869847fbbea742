/-
# Runs with an evidence archive

`submit` and `verify` archive the evidence before they sign the event that names it.  A state
here is a workspace with the files below its root and the staging files, which the actors rewrite
between the calls; a call may raise or stop at any write of the archive.

* `intact_of_run` : in a run in which no call replaces a document that a signed event names by
  another one, every event keeps its evidence;
* `replaced_evidence` : after a lost task file the same evidence can be submitted twice, and the
  second submission replaces the document of the first.
-/
import CogniOS.EvidenceArchive
import CogniOS.WorkspaceRuns

open FileStore

namespace Archive

open Workspace

/-! ## Calls -/

/-- The files that `verify` retains beside the evidence of the verifier. -/
def trustedFiles (result : RunnerResult) : Except CogniError (List Source) := do
  let field (key : String) := (Json.obj result.fields).get key
  let path ← orRaise (field "receipt_path").asStr? ⟨.other, "receipt_path"⟩
  let sha256 ← orRaise (field "receipt_sha256").asStr? ⟨.other, "receipt_sha256"⟩
  let validations := match field "validations" with
    | .arr validations => validations
    | _ => []
  let outputs ← validations.mapM fun validation => do
      let path ← orRaise (validation.get "output_path").asStr? ⟨.other, "output_path"⟩
      let sha256 ← orRaise (validation.get "output_sha256").asStr? ⟨.other, "output_sha256"⟩
      .ok ⟨path, sha256, "trusted_runner_output", true⟩
  .ok (⟨path, sha256, "trusted_runner_receipt", true⟩ :: outputs)

/-- What a call archives, once the checks before the archive have passed. -/
def request? (w : Broker) (s : State) (c : Call) : Option (Except CogniError Request) :=
  match c.op with
  | .submit actor taskId leaseToken validated _ =>
      match validated, submit w s c actor taskId leaseToken validated (.ok .null) with
      | .ok (report, manifest), .ok e => e.file.map fun p =>
          .ok ⟨taskId, p.2.attempt, "worker", some report, manifest, []⟩
      | _, _ => none
  | .verifyEnd taskId (.ok result) attestation _ =>
      match s.verifying taskId, attestedResult result attestation with
      | some run, .ok _ => some do
          let files ← trustedFiles result
          .ok ⟨taskId, run.task.attempt, "verifier", none, run.manifest, files⟩
      | _, _ => none
  | _ => none

/-- The operation with what the archive returned to it. -/
def withArchive (bundle : Except CogniError Json) : Op → Op
  | .submit actor taskId leaseToken validated _ => .submit actor taskId leaseToken validated bundle
  | .verifyEnd taskId runner attestation _ => .verifyEnd taskId runner attestation bundle
  | op => op

/-- What the process does when it dies in the archive: a verification keeps no lock. -/
def died : Op → Op
  | .verifyEnd taskId _ _ _ => .verifyCrash taskId
  | op => op

/-! ## Runs -/

/-- A workspace with the files below its root, by path, and the staging files. -/
structure World where
  state : State
  files : Directory
  staging : Staging

/-- How the archive of a call comes to its end. -/
inductive Ending
  | returns
  /-- A write raises; the temporary file is removed. -/
  | raises (k : ℕ) (error : CogniError)
  /-- The process stops. -/
  | stops (point : Point)

def Ending.point? : Ending → Option Point
  | returns => none
  | raises k _ => some (.between k)
  | stops point => some point

/-- What happens next. -/
inductive Action
  /-- The actors rewrite the staging files. -/
  | stage (staging : Staging)
  /-- A call, with the suffix of its temporary files. -/
  | call (c : Call) (temporary : Suffix) (ending : Ending)

/-- The installation: the workspace, its root and the hash function. -/
structure Site where
  broker : Broker
  root : String
  sha256 : Hasher

section Steps

variable (site : Site)

/-- The context of a call. -/
def Site.context (x : World) (temporary : Suffix) : Context :=
  ⟨site.sha256, site.root, site.broker.config.maxEvidenceBytes, x.staging, temporary⟩

/-- The writes of the archive, and what it returns. -/
def archived (x : World) (temporary : Suffix) (request : Except CogniError Request) :
    List Write × Except CogniError Bundle :=
  match request with
  | .error e => ([], .error e)
  | .ok r => archiveEvidenceBundle (site.context x temporary) r x.files

/-- The call of the workspace, after its archive. -/
def settled (c : Call) (outcome : Except CogniError Bundle) : Ending → Call
  | .returns => { c with op := withArchive (outcome.map Bundle.toJson) c.op }
  | .raises _ e => { c with op := withArchive (.error e) c.op }
  | .stops _ => { c with op := died (withArchive (.error ⟨.other, "crash"⟩) c.op) }

/-- The world after an action. -/
def next (x : World) : Action → World
  | .stage staging => { x with staging := staging }
  | .call c temporary ending =>
      match request? site.broker x.state c with
      | none => { x with state := step site.broker x.state (settled c (.error ⟨.other, ""⟩) .returns) }
      | some request =>
          let run := archived site x temporary request
          { x with
            state := step site.broker x.state (settled c run.2 ending)
            files := leaves run.1 x.files ending.point? }

def Step (x : World) (a : Action) (y : World) : Prop := y = next site x a

/-- The bundle in an event. -/
def bundle? : Body → Option Json
  | .submitted _ _ bundle => some bundle
  | .decided _ v _ => some v.bundle
  | _ => none

/-- Every signed event keeps its evidence: the document that it names has the recorded digest, and
each retained file its recorded digest and size. -/
def Intact (x : World) : Prop :=
  ∀ e ∈ x.state.ledger, ∀ bundle, bundle? e.body = some bundle →
    ∃ b : Bundle, bundle = b.toJson ∧ b.Intact site.sha256 x.files

end Steps

/-! ## The events of a call -/

section Events

variable {w : Broker} {s : State} {c : Call} {e : Effect} {entry : Entry} {bundle : Json}

/-- Only a submission and a decision name a bundle. -/
theorem bundle?_of_moves {t u : Task} {b : Body} (h : Moves t b u) (hrunning : t.state ≠ .running)
    (hsubmitted : t.state ≠ .submitted) : bundle? b = none := by
  cases h with
  | submitted _ _ _ _ hstate => exact absurd hstate hrunning
  | decided _ _ _ hstate => exact absurd hstate hsubmitted
  | _ => rfl

theorem bundle?_of_task? {b : Body} (h : b.task? = none) : bundle? b = none := by
  cases b with
  | submitted => cases h
  | decided => cases h
  | _ => rfl

/-- The operations that archive nothing name no bundle. -/
theorem bundle?_of_other (hs : Inv w s) (h : effect w s c = .ok e)
    (hsubmit : ∀ actor id token validated b, c.op ≠ .submit actor id token validated b)
    (hverify : ∀ id runner attestation b, c.op ≠ .verifyEnd id runner attestation b)
    (hentry : e.entry = some entry) : bundle? entry.body = none := by
  have h := (checkedEffect_of_effect h).1
  obtain ⟨op, clock, authority, fault⟩ := c
  cases op with
  | addAgent actor a =>
    obtain ⟨agent, rfl⟩ := addAgent_eq_ok h
    obtain rfl := Option.some.inj hentry
    rfl
  | addTask actor a =>
    obtain ⟨t, -, -, rfl⟩ := addTask_eq_ok h
    obtain rfl := Option.some.inj hentry
    rfl
  | claim actor taskId seconds token session =>
    obtain ⟨id, t, u, -, ⟨entry', hentry', -, hmoves, -⟩, hstate, -⟩ := claim_moved hs.keyed h
    obtain rfl := Option.some.inj (hentry'.symm.trans hentry)
    exact bundle?_of_moves hmoves (by simp [hstate]) (by simp [hstate])
  | recoverLease actor taskId reason force =>
    simp only [checkedEffect, recoverLease, bind_eq_ok, require_eq_ok, orRaise_eq_ok] at h
    obtain ⟨_, -, _, -, _, -, _, -, _, -, t, -, ledger, -, _, -, _, -, l, -, _, -, _, -, source, -,
      _, -, _, -, _, -, _, -, receipt, -, blocked, -, u, -, _, -, h⟩ := h
    obtain rfl := Except.ok.inj h
    obtain rfl := Option.some.inj hentry
    rfl
  | start actor taskId token =>
    obtain ⟨t, u, -, ⟨entry', hentry', -, hmoves, -⟩, hstate⟩ := start_moved h
    obtain rfl := Option.some.inj (hentry'.symm.trans hentry)
    exact bundle?_of_moves hmoves (by simp [hstate]) (by simp [hstate])
  | heartbeat actor taskId token =>
    simp only [checkedEffect, heartbeat, bind_eq_ok, require_eq_ok, orRaise_eq_ok] at h
    obtain ⟨t, -, _, -, l, -, expiresAt, -, h⟩ := h
    obtain rfl := Except.ok.inj h
    obtain rfl := Option.some.inj hentry
    rfl
  | block actor taskId token reason =>
    simp only [checkedEffect, block, bind_eq_ok] at h
    obtain ⟨t, -, u, -, h⟩ := h
    obtain rfl := Except.ok.inj h
    obtain rfl := Option.some.inj hentry
    rfl
  | submit actor taskId token validated b => exact absurd rfl (hsubmit actor taskId token validated b)
  | verifyBegin actor taskId decision note evidence candidates =>
    obtain ⟨run, -, -, -, -, -, -, rfl⟩ := verifyBegin_eq_ok h
    obtain rfl := Option.some.inj hentry
    rfl
  | verifyEnd taskId runner attestation b => exact absurd rfl (hverify taskId runner attestation b)
  | verifyCrash taskId => simp [checkedEffect] at h
  | reconcileVerification actor taskId runId =>
    obtain ⟨-, -, -, -, -, -, token, start, terminals, attempt, receipt, -, -, -, -, hclosing⟩ :=
      reconcileVerification_eq_ok h
    exact bundle?_of_task? (reconcileEntry_task? hclosing entry hentry)
  | restateVerification actor taskId status reason n =>
    obtain ⟨-, -, -, -, hnone | ⟨target, -, r, hsome, -⟩⟩ := restateVerification_eq_ok h
    · simp [hnone] at hentry
    · obtain rfl := Option.some.inj (hsome.symm.trans hentry)
      rfl

/-- A submission names what its archive has returned, and the archive was asked for it. -/
theorem submit_bundle {actor taskId token : String}
    {validated : Except CogniError (Json × Manifest)} {outcome given : Except CogniError Json}
    (h : submit w s c actor taskId token validated outcome = .ok e) (hentry : e.entry = some entry)
    (hbundle : bundle? entry.body = some bundle)
    (hop : c.op = .submit actor taskId token validated given) :
    outcome = .ok bundle ∧ (request? w s c).isSome = true := by
  simp only [submit, bind_eq_ok] at h
  obtain ⟨t, ht, ⟨report, manifest⟩, rfl, agent, hagent, identity, hidentity, u, hu,
    b, hb, h⟩ := h
  obtain rfl := Except.ok.inj h
  obtain rfl := Option.some.inj hentry
  obtain rfl := Option.some.inj hbundle
  refine ⟨hb, ?_⟩
  have hchecked : submit w s c actor taskId token (.ok (report, manifest)) (.ok .null) = .ok {
      entry := some ⟨c.clock 3, actor, some taskId, .submitted u identity .null⟩
      file := some (taskId, u) } := by
    simp only [submit, bind_eq_ok]
    exact ⟨t, ht, (report, manifest), rfl, agent, hagent, identity, hidentity, u, hu, .null,
      rfl, rfl⟩
  rw [request?, hop]
  simp only [hchecked, Option.map_some, Option.isSome_some]

theorem verifyEnd_bundle {taskId : String} {runner : Except CogniError RunnerResult}
    {attestation : Except CogniError (List (String × Json))} {outcome given : Except CogniError Json}
    (h : verifyEnd s c taskId runner attestation outcome = .ok e) (hentry : e.entry = some entry)
    (hbundle : bundle? entry.body = some bundle)
    (hop : c.op = .verifyEnd taskId runner attestation given) :
    outcome = .ok bundle ∧ (request? w s c).isSome = true := by
  simp only [verifyEnd, bind_eq_ok, orRaise_eq_ok] at h
  obtain ⟨run, hrun, h⟩ := h
  have hfailure : ∀ stage error, recordVerificationFailure s c taskId run stage error ≠ .ok e := by
    intro stage error hfail
    obtain ⟨-, -, -, -, hnone | ⟨start, -, -, hsome⟩⟩ := recordVerificationFailure_eq_ok hfail
    · simp [hnone] at hentry
    · obtain rfl := Option.some.inj (hsome.symm.trans hentry)
      cases hbundle
  split at h
  · exact absurd h (hfailure _ _)
  rename_i result
  split at h
  · exact absurd h (hfailure _ _)
  rename_i a hattested
  split at h
  · exact absurd h (hfailure _ _)
  split at h
  · exact absurd h (hfailure _ _)
  obtain rfl := Except.ok.inj h
  obtain rfl := Option.some.inj hentry
  obtain rfl := Option.some.inj hbundle
  refine ⟨rfl, ?_⟩
  rw [request?, hop]
  simp only [hrun, hattested, Option.isSome_some]

/-- What the archive has returned to an operation. -/
def archive? : Op → Option (Except CogniError Json)
  | .submit _ _ _ _ bundle => some bundle
  | .verifyEnd _ _ _ bundle => some bundle
  | _ => none

theorem archive?_withArchive {bundle outcome : Except CogniError Json} {op : Op}
    (h : archive? (withArchive bundle op) = some outcome) : outcome = bundle := by
  cases op with
  | submit => exact (Option.some.inj h).symm
  | verifyEnd => exact (Option.some.inj h).symm
  | _ => cases h

theorem archive?_died {op : Op} {outcome : Except CogniError Json}
    (h : archive? (died op) = some outcome) : archive? op = some outcome := by
  cases op with
  | verifyEnd => cases h
  | _ => exact h

theorem request?_withArchive (outcome : Except CogniError Json) :
    request? w s { c with op := withArchive outcome c.op } = request? w s c := by
  obtain ⟨op, clock, authority, fault⟩ := c
  cases op with
  | verifyEnd taskId runner => cases runner <;> rfl
  | _ => rfl

/-- **The event of a call**: it names no bundle, or the one that the archive has returned. -/
theorem bundle_of_step (hs : Inv w s) {e : Signed} (he : e ∈ (step w s c).ledger)
    (hbundle : bundle? e.body = some bundle) :
    e ∈ s.ledger ∨ archive? c.op = some (.ok bundle) ∧ (request? w s c).isSome = true := by
  rcases step_cases hs c with h | ⟨effect, heffect, -, h⟩
  · rw [h, unlock_ledger] at he
    exact .inl he
  rw [h, unlock_ledger] at he
  rcases apply_ledger w s effect c.fault with hledger | ⟨entry, hentry, hledger⟩
  · rw [hledger] at he
    exact .inl he
  rw [hledger] at he
  rcases List.mem_append.mp he with he | he
  · exact .inl he
  obtain rfl := List.mem_singleton.mp he
  rw [sign_body] at hbundle
  have hchecked := (checkedEffect_of_effect heffect).1
  refine .inr ?_
  by_cases hsubmit : ∃ actor id token validated b, c.op = .submit actor id token validated b
  · obtain ⟨actor, id, token, validated, b, hop⟩ := hsubmit
    rw [checkedEffect, hop] at hchecked
    obtain ⟨rfl, hrequest⟩ := submit_bundle hchecked hentry hbundle hop
    exact ⟨by rw [hop]; rfl, hrequest⟩
  by_cases hverify : ∃ id runner attestation b, c.op = .verifyEnd id runner attestation b
  · obtain ⟨id, runner, attestation, b, hop⟩ := hverify
    rw [checkedEffect, hop] at hchecked
    obtain ⟨rfl, hrequest⟩ := verifyEnd_bundle hchecked hentry hbundle hop
    exact ⟨by rw [hop]; rfl, hrequest⟩
  have hnone := bundle?_of_other hs heffect
    (fun actor id token validated b hop => hsubmit ⟨actor, id, token, validated, b, hop⟩)
    (fun id runner attestation b hop => hverify ⟨id, runner, attestation, b, hop⟩) hentry
  rw [hnone] at hbundle
  cases hbundle

end Events

/-! ## The evidence along a run -/

section Invariant

variable {site : Site} {x : World}

/-- A content that the archive may compare: a staging file, or a file below the root. -/
def World.Holds (x : World) (content : List UInt8) : Prop :=
  (∃ path, x.staging path = some content) ∨ ∃ path, x.files.lookup path = some content

/-- The call replaces no document that a signed event names: where an event names the path of its
bundle, the document there is the one that it writes.  No two contents collide. -/
def Harmless (site : Site) (x : World) : Action → Prop
  | .stage _ => True
  | .call c temporary _ => ∀ r, request? site.broker x.state c = some (.ok r) →
      (∀ u v, x.Holds u → x.Holds v → site.sha256.hexdigest u = site.sha256.hexdigest v →
        u.length = v.length) ∧
      ∀ e ∈ x.state.ledger, ∀ bundle, bundle? e.body = some bundle →
        bundle.get "manifest_path" = .str (bundlePath (site.context x temporary) r) →
        ∀ sources, r.sources = .ok sources →
          x.files.lookup (bundlePath (site.context x temporary) r) =
            some (document (site.context x temporary) r sources)

/-- What a run of the archive writes and returns. -/
theorem archived_spec {temporary : Suffix} {r : Request}
    (hsame : ∀ u v, x.Holds u → x.Holds v → site.sha256.hexdigest u = site.sha256.hexdigest v →
      u.length = v.length) :
    Steps (Archives (site.context x temporary) r) x.files
        (archived site x temporary (.ok r)).1 ∧
      ∀ b, (archived site x temporary (.ok r)).2 = .ok b →
        b.Intact site.sha256 (applyAll (archived site x temporary (.ok r)).1 x.files) := by
  obtain ⟨hsteps, hpost⟩ := @archive_spec (site.context x temporary) r x.Holds
    (fun path content h => .inl ⟨path, h⟩) hsame x.files fun path content h => .inr ⟨path, h⟩
  exact ⟨hsteps, fun b hb => (hpost b hb).1⟩

/-- A call that archives nothing signs no bundle. -/
theorem Intact.call_of_none {c : Call} {temporary : Suffix} {ending : Ending}
    (hs : Inv site.broker x.state) (h : Intact site x)
    (hrequest : request? site.broker x.state c = none) :
    Intact site (next site x (.call c temporary ending)) := by
  rw [next, hrequest]
  intro e he bundle hbundle
  rcases bundle_of_step hs he hbundle with he | ⟨-, hsome⟩
  · exact h e he bundle hbundle
  · rw [settled, request?_withArchive, hrequest] at hsome
    cases hsome

/-- **A call** keeps the evidence of the events before it, and signs only what it has archived. -/
theorem Intact.call {c : Call} {temporary : Suffix} {ending : Ending}
    (hs : Inv site.broker x.state) (h : Intact site x)
    (hguard : Harmless site x (.call c temporary ending)) :
    Intact site (next site x (.call c temporary ending)) := by
  cases hrequest : request? site.broker x.state c with
  | none => exact h.call_of_none hs hrequest
  | some request =>
    rw [next, hrequest]
    intro e he bundle hbundle
    have hnew := bundle_of_step hs he hbundle
    cases request with
    | error error =>
      rcases hnew with he | ⟨harchive, -⟩
      · obtain ⟨b, hb, hintact⟩ := h e he bundle hbundle
        refine ⟨b, hb, ?_⟩
        show b.Intact site.sha256 (leaves [] x.files ending.point?)
        rw [leaves_nil]
        exact hintact
      · cases ending with
        | stops point => cases archive?_withArchive (archive?_died harchive)
        | _ => cases archive?_withArchive harchive
    | ok r =>
      obtain ⟨hsame, hkeep⟩ := hguard r hrequest
      obtain ⟨hsteps, hreturns⟩ := @archived_spec site x temporary r hsame
      rcases hnew with he | ⟨harchive, -⟩
      · obtain ⟨b, rfl, hintact⟩ := h e he bundle hbundle
        refine ⟨b, rfl, @Bundle.Intact.leaves (site.context x temporary) r b _ _ hintact hsteps ?_ _⟩
        intro hpath sources hsources
        rw [hpath]
        refine hkeep e he _ hbundle ?_ sources hsources
        rw [← hpath]
        rfl
      · cases ending with
        | returns =>
          have houtcome := archive?_withArchive harchive
          cases hreturn : (archived site x temporary (.ok r)).2 with
          | error error =>
            rw [hreturn] at houtcome
            cases houtcome
          | ok b =>
            rw [hreturn] at houtcome
            exact ⟨b, Except.ok.inj houtcome, hreturns b hreturn⟩
        | raises k error => cases archive?_withArchive harchive
        | stops point => cases archive?_withArchive (archive?_died harchive)

/-- The state of the workspace after an action. -/
theorem next_state (site : Site) (x : World) (a : Action) :
    (next site x a).state = x.state ∨ ∃ c, (next site x a).state = step site.broker x.state c := by
  cases a with
  | stage staging => exact .inl rfl
  | call c temporary ending =>
    refine .inr ?_
    rw [next]
    split
    · exact ⟨_, rfl⟩
    · exact ⟨_, rfl⟩

/-- **The evidence of every signed event is kept**, from a new workspace, over every run in which
no call replaces a document that an event names. -/
theorem intact_of_run {now : Utc} {principal family : String} {preset : Bool} {start : State}
    {staging : Staging} {actions : List Action}
    (hstart : initializeWorkspace site.broker now principal family preset = .ok start)
    (hrun : Runs.Run (Runs.Guarded (Step site) (Harmless site)) ⟨start, ∅, staging⟩ actions x) :
    Intact site x := by
  have hfresh := fresh_of_initialized hstart
  refine (hrun.invariant (I := fun x => Inv site.broker x.state ∧ Intact site x) ?_
    ⟨hfresh.inv, ?_⟩).2
  · rintro x a y ⟨hs, h⟩ ⟨rfl, hguard⟩
    refine ⟨?_, ?_⟩
    · rcases next_state site x a with hstate | ⟨c, hstate⟩
      · rw [hstate]
        exact hs
      · rw [hstate]
        exact hs.step c
    · cases a with
      | stage staging => exact h
      | call c temporary ending => exact h.call hs hguard
  · intro e he bundle hbundle
    rcases hfresh.body_cases he with hbody | ⟨agent, hbody⟩
    · rw [hbody] at hbundle
      cases hbundle
    · rw [hbody] at hbundle
      cases hbundle

/-- A call that archives nothing is harmless. -/
theorem harmless_of_none {c : Call} {temporary : Suffix} {ending : Ending}
    (h : request? site.broker x.state c = none) : Harmless site x (.call c temporary ending) := by
  intro r hr
  rw [h] at hr
  cases hr

/-- An action keeps the signed events. -/
theorem mem_ledger_next {e : Signed} (he : e ∈ x.state.ledger) (a : Action) :
    e ∈ (next site x a).state.ledger := by
  rcases next_state site x a with hstate | ⟨c, hstate⟩
  · rw [hstate]
    exact he
  · rw [hstate, step, unlock_ledger]
    split
    · rename_i effect _
      rcases apply_ledger site.broker x.state effect c.fault with hledger | ⟨entry, -, hledger⟩
      · rw [hledger]
        exact he
      · rw [hledger]
        exact List.mem_append_left _ he
    · exact he

/-- The actions of a list, one after the other. -/
theorem run_next (site : Site) (x : World) (actions : List Action) :
    Runs.Run (Step site) x actions (actions.foldl (next site) x) := by
  induction actions using List.reverseRecOn with
  | nil => exact .nil x
  | append_singleton actions a ih =>
    rw [List.foldl_append]
    exact .snoc ih rfl

theorem mem_ledger_foldl {e : Signed} (he : e ∈ x.state.ledger) (actions : List Action) :
    e ∈ (actions.foldl (next site) x).state.ledger :=
  (run_next site x actions).invariant (I := fun x => e ∈ x.state.ledger)
    (fun _ a _ he hstep => hstep ▸ mem_ledger_next he a) he

end Invariant

/-! ## Sample runs -/

def sampleSite : Site := ⟨sampleBroker, "/w", sha256⟩

def sampleSuffix : Suffix := ⟨"k2v9x_q1", ne_slash_of_all (by decide)⟩

def reportPath : String := "/w/reports/antigravity/report.md"

def manifestPath : String := "/w/reports/antigravity/manifest.json"

/-- The staging files: a report, and a manifest that names nothing. -/
def sampleStaging (report : String) : Staging := fun path =>
  if path = reportPath then some (Utf8.encode report.toList)
  else if path = manifestPath then some (Utf8.encode "\x7b\x7d".toList)
  else none

/-- The worker submits the report of the given digest with the manifest. -/
def sampleReported (reportSha256 : String) (fault : Fault) : Call :=
  let report : Json := .obj [("path", .str reportPath), ("sha256", .str reportSha256)]
  let manifest : Manifest := ⟨manifestPath,
    ⟨"44136fa355b3678a1146ad16f7e8649e94fb4fc21fe77e8310c060f61caaff8a", by decide⟩,
    [], [], [], [], 1, 0, 0⟩
  { sampleCall (.submit "antigravity" "T" sampleToken.text (.ok (report, manifest))
      (.ok .null)) with fault := fault }

def firstReported (fault : Fault) : Call :=
  sampleReported "a7937b64b8caa58f03721bb6bacf5c78cb235febe0e70b1b84cd99541461a08e" fault

def secondReported : Call :=
  sampleReported "16367aacb67a4a017c8da8ab95682ccb390863780f7114dda0a0e0c55644c7c4" .none

/-- An action in which the archive comes to its end. -/
def returning (c : Call) : Action := .call c sampleSuffix .returns

/-- A task is submitted, and its file is written or lost. -/
def submission (fault : Fault) : List Action :=
  [returning (sampleAdd "T" []), returning (sampleClaim "T"), returning (sampleStartTask "T"),
    returning (firstReported fault)]

def sampleWorld : World := ⟨sampleStart, ∅, sampleStaging "first"⟩

def sampleAdded : World :=
  { sampleWorld with state := step sampleBroker sampleWorld.state (sampleAdd "T" []) }

def sampleClaimed : World :=
  { sampleAdded with state := step sampleBroker sampleAdded.state (sampleClaim "T") }

/-- The world before the submission. -/
def sampleStarted : World :=
  { sampleClaimed with state := step sampleBroker sampleClaimed.state (sampleStartTask "T") }

/-- The submission is the first archive. -/
theorem harmless_sampleStarted :
    Harmless sampleSite sampleStarted (returning (firstReported .none)) := by
  have hfirst : sha256.hexdigest (Utf8.encode "first".toList) ≠
      sha256.hexdigest (Utf8.encode "\x7b\x7d".toList) := by decide +kernel
  have hholds : ∀ content, sampleStarted.Holds content →
      content = Utf8.encode "first".toList ∨ content = Utf8.encode "\x7b\x7d".toList := by
    rintro content (⟨path, h⟩ | ⟨path, h⟩)
    · replace h : sampleStaging "first" path = some content := h
      unfold sampleStaging at h
      split_ifs at h
      · exact .inl (Option.some.inj h).symm
      · exact .inr (Option.some.inj h).symm
    · cases h
  have hnone : sampleStarted.state.ledger.all (fun e => (bundle? e.body).isNone) = true := by
    decide +kernel
  intro r _
  refine ⟨?_, ?_⟩
  · intro u v hu hv hdigest
    rcases hholds u hu with rfl | rfl
    · rcases hholds v hv with rfl | rfl
      · rfl
      · exact absurd hdigest hfirst
    · rcases hholds v hv with rfl | rfl
      · exact absurd hdigest.symm hfirst
      · rfl
  · intro e he bundle hbundle
    have hbody := List.all_eq_true.mp hnone e he
    rw [hbundle] at hbody
    cases hbody

/-- A call that archives nothing is a call of the workspace. -/
theorem guarded_of_none {x : World} {c : Call} (hrequest : request? sampleBroker x.state c = none)
    (hop : withArchive (.error ⟨.other, ""⟩) c.op = c.op) :
    Runs.Guarded (Step sampleSite) (Harmless sampleSite) x (returning c)
      { x with state := step sampleBroker x.state c } := by
  refine ⟨?_, harmless_of_none hrequest⟩
  have hsettled : settled c (.error ⟨.other, ""⟩) .returns = c := by
    show { c with op := withArchive (.error ⟨.other, ""⟩) c.op } = c
    rw [hop]
  show _ = next sampleSite x (.call c sampleSuffix .returns)
  rw [next, show request? sampleSite.broker x.state c = none from hrequest]
  dsimp only
  rw [hsettled]
  rfl

/-- The evidence of a first submission is kept. -/
theorem intact_submission :
    Intact sampleSite (next sampleSite sampleStarted (returning (firstReported .none))) := by
  have hadded := @guarded_of_none sampleWorld (sampleAdd "T" []) rfl rfl
  have hclaimed := @guarded_of_none sampleAdded (sampleClaim "T") rfl rfl
  have hstarted := @guarded_of_none sampleClaimed (sampleStartTask "T") rfl rfl
  have hreported : Runs.Guarded (Step sampleSite) (Harmless sampleSite) sampleStarted
      (returning (firstReported .none))
      (next sampleSite sampleStarted (returning (firstReported .none))) :=
    ⟨Eq.refl _, harmless_sampleStarted⟩
  exact @intact_of_run sampleSite _ _ _ _ _ sampleStart (sampleStaging "first") _ initialize_sample
    (.snoc (.snoc (.snoc (.single hadded) hclaimed) hstarted) hreported)

/-- The task file is lost, the report is rewritten, and the task is submitted again. -/
def resubmission : List Action :=
  submission .write ++ [.stage (sampleStaging "second"), returning secondReported]

def samplePath : String := "/w/submissions/T/attempt-001/worker-44136fa355b3678a/bundle.json"

/-- The path and the digest of the document that the event at an index names. -/
def namedDocument (x : World) (index : ℕ) : Option (Json × Json) :=
  (x.state.ledger[index]?.bind fun e => bundle? e.body).map fun b =>
    (b.get "manifest_path", b.get "manifest_sha256")

theorem namedDocument_submission :
    namedDocument ((submission .write).foldl (next sampleSite) sampleWorld) 7 =
      some (.str samplePath,
        .str "f51eb95af6952466bc2e38a021947e6fe31f0b9751a577aedb8e9d14085f8648") := by
  decide +kernel

theorem hexdigest_resubmission :
    ((resubmission.foldl (next sampleSite) sampleWorld).files.lookup samplePath).map
      sha256.hexdigest =
        some "d53550ed6cece3d2217e96255386b4dc9aab5bcd9802b3f6cd073f208df60764" := by
  decide +kernel

/-- **The document of a signed event is replaced.** -/
theorem replaced_evidence : ∃ x, Runs.Run (Step sampleSite) sampleWorld resubmission x ∧
    ¬ Intact sampleSite x := by
  refine ⟨_, run_next sampleSite sampleWorld resubmission, fun hintact => ?_⟩
  have hsigned := namedDocument_submission
  rw [namedDocument, Option.map_eq_some_iff] at hsigned
  obtain ⟨bundle, hbundle, hnamed⟩ := hsigned
  obtain ⟨e, hget, hbundle⟩ := Option.bind_eq_some_iff.mp hbundle
  have he : e ∈ (resubmission.foldl (next sampleSite) sampleWorld).state.ledger := by
    rw [resubmission, List.foldl_append]
    exact mem_ledger_foldl (List.mem_of_getElem? hget) _
  obtain ⟨b, rfl, hb⟩ := hintact e he bundle hbundle
  obtain ⟨hpath, hdigest⟩ := Prod.mk.inj hnamed
  obtain ⟨content, hlookup, hcontent⟩ := hb.document
  have hreplaced := hexdigest_resubmission
  replace hpath : b.manifestPath = samplePath := Json.str.inj hpath
  rw [← hpath, hlookup] at hreplaced
  have hsame : b.manifestSha256 =
      "d53550ed6cece3d2217e96255386b4dc9aab5bcd9802b3f6cd073f208df60764" :=
    hcontent.symm.trans (Option.some.inj hreplaced)
  replace hdigest : b.manifestSha256 = _ := Json.str.inj hdigest
  exact absurd (hsame.symm.trans hdigest) (by decide)

end Archive
