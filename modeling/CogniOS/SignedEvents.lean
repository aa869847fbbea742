/-
# Signed events as the auditors read them

`Ledger.read_verified` hands out the events as dictionaries.  The lemmas here read the
fields of a signed event off its body, and tell which events start and end a verification
run.
-/
import CogniOS.WorkspaceRuns

open Independence VerificationLifecycle

namespace Workspace

/-! ## Fields -/

/-- The event as `Ledger.read_verified` returns it. -/
def Signed.json (e : Signed) : Json := e.event.toJson

theorem events_eq (s : State) : s.events = s.ledger.map Signed.json := rfl

section Fields

variable (e : Signed)

theorem payloadOf_json : payloadOf e.json = .obj e.body.payload := by
  rw [← e.payload_eq]
  rfl

@[simp] theorem get_action : e.json.get "action" = .str e.body.action := by
  rw [← e.action_eq]
  rfl

@[simp] theorem get_actor : e.json.get "actor" = .str e.event.actor := rfl

@[simp] theorem get_taskId : e.json.get "task_id" = Ledger.taskIdJson e.event.taskId := rfl

@[simp] theorem get_sequence : e.json.get "sequence" = .int e.event.sequence := rfl

@[simp] theorem get_eventHash : e.json.get "event_hash" = .str e.event.eventHash := rfl

theorem hasAction_json (action : String) :
    hasAction e.json action = decide (e.body.action = action) := by
  rw [hasAction, get_action, Bool.eq_iff_iff]
  simp

end Fields

theorem isSha256Text_text (h : Sha256Hex) : isSha256Text (.str h.text) = true := by
  have hall : ∀ c ∈ h.text.toList, c.toLower = c := by
    intro c hc
    have hhex := h.isHex
    rw [Hex.isHex, Bool.and_eq_true, List.all_eq_true] at hhex
    exact Hex.toLower_of_isDigit (hhex.2 c hc)
  rw [isSha256Text, List.map_congr_left hall, List.map_id', String.ofList_toList]
  exact h.isHex

/-- The hash of a signed event is a SHA-256 digest. -/
theorem Inv.isSha256Text {w : Broker} {s : State} (hs : Inv w s) {e : Signed}
    (he : e ∈ s.ledger) : isSha256Text (.str e.event.eventHash) = true := by
  have hall : ∀ {events : List Ledger.Event}, Ledger.Chain w.signer events →
      ∀ e ∈ events, VerificationLifecycle.isSha256Text (.str e.eventHash) = true := by
    intro events h
    induction h with
    | nil => simp
    | append r _ ih =>
      intro e he
      rcases List.mem_append.mp he with he | he
      · exact ih e he
      · obtain rfl := List.mem_singleton.mp he
        exact isSha256Text_text (w.signer.sha256.digest _)
  exact hall hs.chain _ (List.mem_map_of_mem he)

theorem isRunId_text (t : Token) : isRunId (.str t.text) = true := t.isHex

/-! ## Runs -/

/-- The run that an event starts. -/
def Body.startedRun? : Body → Option String
  | .verificationStarted s => some s.runId.text
  | _ => none

/-- The run that an event ends. -/
def Body.terminalRun? : Body → Option String
  | .verificationFailed f => some f.runId.text
  | .verificationRecovered r => some r.runId.text
  | .decided _ v _ => some v.runId.text
  | _ => none

theorem isStarted_json (e : Signed) : isStarted e.json = e.body.startedRun?.isSome := by
  rw [isStarted, hasAction_json]
  cases e.body with
  | recovered r t => cases hr : r.forced <;> simp [Body.action, Body.startedRun?, hr]
  | decided accepted v t => cases accepted <;> simp [Body.action, Body.startedRun?]
  | _ => simp [Body.action, Body.startedRun?]

theorem isTerminal_json (e : Signed) : isTerminal e.json = e.body.terminalRun?.isSome := by
  rw [isTerminal, hasAction_json, hasAction_json, hasAction_json]
  cases e.body with
  | recovered r t => cases hr : r.forced <;> simp [Body.action, Body.terminalRun?, hr]
  | decided accepted v t => cases accepted <;> simp [Body.action, Body.terminalRun?]
  | _ => simp [Body.action, Body.terminalRun?]

theorem get_runId_of_started {e : Signed} {id : String} (h : e.body.startedRun? = some id) :
    (payloadOf e.json).get "run_id" = .str id := by
  rw [payloadOf_json]
  cases hb : e.body with
  | verificationStarted s =>
    rw [hb] at h
    obtain rfl := Option.some.inj h
    rfl
  | _ => simp [hb, Body.startedRun?] at h

theorem get_runId_of_terminal {e : Signed} {id : String} (h : e.body.terminalRun? = some id) :
    (payloadOf e.json).get "run_id" = .str id := by
  rw [payloadOf_json]
  cases hb : e.body with
  | verificationFailed f =>
    rw [hb] at h
    obtain rfl := Option.some.inj h
    rfl
  | verificationRecovered r =>
    rw [hb] at h
    obtain rfl := Option.some.inj h
    rfl
  | decided accepted v t =>
    rw [hb] at h
    obtain rfl := Option.some.inj h
    rfl
  | _ => simp [hb, Body.terminalRun?] at h

/-- The started events of a run are the events that start it. -/
theorem startedOf_map (id : String) (ledger : List Signed) :
    startedOf id (ledger.map Signed.json) =
      (ledger.filter fun e => e.body.startedRun? = some id).map Signed.json := by
  rw [startedOf, List.filter_map]
  congr 1
  apply List.filter_congr
  intro e _
  show (isStarted e.json && _) = _
  rw [isStarted_json]
  cases hrun : e.body.startedRun? with
  | none => simp
  | some id' =>
    rw [get_runId_of_started hrun, Bool.eq_iff_iff]
    simp

theorem terminalsOf_map (id : String) (ledger : List Signed) :
    terminalsOf id (ledger.map Signed.json) =
      (ledger.filter fun e => e.body.terminalRun? = some id).map Signed.json := by
  rw [terminalsOf, List.filter_map]
  congr 1
  apply List.filter_congr
  intro e _
  show (isTerminal e.json && _) = _
  rw [isTerminal_json]
  cases hrun : e.body.terminalRun? with
  | none => simp
  | some id' =>
    rw [get_runId_of_terminal hrun, Bool.eq_iff_iff]
    simp

end Workspace
