/-
# Sections of a snapshot

The checks of `validateSnapshot` on the sections that a publisher derives from its tasks and
resources: `tasks_summary`, `roadmap`, `resources` and `alerts`.  The flags of a check say whether
the schema version asks for bound attribution (1.1 and 1.2) and for evidence of phase 0 (1.2).
-/
import CogniOS.MonitorSignature

namespace Monitoring

/-! ## Numbers and names -/

def requireFiniteNumber (value : Js) (name : String) (min max : ℚ) : Except CogniError ℚ := do
  let q ← orRaise (value.asNum?.bind JsNum.finite?) (error (name ++ " must be a finite number"))
  require (min ≤ q) (error (name ++ " is below the minimum"))
  require (q ≤ max) (error (name ++ " is above the maximum"))
  .ok q

/-- `Number.isInteger(value) && value >= 0`. -/
def isCount (value : Js) : Bool := (value.asNum?.bind JsNum.integer?).any fun n => 0 ≤ n

/-- `TASK_STATES`. -/
def taskStates : List String :=
  ["pending", "claimed", "running", "blocked", "submitted", "verified", "rejected", "archived",
    "verification_disputed", "verification_revoked", "invalidated"]

/-- `ROADMAP_PHASE_IDS`. -/
def roadmapPhaseIds : List String :=
  ["P01-TRUTH", "P02-ORCHESTRATION", "P03-EVIDENCE", "P04-WORLD", "P05-FINANCE", "P06-TWIN",
    "P07-WORKSPACE", "P08-CORE", "P09-HARNESS", "P10-COGNIBOARD", "P11-RELEASE"]

/-- `/^[0-9a-f]{40}$/.test(value)`, for a value that is a text. -/
def isCommit (value : Js) : Bool := value.asStr?.any (Hex.isHex 40)

/-- `state === "verified" || state === "archived"`. -/
def isComplete (state : Js) : Bool := state.isStr "verified" || state.isStr "archived"

/-! ## `tasks_summary` -/

/-- The counters of the projected tasks, by field. -/
abbrev Counters := List (String × ℕ)

def Counters.has (c : Counters) (field : String) : Bool := c.any (·.1 == field)

def Counters.bump (c : Counters) (field : String) : Counters :=
  c.map fun p => if p.1 == field then (p.1, p.2 + 1) else p

/-- One task of the counting loop. -/
def projectTask (c : Counters) (task : Js) : Counters :=
  let state := task.get "state"
  let c :=
    if isComplete state then c.bump "trusted_verified"
    else match state with
      | .str s => c.bump s
      | _ => c
  if c.has "current_release_validated" && (task.get "current_release_validated").truthy then
    c.bump "current_release_validated"
  else c

def summaryKeys : List String :=
  ["total", "pending", "claimed", "running", "blocked", "submitted", "trusted_verified",
    "verification_disputed", "verification_revoked", "rejected", "current_release_validated",
    "completion_percentage", "progress_basis"]

def projectedFields : List String :=
  ["pending", "claimed", "running", "blocked", "submitted", "trusted_verified",
    "verification_disputed", "rejected"]

/-- The fields that newer schema versions count as well. -/
def newerFields (requiresBoundAttribution requiresP0Evidence : Bool) (summary : Js) :
    List String :=
  (if requiresBoundAttribution || !(summary.get "current_release_validated").isUndefined then
    ["current_release_validated"] else []) ++
  (if requiresP0Evidence || !(summary.get "verification_revoked").isUndefined then
    ["verification_revoked"] else [])

/-- `Math.round((part / total) * 1000) / 10`. -/
def percentOf (part total : ℚ) : ℚ := mathRound (part / total * 1000) / 10

def validateTasksSummary (requiresBoundAttribution requiresP0Evidence : Bool) (payload : Js) :
    Except CogniError Unit := do
  let tasks := (payload.get "tasks").asArr?.getD []
  let summary ← requireObject (payload.get "tasks_summary") "snapshot.tasks_summary"
  rejectUnexpectedKeys summary summaryKeys "snapshot.tasks_summary"
  let newer := newerFields requiresBoundAttribution requiresP0Evidence summary
  ("total" :: projectedFields ++ newer).forM fun field =>
    require (isCount (summary.get field) = true)
      (error ("snapshot.tasks_summary." ++ field ++ " must be non-negative"))
  require ((summary.get "total").isInt tasks.length = true)
    (error "snapshot.tasks_summary.total does not match snapshot.tasks")
  let projected := tasks.foldl projectTask ((projectedFields ++ newer).map fun field => (field, 0))
  projected.forM fun (field, expected) =>
    require ((summary.get field).isInt expected = true)
      (error ("snapshot.tasks_summary." ++ field ++ " does not match snapshot.tasks"))
  let bases := "historically-trusted-ledger-task-states" ::
    (if requiresBoundAttribution then [] else ["trusted-ledger-task-states"])
  require ((summary.get "progress_basis").isIn bases = true)
    (error "snapshot.tasks_summary.progress_basis is unsupported")
  if (summary.get "completion_percentage").isNullish then .ok ()
  else do
    let completion ← requireFiniteNumber (summary.get "completion_percentage")
      "snapshot.tasks_summary.completion_percentage" 0 100
    let trusted := ((summary.get "trusted_verified").asNum?.bind JsNum.finite?).getD 0
    require (tasks.length ≠ 0 ∧ |completion - percentOf trusted tasks.length| ≤ 1 / 20)
      (error "snapshot.tasks_summary.completion_percentage is not evidence-derived")

/-! ## `roadmap` -/

def phaseKeys : List String :=
  ["id", "title", "state", "trusted_complete", "verified_source_commit",
    "current_release_state", "current_release_validated", "prerequisites"]

/-- `new Map(tasks.map((task) => [task.id, task])).get(id)`: the last task with the id. -/
def taskById (tasks : List Js) (id : String) : Option Js :=
  tasks.reverse.find? fun task => (task.get "id").isStr id

/-- A field of the task of a phase. -/
def taskField (task : Option Js) (field : String) (missing : Js) : Js :=
  match task with
  | some t => t.get field
  | none => missing

/-- `a === b` of texts, booleans and `null`. -/
def same : Js → Js → Bool
  | .str a, .str b => a == b
  | .bool a, .bool b => a == b
  | .null, .null => true
  | .undefined, .undefined => true
  | _, _ => false

def validatePhase (requiresBoundAttribution : Bool) (tasks : List Js) (index : ℕ) (id : String)
    (phase : Js) : Except CogniError Unit := do
  let name := "snapshot.roadmap.phases[" ++ toString index ++ "]"
  let _ ← requireObject phase name
  rejectUnexpectedKeys phase phaseKeys name
  require ((phase.get "id").isStr id = true)
    (error (name ++ ".id is not the canonical phase at this index"))
  let _ ← requireString (phase.get "title") (name ++ ".title") 1 1024
  require ((phase.get "state").isIn ("missing" :: taskStates) = true)
    (error (name ++ ".state is unsupported"))
  require ((phase.get "trusted_complete").isBoolean = true)
    (error (name ++ ".trusted_complete must be boolean"))
  let commit := phase.get "verified_source_commit"
  require ((commit.isNullish || isCommit commit) = true)
    (error (name ++ ".verified_source_commit is invalid"))
  let hasPhaseReleaseProjection := requiresBoundAttribution ||
    !(phase.get "current_release_state").isUndefined ||
    !(phase.get "current_release_validated").isUndefined || !commit.isUndefined
  require (hasPhaseReleaseProjection = true →
      (phase.get "current_release_state").isIn ("missing" :: taskStates) = true)
    (error (name ++ ".current_release_state is unsupported"))
  require (hasPhaseReleaseProjection = true →
      (phase.get "current_release_validated").isBoolean = true)
    (error (name ++ ".current_release_validated must be boolean"))
  let expectedPrerequisites := if index = 0 then [] else [roadmapPhaseIds.getD (index - 1) ""]
  let prerequisites := (phase.get "prerequisites").asArr?.map fun items => items.map Js.asStr?
  require (prerequisites = some (expectedPrerequisites.map some))
    (error (name ++ ".prerequisites are not canonical"))
  let task := taskById tasks id
  require (same (phase.get "state") (taskField task "state" (.str "missing")) = true)
    (error (name ++ ".state does not match snapshot.tasks"))
  require (hasPhaseReleaseProjection = true → same (phase.get "current_release_state")
      (taskField task "current_release_state" (.str "missing")) = true)
    (error (name ++ ".current_release_state does not match snapshot.tasks"))
  require (hasPhaseReleaseProjection = true → same (phase.get "current_release_validated")
      (.bool (taskField task "current_release_validated" (.bool false)).truthy) = true)
    (error (name ++ ".current_release_validated does not match snapshot.tasks"))
  require (hasPhaseReleaseProjection = true →
      same commit (taskField task "verified_source_commit" .null).orNull = true)
    (error (name ++ ".verified_source_commit does not match snapshot.tasks"))
  require (same (phase.get "trusted_complete") (.bool (isComplete (phase.get "state"))) = true)
    (error (name ++ ".trusted_complete is not evidence-derived"))

/-- `Number.isInteger(value)` between 0 and 11. -/
def isPhaseCount (value : Js) : Bool :=
  (value.asNum?.bind JsNum.integer?).any fun n =>
    0 ≤ n && n ≤ (roadmapPhaseIds.length : ℤ)

def validateRoadmap (requiresBoundAttribution : Bool) (payload : Js) :
    Except CogniError Unit := do
  let tasks := (payload.get "tasks").asArr?.getD []
  let roadmap ← requireObject (payload.get "roadmap") "snapshot.roadmap"
  rejectUnexpectedKeys roadmap ["schema_version", "total", "trusted_complete",
    "current_release_validated", "progress_percent", "progress_basis", "phases"]
    "snapshot.roadmap"
  require ((roadmap.get "schema_version").isInt 1 = true)
    (error "snapshot.roadmap.schema_version is unsupported")
  require ((roadmap.get "total").isInt roadmapPhaseIds.length = true)
    (error "snapshot.roadmap.total must be 11")
  require (isPhaseCount (roadmap.get "trusted_complete") = true)
    (error "snapshot.roadmap.trusted_complete is invalid")
  let hasReleaseProjection :=
    requiresBoundAttribution || !(roadmap.get "current_release_validated").isUndefined
  require (hasReleaseProjection = true →
      isPhaseCount (roadmap.get "current_release_validated") = true)
    (error "snapshot.roadmap.current_release_validated is invalid")
  let bases := "historically-trusted-roadmap-task-states" ::
    (if requiresBoundAttribution then [] else ["trusted-roadmap-task-states"])
  require ((roadmap.get "progress_basis").isIn bases = true)
    (error "snapshot.roadmap.progress_basis is unsupported")
  let phases := (roadmap.get "phases").asArr?.getD []
  require (phases.length = roadmapPhaseIds.length)
    (error "snapshot.roadmap.phases must contain exactly 11 phases")
  (roadmapPhaseIds.zip phases).zipIdx.forM fun ((id, phase), index) =>
    validatePhase requiresBoundAttribution tasks index id phase
  let complete := phases.countP fun phase => isComplete (phase.get "state")
  require ((roadmap.get "trusted_complete").isInt complete = true)
    (error "snapshot.roadmap.trusted_complete does not match trusted phase states")
  let validated := phases.countP fun phase => (phase.get "current_release_validated").truthy
  require (hasReleaseProjection = true →
      (roadmap.get "current_release_validated").isInt validated = true)
    (error "snapshot.roadmap.current_release_validated does not match phases")
  let progress ← requireFiniteNumber (roadmap.get "progress_percent")
    "snapshot.roadmap.progress_percent" 0 100
  require (|progress - percentOf complete roadmapPhaseIds.length| ≤ 1 / 20)
    (error "snapshot.roadmap.progress_percent is not evidence-derived")

/-! ## `resources` -/

def validateResourceUsage (value : Js) (name : String) : Except CogniError Unit :=
  if value.isNullish then .ok ()
  else do
    let _ ← requireObject value name
    rejectUnexpectedKeys value ["used_gib", "total_gib", "percent"] name
    let used ← requireFiniteNumber (value.get "used_gib") (name ++ ".used_gib") 0 (1024 * 1024)
    let total ←
      requireFiniteNumber (value.get "total_gib") (name ++ ".total_gib") (1 / 1000) (1024 * 1024)
    let percent ← requireFiniteNumber (value.get "percent") (name ++ ".percent") 0 100
    require (used ≤ total) (error (name ++ ".used_gib cannot exceed total_gib"))
    require (|percent - percentOf used total| ≤ 1 / 5)
      (error (name ++ ".percent is inconsistent with used and total"))

/-- A number that may be missing. -/
def validateOptionalNumber (value : Js) (name : String) (min max : ℚ) : Except CogniError Unit :=
  if value.isNullish then .ok ()
  else do
    let _ ← requireFiniteNumber value name min max
    .ok ()

def validateResources (payload : Js) : Except CogniError Unit := do
  let resources ← requireObject (payload.get "resources") "snapshot.resources"
  rejectUnexpectedKeys resources ["memory", "disk", "load_average_1m", "uptime_seconds"]
    "snapshot.resources"
  validateResourceUsage (resources.get "memory") "snapshot.resources.memory"
  validateResourceUsage (resources.get "disk") "snapshot.resources.disk"
  validateOptionalNumber (resources.get "load_average_1m") "snapshot.resources.load_average_1m"
    0 100000
  validateOptionalNumber (resources.get "uptime_seconds") "snapshot.resources.uptime_seconds"
    0 (100 * 365 * 24 * 60 * 60)

/-! ## `alerts` -/

/-- `ALERT_CODE`. -/
def isAlertCode : String → Bool :=
  JsText.isWord (fun c => ('A' ≤ c && c ≤ 'Z') || ('0' ≤ c && c ≤ '9') || c == '_' || c == ':' ||
    c == '-') 2 128

def validateAlert (rt : Runtime) (index : ℕ) (alert : Js) : Except CogniError Unit := do
  let name := "alerts[" ++ toString index ++ "]"
  let _ ← requireObject alert name
  rejectUnexpectedKeys alert ["severity", "code", "message", "observed_at"] name
  require ((alert.get "severity").isIn ["info", "warning", "critical"] = true)
    (error (name ++ ".severity is unsupported"))
  let code ← requireString (alert.get "code") (name ++ ".code") 1 128
  require (isAlertCode code = true) (error (name ++ ".code is malformed"))
  let _ ← requireString (alert.get "message") (name ++ ".message") 1 2048
  let _ ← requireIsoTimestamp rt (alert.get "observed_at") (name ++ ".observed_at")
  .ok ()

def validateAlerts (rt : Runtime) (payload : Js) : Except CogniError Unit := do
  let tooMany := error "snapshot.alerts must contain at most 256 items"
  let alerts ← orRaise (payload.get "alerts").asArr? tooMany
  require (alerts.length ≤ 256) tooMany
  alerts.zipIdx.forM fun (alert, index) => validateAlert rt index alert

end Monitoring
