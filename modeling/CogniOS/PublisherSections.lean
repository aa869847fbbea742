/-
# Derived sections of a published snapshot

The sections `tasks_summary`, `roadmap`, `resources` and `alerts` that `build_snapshot` of
`scripts/publish_monitor_snapshot.py` derives from the exported tasks and the measurements of the
host, with `export_tasks`, `task_trust_projection` and `roadmap_snapshot` before them.

What the evidence of a finished task proves is a parameter; quotients are exact, and `round` takes
halves to the even neighbour.
-/
import CogniOS.JsValue
import CogniOS.TaskModel
import CogniOS.WorkspaceState

open Workspace

namespace Publisher

/-! ## Times -/

/-- A reading of `datetime.now`. -/
structure Instant where
  time : Utc
  microsecond : Fin 1000000

/-- `utc_now`: `isoformat` leaves out a zero microsecond. -/
def Instant.text (t : Instant) : String :=
  if t.microsecond.val = 0 then t.time.text
  else String.ofList (t.time.chars.dropLast ++ '.' :: Utc.pad 6 t.microsecond.val ++ ['Z'])

/-! ## The trust projection -/

/-- What valid evidence of a verification says: its commit and the last restatement. -/
structure Authoritative where
  sourceCommit : String
  restatedStatus : Option RestatedStatus
  isHex : Hex.isHex 40 sourceCommit = true

structure TrustProjection where
  recordedState : String
  historicalState : String
  historicalTrusted : Bool
  verifiedSourceCommit : Option String
  currentReleaseState : String
  currentReleaseValidated : Bool

/-- `task_trust_projection`; without valid evidence the record is disputed. -/
def taskTrustProjection (state : TaskState) (currentCommit : Option String)
    (evidence : Option Authoritative) : TrustProjection :=
  if state ≠ .verified ∧ state ≠ .archived then
    ⟨state.text, state.text, false, none, state.text, false⟩
  else match evidence with
    | none => ⟨state.text, "verification_disputed", false, none, "verification_disputed", false⟩
    | some authoritative =>
        match authoritative.restatedStatus with
        | some status => ⟨state.text, status.text, false, none, status.text, false⟩
        | none =>
            let validated :=
              currentCommit.any fun commit => commit.toLower == authoritative.sourceCommit
            ⟨state.text, state.text, true, some authoritative.sourceCommit,
              if validated then state.text else "verification_disputed", validated⟩

/-! ## Public names -/

/-- The canonical task of a roadmap phase. -/
structure PhaseContract where
  id : String
  title : String
  prerequisites : List String

/-- `phase_contracts`. -/
def phaseContracts : List PhaseContract := [
  ⟨"P01-TRUTH", "Phase 1 - Release truth baseline", []⟩,
  ⟨"P02-ORCHESTRATION", "Phase 2 - Trusted orchestration and live evidence channel",
    ["P01-TRUTH"]⟩,
  ⟨"P03-EVIDENCE", "Phase 3 - Evidence kernel", ["P02-ORCHESTRATION"]⟩,
  ⟨"P04-WORLD", "Phase 4 - ESTC world kernel", ["P03-EVIDENCE"]⟩,
  ⟨"P05-FINANCE", "Phase 5 - Financial investment World Pack", ["P04-WORLD"]⟩,
  ⟨"P06-TWIN", "Phase 6 - Agentic Twin and adversarial validation", ["P05-FINANCE"]⟩,
  ⟨"P07-WORKSPACE", "Phase 7 - Local agent workspace", ["P06-TWIN"]⟩,
  ⟨"P08-CORE", "Phase 8 - Cogni-Core measured integration", ["P07-WORKSPACE"]⟩,
  ⟨"P09-HARNESS", "Phase 9 - Governed Self-Harness", ["P08-CORE"]⟩,
  ⟨"P10-COGNIBOARD", "Phase 10 - CogniBoard evidence operations", ["P09-HARNESS"]⟩,
  ⟨"P11-RELEASE", "Phase 11 - Appliance POC and verified release", ["P10-COGNIBOARD"]⟩]

/-- The keys of `PUBLIC_TASK_LABELS`. -/
def publicTaskLabels : List String := phaseContracts.map (·.id) ++ ["T-001"]

/-- `_public_alias`, with the keyed hash of the projection secret. -/
def publicAlias (kind value : String) (secret : Option Hasher) : String :=
  match secret with
  | none => kind ++ "-redacted"
  | some hmac =>
      let digest := hmac.hexdigest (Utf8.encode (kind.toList ++ Char.ofNat 0 :: value.toList))
      kind ++ "-" ++ String.ofList (digest.toList.take 16)

/-- `_public_task_id`. -/
def publicTaskId (value : String) (secret : Option Hasher) : String :=
  let taskId := String.ofList ((if value = "" then "unknown" else value).toList.take 128)
  if taskId ∈ publicTaskLabels then taskId else publicAlias "task" taskId secret

/-! ## Exported tasks -/

/-- What `export_tasks` reads of a task record. -/
structure RawTask where
  id : String
  owner : String
  state : TaskState
  /-- `measured_progress`, where it is a finite number. -/
  measuredProgress : Option ℚ
  updatedAt : Option String
  attempt : ℤ

structure ExportedTask where
  id : String
  owner : String
  state : String
  rawState : String
  historicalTrusted : Bool
  verifiedSourceCommit : Option String
  currentReleaseState : String
  currentReleaseValidated : Bool
  progress : Option ℚ
  nextStep : String
  updatedAt : String
  attempt : ℤ

/-- `_next_step`. -/
def nextStep (state : String) : String :=
  ([("pending", "작업 선점 대기"), ("claimed", "실행 시작"), ("running", "증거 포함 구현 계속"),
    ("blocked", "차단 원인 해소"), ("submitted", "독립 검증 대기"), ("verified", "검증 증거 보관"),
    ("verification_disputed", "신뢰 실행기로 재검증"),
    ("verification_revoked", "폐기된 검증을 새 독립 증거로 대체"), ("rejected", "수정 후 재제출"),
    ("archived", "보관"), ("invalidated", "교정 태스크 생성")].lookup state).getD "상태 확인"

def exportTask (secret : Option Hasher) (currentCommit : Option String) (now : String)
    (evidence : RawTask → Option Authoritative) (task : RawTask) : ExportedTask :=
  let trust := taskTrustProjection task.state currentCommit (evidence task)
  { id := publicTaskId task.id secret
    owner := publicAlias "principal" task.owner secret
    state := trust.historicalState
    rawState := task.state.text
    historicalTrusted := trust.historicalTrusted
    verifiedSourceCommit := trust.verifiedSourceCommit
    currentReleaseState := trust.currentReleaseState
    currentReleaseValidated := trust.currentReleaseValidated
    progress := task.measuredProgress <|> if trust.historicalTrusted then some 100 else none
    nextStep := nextStep trust.currentReleaseState
    updatedAt := task.updatedAt.getD now
    attempt := task.attempt }

/-- `export_tasks`. -/
def exportTasks (secret : Option Hasher) (currentCommit : Option String) (now : String)
    (evidence : RawTask → Option Authoritative) (tasks : List RawTask) : List ExportedTask :=
  tasks.map (exportTask secret currentCommit now evidence)

/-! ## Documents -/

/-- A number of a JSON document. -/
def number (q : ℚ) : Js := .num (.finite q)

def count (n : ℕ) : Js := number n

/-- A text, or `null`. -/
def optional (value : Option String) : Js := (value.map Js.str).getD .null

/-- `round(q, digits)`. -/
def round (q : ℚ) (digits : ℕ) : ℚ := Rounding.halfEven (q * 10 ^ digits) / 10 ^ digits

def ExportedTask.toJs (t : ExportedTask) : Js :=
  .obj [
    ("id", .str t.id),
    ("title", .str "Operational task"),
    ("owner", .str t.owner),
    ("state", .str t.state),
    ("raw_state", .str t.rawState),
    ("historical_state", .str t.state),
    ("historical_trusted", .bool t.historicalTrusted),
    ("verified_source_commit", optional t.verifiedSourceCommit),
    ("current_release_state", .str t.currentReleaseState),
    ("current_release_validated", .bool t.currentReleaseValidated),
    ("progress", (t.progress.map number).getD .null),
    ("next_step", .str t.nextStep),
    ("updated_at", .str t.updatedAt),
    ("attempt", number t.attempt)]

/-- `task_summary`. -/
def taskSummary (tasks : List ExportedTask) : Js :=
  let inState (state : String) := count (tasks.countP (·.state == state))
  let total := tasks.length
  let trustedComplete := tasks.countP (·.historicalTrusted)
  .obj [
    ("total", count total),
    ("pending", inState "pending"),
    ("claimed", inState "claimed"),
    ("running", inState "running"),
    ("blocked", inState "blocked"),
    ("submitted", inState "submitted"),
    ("trusted_verified", count trustedComplete),
    ("verification_disputed", inState "verification_disputed"),
    ("verification_revoked", inState "verification_revoked"),
    ("rejected", inState "rejected"),
    ("current_release_validated", count (tasks.countP (·.currentReleaseValidated))),
    ("completion_percentage",
      if total = 0 then .null else number (round (trustedComplete / total * 100) 1)),
    ("progress_basis", .str "historically-trusted-ledger-task-states")]

/-- One phase of `roadmap_snapshot`. -/
structure Phase where
  contract : PhaseContract
  task : Option ExportedTask

namespace Phase

def state (p : Phase) : String := (p.task.map (·.state)).getD "missing"

def currentReleaseState (p : Phase) : String :=
  (p.task.map (·.currentReleaseState)).getD "missing"

def currentReleaseValidated (p : Phase) : Bool :=
  (p.task.map (·.currentReleaseValidated)).getD false

def complete (p : Phase) : Bool := p.state == "verified" || p.state == "archived"

def toJs (p : Phase) : Js :=
  .obj [
    ("id", .str p.contract.id),
    ("title", .str p.contract.title),
    ("state", .str p.state),
    ("trusted_complete", .bool p.complete),
    ("verified_source_commit", optional (p.task.bind (·.verifiedSourceCommit))),
    ("current_release_state", .str p.currentReleaseState),
    ("current_release_validated", .bool p.currentReleaseValidated),
    ("prerequisites", .arr (p.contract.prerequisites.map Js.str))]

end Phase

/-- The phases of the roadmap; a later task takes the place of an earlier one with its id. -/
def roadmapPhases (tasks : List ExportedTask) : List Phase :=
  phaseContracts.map fun contract => ⟨contract, tasks.reverse.find? (·.id == contract.id)⟩

/-- `roadmap_snapshot`. -/
def roadmapSnapshot (tasks : List ExportedTask) : Js :=
  let phases := roadmapPhases tasks
  let trustedComplete := phases.countP (·.complete)
  .obj [
    ("schema_version", number 1),
    ("total", count phases.length),
    ("trusted_complete", count trustedComplete),
    ("current_release_validated", count (phases.countP (·.currentReleaseValidated))),
    ("progress_percent", number (round (trustedComplete * 100 / phases.length) 1)),
    ("progress_basis", .str "historically-trusted-roadmap-task-states"),
    ("phases", .arr (phases.map Phase.toJs))]

/-! ## Resources -/

/-- A disk or memory reading in bytes, of at least one MiB. -/
structure Reading where
  used : ℕ
  total : ℕ
  used_le : used ≤ total
  mebibyte_le : 2 ^ 20 ≤ total

/-- The readings of `collect_resources`, where the host has them. -/
structure Host where
  disk : Reading
  memory : Option Reading
  loadAverage : Option ℚ≥0
  uptimeSeconds : Option ℕ

namespace Reading

def percent (r : Reading) : ℚ := round (r.used / r.total * 100) 1

def toJs (r : Reading) : Js :=
  .obj [
    ("used_gib", number (round (r.used / 1024 ^ 3) 2)),
    ("total_gib", number (round (r.total / 1024 ^ 3) 2)),
    ("percent", if r.total = 0 then .null else number r.percent)]

end Reading

/-- `collect_resources`. -/
def collectResources (host : Host) : Js :=
  .obj [
    ("disk", host.disk.toJs),
    ("memory", (host.memory.map Reading.toJs).getD .null),
    ("load_average_1m", (host.loadAverage.map fun q : ℚ≥0 => number (round q 2)).getD .null),
    ("uptime_seconds", (host.uptimeSeconds.map count).getD .null)]

/-! ## Alerts -/

/-- `GPU_DENIED_IDS`. -/
def gpuDeniedIds : List ℕ := [6, 7]

/-- What `build_snapshot` measures beside the tasks and the resources. -/
structure Observations where
  gpuViolations : List ℕ
  telemetryMeasured : Bool
  treeClean : Bool
  collectorTreeClean : Bool
  commit : String
  collectorCommit : String
  operationalStateValid : Bool
  denied : gpuViolations.Sublist gpuDeniedIds

def alert (observedAt severity code message : String) : Js :=
  .obj [("severity", .str severity), ("code", .str code), ("message", .str message),
    ("observed_at", .str observedAt)]

def alertIf (condition : Bool) (alert : Js) : List Js := if condition then [alert] else []

/-- The ids of the tasks that the current release has no trusted verification of. -/
def disputed (tasks : List ExportedTask) : List String :=
  (tasks.filter fun t => t.currentReleaseState == "verification_disputed" ||
    t.currentReleaseState == "verification_revoked").map (·.id)

/-- The text of a number with one decimal digit. -/
def decimalText (q : ℚ) : String :=
  let tenths := (q * 10).floor.toNat
  toString (tenths / 10) ++ "." ++ toString (tenths % 10)

/-- The alerts of `build_snapshot`. -/
def alerts (observedAt : String) (tasks : List ExportedTask) (o : Observations) (disk : Reading) :
    List Js :=
  let critical := alert observedAt "critical"
  alertIf (disputed tasks != []) (critical "UNTRUSTED_VERIFICATION"
    ("독립 재현 증거가 없는 VERIFIED 태스크: " ++ ", ".intercalate (disputed tasks))) ++
  alertIf (o.gpuViolations != []) (critical "GPU_POLICY_VIOLATION"
    ("사용 금지 GPU가 활성 상태입니다: " ++
      ", ".intercalate (o.gpuViolations.map fun id => "GPU " ++ toString id))) ++
  alertIf (!o.treeClean) (critical "DIRTY_SOURCE_TREE"
    "커밋되지 않은 소스 변경 때문에 릴리스 증거가 무효입니다.") ++
  alertIf (!o.telemetryMeasured) (critical "GPU_EVIDENCE_UNMEASURED"
    ("GPU 프로세스·컨테이너·스케줄러 예약 증거가 완전 측정되지 " ++
      "않아 릴리스 게이트를 닫았습니다.")) ++
  alertIf (o.collectorCommit != o.commit) (critical "PROVENANCE_COMMIT_MISMATCH"
    "운영 워크스페이스와 수집기 제어면 커밋이 일치하지 않습니다.") ++
  alertIf (!o.collectorTreeClean) (critical "DIRTY_COLLECTOR_SOURCE"
    "수집기 제어면에 커밋되지 않은 소스 변경이 있습니다.") ++
  alertIf (!o.operationalStateValid) (critical "UNVERIFIED_OPERATIONAL_STATE"
    "운영 증거 변경이 원장·projection 정책을 통과하지 못했습니다.") ++
  alertIf (decide (disk.total ≠ 0) && decide (90 ≤ disk.percent)) (alert observedAt "warning"
    "DISK_PRESSURE" ("저장공간 사용률 " ++ decimalText disk.percent ++ "%"))

/-- The sections of `build_snapshot` that it derives from the tasks and the readings. -/
def buildSections (observedAt : String) (tasks : List ExportedTask) (o : Observations)
    (host : Host) : Js :=
  .obj [
    ("tasks_summary", taskSummary tasks),
    ("roadmap", roadmapSnapshot tasks),
    ("tasks", .arr (tasks.map ExportedTask.toJs)),
    ("resources", collectResources host),
    ("alerts", .arr (alerts observedAt tasks o host.disk))]

end Publisher
