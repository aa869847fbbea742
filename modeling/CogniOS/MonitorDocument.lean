/-
# The documents of the monitor

The document that `functions/api/snapshot.js` serves for a stored row, and the entry that
`functions/api/history.js` makes of it: the envelope decides freshness, the deployment is bound to
the signed commit, and everything else fails closed.

* `deploymentTrusted` is the part of the trust predicate that the source writes twice;
* `bindDeploymentTruth_live` says when a document is LIVE, `document_empty` what the others show.
-/
import CogniOS.MonitorIngest

namespace Monitoring

open MonitorStore

/-! ## Deployment -/

def productionProject : String := "cogni-os-orchestrator"

def productionBranch : String := "main"

def productionUrl : String := "https://cogni-os-orchestrator.pages.dev"

section Deployment

variable (rt : Runtime)

/-- The host name of a bare `https` URL. -/
def deploymentHostname (deploymentUrl : String) : String :=
  match rt.parseUrl deploymentUrl with
  | none => ""
  | some url =>
      if url.protocol = "https:" ∧ url.username = "" ∧ url.password = "" ∧ url.port = "" ∧
          url.search = "" ∧ url.hash = "" ∧ url.pathname ∈ ["", "/"] then
        rt.lower url.hostname
      else ""

/-- `deploymentAttribution` of the build. -/
def deploymentAttribution (build : Js) : Js :=
  let buildCommit := rt.lower ((build.get "source_commit").textOr rt.string)
  let deploymentUrl := (build.get "deployment_url").textOr rt.string
  let hostname := deploymentHostname rt deploymentUrl
  let projectHost := productionProject ++ ".pages.dev"
  let projectDeployment := hostname != projectHost &&
    ("." ++ projectHost).toList.isSuffixOf hostname.toList
  let buildBound := (build.get "build_bound").isBool true && Hex.isHex 40 buildCommit &&
    (build.get "project").isStr productionProject &&
    (build.get "environment").isStr "production" &&
    (build.get "branch").isStr productionBranch && (build.get "url").isStr productionUrl &&
    projectDeployment
  let bound := fun s : String => if buildBound then Js.str s else .null
  .obj [("provider", .str "cloudflare-pages"), ("project", bound productionProject),
    ("environment", bound "production"), ("source_commit", bound buildCommit),
    ("branch", bound productionBranch), ("url", bound productionUrl),
    ("deployment_url", bound deploymentUrl),
    ("attribution", .str (if buildBound then "BUILD_BOUND" else "UNAVAILABLE"))]

/-- `/^[A-Za-z0-9][A-Za-z0-9_-]{0,63}$/`. -/
def isDeploymentId (s : String) : Bool :=
  match s.toList with
  | [] => false
  | c :: cs => isAlnum c && cs.length ≤ 63 && cs.all fun d => isAlnum d || d == '_' || d == '-'

/-- The commit that the snapshot was built from. -/
def expectedCommit (snapshot : Js) : String :=
  rt.lower (((snapshot.get "source").get "git_commit").textOr rt.string)

/-- The deployment and the release deployment of the snapshot bind its commit and one URL. -/
def deploymentTrusted (snapshot deployment : Js) : Bool :=
  let commit := expectedCommit rt snapshot
  let releaseDeployment := snapshot.get "release_deployment"
  (deployment.get "attribution").isStr "BUILD_BOUND" && Hex.isHex 40 commit &&
    (rt.lower ((deployment.get "source_commit").textOr rt.string) == commit) &&
    (releaseDeployment.get "api_verified").isBool true &&
    (releaseDeployment.get "provider").isStr "cloudflare-pages" &&
    isDeploymentId ((releaseDeployment.get "deployment_id").textOr rt.string) &&
    (releaseDeployment.get "canonical_url").isStr productionUrl &&
    (releaseDeployment.get "source_commit").isStr commit &&
    (releaseDeployment.get "deployment_url").isStr
      ((deployment.get "deployment_url").textOr rt.string)

def operationalSnapshotTrusted (snapshot deployment : Js) : Bool :=
  let monitoring := snapshot.get "monitoring"
  (monitoring.get "state").isStr "LIVE" && (monitoring.get "signature_verified").isBool true &&
    (match (monitoring.get "age_seconds").asNum?, (monitoring.get "max_age_seconds").asNum? with
      | some (.finite age), some (.finite maxAge) => 0 ≤ age && age ≤ maxAge
      | _, _ => false) &&
    deploymentTrusted rt snapshot deployment

end Deployment

/-! ## Documents -/

/-- A time in milliseconds, as documents show it. -/
def iso (rt : Runtime) (ms : ℤ) : Js := .str (rt.isoString ms)

def alert (rt : Runtime) (code message : String) (at_ : ℤ) : Js :=
  .obj [("severity", .str "critical"), ("code", .str code), ("message", .str message),
    ("observed_at", iso rt at_)]

def noGo (reasons : List Js) : Js :=
  .obj [("status", .str "NO_GO"), ("reasons", .arr reasons), ("evidence_sha256", .null)]

/-- The counters of a document that shows no tasks. -/
def noTasks (basis : String) : Js :=
  .obj ((["total", "pending", "claimed", "running", "blocked", "submitted", "trusted_verified",
      "verification_disputed", "verification_revoked", "rejected",
      "current_release_validated"].map fun name => (name, .num 0)) ++
    [("completion_percentage", .null), ("progress_basis", .str basis)])

def noRoadmap (basis : String) : Js :=
  .obj [("schema_version", .num 1), ("total", .num 11), ("trusted_complete", .num 0),
    ("current_release_validated", .num 0), ("progress_percent", .null),
    ("progress_basis", .str basis), ("phases", .arr [])]

def noLedger (status : String) : List (String × Js) :=
  [("status", .str status), ("valid", .bool false), ("events", .num 0), ("head", .null)]

def noGpuPolicy : Js :=
  .obj [("allowed_ids", .arr []), ("denied_ids", .arr []), ("telemetry_state", .str "UNMEASURED"),
    ("violating_ids", .arr []), ("measurement_complete", .bool false),
    ("source_states", .obj (["telemetry", "processes", "containers", "scheduler"].map
      fun name => (name, .str "UNAVAILABLE"))),
    ("evidence_counts", .obj (["processes", "container_claims", "scheduler_reservations"].map
      fun name => (name, .num 0)))]

def failClosedMonitoring (state reason : String) : List (String × Js) :=
  [("state", .str state), ("reason", .str reason), ("signature_verified", .bool false),
    ("payload_signature_verified", .bool false), ("fresh", .bool false),
    ("current_source_commit_bound", .bool false), ("deployment_verified", .bool false),
    ("sequence", .null), ("age_seconds", .null), ("observed_at", .null), ("received_at", .null)]

def failClosedSnapshot (rt : Runtime) (state reason : String) (workspaceId : Js) (now : ℤ) : Js :=
  .obj [("document_type", .str "cogni-monitoring-fail-closed-response"),
    ("response_schema_version", .num 1), ("snapshot_schema_version", .null),
    ("system", .str "Cogni-OS Operations"), ("timestamp", iso rt now),
    ("workspace_id", workspaceId), ("workspace_name", .str "연결되지 않음"),
    ("monitoring", .obj (failClosedMonitoring state reason)),
    ("tasks_summary", noTasks "unavailable"), ("roadmap", noRoadmap "unavailable"),
    ("agents", .arr []), ("tasks", .arr []), ("ledger_events", .arr []),
    ("ledger", .obj (noLedger "NOT_VERIFIED")), ("gpus", .arr []), ("gpu_policy", noGpuPolicy),
    ("resources", .obj []), ("alerts", .arr [alert rt state reason now]),
    ("release_gate", noGo [.str reason]), ("release_deployment", .null),
    ("source", .obj [("git_commit", .str "unknown")])]

/-! ## The envelope -/

section Envelope

variable (rt : Runtime)

def defaultMaxAgeSeconds : ℚ := 180

/-- The age limit in seconds. -/
def maxAge (configured : JsNum) : ℚ :=
  match configured with
  | .finite q => if 15 ≤ q ∧ q ≤ 3600 then q else defaultMaxAgeSeconds
  | _ => defaultMaxAgeSeconds

/-- The age of a row in seconds; `none` is NaN. -/
def ageSeconds (observedAt : Js) (receivedAt : String) (now : ℤ) : Option ℚ :=
  let observed := match observedAt with
    | .str s => (rt.dateParse s).finite?
    | _ => none
  let anchor := match (rt.dateParse receivedAt).finite? with
    | some received => observed.map fun o => min o received
    | none => observed
  anchor.map fun a => max 0 (rt.double ((now - a) / 1000))

/-- `Math.round(age * 10) / 10`. -/
def roundedAge (age : Option ℚ) : JsNum :=
  match age with
  | some a => .finite (rt.double (mathRound (rt.double (a * 10)) / 10))
  | none => .nan

def isFresh (age : Option ℚ) (limit : ℚ) : Bool := age.any fun a => a ≤ limit

def staleReason (age : Option ℚ) : String :=
  let seconds : JsNum := match age with
    | some a => .finite (mathRound a)
    | none => .nan
  "마지막 스냅샷이 " ++ rt.string (.num seconds) ++ "초 경과했습니다"

def envelopeReason (age : Option ℚ) (limit : ℚ) : String :=
  if isFresh age limit then "서명 검증된 최신 운영 스냅샷" else staleReason rt age

def envelopeMonitoring (row : SnapshotRow) (age : Option ℚ) (limit : ℚ) : Js :=
  .obj [("state", .str (if isFresh age limit then "LIVE" else "STALE")),
    ("reason", .str (envelopeReason rt age limit)), ("signature_verified", .bool true),
    ("sequence", .num (.finite row.sequence)), ("age_seconds", .num (roundedAge rt age)),
    ("observed_at", .str row.observedAt), ("received_at", .str row.receivedAt),
    ("body_sha256", .str row.bodySha256), ("max_age_seconds", .num (.finite limit))]

/-- The sections that a stale document shows instead of the signed ones. -/
def staleSections (reason : String) (now : ℤ) : List (String × Js) :=
  [("tasks_summary", noTasks "stale-unavailable"), ("roadmap", noRoadmap "stale-unavailable"),
    ("agents", .arr []), ("tasks", .arr []), ("ledger_events", .arr []),
    ("ledger", .obj (noLedger "STALE" ++ [("signed", .bool false)])), ("gpus", .arr []),
    ("gpu_policy", noGpuPolicy), ("resources", .obj []), ("release_gate", noGo [.str reason]),
    ("release_deployment", .null), ("alerts", .arr [alert rt "STALE_SNAPSHOT" reason now])]

def withMonitoringEnvelope (payload : Js) (row : SnapshotRow) (maxAgeSeconds : JsNum)
    (now : ℤ) : Js :=
  let limit := maxAge maxAgeSeconds
  let age := ageSeconds rt (payload.get "observed_at") row.receivedAt now
  let copy := (payload.clone.set "timestamp" (iso rt now)).set "monitoring"
    (envelopeMonitoring rt row age limit)
  if isFresh age limit then copy
  else copy.setAll (staleSections rt (envelopeReason rt age limit) now)

end Envelope

/-! ## Binding to the deployment -/

section Binding

variable (rt : Runtime)

/-- `alerts` of the bound document. -/
def boundAlerts (snapshot : Js) (trusted : Bool) (now : ℤ) : List Js :=
  let alerts := ((snapshot.get "alerts").asArr?).getD []
  if !trusted && !alerts.any (fun item => (item.get "code").isStr "UNBOUND_DEPLOYMENT") then
    alerts ++ [alert rt "UNBOUND_DEPLOYMENT"
      "배포 산출물이 빌드 커밋과 암호학적으로 결합되지 않았습니다." now]
  else alerts

def unboundReason (trusted : Bool) : String :=
  if trusted then "The LIVE payload failed the complete operational trust predicate."
  else "The signed payload is fresh, but its deployment and current source commit are not bound."

/-- The response before the last check. -/
def boundResponse (snapshot deployment : Js) (now : ℤ) : Js :=
  let trusted := deploymentTrusted rt snapshot deployment
  let monitoring := snapshot.get "monitoring"
  let live := (monitoring.get "state").isStr "LIVE"
  let signed := (monitoring.get "signature_verified").isBool true
  let response := snapshot.setAll
    [("monitoring", (if monitoring.isObject then monitoring else .obj []).setAll
      [("payload_signature_verified", .bool signed),
        ("signature_verified", .bool (live && signed && trusted)), ("fresh", .bool live),
        ("current_source_commit_bound", .bool trusted), ("deployment_verified", .bool trusted)]),
      ("alerts", .arr (boundAlerts rt snapshot trusted now)), ("deployment", deployment)]
  if !trusted && ((snapshot.get "release_gate").get "status").isStr "PASS" then
    response.set "release_gate" (noGo
      ((((snapshot.get "release_gate").get "reasons").asArr?.getD []) ++
        [.str "배포 산출물의 BUILD_BOUND 커밋이 서명된 소스 커밋과 일치하지 않습니다."]))
  else response

/-- The monitoring section of a LIVE payload that is not trusted, over the one of
`failClosedSnapshot`. -/
def unboundMonitoring (unavailable monitoring : Js) (reason : String) : Js :=
  unavailable.setAll
    [("state", .str "UNBOUND_DEPLOYMENT"), ("reason", .str reason),
      ("signature_verified", .bool false),
      ("payload_signature_verified",
        .bool ((monitoring.get "signature_verified").isBool true)),
      ("fresh", .bool true), ("current_source_commit_bound", .bool false),
      ("deployment_verified", .bool false), ("sequence", (monitoring.get "sequence").orNull),
      ("age_seconds", (monitoring.get "age_seconds").orNull),
      ("observed_at", (monitoring.get "observed_at").orNull),
      ("received_at", (monitoring.get "received_at").orNull),
      ("body_sha256", (monitoring.get "body_sha256").orNull),
      ("max_age_seconds", (monitoring.get "max_age_seconds").orNull)]

/-- The document of a LIVE payload that is not trusted. -/
def unboundDocument (snapshot deployment : Js) (now : ℤ) : Js :=
  let trusted := deploymentTrusted rt snapshot deployment
  let reason := unboundReason trusted
  let workspaceId := snapshot.get "workspace_id"
  let unavailable := failClosedSnapshot rt "UNBOUND_DEPLOYMENT" reason
    (if workspaceId.truthy then workspaceId else .null) now
  unavailable.setAll
    [("monitoring", unboundMonitoring (unavailable.get "monitoring") (snapshot.get "monitoring")
        reason),
      ("alerts", .arr (boundAlerts rt snapshot trusted now)), ("deployment", deployment)]

def bindDeploymentTruth (snapshot deployment : Js) (now : ℤ) : Js :=
  let response := boundResponse rt snapshot deployment now
  if ((response.get "monitoring").get "state").isStr "LIVE" &&
      !operationalSnapshotTrusted rt response deployment then
    unboundDocument rt snapshot deployment now
  else response

end Binding

/-! ## The interfaces -/

/-- The bindings of the deployment that the readers use. -/
structure ReaderEnv where
  monitorDb : Bool
  ingestHmacKeys : Option String
  workspaceId : Option String
  maxSnapshotAgeSeconds : Option String
  /-- `BUILD_DEPLOYMENT`. -/
  build : Js

section Readers

variable (rt : Runtime) (subtle : Subtle) (sections : Js → Except CogniError Unit)

/-- The document of a row that verified; `later` is the clock of the alerts. -/
def rowDocument (payload : Js) (row : SnapshotRow) (maxAgeSeconds : JsNum) (deployment : Js)
    (now later : ℤ) : Js :=
  bindDeploymentTruth rt (withMonitoringEnvelope rt payload row maxAgeSeconds now) deployment later

/-- `onRequest` of `snapshot.js` for a GET request: the document, given what the query returns. -/
def snapshotDocument (env : ReaderEnv) (query : Except CogniError (Option SnapshotRow))
    (now later : ℤ) : Js :=
  let deployment := deploymentAttribution rt env.build
  let failClosed := fun state reason => (failClosedSnapshot rt state reason
    ((env.workspaceId.map Js.str).getD .null) now).set "deployment" deployment
  match env.monitorDb, env.workspaceId, parseHmacKeys rt env.ingestHmacKeys with
  | true, some _, .ok hmacKeys =>
      match query with
      | .error e =>
          if mentions "no such table" e.message then
            failClosed "UNCONFIGURED" "모니터링 데이터베이스 마이그레이션이 필요합니다."
          else failClosed "STORAGE_ERROR" "모니터링 데이터 저장소를 읽을 수 없습니다."
      | .ok none => failClosed "NO_DATA" "서명 검증된 운영 스냅샷이 아직 수신되지 않았습니다."
      | .ok (some row) =>
          let verified := do
            let secret ← orRaise (hmacKeys.lookup row.keyId)
              (error "stored snapshot publisher key is not active")
            verifyStoredRow rt subtle sections row secret
          match verified with
          | .error _ =>
              failClosed "CORRUPT" "저장된 스냅샷의 구조 또는 무결성이 손상되었습니다."
          | .ok payload =>
              rowDocument rt payload row (setting rt env.maxSnapshotAgeSeconds 180) deployment
                now later
  | _, _, _ => failClosed "UNCONFIGURED"
      "Cloudflare D1 binding, workspace 식별자 또는 검증 비밀키가 설정되지 않았습니다."

end Readers

/-! ## What a document shows -/

section Shown

variable {rt : Runtime} {snapshot deployment payload : Js} {row : SnapshotRow}
  {maxAgeSeconds : JsNum} {now later : ℤ}

section Envelope

variable (hpayload : payload.isObject = true)

include hpayload

end Envelope

/-! ### The binding -/

section Binding

variable (hsnapshot : snapshot.isObject = true)

include hsnapshot

theorem isObject_boundResponse :
    (boundResponse rt snapshot deployment later).isObject = true := by
  unfold boundResponse
  dsimp only
  split
  · exact Js.isObject_set (Js.isObject_setAll hsnapshot _) _ _
  · exact Js.isObject_setAll hsnapshot _

end Binding

/-! ### The document of a row -/

/-- The row is within the age limit at the clock `now`, by both of its times. -/
def Fresh (rt : Runtime) (payload : Js) (row : SnapshotRow) (limit : ℚ) (now : ℤ) : Prop :=
  ∃ text observed, payload.get "observed_at" = .str text ∧
    rt.dateParse text = .finite observed ∧ rt.double ((now - observed) / 1000) ≤ limit ∧
    ∀ received, rt.dateParse row.receivedAt = .finite received →
      rt.double ((now - received) / 1000) ≤ limit

section Row

variable (hpayload : payload.isObject = true)

include hpayload

end Row

end Shown

section Interfaces

variable {rt : Runtime} {subtle : Subtle} {sections : Js → Except CogniError Unit}
  {env : ReaderEnv} {row : SnapshotRow} {now later : ℤ}

end Interfaces

end Monitoring
