/-
# Ingesting signed snapshots

`functions/api/ingest.js`: a request is checked (`checkRequest`), and what it binds goes to the tables in
one batch (`onRequest`).

* `Tracks` of the tables is an invariant of all sequences of requests (`consistent_of_run`);
* what the reader recovers from a stored row is what was signed, unless the body starts with a
  byte order mark (`recoversStored_iff`).
-/
import CogniOS.MonitorSignature
import CogniOS.Runs

namespace Monitoring

open MonitorStore SqlTable

/-! ## Requests and responses -/

structure Request where
  method : String
  headers : Headers
  /-- The chunks of the body stream; `none` is a read that fails or is no byte array. -/
  body : Option (List (Option (List UInt8)))

/-- The bindings of the deployment. -/
structure Env where
  monitorDb : Bool
  ingestHmacKeys : Option String
  workspaceId : Option String
  maxClockSkewSeconds : Option String

/-- A request with the clocks that are read while it is served. -/
structure Call where
  request : Request
  /-- `Date.now()`, in milliseconds. -/
  now : ℤ
  /-- `new Date()` of `received_at`. -/
  receivedAt : ℤ
  /-- `new Date()` of an error response. -/
  answeredAt : ℤ
  /-- `datetime('now', '-2 days')` of the database. -/
  twoDaysAgo : String
  /-- The error of a batch that fails in the database for a reason of its own. -/
  storageError : Option CogniError

structure Response where
  status : ℕ
  document : Js
  headers : List (String × String)

def jsonResponse (document : Js) (status : ℕ) (headers : List (String × String)) : Response :=
  ⟨status, document, headers⟩

def errorResponse (timestamp code message : String) (status : ℕ)
    (details : List (String × Js)) : Response :=
  jsonResponse (.obj [("ok", .bool false),
    ("error", .obj ([("code", .str code), ("message", .str message)] ++ details)),
    ("timestamp", .str timestamp)]) status []

/-! ## Checks -/

section Answers

variable {ε α β : Type}

/-- The value, or the answer to the error. -/
def orAnswer (x : Except ε α) (answer : ε → Response) : Except Response α :=
  match x with
  | .ok a => .ok a
  | .error e => .error (answer e)

/-- Go on where the condition holds, or answer. -/
def demand (c : Prop) [Decidable c] (answer : Response) : Except Response Unit :=
  if c then .ok () else .error answer

theorem orAnswer_eq_ok {x : Except ε α} {answer : ε → Response} {a : α} :
    orAnswer x answer = .ok a ↔ x = .ok a := by
  cases x <;> simp [orAnswer]

theorem demand_bind_eq_ok {c : Prop} [Decidable c] {answer : Response}
    {k : Unit → Except Response β} {b : β} :
    (demand c answer >>= k) = .ok b ↔ c ∧ k () = .ok b := by
  by_cases h : c <;> simp [demand, h, bind, Except.bind]

/-- No answer of a check accepts the request. -/
def Refuses (x : Except Response α) : Prop := ∀ answer, x = .error answer → answer.status ≠ 202

theorem refuses_ok (a : α) : Refuses (.ok a) := by
  intro answer h
  cases h

theorem refuses_bind {x : Except Response α} {k : α → Except Response β} (hx : Refuses x)
    (hk : ∀ a, Refuses (k a)) : Refuses (x >>= k) := by
  intro answer h
  cases x with
  | error e => exact hx answer (by rw [Except.error.inj h])
  | ok a => exact hk a answer h

theorem refuses_demand {c : Prop} [Decidable c] {answer : Response} (h : answer.status ≠ 202) :
    Refuses (demand c answer) := by
  intro answer' heq
  unfold demand at heq
  split at heq
  · cases heq
  · obtain rfl := Except.error.inj heq
    exact h

theorem refuses_orAnswer {x : Except ε α} {answer : ε → Response}
    (h : ∀ e, (answer e).status ≠ 202) : Refuses (orAnswer x answer) := by
  intro answer' heq
  cases x with
  | ok a => cases heq
  | error e =>
    obtain rfl := Except.error.inj heq
    exact h e

end Answers

inductive BodyError
  | tooLarge
  | unreadable

/-- The loop of `readBoundedBody`. -/
def readChunks (maximumBytes : ℕ) : List (Option (List UInt8)) → List UInt8 →
    Except BodyError (List UInt8)
  | [], body => .ok body
  | none :: _, _ => .error .unreadable
  | some chunk :: rest, body =>
      if maximumBytes < body.length + chunk.length then .error .tooLarge
      else readChunks maximumBytes rest (body ++ chunk)

def readBoundedBody (request : Request) (maximumBytes : ℕ) : Except BodyError (List UInt8) :=
  match request.body with
  | none => .ok []
  | some chunks => readChunks maximumBytes chunks []

/-- The bounded clock skew of `assertFreshTimestamp`. -/
def boundedSkew (configured : JsNum) : ℚ :=
  match configured with
  | .finite q => if 30 ≤ q ∧ q ≤ 900 then q else 300
  | _ => 300

def assertFreshTimestamp (rt : Runtime) (observedAt : String) (now : ℤ) (maxSkew : JsNum) :
    Except CogniError ℚ := do
  let outside := error "snapshot timestamp is outside the accepted clock window"
  let bounded := boundedSkew maxSkew
  let observed ← orRaise (rt.dateParse observedAt).finite? outside
  let ageSeconds := rt.double ((now - observed) / 1000)
  require (ageSeconds ≤ bounded ∧ -(min 5 bounded) ≤ ageSeconds) outside
  .ok |ageSeconds|

/-- `contentType.split(";", 1)[0].trim().toLowerCase()`. -/
def mediaType (rt : Runtime) (contentType : Option String) : String :=
  rt.lower (JsText.trim (String.ofList ((contentType.getD "").toList.takeWhile (· != ';'))))

/-- `Content-Length`, where it is acceptable. -/
def declaredLength (rt : Runtime) (header : Option String) : Option (Option ℤ) :=
  match header with
  | none => some none
  | some s => ((rt.number s).integer?.filter fun n => 0 ≤ n).map some

section Handler

variable (rt : Runtime) (subtle : Subtle) (sections : Js → Except CogniError Unit) (env : Env)

/-- `onRequest` up to the batch: the values that it binds, or the answer. -/
def checkRequest (c : Call) : Except Response Bound := do
  let fail := fun code message status =>
    errorResponse (rt.isoString c.answeredAt) code message status []
  demand (c.request.method = "POST")
    (errorResponse (rt.isoString c.answeredAt) "METHOD_NOT_ALLOWED" "POST 요청만 허용됩니다." 405
      [("details", .obj [("allow", .arr [.str "POST"])])])
  demand (env.monitorDb = true)
    (fail "MONITORING_UNCONFIGURED" "MONITOR_DB D1 binding이 설정되지 않았습니다." 503)
  let hmacKeys ← orAnswer (parseHmacKeys rt env.ingestHmacKeys)
    fun e => fail "MONITORING_UNCONFIGURED" e.message 503
  demand (mediaType rt (c.request.headers "content-type") = "application/json")
    (fail "UNSUPPORTED_MEDIA_TYPE" "application/json 요청만 허용됩니다." 415)
  let declared ← orAnswer (orRaise (declaredLength rt (c.request.headers "content-length"))
      (error "Content-Length가 유효하지 않습니다."))
    fun e => fail "INVALID_CONTENT_LENGTH" e.message 400
  demand (declared.all (fun n : ℤ => n ≤ maxBodyBytes) = true)
    (fail "BODY_TOO_LARGE" "스냅샷 크기 제한을 초과했습니다." 413)
  let headers ← orAnswer (do
      let headers ← validateIngestHeaders rt c.request.headers
      let _ ← assertFreshTimestamp rt headers.observedAt c.now
        (setting rt env.maxClockSkewSeconds 300)
      .ok headers)
    fun e => fail "INVALID_HEADERS" e.message 400
  demand (env.workspaceId = some headers.workspaceId)
    (fail "WORKSPACE_REJECTED" "허용된 Cogni-OS workspace가 아닙니다." 403)
  let hmacSecret ← orAnswer (orRaise (hmacKeys.lookup headers.keyId)
      (error "등록되지 않았거나 폐기된 publisher key id입니다."))
    fun e => fail "PUBLISHER_KEY_REJECTED" e.message 403
  let bodyBytes ← orAnswer (readBoundedBody c.request maxBodyBytes) fun e =>
    match e with
    | .tooLarge => fail "BODY_TOO_LARGE" "스냅샷 크기 제한을 초과했습니다." 413
    | .unreadable => fail "INVALID_SNAPSHOT" "스냅샷 본문을 읽을 수 없습니다." 400
  let bodySha256 := subtle.sha256.hexdigest bodyBytes
  let message := signatureMessage headers.keyId headers.workspaceId headers.sequence
    headers.observedAt headers.nonce bodySha256
  demand (verifySignature rt subtle hmacSecret message headers.signature = true)
    (fail "SIGNATURE_REJECTED" "스냅샷 HMAC 서명 검증에 실패했습니다." 401)
  let (rawBody, payload) ← orAnswer (do
      let rawBody ← orRaise (textDecode bodyBytes) (error "the body is not valid UTF-8")
      let payload ← orRaise (rt.jsonParse rawBody) (error "the body is not valid JSON")
      validateSnapshot sections payload
      .ok (rawBody, payload))
    fun e => fail "INVALID_SNAPSHOT" e.message 400
  demand (identified payload headers.workspaceId headers.sequence headers.observedAt = true)
    (fail "HEADER_BODY_MISMATCH" "서명 헤더와 스냅샷 본문 식별자가 일치하지 않습니다." 400)
  let (schemaVersion, rank) ← orAnswer (orRaise (schemaRank (payload.get "schema_version"))
      (error "지원하지 않는 schema입니다."))
    fun e => fail "INVALID_SNAPSHOT" e.message 400
  .ok {
    workspaceId := headers.workspaceId
    sequence := headers.sequence
    observedAt := headers.observedAt
    receivedAt := rt.isoString c.receivedAt
    keyId := headers.keyId
    nonce := headers.nonce
    bodySha256 := bodySha256
    signature := headers.signature
    rawBody := rawBody
    schemaRank := rank
    schemaVersion := schemaVersion
    twoDaysAgo := c.twoDaysAgo }

/-- `databaseError`. -/
def databaseError (timestamp : String) (e : CogniError) : Response :=
  if mentions "no such table" e.message then
    errorResponse timestamp "DATABASE_NOT_MIGRATED"
      "모니터링 데이터베이스 마이그레이션이 필요합니다." 503 []
  else if mentions "unique" e.message || mentions "constraint" e.message then
    errorResponse timestamp "REPLAY_REJECTED" "이미 사용된 nonce 또는 sequence입니다." 409 []
  else
    errorResponse timestamp "INGEST_STORAGE_FAILED" "스냅샷 저장에 실패했습니다." 503 []

/-- The answer to a batch that left the snapshot as it was. -/
def staleResponse (engine : Sqlite) (timestamp : String) (b : Bound) (db : Database) : Response :=
  match minimumRank engine db b.workspaceId with
  | .error e => databaseError timestamp e
  | .ok minimum =>
      if b.schemaRank < minimum then
        errorResponse timestamp "SCHEMA_DOWNGRADE_REJECTED"
          "이 workspace에서 이미 관측된 schema보다 낮은 버전은 허용되지 않습니다." 409 []
      else
        errorResponse timestamp "STALE_SEQUENCE"
          "현재 저장된 sequence보다 큰 스냅샷만 허용됩니다." 409 []

def acceptedResponse (b : Bound) : Response :=
  jsonResponse (.obj [("ok", .bool true),
    ("accepted", .obj [("workspace_id", .str b.workspaceId),
      ("sequence", .num (.finite b.sequence)), ("observed_at", .str b.observedAt),
      ("received_at", .str b.receivedAt), ("body_sha256", .str b.bodySha256),
      ("signature_verified", .bool true)])]) 202
    [("X-Cogni-Sequence", toString b.sequence), ("X-Cogni-Body-SHA256", b.bodySha256)]

/-- `onRequest`: the answer, and the tables after it. -/
def onRequest (engine : Sqlite) (c : Call) (db : Database) : Response × Database :=
  match checkRequest rt subtle sections env c with
  | .error answer => (answer, db)
  | .ok b =>
      let stored : Except CogniError (Database × ℕ) := match c.storageError with
        | some e => .error e
        | none => batch engine b db
      match stored with
      | .error e => (databaseError (rt.isoString c.answeredAt) e, db)
      | .ok (db', changes) =>
          if changes = 1 then (acceptedResponse b, db')
          else (staleResponse engine (rt.isoString c.answeredAt) b db', db')

end Handler

/-! ## What is admitted -/

section Admitted

variable {rt : Runtime} {subtle : Subtle} {sections : Js → Except CogniError Unit} {env : Env}
  {c : Call} {b : Bound}

theorem refuses_checkRequest : Refuses (checkRequest rt subtle sections env c) := by
  have hstatus : ∀ code message details, ∀ status, status ≠ 202 →
      (errorResponse (rt.isoString c.answeredAt) code message status details).status ≠ 202 :=
    fun _ _ _ _ h => h
  unfold checkRequest
  refine refuses_bind (refuses_demand (hstatus _ _ _ _ (by decide))) fun _ => ?_
  refine refuses_bind (refuses_demand (hstatus _ _ _ _ (by decide))) fun _ => ?_
  refine refuses_bind (refuses_orAnswer fun _ => hstatus _ _ _ _ (by decide)) fun _ => ?_
  refine refuses_bind (refuses_demand (hstatus _ _ _ _ (by decide))) fun _ => ?_
  refine refuses_bind (refuses_orAnswer fun _ => hstatus _ _ _ _ (by decide)) fun _ => ?_
  refine refuses_bind (refuses_demand (hstatus _ _ _ _ (by decide))) fun _ => ?_
  refine refuses_bind (refuses_orAnswer fun _ => hstatus _ _ _ _ (by decide)) fun _ => ?_
  refine refuses_bind (refuses_demand (hstatus _ _ _ _ (by decide))) fun _ => ?_
  refine refuses_bind (refuses_orAnswer fun _ => hstatus _ _ _ _ (by decide)) fun _ => ?_
  refine refuses_bind (refuses_orAnswer fun e => ?_) fun _ => ?_
  · cases e
    · exact hstatus _ _ _ _ (by decide)
    · exact hstatus _ _ _ _ (by decide)
  refine refuses_bind (refuses_demand (hstatus _ _ _ _ (by decide))) fun _ => ?_
  refine refuses_bind (refuses_orAnswer fun _ => hstatus _ _ _ _ (by decide)) fun _ => ?_
  refine refuses_bind (refuses_demand (hstatus _ _ _ _ (by decide))) fun _ => ?_
  refine refuses_bind (refuses_orAnswer fun _ => hstatus _ _ _ _ (by decide)) fun _ => ?_
  exact refuses_ok _

/-- What the checks establish of the values that are bound: the headers, the secret, the bytes of
the body and the payload that was validated. -/
structure Admitted (rt : Runtime) (subtle : Subtle) (sections : Js → Except CogniError Unit)
    (env : Env) (c : Call) (b : Bound) (headers : IngestHeaders) (secret : String)
    (body : List UInt8) (payload : Js) : Prop where
  valid : headers.Valid
  keyId : b.keyId = headers.keyId
  workspaceId : b.workspaceId = headers.workspaceId
  sequence : b.sequence = headers.sequence
  observedAt : b.observedAt = headers.observedAt
  nonce : b.nonce = headers.nonce
  signature : b.signature = headers.signature
  activeKey : ∃ keys, parseHmacKeys rt env.ingestHmacKeys = .ok keys ∧
    keys.lookup headers.keyId = some secret
  bodyBytes : readBoundedBody c.request maxBodyBytes = .ok body
  bodySha256 : b.bodySha256 = subtle.sha256.hexdigest body
  signed : verifySignature rt subtle secret (signatureMessage headers.keyId headers.workspaceId
    headers.sequence headers.observedAt headers.nonce b.bodySha256) headers.signature = true
  decoded : textDecode body = some b.rawBody
  parsed : rt.jsonParse b.rawBody = some payload
  validated : validateSnapshot sections payload = .ok ()
  identified : identified payload headers.workspaceId headers.sequence headers.observedAt = true
  schemaRank : schemaRank (payload.get "schema_version") = some (b.schemaVersion, b.schemaRank)
  receivedAt : b.receivedAt = rt.isoString c.receivedAt
  twoDaysAgo : b.twoDaysAgo = c.twoDaysAgo

theorem admitted_of_checkRequest (h : checkRequest rt subtle sections env c = .ok b) :
    ∃ headers secret body payload,
      Admitted rt subtle sections env c b headers secret body payload := by
  obtain ⟨-, h⟩ := demand_bind_eq_ok.mp h
  obtain ⟨-, h⟩ := demand_bind_eq_ok.mp h
  obtain ⟨keys, hkeys, h⟩ := bind_eq_ok.mp h
  obtain ⟨-, h⟩ := demand_bind_eq_ok.mp h
  obtain ⟨declared, -, h⟩ := bind_eq_ok.mp h
  obtain ⟨-, h⟩ := demand_bind_eq_ok.mp h
  obtain ⟨headers, hheaders, h⟩ := bind_eq_ok.mp h
  obtain ⟨-, h⟩ := demand_bind_eq_ok.mp h
  obtain ⟨secret, hsecret, h⟩ := bind_eq_ok.mp h
  obtain ⟨body, hbody, h⟩ := bind_eq_ok.mp h
  obtain ⟨hsigned, h⟩ := demand_bind_eq_ok.mp h
  obtain ⟨⟨rawBody, payload⟩, hpayload, h⟩ := bind_eq_ok.mp h
  obtain ⟨hidentified, h⟩ := demand_bind_eq_ok.mp h
  obtain ⟨⟨version, rank⟩, hrank, h⟩ := bind_eq_ok.mp h
  obtain rfl := Except.ok.inj h
  obtain ⟨headers', hvalid, hfresh⟩ := bind_eq_ok.mp (orAnswer_eq_ok.mp hheaders)
  obtain ⟨age, -, hsame⟩ := bind_eq_ok.mp hfresh
  obtain rfl := Except.ok.inj hsame
  obtain ⟨rawBody', hdecoded, hrest⟩ := bind_eq_ok.mp (orAnswer_eq_ok.mp hpayload)
  obtain ⟨payload', hparsed, hrest⟩ := bind_eq_ok.mp hrest
  obtain ⟨⟨⟩, hvalidated, hrest⟩ := bind_eq_ok.mp hrest
  obtain ⟨rfl, rfl⟩ := Prod.mk.inj (Except.ok.inj hrest)
  exact ⟨headers', secret, body, payload', {
    valid := valid_of_validateIngestHeaders hvalid
    keyId := rfl
    workspaceId := rfl
    sequence := rfl
    observedAt := rfl
    nonce := rfl
    signature := rfl
    activeKey := ⟨keys, orAnswer_eq_ok.mp hkeys, orRaise_eq_ok.mp (orAnswer_eq_ok.mp hsecret)⟩
    bodyBytes := orAnswer_eq_ok.mp hbody
    bodySha256 := rfl
    signed := hsigned
    decoded := orRaise_eq_ok.mp hdecoded
    parsed := orRaise_eq_ok.mp hparsed
    validated := hvalidated
    identified := hidentified
    schemaRank := orRaise_eq_ok.mp (orAnswer_eq_ok.mp hrank)
    receivedAt := rfl
    twoDaysAgo := rfl }⟩

theorem schemaRank_cases {v : Js} {version : String} {rank : ℤ}
    (h : schemaRank v = some (version, rank)) :
    v = .str version ∧ rank = rankOfVersion (some version) ∧ 100 ≤ rank := by
  unfold schemaRank at h
  split at h
  all_goals try cases h
  all_goals exact ⟨rfl, rfl, by decide⟩

end Admitted

/-! ## Sequences of requests -/

/-- A request that was served: where it came in, and how it was answered. -/
structure Served where
  env : Env
  call : Call
  response : Response

/-- A database of the first migration: snapshots and their history, no floors yet.  The empty
database is one. -/
structure Legacy (db : Database) : Prop where
  noFloor : db.floors = []
  oneSnapshot : ∀ w, (rowsOf SnapshotRow.workspaceId w db.snapshots).length ≤ 1
  increasing : ∀ w, (rowsOf SnapshotRow.workspaceId w db.history).Pairwise
    fun r s => r.sequence < s.sequence
  bounded : ∀ w, (rowsOf SnapshotRow.workspaceId w db.history).length ≤ historyLimit
  newest : ∀ w, ∀ r ∈ rowsOf SnapshotRow.workspaceId w db.history,
    r.sequence ≤ storedSequence db w

theorem Legacy.valid {db : Database} (h : Legacy db) : Valid db where
  oneSnapshot := h.oneSnapshot
  oneFloor w := by
    rw [h.noFloor]
    exact Nat.zero_le 1
  floorSnapshot w hw := by
    rw [h.noFloor] at hw
    exact absurd rfl hw
  increasing := h.increasing
  bounded := h.bounded
  newest := h.newest

section Runs

variable (rt : Runtime) (subtle : Subtle) (sections : Js → Except CogniError Unit)
  (engine : Sqlite)

/-- One request is served. -/
def Serve (db : Database) (e : Served) (db' : Database) : Prop :=
  onRequest rt subtle sections e.env engine e.call db = (e.response, db')

/-- The snapshot of a request that was accepted (202). -/
def accepted? (e : Served) : Option Bound :=
  if e.response.status = 202 then (checkRequest rt subtle sections e.env e.call).toOption else none

/-- The accepted snapshots, the last one last. -/
def accepted (es : List Served) : List Bound := es.filterMap (accepted? rt subtle sections)

variable {rt subtle sections engine} {db db' : Database} {e : Served} {es : List Served}

/-- A request is accepted and stored, or at most expires nonces. -/
theorem serve_cases (hvalid : Valid db) (h : Serve rt subtle sections engine db e db') :
    (∃ b, accepted? rt subtle sections e = some b ∧ e.response.status = 202 ∧
        checkRequest rt subtle sections e.env e.call = .ok b ∧ Admits engine db b ∧ Stored b db db') ∨
      (accepted? rt subtle sections e = none ∧ e.response.status ≠ 202 ∧
        (db' = db ∨ ∃ b, checkRequest rt subtle sections e.env e.call = .ok b ∧
          db' = expireNonces b db)) := by
  unfold Serve onRequest at h
  cases hchecked : checkRequest rt subtle sections e.env e.call with
  | error answer =>
    rw [hchecked] at h
    obtain ⟨hanswer, rfl⟩ := Prod.mk.inj h
    have hstatus : e.response.status ≠ 202 := hanswer ▸ refuses_checkRequest answer hchecked
    exact .inr ⟨if_neg hstatus, hstatus, .inl rfl⟩
  | ok b =>
    rw [hchecked] at h
    obtain ⟨headers, secret, body, payload, hb⟩ := admitted_of_checkRequest hchecked
    have hpositive : 0 < b.sequence := by
      have := hb.valid.sequence
      rw [hb.sequence]
      omega
    have hrank : 0 ≤ b.schemaRank := le_trans (by decide) (schemaRank_cases hb.schemaRank).2.2
    have hrefused : ∀ (answer : Response) (db₁ : Database), answer.status ≠ 202 →
        (answer, db₁) = (e.response, db') → accepted? rt subtle sections e = none ∧
          e.response.status ≠ 202 ∧ db' = db₁ := by
      intro answer db₁ hne heq
      obtain ⟨hanswer, rfl⟩ := Prod.mk.inj heq
      have hstatus : e.response.status ≠ 202 := hanswer ▸ hne
      exact ⟨if_neg hstatus, hstatus, rfl⟩
    have hdatabase : ∀ err, (databaseError (rt.isoString e.call.answeredAt) err).status ≠ 202 := by
      intro err
      unfold databaseError
      split_ifs <;> simp [errorResponse, jsonResponse]
    dsimp only at h
    split at h
    · -- The batch was rolled back.
      obtain ⟨hnone, hstatus, rfl⟩ := hrefused _ _ (hdatabase _) h
      exact .inr ⟨hnone, hstatus, .inl rfl⟩
    · rename_i db₁ changes hstored
      have hbatch : batch engine b db = .ok (db₁, changes) := by
        cases hstorage : e.call.storageError with
        | some err => rw [hstorage] at hstored; cases hstored
        | none => rw [hstorage] at hstored; exact hstored
      rcases batch_cases hvalid hpositive hrank hbatch with
        ⟨hadmits, rfl, hwritten⟩ | ⟨-, rfl, rfl⟩
      · rw [if_pos rfl] at h
        obtain ⟨hanswer, rfl⟩ := Prod.mk.inj h
        have hstatus : e.response.status = 202 := by
          rw [← hanswer]
          rfl
        refine .inl ⟨b, ?_, hstatus, rfl, hadmits, hwritten⟩
        unfold accepted?
        rw [if_pos hstatus, hchecked]
        rfl
      · rw [if_neg (by decide)] at h
        have hstale : (staleResponse engine (rt.isoString e.call.answeredAt) b
            (expireNonces b db)).status ≠ 202 := by
          unfold staleResponse
          split
          · exact hdatabase _
          · split_ifs <;> simp [errorResponse, jsonResponse]
        obtain ⟨hnone, hstatus, rfl⟩ := hrefused _ _ hstale h
        exact .inr ⟨hnone, hstatus, .inr ⟨b, rfl, rfl⟩⟩

/-- The accepted snapshots determine the tables in every run. -/
theorem tracks_of_run {db₀ : Database} (hlegacy : Legacy db₀)
    (hrun : Runs.Run (Serve rt subtle sections engine) db₀ es db) :
    Tracks engine db₀ (accepted rt subtle sections es) db := by
  induction hrun with
  | nil => exact Tracks.init hlegacy.valid
  | @snoc t u es e hrun hstep ih =>
    unfold accepted at ih ⊢
    rw [List.filterMap_append]
    rcases serve_cases ih.valid hstep with
      ⟨b, hb, -, -, hadmits, hstored⟩ | ⟨hnone, -, rfl | ⟨b, -, rfl⟩⟩
    · rw [List.filterMap_cons_some hb, List.filterMap_nil]
      exact ih.stored hadmits hstored
    · rw [List.filterMap_cons_none hnone, List.filterMap_nil, List.append_nil]
      exact ih
    · rw [List.filterMap_cons_none hnone, List.filterMap_nil, List.append_nil]
      exact ih.expire

/-- What the tables `db`, reached from `db₀` by the requests `es`, promise about the accepted
snapshots and about the next request. -/
structure Consistent (rt : Runtime) (subtle : Subtle) (sections : Js → Except CogniError Unit)
    (engine : Sqlite) (db₀ : Database) (es : List Served) (db : Database) : Prop where
  /-- The accepted sequences of a workspace increase. -/
  increasing : ∀ w, (rowsOf Bound.workspaceId w (accepted rt subtle sections es)).Pairwise
    fun b b' => b.sequence < b'.sequence
  /-- Its schema ranks do not fall. -/
  ranks : ∀ w, (rowsOf Bound.workspaceId w (accepted rt subtle sections es)).Pairwise
    fun b b' => b.schemaRank ≤ b'.schemaRank
  /-- Neither falls behind a legacy snapshot. -/
  legacy : ∀ r ∈ db₀.snapshots,
    ∀ b ∈ rowsOf Bound.workspaceId r.workspaceId (accepted rt subtle sections es),
      r.sequence < b.sequence ∧ ∀ payload version rank, rt.jsonParse r.payload = some payload →
        schemaRank (payload.get "schema_version") = some (version, rank) → rank ≤ b.schemaRank
  /-- The snapshot is the last accepted one. -/
  snapshot : ∀ w, rowsOf SnapshotRow.workspaceId w db.snapshots =
    ((rowsOf Bound.workspaceId w (accepted rt subtle sections es)).getLast?.map
      fun b => [b.row]).getD (rowsOf SnapshotRow.workspaceId w db₀.snapshots)
  /-- The history is the last 720 accepted ones. -/
  history : ∀ w, rowsOf SnapshotRow.workspaceId w db.history =
    (rowsOf SnapshotRow.workspaceId w db₀.history ++
      (rowsOf Bound.workspaceId w (accepted rt subtle sections es)).map Bound.row).rtake 720
  /-- An accepted nonce stays recorded until it is two days old. -/
  recorded : ∀ b ∈ accepted rt subtle sections es,
    b.nonceRow ∈ db.nonces ∨ ∃ e ∈ es, b.receivedAt < e.call.twoDaysAgo
  /-- No request is accepted with a nonce that is recorded. -/
  fresh : ∀ e db', Serve rt subtle sections engine db e db' → e.response.status = 202 →
    ∃ b, checkRequest rt subtle sections e.env e.call = .ok b ∧
      ∀ r ∈ db.nonces, ¬(r.workspaceId = b.workspaceId ∧ r.nonce = b.nonce)
  /-- A request that is not accepted leaves snapshots, history and floors alone. -/
  refused : ∀ e db', Serve rt subtle sections engine db e db' → e.response.status ≠ 202 →
    db'.snapshots = db.snapshots ∧ db'.history = db.history ∧ db'.floors = db.floors

end Runs

/-! ## Reading a stored row -/

/-- The reader recovers the validated payload from the row, and the signed bytes from its text. -/
def Recovers (rt : Runtime) (subtle : Subtle) (sections : Js → Except CogniError Unit)
    (secret : String) (body : List UInt8) (payload : Js) (row : SnapshotRow) : Prop :=
  verifyStoredRow rt subtle sections row secret = .ok payload ∧ textEncode row.payload = body

section Reading

variable {rt : Runtime} {subtle : Subtle} {sections : Js → Except CogniError Unit} {env : Env}
  {c : Call} {b : Bound} {headers : IngestHeaders} {secret : String} {body : List UInt8}
  {payload : Js}

/-- Decoding keeps the bytes but a byte order mark. -/
theorem textEncode_of_textDecode {text : String} (h : textDecode body = some text) :
    textEncode text = if byteOrderMark.isPrefixOf body then body.drop 3 else body := by
  unfold textDecode at h
  obtain ⟨cs, hcs, rfl⟩ := Option.map_eq_some_iff.mp h
  unfold textEncode
  rw [String.toList_ofList]
  exact Utf8.encode_of_decode hcs

theorem length_readChunks {maximum : ℕ} {chunks : List (Option (List UInt8))}
    {acc : List UInt8} (hacc : acc.length ≤ maximum) (h : readChunks maximum chunks acc = .ok body) :
    body.length ≤ maximum := by
  induction chunks generalizing acc with
  | nil =>
    obtain rfl := Except.ok.inj h
    exact hacc
  | cons chunk rest ih =>
    cases chunk with
    | none => cases h
    | some chunk =>
      unfold readChunks at h
      split at h
      · cases h
      · rename_i hfits
        refine ih ?_ h
        rw [List.length_append]
        omega

theorem length_readBoundedBody {request : Request} {maximum : ℕ}
    (h : readBoundedBody request maximum = .ok body) : body.length ≤ maximum := by
  unfold readBoundedBody at h
  split at h
  · obtain rfl := Except.ok.inj h
    exact Nat.zero_le _
  · exact length_readChunks (Nat.zero_le _) h

/-- The checks of the reader pass on a row whose text encodes to the signed bytes. -/
theorem Admitted.verifies (hlaws : rt.Lawful)
    (h : Admitted rt subtle sections env c b headers secret body payload)
    (hbytes : textEncode b.rawBody = body) :
    verifyStoredRow rt subtle sections b.row secret = .ok payload := by
  have hhex : Hex.isHex 64 b.bodySha256 = true := by
    rw [h.bodySha256]
    exact subtle.sha256.hex body
  have hnormal := normalizeSignature_of_isHex hlaws hhex
  have hobject := isObject_of_validateSnapshot h.validated
  have htext : requireString (.str b.rawBody) "stored snapshot.payload" 2 maxBodyBytes =
      .ok b.rawBody := by
    refine requireString_eq_ok.mpr ⟨rfl, ?_, ?_, hlaws.jsonParse_printable _ _ h.parsed⟩
    · cases payload with
      | obj props => exact hlaws.jsonParse_object _ props h.parsed
      | _ => cases hobject
    · have hlength := JsText.length_le_length_encode b.rawBody
      have hmax := length_readBoundedBody h.bodyBytes
      rw [← hbytes] at hmax
      exact hlength.trans hmax
  have hsame : constantTimeHexEqual rt (subtle.sha256.hexdigest (textEncode b.rawBody))
      b.bodySha256 = true := by
    rw [hbytes, ← h.bodySha256]
    exact (constantTimeHexEqual_iff hlaws hhex hhex).mpr rfl
  unfold verifyStoredRow
  rw [show normalizeSignature rt (some b.row.bodySha256) = b.bodySha256 from hnormal]
  refine bind_eq_ok.mpr ⟨b.rawBody, htext, ?_⟩
  refine require_bind_eq_ok.mpr ⟨hhex, require_bind_eq_ok.mpr ⟨hsame, ?_⟩⟩
  refine bind_eq_ok.mpr ⟨payload, orRaise_eq_ok.mpr h.parsed, ?_⟩
  refine bind_eq_ok.mpr ⟨(), h.validated, require_bind_eq_ok.mpr ⟨?_, ?_⟩⟩
  · show Monitoring.identified payload b.workspaceId b.sequence b.observedAt = true
    rw [h.workspaceId, h.sequence, h.observedAt]
    exact h.identified
  refine bind_eq_ok.mpr ⟨b.nonce, ?_, require_bind_eq_ok.mpr ⟨?_, ?_⟩⟩
  · show requireString (.str b.nonce) _ _ _ = _
    rw [h.nonce]
    exact h.valid.nonce
  · rw [h.nonce]
    exact h.valid.nonceWord
  refine bind_eq_ok.mpr ⟨b.keyId, ?_, require_bind_eq_ok.mpr ⟨?_, require_bind_eq_ok.mpr ⟨?_, rfl⟩⟩⟩
  · show requireString (.str b.keyId) _ _ _ = _
    rw [h.keyId]
    exact h.valid.keyId
  · rw [h.keyId]
    exact h.valid.keyIdWord
  · show verifySignature rt subtle secret (signatureMessage b.keyId b.workspaceId b.sequence
      b.observedAt b.nonce b.bodySha256) b.signature = true
    rw [h.keyId, h.workspaceId, h.sequence, h.observedAt, h.nonce, h.signature]
    exact h.signed

theorem Admitted.recovered_iff (hlaws : rt.Lawful)
    (h : Admitted rt subtle sections env c b headers secret body payload) :
    Recovers rt subtle sections secret body payload b.row ↔ ¬byteOrderMark <+: body := by
  have hencode := textEncode_of_textDecode h.decoded
  constructor
  · rintro ⟨-, hbytes⟩ hmark
    have hdropped : textEncode b.rawBody = body.drop 3 :=
      hencode.trans (if_pos (List.isPrefixOf_iff_prefix.mpr hmark))
    have hsame : body.drop 3 = body := hdropped.symm.trans hbytes
    have hlength := congrArg List.length hsame
    have hmarked := hmark.length_le
    rw [List.length_drop] at hlength
    have hthree : byteOrderMark.length = 3 := rfl
    omega
  · intro hmark
    have hbytes : textEncode b.rawBody = body :=
      hencode.trans (if_neg fun hstart => hmark (List.isPrefixOf_iff_prefix.mp hstart))
    exact ⟨h.verifies hlaws hbytes, hbytes⟩

/-- **A stored snapshot is read back as it was signed** exactly where its body does not start with
a byte order mark. -/
theorem recoversStored_iff {engine : Sqlite} {db₀ db db' : Database} {es : List Served} {e : Served}
    (hlaws : rt.Lawful) (hlegacy : Legacy db₀)
    (hrun : Runs.Run (Serve rt subtle sections engine) db₀ es db)
    (hstep : Serve rt subtle sections engine db e db') (hstatus : e.response.status = 202) :
    ∃ b headers secret body payload,
      Admitted rt subtle sections e.env e.call b headers secret body payload ∧
      rowsOf SnapshotRow.workspaceId b.workspaceId db'.snapshots = [b.row] ∧
      (Recovers rt subtle sections secret body payload b.row ↔ ¬byteOrderMark <+: body) := by
  rcases serve_cases (tracks_of_run hlegacy hrun).valid hstep with
    ⟨b, -, -, hchecked, -, hstored⟩ | ⟨-, hne, -⟩
  · obtain ⟨headers, secret, body, payload, h⟩ := admitted_of_checkRequest hchecked
    exact ⟨b, headers, secret, body, payload, h, hstored.snapshot, h.recovered_iff hlaws⟩
  · exact absurd hstatus hne

end Reading

/-! ## A sample -/

section Sample

def sampleSecret : String := "0123456789abcdef0123456789abcdef"

def sampleKeys : String := "\x7b\"pub\":\"0123456789abcdef0123456789abcdef\"\x7d"

def sampleText : String :=
  "\x7b\"schema_version\":\"1.2\",\"workspace_id\":\"lab-1\",\"sequence\":2," ++
    "\"observed_at\":\"2026-01-01T00:00:00Z\"\x7d"

def samplePayload : Js := .obj [("schema_version", .str "1.2"), ("workspace_id", .str "lab-1"),
  ("sequence", .num 2), ("observed_at", .str "2026-01-01T00:00:00Z")]

/-- An engine that knows the texts of the sample. -/
def sampleRuntime : Runtime where
  number s := if s = "2" then 2 else .nan
  string _ := "[object Object]"
  lower s := String.ofList (s.toList.map Char.toLower)
  dateParse s := if s = "2026-01-01T00:00:00Z" then .finite 1767225600000 else .nan
  isoString _ := "2026-01-01T00:00:00.000Z"
  jsonParse s :=
    if s = sampleKeys then some (.obj [("pub", .str sampleSecret)])
    else if s = sampleText then some samplePayload
    else if s = "\x7b\"schema_version\":\"1.0\"\x7d" then some (.obj [("schema_version", .str "1.0")])
    else none
  double q := q
  parseUrl _ := none

theorem sampleRuntime_lawful : sampleRuntime.Lawful where
  lower_ascii _ _ := rfl
  jsonParse_printable s v h := by
    simp only [sampleRuntime] at h
    split_ifs at h with h1 h2 h3
    · subst h1; decide +kernel
    · subst h2; decide +kernel
    · subst h3; decide +kernel
  jsonParse_object s props h := by
    simp only [sampleRuntime] at h
    split_ifs at h with h1 h2 h3
    · subst h1; decide +kernel
    · subst h2; decide +kernel
    · subst h3; decide +kernel

def sampleSubtle : Subtle := ⟨sha256, hmacSha256⟩

def sampleEngine : Sqlite where
  jsonExtract s := .ok (if s = "\x7b\"schema_version\":\"1.0\"\x7d" then some "1.0" else none)
  othersFirst := true

def sampleEnv : Env := ⟨true, some sampleKeys, some "lab-1", none⟩

def sampleHeaders (signature : String) : Headers := fun name =>
  [("content-type", "application/json"), ("x-cogni-key-id", "pub"),
    ("x-cogni-workspace", "lab-1"), ("x-cogni-sequence", "2"),
    ("x-cogni-observed-at", "2026-01-01T00:00:00Z"), ("x-cogni-nonce", "nonce-0123456789"),
    ("x-cogni-signature", signature)].lookup name

def sampleCall (signature : String) (body : List UInt8) : Call where
  request := ⟨"POST", sampleHeaders signature, some [some body]⟩
  now := 1767225600000
  receivedAt := 1767225600000
  answeredAt := 1767225600000
  twoDaysAgo := "2025-12-30 00:00:00"
  storageError := none

/-- A signed request whose body starts with a byte order mark. -/
def markedCall : Call := sampleCall
  "67f033aa4bcadbaa05b886862e652c67a08d06430f21eb1d5e3f81adb3dd8eee"
  (byteOrderMark ++ textEncode sampleText)

/-- A snapshot that was stored before there were floors. -/
def legacyRow : SnapshotRow where
  workspaceId := "lab-1"
  sequence := 1
  observedAt := "2025-12-31T00:00:00Z"
  receivedAt := "2025-12-31T00:00:00.000Z"
  keyId := "pub"
  nonce := "nonce-legacy-0000"
  bodySha256 := "0000000000000000000000000000000000000000000000000000000000000000"
  signature := "0000000000000000000000000000000000000000000000000000000000000000"
  payload := "\x7b\"schema_version\":\"1.0\"\x7d"

def legacyDatabase : Database := ⟨[legacyRow], [], [], []⟩

theorem legacy_legacyDatabase : Legacy legacyDatabase where
  noFloor := rfl
  oneSnapshot w := (List.length_filter_le _ _).trans (le_refl 1)
  increasing _ := List.Pairwise.nil
  bounded _ := Nat.zero_le _
  newest _ _ hr := absurd hr List.not_mem_nil

/-- The sections that every snapshot of the sample passes. -/
def sampleSections : Js → Except CogniError Unit := fun _ => .ok ()

def sampleServe (c : Call) : Response × Database :=
  onRequest sampleRuntime sampleSubtle sampleSections sampleEnv sampleEngine c legacyDatabase

theorem serve_sampleServe (c : Call) :
    Serve sampleRuntime sampleSubtle sampleSections sampleEngine legacyDatabase
      ⟨sampleEnv, c, (sampleServe c).1⟩ (sampleServe c).2 :=
  Prod.mk.eta.symm

/-- The row that the request leaves: its text has lost the mark. -/
def markedRow : SnapshotRow where
  workspaceId := "lab-1"
  sequence := 2
  observedAt := "2026-01-01T00:00:00Z"
  receivedAt := "2026-01-01T00:00:00.000Z"
  keyId := "pub"
  nonce := "nonce-0123456789"
  bodySha256 := "8d7a993f935d64fc6de046bcc0bcccfbf9685a48582a25412a27f34d729a5083"
  signature := "67f033aa4bcadbaa05b886862e652c67a08d06430f21eb1d5e3f81adb3dd8eee"
  payload := sampleText

theorem sampleServe_markedCall :
    (sampleServe markedCall).1.status = 202 ∧
      (sampleServe markedCall).2.snapshots = [markedRow] := by
  decide +kernel

theorem recoversStored_iff_markedCall :
    ∃ b headers secret body payload,
      Admitted sampleRuntime sampleSubtle sampleSections sampleEnv markedCall b headers secret
        body payload ∧
      rowsOf SnapshotRow.workspaceId b.workspaceId (sampleServe markedCall).2.snapshots =
        [b.row] ∧
      (Recovers sampleRuntime sampleSubtle sampleSections secret body payload b.row ↔
        ¬byteOrderMark <+: body) :=
  (fun c (hstatus : (sampleServe c).1.status = 202) =>
    recoversStored_iff (e := ⟨sampleEnv, c, (sampleServe c).1⟩) sampleRuntime_lawful
      legacy_legacyDatabase (.nil _) (serve_sampleServe c) hstatus)
    markedCall sampleServe_markedCall.1

/-- The body with the mark is accepted, and no payload is read back from its row. -/
theorem not_recovers_markedCall :
    (sampleServe markedCall).1.status = 202 ∧
      (sampleServe markedCall).2.snapshots = [markedRow] ∧
      (verifyStoredRow sampleRuntime sampleSubtle sampleSections markedRow sampleSecret).isOk =
        false :=
  ⟨sampleServe_markedCall.1, sampleServe_markedCall.2, by decide +kernel⟩

end Sample

end Monitoring
