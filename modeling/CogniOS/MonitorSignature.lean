/-
# Signed snapshots

The checks of `functions/_lib/monitoring.js` on the headers of an ingest request and on a stored
row: bounded strings, the HMAC over the message of seven lines, and the validation of the payload,
whose sections are a parameter here.

* `requireString_eq_ok`, `verifySignature_iff` are what the callers use of the checks;
* a normalised signature is a fixed point of `normalizeSignature`.
-/
import CogniOS.JsValue
import CogniOS.MonitorStore

namespace Monitoring

open MonitorStore JsText

/-! ## Checks -/

def error (message : String) : CogniError := ⟨.other, message⟩

def maxBodyBytes : ℕ := 1024 * 1024

def ingestProtocol : String := "COGNI-SNAPSHOT-V2"

def requireObject (value : Js) (name : String) : Except CogniError Js := do
  require (value.isObject = true) (error (name ++ " must be an object"))
  .ok value

def requireString (value : Js) (name : String) (min max : ℕ) : Except CogniError String := do
  let e := error (name ++ " must be a bounded printable string")
  let s ← orRaise value.asStr? e
  require (min ≤ JsText.length s ∧ JsText.length s ≤ max ∧ s.toList.any isControl = false) e
  .ok s

def requireIsoTimestamp (rt : Runtime) (value : Js) (name : String) : Except CogniError ℚ := do
  let s ← requireString value name 20 40
  orRaise (rt.dateParse s).finite? (error (name ++ " is not ISO-8601"))

theorem requireString_eq_ok {value : Js} {name s : String} {min max : ℕ} :
    requireString value name min max = .ok s ↔
      value = .str s ∧ min ≤ JsText.length s ∧ JsText.length s ≤ max ∧
        s.toList.any isControl = false := by
  unfold requireString
  rw [bind_eq_ok]
  constructor
  · rintro ⟨t, ht, h⟩
    obtain ⟨hbounds, h⟩ := require_bind_eq_ok.mp h
    obtain rfl : t = s := Except.ok.inj h
    refine ⟨?_, hbounds⟩
    rw [orRaise_eq_ok] at ht
    cases value <;> simp [Js.asStr?] at ht
    rw [ht]
  · rintro ⟨rfl, hbounds⟩
    exact ⟨s, rfl, require_bind_eq_ok.mpr ⟨hbounds, rfl⟩⟩

/-- The characters `[A-Za-z0-9._:-]`. -/
def isIdChar (c : Char) : Bool := isAlnum c || c == '.' || c == '_' || c == ':' || c == '-'

/-- `KEY_ID`. -/
def isKeyId : String → Bool := isWord isIdChar 3 64

/-- `WORKSPACE_ID`. -/
def isWorkspaceId : String → Bool := isWord isIdChar 3 128

/-- `NONCE`. -/
def isNonce : String → Bool := isWord (fun c => isAlnum c || c == '_' || c == '-') 16 128

/-- `Number(value || fallback)` of a setting. -/
def setting (rt : Runtime) (value : Option String) (fallback : ℕ) : JsNum :=
  match value with
  | none => .finite fallback
  | some "" => .finite fallback
  | some s => rt.number s

/-- Whether a message has a text in it, in any case of its ASCII letters. -/
def mentions (text message : String) : Bool :=
  (message.toList.map Char.toLower).tails.any text.toList.isPrefixOf

/-! ## Signatures -/

/-- `crypto.subtle`: SHA-256 and HMAC-SHA-256 by key. -/
structure Subtle where
  sha256 : Hasher
  hmac : List UInt8 → Hasher

/-- The UTF-8 bytes of `new TextEncoder().encode`. -/
def textEncode (s : String) : List UInt8 := Utf8.encode s.toList

def byteOrderMark : List UInt8 := [0xef, 0xbb, 0xbf]

/-- `new TextDecoder("utf-8", { fatal: true }).decode`, which drops a leading byte order mark. -/
def textDecode (bytes : List UInt8) : Option String :=
  (Utf8.decode (if byteOrderMark.isPrefixOf bytes then bytes.drop 3 else bytes)).map String.ofList

/-- `normalizeSignature(value)` of a text or a missing value. -/
def normalizeSignature (rt : Runtime) (value : Option String) : String :=
  let normalized := rt.lower (trim (value.getD ""))
  (dropStart? "sha256=" normalized).getD normalized

/-- The differing bits of two texts, or-ed together. -/
def difference (a b : String) : ℕ :=
  ((a.toList.zip b.toList).map fun p => p.1.toNat ^^^ p.2.toNat).foldl (· ||| ·) 0

def constantTimeHexEqual (rt : Runtime) (left right : String) : Bool :=
  let a := normalizeSignature rt (some left)
  let b := normalizeSignature rt (some right)
  Hex.isHex 64 a && Hex.isHex 64 b && difference a b == 0

def signatureMessage (keyId workspaceId : String) (sequence : ℤ)
    (observedAt nonce bodySha256 : String) : String :=
  "\n".intercalate
    [ingestProtocol, keyId, workspaceId, toString sequence, observedAt, nonce, bodySha256]

def verifySignature (rt : Runtime) (subtle : Subtle) (secret message provided : String) : Bool :=
  decide (32 ≤ JsText.length secret) &&
    constantTimeHexEqual rt ((subtle.hmac (textEncode secret)).hexdigest (textEncode message))
      provided

/-- `parseHmacKeys`: the secrets by key id. -/
def parseHmacKeys (rt : Runtime) (value : Option String) :
    Except CogniError (List (String × String)) := do
  let unconfigured := error "INGEST_HMAC_KEYS is not configured"
  let text ← orRaise value unconfigured
  require (2 ≤ JsText.length text ∧ JsText.length text ≤ 8192) unconfigured
  let parsed ← orRaise (rt.jsonParse text) (error "INGEST_HMAC_KEYS must be valid JSON")
  match parsed with
  | .obj entries =>
      require (1 ≤ entries.length ∧ entries.length ≤ 4)
        (error "INGEST_HMAC_KEYS must contain one to four keys")
      entries.mapM fun (keyId, secret) => do
        require (isKeyId keyId = true) (error "INGEST_HMAC_KEYS contains an invalid key id")
        let invalid := error "INGEST_HMAC_KEYS contains an invalid HMAC secret"
        let s ← orRaise secret.asStr? invalid
        require (32 ≤ JsText.length s ∧ JsText.length s ≤ 256) invalid
        .ok (keyId, s)
  | _ => .error (error "INGEST_HMAC_KEYS must be an object")

section Fixed

variable {rt : Runtime} {s t : String}

theorem isSpace_of_isDigit {c : Char} (h : Hex.isDigit c = true) : isSpace c = false := by
  have hlow := Hex.toNat_lt_of_isDigit h
  simp only [Hex.isDigit, Bool.or_eq_true, Bool.and_eq_true, decide_eq_true_eq] at h
  have hge : 48 ≤ c.toNat := by
    rcases h with ⟨h0, -⟩ | ⟨ha, -⟩
    · exact h0
    · exact le_trans (by decide) (show 'a'.toNat ≤ c.toNat from ha)
  unfold isSpace
  rw [Bool.eq_false_iff]
  intro hmem
  simp at hmem
  omega

/-- White space at the ends is all that `trim` removes. -/
theorem trim_eq_self (h : ∀ c ∈ s.toList, isSpace c = false) : trim s = s := by
  unfold trim
  have hfirst : s.toList.dropWhile isSpace = s.toList := by
    rw [List.dropWhile_eq_self_iff]
    intro hlen
    rw [h _ (List.getElem_mem hlen)]
    exact Bool.false_ne_true
  have hlast : s.toList.rdropWhile isSpace = s.toList := by
    rw [List.rdropWhile_eq_self_iff]
    intro hl
    rw [h _ (List.getLast_mem hl)]
    exact Bool.false_ne_true
  rw [hfirst, hlast, String.ofList_toList]

/-- A signature in lower-case hexadecimal digits is normal. -/
theorem normalizeSignature_of_isHex (hlaws : rt.Lawful) (h : Hex.isHex 64 s = true) :
    normalizeSignature rt (some s) = s := by
  have hdigits : ∀ c ∈ s.toList, Hex.isDigit c = true := by
    simp only [Hex.isHex, Bool.and_eq_true] at h
    exact List.all_eq_true.mp h.2
  have hlower : rt.lower s = s := by
    rw [hlaws.lower_ascii s fun c hc => (Hex.toNat_lt_of_isDigit (hdigits c hc)).trans (by decide)]
    rw [List.map_congr_left fun c hc => Hex.toLower_of_isDigit (hdigits c hc), List.map_id',
      String.ofList_toList]
  have hnone : dropStart? "sha256=" s = none := by
    unfold dropStart?
    rw [if_neg]
    intro hstart
    obtain ⟨rest, hrest⟩ := List.isPrefixOf_iff_prefix.mp hstart
    have hs : 's' ∈ s.toList := by
      rw [← hrest]
      exact List.mem_append_left _ (by decide)
    exact absurd (hdigits 's' hs) (by decide)
  unfold normalizeSignature
  rw [Option.getD_some, trim_eq_self fun c hc => isSpace_of_isDigit (hdigits c hc), hlower]
  show (dropStart? "sha256=" s).getD s = s
  rw [hnone, Option.getD_none]

/-- Or-ed differences vanish exactly where all of them do. -/
theorem foldl_or_eq_zero (xs : List ℕ) (acc : ℕ) :
    xs.foldl (· ||| ·) acc = 0 ↔ acc = 0 ∧ ∀ x ∈ xs, x = 0 := by
  induction xs generalizing acc with
  | nil => simp
  | cons x xs ih =>
    rw [List.foldl_cons, ih, Nat.or_eq_zero_iff, List.forall_mem_cons, and_assoc]

theorem difference_eq_zero (h : s.toList.length = t.toList.length) :
    difference s t = 0 ↔ s = t := by
  unfold difference
  rw [foldl_or_eq_zero, List.forall_mem_map]
  constructor
  · rintro ⟨-, hall⟩
    refine String.toList_injective (List.ext_getElem h fun i hi hi' => ?_)
    have hzip : i < (s.toList.zip t.toList).length := by
      rw [List.length_zip]
      omega
    have hxor := hall _ (List.getElem_mem hzip)
    rw [List.getElem_zip, Nat.xor_eq_zero_iff] at hxor
    exact Char.toNat_inj.mp hxor
  · rintro rfl
    refine ⟨rfl, fun p hp => ?_⟩
    obtain ⟨i, hi, rfl⟩ := List.getElem_of_mem hp
    rw [List.getElem_zip]
    exact Nat.xor_self _

/-- Two normal signatures are compared for equality. -/
theorem constantTimeHexEqual_iff (hlaws : rt.Lawful) (hs : Hex.isHex 64 s = true)
    (ht : Hex.isHex 64 t = true) : constantTimeHexEqual rt s t = true ↔ s = t := by
  unfold constantTimeHexEqual
  rw [normalizeSignature_of_isHex hlaws hs, normalizeSignature_of_isHex hlaws ht]
  dsimp only
  rw [hs, ht, Bool.and_self, Bool.true_and, beq_iff_eq, difference_eq_zero]
  rw [Hex.length_of_isHex hs, Hex.length_of_isHex ht]

end Fixed

/-! ## Headers -/

/-- The headers of a request, by their names in lower case. -/
abbrev Headers := String → Option String

/-- The value of a header, `null` where it is missing. -/
def headerValue (headers : Headers) (name : String) : Js :=
  match headers name with
  | none => .null
  | some s => .str s

structure IngestHeaders where
  keyId : String
  workspaceId : String
  sequence : ℤ
  observedAt : String
  nonce : String
  signature : String

def validateIngestHeaders (rt : Runtime) (headers : Headers) :
    Except CogniError IngestHeaders := do
  let keyId ← requireString (headerValue headers "x-cogni-key-id") "x-cogni-key-id" 3 64
  require (isKeyId keyId = true) (error "x-cogni-key-id is malformed")
  let workspaceId ←
    requireString (headerValue headers "x-cogni-workspace") "x-cogni-workspace" 1 128
  require (isWorkspaceId workspaceId = true)
    (error "x-cogni-workspace contains unsafe characters")
  let number := ((headers "x-cogni-sequence").map rt.number).getD 0
  let sequence ← orRaise (number.safeInteger?.filter fun n => 1 ≤ n)
    (error "x-cogni-sequence must be a positive safe integer")
  let observedAt ←
    requireString (headerValue headers "x-cogni-observed-at") "x-cogni-observed-at" 20 40
  let _ ← requireIsoTimestamp rt (.str observedAt) "x-cogni-observed-at"
  let nonce ← requireString (headerValue headers "x-cogni-nonce") "x-cogni-nonce" 16 128
  require (isNonce nonce = true) (error "x-cogni-nonce is malformed")
  let signature := normalizeSignature rt (headers "x-cogni-signature")
  require (Hex.isHex 64 signature = true) (error "x-cogni-signature is malformed")
  .ok ⟨keyId, workspaceId, sequence, observedAt, nonce, signature⟩

/-- What accepted headers satisfy. -/
structure IngestHeaders.Valid (h : IngestHeaders) : Prop where
  keyId : requireString (.str h.keyId) "stored snapshot.key_id" 3 64 = .ok h.keyId
  keyIdWord : isKeyId h.keyId = true
  sequence : 1 ≤ h.sequence
  nonce : requireString (.str h.nonce) "stored snapshot.nonce" 16 128 = .ok h.nonce
  nonceWord : isNonce h.nonce = true
  signature : Hex.isHex 64 h.signature = true

theorem requireString_str {value : Js} {name name' s : String} {min max : ℕ}
    (h : requireString value name min max = .ok s) :
    requireString (.str s) name' min max = .ok s :=
  requireString_eq_ok.mpr ⟨rfl, (requireString_eq_ok.mp h).2⟩

theorem valid_of_validateIngestHeaders {rt : Runtime} {headers : Headers} {h : IngestHeaders}
    (hok : validateIngestHeaders rt headers = .ok h) : h.Valid := by
  unfold validateIngestHeaders at hok
  obtain ⟨keyId, hkey, hok⟩ := bind_eq_ok.mp hok
  obtain ⟨hkeyWord, hok⟩ := require_bind_eq_ok.mp hok
  obtain ⟨workspaceId, -, hok⟩ := bind_eq_ok.mp hok
  obtain ⟨-, hok⟩ := require_bind_eq_ok.mp hok
  obtain ⟨sequence, hsequence, hok⟩ := bind_eq_ok.mp hok
  obtain ⟨observedAt, -, hok⟩ := bind_eq_ok.mp hok
  obtain ⟨ms, -, hok⟩ := bind_eq_ok.mp hok
  obtain ⟨nonce, hnonce, hok⟩ := bind_eq_ok.mp hok
  obtain ⟨hnonceWord, hok⟩ := require_bind_eq_ok.mp hok
  obtain ⟨hsignature, hok⟩ := require_bind_eq_ok.mp hok
  obtain rfl := Except.ok.inj hok
  have hpositive := (Option.filter_eq_some_iff.mp (orRaise_eq_ok.mp hsequence)).2
  exact ⟨requireString_str hkey, hkeyWord, of_decide_eq_true hpositive, requireString_str hnonce,
    hnonceWord, hsignature⟩

/-! ## Stored rows -/

def rejectUnexpectedKeys (value : Js) (allowed : List String) (name : String) :
    Except CogniError Unit :=
  match value with
  | .obj props =>
      let unexpected := (props.map (·.1)).filter fun key => !allowed.contains key
      require (unexpected = [])
        (error (name ++ " contains unexpected fields: " ++ ", ".intercalate unexpected))
  | _ => .ok ()

def snapshotKeys : List String :=
  ["schema_version", "system", "workspace_id", "workspace_name", "sequence", "observed_at",
    "collector", "data_classification", "orchestrator", "tasks_summary", "roadmap", "agents",
    "tasks", "ledger_events", "ledger", "gpus", "gpu_policy", "resources", "alerts",
    "release_gate", "release_deployment", "source"]

/-- `SCHEMA_RANK[version]`, where the version is supported. -/
def schemaRank : Js → Option (String × ℤ)
  | .str "1.0" => some ("1.0", 100)
  | .str "1.1" => some ("1.1", 101)
  | .str "1.2" => some ("1.2", 102)
  | _ => none

/-- `validateSnapshot` up to the schema version; `sections` are the checks that follow. -/
def validateSnapshot (sections : Js → Except CogniError Unit) (payload : Js) :
    Except CogniError Unit := do
  let _ ← requireObject payload "snapshot"
  rejectUnexpectedKeys payload snapshotKeys "snapshot"
  require ((schemaRank (payload.get "schema_version")).isSome = true)
    (error "snapshot.schema_version is unsupported")
  sections payload

theorem isObject_of_validateSnapshot {sections : Js → Except CogniError Unit} {payload : Js}
    (h : validateSnapshot sections payload = .ok ()) : payload.isObject = true := by
  obtain ⟨v, hv, -⟩ := bind_eq_ok.mp h
  exact (require_bind_eq_ok.mp hv).1

/-- The payload names the workspace, sequence and time that go with it. -/
def identified (payload : Js) (workspaceId : String) (sequence : ℤ) (observedAt : String) : Bool :=
  (payload.get "workspace_id").isStr workspaceId &&
    ((payload.get "sequence").asNum? == some (.finite sequence)) &&
    (payload.get "observed_at").isStr observedAt

def verifyStoredRow (rt : Runtime) (subtle : Subtle) (sections : Js → Except CogniError Unit)
    (row : SnapshotRow) (secret : String) : Except CogniError Js := do
  let rawBody ← requireString (.str row.payload) "stored snapshot.payload" 2 maxBodyBytes
  let bodySha256 := normalizeSignature rt (some row.bodySha256)
  require (Hex.isHex 64 bodySha256 = true) (error "stored snapshot body hash is malformed")
  let computedBodySha256 := subtle.sha256.hexdigest (textEncode rawBody)
  require (constantTimeHexEqual rt computedBodySha256 bodySha256 = true)
    (error "stored snapshot body hash does not match its payload")
  let payload ← orRaise (rt.jsonParse rawBody) (error "payload is not valid JSON")
  validateSnapshot sections payload
  require (identified payload row.workspaceId row.sequence row.observedAt = true)
    (error "stored snapshot envelope does not match its payload")
  let nonce ← requireString (.str row.nonce) "stored snapshot.nonce" 16 128
  require (isNonce nonce = true) (error "stored snapshot nonce is malformed")
  let keyId ← requireString (.str row.keyId) "stored snapshot.key_id" 3 64
  require (isKeyId keyId = true) (error "stored snapshot key id is malformed")
  let message :=
    signatureMessage keyId row.workspaceId row.sequence row.observedAt nonce bodySha256
  require (verifySignature rt subtle secret message row.signature = true)
    (error "stored snapshot signature verification failed")
  .ok payload

end Monitoring
