/-
# Agent identities

`validate_identity_value`, `canonical_model_family`, `build_identity`,
`identity_snapshot` and `evaluate_independence` of `independence.py`.
-/
import CogniOS.Util

namespace Independence

/-! ## Identity values -/

/-- A separator of the parts of an identity value. -/
def isSeparator (c : Char) : Bool := c ∈ [':', '/', '.', '_', '-']

/-- `IDENTITY_VALUE_RE.fullmatch`. -/
def isIdentityValue (s : String) : Bool :=
  match s.toList with
  | [] => false
  | c :: cs => isAlnum c && cs.all (fun d => isAlnum d || isSeparator d) && cs.length ≤ 127

/-- `validate_identity_value`. -/
def validateIdentityValue (value field : String) : Except CogniError String := do
  require (isIdentityValue (strip value) = true) ⟨.configuration,
    s!"{field} must start with an alphanumeric character and contain only " ++
    "letters, numbers, dot, underscore, colon, slash, or hyphen (maximum 128 characters)"⟩
  return strip value

/-- `MODEL_ROLE_SUFFIXES`. -/
def roleSuffixes : List (List Char) :=
  ["advisor", "auditor", "checker", "executant", "executor", "reviewer", "verifier",
    "worker"].map String.toList

/-- `re.split` at the separators, which are parts themselves. -/
def splitParts : List Char → List (List Char)
  | [] => [[]]
  | c :: cs =>
      if isSeparator c then [] :: [c] :: splitParts cs
      else
        match splitParts cs with
        | [] => [[c]]
        | part :: parts => (c :: part) :: parts

/-- Drop role labels from the end; the parts are given last one first. -/
def dropRoles : List (List Char) → List (List Char)
  | part :: separator :: before :: parts =>
      if part ∈ roleSuffixes then dropRoles (before :: parts)
      else part :: separator :: before :: parts
  | parts => parts

/-- `canonical_model_family`. -/
def canonicalModelFamily (value : String) : Except CogniError String := do
  let value ← validateIdentityValue value "model_family"
  let normalized := value.toList.map Char.toLower
  let kept := (dropRoles (splitParts normalized).reverse).reverse.flatten
  let canonical := kept.rdropWhile isSeparator
  return String.ofList (if canonical = [] then normalized else canonical)

/-! ## Identities -/

/-- The declaration that `build_identity` returns. -/
structure Identity where
  controlPrincipal : String
  modelFamily : String
  aliasOf : Option String
  aliasChain : List String
  deriving DecidableEq

/-- `build_identity`. -/
def buildIdentity (controlPrincipal modelFamily : String) (aliasOf : Option String)
    (aliasChain : List String) : Except CogniError Identity := do
  let aliasOf := if aliasOf = some "" then none else aliasOf
  aliasOf.toList.forM validateAgentId
  aliasChain.forM validateAgentId
  require aliasChain.Nodup ⟨.configuration, "Agent identity alias chain contains a cycle"⟩
  let controlPrincipal ← validateIdentityValue controlPrincipal "control_principal"
  let modelFamily ← validateIdentityValue modelFamily "model_family"
  return ⟨controlPrincipal, modelFamily, aliasOf, aliasChain⟩

/-- The identity of an actor at one moment, as `identity_snapshot` returns it. -/
structure Snapshot extends Identity where
  actor : String
  deriving DecidableEq

/-- An optional text as JSON. -/
def optJson : Option String → Json
  | some s => .str s
  | none => .null

/-- The stored declaration. -/
def Identity.toJson (i : Identity) : Json :=
  .obj [
    ("alias_chain", .arr (i.aliasChain.map .str)),
    ("alias_of", optJson i.aliasOf),
    ("control_principal", .str i.controlPrincipal),
    ("model_family", .str i.modelFamily),
    ("schema_version", .int 1)]

def Snapshot.toJson (i : Snapshot) : Json :=
  .obj [
    ("actor", .str i.actor),
    ("alias_chain", .arr (i.aliasChain.map .str)),
    ("alias_of", optJson i.aliasOf),
    ("control_principal", .str i.controlPrincipal),
    ("model_family", .str i.modelFamily),
    ("schema_version", .int 1)]

/-- A snapshot that may be missing, as JSON. -/
def snapshotJson : Option Snapshot → Json
  | some i => i.toJson
  | none => .null

/-- `identity_snapshot`. -/
def identitySnapshot (actor : String) : Option Identity → Except CogniError (Option Snapshot)
  | none => .ok none
  | some identity => do
      let validated ← buildIdentity identity.controlPrincipal identity.modelFamily
        identity.aliasOf identity.aliasChain
      validateAgentId actor
      return some ⟨validated, actor⟩

/-! ## Independence -/

/-- What `evaluate_independence` returns. -/
structure Evaluation where
  reasons : List String
  worker : Option Snapshot
  verifier : Option Snapshot
  deriving DecidableEq

/-- `independence["independent"]`. -/
def Evaluation.independent (e : Evaluation) : Bool := e.reasons.isEmpty

def Evaluation.toJson (e : Evaluation) : Json :=
  .obj [
    ("independent", .bool e.independent),
    ("reasons", .arr (e.reasons.map .str)),
    ("verifier", snapshotJson e.verifier),
    ("worker", snapshotJson e.worker)]

/-- The reasons that two known identities are not independent. -/
def sharedReasons (worker verifier : Snapshot) : Except CogniError (List String) := do
  let workerFamily ← canonicalModelFamily worker.modelFamily
  let verifierFamily ← canonicalModelFamily verifier.modelFamily
  let workerLineage := worker.actor :: worker.aliasChain
  let verifierLineage := verifier.actor :: verifier.aliasChain
  return reasonIf (worker.actor == verifier.actor) "same_actor" ++
    reasonIf (worker.controlPrincipal == verifier.controlPrincipal) "same_control_principal" ++
    reasonIf (workerFamily == verifierFamily) "same_model_family" ++
    reasonIf (workerLineage.any (verifierLineage.contains ·)) "shared_alias_lineage"

/-- `evaluate_independence`. -/
def evaluateIndependence (worker verifier : Option Snapshot) : Except CogniError Evaluation := do
  let shared ←
    match worker, verifier with
    | some worker, some verifier => sharedReasons worker verifier
    | _, _ => .ok []
  return {
    reasons := reasonIf worker.isNone "worker_identity_unknown" ++
      reasonIf verifier.isNone "verifier_identity_unknown" ++ shared
    worker := worker
    verifier := verifier }

example : canonicalModelFamily "google-antigravity-verifier" = .ok "google-antigravity" := by decide

/-- An unknown verifier is never independent. -/
theorem isSome_verifier_of_independent {worker verifier : Option Snapshot} {e : Evaluation}
    (h : evaluateIndependence worker verifier = .ok e) (hi : e.independent = true) :
    verifier.isSome = true := by
  cases verifier with
  | some => rfl
  | none =>
    have hshared : e.reasons = reasonIf worker.isNone "worker_identity_unknown" ++
        ["verifier_identity_unknown"] := by
      cases worker <;>
        · simp only [evaluateIndependence, bind, Except.bind, pure, Except.pure, Except.ok.injEq] at h
          rw [← h]
          rfl
    simp [Evaluation.independent, hshared] at hi

theorem identitySnapshot_actor {actor : String} {identity : Option Identity} {i : Snapshot}
    (h : identitySnapshot actor identity = .ok (some i)) : i.actor = actor := by
  cases identity with
  | none => simp [identitySnapshot] at h
  | some identity =>
    simp only [identitySnapshot, bind_eq_ok] at h
    obtain ⟨validated, -, _, -, h⟩ := h
    have h : (⟨validated, actor⟩ : Snapshot) = i := by simpa [pure, Except.pure] using h
    rw [← h]

end Independence
