/-
# Git provenance of evidence

`provenance.py`: a manifest binds the files of an evidence map to paths of one commit.

* `validateGitProvenance` is `validate_git_provenance`;
* `Bound` : a file of the evidence, bound to a blob with its hash;
* `validateGitProvenance_bound_iff` : when a success binds every file so.
-/
import CogniOS.WrittenJson
import CogniOS.JsonRead
import CogniOS.Sha256

namespace Provenance

/-! ## What the function is given -/

/-- The kinds of the objects of a repository. -/
inductive ObjectKind
  | blob
  | tree
  | commit
  | tag
  deriving DecidableEq

/-- Git in one repository.  `run` is a command: what it writes, or its error text where it fails. -/
structure Git where
  run : List String → Except String (List UInt8)
  /-- `git merge-base --is-ancestor`. -/
  isAncestor : String → String → Bool
  /-- `git cat-file -t`. -/
  kind : String → Option ObjectKind

/-- The files, with paths that are resolved. -/
structure Files (π : Type) where
  /-- `Path(text).resolve()`. -/
  resolve : String → π
  /-- `(root / text).resolve()`. -/
  resolveUnder : π → String → π
  isRelativeTo : π → π → Bool
  isFile : π → Bool
  isDir : π → Bool
  readText : π → Except CogniError String
  /-- The text of a path in a message. -/
  shown : π → String

/-- The parts of the standard library that are used. -/
structure Library where
  hasher : Hasher
  /-- `repr` of a float. -/
  repr : FloatLit → String
  /-- Scheme and network location of `urlsplit`. -/
  urlsplit : String → Except CogniError (String × String)

/-- A file of the evidence with its recorded hash. -/
structure EvidenceFile where
  path : String
  sha256 : String

/-- The parts of the evidence that are read: `manifest.artifacts`, and `raw_output` of each of
`manifest.validations`. -/
structure Evidence where
  artifacts : List EvidenceFile
  rawOutputs : List (Option EvidenceFile)

/-- The files of the evidence, in the order in which they are recorded. -/
def Evidence.files (e : Evidence) : List EvidenceFile := e.artifacts ++ e.rawOutputs.filterMap id

def evidenceError (message : String) : CogniError := ⟨.evidence, message⟩

def configurationError (message : String) : CogniError := ⟨.configuration, message⟩

def authorizationError (message : String) : CogniError := ⟨.authorization, message⟩

section Model

variable {π : Type} [DecidableEq π]

/-! ## Commands -/

/-- `_run_git` with `binary`. -/
def runGitBytes (git : Git) (arguments : List String) : Except CogniError (List UInt8) :=
  match git.run arguments with
  | .error stderr => .error (evidenceError ("Git provenance command failed (" ++
      " ".intercalate arguments ++ "): " ++ stderr))
  | .ok stdout => .ok stdout

/-- `_run_git`. -/
def runGit (git : Git) (arguments : List String) : Except CogniError String := do
  let stdout ← runGitBytes git arguments
  let text ← orRaise (Utf8.decode stdout) ⟨.other, "UnicodeDecodeError"⟩
  .ok (strip (String.ofList text))

/-! ## The claim -/

/-- `str`, as far as the texts of lists and objects are no identifiers. -/
def strOf (lib : Library) : Json → String
  | .str s => s
  | .int n => String.ofList (JsonNumber.intText n)
  | .float x => lib.repr x
  | .bool b => if b then "True" else "False"
  | .null => "None"
  | .arr _ => "[]"
  | .obj _ => "\x7b\x7d"

/-- A value that `or` keeps. -/
def truthy (lib : Library) : Json → Bool
  | .str s => s ≠ ""
  | .int n => n ≠ 0
  | .float x => lib.repr x ≠ "0.0" && lib.repr x ≠ "-0.0"
  | .bool b => b
  | .null => false
  | .arr elems => !elems.isEmpty
  | .obj fields => !fields.isEmpty

/-- An `int`; a `bool` is one. -/
def intOf? : Json → Option ℤ
  | .int n => some n
  | .bool b => some (if b then 1 else 0)
  | _ => none

/-- `_validate_remote_url`. -/
def validateRemoteUrl (lib : Library) (value : Json) : Except CogniError String := do
  let text ← orRaise (value.asStr?.filter fun s => strip s ≠ "")
    (configurationError "Git provenance remote_url must be non-empty")
  let remoteUrl := strip text
  let (scheme, netloc) ← lib.urlsplit remoteUrl
  -- A user name or a password is what stands before an at sign.
  require (¬(scheme ∈ ["http", "https"] ∧ '@' ∈ netloc.toList))
    (authorizationError "Git provenance remote_url must not contain embedded credentials")
  require ('\n' ∉ remoteUrl.toList ∧ '\r' ∉ remoteUrl.toList)
    (configurationError "Git provenance remote_url contains a line break")
  .ok remoteUrl

/-- `validate_git_source_claim`. -/
def validateGitSourceClaim (lib : Library) (remoteUrl branch : Json) :
    Except CogniError (String × String) := do
  let normalizedRemote ← validateRemoteUrl lib remoteUrl
  let text ← orRaise (branch.asStr?.filter fun s => strip s ≠ "")
    (configurationError "Git provenance branch must be non-empty")
  let normalizedBranch := strip text
  require ('\n' ∉ normalizedBranch.toList ∧ '\r' ∉ normalizedBranch.toList)
    (configurationError "Git provenance branch contains a line break")
  require (normalizedBranch.toList.head? ≠ some '-')
    (configurationError "Git provenance branch cannot start with '-'")
  .ok (normalizedRemote, normalizedBranch)

/-- `COMMIT_RE.fullmatch` of a text in lower case. -/
def isCommit (s : String) : Bool := Hex.isHex 40 s || Hex.isHex 64 s

/-- `validate_git_commit`. -/
def validateGitCommit (lib : Library) (value : Json) : Except CogniError String := do
  let commit := (if truthy lib value then strOf lib value else "").toLower
  require (isCommit commit = true)
    (configurationError "Git provenance commit must be a full 40- or 64-character object ID")
  .ok commit

/-- `REMOTE_NAME_RE.fullmatch`. -/
def isRemoteName (s : String) : Bool :=
  s ≠ "" && s.toList.all fun c => isAlnum c || c ∈ ['.', '_', '-']

/-- The parts of a plain path, as `PurePosixPath` keeps them. -/
def pathParts (value : String) : List String :=
  ((value.toList.splitOn '/').map String.ofList).filter fun part => part ≠ "" ∧ part ≠ "."

/-- `as_posix` of a relative path. -/
def asPosix (value : String) : String :=
  if pathParts value = [] then "." else "/".intercalate (pathParts value)

/-- `_validate_source_path`. -/
def validateSourcePath (value : Json) : Except CogniError String := do
  let text ← orRaise (value.asStr?.filter fun s => s ≠ "")
    (configurationError "Git provenance source_path must be non-empty")
  require (¬('\\' ∈ text.toList ∨ ':' ∈ text.toList ∨ text.toList.any (fun c => c.toNat < 32) = true))
    (configurationError "Git provenance source_path must be a plain POSIX relative path")
  require (¬(text.toList.head? = some '/' ∨ ".." ∈ pathParts text))
    (configurationError "Git provenance source_path must not escape the repository")
  .ok (asPosix text)

/-- What the manifest claims. -/
structure Claim where
  author : String
  remoteName : String
  remoteUrl : String
  branch : String
  commit : String
  deriving DecidableEq

/-- The fields before the bindings. -/
def checkClaim (lib : Library) (payload : Json) (expectedAuthor : String) (maxBlobBytes : Json) :
    Except CogniError Claim := do
  require (payload.isObj = true ∧ (payload.get "schema_version").equalsInt 1 = true)
    (evidenceError "Git provenance schema_version must be 1")
  require (payload.get "kind" = .str "git") (evidenceError "Git provenance kind must be 'git'")
  let author := ((payload.get? "author").map (strOf lib)).getD ""
  validateAgentId author
  validateAgentId expectedAuthor
  require (author = expectedAuthor) (authorizationError ("Git provenance author '" ++ author ++
    "' does not match task owner '" ++ expectedAuthor ++ "'"))
  let remoteName := ((payload.get? "remote_name").map (strOf lib)).getD "origin"
  require (isRemoteName remoteName = true)
    (configurationError "Git provenance remote_name is invalid")
  let (remoteUrl, branch) ← validateGitSourceClaim lib (payload.get "remote_url")
    (payload.get "branch")
  let commit ← validateGitCommit lib (payload.get "commit")
  require ((intOf? maxBlobBytes).any (fun n : ℤ => 1 ≤ n) = true)
    (configurationError "max_blob_bytes must be a positive integer")
  .ok ⟨author, remoteName, remoteUrl, branch, commit⟩

/-! ## Commit and branch -/

/-- The branch: the first candidate that resolves, and its tip. -/
def resolveBranch (git : Git) : List String → Option (String × String)
  | [] => none
  | candidate :: candidates =>
      match runGit git ["rev-parse", "--verify", candidate ++ "^\x7bcommit\x7d"] with
      | .ok tip => some (candidate, tip.toLower)
      | .error _ => resolveBranch git candidates

/-- The checks of the repository: the reference and its tip. -/
def checkCommit (files : Files π) (git : Git) (repository : π) (claim : Claim) :
    Except CogniError (String × String) := do
  require (files.isDir repository = true)
    (evidenceError ("Git source repository does not exist: " ++ files.shown repository))
  let actualRemote ← runGit git ["remote", "get-url", claim.remoteName]
  require (actualRemote = claim.remoteUrl) (evidenceError ("Git remote mismatch: expected '" ++
    claim.remoteUrl ++ "', observed '" ++ actualRemote ++ "'"))
  let _ ← runGit git ["check-ref-format", "--branch", claim.branch]
  let resolved ← runGit git ["rev-parse", "--verify", claim.commit ++ "^\x7bcommit\x7d"]
  require (resolved.toLower = claim.commit) (evidenceError ("Git commit mismatch: expected " ++
    claim.commit ++ ", observed " ++ resolved.toLower))
  let (ref, tip) ← orRaise ((resolveBranch git
      ["refs/remotes/" ++ claim.remoteName ++ "/" ++ claim.branch,
        "refs/heads/" ++ claim.branch]).filter fun found => found.2 ≠ "")
    (evidenceError ("Branch '" ++ claim.branch ++ "' could not be resolved in " ++
      files.shown repository))
  require (git.isAncestor claim.commit tip = true) (evidenceError ("Commit " ++ claim.commit ++
    " is not reachable from branch '" ++ claim.branch ++ "' tip (" ++ tip ++ ")"))
  .ok (ref, tip)

/-! ## Bindings -/

/-- Set a key of a dictionary: a new key comes last. -/
def setFile (path : π) (sha256 : String) : List (π × String) → List (π × String)
  | [] => [(path, sha256)]
  | (p, s) :: rest =>
      if p = path then (p, sha256) :: rest else (p, s) :: setFile path sha256 rest

/-- `_evidence_file_map`. -/
def evidenceFileMap (files : Files π) (evidence : Evidence) : List (π × String) :=
  evidence.files.foldl (fun map f => setFile (files.resolve f.path) f.sha256 map) []

/-- An entry of `file_provenance`. -/
structure FileProvenance where
  sourcePath : String
  commit : String
  sha256 : String
  sizeBytes : ℕ
  deriving DecidableEq

/-- The bytes that `git cat-file -p` writes for a path of the commit. -/
def readBlob (git : Git) (commit relPath : String) : Except CogniError (List UInt8) :=
  (runGitBytes git ["cat-file", "-p", commit ++ ":" ++ relPath]).mapError fun e =>
    evidenceError ("Source path '" ++ relPath ++ "' not found at commit " ++ commit ++ ": " ++
      e.message)

/-- One turn of the loop over the bindings: the target and what is recorded of it. -/
def checkBinding (lib : Library) (files : Files π) (git : Git) (ownedRoot : π)
    (maxBlobBytes : ℤ) (commit : String) (map : List (π × String)) (binding : Json) :
    Except CogniError (π × FileProvenance) := do
  require (binding.isObj = true) (evidenceError "Git provenance binding must be an object")
  let relPath ← validateSourcePath (binding.get "source_path")
  let blobBytes ← readBlob git commit relPath
  require ((blobBytes.length : ℤ) ≤ maxBlobBytes) (evidenceError ("Source blob '" ++ relPath ++
    "' size (" ++ toString blobBytes.length ++ ") exceeds max allowed bytes (" ++
    toString maxBlobBytes ++ ")"))
  let blobSha := lib.hasher.hexdigest blobBytes
  let target := files.resolveUnder ownedRoot relPath
  require (∀ expectedSha ∈ map.lookup target, expectedSha = blobSha)
    (evidenceError ("Blob SHA-256 mismatch for '" ++ relPath ++ "': expected " ++
      (map.lookup target).getD "" ++ ", observed " ++ blobSha))
  .ok (target, ⟨relPath, commit, blobSha, blobBytes.length⟩)

/-- The elements of `bindings`. -/
def bindingsOf (payload : Json) : Option (List Json) :=
  match payload.get "bindings" with
  | .arr bindings => some bindings
  | _ => none

/-- What `validate_git_provenance` returns. -/
structure Result where
  claim : Claim
  ref : String
  refTip : String
  fileProvenance : List FileProvenance
  deriving DecidableEq

/-- The manifest. -/
def readProvenance (files : Files π) (provenancePath reportRoot : String) :
    Except CogniError Json := do
  let provenance := files.resolve provenancePath
  let ownedRoot := files.resolve reportRoot
  require (files.isRelativeTo provenance ownedRoot = true)
    (authorizationError ("Provenance manifest must be under the transport report directory: " ++
      files.shown ownedRoot))
  require (files.isFile provenance = true)
    (evidenceError ("Git provenance manifest does not exist: " ++ files.shown provenance))
  let text ← files.readText provenance
  orRaise (Json.loads Json.lastWins text.toList) (evidenceError "Invalid Git provenance JSON")

/-- `validate_git_provenance`. -/
def validateGitProvenance (lib : Library) (files : Files π) (git : Git)
    (provenancePath sourceRepository reportRoot expectedAuthor : String) (evidence : Evidence)
    (maxBlobBytes : Json) : Except CogniError Result := do
  let payload ← readProvenance files provenancePath reportRoot
  let claim ← checkClaim lib payload expectedAuthor maxBlobBytes
  let (ref, tip) ← checkCommit files git (files.resolve sourceRepository) claim
  let map := evidenceFileMap files evidence
  let bindings ← orRaise ((bindingsOf payload).filter fun bindings => bindings ≠ [])
    (evidenceError "Git provenance bindings must be a non-empty list")
  let checked ← bindings.mapM (checkBinding lib files git (files.resolve reportRoot)
    ((intOf? maxBlobBytes).getD 0) claim.commit map)
  match (map.map Prod.fst).find? fun path => path ∉ checked.map Prod.fst with
  | some path => .error (evidenceError ("Evidence file " ++ files.shown path ++
      " is missing a corresponding Git provenance binding"))
  | none => .ok ⟨claim, ref, tip, checked.map Prod.snd⟩

/-! ## The map of the evidence -/

theorem lookup_setFile (path q : π) (sha256 : String) (map : List (π × String)) :
    (setFile path sha256 map).lookup q = if q = path then some sha256 else map.lookup q := by
  induction map with
  | nil =>
    by_cases hq : q = path
    · simp [setFile, hq]
    · simp [setFile, List.lookup, beq_false_of_ne hq, hq]
  | cons entry map ih =>
    obtain ⟨p, s⟩ := entry
    rw [setFile]
    by_cases hp : p = path
    · subst hp
      rw [if_pos rfl]
      by_cases hq : q = p
      · simp [hq]
      · simp [List.lookup, beq_false_of_ne hq, hq]
    · rw [if_neg hp]
      by_cases hqp : q = p
      · subst hqp
        simp [hp]
      · rw [List.lookup_cons, List.lookup_cons, beq_false_of_ne hqp]
        exact ih

/-- A path of the map is that of a file, and its hash is recorded for a file of that path. -/
theorem lookup_evidenceFileMap (files : Files π) (evidence : Evidence) (path : π) :
    (∀ sha256, (evidenceFileMap files evidence).lookup path = some sha256 →
      ∃ f ∈ evidence.files, files.resolve f.path = path ∧ f.sha256 = sha256) ∧
    ((∃ f ∈ evidence.files, files.resolve f.path = path) →
      (evidenceFileMap files evidence).lookup path ≠ none) := by
  unfold evidenceFileMap
  induction evidence.files using List.reverseRecOn with
  | nil => simp
  | append_singleton fs g ih =>
    rw [List.foldl_append, List.foldl_cons, List.foldl_nil, lookup_setFile]
    by_cases hg : path = files.resolve g.path
    · rw [if_pos hg]
      refine ⟨fun sha256 hsome => ⟨g, by simp, hg.symm, Option.some.inj hsome⟩, fun _ => ?_⟩
      exact Option.some_ne_none _
    · rw [if_neg hg]
      constructor
      · intro sha256 hsome
        obtain ⟨f, hf, hrest⟩ := ih.1 sha256 hsome
        exact ⟨f, List.mem_append_left _ hf, hrest⟩
      · rintro ⟨f, hf, hpath⟩
        rcases List.mem_append.mp hf with hf | hf
        · exact ih.2 ⟨f, hf, hpath⟩
        · rw [List.mem_singleton.mp hf] at hpath
          exact absurd hpath.symm hg

theorem mem_keys_iff_lookup {path : π} {map : List (π × String)} :
    path ∈ map.map Prod.fst ↔ map.lookup path ≠ none := by
  rw [Ne, List.lookup_eq_none_iff, List.mem_map]
  constructor
  · rintro ⟨entry, hentry, rfl⟩ hall
    exact absurd rfl (bne_iff_ne.mp (hall entry hentry))
  · intro hsome
    by_contra hnone
    refine hsome fun entry hentry => ?_
    exact bne_iff_ne.mpr fun heq => hnone ⟨entry, hentry, heq.symm⟩

/-! ## What a success binds -/

/-- A binding whose source path, under the report directory, is the path. -/
def Targets (files : Files π) (ownedRoot : π) (binding : Json) (relPath : String) (path : π) :
    Prop :=
  validateSourcePath (binding.get "source_path") = .ok relPath ∧
    files.resolveUnder ownedRoot relPath = path

/-- A file of the evidence, bound to a blob of the commit with its recorded hash. -/
structure Bound (lib : Library) (files : Files π) (git : Git) (ownedRoot : π) (commit : String)
    (f : EvidenceFile) (binding : Json) (relPath : String) : Prop where
  target : Targets files ownedRoot binding relPath (files.resolve f.path)
  blob : git.kind (commit ++ ":" ++ relPath) = some .blob
  hash : ∃ bytes, git.run ["cat-file", "-p", commit ++ ":" ++ relPath] = .ok bytes ∧
    lib.hasher.hexdigest bytes = f.sha256

/-- The commit is an ancestor of a tip that the branch resolves to. -/
def Reachable (git : Git) (claim : Claim) (tip : String) : Prop :=
  (∃ candidate ∈ ["refs/remotes/" ++ claim.remoteName ++ "/" ++ claim.branch,
      "refs/heads/" ++ claim.branch], ∃ text,
    runGit git ["rev-parse", "--verify", candidate ++ "^\x7bcommit\x7d"] = .ok text ∧
      text.toLower = tip) ∧
    git.isAncestor claim.commit tip = true

/-- The condition: a path of the evidence that is bound is bound to a blob as well, and has one
recorded hash. -/
structure Blobs (files : Files π) (git : Git) (ownedRoot : π) (commit : String)
    (evidence : Evidence) (bindings : List Json) : Prop where
  blob : ∀ f ∈ evidence.files, ∀ b ∈ bindings, ∀ relPath,
    Targets files ownedRoot b relPath (files.resolve f.path) →
    ∃ b' ∈ bindings, ∃ relPath', Targets files ownedRoot b' relPath' (files.resolve f.path) ∧
      git.kind (commit ++ ":" ++ relPath') = some .blob
  recorded : ∀ f ∈ evidence.files, ∀ g ∈ evidence.files,
    files.resolve f.path = files.resolve g.path → f.sha256 = g.sha256

section Success

variable {lib : Library} {files : Files π} {git : Git} {ownedRoot : π} {commit : String}

theorem readBlob_eq_ok {relPath : String} {bytes : List UInt8} :
    readBlob git commit relPath = .ok bytes ↔
      git.run ["cat-file", "-p", commit ++ ":" ++ relPath] = .ok bytes := by
  unfold readBlob runGitBytes
  cases git.run ["cat-file", "-p", commit ++ ":" ++ relPath] with
  | error e => exact ⟨fun h => (by cases h), fun h => (by cases h)⟩
  | ok stdout =>
    constructor
    · intro hok
      rw [Except.ok.inj hok]
    · intro hok
      rw [Except.ok.inj hok]
      rfl

/-- **One binding**: the object is there, and where its target is a path of the evidence it has
the hash of that path. -/
theorem checkBinding_eq_ok {maxBlobBytes : ℤ} {map : List (π × String)} {binding : Json}
    {found : π × FileProvenance}
    (hok : checkBinding lib files git ownedRoot maxBlobBytes commit map binding = .ok found) :
    ∃ relPath bytes, Targets files ownedRoot binding relPath found.1 ∧
      git.run ["cat-file", "-p", commit ++ ":" ++ relPath] = .ok bytes ∧
      ∀ sha256, map.lookup found.1 = some sha256 → lib.hasher.hexdigest bytes = sha256 := by
  unfold checkBinding at hok
  obtain ⟨-, hok⟩ := require_bind_eq_ok.mp hok
  obtain ⟨relPath, hpath, hok⟩ := bind_eq_ok.mp hok
  obtain ⟨bytes, hbytes, hok⟩ := bind_eq_ok.mp hok
  obtain ⟨-, hok⟩ := require_bind_eq_ok.mp hok
  obtain ⟨hhash, hok⟩ := require_bind_eq_ok.mp hok
  obtain rfl := Except.ok.inj hok
  exact ⟨relPath, bytes, ⟨hpath, rfl⟩, readBlob_eq_ok.mp hbytes,
    fun sha256 hlookup => (hhash sha256 hlookup).symm⟩

theorem resolveBranch_eq_some {candidates : List String} {found : String × String}
    (hfound : resolveBranch git candidates = some found) : found.1 ∈ candidates ∧
      ∃ text, runGit git ["rev-parse", "--verify", found.1 ++ "^\x7bcommit\x7d"] = .ok text ∧
        text.toLower = found.2 := by
  induction candidates with
  | nil => cases hfound
  | cons candidate candidates ih =>
    rw [resolveBranch] at hfound
    split at hfound
    · rename_i tip htip
      obtain rfl := Option.some.inj hfound
      exact ⟨List.mem_cons_self, tip, htip, rfl⟩
    · obtain ⟨hmem, htext⟩ := ih hfound
      exact ⟨List.mem_cons_of_mem _ hmem, htext⟩

omit [DecidableEq π] in
theorem checkCommit_eq_ok {repository : π} {claim : Claim} {found : String × String}
    (hok : checkCommit files git repository claim = .ok found) : Reachable git claim found.2 := by
  unfold checkCommit at hok
  obtain ⟨-, hok⟩ := require_bind_eq_ok.mp hok
  obtain ⟨_, -, hok⟩ := bind_eq_ok.mp hok
  obtain ⟨-, hok⟩ := require_bind_eq_ok.mp hok
  obtain ⟨_, -, hok⟩ := bind_eq_ok.mp hok
  obtain ⟨_, -, hok⟩ := bind_eq_ok.mp hok
  obtain ⟨-, hok⟩ := require_bind_eq_ok.mp hok
  obtain ⟨⟨ref, tip⟩, hfound, hok⟩ := bind_eq_ok.mp hok
  obtain ⟨hancestor, hok⟩ := require_bind_eq_ok.mp hok
  obtain rfl := Except.ok.inj hok
  obtain ⟨hmem, text, htext, htip⟩ :=
    resolveBranch_eq_some (Option.filter_eq_some_iff.mp (orRaise_eq_ok.mp hfound)).1
  exact ⟨⟨ref, hmem, text, htext, htip⟩, hancestor⟩

/-- The results of a loop are those of its elements. -/
theorem mapM_results {α β : Type} {check : α → Except CogniError β} {xs : List α} {ys : List β}
    (hok : xs.mapM check = .ok ys) :
    (∀ x ∈ xs, ∃ y, check x = .ok y) ∧ ∀ y ∈ ys, ∃ x ∈ xs, check x = .ok y := by
  rw [mapM_eq_ok] at hok
  constructor
  · intro x hx
    have hmem := List.mem_map_of_mem (f := check) hx
    rw [hok] at hmem
    obtain ⟨y, -, hy⟩ := List.mem_map.mp hmem
    exact ⟨y, hy.symm⟩
  · intro y hy
    have hmem := List.mem_map_of_mem (f := Except.ok (ε := CogniError)) hy
    rw [← hok] at hmem
    exact List.mem_map.mp hmem

/-- What a success has checked. -/
structure Checked (lib : Library) (files : Files π) (git : Git) (ownedRoot : π)
    (evidence : Evidence) (bindings : List Json) (result : Result) : Prop where
  reachable : Reachable git result.claim result.refTip
  covered : ∀ f ∈ evidence.files, ∃ b ∈ bindings, ∃ relPath,
    Targets files ownedRoot b relPath (files.resolve f.path)
  bindings : ∀ b ∈ bindings, ∃ relPath path bytes, Targets files ownedRoot b relPath path ∧
    git.run ["cat-file", "-p", result.claim.commit ++ ":" ++ relPath] = .ok bytes ∧
    ∀ sha256, (evidenceFileMap files evidence).lookup path = some sha256 →
      lib.hasher.hexdigest bytes = sha256

/-- **What a success has checked.** -/
theorem validateGitProvenance_eq_ok {provenancePath sourceRepository reportRoot expectedAuthor :
    String} {evidence : Evidence} {maxBlobBytes payload : Json} {bindings : List Json}
    {result : Result} (hread : readProvenance files provenancePath reportRoot = .ok payload)
    (hbindings : bindingsOf payload = some bindings)
    (hok : validateGitProvenance lib files git provenancePath sourceRepository reportRoot
      expectedAuthor evidence maxBlobBytes = .ok result) :
    Checked lib files git (files.resolve reportRoot) evidence bindings result := by
  unfold validateGitProvenance at hok
  rw [bind_iff_of_ok hread] at hok
  obtain ⟨claim, -, hok⟩ := bind_eq_ok.mp hok
  obtain ⟨⟨ref, tip⟩, hcommit, hok⟩ := bind_eq_ok.mp hok
  obtain ⟨found, hfound, hok⟩ := bind_eq_ok.mp hok
  obtain ⟨hsome, -⟩ := Option.filter_eq_some_iff.mp (orRaise_eq_ok.mp hfound)
  obtain rfl := Option.some.inj (hbindings.symm.trans hsome)
  obtain ⟨checked, hchecked, hok⟩ := bind_eq_ok.mp hok
  obtain ⟨hall, hfrom⟩ := mapM_results hchecked
  split at hok
  · cases hok
  · rename_i hnone
    obtain rfl := Except.ok.inj hok
    rw [List.find?_eq_none] at hnone
    refine ⟨checkCommit_eq_ok hcommit, fun f hf => ?_, fun b hb => ?_⟩
    · have hkey : files.resolve f.path ∈ (evidenceFileMap files evidence).map Prod.fst :=
        mem_keys_iff_lookup.mpr ((lookup_evidenceFileMap files evidence _).2 ⟨f, hf, rfl⟩)
      have hmem := hnone _ hkey
      rw [decide_eq_true_eq, not_not] at hmem
      obtain ⟨entry, hentry, hpath⟩ := List.mem_map.mp hmem
      obtain ⟨b, hb, hbok⟩ := hfrom entry hentry
      obtain ⟨relPath, -, htarget, -⟩ := checkBinding_eq_ok hbok
      rw [hpath] at htarget
      exact ⟨b, hb, relPath, htarget⟩
    · obtain ⟨entry, hentry⟩ := hall b hb
      obtain ⟨relPath, bytes, htarget, hrun, hhash⟩ := checkBinding_eq_ok hentry
      exact ⟨relPath, entry.1, bytes, htarget, hrun, hhash⟩

end Success

/-- **When a success binds the evidence to blobs.**  The hashes, the coverage and the ancestor are
checked; the kind of an object is not. -/
theorem validateGitProvenance_bound_iff (lib : Library) (files : Files π) (git : Git)
    (provenancePath sourceRepository reportRoot expectedAuthor : String) (evidence : Evidence)
    (maxBlobBytes payload : Json) (bindings : List Json) (result : Result)
    (hread : readProvenance files provenancePath reportRoot = .ok payload)
    (hbindings : bindingsOf payload = some bindings)
    (hok : validateGitProvenance lib files git provenancePath sourceRepository reportRoot
      expectedAuthor evidence maxBlobBytes = .ok result) :
    ((∀ f ∈ evidence.files, ∃ b ∈ bindings, ∃ relPath,
        Bound lib files git (files.resolve reportRoot) result.claim.commit f b relPath) ∧
      Reachable git result.claim result.refTip) ↔
    Blobs files git (files.resolve reportRoot) result.claim.commit evidence bindings := by
  have hchecked := validateGitProvenance_eq_ok hread hbindings hok
  -- The hash of a binding of a recorded path is the one that the map has for it.
  have hbytes : ∀ b ∈ bindings, ∀ relPath, ∀ f ∈ evidence.files,
      Targets files (files.resolve reportRoot) b relPath (files.resolve f.path) →
      ∃ bytes, git.run ["cat-file", "-p", result.claim.commit ++ ":" ++ relPath] = .ok bytes ∧
        ∃ g ∈ evidence.files, files.resolve g.path = files.resolve f.path ∧
          (evidenceFileMap files evidence).lookup (files.resolve f.path) = some g.sha256 ∧
          lib.hasher.hexdigest bytes = g.sha256 := by
    intro b hb relPath f hf htarget
    obtain ⟨relPath', path, bytes, htarget', hrun, hhash⟩ := hchecked.bindings b hb
    obtain rfl := Except.ok.inj (htarget'.1.symm.trans htarget.1)
    have hpath : path = files.resolve f.path := htarget'.2.symm.trans htarget.2
    subst hpath
    obtain ⟨hsome, hne⟩ := lookup_evidenceFileMap files evidence (files.resolve f.path)
    obtain ⟨sha256, hlookup⟩ := Option.ne_none_iff_exists'.mp (hne ⟨f, hf, rfl⟩)
    obtain ⟨g, hg, hgpath, rfl⟩ := hsome sha256 hlookup
    exact ⟨bytes, hrun, g, hg, hgpath, hlookup, hhash _ hlookup⟩
  constructor
  · rintro ⟨hbound, -⟩
    refine ⟨fun f hf _ _ _ _ => ?_, fun f hf g hg hsame => ?_⟩
    · obtain ⟨b, hb, relPath, hb'⟩ := hbound f hf
      exact ⟨b, hb, relPath, hb'.target, hb'.blob⟩
    · -- Both hashes are the one of the map.
      have hrecorded : ∀ e ∈ evidence.files,
          (evidenceFileMap files evidence).lookup (files.resolve e.path) = some e.sha256 := by
        intro e he
        obtain ⟨b, hb, relPath, hb'⟩ := hbound e he
        obtain ⟨bytes, hrun, hhash⟩ := hb'.hash
        obtain ⟨bytes', hrun', g', -, -, hlookup, hhash'⟩ := hbytes b hb relPath e he hb'.target
        obtain rfl := Except.ok.inj (hrun.symm.trans hrun')
        rw [hlookup, ← hhash', hhash]
      have hf' := hrecorded f hf
      rw [hsame, hrecorded g hg] at hf'
      exact (Option.some.inj hf').symm
  · intro hblobs
    refine ⟨fun f hf => ?_, hchecked.reachable⟩
    obtain ⟨b, hb, relPath, htarget⟩ := hchecked.covered f hf
    obtain ⟨b', hb', relPath', htarget', hkind⟩ := hblobs.blob f hf b hb relPath htarget
    obtain ⟨bytes, hrun, g, hg, hpath, -, hhash⟩ := hbytes b' hb' relPath' f hf htarget'
    refine ⟨b', hb', relPath', htarget', hkind, bytes, hrun, ?_⟩
    rw [hhash, hblobs.recorded g hg f hf hpath]

end Model

/-! ## A path that names a directory -/

section Sample

def sampleCommit : String := "0123456789abcdef0123456789abcdef01234567"

/-- What `git cat-file -p` writes for a directory with one empty file. -/
def sampleListing : List UInt8 :=
  Utf8.encode "100644 blob e69de29bb2d1d6434b8b29ae775ad8c2e48c5391\tempty.json\n".toList

def sampleBindings : List Json :=
  [.obj [("source_path", .str "report.txt")], .obj [("source_path", .str "data")]]

def samplePayload : Json :=
  .obj [("author", .str "codex-worker"), ("bindings", .arr sampleBindings),
    ("branch", .str "main"), ("commit", .str sampleCommit), ("kind", .str "git"),
    ("remote_url", .str "https://example.test/repo.git"), ("schema_version", .int 1)]

def sampleLibrary : Library where
  hasher := sha256
  repr x := x.text
  urlsplit _ := .ok ("https", "example.test")

/-- The report directory is `/report`, and the repository is at `/repo`. -/
def sampleFiles : Files String where
  resolve s := s
  resolveUnder root s := root ++ "/" ++ s
  isRelativeTo p root := root.toList.isPrefixOf p.toList
  isFile p := p = "/report/provenance.json"
  isDir p := p = "/repo"
  readText _ := .ok (String.ofList (samplePayload.dumps 0))
  shown p := p

/-- The branch `main` has one commit, with a file `report.txt` and a directory `data`. -/
def sampleGit : Git where
  run arguments :=
    match arguments with
    | ["remote", "get-url", "origin"] => .ok (Utf8.encode "https://example.test/repo.git\n".toList)
    | ["check-ref-format", "--branch", "main"] => .ok (Utf8.encode "main\n".toList)
    | ["rev-parse", "--verify", _] => .ok (Utf8.encode (sampleCommit.toList ++ ['\n']))
    | ["cat-file", "-p", object] =>
        if object = sampleCommit ++ ":report.txt" then .ok (Utf8.encode "done\n".toList)
        else if object = sampleCommit ++ ":data" then .ok sampleListing
        else .error "fatal: Not a valid object name"
    | _ => .error "fatal: not a git command"
  isAncestor commit tip := commit = tip
  kind object :=
    if object = sampleCommit ++ ":report.txt" then some .blob
    else if object = sampleCommit ++ ":data" then some .tree
    else none

/-- A file of the report, and one with the text of the listing. -/
def sampleEvidence : Evidence where
  artifacts :=
    [⟨"/report/report.txt", "d117fa006ba9208500b2930ce69cbde436c647afa917cb7396a9bc9111a46dd2"⟩,
      ⟨"/report/data", "2d93dbdbd9a84cc0cd82cfff3ffd3923ca0632c7c5adadb3208a03a38cbf9d3f"⟩]
  rawOutputs := []

def sampleClaim : Claim :=
  ⟨"codex-worker", "origin", "https://example.test/repo.git", "main", sampleCommit⟩

/-- What is recorded of the two bindings. -/
def sampleFound : List (String × FileProvenance) :=
  [("/report/report.txt", ⟨"report.txt", sampleCommit,
      "d117fa006ba9208500b2930ce69cbde436c647afa917cb7396a9bc9111a46dd2", 5⟩),
    ("/report/data", ⟨"data", sampleCommit,
      "2d93dbdbd9a84cc0cd82cfff3ffd3923ca0632c7c5adadb3208a03a38cbf9d3f", 64⟩)]

def sampleResult : Result :=
  ⟨sampleClaim, "refs/remotes/origin/main", sampleCommit, sampleFound.map Prod.snd⟩

theorem readProvenance_sample :
    readProvenance sampleFiles "/report/provenance.json" "/report" = .ok samplePayload := by
  have hwell : samplePayload.WellFormed := by
    refine ⟨?_, trivial, ⟨⟨?_, trivial, trivial⟩, ⟨?_, trivial, trivial⟩, trivial⟩, trivial, trivial,
      trivial, trivial, trivial, trivial⟩
    · rw [Json.keySorted_iff]
      decide +kernel
    · exact List.pairwise_singleton _ _
    · exact List.pairwise_singleton _ _
  unfold readProvenance
  refine require_bind_eq_ok.mpr ⟨by decide +kernel, require_bind_eq_ok.mpr ⟨by decide +kernel, ?_⟩⟩
  refine bind_eq_ok.mpr ⟨_, rfl, orRaise_eq_ok.mpr ?_⟩
  rw [String.toList_ofList]
  exact Json.loads_dumps Json.keepsSorted_lastWins 0 _ hwell

/-- The parts of the run. -/
theorem sample_checked :
    checkClaim sampleLibrary samplePayload "codex-worker" (.int 67108864) = .ok sampleClaim ∧
      checkCommit sampleFiles sampleGit "/repo" sampleClaim =
        .ok ("refs/remotes/origin/main", sampleCommit) ∧
      sampleBindings.map (checkBinding sampleLibrary sampleFiles sampleGit "/report" 67108864
        sampleCommit (evidenceFileMap sampleFiles sampleEvidence)) = sampleFound.map .ok ∧
      (evidenceFileMap sampleFiles sampleEvidence).map Prod.fst = sampleFound.map Prod.fst := by
  decide +kernel

theorem validateGitProvenance_sample :
    validateGitProvenance sampleLibrary sampleFiles sampleGit "/report/provenance.json" "/repo"
      "/report" "codex-worker" sampleEvidence (.int 67108864) = .ok sampleResult := by
  obtain ⟨hclaim, hcommit, hbindings, hpaths⟩ := sample_checked
  unfold validateGitProvenance
  refine bind_eq_ok.mpr ⟨_, readProvenance_sample, bind_eq_ok.mpr ⟨_, hclaim, ?_⟩⟩
  refine bind_eq_ok.mpr ⟨_, hcommit, bind_eq_ok.mpr ⟨sampleBindings, orRaise_eq_ok.mpr rfl, ?_⟩⟩
  refine bind_eq_ok.mpr ⟨sampleFound, mapM_eq_ok.mpr hbindings, ?_⟩
  have hcovered : ((evidenceFileMap sampleFiles sampleEvidence).map Prod.fst).find?
      (fun path => path ∉ sampleFound.map Prod.fst) = none := by
    rw [hpaths, List.find?_eq_none]
    intro path hpath
    rw [decide_eq_true_eq, not_not]
    exact hpath
  split
  · rename_i path hpath
    cases hcovered.symm.trans hpath
  · rfl

theorem validateGitProvenance_bound_iff_sample :
    ((∀ f ∈ sampleEvidence.files, ∃ b ∈ sampleBindings, ∃ relPath,
        Bound sampleLibrary sampleFiles sampleGit "/report" sampleCommit f b relPath) ∧
      Reachable sampleGit sampleClaim sampleCommit) ↔
    Blobs sampleFiles sampleGit "/report" sampleCommit sampleEvidence sampleBindings :=
  validateGitProvenance_bound_iff sampleLibrary sampleFiles sampleGit "/report/provenance.json"
    "/repo" "/report" "codex-worker" sampleEvidence (.int 67108864) samplePayload sampleBindings
    sampleResult readProvenance_sample rfl validateGitProvenance_sample

/-- The directory is accepted as the evidence with the text of its listing. -/
theorem validateGitProvenance_tree :
    ¬∀ (lib : Library) (files : Files String) (git : Git) (provenancePath sourceRepository
        reportRoot expectedAuthor : String) (evidence : Evidence) (maxBlobBytes payload : Json)
        (bindings : List Json) (result : Result),
      readProvenance files provenancePath reportRoot = .ok payload →
      bindingsOf payload = some bindings →
      validateGitProvenance lib files git provenancePath sourceRepository reportRoot
        expectedAuthor evidence maxBlobBytes = .ok result →
      (∀ f ∈ evidence.files, ∃ b ∈ bindings, ∃ relPath,
        Bound lib files git (files.resolve reportRoot) result.claim.commit f b relPath) ∧
      Reachable git result.claim result.refTip := by
  intro hall
  obtain ⟨hbound, -⟩ := hall sampleLibrary sampleFiles sampleGit "/report/provenance.json" "/repo"
    "/report" "codex-worker" sampleEvidence (.int 67108864) samplePayload sampleBindings
    sampleResult readProvenance_sample rfl validateGitProvenance_sample
  obtain ⟨b, hb, relPath, h⟩ := hbound _ (List.mem_cons_of_mem _ List.mem_cons_self)
  have hpaths : ∀ b ∈ sampleBindings, ∀ relPath,
      validateSourcePath (b.get "source_path") = .ok relPath →
      sampleFiles.resolveUnder "/report" relPath = "/report/data" →
      sampleGit.kind (sampleCommit ++ ":" ++ relPath) = some .tree := by
    have hvalid : ∀ b ∈ sampleBindings,
        validateSourcePath (b.get "source_path") = .ok "report.txt" ∨
          validateSourcePath (b.get "source_path") = .ok "data" := by
      decide +kernel
    intro b hb relPath hpath htarget
    rcases hvalid b hb with hok | hok
    · obtain rfl := Except.ok.inj (hok.symm.trans hpath)
      exact absurd htarget (by decide +kernel)
    · obtain rfl := Except.ok.inj (hok.symm.trans hpath)
      decide +kernel
  have hkind := hpaths b hb relPath h.target.1 h.target.2
  exact absurd (hkind.symm.trans h.blob) (by decide)

end Sample

end Provenance
