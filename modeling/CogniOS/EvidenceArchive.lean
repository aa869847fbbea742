/-
# The evidence archive

`archive_evidence_bundle` of `archive.py`: the report, the manifest and the bounded artifacts of a
submission are copied under their digests, and a document about them is written last.

* `archiveEvidenceBundle` is the program, over the directory of everything below the workspace;
* `archive_spec` says which writes it makes, wherever it stops, and what it leaves when it returns.
-/
import CogniOS.FileStore
import CogniOS.TaskModel

open FileStore

namespace Archive

/-! ## Indented JSON -/

/-- A line break and the blanks of a level of `json.dump(indent=2)`. -/
def newline (depth : ℕ) : List Char := '\n' :: List.replicate (2 * depth) ' '

mutual

/-- `json.dump(value, indent=2, sort_keys=True)` at a level. -/
def indented (depth : ℕ) : Json → List Char
  | .arr (x :: xs) =>
      '[' :: newline (depth + 1) ++ indented (depth + 1) x ++ indentedItems depth xs
  | .obj ((k, v) :: rest) =>
      '\x7b' :: newline (depth + 1) ++ Json.quote k.toList ++ [':', ' '] ++
        indented (depth + 1) v ++ indentedFields depth rest
  | v => v.dumps 0

/-- The other items of an array, and its end. -/
def indentedItems (depth : ℕ) : List Json → List Char
  | [] => newline depth ++ [']']
  | x :: xs =>
      ',' :: newline (depth + 1) ++ indented (depth + 1) x ++ indentedItems depth xs

/-- The other fields of an object, and its end. -/
def indentedFields (depth : ℕ) : List (String × Json) → List Char
  | [] => newline depth ++ ['\x7d']
  | (k, v) :: rest =>
      ',' :: newline (depth + 1) ++ Json.quote k.toList ++ [':', ' '] ++
        indented (depth + 1) v ++ indentedFields depth rest

end

/-- The bytes that `atomic_write_json` writes. -/
def jsonFile (v : Json) : List UInt8 := Utf8.encode (indented 0 v ++ ['\n'])

/-! ## Names -/

/-- `Path.name`. -/
def fileName (path : String) : List Char := path.toList.rtakeWhile (· != '/')

def isSafeChar (c : Char) : Bool := isAlnum c || c == '.' || c == '_' || c == '-'

/-- `SAFE_NAME_RE.sub("_", value)`; the flag says that the run before is replaced already. -/
def replaceUnsafe : Bool → List Char → List Char
  | _, [] => []
  | replaced, c :: cs =>
      if isSafeChar c then c :: replaceUnsafe false cs
      else if replaced then replaceUnsafe true cs
      else '_' :: replaceUnsafe true cs

/-- `_safe_name`. -/
def safeName (path : String) : List Char :=
  let isEdge (c : Char) : Bool := c == '.' || c == '_'
  let value := ((replaceUnsafe false (fileName path)).dropWhile isEdge).rdropWhile isEdge
  if value = [] then "artifact".toList else value

/-- A number of at least three digits. -/
def threeDigits (n : ℕ) : String :=
  let digits := toString n
  String.ofList (List.replicate (3 - digits.toList.length) '0') ++ digits

/-! ## Arguments -/

/-- A file that a bundle lists: the resolved path, the digest that it must have, and whether it is
retained whatever its size. -/
structure Source where
  path : String
  sha256 : String
  kind : String
  force : Bool
  deriving DecidableEq

/-- The path and the digest in a record of a file. -/
def Source.ofRecord (record : Json) (kind : String) (force : Bool) : Except CogniError Source := do
  let path ← orRaise (record.get "path").asStr? ⟨.other, "path"⟩
  let sha256 ← orRaise (record.get "sha256").asStr? ⟨.other, "sha256"⟩
  .ok ⟨path, sha256, kind, force⟩

/-- The arguments of `archive_evidence_bundle`. -/
structure Request where
  taskId : String
  attempt : ℕ
  label : String
  report : Option Json
  manifest : Workspace.Manifest
  extraFiles : List Source

namespace Request

variable (r : Request)

/-- `f"{label}-{manifest_sha[:16]}"`. -/
def bundleId : String := r.label ++ "-" ++ String.ofList (r.manifest.sha256.text.toList.take 16)

/-- The directory of the bundle, below the given root of the workspace. -/
def destination (root : String) : String :=
  root ++ "/submissions/" ++ r.taskId ++ "/attempt-" ++ threeDigits r.attempt ++ "/" ++ r.bundleId

/-- The raw output that a validation record names. -/
def rawOutput? (validation : Json) : Option Json :=
  match validation.get "raw_output" with
  | .obj (field :: fields) => some (.obj (field :: fields))
  | _ => none

/-- The files in the order in which the loops collect them. -/
def sources : Except CogniError (List Source) := do
  let report ← r.report.toList.mapM fun record => Source.ofRecord record "report" true
  let manifest := if r.manifest.path = "" then [] else
    [⟨r.manifest.path, r.manifest.sha256.text, "manifest", true⟩]
  let artifacts ← r.manifest.artifacts.mapM fun record => Source.ofRecord record "artifact" false
  let outputs ← (r.manifest.validations.filterMap rawOutput?).mapM fun record =>
    Source.ofRecord record "raw_output" false
  .ok (report ++ manifest ++ artifacts ++ outputs ++ r.extraFiles)

end Request

/-! ## Bundles -/

/-- A file of a bundle. -/
structure Record where
  kind : String
  source : String
  sha256 : String
  sizeBytes : ℕ
  /-- Where the file is retained, if it is. -/
  archivePath : Option String
  deriving DecidableEq

def Record.toJson (f : Record) : Json :=
  .obj [
    ("archive_path", (f.archivePath.map Json.str).getD .null),
    ("kind", .str f.kind),
    ("retained", .bool f.archivePath.isSome),
    ("sha256", .str f.sha256),
    ("size_bytes", .int f.sizeBytes),
    ("source", .str f.source)]

/-- What `archive_evidence_bundle` returns. -/
structure Bundle where
  taskId : String
  attempt : ℕ
  label : String
  bundleId : String
  path : String
  manifestPath : String
  manifestSha256 : String
  files : List Record

def Bundle.toJson (b : Bundle) : Json :=
  .obj [
    ("attempt", .int b.attempt),
    ("bundle_id", .str b.bundleId),
    ("external", .int (b.files.countP (·.archivePath.isNone))),
    ("files", .arr (b.files.map Record.toJson)),
    ("label", .str b.label),
    ("manifest_path", .str b.manifestPath),
    ("manifest_sha256", .str b.manifestSha256),
    ("path", .str b.path),
    ("retained", .int (b.files.countP (·.archivePath.isSome))),
    ("task_id", .str b.taskId)]

/-! ## The program -/

/-- The files of the reports and runs directories during one call, by resolved path. -/
abbrev Staging := String → Option (List UInt8)

/-- A random suffix of `tempfile.mkstemp`. -/
structure Suffix where
  text : String
  ne_slash : ∀ ch ∈ text.toList, ch ≠ '/'

/-- What a call of the archive depends on beside its arguments: the root of the workspace, the
limit of the configuration, the staging files, and the suffix of its temporary files. -/
structure Context where
  sha256 : Hasher
  root : String
  maxArtifactBytes : ℤ
  staging : Staging
  temporary : Suffix

section Program

variable (c : Context) (r : Request)

/-- Where a file is retained. -/
def target (s : Source) : String :=
  r.destination c.root ++ "/files/" ++ s.sha256 ++ "_" ++ String.ofList (safeName s.path)

/-- `destination / "bundle.json"`. -/
def bundlePath : String := r.destination c.root ++ "/bundle.json"

/-- `_atomic_copy_verified`. -/
def atomicCopyVerified (s : Source) (content : List UInt8) : Action CogniError Unit := do
  require (c.sha256.hexdigest content = s.sha256) ⟨.evidence,
    "Evidence changed while being archived: " ++ s.path ++ " (expected " ++ s.sha256 ++
      ", observed " ++ c.sha256.hexdigest content ++ ")"⟩
  let d ← Action.directory
  match d.lookup (target c r s) with
  | some existing =>
      require (c.sha256.hexdigest existing = s.sha256) ⟨.evidence,
        "Archived evidence path already has different content: " ++ target c r s⟩
  | none =>
      Action.write (.replace (r.destination c.root ++ "/files/.copy." ++ c.temporary.text)
        (target c r s) content)

/-- `should_copy`. -/
def isRetained (s : Source) (content : List UInt8) : Bool :=
  s.force || (content.length : ℤ) ≤ c.maxArtifactBytes

/-- A file is copied where it is retained. -/
def copyRetained (s : Source) (content : List UInt8) : Action CogniError Unit :=
  if isRetained c s content then atomicCopyVerified c r s content else pure ()

/-- The record of a file. -/
def recordOf (s : Source) (content : List UInt8) : Record :=
  ⟨s.kind, s.path, s.sha256, content.length,
    if isRetained c s content then some (target c r s) else none⟩

/-- The loop over the files, with the ones that it has seen. -/
def retain : List (String × String) → List Source → Action CogniError (List Record)
  | _, [] => pure []
  | seen, s :: rest =>
      if (s.path, s.sha256) ∈ seen then retain seen rest
      else do
        let content ← orRaise (c.staging s.path)
          ⟨.evidence, "Evidence disappeared before archival: " ++ s.path⟩
        copyRetained c r s content
        let records ← retain ((s.path, s.sha256) :: seen) rest
        return recordOf c r s content :: records

/-- The document of a bundle. -/
def bundleDocument (files : List Record) : Json :=
  .obj [
    ("attempt", .int r.attempt),
    ("files", .arr (files.map Record.toJson)),
    ("label", .str r.label),
    ("manifest_sha256", .str r.manifest.sha256.text),
    ("max_artifact_bytes", .int c.maxArtifactBytes),
    ("schema_version", .int 1),
    ("task_id", .str r.taskId)]

/-- `archive_evidence_bundle`. -/
def archiveEvidenceBundle : Action CogniError Bundle := do
  require (0 ≤ c.maxArtifactBytes) ⟨.evidence, "max_artifact_bytes cannot be negative"⟩
  let sources ← r.sources
  let files ← retain c r [] sources
  let content := jsonFile (bundleDocument c r files)
  Action.write (.replace (r.destination c.root ++ "/.bundle.json." ++ c.temporary.text)
    (bundlePath c r) content)
  return {
    taskId := r.taskId
    attempt := r.attempt
    label := r.label
    bundleId := r.bundleId
    path := r.destination c.root
    manifestPath := bundlePath c r
    manifestSha256 := c.sha256.hexdigest content
    files := files }

end Program

/-! ## Paths -/

/-- The path of a document. -/
def IsDocument (path : String) : Prop := ∃ dir : String, path = dir ++ "/bundle.json"

/-- The path of a retained file. -/
def IsCopy (path : String) : Prop :=
  ∃ (dir sha256 : String) (name : List Char), Hex.isHex 64 sha256 = true ∧
    (∀ c ∈ name, c ≠ '/') ∧ path = dir ++ "/files/" ++ sha256 ++ "_" ++ String.ofList name

/-- The path of a temporary file. -/
def IsTemporary (path : String) : Prop :=
  ∃ (dir : String) (leaf : List Char), (∀ c ∈ leaf, c ≠ '/') ∧
    path = dir ++ "/." ++ String.ofList leaf

theorem fileName_eq {path dir : String} {leaf : List Char} (hpath : path.toList =
    dir.toList ++ '/' :: leaf) (h : ∀ c ∈ leaf, c ≠ '/') : fileName path = leaf := by
  rw [fileName, hpath, List.rtakeWhile, List.reverse_append, List.reverse_cons, List.append_assoc,
    List.takeWhile_append_of_pos]
  · simp
  · intro c hc
    rw [bne_iff_ne]
    exact h c (List.mem_reverse.mp hc)

theorem ne_slash_of_all {l : List Char} (h : l.all (· != '/') = true) : ∀ c ∈ l, c ≠ '/' :=
  fun c hc => bne_iff_ne.mp (List.all_eq_true.mp h c hc)

theorem ne_slash_of_isHex {sha256 : String} (h : Hex.isHex 64 sha256 = true) :
    ∀ c ∈ sha256.toList, c ≠ '/' := by
  simp only [Hex.isHex, Bool.and_eq_true] at h
  rintro c hc rfl
  exact absurd (List.all_eq_true.mp h.2 _ hc) (by decide)

theorem IsDocument.fileName {path : String} (h : IsDocument path) :
    fileName path = "bundle.json".toList := by
  obtain ⟨dir, rfl⟩ := h
  exact @fileName_eq _ dir "bundle.json".toList (by simp) (ne_slash_of_all (by decide))

/-- The name of a retained file starts with 64 hexadecimal digits. -/
theorem IsCopy.fileName {path : String} (h : IsCopy path) :
    ∃ sha256 : String, Hex.isHex 64 sha256 = true ∧ sha256.toList <+: fileName path := by
  obtain ⟨dir, sha256, name, hhex, hname, rfl⟩ := h
  refine ⟨sha256, hhex, '_' :: name, Eq.symm ?_⟩
  refine @fileName_eq _ (dir ++ "/files") _ (by simp) ?_
  intro c hc
  rcases List.mem_append.mp hc with hc | hc
  · exact ne_slash_of_isHex hhex c hc
  · rcases List.mem_cons.mp hc with rfl | hc
    · decide
    · exact hname c hc

theorem IsTemporary.fileName {path : String} (h : IsTemporary path) :
    (fileName path).head? = some '.' := by
  obtain ⟨dir, leaf, hleaf, rfl⟩ := h
  rw [@fileName_eq _ dir ('.' :: leaf) (by simp)]
  · rfl
  · intro c hc
    rcases List.mem_cons.mp hc with rfl | hc
    · decide
    · exact hleaf c hc

theorem IsCopy.head_isDigit {path : String} (h : IsCopy path) :
    ∀ i < 64, ∃ c, (Archive.fileName path)[i]? = some c ∧ Hex.isDigit c = true := by
  obtain ⟨sha256, hhex, hprefix⟩ := h.fileName
  simp only [Hex.isHex, Bool.and_eq_true, decide_eq_true_eq] at hhex
  intro i hi
  have hlt : i < sha256.toList.length := by omega
  refine ⟨sha256.toList[i], ?_, List.all_eq_true.mp hhex.2 _ (List.getElem_mem hlt)⟩
  obtain ⟨rest, hrest⟩ := hprefix
  rw [← hrest, List.getElem?_append_left hlt, List.getElem?_eq_getElem hlt]

theorem IsDocument.ne_copy {p q : String} (hp : IsDocument p) (hq : IsCopy q) : p ≠ q := by
  rintro rfl
  obtain ⟨c, hc, hdigit⟩ := hq.head_isDigit 1 (by decide)
  rw [hp.fileName] at hc
  obtain rfl : 'u' = c := Option.some.inj hc
  exact absurd hdigit (by decide)

theorem IsTemporary.ne_document {p q : String} (hp : IsTemporary p) (hq : IsDocument q) :
    q ≠ p := by
  rintro rfl
  have h := hp.fileName
  rw [hq.fileName] at h
  exact absurd h (by decide)

theorem IsTemporary.ne_copy {p q : String} (hp : IsTemporary p) (hq : IsCopy q) : q ≠ p := by
  rintro rfl
  obtain ⟨c, hc, hdigit⟩ := hq.head_isDigit 0 (by decide)
  have h := hp.fileName
  rw [List.head?_eq_getElem?, hc] at h
  obtain rfl := Option.some.inj h
  exact absurd hdigit (by decide)

/-! ## What the program writes and leaves -/

section Spec

variable (c : Context) (r : Request)

/-- The records that the loop collects, where every file is there. -/
def records : List (String × String) → List Source → List Record
  | _, [] => []
  | seen, s :: rest =>
      if (s.path, s.sha256) ∈ seen then records seen rest
      else recordOf c r s ((c.staging s.path).getD []) :: records ((s.path, s.sha256) :: seen) rest

/-- The content of the document that the arguments and the staging files determine. -/
def document (sources : List Source) : List UInt8 :=
  jsonFile (bundleDocument c r (records c r [] sources))

/-- A file is there with the digest and the size that are recorded of it. -/
def Record.Intact (H : Hasher) (d : Directory) (f : Record) : Prop :=
  ∀ path ∈ f.archivePath, IsCopy path ∧ ∃ content, d.lookup path = some content ∧
    H.hexdigest content = f.sha256 ∧ content.length = f.sizeBytes

/-- The document and the retained files of a bundle are there as they were recorded. -/
structure Bundle.Intact (H : Hasher) (d : Directory) (b : Bundle) : Prop where
  isDocument : IsDocument b.manifestPath
  document : ∃ content, d.lookup b.manifestPath = some content ∧
    H.hexdigest content = b.manifestSha256
  files : ∀ f ∈ b.files, f.Intact H d

/-- The write adds a retained file. -/
def Adds (d : Directory) (w : Write) : Prop :=
  ∃ temporary content, w = .replace temporary w.name content ∧ IsTemporary temporary ∧
    IsCopy w.name ∧ d.lookup w.name = none

/-- The write replaces the document. -/
def Binds (content : List UInt8) (w : Write) : Prop :=
  ∃ temporary, w = .replace temporary (bundlePath c r) content ∧ IsTemporary temporary

variable {c r}

theorem isDocument_bundlePath : IsDocument (bundlePath c r) := ⟨_, rfl⟩

theorem safeName_ne_slash (path : String) : ∀ ch ∈ safeName path, ch ≠ '/' := by
  have hreplace : ∀ replaced (l : List Char), ∀ ch ∈ replaceUnsafe replaced l,
      isSafeChar ch = true ∨ ch = '_' := by
    intro replaced l
    induction l generalizing replaced with
    | nil => simp [replaceUnsafe]
    | cons x xs ih =>
      intro ch hch
      rw [replaceUnsafe] at hch
      split_ifs at hch with hsafe hreplaced
      · rcases List.mem_cons.mp hch with rfl | hch
        · exact .inl hsafe
        · exact ih _ ch hch
      · exact ih _ ch hch
      · rcases List.mem_cons.mp hch with rfl | hch
        · exact .inr rfl
        · exact ih _ ch hch
  have hslash : ∀ ch, isSafeChar ch = true ∨ ch = '_' → ch ≠ '/' := by
    rintro ch h rfl
    revert h
    decide
  intro ch hch
  unfold safeName at hch
  dsimp only at hch
  split at hch
  · exact ne_slash_of_all (by decide) ch hch
  · have hmem := (List.dropWhile_suffix _).subset ((List.rdropWhile_prefix _ _).subset hch)
    exact hslash ch (hreplace false _ ch hmem)

theorem isCopy_target {s : Source} (h : Hex.isHex 64 s.sha256 = true) : IsCopy (target c r s) :=
  ⟨_, s.sha256, safeName s.path, h, safeName_ne_slash s.path, rfl⟩

/-- A retained file is never overwritten by another one. -/
theorem Record.Intact.adds {H : Hasher} {d : Directory} {f : Record} {w : Write}
    (h : f.Intact H d) (hw : Adds d w) : f.Intact H (w.apply d) := by
  intro path hpath
  obtain ⟨hcopy, content, hlookup, hrest⟩ := h path hpath
  obtain ⟨-, -, -, -, -, hnew⟩ := hw
  refine ⟨hcopy, content, ?_, hrest⟩
  have hne : path ≠ w.name := by
    rintro rfl
    rw [hnew] at hlookup
    cases hlookup
  rw [Write.lookup_apply, if_neg hne, hlookup]

end Spec

section Loop

variable {c : Context} {r : Request} {Held : List UInt8 → Prop}

/-- Only contents that the condition holds of are in the directory. -/
def AllHeld (Held : List UInt8 → Prop) (d : Directory) : Prop :=
  ∀ path content, d.lookup path = some content → Held content

theorem atomicCopyVerified_spec
    (hsame : ∀ x y, Held x → Held y → c.sha256.hexdigest x = c.sha256.hexdigest y →
      x.length = y.length)
    {s : Source} {content : List UInt8}
    (hcontent : Held content) :
    Triple Adds (AllHeld Held) (atomicCopyVerified c r s content) fun _ d => AllHeld Held d ∧
      IsCopy (target c r s) ∧ ∃ x, d.lookup (target c r s) = some x ∧
        c.sha256.hexdigest x = s.sha256 ∧ x.length = content.length := by
  unfold atomicCopyVerified
  refine Triple.bind (Q := fun _ d => AllHeld Held d ∧ c.sha256.hexdigest content = s.sha256)
    (Triple.lift fun d _ hd h => ⟨hd, require_eq_ok.mp h⟩) fun _ => ?_
  refine Triple.bind (Q := fun d d' => d' = d ∧ AllHeld Held d ∧
    c.sha256.hexdigest content = s.sha256) (Triple.directory fun d hd => ⟨rfl, hd⟩) fun d => ?_
  have hcopy : c.sha256.hexdigest content = s.sha256 → IsCopy (target c r s) := fun h =>
    isCopy_target (h ▸ c.sha256.hex content)
  cases hlookup : d.lookup (target c r s) with
  | some existing =>
    -- the file is there already: its digest is the same, and so is its size
    refine Triple.lift ?_
    rintro d' _ ⟨rfl, hd, hdigest⟩ h
    have hexisting := require_eq_ok.mp h
    exact ⟨hd, hcopy hdigest, existing, hlookup, hexisting,
      hsame _ _ (hd _ _ hlookup) hcontent (hexisting.trans hdigest.symm)⟩
  | none =>
    refine Triple.write ?_
    rintro d' ⟨rfl, hd, hdigest⟩
    refine ⟨⟨_, content, rfl, ?_, hcopy hdigest, hlookup⟩, ?_, hcopy hdigest, content, ?_, hdigest,
      rfl⟩
    · refine ⟨r.destination c.root ++ "/files", "copy.".toList ++ c.temporary.text.toList, ?_, ?_⟩
      · intro ch hch
        rcases List.mem_append.mp hch with hch | hch
        · exact ne_slash_of_all (by decide) ch hch
        · exact c.temporary.ne_slash ch hch
      · rw [← String.toList_inj]
        simp
    · intro path x hx
      rw [Write.lookup_apply] at hx
      split_ifs at hx with hname
      · obtain rfl := Option.some.inj hx
        exact hcontent
      · exact hd path x hx
    · rw [Write.lookup_apply]
      exact if_pos rfl

theorem retain_spec
    (hheld : ∀ path content, c.staging path = some content → Held content)
    (hsame : ∀ x y, Held x → Held y → c.sha256.hexdigest x = c.sha256.hexdigest y →
      x.length = y.length)
    (seen : List (String × String)) (sources : List Source) :
    Triple Adds (AllHeld Held) (retain c r seen sources) fun files d => AllHeld Held d ∧
      files = records c r seen sources ∧ ∀ f ∈ files, f.Intact c.sha256 d := by
  induction sources generalizing seen with
  | nil => exact Triple.pure fun d hd => ⟨hd, rfl, by simp⟩
  | cons s rest ih =>
    rw [retain, records]
    split_ifs with hseen
    · exact ih seen
    · refine Triple.bind (Q := fun content d => AllHeld Held d ∧ c.staging s.path = some content)
        (Triple.lift fun d content hd h => ⟨hd, orRaise_eq_ok.mp h⟩) fun content => ?_
      refine Triple.assume fun hcontent => ?_
      rw [hcontent, Option.getD_some]
      have hcopied : Triple Adds (AllHeld Held) (copyRetained c r s content) fun _ d =>
          AllHeld Held d ∧ (recordOf c r s content).Intact c.sha256 d := by
        unfold copyRetained
        by_cases hretained : isRetained c s content = true
        · rw [if_pos hretained]
          refine (atomicCopyVerified_spec hsame (hheld _ _ hcontent)).weaken
            (fun _ hd => hd) ?_
          rintro _ d ⟨hd, hcopy, x, hlookup, hdigest, hlength⟩
          refine ⟨hd, fun path hpath => ?_⟩
          obtain rfl : target c r s = path := by
            simpa [recordOf, hretained] using hpath
          exact ⟨hcopy, x, hlookup, hdigest, hlength⟩
        · rw [if_neg hretained]
          refine Triple.pure fun d hd => ⟨hd, fun path hpath => ?_⟩
          simp [recordOf, hretained] at hpath
      refine Triple.bind hcopied fun _ => ?_
      refine Triple.bind (((ih ((s.path, s.sha256) :: seen)).frame
        fun d w hd hw => hd.adds hw)) fun files => ?_
      refine Triple.pure ?_
      rintro d ⟨⟨hd, rfl, hfiles⟩, hrecord⟩
      exact ⟨hd, rfl, List.forall_mem_cons.mpr ⟨hrecord, hfiles⟩⟩

/-- What the program returns for its files. -/
def bundleOf (c : Context) (r : Request) (sources : List Source) : Bundle where
  taskId := r.taskId
  attempt := r.attempt
  label := r.label
  bundleId := r.bundleId
  path := r.destination c.root
  manifestPath := bundlePath c r
  manifestSha256 := c.sha256.hexdigest (document c r sources)
  files := records c r [] sources

/-- What the program writes: new retained files, then the document. -/
def Archives (c : Context) (r : Request) (d : Directory) (w : Write) : Prop :=
  Adds d w ∨ ∃ sources, r.sources = .ok sources ∧ Binds c r (document c r sources) w

theorem isTemporary_document :
    IsTemporary (r.destination c.root ++ "/.bundle.json." ++ c.temporary.text) := by
  refine ⟨r.destination c.root, "bundle.json.".toList ++ c.temporary.text.toList, ?_, ?_⟩
  · intro ch hch
    rcases List.mem_append.mp hch with hch | hch
    · exact ne_slash_of_all (by decide) ch hch
    · exact c.temporary.ne_slash ch hch
  · rw [← String.toList_inj]
    simp

/-- **The archive program.** -/
theorem archive_spec (hheld : ∀ path content, c.staging path = some content → Held content)
    (hsame : ∀ x y, Held x → Held y → c.sha256.hexdigest x = c.sha256.hexdigest y →
      x.length = y.length) :
    Triple (Archives c r) (AllHeld Held) (archiveEvidenceBundle c r) fun b d =>
      b.Intact c.sha256 d ∧ ∃ sources, r.sources = .ok sources ∧ b = bundleOf c r sources := by
  unfold archiveEvidenceBundle
  refine Triple.bind (Q := fun _ => AllHeld Held) (Triple.lift fun _ _ hd _ => hd) fun _ => ?_
  refine Triple.bind (Q := fun sources d => AllHeld Held d ∧ r.sources = .ok sources)
    (Triple.lift fun _ _ hd h => ⟨hd, h⟩) fun sources => Triple.assume fun hsources => ?_
  refine Triple.bind ((retain_spec hheld hsame [] sources).mono fun _ _ => .inl)
    fun files => ?_
  refine Triple.bind (Q := fun _ d => files = records c r [] sources ∧
    d.lookup (bundlePath c r) = some (document c r sources) ∧
      ∀ f ∈ files, f.Intact c.sha256 d) (Triple.write ?_) fun _ => Triple.pure ?_
  · rintro d ⟨hd, rfl, hfiles⟩
    refine ⟨.inr ⟨sources, hsources, _, rfl, isTemporary_document⟩, rfl, ?_, ?_⟩
    · rw [Write.lookup_apply]
      exact if_pos rfl
    · intro f hf path hpath
      obtain ⟨hcopy, content, hlookup, hrest⟩ := hfiles f hf path hpath
      refine ⟨hcopy, content, ?_, hrest⟩
      rw [Write.lookup_apply]
      exact (if_neg (isDocument_bundlePath.ne_copy hcopy).symm).trans hlookup
  · rintro d ⟨rfl, hdocument, hfiles⟩
    exact ⟨⟨isDocument_bundlePath, ⟨_, hdocument, rfl⟩, hfiles⟩, sources, hsources, rfl⟩

/-! ## What a run of the program keeps -/

/-- The directory that a stopped or finished run leaves. -/
def leaves (ws : List Write) (d : Directory) : Option Point → Directory
  | none => applyAll ws d
  | some point => crash ws d point

@[simp] theorem leaves_nil (d : Directory) (stop : Option Point) : leaves [] d stop = d := by
  cases stop with
  | none => rfl
  | some point => cases point <;> simp [leaves, crash]

/-- A file of the archive is kept, wherever the program stops, if it is not the document that the
program replaces by another one. -/
theorem lookup_leaves {d : Directory} {ws : List Write} (hws : Steps (Archives c r) d ws)
    {path : String} {content : List UInt8} (hlookup : d.lookup path = some content)
    (hpath : IsDocument path ∨ IsCopy path)
    (hkeep : path = bundlePath c r → ∀ sources, r.sources = .ok sources →
      content = document c r sources) (stop : Option Point) :
    (leaves ws d stop).lookup path = some content := by
  have hstep : ∀ d w, d.lookup path = some content → Archives c r d w →
      (w.apply d).lookup path = some content := by
    intro d w hd hw
    rw [Write.lookup_apply]
    rcases hw with ⟨-, -, -, -, -, hnew⟩ | ⟨sources, hsources, temporary, rfl, -⟩
    · rw [if_neg, hd]
      rintro rfl
      rw [hnew] at hd
      cases hd
    · by_cases hname : path = bundlePath c r
      · rw [hkeep hname sources hsources]
        exact if_pos hname
      · exact (if_neg hname).trans hd
  have htemporary : ∀ (k : ℕ) (temporary name : String) (x : List UInt8),
      ws[k]? = some (.replace temporary name x) → path ≠ temporary := by
    intro k temporary name x hget
    have htemporary : IsTemporary temporary := by
      rcases hws.get hget with ⟨_, _, heq, htemporary, -⟩ | ⟨_, -, _, heq, htemporary⟩
      · cases heq
        exact htemporary
      · cases heq
        exact htemporary
    rcases hpath with hpath | hpath
    · exact htemporary.ne_document hpath
    · exact htemporary.ne_copy hpath
  have htake : ∀ k, (applyAll (ws.take k) d).lookup path = some content := fun k =>
    (hws.take k).invariant hstep hlookup
  cases stop with
  | none => exact hws.invariant hstep hlookup
  | some point =>
    cases point with
    | between k => exact htake k
    | within k bytes =>
      cases hget : ws[k]? with
      | none =>
        simp only [leaves, crash, hget]
        exact hws.invariant hstep hlookup
      | some w =>
        cases w with
        | create name x =>
          rcases hws.get hget with ⟨_, _, heq, -⟩ | ⟨_, -, _, heq, -⟩ <;> cases heq
        | replace temporary name x =>
          simp only [leaves, crash, hget]
          rw [AList.lookup_insert_ne (htemporary k temporary name x hget), htake k]

/-- A bundle is kept, wherever the program stops, if its document is not replaced by another. -/
theorem Bundle.Intact.leaves {b : Bundle} {d : Directory} {ws : List Write}
    (h : b.Intact c.sha256 d) (hws : Steps (Archives c r) d ws)
    (hkeep : b.manifestPath = bundlePath c r → ∀ sources, r.sources = .ok sources →
      d.lookup b.manifestPath = some (Archive.document c r sources)) (stop : Option Point) :
    b.Intact c.sha256 (leaves ws d stop) := by
  obtain ⟨content, hcontent, hdigest⟩ := h.document
  refine ⟨h.isDocument, ⟨content, ?_, hdigest⟩, fun f hf path hpath => ?_⟩
  · refine lookup_leaves hws hcontent (.inl h.isDocument) (fun hname sources hsources => ?_) stop
    exact Option.some.inj (hcontent.symm.trans (hkeep hname sources hsources))
  · obtain ⟨hcopy, x, hlookup, hrest⟩ := h.files f hf path hpath
    refine ⟨hcopy, x, ?_, hrest⟩
    refine lookup_leaves hws hlookup (.inr hcopy) (fun hname => ?_) stop
    exact absurd hname.symm (isDocument_bundlePath.ne_copy hcopy)

end Loop

end Archive
