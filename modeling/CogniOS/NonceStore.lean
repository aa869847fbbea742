/-
# The nonce store of the snapshot broker

`_NonceReplayStore`: one directory for each uid with one file for each nonce, named by its hash
and holding the expiry of its request.  A consumption prunes what is expired and creates the
file of its own nonce exclusively.

* `pruneExpired` and `consume` are functions of the listing of the store;
* `Step` is one step of the connection threads, the clock or the file system;
* `consumed_once` : no request is consumed twice, in every run in which no thread holds a
  consumed request for more than five seconds after its expiry.
-/
import CogniOS.BrokerProtocol
import CogniOS.Runs

namespace SnapshotBroker

/-! ## Constants -/

def maxReplayFilesScanned : ℕ := 4096

def maxNoncesPerUid : ℕ := 256

def maxNoncesTotal : ℕ := 4096

def maxNonceUidDirectories : ℕ := 1024

/-! ## Integers as text -/

/-- The digits of a decimal literal, without the underscores between them. -/
def intDigits : List Char → Option (List Char)
  | [] => none
  | [c] => if c.isDigit then some [c] else none
  | c :: '_' :: rest => if c.isDigit then (intDigits rest).map (c :: ·) else none
  | c :: rest => if c.isDigit then (intDigits rest).map (c :: ·) else none

/-- `int(text.strip())` of an ASCII text. -/
def readInt (text : List Char) : Option ℤ :=
  match (strip (String.ofList text)).toList with
  | '-' :: digits => (intDigits digits).map fun ds => JsonNumber.intOfText ('-' :: ds)
  | '+' :: digits => (intDigits digits).map JsonNumber.intOfText
  | digits => (intDigits digits).map JsonNumber.intOfText

example : readInt "  -1_000\n".toList = some (-1000) := by decide +kernel

theorem intDigits_of_all {digits : List Char} (hne : digits ≠ [])
    (hall : ∀ c ∈ digits, c.isDigit = true) : intDigits digits = some digits := by
  induction digits with
  | nil => exact absurd rfl hne
  | cons c rest ih =>
    have hc : c.isDigit = true := hall c (by simp)
    cases rest with
    | nil => rw [intDigits, if_pos hc]
    | cons d rest =>
      have hd : d ≠ '_' := by
        rintro rfl
        exact absurd (hall '_' (by simp)) (by decide)
      rw [intDigits, if_pos hc, ih (by simp) fun x hx => hall x (List.mem_cons_of_mem _ hx)]
      · rfl
      · simp
      · rintro tail htail
        exact hd (List.cons.inj htail).1

theorem isSpace_of_isDigit {c : Char} (hc : c.isDigit = true) : TextLines.isSpace c = false := by
  have hrange : 48 ≤ c.toNat ∧ c.toNat ≤ 57 := by
    simp only [Char.isDigit, Bool.and_eq_true, decide_eq_true_eq] at hc
    exact ⟨hc.1, hc.2⟩
  simp only [TextLines.isSpace, decide_eq_false_iff_not, List.mem_cons, List.not_mem_nil,
    or_false]
  omega

theorem isSpace_of_mem_intText {n : ℤ} {c : Char} (hc : c ∈ JsonNumber.intText n) :
    TextLines.isSpace c = false := by
  unfold JsonNumber.intText at hc
  split at hc
  · rcases List.mem_cons.mp hc with rfl | hc
    · decide
    · exact isSpace_of_isDigit (JsonNumber.isDigit_of_mem_toDigits hc)
  · exact isSpace_of_isDigit (JsonNumber.isDigit_of_mem_toDigits hc)

/-- The newline of a line without blanks is stripped. -/
theorem strip_line {cs : List Char} (hne : cs ≠ []) (hcs : ∀ c ∈ cs, TextLines.isSpace c = false) :
    strip (String.ofList (cs ++ ['\n'])) = String.ofList cs := by
  obtain ⟨c, rest, rfl⟩ := List.exists_cons_of_ne_nil hne
  have hc : TextLines.isSpace c = false := hcs c (by simp)
  unfold strip
  rw [String.toList_ofList, List.cons_append, List.dropWhile_cons_of_neg (by simp [hc]),
    ← List.cons_append, List.rdropWhile_concat_pos _ _ _ (by decide)]
  have hlast : ∀ hl : c :: rest ≠ [], ¬TextLines.isSpace ((c :: rest).getLast hl) = true := by
    intro hl
    rw [hcs _ (List.getLast_mem hl)]
    decide
  rw [List.rdropWhile_eq_self_iff.mpr hlast]

/-- What a consumption writes is read back. -/
theorem readInt_intText (n : ℤ) : readInt (JsonNumber.intText n ++ ['\n']) = some n := by
  unfold readInt
  rw [strip_line (JsonNumber.intText_ne_nil n) fun c hc => isSpace_of_mem_intText hc,
    String.toList_ofList]
  have hdigits : intDigits (Nat.toDigits 10 n.natAbs) = some (Nat.toDigits 10 n.natAbs) :=
    intDigits_of_all Nat.toDigits_ne_nil fun c hc => JsonNumber.isDigit_of_mem_toDigits hc
  have hint := JsonNumber.intOfText_intText n
  unfold JsonNumber.intText at hint ⊢
  split
  · rename_i digits heq
    split at heq
    · obtain rfl : Nat.toDigits 10 n.natAbs = digits := by simpa using heq
      rw [if_pos ‹n < 0›] at hint
      rw [hdigits, Option.map_some, hint]
    · have hminus : ('-' : Char).isDigit = true :=
        JsonNumber.isDigit_of_mem_toDigits (n := n.natAbs) (by rw [heq]; exact List.mem_cons_self)
      exact absurd hminus (by decide)
  · rename_i digits heq
    split at heq
    · exact absurd (List.cons.inj heq).1 (by decide)
    · have hplus : ('+' : Char).isDigit = true :=
        JsonNumber.isDigit_of_mem_toDigits (n := n.natAbs) (by rw [heq]; exact List.mem_cons_self)
      exact absurd hplus (by decide)
  · rename_i digits hminus hplus
    split
    · rename_i hneg
      exact (hminus _ (if_pos hneg)).elim
    · rename_i hneg
      rw [if_neg hneg] at hint
      rw [hdigits, Option.map_some, hint]

/-! ## The store -/

/-- A nonce file. -/
structure NonceFile where
  name : String
  text : List Char
  deriving DecidableEq

/-- The directory of a uid, its files as `os.scandir` lists them. -/
structure UidDirectory where
  uid : ℕ
  files : List NonceFile
  deriving DecidableEq

/-- The nonce root, its directories as `os.scandir` lists them. -/
abbrev NonceRoot := List UidDirectory

/-- The inner loop of `_prune_expired` with the number of files scanned before.  A file that is
not reached because of an exception stays. -/
def pruneFiles (now : ℤ) : ℕ → List NonceFile → List NonceFile × Except CogniError ℕ
  | scanned, [] => ([], .ok scanned)
  | scanned, file :: rest =>
      if maxReplayFilesScanned < scanned + 1 then
        (file :: rest, .error (error "Snapshot nonce prune bound exceeded"))
      else
        match readInt file.text with
        | none => (file :: rest, .error (error "Snapshot nonce state is malformed"))
        | some value =>
            let pruned := pruneFiles now (scanned + 1) rest
            (if value + 5 < now then pruned.1 else file :: pruned.1, pruned.2)

/-- The outer loop of `_prune_expired`; a directory left empty is removed. -/
def pruneDirectories (now : ℤ) : ℕ → ℕ → NonceRoot → NonceRoot × Except CogniError Unit
  | _, _, [] => ([], .ok ())
  | uidDirectories, scanned, directory :: rest =>
      if maxNonceUidDirectories < uidDirectories + 1 then
        (directory :: rest, .error (error "Snapshot nonce UID directory limit reached"))
      else
        match pruneFiles now scanned directory.files with
        | (files, .error e) => (⟨directory.uid, files⟩ :: rest, .error e)
        | (files, .ok scanned) =>
            let pruned := pruneDirectories now (uidDirectories + 1) scanned rest
            (if files = [] then pruned.1 else ⟨directory.uid, files⟩ :: pruned.1, pruned.2)

/-- `_prune_expired`. -/
def pruneExpired (now : ℤ) (root : NonceRoot) : NonceRoot × Except CogniError Unit :=
  pruneDirectories now 0 0 root

/-- `_ensure_root_directory` of the directory of a uid. -/
def ensureUidDirectory (uid : ℕ) (root : NonceRoot) : NonceRoot :=
  if root.any (·.uid = uid) then root else root ++ [⟨uid, []⟩]

/-- The files of a uid. -/
def filesOf (uid : ℕ) (root : NonceRoot) : List NonceFile :=
  (root.filter (·.uid = uid)).flatMap UidDirectory.files

/-- `_count_files`. -/
def countFiles (files : List NonceFile) (maximum : ℕ) : Except CogniError ℕ := do
  require (files.length ≤ maximum) (error "Snapshot nonce store exceeds its bound")
  .ok files.length

/-- `_total_count`, from the directories and the files counted before. -/
def totalCount : ℕ → ℕ → NonceRoot → Except CogniError ℕ
  | _, total, [] => .ok total
  | uidDirectories, total, directory :: rest => do
      require (uidDirectories + 1 ≤ maxNonceUidDirectories)
        (error "Snapshot nonce UID directory limit reached")
      let count ← countFiles directory.files maxNoncesPerUid
      require (total + count ≤ maxNoncesTotal)
        (error "Snapshot nonce store exceeds its global bound")
      totalCount (uidDirectories + 1) (total + count) rest

/-- The limits that a consumption checks after pruning. -/
def checkLimits (uid : ℕ) (root : NonceRoot) : Except CogniError Unit := do
  let activeForUid ← countFiles (filesOf uid root) maxNoncesPerUid
  require (activeForUid < maxNoncesPerUid)
    (error "Snapshot broker per-UID nonce rate limit reached")
  let total ← totalCount 0 0 root
  require (total < maxNoncesTotal) (error "Snapshot broker global nonce limit reached")

/-- The name of the file of a nonce. -/
def nonceName (h : Hasher) (uid : ℕ) (nonce : String) : String :=
  h.hexdigest (Utf8.encode ((toString uid).toList ++ ':' :: nonce.toList))

/-- The file that a consumption creates. -/
def nonceFile (h : Hasher) (uid : ℕ) (nonce : String) (expiresAt : ℤ) : NonceFile :=
  ⟨nonceName h uid nonce, JsonNumber.intText expiresAt ++ ['\n']⟩

/-- Create a file in the directory of a uid. -/
def addFile (uid : ℕ) (file : NonceFile) (root : NonceRoot) : NonceRoot :=
  root.map fun d => if d.uid = uid then ⟨d.uid, d.files ++ [file]⟩ else d

/-- `_consume_locked` at one reading of the clock. -/
def consume (h : Hasher) (now : ℤ) (uid : ℕ) (nonce : String) (expiresAt : ℤ)
    (root : NonceRoot) : NonceRoot × Except CogniError Unit :=
  match pruneExpired now root with
  | (root, .error e) => (root, .error e)
  | (root, .ok ()) =>
      let root := ensureUidDirectory uid root
      match checkLimits uid root with
      | .error e => (root, .error e)
      | .ok () =>
          let file := nonceFile h uid nonce expiresAt
          if (filesOf uid root).any (·.name = file.name) then
            (root, .error (error "Snapshot broker nonce replay was rejected"))
          else (addFile uid file root, .ok ())

/-! ## What one call does to the store -/

/-- The store has the file for the uid. -/
def HasFile (root : NonceRoot) (uid : ℕ) (file : NonceFile) : Prop :=
  ∃ d ∈ root, d.uid = uid ∧ file ∈ d.files

theorem mem_filesOf {root : NonceRoot} {uid : ℕ} {file : NonceFile} :
    file ∈ filesOf uid root ↔ HasFile root uid file := by
  simp only [filesOf, List.mem_flatMap, List.mem_filter, decide_eq_true_eq, HasFile]
  constructor
  · rintro ⟨d, ⟨hd, huid⟩, hfile⟩
    exact ⟨d, hd, huid, hfile⟩
  · rintro ⟨d, hd, huid, hfile⟩
    exact ⟨d, ⟨hd, huid⟩, hfile⟩

/-- Pruning removes files and adds none. -/
theorem mem_of_mem_pruneFiles {now : ℤ} {scanned : ℕ} {files : List NonceFile} {file : NonceFile}
    (hfile : file ∈ (pruneFiles now scanned files).1) : file ∈ files := by
  induction files generalizing scanned with
  | nil => exact hfile
  | cons f rest ih =>
    rw [pruneFiles] at hfile
    split at hfile
    · exact hfile
    · split at hfile
      · exact hfile
      · dsimp only at hfile
        split at hfile
        · exact List.mem_cons_of_mem _ (ih hfile)
        · rcases List.mem_cons.mp hfile with rfl | hfile
          · exact List.mem_cons_self
          · exact List.mem_cons_of_mem _ (ih hfile)

/-- Pruning keeps what is not expired. -/
theorem mem_pruneFiles {now value : ℤ} {scanned : ℕ} {files : List NonceFile} {file : NonceFile}
    (hfile : file ∈ files) (hvalue : readInt file.text = some value) (hlive : now ≤ value + 5) :
    file ∈ (pruneFiles now scanned files).1 := by
  induction files generalizing scanned with
  | nil => exact hfile
  | cons f rest ih =>
    rw [pruneFiles]
    split
    · exact hfile
    · split
      · exact hfile
      · rename_i value' hvalue'
        dsimp only
        rcases List.mem_cons.mp hfile with rfl | hfile
        · have hsame : value' = value := Option.some.inj (hvalue'.symm.trans hvalue)
          rw [if_neg (by omega)]
          exact List.mem_cons_self
        · split
          · exact ih hfile
          · exact List.mem_cons_of_mem _ (ih hfile)

theorem hasFile_cons {root : NonceRoot} {d : UidDirectory} {uid : ℕ} {file : NonceFile} :
    HasFile (d :: root) uid file ↔ (d.uid = uid ∧ file ∈ d.files) ∨ HasFile root uid file := by
  simp [HasFile]

theorem hasFile_of_pruneDirectories {now : ℤ} {n scanned : ℕ} {root : NonceRoot} {uid : ℕ}
    {file : NonceFile} (hfile : HasFile (pruneDirectories now n scanned root).1 uid file) :
    HasFile root uid file := by
  induction root generalizing n scanned with
  | nil => exact hfile
  | cons d rest ih =>
    rw [pruneDirectories] at hfile
    split at hfile
    · exact hfile
    · split at hfile
      · rename_i files e hfiles
        rcases hasFile_cons.mp hfile with ⟨huid, hmem⟩ | hrest
        · have hmem' : file ∈ (pruneFiles now scanned d.files).1 := by rw [hfiles]; exact hmem
          exact hasFile_cons.mpr (.inl ⟨huid, mem_of_mem_pruneFiles hmem'⟩)
        · exact hasFile_cons.mpr (.inr hrest)
      · rename_i files scanned' hfiles
        dsimp only at hfile
        split at hfile
        · exact hasFile_cons.mpr (.inr (ih hfile))
        · rcases hasFile_cons.mp hfile with ⟨huid, hmem⟩ | hrest
          · have hmem' : file ∈ (pruneFiles now scanned d.files).1 := by rw [hfiles]; exact hmem
            exact hasFile_cons.mpr (.inl ⟨huid, mem_of_mem_pruneFiles hmem'⟩)
          · exact hasFile_cons.mpr (.inr (ih hrest))

theorem hasFile_pruneDirectories {now value : ℤ} {n scanned : ℕ} {root : NonceRoot} {uid : ℕ}
    {file : NonceFile} (hfile : HasFile root uid file) (hvalue : readInt file.text = some value)
    (hlive : now ≤ value + 5) : HasFile (pruneDirectories now n scanned root).1 uid file := by
  induction root generalizing n scanned with
  | nil => exact hfile
  | cons d rest ih =>
    rw [pruneDirectories]
    split
    · exact hfile
    · have hkeep : file ∈ d.files → file ∈ (pruneFiles now scanned d.files).1 :=
        fun hmem => mem_pruneFiles hmem hvalue hlive
      split
      · rename_i files e hfiles
        rw [hfiles] at hkeep
        rcases hasFile_cons.mp hfile with ⟨huid, hmem⟩ | hrest
        · exact hasFile_cons.mpr (.inl ⟨huid, hkeep hmem⟩)
        · exact hasFile_cons.mpr (.inr hrest)
      · rename_i files scanned' hfiles
        rw [hfiles] at hkeep
        dsimp only
        rcases hasFile_cons.mp hfile with ⟨huid, hmem⟩ | hrest
        · have hne : files ≠ [] := List.ne_nil_of_mem (hkeep hmem)
          rw [if_neg hne]
          exact hasFile_cons.mpr (.inl ⟨huid, hkeep hmem⟩)
        · split
          · exact ih hrest
          · exact hasFile_cons.mpr (.inr (ih hrest))

theorem hasFile_ensureUidDirectory {root : NonceRoot} {uid uid' : ℕ} {file : NonceFile} :
    HasFile (ensureUidDirectory uid root) uid' file ↔ HasFile root uid' file := by
  unfold ensureUidDirectory
  split
  · exact Iff.rfl
  · simp [HasFile]

theorem any_ensureUidDirectory (uid : ℕ) (root : NonceRoot) :
    ∃ d ∈ ensureUidDirectory uid root, d.uid = uid := by
  unfold ensureUidDirectory
  split
  · rename_i hany
    simpa using hany
  · exact ⟨⟨uid, []⟩, by simp, rfl⟩

theorem hasFile_addFile {root : NonceRoot} {uid uid' : ℕ} {file file' : NonceFile}
    (hdir : ∃ d ∈ root, d.uid = uid) :
    HasFile (addFile uid file root) uid' file' ↔
      HasFile root uid' file' ∨ uid' = uid ∧ file' = file := by
  simp only [HasFile, addFile, List.mem_map]
  constructor
  · rintro ⟨_, ⟨d, hd, rfl⟩, huid, hfile⟩
    by_cases hsame : d.uid = uid
    · rw [if_pos hsame] at huid hfile
      rcases List.mem_append.mp hfile with hold | hnew
      · exact .inl ⟨d, hd, huid, hold⟩
      · exact .inr ⟨huid.symm.trans hsame, List.mem_singleton.mp hnew⟩
    · rw [if_neg hsame] at huid hfile
      exact .inl ⟨d, hd, huid, hfile⟩
  · rintro (⟨d, hd, huid, hfile⟩ | ⟨rfl, rfl⟩)
    · refine ⟨_, ⟨d, hd, rfl⟩, ?_⟩
      split
      · exact ⟨huid, List.mem_append_left _ hfile⟩
      · exact ⟨huid, hfile⟩
    · obtain ⟨d, hd, hsame⟩ := hdir
      refine ⟨_, ⟨d, hd, rfl⟩, ?_⟩
      rw [if_pos hsame]
      exact ⟨hsame, by simp⟩

/-- A consumption that fails keeps what pruning kept, and one that succeeds adds its file, which
pruning had not kept. -/
theorem consume_cases (h : Hasher) (now : ℤ) (uid : ℕ) (nonce : String) (expiresAt : ℤ)
    (root : NonceRoot) :
    (∃ e, (consume h now uid nonce expiresAt root).2 = .error e ∧
      ∀ uid' file, HasFile (consume h now uid nonce expiresAt root).1 uid' file ↔
        HasFile (pruneExpired now root).1 uid' file) ∨
    ((consume h now uid nonce expiresAt root).2 = .ok () ∧
      ¬HasFile (pruneExpired now root).1 uid (nonceFile h uid nonce expiresAt) ∧
      ∀ uid' file, HasFile (consume h now uid nonce expiresAt root).1 uid' file ↔
        HasFile (pruneExpired now root).1 uid' file ∨
          uid' = uid ∧ file = nonceFile h uid nonce expiresAt) := by
  unfold consume
  rcases pruneExpired now root with ⟨pruned, e | u⟩
  · exact .inl ⟨e, rfl, fun _ _ => Iff.rfl⟩
  · dsimp only
    split
    · rename_i e _
      exact .inl ⟨e, rfl, fun _ _ => hasFile_ensureUidDirectory⟩
    · split
      · exact .inl ⟨_, rfl, fun _ _ => hasFile_ensureUidDirectory⟩
      · rename_i hname
        refine .inr ⟨rfl, fun hfile => hname ?_, fun uid' file => ?_⟩
        · rw [List.any_eq_true]
          exact ⟨_, mem_filesOf.mpr (hasFile_ensureUidDirectory.mpr hfile), by simp⟩
        · rw [hasFile_addFile (any_ensureUidDirectory uid pruned), hasFile_ensureUidDirectory]

/-! ## Connection threads -/

/-- A request of a uid. -/
structure Request where
  uid : ℕ
  document : Json
  deriving DecidableEq

/-- What identifies a request for replay protection. -/
def Request.key (r : Request) : ℕ × String × ℤ :=
  (r.uid, nonceOf r.document, expiresAt r.document)

/-- The file of a request. -/
def Request.file (h : Hasher) (r : Request) : NonceFile :=
  nonceFile h r.uid (nonceOf r.document) (expiresAt r.document)

/-- The daemon: its clock, its nonce store, the requests of the connections that are between
validation and consumption, and the requests consumed so far. -/
structure NonceState where
  now : ℤ
  root : NonceRoot
  pending : List Request
  consumed : List Request

/-- The daemon before its first connection. -/
def NonceState.start (now : ℤ) : NonceState := ⟨now, [], [], []⟩

/-- What happens next. -/
inductive NonceEvent
  | tick (seconds : ℕ)
  /-- The request is accepted by `validate_request`. -/
  | validate (request : Request)
  /-- A connection ends without a consumption: it was answered from the cache, or failed. -/
  | leave (k : ℕ)
  | consume (k : ℕ)
  /-- The file system lists its directories in another order. -/
  | list
  | restart

/-- The same directories and files, listed in another order. -/
def Relisted (root root' : NonceRoot) : Prop :=
  ∀ uid file, HasFile root uid file ↔ HasFile root' uid file

/-- The state after the consumption of the `k`-th pending request. -/
def NonceState.consume (h : Hasher) (s : NonceState) (k : ℕ) (r : Request) : NonceState :=
  match SnapshotBroker.consume h s.now r.uid (nonceOf r.document) (expiresAt r.document) s.root with
  | (root, .ok ()) =>
      { s with root := root, pending := s.pending.eraseIdx k, consumed := s.consumed ++ [r] }
  | (root, .error _) => { s with root := root, pending := s.pending.eraseIdx k }

/-- One step of the daemon. -/
inductive NonceStep (h : Hasher) : NonceState → NonceEvent → NonceState → Prop
  | tick (s : NonceState) (seconds : ℕ) :
      NonceStep h s (.tick seconds) { s with now := s.now + seconds }
  | validate (s : NonceState) (r : Request) (operation : Operation)
      (hvalid : validateRequest s.now r.document = .ok operation) :
      NonceStep h s (.validate r) { s with pending := s.pending ++ [r] }
  | leave (s : NonceState) (k : ℕ) :
      NonceStep h s (.leave k) { s with pending := s.pending.eraseIdx k }
  | consume (s : NonceState) (k : ℕ) (r : Request) (hk : s.pending[k]? = some r) :
      NonceStep h s (.consume k) (s.consume h k r)
  | list (s : NonceState) (root : NonceRoot) (hroot : Relisted s.root root) :
      NonceStep h s .list { s with root := root }
  | restart (s : NonceState) : NonceStep h s .restart { s with pending := [] }

/-- No pending request that was consumed before is more than five seconds past its expiry when
a consumption prunes the store. -/
def Timely (h : Hasher) (s : NonceState) : NonceEvent → Prop
  | .consume _ => ∀ p ∈ s.pending,
      (∃ q ∈ s.consumed, q.uid = p.uid ∧ q.file h = p.file h) → s.now ≤ expiresAt p.document + 5
  | _ => True

/-- No file that a consumption prunes belongs to a pending request. -/
def KeepsPending (h : Hasher) (s : NonceState) : NonceEvent → Prop
  | .consume _ => ∀ p ∈ s.pending, HasFile s.root p.uid (p.file h) →
      HasFile (pruneExpired s.now s.root).1 p.uid (p.file h)
  | _ => True

/-! ## No replay -/

theorem readInt_file (h : Hasher) (r : Request) :
    readInt (r.file h).text = some (expiresAt r.document) :=
  readInt_intText _

theorem expiresAt_of_file_eq {h : Hasher} {q r : Request} (hfile : q.file h = r.file h) :
    expiresAt q.document = expiresAt r.document := by
  have hq := readInt_file h q
  rw [hfile, readInt_file h r] at hq
  exact (Option.some.inj hq).symm

/-- A file that is not more than five seconds past its expiry survives pruning. -/
theorem hasFile_pruneExpired {h : Hasher} {now : ℤ} {root : NonceRoot} {r : Request}
    (hfile : HasFile root r.uid (r.file h)) (hlive : now ≤ expiresAt r.document + 5) :
    HasFile (pruneExpired now root).1 r.uid (r.file h) :=
  hasFile_pruneDirectories hfile (readInt_file h r) hlive

/-- What holds between the store and the requests consumed so far. -/
structure NonceInv (h : Hasher) (s : NonceState) : Prop where
  /-- The file of a consumed request is there until it is expired. -/
  recorded : ∀ q ∈ s.consumed,
    HasFile s.root q.uid (q.file h) ∨ expiresAt q.document + 5 < s.now
  /-- Every file comes from a consumption. -/
  file : ∀ uid file, HasFile s.root uid file → ∃ q ∈ s.consumed, q.uid = uid ∧ q.file h = file
  nodup : s.consumed.Pairwise fun q q' => ¬(q.uid = q'.uid ∧ q.file h = q'.file h)

/-- The file of a pending request is not pruned by a timely consumption. -/
theorem NonceInv.keepsPending {h : Hasher} {s : NonceState} (hi : NonceInv h s) {e : NonceEvent}
    (he : Timely h s e) : KeepsPending h s e := by
  cases e with
  | consume k =>
    intro p hp hfile
    obtain ⟨q, hq, huid, hqfile⟩ := hi.file _ _ hfile
    exact hasFile_pruneExpired hfile (he p hp ⟨q, hq, huid, hqfile⟩)
  | _ => trivial

/-- A timely consumption keeps the invariant. -/
theorem NonceInv.consume {h : Hasher} {s : NonceState} (hi : NonceInv h s) {k : ℕ} {r : Request}
    (hk : s.pending[k]? = some r) (he : Timely h s (.consume k)) :
    NonceInv h (s.consume h k r) := by
  have hr : r ∈ s.pending := List.mem_of_getElem? hk
  -- What was consumed before is expired now, or its file survives the pruning.
  have hpruned : ∀ q ∈ s.consumed, HasFile (pruneExpired s.now s.root).1 q.uid (q.file h) ∨
      expiresAt q.document + 5 < s.now := by
    intro q hq
    by_cases hlive : s.now ≤ expiresAt q.document + 5
    · rcases hi.recorded q hq with hfile | hlate
      · exact .inl (hasFile_pruneExpired hfile hlive)
      · exact .inr hlate
    · exact .inr (by omega)
  have hold : ∀ uid file, HasFile (pruneExpired s.now s.root).1 uid file →
      ∃ q ∈ s.consumed, q.uid = uid ∧ q.file h = file :=
    fun uid file hfile => hi.file uid file (hasFile_of_pruneDirectories hfile)
  have hcases := consume_cases h s.now r.uid (nonceOf r.document) (expiresAt r.document) s.root
  unfold NonceState.consume
  generalize SnapshotBroker.consume h s.now r.uid (nonceOf r.document) (expiresAt r.document)
    s.root = result at hcases
  obtain ⟨root, out⟩ := result
  rcases hcases with ⟨e, hout, hfiles⟩ | ⟨hout, hnew, hfiles⟩
  · obtain rfl : out = .error e := hout
    exact {
      recorded := fun q hq => (hpruned q hq).imp_left (hfiles _ _).mpr
      file := fun uid file hfile => hold uid file ((hfiles _ _).mp hfile)
      nodup := hi.nodup }
  · obtain rfl : out = .ok () := hout
    refine { recorded := fun q hq => ?_, file := fun uid file hfile => ?_, nodup := ?_ }
    · rcases List.mem_append.mp hq with hq | hq
      · exact (hpruned q hq).imp_left fun hfile => (hfiles _ _).mpr (.inl hfile)
      · rw [List.mem_singleton.mp hq]
        exact .inl ((hfiles _ _).mpr (.inr ⟨rfl, rfl⟩))
    · rcases (hfiles _ _).mp hfile with hfile | ⟨huid, hfile⟩
      · obtain ⟨q, hq, hqfile⟩ := hold uid file hfile
        exact ⟨q, List.mem_append_left _ hq, hqfile⟩
      · exact ⟨r, List.mem_append_right _ (List.mem_singleton_self r), huid.symm, hfile.symm⟩
    · refine List.pairwise_append.mpr ⟨hi.nodup, List.pairwise_singleton _ _, ?_⟩
      intro q hq r' hr' hsame
      obtain rfl : r' = r := List.mem_singleton.mp hr'
      -- The earlier consumption is not expired, so its file has survived.
      have hlive := he r' hr ⟨q, hq, hsame⟩
      rcases hpruned q hq with hfile | hlate
      · rw [hsame.1, hsame.2] at hfile
        exact hnew hfile
      · rw [expiresAt_of_file_eq hsame.2] at hlate
        omega

theorem NonceInv.step {h : Hasher} {s t : NonceState} {e : NonceEvent} (hi : NonceInv h s)
    (hstep : NonceStep h s e t) (he : Timely h s e) : NonceInv h t := by
  cases hstep with
  | tick seconds =>
    refine { recorded := fun q hq => ?_, file := hi.file, nodup := hi.nodup }
    rcases hi.recorded q hq with hfile | hlate
    · exact .inl hfile
    · right
      show expiresAt q.document + 5 < s.now + seconds
      omega
  | validate r operation hvalid => exact ⟨hi.recorded, hi.file, hi.nodup⟩
  | leave k => exact ⟨hi.recorded, hi.file, hi.nodup⟩
  | consume k r hk => exact hi.consume hk he
  | list root hroot =>
    exact {
      recorded := fun q hq => (hi.recorded q hq).imp_left (hroot _ _).mp
      file := fun uid file hfile => hi.file uid file ((hroot _ _).mpr hfile)
      nodup := hi.nodup }
  | restart => exact ⟨hi.recorded, hi.file, hi.nodup⟩

theorem NonceInv.start (h : Hasher) (now : ℤ) : NonceInv h (NonceState.start now) where
  recorded q hq := absurd hq (by simp [NonceState.start])
  file uid file hfile := absurd hfile (by simp [HasFile, NonceState.start])
  nodup := .nil

/-- **No replay.**  In every run whose consumptions are timely no request is consumed twice, and
no consumption prunes the file of a pending request. -/
theorem consumed_once {h : Hasher} {now : ℤ} {es : List NonceEvent} {s : NonceState}
    (hrun : Runs.Run (Runs.Guarded (NonceStep h) (Timely h)) (NonceState.start now) es s) :
    (s.consumed.map Request.key).Nodup ∧
      Runs.Run (Runs.Guarded (NonceStep h) (KeepsPending h)) (NonceState.start now) es s := by
  have hinv : ∀ {es s}, Runs.Run (Runs.Guarded (NonceStep h) (Timely h)) (NonceState.start now)
      es s → NonceInv h s := fun hrun =>
    hrun.invariant (fun s e t hi hstep => hi.step hstep.1 hstep.2) (NonceInv.start h now)
  refine ⟨?_, ?_⟩
  · rw [List.Nodup, List.pairwise_map]
    refine (hinv hrun).nodup.imp fun {q q'} hne hkey => hne ?_
    simp only [Request.key, Prod.mk.injEq] at hkey
    obtain ⟨huid, hnonce, hexpires⟩ := hkey
    refine ⟨huid, ?_⟩
    unfold Request.file
    rw [huid, hnonce, hexpires]
  · induction hrun with
    | nil => exact .nil _
    | snoc hprefix hstep ih =>
      exact .snoc ih ⟨hstep.1, (hinv hprefix).keepsPending hstep.2⟩

/-! ## Two connections with one request -/

/-- An acquire request that expires after 100 seconds. -/
def sampleDocument : Json :=
  .obj [("actor", .str "verifier"), ("attempt", .int 1),
    ("expected_snapshot_sha256", .str (String.ofList (List.replicate 64 '0'))),
    ("expires_at", .int 100), ("issued_at", .int 0),
    ("materialization_policy", .str materializationPolicyId), ("nonce", .str "n-1"),
    ("operation", .str "acquire"), ("protocol_id", .str protocolId), ("request_id", .str "r-1"),
    ("run_id", .str (String.ofList (List.replicate 32 '0'))),
    ("schema_version", .int schemaVersion),
    ("source_commit", .str (String.ofList (List.replicate 40 '0'))),
    ("source_descriptor_type", .str sourceDescriptorType), ("task_id", .str "T-1"),
    ("tree_oid", .str (String.ofList (List.replicate 40 '0'))),
    ("validation_contract_sha256", .str (String.ofList (List.replicate 64 '0')))]

def sampleRequest : Request := ⟨1000, sampleDocument⟩

theorem validateRequest_sample : validateRequest 0 sampleDocument = .ok .acquire := by
  decide +kernel

/-- Both connections are validated at time 0. -/
def bothPending : NonceState := ⟨0, [], [sampleRequest, sampleRequest], []⟩

theorem run_bothPending : Runs.Run (Runs.Guarded (NonceStep sha256) (Timely sha256))
    (NonceState.start 0) [.validate sampleRequest, .validate sampleRequest] bothPending := by
  have hfirst := NonceStep.validate (h := sha256) (NonceState.start 0) sampleRequest .acquire
    validateRequest_sample
  have hsecond := NonceStep.validate (h := sha256) ⟨0, [], [sampleRequest], []⟩ sampleRequest
    .acquire validateRequest_sample
  exact .snoc (.snoc (.nil _) ⟨hfirst, trivial⟩) ⟨hsecond, trivial⟩

/-- The first connection has consumed its request. -/
def oneConsumed : NonceState := bothPending.consume sha256 0 sampleRequest

theorem oneConsumed_eq : oneConsumed.now = 0 ∧ oneConsumed.pending = [sampleRequest] ∧
    oneConsumed.consumed = [sampleRequest] := by
  decide +kernel

theorem run_oneConsumed : Runs.Run (Runs.Guarded (NonceStep sha256) (Timely sha256))
    (NonceState.start 0)
    ([.validate sampleRequest, .validate sampleRequest] ++ [.consume 0]) oneConsumed := by
  refine .snoc run_bothPending ⟨NonceStep.consume bothPending 0 sampleRequest rfl, ?_⟩
  rintro p - ⟨q, hq, -⟩
  exact absurd hq (by simp [bothPending])

/-- The second connection that comes in time is rejected. -/
theorem consumed_once_twoConnections :
    ((oneConsumed.consume sha256 0 sampleRequest).consumed.map Request.key).Nodup ∧
      Runs.Run (Runs.Guarded (NonceStep sha256) (KeepsPending sha256)) (NonceState.start 0)
        ([.validate sampleRequest, .validate sampleRequest] ++ [.consume 0] ++ [.consume 0])
        (oneConsumed.consume sha256 0 sampleRequest) := by
  obtain ⟨hnow, hpending, -⟩ := oneConsumed_eq
  refine consumed_once (.snoc run_oneConsumed ⟨.consume oneConsumed 0 sampleRequest ?_, ?_⟩)
  · rw [hpending]
    rfl
  · intro p hp _
    rw [hpending] at hp
    rw [List.mem_singleton.mp hp, hnow]
    decide

/-- The second connection that is delayed until the file is pruned consumes the request again. -/
theorem not_consumed_once :
    ¬∀ (es : List NonceEvent) (s : NonceState),
      Runs.Run (NonceStep sha256) (NonceState.start 0) es s →
        (s.consumed.map Request.key).Nodup := by
  intro hall
  have hpending : ({ oneConsumed with now := 0 + 106 } : NonceState).pending[0]? =
      some sampleRequest := by
    show oneConsumed.pending[0]? = some sampleRequest
    rw [oneConsumed_eq.2.1]
    rfl
  have htick := NonceStep.tick (h := sha256) oneConsumed 106
  rw [oneConsumed_eq.1] at htick
  have hrun := Runs.Run.snoc (.snoc run_oneConsumed.of_guarded htick)
    (.consume _ 0 sampleRequest hpending)
  exact absurd (hall _ _ hrun) (by decide +kernel)

end SnapshotBroker
