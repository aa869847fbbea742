/-
# The tables of the monitor

The tables of `migrations/0001_monitoring.sql` and `migrations/0002_schema_floor.sql`, and the
batch of six statements with which `functions/api/ingest.js` stores a snapshot.

* a statement that violates a constraint raises, and the batch is rolled back;
* the four guards of the batch agree: either all statements write, or only nonces expire
  (`batch_cases`).
-/
import CogniOS.SqlTable
import CogniOS.Util

open SqlTable

namespace MonitorStore

/-! ## Rows -/

/-- A row of `monitor_snapshots` or of `monitor_history`. -/
structure SnapshotRow where
  workspaceId : String
  sequence : ℤ
  observedAt : String
  receivedAt : String
  keyId : String
  nonce : String
  bodySha256 : String
  signature : String
  payload : String
  deriving DecidableEq

/-- The `CHECK` constraints of both tables. -/
def SnapshotRow.check (row : SnapshotRow) : Bool :=
  0 < row.sequence && row.bodySha256.length = 64 && row.signature.length = 64

/-- A row of `monitor_nonces`. -/
structure NonceRow where
  workspaceId : String
  keyId : String
  nonce : String
  sequence : ℤ
  receivedAt : String
  deriving DecidableEq

/-- A row of `monitor_schema_floors`. -/
structure FloorRow where
  workspaceId : String
  minimumSchemaRank : ℤ
  minimumSchemaVersion : String
  updatedAt : String
  deriving DecidableEq

def FloorRow.check (row : FloorRow) : Bool :=
  100 ≤ row.minimumSchemaRank && row.minimumSchemaRank ≤ 199

structure Database where
  snapshots : List SnapshotRow
  history : List SnapshotRow
  nonces : List NonceRow
  floors : List FloorRow
  deriving DecidableEq

/-- What the statements take from the engine: `json_extract` at `$.schema_version`, which raises on
a text that is no JSON, and the order in which it looks at the constraints of an upsert. -/
structure Sqlite where
  jsonExtract : String → Except CogniError (Option String)
  othersFirst : Bool

/-- The parameters that are bound to the batch, and the `datetime('now', '-2 days')` of its last
statement. -/
structure Bound where
  workspaceId : String
  sequence : ℤ
  observedAt : String
  receivedAt : String
  keyId : String
  nonce : String
  bodySha256 : String
  signature : String
  rawBody : String
  schemaRank : ℤ
  schemaVersion : String
  twoDaysAgo : String
  deriving DecidableEq

def Bound.row (b : Bound) : SnapshotRow where
  workspaceId := b.workspaceId
  sequence := b.sequence
  observedAt := b.observedAt
  receivedAt := b.receivedAt
  keyId := b.keyId
  nonce := b.nonce
  bodySha256 := b.bodySha256
  signature := b.signature
  payload := b.rawBody

def Bound.nonceRow (b : Bound) : NonceRow where
  workspaceId := b.workspaceId
  keyId := b.keyId
  nonce := b.nonce
  sequence := b.sequence
  receivedAt := b.receivedAt

def Bound.floorRow (b : Bound) : FloorRow where
  workspaceId := b.workspaceId
  minimumSchemaRank := b.schemaRank
  minimumSchemaVersion := b.schemaVersion
  updatedAt := b.receivedAt

/-! ## Statements -/

def constraintError : CogniError := ⟨.other, "constraint failed"⟩

/-- A violated constraint raises. -/
def constrained {α : Type} (ok : Bool) (x : Option α) : Except CogniError α :=
  if ok then orRaise x constraintError else .error constraintError

/-- `COALESCE((SELECT sequence FROM monitor_snapshots WHERE workspace_id = ?1), 0)`. -/
def storedSequence (db : Database) (workspaceId : String) : ℤ :=
  ((db.snapshots.find? fun r => r.workspaceId = workspaceId).map (·.sequence)).getD 0

/-- `SELECT minimum_schema_rank FROM monitor_schema_floors WHERE workspace_id = ?1`. -/
def floorOf (db : Database) (workspaceId : String) : Option ℤ :=
  (db.floors.find? fun r => r.workspaceId = workspaceId).map (·.minimumSchemaRank)

/-- `CASE json_extract(.., '$.schema_version') WHEN '1.2' THEN 102 .. ELSE 0 END`. -/
def rankOfVersion : Option String → ℤ
  | some "1.2" => 102
  | some "1.1" => 101
  | some "1.0" => 100
  | _ => 0

/-- The rank that the snapshot of a workspace without a floor stands for. -/
def legacyRank (engine : Sqlite) (db : Database) (workspaceId : String) : Except CogniError ℤ :=
  match db.snapshots.find? fun r => r.workspaceId = workspaceId with
  | none => .ok 0
  | some r => do
      let version ← engine.jsonExtract r.payload
      .ok (rankOfVersion version)

/-- `COALESCE` of the floor and the rank of the legacy snapshot. -/
def minimumRank (engine : Sqlite) (db : Database) (workspaceId : String) :
    Except CogniError ℤ :=
  match floorOf db workspaceId with
  | some rank => .ok rank
  | none => legacyRank engine db workspaceId

/-- `?rank >= (SELECT minimum_schema_rank ..)`, which is not true of a missing row. -/
def reachesFloor (db : Database) (b : Bound) : Bool :=
  (floorOf db b.workspaceId).any fun rank => rank ≤ b.schemaRank

/-- `INSERT INTO monitor_schema_floors .. SELECT .. WHERE .. ON CONFLICT(workspace_id) DO UPDATE`. -/
def insertFloor (engine : Sqlite) (b : Bound) (db : Database) :
    Except CogniError (Database × ℕ) := do
  let newer := decide (storedSequence db b.workspaceId < b.sequence)
  let minimum ← minimumRank engine db b.workspaceId
  if newer && minimum ≤ b.schemaRank then
    let (floors, changes) ← constrained b.floorRow.check
      (upsert (sameOwner FloorRow.workspaceId) [] engine.othersFirst
        (fun old => newer && old.minimumSchemaRank ≤ b.schemaRank) b.floorRow db.floors)
    .ok ({ db with floors }, changes)
  else .ok (db, 0)

def sameNonce : Constraint NonceRow := fun old row =>
  old.workspaceId = row.workspaceId && old.nonce = row.nonce

/-- `INSERT INTO monitor_nonces .. SELECT .. WHERE`. -/
def insertNonce (b : Bound) (db : Database) : Except CogniError (Database × ℕ) :=
  if decide (storedSequence db b.workspaceId < b.sequence) && reachesFloor db b then do
    let nonces ← constrained true (insert [sameNonce] b.nonceRow db.nonces)
    .ok ({ db with nonces }, 1)
  else .ok (db, 0)

def sameSequence : Constraint SnapshotRow := fun old row =>
  old.workspaceId = row.workspaceId && old.sequence = row.sequence

def sameHistoryNonce : Constraint SnapshotRow := fun old row =>
  old.workspaceId = row.workspaceId && old.nonce = row.nonce

/-- `INSERT INTO monitor_history .. SELECT .. WHERE`. -/
def insertHistory (b : Bound) (db : Database) : Except CogniError (Database × ℕ) :=
  if decide (storedSequence db b.workspaceId < b.sequence) && reachesFloor db b then do
    let history ← constrained b.row.check
      (insert [sameSequence, sameHistoryNonce] b.row db.history)
    .ok ({ db with history }, 1)
  else .ok (db, 0)

def sameSnapshotNonce : Constraint SnapshotRow := fun old row => old.nonce = row.nonce

/-- `INSERT INTO monitor_snapshots .. VALUES .. ON CONFLICT(workspace_id) DO UPDATE .. WHERE`. -/
def upsertSnapshot (engine : Sqlite) (b : Bound) (db : Database) :
    Except CogniError (Database × ℕ) := do
  let (snapshots, changes) ← constrained b.row.check
    (upsert (sameOwner SnapshotRow.workspaceId) [sameSnapshotNonce] engine.othersFirst
      (fun old => decide (old.sequence < b.sequence) && reachesFloor db b) b.row db.snapshots)
  .ok ({ db with snapshots }, changes)

/-- The number of snapshots that the history keeps. -/
def historyLimit : ℕ := 720

/-- `SELECT sequence FROM monitor_history WHERE .. ORDER BY sequence DESC LIMIT 720`. -/
def latestSequences (db : Database) (workspaceId : String) : List ℤ :=
  largest historyLimit
    ((rowsOf SnapshotRow.workspaceId workspaceId db.history).map (·.sequence))

/-- `DELETE FROM monitor_history WHERE .. AND sequence NOT IN`. -/
def trimHistory (workspaceId : String) (db : Database) : Database :=
  let latest := latestSequences db workspaceId
  { db with
    history := db.history.filter fun r =>
      !(r.workspaceId = workspaceId && !latest.contains r.sequence) }

/-- `DELETE FROM monitor_nonces WHERE .. AND received_at < datetime('now', '-2 days')`. -/
def expireNonces (b : Bound) (db : Database) : Database :=
  { db with
    nonces := db.nonces.filter fun r =>
      !(r.workspaceId = b.workspaceId && decide (r.receivedAt < b.twoDaysAgo)) }

/-- The six statements, with the number of rows that the fourth one changed. -/
def batch (engine : Sqlite) (b : Bound) (db : Database) : Except CogniError (Database × ℕ) := do
  let (db, _) ← insertFloor engine b db
  let (db, _) ← insertNonce b db
  let (db, _) ← insertHistory b db
  let (db, changes) ← upsertSnapshot engine b db
  .ok (expireNonces b (trimHistory b.workspaceId db), changes)

/-! ## One workspace -/

/-- What the tables of the monitor promise about one another. -/
structure Valid (db : Database) : Prop where
  oneSnapshot : ∀ w, (rowsOf SnapshotRow.workspaceId w db.snapshots).length ≤ 1
  oneFloor : ∀ w, (rowsOf FloorRow.workspaceId w db.floors).length ≤ 1
  floorSnapshot : ∀ w, rowsOf FloorRow.workspaceId w db.floors ≠ [] →
    rowsOf SnapshotRow.workspaceId w db.snapshots ≠ []
  increasing : ∀ w, (rowsOf SnapshotRow.workspaceId w db.history).Pairwise
    fun r s => r.sequence < s.sequence
  bounded : ∀ w, (rowsOf SnapshotRow.workspaceId w db.history).length ≤ historyLimit
  newest : ∀ w, ∀ r ∈ rowsOf SnapshotRow.workspaceId w db.history,
    r.sequence ≤ storedSequence db w

section Workspace

variable {engine : Sqlite} {b : Bound} {db db' : Database} {changes : ℕ} {w : String}

theorem find?_owner {α : Type} (owner : α → String) (w : String) (t : List α) :
    t.find? (fun r => owner r = w) = (rowsOf owner w t).head? := by
  unfold rowsOf
  rw [List.head?_filter]

theorem storedSequence_eq (db : Database) (w : String) :
    storedSequence db w =
      ((rowsOf SnapshotRow.workspaceId w db.snapshots).head?.map (·.sequence)).getD 0 := by
  unfold storedSequence
  rw [find?_owner]

theorem floorOf_eq (db : Database) (w : String) :
    floorOf db w = (rowsOf FloorRow.workspaceId w db.floors).head?.map (·.minimumSchemaRank) := by
  unfold floorOf
  rw [find?_owner]

theorem constrained_eq_ok {α : Type} {ok : Bool} {x : Option α} {a : α} :
    constrained ok x = .ok a ↔ ok = true ∧ x = some a := by
  cases ok <;> simp [constrained]

theorem rowsOf_trimHistory (hincreasing : (rowsOf SnapshotRow.workspaceId w db.history).Pairwise
    fun r s => r.sequence < s.sequence) :
    rowsOf SnapshotRow.workspaceId w (trimHistory w db).history =
      (rowsOf SnapshotRow.workspaceId w db.history).rtake historyLimit := by
  rw [← filter_largest hincreasing historyLimit]
  unfold rowsOf trimHistory latestSequences rowsOf
  rw [List.filter_filter, List.filter_filter]
  refine List.filter_congr fun r _ => ?_
  by_cases hr : r.workspaceId = w <;> simp [hr]

theorem rowsOf_trimHistory_of_ne {k : String} (hk : k ≠ w) :
    rowsOf SnapshotRow.workspaceId k (trimHistory w db).history =
      rowsOf SnapshotRow.workspaceId k db.history := by
  unfold rowsOf trimHistory
  rw [List.filter_filter]
  refine List.filter_congr fun r _ => ?_
  by_cases hr : r.workspaceId = k
  · have hw : r.workspaceId ≠ w := hr ▸ hk
    simp [hr, hk]
  · simp [hr]

/-- A history that is within its limit is not trimmed. -/
theorem trimHistory_eq_self (hincreasing : (rowsOf SnapshotRow.workspaceId w db.history).Pairwise
    fun r s => r.sequence < s.sequence)
    (hbounded : (rowsOf SnapshotRow.workspaceId w db.history).length ≤ historyLimit) :
    trimHistory w db = db := by
  have hrows := rowsOf_trimHistory hincreasing
  have hall : db.history.filter (fun r =>
      !(r.workspaceId = w && !(latestSequences db w).contains r.sequence)) = db.history := by
    refine List.filter_eq_self.mpr fun r hr => ?_
    by_cases hw : r.workspaceId = w
    · have hmem : r ∈ rowsOf SnapshotRow.workspaceId w db.history := by
        simp [rowsOf, hr, hw]
      have hfull : (rowsOf SnapshotRow.workspaceId w db.history).rtake historyLimit =
          rowsOf SnapshotRow.workspaceId w db.history := by
        unfold List.rtake
        rw [show (rowsOf SnapshotRow.workspaceId w db.history).length - historyLimit = 0 by omega,
          List.drop_zero]
      rw [← hfull, ← hrows] at hmem
      exact (List.mem_filter.mp (List.mem_filter.mp hmem).1).2
    · simp [hw]
  show ({ db with history := _ } : Database) = db
  rw [hall]

/-! ## The batch -/

/-- The guard of the batch. -/
def Admits (engine : Sqlite) (db : Database) (b : Bound) : Prop :=
  storedSequence db b.workspaceId < b.sequence ∧
    ∃ minimum, minimumRank engine db b.workspaceId = .ok minimum ∧ minimum ≤ b.schemaRank

/-- The floor moves to the rank of the snapshot where the guard holds. -/
theorem insertFloor_cases (hvalid : Valid db) (h : insertFloor engine b db = .ok (db', changes)) :
    (Admits engine db b ∧ (∃ floors, db' = { db with floors }) ∧
        rowsOf FloorRow.workspaceId b.workspaceId db'.floors = [b.floorRow] ∧
        ∀ k, k ≠ b.workspaceId →
          rowsOf FloorRow.workspaceId k db'.floors = rowsOf FloorRow.workspaceId k db.floors) ∨
      (¬Admits engine db b ∧ db' = db) := by
  obtain ⟨minimum, hminimum, h⟩ := bind_eq_ok.mp h
  split at h
  · rename_i hguard
    obtain ⟨hnewer, hrank⟩ := by simpa using hguard
    obtain ⟨⟨floors, n⟩, hupsert, h⟩ := bind_eq_ok.mp h
    obtain ⟨rfl, rfl⟩ := Prod.mk.inj (Except.ok.inj h)
    obtain ⟨-, hupsert⟩ := constrained_eq_ok.mp hupsert
    refine .inl ⟨⟨hnewer, minimum, hminimum, hrank⟩, ⟨floors, rfl⟩, ?_⟩
    obtain ⟨hcases, hothers⟩ := upsert_cases hupsert (hvalid.oneFloor b.workspaceId)
    refine ⟨?_, hothers⟩
    rcases hcases with ⟨-, -, hrow⟩ | ⟨old, hold, ⟨-, -, hrow⟩ | ⟨hfalse, -, -⟩⟩
    · exact hrow
    · exact hrow
    · -- The old floor is the minimum of the first guard, so that the second guard holds too.
      have hfloor : floorOf db b.workspaceId = some old.minimumSchemaRank := by
        rw [floorOf_eq]
        exact congrArg (fun t => (List.head? t).map FloorRow.minimumSchemaRank) hold
      have hsame : minimum = old.minimumSchemaRank := by
        unfold minimumRank at hminimum
        rw [hfloor] at hminimum
        exact (Except.ok.inj hminimum).symm
      rw [← hsame] at hfalse
      simp [hnewer, hrank] at hfalse
  · rename_i hguard
    obtain ⟨rfl, rfl⟩ := Prod.mk.inj (Except.ok.inj h)
    refine .inr ⟨?_, rfl⟩
    rintro ⟨hnewer, m, hm, hrank⟩
    obtain rfl : m = minimum := Except.ok.inj (hm.symm.trans hminimum)
    exact hguard (by simp [hnewer, hrank])

/-- What a batch that commits does to its workspace. -/
structure Stored (b : Bound) (db db' : Database) : Prop where
  snapshot : rowsOf SnapshotRow.workspaceId b.workspaceId db'.snapshots = [b.row]
  history : rowsOf SnapshotRow.workspaceId b.workspaceId db'.history =
    (rowsOf SnapshotRow.workspaceId b.workspaceId db.history ++ [b.row]).rtake historyLimit
  floor : rowsOf FloorRow.workspaceId b.workspaceId db'.floors = [b.floorRow]
  nonces : db'.nonces = (expireNonces b { db with nonces := db.nonces ++ [b.nonceRow] }).nonces
  unused : ∀ r ∈ db.nonces, ¬(r.workspaceId = b.workspaceId ∧ r.nonce = b.nonce)
  others : ∀ k, k ≠ b.workspaceId →
    rowsOf SnapshotRow.workspaceId k db'.snapshots = rowsOf SnapshotRow.workspaceId k db.snapshots ∧
    rowsOf SnapshotRow.workspaceId k db'.history = rowsOf SnapshotRow.workspaceId k db.history ∧
    rowsOf FloorRow.workspaceId k db'.floors = rowsOf FloorRow.workspaceId k db.floors

theorem reachesFloor_of_floor (h : rowsOf FloorRow.workspaceId b.workspaceId db.floors =
    [b.floorRow]) : reachesFloor db b = true := by
  unfold reachesFloor
  rw [floorOf_eq, h]
  show decide (b.schemaRank ≤ b.schemaRank) = true
  exact decide_eq_true le_rfl

/-- Without the guard, an existing snapshot stays and a missing one is impossible. -/
theorem old_of_not_admits (hvalid : Valid db) (hpositive : 0 < b.sequence)
    (hrank : 0 ≤ b.schemaRank) (hminimum : ∃ m, minimumRank engine db b.workspaceId = .ok m)
    (h : ¬Admits engine db b) :
    ∃ old, rowsOf SnapshotRow.workspaceId b.workspaceId db.snapshots = [old] ∧
      ¬(old.sequence < b.sequence ∧ reachesFloor db b = true) ∧
      ¬(storedSequence db b.workspaceId < b.sequence ∧ reachesFloor db b = true) := by
  obtain ⟨m, hm⟩ := hminimum
  have hone := hvalid.oneSnapshot b.workspaceId
  rcases hrows : rowsOf SnapshotRow.workspaceId b.workspaceId db.snapshots with _ | ⟨old, rest⟩
  · have hfloor : floorOf db b.workspaceId = none := by
      rw [floorOf_eq]
      have hnone := mt (hvalid.floorSnapshot b.workspaceId) (not_not.mpr hrows)
      rw [not_not.mp hnone]
      rfl
    have hzero : m = 0 := by
      unfold minimumRank legacyRank at hm
      rw [hfloor, find?_owner, hrows] at hm
      exact (Except.ok.inj hm).symm
    refine absurd ⟨?_, m, hm, hzero ▸ hrank⟩ h
    rw [storedSequence_eq, hrows]
    exact hpositive
  · have hrest : rest = [] := by
      rw [hrows, List.length_cons] at hone
      exact List.length_eq_zero_iff.mp (by omega)
    subst hrest
    have hstored : storedSequence db b.workspaceId = old.sequence := by
      rw [storedSequence_eq, hrows]
      rfl
    have hnot : ¬(old.sequence < b.sequence ∧ reachesFloor db b = true) := by
      rintro ⟨hnewer, hreaches⟩
      unfold reachesFloor at hreaches
      obtain ⟨rank, hfloor, hle⟩ := (Option.any_eq_true _ _).mp hreaches
      refine h ⟨hstored ▸ hnewer, rank, ?_, of_decide_eq_true hle⟩
      unfold minimumRank
      rw [hfloor]
    exact ⟨old, rfl, hnot, hstored.symm ▸ hnot⟩

/-- **The guards agree**: all statements of a batch write, or only nonces expire. -/
theorem batch_cases (hvalid : Valid db) (hpositive : 0 < b.sequence) (hrank : 0 ≤ b.schemaRank)
    (h : batch engine b db = .ok (db', changes)) :
    (Admits engine db b ∧ changes = 1 ∧ Stored b db db') ∨
      (¬Admits engine db b ∧ changes = 0 ∧ db' = expireNonces b db) := by
  obtain ⟨⟨db₁, n₁⟩, hfloor, h⟩ := bind_eq_ok.mp h
  obtain ⟨⟨db₂, n₂⟩, hnonce, h⟩ := bind_eq_ok.mp h
  obtain ⟨⟨db₃, n₃⟩, hhistory, h⟩ := bind_eq_ok.mp h
  obtain ⟨⟨db₄, n₄⟩, hsnapshot, h⟩ := bind_eq_ok.mp h
  obtain ⟨rfl, rfl⟩ := Prod.mk.inj (Except.ok.inj h)
  obtain ⟨minimum, hminimum, -⟩ := bind_eq_ok.mp hfloor
  obtain ⟨⟨snapshots, n⟩, hupsert, hfour⟩ := bind_eq_ok.mp hsnapshot
  obtain ⟨rfl, rfl⟩ := Prod.mk.inj (Except.ok.inj hfour)
  obtain ⟨-, hupsert⟩ := constrained_eq_ok.mp hupsert
  rcases insertFloor_cases hvalid hfloor with
    ⟨hadmits, ⟨floors, rfl⟩, hrow, hother⟩ | ⟨hnot, hsame⟩
  · -- The floor holds the rank of the snapshot, so that no later guard can fail.
    have hreaches := reachesFloor_of_floor hrow
    have hnewer : storedSequence { db with floors } b.workspaceId < b.sequence := hadmits.1
    unfold insertNonce at hnonce
    rw [if_pos (by simp [hnewer, hreaches])] at hnonce
    obtain ⟨nonces, hnonces, hnonce⟩ := bind_eq_ok.mp hnonce
    obtain ⟨rfl, rfl⟩ := Prod.mk.inj (Except.ok.inj hnonce)
    obtain ⟨hunused, rfl⟩ := insert_eq_some.mp (constrained_eq_ok.mp hnonces).2
    unfold insertHistory at hhistory
    rw [if_pos (by simpa using ⟨hnewer, hreaches⟩)] at hhistory
    obtain ⟨history, hinsert, hhistory⟩ := bind_eq_ok.mp hhistory
    obtain ⟨rfl, rfl⟩ := Prod.mk.inj (Except.ok.inj hhistory)
    have hinsert := (constrained_eq_ok.mp hinsert).2
    have hgrown : rowsOf SnapshotRow.workspaceId b.workspaceId history =
        rowsOf SnapshotRow.workspaceId b.workspaceId db.history ++ [b.row] :=
      (rowsOf_insert hinsert b.workspaceId).trans (if_pos rfl)
    have hkept : ∀ k, k ≠ b.workspaceId → rowsOf SnapshotRow.workspaceId k history =
        rowsOf SnapshotRow.workspaceId k db.history :=
      fun k hk => (rowsOf_insert hinsert k).trans (if_neg (Ne.symm hk))
    obtain ⟨hcases, hothers⟩ := upsert_cases hupsert (hvalid.oneSnapshot b.workspaceId)
    have hwritten : n = 1 ∧ rowsOf SnapshotRow.workspaceId b.workspaceId snapshots = [b.row] := by
      rcases hcases with ⟨-, hn, hrows⟩ | ⟨old, hold, ⟨-, hn, hrows⟩ | ⟨hfalse, -, -⟩⟩
      · exact ⟨hn, hrows⟩
      · exact ⟨hn, hrows⟩
      · have hstored : storedSequence db b.workspaceId = old.sequence := by
          rw [storedSequence_eq]
          exact congrArg (fun t => ((List.head? t).map SnapshotRow.sequence).getD 0) hold
        have hless : old.sequence < b.sequence := hstored ▸ hadmits.1
        have hreaches' : reachesFloor { db with
            floors, history, nonces := db.nonces ++ [b.nonceRow] } b = true := hreaches
        rw [hreaches', Bool.and_true, decide_eq_false_iff_not] at hfalse
        exact absurd hless hfalse
    have hincreasing : (rowsOf SnapshotRow.workspaceId b.workspaceId history).Pairwise
        fun r s => r.sequence < s.sequence := by
      rw [hgrown, List.pairwise_append]
      refine ⟨hvalid.increasing _, List.pairwise_singleton _ _, fun r hr s hs => ?_⟩
      obtain rfl := List.mem_singleton.mp hs
      exact lt_of_le_of_lt (hvalid.newest _ r hr) hadmits.1
    refine .inl ⟨hadmits, hwritten.1, ⟨hwritten.2, ?_, hrow, rfl, ?_, fun k hk => ⟨?_, ?_, ?_⟩⟩⟩
    · show rowsOf SnapshotRow.workspaceId b.workspaceId (trimHistory b.workspaceId _).history = _
      rw [rowsOf_trimHistory hincreasing, hgrown]
    · rintro r hr ⟨howner, hsame⟩
      have := hunused r hr sameNonce List.mem_cons_self
      simp [sameNonce, Bound.nonceRow, howner, hsame] at this
    · exact hothers k hk
    · show rowsOf SnapshotRow.workspaceId k (trimHistory b.workspaceId _).history = _
      rw [rowsOf_trimHistory_of_ne hk, hkept k hk]
    · exact hother k hk
  · -- No guard holds, and the snapshot that is there stays.
    obtain rfl : db = db₁ := hsame.symm
    obtain ⟨old, hold, hkept, hskip⟩ :=
      old_of_not_admits hvalid hpositive hrank ⟨minimum, hminimum⟩ hnot
    unfold insertNonce at hnonce
    rw [if_neg (by simpa using hskip)] at hnonce
    obtain ⟨rfl, rfl⟩ := Prod.mk.inj (Except.ok.inj hnonce)
    unfold insertHistory at hhistory
    rw [if_neg (by simpa using hskip)] at hhistory
    obtain ⟨rfl, rfl⟩ := Prod.mk.inj (Except.ok.inj hhistory)
    obtain ⟨hcases, -⟩ := upsert_cases hupsert (hvalid.oneSnapshot b.workspaceId)
    rcases hcases with ⟨hnone, -, -⟩ | ⟨old', hold', ⟨hguard, -, -⟩ | ⟨-, hn, rfl⟩⟩
    · have hnone : rowsOf SnapshotRow.workspaceId b.workspaceId db.snapshots = [] := hnone
      rw [hnone] at hold
      cases hold
    · have hold' : rowsOf SnapshotRow.workspaceId b.workspaceId db.snapshots = [old'] := hold'
      obtain rfl : old' = old := List.singleton_inj.mp (hold'.symm.trans hold)
      exact absurd (by simpa using hguard) hkept
    · refine .inr ⟨hnot, hn, ?_⟩
      rw [trimHistory_eq_self (hvalid.increasing _) (hvalid.bounded _)]

/-! ## The tables stay valid -/

theorem rowsOf_ne_nil_of_eq {α : Type} {rows : List α} {row : α} (h : rows = [row]) :
    rows ≠ [] := by
  rw [h]
  exact List.cons_ne_nil _ _

theorem Stored.storedSequence_eq (h : Stored b db db') :
    storedSequence db' b.workspaceId = b.sequence := by
  rw [MonitorStore.storedSequence_eq, h.snapshot]
  rfl

theorem Stored.storedSequence_of_ne (h : Stored b db db') {k : String} (hk : k ≠ b.workspaceId) :
    storedSequence db' k = storedSequence db k := by
  rw [MonitorStore.storedSequence_eq, MonitorStore.storedSequence_eq, (h.others k hk).1]

theorem length_rtake_le {α : Type} (l : List α) (n : ℕ) : (l.rtake n).length ≤ n := by
  unfold List.rtake
  rw [List.length_drop]
  omega

theorem rtake_subset {α : Type} {l : List α} {n : ℕ} {a : α} (h : a ∈ l.rtake n) : a ∈ l :=
  List.mem_of_mem_drop h

/-- The last `n` of a list that grows are the last `n` of what was kept. -/
theorem rtake_concat_rtake {α : Type} (l : List α) (a : α) (n : ℕ) :
    (l.rtake n ++ [a]).rtake n = (l ++ [a]).rtake n := by
  cases n with
  | zero => rw [List.rtake_zero, List.rtake_zero]
  | succ n =>
    rw [List.rtake_concat_succ, List.rtake_concat_succ]
    unfold List.rtake
    rw [List.drop_drop, List.length_drop]
    congr 2
    omega

theorem Valid.stored (hvalid : Valid db) (hnewer : storedSequence db b.workspaceId < b.sequence)
    (h : Stored b db db') : Valid db' where
  oneSnapshot w := by
    by_cases hw : w = b.workspaceId
    · subst hw
      rw [h.snapshot, List.length_singleton]
    · rw [(h.others w hw).1]
      exact hvalid.oneSnapshot w
  oneFloor w := by
    by_cases hw : w = b.workspaceId
    · subst hw
      rw [h.floor, List.length_singleton]
    · rw [(h.others w hw).2.2]
      exact hvalid.oneFloor w
  floorSnapshot w := by
    by_cases hw : w = b.workspaceId
    · subst hw
      exact fun _ => rowsOf_ne_nil_of_eq h.snapshot
    · rw [(h.others w hw).1, (h.others w hw).2.2]
      exact hvalid.floorSnapshot w
  increasing w := by
    by_cases hw : w = b.workspaceId
    · subst hw
      rw [h.history]
      refine List.Pairwise.sublist (List.drop_sublist _ _) (List.pairwise_append.mpr
        ⟨hvalid.increasing _, List.pairwise_singleton _ _, fun r hr s hs => ?_⟩)
      obtain rfl := List.mem_singleton.mp hs
      exact lt_of_le_of_lt (hvalid.newest _ r hr) hnewer
    · rw [(h.others w hw).2.1]
      exact hvalid.increasing w
  bounded w := by
    by_cases hw : w = b.workspaceId
    · subst hw
      rw [h.history]
      exact length_rtake_le _ _
    · rw [(h.others w hw).2.1]
      exact hvalid.bounded w
  newest w r hr := by
    by_cases hw : w = b.workspaceId
    · subst hw
      rw [h.storedSequence_eq]
      rw [h.history] at hr
      rcases List.mem_append.mp (rtake_subset hr) with hold | hnew
      · have := hvalid.newest _ r hold
        omega
      · obtain rfl := List.mem_singleton.mp hnew
        exact le_rfl
    · rw [h.storedSequence_of_ne hw]
      rw [(h.others w hw).2.1] at hr
      exact hvalid.newest w r hr

/-! ## The accepted snapshots -/

/-- The tables hold what a sequence of accepted snapshots, the last one last, leaves of the
tables `db₀`. -/
structure Tracks (engine : Sqlite) (db₀ : Database) (accepted : List Bound) (db : Database) :
    Prop where
  valid : Valid db
  snapshot : ∀ w, rowsOf SnapshotRow.workspaceId w db.snapshots =
    ((rowsOf Bound.workspaceId w accepted).getLast?.map fun b => [b.row]).getD
      (rowsOf SnapshotRow.workspaceId w db₀.snapshots)
  floor : ∀ w, rowsOf FloorRow.workspaceId w db.floors =
    ((rowsOf Bound.workspaceId w accepted).getLast?.map fun b => [b.floorRow]).getD
      (rowsOf FloorRow.workspaceId w db₀.floors)
  history : ∀ w, rowsOf SnapshotRow.workspaceId w db.history =
    (rowsOf SnapshotRow.workspaceId w db₀.history ++
      (rowsOf Bound.workspaceId w accepted).map Bound.row).rtake historyLimit
  increasing : ∀ w, (rowsOf Bound.workspaceId w accepted).Pairwise
    fun b b' => b.sequence < b'.sequence
  ranks : ∀ w, (rowsOf Bound.workspaceId w accepted).Pairwise
    fun b b' => b.schemaRank ≤ b'.schemaRank
  newer : ∀ w, ∀ b ∈ rowsOf Bound.workspaceId w accepted, storedSequence db₀ w < b.sequence
  minimum : ∀ w, ∀ b ∈ rowsOf Bound.workspaceId w accepted,
    ∀ m, minimumRank engine db₀ w = .ok m → m ≤ b.schemaRank

theorem Tracks.init (hvalid : Valid db) : Tracks engine db [] db where
  valid := hvalid
  snapshot _ := rfl
  floor _ := rfl
  history w := by
    have hbounded := hvalid.bounded w
    show _ = List.rtake (_ ++ []) historyLimit
    unfold List.rtake
    rw [List.append_nil, show (rowsOf SnapshotRow.workspaceId w db.history).length - historyLimit = 0
      by omega, List.drop_zero]
  increasing _ := List.Pairwise.nil
  ranks _ := List.Pairwise.nil
  newer _ _ hb := absurd hb List.not_mem_nil
  minimum _ _ hb := absurd hb List.not_mem_nil

theorem Tracks.expire {db₀ : Database} {accepted : List Bound}
    (h : Tracks engine db₀ accepted db) : Tracks engine db₀ accepted (expireNonces b db) where
  valid := ⟨h.valid.oneSnapshot, h.valid.oneFloor, h.valid.floorSnapshot, h.valid.increasing,
    h.valid.bounded, h.valid.newest⟩
  snapshot := h.snapshot
  floor := h.floor
  history := h.history
  increasing := h.increasing
  ranks := h.ranks
  newer := h.newer
  minimum := h.minimum

theorem rowsOf_concat (accepted : List Bound) (b : Bound) (w : String) :
    rowsOf Bound.workspaceId w (accepted ++ [b]) =
      if w = b.workspaceId then rowsOf Bound.workspaceId w accepted ++ [b]
      else rowsOf Bound.workspaceId w accepted := by
  rw [rowsOf_append]
  by_cases hw : w = b.workspaceId
  · subst hw
    rw [if_pos rfl, rowsOf_singleton]
  · rw [if_neg hw, rowsOf_singleton_of_ne (Ne.symm hw), List.append_nil]

/-- The last accepted snapshot of a workspace is the one that the guard compares with. -/
theorem Tracks.admitted {db₀ : Database} {accepted : List Bound}
    (h : Tracks engine db₀ accepted db) (hadmits : Admits engine db b) {b' : Bound}
    (hb' : b' ∈ rowsOf Bound.workspaceId b.workspaceId accepted) :
    b'.sequence < b.sequence ∧ b'.schemaRank ≤ b.schemaRank := by
  obtain ⟨hnewer, m, hm, hrank⟩ := hadmits
  have hincreasing := h.increasing b.workspaceId
  have hranks := h.ranks b.workspaceId
  have hsnapshot := h.snapshot b.workspaceId
  have hfloor := h.floor b.workspaceId
  rcases List.eq_nil_or_concat (rowsOf Bound.workspaceId b.workspaceId accepted) with
    hnil | ⟨init, last, hlast⟩
  · rw [hnil] at hb'
    cases hb'
  · rw [hlast] at hincreasing hranks hsnapshot hfloor hb'
    rw [List.concat_eq_append] at hincreasing hranks hb'
    have hsequence : storedSequence db b.workspaceId = last.sequence := by
      rw [storedSequence_eq, hsnapshot]
      simp [Bound.row]
    have hminimum : m = last.schemaRank := by
      unfold minimumRank at hm
      rw [floorOf_eq, hfloor] at hm
      simpa [Bound.floorRow, eq_comm] using hm
    rcases List.mem_append.mp hb' with hinit | hmem
    · have hlt := (List.pairwise_append.mp hincreasing).2.2 b' hinit last List.mem_cons_self
      have hle := (List.pairwise_append.mp hranks).2.2 b' hinit last List.mem_cons_self
      omega
    · obtain rfl := List.mem_singleton.mp hmem
      omega

theorem Tracks.admitted_first {db₀ : Database} {accepted : List Bound}
    (h : Tracks engine db₀ accepted db) (hadmits : Admits engine db b) :
    storedSequence db₀ b.workspaceId < b.sequence ∧
      ∀ m, minimumRank engine db₀ b.workspaceId = .ok m → m ≤ b.schemaRank := by
  rcases hrows : rowsOf Bound.workspaceId b.workspaceId accepted with _ | ⟨first, rest⟩
  · have hsnapshot := h.snapshot b.workspaceId
    have hfloor := h.floor b.workspaceId
    rw [hrows] at hsnapshot hfloor
    have hsequence : storedSequence db b.workspaceId = storedSequence db₀ b.workspaceId := by
      rw [storedSequence_eq, storedSequence_eq, hsnapshot]
      rfl
    have hminimum : minimumRank engine db b.workspaceId =
        minimumRank engine db₀ b.workspaceId := by
      unfold minimumRank legacyRank
      rw [floorOf_eq, floorOf_eq, hfloor, find?_owner, find?_owner, hsnapshot]
      rfl
    obtain ⟨hnewer, m, hm, hrank⟩ := hadmits
    refine ⟨hsequence ▸ hnewer, fun m' hm' => ?_⟩
    obtain rfl : m = m' := Except.ok.inj (hm.symm.trans (hminimum.trans hm'))
    exact hrank
  · have hfirst : first ∈ rowsOf Bound.workspaceId b.workspaceId accepted := by
      rw [hrows]
      exact List.mem_cons_self
    obtain ⟨hlt, hle⟩ := h.admitted hadmits hfirst
    exact ⟨(h.newer _ first hfirst).trans hlt,
      fun m hm => (h.minimum _ first hfirst m hm).trans hle⟩

/-- One more accepted snapshot. -/
theorem Tracks.stored {db₀ : Database} {accepted : List Bound}
    (h : Tracks engine db₀ accepted db) (hadmits : Admits engine db b) (hstored : Stored b db db') :
    Tracks engine db₀ (accepted ++ [b]) db' where
  valid := h.valid.stored hadmits.1 hstored
  snapshot w := by
    rw [rowsOf_concat]
    by_cases hw : w = b.workspaceId
    · subst hw
      rw [if_pos rfl, List.getLast?_concat, hstored.snapshot]
      rfl
    · rw [if_neg hw, (hstored.others w hw).1, h.snapshot]
  floor w := by
    rw [rowsOf_concat]
    by_cases hw : w = b.workspaceId
    · subst hw
      rw [if_pos rfl, List.getLast?_concat, hstored.floor]
      rfl
    · rw [if_neg hw, (hstored.others w hw).2.2, h.floor]
  history w := by
    rw [rowsOf_concat]
    by_cases hw : w = b.workspaceId
    · subst hw
      rw [if_pos rfl, hstored.history, h.history, rtake_concat_rtake, List.append_assoc,
        List.map_append, List.map_singleton]
    · rw [if_neg hw, (hstored.others w hw).2.1, h.history]
  increasing w := by
    rw [rowsOf_concat]
    by_cases hw : w = b.workspaceId
    · subst hw
      rw [if_pos rfl, List.pairwise_append]
      refine ⟨h.increasing _, List.pairwise_singleton _ _, fun b' hb' c hc => ?_⟩
      obtain rfl := List.mem_singleton.mp hc
      exact (h.admitted hadmits hb').1
    · rw [if_neg hw]
      exact h.increasing w
  ranks w := by
    rw [rowsOf_concat]
    by_cases hw : w = b.workspaceId
    · subst hw
      rw [if_pos rfl, List.pairwise_append]
      refine ⟨h.ranks _, List.pairwise_singleton _ _, fun b' hb' c hc => ?_⟩
      obtain rfl := List.mem_singleton.mp hc
      exact (h.admitted hadmits hb').2
    · rw [if_neg hw]
      exact h.ranks w
  newer w c hc := by
    rw [rowsOf_concat] at hc
    by_cases hw : w = b.workspaceId
    · subst hw
      rw [if_pos rfl] at hc
      rcases List.mem_append.mp hc with hold | hnew
      · exact h.newer _ c hold
      · obtain rfl := List.mem_singleton.mp hnew
        exact (h.admitted_first hadmits).1
    · rw [if_neg hw] at hc
      exact h.newer w c hc
  minimum w c hc := by
    rw [rowsOf_concat] at hc
    by_cases hw : w = b.workspaceId
    · subst hw
      rw [if_pos rfl] at hc
      rcases List.mem_append.mp hc with hold | hnew
      · exact h.minimum _ c hold
      · obtain rfl := List.mem_singleton.mp hnew
        exact (h.admitted_first hadmits).2
    · rw [if_neg hw] at hc
      exact h.minimum w c hc

end Workspace

end MonitorStore
