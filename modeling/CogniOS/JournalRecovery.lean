/-
# Recovery of the verifier journal

What a crash leaves of the journal, and what its next calls do with it.

* `Intact` says that every file of the journal is complete; the writes of the journal keep it,
  and so does a temporary file that a crash leaves behind;
* on an intact journal, `recoverAll`, `claimDispatch` and `transition` return.
-/
import CogniOS.VerifierJournal

namespace VerifierJournal

open FileStore JournalState

/-! ## Names -/

theorem getLast?_recordName (h : String) : (recordName h).toList.getLast? = some 'n' := by
  rw [recordName, String.toList_append, List.getLast?_append_of_ne_nil _ (by decide)]
  decide

theorem getLast?_claimName (h : String) : (claimName h).toList.getLast? = some 'm' := by
  rw [claimName, String.toList_append, List.getLast?_append_of_ne_nil _ (by decide)]
  decide

theorem getLast?_temporaryName (name : String) (uuid : Token) :
    (temporaryName name uuid).toList.getLast? = some 'p' := by
  rw [temporaryName, String.toList_append, List.getLast?_append_of_ne_nil _ (by decide)]
  decide

theorem recordName_ne_temporaryName (h name : String) (uuid : Token) :
    recordName h ≠ temporaryName name uuid := by
  intro heq
  have hlast := getLast?_recordName h
  rw [heq, getLast?_temporaryName] at hlast
  exact absurd hlast (by decide)

theorem claimName_ne_temporaryName (h name : String) (uuid : Token) :
    claimName h ≠ temporaryName name uuid := by
  intro heq
  have hlast := getLast?_claimName h
  rw [heq, getLast?_temporaryName] at hlast
  exact absurd hlast (by decide)

/-- The names of record files are the names with a dispatch hash. -/
theorem hashOfName_eq_some {name h : String} :
    hashOfName name = some h ↔ Hex.isHex 64 h = true ∧ name = recordName h := by
  have hlen : ".json".toList.length = 5 := by decide
  unfold hashOfName
  constructor
  · intro hsome
    dsimp only at hsome
    split at hsome
    · rename_i hname
      cases hsome
      refine ⟨hname.2, String.toList_injective ?_⟩
      rw [recordName, String.toList_append, String.toList_ofList, ← hname.1,
        List.take_append_drop]
    · cases hsome
  · rintro ⟨hhex, rfl⟩
    have hcut : (recordName h).toList.length - 5 = h.toList.length := by
      rw [recordName, String.toList_append, List.length_append, hlen]
      omega
    have htake : (recordName h).toList.take ((recordName h).toList.length - 5) = h.toList := by
      rw [hcut, recordName, String.toList_append, List.take_left]
    have hdrop : (recordName h).toList.drop ((recordName h).toList.length - 5) =
        ".json".toList := by
      rw [hcut, recordName, String.toList_append, List.drop_left]
    dsimp only
    rw [htake, hdrop, String.ofList_toList, if_pos ⟨rfl, hhex⟩]

theorem hashOfName_eq_none {name : String} {c : Char} (hlast : name.toList.getLast? = some c)
    (hc : c ≠ 'n') : hashOfName name = none := by
  cases hname : hashOfName name with
  | none => rfl
  | some h =>
    rw [(hashOfName_eq_some.mp hname).2, getLast?_recordName] at hlast
    exact absurd (Option.some.inj hlast).symm hc

/-- How a new content changes the number of records. -/
theorem recordCount_insert_old {name : String} {content : List UInt8} {d : Directory}
    (hname : d.lookup name ≠ none) : recordCount (d.insert name content) = recordCount d :=
  ((keys_insert_perm hname).filterMap hashOfName).length_eq

theorem recordCount_insert_new {name : String} {content : List UInt8} {d : Directory}
    (hname : d.lookup name = none) :
    recordCount (d.insert name content) = recordCount d + (hashOfName name).toList.length := by
  unfold recordCount
  rw [keys_insert_new hname]
  cases hhash : hashOfName name with
  | none => rw [List.filterMap_cons_none hhash]; rfl
  | some h => rw [List.filterMap_cons_some hhash]; rfl

/-- A file that is not a record does not count. -/
theorem recordCount_insert_other {name : String} {content : List UInt8} {d : Directory}
    (hname : hashOfName name = none) : recordCount (d.insert name content) = recordCount d := by
  by_cases hnew : d.lookup name = none
  · rw [recordCount_insert_new hnew, hname]
    rfl
  · exact recordCount_insert_old hnew

/-! ## Intact journals -/

/-- How many transitions lead to a state, at most. -/
def rank : JournalState → ℕ
  | requested => 0
  | claimed => 1
  | sourceVerified => 2
  | snapshotAcquired => 3
  | executing => 4
  | executionSealed => 5
  | crashAborted => 5
  | failedCleanupRequired => 5
  | releasePending => 6
  | cleanupAcked => 7
  | receiptPersisted => 8
  | terminalAppended => 9
  | done => 10
  | failed => 10
  | quarantined => 10

theorem rank_lt_of_moves : ∀ s s', Moves s s' → rank s < rank s' := by decide

theorem rank_le (s : JournalState) : rank s ≤ 10 := by cases s <;> decide

/-- The claim marker of a dispatch is complete. -/
def Marked (d : Directory) (h : String) : Prop :=
  ∃ r now, load d h = .ok (some r) ∧ (0 ≤ now ∧ now ≤ maxNumber) ∧
    d.lookup (claimName h) = some (fileBytes (markerDict r.identity now))

/-- All files of the journal are complete. -/
structure Intact (d : Directory) : Prop where
  loads : ∀ h, Hex.isHex 64 h = true → ∃ record, load d h = .ok record
  revision : ∀ h r, load d h = .ok (some r) → r.revision ≤ rank r.state
  count : recordCount d ≤ maxRecords
  marked : ∀ h, d.lookup (claimName h) ≠ none → Marked d h

theorem load_eq_ok_none {d : Directory} {h : String} :
    load d h = .ok none ↔ Hex.isHex 64 h = true ∧ d.lookup (recordName h) = none := by
  unfold load
  constructor
  · intro hload
    obtain ⟨hash, hhash, hload⟩ := bind_eq_ok.mp hload
    obtain ⟨hstr, hhex⟩ := validateDispatchHash_eq_ok.mp hhash
    obtain rfl : h = hash := Json.str.inj hstr
    refine ⟨hhex, ?_⟩
    split at hload
    · assumption
    · obtain ⟨record, -, hload⟩ := bind_eq_ok.mp hload
      obtain ⟨-, hload⟩ := require_bind_eq_ok.mp hload
      cases hload
  · rintro ⟨hhex, hnone⟩
    refine bind_eq_ok.mpr ⟨h, validateDispatchHash_eq_ok.mpr ⟨rfl, hhex⟩, ?_⟩
    rw [hnone]

/-- A loaded record is a valid one with its own hash. -/
theorem rules_of_load {d : Directory} {h : String} {r : JournalRecord}
    (hload : load d h = .ok (some r)) : RecordRules r ∧ r.dispatchEventHash = h := by
  obtain ⟨hhash, raw, -, hread⟩ := load_eq_ok_some hload
  obtain ⟨v, -, hvalidate⟩ := bind_eq_ok.mp hread
  exact ⟨(validateRecord_eq_ok hvalidate).1, hhash⟩

/-- On an intact journal a file that is there is a record. -/
theorem Intact.exists_record {d : Directory} (hd : Intact d) {h : String} (hhex : Hex.isHex 64 h = true)
    (hthere : d.lookup (recordName h) ≠ none) : ∃ r, load d h = .ok (some r) := by
  obtain ⟨record, hload⟩ := hd.loads h hhex
  cases record with
  | none => exact absurd (load_eq_ok_none.mp hload).2 hthere
  | some r => exact ⟨r, hload⟩

theorem intact_empty : Intact ∅ where
  loads h hhex := ⟨none, load_eq_ok_none.mpr ⟨hhex, rfl⟩⟩
  revision h r hload := by
    obtain ⟨-, raw, hraw, -⟩ := load_eq_ok_some hload
    cases hraw
  count := Nat.zero_le _
  marked h hthere := absurd rfl hthere

theorem Marked.of_lookup {d d' : Directory} {h : String} (hm : Marked d h)
    (hrecord : d'.lookup (recordName h) = d.lookup (recordName h))
    (hclaim : d'.lookup (claimName h) = d.lookup (claimName h)) : Marked d' h := by
  obtain ⟨r, now, hload, hnow, hmarker⟩ := hm
  exact ⟨r, now, (load_of_lookup hrecord).trans hload, hnow, hclaim.trans hmarker⟩

/-- A temporary file does not matter. -/
theorem Intact.insert_temporary {d : Directory} (hd : Intact d) (name : String) (uuid : Token)
    (content : List UInt8) : Intact (d.insert (temporaryName name uuid) content) := by
  have hrecord : ∀ h, (d.insert (temporaryName name uuid) content).lookup (recordName h) =
      d.lookup (recordName h) := fun h =>
    AList.lookup_insert_ne (recordName_ne_temporaryName h name uuid)
  have hclaim : ∀ h, (d.insert (temporaryName name uuid) content).lookup (claimName h) =
      d.lookup (claimName h) := fun h =>
    AList.lookup_insert_ne (claimName_ne_temporaryName h name uuid)
  refine ⟨fun h hhex => ?_, fun h r hload => ?_, ?_, fun h hthere => ?_⟩
  · rw [load_of_lookup (hrecord h)]
    exact hd.loads h hhex
  · rw [load_of_lookup (hrecord h)] at hload
    exact hd.revision h r hload
  · rw [recordCount_insert_other (hashOfName_eq_none (getLast?_temporaryName name uuid)
      (by decide))]
    exact hd.count
  · rw [hclaim h] at hthere
    exact (hd.marked h hthere).of_lookup (hrecord h) (hclaim h)

/-- A version of a record keeps the journal intact. -/
theorem Intact.apply_record {d : Directory} {w : Write} {r : JournalRecord} (hd : Intact d)
    (hname : w.name = recordName r.dispatchEventHash) (hcontent : w.content = r.bytes)
    (hvalid : r.Valid) (hlen : r.bytes.length ≤ maxRecordBytes)
    (hrevision : r.revision ≤ rank r.state) (hcount : recordCount (w.apply d) ≤ maxRecords)
    (hsame : ∀ r₀, load d r.dispatchEventHash = .ok (some r₀) →
      r.identity = r₀.identity) :
    Intact (w.apply d) := by
  have hnew : load (w.apply d) r.dispatchEventHash = .ok (some r) :=
    load_apply_record hname hcontent hvalid hlen
  have hother : ∀ h, h ≠ r.dispatchEventHash → (w.apply d).lookup (recordName h) =
      d.lookup (recordName h) := fun h hne => by
    rw [Write.lookup_apply, hname, if_neg fun heq => hne (recordName_injective heq)]
  have hclaim : ∀ h, (w.apply d).lookup (claimName h) = d.lookup (claimName h) := fun h => by
    rw [Write.lookup_apply, hname, if_neg (recordName_ne_claimName _ _).symm]
  refine ⟨fun h hhex => ?_, fun h r₀ hload => ?_, hcount, fun h hthere => ?_⟩
  · by_cases hh : h = r.dispatchEventHash
    · exact ⟨some r, hh ▸ hnew⟩
    · rw [load_of_lookup (hother h hh)]
      exact hd.loads h hhex
  · by_cases hh : h = r.dispatchEventHash
    · rw [hh, hnew] at hload
      obtain rfl : r = r₀ := Option.some.inj (Except.ok.inj hload)
      exact hrevision
    · rw [load_of_lookup (hother h hh)] at hload
      exact hd.revision h r₀ hload
  · rw [hclaim h] at hthere
    have hm := hd.marked h hthere
    by_cases hh : h = r.dispatchEventHash
    · -- The marker names the identity, which the new version keeps.
      obtain ⟨r₀, now, hload, hnow, hmarker⟩ := hm
      refine ⟨r, now, hh ▸ hnew, hnow, ?_⟩
      rw [hclaim h, hmarker, hsame r₀ (hh ▸ hload)]
    · exact hm.of_lookup (hother h hh) (hclaim h)

/-- **The writes of the journal keep it intact.** -/
theorem Intact.apply {d : Directory} {w : Write} (hd : Intact d) (hw : GoodWrite d w) :
    Intact (w.apply d) := by
  cases hw with
  | first r hstate hrevision hvalid hlen hnone hcount =>
    obtain ⟨hhex, hfile⟩ := load_eq_ok_none.mp hnone
    refine hd.apply_record rfl rfl hvalid hlen ?_ ?_ fun r₀ hload => ?_
    · rw [hrevision]
      exact Int.natCast_nonneg _
    · show recordCount (d.insert (recordName r.dispatchEventHash) r.bytes) ≤ maxRecords
      rw [recordCount_insert_new hfile, hashOfName_eq_some.mpr ⟨hhex, rfl⟩]
      exact hcount
    · rw [hnone] at hload
      cases hload
  | update r r' uuid hupdates hvalid hlen hload =>
    have hsame : r'.dispatchEventHash = r.dispatchEventHash :=
      congrArg Identity.dispatchEventHash hupdates.identity
    refine hd.apply_record rfl rfl hvalid hlen ?_ ?_ fun r₀ hload₀ => ?_
    · have hrank := rank_lt_of_moves _ _ hupdates.moves
      have hrevision := hd.revision _ _ hload
      rw [hupdates.revision]
      omega
    · obtain ⟨-, raw, hraw, -⟩ := load_eq_ok_some hload
      show recordCount (d.insert (recordName r'.dispatchEventHash) r'.bytes) ≤ maxRecords
      rw [recordCount_insert_old (by rw [hsame, hraw]; exact Option.some_ne_none _)]
      exact hd.count
    · rw [hsame, hload] at hload₀
      obtain rfl : r = r₀ := Option.some.inj (Except.ok.inj hload₀)
      exact hupdates.identity
  | marker r now hnow hlen hload hnone =>
    have hrecord : ∀ h, (Write.apply (.create (claimName r.dispatchEventHash)
        (fileBytes (markerDict r.identity now))) d).lookup (recordName h) =
        d.lookup (recordName h) := fun h =>
      AList.lookup_insert_ne (recordName_ne_claimName _ _)
    refine ⟨fun h hhex => ?_, fun h r₀ hload₀ => ?_, ?_, fun h hthere => ?_⟩
    · rw [load_of_lookup (hrecord h)]
      exact hd.loads h hhex
    · rw [load_of_lookup (hrecord h)] at hload₀
      exact hd.revision h r₀ hload₀
    · show recordCount (d.insert (claimName r.dispatchEventHash) _) ≤ maxRecords
      rw [recordCount_insert_other (hashOfName_eq_none (getLast?_claimName _) (by decide))]
      exact hd.count
    · by_cases hh : h = r.dispatchEventHash
      · subst hh
        refine ⟨r, now, (load_of_lookup (hrecord _)).trans hload, hnow, ?_⟩
        rw [Write.lookup_apply]
        exact if_pos rfl
      · have hclaim : (Write.apply (.create (claimName r.dispatchEventHash)
            (fileBytes (markerDict r.identity now))) d).lookup (claimName h) =
            d.lookup (claimName h) :=
          AList.lookup_insert_ne fun heq => hh (claimName_injective heq)
        rw [hclaim] at hthere
        exact (hd.marked h hthere).of_lookup (hrecord h) hclaim

/-! ## What stays -/

/-- The records of the first directory are there with their identities. -/
def Keeps (d₀ d : Directory) : Prop :=
  ∀ h r, load d₀ h = .ok (some r) → ∃ r', load d h = .ok (some r') ∧ r'.identity = r.identity

theorem Keeps.refl (d : Directory) : Keeps d d := fun _ r hload => ⟨r, hload, rfl⟩

theorem Keeps.trans {d₀ d₁ d₂ : Directory} (h : Keeps d₀ d₁) (h' : Keeps d₁ d₂) :
    Keeps d₀ d₂ := by
  intro hash r hload
  obtain ⟨r₁, hload₁, hsame₁⟩ := h hash r hload
  obtain ⟨r₂, hload₂, hsame₂⟩ := h' hash r₁ hload₁
  exact ⟨r₂, hload₂, hsame₂.trans hsame₁⟩

theorem keeps_of_lookup {d d' : Directory}
    (h : ∀ hash, d'.lookup (recordName hash) = d.lookup (recordName hash)) : Keeps d d' :=
  fun hash r hload => ⟨r, (load_of_lookup (h hash)).trans hload, rfl⟩

theorem Keeps.apply {d₀ d : Directory} {w : Write} (h : Keeps d₀ d) (hw : GoodWrite d w) :
    Keeps d₀ (w.apply d) := by
  refine h.trans ?_
  cases hw with
  | first r hstate hrevision hvalid hlen hnone hcount =>
    intro hash r₀ hload
    have hne : recordName hash ≠ recordName r.dispatchEventHash := fun heq => by
      rw [recordName_injective heq, hnone] at hload
      cases hload
    exact ⟨r₀, (load_apply_of_ne hne).trans hload, rfl⟩
  | update r r' uuid hupdates hvalid hlen hload =>
    have hsame : r'.dispatchEventHash = r.dispatchEventHash :=
      congrArg Identity.dispatchEventHash hupdates.identity
    intro hash r₀ hload₀
    by_cases hh : hash = r'.dispatchEventHash
    · subst hh
      refine ⟨r', load_apply_record rfl rfl hvalid hlen, ?_⟩
      rw [hsame, hload] at hload₀
      rw [hupdates.identity, Option.some.inj (Except.ok.inj hload₀)]
    · have hne : recordName hash ≠ recordName r'.dispatchEventHash :=
        fun heq => hh (recordName_injective heq)
      exact ⟨r₀, (load_apply_of_ne hne).trans hload₀, rfl⟩
  | marker r now hnow hlen hload hnone =>
    exact keeps_of_lookup fun hash => AList.lookup_insert_ne (recordName_ne_claimName _ _)

theorem Keeps.insert_temporary (d : Directory) (name : String) (uuid : Token)
    (content : List UInt8) : Keeps d (d.insert (temporaryName name uuid) content) :=
  keeps_of_lookup fun hash => AList.lookup_insert_ne (recordName_ne_temporaryName hash name uuid)

/-- What a recovery leaves as it was. -/
structure Unmoved (d₀ d : Directory) : Prop where
  keys : d.keys.Perm d₀.keys
  claims : ∀ h, d.lookup (claimName h) = d₀.lookup (claimName h)
  /-- A record that needs no recovery. -/
  records : ∀ h r, load d₀ h = .ok (some r) → recoveryOf r.state = none → load d h = .ok (some r)

theorem Unmoved.refl (d : Directory) : Unmoved d d :=
  ⟨.refl _, fun _ => rfl, fun _ _ hload _ => hload⟩

theorem Unmoved.apply {d₀ d : Directory} {w : Write} (hd : Unmoved d₀ d)
    (hw : RecoveryWrite d w) : Unmoved d₀ (w.apply d) := by
  cases hw with
  | recover r r' uuid hrecovery hupdates hvalid hlen hload =>
    have hsame : r'.dispatchEventHash = r.dispatchEventHash :=
      congrArg Identity.dispatchEventHash hupdates.identity
    obtain ⟨-, raw, hraw, -⟩ := load_eq_ok_some hload
    have hthere : d.lookup (recordName r'.dispatchEventHash) ≠ none := by
      rw [hsame, hraw]
      exact Option.some_ne_none _
    refine ⟨(keys_insert_perm hthere).trans hd.keys, fun h => ?_, fun h r₀ hload₀ hquiet => ?_⟩
    · exact (AList.lookup_insert_ne (recordName_ne_claimName _ _).symm).trans (hd.claims h)
    · have hd₀ := hd.records h r₀ hload₀ hquiet
      have hne : recordName h ≠ recordName r'.dispatchEventHash := fun heq => by
        rw [recordName_injective heq, hsame, hload] at hd₀
        obtain rfl : r = r₀ := Option.some.inj (Except.ok.inj hd₀)
        exact hrecovery hquiet
      exact (load_apply_of_ne hne).trans hd₀

theorem Unmoved.recordCount {d₀ d : Directory} (h : Unmoved d₀ d) :
    recordCount d = recordCount d₀ :=
  (h.keys.filterMap hashOfName).length_eq

/-! ## Calls that return -/

/-- Every reading of the clock is in the range of `_now_ns`. -/
def Env.Valid (env : Env) : Prop := ∀ k, 0 ≤ env.clockNs k ∧ env.clockNs k ≤ maxNumber

theorem Env.Valid.drop {env : Env} (h : env.Valid) (n : ℕ) : (env.drop n).Valid :=
  fun k => h (k + n)

theorem nowNs_of_valid {reading : ℤ} (h : 0 ≤ reading ∧ reading ≤ maxNumber) :
    nowNs reading = .ok reading :=
  require_bind_eq_ok.mpr ⟨h, rfl⟩

/-- The next version of a record, where its failure metadata fit to the new state. -/
theorem nextRecord_returns {r : JournalRecord} (hr : RecordRules r) (hrevision : r.revision ≤ 10)
    {reading : ℤ} (hreading : 0 ≤ reading ∧ reading ≤ maxNumber) (newState : JournalState)
    (failureCode : Option String) (hcode : ∀ code ∈ failureCode, isFailureCode code = true)
    (hfailure : ∀ u : JournalRecord, u.state = newState → u.quarantineReason = none →
      u.failureCode = (if failureCode = none then r.failureCode else failureCode) →
      checkFailure u = .ok ()) :
    ∃ u, nextRecord r newState failureCode none reading = .ok u ∧ RecordRules u ∧
      u.dispatchEventHash = r.dispatchEventHash ∧ u.state = newState ∧
      u.quarantineReason = none := by
  have hmetadata := hr.metadata
  unfold checkMetadata at hmetadata
  obtain ⟨hcreated, -⟩ := require_bind_eq_ok.mp hmetadata
  have hupdated : 0 ≤ max r.updatedAtNs reading ∧ max r.updatedAtNs reading ≤ maxNumber :=
    ⟨hreading.1.trans (le_max_right _ _), max_le hr.updatedAtNs.2 hreading.2⟩
  have hzero := hr.revision.1
  let u : JournalRecord :=
    { r with
      state := newState
      previousState := some r.state
      revision := r.revision + 1
      updatedAtNs := max r.updatedAtNs reading
      failureCode := if failureCode = none then r.failureCode else failureCode
      quarantineReason := none }
  have hu : RecordRules u := {
    hash := hr.hash
    taskId := hr.taskId
    actor := hr.actor
    runId := hr.runId
    attempt := hr.attempt
    revision := by
      show 0 ≤ r.revision + 1 ∧ r.revision + 1 ≤ 9223372036854775807
      omega
    createdAtNs := hr.createdAtNs
    updatedAtNs := hupdated
    metadata := by
      refine require_bind_eq_ok.mpr ⟨hcreated.trans (le_max_left _ _), require_bind_eq_ok.mpr
        ⟨?_, require_eq_ok.mpr ?_⟩⟩
      · rintro ⟨hinitial, -⟩
        have : r.revision + 1 = 0 := hinitial
        omega
      · rintro ⟨-, hnone⟩
        cases hnone
    failureCode := by
      intro code hmem
      by_cases hgiven : failureCode = none
      · rw [show u.failureCode = r.failureCode from if_pos hgiven] at hmem
        exact hr.failureCode code hmem
      · rw [show u.failureCode = failureCode from if_neg hgiven] at hmem
        exact hcode code hmem
    quarantineReason := fun reason hmem => by cases hmem
    failure := hfailure u rfl rfl rfl }
  refine ⟨u, ?_, hu, rfl, rfl, rfl⟩
  unfold nextRecord
  exact bind_eq_ok.mpr ⟨reading, nowNs_of_valid hreading, valid_iff_rules.mpr hu⟩

theorem returns_replaceRecord {u : JournalRecord} (hu : RecordRules u)
    (hreason : u.quarantineReason = none) (uuid : Token) :
    Returns (fun _ => True) (replaceRecord uuid u) fun _ d =>
      load d u.dispatchEventHash = .ok (some u) := by
  have hlen := length_bytes_le hu hreason
  unfold replaceRecord
  refine Returns.bind (Q := fun content _ => content = u.bytes)
    (Returns.lift fun _ _ => ⟨_, canonicalJsonBytes_eq_ok.mpr ⟨hlen, rfl⟩, rfl⟩) fun content =>
      Returns.write fun d hcontent => ?_
  subst hcontent
  exact load_apply_record rfl rfl (valid_iff_rules.mpr hu) hlen

/-- The failure metadata after a recovery. -/
theorem checkFailure_of_recovery {u : JournalRecord} {s s' : JournalState} {code : String}
    (hrecovery : recoveryOf s = some (s', code)) (hstate : u.state = s')
    (hreason : u.quarantineReason = none) (hcode : u.failureCode = some code) :
    checkFailure u = .ok () ∧ isFailureCode code = true := by
  cases s <;> simp only [recoveryOf, reduceCtorEq, Option.some.injEq, Prod.mk.injEq] at hrecovery
  all_goals
    obtain ⟨rfl, rfl⟩ := hrecovery
    refine ⟨?_, by decide⟩
    unfold checkFailure
    rw [hstate, hreason, hcode]
    rfl

/-- **`recover` returns.** -/
theorem returns_recover {env : Env} (henv : env.Valid) (h : String) :
    Returns (fun d => Intact d ∧ Hex.isHex 64 h = true ∧ d.lookup (recordName h) ≠ none)
      (recover env h) fun _ _ => True := by
  unfold recover
  refine Returns.bind (Q := fun hash d => hash = h ∧ Intact d ∧ Hex.isHex 64 h = true ∧
    d.lookup (recordName h) ≠ none)
    (Returns.lift fun d hd => ⟨h, validateDispatchHash_eq_ok.mpr ⟨rfl, hd.2.1⟩, rfl, hd⟩)
    fun hash => ?_
  refine Returns.bind (Q := fun d' d => d' = d ∧ hash = h ∧ Intact d ∧ Hex.isHex 64 h = true ∧
    d.lookup (recordName h) ≠ none) (Returns.directory fun d hd => ⟨rfl, hd⟩) fun d' => ?_
  refine Returns.bind (Q := fun current d => load d h = .ok (some current) ∧
    current.revision ≤ 10) (Returns.lift ?_) fun current => ?_
  · rintro d ⟨rfl, rfl, hintact, hhex, hthere⟩
    obtain ⟨r, hload⟩ := hintact.exists_record hhex hthere
    have hrevision := hintact.revision hash r hload
    have hrank := rank_le r.state
    exact ⟨r, loadExisting_eq_ok.mpr hload, hload, by omega⟩
  cases hrecovery : recoveryOf current.state with
  | none => exact Returns.pure fun _ _ => trivial
  | some p =>
    obtain ⟨recoveryState, failureCode⟩ := p
    intro d hd
    obtain ⟨hrules, -⟩ := rules_of_load hd.1
    obtain ⟨u, hnext, hu, -, -, hreason⟩ := nextRecord_returns hrules hd.2 (henv 0)
      recoveryState (some failureCode)
      (fun code hmem => by
        rw [← Option.some.inj hmem]
        exact (checkFailure_of_recovery (u := { current with
          state := recoveryState
          failureCode := some failureCode
          quarantineReason := none }) hrecovery rfl rfl rfl).2)
      (fun u hstate hreason hcode => (checkFailure_of_recovery hrecovery hstate hreason hcode).1)
    dsimp only
    refine Returns.bind (P := fun _ => True) (Q := fun aborted _ => aborted = u)
      (R := fun _ _ => True)
      (Returns.lift fun _ _ => ⟨u, hnext, rfl⟩) (fun aborted => ?_) d trivial
    intro d hd
    subst hd
    exact Returns.bind (Q := fun _ _ => True) (R := fun _ _ => True)
      ((returns_replaceRecord hu hreason _).weaken (fun _ h => h) fun _ _ _ => trivial)
      (fun _ => Returns.pure fun _ _ => trivial) d trivial

/-- The records of a list of hashes are there. -/
theorem exists_file_of_listRecords {d : Directory} {records : List JournalRecord}
    (hok : listRecords d = .ok records) : ∀ r ∈ records,
      Hex.isHex 64 r.dispatchEventHash = true ∧
        d.lookup (recordName r.dispatchEventHash) ≠ none := by
  unfold listRecords at hok
  obtain ⟨names, -, hok⟩ := bind_eq_ok.mp hok
  obtain ⟨-, hok⟩ := require_bind_eq_ok.mp hok
  intro r hr
  have hmem : (.ok r : Except CogniError JournalRecord) ∈ records.map .ok :=
    List.mem_map_of_mem hr
  rw [← mapM_eq_ok.mp hok] at hmem
  obtain ⟨hash, -, hload⟩ := List.mem_map.mp hmem
  obtain ⟨hrules, hsame⟩ := rules_of_load (loadExisting_eq_ok.mp hload)
  obtain ⟨-, raw, hraw, -⟩ := load_eq_ok_some (loadExisting_eq_ok.mp hload)
  refine ⟨hrules.hash, ?_⟩
  rw [hsame, hraw]
  exact Option.some_ne_none _

/-- The listing needs a directory that is small enough and complete records. -/
theorem listRecords_returns {d : Directory} (hd : Intact d)
    (hscan : d.keys.length ≤ maxDirectoryEntriesScanned) :
    ∃ records, listRecords d = .ok records := by
  have hloads : ∀ hash ∈ (d.keys.filterMap hashOfName).mergeSort (· ≤ ·),
      ∃ r, loadExisting d hash = .ok r := by
    intro hash hmem
    obtain ⟨name, hname, hhash⟩ := List.mem_filterMap.mp (List.mem_mergeSort.mp hmem)
    obtain ⟨hhex, rfl⟩ := hashOfName_eq_some.mp hhash
    obtain ⟨r, hload⟩ := hd.exists_record hhex (mem_keys_iff.mp hname)
    exact ⟨r, loadExisting_eq_ok.mpr hload⟩
  obtain ⟨records, hrecords⟩ := exists_mapM_eq_ok hloads
  refine ⟨records, bind_eq_ok.mpr ⟨d.keys, require_bind_eq_ok.mpr ⟨hscan, rfl⟩,
    require_bind_eq_ok.mpr ⟨?_, hrecords⟩⟩⟩
  rw [List.length_mergeSort]
  exact hd.count

theorem scan_of_listRecords {d : Directory} {records : List JournalRecord}
    (hok : listRecords d = .ok records) : d.keys.length ≤ maxDirectoryEntriesScanned := by
  unfold listRecords boundedDirectoryNames at hok
  obtain ⟨names, hnames, -⟩ := bind_eq_ok.mp hok
  exact (require_bind_eq_ok.mp hnames).1

/-- **The loop of `recover_all` returns.** -/
theorem returns_recoverEach {env : Env} (henv : env.Valid) (records : List JournalRecord) :
    Returns (fun d => Intact d ∧ ∀ r ∈ records, Hex.isHex 64 r.dispatchEventHash = true ∧
        d.lookup (recordName r.dispatchEventHash) ≠ none)
      (recoverEach env records) fun _ _ => True := by
  induction records generalizing env with
  | nil => exact Returns.pure fun _ _ => trivial
  | cons record rest ih =>
    unfold recoverEach
    refine Returns.bind (Q := fun _ d => Intact d ∧ ∀ r ∈ rest,
      Hex.isHex 64 r.dispatchEventHash = true ∧
        d.lookup (recordName r.dispatchEventHash) ≠ none) ?_ fun first =>
      Returns.bind (Q := fun _ _ => True) (ih (henv.drop 1)) fun _ => Returns.pure fun _ _ => trivial
    -- The first recovery keeps the journal intact and removes no file.
    refine ((returns_recover henv record.dispatchEventHash).keep
      (I := fun d => Intact d ∧ ∀ r ∈ rest, Hex.isHex 64 r.dispatchEventHash = true ∧
        d.lookup (recordName r.dispatchEventHash) ≠ none) (fun d w hd hw => ?_)
      (recovers_recover env record.dispatchEventHash)).weaken (fun d hd => ?_) fun _ _ h => h.2
    · exact ⟨hd.1.apply hw.good, fun r hr => ⟨(hd.2 r hr).1, lookup_apply_ne_none w (hd.2 r hr).2⟩⟩
    · have hrest := fun r hr => hd.2 r (List.mem_cons_of_mem _ hr)
      exact ⟨⟨hd.1, hd.2 record List.mem_cons_self⟩, trivial, hd.1, hrest⟩

/-- **`recover_all` returns.** -/
theorem returns_recoverAll {env : Env} (henv : env.Valid) :
    Returns (fun d => Intact d ∧ d.keys.length ≤ maxDirectoryEntriesScanned) (recoverAll env)
      fun _ _ => True := by
  unfold recoverAll
  refine Returns.bind (Q := fun d' d => d' = d ∧ Intact d ∧
    d.keys.length ≤ maxDirectoryEntriesScanned) (Returns.directory fun d hd => ⟨rfl, hd⟩)
    fun d' => ?_
  refine Returns.bind (Q := fun records d => Intact d ∧ ∀ r ∈ records,
    Hex.isHex 64 r.dispatchEventHash = true ∧
      d.lookup (recordName r.dispatchEventHash) ≠ none) (Returns.lift ?_)
    fun records => returns_recoverEach henv records
  rintro d ⟨rfl, hintact, hscan⟩
  obtain ⟨records, hok⟩ := listRecords_returns hintact hscan
  exact ⟨records, hok, hintact, exists_file_of_listRecords hok⟩

/-! ## Transitions and claims that return -/

/-- What a transition to one state, without metadata of its own, asks of the record. -/
structure Ready (r : JournalRecord) (newState : JournalState) : Prop where
  allowed : newState ∈ allowedTransitions r.state
  normal : newState ∉ [failed, crashAborted, failedCleanupRequired, quarantined]
  carried : newState.carriesFailure = true ∨ r.failureCode = none

/-- **`transition` returns.** -/
theorem returns_transition {env : Env} (henv : env.Valid) {r : JournalRecord}
    {newState : JournalState} (hready : Ready r newState) :
    Returns (fun d => Intact d ∧ load d r.dispatchEventHash = .ok (some r))
      (transition env r.dispatchEventHash newState (some r.revision) none none) fun u d =>
        u.state = newState ∧ load d r.dispatchEventHash = .ok (some u) := by
  unfold transition
  intro d hd
  obtain ⟨hintact, hload⟩ := hd
  obtain ⟨hrules, -⟩ := rules_of_load hload
  have hrank := rank_le r.state
  have hrevision := hintact.revision _ _ hload
  obtain ⟨u, hnext, hu, hhash, hstate, hreason⟩ := nextRecord_returns hrules (by omega) (henv 0)
    newState none (fun code hmem => by cases hmem)
    (fun u hstate hreason hcode => by
      rw [if_pos rfl] at hcode
      unfold checkFailure
      rw [hstate, hreason, hcode]
      have hnormal := hready.normal
      simp only [List.mem_cons, List.not_mem_nil, or_false, not_or] at hnormal
      refine require_bind_eq_ok.mpr ⟨?_, require_bind_eq_ok.mpr ⟨?_, require_bind_eq_ok.mpr
        ⟨?_, require_eq_ok.mpr fun h => h.2 rfl⟩⟩⟩
      · rintro ⟨hmem, -⟩
        simp only [List.mem_cons, List.not_mem_nil, or_false] at hmem
        tauto
      · exact fun h => hnormal.2.2.2 h.1
      · rintro ⟨-, hcarries, hsome⟩
        rcases hready.carried with hc | hc
        · rw [hc] at hcarries
          cases hcarries
        · exact hsome hc)
  have hfinal : newState ∉ [crashAborted, failedCleanupRequired] := fun hmem =>
    hready.normal (by simp only [List.mem_cons, List.not_mem_nil, or_false] at hmem ⊢; tauto)
  refine Returns.bind (Q := fun hash d' => hash = r.dispatchEventHash ∧ d' = d)
    (P := fun d' => d' = d) (R := fun v d' => v.state = newState ∧
      load d' r.dispatchEventHash = .ok (some v))
    (Returns.lift fun d' hd' => ⟨_, validateDispatchHash_eq_ok.mpr ⟨rfl, hrules.hash⟩, rfl, hd'⟩)
    (fun hash => ?_) d rfl
  refine Returns.bind (Q := fun _ d' => hash = r.dispatchEventHash ∧ d' = d)
    (Returns.lift fun d' hd' => ⟨(), require_eq_ok.mpr hfinal, hd'⟩) fun _ => ?_
  refine Returns.bind (Q := fun d₁ _ => hash = r.dispatchEventHash ∧ d₁ = d)
    (Returns.directory fun d' hd' => hd') fun d₁ => ?_
  refine Returns.bind (Q := fun current _ => current = r) (Returns.lift ?_) fun current => ?_
  · rintro d' ⟨rfl, rfl⟩
    exact ⟨r, loadExisting_eq_ok.mpr hload, rfl⟩
  refine Returns.bind (Q := fun _ _ => current = r) (Returns.lift ?_) fun _ => ?_
  · rintro d' rfl
    refine ⟨(), require_eq_ok.mpr fun expected hmem => ?_, rfl⟩
    exact Option.some.inj hmem
  refine Returns.bind (Q := fun _ _ => current = r) (Returns.lift ?_) fun _ => ?_
  · rintro d' rfl
    exact ⟨(), require_eq_ok.mpr hready.allowed, rfl⟩
  refine Returns.bind (Q := fun updated _ => updated = u) (Returns.lift ?_) fun updated => ?_
  · rintro d' rfl
    exact ⟨u, hnext, rfl⟩
  rintro d' rfl
  refine Returns.bind (P := fun _ => True) (Q := fun _ d' =>
    load d' updated.dispatchEventHash = .ok (some updated))
    (R := fun v d' => v.state = newState ∧ load d' r.dispatchEventHash = .ok (some v))
    (returns_replaceRecord hu hreason _) (fun _ => Returns.pure fun d'' hload' => ?_) d' trivial
  exact ⟨hstate, hhash ▸ hload'⟩

/-- A transition that returned has written the next version of the record. -/
theorem transition_eq_ok {env : Env} {h : String} {newState : JournalState}
    {expectedRevision : Option ℤ} {failureCode quarantineReason : Option String} {d : Directory}
    {u : JournalRecord}
    (hok : (transition env h newState expectedRevision failureCode quarantineReason d).2 =
      .ok u) :
    ∃ current, load d h = .ok (some current) ∧
      nextRecord current newState failureCode quarantineReason (env.clockNs 0) = .ok u ∧
      u.bytes.length ≤ maxRecordBytes ∧
      (transition env h newState expectedRevision failureCode quarantineReason d).1 =
        [.replace (temporaryName (recordName u.dispatchEventHash) (env.uuid 0))
          (recordName u.dispatchEventHash) u.bytes] := by
  unfold transition at hok ⊢
  obtain ⟨hash, hhash, hok, heq⟩ := Action.lift_bind_eq_ok hok
  obtain rfl : h = hash := Json.str.inj (validateDispatchHash_eq_ok.mp hhash).1
  obtain ⟨_, -, hok, heq'⟩ := Action.lift_bind_eq_ok hok
  obtain ⟨d₁, hd₁, hok, hwrites⟩ := Action.bind_eq_ok hok
  obtain rfl : d = d₁ := Except.ok.inj hd₁
  obtain ⟨current, hload, hok, heq₁⟩ := Action.lift_bind_eq_ok hok
  obtain ⟨_, -, hok, heq₂⟩ := Action.lift_bind_eq_ok hok
  obtain ⟨_, -, hok, heq₃⟩ := Action.lift_bind_eq_ok hok
  obtain ⟨updated, hnext, hok, heq₄⟩ := Action.lift_bind_eq_ok hok
  obtain ⟨_, hreplace, hok, hwrites'⟩ := Action.bind_eq_ok hok
  obtain rfl : updated = u := Except.ok.inj hok
  unfold replaceRecord at hreplace hwrites'
  obtain ⟨content, hcontent, -, heq₅⟩ := Action.lift_bind_eq_ok hreplace
  obtain ⟨hlen, rfl⟩ := canonicalJsonBytes_eq_ok.mp hcontent
  refine ⟨current, loadExisting_eq_ok.mp hload, hnext, hlen, ?_⟩
  have hlast := hwrites'.trans (congrArg (fun r => Prod.fst r ++ []) heq₅)
  exact (congrArg Prod.fst (heq.trans heq')).trans (hwrites.trans
    ((congrArg Prod.fst (heq₁.trans (heq₂.trans (heq₃.trans heq₄)))).trans hlast))

theorem markerKeys : ∀ key ∈ claimKeys, (Json.quote key.toList).length ≤ 21 := by decide

/-- The marker of a valid identity fits into its file. -/
theorem length_markerDict_le {r : JournalRecord} (hr : RecordRules r) {now : ℤ}
    (hnow : 0 ≤ now ∧ now ≤ maxNumber) :
    (fileBytes (markerDict r.identity now)).length ≤ maxRecordBytes := by
  have hp := hr.plain
  have hplain : (markerDict r.identity now).PlainTexts := by
    refine Json.plainTexts_obj ?_
    have hjournal : (Json.str journalId).PlainTexts := Json.plainTexts_str (by decide)
    simp only [List.forall_mem_cons, List.not_mem_nil, false_implies, implies_true, and_true]
    exact ⟨⟨by decide, Json.plainTexts_str hp.actor.1⟩, ⟨by decide, Json.plainTexts_int _⟩,
      ⟨by decide, Json.plainTexts_int _⟩, ⟨by decide, Json.plainTexts_str hp.hash.1⟩,
      ⟨by decide, hjournal⟩, ⟨by decide, Json.plainTexts_str hp.runId.1⟩,
      ⟨by decide, Json.plainTexts_int _⟩, ⟨by decide, Json.plainTexts_str hp.taskId.1⟩⟩
  have hattempt : ((Json.int r.attempt).dumps 0).length ≤ 19 :=
    length_dumps_number ⟨by have := hr.attempt.1; omega, hr.attempt.2.trans (by decide)⟩
  have hclaimed := length_dumps_number hnow
  have hjournal : ((Json.str journalId).dumps 0).length ≤ 40 := by decide
  have hversion : ((Json.int schemaVersion).dumps 0).length = 1 := by decide
  have hkeys := markerKeys
  simp only [claimKeys, List.forall_mem_cons] at hkeys
  have hend : (Json.dumpsFields 0 []).length = 1 := rfl
  have hmax : maxRecordBytes = 4096 := rfl
  unfold fileBytes
  rw [List.length_append, Json.length_encoding hplain]
  unfold markerDict JournalRecord.identity
  rw [Json.length_dumps_obj]
  simp only [Json.length_dumpsFields_cons, length_dumps_str hp.hash.1,
    length_dumps_str hp.taskId.1, length_dumps_str hp.actor.1, length_dumps_str hp.runId.1,
    hversion, hend, List.length_singleton]
  have := hp.hash.2
  have := hp.taskId.2
  have := hp.actor.2
  have := hp.runId.2
  omega

/-- The marker that was written for a record is read and accepted. -/
theorem readMarker_of_marked {d : Directory} {r : JournalRecord} {now : ℤ} (hr : RecordRules r)
    (hnow : 0 ≤ now ∧ now ≤ maxNumber)
    (hmarker : d.lookup (claimName r.dispatchEventHash) =
      some (fileBytes (markerDict r.identity now))) :
    readMarker d r.dispatchEventHash = .ok (some (markerDict r.identity now)) := by
  unfold readMarker
  rw [hmarker]
  have hread : readJsonExact (fileBytes (markerDict r.identity now)) claimKeys =
      .ok (markerDict r.identity now) :=
    readJsonExact_fileBytes (wellFormed_markerDict _ _) rfl rfl (length_markerDict_le hr hnow)
  show (readJsonExact (fileBytes (markerDict r.identity now)) claimKeys).map some = _
  rw [hread]
  rfl

theorem validateClaimMarker_markerDict {r : JournalRecord} {now : ℤ} (hr : RecordRules r)
    (hnow : 0 ≤ now ∧ now ≤ maxNumber) :
    validateClaimMarker (markerDict r.identity now) r.identity = .ok () := by
  have hp := hr.plain
  have htask : validateIdentifier (.str r.taskId) "task_id" 80 isTaskId = .ok r.taskId :=
    validateIdentifier_eq_ok.mpr ⟨rfl, hr.taskId, by
      rw [length_encode_plain hp.taskId.1]; exact hp.taskId.2⟩
  have hactor : validateIdentifier (.str r.actor) "actor" 50 isAgentId = .ok r.actor :=
    validateIdentifier_eq_ok.mpr ⟨rfl, hr.actor, by
      rw [length_encode_plain hp.actor.1]; exact hp.actor.2⟩
  have hrun : validateIdentifier (.str r.runId) "run_id" 32 (Hex.isHex 32) = .ok r.runId :=
    validateIdentifier_eq_ok.mpr ⟨rfl, hr.runId, by
      rw [length_encode_plain hp.runId.1]; exact hp.runId.2.le⟩
  have htime : ((Json.int now).asInt?.any fun n : ℤ => 0 ≤ n ∧ n ≤ maxNumber) = true :=
    decide_eq_true hnow
  unfold validateClaimMarker
  exact require_bind_eq_ok.mpr ⟨rfl, require_bind_eq_ok.mpr ⟨rfl, require_bind_eq_ok.mpr
    ⟨htime, bind_eq_ok.mpr ⟨_, validateDispatchHash_eq_ok.mpr ⟨rfl, hr.hash⟩, bind_eq_ok.mpr
    ⟨_, htask, bind_eq_ok.mpr ⟨_, hactor, bind_eq_ok.mpr ⟨_, hrun, bind_eq_ok.mpr
    ⟨_, rfl, require_bind_eq_ok.mpr ⟨hr.attempt, require_eq_ok.mpr rfl⟩⟩⟩⟩⟩⟩⟩⟩⟩

/-- A claim of the identity finds its record, or room for it. -/
structure Claimable (d : Directory) (i : Identity) : Prop where
  valid : (requestedRecord i 0).Valid
  room : (∃ r, load d i.dispatchEventHash = .ok (some r) ∧ r.identity = i) ∨
    d.lookup (recordName i.dispatchEventHash) = none ∧
      d.keys.length ≤ maxDirectoryEntriesScanned ∧ recordCount d < maxRecords

/-- The record of the identity is there. -/
def Recorded (d : Directory) (i : Identity) : Prop :=
  ∃ r, load d i.dispatchEventHash = .ok (some r) ∧ r.identity = i

theorem Recorded.keeps {d d' : Directory} {i : Identity} (h : Recorded d i) (hk : Keeps d d') :
    Recorded d' i := by
  obtain ⟨r, hload, hsame⟩ := h
  obtain ⟨r', hload', hsame'⟩ := hk _ _ hload
  exact ⟨r', hload', hsame'.trans hsame⟩

theorem returns_ensureRecord {env : Env} (henv : env.Valid) (i : Identity) :
    Returns (fun d => Intact d ∧ Claimable d i) (ensureRecord env i) fun result d =>
      load d i.dispatchEventHash = .ok (some result.1) ∧ result.1.identity = i := by
  intro d hd
  obtain ⟨hintact, hclaim⟩ := hd
  unfold ensureRecord
  refine Returns.bind (P := fun d' => d' = d) (Q := fun d₁ d' => d₁ = d ∧ d' = d)
    (R := fun (result : JournalRecord × Bool) d' => load d' i.dispatchEventHash =
      .ok (some result.1) ∧ result.1.identity = i)
    (Returns.directory fun d' hd' => ⟨hd', hd'⟩) (fun d₁ => ?_) d rfl
  rcases hclaim.room with ⟨r, hload, hsame⟩ | ⟨hnone, hscan, hcount⟩
  · refine Returns.bind (Q := fun existing d' => existing = some r ∧ d' = d)
      (Returns.lift ?_) fun existing => ?_
    · rintro d' ⟨rfl, rfl⟩
      exact ⟨some r, hload, rfl, rfl⟩
    · rintro d' ⟨rfl, rfl⟩
      exact ⟨(r, false), rfl, hload, hsame⟩
  · have hhex := (rules_of_valid hclaim.valid).hash
    have hrecord := valid_requestedRecord hclaim.valid (henv 0)
    have hlen := length_bytes_le (rules_of_valid hrecord) rfl
    refine Returns.bind (Q := fun existing d' => existing = none ∧ d₁ = d ∧ d' = d)
      (Returns.lift ?_) fun existing => ?_
    · rintro d' ⟨rfl, rfl⟩
      exact ⟨none, load_eq_ok_none.mpr ⟨hhex, hnone⟩, rfl, rfl, rfl⟩
    · rintro d' ⟨rfl, rfl, rfl⟩
      refine Returns.bind (P := fun d₂ => d₂ = d') (Q := fun _ d₂ => d₂ = d')
        (R := fun (result : JournalRecord × Bool) d₂ => load d₂ i.dispatchEventHash =
          .ok (some result.1) ∧ result.1.identity = i) (Returns.lift ?_) (fun _ => ?_) d' rfl
      · rintro d₂ rfl
        exact ⟨(), bind_eq_ok.mpr ⟨d₂.keys, require_bind_eq_ok.mpr ⟨hscan, rfl⟩,
          require_eq_ok.mpr hcount⟩, rfl⟩
      refine Returns.bind (Q := fun now _ => now = env.clockNs 0) (Returns.lift fun _ _ =>
        ⟨_, nowNs_of_valid (henv 0), rfl⟩) fun now => ?_
      refine Returns.bind (Q := fun content _ => now = env.clockNs 0 ∧
        content = (requestedRecord i now).bytes) (Returns.lift ?_) fun content => ?_
      · rintro d' rfl
        exact ⟨_, canonicalJsonBytes_eq_ok.mpr ⟨hlen, rfl⟩, rfl, rfl⟩
      refine Returns.bind (Q := fun _ d' => load d' i.dispatchEventHash =
        .ok (some (requestedRecord i now))) (Returns.write ?_)
        fun _ => Returns.pure fun _ h => ⟨h, rfl⟩
      rintro d' ⟨rfl, rfl⟩
      exact load_apply_record (r := requestedRecord i (env.clockNs 0)) rfl rfl hrecord hlen

theorem returns_ensureMarker {env : Env} (henv : env.Valid) {i : Identity} :
    Returns (fun d => Intact d ∧ Recorded d i) (ensureMarker env i) fun _ _ => True := by
  rintro d ⟨hintact, r, hload, rfl⟩
  replace hload : load d r.dispatchEventHash = .ok (some r) := hload
  obtain ⟨hr, -⟩ := rules_of_load hload
  have hlen := length_markerDict_le hr (henv 1)
  unfold ensureMarker
  refine Returns.bind (P := fun d' => d' = d) (Q := fun now d' => now = env.clockNs 1 ∧ d' = d)
    (R := fun _ _ => True) (Returns.lift fun d' hd' => ⟨_, nowNs_of_valid (henv 1), rfl, hd'⟩)
    (fun now => ?_) d rfl
  refine Returns.bind (Q := fun _ d' => d' = d) (Returns.lift ?_) fun content => ?_
  · rintro d' ⟨rfl, rfl⟩
    exact ⟨_, canonicalJsonBytes_eq_ok.mpr ⟨hlen, rfl⟩, rfl⟩
  refine Returns.bind (Q := fun d₁ d' => d₁ = d ∧ d' = d)
    (Returns.directory fun d' hd' => ⟨hd', hd'⟩) fun d₁ => ?_
  by_cases hmarker : d.lookup (claimName r.dispatchEventHash) = none
  · refine Returns.bind (Q := fun stored _ => stored = none) (Returns.lift ?_) fun stored => ?_
    · rintro d' ⟨rfl, rfl⟩
      refine ⟨none, ?_, rfl⟩
      show readMarker d' r.dispatchEventHash = _
      unfold readMarker
      rw [hmarker]
    · rintro d' rfl
      exact ⟨true, rfl, trivial⟩
  · -- The marker of the record is complete and has the identity of the record.
    obtain ⟨r₀, now₀, hload₀, hnow₀, hfile⟩ := hintact.marked _ hmarker
    rw [hload] at hload₀
    obtain rfl : r = r₀ := Option.some.inj (Except.ok.inj hload₀)
    refine Returns.bind (Q := fun stored _ => stored = some (markerDict r.identity now₀))
      (Returns.lift ?_) fun stored => ?_
    · rintro d' ⟨rfl, rfl⟩
      exact ⟨_, readMarker_of_marked hr hnow₀ hfile, rfl⟩
    · rintro d' rfl
      exact Returns.bind (P := fun _ => True) (Q := fun _ _ => True) (R := fun _ _ => True)
        (Returns.lift fun _ _ => ⟨(), validateClaimMarker_markerDict hr hnow₀, trivial⟩)
        (fun _ => Returns.pure fun _ _ => trivial) d' trivial

theorem returns_completeClaim {env : Env} (henv : env.Valid) {i : Identity} :
    Returns (fun d => Intact d ∧ Recorded d i) (completeClaim env i) fun _ _ => True := by
  rintro d ⟨hintact, r, hload, rfl⟩
  obtain ⟨hr, -⟩ := rules_of_load hload
  unfold completeClaim
  refine Returns.bind (P := fun d' => d' = d) (Q := fun d₁ d' => d₁ = d ∧ d' = d)
    (R := fun _ _ => True) (Returns.directory fun d' hd' => ⟨hd', hd'⟩) (fun d₁ => ?_) d rfl
  refine Returns.bind (Q := fun record d' => record = r ∧ d' = d) (Returns.lift ?_)
    fun record => ?_
  · rintro d' ⟨rfl, rfl⟩
    exact ⟨r, loadExisting_eq_ok.mpr hload, rfl, rfl⟩
  · rintro d' ⟨rfl, rfl⟩
    by_cases hstate : record.state = requested
    · rw [if_pos hstate]
      -- A record that waits for its claim has no failure code.
      have hfailure := hr.failure
      unfold checkFailure at hfailure
      obtain ⟨-, hfailure⟩ := require_bind_eq_ok.mp hfailure
      obtain ⟨-, hfailure⟩ := require_bind_eq_ok.mp hfailure
      obtain ⟨hcarried, -⟩ := require_bind_eq_ok.mp hfailure
      have hready : Ready record claimed :=
        ⟨by rw [hstate]; decide, by decide, .inr (by_contra fun hsome => hcarried
          ⟨by rw [hstate]; decide, by rw [hstate]; decide, hsome⟩)⟩
      obtain ⟨u, hok, -⟩ := returns_transition (henv.drop 2) hready d' ⟨hintact, hload⟩
      exact ⟨u, hok, trivial⟩
    · rw [if_neg hstate]
      exact ⟨record, rfl, trivial⟩

/-- The journal stays intact and the identity stays recorded. -/
theorem intact_recorded_apply {i : Identity} (d : Directory) (w : Write)
    (hd : Intact d ∧ Recorded d i) (hw : GoodWrite d w) :
    Intact (w.apply d) ∧ Recorded (w.apply d) i :=
  ⟨hd.1.apply hw, hd.2.keeps ((Keeps.refl d).apply hw)⟩

/-- **`claim_dispatch` returns.** -/
theorem returns_claimDispatch {env : Env} (henv : env.Valid) (i : Identity) :
    Returns (fun d => Intact d ∧ Claimable d i) (claimDispatch env i) fun _ _ => True := by
  intro d hd
  have hvalid := hd.2.valid
  unfold claimDispatch
  refine Returns.bind (P := fun d => Intact d ∧ Claimable d i) (Q := fun identity d =>
    identity = i ∧ Intact d ∧ Claimable d i) (R := fun _ _ => True)
    (Returns.lift fun d' hd' => ⟨i, bind_eq_ok.mpr ⟨_, hvalid, rfl⟩, rfl, hd'⟩)
    (fun identity => ?_) d hd
  refine Returns.bind (Q := fun result d' => identity = i ∧ result.1.identity = i ∧ Intact d' ∧
    Recorded d' i) ?_ fun result => ?_
  · rintro d' ⟨rfl, hd'⟩
    obtain ⟨result, hresult, ⟨hload, hsame⟩, hintact⟩ := (returns_ensureRecord henv identity).keep
      (I := Intact) (fun d w hd hw => hd.apply hw) (journals_ensureRecord env hvalid) d'
      ⟨hd', trivial, hd'.1⟩
    exact ⟨result, hresult, rfl, hsame, hintact, result.1, hload, hsame⟩
  refine Returns.bind (Q := fun _ d' => Intact d' ∧ Recorded d' i) (Returns.lift ?_) fun _ => ?_
  · rintro d' ⟨rfl, hsame, hd'⟩
    exact ⟨(), require_eq_ok.mpr hsame, hd'⟩
  refine Returns.bind (Q := fun _ d' => Intact d' ∧ Recorded d' i) ?_ fun acquired => ?_
  · intro d' hd'
    obtain ⟨r, hload, hsame⟩ := hd'.2
    obtain ⟨acquired, hok, -, hkept⟩ := (returns_ensureMarker henv (i := i)).keep
      intact_recorded_apply (journals_ensureMarker env hsame d') d'
      ⟨hd', ⟨rfl, hload⟩, hd'⟩
    exact ⟨acquired, hok, hkept⟩
  · exact Returns.bind (Q := fun _ _ => True) (returns_completeClaim henv) fun _ =>
      Returns.pure fun _ _ => trivial

/-! ## Crashes -/

/-- What the first part of a claim has found, where it returned, and the write that it made. -/
theorem ensureRecord_eq_ok {env : Env} {i : Identity} {d : Directory}
    {result : JournalRecord × Bool} (h : (ensureRecord env i d).2 = .ok result) :
    load d i.dispatchEventHash = .ok (some result.1) ∧ (ensureRecord env i d).1 = [] ∨
      load d i.dispatchEventHash = .ok none ∧ d.keys.length ≤ maxDirectoryEntriesScanned ∧
        recordCount d < maxRecords ∧ ∃ now, (0 ≤ now ∧ now ≤ maxNumber) ∧
          (ensureRecord env i d).1 =
            [.create (recordName i.dispatchEventHash) (requestedRecord i now).bytes] := by
  unfold ensureRecord at h ⊢
  obtain ⟨d₁, hd₁, h, hwrites⟩ := Action.bind_eq_ok h
  obtain rfl : d = d₁ := Except.ok.inj hd₁
  obtain ⟨existing, hload, h, heq⟩ := Action.lift_bind_eq_ok h
  cases existing with
  | some r =>
    have hresult : (r, false) = result := Except.ok.inj h
    rw [← hresult]
    exact .inl ⟨hload, hwrites.trans (congrArg Prod.fst heq)⟩
  | none =>
    obtain ⟨u, hcapacity, h, heq'⟩ := Action.lift_bind_eq_ok h
    obtain ⟨now, hnow, h, heq''⟩ := Action.lift_bind_eq_ok h
    obtain ⟨content, hcontent, h, heq'''⟩ := Action.lift_bind_eq_ok h
    obtain ⟨hscan, hcount⟩ := ensureCapacity_eq_ok hcapacity
    obtain ⟨-, hrange⟩ := nowNs_eq_ok hnow
    obtain ⟨-, rfl⟩ := canonicalJsonBytes_eq_ok.mp hcontent
    refine .inr ⟨hload, hscan, hcount, now, hrange, hwrites.trans ?_⟩
    exact congrArg Prod.fst (heq.trans (heq'.trans (heq''.trans heq''')))

/-- What a claim that returned has found, and the first write that it made. -/
theorem claimDispatch_eq_ok {env : Env} {i : Identity} {d : Directory} {claim : JournalClaim}
    (h : (claimDispatch env i d).2 = .ok claim) :
    Claimable d i ∧ (Recorded d i ∨ ∃ now rest, (0 ≤ now ∧ now ≤ maxNumber) ∧
      (claimDispatch env i d).1 =
        .create (recordName i.dispatchEventHash) (requestedRecord i now).bytes :: rest) := by
  unfold claimDispatch at h ⊢
  obtain ⟨identity, hvalidated, h, heq⟩ := Action.lift_bind_eq_ok h
  obtain ⟨rfl, hvalid⟩ := validatedIdentity_eq_ok hvalidated
  obtain ⟨result, hrecord, h, hwrites⟩ := Action.bind_eq_ok h
  obtain ⟨u, hsame, -, -⟩ := Action.lift_bind_eq_ok h
  have hidentity := require_eq_ok.mp hsame
  rcases ensureRecord_eq_ok hrecord with ⟨hload, -⟩ | ⟨hnone, hscan, hcount, now, hnow, hfirst⟩
  · exact ⟨⟨hvalid, .inl ⟨_, hload, hidentity⟩⟩, .inl ⟨_, hload, hidentity⟩⟩
  · refine ⟨⟨hvalid, .inr ⟨(load_eq_ok_none.mp hnone).2, hscan, hcount⟩⟩, .inr ⟨now, ?_⟩⟩
    rw [hfirst] at hwrites
    exact ⟨_, hnow, (congrArg Prod.fst heq).trans hwrites⟩

/-- A write of the journal that creates the record of a valid identity. -/
theorem recorded_of_first {i : Identity} {d : Directory} {now : ℤ} {ws rest : List Write}
    (hvalid : (requestedRecord i 0).Valid) (hnow : 0 ≤ now ∧ now ≤ maxNumber)
    (hws : ws = .create (recordName i.dispatchEventHash) (requestedRecord i now).bytes :: rest)
    (hsteps : Steps GoodWrite d ws) (k : ℕ) : Recorded (applyAll (ws.take (k + 1)) d) i := by
  subst hws
  have hrecord := valid_requestedRecord hvalid hnow
  have hfirst : Recorded (Write.apply (.create (recordName i.dispatchEventHash)
      (requestedRecord i now).bytes) d) i :=
    ⟨requestedRecord i now, load_apply_record (r := requestedRecord i now) rfl rfl hrecord
      (length_bytes_le (rules_of_valid hrecord) rfl), rfl⟩
  rw [List.take_succ_cons, applyAll_cons]
  exact hfirst.keeps ((hsteps.2.take k).invariant (fun d w hd hw => hd.apply hw) (Keeps.refl _))

/-- A crash that is not inside a creation leaves the directory after some of the writes, up to a
temporary file. -/
theorem crash_cases {d : Directory} {ws : List Write} (hsteps : Steps GoodWrite d ws) {p : Point}
    (hp : Whole ws p) : ∃ k, crash ws d p = applyAll (ws.take k) d ∨
      (∃ temporary name content, ws[k]? = some (.replace temporary name content)) ∧
        ∃ name uuid content, crash ws d p =
          (applyAll (ws.take k) d).insert (temporaryName name uuid) content := by
  obtain ⟨k, hcrash | ⟨temporary, name, content, bytes, hw, hcrash⟩⟩ := crash_of_whole (d := d) hp
  · exact ⟨k, .inl hcrash⟩
  · refine ⟨k, .inr ⟨⟨temporary, name, content, hw⟩, ?_⟩⟩
    have hgood := hsteps.get hw
    cases hgood with
    | update r r' uuid hupdates hvalid hlen hload =>
      exact ⟨recordName r'.dispatchEventHash, uuid, _, hcrash⟩

theorem intact_crash {d : Directory} {ws : List Write} (hd : Intact d)
    (hsteps : Steps GoodWrite d ws) {p : Point} (hp : Whole ws p) : Intact (crash ws d p) := by
  have htaken : ∀ k, Intact (applyAll (ws.take k) d) := fun k =>
    (hsteps.take k).invariant (fun d w hd hw => hd.apply hw) hd
  obtain ⟨k, hcrash | ⟨-, name, uuid, content, hcrash⟩⟩ := crash_cases hsteps hp
  · rw [hcrash]
    exact htaken k
  · rw [hcrash]
    exact (htaken k).insert_temporary name uuid content

theorem keeps_crash {d : Directory} {ws : List Write} (hsteps : Steps GoodWrite d ws) {p : Point}
    (hp : Whole ws p) : Keeps d (crash ws d p) := by
  have htaken : ∀ k, Keeps d (applyAll (ws.take k) d) := fun k =>
    (hsteps.take k).invariant (fun d w hd hw => hd.apply hw) (Keeps.refl d)
  obtain ⟨k, hcrash | ⟨-, name, uuid, content, hcrash⟩⟩ := crash_cases hsteps hp
  · rw [hcrash]
    exact htaken k
  · rw [hcrash]
    exact (htaken k).trans (Keeps.insert_temporary _ name uuid content)

/-- **After a crash in a claim, the claim can be repeated.** -/
theorem claimable_crash {env : Env} {i : Identity} {d : Directory} {claim : JournalClaim}
    (hreturns : (claimDispatch env i d).2 = .ok claim) {p : Point}
    (hp : Whole (claimDispatch env i d).1 p) :
    Claimable (crash (claimDispatch env i d).1 d p) i := by
  obtain ⟨hclaim, hwrites⟩ := claimDispatch_eq_ok hreturns
  have hsteps := (journals_claimDispatch env i d d rfl).1
  generalize (claimDispatch env i d).1 = ws at hp hwrites hsteps
  rcases hwrites with hrecorded | ⟨now, rest, hnow, hws⟩
  · exact ⟨hclaim.valid, .inl (hrecorded.keeps (keeps_crash hsteps hp))⟩
  · obtain ⟨k, hcrash | ⟨⟨temporary, target, content', hreplace⟩, name, uuid, content, hcrash⟩⟩ :=
      crash_cases hsteps hp
    · rw [hcrash]
      cases k with
      | zero => exact hclaim
      | succ k => exact ⟨hclaim.valid, .inl (recorded_of_first hclaim.valid hnow hws hsteps k)⟩
    · rw [hcrash]
      cases k with
      | zero =>
        -- The first write is a creation.
        rw [hws] at hreplace
        cases hreplace
      | succ k =>
        exact ⟨hclaim.valid, .inl ((recorded_of_first hclaim.valid hnow hws hsteps k).keeps
          (Keeps.insert_temporary _ name uuid content))⟩

/-- A recovery leaves a claim as it was. -/
theorem Claimable.recovered {d d' : Directory} {i : Identity} (h : Claimable d i)
    (hk : Keeps d d') (hu : Unmoved d d') : Claimable d' i := by
  refine ⟨h.valid, ?_⟩
  rcases h.room with hrecorded | ⟨hnone, hscan, hcount⟩
  · exact .inl (Recorded.keeps hrecorded hk)
  · refine .inr ⟨?_, ?_, ?_⟩
    · by_contra hsome
      exact mem_keys_iff.mp (hu.keys.mem_iff.mp (mem_keys_iff.mpr hsome)) hnone
    · rw [hu.keys.length_eq]
      exact hscan
    · rw [hu.recordCount]
      exact hcount

/-! ## Torn files -/

/-- A record file that was cut stops the listing. -/
theorem not_listRecords_of_torn {d : Directory} {r : JournalRecord} {bytes : ℕ}
    (hr : RecordRules r) (hbytes : bytes < r.bytes.length)
    (hfile : d.lookup (recordName r.dispatchEventHash) = some (r.bytes.take bytes))
    (records : List JournalRecord) : listRecords d ≠ .ok records := by
  intro hok
  unfold listRecords boundedDirectoryNames at hok
  obtain ⟨names, hnames, hok⟩ := bind_eq_ok.mp hok
  obtain ⟨-, hnames⟩ := require_bind_eq_ok.mp hnames
  obtain rfl : d.keys = names := Except.ok.inj hnames
  obtain ⟨-, hok⟩ := require_bind_eq_ok.mp hok
  have hmem : r.dispatchEventHash ∈ (d.keys.filterMap hashOfName).mergeSort (· ≤ ·) := by
    refine List.mem_mergeSort.mpr (List.mem_filterMap.mpr ⟨recordName r.dispatchEventHash,
      mem_keys_iff.mpr ?_, hashOfName_eq_some.mpr ⟨hr.hash, rfl⟩⟩)
    rw [hfile]
    exact Option.some_ne_none _
  have hcall := List.mem_map_of_mem (f := loadExisting d) hmem
  rw [mapM_eq_ok.mp hok] at hcall
  obtain ⟨r', -, hload⟩ := List.mem_map.mp hcall
  obtain ⟨-, raw, hraw, hread⟩ := load_eq_ok_some (loadExisting_eq_ok.mp hload.symm)
  obtain rfl : r.bytes.take bytes = raw := Option.some.inj (hfile.symm.trans hraw)
  obtain ⟨e, herror⟩ := readJsonExact_cut recordKeys hbytes
  obtain ⟨v, hv, -⟩ := bind_eq_ok.mp hread
  exact absurd (herror.symm.trans hv) (by simp)

/-- The record file or the claim marker of a dispatch is the only file that is created. -/
def CreatesFor (h : String) (_ : Directory) (w : Write) : Prop :=
  ∀ name content, w = .create name content → name = recordName h ∨ name = claimName h

theorem creates_transition (h : String) (env : Env) (hash : String) (newState : JournalState)
    (expectedRevision : Option ℤ) (failureCode quarantineReason : Option String) :
    Triple (CreatesFor h) (fun _ => True)
      (transition env hash newState expectedRevision failureCode quarantineReason)
      fun _ _ => True := by
  unfold transition
  refine Triple.bind (Q := fun _ _ => True) (Triple.lift fun _ _ _ _ => trivial) fun hash => ?_
  refine Triple.bind (Q := fun _ _ => True) (Triple.lift fun _ _ _ _ => trivial) fun _ => ?_
  refine Triple.bind (Q := fun _ _ => True) (Triple.directory fun _ _ => trivial) fun d => ?_
  refine Triple.bind (Q := fun _ _ => True) (Triple.lift fun _ _ _ _ => trivial) fun current => ?_
  refine Triple.bind (Q := fun _ _ => True) (Triple.lift fun _ _ _ _ => trivial) fun _ => ?_
  refine Triple.bind (Q := fun _ _ => True) (Triple.lift fun _ _ _ _ => trivial) fun _ => ?_
  refine Triple.bind (Q := fun _ _ => True) (Triple.lift fun _ _ _ _ => trivial) fun updated => ?_
  refine Triple.bind (Q := fun _ _ => True) ?_ fun _ => Triple.pure fun _ _ => trivial
  unfold replaceRecord
  exact Triple.bind (Q := fun _ _ => True) (Triple.lift fun _ _ _ _ => trivial) fun content =>
    Triple.write fun d _ => ⟨fun name content hcreate => (by cases hcreate), trivial⟩

theorem creates_claimDispatch (env : Env) (i : Identity) :
    Triple (CreatesFor i.dispatchEventHash) (fun _ => True) (claimDispatch env i)
      fun _ _ => True := by
  unfold claimDispatch
  refine Triple.bind (Q := fun _ _ => True) (Triple.lift fun _ _ _ _ => trivial) fun identity => ?_
  refine Triple.bind (Q := fun _ _ => True) ?_ fun result => ?_
  · unfold ensureRecord
    refine Triple.bind (Q := fun _ _ => True) (Triple.directory fun _ _ => trivial) fun d => ?_
    refine Triple.bind (Q := fun _ _ => True) (Triple.lift fun _ _ _ _ => trivial)
      fun existing => ?_
    cases existing with
    | some record => exact Triple.pure fun _ _ => trivial
    | none =>
      refine Triple.bind (Q := fun _ _ => True) (Triple.lift fun _ _ _ _ => trivial) fun _ => ?_
      refine Triple.bind (Q := fun _ _ => True) (Triple.lift fun _ _ _ _ => trivial) fun now => ?_
      refine Triple.bind (Q := fun _ _ => True) (Triple.lift fun _ _ _ _ => trivial)
        fun content => ?_
      refine Triple.bind (Q := fun _ _ => True) (Triple.write fun d _ => ⟨?_, trivial⟩)
        fun _ => Triple.pure fun _ _ => trivial
      intro name content hcreate
      cases hcreate
      exact .inl rfl
  refine Triple.bind (Q := fun _ _ => True) (Triple.lift fun _ _ _ _ => trivial) fun _ => ?_
  refine Triple.bind (Q := fun _ _ => True) ?_ fun acquired => ?_
  · unfold ensureMarker
    refine Triple.bind (Q := fun _ _ => True) (Triple.lift fun _ _ _ _ => trivial) fun now => ?_
    refine Triple.bind (Q := fun _ _ => True) (Triple.lift fun _ _ _ _ => trivial)
      fun content => ?_
    refine Triple.bind (Q := fun _ _ => True) (Triple.directory fun _ _ => trivial) fun d => ?_
    refine Triple.bind (Q := fun _ _ => True) (Triple.lift fun _ _ _ _ => trivial)
      fun stored => ?_
    cases stored with
    | some marker =>
      exact Triple.bind (Q := fun _ _ => True) (Triple.lift fun _ _ _ _ => trivial) fun _ =>
        Triple.pure fun _ _ => trivial
    | none =>
      refine Triple.bind (Q := fun _ _ => True) (Triple.write fun d _ => ⟨?_, trivial⟩)
        fun _ => Triple.pure fun _ _ => trivial
      intro name content hcreate
      cases hcreate
      exact .inr rfl
  refine Triple.bind (Q := fun _ _ => True) ?_ fun record => Triple.pure fun _ _ => trivial
  unfold completeClaim
  refine Triple.bind (Q := fun _ _ => True) (Triple.directory fun _ _ => trivial) fun d => ?_
  refine Triple.bind (Q := fun _ _ => True) (Triple.lift fun _ _ _ _ => trivial) fun record => ?_
  split
  · exact creates_transition _ _ _ _ _ _ _
  · exact Triple.pure fun _ _ => trivial

/-- A claim that returned has read the marker, if there was one. -/
theorem readMarker_of_claimDispatch {env : Env} {i : Identity} {d : Directory}
    {claim : JournalClaim} (h : (claimDispatch env i d).2 = .ok claim) :
    ∃ stored, readMarker d i.dispatchEventHash = .ok stored := by
  unfold claimDispatch at h
  obtain ⟨identity, -, h, -⟩ := Action.lift_bind_eq_ok h
  obtain ⟨result, hrecord, h, -⟩ := Action.bind_eq_ok h
  obtain ⟨u, -, h, -⟩ := Action.lift_bind_eq_ok h
  obtain ⟨acquired, hmarker, -, -⟩ := Action.bind_eq_ok h
  unfold ensureMarker at hmarker
  obtain ⟨now, -, hmarker, -⟩ := Action.lift_bind_eq_ok hmarker
  obtain ⟨content, -, hmarker, -⟩ := Action.lift_bind_eq_ok hmarker
  obtain ⟨d₁, hd₁, hmarker, -⟩ := Action.bind_eq_ok hmarker
  obtain rfl := Except.ok.inj hd₁
  obtain ⟨stored, hread, -, -⟩ := Action.lift_bind_eq_ok hmarker
  refine ⟨stored, ?_⟩
  -- The record that was written has another name.
  rcases ensureRecord_eq_ok hrecord with ⟨-, hnil⟩ | ⟨-, -, -, now', -, hone⟩
  · rw [hnil] at hread
    exact hread
  · rw [hone] at hread
    have hsame : (applyAll [.create (recordName i.dispatchEventHash)
        (requestedRecord i now').bytes] d).lookup (claimName i.dispatchEventHash) =
        d.lookup (claimName i.dispatchEventHash) :=
      AList.lookup_insert_ne (recordName_ne_claimName _ _).symm
    have hread' : readMarker (applyAll [.create (recordName i.dispatchEventHash)
        (requestedRecord i now').bytes] d) i.dispatchEventHash = .ok stored := hread
    unfold readMarker at hread' ⊢
    rw [hsame] at hread'
    exact hread'

end VerifierJournal
