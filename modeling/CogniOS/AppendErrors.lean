/-
# What the errors of an append say

A caller decides from the exception alone whether to retry an append or to reconcile it.

* `Tells` : any exception but `IndeterminateCommit` leaves the files as they were;
* `append_tells_iff` : one read of `append` breaks this where it fails.
-/
import CogniOS.AppendOutcome

namespace LedgerStore

open LedgerV2 (Authority canonicalJsonBytes requireIdentifier requireSha256 validateV2Envelope
  verifyV2Chain)
open Utf8 (lf)

variable {h : Hasher} {a : Authority} {reprs : FloatLit → Bool}

/-! ## Errors that are marked -/

/-- Every error is an `IndeterminateCommit` of the transaction, which the process remembers. -/
def Marked (txId : Json) (out : Except StoreError DurableAppend × Store) : Prop :=
  ∀ e, out.1 = .error e → (∃ phase, e = .indeterminate txId phase) ∧ txId ∈ out.2.indeterminate

/-- An exception that is not `IndeterminateCommit` comes with the files as they were; and where
they have changed, the exception is `IndeterminateCommit` and the process remembers the
transaction. -/
def Tells (s : Store) (txId : Json) (out : Except StoreError DurableAppend × Store) : Prop :=
  ∀ e, out.1 = .error e →
    ((∀ tx phase, e ≠ .indeterminate tx phase) → out.2.log = s.log ∧ out.2.journal = s.journal) ∧
    (out.2.log ≠ s.log ∨ out.2.journal ≠ s.journal →
      (∃ phase, e = .indeterminate txId phase) ∧ txId ∈ out.2.indeterminate)

theorem Marked.tells {s : Store} {txId : Json} {out : Except StoreError DurableAppend × Store}
    (hm : Marked txId out) : Tells s txId out := by
  intro e he
  obtain ⟨⟨phase, rfl⟩, hmem⟩ := hm e he
  exact ⟨fun hother => absurd rfl (hother txId phase), fun _ => ⟨⟨phase, rfl⟩, hmem⟩⟩

theorem tells_of_same {s : Store} {txId : Json} {out : Except StoreError DurableAppend × Store}
    (hlog : out.2.log = s.log) (hjournal : out.2.journal = s.journal) : Tells s txId out := by
  intro e _
  refine ⟨fun _ => ⟨hlog, hjournal⟩, fun hchanged => ?_⟩
  rcases hchanged with hchanged | hchanged
  · exact absurd hlog hchanged
  · exact absurd hjournal hchanged

theorem marked_indeterminate (s : Store) (txId : Json) (phase : String) :
    Marked txId (.error (.indeterminate txId phase), s.mark txId) := by
  intro e he
  obtain rfl := Except.error.inj he
  exact ⟨⟨phase, rfl⟩, Finset.mem_insert_self _ _⟩

theorem marked_ok (s : Store) (txId : Json) (result : DurableAppend) :
    Marked txId (.ok result, s) := fun e he => by cases he

/-! ## The steps -/

section Steps

variable {faults : AppendFaults} {s : Store} {txId : Json} {plan : Plan}

/-- Once the COMMIT is made, every error is marked. -/
theorem appendCommit_marked {commit : Json}
    (hmade : (reading faults.journalAfterEvent (readJournal h a reprs s.journal) >>=
      makeCommit h plan.prepare) = .ok commit) :
    Marked txId (appendCommit h a reprs faults s txId plan) := by
  unfold appendCommit
  simp only [hmade]
  split
  · exact marked_indeterminate _ txId "commit"
  · split
    · exact marked_indeterminate _ txId "postcheck"
    · exact marked_ok _ txId _

/-- Between PREPARE and COMMIT every error is marked. -/
theorem appendEvent_marked
    (hcommit : faults.event = none → faults.logAfterEvent = false →
      s.log.length + plan.record.length ≤ maxStoreBytes →
      Marked txId (appendCommit h a reprs faults { s with log := s.log ++ plan.record } txId plan)) :
    Marked txId (appendEvent h a reprs faults s txId plan) := by
  unfold appendEvent
  rcases appendRecord_cases faults.event s.log plan.record maxStoreBytes "Ledger v2 event append"
    with ⟨hfault, hroom, hwritten⟩ | ⟨e, n, -, hwritten⟩
  · simp only [hwritten]
    cases hlog : faults.logAfterEvent with
    | false =>
      split
      · exact marked_indeterminate _ txId "event"
      · exact hcommit hfault hlog hroom
    | true => exact marked_indeterminate _ txId "event"
  · simp only [hwritten]
    exact marked_indeterminate _ txId "event"

/-- Where the PREPARE fails, an error that is not marked is one with the files as they were. -/
theorem prepareFailed_tells {H : History} (hH : Shows h a reprs s H false)
    (haudit : plan.audit = H.audit h) (s' : Store) :
    Tells s txId (prepareFailed h a reprs faults s' txId plan) := by
  unfold prepareFailed
  simp only
  split
  · rename_i hobserved
    obtain ⟨audit, hread, rfl⟩ : ∃ audit, readCombined h a reprs faults.rereadLog
        faults.rereadJournal s' true ∅ = .ok audit ∧ audit = plan.audit := by
      cases hread : readCombined h a reprs faults.rereadLog faults.rereadJournal s' true ∅ with
      | error e => rw [hread] at hobserved; cases hobserved
      | ok audit => rw [hread] at hobserved; exact ⟨audit, rfl, Option.some.inj hobserved⟩
    obtain ⟨-, -, -, H', hH', hsame⟩ := readCombined_eq_ok.mp hread
    rw [haudit] at hsame
    -- Both files are the lines of the documents of the audit.
    have henvelopes : H.envelopes = H'.envelopes :=
      congrArg (fun audit : Audit => audit.ledger.envelopes) hsame
    have hentries : H.entries = H'.entries :=
      congrArg (fun audit : Audit => audit.journal.entries) hsame
    refine tells_of_same ?_ ?_
    · show s'.log = s.log
      rw [hH'.log.bytes, hH.log.bytes, henvelopes]
    · show s'.journal = s.journal
      rw [hH'.journal.bytes, hH.journal.bytes, hentries]
  · exact (marked_indeterminate _ txId "prepare").tells

end Steps

/-! ## The call -/

/-- The call stops before it reads the journal after the event: at one of its checks, at the
limits of the journal, at its PREPARE, its event, or the read of the log. -/
def StopsBefore (h : Hasher) (a : Authority) (reprs : FloatLit → Bool) (faults : AppendFaults)
    (s : Store) (envelope txId expectedHead expectedSequence : Json) : Prop :=
  ∀ plan, checkAppend h a reprs faults s envelope txId expectedHead expectedSequence =
      .ok (.fresh plan) →
    faults.prepare ≠ none ∨ faults.event ≠ none ∨ faults.logAfterEvent = true ∨
      LedgerV2.maxDocumentBytes < plan.prepare.encoding.length ∨
      maxJournalBytes < s.journal.length + (lineOf plan.prepare).length

section Call

variable {faults : AppendFaults} {s : Store} {H : History} {plan : Plan}
  {envelope txId expectedHead expectedSequence : Json}

/-- The files after the PREPARE of an append. -/
theorem Fresh.shows_prepare
    (hf : Fresh h a reprs s H envelope txId expectedHead expectedSequence plan)
    (hwell : envelope.WellFormed) (hfloats : envelope.floatsAll reprs = true)
    (hfits : Fits s.journal plan.prepare maxJournalBytes) :
    plan.prepare.get "envelope" = envelope ∧ plan.record = lineOf envelope ∧
      Extending h a { H with pending := some plan.prepare } plan.prepare ∧
      Shows h a reprs { s with journal := s.journal ++ lineOf plan.prepare }
        { H with pending := some plan.prepare } false := by
  have hdocument : plan.document = envelope :=
    Option.some.inj (hf.document.symm.trans (Json.loads_encoding Json.keepsSorted_lastWins hwell))
  have hc := hf.candidate (by rw [hdocument]) (by rw [hdocument]; exact hfloats)
  have hplan := hf.prepare_eq (by rw [hdocument])
  have hx := hc.extending hf.extends'
  obtain ⟨hsize, hroom⟩ := hfits
  rw [hplan] at hsize hroom ⊢
  exact ⟨hdocument, hf.record, hx, hf.shows.prepare hc hsize hroom⟩

/-- The files after the event of an append. -/
theorem Fresh.shows_event
    (hf : Fresh h a reprs s H envelope txId expectedHead expectedSequence plan)
    (hwell : envelope.WellFormed) (hfloats : envelope.floatsAll reprs = true)
    (hfits : Fits s.journal plan.prepare maxJournalBytes) :
    ∃ report, plan.record = lineOf (plan.prepare.get "envelope") ∧
      s.log.length + plan.record.length ≤ maxStoreBytes ∧
      plan.prepare.get "expected_sequence" = .int (H.envelopes.length + 1) ∧
      Shows h a reprs
        { s with log := s.log ++ plan.record, journal := s.journal ++ lineOf plan.prepare }
        (({ H with pending := some plan.prepare } : History).extended plan.prepare report)
        false := by
  obtain ⟨henvelope, hrecord, hx, hH⟩ := hf.shows_prepare hwell hfloats hfits
  obtain ⟨report, hverified⟩ := hx.verified
  rw [← henvelope] at hrecord
  refine ⟨report, hrecord, hf.room, hx.sequence, ?_⟩
  rw [hrecord]
  exact hH.event hx hverified

/-- Where the read of the journal after the event does not fail, the COMMIT is made. -/
theorem Fresh.makes_commit
    (hf : Fresh h a reprs s H envelope txId expectedHead expectedSequence plan)
    (hwell : envelope.WellFormed) (hfloats : envelope.floatsAll reprs = true)
    (hfits : Fits s.journal plan.prepare maxJournalBytes) :
    ∃ commit, (reading false (readJournal h a reprs (s.journal ++ lineOf plan.prepare)) >>=
      makeCommit h plan.prepare) = .ok commit := by
  obtain ⟨report, -, -, hsequence, hH⟩ := hf.shows_event hwell hfloats hfits
  refine ⟨_, makeCommit_of_shows hH rfl ?_⟩
  rw [hsequence]
  simp [History.extended]

theorem append_of_fresh
    (hadmitted : checkAppend h a reprs faults s envelope txId expectedHead expectedSequence =
      .ok (.fresh plan)) :
    append h a reprs faults s envelope txId expectedHead expectedSequence =
      appendPrepare h a reprs faults s txId plan := by
  unfold append
  rw [hadmitted]

/-- The call tells where it stops before that read, or the read does not fail. -/
theorem append_tells (hwell : envelope.WellFormed) (hfloats : envelope.floatsAll reprs = true)
    (hread : faults.journalAfterEvent = false ∨
      StopsBefore h a reprs faults s envelope txId expectedHead expectedSequence) :
    Tells s txId (append h a reprs faults s envelope txId expectedHead expectedSequence) := by
  cases hadmitted : checkAppend h a reprs faults s envelope txId expectedHead expectedSequence with
  | error e =>
    unfold append
    rw [hadmitted]
    exact tells_of_same rfl rfl
  | ok admission =>
    cases admission with
    | existing result =>
      unfold append
      rw [hadmitted]
      exact tells_of_same rfl rfl
    | fresh plan =>
      obtain ⟨-, -, H, hf⟩ := checkAppend_eq_fresh.mp hadmitted
      rw [append_of_fresh hadmitted]
      unfold appendPrepare
      rcases appendDocument_cases faults.prepare s.journal plan.prepare maxJournalBytes
        "Ledger v2 journal PREPARE" with ⟨hprepare, hfits, hwritten⟩ | ⟨e, n, -, hwritten⟩
      · simp only [hwritten]
        refine (appendEvent_marked fun hevent hlog hlogRoom => ?_).tells
        have hjournal : faults.journalAfterEvent = false := by
          rcases hread with hread | hstops
          · exact hread
          · rcases hstops plan hadmitted with hfault | hfault | hfault | hfault | hfault
            · exact absurd hprepare hfault
            · exact absurd hevent hfault
            · rw [hlog] at hfault; cases hfault
            · exact absurd hfits.size (not_le.mpr hfault)
            · exact absurd hfits.room (not_le.mpr hfault)
        obtain ⟨commit, hcommit⟩ := hf.makes_commit hwell hfloats hfits
        exact appendCommit_marked (by rw [hjournal]; exact hcommit)
      · simp only [hwritten]
        exact prepareFailed_tells hf.shows hf.audit _

/-- A call that nothing stops before its COMMIT. -/
theorem append_eq_appendCommit (hwell : envelope.WellFormed)
    (hfloats : envelope.floatsAll reprs = true)
    (hadmitted : checkAppend h a reprs faults s envelope txId expectedHead expectedSequence =
      .ok (.fresh plan))
    (hprepare : faults.prepare = none) (hevent : faults.event = none)
    (hlog : faults.logAfterEvent = false) (hfits : Fits s.journal plan.prepare maxJournalBytes) :
    append h a reprs faults s envelope txId expectedHead expectedSequence =
      appendCommit h a reprs faults
        { s with log := s.log ++ plan.record, journal := s.journal ++ lineOf plan.prepare }
        txId plan := by
  obtain ⟨-, -, H, hf⟩ := checkAppend_eq_fresh.mp hadmitted
  obtain ⟨report, hrecord, hlogRoom, hsequence, hH⟩ := hf.shows_event hwell hfloats hfits
  have hwritten : appendDocument faults.prepare s.journal plan.prepare maxJournalBytes
      "Ledger v2 journal PREPARE" = (.ok (), s.journal ++ lineOf plan.prepare) := by
    rw [hprepare]
    exact appendDocument_none _ hfits.size hfits.room
  have hwrittenEvent : appendRecord faults.event s.log plan.record maxStoreBytes
      "Ledger v2 event append" = (.ok (), s.log ++ plan.record) := by
    rw [hevent]
    exact appendRecord_none _ hlogRoom
  have hpresent : plan.prepare.get "expected_sequence" = .int
      (({ H with pending := some plan.prepare } : History).extended plan.prepare
        report).envelopes.length := by
    rw [hsequence]
    simp [History.extended]
  have hmatches := matches_requested hH (p := plan.prepare) rfl (b := H.envelopes) rfl hpresent
  have hchecked : (do
      Except.ok ()
      let after ← reading false (readLedger h a reprs (s.log ++ plan.record))
      requireSnapshotMatchesPrepare after plan.prepare true : Except CogniError Unit) = .ok () :=
    bind_eq_ok.mpr ⟨(), rfl, bind_eq_ok.mpr ⟨_, readLedger_of_shows hH, hmatches⟩⟩
  rw [append_of_fresh hadmitted]
  unfold appendPrepare
  simp only [hwritten]
  unfold appendEvent
  simp only [hwrittenEvent, hlog, hchecked]

/-- Where the call reads the journal after the event and the read fails, the event is in the log
and the exception is not `IndeterminateCommit`. -/
theorem not_tells_of_read (hwell : envelope.WellFormed)
    (hfloats : envelope.floatsAll reprs = true)
    (hadmitted : checkAppend h a reprs faults s envelope txId expectedHead expectedSequence =
      .ok (.fresh plan))
    (hprepare : faults.prepare = none) (hevent : faults.event = none)
    (hlog : faults.logAfterEvent = false) (hjournal : faults.journalAfterEvent = true)
    (hfits : Fits s.journal plan.prepare maxJournalBytes) :
    ¬Tells s txId (append h a reprs faults s envelope txId expectedHead expectedSequence) := by
  obtain ⟨-, -, H, hf⟩ := checkAppend_eq_fresh.mp hadmitted
  have happend := append_eq_appendCommit hwell hfloats hadmitted hprepare hevent hlog hfits
  intro htells
  rw [happend] at htells
  unfold appendCommit at htells
  simp only [hjournal] at htells
  have hsame := ((htells _ rfl).1 fun tx phase => by simp).1
  have hlen : (s.log ++ plan.record).length = s.log.length := congrArg List.length hsame
  have hline : plan.record.length = envelope.encoding.length + 1 := by
    rw [hf.record, List.length_append]
    rfl
  rw [List.length_append] at hlen
  omega

end Call

/-- **What the exception of an append tells.**  It tells the truth exactly where the read of the
journal after the event does not fail, or the call has stopped before it. -/
theorem append_tells_iff (h : Hasher) (a : Authority) (reprs : FloatLit → Bool)
    (faults : AppendFaults) (s : Store) (envelope txId expectedHead expectedSequence : Json)
    (hwell : envelope.WellFormed) (hfloats : envelope.floatsAll reprs = true) :
    Tells s txId (append h a reprs faults s envelope txId expectedHead expectedSequence) ↔
      faults.journalAfterEvent = false ∨
        StopsBefore h a reprs faults s envelope txId expectedHead expectedSequence := by
  constructor
  · intro htells
    cases hjournal : faults.journalAfterEvent with
    | false => exact .inl rfl
    | true =>
      refine .inr fun plan hadmitted => ?_
      by_contra hreaches
      simp only [not_or, not_not, not_lt, Bool.not_eq_true] at hreaches
      obtain ⟨hprepare, hevent, hlog, hsize, hroom⟩ := hreaches
      exact not_tells_of_read hwell hfloats hadmitted hprepare hevent hlog hjournal ⟨hsize, hroom⟩ htells
  · exact append_tells hwell hfloats

/-! ## A call whose read fails -/

/-- Only the read of the journal after the event fails. -/
def journalReadFails : AppendFaults := { AppendFaults.none with journalAfterEvent := true }

/-- The call on an empty store is admitted where its first reads do not fail. -/
theorem checkAppend_first (faults : AppendFaults) (hlogRead : faults.readLog = false)
    (hjournalRead : faults.readJournal = false) :
    ∃ plan, checkAppend sha256 LedgerV2.sampleAuthority (fun _ => true) faults Store.empty firstEnvelope
      (.str "tx-1") (.str LedgerV2.genesisHash) (.int 1) = .ok (.fresh plan) ∧
    plan.prepare.encoding.length ≤ LedgerV2.maxDocumentBytes ∧
    Store.empty.journal.length + (lineOf plan.prepare).length ≤ maxJournalBytes := by
  obtain ⟨-, H, hH, haudit⟩ := request_first.shows
  have hr := request_first
  have hlen := prepareLength_first
  have hevents := farBelow_empty.events
  rw [haudit] at hr hlen hevents
  have hsize := length_prepareFor hH hr
  have hlog : Store.empty.log.length + (lineOf firstEnvelope).length ≤ maxStoreBytes := by
    have hline := (validateV2Envelope_exact hr.valid).2.2
    have hmax : LedgerV2.maxDocumentBytes + 1 ≤ maxStoreBytes := by decide
    have hempty : Store.empty.log.length = 0 := rfl
    rw [length_lineOf, hempty]
    omega
  refine ⟨_, checkAppend_eq_fresh.mpr ⟨hlogRead, hjournalRead, H, hr.fresh hH hlog hevents hlen⟩, ?_, ?_⟩
  · exact hsize.trans_le hlen
  · have hempty : Store.empty.journal.length = 0 := rfl
    rw [length_lineOf, hempty]
    have hprepare : (planOf sha256 H firstEnvelope (.str "tx-1")).prepare.encoding.length ≤
        LedgerV2.maxDocumentBytes := hsize.trans_le hlen
    have hmax : LedgerV2.maxDocumentBytes + 1 ≤ maxJournalBytes := by decide
    omega

/-- One failing read is enough: the event is in the log, and the caller is not told. -/
theorem append_tells_fails :
    ¬∀ (h : Hasher) (a : Authority) (reprs : FloatLit → Bool) (faults : AppendFaults) (s : Store)
      (envelope txId expectedHead expectedSequence : Json), envelope.WellFormed →
      envelope.floatsAll reprs = true →
      Tells s txId (append h a reprs faults s envelope txId expectedHead expectedSequence) := by
  intro hall
  obtain ⟨plan, hadmitted, hsize, hroom⟩ := checkAppend_first journalReadFails rfl rfl
  have hfits : Fits Store.empty.journal plan.prepare maxJournalBytes := ⟨hsize, hroom⟩
  have htells := hall sha256 LedgerV2.sampleAuthority (fun _ => true) journalReadFails Store.empty
    firstEnvelope (.str "tx-1") (.str LedgerV2.genesisHash) (.int 1) request_first.wellFormed
    request_first.floats
  exact not_tells_of_read request_first.wellFormed request_first.floats hadmitted rfl rfl rfl rfl
    hfits htells

/-- The call with that read failing, and the call with nothing failing. -/
theorem append_tells_iff_first :
    ¬Tells Store.empty (.str "tx-1") (append sha256 LedgerV2.sampleAuthority (fun _ => true)
        journalReadFails Store.empty firstEnvelope (.str "tx-1") (.str LedgerV2.genesisHash)
        (.int 1)) ∧
      Tells Store.empty (.str "tx-1") (append sha256 LedgerV2.sampleAuthority (fun _ => true)
        .none Store.empty firstEnvelope (.str "tx-1") (.str LedgerV2.genesisHash) (.int 1)) := by
  constructor
  · rw [append_tells_iff _ _ _ _ _ _ _ _ _ request_first.wellFormed request_first.floats]
    rintro (hread | hstops)
    · cases hread
    · obtain ⟨plan, hadmitted, hsize, hroom⟩ := checkAppend_first journalReadFails rfl rfl
      rcases hstops plan hadmitted with hfault | hfault | hfault | hfault | hfault
      · exact hfault rfl
      · exact hfault rfl
      · cases hfault
      · omega
      · omega
  · exact (append_tells_iff _ _ _ _ _ _ _ _ _ request_first.wellFormed request_first.floats).mpr
      (.inl rfl)

end LedgerStore
