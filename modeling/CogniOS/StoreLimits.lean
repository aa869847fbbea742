/-
# Transactions that can be completed

Runs whose faults leave whole lines in the files.  A transaction that such a run leaves pending
can be reconciled where its COMMIT still fits the journal.

* `Awaiting`, `Recoverable` : the state of a store between two calls;
* `recoverable_run` : every run that leaves room for its COMMIT records keeps it;
* `reconcile_run` : one call of `reconcile_transaction` then completes what is pending.
-/
import CogniOS.AppendErrors

namespace LedgerStore

open LedgerV2 (Authority canonicalJsonBytes requireIdentifier requireSha256 validateV2Envelope
  verifyV2Chain)
open Utf8 (lf)

variable {h : Hasher} {a : Authority} {reprs : FloatLit → Bool}

/-! ## Pending transactions -/

/-- The event of the pending PREPARE is the last of the log. -/
structure Present (H : History) (p : Json) : Prop where
  sequence : p.get "expected_sequence" = .int H.envelopes.length
  last : ∃ before, H.envelopes = before ++ [p.get "envelope"]

/-- A pending transaction that this process or another one can complete. -/
structure Awaiting (h : Hasher) (a : Authority) (reprs : FloatLit → Bool) (s : Store)
    (H : History) (p : Json) : Prop where
  shows : Shows h a reprs s H false
  pending : H.pending = some p
  process : s.indeterminate ⊆ {p.get "tx_id"}
  state : Extending h a H p ∨ Present H p
  room : s.journal.length + (lineOf (H.commitFor h p)).length ≤ maxJournalBytes

/-- The files can be read, and what is pending can be completed. -/
def Recoverable (h : Hasher) (a : Authority) (reprs : FloatLit → Bool) (s : Store) : Prop :=
  ∃ H, Shows h a reprs s H false ∧ ∀ p, H.pending = some p → Awaiting h a reprs s H p

/-- Both files are whole lines. -/
def Whole (s : Store) : Prop :=
  (∃ es, (∀ e ∈ es, e.WellFormed) ∧ s.log = linesOf es) ∧
    ∃ entries, (∀ e ∈ entries, e.WellFormed) ∧ s.journal = linesOf entries

/-- The files of a history are whole lines. -/
theorem Shows.whole {s : Store} {H : History} {clean : Bool} (hH : Shows h a reprs s H clean) :
    Whole s :=
  ⟨⟨H.envelopes, hH.wellFormed_envelopes, hH.log.bytes⟩, H.entries, hH.wellFormed_entries,
    hH.journal.bytes⟩

theorem Awaiting.recoverable {s : Store} {H : History} {p : Json}
    (hw : Awaiting h a reprs s H p) : Recoverable h a reprs s := by
  refine ⟨H, hw.shows, fun q hq => ?_⟩
  obtain rfl := Option.some.inj (hw.pending.symm.trans hq)
  exact hw

theorem recoverable_of_settled {s : Store} {H : History} (hH : Shows h a reprs s H false)
    (hsettled : H.pending = none) : Recoverable h a reprs s := by
  refine ⟨H, hH, fun p hp => ?_⟩
  rw [hsettled] at hp
  cases hp

/-- Files that have not changed, in a process that may have forgotten or marked the
transaction. -/
theorem Recoverable.congr {s s' : Store} (hs : Recoverable h a reprs s) (hlog : s'.log = s.log)
    (hjournal : s'.journal = s.journal)
    (hprocess : ∀ H p, Shows h a reprs s H false → H.pending = some p →
      s.indeterminate ⊆ {p.get "tx_id"} → s'.indeterminate ⊆ {p.get "tx_id"}) :
    Recoverable h a reprs s' := by
  obtain ⟨H, hH, hpending⟩ := hs
  refine ⟨H, hH.congr hlog hjournal, fun p hp => ?_⟩
  have hw := hpending p hp
  exact ⟨hH.congr hlog hjournal, hp, hprocess H p hH hp hw.process, hw.state, by
    rw [hjournal]; exact hw.room⟩

/-! ## What a step leaves of a pending transaction -/

section Steps

variable {s : Store} {H : History} {p : Json}

/-- The COMMIT is the same before and after the event. -/
theorem commitFor_extended (h : Hasher) (H : History) (p : Json) (report : LedgerV2.ChainReport) :
    (H.extended p report).commitFor h p = H.commitFor h p := rfl

/-- After an event, whole or not at all. -/
theorem Awaiting.after_event (hw : Awaiting h a reprs s H p) (hx : Extending h a H p)
    {s' : Store} {n : ℕ} (hlog : s'.log = s.log ++ (lineOf (p.get "envelope")).take n)
    (hjournal : s'.journal = s.journal) (hprocess : s'.indeterminate ⊆ {p.get "tx_id"})
    (hwhole : Whole s') : Recoverable h a reprs s' := by
  obtain ⟨⟨es, hes, hesEq⟩, -⟩ := hwhole
  rw [hlog, hw.shows.log.bytes] at hesEq
  have henvelope := (hx.line hw.shows).wellFormed
  rcases eq_of_cut_lineOf henvelope hw.shows.wellFormed_envelopes hes hesEq.symm with rfl | rfl
  · have hsame : s'.log = s.log := by rw [hlog, hw.shows.log.bytes, hesEq]
    have hH' := hw.shows.congr hsame hjournal
    exact Awaiting.recoverable ⟨hH', hw.pending, hprocess, .inl hx, by rw [hjournal]; exact hw.room⟩
  · obtain ⟨report, hverified⟩ := hx.verified
    have hadded : s'.log = s.log ++ lineOf (p.get "envelope") := by
      rw [hlog, hw.shows.log.bytes, hesEq, linesOf_snoc_lineOf]
    have hH' : Shows h a reprs s' (H.extended p report) false :=
      (hw.shows.event hx hverified).congr hadded hjournal
    refine Awaiting.recoverable ⟨hH', hw.pending, hprocess, .inr ⟨?_, H.envelopes, rfl⟩, ?_⟩
    · rw [hx.sequence]
      simp [History.extended]
    · rw [commitFor_extended, hjournal]
      exact hw.room

/-- After a COMMIT, whole or not at all. -/
theorem Awaiting.after_commit {txId envelope : Json} (hw : Awaiting h a reprs s H p)
    (hpresent : Present H p) {out : Except StoreError DurableAppend × Store}
    (hstep : CommitStep h a reprs s txId p envelope out) (htx : p.get "tx_id" = txId)
    (hwhole : Whole out.2) : Recoverable h a reprs out.2 := by
  obtain ⟨n, previous, k, hprevious, hjournal, hmade, -⟩ := hstep.journal
  obtain ⟨-, entries, hentries, hentriesEq⟩ := hwhole
  have hprocess : out.2.indeterminate ⊆ {p.get "tx_id"} := by
    refine hstep.process.trans (Finset.insert_subset ?_ hw.process)
    rw [htx]
    exact Finset.mem_singleton_self txId
  have hunchanged : out.2.journal = s.journal → Recoverable h a reprs out.2 := fun hsame =>
    Awaiting.recoverable ⟨hw.shows.congr hstep.log hsame, hw.pending, hprocess, .inr hpresent, by
      rw [hsame]; exact hw.room⟩
  by_cases hk : 0 < k
  · obtain ⟨⟨journal, hread, rfl, rfl⟩, -⟩ := hmade hk
    obtain rfl := Except.ok.inj ((readJournal_of_shows hw.shows).symm.trans hread)
    have hcommit : commitRecord h p ((journalOf h H.entries H.chain).entryCount + 1)
        (journalOf h H.entries H.chain).headHash = H.commitFor h p := rfl
    rw [hcommit] at hjournal
    rw [hjournal, hw.shows.journal.bytes] at hentriesEq
    have hwell : (H.commitFor h p).WellFormed :=
      wellFormed_commitRecord h p _ _ (hw.shows.pendingRecord hw.pending).1.wellFormed
        (wellFormed_lastHash hw.shows.wellFormed_entries)
    rcases eq_of_cut_lineOf hwell hw.shows.wellFormed_entries hentries hentriesEq.symm with
      rfl | rfl
    · exact hunchanged (by rw [hjournal, hw.shows.journal.bytes, hentriesEq])
    · have hadded : out.2.journal = s.journal ++ lineOf (H.commitFor h p) := by
        rw [hjournal, hw.shows.journal.bytes, hentriesEq, linesOf_snoc_lineOf]
      have hH' := (hw.shows.commit hw.pending hpresent.sequence hw.room).congr hstep.log hadded
      exact recoverable_of_settled (Shows.clean_iff.mp hH').1 rfl
  · obtain rfl : k = 0 := by omega
    exact hunchanged (by rw [hjournal, List.take_zero, List.append_nil])

end Steps

/-! ## Runs that leave room for a COMMIT -/

/-- The envelopes of a call are documents as `json.dumps` writes them. -/
def Call.Written (reprs : FloatLit → Bool) : Call → Prop
  | .append _ envelope _ _ _ => envelope.WellFormed ∧ envelope.floatsAll reprs = true
  | _ => True

/-- A PREPARE that fits the journal is written only where the COMMIT after it fits as well. -/
def Call.LeavesRoom (h : Hasher) (a : Authority) (reprs : FloatLit → Bool) (s : Store) :
    Call → Prop
  | .append faults envelope txId expectedHead expectedSequence => ∀ plan,
      checkAppend h a reprs faults s envelope txId expectedHead expectedSequence = .ok (.fresh plan) →
      Fits s.journal plan.prepare maxJournalBytes →
      s.journal.length + (lineOf plan.prepare).length +
        (commitLength txId ((envelope.get "event").get "ledger_id") expectedSequence
          (.int (s.log.length + envelope.encoding.length + 1))
          (plan.audit.journal.entryCount + 2) + 1) ≤ maxJournalBytes
  | _ => True

section Runs

variable {s : Store}

/-- The COMMIT of a new transaction is as long as was reckoned. -/
theorem length_commitFor_prepare {H : History} {plan : Plan}
    {envelope txId expectedHead expectedSequence : Json}
    (hf : Fresh h a reprs s H envelope txId expectedHead expectedSequence plan)
    (hwell : envelope.WellFormed) (hfloats : envelope.floatsAll reprs = true)
    (hfits : Fits s.journal plan.prepare maxJournalBytes) :
    (lineOf (({ H with pending := some plan.prepare } : History).commitFor h
      plan.prepare)).length = commitLength txId ((envelope.get "event").get "ledger_id")
        expectedSequence (.int (s.log.length + envelope.encoding.length + 1))
        (plan.audit.journal.entryCount + 2) + 1 := by
  obtain ⟨henvelope, hrecord, hx, hH⟩ := hf.shows_prepare hwell hfloats hfits
  have hdocument : plan.document = envelope :=
    Option.some.inj (hf.document.symm.trans (Json.loads_encoding Json.keepsSorted_lastWins hwell))
  have hrules := (hH.pendingRecord hx.pending).1.rules
  have hlast : requireSha256 (lastHash ({ H with pending := some plan.prepare } :
      History).entries) "" = .ok () :=
    requireSha256_lastHash fun e he => (hH.journal.lines e he).rules
  have hcount : ({ H with pending := some plan.prepare } : History).entries.length =
      H.entries.length + 1 := by
    rw [History.entries, History.entries, hf.settled, recordsOf_some, List.length_append]
    rfl
  rw [length_lineOf, History.commitFor, length_commitRecord (relabel_sha256 _ hrules.eventHash)
    (relabel_sha256 _ hrules.postHash) (relabel_sha256 _ hrules.journalHash) hlast, hcount]
  have hentryCount : plan.audit.journal.entryCount = H.entries.length := by
    rw [hf.audit]
    rfl
  have hledger : plan.prepare.get "ledger_id" = (envelope.get "event").get "ledger_id" := by
    rw [hf.prepare, hdocument]
    rfl
  have htx : plan.prepare.get "tx_id" = txId := by
    rw [hf.prepare]
    rfl
  have hsequence : plan.prepare.get "expected_sequence" = expectedSequence := by
    rw [hx.sequence, hf.next]
  have hsize : plan.prepare.get "post_log_size_bytes" =
      .int (s.log.length + envelope.encoding.length + 1) := by
    rw [hf.prepare, hf.record, List.length_append]
    rfl
  rw [hledger, htx, hsequence, hsize, hentryCount]

/-- After a PREPARE, whole or not at all. -/
theorem recoverable_prepare {H : History} {plan : Plan} {s' : Store} {n : ℕ}
    {envelope txId expectedHead expectedSequence : Json}
    (hf : Fresh h a reprs s H envelope txId expectedHead expectedSequence plan)
    (hfits : 0 < n → Fits s.journal plan.prepare maxJournalBytes) (hlog : s'.log = s.log)
    (hjournal : s'.journal = s.journal ++ (lineOf plan.prepare).take n) (hwhole : Whole s')
    (hwritten : Fits s.journal plan.prepare maxJournalBytes → s'.log = s.log →
      s'.journal = s.journal ++ lineOf plan.prepare → Recoverable h a reprs s') :
    Recoverable h a reprs s' := by
  obtain ⟨-, entries, hentries, hentriesEq⟩ := hwhole
  have hunchanged : s'.journal = s.journal → Recoverable h a reprs s' := fun hsame =>
    recoverable_of_settled (hf.shows.congr hlog hsame) hf.settled
  by_cases hn : 0 < n
  · rw [hjournal, hf.shows.journal.bytes] at hentriesEq
    rcases eq_of_cut_lineOf hf.wellFormed_prepare hf.shows.wellFormed_entries hentries
      hentriesEq.symm with rfl | rfl
    · exact hunchanged (by rw [hjournal, hf.shows.journal.bytes, hentriesEq])
    · refine hwritten (hfits hn) hlog ?_
      rw [hjournal, hf.shows.journal.bytes, hentriesEq, linesOf_snoc_lineOf]
  · obtain rfl : n = 0 := by omega
    exact hunchanged (by rw [hjournal, List.take_zero, List.append_nil])

/-- **An append keeps what is pending completable.** -/
theorem recoverable_append {faults : AppendFaults}
    {envelope txId expectedHead expectedSequence : Json} (hs : Recoverable h a reprs s)
    (hwell : envelope.WellFormed) (hfloats : envelope.floatsAll reprs = true)
    (hroom : Call.LeavesRoom h a reprs s
      (.append faults envelope txId expectedHead expectedSequence))
    (hwhole : Whole (append h a reprs faults s envelope txId expectedHead expectedSequence).2) :
    Recoverable h a reprs
      (append h a reprs faults s envelope txId expectedHead expectedSequence).2 := by
  cases hadmitted : checkAppend h a reprs faults s envelope txId expectedHead expectedSequence with
  | error e =>
    have hsame : (append h a reprs faults s envelope txId expectedHead expectedSequence).2 = s := by
      unfold append
      rw [hadmitted]
    rwa [hsame]
  | ok admission =>
    cases admission with
    | existing result =>
      have hsame : (append h a reprs faults s envelope txId expectedHead expectedSequence).2 =
          s := by
        unfold append
        rw [hadmitted]
      rwa [hsame]
    | fresh plan =>
      obtain ⟨-, -, H, hf⟩ := checkAppend_eq_fresh.mp hadmitted
      rw [append_of_fresh hadmitted] at hwhole ⊢
      have htx : plan.prepare.get "tx_id" = txId := by
        rw [hf.prepare]
        rfl
      -- What is awaited once the PREPARE is in the journal.
      have hawaiting : ∀ {s' : Store}, Fits s.journal plan.prepare maxJournalBytes →
          s'.log = s.log → s'.journal = s.journal ++ lineOf plan.prepare →
          s'.indeterminate ⊆ insert txId s.indeterminate →
          Awaiting h a reprs s' { H with pending := some plan.prepare } plan.prepare := by
        intro s' hfits hlog hjournal hprocess
        obtain ⟨-, -, hx, hH⟩ := hf.shows_prepare hwell hfloats hfits
        refine ⟨hH.congr hlog hjournal, rfl, ?_, .inl hx, ?_⟩
        · rw [htx]
          rw [hf.process] at hprocess
          exact hprocess
        · rw [length_commitFor_prepare hf hwell hfloats hfits, hjournal, List.length_append]
          exact hroom plan hadmitted hfits
      cases appendPrepare_step faults s txId plan with
      | prepare n hfits hlog hjournal hprocess _ =>
        exact recoverable_prepare hf hfits hlog hjournal hwhole
          fun hfits' hlog' hjournal' => (hawaiting hfits' hlog' hjournal' hprocess).recoverable
      | event n hfits hlog hjournal hprocess _ =>
        obtain ⟨henvelope, hrecord, hx, -⟩ := hf.shows_prepare hwell hfloats hfits
        have hw := @hawaiting { s with journal := s.journal ++ lineOf plan.prepare } hfits
          rfl rfl (Finset.subset_insert _ _)
        refine hw.after_event hx (n := n) ?_ hjournal ?_ hwhole
        · rw [hlog, hrecord, henvelope]
        · rw [htx]
          rw [hf.process] at hprocess
          exact hprocess
      | commit hfits hstep =>
        obtain ⟨report, hrecord, -, hsequence, hH⟩ := hf.shows_event hwell hfloats hfits
        have hw := @hawaiting { s with journal := s.journal ++ lineOf plan.prepare } hfits
          rfl rfl (Finset.subset_insert _ _)
        have hpresent : Present (({ H with pending := some plan.prepare } : History).extended
            plan.prepare report) plan.prepare := by
          refine ⟨?_, H.envelopes, rfl⟩
          rw [hsequence]
          simp [History.extended]
        exact Awaiting.after_commit ⟨hH, rfl, hw.process, .inr hpresent, hw.room⟩ hpresent hstep htx
          hwhole

/-- **Reconciling keeps what is pending completable.** -/
theorem recoverable_reconcile {faults : ReconcileFaults} {txId : Json}
    (hs : Recoverable h a reprs s) (hwhole : Whole (reconcile h a reprs faults s txId).2) :
    Recoverable h a reprs (reconcile h a reprs faults s txId).2 := by
  rcases @reconcile_cases h a reprs faults s txId with hsame | ⟨H, p, hH, hp, htx, hstep⟩
  · refine hs.congr hsame.log hsame.journal fun H p hH hp hprocess => ?_
    rcases hsame.process with heq | ⟨hsub, H', hH', hnamed⟩
    · rwa [heq]
    · obtain rfl : H' = H := hH.unique hH'
      refine hsub.trans (Finset.insert_subset ?_ hprocess)
      rw [hnamed p hp]
      exact Finset.mem_singleton_self txId
  · obtain ⟨H', hH', hpending⟩ := hs
    obtain rfl : H' = H := hH.unique hH'
    have hw := hpending p hp
    have hset : insert txId s.indeterminate ⊆ {p.get "tx_id"} := by
      refine Finset.insert_subset ?_ hw.process
      rw [htx]
      exact Finset.mem_singleton_self txId
    -- The sequence tells whether the event is missing.
    have hmissing : p.get "expected_sequence" = .int (H'.envelopes.length + 1) →
        Extending h a H' p := fun hmissing => by
      rcases hw.state with hx | hpresent
      · exact hx
      · have hlen := Json.int.inj (hmissing.symm.trans hpresent.sequence)
        omega
    have hpresent : p.get "expected_sequence" = .int H'.envelopes.length → Present H' p :=
        fun hsequence => by
      rcases hw.state with hx | hpresent
      · have hlen := Json.int.inj (hsequence.symm.trans hx.sequence)
        omega
      · exact hpresent
    cases hstep with
    | event n hsequence hlog hjournal hprocess _ =>
      exact hw.after_event (hmissing hsequence) hlog hjournal (hprocess.trans hset) hwhole
    | eventCommit hsequence hcommit =>
      have hx := hmissing hsequence
      obtain ⟨report, hverified⟩ := hx.verified
      have hpresent' : Present (H'.extended p report) p := by
        refine ⟨?_, H'.envelopes, rfl⟩
        rw [hx.sequence]
        simp [History.extended]
      exact Awaiting.after_commit
        ⟨hH.event hx hverified, hw.pending, hw.process, .inr hpresent', hw.room⟩ hpresent' hcommit
        htx hwhole
    | commit hsequence hcommit =>
      exact hw.after_commit (hpresent hsequence) hcommit htx hwhole

/-- The condition of a run: what each of its calls writes, leaves and leaves room for. -/
def Orderly (h : Hasher) (a : Authority) (reprs : FloatLit → Bool) (cs : List Call) : Prop :=
  ∀ before c after, cs = before ++ c :: after → c.Written reprs ∧
    Whole (run h a reprs Store.empty (before ++ [c])) ∧
    c.LeavesRoom h a reprs (run h a reprs Store.empty before)

theorem run_snoc (s : Store) (cs : List Call) (c : Call) :
    run h a reprs s (cs ++ [c]) = (call h a reprs (run h a reprs s cs) c).2 := by
  rw [run_append]
  rfl

/-- **Every orderly run leaves what can be completed.** -/
theorem recoverable_run {cs : List Call} (hcs : Orderly h a reprs cs) :
    Recoverable h a reprs (run h a reprs Store.empty cs) := by
  induction cs using List.reverseRecOn with
  | nil =>
    obtain ⟨report, hH, -⟩ := @shows_empty h a reprs
    exact recoverable_of_settled (Shows.clean_iff.mp hH).1 rfl
  | append_singleton cs c ih =>
    have hbefore : Orderly h a reprs cs := by
      rintro before d after rfl
      exact hcs before d (after ++ [c]) (by simp)
    obtain ⟨hwritten, hwhole, hroom⟩ := hcs cs c [] rfl
    have hs := ih hbefore
    rw [run_snoc] at hwhole ⊢
    cases c with
    | append faults envelope txId expectedHead expectedSequence =>
      exact recoverable_append hs hwritten.1 hwritten.2 hroom hwhole
    | reconcile faults txId => exact recoverable_reconcile hs hwhole
    | restart =>
      exact hs.congr rfl rfl fun _ _ _ _ _ => Finset.empty_subset _

end Runs

/-! ## Completing what is pending -/

section Completion

variable {s : Store} {H : History} {p : Json}

/-- The COMMIT of a reconciliation. -/
theorem reconcileCommit_none (hw : Awaiting h a reprs s H p) (hpresent : Present H p)
    {txId : Json} (htx : p.get "tx_id" = txId) :
    ∃ result s', reconcileCommit h a reprs .none s txId p = (.ok result, s') ∧
      s'.indeterminate = ∅ ∧ Shows h a reprs s' (H.committed h p) true := by
  have hcommit := hw.shows.commit hw.pending hpresent.sequence hw.room
  have hwritten := appendDocument_none "Ledger v2 reconciled COMMIT"
    (size_commitFor hw.shows hw.pending hpresent.sequence) hw.room
  have hprocess : s.indeterminate ⊆ {txId} := by
    rw [← htx]
    exact hw.process
  have hfinal : readCombined h a reprs false false
      { s with journal := s.journal ++ lineOf (H.commitFor h p) } true {txId} =
      .ok ((H.committed h p).audit h) := by
    refine readCombined_eq_ok.mpr ⟨rfl, rfl, fun _ => ?_, _, hcommit, rfl⟩
    exact Finset.sdiff_eq_empty_iff_subset.mpr hprocess
  have hmade := makeCommit_of_shows hw.shows hw.pending hpresent.sequence
  unfold reconcileCommit
  simp only [ReconcileFaults.none, hmade, hwritten]
  unfold finishReconcile
  simp only [hfinal]
  refine ⟨_, _, rfl, ?_, hcommit.congr rfl rfl⟩
  show s.indeterminate.erase txId = ∅
  exact Finset.erase_eq_empty_iff _ _ |>.mpr (Finset.subset_singleton_iff.mp hprocess)

/-- The event and the COMMIT of a reconciliation. -/
theorem reconcileEvent_none (hw : Awaiting h a reprs s H p) (hx : Extending h a H p)
    {txId : Json} (htx : p.get "tx_id" = txId) :
    ∃ result s' H', reconcileEvent h a reprs .none s txId p = (.ok result, s') ∧
      s'.indeterminate = ∅ ∧ Shows h a reprs s' H' true := by
  obtain ⟨report, hverified⟩ := hx.verified
  have hevent := hw.shows.event hx hverified
  have hpresent : Present (H.extended p report) p := by
    refine ⟨?_, H.envelopes, rfl⟩
    rw [hx.sequence]
    simp [History.extended]
  have hsize := (validateV2Envelope_exact (hx.line hw.shows).valid).2.2
  have hencoded : canonicalJsonBytes (p.get "envelope") = .ok (p.get "envelope").encoding :=
    Json.boundedEncoding_eq_ok.mpr ⟨hsize, rfl⟩
  have hwritten : appendRecord none s.log ((p.get "envelope").encoding ++ [lf]) maxStoreBytes
      "Ledger v2 reconciled event append" = (.ok (), s.log ++ lineOf (p.get "envelope")) :=
    appendRecord_none _ (hx.room hw.shows)
  have hchecked : (do
      let after ← reading false (readLedger h a reprs (s.log ++ lineOf (p.get "envelope")))
      requireSnapshotMatchesPrepare after p true : Except CogniError Unit) = .ok () :=
    bind_eq_ok.mpr ⟨_, readLedger_of_shows hevent, matches_requested hevent
      (H := H.extended p report) hw.pending (b := H.envelopes) rfl hpresent.sequence⟩
  obtain ⟨result, s', hcommit, hprocess, hH'⟩ := reconcileCommit_none
    (s := { s with log := s.log ++ lineOf (p.get "envelope") }) (H := H.extended p report)
    ⟨hevent, hw.pending, hw.process, .inr hpresent, hw.room⟩ hpresent htx
  refine ⟨result, s', _, ?_, hprocess, hH'⟩
  unfold reconcileEvent
  simp only [ReconcileFaults.none, hencoded, hwritten, hchecked]
  exact hcommit

/-- **One call completes what is pending.** -/
theorem reconcile_none (hw : Awaiting h a reprs s H p) :
    ∃ result s' H', reconcile h a reprs .none s (p.get "tx_id") = (.ok result, s') ∧
      s'.indeterminate = ∅ ∧ Shows h a reprs s' H' true := by
  have hnamed := (hw.shows.pendingRecord hw.pending).1.rules.txId
  have haudit : readCombined h a reprs false false s false ∅ = .ok (H.audit h) :=
    readCombined_eq_ok.mpr ⟨rfl, rfl, by simp, H, hw.shows, rfl⟩
  have hdistinct : (H.chain.transactions.map TransactionState.txId).Nodup := by
    rw [hw.shows.chained.transactions, txIds_transactionsOf]
    exact hw.shows.chained.distinct
  have hfound : findTransaction (H.audit h).journal.transactions (p.get "tx_id") =
      some ⟨p.get "tx_id", p, none⟩ := by
    refine findTransaction_of_mem hdistinct (t := ⟨p.get "tx_id", p, none⟩) ?_
    show _ ∈ transactionsOf H.done H.pending
    rw [hw.pending, transactionsOf_some]
    exact List.mem_append_right _ (List.mem_singleton.mpr rfl)
  have hothers : (unresolved (H.audit h).journal.transactions).filter
      (fun t => t.txId ≠ p.get "tx_id") = [] := by
    show (unresolved (transactionsOf H.done H.pending)).filter _ = []
    rw [unresolved_transactionsOf, hw.pending]
    simp
  have hprocess : s.indeterminate.erase (p.get "tx_id") = ∅ :=
    (Finset.erase_eq_empty_iff _ _).mpr (Finset.subset_singleton_iff.mp hw.process)
  have hfind : findPending h a reprs .none s (p.get "tx_id") =
      .ok (H.audit h, ⟨p.get "tx_id", p, none⟩) := by
    unfold findPending
    refine bind_eq_ok.mpr ⟨(), hnamed, bind_eq_ok.mpr ⟨_, haudit, ?_⟩⟩
    refine bind_eq_ok.mpr ⟨_, orRaise_eq_ok.mpr hfound, ?_⟩
    exact require_bind_eq_ok.mpr ⟨hothers, require_bind_eq_ok.mpr ⟨hprocess, rfl⟩⟩
  have hmarked : Awaiting h a reprs (s.mark (p.get "tx_id")) H p :=
    ⟨hw.shows.congr rfl rfl, hw.pending,
      Finset.insert_subset (Finset.mem_singleton_self _) hw.process, hw.state, hw.room⟩
  unfold reconcile
  simp only [hfind, TransactionState.committed, Option.isSome_none, Bool.false_eq_true, if_false]
  rcases hw.state with hx | hpresent
  · have hbefore : requireSnapshotMatchesPrepare (H.audit h).ledger p false = .ok () :=
      matches_before hw.shows hx
    simp only [hbefore]
    exact reconcileEvent_none hmarked hx rfl
  · obtain ⟨before, hlast⟩ := hpresent.last
    have hrequested : requireSnapshotMatchesPrepare (H.audit h).ledger p true = .ok () :=
      matches_requested hw.shows hw.pending hlast hpresent.sequence
    cases hpre : requireSnapshotMatchesPrepare (H.audit h).ledger p false with
    | ok u =>
      have hlen := Json.int.inj ((matches_pre hpre).symm.trans hpresent.sequence)
      omega
    | error e =>
      simp only [hrequested]
      obtain ⟨result, s', hcommit, hprocess', hH'⟩ := reconcileCommit_none hmarked hpresent rfl
      exact ⟨result, s', _, hcommit, hprocess', hH'⟩

/-- A pending transaction is one of the journal's that are not committed. -/
theorem mem_transactions (hH : Shows h a reprs s H false) (hp : H.pending = some p) :
    (⟨p.get "tx_id", p, none⟩ : TransactionState) ∈ (journalOf h H.entries H.chain).transactions := by
  show _ ∈ H.chain.transactions
  rw [hH.chained.transactions, hp, transactionsOf_some]
  exact List.mem_append_right _ (List.mem_singleton.mpr rfl)

/-- What the journal holds without a COMMIT is the pending PREPARE. -/
theorem pending_of_unresolved (hH : Shows h a reprs s H false) {journal : JournalSnapshot}
    (hread : readJournal h a reprs s.journal = .ok journal) {t : TransactionState}
    (ht : t ∈ journal.transactions) (hopen : t.committed = false) :
    ∃ p, H.pending = some p ∧ p.get "tx_id" = t.txId := by
  obtain rfl := Except.ok.inj ((readJournal_of_shows hH).symm.trans hread)
  have ht : t ∈ transactionsOf H.done H.pending := ht
  rcases List.mem_append.mp ht with hdone | hpending
  · obtain ⟨u, -, rfl⟩ := List.mem_map.mp hdone
    cases hopen
  · obtain ⟨p, hp, rfl⟩ := List.mem_map.mp hpending
    exact ⟨p, by simpa using hp, rfl⟩

end Completion

/-- **What is pending after an orderly run is completed by one call**, which leaves a store that
reads well. -/
theorem reconcile_run (h : Hasher) (a : Authority) (reprs : FloatLit → Bool) (cs : List Call)
    (hcs : Orderly h a reprs cs) (journal : JournalSnapshot) (t : TransactionState)
    (hread : readJournal h a reprs (run h a reprs Store.empty cs).journal = .ok journal)
    (ht : t ∈ journal.transactions) (hopen : t.committed = false) :
    ∃ result snapshot, (reconcile h a reprs .none (run h a reprs Store.empty cs) t.txId).1 =
        .ok result ∧
      readVerified h a reprs
        (reconcile h a reprs .none (run h a reprs Store.empty cs) t.txId).2 = .ok snapshot := by
  obtain ⟨H, hH, hpending⟩ := recoverable_run hcs
  obtain ⟨p, hp, htx⟩ := pending_of_unresolved hH hread ht hopen
  obtain ⟨result, s', H', hreconcile, hprocess, hH'⟩ := reconcile_none (hpending p hp)
  rw [htx] at hreconcile
  rw [hreconcile]
  refine ⟨result, (H'.audit h).ledger, rfl, bind_eq_ok.mpr ⟨H'.audit h, ?_, rfl⟩⟩
  exact readCombined_eq_ok.mpr ⟨rfl, rfl, fun _ => by rw [hprocess]; rfl, H', hH', rfl⟩

/-! ## An append that stops before its COMMIT -/

/-- Nothing of the COMMIT is written. -/
def commitFails : AppendFaults := { AppendFaults.none with commit := some 0 }

/-- The call on an empty store. -/
def stoppedCall : Call :=
  .append commitFails firstEnvelope (.str "tx-1") (.str LedgerV2.genesisHash) (.int 1)

theorem appendCommit_stopped {faults : AppendFaults} {s : Store} {txId : Json} {plan : Plan}
    (hfault : faults.commit = some 0) :
    (appendCommit h a reprs faults s txId plan).2.log = s.log ∧
      (appendCommit h a reprs faults s txId plan).2.journal = s.journal := by
  unfold appendCommit
  split
  · exact ⟨rfl, rfl⟩
  · rename_i commit _
    rcases appendDocument_cases faults.commit s.journal commit maxJournalBytes
      "Ledger v2 journal COMMIT" with ⟨hnone, -, -⟩ | ⟨e, n, -, hwritten⟩
    · rw [hfault] at hnone
      cases hnone
    · have hzero : (appendDocument faults.commit s.journal commit maxJournalBytes
          "Ledger v2 journal COMMIT").2 = s.journal := by
        unfold appendDocument appendRecord
        rw [hfault]
        split
        · rfl
        · split
          · rfl
          · show s.journal ++ List.take 0 _ = s.journal
            rw [List.take_zero, List.append_nil]
      rw [hwritten] at hzero
      simp only [hwritten]
      exact ⟨rfl, hzero⟩

theorem leavesRoom_first : stoppedCall.LeavesRoom sha256 LedgerV2.sampleAuthority (fun _ => true)
    Store.empty := by
  rintro plan hadmitted ⟨hsize, -⟩
  obtain ⟨-, -, H, hf⟩ := checkAppend_eq_fresh.mp hadmitted
  obtain ⟨report, hH, -⟩ := @shows_empty sha256 LedgerV2.sampleAuthority (fun _ => true)
  have hentries : plan.audit.journal.entryCount = 0 := by
    rw [hf.audit, (hf.shows.unique (Shows.clean_iff.mp hH).1).symm]
    rfl
  have hlen : firstEnvelope.encoding.length ≤ LedgerV2.maxDocumentBytes := hf.encoded
  have hempty : Store.empty.journal.length = 0 := rfl
  have hlog : Store.empty.log.length = 0 := rfl
  have hmax : LedgerV2.maxDocumentBytes = 4194304 := rfl
  have hjournal : maxJournalBytes = 268435456 := rfl
  obtain ⟨-, -, hname, htx, -, hsequence, hordinal, -⟩ := firstNames
  have hledger : ((firstEnvelope.get "event").get "ledger_id").encoding.length = 13 := by
    have hid : (firstEnvelope.get "event").get "ledger_id" = .str "workspace-1" := rfl
    rw [hid, hname]
  have hordinal : (Json.int (0 + 2 : ℕ)).encoding.length = 1 := hordinal
  have hpost : (Json.int (Store.empty.log.length + firstEnvelope.encoding.length + 1)).encoding.length
      ≤ 9 := length_of_bounded (by omega) (by rw [maxStoreBytes]; omega)
  rw [length_lineOf, hempty, hentries, commitLength, htx, hledger, hsequence, hordinal]
  omega

/-- What that call leaves. -/
theorem shows_stopped : ∃ H p,
    Shows sha256 LedgerV2.sampleAuthority (fun _ => true)
      (run sha256 LedgerV2.sampleAuthority (fun _ => true) Store.empty [stoppedCall]) H false ∧
    H.pending = some p := by
  obtain ⟨plan, hadmitted, hsize, hroom⟩ := checkAppend_first commitFails rfl rfl
  obtain ⟨-, -, H, hf⟩ := checkAppend_eq_fresh.mp hadmitted
  have hfits : Fits Store.empty.journal plan.prepare maxJournalBytes := ⟨hsize, hroom⟩
  obtain ⟨report, -, -, -, hH⟩ :=
    hf.shows_event request_first.wellFormed request_first.floats hfits
  have happend := append_eq_appendCommit request_first.wellFormed request_first.floats hadmitted rfl
    rfl rfl hfits
  have hstopped := @appendCommit_stopped sha256 LedgerV2.sampleAuthority (fun _ => true) commitFails
    { Store.empty with
      log := Store.empty.log ++ plan.record
      journal := Store.empty.journal ++ lineOf plan.prepare } (.str "tx-1") plan rfl
  rw [← happend] at hstopped
  have hrun : run sha256 LedgerV2.sampleAuthority (fun _ => true) Store.empty [stoppedCall] =
      (append sha256 LedgerV2.sampleAuthority (fun _ => true) commitFails Store.empty firstEnvelope
        (.str "tx-1") (.str LedgerV2.genesisHash) (.int 1)).2 := run_append_call _ _ _ _ _ _
  rw [hrun]
  exact ⟨_, _, hH.congr hstopped.1 hstopped.2, rfl⟩

theorem orderly_first :
    Orderly sha256 LedgerV2.sampleAuthority (fun _ => true) [stoppedCall] := by
  intro before c after heq
  obtain ⟨H, p, hH, -⟩ := shows_stopped
  cases before with
  | nil =>
    obtain ⟨rfl, -⟩ := List.cons.inj heq
    refine ⟨⟨request_first.wellFormed, request_first.floats⟩, ?_, leavesRoom_first⟩
    exact hH.whole
  | cons d before =>
    have hlen := congrArg List.length heq
    simp at hlen

/-- An append that stops before its COMMIT, and the call that completes it. -/
theorem reconcile_run_stopped : ∃ journal t result snapshot,
    readJournal sha256 LedgerV2.sampleAuthority (fun _ => true)
      (run sha256 LedgerV2.sampleAuthority (fun _ => true) Store.empty [stoppedCall]).journal =
        .ok journal ∧
    t ∈ journal.transactions ∧ t.committed = false ∧
    (reconcile sha256 LedgerV2.sampleAuthority (fun _ => true) .none
      (run sha256 LedgerV2.sampleAuthority (fun _ => true) Store.empty [stoppedCall]) t.txId).1 =
        .ok result ∧
    readVerified sha256 LedgerV2.sampleAuthority (fun _ => true)
      (reconcile sha256 LedgerV2.sampleAuthority (fun _ => true) .none
        (run sha256 LedgerV2.sampleAuthority (fun _ => true) Store.empty [stoppedCall])
          t.txId).2 = .ok snapshot := by
  obtain ⟨H, p, hH, hp⟩ := shows_stopped
  have hread := readJournal_of_shows hH
  have ht := mem_transactions hH hp
  obtain ⟨result, snapshot, hok, hverified⟩ := reconcile_run sha256 LedgerV2.sampleAuthority
    (fun _ => true) [stoppedCall] orderly_first _ ⟨p.get "tx_id", p, none⟩ hread ht rfl
  exact ⟨_, _, result, snapshot, hread, ht, rfl, hok, hverified⟩

end LedgerStore
