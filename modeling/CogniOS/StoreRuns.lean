/-
# Runs of the ledger store

Append and reconcile calls in any order, with any steps of them failing and with restarts of the
process between them.

* `append_cases`, `reconcile_cases` : what a call can leave in the files;
* `Agrees` : the log holds the envelopes of the PREPARE records, but for a pending one;
* `readVerified_run` : what a run that reads well shows are the committed transactions.
-/
import CogniOS.StoreAdmission

namespace LedgerStore

open LedgerV2 (Authority canonicalJsonBytes requireIdentifier requireSha256 readDocument
  validateV2Envelope verifyV2Chain)
open Utf8 (lf)

variable {h : Hasher} {a : Authority} {reprs : FloatLit → Bool}

/-! ## What a step writes -/

/-- The line of a document. -/
def lineOf (document : Json) : List UInt8 := document.encoding ++ [lf]

theorem linesOf_snoc_lineOf (documents : List Json) (document : Json) :
    linesOf (documents ++ [document]) = linesOf documents ++ lineOf document :=
  linesOf_snoc documents document

/-- A record is appended whole, or the step fails with a part of it written. -/
theorem appendRecord_cases (fault : Option ℕ) (file record : List UInt8) (maximum : ℕ)
    (label : String) :
    (fault = none ∧ file.length + record.length ≤ maximum ∧
        appendRecord fault file record maximum label = (.ok (), file ++ record)) ∨
      ∃ e n, (0 < n → file.length + record.length ≤ maximum) ∧
        appendRecord fault file record maximum label = (.error e, file ++ record.take n) := by
  unfold appendRecord
  by_cases hroom : maximum < file.length + record.length
  · rw [if_pos hroom]
    exact .inr ⟨_, 0, fun hpos => absurd hpos (lt_irrefl 0), by rw [List.take_zero, List.append_nil]⟩
  · rw [if_neg hroom]
    cases fault with
    | none => exact .inl ⟨rfl, by omega, rfl⟩
    | some n => exact .inr ⟨_, n, fun _ => by omega, rfl⟩

/-- The line of a document is within the limits of a file. -/
structure Fits (file : List UInt8) (document : Json) (maximum : ℕ) : Prop where
  size : document.encoding.length ≤ LedgerV2.maxDocumentBytes
  room : file.length + (lineOf document).length ≤ maximum

theorem appendDocument_cases (fault : Option ℕ) (file : List UInt8) (document : Json)
    (maximum : ℕ) (label : String) :
    (fault = none ∧ Fits file document maximum ∧
        appendDocument fault file document maximum label = (.ok (), file ++ lineOf document)) ∨
      ∃ e n, (0 < n → Fits file document maximum) ∧
        appendDocument fault file document maximum label =
          (.error e, file ++ (lineOf document).take n) := by
  unfold appendDocument
  cases hencoded : canonicalJsonBytes document with
  | error e =>
    exact .inr ⟨e, 0, fun hpos => absurd hpos (lt_irrefl 0), by rw [List.take_zero, List.append_nil]⟩
  | ok encoded =>
    obtain ⟨hlen, rfl⟩ := Json.boundedEncoding_eq_ok.mp hencoded
    rcases appendRecord_cases fault file (lineOf document) maximum label with
      ⟨hfault, hroom, hok⟩ | ⟨e, n, hroom, herror⟩
    · exact .inl ⟨hfault, ⟨hlen, hroom⟩, hok⟩
    · exact .inr ⟨e, n, fun hpos => ⟨hlen, hroom hpos⟩, herror⟩

/-- **A line of which a part is written** is read as no line, or as the line. -/
theorem eq_of_cut {xs ys : List Json} {body : List UInt8} {n : ℕ}
    (hxs : ∀ x ∈ xs, x.WellFormed) (hys : ∀ y ∈ ys, y.WellFormed) (hbody : lf ∉ body)
    (heq : linesOf ys = linesOf xs ++ (body ++ [lf]).take n) :
    ys = xs ∨ ∃ z, ys = xs ++ [z] ∧ z.WellFormed ∧ z.encoding = body := by
  obtain ⟨zs, rfl, hzs⟩ := eq_append_of_linesOf hxs hys heq
  cases zs with
  | nil => exact .inl (List.append_nil xs)
  | cons z zs =>
    have hz : linesOf (z :: zs) = z.encoding ++ lf :: linesOf zs := by
      rw [linesOf, List.map_cons, LineFile.joinLines_cons]
      rfl
    have hwhole : z.encoding ++ lf :: (linesOf zs ++ (body ++ [lf]).drop n) =
        body ++ lf :: [] := by
      rw [← List.cons_append, ← List.append_assoc, ← hz, ← hzs, List.take_append_drop]
    obtain ⟨hencoding, hrest⟩ :=
      LineFile.eq_of_append_lf (Json.lf_notMem_encoding z) hbody hwhole
    have hnil : linesOf zs = [] := (List.append_eq_nil_iff.mp hrest).1
    have hzsnil : zs = [] := linesOf_injective
      (fun y hy => hys y (List.mem_append_right _ (List.mem_cons_of_mem _ hy)))
      (by simp) (hnil.trans linesOf_nil.symm)
    subst hzsnil
    exact .inr ⟨z, rfl, hys z (by simp), hencoding⟩

/-! ## What a call writes -/

theorem Shows.congr {s s' : Store} {H : History} {clean : Bool}
    (hH : Shows h a reprs s H clean) (hlog : s'.log = s.log) (hjournal : s'.journal = s.journal) :
    Shows h a reprs s' H clean where
  log := by rw [hlog]; exact hH.log
  verified := hH.verified
  journal := by rw [hjournal]; exact hH.journal
  validated := hH.validated
  chained := hH.chained
  combined := hH.combined

/-- The COMMIT that is made of a journal, where it fits. -/
structure Made (h : Hasher) (a : Authority) (reprs : FloatLit → Bool) (file : List UInt8)
    (prepare : Json) (n : ℕ) (previous : Json) : Prop where
  read : ∃ journal, readJournal h a reprs file = .ok journal ∧ n = journal.entryCount + 1 ∧
    previous = journal.headHash
  fits : Fits file (commitRecord h prepare n previous) maxJournalBytes

/-- What a call can have written: nothing, or a COMMIT after which a result that it returns is
read from the files. -/
structure CommitStep (h : Hasher) (a : Authority) (reprs : FloatLit → Bool) (s : Store)
    (txId prepare envelope : Json) (out : Except StoreError DurableAppend × Store) : Prop where
  log : out.2.log = s.log
  journal : ∃ n previous k, previous.WellFormed ∧
    out.2.journal = s.journal ++ (lineOf (commitRecord h prepare n previous)).take k ∧
    (0 < k → Made h a reprs s.journal prepare n previous) ∧
    ∀ result, out.1 = .ok result → result.txId = txId ∧ result.envelope = envelope ∧
      (lineOf (commitRecord h prepare n previous)).length ≤ k ∧
      ∃ H, Shows h a reprs out.2 H true
  process : out.2.indeterminate ⊆ insert txId s.indeterminate

theorem mark_subset (s : Store) (txId : Json) :
    (s.mark txId).indeterminate ⊆ insert txId s.indeterminate := Finset.Subset.refl _

theorem unmark_subset (s : Store) (txId : Json) :
    (s.unmark txId).indeterminate ⊆ insert txId s.indeterminate :=
  (Finset.erase_subset _ _).trans (Finset.subset_insert _ _)

theorem commitStep_error {s s' : Store} {txId prepare envelope : Json} {e : StoreError}
    (hlog : s'.log = s.log) (hjournal : s'.journal = s.journal)
    (hprocess : s'.indeterminate ⊆ insert txId s.indeterminate) :
    CommitStep h a reprs s txId prepare envelope (.error e, s') where
  log := hlog
  journal := by
    refine ⟨0, .null, 0, trivial, ?_, fun hpos => absurd hpos (lt_irrefl 0),
      fun result hok => by cases hok⟩
    rw [List.take_zero, List.append_nil]
    exact hjournal
  process := hprocess

/-- The whole COMMIT is written. -/
theorem commitStep_whole {s : Store} {txId prepare envelope previous : Json} {n : ℕ}
    {out : Except StoreError DurableAppend × Store} (hprevious : previous.WellFormed)
    (hlog : out.2.log = s.log)
    (hjournal : out.2.journal = s.journal ++ lineOf (commitRecord h prepare n previous))
    (hmade : Made h a reprs s.journal prepare n previous)
    (hok : ∀ result, out.1 = .ok result → result.txId = txId ∧ result.envelope = envelope ∧
      ∃ H, Shows h a reprs out.2 H true)
    (hprocess : out.2.indeterminate ⊆ insert txId s.indeterminate) :
    CommitStep h a reprs s txId prepare envelope out where
  log := hlog
  journal := by
    refine ⟨n, previous, (lineOf (commitRecord h prepare n previous)).length, hprevious, ?_,
      fun _ => hmade, ?_⟩
    · rw [List.take_length]
      exact hjournal
    · intro result hresult
      obtain ⟨htx, henvelope, hH⟩ := hok result hresult
      exact ⟨htx, henvelope, le_refl _, hH⟩
  process := hprocess

theorem makeCommit_eq_ok {prepare commit : Json} {journal : JournalSnapshot} :
    makeCommit h prepare journal = .ok commit ↔
      journal.headHash = prepare.get "journal_hash" ∧
        (Json.obj (commitFields prepare (journal.entryCount + 1) journal.headHash)).encoding.length
          ≤ LedgerV2.maxDocumentBytes ∧
        commit = commitRecord h prepare (journal.entryCount + 1) journal.headHash := by
  unfold makeCommit
  rw [require_bind_eq_ok, withJournalHash_commitFields]

theorem wellFormed_lastHash {entries : List Json} (hentries : ∀ e ∈ entries, e.WellFormed) :
    (lastHash entries).WellFormed := by
  unfold lastHash
  cases hlast : entries.getLast? with
  | none => trivial
  | some e => exact Json.wellFormed_get (hentries e (List.mem_of_getLast? hlast)) _

theorem wellFormed_headHash {journal : List UInt8} {snapshot : JournalSnapshot}
    (hread : readJournal h a reprs journal = .ok snapshot) : snapshot.headHash.WellFormed := by
  obtain ⟨entries, chain, hfile, hchain, rfl⟩ := readJournal_eq_ok.mp hread
  obtain ⟨done, pending, hc⟩ := validateJournalChain_eq_ok hchain
  show chain.previous.WellFormed
  rw [hc.previous]
  exact wellFormed_lastHash fun e he => (hfile.lines e he).wellFormed

theorem appendCommit_step (faults : AppendFaults) (s : Store) (txId : Json) (plan : Plan) :
    CommitStep h a reprs s txId plan.prepare plan.document
      (appendCommit h a reprs faults s txId plan) := by
  unfold appendCommit
  cases hmade : reading faults.journalAfterEvent (readJournal h a reprs s.journal) >>=
      makeCommit h plan.prepare with
  | error e => exact commitStep_error rfl rfl (Finset.subset_insert _ _)
  | ok commit =>
    obtain ⟨journal, hjournal, hcommit⟩ := bind_eq_ok.mp hmade
    obtain ⟨-, -, rfl⟩ := makeCommit_eq_ok.mp hcommit
    have hread := (reading_eq_ok.mp hjournal).2
    have hprevious := wellFormed_headHash hread
    rcases appendDocument_cases faults.commit s.journal
        (commitRecord h plan.prepare (journal.entryCount + 1) journal.headHash) maxJournalBytes
        "Ledger v2 journal COMMIT" with ⟨-, hfits, hwritten⟩ | ⟨e, k, hfits, hwritten⟩
    · have hmade : Made h a reprs s.journal plan.prepare (journal.entryCount + 1) journal.headHash :=
        ⟨⟨journal, hread, rfl, rfl⟩, hfits⟩
      simp only [hwritten]
      cases hfinal : readCombined h a reprs faults.finalLog faults.finalJournal
          { s with journal := s.journal ++ lineOf (commitRecord h plan.prepare
            (journal.entryCount + 1) journal.headHash) } true ∅ with
      | error e =>
        exact commitStep_whole hprevious rfl rfl hmade (fun result hok => by cases hok)
          (mark_subset _ _)
      | ok final =>
        obtain ⟨-, -, -, H, hH, rfl⟩ := readCombined_eq_ok.mp hfinal
        refine commitStep_whole hprevious rfl rfl hmade (fun result hok => ?_) (unmark_subset _ _)
        obtain rfl := Except.ok.inj hok
        exact ⟨rfl, rfl, H, hH.congr rfl rfl⟩
    · simp only [hwritten]
      exact ⟨rfl, ⟨_, _, k, hprevious, rfl, fun hpos => ⟨⟨journal, hread, rfl, rfl⟩, hfits hpos⟩,
        fun result hok => by cases hok⟩, mark_subset _ _⟩

theorem finishReconcile_shows {faults : ReconcileFaults} {s : Store} {txId prepare : Json}
    {result : DurableAppend}
    (hok : (finishReconcile h a reprs faults s txId prepare).1 = .ok result) :
    result.txId = txId ∧ result.envelope = prepare.get "envelope" ∧
      ∃ H, Shows h a reprs s H true := by
  unfold finishReconcile at hok
  cases hfinal : readCombined h a reprs faults.finalLog faults.finalJournal s true {txId} with
  | error e =>
    rw [hfinal] at hok
    cases hok
  | ok final =>
    rw [hfinal] at hok
    obtain rfl := Except.ok.inj hok
    obtain ⟨-, -, -, H, hH, rfl⟩ := readCombined_eq_ok.mp hfinal
    exact ⟨rfl, rfl, H, hH⟩

theorem finishReconcile_files (faults : ReconcileFaults) (s : Store) (txId prepare : Json) :
    (finishReconcile h a reprs faults s txId prepare).2.log = s.log ∧
      (finishReconcile h a reprs faults s txId prepare).2.journal = s.journal ∧
      (finishReconcile h a reprs faults s txId prepare).2.indeterminate ⊆
        insert txId s.indeterminate := by
  unfold finishReconcile
  cases readCombined h a reprs faults.finalLog faults.finalJournal s true {txId} with
  | error e => exact ⟨rfl, rfl, Finset.subset_insert _ _⟩
  | ok final => exact ⟨rfl, rfl, unmark_subset _ _⟩

theorem reconcileCommit_step (faults : ReconcileFaults) (s : Store) (txId prepare : Json) :
    CommitStep h a reprs s txId prepare (prepare.get "envelope")
      (reconcileCommit h a reprs faults s txId prepare) := by
  unfold reconcileCommit
  cases hmade : reading faults.journalAfterEvent (readJournal h a reprs s.journal) >>=
      makeCommit h prepare with
  | error e => exact commitStep_error rfl rfl (Finset.subset_insert _ _)
  | ok commit =>
    obtain ⟨journal, hjournal, hcommit⟩ := bind_eq_ok.mp hmade
    obtain ⟨-, -, rfl⟩ := makeCommit_eq_ok.mp hcommit
    have hread := (reading_eq_ok.mp hjournal).2
    have hprevious := wellFormed_headHash hread
    rcases appendDocument_cases faults.commit s.journal
        (commitRecord h prepare (journal.entryCount + 1) journal.headHash) maxJournalBytes
        "Ledger v2 reconciled COMMIT" with ⟨-, hfits, hwritten⟩ | ⟨e, k, hfits, hwritten⟩
    · simp only [hwritten]
      obtain ⟨hlog, hfile, hprocess⟩ := @finishReconcile_files h a reprs faults
        { s with journal := s.journal ++ lineOf (commitRecord h prepare
          (journal.entryCount + 1) journal.headHash) } txId prepare
      refine commitStep_whole hprevious hlog hfile ⟨⟨journal, hread, rfl, rfl⟩, hfits⟩
        (fun result hok => ?_) hprocess
      obtain ⟨htx, henvelope, H, hH⟩ := finishReconcile_shows hok
      exact ⟨htx, henvelope, H, hH.congr hlog hfile⟩
    · simp only [hwritten]
      exact ⟨rfl, ⟨_, _, k, hprevious, rfl, fun hpos => ⟨⟨journal, hread, rfl, rfl⟩, hfits hpos⟩,
        fun result hok => by cases hok⟩, Finset.subset_insert _ _⟩

/-- What `append` leaves of a new transaction: a part of its PREPARE; or the PREPARE and a part
of its event; or both and a part of its COMMIT. -/
inductive AppendStep (h : Hasher) (a : Authority) (reprs : FloatLit → Bool) (s : Store)
    (txId : Json) (plan : Plan) (out : Except StoreError DurableAppend × Store) : Prop
  | prepare (n : ℕ) (fits : 0 < n → Fits s.journal plan.prepare maxJournalBytes)
      (log : out.2.log = s.log)
      (journal : out.2.journal = s.journal ++ (lineOf plan.prepare).take n)
      (process : out.2.indeterminate ⊆ insert txId s.indeterminate)
      (error : ∀ result, out.1 ≠ .ok result)
  | event (n : ℕ) (fits : Fits s.journal plan.prepare maxJournalBytes)
      (log : out.2.log = s.log ++ plan.record.take n)
      (journal : out.2.journal = s.journal ++ lineOf plan.prepare)
      (process : out.2.indeterminate ⊆ insert txId s.indeterminate)
      (error : ∀ result, out.1 ≠ .ok result)
  | commit (fits : Fits s.journal plan.prepare maxJournalBytes) (step : CommitStep h a reprs
      { s with log := s.log ++ plan.record, journal := s.journal ++ lineOf plan.prepare }
      txId plan.prepare plan.document out)

theorem appendEvent_step (faults : AppendFaults) (s : Store) (txId : Json) (plan : Plan)
    (hfits : Fits s.journal plan.prepare maxJournalBytes) :
    AppendStep h a reprs s txId plan (appendEvent h a reprs faults
      { s with journal := s.journal ++ lineOf plan.prepare } txId plan) := by
  unfold appendEvent
  rcases appendRecord_cases faults.event s.log plan.record maxStoreBytes "Ledger v2 event append"
    with ⟨-, -, hwritten⟩ | ⟨e, n, -, hwritten⟩
  · simp only [hwritten]
    split
    · refine .event plan.record.length hfits ?_ rfl (mark_subset _ _) (fun result hok => by cases hok)
      rw [List.take_of_length_le (le_refl _)]
      rfl
    · exact .commit hfits (appendCommit_step faults _ txId plan)
  · simp only [hwritten]
    exact .event n hfits rfl rfl (mark_subset _ _) (fun result hok => by cases hok)

theorem appendPrepare_step (faults : AppendFaults) (s : Store) (txId : Json) (plan : Plan) :
    AppendStep h a reprs s txId plan (appendPrepare h a reprs faults s txId plan) := by
  unfold appendPrepare
  rcases appendDocument_cases faults.prepare s.journal plan.prepare maxJournalBytes
    "Ledger v2 journal PREPARE" with ⟨-, hfits, hwritten⟩ | ⟨e, n, hfits, hwritten⟩
  · simp only [hwritten]
    exact appendEvent_step faults s txId plan hfits
  · simp only [hwritten]
    unfold prepareFailed
    simp only
    split
    · exact .prepare n hfits rfl rfl (unmark_subset _ _) (fun result hok => by cases hok)
    · exact .prepare n hfits rfl rfl (mark_subset _ _) (fun result hok => by cases hok)

/-- A transaction that the journal has committed. -/
def Recorded (H : History) (result : DurableAppend) : Prop :=
  ∃ t ∈ H.done, t.prepare.get "tx_id" = result.txId ∧
    t.prepare.get "envelope" = result.envelope

theorem existing_recorded {faults : AppendFaults} {s : Store}
    {envelope txId expectedHead expectedSequence : Json} {result : DurableAppend}
    (hok : checkAppend h a reprs faults s envelope txId expectedHead expectedSequence =
      .ok (.existing result)) :
    ∃ H, Shows h a reprs s H false ∧ Recorded H result := by
  unfold checkAppend at hok
  obtain ⟨_, -, hok⟩ := bind_eq_ok.mp hok
  obtain ⟨_, -, hok⟩ := bind_eq_ok.mp hok
  obtain ⟨_, -, hok⟩ := bind_eq_ok.mp hok
  obtain ⟨_, -, hok⟩ := bind_eq_ok.mp hok
  obtain ⟨_, -, hok⟩ := bind_eq_ok.mp hok
  obtain ⟨_, -, hok⟩ := bind_eq_ok.mp hok
  obtain ⟨audit, haudit, hok⟩ := bind_eq_ok.mp hok
  obtain ⟨-, -, -, H, hH, rfl⟩ := readCombined_eq_ok.mp (failing_eq_ok.mp haudit)
  obtain ⟨_, -, hok⟩ := bind_eq_ok.mp hok
  obtain ⟨_, hresolved, hok⟩ := bind_eq_ok.mp hok
  obtain ⟨-, hpending⟩ := checkResolved_eq_ok.mp hresolved
  have hexisting : findTransaction (H.audit h).journal.transactions txId =
      findTransaction (transactionsOf H.done H.pending) txId := rfl
  rw [hexisting, hpending] at hok
  cases hfound : findTransaction (transactionsOf H.done none) txId with
  | none =>
    rw [hfound] at hok
    obtain ⟨_, -, hend⟩ := bind_eq_ok.mp hok
    cases hend
  | some state =>
    rw [hfound] at hok
    cases hok
    obtain ⟨hmem, htx⟩ := findTransaction_eq_some hfound
    rw [transactionsOf, Option.toList_none, List.map_nil, List.append_nil] at hmem
    obtain ⟨t, ht, rfl⟩ := List.mem_map.mp hmem
    exact ⟨H, hH, t, ht, htx, rfl⟩

/-- **What `append` can leave**: the files as they were, with the result of a transaction that is
committed already if it returns one; or a step of a new transaction. -/
theorem append_cases (faults : AppendFaults) (s : Store)
    (envelope txId expectedHead expectedSequence : Json) :
    ((append h a reprs faults s envelope txId expectedHead expectedSequence).2 = s ∧
      ∀ result, (append h a reprs faults s envelope txId expectedHead expectedSequence).1 =
        .ok result → ∃ H, Shows h a reprs s H false ∧ Recorded H result) ∨
    ∃ H plan, Fresh h a reprs s H envelope txId expectedHead expectedSequence plan ∧
      AppendStep h a reprs s txId plan
        (append h a reprs faults s envelope txId expectedHead expectedSequence) := by
  unfold append
  cases hadmitted : checkAppend h a reprs faults s envelope txId expectedHead expectedSequence with
  | error e => exact .inl ⟨rfl, fun result hok => by cases hok⟩
  | ok admission =>
    cases admission with
    | existing result =>
      refine .inl ⟨rfl, fun result' hok => ?_⟩
      obtain rfl := Except.ok.inj hok
      exact existing_recorded hadmitted
    | fresh plan =>
      obtain ⟨-, -, H, hf⟩ := checkAppend_eq_fresh.mp hadmitted
      exact .inr ⟨H, plan, hf, appendPrepare_step faults s txId plan⟩

/-- What `reconcile_transaction` leaves of a pending transaction: a part of its event, or the
event and a part of its COMMIT. -/
inductive ReconcileStep (h : Hasher) (a : Authority) (reprs : FloatLit → Bool) (s : Store)
    (H : History) (txId prepare : Json) (out : Except StoreError DurableAppend × Store) : Prop
  | event (n : ℕ) (missing : prepare.get "expected_sequence" = .int (H.envelopes.length + 1))
      (log : out.2.log = s.log ++ (lineOf (prepare.get "envelope")).take n)
      (journal : out.2.journal = s.journal)
      (process : out.2.indeterminate ⊆ insert txId s.indeterminate)
      (error : ∀ result, out.1 ≠ .ok result)
  | eventCommit (missing : prepare.get "expected_sequence" = .int (H.envelopes.length + 1))
      (step : CommitStep h a reprs { s with log := s.log ++ lineOf (prepare.get "envelope") }
        txId prepare (prepare.get "envelope") out)
  | commit (present : prepare.get "expected_sequence" = .int H.envelopes.length)
      (step : CommitStep h a reprs s txId prepare (prepare.get "envelope") out)

theorem matches_pre {H : History} {prepare : Json} {u : Unit}
    (hok : requireSnapshotMatchesPrepare (H.audit h).ledger prepare false = .ok u) :
    prepare.get "expected_sequence" = .int (H.envelopes.length + 1) := by
  unfold requireSnapshotMatchesPrepare at hok
  have hmatches := require_eq_ok.mp hok
  rw [if_neg Bool.false_ne_true] at hmatches
  exact hmatches.1

theorem matches_post {H : History} {prepare : Json} {u : Unit}
    (hok : requireSnapshotMatchesPrepare (H.audit h).ledger prepare true = .ok u) :
    prepare.get "expected_sequence" = .int H.envelopes.length := by
  unfold requireSnapshotMatchesPrepare at hok
  have hmatches := require_eq_ok.mp hok
  rw [if_pos rfl] at hmatches
  exact hmatches.1

theorem reconcileEvent_step (faults : ReconcileFaults) (s : Store) (H : History)
    (txId prepare : Json)
    (hmissing : prepare.get "expected_sequence" = .int (H.envelopes.length + 1)) :
    ReconcileStep h a reprs s H txId prepare (reconcileEvent h a reprs faults s txId prepare) := by
  have hwhole : ∀ {e : StoreError} {s' : Store},
      s'.log = s.log ++ lineOf (prepare.get "envelope") → s'.journal = s.journal →
      s'.indeterminate ⊆ insert txId s.indeterminate →
      ReconcileStep h a reprs s H txId prepare (.error e, s') := by
    intro e s' hlog hjournal hprocess
    refine .event (lineOf (prepare.get "envelope")).length hmissing ?_ hjournal hprocess
      (fun result hok => by cases hok)
    rw [List.take_length]
    exact hlog
  unfold reconcileEvent
  cases hencoded : canonicalJsonBytes (prepare.get "envelope") with
  | error e =>
    refine .event 0 hmissing ?_ rfl (Finset.subset_insert _ _) (fun result hok => by cases hok)
    rw [List.take_zero, List.append_nil]
  | ok encoded =>
    obtain ⟨-, rfl⟩ := Json.boundedEncoding_eq_ok.mp hencoded
    simp only
    rcases appendRecord_cases faults.event s.log
      ((prepare.get "envelope").encoding ++ [lf]) maxStoreBytes "Ledger v2 reconciled event append"
      with ⟨-, -, hwritten⟩ | ⟨e, n, -, hwritten⟩
    · simp only [hwritten]
      split
      · exact hwhole rfl rfl (Finset.subset_insert _ _)
      · exact .eventCommit hmissing (reconcileCommit_step faults _ txId prepare)
    · simp only [hwritten]
      exact .event n hmissing rfl rfl (Finset.subset_insert _ _) (fun result hok => by cases hok)

theorem CommitStep.congr {s s' : Store} {txId prepare envelope : Json}
    {out : Except StoreError DurableAppend × Store} (hlog : s'.log = s.log)
    (hjournal : s'.journal = s.journal) (hprocess : s'.indeterminate ⊆ insert txId s.indeterminate)
    (hs : CommitStep h a reprs s' txId prepare envelope out) :
    CommitStep h a reprs s txId prepare envelope out where
  log := hs.log.trans hlog
  journal := by rw [← hjournal]; exact hs.journal
  process := hs.process.trans (Finset.insert_subset (Finset.mem_insert_self _ _) hprocess)

theorem ReconcileStep.congr {s s' : Store} {H : History} {txId prepare : Json}
    {out : Except StoreError DurableAppend × Store} (hlog : s'.log = s.log)
    (hjournal : s'.journal = s.journal) (hprocess : s'.indeterminate ⊆ insert txId s.indeterminate)
    (hs : ReconcileStep h a reprs s' H txId prepare out) :
    ReconcileStep h a reprs s H txId prepare out := by
  cases hs with
  | event n hmissing hl hj hp herror =>
    exact .event n hmissing (by rw [hl, hlog]) (by rw [hj, hjournal])
      (hp.trans (Finset.insert_subset (Finset.mem_insert_self _ _) hprocess)) herror
  | eventCommit hmissing hstep =>
    have hlog' : s'.log ++ lineOf (prepare.get "envelope") =
        s.log ++ lineOf (prepare.get "envelope") := by rw [hlog]
    refine .eventCommit hmissing ⟨hstep.log.trans hlog', ?_,
      hstep.process.trans (Finset.insert_subset (Finset.mem_insert_self _ _) hprocess)⟩
    rw [← hjournal]
    exact hstep.journal
  | commit hpresent hstep => exact .commit hpresent (hstep.congr hlog hjournal hprocess)

/-- The transaction that a name finds: a committed one, or the pending one. -/
theorem findTransaction_transactionsOf {done : List Committed} {pending : Option Json}
    {txId : Json} {state : TransactionState}
    (hfound : findTransaction (transactionsOf done pending) txId = some state) :
    (∃ t ∈ done, t.prepare.get "tx_id" = txId ∧ state = ⟨txId, t.prepare, some t.commit⟩) ∨
      ∃ p, pending = some p ∧ p.get "tx_id" = txId ∧ state = ⟨txId, p, none⟩ := by
  obtain ⟨hmem, htx⟩ := findTransaction_eq_some hfound
  rcases List.mem_append.mp hmem with hmem | hmem
  · obtain ⟨t, ht, rfl⟩ := List.mem_map.mp hmem
    replace htx : t.prepare.get "tx_id" = txId := htx
    exact .inl ⟨t, ht, htx, by rw [htx]⟩
  · obtain ⟨p, hp, rfl⟩ := List.mem_map.mp hmem
    replace htx : p.get "tx_id" = txId := htx
    exact .inr ⟨p, by simpa using hp, htx, by rw [htx]⟩

/-- Only the pending transaction can be reconciled while there is one. -/
theorem pending_of_filter {H : History} {txId : Json}
    (hnone : (unresolved (transactionsOf H.done H.pending)).filter (fun t => t.txId ≠ txId) = []) :
    ∀ p ∈ H.pending, p.get "tx_id" = txId := by
  intro p hp
  rw [unresolved_transactionsOf, Option.mem_def.mp hp] at hnone
  by_contra hne
  have hmem : (⟨p.get "tx_id", p, none⟩ : TransactionState) ∈
      ((some p).toList.map fun p => (⟨p.get "tx_id", p, none⟩ : TransactionState)).filter
        (fun t => t.txId ≠ txId) :=
    List.mem_filter.mpr ⟨List.mem_singleton.mpr rfl, by simpa using hne⟩
  rw [hnone] at hmem
  exact absurd hmem List.not_mem_nil

/-- A call that leaves the files as they were, and what it leaves of the process. -/
structure Unchanged (h : Hasher) (a : Authority) (reprs : FloatLit → Bool) (s : Store)
    (txId : Json) (out : Except StoreError DurableAppend × Store) : Prop where
  log : out.2.log = s.log
  journal : out.2.journal = s.journal
  result : ∀ result, out.1 = .ok result → ∃ H, Shows h a reprs s H false ∧ Recorded H result
  process : out.2.indeterminate = s.indeterminate ∨
    out.2.indeterminate ⊆ insert txId s.indeterminate ∧
      ∃ H, Shows h a reprs s H false ∧ ∀ p ∈ H.pending, p.get "tx_id" = txId

/-- **What `reconcile_transaction` can leave.** -/
theorem reconcile_cases (faults : ReconcileFaults) (s : Store) (txId : Json) :
    Unchanged h a reprs s txId (reconcile h a reprs faults s txId) ∨
    ∃ H p, Shows h a reprs s H false ∧ H.pending = some p ∧ p.get "tx_id" = txId ∧
      ReconcileStep h a reprs s H txId p (reconcile h a reprs faults s txId) := by
  unfold reconcile
  cases hfind : findPending h a reprs faults s txId with
  | error e => exact .inl ⟨rfl, rfl, (fun result hok => by cases hok), .inl rfl⟩
  | ok found =>
    unfold findPending at hfind
    obtain ⟨_, -, hfind⟩ := bind_eq_ok.mp hfind
    obtain ⟨audit, haudit, hfind⟩ := bind_eq_ok.mp hfind
    obtain ⟨-, -, -, H, hH, rfl⟩ := readCombined_eq_ok.mp haudit
    obtain ⟨state, hstate, hfind⟩ := bind_eq_ok.mp hfind
    obtain ⟨hothers, hfind⟩ := require_bind_eq_ok.mp hfind
    obtain ⟨-, hend⟩ := require_bind_eq_ok.mp hfind
    obtain rfl := Except.ok.inj hend
    have hpending := pending_of_filter hothers
    have hlog : (s.mark txId).log = s.log := rfl
    have hjournal : (s.mark txId).journal = s.journal := rfl
    have hprocess := mark_subset s txId
    rcases findTransaction_transactionsOf (orRaise_eq_ok.mp hstate) with
      ⟨t, ht, htx, rfl⟩ | ⟨p, hp, htx, rfl⟩
    · simp only [TransactionState.committed, Option.isSome_some, if_true]
      split
      · exact .inl ⟨rfl, rfl, (fun result hok => by cases hok), .inr ⟨hprocess, H, hH, hpending⟩⟩
      · obtain ⟨hsame, hsame', hset⟩ :=
          @finishReconcile_files h a reprs faults (s.mark txId) txId t.prepare
        refine .inl ⟨hsame, hsame', fun result hok => ?_, .inr ⟨?_, H, hH, hpending⟩⟩
        · obtain ⟨hresult, henvelope, -⟩ := finishReconcile_shows hok
          exact ⟨H, hH, t, ht, by rw [htx, hresult], henvelope.symm⟩
        · exact hset.trans (Finset.insert_subset (Finset.mem_insert_self _ _) hprocess)
    · simp only [TransactionState.committed, Option.isSome_none, Bool.false_eq_true, if_false]
      cases hpre : requireSnapshotMatchesPrepare (H.audit h).ledger p false with
      | ok u =>
        have hstep : ReconcileStep h a reprs (s.mark txId) H txId p
            (reconcileEvent h a reprs faults (s.mark txId) txId p) :=
          reconcileEvent_step faults _ H txId p (matches_pre hpre)
        simp only
        exact .inr ⟨H, p, hH, hp, htx, hstep.congr hlog hjournal hprocess⟩
      | error e =>
        cases hpost : requireSnapshotMatchesPrepare (H.audit h).ledger p true with
        | ok u =>
          have hstep : CommitStep h a reprs (s.mark txId) txId p (p.get "envelope")
              (reconcileCommit h a reprs faults (s.mark txId) txId p) :=
            reconcileCommit_step faults _ txId p
          simp only
          exact .inr ⟨H, p, hH, hp, htx,
            .commit (matches_post hpost) (hstep.congr hlog hjournal hprocess)⟩
        | error e' =>
          exact .inl ⟨rfl, rfl, (fun result hok => by cases hok),
            .inr ⟨hprocess, H, hH, hpending⟩⟩

/-! ## The files grow -/

/-- The files of a store are those of an earlier one with more at their ends. -/
structure Grows (s s' : Store) : Prop where
  log : s.log <+: s'.log
  journal : s.journal <+: s'.journal

theorem Grows.refl (s : Store) : Grows s s := ⟨List.prefix_rfl, List.prefix_rfl⟩

theorem Grows.trans {s s' s'' : Store} (hs : Grows s s') (hs' : Grows s' s'') : Grows s s'' :=
  ⟨hs.log.trans hs'.log, hs.journal.trans hs'.journal⟩

theorem CommitStep.grows {s : Store} {txId prepare envelope : Json}
    {out : Except StoreError DurableAppend × Store}
    (hs : CommitStep h a reprs s txId prepare envelope out) : Grows s out.2 := by
  obtain ⟨n, previous, k, -, hjournal, -⟩ := hs.journal
  constructor
  · rw [hs.log]
  · rw [hjournal]
    exact List.prefix_append _ _

theorem AppendStep.grows {s : Store} {txId : Json} {plan : Plan}
    {out : Except StoreError DurableAppend × Store}
    (hs : AppendStep h a reprs s txId plan out) : Grows s out.2 := by
  cases hs with
  | prepare n _ hlog hjournal _ _ =>
    refine ⟨by rw [hlog], ?_⟩
    rw [hjournal]
    exact List.prefix_append _ _
  | event n _ hlog hjournal _ _ =>
    constructor
    · rw [hlog]
      exact List.prefix_append _ _
    · rw [hjournal]
      exact List.prefix_append _ _
  | commit _ hstep =>
    have hfirst : Grows s { s with
        log := s.log ++ plan.record, journal := s.journal ++ lineOf plan.prepare } :=
      ⟨List.prefix_append _ _, List.prefix_append _ _⟩
    exact hfirst.trans hstep.grows

theorem ReconcileStep.grows {s : Store} {H : History} {txId prepare : Json}
    {out : Except StoreError DurableAppend × Store}
    (hs : ReconcileStep h a reprs s H txId prepare out) : Grows s out.2 := by
  cases hs with
  | event n _ hlog hjournal _ _ =>
    refine ⟨?_, by rw [hjournal]⟩
    rw [hlog]
    exact List.prefix_append _ _
  | eventCommit _ hstep =>
    have hfirst : Grows s { s with log := s.log ++ lineOf (prepare.get "envelope") } :=
      ⟨List.prefix_append _ _, List.prefix_rfl⟩
    exact hfirst.trans hstep.grows
  | commit _ hstep => exact hstep.grows

theorem run_append (s : Store) (cs ds : List Call) :
    run h a reprs s (cs ++ ds) = run h a reprs (run h a reprs s cs) ds := List.foldl_append

theorem eq_of_line {xs ys : List Json} {body : List UInt8}
    (hxs : ∀ x ∈ xs, x.WellFormed) (hys : ∀ y ∈ ys, y.WellFormed) (hbody : lf ∉ body)
    (heq : linesOf ys = linesOf xs ++ (body ++ [lf])) :
    ∃ z, ys = xs ++ [z] ∧ z.WellFormed ∧ z.encoding = body := by
  have hcut : linesOf ys = linesOf xs ++ (body ++ [lf]).take (body ++ [lf]).length := by
    rw [List.take_length, heq]
  rcases eq_of_cut hxs hys hbody hcut with rfl | hline
  · have hlen := congrArg List.length heq
    simp only [List.length_append, List.length_singleton] at hlen
    omega
  · exact hline

/-- A document whose line is appended is read from it. -/
theorem eq_of_lineOf {xs ys : List Json} {document : Json} (hdocument : document.WellFormed)
    (hxs : ∀ x ∈ xs, x.WellFormed) (hys : ∀ y ∈ ys, y.WellFormed)
    (heq : linesOf ys = linesOf xs ++ lineOf document) : ys = xs ++ [document] := by
  obtain ⟨z, rfl, hz, hencoding⟩ := eq_of_line hxs hys (Json.lf_notMem_encoding document) heq
  rw [Json.encoding_injective hz hdocument hencoding]

theorem eq_of_cut_lineOf {xs ys : List Json} {document : Json} {n : ℕ}
    (hdocument : document.WellFormed) (hxs : ∀ x ∈ xs, x.WellFormed)
    (hys : ∀ y ∈ ys, y.WellFormed)
    (heq : linesOf ys = linesOf xs ++ (lineOf document).take n) :
    ys = xs ∨ ys = xs ++ [document] := by
  rcases eq_of_cut hxs hys (Json.lf_notMem_encoding document) heq with
    hsame | ⟨z, rfl, hz, hencoding⟩
  · exact .inl hsame
  · rw [Json.encoding_injective hz hdocument hencoding]
    exact .inr rfl

/-- The envelopes of the PREPARE records. -/
def envelopesOf (done : List Committed) (pending : Option Json) : List Json :=
  (preparesOf done pending).map (Json.get · "envelope")

theorem envelopesOf_some (done : List Committed) (p : Json) :
    envelopesOf done (some p) = envelopesOf done none ++ [p.get "envelope"] := by
  simp [envelopesOf, preparesOf]

theorem envelopesOf_snoc (done : List Committed) (p c : Json) :
    envelopesOf (done ++ [⟨p, c⟩]) none = envelopesOf done (some p) := by
  simp [envelopesOf, preparesOf]

theorem length_envelopesOf (done : List Committed) (pending : Option Json) :
    (envelopesOf done pending).length = done.length + pending.toList.length := by
  simp [envelopesOf, preparesOf]

/-- Where both files can be read, the log holds the envelopes of the PREPARE records, or of all
but the pending one. -/
def Agrees (s : Store) : Prop :=
  ∀ entries es, (∀ e ∈ entries, e.WellFormed) → (∀ e ∈ es, e.WellFormed) →
    s.journal = linesOf entries → s.log = linesOf es →
    ∀ done pending, entries = recordsOf done pending →
      es = envelopesOf done none ∨ es = envelopesOf done pending

/-- It is enough to find one reading of the journal. -/
theorem agrees_of_reading {s : Store}
    (hread : ∀ entries es, (∀ e ∈ entries, e.WellFormed) → (∀ e ∈ es, e.WellFormed) →
      s.journal = linesOf entries → s.log = linesOf es →
      ∃ done pending, entries = recordsOf done pending ∧
        (es = envelopesOf done none ∨ es = envelopesOf done pending)) : Agrees s := by
  intro entries es hentries hes hjournal hlog done pending hrecords
  obtain ⟨done', pending', hrecords', hagree⟩ := hread entries es hentries hes hjournal hlog
  obtain ⟨rfl, rfl⟩ := recordsOf_injective (hrecords.symm.trans hrecords')
  exact hagree

theorem Shows.agrees {s : Store} {H : History} {clean : Bool} (hs : Agrees s)
    (hH : Shows h a reprs s H clean) :
    H.envelopes = envelopesOf H.done none ∨ H.envelopes = envelopesOf H.done H.pending :=
  hs _ _ hH.wellFormed_entries hH.wellFormed_envelopes hH.journal.bytes hH.log.bytes _ _ rfl

/-- With nothing pending the log holds the committed envelopes. -/
theorem Shows.envelopes_eq {s : Store} {H : History} {clean : Bool} (hs : Agrees s)
    (hH : Shows h a reprs s H clean) (hpending : H.pending = none) :
    H.envelopes = envelopesOf H.done none := by
  rcases hH.agrees hs with heq | heq
  · exact heq
  · rw [heq, hpending]

/-- A COMMIT, whole or in part, after a journal with a pending PREPARE whose event is in the
log. -/
theorem CommitStep.agrees {s : Store} {txId prepare envelope : Json} {done : List Committed}
    {out : Except StoreError DurableAppend × Store}
    (hs : CommitStep h a reprs s txId prepare envelope out)
    (hwell : ∀ e ∈ recordsOf done (some prepare), e.WellFormed)
    (hjournal : s.journal = linesOf (recordsOf done (some prepare)))
    (hlog : ∀ es, (∀ e ∈ es, e.WellFormed) → s.log = linesOf es →
      es = envelopesOf done (some prepare)) : Agrees out.2 := by
  refine agrees_of_reading fun entries es hentries hes hentriesEq hesEq => ?_
  obtain ⟨n, previous, k, hprevious, hwritten, -⟩ := hs.journal
  have hprepare : prepare.WellFormed := by
    refine hwell prepare ?_
    rw [recordsOf_some]
    exact List.mem_append_right _ (List.mem_singleton.mpr rfl)
  have henvelopes := hlog es hes (by rw [← hs.log, hesEq])
  rw [hwritten, hjournal] at hentriesEq
  rcases eq_of_cut_lineOf (wellFormed_commitRecord h prepare n previous hprepare hprevious) hwell
    hentries hentriesEq.symm with rfl | rfl
  · exact ⟨done, some prepare, rfl, .inr henvelopes⟩
  · refine ⟨done ++ [⟨prepare, commitRecord h prepare n previous⟩], none, ?_, .inl ?_⟩
    · rw [recordsOf_snoc]
    · rw [envelopesOf_snoc, henvelopes]

/-- The document of a new transaction is what its line is read as. -/
theorem Fresh.eq_document {s : Store} {H : History}
    {envelope txId expectedHead expectedSequence : Json} {plan : Plan}
    (hf : Fresh h a reprs s H envelope txId expectedHead expectedSequence plan) {z : Json}
    (hz : z.WellFormed) (hencoding : z.encoding = envelope.encoding) : z = plan.document := by
  have hread : readDocument z.encoding = some z :=
    Json.loads_encoding Json.keepsSorted_lastWins hz
  rw [hencoding, hf.document] at hread
  exact (Option.some.inj hread).symm

theorem Fresh.wellFormed_document {s : Store} {H : History}
    {envelope txId expectedHead expectedSequence : Json} {plan : Plan}
    (hf : Fresh h a reprs s H envelope txId expectedHead expectedSequence plan) :
    plan.document.WellFormed := by
  obtain ⟨text, -, hloads⟩ := Option.bind_eq_some_iff.mp hf.document
  exact Json.wellFormed_loads Json.sortsPairs_lastWins hloads

theorem wellFormed_of_identifier {value : Json} {label : String} {u : Unit}
    (hok : requireIdentifier value label = .ok u) : value.WellFormed := by
  obtain ⟨id, rfl⟩ := LedgerV2.requireIdentifier_eq_ok hok
  trivial

theorem Fresh.wellFormed_prepare {s : Store} {H : History}
    {envelope txId expectedHead expectedSequence : Json} {plan : Plan}
    (hf : Fresh h a reprs s H envelope txId expectedHead expectedSequence plan) :
    plan.prepare.WellFormed := by
  rw [hf.prepare]
  exact wellFormed_prepareRecord _ _ _ _ _ _ _ (wellFormed_of_identifier hf.named)
    (wellFormed_lastHash hf.shows.wellFormed_entries) hf.wellFormed_document

theorem Fresh.entries_eq {s : Store} {H : History}
    {envelope txId expectedHead expectedSequence : Json} {plan : Plan}
    (hf : Fresh h a reprs s H envelope txId expectedHead expectedSequence plan) :
    H.entries = recordsOf H.done none := by
  rw [History.entries, hf.settled]

theorem Fresh.get_envelope {s : Store} {H : History}
    {envelope txId expectedHead expectedSequence : Json} {plan : Plan}
    (hf : Fresh h a reprs s H envelope txId expectedHead expectedSequence plan) :
    plan.prepare.get "envelope" = plan.document := by
  rw [hf.prepare, get_prepare_envelope]

theorem Fresh.wellFormed_records {s : Store} {H : History}
    {envelope txId expectedHead expectedSequence : Json} {plan : Plan}
    (hf : Fresh h a reprs s H envelope txId expectedHead expectedSequence plan) :
    ∀ e ∈ recordsOf H.done (some plan.prepare), e.WellFormed := by
  intro e he
  rw [recordsOf_some, ← hf.entries_eq] at he
  rcases List.mem_append.mp he with he | he
  · exact hf.shows.wellFormed_entries e he
  · rw [List.mem_singleton.mp he]
    exact hf.wellFormed_prepare

/-- **A new transaction keeps the files in agreement**, wherever it stops. -/
theorem AppendStep.agrees {s : Store} {H : History}
    {envelope txId expectedHead expectedSequence : Json} {plan : Plan}
    {out : Except StoreError DurableAppend × Store} (hs : Agrees s)
    (hf : Fresh h a reprs s H envelope txId expectedHead expectedSequence plan)
    (hstep : AppendStep h a reprs s txId plan out) : Agrees out.2 := by
  have hentries := hf.shows.wellFormed_entries
  have henvelopes := hf.shows.wellFormed_envelopes
  have hcommitted := hf.shows.envelopes_eq hs hf.settled
  have hjournal : s.journal = linesOf (recordsOf H.done none) := by
    rw [← hf.entries_eq]
    exact hf.shows.journal.bytes
  have hlog : s.log = linesOf H.envelopes := hf.shows.log.bytes
  rw [hf.entries_eq] at hentries
  have hnext : envelopesOf H.done (some plan.prepare) = H.envelopes ++ [plan.document] := by
    rw [envelopesOf_some, hf.get_envelope, hcommitted]
  cases hstep with
  | prepare n _ hl hj _ _ =>
    refine agrees_of_reading fun entries es hwell hes hentriesEq hesEq => ?_
    rw [hj, hjournal] at hentriesEq
    rw [hl, hlog] at hesEq
    obtain rfl := linesOf_injective henvelopes hes hesEq
    rcases eq_of_cut_lineOf hf.wellFormed_prepare hentries hwell hentriesEq.symm with rfl | rfl
    · exact ⟨H.done, none, rfl, .inl hcommitted⟩
    · exact ⟨H.done, some plan.prepare, (recordsOf_some _ _).symm, .inl hcommitted⟩
  | event n _ hl hj _ _ =>
    refine agrees_of_reading fun entries es hwell hes hentriesEq hesEq => ?_
    rw [hj, hjournal] at hentriesEq
    rw [hl, hlog, hf.record] at hesEq
    obtain rfl := eq_of_lineOf hf.wellFormed_prepare hentries hwell hentriesEq.symm
    refine ⟨H.done, some plan.prepare, (recordsOf_some _ _).symm, ?_⟩
    rcases eq_of_cut henvelopes hes (Json.lf_notMem_encoding envelope) hesEq.symm with
      rfl | ⟨z, rfl, hz, hencoding⟩
    · exact .inl hcommitted
    · rw [hf.eq_document hz hencoding]
      exact .inr hnext.symm
  | commit _ hcommit =>
    refine hcommit.agrees hf.wellFormed_records ?_ ?_
    · show s.journal ++ lineOf plan.prepare = _
      rw [recordsOf_some, linesOf_snoc_lineOf, hjournal]
    · intro es hes hesEq
      replace hesEq : s.log ++ plan.record = linesOf es := hesEq
      rw [hlog, hf.record] at hesEq
      obtain ⟨z, rfl, hz, hencoding⟩ :=
        eq_of_line henvelopes hes (Json.lf_notMem_encoding envelope) hesEq.symm
      rw [hf.eq_document hz hencoding, hnext]

/-- The number of the pending PREPARE. -/
theorem Shows.pending_sequence {s : Store} {H : History} {clean : Bool} {p : Json}
    (hH : Shows h a reprs s H clean) (hp : H.pending = some p) :
    p.get "expected_sequence" = .int ((H.done.length : ℤ) + 1) := by
  refine (hH.combined.prepares H.done.length p ?_).sequence
  rw [preparesOf, hp, List.getElem?_append_right (by simp)]
  simp

/-- **Reconciling keeps the files in agreement**, wherever it stops. -/
theorem ReconcileStep.agrees {s : Store} {H : History} {txId p : Json}
    {out : Except StoreError DurableAppend × Store} (hs : Agrees s)
    (hH : Shows h a reprs s H false) (hp : H.pending = some p)
    (hstep : ReconcileStep h a reprs s H txId p out) : Agrees out.2 := by
  have hentries := hH.wellFormed_entries
  have henvelopes := hH.wellFormed_envelopes
  have hsequence := hH.pending_sequence hp
  have hagrees := hH.agrees hs
  have hjournal : s.journal = linesOf (recordsOf H.done (some p)) := by
    rw [← hp]
    exact hH.journal.bytes
  have hlog : s.log = linesOf H.envelopes := hH.log.bytes
  rw [History.entries, hp] at hentries
  rw [hp] at hagrees
  have hpwell : p.WellFormed := hentries p (by rw [recordsOf_some]; simp)
  -- Where the number of the PREPARE is the next one, its event is missing.
  have hmissing : p.get "expected_sequence" = .int (H.envelopes.length + 1) →
      H.envelopes = envelopesOf H.done none := by
    intro hnext
    rw [hsequence, Json.int.injEq] at hnext
    refine hagrees.resolve_right fun heq => ?_
    have hlen := congrArg List.length heq
    rw [length_envelopesOf, Option.toList_some, List.length_singleton] at hlen
    omega
  have hpresent : p.get "expected_sequence" = .int H.envelopes.length →
      H.envelopes = envelopesOf H.done (some p) := by
    intro hnext
    rw [hsequence, Json.int.injEq] at hnext
    refine hagrees.resolve_left fun heq => ?_
    have hlen := congrArg List.length heq
    rw [length_envelopesOf, Option.toList_none, List.length_nil] at hlen
    omega
  cases hstep with
  | event n hnext hl hj _ _ =>
    refine agrees_of_reading fun entries es hwell hes hentriesEq hesEq => ?_
    rw [hj, hjournal] at hentriesEq
    rw [hl, hlog] at hesEq
    obtain rfl := linesOf_injective hentries hwell hentriesEq
    refine ⟨H.done, some p, rfl, ?_⟩
    rcases eq_of_cut_lineOf (Json.wellFormed_get hpwell _) henvelopes hes hesEq.symm with
      rfl | rfl
    · exact .inl (hmissing hnext)
    · rw [envelopesOf_some, hmissing hnext]
      exact .inr rfl
  | eventCommit hnext hcommit =>
    refine hcommit.agrees hentries hjournal fun es hes hesEq => ?_
    replace hesEq : s.log ++ lineOf (p.get "envelope") = linesOf es := hesEq
    rw [hlog] at hesEq
    obtain rfl := eq_of_lineOf (Json.wellFormed_get hpwell _) henvelopes hes hesEq.symm
    rw [envelopesOf_some, hmissing hnext]
  | commit hnext hcommit =>
    refine hcommit.agrees hentries hjournal fun es hes hesEq => ?_
    rw [hlog] at hesEq
    rw [← linesOf_injective henvelopes hes hesEq, hpresent hnext]

theorem Agrees.congr {s s' : Store} (hs : Agrees s) (hlog : s'.log = s.log)
    (hjournal : s'.journal = s.journal) : Agrees s' := by
  unfold Agrees
  rw [hlog, hjournal]
  exact hs

/-- A result that is returned after a COMMIT is in the journal. -/
theorem CommitStep.recorded {s : Store} {txId prepare envelope : Json} {done : List Committed}
    {out : Except StoreError DurableAppend × Store} {result : DurableAppend}
    (hs : CommitStep h a reprs s txId prepare envelope out)
    (hwell : ∀ e ∈ recordsOf done (some prepare), e.WellFormed)
    (hjournal : s.journal = linesOf (recordsOf done (some prepare)))
    (htx : prepare.get "tx_id" = txId) (henvelope : prepare.get "envelope" = envelope)
    (hok : out.1 = .ok result) : ∃ H, Shows h a reprs out.2 H false ∧ Recorded H result := by
  obtain ⟨n, previous, k, hprevious, hwritten, -, hresult⟩ := hs.journal
  obtain ⟨hresultTx, hresultEnvelope, hwhole, H, hH⟩ := hresult result hok
  have hprepare : prepare.WellFormed := hwell prepare (by rw [recordsOf_some]; simp)
  have hentries : linesOf H.entries = linesOf (recordsOf done (some prepare)) ++
      lineOf (commitRecord h prepare n previous) := by
    rw [← hH.journal.bytes, hwritten, List.take_of_length_le hwhole, hjournal]
  have heq := eq_of_lineOf (wellFormed_commitRecord h prepare n previous hprepare hprevious) hwell
    hH.wellFormed_entries hentries
  rw [History.entries, ← recordsOf_snoc] at heq
  obtain ⟨hdone, -⟩ := recordsOf_injective heq
  refine ⟨H, (Shows.clean_iff.mp hH).1, ⟨prepare, commitRecord h prepare n previous⟩, ?_, ?_, ?_⟩
  · rw [hdone]
    exact List.mem_append_right _ (List.mem_singleton.mpr rfl)
  · exact htx.trans hresultTx.symm
  · exact henvelope.trans hresultEnvelope.symm

end LedgerStore
