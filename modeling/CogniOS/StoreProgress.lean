/-
# The steps of an append that nothing stops

What the files of the store hold after each record of a transaction: its PREPARE, its event and
its COMMIT.

* `Shows.prepare`, `Shows.event`, `Shows.commit` : one record more;
* `append_fresh` : an append that nothing stops.
-/
import CogniOS.BuiltRecords

namespace LedgerStore

open LedgerV2 (Authority canonicalJsonBytes requireIdentifier requireSha256 readDocument
  validateV2Envelope verifyV2Chain)
open Utf8 (lf)

variable {h : Hasher} {a : Authority} {reprs : FloatLit → Bool}

/-! ## Positions and indices -/

/-- A position is that of the envelopes before it. -/
theorem positionOf_append {envelopes more : List Json} {n : ℕ} (hn : n ≤ envelopes.length) :
    positionOf h (envelopes ++ more) n = positionOf h envelopes n := by
  unfold positionOf
  rw [List.take_append_of_le_length hn]

theorem positionOf_length (h : Hasher) (envelopes : List Json) :
    positionOf h envelopes envelopes.length =
      ⟨h.hexdigest (linesOf envelopes), (linesOf envelopes).length⟩ := by
  rw [positionOf, List.take_length]

theorem positionOf_snoc (h : Hasher) (envelopes : List Json) (document : Json) :
    positionOf h (envelopes ++ [document]) (envelopes.length + 1) =
      ⟨h.hexdigest (linesOf (envelopes ++ [document])),
        (linesOf (envelopes ++ [document])).length⟩ := by
  have hlen : (envelopes ++ [document]).length = envelopes.length + 1 := by simp
  rw [← hlen, positionOf_length]

theorem length_linesOf_snoc (envelopes : List Json) (document : Json) :
    (linesOf (envelopes ++ [document])).length =
      (linesOf envelopes).length + document.encoding.length + 1 := by
  rw [linesOf_snoc, List.length_append, List.length_append]
  rfl

theorem length_lineOf (document : Json) : (lineOf document).length = document.encoding.length + 1 :=
  List.length_append

theorem getElem?_preparesOf_some (done : List Committed) (p : Json) :
    (preparesOf done (some p))[done.length]? = some p := by
  have hlen : (done.map Committed.prepare).length = done.length := List.length_map _
  rw [preparesOf, ← hlen, List.getElem?_append_right (le_refl _), Nat.sub_self]
  rfl

theorem preparesOf_snoc (done : List Committed) (p c : Json) :
    preparesOf (done ++ [⟨p, c⟩]) none = preparesOf done (some p) := by
  simp [preparesOf]

theorem length_preparesOf (done : List Committed) (pending : Option Json) :
    (preparesOf done pending).length = done.length + pending.toList.length := by
  rw [preparesOf, List.length_append, List.length_map]

/-- The pending PREPARE is the one after those that are committed. -/
theorem Shows.pendingRules {s : Store} {H : History} {clean : Bool}
    (hH : Shows h a reprs s H clean) {p : Json} (hp : H.pending = some p) :
    PrepareRules h H.envelopes H.done.length p := by
  have hprepares := hH.combined.prepares
  rw [hp] at hprepares
  exact hprepares _ p (getElem?_preparesOf_some H.done p)

theorem mem_entries_pending {H : History} {p : Json} (hp : H.pending = some p) :
    p ∈ H.entries := by
  rw [History.entries, hp, recordsOf_some]
  exact List.mem_append_right _ (List.mem_singleton.mpr rfl)

/-- The checks of the pending PREPARE as a record. -/
theorem Shows.pendingRecord {s : Store} {H : History} {clean : Bool}
    (hH : Shows h a reprs s H clean) {p : Json} (hp : H.pending = some p) :
    JournalLine h a reprs p ∧ p.get "kind" = .str "PREPARE" := by
  refine ⟨hH.journal.lines p (mem_entries_pending hp), hH.chained.prepares p ?_⟩
  rw [hp, preparesOf]
  exact List.mem_append_right _ (List.mem_singleton.mpr rfl)

/-- What `validatePrepare` has checked. -/
theorem prepareBinds {p : Json} (hp : RecordRules h a p) (hkind : p.get "kind" = .str "PREPARE") :
    validateV2Envelope h a (p.get "envelope") = .ok () ∧
      p.get "event_hash" = (p.get "envelope").get "event_hash" ∧
      p.get "expected_head" = ((p.get "envelope").get "event").get "previous_hash" ∧
      p.get "expected_sequence" = ((p.get "envelope").get "event").get "sequence" := by
  have hfields := hp.ofKind
  unfold validateKindFields at hfields
  rw [if_pos hkind] at hfields
  unfold validatePrepare at hfields
  obtain ⟨_, -, hfields⟩ := bind_eq_ok.mp hfields
  obtain ⟨_, -, hfields⟩ := bind_eq_ok.mp hfields
  obtain ⟨_, -, hfields⟩ := bind_eq_ok.mp hfields
  obtain ⟨_, -, hfields⟩ := bind_eq_ok.mp hfields
  obtain ⟨_, hvalid, hfields⟩ := bind_eq_ok.mp hfields
  obtain ⟨_, -, hbound⟩ := bind_eq_ok.mp hfields
  obtain ⟨-, heventHash, -, hsequence, hhead, -⟩ := require_eq_ok.mp hbound
  exact ⟨hvalid, heventHash.symm, hhead.symm, hsequence.symm⟩

theorem requireSha256_lastHash {entries : List Json}
    (hentries : ∀ e ∈ entries, RecordRules h a e) :
    requireSha256 (lastHash entries) "" = .ok () := by
  unfold lastHash
  cases hlast : entries.getLast? with
  | none => decide +kernel
  | some e => exact relabel_sha256 _ (hentries e (List.mem_of_getLast? hlast)).journalHash

/-! ## One PREPARE more -/

/-- A new transaction for a history with nothing pending. -/
structure Candidate (h : Hasher) (a : Authority) (reprs : FloatLit → Bool) (H : History)
    (txId document : Json) : Prop where
  settled : H.pending = none
  line : LedgerLine h a reprs document
  named : requireIdentifier txId "" = .ok ()
  unused : findTransaction H.chain.transactions txId = none
  sequence : (document.get "event").get "sequence" = .int (H.envelopes.length + 1)
  count : H.envelopes.length < maxStoreEvents
  room : (linesOf (H.envelopes ++ [document])).length ≤ maxStoreBytes

/-- The PREPARE of a transaction. -/
def History.prepareFor (h : Hasher) (H : History) (txId document : Json) : Json :=
  prepareRecord h txId (H.entries.length + 1) (lastHash H.entries) document
    (positionOf h H.envelopes H.envelopes.length)
    (positionOf h (H.envelopes ++ [document]) (H.envelopes.length + 1))

theorem floatsAll_prepareFor {H : History} {txId document : Json}
    (hdocument : document.floatsAll reprs = true)
    (hnamed : requireIdentifier txId "" = .ok ())
    (hlast : requireSha256 (lastHash H.entries) "" = .ok ()) :
    (H.prepareFor h txId document).floatsAll reprs = true := by
  obtain ⟨t, rfl, -⟩ := requireIdentifier_iff.mp hnamed
  obtain ⟨d, hd, -⟩ := (Option.any_eq_true _ _).mp (requireSha256_eq_ok.mp hlast)
  have hevent := Json.floatsAll_get hdocument "event"
  rw [History.prepareFor, prepareRecord, Json.asStr?_eq_some.mp hd]
  simp only [prepareBefore, prepareAfter, List.cons_append, List.nil_append, Json.floatsAll,
    Json.floatsAllFields, hdocument, Json.floatsAll_get hdocument, Json.floatsAll_get hevent,
    Bool.and_self]

section Prepare

variable {s : Store} {H : History} {txId document : Json}

theorem length_entries_lt (hH : Shows h a reprs s H false) (hc : Candidate h a reprs H txId document) :
    H.entries.length < maxJournalEntries := by
  have hdone := hH.combined.resolved hc.settled
  have hcount := hc.count
  rw [History.entries, hc.settled, length_recordsOf]
  rw [maxJournalEntries]
  show 2 * H.done.length + 0 < _
  omega

theorem journalLine_prepareFor (hH : Shows h a reprs s H false)
    (hc : Candidate h a reprs H txId document)
    (hsize : (H.prepareFor h txId document).encoding.length ≤ LedgerV2.maxDocumentBytes) :
    JournalLine h a reprs (H.prepareFor h txId document) := by
  have hrules : ∀ e ∈ H.entries, RecordRules h a e := fun e he => (hH.journal.lines e he).rules
  have hlast := requireSha256_lastHash hrules
  have hpost : (positionOf h (H.envelopes ++ [document]) (H.envelopes.length + 1)).logSizeBytes =
      (positionOf h H.envelopes H.envelopes.length).logSizeBytes +
        document.encoding.length + 1 := by
    rw [positionOf_snoc, positionOf_length]
    exact length_linesOf_snoc H.envelopes document
  refine ⟨?_, hsize, floatsAll_prepareFor hc.line.floats hc.named hlast, ?_⟩
  · exact wellFormed_prepareRecord h txId _ _ document _ _ (wellFormed_of_identifier hc.named)
      (wellFormed_lastHash hH.wellFormed_entries) hc.line.wellFormed
  · refine recordRules_prepareRecord hc.named (length_entries_lt hH hc) hlast hc.line.valid
      hc.sequence hc.count (requireSha256_positionOf h _ _) (requireSha256_positionOf h _ _) hpost ?_
      hsize
    rw [positionOf_snoc]
    exact hc.room

/-- **The files after a PREPARE.** -/
theorem Shows.prepare (hH : Shows h a reprs s H false) (hc : Candidate h a reprs H txId document)
    (hsize : (H.prepareFor h txId document).encoding.length ≤ LedgerV2.maxDocumentBytes)
    (hjournal : s.journal.length + (lineOf (H.prepareFor h txId document)).length ≤
      maxJournalBytes) :
    Shows h a reprs { s with journal := s.journal ++ lineOf (H.prepareFor h txId document) }
      { H with pending := some (H.prepareFor h txId document) } false := by
  have hentries : ({ H with pending := some (H.prepareFor h txId document) } : History).entries =
      H.entries ++ [H.prepareFor h txId document] := by
    rw [History.entries, History.entries, hc.settled, recordsOf_some]
  have hkind : (H.prepareFor h txId document).get "kind" = .str "PREPARE" := rfl
  have hstep : chainStep (H.entries.length + 1) H.chain (H.prepareFor h txId document) = .ok
      { previous := (H.prepareFor h txId document).get "journal_hash"
        transactions := H.chain.transactions ++ [⟨txId, H.prepareFor h txId document, none⟩]
        unresolved := some txId } := by
    unfold chainStep
    refine require_bind_eq_ok.mpr ⟨⟨rfl, rfl⟩, ?_⟩
    have hunresolved : H.chain.unresolved = none := by
      rw [hH.chained.unresolved, hc.settled]
      rfl
    have htx : (H.prepareFor h txId document).get "tx_id" = txId := rfl
    rw [htx, if_pos hkind]
    exact require_bind_eq_ok.mpr ⟨⟨hunresolved, hc.unused⟩, rfl⟩
  have hchain : ({ H with pending := some (H.prepareFor h txId document) } : History).chain =
      { previous := (H.prepareFor h txId document).get "journal_hash"
        transactions := H.chain.transactions ++ [⟨txId, H.prepareFor h txId document, none⟩]
        unresolved := some txId } := by
    unfold History.chain
    rw [hentries, lastHash_snoc, hc.settled, transactionsOf_some]
    rfl
  have hchained := (hH.chained.prepare hkind hstep).2
  rw [← hchain, ← hentries] at hchained
  have hdone := hH.combined.resolved hc.settled
  have hline := journalLine_prepareFor hH hc hsize
  refine ⟨hH.log, hH.verified, ?_, ?_, hchained, ?_⟩
  · rw [hentries]
    refine ⟨?_, ?_, ?_, ?_⟩
    · rw [linesOf_snoc, ← hH.journal.bytes]
      rfl
    · intro e he
      rcases List.mem_append.mp he with he | he
      · exact hH.journal.lines e he
      · rw [List.mem_singleton.mp he]
        exact hline
    · rw [List.length_append]
      exact hjournal
    · rw [List.length_append]
      exact length_entries_lt hH hc
  · rw [hentries, hchain]
    exact validateJournalChain_snoc.mpr ⟨H.chain, hH.validated, hstep⟩
  · refine ⟨?_, hH.combined.committed, ?_, by simp, ?_, by simp⟩
    · rw [length_preparesOf]
      show H.done.length + 1 ≤ H.envelopes.length + 1
      omega
    · intro i p hp
      by_cases hi : i < H.done.length
      · -- A PREPARE of before.
        refine hH.combined.prepares i p ?_
        have hlen : i < (H.done.map Committed.prepare).length := by rwa [List.length_map]
        rw [preparesOf, List.getElem?_append_left hlen] at hp ⊢
        exact hp
      · have hlt := (List.getElem?_eq_some_iff.mp hp).1
        rw [length_preparesOf] at hlt
        have hlt : i < H.done.length + 1 := hlt
        obtain rfl : i = H.done.length := by omega
        obtain rfl := Option.some.inj ((getElem?_preparesOf_some _ _).symm.trans hp)
        rw [hdone]
        refine ⟨hc.sequence, rfl, rfl, ?_, fun hlt => ?_, fun hlt => ?_⟩
        · intro e he
          rw [List.getElem?_eq_none (le_refl _)] at he
          cases he
        · exact absurd hlt (lt_irrefl _)
        · exact absurd hlt (lt_irrefl _)
    · intro p hp
      obtain rfl := Option.some.inj hp
      exact .inr hc.sequence

end Prepare

/-! ## One event more -/

/-- The state of the loop before the first event. -/
def chainStart : LedgerV2.ChainState := ⟨.str LedgerV2.genesisHash, false, .null⟩

/-- The report of a chain with the state of the loop after it. -/
def reportOf (envelopes : List Json) (st : LedgerV2.ChainState) : LedgerV2.ChainReport where
  valid := true
  scheme := LedgerV2.domain
  events := envelopes.length
  head := st.previousHash
  ledgerId := st.ledgerId
  migratedFromV1AuditOnly := st.migratedFromV1
  releaseReady := false

theorem verifyV2Chain_iff {envelopes : List Json} {report : LedgerV2.ChainReport} :
    verifyV2Chain h a envelopes = .ok report ↔
      envelopes.length ≤ LedgerV2.maxEvents ∧
      (¬∃ item ∈ envelopes, item.isObj = true ∧ item.keys = LedgerV2.legacyHmacV1EventKeys) ∧
      ∃ st, LedgerV2.chainLoop h a 1 chainStart envelopes = .ok st ∧
        report = reportOf envelopes st := by
  unfold verifyV2Chain
  rw [require_bind_eq_ok, require_bind_eq_ok, bind_eq_ok]
  refine and_congr_right fun _ => and_congr_right fun _ => exists_congr fun st => ?_
  exact and_congr_right fun _ => ⟨fun hend => (Except.ok.inj hend).symm, fun hend => by rw [hend]; rfl⟩

theorem chainLoop_snoc {envelopes : List Json} {document : Json} {st : LedgerV2.ChainState} :
    LedgerV2.chainLoop h a 1 chainStart (envelopes ++ [document]) = .ok st ↔
      ∃ before, LedgerV2.chainLoop h a 1 chainStart envelopes = .ok before ∧
        LedgerV2.chainStep h a (1 + envelopes.length) before document = .ok st := by
  rw [LedgerV2.chainLoop_append, bind_eq_ok]
  refine exists_congr fun before => and_congr_right fun _ => ?_
  rw [LedgerV2.chainLoop, bind_eq_ok]
  constructor
  · rintro ⟨st', hstep, hend⟩
    obtain rfl := Except.ok.inj hend
    exact hstep
  · intro hstep
    exact ⟨st, hstep, rfl⟩

theorem previousHash_of_chainStep {n : ℕ} {st st' : LedgerV2.ChainState} {document : Json}
    (hstep : LedgerV2.chainStep h a n st document = .ok st') :
    st'.previousHash = document.get "event_hash" := by
  unfold LedgerV2.chainStep at hstep
  obtain ⟨_, -, hstep⟩ := bind_eq_ok.mp hstep
  obtain ⟨-, hstep⟩ := require_bind_eq_ok.mp hstep
  obtain ⟨-, hstep⟩ := require_bind_eq_ok.mp hstep
  obtain ⟨-, hstep⟩ := require_bind_eq_ok.mp hstep
  by_cases hanchor : (document.get "event").get "action" = .str LedgerV2.migrationAction
  · simp only [hanchor, decide_true, if_true] at hstep
    obtain ⟨-, hstep⟩ := require_bind_eq_ok.mp hstep
    obtain ⟨_, -, hstep⟩ := bind_eq_ok.mp hstep
    cases hstep
    rfl
  · simp only [hanchor, decide_false, Bool.false_eq_true, if_false] at hstep
    cases hstep
    rfl

/-- The head of a chain is the hash of its last event. -/
theorem head_snoc {envelopes : List Json} {document : Json} {report : LedgerV2.ChainReport}
    (hok : verifyV2Chain h a (envelopes ++ [document]) = .ok report) :
    report.head = document.get "event_hash" := by
  obtain ⟨-, -, st, hloop, rfl⟩ := verifyV2Chain_iff.mp hok
  obtain ⟨_, -, hstep⟩ := chainLoop_snoc.mp hloop
  exact previousHash_of_chainStep hstep

/-- The last event of a chain follows the head of the chain before it. -/
theorem previous_of_snoc {envelopes : List Json} {document : Json}
    {report report' : LedgerV2.ChainReport} (hbefore : verifyV2Chain h a envelopes = .ok report)
    (hok : verifyV2Chain h a (envelopes ++ [document]) = .ok report') :
    (document.get "event").get "previous_hash" = report.head := by
  obtain ⟨-, -, st, hloop, -⟩ := verifyV2Chain_iff.mp hok
  obtain ⟨before, hloop, hstep⟩ := chainLoop_snoc.mp hloop
  obtain ⟨-, -, st₀, hloop₀, rfl⟩ := verifyV2Chain_iff.mp hbefore
  obtain rfl := Except.ok.inj (hloop.symm.trans hloop₀)
  exact (LedgerV2.chainStep_eq_ok hstep).2.1

/-- A pending PREPARE whose event is not in the log and extends its chain. -/
structure Extending (h : Hasher) (a : Authority) (H : History) (p : Json) : Prop where
  pending : H.pending = some p
  sequence : p.get "expected_sequence" = .int (H.envelopes.length + 1)
  postHash : p.get "post_log_sha256" =
    .str (positionOf h (H.envelopes ++ [p.get "envelope"]) (H.envelopes.length + 1)).logSha256
  postSize : p.get "post_log_size_bytes" =
    .int (positionOf h (H.envelopes ++ [p.get "envelope"]) (H.envelopes.length + 1)).logSizeBytes
  verified : ∃ report, verifyV2Chain h a (H.envelopes ++ [p.get "envelope"]) = .ok report

section Event

variable {s : Store} {H : History} {p : Json}

theorem Extending.line (hx : Extending h a H p) (hH : Shows h a reprs s H false) :
    LedgerLine h a reprs (p.get "envelope") := by
  obtain ⟨hline, hkind⟩ := hH.pendingRecord hx.pending
  exact ⟨Json.wellFormed_get hline.wellFormed _, Json.floatsAll_get hline.floats _,
    (prepareBinds hline.rules hkind).1⟩

/-- The event fits the log. -/
theorem Extending.room (hx : Extending h a H p) (hH : Shows h a reprs s H false) :
    s.log.length + (lineOf (p.get "envelope")).length ≤ maxStoreBytes := by
  obtain ⟨hline, -⟩ := hH.pendingRecord hx.pending
  obtain ⟨size, hsize, -, hle⟩ := boundedNonnegativeInt_eq_ok.mp hline.rules.postSize
  rw [hx.postSize, positionOf_snoc] at hsize
  have hsize : ((linesOf (H.envelopes ++ [p.get "envelope"])).length : ℤ) = size :=
    Json.int.inj hsize
  rw [← hsize, length_linesOf_snoc] at hle
  rw [length_lineOf, hH.log.bytes]
  exact_mod_cast hle

theorem Extending.count (hx : Extending h a H p) (hH : Shows h a reprs s H false) :
    H.envelopes.length < maxStoreEvents := by
  obtain ⟨hline, -⟩ := hH.pendingRecord hx.pending
  obtain ⟨m, hm, -, hle⟩ := positiveBoundedInt_eq_ok.mp hline.rules.expectedSequence
  rw [hx.sequence] at hm
  have hm : (H.envelopes.length : ℤ) + 1 = m := Json.int.inj hm
  rw [← hm] at hle
  exact_mod_cast hle

/-- **The files after an event.** -/
theorem Shows.event (hH : Shows h a reprs s H false) (hx : Extending h a H p)
    {report : LedgerV2.ChainReport}
    (hverified : verifyV2Chain h a (H.envelopes ++ [p.get "envelope"]) = .ok report) :
    Shows h a reprs { s with log := s.log ++ lineOf (p.get "envelope") }
      { H with envelopes := H.envelopes ++ [p.get "envelope"], report := report } false := by
  have hrules := hH.pendingRules hx.pending
  have hdone : H.done.length = H.envelopes.length := by
    have hsequence := hrules.sequence
    rw [hx.sequence] at hsequence
    have := Json.int.inj hsequence
    omega
  have hlen : (H.envelopes ++ [p.get "envelope"]).length = H.envelopes.length + 1 := by simp
  refine ⟨⟨?_, ?_, ?_, ?_⟩, hverified, hH.journal, hH.validated, hH.chained, ?_⟩
  · show s.log ++ lineOf (p.get "envelope") = linesOf (H.envelopes ++ [p.get "envelope"])
    rw [hH.log.bytes, linesOf_snoc]
    rfl
  · intro e he
    rcases List.mem_append.mp he with he | he
    · exact hH.log.lines e he
    · rw [List.mem_singleton.mp he]
      exact hx.line hH
  · rw [List.length_append]
    exact hx.room hH
  · rw [hlen]
    exact hx.count hH
  · refine ⟨?_, ?_, ?_, ?_, ?_, by simp⟩
    · rw [hlen]
      exact Nat.le_succ_of_le hH.combined.prepared
    · rw [hlen]
      exact Nat.le_succ_of_le hH.combined.committed
    · intro i q hq
      have hold := hH.combined.prepares i q hq
      have hlt := (List.getElem?_eq_some_iff.mp hq).1
      rw [length_preparesOf, hx.pending] at hlt
      have hlt : i < H.done.length + 1 := hlt
      by_cases hi : i < H.envelopes.length
      · -- The event of this PREPARE was in the log before.
        refine ⟨hold.sequence, ?_, ?_, ?_, fun _ => ?_, fun _ => ?_⟩
        · rw [positionOf_append hi.le]
          exact hold.preHash
        · rw [positionOf_append hi.le]
          exact hold.preSize
        · intro e he
          rw [List.getElem?_append_left hi] at he
          exact hold.event e he
        · rw [positionOf_append hi]
          exact hold.postHash hi
        · rw [positionOf_append hi]
          exact hold.postSize hi
      · obtain rfl : i = H.envelopes.length := by omega
        have hqp : q = p := by
          have hat : (preparesOf H.done H.pending)[H.envelopes.length]? = some p := by
            rw [hx.pending, ← hdone]
            exact getElem?_preparesOf_some H.done p
          exact Option.some.inj (hq.symm.trans hat)
        subst hqp
        refine ⟨hold.sequence, ?_, ?_, ?_, fun _ => hx.postHash, fun _ => hx.postSize⟩
        · rw [positionOf_append (le_refl _)]
          exact hold.preHash
        · rw [positionOf_append (le_refl _)]
          exact hold.preSize
        · intro e he
          rw [List.getElem?_append_right (le_refl _), Nat.sub_self] at he
          obtain rfl := Option.some.inj he
          exact Json.equals_refl _
    · intro hnone
      rw [hx.pending] at hnone
      cases hnone
    · intro q hq
      rw [hx.pending] at hq
      obtain rfl := Option.some.inj hq
      refine .inl ?_
      rw [hlen]
      exact_mod_cast hx.sequence

end Event

/-! ## One COMMIT more -/

section Commit

variable {s : Store} {H : History} {p : Json}

/-- The COMMIT of the pending PREPARE. -/
def History.commitFor (h : Hasher) (H : History) (p : Json) : Json :=
  commitRecord h p (H.entries.length + 1) (lastHash H.entries)

/-- The history after the COMMIT. -/
def History.committed (h : Hasher) (H : History) (p : Json) : History :=
  { H with done := H.done ++ [⟨p, H.commitFor h p⟩], pending := none }

theorem done_of_present (hH : Shows h a reprs s H false) (hp : H.pending = some p)
    (hpresent : p.get "expected_sequence" = .int H.envelopes.length) :
    H.done.length + 1 = H.envelopes.length := by
  have hsequence := (hH.pendingRules hp).sequence
  rw [hpresent] at hsequence
  have := Json.int.inj hsequence
  omega

theorem lastHash_pending (hp : H.pending = some p) :
    lastHash H.entries = p.get "journal_hash" := by
  rw [History.entries, hp, recordsOf_some, lastHash_snoc]

theorem length_entries_pending (hH : Shows h a reprs s H false) (hp : H.pending = some p)
    (hpresent : p.get "expected_sequence" = .int H.envelopes.length) :
    H.entries.length < maxJournalEntries := by
  have hdone := done_of_present hH hp hpresent
  have hcount := hH.log.count
  rw [History.entries, hp, length_recordsOf, maxJournalEntries]
  show 2 * H.done.length + 1 < _
  omega

theorem recordRules_commitFor (hH : Shows h a reprs s H false) (hp : H.pending = some p)
    (hpresent : p.get "expected_sequence" = .int H.envelopes.length) :
    RecordRules h a (H.commitFor h p) ∧
      (H.commitFor h p).encoding.length ≤ 1175 := by
  have hrules := (hH.pendingRecord hp).1.rules
  have hlast : requireSha256 (lastHash H.entries) "" = .ok () :=
    requireSha256_lastHash fun e he => (hH.journal.lines e he).rules
  have hcount := length_entries_pending hH hp hpresent
  exact ⟨recordRules_commitRecord hrules hcount hlast,
    length_commitRecord_le hrules (by omega) hlast⟩

theorem le_length_commitFor (hH : Shows h a reprs s H false) (hp : H.pending = some p) :
    632 ≤ (H.commitFor h p).encoding.length := by
  have hrules := (hH.pendingRecord hp).1.rules
  have hlast : requireSha256 (lastHash H.entries) "" = .ok () :=
    requireSha256_lastHash fun e he => (hH.journal.lines e he).rules
  rw [History.commitFor, length_commitRecord (relabel_sha256 _ hrules.eventHash)
    (relabel_sha256 _ hrules.postHash) (relabel_sha256 _ hrules.journalHash) hlast, commitLength]
  omega

theorem floatsAll_commitRecord {p previous : Json} {n : ℕ} (hp : p.floatsAll reprs = true)
    (hprevious : requireSha256 previous "" = .ok ()) :
    (commitRecord h p n previous).floatsAll reprs = true := by
  obtain ⟨d, hd, -⟩ := (Option.any_eq_true _ _).mp (requireSha256_eq_ok.mp hprevious)
  rw [commitRecord, Json.asStr?_eq_some.mp hd]
  simp only [commitBefore, commitAfter, List.cons_append, List.nil_append, Json.floatsAll,
    Json.floatsAllFields, Json.floatsAll_get hp, Bool.and_self]

/-- **The files after a COMMIT.** -/
theorem Shows.commit (hH : Shows h a reprs s H false) (hp : H.pending = some p)
    (hpresent : p.get "expected_sequence" = .int H.envelopes.length)
    (hjournal : s.journal.length + (lineOf (H.commitFor h p)).length ≤ maxJournalBytes) :
    Shows h a reprs { s with journal := s.journal ++ lineOf (H.commitFor h p) }
      (H.committed h p) true := by
  obtain ⟨hline, -⟩ := hH.pendingRecord hp
  have hdone := done_of_present hH hp hpresent
  have hcount := length_entries_pending hH hp hpresent
  have hlastRules : requireSha256 (lastHash H.entries) "" = .ok () :=
    requireSha256_lastHash fun e he => (hH.journal.lines e he).rules
  obtain ⟨hrules, hshort⟩ := recordRules_commitFor hH hp hpresent
  have hentries : (H.committed h p).entries = H.entries ++ [H.commitFor h p] := by
    rw [History.entries, History.committed, recordsOf_snoc, History.entries, hp]
  have htransactions : H.chain.transactions = transactionsOf H.done none ++
      [⟨p.get "tx_id", p, none⟩] := by
    rw [hH.chained.transactions, hp, transactionsOf_some]
  have hdistinct : (H.chain.transactions.map TransactionState.txId).Nodup := by
    rw [hH.chained.transactions, txIds_transactionsOf]
    exact hH.chained.distinct
  have hfound : findTransaction H.chain.transactions (p.get "tx_id") =
      some ⟨p.get "tx_id", p, none⟩ := by
    refine findTransaction_of_mem hdistinct (t := ⟨p.get "tx_id", p, none⟩) ?_
    rw [htransactions]
    exact List.mem_append_right _ (List.mem_singleton.mpr rfl)
  have hkind : (H.commitFor h p).get "kind" ≠ .str "PREPARE" := by
    rw [History.commitFor, get_commit_kind]
    decide
  have hstep : ∃ chain, chainStep (H.entries.length + 1) H.chain (H.commitFor h p) =
      .ok chain := by
    unfold chainStep
    have htx : (H.commitFor h p).get "tx_id" = p.get "tx_id" := rfl
    rw [htx, if_neg hkind]
    have hunresolved : H.chain.unresolved = some (p.get "tx_id") := by
      rw [hH.chained.unresolved, hp]
      rfl
    refine ⟨_, require_bind_eq_ok.mpr ⟨⟨rfl, rfl⟩, bind_eq_ok.mpr ⟨_, orRaise_eq_ok.mpr hfound,
      require_bind_eq_ok.mpr ⟨hunresolved, require_bind_eq_ok.mpr ⟨⟨rfl, ?_, ?_⟩, rfl⟩⟩⟩⟩⟩
    · exact lastHash_pending hp
    · intro key hkey
      simp only [boundKeys, List.mem_cons, List.not_mem_nil, or_false] at hkey
      rcases hkey with rfl | rfl | rfl | rfl | rfl
      all_goals rfl
  obtain ⟨chain, hstep⟩ := hstep
  obtain ⟨q, hq, -, hchained⟩ := hH.chained.commit hkind hstep
  obtain rfl : q = p := Option.some.inj (hq.symm.trans hp)
  have hchain : chain = (H.committed h q).chain := by
    have hpreviousEq : chain.previous = lastHash (H.committed h q).entries := by
      rw [hchained.previous, hentries]
    have htransactionsEq := hchained.transactions
    have hunresolvedEq := hchained.unresolved
    cases chain
    simp only at hpreviousEq htransactionsEq hunresolvedEq
    rw [hpreviousEq, htransactionsEq, hunresolvedEq]
    rfl
  rw [hchain, ← hentries] at hchained
  refine ⟨hH.log, hH.verified, ?_, ?_, hchained, ?_⟩
  · rw [hentries]
    refine ⟨?_, ?_, ?_, ?_⟩
    · rw [linesOf_snoc, ← hH.journal.bytes]
      rfl
    · intro e he
      rcases List.mem_append.mp he with he | he
      · exact hH.journal.lines e he
      · rw [List.mem_singleton.mp he]
        refine ⟨?_, ?_, floatsAll_commitRecord hline.floats hlastRules, hrules⟩
        · exact wellFormed_commitRecord h q _ _ hline.wellFormed
            (wellFormed_lastHash hH.wellFormed_entries)
        · exact le_trans hshort (by decide)
    · rw [List.length_append]
      exact hjournal
    · rw [List.length_append]
      exact hcount
  · rw [hentries, ← hchain]
    exact validateJournalChain_snoc.mpr ⟨H.chain, hH.validated, hstep⟩
  · have hprepares := hH.combined.prepares
    have hprepared := hH.combined.prepared
    rw [hp] at hprepares hprepared
    refine ⟨?_, ?_, ?_, ?_, ?_, fun _ => rfl⟩
    · show (preparesOf (H.done ++ [⟨q, _⟩]) none).length ≤ _
      rw [preparesOf_snoc]
      exact hprepared
    · show (H.done ++ [(⟨q, H.commitFor h q⟩ : Committed)]).length ≤ H.envelopes.length
      rw [List.length_append]
      exact hdone.le
    · intro i r hr
      have hr : (preparesOf (H.done ++ [⟨q, H.commitFor h q⟩]) none)[i]? = some r := hr
      rw [preparesOf_snoc] at hr
      exact hprepares i r hr
    · intro _
      show (H.done ++ [(⟨q, H.commitFor h q⟩ : Committed)]).length = H.envelopes.length
      rw [List.length_append]
      exact hdone
    · intro r hr
      cases hr

end Commit

/-! ## What the steps read -/

section Steps

variable {s : Store} {H : History} {p : Json}

/-- A log whose last envelope is that of its pending PREPARE is in the state that the PREPARE
asks for. -/
theorem matches_requested (hH : Shows h a reprs s H false) (hp : H.pending = some p)
    {b : List Json} (henvelopes : H.envelopes = b ++ [p.get "envelope"])
    (hpresent : p.get "expected_sequence" = .int H.envelopes.length) :
    requireSnapshotMatchesPrepare (snapshotOf h H.envelopes H.report) p true = .ok () := by
  obtain ⟨hline, hkind⟩ := hH.pendingRecord hp
  obtain ⟨-, heventHash, -, -⟩ := prepareBinds hline.rules hkind
  have hdone := done_of_present hH hp hpresent
  have hrules := hH.pendingRules hp
  have hverified := hH.verified
  rw [henvelopes] at hverified
  have hhead : H.report.head = p.get "event_hash" := by
    rw [head_snoc hverified, heventHash]
  have hposition := positionOf_length h H.envelopes
  refine require_eq_ok.mpr ⟨hpresent, hhead, ?_, ?_, ?_⟩
  · rw [hrules.postHash (by omega), hdone, hposition]
    rfl
  · rw [hrules.postSize (by omega), hdone, hposition]
    rfl
  · show Json.equals (H.envelopes.getLast?.getD .null) (p.get "envelope") = true
    rw [henvelopes, List.getLast?_concat]
    exact Json.equals_refl _

/-- A log without the event of its pending PREPARE is in the state before it. -/
theorem matches_before (hH : Shows h a reprs s H false) (hx : Extending h a H p) :
    requireSnapshotMatchesPrepare (snapshotOf h H.envelopes H.report) p false = .ok () := by
  obtain ⟨hline, hkind⟩ := hH.pendingRecord hx.pending
  obtain ⟨-, -, hexpected, -⟩ := prepareBinds hline.rules hkind
  have hrules := hH.pendingRules hx.pending
  have hdone : H.done.length = H.envelopes.length := by
    have hsequence := hrules.sequence
    rw [hx.sequence] at hsequence
    have := Json.int.inj hsequence
    omega
  have hposition := positionOf_length h H.envelopes
  obtain ⟨report, hreport⟩ := hx.verified
  refine require_eq_ok.mpr ⟨hx.sequence, ?_, ?_, ?_⟩
  · rw [hexpected]
    exact (previous_of_snoc hH.verified hreport).symm
  · rw [hrules.preHash, hdone, hposition]
    rfl
  · rw [hrules.preSize, hdone, hposition]
    rfl

theorem readLedger_of_shows (hH : Shows h a reprs s H false) :
    readLedger h a reprs s.log = .ok (snapshotOf h H.envelopes H.report) :=
  readLedger_eq_ok.mpr ⟨H.envelopes, H.report, hH.log, hH.verified, rfl⟩

theorem readJournal_of_shows (hH : Shows h a reprs s H false) :
    readJournal h a reprs s.journal = .ok (journalOf h H.entries H.chain) :=
  readJournal_eq_ok.mpr ⟨H.entries, H.chain, hH.journal, hH.validated, rfl⟩

/-- The COMMIT can be made wherever the event is in the log. -/
theorem makeCommit_of_shows (hH : Shows h a reprs s H false) (hp : H.pending = some p)
    (hpresent : p.get "expected_sequence" = .int H.envelopes.length) :
    (reading false (readJournal h a reprs s.journal) >>= makeCommit h p) =
      .ok (H.commitFor h p) := by
  have hshort := (recordRules_commitFor hH hp hpresent).2
  have hle := length_unsigned_commit_le h p (H.entries.length + 1) (lastHash H.entries)
  have hmax : 1175 ≤ LedgerV2.maxDocumentBytes := by decide
  refine bind_eq_ok.mpr ⟨_, readJournal_of_shows hH, makeCommit_eq_ok.mpr ⟨?_, ?_, rfl⟩⟩
  · exact lastHash_pending hp
  · exact le_trans hle (le_trans hshort hmax)

theorem appendRecord_none {file record : List UInt8} {maximum : ℕ} (label : String)
    (hroom : file.length + record.length ≤ maximum) :
    appendRecord none file record maximum label = (.ok (), file ++ record) := by
  unfold appendRecord
  rw [if_neg (not_lt.mpr hroom)]

/-- A record within the limits is appended whole. -/
theorem appendDocument_none {file : List UInt8} {document : Json} {maximum : ℕ} (label : String)
    (hsize : document.encoding.length ≤ LedgerV2.maxDocumentBytes)
    (hroom : file.length + (lineOf document).length ≤ maximum) :
    appendDocument none file document maximum label = (.ok (), file ++ lineOf document) := by
  have hencoded : canonicalJsonBytes document = .ok document.encoding :=
    Json.boundedEncoding_eq_ok.mpr ⟨hsize, rfl⟩
  unfold appendDocument
  rw [hencoded]
  exact appendRecord_none label hroom

theorem size_commitFor (hH : Shows h a reprs s H false) (hp : H.pending = some p)
    (hpresent : p.get "expected_sequence" = .int H.envelopes.length) :
    (H.commitFor h p).encoding.length ≤ LedgerV2.maxDocumentBytes :=
  le_trans (recordRules_commitFor hH hp hpresent).2 (by decide)

end Steps

/-! ## An append that nothing stops -/

section Append

variable {s : Store} {H : History} {txId : Json} {plan : Plan}

/-- The COMMIT of an append. -/
theorem appendCommit_none (hH : Shows h a reprs s H false) (hp : H.pending = some plan.prepare)
    (hpresent : plan.prepare.get "expected_sequence" = .int H.envelopes.length)
    (hprocess : s.indeterminate = ∅)
    (hroom : s.journal.length + (lineOf (H.commitFor h plan.prepare)).length ≤ maxJournalBytes) :
    ∃ s', appendCommit h a reprs .none s txId plan =
        (.ok ⟨txId, plan.document, ((H.committed h plan.prepare).audit h).ledger⟩, s') ∧
      s'.indeterminate = ∅ ∧ Shows h a reprs s' (H.committed h plan.prepare) true := by
  have hcommit := hH.commit hp hpresent hroom
  have hwritten := appendDocument_none "Ledger v2 journal COMMIT" (size_commitFor hH hp hpresent)
    hroom
  have hfinal : readCombined h a reprs false false
      { s with journal := s.journal ++ lineOf (H.commitFor h plan.prepare) } true ∅ =
      .ok ((H.committed h plan.prepare).audit h) := by
    refine readCombined_eq_ok.mpr ⟨rfl, rfl, fun _ => ?_, _, hcommit, rfl⟩
    show s.indeterminate \ ∅ = ∅
    rw [hprocess]
    rfl
  unfold appendCommit
  have hmade := makeCommit_of_shows hH hp hpresent
  simp only [AppendFaults.none, hmade, hwritten, hfinal]
  refine ⟨_, rfl, ?_, hcommit.congr rfl rfl⟩
  show s.indeterminate.erase txId = ∅
  rw [hprocess, Finset.erase_empty]

/-- The history after the event of a transaction. -/
def History.extended (H : History) (p : Json) (report : LedgerV2.ChainReport) : History :=
  { H with envelopes := H.envelopes ++ [p.get "envelope"], report := report }

theorem Extending.present (hx : Extending h a H plan.prepare) (report : LedgerV2.ChainReport) :
    plan.prepare.get "expected_sequence" =
      .int (H.extended plan.prepare report).envelopes.length := by
  have hlen : (H.extended plan.prepare report).envelopes.length = H.envelopes.length + 1 := by
    simp [History.extended]
  rw [hx.sequence, hlen]
  rfl

/-- The event of an append and its COMMIT. -/
theorem appendEvent_none (hH : Shows h a reprs s H false) (hx : Extending h a H plan.prepare)
    (hrecord : plan.record = lineOf (plan.prepare.get "envelope"))
    (hprocess : s.indeterminate = ∅) {report : LedgerV2.ChainReport}
    (hverified : verifyV2Chain h a (H.envelopes ++ [plan.prepare.get "envelope"]) = .ok report)
    (hroom : s.journal.length +
      (lineOf ((H.extended plan.prepare report).commitFor h plan.prepare)).length ≤
        maxJournalBytes) :
    ∃ s', appendEvent h a reprs .none s txId plan =
        (.ok ⟨txId, plan.document, (((H.extended plan.prepare report).committed h
          plan.prepare).audit h).ledger⟩, s') ∧
      s'.indeterminate = ∅ ∧
      Shows h a reprs s' ((H.extended plan.prepare report).committed h plan.prepare) true := by
  have hevent := hH.event hx hverified
  have hwritten : appendRecord none s.log plan.record maxStoreBytes "Ledger v2 event append" =
      (.ok (), s.log ++ lineOf (plan.prepare.get "envelope")) := by
    rw [hrecord]
    exact appendRecord_none _ (hx.room hH)
  have hpending : (H.extended plan.prepare report).pending = some plan.prepare := hx.pending
  have hread := readLedger_of_shows hevent
  have hmatches := matches_requested hevent hpending (b := H.envelopes) rfl (hx.present report)
  have hcommit := @appendCommit_none h a reprs _ _ txId _ hevent hpending (hx.present report) hprocess hroom
  unfold appendEvent
  simp only [AppendFaults.none, hwritten]
  have hchecked : (do
      Except.ok ()
      let after ← reading false (readLedger h a reprs (s.log ++ lineOf (plan.prepare.get "envelope")))
      requireSnapshotMatchesPrepare after plan.prepare true : Except CogniError Unit) = .ok () :=
    bind_eq_ok.mpr ⟨(), rfl, bind_eq_ok.mpr ⟨_, hread, hmatches⟩⟩
  simp only [hchecked]
  exact hcommit

/-- What a PREPARE for a candidate says of the history after it. -/
theorem Candidate.extending {document : Json} (hc : Candidate h a reprs H txId document)
    (hverified : ∃ report, verifyV2Chain h a (H.envelopes ++ [document]) = .ok report) :
    Extending h a { H with pending := some (H.prepareFor h txId document) }
      (H.prepareFor h txId document) :=
  ⟨rfl, hc.sequence, rfl, rfl, hverified⟩

/-- A new transaction, where the envelope is encoded as the document that is read from it. -/
theorem Fresh.candidate {envelope expectedHead expectedSequence : Json}
    (hf : Fresh h a reprs s H envelope txId expectedHead expectedSequence plan)
    (hsame : plan.document.encoding = envelope.encoding)
    (hfloats : plan.document.floatsAll reprs = true) :
    Candidate h a reprs H txId plan.document where
  settled := hf.settled
  line := ⟨hf.wellFormed_document, hfloats, hf.valid⟩
  named := relabel_identifier _ hf.named
  unused := hf.unused
  sequence := hf.position.1.trans hf.next
  count := by
    obtain ⟨m, hm, -, hle⟩ := positiveBoundedInt_eq_ok.mp hf.sequence
    rw [hf.next] at hm
    have hm : (H.envelopes.length : ℤ) + 1 = m := Json.int.inj hm
    rw [← hm] at hle
    exact_mod_cast hle
  room := by
    have hroom := hf.room
    rw [hf.record, List.length_append, hf.shows.log.bytes] at hroom
    rw [length_linesOf_snoc, hsame]
    exact hroom

theorem Fresh.prepare_eq {envelope expectedHead expectedSequence : Json}
    (hf : Fresh h a reprs s H envelope txId expectedHead expectedSequence plan)
    (hsame : plan.document.encoding = envelope.encoding) :
    plan.prepare = H.prepareFor h txId plan.document := by
  have hpost : positionOf h (H.envelopes ++ [plan.document]) (H.envelopes.length + 1) =
      ⟨h.hexdigest (linesOf (H.envelopes ++ [plan.document])),
        s.log.length + plan.record.length⟩ := by
    rw [positionOf_snoc, length_linesOf_snoc, hf.record, List.length_append, ← hf.shows.log.bytes,
      hsame]
    rfl
  rw [hf.prepare, History.prepareFor, hpost]

/-- **An append that nothing stops**: its PREPARE is within the limit of a document, and the
journal has room for it and a COMMIT. -/
theorem append_fresh {envelope expectedHead expectedSequence : Json}
    (hf : Fresh h a reprs s H envelope txId expectedHead expectedSequence plan)
    (hsame : plan.document.encoding = envelope.encoding)
    (hfloats : plan.document.floatsAll reprs = true)
    (hsize : plan.prepare.encoding.length ≤ LedgerV2.maxDocumentBytes)
    (hroom : s.journal.length + (lineOf plan.prepare).length + 1176 ≤ maxJournalBytes) :
    ∃ s' H' c, append h a reprs .none s envelope txId expectedHead expectedSequence =
        (.ok ⟨txId, plan.document, (H'.audit h).ledger⟩, s') ∧ s'.indeterminate = ∅ ∧
      Shows h a reprs s' H' true ∧ H'.envelopes = H.envelopes ++ [plan.document] ∧
      H'.done = H.done ++ [⟨plan.prepare, c⟩] ∧ 632 ≤ c.encoding.length ∧
      c.encoding.length ≤ 1175 := by
  have hadmitted : checkAppend h a reprs .none s envelope txId expectedHead expectedSequence =
      .ok (.fresh plan) := checkAppend_eq_fresh.mpr ⟨rfl, rfl, H, hf⟩
  have hc := hf.candidate hsame hfloats
  have hplan := hf.prepare_eq hsame
  obtain ⟨report, hverified⟩ := hf.extends'
  have hx := hc.extending ⟨report, hverified⟩
  rw [← hplan] at hx
  have henvelope : plan.prepare.get "envelope" = plan.document := by
    rw [hplan]
    rfl
  have hprepared : Shows h a reprs { s with journal := s.journal ++ lineOf plan.prepare }
      { H with pending := some plan.prepare } false := by
    rw [hplan] at hsize hroom ⊢
    exact hf.shows.prepare hc hsize (by omega)
  have hverified' : verifyV2Chain h a (H.envelopes ++ [plan.prepare.get "envelope"]) =
      .ok report := by rwa [henvelope]
  have hrecord : plan.record = lineOf (plan.prepare.get "envelope") := by
    rw [hf.record, henvelope, lineOf, hsame]
  have hshort := (recordRules_commitFor (hprepared.event hx hverified') hx.pending
    (hx.present report)).2
  have hroom' : (s.journal ++ lineOf plan.prepare).length + (lineOf
      ((({ H with pending := some plan.prepare } : History).extended plan.prepare report).commitFor
        h plan.prepare)).length ≤ maxJournalBytes := by
    have hline := length_lineOf
      ((({ H with pending := some plan.prepare } : History).extended plan.prepare report).commitFor
        h plan.prepare)
    have hcommit : ((({ H with pending := some plan.prepare } : History).extended plan.prepare
      report).commitFor h plan.prepare).encoding.length ≤ 1175 := hshort
    rw [List.length_append]
    omega
  obtain ⟨s', hevent, hprocess, hshows⟩ := @appendEvent_none h a reprs _ _ txId _ hprepared hx hrecord
    hf.process _ hverified' hroom'
  refine ⟨s', _, _, ?_, hprocess, hshows, ?_, rfl,
    le_length_commitFor (hprepared.event hx hverified') hx.pending, hshort⟩
  · unfold append
    rw [hadmitted]
    show appendPrepare h a reprs .none s txId plan = _
    unfold appendPrepare
    have hwritten : appendDocument none s.journal plan.prepare maxJournalBytes
        "Ledger v2 journal PREPARE" = (.ok (), s.journal ++ lineOf plan.prepare) :=
      appendDocument_none _ hsize (by omega)
    simp only [AppendFaults.none, hwritten]
    exact hevent
  · show H.envelopes ++ [plan.prepare.get "envelope"] = _
    rw [henvelope]

end Append

end LedgerStore
