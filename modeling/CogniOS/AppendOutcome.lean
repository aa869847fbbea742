/-
# When an append succeeds

An append to a clean store whose files are far from their limits, with no step of it failing.

* `Request`, `FarBelow` : what is asked of such a call;
* `append_succeeds_iff` : it succeeds where its PREPARE is within the limit of a document.
-/
import CogniOS.PaddedEnvelopes

namespace LedgerStore

open LedgerV2 (Authority canonicalJsonBytes requireIdentifier requireSha256 readDocument
  validateV2Envelope verifyV2Chain)
open Utf8 (lf)

variable {h : Hasher} {a : Authority} {reprs : FloatLit → Bool}

/-! ## One history -/

/-- The files of a store have one history. -/
theorem Shows.unique {s : Store} {H H' : History} {clean clean' : Bool}
    (hH : Shows h a reprs s H clean) (hH' : Shows h a reprs s H' clean') : H' = H := by
  have henvelopes : H'.envelopes = H.envelopes :=
    linesOf_injective hH'.wellFormed_envelopes hH.wellFormed_envelopes
      (hH'.log.bytes.symm.trans hH.log.bytes)
  have hentries : H'.entries = H.entries :=
    linesOf_injective hH'.wellFormed_entries hH.wellFormed_entries
      (hH'.journal.bytes.symm.trans hH.journal.bytes)
  obtain ⟨hdone, hpending⟩ := recordsOf_injective hentries
  have hreport := hH'.verified
  rw [henvelopes, hH.verified] at hreport
  cases H
  cases H'
  simp only at henvelopes hdone hpending
  obtain rfl := Except.ok.inj hreport
  rw [henvelopes, hdone, hpending]

/-- The store with no history. -/
theorem shows_empty : ∃ report, Shows h a reprs Store.empty ⟨[], report, [], none⟩ true ∧
    report = reportOf [] chainStart := by
  refine ⟨reportOf [] chainStart, ⟨⟨rfl, by simp, Nat.zero_le _, Nat.zero_le _⟩, ?_,
    ⟨rfl, ?_, Nat.zero_le _, Nat.zero_le _⟩, rfl, ?_, ?_⟩, rfl⟩
  · exact verifyV2Chain_iff.mpr ⟨Nat.zero_le _, by simp, chainStart, rfl, rfl⟩
  · intro e he
    exact absurd he List.not_mem_nil
  · exact ⟨rfl, rfl, rfl, rfl, by simp [preparesOf], by simp, by simp, List.nodup_nil⟩
  · exact ⟨Nat.zero_le _, Nat.zero_le _, by simp [preparesOf], fun _ => rfl, by simp, fun _ => rfl⟩

/-! ## What is asked of a call -/

/-- A clean store and a call that extends its chain under a new name. -/
structure Request (h : Hasher) (a : Authority) (reprs : FloatLit → Bool) (s : Store)
    (audit : Audit) (envelope txId expectedHead expectedSequence : Json) : Prop where
  clean : readCombined h a reprs false false s true ∅ = .ok audit
  wellFormed : envelope.WellFormed
  floats : envelope.floatsAll reprs = true
  valid : validateV2Envelope h a envelope = .ok ()
  chain : ∃ report, verifyV2Chain h a (audit.ledger.envelopes ++ [envelope]) = .ok report
  head : audit.ledger.headHash = expectedHead
  sequence : expectedSequence = .int (audit.ledger.eventCount + 1)
  named : requireIdentifier txId "tx_id" = .ok ()
  unused : findTransaction audit.journal.transactions txId = none

/-- Room for every line that the limits of a line allow. -/
structure FarBelow (s : Store) (audit : Audit) : Prop where
  log : s.log.length + (maxStoreLineBytes + 1) ≤ maxStoreBytes
  journal : s.journal.length + 2 * (maxJournalLineBytes + 1) ≤ maxJournalBytes
  events : audit.ledger.eventCount < maxStoreEvents

/-- The call returns its transaction, and both files can be read with its event and its two
records at their ends. -/
def Succeeds (h : Hasher) (a : Authority) (reprs : FloatLit → Bool) (s : Store) (audit : Audit)
    (envelope txId expectedHead expectedSequence : Json) : Prop :=
  ∃ result s' audit' prepare commit,
    append h a reprs .none s envelope txId expectedHead expectedSequence = (.ok result, s') ∧
      result.txId = txId ∧ result.envelope = envelope ∧
      readCombined h a reprs false false s' true ∅ = .ok audit' ∧
      audit'.ledger.envelopes = audit.ledger.envelopes ++ [envelope] ∧
      audit'.journal.entries = audit.journal.entries ++ [prepare, commit] ∧
      prepare.get "envelope" = envelope

/-- The length of the PREPARE of a call. -/
def prepareLength (s : Store) (audit : Audit) (envelope txId expectedSequence : Json) : ℕ :=
  envelope.encoding.length + prepareOverhead txId ((envelope.get "event").get "ledger_id")
    expectedSequence (audit.journal.entryCount + 1) s.log.length
    (s.log.length + envelope.encoding.length + 1)

section Call

variable {s : Store} {audit : Audit} {envelope txId expectedHead expectedSequence : Json}

/-- The document that is read from a canonical envelope is the envelope. -/
theorem Request.readDocument_eq
    (hr : Request h a reprs s audit envelope txId expectedHead expectedSequence) :
    readDocument envelope.encoding = some envelope :=
  Json.loads_encoding Json.keepsSorted_lastWins hr.wellFormed

theorem Request.shows
    (hr : Request h a reprs s audit envelope txId expectedHead expectedSequence) :
    s.indeterminate = ∅ ∧ ∃ H, Shows h a reprs s H true ∧ audit = H.audit h := by
  obtain ⟨-, -, hprocess, hH⟩ := readCombined_eq_ok.mp hr.clean
  have hempty := hprocess rfl
  rw [Finset.sdiff_empty] at hempty
  exact ⟨hempty, hH⟩

/-- The event of the envelope has the sequence that is expected. -/
theorem Request.sequence_eq
    (hr : Request h a reprs s audit envelope txId expectedHead expectedSequence) :
    (envelope.get "event").get "sequence" = expectedSequence := by
  obtain ⟨-, H, -, rfl⟩ := hr.shows
  obtain ⟨report, hreport⟩ := hr.chain
  obtain ⟨-, -, st, hloop, -⟩ := verifyV2Chain_iff.mp hreport
  obtain ⟨before, -, hstep⟩ := chainLoop_snoc.mp hloop
  rw [hr.sequence]
  have hnumber := (LedgerV2.chainStep_eq_ok hstep).1
  rw [add_comm] at hnumber
  exact hnumber

/-- The plan of a call. -/
def planOf (h : Hasher) (H : History) (envelope txId : Json) : Plan where
  audit := H.audit h
  document := envelope
  record := lineOf envelope
  prepare := H.prepareFor h txId envelope

/-- The length of a PREPARE in terms of the call. -/
theorem length_prepareFor {H : History} (hH : Shows h a reprs s H true)
    (hr : Request h a reprs s (H.audit h) envelope txId expectedHead expectedSequence) :
    (H.prepareFor h txId envelope).encoding.length =
      prepareLength s (H.audit h) envelope txId expectedSequence := by
  obtain ⟨heventHash, hexpected, -⟩ := fields_of_valid hr.valid
  have hlast : requireSha256 (lastHash H.entries) "" = .ok () :=
    requireSha256_lastHash fun e he => (hH.journal.lines e he).rules
  have hsequence := hr.sequence_eq
  rw [History.prepareFor, length_prepareRecord heventHash hexpected hlast
    (requireSha256_positionOf h _ _) (requireSha256_positionOf h _ _), hsequence, prepareLength,
    positionOf_length, positionOf_snoc, length_linesOf_snoc, ← hH.log.bytes]
  rfl

/-- A call whose PREPARE is within the limit is admitted. -/
theorem Request.fresh {H : History} (hH : Shows h a reprs s H true)
    (hr : Request h a reprs s (H.audit h) envelope txId expectedHead expectedSequence)
    (hlog : s.log.length + (lineOf envelope).length ≤ maxStoreBytes)
    (hevents : H.envelopes.length < maxStoreEvents)
    (hlen : prepareLength s (H.audit h) envelope txId expectedSequence ≤
      LedgerV2.maxDocumentBytes) :
    Fresh h a reprs s H envelope txId expectedHead expectedSequence (planOf h H envelope txId) := by
  obtain ⟨hclean, hpending⟩ := Shows.clean_iff.mp hH
  obtain ⟨heventHash, hexpected, -⟩ := fields_of_valid hr.valid
  obtain ⟨report, hreport⟩ := hr.chain
  have hsize := (validateV2Envelope_exact hr.valid).2.2
  have hprevious := previous_of_snoc hH.verified hreport
  have hhead : H.report.head = expectedHead := hr.head
  have hprepare : (H.prepareFor h txId envelope).encoding.length ≤ LedgerV2.maxDocumentBytes := by
    rw [length_prepareFor hH hr]
    exact hlen
  have hpost : (positionOf h (H.envelopes ++ [envelope]) (H.envelopes.length + 1)) =
      ⟨h.hexdigest (linesOf (H.envelopes ++ [envelope])),
        s.log.length + (lineOf envelope).length⟩ := by
    rw [positionOf_snoc, length_linesOf_snoc, length_lineOf, hH.log.bytes, add_assoc]
  have hsequence := hr.sequence_eq
  exact
    { named := hr.named
      head := by
        rw [← hhead, ← hprevious]
        exact relabel_sha256 _ hexpected
      sequence := by
        rw [hr.sequence]
        refine positiveBoundedInt_eq_ok.mpr ⟨_, rfl, ?_, ?_⟩
        · have := Int.natCast_nonneg (H.audit h).ledger.eventCount
          omega
        · exact_mod_cast hevents
      encoded := hsize
      document := hr.readDocument_eq
      valid := hr.valid
      shows := hclean
      settled := hpending
      process := hr.shows.1
      unused := hr.unused
      audit := rfl
      atHead := hhead
      next := hr.sequence
      position := ⟨hsequence, hprevious.trans hhead⟩
      extends' := ⟨report, hreport⟩
      record := rfl
      room := hlog
      documentSize := hsize
      prepareSize := by
        show (Json.obj (prepareFields txId (H.entries.length + 1) (lastHash H.entries) envelope
          (positionOf h H.envelopes H.envelopes.length)
          ⟨h.hexdigest (linesOf (H.envelopes ++ [envelope])),
            s.log.length + (lineOf envelope).length⟩
          (h.hexdigest envelope.encoding))).encoding.length ≤ LedgerV2.maxDocumentBytes
        rw [← hpost]
        exact le_trans (length_unsigned_prepare_le h txId _ _ _ _ _) hprepare
      prepare := by
        show H.prepareFor h txId envelope = prepareRecord h txId (H.entries.length + 1)
          (lastHash H.entries) envelope (positionOf h H.envelopes H.envelopes.length)
          ⟨h.hexdigest (linesOf (H.envelopes ++ [envelope])),
            s.log.length + (lineOf envelope).length⟩
        rw [← hpost]
        rfl }

/-- Where the PREPARE is within the limit, the call succeeds. -/
theorem succeeds_of_length
    (hr : Request h a reprs s audit envelope txId expectedHead expectedSequence)
    (hf : FarBelow s audit)
    (hlen : prepareLength s audit envelope txId expectedSequence ≤ LedgerV2.maxDocumentBytes) :
    Succeeds h a reprs s audit envelope txId expectedHead expectedSequence := by
  obtain ⟨hprocess, H, hH, rfl⟩ := hr.shows
  have hlog : s.log.length + (lineOf envelope).length ≤ maxStoreBytes := by
    have hlog := hf.log
    have hline : envelope.encoding.length ≤ maxStoreLineBytes :=
      (validateV2Envelope_exact hr.valid).2.2
    rw [length_lineOf]
    omega
  have hfresh := hr.fresh hH hlog hf.events hlen
  have hsize : (planOf h H envelope txId).prepare.encoding.length ≤ LedgerV2.maxDocumentBytes := by
    show (H.prepareFor h txId envelope).encoding.length ≤ LedgerV2.maxDocumentBytes
    rw [length_prepareFor hH hr]
    exact hlen
  have hroom : s.journal.length + (lineOf (planOf h H envelope txId).prepare).length + 1176 ≤
      maxJournalBytes := by
    have hjournal := hf.journal
    have hlimit : LedgerV2.maxDocumentBytes + 1176 ≤ maxJournalLineBytes := by decide
    rw [length_lineOf]
    omega
  obtain ⟨s', H', c, happend, hprocess', hH', henvelopes, hdone, -⟩ :=
    append_fresh hfresh rfl hr.floats hsize hroom
  refine ⟨_, s', H'.audit h, (planOf h H envelope txId).prepare, c, happend, rfl, rfl, ?_,
    henvelopes, ?_, rfl⟩
  · refine readCombined_eq_ok.mpr ⟨rfl, rfl, fun _ => ?_, H', hH', rfl⟩
    rw [hprocess']
    rfl
  · have hpending := hH'.combined.clean rfl
    have hpending₀ := hH.combined.clean rfl
    show H'.entries = H.entries ++ _
    rw [History.entries, History.entries, hpending, hpending₀, hdone, recordsOf_snoc,
      recordsOf_some, List.append_assoc]
    rfl

/-- Where the call succeeds, its PREPARE was within the limit. -/
theorem length_of_succeeds
    (hr : Request h a reprs s audit envelope txId expectedHead expectedSequence)
    (hs : Succeeds h a reprs s audit envelope txId expectedHead expectedSequence) :
    prepareLength s audit envelope txId expectedSequence ≤ LedgerV2.maxDocumentBytes := by
  obtain ⟨result, s', audit', prepare, commit, happend, -, -, hclean, -, hentries, henvelope⟩ := hs
  obtain ⟨-, -, -, H', hH', rfl⟩ := readCombined_eq_ok.mp hclean
  obtain ⟨-, H, hH, rfl⟩ := hr.shows
  have happend₂ := congrArg Prod.snd happend
  -- The call was not one of a transaction that is there already.
  rcases @append_cases h a reprs .none s envelope txId expectedHead expectedSequence with
    ⟨hsame, -⟩ | ⟨H₀, plan, hf, hstep⟩
  · obtain rfl : s = s' := hsame.symm.trans happend₂
    rw [hH.unique hH'] at hentries
    have hlen := congrArg List.length hentries
    rw [List.length_append] at hlen
    simp at hlen
  · obtain rfl : H₀ = H := hH.unique hf.shows
    have hadmitted : checkAppend h a reprs .none s envelope txId expectedHead expectedSequence =
        .ok (.fresh plan) := checkAppend_eq_fresh.mpr ⟨rfl, rfl, H₀, hf⟩
    have hdocument : plan.document = envelope :=
      Option.some.inj (hf.document.symm.trans hr.readDocument_eq)
    have hprepare := hf.prepare_eq (by rw [hdocument])
    rw [hdocument] at hprepare
    have hok : (append h a reprs .none s envelope txId expectedHead expectedSequence).1 =
        .ok result := congrArg Prod.fst happend
    unfold append at hok
    rw [hadmitted] at hok
    have hok : (appendPrepare h a reprs .none s txId plan).1 = .ok result := hok
    unfold appendPrepare at hok
    rcases appendDocument_cases none s.journal plan.prepare maxJournalBytes
      "Ledger v2 journal PREPARE" with ⟨-, hfits, -⟩ | ⟨e, n, -, hwritten⟩
    · rw [← length_prepareFor hH hr, ← hprepare]
      exact hfits.size
    · simp only [AppendFaults.none, hwritten] at hok
      unfold prepareFailed at hok
      simp only at hok
      split at hok
      · cases hok
      · cases hok

end Call

/-- **When an append that nothing stops succeeds**: where its PREPARE, which holds the envelope
and more, is within the limit of the envelope alone. -/
theorem append_succeeds_iff (h : Hasher) (a : Authority) (reprs : FloatLit → Bool) (s : Store)
    (audit : Audit) (envelope txId expectedHead expectedSequence : Json)
    (hr : Request h a reprs s audit envelope txId expectedHead expectedSequence)
    (hf : FarBelow s audit) :
    Succeeds h a reprs s audit envelope txId expectedHead expectedSequence ↔
      prepareLength s audit envelope txId expectedSequence ≤ LedgerV2.maxDocumentBytes :=
  ⟨length_of_succeeds hr, succeeds_of_length hr hf⟩

/-! ## Calls with padded envelopes -/

section Padded

variable {s : Store} {H : History} {ledgerId : String} {k : ℕ}

theorem requireSha256_head (hH : Shows h a reprs s H true) :
    requireSha256 H.report.head "" = .ok () := by
  have hverified := hH.verified
  rcases List.eq_nil_or_concat H.envelopes with hnil | ⟨before, document, hsnoc⟩
  · rw [hnil] at hverified
    obtain ⟨-, -, st, hloop, hreport⟩ := verifyV2Chain_iff.mp hverified
    obtain rfl := Except.ok.inj hloop
    rw [hreport]
    exact fixedParts.validHash
  · rw [List.concat_eq_append] at hsnoc
    rw [hsnoc] at hverified
    rw [head_snoc hverified]
    have hmem : document ∈ H.envelopes := by
      rw [hsnoc]
      exact List.mem_append_right _ (List.mem_singleton.mpr rfl)
    exact (fields_of_valid (hH.log.lines document hmem).valid).1

/-- A padded envelope is asked for at the end of a chain of its ledger. -/
theorem request_padded {txId : Json}
    (hH : Shows h LedgerV2.sampleAuthority reprs s H true) (hprocess : s.indeterminate = ∅)
    (hid : H.report.ledgerId = .null ∨ H.report.ledgerId = .str ledgerId)
    (hledger : LedgerV2.isIdentifier ledgerId = true) (hcount : H.envelopes.length < maxStoreEvents)
    (hsize : (paddedEnvelope h ledgerId H.report.head (H.envelopes.length + 1) k).encoding.length +
      ledgerId.length ≤ LedgerV2.maxDocumentBytes)
    (hnamed : requireIdentifier txId "tx_id" = .ok ())
    (hunused : findTransaction H.chain.transactions txId = none) :
    Request h LedgerV2.sampleAuthority reprs s (H.audit h)
      (paddedEnvelope h ledgerId H.report.head (H.envelopes.length + 1) k) txId H.report.head
      (.int (H.envelopes.length + 1)) := by
  have hhead := requireSha256_head hH
  have hevents : H.envelopes.length < LedgerV2.maxEvents :=
    lt_of_lt_of_le hcount (by decide)
  obtain ⟨d, hd, -⟩ := (Option.any_eq_true _ _).mp (requireSha256_eq_ok.mp hhead)
  have hstr := Json.asStr?_eq_some.mp hd
  obtain ⟨report, hreport, -⟩ := verifyV2Chain_padded (k := k) hH.verified hid hledger hhead
    hevents hsize
  exact
    { clean := readCombined_eq_ok.mpr ⟨rfl, rfl, fun _ => by rw [hprocess]; rfl, H, hH, rfl⟩
      wellFormed := wellFormed_paddedEnvelope h _ _ _ _ (by rw [hstr]; trivial)
      floats := floatsAll_paddedEnvelope h _ _ _ _ (by rw [hstr]; rfl)
      valid := validateV2Envelope_padded hledger hhead hevents (by omega)
      chain := ⟨report, hreport⟩
      head := rfl
      sequence := rfl
      named := hnamed
      unused := hunused }

end Padded

/-! ## Calls of an empty store -/

/-- The history of an empty store. -/
def emptyHistory : History := ⟨[], reportOf [] chainStart, [], none⟩

/-- The names and the numbers of the call are valid and short. -/
theorem firstNames :
    LedgerV2.isIdentifier "workspace-1" = true ∧ LedgerV2.isIdentifier "tx-1" = true ∧
      (Json.str "workspace-1").encoding.length = 13 ∧ (Json.str "tx-1").encoding.length = 6 ∧
      (Json.int 0).encoding.length = 1 ∧ (Json.int 1).encoding.length = 1 ∧
      (Json.int 2).encoding.length = 1 ∧ (Json.int 683).encoding.length = 3 := by
  decide +kernel

theorem request_empty (k : ℕ) (hk : k ≤ 4193611) :
    Request sha256 LedgerV2.sampleAuthority (fun _ => true) Store.empty
      (emptyHistory.audit sha256)
      (paddedEnvelope sha256 "workspace-1" (.str LedgerV2.genesisHash) 1 k) (.str "tx-1")
      (.str LedgerV2.genesisHash) (.int 1) := by
  obtain ⟨hledger, htx, -, -, -, hdigits, -, -⟩ := firstNames
  have hnamed : requireIdentifier (.str "tx-1") "tx_id" = .ok () :=
    requireIdentifier_iff.mpr ⟨_, rfl, htx⟩
  obtain ⟨_, hH, rfl⟩ := @shows_empty sha256 LedgerV2.sampleAuthority (fun _ => true)
  have hlen := length_paddedEnvelope sha256 "workspace-1" (.str LedgerV2.genesisHash) 1 k hledger
    fixedParts.validHash
  refine request_padded (H := emptyHistory) (s := Store.empty) hH rfl (.inl rfl) hledger
    (by decide) ?_ hnamed rfl
  show (paddedEnvelope sha256 "workspace-1" (.str LedgerV2.genesisHash) 1 k).encoding.length + 11 ≤
    4194304
  rw [hlen]
  show k + 11 + (Json.int 1).encoding.length + 670 + 11 ≤ 4194304
  rw [hdigits]
  omega

theorem farBelow_empty : FarBelow Store.empty (emptyHistory.audit sha256) :=
  ⟨by decide, by decide, by decide⟩

/-- The first event of a ledger. -/
def firstEnvelope : Json :=
  paddedEnvelope sha256 "workspace-1" (.str LedgerV2.genesisHash) 1 0

theorem prepareLength_first :
    prepareLength Store.empty (emptyHistory.audit sha256) firstEnvelope (.str "tx-1") (.int 1) ≤
      LedgerV2.maxDocumentBytes := by
  obtain ⟨hledger, -, hid, htx, hzero, hone, -, hposition⟩ := firstNames
  have hlen : firstEnvelope.encoding.length = 682 := by
    rw [firstEnvelope, length_paddedEnvelope sha256 "workspace-1" (.str LedgerV2.genesisHash) 1 0
      hledger fixedParts.validHash]
    show 0 + 11 + (Json.int 1).encoding.length + 670 = 682
    rw [hone]
  rw [prepareLength, prepareOverhead, hlen]
  show 682 + (837 + (Json.str "tx-1").encoding.length + (Json.str "workspace-1").encoding.length +
    (Json.int 1).encoding.length + (Json.int 1).encoding.length + (Json.int 0).encoding.length +
    (Json.int 683).encoding.length) ≤ LedgerV2.maxDocumentBytes
  rw [htx, hid, hone, hzero, hposition]
  decide

theorem append_succeeds_first :
    Succeeds sha256 LedgerV2.sampleAuthority (fun _ => true) Store.empty
      (emptyHistory.audit sha256) firstEnvelope (.str "tx-1") (.str LedgerV2.genesisHash)
      (.int 1) :=
  (append_succeeds_iff sha256 LedgerV2.sampleAuthority (fun _ => true) Store.empty _ _ _ _ _
    (request_empty 0 (by decide)) farBelow_empty).mpr prepareLength_first

/-- A valid envelope with an encoding of 4 MiB less a few bytes cannot be appended. -/
theorem append_succeeds_long :
    ¬∀ (h : Hasher) (a : Authority) (reprs : FloatLit → Bool) (s : Store) (audit : Audit)
      (envelope txId expectedHead expectedSequence : Json),
      Request h a reprs s audit envelope txId expectedHead expectedSequence → FarBelow s audit →
      Succeeds h a reprs s audit envelope txId expectedHead expectedSequence := by
  intro hall
  have hr := request_empty 4193611 (le_refl _)
  have hlen := length_of_succeeds hr
    (hall sha256 LedgerV2.sampleAuthority (fun _ => true) Store.empty _ _ _ _ _ hr farBelow_empty)
  rw [prepareLength, length_paddedEnvelope sha256 "workspace-1" (.str LedgerV2.genesisHash) 1
    4193611 firstNames.1 fixedParts.validHash, prepareOverhead] at hlen
  have hmax : LedgerV2.maxDocumentBytes = 4194304 := rfl
  omega

theorem run_append_call (faults : AppendFaults) (s : Store)
    (envelope txId expectedHead expectedSequence : Json) :
    run h a reprs s [.append faults envelope txId expectedHead expectedSequence] =
      (append h a reprs faults s envelope txId expectedHead expectedSequence).2 := rfl

theorem request_first :
    Request sha256 LedgerV2.sampleAuthority (fun _ => true) Store.empty
      (emptyHistory.audit sha256) firstEnvelope (.str "tx-1") (.str LedgerV2.genesisHash)
      (.int 1) := request_empty 0 (Nat.zero_le _)

end LedgerStore
