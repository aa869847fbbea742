/-
# The admission of a transaction

What `append` has checked before its first write, and what it is about to write.

* `Fresh` lists these checks;
* `checkAppend_eq_fresh` : a transaction is admitted exactly where they pass.
-/
import CogniOS.StoreHistory

namespace LedgerStore

open LedgerV2 (Authority canonicalJsonBytes requireIdentifier requireSha256 readDocument
  validateV2Envelope verifyV2Chain)
open Utf8 (lf)

/-! ## The admission of a new transaction -/

section Admission

variable {h : Hasher} {a : Authority} {reprs : FloatLit → Bool}

/-- What `append` has checked of a new transaction, and what it is about to write. -/
structure Fresh (h : Hasher) (a : Authority) (reprs : FloatLit → Bool) (s : Store) (H : History)
    (envelope txId expectedHead expectedSequence : Json) (plan : Plan) : Prop where
  named : requireIdentifier txId "tx_id" = .ok ()
  head : requireSha256 expectedHead "expected_head" = .ok ()
  sequence : positiveBoundedInt expectedSequence maxStoreEvents "expected_sequence" = .ok ()
  encoded : envelope.encoding.length ≤ LedgerV2.maxDocumentBytes
  document : readDocument envelope.encoding = some plan.document
  valid : validateV2Envelope h a plan.document = .ok ()
  shows : Shows h a reprs s H false
  settled : H.pending = none
  process : s.indeterminate = ∅
  unused : findTransaction H.chain.transactions txId = none
  audit : plan.audit = H.audit h
  atHead : H.report.head = expectedHead
  next : expectedSequence = .int (H.envelopes.length + 1)
  position : (plan.document.get "event").get "sequence" = expectedSequence ∧
    (plan.document.get "event").get "previous_hash" = expectedHead
  extends' : ∃ report, verifyV2Chain h a (H.envelopes ++ [plan.document]) = .ok report
  record : plan.record = envelope.encoding ++ [lf]
  room : s.log.length + plan.record.length ≤ maxStoreBytes
  documentSize : plan.document.encoding.length ≤ LedgerV2.maxDocumentBytes
  prepareSize : (Json.obj (prepareFields txId (H.entries.length + 1) (lastHash H.entries)
    plan.document (positionOf h H.envelopes H.envelopes.length)
    ⟨h.hexdigest (linesOf (H.envelopes ++ [plan.document])), s.log.length + plan.record.length⟩
    (h.hexdigest plan.document.encoding))).encoding.length ≤ LedgerV2.maxDocumentBytes
  prepare : plan.prepare = prepareRecord h txId (H.entries.length + 1) (lastHash H.entries)
    plan.document (positionOf h H.envelopes H.envelopes.length)
    ⟨h.hexdigest (linesOf (H.envelopes ++ [plan.document])), s.log.length + plan.record.length⟩

theorem failing_eq_ok {α : Type} {x : Except CogniError α} {v : α} :
    failing x = .ok v ↔ x = .ok v := by
  cases x with
  | error e => simp [failing, Except.mapError]
  | ok w => simp [failing, Except.mapError]

/-- Nothing in the way of a new transaction. -/
theorem checkResolved_eq_ok {s : Store} {H : History} {txId : Json} {u : Unit} :
    checkResolved s H.chain.transactions txId = .ok u ↔
      s.indeterminate = ∅ ∧ H.pending = none := by
  have hunresolved : unresolved H.chain.transactions = [] ↔ H.pending = none := by
    show unresolved (transactionsOf H.done H.pending) = [] ↔ _
    rw [unresolved_transactionsOf, List.map_eq_nil_iff]
    cases H.pending <;> simp
  unfold checkResolved
  by_cases hempty : s.indeterminate = ∅
  · rw [if_neg (by simp [hempty]), if_neg (by simp [hempty])]
    by_cases hpending : H.pending = none
    · have hnone := hunresolved.mpr hpending
      have hany : (findTransaction H.chain.transactions txId).any (fun t => !t.committed) =
          false := by
        rw [Bool.eq_false_iff]
        intro hany
        obtain ⟨t, hfound, ht⟩ := (Option.any_eq_true _ _).mp hany
        have hmem : t ∈ unresolved H.chain.transactions :=
          List.mem_filter.mpr ⟨(findTransaction_eq_some hfound).1, ht⟩
        rw [hnone] at hmem
        exact absurd hmem List.not_mem_nil
      rw [if_neg (by rw [hany]; exact Bool.false_ne_true), if_neg (not_not.mpr hnone)]
      exact iff_of_true rfl ⟨hempty, hpending⟩
    · have hsome : unresolved H.chain.transactions ≠ [] := fun hnil => hpending (hunresolved.mp hnil)
      rw [if_pos hsome]
      split
      · exact iff_of_false (by simp) fun hboth => hpending hboth.2
      · exact iff_of_false (by simp) fun hboth => hpending hboth.2
  · rw [if_pos hempty]
    split
    · exact iff_of_false (by simp) fun hboth => hempty hboth.1
    · exact iff_of_false (by simp) fun hboth => hempty hboth.1

/-- The plan of a new transaction. -/
theorem makePlan_eq_ok {s : Store} {H : History} (hH : Shows h a reprs s H false)
    {document : Json} {body : List UInt8} {txId expectedHead expectedSequence : Json} {plan : Plan} :
    makePlan h a (H.audit h) document body txId expectedHead expectedSequence = .ok plan ↔
      H.report.head = expectedHead ∧ expectedSequence = .int (H.envelopes.length + 1) ∧
      ((document.get "event").get "sequence" = expectedSequence ∧
        (document.get "event").get "previous_hash" = expectedHead) ∧
      (∃ report, verifyV2Chain h a (H.envelopes ++ [document]) = .ok report) ∧
      body.length ≤ maxStoreLineBytes ∧ s.log.length + (body ++ [lf]).length ≤ maxStoreBytes ∧
      (∀ e ∈ H.envelopes ++ [document], e.encoding.length ≤ LedgerV2.maxDocumentBytes) ∧
      (Json.obj (prepareFields txId (H.entries.length + 1) (lastHash H.entries) document
        (positionOf h H.envelopes H.envelopes.length)
        ⟨h.hexdigest (linesOf (H.envelopes ++ [document])), s.log.length + (body ++ [lf]).length⟩
        (h.hexdigest document.encoding))).encoding.length ≤ LedgerV2.maxDocumentBytes ∧
      plan = ⟨H.audit h, document, body ++ [lf], prepareRecord h txId (H.entries.length + 1)
        (lastHash H.entries) document (positionOf h H.envelopes H.envelopes.length)
        ⟨h.hexdigest (linesOf (H.envelopes ++ [document])), s.log.length + (body ++ [lf]).length⟩⟩ := by
  have hsize : (linesOf H.envelopes).length = s.log.length := by rw [hH.log.bytes]
  have hposition : positionOf h H.envelopes H.envelopes.length =
      ⟨h.hexdigest (linesOf H.envelopes), s.log.length⟩ := by
    rw [positionOf, List.take_length, hsize]
  have hall : ∀ e ∈ H.envelopes, e.encoding.length ≤ LedgerV2.maxDocumentBytes :=
    fun e he => (hH.log.lines e he).length_le
  rw [hposition]
  unfold makePlan
  constructor
  · intro hok
    obtain ⟨hhead, hok⟩ := require_bind_eq_ok.mp hok
    obtain ⟨hnext, hok⟩ := require_bind_eq_ok.mp hok
    obtain ⟨hat, hok⟩ := require_bind_eq_ok.mp hok
    obtain ⟨report, hreport, hok⟩ := bind_eq_ok.mp hok
    obtain ⟨hline, hok⟩ := require_bind_eq_ok.mp hok
    obtain ⟨hroom, hok⟩ := require_bind_eq_ok.mp hok
    obtain ⟨postHash, hpost, hok⟩ := bind_eq_ok.mp hok
    obtain ⟨prepare, hprepare, hend⟩ := bind_eq_ok.mp hok
    obtain rfl := Except.ok.inj hend
    obtain ⟨hdocument, hfields, rfl⟩ := makePrepare_eq_ok.mp hprepare
    have hlines : ∀ e ∈ H.envelopes ++ [document],
        e.encoding.length ≤ LedgerV2.maxDocumentBytes := by
      intro e he
      rcases List.mem_append.mp he with he | he
      · exact hall e he
      · rw [List.mem_singleton.mp he]
        exact hdocument
    have hpostHash : postHash = h.hexdigest (linesOf (H.envelopes ++ [document])) := by
      have := hpost.symm.trans (hashEnvelopeLines_eq_ok hlines)
      exact Except.ok.inj this
    subst hpostHash
    have hroom : (linesOf H.envelopes).length + (body ++ [lf]).length ≤ maxStoreBytes := hroom
    rw [hsize] at hroom
    refine ⟨hhead, hnext, hat, ⟨report, hreport⟩, hline, hroom, hlines, ?_, ?_⟩
    · rw [← hsize]
      exact hfields
    · rw [← hsize]
      rfl
  · rintro ⟨hhead, hnext, hat, ⟨report, hreport⟩, hline, hroom, hlines, hfields, rfl⟩
    refine require_bind_eq_ok.mpr ⟨hhead, require_bind_eq_ok.mpr ⟨hnext, ?_⟩⟩
    refine require_bind_eq_ok.mpr ⟨hat, bind_eq_ok.mpr ⟨report, hreport, ?_⟩⟩
    refine require_bind_eq_ok.mpr ⟨hline, require_bind_eq_ok.mpr ⟨?_, ?_⟩⟩
    · show (linesOf H.envelopes).length + (body ++ [lf]).length ≤ maxStoreBytes
      rw [hsize]
      exact hroom
    refine bind_eq_ok.mpr ⟨_, hashEnvelopeLines_eq_ok hlines, ?_⟩
    rw [← hsize] at hfields ⊢
    refine bind_eq_ok.mpr ⟨_, makePrepare_eq_ok.mpr
      ⟨hlines _ (List.mem_append_right _ (List.mem_singleton.mpr rfl)), hfields, rfl⟩, rfl⟩

/-- **What a new transaction has passed.** -/
theorem checkAppend_eq_fresh {faults : AppendFaults} {s : Store}
    {envelope txId expectedHead expectedSequence : Json} {plan : Plan} :
    checkAppend h a reprs faults s envelope txId expectedHead expectedSequence = .ok (.fresh plan) ↔
      faults.readLog = false ∧ faults.readJournal = false ∧
        ∃ H, Fresh h a reprs s H envelope txId expectedHead expectedSequence plan := by
  unfold checkAppend
  constructor
  · intro hok
    obtain ⟨_, htx, hok⟩ := bind_eq_ok.mp hok
    obtain ⟨_, hhead, hok⟩ := bind_eq_ok.mp hok
    obtain ⟨_, hsequence, hok⟩ := bind_eq_ok.mp hok
    obtain ⟨body, hbody, hok⟩ := bind_eq_ok.mp hok
    obtain ⟨hencoded, rfl⟩ := Json.boundedEncoding_eq_ok.mp (failing_eq_ok.mp hbody)
    obtain ⟨document, hdocument, hok⟩ := bind_eq_ok.mp hok
    obtain ⟨_, hvalid, hok⟩ := bind_eq_ok.mp hok
    obtain ⟨audit, haudit, hok⟩ := bind_eq_ok.mp hok
    obtain ⟨hlog, hjournal, -, H, hH, rfl⟩ := readCombined_eq_ok.mp (failing_eq_ok.mp haudit)
    obtain ⟨_, -, hok⟩ := bind_eq_ok.mp hok
    obtain ⟨_, hresolved, hok⟩ := bind_eq_ok.mp hok
    obtain ⟨hprocess, hpending⟩ := checkResolved_eq_ok.mp hresolved
    have hexisting : findTransaction (H.audit h).journal.transactions txId =
        findTransaction H.chain.transactions txId := rfl
    rw [hexisting] at hok
    cases hfound : findTransaction H.chain.transactions txId with
    | some state =>
      rw [hfound] at hok
      cases hok
    | none =>
      rw [hfound] at hok
      obtain ⟨made, hmade, hend⟩ := bind_eq_ok.mp hok
      cases hend
      obtain ⟨hat, hnext, hposition, hextends, hline, hroom, hlines, hfields, rfl⟩ :=
        (makePlan_eq_ok hH).mp (failing_eq_ok.mp hmade)
      refine ⟨hlog, hjournal, H, ?_⟩
      exact
        { named := failing_eq_ok.mp htx
          head := failing_eq_ok.mp hhead
          sequence := failing_eq_ok.mp hsequence
          encoded := hencoded
          document := orRaise_eq_ok.mp (failing_eq_ok.mp hdocument)
          valid := failing_eq_ok.mp hvalid
          shows := hH
          settled := hpending
          process := hprocess
          unused := hfound
          audit := rfl
          atHead := hat
          next := hnext
          position := hposition
          extends' := hextends
          record := rfl
          room := hroom
          documentSize := hlines _ (List.mem_append_right _ (List.mem_singleton.mpr rfl))
          prepareSize := hfields
          prepare := rfl }
  · rintro ⟨hlog, hjournal, H, hf⟩
    refine bind_eq_ok.mpr ⟨(), failing_eq_ok.mpr hf.named, ?_⟩
    refine bind_eq_ok.mpr ⟨(), failing_eq_ok.mpr hf.head, ?_⟩
    refine bind_eq_ok.mpr ⟨(), failing_eq_ok.mpr hf.sequence, ?_⟩
    refine bind_eq_ok.mpr ⟨_, failing_eq_ok.mpr
      (Json.boundedEncoding_eq_ok.mpr ⟨hf.encoded, rfl⟩), ?_⟩
    refine bind_eq_ok.mpr ⟨_, failing_eq_ok.mpr (orRaise_eq_ok.mpr hf.document), ?_⟩
    refine bind_eq_ok.mpr ⟨(), failing_eq_ok.mpr hf.valid, ?_⟩
    have haudit : readCombined h a reprs faults.readLog faults.readJournal s false ∅ =
        .ok (H.audit h) :=
      readCombined_eq_ok.mpr ⟨hlog, hjournal, by simp, H, hf.shows, rfl⟩
    refine bind_eq_ok.mpr ⟨_, failing_eq_ok.mpr haudit, ?_⟩
    have hexisting : findTransaction (H.audit h).journal.transactions txId = none := hf.unused
    simp only [hexisting]
    refine bind_eq_ok.mpr ⟨(), failing_eq_ok.mpr (require_eq_ok.mpr (by simp)), ?_⟩
    refine bind_eq_ok.mpr ⟨(), checkResolved_eq_ok.mpr ⟨hf.process, hf.settled⟩, ?_⟩
    have hroom := hf.room
    have hprepareSize := hf.prepareSize
    have hprepare := hf.prepare
    rw [hf.record] at hroom hprepareSize hprepare
    have hlines : ∀ e ∈ H.envelopes ++ [plan.document],
        e.encoding.length ≤ LedgerV2.maxDocumentBytes := by
      intro e he
      rcases List.mem_append.mp he with he | he
      · exact (hf.shows.log.lines e he).length_le
      · rw [List.mem_singleton.mp he]
        exact hf.documentSize
    have hmade := (@makePlan_eq_ok h a reprs s H hf.shows plan.document envelope.encoding txId
      expectedHead expectedSequence plan).mpr
      ⟨hf.atHead, hf.next, hf.position, hf.extends', hf.encoded, hroom, hlines, hprepareSize, by
        rw [← hprepare, ← hf.record, ← hf.audit]⟩
    exact bind_eq_ok.mpr ⟨plan, failing_eq_ok.mpr hmade, rfl⟩

end Admission

end LedgerStore
