/-
# A journal without room for a COMMIT

The journal grows with every transaction, and a PREPARE is written where the PREPARE itself fits.

* `reconcile_stuck` : a transaction whose COMMIT does not fit cannot be reconciled;
* `Filled`, `filled_near` : appends alone fill the journal up to its last bytes;
* `reconcile_run_full` : one more leaves a transaction that nobody can complete.
-/
import CogniOS.StoreLimits

namespace LedgerStore

open LedgerV2 (Authority canonicalJsonBytes requireIdentifier requireSha256 sampleAuthority
  validateV2Envelope verifyV2Chain)
open Utf8 (lf)

variable {h : Hasher} {a : Authority} {reprs : FloatLit → Bool}

/-! ## A COMMIT that does not fit -/

section Stuck

variable {s : Store} {H : History} {p : Json}

/-- No COMMIT is written where it does not fit. -/
theorem CommitStep.stuck {txId envelope : Json} {out : Except StoreError DurableAppend × Store}
    (hstep : CommitStep h a reprs s txId p envelope out) (hH : Shows h a reprs s H false)
    (hfull : maxJournalBytes < s.journal.length + (lineOf (H.commitFor h p)).length) :
    out.2.journal = s.journal ∧ ∀ result, out.1 ≠ .ok result := by
  obtain ⟨n, previous, k, -, hjournal, hmade, hok⟩ := hstep.journal
  have hzero : k = 0 := by
    by_contra hk
    obtain ⟨⟨journal, hread, rfl, rfl⟩, hfits⟩ := hmade (by omega)
    obtain rfl := Except.ok.inj ((readJournal_of_shows hH).symm.trans hread)
    exact absurd hfits.room (not_le.mpr hfull)
  subst hzero
  refine ⟨by rw [hjournal, List.take_zero, List.append_nil], fun result hresult => ?_⟩
  obtain ⟨-, -, hlen, -⟩ := hok result hresult
  rw [length_lineOf] at hlen
  omega

/-- **A transaction whose COMMIT does not fit**: there is no call, whatever fails in it, that
returns and leaves a store that reads well. -/
theorem reconcile_stuck (hH : Shows h a reprs s H false) (hp : H.pending = some p)
    (hpresent : p.get "expected_sequence" = .int H.envelopes.length)
    (hfull : maxJournalBytes < s.journal.length + (lineOf (H.commitFor h p)).length)
    (faults : ReconcileFaults) (txId : Json) {result : DurableAppend}
    {snapshot : Snapshot}
    (hok : (reconcile h a reprs faults s txId).1 = .ok result)
    (hread : readVerified h a reprs (reconcile h a reprs faults s txId).2 = .ok snapshot) :
    False := by
  rcases @reconcile_cases h a reprs faults s txId with hsame | ⟨H', q, hH', hq, -, hstep⟩
  · obtain ⟨audit, hclean, -⟩ := bind_eq_ok.mp hread
    obtain ⟨-, -, -, H', hH', -⟩ := readCombined_eq_ok.mp hclean
    have hunique := hH.unique (hH'.congr hsame.log.symm hsame.journal.symm)
    have hnone := hH'.combined.clean rfl
    rw [hunique, hp] at hnone
    cases hnone
  · obtain rfl : H' = H := hH.unique hH'
    obtain rfl : p = q := Option.some.inj (hp.symm.trans hq)
    have habsent : p.get "expected_sequence" ≠ .int (H'.envelopes.length + 1) := by
      intro hmissing
      have hlen := Json.int.inj (hpresent.symm.trans hmissing)
      omega
    cases hstep with
    | event n hmissing => exact habsent hmissing
    | eventCommit hmissing => exact habsent hmissing
    | commit _ hcommit => exact (hcommit.stuck hH hfull).2 result hok

end Stuck

/-! ## Appends that fill the journal -/

/-- A name of a ledger of the length that the rules allow. -/
def longLedger : String := String.ofList (List.replicate 256 'l')

/-- Long names of transactions, one for each number. -/
def txName (i : ℕ) : String := String.ofList (List.replicate 240 't' ++ JsonNumber.intText i)

theorem length_longLedger : longLedger.length = 256 := by
  unfold longLedger
  exact String.length_ofList.trans List.length_replicate

theorem isIdentifier_replicate {n : ℕ} (hn : n ≤ 255) :
    LedgerV2.isIdentifier (String.ofList (List.replicate (n + 1) 'l')) = true := by
  have hall : ∀ c ∈ List.replicate n 'l', (isAlnum c || c ∈ ['.', '_', '-']) = true := by
    intro c hc
    rw [List.eq_of_mem_replicate hc]
    rfl
  unfold LedgerV2.isIdentifier
  rw [String.toList_ofList, List.replicate_succ]
  simp only [Bool.and_eq_true, decide_eq_true_eq]
  exact ⟨⟨rfl, List.all_eq_true.mpr hall⟩, List.length_replicate.trans_le hn⟩

theorem isIdentifier_longLedger : LedgerV2.isIdentifier longLedger = true :=
  isIdentifier_replicate (le_refl 255)

theorem txName_injective : Function.Injective txName := by
  intro i j hij
  have hdigits := List.append_cancel_left (String.ofList_injective hij)
  have hint := congrArg JsonNumber.intOfText hdigits
  rw [JsonNumber.intOfText_intText, JsonNumber.intOfText_intText] at hint
  exact_mod_cast hint

theorem isAlnum_of_isDigit {c : Char} (hc : c.isDigit = true) : isAlnum c = true := by
  simp only [Char.isDigit, Bool.and_eq_true, decide_eq_true_eq] at hc
  simp only [isAlnum, Bool.or_eq_true, Bool.and_eq_true, decide_eq_true_eq]
  exact .inr ⟨hc.1, hc.2⟩

/-- A number of a transaction is written with at most nine digits. -/
theorem length_number {i : ℕ} (hi : i ≤ 134217728) :
    1 ≤ (Json.int i).encoding.length ∧ (Json.int i).encoding.length ≤ 9 := by
  refine ⟨?_, length_of_bounded (Int.natCast_nonneg _) (by exact_mod_cast hi)⟩
  rw [Json.length_encoding_int]
  exact List.length_pos_iff.mpr (JsonNumber.intText_ne_nil _)

theorem isIdentifier_txName {i : ℕ} (hi : i ≤ 134217728) :
    LedgerV2.isIdentifier (txName i) = true := by
  have hlist : (txName i).toList =
      't' :: (List.replicate 239 't' ++ JsonNumber.intText i) := String.toList_ofList
  have hdigits := (length_number hi).2
  rw [Json.length_encoding_int] at hdigits
  unfold LedgerV2.isIdentifier
  rw [hlist]
  simp only [Bool.and_eq_true, decide_eq_true_eq, List.length_append, List.length_replicate]
  refine ⟨⟨by decide, List.all_eq_true.mpr fun c hc => ?_⟩, by omega⟩
  rw [Bool.or_eq_true]
  left
  rcases List.mem_append.mp hc with hc | hc
  · rw [List.eq_of_mem_replicate hc]
    decide
  · unfold JsonNumber.intText at hc
    rw [if_neg (by omega)] at hc
    exact isAlnum_of_isDigit (JsonNumber.isDigit_of_mem_toDigits hc)

theorem length_txName {i : ℕ} (hi : i ≤ 134217728) :
    243 ≤ (Json.str (txName i)).encoding.length ∧ (Json.str (txName i)).encoding.length ≤ 251 := by
  have hdigits := length_number hi
  rw [Json.length_encoding_int] at hdigits
  rw [Json.length_encoding_str (isPlain_of_isIdentifier (isIdentifier_txName hi)).1, txName,
    String.length_ofList, List.length_append, List.length_replicate]
  omega

/-- The append of the next event, padded by `k`. -/
def nextCall (H : History) (n k : ℕ) : Call :=
  .append .none (paddedEnvelope sha256 longLedger H.report.head (H.envelopes.length + 1) k)
    (.str (txName n)) H.report.head (.int (H.envelopes.length + 1))

/-- What a run has written and left, call by call. -/
def Leaves (cs : List Call) : Prop :=
  ∀ before c after, cs = before ++ c :: after → c.Written (fun _ => true) ∧
    Whole (run sha256 sampleAuthority (fun _ => true) Store.empty (before ++ [c]))

/-- A store that a run of `n` appends has filled. -/
structure Filled (cs : List Call) (s : Store) (H : History) (n : ℕ) : Prop where
  ran : run sha256 sampleAuthority (fun _ => true) Store.empty cs = s
  leaves : Leaves cs
  shows : Shows sha256 sampleAuthority (fun _ => true) s H true
  process : s.indeterminate = ∅
  ledger : H.report.ledgerId = .null ∨ H.report.ledgerId = .str longLedger
  count : H.envelopes.length = n
  names : H.done.map (fun t => t.prepare.get "tx_id") =
    (List.range n).map fun i => Json.str (txName i)
  log : s.log.length ≤ 936 * n
  journal : 2903 * n ≤ s.journal.length

theorem Leaves.snoc {cs : List Call} {c : Call} (hcs : Leaves cs)
    (hc : c.Written fun _ => true)
    (hwhole : Whole (run sha256 sampleAuthority (fun _ => true) Store.empty (cs ++ [c]))) :
    Leaves (cs ++ [c]) := by
  intro before d after heq
  rcases List.eq_nil_or_concat after with rfl | ⟨rest, last, rfl⟩
  · obtain ⟨rfl, hlast⟩ := List.append_inj' heq rfl
    obtain rfl : c = d := by simpa using hlast
    exact ⟨hc, hwhole⟩
  · rw [List.concat_eq_append, ← List.cons_append, ← List.append_assoc] at heq
    exact hcs before d rest (List.append_inj' heq rfl).1

theorem filled_empty : ∃ H, Filled [] Store.empty H 0 := by
  obtain ⟨report, hH, hreport⟩ := @shows_empty sha256 sampleAuthority (fun _ => true)
  refine ⟨_, rfl, ?_, hH, rfl, .inl (by rw [hreport]; rfl), rfl, rfl, Nat.zero_le _, Nat.zero_le _⟩
  intro before c after heq
  simp at heq

section Step

variable {cs : List Call} {s : Store} {H : History} {n k : ℕ}

/-- The length of the padded envelope. -/
theorem Filled.length_envelope (hf : Filled cs s H n) (hn : n < maxStoreEvents) :
    k + 927 ≤ (paddedEnvelope sha256 longLedger H.report.head (H.envelopes.length + 1)
        k).encoding.length ∧
      (paddedEnvelope sha256 longLedger H.report.head (H.envelopes.length + 1)
        k).encoding.length ≤ k + 935 := by
  have hmax : maxStoreEvents = 100000 := rfl
  have hdigits := length_number (i := H.envelopes.length + 1) (by rw [hf.count]; omega)
  have hledger := length_longLedger
  rw [length_paddedEnvelope sha256 longLedger H.report.head _ k isIdentifier_longLedger
    (requireSha256_head hf.shows), hledger]
  omega

/-- The next call is one that can be asked for. -/
theorem Filled.request (hf : Filled cs s H n) (hn : n < maxStoreEvents) (hk : k ≤ 4000000) :
    Request sha256 sampleAuthority (fun _ => true) s (H.audit sha256)
      (paddedEnvelope sha256 longLedger H.report.head (H.envelopes.length + 1) k)
      (.str (txName n)) H.report.head (.int (H.envelopes.length + 1)) := by
  have hlen := hf.length_envelope (k := k) hn
  have hledger := length_longLedger
  have hmax : LedgerV2.maxDocumentBytes = 4194304 := rfl
  have hevents : maxStoreEvents = 100000 := rfl
  have hname := isIdentifier_txName (i := n) (by omega)
  refine request_padded hf.shows hf.process hf.ledger isIdentifier_longLedger
    (by rw [hf.count]; exact hn) (by omega) (requireIdentifier_iff.mpr ⟨_, rfl, hname⟩) ?_
  rw [findTransaction_eq_none, hf.shows.chained.transactions, txIds_transactionsOf,
    hf.shows.combined.clean rfl]
  show Json.str (txName n) ∉ (preparesOf H.done none).map (Json.get · "tx_id")
  rw [preparesOf, Option.toList_none, List.append_nil, List.map_map]
  show Json.str (txName n) ∉ H.done.map fun t => t.prepare.get "tx_id"
  rw [hf.names]
  rintro hmem
  obtain ⟨i, hi, heq⟩ := List.mem_map.mp hmem
  have hin := txName_injective (Json.str.inj heq)
  rw [hin] at hi
  exact absurd (List.mem_range.mp hi) (lt_irrefl n)

/-- The length of its PREPARE. -/
theorem Filled.length_prepare (hf : Filled cs s H n) (hn : n ≤ 95000) (hk : k ≤ 4000000) :
    k + 2269 ≤ (planOf sha256 H (paddedEnvelope sha256 longLedger H.report.head
        (H.envelopes.length + 1) k) (.str (txName n))).prepare.encoding.length ∧
      (planOf sha256 H (paddedEnvelope sha256 longLedger H.report.head
        (H.envelopes.length + 1) k) (.str (txName n))).prepare.encoding.length ≤ k + 2317 := by
  have hevents : maxStoreEvents = 100000 := rfl
  have hlen := hf.length_envelope (k := k) (by omega)
  have hprepare := length_prepareFor hf.shows (hf.request (k := k) (by omega) hk)
  have hid : ((paddedEnvelope sha256 longLedger H.report.head (H.envelopes.length + 1) k).get
    "event").get "ledger_id" = .str longLedger := rfl
  generalize paddedEnvelope sha256 longLedger H.report.head (H.envelopes.length + 1) k = envelope
    at hlen hprepare hid ⊢
  have hlog := hf.log
  have htx := length_txName (i := n) (by omega)
  have hledger : (Json.str longLedger).encoding.length = 258 := by
    rw [Json.length_encoding_str (isPlain_of_isIdentifier isIdentifier_longLedger).1,
      length_longLedger]
  have hcount := hf.count
  have hdone : H.done.length = n := (hf.shows.combined.resolved (hf.shows.combined.clean rfl)).trans
    hcount
  have hentries : H.entries.length = 2 * n := by
    rw [History.entries, hf.shows.combined.clean rfl, length_recordsOf, hdone]
    rfl
  have hsequence := length_number (i := H.envelopes.length + 1) (by omega)
  have hordinal := length_number (i := H.entries.length + 1) (by omega)
  have hpre := length_number (i := s.log.length) (by omega)
  have hpost := length_number (i := s.log.length + envelope.encoding.length + 1) (by omega)
  have hform : (planOf sha256 H envelope (.str (txName n))).prepare.encoding.length =
      envelope.encoding.length + (837 + (Json.str (txName n)).encoding.length +
        ((envelope.get "event").get "ledger_id").encoding.length +
        (Json.int (H.envelopes.length + 1 : ℕ)).encoding.length +
        (Json.int (H.entries.length + 1 : ℕ)).encoding.length +
        (Json.int s.log.length).encoding.length +
        (Json.int (s.log.length + envelope.encoding.length + 1 : ℕ)).encoding.length) := hprepare
  rw [hid] at hform
  omega

/-- Its plan is admitted where the log has room. -/
theorem Filled.fresh (hf : Filled cs s H n) (hn : n < 95000) (hk : k ≤ 4000000) :
    Fresh sha256 sampleAuthority (fun _ => true) s H
      (paddedEnvelope sha256 longLedger H.report.head (H.envelopes.length + 1) k)
      (.str (txName n)) H.report.head (.int (H.envelopes.length + 1))
      (planOf sha256 H (paddedEnvelope sha256 longLedger H.report.head (H.envelopes.length + 1) k)
        (.str (txName n))) := by
  have hevents : maxStoreEvents = 100000 := rfl
  have hmax : LedgerV2.maxDocumentBytes = 4194304 := rfl
  have hstore : maxStoreBytes = 134217728 := rfl
  have hlen := hf.length_envelope (k := k) (by omega)
  have hprepare := (hf.length_prepare hn.le hk).2
  have hr := hf.request (k := k) (by omega) hk
  have hlog := hf.log
  refine hr.fresh hf.shows ?_ (by rw [hf.count]; omega) ?_
  · rw [length_lineOf]
    omega
  · rw [← length_prepareFor hf.shows hr]
    have hprepare : (H.prepareFor sha256 _ _).encoding.length ≤ k + 2317 := hprepare
    omega

/-- **One append more.** -/
theorem Filled.next (hf : Filled cs s H n) (hn : n < 95000)
    (hroom : s.journal.length + 4000 ≤ maxJournalBytes) :
    ∃ s' H', Filled (cs ++ [nextCall H n 0]) s' H' (n + 1) ∧
      s'.journal.length ≤ s.journal.length + 3494 := by
  have hevents : maxStoreEvents = 100000 := rfl
  have hmax : LedgerV2.maxDocumentBytes = 4194304 := rfl
  have hlen := hf.length_envelope (k := 0) (by omega)
  have hprepare := hf.length_prepare (k := 0) hn.le (Nat.zero_le _)
  have hr := hf.request (k := 0) (by omega) (Nat.zero_le _)
  have hfresh := hf.fresh (k := 0) hn (Nat.zero_le _)
  have hcall : ∀ s, (call sha256 sampleAuthority (fun _ => true) s (nextCall H n 0)).2 =
    (append sha256 sampleAuthority (fun _ => true) .none s (paddedEnvelope sha256 longLedger
      H.report.head (H.envelopes.length + 1) 0) (.str (txName n)) H.report.head
      (.int (H.envelopes.length + 1))).2 := fun s => run_append_call .none s _ _ _ _
  have hwritten : (nextCall H n 0).Written fun _ => true := ⟨hr.wellFormed, hr.floats⟩
  obtain ⟨report, hreport, hid⟩ := verifyV2Chain_padded (k := 0) hf.shows.verified hf.ledger
    isIdentifier_longLedger (requireSha256_head hf.shows)
    (by rw [hf.count]; exact lt_trans hn (by decide)) (by rw [length_longLedger]; omega)
  generalize paddedEnvelope sha256 longLedger H.report.head (H.envelopes.length + 1) 0 = envelope
    at hlen hprepare hr hfresh hcall hreport
  have hplanRoom : s.journal.length +
      (lineOf (planOf sha256 H envelope (.str (txName n))).prepare).length + 1176 ≤
        maxJournalBytes := by
    rw [length_lineOf]
    omega
  obtain ⟨s', H', c, happend, hprocess, hH', henvelopes, hdone, hclow, hchigh⟩ :=
    append_fresh hfresh rfl hr.floats (by omega) hplanRoom
  have hrun : run sha256 sampleAuthority (fun _ => true) Store.empty (cs ++ [nextCall H n 0]) =
      s' := by
    rw [run_snoc, hf.ran, hcall, happend]
  have hentries : H'.entries =
      H.entries ++ [(planOf sha256 H envelope (.str (txName n))).prepare] ++ [c] := by
    rw [History.entries, History.entries, hH'.combined.clean rfl, hf.shows.combined.clean rfl, hdone,
      recordsOf_snoc, recordsOf_some]
  have hjournal : s'.journal.length = s.journal.length +
      ((planOf sha256 H envelope (.str (txName n))).prepare.encoding.length + 1) +
      (c.encoding.length + 1) := by
    have hwhole := congrArg List.length hH'.journal.bytes
    have hbefore := congrArg List.length hf.shows.journal.bytes
    rw [hentries, length_linesOf_snoc, length_linesOf_snoc] at hwhole
    omega
  have hlogLength : s'.log.length = s.log.length + (envelope.encoding.length + 1) := by
    have hwhole := congrArg List.length hH'.log.bytes
    have hbefore := congrArg List.length hf.shows.log.bytes
    have hplan : (planOf sha256 H envelope (.str (txName n))).document = envelope := rfl
    rw [henvelopes, length_linesOf_snoc, hplan] at hwhole
    omega
  have hlog := hf.log
  have hgrown := hf.journal
  refine ⟨s', H', ⟨hrun, ?_, hH', hprocess, .inr ?_, ?_, ?_, by omega, by omega⟩, by omega⟩
  · refine hf.leaves.snoc hwritten ?_
    rw [hrun]
    exact hH'.whole
  · have hverified := hH'.verified
    rw [henvelopes] at hverified
    obtain rfl := Except.ok.inj (hreport.symm.trans hverified)
    exact hid
  · rw [henvelopes, List.length_append, hf.count]
    rfl
  · rw [hdone, List.map_append, hf.names, List.range_succ, List.map_append]
    rfl

/-- **Appends fill the journal up to the last bytes.** -/
theorem filled_near : ∃ cs s H n, Filled cs s H n ∧ n < 95000 ∧
    265000000 ≤ s.journal.length ∧ s.journal.length ≤ 266000000 := by
  have hmax : maxJournalBytes = 268435456 := rfl
  have hsteps : ∀ n ≤ 95000, (∃ cs s H, Filled cs s H n ∧ s.journal.length < 265000000) ∨
      ∃ cs s H m, Filled cs s H m ∧ m < 95000 ∧ 265000000 ≤ s.journal.length ∧
        s.journal.length ≤ 266000000 := by
    intro n
    induction n with
    | zero =>
      intro _
      obtain ⟨H, hf⟩ := filled_empty
      exact .inl ⟨[], Store.empty, H, hf, by decide⟩
    | succ n ih =>
      intro hn
      rcases ih (by omega) with ⟨cs, s, H, hf, hlow⟩ | hnear
      · obtain ⟨s', H', hf', hgrowth⟩ := hf.next (by omega) (by omega)
        by_cases hlow' : s'.journal.length < 265000000
        · exact .inl ⟨_, s', H', hf', hlow'⟩
        · refine .inr ⟨_, s', H', n + 1, hf', ?_, by omega, by omega⟩
          -- A shorter run cannot have filled as much, and a longer one has filled more.
          have := hf.journal
          omega
      · exact .inr hnear
  rcases hsteps 95000 (le_refl _) with ⟨cs, s, H, hf, hlow⟩ | hnear
  · have := hf.journal
    omega
  · exact hnear

end Step

/-! ## The append that cannot be completed -/

/-- **A run after which nothing can be completed**: its calls have no faults, and its last append
leaves its event in the log without its COMMIT. -/
theorem stuck_run : ∃ cs journal t, Leaves cs ∧
    readJournal sha256 sampleAuthority (fun _ => true)
      (run sha256 sampleAuthority (fun _ => true) Store.empty cs).journal = .ok journal ∧
    t ∈ journal.transactions ∧ t.committed = false ∧
    ∀ faults txId result snapshot,
      (reconcile sha256 sampleAuthority (fun _ => true) faults
        (run sha256 sampleAuthority (fun _ => true) Store.empty cs) txId).1 = .ok result →
      readVerified sha256 sampleAuthority (fun _ => true)
        (reconcile sha256 sampleAuthority (fun _ => true) faults
          (run sha256 sampleAuthority (fun _ => true) Store.empty cs) txId).2 ≠ .ok snapshot := by
  obtain ⟨cs, s, H, n, hf, hn, hlow, hhigh⟩ := filled_near
  have hevents : maxStoreEvents = 100000 := rfl
  have hmax : LedgerV2.maxDocumentBytes = 4194304 := rfl
  have hjournal : maxJournalBytes = 268435456 := rfl
  have hk : 268435456 - s.journal.length - 2400 ≤ 4000000 := by omega
  have hprepare := hf.length_prepare hn.le hk
  have hr := hf.request (by omega) hk
  have hfresh := hf.fresh hn hk
  have hwritten : (nextCall H n (268435456 - s.journal.length - 2400)).Written fun _ => true :=
    ⟨hr.wellFormed, hr.floats⟩
  have hcall : ∀ s', (call sha256 sampleAuthority (fun _ => true) s'
      (nextCall H n (268435456 - s.journal.length - 2400))).2 =
    (append sha256 sampleAuthority (fun _ => true) .none s' (paddedEnvelope sha256 longLedger
      H.report.head (H.envelopes.length + 1) (268435456 - s.journal.length - 2400))
      (.str (txName n)) H.report.head (.int (H.envelopes.length + 1))).2 := fun _ => rfl
  generalize paddedEnvelope sha256 longLedger H.report.head (H.envelopes.length + 1)
    (268435456 - s.journal.length - 2400) = envelope at hprepare hr hfresh hcall
  generalize hplan : planOf sha256 H envelope (.str (txName n)) = plan at hprepare hfresh
  have hfits : Fits s.journal plan.prepare maxJournalBytes := by
    refine ⟨by omega, ?_⟩
    rw [length_lineOf]
    omega
  have hadmitted : checkAppend sha256 sampleAuthority (fun _ => true) .none s envelope (.str (txName n))
      H.report.head (.int (H.envelopes.length + 1)) = .ok (.fresh plan) :=
    checkAppend_eq_fresh.mpr ⟨rfl, rfl, H, hfresh⟩
  obtain ⟨report, hrecord, -, hsequence, hH⟩ := hfresh.shows_event hr.wellFormed hr.floats hfits
  have happend := append_eq_appendCommit hr.wellFormed hr.floats hadmitted rfl rfl rfl hfits
  have hstep := @appendCommit_step sha256 sampleAuthority (fun _ => true) .none
    { s with log := s.log ++ plan.record, journal := s.journal ++ lineOf plan.prepare }
    (.str (txName n)) plan
  rw [← happend] at hstep
  have hcommit := le_length_commitFor hH rfl
  have hfull : maxJournalBytes < (s.journal ++ lineOf plan.prepare).length +
      (lineOf ((({ H with pending := some plan.prepare } : History).extended plan.prepare
        report).commitFor sha256 plan.prepare)).length := by
    rw [length_lineOf, List.length_append, length_lineOf]
    omega
  obtain ⟨hsame, -⟩ := hstep.stuck hH hfull
  have hrun : run sha256 sampleAuthority (fun _ => true) Store.empty
      (cs ++ [nextCall H n (268435456 - s.journal.length - 2400)]) =
      (append sha256 sampleAuthority (fun _ => true) .none s envelope (.str (txName n))
        H.report.head (.int (H.envelopes.length + 1))).2 := by
    rw [run_snoc, hf.ran, hcall]
  have hH' := hH.congr hstep.log hsame
  have hpresent : plan.prepare.get "expected_sequence" = .int
      (({ H with pending := some plan.prepare } : History).extended plan.prepare
        report).envelopes.length := by
    rw [hsequence]
    simp [History.extended]
  refine ⟨_, _, _, hf.leaves.snoc hwritten ?_, ?_, mem_transactions hH' rfl, rfl, ?_⟩
  · rw [hrun]
    exact hH'.whole
  · rw [hrun]
    exact readJournal_of_shows hH'
  · intro faults txId result snapshot hok hread
    rw [hrun] at hok hread
    refine reconcile_stuck hH' rfl hpresent ?_ faults txId hok hread
    rw [hsame]
    exact hfull

/-- Whole lines are not enough for `reconcile_transaction`: the journal can be too full. -/
theorem reconcile_run_full :
    ¬∀ (h : Hasher) (a : Authority) (reprs : FloatLit → Bool) (cs : List Call),
      (∀ before c after, cs = before ++ c :: after → c.Written reprs ∧
        Whole (run h a reprs Store.empty (before ++ [c]))) →
      ∀ (journal : JournalSnapshot) (t : TransactionState),
        readJournal h a reprs (run h a reprs Store.empty cs).journal = .ok journal →
        t ∈ journal.transactions → t.committed = false →
        ∃ result snapshot,
          (reconcile h a reprs .none (run h a reprs Store.empty cs) t.txId).1 = .ok result ∧
          readVerified h a reprs
            (reconcile h a reprs .none (run h a reprs Store.empty cs) t.txId).2 =
              .ok snapshot := by
  intro hall
  obtain ⟨cs, journal, t, hcs, hread, ht, hopen, hstuck⟩ := stuck_run
  obtain ⟨result, snapshot, hok, hverified⟩ := hall sha256 sampleAuthority (fun _ => true) cs hcs
    journal t hread ht hopen
  exact hstuck .none t.txId result snapshot hok hverified

end LedgerStore
