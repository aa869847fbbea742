/-
# What the files of the ledger store say

The event log and the journal as sequences of documents, and what the reader has checked of them.

* `readLedger_eq_ok`, `readJournal_eq_ok` : what is read is a file of canonical lines;
* `chainLoop_eq_ok` : a journal is a sequence of committed transactions, with one more that is
  pending at most.
-/
import CogniOS.LedgerStore

namespace LedgerStore

open LedgerV2 (Authority canonicalJsonBytes requireIdentifier requireSha256 readDocument
  validateV2Envelope verifyV2Chain)
open Utf8 (lf)

/-! ## Files of documents -/

/-- The file with these documents. -/
def linesOf (documents : List Json) : List UInt8 :=
  LineFile.joinLines (documents.map Json.encoding)

@[simp] theorem linesOf_nil : linesOf [] = [] := rfl

theorem linesOf_append (xs ys : List Json) : linesOf (xs ++ ys) = linesOf xs ++ linesOf ys := by
  rw [linesOf, List.map_append, LineFile.joinLines_append]
  rfl

theorem linesOf_singleton (document : Json) : linesOf [document] = document.encoding ++ [lf] := by
  simp [linesOf, LineFile.joinLines]

theorem linesOf_snoc (xs : List Json) (document : Json) :
    linesOf (xs ++ [document]) = linesOf xs ++ (document.encoding ++ [lf]) := by
  rw [linesOf_append, linesOf_singleton]

theorem lf_notMem_of_mem_map {documents : List Json} {body : List UInt8}
    (hbody : body ∈ documents.map Json.encoding) : lf ∉ body := by
  obtain ⟨document, -, rfl⟩ := List.mem_map.mp hbody
  exact Json.lf_notMem_encoding document

theorem map_encoding_injective {xs ys : List Json} (hxs : ∀ x ∈ xs, x.WellFormed)
    (hys : ∀ y ∈ ys, y.WellFormed) (h : xs.map Json.encoding = ys.map Json.encoding) :
    xs = ys := by
  induction xs generalizing ys with
  | nil => exact (List.map_eq_nil_iff.mp h.symm).symm
  | cons x xs ih =>
    cases ys with
    | nil => cases h
    | cons y ys =>
      obtain ⟨hx, hmore⟩ := List.forall_mem_cons.mp hxs
      obtain ⟨hy, hothers⟩ := List.forall_mem_cons.mp hys
      obtain ⟨hhead, htail⟩ := List.cons.inj h
      rw [Json.encoding_injective hx hy hhead, ih hmore hothers htail]

/-- **A file that has grown**: its documents begin with the old ones. -/
theorem eq_append_of_linesOf {xs ys : List Json} {tail : List UInt8}
    (hxs : ∀ x ∈ xs, x.WellFormed) (hys : ∀ y ∈ ys, y.WellFormed)
    (h : linesOf ys = linesOf xs ++ tail) : ∃ zs, ys = xs ++ zs ∧ tail = linesOf zs := by
  obtain ⟨zs, hzs, htail⟩ := LineFile.eq_append_of_joinLines
    (fun _ => lf_notMem_of_mem_map) (fun _ => lf_notMem_of_mem_map) h
  obtain ⟨us, vs, rfl, hus, hvs⟩ := List.map_eq_append_iff.mp hzs
  have husxs : us = xs := map_encoding_injective
    (fun u hu => hys u (List.mem_append_left _ hu)) hxs hus
  subst husxs
  exact ⟨vs, rfl, by rw [htail, linesOf, hvs]⟩

theorem linesOf_injective {xs ys : List Json} (hxs : ∀ x ∈ xs, x.WellFormed)
    (hys : ∀ y ∈ ys, y.WellFormed) (h : linesOf xs = linesOf ys) : xs = ys :=
  map_encoding_injective hxs hys (LineFile.joinLines_injective
    (fun _ => lf_notMem_of_mem_map) (fun _ => lf_notMem_of_mem_map) h)

/-- Decoding the lines of a file is decoding canonical encodings. -/
theorem decodeAll_eq_ok {f : LineFile.Format Json CogniError} {Good : Json → Prop}
    (hdecoder : ∀ body n value, f.decoder body n = .ok value ↔
      body = value.encoding ∧ Good value) (n : ℕ) (bodies : List (List UInt8))
    (documents : List Json) :
    LineFile.decodeAll f n bodies = .ok documents ↔
      bodies = documents.map Json.encoding ∧ ∀ d ∈ documents, Good d := by
  induction bodies generalizing n documents with
  | nil =>
    rw [LineFile.decodeAll]
    constructor
    · intro h
      obtain rfl := Except.ok.inj h
      exact ⟨rfl, by simp⟩
    · rintro ⟨hnil, -⟩
      rw [List.map_eq_nil_iff.mp hnil.symm]
  | cons body bodies ih =>
    rw [LineFile.decodeAll, bind_eq_ok]
    constructor
    · rintro ⟨document, hdocument, h⟩
      obtain ⟨rest, hrest, hend⟩ := bind_eq_ok.mp h
      obtain rfl := Except.ok.inj hend
      obtain ⟨rfl, hgood⟩ := (hdecoder _ _ _).mp hdocument
      obtain ⟨rfl, hall⟩ := (ih (n + 1) rest).mp hrest
      exact ⟨rfl, List.forall_mem_cons.mpr ⟨hgood, hall⟩⟩
    · rintro ⟨hmap, hall⟩
      cases documents with
      | nil => cases hmap
      | cons document documents =>
        obtain ⟨hhead, htail⟩ := List.cons.inj hmap
        obtain ⟨hgood, hrest⟩ := List.forall_mem_cons.mp hall
        exact ⟨document, (hdecoder _ _ _).mpr ⟨hhead, hgood⟩,
          bind_eq_ok.mpr ⟨documents, (ih (n + 1) documents).mpr ⟨htail, hrest⟩, rfl⟩⟩

/-! ## The event log -/

section Files

variable {h : Hasher} {a : Authority} {reprs : FloatLit → Bool}

/-- A document that a line of the log may hold. -/
structure LedgerLine (h : Hasher) (a : Authority) (reprs : FloatLit → Bool) (e : Json) :
    Prop where
  wellFormed : e.WellFormed
  floats : e.floatsAll reprs = true
  valid : validateV2Envelope h a e = .ok ()

theorem LedgerLine.length_le {e : Json} (he : LedgerLine h a reprs e) :
    e.encoding.length ≤ maxStoreLineBytes := (validateV2Envelope_exact he.valid).2.2

/-- A log with these envelopes. -/
structure LedgerFile (h : Hasher) (a : Authority) (reprs : FloatLit → Bool) (log : List UInt8)
    (envelopes : List Json) : Prop where
  bytes : log = linesOf envelopes
  lines : ∀ e ∈ envelopes, LedgerLine h a reprs e
  size : log.length ≤ maxStoreBytes
  count : envelopes.length ≤ maxStoreEvents

/-- The snapshot of a log with its report. -/
def snapshotOf (h : Hasher) (envelopes : List Json) (report : LedgerV2.ChainReport) : Snapshot where
  envelopes := envelopes
  eventCount := envelopes.length
  headHash := report.head
  ledgerId := report.ledgerId
  logSha256 := h.hexdigest (linesOf envelopes)
  logSizeBytes := (linesOf envelopes).length
  journalEntryCount := 0
  journalHeadHash := .str journalGenesisHash
  journalSha256 := h.hexdigest []
  journalSizeBytes := 0

theorem decodeLedgerLine_iff (body : List UInt8) (n : ℕ) (value : Json) :
    decodeLedgerLine h a reprs body n = .ok value ↔
      body = value.encoding ∧ LedgerLine h a reprs value := by
  rw [decodeLedgerLine_eq_ok]
  constructor
  · rintro ⟨hwell, hbody, hfloats, hvalid⟩
    exact ⟨hbody, hwell, hfloats, hvalid⟩
  · rintro ⟨hbody, hwell, hfloats, hvalid⟩
    exact ⟨hwell, hbody, hfloats, hvalid⟩

/-- **What is read of the log.** -/
theorem readLedger_eq_ok {log : List UInt8} {snapshot : Snapshot} :
    readLedger h a reprs log = .ok snapshot ↔
      ∃ envelopes report, LedgerFile h a reprs log envelopes ∧
        verifyV2Chain h a envelopes = .ok report ∧ snapshot = snapshotOf h envelopes report := by
  unfold readLedger
  rw [bind_eq_ok]
  constructor
  · rintro ⟨⟨envelopes, total⟩, hread, hok⟩
    obtain ⟨report, hreport, hend⟩ := bind_eq_ok.mp hok
    obtain ⟨bodies, hbytes, hfits, hdecoded, htotal⟩ := LineFile.readLines_eq_ok.mp hread
    obtain ⟨rfl, hlines⟩ :=
      (decodeAll_eq_ok decodeLedgerLine_iff 1 bodies envelopes).mp hdecoded
    simp only at htotal hreport hend
    refine ⟨envelopes, report, ⟨hbytes, hlines, ?_, ?_⟩, hreport, ?_⟩
    · rw [hbytes]
      exact hfits.bytes
    · have hcount := hfits.entries
      rw [List.length_map] at hcount
      exact hcount
    · obtain rfl := Except.ok.inj hend
      rw [snapshotOf, htotal, hbytes]
      rfl
  · rintro ⟨envelopes, report, hfile, hreport, rfl⟩
    have hbytes : LineFile.joinLines (envelopes.map Json.encoding) = log := hfile.bytes.symm
    have hfits : LineFile.Fits (ledgerFormat h a reprs) (envelopes.map Json.encoding) := by
      refine ⟨?_, ?_, ?_⟩
      · rw [hbytes]
        exact hfile.size
      · rw [List.length_map]
        exact hfile.count
      · intro body hbody
        refine ⟨lf_notMem_of_mem_map hbody, ?_⟩
        obtain ⟨e, he, rfl⟩ := List.mem_map.mp hbody
        exact (hfile.lines e he).length_le
    have hdecoded := (decodeAll_eq_ok (f := ledgerFormat h a reprs) decodeLedgerLine_iff 1
      (envelopes.map Json.encoding) envelopes).mpr ⟨rfl, hfile.lines⟩
    refine ⟨(envelopes, log.length), LineFile.readLines_eq_ok.mpr
      ⟨_, hfile.bytes, hfits, hdecoded, rfl⟩, bind_eq_ok.mpr ⟨report, hreport, ?_⟩⟩
    rw [snapshotOf, ← hfile.bytes]

/-! ## The journal -/

/-- A document that a line of the journal may hold. -/
structure JournalLine (h : Hasher) (a : Authority) (reprs : FloatLit → Bool) (e : Json) :
    Prop where
  wellFormed : e.WellFormed
  size : e.encoding.length ≤ LedgerV2.maxDocumentBytes
  floats : e.floatsAll reprs = true
  rules : RecordRules h a e

/-- A journal with these records. -/
structure JournalFile (h : Hasher) (a : Authority) (reprs : FloatLit → Bool)
    (journal : List UInt8) (entries : List Json) : Prop where
  bytes : journal = linesOf entries
  lines : ∀ e ∈ entries, JournalLine h a reprs e
  size : journal.length ≤ maxJournalBytes
  count : entries.length ≤ maxJournalEntries

/-- The snapshot of a journal with the result of its chain. -/
def journalOf (h : Hasher) (entries : List Json) (chain : ChainState) : JournalSnapshot where
  entries := entries
  transactions := chain.transactions
  entryCount := entries.length
  headHash := chain.previous
  sha256 := h.hexdigest (linesOf entries)
  sizeBytes := (linesOf entries).length

theorem decodeJournalLine_iff (body : List UInt8) (n : ℕ) (value : Json) :
    decodeJournalLine h a reprs body n = .ok value ↔
      body = value.encoding ∧ JournalLine h a reprs value := by
  rw [decodeJournalLine_eq_ok, validateJournalRecord_eq_ok]
  constructor
  · rintro ⟨hwell, hbody, hsize, hfloats, hrules, -⟩
    exact ⟨hbody, hwell, hsize, hfloats, hrules⟩
  · rintro ⟨hbody, hwell, hsize, hfloats, hrules⟩
    exact ⟨hwell, hbody, hsize, hfloats, hrules, rfl⟩

/-- **What is read of the journal.** -/
theorem readJournal_eq_ok {journal : List UInt8} {snapshot : JournalSnapshot} :
    readJournal h a reprs journal = .ok snapshot ↔
      ∃ entries chain, JournalFile h a reprs journal entries ∧
        validateJournalChain entries = .ok chain ∧ snapshot = journalOf h entries chain := by
  unfold readJournal
  rw [bind_eq_ok]
  constructor
  · rintro ⟨⟨entries, total⟩, hread, hok⟩
    obtain ⟨chain, hchain, hend⟩ := bind_eq_ok.mp hok
    obtain ⟨bodies, hbytes, hfits, hdecoded, htotal⟩ := LineFile.readLines_eq_ok.mp hread
    obtain ⟨rfl, hlines⟩ :=
      (decodeAll_eq_ok decodeJournalLine_iff 1 bodies entries).mp hdecoded
    simp only at htotal hchain hend
    refine ⟨entries, chain, ⟨hbytes, hlines, ?_, ?_⟩, hchain, ?_⟩
    · rw [hbytes]
      exact hfits.bytes
    · have hcount := hfits.entries
      rw [List.length_map] at hcount
      exact hcount
    · obtain rfl := Except.ok.inj hend
      rw [journalOf, htotal, hbytes]
      rfl
  · rintro ⟨entries, chain, hfile, hchain, rfl⟩
    have hbytes : LineFile.joinLines (entries.map Json.encoding) = journal := hfile.bytes.symm
    have hfits : LineFile.Fits (journalFormat h a reprs) (entries.map Json.encoding) := by
      refine ⟨?_, ?_, ?_⟩
      · rw [hbytes]
        exact hfile.size
      · rw [List.length_map]
        exact hfile.count
      · intro body hbody
        refine ⟨lf_notMem_of_mem_map hbody, ?_⟩
        obtain ⟨e, he, rfl⟩ := List.mem_map.mp hbody
        exact le_trans (hfile.lines e he).size (Nat.le_add_right _ _)
    have hdecoded := (decodeAll_eq_ok (f := journalFormat h a reprs) decodeJournalLine_iff 1
      (entries.map Json.encoding) entries).mpr ⟨rfl, hfile.lines⟩
    refine ⟨(entries, journal.length), LineFile.readLines_eq_ok.mpr
      ⟨_, hfile.bytes, hfits, hdecoded, rfl⟩, bind_eq_ok.mpr ⟨chain, hchain, ?_⟩⟩
    rw [journalOf, ← hfile.bytes]

end Files

/-! ## The chain of transactions -/

/-- A transaction with both of its records. -/
structure Committed where
  prepare : Json
  commit : Json

/-- The journal of committed transactions and of one that is pending. -/
def recordsOf (done : List Committed) (pending : Option Json) : List Json :=
  done.flatMap (fun t => [t.prepare, t.commit]) ++ pending.toList

/-- The transactions of such a journal. -/
def transactionsOf (done : List Committed) (pending : Option Json) : List TransactionState :=
  done.map (fun t => ⟨t.prepare.get "tx_id", t.prepare, some t.commit⟩) ++
    pending.toList.map fun p => ⟨p.get "tx_id", p, none⟩

/-- The PREPARE records of such a journal. -/
def preparesOf (done : List Committed) (pending : Option Json) : List Json :=
  done.map Committed.prepare ++ pending.toList

/-- The hash that the next record names. -/
def lastHash (entries : List Json) : Json :=
  match entries.getLast? with
  | none => .str journalGenesisHash
  | some entry => entry.get "journal_hash"

theorem lastHash_snoc (entries : List Json) (entry : Json) :
    lastHash (entries ++ [entry]) = entry.get "journal_hash" := by
  simp [lastHash]

theorem recordsOf_some (done : List Committed) (p : Json) :
    recordsOf done (some p) = recordsOf done none ++ [p] := by
  simp [recordsOf]

theorem recordsOf_snoc (done : List Committed) (p c : Json) :
    recordsOf (done ++ [⟨p, c⟩]) none = recordsOf done (some p) ++ [c] := by
  simp [recordsOf]

theorem length_recordsOf (done : List Committed) (pending : Option Json) :
    (recordsOf done pending).length = 2 * done.length + pending.toList.length := by
  rw [recordsOf, List.length_append]
  congr 1
  induction done with
  | nil => rfl
  | cons t done ih =>
    rw [List.flatMap_cons, List.length_append, ih, List.length_cons]
    simp only [List.length_cons, List.length_nil]
    omega

/-- A journal has one reading. -/
theorem recordsOf_injective {done done' : List Committed} {pending pending' : Option Json}
    (heq : recordsOf done pending = recordsOf done' pending') :
    done = done' ∧ pending = pending' := by
  induction done generalizing done' with
  | nil =>
    cases done' with
    | nil =>
      refine ⟨rfl, ?_⟩
      cases pending <;> cases pending' <;> simpa [recordsOf] using heq
    | cons t done' =>
      have hlen := congrArg List.length heq
      rw [length_recordsOf, length_recordsOf, List.length_cons, List.length_nil] at hlen
      cases pending with
      | none =>
        simp only [Option.toList_none, List.length_nil] at hlen
        omega
      | some p =>
        simp only [Option.toList_some, List.length_singleton] at hlen
        omega
  | cons t done ih =>
    cases done' with
    | nil =>
      have hlen := congrArg List.length heq
      rw [length_recordsOf, length_recordsOf, List.length_cons, List.length_nil] at hlen
      cases pending' with
      | none =>
        simp only [Option.toList_none, List.length_nil] at hlen
        omega
      | some p =>
        simp only [Option.toList_some, List.length_singleton] at hlen
        omega
    | cons u done' =>
      obtain ⟨p, c⟩ := t
      obtain ⟨q, d⟩ := u
      have hcons : ∀ (x y : Json) (ts : List Committed) (o : Option Json),
          recordsOf (⟨x, y⟩ :: ts) o = x :: y :: recordsOf ts o := fun _ _ _ _ => rfl
      rw [hcons, hcons] at heq
      obtain ⟨hp, hrest⟩ := List.cons.inj heq
      obtain ⟨hd, hrest⟩ := List.cons.inj hrest
      obtain ⟨htail, hpending⟩ := ih hrest
      rw [hp, hd, htail]
      exact ⟨rfl, hpending⟩

theorem transactionsOf_some (done : List Committed) (p : Json) :
    transactionsOf done (some p) = transactionsOf done none ++ [⟨p.get "tx_id", p, none⟩] := by
  simp [transactionsOf]

theorem txIds_transactionsOf (done : List Committed) (pending : Option Json) :
    (transactionsOf done pending).map TransactionState.txId =
      (preparesOf done pending).map (Json.get · "tx_id") := by
  simp only [transactionsOf, preparesOf, List.map_append, List.map_map]
  rfl

/-- What the loop has found in a journal. -/
structure Chained (entries : List Json) (chain : ChainState) (done : List Committed)
    (pending : Option Json) : Prop where
  records : entries = recordsOf done pending
  transactions : chain.transactions = transactionsOf done pending
  unresolved : chain.unresolved = pending.map (Json.get · "tx_id")
  previous : chain.previous = lastHash entries
  prepares : ∀ p ∈ preparesOf done pending, p.get "kind" = .str "PREPARE"
  commits : ∀ t ∈ done, t.commit.get "kind" ≠ .str "PREPARE"
  bound : ∀ t ∈ done, t.commit.get "tx_id" = t.prepare.get "tx_id"
  distinct : ((preparesOf done pending).map (Json.get · "tx_id")).Nodup

theorem chainLoop_append (xs ys : List Json) (n : ℕ) (st : ChainState) :
    chainLoop n st (xs ++ ys) =
      (chainLoop n st xs >>= fun st' => chainLoop (n + xs.length) st' ys) := by
  induction xs generalizing n st with
  | nil => rfl
  | cons x xs ih =>
    have hlen : n + (x :: xs).length = n + 1 + xs.length := by
      rw [List.length_cons]
      omega
    rw [List.cons_append, chainLoop, chainLoop, hlen]
    cases chainStep n st x with
    | error e => rfl
    | ok st' => exact ih (n + 1) st'

theorem validateJournalChain_snoc {entries : List Json} {entry : Json} {chain : ChainState} :
    validateJournalChain (entries ++ [entry]) = .ok chain ↔
      ∃ st, validateJournalChain entries = .ok st ∧
        chainStep (entries.length + 1) st entry = .ok chain := by
  unfold validateJournalChain
  rw [chainLoop_append, bind_eq_ok]
  refine exists_congr fun st => and_congr_right fun _ => ?_
  rw [chainLoop, add_comm, bind_eq_ok]
  constructor
  · rintro ⟨st', hstep, hend⟩
    obtain rfl := Except.ok.inj hend
    exact hstep
  · intro hstep
    exact ⟨chain, hstep, rfl⟩

theorem findTransaction_eq_none {transactions : List TransactionState} {txId : Json} :
    findTransaction transactions txId = none ↔
      txId ∉ transactions.map TransactionState.txId := by
  unfold findTransaction
  rw [List.find?_eq_none]
  simp only [decide_eq_true_eq, List.mem_map, not_exists, not_and]

/-- A transaction is found under its own name. -/
theorem findTransaction_of_mem {transactions : List TransactionState} {t : TransactionState}
    (hdistinct : (transactions.map TransactionState.txId).Nodup) (ht : t ∈ transactions) :
    findTransaction transactions t.txId = some t := by
  unfold findTransaction
  induction transactions with
  | nil => exact absurd ht List.not_mem_nil
  | cons u transactions ih =>
    rw [List.map_cons, List.nodup_cons] at hdistinct
    rcases List.mem_cons.mp ht with rfl | ht
    · simp
    · have hne : u.txId ≠ t.txId := by
        intro heq
        exact hdistinct.1 (by rw [heq]; exact List.mem_map_of_mem ht)
      rw [List.find?_cons_of_neg (by simpa using hne)]
      exact ih hdistinct.2 ht

theorem findTransaction_eq_some {transactions : List TransactionState} {t : TransactionState}
    {txId : Json} (h : findTransaction transactions txId = some t) :
    t ∈ transactions ∧ t.txId = txId := by
  unfold findTransaction at h
  exact ⟨List.mem_of_find?_eq_some h, by simpa using List.find?_some h⟩

/-- One more PREPARE. -/
theorem Chained.prepare {entries : List Json} {chain chain' : ChainState} {done : List Committed}
    {pending : Option Json} {entry : Json} (hc : Chained entries chain done pending)
    (hkind : entry.get "kind" = .str "PREPARE") {n : ℕ}
    (hstep : chainStep n chain entry = .ok chain') :
    pending = none ∧ Chained (entries ++ [entry]) chain' done (some entry) := by
  unfold chainStep at hstep
  obtain ⟨-, hstep⟩ := require_bind_eq_ok.mp hstep
  simp only [hkind, if_true] at hstep
  obtain ⟨⟨hnone, hnew⟩, hend⟩ := require_bind_eq_ok.mp hstep
  obtain rfl := Except.ok.inj hend
  have hpending : pending = none := by
    rw [hc.unresolved] at hnone
    exact Option.map_eq_none_iff.mp hnone
  subst hpending
  rw [findTransaction_eq_none, hc.transactions, txIds_transactionsOf] at hnew
  refine ⟨rfl, ?_⟩
  exact
    { records := by rw [recordsOf_some, hc.records]
      transactions := by rw [transactionsOf_some, hc.transactions]
      unresolved := rfl
      previous := (lastHash_snoc _ _).symm
      prepares := by
        intro p hp
        rcases List.mem_append.mp hp with hp | hp
        · exact hc.prepares p (List.mem_append_left _ hp)
        · obtain rfl : p = entry := by simpa using hp
          exact hkind
      commits := hc.commits
      bound := hc.bound
      distinct := by
        have hsplit : preparesOf done (some entry) = preparesOf done none ++ [entry] := by
          simp [preparesOf]
        rw [hsplit, List.map_append, List.nodup_append]
        refine ⟨hc.distinct, List.nodup_singleton _, ?_⟩
        rintro x hx y hy rfl
        rw [List.map_singleton, List.mem_singleton] at hy
        exact hnew (hy ▸ hx) }

/-- One more COMMIT. -/
theorem Chained.commit {entries : List Json} {chain chain' : ChainState} {done : List Committed}
    {pending : Option Json} {entry : Json} (hc : Chained entries chain done pending)
    (hkind : entry.get "kind" ≠ .str "PREPARE") {n : ℕ}
    (hstep : chainStep n chain entry = .ok chain') :
    ∃ p, pending = some p ∧ entry.get "tx_id" = p.get "tx_id" ∧
      Chained (entries ++ [entry]) chain' (done ++ [⟨p, entry⟩]) none := by
  unfold chainStep at hstep
  obtain ⟨-, hstep⟩ := require_bind_eq_ok.mp hstep
  simp only [if_neg hkind] at hstep
  obtain ⟨state, -, hstep⟩ := bind_eq_ok.mp hstep
  obtain ⟨hpend, hstep⟩ := require_bind_eq_ok.mp hstep
  obtain ⟨-, hend⟩ := require_bind_eq_ok.mp hstep
  obtain rfl := Except.ok.inj hend
  rw [hc.unresolved] at hpend
  obtain ⟨p, rfl, htx⟩ := Option.map_eq_some_iff.mp hpend
  replace htx : p.get "tx_id" = entry.get "tx_id" := htx
  have hprepares : preparesOf (done ++ [⟨p, entry⟩]) none = preparesOf done (some p) := by
    simp [preparesOf]
  have hother : ∀ t ∈ done, t.prepare.get "tx_id" ≠ entry.get "tx_id" := by
    intro t ht heq
    have hdistinct := hc.distinct
    have hsplit : preparesOf done (some p) = done.map Committed.prepare ++ [p] := rfl
    rw [hsplit, List.map_append, List.nodup_append] at hdistinct
    refine hdistinct.2.2 _ (List.mem_map_of_mem (List.mem_map_of_mem ht)) _
      (List.mem_singleton.mpr rfl) ?_
    exact heq.trans htx.symm
  refine ⟨p, rfl, htx.symm, ?_⟩
  exact
    { records := by rw [recordsOf_snoc, hc.records]
      transactions := by
        rw [hc.transactions, transactionsOf, transactionsOf, List.map_append, List.map_map]
        simp only [Option.toList_some, List.map_cons, List.map_nil, htx, if_true, List.map_append,
          Option.toList_none, List.append_nil]
        congr 1
        refine List.map_congr_left fun t ht => ?_
        simp only [Function.comp_apply, if_neg (hother t ht)]
      unresolved := rfl
      previous := (lastHash_snoc _ _).symm
      prepares := by rw [hprepares]; exact hc.prepares
      commits := by
        intro t ht
        rcases List.mem_append.mp ht with ht | ht
        · exact hc.commits t ht
        · rw [List.mem_singleton.mp ht]
          exact hkind
      bound := by
        intro t ht
        rcases List.mem_append.mp ht with ht | ht
        · exact hc.bound t ht
        · rw [List.mem_singleton.mp ht]
          exact htx.symm
      distinct := by rw [hprepares]; exact hc.distinct }

/-- **A journal is a sequence of committed transactions** with at most one pending after them. -/
theorem validateJournalChain_eq_ok {entries : List Json} {chain : ChainState}
    (hok : validateJournalChain entries = .ok chain) :
    ∃ done pending, Chained entries chain done pending := by
  induction entries using List.reverseRecOn generalizing chain with
  | nil =>
    obtain rfl := Except.ok.inj hok
    exact ⟨[], none, rfl, rfl, rfl, rfl, by simp [preparesOf], by simp, by simp, List.nodup_nil⟩
  | append_singleton entries entry ih =>
    obtain ⟨st, hst, hstep⟩ := validateJournalChain_snoc.mp hok
    obtain ⟨done, pending, hc⟩ := ih hst
    by_cases hkind : entry.get "kind" = .str "PREPARE"
    · exact ⟨done, some entry, (hc.prepare hkind hstep).2⟩
    · obtain ⟨p, -, -, hc'⟩ := hc.commit hkind hstep
      exact ⟨_, none, hc'⟩

/-! ## Both files -/

section Combined

variable {h : Hasher} {a : Authority} {reprs : FloatLit → Bool}

/-- The hash and the size of the first `n` lines. -/
def positionOf (h : Hasher) (envelopes : List Json) (n : ℕ) : LogPosition :=
  ⟨h.hexdigest (linesOf (envelopes.take n)), (linesOf (envelopes.take n)).length⟩

/-- The positions before and after each line. -/
theorem ledgerPrefixes_eq_ok (written : List UInt8) {envelopes : List Json}
    (hsize : ∀ e ∈ envelopes, e.encoding.length ≤ LedgerV2.maxDocumentBytes) :
    ledgerPrefixes h written envelopes = .ok ((List.range (envelopes.length + 1)).map fun n =>
      ⟨h.hexdigest (written ++ linesOf (envelopes.take n)),
        (written ++ linesOf (envelopes.take n)).length⟩) := by
  induction envelopes generalizing written with
  | nil => simp [ledgerPrefixes]
  | cons e envelopes ih =>
    obtain ⟨he, hmore⟩ := List.forall_mem_cons.mp hsize
    have hline : ∀ n, written ++ linesOf ((e :: envelopes).take (n + 1)) =
        written ++ (e.encoding ++ [lf]) ++ linesOf (envelopes.take n) := by
      intro n
      rw [List.take_succ_cons, ← List.singleton_append, linesOf_append, linesOf_singleton,
        ← List.append_assoc]
    rw [ledgerPrefixes]
    refine bind_eq_ok.mpr ⟨_, Json.boundedEncoding_eq_ok.mpr ⟨he, rfl⟩, ?_⟩
    refine bind_eq_ok.mpr ⟨_, ih (written ++ (e.encoding ++ [lf])) hmore, ?_⟩
    congr 1
    conv_rhs => rw [List.length_cons, List.range_succ_eq_map, List.map_cons, List.map_map]
    have hfirst : written ++ linesOf ((e :: envelopes).take 0) = written := by simp
    rw [hfirst]
    congr 1
    refine List.map_congr_left fun n _ => ?_
    rw [Function.comp_apply, hline]

theorem ledgerPrefixes_nil {envelopes : List Json}
    (hsize : ∀ e ∈ envelopes, e.encoding.length ≤ LedgerV2.maxDocumentBytes) :
    ledgerPrefixes h [] envelopes =
      .ok ((List.range (envelopes.length + 1)).map (positionOf h envelopes)) := by
  rw [ledgerPrefixes_eq_ok [] hsize]
  rfl

theorem getD_positions {envelopes : List Json} {n : ℕ} (hn : n ≤ envelopes.length)
    (d : LogPosition) :
    ((List.range (envelopes.length + 1)).map (positionOf h envelopes)).getD n d =
      positionOf h envelopes n := by
  rw [List.getD_eq_getElem?_getD, List.getElem?_map, List.getElem?_range (by omega)]
  rfl

theorem hashEnvelopeLines_eq_ok {envelopes : List Json}
    (hsize : ∀ e ∈ envelopes, e.encoding.length ≤ LedgerV2.maxDocumentBytes) :
    hashEnvelopeLines h envelopes = .ok (h.hexdigest (linesOf envelopes)) := by
  unfold hashEnvelopeLines
  refine bind_eq_ok.mpr ⟨_, ledgerPrefixes_nil hsize, ?_⟩
  rw [List.range_succ, List.map_append, List.map_singleton, List.getLast?_concat, positionOf,
    List.take_length]
  rfl

/-- The PREPARE of the event `i` of the log. -/
structure PrepareRules (h : Hasher) (envelopes : List Json) (i : ℕ) (p : Json) : Prop where
  sequence : p.get "expected_sequence" = .int ((i : ℤ) + 1)
  preHash : p.get "pre_log_sha256" = .str (positionOf h envelopes i).logSha256
  preSize : p.get "pre_log_size_bytes" = .int (positionOf h envelopes i).logSizeBytes
  event : ∀ e, envelopes[i]? = some e → (p.get "envelope").equals e = true
  postHash : i < envelopes.length →
    p.get "post_log_sha256" = .str (positionOf h envelopes (i + 1)).logSha256
  postSize : i < envelopes.length →
    p.get "post_log_size_bytes" = .int (positionOf h envelopes (i + 1)).logSizeBytes

theorem checkPrepare_eq_ok {envelopes : List Json} {report : LedgerV2.ChainReport} {i : ℕ}
    {p : Json} (hi : i ≤ envelopes.length) :
    checkPrepare ((List.range (envelopes.length + 1)).map (positionOf h envelopes))
      (snapshotOf h envelopes report) (i + 1) p = .ok () ↔ PrepareRules h envelopes i p := by
  have hevent : ∀ {P Q : Prop},
      (i + 1 ≤ envelopes.length → (p.get "envelope").equals (envelopes.getD i .null) = true ∧
        P ∧ Q) ↔
      ((∀ e, envelopes[i]? = some e → (p.get "envelope").equals e = true) ∧
        (i < envelopes.length → P) ∧ (i < envelopes.length → Q)) := by
    intro P Q
    constructor
    · intro hall
      refine ⟨fun e he => ?_, fun hlt => (hall hlt).2.1, fun hlt => (hall hlt).2.2⟩
      obtain ⟨hlt, -⟩ := List.getElem?_eq_some_iff.mp he
      have hequals := (hall hlt).1
      rw [List.getD_eq_getElem?_getD, he] at hequals
      exact hequals
    · rintro ⟨he, hP, hQ⟩ hlt
      refine ⟨?_, hP hlt, hQ hlt⟩
      rw [List.getD_eq_getElem?_getD, List.getElem?_eq_getElem hlt]
      exact he _ (List.getElem?_eq_getElem hlt)
  unfold checkPrepare
  rw [require_bind_eq_ok, require_bind_eq_ok, require_eq_ok, Nat.add_sub_cancel,
    getD_positions hi]
  have hcast : ((i + 1 : ℕ) : ℤ) = (i : ℤ) + 1 := by push_cast; rfl
  rw [hcast]
  constructor
  · rintro ⟨hsequence, ⟨hhash, hsize⟩, hpost⟩
    obtain ⟨he, hpostHash, hpostSize⟩ := hevent.mp hpost
    refine ⟨hsequence, hhash, hsize, he, fun hlt => ?_, fun hlt => ?_⟩
    · rw [hpostHash hlt, getD_positions (by omega)]
    · rw [hpostSize hlt, getD_positions (by omega)]
  · rintro ⟨hsequence, hhash, hsize, he, hpostHash, hpostSize⟩
    refine ⟨hsequence, ⟨hhash, hsize⟩, hevent.mpr ⟨he, fun hlt => ?_, fun hlt => ?_⟩⟩
    · rw [getD_positions (by omega)]
      exact hpostHash hlt
    · rw [getD_positions (by omega)]
      exact hpostSize hlt

theorem checkPrepares_eq_ok {envelopes : List Json} {report : LedgerV2.ChainReport} (i : ℕ)
    (prepares : List Json) (hlen : i + prepares.length ≤ envelopes.length + 1) :
    checkPrepares ((List.range (envelopes.length + 1)).map (positionOf h envelopes))
      (snapshotOf h envelopes report) (i + 1) prepares = .ok () ↔
      ∀ j p, prepares[j]? = some p → PrepareRules h envelopes (i + j) p := by
  induction prepares generalizing i with
  | nil => exact iff_of_true rfl (by simp)
  | cons p prepares ih =>
    rw [List.length_cons] at hlen
    rw [checkPrepares, bind_eq_ok]
    constructor
    · rintro ⟨⟨⟩, hp, hrest⟩ j q hq
      cases j with
      | zero =>
        obtain rfl := Option.some.inj hq
        exact (checkPrepare_eq_ok (by omega)).mp hp
      | succ j =>
        rw [Nat.add_succ, ← Nat.succ_add]
        exact (ih (i + 1) (by omega)).mp hrest j q hq
    · intro hall
      refine ⟨(), (checkPrepare_eq_ok (by omega)).mpr (hall 0 p rfl), ?_⟩
      refine (ih (i + 1) (by omega)).mpr fun j q hq => ?_
      have := hall (j + 1) q hq
      rwa [Nat.add_succ, ← Nat.succ_add] at this

/-- What is checked of the log and the journal together. -/
structure CombinedRules (h : Hasher) (envelopes : List Json) (done : List Committed)
    (pending : Option Json) (requireClean : Bool) : Prop where
  prepared : (preparesOf done pending).length ≤ envelopes.length + 1
  committed : done.length ≤ envelopes.length
  prepares : ∀ i p, (preparesOf done pending)[i]? = some p → PrepareRules h envelopes i p
  resolved : pending = none → done.length = envelopes.length
  position : ∀ p ∈ pending, p.get "expected_sequence" = .int envelopes.length ∨
    p.get "expected_sequence" = .int (envelopes.length + 1)
  clean : requireClean = true → pending = none

theorem filter_prepare {entries : List Json} {chain : ChainState} {done : List Committed}
    {pending : Option Json} (hc : Chained entries chain done pending) :
    entries.filter (fun entry => entry.get "kind" = .str "PREPARE") =
      preparesOf done pending := by
  have hdone : ∀ ts : List Committed,
      (∀ t ∈ ts, t.prepare.get "kind" = .str "PREPARE") →
      (∀ t ∈ ts, t.commit.get "kind" ≠ .str "PREPARE") →
      (ts.flatMap fun t => [t.prepare, t.commit]).filter
        (fun entry => entry.get "kind" = .str "PREPARE") = ts.map Committed.prepare := by
    intro ts
    induction ts with
    | nil => exact fun _ _ => rfl
    | cons t ts ih =>
      intro hp hk
      obtain ⟨hp, hps⟩ := List.forall_mem_cons.mp hp
      obtain ⟨hk, hks⟩ := List.forall_mem_cons.mp hk
      rw [List.flatMap_cons, List.filter_append, ih hps hks]
      simp [hp, hk]
  rw [hc.records, recordsOf, List.filter_append, preparesOf,
    hdone done (fun t ht => hc.prepares _ (List.mem_append_left _ (List.mem_map_of_mem ht)))
      hc.commits]
  congr 1
  refine List.filter_eq_self.mpr fun p hp => ?_
  simpa using hc.prepares p (List.mem_append_right _ hp)

theorem filter_commit {entries : List Json} {chain : ChainState} {done : List Committed}
    {pending : Option Json} (hc : Chained entries chain done pending)
    (hkinds : ∀ e ∈ entries, RecordRules h a e) :
    entries.filter (fun entry => entry.get "kind" = .str "COMMIT") =
      done.map Committed.commit := by
  have hkind : ∀ t ∈ done, t.commit.get "kind" = .str "COMMIT" := by
    intro t ht
    have hmem : t.commit ∈ entries := by
      rw [hc.records]
      exact List.mem_append_left _ (List.mem_flatMap.mpr ⟨t, ht, by simp⟩)
    rcases (hkinds _ hmem).schema with ⟨hk, -⟩ | ⟨hk, -⟩
    · exact absurd hk (hc.commits t ht)
    · exact hk
  have hdone : ∀ ts : List Committed,
      (∀ t ∈ ts, t.prepare.get "kind" = .str "PREPARE") →
      (∀ t ∈ ts, t.commit.get "kind" = .str "COMMIT") →
      (ts.flatMap fun t => [t.prepare, t.commit]).filter
        (fun entry => entry.get "kind" = .str "COMMIT") = ts.map Committed.commit := by
    intro ts
    induction ts with
    | nil => exact fun _ _ => rfl
    | cons t ts ih =>
      intro hp hk
      obtain ⟨hp, hps⟩ := List.forall_mem_cons.mp hp
      obtain ⟨hk, hks⟩ := List.forall_mem_cons.mp hk
      rw [List.flatMap_cons, List.filter_append, ih hps hks]
      simp [hp, hk]
  rw [hc.records, recordsOf, List.filter_append,
    hdone done (fun t ht => hc.prepares _ (List.mem_append_left _ (List.mem_map_of_mem ht))) hkind]
  have hpending : (pending.toList).filter
      (fun entry => entry.get "kind" = .str "COMMIT") = [] := by
    refine List.filter_eq_nil_iff.mpr fun p hp => ?_
    have := hc.prepares p (List.mem_append_right _ hp)
    simp [this]
  rw [hpending, List.append_nil]

theorem unresolved_transactionsOf (done : List Committed) (pending : Option Json) :
    unresolved (transactionsOf done pending) =
      pending.toList.map fun p => ⟨p.get "tx_id", p, none⟩ := by
  rw [unresolved, transactionsOf, List.filter_append]
  have hdone : (done.map fun t => (⟨t.prepare.get "tx_id", t.prepare, some t.commit⟩ :
      TransactionState)).filter (fun t => !t.committed) = [] := by
    refine List.filter_eq_nil_iff.mpr fun t ht => ?_
    obtain ⟨u, -, rfl⟩ := List.mem_map.mp ht
    simp [TransactionState.committed]
  rw [hdone, List.nil_append]
  refine List.filter_eq_self.mpr fun t ht => ?_
  obtain ⟨u, -, rfl⟩ := List.mem_map.mp ht
  rfl

/-- **What is checked of both files.** -/
theorem validateCombined_eq_ok {envelopes entries : List Json} {report : LedgerV2.ChainReport}
    {chain : ChainState} {done : List Committed} {pending : Option Json} {clean : Bool}
    (hlines : ∀ e ∈ envelopes, LedgerLine h a reprs e)
    (hrecords : ∀ e ∈ entries, RecordRules h a e) (hc : Chained entries chain done pending) :
    validateCombined h (snapshotOf h envelopes report) (journalOf h entries chain) clean =
      .ok () ↔ CombinedRules h envelopes done pending clean := by
  have hpositions : ledgerPrefixes h [] (snapshotOf h envelopes report).envelopes =
      .ok ((List.range (envelopes.length + 1)).map (positionOf h envelopes)) :=
    ledgerPrefixes_nil fun e he => (hlines e he).length_le
  have hunresolved : unresolved (journalOf h entries chain).transactions =
      pending.toList.map fun p => ⟨p.get "tx_id", p, none⟩ := by
    show unresolved chain.transactions = _
    rw [hc.transactions, unresolved_transactionsOf]
  have hprepares : (journalOf h entries chain).entries.filter
      (fun entry => entry.get "kind" = .str "PREPARE") = preparesOf done pending :=
    filter_prepare hc
  have hcommits : (journalOf h entries chain).entries.filter
      (fun entry => entry.get "kind" = .str "COMMIT") = done.map Committed.commit :=
    filter_commit hc hrecords
  have hcount : (snapshotOf h envelopes report).eventCount = envelopes.length := rfl
  unfold validateCombined
  rw [bind_iff_of_ok hpositions]
  simp only [hprepares, hcommits, hunresolved, hcount, List.length_map]
  rw [require_bind_eq_ok]
  constructor
  · rintro ⟨⟨hprepared, hcommitted⟩, hok⟩
    obtain ⟨_, hchecked, hok⟩ := bind_eq_ok.mp hok
    obtain ⟨hresolved, hlast⟩ := require_bind_eq_ok.mp hok
    refine ⟨hprepared, hcommitted, ?_, ?_, ?_, ?_⟩
    · intro i p hp
      have := (checkPrepares_eq_ok 0 _ (by omega)).mp hchecked i p hp
      rwa [Nat.zero_add] at this
    · rintro rfl
      exact hresolved.resolve_left (by simp)
    · rintro p rfl
      exact (require_bind_eq_ok.mp hlast).1
    · intro hclean
      cases pending with
      | none => rfl
      | some p =>
        have hdirty := require_eq_ok.mp (require_bind_eq_ok.mp hlast).2
        rw [hclean] at hdirty
        cases hdirty
  · intro hr
    refine ⟨⟨hr.prepared, hr.committed⟩, ?_⟩
    have hchecked := (@checkPrepares_eq_ok h envelopes report 0
      (preparesOf done pending) (by have := hr.prepared; omega)).mpr
      (fun j p hp => by rw [Nat.zero_add]; exact hr.prepares j p hp)
    refine bind_eq_ok.mpr ⟨(), hchecked, require_bind_eq_ok.mpr ⟨?_, ?_⟩⟩
    · cases pending with
      | none => exact .inr (hr.resolved rfl)
      | some p => exact .inl (by simp)
    · cases pending with
      | none => rfl
      | some p =>
        refine require_bind_eq_ok.mpr ⟨hr.position p rfl, require_eq_ok.mpr ?_⟩
        cases clean with
        | false => rfl
        | true => cases hr.clean rfl

/-- What a store whose files are read shows. -/
structure History where
  envelopes : List Json
  report : LedgerV2.ChainReport
  done : List Committed
  pending : Option Json

namespace History

/-- The records of the journal. -/
def entries (H : History) : List Json := recordsOf H.done H.pending

/-- The result of the loop over the journal. -/
def chain (H : History) : ChainState where
  previous := lastHash H.entries
  transactions := transactionsOf H.done H.pending
  unresolved := H.pending.map (Json.get · "tx_id")

/-- The audit of the files. -/
def audit (h : Hasher) (H : History) : Audit :=
  ⟨(snapshotOf h H.envelopes H.report).withJournal (journalOf h H.entries H.chain),
    journalOf h H.entries H.chain⟩

end History

/-- The files of the store hold this history, and it passes every check. -/
structure Shows (h : Hasher) (a : Authority) (reprs : FloatLit → Bool) (s : Store) (H : History)
    (requireClean : Bool) : Prop where
  log : LedgerFile h a reprs s.log H.envelopes
  verified : verifyV2Chain h a H.envelopes = .ok H.report
  journal : JournalFile h a reprs s.journal H.entries
  validated : validateJournalChain H.entries = .ok H.chain
  chained : Chained H.entries H.chain H.done H.pending
  combined : CombinedRules h H.envelopes H.done H.pending requireClean

theorem reading_eq_ok {α : Type} {fault : Bool} {x : Except CogniError α} {v : α} :
    reading fault x = .ok v ↔ fault = false ∧ x = .ok v := by
  cases fault with
  | false => simp [reading]
  | true => simp [reading]

/-- **What is read of a store.** -/
theorem readCombined_eq_ok {logFault journalFault : Bool} {s : Store} {clean : Bool}
    {allowed : Finset Json} {audit : Audit} :
    readCombined h a reprs logFault journalFault s clean allowed = .ok audit ↔
      logFault = false ∧ journalFault = false ∧ (clean = true → s.indeterminate \ allowed = ∅) ∧
        ∃ H, Shows h a reprs s H clean ∧ audit = H.audit h := by
  unfold readCombined
  constructor
  · intro hok
    obtain ⟨ledger, hledger, hok⟩ := bind_eq_ok.mp hok
    obtain ⟨hlogFault, hledger⟩ := reading_eq_ok.mp hledger
    obtain ⟨journal, hjournal, hok⟩ := bind_eq_ok.mp hok
    obtain ⟨hjournalFault, hjournal⟩ := reading_eq_ok.mp hjournal
    obtain ⟨_, hcombined, hok⟩ := bind_eq_ok.mp hok
    obtain ⟨hprocess, hend⟩ := require_bind_eq_ok.mp hok
    obtain ⟨envelopes, report, hlog, hverified, rfl⟩ := readLedger_eq_ok.mp hledger
    obtain ⟨entries, chain, hfile, hvalidated, rfl⟩ := readJournal_eq_ok.mp hjournal
    obtain ⟨done, pending, hc⟩ := validateJournalChain_eq_ok hvalidated
    have hrules := (validateCombined_eq_ok hlog.lines
      (fun e he => (hfile.lines e he).rules) hc).mp hcombined
    have hentries : (⟨envelopes, report, done, pending⟩ : History).entries = entries :=
      hc.records.symm
    have hchain : (⟨envelopes, report, done, pending⟩ : History).chain = chain := by
      obtain ⟨previous, transactions, unresolved⟩ := chain
      rw [History.chain, hentries, ← hc.previous, ← hc.transactions, ← hc.unresolved]
    refine ⟨hlogFault, hjournalFault, hprocess, ⟨envelopes, report, done, pending⟩, ?_, ?_⟩
    · refine ⟨hlog, hverified, ?_, ?_, ?_, hrules⟩
      · rw [hentries]
        exact hfile
      · rw [hentries, hchain]
        exact hvalidated
      · rw [hentries, hchain]
        exact hc
    · obtain rfl := Except.ok.inj hend
      rw [History.audit, hentries, hchain]
  · rintro ⟨rfl, rfl, hprocess, H, hH, rfl⟩
    have hledger : reading false (readLedger h a reprs s.log) =
        .ok (snapshotOf h H.envelopes H.report) :=
      reading_eq_ok.mpr ⟨rfl, readLedger_eq_ok.mpr ⟨_, _, hH.log, hH.verified, rfl⟩⟩
    have hjournal : reading false (readJournal h a reprs s.journal) =
        .ok (journalOf h H.entries H.chain) :=
      reading_eq_ok.mpr ⟨rfl, readJournal_eq_ok.mpr ⟨_, _, hH.journal, hH.validated, rfl⟩⟩
    have hcombined := (@validateCombined_eq_ok h a _ _ _ H.report _ _ _ clean hH.log.lines
      (fun e he => (hH.journal.lines e he).rules) hH.chained).mpr hH.combined
    refine bind_eq_ok.mpr ⟨_, hledger, bind_eq_ok.mpr ⟨_, hjournal, ?_⟩⟩
    exact bind_eq_ok.mpr ⟨(), hcombined, require_bind_eq_ok.mpr ⟨hprocess, rfl⟩⟩

theorem Shows.wellFormed_envelopes {s : Store} {H : History} {clean : Bool}
    (hH : Shows h a reprs s H clean) : ∀ e ∈ H.envelopes, e.WellFormed :=
  fun e he => (hH.log.lines e he).wellFormed

theorem Shows.wellFormed_entries {s : Store} {H : History} {clean : Bool}
    (hH : Shows h a reprs s H clean) : ∀ e ∈ H.entries, e.WellFormed :=
  fun e he => (hH.journal.lines e he).wellFormed

/-- A store with its transactions committed is clean. -/
theorem Shows.clean_iff {s : Store} {H : History} :
    Shows h a reprs s H true ↔ Shows h a reprs s H false ∧ H.pending = none := by
  constructor
  · intro hH
    refine ⟨{ hH with combined := { hH.combined with clean := by simp } }, hH.combined.clean rfl⟩
  · rintro ⟨hH, hpending⟩
    exact { hH with combined := { hH.combined with clean := fun _ => hpending } }

end Combined

end LedgerStore
