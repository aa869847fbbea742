/-
# The records of an append

The PREPARE that `append` builds and the COMMIT that follows it pass the checks of their reader,
and the lengths of their lines are known before they are built.

* `length_prepareRecord`, `length_commitRecord_le` : the lengths;
* `recordRules_prepareRecord`, `recordRules_commitRecord` : the checks.
-/
import CogniOS.StoreRuns

namespace LedgerStore

open LedgerV2 (Authority canonicalJsonBytes isIdentifier requireIdentifier requireSha256 schemaVersion
  protocolId validateV2Envelope)
open Utf8 (lf)

variable {h : Hasher} {a : Authority} {reprs : FloatLit → Bool}

/-! ## Field checks -/

theorem requireSha256_eq_ok {value : Json} {label : String} {u : Unit} :
    requireSha256 value label = .ok u ↔ value.isHexText 64 = true := by
  unfold requireSha256
  exact require_eq_ok

/-- A check that passes does so under every label. -/
theorem relabel_sha256 {value : Json} {label : String} {u : Unit} (label' : String)
    (hok : requireSha256 value label = .ok u) : requireSha256 value label' = .ok () :=
  requireSha256_eq_ok.mpr (requireSha256_eq_ok.mp hok)

theorem requireSha256_hexdigest (h : Hasher) (message : List UInt8) (label : String) :
    requireSha256 (.str (h.hexdigest message)) label = .ok () :=
  requireSha256_eq_ok.mpr (h.hex message)

theorem requireIdentifier_iff {value : Json} {label : String} {u : Unit} :
    requireIdentifier value label = .ok u ↔ ∃ s, value = .str s ∧ isIdentifier s = true := by
  unfold requireIdentifier
  rw [require_eq_ok, Option.any_eq_true]
  simp only [Json.asStr?_eq_some]

theorem relabel_identifier {value : Json} {label : String} {u : Unit} (label' : String)
    (hok : requireIdentifier value label = .ok u) : requireIdentifier value label' = .ok () :=
  requireIdentifier_iff.mpr (requireIdentifier_iff.mp hok)

theorem isPlain_of_isHex {n : ℕ} {s : String} (hs : Hex.isHex n s = true) :
    Json.isPlain s = true := by
  rw [Hex.isHex, Bool.and_eq_true] at hs
  refine List.all_eq_true.mpr fun c hc => ?_
  have hdigit := List.all_eq_true.mp hs.2 c hc
  rw [Json.isPlainChar, isAlnum]
  rw [Hex.isDigit, Bool.or_eq_true, Bool.and_eq_true, Bool.and_eq_true] at hdigit
  rcases hdigit with ⟨hlow, hhigh⟩ | ⟨hlow, hhigh⟩
  · simp [hlow, hhigh]
  · have hz : c ≤ 'z' := le_trans (of_decide_eq_true hhigh) (by decide)
    simp [hlow, hz]

/-- A digest takes 66 bytes. -/
theorem length_of_sha256 {value : Json} {label : String} {u : Unit}
    (hok : requireSha256 value label = .ok u) : value.encoding.length = 66 := by
  obtain ⟨s, hs, hhex⟩ := (Option.any_eq_true _ _).mp (requireSha256_eq_ok.mp hok)
  rw [Json.asStr?_eq_some.mp hs, Json.length_encoding_str (isPlain_of_isHex hhex),
    ← String.length_toList, Hex.length_of_isHex hhex]

theorem isPlain_of_isIdentifier {s : String} (hs : isIdentifier s = true) :
    Json.isPlain s = true ∧ s.length ≤ 256 := by
  rw [Json.isPlain, ← String.length_toList]
  unfold isIdentifier at hs
  cases hlist : s.toList with
  | nil => rw [hlist] at hs; cases hs
  | cons c cs =>
    rw [hlist] at hs
    simp only [Bool.and_eq_true, decide_eq_true_eq] at hs
    obtain ⟨⟨hc, hcs⟩, hlen⟩ := hs
    refine ⟨?_, by rw [List.length_cons]; omega⟩
    have hrest : cs.all Json.isPlainChar = true := hcs
    rw [List.all_cons, hrest, Json.isPlainChar, hc]
    rfl

/-- An identifier takes at most 258 bytes. -/
theorem length_of_identifier {value : Json} {label : String} {u : Unit}
    (hok : requireIdentifier value label = .ok u) : value.encoding.length ≤ 258 := by
  obtain ⟨s, rfl, hs⟩ := requireIdentifier_iff.mp hok
  obtain ⟨hplain, hlen⟩ := isPlain_of_isIdentifier hs
  rw [Json.length_encoding_str hplain]
  omega

/-- What a record or an event asks of a number keeps it short. -/
theorem length_of_bounded {n : ℤ} (hlow : 0 ≤ n) (hhigh : n ≤ maxStoreBytes) :
    (Json.int n).encoding.length ≤ 9 := by
  rw [Json.length_encoding_int]
  refine Json.length_intText (by decide) hlow ?_
  rw [maxStoreBytes] at hhigh
  norm_num at hhigh ⊢
  omega

/-! ## Lengths -/

/-- What a PREPARE adds to the encoding of its envelope. -/
def prepareOverhead (txId ledgerId sequence : Json) (journalSequence pre post : ℕ) : ℕ :=
  837 + txId.encoding.length + ledgerId.encoding.length + sequence.encoding.length +
    (Json.int journalSequence).encoding.length + (Json.int pre).encoding.length +
    (Json.int post).encoding.length

/-- The length of a COMMIT. -/
def commitLength (txId ledgerId sequence postSize : Json) (journalSequence : ℕ) : ℕ :=
  632 + txId.encoding.length + ledgerId.encoding.length + sequence.encoding.length +
    postSize.encoding.length + (Json.int journalSequence).encoding.length

/-- The parts of a record that are the same in all. -/
theorem recordTexts_length :
    (prepareKeys.map Json.keyLength).sum = 299 ∧ (commitKeys.map Json.keyLength).sum = 227 ∧
      (Json.str journalDomain).encoding.length = 35 ∧
      (Json.str "PREPARE").encoding.length = 9 ∧ (Json.str "COMMIT").encoding.length = 8 ∧
      (Json.str protocolId).encoding.length = 30 ∧
      (Json.int schemaVersion).encoding.length = 1 := by
  decide +kernel

theorem length_prepareRecord {txId previous envelope : Json} {n : ℕ} {pre post : LogPosition}
    (heventHash : requireSha256 (envelope.get "event_hash") "" = .ok ())
    (hexpected : requireSha256 ((envelope.get "event").get "previous_hash") "" = .ok ())
    (hprevious : requireSha256 previous "" = .ok ())
    (hpre : requireSha256 (.str pre.logSha256) "" = .ok ())
    (hpost : requireSha256 (.str post.logSha256) "" = .ok ()) :
    (prepareRecord h txId n previous envelope pre post).encoding.length =
      envelope.encoding.length + prepareOverhead txId ((envelope.get "event").get "ledger_id")
        ((envelope.get "event").get "sequence") n pre.logSizeBytes post.logSizeBytes := by
  obtain ⟨hkeys, -, hdomain, hkind, -, hprotocol, hversion⟩ := recordTexts_length
  have hdigest : ∀ message, (Json.str (h.hexdigest message)).encoding.length = 66 := fun message =>
    length_of_sha256 (requireSha256_hexdigest h message "")
  rw [prepareRecord, Json.length_encoding_obj (by simp), Json.fieldsLength]
  have hmap : (prepareBefore envelope (h.hexdigest envelope.encoding) ++ ("journal_hash",
      Json.str (h.hexdigest (Json.obj (prepareFields txId n previous envelope pre post
        (h.hexdigest envelope.encoding))).encoding)) ::
      prepareAfter txId n previous envelope pre post).map (fun p => Json.keyLength p.1) =
      prepareKeys.map Json.keyLength := rfl
  rw [hmap, hkeys]
  simp only [prepareBefore, prepareAfter, List.cons_append, List.nil_append, List.map_cons,
    List.map_nil, List.sum_cons, List.sum_nil, hdomain, hkind, hprotocol, hversion, hdigest,
    length_of_sha256 heventHash, length_of_sha256 hexpected, length_of_sha256 hprevious,
    length_of_sha256 hpre, length_of_sha256 hpost, prepareOverhead]
  omega

theorem length_commitRecord {prepare previous : Json} {n : ℕ}
    (heventHash : requireSha256 (prepare.get "event_hash") "" = .ok ())
    (hpostHash : requireSha256 (prepare.get "post_log_sha256") "" = .ok ())
    (hprepareHash : requireSha256 (prepare.get "journal_hash") "" = .ok ())
    (hprevious : requireSha256 previous "" = .ok ()) :
    (commitRecord h prepare n previous).encoding.length =
      commitLength (prepare.get "tx_id") (prepare.get "ledger_id")
        (prepare.get "expected_sequence") (prepare.get "post_log_size_bytes") n := by
  obtain ⟨-, hkeys, hdomain, -, hkind, hprotocol, hversion⟩ := recordTexts_length
  have hdigest : ∀ message, (Json.str (h.hexdigest message)).encoding.length = 66 := fun message =>
    length_of_sha256 (requireSha256_hexdigest h message "")
  rw [commitRecord, Json.length_encoding_obj (by simp), Json.fieldsLength]
  have hmap : (commitBefore prepare ++ ("journal_hash", Json.str (h.hexdigest
      (Json.obj (commitFields prepare n previous)).encoding)) ::
      commitAfter prepare n previous).map (fun p => Json.keyLength p.1) =
      commitKeys.map Json.keyLength := rfl
  rw [hmap, hkeys]
  simp only [commitBefore, commitAfter, List.cons_append, List.nil_append, List.map_cons,
    List.map_nil, List.sum_cons, List.sum_nil, hdomain, hkind, hprotocol, hversion, hdigest,
    length_of_sha256 heventHash, length_of_sha256 hpostHash, length_of_sha256 hprepareHash,
    length_of_sha256 hprevious, commitLength]
  omega

/-- The fields without one of them are no longer than all of them. -/
theorem length_without_le (before after : List (String × Json)) (p : String × Json) :
    (Json.obj (before ++ after)).encoding.length ≤
      (Json.obj (before ++ p :: after)).encoding.length := by
  obtain ⟨k, v⟩ := p
  have hwith : (Json.obj (before ++ (k, v) :: after)).encoding.length =
      Json.fieldsLength (before ++ (k, v) :: after) + 1 := Json.length_encoding_obj (by simp)
  have hkey : 2 ≤ Json.keyLength k := Nat.le_add_left _ _
  rw [hwith, Json.fieldsLength_append, Json.fieldsLength_cons]
  by_cases hnil : before ++ after = []
  · rw [hnil]
    show (Json.obj []).encoding.length ≤ _
    have hempty : (Json.obj []).encoding.length = 2 := rfl
    omega
  · rw [Json.length_encoding_obj hnil, Json.fieldsLength_append]
    omega

theorem length_unsigned_prepare_le (h : Hasher) (txId : Json) (n : ℕ) (previous envelope : Json)
    (pre post : LogPosition) :
    (Json.obj (prepareFields txId n previous envelope pre post
      (h.hexdigest envelope.encoding))).encoding.length ≤
      (prepareRecord h txId n previous envelope pre post).encoding.length :=
  length_without_le (prepareBefore envelope (h.hexdigest envelope.encoding))
    (prepareAfter txId n previous envelope pre post) _

theorem length_unsigned_commit_le (h : Hasher) (prepare : Json) (n : ℕ) (previous : Json) :
    (Json.obj (commitFields prepare n previous)).encoding.length ≤
      (commitRecord h prepare n previous).encoding.length :=
  length_without_le (commitBefore prepare) (commitAfter prepare n previous) _

/-! ## The checks of a PREPARE -/

/-- What `validatePrepare` asks, for a record whose fields are given. -/
theorem validatePrepare_prepareRecord {txId previous envelope : Json} {n : ℕ}
    {pre post : LogPosition} (hvalid : validateV2Envelope h a envelope = .ok ())
    (hexpected : requireSha256 ((envelope.get "event").get "previous_hash") "" = .ok ())
    (hpre : requireSha256 (.str pre.logSha256) "" = .ok ())
    (hpreSize : pre.logSizeBytes ≤ maxStoreBytes)
    (hpostSize : post.logSizeBytes = pre.logSizeBytes + envelope.encoding.length + 1) :
    validatePrepare h a (prepareRecord h txId n previous envelope pre post) = .ok () := by
  unfold validatePrepare
  refine bind_eq_ok.mpr ⟨(), relabel_sha256 _ hexpected, ?_⟩
  refine bind_eq_ok.mpr ⟨(), relabel_sha256 _ hpre, ?_⟩
  refine bind_eq_ok.mpr ⟨(), boundedNonnegativeInt_eq_ok.mpr ⟨pre.logSizeBytes, rfl, ?_, ?_⟩, ?_⟩
  · exact Int.natCast_nonneg _
  · exact_mod_cast hpreSize
  refine bind_eq_ok.mpr ⟨(), requireSha256_hexdigest h envelope.encoding _, ?_⟩
  refine bind_eq_ok.mpr ⟨(), hvalid, ?_⟩
  have hlen := (validateV2Envelope_exact hvalid).2.2
  refine bind_eq_ok.mpr ⟨_, Json.boundedEncoding_eq_ok.mpr ⟨hlen, rfl⟩, ?_⟩
  refine require_eq_ok.mpr ⟨rfl, rfl, rfl, rfl, rfl, ?_⟩
  show some (post.logSizeBytes : ℤ) = some ((pre.logSizeBytes : ℤ) + envelope.encoding.length + 1)
  rw [hpostSize]
  push_cast
  rfl

theorem previousHash_of_validEvent {event : Json} {u : Unit}
    (hok : LedgerV2.validateV2Event a event = .ok u) :
    requireSha256 (event.get "previous_hash") "" = .ok () := by
  unfold LedgerV2.validateV2Event at hok
  obtain ⟨_, -, hok⟩ := bind_eq_ok.mp hok
  obtain ⟨-, hok⟩ := require_bind_eq_ok.mp hok
  obtain ⟨_, -, hok⟩ := bind_eq_ok.mp hok
  obtain ⟨_, -, hok⟩ := bind_eq_ok.mp hok
  obtain ⟨_, -, hok⟩ := bind_eq_ok.mp hok
  obtain ⟨_, -, hok⟩ := bind_eq_ok.mp hok
  -- The task of an event may be missing, and the two checks after it are the same.
  by_cases htask : event.get "task_id" ≠ .null
  · rw [if_pos htask] at hok
    obtain ⟨_, -, hok⟩ := bind_eq_ok.mp hok
    obtain ⟨-, hprevious⟩ := require_bind_eq_ok.mp hok
    exact relabel_sha256 _ hprevious
  · rw [if_neg htask] at hok
    obtain ⟨-, hprevious⟩ := require_bind_eq_ok.mp hok
    exact relabel_sha256 _ hprevious

theorem ledgerId_of_validEvent {event : Json} {u : Unit}
    (hok : LedgerV2.validateV2Event a event = .ok u) :
    requireIdentifier (event.get "ledger_id") "" = .ok () := by
  unfold LedgerV2.validateV2Event at hok
  obtain ⟨_, -, hok⟩ := bind_eq_ok.mp hok
  obtain ⟨-, hok⟩ := require_bind_eq_ok.mp hok
  obtain ⟨_, hledger, -⟩ := bind_eq_ok.mp hok
  exact relabel_identifier _ hledger

/-- The fields of a valid envelope that a PREPARE repeats. -/
theorem fields_of_valid {envelope : Json} (hvalid : validateV2Envelope h a envelope = .ok ()) :
    requireSha256 (envelope.get "event_hash") "" = .ok () ∧
      requireSha256 ((envelope.get "event").get "previous_hash") "" = .ok () ∧
      requireIdentifier ((envelope.get "event").get "ledger_id") "" = .ok () := by
  obtain ⟨p, bytes, rfl, hp⟩ := LedgerV2.validateV2Envelope_eq_ok.mp hvalid
  exact ⟨requireSha256_hexdigest h p.event.encoding "", previousHash_of_validEvent hp.event,
    ledgerId_of_validEvent hp.event⟩

/-- A log position is within the store. -/
theorem requireSha256_positionOf (h : Hasher) (envelopes : List Json) (n : ℕ) :
    requireSha256 (.str (positionOf h envelopes n).logSha256) "" = .ok () :=
  requireSha256_hexdigest h _ ""

/-- **A PREPARE passes the checks of its reader**, where its parts are valid and its encoding is
within the limit. -/
theorem recordRules_prepareRecord {txId previous envelope : Json} {n m : ℕ} {pre post : LogPosition}
    (hnamed : requireIdentifier txId "" = .ok ()) (hn : n < maxJournalEntries)
    (hprevious : requireSha256 previous "" = .ok ())
    (hvalid : validateV2Envelope h a envelope = .ok ())
    (hsequence : (envelope.get "event").get "sequence" = .int (m + 1)) (hm : m < maxStoreEvents)
    (hpre : requireSha256 (.str pre.logSha256) "" = .ok ())
    (hpost : requireSha256 (.str post.logSha256) "" = .ok ())
    (hpostSize : post.logSizeBytes = pre.logSizeBytes + envelope.encoding.length + 1)
    (hroom : post.logSizeBytes ≤ maxStoreBytes)
    (hsize : (prepareRecord h txId (n + 1) previous envelope pre post).encoding.length ≤
      LedgerV2.maxDocumentBytes) :
    RecordRules h a (prepareRecord h txId (n + 1) previous envelope pre post) := by
  obtain ⟨heventHash, hexpected, hledger⟩ := fields_of_valid hvalid
  exact
    { obj := rfl
      schema := .inl ⟨rfl, keys_prepareRecord h txId (n + 1) previous envelope pre post⟩
      identity := ⟨rfl, rfl, rfl⟩
      journalSequence := by
        refine positiveBoundedInt_eq_ok.mpr ⟨(n + 1 : ℕ), rfl, ?_, ?_⟩
        · push_cast
          omega
        · exact_mod_cast hn
      previous := relabel_sha256 _ hprevious
      txId := relabel_identifier _ hnamed
      ledgerId := relabel_identifier _ hledger
      expectedSequence := by
        refine positiveBoundedInt_eq_ok.mpr ⟨m + 1, hsequence, ?_, ?_⟩
        · omega
        · exact_mod_cast hm
      eventHash := relabel_sha256 _ heventHash
      postHash := relabel_sha256 _ hpost
      postSize := by
        refine boundedNonnegativeInt_eq_ok.mpr ⟨post.logSizeBytes, rfl, Int.natCast_nonneg _, ?_⟩
        exact_mod_cast hroom
      ofKind := by
        unfold validateKindFields
        rw [if_pos (get_prepare_kind h txId (n + 1) previous envelope pre post)]
        exact validatePrepare_prepareRecord hvalid hexpected hpre (by omega) hpostSize
      journalHash := requireSha256_hexdigest h _ _
      unsignedSize := by
        rw [unsignedRecord_prepareRecord]
        exact le_trans (length_unsigned_prepare_le h txId (n + 1) previous envelope pre post) hsize
      hash := by
        rw [unsignedRecord_prepareRecord]
        rfl }

/-! ## The checks of a COMMIT -/

/-- A COMMIT is short. -/
theorem length_commitRecord_le {prepare previous : Json} {n : ℕ} (hp : RecordRules h a prepare)
    (hn : n ≤ maxJournalEntries) (hprevious : requireSha256 previous "" = .ok ()) :
    (commitRecord h prepare n previous).encoding.length ≤ 1175 := by
  obtain ⟨m, hm, hmlow, hmhigh⟩ := positiveBoundedInt_eq_ok.mp hp.expectedSequence
  obtain ⟨k, hk, hklow, hkhigh⟩ := boundedNonnegativeInt_eq_ok.mp hp.postSize
  have htx := length_of_identifier hp.txId
  have hledger := length_of_identifier hp.ledgerId
  have hsequence : (Json.int m).encoding.length ≤ 9 :=
    length_of_bounded (by omega) (le_trans hmhigh (by decide))
  have hsize : (Json.int k).encoding.length ≤ 9 := length_of_bounded hklow hkhigh
  have hordinal : (Json.int n).encoding.length ≤ 9 :=
    length_of_bounded (Int.natCast_nonneg _) (by exact_mod_cast le_trans hn (by decide))
  rw [length_commitRecord (relabel_sha256 _ hp.eventHash) (relabel_sha256 _ hp.postHash)
    (relabel_sha256 _ hp.journalHash) hprevious, hm, hk, commitLength]
  omega

/-- **A COMMIT passes the checks of its reader**, where its PREPARE does. -/
theorem recordRules_commitRecord {prepare previous : Json} {n : ℕ} (hp : RecordRules h a prepare)
    (hn : n < maxJournalEntries) (hprevious : requireSha256 previous "" = .ok ()) :
    RecordRules h a (commitRecord h prepare (n + 1) previous) where
  obj := rfl
  schema := .inr ⟨rfl, keys_commitRecord h prepare (n + 1) previous⟩
  identity := ⟨rfl, rfl, rfl⟩
  journalSequence := by
    refine positiveBoundedInt_eq_ok.mpr ⟨(n + 1 : ℕ), rfl, ?_, ?_⟩
    · push_cast
      omega
    · exact_mod_cast hn
  previous := relabel_sha256 _ hprevious
  txId := hp.txId
  ledgerId := hp.ledgerId
  expectedSequence := hp.expectedSequence
  eventHash := hp.eventHash
  postHash := hp.postHash
  postSize := hp.postSize
  ofKind := by
    unfold validateKindFields
    rw [if_neg (by rw [get_commit_kind]; decide)]
    exact relabel_sha256 _ hp.journalHash
  journalHash := requireSha256_hexdigest h _ _
  unsignedSize := by
    rw [unsignedRecord_commitRecord]
    have hshort := length_commitRecord_le (h := h) hp (by omega : n + 1 ≤ maxJournalEntries) hprevious
    have hle := length_unsigned_commit_le h prepare (n + 1) previous
    have hmax : 1175 ≤ LedgerV2.maxDocumentBytes := by decide
    omega
  hash := by
    rw [unsignedRecord_commitRecord]
    rfl

end LedgerStore
