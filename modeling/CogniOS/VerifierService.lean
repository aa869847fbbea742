/-
# The verifier service

`persist_receipt` of the dedicated verifier: an exclusively created receipt file, then the
transition of the journal.  The documents are checked by the verifier protocol, which is a
parameter here: the service uses the identity of the dispatch and the accepted document.

* `Reached` collects the states that calls and crashes can lead to;
* `recovers_iff` says after which crashes `recover_all` and the repeated call succeed.
-/
import CogniOS.JournalRecovery
import CogniOS.Sha256

namespace VerifierService

open FileStore VerifierJournal JournalState

/-- `MAX_RECEIPT_STORE_ENTRIES`. -/
def maxReceiptStoreEntries : ℕ := 4096

/-- `MAX_VERIFIER_DOCUMENT_BYTES`. -/
def maxVerifierDocumentBytes : ℕ := 4 * 1024 * 1024

/-- A `VerifierServiceError`. -/
def error (message : String) : CogniError := ⟨.evidence, message⟩

/-- The name of a receipt file. -/
def receiptName (dispatchEventHash : String) : String := dispatchEventHash ++ ".receipt.json"

/-- `canonical_json_bytes` of the verifier protocol. -/
def canonicalDocumentBytes (document : Json) : Except CogniError (List UInt8) :=
  document.boundedEncoding maxVerifierDocumentBytes
    (error "Verifier document exceeds its byte limit")

/-- `_bounded_receipt_entry_names`. -/
def boundedReceiptEntryNames (d : Directory) : Except CogniError (List String) := do
  require (d.keys.length ≤ maxReceiptStoreEntries)
    (error "Verifier receipt store exceeds its entry limit")
  .ok d.keys

/-- `_persist_exact`; the value says that the file was there. -/
def persistExact (name : String) (encoded : List UInt8) : Action CogniError Bool := do
  let d ← Action.directory
  let names ← boundedReceiptEntryNames d
  require (¬(name ∉ names ∧ maxReceiptStoreEntries ≤ names.length))
    (error "Verifier receipt store exceeds its entry limit")
  match d.lookup name with
  | none => do
      Action.write (.create name encoded)
      pure false
  | some existing => do
      require (existing.length = encoded.length)
        (error "Existing verifier receipt differs or is unsafe")
      require (existing = encoded) (error "Existing verifier receipt differs or is unsafe")
      pure true

/-- The checks of the verifier protocol. -/
structure Protocol where
  /-- The identity in `validate_dispatch(dispatch, now=dispatch["issued_at"])`. -/
  validateDispatch : Json → Except CogniError Identity
  /-- `verify_verification_receipt(receipt, dispatch=request)`. -/
  verifyReceipt : Json → Json → Except CogniError Json

/-- `PersistedVerifierReceipt`. -/
structure PersistedReceipt where
  record : JournalRecord
  path : String
  sha256 : String
  idempotent : Bool

/-- The part of `persist_receipt` before the first write: the record and the receipt bytes. -/
def acceptReceipt (protocol : Protocol) (dispatch receipt : Json) (journal : Directory) :
    Except CogniError (JournalRecord × List UInt8) := do
  let request ← protocol.validateDispatch dispatch
  let document ← (protocol.verifyReceipt receipt dispatch).mapError fun _ =>
    error "Verifier receipt verification failed"
  let record ← (loadExisting journal request.dispatchEventHash).mapError fun _ =>
    error "Verifier receipt has no claimed dispatch"
  require ((record.taskId, record.attempt, record.actor, record.runId) =
    (request.taskId, request.attempt, request.actor, request.runId))
    (error "Verifier receipt and journal identity disagree")
  require (record.state ∈ [cleanupAcked, receiptPersisted])
    (error "Verifier receipt may persist only after cleanup acknowledgement")
  let encoded ← canonicalDocumentBytes document
  .ok (record, encoded)

/-- The part after the receipt file: the transition that may still be pending. -/
def advance (env : Env) (record : JournalRecord) : Action CogniError JournalRecord :=
  if record.state = cleanupAcked then
    transition env record.dispatchEventHash receiptPersisted (some record.revision) none none
  else pure record

/-- The journal and the receipt store. -/
structure Service where
  journal : Directory
  receipts : Directory

/-- The writes of a call, in the receipt store and then in the journal. -/
structure Effects where
  receipts : List Write
  journal : List Write

/-- `persist_receipt`. -/
def persistReceipt (protocol : Protocol) (env : Env) (dispatch receipt : Json) (s : Service) :
    Effects × Except CogniError PersistedReceipt :=
  match acceptReceipt protocol dispatch receipt s.journal with
  | .error e => (⟨[], []⟩, .error e)
  | .ok (record, encoded) =>
      let name := receiptName record.dispatchEventHash
      match persistExact name encoded s.receipts with
      | (ws, .error e) => (⟨ws, []⟩, .error e)
      | (ws, .ok idempotent) =>
          match advance env record s.journal with
          | (ws', .error _) =>
              (⟨ws, ws'⟩, .error (error "Verifier receipt journal transition failed"))
          | (ws', .ok updated) =>
              (⟨ws, ws'⟩, .ok
                { record := updated
                  path := name
                  sha256 := Hex.ofBytes (Sha256.digest encoded)
                  idempotent })

/-! ## Crashes of the service -/

/-- The state that completed writes leave. -/
def Effects.apply (e : Effects) (s : Service) : Service :=
  ⟨applyAll e.journal s.journal, applyAll e.receipts s.receipts⟩

/-- Where a crash comes. -/
inductive ServicePoint
  | receipts (p : Point)
  | journal (p : Point)

/-- The state that a crash leaves. -/
def Effects.crash (e : Effects) (s : Service) : ServicePoint → Service
  | .receipts p => ⟨s.journal, FileStore.crash e.receipts s.receipts p⟩
  | .journal p => ⟨FileStore.crash e.journal s.journal p, applyAll e.receipts s.receipts⟩

/-- The crash does not come inside the creation of a record, a claim marker or a receipt. -/
def Effects.Whole (e : Effects) : ServicePoint → Prop
  | .receipts p => FileStore.Whole e.receipts p
  | .journal p => FileStore.Whole e.journal p

/-- The calls that a crash interrupts. -/
inductive ServiceCall
  | claimDispatch (i : Identity)
  | persistReceipt (dispatch receipt : Json)

variable (protocol : Protocol)

/-- The writes of a call. -/
def ServiceCall.effects (env : Env) (s : Service) : ServiceCall → Effects
  | claimDispatch i => ⟨[], (VerifierJournal.claimDispatch env i s.journal).1⟩
  | persistReceipt dispatch receipt =>
      (VerifierService.persistReceipt protocol env dispatch receipt s).1

/-- The call returns, if nothing interrupts it. -/
def ServiceCall.Returns (env : Env) (s : Service) : ServiceCall → Prop
  | claimDispatch i => ∃ claim, (VerifierJournal.claimDispatch env i s.journal).2 = .ok claim
  | persistReceipt dispatch receipt =>
      ∃ result, (VerifierService.persistReceipt protocol env dispatch receipt s).2 = .ok result

/-- The states of the service: its calls and the other calls of the journal, each complete or
stopped by a crash that leaves no torn file. -/
inductive Reached : Service → Prop
  | start : Reached ⟨∅, ∅⟩
  | journal {s : Service} (hs : Reached s) (env : Env) (c : Call) :
      Reached ⟨applyAll (c.perform env s.journal).1 s.journal, s.receipts⟩
  | journalCrash {s : Service} (hs : Reached s) (env : Env) (c : Call) (p : Point)
      (hp : FileStore.Whole (c.perform env s.journal).1 p) :
      Reached ⟨FileStore.crash (c.perform env s.journal).1 s.journal p, s.receipts⟩
  | service {s : Service} (hs : Reached s) (env : Env) (c : ServiceCall) :
      Reached ((c.effects protocol env s).apply s)
  | serviceCrash {s : Service} (hs : Reached s) (env : Env) (c : ServiceCall) (p : ServicePoint)
      (hp : (c.effects protocol env s).Whole p) :
      Reached ((c.effects protocol env s).crash s p)

/-- After a restart `recover_all` succeeds; then a claim of the identity returns a record, and a
repeated receipt ends in `RECEIPT_PERSISTED` with exactly its bytes in the receipt store. -/
def Recovers (env₁ env₂ : Env) (call : ServiceCall) (s : Service) : Prop :=
  (∃ records, (recoverAll env₁ s.journal).2 = .ok records) ∧
    let journal := applyAll (recoverAll env₁ s.journal).1 s.journal
    match call with
    | .claimDispatch i => ∃ claim, (claimDispatch env₂ i journal).2 = .ok claim
    | .persistReceipt dispatch receipt =>
        ∃ request document, protocol.validateDispatch dispatch = .ok request ∧
          protocol.verifyReceipt receipt dispatch = .ok document ∧
          (∃ claim, (claimDispatch env₂ request journal).2 = .ok claim) ∧
          ∃ result, (persistReceipt protocol env₂ dispatch receipt ⟨journal, s.receipts⟩).2 =
              .ok result ∧
            let after := (persistReceipt protocol env₂ dispatch receipt
              ⟨journal, s.receipts⟩).1.apply ⟨journal, s.receipts⟩
            result.record.state = receiptPersisted ∧
              load after.journal request.dispatchEventHash = .ok (some result.record) ∧
              after.receipts.lookup (receiptName request.dispatchEventHash) =
                some document.encoding

/-! ## The receipt file -/

/-- The receipt store takes the file: it is new, or there already with its bytes. -/
def Accepts (name : String) (encoded : List UInt8) (d : Directory) : Prop :=
  d.keys.length ≤ maxReceiptStoreEntries ∧
    (d.lookup name = none ∧ d.keys.length < maxReceiptStoreEntries ∨ d.lookup name = some encoded)

theorem boundedReceiptEntryNames_eq_ok {d : Directory} {names : List String} :
    boundedReceiptEntryNames d = .ok names ↔
      d.keys.length ≤ maxReceiptStoreEntries ∧ names = d.keys := by
  unfold boundedReceiptEntryNames
  constructor
  · intro hok
    obtain ⟨hle, hok⟩ := require_bind_eq_ok.mp hok
    exact ⟨hle, (Except.ok.inj hok).symm⟩
  · rintro ⟨hle, rfl⟩
    exact require_bind_eq_ok.mpr ⟨hle, rfl⟩

/-- A receipt that was taken is the only write, or was there. -/
theorem persistExact_eq_ok {name : String} {encoded : List UInt8} {d : Directory} {b : Bool}
    (h : (persistExact name encoded d).2 = .ok b) : Accepts name encoded d ∧
      (d.lookup name = none ∧ (persistExact name encoded d).1 = [.create name encoded] ∨
        d.lookup name = some encoded ∧ (persistExact name encoded d).1 = []) := by
  unfold persistExact at h ⊢
  obtain ⟨d₁, hd₁, h, hwrites⟩ := Action.bind_eq_ok h
  obtain rfl : d = d₁ := Except.ok.inj hd₁
  obtain ⟨names, hnames, h, heq⟩ := Action.lift_bind_eq_ok h
  obtain ⟨hle, rfl⟩ := boundedReceiptEntryNames_eq_ok.mp hnames
  obtain ⟨u, hroom, h, heq'⟩ := Action.lift_bind_eq_ok h
  have hroom := require_eq_ok.mp hroom
  have hsame := hwrites.trans (congrArg Prod.fst (heq.trans heq'))
  cases hfile : d.lookup name with
  | none =>
    have hnew : name ∉ d.keys := fun hmem => mem_keys_iff.mp hmem hfile
    refine ⟨⟨hle, .inl ⟨hfile, by by_contra hfull; exact hroom ⟨hnew, by omega⟩⟩⟩,
      .inl ⟨rfl, hsame.trans ?_⟩⟩
    rw [hfile]
    rfl
  | some existing =>
    rw [hfile] at h hsame
    obtain ⟨u, -, h, heq''⟩ := Action.lift_bind_eq_ok h
    obtain ⟨u, hexact, h, heq'''⟩ := Action.lift_bind_eq_ok h
    obtain rfl := require_eq_ok.mp hexact
    exact ⟨⟨hle, .inr hfile⟩, .inr ⟨rfl, hsame.trans (congrArg Prod.fst (heq''.trans heq'''))⟩⟩

theorem persistExact_returns {name : String} {encoded : List UInt8} {d : Directory}
    (h : Accepts name encoded d) : ∃ b, (persistExact name encoded d).2 = .ok b ∧
      (applyAll (persistExact name encoded d).1 d).lookup name = some encoded := by
  obtain ⟨hle, hfile⟩ := h
  unfold persistExact
  refine Returns.bind (P := fun d' => d' = d) (Q := fun d₁ d' => d₁ = d ∧ d' = d)
    (R := fun _ d' => d'.lookup name = some encoded)
    (Returns.directory fun d' hd' => ⟨hd', hd'⟩) (fun d₁ => ?_) d rfl
  refine Returns.bind (Q := fun names d' => names = d.keys ∧ d₁ = d ∧ d' = d) (Returns.lift ?_)
    fun names => ?_
  · rintro d' ⟨rfl, rfl⟩
    exact ⟨_, boundedReceiptEntryNames_eq_ok.mpr ⟨hle, rfl⟩, rfl, rfl, rfl⟩
  refine Returns.bind (Q := fun _ d' => d₁ = d ∧ d' = d) (Returns.lift ?_) fun _ => ?_
  · rintro d' ⟨rfl, rfl, rfl⟩
    refine ⟨(), require_eq_ok.mpr ?_, rfl, rfl⟩
    rintro ⟨hnew, hfull⟩
    rcases hfile with ⟨-, hroom⟩ | hthere
    · omega
    · exact hnew (mem_keys_iff.mpr (by rw [hthere]; exact Option.some_ne_none _))
  rintro d' ⟨rfl, rfl⟩
  rcases hfile with ⟨hnone, -⟩ | hthere
  · rw [hnone]
    refine ⟨false, rfl, ?_⟩
    show (Write.apply (.create name encoded) d').lookup name = some encoded
    rw [Write.lookup_apply]
    exact if_pos rfl
  · rw [hthere]
    refine Returns.bind (P := fun d₂ => d₂ = d') (Q := fun _ d₂ => d₂ = d')
      (R := fun _ d₂ => d₂.lookup name = some encoded)
      (Returns.lift fun d₂ hd₂ => ⟨(), require_eq_ok.mpr rfl, hd₂⟩) (fun _ => ?_) d' rfl
    refine Returns.bind (Q := fun _ d₂ => d₂ = d')
      (Returns.lift fun d₂ hd₂ => ⟨(), require_eq_ok.mpr rfl, hd₂⟩) fun _ => Returns.pure ?_
    rintro d₂ rfl
    exact hthere

/-- A torn receipt is refused. -/
theorem not_accepts_torn {name : String} {encoded : List UInt8} {bytes : ℕ} {d : Directory}
    (hbytes : bytes < encoded.length) (hfile : d.lookup name = some (encoded.take bytes)) :
    ¬Accepts name encoded d := by
  rintro ⟨-, ⟨hnone, -⟩ | hsome⟩
  · rw [hfile] at hnone
    cases hnone
  · have hlen := congrArg List.length (Option.some.inj (hfile.symm.trans hsome))
    rw [List.length_take] at hlen
    omega

/-! ## The calls -/

section Protocol

variable {protocol : Protocol}

/-- What the checks of a receipt have found. -/
structure Accepted (protocol : Protocol) (dispatch receipt : Json) (journal : Directory)
    (record : JournalRecord) (encoded : List UInt8) : Prop where
  request : protocol.validateDispatch dispatch = .ok record.identity
  document : ∃ document, protocol.verifyReceipt receipt dispatch = .ok document ∧
    canonicalDocumentBytes document = .ok encoded
  loaded : load journal record.dispatchEventHash = .ok (some record)
  state : record.state = cleanupAcked ∨ record.state = receiptPersisted

theorem mapError_eq_ok {α : Type} {x : Except CogniError α} {f : CogniError → CogniError} {a : α} :
    x.mapError f = .ok a ↔ x = .ok a := by
  cases x with
  | error e => exact ⟨fun h => (by cases h), fun h => (by cases h)⟩
  | ok b => exact Iff.rfl

theorem acceptReceipt_eq_ok {dispatch receipt : Json} {journal : Directory}
    {record : JournalRecord} {encoded : List UInt8} :
    acceptReceipt protocol dispatch receipt journal = .ok (record, encoded) ↔
      Accepted protocol dispatch receipt journal record encoded := by
  unfold acceptReceipt
  constructor
  · intro hok
    obtain ⟨request, hrequest, hok⟩ := bind_eq_ok.mp hok
    obtain ⟨document, hdocument, hok⟩ := bind_eq_ok.mp hok
    obtain ⟨record', hload, hok⟩ := bind_eq_ok.mp hok
    obtain ⟨hsame, hok⟩ := require_bind_eq_ok.mp hok
    obtain ⟨hstate, hok⟩ := require_bind_eq_ok.mp hok
    obtain ⟨bytes, hbytes, hok⟩ := bind_eq_ok.mp hok
    obtain ⟨rfl, rfl⟩ := Prod.mk.inj (Except.ok.inj hok)
    have hload := loadExisting_eq_ok.mp (mapError_eq_ok.mp hload)
    have hhash := (rules_of_load hload).2
    have hidentity : record'.identity = request := by
      obtain ⟨hash, taskId, attempt, actor, runId⟩ := request
      simp only [Prod.mk.injEq] at hsame
      obtain ⟨rfl, rfl, rfl, rfl⟩ := hsame
      obtain rfl := hhash
      rfl
    subst hidentity
    refine ⟨hrequest, ⟨document, mapError_eq_ok.mp hdocument, hbytes⟩, hload, ?_⟩
    simpa using hstate
  · rintro ⟨hrequest, ⟨document, hdocument, hbytes⟩, hload, hstate⟩
    exact bind_eq_ok.mpr ⟨_, hrequest, bind_eq_ok.mpr ⟨_, mapError_eq_ok.mpr hdocument,
      bind_eq_ok.mpr ⟨_, mapError_eq_ok.mpr (loadExisting_eq_ok.mpr hload),
      require_bind_eq_ok.mpr ⟨rfl, require_bind_eq_ok.mpr ⟨by simpa using hstate,
      bind_eq_ok.mpr ⟨_, hbytes, rfl⟩⟩⟩⟩⟩⟩

/-- The transition of the receipt, where it returned. -/
theorem advance_eq_ok {env : Env} {record updated : JournalRecord} {d : Directory}
    (hload : load d record.dispatchEventHash = .ok (some record))
    (h : (advance env record d).2 = .ok updated) :
    (advance env record d).1 = [] ∧ updated = record ∧ record.state ≠ cleanupAcked ∨
      record.state = cleanupAcked ∧ updated.state = receiptPersisted ∧
        updated.identity = record.identity ∧ updated.Valid ∧
        updated.bytes.length ≤ maxRecordBytes ∧
        ∃ uuid, (advance env record d).1 =
          [.replace (temporaryName (recordName updated.dispatchEventHash) uuid)
            (recordName updated.dispatchEventHash) updated.bytes] := by
  unfold advance at h ⊢
  by_cases hstate : record.state = cleanupAcked
  · rw [if_pos hstate] at h ⊢
    obtain ⟨current, hcurrent, hnext, hlen, hwrites⟩ := transition_eq_ok h
    rw [hload] at hcurrent
    obtain rfl : record = current := Option.some.inj (Except.ok.inj hcurrent)
    obtain ⟨hvalid, hnew, hidentity, -, -⟩ := nextRecord_eq_ok hnext
    exact .inr ⟨hstate, hnew, hidentity, hvalid, hlen, _, hwrites⟩
  · rw [if_neg hstate] at h ⊢
    exact .inl ⟨rfl, (Except.ok.inj h).symm, hstate⟩

theorem advance_returns {env : Env} (henv : env.Valid) {record : JournalRecord} {d : Directory}
    (hd : Intact d) (hload : load d record.dispatchEventHash = .ok (some record))
    (hstate : record.state = cleanupAcked ∨ record.state = receiptPersisted) :
    ∃ updated, (advance env record d).2 = .ok updated ∧ updated.state = receiptPersisted ∧
      load (applyAll (advance env record d).1 d) record.dispatchEventHash =
        .ok (some updated) := by
  unfold advance
  by_cases hpending : record.state = cleanupAcked
  · rw [if_pos hpending]
    have hready : Ready record receiptPersisted :=
      ⟨by rw [hpending]; decide, by decide, .inl rfl⟩
    exact returns_transition henv hready d ⟨hd, hload⟩
  · rw [if_neg hpending]
    exact ⟨record, rfl, hstate.resolve_left hpending, hload⟩

/-- The result of a call whose three parts return. -/
theorem persistReceipt_eq {env : Env} {dispatch receipt : Json} {s : Service}
    {record updated : JournalRecord} {encoded : List UInt8} {b : Bool}
    (haccepted : Accepted protocol dispatch receipt s.journal record encoded)
    (hexact : (persistExact (receiptName record.dispatchEventHash) encoded s.receipts).2 = .ok b)
    (hadvance : (advance env record s.journal).2 = .ok updated) :
    persistReceipt protocol env dispatch receipt s =
      (⟨(persistExact (receiptName record.dispatchEventHash) encoded s.receipts).1,
        (advance env record s.journal).1⟩,
        .ok
          { record := updated
            path := receiptName record.dispatchEventHash
            sha256 := Hex.ofBytes (Sha256.digest encoded)
            idempotent := b }) := by
  have hexact' : persistExact (receiptName record.dispatchEventHash) encoded s.receipts =
      ((persistExact (receiptName record.dispatchEventHash) encoded s.receipts).1, .ok b) :=
    Prod.ext rfl hexact
  have hadvance' : advance env record s.journal = ((advance env record s.journal).1, .ok updated) :=
    Prod.ext rfl hadvance
  unfold persistReceipt
  rw [acceptReceipt_eq_ok.mpr haccepted]
  dsimp only
  rw [hexact']
  dsimp only
  rw [hadvance']

/-- The parts of a call that returned. -/
theorem persistReceipt_eq_ok {env : Env} {dispatch receipt : Json} {s : Service}
    {result : PersistedReceipt}
    (h : (persistReceipt protocol env dispatch receipt s).2 = .ok result) :
    ∃ record encoded b updated,
      Accepted protocol dispatch receipt s.journal record encoded ∧
      (persistExact (receiptName record.dispatchEventHash) encoded s.receipts).2 = .ok b ∧
      (advance env record s.journal).2 = .ok updated := by
  unfold persistReceipt at h
  cases haccept : acceptReceipt protocol dispatch receipt s.journal with
  | error e => rw [haccept] at h; cases h
  | ok accepted =>
    obtain ⟨record, encoded⟩ := accepted
    rw [haccept] at h
    dsimp only at h
    rcases hexact : persistExact (receiptName record.dispatchEventHash) encoded s.receipts with
      ⟨ws, e | b⟩
    · rw [hexact] at h; cases h
    · rw [hexact] at h
      dsimp only at h
      rcases hadvance : advance env record s.journal with ⟨ws', e | updated⟩
      · rw [hadvance] at h; cases h
      · exact ⟨record, encoded, b, updated, acceptReceipt_eq_ok.mp haccept,
          congrArg Prod.snd hexact, congrArg Prod.snd hadvance⟩

/-! ## Reached states -/

/-- The writes of the receipt store. -/
def ReceiptWrite (d : Directory) (w : Write) : Prop :=
  ∃ name content, w = .create name content ∧ d.lookup name = none ∧
    d.keys.length < maxReceiptStoreEntries

theorem receipts_persistExact (name : String) (encoded : List UInt8) :
    Triple ReceiptWrite (fun _ => True) (persistExact name encoded) fun _ _ => True := by
  unfold persistExact
  refine Triple.bind (Q := fun d₁ d => d₁ = d) (Triple.directory fun d _ => rfl) fun d₁ => ?_
  refine Triple.bind (Q := fun names d => d₁ = d ∧ names = d.keys) (Triple.lift ?_)
    fun names => ?_
  · rintro d names rfl hok
    exact ⟨rfl, (boundedReceiptEntryNames_eq_ok.mp hok).2⟩
  refine Triple.bind (Q := fun _ d => d₁ = d ∧
    ¬(name ∉ d.keys ∧ maxReceiptStoreEntries ≤ d.keys.length)) (Triple.lift ?_) fun _ => ?_
  · rintro d u ⟨rfl, rfl⟩ hok
    exact ⟨rfl, require_eq_ok.mp hok⟩
  cases hfile : d₁.lookup name with
  | none =>
    refine Triple.bind (Q := fun _ _ => True) (Triple.write ?_) fun _ =>
      Triple.pure fun _ _ => trivial
    rintro d ⟨rfl, hroom⟩
    have hnew : name ∉ d₁.keys := fun hmem => mem_keys_iff.mp hmem hfile
    exact ⟨⟨name, encoded, rfl, hfile, by by_contra hfull; exact hroom ⟨hnew, by omega⟩⟩, trivial⟩
  | some existing =>
    refine Triple.bind (Q := fun _ _ => True) (Triple.lift fun _ _ _ _ => trivial) fun _ => ?_
    exact Triple.bind (Q := fun _ _ => True) (Triple.lift fun _ _ _ _ => trivial) fun _ =>
      Triple.pure fun _ _ => trivial

theorem length_keys_apply {d : Directory} {w : Write}
    (hd : d.keys.length ≤ maxReceiptStoreEntries) (hw : ReceiptWrite d w) :
    (w.apply d).keys.length ≤ maxReceiptStoreEntries := by
  obtain ⟨name, content, rfl, hnew, hroom⟩ := hw
  show (d.insert name content).keys.length ≤ maxReceiptStoreEntries
  rw [keys_insert_new hnew, List.length_cons]
  exact hroom

/-- A call makes the writes of the journal and of the receipt store. -/
theorem steps_effects (protocol : Protocol) (c : ServiceCall) (env : Env) (s : Service) :
    Steps GoodWrite s.journal (c.effects protocol env s).journal ∧
      Steps ReceiptWrite s.receipts (c.effects protocol env s).receipts := by
  cases c with
  | claimDispatch i => exact ⟨(journals_claimDispatch env i _ _ rfl).1, trivial⟩
  | persistReceipt dispatch receipt =>
    unfold ServiceCall.effects persistReceipt
    dsimp only
    cases haccept : acceptReceipt protocol dispatch receipt s.journal with
    | error e => exact ⟨trivial, trivial⟩
    | ok accepted =>
      obtain ⟨record, encoded⟩ := accepted
      dsimp only
      have hreceipts := (receipts_persistExact (receiptName record.dispatchEventHash) encoded
        s.receipts trivial).1
      have hjournal : Steps GoodWrite s.journal (advance env record s.journal).1 := by
        unfold advance
        split
        · exact (journals_transition _ _ _ _ _ _ s.journal trivial).1
        · trivial
      rcases hexact : persistExact (receiptName record.dispatchEventHash) encoded s.receipts with
        ⟨ws, e | b⟩
      · rw [hexact] at hreceipts
        exact ⟨trivial, hreceipts⟩
      · rw [hexact] at hreceipts
        dsimp only
        rcases hadvance : advance env record s.journal with ⟨ws', e | updated⟩
        · rw [hadvance] at hjournal
          exact ⟨hjournal, hreceipts⟩
        · rw [hadvance] at hjournal
          exact ⟨hjournal, hreceipts⟩

/-- What holds in every state that is reached. -/
structure ServiceInv (s : Service) : Prop where
  journal : Intact s.journal
  receipts : s.receipts.keys.length ≤ maxReceiptStoreEntries

theorem ServiceInv.apply {s : Service} (hs : ServiceInv s) {e : Effects}
    (hjournal : Steps GoodWrite s.journal e.journal)
    (hreceipts : Steps ReceiptWrite s.receipts e.receipts) : ServiceInv (e.apply s) :=
  ⟨hjournal.invariant (fun _ _ hd hw => hd.apply hw) hs.journal,
    hreceipts.invariant (I := fun d => d.keys.length ≤ maxReceiptStoreEntries)
      (fun _ _ hd hw => length_keys_apply hd hw) hs.receipts⟩

theorem ServiceInv.crash {s : Service} (hs : ServiceInv s) {e : Effects}
    (hjournal : Steps GoodWrite s.journal e.journal)
    (hreceipts : Steps ReceiptWrite s.receipts e.receipts) {p : ServicePoint} (hp : e.Whole p) :
    ServiceInv (e.crash s p) := by
  cases p with
  | journal p => exact ⟨intact_crash hs.journal hjournal hp, (hs.apply hjournal hreceipts).receipts⟩
  | receipts p =>
    refine ⟨hs.journal, ?_⟩
    obtain ⟨k, hcrash | ⟨temporary, name, content, bytes, hw, -⟩⟩ :=
      crash_of_whole (d := s.receipts) hp
    · show (FileStore.crash e.receipts s.receipts p).keys.length ≤ maxReceiptStoreEntries
      rw [hcrash]
      exact (hreceipts.take k).invariant (I := fun d => d.keys.length ≤ maxReceiptStoreEntries)
        (fun _ _ hd hw => length_keys_apply hd hw) hs.receipts
    · -- Receipts are never replaced.
      obtain ⟨name', content', hcreate, -⟩ := hreceipts.get hw
      cases hcreate

theorem serviceInv_of_reached {s : Service} (hs : Reached protocol s) : ServiceInv s := by
  induction hs with
  | start => exact ⟨intact_empty, Nat.zero_le _⟩
  | @journal s hs env c ih =>
    have hsteps := (journals_perform env c s.journal s.journal rfl).1
    exact ⟨hsteps.invariant (fun _ _ hd hw => hd.apply hw) ih.journal, ih.receipts⟩
  | journalCrash hs env c p hp ih =>
    exact ⟨intact_crash ih.journal (journals_perform env c _ _ rfl).1 hp, ih.receipts⟩
  | service hs env c ih =>
    obtain ⟨hjournal, hreceipts⟩ := steps_effects protocol c env _
    exact ih.apply hjournal hreceipts
  | serviceCrash hs env c p hp ih =>
    obtain ⟨hjournal, hreceipts⟩ := steps_effects protocol c env _
    exact ih.crash hjournal hreceipts hp

/-! ## Recovery -/

/-- A valid record has a valid identity. -/
theorem valid_identity {r : JournalRecord} (hr : RecordRules r) :
    (requestedRecord r.identity 0).Valid :=
  valid_iff_rules.mpr {
    hash := hr.hash
    taskId := hr.taskId
    actor := hr.actor
    runId := hr.runId
    attempt := hr.attempt
    revision := by show (0 : ℤ) ≤ 0 ∧ (0 : ℤ) ≤ maxNumber; decide
    createdAtNs := by show (0 : ℤ) ≤ 0 ∧ (0 : ℤ) ≤ maxNumber; decide
    updatedAtNs := by show (0 : ℤ) ≤ 0 ∧ (0 : ℤ) ≤ maxNumber; decide
    metadata := require_bind_eq_ok.mpr ⟨le_refl _, require_bind_eq_ok.mpr
      ⟨fun h => h.2 rfl, require_eq_ok.mpr fun h => absurd h.1 (lt_irrefl _)⟩⟩
    failureCode := fun code hmem => by cases hmem
    quarantineReason := fun reason hmem => by cases hmem
    failure := rfl }

/-- What `recover_all` makes of an intact journal. -/
theorem recoverAll_intact {env : Env} (henv : env.Valid) {d : Directory} (hd : Intact d)
    (hscan : d.keys.length ≤ maxDirectoryEntriesScanned) :
    (∃ records, (recoverAll env d).2 = .ok records) ∧
      Intact (applyAll (recoverAll env d).1 d) ∧ Keeps d (applyAll (recoverAll env d).1 d) ∧
        Unmoved d (applyAll (recoverAll env d).1 d) := by
  obtain ⟨records, hok, -⟩ := returns_recoverAll henv d ⟨hd, hscan⟩
  have hsteps := (recovers_recoverAll env d trivial).1
  have hgood : Steps GoodWrite d (recoverAll env d).1 := hsteps.mono fun _ _ h => h.good
  exact ⟨⟨records, hok⟩, hgood.invariant (fun _ _ hd hw => hd.apply hw) hd,
    hgood.invariant (fun _ _ hd hw => hd.apply hw) (Keeps.refl d),
    hsteps.invariant (fun _ _ hd hw => hd.apply hw) (Unmoved.refl d)⟩

theorem scan_of_recoverAll {env : Env} {d : Directory} {records : List JournalRecord}
    (hok : (recoverAll env d).2 = .ok records) : ∃ listed, listRecords d = .ok listed := by
  unfold recoverAll at hok
  obtain ⟨d₁, hd₁, hok, -⟩ := Action.bind_eq_ok hok
  obtain rfl : d = d₁ := Except.ok.inj hd₁
  obtain ⟨listed, hlisted, -, -⟩ := Action.lift_bind_eq_ok hok
  exact ⟨listed, hlisted⟩

/-- **A claim is recovered.** -/
theorem claim_recovers {env₁ env₂ : Env} (h₁ : env₁.Valid) (h₂ : env₂.Valid) {d : Directory}
    {i : Identity} (hd : Intact d) (hscan : d.keys.length ≤ maxDirectoryEntriesScanned)
    (hclaim : Claimable d i) :
    ∃ claim, (claimDispatch env₂ i (applyAll (recoverAll env₁ d).1 d)).2 = .ok claim := by
  obtain ⟨-, hintact, hkeeps, hunmoved⟩ := recoverAll_intact h₁ hd hscan
  obtain ⟨claim, hok, -⟩ := returns_claimDispatch h₂ i _
    ⟨hintact, hclaim.recovered hkeeps hunmoved⟩
  exact ⟨claim, hok⟩

/-- **A claim is not recovered from a torn file.** -/
theorem not_claim_recovers_torn {env env₁ env₂ : Env} {d : Directory} {i : Identity} {p : Point}
    (hp : ¬FileStore.Whole (claimDispatch env i d).1 p)
    {d' : Directory} (hd' : d' = FileStore.crash (claimDispatch env i d).1 d p)
    {records : List JournalRecord} (hrecover : (recoverAll env₁ d').2 = .ok records)
    {claim : JournalClaim} :
    (claimDispatch env₂ i (applyAll (recoverAll env₁ d').1 d')).2 ≠ .ok claim := by
  intro hok
  obtain ⟨k, bytes, name, content, hw, hbytes, hcrash⟩ := crash_of_not_whole (d := d) hp
  rw [← hd'] at hcrash
  have hgood := (journals_claimDispatch env i d d rfl).1.get hw
  have hname := (creates_claimDispatch env i d trivial).1.get hw name content rfl
  have hfile : d'.lookup name = some (content.take bytes) := by
    rw [hcrash, AList.lookup_insert]
  cases hgood with
  | first r hstate hrevision hvalid hlen hnone hcount =>
    obtain ⟨listed, hlisted⟩ := scan_of_recoverAll hrecover
    exact not_listRecords_of_torn (rules_of_valid hvalid) hbytes hfile listed hlisted
  | marker r now hnow hlen hload hnone =>
    obtain hsame | hsame := hname
    · exact recordName_ne_claimName _ _ hsame.symm
    · -- The recovery does not touch the marker, and the claim reads it.
      have hunmoved := (recovers_recoverAll env₁ d' trivial).1.invariant
        (fun _ _ hd hw => hd.apply hw) (Unmoved.refl d')
      obtain ⟨stored, hread⟩ := readMarker_of_claimDispatch hok
      unfold readMarker at hread
      rw [hunmoved.claims, ← hsame, hfile] at hread
      obtain ⟨e, herror⟩ := readJsonExact_cut claimKeys hbytes
      have hread' : (readJsonExact ((fileBytes (markerDict r.identity now)).take bytes)
          claimKeys).map some = .ok stored := hread
      rw [herror] at hread'
      cases hread'

theorem not_recovers_torn_claim {env env₁ env₂ : Env} {s : Service} {i : Identity}
    {p : ServicePoint} (hp : ¬(ServiceCall.effects protocol env s (.claimDispatch i)).Whole p) :
    ¬Recovers protocol env₁ env₂ (.claimDispatch i)
      ((ServiceCall.effects protocol env s (.claimDispatch i)).crash s p) := by
  rintro ⟨⟨records, hrecords⟩, claim, hclaim⟩
  cases p with
  | receipts p =>
    obtain ⟨k, bytes, name, content, hw, -⟩ := crash_of_not_whole (d := s.receipts) hp
    cases hw
  | journal p => exact not_claim_recovers_torn hp rfl hrecords hclaim

/-- The receipt store takes the receipt again, however many of the writes were made. -/
theorem accepts_take {name : String} {encoded : List UInt8} {d : Directory} {b : Bool}
    (h : (persistExact name encoded d).2 = .ok b) (k : ℕ) :
    Accepts name encoded (applyAll ((persistExact name encoded d).1.take k) d) := by
  obtain ⟨haccepts, ⟨hnone, hws⟩ | ⟨-, hws⟩⟩ := persistExact_eq_ok h
  · rw [hws]
    cases k with
    | zero => exact haccepts
    | succ k =>
      rw [List.take_succ_cons, List.take_nil, applyAll_cons, applyAll_nil]
      refine ⟨length_keys_apply haccepts.1 ⟨name, encoded, rfl, hnone, ?_⟩, .inr ?_⟩
      · obtain ⟨-, ⟨-, hroom⟩ | hsome⟩ := haccepts
        · exact hroom
        · rw [hnone] at hsome
          cases hsome
      · rw [Write.lookup_apply]
        exact if_pos rfl
  · rw [hws, List.take_nil, applyAll_nil]
    exact haccepts

/-- The record of the receipt waits for its transition or has made it. -/
def Awaits (d : Directory) (i : Identity) : Prop :=
  ∃ r, load d i.dispatchEventHash = .ok (some r) ∧ r.identity = i ∧
    (r.state = cleanupAcked ∨ r.state = receiptPersisted)

theorem Awaits.of_lookup {d d' : Directory} {i : Identity} (h : Awaits d i)
    (hsame : d'.lookup (recordName i.dispatchEventHash) =
      d.lookup (recordName i.dispatchEventHash)) : Awaits d' i := by
  obtain ⟨r, hload, hr⟩ := h
  exact ⟨r, (load_of_lookup hsame).trans hload, hr⟩

theorem Awaits.recovered {d d' : Directory} {i : Identity} (h : Awaits d i) (hu : Unmoved d d') :
    Awaits d' i := by
  obtain ⟨r, hload, hsame, hstate⟩ := h
  refine ⟨r, hu.records _ r hload ?_, hsame, hstate⟩
  rcases hstate with hstate | hstate
  · rw [hstate]; rfl
  · rw [hstate]; rfl

theorem awaits_take {env : Env} {record updated : JournalRecord} {d : Directory}
    (hload : load d record.dispatchEventHash = .ok (some record))
    (hstate : record.state = cleanupAcked ∨ record.state = receiptPersisted)
    (h : (advance env record d).2 = .ok updated) (k : ℕ) :
    Awaits (applyAll ((advance env record d).1.take k) d) record.identity := by
  have hbefore : Awaits d record.identity := ⟨record, hload, rfl, hstate⟩
  rcases advance_eq_ok hload h with ⟨hws, -⟩ | ⟨-, hnew, hidentity, hvalid, hlen, uuid, hws⟩
  · rw [hws, List.take_nil]
    exact hbefore
  · rw [hws]
    cases k with
    | zero => exact hbefore
    | succ k =>
      have hhash : updated.dispatchEventHash = record.dispatchEventHash :=
        congrArg Identity.dispatchEventHash hidentity
      rw [List.take_succ_cons, List.take_nil, applyAll_cons, applyAll_nil]
      refine ⟨updated, ?_, hidentity, .inr hnew⟩
      show load _ record.dispatchEventHash = _
      rw [← hhash]
      exact load_apply_record rfl rfl hvalid hlen

theorem awaits_crash {env : Env} {record updated : JournalRecord} {s : Service}
    {receipts : List Write}
    (hload : load s.journal record.dispatchEventHash = .ok (some record))
    (hstate : record.state = cleanupAcked ∨ record.state = receiptPersisted)
    (h : (advance env record s.journal).2 = .ok updated)
    (hsteps : Steps GoodWrite s.journal (advance env record s.journal).1) {p : ServicePoint}
    (hp : Effects.Whole ⟨receipts, (advance env record s.journal).1⟩ p) :
    Awaits (Effects.crash ⟨receipts, (advance env record s.journal).1⟩ s p).journal
      record.identity := by
  cases p with
  | receipts p => exact awaits_take hload hstate h 0
  | journal p =>
    obtain ⟨k, hcrash | ⟨-, name, uuid, content, hcrash⟩⟩ := crash_cases hsteps hp
    · show Awaits (FileStore.crash _ s.journal p) _
      rw [hcrash]
      exact awaits_take hload hstate h k
    · show Awaits (FileStore.crash _ s.journal p) _
      rw [hcrash]
      exact (awaits_take hload hstate h k).of_lookup
        (AList.lookup_insert_ne (recordName_ne_temporaryName _ name uuid))

theorem accepts_crash {name : String} {encoded : List UInt8} {s : Service} {b : Bool}
    {journal : List Write} (h : (persistExact name encoded s.receipts).2 = .ok b)
    (hsteps : Steps ReceiptWrite s.receipts (persistExact name encoded s.receipts).1)
    {p : ServicePoint} (hp : Effects.Whole ⟨(persistExact name encoded s.receipts).1, journal⟩ p) :
    Accepts name encoded
      (Effects.crash ⟨(persistExact name encoded s.receipts).1, journal⟩ s p).receipts := by
  cases p with
  | receipts p =>
    obtain ⟨k, hcrash | ⟨temporary, target, content, bytes, hw, -⟩⟩ :=
      crash_of_whole (d := s.receipts) hp
    · show Accepts name encoded (FileStore.crash _ s.receipts p)
      rw [hcrash]
      exact accepts_take h k
    · obtain ⟨name', content', hcreate, -⟩ := hsteps.get hw
      cases hcreate
  | journal p =>
    have hall := accepts_take h (persistExact name encoded s.receipts).1.length
    rw [List.take_length] at hall
    exact hall

/-- **A receipt is not recovered from a torn file.** -/
theorem not_persist_recovers_torn {env env₂ : Env} {s : Service} {dispatch receipt : Json}
    {result : PersistedReceipt}
    (hreturns : (persistReceipt protocol env dispatch receipt s).2 = .ok result)
    {p : ServicePoint} (hp : ¬(persistReceipt protocol env dispatch receipt s).1.Whole p)
    {journal : Directory} {result' : PersistedReceipt} :
    (persistReceipt protocol env₂ dispatch receipt ⟨journal,
      ((persistReceipt protocol env dispatch receipt s).1.crash s p).receipts⟩).2 ≠
        .ok result' := by
  intro hrepeat
  obtain ⟨record, encoded, b, updated, haccepted, hexact, hadvance⟩ := persistReceipt_eq_ok hreturns
  rw [persistReceipt_eq haccepted hexact hadvance] at hp hrepeat
  obtain ⟨record', encoded', b', updated', haccepted', hexact', -⟩ := persistReceipt_eq_ok hrepeat
  cases p with
  | journal p =>
    -- The journal is only updated, never created, by this call.
    obtain ⟨k, bytes, name, content, hw, -⟩ := crash_of_not_whole (d := s.journal) hp
    dsimp only at hw
    rcases advance_eq_ok haccepted.loaded hadvance with ⟨hws, -⟩ | ⟨-, -, -, -, -, uuid, hws⟩
    · rw [hws] at hw
      cases hw
    · rw [hws] at hw
      cases List.mem_singleton.mp (List.mem_of_getElem? hw)
  | receipts p =>
    obtain ⟨k, bytes, name, content, hw, hbytes, hcrash⟩ := crash_of_not_whole (d := s.receipts) hp
    -- The repeated call has the same identity and the same bytes.
    have hidentity : record.identity = record'.identity :=
      Except.ok.inj (haccepted.request.symm.trans haccepted'.request)
    obtain ⟨document, hdocument, hencoded⟩ := haccepted.document
    obtain ⟨document', hdocument', hencoded'⟩ := haccepted'.document
    obtain rfl : document = document' := Except.ok.inj (hdocument.symm.trans hdocument')
    obtain rfl : encoded = encoded' := Except.ok.inj (hencoded.symm.trans hencoded')
    have hhash : record'.dispatchEventHash = record.dispatchEventHash :=
      congrArg Identity.dispatchEventHash hidentity.symm
    obtain ⟨haccepts', -⟩ := persistExact_eq_ok hexact'
    rcases persistExact_eq_ok hexact with ⟨-, ⟨-, hws⟩ | ⟨-, hws⟩⟩
    · dsimp only at hw hcrash
      rw [hws] at hw
      cases List.mem_singleton.mp (List.mem_of_getElem? hw)
      refine not_accepts_torn hbytes ?_ haccepts'
      show (FileStore.crash _ s.receipts p).lookup _ = _
      rw [hcrash, hhash, AList.lookup_insert]
    · dsimp only at hw
      rw [hws] at hw
      cases hw

/-- **A receipt is recovered** from a journal with its record and a store that takes it. -/
theorem persist_recovers {env₁ env₂ : Env} (h₁ : env₁.Valid) (h₂ : env₂.Valid) {s : Service}
    {dispatch receipt document : Json} {i : Identity} {encoded : List UInt8}
    (hintact : Intact s.journal) (hscan : s.journal.keys.length ≤ maxDirectoryEntriesScanned)
    (hrequest : protocol.validateDispatch dispatch = .ok i)
    (hdocument : protocol.verifyReceipt receipt dispatch = .ok document)
    (hencoded : canonicalDocumentBytes document = .ok encoded) (hawaits : Awaits s.journal i)
    (haccepts : Accepts (receiptName i.dispatchEventHash) encoded s.receipts) :
    Recovers protocol env₁ env₂ (.persistReceipt dispatch receipt) s := by
  obtain ⟨hrecords, hintact', hkeeps, hunmoved⟩ := recoverAll_intact h₁ hintact hscan
  have hclaimable : Claimable s.journal i := by
    obtain ⟨r, hload, hsame, -⟩ := hawaits
    exact ⟨hsame ▸ valid_identity (rules_of_load hload).1, .inl ⟨r, hload, hsame⟩⟩
  refine ⟨hrecords, i, document, hrequest, hdocument,
    claim_recovers h₁ h₂ hintact hscan hclaimable, ?_⟩
  obtain ⟨r, hload, rfl, hstate⟩ := hawaits.recovered hunmoved
  obtain ⟨b, hexact, hfile⟩ := persistExact_returns haccepts
  obtain ⟨updated, hadvance, hnew, hafter⟩ := advance_returns h₂ hintact' hload hstate
  have hrun := persistReceipt_eq (s := ⟨applyAll (recoverAll env₁ s.journal).1 s.journal,
    s.receipts⟩) ⟨hrequest, ⟨document, hdocument, hencoded⟩, hload, hstate⟩ hexact hadvance
  rw [hrun]
  refine ⟨_, rfl, hnew, hafter, ?_⟩
  rw [← (Json.boundedEncoding_eq_ok.mp hencoded).2]
  exact hfile

/-- **Crash safety.**  A crash inside a call that would have returned is recovered from exactly
when no created file is torn and the journal directory, with the temporary files that crashes have
left in it, can still be scanned. -/
theorem recovers_iff {s : Service} (hs : Reached protocol s) {env env₁ env₂ : Env}
    (h₁ : env₁.Valid) (h₂ : env₂.Valid) {call : ServiceCall}
    (hreturns : call.Returns protocol env s) (p : ServicePoint) :
    Recovers protocol env₁ env₂ call ((call.effects protocol env s).crash s p) ↔
      (call.effects protocol env s).Whole p ∧
        ((call.effects protocol env s).crash s p).journal.keys.length ≤
          maxDirectoryEntriesScanned := by
  have hinv := serviceInv_of_reached hs
  obtain ⟨hjournal, hreceipts⟩ := steps_effects protocol call env s
  constructor
  · intro hrecovers
    obtain ⟨records, hrecords⟩ := hrecovers.1
    obtain ⟨listed, hlisted⟩ := scan_of_recoverAll hrecords
    refine ⟨by_contra fun hp => ?_, scan_of_listRecords hlisted⟩
    cases call with
    | claimDispatch i => exact not_recovers_torn_claim hp hrecovers
    | persistReceipt dispatch receipt =>
      obtain ⟨result, hresult⟩ := hreturns
      obtain ⟨_, _, -, -, -, result', hresult', -⟩ := hrecovers.2
      exact not_persist_recovers_torn hresult hp hresult'
  · rintro ⟨hp, hscan⟩
    have hafter := hinv.crash hjournal hreceipts hp
    cases call with
    | claimDispatch i =>
      obtain ⟨claim, hclaim⟩ := hreturns
      refine ⟨(recoverAll_intact h₁ hafter.journal hscan).1,
        claim_recovers h₁ h₂ hafter.journal hscan ?_⟩
      cases p with
      | receipts p => exact (claimDispatch_eq_ok hclaim).1
      | journal p => exact claimable_crash hclaim hp
    | persistReceipt dispatch receipt =>
      obtain ⟨result, hresult⟩ := hreturns
      obtain ⟨record, encoded, b, updated, haccepted, hexact, hadvance⟩ :=
        persistReceipt_eq_ok hresult
      have heffects : ServiceCall.effects protocol env s (.persistReceipt dispatch receipt) =
          ⟨(persistExact (receiptName record.dispatchEventHash) encoded s.receipts).1,
            (advance env record s.journal).1⟩ :=
        congrArg Prod.fst (persistReceipt_eq haccepted hexact hadvance)
      rw [heffects] at hp hscan hafter hjournal hreceipts ⊢
      obtain ⟨document, hdocument, hencoded⟩ := haccepted.document
      refine persist_recovers h₁ h₂ hafter.journal hscan haccepted.request hdocument hencoded
        (awaits_crash haccepted.loaded haccepted.state hadvance hjournal hp)
        (accepts_crash hexact hreceipts hp)

end Protocol

/-! ## An example -/

/-- The identity of a first dispatch. -/
def firstIdentity : Identity where
  dispatchEventHash := "0000000000000000000000000000000000000000000000000000000000000000"
  taskId := "T-1"
  attempt := 1
  actor := "verifier"
  runId := "00000000000000000000000000000000"

/-- A clock that stands still. -/
def stillEnv : Env := ⟨fun _ => 5, fun _ => ⟨"00000000000000000000000000000000", by decide⟩⟩

/-- A protocol that accepts one dispatch and one receipt. -/
def firstProtocol : Protocol where
  validateDispatch dispatch :=
    if dispatch = .obj [("attempt", .int 1)] then .ok firstIdentity
    else .error (error "Verifier dispatch schema is not exact")
  verifyReceipt receipt _ :=
    if receipt = .obj [("sealed_at", .int 5)] then .ok receipt
    else .error (error "Verifier receipt schema is not exact")

theorem valid_stillEnv : stillEnv.Valid := fun _ =>
  show (0 : ℤ) ≤ 5 ∧ (5 : ℤ) ≤ maxNumber by decide

/-- The first claim of an empty journal returns. -/
theorem returns_firstClaim : ServiceCall.Returns firstProtocol stillEnv ⟨∅, ∅⟩
    (.claimDispatch firstIdentity) := by
  have hvalid : (requestedRecord firstIdentity 0).Valid := by decide +kernel
  have hclaim : Claimable ∅ firstIdentity :=
    ⟨hvalid, .inr ⟨rfl, Nat.zero_le _, Nat.succ_pos _⟩⟩
  obtain ⟨claim, hok, -⟩ :=
    returns_claimDispatch valid_stillEnv firstIdentity ∅ ⟨intact_empty, hclaim⟩
  exact ⟨claim, hok⟩

theorem recovers_iff_firstClaim :
    Recovers firstProtocol stillEnv stillEnv (.claimDispatch firstIdentity)
      ((ServiceCall.effects firstProtocol stillEnv ⟨∅, ∅⟩ (.claimDispatch firstIdentity)).crash
        ⟨∅, ∅⟩ (.journal (.between 1))) ↔
      (ServiceCall.effects firstProtocol stillEnv ⟨∅, ∅⟩ (.claimDispatch firstIdentity)).Whole
        (.journal (.between 1)) ∧
      ((ServiceCall.effects firstProtocol stillEnv ⟨∅, ∅⟩ (.claimDispatch firstIdentity)).crash
        ⟨∅, ∅⟩ (.journal (.between 1))).journal.keys.length ≤ maxDirectoryEntriesScanned :=
  recovers_iff (Reached.start) valid_stillEnv valid_stillEnv returns_firstClaim _

/-- A crash before the first byte of the first record: the empty record file stops every later
start of the verifier. -/
theorem not_recovers_emptyRecord :
    Reached firstProtocol ⟨∅, ∅⟩ ∧
      ServiceCall.Returns firstProtocol stillEnv ⟨∅, ∅⟩ (.claimDispatch firstIdentity) ∧
      ¬Recovers firstProtocol stillEnv stillEnv (.claimDispatch firstIdentity)
        ((ServiceCall.effects firstProtocol stillEnv ⟨∅, ∅⟩ (.claimDispatch firstIdentity)).crash
          ⟨∅, ∅⟩ (.journal (.within 0 0))) := by
  refine ⟨Reached.start, returns_firstClaim, not_recovers_torn_claim ?_⟩
  obtain ⟨claim, hclaim⟩ := returns_firstClaim
  obtain ⟨-, ⟨r, hload, -⟩ | ⟨now, rest, -, hws⟩⟩ := claimDispatch_eq_ok hclaim
  · obtain ⟨-, raw, hraw, -⟩ := load_eq_ok_some hload
    cases hraw
  · -- The content of a record ends with a newline, so it is not empty.
    refine not_whole_of_create hws ?_
    exact List.append_ne_nil_of_right_ne_nil _ (List.cons_ne_nil _ _)

end VerifierService
