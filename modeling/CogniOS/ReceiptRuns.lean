/-
# Runs of the receipt store

`persist_receipt` writes the receipt and then moves the journal, so either of the two may be ahead.
A run is any list of its calls, complete or stopped between the two writes, with the other calls of
the journal at any place, each cut after some of its writes.

* `sealed_run` : a record that is persisted has the file of a verified receipt of its execution;
* `receipt_stays` and `other_receipt_raises` : a receipt file is final;
* `persisted_once` and `stopped_call_completes` : the transition is made once.
-/
import CogniOS.Runs
import CogniOS.VerifierProtocol

namespace ReceiptRuns

open FileStore VerifierJournal JournalState VerifierService

/-! ## Steps -/

/-- A call of the journal by another part of the verifier: `persist_receipt` alone asks for
`RECEIPT_PERSISTED`. -/
def Other : Call → Prop
  | .transition _ newState _ _ _ => newState ≠ receiptPersisted
  | _ => True

/-- What happens to the journal and to the receipt store. -/
inductive Step
  | persist (env : Env) (dispatch receipt : Json)
  /-- A call that stops when the receipt file is complete, before the transition. -/
  | persistStopped (env : Env) (dispatch receipt : Json)
  /-- Another call of the journal, which makes this many of its writes at most. -/
  | journal (env : Env) (c : Call) (hc : Other c) (writes : ℕ)

/-- One step. -/
def next (protocol : Protocol) (s : Service) : Step → Service
  | .persist env dispatch receipt => (persistReceipt protocol env dispatch receipt s).1.apply s
  | .persistStopped env dispatch receipt =>
      ⟨s.journal, applyAll (persistReceipt protocol env dispatch receipt s).1.receipts s.receipts⟩
  | .journal env c _ writes =>
      ⟨applyAll ((c.perform env s.journal).1.take writes) s.journal, s.receipts⟩

/-- The run from the empty service. -/
def run (protocol : Protocol) (steps : List Step) : Service := steps.foldl (next protocol) ⟨∅, ∅⟩

/-- The state of the record of a dispatch. -/
def stateOf (s : Service) (h : String) : Option JournalState :=
  match load s.journal h with
  | .ok (some r) => some r.state
  | _ => none

/-- A step takes the record of a dispatch to `RECEIPT_PERSISTED`. -/
def Enters (h : String) (s t : Service) : Prop :=
  stateOf s h ≠ some receiptPersisted ∧ stateOf t h = some receiptPersisted

instance (h : String) (s t : Service) : Decidable (Enters h s t) := by
  unfold Enters
  infer_instance

theorem stateOf_eq_some {s : Service} {h : String} {state : JournalState} :
    stateOf s h = some state ↔ ∃ r, load s.journal h = .ok (some r) ∧ r.state = state := by
  unfold stateOf
  cases hload : load s.journal h with
  | error e => exact ⟨fun hsome => (by cases hsome), fun ⟨r, hr, _⟩ => (by cases hr)⟩
  | ok record =>
    cases record with
    | none => exact ⟨fun hsome => (by cases hsome), fun ⟨r, hr, _⟩ => (by cases hr)⟩
    | some r =>
      constructor
      · intro hsome
        exact ⟨r, rfl, Option.some.inj hsome⟩
      · rintro ⟨r', hr, rfl⟩
        obtain rfl : r = r' := Option.some.inj (Except.ok.inj hr)
        rfl

/-- A stopped call does not touch the journal. -/
theorem stateOf_persistStopped (protocol : Protocol) (s : Service) (env : Env)
    (dispatch receipt : Json) (h : String) :
    stateOf (next protocol s (.persistStopped env dispatch receipt)) h = stateOf s h := rfl

/-! ## The versions that a call writes -/

/-- A version that is written is one of this dispatch in this state. -/
def Targets (h : String) (state : JournalState) (_ : Directory) (w : Write) : Prop :=
  ∀ h' r, versionOf w = some (h', r) → h' = h ∧ r.state = state

theorem targets_transition (env : Env) (h : String) (newState : JournalState)
    (expectedRevision : Option ℤ) (failureCode quarantineReason : Option String) :
    Triple (Targets h newState) (fun _ => True)
      (transition env h newState expectedRevision failureCode quarantineReason)
      fun _ _ => True := by
  unfold transition
  refine Triple.bind (Q := fun hash _ => hash = h) (Triple.lift fun _ hash _ hok => ?_)
    fun hash => ?_
  · exact (Json.str.inj (validateDispatchHash_eq_ok.mp hok).1).symm
  refine Triple.bind (Q := fun _ _ => hash = h) (Triple.lift fun _ _ hd _ => hd) fun _ => ?_
  refine Triple.bind (Q := fun _ _ => hash = h) (Triple.directory fun _ hd => hd) fun d => ?_
  refine Triple.bind (Q := fun current _ => current.dispatchEventHash = h)
    (Triple.lift fun _ current hd hok => ?_) fun current => ?_
  · rw [← hd]
    exact (rules_of_load (loadExisting_eq_ok.mp hok)).2
  refine Triple.bind (Q := fun _ _ => current.dispatchEventHash = h)
    (Triple.lift fun _ _ hd _ => hd) fun _ => ?_
  refine Triple.bind (Q := fun _ _ => current.dispatchEventHash = h)
    (Triple.lift fun _ _ hd _ => hd) fun _ => ?_
  refine Triple.bind (Q := fun updated _ => updated.dispatchEventHash = h ∧
    updated.state = newState ∧ updated.Valid) (Triple.lift fun _ updated hd hok => ?_)
    fun updated => ?_
  · obtain ⟨hvalid, hstate, hidentity, -, -⟩ := nextRecord_eq_ok hok
    exact ⟨(congrArg Identity.dispatchEventHash hidentity).trans hd, hstate, hvalid⟩
  refine Triple.bind (Q := fun _ _ => True) ?_ fun _ => Triple.pure fun _ _ => trivial
  unfold replaceRecord
  refine Triple.bind (Q := fun content _ => (updated.dispatchEventHash = h ∧
    updated.state = newState ∧ updated.Valid) ∧ updated.bytes.length ≤ maxRecordBytes ∧
    content = updated.bytes)
    (Triple.lift fun _ content hd hcontent => ⟨hd, canonicalJsonBytes_eq_ok.mp hcontent⟩)
    fun content => Triple.write fun d hd => ⟨fun h' r hversion => ?_, trivial⟩
  obtain ⟨⟨hhash, hstate, hvalid⟩, hlen, rfl⟩ := hd
  rw [versionOf_record rfl hvalid hlen] at hversion
  obtain ⟨rfl, rfl⟩ := Prod.mk.inj (Option.some.inj hversion)
  exact ⟨hhash, hstate⟩

/-- The write creates a file, or writes a version that is not persisted. -/
def Unsealing (_ : Directory) (w : Write) : Prop :=
  (∃ name content, w = .create name content) ∨
    ∀ h r, versionOf w = some (h, r) → r.state ≠ receiptPersisted

theorem Targets.unsealing {h : String} {state : JournalState} {d : Directory} {w : Write}
    (hw : Targets h state d w) (hstate : state ≠ receiptPersisted) : Unsealing d w :=
  .inr fun h' r hversion => (hw h' r hversion).2 ▸ hstate

theorem unsealing_of_recoveryWrite {d : Directory} {w : Write} (hw : RecoveryWrite d w) :
    Unsealing d w := by
  cases hw with
  | recover r r' uuid hrecovery hupdates hvalid hlen hload =>
    refine .inr fun h r₁ hversion hstate => ?_
    rw [versionOf_record rfl hvalid hlen] at hversion
    obtain ⟨rfl, rfl⟩ := Prod.mk.inj (Option.some.inj hversion)
    have hmoves : ∀ s s', Moves s s' → recoveryOf s ≠ none → s' ≠ receiptPersisted := by decide
    exact hmoves _ _ hupdates.moves hrecovery hstate

theorem unsealing_transition (env : Env) (h : String) {newState : JournalState}
    (hstate : newState ≠ receiptPersisted) (expectedRevision : Option ℤ)
    (failureCode quarantineReason : Option String) :
    Triple Unsealing (fun _ => True)
      (transition env h newState expectedRevision failureCode quarantineReason)
      fun _ _ => True :=
  (targets_transition env h newState expectedRevision failureCode quarantineReason).mono
    fun _ _ hw => hw.unsealing hstate

theorem unsealing_claimDispatch (env : Env) (i : Identity) :
    Triple Unsealing (fun _ => True) (claimDispatch env i) fun _ _ => True := by
  unfold claimDispatch
  refine Triple.bind (Q := fun _ _ => True) (Triple.lift fun _ _ _ _ => trivial) fun identity => ?_
  refine Triple.bind (Q := fun _ _ => True) ?_ fun result => ?_
  · unfold ensureRecord
    refine Triple.bind (Q := fun _ _ => True) (Triple.directory fun _ _ => trivial) fun d => ?_
    refine Triple.bind (Q := fun _ _ => True) (Triple.lift fun _ _ _ _ => trivial)
      fun existing => ?_
    cases existing with
    | some record => exact Triple.pure fun _ _ => trivial
    | none =>
      refine Triple.bind (Q := fun _ _ => True) (Triple.lift fun _ _ _ _ => trivial) fun _ => ?_
      refine Triple.bind (Q := fun _ _ => True) (Triple.lift fun _ _ _ _ => trivial) fun now => ?_
      refine Triple.bind (Q := fun _ _ => True) (Triple.lift fun _ _ _ _ => trivial)
        fun content => ?_
      exact Triple.bind (Q := fun _ _ => True)
        (Triple.write fun d _ => ⟨.inl ⟨_, _, rfl⟩, trivial⟩) fun _ =>
          Triple.pure fun _ _ => trivial
  refine Triple.bind (Q := fun _ _ => True) (Triple.lift fun _ _ _ _ => trivial) fun _ => ?_
  refine Triple.bind (Q := fun _ _ => True) ?_ fun acquired => ?_
  · unfold ensureMarker
    refine Triple.bind (Q := fun _ _ => True) (Triple.lift fun _ _ _ _ => trivial) fun now => ?_
    refine Triple.bind (Q := fun _ _ => True) (Triple.lift fun _ _ _ _ => trivial)
      fun content => ?_
    refine Triple.bind (Q := fun _ _ => True) (Triple.directory fun _ _ => trivial) fun d => ?_
    refine Triple.bind (Q := fun _ _ => True) (Triple.lift fun _ _ _ _ => trivial)
      fun stored => ?_
    cases stored with
    | some marker =>
      exact Triple.bind (Q := fun _ _ => True) (Triple.lift fun _ _ _ _ => trivial) fun _ =>
        Triple.pure fun _ _ => trivial
    | none =>
      exact Triple.bind (Q := fun _ _ => True)
        (Triple.write fun d _ => ⟨.inl ⟨_, _, rfl⟩, trivial⟩) fun _ =>
          Triple.pure fun _ _ => trivial
  refine Triple.bind (Q := fun _ _ => True) ?_ fun record => Triple.pure fun _ _ => trivial
  unfold completeClaim
  refine Triple.bind (Q := fun _ _ => True) (Triple.directory fun _ _ => trivial) fun d => ?_
  refine Triple.bind (Q := fun _ _ => True) (Triple.lift fun _ _ _ _ => trivial) fun record => ?_
  split
  · exact unsealing_transition _ _ (by decide) _ _ _
  · exact Triple.pure fun _ _ => trivial

/-- **Only `persist_receipt` persists**: the other calls write no version in that state. -/
theorem unsealing_perform (env : Env) {c : Call} (hc : Other c) :
    Triple Unsealing (fun _ => True) (c.perform env) fun _ _ => True := by
  cases c with
  | claimDispatch i =>
    exact Triple.bind (unsealing_claimDispatch env i) fun _ => Triple.pure fun _ _ => trivial
  | transition h newState expectedRevision failureCode quarantineReason =>
    exact Triple.bind (unsealing_transition _ _ hc _ _ _) fun _ => Triple.pure fun _ _ => trivial
  | markFailed h failureCode =>
    exact Triple.bind (unsealing_transition _ _ (by decide) _ _ _) fun _ =>
      Triple.pure fun _ _ => trivial
  | quarantine h failureCode reason =>
    exact Triple.bind (unsealing_transition _ _ (by decide) _ _ _) fun _ =>
      Triple.pure fun _ _ => trivial
  | recover h =>
    exact Triple.bind ((recovers_recover _ _).mono fun _ _ hw => unsealing_of_recoveryWrite hw)
      fun _ => Triple.pure fun _ _ => trivial
  | recoverAll =>
    exact Triple.bind ((recovers_recoverAll _).mono fun _ _ hw => unsealing_of_recoveryWrite hw)
      fun _ => Triple.pure fun _ _ => trivial

/-! ## Sealed records -/

/-- The receipt of the record was persisted. -/
def isSealed (s : JournalState) : Bool := s ∈ [receiptPersisted, terminalAppended, done]

theorem sealed_of_moves : ∀ s s', Moves s s' → isSealed s' = true →
    s' ≠ receiptPersisted ∧ isSealed s = true ∨ s' = receiptPersisted ∧ s = cleanupAcked := by
  decide

/-- Where a sealed record comes from, over one write. -/
theorem sealed_apply {d : Directory} {w : Write} (hw : GoodWrite d w) {h : String}
    {r' : JournalRecord} (hload : load (w.apply d) h = .ok (some r'))
    (hsealed : isSealed r'.state = true) :
    ∃ r, load d h = .ok (some r) ∧ r'.identity = r.identity ∧
      (isSealed r.state = true ∨ r.state = cleanupAcked ∧ r'.state = receiptPersisted ∧
        versionOf w = some (h, r') ∧ ∀ name content, w ≠ .create name content) := by
  cases hw with
  | first r hstate hrevision hvalid hlen hnone hcount =>
    -- A first record is in its first state, which is not sealed.
    by_cases hh : h = r.dispatchEventHash
    · subst hh
      rw [load_apply_record rfl rfl hvalid hlen] at hload
      obtain rfl : r = r' := Option.some.inj (Except.ok.inj hload)
      rw [hstate] at hsealed
      exact absurd hsealed (by decide)
    · have hne : recordName h ≠ recordName r.dispatchEventHash :=
        fun heq => hh (recordName_injective heq)
      exact ⟨r', (load_apply_of_ne hne).symm.trans hload, rfl, .inl hsealed⟩
  | marker r now hnow hlen hload₀ hnone =>
    -- A marker is no record.
    have hne : recordName h ≠ claimName r.dispatchEventHash := recordName_ne_claimName _ _
    exact ⟨r', (load_apply_of_ne hne).symm.trans hload, rfl, .inl hsealed⟩
  | update r r₁ uuid hupdates hvalid hlen hload₀ =>
    have hsame : r₁.dispatchEventHash = r.dispatchEventHash :=
      congrArg Identity.dispatchEventHash hupdates.identity
    by_cases hh : h = r₁.dispatchEventHash
    · subst hh
      rw [load_apply_record rfl rfl hvalid hlen] at hload
      obtain rfl : r₁ = r' := Option.some.inj (Except.ok.inj hload)
      refine ⟨r, hsame ▸ hload₀, hupdates.identity, ?_⟩
      rcases sealed_of_moves _ _ hupdates.moves hsealed with ⟨-, hbefore⟩ | ⟨hnew, hold⟩
      · exact .inl hbefore
      · exact .inr ⟨hold, hnew, versionOf_record rfl hvalid hlen,
          fun _ _ hcreate => (by cases hcreate)⟩
    · have hne : recordName h ≠ recordName r₁.dispatchEventHash :=
        fun heq => hh (recordName_injective heq)
      exact ⟨r', (load_apply_of_ne hne).symm.trans hload, rfl, .inl hsealed⟩

/-- The receipt of an execution is in the store: the bytes of a document that was verified for a
dispatch with this identity. -/
def Receipted (protocol : Protocol) (receipts : Directory) (i : Identity) : Prop :=
  ∃ dispatch receipt document encoded,
    protocol.validateDispatch dispatch = .ok i ∧
      protocol.verifyReceipt receipt dispatch = .ok document ∧
      canonicalDocumentBytes document = .ok encoded ∧
      receipts.lookup (receiptName i.dispatchEventHash) = some encoded

/-- Every sealed record of the journal has its receipt. -/
def SealedIn (protocol : Protocol) (receipts d : Directory) : Prop :=
  ∀ h r, load d h = .ok (some r) → isSealed r.state = true → Receipted protocol receipts r.identity

variable {protocol : Protocol}

theorem SealedIn.apply {receipts d : Directory} {w : Write} (hd : SealedIn protocol receipts d)
    (hw : GoodWrite d w)
    (hnew : ∀ h r r', load d h = .ok (some r) → versionOf w = some (h, r') →
      r'.state = receiptPersisted → (∀ name content, w ≠ .create name content) →
      Receipted protocol receipts r.identity) :
    SealedIn protocol receipts (w.apply d) := by
  intro h r' hload hsealed
  obtain ⟨r, hbefore, hidentity, hcase⟩ := sealed_apply hw hload hsealed
  rw [hidentity]
  rcases hcase with hold | ⟨-, hstate, hversion, hreplace⟩
  · exact hd h r hbefore hold
  · exact hnew h r r' hbefore hversion hstate hreplace

/-- The other calls of the journal seal nothing. -/
theorem SealedIn.applyAll_unsealing {receipts d : Directory} {ws : List Write}
    (hd : SealedIn protocol receipts d) (hgood : Steps GoodWrite d ws)
    (hunsealing : Steps Unsealing d ws) : SealedIn protocol receipts (applyAll ws d) := by
  refine (hgood.and hunsealing).invariant (fun d w hd hw => hd.apply hw.1 ?_) hd
  intro h r r' hload hversion hstate hreplace
  rcases hw.2 with ⟨name, content, hcreate⟩ | hversions
  · exact absurd hcreate (hreplace name content)
  · exact absurd hstate (hversions h r' hversion)

/-! ## The writes of one call -/

/-- A receipt that is refused is not written. -/
theorem clean_persistExact (name : String) (encoded : List UInt8) :
    Clean (persistExact name encoded) := by
  unfold persistExact
  refine Clean.directory fun d => Clean.lift fun names => Clean.lift fun _ => ?_
  cases d.lookup name with
  | none => exact Clean.write _ _
  | some existing => exact Clean.lift fun _ => Clean.lift fun _ => Clean.pure _

/-- What a call writes: nothing, or the receipt that it has accepted and then the transition. -/
inductive Wrote (protocol : Protocol) (env : Env) (dispatch receipt : Json) (s : Service) : Prop
  | refused (heffects : (persistReceipt protocol env dispatch receipt s).1 = ⟨[], []⟩)
      (hraises : ∀ result, (persistReceipt protocol env dispatch receipt s).2 ≠ .ok result)
  | accepted (record : JournalRecord) (encoded : List UInt8) (b : Bool)
      (haccepted : Accepted protocol dispatch receipt s.journal record encoded)
      (hexact : (persistExact (receiptName record.dispatchEventHash) encoded s.receipts).2 = .ok b)
      (heffects : (persistReceipt protocol env dispatch receipt s).1 =
        ⟨(persistExact (receiptName record.dispatchEventHash) encoded s.receipts).1,
          (advance env record s.journal).1⟩)

theorem wrote_persistReceipt (protocol : Protocol) (env : Env) (dispatch receipt : Json)
    (s : Service) : Wrote protocol env dispatch receipt s := by
  cases haccept : acceptReceipt protocol dispatch receipt s.journal with
  | error e =>
    refine .refused ?_ fun result hok => ?_
    · rw [persistReceipt, haccept]
    · rw [persistReceipt, haccept] at hok
      cases hok
  | ok accepted =>
    obtain ⟨record, encoded⟩ := accepted
    rcases hexact : persistExact (receiptName record.dispatchEventHash) encoded s.receipts with
      ⟨ws, e | b⟩
    · have hnil : ws = [] := by
        have hclean := clean_persistExact (receiptName record.dispatchEventHash) encoded
          s.receipts e (congrArg Prod.snd hexact)
        rw [hexact] at hclean
        exact hclean
      subst hnil
      refine .refused ?_ fun result hok => ?_
      · rw [persistReceipt, haccept]
        dsimp only
        rw [hexact]
      · rw [persistReceipt, haccept] at hok
        dsimp only at hok
        rw [hexact] at hok
        cases hok
    · refine .accepted record encoded b (acceptReceipt_eq_ok.mp haccept)
        (congrArg Prod.snd hexact) ?_
      rw [persistReceipt, haccept]
      dsimp only
      rw [hexact]
      dsimp only
      rcases advance env record s.journal with ⟨ws', e | updated⟩
      · rfl
      · rfl

/-- The writes of the transition. -/
theorem targets_advance (env : Env) (record : JournalRecord) (d : Directory) :
    Steps GoodWrite d (advance env record d).1 ∧
      Steps (Targets record.dispatchEventHash receiptPersisted) d (advance env record d).1 := by
  unfold advance
  split
  · exact ⟨(journals_transition _ _ _ _ _ _ d trivial).1,
      (targets_transition _ _ _ _ _ _ d trivial).1⟩
  · exact ⟨trivial, trivial⟩

/-- The receipt file after its part of a call. -/
theorem lookup_persistExact {name : String} {encoded : List UInt8} {d : Directory} {b : Bool}
    (h : (persistExact name encoded d).2 = .ok b) :
    (applyAll (persistExact name encoded d).1 d).lookup name = some encoded ∧
      ∀ other content, d.lookup other = some content →
        (applyAll (persistExact name encoded d).1 d).lookup other = some content := by
  obtain ⟨-, ⟨hnone, hws⟩ | ⟨hsome, hws⟩⟩ := persistExact_eq_ok h
  · rw [hws, applyAll_cons, applyAll_nil]
    refine ⟨?_, fun other content hother => ?_⟩
    · rw [Write.lookup_apply]
      exact if_pos rfl
    · have hne : other ≠ name := by
        rintro rfl
        rw [hnone] at hother
        cases hother
      rw [Write.lookup_apply]
      exact (if_neg hne).trans hother
  · rw [hws, applyAll_nil]
    exact ⟨hsome, fun _ _ hother => hother⟩

/-! ## Runs -/

/-- What holds after every step. -/
structure RunInv (protocol : Protocol) (s : Service) : Prop where
  service : ServiceInv s
  sealedIn : SealedIn protocol s.receipts s.journal

/-- Every file of the first directory is in the second one, with its bytes. -/
def Kept (d d' : Directory) : Prop :=
  ∀ name content, d.lookup name = some content → d'.lookup name = some content

theorem SealedIn.kept {receipts receipts' d : Directory} (hd : SealedIn protocol receipts d)
    (hkept : Kept receipts receipts') : SealedIn protocol receipts' d := by
  intro h r hload hsealed
  obtain ⟨dispatch, receipt, document, encoded, hdispatch, hreceipt, hencoded, hfile⟩ :=
    hd h r hload hsealed
  exact ⟨dispatch, receipt, document, encoded, hdispatch, hreceipt, hencoded, hkept _ _ hfile⟩

/-- The transition of a call seals the record whose receipt is in the store. -/
theorem SealedIn.advance {receipts d : Directory} (hd : SealedIn protocol receipts d)
    (env : Env) {record : JournalRecord}
    (hload : load d record.dispatchEventHash = .ok (some record))
    (hreceipted : Receipted protocol receipts record.identity) :
    SealedIn protocol receipts (applyAll (VerifierService.advance env record d).1 d) := by
  obtain ⟨hgood, htargets⟩ := targets_advance env record d
  refine ((hgood.and htargets).invariant (I := fun d' => SealedIn protocol receipts d' ∧ Keeps d d')
    (fun d' w hd' hw => ⟨hd'.1.apply hw.1 ?_, hd'.2.apply hw.1⟩) ⟨hd, Keeps.refl d⟩).1
  intro h r r' hbefore hversion hstate hreplace
  obtain ⟨rfl, -⟩ := hw.2 h r' hversion
  obtain ⟨r₀, hkept, hidentity⟩ := hd'.2 _ _ hload
  obtain rfl : r = r₀ := Option.some.inj (Except.ok.inj (hbefore.symm.trans hkept))
  rw [hidentity]
  exact hreceipted

/-- **A step keeps the receipts**, and what holds of the service. -/
theorem RunInv.next {s : Service} (hs : RunInv protocol s) (step : Step) :
    RunInv protocol (next protocol s step) ∧ Kept s.receipts (next protocol s step).receipts := by
  cases step with
  | journal env c hc writes =>
    have hgood := (journals_perform env c s.journal s.journal rfl).1.take writes
    have hunsealing := (unsealing_perform env hc s.journal trivial).1.take writes
    exact ⟨⟨⟨hgood.invariant (fun _ _ hd hw => hd.apply hw) hs.service.journal,
        hs.service.receipts⟩,
      hs.sealedIn.applyAll_unsealing hgood hunsealing⟩, fun _ _ hfile => hfile⟩
  | persist env dispatch receipt =>
    obtain ⟨hjournal, hreceipts⟩ :=
      steps_effects protocol (.persistReceipt dispatch receipt) env s
    have hinv : ServiceInv ((persistReceipt protocol env dispatch receipt s).1.apply s) :=
      hs.service.apply hjournal hreceipts
    rcases wrote_persistReceipt protocol env dispatch receipt s with
      ⟨heffects, -⟩ | ⟨record, encoded, b, haccepted, hexact, heffects⟩
    · show RunInv protocol (Effects.apply _ s) ∧ Kept s.receipts (Effects.apply _ s).receipts
      rw [heffects]
      exact ⟨hs, fun _ _ hfile => hfile⟩
    · obtain ⟨hfile, hkept⟩ := lookup_persistExact hexact
      obtain ⟨document, hdocument, hencoded⟩ := haccepted.document
      rw [heffects] at hinv
      show RunInv protocol (Effects.apply _ s) ∧ Kept s.receipts (Effects.apply _ s).receipts
      rw [heffects]
      exact ⟨⟨hinv, (hs.sealedIn.kept hkept).advance env haccepted.loaded
        ⟨dispatch, receipt, document, encoded, haccepted.request, hdocument, hencoded, hfile⟩⟩,
        hkept⟩
  | persistStopped env dispatch receipt =>
    -- The receipt is written and the journal is not.
    obtain ⟨-, hreceipts⟩ := steps_effects protocol (.persistReceipt dispatch receipt) env s
    have hinv : ServiceInv ⟨s.journal,
        applyAll (persistReceipt protocol env dispatch receipt s).1.receipts s.receipts⟩ :=
      hs.service.apply (e := ⟨_, []⟩) trivial hreceipts
    rcases wrote_persistReceipt protocol env dispatch receipt s with
      ⟨heffects, -⟩ | ⟨record, encoded, b, haccepted, hexact, heffects⟩
    · rw [heffects] at hinv
      show RunInv protocol ⟨s.journal, applyAll _ s.receipts⟩ ∧
        Kept s.receipts (applyAll _ s.receipts)
      rw [heffects]
      exact ⟨hs, fun _ _ hfile => hfile⟩
    · obtain ⟨hfile, hkept⟩ := lookup_persistExact hexact
      rw [heffects] at hinv
      show RunInv protocol ⟨s.journal, applyAll _ s.receipts⟩ ∧
        Kept s.receipts (applyAll _ s.receipts)
      rw [heffects]
      exact ⟨⟨hinv, hs.sealedIn.kept hkept⟩, hkept⟩

theorem runInv_foldl {s : Service} (hs : RunInv protocol s) (steps : List Step) :
    RunInv protocol (steps.foldl (next protocol) s) :=
  Runs.foldl_invariant (fun _ step hs => (hs.next step).1) steps hs

theorem runInv_run (protocol : Protocol) (steps : List Step) :
    RunInv protocol (run protocol steps) :=
  runInv_foldl ⟨⟨intact_empty, Nat.zero_le _⟩, fun h r hload => by
    obtain ⟨-, raw, hraw, -⟩ := load_eq_ok_some hload
    cases hraw⟩ steps

theorem kept_foldl {s : Service} (hs : RunInv protocol s) (steps : List Step) :
    Kept s.receipts (steps.foldl (next protocol) s).receipts := by
  induction steps generalizing s with
  | nil => exact fun _ _ hfile => hfile
  | cons step steps ih =>
    exact fun name content hfile => ih (hs.next step).1 name content ((hs.next step).2 _ _ hfile)

theorem run_append (protocol : Protocol) (steps later : List Step) :
    run protocol (steps ++ later) = later.foldl (next protocol) (run protocol steps) :=
  List.foldl_append

/-! ## The receipts of a run -/

/-- A sealed record has the receipt file of its execution: the canonical bytes of a receipt that was
verified for a dispatch, and names the task, attempt, actor and run of the record. -/
structure Consistent (hasher : Hasher) (iso : VerifierProtocol.IsoFormat)
    (trust : VerifierProtocol.Trust) (s : Service) : Prop where
  receipts : ∀ h r, load s.journal h = .ok (some r) →
    r.state ∈ [receiptPersisted, terminalAppended, done] →
    ∃ dispatch receipt encoded,
      VerifierProtocol.verifyVerificationReceipt hasher iso trust receipt dispatch = .ok receipt ∧
        VerifierProtocol.Names receipt r.identity ∧ canonicalDocumentBytes receipt = .ok encoded ∧
        s.receipts.lookup (receiptName h) = some encoded

/-- What is final about the receipts of a state. -/
structure Final (protocol : Protocol) (s : Service) (later : List Step) : Prop where
  /-- A receipt file stays as it is. -/
  stays : Kept s.receipts (later.foldl (next protocol) s).receipts
  /-- Another receipt of the dispatch is refused, and nothing is written. -/
  refuses : ∀ env dispatch receipt i content, protocol.validateDispatch dispatch = .ok i →
    s.receipts.lookup (receiptName i.dispatchEventHash) = some content →
    (∀ document, protocol.verifyReceipt receipt dispatch = .ok document →
      canonicalDocumentBytes document ≠ .ok content) →
    (persistReceipt protocol env dispatch receipt s).1 = ⟨[], []⟩ ∧
      ∀ result, (persistReceipt protocol env dispatch receipt s).2 ≠ .ok result

/-- **A receipt is final**: whatever happens before and after, its file keeps its bytes and no other
receipt of the dispatch is accepted. -/
theorem final_run (protocol : Protocol) (steps later : List Step) :
    Final protocol (run protocol steps) later := by
  have hinv := runInv_run protocol steps
  refine ⟨kept_foldl hinv later, fun env dispatch receipt i content hi hfile hother => ?_⟩
  rcases wrote_persistReceipt protocol env dispatch receipt (run protocol steps) with
    ⟨heffects, hraises⟩ | ⟨record, encoded, b, haccepted, hexact, -⟩
  · exact ⟨heffects, hraises⟩
  · obtain ⟨document, hdocument, hencoded⟩ := haccepted.document
    obtain rfl : record.identity = i := Except.ok.inj (haccepted.request.symm.trans hi)
    have hname : (run protocol steps).receipts.lookup (receiptName record.dispatchEventHash) =
        some content := hfile
    obtain ⟨⟨-, ⟨hnone, -⟩ | hsame⟩, -⟩ := persistExact_eq_ok hexact
    · rw [hname] at hnone
      cases hnone
    · rw [hname] at hsame
      obtain rfl := Option.some.inj hsame
      exact absurd hencoded (hother document hdocument)

/-! ## The transition of a receipt -/

/-- A write of the journal takes a record forward, where it moves it. -/
theorem rank_apply {d : Directory} {w : Write} (hw : GoodWrite d w) {h : String}
    {r : JournalRecord} (hload : load d h = .ok (some r)) :
    ∃ r', load (w.apply d) h = .ok (some r') ∧
      (r'.state = r.state ∨ rank r.state < rank r'.state) := by
  cases hw with
  | first r₀ hstate hrevision hvalid hlen hnone hcount =>
    have hne : recordName h ≠ recordName r₀.dispatchEventHash := fun heq => by
      rw [recordName_injective heq, hnone] at hload
      cases hload
    exact ⟨r, (load_apply_of_ne hne).trans hload, .inl rfl⟩
  | marker r₀ now hnow hlen hload₀ hnone =>
    have hne : recordName h ≠ claimName r₀.dispatchEventHash := recordName_ne_claimName _ _
    exact ⟨r, (load_apply_of_ne hne).trans hload, .inl rfl⟩
  | update r₀ r' uuid hupdates hvalid hlen hload₀ =>
    have hsame : r'.dispatchEventHash = r₀.dispatchEventHash :=
      congrArg Identity.dispatchEventHash hupdates.identity
    by_cases hh : h = r'.dispatchEventHash
    · subst hh
      rw [hsame, hload₀] at hload
      obtain rfl : r₀ = r := Option.some.inj (Except.ok.inj hload)
      exact ⟨r', load_apply_record rfl rfl hvalid hlen, .inr (rank_lt_of_moves _ _ hupdates.moves)⟩
    · have hne : recordName h ≠ recordName r'.dispatchEventHash :=
        fun heq => hh (recordName_injective heq)
      exact ⟨r, (load_apply_of_ne hne).trans hload, .inl rfl⟩

/-- A record that was read before the writes is there after them, in its state or further. -/
theorem rank_applyAll {d : Directory} {ws : List Write} (hgood : Steps GoodWrite d ws) {h : String}
    {r : JournalRecord} (hload : load d h = .ok (some r)) :
    ∃ r', load (applyAll ws d) h = .ok (some r') ∧
      (r'.state = r.state ∨ rank r.state < rank r'.state) := by
  refine hgood.invariant (I := fun d' => ∃ r', load d' h = .ok (some r') ∧
    (r'.state = r.state ∨ rank r.state < rank r'.state)) (fun d' w hd' hw => ?_)
    ⟨r, hload, .inl rfl⟩
  obtain ⟨r₁, hload₁, hcase₁⟩ := hd'
  obtain ⟨r₂, hload₂, hcase₂⟩ := rank_apply hw hload₁
  refine ⟨r₂, hload₂, ?_⟩
  rcases hcase₂ with hsame₂ | hlt₂
  · rw [hsame₂]
    exact hcase₁
  · rcases hcase₁ with hsame₁ | hlt₁
    · rw [hsame₁] at hlt₂
      exact .inr hlt₂
    · exact .inr (hlt₁.trans hlt₂)

/-- The record has come as far as `RECEIPT_PERSISTED`, or further. -/
def Beyond (h : String) (d : Directory) : Prop :=
  ∃ r, load d h = .ok (some r) ∧ rank receiptPersisted ≤ rank r.state

theorem Beyond.applyAll {h : String} {d : Directory} {ws : List Write} (hd : Beyond h d)
    (hgood : Steps GoodWrite d ws) : Beyond h (applyAll ws d) := by
  obtain ⟨r, hload, hrank⟩ := hd
  obtain ⟨r', hload', hsame | hlt⟩ := rank_applyAll hgood hload
  · exact ⟨r', hload', hsame ▸ hrank⟩
  · exact ⟨r', hload', hrank.trans hlt.le⟩

/-- The writes of the journal that a step makes. -/
theorem next_journal (protocol : Protocol) (s : Service) (step : Step) :
    ∃ ws, Steps GoodWrite s.journal ws ∧
      (next protocol s step).journal = applyAll ws s.journal := by
  cases step with
  | journal env c hc writes =>
    exact ⟨_, (journals_perform env c s.journal s.journal rfl).1.take writes, rfl⟩
  | persist env dispatch receipt =>
    exact ⟨_, (steps_effects protocol (.persistReceipt dispatch receipt) env s).1, rfl⟩
  | persistStopped env dispatch receipt => exact ⟨[], trivial, rfl⟩

/-- **The transition is made at most once.**  Of the steps of a run, one at most takes the record of
a dispatch to `RECEIPT_PERSISTED`. -/
theorem persisted_once (protocol : Protocol) (steps : List Step) (h : String) :
    Runs.occurrences (next protocol) (Enters h) ⟨∅, ∅⟩ steps ≤ 1 := by
  refine Runs.occurrences_le_one (I := fun _ => True) (p := fun s => Beyond h s.journal)
    (fun _ _ _ => trivial) (fun s step _ hbeyond => ?_) (fun s step _ henters => ?_) steps trivial
  · obtain ⟨ws, hgood, hjournal⟩ := next_journal protocol s step
    rw [hjournal]
    exact hbeyond.applyAll hgood
  · obtain ⟨hbefore, hafter⟩ := henters
    obtain ⟨r', hload', hstate'⟩ := stateOf_eq_some.mp hafter
    refine ⟨?_, r', hload', by rw [hstate']⟩
    rintro ⟨r, hload, hrank⟩
    -- The record was there, as far as the state that it has now, and in another one.
    obtain ⟨ws, hgood, hjournal⟩ := next_journal protocol s step
    obtain ⟨r₁, hload₁, hcase⟩ := rank_applyAll hgood hload
    rw [← hjournal] at hload₁
    obtain rfl : r' = r₁ := Option.some.inj (Except.ok.inj (hload'.symm.trans hload₁))
    rcases hcase with hsame | hlt
    · exact hbefore (stateOf_eq_some.mpr ⟨r, hload, hsame.symm.trans hstate'⟩)
    · rw [hstate'] at hlt
      omega

/-- A file that is there with its bytes is accepted, and nothing is written. -/
theorem persistExact_same {name : String} {encoded : List UInt8} {d : Directory}
    (hle : d.keys.length ≤ maxReceiptStoreEntries) (hfile : d.lookup name = some encoded) :
    persistExact name encoded d = ([], .ok true) := by
  have hmem : name ∈ d.keys := mem_keys_iff.mpr (by rw [hfile]; exact Option.some_ne_none _)
  have hnames : boundedReceiptEntryNames d = .ok d.keys :=
    boundedReceiptEntryNames_eq_ok.mpr ⟨hle, rfl⟩
  unfold persistExact
  refine (Action.bind_of_ok (show Action.directory d = ([], .ok d) from rfl)).trans ?_
  rw [List.nil_append, applyAll_nil]
  refine (Action.lift_bind_of_ok hnames d).trans ?_
  refine (Action.lift_bind_of_ok (a := ()) ?_ d).trans ?_
  · exact require_eq_ok.mpr fun hnew => hnew.1 hmem
  rw [hfile]
  refine (Action.lift_bind_of_ok (a := ()) (require_eq_ok.mpr rfl) d).trans ?_
  exact (Action.lift_bind_of_ok (a := ()) (require_eq_ok.mpr rfl) d).trans rfl

theorem keeps_foldl (protocol : Protocol) (steps : List Step) (s : Service) :
    Keeps s.journal (steps.foldl (next protocol) s).journal := by
  induction steps generalizing s with
  | nil => exact Keeps.refl _
  | cons step steps ih =>
    obtain ⟨ws, hgood, hjournal⟩ := next_journal protocol s step
    refine Keeps.trans ?_ (ih _)
    rw [hjournal]
    exact hgood.invariant (fun _ _ hd hw => hd.apply hw) (Keeps.refl _)

/-- A call with its receipt in the store makes the transition that is pending, and the next such
call writes nothing. -/
theorem repeated_persist {env₂ : Env} (h₂ : env₂.Valid) {dispatch receipt : Json} {s : Service}
    (hs : ServiceInv s) {r : JournalRecord} {encoded : List UInt8}
    (haccepted : Accepted protocol dispatch receipt s.journal r encoded)
    (hfile : s.receipts.lookup (receiptName r.dispatchEventHash) = some encoded) :
    ∃ updated, updated.state = receiptPersisted ∧ updated.identity = r.identity ∧
      (persistReceipt protocol env₂ dispatch receipt s).1.receipts = [] ∧
      (persistReceipt protocol env₂ dispatch receipt s).2 = .ok
        { record := updated
          path := receiptName r.dispatchEventHash
          sha256 := Hex.ofBytes (Sha256.digest encoded)
          idempotent := true } ∧
      ∀ env₃, persistReceipt protocol env₃ dispatch receipt
        (next protocol s (.persist env₂ dispatch receipt)) = (⟨[], []⟩,
          (persistReceipt protocol env₂ dispatch receipt s).2) := by
  obtain ⟨updated, hadvance, hstate, hload⟩ :=
    advance_returns h₂ hs.journal haccepted.loaded haccepted.state
  have hsame := persistExact_same hs.receipts hfile
  have hexact :
      (persistExact (receiptName r.dispatchEventHash) encoded s.receipts).2 = .ok true := by
    rw [hsame]
  have hcall := persistReceipt_eq haccepted hexact hadvance
  -- Whether the transition is made now or was made before, the record is the same.
  have hidentity : updated.identity = r.identity := by
    rcases advance_eq_ok haccepted.loaded hadvance with ⟨-, rfl, -⟩ | ⟨-, -, hidentity, -⟩
    · rfl
    · exact hidentity
  have hhash : updated.dispatchEventHash = r.dispatchEventHash :=
    congrArg Identity.dispatchEventHash hidentity
  refine ⟨updated, hstate, hidentity, ?_, congrArg Prod.snd hcall, fun env₃ => ?_⟩
  · rw [hcall]
    exact congrArg Prod.fst hsame
  · -- The repeated call finds the receipt and the transition.
    have hnext : next protocol s (.persist env₂ dispatch receipt) =
        ⟨applyAll (advance env₂ r s.journal).1 s.journal, s.receipts⟩ := by
      show (persistReceipt protocol env₂ dispatch receipt s).1.apply s = _
      rw [hcall, hsame]
      rfl
    have haccepted' : Accepted protocol dispatch receipt
        (applyAll (advance env₂ r s.journal).1 s.journal) updated encoded :=
      ⟨hidentity ▸ haccepted.request, haccepted.document, hhash ▸ hload, .inr hstate⟩
    have hadvance' : advance env₃ updated (applyAll (advance env₂ r s.journal).1 s.journal) =
        ([], .ok updated) := by
      unfold advance
      rw [if_neg (by rw [hstate]; decide)]
      rfl
    have hsame' : persistExact (receiptName updated.dispatchEventHash) encoded s.receipts =
        ([], .ok true) := by
      rw [hhash]
      exact hsame
    rw [hnext, persistReceipt_eq (s := ⟨applyAll (advance env₂ r s.journal).1 s.journal,
      s.receipts⟩) haccepted' (congrArg Prod.snd hsame') (congrArg Prod.snd hadvance'), hcall]
    rw [hsame', hadvance', hhash]

/-- **A call that was stopped is completed by its repetition**, whatever has happened since, as long
as the record has not left the two states: the transition is made, the receipt is the same, and a
further call writes nothing and returns the same. -/
theorem stopped_call_completes (protocol : Protocol) (steps later : List Step) {env env₂ : Env}
    (h₂ : env₂.Valid) {dispatch receipt : Json} {result : PersistedReceipt} {s : Service}
    (hreturns : (persistReceipt protocol env dispatch receipt (run protocol steps)).2 = .ok result)
    (hs : s = run protocol (steps ++ .persistStopped env dispatch receipt :: later))
    (hstate : stateOf s result.record.dispatchEventHash ∈
      [some cleanupAcked, some receiptPersisted]) :
    ∃ again, (persistReceipt protocol env₂ dispatch receipt s).2 = .ok again ∧
      again.record.state = receiptPersisted ∧ again.record.identity = result.record.identity ∧
      again.sha256 = result.sha256 ∧ again.idempotent = true ∧
      (persistReceipt protocol env₂ dispatch receipt s).1.receipts = [] ∧
      ∀ env₃, persistReceipt protocol env₃ dispatch receipt
        (next protocol s (.persist env₂ dispatch receipt)) = (⟨[], []⟩, .ok again) := by
  have hinv := runInv_run protocol (steps ++ .persistStopped env dispatch receipt :: later)
  rw [← hs] at hinv
  obtain ⟨record, encoded, b, updated, haccepted, hexact, hadvance⟩ := persistReceipt_eq_ok hreturns
  have hcall := persistReceipt_eq haccepted hexact hadvance
  rw [hcall] at hreturns
  obtain rfl := Except.ok.inj hreturns
  have hidentity : updated.identity = record.identity := by
    rcases advance_eq_ok haccepted.loaded hadvance with ⟨-, rfl, -⟩ | ⟨-, -, hidentity, -⟩
    · rfl
    · exact hidentity
  have hhash : updated.dispatchEventHash = record.dispatchEventHash :=
    congrArg Identity.dispatchEventHash hidentity
  -- The state after the stopped call: the receipt is complete, the journal as it was.
  have hstopped : next protocol (run protocol steps) (.persistStopped env dispatch receipt) =
      ⟨(run protocol steps).journal, applyAll (persistExact (receiptName record.dispatchEventHash)
        encoded (run protocol steps).receipts).1 (run protocol steps).receipts⟩ := by
    show (⟨_, applyAll (persistReceipt protocol env dispatch receipt _).1.receipts _⟩ : Service) = _
    rw [hcall]
  have hlater : s = later.foldl (next protocol)
      (next protocol (run protocol steps) (.persistStopped env dispatch receipt)) := by
    rw [hs, run_append]
    rfl
  have hrun := ((runInv_run protocol steps).next (.persistStopped env dispatch receipt)).1
  have hkept := kept_foldl hrun later
  have hkeeps := keeps_foldl protocol later
    (next protocol (run protocol steps) (.persistStopped env dispatch receipt))
  rw [← hlater, hstopped] at hkept hkeeps
  have hfile := hkept _ _ (lookup_persistExact hexact).1
  obtain ⟨r, hload, hsame⟩ := hkeeps _ _ haccepted.loaded
  have hrhash : r.dispatchEventHash = record.dispatchEventHash :=
    congrArg Identity.dispatchEventHash hsame
  have hready : r.state = cleanupAcked ∨ r.state = receiptPersisted := by
    have hfound : stateOf s updated.dispatchEventHash = some r.state :=
      stateOf_eq_some.mpr ⟨r, hhash ▸ hload, rfl⟩
    rw [hfound] at hstate
    simpa using hstate
  have haccepted₂ : Accepted protocol dispatch receipt s.journal r encoded :=
    ⟨hsame ▸ haccepted.request, haccepted.document, hrhash ▸ hload, hready⟩
  obtain ⟨updated₂, hstate₂, hidentity₂, hnothing, hok, hrepeat⟩ :=
    repeated_persist h₂ hinv.service haccepted₂ (hrhash ▸ hfile)
  exact ⟨_, hok, hstate₂, (hidentity₂.trans hsame).trans hidentity.symm, rfl, rfl, hnothing,
    fun env₃ => (hrepeat env₃).trans (by rw [hok])⟩

/-! ## An example -/

/-- A transition of the first record, which has this revision. -/
def firstStep (revision : ℤ) (newState : JournalState) (hother : newState ≠ receiptPersisted) :
    Step :=
  .journal stillEnv
    (.transition firstIdentity.dispatchEventHash newState (some revision) none none) hother 1

/-- The first record is in a state, without a failure. -/
def AtState (s : Service) (state : JournalState) (revision : ℤ) : Prop :=
  ∃ r, load s.journal firstIdentity.dispatchEventHash = .ok (some r) ∧
    r.identity = firstIdentity ∧ r.state = state ∧ r.revision = revision ∧ r.failureCode = none

theorem AtState.step {steps : List Step} {state : JournalState} {revision : ℤ}
    (hs : AtState (run firstProtocol steps) state revision) (newState : JournalState)
    (hallowed : newState ∈ allowedTransitions state)
    (hnormal : newState ∉ [failed, crashAborted, failedCleanupRequired, quarantined])
    (hother : newState ≠ receiptPersisted) :
    AtState (run firstProtocol (steps ++ [firstStep revision newState hother])) newState
      (revision + 1) := by
  obtain ⟨r, hload, hidentity, rfl, rfl, hfailure⟩ := hs
  have hhash : r.dispatchEventHash = firstIdentity.dispatchEventHash :=
    congrArg Identity.dispatchEventHash hidentity
  rw [← hhash] at hload
  obtain ⟨u, hok, hstate, hload'⟩ := returns_transition valid_stillEnv
    ⟨hallowed, hnormal, .inr hfailure⟩ _ ⟨(runInv_run firstProtocol steps).service.journal, hload⟩
  obtain ⟨current, hcurrent, hnext, -, hwrites⟩ := transition_eq_ok hok
  obtain rfl : r = current := Option.some.inj (Except.ok.inj (hload.symm.trans hcurrent))
  obtain ⟨-, -, hsame, hrevision, -⟩ := nextRecord_eq_ok hnext
  obtain ⟨now, -, hvalidate⟩ := bind_eq_ok.mp hnext
  have hkept : u.failureCode = none := by
    rw [eq_of_validateRecord_asDict hvalidate]
    exact hfailure
  refine ⟨u, ?_, hsame.trans hidentity, hstate, hrevision, hkept⟩
  have hjournal : (run firstProtocol (steps ++ [firstStep r.revision newState hother])).journal =
      applyAll (transition stillEnv r.dispatchEventHash newState (some r.revision) none none
        (run firstProtocol steps).journal).1 (run firstProtocol steps).journal := by
    rw [run_append, hhash]
    refine congrArg (applyAll · _) ((congrArg (List.take 1)
      (Action.fst_bind_pure _ (fun _ => none) _)).trans (List.take_of_length_le ?_))
    rw [← hhash, hwrites]
    exact le_refl 1
  rw [hjournal, ← hhash]
  exact hload'

theorem journal_run_claim (protocol : Protocol) (env : Env) (i : Identity) (writes : ℕ) :
    (run protocol [.journal env (.claimDispatch i) trivial writes]).journal =
      applyAll ((claimDispatch env i ∅).1.take writes) ∅ :=
  congrArg (fun ws => applyAll (List.take writes ws) ∅) (Action.fst_bind_pure _ some ∅)

/-- The first claim stops after the record. -/
def claimStep : Step := .journal stillEnv (.claimDispatch firstIdentity) trivial 1

theorem atState_claimStep : AtState (run firstProtocol [claimStep]) requested 0 := by
  obtain ⟨claim, hclaim⟩ := returns_firstClaim
  obtain ⟨hclaimable, ⟨r, hload, -⟩ | ⟨now, rest, hnow, hws⟩⟩ := claimDispatch_eq_ok hclaim
  · obtain ⟨-, raw, hraw, -⟩ := load_eq_ok_some hload
    cases hraw
  · have hvalid := valid_requestedRecord hclaimable.valid hnow
    refine ⟨requestedRecord firstIdentity now, ?_, rfl, rfl, rfl, rfl⟩
    rw [claimStep, journal_run_claim, hws, List.take_succ_cons, List.take_zero, applyAll_cons,
      applyAll_nil]
    exact load_apply_record (r := requestedRecord firstIdentity now) rfl rfl hvalid
      (length_bytes_le (rules_of_valid hvalid) rfl)

/-- The first record on its way to the cleanup. -/
def cleanupSteps : List Step :=
  [claimStep] ++ [firstStep 0 claimed (by decide)] ++ [firstStep 1 sourceVerified (by decide)] ++
    [firstStep 2 snapshotAcquired (by decide)] ++ [firstStep 3 executing (by decide)] ++
    [firstStep 4 executionSealed (by decide)] ++ [firstStep 5 releasePending (by decide)] ++
    [firstStep 6 cleanupAcked (by decide)]

theorem atState_cleanupSteps : AtState (run firstProtocol cleanupSteps) cleanupAcked 7 := by
  have h₁ := atState_claimStep.step claimed (by decide) (by decide) (by decide)
  have h₂ := h₁.step sourceVerified (by decide) (by decide) (by decide)
  have h₃ := h₂.step snapshotAcquired (by decide) (by decide) (by decide)
  have h₄ := h₃.step executing (by decide) (by decide) (by decide)
  have h₅ := h₄.step executionSealed (by decide) (by decide) (by decide)
  have h₆ := h₅.step releasePending (by decide) (by decide) (by decide)
  exact h₆.step cleanupAcked (by decide) (by decide) (by decide)

/-- The dispatch and the receipt that the example accepts. -/
def firstDispatch : Json := .obj [("attempt", .int 1)]

def firstReceipt : Json := .obj [("sealed_at", .int 5)]

/-- The receipt can be persisted. -/
theorem returns_firstReceipt : ∃ result,
    (persistReceipt firstProtocol stillEnv firstDispatch firstReceipt
      (run firstProtocol cleanupSteps)).2 = .ok result ∧
      result.record.identity = firstIdentity := by
  obtain ⟨r, hload, hidentity, hstate, -, -⟩ := atState_cleanupSteps
  have hhash : r.dispatchEventHash = firstIdentity.dispatchEventHash :=
    congrArg Identity.dispatchEventHash hidentity
  rw [← hhash] at hload
  have hservice := (runInv_run firstProtocol cleanupSteps).service
  obtain ⟨updated, hadvance, -, -⟩ :=
    advance_returns valid_stillEnv hservice.journal hload (.inl hstate)
  have hempty : (run firstProtocol cleanupSteps).receipts = ∅ := rfl
  have hexact : ∃ b, (persistExact (receiptName r.dispatchEventHash) firstReceipt.encoding
      (run firstProtocol cleanupSteps).receipts).2 = .ok b := by
    refine (persistExact_returns ?_).imp fun b h => h.1
    rw [hempty]
    exact ⟨Nat.zero_le _, .inl ⟨rfl, Nat.succ_pos _⟩⟩
  obtain ⟨b, hexact⟩ := hexact
  have hdispatch : firstProtocol.validateDispatch firstDispatch = .ok r.identity := by
    rw [hidentity]
    simp only [firstProtocol, firstDispatch, if_true]
  have hreceipt : firstProtocol.verifyReceipt firstReceipt firstDispatch = .ok firstReceipt := by
    simp only [firstProtocol, firstReceipt, if_true]
  have haccepted : Accepted firstProtocol firstDispatch firstReceipt
      (run firstProtocol cleanupSteps).journal r firstReceipt.encoding :=
    ⟨hdispatch, ⟨firstReceipt, hreceipt, Json.boundedEncoding_eq_ok.mpr ⟨by decide, rfl⟩⟩, hload,
      .inl hstate⟩
  refine ⟨_, congrArg Prod.snd (persistReceipt_eq haccepted hexact hadvance), ?_⟩
  rcases advance_eq_ok hload hadvance with ⟨-, rfl, -⟩ | ⟨-, -, hsame, -⟩
  · exact hidentity
  · exact hsame.trans hidentity

/-- The call is stopped, and its repetition completes it. -/
theorem stopped_call_completes_first : ∃ result again,
    (persistReceipt firstProtocol stillEnv firstDispatch firstReceipt
      (run firstProtocol cleanupSteps)).2 = .ok result ∧
    (persistReceipt firstProtocol stillEnv firstDispatch firstReceipt
      (run firstProtocol (cleanupSteps ++
        [.persistStopped stillEnv firstDispatch firstReceipt]))).2 = .ok again ∧
    again.record.state = receiptPersisted ∧ again.sha256 = result.sha256 := by
  obtain ⟨result, hresult, hidentity⟩ := returns_firstReceipt
  obtain ⟨r, hload, -, hstate, -⟩ := atState_cleanupSteps
  have hhash : result.record.dispatchEventHash = firstIdentity.dispatchEventHash :=
    congrArg Identity.dispatchEventHash hidentity
  have hwaits : stateOf (run firstProtocol (cleanupSteps ++
      [.persistStopped stillEnv firstDispatch firstReceipt])) result.record.dispatchEventHash ∈
        [some cleanupAcked, some receiptPersisted] := by
    rw [hhash, run_append, List.foldl_cons, List.foldl_nil, stateOf_persistStopped,
      stateOf_eq_some.mpr ⟨r, hload, hstate⟩]
    exact List.mem_cons_self
  obtain ⟨again, hok, hpersisted, -, hsame, -⟩ := stopped_call_completes firstProtocol cleanupSteps
    [] valid_stillEnv hresult rfl hwaits
  exact ⟨result, again, hresult, hok, hpersisted, hsame⟩

end ReceiptRuns
