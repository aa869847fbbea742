/-
# The ledger file

`Ledger.read`, `append`, `_verify_events`, `verify` and `read_verified` of
`ledger.py` over the bytes of `events.jsonl`.  `append` prints one event a line
with its text unescaped and ends the line with LF; `read` cuts the text with
`str.splitlines`, which also cuts at U+0085, U+2028 and U+2029.

* `read_fileOf` : the file of events without those three characters reads back;
* `read_fileOf_break` : one event with such a character makes the file unreadable;
* `readsBack_iff` : when a run of appends can be read back.
-/
import CogniOS.LedgerEvent
import CogniOS.TextLines

namespace Ledger

/-- Why a call raises; `message` is the text of the exception. -/
inductive Failure
  | unicode
  | malformed (line : ℕ)
  | notObject (line : ℕ)
  | sequenceMismatch (event : ℕ)
  | chainMismatch (event : ℕ)
  | hashMismatch (event : ℕ)
  | signatureMismatch (event : ℕ)
  deriving DecidableEq

/-- The message of the exception, without the detail that a decoder appends. -/
def Failure.message : Failure → String
  | .unicode => "UnicodeDecodeError"
  | .malformed line => s!"Malformed ledger JSON at line {line}"
  | .notObject line => s!"Ledger line {line} is not an object"
  | .sequenceMismatch event => s!"Ledger sequence mismatch at event {event}"
  | .chainMismatch event => s!"Ledger chain mismatch at event {event}"
  | .hashMismatch event => s!"Ledger event hash mismatch at event {event}"
  | .signatureMismatch event => s!"Ledger signature mismatch at event {event}"

/-! ## Reading -/

/-- The events of the lines from line `n` on; blank lines are skipped. -/
def readLines : ℕ → List (List Char) → Except Failure (List Json)
  | _, [] => .ok []
  | n, line :: lines =>
      if TextLines.isBlank line then readLines (n + 1) lines
      else
        match Json.loads Json.lastWins line with
        | none => .error (.malformed n)
        | some event =>
            if event.isObj then
              match readLines (n + 1) lines with
              | .ok events => .ok (event :: events)
              | .error e => .error e
            else .error (.notObject n)

/-- `Ledger.read`. -/
def read (file : List UInt8) : Except Failure (List Json) :=
  match Utf8.decode file with
  | none => .error .unicode
  | some text => readLines 1 (TextLines.splitlines (TextLines.universalNewlines text))

/-- `str` of a value, as far as a text of hexadecimal digits can be one. -/
def strOf : Json → String
  | .str s => s
  | .int n => String.ofList (JsonNumber.intText n)
  | _ => ""

/-- `str(event.get(key, ""))`. -/
def getStr (event : Json) (key : String) : String := (event.get? key).elim "" strOf

/-- The hashed part of an event that was read. -/
def coreOf (event : Json) : Json :=
  coreJson (event.get "sequence") (event.get "timestamp") (event.get "actor")
    (event.get "action") (event.get "task_id") (event.get "payload") (event.get "previous_hash")

/-- `_verify_events` from event `n` on; the result is the head hash. -/
def verifyEvents (s : Signer) : ℕ → String → List Json → Except Failure String
  | _, previousHash, [] => .ok previousHash
  | n, previousHash, event :: events =>
      if event.get "sequence" ≠ .int n then .error (.sequenceMismatch n)
      else if event.get "previous_hash" ≠ .str previousHash then .error (.chainMismatch n)
      else if coreHash s (coreOf event) ≠ getStr event "event_hash" then
        .error (.hashMismatch n)
      else if signHash s (coreHash s (coreOf event)) ≠ getStr event "signature" then
        .error (.signatureMismatch n)
      else verifyEvents s (n + 1) (coreHash s (coreOf event)) events

/-- `Ledger.verify`: the number of events and the head hash. -/
def verify (s : Signer) (file : List UInt8) : Except Failure (ℕ × String) := do
  let events ← read file
  let head ← verifyEvents s 1 genesisHash events
  return (events.length, head)

/-- `Ledger.read_verified`. -/
def readVerified (s : Signer) (file : List UInt8) : Except Failure (List Json) := do
  let events ← read file
  let _ ← verifyEvents s 1 genesisHash events
  return events

/-- `Ledger.projected_tasks` over the events that were read. -/
def projectedTasks (events : List Json) : AList fun _ : String => Json :=
  events.foldl (fun tasks event =>
    let snapshot := ((event.get? "payload").getD (.obj [])).get "task"
    match event.get "task_id" with
    | .str id => if id ≠ "" ∧ snapshot.isObj = true then tasks.insert id snapshot else tasks
    | _ => tasks) ∅

/-! ## Appending -/

/-- The line of an event: `json.dumps(event, ensure_ascii=False, sort_keys=True)`
and LF, in UTF-8. -/
def lineOf (event : Json) : List UInt8 := Utf8.encode (event.dumps 1 ++ ['\n'])

/-- `Ledger.append`: the event that is returned and the file afterwards. -/
def append (s : Signer) (r : Request) (file : List UInt8) :
    Except Failure (Json × List UInt8) := do
  let events ← read file
  let _ ← verifyEvents s 1 genesisHash events
  let previousHash := match events.getLast? with
    | some e => e.get "event_hash"
    | none => .str genesisHash
  let core := coreJson (.int (events.length + 1 : ℕ)) (.str r.timestamp.text) (.str r.actor)
    (.str r.action) (taskIdJson r.taskId) (.obj r.payload) previousHash
  let event : Json := .obj [
    ("action", .str r.action),
    ("actor", .str r.actor),
    ("event_hash", .str (coreHash s core)),
    ("payload", .obj r.payload),
    ("previous_hash", previousHash),
    ("sequence", .int (events.length + 1 : ℕ)),
    ("signature", .str (signHash s (coreHash s core))),
    ("task_id", taskIdJson r.taskId),
    ("timestamp", .str r.timestamp.text)]
  return (event, file ++ lineOf event)

/-- A run of appends: the events returned and the file afterwards. -/
def appendAll (s : Signer) : List Request → List UInt8 → Except Failure (List Json × List UInt8)
  | [], file => .ok ([], file)
  | r :: rs, file => do
      let (event, file) ← append s r file
      let (events, file) ← appendAll s rs file
      return (event :: events, file)

/-! ## Verified events -/

/-- The file that holds the given events. -/
def fileOf (events : List Event) : List UInt8 := events.flatMap fun e => lineOf e.toJson

theorem fileOf_append (events : List Event) (e : Event) :
    fileOf (events ++ [e]) = fileOf events ++ lineOf e.toJson := by
  simp [fileOf]

theorem coreOf_toJson (e : Event) : coreOf e.toJson = e.core := rfl

/-- Events signed one after another from event `n` and the hash `previous` on. -/
def Linked (s : Signer) : ℕ → String → List Event → Prop
  | _, _, [] => True
  | n, previous, e :: events =>
      e.sequence = n ∧ e.previousHash = previous ∧ e.eventHash = coreHash s e.core ∧
        e.signature = signHash s e.eventHash ∧ Linked s (n + 1) e.eventHash events

/-- The last hash of a list of events. -/
def lastHash (previous : String) (events : List Event) : String :=
  match events.getLast? with
  | some e => e.eventHash
  | none => previous

theorem lastHash_cons (previous : String) (e : Event) (events : List Event) :
    lastHash previous (e :: events) = lastHash e.eventHash events := by
  unfold lastHash
  rw [List.getLast?_cons]
  cases events.getLast? <;> rfl

theorem linked_append (s : Signer) (n : ℕ) (previous : String) (events : List Event) (e : Event)
    (h : Linked s n previous events) (hseq : e.sequence = n + events.length)
    (hprev : e.previousHash = lastHash previous events) (hhash : e.eventHash = coreHash s e.core)
    (hsig : e.signature = signHash s e.eventHash) : Linked s n previous (events ++ [e]) := by
  induction events generalizing n previous with
  | nil => exact ⟨by simpa using hseq, by simpa [lastHash] using hprev, hhash, hsig, trivial⟩
  | cons f events ih =>
    obtain ⟨h1, h2, h3, h4, h5⟩ := h
    refine ⟨h1, h2, h3, h4, ih (n + 1) f.eventHash h5 ?_ ?_⟩
    · rw [hseq, List.length_cons]; omega
    · rw [hprev, lastHash_cons]

theorem Chain.linked {s : Signer} {events : List Event} (h : Chain s events) :
    Linked s 1 genesisHash events := by
  induction h with
  | nil => trivial
  | append r _ ih =>
    exact linked_append s 1 genesisHash _ _ ih (by rw [mkEvent_sequence]; omega) rfl rfl rfl

/-- `_verify_events` accepts linked events and returns the last hash. -/
theorem verifyEvents_linked (s : Signer) (n : ℕ) (previous : String) (events : List Event)
    (h : Linked s n previous events) :
    verifyEvents s n previous (events.map Event.toJson) = .ok (lastHash previous events) := by
  induction events generalizing n previous with
  | nil => rfl
  | cons e events ih =>
    obtain ⟨h1, h2, h3, h4, h5⟩ := h
    rw [List.map_cons, verifyEvents, coreOf_toJson, ← h3, ← h4, lastHash_cons]
    have hseq : e.toJson.get "sequence" = .int n := by rw [← h1]; rfl
    have hprev : e.toJson.get "previous_hash" = .str previous := by rw [← h2]; rfl
    have hhash : e.eventHash = getStr e.toJson "event_hash" := rfl
    have hsig : e.signature = getStr e.toJson "signature" := rfl
    rw [if_neg (not_not.mpr hseq), if_neg (not_not.mpr hprev), if_neg (not_not.mpr hhash),
      if_neg (not_not.mpr hsig), ih _ _ h5]

/-! ## Reading back -/

/-- The line of an event can be read back: its dictionaries are dictionaries and no
line boundary is inside it. -/
def Readable (e : Event) : Prop :=
  e.toJson.WellFormed ∧ ∀ c ∈ e.toJson.dumps 1, TextLines.isLineBreak c = false

/-- The text of the file that holds the given events. -/
def textOf (events : List Event) : List Char :=
  events.flatMap fun e => e.toJson.dumps 1 ++ ['\n']

theorem fileOf_eq_encode (events : List Event) : fileOf events = Utf8.encode (textOf events) := by
  induction events with
  | nil => rfl
  | cons e events ih =>
    rw [fileOf, textOf, List.flatMap_cons, List.flatMap_cons, Utf8.encode_append]
    exact congrArg _ ih

theorem notMem_cr_textOf (events : List Event) : '\r' ∉ textOf events := by
  intro h
  obtain ⟨e, -, hmem⟩ := List.mem_flatMap.mp h
  rcases List.mem_append.mp hmem with hmem | hmem
  · exact absurd (Json.toNat_of_mem_dumps hmem) (by decide)
  · exact absurd hmem (by decide)

theorem read_eq_readLines (events : List Event) :
    read (fileOf events) = readLines 1 (TextLines.splitlines (textOf events)) := by
  rw [read, fileOf_eq_encode, Utf8.decode_encode]
  simp only [TextLines.universalNewlines_of_notMem (notMem_cr_textOf events)]

theorem dumps_toJson_eq (e : Event) : ∃ rest, e.toJson.dumps 1 = '{' :: rest := ⟨_, rfl⟩

theorem isBlank_brace (rest : List Char) : TextLines.isBlank ('{' :: rest) = false := by
  rw [TextLines.isBlank, List.all_cons, show TextLines.isSpace '{' = false by decide,
    Bool.false_and]

/-- A readable line is one event in front of the events of the other lines. -/
theorem readLines_cons (n : ℕ) (e : Event) (he : Readable e) (rest : List Char) :
    readLines n (TextLines.splitlines (e.toJson.dumps 1 ++ '\n' :: rest)) =
      match readLines (n + 1) (TextLines.splitlines rest) with
      | .ok events => .ok (e.toJson :: events)
      | .error f => .error f := by
  obtain ⟨tail, htail⟩ := dumps_toJson_eq e
  have hload := Json.loads_dumps Json.keepsSorted_lastWins 1 e.toJson he.1
  rw [TextLines.splitlines_append he.2 (by decide) (by decide), readLines, hload]
  rw [htail, isBlank_brace]
  rfl

theorem readLines_textOf (n : ℕ) (events : List Event) (h : ∀ e ∈ events, Readable e)
    (rest : List Char) :
    readLines n (TextLines.splitlines (textOf events ++ rest)) =
      match readLines (n + events.length) (TextLines.splitlines rest) with
      | .ok tail => .ok (events.map Event.toJson ++ tail)
      | .error f => .error f := by
  induction events generalizing n with
  | nil =>
    simp only [textOf, List.flatMap_nil, List.nil_append, List.length_nil, Nat.add_zero,
      List.map_nil]
    cases readLines n (TextLines.splitlines rest) <;> rfl
  | cons e events ih =>
    have htext : textOf (e :: events) ++ rest = e.toJson.dumps 1 ++ '\n' :: (textOf events ++ rest) := by
      simp [textOf]
    rw [htext, readLines_cons n e (h e List.mem_cons_self),
      ih (n + 1) fun f hf => h f (List.mem_cons_of_mem _ hf), List.length_cons,
      show n + (events.length + 1) = n + 1 + events.length by omega]
    cases readLines (n + 1 + events.length) (TextLines.splitlines rest) <;> rfl

/-- **A file of readable events reads back as these events.** -/
theorem read_fileOf (events : List Event) (h : ∀ e ∈ events, Readable e) :
    read (fileOf events) = .ok (events.map Event.toJson) := by
  rw [read_eq_readLines, ← List.append_nil (textOf events), readLines_textOf 1 events h]
  simp [TextLines.splitlines, readLines]

/-- The text before the first line boundary. -/
theorem exists_first_break {cs : List Char} {c : Char} (hc : c ∈ cs)
    (hb : TextLines.isLineBreak c = true) :
    ∃ p b q, cs = p ++ b :: q ∧ (∀ d ∈ p, TextLines.isLineBreak d = false) ∧
      TextLines.isLineBreak b = true := by
  induction cs with
  | nil => cases hc
  | cons d cs ih =>
    by_cases hd : TextLines.isLineBreak d
    · exact ⟨[], d, cs, rfl, by simp, hd⟩
    · have hmem : c ∈ cs := by
        rcases List.mem_cons.mp hc with rfl | hmem
        · exact absurd hb hd
        · exact hmem
      obtain ⟨p, b, q, rfl, hp, hb'⟩ := ih hmem
      refine ⟨d :: p, b, q, rfl, ?_, hb'⟩
      intro x hx
      rcases List.mem_cons.mp hx with rfl | hx
      · simpa using hd
      · exact hp x hx

/-- **One event with a line boundary inside makes the file unreadable**, whatever
readable events precede it. -/
theorem read_fileOf_break (events : List Event) (h : ∀ e ∈ events, Readable e) (e : Event)
    (hw : e.toJson.WellFormed) {c : Char} (hc : c ∈ e.toJson.dumps 1)
    (hb : TextLines.isLineBreak c = true) :
    read (fileOf (events ++ [e])) = .error (.malformed (events.length + 1)) := by
  obtain ⟨p, b, q, hsplit, hp, hbreak⟩ := exists_first_break hc hb
  obtain ⟨tail, htail⟩ := dumps_toJson_eq e
  have hpne : p ≠ [] := by
    rintro rfl
    rw [htail] at hsplit
    obtain rfl : '{' = b := by simpa using (List.cons.inj hsplit).1
    exact absurd hbreak (by decide)
  have hcr : b ≠ '\r' := by
    rintro rfl
    have hmem : '\r' ∈ e.toJson.dumps 1 := by rw [hsplit]; simp
    exact absurd (Json.toNat_of_mem_dumps hmem) (by decide)
  have hload : Json.loads Json.lastWins p = none :=
    Json.loads_prefix_dumps Json.keepsSorted_lastWins 1 _ hw hsplit.symm hpne (by simp)
  have htext : textOf (events ++ [e]) = textOf events ++ (p ++ b :: (q ++ ['\n'])) := by
    rw [textOf, List.flatMap_append, List.flatMap_singleton, hsplit]
    simp [textOf]
  have hblank : TextLines.isBlank p = false := by
    obtain ⟨d, p, rfl⟩ := List.exists_cons_of_ne_nil hpne
    rw [htail] at hsplit
    obtain rfl : '{' = d := (List.cons.inj hsplit).1
    exact isBlank_brace p
  rw [read_eq_readLines, htext, readLines_textOf 1 events h, TextLines.splitlines_append hp hbreak hcr,
    readLines, hblank, hload]
  simp [Nat.add_comm]

/-! ## Which requests can be read back -/

/-- The payload of a request is a dictionary, and so is every object in it. -/
structure DictRequest extends Request where
  wellFormed : (Json.obj payload).WellFormed

/-- The strings that a caller puts into an event. -/
def Request.strings (r : Request) : List String :=
  r.actor :: r.action :: (r.taskId.toList ++ (Json.obj r.payload).strings)

/-- No string of the request has NEXT LINE, LINE SEPARATOR or PARAGRAPH SEPARATOR
in it. -/
def Request.NoLineBreak (r : Request) : Prop :=
  ∀ str ∈ r.strings, ∀ c ∈ str.toList, c ≠ '\u0085' ∧ c ≠ '\u2028' ∧ c ≠ '\u2029'

instance (r : Request) : Decidable r.NoLineBreak :=
  decidable_of_iff (r.strings.all fun str => str.toList.all fun c =>
    c ≠ '\u0085' ∧ c ≠ '\u2028' ∧ c ≠ '\u2029') (by simp [Request.NoLineBreak])

/-- Of the line boundaries, the printer leaves only three unescaped. -/
theorem isLineBreak_iff {c : Char} (hc : 0x20 ≤ c.toNat) :
    TextLines.isLineBreak c = true ↔ c = '\u0085' ∨ c = '\u2028' ∨ c = '\u2029' := by
  have hlow : ∀ d : Char, d.toNat < 0x20 → c ≠ d := by rintro d hd rfl; omega
  simp [TextLines.isLineBreak, hlow '\n' (by decide), hlow '\r' (by decide),
    hlow '\x0b' (by decide), hlow '\x0c' (by decide), hlow '\x1c' (by decide),
    hlow '\x1d' (by decide), hlow '\x1e' (by decide)]

theorem isAscii_genesisHash : isAscii genesisHash = true := by decide

theorem Chain.isAscii_eventHash {s : Signer} {events : List Event} (h : Chain s events) :
    ∀ e ∈ events, isAscii e.eventHash = true := by
  induction h with
  | nil => simp
  | append r _ ih =>
    intro e he
    rcases List.mem_append.mp he with he | he
    · exact ih e he
    · obtain rfl := List.mem_singleton.mp he
      exact isAscii_hexdigest _ _

theorem Chain.isAscii_headHash {s : Signer} {events : List Event} (h : Chain s events) :
    isAscii (headHash events) = true := by
  unfold headHash
  cases hlast : events.getLast? with
  | none => exact isAscii_genesisHash
  | some e => exact h.isAscii_eventHash e (List.mem_of_getLast? hlast)

theorem strings_taskIdJson (id : Option String) : (taskIdJson id).strings = id.toList := by
  cases id <;> rfl

/-- The strings of an event: its keys, its hashes, its timestamp and what the caller
put into it. -/
theorem strings_toJson (e : Event) : e.toJson.strings =
    ["action", e.action, "actor", e.actor, "event_hash", e.eventHash, "payload"] ++
      (e.payload.strings ++ (["previous_hash", e.previousHash, "sequence", "signature", e.signature,
        "task_id"] ++ (e.taskId.toList ++ ["timestamp", e.timestamp]))) := by
  simp [Event.toJson, Json.strings, Json.stringsFields, strings_taskIdJson]

/-- Beyond the strings of the request, an event has ASCII strings only. -/
theorem strings_mkEvent {s : Signer} {events : List Event} (h : Chain s events) (r : Request) :
    ∀ str ∈ (mkEvent s events r).toJson.strings, isAscii str = true ∨ str ∈ r.strings := by
  intro str hstr
  rw [strings_toJson] at hstr
  simp only [List.mem_append, List.mem_cons, List.not_mem_nil, or_false] at hstr
  obtain (rfl | rfl | rfl | rfl | rfl | rfl | rfl) | hstr |
    (rfl | rfl | rfl | rfl | rfl | rfl) | hstr | rfl | rfl := hstr
  · exact .inl (by decide)
  · exact .inr (by simp [Request.strings, mkEvent])
  · exact .inl (by decide)
  · exact .inr (by simp [Request.strings, mkEvent])
  · exact .inl (by decide)
  · exact .inl (isAscii_hexdigest _ _)
  · exact .inl (by decide)
  · exact .inr (by simp [Request.strings, show str ∈ (Json.obj r.payload).strings from hstr])
  · exact .inl (by decide)
  · exact .inl h.isAscii_headHash
  · exact .inl (by decide)
  · exact .inl (by decide)
  · exact .inl (isAscii_hexdigest _ _)
  · exact .inl (by decide)
  · exact .inr (by simp [Request.strings, show str ∈ r.taskId.toList from hstr])
  · exact .inl (by decide)
  · exact .inl r.timestamp.ascii

theorem strings_subset_mkEvent (s : Signer) (events : List Event) (r : Request) :
    r.strings ⊆ (mkEvent s events r).toJson.strings := by
  intro str hstr
  rw [strings_toJson]
  simp only [Request.strings, List.mem_cons, List.mem_append] at hstr
  obtain rfl | rfl | hstr | hstr := hstr
  · simp [mkEvent]
  · simp [mkEvent]
  · simp [mkEvent, hstr]
  · simp [mkEvent, hstr]

theorem wellFormed_toJson (e : Event) (h : e.payload.WellFormed) : e.toJson.WellFormed := by
  have hid : (taskIdJson e.taskId).WellFormed := by cases e.taskId <;> trivial
  have hkeys : ["action", "actor", "event_hash", "payload", "previous_hash", "sequence",
      "signature", "task_id", "timestamp"].Pairwise (· < ·) := by decide
  refine ⟨Json.keySorted_iff.mpr hkeys, ?_⟩
  simp [Json.WellFormedFields, Json.WellFormed, h, hid]

/-- An event is on one line exactly when the request has none of the three characters. -/
theorem readable_mkEvent_iff {s : Signer} {events : List Event} (h : Chain s events)
    (r : DictRequest) : Readable (mkEvent s events r.toRequest) ↔ r.NoLineBreak := by
  constructor
  · rintro ⟨-, hbreak⟩ str hstr c hc
    by_contra hcon
    have hcon' : c = '\u0085' ∨ c = '\u2028' ∨ c = '\u2029' := by tauto
    have hge : 0x7f ≤ c.toNat := by obtain rfl | rfl | rfl := hcon' <;> decide
    have hmem := (Json.mem_dumps_iff 1 (mkEvent s events r.toRequest).toJson hge).mpr
      ⟨str, strings_subset_mkEvent s events r.toRequest hstr, hc⟩
    have := hbreak c hmem
    rw [(isLineBreak_iff (by omega)).mpr hcon'] at this
    cases this
  · intro hno
    refine ⟨wellFormed_toJson _ r.wellFormed, fun c hc => ?_⟩
    rw [Bool.eq_false_iff]
    intro hb
    have hthree := (isLineBreak_iff (Json.toNat_of_mem_dumps hc)).mp hb
    have hge : 0x7f ≤ c.toNat := by obtain rfl | rfl | rfl := hthree <;> decide
    obtain ⟨str, hstr, hmem⟩ := (Json.mem_dumps_iff 1 _ hge).mp hc
    rcases strings_mkEvent h r.toRequest str hstr with hasc | hreq
    · have := toNat_lt_of_isAscii hasc c hmem
      omega
    · have := hno str hreq c hmem
      tauto

/-! ## Runs of appends -/

theorem getLast?_map_toJson (events : List Event) :
    (match (events.map Event.toJson).getLast? with
      | some e => e.get "event_hash"
      | none => .str genesisHash) = .str (headHash events) := by
  rw [List.getLast?_map, headHash]
  cases events.getLast? <;> rfl

/-- **`append` refines `appendEvent`**: on a file of readable events it returns the
event and leaves the file of the longer list. -/
theorem append_fileOf {s : Signer} {events : List Event} (h : Chain s events)
    (hread : ∀ e ∈ events, Readable e) (r : Request) :
    append s r (fileOf events) =
      .ok ((mkEvent s events r).toJson, fileOf (appendEvent s events r)) := by
  unfold append
  rw [read_fileOf events hread]
  simp only [bind, Except.bind, verifyEvents_linked s 1 genesisHash events h.linked,
    getLast?_map_toJson, List.length_map]
  rw [appendEvent, fileOf_append]
  rfl

/-- An unreadable file stays: every later append raises. -/
theorem append_of_read_error {s : Signer} {file : List UInt8} {f : Failure}
    (h : read file = .error f) (r : Request) : append s r file = .error f := by
  unfold append
  rw [h]
  rfl

theorem appendAll_fileOf (s : Signer) (rs : List DictRequest) (events : List Event)
    (h : Chain s events) (hread : ∀ e ∈ events, Readable e) (hno : ∀ r ∈ rs, r.NoLineBreak) :
    ∃ added, appendAll s (rs.map DictRequest.toRequest) (fileOf events) =
        .ok (added.map Event.toJson, fileOf (events ++ added)) ∧
      Chain s (events ++ added) ∧ ∀ e ∈ events ++ added, Readable e := by
  induction rs generalizing events with
  | nil => exact ⟨[], by simp [appendAll], by simpa using h, by simpa using hread⟩
  | cons r rs ih =>
    have hr := (readable_mkEvent_iff h r).mpr (hno r List.mem_cons_self)
    have hread' : ∀ e ∈ appendEvent s events r.toRequest, Readable e := by
      intro e he
      rcases List.mem_append.mp he with he | he
      · exact hread e he
      · obtain rfl := List.mem_singleton.mp he
        exact hr
    obtain ⟨added, hall, hchain, hreadable⟩ := ih (appendEvent s events r.toRequest) (.append r.toRequest h) hread'
      fun q hq => hno q (List.mem_cons_of_mem _ hq)
    refine ⟨mkEvent s events r.toRequest :: added, ?_, ?_, ?_⟩
    · rw [List.map_cons, appendAll, append_fileOf h hread]
      simp only [bind, Except.bind, hall]
      simp [appendEvent, pure, Except.pure]
    · simpa [appendEvent] using hchain
    · simpa [appendEvent] using hreadable

/-- `read` returns the events appended, in order, and `verify` succeeds. -/
def ReadsBack (s : Signer) (rs : List DictRequest) : Prop :=
  ∃ events file head, appendAll s (rs.map DictRequest.toRequest) [] = .ok (events, file) ∧
    read file = .ok events ∧ verify s file = .ok (events.length, head)

/-- A run whose file can be read has no line boundary in its requests. -/
theorem noLineBreak_of_read {s : Signer} (rs : List DictRequest) (events : List Event)
    (h : Chain s events) (hread : ∀ e ∈ events, Readable e) {added readBack : List Json}
    {file : List UInt8}
    (hall : appendAll s (rs.map DictRequest.toRequest) (fileOf events) = .ok (added, file))
    (hfile : read file = .ok readBack) : ∀ r ∈ rs, r.NoLineBreak := by
  induction rs generalizing events added with
  | nil => simp
  | cons r rs ih =>
    rw [List.map_cons, appendAll, append_fileOf h hread] at hall
    simp only [bind, Except.bind] at hall
    split at hall
    · cases hall
    rename_i tail htail
    obtain ⟨rfl, rfl⟩ := by simpa [pure, Except.pure] using hall
    by_cases hr : r.NoLineBreak
    · have hread' : ∀ e ∈ appendEvent s events r.toRequest, Readable e := by
        intro e he
        rcases List.mem_append.mp he with he | he
        · exact hread e he
        · obtain rfl := List.mem_singleton.mp he
          exact (readable_mkEvent_iff h r).mpr hr
      intro q hq
      rcases List.mem_cons.mp hq with rfl | hq
      · exact hr
      · exact ih (appendEvent s events r.toRequest) (.append r.toRequest h) hread' htail q hq
    · -- the line of `r` cannot be read, and nothing can be appended after it
      exfalso
      have hw := wellFormed_toJson (mkEvent s events r.toRequest) r.wellFormed
      have hbad : ∃ c ∈ (mkEvent s events r.toRequest).toJson.dumps 1,
          TextLines.isLineBreak c = true := by
        by_contra hcon
        push Not at hcon
        exact hr ((readable_mkEvent_iff h r).mp ⟨hw, fun c hc => by simpa using hcon c hc⟩)
      obtain ⟨c, hc, hb⟩ := hbad
      have herr := read_fileOf_break events hread _ hw hc hb
      cases rs with
      | nil =>
        obtain rfl : tail = ([], fileOf (appendEvent s events r.toRequest)) := by
          simpa [appendAll] using htail.symm
        rw [appendEvent, herr] at hfile
        cases hfile
      | cons q rs =>
        rw [List.map_cons, appendAll, appendEvent, append_of_read_error herr] at htail
        cases htail

/-- **A run of appends from the empty file reads back, verifies and can be continued
exactly when no string in it has one of the three unescaped line boundaries.** -/
theorem readsBack_iff (s : Signer) (rs : List DictRequest) :
    ReadsBack s rs ↔ ∀ r ∈ rs, r.NoLineBreak := by
  constructor
  · rintro ⟨events, file, head, hall, hread, -⟩
    exact noLineBreak_of_read rs [] .nil (by simp) hall hread
  · intro hno
    obtain ⟨added, hall, hchain, hreadable⟩ :=
      appendAll_fileOf s rs [] .nil (by simp) hno
    rw [List.nil_append] at hall hchain hreadable
    refine ⟨_, _, lastHash genesisHash added, hall, read_fileOf added hreadable, ?_⟩
    unfold verify
    rw [read_fileOf added hreadable]
    simp only [bind, Except.bind, verifyEvents_linked s 1 genesisHash added hchain.linked]
    rfl

/-- One task note with a LINE SEPARATOR in it. -/
def lineSeparatorRequest : DictRequest where
  timestamp := ⟨"2026-01-01T00:00:00Z", by decide⟩
  actor := "codex"
  action := "task.created"
  taskId := some "P01"
  payload := [("note", .str "a\u2028b")]
  wellFormed := ⟨by decide, trivial, trivial⟩

/-- After one append of that note the ledger cannot be read. -/
theorem not_readsBack_lineSeparator :
    ¬ ReadsBack ⟨sha256, hmacSha256 (List.replicate 32 0)⟩ [lineSeparatorRequest] := by
  rintro ⟨events, file, head, hall, hread, -⟩
  have hno := noLineBreak_of_read _ [] .nil (by simp) hall hread
  exact absurd (hno _ (List.mem_singleton_self _)) (by decide)

end Ledger
