/-
# Ledger events

The signed events of the workspace ledger (`ledger.py`) as values: `Request` is
what a caller of `Ledger.append` passes, `mkEvent` the event that `append` builds
on top of the events read, and `appendEvent` the ledger afterwards.

`canonicalJson` is `canonical_json` of `util.py`.
-/
import CogniOS.JsonText
import CogniOS.Utf8
import CogniOS.Sha256

/-- `canonical_json`: sorted keys, compact separators, UTF-8. -/
def canonicalJson (v : Json) : List UInt8 := Utf8.encode (v.dumps 0)

/-- A printable ASCII string. -/
def isAscii (s : String) : Bool := s.toList.all fun c => c.toNat < 0x7f

theorem toNat_lt_of_isAscii {s : String} (h : isAscii s = true) :
    ∀ c ∈ s.toList, c.toNat < 0x7f := by
  simpa [isAscii] using h

theorem isAscii_hexdigest (h : Hasher) (message : List UInt8) :
    isAscii (h.hexdigest message) = true := by
  simpa [isAscii] using Hex.toNat_lt_of_isHex (h.hex message)

/-- A reading of `utc_now`: an ASCII timestamp. -/
structure UtcTime where
  text : String
  ascii : isAscii text = true

namespace Ledger

/-- `GENESIS_HASH`. -/
def genesisHash : String := String.ofList (List.replicate 64 '0')

/-- The hash and the keyed hash (under the key of `ledger.key`) of a ledger. -/
structure Signer where
  sha256 : Hasher
  hmac : Hasher

/-- The arguments of `Ledger.append` and the clock reading of the call. -/
structure Request where
  timestamp : UtcTime
  actor : String
  action : String
  taskId : Option String
  payload : List (String × Json)

/-- One event of the ledger. -/
structure Event where
  sequence : ℕ
  timestamp : String
  actor : String
  action : String
  taskId : Option String
  payload : Json
  previousHash : String
  eventHash : String
  signature : String
  deriving DecidableEq

/-- A task id as JSON, `null` when there is none. -/
def taskIdJson : Option String → Json
  | some id => .str id
  | none => .null

/-- The hashed part of an event. -/
def coreJson (sequence timestamp actor action taskId payload previousHash : Json) : Json :=
  .obj [
    ("action", action),
    ("actor", actor),
    ("payload", payload),
    ("previous_hash", previousHash),
    ("sequence", sequence),
    ("task_id", taskId),
    ("timestamp", timestamp)]

/-- `hashlib.sha256(canonical_json(core)).hexdigest()`. -/
def coreHash (s : Signer) (core : Json) : String := s.sha256.hexdigest (canonicalJson core)

/-- `hmac.new(key, event_hash.encode("ascii"), sha256).hexdigest()`. -/
def signHash (s : Signer) (eventHash : String) : String :=
  s.hmac.hexdigest (Utf8.encode eventHash.toList)

namespace Event

def core (e : Event) : Json :=
  coreJson (.int e.sequence) (.str e.timestamp) (.str e.actor) (.str e.action)
    (taskIdJson e.taskId) e.payload (.str e.previousHash)

/-- The dictionary that `append` returns and writes. -/
def toJson (e : Event) : Json :=
  .obj [
    ("action", .str e.action),
    ("actor", .str e.actor),
    ("event_hash", .str e.eventHash),
    ("payload", e.payload),
    ("previous_hash", .str e.previousHash),
    ("sequence", .int e.sequence),
    ("signature", .str e.signature),
    ("task_id", taskIdJson e.taskId),
    ("timestamp", .str e.timestamp)]

end Event

/-- The head hash of the events read: the genesis hash of an empty ledger. -/
def headHash (events : List Event) : String :=
  match events.getLast? with
  | some e => e.eventHash
  | none => genesisHash

/-- The event that `append` builds after `events`. -/
def mkEvent (s : Signer) (events : List Event) (r : Request) : Event :=
  let core := coreJson (.int (events.length + 1 : ℕ)) (.str r.timestamp.text) (.str r.actor)
    (.str r.action) (taskIdJson r.taskId) (.obj r.payload) (.str (headHash events))
  { sequence := events.length + 1
    timestamp := r.timestamp.text
    actor := r.actor
    action := r.action
    taskId := r.taskId
    payload := .obj r.payload
    previousHash := headHash events
    eventHash := coreHash s core
    signature := signHash s (coreHash s core) }

def appendEvent (s : Signer) (events : List Event) (r : Request) : List Event :=
  events ++ [mkEvent s events r]

/-- The events of a run of requests on an empty ledger. -/
def eventsOf (s : Signer) (rs : List Request) : List Event := rs.foldl (appendEvent s) []

/-- The signed chain: each event continues the ones before it. -/
inductive Chain (s : Signer) : List Event → Prop
  | nil : Chain s []
  | append {events : List Event} (r : Request) :
      Chain s events → Chain s (appendEvent s events r)

theorem eventsOf_append (s : Signer) (rs : List Request) (r : Request) :
    eventsOf s (rs ++ [r]) = appendEvent s (eventsOf s rs) r := by
  rw [eventsOf, List.foldl_append]
  rfl

theorem chain_eventsOf (s : Signer) (rs : List Request) : Chain s (eventsOf s rs) := by
  induction rs using List.reverseRecOn with
  | nil => exact .nil
  | append_singleton rs r ih =>
    rw [eventsOf_append]
    exact .append r ih

@[simp] theorem headHash_nil : headHash [] = genesisHash := rfl

@[simp] theorem headHash_append (events : List Event) (e : Event) :
    headHash (events ++ [e]) = e.eventHash := by
  simp [headHash]

@[simp] theorem length_appendEvent (s : Signer) (events : List Event) (r : Request) :
    (appendEvent s events r).length = events.length + 1 := by
  simp [appendEvent]

@[simp] theorem mkEvent_sequence (s : Signer) (events : List Event) (r : Request) :
    (mkEvent s events r).sequence = events.length + 1 := rfl

@[simp] theorem mkEvent_payload (s : Signer) (events : List Event) (r : Request) :
    (mkEvent s events r).payload = .obj r.payload := rfl

@[simp] theorem mkEvent_action (s : Signer) (events : List Event) (r : Request) :
    (mkEvent s events r).action = r.action := rfl

@[simp] theorem mkEvent_actor (s : Signer) (events : List Event) (r : Request) :
    (mkEvent s events r).actor = r.actor := rfl

@[simp] theorem mkEvent_taskId (s : Signer) (events : List Event) (r : Request) :
    (mkEvent s events r).taskId = r.taskId := rfl

theorem mkEvent_eventHash (s : Signer) (events : List Event) (r : Request) :
    (mkEvent s events r).eventHash = coreHash s (mkEvent s events r).core := rfl

theorem mkEvent_signature (s : Signer) (events : List Event) (r : Request) :
    (mkEvent s events r).signature = signHash s (mkEvent s events r).eventHash := rfl

/-- Sequence numbers count the events from one. -/
theorem Chain.sequence {s : Signer} {events : List Event} (h : Chain s events) :
    ∀ i (hi : i < events.length), events[i].sequence = i + 1 := by
  induction h with
  | nil => intro i hi; simp at hi
  | @append events r _ ih =>
    intro i hi
    rw [length_appendEvent] at hi
    rcases Nat.lt_succ_iff_lt_or_eq.mp hi with hlt | rfl
    · simp only [appendEvent, List.getElem_append_left hlt]
      exact ih i hlt
    · simp [appendEvent]

end Ledger
