/-
# Errors, identifiers and timestamps

The exceptions of `errors.py`, with the ones of the standard library that the
workspace can meet, and the helpers of `util.py` that its operations use.  An
operation that may raise is a value of `Except CogniError`.
-/
import CogniOS.TextLines
import CogniOS.LedgerEvent

/-! ## Exceptions -/

/-- The classes of exceptions. -/
inductive ErrorKind
  | configuration
  | transition
  | lease
  | authorization
  | integrity
  | evidence
  | lockTimeout
  | timeout
  | os
  /-- `KeyError`, `AttributeError`, `ValueError`, `OverflowError` and the like. -/
  | other
  deriving DecidableEq

/-- An exception with its message. -/
structure CogniError where
  kind : ErrorKind
  message : String
  deriving DecidableEq

/-- Raise the exception unless the condition holds. -/
def require (c : Prop) [Decidable c] (e : CogniError) : Except CogniError Unit :=
  if c then .ok () else .error e

section Raising

variable {α β : Type}

theorem bind_eq_ok {ε : Type} {x : Except ε α} {k : α → Except ε β} {b : β} :
    (x >>= k) = .ok b ↔ ∃ a, x = .ok a ∧ k a = .ok b := by
  cases x with
  | error e => simp [bind, Except.bind]
  | ok a => simp [bind, Except.bind]

theorem require_bind_eq_ok {c : Prop} [Decidable c] {e : CogniError}
    {k : Unit → Except CogniError β} {b : β} :
    (require c e >>= k) = .ok b ↔ c ∧ k () = .ok b := by
  by_cases h : c
  · simp [require, h, bind, Except.bind]
  · simp [require, h, bind, Except.bind]

theorem require_eq_ok {c : Prop} [Decidable c] {e : CogniError} {u : Unit} :
    require c e = .ok u ↔ c := by
  by_cases h : c
  · simp [require, h]
  · simp [require, h]

/-- A step that returns leaves the rest of the program. -/
theorem bind_iff_of_ok {ε : Type} {x : Except ε α} {a : α} (h : x = .ok a) {k : α → Except ε β}
    {b : β} : (x >>= k) = .ok b ↔ k a = .ok b := by
  subst h
  rfl

/-- A loop of checks passes where each of them does. -/
theorem forM_eq_ok_iff {ε : Type} {f : α → Except ε Unit} {xs : List α} :
    xs.forM f = .ok () ↔ ∀ x ∈ xs, f x = .ok () := by
  induction xs with
  | nil => exact iff_of_true rfl (by simp)
  | cons x xs ih =>
    have hcons : (x :: xs).forM f = (f x >>= fun _ => xs.forM f) := rfl
    rw [hcons, bind_eq_ok, List.forall_mem_cons, ← ih]
    exact ⟨fun ⟨⟨⟩, hx, hxs⟩ => ⟨hx, hxs⟩, fun ⟨hx, hxs⟩ => ⟨(), hx, hxs⟩⟩

/-- The value that is there, or the exception. -/
def orRaise (x : Option α) (e : CogniError) : Except CogniError α :=
  match x with
  | some a => .ok a
  | none => .error e

@[simp] theorem orRaise_eq_ok {x : Option α} {e : CogniError} {a : α} :
    orRaise x e = .ok a ↔ x = some a := by
  cases x <;> simp [orRaise]

/-- A loop returns where every call in it returns. -/
theorem mapM_eq_ok {f : α → Except CogniError β} {xs : List α} {ys : List β} :
    xs.mapM f = .ok ys ↔ xs.map f = ys.map .ok := by
  induction xs generalizing ys with
  | nil =>
    rw [List.mapM_nil, List.map_nil, eq_comm (a := []), List.map_eq_nil_iff]
    exact ⟨fun h => (Except.ok.inj h).symm, fun h => congrArg Except.ok h.symm⟩
  | cons x xs ih =>
    rw [List.mapM_cons, List.map_cons, bind_eq_ok, eq_comm (b := ys.map _),
      List.map_eq_cons_iff]
    constructor
    · rintro ⟨y, hy, hrest⟩
      obtain ⟨rest, hrest, hys⟩ := bind_eq_ok.mp hrest
      exact ⟨y, rest, (Except.ok.inj hys).symm, hy.symm, (ih.mp hrest).symm⟩
    · rintro ⟨y, rest, rfl, hy, hrest⟩
      exact ⟨y, hy.symm, bind_eq_ok.mpr ⟨rest, ih.mpr hrest.symm, rfl⟩⟩

theorem exists_mapM_eq_ok {f : α → Except CogniError β} {xs : List α}
    (h : ∀ x ∈ xs, ∃ y, f x = .ok y) : ∃ ys, xs.mapM f = .ok ys := by
  induction xs with
  | nil => exact ⟨[], rfl⟩
  | cons x xs ih =>
    obtain ⟨y, hy⟩ := h x List.mem_cons_self
    obtain ⟨ys, hys⟩ := ih fun z hz => h z (List.mem_cons_of_mem _ hz)
    refine ⟨y :: ys, mapM_eq_ok.mpr ?_⟩
    rw [List.map_cons, List.map_cons, hy, mapM_eq_ok.mp hys]

end Raising

/-- The reason alone where the condition holds. -/
def reasonIf (c : Bool) (reason : String) : List String := if c then [reason] else []

@[simp] theorem reasonIf_false (reason : String) : reasonIf false reason = [] := rfl

/-! ## Text -/

/-- `str.strip`. -/
def strip (s : String) : String :=
  String.ofList ((s.toList.dropWhile TextLines.isSpace).rdropWhile TextLines.isSpace)

theorem dropWhile_rdropWhile_dropWhile {α : Type} (p : α → Bool) (l : List α) :
    ((l.dropWhile p).rdropWhile p).dropWhile p = (l.dropWhile p).rdropWhile p := by
  rw [List.dropWhile_eq_self_iff]
  intro hpos
  have hpre := List.rdropWhile_prefix p (l := l.dropWhile p)
  have hne : 0 < (l.dropWhile p).length := hpos.trans_le hpre.length_le
  rw [hpre.getElem hpos]
  exact List.dropWhile_get_zero_not p l hne

/-- Stripping twice is stripping once. -/
theorem strip_strip (s : String) : strip (strip s) = strip s := by
  rw [strip, strip, String.toList_ofList, dropWhile_rdropWhile_dropWhile,
    List.rdropWhile_idempotent]

/-- An ASCII letter or digit. -/
def isAlnum (c : Char) : Bool :=
  ('a' ≤ c && c ≤ 'z') || ('A' ≤ c && c ≤ 'Z') || ('0' ≤ c && c ≤ '9')

/-- `TASK_ID_RE.fullmatch`. -/
def isTaskId (s : String) : Bool :=
  match s.toList with
  | [] => false
  | c :: cs => isAlnum c && cs.all (fun d => isAlnum d || d ∈ ['.', '_', '-']) && cs.length ≤ 79

/-- `AGENT_ID_RE.fullmatch`. -/
def isAgentId (s : String) : Bool :=
  match s.toList with
  | [] => false
  | c :: cs =>
      (isAlnum c && !c.isUpper) &&
        cs.all (fun d => (isAlnum d && !d.isUpper) || d ∈ ['.', '_', '-']) && cs.length ≤ 49

/-- `validate_task_id`. -/
def validateTaskId (s : String) : Except CogniError Unit :=
  require (isTaskId s = true) ⟨.configuration,
    "Task id must start with an alphanumeric character and contain only " ++
    "letters, numbers, dot, underscore, or hyphen (maximum 80 characters)"⟩

/-- `validate_agent_id`. -/
def validateAgentId (s : String) : Except CogniError Unit :=
  require (isAgentId s = true) ⟨.configuration,
    "Agent id must start with an alphanumeric character and contain only " ++
    "letters, numbers, dot, underscore, or hyphen (maximum 50 characters)"⟩

/-- A SHA-256 digest in hexadecimal. -/
structure Sha256Hex where
  text : String
  isHex : Hex.isHex 64 text = true

instance : DecidableEq Sha256Hex := fun a b =>
  decidable_of_iff (a.text = b.text) (by cases a; cases b; simp)

/-- The digest of a message. -/
def Hasher.digest (h : Hasher) (message : List UInt8) : Sha256Hex := ⟨_, h.hex message⟩

/-- What `secrets.token_hex(16)` returns. -/
structure Token where
  text : String
  isHex : Hex.isHex 32 text = true

instance : DecidableEq Token := fun a b =>
  decidable_of_iff (a.text = b.text) (by cases a; cases b; simp)

/-! ## Timestamps -/

/-- A UTC time in whole seconds since 1970, the resolution of `utc_now`. -/
structure Utc where
  seconds : ℕ
  deriving DecidableEq

namespace Utc

/-- Year, month and day of the proleptic Gregorian calendar. -/
def civil (days : ℕ) : ℕ × ℕ × ℕ :=
  let z := days + 719468
  let era := z / 146097
  let doe := z % 146097
  let yoe := (doe - doe / 1460 + doe / 36524 - doe / 146096) / 365
  let doy := doe - (365 * yoe + yoe / 4 - yoe / 100)
  let mp := (5 * doy + 2) / 153
  let day := doy - (153 * mp + 2) / 5 + 1
  let month := if mp < 10 then mp + 3 else mp - 9
  (yoe + era * 400 + (if month ≤ 2 then 1 else 0), month, day)

/-- A number with `width` decimal digits. -/
def pad : ℕ → ℕ → List Char
  | 0, _ => []
  | width + 1, n => pad width (n / 10) ++ [Nat.digitChar (n % 10)]

/-- `isoformat(timespec="seconds")` with `Z` for the offset. -/
def chars (t : Utc) : List Char :=
  let (year, month, day) := civil (t.seconds / 86400)
  let second := t.seconds % 86400
  pad 4 year ++ '-' :: pad 2 month ++ '-' :: pad 2 day ++ 'T' :: pad 2 (second / 3600) ++
    ':' :: pad 2 (second / 60 % 60) ++ ':' :: pad 2 (second % 60) ++ ['Z']

/-- The text of a time. -/
def text (t : Utc) : String := String.ofList t.chars

example : (Utc.mk 1767225599).text = "2025-12-31T23:59:59Z" := by decide

theorem toNat_digitChar : ∀ d < 10, (Nat.digitChar d).toNat < 0x7f := by decide

theorem toNat_of_mem_pad {width n : ℕ} {c : Char} (h : c ∈ pad width n) : c.toNat < 0x7f := by
  induction width generalizing n with
  | zero => simp [pad] at h
  | succ width ih =>
    rcases List.mem_append.mp h with h | h
    · exact ih h
    · obtain rfl := List.mem_singleton.mp h
      exact toNat_digitChar _ (Nat.mod_lt _ (by decide))

theorem toNat_of_mem_chars {t : Utc} {c : Char} (h : c ∈ t.chars) : c.toNat < 0x7f := by
  simp only [chars, List.mem_append, List.mem_cons, List.not_mem_nil, or_false] at h
  rcases h with (((((h | rfl | h) | rfl | h) | rfl | h) | rfl | h) | rfl | h) | rfl
  all_goals first | exact toNat_of_mem_pad h | decide

/-- The timestamp of a ledger event. -/
def stamp (t : Utc) : UtcTime :=
  ⟨t.text, by
    rw [isAscii, text, String.toList_ofList, List.all_eq_true]
    intro c hc
    simpa using toNat_of_mem_chars hc⟩

/-- The last second that a `datetime` can hold. -/
def last : Utc := ⟨253402300799⟩

end Utc

/-- The readings of `utc_now` during one call, in order. -/
abbrev Clock := ℕ → Utc
