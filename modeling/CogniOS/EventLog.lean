/-
# Logs with snapshots

A log of events some of which carry the new value of a key, as an event-sourced
store has it: the history of a key, its latest value, and what appending one event
does to them.  `Continues` says that each snapshot of a key follows from the one
before it.
-/
import Mathlib

namespace EventLog

section Definitions

variable {ε κ σ : Type*} [DecidableEq κ] (snap : ε → Option (κ × σ))

/-- The snapshot of a key in an event. -/
def pick (k : κ) (e : ε) : Option σ :=
  (snap e).bind fun p => if p.1 = k then some p.2 else none

/-- The snapshots of a key, oldest first. -/
def history (k : κ) (log : List ε) : List σ := log.filterMap (pick snap k)

/-- The last snapshot of a key. -/
def latest (k : κ) (log : List ε) : Option σ := (history snap k log).getLast?

/-- Each snapshot of a key follows from the one before it, the first one from nothing. -/
def Continues (Starts : σ → Prop) (R : σ → σ → Prop) (k : κ) (log : List ε) : Prop :=
  (∀ x ∈ (history snap k log).head?, Starts x) ∧ (history snap k log).IsChain R

end Definitions

variable {ε κ σ : Type*} [DecidableEq κ] {snap : ε → Option (κ × σ)} {k k' : κ} {e : ε} {x : σ}

theorem pick_eq_some : pick snap k e = some x ↔ snap e = some (k, x) := by
  rw [pick, Option.bind_eq_some_iff]
  constructor
  · rintro ⟨p, hp, hx⟩
    split at hx
    case isFalse => simp at hx
    case isTrue hk => rw [hp, ← hk, ← Option.some.inj hx]
  · intro h
    exact ⟨(k, x), h, by simp⟩

theorem pick_of_none (h : snap e = none) : pick snap k e = none := by simp [pick, h]

theorem pick_of_ne (h : snap e = some (k', x)) (hk : k' ≠ k) : pick snap k e = none := by
  simp [pick, h, hk]

@[simp] theorem history_nil : history snap k [] = [] := rfl

@[simp] theorem latest_nil : latest snap k [] = none := rfl

theorem history_snoc (log : List ε) :
    history snap k (log ++ [e]) = history snap k log ++ (pick snap k e).toList := by
  rw [history, List.filterMap_append]
  cases h : pick snap k e <;> simp [history, h]

theorem latest_snoc (log : List ε) :
    latest snap k (log ++ [e]) = (pick snap k e).or (latest snap k log) := by
  rw [latest, history_snoc]
  cases h : pick snap k e <;> simp [latest]

theorem latest_mem_history {log : List ε} (h : latest snap k log = some x) :
    x ∈ history snap k log :=
  List.mem_of_getLast? h

/-- A snapshot in the history of a key comes from one of the events. -/
theorem mem_history {log : List ε} :
    x ∈ history snap k log ↔ ∃ e ∈ log, snap e = some (k, x) := by
  simp [history, List.mem_filterMap, pick_eq_some]

theorem latest_eq_none {log : List ε} (h : ∀ e ∈ log, pick snap k e = none) :
    latest snap k log = none := by
  rw [latest, history, List.filterMap_eq_nil_iff.mpr h]
  rfl

/-- The last event with a snapshot of a key carries the latest one. -/
theorem latest_eq_find (log : List ε) :
    latest snap k log =
      (log.reverse.find? fun e => (pick snap k e).isSome).bind (pick snap k) := by
  rw [latest, history, ← List.head?_reverse, ← List.filterMap_reverse, List.head?_filterMap]
  induction log.reverse with
  | nil => rfl
  | cons e log ih =>
    rw [List.findSome?_cons, List.find?_cons]
    cases he : pick snap k e with
    | none => simpa using ih
    | some x => simp [he]

/-! ## Continuation -/

variable {Starts : σ → Prop} {R : σ → σ → Prop} {log : List ε}

theorem continues_nil : Continues snap Starts R k [] := by simp [Continues]

theorem Continues.snoc_silent (h : Continues snap Starts R k log) (he : pick snap k e = none) :
    Continues snap Starts R k (log ++ [e]) := by
  rw [Continues, history_snoc, he]
  simpa [Continues] using h

theorem Continues.snoc_first (he : pick snap k e = some x) (hnone : latest snap k log = none)
    (hx : Starts x) : Continues snap Starts R k (log ++ [e]) := by
  have hnil : history snap k log = [] := List.getLast?_eq_none_iff.mp hnone
  rw [Continues, history_snoc, he, hnil]
  simpa using hx

theorem Continues.snoc_next (h : Continues snap Starts R k log) (he : pick snap k e = some x)
    {y : σ} (hy : latest snap k log = some y) (hR : R y x) :
    Continues snap Starts R k (log ++ [e]) := by
  have hne : history snap k log ≠ [] := by
    intro hnil
    simp [latest, hnil] at hy
  rw [Continues, history_snoc, he]
  constructor
  · intro z hz
    rw [List.head?_append_of_ne_nil _ hne] at hz
    exact h.1 z hz
  · apply List.IsChain.append h.2 (List.isChain_singleton x)
    intro a ha b hb
    have ha : y = a := Option.some.inj (hy.symm.trans ha)
    have hb : x = b := by simpa using hb
    rw [← ha, ← hb]
    exact hR

theorem Continues.of_snoc (h : Continues snap Starts R k (log ++ [e])) :
    Continues snap Starts R k log := by
  rw [Continues, history_snoc] at h
  constructor
  · intro x hx
    apply h.1 x
    rw [Option.mem_def] at hx ⊢
    rw [List.head?_append, hx]
    rfl
  · exact h.2.left_of_append

/-- What the last snapshot follows from. -/
theorem Continues.last (h : Continues snap Starts R k (log ++ [e])) (he : pick snap k e = some x)
    {y : σ} (hy : latest snap k log = some y) : R y x := by
  have hchain := h.2
  rw [history_snoc, he, Option.toList_some, List.isChain_append] at hchain
  exact hchain.2.2 y hy x rfl

end EventLog
