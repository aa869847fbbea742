/-
# Logs of opened and closed keys

A log in which some events open a key and some close one, as the starts and the ends of
sessions do.  `Paired` says that a key is opened at most once and closed at most once, and
that what closes it matches an event of the log that opened it.
-/
import Mathlib

namespace PairedLog

section Definitions

variable {ε κ : Type*} [DecidableEq κ]

/-- The events that touch a key. -/
def touching (touch : ε → Option κ) (k : κ) (log : List ε) : List ε :=
  log.filter fun e => touch e = some k

/-- Keys are opened and closed once, and closed after a matching event. -/
structure Paired (opens closes : ε → Option κ) (Matches : ε → ε → Prop) (log : List ε) :
    Prop where
  opened : ∀ k, (touching opens k log).length ≤ 1
  closed : ∀ k, (touching closes k log).length ≤ 1
  matched : ∀ e ∈ log, ∀ k, closes e = some k → ∃ o ∈ log, opens o = some k ∧ Matches o e

end Definitions

variable {ε κ : Type*} [DecidableEq κ] {touch opens closes : ε → Option κ}
  {Matches : ε → ε → Prop} {log : List ε} {o o' e : ε} {k : κ}

theorem mem_touching : e ∈ touching touch k log ↔ e ∈ log ∧ touch e = some k := by
  simp [touching]

theorem touching_eq_nil : touching touch k log = [] ↔ ∀ e ∈ log, touch e ≠ some k := by
  simp [touching, List.filter_eq_nil_iff]

theorem touching_snoc :
    touching touch k (log ++ [e]) = touching touch k log ++ if touch e = some k then [e] else [] := by
  rw [touching, List.filter_append, touching, List.filter_singleton]
  by_cases h : touch e = some k <;> simp [h]

/-- The only event that touches a key. -/
theorem touching_eq_singleton (h : (touching touch k log).length ≤ 1) (he : e ∈ log)
    (hk : touch e = some k) : touching touch k log = [e] := by
  have hmem : e ∈ touching touch k log := mem_touching.mpr ⟨he, hk⟩
  have hpos := List.length_pos_of_mem hmem
  obtain ⟨x, hx⟩ := List.length_eq_one_iff.mp (by omega : (touching touch k log).length = 1)
  rw [hx] at hmem ⊢
  rw [List.mem_singleton.mp hmem]

theorem paired_nil : Paired opens closes Matches ([] : List ε) := by
  constructor <;> simp [touching]

namespace Paired

/-- A key is opened by one event only. -/
theorem eq_of_opens (h : Paired opens closes Matches log) (ho : o ∈ log) (ho' : o' ∈ log)
    (hk : opens o = some k) (hk' : opens o' = some k) : o' = o := by
  have hmem : o' ∈ touching opens k log := mem_touching.mpr ⟨ho', hk'⟩
  rw [touching_eq_singleton (h.opened k) ho hk] at hmem
  exact List.mem_singleton.mp hmem

/-- A key that is never opened is never closed. -/
theorem not_closed (h : Paired opens closes Matches log) (hk : ∀ o ∈ log, opens o ≠ some k) :
    ∀ e ∈ log, closes e ≠ some k := by
  intro e he hclose
  obtain ⟨o, ho, hopen, -⟩ := h.matched e he k hclose
  exact hk o ho hopen

theorem matched_snoc (h : Paired opens closes Matches log)
    (he : ∀ k, closes e = some k → ∃ o ∈ log, opens o = some k ∧ Matches o e) :
    ∀ e' ∈ log ++ [e], ∀ k, closes e' = some k →
      ∃ o ∈ log ++ [e], opens o = some k ∧ Matches o e' := by
  intro e' he' k hk
  rcases List.mem_append.mp he' with he' | he'
  · obtain ⟨o, ho, hopen, hmatch⟩ := h.matched e' he' k hk
    exact ⟨o, List.mem_append_left _ ho, hopen, hmatch⟩
  · obtain rfl := List.mem_singleton.mp he'
    obtain ⟨o, ho, hopen, hmatch⟩ := he k hk
    exact ⟨o, List.mem_append_left _ ho, hopen, hmatch⟩

/-- An event that neither opens nor closes a key. -/
theorem snoc_other (h : Paired opens closes Matches log) (ho : opens e = none)
    (hc : closes e = none) : Paired opens closes Matches (log ++ [e]) := by
  refine ⟨?_, ?_, h.matched_snoc (by simp [hc])⟩
  · intro k
    simpa [touching_snoc, ho] using h.opened k
  · intro k
    simpa [touching_snoc, hc] using h.closed k

/-- An event that opens a new key. -/
theorem snoc_open (h : Paired opens closes Matches log) (ho : opens e = some k)
    (hc : closes e = none) (hnew : ∀ o ∈ log, opens o ≠ some k) :
    Paired opens closes Matches (log ++ [e]) := by
  refine ⟨?_, ?_, h.matched_snoc (by simp [hc])⟩
  · intro k'
    rw [touching_snoc]
    by_cases hk : k = k'
    · subst hk
      simp [touching_eq_nil.mpr hnew, ho]
    · simpa [ho, hk] using h.opened k'
  · intro k'
    simpa [touching_snoc, hc] using h.closed k'

/-- An event that closes an open key. -/
theorem snoc_close (h : Paired opens closes Matches log) (ho : opens e = none)
    (hc : closes e = some k) (hmem : o ∈ log) (hopen : opens o = some k) (hmatch : Matches o e)
    (hnew : ∀ e' ∈ log, closes e' ≠ some k) : Paired opens closes Matches (log ++ [e]) := by
  refine ⟨?_, ?_, h.matched_snoc ?_⟩
  · intro k'
    simpa [touching_snoc, ho] using h.opened k'
  · intro k'
    rw [touching_snoc]
    by_cases hk : k = k'
    · subst hk
      simp [touching_eq_nil.mpr hnew, hc]
    · simpa [hc, hk] using h.closed k'
  · intro k' hk'
    obtain rfl := Option.some.inj (hc.symm.trans hk')
    exact ⟨o, hmem, hopen, hmatch⟩

end Paired

end PairedLog
