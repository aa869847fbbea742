/-
# Runs of a transition system

A step relation with labelled steps, its finite runs, and the rule by which an
invariant of the steps is an invariant of the runs.  A condition on the steps of a
run is written by adding it to the relation.
-/
import Mathlib

namespace Runs

variable {σ ε : Type*}

/-- The runs of a step relation; a run grows at its end. -/
inductive Run (Step : σ → ε → σ → Prop) : σ → List ε → σ → Prop
  | nil (s : σ) : Run Step s [] s
  | snoc {s t u : σ} {es : List ε} {e : ε} :
      Run Step s es t → Step t e u → Run Step s (es ++ [e]) u

/-- The steps of a relation whose label and starting state meet a condition. -/
def Guarded (Step : σ → ε → σ → Prop) (guard : σ → ε → Prop) (s : σ) (e : ε) (t : σ) : Prop :=
  Step s e t ∧ guard s e

variable {Step Step' : σ → ε → σ → Prop} {s t u : σ} {es es' : List ε} {e : ε}

/-- **The invariant rule.** -/
theorem Run.invariant {I : σ → Prop} (hstep : ∀ s e t, I s → Step s e t → I t)
    (h : Run Step s es t) (hs : I s) : I t := by
  induction h with
  | nil => exact hs
  | snoc _ hstep' ih => exact hstep _ _ _ ih hstep'

theorem Run.mono (hstep : ∀ s e t, Step s e t → Step' s e t) (h : Run Step s es t) :
    Run Step' s es t := by
  induction h with
  | nil => exact .nil _
  | snoc _ hlast ih => exact .snoc ih (hstep _ _ _ hlast)

theorem Run.of_guarded {guard : σ → ε → Prop} (h : Run (Guarded Step guard) s es t) :
    Run Step s es t :=
  h.mono fun _ _ _ hstep => hstep.1

/-- A condition on every label of a run guards its steps. -/
theorem Run.guarded {guard : ε → Prop} (h : Run Step s es t) (hes : ∀ e ∈ es, guard e) :
    Run (Guarded Step fun _ e => guard e) s es t := by
  induction h with
  | nil => exact .nil _
  | snoc _ hlast ih =>
    refine .snoc (ih fun e he => hes e ?_) ⟨hlast, hes _ ?_⟩
    · exact List.mem_append_left _ he
    · exact List.mem_append_right _ (List.mem_singleton_self _)

/-- The last step of a run that ends with `e`. -/
theorem Run.last (h : Run Step s (es ++ [e]) u) : ∃ t, Run Step s es t ∧ Step t e u := by
  generalize hes : es ++ [e] = es' at h
  cases h with
  | nil => simp at hes
  | snoc hrun hlast =>
    obtain ⟨rfl, rfl⟩ := List.append_singleton_inj.1 hes
    exact ⟨_, hrun, hlast⟩

theorem Run.single (h : Step s e t) : Run Step s [e] t := by
  rw [← List.nil_append [e]]
  exact .snoc (.nil s) h

theorem Run.trans (h : Run Step s es t) (h' : Run Step t es' u) : Run Step s (es ++ es') u := by
  induction h' with
  | nil => simpa using h
  | snoc _ hlast ih =>
    rw [← List.append_assoc]
    exact .snoc ih hlast

theorem Run.cons (h : Step s e t) (h' : Run Step t es u) : Run Step s (e :: es) u :=
  (Run.single h).trans h'

/-- A run passes through a state after each of its prefixes. -/
theorem Run.split (h : Run Step s (es ++ es') u) : ∃ t, Run Step s es t ∧ Run Step t es' u := by
  induction es' using List.reverseRecOn generalizing u with
  | nil => exact ⟨u, by simpa using h, .nil u⟩
  | append_singleton es' e ih =>
    rw [← List.append_assoc] at h
    obtain ⟨v, hv, hlast⟩ := h.last
    obtain ⟨t, hpre, hpost⟩ := ih hv
    exact ⟨t, hpre, .snoc hpost hlast⟩

/-- How many steps are of a kind, where a function makes them. -/
def occurrences (next : σ → ε → σ) (q : σ → σ → Prop) [∀ s t, Decidable (q s t)] :
    σ → List ε → ℕ
  | _, [] => 0
  | s, e :: es => (if q s (next s e) then 1 else 0) + occurrences next q (next s e) es

section Occurrences

variable {next : σ → ε → σ} {q : σ → σ → Prop} [∀ s t, Decidable (q s t)] {I p : σ → Prop}

/-- The invariant rule, where a function makes the steps. -/
theorem foldl_invariant (hI : ∀ s e, I s → I (next s e)) (es : List ε) (hs : I s) :
    I (es.foldl next s) := by
  induction es generalizing s with
  | nil => exact hs
  | cons e es ih => exact ih (hI s e hs)

theorem occurrences_eq_zero (hI : ∀ s e, I s → I (next s e))
    (hq : ∀ s e, I s → ¬q s (next s e)) (es : List ε) (hs : I s) :
    occurrences next q s es = 0 := by
  induction es generalizing s with
  | nil => rfl
  | cons e es ih => rw [occurrences, if_neg (hq s e hs), ih (hI s e hs)]

/-- **Steps into a set that is never left** are made at most once. -/
theorem occurrences_le_one (hI : ∀ s e, I s → I (next s e))
    (hp : ∀ s e, I s → p s → p (next s e))
    (hq : ∀ s e, I s → q s (next s e) → ¬p s ∧ p (next s e)) (es : List ε) (hs : I s) :
    occurrences next q s es ≤ 1 := by
  induction es generalizing s with
  | nil => exact Nat.zero_le _
  | cons e es ih =>
    rw [occurrences]
    by_cases hstep : q s (next s e)
    · -- The run is in the set from here on.
      have hrest : occurrences next q (next s e) es = 0 :=
        occurrences_eq_zero (I := fun t => I t ∧ p t)
          (fun t e' ht => ⟨hI t e' ht.1, hp t e' ht.1 ht.2⟩)
          (fun t e' ht hcross => (hq t e' ht.1 hcross).1 ht.2) es
          ⟨hI s e hs, (hq s e hs hstep).2⟩
      rw [if_pos hstep, hrest]
    · rw [if_neg hstep, Nat.zero_add]
      exact ih (hI s e hs)

end Occurrences

end Runs
