/-
# Dependencies that grow by new nodes

A relation to which a new node is added with edges to old nodes only stays acyclic, and a
property that every node passes on to what it depends on is passed on along paths.
-/
import Mathlib

namespace DependencyGraph

open Relation

variable {α : Type*}

/-- No node depends on itself, directly or through others. -/
def Acyclic (r : α → α → Prop) : Prop := ∀ a, ¬ TransGen r a a

/-- `r'` is `r` with the node `a` added: the other nodes depend on what they did, and
nothing depended on `a`. -/
structure Grows (r r' : α → α → Prop) (a : α) : Prop where
  old : ∀ x y, r' x y → x ≠ a → r x y
  fresh : ∀ x y, r x y → y ≠ a
  irreflexive : ¬ r' a a

variable {r r' : α → α → Prop} {a b c : α}

/-- Paths from old nodes are old paths. -/
theorem Grows.path (h : Grows r r' a) (hb : b ≠ a) (hpath : TransGen r' b c) :
    TransGen r b c ∧ c ≠ a := by
  induction hpath with
  | single hstep =>
    have hold := h.old _ _ hstep hb
    exact ⟨.single hold, h.fresh _ _ hold⟩
  | tail _ hstep ih =>
    have hold := h.old _ _ hstep ih.2
    exact ⟨ih.1.tail hold, h.fresh _ _ hold⟩

/-- **Growth keeps the relation acyclic.** -/
theorem Grows.acyclic (h : Grows r r' a) (hr : Acyclic r) : Acyclic r' := by
  intro b hcycle
  by_cases hb : b = a
  · subst hb
    rcases TransGen.head'_iff.mp hcycle with ⟨c, hstep, hrest⟩
    have hc : c ≠ b := by
      rintro rfl
      exact h.irreflexive hstep
    rcases reflTransGen_iff_eq_or_transGen.mp hrest with heq | hpath
    · exact hc heq.symm
    · exact (h.path hc hpath).2 rfl
  · exact hr b (h.path hb hcycle).1

theorem Acyclic.of_iff (hr : Acyclic r) (h : ∀ x y, r' x y ↔ r x y) : Acyclic r' := by
  obtain rfl : r' = r := by
    funext x y
    exact propext (h x y)
  exact hr

/-- What holds of the direct dependencies of a node with a property, and gives them the
property, holds of all its dependencies. -/
theorem of_transGen {P Q : α → Prop} (hstep : ∀ x y, P x → r x y → Q y) (hpass : ∀ y, Q y → P y)
    (hb : P b) (hpath : TransGen r b c) : Q c := by
  induction hpath with
  | single h => exact hstep _ _ hb h
  | tail _ h ih => exact hstep _ _ (hpass _ ih) h

end DependencyGraph
