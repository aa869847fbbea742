/-
# Tables of a database

A table as the list of its rows, with uniqueness constraints.

* `insert` refuses a row that agrees with an old one on a constraint;
* `upsert` is `INSERT .. ON CONFLICT (target) DO UPDATE SET .. WHERE ..`, with the number of
  changed rows;
* the rows of one owner are those that a filter keeps, and the lemmas say what a statement about
  one owner does to them;
* `largest` is `ORDER BY .. DESC LIMIT`.
-/
import Mathlib

namespace SqlTable

variable {α κ : Type} [DecidableEq κ]

/-- Whether two rows agree on the columns of a uniqueness constraint. -/
abbrev Constraint (α : Type) : Type := α → α → Bool

/-- `INSERT`; `none` is a violated constraint. -/
def insert (uniques : List (Constraint α)) (row : α) (t : List α) : Option (List α) :=
  if t.any (fun old => uniques.any fun agrees => agrees old row) then none else some (t ++ [row])

/-- `INSERT .. ON CONFLICT (target) DO UPDATE SET .. WHERE guard`, with the number of changed rows.
`othersFirst` says that the other constraints are looked at before the target. -/
def upsert (target : Constraint α) (others : List (Constraint α)) (othersFirst : Bool)
    (guard : α → Bool) (row : α) (t : List α) : Option (List α × ℕ) :=
  match t.find? (fun old => target old row) with
  | none => (insert (target :: others) row t).map fun t' => (t', 1)
  | some old =>
      if othersFirst && t.any (fun r => others.any fun agrees => agrees r row) then none
      else if guard old then
        if t.any (fun r => !target r row && others.any fun agrees => agrees r row) then none
        else some (t.map fun r => if target r row then row else r, 1)
      else some (t, 0)

/-! ## Rows of one owner -/

variable (owner : α → κ)

/-- The rows of an owner. -/
def rowsOf (k : κ) (t : List α) : List α := t.filter fun r => owner r = k

variable {owner}

theorem insert_eq_some {uniques : List (Constraint α)} {row : α} {t t' : List α} :
    insert uniques row t = some t' ↔
      (∀ old ∈ t, ∀ agrees ∈ uniques, agrees old row = false) ∧ t' = t ++ [row] := by
  unfold insert
  by_cases h : t.any (fun old => uniques.any fun agrees => agrees old row) = true
  · rw [if_pos h]
    obtain ⟨old, hold, hany⟩ := List.any_eq_true.mp h
    obtain ⟨agrees, hmem, hagrees⟩ := List.any_eq_true.mp hany
    constructor
    · intro hnone
      cases hnone
    · rintro ⟨hall, -⟩
      rw [hall old hold agrees hmem] at hagrees
      cases hagrees
  · rw [if_neg h]
    have hall : ∀ old ∈ t, ∀ agrees ∈ uniques, agrees old row = false := by
      intro old hold agrees hmem
      by_contra hagrees
      exact h (List.any_eq_true.mpr ⟨old, hold, List.any_eq_true.mpr
        ⟨agrees, hmem, by simpa using hagrees⟩⟩)
    constructor
    · intro hsome
      exact ⟨hall, (Option.some.inj hsome).symm⟩
    · rintro ⟨-, rfl⟩
      rfl

theorem rowsOf_append (k : κ) (t t' : List α) :
    rowsOf owner k (t ++ t') = rowsOf owner k t ++ rowsOf owner k t' :=
  List.filter_append t t'

theorem rowsOf_singleton (row : α) : rowsOf owner (owner row) [row] = [row] := by
  unfold rowsOf
  rw [List.filter_cons_of_pos (by simp), List.filter_nil]

theorem rowsOf_singleton_of_ne {k : κ} {row : α} (h : owner row ≠ k) :
    rowsOf owner k [row] = [] := by
  unfold rowsOf
  rw [List.filter_cons_of_neg (by simpa using h), List.filter_nil]

/-- The rows of an owner after an insertion. -/
theorem rowsOf_insert {uniques : List (Constraint α)} {row : α} {t t' : List α}
    (h : insert uniques row t = some t') (k : κ) :
    rowsOf owner k t' = if owner row = k then rowsOf owner k t ++ [row] else rowsOf owner k t := by
  obtain ⟨-, rfl⟩ := insert_eq_some.mp h
  rw [rowsOf_append]
  by_cases hk : owner row = k
  · subst hk
    rw [if_pos rfl, rowsOf_singleton]
  · rw [if_neg hk, rowsOf_singleton_of_ne hk, List.append_nil]

theorem rowsOf_map {k : κ} {f : α → α} {t : List α} (hf : ∀ r, owner r = k → f r = r)
    (howner : ∀ r, owner (f r) = owner r) : rowsOf owner k (t.map f) = rowsOf owner k t := by
  induction t with
  | nil => rfl
  | cons r t ih =>
    unfold rowsOf at ih ⊢
    rw [List.map_cons]
    by_cases hr : owner r = k
    · rw [List.filter_cons_of_pos (by simpa [howner] using hr),
        List.filter_cons_of_pos (by simpa using hr), hf r hr, ih]
    · rw [List.filter_cons_of_neg (by simpa [howner] using hr),
        List.filter_cons_of_neg (by simpa using hr), ih]

section Upsert

variable {others : List (Constraint α)} {othersFirst : Bool} {guard : α → Bool} {row : α}
  {t t' : List α} {changes : ℕ}

/-- The target of the upserts here: the owner. -/
def sameOwner (owner : α → κ) : Constraint α := fun r r' => owner r = owner r'

theorem find?_sameOwner (t : List α) (row : α) :
    t.find? (fun old => sameOwner owner old row) = (rowsOf owner (owner row) t).head? := by
  unfold rowsOf sameOwner
  rw [List.head?_filter]

/-- What an upsert by owner does, where no owner has two rows. -/
theorem upsert_cases (h : upsert (sameOwner owner) others othersFirst guard row t =
      some (t', changes)) (hone : (rowsOf owner (owner row) t).length ≤ 1) :
    (rowsOf owner (owner row) t = [] ∧ changes = 1 ∧ rowsOf owner (owner row) t' = [row] ∨
      ∃ old, rowsOf owner (owner row) t = [old] ∧
        (guard old = true ∧ changes = 1 ∧ rowsOf owner (owner row) t' = [row] ∨
          guard old = false ∧ changes = 0 ∧ t' = t)) ∧
    ∀ k, k ≠ owner row → rowsOf owner k t' = rowsOf owner k t := by
  unfold upsert at h
  rw [find?_sameOwner] at h
  rcases hrows : rowsOf owner (owner row) t with _ | ⟨old, rest⟩
  · rw [hrows] at h
    obtain ⟨t₁, hinsert, heq⟩ := Option.map_eq_some_iff.mp h
    obtain ⟨rfl, rfl⟩ := Prod.mk.inj heq
    refine ⟨.inl ⟨rfl, rfl, ?_⟩, fun k hk => ?_⟩
    · rw [rowsOf_insert hinsert, if_pos rfl, hrows, List.nil_append]
    · rw [rowsOf_insert hinsert, if_neg (Ne.symm hk)]
  · have hrest : rest = [] := by
      rw [hrows, List.length_cons] at hone
      exact List.length_eq_zero_iff.mp (by omega)
    subst hrest
    rw [hrows, List.head?_cons] at h
    dsimp only at h
    split_ifs at h with hfirst hguard hothers
    · -- The old row gives way to the new one.
      obtain ⟨rfl, rfl⟩ := Prod.mk.inj (Option.some.inj h)
      have howner : ∀ r, owner (if sameOwner owner r row = true then row else r) = owner r := by
        intro r
        split
        · rename_i hsame
          exact (of_decide_eq_true hsame).symm
        · rfl
      refine ⟨.inr ⟨old, rfl, .inl ⟨hguard, rfl, ?_⟩⟩, fun k hk => ?_⟩
      · have hmap : ∀ u : List α, rowsOf owner (owner row)
            (u.map fun r => if sameOwner owner r row = true then row else r) =
            (rowsOf owner (owner row) u).map fun _ => row := by
          intro u
          induction u with
          | nil => rfl
          | cons r u ih =>
            unfold rowsOf at ih ⊢
            rw [List.map_cons]
            by_cases hr : owner r = owner row
            · rw [if_pos (show sameOwner owner r row = true from decide_eq_true hr), List.filter_cons_of_pos (by simp),
                List.filter_cons_of_pos (by simpa using hr), List.map_cons, ih]
            · rw [if_neg (by simpa [sameOwner] using hr),
                List.filter_cons_of_neg (by simpa using hr),
                List.filter_cons_of_neg (by simpa using hr), ih]
        rw [hmap, hrows, List.map_singleton]
      · refine rowsOf_map (fun r hr => ?_) howner
        rw [if_neg]
        intro hsame
        exact hk (hr.symm.trans (of_decide_eq_true hsame))
    · obtain ⟨rfl, rfl⟩ := Prod.mk.inj (Option.some.inj h)
      exact ⟨.inr ⟨old, rfl, .inr ⟨by simpa using hguard, rfl, rfl⟩⟩, fun _ _ => rfl⟩

end Upsert

/-! ## The largest values -/

/-- `SELECT .. ORDER BY .. DESC LIMIT n`. -/
def largest (n : ℕ) (values : List ℤ) : List ℤ := (values.mergeSort fun a b => b ≤ a).take n

theorem mem_largest {xs : List ℤ} (h : xs.Pairwise (· < ·)) (n : ℕ) {x : ℤ} :
    x ∈ largest n xs ↔ x ∈ xs.rtake n := by
  have hsort : xs.mergeSort (fun a b => b ≤ a) = xs.reverse := by
    refine List.Perm.eq_of_pairwise' (r := (· ≥ ·)) ?_ ?_
      ((List.mergeSort_perm _ _).trans xs.reverse_perm.symm)
    · exact (List.pairwise_mergeSort (fun a b c => by simp; omega) (fun a b => by simp; omega)
        xs).imp fun h => by simpa using h
    · exact List.pairwise_reverse.mpr (h.imp fun h => le_of_lt h)
  rw [largest, hsort, List.rtake_eq_reverse_take_reverse, List.mem_reverse]

/-- The rows of the largest values, where the values increase from row to row. -/
theorem filter_largest {rows : List α} {f : α → ℤ} (h : rows.Pairwise fun r s => f r < f s)
    (n : ℕ) : (rows.filter fun r => (largest n (rows.map f)).contains (f r)) = rows.rtake n := by
  have hmap : (rows.map f).Pairwise (· < ·) := List.pairwise_map.mpr h
  have hkept : (rows.map f).rtake n = (rows.rtake n).map f := by
    unfold List.rtake
    rw [List.length_map, List.map_drop]
  have hmem : ∀ r, (largest n (rows.map f)).contains (f r) = true ↔
      ∃ s ∈ rows.rtake n, f s = f r := by
    intro r
    rw [List.contains_iff_mem, mem_largest hmap, hkept, List.mem_map]
  have hsplit : rows = rows.take (rows.length - n) ++ rows.rtake n :=
    (List.take_append_drop _ _).symm
  have hpair := h
  rw [hsplit, List.pairwise_append] at hpair
  obtain ⟨-, -, hcross⟩ := hpair
  conv_lhs => arg 2; rw [hsplit]
  rw [List.filter_append, List.filter_eq_nil_iff.mpr, List.nil_append, List.filter_eq_self.mpr]
  · intro r hr
    exact (hmem r).mpr ⟨r, hr, rfl⟩
  · intro r hr hlast
    obtain ⟨s, hs, heq⟩ := (hmem r).mp hlast
    have := hcross r hr s hs
    omega
end SqlTable
