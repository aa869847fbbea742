/-
# Rounding to integers

The two ways to round a rational to the nearest integer: halves to the even neighbour, and halves
upwards.

* both are within one half of their argument, monotone, and exact on integers;
* they differ exactly on `2 m + 1 / 2` (`halfEven_eq_halfUp_iff`);
* the bound by an even integer is a bound by the half above it (`halfEven_le_iff_of_even`).
-/
import Mathlib

namespace Rounding

/-- The nearest integer, halves to the even one. -/
def halfEven (q : ℚ) : ℤ :=
  if 2 * (q - ⌊q⌋) < 1 then ⌊q⌋
  else if 1 < 2 * (q - ⌊q⌋) then ⌊q⌋ + 1
  else if ⌊q⌋ % 2 = 0 then ⌊q⌋
  else ⌊q⌋ + 1

/-- The nearest integer, halves upwards. -/
def halfUp (q : ℚ) : ℤ := ⌊q + 1 / 2⌋

theorem halfUp_eq (q : ℚ) : halfUp q = if 2 * (q - ⌊q⌋) < 1 then ⌊q⌋ else ⌊q⌋ + 1 := by
  have hle := Int.floor_le q
  have hlt := Int.lt_floor_add_one q
  unfold halfUp
  rw [Int.floor_eq_iff]
  split_ifs with h
  · constructor <;> linarith
  · push_cast
    constructor <;> linarith

/-- The two roundings differ exactly halfway above an even integer. -/
theorem halfEven_eq_halfUp_iff (q : ℚ) :
    halfEven q = halfUp q ↔ ¬∃ m : ℤ, q = 2 * m + 1 / 2 := by
  rw [halfUp_eq]
  unfold halfEven
  have hfloor : ∀ m : ℤ, q = 2 * m + 1 / 2 → ⌊q⌋ = 2 * m := by
    rintro m rfl
    rw [Int.floor_eq_iff]
    push_cast
    constructor <;> linarith
  split_ifs with hlow hhigh heven
  · refine iff_of_true rfl ?_
    rintro ⟨m, hm⟩
    rw [hfloor m hm] at hlow
    push_cast at hlow
    linarith
  · refine iff_of_true rfl ?_
    rintro ⟨m, hm⟩
    rw [hfloor m hm] at hhigh
    push_cast at hhigh
    linarith
  · refine iff_of_false (by omega) ?_
    rw [not_not]
    refine ⟨⌊q⌋ / 2, ?_⟩
    have hhalf : 2 * (⌊q⌋ / 2) = ⌊q⌋ := by omega
    have hcast : (2 : ℚ) * ((⌊q⌋ / 2 : ℤ) : ℚ) = (⌊q⌋ : ℚ) := by exact_mod_cast hhalf
    linarith
  · refine iff_of_true rfl ?_
    rintro ⟨m, hm⟩
    have := hfloor m hm
    omega

theorem halfEven_le_halfUp (q : ℚ) : halfEven q ≤ halfUp q ∧ halfUp q ≤ halfEven q + 1 := by
  rw [halfUp_eq]
  unfold halfEven
  split_ifs <;> omega

/-- A rounding is within one half. -/
theorem halfUp_near (q : ℚ) : q - 1 / 2 < halfUp q ∧ (halfUp q : ℚ) ≤ q + 1 / 2 := by
  have hle := Int.floor_le (q + 1 / 2)
  have hlt := Int.lt_floor_add_one (q + 1 / 2)
  unfold halfUp
  constructor <;> linarith

theorem halfEven_near (q : ℚ) : q - 1 / 2 ≤ halfEven q ∧ (halfEven q : ℚ) ≤ q + 1 / 2 := by
  have hle := Int.floor_le q
  have hlt := Int.lt_floor_add_one q
  unfold halfEven
  split_ifs
  all_goals push_cast
  all_goals constructor <;> linarith

theorem halfUp_intCast (n : ℤ) : halfUp n = n := by
  unfold halfUp
  rw [Int.floor_eq_iff]
  constructor <;> linarith

theorem halfEven_intCast (n : ℤ) : halfEven n = n := by
  unfold halfEven
  rw [Int.floor_intCast, sub_self, if_pos (by norm_num)]

theorem halfUp_mono : Monotone halfUp := fun _ _ h => Int.floor_le_floor (by linarith)

theorem halfEven_mono : Monotone halfEven := by
  intro p q h
  by_cases hsame : ⌊p⌋ = ⌊q⌋
  · unfold halfEven
    rw [hsame]
    split_ifs <;> first | omega | (exfalso; linarith)
  · have hfloor : ⌊p⌋ < ⌊q⌋ := lt_of_le_of_ne (Int.floor_le_floor h) hsame
    have hp : halfEven p ≤ ⌊p⌋ + 1 := by
      unfold halfEven
      split_ifs <;> omega
    have hq : ⌊q⌋ ≤ halfEven q := by
      unfold halfEven
      split_ifs <;> omega
    omega

/-- A half above an even integer is rounded down to it. -/
theorem halfEven_le_iff_of_even {q : ℚ} {m : ℤ} (hm : m % 2 = 0) :
    halfEven q ≤ m ↔ q ≤ m + 1 / 2 := by
  constructor
  · intro h
    have hcast : (halfEven q : ℚ) ≤ m := by exact_mod_cast h
    linarith [(halfEven_near q).1]
  · intro h
    have hfloor : ⌊(m + 1 / 2 : ℚ)⌋ = m := by
      rw [Int.floor_eq_iff]
      constructor <;> linarith
    have hhalf : halfEven (m + 1 / 2 : ℚ) = m := by
      unfold halfEven
      rw [hfloor, if_neg (by norm_num), if_neg (by norm_num), if_pos hm]
    exact hhalf ▸ halfEven_mono h

end Rounding
