/-
# Streams of chunks

A source that delivers its bytes in pieces, as a socket or a pipe does: a read returns what the
next piece holds of what was asked for, and may return less.

* `read` : one read;
* `readExact` : reads until a number of bytes is there;
* `readExact_eq_some` : its result does not depend on the pieces.
-/
import Mathlib

namespace ByteStream

variable {α : Type}

/-! ## One read -/

/-- One read of at most `n` items: what it returns, and the pieces that are left.  A read at the
end of the stream returns nothing. -/
def read (n : ℕ) : List (List α) → List α × List (List α)
  | [] => ([], [])
  | c :: cs => (c.take n, if c.length ≤ n then cs else c.drop n :: cs)

/-- A piece that is not longer than what is asked for is returned whole. -/
theorem read_whole {n : ℕ} {c : List α} (cs : List (List α)) (h : c.length ≤ n) :
    read n (c :: cs) = (c, cs) := by
  rw [read, List.take_of_length_le h, if_pos h]

/-- Pieces that carry something. -/
def Carrying (cs : List (List α)) : Prop := ∀ c ∈ cs, c ≠ []

theorem Carrying.tail {c : List α} {cs : List (List α)} (h : Carrying (c :: cs)) : Carrying cs :=
  fun d hd => h d (List.mem_cons_of_mem c hd)

/-- A read loses nothing. -/
theorem read_flatten (n : ℕ) (cs : List (List α)) :
    (read n cs).1 ++ (read n cs).2.flatten = cs.flatten := by
  cases cs with
  | nil => rfl
  | cons c cs =>
    rw [read]
    split
    · rw [List.take_of_length_le ‹_›, List.flatten_cons]
    · rw [List.flatten_cons, List.flatten_cons, ← List.append_assoc, List.take_append_drop]

theorem read_length_le (n : ℕ) (cs : List (List α)) : (read n cs).1.length ≤ n := by
  cases cs with
  | nil => exact Nat.zero_le n
  | cons c cs => exact (List.length_take_le n c)

theorem Carrying.read {n : ℕ} {cs : List (List α)} (h : Carrying cs) :
    Carrying (read n cs).2 := by
  cases cs with
  | nil => exact h
  | cons c cs =>
    rw [ByteStream.read]
    split
    · exact h.tail
    · intro d hd
      rcases List.mem_cons.mp hd with rfl | hd
      · exact List.ne_nil_of_length_pos (by rw [List.length_drop]; omega)
      · exact h.tail d hd

/-- A read of something returns something, unless the stream has ended. -/
theorem Carrying.read_ne_nil {n : ℕ} {cs : List (List α)} (h : Carrying cs) (hn : 0 < n)
    (hcs : cs.flatten ≠ []) : (ByteStream.read n cs).1 ≠ [] := by
  cases cs with
  | nil => exact absurd rfl hcs
  | cons c cs =>
    have hc : c ≠ [] := h c List.mem_cons_self
    have hpos := List.length_pos_iff.mpr hc
    rw [ByteStream.read]
    exact List.ne_nil_of_length_pos (by rw [List.length_take]; omega)

/-! ## Reads until enough is there -/

/-- Reads until `size` items are there: nothing where the stream ends before. -/
def readExact (size : ℕ) (result : List α) (cs : List (List α)) :
    Option (List α × List (List α)) :=
  if result.length < size then
    if (read (size - result.length) cs).1.length = 0 then none
    else readExact size (result ++ (read (size - result.length) cs).1)
      (read (size - result.length) cs).2
  else some (result, cs)
termination_by size - result.length
decreasing_by
  rw [List.length_append]
  omega

/-- **What is read does not depend on the pieces**: it is what the stream holds. -/
theorem readExact_eq_some {size : ℕ} {result : List α} {cs : List (List α)}
    (hcs : Carrying cs) (hresult : result.length ≤ size)
    (hsize : size ≤ (result ++ cs.flatten).length) :
    ∃ rest, readExact size result cs = some ((result ++ cs.flatten).take size, rest) ∧
      Carrying rest ∧ rest.flatten = (result ++ cs.flatten).drop size := by
  fun_induction readExact size result cs with
  | case1 result cs hlt hnil =>
    have hne : cs.flatten ≠ [] := by
      intro hempty
      rw [hempty, List.append_nil] at hsize
      omega
    exact absurd (List.length_eq_zero_iff.mp hnil) (hcs.read_ne_nil (by omega) hne)
  | case2 result cs hlt hne ih =>
    have hflat : result ++ (read (size - result.length) cs).1 ++
        (read (size - result.length) cs).2.flatten = result ++ cs.flatten := by
      rw [List.append_assoc, read_flatten]
    have hlen := read_length_le (size - result.length) cs
    have := ih hcs.read (by rw [List.length_append]; omega) (by rw [hflat]; exact hsize)
    rwa [hflat] at this
  | case3 result cs hge =>
    have hlen : result.length = size := by omega
    refine ⟨cs, ?_, hcs, ?_⟩
    · rw [← hlen, List.take_left]
    · rw [← hlen, List.drop_left]

end ByteStream
