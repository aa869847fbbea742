/-
# JSON values

A JSON document is an inductive value.  An object is the list of its items in
key order: encoders that sort their keys and an equality that ignores key order
cannot tell two orders apart, so key order is the normal form (`WellFormed`).

* `FloatLit` is a number literal with a fraction or an exponent, kept as text;
* `get?` and `keys` read an object;
* `ofPairs` builds an object from a list of pairs, the last value of a key winning.
-/
import Mathlib

/-! ## Number literals -/

namespace JsonNumber

/-- The digits `0 | [1-9][0-9]*` at the head of `cs`, and what follows. -/
def scanNat : List Char → Option (List Char × List Char)
  | '0' :: rest => some (['0'], rest)
  | c :: rest =>
      if c.isDigit then
        some (c :: rest.takeWhile Char.isDigit, rest.dropWhile Char.isDigit)
      else none
  | [] => none

/-- The integer part `-?(0|[1-9][0-9]*)`. -/
def scanInt : List Char → Option (List Char × List Char)
  | '-' :: rest => (scanNat rest).map fun p => ('-' :: p.1, p.2)
  | cs => scanNat cs

/-- The optional fraction `\.[0-9]+`; nothing is consumed when no digit follows. -/
def scanFrac : List Char → List Char × List Char
  | '.' :: rest =>
      if rest.takeWhile Char.isDigit = [] then ([], '.' :: rest)
      else ('.' :: rest.takeWhile Char.isDigit, rest.dropWhile Char.isDigit)
  | cs => ([], cs)

/-- The optional sign of an exponent. -/
def scanSign : List Char → List Char × List Char
  | '+' :: rest => (['+'], rest)
  | '-' :: rest => (['-'], rest)
  | cs => ([], cs)

/-- The optional exponent `[eE][-+]?[0-9]+`. -/
def scanExp : List Char → List Char × List Char
  | [] => ([], [])
  | c :: rest =>
      if c = 'e' ∨ c = 'E' then
        let (sign, tail) := scanSign rest
        if tail.takeWhile Char.isDigit = [] then ([], c :: rest)
        else (c :: sign ++ tail.takeWhile Char.isDigit, tail.dropWhile Char.isDigit)
      else ([], c :: rest)

/-- A number literal at the head of `cs`: its integer part, its fraction and
exponent, and what follows. -/
def scan (cs : List Char) : Option (List Char × List Char × List Char) :=
  (scanInt cs).map fun p =>
    ((p.1, (scanFrac p.2).1 ++ (scanExp (scanFrac p.2).2).1, (scanExp (scanFrac p.2).2).2))

/-- No continuation of a number literal starts here. -/
def Ends (rest : List Char) : Prop :=
  ∀ c ∈ rest.head?, c.isDigit = false ∧ c ∉ ['.', 'e', 'E', '+', '-']

theorem ends_nil : Ends [] := by simp [Ends]

theorem ends_cons {c : Char} (rest : List Char) (hc : c.isDigit = false)
    (hne : c ∉ ['.', 'e', 'E', '+', '-']) : Ends (c :: rest) := by
  intro d hd
  obtain rfl : c = d := by simpa using hd
  exact ⟨hc, hne⟩

theorem takeWhile_isDigit_append (cs : List Char) {rest : List Char} (h : Ends rest) :
    (cs ++ rest).takeWhile Char.isDigit = cs.takeWhile Char.isDigit := by
  induction cs with
  | nil =>
    cases rest with
    | nil => rfl
    | cons c rest => simp [List.takeWhile, (h c rfl).1]
  | cons d cs ih => by_cases hd : d.isDigit <;> simp [List.takeWhile, hd, ih]

theorem dropWhile_isDigit_append (cs : List Char) {rest : List Char} (h : Ends rest) :
    (cs ++ rest).dropWhile Char.isDigit = cs.dropWhile Char.isDigit ++ rest := by
  induction cs with
  | nil =>
    cases rest with
    | nil => rfl
    | cons c rest => simp [List.dropWhile, (h c rfl).1]
  | cons d cs ih => by_cases hd : d.isDigit <;> simp [List.dropWhile, hd, ih]

theorem scanNat_append (cs : List Char) {rest : List Char} (h : Ends rest) :
    scanNat (cs ++ rest) = (scanNat cs).map fun p => (p.1, p.2 ++ rest) := by
  cases cs with
  | nil =>
    cases rest with
    | nil => rfl
    | cons c rest =>
      have hc : c.isDigit = false := (h c rfl).1
      have hz : c ≠ '0' := by rintro rfl; exact absurd hc (by decide)
      rw [List.nil_append, scanNat, if_neg (by simp [hc])]
      · rfl
      · exact hz
  | cons c cs =>
    by_cases hz : c = '0'
    · subst hz; rfl
    · rw [List.cons_append, scanNat, scanNat]
      · by_cases hd : c.isDigit
        · rw [if_pos hd, if_pos hd, takeWhile_isDigit_append _ h, dropWhile_isDigit_append _ h]
          rfl
        · rw [if_neg hd, if_neg hd]
          rfl
      · exact hz
      · exact hz

theorem scanInt_append (cs : List Char) {rest : List Char} (h : Ends rest) :
    scanInt (cs ++ rest) = (scanInt cs).map fun p => (p.1, p.2 ++ rest) := by
  have hnat := scanNat_append cs h
  cases cs with
  | nil =>
    cases rest with
    | nil => rfl
    | cons c rest =>
      have hm : c ≠ '-' := fun e => (h c rfl).2 (by simp [e])
      rw [List.nil_append, scanInt]
      · exact hnat
      · intro tail heq; injection heq with h1 _; exact hm h1
  | cons c cs =>
    by_cases hm : c = '-'
    · subst hm
      simp only [List.cons_append, scanInt, scanNat_append cs h, Option.map_map]
      rfl
    · rw [List.cons_append, scanInt, scanInt]
      · exact hnat
      · intro tail heq; injection heq with h1 _; exact hm h1
      · intro tail heq; injection heq with h1 _; exact hm h1

theorem scanFrac_append (cs : List Char) {rest : List Char} (h : Ends rest) :
    scanFrac (cs ++ rest) = ((scanFrac cs).1, (scanFrac cs).2 ++ rest) := by
  cases cs with
  | nil =>
    cases rest with
    | nil => rfl
    | cons c rest =>
      have hc : c ≠ '.' := fun e => (h c rfl).2 (by simp [e])
      rw [List.nil_append, scanFrac.eq_def]
      split
      · rename_i heq; injection heq with h1 _; exact absurd h1 hc
      · rfl
  | cons c cs =>
    by_cases hc : c = '.'
    · subst hc
      simp only [List.cons_append, scanFrac]
      rw [takeWhile_isDigit_append _ h, dropWhile_isDigit_append _ h]
      split <;> rfl
    · rw [List.cons_append, scanFrac.eq_def]
      split
      · rename_i heq; injection heq with h1 _; exact absurd h1 hc
      · rw [scanFrac.eq_def (c :: cs)]
        split
        · rename_i heq; injection heq with h1 _; exact absurd h1 hc
        · rfl

theorem scanSign_append (cs : List Char) {rest : List Char} (h : Ends rest) :
    scanSign (cs ++ rest) = ((scanSign cs).1, (scanSign cs).2 ++ rest) := by
  cases cs with
  | nil =>
    cases rest with
    | nil => rfl
    | cons c rest =>
      have hp : c ≠ '+' := fun e => (h c rfl).2 (by simp [e])
      have hm : c ≠ '-' := fun e => (h c rfl).2 (by simp [e])
      rw [List.nil_append, scanSign.eq_def]
      split
      · rename_i heq; injection heq with h1 _; exact absurd h1 hp
      · rename_i heq; injection heq with h1 _; exact absurd h1 hm
      · rfl
  | cons c cs =>
    rw [List.cons_append, scanSign.eq_def, scanSign.eq_def (c :: cs)]
    split
    · rename_i heq; injection heq with h1 h2; subst h1 h2; rfl
    · rename_i heq; injection heq with h1 h2; subst h1 h2; rfl
    · rename_i hp hm
      split
      · rename_i heq; injection heq with h1 _; exact absurd (by rw [h1]) (hp (cs ++ rest))
      · rename_i heq; injection heq with h1 _; exact absurd (by rw [h1]) (hm (cs ++ rest))
      · rfl

theorem scanExp_append (cs : List Char) {rest : List Char} (h : Ends rest) :
    scanExp (cs ++ rest) = ((scanExp cs).1, (scanExp cs).2 ++ rest) := by
  cases cs with
  | nil =>
    cases rest with
    | nil => rfl
    | cons c rest =>
      have he : ¬ (c = 'e' ∨ c = 'E') := by
        rintro (e | e) <;> exact (h c rfl).2 (by simp [e])
      simp [scanExp, he]
  | cons c cs =>
    by_cases hc : c = 'e' ∨ c = 'E'
    · simp only [List.cons_append, scanExp, if_pos hc]
      rw [scanSign_append cs h, takeWhile_isDigit_append _ h, dropWhile_isDigit_append _ h]
      split <;> rfl
    · simp [scanExp, hc]

/-- A literal is read the same in front of any text that cannot continue it. -/
theorem scan_append (cs : List Char) {rest : List Char} (h : Ends rest) :
    scan (cs ++ rest) = (scan cs).map fun p => (p.1, p.2.1, p.2.2 ++ rest) := by
  unfold scan
  rw [scanInt_append cs h, Option.map_map, Option.map_map]
  congr 1
  funext p
  simp only [Function.comp, scanFrac_append _ h, scanExp_append _ h]

/-! ### What a literal consumes -/

theorem scanNat_split {cs a r : List Char} (h : scanNat cs = some (a, r)) : a ++ r = cs := by
  unfold scanNat at h
  split at h
  · obtain ⟨rfl, rfl⟩ := by simpa using h
    rfl
  · split at h
    · obtain ⟨rfl, rfl⟩ := by simpa using h
      simp
    · cases h
  · cases h

theorem scanInt_split {cs a r : List Char} (h : scanInt cs = some (a, r)) : a ++ r = cs := by
  unfold scanInt at h
  split at h
  · obtain ⟨⟨d, s⟩, hn, he⟩ := Option.map_eq_some_iff.mp h
    obtain ⟨rfl, rfl⟩ := by simpa using he
    simp [scanNat_split hn]
  · exact scanNat_split h

theorem scanFrac_split (cs : List Char) : (scanFrac cs).1 ++ (scanFrac cs).2 = cs := by
  unfold scanFrac
  split
  · split <;> simp
  · rfl

theorem scanSign_split (cs : List Char) : (scanSign cs).1 ++ (scanSign cs).2 = cs := by
  unfold scanSign
  split <;> rfl

theorem scanExp_split (cs : List Char) : (scanExp cs).1 ++ (scanExp cs).2 = cs := by
  unfold scanExp
  split
  · rfl
  · rename_i c rest
    have hs := scanSign_split rest
    split
    · simp only
      split
      · rfl
      · rw [List.cons_append, List.cons_append, List.append_assoc,
          List.takeWhile_append_dropWhile, hs]
    · rfl

theorem scan_split {cs a b r : List Char} (h : scan cs = some (a, b, r)) : a ++ b ++ r = cs := by
  obtain ⟨⟨i, t⟩, hi, he⟩ := Option.map_eq_some_iff.mp h
  obtain ⟨rfl, rfl, rfl⟩ := by simpa using he
  rw [List.append_assoc, List.append_assoc, scanExp_split, scanFrac_split, scanInt_split hi]

/-- What a literal consumed is read alone as the same literal. -/
theorem scan_prefix {cs a b r : List Char} (h : scan cs = some (a, b, r)) (hr : Ends r) :
    scan (a ++ b) = some (a, b, []) := by
  have happ := scan_append (a ++ b) hr
  rw [scan_split h, h] at happ
  obtain ⟨⟨a', b', r'⟩, hs, he⟩ := Option.map_eq_some_iff.mp happ.symm
  obtain ⟨rfl, rfl, hnil⟩ := by simpa using he
  rw [hs, hnil]

/-- More text after a literal that has ended changes nothing. -/
theorem scan_extend {cs a b r : List Char} (h : scan cs = some (a, b, r)) (hr : Ends r)
    (hne : r ≠ []) (q : List Char) : scan (cs ++ q) = some (a, b, r ++ q) := by
  have hrq : Ends (r ++ q) := by
    obtain ⟨c, r, rfl⟩ := List.exists_cons_of_ne_nil hne
    exact hr
  rw [← scan_split h, List.append_assoc, scan_append _ hrq, scan_prefix h hr]
  rfl

/-! ### The characters of a literal -/

/-- A character of a number literal. -/
def isNumberChar (c : Char) : Bool := c.isDigit || c ∈ ['.', 'e', 'E', '+', '-']

theorem isNumberChar_of_mem_takeWhile {c : Char} {cs : List Char}
    (h : c ∈ cs.takeWhile Char.isDigit) : isNumberChar c = true := by
  rw [isNumberChar, List.mem_takeWhile_imp h, Bool.true_or]

theorem isNumberChar_scanNat {cs a r : List Char} (h : scanNat cs = some (a, r)) :
    ∀ c ∈ a, isNumberChar c = true := by
  intro c hc
  unfold scanNat at h
  split at h
  · obtain ⟨rfl, rfl⟩ := by simpa using h
    obtain rfl : c = '0' := by simpa using hc
    decide
  · split at h
    · rename_i hd
      obtain ⟨rfl, rfl⟩ := by simpa using h
      rcases List.mem_cons.mp hc with rfl | hc
      · rw [isNumberChar, hd, Bool.true_or]
      · exact isNumberChar_of_mem_takeWhile hc
    · cases h
  · cases h

theorem isNumberChar_scanInt {cs a r : List Char} (h : scanInt cs = some (a, r)) :
    ∀ c ∈ a, isNumberChar c = true := by
  unfold scanInt at h
  split at h
  · obtain ⟨⟨d, s⟩, hn, he⟩ := Option.map_eq_some_iff.mp h
    obtain ⟨rfl, rfl⟩ := by simpa using he
    intro c hc
    rcases List.mem_cons.mp hc with rfl | hc
    · decide
    · exact isNumberChar_scanNat hn c hc
  · exact isNumberChar_scanNat h

theorem isNumberChar_scanFrac (cs : List Char) :
    ∀ c ∈ (scanFrac cs).1, isNumberChar c = true := by
  unfold scanFrac
  split
  · split
    · simp
    · intro c hc
      rcases List.mem_cons.mp hc with rfl | hc
      · decide
      · exact isNumberChar_of_mem_takeWhile hc
  · simp

theorem isNumberChar_scanSign (cs : List Char) :
    ∀ c ∈ (scanSign cs).1, isNumberChar c = true := by
  unfold scanSign
  split <;> simp [isNumberChar]

theorem isNumberChar_scanExp (cs : List Char) :
    ∀ c ∈ (scanExp cs).1, isNumberChar c = true := by
  unfold scanExp
  split
  · simp
  · rename_i e rest
    have hs := isNumberChar_scanSign rest
    split
    · rename_i he
      simp only
      split
      · simp
      · intro c hc
        rcases List.mem_append.mp hc with hc | hc
        · rcases List.mem_cons.mp hc with rfl | hc
          · obtain rfl | rfl := he <;> decide
          · exact hs c hc
        · exact isNumberChar_of_mem_takeWhile hc
    · simp

theorem isNumberChar_scan {cs a b r : List Char} (h : scan cs = some (a, b, r)) :
    ∀ c ∈ a ++ b, isNumberChar c = true := by
  obtain ⟨⟨i, t⟩, hi, he⟩ := Option.map_eq_some_iff.mp h
  obtain ⟨rfl, rfl, -⟩ := by simpa using he
  intro c hc
  rcases List.mem_append.mp hc with hc | hc
  · exact isNumberChar_scanInt hi c hc
  · rcases List.mem_append.mp hc with hc | hc
    · exact isNumberChar_scanFrac _ c hc
    · exact isNumberChar_scanExp _ c hc

/-- A literal is printable ASCII. -/
theorem toNat_of_isNumberChar {c : Char} (h : isNumberChar c = true) :
    0x20 ≤ c.toNat ∧ c.toNat < 0x7f := by
  simp only [isNumberChar, Bool.or_eq_true, decide_eq_true_eq, List.mem_cons, List.not_mem_nil,
    or_false] at h
  obtain h | rfl | rfl | rfl | rfl | rfl := h
  · simp only [Char.isDigit, Bool.and_eq_true, decide_eq_true_eq] at h
    have h1 : 48 ≤ c.toNat := h.1
    have h2 : c.toNat ≤ 57 := h.2
    omega
  all_goals decide

/-! ## Integer literals -/

/-- The decimal text of an integer. -/
def intText (n : ℤ) : List Char :=
  if n < 0 then '-' :: Nat.toDigits 10 n.natAbs else Nat.toDigits 10 n.natAbs

/-- The integer written by `intText`. -/
def intOfText : List Char → ℤ
  | '-' :: ds => -(Nat.ofDigitChars 10 ds 0 : ℤ)
  | ds => (Nat.ofDigitChars 10 ds 0 : ℤ)

theorem isDigit_of_mem_toDigits {n : ℕ} {c : Char} (h : c ∈ Nat.toDigits 10 n) :
    c.isDigit = true := by
  exact Nat.isDigit_of_mem_toDigits (by decide) (by decide) h

/-- Only zero is written with a leading zero. -/
theorem head_toDigits_ne_zero (n : ℕ) (hn : 0 < n) :
    ∀ c ∈ (Nat.toDigits 10 n).head?, c ≠ '0' := by
  induction n using Nat.strong_induction_on with
  | _ n ih =>
    by_cases hlt : n < 10
    · rw [Nat.toDigits_of_lt_base hlt]
      intro c hc
      obtain rfl : n.digitChar = c := by simpa using hc
      have hdig : ∀ m < 10, 0 < m → m.digitChar ≠ '0' := by decide
      exact hdig n hlt hn
    · have hge : 10 ≤ n := by omega
      rw [Nat.toDigits_of_base_le (by decide) hge]
      have hne : Nat.toDigits 10 (n / 10) ≠ [] := Nat.toDigits_ne_nil
      obtain ⟨d, ds, hds⟩ := List.exists_cons_of_ne_nil hne
      have := ih (n / 10) (by omega) (by omega)
      rw [hds] at this ⊢
      simpa using this

theorem takeWhile_all {p : Char → Bool} {cs : List Char} (h : ∀ c ∈ cs, p c = true) :
    cs.takeWhile p = cs ∧ cs.dropWhile p = [] :=
  ⟨List.takeWhile_eq_self_iff.mpr h, List.dropWhile_eq_nil_iff.mpr h⟩

theorem scanNat_toDigits (n : ℕ) : scanNat (Nat.toDigits 10 n) = some (Nat.toDigits 10 n, []) := by
  rcases Nat.eq_zero_or_pos n with rfl | hn
  · rw [Nat.toDigits_zero]; rfl
  · obtain ⟨d, ds, hds⟩ := List.exists_cons_of_ne_nil (Nat.toDigits_ne_nil (n := n) (b := 10))
    have hall : ∀ c ∈ d :: ds, c.isDigit = true := fun c hc =>
      isDigit_of_mem_toDigits (hds ▸ hc)
    have hd0 : d ≠ '0' := head_toDigits_ne_zero n hn d (by rw [hds]; rfl)
    obtain ⟨ht, hdr⟩ := takeWhile_all (fun c hc => hall c (List.mem_cons_of_mem _ hc))
    rw [hds, scanNat.eq_def]
    split
    · rename_i heq; injection heq with h1 _; exact absurd h1 hd0
    · rename_i heq
      injection heq with h1 h2
      subst h1 h2
      rw [if_pos (hall d List.mem_cons_self), ht, hdr]
    · rename_i heq; cases heq

theorem not_minus_of_isDigit {c : Char} (h : c.isDigit = true) : c ≠ '-' := by
  rintro rfl; exact absurd h (by decide)

theorem scanInt_intText (n : ℤ) : scanInt (intText n) = some (intText n, []) := by
  unfold intText
  split
  · rw [scanInt, scanNat_toDigits]; rfl
  · obtain ⟨d, ds, hds⟩ :=
      List.exists_cons_of_ne_nil (Nat.toDigits_ne_nil (n := n.natAbs) (b := 10))
    have hd : d ≠ '-' := not_minus_of_isDigit
      (isDigit_of_mem_toDigits (n := n.natAbs) (by rw [hds]; exact List.mem_cons_self))
    have hnat := scanNat_toDigits n.natAbs
    rw [hds] at hnat ⊢
    rw [scanInt.eq_def]
    split
    · rename_i heq; injection heq with h1 _; exact absurd h1 hd
    · exact hnat

theorem scan_intText (n : ℤ) : scan (intText n) = some (intText n, [], []) := by
  rw [scan, scanInt_intText]
  rfl

theorem intOfText_intText (n : ℤ) : intOfText (intText n) = n := by
  unfold intText
  split
  · rename_i hn
    rw [intOfText, Nat.ofDigitChars_ten_toDigits]
    omega
  · rename_i hn
    obtain ⟨d, ds, hds⟩ :=
      List.exists_cons_of_ne_nil (Nat.toDigits_ne_nil (n := n.natAbs) (b := 10))
    have hd : d ≠ '-' := not_minus_of_isDigit
      (isDigit_of_mem_toDigits (n := n.natAbs) (by rw [hds]; exact List.mem_cons_self))
    have hof := Nat.ofDigitChars_ten_toDigits (n := n.natAbs)
    rw [hds] at hof ⊢
    rw [intOfText.eq_def]
    split
    · rename_i heq; injection heq with h1 _; exact absurd h1 hd
    · rw [hof]; omega

theorem intText_ne_nil (n : ℤ) : intText n ≠ [] := by
  unfold intText
  split
  · simp
  · exact Nat.toDigits_ne_nil

end JsonNumber

/-- The text is one number literal with a fraction or an exponent. -/
def JsonNumber.isFloat (cs : List Char) : Bool :=
  match JsonNumber.scan cs with
  | some (_, b, []) => !b.isEmpty
  | _ => false

/-- A floating-point number is its literal: the shortest literal that a printer
writes for a float reads back as the same float, and no arithmetic is done here. -/
structure FloatLit where
  text : String
  ok : JsonNumber.isFloat text.toList = true
  deriving DecidableEq

/-! ## Values -/

/-- A JSON document. -/
inductive Json : Type where
  | null
  | bool (b : Bool)
  | int (n : ℤ)
  | float (x : FloatLit)
  | str (s : String)
  | arr (elems : List Json)
  | obj (fields : List (String × Json))

namespace Json

instance : Inhabited Json := ⟨.null⟩

mutual
/-- Structural equality as a boolean. -/
def beq : Json → Json → Bool
  | .null, .null => true
  | .bool a, .bool b => a == b
  | .int a, .int b => a == b
  | .float a, .float b => a.text == b.text
  | .str a, .str b => a == b
  | .arr a, .arr b => beqElems a b
  | .obj a, .obj b => beqFields a b
  | _, _ => false
def beqElems : List Json → List Json → Bool
  | [], [] => true
  | x :: xs, y :: ys => beq x y && beqElems xs ys
  | _, _ => false
def beqFields : List (String × Json) → List (String × Json) → Bool
  | [], [] => true
  | (k, x) :: xs, (l, y) :: ys => k == l && beq x y && beqFields xs ys
  | _, _ => false
end

theorem floatLit_eq_iff (a b : FloatLit) : a = b ↔ a.text = b.text := by
  obtain ⟨s, hs⟩ := a
  obtain ⟨t, ht⟩ := b
  simp

mutual
theorem beq_iff : ∀ a b : Json, beq a b = true ↔ a = b
  | .null, b => by cases b <;> simp [beq]
  | .bool _, b => by cases b <;> simp [beq]
  | .int _, b => by cases b <;> simp [beq]
  | .float _, b => by cases b <;> simp [beq, floatLit_eq_iff]
  | .str _, b => by cases b <;> simp [beq]
  | .arr xs, b => by
    cases b with
    | arr ys => simp [beq, beqElems_iff xs ys]
    | _ => simp [beq]
  | .obj xs, b => by
    cases b with
    | obj ys => simp [beq, beqFields_iff xs ys]
    | _ => simp [beq]
theorem beqElems_iff : ∀ a b : List Json, beqElems a b = true ↔ a = b
  | [], b => by cases b <;> simp [beqElems]
  | x :: xs, b => by
    cases b with
    | nil => simp [beqElems]
    | cons y ys => simp [beqElems, beq_iff x y, beqElems_iff xs ys]
theorem beqFields_iff : ∀ a b : List (String × Json), beqFields a b = true ↔ a = b
  | [], b => by cases b <;> simp [beqFields]
  | (k, x) :: xs, b => by
    cases b with
    | nil => simp [beqFields]
    | cons p ys =>
      obtain ⟨l, y⟩ := p
      simp [beqFields, beq_iff x y, beqFields_iff xs ys]
end

instance : DecidableEq Json := fun a b => decidable_of_iff _ (beq_iff a b)

/-! ## Reading objects -/

/-- The value of a key; `none` when the key is absent or the value is no object. -/
def get? (j : Json) (key : String) : Option Json :=
  match j with
  | .obj fields => fields.lookup key
  | _ => none

/-- The value of a key, `null` when it is absent. -/
def get (j : Json) (key : String) : Json := (j.get? key).getD .null

/-- The keys of an object in key order. -/
def keys : Json → List String
  | .obj fields => fields.map Prod.fst
  | _ => []

def isObj : Json → Bool
  | .obj _ => true
  | _ => false

def asStr? : Json → Option String
  | .str s => some s
  | _ => none

def asInt? : Json → Option ℤ
  | .int n => some n
  | _ => none

@[simp] theorem get?_obj (fields : List (String × Json)) (key : String) :
    (Json.obj fields).get? key = fields.lookup key := rfl

@[simp] theorem keys_obj (fields : List (String × Json)) :
    (Json.obj fields).keys = fields.map Prod.fst := rfl

@[simp] theorem isObj_obj (fields : List (String × Json)) : (Json.obj fields).isObj = true := rfl

@[simp] theorem asStr?_str (s : String) : (Json.str s).asStr? = some s := rfl

@[simp] theorem asInt?_int (n : ℤ) : (Json.int n).asInt? = some n := rfl

/-! ## Objects as dictionaries -/

/-- Set a key of an object kept in key order. -/
def setField (k : String) (v : Json) : List (String × Json) → List (String × Json)
  | [] => [(k, v)]
  | (l, w) :: rest =>
      if k < l then (k, v) :: (l, w) :: rest
      else if k = l then (k, v) :: rest
      else (l, w) :: setField k v rest

/-- The object of a list of pairs; a later pair replaces an earlier one. -/
def ofPairs (pairs : List (String × Json)) : List (String × Json) :=
  pairs.foldl (fun fields p => setField p.1 p.2 fields) []

/-- Keys strictly increasing. -/
def KeySorted (fields : List (String × Json)) : Prop :=
  fields.Pairwise fun p q => p.1 < q.1

instance (fields : List (String × Json)) : Decidable (KeySorted fields) := by
  unfold KeySorted; infer_instance

/-- The order of an object is the order of its keys; for literal keys it is decided. -/
theorem keySorted_iff {fields : List (String × Json)} :
    KeySorted fields ↔ (fields.map Prod.fst).Pairwise (· < ·) := by
  rw [KeySorted, List.pairwise_map]

theorem setField_append (k : String) (v : Json) (fields : List (String × Json))
    (h : ∀ p ∈ fields, p.1 < k) : setField k v fields = fields ++ [(k, v)] := by
  induction fields with
  | nil => rfl
  | cons p rest ih =>
    obtain ⟨l, w⟩ := p
    have hl : l < k := h _ List.mem_cons_self
    rw [setField, if_neg (not_lt_of_gt hl), if_neg (ne_of_gt hl),
      ih fun q hq => h q (List.mem_cons_of_mem _ hq)]
    rfl

theorem foldl_setField (acc fields : List (String × Json))
    (h : KeySorted (acc ++ fields)) :
    fields.foldl (fun fs p => setField p.1 p.2 fs) acc = acc ++ fields := by
  induction fields generalizing acc with
  | nil => simp
  | cons p rest ih =>
    have hlt : ∀ q ∈ acc, q.1 < p.1 := fun q hq =>
      (List.pairwise_append.mp h).2.2 q hq p List.mem_cons_self
    rw [List.foldl_cons, setField_append p.1 p.2 acc hlt, ih]
    · simp
    · simpa using h

/-- An object in key order is its own list of pairs. -/
theorem ofPairs_of_keySorted {fields : List (String × Json)} (h : KeySorted fields) :
    ofPairs fields = fields := by
  simpa [ofPairs] using foldl_setField [] fields (by simpa using h)

theorem KeySorted.nodup_keys {fields : List (String × Json)} (h : KeySorted fields) :
    (fields.map Prod.fst).Nodup := by
  rw [List.Nodup, List.pairwise_map]
  exact h.imp fun hpq => ne_of_lt hpq

mutual
/-- Every object in the document is in key order. -/
def WellFormed : Json → Prop
  | .arr elems => WellFormedElems elems
  | .obj fields => KeySorted fields ∧ WellFormedFields fields
  | _ => True
def WellFormedElems : List Json → Prop
  | [] => True
  | x :: xs => WellFormed x ∧ WellFormedElems xs
def WellFormedFields : List (String × Json) → Prop
  | [] => True
  | (_, v) :: rest => WellFormed v ∧ WellFormedFields rest
end

theorem wellFormedFields_iff (fields : List (String × Json)) :
    WellFormedFields fields ↔ ∀ p ∈ fields, WellFormed p.2 := by
  induction fields with
  | nil => simp [WellFormedFields]
  | cons p rest ih => obtain ⟨k, v⟩ := p; simp [WellFormedFields, ih]

theorem WellFormed.of_lookup {fields : List (String × Json)} {k : String} {v : Json}
    (h : WellFormedFields fields) (hv : fields.lookup k = some v) : WellFormed v := by
  induction fields with
  | nil => simp at hv
  | cons p rest ih =>
    obtain ⟨l, w⟩ := p
    rw [List.lookup_cons] at hv
    split at hv
    · obtain rfl : w = v := by simpa using hv
      exact h.1
    · exact ih h.2 hv

end Json
