/-
# Canonical JSON

`json.dumps` with sorted keys, no blanks and no escapes outside of ASCII, as bytes.  Several
modules of the program have their own copy of this function with a limit of their own.

* `Json.encoding` is the canonical encoding and `Json.boundedEncoding` the one with a limit;
* `Json.encoding_injective` : two documents with one encoding are one document;
* `Json.equalsInt` is `==` of a value and an integer.
-/
import CogniOS.Util
import CogniOS.Utf8

namespace Json

/-! ## Encoding -/

/-- The canonical encoding of a value. -/
def encoding (value : Json) : List UInt8 := Utf8.encode (value.dumps 0)

/-- The canonical encoding is injective on dictionaries. -/
theorem encoding_injective {v w : Json} (hv : v.WellFormed) (hw : w.WellFormed)
    (heq : v.encoding = w.encoding) : v = w := by
  have htext : v.dumps 0 = w.dumps 0 := Utf8.encode_injective heq
  have hload := loads_dumps keepsSorted_lastWins 0 v hv
  rw [htext, loads_dumps keepsSorted_lastWins 0 w hw] at hload
  exact (Option.some.inj hload).symm

/-- The canonical encoding, or the exception where it is longer than the limit. -/
def boundedEncoding (value : Json) (limit : ℕ) (e : CogniError) :
    Except CogniError (List UInt8) :=
  if limit < value.encoding.length then .error e else .ok value.encoding

theorem boundedEncoding_eq_ok {value : Json} {limit : ℕ} {e : CogniError}
    {encoded : List UInt8} :
    value.boundedEncoding limit e = .ok encoded ↔
      value.encoding.length ≤ limit ∧ encoded = value.encoding := by
  unfold boundedEncoding
  by_cases hlong : limit < value.encoding.length
  · rw [if_pos hlong]
    constructor
    · intro hok
      cases hok
    · rintro ⟨hle, -⟩
      omega
  · rw [if_neg hlong]
    constructor
    · intro hok
      cases hok
      exact ⟨by omega, rfl⟩
    · rintro ⟨-, rfl⟩
      rfl

/-! ## Comparisons -/

theorem asStr?_eq_some {value : Json} {s : String} : value.asStr? = some s ↔ value = .str s := by
  cases value <;> simp [asStr?]

theorem asInt?_eq_some {value : Json} {n : ℤ} : value.asInt? = some n ↔ value = .int n := by
  cases value <;> simp [asInt?]

/-- `==` of a value and an integer: an integral float is its integer, and the booleans are
0 and 1. -/
def equalsInt (n : ℤ) : Json → Bool
  | .int m => m = n
  | .bool b => (if b then 1 else 0) = n
  | .float x =>
      x.text.toList = JsonNumber.intText n ++ ['.', '0'] || (n = 0 && x.text = "-0.0")
  | _ => false

/-- `==` of a value and a scalar. -/
def equalsScalar (value : Json) : Json → Bool
  | .int n => equalsInt n value
  | .bool b => equalsInt (if b then 1 else 0) value
  | scalar => value = scalar

/-- The value is a string of `n` lowercase hexadecimal digits. -/
def isHexText (n : ℕ) (value : Json) : Bool := value.asStr?.any (Hex.isHex n)

/-! ## Sizes -/

/-- A character of an identifier: an ASCII letter or digit, a dot, an underscore or a hyphen. -/
def isPlainChar (c : Char) : Bool := isAlnum c || c ∈ ['.', '_', '-']

/-- A text of such characters. -/
def isPlain (s : String) : Bool := s.toList.all isPlainChar

theorem toNat_of_isPlainChar {c : Char} (hc : isPlainChar c = true) :
    0x2d ≤ c.toNat ∧ c.toNat < 0x7f ∧ c.toNat ≠ 0x5c := by
  simp only [isPlainChar, isAlnum, Bool.or_eq_true, Bool.and_eq_true, decide_eq_true_eq,
    List.mem_cons, List.not_mem_nil, or_false] at hc
  rcases hc with ((⟨hlow, hhigh⟩ | ⟨hlow, hhigh⟩) | ⟨hlow, hhigh⟩) | rfl | rfl | rfl
  · have hlow : 97 ≤ c.toNat := hlow
    have hhigh : c.toNat ≤ 122 := hhigh
    omega
  · have hlow : 65 ≤ c.toNat := hlow
    have hhigh : c.toNat ≤ 90 := hhigh
    omega
  · have hlow : 48 ≤ c.toNat := hlow
    have hhigh : c.toNat ≤ 57 := hhigh
    omega
  all_goals decide

theorem escapeChar_of_isPlainChar {c : Char} (hc : isPlainChar c = true) : escapeChar c = [c] := by
  obtain ⟨hlow, -, hslash⟩ := toNat_of_isPlainChar hc
  have hne : ∀ d : Char, d.toNat < 0x2d ∨ d.toNat = 0x5c → c ≠ d := by
    rintro d hd rfl
    omega
  unfold escapeChar
  rw [if_neg (hne _ (.inl (by decide))), if_neg (hne _ (.inr (by decide))),
    if_neg (hne _ (.inl (by decide))), if_neg (hne _ (.inl (by decide))),
    if_neg (hne _ (.inl (by decide))), if_neg (hne _ (.inl (by decide))),
    if_neg (hne _ (.inl (by decide))), if_neg (by omega)]

theorem flatMap_escapeChar_self {cs : List Char} (h : ∀ c ∈ cs, escapeChar c = [c]) :
    cs.flatMap escapeChar = cs := by
  induction cs with
  | nil => rfl
  | cons c cs ih =>
    obtain ⟨hc, hrest⟩ := List.forall_mem_cons.mp h
    rw [List.flatMap_cons, hc, ih hrest]
    rfl

theorem flatMap_escapeChar {cs : List Char} (h : cs.all isPlainChar = true) :
    cs.flatMap escapeChar = cs :=
  flatMap_escapeChar_self fun c hc => escapeChar_of_isPlainChar (List.all_eq_true.mp h c hc)

/-- A plain text is quoted as it is. -/
theorem length_quote {s : String} (h : isPlain s = true) :
    (quote s.toList).length = s.toList.length + 2 := by
  unfold quote
  rw [flatMap_escapeChar h, List.length_cons, List.length_append]
  rfl

/-- Every key and every text of the document is plain. -/
def PlainTexts (value : Json) : Prop := ∀ s ∈ value.strings, isPlain s = true

theorem plainTexts_obj {fields : List (String × Json)} (h : ∀ p ∈ fields,
    isPlain p.1 = true ∧ p.2.PlainTexts) : (Json.obj fields).PlainTexts := by
  intro s hs
  change s ∈ stringsFields fields at hs
  induction fields with
  | nil => exact absurd hs List.not_mem_nil
  | cons p rest ih =>
    rcases List.mem_cons.mp hs with rfl | hs
    · exact (h p List.mem_cons_self).1
    · rcases List.mem_append.mp hs with hs | hs
      · exact (h p List.mem_cons_self).2 s hs
      · exact ih (fun q hq => h q (List.mem_cons_of_mem _ hq)) hs

theorem plainTexts_str {s : String} (h : isPlain s = true) : (Json.str s).PlainTexts := by
  intro t ht
  rw [List.mem_singleton.mp ht]
  exact h

theorem plainTexts_int (n : ℤ) : (Json.int n).PlainTexts := fun _ hs => absurd hs List.not_mem_nil

/-- A document of plain texts has as many bytes as characters. -/
theorem length_encoding {value : Json} (h : value.PlainTexts) :
    value.encoding.length = (value.dumps 0).length := by
  refine Utf8.length_encode_ascii fun c hc => ?_
  by_contra hlarge
  obtain ⟨s, hs, hmem⟩ := (mem_dumps_iff 0 value (by omega)).mp hc
  have hplain := List.all_eq_true.mp (h s hs) c hmem
  have := (toNat_of_isPlainChar hplain).2.1
  omega

/-- A number of at most `k` digits. -/
theorem length_intText {n : ℤ} {k : ℕ} (hk : 0 < k) (hn : 0 ≤ n) (hlt : n < 10 ^ k) :
    (JsonNumber.intText n).length ≤ k := by
  unfold JsonNumber.intText
  rw [if_neg (by omega), Nat.length_toDigits_le_iff (by decide) hk]
  zify
  rwa [abs_of_nonneg hn]

theorem length_dumpsFields_cons (k : String) (v : Json) (rest : List (String × Json)) :
    (dumpsFields 0 ((k, v) :: rest)).length =
      (quote k.toList).length + (v.dumps 0).length + (dumpsFields 0 rest).length + 2 := by
  rw [dumpsFields]
  simp only [List.length_cons, List.length_append, List.length_replicate]
  omega

theorem length_dumps_obj (k : String) (v : Json) (rest : List (String × Json)) :
    ((Json.obj ((k, v) :: rest)).dumps 0).length =
      (quote k.toList).length + (v.dumps 0).length + (dumpsFields 0 rest).length + 2 := by
  rw [dumps]
  simp only [List.length_cons, List.length_append, List.length_replicate]
  omega

/-- What a key adds to the encoding of its object: its quotes, the colon and a separator. -/
def keyLength (k : String) : ℕ := (Utf8.encode (quote k.toList)).length + 2

/-- What the fields add to the encoding of their object. -/
def fieldsLength (fields : List (String × Json)) : ℕ :=
  (fields.map fun p => keyLength p.1).sum + (fields.map fun p => p.2.encoding.length).sum

theorem fieldsLength_cons (k : String) (v : Json) (rest : List (String × Json)) :
    fieldsLength ((k, v) :: rest) = keyLength k + v.encoding.length + fieldsLength rest := by
  simp only [fieldsLength, List.map_cons, List.sum_cons]
  omega

theorem fieldsLength_append (xs ys : List (String × Json)) :
    fieldsLength (xs ++ ys) = fieldsLength xs + fieldsLength ys := by
  simp only [fieldsLength, List.map_append, List.sum_append]
  omega

theorem length_encode_dumpsFields (fields : List (String × Json)) :
    (Utf8.encode (dumpsFields 0 fields)).length = fieldsLength fields + 1 := by
  induction fields with
  | nil => rfl
  | cons p rest ih =>
    obtain ⟨k, v⟩ := p
    have hcomma : (Utf8.encode [',']).length = 1 := rfl
    have hcolon : (Utf8.encode [':']).length = 1 := rfl
    have hsplit : dumpsFields 0 ((k, v) :: rest) =
        [','] ++ (quote k.toList ++ ([':'] ++ (v.dumps 0 ++ dumpsFields 0 rest))) := by
      rw [dumpsFields]
      rfl
    rw [hsplit]
    simp only [Utf8.encode_append, List.length_append, ih, hcomma, hcolon,
      fieldsLength_cons, keyLength, encoding]
    omega

/-- The length of an object with at least one field. -/
theorem length_encoding_obj {fields : List (String × Json)} (hne : fields ≠ []) :
    (Json.obj fields).encoding.length = fieldsLength fields + 1 := by
  cases fields with
  | nil => exact absurd rfl hne
  | cons p rest =>
    obtain ⟨k, v⟩ := p
    have hopen : (Utf8.encode ['\x7b']).length = 1 := rfl
    have hcolon : (Utf8.encode [':']).length = 1 := rfl
    have hsplit : (Json.obj ((k, v) :: rest)).dumps 0 =
        ['\x7b'] ++ (quote k.toList ++ ([':'] ++ (v.dumps 0 ++ dumpsFields 0 rest))) := by
      rw [dumps]
      rfl
    rw [encoding, hsplit]
    simp only [Utf8.encode_append, List.length_append, length_encode_dumpsFields, hopen, hcolon,
      fieldsLength_cons, keyLength, encoding]
    omega

/-- A plain text takes two bytes for its quotes. -/
theorem length_encoding_str {s : String} (h : isPlain s = true) :
    (Json.str s).encoding.length = s.length + 2 := by
  rw [length_encoding (plainTexts_str h), dumps, length_quote h]
  rfl

theorem length_encoding_int (n : ℤ) :
    (Json.int n).encoding.length = (JsonNumber.intText n).length := by
  rw [length_encoding (plainTexts_int n), dumps]

end Json
