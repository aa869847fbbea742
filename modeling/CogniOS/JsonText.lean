/-
# JSON text

The printer and the scanner of JSON text, and the round trip between them.

* `dumps pad` prints a value as `json.dumps(ensure_ascii=False, sort_keys=True)`
  does: `pad = 0` for `separators=(",", ":")`, `pad = 1` for the default `", "`
  and `": "`;
* `loads hook` reads a text as `json.loads` does; `hook` turns the pairs of an
  object into its fields (`lastWins`) or refuses them (`uniqueKeys`);
* `loads_dumps` : a well-formed value is read back from its text;
* `loads_prefix_dumps` : no strict prefix of an object's text is a document.

A `\u` escape of a lone surrogate is refused: a `Char` is a Unicode scalar value.
-/
import CogniOS.JsonValue

namespace Json

/-! ## Printing -/

/-- The escape of one character inside a string literal; only the quote, the
backslash and the control characters below U+0020 are escaped. -/
def escapeChar (c : Char) : List Char :=
  if c = '\"' then ['\\', '\"']
  else if c = '\\' then ['\\', '\\']
  else if c = '\n' then ['\\', 'n']
  else if c = '\r' then ['\\', 'r']
  else if c = '\t' then ['\\', 't']
  else if c = '\x0c' then ['\\', 'f']
  else if c = '\x08' then ['\\', 'b']
  else if c.toNat < 0x20 then
    ['\\', 'u', '0', '0', Nat.digitChar (c.toNat / 16), Nat.digitChar (c.toNat % 16)]
  else [c]

/-- A string literal with its quotes. -/
def quote (s : List Char) : List Char :=
  '\"' :: (s.flatMap escapeChar ++ ['\"'])

mutual
/-- The text of a value, with `pad` spaces after each separator. -/
def dumps (pad : ℕ) : Json → List Char
  | .null => ['n', 'u', 'l', 'l']
  | .bool true => ['t', 'r', 'u', 'e']
  | .bool false => ['f', 'a', 'l', 's', 'e']
  | .int n => JsonNumber.intText n
  | .float x => x.text.toList
  | .str s => quote s.toList
  | .arr [] => ['[', ']']
  | .arr (x :: xs) => '[' :: (dumps pad x ++ dumpsElems pad xs)
  | .obj [] => ['{', '}']
  | .obj ((k, v) :: rest) =>
      '{' :: (quote k.toList ++
        ':' :: (List.replicate pad ' ' ++ (dumps pad v ++ dumpsFields pad rest)))
/-- The remaining elements of an array and its closing bracket. -/
def dumpsElems (pad : ℕ) : List Json → List Char
  | [] => [']']
  | x :: xs => ',' :: (List.replicate pad ' ' ++ (dumps pad x ++ dumpsElems pad xs))
/-- The remaining items of an object and its closing brace. -/
def dumpsFields (pad : ℕ) : List (String × Json) → List Char
  | [] => ['}']
  | (k, v) :: rest =>
      ',' :: (List.replicate pad ' ' ++ (quote k.toList ++
        ':' :: (List.replicate pad ' ' ++ (dumps pad v ++ dumpsFields pad rest))))
end

/-! ## Scanning -/

/-- The whitespace that JSON allows between tokens. -/
def isWs (c : Char) : Bool := c = ' ' || c = '\t' || c = '\n' || c = '\r'

def skipWs (cs : List Char) : List Char := cs.dropWhile isWs

def hexVal (c : Char) : Option ℕ :=
  if '0' ≤ c ∧ c ≤ '9' then some (c.toNat - '0'.toNat)
  else if 'a' ≤ c ∧ c ≤ 'f' then some (c.toNat - 'a'.toNat + 10)
  else if 'A' ≤ c ∧ c ≤ 'F' then some (c.toNat - 'A'.toNat + 10)
  else none

/-- The code unit of four hexadecimal digits. -/
def hex4 (a b c d : Char) : Option ℕ := do
  let a ← hexVal a
  let b ← hexVal b
  let c ← hexVal c
  let d ← hexVal d
  return ((a * 16 + b) * 16 + c) * 16 + d

/-- The character of a one-letter escape. -/
def unescape (c : Char) : Option Char :=
  if c = '\"' then some '\"'
  else if c = '\\' then some '\\'
  else if c = '/' then some '/'
  else if c = 'b' then some '\x08'
  else if c = 'f' then some '\x0c'
  else if c = 'n' then some '\n'
  else if c = 'r' then some '\r'
  else if c = 't' then some '\t'
  else none

/-- The character of an escape after its backslash, and what follows it; two `\u`
escapes of a surrogate pair are one character. -/
def scanEscape : List Char → Option (Char × List Char)
  | 'u' :: a :: b :: c :: d :: tail =>
      match hex4 a b c d with
      | none => none
      | some hi =>
          if 0xd800 ≤ hi ∧ hi ≤ 0xdbff then
            match tail with
            | '\\' :: 'u' :: a :: b :: c :: d :: tail =>
                match hex4 a b c d with
                | none => none
                | some lo =>
                    if 0xdc00 ≤ lo ∧ lo ≤ 0xdfff then
                      some (Char.ofNat (0x10000 + (hi - 0xd800) * 1024 + (lo - 0xdc00)), tail)
                    else none
            | _ => none
          else if 0xdc00 ≤ hi ∧ hi ≤ 0xdfff then none
          else some (Char.ofNat hi, tail)
  | e :: tail => (unescape e).map fun c => (c, tail)
  | [] => none

/-- The body of a string literal up to its closing quote, which is dropped.  Raw
control characters are refused; the number bounds the recursion. -/
def scanChars : ℕ → List Char → Option (List Char × List Char)
  | 0, _ => none
  | _ + 1, [] => none
  | n + 1, c :: rest =>
      if c = '\"' then some ([], rest)
      else if c = '\\' then
        match scanEscape rest with
        | none => none
        | some (d, tail) => (scanChars n tail).map fun p => (d :: p.1, p.2)
      else if c.toNat < 0x20 then none
      else (scanChars n rest).map fun p => (c :: p.1, p.2)

/-- The body of a string literal after its opening quote, and what follows its
closing quote. -/
def scanString (cs : List Char) : Option (List Char × List Char) := scanChars (cs.length + 1) cs

/-- The value of a number literal. -/
def ofNumber (a b : List Char) : Option Json :=
  if b = [] then some (.int (JsonNumber.intOfText a))
  else if h : JsonNumber.isFloat (String.ofList (a ++ b)).toList = true then
    some (.float ⟨String.ofList (a ++ b), h⟩)
  else none

def scanNumber (cs : List Char) : Option (Json × List Char) :=
  match JsonNumber.scan cs with
  | some (a, b, rest) => (ofNumber a b).map fun v => (v, rest)
  | none => none

/-- How the pairs of an object become its fields. -/
abbrev PairsHook := List (String × Json) → Option (List (String × Json))

/-- `json.loads` without a hook: the last value of a repeated key stays. -/
def lastWins : PairsHook := fun pairs => some (ofPairs pairs)

/-- A hook that refuses a repeated key. -/
def uniqueKeys : PairsHook := fun pairs =>
  if (pairs.map Prod.fst).Nodup then some (ofPairs pairs) else none

/-- What follows a fixed word. -/
def stripWord : List Char → List Char → Option (List Char)
  | [], cs => some cs
  | w :: ws, c :: cs => if w = c then stripWord ws cs else none
  | _ :: _, [] => none

mutual
/-- One value at the head of the text; the number bounds the recursion. -/
def scanValue (hook : PairsHook) : ℕ → List Char → Option (Json × List Char)
  | 0, _ => none
  | _ + 1, [] => none
  | n + 1, c :: rest =>
      if c = '\"' then (scanString rest).map fun p => (.str (String.ofList p.1), p.2)
      else if c = '{' then
        match stripWord ['}'] (skipWs rest) with
        | some tail => (hook []).map fun fields => (.obj fields, tail)
        | none =>
            match scanMembers hook n (skipWs rest) with
            | some (pairs, tail) => (hook pairs).map fun fields => (.obj fields, tail)
            | none => none
      else if c = '[' then
        match stripWord [']'] (skipWs rest) with
        | some tail => some (.arr [], tail)
        | none => (scanElems hook n (skipWs rest)).map fun p => (.arr p.1, p.2)
      else if c = 'n' then (stripWord ['u', 'l', 'l'] rest).map fun tail => (.null, tail)
      else if c = 't' then (stripWord ['r', 'u', 'e'] rest).map fun tail => (.bool true, tail)
      else if c = 'f' then
        (stripWord ['a', 'l', 's', 'e'] rest).map fun tail => (.bool false, tail)
      else scanNumber (c :: rest)
/-- The elements of a non-empty array up to its closing bracket. -/
def scanElems (hook : PairsHook) : ℕ → List Char → Option (List Json × List Char)
  | 0, _ => none
  | n + 1, cs =>
      match scanValue hook n cs with
      | none => none
      | some (v, rest) =>
          match skipWs rest with
          | ',' :: tail => (scanElems hook n (skipWs tail)).map fun p => (v :: p.1, p.2)
          | ']' :: tail => some ([v], tail)
          | _ => none
/-- The items of a non-empty object up to its closing brace. -/
def scanMembers (hook : PairsHook) : ℕ → List Char → Option (List (String × Json) × List Char)
  | 0, _ => none
  | n + 1, cs =>
      match cs with
      | '\"' :: rest =>
          match scanString rest with
          | none => none
          | some (k, rest) =>
              match skipWs rest with
              | ':' :: rest =>
                  match scanValue hook n (skipWs rest) with
                  | none => none
                  | some (v, rest) =>
                      match skipWs rest with
                      | ',' :: tail =>
                          (scanMembers hook n (skipWs tail)).map fun p =>
                            ((String.ofList k, v) :: p.1, p.2)
                      | '}' :: tail => some ([(String.ofList k, v)], tail)
                      | _ => none
              | _ => none
      | _ => none
end

/-- One value with nothing but whitespace around it. -/
def loads (hook : PairsHook) (text : List Char) : Option Json :=
  match scanValue hook (text.length + 1) (skipWs text) with
  | some (v, rest) => if skipWs rest = [] then some v else none
  | none => none

/-! ## String literals -/

theorem hex4_digitChar : ∀ m < 32,
    hex4 '0' '0' (Nat.digitChar (m / 16)) (Nat.digitChar (m % 16)) = some m := by decide

theorem scanEscape_control {c : Char} (h : c.toNat < 0x20) (rest : List Char) :
    scanEscape ('u' :: '0' :: '0' :: Nat.digitChar (c.toNat / 16) ::
      Nat.digitChar (c.toNat % 16) :: rest) = some (c, rest) := by
  have hs : ¬ (0xd800 ≤ c.toNat ∧ c.toNat ≤ 0xdbff) := by omega
  have hs' : ¬ (0xdc00 ≤ c.toNat ∧ c.toNat ≤ 0xdfff) := by omega
  simp only [scanEscape, hex4_digitChar c.toNat h, if_neg hs, if_neg hs', Char.ofNat_toNat]

/-- Scanning undoes the escape of one character. -/
theorem scanChars_escapeChar (n : ℕ) (c : Char) (rest : List Char) :
    scanChars (n + 1) (escapeChar c ++ rest) =
      (scanChars n rest).map fun p => (c :: p.1, p.2) := by
  unfold escapeChar
  split
  · subst_vars; rfl
  split
  · subst_vars; rfl
  split
  · subst_vars; rfl
  split
  · subst_vars; rfl
  split
  · subst_vars; rfl
  split
  · subst_vars; rfl
  split
  · subst_vars; rfl
  split
  · rename_i hlt
    simp only [List.cons_append, List.nil_append]
    rw [scanChars, if_neg (by decide), if_pos rfl, scanEscape_control hlt]
  · rename_i hq hb _ _ _ _ _ hlt
    rw [List.singleton_append, scanChars, if_neg hq, if_neg hb, if_neg hlt]

theorem escapeChar_ne_nil (c : Char) : escapeChar c ≠ [] := by
  unfold escapeChar
  split_ifs <;> simp

theorem scanChars_body (s rest : List Char) :
    ∀ n, (s.flatMap escapeChar).length < n →
      scanChars n (s.flatMap escapeChar ++ '\"' :: rest) = some (s, rest) := by
  induction s with
  | nil =>
    intro n hn
    obtain ⟨m, rfl⟩ : ∃ m, n = m + 1 := ⟨n - 1, by simp at hn; omega⟩
    rfl
  | cons c s ih =>
    intro n hn
    have hpos := List.length_pos_iff.mpr (escapeChar_ne_nil c)
    rw [List.flatMap_cons, List.length_append] at hn
    obtain ⟨m, rfl⟩ : ∃ m, n = m + 1 := ⟨n - 1, by omega⟩
    rw [List.flatMap_cons, List.append_assoc, scanChars_escapeChar, ih m (by omega)]
    rfl

/-- A quoted string is read back. -/
theorem scanString_quote (s rest : List Char) :
    ∃ body, quote s ++ rest = '\"' :: body ∧ scanString body = some (s, rest) := by
  refine ⟨s.flatMap escapeChar ++ '\"' :: rest, by simp [quote], ?_⟩
  exact scanChars_body s rest _ (by rw [List.length_append]; omega)

/-! ## Whitespace -/

theorem skipWs_cons {c : Char} (rest : List Char) (h : isWs c = false) :
    skipWs (c :: rest) = c :: rest := by
  simp [skipWs, List.dropWhile, h]

theorem skipWs_pad (pad : ℕ) (rest : List Char) :
    skipWs (List.replicate pad ' ' ++ rest) = skipWs rest := by
  induction pad with
  | zero => rfl
  | succ n ih =>
    rw [List.replicate_succ, List.cons_append, ← ih]
    rfl

/-! ## Sizes -/

mutual
/-- The number of values and items, which bounds the recursion of the scanner. -/
def size : Json → ℕ
  | .arr elems => 1 + sizeElems elems
  | .obj fields => 1 + sizeFields fields
  | _ => 1
def sizeElems : List Json → ℕ
  | [] => 0
  | x :: xs => 1 + size x + sizeElems xs
def sizeFields : List (String × Json) → ℕ
  | [] => 0
  | (_, v) :: rest => 1 + size v + sizeFields rest
end

theorem floatLit_text_ne_nil (x : FloatLit) : x.text.toList ≠ [] := by
  intro h
  have hok := x.ok
  rw [h] at hok
  exact absurd hok (by decide)

mutual
theorem size_le_length (pad : ℕ) : ∀ v : Json, size v ≤ (dumps pad v).length
  | .null => by simp [size, dumps]
  | .bool b => by cases b <;> simp [size, dumps]
  | .int n => by
    have := List.length_pos_iff.mpr (JsonNumber.intText_ne_nil n)
    simp only [size, dumps]; omega
  | .float x => by
    have := List.length_pos_iff.mpr (floatLit_text_ne_nil x)
    simp only [size, dumps]; omega
  | .str s => by simp [size, dumps, quote]
  | .arr [] => by simp [size, sizeElems, dumps]
  | .arr (x :: xs) => by
    have hx := size_le_length pad x
    have hxs := sizeElems_le_length pad xs
    simp only [size, sizeElems, dumps, List.length_cons, List.length_append]
    omega
  | .obj [] => by simp [size, sizeFields, dumps]
  | .obj ((k, v) :: rest) => by
    have hv := size_le_length pad v
    have hrest := sizeFields_le_length pad rest
    simp only [size, sizeFields, dumps, List.length_cons, List.length_append]
    omega
theorem sizeElems_le_length (pad : ℕ) :
    ∀ xs : List Json, sizeElems xs + 1 ≤ (dumpsElems pad xs).length
  | [] => by simp [sizeElems, dumpsElems]
  | x :: xs => by
    have hx := size_le_length pad x
    have hxs := sizeElems_le_length pad xs
    simp only [sizeElems, dumpsElems, List.length_cons, List.length_append]
    omega
theorem sizeFields_le_length (pad : ℕ) :
    ∀ fields : List (String × Json), sizeFields fields + 1 ≤ (dumpsFields pad fields).length
  | [] => by simp [sizeFields, dumpsFields]
  | (k, v) :: rest => by
    have hv := size_le_length pad v
    have hrest := sizeFields_le_length pad rest
    simp only [sizeFields, dumpsFields, List.length_cons, List.length_append]
    omega
end
/-! ## First characters -/

/-- A character that starts a value: neither whitespace nor a closing bracket. -/
def Starts (c : Char) : Prop := isWs c = false ∧ c ≠ ']' ∧ c ≠ '}'

/-- A character that starts a number. -/
def StartsNumber (c : Char) : Prop := c = '-' ∨ c.isDigit = true

theorem StartsNumber.ne {c d : Char} (h : StartsNumber c) (hd : d.isDigit = false)
    (hm : d ≠ '-') : c ≠ d := by
  rintro rfl
  obtain rfl | h := h
  · exact hm rfl
  · rw [hd] at h; cases h

theorem StartsNumber.starts {c : Char} (h : StartsNumber c) : Starts c := by
  refine ⟨?_, h.ne (by decide) (by decide), h.ne (by decide) (by decide)⟩
  simp only [isWs, Bool.or_eq_false_iff, decide_eq_false_iff_not]
  exact ⟨⟨⟨h.ne (by decide) (by decide), h.ne (by decide) (by decide)⟩,
    h.ne (by decide) (by decide)⟩, h.ne (by decide) (by decide)⟩

theorem startsNumber_of_scanNat {cs a r : List Char} (h : JsonNumber.scanNat cs = some (a, r)) :
    ∃ c rest, cs = c :: rest ∧ c.isDigit = true := by
  unfold JsonNumber.scanNat at h
  split at h
  · exact ⟨_, _, rfl, by decide⟩
  · split at h
    · rename_i hd; exact ⟨_, _, rfl, hd⟩
    · cases h
  · cases h

theorem startsNumber_of_scan {cs a b r : List Char} (h : JsonNumber.scan cs = some (a, b, r)) :
    ∃ c rest, cs = c :: rest ∧ StartsNumber c := by
  obtain ⟨⟨i, t⟩, hi, -⟩ := Option.map_eq_some_iff.mp h
  unfold JsonNumber.scanInt at hi
  split at hi
  · exact ⟨_, _, rfl, .inl rfl⟩
  · obtain ⟨c, rest, rfl, hc⟩ := startsNumber_of_scanNat hi
    exact ⟨c, rest, rfl, .inr hc⟩

theorem scan_floatLit (x : FloatLit) :
    ∃ a b, b ≠ [] ∧ JsonNumber.scan x.text.toList = some (a, b, []) := by
  have hok := x.ok
  unfold JsonNumber.isFloat at hok
  split at hok
  · rename_i a b hs
    exact ⟨a, b, by simpa using hok, hs⟩
  · cases hok

theorem startsNumber_float (x : FloatLit) :
    ∃ c rest, x.text.toList = c :: rest ∧ StartsNumber c := by
  obtain ⟨a, b, -, h⟩ := scan_floatLit x
  exact startsNumber_of_scan h

theorem dumps_head (pad : ℕ) (v : Json) : ∃ c rest, dumps pad v = c :: rest ∧ Starts c := by
  cases v with
  | null => exact ⟨_, _, rfl, by unfold Starts; decide⟩
  | bool b => cases b <;> exact ⟨_, _, rfl, by unfold Starts; decide⟩
  | int n =>
    obtain ⟨c, rest, h, hc⟩ := startsNumber_of_scan (JsonNumber.scan_intText n)
    exact ⟨c, rest, h, hc.starts⟩
  | float x =>
    obtain ⟨c, rest, h, hc⟩ := startsNumber_float x
    exact ⟨c, rest, h, hc.starts⟩
  | str s => exact ⟨_, _, rfl, by unfold Starts; decide⟩
  | arr elems => cases elems <;> exact ⟨_, _, rfl, by unfold Starts; decide⟩
  | obj fields =>
    obtain _ | ⟨⟨k, v⟩, rest⟩ := fields <;> exact ⟨_, _, rfl, by unfold Starts; decide⟩

/-- Nothing is skipped in front of a printed value. -/
theorem skipWs_dumps (pad : ℕ) (v : Json) (rest : List Char) :
    skipWs (dumps pad v ++ rest) = dumps pad v ++ rest := by
  obtain ⟨c, tail, h, hc⟩ := dumps_head pad v
  rw [h, List.cons_append, skipWs_cons _ hc.1]

theorem skipWs_pad_dumps (pad : ℕ) (v : Json) (rest : List Char) :
    skipWs (List.replicate pad ' ' ++ (dumps pad v ++ rest)) = dumps pad v ++ rest := by
  rw [skipWs_pad, skipWs_dumps]

theorem skipWs_quote (s rest : List Char) : skipWs (quote s ++ rest) = quote s ++ rest :=
  skipWs_cons _ (by decide)

theorem stripWord_quote (s rest : List Char) : stripWord ['}'] (quote s ++ rest) = none := rfl

/-! ## Round trip -/

theorem ends_dumpsElems (pad : ℕ) (xs : List Json) (rest : List Char) :
    JsonNumber.Ends (dumpsElems pad xs ++ rest) := by
  cases xs <;> exact JsonNumber.ends_cons _ (by decide) (by decide)

theorem ends_dumpsFields (pad : ℕ) (fields : List (String × Json)) (rest : List Char) :
    JsonNumber.Ends (dumpsFields pad fields ++ rest) := by
  obtain _ | ⟨⟨k, v⟩, tail⟩ := fields <;> exact JsonNumber.ends_cons _ (by decide) (by decide)

/-- A number is dispatched to the number scanner. -/
theorem scanValue_number (hook : PairsHook) (n : ℕ) {c : Char} (rest : List Char)
    (hc : StartsNumber c) : scanValue hook (n + 1) (c :: rest) = scanNumber (c :: rest) := by
  rw [scanValue]
  rw [if_neg (hc.ne (by decide) (by decide)), if_neg (hc.ne (by decide) (by decide)),
    if_neg (hc.ne (by decide) (by decide)), if_neg (hc.ne (by decide) (by decide)),
    if_neg (hc.ne (by decide) (by decide)), if_neg (hc.ne (by decide) (by decide))]

theorem scanNumber_int (m : ℤ) {rest : List Char} (h : JsonNumber.Ends rest) :
    scanNumber (JsonNumber.intText m ++ rest) = some (.int m, rest) := by
  rw [scanNumber, JsonNumber.scan_append _ h, JsonNumber.scan_intText]
  simp [ofNumber, JsonNumber.intOfText_intText]

theorem scanNumber_float (x : FloatLit) {rest : List Char} (h : JsonNumber.Ends rest) :
    scanNumber (x.text.toList ++ rest) = some (.float x, rest) := by
  obtain ⟨a, b, hb, hs⟩ := scan_floatLit x
  have htext : String.ofList (a ++ b) = x.text := by
    rw [← List.append_nil (a ++ b), JsonNumber.scan_split hs, String.ofList_toList]
  rw [scanNumber, JsonNumber.scan_append _ h, hs]
  simp [ofNumber, if_neg hb, htext, x.ok]

/-- The hook keeps the fields of an object that is in key order already. -/
def KeepsSorted (hook : PairsHook) : Prop :=
  ∀ fields, KeySorted fields → hook fields = some fields

theorem keepsSorted_lastWins : KeepsSorted lastWins := by
  intro fields h
  rw [lastWins, ofPairs_of_keySorted h]

theorem keepsSorted_uniqueKeys : KeepsSorted uniqueKeys := by
  intro fields h
  rw [uniqueKeys, if_pos h.nodup_keys, ofPairs_of_keySorted h]

mutual
/-- **Round trip**: a printed value is read back, and so is what follows it. -/
theorem scanValue_dumps {hook : PairsHook} (hh : KeepsSorted hook) (pad : ℕ) :
    ∀ (v : Json) (n : ℕ) (rest : List Char), WellFormed v → size v ≤ n →
      JsonNumber.Ends rest → scanValue hook n (dumps pad v ++ rest) = some (v, rest)
  | v, 0, _, _, hn, _ => by
    have : 0 < size v := by cases v <;> simp [size]
    omega
  | .null, n + 1, rest, _, _, _ => by rfl
  | .bool true, n + 1, rest, _, _, _ => by rfl
  | .bool false, n + 1, rest, _, _, _ => by rfl
  | .int m, n + 1, rest, _, _, hr => by
    obtain ⟨c, tail, ht, hc⟩ := startsNumber_of_scan (JsonNumber.scan_intText m)
    have hnum := scanNumber_int m hr
    rw [dumps]
    rw [ht, List.cons_append] at hnum ⊢
    rw [scanValue_number hook n _ hc, hnum]
  | .float x, n + 1, rest, _, _, hr => by
    obtain ⟨c, tail, ht, hc⟩ := startsNumber_float x
    have hnum := scanNumber_float x hr
    rw [dumps]
    rw [ht, List.cons_append] at hnum ⊢
    rw [scanValue_number hook n _ hc, hnum]
  | .str s, n + 1, rest, _, _, _ => by
    obtain ⟨body, hb, hs⟩ := scanString_quote s.toList rest
    rw [dumps, hb, scanValue, if_pos rfl, hs]
    simp
  | .arr [], n + 1, rest, _, _, _ => by rfl
  | .arr (x :: xs), n + 1, rest, hw, hn, _ => by
    have helems := scanElems_dumps hh pad x xs n rest hw (by simp only [size] at hn; omega)
    obtain ⟨c, tail, ht, hc⟩ := dumps_head pad x
    have hstrip : stripWord [']'] (dumps pad x ++ (dumpsElems pad xs ++ rest)) = none := by
      rw [ht, List.cons_append, stripWord, if_neg hc.2.1.symm]
    rw [dumps, List.cons_append, List.append_assoc, scanValue, if_neg (by decide),
      if_neg (by decide), if_pos rfl, skipWs_dumps, hstrip, helems]
    rfl
  | .obj [], n + 1, rest, _, _, _ => by
    have hk : hook [] = some [] := hh [] List.Pairwise.nil
    rw [dumps, List.cons_append, scanValue, if_neg (by decide), if_pos rfl]
    simp [skipWs_cons, isWs, stripWord, hk]
  | .obj ((k, v) :: fields), n + 1, rest, hw, hn, _ => by
    have hmem := scanMembers_dumps hh pad k v fields n rest hw.2
      (by simp only [size] at hn; omega)
    have hk : hook ((k, v) :: fields) = some ((k, v) :: fields) := hh _ hw.1
    rw [dumps, List.cons_append, scanValue, if_neg (by decide), if_pos rfl]
    simp only [List.append_assoc, List.cons_append]
    rw [skipWs_quote, stripWord_quote, hmem]
    simp [hk]
theorem scanElems_dumps {hook : PairsHook} (hh : KeepsSorted hook) (pad : ℕ) :
    ∀ (x : Json) (xs : List Json) (n : ℕ) (rest : List Char), WellFormedElems (x :: xs) →
      sizeElems (x :: xs) ≤ n →
      scanElems hook n (dumps pad x ++ (dumpsElems pad xs ++ rest)) = some (x :: xs, rest)
  | x, xs, 0, _, _, hn => by simp only [sizeElems] at hn; omega
  | x, [], n + 1, rest, hw, hn => by
    have hx := scanValue_dumps hh pad x n (dumpsElems pad [] ++ rest) hw.1
      (by simp only [sizeElems] at hn; omega) (ends_dumpsElems pad [] rest)
    rw [scanElems, hx]
    rfl
  | x, y :: ys, n + 1, rest, hw, hn => by
    have hx := scanValue_dumps hh pad x n (dumpsElems pad (y :: ys) ++ rest) hw.1
      (by simp only [sizeElems] at hn; omega) (ends_dumpsElems pad (y :: ys) rest)
    have hys := scanElems_dumps hh pad y ys n rest hw.2 (by simp only [sizeElems] at hn ⊢; omega)
    rw [scanElems, hx]
    simp only [dumpsElems, List.cons_append, List.append_assoc]
    rw [skipWs_cons _ (by decide)]
    simp only [skipWs_pad_dumps, hys, Option.map_some]
theorem scanMembers_dumps {hook : PairsHook} (hh : KeepsSorted hook) (pad : ℕ) :
    ∀ (k : String) (v : Json) (fields : List (String × Json)) (n : ℕ) (rest : List Char),
      WellFormedFields ((k, v) :: fields) → sizeFields ((k, v) :: fields) ≤ n →
      scanMembers hook n (quote k.toList ++ (':' :: (List.replicate pad ' ' ++
        (dumps pad v ++ (dumpsFields pad fields ++ rest))))) = some ((k, v) :: fields, rest)
  | k, v, fields, 0, _, _, hn => by simp only [sizeFields] at hn; omega
  | k, v, fields, n + 1, rest, hw, hn => by
    have hv := scanValue_dumps hh pad v n (dumpsFields pad fields ++ rest) hw.1
      (by simp only [sizeFields] at hn; omega) (ends_dumpsFields pad fields rest)
    obtain ⟨body, hb, hs⟩ := scanString_quote k.toList (':' :: (List.replicate pad ' ' ++
        (dumps pad v ++ (dumpsFields pad fields ++ rest))))
    rw [hb, scanMembers]
    simp only [hs, skipWs_cons _ (show isWs ':' = false by decide), skipWs_pad_dumps, hv]
    match fields, hw, hn with
    | [], _, _ => simp [dumpsFields, skipWs_cons _ (show isWs '}' = false by decide)]
    | (l, w) :: fields, hw, hn =>
      have hrest := scanMembers_dumps hh pad l w fields n rest hw.2
        (by simp only [sizeFields] at hn ⊢; omega)
      simp only [dumpsFields, List.cons_append, List.append_assoc]
      rw [skipWs_cons _ (by decide)]
      simp only [skipWs_pad, skipWs_quote, hrest, Option.map_some, String.ofList_toList]
end
/-- **A well-formed document is read back from its text.** -/
theorem loads_dumps {hook : PairsHook} (hh : KeepsSorted hook) (pad : ℕ) (v : Json)
    (hw : WellFormed v) : loads hook (dumps pad v) = some v := by
  have hskip : skipWs (dumps pad v) = dumps pad v := by simpa using skipWs_dumps pad v []
  have hscan := scanValue_dumps hh pad v ((dumps pad v).length + 1) [] hw
    (by have := size_le_length pad v; omega) JsonNumber.ends_nil
  rw [List.append_nil] at hscan
  rw [loads, hskip, hscan]
  rfl

/-! ## More text after a value -/

theorem scanEscape_extend {cs r : List Char} {c : Char} (h : scanEscape cs = some (c, r))
    (q : List Char) : scanEscape (cs ++ q) = some (c, r ++ q) := by
  unfold scanEscape at h
  split at h
  · rename_i a b d e tail
    split at h
    · cases h
    · rename_i hi hhex
      simp only [List.cons_append, scanEscape, hhex]
      split at h
      · rename_i hsur
        rw [if_pos hsur]
        split at h
        · rename_i a' b' d' e' tail'
          split at h
          · cases h
          · rename_i lo hlo
            simp only [List.cons_append, hlo]
            split at h
            · rename_i hrange
              rw [if_pos hrange]
              simp only [Option.some.injEq, Prod.mk.injEq] at h
              obtain ⟨rfl, rfl⟩ := h
              rfl
            · cases h
        · cases h
      · rename_i hsur
        rw [if_neg hsur]
        split at h
        · cases h
        · rename_i hlow
          rw [if_neg hlow]
          simp only [Option.some.injEq, Prod.mk.injEq] at h
          obtain ⟨rfl, rfl⟩ := h
          rfl
  · rename_i e tail hu
    obtain ⟨d, hd, he⟩ := Option.map_eq_some_iff.mp h
    simp only [Prod.mk.injEq] at he
    obtain ⟨rfl, rfl⟩ := he
    have hne : e ≠ 'u' := by
      rintro rfl
      rw [show unescape 'u' = none by decide] at hd
      cases hd
    rw [List.cons_append, scanEscape.eq_def]
    split
    · rename_i heq; injection heq with h1 _; exact absurd h1 hne
    · rename_i heq
      injection heq with h1 h2
      subst h1 h2
      rw [hd]
      rfl
    · rename_i heq; cases heq
  · cases h

theorem scanChars_extend (q : List Char) :
    ∀ (n m : ℕ) (cs s r : List Char), scanChars n cs = some (s, r) → n ≤ m →
      scanChars m (cs ++ q) = some (s, r ++ q)
  | 0, _, _, _, _, h, _ => by cases h
  | _ + 1, _, [], _, _, h, _ => by cases h
  | n + 1, 0, _ :: _, _, _, _, hm => by omega
  | n + 1, m + 1, c :: cs, s, r, h, hm => by
    rw [scanChars] at h
    rw [List.cons_append, scanChars]
    split at h
    · rename_i hq
      rw [if_pos hq]
      simp only [Option.some.injEq, Prod.mk.injEq] at h
      obtain ⟨rfl, rfl⟩ := h
      rfl
    rename_i hq
    rw [if_neg hq]
    split at h
    · rename_i hb
      rw [if_pos hb]
      split at h
      · cases h
      · rename_i d tail hesc
        obtain ⟨⟨s', r'⟩, hs, he⟩ := Option.map_eq_some_iff.mp h
        simp only [Prod.mk.injEq] at he
        obtain ⟨rfl, rfl⟩ := he
        rw [scanEscape_extend hesc q]
        simp only [scanChars_extend q n m tail s' r' hs (by omega), Option.map_some]
    rename_i hb
    rw [if_neg hb]
    split at h
    · cases h
    · rename_i hlt
      obtain ⟨⟨s', r'⟩, hs, he⟩ := Option.map_eq_some_iff.mp h
      simp only [Prod.mk.injEq] at he
      obtain ⟨rfl, rfl⟩ := he
      rw [if_neg hlt, scanChars_extend q n m cs s' r' hs (by omega)]
      rfl

theorem scanString_extend {cs s r : List Char} (h : scanString cs = some (s, r)) (q : List Char) :
    scanString (cs ++ q) = some (s, r ++ q) :=
  scanChars_extend q _ _ cs s r h (by simp)

theorem skipWs_append {cs : List Char} (q : List Char) (h : skipWs cs ≠ []) :
    skipWs (cs ++ q) = skipWs cs ++ q := by
  induction cs with
  | nil => exact absurd rfl h
  | cons c cs ih =>
    by_cases hc : isWs c
    · simp only [skipWs, List.cons_append, List.dropWhile_cons, hc, if_true] at h ⊢
      exact ih h
    · simp [skipWs, hc]

theorem stripWord_extend {w cs r : List Char} (h : stripWord w cs = some r) (q : List Char) :
    stripWord w (cs ++ q) = some (r ++ q) := by
  induction w generalizing cs with
  | nil =>
    obtain rfl : cs = r := by simpa [stripWord] using h
    cases cs <;> rfl
  | cons x w ih =>
    cases cs with
    | nil => cases h
    | cons c cs =>
      rw [stripWord] at h
      split at h
      · rename_i hx
        rw [List.cons_append, stripWord, if_pos hx, ih h]
      · cases h

/-- A closing bracket that is not next stays so when more text follows. -/
theorem stripWord_singleton_none {c : Char} {cs : List Char} (hne : cs ≠ [])
    (h : stripWord [c] cs = none) (q : List Char) : stripWord [c] (cs ++ q) = none := by
  obtain ⟨d, cs, rfl⟩ := List.exists_cons_of_ne_nil hne
  rw [stripWord] at h
  split at h
  · cases cs <;> cases h
  · rename_i hx
    rw [List.cons_append, stripWord, if_neg hx]

theorem ends_of_skipWs {cs tail : List Char} {c : Char} (h : skipWs cs = c :: tail)
    (hc : c.isDigit = false) (hne : c ∉ ['.', 'e', 'E', '+', '-']) : JsonNumber.Ends cs ∧ cs ≠ [] := by
  cases cs with
  | nil => cases h
  | cons d cs =>
    refine ⟨?_, by simp⟩
    by_cases hd : isWs d
    · simp only [isWs, Bool.or_eq_true, decide_eq_true_eq] at hd
      obtain ((rfl | rfl) | rfl) | rfl := hd <;>
        exact JsonNumber.ends_cons _ (by decide) (by decide)
    · rw [skipWs_cons _ (by simpa using hd)] at h
      injection h with h1 _
      subst h1
      exact JsonNumber.ends_cons _ hc hne

theorem isObj_ofNumber {a b : List Char} {v : Json} (h : ofNumber a b = some v) :
    v.isObj = false := by
  unfold ofNumber at h
  split_ifs at h <;> obtain rfl := Option.some.inj h <;> rfl

theorem scanNumber_extend {cs r : List Char} {v : Json} (h : scanNumber cs = some (v, r))
    (q : List Char) (hv : JsonNumber.Ends r ∧ r ≠ [] ∨ v.isObj = true) :
    scanNumber (cs ++ q) = some (v, r ++ q) := by
  unfold scanNumber at h
  split at h
  · rename_i a b rest hs
    obtain ⟨w, hw, he⟩ := Option.map_eq_some_iff.mp h
    obtain ⟨rfl, rfl⟩ := by simpa using he
    obtain hends | hobj := hv
    · rw [scanNumber, JsonNumber.scan_extend hs hends.1 hends.2 q]
      simp [hw]
    · rw [isObj_ofNumber hw] at hobj
      cases hobj
  · cases h

mutual
/-- A value that was read is read the same when more text follows, unless it is a
number that the text could continue. -/
theorem scanValue_extend (hook : PairsHook) (q : List Char) :
    ∀ (n m : ℕ) (cs r : List Char) (v : Json), scanValue hook n cs = some (v, r) → n ≤ m →
      (JsonNumber.Ends r ∧ r ≠ [] ∨ v.isObj = true) → scanValue hook m (cs ++ q) = some (v, r ++ q)
  | 0, _, _, _, _, h, _, _ => by cases h
  | _ + 1, _, [], _, _, h, _, _ => by cases h
  | n + 1, 0, _ :: _, _, _, _, hm, _ => by omega
  | n + 1, m + 1, c :: cs, r, v, h, hm, hv => by
    rw [scanValue] at h
    rw [List.cons_append, scanValue]
    split at h
    · rename_i hc
      rw [if_pos hc]
      obtain ⟨⟨s, t⟩, hs, he⟩ := Option.map_eq_some_iff.mp h
      obtain ⟨rfl, rfl⟩ := by simpa using he
      rw [scanString_extend hs q]
      rfl
    rename_i hc
    rw [if_neg hc]
    split at h
    · rename_i hc
      rw [if_pos hc]
      split at h
      · rename_i tail hstrip
        obtain ⟨fields, hk, he⟩ := Option.map_eq_some_iff.mp h
        obtain ⟨rfl, rfl⟩ := by simpa using he
        have hne : skipWs cs ≠ [] := by intro e; rw [e] at hstrip; cases hstrip
        rw [skipWs_append q hne, stripWord_extend hstrip q]
        simp [hk]
      · rename_i hstrip
        split at h
        · rename_i pairs tail hmem
          obtain ⟨fields, hk, he⟩ := Option.map_eq_some_iff.mp h
          obtain ⟨rfl, rfl⟩ := by simpa using he
          have hne : skipWs cs ≠ [] := by
            intro e; rw [e] at hmem; cases n <;> cases hmem
          rw [skipWs_append q hne, stripWord_singleton_none hne hstrip q]
          simp only [scanMembers_extend hook q n m (skipWs cs) tail pairs hmem (by omega), hk]
          rfl
        · cases h
    rename_i hc
    rw [if_neg hc]
    split at h
    · rename_i hc
      rw [if_pos hc]
      split at h
      · rename_i tail hstrip
        obtain ⟨rfl, rfl⟩ := by simpa using h
        have hne : skipWs cs ≠ [] := by intro e; rw [e] at hstrip; cases hstrip
        rw [skipWs_append q hne, stripWord_extend hstrip q]
      · rename_i hstrip
        obtain ⟨⟨elems, tail⟩, hel, he⟩ := Option.map_eq_some_iff.mp h
        obtain ⟨rfl, rfl⟩ := by simpa using he
        have hne : skipWs cs ≠ [] := by
          intro e; rw [e] at hel; obtain _ | _ | n := n <;> cases hel
        rw [skipWs_append q hne, stripWord_singleton_none hne hstrip q]
        simp only [scanElems_extend hook q n m (skipWs cs) tail elems hel (by omega)]
        rfl
    rename_i hc
    rw [if_neg hc]
    split at h
    · rename_i hc
      rw [if_pos hc]
      obtain ⟨tail, hs, he⟩ := Option.map_eq_some_iff.mp h
      obtain ⟨rfl, rfl⟩ := by simpa using he
      rw [stripWord_extend hs q]
      rfl
    rename_i hc
    rw [if_neg hc]
    split at h
    · rename_i hc
      rw [if_pos hc]
      obtain ⟨tail, hs, he⟩ := Option.map_eq_some_iff.mp h
      obtain ⟨rfl, rfl⟩ := by simpa using he
      rw [stripWord_extend hs q]
      rfl
    rename_i hc
    rw [if_neg hc]
    split at h
    · rename_i hc
      rw [if_pos hc]
      obtain ⟨tail, hs, he⟩ := Option.map_eq_some_iff.mp h
      obtain ⟨rfl, rfl⟩ := by simpa using he
      rw [stripWord_extend hs q]
      rfl
    rename_i hc
    rw [if_neg hc]
    exact scanNumber_extend h q hv
theorem scanElems_extend (hook : PairsHook) (q : List Char) :
    ∀ (n m : ℕ) (cs r : List Char) (vs : List Json), scanElems hook n cs = some (vs, r) → n ≤ m →
      scanElems hook m (cs ++ q) = some (vs, r ++ q)
  | 0, _, _, _, _, h, _ => by cases h
  | n + 1, 0, _, _, _, _, hm => by omega
  | n + 1, m + 1, cs, r, vs, h, hm => by
    rw [scanElems] at h
    rw [scanElems]
    split at h
    · cases h
    · rename_i v rest hv
      split at h
      · rename_i tail hws
        obtain ⟨⟨ws, t⟩, hs, he⟩ := Option.map_eq_some_iff.mp h
        obtain ⟨rfl, rfl⟩ := by simpa using he
        have hends := ends_of_skipWs hws (by decide) (by decide)
        have hne : skipWs tail ≠ [] := by
          intro e; rw [e] at hs; obtain _ | _ | n := n <;> cases hs
        rw [scanValue_extend hook q n m cs rest v hv (by omega) (.inl hends)]
        simp only [skipWs_append q (by rw [hws]; simp : skipWs rest ≠ []), hws, List.cons_append,
          skipWs_append q hne, scanElems_extend hook q n m (skipWs tail) t ws hs (by omega)]
        rfl
      · rename_i tail hws
        obtain ⟨rfl, rfl⟩ := by simpa using h
        have hends := ends_of_skipWs hws (by decide) (by decide)
        rw [scanValue_extend hook q n m cs rest v hv (by omega) (.inl hends)]
        simp only [skipWs_append q (by rw [hws]; simp : skipWs rest ≠ []), hws, List.cons_append]
      · cases h
theorem scanMembers_extend (hook : PairsHook) (q : List Char) :
    ∀ (n m : ℕ) (cs r : List Char) (ps : List (String × Json)),
      scanMembers hook n cs = some (ps, r) → n ≤ m → scanMembers hook m (cs ++ q) = some (ps, r ++ q)
  | 0, _, _, _, _, h, _ => by cases h
  | n + 1, 0, _, _, _, _, hm => by omega
  | n + 1, m + 1, [], r, ps, h, hm => by cases h
  | n + 1, m + 1, c :: cs, r, ps, h, hm => by
    rw [scanMembers.eq_def] at h
    simp only at h
    split at h
    · rename_i rest heq
      injection heq with h1 h2
      subst h1 h2
      rw [List.cons_append, scanMembers]
      split at h
      · cases h
      · rename_i k rest' hk
        rw [scanString_extend hk q]
        split at h
        · rename_i tail hcolon
          have hne' : skipWs rest' ≠ [] := by rw [hcolon]; simp
          simp only [skipWs_append q hne', hcolon, List.cons_append]
          split at h
          · cases h
          · rename_i v rest'' hv
            have hne : skipWs tail ≠ [] := by intro e; rw [e] at hv; cases n <;> cases hv
            split at h
            · rename_i tail' hws
              obtain ⟨⟨ws, t⟩, hs, he⟩ := Option.map_eq_some_iff.mp h
              obtain ⟨rfl, rfl⟩ := by simpa using he
              have hends := ends_of_skipWs hws (by decide) (by decide)
              have hne'' : skipWs tail' ≠ [] := by
                intro e; rw [e] at hs; cases n <;> cases hs
              rw [skipWs_append q hne,
                scanValue_extend hook q n m (skipWs tail) rest'' v hv (by omega) (.inl hends)]
              simp only [skipWs_append q (by rw [hws]; simp : skipWs rest'' ≠ []), hws,
                List.cons_append, skipWs_append q hne'',
                scanMembers_extend hook q n m (skipWs tail') t ws hs (by omega)]
              rfl
            · rename_i tail' hws
              obtain ⟨rfl, rfl⟩ := by simpa using h
              have hends := ends_of_skipWs hws (by decide) (by decide)
              rw [skipWs_append q hne,
                scanValue_extend hook q n m (skipWs tail) rest'' v hv (by omega) (.inl hends)]
              simp only [skipWs_append q (by rw [hws]; simp : skipWs rest'' ≠ []), hws,
                List.cons_append]
            · cases h
        · cases h
    · cases h
end

theorem loads_eq_some {hook : PairsHook} {text : List Char} {v : Json}
    (h : loads hook text = some v) :
    ∃ r, scanValue hook (text.length + 1) (skipWs text) = some (v, r) ∧ skipWs r = [] := by
  unfold loads at h
  split at h
  · rename_i w r hs
    split at h
    · rename_i hr
      obtain rfl : w = v := by simpa using h
      exact ⟨r, hs, hr⟩
    · cases h
  · cases h

theorem isObj_of_scanValue_brace {hook : PairsHook} {n : ℕ} {cs r : List Char} {v : Json}
    (h : scanValue hook n ('{' :: cs) = some (v, r)) : v.isObj = true := by
  cases n with
  | zero => cases h
  | succ n =>
    rw [scanValue, if_neg (by decide), if_pos rfl] at h
    split at h
    · obtain ⟨fields, -, he⟩ := Option.map_eq_some_iff.mp h
      obtain ⟨rfl, -⟩ := by simpa using he
      rfl
    · split at h
      · obtain ⟨fields, -, he⟩ := Option.map_eq_some_iff.mp h
        obtain ⟨rfl, -⟩ := by simpa using he
        rfl
      · cases h

/-- **No strict prefix of an object's text is a document.** -/
theorem loads_prefix_dumps {hook : PairsHook} (hh : KeepsSorted hook) (pad : ℕ)
    (fields : List (String × Json)) (hw : WellFormed (.obj fields)) {p q : List Char}
    (hpq : p ++ q = dumps pad (.obj fields)) (hp : p ≠ []) (hq : q ≠ []) : loads hook p = none := by
  by_contra hsome
  obtain ⟨v, hv⟩ := Option.ne_none_iff_exists'.mp hsome
  obtain ⟨r, hscan, hr⟩ := loads_eq_some hv
  obtain ⟨c, p, rfl⟩ := List.exists_cons_of_ne_nil hp
  have hc : c = '{' := by
    obtain _ | ⟨⟨k, w⟩, rest⟩ := fields <;> simp [dumps] at hpq <;> exact hpq.1
  subst hc
  rw [skipWs_cons p (by decide)] at hscan
  have hext := scanValue_extend hook q _ (p.length + 1 + 1 + size (.obj fields)) _ r v hscan
    (by simp only [List.length_cons]; omega) (.inr (isObj_of_scanValue_brace hscan))
  have hround := scanValue_dumps hh pad (.obj fields) (p.length + 1 + 1 + size (.obj fields)) [] hw
    (by omega) JsonNumber.ends_nil
  rw [List.append_nil, ← hpq, hext] at hround
  simp only [Option.some.injEq, Prod.mk.injEq, List.append_eq_nil_iff] at hround
  exact hq hround.2.2

/-! ## The characters of a text -/

mutual
/-- The keys and the string values of a document. -/
def strings : Json → List String
  | .str s => [s]
  | .arr elems => stringsElems elems
  | .obj fields => stringsFields fields
  | _ => []
def stringsElems : List Json → List String
  | [] => []
  | x :: xs => strings x ++ stringsElems xs
def stringsFields : List (String × Json) → List String
  | [] => []
  | (k, v) :: rest => k :: (strings v ++ stringsFields rest)
end

/-- A printable ASCII character. -/
def Ascii (c : Char) : Prop := 0x20 ≤ c.toNat ∧ c.toNat < 0x7f

instance (c : Char) : Decidable (Ascii c) := by unfold Ascii; infer_instance

/-- A character of the text comes from a string of the document or is ASCII; no
control character below U+0020 is printed. -/
def Printed (ss : List String) (c : Char) : Prop :=
  Ascii c ∨ 0x20 ≤ c.toNat ∧ ∃ s ∈ ss, c ∈ s.toList

theorem Printed.mono {ss ts : List String} (h : ss ⊆ ts) {c : Char} (hc : Printed ss c) :
    Printed ts c := by
  obtain hc | ⟨hc, s, hs, hmem⟩ := hc
  · exact .inl hc
  · exact .inr ⟨hc, s, h hs, hmem⟩

theorem ascii_digitChar : ∀ m < 16, Ascii (Nat.digitChar m) := by decide

theorem ascii_of_mem_pair {a b d : Char} (ha : Ascii a) (hb : Ascii b) (h : d ∈ [a, b]) :
    Ascii d := by
  simp only [List.mem_cons, List.not_mem_nil, or_false] at h
  obtain rfl | rfl := h <;> assumption

theorem mem_escapeChar {c d : Char} (h : d ∈ escapeChar c) :
    Ascii d ∨ 0x20 ≤ d.toNat ∧ d = c := by
  unfold escapeChar at h
  split at h
  · exact .inl (ascii_of_mem_pair (by decide) (by decide) h)
  split at h
  · exact .inl (ascii_of_mem_pair (by decide) (by decide) h)
  split at h
  · exact .inl (ascii_of_mem_pair (by decide) (by decide) h)
  split at h
  · exact .inl (ascii_of_mem_pair (by decide) (by decide) h)
  split at h
  · exact .inl (ascii_of_mem_pair (by decide) (by decide) h)
  split at h
  · exact .inl (ascii_of_mem_pair (by decide) (by decide) h)
  split at h
  · exact .inl (ascii_of_mem_pair (by decide) (by decide) h)
  split at h
  · left
    simp only [List.mem_cons, List.not_mem_nil, or_false] at h
    obtain rfl | rfl | rfl | rfl | rfl | rfl := h
    · decide
    · decide
    · decide
    · decide
    · exact ascii_digitChar _ (by omega)
    · exact ascii_digitChar _ (by omega)
  · obtain rfl : d = c := by simpa using h
    exact .inr ⟨by omega, rfl⟩

theorem mem_escapeChar_self {c : Char} (h : 0x7f ≤ c.toNat) : c ∈ escapeChar c := by
  unfold escapeChar
  have hne : ∀ d : Char, d.toNat < 0x7f → c ≠ d := by rintro d hd rfl; omega
  rw [if_neg (hne _ (by decide)), if_neg (hne _ (by decide)), if_neg (hne _ (by decide)),
    if_neg (hne _ (by decide)), if_neg (hne _ (by decide)), if_neg (hne _ (by decide)),
    if_neg (hne _ (by decide)), if_neg (by omega)]
  exact List.mem_singleton_self c

theorem printed_quote {s : String} {ss : List String} (hs : s ∈ ss) :
    ∀ c ∈ quote s.toList, Printed ss c := by
  intro c hc
  simp only [quote, List.mem_cons, List.mem_append, List.mem_flatMap, List.not_mem_nil,
    or_false] at hc
  obtain rfl | ⟨d, hd, hc⟩ | rfl := hc
  · exact .inl (by decide)
  · obtain hasc | ⟨hge, rfl⟩ := mem_escapeChar hc
    · exact .inl hasc
    · exact .inr ⟨hge, s, hs, hd⟩
  · exact .inl (by decide)

theorem mem_quote {s : String} {c : Char} (hc : 0x7f ≤ c.toNat) (h : c ∈ s.toList) :
    c ∈ quote s.toList := by
  simp only [quote, List.mem_cons, List.mem_append, List.mem_flatMap]
  exact .inr (.inl ⟨c, h, mem_escapeChar_self hc⟩)

theorem printed_pad (pad : ℕ) (ss : List String) :
    ∀ c ∈ List.replicate pad ' ', Printed ss c := by
  intro c hc
  obtain rfl := List.eq_of_mem_replicate hc
  exact .inl (by decide)

mutual
theorem printed_dumps (pad : ℕ) : ∀ v : Json, ∀ c ∈ dumps pad v, Printed (strings v) c
  | .null => by
    intro c hc
    simp only [dumps, List.mem_cons, List.not_mem_nil, or_false] at hc
    obtain rfl | rfl | rfl | rfl := hc <;> exact .inl (by decide)
  | .bool true => by
    intro c hc
    simp only [dumps, List.mem_cons, List.not_mem_nil, or_false] at hc
    obtain rfl | rfl | rfl | rfl := hc <;> exact .inl (by decide)
  | .bool false => by
    intro c hc
    simp only [dumps, List.mem_cons, List.not_mem_nil, or_false] at hc
    obtain rfl | rfl | rfl | rfl | rfl := hc <;> exact .inl (by decide)
  | .int n => by
    intro c hc
    have := JsonNumber.isNumberChar_scan (JsonNumber.scan_intText n) c (by simpa [dumps] using hc)
    exact .inl (JsonNumber.toNat_of_isNumberChar this)
  | .float x => by
    intro c hc
    obtain ⟨a, b, -, hs⟩ := scan_floatLit x
    have hmem : c ∈ a ++ b := by
      rw [← List.append_nil (a ++ b), JsonNumber.scan_split hs]
      exact hc
    exact .inl (JsonNumber.toNat_of_isNumberChar (JsonNumber.isNumberChar_scan hs c hmem))
  | .str s => printed_quote (List.mem_singleton_self s)
  | .arr [] => by
    intro c hc
    simp only [dumps, List.mem_cons, List.not_mem_nil, or_false] at hc
    obtain rfl | rfl := hc <;> exact .inl (by decide)
  | .arr (x :: xs) => by
    intro c hc
    simp only [dumps, List.mem_cons, List.mem_append] at hc
    obtain rfl | hc | hc := hc
    · exact .inl (by decide)
    · exact (printed_dumps pad x c hc).mono (List.subset_append_left _ _)
    · exact (printed_dumpsElems pad xs c hc).mono (List.subset_append_right _ _)
  | .obj [] => by
    intro c hc
    simp only [dumps, List.mem_cons, List.not_mem_nil, or_false] at hc
    obtain rfl | rfl := hc <;> exact .inl (by decide)
  | .obj ((k, v) :: rest) => by
    intro c hc
    simp only [dumps, List.mem_cons, List.mem_append] at hc
    obtain rfl | hc | rfl | hc | hc | hc := hc
    · exact .inl (by decide)
    · exact printed_quote List.mem_cons_self c hc
    · exact .inl (by decide)
    · exact printed_pad pad _ c hc
    · exact (printed_dumps pad v c hc).mono
        (List.subset_cons_of_subset _ (List.subset_append_left _ _))
    · exact (printed_dumpsFields pad rest c hc).mono
        (List.subset_cons_of_subset _ (List.subset_append_right _ _))
theorem printed_dumpsElems (pad : ℕ) :
    ∀ xs : List Json, ∀ c ∈ dumpsElems pad xs, Printed (stringsElems xs) c
  | [] => by
    intro c hc
    obtain rfl : c = ']' := by simpa [dumpsElems] using hc
    exact .inl (by decide)
  | x :: xs => by
    intro c hc
    simp only [dumpsElems, List.mem_cons, List.mem_append] at hc
    obtain rfl | hc | hc | hc := hc
    · exact .inl (by decide)
    · exact printed_pad pad _ c hc
    · exact (printed_dumps pad x c hc).mono (List.subset_append_left _ _)
    · exact (printed_dumpsElems pad xs c hc).mono (List.subset_append_right _ _)
theorem printed_dumpsFields (pad : ℕ) :
    ∀ fields : List (String × Json), ∀ c ∈ dumpsFields pad fields, Printed (stringsFields fields) c
  | [] => by
    intro c hc
    obtain rfl : c = '}' := by simpa [dumpsFields] using hc
    exact .inl (by decide)
  | (k, v) :: rest => by
    intro c hc
    simp only [dumpsFields, List.mem_cons, List.mem_append] at hc
    obtain rfl | hc | hc | rfl | hc | hc | hc := hc
    · exact .inl (by decide)
    · exact printed_pad pad _ c hc
    · exact printed_quote List.mem_cons_self c hc
    · exact .inl (by decide)
    · exact printed_pad pad _ c hc
    · exact (printed_dumps pad v c hc).mono
        (List.subset_cons_of_subset _ (List.subset_append_left _ _))
    · exact (printed_dumpsFields pad rest c hc).mono
        (List.subset_cons_of_subset _ (List.subset_append_right _ _))
end

mutual
theorem mem_dumps (pad : ℕ) {c : Char} (hc : 0x7f ≤ c.toNat) :
    ∀ v : Json, ∀ s ∈ strings v, c ∈ s.toList → c ∈ dumps pad v
  | .null, s, hs, _ | .bool _, s, hs, _ | .int _, s, hs, _ | .float _, s, hs, _ => by
    simp [strings] at hs
  | .str t, s, hs, h => by
    obtain rfl : s = t := by simpa [strings] using hs
    exact mem_quote hc h
  | .arr [], s, hs, _ => by simp [strings, stringsElems] at hs
  | .arr (x :: xs), s, hs, h => by
    simp only [dumps, List.mem_cons, List.mem_append]
    rcases List.mem_append.mp hs with hs | hs
    · exact .inr (.inl (mem_dumps pad hc x s hs h))
    · exact .inr (.inr (mem_dumpsElems pad hc xs s hs h))
  | .obj [], s, hs, _ => by simp [strings, stringsFields] at hs
  | .obj ((k, v) :: rest), s, hs, h => by
    simp only [dumps, List.mem_cons, List.mem_append]
    rcases List.mem_cons.mp hs with rfl | hs
    · exact .inr (.inl (mem_quote hc h))
    · rcases List.mem_append.mp hs with hs | hs
      · exact .inr (.inr (.inr (.inr (.inl (mem_dumps pad hc v s hs h)))))
      · exact .inr (.inr (.inr (.inr (.inr (mem_dumpsFields pad hc rest s hs h)))))
theorem mem_dumpsElems (pad : ℕ) {c : Char} (hc : 0x7f ≤ c.toNat) :
    ∀ xs : List Json, ∀ s ∈ stringsElems xs, c ∈ s.toList → c ∈ dumpsElems pad xs
  | [], s, hs, _ => by simp [stringsElems] at hs
  | x :: xs, s, hs, h => by
    simp only [dumpsElems, List.mem_cons, List.mem_append]
    rcases List.mem_append.mp hs with hs | hs
    · exact .inr (.inr (.inl (mem_dumps pad hc x s hs h)))
    · exact .inr (.inr (.inr (mem_dumpsElems pad hc xs s hs h)))
theorem mem_dumpsFields (pad : ℕ) {c : Char} (hc : 0x7f ≤ c.toNat) :
    ∀ fields : List (String × Json), ∀ s ∈ stringsFields fields, c ∈ s.toList →
      c ∈ dumpsFields pad fields
  | [], s, hs, _ => by simp [stringsFields] at hs
  | (k, v) :: rest, s, hs, h => by
    simp only [dumpsFields, List.mem_cons, List.mem_append]
    rcases List.mem_cons.mp hs with rfl | hs
    · exact .inr (.inr (.inl (mem_quote hc h)))
    · rcases List.mem_append.mp hs with hs | hs
      · exact .inr (.inr (.inr (.inr (.inr (.inl (mem_dumps pad hc v s hs h))))))
      · exact .inr (.inr (.inr (.inr (.inr (.inr (mem_dumpsFields pad hc rest s hs h))))))
end

/-- A character beyond ASCII is in the text exactly when it is in a string. -/
theorem mem_dumps_iff (pad : ℕ) (v : Json) {c : Char} (hc : 0x7f ≤ c.toNat) :
    c ∈ dumps pad v ↔ ∃ s ∈ strings v, c ∈ s.toList := by
  constructor
  · intro h
    obtain ⟨-, hlt⟩ | ⟨-, hs⟩ := printed_dumps pad v c h
    · omega
    · exact hs
  · rintro ⟨s, hs, h⟩
    exact mem_dumps pad hc v s hs h

/-- No control character is printed; in particular a text is one line. -/
theorem toNat_of_mem_dumps {pad : ℕ} {v : Json} {c : Char} (h : c ∈ dumps pad v) :
    0x20 ≤ c.toNat := by
  obtain ⟨hge, -⟩ | ⟨hge, -⟩ := printed_dumps pad v c h <;> exact hge

end Json
