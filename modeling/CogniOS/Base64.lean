/-
# Base64

`base64.b64encode` and `base64.b64decode`, the latter as the state machine of
`binascii.a2b_base64` in its strict and in its lenient mode.  The lenient mode skips what is
not in the alphabet, and both accept any low bits in the last character.

* `decode_encode` : decoding undoes encoding in both modes;
* `eq_encodeSpare_of_decode` : a text that strict decoding accepts is the encoding of its bytes
  but for the bits of the last character that no byte takes;
* `eq_iff_spareBits_eq` : two texts of the same bytes differ in these bits only.
-/
import Mathlib

namespace Base64

/-! ## The alphabet -/

/-- The character of a sextet. -/
def charOf (n : ℕ) : Char :=
  if n < 26 then Char.ofNat (65 + n)
  else if n < 52 then Char.ofNat (71 + n)
  else if n < 62 then Char.ofNat (n - 4)
  else if n = 62 then '+'
  else '/'

/-- The sextet of a character of the alphabet. -/
def valueOf (c : Char) : Option ℕ :=
  if 'A' ≤ c ∧ c ≤ 'Z' then some (c.toNat - 65)
  else if 'a' ≤ c ∧ c ≤ 'z' then some (c.toNat - 71)
  else if '0' ≤ c ∧ c ≤ '9' then some (c.toNat + 4)
  else if c = '+' then some 62
  else if c = '/' then some 63
  else none

theorem valueOf_charOf : ∀ n < 64, valueOf (charOf n) = some n := by decide

theorem charOf_ne_pad : ∀ n < 64, charOf n ≠ '=' := by decide

/-! ## Encoding -/

/-- `b64encode`. -/
def encode : List UInt8 → List Char
  | [] => []
  | [a] => [charOf (a.toNat / 4), charOf (a.toNat % 4 * 16), '=', '=']
  | [a, b] =>
      [charOf (a.toNat / 4), charOf (a.toNat % 4 * 16 + b.toNat / 16),
        charOf (b.toNat % 16 * 4), '=']
  | a :: b :: c :: rest =>
      charOf (a.toNat / 4) :: charOf (a.toNat % 4 * 16 + b.toNat / 16) ::
        charOf (b.toNat % 16 * 4 + c.toNat / 64) :: charOf (c.toNat % 64) :: encode rest

/-! ## Decoding -/

/-- What is left of the characters of a quad. -/
inductive Quad
  | empty
  | one (sextet : ℕ)
  | two (low : ℕ)
  | three (low : ℕ)

/-- How many characters of the quad are read. -/
def Quad.pos : Quad → ℕ
  | empty => 0
  | one _ => 1
  | two _ => 2
  | three _ => 3

/-- The quad after one more sextet, and the byte that is complete with it. -/
def Quad.push (n : ℕ) : Quad → Quad × List UInt8
  | empty => (one n, [])
  | one left => (two (n % 16), [UInt8.ofNat (left * 4 + n / 16)])
  | two left => (three (n % 4), [UInt8.ofNat (left * 16 + n / 4)])
  | three left => (empty, [UInt8.ofNat (left * 64 + n)])

/-- The loop of `a2b_base64`: the quad, the pads since the last character of the alphabet, and
whether there has been any pad at all. -/
def scan (strict : Bool) (quad : Quad) (pads : ℕ) (padded : Bool) :
    List Char → Option (List UInt8)
  | [] => if quad.pos = 0 then some [] else none
  | c :: cs =>
      if c = '=' then
        if strict ∧ quad.pos = 0 then none
        else if 2 ≤ quad.pos then
          if 4 ≤ quad.pos + (pads + 1) then
            -- The padding is complete: nothing after it is read.
            if strict ∧ cs ≠ [] then none else some []
          else scan strict quad (pads + 1) true cs
        else scan strict quad pads true cs
      else
        match valueOf c with
        | none => if strict then none else scan strict quad pads padded cs
        | some n =>
            if strict ∧ padded then none
            else
              ((scan strict (quad.push n).1 0 padded cs).map ((quad.push n).2 ++ ·))

/-- `b64decode` with `validate` as given. -/
def decode (strict : Bool) (text : List Char) : Option (List UInt8) :=
  scan strict .empty 0 false text

example : decode true "TWE=".toList = some [0x4d, 0x61] := by decide

example : decode false "TW\nF=".toList = some [0x4d, 0x61] := by decide

/-! ## Spare bits -/

/-- How many spellings the last character of an encoding has. -/
def spellings (bytes : List UInt8) : ℕ :=
  if bytes.length % 3 = 1 then 16 else if bytes.length % 3 = 2 then 4 else 1

/-- The encoding with `n` in the bits of the last character that no byte takes. -/
def encodeSpare (n : ℕ) : List UInt8 → List Char
  | [] => []
  | [a] => [charOf (a.toNat / 4), charOf (a.toNat % 4 * 16 + n), '=', '=']
  | [a, b] =>
      [charOf (a.toNat / 4), charOf (a.toNat % 4 * 16 + b.toNat / 16),
        charOf (b.toNat % 16 * 4 + n), '=']
  | a :: b :: c :: rest =>
      charOf (a.toNat / 4) :: charOf (a.toNat % 4 * 16 + b.toNat / 16) ::
        charOf (b.toNat % 16 * 4 + c.toNat / 64) :: charOf (c.toNat % 64) :: encodeSpare n rest

/-- The bits of the last character before the padding that no byte takes. -/
def spareBits : List Char → ℕ
  | [_, c, '=', '='] => (valueOf c).getD 0 % 16
  | [_, _, c, '='] => (valueOf c).getD 0 % 4
  | _ :: _ :: _ :: _ :: rest => spareBits rest
  | _ => 0

theorem encodeSpare_zero (bytes : List UInt8) : encodeSpare 0 bytes = encode bytes := by
  induction bytes using encode.induct with
  | case1 => rfl
  | case2 a => rfl
  | case3 a b => rfl
  | case4 a b c rest ih => rw [encodeSpare, encode, ih]

theorem length_encodeSpare (n : ℕ) (bytes : List UInt8) :
    (encodeSpare n bytes).length = (encode bytes).length := by
  induction bytes using encode.induct with
  | case1 => rfl
  | case2 a => rfl
  | case3 a b => rfl
  | case4 a b c rest ih =>
    rw [encodeSpare, encode]
    simp only [List.length_cons, ih]

theorem spellings_cons (a b c : UInt8) (rest : List UInt8) :
    spellings (a :: b :: c :: rest) = spellings rest := by
  have hmod : (a :: b :: c :: rest).length % 3 = rest.length % 3 := by
    simp only [List.length_cons]
    omega
  rw [spellings, spellings, hmod]

/-- The characters of an encoding. -/
theorem mem_encodeSpare {n : ℕ} {bytes : List UInt8} (hn : n < spellings bytes) {c : Char}
    (hc : c ∈ encodeSpare n bytes) : c = '=' ∨ ∃ m < 64, c = charOf m := by
  induction bytes using encode.induct with
  | case1 => exact absurd hc List.not_mem_nil
  | case2 x =>
    have hx := x.toNat_lt
    have hlt : n < 16 := hn
    rw [encodeSpare] at hc
    simp only [List.mem_cons, List.not_mem_nil, or_false, or_self] at hc
    rcases hc with rfl | rfl | rfl
    · exact .inr ⟨_, by omega, rfl⟩
    · exact .inr ⟨_, by omega, rfl⟩
    · exact .inl rfl
  | case3 x y =>
    have hx := x.toNat_lt
    have hy := y.toNat_lt
    have hlt : n < 4 := hn
    rw [encodeSpare] at hc
    simp only [List.mem_cons, List.not_mem_nil, or_false] at hc
    rcases hc with rfl | rfl | rfl | rfl
    · exact .inr ⟨_, by omega, rfl⟩
    · exact .inr ⟨_, by omega, rfl⟩
    · exact .inr ⟨_, by omega, rfl⟩
    · exact .inl rfl
  | case4 x y z rest ih =>
    have hx := x.toNat_lt
    have hy := y.toNat_lt
    have hz := z.toNat_lt
    rw [spellings_cons] at hn
    rw [encodeSpare] at hc
    simp only [List.mem_cons] at hc
    rcases hc with rfl | rfl | rfl | rfl | hc
    · exact .inr ⟨_, by omega, rfl⟩
    · exact .inr ⟨_, by omega, rfl⟩
    · exact .inr ⟨_, by omega, rfl⟩
    · exact .inr ⟨_, by omega, rfl⟩
    · exact ih hn hc

theorem spellings_pos (bytes : List UInt8) : 0 < spellings bytes := by
  unfold spellings
  split_ifs <;> omega

theorem scan_charOf (strict : Bool) (quad : Quad) {n : ℕ} (hn : n < 64) (cs : List Char) :
    scan strict quad 0 false (charOf n :: cs) =
      (scan strict (quad.push n).1 0 false cs).map ((quad.push n).2 ++ ·) := by
  rw [scan, if_neg (charOf_ne_pad n hn), valueOf_charOf n hn]
  simp

theorem scan_pads_two (strict : Bool) (low : ℕ) :
    scan strict (.two low) 0 false ['=', '='] = some [] := by
  cases strict <;> simp [scan, Quad.pos]

theorem scan_pad_three (strict : Bool) (low : ℕ) :
    scan strict (.three low) 0 false ['='] = some [] := by
  cases strict <;> simp [scan, Quad.pos]

/-- The first byte of a quad, from the two sextets that hold it. -/
theorem ofNat_first (a : UInt8) {m : ℕ} (hm : m < 16) :
    UInt8.ofNat (a.toNat / 4 * 4 + (a.toNat % 4 * 16 + m) / 16) = a := by
  have hsum : a.toNat / 4 * 4 + (a.toNat % 4 * 16 + m) / 16 = a.toNat := by omega
  rw [hsum]
  exact UInt8.ofNat_toNat

/-- The second byte of a quad. -/
theorem ofNat_second (a b : UInt8) {m : ℕ} (hm : m < 4) :
    UInt8.ofNat ((a.toNat % 4 * 16 + b.toNat / 16) % 16 * 16 + (b.toNat % 16 * 4 + m) / 4) = b := by
  have hb := b.toNat_lt
  have hsum : (a.toNat % 4 * 16 + b.toNat / 16) % 16 * 16 + (b.toNat % 16 * 4 + m) / 4 =
      b.toNat := by omega
  rw [hsum]
  exact UInt8.ofNat_toNat

/-- The third byte of a quad. -/
theorem ofNat_third (b c : UInt8) :
    UInt8.ofNat ((b.toNat % 16 * 4 + c.toNat / 64) % 4 * 64 + c.toNat % 64) = c := by
  have hc := c.toNat_lt
  have hsum : (b.toNat % 16 * 4 + c.toNat / 64) % 4 * 64 + c.toNat % 64 = c.toNat := by omega
  rw [hsum]
  exact UInt8.ofNat_toNat

/-- Decoding takes every spelling of the last character. -/
theorem decode_encodeSpare (strict : Bool) {n : ℕ} {bytes : List UInt8}
    (hn : n < spellings bytes) : decode strict (encodeSpare n bytes) = some bytes := by
  unfold decode
  induction bytes using encode.induct with
  | case1 => rfl
  | case2 a =>
    have ha := a.toNat_lt
    have hlt : n < 16 := hn
    rw [encodeSpare, scan_charOf _ _ (by omega), scan_charOf _ _ (by omega)]
    simp only [Quad.push, ofNat_first a hlt, scan_pads_two]
    rfl
  | case3 a b =>
    have ha := a.toNat_lt
    have hb := b.toNat_lt
    have hlt : n < 4 := hn
    rw [encodeSpare, scan_charOf _ _ (by omega), scan_charOf _ _ (by omega),
      scan_charOf _ _ (by omega)]
    simp only [Quad.push, ofNat_first a (by omega : b.toNat / 16 < 16), ofNat_second a b hlt,
      scan_pad_three]
    rfl
  | case4 a b c rest ih =>
    have ha := a.toNat_lt
    have hb := b.toNat_lt
    have hc := c.toNat_lt
    rw [spellings_cons] at hn
    rw [encodeSpare, scan_charOf _ _ (by omega), scan_charOf _ _ (by omega),
      scan_charOf _ _ (by omega), scan_charOf _ _ (by omega)]
    simp only [Quad.push, ofNat_first a (by omega : b.toNat / 16 < 16),
      ofNat_second a b (by omega : c.toNat / 64 < 4), ofNat_third, ih hn]
    rfl

/-- **Decoding undoes encoding** in both modes. -/
theorem decode_encode (strict : Bool) (bytes : List UInt8) :
    decode strict (encode bytes) = some bytes := by
  rw [← encodeSpare_zero]
  exact decode_encodeSpare strict (spellings_pos bytes)

theorem spareBits_encodeSpare {n : ℕ} {bytes : List UInt8} (hn : n < spellings bytes) :
    spareBits (encodeSpare n bytes) = n := by
  induction bytes using encode.induct with
  | case1 =>
    have : n < 1 := hn
    simp only [encodeSpare, spareBits]
    omega
  | case2 a =>
    have hlt : n < 16 := hn
    simp only [encodeSpare, spareBits, valueOf_charOf _ (by omega : a.toNat % 4 * 16 + n < 64),
      Option.getD_some]
    omega
  | case3 a b =>
    have hlt : n < 4 := hn
    have hpad : charOf (b.toNat % 16 * 4 + n) ≠ '=' := charOf_ne_pad _ (by omega)
    rw [encodeSpare, spareBits.eq_2 _ _ _ (fun h => hpad h)]
    rw [valueOf_charOf _ (by omega : b.toNat % 16 * 4 + n < 64), Option.getD_some]
    omega
  | case4 a b c rest ih =>
    have hpad : charOf (c.toNat % 64) ≠ '=' := charOf_ne_pad _ (by omega)
    rw [spellings_cons] at hn
    rw [encodeSpare, spareBits.eq_3, ih hn]
    · intro _ h; exact absurd h hpad
    · intro h; exact absurd h hpad

/-! ## What strict decoding accepts -/

theorem charOf_of_valueOf {c : Char} {n : ℕ} (h : valueOf c = some n) : n < 64 ∧ charOf n = c := by
  have hnat : ∀ {m : ℕ}, m = c.toNat → Char.ofNat m = c := by
    rintro m rfl
    exact Char.ofNat_toNat c
  have hle : ∀ {x y : Char}, x ≤ y ↔ x.toNat ≤ y.toNat := Iff.rfl
  unfold valueOf at h
  split at h
  · rename_i hc
    obtain rfl := Option.some.inj h
    rw [hle, hle] at hc
    have hlo : 65 ≤ c.toNat := hc.1
    have hhi : c.toNat ≤ 90 := hc.2
    refine ⟨by omega, ?_⟩
    rw [charOf, if_pos (by omega), hnat (by omega)]
  split at h
  · rename_i hc
    obtain rfl := Option.some.inj h
    rw [hle, hle] at hc
    have hlo : 97 ≤ c.toNat := hc.1
    have hhi : c.toNat ≤ 122 := hc.2
    refine ⟨by omega, ?_⟩
    rw [charOf, if_neg (by omega), if_pos (by omega), hnat (by omega)]
  split at h
  · rename_i hc
    obtain rfl := Option.some.inj h
    rw [hle, hle] at hc
    have hlo : 48 ≤ c.toNat := hc.1
    have hhi : c.toNat ≤ 57 := hc.2
    refine ⟨by omega, ?_⟩
    rw [charOf, if_neg (by omega), if_neg (by omega), if_pos (by omega), hnat (by omega)]
  split at h
  · rename_i hc
    obtain rfl := Option.some.inj h
    exact ⟨by decide, hc.symm⟩
  split at h
  · rename_i hc
    obtain rfl := Option.some.inj h
    exact ⟨by decide, hc.symm⟩
  · cases h

/-- Before any padding the strict scan takes one character of the alphabet at a time. -/
theorem scan_cons_eq_some {quad : Quad} {c : Char} {cs : List Char} {bytes : List UInt8}
    (hc : c ≠ '=') (h : scan true quad 0 false (c :: cs) = some bytes) :
    ∃ n < 64, charOf n = c ∧ ∃ rest, scan true (quad.push n).1 0 false cs = some rest ∧
      bytes = (quad.push n).2 ++ rest := by
  rw [scan, if_neg hc] at h
  cases hvalue : valueOf c with
  | none =>
    rw [hvalue] at h
    cases h
  | some n =>
    simp only [hvalue, Bool.false_eq_true, and_false, if_false] at h
    obtain ⟨rest, hrest, rfl⟩ := Option.map_eq_some_iff.mp h
    obtain ⟨hlt, hchar⟩ := charOf_of_valueOf hvalue
    exact ⟨n, hlt, hchar, rest, hrest, rfl⟩

/-- No text ends well after padding behind the first character of a quad. -/
theorem scan_one_padded (sextet pads : ℕ) (cs : List Char) :
    scan true (.one sextet) pads true cs = none := by
  induction cs generalizing pads with
  | nil => rfl
  | cons c cs ih =>
    rw [scan]
    by_cases hc : c = '='
    · rw [if_pos hc, if_neg (by simp [Quad.pos]), if_neg (by simp [Quad.pos]), ih]
    · rw [if_neg hc]
      cases valueOf c with
      | none => rfl
      | some n => simp

theorem scan_two_padded {low : ℕ} {cs : List Char} {bytes : List UInt8}
    (h : scan true (.two low) 1 true cs = some bytes) : cs = ['='] ∧ bytes = [] := by
  cases cs with
  | nil => cases h
  | cons c cs =>
    rw [scan] at h
    by_cases hc : c = '='
    · rw [if_pos hc, if_neg (by simp [Quad.pos]), if_pos (by simp [Quad.pos]),
        if_pos (by simp [Quad.pos])] at h
      split at h
      · cases h
      · rename_i hend
        have hnil : cs = [] := by simpa using hend
        exact ⟨by rw [hc, hnil], (Option.some.inj h).symm⟩
    · rw [if_neg hc] at h
      cases hvalue : valueOf c with
      | none =>
        rw [hvalue] at h
        cases h
      | some n =>
        rw [hvalue] at h
        simp at h

theorem scan_three_pad {low : ℕ} {cs : List Char} {bytes : List UInt8}
    (h : scan true (.three low) 0 false ('=' :: cs) = some bytes) : cs = [] ∧ bytes = [] := by
  rw [scan, if_pos rfl, if_neg (by simp [Quad.pos]), if_pos (by simp [Quad.pos]),
    if_pos (by simp [Quad.pos])] at h
  split at h
  · cases h
  · rename_i hend
    exact ⟨by simpa using hend, (Option.some.inj h).symm⟩

theorem toNat_ofNat {n : ℕ} (h : n < 256) : (UInt8.ofNat n).toNat = n := by
  rw [UInt8.toNat_ofNat']
  exact Nat.mod_eq_of_lt h

/-- **A text that strict decoding accepts** is the encoding of its bytes up to the spare bits. -/
theorem eq_encodeSpare_of_decode {text : List Char} {bytes : List UInt8}
    (h : decode true text = some bytes) : ∃ n < spellings bytes, text = encodeSpare n bytes := by
  unfold decode at h
  induction hlen : text.length using Nat.strong_induction_on generalizing text bytes with
  | _ len ih =>
  subst hlen
  cases text with
  | nil =>
    obtain rfl := Option.some.inj h
    exact ⟨0, by decide, rfl⟩
  | cons c₁ text =>
  by_cases hc₁ : c₁ = '='
  · subst hc₁
    cases h
  obtain ⟨n₁, hn₁, rfl, _, h₁, rfl⟩ := scan_cons_eq_some hc₁ h
  cases text with
  | nil => cases h₁
  | cons c₂ text =>
  by_cases hc₂ : c₂ = '='
  · have hnone : scan true (.one n₁) 0 false (c₂ :: text) = none := by
      rw [scan, if_pos hc₂, if_neg (by simp [Quad.pos]), if_neg (by simp [Quad.pos])]
      exact scan_one_padded n₁ 0 text
    rw [Quad.push, hnone] at h₁
    cases h₁
  obtain ⟨n₂, hn₂, rfl, _, h₂, rfl⟩ := scan_cons_eq_some hc₂ h₁
  have hfirst := toNat_ofNat (by omega : n₁ * 4 + n₂ / 16 < 256)
  have hsextet₁ : (n₁ * 4 + n₂ / 16) / 4 = n₁ := by omega
  cases text with
  | nil => cases h₂
  | cons c₃ text =>
  by_cases hc₃ : c₃ = '='
  · -- One byte, and four bits of the second character are spare.
    subst hc₃
    rw [Quad.push, Quad.push, scan, if_pos rfl, if_neg (by simp [Quad.pos]),
      if_pos (by simp [Quad.pos]), if_neg (by simp [Quad.pos])] at h₂
    obtain ⟨rfl, rfl⟩ := scan_two_padded h₂
    refine ⟨n₂ % 16, Nat.mod_lt _ (by decide), ?_⟩
    show [charOf n₁, charOf n₂, '=', '='] = encodeSpare (n₂ % 16) [UInt8.ofNat (n₁ * 4 + n₂ / 16)]
    have hlow : (n₁ * 4 + n₂ / 16) % 4 * 16 + n₂ % 16 = n₂ := by omega
    rw [encodeSpare, hfirst, hsextet₁, hlow]
  obtain ⟨n₃, hn₃, rfl, _, h₃, rfl⟩ := scan_cons_eq_some hc₃ h₂
  have hsecond := toNat_ofNat (by omega : n₂ % 16 * 16 + n₃ / 4 < 256)
  have hsextet₂ : (n₁ * 4 + n₂ / 16) % 4 * 16 + (n₂ % 16 * 16 + n₃ / 4) / 16 = n₂ := by omega
  cases text with
  | nil => cases h₃
  | cons c₄ text =>
  by_cases hc₄ : c₄ = '='
  · -- Two bytes, and two bits of the third character are spare.
    subst hc₄
    obtain ⟨rfl, rfl⟩ := scan_three_pad h₃
    refine ⟨n₃ % 4, Nat.mod_lt _ (by decide), ?_⟩
    show [charOf n₁, charOf n₂, charOf n₃, '='] = encodeSpare (n₃ % 4)
      [UInt8.ofNat (n₁ * 4 + n₂ / 16), UInt8.ofNat (n₂ % 16 * 16 + n₃ / 4)]
    have hlow : (n₂ % 16 * 16 + n₃ / 4) % 16 * 4 + n₃ % 4 = n₃ := by omega
    rw [encodeSpare, hfirst, hsecond, hsextet₁, hsextet₂, hlow]
  obtain ⟨n₄, hn₄, rfl, rest, h₄, rfl⟩ := scan_cons_eq_some hc₄ h₃
  have hthird := toNat_ofNat (by omega : n₃ % 4 * 64 + n₄ < 256)
  have hsextet₃ : (n₂ % 16 * 16 + n₃ / 4) % 16 * 4 + (n₃ % 4 * 64 + n₄) / 64 = n₃ := by omega
  have hsextet₄ : (n₃ % 4 * 64 + n₄) % 64 = n₄ := by omega
  obtain ⟨n, hn, htext⟩ := ih text.length (by simp only [List.length_cons]; omega) h₄ rfl
  refine ⟨n, by rw [← spellings_cons] at hn; exact hn, ?_⟩
  show _ = encodeSpare n (UInt8.ofNat (n₁ * 4 + n₂ / 16) ::
    UInt8.ofNat (n₂ % 16 * 16 + n₃ / 4) :: UInt8.ofNat (n₃ % 4 * 64 + n₄) :: rest)
  rw [encodeSpare, hfirst, hsecond, hthird, ← htext, hsextet₁, hsextet₂, hsextet₃, hsextet₄]

/-- Two texts of the same bytes differ in the spare bits only. -/
theorem eq_iff_spareBits_eq {s t : List Char} {bytes : List UInt8}
    (hs : decode true s = some bytes) (ht : decode true t = some bytes) :
    s = t ↔ spareBits s = spareBits t := by
  obtain ⟨n, hn, rfl⟩ := eq_encodeSpare_of_decode hs
  obtain ⟨m, hm, rfl⟩ := eq_encodeSpare_of_decode ht
  rw [spareBits_encodeSpare hn, spareBits_encodeSpare hm]
  constructor
  · intro heq
    rw [← spareBits_encodeSpare hn, heq, spareBits_encodeSpare hm]
  · rintro rfl
    rfl

end Base64
