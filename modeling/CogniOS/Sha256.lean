/-
# SHA-256 and HMAC-SHA-256

The hash of FIPS 180-4 and the keyed hash of RFC 2104 over byte lists, with
their hexadecimal digests.  `Hasher` is what a program relies on: a digest of 64
lowercase hexadecimal characters for every message; `sha256` is one.
-/
import Mathlib

/-! ## Hexadecimal text -/

namespace Hex

/-- A lowercase hexadecimal digit. -/
def isDigit (c : Char) : Bool := ('0' ≤ c && c ≤ '9') || ('a' ≤ c && c ≤ 'f')

/-- A string of `n` lowercase hexadecimal digits. -/
def isHex (n : ℕ) (s : String) : Bool := s.toList.length = n && s.toList.all isDigit

/-- The two digits of a byte. -/
def ofByte (b : UInt8) : List Char := [Nat.digitChar (b.toNat / 16), Nat.digitChar (b.toNat % 16)]

/-- The digits of a byte list. -/
def ofBytes (bytes : List UInt8) : String := String.ofList (bytes.flatMap ofByte)

theorem isDigit_digitChar : ∀ m < 16, isDigit (Nat.digitChar m) = true := by decide

theorem isHex_ofBytes (bytes : List UInt8) : isHex (2 * bytes.length) (ofBytes bytes) = true := by
  rw [isHex, ofBytes, String.toList_ofList, Bool.and_eq_true, decide_eq_true_eq, List.all_eq_true]
  constructor
  · induction bytes with
    | nil => rfl
    | cons b bytes ih =>
      rw [List.flatMap_cons, List.length_append, ih, List.length_cons]
      simp only [ofByte, List.length_cons, List.length_nil]
      omega
  · intro c hc
    obtain ⟨b, -, hc⟩ := List.mem_flatMap.mp hc
    have hb : b.toNat < 256 := b.toNat_lt
    simp only [ofByte, List.mem_cons, List.not_mem_nil, or_false] at hc
    obtain rfl | rfl := hc
    · exact isDigit_digitChar _ (by omega)
    · exact isDigit_digitChar _ (by omega)

theorem toNat_lt_of_isDigit {c : Char} (h : isDigit c = true) : c.toNat < 0x7f := by
  simp only [isDigit, Bool.or_eq_true, Bool.and_eq_true, decide_eq_true_eq] at h
  obtain ⟨-, h⟩ | ⟨-, h⟩ := h
  · have : c.toNat ≤ '9'.toNat := h
    have h9 : '9'.toNat = 57 := rfl
    omega
  · have : c.toNat ≤ 'f'.toNat := h
    have hf : 'f'.toNat = 102 := rfl
    omega

/-- Hexadecimal digits are in lower case already. -/
theorem toLower_of_isDigit {c : Char} (h : isDigit c = true) : c.toLower = c := by
  rw [Char.toLower, dif_neg]
  rintro ⟨hle, hge⟩
  simp only [isDigit, Bool.or_eq_true, Bool.and_eq_true, decide_eq_true_eq] at h
  rcases h with ⟨-, h9⟩ | ⟨ha, -⟩
  · have h9 : c.val ≤ 57 := h9
    have := UInt32.le_trans hle h9
    exact absurd this (by decide)
  · have ha : 97 ≤ c.val := ha
    have := UInt32.le_trans ha hge
    exact absurd this (by decide)

theorem toNat_lt_of_isHex {n : ℕ} {s : String} (h : isHex n s = true) :
    ∀ c ∈ s.toList, c.toNat < 0x7f := by
  rw [isHex, Bool.and_eq_true, List.all_eq_true] at h
  intro c hc
  exact toNat_lt_of_isDigit (h.2 c hc)

theorem length_of_isHex {n : ℕ} {s : String} (h : isHex n s = true) : s.toList.length = n := by
  rw [isHex, Bool.and_eq_true, decide_eq_true_eq] at h
  exact h.1

end Hex

/-- A hash function with 64-digit hexadecimal digests. -/
structure Hasher where
  hexdigest : List UInt8 → String
  hex : ∀ message, Hex.isHex 64 (hexdigest message) = true

/-! ## The compression function -/

namespace Sha256

/-- The round constants. -/
def roundConstants : List UInt32 := [
  0x428a2f98, 0x71374491, 0xb5c0fbcf, 0xe9b5dba5, 0x3956c25b, 0x59f111f1, 0x923f82a4, 0xab1c5ed5,
  0xd807aa98, 0x12835b01, 0x243185be, 0x550c7dc3, 0x72be5d74, 0x80deb1fe, 0x9bdc06a7, 0xc19bf174,
  0xe49b69c1, 0xefbe4786, 0x0fc19dc6, 0x240ca1cc, 0x2de92c6f, 0x4a7484aa, 0x5cb0a9dc, 0x76f988da,
  0x983e5152, 0xa831c66d, 0xb00327c8, 0xbf597fc7, 0xc6e00bf3, 0xd5a79147, 0x06ca6351, 0x14292967,
  0x27b70a85, 0x2e1b2138, 0x4d2c6dfc, 0x53380d13, 0x650a7354, 0x766a0abb, 0x81c2c92e, 0x92722c85,
  0xa2bfe8a1, 0xa81a664b, 0xc24b8b70, 0xc76c51a3, 0xd192e819, 0xd6990624, 0xf40e3585, 0x106aa070,
  0x19a4c116, 0x1e376c08, 0x2748774c, 0x34b0bcb5, 0x391c0cb3, 0x4ed8aa4a, 0x5b9cca4f, 0x682e6ff3,
  0x748f82ee, 0x78a5636f, 0x84c87814, 0x8cc70208, 0x90befffa, 0xa4506ceb, 0xbef9a3f7, 0xc67178f2]

/-- The eight chaining words. -/
structure State where
  a : UInt32
  b : UInt32
  c : UInt32
  d : UInt32
  e : UInt32
  f : UInt32
  g : UInt32
  h : UInt32

def initial : State :=
  ⟨0x6a09e667, 0xbb67ae85, 0x3c6ef372, 0xa54ff53a, 0x510e527f, 0x9b05688c, 0x1f83d9ab, 0x5be0cd19⟩

def rotr (x : UInt32) (n : UInt32) : UInt32 := (x >>> n) ||| (x <<< (32 - n))

/-- One round with its constant and its message word. -/
def round (s : State) (kw : UInt32 × UInt32) : State :=
  let s1 := rotr s.e 6 ^^^ rotr s.e 11 ^^^ rotr s.e 25
  let ch := (s.e &&& s.f) ^^^ ((~~~ s.e) &&& s.g)
  let t1 := s.h + s1 + ch + kw.1 + kw.2
  let s0 := rotr s.a 2 ^^^ rotr s.a 13 ^^^ rotr s.a 22
  let maj := (s.a &&& s.b) ^^^ (s.a &&& s.c) ^^^ (s.b &&& s.c)
  ⟨t1 + (s0 + maj), s.a, s.b, s.c, s.d + t1, s.e, s.f, s.g⟩

/-- `n` further words of the message schedule; the window holds the last sixteen. -/
def schedule : ℕ → List UInt32 → List UInt32
  | 0, _ => []
  | n + 1, window =>
      let w15 := window.getD 1 0
      let w2 := window.getD 14 0
      let s0 := rotr w15 7 ^^^ rotr w15 18 ^^^ (w15 >>> 3)
      let s1 := rotr w2 17 ^^^ rotr w2 19 ^^^ (w2 >>> 10)
      let w := window.getD 0 0 + s0 + window.getD 9 0 + s1
      w :: schedule n (window.tail ++ [w])

/-- One block of sixteen words. -/
def compress (s : State) (block : List UInt32) : State :=
  let t := (roundConstants.zip (block ++ schedule 48 block)).foldl round s
  ⟨s.a + t.a, s.b + t.b, s.c + t.c, s.d + t.d, s.e + t.e, s.f + t.f, s.g + t.g, s.h + t.h⟩

/-! ## Padding and digest -/

/-- The big-endian bytes of a word. -/
def wordBytes (w : UInt32) : List UInt8 :=
  [(w >>> 24).toUInt8, (w >>> 16).toUInt8, (w >>> 8).toUInt8, w.toUInt8]

/-- The big-endian bytes of a length in bits. -/
def lengthBytes (n : ℕ) : List UInt8 :=
  (List.range 8).map fun i => UInt8.ofNat (n / 256 ^ (7 - i))

def pad (message : List UInt8) : List UInt8 :=
  message ++ 0x80 :: (List.replicate ((119 - message.length % 64) % 64) 0 ++
    lengthBytes (8 * message.length))

/-- Big-endian words of a byte list. -/
def words : List UInt8 → List UInt32
  | a :: b :: c :: d :: rest =>
      ((a.toUInt32 <<< 24) ||| (b.toUInt32 <<< 16) ||| (c.toUInt32 <<< 8) ||| d.toUInt32) ::
        words rest
  | _ => []

/-- The first `n` blocks of sixteen words. -/
def blocks : ℕ → List UInt32 → List (List UInt32)
  | 0, _ => []
  | n + 1, ws => ws.take 16 :: blocks n (ws.drop 16)

/-- The 32 digest bytes of a message. -/
def digest (message : List UInt8) : List UInt8 :=
  let ws := words (pad message)
  let s := (blocks (ws.length / 16) ws).foldl compress initial
  [s.a, s.b, s.c, s.d, s.e, s.f, s.g, s.h].flatMap wordBytes

theorem length_digest (message : List UInt8) : (digest message).length = 32 := rfl

/-- HMAC-SHA-256 of a message under a key. -/
def hmac (key message : List UInt8) : List UInt8 :=
  let short := if key.length > 64 then digest key else key
  let block := short ++ List.replicate (64 - short.length) 0
  digest (block.map (· ^^^ 0x5c) ++ digest (block.map (· ^^^ 0x36) ++ message))

end Sha256

/-- SHA-256 as a hash function with hexadecimal digests. -/
def sha256 : Hasher where
  hexdigest message := Hex.ofBytes (Sha256.digest message)
  hex message := Hex.isHex_ofBytes (Sha256.digest message)

/-- HMAC-SHA-256 under a fixed key. -/
def hmacSha256 (key : List UInt8) : Hasher where
  hexdigest message := Hex.ofBytes (Sha256.hmac key message)
  hex message := Hex.isHex_ofBytes (Sha256.hmac key message)
