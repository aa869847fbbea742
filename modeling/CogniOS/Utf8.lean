/-
# UTF-8 text

Text and its UTF-8 bytes as lists: `decode (encode cs) = some cs`, the length of
an encoding, and where the newline byte can stand in one.
-/
import Mathlib

namespace Utf8

/-- The UTF-8 bytes of a text. -/
def encode (cs : List Char) : List UInt8 := cs.flatMap String.utf8EncodeChar

/-- The text of strictly valid UTF-8 bytes. -/
def decode (bytes : List UInt8) : Option (List Char) :=
  bytes.toByteArray.utf8Decode?.map Array.toList

@[simp] theorem encode_nil : encode [] = [] := rfl

theorem encode_cons (c : Char) (cs : List Char) :
    encode (c :: cs) = String.utf8EncodeChar c ++ encode cs := rfl

theorem encode_append (cs ds : List Char) : encode (cs ++ ds) = encode cs ++ encode ds :=
  List.flatMap_append

/-- Decoding undoes encoding. -/
theorem decode_encode (cs : List Char) : decode (encode cs) = some cs := by
  have h : cs.utf8Encode.utf8Decode? = some cs.toArray := List.utf8Decode?_utf8Encode
  rw [List.utf8Encode] at h
  rw [decode, encode, h]
  simp

/-- Encoding undoes decoding. -/
theorem encode_of_decode {bytes : List UInt8} {cs : List Char} (h : decode bytes = some cs) :
    encode cs = bytes := by
  obtain ⟨chars, hchars, rfl⟩ := Option.map_eq_some_iff.mp h
  have hround := ByteArray.utf8Encode_get_utf8Decode? (b := bytes.toByteArray)
    (h := by rw [hchars]; rfl)
  simp only [hchars, Option.get_some] at hround
  have hdata := congrArg (fun b : ByteArray => b.data.toList) hround
  simpa [List.utf8Encode, encode] using hdata

theorem encode_injective : Function.Injective encode := by
  intro cs ds h
  have hcs := decode_encode cs
  rw [h, decode_encode] at hcs
  exact (Option.some.inj hcs).symm

/-! ## The newline byte -/

/-- The newline byte. -/
def lf : UInt8 := 10

theorem lf_ne_ofNat {n : ℕ} (h : 0x80 ≤ n) (hlt : n < 256) : lf ≠ UInt8.ofNat n := by
  intro e
  have := congrArg UInt8.toNat e
  rw [UInt8.toNat_ofNat_of_lt' hlt] at this
  have hlf : lf.toNat = 10 := rfl
  omega

/-- Only a newline character has the newline byte in its encoding. -/
theorem lf_mem_encodeChar {c : Char} (h : lf ∈ String.utf8EncodeChar c) : c = '\n' := by
  have hmax : c.val.toNat < 0x110000 := by
    have := c.valid
    simp only [UInt32.isValidChar, Nat.isValidChar] at this
    omega
  unfold String.utf8EncodeChar at h
  simp only at h
  split_ifs at h with h1 h2 h3
  · have hv := congrArg UInt8.toNat (List.mem_singleton.mp h)
    rw [UInt8.toNat_ofNat_of_lt' (by simp only [UInt8.size]; omega)] at hv
    apply Char.ext
    apply UInt32.toNat_inj.mp
    simpa [lf] using hv.symm
  -- a lead or continuation byte of a longer encoding is at least 0x80
  · exfalso
    simp only [List.mem_cons, List.not_mem_nil, or_false] at h
    obtain h | h := h <;> exact lf_ne_ofNat (by omega) (by omega) h
  · exfalso
    simp only [List.mem_cons, List.not_mem_nil, or_false] at h
    obtain h | h | h := h <;> exact lf_ne_ofNat (by omega) (by omega) h
  · exfalso
    simp only [List.mem_cons, List.not_mem_nil, or_false] at h
    obtain h | h | h | h := h <;> exact lf_ne_ofNat (by omega) (by omega) h

theorem lf_mem_encode {cs : List Char} (h : lf ∈ encode cs) : '\n' ∈ cs := by
  obtain ⟨c, hc, hmem⟩ := List.mem_flatMap.mp h
  rw [← lf_mem_encodeChar hmem]
  exact hc

@[simp] theorem encode_newline : encode ['\n'] = [lf] := rfl

/-! ## Lengths -/

theorem length_encode_cons (c : Char) (cs : List Char) :
    (encode (c :: cs)).length = c.utf8Size + (encode cs).length := by
  rw [encode_cons, List.length_append, String.length_utf8EncodeChar]

/-- An ASCII text has as many bytes as characters. -/
theorem length_encode_ascii {cs : List Char} (h : ∀ c ∈ cs, c.toNat < 0x80) :
    (encode cs).length = cs.length := by
  induction cs with
  | nil => rfl
  | cons c cs ih =>
    have hc : c.utf8Size = 1 := by
      rw [Char.utf8Size_eq_one_iff, UInt32.le_iff_toNat_le]
      have := h c List.mem_cons_self
      have hn : c.toNat = c.val.toNat := rfl
      simp only [UInt32.reduceToNat]
      omega
    rw [length_encode_cons, hc, ih fun d hd => h d (List.mem_cons_of_mem _ hd), List.length_cons]
    omega

theorem length_le_length_encode (cs : List Char) : cs.length ≤ (encode cs).length := by
  induction cs with
  | nil => simp
  | cons c cs ih =>
    have := c.utf8Size_pos
    rw [length_encode_cons, List.length_cons]
    omega

end Utf8
