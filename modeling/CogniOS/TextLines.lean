/-
# Lines of a text

How text is cut into lines by `str.splitlines`, which knows more boundaries than
the newline, and by the translation of newlines on reading a text file.
-/
import Mathlib

namespace TextLines

/-- The line boundaries of `str.splitlines`. -/
def isLineBreak (c : Char) : Bool :=
  c ∈ ['\n', '\r', '\x0b', '\x0c', '\x1c', '\x1d', '\x1e', '\u0085', '\u2028', '\u2029']

/-- `str.splitlines`: no empty line after a final boundary, `\r\n` counts once. -/
def splitlines : List Char → List (List Char)
  | [] => []
  | '\r' :: '\n' :: rest => [] :: splitlines rest
  | c :: rest =>
      if isLineBreak c then [] :: splitlines rest
      else
        match splitlines rest with
        | [] => [[c]]
        | line :: lines => (c :: line) :: lines

/-- Reading in text mode turns `\r\n` and `\r` into `\n`. -/
def universalNewlines : List Char → List Char
  | [] => []
  | '\r' :: '\n' :: rest => '\n' :: universalNewlines rest
  | c :: rest => (if c = '\r' then '\n' else c) :: universalNewlines rest

/-- The characters that `str.strip` removes. -/
def isSpace (c : Char) : Bool :=
  c.toNat ∈ [0x09, 0x0a, 0x0b, 0x0c, 0x0d, 0x1c, 0x1d, 0x1e, 0x1f, 0x20, 0x85, 0xa0, 0x1680,
    0x2000, 0x2001, 0x2002, 0x2003, 0x2004, 0x2005, 0x2006, 0x2007, 0x2008, 0x2009, 0x200a,
    0x2028, 0x2029, 0x202f, 0x205f, 0x3000]

/-- `not s.strip()`. -/
def isBlank (s : List Char) : Bool := s.all isSpace

theorem splitlines_cons {c : Char} (rest : List Char) (hc : c ≠ '\r') :
    splitlines (c :: rest) =
      if isLineBreak c then [] :: splitlines rest
      else
        match splitlines rest with
        | [] => [[c]]
        | line :: lines => (c :: line) :: lines := by
  rw [splitlines]
  rintro tail rfl
  exact absurd rfl hc

/-- A boundary other than a carriage return ends the line before it. -/
theorem splitlines_append {line rest : List Char} {b : Char}
    (hline : ∀ c ∈ line, isLineBreak c = false) (hb : isLineBreak b = true) (hr : b ≠ '\r') :
    splitlines (line ++ b :: rest) = line :: splitlines rest := by
  induction line with
  | nil => rw [List.nil_append, splitlines_cons rest hr, if_pos hb]
  | cons c line ih =>
    have hc : isLineBreak c = false := hline c List.mem_cons_self
    have hcr : c ≠ '\r' := by rintro rfl; exact absurd hc (by decide)
    rw [List.cons_append, splitlines_cons _ hcr, hc,
      ih fun d hd => hline d (List.mem_cons_of_mem _ hd)]
    rfl

theorem universalNewlines_of_notMem {cs : List Char} (h : '\r' ∉ cs) :
    universalNewlines cs = cs := by
  induction cs with
  | nil => rfl
  | cons c cs ih =>
    have hc : c ≠ '\r' := by rintro rfl; exact h List.mem_cons_self
    rw [universalNewlines, if_neg hc, ih fun hmem => h (List.mem_cons_of_mem _ hmem)]
    rintro tail rfl
    exact absurd rfl hc

end TextLines
