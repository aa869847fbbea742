/-
# Files of lines

A file that is a sequence of lines, each of them ended by a newline, read line by line under a
limit for a line, for the file and for the number of its lines.

* `readLines` is the reader; `readline` is one call of `readline` with its limit;
* `readLines_eq_ok` : what is read is a file of complete lines within the limits;
* `joinLines_injective` : a file has one sequence of lines;
* `not_joinLines_of_cut` : a file whose last line was cut is not read.
-/
import CogniOS.Util
import CogniOS.Utf8

namespace LineFile

open Utf8 (lf)

/-! ## Lines -/

/-- The file with these lines. -/
def joinLines (bodies : List (List UInt8)) : List UInt8 := bodies.flatMap (· ++ [lf])

@[simp] theorem joinLines_nil : joinLines [] = [] := rfl

theorem joinLines_cons (body : List UInt8) (bodies : List (List UInt8)) :
    joinLines (body :: bodies) = body ++ lf :: joinLines bodies := by
  simp [joinLines]

theorem joinLines_append (xs ys : List (List UInt8)) :
    joinLines (xs ++ ys) = joinLines xs ++ joinLines ys := by
  simp [joinLines]

theorem length_le_length_joinLines (bodies : List (List UInt8)) :
    bodies.length ≤ (joinLines bodies).length := by
  induction bodies with
  | nil => exact le_refl _
  | cons body bodies ih =>
    rw [joinLines_cons, List.length_append, List.length_cons, List.length_cons]
    omega

/-- A text up to its first newline is known from the whole. -/
theorem eq_of_append_lf {x y r s : List UInt8} (hx : lf ∉ x) (hy : lf ∉ y)
    (h : x ++ lf :: r = y ++ lf :: s) : x = y ∧ r = s := by
  induction x generalizing y with
  | nil =>
    cases y with
    | nil => exact ⟨rfl, (List.cons.inj h).2⟩
    | cons b y =>
      obtain ⟨hb, -⟩ := List.cons.inj h
      exact absurd (by rw [hb]; exact List.mem_cons_self) hy
  | cons a x ih =>
    cases y with
    | nil =>
      obtain ⟨ha, -⟩ := List.cons.inj h
      exact absurd (by rw [← ha]; exact List.mem_cons_self) hx
    | cons b y =>
      obtain ⟨hab, hrest⟩ := List.cons.inj h
      obtain ⟨hxy, hrs⟩ := ih (fun hmem => hx (List.mem_cons_of_mem _ hmem))
        (fun hmem => hy (List.mem_cons_of_mem _ hmem)) hrest
      exact ⟨by rw [hab, hxy], hrs⟩

/-- **A file has one sequence of lines**, and what follows a prefix of complete lines is the
rest of them. -/
theorem eq_append_of_joinLines {xs ys : List (List UInt8)} {tail : List UInt8}
    (hxs : ∀ x ∈ xs, lf ∉ x) (hys : ∀ y ∈ ys, lf ∉ y)
    (h : joinLines ys = joinLines xs ++ tail) :
    ∃ zs, ys = xs ++ zs ∧ tail = joinLines zs := by
  induction xs generalizing ys with
  | nil => exact ⟨ys, rfl, h.symm⟩
  | cons x xs ih =>
    obtain ⟨hx, hmore⟩ := List.forall_mem_cons.mp hxs
    cases ys with
    | nil =>
      rw [joinLines_cons] at h
      simp at h
    | cons y ys =>
      obtain ⟨hy, hothers⟩ := List.forall_mem_cons.mp hys
      rw [joinLines_cons, joinLines_cons, List.append_assoc, List.cons_append] at h
      obtain ⟨rfl, hrest⟩ := eq_of_append_lf hy hx h
      obtain ⟨zs, rfl, htail⟩ := ih hmore hothers hrest
      exact ⟨zs, rfl, htail⟩

theorem joinLines_injective {xs ys : List (List UInt8)} (hxs : ∀ x ∈ xs, lf ∉ x)
    (hys : ∀ y ∈ ys, lf ∉ y) (h : joinLines xs = joinLines ys) : xs = ys := by
  obtain ⟨zs, hzs, hnil⟩ := @eq_append_of_joinLines xs ys [] hxs hys (by simpa using h.symm)
  cases zs with
  | nil => simpa using hzs.symm
  | cons z zs =>
    rw [joinLines_cons] at hnil
    simp at hnil

/-- A cut line is no line. -/
theorem not_joinLines_of_cut {xs ys : List (List UInt8)} {cut : List UInt8}
    (hxs : ∀ x ∈ xs, lf ∉ x) (hys : ∀ y ∈ ys, lf ∉ y) (hcut : cut ≠ []) (hlf : lf ∉ cut) :
    joinLines ys ≠ joinLines xs ++ cut := by
  intro h
  obtain ⟨zs, -, hzs⟩ := eq_append_of_joinLines hxs hys h
  cases zs with
  | nil => exact hcut hzs
  | cons z zs =>
    rw [joinLines_cons] at hzs
    exact hlf (by rw [hzs]; simp)

/-! ## Reading -/

/-- `readline` with a limit: up to the first newline, and at most so many bytes. -/
def readline : ℕ → List UInt8 → List UInt8 × List UInt8
  | 0, bytes => ([], bytes)
  | _ + 1, [] => ([], [])
  | limit + 1, b :: bytes =>
      if b = lf then ([b], bytes)
      else (b :: (readline limit bytes).1, (readline limit bytes).2)

theorem readline_append (limit : ℕ) (bytes : List UInt8) :
    (readline limit bytes).1 ++ (readline limit bytes).2 = bytes := by
  induction limit generalizing bytes with
  | zero => rfl
  | succ limit ih =>
    cases bytes with
    | nil => rfl
    | cons b bytes =>
      rw [readline]
      split
      · rfl
      · rw [List.cons_append, ih]

theorem readline_eq_nil {limit : ℕ} {bytes : List UInt8} (hlimit : 0 < limit)
    (h : (readline limit bytes).1 = []) : bytes = [] := by
  cases limit with
  | zero => omega
  | succ limit =>
    cases bytes with
    | nil => rfl
    | cons b bytes =>
      rw [readline] at h
      split at h
      · cases h
      · cases h

/-- A complete line within the limit is read whole. -/
theorem readline_line {limit : ℕ} {body rest : List UInt8} (hlf : lf ∉ body)
    (hlimit : body.length < limit) : readline limit (body ++ lf :: rest) = (body ++ [lf], rest) := by
  induction body generalizing limit with
  | nil =>
    obtain ⟨n, rfl⟩ : ∃ n, limit = n + 1 := ⟨limit - 1, by simp at hlimit; omega⟩
    rw [List.nil_append, readline, if_pos rfl]
    rfl
  | cons b body ih =>
    rw [List.length_cons] at hlimit
    obtain ⟨n, rfl⟩ : ∃ n, limit = n + 1 := ⟨limit - 1, by omega⟩
    obtain ⟨hb, hbody⟩ := List.ne_and_not_mem_of_not_mem_cons hlf
    rw [List.cons_append, readline, if_neg hb.symm, ih hbody (by omega)]
    rfl

/-- What is read ends in the only newline of it, if it has one. -/
theorem readline_ends {limit : ℕ} {bytes : List UInt8}
    (h : (readline limit bytes).1.getLast? = some lf) :
    lf ∉ (readline limit bytes).1.dropLast := by
  induction limit generalizing bytes with
  | zero => simp [readline]
  | succ limit ih =>
    cases bytes with
    | nil => simp [readline]
    | cons b bytes =>
      rw [readline] at h ⊢
      split
      · simp
      · rename_i hb
        rw [if_neg hb] at h
        cases hrest : (readline limit bytes).1 with
        | nil => simp
        | cons c rest =>
          simp only [hrest, List.getLast?_cons_cons] at h
          simp only [List.dropLast_cons_cons]
          have hih := ih (by rw [hrest]; exact h)
          rw [hrest] at hih
          intro hmem
          rcases List.mem_cons.mp hmem with heq | hmem
          · exact hb heq.symm
          · exact hih hmem

section Reader

variable {δ ε : Type}

/-- How a file is read: the limits, the decoder of a line with its number, and the errors. -/
structure Format (δ ε : Type) where
  maximumLine : ℕ
  maximumBytes : ℕ
  maximumEntries : ℕ
  decoder : List UInt8 → ℕ → Except ε δ
  bytesError : ε
  entriesError : ε
  lineError : ε
  terminalError : ε

/-- The loop of the reader over what is left of the file; every turn takes a byte at least. -/
def readLoop (f : Format δ ε) : ℕ → List δ → ℕ → List UInt8 → Except ε (List δ × ℕ)
  | 0, documents, total, _ => .ok (documents, total)
  | fuel + 1, documents, total, rest =>
      let readLimit := min (f.maximumLine + 2) (f.maximumBytes - total + 1)
      let line := (readline readLimit rest).1
      if line = [] then .ok (documents, total)
      else if f.maximumBytes < total + line.length then .error f.bytesError
      else if f.maximumEntries ≤ documents.length then .error f.entriesError
      else if line.getLast? ≠ some lf then
        if f.maximumLine < line.length then .error f.lineError else .error f.terminalError
      else if f.maximumLine < line.dropLast.length then .error f.lineError
      else do
        let document ← f.decoder line.dropLast (documents.length + 1)
        readLoop f fuel (documents ++ [document]) (total + line.length)
          (readline readLimit rest).2

/-- The documents of a file and the number of its bytes. -/
def readLines (f : Format δ ε) (bytes : List UInt8) : Except ε (List δ × ℕ) :=
  readLoop f (bytes.length + 1) [] 0 bytes

/-- The documents of lines that are numbered from `n` on. -/
def decodeAll (f : Format δ ε) : ℕ → List (List UInt8) → Except ε (List δ)
  | _, [] => .ok []
  | n, body :: bodies => do
      let document ← f.decoder body n
      let documents ← decodeAll f (n + 1) bodies
      .ok (document :: documents)

/-- Complete lines within the limits. -/
structure Fits (f : Format δ ε) (bodies : List (List UInt8)) : Prop where
  bytes : (joinLines bodies).length ≤ f.maximumBytes
  entries : bodies.length ≤ f.maximumEntries
  lines : ∀ body ∈ bodies, lf ∉ body ∧ body.length ≤ f.maximumLine

theorem decodeAll_append (f : Format δ ε) (n : ℕ) (xs ys : List (List UInt8)) (ds : List δ) :
    decodeAll f n (xs ++ ys) = .ok ds ↔
      ∃ ds₁ ds₂, ds = ds₁ ++ ds₂ ∧ decodeAll f n xs = .ok ds₁ ∧
        decodeAll f (n + xs.length) ys = .ok ds₂ := by
  induction xs generalizing n ds with
  | nil =>
    constructor
    · exact fun h => ⟨[], ds, rfl, rfl, h⟩
    · rintro ⟨ds₁, ds₂, rfl, h₁, h₂⟩
      obtain rfl := Except.ok.inj h₁
      exact h₂
  | cons x xs ih =>
    have hlen : n + (x :: xs).length = n + 1 + xs.length := by rw [List.length_cons]; omega
    rw [List.cons_append, decodeAll, bind_eq_ok, hlen]
    constructor
    · rintro ⟨d, hd, h⟩
      obtain ⟨rest, hrest, hend⟩ := bind_eq_ok.mp h
      obtain rfl := Except.ok.inj hend
      obtain ⟨ds₁, ds₂, rfl, h₁, h₂⟩ := (ih (n + 1) rest).mp hrest
      refine ⟨d :: ds₁, ds₂, rfl, ?_, h₂⟩
      rw [decodeAll]
      exact bind_eq_ok.mpr ⟨d, hd, bind_eq_ok.mpr ⟨ds₁, h₁, rfl⟩⟩
    · rintro ⟨ds₁, ds₂, rfl, h₁, h₂⟩
      rw [decodeAll] at h₁
      obtain ⟨d, hd, h₁⟩ := bind_eq_ok.mp h₁
      obtain ⟨rest, hrest, hend⟩ := bind_eq_ok.mp h₁
      obtain rfl := Except.ok.inj hend
      exact ⟨d, hd, bind_eq_ok.mpr ⟨rest ++ ds₂, (ih (n + 1) _).mpr ⟨rest, ds₂, rfl, hrest, h₂⟩,
        rfl⟩⟩

/-- What the loop has read, from any point of the file. -/
theorem readLoop_eq_ok {f : Format δ ε} {fuel : ℕ} {documents : List δ} {total : ℕ}
    {rest : List UInt8} {result : List δ × ℕ} (hfuel : rest.length < fuel)
    (hok : readLoop f fuel documents total rest = .ok result) :
    ∃ bodies new, rest = joinLines bodies ∧ decodeAll f (documents.length + 1) bodies = .ok new ∧
      result = (documents ++ new, total + rest.length) ∧
      (bodies ≠ [] → total + rest.length ≤ f.maximumBytes ∧
        documents.length + bodies.length ≤ f.maximumEntries) ∧
      ∀ body ∈ bodies, lf ∉ body ∧ body.length ≤ f.maximumLine := by
  induction fuel generalizing documents total rest with
  | zero => omega
  | succ fuel ih =>
    rw [readLoop] at hok
    have hcut := readline_append (min (f.maximumLine + 2) (f.maximumBytes - total + 1)) rest
    have hnil := @readline_eq_nil (min (f.maximumLine + 2) (f.maximumBytes - total + 1)) rest
      (by omega)
    have hends := @readline_ends (min (f.maximumLine + 2) (f.maximumBytes - total + 1)) rest
    generalize hline : readline (min (f.maximumLine + 2) (f.maximumBytes - total + 1)) rest =
      cut at hok hcut hnil hends
    obtain ⟨line, tail⟩ := cut
    simp only at hok hcut hnil hends
    split at hok
    · rename_i hempty
      obtain rfl := hnil hempty
      obtain rfl := Except.ok.inj hok
      exact ⟨[], [], rfl, rfl, by simp, by simp, by simp⟩
    rename_i hne
    split at hok
    · cases hok
    rename_i hbytes
    split at hok
    · cases hok
    rename_i hentries
    split at hok
    · split at hok
      · cases hok
      · cases hok
    rename_i hlast
    split at hok
    · cases hok
    rename_i hlong
    rw [not_not] at hlast
    obtain ⟨document, hdocument, hok⟩ := bind_eq_ok.mp hok
    have hbody : line.dropLast ++ [lf] = line := List.dropLast_append_getLast? _ hlast
    have hsplit : rest = line.dropLast ++ lf :: tail := by
      rw [← hcut]
      conv_lhs => rw [← hbody]
      simp
    have hpos : 0 < line.length := List.length_pos_iff.mpr hne
    have hlen : rest.length = line.length + tail.length := by rw [← hcut, List.length_append]
    obtain ⟨bodies, new, htail, hdecoded, hresult, hlimits, hbodies⟩ := ih (by omega) hok
    rw [List.length_append, List.length_singleton] at hdecoded hlimits
    refine ⟨line.dropLast :: bodies, document :: new, ?_, ?_, ?_, ?_, ?_⟩
    · rw [joinLines_cons, ← htail]
      exact hsplit
    · rw [decodeAll]
      exact bind_eq_ok.mpr ⟨document, hdocument, bind_eq_ok.mpr ⟨new, hdecoded, rfl⟩⟩
    · rw [hresult, hlen, List.append_assoc, ← add_assoc]
      rfl
    · intro _
      rw [List.length_cons]
      by_cases hmore : bodies = []
      · subst hmore
        obtain rfl : tail = [] := htail
        simp only [List.length_nil] at hlen ⊢
        omega
      · obtain ⟨hb, he⟩ := hlimits hmore
        omega
    · intro body hmem
      rcases List.mem_cons.mp hmem with rfl | hmem
      · exact ⟨hends hlast, by omega⟩
      · exact hbodies body hmem

/-- Complete lines within the limits are read. -/
theorem readLoop_joinLines {f : Format δ ε} {fuel : ℕ} {documents new : List δ} {total : ℕ}
    {bodies : List (List UInt8)} (hfuel : (joinLines bodies).length < fuel)
    (hdecoded : decodeAll f (documents.length + 1) bodies = .ok new)
    (hbytes : total + (joinLines bodies).length ≤ f.maximumBytes)
    (hentries : documents.length + bodies.length ≤ f.maximumEntries)
    (hlines : ∀ body ∈ bodies, lf ∉ body ∧ body.length ≤ f.maximumLine) :
    readLoop f fuel documents total (joinLines bodies) =
      .ok (documents ++ new, total + (joinLines bodies).length) := by
  induction fuel generalizing documents total bodies new with
  | zero => omega
  | succ fuel ih =>
    rw [readLoop]
    cases bodies with
    | nil =>
      obtain rfl := Except.ok.inj hdecoded
      have hnil : ∀ n, (readline n ([] : List UInt8)).1 = [] := by
        intro n
        cases n <;> rfl
      simp only [joinLines_nil, hnil, if_true, List.append_nil, List.length_nil, Nat.add_zero]
    | cons body bodies =>
      obtain ⟨⟨hlf, hlen⟩, hlines⟩ := List.forall_mem_cons.mp hlines
      rw [joinLines_cons, List.length_append, List.length_cons] at hfuel hbytes
      rw [List.length_cons] at hentries
      rw [decodeAll] at hdecoded
      obtain ⟨document, hdocument, hdecoded⟩ := bind_eq_ok.mp hdecoded
      obtain ⟨rest, hrest, hnew⟩ := bind_eq_ok.mp hdecoded
      obtain rfl := Except.ok.inj hnew
      have hread : readline (min (f.maximumLine + 2) (f.maximumBytes - total + 1))
          (joinLines (body :: bodies)) = (body ++ [lf], joinLines bodies) := by
        rw [joinLines_cons]
        exact readline_line hlf (by omega)
      have hlast : (body ++ [lf]).getLast? = some lf := by simp
      have hdrop : (body ++ [lf]).dropLast = body := by simp
      have hne : body ++ [lf] ≠ [] := by simp
      have hsize : (body ++ [lf]).length = body.length + 1 := by simp
      simp only [hread, if_neg hne, hlast, hdrop, hsize, ne_eq, not_true_eq_false, if_false]
      rw [if_neg (by omega), if_neg (by omega), if_neg (by omega)]
      refine bind_eq_ok.mpr ⟨document, hdocument, ?_⟩
      have hdecodedRest : decodeAll f ((documents ++ [document]).length + 1) bodies = .ok rest := by
        rw [List.length_append]
        exact hrest
      rw [ih (by omega) hdecodedRest (by omega)
        (by rw [List.length_append, List.length_singleton]; omega) hlines, joinLines_cons,
        List.length_append, List.length_cons, List.append_assoc]
      congr 2
      omega

/-- **What is read** is a file of complete lines within the limits. -/
theorem readLines_eq_ok {f : Format δ ε} {bytes : List UInt8} {result : List δ × ℕ} :
    readLines f bytes = .ok result ↔
      ∃ bodies, bytes = joinLines bodies ∧ Fits f bodies ∧
        decodeAll f 1 bodies = .ok result.1 ∧ result.2 = bytes.length := by
  constructor
  · intro hok
    obtain ⟨bodies, new, hbytes, hdecoded, hresult, hlimits, hlines⟩ :=
      readLoop_eq_ok (Nat.lt_succ_self _) hok
    have hfits : Fits f bodies := by
      refine ⟨?_, ?_, hlines⟩
      · by_cases hnil : bodies = []
        · subst hnil
          exact Nat.zero_le _
        · have := (hlimits hnil).1
          rw [← hbytes]
          omega
      · by_cases hnil : bodies = []
        · subst hnil
          exact Nat.zero_le _
        · have := (hlimits hnil).2
          rw [List.length_nil] at this
          omega
    subst hresult
    exact ⟨bodies, hbytes, hfits, hdecoded, by simp⟩
  · rintro ⟨bodies, rfl, hfits, hdecoded, htotal⟩
    obtain ⟨documents, total⟩ := result
    simp only at hdecoded htotal
    have hloop := @readLoop_joinLines _ _ f _ [] documents 0 _
      (Nat.lt_succ_self (joinLines bodies).length) hdecoded (by simpa using hfits.bytes)
      (by simpa using hfits.entries) hfits.lines
    rw [readLines, hloop, htotal]
    simp

end Reader

end LineFile
