/-
# Model families and role labels

What `canonical_model_family` does to the role labels at the end of a value: it drops a label that
one separator joins to the rest, but one pass of trimming can bring another label to the end.

* `canonicalModelFamily_iff` : when the function is idempotent, and when it absorbs a label.
-/
import CogniOS.Independence

namespace Independence

/-! ## The parts of a value -/

/-- There is no separator in the text. -/
def Plain (l : List Char) : Prop := ∀ c ∈ l, isSeparator c = false

/-- A text from its parts, the last one last. -/
inductive Parts : List Char → Prop
  | plain {l : List Char} : Plain l → Parts l
  | snoc {l r : List Char} {c : Char} :
      Parts l → isSeparator c = true → Plain r → Parts (l ++ c :: r)

theorem Parts.snoc_char {l : List Char} (h : Parts l) (d : Char) : Parts (l ++ [d]) := by
  cases hd : isSeparator d with
  | true => exact .snoc h hd (by simp [Plain])
  | false =>
    cases h with
    | plain hplain =>
      refine .plain fun c hc => ?_
      rcases List.mem_append.mp hc with hc | hc
      · exact hplain c hc
      · rw [List.mem_singleton.mp hc]
        exact hd
    | snoc hl hc hr =>
      rw [List.append_assoc, List.cons_append]
      refine .snoc hl hc fun c hc => ?_
      rcases List.mem_append.mp hc with hc | hc
      · exact hr c hc
      · rw [List.mem_singleton.mp hc]
        exact hd

/-- Every text has parts. -/
theorem parts (l : List Char) : Parts l := by
  induction l using List.reverseRecOn with
  | nil => exact .plain (by simp [Plain])
  | append_singleton l d ih => exact ih.snoc_char d

/-- The last part of a text is determined. -/
theorem snoc_inj {l l' r r' : List Char} {c c' : Char} (hr : Plain r) (hr' : Plain r')
    (hc : isSeparator c = true) (hc' : isSeparator c' = true)
    (h : l ++ c :: r = l' ++ c' :: r') : l = l' ∧ c = c' ∧ r = r' := by
  have hkeep : ∀ {l r : List Char} {c : Char}, Plain r → isSeparator c = true →
      (l ++ c :: r).rtakeWhile (!isSeparator ·) = r := by
    intro l r c hr hc
    rw [List.rtakeWhile, List.reverse_append, List.reverse_cons, List.append_assoc,
      List.takeWhile_append_of_pos]
    · simp [hc]
    · intro d hd
      simp [hr d (List.mem_reverse.mp hd)]
  have hlast : r = r' := by
    rw [← hkeep hr hc, h, hkeep hr' hc']
  subst hlast
  have hsplit := List.append_inj' h rfl
  exact ⟨hsplit.1, (List.cons.inj hsplit.2).1, rfl⟩

theorem splitParts_plain {l : List Char} (h : Plain l) : splitParts l = [l] := by
  induction l with
  | nil => rfl
  | cons c cs ih =>
    rw [splitParts, h c List.mem_cons_self, ih fun d hd => h d (List.mem_cons_of_mem c hd)]
    rfl

theorem splitParts_ne_nil (l : List Char) : splitParts l ≠ [] := by
  cases l with
  | nil => simp [splitParts]
  | cons c cs =>
    rw [splitParts]
    split
    · simp
    · split <;> simp

theorem splitParts_snoc (l : List Char) {r : List Char} {c : Char} (hc : isSeparator c = true)
    (hr : Plain r) : splitParts (l ++ c :: r) = splitParts l ++ [[c], r] := by
  induction l with
  | nil =>
    show splitParts (c :: r) = _
    rw [show splitParts [] = [[]] from rfl, splitParts, if_pos hc, splitParts_plain hr]
    rfl
  | cons d l ih =>
    rw [List.cons_append, splitParts, splitParts, ih]
    split
    · rfl
    · cases hparts : splitParts l with
      | nil => exact absurd hparts (splitParts_ne_nil l)
      | cons part parts => rfl

theorem flatten_splitParts (l : List Char) : (splitParts l).flatten = l := by
  induction parts l with
  | plain h => rw [splitParts_plain h, List.flatten_singleton]
  | snoc _ hc hr ih =>
    rw [splitParts_snoc _ hc hr, List.flatten_append, ih]
    simp

/-! ## What is kept -/

/-- The text that the loop leaves. -/
def kept (l : List Char) : List Char := (dropRoles (splitParts l).reverse).reverse.flatten

/-- The text that the function returns. -/
def family (l : List Char) : List Char := (kept l).rdropWhile isSeparator

theorem plain_of_mem_roleSuffixes {r : List Char} (h : r ∈ roleSuffixes) : Plain r := by
  have hall : roleSuffixes.all (fun r => r.all fun c => !isSeparator c) = true := by decide
  intro c hc
  simpa using List.all_eq_true.mp (List.all_eq_true.mp hall r h) c hc

theorem ne_nil_of_mem_roleSuffixes {r : List Char} (h : r ∈ roleSuffixes) : r ≠ [] := by
  rintro rfl
  exact absurd h (by decide)

theorem kept_plain {l : List Char} (h : Plain l) : kept l = l := by
  rw [kept, splitParts_plain h]
  simp [dropRoles]

/-- A role label behind one separator is dropped. -/
theorem kept_role (l : List Char) {r : List Char} {c : Char} (hc : isSeparator c = true)
    (hr : r ∈ roleSuffixes) : kept (l ++ c :: r) = kept l := by
  rw [kept, kept, splitParts_snoc l hc (plain_of_mem_roleSuffixes hr), List.reverse_append]
  cases hparts : (splitParts l).reverse with
  | nil => exact absurd (List.reverse_eq_nil_iff.mp hparts) (splitParts_ne_nil l)
  | cons before parts =>
    show (dropRoles (r :: [c] :: before :: parts)).reverse.flatten = _
    rw [dropRoles, if_pos hr]

/-- Anything else ends the loop. -/
theorem kept_other (l : List Char) {r : List Char} {c : Char} (hc : isSeparator c = true)
    (hplain : Plain r) (hr : r ∉ roleSuffixes) : kept (l ++ c :: r) = l ++ c :: r := by
  rw [kept, splitParts_snoc l hc hplain, List.reverse_append]
  cases hparts : (splitParts l).reverse with
  | nil => exact absurd (List.reverse_eq_nil_iff.mp hparts) (splitParts_ne_nil l)
  | cons before parts =>
    show (dropRoles (r :: [c] :: before :: parts)).reverse.flatten = _
    rw [dropRoles, if_neg hr, ← hparts]
    simp [flatten_splitParts]

theorem kept_isPrefix_of (l : List Char) : kept l <+: l := by
  induction parts l with
  | plain h => rw [kept_plain h]
  | @snoc l r c _ hc hplain ih =>
    by_cases hr : r ∈ roleSuffixes
    · rw [kept_role l hc hr]
      exact ih.trans (List.prefix_append _ _)
    · rw [kept_other l hc hplain hr]

theorem family_isPrefix_of (l : List Char) : family l <+: l :=
  (List.rdropWhile_prefix _ _).trans (kept_isPrefix_of l)

theorem kept_ne_nil {d : Char} {cs : List Char} (hd : isSeparator d = false) :
    kept (d :: cs) ≠ [] := by
  generalize hl : d :: cs = l
  induction parts l generalizing cs with
  | plain h =>
    rw [kept_plain h, ← hl]
    exact List.cons_ne_nil _ _
  | @snoc l r c _ hc hplain ih =>
    by_cases hr : r ∈ roleSuffixes
    · rw [kept_role l hc hr]
      cases l with
      | nil =>
        obtain ⟨rfl, -⟩ := List.cons.inj hl
        rw [hc] at hd
        cases hd
      | cons e l =>
        obtain ⟨rfl, -⟩ := List.cons.inj hl
        exact ih rfl
    · rw [kept_other l hc hplain hr]
      simp

/-- A value does not start with a separator, so something is left of it. -/
theorem family_ne_nil {d : Char} {cs : List Char} (hd : isSeparator d = false) :
    family (d :: cs) ≠ [] := by
  intro hnil
  have hall := List.rdropWhile_eq_nil_iff.mp hnil
  obtain ⟨rest, hrest⟩ := kept_isPrefix_of (d :: cs)
  cases hkept : kept (d :: cs) with
  | nil => exact kept_ne_nil hd hkept
  | cons e es =>
    rw [hkept, List.cons_append] at hrest
    obtain ⟨rfl, -⟩ := List.cons.inj hrest
    rw [hkept] at hall
    rw [hall e List.mem_cons_self] at hd
    cases hd

theorem family_append_of_separators (l : List Char) {t : List Char}
    (ht : ∀ c ∈ t, isSeparator c = true) : (l ++ t).rdropWhile isSeparator =
      l.rdropWhile isSeparator := by
  induction t using List.reverseRecOn with
  | nil => rw [List.append_nil]
  | append_singleton t c ih =>
    rw [← List.append_assoc, List.rdropWhile_concat_pos _ _ _ (ht c (by simp))]
    exact ih fun d hd => ht d (List.mem_append_left _ hd)

/-- A text is what trimming leaves, and separators. -/
theorem exists_trailing (l : List Char) :
    ∃ t, (∀ c ∈ t, isSeparator c = true) ∧ l = l.rdropWhile isSeparator ++ t := by
  refine ⟨l.rtakeWhile isSeparator, fun c hc => List.mem_rtakeWhile_imp hc, ?_⟩
  rw [List.rdropWhile_append_rtakeWhile]

theorem rdropWhile_snoc_plain (l : List Char) {r : List Char} (c : Char) (hr : Plain r)
    (hne : r ≠ []) : (l ++ c :: r).rdropWhile isSeparator = l ++ c :: r := by
  rw [List.rdropWhile_eq_self_iff]
  intro hl
  rw [List.getLast_append_of_ne_nil _ (List.cons_ne_nil c r), List.getLast_cons hne,
    hr _ (List.getLast_mem hne)]
  exact Bool.false_ne_true

/-! ## Stranded labels -/

/-- The text ends with a separator and a role label. -/
def EndsInRole (l : List Char) : Prop :=
  ∃ (p r : List Char) (c : Char), isSeparator c = true ∧ r ∈ roleSuffixes ∧ l = p ++ c :: r

/-- A role label is stranded: separators follow it, and then only labels behind one separator
each. -/
inductive Stranded : List Char → Prop
  | trailing {l t : List Char} : EndsInRole l → t ≠ [] → (∀ c ∈ t, isSeparator c = true) →
      Stranded (l ++ t)
  | label {l r : List Char} {c : Char} : Stranded l → isSeparator c = true → r ∈ roleSuffixes →
      Stranded (l ++ c :: r)

theorem EndsInRole.last {l r : List Char} {c : Char} (hc : isSeparator c = true) (hr : Plain r)
    (h : EndsInRole (l ++ c :: r)) : r ∈ roleSuffixes := by
  obtain ⟨p, r', c', hc', hr', heq⟩ := h
  obtain ⟨-, -, rfl⟩ := snoc_inj hr (plain_of_mem_roleSuffixes hr') hc hc' heq
  exact hr'

theorem not_endsInRole_plain {l : List Char} (h : Plain l) : ¬ EndsInRole l := by
  rintro ⟨p, r, c, hc, -, rfl⟩
  rw [h c (by simp)] at hc
  cases hc

theorem Stranded.exists_separator {l : List Char} (h : Stranded l) :
    ∃ c ∈ l, isSeparator c = true := by
  cases h with
  | @trailing l t _ hne ht =>
    obtain ⟨c, t, rfl⟩ := List.exists_cons_of_ne_nil hne
    exact ⟨c, by simp, ht c List.mem_cons_self⟩
  | @label l r c _ hc _ => exact ⟨c, by simp, hc⟩

/-- The last part of a text with a stranded label is a label, or empty. -/
theorem Stranded.last {l r : List Char} {c : Char} (hc : isSeparator c = true) (hr : Plain r)
    (h : Stranded (l ++ c :: r)) : r = [] ∨ r ∈ roleSuffixes ∧ Stranded l := by
  generalize hl : l ++ c :: r = l' at h
  cases h with
  | @trailing k t _ hne ht =>
    left
    by_contra hr'
    have hlast : (l ++ c :: r).getLast? = some (r.getLast hr') := by
      rw [List.getLast?_append, List.getLast?_cons, List.getLast?_eq_getLast_of_ne_nil hr']
      rfl
    rw [hl, List.getLast?_append, List.getLast?_eq_getLast_of_ne_nil hne] at hlast
    have heq : t.getLast hne = r.getLast hr' := Option.some.inj hlast
    have hsep := ht _ (List.getLast_mem hne)
    rw [heq, hr _ (List.getLast_mem hr')] at hsep
    cases hsep
  | @label k r' c' hstranded hc' hr' =>
    obtain ⟨rfl, -, rfl⟩ := snoc_inj hr (plain_of_mem_roleSuffixes hr') hc hc' hl
    exact .inr ⟨hr', hstranded⟩

/-- A label that the function returns at the end was stranded. -/
theorem endsInRole_family_iff (l : List Char) : EndsInRole (family l) ↔ Stranded l := by
  induction parts l with
  | @plain l h =>
    refine iff_of_false ?_ ?_
    · refine not_endsInRole_plain fun c hc => h c ?_
      exact (family_isPrefix_of l).subset hc
    · intro hstranded
      obtain ⟨c, hc, hsep⟩ := hstranded.exists_separator
      rw [h c hc] at hsep
      cases hsep
  | @snoc l r c _ hc hplain ih =>
    by_cases hr : r ∈ roleSuffixes
    · rw [family, kept_role l hc hr, ← family, ih]
      constructor
      · exact fun h => .label h hc hr
      · intro h
        rcases h.last hc hplain with rfl | ⟨-, h⟩
        · exact absurd rfl (ne_nil_of_mem_roleSuffixes hr)
        · exact h
    rw [family, kept_other l hc hplain hr]
    by_cases hnil : r = []
    · -- The text ends with separators: what is before them is returned.
      subst hnil
      constructor
      · intro h
        obtain ⟨t, hseparators, ht⟩ := exists_trailing (l ++ [c])
        rw [ht]
        refine .trailing h ?_ hseparators
        rintro rfl
        rw [List.append_nil] at ht
        rw [← ht] at h
        exact hr (h.last hc hplain)
      · intro h
        generalize hl : l ++ [c] = l' at h ⊢
        cases h with
        | @trailing k t hrole _ ht =>
          rw [family_append_of_separators k ht]
          obtain ⟨p, r, c', hc', hr', rfl⟩ := hrole
          rw [rdropWhile_snoc_plain p c' (plain_of_mem_roleSuffixes hr')
            (ne_nil_of_mem_roleSuffixes hr')]
          exact ⟨p, r, c', hc', hr', rfl⟩
        | @label k r' c' _ hc' hr' =>
          obtain ⟨-, -, rfl⟩ := snoc_inj hplain (plain_of_mem_roleSuffixes hr') hc hc' hl
          exact absurd rfl (ne_nil_of_mem_roleSuffixes hr')
    · rw [rdropWhile_snoc_plain l c hplain hnil]
      refine iff_of_false (fun h => hr (h.last hc hplain)) fun h => ?_
      rcases h.last hc hplain with rfl | ⟨h, -⟩
      · exact hnil rfl
      · exact hr h

/-- A second pass changes a text that ends in a role label, and no other. -/
theorem family_family_iff (l : List Char) : family (family l) = family l ↔ ¬ Stranded l := by
  rw [← endsInRole_family_iff]
  generalize hm : family l = m
  have hself : m.rdropWhile isSeparator = m := by
    rw [← hm, family, List.rdropWhile_idempotent]
  constructor
  · rintro heq ⟨p, r, c, hc, hr, rfl⟩
    have hlength := (family_isPrefix_of p).length_le
    rw [family, kept_role p hc hr, ← family] at heq
    rw [heq, List.length_append, List.length_cons] at hlength
    omega
  · intro h
    rw [family]
    induction parts m with
    | plain hplain => rw [kept_plain hplain, hself]
    | @snoc l r c _ hc hplain _ =>
      rw [kept_other l hc hplain fun hr => h ⟨l, r, c, hc, hr, rfl⟩, hself]

/-- Trimming alone gives the family of a text that does not end in a role label. -/
theorem rdropWhile_eq_family_iff (l : List Char) :
    l.rdropWhile isSeparator = family l ↔ ¬ EndsInRole l := by
  induction parts l with
  | @plain l h =>
    rw [family, kept_plain h]
    exact iff_of_true rfl (not_endsInRole_plain h)
  | @snoc l r c _ hc hplain _ =>
    by_cases hr : r ∈ roleSuffixes
    · refine iff_of_false (fun heq => ?_) fun h => h ⟨l, r, c, hc, hr, rfl⟩
      have hlength := (family_isPrefix_of l).length_le
      rw [rdropWhile_snoc_plain l c hplain (ne_nil_of_mem_roleSuffixes hr), family,
        kept_role l hc hr, ← family] at heq
      rw [← heq, List.length_append, List.length_cons] at hlength
      omega
    · rw [family, kept_other l hc hplain hr]
      exact iff_of_true rfl fun h => hr (h.last hc hplain)

/-- A label behind separators is absorbed, if nothing follows it and it does not cover another
label. -/
theorem family_append_iff (l : List Char) {s r t : List Char} (hr : r ∈ roleSuffixes)
    (hne : s ≠ []) (hs : ∀ c ∈ s, isSeparator c = true) (ht : ∀ c ∈ t, isSeparator c = true) :
    family (l ++ s ++ r ++ t) = family l ↔ t = [] ∧ (s.length = 1 ∨ ¬ EndsInRole l) := by
  have hplain := plain_of_mem_roleSuffixes hr
  obtain ⟨s, c, rfl⟩ := (List.eq_nil_or_concat' s).resolve_left hne
  have hc : isSeparator c = true := hs c (by simp)
  have htext : l ++ (s ++ [c]) ++ r = (l ++ s) ++ c :: r := by simp
  have hseparators : ∀ d ∈ s, isSeparator d = true := fun d hd => hs d (List.mem_append_left _ hd)
  -- A text that ends with a separator is only trimmed.
  have htrim : ∀ (m : List Char) {t : List Char}, t ≠ [] → (∀ d ∈ t, isSeparator d = true) →
      family (m ++ t) = m.rdropWhile isSeparator := by
    intro m t hne ht
    rw [family, ← family_append_of_separators m ht]
    obtain ⟨t, d, rfl⟩ := (List.eq_nil_or_concat' t).resolve_left hne
    rw [← List.append_assoc, kept_other (m ++ t) (ht d (by simp)) (by simp [Plain]) (by decide)]
  rw [htext]
  by_cases hnil : t = []
  · subst hnil
    rw [List.append_nil, family, kept_role _ hc hr, ← family]
    by_cases hsingle : s = []
    · subst hsingle
      rw [List.append_nil]
      exact iff_of_true rfl ⟨rfl, .inl rfl⟩
    · have hlength : (s ++ [c]).length ≠ 1 := by
        have := List.length_pos_iff.mpr hsingle
        rw [List.length_append, List.length_singleton]
        omega
      rw [htrim l hsingle hseparators, rdropWhile_eq_family_iff]
      exact ⟨fun h => ⟨rfl, .inr h⟩, fun h => h.2.resolve_left hlength⟩
  · refine iff_of_false (fun heq => ?_) fun h => hnil h.1
    have hlength := (family_isPrefix_of l).length_le
    rw [htrim _ hnil ht, rdropWhile_snoc_plain _ c hplain (ne_nil_of_mem_roleSuffixes hr)] at heq
    rw [← heq] at hlength
    simp only [List.length_append, List.length_cons] at hlength
    omega

/-! ## The function on values -/

/-- The text that `canonical_model_family` works on. -/
def normalized (value : String) : List Char := (strip value).toList.map Char.toLower

/-- A valid identity value, with white space around it. -/
def IsValue (value : String) : Prop := isIdentityValue (strip value) = true

/-- A character that has another lower case is an ASCII letter. -/
theorem toLower_cases (c : Char) : c.toLower = c ∨ ∃ n < 128, c = Char.ofNat n := by
  by_cases h : c.toNat < 128
  · exact .inr ⟨c.toNat, h, (Char.ofNat_toNat c).symm⟩
  · refine .inl ?_
    rw [Char.toLower, dif_neg]
    rintro ⟨-, hle⟩
    have hle : c.toNat ≤ 'Z'.toNat := hle
    exact h (hle.trans_lt (by decide))

theorem isSeparator_toLower (c : Char) : isSeparator c.toLower = isSeparator c := by
  rcases toLower_cases c with h | ⟨n, hn, rfl⟩
  · rw [h]
  · revert n
    decide

theorem isAlnum_toLower (c : Char) : isAlnum c.toLower = isAlnum c := by
  rcases toLower_cases c with h | ⟨n, hn, rfl⟩
  · rw [h]
  · revert n
    decide

theorem toLower_toLower (c : Char) : c.toLower.toLower = c.toLower := by
  rcases toLower_cases c with h | ⟨n, hn, rfl⟩
  · rw [h, h]
  · revert n
    decide

/-- A value has a first character that is a letter or a digit, and no white space. -/
structure ValueText (l : List Char) : Prop where
  head : ∃ c cs, l = c :: cs ∧ isAlnum c = true
  all : ∀ c ∈ l, isAlnum c = true ∨ isSeparator c = true
  length : l.length ≤ 128

theorem isIdentityValue_iff (s : String) : isIdentityValue s = true ↔ ValueText s.toList := by
  unfold isIdentityValue
  cases hs : s.toList with
  | nil =>
    refine iff_of_false Bool.false_ne_true fun h => ?_
    obtain ⟨c, cs, hnil, -⟩ := h.head
    cases hnil
  | cons c cs =>
    simp only [Bool.and_eq_true, List.all_eq_true, Bool.or_eq_true, decide_eq_true_eq]
    constructor
    · rintro ⟨⟨hc, hcs⟩, hlength⟩
      exact ⟨⟨c, cs, rfl, hc⟩, List.forall_mem_cons.mpr ⟨.inl hc, hcs⟩, by
        rw [List.length_cons]; omega⟩
    · rintro ⟨⟨d, ds, heq, hd⟩, hall, hlength⟩
      obtain ⟨rfl, rfl⟩ := List.cons.inj heq
      rw [List.length_cons] at hlength
      exact ⟨⟨hd, fun e he => hall e (List.mem_cons_of_mem c he)⟩, by omega⟩

theorem isSpace_of_value {c : Char} (h : isAlnum c = true ∨ isSeparator c = true) :
    TextLines.isSpace c = false := by
  have hrange : 33 ≤ c.toNat ∧ c.toNat ≤ 122 := by
    rcases h with h | h
    · simp only [isAlnum, Bool.or_eq_true, Bool.and_eq_true, decide_eq_true_eq] at h
      have hbounds : ∀ a b : Char, a ≤ c → c ≤ b → a.toNat ≤ c.toNat ∧ c.toNat ≤ b.toNat :=
        fun _ _ ha hb => ⟨ha, hb⟩
      rcases h with (⟨ha, hb⟩ | ⟨ha, hb⟩) | ⟨ha, hb⟩
      · exact ⟨le_trans (by decide) (hbounds _ _ ha hb).1, (hbounds _ _ ha hb).2⟩
      · exact ⟨le_trans (by decide) (hbounds _ _ ha hb).1,
          (hbounds _ _ ha hb).2.trans (by decide)⟩
      · exact ⟨le_trans (by decide) (hbounds _ _ ha hb).1,
          (hbounds _ _ ha hb).2.trans (by decide)⟩
    · simp only [isSeparator, List.mem_cons, List.not_mem_nil, or_false, decide_eq_true_eq] at h
      rcases h with rfl | rfl | rfl | rfl | rfl <;> decide
  simp only [TextLines.isSpace, decide_eq_false_iff_not, List.mem_cons, List.not_mem_nil,
    or_false]
  omega

theorem toLower_of_isSeparator {c : Char} (h : isSeparator c = true) : c.toLower = c := by
  simp only [isSeparator, List.mem_cons, List.not_mem_nil, or_false, decide_eq_true_eq] at h
  rcases h with rfl | rfl | rfl | rfl | rfl <;> decide

theorem isSeparator_of_isAlnum {c : Char} (h : isAlnum c = true) : isSeparator c = false := by
  by_contra hc
  simp only [isSeparator, List.mem_cons, List.not_mem_nil, or_false, decide_eq_true_eq,
    Bool.not_eq_false] at hc
  rcases hc with rfl | rfl | rfl | rfl | rfl <;> exact absurd h (by decide)

theorem map_toLower_role {r : List Char} (h : r ∈ roleSuffixes) : r.map Char.toLower = r := by
  revert r
  decide

theorem map_toLower_separators {s : List Char} (h : ∀ c ∈ s, isSeparator c = true) :
    s.map Char.toLower = s := by
  rw [List.map_congr_left fun c hc => toLower_of_isSeparator (h c hc), List.map_id']

/-- The lower case of a value is a value. -/
theorem ValueText.lower {l : List Char} (h : ValueText l) : ValueText (l.map Char.toLower) := by
  obtain ⟨c, cs, rfl, hc⟩ := h.head
  refine ⟨⟨c.toLower, cs.map Char.toLower, rfl, ?_⟩, ?_, ?_⟩
  · rw [isAlnum_toLower]
    exact hc
  · intro d hd
    obtain ⟨e, he, rfl⟩ := List.mem_map.mp hd
    rw [isAlnum_toLower, isSeparator_toLower]
    exact h.all e he
  · rw [List.length_map]
    exact h.length

/-- A value is returned as its family. -/
theorem ValueText.family {l : List Char} (h : ValueText l) : ValueText (family l) := by
  obtain ⟨c, cs, rfl, hc⟩ := h.head
  have hprefixed := family_isPrefix_of (c :: cs)
  refine ⟨?_, fun d hd => h.all d (hprefixed.subset hd), hprefixed.length_le.trans h.length⟩
  obtain ⟨d, ds, hfamily⟩ :=
    List.exists_cons_of_ne_nil (@family_ne_nil c cs (isSeparator_of_isAlnum hc))
  rw [hfamily] at hprefixed ⊢
  obtain ⟨rest, hrest⟩ := hprefixed
  obtain ⟨rfl, -⟩ := List.cons.inj hrest
  exact ⟨d, ds, rfl, hc⟩

/-- A text without white space is not stripped. -/
theorem strip_eq_self {l : List Char} (h : ∀ c ∈ l, TextLines.isSpace c = false) :
    strip (String.ofList l) = String.ofList l := by
  rw [strip, String.toList_ofList]
  have hfirst : l.dropWhile TextLines.isSpace = l := by
    rw [List.dropWhile_eq_self_iff]
    intro hl
    rw [h _ (List.getElem_mem hl)]
    exact Bool.false_ne_true
  have hlast : l.rdropWhile TextLines.isSpace = l := by
    rw [List.rdropWhile_eq_self_iff]
    intro hl
    rw [h _ (List.getLast_mem hl)]
    exact Bool.false_ne_true
  rw [hfirst, hlast]

theorem IsValue.valueText {v : String} (h : IsValue v) : ValueText (strip v).toList :=
  (isIdentityValue_iff _).mp h

/-- What the function returns for a value. -/
theorem canonicalModelFamily_eq {v : String} (h : IsValue v) :
    canonicalModelFamily v = .ok (String.ofList (family (normalized v))) := by
  obtain ⟨c, cs, hlower, hc⟩ := h.valueText.lower.head
  have hne : family (normalized v) ≠ [] := by
    rw [normalized, hlower]
    exact family_ne_nil (isSeparator_of_isAlnum hc)
  have hchecked : validateIdentityValue v "model_family" = .ok (strip v) := by
    rw [validateIdentityValue, require, if_pos (show isIdentityValue (strip v) = true from h)]
    rfl
  rw [canonicalModelFamily, hchecked]
  show Except.ok (String.ofList (if family (normalized v) = [] then normalized v
    else family (normalized v))) = _
  rw [if_neg hne]

/-- The family is a value in lower case. -/
theorem family_isValue {v : String} (h : IsValue v) :
    IsValue (String.ofList (family (normalized v))) ∧
      normalized (String.ofList (family (normalized v))) = family (normalized v) := by
  have hvalue : ValueText (family (normalized v)) := h.valueText.lower.family
  have hstrip := strip_eq_self fun c hc => isSpace_of_value (hvalue.all c hc)
  refine ⟨?_, ?_⟩
  · rw [IsValue, hstrip, isIdentityValue_iff, String.toList_ofList]
    exact hvalue
  · rw [normalized, hstrip, String.toList_ofList]
    refine (List.map_congr_left fun c hc => ?_).trans (List.map_id' _)
    obtain ⟨d, -, rfl⟩ := List.mem_map.mp ((family_isPrefix_of _).subset hc)
    exact toLower_toLower d

/-- What follows a value is kept as it is. -/
theorem normalized_append {v : String} {u : List Char} (hv : IsValue v) (hne : u ≠ [])
    (hu : ∀ c ∈ u, isAlnum c = true ∨ isSeparator c = true)
    (h : IsValue (v ++ String.ofList u)) :
    normalized (v ++ String.ofList u) = normalized v ++ u.map Char.toLower := by
  set l := v.toList.dropWhile TextLines.isSpace with hl
  have hl_ne : l ≠ [] := by
    intro hnil
    obtain ⟨c, cs, hcons, -⟩ := hv.valueText.head
    rw [strip, ← hl, hnil] at hcons
    cases hcons
  have hstrip : (strip (v ++ String.ofList u)).toList = l ++ u := by
    rw [strip, String.toList_ofList, String.toList_append, String.toList_ofList,
      List.dropWhile_append, ← hl]
    simp only [List.isEmpty_iff, hl_ne, if_false]
    rw [List.rdropWhile_eq_self_iff]
    intro hlast
    rw [List.getLast_append_of_ne_nil _ hne, isSpace_of_value (hu _ (List.getLast_mem hne))]
    exact Bool.false_ne_true
  have hspace : ∀ c ∈ l, TextLines.isSpace c = false := by
    intro c hc
    refine isSpace_of_value (h.valueText.all c ?_)
    rw [hstrip]
    exact List.mem_append_left _ hc
  have hself : (strip v).toList = l := by
    rw [strip, String.toList_ofList, ← hl, List.rdropWhile_eq_self_iff]
    intro hlast
    rw [hspace _ (List.getLast_mem hlast)]
    exact Bool.false_ne_true
  rw [normalized, normalized, hstrip, hself, List.map_append]

theorem ok_bind {ε α β : Type} (a : α) (k : α → Except ε β) : (Except.ok a >>= k) = k a := rfl

/-- **When the function is idempotent, and when it absorbs a role label.** -/
theorem canonicalModelFamily_iff {v : String} (hv : IsValue v) :
    ((canonicalModelFamily v >>= canonicalModelFamily) = canonicalModelFamily v ↔
        ¬ Stranded (normalized v)) ∧
      ∀ s r t : List Char, r ∈ roleSuffixes → s ≠ [] → (∀ c ∈ s, isSeparator c = true) →
        (∀ c ∈ t, isSeparator c = true) → IsValue (v ++ String.ofList (s ++ r ++ t)) →
        (canonicalModelFamily (v ++ String.ofList (s ++ r ++ t)) = canonicalModelFamily v ↔
          t = [] ∧ (s.length = 1 ∨ ¬ EndsInRole (normalized v))) := by
  have hofList : ∀ l l' : List Char, (Except.ok (String.ofList l) : Except CogniError String) =
      .ok (String.ofList l') ↔ l = l' := by
    intro l l'
    rw [Except.ok.injEq, String.ofList_inj]
  constructor
  · obtain ⟨hvalue, hsame⟩ := family_isValue hv
    have hbind : (canonicalModelFamily v >>= canonicalModelFamily) =
        canonicalModelFamily (String.ofList (family (normalized v))) := by
      rw [canonicalModelFamily_eq hv, ok_bind]
    rw [hbind, canonicalModelFamily_eq hv, canonicalModelFamily_eq hvalue, hsame, hofList]
    exact family_family_iff (normalized v)
  · intro s r t hr hne hs ht hvalue
    have hu : ∀ c ∈ s ++ r ++ t, isAlnum c = true ∨ isSeparator c = true := by
      have hrole : roleSuffixes.all (fun r => r.all isAlnum) = true := by decide
      intro c hc
      rcases List.mem_append.mp hc with hc | hc
      · rcases List.mem_append.mp hc with hc | hc
        · exact .inr (hs c hc)
        · exact .inl (List.all_eq_true.mp (List.all_eq_true.mp hrole r hr) c hc)
      · exact .inr (ht c hc)
    have hu_ne : s ++ r ++ t ≠ [] := by simp [hne]
    rw [canonicalModelFamily_eq hv, canonicalModelFamily_eq hvalue,
      normalized_append hv hu_ne hu hvalue, hofList, List.map_append, List.map_append,
      map_toLower_separators hs, map_toLower_role hr, map_toLower_separators ht,
      ← List.append_assoc, ← List.append_assoc]
    exact family_append_iff (normalized v) hr hne hs ht

/-- A verifier of a known family. -/
theorem canonicalModelFamily_iff_antigravity :
    ((canonicalModelFamily "google-antigravity" >>= canonicalModelFamily) =
        canonicalModelFamily "google-antigravity" ↔
          ¬ Stranded (normalized "google-antigravity")) ∧
      (canonicalModelFamily ("google-antigravity" ++
          String.ofList ("-".toList ++ "verifier".toList ++ [])) =
        canonicalModelFamily "google-antigravity" ↔
          ([] : List Char) = [] ∧
            ("-".toList.length = 1 ∨ ¬ EndsInRole (normalized "google-antigravity"))) := by
  have hvalue : isIdentityValue (strip "google-antigravity") = true := by decide +kernel
  have hlabelled : isIdentityValue (strip ("google-antigravity" ++
      String.ofList ("-".toList ++ "verifier".toList ++ []))) = true := by decide +kernel
  exact ⟨(canonicalModelFamily_iff hvalue).1, (canonicalModelFamily_iff hvalue).2 "-".toList
    "verifier".toList [] (by decide) (by decide) (by simp [isSeparator]) (by simp) hlabelled⟩

/-- A separator behind a label strands it. -/
theorem not_canonicalModelFamily_trailing :
    IsValue "openai-codex-verifier-" ∧
      (canonicalModelFamily "openai-codex-verifier-" >>= canonicalModelFamily) ≠
        canonicalModelFamily "openai-codex-verifier-" ∧
      canonicalModelFamily "openai-codex-verifier-" ≠ canonicalModelFamily "openai-codex" := by
  refine ⟨by unfold IsValue; decide +kernel, by decide +kernel, by decide +kernel⟩

end Independence
