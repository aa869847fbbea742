/-
# Reading and comparing JSON values

Every document that `Json.loads` returns keeps its objects in key order, as the dictionaries of
this development do; the float literals of a document; and `==` of two documents.

* `wellFormed_loads` : the documents that are read are well-formed;
* `loads_encoding` : an encoding is read back from its bytes;
* `equals` is `==`, which compares numbers by value.
-/
import CogniOS.WrittenJson

namespace Json

/-! ## Objects in key order -/

theorem mem_setField {k : String} {v : Json} {fields : List (String × Json)} {p : String × Json}
    (hp : p ∈ setField k v fields) : p = (k, v) ∨ p ∈ fields := by
  induction fields with
  | nil => exact .inl (List.mem_singleton.mp hp)
  | cons q rest ih =>
    obtain ⟨l, w⟩ := q
    rw [setField] at hp
    split at hp
    · exact List.mem_cons.mp hp
    split at hp
    · rcases List.mem_cons.mp hp with rfl | hp
      · exact .inl rfl
      · exact .inr (List.mem_cons_of_mem _ hp)
    · rcases List.mem_cons.mp hp with rfl | hp
      · exact .inr List.mem_cons_self
      · rcases ih hp with rfl | hp
        · exact .inl rfl
        · exact .inr (List.mem_cons_of_mem _ hp)

/-- Setting a key keeps the order of the keys. -/
theorem keySorted_setField (k : String) (v : Json) {fields : List (String × Json)}
    (h : KeySorted fields) : KeySorted (setField k v fields) := by
  induction fields with
  | nil => exact List.pairwise_singleton _ _
  | cons p rest ih =>
    obtain ⟨l, w⟩ := p
    obtain ⟨hfirst, hrest⟩ := List.pairwise_cons.mp h
    rw [setField]
    split
    · rename_i hlt
      refine List.pairwise_cons.mpr ⟨?_, h⟩
      intro q hq
      rcases List.mem_cons.mp hq with rfl | hq
      · exact hlt
      · exact lt_trans hlt (hfirst q hq)
    split
    · rename_i heq
      subst heq
      exact List.pairwise_cons.mpr ⟨hfirst, hrest⟩
    · rename_i hnlt hne
      have hlt : l < k := lt_of_le_of_ne (not_lt.mp hnlt) (Ne.symm hne)
      refine List.pairwise_cons.mpr ⟨?_, ih hrest⟩
      intro q hq
      rcases mem_setField hq with rfl | hq
      · exact hlt
      · exact hfirst q hq

theorem mem_foldl_setField {pairs acc : List (String × Json)} {p : String × Json}
    (hp : p ∈ pairs.foldl (fun fields q => setField q.1 q.2 fields) acc) :
    p ∈ pairs ∨ p ∈ acc := by
  induction pairs generalizing acc with
  | nil => exact .inr hp
  | cons q rest ih =>
    rcases ih hp with hp | hp
    · exact .inl (List.mem_cons_of_mem _ hp)
    · rcases mem_setField hp with rfl | hp
      · exact .inl List.mem_cons_self
      · exact .inr hp

theorem keySorted_foldl_setField (pairs : List (String × Json)) {acc : List (String × Json)}
    (h : KeySorted acc) :
    KeySorted (pairs.foldl (fun fields q => setField q.1 q.2 fields) acc) := by
  induction pairs generalizing acc with
  | nil => exact h
  | cons q rest ih => exact ih (keySorted_setField q.1 q.2 h)

theorem mem_ofPairs {pairs : List (String × Json)} {p : String × Json} (hp : p ∈ ofPairs pairs) :
    p ∈ pairs := (mem_foldl_setField hp).resolve_right List.not_mem_nil

theorem keySorted_ofPairs (pairs : List (String × Json)) : KeySorted (ofPairs pairs) :=
  keySorted_foldl_setField pairs .nil

/-- A hook whose fields are pairs of the object, in key order. -/
def SortsPairs (hook : PairsHook) : Prop :=
  ∀ pairs fields, hook pairs = some fields → KeySorted fields ∧ fields ⊆ pairs

theorem sortsPairs_lastWins : SortsPairs lastWins := by
  intro pairs fields h
  obtain rfl := Option.some.inj h
  exact ⟨keySorted_ofPairs pairs, fun p hp => mem_ofPairs hp⟩

theorem sortsPairs_uniqueKeys : SortsPairs uniqueKeys := by
  intro pairs fields h
  unfold uniqueKeys at h
  split at h
  · obtain rfl := Option.some.inj h
    exact ⟨keySorted_ofPairs pairs, fun p hp => mem_ofPairs hp⟩
  · cases h

/-! ## Documents that are read -/

theorem wellFormed_ofNumber {a b : List Char} {v : Json} (h : ofNumber a b = some v) :
    v.WellFormed := by
  unfold ofNumber at h
  split at h
  · obtain rfl := Option.some.inj h
    trivial
  split at h
  · obtain rfl := Option.some.inj h
    trivial
  · cases h

theorem wellFormed_scanNumber {cs rest : List Char} {v : Json}
    (h : scanNumber cs = some (v, rest)) : v.WellFormed := by
  unfold scanNumber at h
  split at h
  · obtain ⟨w, hw, heq⟩ := Option.map_eq_some_iff.mp h
    obtain rfl := congrArg Prod.fst heq
    exact wellFormed_ofNumber hw
  · cases h

theorem wellFormed_hook {hook : PairsHook} (hh : SortsPairs hook) {pairs fields : List (String × Json)}
    (hpairs : WellFormedFields pairs) (h : hook pairs = some fields) :
    (Json.obj fields).WellFormed := by
  obtain ⟨hsorted, hsub⟩ := hh pairs fields h
  refine ⟨hsorted, (wellFormedFields_iff fields).mpr fun p hp => ?_⟩
  exact (wellFormedFields_iff pairs).mp hpairs p (hsub hp)

mutual
theorem wellFormed_scanValue {hook : PairsHook} (hh : SortsPairs hook) :
    ∀ (n : ℕ) (cs : List Char) (v : Json) (rest : List Char),
      scanValue hook n cs = some (v, rest) → v.WellFormed
  | 0, _, _, _, h => by cases h
  | _ + 1, [], _, _, h => by cases h
  | n + 1, c :: cs, v, rest, h => by
    rw [scanValue] at h
    split at h
    · obtain ⟨p, -, heq⟩ := Option.map_eq_some_iff.mp h
      obtain rfl := congrArg Prod.fst heq
      trivial
    split at h
    · split at h
      · obtain ⟨fields, hfields, heq⟩ := Option.map_eq_some_iff.mp h
        obtain rfl := congrArg Prod.fst heq
        exact wellFormed_hook hh ((wellFormedFields_iff []).mpr (by simp)) hfields
      · split at h
        · rename_i pairs tail hpairs
          obtain ⟨fields, hfields, heq⟩ := Option.map_eq_some_iff.mp h
          obtain rfl := congrArg Prod.fst heq
          exact wellFormed_hook hh (wellFormed_scanMembers hh n _ _ _ hpairs) hfields
        · cases h
    split at h
    · split at h
      · cases h
        trivial
      · obtain ⟨p, hp, heq⟩ := Option.map_eq_some_iff.mp h
        obtain rfl := congrArg Prod.fst heq
        exact wellFormed_scanElems hh n _ p.1 p.2 hp
    split at h
    · obtain ⟨tail, -, heq⟩ := Option.map_eq_some_iff.mp h
      obtain rfl := congrArg Prod.fst heq
      trivial
    split at h
    · obtain ⟨tail, -, heq⟩ := Option.map_eq_some_iff.mp h
      obtain rfl := congrArg Prod.fst heq
      trivial
    split at h
    · obtain ⟨tail, -, heq⟩ := Option.map_eq_some_iff.mp h
      obtain rfl := congrArg Prod.fst heq
      trivial
    · exact wellFormed_scanNumber h
theorem wellFormed_scanElems {hook : PairsHook} (hh : SortsPairs hook) :
    ∀ (n : ℕ) (cs : List Char) (elems : List Json) (rest : List Char),
      scanElems hook n cs = some (elems, rest) → WellFormedElems elems
  | 0, _, _, _, h => by cases h
  | n + 1, cs, elems, rest, h => by
    rw [scanElems] at h
    split at h
    · cases h
    · rename_i v tail hv
      have hwell := wellFormed_scanValue hh n _ _ _ hv
      split at h
      · obtain ⟨p, hp, heq⟩ := Option.map_eq_some_iff.mp h
        obtain rfl := congrArg Prod.fst heq
        exact ⟨hwell, wellFormed_scanElems hh n _ p.1 p.2 hp⟩
      · cases h
        exact ⟨hwell, trivial⟩
      · cases h
theorem wellFormed_scanMembers {hook : PairsHook} (hh : SortsPairs hook) :
    ∀ (n : ℕ) (cs : List Char) (pairs : List (String × Json)) (rest : List Char),
      scanMembers hook n cs = some (pairs, rest) → WellFormedFields pairs
  | 0, _, _, _, h => by cases h
  | n + 1, cs, pairs, rest, h => by
    unfold scanMembers at h
    split at h
    · split at h
      · cases h
      · split at h
        · split at h
          · cases h
          · rename_i v tail hv
            have hwell := wellFormed_scanValue hh n _ _ _ hv
            split at h
            · obtain ⟨p, hp, heq⟩ := Option.map_eq_some_iff.mp h
              obtain rfl := congrArg Prod.fst heq
              exact ⟨hwell, wellFormed_scanMembers hh n _ p.1 p.2 hp⟩
            · cases h
              exact ⟨hwell, trivial⟩
            · cases h
        · cases h
    · cases h
end

/-- **What is read is well-formed**: each of its objects is in key order. -/
theorem wellFormed_loads {hook : PairsHook} (hh : SortsPairs hook) {text : List Char} {v : Json}
    (h : loads hook text = some v) : v.WellFormed := by
  unfold loads at h
  split at h
  · rename_i w rest hw
    split at h
    · obtain rfl := Option.some.inj h
      exact wellFormed_scanValue hh _ _ _ _ hw
    · cases h
  · cases h

/-- An encoding is read back. -/
theorem loads_encoding {hook : PairsHook} (hh : KeepsSorted hook) {v : Json} (hv : v.WellFormed) :
    (Utf8.decode v.encoding).bind (loads hook) = some v := by
  rw [encoding, Utf8.decode_encode]
  exact loads_dumps hh 0 v hv

theorem wellFormed_get {v : Json} (hv : v.WellFormed) (key : String) :
    (v.get key).WellFormed := by
  unfold get
  cases v with
  | obj fields =>
    rw [get?_obj]
    cases hlookup : fields.lookup key with
    | none => trivial
    | some w => exact WellFormed.of_lookup hv.2 hlookup
  | _ => trivial

/-- The encoding of a document has no newline. -/
theorem lf_notMem_encoding (v : Json) : Utf8.lf ∉ v.encoding := by
  intro hmem
  have hline := toNat_of_mem_dumps (Utf8.lf_mem_encode hmem)
  exact absurd hline (by decide)

/-! ## Float literals -/

mutual
/-- Every float literal of the document has the property. -/
def floatsAll (p : FloatLit → Bool) : Json → Bool
  | .float x => p x
  | .arr elems => floatsAllElems p elems
  | .obj fields => floatsAllFields p fields
  | _ => true
def floatsAllElems (p : FloatLit → Bool) : List Json → Bool
  | [] => true
  | x :: xs => floatsAll p x && floatsAllElems p xs
def floatsAllFields (p : FloatLit → Bool) : List (String × Json) → Bool
  | [] => true
  | (_, v) :: rest => floatsAll p v && floatsAllFields p rest
end

theorem floatsAll_of_lookup {p : FloatLit → Bool} {fields : List (String × Json)} {key : String}
    {v : Json} (h : floatsAllFields p fields = true) (hv : fields.lookup key = some v) :
    v.floatsAll p = true := by
  induction fields with
  | nil => cases hv
  | cons q rest ih =>
    obtain ⟨k, w⟩ := q
    rw [floatsAllFields, Bool.and_eq_true] at h
    rw [List.lookup_cons] at hv
    split at hv
    · obtain rfl := Option.some.inj hv
      exact h.1
    · exact ih h.2 hv

theorem floatsAll_get {p : FloatLit → Bool} {v : Json} (h : v.floatsAll p = true)
    (key : String) : (v.get key).floatsAll p = true := by
  unfold get
  cases v with
  | obj fields =>
    rw [get?_obj]
    cases hlookup : fields.lookup key with
    | none => rfl
    | some w => exact floatsAll_of_lookup h hlookup
  | _ => rfl

/-! ## Equality -/

def isZero (x : FloatLit) : Bool := x.text = "0.0" || x.text = "-0.0"

mutual
/-- `==` of two documents: numbers and booleans are compared by value. -/
def equals : Json → Json → Bool
  | v, .int n => equalsInt n v
  | v, .bool b => equalsInt (if b then 1 else 0) v
  | .int n, v => equalsInt n v
  | .bool b, v => equalsInt (if b then 1 else 0) v
  | .float x, .float y => x.text = y.text || (isZero x && isZero y)
  | .null, .null => true
  | .str s, .str t => s = t
  | .arr xs, .arr ys => equalsElems xs ys
  | .obj fs, .obj gs => equalsFields fs gs
  | _, _ => false
def equalsElems : List Json → List Json → Bool
  | [], [] => true
  | x :: xs, y :: ys => equals x y && equalsElems xs ys
  | _, _ => false
def equalsFields : List (String × Json) → List (String × Json) → Bool
  | [], [] => true
  | (k, x) :: fs, (l, y) :: gs => k = l && equals x y && equalsFields fs gs
  | _, _ => false
end

mutual
theorem equals_refl : ∀ v : Json, equals v v = true
  | .null => rfl
  | .bool b => by cases b <;> simp [equals, equalsInt]
  | .int n => by simp [equals, equalsInt]
  | .float x => by simp [equals]
  | .str s => by simp [equals]
  | .arr xs => by rw [equals]; exact equalsElems_refl xs
  | .obj fs => by rw [equals]; exact equalsFields_refl fs
theorem equalsElems_refl : ∀ xs : List Json, equalsElems xs xs = true
  | [] => rfl
  | x :: xs => by rw [equalsElems, equals_refl x, equalsElems_refl xs]; rfl
theorem equalsFields_refl : ∀ fs : List (String × Json), equalsFields fs fs = true
  | [] => rfl
  | (k, x) :: fs => by
    rw [equalsFields, equals_refl x, equalsFields_refl fs]
    simp
end

def asArr? : Json → Option (List Json)
  | .arr elems => some elems
  | _ => none

def isBool : Json → Bool
  | .bool _ => true
  | _ => false

/-! ## Setting fields -/

theorem lookup_cons_ite (key k : String) (v : Json) (rest : List (String × Json)) :
    ((k, v) :: rest).lookup key = if key = k then some v else rest.lookup key := by
  rw [List.lookup_cons]
  by_cases hkey : key = k
  · rw [if_pos hkey, beq_iff_eq.mpr hkey]
  · rw [if_neg hkey, beq_eq_false_iff_ne.mpr hkey]

/-- A field that was set, and the others. -/
theorem lookup_setField (k : String) (v : Json) (fields : List (String × Json)) (key : String) :
    (setField k v fields).lookup key = if key = k then some v else fields.lookup key := by
  induction fields with
  | nil => rw [setField, lookup_cons_ite]
  | cons p rest ih =>
    obtain ⟨l, w⟩ := p
    rw [setField]
    split
    · rw [lookup_cons_ite]
    · split
      · rename_i hkl
        rw [lookup_cons_ite, lookup_cons_ite, ← hkl]
        split
        · rfl
        · rfl
      · rename_i hkl
        rw [lookup_cons_ite, lookup_cons_ite, ih]
        by_cases hkey : key = l
        · rw [if_pos hkey, if_pos hkey, if_neg fun h => hkl (h.symm.trans hkey)]
        · rw [if_neg hkey, if_neg hkey]

theorem get_setField (k : String) (v : Json) (fields : List (String × Json)) (key : String) :
    (Json.obj (setField k v fields)).get key = if key = k then v else (Json.obj fields).get key := by
  unfold get
  rw [get?_obj, lookup_setField]
  split
  · rfl
  · rfl

/-- Only the last value of a field counts. -/
theorem setField_setField (k : String) (v v' : Json) (fields : List (String × Json)) :
    setField k v (setField k v' fields) = setField k v fields := by
  induction fields with
  | nil =>
    show setField k v [(k, v')] = [(k, v)]
    rw [setField, if_neg (lt_irrefl k), if_pos rfl]
  | cons p rest ih =>
    obtain ⟨l, w⟩ := p
    rw [setField, setField]
    split
    · rw [setField, if_neg (lt_irrefl k), if_pos rfl]
    · rename_i hlt
      split
      · rw [setField, if_neg (lt_irrefl k), if_pos rfl]
      · rename_i hne
        rw [setField, if_neg hlt, if_neg hne, ih]

/-- A field that a filter drops does not matter. -/
theorem filter_setField {q : String × Json → Bool} {k : String} (hq : ∀ v, q (k, v) = false)
    (v : Json) (fields : List (String × Json)) :
    (setField k v fields).filter q = fields.filter q := by
  have hdrop : ∀ v rest, ((k, v) :: rest).filter q = rest.filter q := fun v rest =>
    List.filter_cons_of_neg (by rw [hq]; decide)
  induction fields with
  | nil => rw [setField, hdrop]
  | cons p rest ih =>
    obtain ⟨l, w⟩ := p
    rw [setField]
    split
    · rw [hdrop]
    · split
      · rename_i hkl
        rw [← hkl, hdrop, hdrop]
      · rw [List.filter_cons, List.filter_cons, ih]

/-- A field that is there is replaced by one that looks the same. -/
theorem map_filter_setField {α : Type} {f : String × Json → α} {q : String × Json → Bool}
    {fields : List (String × Json)} (hsorted : KeySorted fields) {k : String} {v w : Json}
    (hmem : (k, w) ∈ fields) (hq : q (k, v) = q (k, w)) (hf : f (k, v) = f (k, w)) :
    ((setField k v fields).filter q).map f = (fields.filter q).map f := by
  induction fields with
  | nil => cases hmem
  | cons p rest ih =>
    obtain ⟨l, u⟩ := p
    obtain ⟨hhead, hrest⟩ := List.pairwise_cons.mp hsorted
    rw [setField]
    rcases List.mem_cons.mp hmem with heq | hin
    · obtain ⟨rfl, rfl⟩ := Prod.mk.inj heq
      rw [if_neg (lt_irrefl k), if_pos rfl, List.filter_cons, List.filter_cons, hq]
      split
      · rw [List.map_cons, List.map_cons, hf]
      · rfl
    · have hlt : l < k := hhead _ hin
      rw [if_neg (not_lt_of_gt hlt), if_neg (ne_of_gt hlt), List.filter_cons, List.filter_cons]
      split
      · rw [List.map_cons, List.map_cons, ih hrest hin]
      · exact ih hrest hin

end Json
