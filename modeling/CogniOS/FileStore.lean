/-
# Programs over a directory

Programs that read and write the files of one directory and may fail.  A file is written
whole: created exclusively, or written under a temporary name and renamed over the old file.
The program says which writes it makes, so a crash is a point in the list of its writes.

* `Action` is the monad of such programs;
* `Triple` bounds every write of a program and says what holds when it returns;
* `crash` is the directory that a crash at a point leaves.
-/
import Mathlib

namespace FileStore

/-! ## Directories and writes -/

/-- The files of a directory by name. -/
abbrev Directory := AList fun _ : String => List UInt8

/-- A write of a whole file. -/
inductive Write
  /-- The file is created exclusively and written in place. -/
  | create (name : String) (content : List UInt8)
  /-- A temporary file is written and renamed. -/
  | replace (temporary name : String) (content : List UInt8)
  deriving DecidableEq

namespace Write

/-- The name of the written file. -/
def name : Write → String
  | create name _ => name
  | replace _ name _ => name

/-- The written content. -/
def content : Write → List UInt8
  | create _ content => content
  | replace _ _ content => content

/-- The completed write. -/
def apply (w : Write) (d : Directory) : Directory := d.insert w.name w.content

theorem lookup_apply (w : Write) (d : Directory) (name : String) :
    (w.apply d).lookup name = if name = w.name then some w.content else d.lookup name := by
  unfold apply
  by_cases hname : name = w.name
  · rw [if_pos hname, hname, AList.lookup_insert]
  · rw [if_neg hname, AList.lookup_insert_ne hname]

end Write

/-- The writes one after the other. -/
def applyAll (ws : List Write) (d : Directory) : Directory := ws.foldl (fun d w => w.apply d) d

@[simp] theorem applyAll_nil (d : Directory) : applyAll [] d = d := rfl

@[simp] theorem applyAll_cons (w : Write) (ws : List Write) (d : Directory) :
    applyAll (w :: ws) d = applyAll ws (w.apply d) := rfl

theorem applyAll_append (ws ws' : List Write) (d : Directory) :
    applyAll (ws ++ ws') d = applyAll ws' (applyAll ws d) :=
  List.foldl_append

/-- A file that is not written stays. -/
theorem lookup_applyAll_of_ne {name : String} (ws : List Write) (d : Directory)
    (hne : ∀ w ∈ ws, name ≠ w.name) : (applyAll ws d).lookup name = d.lookup name := by
  induction ws generalizing d with
  | nil => rfl
  | cons w ws ih =>
    rw [applyAll_cons, ih (w.apply d) fun w' hw' => hne w' (List.mem_cons_of_mem _ hw'),
      Write.lookup_apply, if_neg (hne w List.mem_cons_self)]

/-! ## Programs -/

variable {ε α β : Type}

/-- A program: the writes that it makes, and what it returns or raises. -/
def Action (ε α : Type) : Type := Directory → List Write × Except ε α

namespace Action

/-- Run one program and then, where it returns, the next one on the directory that it leaves. -/
def bind (x : Action ε α) (k : α → Action ε β) : Action ε β := fun d =>
  match x d with
  | (ws, .error e) => (ws, .error e)
  | (ws, .ok a) => (ws ++ (k a (applyAll ws d)).1, (k a (applyAll ws d)).2)

instance : Monad (Action ε) where
  pure a := fun _ => ([], .ok a)
  bind := bind

/-- The directory as it is now. -/
def directory : Action ε Directory := fun d => ([], .ok d)

/-- Make a write. -/
def write (w : Write) : Action ε Unit := fun _ => ([w], .ok ())

instance : MonadLift (Except ε) (Action ε) where
  monadLift x := fun _ => ([], x)

theorem pure_apply (a : α) (d : Directory) : (pure a : Action ε α) d = ([], .ok a) := rfl

theorem bind_apply (x : Action ε α) (k : α → Action ε β) (d : Directory) :
    (x >>= k) d =
      match x d with
      | (ws, .error e) => (ws, .error e)
      | (ws, .ok a) => (ws ++ (k a (applyAll ws d)).1, (k a (applyAll ws d)).2) := rfl

/-- A program that returns goes on with the next one. -/
theorem bind_of_ok {x : Action ε α} {k : α → Action ε β} {d : Directory} {ws : List Write} {a : α}
    (h : x d = (ws, .ok a)) :
    (x >>= k) d = (ws ++ (k a (applyAll ws d)).1, (k a (applyAll ws d)).2) := by
  rw [bind_apply, h]

theorem bind_of_error {x : Action ε α} {k : α → Action ε β} {d : Directory} {ws : List Write}
    {e : ε} (h : x d = (ws, .error e)) : (x >>= k) d = (ws, .error e) := by
  rw [bind_apply, h]

/-- A program that has returned returned from its parts, and made their writes. -/
theorem bind_eq_ok {x : Action ε α} {k : α → Action ε β} {d : Directory} {b : β}
    (h : ((x >>= k) d).2 = .ok b) :
    ∃ a, (x d).2 = .ok a ∧ (k a (applyAll (x d).1 d)).2 = .ok b ∧
      ((x >>= k) d).1 = (x d).1 ++ (k a (applyAll (x d).1 d)).1 := by
  rcases hrun : x d with ⟨ws, e | a⟩
  · rw [bind_of_error hrun] at h
    cases h
  · rw [bind_of_ok hrun] at h ⊢
    exact ⟨a, rfl, h, rfl⟩

/-- A part that returns and makes no writes. -/
theorem lift_bind_of_ok {x : Except ε α} {k : α → Action ε β} {a : α} (h : x = .ok a)
    (d : Directory) : ((MonadLift.monadLift x : Action ε α) >>= k) d = k a d := by
  subst h
  rfl

/-- What is done with the result makes no writes. -/
theorem fst_bind_pure (x : Action ε α) (f : α → β) (d : Directory) :
    ((x >>= fun a => Pure.pure (f a) : Action ε β) d).1 = (x d).1 := by
  rcases hrun : x d with ⟨ws, e | a⟩
  · rw [bind_of_error hrun]
  · rw [bind_of_ok hrun]
    exact List.append_nil ws

/-- The same for a part that makes no writes. -/
theorem lift_bind_eq_ok {x : Except ε α} {k : α → Action ε β} {d : Directory} {b : β}
    (h : (((MonadLift.monadLift x : Action ε α) >>= k) d).2 = .ok b) :
    ∃ a, x = .ok a ∧ (k a d).2 = .ok b ∧
      ((MonadLift.monadLift x : Action ε α) >>= k) d = k a d := by
  cases x with
  | error e => cases h
  | ok a => exact ⟨a, rfl, h, rfl⟩

end Action

/-! ## Triples -/

/-- Every write of the list meets the condition on the directory that it finds. -/
def Steps (G : Directory → Write → Prop) : Directory → List Write → Prop
  | _, [] => True
  | d, w :: ws => G d w ∧ Steps G (w.apply d) ws

variable {G : Directory → Write → Prop} {P : Directory → Prop}

theorem steps_append {d : Directory} {ws ws' : List Write} :
    Steps G d (ws ++ ws') ↔ Steps G d ws ∧ Steps G (applyAll ws d) ws' := by
  induction ws generalizing d with
  | nil => simp [Steps]
  | cons w ws ih => rw [List.cons_append, Steps, Steps, applyAll_cons, ih, and_assoc]

/-- A weaker condition on the writes. -/
theorem Steps.mono {G' : Directory → Write → Prop} (hG : ∀ d w, G d w → G' d w) {d : Directory}
    {ws : List Write} (h : Steps G d ws) : Steps G' d ws := by
  induction ws generalizing d with
  | nil => trivial
  | cons w ws ih => exact ⟨hG d w h.1, ih h.2⟩

/-- Two conditions on the same writes. -/
theorem Steps.and {G' : Directory → Write → Prop} {d : Directory} {ws : List Write}
    (h : Steps G d ws) (h' : Steps G' d ws) : Steps (fun d w => G d w ∧ G' d w) d ws := by
  induction ws generalizing d with
  | nil => trivial
  | cons w ws ih => exact ⟨⟨h.1, h'.1⟩, ih h.2 h'.2⟩

/-- A crash between two writes is a prefix of them. -/
theorem Steps.take {d : Directory} {ws : List Write} (h : Steps G d ws) (k : ℕ) :
    Steps G d (ws.take k) := by
  rw [← List.take_append_drop k ws] at h
  exact (steps_append.mp h).1

/-- A write of the list meets the condition where it is made. -/
theorem Steps.get {d : Directory} {ws : List Write} (h : Steps G d ws) {k : ℕ} {w : Write}
    (hw : ws[k]? = some w) : G (applyAll (ws.take k) d) w := by
  induction ws generalizing d k with
  | nil => cases hw
  | cons w' ws ih =>
    cases k with
    | zero =>
      obtain rfl : w' = w := Option.some.inj hw
      exact h.1
    | succ k => exact ih h.2 hw

/-- What every write keeps is kept by all of them. -/
theorem Steps.invariant {I : Directory → Prop} (hstep : ∀ d w, I d → G d w → I (w.apply d))
    {d : Directory} {ws : List Write} (h : Steps G d ws) (hd : I d) : I (applyAll ws d) := by
  induction ws generalizing d with
  | nil => exact hd
  | cons w ws ih => exact ih h.2 (hstep d w hd h.1)

/-- Started where `P` holds, the program makes only writes that meet `G`, and `Q` holds of what
it returns and of the directory that it leaves. -/
def Triple (G : Directory → Write → Prop) (P : Directory → Prop) (x : Action ε α)
    (Q : α → Directory → Prop) : Prop :=
  ∀ d, P d → Steps G d (x d).1 ∧ ∀ a, (x d).2 = .ok a → Q a (applyAll (x d).1 d)

namespace Triple

theorem pure {Q : α → Directory → Prop} {a : α} (h : ∀ d, P d → Q a d) :
    Triple G P (Pure.pure a : Action ε α) Q := by
  intro d hd
  refine ⟨trivial, fun b hb => ?_⟩
  cases hb
  exact h d hd

theorem bind {x : Action ε α} {k : α → Action ε β} {Q : α → Directory → Prop}
    {R : β → Directory → Prop} (hx : Triple G P x Q) (hk : ∀ a, Triple G (Q a) (k a) R) :
    Triple G P (x >>= k) R := by
  intro d hd
  obtain ⟨hsteps, hpost⟩ := hx d hd
  rcases hrun : x d with ⟨ws, e | a⟩
  · rw [hrun] at hsteps
    rw [Action.bind_of_error hrun]
    exact ⟨hsteps, fun b hb => by cases hb⟩
  · rw [hrun] at hsteps hpost
    obtain ⟨hsteps', hpost'⟩ := hk a _ (hpost a rfl)
    rw [Action.bind_of_ok hrun]
    refine ⟨steps_append.mpr ⟨hsteps, hsteps'⟩, fun b hb => ?_⟩
    rw [applyAll_append]
    exact hpost' b hb

theorem directory {Q : Directory → Directory → Prop} (h : ∀ d, P d → Q d d) :
    Triple G P (Action.directory : Action ε Directory) Q := by
  intro d hd
  refine ⟨trivial, fun b hb => ?_⟩
  cases hb
  exact h d hd

theorem write {w : Write} {Q : Unit → Directory → Prop}
    (h : ∀ d, P d → G d w ∧ Q () (w.apply d)) :
    Triple G P (Action.write w : Action ε Unit) Q := by
  intro d hd
  obtain ⟨hstep, hpost⟩ := h d hd
  exact ⟨⟨hstep, trivial⟩, fun _ _ => hpost⟩

theorem lift {x : Except ε α} {Q : α → Directory → Prop} (h : ∀ d a, P d → x = .ok a → Q a d) :
    Triple G P (MonadLift.monadLift x : Action ε α) Q := by
  intro d hd
  exact ⟨trivial, fun a ha => h d a hd ha⟩

theorem weaken {x : Action ε α} {P' : Directory → Prop} {Q Q' : α → Directory → Prop}
    (hx : Triple G P x Q) (hpre : ∀ d, P' d → P d) (hpost : ∀ a d, Q a d → Q' a d) :
    Triple G P' x Q' := by
  intro d hd
  obtain ⟨hsteps, hQ⟩ := hx d (hpre d hd)
  exact ⟨hsteps, fun a ha => hpost a _ (hQ a ha)⟩

/-- A weaker condition on the writes. -/
theorem mono {G' : Directory → Write → Prop} (hG : ∀ d w, G d w → G' d w) {x : Action ε α}
    {Q : α → Directory → Prop} (hx : Triple G P x Q) : Triple G' P x Q :=
  fun d hd => ⟨(hx d hd).1.mono hG, (hx d hd).2⟩

/-- A fact that does not depend on the directory is assumed. -/
theorem assume {p : Prop} {x : Action ε α} {Q : α → Directory → Prop}
    (hx : p → Triple G P x Q) : Triple G (fun d => P d ∧ p) x Q :=
  fun d hd => hx hd.2 d hd.1

/-- What the writes of a program keep is kept by it. -/
theorem frame {I : Directory → Prop} (hI : ∀ d w, I d → G d w → I (w.apply d)) {x : Action ε α}
    {Q : α → Directory → Prop} (hx : Triple G P x Q) :
    Triple G (fun d => P d ∧ I d) x fun a d => Q a d ∧ I d := by
  intro d hd
  obtain ⟨hsteps, hQ⟩ := hx d hd.1
  exact ⟨hsteps, fun a ha => ⟨hQ a ha, hsteps.invariant hI hd.2⟩⟩

/-- What every write keeps is kept by a program. -/
theorem keep {I : Directory → Prop} (hI : ∀ d (w : Write), I d → I (w.apply d)) {x : Action ε α}
    {Q : α → Directory → Prop} (hx : Triple G P x Q) :
    Triple G (fun d => P d ∧ I d) x fun a d => Q a d ∧ I d :=
  hx.frame fun d w hd _ => hI d w hd

end Triple

/-! ## Programs that return -/

/-- Started where `P` holds, the program returns, and `Q` holds of what it returns and of the
directory that it leaves. -/
def Returns (P : Directory → Prop) (x : Action ε α) (Q : α → Directory → Prop) : Prop :=
  ∀ d, P d → ∃ a, (x d).2 = .ok a ∧ Q a (applyAll (x d).1 d)

namespace Returns

theorem pure {Q : α → Directory → Prop} {a : α} (h : ∀ d, P d → Q a d) :
    Returns P (Pure.pure a : Action ε α) Q :=
  fun d hd => ⟨a, rfl, h d hd⟩

theorem bind {x : Action ε α} {k : α → Action ε β} {Q : α → Directory → Prop}
    {R : β → Directory → Prop} (hx : Returns P x Q) (hk : ∀ a, Returns (Q a) (k a) R) :
    Returns P (x >>= k) R := by
  intro d hd
  obtain ⟨a, ha, hQ⟩ := hx d hd
  have hrun : x d = ((x d).1, .ok a) := Prod.ext rfl ha
  rw [Action.bind_of_ok hrun]
  obtain ⟨b, hb, hR⟩ := hk a _ hQ
  refine ⟨b, hb, ?_⟩
  rw [applyAll_append]
  exact hR

theorem directory {Q : Directory → Directory → Prop} (h : ∀ d, P d → Q d d) :
    Returns P (Action.directory : Action ε Directory) Q :=
  fun d hd => ⟨d, rfl, h d hd⟩

theorem write {w : Write} {Q : Unit → Directory → Prop} (h : ∀ d, P d → Q () (w.apply d)) :
    Returns P (Action.write w : Action ε Unit) Q :=
  fun d hd => ⟨(), rfl, h d hd⟩

theorem lift {x : Except ε α} {Q : α → Directory → Prop}
    (h : ∀ d, P d → ∃ a, x = .ok a ∧ Q a d) :
    Returns P (MonadLift.monadLift x : Action ε α) Q :=
  fun d hd => h d hd

theorem weaken {x : Action ε α} {P' : Directory → Prop} {Q Q' : α → Directory → Prop}
    (hx : Returns P x Q) (hpre : ∀ d, P' d → P d) (hpost : ∀ a d, Q a d → Q' a d) :
    Returns P' x Q' := by
  intro d hd
  obtain ⟨a, ha, hQ⟩ := hx d (hpre d hd)
  exact ⟨a, ha, hpost a _ hQ⟩

/-- A fact that does not depend on the directory is assumed. -/
theorem assume {p : Prop} {x : Action ε α} {Q : α → Directory → Prop}
    (hx : p → Returns P x Q) : Returns (fun d => P d ∧ p) x Q :=
  fun d hd => hx hd.2 d hd.1

/-- What the writes of a program keep holds when it has returned. -/
theorem keep {I : Directory → Prop} (hI : ∀ d w, I d → G d w → I (w.apply d)) {x : Action ε α}
    {Q Q' : α → Directory → Prop} {P' : Directory → Prop} (hx : Returns P x Q)
    (hwrites : Triple G P' x Q') :
    Returns (fun d => P d ∧ P' d ∧ I d) x fun a d => Q a d ∧ I d := by
  intro d hd
  obtain ⟨a, ha, hQ⟩ := hx d hd.1
  exact ⟨a, ha, hQ, (hwrites d hd.2.1).1.invariant hI hd.2.2⟩

end Returns

/-! ## Programs that raise before they write -/

/-- Where the program raises, it has written nothing. -/
def Clean (x : Action ε α) : Prop := ∀ d e, (x d).2 = .error e → (x d).1 = []

namespace Clean

theorem pure (a : α) : Clean (Pure.pure a : Action ε α) := fun _ _ h => by cases h

/-- The only write of a program is its last step. -/
theorem write (w : Write) (a : α) :
    Clean (Action.write w >>= fun _ => Pure.pure a : Action ε α) := fun _ _ h => by cases h

theorem lift {x : Except ε β} {k : β → Action ε α} (hk : ∀ b, Clean (k b)) :
    Clean ((MonadLift.monadLift x : Action ε β) >>= k) := by
  intro d e h
  cases x with
  | error e' => rfl
  | ok b => exact hk b d e h

theorem directory {k : Directory → Action ε α} (hk : ∀ d, Clean (k d)) :
    Clean (Action.directory >>= k) :=
  fun d e h => hk d d e h

end Clean

/-! ## Names -/

/-- A file that is there stays there. -/
theorem lookup_apply_ne_none {name : String} {d : Directory} (w : Write)
    (h : d.lookup name ≠ none) : (w.apply d).lookup name ≠ none := by
  rw [Write.lookup_apply]
  split
  · exact Option.some_ne_none _
  · exact h

theorem lookup_applyAll_ne_none {name : String} {d : Directory} (ws : List Write)
    (h : d.lookup name ≠ none) : (applyAll ws d).lookup name ≠ none := by
  induction ws generalizing d with
  | nil => exact h
  | cons w ws ih => exact ih (lookup_apply_ne_none w h)

/-- No file of the first directory is gone. -/
def Grown (d₀ d : Directory) : Prop := ∀ name, d₀.lookup name ≠ none → d.lookup name ≠ none

theorem Grown.refl (d : Directory) : Grown d d := fun _ h => h

theorem Grown.apply {d₀ d : Directory} (h : Grown d₀ d) (w : Write) : Grown d₀ (w.apply d) :=
  fun name hname => lookup_apply_ne_none w (h name hname)

theorem Grown.trans {d₀ d₁ d₂ : Directory} (h : Grown d₀ d₁) (h' : Grown d₁ d₂) : Grown d₀ d₂ :=
  fun name hname => h' name (h name hname)

theorem grown_applyAll (ws : List Write) (d : Directory) : Grown d (applyAll ws d) :=
  fun _ hname => lookup_applyAll_ne_none ws hname

theorem mem_keys_iff {name : String} {d : Directory} : name ∈ d.keys ↔ d.lookup name ≠ none := by
  rw [← AList.mem_keys, Ne, AList.lookup_eq_none, not_not]

/-- Writing an old file keeps the names, up to their order. -/
theorem keys_insert_perm {name : String} {content : List UInt8} {d : Directory}
    (h : d.lookup name ≠ none) : (d.insert name content).keys.Perm d.keys := by
  rw [AList.keys_insert]
  exact (List.perm_cons_erase (mem_keys_iff.mpr h)).symm

/-- Writing a new file adds its name. -/
theorem keys_insert_new {name : String} {content : List UInt8} {d : Directory}
    (h : d.lookup name = none) : (d.insert name content).keys = name :: d.keys := by
  rw [AList.keys_insert, List.erase_of_not_mem fun hmem => mem_keys_iff.mp hmem h]

/-! ## Crashes -/

/-- Where a crash comes: after some writes, or inside a write, when the file that it fills holds
some number of bytes. -/
inductive Point
  | between (k : ℕ)
  | within (k : ℕ) (bytes : ℕ)
  deriving DecidableEq

/-- The directory that a crash leaves. -/
def crash (ws : List Write) (d : Directory) : Point → Directory
  | .between k => applyAll (ws.take k) d
  | .within k bytes =>
      match ws[k]? with
      | none => applyAll ws d
      | some (.create name content) =>
          (applyAll (ws.take k) d).insert name (content.take bytes)
      | some (.replace temporary _ content) =>
          (applyAll (ws.take k) d).insert temporary (content.take bytes)

/-- The crash does not come while an exclusively created file is incomplete. -/
def Whole (ws : List Write) : Point → Prop
  | .between _ => True
  | .within k bytes =>
      ∀ name content, ws[k]? = some (.create name content) → content.length ≤ bytes

instance (ws : List Write) (p : Point) : Decidable (Whole ws p) :=
  match p with
  | .between _ => isTrue trivial
  | .within k bytes =>
      match h : ws[k]? with
      | some (.create name content) =>
          decidable_of_iff (content.length ≤ bytes) (by
            constructor
            · intro hle name' content' heq
              rw [h] at heq
              cases heq
              exact hle
            · intro hwhole
              exact hwhole name content h)
      | some (.replace temporary name content) =>
          isTrue fun name' content' heq => by rw [h] at heq; cases heq
      | none => isTrue fun name' content' heq => by rw [h] at heq; cases heq

/-- A crash before the first byte of the first file. -/
theorem not_whole_of_create {ws rest : List Write} {name : String} {content : List UInt8}
    (hws : ws = .create name content :: rest) (hne : content ≠ []) : ¬Whole ws (.within 0 0) := by
  intro hwhole
  have hlen : content.length ≤ 0 := hwhole name content (by rw [hws]; rfl)
  exact hne (List.length_eq_zero_iff.mp (Nat.le_zero.mp hlen))

/-- A crash that is not inside a creation leaves the first writes, and sometimes a temporary
file. -/
theorem crash_of_whole {ws : List Write} {d : Directory} {p : Point} (h : Whole ws p) :
    ∃ k, crash ws d p = applyAll (ws.take k) d ∨
      ∃ temporary name content bytes, ws[k]? = some (.replace temporary name content) ∧
        crash ws d p = (applyAll (ws.take k) d).insert temporary (content.take bytes) := by
  cases p with
  | between k => exact ⟨k, .inl rfl⟩
  | within k bytes =>
    cases hw : ws[k]? with
    | none =>
      refine ⟨ws.length, .inl ?_⟩
      rw [List.take_length, crash, hw]
    | some w =>
      cases w with
      | create name content =>
        -- All bytes are there, so the write is complete.
        refine ⟨k + 1, .inl ?_⟩
        rw [List.take_add_one, hw, applyAll_append, crash, hw]
        show _ = Write.apply (.create name content) _
        unfold Write.apply Write.name Write.content
        simp only [List.take_of_length_le (h name content hw)]
      | replace temporary name content =>
        refine ⟨k, .inr ⟨temporary, name, content, bytes, hw, ?_⟩⟩
        rw [crash, hw]

/-- A crash inside a creation leaves a part of the file. -/
theorem crash_of_not_whole {ws : List Write} {d : Directory} {p : Point} (h : ¬Whole ws p) :
    ∃ k bytes name content, ws[k]? = some (.create name content) ∧ bytes < content.length ∧
      crash ws d p = (applyAll (ws.take k) d).insert name (content.take bytes) := by
  cases p with
  | between k => exact absurd trivial h
  | within k bytes =>
    unfold Whole at h
    push Not at h
    obtain ⟨name, content, hw, hlt⟩ := h
    refine ⟨k, bytes, name, content, hw, hlt, ?_⟩
    rw [crash, hw]

end FileStore
