/-
# Programs that raise and keep their state

A program changes a state and returns or raises.  What it has changed before it raises stays
changed, and a handler or a cleanup goes on from there.

* `Program` is the monad of such programs, with `tryCatch` and `andFinally`;
* `Triple` says what holds when a program returns and what holds when it raises.
-/
import Mathlib

namespace StateProgram

variable {σ ε α β : Type}

/-- A program: what it returns or raises, and the state that it leaves. -/
def Program (σ ε α : Type) : Type := σ → Except ε α × σ

namespace Program

/-- Run one program and then, where it returns, the next one. -/
def bind (x : Program σ ε α) (k : α → Program σ ε β) : Program σ ε β := fun s =>
  match x s with
  | (.error e, s') => (.error e, s')
  | (.ok a, s') => k a s'

instance : Monad (Program σ ε) where
  pure a := fun s => (.ok a, s)
  bind := bind

instance : MonadLift (Except ε) (Program σ ε) where
  monadLift x := fun s => (x, s)

/-- The state as it is now. -/
def get : Program σ ε σ := fun s => (.ok s, s)

/-- Change the state. -/
def modify (f : σ → σ) : Program σ ε Unit := fun s => (.ok (), f s)

/-- `try` and `except`: the handler goes on where the program has raised. -/
def tryCatch (x : Program σ ε α) (handle : ε → Program σ ε α) : Program σ ε α := fun s =>
  match x s with
  | (.error e, s') => handle e s'
  | (.ok a, s') => (.ok a, s')

/-- `try` and `finally`: the cleanup runs in both cases, and its exception replaces the outcome. -/
def andFinally (x : Program σ ε α) (cleanup : Program σ ε Unit) : Program σ ε α := fun s =>
  match cleanup (x s).2 with
  | (.error e, s') => (.error e, s')
  | (.ok (), s') => ((x s).1, s')

end Program

/-! ## Triples -/

/-- Started where `P` holds, the program leaves `Q` where it returns and `R` where it raises. -/
structure Triple (P : σ → Prop) (x : Program σ ε α) (Q : α → σ → Prop) (R : ε → σ → Prop) :
    Prop where
  returns : ∀ s a s', P s → x s = (.ok a, s') → Q a s'
  raises : ∀ s e s', P s → x s = (.error e, s') → R e s'

namespace Triple

variable {P : σ → Prop} {Q : α → σ → Prop} {R : ε → σ → Prop}

theorem pure {a : α} (h : ∀ s, P s → Q a s) :
    Triple P (Pure.pure a : Program σ ε α) Q R where
  returns := by
    rintro s _ _ hs ⟨⟩
    exact h s hs
  raises := by
    rintro s _ _ - ⟨⟩

theorem bind {x : Program σ ε α} {k : α → Program σ ε β} {Q' : β → σ → Prop}
    (hx : Triple P x Q R) (hk : ∀ a, Triple (Q a) (k a) Q' R) : Triple P (x >>= k) Q' R where
  returns s b s' hs h := by
    change Program.bind x k s = _ at h
    unfold Program.bind at h
    rcases hrun : x s with ⟨e | a, t⟩
    · rw [hrun] at h
      cases h
    · rw [hrun] at h
      exact (hk a).returns _ _ _ (hx.returns _ _ _ hs hrun) h
  raises s e s' hs h := by
    change Program.bind x k s = _ at h
    unfold Program.bind at h
    rcases hrun : x s with ⟨e' | a, t⟩
    · rw [hrun] at h
      cases h
      exact hx.raises _ _ _ hs hrun
    · rw [hrun] at h
      exact (hk a).raises _ _ _ (hx.returns _ _ _ hs hrun) h

theorem lift {x : Except ε α} (hok : ∀ s a, P s → x = .ok a → Q a s)
    (herror : ∀ s e, P s → x = .error e → R e s) :
    Triple P (MonadLift.monadLift x : Program σ ε α) Q R where
  returns := by
    rintro s a s' hs h
    obtain ⟨rfl, rfl⟩ := Prod.mk.inj h
    exact hok _ _ hs rfl
  raises := by
    rintro s e s' hs h
    obtain ⟨rfl, rfl⟩ := Prod.mk.inj h
    exact herror _ _ hs rfl

theorem get {Q : σ → σ → Prop} (h : ∀ s, P s → Q s s) :
    Triple P (Program.get : Program σ ε σ) Q R where
  returns := by
    rintro s _ _ hs ⟨⟩
    exact h s hs
  raises := by
    rintro s _ _ - ⟨⟩

theorem modify {f : σ → σ} {Q : Unit → σ → Prop} (h : ∀ s, P s → Q () (f s)) :
    Triple P (Program.modify f : Program σ ε Unit) Q R where
  returns := by
    rintro s _ _ hs ⟨⟩
    exact h s hs
  raises := by
    rintro s _ _ - ⟨⟩

theorem tryCatch {x : Program σ ε α} {handle : ε → Program σ ε α} {R' : ε → σ → Prop}
    (hx : Triple P x Q R) (hhandle : ∀ e, Triple (R e) (handle e) Q R') :
    Triple P (x.tryCatch handle) Q R' where
  returns s a s' hs h := by
    unfold Program.tryCatch at h
    rcases hrun : x s with ⟨e | b, t⟩
    · rw [hrun] at h
      exact (hhandle e).returns _ _ _ (hx.raises _ _ _ hs hrun) h
    · rw [hrun] at h
      cases h
      exact hx.returns _ _ _ hs hrun
  raises s e s' hs h := by
    unfold Program.tryCatch at h
    rcases hrun : x s with ⟨e' | b, t⟩
    · rw [hrun] at h
      exact (hhandle e').raises _ _ _ (hx.raises _ _ _ hs hrun) h
    · rw [hrun] at h
      cases h

/-- The cleanup starts from either outcome. -/
theorem andFinally {x : Program σ ε α} {cleanup : Program σ ε Unit} {Q' : α → σ → Prop}
    {R' : ε → σ → Prop} (hx : Triple P x Q R)
    (hok : ∀ a, Triple (Q a) cleanup (fun _ => Q' a) R')
    (herror : ∀ e, Triple (R e) cleanup (fun _ => R' e) R') :
    Triple P (x.andFinally cleanup) Q' R' where
  returns s a s' hs h := by
    unfold Program.andFinally at h
    rcases hrun : x s with ⟨e | b, t⟩
    · rw [hrun] at h
      rcases hclean : cleanup t with ⟨e' | ⟨⟩, t'⟩
      · rw [hclean] at h
        cases h
      · rw [hclean] at h
        cases h
    · rw [hrun] at h
      rcases hclean : cleanup t with ⟨e' | ⟨⟩, t'⟩
      · rw [hclean] at h
        cases h
      · rw [hclean] at h
        cases h
        exact (hok _).returns _ _ _ (hx.returns _ _ _ hs hrun) hclean
  raises s e s' hs h := by
    unfold Program.andFinally at h
    rcases hrun : x s with ⟨e₁ | b, t⟩
    · rw [hrun] at h
      rcases hclean : cleanup t with ⟨e' | ⟨⟩, t'⟩
      · rw [hclean] at h
        cases h
        exact (herror e₁).raises _ _ _ (hx.raises _ _ _ hs hrun) hclean
      · rw [hclean] at h
        cases h
        exact (herror _).returns _ _ _ (hx.raises _ _ _ hs hrun) hclean
    · rw [hrun] at h
      rcases hclean : cleanup t with ⟨e' | ⟨⟩, t'⟩
      · rw [hclean] at h
        cases h
        exact (hok b).raises _ _ _ (hx.returns _ _ _ hs hrun) hclean
      · rw [hclean] at h
        cases h

theorem weaken {x : Program σ ε α} {P' : σ → Prop} {Q' : α → σ → Prop} {R' : ε → σ → Prop}
    (hx : Triple P x Q R) (hP : ∀ s, P' s → P s) (hQ : ∀ a s, Q a s → Q' a s)
    (hR : ∀ e s, R e s → R' e s) : Triple P' x Q' R' where
  returns s a s' hs h := hQ a s' (hx.returns s a s' (hP s hs) h)
  raises s e s' hs h := hR e s' (hx.raises s e s' (hP s hs) h)

/-- A loop keeps what each of its turns keeps. -/
theorem forM {xs : List β} {f : β → Program σ ε Unit}
    (h : ∀ x ∈ xs, Triple P (f x) (fun _ => P) R) : Triple P (xs.forM f) (fun _ => P) R := by
  induction xs with
  | nil => exact pure fun _ hs => hs
  | cons x xs ih =>
    exact bind (h x List.mem_cons_self) fun _ => ih fun y hy => h y (List.mem_cons_of_mem _ hy)

/-- A fact that does not depend on the state is assumed. -/
theorem assume {p : Prop} {x : Program σ ε α} (hx : p → Triple P x Q R) :
    Triple (fun s => P s ∧ p) x Q R where
  returns s a s' hs h := (hx hs.2).returns s a s' hs.1 h
  raises s e s' hs h := (hx hs.2).raises s e s' hs.1 h

/-- What a program does from one state on. -/
theorem of_start {x : Program σ ε α} (h : ∀ s, P s → Triple (fun t => t = s) x Q R) :
    Triple P x Q R where
  returns s a s' hs hrun := (h s hs).returns s a s' rfl hrun
  raises s e s' hs hrun := (h s hs).raises s e s' rfl hrun

end Triple

end StateProgram
