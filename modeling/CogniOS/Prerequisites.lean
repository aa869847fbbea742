/-
# Prerequisites

A task is created with prerequisites that exist, and claimed when they are verified.
Nothing leaves `verified`, so that after a fault-free run the prerequisites of every task
that was ever claimed are verified, down to the last one.

* `ordered_of_faultFree` : the invariant of the fault-free runs.
-/
import CogniOS.TaskHistory
import CogniOS.DependencyGraph

open DependencyGraph Relation

namespace Workspace

/-- The task `b` is a prerequisite of the task `a`. -/
def DependsOn (s : State) (a b : String) : Prop :=
  ∃ t, s.files.lookup a = some t ∧ b ∈ t.prerequisites

/-- The state of a task that satisfies a prerequisite. -/
def Done (t : Task) : Prop := t.state = .verified ∨ t.state = .archived

/-- A task file in a state that satisfies a prerequisite. -/
def Satisfied (s : State) (id : String) : Prop := ∃ t, s.files.lookup id = some t ∧ Done t

/-- A task that was claimed at least once. -/
def Attempted (s : State) (id : String) : Prop := ∃ t, s.files.lookup id = some t ∧ 1 ≤ t.attempt

/-- The prerequisites of the tasks are in order. -/
structure Ordered (s : State) : Prop where
  exist : ∀ a b, DependsOn s a b → ∃ t, s.files.lookup b = some t
  acyclic : Acyclic (DependsOn s)
  ready : ∀ a b, Attempted s a → DependsOn s a b → Satisfied s b

theorem Moves.not_done {t u : Task} {b : Body} (h : Moves t b u) : ¬ Done t := by
  rintro (hd | hd) <;> cases h <;> simp_all [TaskState.leased]

/-- Only a claim makes the first attempt. -/
theorem Moves.claimed_of_attempt {t u : Task} {b : Body} (h : Moves t b u) (ht : t.attempt = 0)
    (hu : 1 ≤ u.attempt) : u.state = .claimed ∧ t.state = .pending := by
  cases h with
  | claimed now l hstate => exact ⟨rfl, hstate⟩
  | _ =>
    have : 1 ≤ t.attempt := hu
    omega

section Steps

variable {w : Broker} {s s' : State} {c : Call} {e : Effect}

/-- A satisfied prerequisite is what the claim found in its file. -/
theorem satisfied_of_unsatisfied_eq_nil {t : Task} (h : s.unsatisfiedPrerequisites t = [])
    {id : String} (hid : id ∈ t.prerequisites) : Satisfied s id := by
  rw [State.unsatisfiedPrerequisites, List.filterMap_eq_nil_iff] at h
  have hnone := h id hid
  cases hget : s.getTask id with
  | error f => simp [hget] at hnone
  | ok p =>
    have hdone : Done p := by
      by_contra hnot
      rw [Done] at hnot
      simp [hget, hnot] at hnone
    exact ⟨p, getTask_eq_ok hget, hdone⟩

theorem Ordered.of_lookup (hs : Ordered s) (h : ∀ id, s'.files.lookup id = s.files.lookup id) :
    Ordered s' := by
  have hdepends : ∀ a b, DependsOn s' a b ↔ DependsOn s a b := by simp [DependsOn, h]
  refine ⟨?_, hs.acyclic.of_iff hdepends, ?_⟩
  · intro a b hab
    rw [h]
    exact hs.exist a b ((hdepends a b).mp hab)
  · intro a b ha hab
    simp only [Satisfied, Attempted, h] at ha ⊢
    exact hs.ready a b ha ((hdepends a b).mp hab)

/-- A move keeps the prerequisites in order: it starts from a task that is not done, and
makes a first attempt only where the prerequisites are satisfied. -/
theorem Ordered.moved (hs : Ordered s) {id : String} {t u : Task} {b : Body}
    (ht : s.files.lookup id = some t) (hm : Moves t b u)
    (hclaim : u.state = .claimed → t.state = .pending → s.unsatisfiedPrerequisites t = [])
    (hfiles : s'.files = s.files.insert id u) : Ordered s' := by
  have hlookup : ∀ id', s'.files.lookup id' = if id' = id then some u else s.files.lookup id' := by
    intro id'
    rw [hfiles]
    split
    case isTrue h => rw [h, AList.lookup_insert]
    case isFalse h => rw [AList.lookup_insert_ne h]
  have hdepends : ∀ a b, DependsOn s' a b ↔ DependsOn s a b := by
    intro a b
    rw [DependsOn, DependsOn, hlookup]
    split
    case isTrue h =>
      subst h
      simp [ht, hm.sameTask.prerequisites]
    case isFalse h => rfl
  have hsatisfied : ∀ b, Satisfied s b → Satisfied s' b := by
    rintro b ⟨p, hp, hdone⟩
    refine ⟨p, ?_, hdone⟩
    rw [hlookup, if_neg, hp]
    rintro rfl
    obtain rfl := Option.some.inj (ht.symm.trans hp)
    exact hm.not_done hdone
  refine ⟨?_, hs.acyclic.of_iff hdepends, ?_⟩
  · intro a b hab
    obtain ⟨p, hp⟩ := hs.exist a b ((hdepends a b).mp hab)
    rw [hlookup]
    split
    · exact ⟨u, rfl⟩
    · exact ⟨p, hp⟩
  · rintro a b ⟨v, hv, hattempt⟩ hab
    have hab := (hdepends a b).mp hab
    apply hsatisfied
    rw [hlookup] at hv
    split at hv
    case isFalse => exact hs.ready a b ⟨v, hv, hattempt⟩ hab
    case isTrue ha =>
      subst ha
      obtain rfl := Option.some.inj hv
      by_cases hzero : t.attempt = 0
      · obtain ⟨hu, hp⟩ := hm.claimed_of_attempt hzero hattempt
        obtain ⟨t', ht', hb⟩ := hab
        obtain rfl := Option.some.inj (ht.symm.trans ht')
        exact satisfied_of_unsatisfied_eq_nil (hclaim hu hp) hb
      · exact hs.ready a b ⟨t, ht, by omega⟩ hab

/-- A new task depends on old tasks only. -/
theorem Ordered.created (hs : Ordered s) {t : Task} (hnew : New s t)
    (hfiles : s'.files = s.files.insert t.id t) : Ordered s' := by
  have hlookup : ∀ id, s'.files.lookup id = if id = t.id then some t else s.files.lookup id := by
    intro id
    rw [hfiles]
    split
    case isTrue h => rw [h, AList.lookup_insert]
    case isFalse h => rw [AList.lookup_insert_ne h]
  have hold : ∀ a b, DependsOn s' a b → a ≠ t.id → DependsOn s a b := by
    rintro a b ⟨p, hp, hb⟩ ha
    rw [hlookup, if_neg ha] at hp
    exact ⟨p, hp, hb⟩
  have hself : ∀ b, DependsOn s' t.id b → b ∈ t.prerequisites := by
    rintro b ⟨p, hp, hb⟩
    rw [hlookup, if_pos rfl] at hp
    obtain rfl := Option.some.inj hp
    exact hb
  have hkept : ∀ b p, s.files.lookup b = some p → s'.files.lookup b = some p := by
    intro b p hp
    rw [hlookup, if_neg, hp]
    rintro rfl
    simp [hnew.absent] at hp
  have hgrows : Grows (DependsOn s) (DependsOn s') t.id := by
    refine ⟨hold, ?_, ?_⟩
    · rintro a b hab rfl
      obtain ⟨p, hp⟩ := hs.exist a _ hab
      simp [hnew.absent] at hp
    · intro h
      exact hnew.irreflexive (hself _ h)
  refine ⟨?_, hgrows.acyclic hs.acyclic, ?_⟩
  · intro a b hab
    by_cases ha : a = t.id
    · subst ha
      obtain ⟨p, hp⟩ := Option.isSome_iff_exists.mp (hnew.prerequisites b (hself b hab))
      exact ⟨p, hkept b p hp⟩
    · obtain ⟨p, hp⟩ := hs.exist a b (hold a b hab ha)
      exact ⟨p, hkept b p hp⟩
  · rintro a b ⟨v, hv, hattempt⟩ hab
    rw [hlookup] at hv
    split at hv
    case isTrue ha =>
      obtain rfl := Option.some.inj hv
      have := hnew.attempt
      omega
    case isFalse ha =>
      obtain ⟨p, hp, hdone⟩ := hs.ready a b ⟨v, hv, hattempt⟩ (hold a b hab ha)
      exact ⟨p, hkept b p hp, hdone⟩

theorem Ordered.step (hs : Ordered s) (hinv : Inv w s) (hcons : Consistent s)
    (hc : c.fault = .none) : Ordered (step w s c) := by
  rcases step_cases hinv c with h | ⟨e, -, houtcome, h⟩
  · rw [h]
    exact hs.of_lookup (by simp)
  have hunlock : Ordered (s.apply w e .none) → Ordered (Workspace.step w s c) := by
    intro happly
    rw [h, hc]
    exact happly.of_lookup (by simp)
  apply hunlock
  have hsame : e.file = none → Ordered (s.apply w e .none) := by
    intro hfile
    apply hs.of_lookup
    rcases apply_files w s e .none with heq | ⟨id, t, he, -⟩
    · simp [heq]
    · simp [hfile] at he
  cases houtcome with
  | agentAdded actor now agent heq => exact hsame (by rw [heq])
  | created actor now t hnew heq =>
    rw [heq]
    exact hs.created hnew rfl
  | moved id t u hreads hm hclaim =>
    obtain ⟨entry, -, hmoves, -, hfiles⟩ := apply_moved (w := w) (s := s) hm
    exact hs.moved hreads.2 hmoves hclaim hfiles
  | decided id run u hrun _ hm hstate =>
    obtain ⟨entry, -, hmoves, -, hfiles⟩ := apply_moved (w := w) (s := s) hm
    exact hs.moved (hinv.verifying id run hrun).1 hmoves (fun hu => absurd hu hstate) hfiles
  | begun id run _ _ _ _ hfile _ => exact hsame hfile
  | rebuilt id _ _ _ hfile =>
    apply hs.of_lookup
    intro id'
    rcases apply_files w s e .none with heq | ⟨id'', t, he, heq⟩
    · rw [heq]
    · -- The file already is the snapshot that it is replaced by.
      obtain ⟨rfl, hlatest⟩ := hfile (id'', t) he
      rw [heq]
      by_cases hid : id' = id''
      · rw [hid, AList.lookup_insert, hcons.projection, hlatest]
      · rw [AList.lookup_insert_ne hid]
  | silent _ _ hfile => exact hsame hfile

theorem Fresh.ordered (h : Fresh w s) : Ordered s := by
  have hno : ∀ a b, ¬ DependsOn s a b := by simp [DependsOn, h.files]
  refine ⟨fun a b hab => absurd hab (hno a b), ?_, fun a b _ hab => absurd hab (hno a b)⟩
  intro a hcycle
  obtain ⟨b, hab, -⟩ := TransGen.head'_iff.mp hcycle
  exact hno a b hab

end Steps

/-- **After every fault-free run** the prerequisites form an acyclic relation between
existing tasks, and all of those of a task that was ever claimed are verified or archived,
the direct ones and the others. -/
theorem ordered_of_faultFree {w : Broker} {cs : List Call} {s : State} (h : RunsTo w cs s)
    (hcs : ∀ c ∈ cs, c.fault = .none) :
    Acyclic (DependsOn s) ∧ (∀ a b, DependsOn s a b → ∃ t, s.files.lookup b = some t) ∧
      ∀ a t, s.files.lookup a = some t → 1 ≤ t.attempt →
        ∀ b, TransGen (DependsOn s) a b → ∃ p, s.files.lookup b = some p ∧
          (p.state = .verified ∨ p.state = .archived) := by
  have hall : Inv w s ∧ Consistent s ∧ Ordered s := by
    obtain ⟨now, principal, family, preset, start, hstart, hrun⟩ := h
    have hfresh := fresh_of_initialized hstart
    apply (hrun.guarded hcs).invariant (I := fun s => Inv w s ∧ Consistent s ∧ Ordered s) _
      ⟨hfresh.inv, hfresh.consistent, hfresh.ordered⟩
    rintro s c t ⟨hinv, hcons, hs⟩ ⟨rfl, hc⟩
    exact ⟨hinv.step c, hcons.step hinv hc, hs.step hinv hcons hc⟩
  obtain ⟨hinv, -, hs⟩ := hall
  refine ⟨hs.acyclic, hs.exist, ?_⟩
  intro a t ht hattempt b hpath
  -- A verified task was claimed itself, so that its own prerequisites are verified too.
  refine of_transGen (P := Attempted s) (Q := Satisfied s) hs.ready ?_ ⟨t, ht, hattempt⟩ hpath
  rintro b ⟨p, hp, hdone⟩
  refine ⟨p, hp, (hinv.file b p hp).sound.attempt ?_⟩
  rcases hdone with hdone | hdone <;> simp [hdone]

/-- A task that is claimed before the one that depends on it is. -/
theorem ordered_of_faultFree_claimed :
    ∃ s, RunsTo sampleBroker [sampleAdd "P" [], sampleAdd "T" ["P"], sampleClaim "P"] s ∧
      (s.files.lookup "P").map (·.attempt) = some 1 ∧
      (s.files.lookup "T").map (·.prerequisites) = some ["P"] ∧
      Acyclic (DependsOn s) ∧ (∀ a b, DependsOn s a b → ∃ t, s.files.lookup b = some t) ∧
      ∀ a t, s.files.lookup a = some t → 1 ≤ t.attempt →
        ∀ b, TransGen (DependsOn s) a b → ∃ p, s.files.lookup b = some p ∧
          (p.state = .verified ∨ p.state = .archived) := by
  have hrun := runsTo_foldl initialize_sample
    [sampleAdd "P" [], sampleAdd "T" ["P"], sampleClaim "P"]
  exact ⟨_, hrun, by decide +kernel, by decide +kernel, ordered_of_faultFree hrun (by decide)⟩

end Workspace
