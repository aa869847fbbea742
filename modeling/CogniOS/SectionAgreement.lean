/-
# Publisher and validator of the derived sections

Where the sections that `build_snapshot` derives from its tasks and readings pass the checks of
`validateSnapshot`.

* `validateTasksSummary_iff`, `validateRoadmap_ok`, `validateResources_iff`, `validateAlerts_iff` :
  one lemma for each section;
* `validateDerived_iff` : all of them pass exactly where the completion is not halfway between two tenths
  of a percent above an even one, the names of the disputed tasks fit into one message, and the
  rounded sizes still show the measured percentage.
-/
import CogniOS.MonitorIngest
import CogniOS.MonitorSections
import CogniOS.PublisherSections

namespace Publisher

open Monitoring Rounding Workspace

/-! ## Numbers -/

theorem isInt_count (n : ℕ) : (count n).isInt n = true := by
  simp [count, number, Js.isInt, Js.asNum?]

theorem isCount_count (n : ℕ) : isCount (count n) = true := by
  simp [isCount, count, number, Js.asNum?, JsNum.integer?]

theorem isPhaseCount_count {n : ℕ} (h : n ≤ 11) : isPhaseCount (count n) = true := by
  simp [isPhaseCount, count, number, Js.asNum?, JsNum.integer?, roadmapPhaseIds]
  omega

theorem requireFiniteNumber_bind_iff {β : Type} {q min max : ℚ} {name : String}
    {k : ℚ → Except CogniError β} {b : β} :
    (requireFiniteNumber (number q) name min max >>= k) = .ok b ↔
      (min ≤ q ∧ q ≤ max) ∧ k q = .ok b := by
  have hq : requireFiniteNumber (number q) name min max =
      (require (min ≤ q) (error (name ++ " is below the minimum")) >>= fun _ =>
        require (q ≤ max) (error (name ++ " is above the maximum")) >>= fun _ => .ok q) := rfl
  rw [hq, bind_eq_ok]
  simp only [require_bind_eq_ok, Except.ok.injEq]
  constructor
  · rintro ⟨_, ⟨hmin, hmax, rfl⟩, hk⟩
    exact ⟨⟨hmin, hmax⟩, hk⟩
  · rintro ⟨⟨hmin, hmax⟩, hk⟩
    exact ⟨q, ⟨hmin, hmax, rfl⟩, hk⟩

theorem round_one (q : ℚ) : round q 1 = halfEven (q * 10) / 10 := by simp [round]

/-- Two numbers of tenths are close exactly where they are the same. -/
theorem abs_tenths_le_iff (a b : ℤ) : |(a : ℚ) / 10 - b / 10| ≤ 1 / 20 ↔ a = b := by
  constructor
  · intro h
    rw [abs_le] at h
    have hlow : (b : ℚ) < a + 1 := by linarith [h.1]
    have hhigh : (a : ℚ) < b + 1 := by linarith [h.2]
    have hlow' : b < a + 1 := by exact_mod_cast hlow
    have hhigh' : a < b + 1 := by exact_mod_cast hhigh
    omega
  · rintro rfl
    norm_num

theorem abs_fifth_le_iff (a b : ℤ) : |(a : ℚ) / 10 - b / 10| ≤ 1 / 5 ↔ |a - b| ≤ 2 := by
  have hcast : |(a : ℚ) / 10 - b / 10| = ((|a - b| : ℤ) : ℚ) / 10 := by
    rw [← sub_div, abs_div, abs_of_pos (by norm_num : (0 : ℚ) < 10)]
    push_cast
    rfl
  rw [hcast, div_le_iff₀ (by norm_num)]
  constructor
  · intro h
    have h2 : ((|a - b| : ℤ) : ℚ) ≤ 2 := by linarith
    exact_mod_cast h2
  · intro h
    have h2 : ((|a - b| : ℤ) : ℚ) ≤ 2 := by exact_mod_cast h
    linarith

/-- Bounds on a number of hundredths. -/
theorem hundredths_bounds_iff (t : ℤ) :
    1 / 1000 ≤ (t : ℚ) / 100 ∧ (t : ℚ) / 100 ≤ 1024 * 1024 ↔ 1 ≤ t ∧ t ≤ 104857600 := by
  constructor
  · rintro ⟨hlow, hhigh⟩
    have hpos : (0 : ℚ) < t := by linarith
    have hle : (t : ℚ) ≤ 104857600 := by linarith
    have hpos' : 0 < t := by exact_mod_cast hpos
    exact ⟨hpos', by exact_mod_cast hle⟩
  · rintro ⟨hlow, hhigh⟩
    have hlow' : (1 : ℚ) ≤ t := by exact_mod_cast hlow
    have hhigh' : (t : ℚ) ≤ 104857600 := by exact_mod_cast hhigh
    constructor <;> linarith

/-- The percentages of the two sides agree exactly where the two roundings do. -/
theorem abs_round_sub_percentOf_le_iff (part total : ℚ) :
    |round (part / total * 100) 1 - percentOf part total| ≤ 1 / 20 ↔
      ¬∃ m : ℤ, part / total * 1000 = 2 * m + 1 / 2 := by
  have hten : part / total * 100 * 10 = part / total * 1000 := by ring
  rw [round_one, hten, percentOf, mathRound, abs_tenths_le_iff, halfEven_eq_halfUp_iff]

/-- A share is a percentage. -/
theorem round_percent_mem {part total : ℚ} (hpart : 0 ≤ part) (htotal : 0 < total)
    (hle : part ≤ total) :
    0 ≤ round (part / total * 100) 1 ∧ round (part / total * 100) 1 ≤ 100 := by
  have hratio : 0 ≤ part / total ∧ part / total ≤ 1 :=
    ⟨div_nonneg hpart htotal.le, (div_le_one htotal).mpr hle⟩
  have hlow : halfEven ((0 : ℤ) : ℚ) ≤ halfEven (part / total * 100 * 10) :=
    halfEven_mono (by push_cast; linarith [hratio.1])
  have hhigh : halfEven (part / total * 100 * 10) ≤ halfEven ((1000 : ℤ) : ℚ) :=
    halfEven_mono (by push_cast; linarith [hratio.2])
  rw [halfEven_intCast] at hlow hhigh
  have hlow' : (0 : ℚ) ≤ halfEven (part / total * 100 * 10) := by exact_mod_cast hlow
  have hhigh' : (halfEven (part / total * 100 * 10) : ℚ) ≤ 1000 := by exact_mod_cast hhigh
  rw [round_one]
  constructor <;> linarith

/-! ## Exported tasks -/

/-- The states of an exported task. -/
def exportedStates : List String :=
  ["pending", "claimed", "running", "blocked", "submitted", "verified", "rejected", "archived",
    "verification_disputed", "verification_revoked"]

def ExportedTask.complete (t : ExportedTask) : Bool := t.state == "verified" || t.state == "archived"

/-- What every exported task satisfies. -/
structure ExportedTask.Projected (t : ExportedTask) : Prop where
  state_mem : t.state ∈ exportedStates
  releaseState_mem : t.currentReleaseState ∈ exportedStates
  trusted_eq : t.historicalTrusted = t.complete
  commit_isHex : ∀ commit ∈ t.verifiedSourceCommit, Hex.isHex 40 commit = true
  id_printable : t.id.toList.any JsText.isControl = false

theorem text_mem_exportedStates (state : TaskState) : state.text ∈ exportedStates := by
  cases state <;> decide

theorem isControl_of_isDigit {c : Char} (h : Hex.isDigit c = true) :
    JsText.isControl c = false := by
  simp only [Hex.isDigit, Bool.or_eq_true, Bool.and_eq_true, decide_eq_true_eq] at h
  have hge : 48 ≤ c.toNat := by
    rcases h with ⟨h0, -⟩ | ⟨ha, -⟩
    · exact h0
    · exact le_trans (by decide) (show 'a'.toNat ≤ c.toNat from ha)
  simp only [JsText.isControl, Bool.and_eq_false_iff, decide_eq_false_iff_not, not_lt]
  exact .inl (.inl (.inl (by omega)))

theorem publicAlias_printable {kind : String} (hkind : kind.toList.any JsText.isControl = false)
    (value : String) (secret : Option Hasher) :
    (publicAlias kind value secret).toList.any JsText.isControl = false := by
  cases secret with
  | none =>
    rw [publicAlias, String.toList_append, List.any_append, hkind]
    decide
  | some hmac =>
    have hhex := hmac.hex (Utf8.encode (kind.toList ++ Char.ofNat 0 :: value.toList))
    simp only [Hex.isHex, Bool.and_eq_true] at hhex
    simp only [publicAlias, String.toList_append, List.any_append, hkind, String.toList_ofList,
      Bool.or_eq_false_iff]
    refine ⟨⟨trivial, by decide⟩, List.any_eq_false.mpr fun c hc => ?_⟩
    rw [isControl_of_isDigit (List.all_eq_true.mp hhex.2 c (List.mem_of_mem_take hc))]
    exact Bool.false_ne_true

theorem publicTaskId_printable (value : String) (secret : Option Hasher) :
    (publicTaskId value secret).toList.any JsText.isControl = false := by
  have hlabels : ∀ label ∈ publicTaskLabels, label.toList.any JsText.isControl = false := by decide
  rw [publicTaskId]
  by_cases hlabel : String.ofList ((if value = "" then "unknown" else value).toList.take 128) ∈
      publicTaskLabels
  · rw [if_pos hlabel]
    exact hlabels _ hlabel
  · rw [if_neg hlabel]
    exact publicAlias_printable (by decide) _ secret

theorem projected_exportTask (secret : Option Hasher) (currentCommit : Option String)
    (now : String) (evidence : RawTask → Option Authoritative) (task : RawTask) :
    (exportTask secret currentCommit now evidence task).Projected := by
  have hprintable := publicTaskId_printable task.id secret
  have hstate := text_mem_exportedStates task.state
  have hdisputed : "verification_disputed" ∈ exportedStates := by decide
  by_cases hopen : task.state ≠ .verified ∧ task.state ≠ .archived
  · have htrust : taskTrustProjection task.state currentCommit (evidence task) =
        ⟨task.state.text, task.state.text, false, none, task.state.text, false⟩ := if_pos hopen
    have hcomplete : (task.state.text == "verified" || task.state.text == "archived") = false := by
      revert hopen
      cases task.state <;> decide
    constructor <;> simp only [exportTask, htrust]
    · exact hstate
    · exact hstate
    · exact hcomplete.symm
    · simp
    · exact hprintable
  · have hcomplete : (task.state.text == "verified" || task.state.text == "archived") = true := by
      revert hopen
      cases task.state <;> decide
    cases hevidence : evidence task with
    | none =>
      have htrust : taskTrustProjection task.state currentCommit none =
          ⟨task.state.text, "verification_disputed", false, none, "verification_disputed",
            false⟩ := if_neg hopen
      constructor <;> simp only [exportTask, hevidence, htrust]
      · exact hdisputed
      · exact hdisputed
      · rfl
      · simp
      · exact hprintable
    | some authoritative =>
      cases hrestated : authoritative.restatedStatus with
      | some status =>
        have htrust : taskTrustProjection task.state currentCommit (some authoritative) =
            ⟨task.state.text, status.text, false, none, status.text, false⟩ := by
          rw [taskTrustProjection, if_neg hopen]
          simp only [hrestated]
        have hmem : status.text ∈ exportedStates := by cases status <;> decide
        constructor <;> simp only [exportTask, hevidence, htrust]
        · exact hmem
        · exact hmem
        · cases status <;> rfl
        · simp
        · exact hprintable
      | none =>
        have htrust : taskTrustProjection task.state currentCommit (some authoritative) =
            ⟨task.state.text, task.state.text, true, some authoritative.sourceCommit,
              if (currentCommit.any fun commit => commit.toLower == authoritative.sourceCommit)
                then task.state.text else "verification_disputed",
              currentCommit.any fun commit => commit.toLower == authoritative.sourceCommit⟩ := by
          rw [taskTrustProjection, if_neg hopen]
          simp only [hrestated]
        constructor <;> simp only [exportTask, hevidence, htrust]
        · exact hstate
        · split
          · exact hstate
          · exact hdisputed
        · exact hcomplete.symm
        · simpa using authoritative.isHex
        · exact hprintable

/-! ## `tasks_summary` -/

/-- What one task adds to a counter. -/
def ExportedTask.gain (t : ExportedTask) (field : String) : ℕ :=
  ((if t.complete then "trusted_verified" else t.state) == field).toNat +
    (t.currentReleaseValidated && "current_release_validated" == field).toNat

/-- The counter that the validator arrives at. -/
def tally (tasks : List ExportedTask) (field : String) : ℕ := (tasks.map (·.gain field)).sum

theorem bump_eq (c : Counters) (field : String) :
    c.bump field = c.map fun p => (p.1, p.2 + (field == p.1).toNat) := by
  refine List.map_congr_left fun p _ => ?_
  rw [Bool.beq_comm (a := field)]
  cases p.1 == field <;> rfl

theorem bumpIf_eq (c : Counters) (field : String) (b : Bool) :
    (if c.has field && b then c.bump field else c) =
      c.map fun p => (p.1, p.2 + (b && field == p.1).toNat) := by
  cases b with
  | false => simp
  | true =>
    cases hhas : c.has field with
    | true => simpa using bump_eq c field
    | false =>
      -- no counter has the name, so nothing is added on either side
      have hnone : ∀ p ∈ c, (field == p.1) = false := by
        intro p hp
        rw [Bool.beq_comm (a := field)]
        exact Bool.eq_false_iff.mpr (List.any_eq_false.mp hhas p hp)
      have hmap : (c.map fun p => (p.1, p.2 + (true && field == p.1).toNat)) = c.map id := by
        refine List.map_congr_left fun p hp => ?_
        rw [hnone p hp]
        rfl
      rw [hmap, List.map_id]
      rfl

theorem projectTask_toJs (c : Counters) (t : ExportedTask) :
    projectTask c t.toJs = c.map fun p => (p.1, p.2 + t.gain p.1) := by
  have hstate : t.toJs.get "state" = .str t.state := rfl
  have hvalidated : t.toJs.get "current_release_validated" = .bool t.currentReleaseValidated := rfl
  have hcomplete : isComplete (.str t.state) = t.complete := rfl
  have htask : projectTask c t.toJs =
      if (c.bump (if t.complete then "trusted_verified" else t.state)).has
          "current_release_validated" && t.currentReleaseValidated then
        (c.bump (if t.complete then "trusted_verified" else t.state)).bump
          "current_release_validated"
      else c.bump (if t.complete then "trusted_verified" else t.state) := by
    rw [projectTask, hstate, hvalidated]
    simp only [hcomplete]
    cases t.complete <;> rfl
  rw [htask, bumpIf_eq, bump_eq, List.map_map]
  refine List.map_congr_left fun p _ => ?_
  show (p.1, _ + _ + _) = (p.1, _ + (_ + _))
  rw [add_assoc]

theorem foldl_projectTask (tasks : List ExportedTask) (c : Counters) :
    (tasks.map ExportedTask.toJs).foldl projectTask c =
      c.map fun p => (p.1, p.2 + tally tasks p.1) := by
  induction tasks generalizing c with
  | nil => simp [tally]
  | cons t tasks ih =>
    rw [List.map_cons, List.foldl_cons, projectTask_toJs, ih, List.map_map]
    refine List.map_congr_left fun p _ => ?_
    simp only [Function.comp_apply, tally, List.map_cons, List.sum_cons, add_assoc]

/-- A counter that goes up with a property of the tasks counts the tasks that have it. -/
theorem tally_eq_countP {tasks : List ExportedTask} {field : String} {p : ExportedTask → Bool}
    (h : ∀ t ∈ tasks, t.gain field = (p t).toNat) : tally tasks field = tasks.countP p := by
  induction tasks with
  | nil => rfl
  | cons t tasks ih =>
    have ht := h t List.mem_cons_self
    have hrest := ih fun u hu => h u (List.mem_cons_of_mem _ hu)
    simp only [tally] at hrest
    rw [tally, List.map_cons, List.sum_cons, hrest, ht, List.countP_cons, add_comm]
    cases p t <;> rfl

/-- The states that a summary counts by name. -/
def countedStates : List String :=
  ["pending", "claimed", "running", "blocked", "submitted", "verification_disputed",
    "verification_revoked", "rejected"]

section Summary

variable {tasks : List ExportedTask}

theorem tally_state {state : String} (h : state ∈ countedStates) :
    tally tasks state = tasks.countP (·.state == state) := by
  refine tally_eq_countP fun t _ => ?_
  have hfields : ("trusted_verified" == state) = false ∧
      ("current_release_validated" == state) = false ∧ ("verified" == state) = false ∧
      ("archived" == state) = false := by
    simp only [countedStates, List.mem_cons, List.not_mem_nil, or_false] at h
    rcases h with rfl | rfl | rfl | rfl | rfl | rfl | rfl | rfl <;> decide
  obtain ⟨htrusted, hvalidated, hverified, harchived⟩ := hfields
  rw [ExportedTask.gain, hvalidated, Bool.and_false, Bool.toNat_false, add_zero]
  cases hcomplete : t.complete with
  | false => rfl
  | true =>
    have hne : (t.state == state) = false := by
      simp only [ExportedTask.complete, Bool.or_eq_true, beq_iff_eq] at hcomplete
      rcases hcomplete with h' | h' <;> rw [h'] <;> assumption
    rw [if_pos rfl, htrusted, hne]

/-- The name of a counter that is not a state. -/
theorem Projected.state_beq {t : ExportedTask} (h : t.Projected) {field : String}
    (hfield : field ∉ exportedStates) : (t.state == field) = false :=
  beq_eq_false_iff_ne.mpr fun heq => hfield (heq ▸ h.state_mem)

theorem tally_trusted (h : ∀ t ∈ tasks, t.Projected) :
    tally tasks "trusted_verified" = tasks.countP (·.historicalTrusted) := by
  refine tally_eq_countP fun t ht => ?_
  have hne := @Projected.state_beq t (h t ht) "trusted_verified" (by decide)
  have hfield : ("current_release_validated" == "trusted_verified") = false := by decide
  rw [(h t ht).trusted_eq, ExportedTask.gain, hfield, Bool.and_false, Bool.toNat_false, add_zero]
  cases t.complete with
  | false => rw [if_neg Bool.false_ne_true, hne]
  | true => rfl

theorem tally_validated (h : ∀ t ∈ tasks, t.Projected) :
    tally tasks "current_release_validated" = tasks.countP (·.currentReleaseValidated) := by
  refine tally_eq_countP fun t ht => ?_
  have hne := @Projected.state_beq t (h t ht) "current_release_validated" (by decide)
  have hfield : ("trusted_verified" == "current_release_validated") = false := by decide
  rw [ExportedTask.gain, beq_self_eq_true, Bool.and_true]
  cases t.complete with
  | false => rw [if_neg Bool.false_ne_true, hne, Bool.toNat_false, zero_add]
  | true => rw [if_pos rfl, hfield, Bool.toNat_false, zero_add]

/-- The counters of a published summary are the ones that the validator arrives at. -/
theorem get_taskSummary (h : ∀ t ∈ tasks, t.Projected) {field : String}
    (hfield : field ∈ "trusted_verified" :: "current_release_validated" :: countedStates) :
    (taskSummary tasks).get field = count (tally tasks field) := by
  have hstates : ∀ state ∈ countedStates,
      (taskSummary tasks).get state = count (tasks.countP (·.state == state)) := by
    intro state hstate
    simp only [countedStates, List.mem_cons, List.not_mem_nil, or_false] at hstate
    rcases hstate with rfl | rfl | rfl | rfl | rfl | rfl | rfl | rfl <;> rfl
  rcases List.mem_cons.mp hfield with rfl | hfield
  · rw [tally_trusted h]
    rfl
  rcases List.mem_cons.mp hfield with rfl | hfield
  · rw [tally_validated h]
    rfl
  · rw [hstates _ hfield, tally_state hfield]

/-- The completion is halfway between two tenths of a percent, above an even one. -/
def CompletionTie (tasks : List ExportedTask) : Prop :=
  ∃ m : ℤ, (tasks.countP (·.historicalTrusted) : ℚ) / tasks.length * 1000 = 2 * m + 1 / 2

theorem validateTasksSummary_iff {payload : Js}
    (htasks : payload.get "tasks" = .arr (tasks.map ExportedTask.toJs))
    (hsummary : payload.get "tasks_summary" = taskSummary tasks)
    (h : ∀ t ∈ tasks, t.Projected) :
    validateTasksSummary true true payload = .ok () ↔ ¬CompletionTie tasks := by
  have hget : ∀ field ∈ projectedFields ++ ["current_release_validated", "verification_revoked"],
      (taskSummary tasks).get field = count (tally tasks field) := fun field hfield =>
    get_taskSummary h (by
      have hsub : ∀ f ∈ projectedFields ++ ["current_release_validated", "verification_revoked"],
          f ∈ "trusted_verified" :: "current_release_validated" :: countedStates := by decide
      exact hsub field hfield)
  have hobject : requireObject (taskSummary tasks) "snapshot.tasks_summary" =
      .ok (taskSummary tasks) := rfl
  have hkeys : rejectUnexpectedKeys (taskSummary tasks) summaryKeys "snapshot.tasks_summary" =
      .ok () := rfl
  have htotal : (taskSummary tasks).get "total" = count tasks.length := rfl
  have hbasis : (taskSummary tasks).get "progress_basis" =
      .str "historically-trusted-ledger-task-states" := rfl
  have hcompletion : (taskSummary tasks).get "completion_percentage" =
      if tasks.length = 0 then .null
      else number (round (tasks.countP (·.historicalTrusted) / tasks.length * 100) 1) := rfl
  have htrusted : (taskSummary tasks).get "trusted_verified" =
      count (tasks.countP (·.historicalTrusted)) := rfl
  unfold validateTasksSummary
  dsimp only
  rw [htasks, hsummary, bind_iff_of_ok hobject, bind_iff_of_ok hkeys]
  have hnewer : newerFields true true (taskSummary tasks) =
      ["current_release_validated", "verification_revoked"] := rfl
  rw [hnewer]
  have hcounts : ("total" :: projectedFields ++
      ["current_release_validated", "verification_revoked"]).forM (fun field =>
        require (isCount ((taskSummary tasks).get field) = true)
          (error ("snapshot.tasks_summary." ++ field ++ " must be non-negative"))) = .ok () := by
    rw [forM_eq_ok_iff]
    intro field hfield
    rw [require_eq_ok]
    rcases List.mem_cons.mp hfield with rfl | hfield
    · rw [htotal, isCount_count]
    · rw [hget field hfield, isCount_count]
  have hprojected : ((tasks.map ExportedTask.toJs).foldl projectTask
      ((projectedFields ++ ["current_release_validated", "verification_revoked"]).map
        fun field => (field, 0))).forM (fun p =>
          require (((taskSummary tasks).get p.1).isInt p.2 = true)
            (error ("snapshot.tasks_summary." ++ p.1 ++ " does not match snapshot.tasks"))) =
      .ok () := by
    rw [forM_eq_ok_iff, foldl_projectTask, List.map_map]
    intro p hp
    obtain ⟨field, hfield, rfl⟩ := List.mem_map.mp hp
    rw [require_eq_ok]
    show ((taskSummary tasks).get field).isInt ((0 + tally tasks field : ℕ) : ℤ) = true
    rw [hget field hfield, zero_add, isInt_count]
  rw [bind_iff_of_ok hcounts, require_bind_eq_ok, and_iff_right (by
    rw [htotal, Js.asArr?, Option.getD_some, List.length_map]
    exact isInt_count _)]
  refine (bind_iff_of_ok hprojected).trans ?_
  rw [require_bind_eq_ok, and_iff_right (by rw [hbasis]; rfl), hcompletion]
  by_cases hempty : tasks.length = 0
  · -- there is no completion of no tasks
    rw [if_pos hempty]
    refine iff_of_true rfl ?_
    rintro ⟨m, hm⟩
    rw [hempty, Nat.cast_zero, div_zero, zero_mul] at hm
    have hzero : (4 : ℚ) * m = ((-1 : ℤ) : ℚ) := by push_cast; linarith
    have hzero' : 4 * m = -1 := by exact_mod_cast hzero
    omega
  · have hpos : (0 : ℚ) < tasks.length := by exact_mod_cast Nat.pos_of_ne_zero hempty
    have hle : (tasks.countP (·.historicalTrusted) : ℚ) ≤ tasks.length := by
      exact_mod_cast List.countP_le_length
    have hpercent := round_percent_mem (Nat.cast_nonneg _) hpos hle
    have hsummed : (((taskSummary tasks).get "trusted_verified").asNum?.bind JsNum.finite?).getD 0 =
        (tasks.countP (·.historicalTrusted) : ℚ) := by rw [htrusted]; rfl
    rw [if_neg hempty, if_neg (by exact Bool.false_ne_true), requireFiniteNumber_bind_iff,
      and_iff_right hpercent, hsummed, require_eq_ok, Js.asArr?, Option.getD_some,
      List.length_map, and_iff_right hempty, abs_round_sub_percentOf_le_iff]
    rfl

end Summary

/-! ## `roadmap` -/

theorem isIn_str {s : String} {texts : List String} (h : s ∈ texts) :
    (Js.str s).isIn texts = true := by simpa [Js.isIn, Js.asStr?] using h

theorem same_str (s : String) : same (.str s) (.str s) = true := beq_self_eq_true s

theorem same_bool (b : Bool) : same (.bool b) (.bool b) = true := by cases b <;> rfl

theorem same_optional (value : Option String) : same (optional value) (optional value) = true := by
  cases value with
  | none => rfl
  | some s => exact same_str s

theorem phaseContracts_canonical : ∀ p ∈ phaseContracts.zipIdx,
    p.1.prerequisites = (if p.2 = 0 then [] else [roadmapPhaseIds.getD (p.2 - 1) ""]) ∧
      1 ≤ JsText.length p.1.title ∧ JsText.length p.1.title ≤ 1024 ∧
      p.1.title.toList.any JsText.isControl = false := by decide

section Roadmap

variable {tasks : List ExportedTask}

/-- The task that the validator finds for a phase is the one that the publisher projected. -/
theorem taskById_map (id : String) :
    taskById (tasks.map ExportedTask.toJs) id =
      (tasks.reverse.find? (·.id == id)).map ExportedTask.toJs := by
  rw [taskById, ← List.map_reverse, List.find?_map]
  rfl

theorem validatePhase_ok (h : ∀ t ∈ tasks, t.Projected) {contract : PhaseContract} {index : ℕ}
    (hcontract : (contract, index) ∈ phaseContracts.zipIdx) :
    validatePhase true (tasks.map ExportedTask.toJs) index contract.id
      (Phase.mk contract (tasks.reverse.find? (·.id == contract.id))).toJs = .ok () := by
  obtain ⟨hprerequisites, htitle⟩ := phaseContracts_canonical _ hcontract
  have htask : ∀ t ∈ tasks.reverse.find? (·.id == contract.id), t.Projected := fun t ht =>
    h t (List.mem_reverse.mp (List.mem_of_find?_eq_some ht))
  have hbyId := @taskById_map tasks contract.id
  revert htask hbyId
  generalize hfound : tasks.reverse.find? (·.id == contract.id) = found
  intro htask hbyId
  set phase := Phase.mk contract found with hphase
  have hstates : ∀ s ∈ exportedStates, s ∈ taskStates := by decide
  have hstate : phase.state ∈ "missing" :: taskStates := by
    cases found with
    | none => exact List.mem_cons_self
    | some t => exact List.mem_cons_of_mem _ (hstates _ (htask t rfl).state_mem)
  have hrelease : phase.currentReleaseState ∈ "missing" :: taskStates := by
    cases found with
    | none => exact List.mem_cons_self
    | some t => exact List.mem_cons_of_mem _ (hstates _ (htask t rfl).releaseState_mem)
  have hcommit : ((optional (found.bind (·.verifiedSourceCommit))).isNullish ||
      isCommit (optional (found.bind (·.verifiedSourceCommit)))) = true := by
    cases hfoundCommit : found.bind (·.verifiedSourceCommit) with
    | none => rfl
    | some commit =>
      obtain ⟨t, ht, hcommit⟩ := Option.bind_eq_some_iff.mp hfoundCommit
      exact (htask t ht).commit_isHex commit hcommit
  have hfields : taskField (found.map ExportedTask.toJs) "state" (.str "missing") =
        .str phase.state ∧
      taskField (found.map ExportedTask.toJs) "current_release_state" (.str "missing") =
        .str phase.currentReleaseState ∧
      (taskField (found.map ExportedTask.toJs) "current_release_validated" (.bool false)).truthy =
        phase.currentReleaseValidated ∧
      (taskField (found.map ExportedTask.toJs) "verified_source_commit" .null).orNull =
        optional (found.bind (·.verifiedSourceCommit)) := by
    cases found with
    | none => exact ⟨rfl, rfl, rfl, rfl⟩
    | some t =>
      refine ⟨rfl, rfl, rfl, ?_⟩
      show (optional t.verifiedSourceCommit).orNull = optional t.verifiedSourceCommit
      cases t.verifiedSourceCommit <;> rfl
  obtain ⟨htaskState, htaskRelease, htaskValidated, htaskCommit⟩ := hfields
  have hget : phase.toJs.get "verified_source_commit" =
      optional (found.bind (·.verifiedSourceCommit)) := rfl
  have hitems : (phase.toJs.get "prerequisites").asArr?.map (fun items => items.map Js.asStr?) =
      some (contract.prerequisites.map some) := by
    show some ((contract.prerequisites.map Js.str).map Js.asStr?) = _
    rw [List.map_map]
    rfl
  unfold validatePhase
  dsimp only
  rw [hbyId, htaskState, htaskRelease, htaskValidated, hget, htaskCommit, hitems, hprerequisites]
  refine (bind_iff_of_ok rfl).mpr ?_
  refine (bind_iff_of_ok rfl).mpr ?_
  refine require_bind_eq_ok.mpr ⟨beq_self_eq_true _, ?_⟩
  refine (bind_iff_of_ok (requireString_eq_ok.mpr ⟨rfl, htitle⟩)).mpr ?_
  refine require_bind_eq_ok.mpr ⟨isIn_str hstate, ?_⟩
  refine require_bind_eq_ok.mpr ⟨rfl, ?_⟩
  refine require_bind_eq_ok.mpr ⟨hcommit, ?_⟩
  refine require_bind_eq_ok.mpr ⟨fun _ => isIn_str hrelease, ?_⟩
  refine require_bind_eq_ok.mpr ⟨fun _ => rfl, ?_⟩
  refine require_bind_eq_ok.mpr ⟨rfl, ?_⟩
  refine require_bind_eq_ok.mpr ⟨same_str _, ?_⟩
  refine require_bind_eq_ok.mpr ⟨fun _ => same_str _, ?_⟩
  refine require_bind_eq_ok.mpr ⟨fun _ => same_bool _, ?_⟩
  refine require_bind_eq_ok.mpr ⟨fun _ => same_optional _, ?_⟩
  exact require_eq_ok.mpr (same_bool _)

/-- A count of phases is never halfway between two tenths of a percent. -/
theorem not_roadmap_tie (n : ℕ) : ¬∃ m : ℤ, (n : ℚ) / (11 : ℕ) * 1000 = 2 * m + 1 / 2 := by
  rintro ⟨m, hm⟩
  have hcleared : (2000 : ℚ) * n = 44 * m + 11 := by
    push_cast at hm
    linarith
  have hcleared' : (2000 : ℤ) * n = 44 * m + 11 := by exact_mod_cast hcleared
  omega

theorem validateRoadmap_ok {payload : Js}
    (htasks : payload.get "tasks" = .arr (tasks.map ExportedTask.toJs))
    (hroadmap : payload.get "roadmap" = roadmapSnapshot tasks) (h : ∀ t ∈ tasks, t.Projected) :
    validateRoadmap true payload = .ok () := by
  have hlength : (roadmapPhases tasks).length = 11 := by simp [roadmapPhases, phaseContracts]
  have hids : roadmapPhaseIds = phaseContracts.map (·.id) := by decide
  have hphases : (roadmapSnapshot tasks).get "phases" =
      .arr ((roadmapPhases tasks).map Phase.toJs) := rfl
  have hcomplete : ((roadmapPhases tasks).map Phase.toJs).countP
      (fun phase => isComplete (phase.get "state")) =
      (roadmapPhases tasks).countP (·.complete) := by
    rw [List.countP_map]
    rfl
  have hvalidated : ((roadmapPhases tasks).map Phase.toJs).countP
      (fun phase => (phase.get "current_release_validated").truthy) =
      (roadmapPhases tasks).countP (·.currentReleaseValidated) := by
    rw [List.countP_map]
    rfl
  have hloop : ((roadmapPhaseIds.zip ((roadmapPhases tasks).map Phase.toJs)).zipIdx).forM
      (fun p => validatePhase true (tasks.map ExportedTask.toJs) p.2 p.1.1 p.1.2) = .ok () := by
    rw [forM_eq_ok_iff, hids, roadmapPhases, List.map_map, List.zip_map', List.zipIdx_map]
    intro p hp
    obtain ⟨⟨contract, index⟩, hcontract, rfl⟩ := List.mem_map.mp hp
    exact validatePhase_ok h hcontract
  have hle : (roadmapPhases tasks).countP (·.complete) ≤ 11 := hlength ▸ List.countP_le_length
  have hvalidatedLe : (roadmapPhases tasks).countP (·.currentReleaseValidated) ≤ 11 :=
    hlength ▸ List.countP_le_length
  have hprogress : (roadmapSnapshot tasks).get "progress_percent" = number (round
      (((roadmapPhases tasks).countP (·.complete) : ℚ) / (11 : ℕ) * 100) 1) := by
    rw [← hlength, div_mul_eq_mul_div]
    rfl
  have hpercent := @round_percent_mem _ (11 : ℕ) (Nat.cast_nonneg _) (by norm_num)
    (Nat.cast_le.mpr hle)
  unfold validateRoadmap
  dsimp only
  have hobject : requireObject (roadmapSnapshot tasks) "snapshot.roadmap" =
      .ok (roadmapSnapshot tasks) := rfl
  rw [htasks, hroadmap, bind_iff_of_ok hobject, hphases, hprogress]
  refine (bind_iff_of_ok rfl).mpr ?_
  refine require_bind_eq_ok.mpr ⟨isInt_count 1, ?_⟩
  refine require_bind_eq_ok.mpr ⟨isInt_count 11, ?_⟩
  refine require_bind_eq_ok.mpr ⟨isPhaseCount_count hle, ?_⟩
  refine require_bind_eq_ok.mpr ⟨fun _ => isPhaseCount_count hvalidatedLe, ?_⟩
  refine require_bind_eq_ok.mpr ⟨rfl, ?_⟩
  refine require_bind_eq_ok.mpr ⟨by
    rw [Js.asArr?, Option.getD_some, List.length_map, hlength]
    rfl, ?_⟩
  refine (bind_iff_of_ok hloop).mpr ?_
  refine require_bind_eq_ok.mpr ⟨?_, ?_⟩
  · show (count _).isInt _ = true
    rw [Js.asArr?, Option.getD_some, hcomplete, isInt_count]
  refine require_bind_eq_ok.mpr ⟨fun _ => ?_, ?_⟩
  · show (count _).isInt _ = true
    rw [Js.asArr?, Option.getD_some, hvalidated, isInt_count]
  rw [requireFiniteNumber_bind_iff, require_eq_ok, Js.asArr?, Option.getD_some, hcomplete]
  exact ⟨hpercent, (abs_round_sub_percentOf_le_iff _ _).mpr (not_roadmap_tie _)⟩

end Roadmap

/-! ## `resources` -/

theorem round_two (q : ℚ) : round q 2 = halfEven (q * 100) / 100 := by
  norm_num [round]

namespace Reading

/-- The total in hundredths of a GiB is in the bounds of the validator, and the percentage of the
two rounded sizes is at most 0.2 away from the percentage of the exact ones. -/
structure Fits (r : Reading) : Prop where
  total_pos : 2 ^ 30 < 200 * r.total
  total_le : 200 * r.total ≤ 209715201 * 2 ^ 30
  percent_near : |halfEven (1000 * r.used / r.total) -
    halfUp (1000 * halfEven (100 * r.used / 2 ^ 30) / halfEven (100 * r.total / 2 ^ 30))| ≤ 2

variable {r : Reading}

theorem one_le_halfEven_iff (n : ℕ) :
    1 ≤ halfEven (100 * n / 2 ^ 30) ↔ 2 ^ 30 < 200 * n := by
  rw [← not_lt, Int.lt_iff_add_one_le, add_le_iff_nonpos_left,
    halfEven_le_iff_of_even (by decide), Int.cast_zero, zero_add, not_le,
    lt_div_iff₀ (by positivity)]
  constructor
  · intro h
    have hq : (2 ^ 30 : ℚ) < 200 * n := by linarith
    exact_mod_cast hq
  · intro h
    have hq : (2 ^ 30 : ℚ) < 200 * n := by exact_mod_cast h
    linarith

theorem halfEven_le_iff (n : ℕ) :
    halfEven (100 * n / 2 ^ 30) ≤ 104857600 ↔ 200 * n ≤ 209715201 * 2 ^ 30 := by
  rw [halfEven_le_iff_of_even (by decide), div_le_iff₀ (by positivity)]
  constructor
  · intro h
    have hq : (200 * n : ℚ) ≤ 209715201 * 2 ^ 30 := by
      push_cast at h
      linarith
    exact_mod_cast hq
  · intro h
    have hq : (200 * n : ℚ) ≤ 209715201 * 2 ^ 30 := by exact_mod_cast h
    push_cast
    linarith

theorem validateResourceUsage_iff (name : String) :
    validateResourceUsage r.toJs name = .ok () ↔ r.Fits := by
  have hpos : 0 < r.total := lt_of_lt_of_le (by norm_num) r.mebibyte_le
  have hused : r.toJs.get "used_gib" = number (round (r.used / 1024 ^ 3) 2) := rfl
  have htotal : r.toJs.get "total_gib" = number (round (r.total / 1024 ^ 3) 2) := rfl
  have hpercent : r.toJs.get "percent" = number r.percent := by
    show (if r.total = 0 then Js.null else number r.percent) = _
    rw [if_neg hpos.ne']
  have hobject : requireObject r.toJs name = .ok r.toJs := rfl
  have hkeys : rejectUnexpectedKeys r.toJs ["used_gib", "total_gib", "percent"] name = .ok () := rfl
  have hle : (r.used : ℚ) ≤ r.total := by exact_mod_cast r.used_le
  -- the sizes in hundredths of a GiB and the percentage in tenths
  have hu : round (r.used / 1024 ^ 3) 2 = (halfEven (100 * r.used / 2 ^ 30) : ℚ) / 100 := by
    rw [round_two]
    congr 3
    ring
  have ht : round (r.total / 1024 ^ 3) 2 = (halfEven (100 * r.total / 2 ^ 30) : ℚ) / 100 := by
    rw [round_two]
    congr 3
    ring
  have hp : r.percent = (halfEven (1000 * r.used / r.total) : ℚ) / 10 := by
    rw [percent, round_one]
    congr 3
    ring
  have hbounds : 0 ≤ r.percent ∧ r.percent ≤ 100 :=
    round_percent_mem (Nat.cast_nonneg r.used) (by exact_mod_cast hpos) hle
  have hmono : halfEven (100 * r.used / 2 ^ 30) ≤ halfEven (100 * r.total / 2 ^ 30) :=
    halfEven_mono (by gcongr)
  have hnonneg : 0 ≤ halfEven (100 * r.used / 2 ^ 30 : ℚ) := by
    have h := halfEven_mono (a := ((0 : ℤ) : ℚ)) (b := 100 * r.used / 2 ^ 30) (by positivity)
    rwa [halfEven_intCast] at h
  have hof : ∀ u t : ℤ, percentOf ((u : ℚ) / 100) (t / 100) = (halfUp (1000 * u / t) : ℚ) / 10 := by
    intro u t
    rw [percentOf, mathRound, div_div_div_cancel_right₀ (by norm_num), div_mul_eq_mul_div,
      mul_comm]
  unfold validateResourceUsage
  rw [if_neg (by exact Bool.false_ne_true), bind_iff_of_ok hobject, bind_iff_of_ok hkeys, hused,
    htotal, hpercent, requireFiniteNumber_bind_iff, requireFiniteNumber_bind_iff,
    requireFiniteNumber_bind_iff, require_bind_eq_ok, require_eq_ok, and_iff_right hbounds, hu, ht,
    hp, hof, hundredths_bounds_iff, abs_fifth_le_iff]
  have hmono' : (halfEven (100 * r.used / 2 ^ 30) : ℚ) ≤ halfEven (100 * r.total / 2 ^ 30) := by
    exact_mod_cast hmono
  have hnonneg' : (0 : ℚ) ≤ halfEven (100 * r.used / 2 ^ 30 : ℚ) := by exact_mod_cast hnonneg
  constructor
  · rintro ⟨-, ⟨hone, hmax⟩, -, hnear⟩
    exact ⟨(one_le_halfEven_iff _).mp hone, (halfEven_le_iff _).mp hmax, hnear⟩
  · rintro ⟨hone, hmax, hnear⟩
    have hmax := (halfEven_le_iff _).mpr hmax
    have hmax' : (halfEven (100 * r.total / 2 ^ 30) : ℚ) ≤ 104857600 := by exact_mod_cast hmax
    exact ⟨⟨by linarith, by linarith⟩, ⟨(one_le_halfEven_iff _).mpr hone, hmax⟩, by linarith,
      hnear⟩

/-- From ten GiB on, the rounding of the sizes cannot move the percentage by more than 0.2. -/
theorem fits_of_large (hlow : 10 * 2 ^ 30 ≤ r.total) (hhigh : r.total ≤ 2 ^ 50) : r.Fits := by
  refine ⟨by omega, by omega, ?_⟩
  set a : ℚ := 100 * r.used / 2 ^ 30 with ha
  set b : ℚ := 100 * r.total / 2 ^ 30 with hb
  have hle : (r.used : ℚ) ≤ r.total := by exact_mod_cast r.used_le
  have hb1000 : 1000 ≤ b := by
    have hcast : (10 * 2 ^ 30 : ℚ) ≤ r.total := by exact_mod_cast hlow
    rw [hb, le_div_iff₀ (by positivity)]
    linarith
  have ha0 : 0 ≤ a := by positivity
  have hab : a ≤ b := by
    rw [ha, hb]
    gcongr
  have hratio : 1000 * r.used / r.total = 1000 * (a / b) := by
    have htotal : (r.total : ℚ) ≠ 0 := by
      have hpos : (0 : ℚ) < r.total := by exact_mod_cast (by omega : 0 < r.total)
      exact hpos.ne'
    rw [ha, hb]
    field_simp
  have hu := halfEven_near a
  have ht := halfEven_near b
  set u : ℤ := halfEven a
  set t : ℤ := halfEven b
  have ht1000 : (1000 : ℚ) ≤ t := by
    have h := halfEven_mono (a := ((1000 : ℤ) : ℚ)) (b := b) (by exact_mod_cast hb1000)
    rw [halfEven_intCast] at h
    exact_mod_cast h
  have htpos : (0 : ℚ) < t := by linarith
  have hbpos : 0 < b := by linarith
  -- the two ratios are at most one thousandth apart
  have hcross : |u * b - a * t| ≤ b := by
    have hsplit : u * b - a * t = (u - a) * b + a * (b - t) := by ring
    have hfirst : |(u - a) * b| ≤ 1 / 2 * b := by
      rw [abs_mul, abs_of_pos hbpos]
      exact mul_le_mul_of_nonneg_right (abs_le.mpr ⟨by linarith, by linarith⟩) hbpos.le
    have hsecond : |a * (b - t)| ≤ b * (1 / 2) := by
      rw [abs_mul, abs_of_nonneg ha0]
      exact mul_le_mul hab (abs_le.mpr ⟨by linarith, by linarith⟩) (abs_nonneg _) hbpos.le
    calc |u * b - a * t| = |(u - a) * b + a * (b - t)| := by rw [hsplit]
      _ ≤ |(u - a) * b| + |a * (b - t)| := abs_add_le _ _
      _ ≤ b := by linarith
  have hclose : |(u : ℚ) / t - a / b| ≤ 1 / 1000 := by
    rw [div_sub_div _ _ htpos.ne' hbpos.ne', abs_div, abs_of_pos (mul_pos htpos hbpos),
      div_le_iff₀ (mul_pos htpos hbpos)]
    have hcomm : |(u : ℚ) * b - t * a| ≤ b := by rwa [mul_comm (t : ℚ) a]
    nlinarith
  have hp := halfEven_near (1000 * (a / b))
  have hq := halfUp_near (1000 * (u / t))
  rw [abs_le] at hclose
  rw [hratio, mul_div_assoc]
  set p : ℤ := halfEven (1000 * (a / b))
  set q : ℤ := halfUp (1000 * ((u : ℚ) / t))
  have hupper : (p : ℚ) - q ≤ 2 := by linarith
  have hlower : (-2 : ℚ) ≤ p - q := by linarith
  rw [abs_le]
  exact ⟨by exact_mod_cast hlower, by exact_mod_cast hupper⟩

end Reading

/-- The readings of the host pass the bounds of the validator. -/
structure Host.Fits (host : Host) : Prop where
  disk : host.disk.Fits
  memory : ∀ r ∈ host.memory, r.Fits
  loadAverage : ∀ q ∈ host.loadAverage, (q : ℚ) ≤ 100000 + 1 / 200
  uptimeSeconds : ∀ n ∈ host.uptimeSeconds, n ≤ 100 * 365 * 24 * 60 * 60

theorem validateOptionalNumber_iff {q min max : ℚ} (name : String) :
    validateOptionalNumber (number q) name min max = .ok () ↔ min ≤ q ∧ q ≤ max := by
  unfold validateOptionalNumber
  rw [if_neg (by exact Bool.false_ne_true), requireFiniteNumber_bind_iff, and_iff_left rfl]

theorem round_load_iff (q : ℚ≥0) : 0 ≤ round q 2 ∧ round q 2 ≤ 100000 ↔
    (q : ℚ) ≤ 100000 + 1 / 200 := by
  have hnonneg : 0 ≤ halfEven ((q : ℚ) * 100) := by
    have h := halfEven_mono (a := ((0 : ℤ) : ℚ)) (b := (q : ℚ) * 100) (by
      have := q.coe_nonneg
      push_cast
      positivity)
    rwa [halfEven_intCast] at h
  have hnonneg' : (0 : ℚ) ≤ halfEven ((q : ℚ) * 100) := by exact_mod_cast hnonneg
  have hle := @halfEven_le_iff_of_even ((q : ℚ) * 100) 10000000 (by decide)
  have hcast : halfEven ((q : ℚ) * 100) ≤ 10000000 ↔
      (halfEven ((q : ℚ) * 100) : ℚ) ≤ 10000000 := by exact_mod_cast Iff.rfl
  rw [round_two]
  constructor
  · rintro ⟨-, h⟩
    have h := hle.mp (hcast.mpr (by linarith))
    push_cast at h
    linarith
  · intro h
    have h := hcast.mp (hle.mpr (by push_cast; linarith))
    constructor <;> linarith

theorem validateResources_iff {payload : Js} {host : Host}
    (hresources : payload.get "resources" = collectResources host) :
    validateResources payload = .ok () ↔ host.Fits := by
  have hobject : requireObject (collectResources host) "snapshot.resources" =
      .ok (collectResources host) := rfl
  have hkeys : rejectUnexpectedKeys (collectResources host)
      ["memory", "disk", "load_average_1m", "uptime_seconds"] "snapshot.resources" = .ok () := rfl
  have hdisk : (collectResources host).get "disk" = host.disk.toJs := rfl
  have hmemory : (collectResources host).get "memory" =
      (host.memory.map Reading.toJs).getD .null := rfl
  have hload : (collectResources host).get "load_average_1m" =
      (host.loadAverage.map fun q : ℚ≥0 => number (round q 2)).getD .null := rfl
  have huptime : (collectResources host).get "uptime_seconds" =
      (host.uptimeSeconds.map count).getD .null := rfl
  have hmemoryIff : validateResourceUsage ((host.memory.map Reading.toJs).getD .null)
      "snapshot.resources.memory" = .ok () ↔ ∀ r ∈ host.memory, r.Fits := by
    cases host.memory with
    | none => exact iff_of_true rfl (by simp)
    | some r => simpa using Reading.validateResourceUsage_iff _
  have hloadIff : validateOptionalNumber
      ((host.loadAverage.map fun q : ℚ≥0 => number (round q 2)).getD .null)
      "snapshot.resources.load_average_1m" 0 100000 = .ok () ↔
        ∀ q ∈ host.loadAverage, (q : ℚ) ≤ 100000 + 1 / 200 := by
    cases host.loadAverage with
    | none => exact iff_of_true rfl (by simp)
    | some q => simpa using (validateOptionalNumber_iff _).trans (round_load_iff q)
  have huptimeIff : validateOptionalNumber ((host.uptimeSeconds.map count).getD .null)
      "snapshot.resources.uptime_seconds" 0 (100 * 365 * 24 * 60 * 60) = .ok () ↔
        ∀ n ∈ host.uptimeSeconds, n ≤ 100 * 365 * 24 * 60 * 60 := by
    cases host.uptimeSeconds with
    | none => exact iff_of_true rfl (by simp)
    | some n =>
      have hcast : (0 : ℚ) ≤ n ∧ (n : ℚ) ≤ 100 * 365 * 24 * 60 * 60 ↔
          n ≤ 100 * 365 * 24 * 60 * 60 := by
        rw [and_iff_right (Nat.cast_nonneg n)]
        exact_mod_cast Iff.rfl
      simpa [count] using (validateOptionalNumber_iff _).trans hcast
  unfold validateResources
  rw [hresources, bind_iff_of_ok hobject, bind_iff_of_ok hkeys, hdisk, hmemory, hload, huptime]
  simp only [bind_eq_ok, hloadIff, huptimeIff]
  constructor
  · rintro ⟨⟨⟩, hm, ⟨⟩, hd, ⟨⟩, hl, hu⟩
    exact ⟨(Reading.validateResourceUsage_iff _).mp hd, hmemoryIff.mp hm, hl, hu⟩
  · rintro ⟨hd, hm, hl, hu⟩
    exact ⟨(), hmemoryIff.mpr hm, (), (Reading.validateResourceUsage_iff _).mpr hd, (), hl, hu⟩

/-! ## `alerts` -/

/-- A text that the validator takes as the message of an alert. -/
def MessageFits (message : String) : Prop :=
  1 ≤ JsText.length message ∧ JsText.length message ≤ 2048 ∧
    message.toList.any JsText.isControl = false

instance (message : String) : Decidable (MessageFits message) := inferInstanceAs (Decidable (_ ∧ _))

/-- A text that the validator takes as a time. -/
def IsTime (rt : Runtime) (text : String) : Prop :=
  ∀ name, ∃ q, requireIsoTimestamp rt (.str text) name = .ok q

theorem validateAlert_iff {rt : Runtime} {observedAt severity code message : String} {index : ℕ}
    (htime : IsTime rt observedAt) (hseverity : severity ∈ ["info", "warning", "critical"])
    (hcode : isAlertCode code = true) (hbounds : 1 ≤ JsText.length code ∧
      JsText.length code ≤ 128 ∧ code.toList.any JsText.isControl = false) :
    validateAlert rt index (alert observedAt severity code message) = .ok () ↔
      MessageFits message := by
  obtain ⟨q, hq⟩ := htime ("alerts[" ++ toString index ++ "]" ++ ".observed_at")
  unfold validateAlert
  dsimp only
  refine (bind_iff_of_ok rfl).trans ((bind_iff_of_ok rfl).trans ?_)
  refine require_bind_eq_ok.trans ((and_iff_right (isIn_str hseverity)).trans ?_)
  refine (bind_iff_of_ok (requireString_eq_ok.mpr ⟨rfl, hbounds⟩)).trans
    (require_bind_eq_ok.trans ((and_iff_right hcode).trans ?_))
  rw [bind_eq_ok]
  constructor
  · rintro ⟨m, hm, -⟩
    obtain ⟨heq, hfits⟩ := requireString_eq_ok.mp hm
    obtain rfl := Js.str.inj heq
    exact hfits
  · intro hfits
    exact ⟨message, requireString_eq_ok.mpr ⟨rfl, hfits⟩, (bind_iff_of_ok hq).mpr rfl⟩

/-- The names of the disputed tasks fit into one message. -/
def NamesFit (tasks : List ExportedTask) : Prop :=
  ((disputed tasks).map fun id => JsText.length id + 2).sum ≤ 2023

theorem length_append (s t : String) :
    JsText.length (s ++ t) = JsText.length s + JsText.length t := by
  rw [JsText.length, String.toList_append, List.map_append, List.sum_append]
  rfl

theorem length_intercalate (separator s : String) (texts : List String) :
    JsText.length (separator.intercalate (s :: texts)) =
      JsText.length s + (texts.map fun t => JsText.length t + JsText.length separator).sum := by
  induction texts generalizing s with
  | nil => simp
  | cons t texts ih =>
    rw [String.intercalate_cons_cons, length_append, length_append, ih, List.map_cons,
      List.sum_cons]
    omega

theorem printable_intercalate {separator : String} {texts : List String}
    (hseparator : separator.toList.any JsText.isControl = false)
    (h : ∀ t ∈ texts, t.toList.any JsText.isControl = false) :
    (separator.intercalate texts).toList.any JsText.isControl = false := by
  induction texts with
  | nil => rw [String.intercalate_nil]; rfl
  | cons s texts ih =>
    have hs := h s List.mem_cons_self
    have hrest := ih fun t ht => h t (List.mem_cons_of_mem _ ht)
    cases texts with
    | nil => rwa [String.intercalate_singleton]
    | cons t texts =>
      rw [String.intercalate_cons_cons]
      simp only [String.toList_append, List.any_append, hs, hseparator, hrest, Bool.or_false]

section Alerts

variable {tasks : List ExportedTask} {o : Observations}

theorem disputed_message_iff (h : ∀ t ∈ tasks, t.Projected) (hne : disputed tasks ≠ []) :
    MessageFits ("독립 재현 증거가 없는 VERIFIED 태스크: " ++ ", ".intercalate (disputed tasks)) ↔
      NamesFit tasks := by
  have hprintable : (", ".intercalate (disputed tasks)).toList.any JsText.isControl = false := by
    refine printable_intercalate (by decide) fun id hid => ?_
    obtain ⟨t, ht, rfl⟩ := List.mem_map.mp hid
    exact (h t (List.mem_filter.mp ht).1).id_printable
  have hstart : JsText.length "독립 재현 증거가 없는 VERIFIED 태스크: " = 27 := by decide
  have hcomma : JsText.length ", " = 2 := by decide
  rw [MessageFits, NamesFit, length_append, hstart, String.toList_append, List.any_append,
    hprintable]
  cases hids : disputed tasks with
  | nil => exact absurd hids hne
  | cons id ids =>
    rw [length_intercalate, hcomma, List.map_cons, List.sum_cons]
    have hfirst : ("독립 재현 증거가 없는 VERIFIED 태스크: ".toList.any JsText.isControl ||
      false) = false := by decide
    constructor
    · rintro ⟨-, hle, -⟩
      omega
    · intro hle
      exact ⟨by omega, by omega, hfirst⟩

theorem gpu_message_fits :
    MessageFits ("사용 금지 GPU가 활성 상태입니다: " ++
      ", ".intercalate (o.gpuViolations.map fun id => "GPU " ++ toString id)) := by
  have hall : ∀ ids ∈ gpuDeniedIds.sublists, MessageFits ("사용 금지 GPU가 활성 상태입니다: " ++
      ", ".intercalate (ids.map fun id => "GPU " ++ toString id)) := by decide
  exact hall _ (List.mem_sublists.mpr o.denied)

theorem disk_message_fits (disk : Reading) :
    MessageFits ("저장공간 사용률 " ++ decimalText disk.percent ++ "%") := by
  have hdigits : ∀ n < 101, JsText.length (toString n) ≤ 3 ∧
      (toString n).toList.any JsText.isControl = false := by decide
  have hpercent := round_percent_mem (Nat.cast_nonneg disk.used)
    (by exact_mod_cast lt_of_lt_of_le (by norm_num) disk.mebibyte_le)
    (Nat.cast_le.mpr disk.used_le)
  have htenths : (disk.percent * 10).floor.toNat ≤ 1000 := by
    rw [Int.toNat_le]
    have hle : disk.percent * 10 ≤ ((1000 : ℤ) : ℚ) := by
      have := hpercent.2
      rw [Reading.percent]
      push_cast
      linarith
    have hfloor : (disk.percent * 10).floor ≤ ((1000 : ℤ) : ℚ).floor := Rat.floor_monotone hle
    rwa [Rat.floor_intCast] at hfloor
  obtain ⟨hlow, hlowPrintable⟩ := hdigits ((disk.percent * 10).floor.toNat / 10) (by omega)
  obtain ⟨htenth, htenthPrintable⟩ := hdigits ((disk.percent * 10).floor.toNat % 10) (by omega)
  have hstart : JsText.length "저장공간 사용률 " = 9 := by decide
  have hstartPrintable : "저장공간 사용률 ".toList.any JsText.isControl = false := by decide
  have hrest : JsText.length "." = 1 ∧ JsText.length "%" = 1 := by decide
  have hrestPrintable : ".".toList.any JsText.isControl = false ∧
      "%".toList.any JsText.isControl = false := by decide
  unfold MessageFits decimalText
  dsimp only
  simp only [length_append, String.toList_append, List.any_append, hlowPrintable, htenthPrintable,
    hstart, hstartPrintable, hrest.1, hrest.2, hrestPrintable.1, hrestPrintable.2, Bool.or_false]
  exact ⟨by omega, by omega, trivial⟩

theorem forall_mem_alertIf {condition : Bool} {a : Js} {P : Js → Prop} :
    (∀ x ∈ alertIf condition a, P x) ↔ (condition = true → P a) := by
  cases condition <;> simp [alertIf]

theorem length_alertIf_le (condition : Bool) (a : Js) : (alertIf condition a).length ≤ 1 := by
  cases condition <;> simp [alertIf]

theorem validateAlerts_iff {rt : Runtime} {payload : Js} {observedAt : String} {disk : Reading}
    (htime : IsTime rt observedAt) (h : ∀ t ∈ tasks, t.Projected)
    (halerts : payload.get "alerts" = .arr (alerts observedAt tasks o disk)) :
    validateAlerts rt payload = .ok () ↔ NamesFit tasks := by
  have hlength : (alerts observedAt tasks o disk).length ≤ 256 := by
    have hone := length_alertIf_le
    unfold alerts
    simp only [List.length_append]
    refine le_trans (Nat.add_le_add (Nat.add_le_add (Nat.add_le_add (Nat.add_le_add (Nat.add_le_add
      (Nat.add_le_add (Nat.add_le_add (hone _ _) (hone _ _)) (hone _ _)) (hone _ _)) (hone _ _))
      (hone _ _)) (hone _ _)) (hone _ _)) (by decide)
  -- the message decides, at whatever index
  have hindex : ∀ a ∈ alerts observedAt tasks o disk, ∀ index,
      validateAlert rt index a = .ok () ↔ validateAlert rt 0 a = .ok () := by
    have hiff : ∀ {severity code message : String}, severity ∈ ["info", "warning", "critical"] →
        isAlertCode code = true → (1 ≤ JsText.length code ∧ JsText.length code ≤ 128 ∧
          code.toList.any JsText.isControl = false) → ∀ index,
        (validateAlert rt index (alert observedAt severity code message) = .ok () ↔
          validateAlert rt 0 (alert observedAt severity code message) = .ok ()) :=
      fun hseverity hcode hbounds _ => (validateAlert_iff htime hseverity hcode hbounds).trans
        (validateAlert_iff htime hseverity hcode hbounds).symm
    simp only [alerts, List.forall_mem_append, forall_mem_alertIf]
    refine ⟨⟨⟨⟨⟨⟨⟨fun _ => ?_, fun _ => ?_⟩, fun _ => ?_⟩, fun _ => ?_⟩, fun _ => ?_⟩, fun _ => ?_⟩,
      fun _ => ?_⟩, fun _ => ?_⟩
    all_goals exact hiff (by decide) (by decide) (by decide)
  have hloop : (alerts observedAt tasks o disk).zipIdx.forM
      (fun p => validateAlert rt p.2 p.1) = .ok () ↔
        ∀ a ∈ alerts observedAt tasks o disk, validateAlert rt 0 a = .ok () := by
    rw [forM_eq_ok_iff]
    constructor
    · intro hall a ha
      obtain ⟨index, hget⟩ := List.mem_iff_getElem?.mp ha
      exact (hindex a ha index).mp (hall (a, index) (List.mem_zipIdx_iff_getElem?.mpr hget))
    · intro hall p hp
      have hmem := List.fst_mem_of_mem_zipIdx hp
      exact (hindex p.1 hmem p.2).mpr (hall p.1 hmem)
  have hmessages : (∀ a ∈ alerts observedAt tasks o disk, validateAlert rt 0 a = .ok ()) ↔
      NamesFit tasks := by
    simp only [alerts, List.forall_mem_append, forall_mem_alertIf]
    constructor
    · rintro ⟨⟨⟨⟨⟨⟨⟨hall, -⟩, -⟩, -⟩, -⟩, -⟩, -⟩, -⟩
      cases hids : disputed tasks with
      | nil => simp [NamesFit, hids]
      | cons id ids =>
        have hne : disputed tasks ≠ [] := by simp [hids]
        refine (disputed_message_iff h hne).mp ?_
        exact (validateAlert_iff htime (by decide) (by decide) (by decide)).mp
          (hall (by simpa using hne))
    · intro hnames
      refine ⟨⟨⟨⟨⟨⟨⟨fun hne => ?_, fun _ => ?_⟩, fun _ => ?_⟩, fun _ => ?_⟩, fun _ => ?_⟩,
        fun _ => ?_⟩, fun _ => ?_⟩, fun _ => ?_⟩
      all_goals refine (validateAlert_iff htime (by decide) (by decide) (by decide)).mpr ?_
      · exact (disputed_message_iff h (by simpa using hne)).mpr hnames
      · exact gpu_message_fits
      · decide
      · decide +kernel
      · decide
      · decide
      · decide
      · exact disk_message_fits disk
  unfold validateAlerts
  dsimp only
  rw [halerts]
  refine (bind_iff_of_ok rfl).trans (require_bind_eq_ok.trans ((and_iff_right hlength).trans ?_))
  exact hloop.trans hmessages

end Alerts

/-! ## All sections -/

/-- The checks of `validateSnapshot` on the derived sections, for schema version 1.2. -/
def validateDerived (rt : Runtime) (payload : Js) : Except CogniError Unit := do
  validateTasksSummary true true payload
  validateRoadmap true payload
  validateResources payload
  validateAlerts rt payload

theorem length_of_ascii {s : String} (h : ∀ c ∈ s.toList, c.toNat < 0x7f) :
    JsText.length s = s.toList.length := by
  rw [JsText.length, List.map_congr_left (g := fun _ => 1) fun c hc =>
    if_pos ((h c hc).trans (by decide)), List.map_const', List.sum_replicate, smul_eq_mul, mul_one]

theorem length_pad (width n : ℕ) : (Utc.pad width n).length = width := by
  induction width generalizing n with
  | zero => rfl
  | succ width ih => rw [Utc.pad, List.length_append, ih, List.length_singleton]

theorem isControl_of_mem_pad {width n : ℕ} {c : Char} (h : c ∈ Utc.pad width n) :
    JsText.isControl c = false := by
  have hdigit : ∀ d < 10, JsText.isControl (Nat.digitChar d) = false := by decide
  induction width generalizing n with
  | zero => simp [Utc.pad] at h
  | succ width ih =>
    rcases List.mem_append.mp h with h | h
    · exact ih h
    · obtain rfl := List.mem_singleton.mp h
      exact hdigit _ (Nat.mod_lt _ (by decide))

theorem isControl_of_mem_chars {t : Utc} {c : Char} (h : c ∈ t.chars) :
    JsText.isControl c = false := by
  simp only [Utc.chars, List.mem_append, List.mem_cons, List.not_mem_nil, or_false] at h
  rcases h with (((((h | rfl | h) | rfl | h) | rfl | h) | rfl | h) | rfl | h) | rfl
  all_goals first | exact isControl_of_mem_pad h | decide

theorem length_chars (t : Utc) : t.chars.length = 20 := by
  simp only [Utc.chars, List.length_append, List.length_cons, List.length_nil, length_pad]

/-- A reading of the clock has 20 or 27 printable ASCII characters. -/
theorem Instant.text_spec (t : Instant) :
    (20 ≤ JsText.length t.text ∧ JsText.length t.text ≤ 40) ∧
      t.text.toList.any JsText.isControl = false := by
  by_cases hzero : t.microsecond.val = 0
  · have htext : t.text = t.time.text := if_pos hzero
    have hlist : t.text.toList = t.time.chars := by rw [htext, Utc.text, String.toList_ofList]
    have hascii : ∀ c ∈ t.text.toList, c.toNat < 0x7f := fun c hc =>
      Utc.toNat_of_mem_chars (hlist ▸ hc)
    rw [length_of_ascii hascii, hlist, length_chars]
    refine ⟨by decide, List.any_eq_false.mpr fun c hc => ?_⟩
    rw [isControl_of_mem_chars hc]
    exact Bool.false_ne_true
  · have hlist : t.text.toList = t.time.chars.dropLast ++ '.' :: Utc.pad 6 t.microsecond.val ++
        ['Z'] := by rw [text, if_neg hzero, String.toList_ofList]
    have hmem : ∀ c ∈ t.text.toList, c.toNat < 0x7f ∧ JsText.isControl c = false := by
      intro c hc
      simp only [hlist, List.mem_append, List.mem_cons, List.not_mem_nil, or_false] at hc
      rcases hc with (hc | rfl | hc) | rfl
      · have hc := List.mem_of_mem_dropLast hc
        exact ⟨Utc.toNat_of_mem_chars hc, isControl_of_mem_chars hc⟩
      · decide
      · exact ⟨Utc.toNat_of_mem_pad hc, isControl_of_mem_pad hc⟩
      · decide
    rw [length_of_ascii fun c hc => (hmem c hc).1]
    constructor
    · rw [hlist]
      simp only [List.length_append, List.length_dropLast, List.length_cons, List.length_nil,
        length_chars, length_pad]
      decide
    · refine List.any_eq_false.mpr fun c hc => ?_
      rw [(hmem c hc).2]
      exact Bool.false_ne_true

theorem isTime_text {rt : Runtime} {t : Instant}
    (hparse : ∃ q, (rt.dateParse t.text).finite? = some q) : IsTime rt t.text := by
  obtain ⟨q, hq⟩ := hparse
  obtain ⟨⟨hlow, hhigh⟩, hprintable⟩ := t.text_spec
  intro name
  refine ⟨q, ?_⟩
  unfold requireIsoTimestamp
  rw [bind_iff_of_ok (requireString_eq_ok.mpr ⟨rfl, hlow, hhigh, hprintable⟩), orRaise_eq_ok, hq]

/-- The derived sections of a snapshot. -/
def derivedSections (secret : Option Hasher) (commit : Option String)
    (evidence : RawTask → Option Authoritative) (tasks : List RawTask) (t : Instant)
    (o : Observations) (host : Host) : Js :=
  buildSections t.text (exportTasks secret commit t.text evidence tasks) o host

/-- **The sections that the publisher derives** pass the checks of the validator exactly where the
completion of the tasks is no tie, the names of the disputed tasks fit into one message and the
readings of the host are within the bounds of the validator after their rounding. -/
theorem validateDerived_iff (rt : Runtime) (secret : Option Hasher) (commit : Option String)
    (evidence : RawTask → Option Authoritative) (tasks : List RawTask) (t : Instant)
    (o : Observations) (host : Host)
    (hparse : ∃ q, (rt.dateParse t.text).finite? = some q) :
    validateDerived rt (derivedSections secret commit evidence tasks t o host) = .ok () ↔
      ¬CompletionTie (exportTasks secret commit t.text evidence tasks) ∧
        NamesFit (exportTasks secret commit t.text evidence tasks) ∧ host.Fits := by
  have hprojected : ∀ u ∈ exportTasks secret commit t.text evidence tasks, u.Projected := by
    intro u hu
    obtain ⟨task, -, rfl⟩ := List.mem_map.mp hu
    exact projected_exportTask secret commit t.text evidence task
  have htime := isTime_text hparse
  generalize hexported : exportTasks secret commit t.text evidence tasks = exported at hprojected
  have hsummary := @validateTasksSummary_iff exported (buildSections t.text exported o host) rfl
    rfl hprojected
  have hroadmap := @validateRoadmap_ok exported (buildSections t.text exported o host) rfl rfl
    hprojected
  have hresources := @validateResources_iff (buildSections t.text exported o host) host rfl
  have halerts := @validateAlerts_iff exported o rt (buildSections t.text exported o host) t.text
    host.disk htime hprojected rfl
  rw [derivedSections, hexported, validateDerived, bind_eq_ok]
  simp only [bind_eq_ok, hroadmap, hresources, halerts]
  constructor
  · rintro ⟨⟨⟩, htasks, ⟨⟩, -, ⟨⟩, hhost, hnames⟩
    exact ⟨hsummary.mp htasks, hnames, hhost⟩
  · rintro ⟨htasks, hnames, hhost⟩
    exact ⟨(), hsummary.mpr htasks, (), trivial, (), hhost, hnames⟩

/-- An hour on New Year's Day. -/
def sampleInstant : Instant := ⟨⟨1767225600⟩, 0⟩

/-- A host with a disk of 100 GiB, half of it used. -/
def sampleHost : Host := ⟨⟨50 * 2 ^ 30, 100 * 2 ^ 30, by decide, by decide⟩, none, none, none⟩

def sampleObservations : Observations :=
  ⟨[], true, true, true, "unknown", "unknown", true, by simp⟩

/-- Tasks of which the first is archived, and the others pending. -/
def sampleTasks (n : ℕ) : List RawTask :=
  (List.range n).map fun i =>
    ⟨"T-" ++ toString i, "worker", if i = 0 then .archived else .pending, none, none, 1⟩

/-- Valid evidence of every task. -/
def sampleEvidence (_ : RawTask) : Option Authoritative :=
  some ⟨"0123456789abcdef0123456789abcdef01234567", none, by decide⟩

theorem validateDerived_iff_eight :
    validateDerived sampleRuntime (derivedSections none none sampleEvidence (sampleTasks 8)
      sampleInstant sampleObservations sampleHost) = .ok () := by
  have htime : sampleInstant.text = "2026-01-01T00:00:00Z" := by decide
  refine (validateDerived_iff sampleRuntime none none sampleEvidence (sampleTasks 8) sampleInstant
    sampleObservations sampleHost ⟨1767225600000, by rw [htime]; rfl⟩).mpr ⟨?_, ?_, ?_, ?_, ?_, ?_⟩
  · have htrusted : (exportTasks none none sampleInstant.text sampleEvidence (sampleTasks 8)).countP
        (·.historicalTrusted) = 1 := by rfl
    have htotal : (exportTasks none none sampleInstant.text sampleEvidence (sampleTasks 8)).length =
        8 := by rfl
    rintro ⟨m, hm⟩
    rw [htrusted, htotal] at hm
    have hcleared : (250 : ℚ) = 4 * m + 1 := by
      norm_num at hm
      linarith
    have hcleared' : (250 : ℤ) = 4 * m + 1 := by exact_mod_cast hcleared
    omega
  · have hdisputed : disputed (exportTasks none none sampleInstant.text sampleEvidence
        (sampleTasks 8)) = ["task-redacted"] := by rfl
    rw [NamesFit, hdisputed]
    decide
  · exact Reading.fits_of_large (by decide) (by decide)
  · simp [sampleHost]
  · simp [sampleHost]
  · simp [sampleHost]

/-- One verified task of sixteen is 6.2 percent for the publisher and 6.3 for the validator. -/
theorem not_validateDerived_sixteen :
    validateDerived sampleRuntime (derivedSections none none sampleEvidence (sampleTasks 16)
      sampleInstant sampleObservations sampleHost) ≠ .ok () := by
  have hprojected : ∀ u ∈ exportTasks none none sampleInstant.text sampleEvidence (sampleTasks 16),
      u.Projected := by
    intro u hu
    obtain ⟨task, -, rfl⟩ := List.mem_map.mp hu
    exact projected_exportTask none none sampleInstant.text sampleEvidence task
  intro h
  obtain ⟨⟨⟩, hsummary, -⟩ := bind_eq_ok.mp h
  refine (validateTasksSummary_iff rfl rfl hprojected).mp hsummary ⟨31, ?_⟩
  have htrusted : (exportTasks none none sampleInstant.text sampleEvidence (sampleTasks 16)).countP
      (·.historicalTrusted) = 1 := by rfl
  have htotal : (exportTasks none none sampleInstant.text sampleEvidence (sampleTasks 16)).length =
      16 := by rfl
  rw [htrusted, htotal]
  norm_num

end Publisher
