/-
# The registry of agent identities

`add_agent` builds the identity of an alias from the stored identity of its target;
`resolve_identity_registry` builds it again from the declarations of all agents.

* `resolveIdentityRegistry` is the resolver;
* `Registered` is what every registry satisfies, whatever calls have built it;
* `resolves_of_runsTo` : the resolver returns the stored identities, each alias chain is the path
  to the root, and agents whose paths meet are never independent.
-/
import CogniOS.WorkspaceRuns
import CogniOS.ModelFamily

open Independence

namespace Workspace

/-! ## The resolver -/

/-- The declarations of the resolver by agent id, in the order of the dictionary. -/
abbrev Declarations := List (String × Option Identity)

/-- The identities that are resolved so far. -/
abbrev Resolved := List (String × Option Snapshot)

/-- The declarations of the agents, and those of the policy where an agent has none. -/
def declarationsOf (agents : List (String × Agent)) (policyAgents : List (String × Identity)) :
    Declarations :=
  policyAgents.foldl (fun declarations p =>
      if declarations.any fun q => q.1 == p.1 then
        declarations.map fun q => if q.1 = p.1 ∧ q.2 = none then (q.1, some p.2) else q
      else declarations ++ [(p.1, some p.2)])
    (agents.map fun q => (q.1, q.2.identity))

/-- `declaration.get("alias_of")`, where it is not empty. -/
def aliasTarget (identity : Identity) : Option String := identity.aliasOf.filter (· ≠ "")

/-- `resolve`; the recursion is bounded by the number of declarations. -/
def resolve (declarations : Declarations) :
    ℕ → String → List String → Resolved → Except CogniError (Option Snapshot × Resolved)
  | 0, _, _, _ => .error ⟨.other, "RecursionError"⟩
  | depth + 1, id, stack, resolved =>
      match resolved.lookup id with
      | some value => .ok (value, resolved)
      | none => do
          require (id ∉ stack) ⟨.configuration,
            "Identity policy alias cycle: " ++ " -> ".intercalate (stack ++ [id])⟩
          match declarations.lookup id with
          | some (some declaration) =>
              match aliasTarget declaration with
              | some target => do
                  validateAgentId target
                  let (found, resolved) ← resolve declarations depth target (stack ++ [id]) resolved
                  match found with
                  | none => .ok (none, (id, none) :: resolved)
                  | some found => do
                      let value ← buildIdentity found.controlPrincipal found.modelFamily
                        (some target) (target :: found.aliasChain)
                      let snapshot ← identitySnapshot id (some value)
                      .ok (snapshot, (id, snapshot) :: resolved)
              | none => do
                  let value ← buildIdentity declaration.controlPrincipal declaration.modelFamily
                    none declaration.aliasChain
                  let snapshot ← identitySnapshot id (some value)
                  .ok (snapshot, (id, snapshot) :: resolved)
          | _ => .ok (none, (id, none) :: resolved)

/-- The loop over the declared agents. -/
def resolveAll (declarations : Declarations) : List String → Resolved → Except CogniError Resolved
  | [], resolved => .ok resolved
  | id :: ids, resolved => do
      let (_, resolved) ← resolve declarations (declarations.length + 1) id [] resolved
      resolveAll declarations ids resolved

/-- `resolve_identity_registry`; `policyAgents` is what `_policy_agents` returns, nothing without
a policy. -/
def resolveIdentityRegistry (agents : List (String × Agent))
    (policyAgents : List (String × Identity)) : Except CogniError Resolved :=
  let declarations := declarationsOf agents policyAgents
  resolveAll declarations (declarations.map Prod.fst) []

/-! ## Declared identities -/

/-- An identity that `build_identity` returns again. -/
def Built (i : Identity) : Prop :=
  buildIdentity i.controlPrincipal i.modelFamily i.aliasOf i.aliasChain = .ok i

theorem validateIdentityValue_eq_ok {value field s : String} :
    validateIdentityValue value field = .ok s ↔ IsValue value ∧ s = strip value := by
  rw [validateIdentityValue, require_bind_eq_ok]
  constructor
  · rintro ⟨h, heq⟩
    exact ⟨h, (Except.ok.inj heq).symm⟩
  · rintro ⟨h, rfl⟩
    exact ⟨h, rfl⟩

theorem validateIdentityValue_strip {value field s : String}
    (h : validateIdentityValue value field = .ok s) :
    validateIdentityValue s field = .ok s := by
  obtain ⟨hvalue, rfl⟩ := validateIdentityValue_eq_ok.mp h
  rw [validateIdentityValue_eq_ok, IsValue, strip_strip]
  exact ⟨hvalue, rfl⟩

/-- What `build_identity` has checked. -/
theorem buildIdentity_eq_ok {controlPrincipal modelFamily : String} {aliasOf : Option String}
    {aliasChain : List String} {i : Identity}
    (h : buildIdentity controlPrincipal modelFamily aliasOf aliasChain = .ok i) :
    i.aliasOf = (if aliasOf = some "" then none else aliasOf) ∧ i.aliasChain = aliasChain ∧
      validateIdentityValue controlPrincipal "control_principal" = .ok i.controlPrincipal ∧
      validateIdentityValue modelFamily "model_family" = .ok i.modelFamily ∧
      Built i ∧ aliasChain.Nodup := by
  unfold buildIdentity at h
  obtain ⟨_, halias, h⟩ := bind_eq_ok.mp h
  obtain ⟨_, hchain, h⟩ := bind_eq_ok.mp h
  obtain ⟨hnodup, h⟩ := require_bind_eq_ok.mp h
  obtain ⟨principal, hprincipal, h⟩ := bind_eq_ok.mp h
  obtain ⟨family, hfamily, h⟩ := bind_eq_ok.mp h
  obtain rfl := Except.ok.inj h
  refine ⟨rfl, rfl, hprincipal, hfamily, ?_, hnodup⟩
  have hkept : (if (if aliasOf = some "" then none else aliasOf) = some "" then none
      else if aliasOf = some "" then none else aliasOf) =
        if aliasOf = some "" then none else aliasOf := by
    split_ifs <;> simp_all
  unfold Built buildIdentity
  dsimp only
  rw [hkept]
  refine bind_eq_ok.mpr ⟨(), halias, bind_eq_ok.mpr ⟨(), hchain, require_bind_eq_ok.mpr
    ⟨hnodup, bind_eq_ok.mpr ⟨principal, validateIdentityValue_strip hprincipal,
      bind_eq_ok.mpr ⟨family, validateIdentityValue_strip hfamily, rfl⟩⟩⟩⟩⟩

/-- The snapshot of a built identity is the identity itself. -/
theorem identitySnapshot_of_built {i : Identity} (h : Built i) {id : String}
    (hid : isAgentId id = true) : identitySnapshot id (some i) = .ok (some ⟨i, id⟩) := by
  rw [identitySnapshot, h]
  have hchecked : validateAgentId id = .ok () := by
    rw [validateAgentId, require_eq_ok]
    exact hid
  rw [ok_bind, hchecked]
  rfl

/-! ## Registries -/

section Registry

variable (agents : String → Option Agent)

/-- The identity of a registered agent, built along the path to its root. -/
inductive Lineage : String → Identity → Prop
  | root {id : String} {a : Agent} {i : Identity} : agents id = some a → a.identity = some i →
      i.aliasOf = none → i.aliasChain = [] → Built i → Lineage id i
  | link {id target : String} {a : Agent} {i j : Identity} : agents id = some a →
      a.identity = some i → Lineage target j → isAgentId target = true →
      i = ⟨j.controlPrincipal, j.modelFamily, some target, target :: j.aliasChain⟩ →
      id ∉ target :: j.aliasChain → Built i → Lineage id i

/-- The path from an agent over its aliases to the root. -/
inductive AliasPath : String → List String → Prop
  | root {id : String} {a : Agent} : agents id = some a → a.identity.bind (·.aliasOf) = none →
      AliasPath id []
  | link {id target : String} {a : Agent} {path : List String} : agents id = some a →
      a.identity.bind (·.aliasOf) = some target → AliasPath target path →
      AliasPath id (target :: path)

/-- What the agents of a workspace satisfy. -/
structure Registered : Prop where
  valid : ∀ id a, agents id = some a → isAgentId id = true
  lineage : ∀ id a i, agents id = some a → a.identity = some i → Lineage agents id i

variable {agents}

theorem Lineage.declared {id : String} {i : Identity} (h : Lineage agents id i) :
    ∃ a, agents id = some a ∧ a.identity = some i := by
  cases h with
  | root ha hi => exact ⟨_, ha, hi⟩
  | link ha hi => exact ⟨_, ha, hi⟩

theorem Lineage.built {id : String} {i : Identity} (h : Lineage agents id i) : Built i := by
  cases h with
  | root _ _ _ _ hbuilt => exact hbuilt
  | link _ _ _ _ _ _ hbuilt => exact hbuilt

/-- The stored chain is the path to the root. -/
theorem Lineage.aliasPath {id : String} {i : Identity} (h : Lineage agents id i) :
    AliasPath agents id i.aliasChain := by
  induction h with
  | root ha hi halias hchain =>
    rw [hchain]
    refine .root ha ?_
    rw [hi, Option.bind_some, halias]
  | link ha hi _ _ heq _ _ ih =>
    subst heq
    refine .link ha ?_ ih
    rw [hi, Option.bind_some]

theorem Lineage.nodup {id : String} {i : Identity} (h : Lineage agents id i) :
    (id :: i.aliasChain).Nodup := by
  induction h with
  | root _ _ _ hchain =>
    rw [hchain]
    exact List.nodup_singleton _
  | link _ _ _ _ heq hfresh _ ih =>
    subst heq
    exact List.nodup_cons.mpr ⟨hfresh, ih⟩

/-- The agents of a path are registered. -/
theorem Lineage.mem {id : String} {i : Identity} (h : Lineage agents id i) :
    ∀ x ∈ id :: i.aliasChain, ∃ a, agents x = some a := by
  induction h with
  | root ha _ _ hchain =>
    rw [hchain]
    intro x hx
    rw [List.mem_singleton.mp hx]
    exact ⟨_, ha⟩
  | link ha _ _ _ heq _ _ ih =>
    subst heq
    intro x hx
    rcases List.mem_cons.mp hx with rfl | hx
    · exact ⟨_, ha⟩
    · exact ih x hx

/-- The path of an agent is determined. -/
theorem AliasPath.unique {id : String} {p q : List String} (hp : AliasPath agents id p)
    (hq : AliasPath agents id q) : p = q := by
  induction hp generalizing q with
  | root ha htarget =>
    cases hq with
    | root => rfl
    | link ha' htarget' =>
      obtain rfl := Option.some.inj (ha.symm.trans ha')
      rw [htarget] at htarget'
      cases htarget'
  | link ha htarget _ ih =>
    cases hq with
    | root ha' htarget' =>
      obtain rfl := Option.some.inj (ha.symm.trans ha')
      rw [htarget] at htarget'
      cases htarget'
    | link ha' htarget' hpath =>
      obtain rfl := Option.some.inj (ha.symm.trans ha')
      obtain rfl := Option.some.inj (htarget.symm.trans htarget')
      rw [ih hpath]

/-- Registering another agent keeps the identities. -/
theorem Lineage.mono {agents' : String → Option Agent} {id : String} {i : Identity}
    (hkeep : ∀ id a, agents id = some a → agents' id = some a) (h : Lineage agents id i) :
    Lineage agents' id i := by
  induction h with
  | root ha hi halias hchain hbuilt => exact .root (hkeep _ _ ha) hi halias hchain hbuilt
  | link ha hi _ hvalid heq hfresh hbuilt ih =>
    exact .link (hkeep _ _ ha) hi ih hvalid heq hfresh hbuilt

end Registry

/-! ## The resolver on a registry -/

section Resolve

variable {listed : List (String × Agent)}

theorem lookup_map_snd {α β : Type} (f : α → β) (l : List (String × α)) (id : String) :
    (l.map fun q => (q.1, f q.2)).lookup id = (l.lookup id).map f := by
  induction l with
  | nil => rfl
  | cons q l ih =>
    rw [List.map_cons, List.lookup_cons, List.lookup_cons, ih]
    cases id == q.1 <;> rfl

theorem mem_keys_of_lookup {α : Type} {l : List (String × α)} {id : String} {a : α}
    (h : l.lookup id = some a) : id ∈ l.map Prod.fst := by
  induction l with
  | nil => cases h
  | cons q l ih =>
    rw [List.lookup_cons] at h
    rw [List.map_cons, List.mem_cons]
    cases hid : id == q.1 with
    | true => exact .inl (beq_iff_eq.mp hid)
    | false =>
      rw [hid] at h
      exact .inr (ih h)

theorem lookup_declarationsOf (id : String) :
    (declarationsOf listed []).lookup id = (listed.lookup id).map (·.identity) :=
  lookup_map_snd _ _ _

/-- What is resolved so far is right. -/
def Right (listed : List (String × Agent)) (resolved : Resolved) : Prop :=
  ∀ id v, resolved.lookup id = some v →
    ∃ a, listed.lookup id = some a ∧ identitySnapshot id a.identity = .ok v

/-- One call of the resolver returns the value, and keeps what was resolved. -/
def Returns (listed : List (String × Agent)) (depth : ℕ) (id : String) (stack : List String)
    (resolved : Resolved) (v : Option Snapshot) : Prop :=
  ∃ resolved', resolve (declarationsOf listed []) depth id stack resolved = .ok (v, resolved') ∧
    Right listed resolved' ∧ (resolved'.lookup id).isSome = true ∧
      ∀ x, (resolved.lookup x).isSome = true → (resolved'.lookup x).isSome = true

theorem Right.cons {resolved : Resolved} (h : Right listed resolved) {id : String} {a : Agent}
    {v : Option Snapshot} (ha : listed.lookup id = some a)
    (hv : identitySnapshot id a.identity = .ok v) : Right listed ((id, v) :: resolved) := by
  intro x u hu
  rw [List.lookup_cons] at hu
  cases hx : x == id with
  | true =>
    rw [hx] at hu
    obtain rfl := Option.some.inj hu
    rw [beq_iff_eq.mp hx]
    exact ⟨a, ha, hv⟩
  | false =>
    rw [hx] at hu
    exact h x u hu

theorem isSome_lookup_cons {resolved : Resolved} (id : String) (v : Option Snapshot) {x : String}
    (h : x = id ∨ (resolved.lookup x).isSome = true) :
    (((id, v) :: resolved).lookup x).isSome = true := by
  rw [List.lookup_cons]
  cases hx : x == id with
  | true => rfl
  | false =>
    rcases h with rfl | h
    · rw [beq_self_eq_true] at hx
      cases hx
    · exact h

/-- A resolved agent is returned from the memory. -/
theorem returns_of_resolved {depth : ℕ} {id : String} {stack : List String} {resolved : Resolved}
    {a : Agent} {u v : Option Snapshot} (hresolved : Right listed resolved)
    (hu : resolved.lookup id = some u) (ha : listed.lookup id = some a)
    (hv : identitySnapshot id a.identity = .ok v) :
    Returns listed (depth + 1) id stack resolved v := by
  obtain ⟨b, hb, hb'⟩ := hresolved id u hu
  obtain rfl := Option.some.inj (ha.symm.trans hb)
  obtain rfl := Except.ok.inj (hv.symm.trans hb')
  refine ⟨resolved, ?_, hresolved, by rw [hu]; rfl, fun _ h => h⟩
  rw [resolve, hu]

/-- An agent without an identity resolves to nothing. -/
theorem returns_undeclared {depth : ℕ} {id : String} {stack : List String} {resolved : Resolved}
    {a : Agent} (hresolved : Right listed resolved) (ha : listed.lookup id = some a)
    (hi : a.identity = none) (hstack : id ∉ stack) :
    Returns listed (depth + 1) id stack resolved none := by
  have hv : identitySnapshot id a.identity = .ok none := by
    rw [hi]
    rfl
  cases hlookup : resolved.lookup id with
  | some u => exact returns_of_resolved hresolved hlookup ha hv
  | none =>
    refine ⟨(id, none) :: resolved, ?_, hresolved.cons ha hv, isSome_lookup_cons _ _ (.inl rfl),
      fun x hx => isSome_lookup_cons _ _ (.inr hx)⟩
    rw [resolve, hlookup]
    dsimp only
    rw [require, if_pos hstack, ok_bind, lookup_declarationsOf, ha, Option.map_some, hi]

/-- **A declared identity is resolved along its path**, where the depth and the stack allow it. -/
theorem returns_declared (hagents : Registered (listed.lookup ·)) {id : String} {i : Identity}
    (h : Lineage (listed.lookup ·) id i) : ∀ (depth : ℕ) (stack : List String)
      (resolved : Resolved), i.aliasChain.length < depth →
      (∀ x ∈ id :: i.aliasChain, x ∉ stack) → Right listed resolved →
      Returns listed depth id stack resolved (some ⟨i, id⟩) := by
  induction h with
  | @root id a i ha hi halias hchain hbuilt =>
    intro depth stack resolved hdepth hstack hresolved
    have hv : identitySnapshot id a.identity = .ok (some ⟨i, id⟩) := by
      rw [hi]
      exact identitySnapshot_of_built hbuilt (hagents.valid id a ha)
    cases depth with
    | zero => omega
    | succ depth =>
      cases hlookup : resolved.lookup id with
      | some u => exact returns_of_resolved hresolved hlookup ha hv
      | none =>
        refine ⟨(id, some ⟨i, id⟩) :: resolved, ?_, hresolved.cons ha hv,
          isSome_lookup_cons _ _ (.inl rfl), fun x hx => isSome_lookup_cons _ _ (.inr hx)⟩
        have htarget : aliasTarget i = none := by
          rw [aliasTarget, halias]
          rfl
        have hagain : buildIdentity i.controlPrincipal i.modelFamily none i.aliasChain = .ok i := by
          rw [← halias]
          exact hbuilt
        rw [hi] at hv
        rw [resolve, hlookup]
        dsimp only
        rw [require, if_pos (hstack id List.mem_cons_self), ok_bind, lookup_declarationsOf, ha,
          Option.map_some, hi]
        dsimp only
        rw [htarget]
        dsimp only
        rw [hagain, ok_bind, hv, ok_bind]
  | @link id target a i j ha hi htarget hvalid heq hfresh hbuilt ih =>
    intro depth stack resolved hdepth hstack hresolved
    have hv : identitySnapshot id a.identity = .ok (some ⟨i, id⟩) := by
      rw [hi]
      exact identitySnapshot_of_built hbuilt (hagents.valid id a ha)
    cases depth with
    | zero => omega
    | succ depth =>
      cases hlookup : resolved.lookup id with
      | some u => exact returns_of_resolved hresolved hlookup ha hv
      | none =>
        -- The target is resolved first, one level down.
        have hchain : i.aliasChain = target :: j.aliasChain := by rw [heq]
        have hlength : j.aliasChain.length < depth := by
          rw [hchain, List.length_cons] at hdepth
          omega
        have hfree : ∀ x ∈ target :: j.aliasChain, x ∉ stack ++ [id] := by
          intro x hx hmem
          rcases List.mem_append.mp hmem with hmem | hmem
          · refine hstack x ?_ hmem
            rw [hchain]
            exact List.mem_cons_of_mem _ hx
          · rw [List.mem_singleton.mp hmem] at hx
            exact hfresh hx
        obtain ⟨resolved', hresolve, hright, -, hkeep⟩ :=
          ih depth (stack ++ [id]) resolved hlength hfree hresolved
        refine ⟨(id, some ⟨i, id⟩) :: resolved', ?_, hright.cons ha hv,
          isSome_lookup_cons _ _ (.inl rfl),
          fun x hx => isSome_lookup_cons _ _ (.inr (hkeep x hx))⟩
        have haliased : aliasTarget i = some target := by
          rw [aliasTarget, heq]
          refine Option.filter_some_pos ?_
          rw [decide_eq_true_eq]
          rintro rfl
          exact absurd hvalid (by decide)
        have hchecked : validateAgentId target = .ok () := by
          rw [validateAgentId, require_eq_ok]
          exact hvalid
        have hagain : buildIdentity j.controlPrincipal j.modelFamily (some target)
            (target :: j.aliasChain) = .ok i := by
          have hbuilt := hbuilt
          unfold Built at hbuilt
          rw [heq] at hbuilt ⊢
          exact hbuilt
        rw [hi] at hv
        rw [resolve, hlookup]
        dsimp only
        rw [require, if_pos (hstack id List.mem_cons_self), ok_bind, lookup_declarationsOf, ha,
          Option.map_some, hi]
        dsimp only
        rw [haliased]
        dsimp only
        rw [hchecked, ok_bind, hresolve, ok_bind]
        dsimp only
        rw [hagain, ok_bind, hv, ok_bind]

/-- A path through the registry is shorter than the list of the agents. -/
theorem Lineage.length_le {id : String} {i : Identity} (h : Lineage (listed.lookup ·) id i) :
    i.aliasChain.length < listed.length := by
  have hsubset : id :: i.aliasChain ⊆ listed.map Prod.fst := by
    intro x hx
    obtain ⟨a, ha⟩ := h.mem x hx
    exact mem_keys_of_lookup ha
  have hle := (h.nodup.subperm hsubset).length_le
  rw [List.length_cons, List.length_map] at hle
  omega

/-- Every registered agent is resolved to its snapshot. -/
theorem returns_registered (hagents : Registered (listed.lookup ·)) {id : String} {a : Agent}
    (ha : listed.lookup id = some a) {resolved : Resolved} (hresolved : Right listed resolved) :
    ∃ v, Returns listed ((declarationsOf listed []).length + 1) id [] resolved v := by
  cases hi : a.identity with
  | none => exact ⟨none, returns_undeclared hresolved ha hi List.not_mem_nil⟩
  | some i =>
    have hlineage := hagents.lineage id a i ha hi
    have hlength : (declarationsOf listed []).length = listed.length := List.length_map ..
    refine ⟨some ⟨i, id⟩, returns_declared hagents hlineage _ [] resolved ?_
      (fun x _ => List.not_mem_nil) hresolved⟩
    rw [hlength]
    exact hlineage.length_le.trans (Nat.lt_succ_self _)

theorem resolveAll_eq_ok (hagents : Registered (listed.lookup ·)) (ids : List String)
    (hids : ∀ id ∈ ids, (listed.lookup id).isSome = true) {resolved : Resolved}
    (hresolved : Right listed resolved) :
    ∃ r, resolveAll (declarationsOf listed []) ids resolved = .ok r ∧ Right listed r ∧
      ∀ id, id ∈ ids ∨ (resolved.lookup id).isSome = true → (r.lookup id).isSome = true := by
  induction ids generalizing resolved with
  | nil => exact ⟨resolved, rfl, hresolved, fun id h => h.resolve_left List.not_mem_nil⟩
  | cons id ids ih =>
    obtain ⟨a, ha⟩ := Option.isSome_iff_exists.mp (hids id List.mem_cons_self)
    obtain ⟨v, resolved', hresolve, hright, hsome, hkeep⟩ :=
      returns_registered hagents ha hresolved
    obtain ⟨r, hr, hright', hall⟩ :=
      ih (fun x hx => hids x (List.mem_cons_of_mem _ hx)) hright
    refine ⟨r, ?_, hright', ?_⟩
    · rw [resolveAll, hresolve, ok_bind]
      exact hr
    · rintro x (hx | hx)
      · rcases List.mem_cons.mp hx with rfl | hx
        · exact hall _ (.inr hsome)
        · exact hall _ (.inl hx)
      · exact hall _ (.inr (hkeep x hx))

/-- **The resolver returns the stored identities.** -/
theorem resolveIdentityRegistry_eq_ok (hagents : Registered (listed.lookup ·)) :
    ∃ r, resolveIdentityRegistry listed [] = .ok r ∧
      (∀ id a, listed.lookup id = some a →
        ∃ v, r.lookup id = some v ∧ identitySnapshot id a.identity = .ok v) ∧
      ∀ id, listed.lookup id = none → r.lookup id = none := by
  have hids : ∀ id ∈ (declarationsOf listed []).map Prod.fst,
      (listed.lookup id).isSome = true := by
    intro id hid
    rw [Option.isSome_iff_ne_none]
    intro hnone
    obtain ⟨q, hq, rfl⟩ := List.mem_map.mp hid
    obtain ⟨p, hp, rfl⟩ := List.mem_map.mp hq
    exact absurd (List.lookup_eq_none_iff.mp hnone p hp) (by simp)
  have hempty : Right listed [] := fun id v hv => by cases hv
  obtain ⟨r, hr, hright, hall⟩ := resolveAll_eq_ok hagents _ hids hempty
  refine ⟨r, hr, ?_, ?_⟩
  · intro id a ha
    have hmem : id ∈ (declarationsOf listed []).map Prod.fst := by
      refine mem_keys_of_lookup (?_ : _ = some a.identity)
      rw [lookup_declarationsOf, ha]
      rfl
    obtain ⟨v, hv⟩ := Option.isSome_iff_exists.mp (hall id (.inl hmem))
    obtain ⟨b, hb, hsnapshot⟩ := hright id v hv
    obtain rfl := Option.some.inj (ha.symm.trans hb)
    exact ⟨v, hv, hsnapshot⟩
  · intro id hnone
    by_contra hne
    obtain ⟨v, hv⟩ := Option.ne_none_iff_exists'.mp hne
    obtain ⟨a, ha, -⟩ := hright id v hv
    rw [hnone] at ha
    cases ha

end Resolve

/-! ## Independence along a path -/

/-- The family of a built identity is computed. -/
theorem Built.canonicalModelFamily {i : Identity} (h : Built i) :
    ∃ f, canonicalModelFamily i.modelFamily = .ok f := by
  obtain ⟨-, -, -, hfamily, -⟩ := buildIdentity_eq_ok h
  exact ⟨_, canonicalModelFamily_eq (validateIdentityValue_eq_ok.mp hfamily).1⟩

/-- Snapshots whose lineages meet are not independent. -/
theorem not_independent_of_shared {x y : Snapshot} (hx : Built x.toIdentity)
    (hy : Built y.toIdentity)
    (hshared : ∃ z ∈ x.actor :: x.aliasChain, z ∈ y.actor :: y.aliasChain) :
    ∃ e, evaluateIndependence (some x) (some y) = .ok e ∧ e.independent = false := by
  obtain ⟨f, hf⟩ := hx.canonicalModelFamily
  obtain ⟨g, hg⟩ := hy.canonicalModelFamily
  have hany : (x.actor :: x.aliasChain).any ((y.actor :: y.aliasChain).contains ·) = true := by
    obtain ⟨z, hz, hz'⟩ := hshared
    exact List.any_eq_true.mpr ⟨z, hz, List.contains_iff_mem.mpr hz'⟩
  have heval : evaluateIndependence (some x) (some y) = .ok
      ⟨reasonIf (x.actor == y.actor) "same_actor" ++
        reasonIf (x.controlPrincipal == y.controlPrincipal) "same_control_principal" ++
        reasonIf (f == g) "same_model_family" ++ ["shared_alias_lineage"], some x, some y⟩ := by
    simp only [evaluateIndependence, sharedReasons, hf, hg, ok_bind]
    rw [hany]
    rfl
  refine ⟨_, heval, ?_⟩
  rw [Evaluation.independent, List.isEmpty_eq_false_iff]
  simp

/-- An unknown snapshot is never independent. -/
theorem not_independent_of_none {worker verifier : Option Snapshot}
    (h : worker = none ∨ verifier = none) :
    ∃ e, evaluateIndependence worker verifier = .ok e ∧ e.independent = false := by
  cases worker with
  | none =>
    refine ⟨_, rfl, ?_⟩
    rw [Evaluation.independent, List.isEmpty_eq_false_iff]
    simp [reasonIf]
  | some worker =>
    obtain rfl := h.resolve_left (Option.some_ne_none worker)
    exact ⟨_, rfl, rfl⟩

/-- **Agents whose paths meet are not independent.** -/
theorem Registered.not_independent {agents : String → Option Agent} (h : Registered agents)
    {x y : String} {a b : Agent} {p q : List String} {u v : Option Snapshot}
    (ha : agents x = some a) (hb : agents y = some b) (hp : AliasPath agents x p)
    (hq : AliasPath agents y q) (hshared : ∃ z ∈ x :: p, z ∈ y :: q)
    (hu : identitySnapshot x a.identity = .ok u) (hv : identitySnapshot y b.identity = .ok v) :
    ∃ e, evaluateIndependence u v = .ok e ∧ e.independent = false := by
  cases hi : a.identity with
  | none =>
    rw [hi] at hu
    exact not_independent_of_none (.inl (Except.ok.inj hu).symm)
  | some i =>
    cases hj : b.identity with
    | none =>
      rw [hj] at hv
      exact not_independent_of_none (.inr (Except.ok.inj hv).symm)
    | some j =>
      have hx := h.lineage x a i ha hi
      have hy := h.lineage y b j hb hj
      rw [hi, identitySnapshot_of_built hx.built (h.valid x a ha)] at hu
      rw [hj, identitySnapshot_of_built hy.built (h.valid y b hb)] at hv
      obtain rfl := Except.ok.inj hu
      obtain rfl := Except.ok.inj hv
      rw [hp.unique hx.aliasPath, hq.unique hy.aliasPath] at hshared
      exact not_independent_of_shared hx.built hy.built hshared

/-! ## The registry along a run -/

section Runs

variable {w : Broker} {s : State} {c : Call} {e : Effect} {record : Agent}

/-- The agents of a state. -/
def State.registry (s : State) (id : String) : Option Agent := s.agents.lookup id

/-- What `add_agent` has checked. -/
theorem addAgent_record {actor : String} {a : NewAgent} (h : addAgent w s c actor a = .ok e)
    (hrecord : e.agent = some record) : isAgentId record.id = true ∧
      s.registry record.id = none ∧ newIdentity s a = .ok record.identity := by
  simp only [addAgent, bind_eq_ok, require_eq_ok] at h
  obtain ⟨_, -, _, -, _, hvalid, _, hfresh, _, -, _, -, identity, hidentity, h⟩ := h
  obtain rfl := Except.ok.inj h
  obtain rfl := Option.some.inj hrecord
  exact ⟨require_eq_ok.mp hvalid, Option.isNone_iff_eq_none.mp hfresh, hidentity⟩

/-- Only `add_agent` registers an agent. -/
theorem op_of_agent (hs : Inv w s) (h : effect w s c = .ok e) (hrecord : e.agent = some record) :
    ∃ actor a, addAgent w s c actor a = .ok e := by
  have h := (checkedEffect_of_effect h).1
  have hmoved : ∀ {id : String} {t u : Task}, e.Moved id t u → e.agent = none :=
    fun ⟨_, _, _, _, _, hagent, _⟩ => hagent
  have hnone : e.agent = none → ∃ actor a, addAgent w s c actor a = .ok e := by
    intro hnone
    rw [hnone] at hrecord
    cases hrecord
  obtain ⟨op, clock, authority, fault⟩ := c
  cases op with
  | addAgent actor a => exact ⟨actor, a, h⟩
  | addTask actor a =>
    obtain ⟨t, -, -, rfl⟩ := addTask_eq_ok h
    exact hnone rfl
  | claim actor taskId seconds token session =>
    obtain ⟨id, t, u, -, hm, -⟩ := claim_moved hs.keyed h
    exact hnone (hmoved hm)
  | recoverLease actor taskId reason force =>
    obtain ⟨t, u, -, hm, -⟩ := recoverLease_moved h
    exact hnone (hmoved hm)
  | start actor taskId token =>
    obtain ⟨t, u, -, hm, -⟩ := start_moved h
    exact hnone (hmoved hm)
  | heartbeat actor taskId token =>
    obtain ⟨t, u, -, hm, -⟩ := heartbeat_moved h
    exact hnone (hmoved hm)
  | block actor taskId token reason =>
    obtain ⟨t, u, -, hm, -⟩ := block_moved h
    exact hnone (hmoved hm)
  | submit actor taskId token validated bundle =>
    obtain ⟨t, u, -, hm, -⟩ := submit_moved h fun t ht => hs.lease_eq_none ht
    exact hnone (hmoved hm)
  | verifyBegin actor taskId decision note evidence candidates =>
    obtain ⟨run, -, -, -, -, -, -, rfl⟩ := verifyBegin_eq_ok h
    exact hnone rfl
  | verifyEnd taskId runner attestation archive =>
    obtain ⟨run, hrun, ⟨stage, error, hfail⟩ | ⟨v, hash, u, -, -, -, -, -, -, -, -, rfl⟩⟩ :=
      verifyEnd_eq_ok h
    · exact hnone (recordVerificationFailure_eq_ok hfail).2.1
    · exact hnone rfl
  | verifyCrash taskId => simp [checkedEffect] at h
  | reconcileVerification actor taskId runId =>
    exact hnone (reconcileVerification_eq_ok h).2.2.1
  | restateVerification actor taskId status reason n =>
    exact hnone (restateVerification_eq_ok h).2.1

/-- One more agent keeps a registry. -/
theorem Registered.insert {agents agents' : String → Option Agent} (h : Registered agents)
    (hvalid : isAgentId record.id = true) (hfresh : agents record.id = none)
    (hagents : ∀ id, agents' id = if id = record.id then some record else agents id)
    (hlineage : ∀ i, record.identity = some i → Lineage agents' record.id i) :
    Registered agents' := by
  have hkeep : ∀ id a, agents id = some a → agents' id = some a := by
    intro id a ha
    rw [hagents, if_neg, ha]
    rintro rfl
    rw [hfresh] at ha
    cases ha
  constructor
  · intro id a ha
    rw [hagents] at ha
    split_ifs at ha with hid
    · rw [hid]
      exact hvalid
    · exact h.valid id a ha
  · intro id a i ha hi
    rw [hagents] at ha
    split_ifs at ha with hid
    · obtain rfl := Option.some.inj ha
      rw [hid]
      exact hlineage i hi
    · exact (h.lineage id a i ha hi).mono hkeep

/-- The identity of a new agent is built along the path of its target. -/
theorem Registered.newIdentity (h : Registered s.registry) {a : NewAgent} {i : Identity}
    {agents' : String → Option Agent} (hkeep : ∀ id a, s.registry id = some a → agents' id = some a)
    (hfresh : s.registry record.id = none) (hrecord : agents' record.id = some record)
    (hi : record.identity = some i) (hnew : newIdentity s a = .ok (some i)) :
    Lineage agents' record.id i := by
  unfold Workspace.newIdentity at hnew
  split_ifs at hnew with halias hdeclared
  · obtain ⟨target, htarget, hnew⟩ := bind_eq_ok.mp hnew
    obtain ⟨j, hj, hnew⟩ := bind_eq_ok.mp hnew
    obtain ⟨i', hbuild, hnew⟩ := bind_eq_ok.mp hnew
    obtain rfl := Option.some.inj (Except.ok.inj hnew)
    rw [orRaise_eq_ok] at hj
    simp only [State.getAgent, bind_eq_ok, orRaise_eq_ok] at htarget
    obtain ⟨_, hvalid, htarget⟩ := htarget
    have hlineage := h.lineage a.aliasOf target j htarget hj
    obtain ⟨haliasOf, hchain, hprincipal, hfamily, hbuilt, -⟩ := buildIdentity_eq_ok hbuild
    obtain ⟨-, -, hprincipal', hfamily', -⟩ := buildIdentity_eq_ok hlineage.built
    refine .link hrecord hi (hlineage.mono hkeep) (require_eq_ok.mp hvalid) ?_ ?_ hbuilt
    · have hprincipal := Except.ok.inj (hprincipal.symm.trans hprincipal')
      have hfamily := Except.ok.inj (hfamily.symm.trans hfamily')
      rw [if_neg (by simpa using halias)] at haliasOf
      obtain ⟨_, _, _, _⟩ := i'
      simp_all
    · intro hmem
      obtain ⟨b, hb⟩ := hlineage.mem _ hmem
      rw [hfresh] at hb
      cases hb
  · obtain ⟨_, -, hnew⟩ := bind_eq_ok.mp hnew
    obtain ⟨i', hbuild, hnew⟩ := bind_eq_ok.mp hnew
    obtain rfl := Option.some.inj (Except.ok.inj hnew)
    obtain ⟨haliasOf, hchain, -, -, hbuilt, -⟩ := buildIdentity_eq_ok hbuild
    exact .root hrecord hi haliasOf hchain hbuilt
  · cases hnew

theorem apply_agents (w : Broker) (s : State) (e : Effect) (fault : Fault) :
    (s.apply w e fault).agents = s.agents ∨ ∃ record, e.agent = some record ∧
      (s.apply w e fault).agents = s.agents.insert record.id record := by
  have happend : (s.append w e).agents = s.agents := by
    rw [State.append]
    split <;> rfl
  cases fault with
  | append => exact .inl rfl
  | write => exact .inl happend
  | none =>
    cases hagent : e.agent with
    | none => exact .inl (by simp [State.apply, State.replaceFiles, hagent, happend])
    | some record =>
      exact .inr ⟨record, rfl, by simp [State.apply, State.replaceFiles, hagent, happend]⟩

@[simp] theorem unlock_agents (s : State) (op : Op) : (s.unlock op).agents = s.agents := by
  cases op <;> rfl

theorem registry_insert {agents : AList fun _ : String => Agent} (record : Agent) (id : String) :
    (agents.insert record.id record).lookup id =
      if id = record.id then some record else agents.lookup id := by
  by_cases hid : id = record.id
  · rw [if_pos hid, hid, AList.lookup_insert]
  · rw [if_neg hid, AList.lookup_insert_ne hid]

/-- **A call** keeps the registry. -/
theorem Registered.step (hs : Inv w s) (h : Registered s.registry) (c : Call) :
    Registered (step w s c).registry := by
  rcases step_cases hs c with hstep | ⟨e, heffect, -, hstep⟩
  · rw [hstep]
    unfold State.registry
    rw [unlock_agents]
    exact h
  have hagents : (Workspace.step w s c).agents = (s.apply w e c.fault).agents := by
    rw [hstep, unlock_agents]
  rcases apply_agents w s e c.fault with hsame | ⟨record, hrecord, hinsert⟩
  · unfold State.registry
    rw [hagents, hsame]
    exact h
  · obtain ⟨actor, a, hadd⟩ := op_of_agent hs heffect hrecord
    obtain ⟨hvalid, hfresh, hidentity⟩ := addAgent_record hadd hrecord
    have hlookup : ∀ id, (Workspace.step w s c).registry id =
        if id = record.id then some record else s.registry id := by
      intro id
      rw [State.registry, hagents, hinsert, registry_insert]
      rfl
    refine h.insert hvalid hfresh hlookup fun i hi => ?_
    refine h.newIdentity ?_ hfresh ?_ hi (hi ▸ hidentity)
    · intro id b hb
      rw [hlookup, if_neg, hb]
      rintro rfl
      rw [hfresh] at hb
      cases hb
    · rw [hlookup, if_pos rfl]

/-- Agents without aliases, as `initialize` registers them. -/
structure Flat (record : Agent) : Prop where
  valid : isAgentId record.id = true
  identity : ∀ i, record.identity = some i → i.aliasOf = none ∧ i.aliasChain = [] ∧ Built i

theorem registered_of_flat {agents : AList fun _ : String => Agent}
    (h : ∀ id a, agents.lookup id = some a → a.id = id ∧ Flat a) :
    Registered (agents.lookup ·) := by
  constructor
  · intro id a ha
    obtain ⟨rfl, hflat⟩ := h id a ha
    exact hflat.valid
  · intro id a i ha hi
    obtain ⟨-, hflat⟩ := h id a ha
    obtain ⟨halias, hchain, hbuilt⟩ := hflat.identity i hi
    exact .root ha hi halias hchain hbuilt

theorem flat_foldl_commitAgent {now : Utc} {records : List Agent} (hrecords : ∀ a ∈ records, Flat a)
    {s : State} (hs : ∀ id a, s.agents.lookup id = some a → a.id = id ∧ Flat a) :
    ∀ id a, (records.foldl (commitAgent w now) s).agents.lookup id = some a →
      a.id = id ∧ Flat a := by
  induction records generalizing s with
  | nil => exact hs
  | cons record records ih =>
    refine ih (fun a ha => hrecords a (List.mem_cons_of_mem _ ha)) ?_
    intro id a ha
    have ha : (s.agents.insert record.id record).lookup id = some a := ha
    rw [registry_insert] at ha
    split_ifs at ha with hid
    · obtain rfl := Option.some.inj ha
      exact ⟨hid.symm, hrecords _ List.mem_cons_self⟩
    · exact hs id a ha

theorem flat_presetAgents {now : Utc} : ∀ a ∈ presetAgents now, Flat a := by
  have hflat : ∀ id role controlPrincipal modelFamily : String, isAgentId id = true →
      buildIdentity controlPrincipal modelFamily none [] =
        .ok ⟨controlPrincipal, modelFamily, none, []⟩ →
      Flat (presetAgent now id role controlPrincipal modelFamily) := by
    intro id role controlPrincipal modelFamily hid hbuilt
    refine ⟨hid, fun i hi => ?_⟩
    obtain rfl := Option.some.inj hi
    exact ⟨rfl, rfl, hbuilt⟩
  intro a ha
  simp only [presetAgents, List.mem_cons, List.not_mem_nil, or_false] at ha
  rcases ha with rfl | rfl
  · exact hflat _ _ _ _ (by decide) (by decide)
  · exact hflat _ _ _ _ (by decide) (by decide)

theorem registered_of_initialized {now : Utc} {principal family : String} {preset : Bool}
    (h : initializeWorkspace w now principal family preset = .ok s) : Registered s.registry := by
  simp only [initializeWorkspace, bind_eq_ok, validateAgentId, require_eq_ok] at h
  obtain ⟨_, hvalid, identity, hidentity, h⟩ := h
  obtain rfl := Except.ok.inj h
  refine registered_of_flat (flat_foldl_commitAgent ?_ fun id a ha => by cases ha)
  refine List.forall_mem_cons.mpr ⟨⟨hvalid, ?_⟩, ?_⟩
  · intro i hi
    replace hi : identity = some i := hi
    subst hi
    unfold orchestratorIdentity at hidentity
    split_ifs at hidentity
    · cases hidentity
    · obtain ⟨_, -, hidentity⟩ := bind_eq_ok.mp hidentity
      obtain ⟨i', hbuild, hidentity⟩ := bind_eq_ok.mp hidentity
      obtain rfl := Option.some.inj (Except.ok.inj hidentity)
      obtain ⟨halias, hchain, -, -, hbuilt, -⟩ := buildIdentity_eq_ok hbuild
      exact ⟨halias, hchain, hbuilt⟩
  · cases preset with
    | true => exact flat_presetAgents
    | false => simp

/-- **The registry of every run.** -/
theorem RunsTo.registered {cs : List Call} (h : RunsTo w cs s) : Registered s.registry := by
  obtain ⟨now, principal, family, preset, start, hstart, hrun⟩ := h
  refine (hrun.invariant (I := fun s => Inv w s ∧ Registered s.registry) ?_
    ⟨(fresh_of_initialized hstart).inv, registered_of_initialized hstart⟩).2
  rintro s c t ⟨hs, hregistered⟩ rfl
  exact ⟨hs.step c, hregistered.step hs c⟩

/-- **The resolver and the stored identities**, after every run of calls and for every order in
which the agents are listed: the resolver returns the snapshot of each stored identity, each alias
chain is the path to the root, and agents whose paths meet are not independent. -/
theorem resolves_of_runsTo {cs : List Call} (h : RunsTo w cs s) {listed : List (String × Agent)}
    (hlisted : ∀ id, listed.lookup id = s.registry id) :
    (∃ r, resolveIdentityRegistry listed [] = .ok r ∧
      (∀ id a, s.registry id = some a → ∃ v, r.lookup id = some v ∧
        identitySnapshot id a.identity = .ok v) ∧
      ∀ id, s.registry id = none → r.lookup id = none) ∧
    (∀ id a i, s.registry id = some a → a.identity = some i →
      AliasPath s.registry id i.aliasChain ∧ (id :: i.aliasChain).Nodup) ∧
    ∀ x y a b p q u v, s.registry x = some a → s.registry y = some b →
      AliasPath s.registry x p → AliasPath s.registry y q → (∃ z ∈ x :: p, z ∈ y :: q) →
      identitySnapshot x a.identity = .ok u → identitySnapshot y b.identity = .ok v →
      (∃ e, evaluateIndependence u v = .ok e ∧ e.independent = false) ∧
        ∃ e, evaluateIndependence v u = .ok e ∧ e.independent = false := by
  have hregistered := h.registered
  refine ⟨?_, ?_, ?_⟩
  · have hsame : (listed.lookup ·) = s.registry := funext hlisted
    have hagents : Registered (listed.lookup ·) := by
      rw [hsame]
      exact hregistered
    obtain ⟨r, hr, hsome, hnone⟩ := resolveIdentityRegistry_eq_ok hagents
    refine ⟨r, hr, ?_, ?_⟩
    · intro id a ha
      exact hsome id a ((hlisted id).trans ha)
    · intro id ha
      exact hnone id ((hlisted id).trans ha)
  · intro id a i ha hi
    have hlineage := hregistered.lineage id a i ha hi
    exact ⟨hlineage.aliasPath, hlineage.nodup⟩
  · intro x y a b p q u v ha hb hp hq hshared hu hv
    obtain ⟨z, hz, hz'⟩ := hshared
    exact ⟨hregistered.not_independent ha hb hp hq ⟨z, hz, hz'⟩ hu hv,
      hregistered.not_independent hb ha hq hp ⟨z, hz', hz⟩ hv hu⟩

/-- The agents of a state can be listed as they are stored. -/
theorem lookup_entries (l : List (Σ _ : String, Agent)) (id : String) :
    (l.map fun a => (a.1, a.2)).lookup id = l.dlookup id := by
  induction l with
  | nil => rfl
  | cons a l ih =>
    rw [List.map_cons, List.lookup_cons, ih]
    cases hid : id == a.1 with
    | true =>
      obtain rfl := beq_iff_eq.mp hid
      rw [List.dlookup_cons_eq]
    | false => rw [List.dlookup_cons_ne _ _ (beq_eq_false_iff_ne.mp hid)]

/-- The preset worker and an alias of it. -/
def sampleAlias : Call :=
  sampleCall (.addAgent "codex" ⟨"copy", "worker", "manual", none, [], "", "", "antigravity"⟩)

/-- The registry with one alias. -/
theorem resolves_of_runsTo_alias :
    (∃ r, resolveIdentityRegistry
        (([sampleAlias].foldl (step sampleBroker) sampleStart).agents.entries.map
          fun a => (a.1, a.2)) [] = .ok r) ∧
      (([sampleAlias].foldl (step sampleBroker) sampleStart).registry "copy").bind
        (fun a => a.identity.map (·.aliasChain)) = some ["antigravity"] := by
  have hlisted : ∀ id, (([sampleAlias].foldl (step sampleBroker) sampleStart).agents.entries.map
      fun a => (a.1, a.2)).lookup id =
        ([sampleAlias].foldl (step sampleBroker) sampleStart).registry id :=
    fun id => lookup_entries _ id
  have hrun := runsTo_foldl initialize_sample [sampleAlias]
  obtain ⟨⟨r, hr, -⟩, -⟩ := resolves_of_runsTo hrun hlisted
  exact ⟨⟨r, hr⟩, by decide +kernel⟩

end Runs

end Workspace
