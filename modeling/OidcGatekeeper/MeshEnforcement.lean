-- The policies of the mesh in the cluster: charms write what they grant, the beacon
-- reads it, and `PolicyResourceManager` of the service-mesh library hands what it makes
-- of it to a Kubernetes resource manager. Any of its calls may fail half way.
import OidcGatekeeper.Handlers
import OidcGatekeeper.IstioPolicies
import OidcGatekeeper.MeshJoin
import OidcGatekeeper.Runs

open handlers runs

namespace oidc_gatekeeper.service_mesh

/-! ## The cluster -/

/-- The namespace and the name. -/
abbrev ResourceKey := String × String

def AuthorizationPolicy.key (a : AuthorizationPolicy) : ResourceKey := (a.targetNamespace, a.name)

/-- An authorization policy in the cluster. -/
structure Deployed where
  labels : Labels
  policy : AuthorizationPolicy

/-- The authorization policies of the cluster. -/
abbrev PolicyCluster := ResourceKey → Option Deployed

/-- The label selector finds the policy. -/
def selectedBy (labels : Labels) (d : Deployed) : Bool :=
  labels.entries.all fun e => d.labels.lookup e.1 = some e.2

inductive PolicyExc
  | httpStatusError (code : Nat)
  | typeError (typeName : String)
  | krmError
  deriving DecidableEq

/-- A `KubernetesResourceManager`: what its methods do to the cluster. -/
structure KubernetesResourceManager where
  reconcile (resources : List (Option AuthorizationPolicy)) (force ignoreMissing : Bool) :
    EStateM PolicyExc PolicyCluster Unit
  delete (ignoreMissing : Bool) : EStateM PolicyExc PolicyCluster Unit

/-! ## The policy resource manager -/

/-- A policy that the caller made: of the supported type, or of another one. -/
inductive RawPolicy
  | authorizationPolicy (a : AuthorizationPolicy)
  | other (typeName : String)
  deriving DecidableEq

/-- `_validate_raw_policies`. -/
def validateRawPolicies :
    List RawPolicy → EStateM PolicyExc PolicyCluster (List AuthorizationPolicy)
  | [] => return []
  | .authorizationPolicy a :: rawPolicies => do return a :: (← validateRawPolicies rawPolicies)
  | .other typeName :: _ => throw (.typeError typeName)

structure PolicyResourceManager where
  appName : String
  modelName : String
  krm : KubernetesResourceManager

/-- An API without the resource type answers 404: there is nothing to delete. -/
def PolicyResourceManager.delete (manager : PolicyResourceManager) (ignoreMissing : Bool) :
    EStateM PolicyExc PolicyCluster Unit :=
  tryCatch (manager.krm.delete ignoreMissing) fun e =>
    if e = .httpStatusError 404 ∧ ignoreMissing = true then pure () else throw e

/-- `_build_policy_resources`, with the builder for the type of the mesh. -/
def PolicyResourceManager.buildPolicyResources (manager : PolicyResourceManager)
    (hash : MeshPolicyFields → String) (policies : List MeshPolicy) :
    MeshType → List (Option AuthorizationPolicy)
  | .istio => buildPolicyResourcesIstio hash manager.appName manager.modelName policies

def PolicyResourceManager.reconcile (manager : PolicyResourceManager)
    (hash : MeshPolicyFields → String) (policies : List MeshPolicy) (meshType : MeshType)
    (rawPolicies : List RawPolicy) (force ignoreMissing : Bool) :
    EStateM PolicyExc PolicyCluster Unit := do
  let raw ← validateRawPolicies rawPolicies
  let resources := manager.buildPolicyResources hash policies meshType ++ raw.map some
  if resources = [] then manager.delete ignoreMissing
  else manager.krm.reconcile resources force ignoreMissing

/-! ## What it relies on -/

/-- The policies that the labels select are those of the list. -/
def Manages (labels : Labels) (c : PolicyCluster) (resources : List AuthorizationPolicy) : Prop :=
  ∀ key a, (∃ d, c key = some d ∧ selectedBy labels d ∧ d.policy = a) ↔ a ∈ resources ∧ a.key = key

/-- No two resources of the list share a name. -/
def OneEach (resources : List AuthorizationPolicy) : Prop :=
  ∀ a ∈ resources, ∀ b ∈ resources, a.key = b.key → a = b

/-- A resource manager with these labels, as it is documented: a call that returns has left
the resources that it was given and no others that the labels select. -/
structure KubernetesResourceManager.AsDocumented (krm : KubernetesResourceManager)
    (labels : Labels) : Prop where
  reconciled : ∀ {resources force ignoreMissing c c'}, OneEach resources →
    (krm.reconcile (resources.map some) force ignoreMissing).run c = .ok () c' →
      Manages labels c' resources
  deleted : ∀ {ignoreMissing c c'}, (krm.delete ignoreMissing).run c = .ok () c' →
    Manages labels c' []
  missing : ∀ {c c'}, (krm.delete true).run c = .error (.httpStatusError 404) c' →
    Manages labels c' []

/-- Istio admits the request by a policy that the labels select. -/
def AdmittedBy (labels : Labels) (istio : Istio) (r : Request) (c : PolicyCluster) : Prop :=
  ∃ key d, c key = some d ∧ selectedBy labels d ∧ istio.admits d.policy r

/-! ## The mesh -/

/-- The mesh relations of the beacon, each with the databag of the charm, and the cluster. -/
structure Mesh where
  relations : List (Nat × Databag)
  cluster : PolicyCluster

/-- A relation is made or ends, a charm handles a change of its relations, the beacon
reconciles what it reads or deletes all, or others write or delete a policy. -/
inductive MeshStep
  | related (id : Nat)
  | relationsChanged (id : Nat) (isLeader : Bool) (c : Consumer)
  | ended (id : Nat)
  | reconciled (rawPolicies : List RawPolicy) (force ignoreMissing : Bool)
  | deleted (ignoreMissing : Bool)
  | other (key : ResourceKey) (resource : Option Deployed)

/-- `_relations_changed`, on the databag of the mesh relation. What raises writes nothing. -/
def relationsChanged (isLeader : Bool) (c : Consumer) (bag : Databag) : Databag :=
  if isLeader then (updateServiceMesh c bag).toOption.getD bag else bag

/-- The value of this relation is changed. -/
def updated {β : Type} (id : Nat) (f : β → β) (l : List (Nat × β)) : List (Nat × β) :=
  l.map fun e => if e.1 = id then (e.1, f e.2) else e

/-- The cluster that a program leaves, whether it returns or raises. -/
def leftBy (x : EStateM PolicyExc PolicyCluster Unit) (c : PolicyCluster) : PolicyCluster :=
  match x.run c with
  | .ok _ c' => c'
  | .error _ c' => c'

section mesh

variable (hash : MeshPolicyFields → String) (manager : PolicyResourceManager)

/-- The beacon hands what it reads to the policy resource manager. -/
def enforced (m : Mesh) (rawPolicies : List RawPolicy) (force ignoreMissing : Bool) :
    PolicyCluster :=
  match meshInfo (m.relations.map Prod.snd) with
  | .ok policies =>
    leftBy (manager.reconcile hash policies .istio rawPolicies force ignoreMissing) m.cluster
  | .error _ => m.cluster

def meshStep (m : Mesh) : MeshStep → Mesh
  | .related id => { m with relations := m.relations ++ [(id, ∅)] }
  | .relationsChanged id isLeader c =>
    { m with relations := updated id (relationsChanged isLeader c) m.relations }
  | .ended id => { m with relations := m.relations.filter (·.1 ≠ id) }
  | .reconciled rawPolicies force ignoreMissing =>
    { m with cluster := enforced hash manager m rawPolicies force ignoreMissing }
  | .deleted ignoreMissing =>
    { m with cluster := leftBy (manager.delete ignoreMissing) m.cluster }
  | .other key resource => { m with cluster := Function.update m.cluster key resource }

end mesh

/-- The machine that only remembers who wrote last over each relation: nobody yet, or the
charm as it was then. -/
abbrev Told := List (Nat × Option Consumer)

def toldStep (t : Told) : MeshStep → Told
  | .related id => t ++ [(id, none)]
  | .relationsChanged id isLeader c => updated id (fun d => if isLeader then some c else d) t
  | .ended id => t.filter (·.1 ≠ id)
  | _ => t

/-- What the charms granted when they wrote last. -/
def granted (t : Told) : List MeshPolicyFields :=
  t.flatMap fun e => e.2.elim [] fun c => grants (sourceOf c) c

/-! ## What a reconcile that returns leaves -/

section manager

variable {labels : Labels} {c c' : PolicyCluster}

theorem admittedBy_iff {istio : Istio} {r : Request} {resources : List AuthorizationPolicy}
    (h : Manages labels c resources) :
    AdmittedBy labels istio r c ↔ ∃ a ∈ resources, istio.admits a r := by
  constructor
  · rintro ⟨key, d, hd, hsel, hadmits⟩
    exact ⟨d.policy, ((h key d.policy).mp ⟨d, hd, hsel, rfl⟩).1, hadmits⟩
  · rintro ⟨a, ha, hadmits⟩
    obtain ⟨d, hd, hsel, rfl⟩ := (h a.key a).mpr ⟨ha, rfl⟩
    exact ⟨_, d, hd, hsel, hadmits⟩

/-- Validation returns the policies as they are, and only when all have the type. -/
theorem validateRawPolicies_ok {rawPolicies : List RawPolicy} {raw : List AuthorizationPolicy}
    (h : (validateRawPolicies rawPolicies).run c = .ok raw c') :
    rawPolicies = raw.map .authorizationPolicy ∧ c' = c := by
  induction rawPolicies generalizing raw c' with
  | nil =>
    cases h
    exact ⟨rfl, rfl⟩
  | cons p rawPolicies ih =>
    cases p with
    | authorizationPolicy a =>
      obtain ⟨rest, c₁, hrest, hret⟩ := run_bind_ok_iff.mp h
      cases hret
      obtain ⟨rfl, rfl⟩ := ih hrest
      exact ⟨rfl, rfl⟩
    | other typeName => cases h

variable {manager : PolicyResourceManager} (hkrm : manager.krm.AsDocumented labels)

include hkrm

theorem manages_of_delete {ignoreMissing : Bool}
    (h : (manager.delete ignoreMissing).run c = .ok () c') : Manages labels c' [] := by
  unfold PolicyResourceManager.delete at h
  rw [run_tryCatch] at h
  split at h
  · rename_i hdel
    cases h
    exact hkrm.deleted hdel
  · rename_i e c₁ hdel
    split at h
    · rename_i hmissing
      obtain ⟨rfl, rfl⟩ := hmissing
      cases h
      exact hkrm.missing hdel
    · cases h

variable {hash : MeshPolicyFields → String} {policies : List MeshPolicy}
  {rawPolicies : List RawPolicy} {force ignoreMissing : Bool} {built : List AuthorizationPolicy}

/-- A reconcile that returns leaves what it built and the policies of the caller. -/
theorem manages_of_reconcile
    (hbuilt : buildPolicyResourcesIstio hash manager.appName manager.modelName policies =
      built.map some)
    (hone : ∀ raw, rawPolicies = raw.map .authorizationPolicy → OneEach (built ++ raw))
    (h : (manager.reconcile hash policies .istio rawPolicies force ignoreMissing).run c =
      .ok () c') :
    ∃ raw, rawPolicies = raw.map .authorizationPolicy ∧ Manages labels c' (built ++ raw) := by
  obtain ⟨raw, c₁, hraw, hrest⟩ := run_bind_ok_iff.mp h
  obtain ⟨heq, rfl⟩ := validateRawPolicies_ok hraw
  have hresources : manager.buildPolicyResources hash policies .istio ++ raw.map some =
      (built ++ raw).map some := by
    rw [PolicyResourceManager.buildPolicyResources, hbuilt, List.map_append]
  refine ⟨raw, heq, ?_⟩
  simp only [hresources] at hrest
  split at hrest
  · rename_i hempty
    rw [List.map_eq_nil_iff.mp hempty]
    exact manages_of_delete hkrm hrest
  · exact hkrm.reconciled (hone raw heq) hrest

end manager

/-! ## What the beacon builds -/

section built

variable {hash : MeshPolicyFields → String} {appName modelName : String}

theorem exists_of_expressible {p : MeshPolicyFields} (h : p.Expressible) :
    ∃ a, authorizationPolicy hash appName modelName p = some a := by
  unfold authorizationPolicy
  cases ht : p.targetType with
  | unit => exact ⟨_, if_pos ((validUnitPolicy_iff p).mpr (h ht))⟩
  | app => exact ⟨_, rfl⟩

/-- What is made of the policies, without the empty slots. -/
def made (hash : MeshPolicyFields → String) (appName modelName : String)
    (policies : List MeshPolicy) : List AuthorizationPolicy :=
  (buildPolicyResourcesIstio hash appName modelName policies).filterMap id

theorem mem_made {policies : List MeshPolicy} {a : AuthorizationPolicy} :
    a ∈ made hash appName modelName policies ↔
      ∃ p ∈ policies, authorizationPolicy hash appName modelName p.fields = some a := by
  simp [made, buildPolicyResourcesIstio]

/-- No slot is left empty when each policy can be expressed. -/
theorem buildPolicyResourcesIstio_of_expressible {policies : List MeshPolicy}
    (h : ∀ p ∈ policies, p.fields.Expressible) :
    buildPolicyResourcesIstio hash appName modelName policies =
      (made hash appName modelName policies).map some := by
  unfold made buildPolicyResourcesIstio
  induction policies with
  | nil => rfl
  | cons p policies ih =>
    obtain ⟨a, ha⟩ : ∃ a, authorizationPolicy hash appName modelName p.fields = some a :=
      exists_of_expressible (h p List.mem_cons_self)
    have hrest := ih fun q hq => h q (List.mem_cons_of_mem _ hq)
    simp only [List.map_cons, ha, List.filterMap_cons, id]
    exact congrArg (some a :: ·) hrest

/-- What a charm grants can be expressed: it asks nothing of layer 7 for its units. -/
theorem expressible_of_grants {source : String → CMRData} {c : Consumer} {p : MeshPolicyFields}
    (h : p ∈ grants source c) : p.Expressible := by
  obtain ⟨policy, -, hp⟩ := List.mem_flatMap.mp h
  obtain ⟨app, -, rfl⟩ := List.mem_map.mp hp
  cases policy with
  | app relation endpoints service => exact expressible_of_app rfl
  | unit relation ports =>
    intro _ e he
    simp only [meshPolicyFor] at he
    split at he
    · cases he
    · rw [List.mem_singleton.mp he]
      exact ⟨rfl, rfl, rfl⟩

theorem expressible_of_granted {t : Told} {policies : List MeshPolicy}
    (h : policies.map MeshPolicy.fields = granted t) : ∀ p ∈ policies, p.fields.Expressible := by
  intro p hp
  have hfields : p.fields ∈ granted t := h ▸ List.mem_map_of_mem hp
  obtain ⟨e, -, he⟩ := List.mem_flatMap.mp hfields
  cases hd : e.2 with
  | none => simp [hd] at he
  | some c =>
    rw [hd] at he
    exact expressible_of_grants he

/-- The policies of the charms have hashes that differ where the names show them, and the
policies of the caller have names of their own. -/
structure Distinct (hash : MeshPolicyFields → String) (appName modelName : String)
    (fields : List MeshPolicyFields) (rawPolicies : List RawPolicy) : Prop where
  long : ∀ p, 8 ≤ (hash p).length
  hashes : ∀ p ∈ fields, ∀ q ∈ fields, firstChars 8 (hash p) = firstChars 8 (hash q) → p = q
  raw : ∀ a b, .authorizationPolicy a ∈ rawPolicies → .authorizationPolicy b ∈ rawPolicies →
    a.key = b.key → a = b
  names : ∀ a, .authorizationPolicy a ∈ rawPolicies → ∀ p ∈ fields,
    a.name ≠ generateNetworkPolicyName hash appName modelName p

theorem oneEach_of_distinct {policies : List MeshPolicy} {raw : List AuthorizationPolicy}
    (h : Distinct hash appName modelName (policies.map MeshPolicy.fields)
      (raw.map .authorizationPolicy)) :
    OneEach (made hash appName modelName policies ++ raw) := by
  have hraw : ∀ {a}, a ∈ raw → RawPolicy.authorizationPolicy a ∈ raw.map .authorizationPolicy :=
    fun ha => List.mem_map_of_mem ha
  have hapart : ∀ a ∈ made hash appName modelName policies, ∀ b ∈ raw, a.key ≠ b.key := by
    intro a ha b hb heq
    obtain ⟨p, hp, hpa⟩ := mem_made.mp ha
    apply h.names b (hraw hb) p.fields (List.mem_map_of_mem hp)
    rw [← name_of_authorizationPolicy hpa]
    exact (Prod.mk.inj heq).2.symm
  intro a ha b hb heq
  rcases List.mem_append.mp ha with ha | ha <;> rcases List.mem_append.mp hb with hb | hb
  · obtain ⟨p, hp, hpa⟩ := mem_made.mp ha
    obtain ⟨q, hq, hqb⟩ := mem_made.mp hb
    have hname := (Prod.mk.inj heq).2
    rw [name_of_authorizationPolicy hpa, name_of_authorizationPolicy hqb] at hname
    have hpq := h.hashes p.fields (List.mem_map_of_mem hp) q.fields (List.mem_map_of_mem hq)
      (hash_of_name h.long hname)
    rw [hpq, hqb] at hpa
    exact (Option.some.inj hpa).symm
  · exact absurd heq (hapart a ha b hb)
  · exact absurd heq.symm (hapart b hb a ha)
  · exact h.raw a b (hraw ha) (hraw hb) heq

end built

/-! ## Every run -/

/-- The databag of a charm that wrote last as it was then. -/
def wireOf : Option Consumer → Databag
  | none => ∅
  | some c => (updateServiceMesh c ∅).toOption.getD ∅

/-- The databags hold what was told last, by charms that are well related. -/
structure InStep (m : Mesh) (t : Told) : Prop where
  wires : m.relations = t.map fun e => (e.1, wireOf e.2)
  wellRelated : ∀ e ∈ t, ∀ c ∈ e.2, WellRelated c

/-- The leader that writes is well related. -/
def WellGranted : MeshStep → Prop
  | .relationsChanged _ true c => WellRelated c
  | _ => True

theorem updated_map {β γ : Type} {w : β → γ} {f : γ → γ} {g : β → β} {l : List (Nat × β)}
    (id : Nat) (h : ∀ e ∈ l, f (w e.2) = w (g e.2)) :
    updated id f (l.map fun e => (e.1, w e.2)) = (updated id g l).map fun e => (e.1, w e.2) := by
  unfold updated
  rw [List.map_map, List.map_map]
  apply List.map_congr_left
  intro e he
  by_cases hid : e.1 = id
  · simp [hid, h e he]
  · simp [hid]

theorem relationsChanged_wireOf {id : Nat} {isLeader : Bool} {c : Consumer}
    (h : WellGranted (.relationsChanged id isLeader c)) {d : Option Consumer}
    (hd : ∀ c ∈ d, WellRelated c) :
    relationsChanged isLeader c (wireOf d) = wireOf (if isLeader then some c else d) := by
  cases isLeader with
  | false => rfl
  | true =>
    obtain ⟨ps, hps, -⟩ := updateServiceMesh_ok h
    cases d with
    | none => simp [relationsChanged, wireOf, hps, Except.toOption]
    | some c₁ =>
      obtain ⟨ps₁, hps₁, -⟩ := updateServiceMesh_ok (hd c₁ rfl)
      simp [relationsChanged, wireOf, hps, hps₁, Except.toOption]

theorem inStep_step {hash : MeshPolicyFields → String} {manager : PolicyResourceManager}
    {m : Mesh} {t : Told} (i : MeshStep) (h : InStep m t) (hi : WellGranted i) :
    InStep (meshStep hash manager m i) (toldStep t i) := by
  cases i with
  | related id =>
    refine ⟨?_, fun e he => ?_⟩
    · simp only [meshStep, toldStep, h.wires, List.map_append]
      rfl
    · rcases List.mem_append.mp he with he | he
      · exact h.wellRelated e he
      · rw [List.mem_singleton.mp he]
        simp
  | relationsChanged id isLeader c =>
    refine ⟨?_, fun e he => ?_⟩
    · simp only [meshStep, toldStep, h.wires]
      exact updated_map id fun e he => relationsChanged_wireOf hi (h.wellRelated e he)
    · obtain ⟨e₁, he₁, heq⟩ := List.mem_map.mp he
      have hwell := h.wellRelated e₁ he₁
      by_cases hid : e₁.1 = id
      · rw [if_pos hid] at heq
        cases isLeader with
        | false => exact heq ▸ hwell
        | true =>
          rw [← heq]
          rintro c₁ hc₁
          cases hc₁
          exact hi
      · rw [if_neg hid] at heq
        exact heq ▸ hwell
  | ended id =>
    refine ⟨?_, fun e he => h.wellRelated e (List.mem_of_mem_filter he)⟩
    simp only [meshStep, toldStep, h.wires, List.filter_map]
    rfl
  | reconciled rawPolicies force ignoreMissing => exact ⟨h.wires, h.wellRelated⟩
  | deleted ignoreMissing => exact ⟨h.wires, h.wellRelated⟩
  | other key resource => exact ⟨h.wires, h.wellRelated⟩

/-- The beacon reads what the charms granted when they wrote last. -/
theorem meshInfo_inStep {m : Mesh} {t : Told} (h : InStep m t) : ∃ ps,
    meshInfo (m.relations.map Prod.snd) = .ok ps ∧ ps.map MeshPolicy.fields = granted t := by
  apply meshInfo_ok
  rw [h.wires, List.map_map, List.forall₂_map_right_iff, List.forall₂_same]
  intro e he
  cases hd : e.2 with
  | none => exact ⟨[], by simp [wireOf, hd]; rfl, rfl⟩
  | some c =>
    obtain ⟨ps, hps, hgrants⟩ := updateServiceMesh_ok (h.wellRelated e he c hd)
    refine ⟨ps, ?_, hgrants⟩
    simp [wireOf, hd, hps, Except.toOption, policiesIn, Finmap.lookup_insert]

/-- The beacon calls its manager no more, and others write no policy with its labels and
over none with them. -/
def Quiet (labels : Labels) (m : Mesh) : MeshStep → Prop
  | .reconciled .. => False
  | .deleted _ => False
  | .other key resource =>
    (∀ d ∈ m.cluster key, ¬ selectedBy labels d) ∧ ∀ d ∈ resource, ¬ selectedBy labels d
  | _ => True

section enforcement

variable {hash : MeshPolicyFields → String} {manager : PolicyResourceManager} {labels : Labels}

theorem manages_step {m : Mesh} {resources : List AuthorizationPolicy} (i : MeshStep)
    (h : Manages labels m.cluster resources) (hi : Quiet labels m i) :
    Manages labels (meshStep hash manager m i).cluster resources := by
  cases i with
  | related id => exact h
  | relationsChanged id isLeader c => exact h
  | ended id => exact h
  | reconciled rawPolicies force ignoreMissing => exact hi.elim
  | deleted ignoreMissing => exact hi.elim
  | other key resource =>
    obtain ⟨hold, hnew⟩ := hi
    intro key' a
    rw [← h key' a]
    by_cases hkey : key' = key
    · subst hkey
      constructor
      · rintro ⟨d, hd, hsel, -⟩
        simp only [meshStep, Function.update_self] at hd
        exact absurd hsel (hnew d hd)
      · rintro ⟨d, hd, hsel, -⟩
        exact absurd hsel (hold d hd)
    · simp only [meshStep, Function.update_of_ne hkey]

/-- The reconcile of the beacon returns. -/
def Returns (hash : MeshPolicyFields → String) (manager : PolicyResourceManager) (m : Mesh)
    (rawPolicies : List RawPolicy) (force ignoreMissing : Bool) : Prop :=
  ∃ policies c', meshInfo (m.relations.map Prod.snd) = .ok policies ∧
    (manager.reconcile hash policies .istio rawPolicies force ignoreMissing).run m.cluster =
      .ok () c'

theorem enforced_of_returns {m : Mesh} {rawPolicies : List RawPolicy} {force ignoreMissing : Bool}
    {policies : List MeshPolicy} {c' : PolicyCluster}
    (hread : meshInfo (m.relations.map Prod.snd) = .ok policies)
    (h : (manager.reconcile hash policies .istio rawPolicies force ignoreMissing).run m.cluster =
      .ok () c') : enforced hash manager m rawPolicies force ignoreMissing = c' := by
  unfold enforced leftBy
  rw [hread]
  simp only [h]

theorem inStep_run {m : Mesh} {t : Told} (h : InStep m t) {is : List MeshStep}
    (hcharms : ∀ i ∈ is, WellGranted i) :
    InStep (run (meshStep hash manager) m is) (run toldStep t is) := by
  refine lockstep (E := fun i k => i = k ∧ WellGranted i) (fun m t i k hm hik => ?_) h
    (List.forall₂_same.mpr fun i hi => ⟨rfl, hcharms i hi⟩)
  obtain ⟨rfl, hi⟩ := hik
  exact inStep_step i hm hi

/-- Istio admits by what is made of the policies exactly what they grant. -/
theorem made_admits_iff {istio : Istio} {r : Request} (hdoc : istio.AsDocumented)
    {policies : List MeshPolicy}
    (hexp : ∀ p ∈ policies, p.fields.Expressible)
    (hnamed : ∀ p ∈ policies.map MeshPolicy.fields,
      Named p.sourceAppName ∧ Named p.sourceNamespace) (hr : Named r.sourceNamespace) :
    (∃ a ∈ made hash manager.appName manager.modelName policies, istio.admits a r) ↔
      ∃ p ∈ policies.map MeshPolicy.fields, p.Grants istio r := by
  have hone : ∀ p ∈ policies, (∃ a, authorizationPolicy hash manager.appName manager.modelName
      p.fields = some a ∧ istio.admits a r) ↔ p.fields.Grants istio r := by
    intro p hp
    obtain ⟨happ, hns⟩ := hnamed p.fields (List.mem_map_of_mem hp)
    rw [authorizationPolicy_admits_iff hdoc happ hns hr p.valid]
    exact and_iff_right (hexp p hp)
  constructor
  · rintro ⟨a, ha, hadmits⟩
    obtain ⟨p, hp, hpa⟩ := mem_made.mp ha
    exact ⟨p.fields, List.mem_map_of_mem hp, (hone p hp).mp ⟨a, hpa, hadmits⟩⟩
  · rintro ⟨fields, hfields, hgrants⟩
    obtain ⟨p, hp, rfl⟩ := List.mem_map.mp hfields
    obtain ⟨a, hpa, hadmits⟩ := (hone p hp).mpr hgrants
    exact ⟨a, mem_made.mpr ⟨p, hp, hpa⟩, hadmits⟩

end enforcement

/-! ## A manager at work, for the example -/

/-- What is left of a policy that its manager does not want. -/
def unselected (labels : Labels) (d : Option Deployed) : Option Deployed :=
  d.filter fun d => !selectedBy labels d

/-- A resource manager that is refused nothing. -/
def labelledKrm (labels : Labels) : KubernetesResourceManager where
  reconcile resources _ _ :=
    if none ∈ resources then throw .krmError
    else modify fun c key =>
      match (resources.filterMap id).find? (·.key = key) with
      | some a => some ⟨labels, a⟩
      | none => unselected labels (c key)
  delete _ := modify fun c key => unselected labels (c key)

theorem selectedBy_self (labels : Labels) (a : AuthorizationPolicy) :
    selectedBy labels ⟨labels, a⟩ = true := by
  unfold selectedBy
  rw [List.all_eq_true]
  intro e he
  exact decide_eq_true (AList.mem_lookup_iff.mpr he)

theorem not_selected {labels : Labels} {d : Option Deployed} {e : Deployed}
    (h : unselected labels d = some e) : ¬ selectedBy labels e := by
  rw [unselected, Option.filter_eq_some_iff] at h
  simpa using h.2

theorem labelledKrm_asDocumented (labels : Labels) :
    (labelledKrm labels).AsDocumented labels where
  reconciled := by
    intro resources _ _ c c' hone h
    have hnone : none ∉ resources.map some := by simp
    have hsome : (resources.map some).filterMap id = resources := by simp [List.filterMap_map]
    simp only [labelledKrm, if_neg hnone, hsome] at h
    cases h
    intro key a
    cases hfind : resources.find? (·.key = key) with
    | none =>
      have hno : ∀ b ∈ resources, b.key ≠ key := by simpa using List.find?_eq_none.mp hfind
      constructor
      · rintro ⟨d, hd, hsel, -⟩
        simp only [hfind] at hd
        exact absurd hsel (not_selected hd)
      · rintro ⟨ha, hkey⟩
        exact absurd hkey (hno a ha)
    | some b =>
      have hb : b ∈ resources := List.mem_of_find?_eq_some hfind
      have hkey : b.key = key := by simpa using List.find?_some hfind
      constructor
      · rintro ⟨d, hd, -, rfl⟩
        simp only [hfind, Option.some.injEq] at hd
        subst hd
        exact ⟨hb, hkey⟩
      · rintro ⟨ha, hkey'⟩
        cases hone a ha b hb (hkey'.trans hkey.symm)
        exact ⟨⟨labels, a⟩, by simp only [hfind], selectedBy_self labels a, rfl⟩
  deleted := by
    intro _ c c' h
    cases h
    intro key a
    simp only [List.not_mem_nil, false_and, iff_false]
    rintro ⟨d, hd, hsel, -⟩
    exact absurd hsel (not_selected hd)
  missing := by
    intro c c' h
    cases h

theorem returns_labelledKrm {hash : MeshPolicyFields → String} {manager : PolicyResourceManager}
    {labels : Labels} (hkrm : manager.krm = labelledKrm labels) {m : Mesh} {t : Told}
    (h : InStep m t) (force ignoreMissing : Bool) :
    Returns hash manager m [] force ignoreMissing := by
  obtain ⟨policies, hread, hfields⟩ := meshInfo_inStep h
  obtain ⟨built, hbuilt⟩ : ∃ built : List AuthorizationPolicy,
      manager.buildPolicyResources hash policies .istio = built.map some :=
    ⟨_, buildPolicyResourcesIstio_of_expressible (expressible_of_granted hfields)⟩
  have hnone : none ∉ built.map some := by simp
  refine ⟨policies, ?_⟩
  unfold PolicyResourceManager.reconcile PolicyResourceManager.delete
  simp only [validateRawPolicies, pure_bind, List.map_nil, List.append_nil, hbuilt, hkrm]
  split
  · exact ⟨_, hread, rfl⟩
  · simp only [labelledKrm, if_neg hnone]
    exact ⟨_, hread, rfl⟩

def beaconLabels : Labels := AList.singleton "app.kubernetes.io/name" "istio-beacon-kubeflow"

def beacon : PolicyResourceManager := ⟨"istio-beacon", "kubeflow", labelledKrm beaconLabels⟩

/-- The charm with related applications in its own model only. -/
def meshedCatalogue : Consumer :=
  { catalogue with
    relations := fun name => if name = "data" then ["portal"] else ["prometheus"]
    cmrRelations := [] }

/-- The charm joins the mesh. -/
def joining : List MeshStep := [.related 1, .relationsChanged 1 true meshedCatalogue]

end oidc_gatekeeper.service_mesh
