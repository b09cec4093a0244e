-- The mesh policies as Istio gets them: `_build_policy_resources_istio` of the
-- service-mesh library makes an authorization policy of each one. Istio admits what
-- the mesh policies grant, and no resource takes the name of another one.
import OidcGatekeeper.Separators
import OidcGatekeeper.ServiceMesh

namespace oidc_gatekeeper.service_mesh

/-! ## The resources -/

structure Operation where
  ports : List String
  hosts : Option (List String)
  methods : Option (List Method)
  paths : Option (List String)
  deriving DecidableEq

/-- A rule, with the principals of its one source. -/
structure Rule where
  principals : List String
  operations : List Operation
  deriving DecidableEq

structure PolicyTargetReference where
  kind : String
  group : String
  name : String
  deriving DecidableEq

structure AuthorizationPolicy where
  name : String
  targetNamespace : String
  selector : Option (AList fun _ : String => String)
  targetRefs : List PolicyTargetReference
  rules : List Rule
  deriving DecidableEq

/-! ## The translation -/

def peerIdentityForServiceAccount (serviceAccount sourceNamespace : String) : String :=
  "cluster.local/ns/" ++ sourceNamespace ++ "/sa/" ++ serviceAccount

/-- Juju gives each application a service account of its own name. -/
def peerIdentityForJujuApplication (appName sourceNamespace : String) : String :=
  peerIdentityForServiceAccount appName sourceNamespace

/-- `s[:n]`. -/
def firstChars (n : Nat) (s : String) : String := .ofList (s.toList.take n)

/-- `a or b`, of optional strings. -/
def orElse (a b : Option String) : Option String := if given a then a else b

section translation

-- `_hash_pydantic_model`, and the names of the application and of its model.
variable (hash : MeshPolicyFields → String) (appName modelName : String)

/-- `_generate_network_policy_name`. -/
def generateNetworkPolicyName (p : MeshPolicyFields) : String :=
  let target := (orElse (orElse p.targetAppName p.targetService) (some "custom-selector")).getD ""
  let name := "-".intercalate [appName, modelName, "policy", p.sourceAppName, p.sourceNamespace,
    target, firstChars 8 (hash p)]
  if 253 < name.length then
    "-".intercalate [appName, modelName, "policy", firstChars 30 p.sourceAppName,
      firstChars 30 p.sourceNamespace, firstChars 30 target, firstChars 8 (hash p)]
  else name

/-- The principals of every rule: the application that the policy is for. -/
def principalsOf (p : MeshPolicyFields) : List String :=
  [peerIdentityForJujuApplication p.sourceAppName p.sourceNamespace]

/-- Neither `None` nor an empty list. -/
def nonempty {α : Type} (xs : Option (List α)) : Bool := !(xs.getD []).isEmpty

/-- `[str(p) for p in endpoint.ports] if endpoint.ports else []`. -/
def portsOf (e : Endpoint) : List String :=
  if nonempty e.ports then (e.ports.getD []).map fun p => .ofList (json.writeInt p.val) else []

/-- A policy for units has no attributes of layer 7. -/
def validUnitPolicy (p : MeshPolicyFields) : Bool :=
  !p.endpoints.any fun e => nonempty e.methods || nonempty e.paths || nonempty e.hosts

/-- The label that Juju gives to the pods of an application. -/
def nameLabel (app : String) : AList fun _ : String => String :=
  AList.singleton "app.kubernetes.io/name" app

def workloadSelector (p : MeshPolicyFields) : Option (AList fun _ : String => String) :=
  if (p.targetSelectorLabels.getD ∅).entries ≠ [] then p.targetSelectorLabels
  else if given p.targetAppName then some (nameLabel (p.targetAppName.getD ""))
  else none

def unitPolicy (p : MeshPolicyFields) : AuthorizationPolicy where
  name := generateNetworkPolicyName hash appName modelName p
  targetNamespace := p.targetNamespace
  selector := workloadSelector p
  targetRefs := []
  rules := [⟨principalsOf p, p.endpoints.map fun e => ⟨portsOf e, none, none, none⟩⟩]

def appPolicy (p : MeshPolicyFields) : AuthorizationPolicy where
  name := generateNetworkPolicyName hash appName modelName p
  targetNamespace := p.targetNamespace
  selector := none
  targetRefs := [⟨"Service", "", (orElse p.targetService p.targetAppName).getD ""⟩]
  rules := [⟨principalsOf p,
    p.endpoints.map fun e => ⟨portsOf e, e.hosts, e.methods, e.paths⟩⟩]

/-- One turn of the loop. It makes nothing of a policy for units that is not valid. -/
def authorizationPolicy (p : MeshPolicyFields) : Option AuthorizationPolicy :=
  match p.targetType with
  | .unit => if validUnitPolicy p then some (unitPolicy hash appName modelName p) else none
  | .app => some (appPolicy hash appName modelName p)

/-- `_build_policy_resources_istio`. -/
def buildPolicyResourcesIstio (policies : List MeshPolicy) : List (Option AuthorizationPolicy) :=
  policies.map fun p => authorizationPolicy hash appName modelName p.fields

end translation

/-! ## What they mean -/

/-- A request in the mesh: the application that sends it, the pod that it is for with its
labels, the service that it was sent to, and what it asks for. -/
structure Request where
  sourceApp : String
  sourceNamespace : String
  targetNamespace : String
  podLabels : String → Option String
  service : Option String
  port : Int
  host : String
  method : String
  path : String

/-- Istio decides which requests it admits by an authorization policy that allows. -/
structure Istio where
  matched (pattern value : String) : Bool
  hostMatched (pattern host : String) : Bool
  meets (operation : Operation) (r : Request) : Bool
  appliesTo (policy : AuthorizationPolicy) (r : Request) : Bool
  admits (policy : AuthorizationPolicy) (r : Request) : Bool

/-- A list that is not set, or is empty, is met by everything. -/
def AnyOf {α : Type} (xs : List α) (q : α → Prop) : Prop := xs = [] ∨ ∃ x ∈ xs, q x

instance {α : Type} (xs : List α) (q : α → Prop) [DecidablePred q] : Decidable (AnyOf xs q) :=
  inferInstanceAs (Decidable (_ ∨ _))

/-- What the reference of authorization policies says of Istio. -/
structure Istio.AsDocumented (istio : Istio) : Prop where
  /-- A pattern without a star is met by nothing but itself. -/
  exact : ∀ pattern value, '*' ∉ pattern.toList → (istio.matched pattern value ↔ pattern = value)
  /-- All fields of an operation have to be met. -/
  meets_iff : ∀ o r, istio.meets o r ↔
    AnyOf o.ports (· = .ofList (json.writeInt r.port)) ∧
    AnyOf (o.hosts.getD []) (istio.hostMatched · r.host) ∧
    AnyOf (o.methods.getD []) (istio.matched ·.value r.method) ∧
    AnyOf (o.paths.getD []) (istio.matched · r.path)
  /-- A policy is for one namespace, and there for the pods of its selector and for the
  services that it refers to. -/
  appliesTo_iff : ∀ a r, istio.appliesTo a r ↔ a.targetNamespace = r.targetNamespace ∧
    (∀ e ∈ (a.selector.getD ∅).entries, r.podLabels e.1 = some e.2) ∧
    AnyOf a.targetRefs fun ref => ref.kind = "Service" ∧ ref.group = "" ∧ r.service = some ref.name
  /-- One of the rules has to be met, by the source of the request and by what it asks for. -/
  admits_iff : ∀ a r, istio.admits a r ↔ istio.appliesTo a r ∧ ∃ rule ∈ a.rules,
    AnyOf rule.principals
      (istio.matched · (peerIdentityForServiceAccount r.sourceApp r.sourceNamespace)) ∧
    AnyOf rule.operations (istio.meets · r)

section meaning

variable (istio : Istio) (r : Request)

/-- What an endpoint allows. Its hosts and paths are patterns of Istio. -/
def Endpoint.Allows (e : Endpoint) : Prop :=
  AnyOf (e.ports.getD []) (·.val = r.port) ∧
    AnyOf (e.hosts.getD []) (istio.hostMatched · r.host) ∧
    AnyOf (e.methods.getD []) (·.value = r.method) ∧
    AnyOf (e.paths.getD []) (istio.matched · r.path)

/-- The target of a policy: a service, or the pods of an application, or those with some
labels, or all pods of the namespace. -/
def MeshPolicyFields.Targets (p : MeshPolicyFields) : Prop :=
  match p.targetType with
  | .app => r.service = orElse p.targetService p.targetAppName
  | .unit => (given p.targetAppName → r.podLabels "app.kubernetes.io/name" = p.targetAppName) ∧
    ∀ e ∈ (p.targetSelectorLabels.getD ∅).entries, r.podLabels e.1 = some e.2

/-- What a mesh policy grants. -/
def MeshPolicyFields.Grants (p : MeshPolicyFields) : Prop :=
  p.sourceAppName = r.sourceApp ∧ p.sourceNamespace = r.sourceNamespace ∧
    p.targetNamespace = r.targetNamespace ∧ p.Targets r ∧ AnyOf p.endpoints (·.Allows istio r)

/-- Istio has no policy for units with attributes of layer 7. -/
def MeshPolicyFields.Expressible (p : MeshPolicyFields) : Prop :=
  p.targetType = .unit → ∀ e ∈ p.endpoints,
    e.methods.getD [] = [] ∧ e.paths.getD [] = [] ∧ e.hosts.getD [] = []

end meaning

/-! ## The translation keeps the meaning -/

/-- A name of Juju: letters, digits and hyphens. -/
def Named (s : String) : Prop := '*' ∉ s.toList ∧ '/' ∉ s.toList

theorem toList_peerIdentity (app sourceNamespace : String) :
    (peerIdentityForServiceAccount app sourceNamespace).toList =
      "cluster.local/ns/".toList ++
        (sourceNamespace.toList ++ '/' :: ("sa/".toList ++ app.toList)) := by
  have hsa : "/sa/".toList = '/' :: "sa/".toList := by decide
  unfold peerIdentityForServiceAccount
  rw [String.toList_append, String.toList_append, String.toList_append, hsa]
  simp only [List.append_assoc, List.cons_append]

/-- No two applications have one identity. -/
theorem peerIdentity_eq_iff {app app' ns ns' : String} (h : '/' ∉ ns.toList)
    (h' : '/' ∉ ns'.toList) : peerIdentityForServiceAccount app ns =
      peerIdentityForServiceAccount app' ns' ↔ app = app' ∧ ns = ns' := by
  constructor
  · intro heq
    have hlist := congrArg String.toList heq
    rw [toList_peerIdentity, toList_peerIdentity] at hlist
    have htail := List.append_cancel_left hlist
    have hpieces := congrArg (List.splitOn '/') htail
    rw [separators.splitOn_append '/' h, separators.splitOn_append '/' h'] at hpieces
    have hns : ns.toList = ns'.toList := (List.cons.inj hpieces).1
    rw [hns] at htail
    have happ := List.append_cancel_left (List.cons.inj (List.append_cancel_left htail)).2
    exact ⟨String.toList_injective happ, String.toList_injective hns⟩
  · rintro ⟨rfl, rfl⟩
    rfl

theorem notMem_peerIdentity {app ns : String} (happ : Named app) (hns : Named ns) :
    '*' ∉ (peerIdentityForServiceAccount app ns).toList := by
  rw [toList_peerIdentity]
  simp [happ.1, hns.1]

theorem anyOf_singleton {α : Type} {x : α} {q : α → Prop} : AnyOf [x] q ↔ q x := by
  simp [AnyOf]

theorem anyOf_map {α β : Type} {f : α → β} {xs : List α} {q : β → Prop} :
    AnyOf (xs.map f) q ↔ AnyOf xs fun x => q (f x) := by
  simp [AnyOf]

theorem anyOf_congr {α : Type} {xs : List α} {q q' : α → Prop} (h : ∀ x ∈ xs, (q x ↔ q' x)) :
    AnyOf xs q ↔ AnyOf xs q' := by
  unfold AnyOf
  refine or_congr_right (exists_congr fun x => and_congr_right fun hx => h x hx)

section meaning

variable {istio : Istio} {r : Request}

theorem portsOf_eq (e : Endpoint) :
    portsOf e = (e.ports.getD []).map fun p => .ofList (json.writeInt p.val) := by
  unfold portsOf nonempty
  cases e.ports.getD [] <;> rfl

theorem ports_admit_iff (e : Endpoint) :
    AnyOf (portsOf e) (· = .ofList (json.writeInt r.port)) ↔
      AnyOf (e.ports.getD []) (·.val = r.port) := by
  rw [portsOf_eq, anyOf_map]
  apply anyOf_congr
  intro p _
  constructor
  · intro h
    exact json.writeInt_injective (String.ofList_injective h)
  · intro h
    rw [h]

theorem validUnitPolicy_iff (p : MeshPolicyFields) : validUnitPolicy p = true ↔
    ∀ e ∈ p.endpoints, e.methods.getD [] = [] ∧ e.paths.getD [] = [] ∧ e.hosts.getD [] = [] := by
  simp [validUnitPolicy, nonempty, and_assoc]

theorem given_iff {s : Option String} : given s = true ↔ ∃ t, s = some t ∧ t ≠ "" := by
  cases s <;> simp [given]

/-- A policy for units selects the pods that it targets. -/
theorem selects_iff {p : MeshPolicyFields} (hv : p.Valid) (ht : p.targetType = .unit) :
    (∀ e ∈ ((workloadSelector p).getD ∅).entries, r.podLabels e.1 = some e.2) ↔ p.Targets r := by
  obtain ⟨hone, -⟩ : ¬ (given p.targetAppName ∧ (p.targetSelectorLabels.getD ∅).entries ≠ []) ∧
      ¬ given p.targetService := by
    unfold MeshPolicyFields.Valid at hv
    rwa [ht] at hv
  have htargets : p.Targets r ↔
      (given p.targetAppName → r.podLabels "app.kubernetes.io/name" = p.targetAppName) ∧
        ∀ e ∈ (p.targetSelectorLabels.getD ∅).entries, r.podLabels e.1 = some e.2 := by
    unfold MeshPolicyFields.Targets
    rw [ht]
  rw [htargets]
  unfold workloadSelector
  by_cases hlabels : (p.targetSelectorLabels.getD ∅).entries = []
  · rw [if_neg (not_not.mpr hlabels), hlabels]
    by_cases happ : given p.targetAppName
    · obtain ⟨app, heq, -⟩ := given_iff.mp happ
      have hentries : (nameLabel app).entries = [⟨"app.kubernetes.io/name", app⟩] := rfl
      have hgiven : given (some app) = true := heq ▸ happ
      simp [heq, hgiven, hentries]
    · simp [happ]
  · have happ : ¬ given p.targetAppName := fun happ => hone ⟨happ, hlabels⟩
    simp [hlabels, happ]

theorem orElse_eq {a b : Option String} (h : given a ∨ given b) :
    some ((orElse a b).getD "") = orElse a b := by
  unfold orElse
  by_cases ha : given a
  · obtain ⟨s, rfl, -⟩ := given_iff.mp ha
    simp [ha]
  · obtain ⟨s, rfl, -⟩ := given_iff.mp (h.resolve_left ha)
    simp [ha]

theorem expressible_of_app {p : MeshPolicyFields} (ht : p.targetType = .app) : p.Expressible := by
  intro h
  rw [ht] at h
  cases h

theorem notMem_method (m : Method) : '*' ∉ m.value.toList := by
  cases m <;> decide

section policy

variable (hdoc : istio.AsDocumented) {hash : MeshPolicyFields → String}
  {appName modelName : String} {p : MeshPolicyFields}

include hdoc

theorem meets_app (e : Endpoint) :
    istio.meets ⟨portsOf e, e.hosts, e.methods, e.paths⟩ r ↔ e.Allows istio r := by
  have hmethods : AnyOf (e.methods.getD []) (istio.matched ·.value r.method) ↔
      AnyOf (e.methods.getD []) (·.value = r.method) :=
    anyOf_congr fun m _ => hdoc.exact _ _ (notMem_method m)
  rw [hdoc.meets_iff, Endpoint.Allows, ports_admit_iff, hmethods]

theorem meets_unit {e : Endpoint}
    (h : e.methods.getD [] = [] ∧ e.paths.getD [] = [] ∧ e.hosts.getD [] = []) :
    istio.meets ⟨portsOf e, none, none, none⟩ r ↔ e.Allows istio r := by
  rw [hdoc.meets_iff, Endpoint.Allows, ports_admit_iff, h.1, h.2.1, h.2.2]
  simp [AnyOf]

variable (happ : Named p.sourceAppName) (hns : Named p.sourceNamespace)
  (hr : Named r.sourceNamespace)

include happ hns hr

theorem principals_admit_iff : AnyOf (principalsOf p)
      (istio.matched · (peerIdentityForServiceAccount r.sourceApp r.sourceNamespace)) ↔
    p.sourceAppName = r.sourceApp ∧ p.sourceNamespace = r.sourceNamespace := by
  rw [principalsOf, anyOf_singleton, peerIdentityForJujuApplication,
    hdoc.exact _ _ (notMem_peerIdentity happ hns), peerIdentity_eq_iff hns.2 hr.2]

theorem unitPolicy_admits_iff (hv : p.Valid) (ht : p.targetType = .unit)
    (hunit : validUnitPolicy p = true) :
    istio.admits (unitPolicy hash appName modelName p) r ↔ p.Grants istio r := by
  have hops : AnyOf (p.endpoints.map fun e => (⟨portsOf e, none, none, none⟩ : Operation))
      (istio.meets · r) ↔ AnyOf p.endpoints (·.Allows istio r) := by
    rw [anyOf_map]
    exact anyOf_congr fun e he => meets_unit hdoc ((validUnitPolicy_iff p).mp hunit e he)
  have happlies : istio.appliesTo (unitPolicy hash appName modelName p) r ↔
      p.targetNamespace = r.targetNamespace ∧ p.Targets r := by
    rw [hdoc.appliesTo_iff, ← selects_iff hv ht]
    simp [unitPolicy, AnyOf]
  rw [hdoc.admits_iff, happlies]
  unfold MeshPolicyFields.Grants unitPolicy
  simp only [List.mem_singleton, exists_eq_left, hops, principals_admit_iff hdoc happ hns hr]
  tauto

theorem appPolicy_admits_iff (hv : p.Valid) (ht : p.targetType = .app) :
    istio.admits (appPolicy hash appName modelName p) r ↔ p.Grants istio r := by
  have hops : AnyOf (p.endpoints.map fun e =>
      (⟨portsOf e, e.hosts, e.methods, e.paths⟩ : Operation)) (istio.meets · r) ↔
        AnyOf p.endpoints (·.Allows istio r) := by
    rw [anyOf_map]
    exact anyOf_congr fun e _ => meets_app hdoc e
  have hgiven : given p.targetService ∨ given p.targetAppName := by
    unfold MeshPolicyFields.Valid at hv
    rw [ht] at hv
    exact hv.1.symm
  have happlies : istio.appliesTo (appPolicy hash appName modelName p) r ↔
      p.targetNamespace = r.targetNamespace ∧ p.Targets r := by
    have htargets : p.Targets r ↔ r.service = orElse p.targetService p.targetAppName := by
      unfold MeshPolicyFields.Targets
      rw [ht]
    rw [hdoc.appliesTo_iff, htargets, ← orElse_eq hgiven]
    simp [appPolicy, anyOf_singleton]
  rw [hdoc.admits_iff, happlies]
  unfold MeshPolicyFields.Grants appPolicy
  simp only [List.mem_singleton, exists_eq_left, hops, principals_admit_iff hdoc happ hns hr]
  tauto

/-- The policy that is made of a mesh policy, if there is one, admits what that one grants. -/
theorem authorizationPolicy_admits_iff (hv : p.Valid) :
    (∃ a, authorizationPolicy hash appName modelName p = some a ∧ istio.admits a r) ↔
      p.Expressible ∧ p.Grants istio r := by
  unfold authorizationPolicy
  cases ht : p.targetType with
  | unit =>
    have hexp : p.Expressible ↔ validUnitPolicy p = true := by
      rw [validUnitPolicy_iff]
      exact forall_prop_of_true ht
    by_cases hunit : validUnitPolicy p = true
    · simp [hunit, hexp, unitPolicy_admits_iff hdoc happ hns hr hv ht hunit]
    · simp [hunit, hexp]
  | app =>
    simp [expressible_of_app ht, appPolicy_admits_iff hdoc happ hns hr hv ht]

end policy

/-- A match in whole, by a prefix, by a suffix, or by anything that is not empty. -/
def starMatched (pattern value : List Char) : Bool :=
  if pattern = ['*'] then value ≠ []
  else pattern = value || (pattern.getLast? = some '*' && pattern.dropLast.isPrefixOf value) ||
    (pattern.head? = some '*' && pattern.tail.isSuffixOf value)

theorem starMatched_exact {pattern value : List Char} (h : '*' ∉ pattern) :
    starMatched pattern value ↔ pattern = value := by
  have hone : pattern ≠ ['*'] := by
    rintro rfl
    simp at h
  have hlast : pattern.getLast? ≠ some '*' := fun hl => h (List.mem_of_getLast? hl)
  have hhead : pattern.head? ≠ some '*' := fun hh => h (List.mem_of_head? hh)
  simp [starMatched, hone, hlast, hhead]

def Istio.sampleMeets (o : Operation) (r : Request) : Bool :=
  AnyOf o.ports (· = .ofList (json.writeInt r.port)) ∧
    AnyOf (o.hosts.getD []) (fun p => starMatched (p.toLower).toList r.host.toLower.toList) ∧
    AnyOf (o.methods.getD []) (fun m => starMatched m.value.toList r.method.toList) ∧
    AnyOf (o.paths.getD []) (fun p => starMatched p.toList r.path.toList)

def Istio.sampleAppliesTo (a : AuthorizationPolicy) (r : Request) : Bool :=
  a.targetNamespace = r.targetNamespace ∧
    (∀ e ∈ (a.selector.getD ∅).entries, r.podLabels e.1 = some e.2) ∧
    AnyOf a.targetRefs fun ref => ref.kind = "Service" ∧ ref.group = "" ∧ r.service = some ref.name

/-- The case of a host does not matter. -/
def Istio.sample : Istio where
  matched pattern value := starMatched pattern.toList value.toList
  hostMatched pattern host := starMatched pattern.toLower.toList host.toLower.toList
  meets := sampleMeets
  appliesTo := sampleAppliesTo
  admits a r := sampleAppliesTo a r ∧ ∃ rule ∈ a.rules,
    AnyOf rule.principals (fun p => starMatched p.toList
      (peerIdentityForServiceAccount r.sourceApp r.sourceNamespace).toList) ∧
    AnyOf rule.operations (sampleMeets · r)

theorem Istio.sample_asDocumented : Istio.sample.AsDocumented where
  exact _ _ h := (starMatched_exact h).trans String.toList_inj
  meets_iff _ _ := decide_eq_true_iff
  appliesTo_iff _ _ := decide_eq_true_iff
  admits_iff _ _ := decide_eq_true_iff

/-- Two policies for one charm. -/
def catalogueApp : MeshPolicyFields :=
  ⟨"kubeflow", "portal", "kubeflow", some "catalogue", none, none, .app,
    [⟨none, some [dataPort], some [.get], some ["/data"]⟩]⟩

def catalogueUnit : MeshPolicyFields :=
  ⟨"kubeflow", "prometheus", "kubeflow", some "catalogue", none, none, .unit,
    [⟨none, some [metricsPort], none, none⟩]⟩

/-- The hashes of the two policies. -/
def catalogueHash (p : MeshPolicyFields) : String :=
  if p = catalogueApp then "9ddf69ac6fb6a4763505b4a4b21bcbe06dec119ee58cfb43891554a29ae1b48f"
  else "38b0682cb03786631f05ceb3f0e179dea342faf94b5fa3a8cac668c28fecf592"

/-- A request of Prometheus to a pod of the charm. -/
def scrape : Request where
  sourceApp := "prometheus"
  sourceNamespace := "kubeflow"
  targetNamespace := "kubeflow"
  podLabels k := if k = "app.kubernetes.io/name" then some "catalogue" else none
  service := none
  port := 9090
  host := "10.1.2.3"
  method := ""
  path := ""

theorem scrape_granted : catalogueUnit.Grants Istio.sample scrape := by
  simp [MeshPolicyFields.Grants, MeshPolicyFields.Targets, catalogueUnit, scrape, AnyOf,
    Endpoint.Allows, metricsPort]

end meaning

/-! ## The names of the resources -/

section names

variable {hash : MeshPolicyFields → String} {appName modelName : String}

theorem length_firstChars (n : Nat) (s : String) :
    (firstChars n s).length = min n s.length := by
  simp [firstChars, ← String.length_toList]

/-- The length of a name of seven parts. -/
theorem length_joined (a b c d e f g : String) :
    ("-".intercalate [a, b, c, d, e, f, g]).length =
      a.length + b.length + c.length + d.length + e.length + f.length + g.length + 6 := by
  simp only [String.intercalate_cons_cons, String.intercalate_singleton, String.length_append]
  have hdash : "-".length = 1 := rfl
  omega

/-- A name of seven parts ends with the last one. -/
theorem toList_joined (a b c d e f g : String) : ∃ l,
    ("-".intercalate [a, b, c, d, e, f, g]).toList = l ++ g.toList := by
  simp only [String.intercalate_cons_cons, String.intercalate_singleton, String.toList_append,
    ← List.append_assoc]
  exact ⟨_, rfl⟩

theorem length_generateNetworkPolicyName (hlen : appName.length + modelName.length ≤ 143)
    (p : MeshPolicyFields) : (generateNetworkPolicyName hash appName modelName p).length ≤ 253 := by
  unfold generateNetworkPolicyName
  simp only
  split
  · have hpolicy : "policy".length = 6 := rfl
    rw [length_joined, length_firstChars, length_firstChars, length_firstChars,
      length_firstChars]
    omega
  · omega

/-- A name ends with the first digits of the hash, also when it is truncated. -/
theorem toList_generateNetworkPolicyName (p : MeshPolicyFields) : ∃ l,
    (generateNetworkPolicyName hash appName modelName p).toList =
      l ++ (firstChars 8 (hash p)).toList := by
  unfold generateNetworkPolicyName
  simp only
  split
  · exact toList_joined ..
  · exact toList_joined ..

theorem hash_of_name (hhash : ∀ p, 8 ≤ (hash p).length) {p q : MeshPolicyFields}
    (h : generateNetworkPolicyName hash appName modelName p =
      generateNetworkPolicyName hash appName modelName q) :
    firstChars 8 (hash p) = firstChars 8 (hash q) := by
  obtain ⟨l, hl⟩ : ∃ l, (generateNetworkPolicyName hash appName modelName p).toList = l ++ _ :=
    toList_generateNetworkPolicyName p
  obtain ⟨l', hl'⟩ : ∃ l, (generateNetworkPolicyName hash appName modelName q).toList = l ++ _ :=
    toList_generateNetworkPolicyName q
  rw [h, hl'] at hl
  have hlength : (firstChars 8 (hash q)).toList.length = (firstChars 8 (hash p)).toList.length := by
    have hp := hhash p
    have hq := hhash q
    rw [String.length_toList, String.length_toList, length_firstChars, length_firstChars]
    omega
  exact String.toList_injective (List.append_inj_right' hl hlength).symm

theorem name_of_authorizationPolicy {p : MeshPolicyFields} {a : AuthorizationPolicy}
    (h : authorizationPolicy hash appName modelName p = some a) :
    a.name = generateNetworkPolicyName hash appName modelName p := by
  unfold authorizationPolicy at h
  split at h
  · split at h
    · rw [← Option.some.inj h, unitPolicy]
    · exact absurd h.symm (Option.some_ne_none a)
  · rw [← Option.some.inj h, appPolicy]

/-- Every resource has a name that Kubernetes accepts. No two resources share a name when
the hashes of their policies differ in the digits that the names show, whatever is truncated. -/
theorem each_resource_has_a_name_of_its_own (hhash : ∀ p, 8 ≤ (hash p).length)
    (hlen : appName.length + modelName.length ≤ 143) {policies : List MeshPolicy}
    (hdistinct : (policies.map fun p => firstChars 8 (hash p.fields)).Nodup) :
    (∀ a, some a ∈ buildPolicyResourcesIstio hash appName modelName policies →
      a.name.length ≤ 253) ∧
    (((buildPolicyResourcesIstio hash appName modelName policies).filterMap id).map
      AuthorizationPolicy.name).Nodup := by
  unfold buildPolicyResourcesIstio
  refine ⟨?_, ?_⟩
  · intro a ha
    obtain ⟨p, -, heq⟩ := List.mem_map.mp ha
    rw [name_of_authorizationPolicy heq]
    exact length_generateNetworkPolicyName hlen p.fields
  · rw [List.filterMap_map]
    apply List.pairwise_map.mpr
    refine List.Pairwise.filterMap _ ?_ (List.pairwise_map.mp hdistinct)
    intro p q hne a ha b hb hname
    apply hne
    apply hash_of_name hhash
    rw [← name_of_authorizationPolicy ha, ← name_of_authorizationPolicy hb, hname]

theorem each_resource_has_a_name_of_its_own_catalogue :
    (((buildPolicyResourcesIstio catalogueHash "istio-beacon" "kubeflow"
      [⟨catalogueApp, by decide⟩, ⟨catalogueUnit, by decide⟩]).filterMap id).map
        AuthorizationPolicy.name).Nodup := by
  have hhash : ∀ p, 8 ≤ (catalogueHash p).length := by
    intro p
    unfold catalogueHash
    split <;> decide
  have hdistinct : ([(⟨catalogueApp, by decide⟩ : MeshPolicy), ⟨catalogueUnit, by decide⟩].map
      fun p => firstChars 8 (catalogueHash p.fields)).Nodup := by decide
  exact (each_resource_has_a_name_of_its_own hhash (by decide) hdistinct).2

end names

end oidc_gatekeeper.service_mesh
