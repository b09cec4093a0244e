-- The log forwarding of the loki library: what its hooks read from the `logging`
-- relations, and which log targets they leave in the plans of the containers.
-- A plan forwards to the units of the last hook that found an endpoint, also
-- when these units are gone.
import OidcGatekeeper.JsonValues
import OidcGatekeeper.Juju
import OidcGatekeeper.Dicts
import OidcGatekeeper.Loops
import OidcGatekeeper.Runs
import Mathlib.Data.List.DropRight
import Mathlib.Logic.Function.Basic

open json

namespace oidc_gatekeeper.loki_push_api

/-! ## Log targets -/

/-- The topology of the unit that forwards. -/
structure JujuTopology where
  charmName : String
  model : String
  modelUuid : String
  application : String
  unit : String

structure LogTarget where
  override : String
  services : List String
  type : String
  location : Value
  labels : Option (Dict String)

/-- The log targets of a plan, by name. The name is that of the remote unit. -/
abbrev LogTargets := AList fun _ : String => LogTarget

/-- The URLs of remote units, by the name of the unit. A URL is whatever JSON value the
unit wrote. -/
abbrev Endpoints := AList fun _ : String => Value

def topologyLabels (topology : JujuTopology) : Dict String :=
  List.toFinmap [⟨"product", "Juju"⟩, ⟨"charm", topology.charmName⟩,
    ⟨"juju_model", topology.model⟩, ⟨"juju_model_uuid", topology.modelUuid⟩,
    ⟨"juju_application", topology.application⟩, ⟨"juju_unit", topology.unit⟩]

/-- The value of `_build_log_target`, whose only key is the name of the unit. -/
def buildLogTarget (topology : JujuTopology) (enable : Bool) (lokiEndpoint : Value) :
    LogTarget where
  override := "replace"
  services := if enable then ["all"] else ["-all"]
  type := "loki"
  location := lokiEndpoint
  labels := if enable then some (topologyLabels topology) else none

def buildLogTargets (topology : JujuTopology) (enable : Bool) (lokiEndpoints : Endpoints) :
    LogTargets :=
  lokiEndpoints.entries.foldl
    (fun targets e => targets.insert e.1 (buildLogTarget topology enable e.2)) ∅

/-- `container.add_layer(.., combine=True)`, of a layer whose targets all have
`override: replace`. -/
def addLogTargets (layer targets : LogTargets) : LogTargets := layer ∪ targets

def isDisabled (target : LogTarget) : Bool := target.services.contains "-all"

/-- The loop runs over the plan as it was before the first layer is added. -/
def disableInactiveEndpoints (topology : JujuTopology) (activeEndpoints : Endpoints)
    (plan : LogTargets) : LogTargets :=
  plan.entries.foldl (fun targets e =>
    if isDisabled e.2 then targets
    else if e.1 ∈ activeEndpoints then targets
    else addLogTargets
      (buildLogTargets topology false (AList.singleton e.1 (.str "(removed)"))) targets) plan

def enableEndpoints (topology : JujuTopology) (activeEndpoints : Endpoints) (plan : LogTargets) :
    LogTargets :=
  addLogTargets (buildLogTargets topology true activeEndpoints) plan

def updateEndpoints (topology : JujuTopology) (lokiEndpoints : Endpoints) (plan : LogTargets) :
    LogTargets :=
  enableEndpoints topology lokiEndpoints (disableInactiveEndpoints topology lokiEndpoints plan)

/-! ## The relations -/

/-- One `logging` relation: the remote units, each with its own databag. -/
structure LoggingRelation where
  units : List (String × Databag)

/-- What the code raises when it reads an endpoint. -/
inductive EndpointError
  | keyError (key : String)
  | jsonDecodeError
  | valueError
  | typeError
  deriving DecidableEq

/-- `json.loads(relation.data[unit]["endpoint"])["url"]`. -/
def urlOf (bag : Databag) : Except EndpointError Value :=
  match bag.lookup "endpoint" with
  | none => .error (.keyError "endpoint")
  | some text => match json.loads text with
    | .error .jsonDecodeError => .error .jsonDecodeError
    | .error .valueError => .error .valueError
    | .ok (.obj ms) => match ms.lookup (.text "url") with
      | none => .error (.keyError "url")
      | some url => .ok url
    | .ok _ => .error .typeError

def extractUrls (relation : LoggingRelation) : Except EndpointError Endpoints :=
  relation.units.foldlM (fun endpoints unit => do
    return endpoints.insert unit.1 (← urlOf unit.2)) ∅

/-- `except (KeyError, json.JSONDecodeError)`, as a test. -/
def EndpointError.isCaught : EndpointError → Bool
  | .keyError _ | .jsonDecodeError => true
  | .valueError | .typeError => false

/-- An error that is caught means that the relation is not ready. -/
def isReady (relation : LoggingRelation) : Except EndpointError Bool :=
  match extractUrls relation with
  | .ok endpoints => .ok (endpoints.entries ≠ [])
  | .error e => if e.isCaught then .ok false else .error e

def fetchEndpoints (relation : LoggingRelation) : Except EndpointError Endpoints := do
  if !(← isReady relation) then return ∅
  extractUrls relation

def retrieveEndpointsFromRelation (relations : List LoggingRelation) :
    Except EndpointError Endpoints :=
  relations.foldlM (fun endpoints relation => do
    return (← fetchEndpoints relation) ∪ endpoints) ∅

/-! ## The Loki side -/

/-- The value of `_endpoint(url)`: the URL without the slashes at its end, and the path. -/
def pushUrl (url : String) : String :=
  String.ofList (url.toList.rdropWhile (· = '/')) ++ "/loki/api/v1/push"

/-- `update_endpoint` of a Loki unit, on its own databag. -/
def updateEndpoint (url : String) (bag : Databag) : Databag :=
  bag.insert "endpoint" (dumps (.obj [(.text "url", .str (pushUrl url))]))

/-- The forwarding side reads the URL that the Loki side wrote. -/
@[simp] theorem urlOf_updateEndpoint (url : String) (bag : Databag) :
    urlOf (updateEndpoint url bag) = .ok (.str (pushUrl url)) := by
  have hexact : (Value.obj [(.text "url", .str (pushUrl url))]).Exact := by
    simp [Value.Exact, MembersExact]
  simp [urlOf, updateEndpoint, Finmap.lookup_insert, loads_dumps hexact]

/-! ## The hooks -/

/-- What the hooks of one unit see: the `logging` relations, and the log targets in the
plan of each of its containers. -/
structure Logging where
  relations : List LoggingRelation
  plans : String → LogTargets

/-- `_update_endpoints` on each container of a choice. -/
def Logging.updated (s : Logging) (topology : JujuTopology) (endpoints : Endpoints)
    (chosen : String → Bool) : Logging where
  relations := s.relations
  plans container :=
    if chosen container then updateEndpoints topology endpoints (s.plans container)
    else s.plans container

/-- `_update_logging`, without the alert rules. -/
def updateLogging (topology : JujuTopology) (canConnect : String → Bool) (s : Logging) :
    Except EndpointError Logging := do
  let endpoints ← retrieveEndpointsFromRelation s.relations
  if endpoints.entries = [] then
    return s
  else
    return s.updated topology endpoints canConnect

/-- `_on_pebble_ready` does not ask whether the container can connect. -/
def onPebbleReady (topology : JujuTopology) (container : String) (s : Logging) :
    Except EndpointError Logging := do
  let endpoints ← retrieveEndpointsFromRelation s.relations
  if endpoints.entries = [] then
    return s
  else
    return s.updated topology endpoints fun c => c = container

/-- A step: the remote side changes its units or its databags, a container comes back with
an empty plan, or a hook runs. -/
inductive LoggingStep
  | remote (relations : List LoggingRelation)
  | restart (container : String)
  | relationHook (canConnect : String → Bool)
  | pebbleReady (container : String)

/-- A hook that raises leaves what was there: it raises before it adds a layer. -/
def loggingStep (topology : JujuTopology) (s : Logging) : LoggingStep → Logging
  | .remote relations => { s with relations := relations }
  | .restart container => { s with plans := Function.update s.plans container ∅ }
  | .relationHook canConnect => (updateLogging topology canConnect s).toOption.getD s
  | .pebbleReady container => (onPebbleReady topology container s).toOption.getD s

/-! ## What a plan forwards -/

/-- Where the plan sends the logs for this name, if it sends them anywhere. -/
def forwards (plan : LogTargets) (unit : String) : Option Value :=
  (plan.lookup unit).bind fun target => if isDisabled target then none else some target.location

section plan

variable (topology : JujuTopology) (endpoints : Endpoints) (plan : LogTargets) (unit : String)

theorem lookup_buildLogTargets (enable : Bool) :
    (buildLogTargets topology enable endpoints).lookup unit =
      (endpoints.lookup unit).map (buildLogTarget topology enable) := by
  have hloop := dicts.foldl_entries
    (r := fun (targets : LogTargets) x => targets.lookup x)
    (f := fun e _ => some (buildLogTarget topology enable e.2))
    (g := fun targets e => targets.insert e.1 (buildLogTarget topology enable e.2))
    (fun d e => AList.lookup_insert d) (fun d e x hx => AList.lookup_insert_ne hx)
    endpoints ∅ unit
  refine hloop.trans ?_
  cases endpoints.lookup unit <;> rfl

theorem lookup_addLogTargets (layer : LogTargets) :
    (addLogTargets layer plan).lookup unit = (layer.lookup unit).or (plan.lookup unit) := by
  unfold addLogTargets
  by_cases h : unit ∈ layer
  · rw [AList.lookup_union_left h, Option.or_of_isSome (AList.lookup_isSome.mpr h)]
  · rw [AList.lookup_union_right h, AList.lookup_eq_none.mpr h, Option.none_or]

/-- The target that takes the place of an inactive one. -/
def removedTarget : LogTarget := buildLogTarget topology false (.str "(removed)")

/-- One turn of the loop: the layer that it adds, if any, has one target. -/
theorem lookup_removedLayer (name : String) :
    (addLogTargets (buildLogTargets topology false (AList.singleton name (.str "(removed)")))
      plan).lookup unit = if unit = name then some (removedTarget topology) else plan.lookup unit := by
  rw [lookup_addLogTargets, lookup_buildLogTargets]
  by_cases h : unit = name
  · subst h
    simp [AList.lookup, AList.singleton, removedTarget]
  · have hnone : (AList.singleton name (Value.str "(removed)") : Endpoints).lookup unit = none :=
      AList.lookup_eq_none.mpr (by simpa [AList.mem_keys] using h)
    rw [hnone, if_neg h]
    rfl

@[simp] theorem isDisabled_buildLogTarget (enable : Bool) (url : Value) :
    isDisabled (buildLogTarget topology enable url) = !enable := by
  cases enable <;> simp [isDisabled, buildLogTarget]

@[simp] theorem isDisabled_removedTarget : isDisabled (removedTarget topology) = true := by
  simp [removedTarget]

theorem lookup_disableInactiveEndpoints :
    (disableInactiveEndpoints topology endpoints plan).lookup unit =
      (plan.lookup unit).map fun target =>
        if isDisabled target ∨ unit ∈ endpoints then target else removedTarget topology := by
  let keep (e : Sigma fun _ : String => LogTarget) : Prop := isDisabled e.2 ∨ e.1 ∈ endpoints
  have hloop := dicts.foldl_entries
    (r := fun (targets : LogTargets) x => targets.lookup x)
    (f := fun e o => if keep e then o else some (removedTarget topology))
    (g := fun targets e =>
      if isDisabled e.2 then targets
      else if e.1 ∈ endpoints then targets
      else addLogTargets
        (buildLogTargets topology false (AList.singleton e.1 (.str "(removed)"))) targets)
    (by
      intro d e
      by_cases hd : isDisabled e.2
      · simp [keep, hd]
      · by_cases ha : e.1 ∈ endpoints
        · simp [keep, hd, ha]
        · simp [keep, hd, ha, lookup_removedLayer])
    (by
      intro d e x hx
      split
      · rfl
      · split
        · rfl
        · rw [lookup_removedLayer, if_neg hx])
    plan plan unit
  refine hloop.trans ?_
  cases plan.lookup unit with
  | none => rfl
  | some target =>
    simp only [keep, Option.map_some]
    split <;> rfl

theorem lookup_updateEndpoints :
    (updateEndpoints topology endpoints plan).lookup unit =
      match endpoints.lookup unit with
      | some url => some (buildLogTarget topology true url)
      | none => (plan.lookup unit).map fun target =>
        if isDisabled target then target else removedTarget topology := by
  unfold updateEndpoints enableEndpoints
  rw [lookup_addLogTargets, lookup_buildLogTargets, lookup_disableInactiveEndpoints]
  cases hu : endpoints.lookup unit with
  | some url => rfl
  | none => simp [AList.lookup_eq_none.mp hu]

/-- An update leaves a plan that forwards to the active endpoints and to nothing else,
whatever the plan was. -/
theorem forwards_updateEndpoints :
    forwards (updateEndpoints topology endpoints plan) unit = endpoints.lookup unit := by
  unfold forwards
  rw [lookup_updateEndpoints]
  cases endpoints.lookup unit with
  | some url =>
    rw [Option.bind_some, isDisabled_buildLogTarget]
    rfl
  | none =>
    cases plan.lookup unit with
    | none => rfl
    | some target => by_cases hd : isDisabled target <;> simp [hd]

end plan

/-! ## Runs of hooks -/

/-- What the forwarding is for: to each container belong the endpoints that it sends to. -/
structure Forwarding where
  relations : List LoggingRelation
  sendsTo : String → Endpoints

/-- A hook that finds an endpoint makes its endpoints those of the containers that it
reaches. A hook that finds none changes nothing. -/
def Forwarding.announced (a : Forwarding) (chosen : String → Bool) : Forwarding :=
  match retrieveEndpointsFromRelation a.relations with
  | .error _ => a
  | .ok endpoints =>
    if endpoints.entries = [] then a
    else { a with sendsTo := fun c => if chosen c then endpoints else a.sendsTo c }

def forwardingStep (a : Forwarding) : LoggingStep → Forwarding
  | .remote relations => { a with relations := relations }
  | .restart container => { a with sendsTo := Function.update a.sendsTo container ∅ }
  | .relationHook canConnect => a.announced canConnect
  | .pebbleReady container => a.announced fun c => c = container

/-- The plans forward to the endpoints of their containers, and to nothing else. -/
def Forwards (s : Logging) (a : Forwarding) : Prop :=
  s.relations = a.relations ∧ ∀ c u, forwards (s.plans c) u = (a.sendsTo c).lookup u

/-- Both hooks do the same, each to its own choice of containers. -/
theorem hook_eq (topology : JujuTopology) (s : Logging) (chosen : String → Bool) :
    (updateLogging topology chosen s).toOption.getD s =
      match retrieveEndpointsFromRelation s.relations with
      | .error _ => s
      | .ok endpoints =>
        if endpoints.entries = [] then s else s.updated topology endpoints chosen := by
  unfold updateLogging
  cases retrieveEndpointsFromRelation s.relations with
  | error e => rfl
  | ok endpoints =>
    by_cases he : endpoints.entries = []
    · simp [he, bind, Except.bind, Except.toOption, pure, Except.pure]
    · simp [he, bind, Except.bind, Except.toOption, pure, Except.pure]

theorem onPebbleReady_eq (topology : JujuTopology) (s : Logging) (container : String) :
    onPebbleReady topology container s = updateLogging topology (fun c => c = container) s := rfl

theorem forwards_hook (topology : JujuTopology) {s : Logging} {a : Forwarding}
    (h : Forwards s a) (chosen : String → Bool) :
    Forwards ((updateLogging topology chosen s).toOption.getD s) (a.announced chosen) := by
  rw [hook_eq, Forwarding.announced, ← h.1]
  split
  · exact h
  · rename_i endpoints _
    split
    · exact h
    · refine ⟨rfl, fun c u => ?_⟩
      by_cases hc : chosen c
      · simp [Logging.updated, hc, forwards_updateEndpoints]
      · simp [Logging.updated, hc, h.2 c u]

theorem forwards_step {topology : JujuTopology} {s : Logging} {a : Forwarding}
    (h : Forwards s a) (st : LoggingStep) :
    Forwards (loggingStep topology s st) (forwardingStep a st) := by
  cases st with
  | remote relations => exact ⟨rfl, h.2⟩
  | restart container =>
    refine ⟨h.1, fun c u => ?_⟩
    by_cases hc : c = container
    · subst hc
      simp [loggingStep, forwardingStep, forwards]
    · simp [loggingStep, forwardingStep, hc, h.2 c u]
  | relationHook canConnect => exact forwards_hook topology h canConnect
  | pebbleReady container =>
    have hh := forwards_hook topology h fun c => c = container
    rwa [← onPebbleReady_eq] at hh

/-- Over every run, the log targets in the plans are those of the machine that only
remembers, for each container, the endpoints of the last hook that found one. -/
theorem the_plans_forward_to_the_last_endpoints (topology : JujuTopology)
    (relations : List LoggingRelation) (steps : List LoggingStep) :
    Forwards (runs.run (loggingStep topology) ⟨relations, fun _ => ∅⟩ steps)
      (runs.run forwardingStep ⟨relations, fun _ => ∅⟩ steps) :=
  runs.refines (R := Forwards) (fun _ _ st h => forwards_step h st) ⟨rfl, fun _ _ => rfl⟩ steps

/-! ## Which endpoints a hook finds -/

section found

variable {units : List (String × Databag)} {endpoints endpoints' : Endpoints}

theorem extract_of_foldlM (hnames : (units.map Prod.fst).Nodup)
    (h : units.foldlM (fun endpoints unit => do
      return endpoints.insert unit.1 (← urlOf unit.2)) endpoints = .ok endpoints') :
    (∀ unit ∈ units, ∃ url, urlOf unit.2 = .ok url) ∧
      ∀ name url, endpoints'.lookup name = some url ↔
        (∃ bag, (name, bag) ∈ units ∧ urlOf bag = .ok url) ∨
          (name ∉ units.map Prod.fst ∧ endpoints.lookup name = some url) := by
  induction units generalizing endpoints with
  | nil =>
    cases h
    simp
  | cons unit units ih =>
    obtain ⟨name, bag⟩ := unit
    rw [List.map_cons, List.nodup_cons] at hnames
    rw [List.foldlM_cons] at h
    cases hurl : urlOf bag with
    | error e => simp [hurl, bind, Except.bind] at h
    | ok url =>
      simp only [hurl, bind, Except.bind, pure, Except.pure] at h
      obtain ⟨hall, hlook⟩ := ih hnames.2 h
      refine ⟨by simpa [hurl] using fun x b hmem => hall (x, b) hmem, fun x v => ?_⟩
      rw [hlook]
      by_cases hx : x = name
      · subst hx
        have hnot : ∀ b, (x, b) ∉ units :=
          fun b hb => hnames.1 (List.mem_map.mpr ⟨(x, b), hb, rfl⟩)
        simp [hnot, hurl]
      · simp [hx, AList.lookup_insert_ne hx]

end found

/-- A relation announces a URL for a unit when each of its units has one: a single unit
without an endpoint hides the others. -/
def Announces (relation : LoggingRelation) (name : String) (url : Value) : Prop :=
  (∀ unit ∈ relation.units, ∃ url', urlOf unit.2 = .ok url') ∧
    ∃ bag, (name, bag) ∈ relation.units ∧ urlOf bag = .ok url

theorem extractUrls_lookup {relation : LoggingRelation} {endpoints : Endpoints}
    (hnames : (relation.units.map Prod.fst).Nodup) (h : extractUrls relation = .ok endpoints)
    (name : String) (url : Value) :
    endpoints.lookup name = some url ↔ Announces relation name url := by
  obtain ⟨hall, hlook⟩ := extract_of_foldlM hnames h
  rw [hlook, AList.lookup_empty]
  constructor
  · rintro (hbag | ⟨-, hnone⟩)
    · exact ⟨hall, hbag⟩
    · cases hnone
  · exact fun ha => .inl ha.2

theorem extractUrls_error {relation : LoggingRelation} {e : EndpointError}
    (h : extractUrls relation = .error e) : ∃ unit ∈ relation.units, urlOf unit.2 = .error e := by
  obtain ⟨unit, hu, endpoints, he⟩ := loops.foldlM_error h
  refine ⟨unit, hu, ?_⟩
  cases hurl : urlOf unit.2 with
  | ok url => simp [hurl, bind, Except.bind, pure, Except.pure] at he
  | error e' => simpa [hurl, bind, Except.bind] using he

/-- The two passes over the units, as one: what is not ready counts as no endpoints. -/
theorem fetchEndpoints_eq (relation : LoggingRelation) :
    fetchEndpoints relation = match extractUrls relation with
      | .ok endpoints => .ok endpoints
      | .error e => if e.isCaught then .ok ∅ else .error e := by
  unfold fetchEndpoints isReady
  cases h : extractUrls relation with
  | ok endpoints =>
    by_cases he : endpoints.entries = []
    · have hempty : endpoints = ∅ := AList.ext he
      simp [hempty, bind, Except.bind, pure, Except.pure]
    · simp [he, bind, Except.bind]
  | error e => cases e <;> rfl

theorem fetchEndpoints_lookup {relation : LoggingRelation} {endpoints : Endpoints}
    (hnames : (relation.units.map Prod.fst).Nodup) (h : fetchEndpoints relation = .ok endpoints)
    (name : String) (url : Value) :
    endpoints.lookup name = some url ↔ Announces relation name url := by
  rw [fetchEndpoints_eq] at h
  cases hx : extractUrls relation with
  | ok endpoints₁ =>
    rw [hx] at h
    cases h
    exact extractUrls_lookup hnames hx name url
  | error e =>
    have hnot : ¬ Announces relation name url := by
      rintro ⟨hall, -⟩
      obtain ⟨unit, hu, he⟩ := extractUrls_error hx
      obtain ⟨url', hok⟩ := hall unit hu
      cases he.symm.trans hok
    rw [hx] at h
    cases e <;> cases h <;> simp [hnot]

theorem Announces.mem {relation : LoggingRelation} {name : String} {url : Value}
    (h : Announces relation name url) : name ∈ relation.units.map Prod.fst := by
  obtain ⟨-, bag, hbag, -⟩ := h
  exact List.mem_map_of_mem (f := Prod.fst) hbag

/-- The names of the remote units of all relations. -/
def unitNames (relations : List LoggingRelation) : List String :=
  relations.flatMap fun relation => relation.units.map Prod.fst

theorem foldlM_fetch_lookup {relations : List LoggingRelation} {acc endpoints : Endpoints}
    (hnames : (unitNames relations).Nodup)
    (h : relations.foldlM (fun endpoints relation => do
      return (← fetchEndpoints relation) ∪ endpoints) acc = .ok endpoints)
    (name : String) (url : Value) : endpoints.lookup name = some url ↔
      (∃ r ∈ relations, Announces r name url) ∨
        ((∀ r ∈ relations, ∀ url', ¬ Announces r name url') ∧ acc.lookup name = some url) := by
  induction relations generalizing acc with
  | nil =>
    cases h
    simp
  | cons r rs ih =>
    rw [unitNames, List.flatMap_cons, List.nodup_append] at hnames
    obtain ⟨hr, hrs, hdisj⟩ := hnames
    rw [List.foldlM_cons] at h
    cases hf : fetchEndpoints r with
    | error e => simp [hf, bind, Except.bind] at h
    | ok found =>
      simp only [hf, bind, Except.bind, pure, Except.pure] at h
      have hlook := fetchEndpoints_lookup hr hf name
      rw [ih hrs h]
      by_cases hmem : name ∈ found
      · obtain ⟨url₁, hurl⟩ := Option.isSome_iff_exists.mp (AList.lookup_isSome.mpr hmem)
        have hann := (hlook url₁).mp hurl
        have hother : ∀ r' ∈ rs, ∀ url', ¬ Announces r' name url' := fun r' hr' url' ha =>
          hdisj name hann.mem name (List.mem_flatMap.mpr ⟨r', hr', ha.mem⟩) rfl
        rw [AList.lookup_union_left hmem, hlook]
        constructor
        · rintro (⟨r', hr', ha⟩ | ⟨-, ha⟩)
          · exact absurd ha (hother r' hr' url)
          · exact .inl ⟨r, List.mem_cons_self, ha⟩
        · rintro (⟨r', hr', ha⟩ | ⟨hnone, -⟩)
          · rcases List.mem_cons.mp hr' with rfl | hr'
            · exact .inr ⟨hother, ha⟩
            · exact absurd ha (hother r' hr' url)
          · exact absurd hann (hnone r List.mem_cons_self url₁)
      · have hnot : ∀ url', ¬ Announces r name url' := fun url' ha =>
          hmem (AList.lookup_isSome.mp (Option.isSome_iff_exists.mpr ⟨url', (hlook url').mpr ha⟩))
        rw [AList.lookup_union_right hmem]
        simp [hnot]

/-- A hook finds a unit when its relation announces it. -/
theorem retrieveEndpointsFromRelation_lookup {relations : List LoggingRelation}
    {endpoints : Endpoints} (hnames : (unitNames relations).Nodup)
    (h : retrieveEndpointsFromRelation relations = .ok endpoints) (name : String) (url : Value) :
    endpoints.lookup name = some url ↔ ∃ r ∈ relations, Announces r name url := by
  rw [foldlM_fetch_lookup hnames h, AList.lookup_empty]
  simp

/-- No unit makes a hook raise: an endpoint that is JSON is an object, and no integer in it
is too long. -/
def NoneRaises (relations : List LoggingRelation) : Prop :=
  ∀ r ∈ relations, ∀ unit ∈ r.units, ∀ e, urlOf unit.2 = .error e → e.isCaught = true

theorem retrieveEndpointsFromRelation_ok {relations : List LoggingRelation}
    (h : NoneRaises relations) :
    ∃ endpoints, retrieveEndpointsFromRelation relations = .ok endpoints := by
  refine loops.foldlM_ok (fun r hr acc => ?_) ∅
  have hf : ∃ found, fetchEndpoints r = .ok found := by
    rw [fetchEndpoints_eq]
    cases hx : extractUrls r with
    | ok found => exact ⟨found, rfl⟩
    | error e =>
      obtain ⟨unit, hu, he⟩ := extractUrls_error hx
      exact ⟨∅, if_pos (h r hr unit hu e he)⟩
  obtain ⟨found, hf⟩ := hf
  exact ⟨found ∪ acc, by rw [hf]; rfl⟩

/-- A relation hook leaves a container that it reaches with a plan that forwards to the
announced units, and to no other: a relation with one unit that is not ready yet drops
out with all its units. -/
theorem a_hook_forwards_to_the_announced_units (topology : JujuTopology) {s : Logging}
    (canConnect : String → Bool) (container : String) (hc : canConnect container = true)
    (hnames : (unitNames s.relations).Nodup)
    (hraises : NoneRaises s.relations)
    (hfound : ∃ r ∈ s.relations, ∃ name url, Announces r name url) (name : String) (url : Value) :
    forwards ((loggingStep topology s (.relationHook canConnect)).plans container) name = some url ↔
      ∃ r ∈ s.relations, Announces r name url := by
  obtain ⟨endpoints, hok⟩ := retrieveEndpointsFromRelation_ok hraises
  have hlook := retrieveEndpointsFromRelation_lookup hnames hok
  have hne : endpoints.entries ≠ [] := by
    intro hempty
    obtain ⟨r, hr, name₁, url₁, ha⟩ := hfound
    have hl := (hlook name₁ url₁).mpr ⟨r, hr, ha⟩
    rw [show endpoints = ∅ from AList.ext hempty, AList.lookup_empty] at hl
    cases hl
  rw [← hlook, loggingStep, hook_eq, hok]
  simp [hne, Logging.updated, hc, forwards_updateEndpoints]

def sampleTopology : JujuTopology :=
  ⟨"oidc-gatekeeper", "kubeflow", "b2f6c9d4", "oidc-gatekeeper", "oidc-gatekeeper/0"⟩

/-- Two relations. In the second one, one of the units has not written its endpoint yet. -/
def scaledUp : Logging where
  relations := [⟨[("loki/0", updateEndpoint "http://loki-0:3100" ∅)]⟩,
    ⟨[("other/0", updateEndpoint "http://other-0:3100/" ∅), ("other/1", ∅)]⟩]
  plans _ := ∅

theorem a_hook_forwards_to_the_announced_units_scaledUp :
    (unitNames scaledUp.relations).Nodup ∧
      NoneRaises scaledUp.relations ∧
      (∃ r ∈ scaledUp.relations, ∃ name url, Announces r name url) ∧
      forwards ((loggingStep sampleTopology scaledUp (.relationHook fun _ => true)).plans
        "oidc-authservice") "loki/0" = some (.str "http://loki-0:3100/loki/api/v1/push") ∧
      ∀ url, forwards ((loggingStep sampleTopology scaledUp (.relationHook fun _ => true)).plans
        "oidc-authservice") "other/0" ≠ some url := by
  have hnames : (unitNames scaledUp.relations).Nodup := by decide
  have hempty : urlOf ∅ = .error (.keyError "endpoint") := rfl
  have hraises : NoneRaises scaledUp.relations := by
    simp only [NoneRaises, scaledUp, List.mem_cons, List.not_mem_nil, or_false]
    rintro r (rfl | rfl) unit hu e he <;>
      simp only [List.mem_cons, List.not_mem_nil, or_false] at hu
    · simp [hu] at he
    · rcases hu with rfl | rfl
      · simp at he
      · cases hempty.symm.trans he
        rfl
  have hpush : pushUrl "http://loki-0:3100" = "http://loki-0:3100/loki/api/v1/push" := by
    decide +kernel
  have hloki : Announces ⟨[("loki/0", updateEndpoint "http://loki-0:3100" ∅)]⟩ "loki/0"
      (.str "http://loki-0:3100/loki/api/v1/push") := by
    simp [Announces, hpush]
  have hfound : ∃ r ∈ scaledUp.relations, ∃ name url, Announces r name url :=
    ⟨_, List.mem_cons_self, _, _, hloki⟩
  have hiff := a_hook_forwards_to_the_announced_units sampleTopology (s := scaledUp)
    (fun _ => true) "oidc-authservice" rfl hnames hraises hfound
  refine ⟨hnames, hraises, hfound, (hiff _ _).mpr ⟨_, List.mem_cons_self, hloki⟩, fun url hurl => ?_⟩
  obtain ⟨r, hr, hall, bag, hbag, -⟩ := (hiff _ _).mp hurl
  simp only [scaledUp, List.mem_cons, List.not_mem_nil, or_false] at hr
  rcases hr with rfl | rfl
  · simp at hbag
  · obtain ⟨url', hu⟩ := hall ("other/1", ∅) (by simp)
    cases hempty.symm.trans hu

end oidc_gatekeeper.loki_push_api
