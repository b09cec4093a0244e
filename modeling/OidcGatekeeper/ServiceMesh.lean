-- The policies of the service-mesh library: what a charm asks the mesh for, as
-- JSON in the databag of its mesh relation, and what the beacon reads there. An
-- application that is related over two models tells its own name and model over
-- a third relation.
import OidcGatekeeper.Codecs
import OidcGatekeeper.Juju
import OidcGatekeeper.Loops

open json

namespace oidc_gatekeeper.service_mesh

/-! ## The data types -/

inductive Method
  | connect | delete | get | head | options | patch | post | put | trace
  deriving DecidableEq

def Method.value : Method → String
  | connect => "CONNECT"
  | delete => "DELETE"
  | get => "GET"
  | head => "HEAD"
  | options => "OPTIONS"
  | patch => "PATCH"
  | post => "POST"
  | put => "PUT"
  | trace => "TRACE"

def Method.ofValue (s : String) : Option Method :=
  [connect, delete, get, head, options, patch, post, put, trace].find? (·.value = s)

structure Endpoint where
  hosts : Option (List String)
  ports : Option (List Integer)
  methods : Option (List Method)
  paths : Option (List String)
  deriving DecidableEq

/-- A policy of a charm. The deprecated `Policy` is handled as an `AppPolicy`. -/
inductive Policy
  | app (relation : String) (endpoints : List Endpoint) (service : Option String)
  | unit (relation : String) (ports : Option (List Integer))
  deriving DecidableEq

def Policy.relation : Policy → String
  | .app relation _ _ => relation
  | .unit relation _ => relation

inductive PolicyTargetType
  | app | unit
  deriving DecidableEq

def PolicyTargetType.value : PolicyTargetType → String
  | app => "app"
  | unit => "unit"

def PolicyTargetType.ofValue (s : String) : Option PolicyTargetType :=
  [app, unit].find? (·.value = s)

/-- The fields of a `MeshPolicy`. -/
structure MeshPolicyFields where
  sourceNamespace : String
  sourceAppName : String
  targetNamespace : String
  targetAppName : Option String
  targetSelectorLabels : Option (AList fun _ : String => String)
  targetService : Option String
  targetType : PolicyTargetType
  endpoints : List Endpoint
  deriving DecidableEq

/-- Neither `None` nor empty. -/
def given (s : Option String) : Bool := s.any (· ≠ "")

/-- `_validate_app_policy` and `_validate_unit_policy`: no error is raised. -/
def MeshPolicyFields.Valid (p : MeshPolicyFields) : Prop :=
  match p.targetType with
  | .app => (given p.targetAppName ∨ given p.targetService) ∧
    (p.targetSelectorLabels.getD ∅).entries = []
  | .unit => ¬ (given p.targetAppName ∧ (p.targetSelectorLabels.getD ∅).entries ≠ []) ∧
    ¬ given p.targetService

instance (p : MeshPolicyFields) : Decidable p.Valid := by
  unfold MeshPolicyFields.Valid
  split <;> infer_instance

/-- A `MeshPolicy`: its validator has passed. -/
structure MeshPolicy where
  fields : MeshPolicyFields
  valid : fields.Valid
  deriving DecidableEq

structure CMRData where
  appName : String
  jujuModelName : String
  deriving DecidableEq

/-- What the library raises. A text that `json.loads` does not read is a `ValueError`. -/
inductive MeshError
  | validationError
  | valueError
  | typeError
  deriving DecidableEq

/-- The constructor of `MeshPolicy`. -/
def MeshPolicy.mk? (p : MeshPolicyFields) : Except MeshError MeshPolicy :=
  if h : p.Valid then .ok ⟨p, h⟩ else .error .validationError

/-! ## The data types as JSON -/

def methodCodec : Codec Method :=
  Codec.string.via Method.value Method.ofValue fun m => by cases m <;> decide

def targetTypeCodec : Codec PolicyTargetType :=
  Codec.string.via PolicyTargetType.value PolicyTargetType.ofValue fun t => by cases t <;> decide

def endpointFields : Fields Endpoint :=
  ((Fields.fieldOr "hosts" none Codec.string.listOrNone).both
    ((Fields.fieldOr "ports" none Codec.int.listOrNone).both
      ((Fields.fieldOr "methods" none methodCodec.listOrNone).both
        (Fields.fieldOr "paths" none Codec.string.listOrNone)))).via
    (fun e => (e.hosts, e.ports, e.methods, e.paths))
    (fun t => some ⟨t.1, t.2.1, t.2.2.1, t.2.2.2⟩)
    fun _ => rfl

def endpointCodec : Codec Endpoint := Codec.object endpointFields

def policyFields : Fields MeshPolicyFields :=
  ((Fields.field "source_namespace" Codec.string).both
    ((Fields.field "source_app_name" Codec.string).both
      ((Fields.field "target_namespace" Codec.string).both
        ((Fields.fieldOr "target_app_name" none Codec.stringOrNone).both
          ((Fields.fieldOr "target_selector_labels" none Codec.string.dictOrNone).both
            ((Fields.fieldOr "target_service" none Codec.stringOrNone).both
              ((Fields.fieldOr "target_type" .app targetTypeCodec).both
                (Fields.fieldOr "endpoints" [] endpointCodec.list)))))))).via
    (fun p => (p.sourceNamespace, p.sourceAppName, p.targetNamespace, p.targetAppName,
      p.targetSelectorLabels, p.targetService, p.targetType, p.endpoints))
    (fun t => some ⟨t.1, t.2.1, t.2.2.1, t.2.2.2.1, t.2.2.2.2.1, t.2.2.2.2.2.1, t.2.2.2.2.2.2.1,
      t.2.2.2.2.2.2.2⟩)
    fun _ => rfl

/-- `model_dump` and `model_validate` of a `MeshPolicy`. The validator runs on what is read. -/
def policyCodec : Codec MeshPolicy :=
  (Codec.object policyFields).via MeshPolicy.fields (fun p => (MeshPolicy.mk? p).toOption)
    fun p => by simp [MeshPolicy.mk?, p.valid, Except.toOption]

def cmrDataCodec : Codec CMRData :=
  Codec.object (((Fields.field "app_name" Codec.string).both
    (Fields.field "juju_model_name" Codec.string)).via
    (fun d => (d.appName, d.jujuModelName)) (fun t => some ⟨t.1, t.2⟩) fun _ => rfl)

/-! ## The charm side -/

/-- What `update_service_mesh` reads of a charm: the remote applications of each of its
endpoints, and the cross-model relations with their remote databags. -/
structure Consumer where
  appName : String
  modelName : String
  policies : List Policy
  relations : String → List String
  cmrRelations : List (String × Databag)

/-- `_send_cmr_data`, on the databag of the application that sends. -/
def sendCmrData (isLeader : Bool) (data : CMRData) (bag : Databag) : Databag :=
  if !isLeader then bag else bag.insert "cmr_data" (cmrDataCodec.dumps data)

def readCmrData (text : String) : Except MeshError CMRData :=
  match json.loads text with
  | .error _ => .error .valueError
  | .ok v => match cmrDataCodec.decode v with
    | none => .error .validationError
    | some data => .ok data

/-- One turn of the comprehension for `cmr_application_data`. -/
def addCmrData (data : AList fun _ : String => CMRData) (cmr : String × Databag) :
    Except MeshError (AList fun _ : String => CMRData) :=
  match cmr.2.lookup "cmr_data" with
  | none => .ok data
  | some text => do return data.insert cmr.1 (← readCmrData text)

/-- `cmr_application_data`: what the remote applications told, by their name here. -/
def cmrApplicationData (cmrRelations : List (String × Databag)) :
    Except MeshError (AList fun _ : String => CMRData) :=
  cmrRelations.foldlM addCmrData ∅

/-- The policy for one related application. -/
def meshPolicyFor (targetAppName targetNamespace : String) (source : CMRData) :
    Policy → MeshPolicyFields
  | .unit _ ports =>
    { sourceNamespace := source.jujuModelName
      sourceAppName := source.appName
      targetNamespace := targetNamespace
      targetAppName := some targetAppName
      targetSelectorLabels := none
      targetService := none
      targetType := .unit
      endpoints := if ports.getD [] = [] then [] else [⟨none, ports, none, none⟩] }
  | .app _ endpoints service =>
    { sourceNamespace := source.jujuModelName
      sourceAppName := source.appName
      targetNamespace := targetNamespace
      targetAppName := some targetAppName
      targetSelectorLabels := none
      targetService := service
      targetType := .app
      endpoints := endpoints }

/-- One turn of the inner loop of `build_mesh_policies`. -/
def addMeshPolicy (targetAppName targetNamespace : String)
    (cmrApplicationData : AList fun _ : String => CMRData) (policy : Policy)
    (meshPolicies : List MeshPolicy) (app : String) : Except MeshError (List MeshPolicy) := do
  let source := (cmrApplicationData.lookup app).getD ⟨app, targetNamespace⟩
  let meshPolicy ← MeshPolicy.mk? (meshPolicyFor targetAppName targetNamespace source policy)
  return meshPolicies ++ [meshPolicy]

def buildMeshPolicies (relationMapping : String → List String)
    (targetAppName targetNamespace : String) (policies : List Policy)
    (cmrApplicationData : AList fun _ : String => CMRData) : Except MeshError (List MeshPolicy) :=
  policies.foldlM (fun meshPolicies policy =>
    (relationMapping policy.relation).foldlM
      (addMeshPolicy targetAppName targetNamespace cmrApplicationData policy) meshPolicies) []

/-- `update_service_mesh`, on the databag of the mesh relation. -/
def updateServiceMesh (c : Consumer) (bag : Databag) : Except MeshError Databag := do
  let data ← cmrApplicationData c.cmrRelations
  let meshPolicies ← buildMeshPolicies c.relations c.appName c.modelName c.policies data
  return bag.insert "policies" (policyCodec.list.dumps meshPolicies)

/-! ## The beacon side -/

def readPolicies (text : String) : Except MeshError (List MeshPolicy) :=
  match json.loads text with
  | .error _ => .error .valueError
  | .ok v => match v.items with
    | none => .error .typeError
    | some items => match items.mapM policyCodec.decode with
      | none => .error .validationError
      | some policies => .ok policies

/-- `mesh_info`, over the remote databags of its mesh relations. -/
def meshInfo (bags : List Databag) : Except MeshError (List MeshPolicy) :=
  bags.foldlM (fun info bag => do
    return info ++ (← readPolicies ((bag.lookup "policies").getD "[]"))) []

/-! ## What the beacon reads -/

/-- The remote application of a relation, as it should be named in a policy: as it told
itself, or else as the charm sees it, in the model of the charm. -/
def Source (c : Consumer) (app : String) (source : CMRData) : Prop :=
  (∃ bag, (app, bag) ∈ c.cmrRelations ∧
    bag.lookup "cmr_data" = some (cmrDataCodec.dumps source)) ∨
  ((∀ bag, (app, bag) ∈ c.cmrRelations → bag.lookup "cmr_data" = none) ∧
    source = ⟨app, c.modelName⟩)

/-- A cross-model relation tells nothing yet, or what the library wrote. -/
def Tells (cmr : String × Databag) : Prop :=
  cmr.2.lookup "cmr_data" = none ∨
    ∃ source, cmr.2.lookup "cmr_data" = some (cmrDataCodec.dumps source)

structure WellRelated (c : Consumer) : Prop where
  named : c.appName ≠ ""
  tells : ∀ cmr ∈ c.cmrRelations, Tells cmr

/-- One policy for each policy of the charm and each application that is related by it. -/
def grants (source : String → CMRData) (c : Consumer) : List MeshPolicyFields :=
  c.policies.flatMap fun policy => (c.relations policy.relation).map fun app =>
    meshPolicyFor c.appName c.modelName (source app) policy

@[simp] theorem readCmrData_dumps (source : CMRData) :
    readCmrData (cmrDataCodec.dumps source) = .ok source := by
  simp [readCmrData, Codec.dumps, loads_dumps (cmrDataCodec.exact source),
    cmrDataCodec.decode_encode]

@[simp] theorem readPolicies_dumps (ps : List MeshPolicy) :
    readPolicies (policyCodec.list.dumps ps) = .ok ps := by
  have hitems : (policyCodec.list.encode ps).items = some (ps.map policyCodec.encode) := rfl
  simp [readPolicies, Codec.dumps, loads_dumps (policyCodec.list.exact ps), hitems,
    policyCodec.mapM_decode]

/-- What a charm writes passes the validators: its own name is the target. -/
theorem valid_meshPolicyFor {targetAppName : String} (h : targetAppName ≠ "")
    (targetNamespace : String) (source : CMRData) (policy : Policy) :
    (meshPolicyFor targetAppName targetNamespace source policy).Valid := by
  cases policy with
  | app relation endpoints service => exact ⟨.inl (by simp [meshPolicyFor, given, h]), rfl⟩
  | unit relation ports => exact ⟨fun hv => hv.2 rfl, by simp [meshPolicyFor, given]⟩

section charm

variable {targetAppName : String} (h : targetAppName ≠ "") (targetNamespace : String)
  (data : AList fun _ : String => CMRData)

/-- The policy that one turn adds. -/
def addedPolicy (policy : Policy) (app : String) : MeshPolicy :=
  ⟨meshPolicyFor targetAppName targetNamespace
    ((data.lookup app).getD ⟨app, targetNamespace⟩) policy, valid_meshPolicyFor h ..⟩

theorem addMeshPolicy_ok (policy : Policy) (acc : List MeshPolicy) (app : String) :
    addMeshPolicy targetAppName targetNamespace data policy acc app =
      .ok (acc ++ [addedPolicy h targetNamespace data policy app]) := by
  simp [addMeshPolicy, addedPolicy, MeshPolicy.mk?, valid_meshPolicyFor h, bind, Except.bind,
    pure, Except.pure]

theorem buildMeshPolicies_ok (relationMapping : String → List String) (policies : List Policy) :
    buildMeshPolicies relationMapping targetAppName targetNamespace policies data =
      .ok (policies.flatMap fun policy => (relationMapping policy.relation).map
        (addedPolicy h targetNamespace data policy)) := by
  have hturn : ∀ policy ∈ policies, ∀ acc, (relationMapping policy.relation).foldlM
      (addMeshPolicy targetAppName targetNamespace data policy) acc =
        .ok (acc ++ (relationMapping policy.relation).map
          (addedPolicy h targetNamespace data policy)) := by
    intro policy _ acc
    rw [List.map_eq_flatMap]
    exact loops.foldlM_append
      (fun app _ acc => addMeshPolicy_ok h targetNamespace data policy acc app) acc
  have hloop := loops.foldlM_append hturn []
  rwa [List.nil_append] at hloop

end charm

theorem foldlM_addCmrData {l : List (String × Databag)} (h : ∀ cmr ∈ l, Tells cmr)
    (acc : AList fun _ : String => CMRData) : ∃ data, l.foldlM addCmrData acc = .ok data ∧
      (∀ app source, data.lookup app = some source → acc.lookup app = some source ∨
        ∃ bag, (app, bag) ∈ l ∧ bag.lookup "cmr_data" = some (cmrDataCodec.dumps source)) ∧
      ∀ app, data.lookup app = none → acc.lookup app = none ∧
        ∀ bag, (app, bag) ∈ l → bag.lookup "cmr_data" = none := by
  induction l generalizing acc with
  | nil => exact ⟨acc, rfl, fun _ _ hs => .inl hs, fun _ hn => ⟨hn, by simp⟩⟩
  | cons cmr l ih =>
    obtain ⟨name, bag⟩ := cmr
    have hl := fun acc => ih (fun c hc => h c (List.mem_cons_of_mem _ hc)) acc
    rcases h (name, bag) List.mem_cons_self with hbag | ⟨source, hbag⟩
    · have hturn : addCmrData acc (name, bag) = .ok acc := by simp [addCmrData, hbag]
      obtain ⟨data, hd, hsome, hnone⟩ := hl acc
      refine ⟨data, by rw [List.foldlM_cons, hturn]; exact hd, fun app src hs => ?_,
        fun app hn => ?_⟩
      · exact (hsome app src hs).imp_right fun hb => hb.imp fun b hb =>
          ⟨List.mem_cons_of_mem _ hb.1, hb.2⟩
      · refine ⟨(hnone app hn).1, fun b hb => ?_⟩
        rcases List.mem_cons.mp hb with he | hb
        · cases he
          exact hbag
        · exact (hnone app hn).2 b hb
    · have hturn : addCmrData acc (name, bag) = .ok (acc.insert name source) := by
        simp [addCmrData, hbag, bind, Except.bind, pure, Except.pure]
      obtain ⟨data, hd, hsome, hnone⟩ := hl (acc.insert name source)
      refine ⟨data, by rw [List.foldlM_cons, hturn]; exact hd, fun app src hs => ?_,
        fun app hn => ?_⟩
      · rcases hsome app src hs with hacc | ⟨b, hb, hbs⟩
        · by_cases ha : app = name
          · subst ha
            rw [AList.lookup_insert] at hacc
            cases hacc
            exact .inr ⟨bag, List.mem_cons_self, hbag⟩
          · rw [AList.lookup_insert_ne ha] at hacc
            exact .inl hacc
        · exact .inr ⟨b, List.mem_cons_of_mem _ hb, hbs⟩
      · obtain ⟨hacc, hrest⟩ := hnone app hn
        have ha : app ≠ name := by
          rintro rfl
          rw [AList.lookup_insert] at hacc
          cases hacc
        rw [AList.lookup_insert_ne ha] at hacc
        refine ⟨hacc, fun b hb => ?_⟩
        rcases List.mem_cons.mp hb with he | hb
        · cases he
          exact absurd rfl ha
        · exact hrest b hb

/-- How the charm names a remote application in its policies. -/
def sourceOf (c : Consumer) (app : String) : CMRData :=
  (((cmrApplicationData c.cmrRelations).toOption.getD ∅).lookup app).getD ⟨app, c.modelName⟩

theorem source_sourceOf {c : Consumer} (h : WellRelated c) (app : String) :
    Source c app (sourceOf c app) := by
  obtain ⟨data, hd, hsome, hnone⟩ := foldlM_addCmrData h.tells ∅
  have hof : sourceOf c app = (data.lookup app).getD ⟨app, c.modelName⟩ := by
    rw [sourceOf, cmrApplicationData, hd]
    rfl
  cases hl : data.lookup app with
  | none => exact .inr ⟨(hnone app hl).2, by rw [hof, hl]; rfl⟩
  | some source =>
    rw [hof, hl, Option.getD_some]
    rcases hsome app source hl with hempty | hbag
    · simp at hempty
    · exact .inl hbag

/-- A charm writes its policies, whatever is in the databag. -/
theorem updateServiceMesh_ok {c : Consumer} (h : WellRelated c) : ∃ ps,
    (∀ bag, updateServiceMesh c bag = .ok (bag.insert "policies" (policyCodec.list.dumps ps))) ∧
      ps.map MeshPolicy.fields = grants (sourceOf c) c := by
  obtain ⟨data, hd, -⟩ := foldlM_addCmrData h.tells ∅
  refine ⟨c.policies.flatMap fun policy => (c.relations policy.relation).map
    (addedPolicy h.named c.modelName data policy), fun bag => ?_, ?_⟩
  · rw [updateServiceMesh, cmrApplicationData, hd]
    simp only [bind, Except.bind,
      buildMeshPolicies_ok h.named c.modelName data c.relations c.policies]
    rfl
  · simp only [grants, sourceOf, cmrApplicationData, hd, List.map_flatMap, List.map_map]
    rfl

/-- The policies in a databag. -/
def policiesIn (bag : Databag) : Except MeshError (List MeshPolicy) :=
  readPolicies ((bag.lookup "policies").getD "[]")

/-- The beacon reads each databag and puts what it reads together. -/
theorem meshInfo_ok {α : Type} {f : α → List MeshPolicyFields} {l : List α} {bags : List Databag}
    (h : List.Forall₂
      (fun x bag => ∃ ps, policiesIn bag = .ok ps ∧ ps.map MeshPolicy.fields = f x) l bags) :
    ∃ ps, meshInfo bags = .ok ps ∧ ps.map MeshPolicy.fields = l.flatMap f := by
  suffices hloop : ∀ acc : List MeshPolicy, ∃ ps, bags.foldlM (fun info bag => do
      return info ++ (← policiesIn bag)) acc = .ok (acc ++ ps) ∧
        ps.map MeshPolicy.fields = l.flatMap f from
    (hloop []).imp fun ps hps => by simpa [meshInfo, policiesIn] using hps
  induction h with
  | nil => exact fun acc => ⟨[], by simp [pure, Except.pure], rfl⟩
  | cons hx _ ih =>
    intro acc
    obtain ⟨ps, hps, hfields⟩ := hx
    obtain ⟨rest, hrest, hfields'⟩ := ih (acc ++ ps)
    refine ⟨ps ++ rest, ?_, by simp [hfields, hfields']⟩
    rw [List.foldlM_cons, hps]
    simpa [bind, Except.bind, pure, Except.pure] using hrest

/-- What the beacon reads, of charms that each wrote their policies to their databag: for
each charm, one policy for each of its own policies and each application that is related by
it, in this order. A remote application is named as it told itself over a cross-model
relation, and else as the charm sees it. -/
theorem the_beacon_reads_what_the_charms_grant {charms : List (Consumer × Databag)}
    {bags : List Databag} (hrel : ∀ charm ∈ charms, WellRelated charm.1)
    (hwrote : List.Forall₂ (fun charm bag => updateServiceMesh charm.1 charm.2 = .ok bag)
      charms bags) :
    (∃ ps, meshInfo bags = .ok ps ∧
      ps.map MeshPolicy.fields = charms.flatMap fun charm => grants (sourceOf charm.1) charm.1) ∧
    ∀ charm ∈ charms, ∀ app, Source charm.1 app (sourceOf charm.1 app) := by
  refine ⟨?_, fun charm hc app => source_sourceOf (hrel charm hc) app⟩
  apply meshInfo_ok
  refine ((List.forall₂_and_left _ _).mpr ⟨hrel, hwrote⟩).imp ?_
  rintro charm bag ⟨hwell, hw⟩
  obtain ⟨ps, hps, hgrants⟩ := updateServiceMesh_ok hwell
  cases (hps charm.2).symm.trans hw
  exact ⟨ps, by simp [policiesIn, Finmap.lookup_insert], hgrants⟩

/-! ## Two charms, for the example -/

/-- The gatekeeper has no policies. -/
def gatekeeper : Consumer := ⟨"oidc-gatekeeper", "kubeflow", [], fun _ => [], []⟩

def dataPort : Integer := ⟨8080, by decide⟩

def metricsPort : Integer := ⟨9090, by decide⟩

/-- A charm with one policy of each kind. One of its remote applications is in another model. -/
def catalogue : Consumer where
  appName := "catalogue"
  modelName := "kubeflow"
  policies := [.app "data" [⟨none, some [dataPort], some [.get], some ["/data"]⟩] none,
    .unit "metrics" (some [metricsPort])]
  relations name := if name = "data" then ["portal", "offer"] else ["prometheus"]
  cmrRelations := [("offer", sendCmrData true ⟨"portal", "staging"⟩ ∅)]

theorem the_beacon_reads_what_the_charms_grant_catalogue : ∃ bags ps,
    List.Forall₂ (fun charm bag => updateServiceMesh charm.1 charm.2 = .ok bag)
      [(gatekeeper, ∅), (catalogue, ∅)] bags ∧ meshInfo bags = .ok ps ∧
    ps.map MeshPolicy.fields = [
      ⟨"kubeflow", "portal", "kubeflow", some "catalogue", none, none, .app,
        [⟨none, some [dataPort], some [.get], some ["/data"]⟩]⟩,
      ⟨"staging", "portal", "kubeflow", some "catalogue", none, none, .app,
        [⟨none, some [dataPort], some [.get], some ["/data"]⟩]⟩,
      ⟨"kubeflow", "prometheus", "kubeflow", some "catalogue", none, none, .unit,
        [⟨none, some [metricsPort], none, none⟩]⟩] := by
  have hg : WellRelated gatekeeper := ⟨by decide, by simp [gatekeeper]⟩
  have hc : WellRelated catalogue := by
    refine ⟨by decide, fun cmr hcmr => .inr ⟨⟨"portal", "staging"⟩, ?_⟩⟩
    simp only [catalogue, List.mem_singleton] at hcmr
    simp [hcmr, sendCmrData, Finmap.lookup_insert]
  obtain ⟨ps₁, h₁, -⟩ := updateServiceMesh_ok hg
  obtain ⟨ps₂, h₂, -⟩ := updateServiceMesh_ok hc
  have hwrote := List.Forall₂.cons (R := fun (charm : Consumer × Databag) bag =>
    updateServiceMesh charm.1 charm.2 = .ok bag) (a := (gatekeeper, ∅)) (h₁ ∅)
    (.cons (a := (catalogue, ∅)) (h₂ ∅) .nil)
  obtain ⟨⟨ps, hps, hfields⟩, -⟩ := the_beacon_reads_what_the_charms_grant
    (by simpa using ⟨hg, hc⟩) hwrote
  exact ⟨_, ps, hwrote, hps, hfields.trans (by decide +kernel)⟩

end oidc_gatekeeper.service_mesh
