-- The routes of the istio-ingress-route library: the config that a charm submits,
-- as JSON in its databag, and the config that the ingress gets from there.
import OidcGatekeeper.Codecs
import OidcGatekeeper.Juju

open json

namespace oidc_gatekeeper.istio_ingress_route

/-! ## The data types -/

inductive ProtocolType
  | http | grpc
  deriving DecidableEq

def ProtocolType.value : ProtocolType → String
  | http => "HTTP"
  | grpc => "GRPC"

/-- `Field(ge=1, le=65535)`. -/
abbrev Port := { n : Int // 1 ≤ n ∧ n ≤ 65535 }

/-- `Field(ge=1, le=100)`. -/
abbrev Weight := { n : Int // 1 ≤ n ∧ n ≤ 100 }

structure Listener where
  port : Port
  protocol : ProtocolType
  deriving DecidableEq

structure BackendRef where
  service : String
  port : Port
  weight : Option Weight
  deriving DecidableEq

inductive HTTPMethod
  | get | post | put | delete | patch | head | options | connect | trace
  deriving DecidableEq

def HTTPMethod.value : HTTPMethod → String
  | get => "GET"
  | post => "POST"
  | put => "PUT"
  | delete => "DELETE"
  | patch => "PATCH"
  | head => "HEAD"
  | options => "OPTIONS"
  | connect => "CONNECT"
  | trace => "TRACE"

inductive HTTPPathMatchType
  | exact | pathPrefix | regularExpression
  deriving DecidableEq

def HTTPPathMatchType.value : HTTPPathMatchType → String
  | exact => "Exact"
  | pathPrefix => "PathPrefix"
  | regularExpression => "RegularExpression"

structure HTTPPathMatch where
  type : HTTPPathMatchType
  value : String
  deriving DecidableEq

structure GRPCMethodMatch where
  service : String
  method : Option String
  deriving DecidableEq

/-- A `dict` that goes through JSON: its keys are texts, and its values are any JSON. -/
abbrev Headers := AList fun _ : String => { v : Value // v.Exact }

structure HTTPRouteMatch where
  headers : Option Headers
  path : Option HTTPPathMatch
  method : Option HTTPMethod

structure GRPCRouteMatch where
  headers : Option Headers
  method : Option GRPCMethodMatch

inductive PathModifierType
  | replaceFullPath | replacePrefixMatch
  deriving DecidableEq

def PathModifierType.value : PathModifierType → String
  | replaceFullPath => "ReplaceFullPath"
  | replacePrefixMatch => "ReplacePrefixMatch"

structure PathModifier where
  type : PathModifierType
  value : String
  deriving DecidableEq

structure URLRewriteSpec where
  hostname : Option String
  path : Option PathModifier
  deriving DecidableEq

structure RequestRedirectSpec where
  scheme : Option String
  hostname : Option String
  path : Option PathModifier
  port : Option Port
  statusCode : Integer
  deriving DecidableEq

/-- `HTTPRouteFilter`, the union of `URLRewriteFilter` and `RequestRedirectFilter`. -/
inductive HTTPRouteFilter
  | urlRewrite (spec : URLRewriteSpec)
  | requestRedirect (spec : RequestRedirectSpec)
  deriving DecidableEq

structure HTTPRoute where
  name : String
  listener : Listener
  backends : List BackendRef
  hostnames : Option (List String)
  routeMatches : Option (List HTTPRouteMatch)
  filters : Option (List HTTPRouteFilter)

/-- The filters of a `GRPCRoute` are `RequestRedirectFilter`s. -/
structure GRPCRoute where
  name : String
  listener : Listener
  backends : List BackendRef
  hostnames : Option (List String)
  routeMatches : Option (List GRPCRouteMatch)
  filters : Option (List RequestRedirectSpec)

structure IstioIngressRouteConfig where
  model : String
  listeners : List Listener
  httpRoutes : List HTTPRoute
  grpcRoutes : List GRPCRoute

/-! ## The data types as JSON -/

def protocolCodec : Codec ProtocolType :=
  .enum [.http, .grpc] ProtocolType.value fun p => by cases p <;> decide

def methodCodec : Codec HTTPMethod :=
  .enum [.get, .post, .put, .delete, .patch, .head, .options, .connect, .trace] HTTPMethod.value
    fun m => by cases m <;> decide

def pathMatchTypeCodec : Codec HTTPPathMatchType :=
  .enum [.exact, .pathPrefix, .regularExpression] HTTPPathMatchType.value
    fun t => by cases t <;> decide

def modifierTypeCodec : Codec PathModifierType :=
  .enum [.replaceFullPath, .replacePrefixMatch] PathModifierType.value
    fun t => by cases t <;> decide

theorem toDigits_short {n hi : Int} (hhi : hi ≤ 65535) (h : 1 ≤ n ∧ n ≤ hi) :
    (Nat.toDigits 10 n.natAbs).length ≤ 4300 := by
  have hfive : (Nat.toDigits 10 n.natAbs).length ≤ 5 :=
    (Nat.length_toDigits_le_iff (by decide) (by decide)).mpr (by omega)
  exact hfive.trans (by decide)

def portCodec : Codec Port := .intBetween 1 65535 fun _ => toDigits_short (by decide)

def listenerCodec : Codec Listener :=
  .object (((Fields.field "port" portCodec).both (Fields.field "protocol" protocolCodec)).via
    (fun l => (l.port, l.protocol)) (fun t => some ⟨t.1, t.2⟩) fun _ => rfl)

def weightOrNone : Codec (Option Weight) :=
  (Codec.intBetween 1 100 fun _ => toDigits_short (by decide)).option fun _ => by
    simp [Codec.intBetween, Codec.via, Codec.int]

def portOrNone : Codec (Option Port) :=
  portCodec.option fun _ => by simp [portCodec, Codec.intBetween, Codec.via, Codec.int]

def backendCodec : Codec BackendRef :=
  .object (((Fields.field "service" .string).both ((Fields.field "port" portCodec).both
    (Fields.fieldOr "weight" none weightOrNone))).via
    (fun b => (b.service, b.port, b.weight)) (fun t => some ⟨t.1, t.2.1, t.2.2⟩) fun _ => rfl)

def pathMatchFields : Fields HTTPPathMatch :=
  ((Fields.fieldOr "type" .pathPrefix pathMatchTypeCodec).both (Fields.field "value" .string)).via
    (fun p => (p.type, p.value)) (fun t => some ⟨t.1, t.2⟩) fun _ => rfl

def grpcMethodFields : Fields GRPCMethodMatch :=
  ((Fields.field "service" .string).both (Fields.fieldOr "method" none Codec.stringOrNone)).via
    (fun m => (m.service, m.method)) (fun t => some ⟨t.1, t.2⟩) fun _ => rfl

def methodOrNone : Codec (Option HTTPMethod) :=
  methodCodec.option fun _ => by simp [methodCodec, Codec.enum, Codec.via, Codec.string]

def httpMatchCodec : Codec HTTPRouteMatch :=
  .object (((Fields.fieldOr "headers" none Codec.value.dictOrNone).both
    ((Fields.fieldOr "path" none (Codec.objectOrNone pathMatchFields)).both
      (Fields.fieldOr "method" none methodOrNone))).via
    (fun m => (m.headers, m.path, m.method)) (fun t => some ⟨t.1, t.2.1, t.2.2⟩) fun _ => rfl)

def grpcMatchCodec : Codec GRPCRouteMatch :=
  .object (((Fields.fieldOr "headers" none Codec.value.dictOrNone).both
    (Fields.fieldOr "method" none (Codec.objectOrNone grpcMethodFields))).via
    (fun m => (m.headers, m.method)) (fun t => some ⟨t.1, t.2⟩) fun _ => rfl)

/-- The key of the value, which the Gateway API wants to differ by type. -/
def PathModifierType.key : PathModifierType → String
  | replaceFullPath => "replaceFullPath"
  | replacePrefixMatch => "replacePrefixMatch"

/-- A path modifier from its two values. Where the type is missing, the key tells it. -/
def readModifier (type : Option Value) (default : Option PathModifierType) (v : Value) :
    Option PathModifier := do
  let type ← match type with
    | some t => modifierTypeCodec.decode t
    | none => default
  return ⟨type, ← Codec.string.decode v⟩

/-- `serialize_model`, and `validate_path_modifier` with the plain fields behind it. -/
def pathModifierCodec : Codec PathModifier where
  encode p := .obj (members [("type", .str p.type.value), (p.type.key, .str p.value)])
  decode
    | .obj ms =>
      let dic := texts ms
      match dic.lookup "replacePrefixMatch", dic.lookup "replaceFullPath" with
      | some v, _ => readModifier (dic.lookup "type") (some .replacePrefixMatch) v
      | none, some v => readModifier (dic.lookup "type") (some .replaceFullPath) v
      | none, none => (dic.lookup "value").bind (readModifier (dic.lookup "type") none)
    | _ => none
  exact p := by
    apply exact_members
    · obtain ⟨type, value⟩ := p
      cases type <;> simp [PathModifierType.key]
    · exact List.forall_mem_cons.mpr ⟨trivial, List.forall_mem_singleton.mpr trivial⟩
  decode_encode p := by
    obtain ⟨type, value⟩ := p
    cases type <;> rfl

def modifierOrNone : Codec (Option PathModifier) :=
  pathModifierCodec.option fun _ => by simp [pathModifierCodec]

def urlRewriteFields : Fields URLRewriteSpec :=
  ((Fields.fieldOr "hostname" none Codec.stringOrNone).both
    (Fields.fieldOr "path" none modifierOrNone)).via
    (fun s => (s.hostname, s.path)) (fun t => some ⟨t.1, t.2⟩) fun _ => rfl

def found : Integer := ⟨301, by decide⟩

def requestRedirectFields : Fields RequestRedirectSpec :=
  ((Fields.fieldOr "scheme" none Codec.stringOrNone).both
    ((Fields.fieldOr "hostname" none Codec.stringOrNone).both
      ((Fields.fieldOr "path" none modifierOrNone).both
        ((Fields.fieldOr "port" none portOrNone).both
          (Fields.fieldOr "statusCode" found .int))))).via
    (fun s => (s.scheme, s.hostname, s.path, s.port, s.statusCode))
    (fun t => some ⟨t.1, t.2.1, t.2.2.1, t.2.2.2.1, t.2.2.2.2⟩) fun _ => rfl

/-- A filter: its spec under its own key, and its computed type. -/
def filterCodec {α : Type} (key type : String) (h : key ≠ "type") (spec : Codec α) : Codec α :=
  .object (((Fields.field key spec).both (Fields.computed "type" (.str type) trivial)
    (by simpa [Fields.field, Fields.computed] using h)).via (fun a => (a, ()))
    (fun t => some t.1) fun _ => rfl) (by simpa [Fields.via, Fields.both, Fields.field,
      Fields.computed] using h)

def urlRewriteFilterCodec : Codec URLRewriteSpec :=
  filterCodec "urlRewrite" "URLRewrite" (by decide) (.object urlRewriteFields)

def requestRedirectFilterCodec : Codec RequestRedirectSpec :=
  filterCodec "requestRedirect" "RequestRedirect" (by decide) (.object requestRedirectFields)

def httpFilterCodec : Codec HTTPRouteFilter :=
  (urlRewriteFilterCodec.either requestRedirectFilterCodec fun _ => rfl).via
    (fun
      | .urlRewrite spec => .inl spec
      | .requestRedirect spec => .inr spec)
    (fun
      | .inl spec => some (.urlRewrite spec)
      | .inr spec => some (.requestRedirect spec))
    fun f => by cases f <;> rfl

def httpRouteCodec : Codec HTTPRoute :=
  .object (((Fields.field "name" .string).both ((Fields.field "listener" listenerCodec).both
    ((Fields.field "backends" backendCodec.list).both
      ((Fields.fieldOr "hostnames" none Codec.string.listOrNone).both
        ((Fields.fieldOr "matches" none httpMatchCodec.listOrNone).both
          (Fields.fieldOr "filters" none httpFilterCodec.listOrNone)))))).via
    (fun r => (r.name, r.listener, r.backends, r.hostnames, r.routeMatches, r.filters))
    (fun t => some ⟨t.1, t.2.1, t.2.2.1, t.2.2.2.1, t.2.2.2.2.1, t.2.2.2.2.2⟩) fun _ => rfl)

def grpcRouteCodec : Codec GRPCRoute :=
  .object (((Fields.field "name" .string).both ((Fields.field "listener" listenerCodec).both
    ((Fields.field "backends" backendCodec.list).both
      ((Fields.fieldOr "hostnames" none Codec.string.listOrNone).both
        ((Fields.fieldOr "matches" none grpcMatchCodec.listOrNone).both
          (Fields.fieldOr "filters" none requestRedirectFilterCodec.listOrNone)))))).via
    (fun r => (r.name, r.listener, r.backends, r.hostnames, r.routeMatches, r.filters))
    (fun t => some ⟨t.1, t.2.1, t.2.2.1, t.2.2.2.1, t.2.2.2.2.1, t.2.2.2.2.2⟩) fun _ => rfl)

def configCodec : Codec IstioIngressRouteConfig :=
  .object (((Fields.field "model" .string).both
    ((Fields.fieldOr "listeners" [] listenerCodec.list).both
      ((Fields.fieldOr "http_routes" [] httpRouteCodec.list).both
        (Fields.fieldOr "grpc_routes" [] grpcRouteCodec.list)))).via
    (fun c => (c.model, c.listeners, c.httpRoutes, c.grpcRoutes))
    (fun t => some ⟨t.1, t.2.1, t.2.2.1, t.2.2.2⟩) fun _ => rfl)

/-! ## The two sides -/

inductive RouteError
  | unauthorizedError
  deriving DecidableEq

/-- `submit_config`, on every relation of the endpoint. The JSON texts are pydantic's. -/
def submitConfig (F : Format) (isLeader : Bool) (config : IstioIngressRouteConfig)
    (rels : List (Relation Databag)) : Except RouteError (List (Relation Databag)) :=
  if !isLeader then .error .unauthorizedError
  else .ok (Relation.written
    (fun r => r.ours.insert "config" (F.write (configCodec.encode config))) rels)

/-- `is_ready` of the provider. -/
def isReady (relation : Relation Databag) : Bool := "config" ∈ relation.remote

/-- `get_config`. A text that is no config is only logged. -/
def getConfig (F : Format) (relation : Relation Databag) : Option IstioIngressRouteConfig :=
  if !isReady relation then none
  else match relation.remote.lookup "config" with
    | none => none
    | some text => if text = "" then none else (F.read text).bind configCodec.decode

/-- The relation, as the ingress at the other end sees it. -/
def otherSide (app : String) (r : Relation Databag) : Relation Databag :=
  ⟨r.id, app, r.ours, r.remote⟩

theorem getConfig_of_lookup (F : Format) {config : IstioIngressRouteConfig}
    {relation : Relation Databag}
    (h : relation.remote.lookup "config" = some (F.write (configCodec.encode config))) :
    getConfig F relation = some config := by
  have hready : isReady relation = true := decide_eq_true (Finmap.mem_of_lookup_eq_some h)
  have hne := F.write_ne_empty (configCodec.exact config)
  simp [getConfig, hready, h, hne, F.read_write (configCodec.exact config),
    configCodec.decode_encode]

end oidc_gatekeeper.istio_ingress_route
