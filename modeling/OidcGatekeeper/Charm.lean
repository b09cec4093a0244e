-- The charm class: `main` and the functions that it calls, the constructor, and
-- the observers that it registers. A hook runs the constructor and then the
-- observers of its event, in the order in which they were registered.
import OidcGatekeeper.ForwardAuth

namespace oidc_gatekeeper

/-! ## The class -/

/-- What stays fixed for the life of the application. -/
structure Deployment where
  appName : String
  modelName : String
  packages : Packages

/-- `self`, in one hook. Leadership does not change inside a hook. -/
structure Charm extends Deployment where
  isLeader : Bool

def httpPort : Nat := 8080

def pebbleServiceName : String := "oidc-authservice"

def caBundlePath : String := "/etc/certs/oidc/root-ca.pem"

def serviceUrl (c : Charm) : String :=
  "http://" ++ c.appName ++ "." ++ c.modelName ++ ".svc.cluster.local:" ++ toString httpPort

/-- The `ForwardAuthConfig` of the constructor. -/
def forwardAuthConfig (c : Charm) : forward_auth.ForwardAuthConfig where
  decisionsAddress := serviceUrl c
  appNames := []
  headers := ["kubeflow-userid"]

/-! ## The ambient mesh -/

def ambientMeshConfig (c : Charm) : IstioIngressRouteConfig where
  model := c.modelName
  listeners := [⟨80, "HTTP"⟩]
  httpRoutes := [
    { name := "http-ingress"
      listener := ⟨80, "HTTP"⟩
      pathMatches := [⟨"PathPrefix", "/authservice/"⟩]
      backends := [⟨c.appName, httpPort⟩] }]

/-- `submit_config` of the istio-ingress-route library, on the leader. -/
def submitConfig (config : IstioIngressRouteConfig) (m : Model) : Model :=
  { m with istioIngressRoute := Relation.written (fun _ => some config) m.istioIngressRoute }

def ambientMeshIngress (c : Charm) : Handler Unit := do
  if c.isLeader then
    modify (·.onModel (submitConfig (ambientMeshConfig c)))

/-! ## The checks -/

def waitingForLeadership : UnitStatus := ⟨.waiting, "Waiting for leadership"⟩

def waitingForClientSecret : UnitStatus := ⟨.waiting, "Waiting for Client Secret"⟩

def emptyOrMissingData : UnitStatus :=
  ⟨.waiting, "Empty or missing data in dex-oidc-config relation." ++
    " This may be transient, but if it persists it is likely an error."⟩

def checkLeader (c : Charm) : Handler Unit := do
  if !c.isLeader then
    throw (.errorWithStatus waitingForLeadership)

/-- `self._dex_oidc_config_requirer.get_data()`. -/
def dexData : Handler dex_oidc_config.DexOidcConfigObject := do
  match dex_oidc_config.getData (← get).model.dexOidcConfig with
  | .ok data => return data
  | .error e => throw e

def checkDexOidcConfigRelation : Handler Unit := do
  try
    let _ ← dexData
  catch
    | .dexOidcConfigRelationMissing message =>
      throw (.errorWithStatus ⟨.blocked, message ++ " Please add the missing relation."⟩)
    | .dexOidcConfigRelationDataMissing _ => throw (.errorWithStatus emptyOrMissingData)
    | e => throw e

def getInterfaces (c : Charm) : Handler Interfaces := do
  try
    sdiGetInterfaces c.packages
  catch
    | .noVersionsListed message => throw (.errorWithStatus ⟨.waiting, message⟩)
    | .noCompatibleVersions message => throw (.errorWithStatus ⟨.blocked, message⟩)
    | e => throw e

/-! ## The client secret -/

/-- `"".join(choices(..))`. -/
def passOf (k : Choices) : String := String.ofList k.chars

def genPass : Handler String := modifyGet fun s => (passOf s.tape.choices.head, s.askedChoices)

/-- `rel.data[self.model.app]["client-secret"] = pass`, on the first peer relation. -/
def storeSecret (pass : String) (m : Model) : Model :=
  { m with clientSecret := match m.clientSecret with
      | [] => []
      | rel :: rels => { rel with ours := rel.ours.insert "client-secret" pass } :: rels }

/-- The stored secret: the value in the first peer relation. -/
def storedSecret (m : Model) : Option String :=
  m.clientSecret.head?.bind fun rel => rel.ours.lookup "client-secret"

/-- The `for` loop returns in its first turn, so only the first peer relation matters. -/
def checkSecret : Handler String := do
  match (← get).model.clientSecret with
  | [] => throw (.errorWithStatus waitingForClientSecret)
  | rel :: _ =>
    if "client-secret" ∉ rel.ours then
      let pass ← genPass
      modify (·.onModel (storeSecret pass))
    match storedSecret (← get).model with
    | some secret => return secret
    | none => throw (.keyError "client-secret")

/-! ## The payloads -/

def oidcClientData (config : Config) (secretKey : String) : OidcClientData where
  id := config.clientId
  name := config.clientName
  redirectURIs := ["/authservice/oidc/callback"]
  secret := secretKey

def ingressData (appName : String) : IngressData where
  pathPrefix := "/authservice"
  rewrite := "/"
  service := appName
  port := httpPort

def ingressAuthData (appName : String) : IngressAuthData where
  service := appName
  port := httpPort
  allowedRequestHeaders := ["cookie", "X-Auth-Token"]
  allowedResponseHeaders := ["kubeflow-userid"]

def sendInfo (interfaces : Interfaces) (secretKey : String) : Handler Unit := do
  if interfaces.oidcClient then
    modify (·.onModel fun m =>
      { m with oidcClient := sendData (oidcClientData m.config secretKey) m.oidcClient })

def configureMesh (c : Charm) (interfaces : Interfaces) : Handler Unit := do
  if interfaces.ingress then
    modify (·.onModel fun m => { m with ingress := sendData (ingressData c.appName) m.ingress })
  if interfaces.ingressAuth then
    modify (·.onModel fun m =>
      { m with ingressAuth := sendData (ingressAuthData c.appName) m.ingressAuth })

/-! ## The layer -/

/-- `SKIP_AUTH_URLS`. The option is a string, so `or ""` leaves it as it is. -/
def dexSkipUrls (skipUrls : String) : String :=
  if skipUrls = "" then "/dex/" else "/dex/," ++ skipUrls

def retEnvVars (config : Config) (secretKey oidcProvider : String) : Environment :=
  List.toFinmap [
    ⟨"AFTER_LOGIN_URL", .str "/"⟩,
    ⟨"AFTER_LOGOUT_URL", .str "/"⟩,
    ⟨"AUTHSERVICE_URL_PREFIX", .str "/authservice/"⟩,
    ⟨"CLIENT_ID", .str config.clientId⟩,
    ⟨"CLIENT_SECRET", .str secretKey⟩,
    ⟨"DISABLE_USERINFO", .bool true⟩,
    ⟨"OIDC_AUTH_URL", .str "/dex/auth"⟩,
    ⟨"OIDC_PROVIDER", .str oidcProvider⟩,
    ⟨"OIDC_SCOPES", .str config.oidcScopes⟩,
    ⟨"SERVER_PORT", .int httpPort⟩,
    ⟨"USERID_CLAIM", .str config.useridClaim⟩,
    ⟨"USERID_HEADER", .str "kubeflow-userid"⟩,
    ⟨"USERID_PREFIX", .str ""⟩,
    ⟨"SESSION_STORE_PATH", .str "bolt.db"⟩,
    ⟨"OIDC_STATE_STORE_PATH", .str "oidc_state.db"⟩,
    ⟨"SKIP_AUTH_URLS", .str (dexSkipUrls config.skipAuthUrls)⟩]

def serviceEnvironment : Handler Environment := do
  let secretKey ← checkSecret
  let config := (← get).model.config
  let oidcProvider := (← dexData).issuerUrl
  let vars := retEnvVars config secretKey oidcProvider
  if config.caBundle ≠ "" then
    if ← canConnect then
      push caBundlePath config.caBundle
      return vars.insert "CA_BUNDLE" (.str caBundlePath)
  return vars

/-- The service entry of the layer. -/
def serviceEntry (environment : Environment) : Service where
  override := "replace"
  summary := "oidc-gatekeeper service"
  command := "/home/authservice/oidc-authservice"
  environment := environment
  startup := "enabled"
  workingDir := "/home/authservice"

def layerOf (environment : Environment) : Layer where
  summary := "OIDC Authservice"
  description := "pebble config layer for FastAPI demo server"
  services := Finmap.singleton pebbleServiceName (serviceEntry environment)

def oidcLayer : Handler Layer := do
  return layerOf (← serviceEnvironment)

/-! ## The reconcile -/

/-- The body of the `try` of `main`. The layer is an argument of `update_layer`, so it is
built before the call. -/
def reconcile (c : Charm) : Handler Unit := do
  checkLeader c
  checkDexOidcConfigRelation
  let interfaces ← getInterfaces c
  let secretKey ← checkSecret
  sendInfo interfaces secretKey
  configureMesh c interfaces
  let layer ← oidcLayer
  updateLayer c.packages pebbleServiceName layer

/-- `main` uses the event only in a log line. -/
def main (c : Charm) (_event : Event) : Handler Unit := do
  let failed ← try
      reconcile c
      pure none
    catch
      | .errorWithStatus status => pure (some status)
      | e => throw e
  match failed with
  | some status => setStatus status
  | none => setStatus activeStatus

/-! ## The constructor and the observers -/

/-- The events that `__init__` wires to `main`. -/
def observedByMain : Event → Bool
  | .start | .leaderElected | .upgradeCharm | .configChanged | .oidcAuthservicePebbleReady => true
  | .relation .ingress .changed _ => true
  | .relation .ingressAuth .changed _ => true
  | .relation .oidcClient .changed _ => true
  | .relation .clientSecret .changed _ => true
  | .relation .dexOidcConfig .changed _ => true
  | .relation .dexOidcConfig .broken _ => true
  | .dexOidcConfigUpdated => true
  | _ => false

/-- The observers that the libraries register in the constructor, before `main`. Both
handlers of the Dex library emit its custom event, and an emit runs the observers of
that event at once. -/
def libraryObservers (c : Charm) : Event → List (Handler Unit)
  | .relation .dexOidcConfig .changed _ => [main c .dexOidcConfigUpdated]
  | .relation .dexOidcConfig .broken _ => [main c .dexOidcConfigUpdated]
  | .relation .forwardAuth .created id =>
    [forward_auth.onRelationCreatedEvent c.isLeader (forwardAuthConfig c) id]
  | .relation .forwardAuth .changed _ => [forward_auth.onRelationChangedEvent c.isLeader]
  | .relation .forwardAuth .broken id => [forward_auth.onRelationBrokenEvent c.isLeader id]
  | _ => []

/-- The observers that are modelled here. Those of the service patch, of the mesh and of the
log forwarder are left out; the one that the log forwarder has for `pebble-ready` runs after
`main`, and may raise. -/
def observers (c : Charm) (event : Event) : List (Handler Unit) :=
  libraryObservers c event ++ if observedByMain event then [main c event] else []

def runAll : List (Handler Unit) → Handler Unit
  | [] => pure ()
  | h :: hs => do
    h
    runAll hs

/-- One hook: the constructor, then the observers of the event. -/
def dispatch (c : Charm) (event : Event) : Handler Unit := do
  ambientMeshIngress c
  runAll (observers c event)

/-- What a hook leaves behind. Juju drops the databag writes of a hook that fails; the
container and the status keep what was done to them. -/
def hook (c : Charm) (event : Event) (tape : Tape) (m : Model) (u : UnitState) :
    Model × UnitState :=
  match (dispatch c event).run ⟨m, u, tape⟩ with
  | .ok _ s => (s.model, s.unit)
  | .error _ s => (m, s.unit)

end oidc_gatekeeper
