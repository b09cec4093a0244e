-- One run of the charm code, which Juju calls a hook: the state that it reads
-- and writes, the answers that it gets from outside, and the three functions of
-- other packages that it calls (`get_interfaces`, `send_data`, `update_layer`).
import OidcGatekeeper.Pebble

namespace oidc_gatekeeper

/-! ## What the charm publishes -/

/-- The payload of an `oidc-client` relation. -/
structure OidcClientData where
  id : String
  name : String
  redirectURIs : List String
  secret : String
  deriving DecidableEq

/-- The payload of an `ingress` relation. -/
structure IngressData where
  pathPrefix : String
  rewrite : String
  service : String
  port : Nat
  deriving DecidableEq

/-- The payload of an `ingress-auth` relation. -/
structure IngressAuthData where
  service : String
  port : Nat
  allowedRequestHeaders : List String
  allowedResponseHeaders : List String
  deriving DecidableEq

structure Listener where
  port : Nat
  protocol : String
  deriving DecidableEq

structure HTTPPathMatch where
  type : String
  value : String
  deriving DecidableEq

structure BackendRef where
  service : String
  port : Nat
  deriving DecidableEq

structure HTTPRoute where
  name : String
  listener : Listener
  pathMatches : List HTTPPathMatch
  backends : List BackendRef
  deriving DecidableEq

structure IstioIngressRouteConfig where
  model : String
  listeners : List Listener
  httpRoutes : List HTTPRoute
  deriving DecidableEq

/-- The databag of this application on an SDI relation: the versions that SDI writes by
itself, and the payload of the last `send_data`. -/
structure SdiSide (π : Type) where
  supportedVersions : Option String
  data : Option π
  deriving DecidableEq

def SdiSide.empty {π : Type} : SdiSide π := ⟨none, none⟩

/-! ## The model -/

/-- The Juju data of the application, as `self.model` shows it. The unit that runs the
hook does not matter: each unit sees the same data. -/
structure Model where
  config : Config
  dexOidcConfig : List (Relation Unit)
  ingress : List (Relation (SdiSide IngressData))
  ingressAuth : List (Relation (SdiSide IngressAuthData))
  oidcClient : List (Relation (SdiSide OidcClientData))
  clientSecret : List (Relation Databag)
  forwardAuth : List (Relation Databag)
  istioIngressRoute : List (Relation (Option IstioIngressRouteConfig))
  deriving DecidableEq

/-- What SDI looks at: the remote side of every relation of its three endpoints. -/
structure SdiRemotes where
  ingress : List (Nat × String × Databag)
  ingressAuth : List (Nat × String × Databag)
  oidcClient : List (Nat × String × Databag)
  deriving DecidableEq

def Model.sdiRemotes (m : Model) : SdiRemotes where
  ingress := Relation.remotes m.ingress
  ingressAuth := Relation.remotes m.ingressAuth
  oidcClient := Relation.remotes m.oidcClient

/-- The dict that `get_interfaces` returns, as the charm reads it: is there an interface
for the endpoint. -/
structure Interfaces where
  ingress : Bool
  ingressAuth : Bool
  oidcClient : Bool

/-- An endpoint has an interface when it has a relation. -/
def Model.interfaces (m : Model) : Interfaces where
  ingress := !m.ingress.isEmpty
  ingressAuth := !m.ingressAuth.isEmpty
  oidcClient := !m.oidcClient.isEmpty

/-! ## Outside the repository -/

/-- What `get_interfaces` of SDI raises: its own two exceptions, with their text, or another
one, by its name, such as the `TypeError` for a list of versions that is no list. -/
inductive VersionError
  | noVersionsListed (message : String)
  | noCompatibleVersions (message : String)
  | other (exception : String)
  deriving DecidableEq

/-- The packages that the repository only uses. `versionError` is what `get_interfaces`
raises, if anything; `supportedVersions` is what it leaves under its own key of the
relation with this id; the messages are those of `update_layer`. -/
structure Packages where
  versionError : SdiRemotes → Option VersionError
  supportedVersions : SdiRemotes → Nat → Option String → Option String
  notReadyMessage : String
  replanMessage : String

/-- `ascii_uppercase + digits`. -/
def passAlphabet : List Char := "ABCDEFGHIJKLMNOPQRSTUVWXYZ0123456789".toList

/-- What `choices(ascii_uppercase + digits, k=30)` can return. -/
structure Choices where
  chars : List Char
  length_eq : chars.length = 30
  mem_alphabet : ∀ c ∈ chars, c ∈ passAlphabet

/-- The answers that one hook gets from outside, in the order in which it asks: does
`can_connect` say yes, does `replan` succeed, and what does `choices` return. -/
structure Tape where
  canConnect : Stream' Bool
  replan : Stream' Bool
  choices : Stream' Choices

/-! ## The state of a hook -/

structure HookState where
  model : Model
  unit : UnitState
  tape : Tape

/-- Code of the charm: it reads and writes the state of the hook, and may raise. -/
abbrev Handler := EStateM Exc HookState

namespace HookState

/-- `self.model.unit.status = status`. -/
def setStatus (s : HookState) (status : UnitStatus) : HookState :=
  { s with unit := { s.unit with status := some status } }

def onModel (s : HookState) (f : Model → Model) : HookState := { s with model := f s.model }

def onContainer (s : HookState) (f : Container → Container) : HookState :=
  { s with unit := { s.unit with container := f s.unit.container } }

/-- One more answer of `can_connect` is used up. -/
def askedConnect (s : HookState) : HookState :=
  { s with tape := { s.tape with canConnect := s.tape.canConnect.tail } }

def askedReplan (s : HookState) : HookState :=
  { s with tape := { s.tape with replan := s.tape.replan.tail } }

def askedChoices (s : HookState) : HookState :=
  { s with tape := { s.tape with choices := s.tape.choices.tail } }

end HookState

def canConnect : Handler Bool := modifyGet fun s => (s.tape.canConnect.head, s.askedConnect)

def setStatus (status : UnitStatus) : Handler Unit := modify (·.setStatus status)

/-- `container.push(path, content, make_dirs=True)`, on a container that can connect. -/
def push (path content : String) : Handler Unit := modify (·.onContainer (·.pushed path content))

/-! ## The functions of the other packages -/

/-- SDI leaves its own key in each relation of its endpoints. -/
def Model.withVersions (pk : Packages) (m : Model) : Model :=
  let key {π : Type} (r : Relation (SdiSide π)) : SdiSide π :=
    { r.ours with
      supportedVersions := pk.supportedVersions m.sdiRemotes r.id r.ours.supportedVersions }
  { m with
    ingress := Relation.written key m.ingress
    ingressAuth := Relation.written key m.ingressAuth
    oidcClient := Relation.written key m.oidcClient }

/-- `get_interfaces` of SDI, on the leader. -/
def sdiGetInterfaces (pk : Packages) : Handler Interfaces := do
  let m := (← get).model
  modify (·.onModel (·.withVersions pk))
  match pk.versionError m.sdiRemotes with
  | some (.noVersionsListed message) => throw (.noVersionsListed message)
  | some (.noCompatibleVersions message) => throw (.noCompatibleVersions message)
  | some (.other exception) => throw (.other exception)
  | none => return m.interfaces

/-- `interface.send_data(payload)`: the payload in each relation of the endpoint. -/
def sendData {π : Type} (payload : π) (rels : List (Relation (SdiSide π))) :
    List (Relation (SdiSide π)) :=
  Relation.written (fun r => { r.ours with data := some payload }) rels

/-- `update_layer`, for the layer of the service `name`. -/
def updateLayer (pk : Packages) (name : String) (layer : Layer) : Handler Unit := do
  if !(← canConnect) then
    throw (.errorWithStatus ⟨.maintenance, pk.notReadyMessage⟩)
  if (← get).unit.container.plan ≠ layer.services then
    modify (·.onContainer (·.addLayer layer))
    let ok ← modifyGet fun s => (s.tape.replan.head, s.askedReplan)
    if ok then
      modify (·.onContainer (·.replanned name))
    else
      modify (·.onContainer Container.replanFailed)
      throw (.errorWithStatus ⟨.blocked, pk.replanMessage⟩)

/-- `update_layer` does one of four things. -/
theorem run_updateLayer (pk : Packages) (name : String) (layer : Layer) (s : HookState) :
    (updateLayer pk name layer).run s =
      if s.tape.canConnect.head = false then
        .error (.errorWithStatus ⟨.maintenance, pk.notReadyMessage⟩) s.askedConnect
      else if s.unit.container.plan = layer.services then .ok () s.askedConnect
      else if s.tape.replan.head = true then
        .ok () (s.askedConnect.askedReplan.onContainer fun k => (k.addLayer layer).replanned name)
      else
        .error (.errorWithStatus ⟨.blocked, pk.replanMessage⟩)
          (s.askedConnect.askedReplan.onContainer fun k => (k.addLayer layer).replanFailed) := by
  unfold updateLayer canConnect
  cases hc : s.tape.canConnect.head with
  | false => simp [hc]
  | true =>
    by_cases hp : s.unit.container.plan = layer.services
    · simp [hc, hp, HookState.askedConnect]
    · cases hr : s.tape.replan.head <;>
        simp [hc, hp, hr, HookState.askedConnect, HookState.askedReplan, HookState.onContainer]

/-- What `update_layer` leaves: nothing is done, or the layer is added, before a replan that
succeeds or fails. -/
theorem updateLayer_cases {pk : Packages} {name : String} {layer : Layer} {s s' : HookState}
    (h : handlers.Leaves (updateLayer pk name layer) s s') :
    (s' = s.askedConnect ∧
      (s.tape.canConnect.head = true → s.unit.container.plan = layer.services)) ∨
    (s' = s.askedConnect.askedReplan.onContainer fun k => (k.addLayer layer).replanned name) ∨
    s' = s.askedConnect.askedReplan.onContainer fun k => (k.addLayer layer).replanFailed := by
  have hrun := run_updateLayer pk name layer s
  split at hrun
  · rename_i hc
    left
    cases h with
    | ok h => cases hrun.symm.trans h
    | error h =>
      cases hrun.symm.trans h
      exact ⟨rfl, fun hy => absurd (hy.symm.trans hc) (by decide)⟩
  · split at hrun
    · rename_i hp
      left
      cases h with
      | ok h =>
        cases hrun.symm.trans h
        exact ⟨rfl, fun _ => hp⟩
      | error h => cases hrun.symm.trans h
    · split at hrun
      · cases h with
        | ok h =>
          cases hrun.symm.trans h
          exact .inr (.inl rfl)
        | error h => cases hrun.symm.trans h
      · cases h with
        | ok h => cases hrun.symm.trans h
        | error h =>
          cases hrun.symm.trans h
          exact .inr (.inr rfl)

end oidc_gatekeeper
