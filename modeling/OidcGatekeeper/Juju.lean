-- What Juju keeps for the application and its units: the config, the relations
-- with their databags, the unit status, and the events that it delivers.
import Mathlib.Data.Finmap

namespace oidc_gatekeeper

/-! ## Values -/

/-- A Python dict with string keys. Two dicts with the same items are equal, in any order. -/
abbrev Dict (α : Type) := Finmap (fun _ : String => α)

/-- The application databag of one side of a relation. -/
abbrev Databag := Dict String

/-- `databag[k] = value`. Juju keeps no empty value. -/
def put (k value : String) (bag : Databag) : Databag :=
  if value = "" then bag.erase k else bag.insert k value

@[simp] theorem lookup_put_self (k value : String) (bag : Databag) :
    (put k value bag).lookup k = if value = "" then none else some value := by
  unfold put
  split
  · exact Finmap.lookup_erase k bag
  · exact Finmap.lookup_insert bag

@[simp] theorem lookup_put_of_ne {k k' : String} (h : k' ≠ k) (value : String) (bag : Databag) :
    (put k value bag).lookup k' = bag.lookup k' := by
  unfold put
  split
  · exact Finmap.lookup_erase_ne h
  · exact Finmap.lookup_insert_of_ne bag h

/-- The options of `config.yaml`. Each one has a default, so each one has a value. -/
structure Config where
  clientId : String
  clientName : String
  clientSecret : String
  oidcScopes : String
  caBundle : String
  skipAuthUrls : String
  useridClaim : String
  deriving DecidableEq

/-- The defaults of `config.yaml`. -/
def Config.default : Config where
  clientId := "authservice-oidc"
  clientName := "Ambassador Auth OIDC"
  clientSecret := ""
  oidcScopes := "profile email groups"
  caBundle := ""
  skipAuthUrls := ""
  useridClaim := "email"

/-! ## The unit status -/

inductive StatusKind
  | active | blocked | waiting | maintenance
  deriving DecidableEq

structure UnitStatus where
  kind : StatusKind
  message : String
  deriving DecidableEq

/-- `ActiveStatus()`. -/
def activeStatus : UnitStatus := ⟨.active, ""⟩

/-- The exceptions that the code of the charm and of its libraries raises. -/
inductive Exc
  /-- `ErrorWithStatus(msg, status_type)`, with the status that it carries. -/
  | errorWithStatus (status : UnitStatus)
  | dexOidcConfigRelationMissing (message : String)
  | dexOidcConfigRelationDataMissing (message : String)
  | tooManyRelatedApps (relationName : String) (numRelated : Nat)
  | noVersionsListed (message : String)
  | noCompatibleVersions (message : String)
  | keyError (key : String)
  | typeError
  | jsonDecodeError
  /-- The `ValueError` of an integer with too many digits. -/
  | valueError
  /-- An exception of another package, by its name. -/
  | other (exception : String)
  deriving DecidableEq

/-! ## Relations -/

/-- The endpoints of `metadata.yaml` that the charm or the modelled libraries read. -/
inductive Endpoint
  | clientSecret | dexOidcConfig | forwardAuth | ingress | ingressAuth
  | istioIngressRouteUnauthenticated | oidcClient
  deriving DecidableEq

/-- One relation: the databag of the remote application, and what the databag of this
application holds. -/
structure Relation (α : Type) where
  id : Nat
  app : String
  remote : Databag
  ours : α
  deriving DecidableEq

namespace Relation

variable {α : Type}

def added (e : α) (id : Nat) (app : String) (rels : List (Relation α)) : List (Relation α) :=
  rels ++ [⟨id, app, ∅, e⟩]

def removed (id : Nat) (rels : List (Relation α)) : List (Relation α) :=
  rels.filter (·.id ≠ id)

/-- The remote application writes its databag. -/
def remoteWritten (id : Nat) (bag : Databag) (rels : List (Relation α)) : List (Relation α) :=
  rels.map fun r => if r.id = id then { r with remote := bag } else r

/-- A write to the databag of this application, in each relation of the list. -/
def written (f : Relation α → α) (rels : List (Relation α)) : List (Relation α) :=
  rels.map fun r => { r with ours := f r }

/-- What the remote side of each relation shows: the application and its databag. -/
def remotes (rels : List (Relation α)) : List (Nat × String × Databag) :=
  rels.map fun r => (r.id, r.app, r.remote)

@[simp] theorem remotes_written (f : Relation α → α) (rels : List (Relation α)) :
    remotes (written f rels) = remotes rels := by
  simp [remotes, written]

/-- Of two writes in a row, the second one sees what the first one wrote. -/
theorem written_written (f g : Relation α → α) (rels : List (Relation α)) :
    written f (written g rels) = written (fun r => f { r with ours := g r }) rels := by
  simp [written]

@[simp] theorem isEmpty_written (f : Relation α → α) (rels : List (Relation α)) :
    (written f rels).isEmpty = rels.isEmpty := by
  simp [written]

@[simp] theorem mem_written (f : Relation α → α) (rels : List (Relation α)) (r : Relation α) :
    r ∈ written f rels ↔ ∃ r' ∈ rels, { r' with ours := f r' } = r := by
  simp [written]

end Relation

/-! ## Events -/

inductive RelationEvent
  | created | joined | changed | departed | broken
  deriving DecidableEq

/-- The events that Juju delivers, and the custom event of the Dex library. `other` is
any event that no modelled observer handles, such as `update-status`. -/
inductive Event
  | start | leaderElected | upgradeCharm | configChanged | oidcAuthservicePebbleReady
  | relation (endpoint : Endpoint) (kind : RelationEvent) (id : Nat)
  | dexOidcConfigUpdated
  | other (name : String)
  deriving DecidableEq

end oidc_gatekeeper
