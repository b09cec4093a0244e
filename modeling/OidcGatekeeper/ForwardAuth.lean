-- The provider side of the forward-auth library: what it writes to the databag
-- of this application, on which events, and what it raises.
import OidcGatekeeper.DexOidcConfig
import OidcGatekeeper.Dicts
import OidcGatekeeper.JsonValues

open json json_strings

namespace oidc_gatekeeper.forward_auth

structure ForwardAuthConfig where
  decisionsAddress : String
  appNames : List String
  headers : List String
  deriving DecidableEq

/-- `_dump_data(config.to_dict(), ..)`: a list becomes JSON text, a string stays. A
config of this type fits the schema, so the validation never fails. -/
def dumpData (config : ForwardAuthConfig) : Databag :=
  List.toFinmap [⟨"decisions_address", config.decisionsAddress⟩,
    ⟨"app_names", json_strings.dumps config.appNames⟩,
    ⟨"headers", json_strings.dumps config.headers⟩]

/-- The custom events of the provider. Nothing observes them. -/
inductive ProviderEvent
  | forwardAuthProxySet
  | invalidForwardAuthConfig (error : Str)
  | forwardAuthRelationRemoved (relationId : Nat)
  deriving DecidableEq

/-- `databag.update(data)` on the relation with this id, if there is one. -/
def updateRelationData (config : ForwardAuthConfig) (relationId : Nat)
    (rels : List (Relation Databag)) : List (Relation Databag) :=
  Relation.written (fun r => if r.id = relationId then dumpData config ∪ r.ours else r.ours) rels

def onRelationCreatedEvent (isLeader : Bool) (config : ForwardAuthConfig) (relationId : Nat) :
    Handler Unit := do
  if !isLeader then return
  modify (·.onModel fun m =>
    { m with forwardAuth := updateRelationData config relationId m.forwardAuth })

/-- `s in text`: a part of the text. No surrogate is in a text. -/
def isPartOf : Str → String → Bool
  | .text s, text => s.toList <:+: text.toList
  | .points _ _, _ => false

/-- `for item in value`. -/
def iterate (value : Value) : Except Exc (List Value) :=
  match value.items with
  | some items => .ok items
  | none => .error .typeError

/-- The loop of `_compare_apps`: it stops at the first app that is not related. Each app
name is looked up as a part of the text of `ingress_app_names`, as the code does. -/
def compareLoop (ingressApps : String) : List Value → Except Exc (List ProviderEvent)
  | [] => return []
  | .str app :: apps =>
    if isPartOf app ingressApps then
      return .forwardAuthProxySet :: (← compareLoop ingressApps apps)
    else return [.invalidForwardAuthConfig (app.append " is not related via ingress")]
  | _ :: _ => throw .typeError

/-- `json.loads`, with the exceptions that it raises. -/
def loads (text : String) : Except Exc Value :=
  match json.loads text with
  | .ok v => .ok v
  | .error .jsonDecodeError => .error .jsonDecodeError
  | .error .valueError => .error .valueError

/-- `self.model.get_relation(..)`, with no relation id, in the `try` around it. The exception
that is to stand for the one of ops lacks two of its arguments. -/
def relationOf (rels : List (Relation Databag)) : Except Exc (Option (Relation Databag)) :=
  match getRelation "forward-auth" rels with
  | .ok relation => .ok relation
  | .error _ => .error .typeError

/-- `_compare_apps`, with the events that it emits. -/
def compareApps (rels : List (Relation Databag)) : Except Exc (List ProviderEvent) := do
  match ← relationOf rels with
  | none => return []
  | some relation =>
    if relation.remote = ∅ then return []
    match relation.remote.lookup "ingress_app_names" with
    | none => throw (.keyError "ingress_app_names")
    | some ingressApps =>
      match relation.ours.lookup "app_names" with
      | none => throw (.keyError "app_names")
      | some text => compareLoop ingressApps (← iterate (← loads text))

def onRelationChangedEvent (isLeader : Bool) : Handler Unit := do
  if !isLeader then return
  match compareApps (← get).model.forwardAuth with
  | .ok _ => return
  | .error e => throw e

/-- `_on_relation_broken_event`: the leader wipes the databag. -/
def onRelationBrokenEvent (isLeader : Bool) (relationId : Nat) : Handler Unit := do
  if !isLeader then return
  modify (·.onModel fun m =>
    { m with forwardAuth :=
        Relation.written (fun r => if r.id = relationId then ∅ else r.ours) m.forwardAuth })

/-- The databag holds the three keys of the config. -/
def Holds (config : ForwardAuthConfig) (bag : Databag) : Prop :=
  bag.lookup "decisions_address" = some config.decisionsAddress ∧
    bag.lookup "app_names" = some (json_strings.dumps config.appNames) ∧
    bag.lookup "headers" = some (json_strings.dumps config.headers)

instance (config : ForwardAuthConfig) (bag : Databag) : Decidable (Holds config bag) :=
  inferInstanceAs (Decidable (_ ∧ _ ∧ _))

theorem holds_only_dumpData (config : ForwardAuthConfig) : Holds config (dumpData config) := by
  refine ⟨?_, ?_, ?_⟩ <;> simp [dumpData, Finmap.dlookup_list_toFinmap]

theorem holds_dumpData (config : ForwardAuthConfig) (bag : Databag) :
    Holds config (dumpData config ∪ bag) := by
  obtain ⟨haddress, hnames, hheaders⟩ := holds_only_dumpData config
  exact ⟨dicts.lookup_union_of_lookup haddress bag, dicts.lookup_union_of_lookup hnames bag,
    dicts.lookup_union_of_lookup hheaders bag⟩

/-- With the names of the apps on both sides there is only the loop. -/
theorem compareApps_of_lookup {r : Relation Databag} {ingressApps : String} {apps : List String}
    (hremote : r.remote.lookup "ingress_app_names" = some ingressApps)
    (hours : r.ours.lookup "app_names" = some (json_strings.dumps apps)) :
    compareApps [r] = compareLoop ingressApps (apps.map fun s => .str (.text s)) := by
  have hne : r.remote ≠ ∅ := by
    intro he
    rw [he] at hremote
    cases hremote
  have hloads : loads (json_strings.dumps apps) = .ok (strings apps) := by
    rw [loads, loads_strings]
  simp only [compareApps, relationOf, getRelation, hne, hremote, hours, hloads, bind, Except.bind,
    if_false]
  rfl

theorem compareLoop_ok (ingressApps : String) (apps : List String) :
    ∃ evs, compareLoop ingressApps (apps.map fun s => .str (.text s)) = .ok evs := by
  induction apps with
  | nil => exact ⟨[], rfl⟩
  | cons app apps ih =>
    obtain ⟨evs, hevs⟩ := ih
    rw [List.map_cons, compareLoop, hevs]
    split
    · exact ⟨_, rfl⟩
    · exact ⟨_, rfl⟩

end oidc_gatekeeper.forward_auth
