-- The application: any number of units over one set of Juju data. A step is a
-- change that comes from outside, a change of leader, a restart of a container,
-- or one hook of one unit. Hooks do not overlap.
import OidcGatekeeper.MainRun
import OidcGatekeeper.Runs
import Mathlib.Logic.Function.Basic
import Mathlib.Logic.Relation

open handlers

namespace oidc_gatekeeper

/-! ## What comes from outside -/

/-- What the operator, Juju and the related applications change. -/
inductive Change
  | config (config : Config)
  | relationAdded (e : Endpoint) (id : Nat) (app : String)
  | relationRemoved (e : Endpoint) (id : Nat)
  | remoteWritten (e : Endpoint) (id : Nat) (bag : Databag)

namespace Model

variable (id : Nat) (app : String) (bag : Databag) (m : Model)

/-- The peer relation is there for the life of the application, so no change adds it. -/
def added : Endpoint → Model
  | .clientSecret => m
  | .dexOidcConfig => { m with dexOidcConfig := Relation.added () id app m.dexOidcConfig }
  | .forwardAuth => { m with forwardAuth := Relation.added ∅ id app m.forwardAuth }
  | .ingress => { m with ingress := Relation.added .empty id app m.ingress }
  | .ingressAuth => { m with ingressAuth := Relation.added .empty id app m.ingressAuth }
  | .istioIngressRouteUnauthenticated =>
    { m with istioIngressRoute := Relation.added none id app m.istioIngressRoute }
  | .oidcClient => { m with oidcClient := Relation.added .empty id app m.oidcClient }

def removed : Endpoint → Model
  | .clientSecret => m
  | .dexOidcConfig => { m with dexOidcConfig := Relation.removed id m.dexOidcConfig }
  | .forwardAuth => { m with forwardAuth := Relation.removed id m.forwardAuth }
  | .ingress => { m with ingress := Relation.removed id m.ingress }
  | .ingressAuth => { m with ingressAuth := Relation.removed id m.ingressAuth }
  | .istioIngressRouteUnauthenticated =>
    { m with istioIngressRoute := Relation.removed id m.istioIngressRoute }
  | .oidcClient => { m with oidcClient := Relation.removed id m.oidcClient }

/-- The application side of the peer relation is ours, so no remote application writes it. -/
def remoteWritten : Endpoint → Model
  | .clientSecret => m
  | .dexOidcConfig => { m with dexOidcConfig := Relation.remoteWritten id bag m.dexOidcConfig }
  | .forwardAuth => { m with forwardAuth := Relation.remoteWritten id bag m.forwardAuth }
  | .ingress => { m with ingress := Relation.remoteWritten id bag m.ingress }
  | .ingressAuth => { m with ingressAuth := Relation.remoteWritten id bag m.ingressAuth }
  | .istioIngressRouteUnauthenticated =>
    { m with istioIngressRoute := Relation.remoteWritten id bag m.istioIngressRoute }
  | .oidcClient => { m with oidcClient := Relation.remoteWritten id bag m.oidcClient }

def changed : Change → Model
  | .config config => { m with config := config }
  | .relationAdded e id app => m.added id app e
  | .relationRemoved e id => m.removed id e
  | .remoteWritten e id bag => m.remoteWritten id bag e

@[simp] theorem changed_clientSecret (ch : Change) :
    (m.changed ch).clientSecret = m.clientSecret := by
  rcases ch with _ | ⟨e, _, _⟩ | ⟨e, _⟩ | ⟨e, _, _⟩ <;> try cases e
  all_goals rfl

/-- A change adds no payload: a new relation starts with an empty databag of ours. -/
theorem mem_changed_oidcClient {ch : Change} {r : Relation (SdiSide OidcClientData)}
    (h : r ∈ (m.changed ch).oidcClient) :
    r.ours.data = none ∨ ∃ r' ∈ m.oidcClient, r'.ours = r.ours := by
  rcases ch with _ | ⟨e, i, a⟩ | ⟨e, i⟩ | ⟨e, i, b⟩
  · exact Or.inr ⟨r, h, rfl⟩
  · cases e
    case oidcClient =>
      rcases List.mem_append.mp h with h | h
      · exact Or.inr ⟨r, h, rfl⟩
      · rw [List.mem_singleton.mp h]
        exact Or.inl rfl
    all_goals exact Or.inr ⟨r, h, rfl⟩
  · cases e
    case oidcClient => exact Or.inr ⟨r, (List.mem_filter.mp h).1, rfl⟩
    all_goals exact Or.inr ⟨r, h, rfl⟩
  · cases e
    case oidcClient =>
      obtain ⟨r', hr', he⟩ := List.mem_map.mp h
      refine Or.inr ⟨r', hr', ?_⟩
      rw [← he]
      split <;> rfl
    all_goals exact Or.inr ⟨r, h, rfl⟩

end Model

/-! ## The steps -/

structure Application (ι : Type) where
  model : Model
  units : ι → UnitState
  leader : Option ι

inductive Step (ι : Type)
  | elect (leader : Option ι)
  | change (ch : Change)
  | restart (u : ι)
  | hook (u : ι) (event : Event) (tape : Tape)

/-- A container that restarts comes back with an empty plan and without its files. -/
def Container.restarted (k : Container) : Container :=
  { plan := ∅, files := ∅, process := none, layersAdded := k.layersAdded }

def Deployment.charm (d : Deployment) (isLeader : Bool) : Charm :=
  { toDeployment := d, isLeader := isLeader }

variable {ι : Type} [DecidableEq ι]

/-- The charm object of unit `u`. -/
def Application.charmOf (d : Deployment) (a : Application ι) (u : ι) : Charm :=
  d.charm (decide (a.leader = some u))

def Application.withUnit (a : Application ι) (u : ι) (s : UnitState) : Application ι :=
  { a with units := Function.update a.units u s }

def UnitState.restarted (s : UnitState) : UnitState :=
  { s with container := s.container.restarted }

def step (d : Deployment) (a : Application ι) : Step ι → Application ι
  | .elect leader => { a with leader := leader }
  | .change ch => { a with model := a.model.changed ch }
  | .restart u => a.withUnit u (a.units u).restarted
  | .hook u event tape =>
    let left := hook (a.charmOf d u) event tape a.model (a.units u)
    { a.withUnit u left.2 with model := left.1 }

/-! ## What a hook does, as a row of moves -/

/-- One write that a hook can make: the route of the constructor, a write of the
forward-auth library, or a run of `main` that ends. -/
inductive Move (c : Charm) : HookState → HookState → Prop
  | ambientMesh (s : HookState) : Move c s (s.onModel (submitConfig (ambientMeshConfig c)))
  | forwardAuth (s : HookState) (f : Relation Databag → Databag) :
      Move c s (s.onModel fun m => { m with forwardAuth := Relation.written f m.forwardAuth })
  | main {s s' : HookState} (ev : Event) (h : (main c ev).run s = .ok () s') : Move c s s'

abbrev Moves (c : Charm) : HookState → HookState → Prop := Relation.ReflTransGen (Move c)

/-- The state after the constructor. -/
def constructed (c : Charm) (s : HookState) : HookState :=
  if c.isLeader = true then s.onModel (submitConfig (ambientMeshConfig c)) else s

theorem run_ambientMeshIngress (c : Charm) (s : HookState) :
    (ambientMeshIngress c).run s = .ok () (constructed c s) := by
  unfold ambientMeshIngress constructed
  cases c.isLeader <;> rfl

theorem moves_constructed (c : Charm) (s : HookState) : Moves c s (constructed c s) := by
  unfold constructed
  split
  · exact .single (.ambientMesh s)
  · exact .refl

@[simp] theorem constructed_unit (c : Charm) (s : HookState) : (constructed c s).unit = s.unit := by
  unfold constructed
  split <;> rfl

@[simp] theorem constructed_tape (c : Charm) (s : HookState) : (constructed c s).tape = s.tape := by
  unfold constructed
  split <;> rfl

/-- The handlers of the forward-auth library, for the relation `id`. -/
def forwardAuthHandlers (c : Charm) (id : Nat) : List (Handler Unit) :=
  [forward_auth.onRelationCreatedEvent c.isLeader (forwardAuthConfig c) id,
    forward_auth.onRelationChangedEvent c.isLeader,
    forward_auth.onRelationBrokenEvent c.isLeader id]

/-- A handler of the forward-auth library makes one write at most, to a databag, or raises
with none. -/
theorem run_forwardAuthHandlers {c : Charm} {id : Nat} {h : Handler Unit}
    (hmem : h ∈ forwardAuthHandlers c id) (s : HookState) :
    (∃ s', h.run s = .ok () s' ∧ Moves c s s' ∧ s'.unit = s.unit) ∨
      ∃ e, h.run s = .error e s := by
  simp only [forwardAuthHandlers, List.mem_cons, List.not_mem_nil, or_false] at hmem
  rcases hmem with rfl | rfl | rfl
  · refine Or.inl ?_
    unfold forward_auth.onRelationCreatedEvent
    cases c.isLeader
    · exact ⟨s, rfl, .refl, rfl⟩
    · exact ⟨_, rfl, .single (.forwardAuth s _), rfl⟩
  · unfold forward_auth.onRelationChangedEvent
    cases c.isLeader
    · exact Or.inl ⟨s, rfl, .refl, rfl⟩
    · cases hc : forward_auth.compareApps s.model.forwardAuth with
      | ok evs => exact Or.inl ⟨s, by simp [hc], .refl, rfl⟩
      | error e => exact Or.inr ⟨e, by simp [hc]⟩
  · refine Or.inl ?_
    unfold forward_auth.onRelationBrokenEvent
    cases c.isLeader
    · exact ⟨s, rfl, .refl, rfl⟩
    · exact ⟨_, rfl, .single (.forwardAuth s _), rfl⟩

/-- The observers of an event: none, one of the forward-auth library, or `main` once or
twice. -/
theorem observers_cases (c : Charm) (ev : Event) : observers c ev = [] ∨
    (∃ id, ∃ h ∈ forwardAuthHandlers c id, observers c ev = [h]) ∨
    (∃ ev', observers c ev = [main c ev']) ∨
    ∃ ev₁ ev₂, observers c ev = [main c ev₁, main c ev₂] := by
  rcases ev with _ | _ | _ | _ | _ | ⟨e, k, id⟩ | _ | _
  case relation =>
    cases e <;> cases k
    case dexOidcConfig.changed | dexOidcConfig.broken => exact .inr (.inr (.inr ⟨_, _, rfl⟩))
    case ingress.changed | ingressAuth.changed | oidcClient.changed | clientSecret.changed =>
      exact .inr (.inr (.inl ⟨_, rfl⟩))
    case forwardAuth.created | forwardAuth.changed | forwardAuth.broken =>
      exact .inr (.inl ⟨id, _, by simp [forwardAuthHandlers], rfl⟩)
    all_goals exact .inl rfl
  case other => exact .inl rfl
  all_goals exact .inr (.inr (.inl ⟨_, rfl⟩))

/-- Two runs of `main` in one hook: when the first one ends, so does the second one. -/
theorem main_twice {c : Charm} {ev : Event} (ev' : Event) {s s' : HookState}
    (h : (main c ev).run s = .ok () s') : ∃ s'', (main c ev').run s' = .ok () s'' := by
  cases h' : (main c ev').run s' with
  | ok u s'' => exact ⟨s'', rfl⟩
  | error e s'' =>
    obtain ⟨-, hl, he⟩ := main_raises h'
    obtain ⟨s₁, hraises⟩ := main_raises_of_escapes ev hl (he.of_kept h)
    rw [hraises] at h
    cases h

/-- What each observer keeps when it ends, a hook that ends keeps from the constructor on. -/
theorem dispatch_keeps {c : Charm} {ev : Event} {P : HookState → Prop}
    (hobs : ∀ h ∈ observers c ev, ∀ s s', P s → h.run s = .ok () s' → P s') {s s' : HookState}
    (h₀ : P (constructed c s)) (h : (dispatch c ev).run s = .ok () s') : P s' := by
  rw [dispatch, run_bind_ok (run_ambientMeshIngress c s)] at h
  generalize constructed c s = t at h₀ h
  generalize observers c ev = hs at hobs h
  induction hs generalizing t with
  | nil =>
    cases h
    exact h₀
  | cons x xs ih =>
    rw [runAll] at h
    cases hx : x.run t with
    | ok u t' =>
      rw [run_bind_ok hx] at h
      have ht' := hobs x List.mem_cons_self t t' h₀ hx
      exact ih t' ht' (fun y hy => hobs y (List.mem_cons_of_mem _ hy)) h
    | error e t' =>
      rw [run_bind_error hx] at h
      cases h

theorem dispatch_moves {c : Charm} {ev : Event} {s s' : HookState}
    (h : (dispatch c ev).run s = .ok () s') : Moves c s s' := by
  refine dispatch_keeps (P := Moves c s) (fun x hmem t t' ht hrun => ?_) (moves_constructed c s) h
  have hmain : ∀ {ev'}, x = main c ev' → Moves c s t' := by
    rintro ev' rfl
    exact ht.tail (.main ev' hrun)
  rcases observers_cases c ev with ho | ⟨id, h, hmem', ho⟩ | ⟨ev', ho⟩ | ⟨ev₁, ev₂, ho⟩ <;>
    rw [ho] at hmem
  · cases hmem
  · rw [← List.mem_singleton.mp hmem] at hmem'
    rcases run_forwardAuthHandlers hmem' t with ⟨t₁, hr, hm, -⟩ | ⟨e, hr⟩
    · rw [hrun] at hr
      cases hr
      exact ht.trans hm
    · rw [hrun] at hr
      cases hr
  · exact hmain (List.mem_singleton.mp hmem)
  · rcases List.mem_cons.mp hmem with hx | hx
    · exact hmain hx
    · exact hmain (List.mem_singleton.mp hx)

/-- A hook that raises in one of the modelled observers has not touched the unit: of two runs
of `main`, only the first one can raise. The observer of the log forwarder is none of them. -/
theorem dispatch_raises {c : Charm} {ev : Event} {s s' : HookState} {e : Exc}
    (h : (dispatch c ev).run s = .error e s') : s'.unit = s.unit := by
  rw [dispatch, run_bind_ok (run_ambientMeshIngress c s)] at h
  have hu := constructed_unit c s
  generalize constructed c s = s₀ at hu h
  rcases observers_cases c ev with ho | ⟨id, x, hmem, ho⟩ | ⟨ev', ho⟩ | ⟨ev₁, ev₂, ho⟩ <;>
    rw [ho, runAll] at h
  · cases h
  · rcases run_forwardAuthHandlers hmem s₀ with ⟨s₁, hr, -⟩ | ⟨e', hr⟩
    · rw [run_bind_ok hr] at h
      cases h
    · rw [run_bind_error hr] at h
      cases h
      exact hu
  · cases hr : (main c ev').run s₀ with
    | ok a s₁ =>
      rw [run_bind_ok hr] at h
      cases h
    | error e' s₁ =>
      rw [run_bind_error hr] at h
      cases h
      rw [(main_raises hr).1, hu]
  · cases hr : (main c ev₁).run s₀ with
    | ok a s₁ =>
      obtain ⟨s₂, hr₂⟩ := main_twice ev₂ hr
      rw [run_bind_ok hr, runAll, run_bind_ok hr₂] at h
      cases h
    | error e' s₁ =>
      rw [run_bind_error hr] at h
      cases h
      rw [(main_raises hr).1, hu]

theorem hook_of_ends {c : Charm} {ev : Event} {s s' : HookState}
    (h : (dispatch c ev).run s = .ok () s') :
    hook c ev s.tape s.model s.unit = (s'.model, s'.unit) := by
  unfold hook
  rw [h]

theorem hook_of_raises {c : Charm} {ev : Event} {s s' : HookState} {e : Exc}
    (h : (dispatch c ev).run s = .error e s') :
    hook c ev s.tape s.model s.unit = (s.model, s.unit) := by
  unfold hook
  rw [h]
  exact congrArg _ (dispatch_raises h)

/-- A hook leaves what some moves leave. A hook that raises leaves what was there. -/
theorem hook_moves (c : Charm) (ev : Event) (tape : Tape) (m : Model) (u : UnitState) :
    ∃ s', Moves c ⟨m, u, tape⟩ s' ∧ hook c ev tape m u = (s'.model, s'.unit) := by
  cases h : (dispatch c ev).run ⟨m, u, tape⟩ with
  | ok a s' => exact ⟨s', dispatch_moves h, hook_of_ends h⟩
  | error e s' => exact ⟨_, .refl, hook_of_raises h⟩

/-- What each move keeps, a hook keeps. -/
theorem hook_keeps {c : Charm} {P : Model → UnitState → Prop}
    (hmove : ∀ s s', Move c s s' → P s.model s.unit → P s'.model s'.unit)
    (ev : Event) (tape : Tape) {m : Model} {u : UnitState} (h : P m u) :
    P (hook c ev tape m u).1 (hook c ev tape m u).2 := by
  obtain ⟨s', hm, he⟩ := hook_moves c ev tape m u
  rw [he]
  clear he
  induction hm with
  | refl => exact h
  | tail _ hstep ih => exact hmove _ _ hstep ih

/-- A step leaves a unit as it is, unless it restarts that unit or runs a hook on it. -/
theorem step_unit {ι : Type} [DecidableEq ι] (d : Deployment) (a : Application ι) (st : Step ι)
    (u : ι) : (step d a st).units u = a.units u ∨
      (st = .restart u ∧ (step d a st).units u = (a.units u).restarted) ∨
      ∃ ev tape, st = .hook u ev tape ∧
        (step d a st).units u = (hook (a.charmOf d u) ev tape a.model (a.units u)).2 := by
  cases st with
  | elect l => exact .inl rfl
  | change ch => exact .inl rfl
  | restart w =>
    by_cases hw : u = w
    · subst hw
      exact .inr (.inl ⟨rfl, Function.update_self ..⟩)
    · exact .inl (Function.update_of_ne hw ..)
  | hook w ev tape =>
    by_cases hw : u = w
    · subst hw
      exact .inr (.inr ⟨ev, tape, rfl, Function.update_self ..⟩)
    · exact .inl (Function.update_of_ne hw ..)

theorem step_hook_unit {ι : Type} [DecidableEq ι] (d : Deployment) (a : Application ι) (u : ι)
    (ev : Event) (tape : Tape) : (step d a (.hook u ev tape)).units u =
      (hook (a.charmOf d u) ev tape a.model (a.units u)).2 :=
  Function.update_self ..

/-! ## A small deployment, for the examples -/

namespace sample

/-- SDI wants a list of versions from every related application. -/
def versionError (r : SdiRemotes) : Option VersionError :=
  if (r.ingress ++ r.ingressAuth ++ r.oidcClient).all
      fun (_, _, bag) => decide ("_supported_versions" ∈ bag) then none
  else some (.noVersionsListed "List of versions not found")

def packages : Packages where
  versionError := versionError
  supportedVersions := fun _ _ _ => some "- v1\n"
  notReadyMessage := "Waiting for pod startup to complete"
  replanMessage := "Failed to replan"

def deployment : Deployment := ⟨"oidc-gatekeeper", "kubeflow", packages⟩

def versions : Databag := List.toFinmap [⟨"_supported_versions", "- v1\n"⟩]

def dexData : Databag := List.toFinmap [⟨"issuer-url", "http://dex.io/dex"⟩]

/-- The data after the deployment, with Dex and one `oidc-client` related. -/
def model : Model where
  config := .default
  dexOidcConfig := [⟨1, "dex-auth", dexData, ()⟩]
  ingress := []
  ingressAuth := []
  oidcClient := [⟨2, "dex-auth", versions, .empty⟩]
  clientSecret := [⟨0, "oidc-gatekeeper", ∅, ∅⟩]
  forwardAuth := []
  istioIngressRoute := []

def freshUnit : UnitState := ⟨⟨∅, ∅, none, 0⟩, none⟩

/-- Two units, `true` and `false`. The unit `true` leads. -/
def application : Application Bool := ⟨model, fun _ => freshUnit, some true⟩

def choicesOf (c : Char) (h : c ∈ passAlphabet) : Choices where
  chars := List.replicate 30 c
  length_eq := List.length_replicate
  mem_alphabet := fun _ hx => List.eq_of_mem_replicate hx ▸ h

/-- A hook in which the container answers, replans succeed and `_gen_pass` draws `c`. -/
def tape (c : Char) (h : c ∈ passAlphabet) : Tape :=
  ⟨.const true, .const true, .const (choicesOf c h)⟩

def tapeA : Tape := tape 'A' (by decide)

def tapeB : Tape := tape 'B' (by decide)

end sample

end oidc_gatekeeper
