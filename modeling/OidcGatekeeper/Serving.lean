-- The law of the configuration that the units serve with. Only a leader applies
-- a layer: what it applies is the latest configuration, and a unit that no
-- longer leads keeps what it applied last.
import OidcGatekeeper.Reconcile

open handlers runs

namespace oidc_gatekeeper.serving

/-! ## What a unit serves with -/

/-- The variables of the environment that come from the config and from Dex. -/
def Latest (config : Config) (issuerUrl : String) (env : Environment) : Prop :=
  env.lookup "CLIENT_ID" = some (.str config.clientId) ∧
    env.lookup "OIDC_PROVIDER" = some (.str issuerUrl) ∧
    env.lookup "OIDC_SCOPES" = some (.str config.oidcScopes) ∧
    env.lookup "USERID_CLAIM" = some (.str config.useridClaim) ∧
    env.lookup "SKIP_AUTH_URLS" = some (.str (dexSkipUrls config.skipAuthUrls))

/-- The plan has the service, with the variables of this config and issuer. -/
def Serves (config : Config) (issuerUrl : String) (k : Container) : Prop :=
  ∃ svc, k.plan.lookup pebbleServiceName = some svc ∧ Latest config issuerUrl svc.environment

/-- The client id in every `oidc-client` payload is the one of the config. -/
def PublishesId (m : Model) : Prop :=
  ∀ r ∈ m.oidcClient, r.ours.data.map (·.id) = some m.config.clientId

variable {c : Charm} {s s' : HookState} {ev : Event} {tape : Tape} {m : Model} {u : UnitState}
  {d : dex_oidc_config.DexOidcConfigObject}

theorem latest_environmentOf (config : Config) (secret issuerUrl : String) (bundle : Bool) :
    Latest config issuerUrl (environmentOf config secret issuerUrl bundle) := by
  obtain ⟨hid, -, hissuer, hscopes, hclaim, hskip, -⟩ :=
    environmentOf_lookup config secret issuerUrl bundle
  exact ⟨hid, hissuer, hscopes, hclaim, hskip⟩

theorem serves_layerAt (plan : Dict Service) {k : Container}
    (hk : k.plan = (layerAt c s d).services ∪ plan) : Serves s.model.config d.issuerUrl k :=
  ⟨_, hk ▸ layerAt_entry c s d plan, latest_environmentOf _ _ _ _⟩

theorem publishesId_sentState : PublishesId (sentState c s).model := by
  intro r hr
  have hconfig : (sentState c s).model.config = s.model.config :=
    congrArg Inputs.config (inputs_sentState c s)
  rw [sentState_oidcClient hr, hconfig]
  rfl

/-! ## One move -/

/-- What is the latest configuration stays so, as long as the inputs stay. -/
theorem move_serves (h : Move c s s') (hd : dex_oidc_config.getData s.model.dexOidcConfig = .ok d)
    (hs : Serves s.model.config d.issuerUrl s.unit.container) :
    Serves s.model.config d.issuerUrl s'.unit.container := by
  cases h with
  | ambientMesh => exact hs
  | forwardAuth => exact hs
  | main ev h =>
    rcases main_leaves h with ⟨hk, -⟩ | ⟨d', hc, -, hk | hk⟩
    · rwa [hk]
    · obtain ⟨svc, hl, he⟩ := hs
      exact ⟨svc, hk ▸ hl, he⟩
    · have hdd : d' = d := Except.ok.inj (hc.dex.symm.trans hd)
      subst hdd
      exact serves_layerAt _ hk

theorem move_publishesId (h : Move c s s') (hs : PublishesId s.model) : PublishesId s'.model := by
  cases h with
  | ambientMesh => exact hs
  | forwardAuth => exact hs
  | main ev h =>
    rcases main_leaves h with ⟨-, hm | hm⟩ | ⟨d', -, hm, -⟩ <;> rw [hm]
    · exact hs
    · intro r hr
      obtain ⟨r', hr', he⟩ := (Relation.mem_written _ _ _).mp hr
      rw [← he]
      exact hs r' hr'
    · exact publishesId_sentState

/-- A unit that does not lead leaves its container alone. -/
theorem move_container (h : Move c s s') (hl : c.isLeader = false) :
    s'.unit.container = s.unit.container := by
  cases h with
  | ambientMesh => rfl
  | forwardAuth => rfl
  | main ev h =>
    rcases main_leaves h with ⟨hk, -⟩ | ⟨d', hc, -, -⟩
    · exact hk
    · rw [hc.leader] at hl
      cases hl

/-! ## One hook -/

/-- A hook of `main` on the leader, where the checks pass and the container answers. -/
theorem hook_serves (ho : observedByMain ev = true) (hc : ChecksPass c m d)
    (hs : tape.Steady true) : Serves m.config d.issuerUrl (hook c ev tape m u).2.container ∧
      PublishesId (hook c ev tape m u).1 := by
  obtain ⟨s', hd⟩ := dispatch_ends (s := ⟨m, u, tape⟩) ho hc
  obtain ⟨s₁, hstart, hrun⟩ := dispatch_observed ho hd
  have hi : s₁.model.inputs = m.inputs := lastStart_inputs hstart
  have hconfig : s₁.model.config = m.config := congrArg Inputs.config hi
  obtain ⟨s₂, status, rfl, hu⟩ := main_layer (hc.of_inputs hi) hrun
  have htape := ((lastStart_tape hstart).trans (sentState_tape c s₁)).trans
    (afterBundle_tape (sentState c s₁))
  have hplan := updateLayer_plan (htape.steady hs).head hu
  have hmodel := (updateLayer_leaves hu).1
  rw [afterBundle_model] at hmodel
  rw [show hook c ev tape m u = _ from hook_of_ends hd]
  refine ⟨hconfig ▸ serves_layerAt _ hplan, ?_⟩
  change PublishesId s₂.model
  rw [hmodel]
  exact publishesId_sentState

/-! ## One step -/

variable {ι : Type} [DecidableEq ι] {dep : Deployment} {a : Application ι}

/-- The step changes none of the inputs of `main`, and does not restart the unit `u`. -/
def Unchanging (u : ι) (a : Application ι) : Step ι → Prop
  | .change ch => (a.model.changed ch).inputs = a.model.inputs
  | .restart w => w ≠ u
  | _ => True

/-- The unit `u` serves with the inputs `i`, which are the inputs now. -/
structure Current (i : Inputs) (issuerUrl : String) (u : ι) (a : Application ι) : Prop where
  inputs : a.model.inputs = i
  serves : Serves i.config issuerUrl (a.units u).container
  ids : PublishesId a.model

/-- A change that leaves the inputs adds no `oidc-client` relation. -/
theorem changed_publishesId {ch : Change} (hi : (m.changed ch).inputs = m.inputs)
    (h : PublishesId m) : PublishesId (m.changed ch) := by
  have hconfig : (m.changed ch).config = m.config := congrArg Inputs.config hi
  have hlength := congrArg (fun i : Inputs => i.sdi.oidcClient.length) hi
  intro r hr
  rw [hconfig]
  rcases ch with _ | ⟨e, i, app⟩ | ⟨e, i⟩ | ⟨e, i, bag⟩
  · exact h r hr
  · cases e
    case oidcClient =>
      simp [Model.inputs, Model.sdiRemotes, Model.changed, Model.added, Relation.added,
        Relation.remotes] at hlength
    all_goals exact h r hr
  · cases e
    case oidcClient => exact h r (List.mem_filter.mp hr).1
    all_goals exact h r hr
  · cases e
    case oidcClient =>
      obtain ⟨r', hr', rfl⟩ := List.mem_map.mp hr
      have hid := h r' hr'
      split <;> exact hid
    all_goals exact h r hr

theorem step_inputs {u : ι} (st : Step ι) (hst : Unchanging u a st) :
    (step dep a st).model.inputs = a.model.inputs := by
  cases st with
  | elect l => rfl
  | change ch => exact hst
  | restart w => rfl
  | hook w ev tape => exact hook_inputs _ _ _ _ _

theorem step_publishesId {u : ι} (st : Step ι) (hst : Unchanging u a st)
    (h : PublishesId a.model) : PublishesId (step dep a st).model := by
  cases st with
  | elect l => exact h
  | change ch => exact changed_publishesId hst h
  | restart w => exact h
  | hook w ev tape =>
    exact hook_keeps (P := fun m _ => PublishesId m) (fun _ _ => move_publishesId) ev tape h

theorem step_serves {u : ι} (hd : dex_oidc_config.getData a.model.dexOidcConfig = .ok d)
    (st : Step ι) (hst : Unchanging u a st)
    (h : Serves a.model.config d.issuerUrl (a.units u).container) :
    Serves a.model.config d.issuerUrl ((step dep a st).units u).container := by
  rcases step_unit dep a st u with hu | ⟨rfl, -⟩ | ⟨ev, tape, rfl, hu⟩
  · rw [hu]
    exact h
  · exact absurd rfl hst
  · -- The moves of the hook serve with the inputs as they are, which no move changes.
    have hkept := hook_keeps (c := a.charmOf dep u) (m := a.model) (P := fun m u =>
      m.inputs = a.model.inputs ∧ Serves a.model.config d.issuerUrl u.container)
      (fun s s' hmove hs => ?_) ev tape ⟨rfl, h⟩
    · rw [hu]
      exact hkept.2
    · obtain ⟨hi, hs⟩ := hs
      have hconfig : s.model.config = a.model.config := congrArg Inputs.config hi
      have hdex : s.model.dexOidcConfig = a.model.dexOidcConfig :=
        congrArg Inputs.dexOidcConfig hi
      rw [← hconfig] at hs ⊢
      exact ⟨(move_inputs hmove).trans hi, move_serves hmove (hdex ▸ hd) hs⟩

theorem step_current {i : Inputs} {u : ι} (hd : dex_oidc_config.getData i.dexOidcConfig = .ok d)
    (st : Step ι) (h : Current i d.issuerUrl u a) (hst : Unchanging u a st) :
    Current i d.issuerUrl u (step dep a st) := by
  obtain ⟨rfl, hserves, hids⟩ := h
  exact ⟨step_inputs st hst, step_serves hd st hst hserves, step_publishesId st hst hids⟩

/-- The step is no hook of `u` while it leads, and does not restart it. -/
def NotLeading (u : ι) (a : Application ι) : Step ι → Prop
  | .hook w _ _ => w = u → a.leader ≠ some u
  | .restart w => w ≠ u
  | _ => True

theorem step_container {u : ι} (st : Step ι) (hst : NotLeading u a st) :
    ((step dep a st).units u).container = (a.units u).container := by
  rcases step_unit dep a st u with hu | ⟨rfl, -⟩ | ⟨ev, tape, rfl, hu⟩
  · rw [hu]
  · exact absurd rfl hst
  · have hl : (a.charmOf dep u).isLeader = false := decide_eq_false (hst rfl)
    rw [hu]
    exact hook_keeps (m := a.model) (P := fun _ w => w.container = (a.units u).container)
      (fun s s' hmove hk => (move_container hmove hl).trans hk) ev tape rfl

/-! ## The law of a run -/

/-- The law of the configuration, from the state `a` on. -/
structure ServingLaw (dep : Deployment) (a : Application ι) : Prop where
  /-- A unit that handles an event of `main` while it leads, with checks that pass and a
  container that answers, serves with the latest inputs for as long as these stay the
  latest, whoever leads then; and the client id of these inputs is the published one. -/
  latest : ∀ u ev tape d after, a.leader = some u → observedByMain ev = true →
    tape.Steady true → ChecksPass (dep.charm true) a.model d →
    Meets (Unchanging u) (step dep) (step dep a (.hook u ev tape)) after →
    Serves (run (step dep) a (.hook u ev tape :: after)).model.config d.issuerUrl
        ((run (step dep) a (.hook u ev tape :: after)).units u).container ∧
      PublishesId (run (step dep) a (.hook u ev tape :: after)).model
  /-- A unit that handles no event while it leads keeps its plan. -/
  kept : ∀ u steps, Meets (NotLeading u) (step dep) a steps →
    ((run (step dep) a steps).units u).container.plan = (a.units u).container.plan

/-- A leader serves with the latest configuration, and a former leader with the last one
that it applied while it led. -/
theorem leaders_serve_with_the_latest_configuration (dep : Deployment) (a : Application ι) :
    ServingLaw dep a := by
  refine ⟨fun u ev tape d after hl ho hs hc hafter => ?_, fun u steps hsteps => ?_⟩
  · have hlead : a.charmOf dep u = dep.charm true := by
      simp [Application.charmOf, hl]
    obtain ⟨hserves, hids⟩ := hook_serves (u := a.units u) ho hc hs
    have hcurrent : Current a.model.inputs d.issuerUrl u (step dep a (.hook u ev tape)) := by
      refine ⟨hook_inputs _ _ _ _ _, ?_, ?_⟩
      · rw [step_hook_unit, hlead]
        exact hserves
      · change PublishesId (hook (a.charmOf dep u) ev tape a.model (a.units u)).1
        rw [hlead]
        exact hids
    have hlast := run_keeps_of_meets (I := Current a.model.inputs d.issuerUrl u)
      (fun b st hb hst => step_current hc.dex st hb hst) hcurrent hafter
    have hconfig : (run (step dep) (step dep a (.hook u ev tape)) after).model.config =
        a.model.config := congrArg Inputs.config hlast.inputs
    rw [run_cons, hconfig]
    exact ⟨hlast.serves, hlast.ids⟩
  · have hkept := run_keeps_of_meets
      (I := fun b : Application ι => (b.units u).container = (a.units u).container)
      (fun b st hb hst => (step_container st hst).trans hb) rfl hsteps
    rw [hkept]

/-- The new options of the sample deployment. -/
def sampleConfig : Config := { Config.default with clientId := "new-client" }

/-- The unit `true` leads and is set up, the unit `false` takes over, and the client id
changes. Both units handle every event, and `true` keeps serving with the old client id. -/
theorem a_former_leader_serves_with_an_old_client_id :
    let steps : List (Step Bool) := [.hook true .start sample.tapeA, .elect (some false),
      .hook false .leaderElected sample.tapeA, .change (.config sampleConfig),
      .hook true .configChanged sample.tapeA, .hook false .configChanged sample.tapeA]
    let b := run (step sample.deployment) sample.application steps
    b.leader = some false ∧ (b.units false).status = some activeStatus ∧
      b.model.config.clientId = "new-client" ∧ PublishesId b.model ∧
      ((b.units true).container.plan.lookup pebbleServiceName).bind
        (·.environment.lookup "CLIENT_ID") = some (.str "authservice-oidc") ∧
      ¬ Serves b.model.config "http://dex.io/dex" (b.units true).container := by
  intro steps b
  have hold : ((b.units true).container.plan.lookup pebbleServiceName).bind
      (·.environment.lookup "CLIENT_ID") = some (.str "authservice-oidc") := by decide +kernel
  have hids : ∀ r ∈ b.model.oidcClient, r.ours.data.map (·.id) = some b.model.config.clientId := by
    decide +kernel
  refine ⟨rfl, by decide +kernel, by decide +kernel, hids, hold, ?_⟩
  rintro ⟨svc, hl, hid, -⟩
  rw [hl, Option.bind_some, hid] at hold
  exact absurd hold (by decide +kernel)

end oidc_gatekeeper.serving
