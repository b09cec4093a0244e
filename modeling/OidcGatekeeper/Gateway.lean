-- What a gateway can read of the gatekeeper, over whole runs of the
-- application: on the forward-auth relation and on the route relation.
import OidcGatekeeper.ForwardAuthRequirer
import OidcGatekeeper.IstioIngressRoute
import OidcGatekeeper.Reconcile
import OidcGatekeeper.Registration

open handlers runs

namespace oidc_gatekeeper.gateway

open forward_auth registration

/-! ## The forward-auth databags -/

variable {c : Charm} {ev : Event}

/-- The hook of `relation-broken` wipes the databag, on the leader only. -/
theorem hook_broken (id : Nat) (tape : Tape) (m : Model) (u : UnitState) :
    bags (hook c (.relation .forwardAuth .broken id) tape m u).1 =
      if c.isLeader = true then (bags m).map fun x => if x.1 = id then (x.1, ∅) else x
      else bags m := by
  have hb := constructed_bags c ⟨m, u, tape⟩
  generalize ht : constructed c ⟨m, u, tape⟩ = t at hb
  have hinit := (run_ambientMeshIngress c ⟨m, u, tape⟩).trans (congrArg _ ht)
  have hobs : observers c (.relation .forwardAuth .broken id) =
      [onRelationBrokenEvent c.isLeader id] := rfl
  cases hl : c.isLeader with
  | false =>
    have hrun : (dispatch c (.relation .forwardAuth .broken id)).run ⟨m, u, tape⟩ = .ok () t := by
      rw [dispatch, run_bind_ok hinit, hobs, hl]
      rfl
    rw [hook_of_ends hrun, hb, if_neg Bool.false_ne_true]
  | true =>
    have hrun : (dispatch c (.relation .forwardAuth .broken id)).run ⟨m, u, tape⟩ = .ok ()
        (t.onModel fun m => { m with forwardAuth := popRelationData id m.forwardAuth }) := by
      rw [dispatch, run_bind_ok hinit, hobs, hl]
      rfl
    rw [hook_of_ends hrun, if_pos rfl, ← hb]
    change ((t.model.forwardAuth.map _).map _ : List _) = (t.model.forwardAuth.map _).map _
    rw [List.map_map, List.map_map]
    apply List.map_congr_left
    intro r _
    by_cases hr : r.id = id <;> simp [hr]

/-- A databag that holds nothing, or the config and nothing else. -/
def Clean (config : ForwardAuthConfig) (bag : Databag) : Prop := bag = ∅ ∨ bag = dumpData config

theorem clean_union {config : ForwardAuthConfig} {bag : Databag} (h : Clean config bag) :
    Clean config (dumpData config ∪ bag) := by
  rcases h with rfl | rfl
  · exact .inr (dumpData_union config none)
  · exact .inr (dumpData_union config (some config))

/-- A hook keeps the databags clean, on any unit. -/
theorem hook_clean {config : ForwardAuthConfig} (hc : forwardAuthConfig c = config) (tape : Tape)
    {m : Model} (u : UnitState) (h : ∀ x ∈ bags m, Clean config x.2) :
    ∀ x ∈ bags (hook c ev tape m u).1, Clean config x.2 := by
  cases hw : Writes ev with
  | false =>
    rw [hook_bags hw]
    exact h
  | true =>
    have hev : (∃ id, ev = .relation .forwardAuth .created id) ∨
        ∃ id, ev = .relation .forwardAuth .broken id := by
      rcases ev with _ | _ | _ | _ | _ | ⟨e, k, id⟩ | _ | _
      case relation =>
        cases e <;> cases k
        case forwardAuth.created => exact .inl ⟨id, rfl⟩
        case forwardAuth.broken => exact .inr ⟨id, rfl⟩
        all_goals cases hw
      all_goals cases hw
    intro x hx
    rcases hev with ⟨id, rfl⟩ | ⟨id, rfl⟩
    · rw [hook_created] at hx
      split at hx
      · obtain ⟨y, hy, rfl⟩ := List.mem_map.mp hx
        split
        · exact hc ▸ clean_union (hc ▸ h y hy)
        · exact h y hy
      · exact h x hx
    · rw [hook_broken] at hx
      split at hx
      · obtain ⟨y, hy, rfl⟩ := List.mem_map.mp hx
        split
        · exact .inl rfl
        · exact h y hy
      · exact h x hx

/-- A change from outside brings no data of ours. -/
theorem changed_clean {config : ForwardAuthConfig} {m : Model} (ch : Change)
    (h : ∀ x ∈ bags m, Clean config x.2) : ∀ x ∈ bags (m.changed ch), Clean config x.2 := by
  intro x hx
  obtain ⟨r, hr, rfl⟩ := List.mem_map.mp hx
  have hold : ∀ r' ∈ m.forwardAuth, Clean config r'.ours := fun r' hr' =>
    h (r'.id, r'.ours) (List.mem_map_of_mem hr')
  rcases ch with _ | ⟨e, i, app⟩ | ⟨e, i⟩ | ⟨e, i, bag⟩
  · exact hold r hr
  · cases e
    case forwardAuth =>
      rcases List.mem_append.mp hr with hr | hr
      · exact hold r hr
      · rw [List.mem_singleton.mp hr]
        exact .inl rfl
    all_goals exact hold r hr
  · cases e
    case forwardAuth => exact hold r (List.mem_filter.mp hr).1
    all_goals exact hold r hr
  · cases e
    case forwardAuth =>
      obtain ⟨r', hr', he⟩ := List.mem_map.mp hr
      have hours : r.ours = r'.ours := by
        rw [← he]
        split <;> rfl
      exact hours ▸ hold r' hr'
    all_goals exact hold r hr

variable {ι : Type} [DecidableEq ι]

theorem step_clean (d : Deployment) {a : Application ι} (st : Step ι)
    (h : ∀ x ∈ bags a.model, Clean (configOf d) x.2) :
    ∀ x ∈ bags (step d a st).model, Clean (configOf d) x.2 := by
  cases st with
  | elect leader => exact h
  | change ch => exact changed_clean ch h
  | restart u => exact h
  | hook u ev tape => exact hook_clean rfl tape (a.units u) h

/-! ## What a gateway reads there -/

theorem readable_serviceUrl (c : Charm) : Readable (serviceUrl c) := by
  have hurl : serviceUrl c = "http://" ++ (c.appName ++ "." ++ c.modelName ++
      ".svc.cluster.local:" ++ toString httpPort) := by
    unfold serviceUrl
    simp only [String.append_assoc]
  rw [hurl]
  refine ⟨?_, json.loads_http _⟩
  intro h
  have hl := congrArg String.length h
  simp at hl

/-- With no app names of our own there is nothing to compare. -/
theorem compareApps_clean {d : Deployment} {rels : List (Relation Databag)}
    (h : ∀ r ∈ rels, Clean (configOf d) r.ours) {evs : List ProviderEvent}
    (he : compareApps rels = .ok evs) : evs = [] := by
  rcases rels with _ | ⟨r, _ | ⟨r', rels⟩⟩
  · cases he
    rfl
  · cases hremote : r.remote.lookup "ingress_app_names" with
    | none =>
      simp only [compareApps, relationOf, getRelation, hremote, bind, Except.bind] at he
      split at he
      · cases he
        rfl
      · cases he
    | some names =>
      rcases h r List.mem_cons_self with hours | hours
      · have hne : r.remote ≠ ∅ := by
          intro hempty
          rw [hempty] at hremote
          cases hremote
        simp only [compareApps, relationOf, getRelation, hne, hremote, hours, if_false,
          Finmap.lookup_empty, bind, Except.bind] at he
        cases he
      · have hnone : r.ours.lookup "app_names" = some (json_strings.dumps []) :=
          hours ▸ (holds_only_dumpData (configOf d)).2.1
        rw [compareApps_of_lookup hremote hnone] at he
        cases he
        rfl
  · cases he

/-- In every reachable state of the application, a gateway reads on its forward-auth
relation nothing, or the one config of the application. It is told the address of the
service and the user header, it never protects an app by its name, and the gatekeeper
never finds fault with the names that are announced on its relations. -/
theorem a_gateway_reads_the_config_or_nothing (d : Deployment) {a : Application ι}
    (h : ∀ r ∈ a.model.forwardAuth, r.ours = ∅) (steps : List (Step ι)) :
    (∀ r ∈ (run (step d) a steps).model.forwardAuth,
      (Requirer.getProviderInfo [otherSide d.appName r] = .ok none ∨
        Requirer.getProviderInfo [otherSide d.appName r] = .ok (some (configOf d).asRead)) ∧
      ∀ app, Requirer.isProtectedApp app [otherSide d.appName r] = .ok false) ∧
    ∀ evs, compareApps (run (step d) a steps).model.forwardAuth = .ok evs → evs = [] := by
  have hstart : ∀ x ∈ bags a.model, Clean (configOf d) x.2 := by
    intro x hx
    obtain ⟨r, hr, rfl⟩ := List.mem_map.mp hx
    exact .inl (h r hr)
  have hrun := run_keeps (I := fun b : Application ι => ∀ x ∈ bags b.model, Clean (configOf d) x.2)
    (fun b st hb => step_clean d st hb) hstart steps
  have hclean : ∀ r ∈ (run (step d) a steps).model.forwardAuth, Clean (configOf d) r.ours :=
    fun r hr => hrun (r.id, r.ours) (List.mem_map_of_mem hr)
  refine ⟨fun r hr => ?_, fun evs he => compareApps_clean hclean he⟩
  have htold : ∃ config, (config = none ∨ config = some (configOf d)) ∧
      (otherSide d.appName r).remote = (config.map dumpData).getD ∅ :=
    (hclean r hr).elim (fun he => ⟨none, .inl rfl, he⟩) fun he => ⟨_, .inr rfl, he⟩
  obtain ⟨config, hconfig, hremote⟩ := htold
  have hreadable : ∀ c ∈ config, Readable c.decisionsAddress := by
    rcases hconfig with rfl | rfl
    · simp
    · rintro _ ⟨⟩
      exact readable_serviceUrl (d.charm true)
  constructor
  · rw [getProviderInfo_told hreadable hremote]
    rcases hconfig with rfl | rfl
    · exact .inl rfl
    · exact .inr rfl
  · intro app
    rw [isProtectedApp_told hreadable hremote]
    rcases hconfig with rfl | rfl <;> rfl

/-- The registration of the first leader, and what a later gateway reads. -/
theorem a_gateway_reads_the_config_or_nothing_related : ∃ r,
    (run (step sample.deployment) sampleRelated
      [.hook true sampleCreated sample.tapeA, .elect (some false),
        .hook false .configChanged sample.tapeB]).model.forwardAuth = [r] ∧
    Requirer.isProtectedApp "dashboard" [otherSide "oidc-gatekeeper" r] = .ok false := by
  have hempty : ∀ r ∈ sampleRelated.model.forwardAuth, r.ours = ∅ := by
    simp [sampleRelated]
  have hreads := a_gateway_reads_the_config_or_nothing sample.deployment hempty
    [.hook true sampleCreated sample.tapeA, .elect (some false),
      .hook false .configChanged sample.tapeB]
  have hone : ((run (step sample.deployment) sampleRelated
      [.hook true sampleCreated sample.tapeA, .elect (some false),
        .hook false .configChanged sample.tapeB]).model.forwardAuth).length = 1 := by
    decide +kernel
  obtain ⟨r, hr⟩ := List.length_eq_one_iff.mp hone
  exact ⟨r, hr, (hreads.1 r (by rw [hr]; exact List.mem_singleton_self r)).2 "dashboard"⟩

/-! ## The route in the databags -/

open istio_ingress_route (Port ProtocolType HTTPPathMatchType getConfig configCodec)

def protocolOf (s : String) : Option ProtocolType :=
  [ProtocolType.http, .grpc].find? (·.value = s)

def pathMatchTypeOf (s : String) : Option HTTPPathMatchType :=
  [HTTPPathMatchType.exact, .pathPrefix, .regularExpression].find? (·.value = s)

def portOf (n : Nat) : Option Port :=
  if h : 1 ≤ (n : Int) ∧ (n : Int) ≤ 65535 then some ⟨n, h⟩ else none

def listenerOf (l : Listener) : Option istio_ingress_route.Listener := do
  return ⟨← portOf l.port, ← protocolOf l.protocol⟩

def matchOf (p : HTTPPathMatch) : Option istio_ingress_route.HTTPRouteMatch := do
  return ⟨none, some ⟨← pathMatchTypeOf p.type, p.value⟩, none⟩

def backendOf (b : BackendRef) : Option istio_ingress_route.BackendRef := do
  return ⟨b.service, ← portOf b.port, none⟩

def routeOf (r : HTTPRoute) : Option istio_ingress_route.HTTPRoute := do
  return ⟨r.name, ← listenerOf r.listener, ← r.backends.mapM backendOf, none,
    some (← r.pathMatches.mapM matchOf), none⟩

/-- The config of the library, from the arguments of its constructors. The fields that the
charm does not give have their defaults. -/
def configFrom (c : IstioIngressRouteConfig) :
    Option istio_ingress_route.IstioIngressRouteConfig := do
  return ⟨c.model, ← c.listeners.mapM listenerOf, ← c.httpRoutes.mapM routeOf, []⟩

/-- The config that `_ambient_mesh_ingress` makes. -/
def ambientMeshRoute (d : Deployment) : istio_ingress_route.IstioIngressRouteConfig where
  model := d.modelName
  listeners := [⟨⟨80, by decide⟩, .http⟩]
  httpRoutes := [
    { name := "http-ingress"
      listener := ⟨⟨80, by decide⟩, .http⟩
      backends := [⟨d.appName, ⟨8080, by decide⟩, none⟩]
      hostnames := none
      routeMatches := some [⟨none, some ⟨.pathPrefix, "/authservice/"⟩, none⟩]
      filters := none }]
  grpcRoutes := []

theorem configFrom_ambientMeshConfig (c : Charm) :
    configFrom (ambientMeshConfig c) = some (ambientMeshRoute c.toDeployment) := by
  have h80 : portOf 80 = some ⟨80, by decide⟩ := dif_pos (by decide)
  have h8080 : portOf httpPort = some ⟨8080, by decide⟩ := dif_pos (by decide)
  have hhttp : protocolOf "HTTP" = some .http := by decide
  have hprefix : pathMatchTypeOf "PathPrefix" = some .pathPrefix := by decide
  simp [configFrom, ambientMeshConfig, listenerOf, routeOf, backendOf, matchOf, h80, h8080, hhttp,
    hprefix, ambientMeshRoute]

/-- The databag behind our side of a route relation. -/
def routeBag (F : json.Format) (ours : Option IstioIngressRouteConfig) : Databag :=
  match ours.bind configFrom with
  | none => ∅
  | some config => Finmap.singleton "config" (F.write (configCodec.encode config))

/-- What the ingress gets over the relation. -/
def routeGot (F : json.Format) (d : Deployment)
    (r : Relation (Option IstioIngressRouteConfig)) :
    Option istio_ingress_route.IstioIngressRouteConfig :=
  getConfig F ⟨r.id, d.appName, routeBag F r.ours, r.remote⟩

def routes (m : Model) : List (Nat × Option IstioIngressRouteConfig) :=
  m.istioIngressRoute.map fun r => (r.id, r.ours)

theorem forwardAuthHandlers_routes {id : Nat} {h : Handler Unit} {s s' : HookState}
    (hmem : h ∈ forwardAuthHandlers c id) (hrun : h.run s = .ok () s') :
    routes s'.model = routes s.model := by
  simp only [forwardAuthHandlers, List.mem_cons, List.not_mem_nil, or_false] at hmem
  rcases hmem with rfl | rfl | rfl
  · unfold onRelationCreatedEvent at hrun
    cases hl : c.isLeader <;> rw [hl] at hrun <;> cases hrun <;> rfl
  · rw [run_changed] at hrun
    split at hrun
    · split at hrun <;> cases hrun
      rfl
    · cases hrun
      rfl
  · unfold onRelationBrokenEvent at hrun
    cases hl : c.isLeader <;> rw [hl] at hrun <;> cases hrun <;> rfl

theorem observer_routes {h : Handler Unit} {s s' : HookState} (hmem : h ∈ observers c ev)
    (hrun : h.run s = .ok () s') : routes s'.model = routes s.model := by
  have hmain : ∀ {ev'}, h = main c ev' → routes s'.model = routes s.model := by
    rintro ev' rfl
    unfold routes
    rw [settled.main_route hrun]
  rcases observers_cases c ev with ho | ⟨id, h', hmem', ho⟩ | ⟨ev', ho⟩ | ⟨ev₁, ev₂, ho⟩ <;>
    rw [ho] at hmem
  · cases hmem
  · rw [← List.mem_singleton.mp hmem] at hmem'
    exact forwardAuthHandlers_routes hmem' hrun
  · exact hmain (List.mem_singleton.mp hmem)
  · rcases List.mem_cons.mp hmem with hx | hx
    · exact hmain hx
    · exact hmain (List.mem_singleton.mp hx)

/-- The leader has handled this event without an exception. -/
def EndsOnLeader (d : Deployment) (a : Application ι) : Step ι → Prop
  | .hook u ev tape => a.leader = some u ∧
    ∃ s', (dispatch (a.charmOf d u) ev).run ⟨a.model, a.units u, tape⟩ = .ok () s'
  | _ => False

/-- No route relation comes or goes. -/
def RoutesStay : Step ι → Prop
  | .change (.relationAdded .istioIngressRouteUnauthenticated _ _) => False
  | .change (.relationRemoved .istioIngressRouteUnauthenticated _) => False
  | _ => True

/-- The relations `ids`, all with the same on our side. -/
def allRoutes (ids : List Nat) (ours : Option IstioIngressRouteConfig) (m : Model) : Prop :=
  routes m = ids.map fun id => (id, ours)

theorem constructed_routes {ids : List Nat} {ours : Option IstioIngressRouteConfig} {s : HookState}
    (hl : c.isLeader = true) (h : allRoutes ids ours s.model) :
    allRoutes ids (some (ambientMeshConfig c)) (constructed c s).model := by
  unfold allRoutes routes at h ⊢
  unfold constructed
  rw [if_pos hl]
  have hids : s.model.istioIngressRoute.map (·.id) = ids := by
    have hfst := congrArg (List.map Prod.fst) h
    simpa [Function.comp_def] using hfst
  rw [← hids]
  simp [submitConfig, Relation.written, HookState.onModel, Function.comp_def]

/-- A hook submits the config, if it runs on the leader and does not raise. -/
theorem hook_routes {ids : List Nat} {ours : Option IstioIngressRouteConfig} {m : Model}
    (c : Charm) (ev : Event) (tape : Tape) (u : UnitState) (h : allRoutes ids ours m) :
    (c.isLeader = true ∧ (∃ s', (dispatch c ev).run ⟨m, u, tape⟩ = .ok () s') →
      allRoutes ids (some (ambientMeshConfig c)) (hook c ev tape m u).1) ∧
    (¬ (c.isLeader = true ∧ ∃ s', (dispatch c ev).run ⟨m, u, tape⟩ = .ok () s') →
      allRoutes ids ours (hook c ev tape m u).1) := by
  have hkeep : ∀ {s'}, (dispatch c ev).run ⟨m, u, tape⟩ = .ok () s' →
      routes s'.model = routes (constructed c ⟨m, u, tape⟩).model := fun hd =>
    dispatch_keeps (P := fun t => routes t.model = routes (constructed c ⟨m, u, tape⟩).model)
      (fun _ hmem _ _ ht hrun => (observer_routes hmem hrun).trans ht) rfl hd
  constructor
  · rintro ⟨hl, s', hd⟩
    rw [hook_of_ends hd]
    exact (hkeep hd).trans (constructed_routes hl h)
  · intro hn
    cases hd : (dispatch c ev).run ⟨m, u, tape⟩ with
    | error e s' =>
      rw [hook_of_raises hd]
      exact h
    | ok _ s' =>
      have hl : ¬ c.isLeader = true := fun hl => hn ⟨hl, s', hd⟩
      have hsame : constructed c ⟨m, u, tape⟩ = ⟨m, u, tape⟩ := if_neg hl
      have hroutes := hkeep hd
      rw [hsame] at hroutes
      rw [hook_of_ends hd]
      exact hroutes.trans h

omit [DecidableEq ι] in
theorem changed_routes {m : Model} {ch : Change} (h : RoutesStay (.change ch : Step ι)) :
    routes (m.changed ch) = routes m := by
  rcases ch with _ | ⟨e, i, app⟩ | ⟨e, i⟩ | ⟨e, i, bag⟩
  · rfl
  · cases e
    case istioIngressRouteUnauthenticated => exact h.elim
    all_goals rfl
  · cases e
    case istioIngressRouteUnauthenticated => exact h.elim
    all_goals rfl
  · cases e
    case istioIngressRouteUnauthenticated =>
      unfold routes Model.changed Model.remoteWritten Relation.remoteWritten
      rw [List.map_map]
      apply List.map_congr_left
      intro r _
      by_cases hr : r.id = i <;> simp [hr]
    all_goals rfl

theorem step_routes (d : Deployment) {ids : List Nat} {ours : Option IstioIngressRouteConfig}
    {a : Application ι} (st : Step ι) (hst : RoutesStay st) (h : allRoutes ids ours a.model) :
    (EndsOnLeader d a st →
      allRoutes ids (some (ambientMeshConfig (d.charm true))) (step d a st).model) ∧
    (¬ EndsOnLeader d a st → allRoutes ids ours (step d a st).model) := by
  cases st with
  | elect leader => exact ⟨False.elim, fun _ => h⟩
  | change ch => exact ⟨False.elim, fun _ => (changed_routes hst).trans h⟩
  | restart u => exact ⟨False.elim, fun _ => h⟩
  | hook u ev tape =>
    have hlead : (a.charmOf d u).isLeader = true ↔ a.leader = some u := by
      simp [Application.charmOf, Deployment.charm]
    have hhook := hook_routes (a.charmOf d u) ev tape (a.units u) h
    rw [hlead] at hhook
    exact hhook

theorem run_routes (d : Deployment) {ids : List Nat} {ours : Option IstioIngressRouteConfig}
    {a : Application ι} {steps : List (Step ι)} (hstay : ∀ st ∈ steps, RoutesStay st)
    (h : allRoutes ids ours a.model) :
    (Happens (EndsOnLeader d) (step d) a steps ∨ ours = some (ambientMeshConfig (d.charm true)) →
      allRoutes ids (some (ambientMeshConfig (d.charm true))) (run (step d) a steps).model) ∧
    (¬ Happens (EndsOnLeader d) (step d) a steps →
      allRoutes ids ours (run (step d) a steps).model) := by
  induction steps generalizing a ours with
  | nil =>
    refine ⟨fun hor => ?_, fun _ => h⟩
    rcases hor with hn | rfl
    · exact hn.elim
    · exact h
  | cons st steps ih =>
    obtain ⟨hyes, hno⟩ := step_routes d st (hstay st List.mem_cons_self) h
    have hrest : ∀ st' ∈ steps, RoutesStay st' := fun st' hst' =>
      hstay st' (List.mem_cons_of_mem _ hst')
    by_cases hst : EndsOnLeader d a st
    · exact ⟨fun _ => (ih hrest (hyes hst)).1 (.inr rfl), fun hn => absurd (.inl hst) hn⟩
    · obtain ⟨hyes', hno'⟩ := ih hrest (hno hst)
      exact ⟨fun hor => hyes' (hor.imp_left fun hr => hr.resolve_left hst),
        fun hn => hno' fun hr => hn (.inr hr)⟩

theorem routeGot_none (F : json.Format) (d : Deployment)
    {r : Relation (Option IstioIngressRouteConfig)} (h : r.ours = none) :
    routeGot F d r = none := by
  unfold routeGot routeBag
  rw [h]
  rfl

theorem routeGot_some (F : json.Format) (d : Deployment)
    {r : Relation (Option IstioIngressRouteConfig)}
    (h : r.ours = some (ambientMeshConfig (d.charm true))) :
    routeGot F d r = some (ambientMeshRoute d) := by
  apply istio_ingress_route.getConfig_of_lookup
  unfold routeBag
  rw [h, Option.bind_some, configFrom_ambientMeshConfig]
  exact Finmap.lookup_singleton_eq

/-- From route relations with nothing in our databags, over any steps in which they stay:
the ingress gets the route of the application exactly when some unit handled an event,
any event at all, as the leader and without an exception. Until then it gets nothing. -/
theorem the_route_is_submitted_by_the_first_leader_hook (F : json.Format) (d : Deployment)
    {ids : List Nat} {a : Application ι} (h : allRoutes ids none a.model)
    {steps : List (Step ι)} (hstay : ∀ st ∈ steps, RoutesStay st) :
    ∀ r ∈ (run (step d) a steps).model.istioIngressRoute,
      (routeGot F d r = some (ambientMeshRoute d) ↔
        Happens (EndsOnLeader d) (step d) a steps) ∧
      (routeGot F d r = none ↔ ¬ Happens (EndsOnLeader d) (step d) a steps) := by
  intro r hr
  have hours : ∀ {ours}, allRoutes ids ours (run (step d) a steps).model → r.ours = ours := by
    intro ours hall
    have hmem : (r.id, r.ours) ∈ routes (run (step d) a steps).model := List.mem_map_of_mem hr
    rw [hall] at hmem
    obtain ⟨id, -, he⟩ := List.mem_map.mp hmem
    exact (congrArg Prod.snd he).symm
  obtain ⟨hyes, hno⟩ := run_routes d hstay h
  by_cases hh : Happens (EndsOnLeader d) (step d) a steps
  · have hgot := routeGot_some F d (hours (hyes (.inl hh)))
    simp [hgot, hh]
  · have hgot := routeGot_none F d (hours (hno hh))
    simp [hgot, hh]

/-- The sample application with a route relation. -/
def sampleRouted : Application Bool :=
  { sample.application with model :=
    { sample.model with istioIngressRoute := [⟨9, "istio-ingress", ∅, none⟩] } }

/-- A follower handles an event, then the leader handles one that nobody observes. -/
theorem the_route_is_submitted_by_the_first_leader_hook_updated :
    (run (step sample.deployment) sampleRouted [.hook false .configChanged sample.tapeA,
      .hook true (.other "update-status") sample.tapeA]).model.istioIngressRoute.map
      (routeGot .python sample.deployment) = [some (ambientMeshRoute sample.deployment)] := by
  have hbare : allRoutes [9] none sampleRouted.model := rfl
  have hstay : ∀ st ∈ [.hook false .configChanged sample.tapeA,
      .hook true (.other "update-status") sample.tapeA], RoutesStay (ι := Bool) st := by
    simp [RoutesStay]
  have hgot := the_route_is_submitted_by_the_first_leader_hook .python sample.deployment
    hbare hstay
  generalize hfinal : run (step sample.deployment) sampleRouted _ = final at hgot ⊢
  have hlen : final.model.istioIngressRoute.length = 1 := by
    rw [← hfinal]
    decide +kernel
  obtain ⟨r, hr⟩ := List.length_eq_one_iff.mp hlen
  rw [hr, List.map_singleton]
  refine congrArg (fun x => [x]) ((hgot r (hr ▸ List.mem_singleton_self r)).1.mpr ?_)
  exact .inr (.inl ⟨rfl, _, rfl⟩)

end oidc_gatekeeper.gateway
