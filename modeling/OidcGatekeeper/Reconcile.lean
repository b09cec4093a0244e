-- The law of the reconcile: what a hook that ends Active leaves is a function of
-- the inputs, and any later hook with the same inputs leaves it as it is.
import OidcGatekeeper.Observed

open handlers runs

namespace oidc_gatekeeper.settled

/-! ## The target -/

/-- The payloads of an endpoint, relation by relation. -/
def payloadsOf {π : Type} (rels : List (Relation (SdiSide π))) : List (Nat × Option π) :=
  rels.map fun r => (r.id, r.ours.data)

structure Payloads where
  oidcClient : List (Nat × Option OidcClientData)
  ingress : List (Nat × Option IngressData)
  ingressAuth : List (Nat × Option IngressAuthData)
  deriving DecidableEq

def payloads (m : Model) : Payloads where
  oidcClient := payloadsOf m.oidcClient
  ingress := payloadsOf m.ingress
  ingressAuth := payloadsOf m.ingressAuth

/-- The payloads that are meant for these inputs, field by field. -/
def targetPayloads (c : Charm) (i : Inputs) (secret : String) : Payloads where
  oidcClient := i.sdi.oidcClient.map fun r => (r.1, some
    { id := i.config.clientId
      name := i.config.clientName
      redirectURIs := ["/authservice/oidc/callback"]
      secret := secret })
  ingress := i.sdi.ingress.map fun r => (r.1, some
    { pathPrefix := "/authservice", rewrite := "/", service := c.appName, port := 8080 })
  ingressAuth := i.sdi.ingressAuth.map fun r => (r.1, some
    { service := c.appName
      port := 8080
      allowedRequestHeaders := ["cookie", "X-Auth-Token"]
      allowedResponseHeaders := ["kubeflow-userid"] })

/-- The service entry that is meant for these inputs. -/
def targetEntry (i : Inputs) (issuerUrl secret : String) : Service where
  override := "replace"
  summary := "oidc-gatekeeper service"
  command := "/home/authservice/oidc-authservice"
  environment := environmentOf i.config secret issuerUrl (i.config.caBundle ≠ "")
  startup := "enabled"
  workingDir := "/home/authservice"

theorem payloadsOf_sendData {π : Type} (payload : π) (rels : List (Relation (SdiSide π))) :
    payloadsOf (sendData payload rels) =
      (Relation.remotes rels).map fun r => (r.1, some payload) := by
  simp [payloadsOf, sendData, Relation.written, Relation.remotes]

theorem payloads_published (c : Charm) (secret : String) (m : Model) :
    payloads (published c secret m) = targetPayloads c m.inputs secret := by
  unfold payloads published targetPayloads
  simp only [payloadsOf_sendData]
  rfl

theorem payloads_sentState (c : Charm) (s : HookState) :
    payloads (sentState c s).model = targetPayloads c s.model.inputs (secretOf s) := by
  have hi : (withSecret (s.onModel (·.withVersions c.packages))).model.inputs =
      s.model.inputs := by
    rw [inputs_withSecret]
    exact inputs_withVersions _ _
  rw [← hi]
  exact payloads_published c _ _

/-! ## Sending again -/

/-- The model without the keys that SDI writes for itself. -/
def withoutVersions (m : Model) : Model :=
  let clear {π : Type} (r : Relation (SdiSide π)) : SdiSide π :=
    { r.ours with supportedVersions := none }
  { m with
    ingress := Relation.written clear m.ingress
    ingressAuth := Relation.written clear m.ingressAuth
    oidcClient := Relation.written clear m.oidcClient }

theorem published_withVersions (c : Charm) (pk : Packages) (secret : String) (m : Model) :
    withoutVersions (published c secret (m.withVersions pk)) =
      withoutVersions (published c secret m) := by
  simp [withoutVersions, published, Model.withVersions, sendData, Relation.written_written]

theorem published_published (c : Charm) (secret : String) (m : Model) :
    published c secret (published c secret m) = published c secret m := by
  simp [published, sendData, Relation.written_written]

/-! ## The settled state -/

/-- The plan has no service of anyone else. -/
def Alone (k : Container) : Prop := ∀ name ∈ k.plan, name = pebbleServiceName

/-- The plan, the files and the process are the same. Only the count of layers may differ. -/
structure SameService (k k' : Container) : Prop where
  plan : k'.plan = k.plan
  files : k'.files = k.files
  process : k'.process = k.process

theorem SameService.refl (k : Container) : SameService k k := ⟨rfl, rfl, rfl⟩

theorem SameService.trans {k k' k'' : Container} (h : SameService k k') (h' : SameService k' k'') :
    SameService k k'' :=
  ⟨h'.plan.trans h.plan, h'.files.trans h.files, h'.process.trans h.process⟩

/-- Nothing is left to do for `main`: what it would write is there. -/
structure Settled (c : Charm) (d : dex_oidc_config.DexOidcConfigObject) (secret : String)
    (m : Model) (u : UnitState) : Prop where
  checks : ChecksPass c m d
  stored : storedSecret m = some secret
  sent : published c secret m = m
  route : ∀ r ∈ m.istioIngressRoute, r.ours = some (ambientMeshConfig c)
  entry : u.container.plan.lookup pebbleServiceName =
    some (targetEntry m.inputs d.issuerUrl secret)
  bundle : m.config.caBundle ≠ "" →
    u.container.files.lookup caBundlePath = some m.config.caBundle
  process : Alone u.container ∨ ∃ p, u.container.process = some p ∧
    p.service = targetEntry m.inputs d.issuerUrl secret
  status : u.status = some activeStatus

variable {c : Charm} {d : dex_oidc_config.DexOidcConfigObject} {secret : String}
  {s s' : HookState} {ev : Event} {tape : Tape} {m : Model} {u : UnitState}

/-- On a container that answers, the bundle is pushed when there is one. -/
theorem pushesBundle_steady (h : s.tape.Steady true) :
    pushesBundle (sentState c s) = decide (s.model.config.caBundle ≠ "") := by
  rw [pushesBundle_sentState, h.head, Bool.and_true]

theorem layerAt_steady (h : s.tape.Steady true) : (layerAt c s d).services =
    Finmap.singleton pebbleServiceName (targetEntry s.model.inputs d.issuerUrl (secretOf s)) := by
  unfold layerAt layerOf targetEntry
  rw [pushesBundle_steady h]
  rfl

theorem afterBundle_files (h : s.tape.Steady true) :
    s.model.config.caBundle ≠ "" →
      (afterBundle (sentState c s)).unit.container.files.lookup caBundlePath =
        some s.model.config.caBundle := by
  intro hb
  have hpush : pushesBundle (sentState c s) = true := by simpa [pushesBundle_steady h] using hb
  rw [afterBundle_pushes hpush, sentState_config]

/-- A push of what is there changes nothing. -/
theorem afterBundle_settled (hb : s.model.config.caBundle ≠ "" →
      s.unit.container.files.lookup caBundlePath = some s.model.config.caBundle) :
    (afterBundle s).unit.container = s.unit.container := by
  unfold afterBundle
  split
  · rfl
  · rename_i hne
    split
    · change s.unit.container.pushed caBundlePath s.model.config.caBundle = s.unit.container
      rw [Container.pushed, dicts.insert_eq_self (hb hne)]
    · rfl

/-! ## A run of `main` in the settled state -/

theorem sentState_settled (h : Settled c d secret m u) (tape : Tape) :
    (sentState c ⟨m, u, tape⟩).model = published c secret (m.withVersions c.packages) ∧
      withoutVersions (sentState c ⟨m, u, tape⟩).model = withoutVersions m := by
  have hst : storedSecret (m.withVersions c.packages) = some secret := h.stored
  have hsec : secretOf ⟨m, u, tape⟩ = secret := secretOf_eq h.stored
  have hm : (sentState c ⟨m, u, tape⟩).model = published c secret (m.withVersions c.packages) := by
    simp only [sentState, HookState.onModel, withSecret, hst, hsec]
  refine ⟨hm, ?_⟩
  rw [hm, published_withVersions, h.sent]

/-- In the settled state `update_layer` leaves the service as it is. -/
theorem updateLayer_settled {layer : Layer} {entry : Service}
    (hconnect : s.tape.canConnect.head = true)
    (hlayer : layer.services = Finmap.singleton pebbleServiceName entry)
    (hentry : s.unit.container.plan.lookup pebbleServiceName = some entry)
    (hprocess : Alone s.unit.container ∨
      ∃ p, s.unit.container.process = some p ∧ p.service = entry)
    (hreplan : s.tape.replan.head = true ∨ Alone s.unit.container) :
    ∃ s', (updateLayer c.packages pebbleServiceName layer).run s = .ok () s' ∧
      s'.model = s.model ∧ SameService s.unit.container s'.unit.container := by
  rw [run_updateLayer, hconnect, if_neg (by decide)]
  by_cases hp : s.unit.container.plan = layer.services
  · rw [if_pos hp]
    exact ⟨_, rfl, rfl, .refl _⟩
  · have hnot : ¬ Alone s.unit.container := by
      intro ha
      apply hp
      rw [hlayer]
      exact dicts.eq_singleton hentry ha
    obtain ⟨p, hpr, hps⟩ := hprocess.resolve_left hnot
    rw [if_neg hp, if_pos (hreplan.resolve_right hnot)]
    refine ⟨_, rfl, rfl, ?_⟩
    have hplan : (s.unit.container.addLayer layer).plan = s.unit.container.plan := by
      rw [Container.addLayer_plan, hlayer]
      exact dicts.singleton_union_eq_self hentry
    have hkeep : (s.unit.container.addLayer layer).replanned pebbleServiceName =
        s.unit.container.addLayer layer :=
      Container.replanned_of_process (by rw [hplan, hentry]) hpr hps
    change SameService _ ((s.unit.container.addLayer layer).replanned pebbleServiceName)
    rw [hkeep]
    exact ⟨hplan, rfl, rfl⟩

/-- A run of `main` in the settled state ends, and leaves it settled and as it was. -/
theorem main_settled (h : Settled c d secret m u) (ev : Event) (hs : tape.Steady true)
    (hr : tape.Replans ∨ Alone u.container) : ∃ s', (main c ev).run ⟨m, u, tape⟩ = .ok () s' ∧
      withoutVersions s'.model = withoutVersions m ∧
      SameService u.container s'.unit.container ∧ Settled c d secret s'.model s'.unit := by
  generalize hst : (⟨m, u, tape⟩ : HookState) = s
  have hm : s.model = m := hst ▸ rfl
  have hsec : secretOf s = secret := hst ▸ secretOf_eq h.stored
  have hsteady : s.tape.Steady true := hst ▸ hs
  obtain ⟨hsent, hwithout⟩ := hst ▸ sentState_settled h tape
  have hinputs : (sentState c s).model.inputs = m.inputs := hm ▸ inputs_sentState c s
  have hconfig : (sentState c s).model.config = m.config := congrArg Inputs.config hinputs
  have hk : (afterBundle (sentState c s)).unit.container = u.container := by
    rw [afterBundle_settled, sentState_container, ← hst]
    intro hb
    rw [hconfig] at hb ⊢
    rw [sentState_container, ← hst]
    exact h.bundle hb
  have htape := (sentState_tape c s).trans (afterBundle_tape (sentState c s))
  have hlayer := layerAt_steady (c := c) (d := d) hsteady
  rw [hm, hsec] at hlayer
  obtain ⟨s₁, hu, hmodel, hsame⟩ := updateLayer_settled (c := c)
    (s := afterBundle (sentState c s)) (htape.steady hsteady).head hlayer
    (by rw [hk]; exact h.entry) (by rw [hk]; exact h.process)
    (by
      rw [hk]
      refine hr.imp_left fun hr => ?_
      have hrep : (afterBundle (sentState c s)).tape.Replans := htape.replans (hst ▸ hr)
      rw [hrep]
      rfl)
  rw [hk] at hsame
  have hfinal : (s₁.setStatus activeStatus).model = (sentState c s).model :=
    hmodel.trans (afterBundle_model _)
  refine ⟨s₁.setStatus activeStatus, ?_, ?_, hsame, ?_⟩
  · rw [run_main, run_reconcile_of_checks (hm ▸ h.checks), hu]
  · rw [hfinal, hwithout]
  · rw [hfinal]
    constructor
    · exact h.checks.of_inputs hinputs
    · rw [hsent]
      exact h.stored
    · rw [hsent, published_published]
    · rw [hsent]
      exact h.route
    · rw [hinputs]
      exact (congrArg _ hsame.plan).trans h.entry
    · rw [hconfig]
      exact fun hb => (congrArg _ hsame.files).trans (h.bundle hb)
    · rw [hinputs]
      refine h.process.imp (fun ha name hn => ha name (hsame.plan ▸ hn)) ?_
      rintro ⟨p, hp, hps⟩
      exact ⟨p, hsame.process.trans hp, hps⟩
    · rfl

/-! ## A hook in the settled state -/

/-- What a hook with the same inputs must leave alone. -/
structure Kept (m : Model) (u : UnitState) (m' : Model) (u' : UnitState) : Prop where
  model : withoutVersions m' = withoutVersions m
  service : SameService u.container u'.container
  status : u'.status = u.status

theorem Kept.refl (m : Model) (u : UnitState) : Kept m u m u := ⟨rfl, .refl _, rfl⟩

theorem Kept.trans {m m' m'' : Model} {u u' u'' : UnitState} (h : Kept m u m' u')
    (h' : Kept m' u' m'' u'') : Kept m u m'' u'' :=
  ⟨h'.model.trans h.model, h.service.trans h'.service, h'.status.trans h.status⟩

theorem Kept.alone {m m' : Model} {u u' : UnitState} (h : Kept m u m' u')
    (ha : Alone u.container) : Alone u'.container :=
  fun name hn => ha name (h.service.plan ▸ hn)

theorem constructed_settled (h : Settled c d secret m u) (tape : Tape) :
    constructed c ⟨m, u, tape⟩ = ⟨m, u, tape⟩ := by
  have hr : Relation.written (fun _ => some (ambientMeshConfig c)) m.istioIngressRoute =
      m.istioIngressRoute := by
    unfold Relation.written
    rw [List.map_congr_left (g := id)]
    · exact List.map_id _
    · intro r hr
      rw [← h.route r hr]
      rfl
  unfold constructed
  rw [if_pos h.checks.leader]
  simp only [HookState.onModel, submitConfig, hr]

/-- A hook with unchanged inputs leaves everything as it was. -/
theorem hook_settled (h : Settled c d secret m u) (ho : observedByMain ev = true)
    (hs : tape.Steady true) (hr : tape.Replans ∨ Alone u.container) :
    Kept m u (hook c ev tape m u).1 (hook c ev tape m u).2 ∧
      Settled c d secret (hook c ev tape m u).1 (hook c ev tape m u).2 := by
  have hfirst := main_settled h .dexOidcConfigUpdated hs hr
  have hinit := run_ambientMeshIngress c ⟨m, u, tape⟩
  rw [constructed_settled h] at hinit
  rcases observers_observed c ho with hobs | hobs
  · obtain ⟨s', hrun, hm, hk, hset⟩ := main_settled h ev hs hr
    have hd : (dispatch c ev).run ⟨m, u, tape⟩ = .ok () s' := by
      rw [dispatch, run_bind_ok hinit, hobs, runAll, run_bind_ok hrun]
      rfl
    rw [show hook c ev tape m u = (s'.model, s'.unit) from hook_of_ends hd]
    exact ⟨⟨hm, hk, hset.status.trans h.status.symm⟩, hset⟩
  · obtain ⟨s₁, hrun₁, hm₁, hk₁, hset₁⟩ := hfirst
    have htape := main_tape hrun₁
    have hkept₁ : Kept m u s₁.model s₁.unit := ⟨hm₁, hk₁, hset₁.status.trans h.status.symm⟩
    obtain ⟨s', hrun, hm, hk, hset⟩ := main_settled hset₁ ev (htape.steady hs)
      (hr.imp (fun hr => htape.replans hr) hkept₁.alone)
    have hd : (dispatch c ev).run ⟨m, u, tape⟩ = .ok () s' := by
      rw [dispatch, run_bind_ok hinit, hobs, runAll, run_bind_ok hrun₁, runAll, run_bind_ok hrun]
      rfl
    rw [show hook c ev tape m u = (s'.model, s'.unit) from hook_of_ends hd]
    exact ⟨hkept₁.trans ⟨hm, hk, hset.status.trans hset₁.status.symm⟩, hset⟩

/-- One hook after another, of one unit, with nothing in between. -/
def hookStep (c : Charm) (x : Model × UnitState) (e : Event × Tape) : Model × UnitState :=
  hook c e.1 e.2 x.1 x.2

theorem hooks_settled (h : Settled c d secret m u) (further : List (Event × Tape))
    (hf : ∀ e ∈ further, observedByMain e.1 = true ∧ e.2.Steady true ∧
      (e.2.Replans ∨ Alone u.container)) :
    Kept m u (run (hookStep c) (m, u) further).1 (run (hookStep c) (m, u) further).2 := by
  induction further generalizing m u with
  | nil => exact .refl m u
  | cons e es ih =>
    obtain ⟨ho, hs, hr⟩ := hf e List.mem_cons_self
    obtain ⟨hkept, hset⟩ := hook_settled h ho hs hr
    refine hkept.trans (ih hset fun e' he' => ?_)
    obtain ⟨ho', hs', hr'⟩ := hf e' (List.mem_cons_of_mem _ he')
    exact ⟨ho', hs', hr'.imp_right hkept.alone⟩

/-! ## Hooks that end Active settle the state -/

theorem steady_of_ok {ready : Bool} {layer : Layer} (hs : s.tape.Steady ready)
    (h : (updateLayer c.packages pebbleServiceName layer).run s = .ok () s') : ready = true := by
  rw [run_updateLayer, hs.head] at h
  cases ready with
  | false => cases h
  | true => rfl

theorem updateLayer_ok_process {layer : Layer} {entry : Service}
    (hlayer : layer.services = Finmap.singleton pebbleServiceName entry)
    (h : (updateLayer c.packages pebbleServiceName layer).run s = .ok () s') :
    Alone s'.unit.container ∨ ∃ p, s'.unit.container.process = some p ∧ p.service = entry := by
  rw [run_updateLayer] at h
  split at h
  · cases h
  · split at h
    · rename_i hp
      cases h
      refine .inl fun name hn => ?_
      change name ∈ s.unit.container.plan at hn
      rw [hp, hlayer] at hn
      simpa using hn
    · split at h
      · cases h
        exact .inr (Container.replanned_process (Container.addLayer_lookup hlayer _))
      · cases h

theorem sentState_istio (c : Charm) (s : HookState) :
    (sentState c s).model.istioIngressRoute = s.model.istioIngressRoute := by
  change (withSecret (s.onModel _)).model.istioIngressRoute = _
  rcases withSecret_model (s.onModel (·.withVersions c.packages)) with h | ⟨-, pass, h⟩ <;> rw [h]
  · rfl
  · rfl

theorem main_route (h : (main c ev).run s = .ok () s') :
    s'.model.istioIngressRoute = s.model.istioIngressRoute := by
  rcases main_leaves h with ⟨-, hm | hm⟩ | ⟨d, -, hm, -⟩ <;> rw [hm]
  · exact withVersions_istio _ _
  · exact sentState_istio c s

theorem lastStart_route (hl : c.isLeader = true) {s₁ : HookState} (h : LastStart c s s₁) :
    ∀ r ∈ s₁.model.istioIngressRoute, r.ours = some (ambientMeshConfig c) := by
  have h₀ : ∀ r ∈ (constructed c s).model.istioIngressRoute,
      r.ours = some (ambientMeshConfig c) := by
    intro r hr
    unfold constructed at hr
    rw [if_pos hl] at hr
    obtain ⟨r', -, he⟩ := (Relation.mem_written _ _ _).mp hr
    rw [← he]
  rcases h with rfl | h
  · exact h₀
  · rw [main_route h]
    exact h₀

theorem settled_of_applied {s₁ : HookState} {ready : Bool} (h : Applied c s s₁ s' d)
    (hs : s.tape.Steady ready) : ready = true ∧ Settled c d (secretOf s) s'.model s'.unit := by
  obtain ⟨s₂, hu, he⟩ := h.layer
  have htape := (sentState_tape c s₁).trans (afterBundle_tape (sentState c s₁))
  have hs₁ := (lastStart_tape h.start).steady hs
  obtain rfl := steady_of_ok (htape.steady hs₁) hu
  have hlayer := layerAt_steady (c := c) (d := d) hs₁
  rw [h.inputs, h.secret] at hlayer
  have hprocess := updateLayer_ok_process hlayer hu
  have hi : s'.model.inputs = s.model.inputs := by
    rw [h.model, inputs_sentState, h.inputs]
  have hconfig : s'.model.config = s₁.model.config :=
    congrArg Inputs.config (hi.trans h.inputs.symm)
  have hsent : ∃ m, s'.model = published c (secretOf s) m := by
    rw [h.model, ← h.secret]
    exact ⟨_, rfl⟩
  refine ⟨rfl, h.checks.of_inputs hi, h.stored, ?_, ?_, ?_, ?_, ?_, ?_⟩
  · obtain ⟨m, hm⟩ := hsent
    rw [hm, published_published]
  · rw [h.model, sentState_istio]
    exact lastStart_route h.checks.leader h.start
  · rw [h.entry, hi, pushesBundle_steady hs₁, h.config]
    rfl
  · rw [hconfig, he]
    intro hb
    change s₂.unit.container.files.lookup caBundlePath = _
    rw [(updateLayer_leaves (.ok hu)).2.1]
    exact afterBundle_files hs₁ hb
  · rw [hi, he]
    exact hprocess
  · rw [he]
    rfl

/-! ## The law -/

/-- What a hook from `s` leaves in the application and in the unit. -/
def left (c : Charm) (ev : Event) (s : HookState) : Model × UnitState :=
  hook c ev s.tape s.model s.unit

/-- The law of a hook that ends Active, for the issuer URL of `d`. -/
structure ReconcileLaw (c : Charm) (ev : Event) (s : HookState)
    (d : dex_oidc_config.DexOidcConfigObject) : Prop where
  /-- The service entry is a function of the inputs and of the secret, -/
  entry : (left c ev s).2.container.plan.lookup pebbleServiceName =
    some (targetEntry s.model.inputs d.issuerUrl (secretOf s))
  /-- and so are the payloads, whatever relations there are. -/
  payloads : payloads (left c ev s).1 = targetPayloads c s.model.inputs (secretOf s)
  /-- The secret is stored. -/
  stored : storedSecret (left c ev s).1 = some (secretOf s)
  /-- The environment has `CA_BUNDLE` exactly when there is a bundle. -/
  bundle : "CA_BUNDLE" ∈ (targetEntry s.model.inputs d.issuerUrl (secretOf s)).environment ↔
    s.model.config.caBundle ≠ ""
  /-- The client in each payload is the client of the environment. -/
  client : ∀ r ∈ (left c ev s).1.oidcClient, ∃ p, r.ours.data = some p ∧
    (targetEntry s.model.inputs d.issuerUrl (secretOf s)).environment.lookup "CLIENT_ID" =
      some (.str p.id) ∧
    (targetEntry s.model.inputs d.issuerUrl (secretOf s)).environment.lookup "CLIENT_SECRET" =
      some (.str p.secret)
  /-- Another history with the same config, issuer URL and secret ends with the same service
  entry, and with the same payloads when the same applications are related. -/
  history_free : ∀ ev' t d' ready, endsActive c ev' t = true → t.tape.Steady ready →
    dex_oidc_config.getData t.model.dexOidcConfig = .ok d' → d'.issuerUrl = d.issuerUrl →
    t.model.config = s.model.config → secretOf t = secretOf s →
    (left c ev' t).2.container.plan.lookup pebbleServiceName =
      (left c ev s).2.container.plan.lookup pebbleServiceName ∧
    (t.model.sdiRemotes = s.model.sdiRemotes →
      settled.payloads (left c ev' t).1 = settled.payloads (left c ev s).1)
  /-- Any further hooks with the same inputs change nothing. -/
  idempotent : ∀ further : List (Event × Tape),
    (∀ e ∈ further, observedByMain e.1 = true ∧ e.2.Steady true ∧
      (e.2.Replans ∨ Alone (left c ev s).2.container)) →
    Kept (left c ev s).1 (left c ev s).2 (run (hookStep c) (left c ev s) further).1
      (run (hookStep c) (left c ev s) further).2

/-- What an Active hook leaves, as a function of the inputs and of the secret. -/
theorem target_of_active {ready : Bool} (hs : s.tape.Steady ready)
    (h : endsActive c ev s = true) : ∃ d, dex_oidc_config.getData s.model.dexOidcConfig = .ok d ∧
      Settled c d (secretOf s) (left c ev s).1 (left c ev s).2 ∧
      (left c ev s).1.inputs = s.model.inputs ∧
      settled.payloads (left c ev s).1 = targetPayloads c s.model.inputs (secretOf s) := by
  obtain ⟨d, s₁, s', ha, hh⟩ := endsActive_applied h
  have hi : s'.model.inputs = s.model.inputs := by
    rw [ha.model, inputs_sentState, ha.inputs]
  unfold left
  rw [hh]
  refine ⟨d, ha.checks.dex, (settled_of_applied ha hs).2, hi, ?_⟩
  rw [ha.model, payloads_sentState, ha.inputs, ha.secret]

theorem targetEntry_bundle (i : Inputs) (issuerUrl secret : String) :
    "CA_BUNDLE" ∈ (targetEntry i issuerUrl secret).environment ↔ i.config.caBundle ≠ "" := by
  change "CA_BUNDLE" ∈ environmentOf _ _ _ _ ↔ _
  rw [caBundle_mem_environmentOf, decide_eq_true_iff]

theorem targetEntry_congr {i i' : Inputs} (h : i'.config = i.config) (issuerUrl secret : String) :
    targetEntry i' issuerUrl secret = targetEntry i issuerUrl secret := by
  unfold targetEntry
  rw [h]

/-- `main` is a reconcile: it takes nothing from the history of the state, and to run it
again changes nothing. The container is reachable or not for the whole hook. -/
theorem main_takes_nothing_from_the_history (c : Charm) (ev : Event) (s : HookState)
    (ready : Bool) (hs : s.tape.Steady ready) (h : endsActive c ev s = true) :
    ∃ d, dex_oidc_config.getData s.model.dexOidcConfig = .ok d ∧ ReconcileLaw c ev s d := by
  obtain ⟨d, hd, hset, hi, hp⟩ := target_of_active hs h
  have hentry := hset.entry
  rw [hi] at hentry
  refine ⟨d, hd, hentry, hp, hset.stored, targetEntry_bundle _ _ _, ?_, ?_, ?_⟩
  · intro r hr
    obtain ⟨hid, hsecret, -⟩ := environmentOf_lookup s.model.config (secretOf s) d.issuerUrl
      (s.model.config.caBundle ≠ "")
    obtain ⟨d', s₁, s', ha, hh⟩ := endsActive_applied h
    unfold left at hr
    rw [hh] at hr
    exact ⟨_, ha.oidcClient r hr, hid, hsecret⟩
  · intro ev' t d' ready' ht hst hd' hurl hconfig hsecret
    obtain ⟨d'', hd'', hset', hi', hp'⟩ := target_of_active hst ht
    rw [hd'] at hd''
    cases hd''
    have hentry' := hset'.entry
    rw [hi', hurl, hsecret, targetEntry_congr (i := s.model.inputs) hconfig] at hentry'
    refine ⟨hentry'.trans hentry.symm, fun hsdi => ?_⟩
    rw [hp', hp, hsecret]
    change t.model.inputs.config = s.model.inputs.config at hconfig
    change t.model.inputs.sdi = s.model.inputs.sdi at hsdi
    unfold targetPayloads
    rw [hconfig, hsdi]
  · exact fun further hf => hooks_settled hset further hf

theorem main_takes_nothing_from_the_history_sample :
    let c := sample.deployment.charm true
    let s : HookState := ⟨sample.model, sample.freshUnit, sample.tapeA⟩
    ∃ d, dex_oidc_config.getData s.model.dexOidcConfig = .ok d ∧ ReconcileLaw c .start s d :=
  main_takes_nothing_from_the_history _ _ _ true rfl (by decide +kernel)

end oidc_gatekeeper.settled
