-- What one run of `main` can do. Each function that `main` calls has one rule
-- here that gives its result and the state that it leaves; `main_run` puts them
-- together. The laws use `main_run` and do not look into the code again.
import OidcGatekeeper.Charm
import OidcGatekeeper.Dicts

open handlers

namespace oidc_gatekeeper

/-! ## The Dex check -/

/-- The outcome of `_check_dex_oidc_config_relation`. It only reads. -/
def dexCheck (rels : List (Relation Unit)) : Except Exc Unit :=
  match dex_oidc_config.getData rels with
  | .ok _ => .ok ()
  | .error (.dexOidcConfigRelationMissing message) =>
    .error (.errorWithStatus ⟨.blocked, message ++ " Please add the missing relation."⟩)
  | .error (.dexOidcConfigRelationDataMissing _) => .error (.errorWithStatus emptyOrMissingData)
  | .error e => .error e

theorem run_dexData (s : HookState) : dexData.run s =
    match dex_oidc_config.getData s.model.dexOidcConfig with
    | .ok data => .ok data s
    | .error e => .error e s := by
  simp only [dexData, EStateM.run_bind, EStateM.run_get]
  cases dex_oidc_config.getData s.model.dexOidcConfig <;> rfl

theorem run_checkDexOidcConfigRelation (s : HookState) : checkDexOidcConfigRelation.run s =
    match dexCheck s.model.dexOidcConfig with
    | .ok () => .ok () s
    | .error e => .error e s := by
  simp only [checkDexOidcConfigRelation, dexCheck, run_tryCatch, EStateM.run_bind, run_dexData]
  cases h : dex_oidc_config.getData s.model.dexOidcConfig with
  | ok data => rfl
  | error e => cases e <;> rfl

theorem dexCheck_ok_iff (rels : List (Relation Unit)) :
    dexCheck rels = .ok () ↔ ∃ d, dex_oidc_config.getData rels = .ok d := by
  unfold dexCheck
  cases h : dex_oidc_config.getData rels with
  | ok d => simp
  | error e => cases e <;> simp

/-- The status of a Dex check that fails. -/
theorem dexCheck_status {rels : List (Relation Unit)} {status : UnitStatus}
    (h : dexCheck rels = .error (.errorWithStatus status)) :
    status.kind = .blocked ∨ status.kind = .waiting := by
  unfold dexCheck at h
  split at h
  · cases h
  · cases h
    exact Or.inl rfl
  · cases h
    exact Or.inr rfl
  · rename_i e _ _ hg
    rw [Except.error.injEq] at h
    subst h
    exact absurd hg (dex_oidc_config.getData_raises_no_status rels status)

/-! ## The interfaces -/

/-- What `_get_interfaces` makes of an exception of SDI. -/
def VersionError.raised : VersionError → Exc
  | .noVersionsListed message => .errorWithStatus ⟨.waiting, message⟩
  | .noCompatibleVersions message => .errorWithStatus ⟨.blocked, message⟩
  | .other exception => .other exception

theorem VersionError.raised_status {e : VersionError} {status : UnitStatus}
    (h : e.raised = .errorWithStatus status) : status.kind = .blocked ∨ status.kind = .waiting := by
  cases e with
  | noVersionsListed message =>
    cases h
    exact .inr rfl
  | noCompatibleVersions message =>
    cases h
    exact .inl rfl
  | other exception => cases h

theorem run_getInterfaces (c : Charm) (s : HookState) : (getInterfaces c).run s =
    match c.packages.versionError s.model.sdiRemotes with
    | some e => .error e.raised (s.onModel (·.withVersions c.packages))
    | none => .ok s.model.interfaces (s.onModel (·.withVersions c.packages)) := by
  simp only [getInterfaces, sdiGetInterfaces, run_tryCatch, EStateM.run_bind, EStateM.run_get,
    EStateM.run_modify]
  cases h : c.packages.versionError s.model.sdiRemotes with
  | none => rfl
  | some e => cases e <;> rfl

section withVersions

variable (pk : Packages) (m : Model)

@[simp] theorem withVersions_config : (m.withVersions pk).config = m.config := rfl

@[simp] theorem withVersions_dex : (m.withVersions pk).dexOidcConfig = m.dexOidcConfig := rfl

@[simp] theorem withVersions_clientSecret : (m.withVersions pk).clientSecret = m.clientSecret := rfl

@[simp] theorem withVersions_istio :
    (m.withVersions pk).istioIngressRoute = m.istioIngressRoute := rfl

@[simp] theorem withVersions_interfaces : (m.withVersions pk).interfaces = m.interfaces := by
  simp [Model.interfaces, Model.withVersions]

@[simp] theorem withVersions_sdiRemotes : (m.withVersions pk).sdiRemotes = m.sdiRemotes := by
  simp [Model.sdiRemotes, Model.withVersions]

end withVersions

/-! ## The secret -/

/-- The secret that `_check_secret` returns when there is a peer relation: the stored one,
or the next one that `_gen_pass` draws. -/
def secretOf (s : HookState) : String :=
  (storedSecret s.model).getD (passOf s.tape.choices.head)

/-- What `_check_secret` leaves: the same state when a secret is stored. -/
def withSecret (s : HookState) : HookState :=
  match storedSecret s.model with
  | some _ => s
  | none => s.askedChoices.onModel (storeSecret (passOf s.tape.choices.head))

theorem storedSecret_storeSecret {m : Model} (h : m.clientSecret ≠ []) (pass : String) :
    storedSecret (storeSecret pass m) = some pass := by
  rcases hm : m.clientSecret with _ | ⟨rel, rels⟩
  · exact absurd hm h
  · simp [storedSecret, storeSecret, hm]

theorem storedSecret_withSecret {s : HookState} (h : s.model.clientSecret ≠ []) :
    storedSecret (withSecret s).model = some (secretOf s) := by
  unfold withSecret secretOf
  cases hs : storedSecret s.model with
  | some v => simp [hs]
  | none => exact storedSecret_storeSecret h _

theorem run_checkSecret (s : HookState) : checkSecret.run s =
    if s.model.clientSecret = [] then .error (.errorWithStatus waitingForClientSecret) s
    else .ok (secretOf s) (withSecret s) := by
  unfold checkSecret secretOf withSecret
  rcases hm : s.model.clientSecret with _ | ⟨rel, rels⟩
  · simp [hm]
  · cases hl : rel.ours.lookup "client-secret" with
    | some v =>
      have hin : "client-secret" ∈ rel.ours := Finmap.mem_of_lookup_eq_some hl
      have hs : storedSecret s.model = some v := by simp [storedSecret, hm, hl]
      simp [hm, hin, hs]
    | none =>
      have hin : "client-secret" ∉ rel.ours := Finmap.lookup_eq_none.mp hl
      have hs : storedSecret s.model = none := by simp [storedSecret, hm, hl]
      have hst : storedSecret (storeSecret (passOf s.tape.choices.head) s.model) =
          some (passOf s.tape.choices.head) := storedSecret_storeSecret (by simp [hm]) _
      simp [hm, hin, hs, genPass, HookState.onModel, HookState.askedChoices, hst]

section storeSecret

variable (pass : String) (m : Model) (s : HookState)

@[simp] theorem storeSecret_config : (storeSecret pass m).config = m.config := rfl

@[simp] theorem storeSecret_dex : (storeSecret pass m).dexOidcConfig = m.dexOidcConfig := rfl

@[simp] theorem storeSecret_sdiRemotes : (storeSecret pass m).sdiRemotes = m.sdiRemotes := rfl

/-- What `_check_secret` leaves in the model: the same model, or the new secret in it. -/
theorem withSecret_model : (withSecret s).model = s.model ∨
    (storedSecret s.model = none ∧ ∃ pass, (withSecret s).model = storeSecret pass s.model) := by
  unfold withSecret
  cases hs : storedSecret s.model with
  | some v => exact Or.inl rfl
  | none => exact Or.inr ⟨rfl, _, rfl⟩

@[simp] theorem withSecret_unit : (withSecret s).unit = s.unit := by
  unfold withSecret
  split <;> rfl

@[simp] theorem withSecret_config : (withSecret s).model.config = s.model.config := by
  rcases withSecret_model s with h | ⟨-, pass, h⟩ <;> rw [h]
  rfl

@[simp] theorem withSecret_dex : (withSecret s).model.dexOidcConfig = s.model.dexOidcConfig := by
  rcases withSecret_model s with h | ⟨-, pass, h⟩ <;> rw [h]
  rfl

@[simp] theorem withSecret_interfaces :
    (withSecret s).model.interfaces = s.model.interfaces := by
  rcases withSecret_model s with h | ⟨-, pass, h⟩ <;> rw [h]
  rfl

@[simp] theorem withSecret_sdiRemotes :
    (withSecret s).model.sdiRemotes = s.model.sdiRemotes := by
  rcases withSecret_model s with h | ⟨-, pass, h⟩ <;> rw [h]
  rfl

end storeSecret

/-! ## The payloads -/

/-- Every payload of the application, for this secret. -/
def published (c : Charm) (secret : String) (m : Model) : Model :=
  { m with
    oidcClient := sendData (oidcClientData m.config secret) m.oidcClient
    ingress := sendData (ingressData c.appName) m.ingress
    ingressAuth := sendData (ingressAuthData c.appName) m.ingressAuth }

/-- An endpoint with no interface has no relation, so there is nothing to write to. -/
theorem sendData_of_no_interface {π : Type} (payload : π) {rels : List (Relation (SdiSide π))}
    (h : (!rels.isEmpty) = false) : sendData payload rels = rels := by
  cases rels with
  | nil => rfl
  | cons r rels => simp at h

theorem run_sendInfo (secret : String) {i : Interfaces} {s : HookState}
    (h : s.model.interfaces = i) : (sendInfo i secret).run s = .ok () (s.onModel fun m =>
      { m with oidcClient := sendData (oidcClientData m.config secret) m.oidcClient }) := by
  subst h
  unfold sendInfo
  cases hi : s.model.interfaces.oidcClient with
  | true => simp
  | false =>
    have hn := sendData_of_no_interface (oidcClientData s.model.config secret) hi
    simp [HookState.onModel, hn]

theorem run_configureMesh (c : Charm) {i : Interfaces} {s : HookState}
    (h : s.model.interfaces = i) : (configureMesh c i).run s = .ok () (s.onModel fun m =>
      { m with
        ingress := sendData (ingressData c.appName) m.ingress
        ingressAuth := sendData (ingressAuthData c.appName) m.ingressAuth }) := by
  subst h
  have hi : s.model.interfaces.ingress = false → _ :=
    sendData_of_no_interface (ingressData c.appName)
  have ha : s.model.interfaces.ingressAuth = false → _ :=
    sendData_of_no_interface (ingressAuthData c.appName)
  unfold configureMesh
  cases h1 : s.model.interfaces.ingress <;> cases h2 : s.model.interfaces.ingressAuth
  · simp [HookState.onModel, hi h1, ha h2]
  · simp [HookState.onModel, hi h1]
  · simp [HookState.onModel, ha h2]
  · simp [HookState.onModel]

section published

variable (c : Charm) (secret : String) (m : Model)

@[simp] theorem published_config : (published c secret m).config = m.config := rfl

@[simp] theorem published_dex : (published c secret m).dexOidcConfig = m.dexOidcConfig := rfl

@[simp] theorem published_clientSecret : (published c secret m).clientSecret = m.clientSecret := rfl

@[simp] theorem published_sdiRemotes : (published c secret m).sdiRemotes = m.sdiRemotes := by
  simp [Model.sdiRemotes, published, sendData]

end published

/-! ## The layer -/

/-- The environment, with or without the path of the bundle. -/
def environmentOf (config : Config) (secret issuerUrl : String) (bundle : Bool) : Environment :=
  if bundle then
    (retEnvVars config secret issuerUrl).insert "CA_BUNDLE" (.str caBundlePath)
  else retEnvVars config secret issuerUrl

/-- The variables of the environment that depend on the inputs. -/
theorem environmentOf_lookup (config : Config) (secret issuerUrl : String) (bundle : Bool) :
    let env := environmentOf config secret issuerUrl bundle
    env.lookup "CLIENT_ID" = some (.str config.clientId) ∧
    env.lookup "CLIENT_SECRET" = some (.str secret) ∧
    env.lookup "OIDC_PROVIDER" = some (.str issuerUrl) ∧
    env.lookup "OIDC_SCOPES" = some (.str config.oidcScopes) ∧
    env.lookup "USERID_CLAIM" = some (.str config.useridClaim) ∧
    env.lookup "SKIP_AUTH_URLS" = some (.str (dexSkipUrls config.skipAuthUrls)) ∧
    env.lookup "CA_BUNDLE" = if bundle then some (.str caBundlePath) else none := by
  cases bundle <;> refine ⟨?_, ?_, ?_, ?_, ?_, ?_, ?_⟩ <;>
    simp [environmentOf, retEnvVars, Finmap.lookup_insert_of_ne, Finmap.dlookup_list_toFinmap,
      List.dlookup_cons_ne]

theorem caBundle_mem_environmentOf (config : Config) (secret issuerUrl : String) (bundle : Bool) :
    "CA_BUNDLE" ∈ environmentOf config secret issuerUrl bundle ↔ bundle = true := by
  obtain ⟨-, -, -, -, -, -, hb⟩ := environmentOf_lookup config secret issuerUrl bundle
  rw [← Finmap.lookup_isSome, hb]
  cases bundle <;> simp

/-- Is the bundle pushed: there is one, and the container answers. -/
def pushesBundle (s : HookState) : Bool :=
  s.model.config.caBundle ≠ "" && s.tape.canConnect.head

/-- What `service_environment` leaves, once the secret is stored. -/
def afterBundle (s : HookState) : HookState :=
  if s.model.config.caBundle = "" then s
  else if s.tape.canConnect.head = true then
    s.askedConnect.onContainer (·.pushed caBundlePath s.model.config.caBundle)
  else s.askedConnect

@[simp] theorem afterBundle_model (s : HookState) : (afterBundle s).model = s.model := by
  unfold afterBundle
  split
  · rfl
  · split <;> rfl

@[simp] theorem afterBundle_plan (s : HookState) :
    (afterBundle s).unit.container.plan = s.unit.container.plan := by
  unfold afterBundle
  split
  · rfl
  · split <;> rfl

theorem run_oidcLayer {s : HookState} {secret : String}
    {d : dex_oidc_config.DexOidcConfigObject} (hs : storedSecret s.model = some secret)
    (hd : dex_oidc_config.getData s.model.dexOidcConfig = .ok d) :
    oidcLayer.run s = .ok
      (layerOf (environmentOf s.model.config secret d.issuerUrl (pushesBundle s)))
      (afterBundle s) := by
  have hne : s.model.clientSecret ≠ [] := by
    intro h
    simp [storedSecret, h] at hs
  have hsec : checkSecret.run s = .ok secret s := by
    rw [run_checkSecret, if_neg hne]
    simp [secretOf, withSecret, hs]
  have hdex : dexData.run s = .ok d s := by rw [run_dexData, hd]
  simp only [oidcLayer, serviceEnvironment, EStateM.run_bind, hsec, EStateM.run_get, hdex]
  by_cases hb : s.model.config.caBundle = ""
  · simp [hb, environmentOf, pushesBundle, afterBundle]
  · cases hc : s.tape.canConnect.head <;>
      simp [hb, hc, environmentOf, pushesBundle, afterBundle, canConnect, push]

/-- The environment that the charm returns, in any state. -/
theorem serviceEnvironment_ok {s s' : HookState} {env : Environment}
    (h : serviceEnvironment.run s = .ok env s') : ∃ secret d bundle,
      dex_oidc_config.getData s.model.dexOidcConfig = .ok d ∧
      env = environmentOf s.model.config secret d.issuerUrl bundle := by
  have hsec := run_checkSecret s
  unfold serviceEnvironment at h
  split at hsec
  · rw [run_bind_error hsec] at h
    cases h
  · have hdex := run_dexData (withSecret s)
    rw [withSecret_dex] at hdex
    rw [run_bind_ok hsec] at h
    cases hd : dex_oidc_config.getData s.model.dexOidcConfig with
    | error e => simp [hd, hdex] at h
    | ok d =>
      refine ⟨secretOf s, d, pushesBundle (withSecret s), rfl, ?_⟩
      by_cases hb : s.model.config.caBundle = ""
      · simp [hd, hdex, hb] at h
        simp [← h.1, environmentOf, pushesBundle, hb]
      · cases hc : (withSecret s).tape.canConnect.head <;>
          simp [hd, hdex, hb, hc, canConnect, push] at h <;>
          simp [← h.1, environmentOf, pushesBundle, hb, hc]

/-! ## One run of `main` -/

/-- The state after the interfaces, the secret and the payloads. -/
def sentState (c : Charm) (s : HookState) : HookState :=
  (withSecret (s.onModel (·.withVersions c.packages))).onModel (published c (secretOf s))

@[simp] theorem sentState_container (c : Charm) (s : HookState) :
    (sentState c s).unit.container = s.unit.container := by
  simp [sentState, HookState.onModel]

@[simp] theorem sentState_config (c : Charm) (s : HookState) :
    (sentState c s).model.config = s.model.config := by
  simp [sentState, HookState.onModel]

/-- The first answer of `can_connect` is kept for `service_environment`. -/
@[simp] theorem sentState_canConnect (c : Charm) (s : HookState) :
    (sentState c s).tape.canConnect = s.tape.canConnect := by
  unfold sentState withSecret
  split <;> rfl

theorem pushesBundle_sentState (c : Charm) (s : HookState) : pushesBundle (sentState c s) =
    (decide (s.model.config.caBundle ≠ "") && s.tape.canConnect.head) := by
  simp [pushesBundle]

/-- A bundle that is pushed is in the file. -/
theorem afterBundle_pushes {s : HookState} (h : pushesBundle s = true) :
    (afterBundle s).unit.container.files.lookup caBundlePath = some s.model.config.caBundle := by
  obtain ⟨hb, hc⟩ := Bool.and_eq_true_iff.mp h
  unfold afterBundle
  rw [if_neg (of_decide_eq_true hb), if_pos hc]
  exact Finmap.lookup_insert _

/-- The layer that a run of `main` builds when its checks pass. -/
def layerAt (c : Charm) (s : HookState) (d : dex_oidc_config.DexOidcConfigObject) : Layer :=
  layerOf (environmentOf s.model.config (secretOf s) d.issuerUrl (pushesBundle (sentState c s)))

theorem layerAt_entry (c : Charm) (s : HookState) (d : dex_oidc_config.DexOidcConfigObject)
    (plan : Dict Service) : ((layerAt c s d).services ∪ plan).lookup pebbleServiceName =
      some (serviceEntry (environmentOf s.model.config (secretOf s) d.issuerUrl
        (pushesBundle (sentState c s)))) :=
  dicts.lookup_union_of_lookup Finmap.lookup_singleton_eq plan

theorem sentState_oidcClient {c : Charm} {s : HookState} {r : Relation (SdiSide OidcClientData)}
    (h : r ∈ (sentState c s).model.oidcClient) :
    r.ours.data = some (oidcClientData s.model.config (secretOf s)) := by
  obtain ⟨r', -, he⟩ := (Relation.mem_written _ _ _).mp h
  rw [← he]
  simp [HookState.onModel]

/-- Every check before `update_layer` passes, and `get_data` returns `d`. -/
structure ChecksPass (c : Charm) (m : Model) (d : dex_oidc_config.DexOidcConfigObject) : Prop where
  leader : c.isLeader = true
  dex : dex_oidc_config.getData m.dexOidcConfig = .ok d
  versions : c.packages.versionError m.sdiRemotes = none
  peer : m.clientSecret ≠ []

/-- The ways in which a run of `main` ends. -/
inductive MainRun (c : Charm) (s : HookState) : EStateM.Result Exc HookState Unit → Prop
  | notLeader (hl : c.isLeader = false) :
      MainRun c s (.ok () (s.setStatus waitingForLeadership))
  | dexStatus (status : UnitStatus) (hl : c.isLeader = true)
      (hd : dexCheck s.model.dexOidcConfig = .error (.errorWithStatus status)) :
      MainRun c s (.ok () (s.setStatus status))
  | dexRaises (e : Exc) (hl : c.isLeader = true)
      (hd : dexCheck s.model.dexOidcConfig = .error e) (he : ∀ st, e ≠ .errorWithStatus st) :
      MainRun c s (.error e s)
  | interfaces (e : VersionError) (status : UnitStatus) (hl : c.isLeader = true)
      (hd : dexCheck s.model.dexOidcConfig = .ok ())
      (hv : c.packages.versionError s.model.sdiRemotes = some e)
      (he : e.raised = .errorWithStatus status) :
      MainRun c s (.ok () ((s.onModel (·.withVersions c.packages)).setStatus status))
  | interfacesRaises (exception : String) (hl : c.isLeader = true)
      (hd : dexCheck s.model.dexOidcConfig = .ok ())
      (hv : c.packages.versionError s.model.sdiRemotes = some (.other exception)) :
      MainRun c s (.error (.other exception) (s.onModel (·.withVersions c.packages)))
  | noSecret (hl : c.isLeader = true) (hd : dexCheck s.model.dexOidcConfig = .ok ())
      (hv : c.packages.versionError s.model.sdiRemotes = none)
      (hp : s.model.clientSecret = []) :
      MainRun c s
        (.ok () ((s.onModel (·.withVersions c.packages)).setStatus waitingForClientSecret))
  | layer (d : dex_oidc_config.DexOidcConfigObject) (status : UnitStatus) (s' : HookState)
      (h : ChecksPass c s.model d)
      (hu : (updateLayer c.packages pebbleServiceName (layerAt c s d)).run
        (afterBundle (sentState c s)) = .error (.errorWithStatus status) s') :
      MainRun c s (.ok () (s'.setStatus status))
  | active (d : dex_oidc_config.DexOidcConfigObject) (s' : HookState)
      (h : ChecksPass c s.model d)
      (hu : (updateLayer c.packages pebbleServiceName (layerAt c s d)).run
        (afterBundle (sentState c s)) = .ok () s') :
      MainRun c s (.ok () (s'.setStatus activeStatus))

/-- `update_layer` raises nothing but `ErrorWithStatus`, with one of its two statuses. -/
theorem updateLayer_error {pk : Packages} {name : String} {layer : Layer} {s s' : HookState}
    {e : Exc} (h : (updateLayer pk name layer).run s = .error e s') :
    ∃ status, e = .errorWithStatus status ∧
      (status = ⟨.maintenance, pk.notReadyMessage⟩ ∨ status = ⟨.blocked, pk.replanMessage⟩) := by
  rw [run_updateLayer] at h
  split at h
  · cases h
    exact ⟨_, rfl, Or.inl rfl⟩
  · split at h
    · cases h
    · split at h
      · cases h
      · cases h
        exact ⟨_, rfl, Or.inr rfl⟩

/-- The `try` of `main`. -/
theorem run_main (c : Charm) (ev : Event) (s : HookState) : (main c ev).run s =
    match (reconcile c).run s with
    | .ok () s' => .ok () (s'.setStatus activeStatus)
    | .error (.errorWithStatus status) s' => .ok () (s'.setStatus status)
    | .error e s' => .error e s' := by
  unfold main
  rw [EStateM.run_bind, run_tryCatch, EStateM.run_bind]
  cases hr : (reconcile c).run s with
  | ok a s' => rfl
  | error e s' => cases e <;> rfl

/-! ## The body of `main`, in parts -/

/-- The body up to the secret. -/
def firstChecks (c : Charm) : Handler Interfaces := do
  checkLeader c
  checkDexOidcConfigRelation
  getInterfaces c

/-- The body up to the layer. -/
def sendAll (c : Charm) : Handler Unit := do
  let interfaces ← firstChecks c
  let secretKey ← checkSecret
  sendInfo interfaces secretKey
  configureMesh c interfaces

theorem reconcile_eq (c : Charm) : reconcile c = (do
    sendAll c
    updateLayer c.packages pebbleServiceName (← oidcLayer)) := by
  simp [reconcile, sendAll, firstChecks]

theorem run_firstChecks (c : Charm) (s : HookState) : (firstChecks c).run s =
    if c.isLeader = false then .error (.errorWithStatus waitingForLeadership) s
    else match dexCheck s.model.dexOidcConfig with
      | .error e => .error e s
      | .ok () => match c.packages.versionError s.model.sdiRemotes with
        | some e => .error e.raised (s.onModel (·.withVersions c.packages))
        | none => .ok s.model.interfaces (s.onModel (·.withVersions c.packages)) := by
  unfold firstChecks
  cases hl : c.isLeader with
  | false =>
    have hleader : (checkLeader c).run s = .error (.errorWithStatus waitingForLeadership) s := by
      simp [checkLeader, hl]
    rw [run_bind_error hleader, if_pos rfl]
  | true =>
    have hleader : (checkLeader c).run s = .ok () s := by simp [checkLeader, hl]
    have hdex := run_checkDexOidcConfigRelation s
    rw [run_bind_ok hleader, if_neg (by decide)]
    cases hd : dexCheck s.model.dexOidcConfig with
    | error e =>
      simp only [hd] at hdex
      rw [run_bind_error hdex]
    | ok u =>
      simp only [hd] at hdex
      rw [run_bind_ok hdex, run_getInterfaces]

/-- The first checks pass on a leader with a usable Dex relation and versions that fit. -/
theorem firstChecks_ok {c : Charm} {s s' : HookState} {i : Interfaces}
    (h : (firstChecks c).run s = .ok i s') : c.isLeader = true ∧
      (∃ d, dex_oidc_config.getData s.model.dexOidcConfig = .ok d) ∧
      c.packages.versionError s.model.sdiRemotes = none ∧
      i = s.model.interfaces ∧ s' = s.onModel (·.withVersions c.packages) := by
  rw [run_firstChecks] at h
  split at h
  · cases h
  · rename_i hl
    split at h
    · cases h
    · rename_i hd
      split at h
      · cases h
      · rename_i hv
        cases h
        exact ⟨by simpa using hl, (dexCheck_ok_iff _).mp hd, hv, rfl, rfl⟩

/-- The first checks read and leave the model, but for the keys of SDI. -/
theorem firstChecks_error {c : Charm} {s s' : HookState} {e : Exc}
    (h : (firstChecks c).run s = .error e s') :
    s' = s ∨ s' = s.onModel (·.withVersions c.packages) := by
  rw [run_firstChecks] at h
  split at h
  · cases h
    exact Or.inl rfl
  · split at h
    · cases h
      exact Or.inl rfl
    · split at h
      · cases h
        exact Or.inr rfl
      · cases h

theorem run_firstChecks_of_checks {c : Charm} {s : HookState}
    {d : dex_oidc_config.DexOidcConfigObject} (h : ChecksPass c s.model d) :
    (firstChecks c).run s = .ok s.model.interfaces (s.onModel (·.withVersions c.packages)) := by
  rw [run_firstChecks, if_neg (by simp [h.leader]), (dexCheck_ok_iff _).mpr ⟨d, h.dex⟩, h.versions]

/-- When the checks pass, everything is sent. -/
theorem run_sendAll_of_checks {c : Charm} {s : HookState}
    {d : dex_oidc_config.DexOidcConfigObject} (h : ChecksPass c s.model d) :
    (sendAll c).run s = .ok () (sentState c s) := by
  have hsec : checkSecret.run (s.onModel (·.withVersions c.packages)) =
      .ok (secretOf s) (withSecret (s.onModel (·.withVersions c.packages))) := by
    rw [run_checkSecret, if_neg (by simpa [HookState.onModel] using h.peer)]
    rfl
  have hi : (withSecret (s.onModel (·.withVersions c.packages))).model.interfaces =
      s.model.interfaces := by simp [HookState.onModel]
  have hsend := run_sendInfo (secretOf s) hi
  have hmesh : (configureMesh c s.model.interfaces).run
      ((withSecret (s.onModel (·.withVersions c.packages))).onModel fun m =>
        { m with oidcClient := sendData (oidcClientData m.config (secretOf s)) m.oidcClient }) =
      .ok () (sentState c s) :=
    run_configureMesh c (by
      rw [← hi]
      simp [HookState.onModel, Model.interfaces, sendData])
  unfold sendAll
  rw [run_bind_ok (run_firstChecks_of_checks h), run_bind_ok hsec, run_bind_ok hsend, hmesh]

/-- The part that sends returns only when the checks pass. -/
theorem sendAll_ok {c : Charm} {s s' : HookState} {u : Unit}
    (h : (sendAll c).run s = .ok u s') : ∃ d, ChecksPass c s.model d ∧ s' = sentState c s := by
  have hsend := h
  unfold sendAll at hsend
  obtain ⟨i, s₁, hfirst, hrest⟩ := run_bind_ok_iff.mp hsend
  obtain ⟨secret, s₂, hsec, -⟩ := run_bind_ok_iff.mp hrest
  obtain ⟨hl, ⟨d, hd⟩, hv, -, rfl⟩ := firstChecks_ok hfirst
  have hp : s.model.clientSecret ≠ [] := by
    intro hnil
    rw [run_checkSecret, if_pos (by simpa [HookState.onModel] using hnil)] at hsec
    cases hsec
  have hc : ChecksPass c s.model d := ⟨hl, hd, hv, hp⟩
  rw [run_sendAll_of_checks hc] at h
  cases h
  exact ⟨d, hc, rfl⟩

theorem storedSecret_sentState {c : Charm} {s : HookState} (h : s.model.clientSecret ≠ []) :
    storedSecret (sentState c s).model = some (secretOf s) :=
  storedSecret_withSecret (s := s.onModel (·.withVersions c.packages)) h

/-- The layer is built from what was sent, and nothing in it raises again. -/
theorem run_oidcLayer_of_checks {c : Charm} {s : HookState}
    {d : dex_oidc_config.DexOidcConfigObject} (h : ChecksPass c s.model d) :
    oidcLayer.run (sentState c s) = .ok (layerAt c s d) (afterBundle (sentState c s)) := by
  rw [run_oidcLayer (storedSecret_sentState h.peer)
    (by simpa [sentState, HookState.onModel] using h.dex)]
  simp [layerAt, sentState, HookState.onModel]

/-- The steps of the body up to `update_layer`, when the checks pass. -/
theorem run_reconcile_of_checks {c : Charm} {s : HookState}
    {d : dex_oidc_config.DexOidcConfigObject} (h : ChecksPass c s.model d) :
    (reconcile c).run s = (updateLayer c.packages pebbleServiceName (layerAt c s d)).run
      (afterBundle (sentState c s)) := by
  rw [reconcile_eq, run_bind_ok (run_sendAll_of_checks h), run_bind_ok (run_oidcLayer_of_checks h)]

/-- A check that fails ends the body. -/
theorem run_reconcile_of_error {c : Charm} {s s' : HookState} {e : Exc}
    (h : (firstChecks c).run s = .error e s') : (reconcile c).run s = .error e s' := by
  rw [reconcile_eq]
  exact run_bind_error (run_bind_error h)

section outcomes

variable {c : Charm} (ev : Event) {s : HookState}

theorem main_of_notLeader (hl : c.isLeader = false) :
    (main c ev).run s = .ok () (s.setStatus waitingForLeadership) := by
  have hfirst : (firstChecks c).run s = .error (.errorWithStatus waitingForLeadership) s := by
    rw [run_firstChecks, if_pos hl]
  rw [run_main, run_reconcile_of_error hfirst]

/-- The Dex check fails: its status is set, or its exception goes through. -/
theorem main_of_dexCheck_error {e : Exc} (hl : c.isLeader = true)
    (hd : dexCheck s.model.dexOidcConfig = .error e) : (main c ev).run s =
      match e with
      | .errorWithStatus status => .ok () (s.setStatus status)
      | e => .error e s := by
  have hfirst : (firstChecks c).run s = .error e s := by
    rw [run_firstChecks, if_neg (by simp [hl]), hd]
  rw [run_main, run_reconcile_of_error hfirst]
  cases e <;> rfl

theorem main_of_versionError {e : VersionError} (hl : c.isLeader = true)
    (hd : dexCheck s.model.dexOidcConfig = .ok ())
    (hv : c.packages.versionError s.model.sdiRemotes = some e) : (main c ev).run s =
      match e.raised with
      | .errorWithStatus status =>
        .ok () ((s.onModel (·.withVersions c.packages)).setStatus status)
      | e => .error e (s.onModel (·.withVersions c.packages)) := by
  have hfirst : (firstChecks c).run s =
      .error e.raised (s.onModel (·.withVersions c.packages)) := by
    rw [run_firstChecks, if_neg (by simp [hl]), hd, hv]
  rw [run_main, run_reconcile_of_error hfirst]
  cases e <;> rfl

theorem main_of_noPeer (hl : c.isLeader = true) (hd : dexCheck s.model.dexOidcConfig = .ok ())
    (hv : c.packages.versionError s.model.sdiRemotes = none)
    (hp : s.model.clientSecret = []) : (main c ev).run s =
      .ok () ((s.onModel (·.withVersions c.packages)).setStatus waitingForClientSecret) := by
  have hfirst : (firstChecks c).run s =
      .ok s.model.interfaces (s.onModel (·.withVersions c.packages)) := by
    rw [run_firstChecks, if_neg (by simp [hl]), hd, hv]
  have hsec := run_checkSecret (s.onModel (·.withVersions c.packages))
  rw [if_pos (by simpa [HookState.onModel] using hp)] at hsec
  have hsend : (sendAll c).run s =
      .error (.errorWithStatus waitingForClientSecret) (s.onModel (·.withVersions c.packages)) := by
    rw [sendAll, run_bind_ok hfirst, run_bind_error hsec]
  rw [run_main, reconcile_eq, run_bind_error hsend]

end outcomes

theorem main_run (c : Charm) (ev : Event) (s : HookState) : MainRun c s ((main c ev).run s) := by
  cases hl : c.isLeader with
  | false =>
    rw [main_of_notLeader ev hl]
    exact .notLeader hl
  | true =>
    cases hd : dexCheck s.model.dexOidcConfig with
    | error e =>
      rw [main_of_dexCheck_error ev hl hd]
      cases e with
      | errorWithStatus status => exact .dexStatus status hl hd
      | _ => exact .dexRaises _ hl hd (by simp)
    | ok u =>
      obtain ⟨d, hg⟩ := (dexCheck_ok_iff _).mp hd
      cases hv : c.packages.versionError s.model.sdiRemotes with
      | some e =>
        rw [main_of_versionError ev hl hd hv]
        cases e with
        | noVersionsListed message => exact .interfaces _ _ hl hd hv rfl
        | noCompatibleVersions message => exact .interfaces _ _ hl hd hv rfl
        | other exception => exact .interfacesRaises exception hl hd hv
      | none =>
        by_cases hp : s.model.clientSecret = []
        · rw [main_of_noPeer ev hl hd hv hp]
          exact .noSecret hl hd hv hp
        · have h : ChecksPass c s.model d := ⟨hl, hg, hv, hp⟩
          rw [run_main, run_reconcile_of_checks h]
          cases hu : (updateLayer c.packages pebbleServiceName (layerAt c s d)).run
              (afterBundle (sentState c s)) with
          | ok a s' => exact .active d s' h hu
          | error e s' =>
            obtain ⟨status, rfl, -⟩ := updateLayer_error hu
            exact .layer d status s' h hu

/-! ## What a run of `main` leaves -/

/-- `update_layer` leaves the model, the files and the status, and the plan is the old one
or has the services of the layer in it. -/
theorem updateLayer_leaves {pk : Packages} {name : String} {layer : Layer} {s s' : HookState}
    (h : Leaves (updateLayer pk name layer) s s') :
    s'.model = s.model ∧ s'.unit.container.files = s.unit.container.files ∧
      s'.unit.status = s.unit.status ∧
      (s'.unit.container.plan = s.unit.container.plan ∨
        s'.unit.container.plan = layer.services ∪ s.unit.container.plan) := by
  rcases updateLayer_cases h with ⟨rfl, -⟩ | rfl | rfl
  · exact ⟨rfl, rfl, rfl, Or.inl rfl⟩
  · exact ⟨rfl, Container.replanned_files _ _, rfl, Or.inr (Container.replanned_plan _ _)⟩
  · exact ⟨rfl, rfl, rfl, Or.inr rfl⟩

/-- On a container that answers, the plan gets the layer, and a replan that fails does not
take it back. -/
theorem updateLayer_plan {pk : Packages} {name : String} {layer : Layer} {s s' : HookState}
    (hc : s.tape.canConnect.head = true) (h : Leaves (updateLayer pk name layer) s s') :
    s'.unit.container.plan = layer.services ∪ s.unit.container.plan := by
  rcases updateLayer_cases h with ⟨rfl, hp⟩ | rfl | rfl
  · change s.unit.container.plan = _
    rw [hp hc, dicts.union_self]
  · exact Container.replanned_plan _ _
  · rfl

/-- After a layer is applied with success, the plan has its services. -/
theorem updateLayer_ok_plan {pk : Packages} {name : String} {layer : Layer} {s s' : HookState}
    (h : (updateLayer pk name layer).run s = .ok () s') :
    s'.unit.container.plan = layer.services ∪ s.unit.container.plan := by
  refine updateLayer_plan ?_ (.ok h)
  by_contra hc
  rw [run_updateLayer, if_pos (by simpa using hc)] at h
  cases h

/-- The answers of `can_connect` and `replan` are used up from the front. -/
structure Tape.UsedUp (t t' : Tape) : Prop where
  canConnect : ∃ n, t'.canConnect = t.canConnect.drop n
  replan : ∃ n, t'.replan = t.replan.drop n

theorem Tape.UsedUp.refl (t : Tape) : t.UsedUp t := ⟨⟨0, rfl⟩, ⟨0, rfl⟩⟩

theorem Tape.UsedUp.trans {t t' t'' : Tape} (h : t.UsedUp t') (h' : t'.UsedUp t'') :
    t.UsedUp t'' := by
  obtain ⟨⟨n, hc⟩, ⟨k, hr⟩⟩ := h
  obtain ⟨⟨n', hc'⟩, ⟨k', hr'⟩⟩ := h'
  refine ⟨⟨n' + n, ?_⟩, ⟨k' + k, ?_⟩⟩
  · rw [hc', hc, Stream'.drop_drop, add_comm]
  · rw [hr', hr, Stream'.drop_drop, add_comm]

theorem sentState_tape (c : Charm) (s : HookState) : s.tape.UsedUp (sentState c s).tape := by
  unfold sentState withSecret
  split <;> exact ⟨⟨0, rfl⟩, ⟨0, rfl⟩⟩

theorem afterBundle_tape (s : HookState) : s.tape.UsedUp (afterBundle s).tape := by
  unfold afterBundle
  split
  · exact .refl _
  · split <;> exact ⟨⟨1, rfl⟩, ⟨0, rfl⟩⟩

theorem updateLayer_tape {pk : Packages} {name : String} {layer : Layer} {s s' : HookState}
    (h : Leaves (updateLayer pk name layer) s s') : s.tape.UsedUp s'.tape := by
  rcases updateLayer_cases h with ⟨rfl, -⟩ | rfl | rfl
  · exact ⟨⟨1, rfl⟩, ⟨0, rfl⟩⟩
  · exact ⟨⟨1, rfl⟩, ⟨1, rfl⟩⟩
  · exact ⟨⟨1, rfl⟩, ⟨1, rfl⟩⟩

/-- A run of `main` that ends sets a status, either after a check that wrote nothing, or
after all checks passed and `update_layer` ran. -/
theorem main_ended {c : Charm} {ev : Event} {s s' : HookState}
    (h : (main c ev).run s = .ok () s') :
    (∃ status, s' = s.setStatus status ∨
      s' = (s.onModel (·.withVersions c.packages)).setStatus status) ∨
    ∃ d s₁ status, ChecksPass c s.model d ∧
      Leaves (updateLayer c.packages pebbleServiceName (layerAt c s d))
        (afterBundle (sentState c s)) s₁ ∧ s' = s₁.setStatus status := by
  have hrun := main_run c ev s
  rw [h] at hrun
  cases hrun with
  | notLeader hl => exact .inl ⟨_, .inl rfl⟩
  | dexStatus status hl hd => exact .inl ⟨_, .inl rfl⟩
  | interfaces e status hl hd hv he => exact .inl ⟨_, .inr rfl⟩
  | noSecret hl hd hv hp => exact .inl ⟨_, .inr rfl⟩
  | layer d status s₁ hc hu => exact .inr ⟨d, s₁, status, hc, .error hu, rfl⟩
  | active d s₁ hc hu => exact .inr ⟨d, s₁, activeStatus, hc, .ok hu, rfl⟩

/-- A run of `main` that ends: it stopped at a check and left the payloads, the secret and
the container, or it passed the checks and sent everything. -/
theorem main_leaves {c : Charm} {ev : Event} {s s' : HookState}
    (h : (main c ev).run s = .ok () s') :
    (s'.unit.container = s.unit.container ∧
      (s'.model = s.model ∨ s'.model = s.model.withVersions c.packages)) ∨
    ∃ d, ChecksPass c s.model d ∧ s'.model = (sentState c s).model ∧
      (s'.unit.container.plan = s.unit.container.plan ∨
        s'.unit.container.plan = (layerAt c s d).services ∪ s.unit.container.plan) := by
  rcases main_ended h with ⟨status, rfl | rfl⟩ | ⟨d, s₁, status, hc, hu, rfl⟩
  · exact Or.inl ⟨rfl, Or.inl rfl⟩
  · exact Or.inl ⟨rfl, Or.inr rfl⟩
  · obtain ⟨hm, -, -, hp⟩ := updateLayer_leaves hu
    rw [afterBundle_model] at hm
    rw [afterBundle_plan, sentState_container] at hp
    exact Or.inr ⟨d, hc, hm, hp⟩

theorem main_tape {c : Charm} {ev : Event} {s s' : HookState}
    (h : (main c ev).run s = .ok () s') : s.tape.UsedUp s'.tape := by
  rcases main_ended h with ⟨status, rfl | rfl⟩ | ⟨d, s₁, status, hc, hu, rfl⟩
  · exact .refl _
  · exact .refl _
  · have htape := updateLayer_tape hu
    exact ((sentState_tape c s).trans (afterBundle_tape _)).trans htape

/-- A run of `main` that ends Active passed the checks and applied the layer. -/
theorem main_active {c : Charm} {ev : Event} {s s' : HookState}
    (h : (main c ev).run s = .ok () s') (ha : s'.unit.status = some activeStatus) :
    ∃ d s₁, ChecksPass c s.model d ∧
      (updateLayer c.packages pebbleServiceName (layerAt c s d)).run
        (afterBundle (sentState c s)) = .ok () s₁ ∧
      s' = s₁.setStatus activeStatus := by
  have hrun := main_run c ev s
  rw [h] at hrun
  have hstatus : ∀ {status : UnitStatus} {t : HookState},
      (t.setStatus status).unit.status = some activeStatus → status.kind = .active := by
    intro status t he
    rw [Option.some.inj he]
    rfl
  cases hrun with
  | notLeader hl => cases hstatus ha
  | dexStatus status hl hd =>
    rcases dexCheck_status hd with hk | hk <;> rw [hstatus ha] at hk <;> cases hk
  | interfaces e status hl hd hv he =>
    rcases VersionError.raised_status he with hk | hk <;> rw [hstatus ha] at hk <;> cases hk
  | noSecret hl hd hv hp => cases hstatus ha
  | layer d status s₁ hc hu =>
    obtain ⟨_, he, hk⟩ := updateLayer_error hu
    cases he
    rcases hk with rfl | rfl <;> cases hstatus ha
  | active d s₁ hc hu => exact ⟨d, s₁, hc, hu, rfl⟩

/-- When the checks pass, a run of `main` leaves what `update_layer` leaves, and a status. -/
theorem main_layer {c : Charm} {ev : Event} {s s' : HookState}
    {d : dex_oidc_config.DexOidcConfigObject} (hc : ChecksPass c s.model d)
    (h : (main c ev).run s = .ok () s') : ∃ s₁ status, s' = s₁.setStatus status ∧
      Leaves (updateLayer c.packages pebbleServiceName (layerAt c s d))
        (afterBundle (sentState c s)) s₁ := by
  rw [run_main, run_reconcile_of_checks hc] at h
  cases hu : (updateLayer c.packages pebbleServiceName (layerAt c s d)).run
      (afterBundle (sentState c s)) with
  | ok a s₁ =>
    rw [hu] at h
    cases h
    exact ⟨s₁, _, rfl, .ok hu⟩
  | error e s₁ =>
    obtain ⟨status, rfl, -⟩ := updateLayer_error hu
    rw [hu] at h
    cases h
    exact ⟨s₁, _, rfl, .error hu⟩

/-- When the checks pass, `main` sends everything, whatever `update_layer` does then. -/
theorem main_of_checks {c : Charm} {ev : Event} {s s' : HookState}
    {d : dex_oidc_config.DexOidcConfigObject} (hc : ChecksPass c s.model d)
    (h : (main c ev).run s = .ok () s') : s'.model = (sentState c s).model := by
  obtain ⟨s₁, status, rfl, hu⟩ := main_layer hc h
  exact (updateLayer_leaves hu).1.trans (afterBundle_model _)

/-- When the checks pass, `main` ends. -/
theorem main_ends {c : Charm} (ev : Event) {s : HookState}
    {d : dex_oidc_config.DexOidcConfigObject} (hc : ChecksPass c s.model d) :
    ∃ s', (main c ev).run s = .ok () s' := by
  rw [run_main, run_reconcile_of_checks hc]
  cases hu : (updateLayer c.packages pebbleServiceName (layerAt c s d)).run
      (afterBundle (sentState c s)) with
  | ok a s₁ => exact ⟨_, rfl⟩
  | error e s₁ =>
    obtain ⟨status, rfl, -⟩ := updateLayer_error hu
    exact ⟨_, rfl⟩

/-- An exception that `main` does not catch: the Dex check lets one of ops or of Python
through, or it passes and SDI raises another one than its own two. -/
inductive Escapes (c : Charm) (m : Model) : Exc → Prop
  | dex {e : Exc} (hd : dexCheck m.dexOidcConfig = .error e)
      (he : ∀ st, e ≠ .errorWithStatus st) : Escapes c m e
  | interfaces {exception : String} (hd : dexCheck m.dexOidcConfig = .ok ())
      (hv : c.packages.versionError m.sdiRemotes = some (.other exception)) :
      Escapes c m (.other exception)

/-- `main` raises only on a leader, and it has written nothing then but the keys of SDI. -/
theorem main_raises {c : Charm} {ev : Event} {s s' : HookState} {e : Exc}
    (h : (main c ev).run s = .error e s') : s'.unit = s.unit ∧ c.isLeader = true ∧
      Escapes c s.model e := by
  have hrun := main_run c ev s
  rw [h] at hrun
  cases hrun with
  | dexRaises _ hl hd he => exact ⟨rfl, hl, .dex hd he⟩
  | interfacesRaises exception hl hd hv => exact ⟨rfl, hl, .interfaces hd hv⟩

theorem main_raises_of_escapes {c : Charm} (ev : Event) {s : HookState} {e : Exc}
    (hl : c.isLeader = true) (h : Escapes c s.model e) :
    ∃ s', (main c ev).run s = .error e s' := by
  cases h with
  | dex hd he =>
    rw [main_of_dexCheck_error ev hl hd]
    cases e with
    | errorWithStatus status => exact absurd rfl (he status)
    | _ => exact ⟨s, rfl⟩
  | interfaces hd hv =>
    rw [main_of_versionError ev hl hd hv]
    exact ⟨_, rfl⟩

/-- A run of `main` that ends leaves what its first checks look at. -/
theorem main_keeps_checked {c : Charm} {ev : Event} {s s' : HookState}
    (h : (main c ev).run s = .ok () s') : s'.model.dexOidcConfig = s.model.dexOidcConfig ∧
      s'.model.sdiRemotes = s.model.sdiRemotes := by
  rcases main_leaves h with ⟨-, hm | hm⟩ | ⟨d, -, hm, -⟩
  · rw [hm]
    exact ⟨rfl, rfl⟩
  · rw [hm]
    exact ⟨withVersions_dex .., withVersions_sdiRemotes ..⟩
  · rw [hm]
    simp [sentState, HookState.onModel]

/-- What escapes from `main` escapes again after a run that ended, so none did. -/
theorem Escapes.of_kept {c : Charm} {ev : Event} {s s' : HookState} {e : Exc}
    (h : (main c ev).run s = .ok () s') (he : Escapes c s'.model e) : Escapes c s.model e := by
  obtain ⟨hdex, hsdi⟩ := main_keeps_checked h
  cases he with
  | dex hd he => exact .dex (hdex ▸ hd) he
  | interfaces hd hv => exact .interfaces (hdex ▸ hd) (hsdi ▸ hv)

end oidc_gatekeeper
