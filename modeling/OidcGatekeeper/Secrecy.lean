-- The law of secrecy: two runs that draw different client secrets cannot be told
-- apart, except in the three places that are meant to hold the secret.
import OidcGatekeeper.ClientSecret

open handlers runs

namespace oidc_gatekeeper.secrecy

/-! ## What is public -/

def publicClient (p : OidcClientData) : OidcClientData := { p with secret := "" }

/-- The model without the stored secret and without the secrets of the payloads. -/
def publicModel (m : Model) : Model :=
  { m with
    oidcClient :=
      Relation.written (fun r => { r.ours with data := r.ours.data.map publicClient }) m.oidcClient
    clientSecret := Relation.written (fun r => r.ours.erase "client-secret") m.clientSecret }

def publicService (svc : Service) : Service :=
  { svc with environment := svc.environment.erase "CLIENT_SECRET" }

/-- The plan entries without `CLIENT_SECRET`. -/
def publicPlan (plan : Dict Service) (name : String) : Option Service :=
  (plan.lookup name).map publicService

/-- What can be seen of a unit: its plan, its files, how many layers were added, and its
status with the message. -/
structure PublicUnit where
  plan : String → Option Service
  files : Dict String
  layersAdded : Nat
  status : Option UnitStatus

def publicUnit (u : UnitState) : PublicUnit where
  plan := publicPlan u.container.plan
  files := u.container.files
  layersAdded := u.container.layersAdded
  status := u.status

@[simp] theorem inputs_publicModel (m : Model) : (publicModel m).inputs = m.inputs := by
  simp [Model.inputs, Model.sdiRemotes, publicModel]

theorem publicModel_withVersions (pk : Packages) (m : Model) :
    publicModel (m.withVersions pk) = (publicModel m).withVersions pk := by
  have hs : (publicModel m).sdiRemotes = m.sdiRemotes := congrArg Inputs.sdi (inputs_publicModel m)
  unfold Model.withVersions
  simp only [hs]
  simp [publicModel, Relation.written_written]

@[simp] theorem publicModel_storeSecret (pass : String) (m : Model) :
    publicModel (storeSecret pass m) = publicModel m := by
  unfold publicModel storeSecret
  rcases m.clientSecret with _ | ⟨rel, rels⟩
  · rfl
  · simp [Relation.written, dicts.erase_insert]

@[simp] theorem publicModel_withSecret (s : HookState) :
    publicModel (withSecret s).model = publicModel s.model := by
  rcases withSecret_model s with h | ⟨-, pass, h⟩ <;> rw [h]
  exact publicModel_storeSecret pass s.model

theorem publicModel_published (c : Charm) (secret : String) (m : Model) :
    publicModel (published c secret m) = published c "" (publicModel m) := by
  simp [publicModel, published, sendData, Relation.written_written, publicClient, oidcClientData]

/-- What a run of `main` sends looks the same for every secret. -/
theorem publicModel_sentState (c : Charm) (s : HookState) : publicModel (sentState c s).model =
    published c "" ((publicModel s.model).withVersions c.packages) := by
  change publicModel (published c _ (withSecret (s.onModel _)).model) = _
  rw [publicModel_published, publicModel_withSecret, ← publicModel_withVersions]
  rfl

theorem publicModel_changed (m : Model) (ch : Change) :
    publicModel (m.changed ch) = (publicModel m).changed ch := by
  rcases ch with _ | ⟨e, i, app⟩ | ⟨e, i⟩ | ⟨e, i, bag⟩
  · rfl
  · cases e
    case oidcClient =>
      simp [publicModel, Model.changed, Model.added, Relation.added, Relation.written,
        SdiSide.empty]
    all_goals rfl
  · cases e
    case oidcClient =>
      simp [publicModel, Model.changed, Model.removed, Relation.removed, Relation.written,
        List.filter_map, Function.comp_def]
    all_goals rfl
  · cases e
    case oidcClient =>
      simp only [publicModel, Model.changed, Model.remoteWritten, Relation.remoteWritten,
        Relation.written, List.map_map]
      congr 1
      apply List.map_congr_left
      intro r _
      by_cases hr : r.id = i <;> simp [hr]
    all_goals rfl

/-! ## The environment and its secret -/

/-- The secret is one entry of the variables, and the other entries do not mention it. -/
theorem retEnvVars_split (config : Config) (issuerUrl : String) :
    ∃ l l' : List (Sigma fun _ : String => EnvValue), ∀ secret,
      retEnvVars config secret issuerUrl =
        List.toFinmap (l ++ ⟨"CLIENT_SECRET", .str secret⟩ :: l') :=
  ⟨[_, _, _, _], _, fun _ => rfl⟩

theorem environmentOf_erase (config : Config) (v w issuerUrl : String) (bundle : Bool) :
    (environmentOf config v issuerUrl bundle).erase "CLIENT_SECRET" =
      (environmentOf config w issuerUrl bundle).erase "CLIENT_SECRET" := by
  obtain ⟨l, l', hsplit⟩ := retEnvVars_split config issuerUrl
  apply Finmap.ext_lookup
  intro x
  by_cases hx : x = "CLIENT_SECRET"
  · subst hx
    rw [Finmap.lookup_erase, Finmap.lookup_erase]
  · have hret : (retEnvVars config v issuerUrl).lookup x =
        (retEnvVars config w issuerUrl).lookup x := by
      rw [hsplit, hsplit]
      exact dicts.lookup_toFinmap_of_ne l l' hx _ _
    rw [Finmap.lookup_erase_ne hx, Finmap.lookup_erase_ne hx]
    unfold environmentOf
    cases bundle with
    | false => exact hret
    | true =>
      by_cases hb : x = "CA_BUNDLE"
      · subst hb
        simp
      · simpa [Finmap.lookup_insert_of_ne _ hb] using hret

/-- The secret that a plan carries. -/
def planSecret (plan : Dict Service) : Option EnvValue :=
  (plan.lookup pebbleServiceName).bind (·.environment.lookup "CLIENT_SECRET")

/-- Of two plans, the first one carries `v` exactly when the second one carries `w`. -/
def Match (v w : String) (plan plan' : Dict Service) : Prop :=
  planSecret plan = some (.str v) ↔ planSecret plan' = some (.str w)

theorem service_ext {e e' : Service} (h : publicService e = publicService e')
    (hs : e.environment.lookup "CLIENT_SECRET" = e'.environment.lookup "CLIENT_SECRET") :
    e = e' := by
  obtain ⟨override, summary, command, environment, startup, workingDir⟩ := e
  obtain ⟨override', summary', command', environment', startup', workingDir'⟩ := e'
  simp only [publicService, Service.mk.injEq] at h
  obtain ⟨rfl, rfl, rfl, he, rfl, rfl⟩ := h
  rw [dicts.eq_of_erase he hs]

/-- Two entries that differ in the secret only. -/
structure Entries (v w : String) (e e' : Service) : Prop where
  same : publicService e = publicService e'
  left : e.environment.lookup "CLIENT_SECRET" = some (.str v)
  right : e'.environment.lookup "CLIENT_SECRET" = some (.str w)

theorem Entries.symm {v w : String} {e e' : Service} (h : Entries v w e e') : Entries w v e' e :=
  ⟨h.same.symm, h.right, h.left⟩

variable {v w : String} {e e' : Service} {plan plan' : Dict Service}

theorem planSecret_singleton (e : Service) : planSecret (Finmap.singleton pebbleServiceName e) =
    e.environment.lookup "CLIENT_SECRET" := by
  unfold planSecret
  rw [Finmap.lookup_singleton_eq]
  rfl

/-- A plan that is the layer of its own secret, next to a plan that looks the same. -/
theorem plan_eq_of_match (hp : publicPlan plan = publicPlan plan') (hm : Match v w plan plan')
    (he : Entries v w e e') (h : plan = Finmap.singleton pebbleServiceName e) :
    plan' = Finmap.singleton pebbleServiceName e' := by
  have hsecret : planSecret plan' = some (.str w) := by
    apply hm.mp
    rw [h, planSecret_singleton, he.left]
  apply Finmap.ext_lookup
  intro name
  have hname := congrFun hp name
  unfold publicPlan at hname
  by_cases hn : name = pebbleServiceName
  · subst hn
    rw [h, Finmap.lookup_singleton_eq] at hname
    obtain ⟨e₁, hl, hpub⟩ := Option.map_eq_some_iff.mp hname.symm
    have hs : e₁.environment.lookup "CLIENT_SECRET" = some (.str w) := by
      unfold planSecret at hsecret
      rwa [hl] at hsecret
    rw [hl, Finmap.lookup_singleton_eq]
    exact congrArg some (service_ext (hpub.trans he.same) (hs.trans he.right.symm))
  · have hnone : ∀ e, (Finmap.singleton pebbleServiceName e : Dict Service).lookup name = none :=
      fun e => Finmap.lookup_eq_none.mpr (by simpa using hn)
    rw [h, hnone] at hname
    rw [hnone]
    exact Option.map_eq_none_iff.mp hname.symm

theorem plan_eq_iff (hp : publicPlan plan = publicPlan plan') (hm : Match v w plan plan')
    (he : Entries v w e e') : plan = Finmap.singleton pebbleServiceName e ↔
      plan' = Finmap.singleton pebbleServiceName e' :=
  ⟨plan_eq_of_match hp hm he, plan_eq_of_match hp.symm hm.symm he.symm⟩

theorem publicPlan_union (hp : publicPlan plan = publicPlan plan') (he : Entries v w e e') :
    publicPlan (Finmap.singleton pebbleServiceName e ∪ plan) =
      publicPlan (Finmap.singleton pebbleServiceName e' ∪ plan') := by
  funext name
  unfold publicPlan
  by_cases hn : name = pebbleServiceName
  · subst hn
    rw [dicts.lookup_union_of_lookup Finmap.lookup_singleton_eq,
      dicts.lookup_union_of_lookup Finmap.lookup_singleton_eq]
    exact congrArg some he.same
  · rw [Finmap.lookup_union_right (by simpa using hn), Finmap.lookup_union_right (by simpa using hn)]
    exact congrFun hp name

theorem match_union (he : Entries v w e e') (plan plan' : Dict Service) :
    Match v w (Finmap.singleton pebbleServiceName e ∪ plan)
      (Finmap.singleton pebbleServiceName e' ∪ plan') := by
  unfold Match planSecret
  rw [dicts.lookup_union_of_lookup Finmap.lookup_singleton_eq,
    dicts.lookup_union_of_lookup Finmap.lookup_singleton_eq]
  exact iff_of_true he.left he.right

/-! ## Two hooks side by side -/

/-- The two units look the same, and get the same answers from outside. -/
structure Alike (s t : HookState) : Prop where
  unit : publicUnit s.unit = publicUnit t.unit
  canConnect : s.tape.canConnect = t.tape.canConnect
  replan : s.tape.replan = t.tape.replan

/-- Before a secret is stored, a plan carries secrets of `S` only. After that, each plan
carries the secret of its run, or neither does. -/
def Stage (S : Set String) (m n : Model) (plan plan' : Dict Service) : Prop :=
  (storedSecret m = none ∧ storedSecret n = none ∧
    (∀ v, planSecret plan = some (.str v) → v ∈ S) ∧
    ∀ v, planSecret plan' = some (.str v) → v ∈ S) ∨
  ∃ v w, storedSecret m = some v ∧ storedSecret n = some w ∧ Match v w plan plan'

/-- The run has stored a secret of `S`. -/
def Spoiled (S : Set String) (m : Model) : Prop := ∃ v, storedSecret m = some v ∧ v ∈ S

/-- The two states share what is public. The units do so unless a run is spoiled. -/
structure Shared (S : Set String) (s t : HookState) : Prop where
  model : publicModel s.model = publicModel t.model
  rest : Spoiled S s.model ∨ Spoiled S t.model ∨
    (Alike s t ∧ Stage S s.model t.model s.unit.container.plan t.unit.container.plan)

variable {S : Set String} {s t : HookState} {c : Charm} {ev : Event}

theorem Shared.inputs (h : Shared S s t) : s.model.inputs = t.model.inputs := by
  rw [← inputs_publicModel, h.model, inputs_publicModel]

theorem Shared.setStatus (h : Shared S s t) (status : UnitStatus) :
    Shared S (s.setStatus status) (t.setStatus status) := by
  refine ⟨h.model, h.rest.imp_right (Or.imp_right ?_)⟩
  rintro ⟨⟨hu, hc, hr⟩, hst⟩
  simp only [publicUnit, PublicUnit.mk.injEq] at hu
  refine ⟨⟨?_, hc, hr⟩, hst⟩
  simp [publicUnit, HookState.setStatus, hu.1, hu.2.1, hu.2.2.1]

/-- A write that does the same to both models, and leaves the stored secret. -/
theorem Shared.onModel {f : Model → Model}
    (hf : ∀ m n, publicModel m = publicModel n → publicModel (f m) = publicModel (f n))
    (hst : ∀ m, storedSecret (f m) = storedSecret m) (h : Shared S s t) :
    Shared S (s.onModel f) (t.onModel f) := by
  refine ⟨hf _ _ h.model, ?_⟩
  unfold Spoiled Stage
  change (∃ v, storedSecret (f s.model) = _ ∧ _) ∨ (∃ v, storedSecret (f t.model) = _ ∧ _) ∨
    (_ ∧ ((storedSecret (f s.model) = _ ∧ storedSecret (f t.model) = _ ∧ _) ∨
      ∃ v w, storedSecret (f s.model) = _ ∧ storedSecret (f t.model) = _ ∧ _))
  rw [hst, hst]
  exact h.rest.imp_right (Or.imp_right fun ⟨⟨hu, hc, hr⟩, hstage⟩ => ⟨⟨hu, hc, hr⟩, hstage⟩)

theorem shared_withVersions (pk : Packages) (h : Shared S s t) :
    Shared S (s.onModel (·.withVersions pk)) (t.onModel (·.withVersions pk)) := by
  refine h.onModel (fun m n he => ?_) (fun m => rfl)
  rw [publicModel_withVersions, publicModel_withVersions, he]

theorem sentState_answers (c : Charm) (s : HookState) :
    (sentState c s).tape.canConnect = s.tape.canConnect ∧
      (sentState c s).tape.replan = s.tape.replan := by
  unfold sentState withSecret
  split <;> exact ⟨rfl, rfl⟩

theorem sentState_unit (c : Charm) (s : HookState) : (sentState c s).unit = s.unit := by
  simp [sentState, HookState.onModel]

theorem alike_sentState (h : Alike s t) : Alike (sentState c s) (sentState c t) := by
  obtain ⟨hc, hr⟩ := sentState_answers c s
  obtain ⟨hc', hr'⟩ := sentState_answers c t
  refine ⟨?_, hc.trans (h.canConnect.trans hc'.symm), hr.trans (h.replan.trans hr'.symm)⟩
  rw [sentState_unit, sentState_unit]
  exact h.unit

theorem alike_askedConnect (h : Alike s t) : Alike s.askedConnect t.askedConnect :=
  ⟨h.unit, congrArg Stream'.tail h.canConnect, h.replan⟩

theorem alike_askedReplan (h : Alike s t) : Alike s.askedReplan t.askedReplan :=
  ⟨h.unit, h.canConnect, congrArg Stream'.tail h.replan⟩

theorem alike_afterBundle (h : Alike s t) (hi : s.model.inputs = t.model.inputs) :
    Alike (afterBundle s) (afterBundle t) := by
  have hconfig : s.model.config = t.model.config := congrArg Inputs.config hi
  have hu := h.unit
  simp only [publicUnit, PublicUnit.mk.injEq] at hu
  unfold afterBundle
  rw [hconfig, h.canConnect]
  split
  · exact h
  · split
    · refine ⟨?_, congrArg Stream'.tail h.canConnect, h.replan⟩
      simp [publicUnit, HookState.onContainer, HookState.askedConnect, hu.1, hu.2.1, hu.2.2.1,
        hu.2.2.2]
    · exact alike_askedConnect h

/-- `update_layer` does the same in both runs: it applies its layer in both or in neither. -/
theorem updateLayer_alike (pk : Packages) {layer layer' : Layer}
    (hl : layer.services = Finmap.singleton pebbleServiceName e)
    (hl' : layer'.services = Finmap.singleton pebbleServiceName e') (he : Entries v w e e')
    (h : Alike s t) (hm : Match v w s.unit.container.plan t.unit.container.plan) :
    ∃ s' t', ((updateLayer pk pebbleServiceName layer).run s = .ok () s' ∧
        (updateLayer pk pebbleServiceName layer').run t = .ok () t' ∨
      ∃ status, (updateLayer pk pebbleServiceName layer).run s =
          .error (.errorWithStatus status) s' ∧
        (updateLayer pk pebbleServiceName layer').run t = .error (.errorWithStatus status) t') ∧
      Alike s' t' ∧ Match v w s'.unit.container.plan t'.unit.container.plan := by
  have hu := h.unit
  simp only [publicUnit, PublicUnit.mk.injEq] at hu
  obtain ⟨hplan, hfiles, hlayers, hstatus⟩ := hu
  have hunion := publicPlan_union hplan he
  have hmatch := match_union he s.unit.container.plan t.unit.container.plan
  rw [run_updateLayer, run_updateLayer, ← h.canConnect, ← h.replan, hl, hl']
  by_cases hc : s.tape.canConnect.head = false
  · rw [if_pos hc, if_pos hc]
    exact ⟨_, _, .inr ⟨_, rfl, rfl⟩, alike_askedConnect h, hm⟩
  · rw [if_neg hc, if_neg hc]
    by_cases hp : s.unit.container.plan = Finmap.singleton pebbleServiceName e
    · rw [if_pos hp, if_pos ((plan_eq_iff hplan hm he).mp hp)]
      exact ⟨_, _, .inl ⟨rfl, rfl⟩, alike_askedConnect h, hm⟩
    · rw [if_neg hp, if_neg (fun hp' => hp ((plan_eq_iff hplan hm he).mpr hp'))]
      have hasked := alike_askedReplan (alike_askedConnect h)
      by_cases hr : s.tape.replan.head = true
      · rw [if_pos hr, if_pos hr]
        refine ⟨_, _, .inl ⟨rfl, rfl⟩, ⟨?_, hasked.canConnect, hasked.replan⟩, ?_⟩
        · simp [publicUnit, HookState.onContainer, HookState.askedConnect, HookState.askedReplan,
            hl, hl', hunion, hfiles, hlayers, hstatus]
        · simpa [HookState.onContainer, HookState.askedConnect, HookState.askedReplan, hl, hl']
            using hmatch
      · rw [if_neg hr, if_neg hr]
        refine ⟨_, _, .inr ⟨_, rfl, rfl⟩, ⟨?_, hasked.canConnect, hasked.replan⟩, ?_⟩
        · simp [publicUnit, HookState.onContainer, HookState.askedConnect, HookState.askedReplan,
            hl, hl', hunion, hfiles, hlayers, hstatus]
        · simpa [HookState.onContainer, HookState.askedConnect, HookState.askedReplan, hl, hl']
            using hmatch

/-! ## Two runs of `main` -/

theorem pushesBundle_alike (h : Alike s t) (hi : s.model.inputs = t.model.inputs) :
    pushesBundle (sentState c s) = pushesBundle (sentState c t) := by
  have hsent : (sentState c s).model.inputs = (sentState c t).model.inputs := by
    rw [inputs_sentState, inputs_sentState, hi]
  have hconfig : (sentState c s).model.config = (sentState c t).model.config :=
    congrArg Inputs.config hsent
  unfold pushesBundle
  rw [hconfig, (sentState_answers c s).1, (sentState_answers c t).1, h.canConnect]

/-- The layers of the two runs differ in the secret only. -/
theorem layers_alike (h : Alike s t) (hi : s.model.inputs = t.model.inputs)
    (d : dex_oidc_config.DexOidcConfigObject) : ∃ e e', Entries (secretOf s) (secretOf t) e e' ∧
      (layerAt c s d).services = Finmap.singleton pebbleServiceName e ∧
      (layerAt c t d).services = Finmap.singleton pebbleServiceName e' := by
  have hconfig : s.model.config = t.model.config := congrArg Inputs.config hi
  refine ⟨_, _, ⟨?_, (environmentOf_lookup _ _ _ _).2.1, (environmentOf_lookup _ _ _ _).2.1⟩,
    rfl, rfl⟩
  rw [← pushesBundle_alike h hi, ← hconfig]
  unfold publicService serviceEntry
  simp only [environmentOf_erase s.model.config (secretOf s) (secretOf t)]

/-- Unless a run stores a secret of `S`, the plans match for the secrets of the runs. -/
theorem stage_match {plan plan' : Dict Service} (h : Stage S s.model t.model plan plan')
    (hs : secretOf s ∉ S) (ht : secretOf t ∉ S) :
    Match (secretOf s) (secretOf t) plan plan' := by
  rcases h with ⟨-, -, hp, hp'⟩ | ⟨v, w, hv, hw, hm⟩
  · exact iff_of_false (fun he => hs (hp _ he)) (fun he => ht (hp' _ he))
  · rwa [secretOf_eq hv, secretOf_eq hw]

theorem spoiled_secretOf (h : Spoiled S s.model) : secretOf s ∈ S := by
  obtain ⟨v, hv, hS⟩ := h
  rwa [secretOf_eq hv]

/-- Where the checks pass, both runs send the same, and store their secrets. -/
theorem main_together_of_checks {d : dex_oidc_config.DexOidcConfigObject} (h : Shared S s t)
    (hs : ChecksPass c s.model d) (ht : ChecksPass c t.model d) :
    Together (Shared S) ((main c ev).run s) ((main c ev).run t) := by
  have hmodel : publicModel (sentState c s).model = publicModel (sentState c t).model := by
    rw [publicModel_sentState, publicModel_sentState, h.model]
  have hstored := storedSecret_sentState (c := c) hs.peer
  have hstored' := storedSecret_sentState (c := c) ht.peer
  by_cases hS : secretOf s ∈ S ∨ secretOf t ∈ S
  · obtain ⟨s', hrun⟩ := main_ends ev hs
    obtain ⟨t', hrun'⟩ := main_ends ev ht
    have hm := main_of_checks hs hrun
    have hm' := main_of_checks ht hrun'
    rw [hrun, hrun']
    refine .ok () ⟨by rw [hm, hm', hmodel], ?_⟩
    rcases hS with hS | hS
    · exact .inl ⟨_, hm ▸ hstored, hS⟩
    · exact .inr (.inl ⟨_, hm' ▸ hstored', hS⟩)
  · rw [not_or] at hS
    obtain ⟨halike, hstage⟩ := (h.rest.resolve_left fun hsp => hS.1 (spoiled_secretOf hsp)).resolve_left
      fun hsp => hS.2 (spoiled_secretOf hsp)
    obtain ⟨e, e', he, hl, hl'⟩ := layers_alike (c := c) halike h.inputs d
    have hsent : (sentState c s).model.inputs = (sentState c t).model.inputs := by
      rw [inputs_sentState, inputs_sentState, h.inputs]
    have hmatch := stage_match hstage hS.1 hS.2
    rw [← sentState_container c s, ← sentState_container c t, ← afterBundle_plan (sentState c s),
      ← afterBundle_plan (sentState c t)] at hmatch
    obtain ⟨s', t', hrun, halike', hmatch'⟩ := updateLayer_alike c.packages hl hl' he
      (alike_afterBundle (alike_sentState halike) hsent) hmatch
    rw [run_main, run_main, run_reconcile_of_checks hs, run_reconcile_of_checks ht]
    have hshared : Shared S s' t' := by
      have hleaves : s'.model = (sentState c s).model ∧ t'.model = (sentState c t).model := by
        rcases hrun with ⟨hr, hr'⟩ | ⟨status, hr, hr'⟩
        · exact ⟨(updateLayer_leaves (.ok hr)).1.trans (afterBundle_model _),
            (updateLayer_leaves (.ok hr')).1.trans (afterBundle_model _)⟩
        · exact ⟨(updateLayer_leaves (.error hr)).1.trans (afterBundle_model _),
            (updateLayer_leaves (.error hr')).1.trans (afterBundle_model _)⟩
      refine ⟨by rw [hleaves.1, hleaves.2, hmodel], .inr (.inr ⟨halike', .inr ?_⟩)⟩
      exact ⟨_, _, hleaves.1 ▸ hstored, hleaves.2 ▸ hstored', hmatch'⟩
    rcases hrun with ⟨hr, hr'⟩ | ⟨status, hr, hr'⟩ <;> rw [hr, hr']
    · exact .ok () (hshared.setStatus _)
    · exact .ok () (hshared.setStatus _)

/-- Two runs of `main` take the same branch and leave the same behind. -/
theorem main_together (ev : Event) (h : Shared S s t) :
    Together (Shared S) ((main c ev).run s) ((main c ev).run t) := by
  have hi := h.inputs
  have hdex : t.model.dexOidcConfig = s.model.dexOidcConfig :=
    (congrArg Inputs.dexOidcConfig hi).symm
  have hsdi : t.model.sdiRemotes = s.model.sdiRemotes := (congrArg Inputs.sdi hi).symm
  have hpeer : s.model.clientSecret = [] ↔ t.model.clientSecret = [] := by
    have hp : (!s.model.clientSecret.isEmpty) = !t.model.clientSecret.isEmpty :=
      congrArg Inputs.peer hi
    rw [← List.isEmpty_iff, ← List.isEmpty_iff, Bool.not_inj hp]
  cases hl : c.isLeader with
  | false =>
    rw [main_of_notLeader ev hl, main_of_notLeader ev hl]
    exact .ok () (h.setStatus _)
  | true =>
    cases hd : dexCheck s.model.dexOidcConfig with
    | error e =>
      rw [main_of_dexCheck_error ev hl hd, main_of_dexCheck_error ev hl (hdex ▸ hd)]
      cases e with
      | errorWithStatus status => exact .ok () (h.setStatus status)
      | _ => exact .error _ h
    | ok u =>
      cases hv : c.packages.versionError s.model.sdiRemotes with
      | some e =>
        rw [main_of_versionError ev hl hd hv,
          main_of_versionError ev hl (hdex ▸ hd) (hsdi ▸ hv)]
        have hs := shared_withVersions c.packages h
        cases e with
        | noVersionsListed message => exact .ok () (hs.setStatus _)
        | noCompatibleVersions message => exact .ok () (hs.setStatus _)
        | other exception => exact .error _ hs
      | none =>
        by_cases hp : s.model.clientSecret = []
        · rw [main_of_noPeer ev hl hd hv hp,
            main_of_noPeer ev hl (hdex ▸ hd) (hsdi ▸ hv) (hpeer.mp hp)]
          exact .ok () ((shared_withVersions c.packages h).setStatus _)
        · obtain ⟨d, hg⟩ := (dexCheck_ok_iff _).mp hd
          have hs : ChecksPass c s.model d := ⟨hl, hg, hv, hp⟩
          exact main_together_of_checks h hs (hs.of_inputs hi.symm)

/-! ## Two hooks -/

theorem constructed_shared (h : Shared S s t) :
    Shared S (constructed c s) (constructed c t) := by
  unfold constructed
  split
  · refine h.onModel (fun m n he => ?_) (fun m => rfl)
    change submitConfig _ (publicModel m) = submitConfig _ (publicModel n)
    rw [he]
  · exact h

/-- A write of the forward-auth library. -/
theorem forwardAuth_shared (f : List (Relation Databag) → List (Relation Databag))
    (h : Shared S s t) :
    Shared S (s.onModel fun m => { m with forwardAuth := f m.forwardAuth })
      (t.onModel fun m => { m with forwardAuth := f m.forwardAuth }) := by
  refine h.onModel (fun m n he => ?_) (fun m => rfl)
  change { publicModel m with forwardAuth := f (publicModel m).forwardAuth } =
    { publicModel n with forwardAuth := f (publicModel n).forwardAuth }
  rw [he]

theorem forwardAuthHandlers_together {id : Nat} {x : Handler Unit}
    (hmem : x ∈ forwardAuthHandlers c id) (h : Shared S s t) :
    Together (Shared S) (x.run s) (x.run t) := by
  simp only [forwardAuthHandlers, List.mem_cons, List.not_mem_nil, or_false] at hmem
  have hf : t.model.forwardAuth = s.model.forwardAuth := (congrArg Model.forwardAuth h.model).symm
  rcases hmem with rfl | rfl | rfl
  · unfold forward_auth.onRelationCreatedEvent
    cases c.isLeader
    · exact .ok () h
    · exact .ok () (forwardAuth_shared _ h)
  · unfold forward_auth.onRelationChangedEvent
    cases c.isLeader
    · exact .ok () h
    · cases hc : forward_auth.compareApps s.model.forwardAuth with
      | ok evs => simpa [hf, hc] using .ok () h
      | error e => simpa [hf, hc] using .error e h
  · unfold forward_auth.onRelationBrokenEvent
    cases c.isLeader
    · exact .ok () h
    · exact .ok () (forwardAuth_shared _ h)

theorem observer_together {x : Handler Unit} (hmem : x ∈ observers c ev) (h : Shared S s t) :
    Together (Shared S) (x.run s) (x.run t) := by
  rcases observers_cases c ev with ho | ⟨id, y, hy, ho⟩ | ⟨ev', ho⟩ | ⟨ev₁, ev₂, ho⟩ <;>
    rw [ho] at hmem
  · cases hmem
  · rw [← List.mem_singleton.mp hmem] at hy
    exact forwardAuthHandlers_together hy h
  · rw [List.mem_singleton.mp hmem]
    exact main_together ev' h
  · rcases List.mem_cons.mp hmem with hx | hx
    · rw [hx]
      exact main_together ev₁ h
    · rw [List.mem_singleton.mp hx]
      exact main_together ev₂ h

theorem runAll_together (xs : List (Handler Unit))
    (hxs : ∀ x ∈ xs, ∀ s t, Shared S s t → Together (Shared S) (x.run s) (x.run t))
    (h : Shared S s t) : Together (Shared S) ((runAll xs).run s) ((runAll xs).run t) := by
  induction xs generalizing s t with
  | nil => exact .ok () h
  | cons x xs ih =>
    refine together_bind (hxs x List.mem_cons_self s t h) fun _ s' t' h' => ?_
    exact ih (fun y hy => hxs y (List.mem_cons_of_mem _ hy)) h'

theorem dispatch_together (c : Charm) (ev : Event) (h : Shared S s t) :
    Together (Shared S) ((dispatch c ev).run s) ((dispatch c ev).run t) := by
  rw [dispatch, run_bind_ok (run_ambientMeshIngress c s), run_bind_ok (run_ambientMeshIngress c t)]
  exact runAll_together _ (fun x hx _ _ => observer_together hx) (constructed_shared h)

/-! ## Two applications -/

variable {ι : Type} [DecidableEq ι] {dep : Deployment} {a b : Application ι}

/-- What can be seen of an application. -/
structure View (ι : Type) where
  model : Model
  units : ι → PublicUnit
  leader : Option ι

def view (a : Application ι) : View ι where
  model := publicModel a.model
  units u := publicUnit (a.units u)
  leader := a.leader

/-- Two steps that differ in what `_gen_pass` draws, and in nothing else. -/
inductive SameButDraws : Step ι → Step ι → Prop
  | elect (l : Option ι) : SameButDraws (.elect l) (.elect l)
  | change (ch : Change) : SameButDraws (.change ch) (.change ch)
  | restart (u : ι) : SameButDraws (.restart u) (.restart u)
  | hook (u : ι) (ev : Event) {tape tape' : Tape} (hc : tape.canConnect = tape'.canConnect)
      (hr : tape.replan = tape'.replan) : SameButDraws (.hook u ev tape) (.hook u ev tape')

/-- The secrets that the plans of the units carry. -/
def plannedSecrets (a : Application ι) : Set String :=
  { v | ∃ u, planSecret (a.units u).container.plan = some (.str v) }

/-- The two applications look the same, and each plan is at the stage of its run. -/
structure Twins (S : Set String) (a b : Application ι) : Prop where
  view : view a = view b
  stage : (storedSecret a.model = none ∧ storedSecret b.model = none ∧
      (∀ u v, planSecret (a.units u).container.plan = some (.str v) → v ∈ S) ∧
      ∀ u v, planSecret (b.units u).container.plan = some (.str v) → v ∈ S) ∨
    ∃ v w, storedSecret a.model = some v ∧ storedSecret b.model = some w ∧
      ∀ u, Match v w (a.units u).container.plan (b.units u).container.plan

/-- What two runs keep: they are twins, unless one of them has stored a secret of `S`. -/
def Kept (S : Set String) (a b : Application ι) : Prop :=
  Spoiled S a.model ∨ Spoiled S b.model ∨ Twins S a b

omit [DecidableEq ι] in
theorem Twins.unit (h : Twins S a b) (u : ι) : publicUnit (a.units u) = publicUnit (b.units u) :=
  congrFun (congrArg View.units h.view) u

omit [DecidableEq ι] in
theorem Twins.shared (h : Twins S a b) (u : ι) {tape tape' : Tape}
    (hc : tape.canConnect = tape'.canConnect) (hr : tape.replan = tape'.replan) :
    Shared S ⟨a.model, a.units u, tape⟩ ⟨b.model, b.units u, tape'⟩ := by
  refine ⟨congrArg View.model h.view, .inr (.inr ⟨⟨h.unit u, hc, hr⟩, ?_⟩)⟩
  rcases h.stage with ⟨ha, hb, hpa, hpb⟩ | ⟨v, w, hv, hw, hm⟩
  · exact .inl ⟨ha, hb, hpa u, hpb u⟩
  · exact .inr ⟨v, w, hv, hw, hm u⟩

theorem spoiled_step (st : Step ι) (h : Spoiled S a.model) :
    Spoiled S (step dep a st).model := by
  obtain ⟨v, hv, hS⟩ := h
  exact ⟨v, client_secret.step_keeps st v hv, hS⟩

omit [DecidableEq ι] in
/-- The plans of the units that a hook does not run on, after the hook. -/
theorem Twins.others (h : Twins S a b) {m n : Model} (hm : client_secret.Keeps a.model m)
    (hn : client_secret.Keeps b.model n) (hv : storedSecret m = some v)
    (hw : storedSecret n = some w) (hvS : v ∉ S) (hwS : w ∉ S) (u : ι) :
    Match v w (a.units u).container.plan (b.units u).container.plan := by
  rcases h.stage with ⟨-, -, hpa, hpb⟩ | ⟨v', w', hv', hw', hmatch⟩
  · exact iff_of_false (fun he => hvS (hpa u v he)) (fun he => hwS (hpb u w he))
  · have hvv := (hm v' hv').symm.trans hv
    have hww := (hn w' hw').symm.trans hw
    cases hvv
    cases hww
    exact hmatch u

/-- Two hooks of one unit that end side by side, put back into the applications. -/
theorem Twins.after (h : Twins S a b) (u : ι) {s t : HookState}
    (hka : client_secret.Keeps a.model s.model) (hkb : client_secret.Keeps b.model t.model)
    (hs : Shared S s t) : Kept S { a.withUnit u s.unit with model := s.model }
      { b.withUnit u t.unit with model := t.model } := by
  by_cases hsa : Spoiled S s.model
  · exact .inl hsa
  by_cases hsb : Spoiled S t.model
  · exact .inr (.inl hsb)
  obtain ⟨halike, hstage⟩ := (hs.rest.resolve_left hsa).resolve_left hsb
  refine .inr (.inr ⟨?_, ?_⟩)
  · simp only [secrecy.view, Application.withUnit, View.mk.injEq]
    refine ⟨hs.model, ?_, congrArg View.leader h.view⟩
    funext x
    by_cases hx : x = u
    · subst hx
      simpa using halike.unit
    · simpa [hx] using h.unit x
  · rcases hstage with ⟨hna, hnb, hpa, hpb⟩ | ⟨v, w, hv, hw, hm⟩
    · -- Nothing is stored now, so nothing was stored before.
      have hbefore : ∀ x, (∀ v, planSecret (a.units x).container.plan = some (.str v) → v ∈ S) ∧
          ∀ v, planSecret (b.units x).container.plan = some (.str v) → v ∈ S := by
        rcases h.stage with ⟨-, -, ha, hb⟩ | ⟨v, w, hv, -, -⟩
        · exact fun x => ⟨ha x, hb x⟩
        · exact absurd (hka v hv) (by simp [hna])
      refine .inl ⟨hna, hnb, fun x v hv => ?_, fun x v hv => ?_⟩ <;> by_cases hx : x = u
      · subst hx
        exact hpa v (by simpa [Application.withUnit] using hv)
      · exact (hbefore x).1 v (by simpa [Application.withUnit, hx] using hv)
      · subst hx
        exact hpb v (by simpa [Application.withUnit] using hv)
      · exact (hbefore x).2 v (by simpa [Application.withUnit, hx] using hv)
    · refine .inr ⟨v, w, hv, hw, fun x => ?_⟩
      have hvS : v ∉ S := fun hS => hsa ⟨v, hv, hS⟩
      have hwS : w ∉ S := fun hS => hsb ⟨w, hw, hS⟩
      by_cases hx : x = u
      · subst hx
        simpa [Application.withUnit] using hm
      · simpa [Application.withUnit, hx] using h.others hka hkb hv hw hvS hwS x

theorem hook_kept (h : Twins S a b) (u : ι) (ev : Event) {tape tape' : Tape}
    (hc : tape.canConnect = tape'.canConnect) (hr : tape.replan = tape'.replan) :
    Kept S (step dep a (.hook u ev tape)) (step dep b (.hook u ev tape')) := by
  have hcharm : b.charmOf dep u = a.charmOf dep u := by
    unfold Application.charmOf
    rw [show a.leader = b.leader from congrArg View.leader h.view]
  have hka := client_secret.step_keeps (d := dep) (a := a) (.hook u ev tape)
  have hkb := client_secret.step_keeps (d := dep) (a := b) (.hook u ev tape')
  have htog := dispatch_together (a.charmOf dep u) ev (h.shared u hc hr)
  simp only [step, hcharm] at hka hkb ⊢
  generalize hda : (dispatch (a.charmOf dep u) ev).run ⟨a.model, a.units u, tape⟩ = p at htog
  generalize hdb : (dispatch (a.charmOf dep u) ev).run ⟨b.model, b.units u, tape'⟩ = q at htog
  cases htog with
  | error e hs =>
    have hsa : hook (a.charmOf dep u) ev tape a.model (a.units u) = _ := hook_of_raises hda
    have hsb : hook (a.charmOf dep u) ev tape' b.model (b.units u) = _ := hook_of_raises hdb
    rw [hsa, hsb]
    simp only [Application.withUnit, Function.update_eq_self]
    exact .inr (.inr h)
  | ok _ hs =>
    have hsa : hook (a.charmOf dep u) ev tape a.model (a.units u) = _ := hook_of_ends hda
    have hsb : hook (a.charmOf dep u) ev tape' b.model (b.units u) = _ := hook_of_ends hdb
    rw [hsa] at hka ⊢
    rw [hsb] at hkb ⊢
    exact h.after u hka hkb hs

/-- Containers of one unit that restart: both plans are empty then. -/
theorem Twins.restarted (h : Twins S a b) (u : ι) :
    Twins S (step dep a (.restart u)) (step dep b (.restart u)) := by
  have hu := h.unit u
  simp only [publicUnit, PublicUnit.mk.injEq] at hu
  have hnone : planSecret ∅ = none := rfl
  constructor
  · simp only [secrecy.view, step, Application.withUnit, View.mk.injEq]
    refine ⟨congrArg View.model h.view, ?_, congrArg View.leader h.view⟩
    funext x
    by_cases hx : x = u
    · subst hx
      simp [publicUnit, UnitState.restarted, Container.restarted, hu.2.2.1, hu.2.2.2]
    · simpa [hx] using h.unit x
  · rcases h.stage with ⟨ha, hb, hpa, hpb⟩ | ⟨v, w, hv, hw, hm⟩
    · left
      refine ⟨ha, hb, ?_, ?_⟩ <;> intro x v hv <;> by_cases hx : x = u
      · simp [step, Application.withUnit, hx, UnitState.restarted, Container.restarted,
          hnone] at hv
      · exact hpa x v (by simpa [step, Application.withUnit, hx] using hv)
      · simp [step, Application.withUnit, hx, UnitState.restarted, Container.restarted,
          hnone] at hv
      · exact hpb x v (by simpa [step, Application.withUnit, hx] using hv)
    · right
      refine ⟨v, w, hv, hw, ?_⟩
      intro x
      by_cases hx : x = u
      · simp [step, Application.withUnit, hx, UnitState.restarted, Container.restarted, Match,
          hnone]
      · simpa [step, Application.withUnit, hx] using hm x

theorem step_kept {st st' : Step ι} (h : Kept S a b) (hst : SameButDraws st st') :
    Kept S (step dep a st) (step dep b st') := by
  rcases h with h | h | h
  · exact .inl (spoiled_step st h)
  · exact .inr (.inl (spoiled_step st' h))
  · cases hst with
    | elect l =>
      refine .inr (.inr ⟨?_, h.stage⟩)
      simp only [secrecy.view, step, View.mk.injEq, and_true]
      exact ⟨congrArg View.model h.view, congrArg View.units h.view⟩
    | change ch =>
      have hm : publicModel a.model = publicModel b.model := congrArg View.model h.view
      have hka := client_secret.keeps_of_eq (Model.changed_clientSecret a.model ch)
      have hkb := client_secret.keeps_of_eq (Model.changed_clientSecret b.model ch)
      refine .inr (.inr ⟨?_, ?_⟩)
      · simp only [secrecy.view, step, View.mk.injEq]
        refine ⟨?_, congrArg View.units h.view, congrArg View.leader h.view⟩
        rw [publicModel_changed, publicModel_changed, hm]
      · simp only [step, hka, hkb]
        exact h.stage
    | hook u ev hc hr => exact hook_kept h u ev hc hr
    | restart u => exact .inr (.inr (h.restarted u))

/-! ## The law of two runs -/

theorem stored_at_the_end (a : Application ι) (steps : List (Step ι)) (n : ℕ) {v : String}
    (h : storedSecret (run (step dep) a (steps.take n)).model = some v) :
    storedSecret (run (step dep) a steps).model = some v := by
  rw [← List.take_append_drop n steps, run_append]
  exact run_keeps (I := fun b : Application ι => storedSecret b.model = some v)
    (fun b st hb => client_secret.step_keeps st v hb) h _

/-- Two runs of an application that differ in the draws of `_gen_pass` look the same after
each step, for plans that do not carry a secret that one of the runs draws and stores. -/
theorem the_client_secret_flows_nowhere_else (dep : Deployment) (a : Application ι)
    (h : storedSecret a.model = none) (steps steps' : List (Step ι))
    (hsame : List.Forall₂ SameButDraws steps steps')
    (hfresh : ∀ v, storedSecret (run (step dep) a steps).model = some v → v ∉ plannedSecrets a)
    (hfresh' : ∀ v, storedSecret (run (step dep) a steps').model = some v → v ∉ plannedSecrets a)
    (n : ℕ) : view (run (step dep) a (steps.take n)) = view (run (step dep) a (steps'.take n)) := by
  have hstart : Kept (plannedSecrets a) a a :=
    .inr (.inr ⟨rfl, .inl ⟨h, h, fun u v hv => ⟨u, hv⟩, fun u v hv => ⟨u, hv⟩⟩⟩)
  have hend : Kept (plannedSecrets a) (run (step dep) a (steps.take n))
      (run (step dep) a (steps'.take n)) :=
    lockstep (fun _ _ _ _ => step_kept) hstart (List.forall₂_take n hsame)
  rcases hend with ⟨v, hv, hS⟩ | ⟨v, hv, hS⟩ | ht
  · exact absurd hS (hfresh v (stored_at_the_end a steps n hv))
  · exact absurd hS (hfresh' v (stored_at_the_end a steps' n hv))
  · exact ht.view

/-! ## Two runs of the sample -/

theorem the_sample_runs_look_the_same :
    let runOf (tape : Tape) : List (Step Bool) := [.hook true .start tape, .elect (some false),
      .hook false .leaderElected tape]
    view (run (step sample.deployment) sample.application (runOf sample.tapeA)) =
      view (run (step sample.deployment) sample.application (runOf sample.tapeB)) := by
  intro runOf
  have hnone : ∀ v, v ∉ plannedSecrets sample.application := by
    rintro v ⟨u, hu⟩
    cases hu
  have hsame : List.Forall₂ SameButDraws (runOf sample.tapeA) (runOf sample.tapeB) :=
    .cons (.hook true .start rfl rfl) (.cons (.elect _) (.cons (.hook false .leaderElected rfl rfl) .nil))
  exact the_client_secret_flows_nowhere_else _ _ (by decide) _ _ hsame (fun v _ => hnone v)
    (fun v _ => hnone v) 3

/-- A plan that carries the secret that the first run draws, before it is stored. -/
def samplePlanned : Application Bool :=
  let env := environmentOf .default (passOf sample.tapeA.choices.head) "http://dex.io/dex" false
  let plan : Dict Service := Finmap.singleton pebbleServiceName (serviceEntry env)
  { sample.application with units := fun _ => ⟨⟨plan, ∅, none, 0⟩, none⟩ }

/-- Nothing is stored at the start. The run that draws what the plan carries finds its layer
there, and the run that draws something else applies it again. -/
theorem a_known_secret_is_not_applied_again :
    let runOf (tape : Tape) := run (step sample.deployment) samplePlanned [.hook true .start tape]
    storedSecret samplePlanned.model = none ∧
      List.Forall₂ SameButDraws [Step.hook true .start sample.tapeA]
        [Step.hook true .start sample.tapeB] ∧
      ((runOf sample.tapeA).units true).container.layersAdded = 0 ∧
      ((runOf sample.tapeB).units true).container.layersAdded = 1 ∧
      view (runOf sample.tapeA) ≠ view (runOf sample.tapeB) := by
  intro runOf
  have h₀ : ((runOf sample.tapeA).units true).container.layersAdded = 0 := by decide +kernel
  have h₁ : ((runOf sample.tapeB).units true).container.layersAdded = 1 := by decide +kernel
  refine ⟨by decide, .cons (.hook true .start rfl rfl) .nil, h₀, h₁, fun h => ?_⟩
  have hlayers := congrArg (fun v : View Bool => (v.units true).layersAdded) h
  change ((runOf sample.tapeA).units true).container.layersAdded =
    ((runOf sample.tapeB).units true).container.layersAdded at hlayers
  rw [h₀, h₁] at hlayers
  cases hlayers

end oidc_gatekeeper.secrecy
