-- The laws of the client secret. One value is stored, by a leader, and never
-- changes again; everything that carries a client secret carries that value.
-- The option `client-secret` of the operator has no part in it.
import OidcGatekeeper.Observed

open handlers runs

namespace oidc_gatekeeper.client_secret

/-! ## The invariant -/

/-- The published payloads carry the stored secret. Before there is one, nothing is
published. -/
def Published (m : Model) : Prop :=
  ∀ r ∈ m.oidcClient, ∀ p, r.ours.data = some p → storedSecret m = some p.secret

/-- The plan of the unit carries the stored secret. Before there is one, the plan has no
service. -/
def Planned (m : Model) (u : UnitState) : Prop :=
  ∀ svc, u.container.plan.lookup pebbleServiceName = some svc →
    ∃ v, storedSecret m = some v ∧ svc.environment.lookup "CLIENT_SECRET" = some (.str v)

/-- A secret that is stored stays stored. -/
def Keeps (m m' : Model) : Prop := ∀ v, storedSecret m = some v → storedSecret m' = some v

theorem keeps_of_eq {m m' : Model} (h : m'.clientSecret = m.clientSecret) :
    storedSecret m' = storedSecret m := by
  rw [storedSecret, storedSecret, h]

/-- The version key of SDI is no payload. -/
theorem mem_withVersions {pk : Packages} {m : Model} {r : Relation (SdiSide OidcClientData)}
    (h : r ∈ (m.withVersions pk).oidcClient) :
    ∃ r' ∈ m.oidcClient, r'.ours.data = r.ours.data := by
  obtain ⟨r', hr', he⟩ := (Relation.mem_written _ _ _).mp h
  exact ⟨r', hr', by rw [← he]⟩

/-! ## One move -/

/-- A move keeps the stored secret, and only the leader stores one. -/
theorem move_stored {c : Charm} {s s' : HookState} (h : Move c s s') :
    Keeps s.model s'.model ∧
      (c.isLeader = false → storedSecret s'.model = storedSecret s.model) := by
  cases h with
  | ambientMesh => exact ⟨fun v hv => hv, fun _ => rfl⟩
  | forwardAuth => exact ⟨fun v hv => hv, fun _ => rfl⟩
  | main ev h =>
    rcases main_leaves h with ⟨-, hm | hm⟩ | ⟨d, hc, hm, -⟩
    · rw [hm]
      exact ⟨fun v hv => hv, fun _ => rfl⟩
    · rw [hm]
      exact ⟨fun v hv => hv, fun _ => rfl⟩
    · rw [hm]
      refine ⟨fun v hv => ?_, fun hl => ?_⟩
      · rw [storedSecret_sentState hc.peer, secretOf_eq hv]
      · rw [hc.leader] at hl
        cases hl

theorem move_published {c : Charm} {s s' : HookState} (h : Move c s s')
    (ha : Published s.model) : Published s'.model := by
  cases h with
  | ambientMesh => exact ha
  | forwardAuth => exact ha
  | main ev h =>
    intro r hr p hp
    rcases main_leaves h with ⟨-, hm | hm⟩ | ⟨d, hc, hm, -⟩ <;> rw [hm] at hr ⊢
    · exact ha r hr p hp
    · obtain ⟨r', hr', he⟩ := mem_withVersions hr
      exact ha r' hr' p (he.trans hp)
    · rw [sentState_oidcClient hr] at hp
      cases hp
      exact storedSecret_sentState hc.peer

theorem move_planned {c : Charm} {s s' : HookState} (h : Move c s s')
    (ha : Planned s.model s.unit) : Planned s'.model s'.unit := by
  cases h with
  | ambientMesh => exact ha
  | forwardAuth => exact ha
  | main ev h =>
    intro svc hsvc
    rcases main_leaves h with ⟨hk, hm⟩ | ⟨d, hc, hm, hk⟩
    · have hst : storedSecret s'.model = storedSecret s.model := by
        rcases hm with hm | hm <;> rw [hm]
        rfl
      rw [hk] at hsvc
      rw [hst]
      exact ha svc hsvc
    · refine ⟨_, by rw [hm, storedSecret_sentState hc.peer], ?_⟩
      rcases hk with hk | hk <;> rw [hk] at hsvc
      · obtain ⟨v, hv, he⟩ := ha svc hsvc
        rw [he, secretOf_eq hv]
      · rw [layerAt_entry] at hsvc
        cases hsvc
        exact (environmentOf_lookup _ _ _ _).2.1

/-! ## One step of the application -/

variable {ι : Type} [DecidableEq ι] {d : Deployment} {a : Application ι}

/-- The payloads and every unit agree with the stored secret. -/
structure AllAgree (a : Application ι) : Prop where
  published : Published a.model
  planned : ∀ u, Planned a.model (a.units u)

theorem step_keeps (st : Step ι) : Keeps a.model (step d a st).model := by
  intro v hv
  cases st with
  | elect l => exact hv
  | restart u => exact hv
  | change ch => exact (keeps_of_eq (Model.changed_clientSecret a.model ch)).trans hv
  | hook u ev tape =>
    exact hook_keeps (P := fun m _ => storedSecret m = some v)
      (fun s s' h => (move_stored h).1 v) ev tape hv

/-- A step that changes the stored secret is a hook of the leader. -/
theorem step_stores {st : Step ι}
    (h : storedSecret (step d a st).model ≠ storedSecret a.model) :
    ∃ u ev tape, st = .hook u ev tape ∧ a.leader = some u := by
  cases st with
  | elect l => exact absurd rfl h
  | restart u => exact absurd rfl h
  | change ch => exact absurd (keeps_of_eq (Model.changed_clientSecret a.model ch)) h
  | hook u ev tape =>
    refine ⟨u, ev, tape, rfl, ?_⟩
    by_contra hl
    apply h
    have hc : (a.charmOf d u).isLeader = false := by simp [Application.charmOf, Deployment.charm, hl]
    exact hook_keeps (P := fun m _ => storedSecret m = storedSecret a.model)
      (fun s s' hm hs => ((move_stored hm).2 hc).trans hs) ev tape rfl

theorem planned_mono {m m' : Model} {u : UnitState} (hk : Keeps m m') (h : Planned m u) :
    Planned m' u := by
  intro svc hsvc
  obtain ⟨v, hv, he⟩ := h svc hsvc
  exact ⟨v, hk v hv, he⟩

theorem step_published (st : Step ι) (h : Published a.model) : Published (step d a st).model := by
  cases st with
  | elect l => exact h
  | restart u => exact h
  | change ch =>
    intro r hr p hp
    rcases Model.mem_changed_oidcClient _ hr with hn | ⟨r', hr', he⟩
    · rw [hn] at hp
      cases hp
    · exact step_keeps (d := d) (.change ch) _ (h r' hr' p (he ▸ hp))
  | hook u ev tape => exact hook_keeps (P := fun m _ => Published m) (fun _ _ => move_published) ev tape h

theorem step_planned (st : Step ι) (h : ∀ u, Planned a.model (a.units u)) :
    ∀ u, Planned (step d a st).model ((step d a st).units u) := by
  intro u
  rcases step_unit d a st u with hu | ⟨-, hu⟩ | ⟨ev, tape, rfl, hu⟩ <;> rw [hu]
  · exact planned_mono (step_keeps st) (h u)
  · intro svc hsvc
    cases hsvc
  · exact hook_keeps (P := Planned) (fun _ _ => move_planned) ev tape (h u)

theorem step_agrees (st : Step ι) (h : AllAgree a) : AllAgree (step d a st) :=
  ⟨step_published st h.published, step_planned st h.planned⟩

/-! ## The laws of a run -/

/-- The application as it was deployed: one peer relation with no secret, nothing
published, and no plan with the service. -/
structure Deployed (a : Application ι) : Prop where
  peer : ∃ rel, a.model.clientSecret = [rel] ∧ "client-secret" ∉ rel.ours
  unpublished : ∀ r ∈ a.model.oidcClient, r.ours.data = none
  unplanned : ∀ u, pebbleServiceName ∉ (a.units u).container.plan

omit [DecidableEq ι] in
theorem deployed_agrees (h : Deployed a) : AllAgree a := by
  refine ⟨fun r hr p hp => ?_, fun u svc hsvc => ?_⟩
  · rw [h.unpublished r hr] at hp
    cases hp
  · exact absurd (Finmap.mem_of_lookup_eq_some hsvc) (h.unplanned u)

/-- The client secret of an application, from the state `a` on. -/
structure SecretLaw (d : Deployment) (a : Application ι) : Prop where
  /-- A stored secret stays as it is, whatever steps come later. -/
  stable : ∀ later v, storedSecret a.model = some v →
    storedSecret (run (step d) a later).model = some v
  /-- Only a hook of the leader stores a secret, and only when there is none. -/
  stored_by_leader : ∀ st, storedSecret (step d a st).model ≠ storedSecret a.model →
    storedSecret a.model = none ∧ ∃ u ev tape, st = .hook u ev tape ∧ a.leader = some u
  /-- Each published `oidc-client` payload carries the stored secret. -/
  payloads : ∀ r ∈ a.model.oidcClient, ∀ p, r.ours.data = some p →
    storedSecret a.model = some p.secret
  /-- So does the plan of each unit that has the service. -/
  plans : ∀ u svc, (a.units u).container.plan.lookup pebbleServiceName = some svc →
    ∃ v, storedSecret a.model = some v ∧ svc.environment.lookup "CLIENT_SECRET" = some (.str v)

theorem run_agrees (h : AllAgree a) (steps : List (Step ι)) : AllAgree (run (step d) a steps) :=
  run_keeps (fun _ st h => step_agrees st h) h steps

/-- One secret for the life of the application, for any number of units and any order of
events, changes and changes of leader. -/
theorem one_client_secret_for_all_units_and_all_time (d : Deployment) (a : Application ι)
    (h : Deployed a) (steps : List (Step ι)) : SecretLaw d (run (step d) a steps) := by
  have ha := run_agrees (d := d) (deployed_agrees h) steps
  generalize run (step d) a steps = b at ha
  refine ⟨fun later v hv => ?_, fun st hst => ⟨?_, step_stores hst⟩, ha.published, ha.planned⟩
  · exact run_keeps (I := fun b : Application ι => storedSecret b.model = some v)
      (fun b st hb => step_keeps st v hb) hv later
  · by_contra hn
    obtain ⟨v, hv⟩ := Option.ne_none_iff_exists'.mp hn
    exact hst ((step_keeps st v hv).trans hv.symm)

theorem sample_deployed : Deployed sample.application where
  peer := ⟨_, rfl, by decide⟩
  unpublished := by decide
  unplanned := by decide

/-- The unit `true` draws a secret, the unit `false` takes over and uses the same one. -/
theorem one_client_secret_sample :
    let steps : List (Step Bool) := [.hook true .start sample.tapeA, .elect (some false),
      .hook false .leaderElected sample.tapeB]
    let a := run (step sample.deployment) sample.application steps
    storedSecret a.model = some (passOf (sample.choicesOf 'A' (by decide))) ∧
      SecretLaw sample.deployment a :=
  ⟨by decide +kernel, one_client_secret_for_all_units_and_all_time _ _ sample_deployed _⟩

/-! ## The option of the operator -/

/-- Everything of the application and of the unit that carries a client secret is there
and carries `v`. -/
structure Carries (v : String) (m : Model) (u : UnitState) : Prop where
  payloads : ∀ r ∈ m.oidcClient, r.ours.data.map (·.secret) = some v
  plan : (u.container.plan.lookup pebbleServiceName).bind
    (·.environment.lookup "CLIENT_SECRET") = some (.str v)

/-- An option that is set is the secret that a hook leaves when `main` ends Active. -/
def OptionHonoured (d : Deployment) (a : Application ι) : Step ι → Prop
  | .hook u ev tape => activeStep d a (.hook u ev tape) = true → a.model.config.clientSecret ≠ "" →
      Carries a.model.config.clientSecret (step d a (.hook u ev tape)).model
        ((step d a (.hook u ev tape)).units u)
  | _ => True

/-- The option is empty, or it is the secret that is stored, or that the hook draws. -/
def OptionMatches (a : Application ι) : Step ι → Prop
  | .hook u _ tape => a.model.config.clientSecret = "" ∨
      a.model.config.clientSecret = secretOf ⟨a.model, a.units u, tape⟩
  | _ => True

/-- A hook that ends Active leaves the stored or drawn secret everywhere. -/
theorem active_carries {u : ι} {ev : Event} {tape : Tape}
    (h : activeStep d a (.hook u ev tape) = true) :
    Carries (secretOf ⟨a.model, a.units u, tape⟩) (step d a (.hook u ev tape)).model
      ((step d a (.hook u ev tape)).units u) := by
  obtain ⟨dex, s₁, s', ha, hm, hu⟩ := activeStep_applied h
  rw [hm, hu]
  refine ⟨fun r hr => ?_, ?_⟩
  · rw [ha.oidcClient r hr]
    rfl
  · rw [ha.entry]
    exact (environmentOf_lookup _ _ _ _).2.1

theorem Carries.unique {m : Model} {u : UnitState} {v w : String} (hv : Carries v m u)
    (hw : Carries w m u) : v = w := by
  have h := hv.plan.symm.trans hw.plan
  cases h
  rfl

theorem honoured_iff (st : Step ι) :
    OptionHonoured d a st ↔ (activeStep d a st = true → OptionMatches a st) := by
  cases st with
  | elect l => exact ⟨fun _ _ => trivial, fun _ => trivial⟩
  | change ch => exact ⟨fun _ _ => trivial, fun _ => trivial⟩
  | restart u => exact ⟨fun _ _ => trivial, fun _ => trivial⟩
  | hook u ev tape =>
    refine ⟨fun h hact => ?_, fun h hact hne => ?_⟩
    · by_cases he : a.model.config.clientSecret = ""
      · exact .inl he
      · exact .inr ((h hact he).unique (active_carries hact))
    · rcases h hact with he | he
      · exact absurd he hne
      · rw [he]
        exact active_carries hact

/-- The code reads the option nowhere. In a run it is honoured exactly when each hook that
ends Active has an empty option, or one that happens to be the stored or drawn secret. -/
theorem the_option_is_honoured_only_by_chance (d : Deployment) (a : Application ι)
    (steps : List (Step ι)) : Meets (OptionHonoured d) (step d) a steps ↔
      Meets (fun b st => activeStep d b st = true → OptionMatches b st) (step d) a steps :=
  ⟨Meets.mono fun _ st => (honoured_iff st).mp, Meets.mono fun _ st => (honoured_iff st).mpr⟩

/-- The operator sets the secret at the deployment. The first hook ends Active and leaves
the secret that it drew. -/
theorem the_option_is_ignored :
    let config := { sample.model.config with clientSecret := "my-secret" }
    let a := step sample.deployment sample.application (.change (.config config))
    ¬ Meets (OptionHonoured sample.deployment) (step sample.deployment) a
      [.hook true .start sample.tapeA] := by
  intro config a h
  have hp := (h.1 (by decide +kernel) (by decide)).plan
  revert hp
  decide +kernel

end oidc_gatekeeper.client_secret
