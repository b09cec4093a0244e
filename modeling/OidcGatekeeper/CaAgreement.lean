-- The law of the CA option after one run of `main` that ends Active. The run asks
-- twice whether the container answers: `service_environment` before it pushes the
-- file and names it, and `update_layer` before it applies the environment.
import OidcGatekeeper.Application

open handlers

namespace oidc_gatekeeper.ca_agreement

/-- The service of the plan names a file exactly when the option is set, and the file that
it names holds the option. -/
structure Agrees (option : String) (k : Container) (svc : Service) : Prop where
  planned : k.plan.lookup pebbleServiceName = some svc
  named : "CA_BUNDLE" ∈ svc.environment ↔ option ≠ ""
  holds : option ≠ "" → ∃ path, svc.environment.lookup "CA_BUNDLE" = some (.str path) ∧
    k.files.lookup path = some option

variable {c : Charm} {ev : Event} {s s' : HookState}

/-- The plan and the files that an Active run leaves. -/
theorem active_leaves (h : (main c ev).run s = .ok () s')
    (ha : s'.unit.status = some activeStatus) : ∃ issuerUrl,
      s'.unit.container.plan.lookup pebbleServiceName =
        some (serviceEntry (environmentOf s.model.config (secretOf s) issuerUrl
          (pushesBundle (sentState c s)))) ∧
      s'.unit.container.files = (afterBundle (sentState c s)).unit.container.files := by
  obtain ⟨d, s₁, -, hu, rfl⟩ := main_active h ha
  refine ⟨d.issuerUrl, ?_, (updateLayer_leaves (.ok hu)).2.1⟩
  change s₁.unit.container.plan.lookup pebbleServiceName = _
  rw [updateLayer_ok_plan hu, layerAt_entry]

/-! ## The law -/

/-- After a run that ends Active, the option, the plan and the file agree exactly when the
option is empty, or the container gave its first answer of the run with yes. -/
theorem the_bundle_agrees_iff_the_first_answer_is_yes (c : Charm) (ev : Event)
    (s s' : HookState) (h : (main c ev).run s = .ok () s')
    (ha : s'.unit.status = some activeStatus) :
    (∃ svc, Agrees s.model.config.caBundle s'.unit.container svc) ↔
      s.model.config.caBundle = "" ∨ s.tape.canConnect.head = true := by
  obtain ⟨issuerUrl, hplan, hfiles⟩ := active_leaves h ha
  have hpush := pushesBundle_sentState c s
  constructor
  · rintro ⟨svc, hsvc, hnamed, -⟩
    rw [hplan] at hsvc
    cases hsvc
    by_cases hb : s.model.config.caBundle = ""
    · exact .inl hb
    · have hmem := (caBundle_mem_environmentOf _ _ _ _).mp (hnamed.mpr hb)
      rw [hpush] at hmem
      exact .inr (Bool.and_eq_true_iff.mp hmem).2
  · intro hyes
    refine ⟨_, hplan, ?_, ?_⟩
    · change "CA_BUNDLE" ∈ environmentOf _ _ _ _ ↔ _
      rw [caBundle_mem_environmentOf, hpush]
      rcases hyes with hb | hc
      · simp [hb]
      · simp [hc]
    · intro hb
      have hp : pushesBundle (sentState c s) = true := by
        simp [hpush, hb, hyes.resolve_left hb]
      obtain ⟨-, -, -, -, -, -, hl⟩ :=
        environmentOf_lookup s.model.config (secretOf s) issuerUrl (pushesBundle (sentState c s))
      rw [if_pos hp] at hl
      refine ⟨caBundlePath, hl, ?_⟩
      rw [hfiles, afterBundle_pushes hp, sentState_config]

/-! ## A container that comes up late -/

/-- The sample deployment with a bundle, on a container that gives these answers. -/
def sampleHook (answers : Stream' Bool) : HookState where
  model := { sample.model with config := { Config.default with caBundle := "bundle" } }
  unit := sample.freshUnit
  tape := { sample.tapeA with canConnect := answers }

theorem the_bundle_agrees_in_the_sample : ∃ s',
    (main (sample.deployment.charm true) .start).run (sampleHook (.const true)) = .ok () s' ∧
      ∃ svc, Agrees "bundle" s'.unit.container svc :=
  ⟨_, rfl, (the_bundle_agrees_iff_the_first_answer_is_yes (sample.deployment.charm true) .start
    (sampleHook (.const true)) _ rfl rfl).mpr (.inr rfl)⟩

/-- The container comes up between the two questions. The unit is Active, and its plan names
no bundle. -/
theorem a_late_container_runs_without_the_bundle : ∃ s',
    (main (sample.deployment.charm true) .start).run (sampleHook (.cons false (.const true))) =
      .ok () s' ∧
      s'.unit.status = some activeStatus ∧
      (s'.unit.container.plan.lookup pebbleServiceName).map
        (fun svc => svc.environment.lookup "CA_BUNDLE") = some none ∧
      ¬ ∃ svc, Agrees "bundle" s'.unit.container svc := by
  refine ⟨_, rfl, rfl, by decide +kernel, ?_⟩
  rintro ⟨svc, hplanned, hnamed, -⟩
  have hmem : "CA_BUNDLE" ∈ svc.environment := hnamed.mpr (by decide)
  have hnone : svc.environment.lookup "CA_BUNDLE" = none := by
    cases hplanned
    decide +kernel
  exact Finmap.lookup_eq_none.mp hnone hmem

end oidc_gatekeeper.ca_agreement
