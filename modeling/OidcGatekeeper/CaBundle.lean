-- The law of the CA bundle: which bundle the running process trusts. The file
-- has a fixed path, so a new bundle alone changes nothing in the plan, and a
-- replan restarts only a process whose plan entry changed.
import OidcGatekeeper.Reconcile

open handlers runs

namespace oidc_gatekeeper.ca_bundle

open settled

/-! ## The process of a container -/

/-- A running process runs what the plan says. -/
def InStep (k : Container) : Prop :=
  ∀ p, k.process = some p → k.plan.lookup pebbleServiceName = some p.service

/-- A running process has read this bundle when it started. -/
def Loaded (bundle : String) (k : Container) : Prop :=
  ∀ p, k.process = some p → p.caBundle = some bundle

/-- A running process has read this bundle, or runs another service entry than this one. -/
def WillLoad (bundle : String) (entry : Service) (k : Container) : Prop :=
  ∀ p, k.process = some p → p.caBundle = some bundle ∨ p.service ≠ entry

instance (bundle : String) (entry : Service) (k : Container) :
    Decidable (WillLoad bundle entry k) :=
  match h : k.process with
  | none => .isTrue fun p hp => by simp [h] at hp
  | some p => decidable_of_iff (p.caBundle = some bundle ∨ p.service ≠ entry)
      ⟨fun hw q hq => by rw [h] at hq; cases hq; exact hw, fun hw => hw p h⟩

theorem Loaded.willLoad {bundle : String} {k : Container} (h : Loaded bundle k)
    (entry : Service) : WillLoad bundle entry k := fun p hp => .inl (h p hp)

theorem replanned_inStep {k : Container} {e : Service}
    (h : k.plan.lookup pebbleServiceName = some e) : InStep (k.replanned pebbleServiceName) := by
  intro p hp
  obtain ⟨p', hp', hs⟩ := Container.replanned_process h
  rw [hp] at hp'
  cases hp'
  rw [Container.replanned_plan, h, hs]

/-- A replan leaves a process that runs the entry already, and starts one that reads the
bundle anew otherwise. -/
theorem replanned_loaded {k : Container} {entry : Service} {bundle : String}
    (h : k.plan.lookup pebbleServiceName = some entry)
    (henv : entry.environment.lookup "CA_BUNDLE" = some (.str caBundlePath))
    (hfile : k.files.lookup caBundlePath = some bundle) (hw : WillLoad bundle entry k) :
    Loaded bundle (k.replanned pebbleServiceName) := by
  have hstart : (k.started entry).caBundle = some bundle := by
    unfold Container.started
    rw [henv]
    exact hfile
  intro p hp
  unfold Container.replanned at hp
  rw [h] at hp
  cases hk : k.process with
  | none =>
    simp only [hk] at hp
    cases hp
    exact hstart
  | some q =>
    simp only [hk] at hp
    split at hp
    · rename_i he
      rw [hk] at hp
      cases hp
      exact (hw _ hk).resolve_right (not_not_intro he)
    · cases hp
      exact hstart

/-! ## `update_layer` -/

variable {pk : Packages} {layer : Layer} {entry : Service} {s s₁ s' : HookState} {c : Charm}
  {d : dex_oidc_config.DexOidcConfigObject} {ev : Event}

theorem updateLayer_inStep (hlayer : layer.services = Finmap.singleton pebbleServiceName entry)
    (h : Leaves (updateLayer pk pebbleServiceName layer) s s')
    (hin : InStep s.unit.container) : InStep s'.unit.container := by
  rcases updateLayer_cases h with ⟨rfl, -⟩ | rfl | rfl
  · exact hin
  · exact replanned_inStep (Container.addLayer_lookup hlayer _)
  · intro p hp
    cases hp

/-- Whatever `update_layer` does on a container that answers, no process runs on with
another bundle. -/
theorem updateLayer_loaded {bundle : String}
    (hlayer : layer.services = Finmap.singleton pebbleServiceName entry)
    (henv : entry.environment.lookup "CA_BUNDLE" = some (.str caBundlePath))
    (hfile : s.unit.container.files.lookup caBundlePath = some bundle)
    (hconnect : s.tape.canConnect.head = true) (hin : InStep s.unit.container)
    (hw : WillLoad bundle entry s.unit.container)
    (h : Leaves (updateLayer pk pebbleServiceName layer) s s') :
    Loaded bundle s'.unit.container := by
  rcases updateLayer_cases h with ⟨rfl, hp⟩ | rfl | rfl
  · intro p hrun
    change s.unit.container.process = some p at hrun
    refine (hw p hrun).resolve_right (not_not_intro ?_)
    -- The plan is the layer, and the process runs what the plan says.
    have hlook := hin p hrun
    rw [hp hconnect, hlayer, Finmap.lookup_singleton_eq] at hlook
    exact (Option.some.inj hlook).symm
  · exact replanned_loaded (Container.addLayer_lookup hlayer _) henv hfile hw
  · intro p hp
    cases hp

/-! ## A run of `main` -/

theorem layerAt_services (c : Charm) (s : HookState) (d : dex_oidc_config.DexOidcConfigObject) :
    ∃ entry, (layerAt c s d).services = Finmap.singleton pebbleServiceName entry := ⟨_, rfl⟩

theorem afterBundle_process (s : HookState) :
    (afterBundle s).unit.container.process = s.unit.container.process := by
  unfold afterBundle
  split
  · rfl
  · split <;> rfl

theorem afterBundle_inStep (h : InStep s.unit.container) :
    InStep (afterBundle (sentState c s)).unit.container := by
  intro p hp
  rw [afterBundle_process, sentState_container] at hp
  rw [afterBundle_plan, sentState_container]
  exact h p hp

theorem main_inStep (h : (main c ev).run s = .ok () s') (hin : InStep s.unit.container) :
    InStep s'.unit.container := by
  rcases main_ended h with ⟨status, rfl | rfl⟩ | ⟨d, s₁, status, hc, hu, rfl⟩
  · exact hin
  · exact hin
  · obtain ⟨entry, he⟩ := layerAt_services c s d
    have hin₁ := updateLayer_inStep he hu (afterBundle_inStep hin)
    exact hin₁

/-- Where the checks pass, a run of `main` on a container that answers leaves no process
with another bundle than the one of the config. -/
theorem main_loaded (hc : ChecksPass c s.model d) (hs : s.tape.Steady true)
    (hb : s.model.config.caBundle ≠ "") (hin : InStep s.unit.container)
    (hw : WillLoad s.model.config.caBundle (targetEntry s.model.inputs d.issuerUrl (secretOf s))
      s.unit.container) (h : (main c ev).run s = .ok () s') :
    Loaded s.model.config.caBundle s'.unit.container := by
  obtain ⟨s₁, status, rfl, hu⟩ := main_layer hc h
  have henv : (targetEntry s.model.inputs d.issuerUrl (secretOf s)).environment.lookup
      "CA_BUNDLE" = some (.str caBundlePath) := by
    obtain ⟨-, -, -, -, -, -, hl⟩ := environmentOf_lookup s.model.config (secretOf s) d.issuerUrl
      (s.model.config.caBundle ≠ "")
    rw [if_pos (by simpa using hb)] at hl
    exact hl
  have htape := (sentState_tape c s).trans (afterBundle_tape (sentState c s))
  have hwill : WillLoad s.model.config.caBundle
      (targetEntry s.model.inputs d.issuerUrl (secretOf s))
      (afterBundle (sentState c s)).unit.container := by
    intro p hp
    rw [afterBundle_process, sentState_container] at hp
    exact hw p hp
  have hload := updateLayer_loaded (layerAt_steady hs) henv (afterBundle_files hs hb)
    (htape.steady hs).head (afterBundle_inStep hin) hwill hu
  exact hload

/-! ## One step -/

/-- A hook of `main` on a container that answers, where it ends Active, leaves no process
with another bundle than the one of the config. -/
theorem active_loaded (hs : s.tape.Steady true) (hb : s.model.config.caBundle ≠ "")
    (hin : InStep s.unit.container) (ha : Applied c s s₁ s' d)
    (hw : WillLoad s.model.config.caBundle (targetEntry s.model.inputs d.issuerUrl (secretOf s))
      s.unit.container) : Loaded s.model.config.caBundle s'.unit.container := by
  obtain ⟨ev, hrun⟩ := ha.ran
  have hc₁ : ChecksPass c s₁.model d := ha.checks.of_inputs ha.inputs
  have hs₁ := (lastStart_tape ha.start).steady hs
  -- What the last run of `main` starts from, after one run of `main` or none.
  have hstart : InStep s₁.unit.container ∧ WillLoad s.model.config.caBundle
      (targetEntry s.model.inputs d.issuerUrl (secretOf s)) s₁.unit.container := by
    rcases ha.start with rfl | hfirst
    · rw [constructed_unit]
      exact ⟨hin, hw⟩
    · have hi := inputs_constructed c s
      have hconfig : (constructed c s).model.config = s.model.config := congrArg Inputs.config hi
      have hin₀ : InStep (constructed c s).unit.container := by rwa [constructed_unit]
      have hload := main_loaded (ha.checks.of_inputs hi) (by rwa [Tape.Steady, constructed_tape])
        (by rwa [hconfig]) hin₀
        (by rwa [hconfig, hi, secretOf_constructed, constructed_unit]) hfirst
      rw [hconfig] at hload
      exact ⟨main_inStep hfirst hin₀, hload.willLoad _⟩
  have hload := main_loaded hc₁ hs₁ (by rwa [ha.config]) hstart.1
    (by rw [ha.config, ha.inputs, ha.secret]; exact hstart.2) hrun
  rwa [ha.config] at hload

variable {ι : Type} [DecidableEq ι] {dep : Deployment} {a : Application ι}

/-- After a hook that ends Active, a running process has read the bundle of the config. -/
def Trusts (dep : Deployment) (a : Application ι) : Step ι → Prop
  | .hook u ev tape => activeStep dep a (.hook u ev tape) = true → a.model.config.caBundle ≠ "" →
      Loaded a.model.config.caBundle ((step dep a (.hook u ev tape)).units u).container
  | _ => True

/-- The container answers through the whole hook. -/
def Reachable : Step ι → Prop
  | .hook _ _ tape => tape.Steady true
  | _ => True

/-- When `main` runs with a bundle in the config and its checks pass, so that it builds the
layer: a process that runs has read that bundle, or something else makes the environment
differ from the one that it runs with. -/
def Noticed (dep : Deployment) (a : Application ι) : Step ι → Prop
  | .hook u ev tape => observedByMain ev = true → a.model.config.caBundle ≠ "" →
      ∀ d, ChecksPass (a.charmOf dep u) a.model d →
        WillLoad a.model.config.caBundle
          (targetEntry a.model.inputs d.issuerUrl (secretOf ⟨a.model, a.units u, tape⟩))
          (a.units u).container
  | _ => True

theorem move_inStep (h : Move c s s') (hin : InStep s.unit.container) :
    InStep s'.unit.container := by
  cases h with
  | ambientMesh => exact hin
  | forwardAuth => exact hin
  | main ev h => exact main_inStep h hin

theorem step_inStep (st : Step ι) (h : ∀ u, InStep (a.units u).container) :
    ∀ u, InStep ((step dep a st).units u).container := by
  intro u
  rcases step_unit dep a st u with hu | ⟨-, hu⟩ | ⟨ev, tape, -, hu⟩ <;> rw [hu]
  · exact h u
  · intro p hp
    cases hp
  · exact hook_keeps (P := fun _ u => InStep u.container) (fun _ _ => move_inStep) ev tape (h u)

theorem step_trusts (st : Step ι) (h : ∀ u, InStep (a.units u).container)
    (hr : Reachable st) (hn : Noticed dep a st) : Trusts dep a st := by
  cases st with
  | elect l => trivial
  | change ch => trivial
  | restart u => trivial
  | hook u ev tape =>
    intro hact hb
    obtain ⟨d, s₁, s', ha, hm, hu⟩ := activeStep_applied hact
    have hw := hn (endsActive_observed hact) hb d ha.checks
    rw [hu]
    exact active_loaded (s := ⟨a.model, a.units u, tape⟩) hr hb (h u) ha hw

/-! ## The law of a run -/

/-- In a run on containers that answer, where each new bundle comes with another change of
the environment or finds no process that runs, the process trusts the bundle of the config
whenever `main` ends Active. -/
theorem the_process_trusts_the_bundle_while_its_change_is_noticed (dep : Deployment)
    (a : Application ι) (h : ∀ u, InStep (a.units u).container) (steps : List (Step ι))
    (hreach : ∀ st ∈ steps, Reachable st) (hn : Meets (Noticed dep) (step dep) a steps) :
    Meets (Trusts dep) (step dep) a steps := by
  have hinv := hn.with_inv (I := fun b : Application ι => ∀ u, InStep (b.units u).container)
    (fun _ st h _ => step_inStep st h) h
  have hmeets : Meets (fun _ => Reachable) (step dep) a steps := meets_of_forall hreach
  exact (hmeets.and hinv).mono fun _ st h => step_trusts st h.2.1 h.1 h.2.2

/-- The sample deployment, set up with one bundle and started. -/
def sampleRun : List (Step Bool) :=
  [.change (.config { Config.default with caBundle := "first" }), .hook true .start sample.tapeA]

theorem the_process_trusts_the_first_bundle :
    Meets (Trusts sample.deployment) (step sample.deployment) sample.application sampleRun :=
  the_process_trusts_the_bundle_while_its_change_is_noticed _ _
    (fun _ _ hp => by cases hp) _ (by simp [sampleRun, Reachable, Tape.Steady]; rfl)
    ⟨trivial, ⟨fun _ _ _ _ _ hp => (by cases hp), trivial⟩⟩

/-- The operator changes the bundle. The unit is Active with the new file, and the process
still trusts the old bundle. -/
theorem a_rotated_bundle_is_not_loaded :
    let steps := sampleRun ++
      [.change (.config { Config.default with caBundle := "second" }),
        .hook true .configChanged sample.tapeA]
    let b := run (step sample.deployment) sample.application steps
    (b.units true).status = some activeStatus ∧
      (b.units true).container.files.lookup caBundlePath = some "second" ∧
      (b.units true).container.process.map (·.caBundle) = some (some "first") ∧
      ¬ Meets (Trusts sample.deployment) (step sample.deployment) sample.application steps := by
  intro steps b
  have hprocess : (b.units true).container.process.map (·.caBundle) = some (some "first") := by
    decide +kernel
  refine ⟨by decide +kernel, by decide +kernel, hprocess, fun h => ?_⟩
  have hlast := (meets_append.mp h).2.2.1 (by decide +kernel) (by decide +kernel)
  obtain ⟨p, hp, hb⟩ := Option.map_eq_some_iff.mp hprocess
  have hb' := hlast p hp
  rw [hb] at hb'
  exact absurd hb' (by decide +kernel)

end oidc_gatekeeper.ca_bundle
