-- Hooks of the events that `main` observes. Nothing that the charm writes is an
-- input of its own checks, so every run of `main` in a hook sees the inputs that
-- the hook began with, and the last run decides what the hook leaves.
import OidcGatekeeper.Application

open handlers

namespace oidc_gatekeeper

/-! ## The inputs of `main` -/

/-- What the checks of `main`, the payloads and the layer read, next to the secret. -/
structure Inputs where
  config : Config
  dexOidcConfig : List (Relation Unit)
  sdi : SdiRemotes
  peer : Bool
  deriving DecidableEq

def Model.inputs (m : Model) : Inputs where
  config := m.config
  dexOidcConfig := m.dexOidcConfig
  sdi := m.sdiRemotes
  peer := !m.clientSecret.isEmpty

@[simp] theorem inputs_withVersions (pk : Packages) (m : Model) :
    (m.withVersions pk).inputs = m.inputs := by
  simp [Model.inputs]

@[simp] theorem inputs_storeSecret (pass : String) (m : Model) :
    (storeSecret pass m).inputs = m.inputs := by
  have hp : (storeSecret pass m).clientSecret.isEmpty = m.clientSecret.isEmpty := by
    unfold storeSecret
    cases m.clientSecret <;> rfl
  simp [Model.inputs, hp]

@[simp] theorem inputs_withSecret (s : HookState) :
    (withSecret s).model.inputs = s.model.inputs := by
  rcases withSecret_model s with h | ⟨-, pass, h⟩ <;> rw [h]
  exact inputs_storeSecret pass s.model

@[simp] theorem inputs_published (c : Charm) (secret : String) (m : Model) :
    (published c secret m).inputs = m.inputs := by
  simp [Model.inputs]

@[simp] theorem inputs_sentState (c : Charm) (s : HookState) :
    (sentState c s).model.inputs = s.model.inputs := by
  change (published c (secretOf s) (withSecret (s.onModel _)).model).inputs = _
  rw [inputs_published, inputs_withSecret]
  exact inputs_withVersions _ _

theorem main_inputs {c : Charm} {ev : Event} {s s' : HookState}
    (h : (main c ev).run s = .ok () s') : s'.model.inputs = s.model.inputs := by
  rcases main_leaves h with ⟨-, hm | hm⟩ | ⟨d, -, hm, -⟩ <;> rw [hm]
  · exact inputs_withVersions _ _
  · exact inputs_sentState c s

theorem move_inputs {c : Charm} {s s' : HookState} (h : Move c s s') :
    s'.model.inputs = s.model.inputs := by
  cases h with
  | ambientMesh => rfl
  | forwardAuth => rfl
  | main ev h => exact main_inputs h

/-- A hook changes none of the inputs. -/
theorem hook_inputs (c : Charm) (ev : Event) (tape : Tape) (m : Model) (u : UnitState) :
    (hook c ev tape m u).1.inputs = m.inputs :=
  hook_keeps (P := fun m' _ => m'.inputs = m.inputs) (fun _ _ h he => (move_inputs h).trans he)
    ev tape rfl

/-- Two models with equal inputs pass the same checks. -/
theorem ChecksPass.of_inputs {c : Charm} {m m' : Model}
    {d : dex_oidc_config.DexOidcConfigObject} (h : ChecksPass c m d) (he : m'.inputs = m.inputs) :
    ChecksPass c m' d := by
  simp only [Model.inputs, Inputs.mk.injEq] at he
  obtain ⟨-, hd, hs, hp⟩ := he
  refine ⟨h.leader, hd ▸ h.dex, hs ▸ h.versions, fun hn => h.peer ?_⟩
  simpa [hn] using hp

/-! ## The runs of `main` in a hook -/

theorem observers_observed (c : Charm) {ev : Event} (h : observedByMain ev = true) :
    observers c ev = [main c ev] ∨
      observers c ev = [main c .dexOidcConfigUpdated, main c ev] := by
  unfold observers
  rw [if_pos h]
  rcases ev with _ | _ | _ | _ | _ | ⟨e, k, id⟩ | _ | _
  case relation => cases e <;> cases k <;> first | exact .inl rfl | exact .inr rfl | cases h
  all_goals exact .inl rfl

/-- The state in which the last run of `main` starts: after the constructor, or after the
run of `main` for the custom event of the Dex library. -/
def LastStart (c : Charm) (s s₁ : HookState) : Prop :=
  s₁ = constructed c s ∨ (main c .dexOidcConfigUpdated).run (constructed c s) = .ok () s₁

/-- A hook of `main` that ends, ends where its last run of `main` ends. -/
theorem dispatch_observed {c : Charm} {ev : Event} {s s' : HookState}
    (ho : observedByMain ev = true) (h : (dispatch c ev).run s = .ok () s') :
    ∃ s₁, LastStart c s s₁ ∧ (main c ev).run s₁ = .ok () s' := by
  unfold dispatch at h
  rw [run_bind_ok (run_ambientMeshIngress c s)] at h
  have hlast : ∀ {t}, (runAll [main c ev]).run t = .ok () s' → (main c ev).run t = .ok () s' := by
    intro t ht
    cases hr : (main c ev).run t with
    | ok _ _ =>
      rw [runAll, run_bind_ok hr] at ht
      exact ht
    | error _ _ =>
      rw [runAll, run_bind_error hr] at ht
      cases ht
  rcases observers_observed c ho with hobs | hobs <;> rw [hobs] at h
  · exact ⟨_, .inl rfl, hlast h⟩
  · cases hr : (main c .dexOidcConfigUpdated).run (constructed c s) with
    | ok _ s₁ =>
      rw [runAll, run_bind_ok hr] at h
      exact ⟨s₁, .inr hr, hlast h⟩
    | error _ _ =>
      rw [runAll, run_bind_error hr] at h
      cases h

theorem secretOf_eq {s : HookState} {v : String} (h : storedSecret s.model = some v) :
    secretOf s = v := by
  rw [secretOf, h]
  rfl

@[simp] theorem secretOf_constructed (c : Charm) (s : HookState) :
    secretOf (constructed c s) = secretOf s := by
  unfold constructed
  split <;> rfl

@[simp] theorem inputs_constructed (c : Charm) (s : HookState) :
    (constructed c s).model.inputs = s.model.inputs := by
  unfold constructed
  split <;> rfl

theorem lastStart_inputs {c : Charm} {s s₁ : HookState} (h : LastStart c s s₁) :
    s₁.model.inputs = s.model.inputs := by
  rcases h with rfl | h
  · exact inputs_constructed c s
  · exact (main_inputs h).trans (inputs_constructed c s)

/-- Where the checks pass, the last run of `main` has the secret of the first one. -/
theorem lastStart_secret {c : Charm} {s s₁ : HookState} {d : dex_oidc_config.DexOidcConfigObject}
    (h : LastStart c s s₁) (hc : ChecksPass c s.model d) : secretOf s₁ = secretOf s := by
  rcases h with rfl | h
  · exact secretOf_constructed c s
  · have hc₀ : ChecksPass c (constructed c s).model d := hc.of_inputs (inputs_constructed c s)
    have hm := main_of_checks hc₀ h
    rw [← secretOf_constructed c s]
    exact secretOf_eq (hm ▸ storedSecret_sentState hc₀.peer)

/-- A hook of `main` ends where the checks pass. -/
theorem dispatch_ends {c : Charm} {ev : Event} {s : HookState}
    {d : dex_oidc_config.DexOidcConfigObject} (ho : observedByMain ev = true)
    (hc : ChecksPass c s.model d) : ∃ s', (dispatch c ev).run s = .ok () s' := by
  have hc₀ : ChecksPass c (constructed c s).model d := hc.of_inputs (inputs_constructed c s)
  rcases observers_observed c ho with hobs | hobs
  · obtain ⟨s', hr⟩ := main_ends ev hc₀
    exact ⟨s', by
      rw [dispatch, run_bind_ok (run_ambientMeshIngress c s), hobs, runAll, run_bind_ok hr]
      rfl⟩
  · obtain ⟨s₁, hr₁⟩ := main_ends .dexOidcConfigUpdated hc₀
    obtain ⟨s', hr⟩ := main_ends ev (hc₀.of_inputs (main_inputs hr₁))
    exact ⟨s', by
      rw [dispatch, run_bind_ok (run_ambientMeshIngress c s), hobs, runAll, run_bind_ok hr₁,
        runAll, run_bind_ok hr]
      rfl⟩

/-- A hook of an event that `main` does not observe leaves the unit as it was. -/
theorem hook_unobserved {c : Charm} {ev : Event} (ho : observedByMain ev = false) (tape : Tape)
    (m : Model) (u : UnitState) : (hook c ev tape m u).2 = u := by
  have hobs : observers c ev = [] ∨
      ∃ id, ∃ h ∈ forwardAuthHandlers c id, observers c ev = [h] := by
    rcases ev with _ | _ | _ | _ | _ | ⟨e, k, id⟩ | _ | _
    case relation =>
      cases e <;> cases k
      case forwardAuth.created | forwardAuth.changed | forwardAuth.broken =>
        exact .inr ⟨id, _, by simp [forwardAuthHandlers], rfl⟩
      all_goals first | exact .inl rfl | cases ho
    case other => exact .inl rfl
    all_goals cases ho
  have hu := constructed_unit c ⟨m, u, tape⟩
  unfold hook dispatch
  rw [run_bind_ok (run_ambientMeshIngress c ⟨m, u, tape⟩)]
  rcases hobs with hobs | ⟨id, h, hmem, hobs⟩ <;> rw [hobs]
  · exact hu
  · rcases run_forwardAuthHandlers hmem (constructed c ⟨m, u, tape⟩) with
      ⟨s', hr, -, hs⟩ | ⟨e, hr⟩
    · rw [runAll, run_bind_ok hr]
      exact hs.trans hu
    · rw [runAll, run_bind_error hr]
      exact hu

/-- A hook of `main` on a unit that does not lead sets the status, and does nothing else. -/
theorem hook_of_follower {c : Charm} {ev : Event} (hl : c.isLeader = false)
    (ho : observedByMain ev = true) (s : HookState) :
    hook c ev s.tape s.model s.unit = (s.model, (s.setStatus waitingForLeadership).unit) := by
  have hinit : (ambientMeshIngress c).run s = .ok () s := by
    rw [run_ambientMeshIngress, constructed, if_neg (by simp [hl])]
  suffices hrun : (dispatch c ev).run s = .ok () (s.setStatus waitingForLeadership) from
    hook_of_ends hrun
  unfold dispatch
  rw [run_bind_ok hinit]
  rcases observers_observed c ho with hobs | hobs <;> rw [hobs, runAll]
  · rw [run_bind_ok (main_of_notLeader ev hl)]
    rfl
  · rw [run_bind_ok (main_of_notLeader _ hl), runAll, run_bind_ok (main_of_notLeader ev hl)]
    rfl

/-! ## Steady answers -/

/-- The container gives the same answer to each `can_connect` of the hook. -/
def Tape.Steady (t : Tape) (ready : Bool) : Prop := t.canConnect = .const ready

/-- Each replan of the hook succeeds. -/
def Tape.Replans (t : Tape) : Prop := t.replan = .const true

theorem Tape.Steady.head {t : Tape} {ready : Bool} (h : t.Steady ready) :
    t.canConnect.head = ready := by
  rw [h]
  rfl

theorem Tape.UsedUp.steady {t t' : Tape} {ready : Bool} (h : t.UsedUp t') (hs : t.Steady ready) :
    t'.Steady ready := by
  obtain ⟨n, hn⟩ := h.canConnect
  rw [Tape.Steady, hn, hs, Stream'.drop_const]

theorem Tape.UsedUp.replans {t t' : Tape} (h : t.UsedUp t') (hr : t.Replans) : t'.Replans := by
  obtain ⟨n, hn⟩ := h.replan
  rw [Tape.Replans, hn, hr, Stream'.drop_const]

theorem lastStart_tape {c : Charm} {s s₁ : HookState} (h : LastStart c s s₁) :
    s.tape.UsedUp s₁.tape := by
  rcases h with rfl | h
  · rw [constructed_tape]
    exact .refl _
  · have ht := main_tape h
    rwa [constructed_tape] at ht

/-! ## Hooks that end Active -/

/-- The hook runs `main`, raises nothing, and leaves the unit Active. -/
def endsActive (c : Charm) (ev : Event) (s : HookState) : Bool :=
  observedByMain ev && match (dispatch c ev).run s with
    | .ok _ s' => decide (s'.unit.status = some activeStatus)
    | .error _ _ => false

theorem endsActive_observed {c : Charm} {ev : Event} {s : HookState}
    (h : endsActive c ev s = true) : observedByMain ev = true :=
  (Bool.and_eq_true_iff.mp h).1

/-- What such a hook has done in its last run of `main`, which started in `s₁`. -/
structure Applied (c : Charm) (s s₁ s' : HookState)
    (d : dex_oidc_config.DexOidcConfigObject) : Prop where
  checks : ChecksPass c s.model d
  start : LastStart c s s₁
  ran : ∃ ev, (main c ev).run s₁ = .ok () s'
  inputs : s₁.model.inputs = s.model.inputs
  secret : secretOf s₁ = secretOf s
  layer : ∃ s₂, (updateLayer c.packages pebbleServiceName (layerAt c s₁ d)).run
    (afterBundle (sentState c s₁)) = .ok () s₂ ∧ s' = s₂.setStatus activeStatus

theorem endsActive_applied {c : Charm} {ev : Event} {s : HookState}
    (h : endsActive c ev s = true) : ∃ d s₁ s', Applied c s s₁ s' d ∧
      hook c ev s.tape s.model s.unit = (s'.model, s'.unit) := by
  unfold endsActive at h
  rw [Bool.and_eq_true] at h
  obtain ⟨hobs, hact⟩ := h
  cases hrun : (dispatch c ev).run s with
  | error e s' =>
    rw [hrun] at hact
    cases hact
  | ok a s' =>
    rw [hrun] at hact
    obtain ⟨s₁, hstart, hmain⟩ := dispatch_observed hobs hrun
    obtain ⟨d, s₂, hc, hu, he⟩ := main_active hmain (of_decide_eq_true hact)
    have hi := lastStart_inputs hstart
    have hc₀ : ChecksPass c s.model d := hc.of_inputs hi.symm
    have ha : Applied c s s₁ s' d :=
      ⟨hc₀, hstart, ⟨ev, hmain⟩, hi, lastStart_secret hstart hc₀, s₂, hu, he⟩
    exact ⟨d, s₁, s', ha, hook_of_ends hrun⟩

namespace Applied

variable {c : Charm} {s s₁ s' : HookState} {d : dex_oidc_config.DexOidcConfigObject}

theorem config (h : Applied c s s₁ s' d) : s₁.model.config = s.model.config :=
  congrArg Inputs.config h.inputs

theorem model (h : Applied c s s₁ s' d) : s'.model = (sentState c s₁).model := by
  obtain ⟨s₂, hu, rfl⟩ := h.layer
  exact (updateLayer_leaves (.ok hu)).1.trans (afterBundle_model _)

theorem plan (h : Applied c s s₁ s' d) :
    s'.unit.container.plan = (layerAt c s₁ d).services ∪ s₁.unit.container.plan := by
  obtain ⟨s₂, hu, rfl⟩ := h.layer
  have hp := updateLayer_ok_plan hu
  rwa [afterBundle_plan, sentState_container] at hp

/-- The service entry is made of the inputs and of the secret. -/
theorem entry (h : Applied c s s₁ s' d) :
    s'.unit.container.plan.lookup pebbleServiceName =
      some (serviceEntry (environmentOf s.model.config (secretOf s) d.issuerUrl
        (pushesBundle (sentState c s₁)))) := by
  rw [h.plan, layerAt_entry, h.config, h.secret]

theorem oidcClient (h : Applied c s s₁ s' d) :
    ∀ r ∈ s'.model.oidcClient, r.ours.data = some (oidcClientData s.model.config (secretOf s)) := by
  intro r hr
  rw [h.model] at hr
  rw [sentState_oidcClient hr, h.config, h.secret]

theorem stored (h : Applied c s s₁ s' d) : storedSecret s'.model = some (secretOf s) := by
  have hp : s₁.model.clientSecret ≠ [] := (h.checks.of_inputs h.inputs).peer
  rw [h.model, storedSecret_sentState hp, h.secret]

end Applied

/-! ## The steps of the application -/

variable {ι : Type} [DecidableEq ι]

/-- Does `main` end Active in this step. -/
def activeStep (d : Deployment) (a : Application ι) : Step ι → Bool
  | .hook u ev tape => endsActive (a.charmOf d u) ev ⟨a.model, a.units u, tape⟩
  | _ => false

theorem activeStep_applied {dep : Deployment} {a : Application ι} {u : ι} {ev : Event}
    {tape : Tape} (h : activeStep dep a (.hook u ev tape) = true) :
    ∃ d s₁ s', Applied (a.charmOf dep u) ⟨a.model, a.units u, tape⟩ s₁ s' d ∧
      (step dep a (.hook u ev tape)).model = s'.model ∧
      (step dep a (.hook u ev tape)).units u = s'.unit := by
  obtain ⟨d, s₁, s', ha, hh⟩ := endsActive_applied h
  exact ⟨d, s₁, s', ha, congrArg Prod.fst hh, (step_hook_unit ..).trans (congrArg Prod.snd hh)⟩

end oidc_gatekeeper
