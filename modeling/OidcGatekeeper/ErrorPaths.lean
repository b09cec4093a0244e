-- The law of the error paths: what a run of `main` leaves behind when one of its
-- checks raises `ErrorWithStatus`. A check that fails before the layer leaves
-- everything as it was, and the layer is asked for when everything is sent.
import OidcGatekeeper.Reconcile

open handlers

namespace oidc_gatekeeper.error_paths

open settled

/-! ## Where the body of `main` stops -/

/-- The checks that raise `ErrorWithStatus`. `update_layer` raises it for a container that
does not answer, and for a replan that fails. -/
inductive Check
  | leader | dexConfig | interfaces | secret | unreachable | replan
  deriving DecidableEq

/-- Is the check made before `update_layer` is called. -/
def Check.isEarly : Check → Bool
  | .unreachable | .replan => false
  | _ => true

/-- The body of `main` returns from everything before the check, and the check raises. -/
inductive StopsAt (c : Charm) (s : HookState) : Check → UnitStatus → HookState → Prop
  | leader {status : UnitStatus} {s' : HookState}
      (h : (checkLeader c).run s = .error (.errorWithStatus status) s') :
      StopsAt c s .leader status s'
  | dexConfig {status : UnitStatus} {s₁ s' : HookState} (hl : (checkLeader c).run s = .ok () s₁)
      (h : checkDexOidcConfigRelation.run s₁ = .error (.errorWithStatus status) s') :
      StopsAt c s .dexConfig status s'
  | interfaces {status : UnitStatus} {s₁ s₂ s' : HookState}
      (hl : (checkLeader c).run s = .ok () s₁)
      (hd : checkDexOidcConfigRelation.run s₁ = .ok () s₂)
      (h : (getInterfaces c).run s₂ = .error (.errorWithStatus status) s') :
      StopsAt c s .interfaces status s'
  | secret {i : Interfaces} {status : UnitStatus} {s₁ s' : HookState}
      (hfirst : (firstChecks c).run s = .ok i s₁)
      (h : checkSecret.run s₁ = .error (.errorWithStatus status) s') :
      StopsAt c s .secret status s'
  -- `service_environment` checks the secret again, after everything is sent.
  | secretAgain {status : UnitStatus} {s₁ s' : HookState} (hsent : (sendAll c).run s = .ok () s₁)
      (h : oidcLayer.run s₁ = .error (.errorWithStatus status) s') :
      StopsAt c s .secret status s'
  | unreachable {layer : Layer} {status : UnitStatus} {s₁ s₂ s' : HookState}
      (hsent : (sendAll c).run s = .ok () s₁) (hlayer : oidcLayer.run s₁ = .ok layer s₂)
      (hconnect : s₂.tape.canConnect.head = false)
      (h : (updateLayer c.packages pebbleServiceName layer).run s₂ =
        .error (.errorWithStatus status) s') :
      StopsAt c s .unreachable status s'
  | replan {layer : Layer} {status : UnitStatus} {s₁ s₂ s' : HookState}
      (hsent : (sendAll c).run s = .ok () s₁) (hlayer : oidcLayer.run s₁ = .ok layer s₂)
      (hconnect : s₂.tape.canConnect.head = true)
      (h : (updateLayer c.packages pebbleServiceName layer).run s₂ =
        .error (.errorWithStatus status) s') :
      StopsAt c s .replan status s'

variable {c : Charm} {s s' : HookState} {check : Check} {status : UnitStatus}

/-- The two functions that send raise nothing. -/
theorem sends_end (c : Charm) (i : Interfaces) (secretKey : String) (s : HookState) :
    ∃ s', (do sendInfo i secretKey; configureMesh c i).run s = .ok () s' := by
  obtain ⟨ingress, ingressAuth, oidcClient⟩ := i
  unfold sendInfo configureMesh
  cases oidcClient <;> cases ingress <;> cases ingressAuth <;> exact ⟨_, rfl⟩

/-- The body raises `ErrorWithStatus` exactly when it stops at some check. -/
theorem stopsAt_iff : (∃ check, StopsAt c s check status s') ↔
    (reconcile c).run s = .error (.errorWithStatus status) s' := by
  rw [reconcile_eq, run_bind_error_iff]
  constructor
  · rintro ⟨check, h⟩
    cases h with
    | leader h => exact .inl (run_bind_error (run_bind_error h))
    | dexConfig hl h =>
      refine .inl (run_bind_error ?_)
      rw [firstChecks, run_bind_ok hl, run_bind_error h]
    | interfaces hl hd h =>
      refine .inl (run_bind_error ?_)
      rw [firstChecks, run_bind_ok hl, run_bind_ok hd, h]
    | secret hfirst h =>
      left
      rw [sendAll, run_bind_ok hfirst, run_bind_error h]
    | secretAgain hsent h => exact .inr ⟨_, _, hsent, run_bind_error h⟩
    | unreachable hsent hlayer _ h | replan hsent hlayer _ h =>
      refine .inr ⟨_, _, hsent, ?_⟩
      rw [run_bind_ok hlayer, h]
  · rintro (h | ⟨_, s₁, hsent, h⟩)
    · unfold sendAll at h
      rcases run_bind_error_iff.mp h with hfirst | ⟨i, s₁, hfirst, h⟩
      · unfold firstChecks at hfirst
        rcases run_bind_error_iff.mp hfirst with hl | ⟨_, s₁, hl, hfirst⟩
        · exact ⟨_, .leader hl⟩
        · rcases run_bind_error_iff.mp hfirst with hd | ⟨_, s₂, hd, hi⟩
          · exact ⟨_, .dexConfig hl hd⟩
          · exact ⟨_, .interfaces hl hd hi⟩
      · rcases run_bind_error_iff.mp h with hsec | ⟨secret, s₂, -, h⟩
        · exact ⟨_, .secret hfirst hsec⟩
        · obtain ⟨s₃, hsend⟩ := sends_end c i secret s₂
          rw [hsend] at h
          cases h
    · rcases run_bind_error_iff.mp h with hlayer | ⟨layer, s₂, hlayer, hu⟩
      · exact ⟨_, .secretAgain hsent hlayer⟩
      · cases hconnect : s₂.tape.canConnect.head with
        | false => exact ⟨_, .unreachable hsent hlayer hconnect hu⟩
        | true => exact ⟨_, .replan hsent hlayer hconnect hu⟩

/-! ## What a check that fails leaves -/

/-- Everything is as it was, but for the keys that SDI writes for itself. -/
structure Untouched (s s' : HookState) : Prop where
  model : withoutVersions s'.model = withoutVersions s.model
  payloads : payloads s'.model = payloads s.model
  secret : s'.model.clientSecret = s.model.clientSecret
  unit : s'.unit = s.unit
  /-- No answer is used up, so `_gen_pass` was not called. -/
  tape : s'.tape = s.tape

theorem Untouched.refl (s : HookState) : Untouched s s := ⟨rfl, rfl, rfl, rfl, rfl⟩

theorem payloads_withVersions (pk : Packages) (m : Model) :
    payloads (m.withVersions pk) = payloads m := by
  simp [payloads, payloadsOf, Model.withVersions, Relation.written]

theorem withoutVersions_withVersions (pk : Packages) (m : Model) :
    withoutVersions (m.withVersions pk) = withoutVersions m := by
  simp [withoutVersions, Model.withVersions, Relation.written_written]

theorem untouched_withVersions (pk : Packages) (s : HookState) :
    Untouched s (s.onModel (·.withVersions pk)) :=
  ⟨withoutVersions_withVersions pk s.model, payloads_withVersions pk s.model, rfl, rfl, rfl⟩

theorem untouched_of_firstChecks_error {e : Exc} (h : (firstChecks c).run s = .error e s') :
    Untouched s s' := by
  rcases firstChecks_error h with rfl | rfl
  · exact .refl _
  · exact untouched_withVersions c.packages s

theorem checkSecret_error {e : Exc} (h : checkSecret.run s = .error e s') : s' = s := by
  rw [run_checkSecret] at h
  split at h <;> cases h
  rfl

/-- A layer is built only when everything is sent. -/
theorem oidcLayer_ok {s₁ s₂ : HookState} {layer : Layer} (hsent : (sendAll c).run s = .ok () s₁)
    (hlayer : oidcLayer.run s₁ = .ok layer s₂) : ∃ d, ChecksPass c s.model d ∧
      layer = layerAt c s d ∧ s₂ = afterBundle (sentState c s) := by
  obtain ⟨d, hc, rfl⟩ := sendAll_ok hsent
  rw [run_oidcLayer_of_checks hc] at hlayer
  cases hlayer
  exact ⟨d, hc, rfl, rfl⟩

/-- A check that is made before the layer leaves everything as it was. -/
theorem StopsAt.untouched (h : StopsAt c s check status s') (he : check.isEarly = true) :
    Untouched s s' := by
  cases h with
  | leader h => exact untouched_of_firstChecks_error (run_bind_error h)
  | dexConfig hl h =>
    apply untouched_of_firstChecks_error
    rw [firstChecks, run_bind_ok hl, run_bind_error h]
  | interfaces hl hd h =>
    apply untouched_of_firstChecks_error
    rw [firstChecks, run_bind_ok hl, run_bind_ok hd, h]
  | secret hfirst h =>
    obtain ⟨-, -, -, -, rfl⟩ := firstChecks_ok hfirst
    rw [checkSecret_error h]
    exact untouched_withVersions c.packages s
  | secretAgain hsent h =>
    -- The secret is stored by now, so the second check does not fail.
    obtain ⟨d, hc, rfl⟩ := sendAll_ok hsent
    rw [run_oidcLayer_of_checks hc] at h
    cases h
  | unreachable | replan => cases he

/-- When `update_layer` raises, everything is sent. -/
theorem StopsAt.sent (h : StopsAt c s check status s') (he : ¬ check.isEarly = true) :
    ∃ d, ChecksPass c s.model d ∧ s'.model = (sentState c s).model := by
  cases h with
  | leader | dexConfig | interfaces | secret | secretAgain => exact absurd rfl he
  | unreachable hsent hlayer _ h | replan hsent hlayer _ h =>
    obtain ⟨d, hc, rfl, rfl⟩ := oidcLayer_ok hsent hlayer
    exact ⟨d, hc, (updateLayer_leaves (.error h)).1.trans (afterBundle_model _)⟩

/-- A container that does not answer keeps its plan. -/
theorem StopsAt.plan (h : StopsAt c s .unreachable status s') :
    s'.unit.container.plan = s.unit.container.plan := by
  cases h with
  | unreachable hsent hlayer hconnect h =>
    obtain ⟨d, -, rfl, rfl⟩ := oidcLayer_ok hsent hlayer
    rw [run_updateLayer, if_pos hconnect] at h
    cases h
    exact (afterBundle_plan _).trans (congrArg Container.plan (sentState_container c s))

/-- A secret is stored by a run that passed the first checks, which store nothing. -/
theorem StopsAt.stored (h : StopsAt c s check status s') :
    storedSecret s'.model = storedSecret s.model ∨
      (storedSecret s.model = none ∧ (∃ secret, storedSecret s'.model = some secret) ∧
        ∃ i s₁, (firstChecks c).run s = .ok i s₁ ∧ storedSecret s₁.model = none) := by
  by_cases he : check.isEarly = true
  · left
    unfold storedSecret
    rw [(h.untouched he).secret]
  · obtain ⟨d, hc, hm⟩ := h.sent he
    rw [hm, storedSecret_sentState hc.peer]
    cases hs : storedSecret s.model with
    | some secret => exact .inl (congrArg some (secretOf_eq hs))
    | none => exact .inr ⟨rfl, ⟨_, rfl⟩, _, _, run_firstChecks_of_checks hc, hs⟩

/-! ## The law -/

/-- The law of a run of `main` that raised `ErrorWithStatus` at this check, and left `s'`. -/
structure NothingHalfDone (c : Charm) (ev : Event) (s : HookState) (check : Check)
    (status : UnitStatus) (s' : HookState) : Prop where
  /-- `main` sets the status, and does nothing more. -/
  ends : (main c ev).run s = .ok () (s'.setStatus status)
  /-- A check before the layer leaves the payloads, the plan, the files and the secret. -/
  early : check.isEarly = true → Untouched s s'
  /-- On a unit that does not lead, nothing but the status changes in the whole hook. -/
  follower : c.isLeader = false → s' = s ∧ (observedByMain ev = true →
    hook c ev s.tape s.model s.unit = (s.model, (s.setStatus status).unit))
  /-- A container that does not answer keeps its plan, and each relation has the whole
  payload for the inputs of now and for the secret that is stored. -/
  unreachable : check = .unreachable → s'.unit.container.plan = s.unit.container.plan ∧
    ∃ secret, storedSecret s'.model = some secret ∧
      payloads s'.model = targetPayloads c s.model.inputs secret
  /-- A secret is stored once, after the first checks passed. -/
  stored : storedSecret s'.model = storedSecret s.model ∨
    (storedSecret s.model = none ∧ (∃ secret, storedSecret s'.model = some secret) ∧
      ∃ i s₁, (firstChecks c).run s = .ok i s₁ ∧ storedSecret s₁.model = none)

/-- A body that raises `ErrorWithStatus` on a unit that does not lead has done nothing. -/
theorem follower_stops (hl : c.isLeader = false)
    (h : (reconcile c).run s = .error (.errorWithStatus status) s') :
    status = waitingForLeadership ∧ s' = s := by
  have hfirst : (firstChecks c).run s = .error (.errorWithStatus waitingForLeadership) s := by
    rw [run_firstChecks, if_pos hl]
  rw [run_reconcile_of_error hfirst] at h
  cases h
  exact ⟨rfl, rfl⟩

/-- A run of `main` whose body raises `ErrorWithStatus` stopped at one of the checks, and
whichever it is, nothing is left half done. -/
theorem a_failed_run_leaves_nothing_half_done (c : Charm) (ev : Event) (s s' : HookState)
    (status : UnitStatus) (h : (reconcile c).run s = .error (.errorWithStatus status) s') :
    (∃ check, StopsAt c s check status s') ∧
      ∀ check, StopsAt c s check status s' → NothingHalfDone c ev s check status s' := by
  refine ⟨stopsAt_iff.mpr h, fun check hstop => ?_⟩
  constructor
  · rw [run_main, h]
  · exact hstop.untouched
  · intro hl
    obtain ⟨rfl, rfl⟩ := follower_stops hl h
    exact ⟨rfl, fun ho => hook_of_follower hl ho s'⟩
  · rintro rfl
    obtain ⟨d, hc, hm⟩ := hstop.sent Bool.false_ne_true
    refine ⟨hstop.plan, secretOf s, ?_, ?_⟩ <;> rw [hm]
    · exact storedSecret_sentState hc.peer
    · exact payloads_sentState c s
  · exact hstop.stored

/-- The sample deployment, with a container that does not answer. -/
def sampleUnreachable : HookState :=
  ⟨sample.model, sample.freshUnit, { sample.tapeA with canConnect := .const false }⟩

theorem the_unreachable_sample_leaves_nothing_half_done :
    let c := sample.deployment.charm true
    let status : UnitStatus := ⟨.maintenance, "Waiting for pod startup to complete"⟩
    ∃ s', (reconcile c).run sampleUnreachable = .error (.errorWithStatus status) s' ∧
      NothingHalfDone c .start sampleUnreachable .unreachable status s' :=
  ⟨_, rfl, (a_failed_run_leaves_nothing_half_done _ _ _ _ _ rfl).2 _
    (.unreachable rfl rfl rfl rfl)⟩

end oidc_gatekeeper.error_paths
