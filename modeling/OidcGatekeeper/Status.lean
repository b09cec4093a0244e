-- The law of the unit status on the leader. `main` computes the status from the
-- inputs, but it runs only on the events that it observes, so the status is up
-- to date as long as nothing that matters to it comes with another event.
import OidcGatekeeper.Observed

open handlers runs

namespace oidc_gatekeeper.status

/-! ## The status as a function of the inputs -/

/-- The status that the checks give when replans succeed. There is none for an exception
that gets out of `main`. -/
def checkStatus (pk : Packages) (i : Inputs) (ready : Bool) : Option UnitStatus :=
  match dexCheck i.dexOidcConfig with
  | .error (.errorWithStatus status) => some status
  | .error _ => none
  | .ok () => match pk.versionError i.sdi with
    | some e => match e.raised with
      | .errorWithStatus status => some status
      | _ => none
    | none =>
      if i.peer = false then some waitingForClientSecret
      else if ready then some activeStatus
      else some ⟨.maintenance, pk.notReadyMessage⟩

/-- The status that a run of `main` sets, if it ends. -/
def mainStatus (c : Charm) (s : HookState) : Option UnitStatus :=
  match (main c .configChanged).run s with
  | .ok _ s' => s'.unit.status
  | .error _ _ => none

variable {c : Charm} {ev : Event} {s s' : HookState} {ready : Bool}

theorem checkStatus_of_checks {d : dex_oidc_config.DexOidcConfigObject}
    (h : ChecksPass c s.model d) : checkStatus c.packages s.model.inputs ready =
      if ready then some activeStatus else some ⟨.maintenance, c.packages.notReadyMessage⟩ := by
  have hd : dexCheck s.model.inputs.dexOidcConfig = .ok () := (dexCheck_ok_iff _).mpr ⟨d, h.dex⟩
  have hv : c.packages.versionError s.model.inputs.sdi = none := h.versions
  have hp : s.model.inputs.peer = true := by simpa [Model.inputs] using h.peer
  unfold checkStatus
  simp [hd, hv, hp]

/-- A run of `main` that ends sets the status of the checks. -/
theorem main_status (hl : c.isLeader = true) (hs : s.tape.Steady ready) (hr : s.tape.Replans)
    (h : (main c ev).run s = .ok () s') :
    s'.unit.status = checkStatus c.packages s.model.inputs ready := by
  have hsent := (sentState_tape c s).trans (afterBundle_tape (sentState c s))
  have hconnect : (afterBundle (sentState c s)).tape.canConnect.head = ready := by
    rw [hsent.steady hs]
    rfl
  have hreplan : (afterBundle (sentState c s)).tape.replan.head = true := by
    rw [hsent.replans hr]
    rfl
  have hrun := main_run c ev s
  rw [h] at hrun
  unfold checkStatus
  cases hrun with
  | notLeader hl' =>
    rw [hl] at hl'
    cases hl'
  | dexStatus status _ hd =>
    change dexCheck s.model.inputs.dexOidcConfig = _ at hd
    rw [hd]
    rfl
  | interfaces e status _ hd hv he =>
    change dexCheck s.model.inputs.dexOidcConfig = _ at hd
    change c.packages.versionError s.model.inputs.sdi = _ at hv
    simp only [hd, hv, he]
    rfl
  | noSecret _ hd hv hp =>
    change dexCheck s.model.inputs.dexOidcConfig = _ at hd
    change c.packages.versionError s.model.inputs.sdi = _ at hv
    have hpeer : s.model.inputs.peer = false := by simp [Model.inputs, hp]
    simp only [hd, hv, hpeer]
    rfl
  | layer d status s₁ hc hu =>
    refine Eq.trans ?_ (checkStatus_of_checks hc).symm
    rw [run_updateLayer, hconnect, hreplan] at hu
    cases ready with
    | false =>
      cases hu
      rfl
    | true =>
      simp only [Bool.true_eq_false, if_false, if_true] at hu
      split at hu <;> cases hu
  | active d s₁ hc hu =>
    refine Eq.trans ?_ (checkStatus_of_checks hc).symm
    rw [run_updateLayer, hconnect] at hu
    cases ready with
    | false => cases hu
    | true => rfl

theorem main_status_of_error (h : (main c ev).run s = .error e s') :
    checkStatus c.packages s.model.inputs ready = none := by
  obtain ⟨-, -, hescapes⟩ := main_raises h
  unfold checkStatus
  cases hescapes with
  | dex hd he =>
    change dexCheck s.model.inputs.dexOidcConfig = _ at hd
    rw [hd]
    cases e with
    | errorWithStatus status => exact absurd rfl (he status)
    | _ => rfl
  | interfaces hd hv =>
    change dexCheck s.model.inputs.dexOidcConfig = _ at hd
    change c.packages.versionError s.model.inputs.sdi = _ at hv
    simp only [hd, hv]
    rfl

theorem mainStatus_eq (hl : c.isLeader = true) (hs : s.tape.Steady ready) (hr : s.tape.Replans) :
    mainStatus c s = checkStatus c.packages s.model.inputs ready := by
  unfold mainStatus
  cases h : (main c .configChanged).run s with
  | ok u s' => exact main_status hl hs hr h
  | error e s' => exact (main_status_of_error h).symm

/-! ## What the leader is told -/

/-- The leader: what it sees, its own state, and does its container answer. -/
structure Leading where
  model : Model
  unit : UnitState
  ready : Bool

/-- A change of the data, a container that (re)starts and is ready, or an event that comes
with no change, such as `start` or `relation-joined`. -/
inductive News
  | change (ch : Change)
  | ready
  | event (ev : Event)

/-- The event that Juju delivers for it. -/
def News.told : News → Event
  | .change (.config _) => .configChanged
  | .change (.relationAdded e id _) => .relation e .created id
  | .change (.relationRemoved e id) => .relation e .broken id
  | .change (.remoteWritten e id _) => .relation e .changed id
  | .ready => .oidcAuthservicePebbleReady
  | .event ev => ev

def News.arrive (l : Leading) : News → Leading
  | .change ch => { l with model := l.model.changed ch }
  | .ready => { l with ready := true, unit := l.unit.restarted }
  | .event _ => l

/-- The news, and the answers in the hook of its event. -/
structure Delivery where
  news : News
  replan : Stream' Bool
  choices : Stream' Choices

/-- The state in which the hook starts. -/
def Delivery.hookStart (l : Leading) (dl : Delivery) : HookState :=
  let l' := dl.news.arrive l
  ⟨l'.model, l'.unit, ⟨.const l'.ready, dl.replan, dl.choices⟩⟩

/-- The news arrives, and its event is delivered before the next news. -/
def deliver (d : Deployment) (l : Leading) (dl : Delivery) : Leading :=
  let s := dl.hookStart l
  let left := hook (d.charm true) dl.news.told s.tape s.model s.unit
  ⟨left.1, left.2, (dl.news.arrive l).ready⟩

/-- The status is the one that `main` would set now, if replans succeed. -/
def UpToDate (d : Deployment) (l : Leading) : Prop :=
  ∀ choices, l.unit.status =
    mainStatus (d.charm true) ⟨l.model, l.unit, ⟨.const l.ready, .const true, choices⟩⟩

/-- No handler raises. -/
def Quiet (d : Deployment) (l : Leading) (dl : Delivery) : Prop :=
  ∃ s', (dispatch (d.charm true) dl.news.told).run (dl.hookStart l) = .ok () s'

/-- `main` observes the event, or the news does not matter to the Dex check and to the
version check. -/
def Covered (d : Deployment) (l : Leading) (dl : Delivery) : Prop :=
  observedByMain dl.news.told = true ∨
    (dexCheck (dl.news.arrive l).model.dexOidcConfig = dexCheck l.model.dexOidcConfig ∧
      d.packages.versionError (dl.news.arrive l).model.sdiRemotes =
        d.packages.versionError l.model.sdiRemotes)

/-! ## One delivery -/

variable {d : Deployment} {l : Leading} {dl : Delivery}

theorem upToDate_iff (choices : Stream' Choices) : UpToDate d l ↔
    l.unit.status = checkStatus d.packages l.model.inputs l.ready := by
  have hm : ∀ choices, mainStatus (d.charm true)
      ⟨l.model, l.unit, ⟨.const l.ready, .const true, choices⟩⟩ =
      checkStatus d.packages l.model.inputs l.ready := fun choices => mainStatus_eq rfl rfl rfl
  unfold UpToDate
  constructor
  · intro h
    rw [← hm choices]
    exact h choices
  · intro h choices
    rw [hm, h]

theorem deliver_of_ends {s' : HookState}
    (h : (dispatch (d.charm true) dl.news.told).run (dl.hookStart l) = .ok () s') :
    deliver d l dl = ⟨s'.model, s'.unit, (dl.news.arrive l).ready⟩ := by
  simp only [deliver, hook_of_ends h]

theorem deliver_inputs : (deliver d l dl).model.inputs = (dl.news.arrive l).model.inputs :=
  hook_inputs _ _ _ _ _

/-- After an event that `main` observes, the status is up to date. -/
theorem observed_upToDate (ho : observedByMain dl.news.told = true) (hq : Quiet d l dl)
    (hr : dl.replan = .const true) : UpToDate d (deliver d l dl) := by
  obtain ⟨s', hd⟩ := hq
  obtain ⟨s₁, hstart, hrun⟩ := dispatch_observed ho hd
  have hsteady : s₁.tape.Steady (dl.news.arrive l).ready :=
    (lastStart_tape hstart).steady rfl
  have hreplans : s₁.tape.Replans := (lastStart_tape hstart).replans hr
  have hstatus := main_status rfl hsteady hreplans hrun
  rw [lastStart_inputs hstart] at hstatus
  rw [upToDate_iff dl.choices, deliver_inputs, deliver_of_ends hd]
  exact hstatus

/-- The checks give the same status when the news does not matter to them. -/
theorem checkStatus_arrive (ho : observedByMain dl.news.told = false) (hc : Covered d l dl) :
    checkStatus d.packages (dl.news.arrive l).model.inputs (dl.news.arrive l).ready =
      checkStatus d.packages l.model.inputs l.ready := by
  obtain ⟨news, replan, choices⟩ := dl
  rcases hc with hc | ⟨hdex, hv⟩
  · rw [ho] at hc
    cases hc
  · cases news with
    | ready => cases ho
    | event ev => rfl
    | change ch =>
      have hp : (l.model.changed ch).inputs.peer = l.model.inputs.peer := by
        simp [Model.inputs]
      change dexCheck (l.model.changed ch).inputs.dexOidcConfig = _ at hdex
      change d.packages.versionError (l.model.changed ch).inputs.sdi = _ at hv
      change checkStatus _ (l.model.changed ch).inputs l.ready = _
      unfold checkStatus
      rw [hdex, hv, hp]
      rfl

theorem unobserved_unit (ho : observedByMain dl.news.told = false) :
    (deliver d l dl).unit = l.unit := by
  have hu : (deliver d l dl).unit = (dl.news.arrive l).unit := hook_unobserved ho _ _ _
  rw [hu]
  cases hn : dl.news with
  | ready =>
    rw [hn] at ho
    cases ho
  | change ch => rfl
  | event ev => rfl

theorem covered_upToDate (h : UpToDate d l) (hq : Quiet d l dl) (hr : dl.replan = .const true)
    (hc : Covered d l dl) : UpToDate d (deliver d l dl) := by
  cases ho : observedByMain dl.news.told with
  | true => exact observed_upToDate ho hq hr
  | false =>
    rw [upToDate_iff dl.choices] at h ⊢
    rw [deliver_inputs, unobserved_unit ho, h]
    exact (checkStatus_arrive ho hc).symm

/-! ## The law of a run -/

/-- What the law asks of a delivery: no handler raises, replans succeed, and `main`
observes the event or does not depend on the news. -/
def Fine (d : Deployment) (l : Leading) (dl : Delivery) : Prop :=
  Quiet d l dl ∧ dl.replan = .const true ∧ Covered d l dl

/-- In a run that begins with an observed event, the status is up to date after every
event, as long as each event is observed or brings news that `main` does not depend on. -/
theorem the_status_is_up_to_date_while_news_is_observed (d : Deployment) (l : Leading)
    (dl : Delivery) (dls : List Delivery) (hfirst : observedByMain dl.news.told = true)
    (hfine : Meets (Fine d) (deliver d) l (dl :: dls)) :
    Meets (fun l dl => UpToDate d (deliver d l dl)) (deliver d) l (dl :: dls) := by
  obtain ⟨⟨hq, hr, -⟩, hrest⟩ := hfine
  have h₁ := observed_upToDate hfirst hq hr
  refine ⟨h₁, meets_keeps (I := UpToDate d) (fun l dl h hok => ?_) h₁ hrest⟩
  exact covered_upToDate h hok.1 hok.2.1 hok.2.2

/-! ## A status that goes stale -/

def sampleDelivery (news : News) : Delivery := ⟨news, .const true, sample.tapeA.choices⟩

/-- The leader of the sample deployment, before its first event. -/
def sampleLeader : Leading := ⟨sample.model, sample.freshUnit, true⟩

/-- An ingress application is related and writes its databag without a list of versions. -/
def sampleNews : List Delivery :=
  [sampleDelivery (.event .start), sampleDelivery (.change (.relationAdded .ingress 5 "istio")),
    sampleDelivery (.change (.remoteWritten .ingress 5 (List.toFinmap [⟨"key", "value"⟩])))]

theorem the_status_is_up_to_date_sample :
    Meets (fun l dl => UpToDate sample.deployment (deliver sample.deployment l dl))
      (deliver sample.deployment) sampleLeader
      [sampleDelivery (.event .start), sampleDelivery (.change (.config .default))] :=
  the_status_is_up_to_date_while_news_is_observed _ _ _ _ rfl
    ⟨⟨⟨_, rfl⟩, rfl, .inl rfl⟩, ⟨⟨_, rfl⟩, rfl, .inl rfl⟩, trivial⟩

/-- The relation is removed again. The unit stays Waiting for its versions, where `main`
would now set Active. -/
theorem a_removed_relation_leaves_its_status :
    let news := sampleNews ++ [sampleDelivery (.change (.relationRemoved .ingress 5))]
    let l := run (deliver sample.deployment) sampleLeader news
    Meets (Quiet sample.deployment) (deliver sample.deployment) sampleLeader news ∧
      l.unit.status = some ⟨.waiting, "List of versions not found"⟩ ∧
      mainStatus (sample.deployment.charm true) ⟨l.model, l.unit, sample.tapeA⟩ =
        some activeStatus ∧
      ¬ Meets (fun l dl => UpToDate sample.deployment (deliver sample.deployment l dl))
        (deliver sample.deployment) sampleLeader news := by
  intro news l
  have hstatus : l.unit.status = some ⟨.waiting, "List of versions not found"⟩ := by
    decide +kernel
  have hmain : mainStatus (sample.deployment.charm true) ⟨l.model, l.unit, sample.tapeA⟩ =
      some activeStatus := by decide +kernel
  refine ⟨⟨⟨_, rfl⟩, ⟨_, rfl⟩, ⟨_, rfl⟩, ⟨_, rfl⟩, trivial⟩, hstatus, hmain, fun h => ?_⟩
  have hlast : UpToDate sample.deployment l := (meets_snoc.mp h).2
  have heq := hlast sample.tapeA.choices
  rw [hstatus] at heq
  exact absurd (heq.trans hmain) (by decide)

end oidc_gatekeeper.status
