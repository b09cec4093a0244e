-- The law of the forward-auth registration: when the databag of the relation
-- holds what the gateway needs, over any changes of leader.
import OidcGatekeeper.Observed

open handlers runs

namespace oidc_gatekeeper.registration

open forward_auth

/-! ## What is registered -/

/-- Our side of each forward-auth relation. -/
def bags (m : Model) : List (Nat × Databag) := m.forwardAuth.map fun r => (r.id, r.ours)

/-- The config that each unit of the application would write. -/
def configOf (d : Deployment) : ForwardAuthConfig := forwardAuthConfig (d.charm true)

/-- The one forward-auth relation is `id`, and it holds the config. -/
def Published (d : Deployment) (id : Nat) (m : Model) : Prop :=
  ∃ bag, bags m = [(id, bag)] ∧ Holds (configOf d) bag

/-! ## What a hook writes to the databag -/

variable {c : Charm} {ev : Event} {s s' : HookState} {id : Nat}

theorem main_bags (h : (main c ev).run s = .ok () s') : bags s'.model = bags s.model := by
  rcases main_leaves h with ⟨-, hm | hm⟩ | ⟨d, -, hm, -⟩ <;> rw [hm]
  · rfl
  · unfold bags
    change (withSecret (s.onModel _)).model.forwardAuth.map _ = _
    rcases withSecret_model (s.onModel (·.withVersions c.packages)) with h | ⟨-, pass, h⟩ <;>
      rw [h] <;> rfl

theorem constructed_bags (c : Charm) (s : HookState) :
    bags (constructed c s).model = bags s.model := by
  unfold constructed
  split <;> rfl

/-- The events on which the library writes our databag. -/
def Writes : Event → Bool
  | .relation .forwardAuth .created _ => true
  | .relation .forwardAuth .broken _ => true
  | _ => false

theorem observers_of_not_writes (hw : Writes ev = false) : ∀ h ∈ observers c ev,
    (∃ ev', h = main c ev') ∨ h = onRelationChangedEvent c.isLeader := by
  intro h hmem
  rcases observers_cases c ev with ho | ⟨id, h', hmem', ho⟩ | ⟨ev', ho⟩ | ⟨ev₁, ev₂, ho⟩
  · rw [ho] at hmem
    cases hmem
  · rcases ev with _ | _ | _ | _ | _ | ⟨e, k, id⟩ | _ | _
    case relation =>
      cases e <;> cases k
      case forwardAuth.changed => exact .inr (List.mem_singleton.mp hmem)
      case forwardAuth.created | forwardAuth.broken => cases hw
      case dexOidcConfig.changed | dexOidcConfig.broken => cases ho
      case ingress.changed | ingressAuth.changed | oidcClient.changed | clientSecret.changed =>
        exact .inl ⟨_, List.mem_singleton.mp hmem⟩
      all_goals cases ho
    case other => cases ho
    all_goals exact .inl ⟨_, List.mem_singleton.mp hmem⟩
  · rw [ho] at hmem
    exact .inl ⟨ev', List.mem_singleton.mp hmem⟩
  · rw [ho] at hmem
    rcases List.mem_cons.mp hmem with h | h
    · exact .inl ⟨ev₁, h⟩
    · exact .inl ⟨ev₂, List.mem_singleton.mp h⟩

theorem run_changed (isLeader : Bool) (s : HookState) :
    (onRelationChangedEvent isLeader).run s =
      if isLeader then match compareApps s.model.forwardAuth with
        | .ok _ => .ok () s
        | .error e => .error e s
      else .ok () s := by
  unfold onRelationChangedEvent
  cases isLeader with
  | false => rfl
  | true => cases h : compareApps s.model.forwardAuth <;> simp [h]

/-- A hook of another event leaves our databags. -/
theorem hook_bags (hw : Writes ev = false) (tape : Tape) (m : Model) (u : UnitState) :
    bags (hook c ev tape m u).1 = bags m := by
  unfold hook
  cases hd : (dispatch c ev).run ⟨m, u, tape⟩ with
  | error e s' => rfl
  | ok _ s' =>
    refine dispatch_keeps (P := fun t => bags t.model = bags m) ?_ (constructed_bags c _) hd
    intro h hmem t t' ht hrun
    rcases observers_of_not_writes hw h hmem with ⟨ev', rfl⟩ | rfl
    · exact (main_bags hrun).trans ht
    · rw [run_changed] at hrun
      split at hrun
      · split at hrun <;> cases hrun
        exact ht
      · cases hrun
        exact ht

/-- The hook of `relation-created` writes the config, on the leader only. -/
theorem hook_created (id : Nat) (tape : Tape) (m : Model) (u : UnitState) :
    bags (hook c (.relation .forwardAuth .created id) tape m u).1 =
      if c.isLeader = true then (bags m).map fun x =>
        if x.1 = id then (x.1, dumpData (forwardAuthConfig c) ∪ x.2) else x
      else bags m := by
  have hb := constructed_bags c ⟨m, u, tape⟩
  generalize ht : constructed c ⟨m, u, tape⟩ = t at hb
  have hinit := (run_ambientMeshIngress c ⟨m, u, tape⟩).trans (congrArg _ ht)
  have hobs : observers c (.relation .forwardAuth .created id) =
      [onRelationCreatedEvent c.isLeader (forwardAuthConfig c) id] := rfl
  cases hl : c.isLeader with
  | false =>
    have hrun : (dispatch c (.relation .forwardAuth .created id)).run ⟨m, u, tape⟩ = .ok () t := by
      rw [dispatch, run_bind_ok hinit, hobs, hl]
      rfl
    rw [hook_of_ends hrun, hb, if_neg Bool.false_ne_true]
  | true =>
    have hrun : (dispatch c (.relation .forwardAuth .created id)).run ⟨m, u, tape⟩ = .ok ()
        (t.onModel fun m => { m with
          forwardAuth := updateRelationData (forwardAuthConfig c) id m.forwardAuth }) := by
      rw [dispatch, run_bind_ok hinit, hobs, hl]
      rfl
    rw [hook_of_ends hrun, if_pos rfl, ← hb]
    change ((t.model.forwardAuth.map _).map _ : List _) = (t.model.forwardAuth.map _).map _
    rw [List.map_map, List.map_map]
    apply List.map_congr_left
    intro r _
    by_cases hr : r.id = id <;> simp [hr]

/-! ## One step -/

variable {ι : Type} [DecidableEq ι] {d : Deployment} {a : Application ι}

/-- The relation stays: no forward-auth relation comes or goes. -/
def Stays : Step ι → Prop
  | .change (.relationAdded .forwardAuth _ _) => False
  | .change (.relationRemoved .forwardAuth _) => False
  | .hook _ (.relation .forwardAuth .broken _) _ => False
  | _ => True

/-- A unit handles `relation-created` while it leads. -/
def CreatedOnLeader (id : Nat) (a : Application ι) : Step ι → Prop
  | .hook u (.relation .forwardAuth .created id') _ => id' = id ∧ a.leader = some u
  | _ => False

omit [DecidableEq ι] in
theorem changed_bags {ch : Change} (h : Stays (.change ch : Step ι)) :
    bags (a.model.changed ch) = bags a.model := by
  rcases ch with _ | ⟨e, i, app⟩ | ⟨e, i⟩ | ⟨e, i, bag⟩
  · rfl
  · cases e
    case forwardAuth => exact h.elim
    all_goals rfl
  · cases e
    case forwardAuth => exact h.elim
    all_goals rfl
  · cases e
    case forwardAuth =>
      unfold bags Model.changed Model.remoteWritten Relation.remoteWritten
      rw [List.map_map]
      apply List.map_congr_left
      intro r _
      by_cases hr : r.id = i <;> simp [hr]
    all_goals rfl

/-- A step leaves the databag, or it is the hook that writes the config. -/
theorem step_bags (st : Step ι) (h : Stays st) {bag : Databag}
    (hb : bags a.model = [(id, bag)]) :
    (bags (step d a st).model = [(id, bag)] ∧ ¬ CreatedOnLeader id a st) ∨
      (bags (step d a st).model = [(id, dumpData (configOf d) ∪ bag)] ∧
        CreatedOnLeader id a st) := by
  cases st with
  | elect l => exact .inl ⟨hb, not_false⟩
  | restart u => exact .inl ⟨hb, not_false⟩
  | change ch => exact .inl ⟨(changed_bags h).trans hb, not_false⟩
  | hook u ev tape =>
    cases hw : Writes ev with
    | false =>
      refine .inl ⟨(hook_bags hw _ _ _).trans hb, fun hc => ?_⟩
      unfold CreatedOnLeader at hc
      split at hc
      · rename_i heq
        cases heq
        cases hw
      · exact hc
    | true =>
      have hcreated : ∃ id', ev = .relation .forwardAuth .created id' := by
        rcases ev with _ | _ | _ | _ | _ | ⟨e, k, i⟩ | _ | _
        case relation =>
          cases e <;> cases k
          case forwardAuth.created => exact ⟨i, rfl⟩
          case forwardAuth.broken => exact h.elim
          all_goals cases hw
        all_goals cases hw
      obtain ⟨id', rfl⟩ := hcreated
      have hbags : bags (step d a (.hook u (.relation .forwardAuth .created id') tape)).model = _ :=
        hook_created (c := a.charmOf d u) id' tape a.model (a.units u)
      rw [hb] at hbags
      by_cases hl : a.leader = some u
      · have hlead : (a.charmOf d u).isLeader = true := decide_eq_true hl
        rw [if_pos hlead] at hbags
        by_cases hid : id' = id
        · subst hid
          refine .inr ⟨hbags.trans ?_, rfl, hl⟩
          simp [configOf, forwardAuthConfig, serviceUrl, Application.charmOf, Deployment.charm]
        · refine .inl ⟨hbags.trans ?_, fun hc => hid hc.1⟩
          simp [Ne.symm hid]
      · rw [if_neg (by simpa [Application.charmOf, Deployment.charm] using hl)] at hbags
        exact .inl ⟨hbags, fun hc => hl hc.2⟩

theorem step_published (st : Step ι) (hb : ∃ bag, bags a.model = [(id, bag)]) (h : Stays st) :
    Published d id (step d a st).model ↔ Published d id a.model ∨ CreatedOnLeader id a st := by
  obtain ⟨bag, hb⟩ := hb
  have huniq : ∀ {m : Model} {b : Databag}, bags m = [(id, b)] →
      (Published d id m ↔ Holds (configOf d) b) := by
    intro m b hm
    constructor
    · rintro ⟨b', hb', hh⟩
      rw [hm] at hb'
      cases hb'
      exact hh
    · exact fun hh => ⟨b, hm, hh⟩
  rw [huniq hb]
  rcases step_bags (d := d) st h hb with ⟨hs, hn⟩ | ⟨hs, hc⟩
  · rw [huniq hs]
    exact ⟨.inl, fun hor => hor.resolve_right hn⟩
  · rw [huniq hs]
    exact iff_of_true (holds_dumpData _ _) (.inr hc)

/-! ## `relation-changed` on the leader -/

/-- With the app names in the databag, `_compare_apps` raises nothing for a requirer that
names its apps. -/
theorem compareApps_ok {r : Relation Databag} {apps : List String}
    (hremote : "ingress_app_names" ∈ r.remote)
    (hours : r.ours.lookup "app_names" = some (json_strings.dumps apps)) :
    ∃ evs, compareApps [r] = .ok evs := by
  obtain ⟨names, hnames⟩ := Finmap.mem_iff.mp hremote
  rw [compareApps_of_lookup hnames hours]
  exact compareLoop_ok names apps

/-- The leader handles `relation-changed`, after the requirer wrote this databag. -/
def handlesChanged (d : Deployment) (id : Nat) (a : Application ι) (u : ι) (remote : Databag)
    (tape : Tape) : EStateM.Result Exc HookState Unit :=
  (dispatch (a.charmOf d u) (.relation .forwardAuth .changed id)).run
    ⟨a.model.changed (.remoteWritten .forwardAuth id remote), a.units u, tape⟩

theorem handlesChanged_ok (h : Published d id a.model) (u : ι) {remote : Databag}
    (hr : "ingress_app_names" ∈ remote) (tape : Tape) :
    ∃ s', handlesChanged d id a u remote tape = .ok () s' := by
  obtain ⟨bag, hb, -, hnames, -⟩ := h
  have hrels : ∃ r, a.model.forwardAuth = [r] ∧ r.id = id ∧ r.ours = bag := by
    unfold bags at hb
    obtain ⟨r, hr, he⟩ := List.map_eq_singleton_iff.mp hb
    cases he
    exact ⟨r, hr, rfl, rfl⟩
  obtain ⟨r, hrel, rfl, rfl⟩ := hrels
  generalize hs : (⟨a.model.changed (.remoteWritten .forwardAuth r.id remote), a.units u, tape⟩ :
    HookState) = s
  have hforward : (constructed (a.charmOf d u) s).model.forwardAuth =
      [{ r with remote := remote }] := by
    have hf : s.model.forwardAuth = [{ r with remote := remote }] := by
      rw [← hs]
      simp [Model.changed, Model.remoteWritten, Relation.remoteWritten, hrel]
    unfold constructed
    split <;> exact hf
  obtain ⟨evs, hok⟩ := compareApps_ok (r := { r with remote := remote }) hr hnames
  have hrun := run_changed (a.charmOf d u).isLeader (constructed (a.charmOf d u) s)
  rw [hforward, hok] at hrun
  simp only [ite_self] at hrun
  unfold handlesChanged dispatch
  rw [hs, run_bind_ok (run_ambientMeshIngress _ s)]
  change ∃ s', (runAll [onRelationChangedEvent (a.charmOf d u).isLeader]).run _ = _
  rw [runAll, run_bind_ok hrun]
  exact ⟨_, rfl⟩

/-! ## The law of a run -/

/-- The registration is there, and the leader can handle what the requirer writes. -/
def Registered (d : Deployment) (id : Nat) (a : Application ι) : Prop :=
  Published d id a.model ∧ ∀ u remote tape, a.leader = some u → "ingress_app_names" ∈ remote →
    ∃ s', handlesChanged d id a u remote tape = .ok () s'

theorem registered_iff : Registered d id a ↔ Published d id a.model :=
  ⟨fun h => h.1, fun h => ⟨h, fun u _ tape _ hr => handlesChanged_ok h u hr tape⟩⟩

/-- From a relation with nothing in our databag, over any steps in which the relation
stays: it is registered exactly when some unit handled its `relation-created` while that
unit was the leader. -/
theorem registered_exactly_if_created_on_a_leader (d : Deployment) (id : Nat)
    (a : Application ι) (h : bags a.model = [(id, ∅)]) (steps : List (Step ι))
    (hstays : ∀ st ∈ steps, Stays st) : Registered d id (run (step d) a steps) ↔
      Happens (CreatedOnLeader id) (step d) a steps := by
  have hmeets : Meets (fun _ => Stays) (step d) a steps := meets_of_forall hstays
  have hinv := hmeets.with_inv (I := fun b : Application ι => ∃ bag, bags b.model = [(id, bag)])
    (fun b st ⟨bag, hb⟩ hst => (step_bags (d := d) st hst hb).elim
      (fun hs => ⟨bag, hs.1⟩) (fun hs => ⟨_, hs.1⟩)) ⟨∅, h⟩
  have hnot : ¬ Published d id a.model := by
    rintro ⟨bag, hb, hh, -⟩
    rw [h] at hb
    cases hb
    exact absurd hh (by simp)
  have hlatch := latch (P := fun b : Application ι => Published d id b.model)
    (p := CreatedOnLeader id) (fun b st hok => step_published st hok.1 hok.2) hinv
  rw [registered_iff, hlatch]
  exact or_iff_right hnot

/-- The sample application, related to a gateway. -/
def sampleRelated : Application Bool :=
  { sample.application with
    model := { sample.model with forwardAuth := [⟨7, "istio-ingress", ∅, ∅⟩] } }

def sampleCreated : Event := .relation .forwardAuth .created 7

theorem registered_on_the_first_leader :
    Registered sample.deployment 7 (run (step sample.deployment) sampleRelated
      [.hook true sampleCreated sample.tapeA, .elect (some false),
        .hook false .leaderElected sample.tapeB]) :=
  (registered_exactly_if_created_on_a_leader _ _ _ rfl _ (by simp [Stays, sampleCreated])).mpr
    (.inl ⟨rfl, rfl⟩)

/-- Each unit handles `relation-created` while the other one leads. The new leader handles
its election and another event. The databag stays empty, and the requirer's data makes the
leader raise. -/
theorem a_hand_over_loses_the_registration :
    let steps : List (Step Bool) := [.hook false sampleCreated sample.tapeA, .elect (some false),
      .hook false .leaderElected sample.tapeA, .hook true sampleCreated sample.tapeA,
      .hook false .configChanged sample.tapeA]
    let b := run (step sample.deployment) sampleRelated steps
    let remote : Databag := List.toFinmap [⟨"ingress_app_names", "[]"⟩]
    (∀ u, ∃ tape, Step.hook u sampleCreated tape ∈ steps) ∧ bags b.model = [(7, ∅)] ∧
      (∃ s', handlesChanged sample.deployment 7 b false remote sample.tapeA =
        .error (.keyError "app_names") s') ∧
      ¬ Registered sample.deployment 7 b := by
  intro steps b remote
  have hb : bags b.model = [(7, ∅)] := by decide +kernel
  have hcreated : ∀ u, ∃ tape, Step.hook u sampleCreated tape ∈ steps := by
    intro u
    cases u <;> exact ⟨sample.tapeA, by simp [steps]⟩
  refine ⟨hcreated, hb, ⟨_, rfl⟩, fun h => ?_⟩
  obtain ⟨bag, hbag, hh⟩ := h.1
  rw [hb] at hbag
  cases hbag
  exact absurd hh (by decide)

end oidc_gatekeeper.registration
