-- The law of the outcome of `main`: which status it sets for which state, and
-- for which states of the Dex relation and of SDI an exception gets out of it.
import OidcGatekeeper.Application

open handlers

namespace oidc_gatekeeper.outcome

/-! ## The outcome as it is meant -/

/-- There is one Dex relation, and it carries this issuer URL. -/
def UsableDex (rels : List (Relation Unit)) (url : String) : Prop :=
  ∃ r, rels = [r] ∧ r.remote.lookup "issuer-url" = some url

/-- The run of `update_layer`, with the layer for this issuer URL. -/
def layerRun (c : Charm) (s : HookState) (url : String) : EStateM.Result Exc HookState Unit :=
  (updateLayer c.packages pebbleServiceName (layerAt c s ⟨url⟩)).run (afterBundle (sentState c s))

/-- All five checks pass. -/
def AllPass (c : Charm) (s : HookState) : Prop :=
  c.isLeader = true ∧ c.packages.versionError s.model.sdiRemotes = none ∧
    s.model.clientSecret ≠ [] ∧
    ∃ url s', UsableDex s.model.dexOidcConfig url ∧ layerRun c s url = .ok () s'

def missingDexRelation : UnitStatus :=
  ⟨.blocked, "Missing relation with a Dex OIDC config provider. Please add the missing relation."⟩

/-- The relation has data but no issuer URL, or there is more than one relation. -/
def IncompleteOrAmbiguous (rels : List (Relation Unit)) : Prop :=
  (∃ r, rels = [r] ∧ r.remote ≠ ∅ ∧ "issuer-url" ∉ r.remote) ∨ 2 ≤ rels.length

/-- The status of the first check that fails. -/
inductive FirstFailing (c : Charm) (s : HookState) : UnitStatus → Prop
  | leader (hl : c.isLeader = false) : FirstFailing c s waitingForLeadership
  | dexMissing (hl : c.isLeader = true) (hd : s.model.dexOidcConfig = []) :
      FirstFailing c s missingDexRelation
  | dexEmpty {r : Relation Unit} (hl : c.isLeader = true) (hd : s.model.dexOidcConfig = [r])
      (hr : r.remote = ∅) : FirstFailing c s emptyOrMissingData
  | dexUnusable {status : UnitStatus} (hl : c.isLeader = true)
      (hd : IncompleteOrAmbiguous s.model.dexOidcConfig)
      (hk : status.kind = .blocked ∨ status.kind = .waiting) : FirstFailing c s status
  | noVersions {url message : String} (hl : c.isLeader = true)
      (hd : UsableDex s.model.dexOidcConfig url)
      (hv : c.packages.versionError s.model.sdiRemotes = some (.noVersionsListed message)) :
      FirstFailing c s ⟨.waiting, message⟩
  | incompatible {url message : String} (hl : c.isLeader = true)
      (hd : UsableDex s.model.dexOidcConfig url)
      (hv : c.packages.versionError s.model.sdiRemotes = some (.noCompatibleVersions message)) :
      FirstFailing c s ⟨.blocked, message⟩
  | interfaces {url exception : String} {status : UnitStatus} (hl : c.isLeader = true)
      (hd : UsableDex s.model.dexOidcConfig url)
      (hv : c.packages.versionError s.model.sdiRemotes = some (.other exception))
      (hk : status.kind = .blocked ∨ status.kind = .waiting) : FirstFailing c s status
  | secret {url : String} (hl : c.isLeader = true) (hd : UsableDex s.model.dexOidcConfig url)
      (hv : c.packages.versionError s.model.sdiRemotes = none)
      (hp : s.model.clientSecret = []) : FirstFailing c s waitingForClientSecret
  | layer {url : String} {status : UnitStatus} {s' : HookState} (hl : c.isLeader = true)
      (hd : UsableDex s.model.dexOidcConfig url)
      (hv : c.packages.versionError s.model.sdiRemotes = none)
      (hp : s.model.clientSecret ≠ [])
      (hu : layerRun c s url = .error (.errorWithStatus status) s')
      (hk : status.kind = .maintenance ∨ status.kind = .blocked) : FirstFailing c s status

/-- `main` returns. It sets Active exactly when all checks pass, and else the status of the
first check that fails. -/
def MeetsOutcome (c : Charm) (ev : Event) (s : HookState) : Prop :=
  ∃ s' status, (main c ev).run s = .ok () s' ∧ s'.unit.status = some status ∧
    (status = activeStatus ↔ AllPass c s) ∧ (¬ AllPass c s → FirstFailing c s status)

/-! ## What escapes -/

/-- The states of the Dex relation that the check turns into a status, or passes: at most
one relation, whose databag is empty or has an issuer URL. -/
def Foreseen (rels : List (Relation Unit)) : Prop :=
  rels.length ≤ 1 ∧ ∀ r ∈ rels, r.remote = ∅ ∨ "issuer-url" ∈ r.remote

/-- When it is asked, `get_interfaces` raises nothing but its own two exceptions. -/
def SdiForeseen (c : Charm) (m : Model) : Prop :=
  (∃ url, UsableDex m.dexOidcConfig url) →
    ∀ exception, c.packages.versionError m.sdiRemotes ≠ some (.other exception)

theorem usableDex_iff (rels : List (Relation Unit)) (url : String) :
    UsableDex rels url ↔ dex_oidc_config.getData rels = .ok ⟨url⟩ :=
  (dex_oidc_config.getData_ok_iff rels ⟨url⟩).symm

theorem usableDex_of_dexCheck {rels : List (Relation Unit)} (h : dexCheck rels = .ok ()) :
    ∃ url, UsableDex rels url := by
  obtain ⟨d, hd⟩ := (dexCheck_ok_iff rels).mp h
  exact ⟨d.issuerUrl, (usableDex_iff rels d.issuerUrl).mpr hd⟩

theorem not_usableDex_of_dexCheck {rels : List (Relation Unit)} {e : Exc}
    (h : dexCheck rels = .error e) (url : String) : ¬ UsableDex rels url := by
  intro hu
  rw [(dexCheck_ok_iff rels).mpr ⟨⟨url⟩, (usableDex_iff rels url).mp hu⟩] at h
  cases h

/-- An exception of ops or of Python gets through the check exactly in the states that it
does not foresee. -/
theorem dexCheck_escapes_iff (rels : List (Relation Unit)) :
    (∃ e, dexCheck rels = .error e ∧ ∀ st, e ≠ .errorWithStatus st) ↔ ¬ Foreseen rels := by
  match rels with
  | [] => simp [dexCheck, dex_oidc_config.getData_none, Foreseen]
  | r :: r' :: rels =>
    refine ⟨fun _ hf => ?_, fun _ => ?_⟩
    · have hlen := hf.1
      simp at hlen
    · exact ⟨.tooManyRelatedApps _ _, rfl, by simp⟩
  | [r] =>
    unfold dexCheck Foreseen
    rw [dex_oidc_config.getData_one]
    by_cases hr : r.remote = ∅
    · simp [hr]
    · cases hl : r.remote.lookup "issuer-url" with
      | none =>
        have hn : "issuer-url" ∉ r.remote := Finmap.lookup_eq_none.mp hl
        simp [hr, hn]
      | some url =>
        have hin : "issuer-url" ∈ r.remote := Finmap.mem_of_lookup_eq_some hl
        simp [hr, hin]

/-- The status of a Dex check that fails is that of a missing relation or of an empty one. -/
theorem dexCheck_status_cases {rels : List (Relation Unit)} {status : UnitStatus}
    (h : dexCheck rels = .error (.errorWithStatus status)) :
    (rels = [] ∧ status = missingDexRelation) ∨
      ∃ r, rels = [r] ∧ r.remote = ∅ ∧ status = emptyOrMissingData := by
  match rels with
  | [] =>
    cases h
    exact .inl ⟨rfl, rfl⟩
  | r :: r' :: rels => cases h
  | [r] =>
    unfold dexCheck at h
    rw [dex_oidc_config.getData_one] at h
    by_cases hr : r.remote = ∅
    · rw [if_pos hr] at h
      cases h
      exact .inr ⟨r, rfl, hr, rfl⟩
    · rw [if_neg hr] at h
      cases hl : r.remote.lookup "issuer-url" <;> simp [hl] at h

theorem escapes_iff (c : Charm) (m : Model) :
    (∃ e, Escapes c m e) ↔ ¬ (Foreseen m.dexOidcConfig ∧ SdiForeseen c m) := by
  rw [not_and_or, ← dexCheck_escapes_iff]
  constructor
  · rintro ⟨e, h⟩
    cases h with
    | dex hd he => exact .inl ⟨e, hd, he⟩
    | interfaces hd hv => exact .inr fun hf => hf (usableDex_of_dexCheck hd) _ hv
  · rintro (⟨e, hd, he⟩ | hf)
    · exact ⟨e, .dex hd he⟩
    · obtain ⟨⟨url, hu⟩, hall⟩ := Classical.not_imp.mp hf
      obtain ⟨exception, hv⟩ := not_forall_not.mp hall
      have hd : dexCheck m.dexOidcConfig = .ok () :=
        (dexCheck_ok_iff _).mpr ⟨_, (usableDex_iff _ url).mp hu⟩
      exact ⟨_, .interfaces hd hv⟩

/-! ## The law -/

/-- A run of `main` that ends sets the status that is meant. -/
theorem outcome_of_ok {c : Charm} {ev : Event} {s s' : HookState}
    (h : (main c ev).run s = .ok () s') : MeetsOutcome c ev s := by
  have hrun := main_run c ev s
  rw [h] at hrun
  have hfail : ∀ {status : UnitStatus} {t : HookState}, s' = t.setStatus status →
      status ≠ activeStatus → ¬ AllPass c s → FirstFailing c s status → MeetsOutcome c ev s := by
    intro status t ht hne hnot hfirst
    exact ⟨s', status, h, by rw [ht]; rfl, iff_of_false hne hnot, fun _ => hfirst⟩
  cases hrun with
  | notLeader hl =>
    refine hfail rfl (by decide) (fun ha => ?_) (.leader hl)
    rw [ha.1] at hl
    cases hl
  | dexStatus status hl hd =>
    have hnot := not_usableDex_of_dexCheck hd
    have hfirst : FirstFailing c s status := by
      rcases dexCheck_status_cases hd with ⟨hnil, rfl⟩ | ⟨r, hone, hr, rfl⟩
      · exact .dexMissing hl hnil
      · exact .dexEmpty hl hone hr
    refine hfail rfl ?_ (fun ⟨_, _, _, url, _, hu, _⟩ => hnot url hu) hfirst
    rintro rfl
    rcases dexCheck_status hd with hk | hk <;> cases hk
  | interfaces e status hl hd hv he =>
    obtain ⟨url, hu⟩ := usableDex_of_dexCheck hd
    have hfirst : FirstFailing c s status := by
      cases e with
      | noVersionsListed message =>
        cases he
        exact .noVersions hl hu hv
      | noCompatibleVersions message =>
        cases he
        exact .incompatible hl hu hv
      | other exception => cases he
    refine hfail rfl ?_ (fun ha => ?_) hfirst
    · rintro rfl
      rcases VersionError.raised_status he with hk | hk <;> cases hk
    · rw [ha.2.1] at hv
      cases hv
  | noSecret hl hd hv hp =>
    obtain ⟨url, hu⟩ := usableDex_of_dexCheck hd
    exact hfail rfl (by decide) (fun ha => ha.2.2.1 hp) (.secret hl hu hv hp)
  | layer d status s₁ hc hu =>
    have hd : UsableDex s.model.dexOidcConfig d.issuerUrl := (usableDex_iff _ _).mpr hc.dex
    obtain ⟨_, he, hk⟩ := updateLayer_error hu
    cases he
    have hkind : status.kind = .maintenance ∨ status.kind = .blocked := by
      rcases hk with rfl | rfl
      · exact .inl rfl
      · exact .inr rfl
    refine hfail rfl ?_ ?_ (.layer hc.leader hd hc.versions hc.peer hu hkind)
    · rcases hk with rfl | rfl <;> rintro ⟨⟩
    · rintro ⟨-, -, -, url, s₂, hu', hr⟩
      rw [usableDex_iff, hc.dex] at hu'
      cases hu'
      exact absurd (hu.symm.trans hr) (by simp)
  | active d s₁ hc hu =>
    have hd : UsableDex s.model.dexOidcConfig d.issuerUrl := (usableDex_iff _ _).mpr hc.dex
    have ha : AllPass c s := ⟨hc.leader, hc.versions, hc.peer, d.issuerUrl, s₁, hd, hu⟩
    exact ⟨_, activeStatus, h, rfl, iff_of_true rfl ha, fun hn => absurd ha hn⟩

/-- The leader, related to one Dex that has written its databag without an issuer URL. -/
def sampleWithoutIssuer : HookState where
  model := { sample.model with
    dexOidcConfig := [⟨1, "dex-auth", List.toFinmap [⟨"other-key", "value"⟩], ()⟩] }
  unit := sample.freshUnit
  tape := sample.tapeA

end oidc_gatekeeper.outcome
