-- The provider side of the dex-oidc-config library, and what the gatekeeper reads of
-- it: over every run of the hooks of Dex, the gatekeeper waits until a leader of Dex
-- has sent its issuer URL, and then it reads the one that was sent last.
import OidcGatekeeper.Outcome
import OidcGatekeeper.Runs

namespace oidc_gatekeeper.dex_oidc_config

/-! ## The hooks of Dex -/

/-- The events that the library handles, and all others. -/
inductive DexEvent
  | leaderElected | relationCreated | refresh | other
  deriving DecidableEq

/-- `send_data`. -/
def sendData (isLeader : Bool) (issuerUrl : String) (rels : List (Relation Databag)) :
    List (Relation Databag) :=
  if !isLeader then rels else Relation.written (fun r => put "issuer-url" issuerUrl r.ours) rels

/-- A unit of Dex handles an event. The issuer URL comes from its own charm. -/
def providerHook (isLeader : Bool) (issuerUrl : String) (ev : DexEvent)
    (rels : List (Relation Databag)) : List (Relation Databag) :=
  match ev with
  | .leaderElected | .relationCreated | .refresh => sendData isLeader issuerUrl rels
  | .other => rels

inductive DexStep
  | related (id : Nat) (app : String)
  | unrelated (id : Nat)
  | remote (id : Nat) (bag : Databag)
  | hook (isLeader : Bool) (issuerUrl : String) (ev : DexEvent)

def dexStep (rels : List (Relation Databag)) : DexStep → List (Relation Databag)
  | .related id app => Relation.added ∅ id app rels
  | .unrelated id => Relation.removed id rels
  | .remote id bag => Relation.remoteWritten id bag rels
  | .hook isLeader issuerUrl ev => providerHook isLeader issuerUrl ev rels

/-! ## What was sent -/

/-- The issuer URL that a relation was sent last, if any. -/
structure Sent where
  id : Nat
  issuerUrl : Option String
  deriving DecidableEq

/-- A leader that handles one of these sends. -/
def Sends (isLeader : Bool) (ev : DexEvent) : Prop := isLeader = true ∧ ev ≠ .other

instance (isLeader : Bool) (ev : DexEvent) : Decidable (Sends isLeader ev) :=
  inferInstanceAs (Decidable (_ ∧ _))

/-- The machine that only remembers what was sent last. Juju sends no empty value. -/
def sentStep (sent : List Sent) : DexStep → List Sent
  | .related id _ => sent ++ [⟨id, none⟩]
  | .unrelated id => sent.filter (·.id ≠ id)
  | .remote _ _ => sent
  | .hook isLeader issuerUrl ev =>
    if Sends isLeader ev then
      sent.map fun t => { t with issuerUrl := if issuerUrl = "" then none else some issuerUrl }
    else sent

/-- The relation as the gatekeeper sees it. -/
def gatekeeperSide (dex : String) (r : Relation Databag) : Relation Unit := ⟨r.id, dex, r.ours, ()⟩

/-- The databag of Dex holds what was sent, and nothing else. -/
def Holds (r : Relation Databag) (t : Sent) : Prop :=
  r.id = t.id ∧ ∀ k, r.ours.lookup k = if k = "issuer-url" then t.issuerUrl else none

theorem holds_put {r : Relation Databag} {t : Sent} (h : Holds r t) (issuerUrl : String) :
    Holds { r with ours := put "issuer-url" issuerUrl r.ours }
      { t with issuerUrl := if issuerUrl = "" then none else some issuerUrl } := by
  refine ⟨h.1, ?_⟩
  intro k
  by_cases hk : k = "issuer-url"
  · subst hk
    rw [lookup_put_self, if_pos rfl]
  · rw [lookup_put_of_ne hk, h.2 k, if_neg hk, if_neg hk]

/-- Each hook keeps the databags in step with what was sent. -/
theorem holds_step {rels : List (Relation Databag)} {sent : List Sent}
    (h : List.Forall₂ Holds rels sent) (st : DexStep) :
    List.Forall₂ Holds (dexStep rels st) (sentStep sent st) := by
  cases st with
  | related id app =>
    have hnew : Holds ⟨id, app, ∅, ∅⟩ ⟨id, none⟩ := ⟨rfl, fun k => by simp⟩
    exact List.rel_append h (.cons hnew .nil)
  | unrelated id =>
    apply List.rel_filter ?_ h
    intro r t hr
    simp [hr.1]
  | remote id bag =>
    refine List.forall₂_map_left_iff.mpr (h.imp ?_)
    intro r t hr
    split
    · exact hr
    · exact hr
  | hook isLeader issuerUrl ev =>
    unfold dexStep providerHook sentStep sendData Sends
    cases isLeader with
    | false => cases ev <;> simpa using h
    | true =>
      have hsent : List.Forall₂ Holds (Relation.written (fun r => put "issuer-url" issuerUrl r.ours)
          rels) (sent.map fun t =>
            { t with issuerUrl := if issuerUrl = "" then none else some issuerUrl }) := by
        refine List.forall₂_map_left_iff.mpr (List.forall₂_map_right_iff.mpr (h.imp ?_))
        exact fun r t hr => holds_put hr issuerUrl
      cases ev with
      | other => simpa using h
      | leaderElected | relationCreated | refresh => simpa using hsent

/-! ## What the gatekeeper reads -/

/-- What the gatekeeper reads of its one Dex relation, what its check says, and that the
check foresees the state of the relation. -/
structure Reads (dex : String) (r : Relation Databag) (t : Sent) : Prop where
  data : getData [gatekeeperSide dex r] = match t.issuerUrl with
    | some url => .ok ⟨url⟩
    | none => .error (.dexOidcConfigRelationDataMissing
        "No data found in relation dex-oidc-config data bag.")
  check : dexCheck [gatekeeperSide dex r] = match t.issuerUrl with
    | some _ => .ok ()
    | none => .error (.errorWithStatus emptyOrMissingData)
  foreseen : outcome.Foreseen [gatekeeperSide dex r]

theorem reads_of_holds (dex : String) {r : Relation Databag} {t : Sent} (h : Holds r t) :
    Reads dex r t := by
  obtain ⟨-, hlookup⟩ := h
  have hurl : r.ours.lookup "issuer-url" = t.issuerUrl := by rw [hlookup, if_pos rfl]
  cases ht : t.issuerUrl with
  | none =>
    have hempty : r.ours = ∅ := by
      apply Finmap.ext_lookup
      intro k
      rw [hlookup, ht]
      simp
    have hdata : getData [gatekeeperSide dex r] = .error (.dexOidcConfigRelationDataMissing
        "No data found in relation dex-oidc-config data bag.") := by
      rw [getData_one, gatekeeperSide, if_pos hempty]
    refine ⟨by rw [hdata, ht], by rw [dexCheck, hdata, ht], Nat.le_refl _, ?_⟩
    intro r' hr'
    rw [List.mem_singleton.mp hr']
    exact .inl hempty
  | some url =>
    rw [ht] at hurl
    have hdata : getData [gatekeeperSide dex r] = .ok ⟨url⟩ :=
      (getData_ok_iff _ _).mpr ⟨_, rfl, hurl⟩
    refine ⟨by rw [hdata, ht], by rw [dexCheck, hdata, ht], Nat.le_refl _, ?_⟩
    intro r' hr'
    rw [List.mem_singleton.mp hr']
    exact .inr (Finmap.mem_of_lookup_eq_some hurl)

/-- Over every run of the hooks of Dex, on units that lead and units that do not, a
gatekeeper reads the issuer URL that a leader of Dex sent it last, and waits while there is
none. It never meets a databag that its check does not foresee. A leader that handles an
observed event sends to every one of them. -/
theorem the_gatekeeper_reads_the_issuer_sent_last (dex : String) (steps : List DexStep) :
    List.Forall₂ (Reads dex) (runs.run dexStep [] steps) (runs.run sentStep [] steps) ∧
    ∀ url ev, url ≠ "" → ev ≠ .other →
      ∀ r ∈ runs.run dexStep [] (steps ++ [.hook true url ev]),
        getData [gatekeeperSide dex r] = .ok ⟨url⟩ := by
  refine ⟨?_, ?_⟩
  · have hholds : List.Forall₂ Holds (runs.run dexStep [] steps) (runs.run sentStep [] steps) :=
      runs.refines (R := List.Forall₂ Holds) (fun _ _ st h => holds_step h st) .nil steps
    exact hholds.imp fun r t h => reads_of_holds dex h
  · intro url ev hurl hev r hr
    have hsend : ∀ rels, dexStep rels (.hook true url ev) =
        Relation.written (fun r => put "issuer-url" url r.ours) rels := by
      intro rels
      cases ev with
      | other => exact absurd rfl hev
      | leaderElected | relationCreated | refresh => rfl
    rw [runs.run_append, runs.run_cons, runs.run_nil, hsend] at hr
    obtain ⟨r', -, rfl⟩ := (Relation.mem_written _ _ _).mp hr
    refine (getData_ok_iff _ _).mpr ⟨_, rfl, ?_⟩
    change (put "issuer-url" url r'.ours).lookup "issuer-url" = some url
    rw [lookup_put_self, if_neg hurl]

/-- The relation is made while no unit of Dex leads. The leader sends when it is elected. -/
theorem the_gatekeeper_reads_the_issuer_sent_last_elected :
    (runs.run dexStep [] ([.related 3 "oidc-gatekeeper",
      .hook false "https://old.example/dex" .relationCreated] ++
        [.hook true "https://dex.example/dex" .leaderElected])).map
      (fun r => getData [gatekeeperSide "dex-auth" r]) = [.ok ⟨"https://dex.example/dex"⟩] := by
  obtain ⟨-, hreads⟩ := the_gatekeeper_reads_the_issuer_sent_last "dex-auth"
    [.related 3 "oidc-gatekeeper", .hook false "https://old.example/dex" .relationCreated]
  have hr := hreads "https://dex.example/dex" .leaderElected (by decide) (by decide) _
    (List.mem_singleton_self _)
  exact congrArg (fun x => [x]) hr

end oidc_gatekeeper.dex_oidc_config
