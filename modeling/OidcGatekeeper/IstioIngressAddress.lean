-- The address of the istio-ingress-route library: what the ingress tells its
-- requirers about its host and about TLS, while one unit of it leads. The units
-- that do not lead write nothing.
import OidcGatekeeper.IstioIngressRoute
import OidcGatekeeper.Runs

namespace oidc_gatekeeper.istio_ingress_route

/-- `_stored`, on both sides. -/
structure Stored where
  externalHost : Option String
  tlsEnabled : Option Bool
  deriving DecidableEq

/-- `set_default(external_host=None, tls_enabled=None)`. -/
def Stored.default : Stored := ⟨none, none⟩

/-- `str(b)`. -/
def str (b : Bool) : String := if b then "True" else "False"

/-- One turn of `_update_stored`. -/
def seeRelation (s : Stored) (r : Relation Databag) : Stored where
  externalHost := match r.remote.lookup "external_host" with
    | some host => if host = "" then s.externalHost else some host
    | none => s.externalHost
  tlsEnabled := some ((r.remote.lookup "tls_enabled").getD "False" = "True")

/-- `_update_stored` of the leader, which is the same on both sides. -/
def updateStored (rels : List (Relation Databag)) (s : Stored) : Stored := rels.foldl seeRelation s

/-- The properties `external_host` and `tls_enabled`, after `_update_stored`. -/
def Stored.host (s : Stored) : String := s.externalHost.getD ""

def Stored.tls (s : Stored) : Bool := s.tlsEnabled.getD false

/-! ## The ingress -/

/-- The loop of `update_ingress_address`. A value that is not given is taken from the
property, which looks at the databags of all relations first. -/
def addressLoop (externalHost : Option String) (tlsEnabled : Option Bool)
    (all : List (Relation Databag)) :
    List (Relation Databag) → Stored → List (Relation Databag)
  | [], _ => []
  | r :: rels, s =>
    let s₁ := if externalHost.getD "" = "" then updateStored all s else s
    let host := if externalHost.getD "" = "" then s₁.host else externalHost.getD ""
    let s₂ := if tlsEnabled = none then updateStored all s₁ else s₁
    let tls := tlsEnabled.getD s₂.tls
    { r with ours := put "tls_enabled" (str tls) (put "external_host" host r.ours) } ::
      addressLoop externalHost tlsEnabled all rels s₂

/-- The relations of the ingress, and what its leader has stored. -/
structure Ingress where
  relations : List (Relation Databag)
  stored : Stored

/-- `update_ingress_address`, on the leader. -/
def updateIngressAddress (externalHost : Option String) (tlsEnabled : Option Bool) (i : Ingress) :
    Ingress where
  relations := addressLoop externalHost tlsEnabled i.relations i.relations i.stored
  stored := ⟨externalHost, tlsEnabled⟩

/-- The constructor of the provider. -/
def construct (externalHost : String) (tlsEnabled : Bool) (i : Ingress) : Ingress :=
  if i.stored.externalHost ≠ some externalHost ∨ i.stored.tlsEnabled ≠ some tlsEnabled then
    updateIngressAddress (some externalHost) (some tlsEnabled) i
  else i

/-- The relation has a config. -/
def readyAt (id : Nat) (rels : List (Relation Databag)) : Bool :=
  (rels.find? fun r => r.id = id).any isReady

/-- `_on_relation_changed` of the provider. -/
def onRelationChanged (id : Nat) (i : Ingress) : Ingress :=
  if readyAt id i.relations then updateIngressAddress none none i else i

def wipedBag (bag : Databag) : Databag := (bag.erase "external_host").erase "tls_enabled"

/-- `wipe_ingress_data`. -/
def wipeIngressData (id : Nat) (i : Ingress) : Ingress where
  relations := Relation.written (fun r => if r.id = id then wipedBag r.ours else r.ours) i.relations
  stored := i.stored

/-- What happens to the relations, and the hooks of the leader. Each hook runs the
constructor with the address that the ingress has then. -/
inductive AddressStep
  | related (id : Nat) (app : String)
  | unrelated (id : Nat)
  | remote (id : Nat) (bag : Databag)
  | hook (externalHost : String) (tlsEnabled : Bool)
  | changed (externalHost : String) (tlsEnabled : Bool) (id : Nat)
  | wiped (externalHost : String) (tlsEnabled : Bool) (id : Nat)

def addressStep (i : Ingress) : AddressStep → Ingress
  | .related id app => { i with relations := Relation.added ∅ id app i.relations }
  | .unrelated id => { i with relations := Relation.removed id i.relations }
  | .remote id bag => { i with relations := Relation.remoteWritten id bag i.relations }
  | .hook externalHost tlsEnabled => construct externalHost tlsEnabled i
  | .changed externalHost tlsEnabled id =>
    onRelationChanged id (construct externalHost tlsEnabled i)
  | .wiped externalHost tlsEnabled id => wipeIngressData id (construct externalHost tlsEnabled i)

/-! ## What is told -/

def Tells (host : String) (tls : Bool) (r : Relation Databag) : Prop :=
  r.ours.lookup "external_host" = (if host = "" then none else some host) ∧
    r.ours.lookup "tls_enabled" = some (str tls)

def TellsNothing (r : Relation Databag) : Prop :=
  r.ours.lookup "external_host" = none ∧ r.ours.lookup "tls_enabled" = none

/-- The requirer tells no address. It has none. -/
def Silent (bag : Databag) : Prop :=
  bag.lookup "external_host" = none ∧ bag.lookup "tls_enabled" = none

theorem tells_put (host : String) (tls : Bool) (r : Relation Databag) :
    Tells host tls
      { r with ours := put "tls_enabled" (str tls) (put "external_host" host r.ours) } := by
  have hne : str tls ≠ "" := by cases tls <;> decide
  constructor
  · rw [lookup_put_of_ne (by decide), lookup_put_self]
  · rw [lookup_put_self, if_neg hne]

section loop

variable {host : String} {tls : Bool} {all rels : List (Relation Databag)} {s : Stored}

/-- With an address that is given, every relation is told it. -/
theorem tells_given (hhost : host ≠ "") :
    ∀ r ∈ addressLoop (some host) (some tls) all rels s, Tells host tls r := by
  induction rels generalizing s with
  | nil => simp [addressLoop]
  | cons r rels ih =>
    intro r' hr'
    unfold addressLoop at hr'
    simp only [Option.getD_some, hhost, if_false, reduceCtorEq] at hr'
    rcases List.mem_cons.mp hr' with rfl | hr'
    · exact tells_put host tls r
    · exact ih r' hr'

/-- Silent requirers leave the stored host as it is, and no TLS. -/
theorem updateStored_silent (hall : ∀ r ∈ all, Silent r.remote) (hne : all ≠ []) :
    updateStored all s = ⟨s.externalHost, some false⟩ := by
  have hsee : ∀ (t : Stored), ∀ r ∈ all, seeRelation t r = ⟨t.externalHost, some false⟩ := by
    intro t r hr
    obtain ⟨hh, ht⟩ := hall r hr
    simp [seeRelation, hh, ht]
  unfold updateStored
  induction all generalizing s with
  | nil => exact absurd rfl hne
  | cons r rest ih =>
    rw [List.foldl_cons, hsee s r List.mem_cons_self]
    cases rest with
    | nil => rfl
    | cons r' rest' =>
      exact ih (fun x hx => hall x (List.mem_cons_of_mem _ hx)) (by simp)
        fun t x hx => hsee t x (List.mem_cons_of_mem _ hx)

/-- With no address that is given, every relation is told the host that is stored, and
that there is no TLS. -/
theorem tells_stored (hall : ∀ r ∈ all, Silent r.remote) (hne : all ≠ [])
    (hs : s.externalHost = some host) :
    ∀ r ∈ addressLoop none none all rels s, Tells host false r := by
  induction rels generalizing s with
  | nil => simp [addressLoop]
  | cons r rels ih =>
    intro r' hr'
    unfold addressLoop at hr'
    simp only [Option.getD_none, if_true, updateStored_silent hall hne] at hr'
    rcases List.mem_cons.mp hr' with rfl | hr'
    · have htells := tells_put host false r
      simpa [Stored.host, Stored.tls, hs] using htells
    · exact ih (by exact hs) r' hr'

/-- The loop writes our side only. -/
theorem remotes_addressLoop {externalHost : Option String} {tlsEnabled : Option Bool} :
    Relation.remotes (addressLoop externalHost tlsEnabled all rels s) = Relation.remotes rels := by
  induction rels generalizing s with
  | nil => rfl
  | cons r rels ih =>
    unfold addressLoop
    exact congrArg (_ :: ·) ih

end loop

/-! ## The invariant -/

/-- Each relation is told this address, or nothing yet. -/
def Telling (host : String) (tls : Bool) (rels : List (Relation Databag)) : Prop :=
  ∀ r ∈ rels, Tells host tls r ∨ TellsNothing r

def AllSilent (rels : List (Relation Databag)) : Prop := ∀ r ∈ rels, Silent r.remote

/-- What only looks at the remote sides. -/
theorem allSilent_iff (rels : List (Relation Databag)) :
    AllSilent rels ↔ ∀ x ∈ Relation.remotes rels, Silent x.2.2 := by
  simp [AllSilent, Relation.remotes]

theorem readyAt_eq (id : Nat) (rels : List (Relation Databag)) : readyAt id rels =
    ((Relation.remotes rels).find? fun x => x.1 = id).any fun x => "config" ∈ x.2.2 := by
  unfold readyAt Relation.remotes
  rw [List.find?_map, Option.any_map]
  rfl

/-- What is stored has been told, or nothing is stored. -/
structure InStep (i : Ingress) : Prop where
  silent : AllSilent i.relations
  told : i.stored = .default ∨ ∃ host tls, i.stored = ⟨some host, some tls⟩ ∧
    Telling host tls i.relations

variable {i : Ingress} {host : String} {tls : Bool}

theorem remotes_construct (i : Ingress) (host : String) (tls : Bool) :
    Relation.remotes (construct host tls i).relations = Relation.remotes i.relations := by
  unfold construct
  split
  · exact remotes_addressLoop
  · rfl

theorem silent_construct (h : InStep i) (host : String) (tls : Bool) :
    AllSilent (construct host tls i).relations := by
  rw [allSilent_iff, remotes_construct, ← allSilent_iff]
  exact h.silent

/-- After the constructor, the address of the ingress is stored, and told where anything is. -/
theorem construct_telling (h : InStep i) (hhost : host ≠ "") (tls : Bool) :
    (construct host tls i).stored = ⟨some host, some tls⟩ ∧
      Telling host tls (construct host tls i).relations := by
  unfold construct
  split
  · exact ⟨rfl, fun r hr => .inl (tells_given hhost r hr)⟩
  · rename_i hsame
    simp only [not_or, not_not] at hsame
    have hstored : i.stored = ⟨some host, some tls⟩ := by
      rw [← hsame.1, ← hsame.2]
    refine ⟨hstored, ?_⟩
    rcases h.told with hd | ⟨host', tls', he, htold⟩
    · rw [hd] at hstored
      cases hstored
    · rw [he] at hstored
      cases hstored
      exact htold

/-- A fresh start: what is told by the constructor, every relation is told. -/
theorem construct_of_default (hd : i.stored = .default) (hhost : host ≠ "") :
    ∀ r ∈ (construct host tls i).relations, Tells host tls r := by
  unfold construct
  rw [hd, if_pos (.inl (by simp [Stored.default]))]
  exact tells_given hhost

/-- A ready relation-changed tells every relation that there is no TLS, and forgets what
is stored. -/
theorem changed_of_ready {id : Nat} (hs : i.stored = ⟨some host, some tls⟩)
    (hsilent : AllSilent i.relations) (hready : readyAt id i.relations = true) :
    (onRelationChanged id i).stored = .default ∧
      ∀ r ∈ (onRelationChanged id i).relations, Tells host false r := by
  unfold onRelationChanged
  rw [if_pos hready]
  refine ⟨rfl, tells_stored hsilent ?_ (by rw [hs])⟩
  intro hnil
  rw [hnil] at hready
  cases hready

theorem remotes_onRelationChanged (id : Nat) (i : Ingress) :
    Relation.remotes (onRelationChanged id i).relations = Relation.remotes i.relations := by
  unfold onRelationChanged
  split
  · exact remotes_addressLoop
  · rfl

/-- The hooks have an address, and the requirers have none. -/
def Addressed : AddressStep → Prop
  | .remote _ bag => Silent bag
  | .hook host _ | .changed host _ _ | .wiped host _ _ => host ≠ ""
  | _ => True

theorem inStep_step (h : InStep i) {st : AddressStep} (hst : Addressed st) :
    InStep (addressStep i st) := by
  cases st with
  | related id app =>
    refine ⟨fun r hr => ?_, h.told.imp_right ?_⟩
    · rcases List.mem_append.mp hr with hr | hr
      · exact h.silent r hr
      · rw [List.mem_singleton.mp hr]
        exact ⟨rfl, rfl⟩
    · rintro ⟨host, tls, he, htold⟩
      refine ⟨host, tls, he, fun r hr => ?_⟩
      rcases List.mem_append.mp hr with hr | hr
      · exact htold r hr
      · rw [List.mem_singleton.mp hr]
        exact .inr ⟨rfl, rfl⟩
  | unrelated id =>
    refine ⟨fun r hr => h.silent r (List.mem_filter.mp hr).1, h.told.imp_right ?_⟩
    rintro ⟨host, tls, he, htold⟩
    exact ⟨host, tls, he, fun r hr => htold r (List.mem_filter.mp hr).1⟩
  | remote id bag =>
    refine ⟨fun r hr => ?_, h.told.imp_right ?_⟩
    · obtain ⟨r', hr', rfl⟩ := List.mem_map.mp hr
      split
      · exact hst
      · exact h.silent r' hr'
    · rintro ⟨host, tls, he, htold⟩
      refine ⟨host, tls, he, fun r hr => ?_⟩
      obtain ⟨r', hr', rfl⟩ := List.mem_map.mp hr
      split
      · exact htold r' hr'
      · exact htold r' hr'
  | hook host tls =>
    obtain ⟨hs, htold⟩ := construct_telling h hst tls
    exact ⟨silent_construct h host tls, .inr ⟨host, tls, hs, htold⟩⟩
  | changed host tls id =>
    obtain ⟨hs, htold⟩ := construct_telling h hst tls
    have hsilent := silent_construct h host tls
    refine ⟨?_, ?_⟩
    · change AllSilent (onRelationChanged id (construct host tls i)).relations
      rw [allSilent_iff, remotes_onRelationChanged, ← allSilent_iff]
      exact hsilent
    · cases hready : readyAt id (construct host tls i).relations with
      | true => exact .inl (changed_of_ready hs hsilent hready).1
      | false =>
        have hsame : addressStep i (.changed host tls id) = construct host tls i := by
          simp [addressStep, onRelationChanged, hready]
        rw [hsame]
        exact .inr ⟨host, tls, hs, htold⟩
  | wiped host tls id =>
    obtain ⟨hs, htold⟩ := construct_telling h hst tls
    refine ⟨fun r hr => ?_, .inr ⟨host, tls, hs, fun r hr => ?_⟩⟩
    · obtain ⟨r', hr', rfl⟩ := (Relation.mem_written _ _ _).mp hr
      exact silent_construct h host tls r' hr'
    · obtain ⟨r', hr', rfl⟩ := (Relation.mem_written _ _ _).mp hr
      by_cases hid : r'.id = id
      · refine .inr ⟨?_, ?_⟩ <;> simp [hid, wipedBag, Finmap.lookup_erase_ne]
      · have hr := htold r' hr'
        unfold Tells TellsNothing at hr ⊢
        simpa only [hid, if_false] using hr

/-! ## What a requirer hears -/

/-- The properties `external_host` and `tls_enabled` of a requirer that leads, with this one
route relation. -/
def heard (app : String) (r : Relation Databag) (s : Stored) : String × Bool :=
  ((updateStored [otherSide app r] s).host, (updateStored [otherSide app r] s).tls)

theorem heard_of_tells {r : Relation Databag} (h : Tells host tls r) (hhost : host ≠ "")
    (app : String) (s : Stored) : heard app r s = (host, tls) := by
  obtain ⟨hh, ht⟩ := h
  rw [if_neg hhost] at hh
  simp only [heard, updateStored, List.foldl_cons, List.foldl_nil, seeRelation, otherSide, hh, ht,
    Stored.host, Stored.tls, hhost, if_false, Option.getD_some]
  cases tls <;> rfl

theorem heard_of_tellsNothing {r : Relation Databag} (h : TellsNothing r) (app : String)
    (s : Stored) : heard app r s = (s.host, false) := by
  simp [heard, updateStored, seeRelation, otherSide, h.1, h.2, Stored.host, Stored.tls]

/-- Over every run with one leader: after a hook, a requirer hears the host and the TLS flag
of that hook, or is told nothing yet and keeps the host that it has. A relation-changed of
a requirer with a config makes every requirer hear that there is no TLS, up to the next
hook, after which every one of them hears the truth. -/
theorem a_requirer_hears_the_address_or_keeps_its_host {steps : List AddressStep}
    (h : ∀ st ∈ steps, Addressed st) (hhost : host ≠ "") (tls : Bool) :
    (∀ r ∈ (addressStep (runs.run addressStep ⟨[], .default⟩ steps) (.hook host tls)).relations,
      ∀ app s, heard app r s = (host, tls) ∨ heard app r s = (s.host, false)) ∧
    ∀ id, readyAt id (runs.run addressStep ⟨[], .default⟩ steps).relations = true →
      (∀ r ∈ (runs.run addressStep ⟨[], .default⟩ (steps ++ [.changed host tls id])).relations,
        ∀ app s, heard app r s = (host, false)) ∧
      ∀ host' tls', host' ≠ "" →
        ∀ r ∈ (runs.run addressStep ⟨[], .default⟩
          (steps ++ [.changed host tls id, .hook host' tls'])).relations,
          ∀ app s, heard app r s = (host', tls') := by
  have hmeets : runs.Meets (fun _ => Addressed) addressStep ⟨[], .default⟩ steps :=
    runs.meets_of_forall h
  have hin : InStep (runs.run addressStep ⟨[], .default⟩ steps) :=
    runs.run_keeps_of_meets (fun _ _ hi hst => inStep_step hi hst)
      ⟨by simp [AllSilent], .inl rfl⟩ hmeets
  simp only [runs.run_append]
  generalize runs.run addressStep ⟨[], .default⟩ steps = i at hin ⊢
  obtain ⟨hs, htold⟩ := construct_telling hin hhost tls
  refine ⟨fun r hr app s => ?_, fun id hready => ?_⟩
  · rcases htold r hr with hr | hr
    · exact .inl (heard_of_tells hr hhost app s)
    · exact .inr (heard_of_tellsNothing hr app s)
  · have hready' : readyAt id (construct host tls i).relations = true := by
      rw [readyAt_eq, remotes_construct, ← readyAt_eq]
      exact hready
    obtain ⟨hdefault, htells⟩ := changed_of_ready hs (silent_construct hin host tls) hready'
    refine ⟨fun r hr app s => heard_of_tells (htells r hr) hhost app s, ?_⟩
    intro host' tls' hhost' r hr app s
    exact heard_of_tells (construct_of_default hdefault hhost' r hr) hhost' app s

/-- A gatekeeper submits its config to an ingress with TLS. -/
def routedSteps : List AddressStep :=
  [.related 9 "oidc-gatekeeper", .hook "ingress.example" true,
    .remote 9 (Finmap.singleton "config" "\x7b\x7d")]

theorem a_requirer_hears_the_address_or_keeps_its_host_routed : ∃ r r',
    (runs.run addressStep ⟨[], .default⟩
      (routedSteps ++ [.changed "ingress.example" true 9])).relations = [r] ∧
    heard "istio-ingress" r .default = ("ingress.example", false) ∧
    (runs.run addressStep ⟨[], .default⟩ (routedSteps ++
      [.changed "ingress.example" true 9, .hook "ingress.example" true])).relations = [r'] ∧
    heard "istio-ingress" r' .default = ("ingress.example", true) := by
  have haddressed : ∀ st ∈ routedSteps, Addressed st := by
    simp only [routedSteps, List.mem_cons, List.not_mem_nil, or_false]
    rintro st (rfl | rfl | rfl)
    · trivial
    · exact (by decide : "ingress.example" ≠ "")
    · exact ⟨rfl, rfl⟩
  have hhost : "ingress.example" ≠ "" := by decide
  obtain ⟨-, hready⟩ := a_requirer_hears_the_address_or_keeps_its_host haddressed hhost true
  obtain ⟨hchanged, hnext⟩ := hready 9 (by decide)
  have hnow := hchanged _ List.mem_cons_self "istio-ingress" .default
  have hthen := hnext _ true hhost _ List.mem_cons_self "istio-ingress" .default
  exact ⟨_, _, rfl, hnow, rfl, hthen⟩

end oidc_gatekeeper.istio_ingress_route
