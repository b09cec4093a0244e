-- Runs of the service patch: events in any order, each of them refused any of its calls,
-- and other writers in between. What the patch leaves alone, and what it cannot bring back.
import OidcGatekeeper.KubernetesServicePatch

open handlers

namespace oidc_gatekeeper.kubernetes_service_patch

/-! ## What one call can do -/

section calls

variable {J : Cluster → Prop} {name : String} {s s' : Api}

/-- A law about the cluster behind the API. -/
abbrev On (J : Cluster → Prop) (s : Api) : Prop := J s.cluster

theorem keeps_call (k : Call) : Keeps (On J) (call k) := by
  unfold call
  refine keeps_bind keeps_get fun s => keeps_bind (keeps_modify fun _ h => h) fun _ => ?_
  split
  · exact keeps_throw _
  · exact keeps_pure _

theorem keeps_setCluster {f : Cluster → Cluster} (hf : ∀ c, J c → J (f c)) :
    Keeps (On J) (setCluster f) := keeps_modify fun s h => hf s.cluster h

theorem keeps_getService : Keeps (On J) (getService name) := by
  unfold getService
  refine keeps_bind (keeps_call _) fun _ => keeps_bind keeps_get fun s => ?_
  split
  · exact keeps_pure _
  · exact keeps_throw _

theorem keeps_createService {service : Service KeptPort}
    (hJ : ∀ c, J c → J (c.insert name service)) : Keeps (On J) (createService name service) := by
  unfold createService
  refine keeps_bind (keeps_call _) fun _ => keeps_bind keeps_get fun s => ?_
  exact keeps_ite (fun _ => keeps_throw _) fun _ => keeps_setCluster hJ

theorem keeps_deleteService (hJ : ∀ c, J c → J (c.erase name)) :
    Keeps (On J) (deleteService name) := by
  unfold deleteService
  refine keeps_bind (keeps_call _) fun _ => keeps_bind keeps_get fun s => ?_
  exact keeps_ite (fun _ => keeps_setCluster hJ) fun _ => keeps_throw _

theorem keeps_patchService {service : Service ServicePort}
    (hJ : ∀ c old, J c → c.lookup name = some old → J (c.insert name (old.merged service))) :
    Keeps (On J) (patchService name service) := by
  unfold patchService
  refine keeps_bind (keeps_call _) fun _ => keeps_read fun s s' h hleaves => ?_
  cases hlookup : s.cluster.lookup name with
  | none =>
    simp only [hlookup] at hleaves
    exact keeps_throw _ h hleaves
  | some old =>
    simp only [hlookup] at hleaves
    rcases hleaves with hr | hr
    · cases hr
      exact hJ s.cluster old h hlookup
    · cases hr

theorem keeps_listServices {app : String} : Keeps (On J) (listServices app) := by
  unfold listServices
  exact keeps_bind (keeps_call _) fun _ => keeps_bind keeps_get fun s => keeps_pure _

theorem keeps_newClient : Keeps (On J) newClient := by
  unfold newClient
  exact keeps_bind keeps_get fun s => keeps_ite (fun _ => keeps_throw _) fun _ => keeps_pure _

theorem cluster_of_call {k : Call} {u : Unit} (h : (call k).run s = .ok u s') :
    s'.cluster = s.cluster := keeps_call (J := fun c => c = s.cluster) k rfl (.ok h)

/-- A service that is got is there. -/
theorem lookup_of_getService {service : Service KeptPort}
    (h : (getService name).run s = .ok service s') : s.cluster.lookup name = some service := by
  unfold getService at h
  obtain ⟨u, s₁, hcall, h⟩ := run_bind_ok_iff.mp h
  obtain ⟨t, s₂, hget, h⟩ := run_bind_ok_iff.mp h
  cases hget
  rw [← cluster_of_call hcall]
  split at h
  · cases h
    assumption
  · cases h

theorem mem_listed {app : String} {c : Cluster} {service : Service KeptPort} :
    (name, service) ∈ listed app c ↔ c.lookup name = some service ∧
      service.labels.lookup "app.kubernetes.io/name" = some app := by
  unfold listed
  rw [List.mem_map]
  constructor
  · rintro ⟨e, he, heq⟩
    cases heq
    obtain ⟨hmem, hlabel⟩ := List.mem_filter.mp he
    exact ⟨AList.mem_lookup_iff.mpr hmem, of_decide_eq_true hlabel⟩
  · rintro ⟨hlookup, hlabel⟩
    exact ⟨⟨name, service⟩, List.mem_filter.mpr
      ⟨AList.mem_lookup_iff.mp hlookup, decide_eq_true hlabel⟩, rfl⟩

theorem lookup_of_listServices {app : String} {services : List (String × Service KeptPort)}
    (h : (listServices app).run s = .ok services s') :
    ∀ e ∈ services, s'.cluster.lookup e.1 = some e.2 ∧
      e.2.labels.lookup "app.kubernetes.io/name" = some app := by
  unfold listServices at h
  obtain ⟨u, s₁, hcall, h⟩ := run_bind_ok_iff.mp h
  obtain ⟨t, s₂, hget, h⟩ := run_bind_ok_iff.mp h
  cases hget
  cases h
  exact fun e he => mem_listed.mp he

end calls

/-! ## What a handler can do -/

/-- What `_on_upgrade_charm` takes for a load balancer of an earlier version. -/
def Patcher.OldLoadBalancer (p : Patcher) (service : Service KeptPort) : Prop :=
  service.type = .loadBalancer ∧ service.labels.lookup "app.kubernetes.io/name" = some p.app

namespace Patcher

variable {p : Patcher} {J : Cluster → Prop}

theorem keeps_isPatched : Keeps (On J) p.isPatched := by
  unfold isPatched
  refine keeps_bind (keeps_tryCatch (keeps_map keeps_getService some) fun e =>
    keeps_ite (fun _ => keeps_pure _) fun _ => keeps_throw _) fun fetched => ?_
  cases fetched with
  | none => exact keeps_pure _
  | some service => exact keeps_pure _

theorem keeps_deleteLoadBalancers {services : List (String × Service KeptPort)}
    (hJ : ∀ e ∈ services, e.2.type = .loadBalancer → ∀ c, J c → J (c.erase e.1)) :
    Keeps (On J) (deleteLoadBalancers services) := by
  induction services with
  | nil => exact keeps_pure _
  | cons e services ih =>
    obtain ⟨name, service⟩ := e
    have hrest := ih fun e he => hJ e (List.mem_cons_of_mem _ he)
    unfold deleteLoadBalancers
    exact keeps_ite (fun hlb => keeps_bind (keeps_deleteService
      (hJ _ List.mem_cons_self hlb)) fun _ => hrest) fun _ => hrest

theorem keeps_removeService (hJ : ∀ c, J c → J (c.erase p.serviceName)) :
    Keeps (On J) p.removeService := by
  unfold removeService
  exact keeps_bind keeps_newClient fun _ => keeps_tryCatch (keeps_deleteService hJ) fun e =>
    keeps_ite (fun _ => keeps_pure _) fun _ => keeps_throw _

theorem keeps_patch_of_body (hbody : Keeps (On J) p.patchBody) : Keeps (On J) p.patch := by
  unfold patch
  refine keeps_bind keeps_get fun s => keeps_ite (fun _ => keeps_pure _) fun _ =>
    keeps_tryCatch hbody fun e => ?_
  cases e with
  | apiError code => exact keeps_pure _
  | configError => exact keeps_throw _

/-- An upgrade deletes only what is an old load balancer when it looks. -/
theorem keeps_onUpgradeCharm (hpatch : Keeps (On J) p.patch)
    (hold : p.serviceType = .clusterIP → ∀ name service, (∃ c, J c ∧ c.lookup name = some service) →
      p.OldLoadBalancer service → ∀ c, J c → J (c.erase name)) :
    Keeps (On J) p.onUpgradeCharm := by
  unfold onUpgradeCharm
  refine keeps_ite (fun hip => ?_) fun _ => hpatch
  refine keeps_bind keeps_newClient fun _ => ?_
  refine keeps_bind_of (Q := fun services : List (String × Service KeptPort) => ∀ e ∈ services,
    e.2.labels.lookup "app.kubernetes.io/name" = some p.app ∧
      ∃ c, J c ∧ c.lookup e.1 = some e.2) keeps_listServices ?_ fun services hservices => ?_
  · intro s services s' hs hrun e he
    obtain ⟨hlookup, hlabel⟩ := lookup_of_listServices hrun e he
    exact ⟨hlabel, s'.cluster, keeps_listServices hs (.ok hrun), hlookup⟩
  · refine keeps_bind (keeps_deleteLoadBalancers fun e he hlb => ?_) fun _ => hpatch
    obtain ⟨hlabel, hthere⟩ := hservices e he
    exact hold hip e.1 e.2 hthere ⟨hlb, hlabel⟩

theorem keeps_handler (hpatch : Keeps (On J) p.patch)
    (hremove : ∀ c, J c → J (c.erase p.serviceName))
    (hold : p.serviceType = .clusterIP → ∀ name service, (∃ c, J c ∧ c.lookup name = some service) →
      p.OldLoadBalancer service → ∀ c, J c → J (c.erase name)) (e : Event) :
    Keeps (On J) (p.handler e) := by
  cases e with
  | install => exact hpatch
  | updateStatus => exact hpatch
  | upgradeCharm => exact keeps_onUpgradeCharm hpatch hold
  | remove => exact keeps_removeService hremove

/-- What a patch puts under the name of its service. -/
inductive Puts (p : Patcher) (J : Cluster → Prop) : Service KeptPort → Prop
  | merged {old : Service KeptPort} {c : Cluster} (h : J c)
      (hold : c.lookup p.serviceName = some old) : Puts p J (old.merged p.service)
  | balancer (hlb : p.serviceType = .loadBalancer) : Puts p J p.service.kept
  | renamed {service : Service KeptPort} {c : Cluster} (h : J c)
      (hservice : c.lookup p.app = some service) : Puts p J service

/-- The writes of a patch: to the service that it manages, and the service of Juju goes. -/
theorem keeps_patch (happ : ∀ c, J c → J (c.erase p.app))
    (hput : ∀ c service, Puts p J service → J c → J (c.insert p.serviceName service)) :
    Keeps (On J) p.patch := by
  apply keeps_patch_of_body
  have hpatch : Keeps (On J) (patchService p.serviceName p.service) :=
    keeps_patchService fun c old h hold => hput c _ (.merged h hold) h
  have hrename : Keeps (On J) p.deleteAndCreateService := by
    unfold deleteAndCreateService
    refine keeps_bind_of (Q := Puts p J) keeps_getService (fun hs hrun =>
      .renamed hs (lookup_of_getService hrun)) fun service hservice => ?_
    exact keeps_bind (keeps_deleteService happ) fun _ =>
      keeps_createService fun c h => hput c _ hservice h
  unfold patchBody
  refine keeps_bind keeps_isPatched fun b => keeps_ite (fun _ => keeps_pure _) fun _ => ?_
  refine keeps_ite (fun _ => ?_) fun _ => hpatch
  refine keeps_ite (fun _ => keeps_bind hrename fun _ => hpatch) fun hlb => ?_
  refine keeps_bind ?_ fun _ => hpatch
  unfold createLbService
  refine keeps_tryCatch (keeps_bind keeps_getService fun _ => keeps_pure _) fun e => ?_
  cases e with
  | apiError code => exact keeps_createService fun c h => hput c _ (.balancer (not_not.mp hlb)) h
  | configError => exact keeps_throw _

end Patcher

theorem leaves_left {α : Type} (x : Client α) (s : Api) : Leaves x s (left x s) := by
  cases h : x.run s with
  | ok a s' => exact .ok (a := a) (by simp [left, h])
  | error e s' => exact .error (e := e) (by simp [left, h])

theorem patchStep_event {p : Patcher} {J : Cluster → Prop} {e : Event}
    (hkeeps : Keeps (On J) (p.handler e)) {c : Cluster} (h : J c) (configured : Bool)
    (faults : List (Option Nat)) : J (patchStep p c (.event e configured faults)) :=
  hkeeps h (leaves_left _ ⟨c, configured, faults, []⟩)

/-! ## What the patch leaves alone -/

/-- The cluster without the charm. -/
def outsideStep (c : Cluster) : PatchStep → Cluster
  | .event .. => c
  | .outside name service => written name service c

/-- A service is as the others left it, or it was an old load balancer and is gone. -/
def LeftAlone (p : Patcher) (name : String) (c others : Cluster) : Prop :=
  c.lookup name = others.lookup name ∨
    c.lookup name = none ∧ p.serviceType = .clusterIP ∧
      ∃ service, others.lookup name = some service ∧ p.OldLoadBalancer service

section alone

variable {p : Patcher} {name : String}

theorem LeftAlone.congr {c c' others : Cluster} (h : LeftAlone p name c others)
    (heq : c'.lookup name = c.lookup name) : LeftAlone p name c' others := by
  unfold LeftAlone
  rw [heq]
  exact h

theorem LeftAlone.erase {c others : Cluster} (h : LeftAlone p name c others) {n : String}
    (hn : name ≠ n) : LeftAlone p name (c.erase n) others :=
  h.congr (AList.lookup_erase_ne hn)

theorem LeftAlone.insert {c others : Cluster} (h : LeftAlone p name c others) {n : String}
    (hn : name ≠ n) (service : Service KeptPort) : LeftAlone p name (c.insert n service) others :=
  h.congr (AList.lookup_insert_ne hn)

theorem LeftAlone.of_old {c c' others : Cluster} (h : LeftAlone p name c others)
    (h' : LeftAlone p name c' others) (hip : p.serviceType = .clusterIP) {n : String}
    {service : Service KeptPort} (hservice : c.lookup n = some service)
    (hold : p.OldLoadBalancer service) : LeftAlone p name (c'.erase n) others := by
  by_cases hn : name = n
  · subst hn
    refine .inr ⟨AList.lookup_erase _ _, hip, service, ?_, hold⟩
    rcases h with heq | ⟨hnone, -⟩
    · rw [← heq, hservice]
    · rw [hservice] at hnone
      cases hnone
  · exact h'.erase hn

theorem written_congr {c others : Cluster} {n : String} (service : Option (Service KeptPort))
    (h : LeftAlone p name c others) :
    LeftAlone p name (written n service c) (written n service others) := by
  by_cases hn : name = n
  · subst hn
    left
    cases service <;> simp [written]
  · have hkeep : ∀ c : Cluster, (written n service c).lookup name = c.lookup name := by
      intro c
      cases service with
      | none => exact AList.lookup_erase_ne hn
      | some service => exact AList.lookup_insert_ne hn
    unfold LeftAlone
    rw [hkeep c, hkeep others]
    exact h

/-- Over every run, whatever the API refuses, a service that is neither that of Juju nor
the one of the patch is as the other writers left it. Only a patch for a cluster address
may delete it, when it is a load balancer with the label of the application. -/
theorem other_services_are_left_alone (happ : name ≠ p.app) (hname : name ≠ p.serviceName)
    (c : Cluster) (steps : List PatchStep) :
    LeftAlone p name (runs.run (patchStep p) c steps) (runs.run outsideStep c steps) := by
  refine runs.refines (R := LeftAlone p name) ?_ (.inl rfl) steps
  intro c others step h
  cases step with
  | outside n service => exact written_congr service h
  | event e configured faults =>
    refine patchStep_event (Patcher.keeps_handler (J := fun c => LeftAlone p name c others)
      (Patcher.keeps_patch ?_ ?_) ?_ ?_ e) h configured faults
    · exact fun c h => h.erase happ
    · exact fun c service _ h => h.insert hname service
    · exact fun c h => h.erase hname
    · rintro hip n service ⟨c, hc, hservice⟩ hold c' hc'
      exact hc.of_old hc' hip hservice hold

theorem other_services_are_left_alone_database :
    (runs.run (patchStep (servicePatcher "gate")) (deployed "gate")
      [.event .install true [], .outside "db" (some (jujuService "db")),
        .event .upgradeCharm true [none, some 403], .event .remove true []]).lookup "db" =
      some (jujuService "db") := by
  have halone : LeftAlone (servicePatcher "gate") "db" _ _ :=
    other_services_are_left_alone (by decide) (by decide) (deployed "gate")
      [.event .install true [], .outside "db" (some (jujuService "db")),
        .event .upgradeCharm true [none, some 403], .event .remove true []]
  rcases halone with h | ⟨-, -, h⟩
  · exact h
  · obtain ⟨service, hs, hlb, -⟩ := h
    have hjuju : jujuService "db" = service := Option.some.inj hs
    subst hjuju
    cases hlb

end alone

/-! ## What it leaves alone in its own service -/

/-- A label or an annotation that the patch does not ask for is the same. -/
structure SameForeign (p : Patcher) (service others : Service KeptPort) : Prop where
  labels : ∀ k ∉ p.service.labels, service.labels.lookup k = others.labels.lookup k
  annotations : ∀ k ∉ p.service.annotations,
    service.annotations.lookup k = others.annotations.lookup k

/-- The service of the patch, while it is there, has the labels and the annotations of the
others. -/
def KeepsForeign (p : Patcher) (others c : Cluster) : Prop :=
  ∀ service, c.lookup p.serviceName = some service →
    ∃ service', others.lookup p.serviceName = some service' ∧ SameForeign p service service'

section foreign

variable {p : Patcher} {others : Cluster}

theorem KeepsForeign.erase {c : Cluster} (h : KeepsForeign p others c) (n : String) :
    KeepsForeign p others (c.erase n) := by
  intro service hs
  by_cases hn : p.serviceName = n
  · rw [hn, AList.lookup_erase] at hs
    cases hs
  · rw [AList.lookup_erase_ne hn] at hs
    exact h service hs

theorem SameForeign.merged {old service' : Service KeptPort} (h : SameForeign p old service') :
    SameForeign p (old.merged p.service) service' := by
  refine ⟨fun k hk => ?_, fun k hk => ?_⟩
  · rw [← h.labels k hk]
    exact Finmap.lookup_union_right hk
  · rw [← h.annotations k hk]
    exact Finmap.lookup_union_right hk

theorem keeps_patch_foreign (hname : p.serviceName = p.app) :
    Keeps (On (KeepsForeign p others)) p.patch := by
  refine Patcher.keeps_patch (fun c h => h.erase _) fun c service hput _ service₁ hs => ?_
  rw [AList.lookup_insert] at hs
  cases hs
  cases hput with
  | merged h hold =>
    obtain ⟨service', hothers, hsame⟩ := h _ hold
    exact ⟨service', hothers, hsame.merged⟩
  | balancer hlb => exact absurd hname (p.lbName hlb)
  | renamed h hservice => exact h _ (hname ▸ hservice)

theorem written_foreign {c : Cluster} (h : KeepsForeign p others c) (n : String)
    (service : Option (Service KeptPort)) :
    KeepsForeign p (written n service others) (written n service c) := by
  intro service₁ hs
  by_cases hn : p.serviceName = n
  · subst hn
    cases service with
    | none => simp [written] at hs
    | some service =>
      simp only [written, AList.lookup_insert, Option.some.injEq] at hs ⊢
      subst hs
      exact ⟨_, rfl, fun _ _ => rfl, fun _ _ => rfl⟩
  · cases service with
    | none =>
      simp only [written, AList.lookup_erase_ne hn] at hs ⊢
      exact h service₁ hs
    | some service =>
      simp only [written, AList.lookup_insert_ne hn] at hs ⊢
      exact h service₁ hs

/-- Over every run, whatever the API refuses, the service of Juju keeps the labels and the
annotations that others give it and the patch does not ask for, as long as it is there. -/
theorem the_labels_of_others_survive_the_patch (hname : p.serviceName = p.app) (c : Cluster)
    (steps : List PatchStep) :
    KeepsForeign p (runs.run outsideStep c steps) (runs.run (patchStep p) c steps) := by
  refine runs.refines (R := fun c others => KeepsForeign p others c) ?_ ?_ steps
  · intro c others step h
    cases step with
    | outside n service => exact written_foreign h n service
    | event e configured faults =>
      exact patchStep_event (Patcher.keeps_handler (keeps_patch_foreign hname)
        (fun c h => h.erase _) (fun _ n _ _ _ c h => h.erase n) e) h configured faults
  · exact fun service hs => ⟨service, hs, fun _ _ => rfl, fun _ _ => rfl⟩

/-- The service with the label of an ambient mesh. -/
def meshedService : Service KeptPort :=
  { jujuService "gate" with
    labels := (jujuService "gate").labels.insert "istio.io/dataplane-mode" "ambient" }

theorem the_labels_of_others_survive_the_patch_meshed : ∃ service,
    (runs.run (patchStep (servicePatcher "gate")) (deployed "gate")
      [.outside "gate" (some meshedService), .event .install true [],
        .event .upgradeCharm true [none, some 500]]).lookup "gate" = some service ∧
    service.labels.lookup "istio.io/dataplane-mode" = some "ambient" := by
  have hkeeps : KeepsForeign (servicePatcher "gate") _ _ :=
    the_labels_of_others_survive_the_patch (by decide) (deployed "gate")
      [.outside "gate" (some meshedService), .event .install true [],
        .event .upgradeCharm true [none, some 500]]
  have hthere : ((runs.run (patchStep (servicePatcher "gate")) (deployed "gate")
      [.outside "gate" (some meshedService), .event .install true [],
        .event .upgradeCharm true [none, some 500]]).lookup "gate").isSome = true := rfl
  obtain ⟨service, hservice⟩ := Option.isSome_iff_exists.mp hthere
  obtain ⟨service', hothers, hsame⟩ := hkeeps service hservice
  have hmeshed : meshedService = service' := Option.some.inj hothers
  refine ⟨service, hservice, ?_⟩
  rw [hsame.labels _ (by simp [Patcher.service, servicePatcher, Patcher.init]), ← hmeshed]
  exact Finmap.lookup_insert _

end foreign

/-! ## What the patch cannot bring back -/

/-- Nobody else writes this service. -/
def PatchStep.Spares (name : String) : PatchStep → Prop
  | .event .. => True
  | .outside n _ => n ≠ name

/-- The service of Juju is gone, and that of the patch is one of before or gone. -/
def Lost (p : Patcher) (before c : Cluster) : Prop :=
  p.app ∉ c ∧ ∀ service, c.lookup p.serviceName = some service →
    before.lookup p.serviceName = some service

section lost

variable {p : Patcher} {before : Cluster}

theorem Lost.erase {c : Cluster} (h : Lost p before c) (n : String) :
    Lost p before (c.erase n) := by
  refine ⟨fun hmem => h.1 (AList.mem_erase.mp hmem).2, fun service hs => ?_⟩
  by_cases hn : p.serviceName = n
  · rw [hn, AList.lookup_erase] at hs
    cases hs
  · rw [AList.lookup_erase_ne hn] at hs
    exact h.2 service hs

/-- Without the service of Juju, `_patch` raises before it writes anything. -/
theorem keeps_patch_lost (hlb : p.serviceType ≠ .loadBalancer) :
    Keeps (On (Lost p before)) p.patch := by
  apply Patcher.keeps_patch_of_body
  have hgone : ∀ {s : Api} {service s'}, On (Lost p before) s →
      (getService p.app).run s = .ok service s' → False := by
    intro s service s' h hrun
    apply h.1
    rw [← AList.lookup_isSome, lookup_of_getService hrun]
    rfl
  unfold Patcher.patchBody
  by_cases hn : p.serviceName = p.app
  · refine keeps_bind_of (Q := fun _ => False) Patcher.keeps_isPatched ?_ fun _ hf => hf.elim
    intro s b s' h hrun
    unfold Patcher.isPatched at hrun
    obtain ⟨fetched, s₁, htry, -⟩ := run_bind_ok_iff.mp hrun
    rw [run_tryCatch, run_map, hn] at htry
    cases hget : (getService p.app).run s with
    | ok service s₂ => exact hgone h hget
    | error e s₂ => simp [hget] at htry
  · refine keeps_bind Patcher.keeps_isPatched fun b => keeps_ite (fun _ => keeps_pure _) fun _ => ?_
    refine keeps_ite (fun _ => ?_) fun h => absurd hn h
    refine keeps_ite (fun _ => ?_) fun h => absurd hlb h
    refine keeps_bind_of (Q := fun _ => False) ?_ ?_ fun _ hf => hf.elim
    · unfold Patcher.deleteAndCreateService
      exact keeps_bind_of (Q := fun _ => False) keeps_getService hgone fun _ hf => hf.elim
    · intro s u s' h hrun
      unfold Patcher.deleteAndCreateService at hrun
      obtain ⟨service, s₁, hget, -⟩ := run_bind_ok_iff.mp hrun
      exact hgone h hget

/-- Once the service of Juju is gone, no run of events brings it back, nor the service that
the patch makes of it: `_patch` only ever renames or changes what it finds. -/
theorem a_lost_service_stays_lost (hlb : p.serviceType ≠ .loadBalancer) {c : Cluster}
    (hlost : p.app ∉ c) {steps : List PatchStep}
    (hothers : ∀ i ∈ steps, i.Spares p.app ∧ i.Spares p.serviceName) :
    Lost p c (runs.run (patchStep p) c steps) := by
  refine runs.run_keeps_of_meets (I := Lost p c) ?_ ⟨hlost, fun _ h => h⟩
    (runs.meets_of_forall hothers)
  intro c' step h hspares
  cases step with
  | event e configured faults =>
    exact patchStep_event (Patcher.keeps_handler (keeps_patch_lost hlb)
      (fun c h => h.erase _) (fun _ n _ _ _ c h => h.erase n) e) h configured faults
  | outside n service =>
    cases service with
    | none => exact h.erase n
    | some service =>
      refine ⟨fun hmem => ?_, fun service' hs => ?_⟩
      · rcases (AList.mem_insert c').mp hmem with heq | hmem
        · exact hspares.1 heq.symm
        · exact h.1 hmem
      · have hs' : (c'.insert n service).lookup p.serviceName = some service' := hs
        rw [AList.lookup_insert_ne fun heq => hspares.2 heq.symm] at hs'
        exact h.2 service' hs'

/-- The patch under a name of its own, on a day when the API refuses its fourth call: the
service of Juju is deleted, and the new one is not created. -/
theorem a_lost_service_stays_lost_renamed :
    Lost (.init "gate" [⟨8080, some "http-port", none⟩] (some "authservice") .clusterIP ∅ ∅ ∅) ∅
      (runs.run (patchStep
        (.init "gate" [⟨8080, some "http-port", none⟩] (some "authservice") .clusterIP ∅ ∅ ∅))
        (patchStep
          (.init "gate" [⟨8080, some "http-port", none⟩] (some "authservice") .clusterIP ∅ ∅ ∅)
          (deployed "gate") (.event .install true [none, none, none, some 500]))
        [.event .install true [], .event .upgradeCharm true [], .event .updateStatus true []]) := by
  have hlost : patchStep
      (.init "gate" [⟨8080, some "http-port", none⟩] (some "authservice") .clusterIP ∅ ∅ ∅)
      (deployed "gate") (.event .install true [none, none, none, some 500]) = ∅ := rfl
  rw [hlost]
  apply a_lost_service_stays_lost
  · intro h
    cases h
  · exact AList.notMem_empty _
  · simp [PatchStep.Spares]

end lost

/-! ## What an upgrade removes -/

section upgrade

variable {p : Patcher}

/-- No load balancer of an earlier version is left. -/
def NoneOld (p : Patcher) (c : Cluster) : Prop :=
  ∀ name service, c.lookup name = some service → ¬ p.OldLoadBalancer service

theorem NoneOld.erase {c : Cluster} (h : NoneOld p c) (n : String) : NoneOld p (c.erase n) := by
  intro name service hs
  by_cases hn : name = n
  · rw [hn, AList.lookup_erase] at hs
    cases hs
  · rw [AList.lookup_erase_ne hn] at hs
    exact h name service hs

theorem NoneOld.insert {c : Cluster} (h : NoneOld p c) (n : String) {service : Service KeptPort}
    (hnot : ¬ p.OldLoadBalancer service) : NoneOld p (c.insert n service) := by
  intro name service' hs
  by_cases hn : name = n
  · rw [hn, AList.lookup_insert] at hs
    cases hs
    exact hnot
  · rw [AList.lookup_insert_ne hn] at hs
    exact h name service' hs

theorem keeps_patch_noneOld (hip : p.serviceType = .clusterIP) :
    Keeps (On (NoneOld p)) p.patch := by
  refine Patcher.keeps_patch (fun c h => h.erase _) fun c service hput h => h.insert _ ?_
  cases hput with
  | merged h hold =>
    rintro ⟨htype, -⟩
    change p.serviceType = .loadBalancer at htype
    rw [hip] at htype
    cases htype
  | balancer hlb =>
    rw [hip] at hlb
    cases hlb
  | renamed h hservice => exact h _ _ hservice

theorem run_deleteLoadBalancers {services : List (String × Service KeptPort)} {c : Cluster}
    (hthere : ∀ e ∈ services, e.1 ∈ c) (hnodup : (services.map Prod.fst).Nodup) (l : List Call) :
    ∃ c' l', (Patcher.deleteLoadBalancers services).run (quiet c true l) =
        .ok () (quiet c' true l') ∧
      ∀ name service, c'.lookup name = some service → c.lookup name = some service ∧
        ∀ e ∈ services, e.1 = name → e.2.type ≠ .loadBalancer := by
  induction services generalizing c l with
  | nil => exact ⟨c, l, rfl, fun name service hs => ⟨hs, by simp⟩⟩
  | cons e services ih =>
    obtain ⟨n, service⟩ := e
    rw [List.map_cons, List.nodup_cons] at hnodup
    have hrest : ∀ e ∈ services, e.1 ∈ c := fun e he => hthere e (List.mem_cons_of_mem _ he)
    unfold Patcher.deleteLoadBalancers
    by_cases hlb : service.type = .loadBalancer
    · have hmem : n ∈ c := hthere _ List.mem_cons_self
      have hrest' : ∀ e ∈ services, e.1 ∈ c.erase n := by
        intro e he
        refine AList.mem_erase.mpr ⟨?_, hrest e he⟩
        intro heq
        exact hnodup.1 (List.mem_map.mpr ⟨e, he, heq⟩)
      obtain ⟨c', l', hrun, hleft⟩ := ih hrest' hnodup.2 (l ++ [.delete n])
      refine ⟨c', l', ?_, ?_⟩
      · simp only [if_pos hlb]
        rw [EStateM.run_bind, run_deleteService, if_pos hmem]
        exact hrun
      · intro name service' hs
        obtain ⟨hlookup, hnot⟩ := hleft name service' hs
        have hn : name ≠ n := by
          intro hn
          rw [hn, AList.lookup_erase] at hlookup
          cases hlookup
        rw [AList.lookup_erase_ne hn] at hlookup
        refine ⟨hlookup, fun e he heq => ?_⟩
        rcases List.mem_cons.mp he with rfl | he
        · exact absurd heq.symm hn
        · exact hnot e he heq
    · obtain ⟨c', l', hrun, hleft⟩ := ih hrest hnodup.2 l
      refine ⟨c', l', ?_, ?_⟩
      · simp only [if_neg hlb]
        exact hrun
      · intro name service' hs
        obtain ⟨hlookup, hnot⟩ := hleft name service' hs
        refine ⟨hlookup, fun e he heq => ?_⟩
        rcases List.mem_cons.mp he with rfl | he
        · exact hlb
        · exact hnot e he heq

theorem listed_nodup (app : String) (c : Cluster) : ((listed app c).map Prod.fst).Nodup := by
  unfold listed
  rw [List.map_map]
  have hsub : ((c.entries.filter fun e =>
      e.2.labels.lookup "app.kubernetes.io/name" = some app).map Sigma.fst).Sublist c.keys :=
    List.filter_sublist.map Sigma.fst
  exact hsub.nodup c.nodupKeys

theorem noneOld_upgrade (hip : p.serviceType = .clusterIP) (c : Cluster) :
    NoneOld p (patchStep p c (.event .upgradeCharm true [])) := by
  have hthere : ∀ e ∈ listed p.app c, e.1 ∈ c := by
    intro e he
    rw [← AList.lookup_isSome, (mem_listed.mp he).1]
    rfl
  obtain ⟨c', l', hrun, hleft⟩ := run_deleteLoadBalancers hthere (listed_nodup p.app c) [.list]
  have hnone : NoneOld p c' := by
    rintro name service hs ⟨hlb, hlabel⟩
    obtain ⟨hlookup, hnot⟩ := hleft name service hs
    exact hnot _ (mem_listed.mpr ⟨hlookup, hlabel⟩) rfl hlb
  have hupgrade : p.onUpgradeCharm.run (quiet c true []) = p.patch.run (quiet c' true l') := by
    unfold Patcher.onUpgradeCharm
    simp only [if_pos hip]
    have hclient : newClient.run (quiet c true []) = .ok () (quiet c true []) := rfl
    have hlist : (listServices p.app).run (quiet c true []) =
      .ok (listed p.app c) (quiet c true [.list]) := rfl
    rw [run_bind_ok hclient, run_bind_ok hlist, run_bind_ok hrun]
  have hpatch := keeps_patch_noneOld hip (s := quiet c' true l') hnone (leaves_left _ _)
  change NoneOld p (left p.onUpgradeCharm (quiet c true [])).cluster
  unfold left
  rw [hupgrade]
  exact hpatch

/-- An upgrade to a cluster address that is refused nothing deletes the old load balancers,
and no later event makes one, in any order and whatever the API refuses, while nobody else
does. -/
theorem an_upgrade_leaves_no_load_balancer (hip : p.serviceType = .clusterIP) (c : Cluster)
    {steps : List PatchStep}
    (hothers : ∀ i ∈ steps, ∀ n service, i = .outside n (some service) →
      ¬ p.OldLoadBalancer service) :
    NoneOld p (runs.run (patchStep p) (patchStep p c (.event .upgradeCharm true [])) steps) := by
  refine runs.run_keeps_of_meets (I := NoneOld p) ?_ (noneOld_upgrade hip c)
    (runs.meets_of_forall hothers)
  intro c' step h hstep
  cases step with
  | event e configured faults =>
    exact patchStep_event (Patcher.keeps_handler (keeps_patch_noneOld hip)
      (fun c h => h.erase _) (fun _ n _ _ _ c h => h.erase n) e) h configured faults
  | outside n service =>
    cases service with
    | none => exact h.erase n
    | some service => exact h.insert n (hstep n service rfl)

theorem an_upgrade_leaves_no_load_balancer_exposed :
    NoneOld (servicePatcher "gate") (runs.run (patchStep (servicePatcher "gate"))
      (patchStep (servicePatcher "gate")
        (AList.singleton "gate" { jujuService "gate" with type := .loadBalancer })
        (.event .upgradeCharm true []))
      [.outside "db" (some (jujuService "db")), .event .updateStatus true [some 403]]) := by
  apply an_upgrade_leaves_no_load_balancer
  · rfl
  · intro i hi n service heq
    simp only [List.mem_cons, List.not_mem_nil, or_false] at hi
    rcases hi with rfl | rfl
    · cases heq
      rintro ⟨hlb, -⟩
      cases hlb
    · cases heq

end upgrade

end oidc_gatekeeper.kubernetes_service_patch
