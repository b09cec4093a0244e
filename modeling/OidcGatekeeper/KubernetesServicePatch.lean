-- The service patch of the observability library: how it gives the Kubernetes
-- service of the application its ports, and what it can and cannot repair. Any
-- API call may be refused, and what was done before it stays done.
import OidcGatekeeper.Charm
import OidcGatekeeper.Dicts
import OidcGatekeeper.Handlers
import OidcGatekeeper.Juju
import OidcGatekeeper.Runs

open handlers

namespace oidc_gatekeeper.kubernetes_service_patch

/-! ## The cluster -/

inductive ServiceType
  | clusterIP | loadBalancer | nodePort | externalName
  deriving DecidableEq

/-- A port of the pod, by its number or by its name. -/
inductive TargetPort
  | number (n : Nat)
  | name (s : String)
  deriving DecidableEq

/-- A port as the charm asks for it. -/
structure ServicePort where
  port : Nat
  name : Option String
  targetPort : Option TargetPort
  deriving DecidableEq

/-- A port as Kubernetes keeps it. -/
structure KeptPort where
  port : Nat
  name : Option String
  targetPort : TargetPort
  deriving DecidableEq

/-- Kubernetes fills in the target of a port that has none: the port itself. -/
def ServicePort.kept (p : ServicePort) : KeptPort :=
  ⟨p.port, p.name, p.targetPort.getD (.number p.port)⟩

structure Service (π : Type) where
  labels : Dict String
  annotations : Dict String
  selector : Dict String
  ports : List π
  type : ServiceType
  deriving DecidableEq

/-- The services of the namespace, by name. -/
abbrev Cluster := AList fun _ : String => Service KeptPort

def Service.kept (s : Service ServicePort) : Service KeptPort :=
  { s with ports := s.ports.map ServicePort.kept }

/-- `PatchType.MERGE`: dicts are merged, a list is replaced. -/
def Service.merged (old : Service KeptPort) (new : Service ServicePort) : Service KeptPort where
  labels := new.labels ∪ old.labels
  annotations := new.annotations ∪ old.annotations
  selector := new.selector ∪ old.selector
  ports := new.ports.map ServicePort.kept
  type := new.type

inductive Call
  | get (name : String)
  | create (name : String)
  | delete (name : String)
  | patch (name : String)
  | list
  deriving DecidableEq

inductive Exc
  | apiError (code : Nat)
  | configError
  deriving DecidableEq

/-- The cluster behind the API, with the codes of the calls that it will refuse and the
calls that were made. -/
structure Api where
  cluster : Cluster
  configured : Bool
  faults : List (Option Nat)
  calls : List Call

/-- Code that calls the API. -/
abbrev Client := EStateM Exc Api

/-- The part of each call that may be refused. -/
def call (c : Call) : Client Unit := do
  let s ← get
  modify fun s => { s with faults := s.faults.tail, calls := s.calls ++ [c] }
  match s.faults.head?.join with
  | some code => throw (.apiError code)
  | none => pure ()

def setCluster (f : Cluster → Cluster) : Client Unit :=
  modify fun s => { s with cluster := f s.cluster }

/-- `client.get(Service, name)`. -/
def getService (name : String) : Client (Service KeptPort) := do
  call (.get name)
  match (← get).cluster.lookup name with
  | some service => return service
  | none => throw (.apiError 404)

/-- `client.create(service)`. -/
def createService (name : String) (service : Service KeptPort) : Client Unit := do
  call (.create name)
  if name ∈ (← get).cluster then throw (.apiError 409)
  else setCluster fun c => c.insert name service

/-- `client.delete(Service, name)`. -/
def deleteService (name : String) : Client Unit := do
  call (.delete name)
  if name ∈ (← get).cluster then setCluster fun c => c.erase name
  else throw (.apiError 404)

/-- `client.patch(Service, name, service, patch_type=PatchType.MERGE)`. -/
def patchService (name : String) (service : Service ServicePort) : Client Unit := do
  call (.patch name)
  match (← get).cluster.lookup name with
  | some old => setCluster fun c => c.insert name (old.merged service)
  | none => throw (.apiError 404)

/-- The services with the label of the application, by name. -/
def listed (app : String) (c : Cluster) : List (String × Service KeptPort) :=
  (c.entries.filter fun e => e.2.labels.lookup "app.kubernetes.io/name" = some app).map
    fun e => (e.1, e.2)

/-- `client.list(Service, labels={"app.kubernetes.io/name": app})`. -/
def listServices (app : String) : Client (List (String × Service KeptPort)) := do
  call .list
  return listed app (← get).cluster

/-- `Client()`. -/
def newClient : Client Unit := do
  if !(← get).configured then throw .configError

/-! ## The library object -/

/-- `self`. A load balancer never takes the name of the service of Juju. -/
structure Patcher where
  app : String
  serviceName : String
  serviceType : ServiceType
  ports : List ServicePort
  additionalLabels : Dict String
  additionalSelectors : Dict String
  additionalAnnotations : Dict String
  lbName : serviceType = .loadBalancer → serviceName ≠ app

/-- The name that `__init__` settles on. -/
def initName (app : String) (serviceName : Option String) (serviceType : ServiceType) : String :=
  let name := if serviceName.getD "" = "" then app else serviceName.getD ""
  if name = app ∧ serviceType = .loadBalancer then app ++ "-lb" else name

theorem initName_ne (app : String) (serviceName : Option String) :
    initName app serviceName .loadBalancer ≠ app := by
  unfold initName
  generalize (if serviceName.getD "" = "" then app else serviceName.getD "") = name
  by_cases hn : name = app <;> simp [hn]

/-- `__init__`. -/
def Patcher.init (app : String) (ports : List ServicePort) (serviceName : Option String)
    (serviceType : ServiceType) (labels selectors annotations : Dict String) : Patcher where
  app := app
  serviceName := initName app serviceName serviceType
  serviceType := serviceType
  ports := ports
  additionalLabels := labels
  additionalSelectors := selectors
  additionalAnnotations := annotations
  lbName h := h ▸ initName_ne app serviceName

namespace Patcher

variable (p : Patcher)

/-- `_service_object`. -/
def service : Service ServicePort where
  labels := p.additionalLabels ∪ Finmap.singleton "app.kubernetes.io/name" p.app
  annotations := p.additionalAnnotations
  selector := p.additionalSelectors ∪ Finmap.singleton "app.kubernetes.io/name" p.app
  ports := p.ports
  type := p.serviceType

/-- `expected_ports`. -/
def expectedPorts : List (Nat × Option TargetPort) := p.ports.map fun q => (q.port, q.targetPort)

/-- `fetched_ports`. -/
def fetchedPorts (service : Service KeptPort) : List (Nat × Option TargetPort) :=
  service.ports.map fun q => (q.port, some q.targetPort)

def isPatched : Client Bool := do
  let fetched ← tryCatch (some <$> getService p.serviceName) fun e =>
    if e = .apiError 404 ∧ p.serviceName ≠ p.app then pure none else throw e
  match fetched with
  | none => return false
  | some service => return decide (p.expectedPorts = fetchedPorts service)

/-- `_delete_and_create_service`. -/
def deleteAndCreateService : Client Unit := do
  let service ← getService p.app
  deleteService p.app
  createService p.serviceName service

/-- `_create_lb_service`. -/
def createLbService : Client Unit :=
  tryCatch (do let _ ← getService p.serviceName) fun
    | .apiError _ => createService p.serviceName p.service.kept
    | e => throw e

/-- The body of the second `try` of `_patch`. -/
def patchBody : Client Unit := do
  if ← p.isPatched then pure ()
  else
    if p.serviceName ≠ p.app then
      if p.serviceType ≠ .loadBalancer then p.deleteAndCreateService
      else p.createLbService
    patchService p.serviceName p.service

/-- `_patch`. It logs what the API refuses. -/
def patch : Client Unit := do
  if !(← get).configured then pure ()
  else tryCatch p.patchBody fun
    | .apiError _ => pure ()
    | e => throw e

def deleteLoadBalancers : List (String × Service KeptPort) → Client Unit
  | [] => pure ()
  | (name, service) :: services => do
    if service.type = .loadBalancer then deleteService name
    deleteLoadBalancers services

/-- `_on_upgrade_charm`. -/
def onUpgradeCharm : Client Unit := do
  if p.serviceType = .clusterIP then
    newClient
    deleteLoadBalancers (← listServices p.app)
  p.patch

/-- `_remove_service`. -/
def removeService : Client Unit := do
  newClient
  tryCatch (deleteService p.serviceName) fun e =>
    if e = .apiError 404 then pure () else throw e

end Patcher

/-! ## The events -/

inductive Event
  | install | upgradeCharm | updateStatus | remove
  deriving DecidableEq

def Patcher.handler (p : Patcher) : Event → Client Unit
  | .install | .updateStatus => p.patch
  | .upgradeCharm => p.onUpgradeCharm
  | .remove => p.removeService

/-- An event, with what the API will refuse, or a service that somebody else writes or
deletes. -/
inductive PatchStep
  | event (e : Event) (configured : Bool) (faults : List (Option Nat))
  | outside (name : String) (service : Option (Service KeptPort))

/-- What the handler leaves of the API. It does not matter whether it raises. -/
def left {α : Type} (x : Client α) (s : Api) : Api :=
  match x.run s with
  | .ok _ s' => s'
  | .error _ s' => s'

def written (name : String) (service : Option (Service KeptPort)) (c : Cluster) : Cluster :=
  match service with
  | some service => c.insert name service
  | none => c.erase name

def patchStep (p : Patcher) (c : Cluster) : PatchStep → Cluster
  | .event e configured faults => (left (p.handler e) ⟨c, configured, faults, []⟩).cluster
  | .outside name service => written name service c

/-! ## A patch that is refused nothing -/

section quiet

variable (c : Cluster) (b : Bool) (l : List Call) (name : String)

/-- An API that refuses nothing. -/
abbrev quiet : Api := ⟨c, b, [], l⟩

@[simp] theorem run_call (k : Call) :
    (call k).run (quiet c b l) = .ok () (quiet c b (l ++ [k])) := rfl

@[simp] theorem run_setCluster (f : Cluster → Cluster) :
    (setCluster f).run (quiet c b l) = .ok () (quiet (f c) b l) := rfl

@[simp] theorem run_getService : (getService name).run (quiet c b l) =
    match c.lookup name with
    | some service => .ok service (quiet c b (l ++ [.get name]))
    | none => .error (.apiError 404) (quiet c b (l ++ [.get name])) := by
  unfold getService
  rw [run_bind_ok (run_call c b l _)]
  cases h : c.lookup name <;> simp [h]

@[simp] theorem run_createService (service : Service KeptPort) :
    (createService name service).run (quiet c b l) =
    if name ∈ c then .error (.apiError 409) (quiet c b (l ++ [.create name]))
    else .ok () (quiet (c.insert name service) b (l ++ [.create name])) := by
  unfold createService
  rw [run_bind_ok (run_call c b l _)]
  by_cases h : name ∈ c <;> simp [h]

@[simp] theorem run_deleteService : (deleteService name).run (quiet c b l) =
    if name ∈ c then .ok () (quiet (c.erase name) b (l ++ [.delete name]))
    else .error (.apiError 404) (quiet c b (l ++ [.delete name])) := by
  unfold deleteService
  rw [run_bind_ok (run_call c b l _)]
  by_cases h : name ∈ c <;> simp [h]

@[simp] theorem run_patchService (service : Service ServicePort) :
    (patchService name service).run (quiet c b l) =
    match c.lookup name with
    | some old => .ok () (quiet (c.insert name (old.merged service)) b (l ++ [.patch name]))
    | none => .error (.apiError 404) (quiet c b (l ++ [.patch name])) := by
  unfold patchService
  rw [run_bind_ok (run_call c b l _)]
  cases h : c.lookup name <;> simp [h]

end quiet

namespace Patcher

variable (p : Patcher)

/-- What a patch that is refused nothing makes of the cluster, and its calls. -/
def outcome (c : Cluster) : Cluster × List Call :=
  match c.lookup p.serviceName with
  | some service =>
    if p.expectedPorts = fetchedPorts service then (c, [.get p.serviceName])
    else if p.serviceName = p.app then
      (c.insert p.serviceName (service.merged p.service),
        [.get p.serviceName, .patch p.serviceName])
    else if p.serviceType = .loadBalancer then
      (c.insert p.serviceName (service.merged p.service),
        [.get p.serviceName, .get p.serviceName, .patch p.serviceName])
    else if p.app ∈ c then
      (c.erase p.app, [.get p.serviceName, .get p.app, .delete p.app, .create p.serviceName])
    else (c, [.get p.serviceName, .get p.app])
  | none =>
    if p.serviceName = p.app then (c, [.get p.serviceName])
    else if p.serviceType = .loadBalancer then
      ((c.insert p.serviceName p.service.kept).insert p.serviceName
          (p.service.kept.merged p.service),
        [.get p.serviceName, .get p.serviceName, .create p.serviceName, .patch p.serviceName])
    else match c.lookup p.app with
      | some service =>
        (((c.erase p.app).insert p.serviceName service).insert p.serviceName
            (service.merged p.service),
          [.get p.serviceName, .get p.app, .delete p.app, .create p.serviceName,
            .patch p.serviceName])
      | none => (c, [.get p.serviceName, .get p.app])

variable (c : Cluster) (l : List Call)

theorem run_isPatched : p.isPatched.run (quiet c true l) =
    match c.lookup p.serviceName with
    | some service => .ok (decide (p.expectedPorts = fetchedPorts service))
        (quiet c true (l ++ [.get p.serviceName]))
    | none =>
      if p.serviceName = p.app then
        .error (.apiError 404) (quiet c true (l ++ [.get p.serviceName]))
      else .ok false (quiet c true (l ++ [.get p.serviceName])) := by
  unfold isPatched
  rw [EStateM.run_bind, run_tryCatch, run_map, run_getService]
  cases h : c.lookup p.serviceName with
  | some service => rfl
  | none =>
    by_cases hn : p.serviceName = p.app
    · simp [hn]
    · simp [hn]

theorem run_deleteAndCreateService : p.deleteAndCreateService.run (quiet c true l) =
    match c.lookup p.app with
    | some service =>
      if p.serviceName ∈ c.erase p.app then .error (.apiError 409)
        (quiet (c.erase p.app) true (l ++ [.get p.app, .delete p.app, .create p.serviceName]))
      else .ok () (quiet ((c.erase p.app).insert p.serviceName service) true
        (l ++ [.get p.app, .delete p.app, .create p.serviceName]))
    | none => .error (.apiError 404) (quiet c true (l ++ [.get p.app])) := by
  unfold deleteAndCreateService
  rw [EStateM.run_bind, run_getService]
  cases h : c.lookup p.app with
  | some service =>
    have hmem : p.app ∈ c := AList.lookup_isSome.mp (by rw [h]; rfl)
    simp only
    rw [EStateM.run_bind, run_deleteService, if_pos hmem]
    simp
  | none => rfl

theorem run_createLbService :
    p.createLbService.run (quiet c true l) =
    if p.serviceName ∈ c then .ok () (quiet c true (l ++ [.get p.serviceName]))
    else .ok () (quiet (c.insert p.serviceName p.service.kept) true
      (l ++ [.get p.serviceName, .create p.serviceName])) := by
  unfold createLbService
  rw [run_tryCatch, EStateM.run_bind, run_getService]
  cases h : c.lookup p.serviceName with
  | some service =>
    have hmem : p.serviceName ∈ c := AList.lookup_isSome.mp (by rw [h]; rfl)
    simp [hmem]
  | none =>
    have hmem : p.serviceName ∉ c := AList.lookup_eq_none.mp h
    simp [hmem]

theorem left_patchBody : left p.patchBody (quiet c true l) =
    quiet (p.outcome c).1 true (l ++ (p.outcome c).2) := by
  unfold left patchBody outcome
  rw [EStateM.run_bind, run_isPatched]
  cases h : c.lookup p.serviceName with
  | some service =>
    have hmem : p.serviceName ∈ c := AList.lookup_isSome.mp (by rw [h]; rfl)
    by_cases hk : p.expectedPorts = fetchedPorts service
    · simp [hk]
    · by_cases hn : p.serviceName = p.app
      · rw [hn] at h
        simp [hk, hn, h]
      · by_cases hlb : p.serviceType = .loadBalancer
        · simp [hk, hn, hlb, run_createLbService, hmem, h]
        · cases ha : c.lookup p.app with
          | some service' =>
            have happ : p.app ∈ c := AList.lookup_isSome.mp (by rw [ha]; rfl)
            simp [hk, hn, hlb, run_deleteAndCreateService, ha, hmem, happ]
          | none =>
            have happ : p.app ∉ c := AList.lookup_eq_none.mp ha
            simp [hk, hn, hlb, run_deleteAndCreateService, ha, happ]
  | none =>
    have hmem : p.serviceName ∉ c := AList.lookup_eq_none.mp h
    by_cases hn : p.serviceName = p.app
    · simp [hn]
    · by_cases hlb : p.serviceType = .loadBalancer
      · simp [hn, hlb, run_createLbService, hmem]
      · cases ha : c.lookup p.app with
        | some service => simp [hn, hlb, run_deleteAndCreateService, ha, hmem]
        | none => simp [hn, hlb, run_deleteAndCreateService, ha]

theorem left_patch : left p.patch (quiet c true l) =
    quiet (p.outcome c).1 true (l ++ (p.outcome c).2) := by
  rw [← left_patchBody]
  unfold left patch
  have hget : (get : Client Api).run (quiet c true l) = .ok (quiet c true l) (quiet c true l) := rfl
  rw [run_bind_ok hget]
  simp only [Bool.not_true, Bool.false_eq_true, if_false, run_tryCatch]
  cases p.patchBody.run (quiet c true l) with
  | ok _ s' => rfl
  | error e s' => cases e <;> rfl

/-! ## The ports that it gives -/

/-- The service answers on the ports of the charm. Their names do not count. -/
def Serves (service : Service KeptPort) : Prop :=
  service.ports.map (fun q => (q.port, q.targetPort)) =
    p.ports.map fun q => (q.kept.port, q.kept.targetPort)

def Ready : Prop := ∃ service, c.lookup p.serviceName = some service ∧ p.Serves service

theorem serves_merged (old : Service KeptPort) : p.Serves (old.merged p.service) := by
  simp [Serves, Service.merged, service, Function.comp_def]

/-- Kubernetes keeps every port with a target. So a port that asks for none never looks
patched. -/
theorem expectedPorts_eq_iff (service : Service KeptPort) :
    p.expectedPorts = fetchedPorts service ↔
      p.Serves service ∧ ∀ q ∈ p.ports, q.targetPort ≠ none := by
  constructor
  · intro h
    refine ⟨?_, ?_⟩
    · have hfill := congrArg (List.map fun x : Nat × Option TargetPort =>
        (x.1, x.2.getD (.number x.1))) h
      unfold Serves
      simpa [expectedPorts, fetchedPorts, ServicePort.kept, Function.comp_def] using hfill.symm
    · intro q hq hnone
      have hmem : (q.port, q.targetPort) ∈ p.expectedPorts := List.mem_map_of_mem hq
      rw [h] at hmem
      obtain ⟨q', -, hq'⟩ := List.mem_map.mp hmem
      have htarget := congrArg Prod.snd hq'
      rw [hnone] at htarget
      cases htarget
  · rintro ⟨hserves, htargets⟩
    have hsome := congrArg (List.map fun x : Nat × TargetPort => (x.1, some x.2)) hserves
    unfold expectedPorts fetchedPorts
    rw [List.map_map, List.map_map] at hsome
    refine Eq.trans ?_ hsome.symm
    apply List.map_congr_left
    intro q hq
    cases ht : q.targetPort with
    | none => exact absurd ht (htargets q hq)
    | some t => simp [ServicePort.kept, ht]

theorem ready_of_lookup {service : Service KeptPort} (h : c.lookup p.serviceName = some service) :
    p.Ready c ↔ p.Serves service := by
  simp [Ready, h]

theorem ready_insert (old : Service KeptPort) :
    p.Ready (c.insert p.serviceName (old.merged p.service)) :=
  ⟨_, AList.lookup_insert _, p.serves_merged old⟩

theorem not_ready (h : c.lookup p.serviceName = none) : ¬ p.Ready c := by
  simp [Ready, h]

end Patcher

/-! ## How often it patches -/

/-- The events of a charm in turn, on an API that refuses nothing. -/
def quietStep (p : Patcher) (s : Api) (e : Event) : Api := left (p.handler e) s

namespace Patcher

variable (p : Patcher) (c : Cluster) (l : List Call)

/-- `_is_patched`, when the service is there. -/
def Patched : Prop :=
  ∃ service, c.lookup p.serviceName = some service ∧ p.expectedPorts = fetchedPorts service

theorem patched_iff : p.Patched c ↔ p.Ready c ∧ ∀ q ∈ p.ports, q.targetPort ≠ none := by
  simp only [Patched, Ready, expectedPorts_eq_iff]
  grind

theorem outcome_of_patched (h : p.Patched c) : p.outcome c = (c, [.get p.serviceName]) := by
  obtain ⟨service, hs, hk⟩ := h
  simp [outcome, hs, hk]

/-- A service of its own, or the service of Juju under its own name, is patched in place. -/
theorem outcome_of_not_patched (hname : p.serviceName = p.app ∨ p.serviceType = .loadBalancer)
    (hmem : p.serviceName ∈ c) (h : ¬ p.Patched c) :
    p.Ready (p.outcome c).1 ∧ p.serviceName ∈ (p.outcome c).1 ∧
      (p.outcome c).2.count (.patch p.serviceName) = 1 := by
  obtain ⟨service, hs⟩ := Option.isSome_iff_exists.mp (AList.lookup_isSome.mpr hmem)
  have hk : p.expectedPorts ≠ fetchedPorts service := fun hk => h ⟨service, hs, hk⟩
  have hafter := p.ready_insert c service
  rcases hname with hn | hlb
  · have hout : p.outcome c = (c.insert p.serviceName (service.merged p.service),
        [.get p.serviceName, .patch p.serviceName]) := by
      unfold outcome
      rw [hs]
      simp only
      rw [if_neg hk, if_pos hn]
    simp [hout, hafter]
  · have hn := p.lbName hlb
    simp [outcome, hs, hk, hn, hlb, hafter]

theorem quietStep_patch {e : Event} (he : e = .install ∨ e = .updateStatus) :
    quietStep p (quiet c true l) e = quiet (p.outcome c).1 true (l ++ (p.outcome c).2) := by
  rw [← left_patch]
  rcases he with rfl | rfl <;> rfl

section events

variable {es : List Event} (hes : ∀ e ∈ es, e = .install ∨ e = .updateStatus)
include hes

theorem count_of_patched (h : p.Patched c) :
    (runs.run (quietStep p) (quiet c true l) es).calls.count (.patch p.serviceName) =
      l.count (.patch p.serviceName) := by
  induction es generalizing l with
  | nil => rfl
  | cons e es ih =>
    rw [runs.run_cons, p.quietStep_patch c l (hes e List.mem_cons_self), p.outcome_of_patched c h,
      ih _ fun e he => hes e (List.mem_cons_of_mem _ he)]
    simp

theorem count_of_no_target (hname : p.serviceName = p.app ∨ p.serviceType = .loadBalancer)
    (hno : ∃ q ∈ p.ports, q.targetPort = none) (hmem : p.serviceName ∈ c) :
    (runs.run (quietStep p) (quiet c true l) es).calls.count (.patch p.serviceName) =
      l.count (.patch p.serviceName) + es.length := by
  induction es generalizing c l with
  | nil => rfl
  | cons e es ih =>
    have hnot : ¬ p.Patched c := by
      rw [patched_iff]
      rintro ⟨-, htargets⟩
      obtain ⟨q, hq, hnone⟩ := hno
      exact htargets q hq hnone
    obtain ⟨-, hstill, hcount⟩ := p.outcome_of_not_patched c hname hmem hnot
    rw [runs.run_cons, p.quietStep_patch c l (hes e List.mem_cons_self),
      ih _ _ (fun e he => hes e (List.mem_cons_of_mem _ he)) hstill, List.count_append, hcount,
      List.length_cons]
    omega

end events

end Patcher

/-- The patcher of the charm: the service of Juju, and a port that asks for no target. -/
def servicePatcher (app : String) : Patcher :=
  .init app [⟨httpPort, some "http-port", none⟩] none .clusterIP ∅ ∅ ∅

/-- The service that Juju makes: a placeholder port. -/
def jujuService (app : String) : Service KeptPort :=
  ⟨Finmap.singleton "app.kubernetes.io/name" app, ∅,
    Finmap.singleton "app.kubernetes.io/name" app, [⟨65535, some "placeholder", .number 65535⟩],
    .clusterIP⟩

/-- The namespace after Juju deployed the charm. -/
def deployed (app : String) : Cluster := AList.singleton app (jujuService app)

end oidc_gatekeeper.kubernetes_service_patch
