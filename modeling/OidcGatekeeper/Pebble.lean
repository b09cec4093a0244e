-- The Pebble side of a unit: the plan, the files and the running process of its
-- container, and `update_layer` as the charm relies on it.
import OidcGatekeeper.Juju
import OidcGatekeeper.Dicts
import OidcGatekeeper.Handlers
import Mathlib.Data.Stream.Init

namespace oidc_gatekeeper

/-! ## Layers and plans -/

/-- A value of an environment, as the charm writes it: a string, a flag or a number. -/
inductive EnvValue
  | str (s : String)
  | bool (b : Bool)
  | int (n : Nat)
  deriving DecidableEq

abbrev Environment := Dict EnvValue

structure Service where
  override : String
  summary : String
  command : String
  environment : Environment
  startup : String
  workingDir : String
  deriving DecidableEq

structure Layer where
  summary : String
  description : String
  services : Dict Service
  deriving DecidableEq

/-- A process: the plan entry that it was started with, and the file that it read at its
`CA_BUNDLE` path when it started. -/
structure Process where
  service : Service
  caBundle : Option String
  deriving DecidableEq

/-- The container of one unit. `layersAdded` counts the layers that the charm added. -/
structure Container where
  plan : Dict Service
  files : Dict String
  process : Option Process
  layersAdded : Nat
  deriving DecidableEq

namespace Container

/-- `add_layer(.., combine=True)` of a layer whose services all have `override: replace`. -/
def addLayer (k : Container) (layer : Layer) : Container :=
  { k with plan := layer.services ∪ k.plan, layersAdded := k.layersAdded + 1 }

/-- The workload reads `CA_BUNDLE` only here, when it starts. -/
def started (k : Container) (service : Service) : Process where
  service := service
  caBundle := match service.environment.lookup "CA_BUNDLE" with
    | some (.str path) => k.files.lookup path
    | _ => none

/-- A replan that succeeds: it starts the service when it does not run, and restarts it
only when its plan entry changed since it was started. -/
def replanned (k : Container) (name : String) : Container :=
  match k.plan.lookup name with
  | none => k
  | some service => match k.process with
    | none => { k with process := some (k.started service) }
    | some p =>
      if p.service = service then k else { k with process := some (k.started service) }

/-- A replan that fails: the service is down. -/
def replanFailed (k : Container) : Container := { k with process := none }

def pushed (k : Container) (path content : String) : Container :=
  { k with files := k.files.insert path content }

@[simp] theorem addLayer_files (k : Container) (l : Layer) : (k.addLayer l).files = k.files := rfl

@[simp] theorem addLayer_plan (k : Container) (l : Layer) :
    (k.addLayer l).plan = l.services ∪ k.plan := rfl

theorem addLayer_lookup {l : Layer} {name : String} {service : Service}
    (h : l.services = Finmap.singleton name service) (k : Container) :
    (k.addLayer l).plan.lookup name = some service := by
  rw [addLayer_plan, h]
  exact dicts.lookup_union_of_lookup Finmap.lookup_singleton_eq _

@[simp] theorem addLayer_layersAdded (k : Container) (l : Layer) :
    (k.addLayer l).layersAdded = k.layersAdded + 1 := rfl

@[simp] theorem replanned_plan (k : Container) (name : String) : (k.replanned name).plan = k.plan := by
  unfold replanned
  split
  · rfl
  · split
    · rfl
    · split <;> rfl

@[simp] theorem replanned_files (k : Container) (name : String) :
    (k.replanned name).files = k.files := by
  unfold replanned
  split
  · rfl
  · split
    · rfl
    · split <;> rfl

@[simp] theorem replanned_layersAdded (k : Container) (name : String) :
    (k.replanned name).layersAdded = k.layersAdded := by
  unfold replanned
  split
  · rfl
  · split
    · rfl
    · split <;> rfl

/-- After a replan, the process runs what the plan says. -/
theorem replanned_process {k : Container} {name : String} {service : Service}
    (h : k.plan.lookup name = some service) :
    ∃ p, (k.replanned name).process = some p ∧ p.service = service := by
  unfold replanned
  rw [h]
  cases hp : k.process with
  | none => exact ⟨_, rfl, rfl⟩
  | some p =>
    by_cases hs : p.service = service
    · simp [hs, hp]
    · simp [hs, started]

/-- A replan leaves a process that runs what the plan says. -/
theorem replanned_of_process {k : Container} {name : String} {service : Service} {p : Process}
    (h : k.plan.lookup name = some service) (hp : k.process = some p)
    (hs : p.service = service) : k.replanned name = k := by
  unfold replanned
  simp [h, hp, hs]

@[simp] theorem replanFailed_plan (k : Container) : k.replanFailed.plan = k.plan := rfl

@[simp] theorem replanFailed_files (k : Container) : k.replanFailed.files = k.files := rfl

@[simp] theorem replanFailed_layersAdded (k : Container) :
    k.replanFailed.layersAdded = k.layersAdded := rfl

@[simp] theorem pushed_plan (k : Container) (path content : String) :
    (k.pushed path content).plan = k.plan := rfl

@[simp] theorem pushed_files (k : Container) (path content : String) :
    (k.pushed path content).files = k.files.insert path content := rfl

@[simp] theorem pushed_layersAdded (k : Container) (path content : String) :
    (k.pushed path content).layersAdded = k.layersAdded := rfl

end Container

/-- A unit: its container and the last status that its charm code set. -/
structure UnitState where
  container : Container
  status : Option UnitStatus
  deriving DecidableEq

end oidc_gatekeeper
