-- Joining the mesh: the beacon announces its labels over the mesh relation, and the
-- hooks of the charm put them on its pods and on its service. This is the law of both
-- sides together, wherever a hook is interrupted.
import OidcGatekeeper.MeshLabels
import OidcGatekeeper.ServiceMesh

open json

namespace oidc_gatekeeper.service_mesh

/-! ## The beacon side -/

inductive MeshType
  | istio
  deriving DecidableEq

def MeshType.value : MeshType → String
  | istio => "istio"

structure ServiceMeshProviderAppData where
  labels : Labels
  meshType : MeshType
  deriving DecidableEq

def meshTypeCodec : Codec MeshType := .enum [.istio] MeshType.value fun t => by cases t; decide

/-- The data as texts, one for each field. -/
def announced (data : ServiceMeshProviderAppData) (bag : Databag) : Databag :=
  (bag.insert "labels" (labelsCodec.dumps data.labels)).insert "mesh_type"
    (meshTypeCodec.dumps data.meshType)

/-- `update_relations`, on the databag of one relation. -/
def updateRelations (isLeader : Bool) (data : ServiceMeshProviderAppData) (bag : Databag) :
    Databag :=
  if isLeader then announced data bag else bag

/-! ## The charm side -/

/-- The field of this name, as `json.loads` and `model_validate` read it. -/
def readField {α : Type} (c : Codec α) (bag : Databag) (name : String) : Option α :=
  (bag.lookup name).bind c.loads

def isJson (text : String) : Bool := (json.loads text).isOk

/-- `_get_app_data`, of the remote databag of the mesh relation. -/
def getAppData : Option Databag → Except MeshError (Option ServiceMeshProviderAppData)
  | none => .ok none
  | some bag =>
    if bag = ∅ then .ok none
    else if ∃ k ∈ bag.keys, ¬ (bag.lookup k).all isJson then .error .valueError
    else match readField labelsCodec bag "labels", readField meshTypeCodec bag "mesh_type" with
      | some labels, some meshType => .ok (some ⟨labels, meshType⟩)
      | _, _ => .error .validationError

/-- `labels`. -/
def labelsOf (relation : Option Databag) : Except MeshError Labels := do
  match ← getAppData relation with
  | none => return ∅
  | some data => return data.labels

/-! ## Both sides -/

/-- The databag of the beacon in the mesh relation, if there is one, and the objects of the
charm. -/
structure Joined where
  relation : Option Databag
  objects : Cluster

/-- The relation is made, the beacon updates its relations, or the charm handles a change or
the end of the relation in a hook of which the first `writes` writes succeed. Others write
labels in between. -/
inductive JoinStep
  | related
  | announced (isLeader : Bool) (data : ServiceMeshProviderAppData)
  | changed (writes : Nat)
  | broken (isLeader : Bool) (writes : Nat)
  | otherPods (name : String) (value : Option String)
  | otherService (name : String) (value : Option String)

/-- `_update_labels`. Data that cannot be read makes it raise before it writes. -/
def updateLabels (m : Joined) (writes : Nat) : Cluster :=
  match labelsOf m.relation with
  | .ok labels => labelStep m.objects (.updateLabels labels writes)
  | .error _ => m.objects

def joinStep (m : Joined) : JoinStep → Joined
  | .related => { m with relation := some ∅ }
  | .announced isLeader data =>
    { m with relation := m.relation.map (updateRelations isLeader data) }
  | .changed writes => { m with objects := updateLabels m writes }
  | .broken isLeader writes => ⟨none, labelStep m.objects (.meshBroken isLeader writes)⟩
  | .otherPods name value => { m with objects := labelStep m.objects (.otherPods name value) }
  | .otherService name value =>
    { m with objects := labelStep m.objects (.otherService name value) }

/-- What the beacon announced last over the relation: nothing yet, or its data. -/
abbrev Announced := Option (Option ServiceMeshProviderAppData)

/-- The machine that only remembers what was announced. -/
def announceStep (t : Announced) : JoinStep → Announced
  | .related => some none
  | .announced isLeader data => t.map fun d => if isLeader then some data else d
  | .broken _ _ => none
  | _ => t

def wire (t : Announced) : Option Databag :=
  t.map fun d => match d with
    | some data => announced data ∅
    | none => ∅

/-- The labels of the mesh that the charm is in. -/
def announcedLabels (t : Announced) : Labels :=
  match t with
  | some (some data) => data.labels
  | _ => ∅

/-! ## What the charm reads -/

theorem announced_announced (data data' : ServiceMeshProviderAppData) :
    announced data (announced data' ∅) = announced data ∅ := by
  apply Finmap.ext_lookup
  intro k
  unfold announced
  by_cases ht : k = "mesh_type"
  · subst ht
    rw [Finmap.lookup_insert, Finmap.lookup_insert]
  · by_cases hl : k = "labels"
    · subst hl
      simp [Finmap.lookup_insert_of_ne]
    · simp [Finmap.lookup_insert_of_ne, ht, hl]

section announcement

variable (data : ServiceMeshProviderAppData)

theorem lookup_announced (k : String) : (announced data ∅).lookup k =
    if k = "mesh_type" then some (meshTypeCodec.dumps data.meshType)
    else if k = "labels" then some (labelsCodec.dumps data.labels) else none := by
  unfold announced
  by_cases ht : k = "mesh_type"
  · subst ht
    rw [Finmap.lookup_insert, if_pos rfl]
  · rw [Finmap.lookup_insert_of_ne _ ht, if_neg ht]
    by_cases hl : k = "labels"
    · subst hl
      rw [Finmap.lookup_insert, if_pos rfl]
    · rw [Finmap.lookup_insert_of_ne _ hl, if_neg hl, Finmap.lookup_empty]

theorem announced_ne_empty : announced data ∅ ≠ ∅ := by
  intro h
  have hl := lookup_announced data "labels"
  rw [h, Finmap.lookup_empty] at hl
  simp at hl

theorem isJson_dumps {α : Type} (c : Codec α) (a : α) : isJson (c.dumps a) = true := by
  simp [isJson, Codec.dumps, loads_dumps (c.exact a), Except.isOk, Except.toBool]

theorem isJson_announced (k : String) : ((announced data ∅).lookup k).all isJson = true := by
  rw [lookup_announced]
  split
  · rw [Option.all_some, isJson_dumps]
  · split
    · rw [Option.all_some, isJson_dumps]
    · rfl

end announcement

/-- The charm reads what was announced last. -/
theorem getAppData_wire (t : Announced) : getAppData (wire t) = .ok t.join := by
  rcases t with _ | _ | data
  · rfl
  · rfl
  · have hread : ¬ ∃ k ∈ (announced data ∅).keys,
        ¬ ((announced data ∅).lookup k).all isJson := by
      rintro ⟨k, -, hnot⟩
      exact hnot (isJson_announced data k)
    have hlabels : readField labelsCodec (announced data ∅) "labels" = some data.labels := by
      simp [readField, lookup_announced]
    have htype : readField meshTypeCodec (announced data ∅) "mesh_type" = some data.meshType := by
      simp [readField, lookup_announced]
    change getAppData (some (announced data ∅)) = .ok (some data)
    unfold getAppData
    simp only
    rw [if_neg (announced_ne_empty data), if_neg hread, hlabels, htype]

theorem labelsOf_wire (t : Announced) : labelsOf (wire t) = .ok (announcedLabels t) := by
  unfold labelsOf
  rw [getAppData_wire]
  rcases t with _ | _ | data <;> rfl

/-- The databag of the beacon holds what it announced last, and nothing else. -/
theorem step_relation {m : Joined} {t : Announced} (h : m.relation = wire t) (st : JoinStep) :
    (joinStep m st).relation = wire (announceStep t st) := by
  cases st with
  | announced isLeader data =>
    change m.relation.map (updateRelations isLeader data) = wire (t.map _)
    rw [h]
    cases isLeader with
    | false => rcases t with _ | _ | data' <;> rfl
    | true =>
      rcases t with _ | _ | data'
      · rfl
      · rfl
      · exact congrArg some (announced_announced data data')
  | related | broken isLeader writes => rfl
  | changed writes | otherPods name value | otherService name value => exact h

/-! ## The law of both sides -/

section law

variable {mesh : String → Prop}

/-- The beacon announces mesh labels only, nobody else writes one, and a hook that removes a
mesh label is not interrupted. -/
def CarefulJoin (mesh : String → Prop) (m : Joined) : JoinStep → Prop
  | .related => True
  | .announced _ data => ∀ k ∈ data.labels, mesh k
  | .changed writes => ∀ labels, labelsOf m.relation = .ok labels → Interrupted m.objects writes →
    ∀ stored, storedLabels m.objects = some stored → ∀ k ∈ stored, k ∈ labels
  | .broken isLeader writes => Careful mesh m.objects (.meshBroken isLeader writes)
  | .otherPods name _ | .otherService name _ => ¬ mesh name

/-- Each mesh label on an object is remembered, and only mesh labels are announced. -/
def Meshed (mesh : String → Prop) (m : Joined) : Prop :=
  (∃ stored, Tracks mesh stored m.objects) ∧
    ∃ t, m.relation = wire t ∧ ∀ k ∈ announcedLabels t, mesh k

theorem meshed_step {m : Joined} (h : Meshed mesh m) {st : JoinStep} (hok : CarefulJoin mesh m st) :
    Meshed mesh (joinStep m st) := by
  obtain ⟨⟨stored, htracks⟩, t, ht, hmesh⟩ := h
  refine ⟨?_, announceStep t st, step_relation ht st, ?_⟩
  · cases st with
    | related | announced isLeader data => exact ⟨stored, htracks⟩
    | changed writes =>
      have hread : labelsOf m.relation = .ok (announcedLabels t) := by rw [ht, labelsOf_wire]
      have hobjects : (joinStep m (.changed writes)).objects =
          labelStep m.objects (.updateLabels (announcedLabels t) writes) := by
        change updateLabels m writes = _
        unfold updateLabels
        rw [hread]
      rw [hobjects]
      exact tracks_step htracks ⟨hmesh, hok _ hread⟩
    | broken isLeader writes =>
      have hcareful : Careful mesh m.objects (.meshBroken isLeader writes) := hok
      exact tracks_step htracks hcareful
    | otherPods name value =>
      have hcareful : Careful mesh m.objects (.otherPods name value) := hok
      exact tracks_step htracks hcareful
    | otherService name value =>
      have hcareful : Careful mesh m.objects (.otherService name value) := hok
      exact tracks_step htracks hcareful
  · cases st with
    | related | broken isLeader writes => simp [announceStep, announcedLabels]
    | changed writes | otherPods name value | otherService name value => exact hmesh
    | announced isLeader data =>
      rcases t with _ | d
      · exact hmesh
      · cases isLeader with
        | false => exact hmesh
        | true => exact hok

/-- Over every run of both sides, and also when hooks are interrupted: after a hook that is
not, the pods and the service have exactly the mesh labels that the beacon announced last
over the relation, and none when the relation ends or nothing was announced. -/
theorem the_pods_have_the_labels_announced_last {objects : Cluster}
    (h : ∃ stored, Tracks mesh stored objects) {steps : List JoinStep}
    (hok : runs.Meets (CarefulJoin mesh) joinStep ⟨none, objects⟩ steps) {writes : Nat}
    (hn : writesNeeded (runs.run joinStep ⟨none, objects⟩ steps).objects ≤ writes) {k : String}
    (hk : mesh k) :
    (joinStep (runs.run joinStep ⟨none, objects⟩ steps) (.changed writes)).objects.pods.lookup k =
        (announcedLabels (runs.run announceStep none steps)).lookup k ∧
      ((joinStep (runs.run joinStep ⟨none, objects⟩ steps)
        (.changed writes)).objects.service.getD ∅).lookup k =
        (announcedLabels (runs.run announceStep none steps)).lookup k ∧
      (joinStep (runs.run joinStep ⟨none, objects⟩ steps)
        (.broken true writes)).objects.pods.lookup k = none := by
  have hmeshed : Meshed mesh (runs.run joinStep ⟨none, objects⟩ steps) :=
    runs.run_keeps_of_meets (I := Meshed mesh) (fun _ _ hm hst => meshed_step hm hst)
      ⟨h, none, rfl, by simp [announcedLabels]⟩ hok
  have hrelation : (runs.run joinStep ⟨none, objects⟩ steps).relation =
      wire (runs.run announceStep none steps) :=
    runs.refines (R := fun (m : Joined) t => m.relation = wire t)
      (fun _ _ st hr => step_relation hr st) rfl steps
  generalize runs.run joinStep ⟨none, objects⟩ steps = m at hmeshed hrelation hn ⊢
  obtain ⟨⟨stored, htracks⟩, -⟩ := hmeshed
  have hchanged : (joinStep m (.changed writes)).objects =
      reconcileCharmLabels (announcedLabels (runs.run announceStep none steps)) writes
        m.objects := by
    change updateLabels m writes = _
    unfold updateLabels
    rw [hrelation, labelsOf_wire]
    rfl
  rw [hchanged]
  obtain ⟨hpods, hservice⟩ := complete_lookup htracks
    (announcedLabels (runs.run announceStep none steps)) hn hk
  refine ⟨hpods, hservice, ?_⟩
  change (onMeshBroken true writes m.objects).pods.lookup k = none
  rw [onMeshBroken_of_stored htracks.stored_eq]
  split
  · exact (complete_lookup htracks ∅ (Nat.le_refl _) hk).1
  · exact (complete_lookup htracks ∅ hn hk).1

/-- The beacon changes its label after the charm joined. The hook of the charm is then
interrupted, and the next one is not. -/
theorem the_pods_have_the_labels_announced_last_ambient :
    (joinStep (runs.run joinStep ⟨none, deployed⟩ [.related, .announced true ⟨∅, .istio⟩,
      .changed 4, .announced true ⟨ambient, .istio⟩, .changed 1]) (.changed 3)).objects.pods.lookup
        "istio.io/dataplane-mode" = some "ambient" := by
  have hmesh : ∀ k ∈ ambient, k = "istio.io/dataplane-mode" := by simp [ambient, AList.mem_keys]
  have hmeets : runs.Meets (CarefulJoin (· = "istio.io/dataplane-mode")) joinStep ⟨none, deployed⟩
      [.related, .announced true ⟨∅, .istio⟩, .changed 4, .announced true ⟨ambient, .istio⟩,
        .changed 1] := by
    refine ⟨trivial, by simp [CarefulJoin], ?_, hmesh, ?_, trivial⟩
    · intro labels _ hint
      exact absurd hint.2 (by decide)
    · intro labels _ _ stored hstored
      have hempty : stored = ∅ := (Option.some.inj hstored).symm
      simp [hempty]
  exact (the_pods_have_the_labels_announced_last ⟨∅, tracks_deployed⟩ hmeets (by decide) rfl).1

end law

end oidc_gatekeeper.service_mesh
