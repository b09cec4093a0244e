-- The mesh labels of the pods and of the service: `reconcile_charm_labels` of the
-- service-mesh library, and the two hooks that call it. A ConfigMap remembers
-- which labels are managed, and an API call that fails can come between any two
-- of the writes. Calls of different units do not overlap.
import OidcGatekeeper.Codecs
import OidcGatekeeper.Dicts
import OidcGatekeeper.Juju
import OidcGatekeeper.Runs

open json

namespace oidc_gatekeeper.service_mesh

/-- Labels as Python holds them. -/
abbrev Labels := AList fun _ : String => String

/-- A patch of labels: `None` deletes a label. -/
abbrev Patch := AList fun _ : String => Option String

def labelsCodec : Codec Labels := Codec.dict Codec.string

/-! ## The Kubernetes objects -/

/-- The objects that the function writes. The ConfigMap may be missing, or have no data;
its data is the text under its key `labels`. -/
structure Cluster where
  configMap : Option (Option String)
  pods : Dict String
  service : Option (Dict String)

/-- A merge patch of the labels of an object. -/
def patched (patch : Patch) (labels : Dict String) : Dict String :=
  patch.entries.foldl (fun ls e => match e.2 with
    | some value => ls.insert e.1 value
    | none => ls.erase e.1) labels

/-- The labels that the ConfigMap remembers; `none` when its text cannot be read. -/
def storedLabels (c : Cluster) : Option Labels :=
  match c.configMap with
  | some (some text) => labelsCodec.loads text
  | _ => some ∅

/-! ## One call -/

/-- `patch_labels`: what is asked for, and a `None` for each label that was stored and is not
asked for. -/
def patchLabels (labels stored : Labels) : Patch :=
  stored.entries.foldl (fun patch e => if e.1 ∈ patch then patch else patch.insert e.1 none)
    (labels.entries.foldl (fun patch e => patch.insert e.1 (some e.2)) ∅)

/-- `config_map_labels`: the entries of the patch that are no deletions. -/
def configMapLabels (patch : Patch) : Labels :=
  patch.entries.foldl (fun ls e => match e.2 with
    | some value => ls.insert e.1 value
    | none => ls) ∅

/-- The writes of `reconcile_charm_labels`, in their order. A missing ConfigMap is created
first. -/
def labelWrites (labels stored : Labels) (c : Cluster) : List (Cluster → Cluster) :=
  let patch := patchLabels labels stored
  (if c.configMap = none then [fun c => { c with configMap := some (some "\x7b\x7d") }] else []) ++
    [fun c => { c with configMap := some (some (labelsCodec.dumps (configMapLabels patch))) },
      fun c => { c with pods := patched patch c.pods },
      fun c => { c with service := some (patched patch (c.service.getD ∅)) }]

/-- `reconcile_charm_labels`, of which the first `writes` writes succeed. A ConfigMap that
cannot be read makes it raise before its first write. -/
def reconcileCharmLabels (labels : Labels) (writes : Nat) (c : Cluster) : Cluster :=
  match storedLabels c with
  | none => c
  | some stored => ((labelWrites labels stored c).take writes).foldl (fun c w => w c) c

/-- The number of writes that a call makes when none fails. -/
def writesNeeded (c : Cluster) : Nat := if c.configMap = none then 4 else 3

/-! ## The hooks -/

/-- What can happen to the objects: the mesh relation changes or breaks, in a hook of which
the first `writes` writes succeed, or another writer sets or deletes a label. -/
inductive LabelStep
  | updateLabels (labels : Labels) (writes : Nat)
  | meshBroken (isLeader : Bool) (writes : Nat)
  | otherPods (name : String) (value : Option String)
  | otherService (name : String) (value : Option String)

def written (name : String) (value : Option String) (labels : Dict String) : Dict String :=
  match value with
  | some value => labels.insert name value
  | none => labels.erase name

/-- `_on_mesh_broken`: the leader removes the labels, and then the ConfigMap. With a ConfigMap
that cannot be read it does not come so far. -/
def onMeshBroken (isLeader : Bool) (writes : Nat) (c : Cluster) : Cluster :=
  if !isLeader then c
  else if storedLabels c ≠ none ∧ writesNeeded c < writes then
    { reconcileCharmLabels ∅ (writesNeeded c) c with configMap := none }
  else reconcileCharmLabels ∅ writes c

def labelStep (c : Cluster) : LabelStep → Cluster
  | .updateLabels labels writes => reconcileCharmLabels labels writes c
  | .meshBroken isLeader writes => onMeshBroken isLeader writes c
  | .otherPods name value => { c with pods := written name value c.pods }
  | .otherService name value => { c with service := some (written name value (c.service.getD ∅)) }

theorem onMeshBroken_of_stored {stored : Labels} {c : Cluster} (h : storedLabels c = some stored)
    (writes : Nat) : onMeshBroken true writes c =
      if writesNeeded c < writes then
        { reconcileCharmLabels ∅ (writesNeeded c) c with configMap := none }
      else reconcileCharmLabels ∅ writes c := by
  simp [onMeshBroken, h]

/-! ## What one call leaves -/

theorem lookup_patched (patch : Patch) (labels : Dict String) (k : String) :
    (patched patch labels).lookup k = match patch.lookup k with
      | some (some value) => some value
      | some none => none
      | none => labels.lookup k := by
  have hloop := dicts.foldl_entries
    (r := fun (ls : Dict String) x => ls.lookup x)
    (f := fun (e : Sigma fun _ : String => Option String) _ => e.2)
    (g := fun ls e => match e.2 with
      | some value => ls.insert e.1 value
      | none => ls.erase e.1)
    (by
      rintro ls ⟨name, value | value⟩
      · exact Finmap.lookup_erase ..
      · exact Finmap.lookup_insert ..)
    (by
      rintro ls ⟨name, value | value⟩ x hx
      · exact Finmap.lookup_erase_ne hx
      · exact Finmap.lookup_insert_of_ne _ hx)
    patch labels k
  refine hloop.trans ?_
  rcases patch.lookup k with _ | _ | value <;> rfl

theorem lookup_patchLabels (labels stored : Labels) (k : String) :
    (patchLabels labels stored).lookup k = match labels.lookup k with
      | some value => some (some value)
      | none => if k ∈ stored then some none else none := by
  have hasked := dicts.foldl_entries
    (r := fun (patch : Patch) x => patch.lookup x)
    (f := fun (e : Sigma fun _ : String => String) _ => some (some e.2))
    (g := fun patch e => patch.insert e.1 (some e.2))
    (fun d e => AList.lookup_insert d) (fun d e x hx => AList.lookup_insert_ne hx)
    labels ∅ k
  have hstored := dicts.foldl_entries
    (r := fun (patch : Patch) x => patch.lookup x)
    (f := fun (e : Sigma fun _ : String => String) o => o.or (some none))
    (g := fun patch e => if e.1 ∈ patch then patch else patch.insert e.1 none)
    (by
      intro patch e
      by_cases he : e.1 ∈ patch
      · simp [he, Option.or_of_isSome (AList.lookup_isSome.mpr he)]
      · simp [he, AList.lookup_eq_none.mpr he])
    (by
      intro patch e x hx
      split
      · rfl
      · exact AList.lookup_insert_ne hx)
    stored (labels.entries.foldl (fun patch e => patch.insert e.1 (some e.2)) ∅) k
  refine hstored.trans ?_
  rw [hasked]
  by_cases hk : k ∈ stored
  · obtain ⟨v, hv⟩ := Option.isSome_iff_exists.mp (AList.lookup_isSome.mpr hk)
    rw [hv, if_pos hk]
    cases labels.lookup k <;> rfl
  · rw [AList.lookup_eq_none.mpr hk, if_neg hk]
    cases labels.lookup k <;> rfl

/-- The ConfigMap remembers what was asked for. -/
theorem lookup_configMapLabels (labels stored : Labels) (k : String) :
    (configMapLabels (patchLabels labels stored)).lookup k = labels.lookup k := by
  have hloop := dicts.foldl_entries
    (r := fun (ls : Labels) x => ls.lookup x)
    (f := fun (e : Sigma fun _ : String => Option String) o => e.2.or o)
    (g := fun ls e => match e.2 with
      | some value => ls.insert e.1 value
      | none => ls)
    (by
      rintro ls ⟨name, value | value⟩
      · rfl
      · exact AList.lookup_insert ls)
    (by
      rintro ls ⟨name, value | value⟩ x hx
      · rfl
      · exact AList.lookup_insert_ne hx)
    (patchLabels labels stored) ∅ k
  refine hloop.trans ?_
  rw [lookup_patchLabels]
  cases labels.lookup k with
  | some value => rfl
  | none => by_cases hk : k ∈ stored <;> simp [hk]

/-- How far a call came: not to the ConfigMap, up to it, up to the pods, or to its end. -/
inductive Reconciled (labels stored : Labels) (c c' : Cluster) (writes : Nat) : Prop
  | early (hn : writes + 2 < writesNeeded c) (hstored : storedLabels c' = some stored)
      (hpods : c'.pods = c.pods) (hservice : c'.service = c.service)
  | configMap (hn : writes + 2 = writesNeeded c)
      (hstored : storedLabels c' = some (configMapLabels (patchLabels labels stored)))
      (hpods : c'.pods = c.pods) (hservice : c'.service = c.service)
  | pods (hn : writes + 1 = writesNeeded c)
      (hstored : storedLabels c' = some (configMapLabels (patchLabels labels stored)))
      (hpods : c'.pods = patched (patchLabels labels stored) c.pods)
      (hservice : c'.service = c.service)
  | complete (hn : writesNeeded c ≤ writes)
      (hstored : storedLabels c' = some (configMapLabels (patchLabels labels stored)))
      (hpods : c'.pods = patched (patchLabels labels stored) c.pods)
      (hservice : c'.service.getD ∅ = patched (patchLabels labels stored) (c.service.getD ∅))

theorem loads_empty : labelsCodec.loads "\x7b\x7d" = some ∅ := labelsCodec.loads_dumps ∅

theorem reconciled {c : Cluster} {stored : Labels} (h : storedLabels c = some stored)
    (labels : Labels) (writes : Nat) :
    Reconciled labels stored c (reconcileCharmLabels labels writes c) writes := by
  unfold reconcileCharmLabels
  rw [h]
  dsimp only
  unfold labelWrites
  by_cases hc : c.configMap = none
  · have hempty : stored = ∅ := by
      rw [storedLabels, hc] at h
      exact (Option.some.inj h).symm
    have hneed : writesNeeded c = 4 := if_pos hc
    match writes with
    | 0 => exact .early (by omega) h rfl rfl
    | 1 =>
      refine .early (by omega) ?_ (by simp [hc]) (by simp [hc])
      simp [storedLabels, hc, loads_empty, hempty]
    | 2 => exact .configMap (by omega) (by simp [storedLabels, hc]) (by simp [hc]) (by simp [hc])
    | 3 => exact .pods (by omega) (by simp [storedLabels, hc]) (by simp [hc]) (by simp [hc])
    | n + 4 => exact .complete (by omega) (by simp [storedLabels, hc]) (by simp [hc]) (by simp [hc])
  · have hneed : writesNeeded c = 3 := if_neg hc
    match writes with
    | 0 => exact .early (by omega) (by simpa using h) (by simp [hc]) (by simp [hc])
    | 1 => exact .configMap (by omega) (by simp [storedLabels, hc]) (by simp [hc]) (by simp [hc])
    | 2 => exact .pods (by omega) (by simp [storedLabels, hc]) (by simp [hc]) (by simp [hc])
    | n + 3 => exact .complete (by omega) (by simp [storedLabels, hc]) (by simp [hc]) (by simp [hc])

/-! ## The labels that are managed -/

section managed

-- The names of mesh labels. Nobody else uses them: this is what the library asks of its
-- callers.
variable {mesh : String → Prop}

/-- Each mesh label on an object is remembered in the ConfigMap. -/
structure Tracks (mesh : String → Prop) (stored : Labels) (c : Cluster) : Prop where
  stored_eq : storedLabels c = some stored
  stored_mesh : ∀ k ∈ stored, mesh k
  pods : ∀ k, mesh k → k ∈ c.pods → k ∈ stored
  service : ∀ k, mesh k → k ∈ c.service.getD ∅ → k ∈ stored

/-- The call stops after it wrote the ConfigMap, and before it wrote both objects. -/
def Interrupted (c : Cluster) (writes : Nat) : Prop :=
  writesNeeded c ≤ writes + 2 ∧ writes < writesNeeded c

/-- Mesh labels are written by the hooks alone, and a hook that removes a mesh label is not
interrupted. -/
def Careful (mesh : String → Prop) (c : Cluster) : LabelStep → Prop
  | .updateLabels labels writes => (∀ k ∈ labels, mesh k) ∧
    (Interrupted c writes → ∀ stored, storedLabels c = some stored → ∀ k ∈ stored, k ∈ labels)
  | .meshBroken isLeader writes => isLeader = true → Interrupted c writes →
    storedLabels c = some ∅
  | .otherPods name _ | .otherService name _ => ¬ mesh name

/-- On an object whose mesh labels are remembered, the patch leaves those asked for. -/
theorem lookup_patched_mesh {labels stored : Labels} {object : Dict String} {k : String}
    (h : k ∈ object → k ∈ stored) :
    (patched (patchLabels labels stored) object).lookup k = labels.lookup k := by
  rw [lookup_patched, lookup_patchLabels]
  cases labels.lookup k with
  | some value => rfl
  | none =>
    by_cases hk : k ∈ stored
    · simp [hk]
    · simp [hk, Finmap.lookup_eq_none.mpr fun hmem => hk (h hmem)]

theorem mem_of_lookup_eq {labels : Labels} {object : Dict String} {k : String}
    (h : object.lookup k = labels.lookup k) (hk : k ∈ object) : k ∈ labels := by
  rw [← AList.lookup_isSome, ← h]
  exact Finmap.lookup_isSome.mpr hk

theorem mem_configMapLabels {labels stored : Labels} {k : String} :
    k ∈ configMapLabels (patchLabels labels stored) ↔ k ∈ labels := by
  rw [← AList.lookup_isSome, lookup_configMapLabels, AList.lookup_isSome]

/-- A call for mesh labels keeps them all remembered, unless it is interrupted while it
removes one. -/
theorem tracks_reconcile {c : Cluster} {stored : Labels} (h : Tracks mesh stored c)
    {labels : Labels} {writes : Nat} (hmesh : ∀ k ∈ labels, mesh k)
    (hint : Interrupted c writes → ∀ k ∈ stored, k ∈ labels) :
    ∃ stored', Tracks mesh stored' (reconcileCharmLabels labels writes c) := by
  have hcm : ∀ k, k ∈ configMapLabels (patchLabels labels stored) → mesh k :=
    fun k hk => hmesh k (mem_configMapLabels.mp hk)
  cases reconciled h.stored_eq labels writes with
  | early hn hstored hpods hservice =>
    exact ⟨stored, hstored, h.stored_mesh, hpods ▸ h.pods, hservice ▸ h.service⟩
  | configMap hn hstored hpods hservice =>
    have hall := hint ⟨by omega, by omega⟩
    refine ⟨_, hstored, hcm, ?_, ?_⟩
    · rw [hpods]
      exact fun k hk hmem => mem_configMapLabels.mpr (hall k (h.pods k hk hmem))
    · rw [hservice]
      exact fun k hk hmem => mem_configMapLabels.mpr (hall k (h.service k hk hmem))
  | pods hn hstored hpods hservice =>
    have hall := hint ⟨by omega, by omega⟩
    refine ⟨_, hstored, hcm, ?_, ?_⟩
    · rw [hpods]
      exact fun k hk hmem => mem_configMapLabels.mpr
        (mem_of_lookup_eq (lookup_patched_mesh (h.pods k hk)) hmem)
    · rw [hservice]
      exact fun k hk hmem => mem_configMapLabels.mpr (hall k (h.service k hk hmem))
  | complete hn hstored hpods hservice =>
    refine ⟨_, hstored, hcm, ?_, ?_⟩
    · rw [hpods]
      exact fun k hk hmem => mem_configMapLabels.mpr
        (mem_of_lookup_eq (lookup_patched_mesh (h.pods k hk)) hmem)
    · rw [hservice]
      exact fun k hk hmem => mem_configMapLabels.mpr
        (mem_of_lookup_eq (lookup_patched_mesh (h.service k hk)) hmem)

/-- A call that is not interrupted leaves exactly the mesh labels that it asks for. -/
theorem complete_lookup {c : Cluster} {stored : Labels} (h : Tracks mesh stored c)
    (labels : Labels) {writes : Nat} (hn : writesNeeded c ≤ writes) {k : String} (hk : mesh k) :
    (reconcileCharmLabels labels writes c).pods.lookup k = labels.lookup k ∧
      ((reconcileCharmLabels labels writes c).service.getD ∅).lookup k = labels.lookup k := by
  cases reconciled h.stored_eq labels writes with
  | early hn' | configMap hn' | pods hn' => omega
  | complete _ _ hpods hservice =>
    rw [hpods, hservice]
    exact ⟨lookup_patched_mesh (h.pods k hk), lookup_patched_mesh (h.service k hk)⟩

theorem lookup_written_ne {name k : String} (h : k ≠ name) (value : Option String)
    (labels : Dict String) : (written name value labels).lookup k = labels.lookup k := by
  cases value with
  | none => exact Finmap.lookup_erase_ne h
  | some value => exact Finmap.lookup_insert_of_ne _ h

theorem mem_written_ne {name k : String} (h : k ≠ name) (value : Option String)
    (labels : Dict String) : k ∈ written name value labels ↔ k ∈ labels := by
  rw [← Finmap.lookup_isSome, ← Finmap.lookup_isSome, lookup_written_ne h]

/-- Each mesh label on an object is remembered, after any step that is careful. -/
theorem tracks_step {c : Cluster} {stored : Labels} (h : Tracks mesh stored c) {st : LabelStep}
    (hok : Careful mesh c st) : ∃ stored', Tracks mesh stored' (labelStep c st) := by
  cases st with
  | updateLabels labels writes =>
    exact tracks_reconcile h hok.1 fun hi => hok.2 hi stored h.stored_eq
  | meshBroken isLeader writes =>
    cases isLeader with
    | false => exact ⟨stored, h⟩
    | true =>
      by_cases hn : writesNeeded c < writes
      · have hgone := fun k hk => complete_lookup (k := k) h ∅ (Nat.le_refl _) hk
        have hst : labelStep c (.meshBroken true writes) =
            { reconcileCharmLabels ∅ (writesNeeded c) c with configMap := none } :=
          (onMeshBroken_of_stored h.stored_eq writes).trans (if_pos hn)
        rw [hst]
        refine ⟨∅, rfl, by simp, fun k hk hmem => ?_, fun k hk hmem => ?_⟩
        · exact mem_of_lookup_eq (hgone k hk).1 hmem
        · exact mem_of_lookup_eq (hgone k hk).2 hmem
      · have hst : labelStep c (.meshBroken true writes) = reconcileCharmLabels ∅ writes c :=
          (onMeshBroken_of_stored h.stored_eq writes).trans (if_neg hn)
        rw [hst]
        refine tracks_reconcile h (by simp) fun hi => ?_
        have hempty := hok rfl hi
        rw [h.stored_eq] at hempty
        cases hempty
        exact fun k hk => hk
  | otherPods name value =>
    have hne : ∀ k, mesh k → k ≠ name := fun k hk he => hok (he ▸ hk)
    exact ⟨stored, h.stored_eq, h.stored_mesh,
      fun k hk hmem => h.pods k hk ((mem_written_ne (hne k hk) ..).mp hmem), h.service⟩
  | otherService name value =>
    have hne : ∀ k, mesh k → k ≠ name := fun k hk he => hok (he ▸ hk)
    exact ⟨stored, h.stored_eq, h.stored_mesh, h.pods,
      fun k hk hmem => h.service k hk ((mem_written_ne (hne k hk) ..).mp hmem)⟩

/-- Over every run of careful steps, and also when hooks are interrupted, the next call
that is not interrupted leaves exactly the mesh labels that it asks for: no label of an
earlier call stays behind. -/
theorem mesh_labels_are_those_last_asked_for {c : Cluster} {steps : List LabelStep}
    (h : ∃ stored, Tracks mesh stored c) (hok : runs.Meets (Careful mesh) labelStep c steps)
    (labels : Labels) {writes : Nat} (hn : writesNeeded (runs.run labelStep c steps) ≤ writes)
    {k : String} (hk : mesh k) :
    (labelStep (runs.run labelStep c steps) (.updateLabels labels writes)).pods.lookup k =
        labels.lookup k ∧
      ((labelStep (runs.run labelStep c steps) (.updateLabels labels writes)).service.getD
        ∅).lookup k = labels.lookup k := by
  obtain ⟨stored, ht⟩ := runs.run_keeps_of_meets (I := fun c => ∃ stored, Tracks mesh stored c)
    (fun c st ht hst => ht.elim fun stored ht => tracks_step ht hst) h hok
  exact complete_lookup ht labels hn hk

/-- The label of an ambient mesh. -/
def ambient : Labels := AList.singleton "istio.io/dataplane-mode" "ambient"

/-- The objects as the deployment made them. -/
def deployed : Cluster := ⟨none, Finmap.singleton "app.kubernetes.io/name" "oidc-gatekeeper", none⟩

theorem tracks_deployed : Tracks (· = "istio.io/dataplane-mode") ∅ deployed where
  stored_eq := rfl
  stored_mesh := by simp
  pods := by
    rintro k rfl hmem
    simp [deployed] at hmem
  service _ _ hmem := absurd hmem Finmap.notMem_empty

/-- The first hook stops after it wrote the ConfigMap. The mesh is gone before the next one. -/
theorem mesh_labels_are_those_last_asked_for_interrupted :
    (labelStep (runs.run labelStep deployed [.updateLabels ambient 2, .otherPods "team" "ops"])
      (.updateLabels ∅ 3)).pods.lookup "istio.io/dataplane-mode" = none := by
  have hmesh : ∀ k ∈ ambient, k = "istio.io/dataplane-mode" := by simp [ambient, AList.mem_keys]
  have hcareful : Careful (· = "istio.io/dataplane-mode") deployed (.updateLabels ambient 2) := by
    refine ⟨hmesh, ?_⟩
    rintro - stored ⟨⟩
    simp
  have hmeets : runs.Meets (Careful (· = "istio.io/dataplane-mode")) labelStep deployed
      [.updateLabels ambient 2, .otherPods "team" "ops"] :=
    ⟨hcareful, by simp [Careful], trivial⟩
  exact (mesh_labels_are_those_last_asked_for ⟨∅, tracks_deployed⟩ hmeets ∅ (by decide) rfl).1

end managed

/-! ## The labels of others -/

/-- The objects as they would be without the mesh. -/
structure Others where
  pods : Dict String
  service : Dict String

def otherStep (o : Others) : LabelStep → Others
  | .updateLabels _ _ | .meshBroken _ _ => o
  | .otherPods name value => { o with pods := written name value o.pods }
  | .otherService name value => { o with service := written name value o.service }

/-- A hook asks for mesh labels only. -/
def AsksMesh (mesh : String → Prop) : LabelStep → Prop
  | .updateLabels labels _ => ∀ k ∈ labels, mesh k
  | _ => True

/-- Only mesh labels are managed, and the other ones are as they would be without the mesh. -/
def LeavesOthers (mesh : String → Prop) (c : Cluster) (o : Others) : Prop :=
  (∃ stored, storedLabels c = some stored ∧ ∀ k ∈ stored, mesh k) ∧
    ∀ k, ¬ mesh k → c.pods.lookup k = o.pods.lookup k ∧
      (c.service.getD ∅).lookup k = o.service.lookup k

section others

variable {mesh : String → Prop} {c : Cluster} {o : Others}

theorem lookup_patched_other {labels stored : Labels} {object : Dict String} {k : String}
    (hl : k ∉ labels) (hs : k ∉ stored) :
    (patched (patchLabels labels stored) object).lookup k = object.lookup k := by
  rw [lookup_patched, lookup_patchLabels, AList.lookup_eq_none.mpr hl]
  simp [hs]

theorem leavesOthers_reconcile (h : LeavesOthers mesh c o) (labels : Labels)
    (hmesh : ∀ k ∈ labels, mesh k) (writes : Nat) :
    LeavesOthers mesh (reconcileCharmLabels labels writes c) o := by
  obtain ⟨⟨stored, hs, hsm⟩, ho⟩ := h
  have hcm : ∀ k, k ∈ configMapLabels (patchLabels labels stored) → mesh k :=
    fun k hk => hmesh k (mem_configMapLabels.mp hk)
  have hpatch : ∀ (object : Dict String) (k : String), ¬ mesh k →
      (patched (patchLabels labels stored) object).lookup k = object.lookup k :=
    fun object k hk => lookup_patched_other (fun hl => hk (hmesh k hl)) (fun hl => hk (hsm k hl))
  cases reconciled hs labels writes with
  | early hn hstored hpods hservice => exact ⟨⟨stored, hstored, hsm⟩, by rwa [hpods, hservice]⟩
  | configMap hn hstored hpods hservice => exact ⟨⟨_, hstored, hcm⟩, by rwa [hpods, hservice]⟩
  | pods hn hstored hpods hservice =>
    refine ⟨⟨_, hstored, hcm⟩, fun k hk => ?_⟩
    rw [hpods, hservice, hpatch _ k hk]
    exact ho k hk
  | complete hn hstored hpods hservice =>
    refine ⟨⟨_, hstored, hcm⟩, fun k hk => ?_⟩
    rw [hpods, hservice, hpatch _ k hk, hpatch _ k hk]
    exact ho k hk

theorem lookup_written_congr {labels labels' : Dict String} {k : String}
    (h : labels.lookup k = labels'.lookup k) (name : String) (value : Option String) :
    (written name value labels).lookup k = (written name value labels').lookup k := by
  by_cases hk : k = name
  · subst hk
    cases value <;> simp [written]
  · rw [lookup_written_ne hk, lookup_written_ne hk, h]

theorem leavesOthers_step (h : LeavesOthers mesh c o) {st : LabelStep} (hasks : AsksMesh mesh st) :
    LeavesOthers mesh (labelStep c st) (otherStep o st) := by
  cases st with
  | updateLabels labels writes => exact leavesOthers_reconcile h labels hasks writes
  | meshBroken isLeader writes =>
    cases isLeader with
    | false => exact h
    | true =>
      obtain ⟨stored, hs, -⟩ := h.1
      change LeavesOthers mesh (onMeshBroken true writes c) o
      rw [onMeshBroken_of_stored hs]
      split
      · obtain ⟨-, ho⟩ := leavesOthers_reconcile h ∅ (by simp) (writesNeeded c)
        exact ⟨⟨∅, rfl, by simp⟩, ho⟩
      · exact leavesOthers_reconcile h ∅ (by simp) writes
  | otherPods name value =>
    exact ⟨h.1, fun k hk => ⟨lookup_written_congr (h.2 k hk).1 name value, (h.2 k hk).2⟩⟩
  | otherService name value =>
    exact ⟨h.1, fun k hk => ⟨(h.2 k hk).1, lookup_written_congr (h.2 k hk).2 name value⟩⟩

/-- Over every run, wherever its hooks are interrupted, the labels that are no mesh labels
are those that the other writers set. -/
theorem other_labels_are_left_alone (h : LeavesOthers mesh c o) {steps : List LabelStep}
    (hasks : ∀ st ∈ steps, AsksMesh mesh st) {k : String} (hk : ¬ mesh k) :
    (runs.run labelStep c steps).pods.lookup k = (runs.run otherStep o steps).pods.lookup k ∧
      ((runs.run labelStep c steps).service.getD ∅).lookup k =
        (runs.run otherStep o steps).service.lookup k := by
  have hstep : ∀ c o i j, LeavesOthers mesh c o → i = j ∧ AsksMesh mesh i →
      LeavesOthers mesh (labelStep c i) (otherStep o j) := by
    rintro c o i _ hr ⟨rfl, ha⟩
    exact leavesOthers_step hr ha
  have hrun := runs.lockstep hstep h (List.forall₂_same.mpr fun st hst => ⟨rfl, hasks st hst⟩)
  exact hrun.2 k hk

theorem other_labels_are_left_alone_deployed :
    (runs.run labelStep deployed [.updateLabels ambient 1, .otherPods "team" "ops",
      .meshBroken true 4]).pods.lookup "team" = some "ops" := by
  have hleaves : LeavesOthers (· = "istio.io/dataplane-mode") deployed ⟨deployed.pods, ∅⟩ :=
    ⟨⟨∅, rfl, by simp⟩, fun _ _ => ⟨rfl, rfl⟩⟩
  have hasks : ∀ st ∈ [.updateLabels ambient 1, .otherPods "team" "ops", .meshBroken true 4],
      AsksMesh (· = "istio.io/dataplane-mode") st := by
    simp [AsksMesh, ambient, AList.mem_keys]
  have hne : ¬ "team" = "istio.io/dataplane-mode" := by decide
  exact (other_labels_are_left_alone hleaves hasks hne).1

end others

/-! ## A label that was lost -/

/-- The step neither asks for this label nor writes it. -/
def Passes (k : String) : LabelStep → Prop
  | .updateLabels labels _ => k ∉ labels
  | .meshBroken _ _ => True
  | .otherPods name _ | .otherService name _ => k ≠ name

/-- The label is on the pods with this value, if any, and the ConfigMap does not know it. -/
def Unknown (k : String) (value : Option String) (c : Cluster) : Prop :=
  (∃ stored, storedLabels c = some stored ∧ k ∉ stored) ∧ c.pods.lookup k = value

section lost

variable {c : Cluster} {k : String} {value : Option String}

theorem unknown_reconcile (h : Unknown k value c) {labels : Labels} (hl : k ∉ labels)
    (writes : Nat) : Unknown k value (reconcileCharmLabels labels writes c) := by
  obtain ⟨⟨stored, hs, hk⟩, hv⟩ := h
  have hcm : k ∉ configMapLabels (patchLabels labels stored) := fun hmem =>
    hl (mem_configMapLabels.mp hmem)
  cases reconciled hs labels writes with
  | early hn hstored hpods => exact ⟨⟨stored, hstored, hk⟩, by rw [hpods, hv]⟩
  | configMap hn hstored hpods => exact ⟨⟨_, hstored, hcm⟩, by rw [hpods, hv]⟩
  | pods hn hstored hpods | complete hn hstored hpods =>
    exact ⟨⟨_, hstored, hcm⟩, by rw [hpods, lookup_patched_other hl hk, hv]⟩

theorem unknown_step (h : Unknown k value c) {st : LabelStep} (hst : Passes k st) :
    Unknown k value (labelStep c st) := by
  cases st with
  | updateLabels labels writes => exact unknown_reconcile h hst writes
  | meshBroken isLeader writes =>
    cases isLeader with
    | false => exact h
    | true =>
      obtain ⟨stored, hs, -⟩ := h.1
      change Unknown k value (onMeshBroken true writes c)
      rw [onMeshBroken_of_stored hs]
      split
      · exact ⟨⟨∅, rfl, by simp⟩, (unknown_reconcile h (by simp) _).2⟩
      · exact unknown_reconcile h (by simp) writes
  | otherPods name v => exact ⟨h.1, (lookup_written_ne hst v c.pods).trans h.2⟩
  | otherService name v => exact h

/-- A call that should remove a label, and stops after it wrote the ConfigMap and before it
wrote the pods, leaves the label on the pods for good: no later hook removes it, unless one
asks for it again. -/
theorem a_lost_label_stays {stored labels : Labels} (h : storedLabels c = some stored)
    (hl : k ∉ labels) {writes : Nat} (hn : writes + 2 = writesNeeded c) {steps : List LabelStep}
    (hsteps : ∀ st ∈ steps, Passes k st) :
    (runs.run labelStep c (.updateLabels labels writes :: steps)).pods.lookup k =
      c.pods.lookup k := by
  have hstart : Unknown k (c.pods.lookup k) (labelStep c (.updateLabels labels writes)) := by
    cases reconciled h labels writes with
    | early hn' | pods hn' | complete hn' => omega
    | configMap _ hstored hpods =>
      exact ⟨⟨_, hstored, fun hk => hl (mem_configMapLabels.mp hk)⟩, congrArg _ hpods⟩
  have hmeets : runs.Meets (fun _ => Passes k) labelStep
      (labelStep c (.updateLabels labels writes)) steps := runs.meets_of_forall hsteps
  exact (runs.run_keeps_of_meets (I := Unknown k (c.pods.lookup k))
    (fun _ _ hc hst => unknown_step hc hst) hstart hmeets).2

/-- The mesh label is on, and the hook that removes it stops in between. -/
theorem a_lost_label_stays_ambient :
    (runs.run labelStep (labelStep deployed (.updateLabels ambient 4))
      [.updateLabels ∅ 1, .updateLabels ∅ 3, .meshBroken true 4]).pods.lookup
        "istio.io/dataplane-mode" = some "ambient" := by
  have hstored : storedLabels (labelStep deployed (.updateLabels ambient 4)) = some ambient :=
    labelsCodec.loads_dumps ambient
  have hsteps : ∀ st ∈ [.updateLabels ∅ 3, .meshBroken true 4],
      Passes "istio.io/dataplane-mode" st := by
    simp [Passes]
  refine (a_lost_label_stays hstored (by simp) (by decide) hsteps).trans ?_
  decide

end lost

end oidc_gatekeeper.service_mesh
