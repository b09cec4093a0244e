-- The requirer side of the forward-auth library, and the protocol of the two
-- sides: what a gateway reads is what the provider wrote last, and the provider
-- judges the app names that the gateway announced last.
import OidcGatekeeper.Codecs
import OidcGatekeeper.ForwardAuth
import OidcGatekeeper.Runs

open json json_strings

namespace oidc_gatekeeper.forward_auth

/-! ## The data of the databags -/

/-- A value of a databag, as ops shows it: Juju keeps no empty value. -/
def shown (bag : Databag) (k : String) : Option String := (bag.lookup k).filter (· ≠ "")

/-- A value that is JSON is read as JSON, and any other value as a string. -/
def loadValue (text : String) : Value :=
  match json.loads text with
  | .ok v => v
  | .error _ => .str (.text text)

/-- The value is JSON with an integer that is too long, which `_load_data` raises for. -/
def isLong (text : String) : Bool := json.loads text matches .error .valueError

def NoLongInteger (bag : Databag) : Prop := ∀ k ∈ bag.keys, (shown bag k).all (!isLong ·)

instance (bag : Databag) : Decidable (NoLongInteger bag) :=
  inferInstanceAs (Decidable (∀ k ∈ bag.keys, _ = true))

/-- The dict of `_load_data`, by its keys. -/
def loadData (bag : Databag) (k : String) : Option Value := (shown bag k).map loadValue

/-- `{"type": "string"}`. -/
def isString : Value → Bool
  | .str _ => true
  | _ => false

/-- `{"type": "array", "items": {"type": "string"}}`. -/
def isStrings : Value → Bool
  | .arr items => items.all isString
  | _ => false

structure Schema where
  properties : List (String × (Value → Bool))
  required : List String

/-- `FORWARD_AUTH_PROVIDER_JSON_SCHEMA`. -/
def providerSchema : Schema where
  properties := [("decisions_address", isString), ("app_names", isStrings), ("headers", isStrings)]
  required := ["decisions_address", "app_names"]

/-- `_validate_data` raises nothing. A property that is not required may be missing. -/
def validateData (data : String → Option Value) (schema : Schema) : Bool :=
  schema.required.all (fun k => (data k).isSome) &&
    schema.properties.all fun p => (data p.1).all p.2

def strOf : Value → Option Str
  | .str s => some s
  | _ => none

def strsOf : Value → Option (List Str)
  | .arr items => items.mapM strOf
  | _ => none

/-- A `ForwardAuthConfig` that is read from a databag. JSON can bring any `str`. -/
structure ReadConfig where
  decisionsAddress : Str
  appNames : List Str
  headers : List Str
  deriving DecidableEq

/-- The config as it is read when nothing of it gets lost. -/
def ForwardAuthConfig.asRead (config : ForwardAuthConfig) : ReadConfig :=
  ⟨.text config.decisionsAddress, config.appNames.map .text, config.headers.map .text⟩

/-- `ForwardAuthConfig.from_dict`. -/
def fromDict (dic : String → Option Value) : Option ReadConfig := do
  let decisionsAddress ← (dic "decisions_address").bind strOf
  let appNames ← (dic "app_names").bind strsOf
  let headers ← match dic "headers" with
    | none => some []
    | some v => strsOf v
  return ⟨decisionsAddress, appNames, headers⟩

/-- The app names that a gateway announces. `__post_init__` drops the ones that it names again. -/
structure ForwardAuthRequirerConfig where
  ingressAppNames : List String
  nodup : ingressAppNames.Nodup
  deriving DecidableEq

/-- `list(dict.fromkeys(names))`. -/
def fromkeys (names : List String) : List String :=
  names.foldl (fun seen name => if name ∈ seen then seen else seen ++ [name]) []

theorem nodup_fromkeys (names : List String) : (fromkeys names).Nodup := by
  unfold fromkeys
  refine List.foldlRecOn names _ List.nodup_nil fun seen hs name _ => ?_
  split
  · exact hs
  · rename_i hn
    exact List.nodup_append.mpr ⟨hs, List.nodup_singleton name, by
      rintro a ha b hb rfl
      exact hn (List.mem_singleton.mp hb ▸ ha)⟩

/-- The constructor of `ForwardAuthRequirerConfig`. -/
def ForwardAuthRequirerConfig.init (names : List String) : ForwardAuthRequirerConfig :=
  ⟨fromkeys names, nodup_fromkeys names⟩

/-- `_dump_data(config.to_dict(), ..)`. -/
def dumpRequirerData (config : ForwardAuthRequirerConfig) : Databag :=
  Finmap.singleton "ingress_app_names" (json_strings.dumps config.ingressAppNames)

/-! ## The requirer -/

namespace Requirer

/-- What the requirer raises. -/
inductive Exc
  | dataValidationError | typeError | valueError
  deriving DecidableEq

inductive Event
  | authConfigChanged (decisionsAddress : Str) (appNames : List Str)
      (headers : Option (List Str)) (relationId : Nat) (relationAppName : String)
  | authConfigRemoved (relationId : Nat)
  deriving DecidableEq

/-- `self.model.get_relation(..)`, with no relation id, in the `try` around it. -/
def relationOf (rels : List (Relation Databag)) : Except Exc (Option (Relation Databag)) :=
  match getRelation "forward-auth" rels with
  | .ok relation => .ok relation
  | .error _ => .error .typeError

/-- The part of `get_provider_info` that reads the databag. After the validation there is a
config, so the `TypeError` never comes. -/
def readConfig (bag : Databag) : Except Exc ReadConfig :=
  if ¬ NoLongInteger bag then .error .valueError
  else if validateData (loadData bag) providerSchema then
    match fromDict (loadData bag) with
    | some config => .ok config
    | none => .error .typeError
  else .error .dataValidationError

def getProviderInfo (rels : List (Relation Databag)) : Except Exc (Option ReadConfig) := do
  match ← relationOf rels with
  | none => return none
  | some relation =>
    if relation.remote = ∅ then return none
    return some (← readConfig relation.remote)

def isReady (rels : List (Relation Databag)) : Except Exc (Option Bool) := do
  match ← relationOf rels with
  | none => return none
  | some relation =>
    return some ((shown relation.remote "decisions_address").isSome &&
      (shown relation.remote "app_names").isSome)

def isProtectedApp (app : String) (rels : List (Relation Databag)) : Except Exc Bool := do
  if (← isReady rels) = some true then
    match ← getProviderInfo rels with
    | some config => return decide (.text app ∈ config.appNames)
    | none => return false
  else return false

/-- `_on_relation_changed_event`, with the events that it emits. Data that does not fit the
schema is only logged. -/
def onRelationChangedEvent (isLeader : Bool) (relation : Relation Databag) :
    Except Exc (List Event) :=
  if !isLeader then .ok []
  else if relation.remote = ∅ then .ok []
  else match readConfig relation.remote with
    | .ok config =>
      .ok [.authConfigChanged config.decisionsAddress config.appNames
        ((loadData relation.remote "headers").bind strsOf) relation.id relation.app]
    | .error .dataValidationError => .ok []
    | .error e => .error e

/-- `update_requirer_relation_data`, on the relation with this id as the provider sees it. -/
def updateRequirerRelationData (config : ForwardAuthRequirerConfig) (relationId : Nat)
    (rels : List (Relation Databag)) : List (Relation Databag) :=
  rels.map fun r =>
    if r.id = relationId then { r with remote := dumpRequirerData config ∪ r.remote } else r

end Requirer

/-! ## What is read -/

theorem strsOf_of_isStrings {v : Value} (h : isStrings v = true) : ∃ ss, strsOf v = some ss := by
  cases v with
  | arr items =>
    change items.all isString = true at h
    change ∃ ss, items.mapM strOf = some ss
    induction items with
    | nil => exact ⟨[], rfl⟩
    | cons v items ih =>
      rw [List.all_cons, Bool.and_eq_true] at h
      obtain ⟨ss, hss⟩ := ih h.2
      cases v with
      | str s => exact ⟨s :: ss, by simp [List.mapM_cons, strOf, hss]⟩
      | _ => cases h.1
  | _ => cases h

/-- Data that fits the schema makes a config. -/
theorem fromDict_of_validateData {data : String → Option Value}
    (h : validateData data providerSchema = true) : ∃ config, fromDict data = some config := by
  simp only [validateData, providerSchema, List.all_cons, List.all_nil, Bool.and_true,
    Bool.and_eq_true, Option.isSome_iff_exists] at h
  obtain ⟨⟨⟨address, ha⟩, ⟨names, hn⟩⟩, hstring, hnames, hheaders⟩ := h
  rw [ha, Option.all_some] at hstring
  rw [hn, Option.all_some] at hnames
  obtain ⟨appNames, happ⟩ := strsOf_of_isStrings hnames
  obtain ⟨s, rfl⟩ : ∃ s, address = .str s := by
    cases address with
    | str s => exact ⟨s, rfl⟩
    | _ => cases hstring
  have hs : strOf (.str s) = some s := rfl
  cases hh : data "headers" with
  | none => exact ⟨⟨s, appNames, []⟩, by simp [fromDict, ha, hn, happ, hh, hs]⟩
  | some v =>
    rw [hh, Option.all_some] at hheaders
    obtain ⟨headers, he⟩ := strsOf_of_isStrings hheaders
    exact ⟨⟨s, appNames, headers⟩, by simp [fromDict, ha, hn, happ, hh, he, hs]⟩

theorem readConfig_ne_typeError (bag : Databag) : Requirer.readConfig bag ≠ .error .typeError := by
  unfold Requirer.readConfig
  split
  · simp
  · split
    · rename_i hvalid
      obtain ⟨config, hconfig⟩ := fromDict_of_validateData hvalid
      simp [hconfig]
    · simp

theorem shown_names (ss : List String) : (some (json_strings.dumps ss)).filter (· ≠ "") =
    some (json_strings.dumps ss) := by
  cases ss with
  | nil => rfl
  | cons s ss => simp [json_strings.dumps]

theorem loadValue_names (ss : List String) : loadValue (json_strings.dumps ss) = strings ss := by
  rw [loadValue, loads_strings]

theorem isStrings_strings (ss : List String) : isStrings (strings ss) = true := by
  simp [isStrings, strings, isString]

@[simp] theorem strsOf_strings (ss : List String) : strsOf (strings ss) = some (ss.map .text) := by
  change (ss.map fun s => Value.str (.text s)).mapM strOf = _
  induction ss with
  | nil => rfl
  | cons s ss ih =>
    rw [List.map_cons, List.mapM_cons, ih]
    rfl

/-! ## What is written -/

section written

variable {config : ForwardAuthConfig} {bag : Databag}

theorem Holds.appNames (h : Holds config bag) :
    loadData bag "app_names" = some (strings config.appNames) := by
  rw [loadData, shown, h.2.1, shown_names, Option.map_some, loadValue_names]

theorem Holds.headers (h : Holds config bag) :
    loadData bag "headers" = some (strings config.headers) := by
  rw [loadData, shown, h.2.2, shown_names, Option.map_some, loadValue_names]

theorem Holds.ne_empty (h : Holds config bag) : bag ≠ ∅ := by
  rintro rfl
  cases h.1

/-- What the requirer makes of a config: only the address can come out otherwise. -/
theorem Holds.readConfig (h : Holds config bag) : Requirer.readConfig bag =
    if NoLongInteger bag then
      match loadData bag "decisions_address" with
      | some (.str address) => .ok { config.asRead with decisionsAddress := address }
      | _ => .error .dataValidationError
    else .error .valueError := by
  unfold Requirer.readConfig
  by_cases hlong : NoLongInteger bag
  · rw [if_neg (not_not_intro hlong), if_pos hlong]
    cases ha : loadData bag "decisions_address" with
    | none => simp [validateData, providerSchema, ha]
    | some v =>
      have hvalid : validateData (loadData bag) providerSchema = isString v := by
        simp [validateData, providerSchema, ha, h.appNames, h.headers, isStrings_strings]
      rw [hvalid]
      cases v with
      | str address =>
        have hdict : fromDict (loadData bag) =
            some { config.asRead with decisionsAddress := address } := by
          unfold fromDict
          rw [ha, h.appNames, h.headers]
          simp only [Option.bind_some, strsOf_strings]
          rfl
        rw [hdict]
        rfl
      | _ => rfl
  · rw [if_pos hlong, if_neg hlong]

/-- An address that goes through a databag as it is. -/
def Readable (address : String) : Prop :=
  address ≠ "" ∧ json.loads address = .error .jsonDecodeError

theorem Holds.address_iff (h : Holds config bag) (hlong : NoLongInteger bag) :
    loadData bag "decisions_address" = some (.str (.text config.decisionsAddress)) ↔
      Readable config.decisionsAddress := by
  have hshown : shown bag "decisions_address" =
      (some config.decisionsAddress).filter (· ≠ "") := congrArg (Option.filter _) h.1
  have hshort := hlong "decisions_address"
    (Finmap.mem_keys.mpr (Finmap.mem_of_lookup_eq_some h.1))
  unfold loadData Readable loadValue
  rw [hshown] at hshort ⊢
  by_cases he : config.decisionsAddress = ""
  · simp [he]
  · rw [Option.filter_some, if_pos (by simpa using he)] at hshort ⊢
    rw [Option.map_some]
    cases hl : json.loads config.decisionsAddress with
    | error e =>
      cases e with
      | jsonDecodeError => simp [he]
      | valueError => simp [isLong, hl] at hshort
    | ok v =>
      simp only [Option.some.injEq, reduceCtorEq, and_false, iff_false]
      rintro rfl
      exact ne_of_loads_str hl rfl

/-- The relation, as the gateway at the other end sees it. -/
def otherSide (provider : String) (r : Relation Databag) : Relation Databag :=
  ⟨r.id, provider, r.ours, r.remote⟩

theorem Holds.getProviderInfo {r : Relation Databag} (h : Holds config r.remote) :
    Requirer.getProviderInfo [r] = (Requirer.readConfig r.remote).map some := by
  unfold Requirer.getProviderInfo Requirer.relationOf getRelation
  simp only [h.ne_empty, bind, Except.bind, if_false]
  cases Requirer.readConfig r.remote <;> rfl

theorem Holds.getProviderInfo_iff {r : Relation Databag} (h : Holds config r.remote) :
    Requirer.getProviderInfo [r] = .ok (some config.asRead) ↔
      Readable config.decisionsAddress ∧ NoLongInteger r.remote := by
  rw [h.getProviderInfo, h.readConfig]
  by_cases hlong : NoLongInteger r.remote
  · rw [if_pos hlong, ← h.address_iff hlong]
    cases ha : loadData r.remote "decisions_address" with
    | none => simp [Except.map]
    | some v =>
      cases v with
      | str address =>
        simp only [Except.map, Except.ok.injEq, Option.some.injEq, Value.str.injEq]
        refine ⟨fun h => ⟨congrArg ReadConfig.decisionsAddress h, hlong⟩, fun h => ?_⟩
        rw [h.1]
        rfl
      | _ => simp [Except.map]
  · simp [hlong, Except.map]

/-- No other app names and no other headers are ever read. -/
theorem Holds.names_of_getProviderInfo {r : Relation Databag} (h : Holds config r.remote)
    {info : ReadConfig} (hinfo : Requirer.getProviderInfo [r] = .ok (some info)) :
    info.appNames = config.asRead.appNames ∧ info.headers = config.asRead.headers := by
  rw [h.getProviderInfo, h.readConfig] at hinfo
  split at hinfo
  · split at hinfo
    · cases hinfo
      exact ⟨rfl, rfl⟩
    · cases hinfo
  · cases hinfo

theorem noLongInteger_dumpData {config : ForwardAuthConfig}
    (h : Readable config.decisionsAddress) : NoLongInteger (dumpData config) := by
  have hlong (ss : List String) : isLong (json_strings.dumps ss) = false := by
    rw [isLong, loads_strings]
  obtain ⟨haddress, hnames, hheaders⟩ := holds_only_dumpData config
  intro k hk
  have hkeys : k = "decisions_address" ∨ k = "app_names" ∨ k = "headers" := by
    rw [Finmap.mem_keys, ← Finmap.lookup_isSome] at hk
    simpa [dumpData, Finmap.dlookup_list_toFinmap, List.dlookup_isSome] using hk
  rcases hkeys with rfl | rfl | rfl
  · simp [shown, haddress, h.1, isLong, h.2]
  · rw [shown, hnames, shown_names, Option.all_some, hlong, Bool.not_false]
  · rw [shown, hheaders, shown_names, Option.all_some, hlong, Bool.not_false]

theorem dumpData_union (config : ForwardAuthConfig) (told : Option ForwardAuthConfig) :
    dumpData config ∪ (told.map dumpData).getD ∅ = dumpData config := by
  apply dicts.union_eq_left
  intro k hk
  cases told with
  | none => exact absurd hk Finmap.notMem_empty
  | some other =>
    rw [← Finmap.lookup_isSome] at hk ⊢
    simp only [dumpData, Option.map_some, Option.getD_some, Finmap.dlookup_list_toFinmap,
      List.dlookup_isSome, List.keys_cons, List.keys_nil] at hk ⊢
    exact hk

/-- Whatever is in the databag, after the provider has written a config to it a gateway
reads that config exactly when its address is not empty and no JSON text by itself, and no
integer in the databag is too long. It never reads other app names or other headers. -/
theorem a_config_is_read_as_written_iff_its_address_is_readable (provider : String)
    (config : ForwardAuthConfig) (id : Nat) (rels : List (Relation Databag)) :
    ∀ r ∈ updateRelationData config id rels, r.id = id →
      (Requirer.getProviderInfo [otherSide provider r] = .ok (some config.asRead) ↔
        Readable config.decisionsAddress ∧ NoLongInteger r.ours) ∧
      ∀ info, Requirer.getProviderInfo [otherSide provider r] = .ok (some info) →
        info.appNames = config.asRead.appNames ∧ info.headers = config.asRead.headers := by
  intro r hr hid
  have hholds : Holds config (otherSide provider r).remote := by
    obtain ⟨r', -, rfl⟩ := (Relation.mem_written _ _ _).mp hr
    change Holds config (if r'.id = id then _ else _)
    rw [if_pos hid]
    exact holds_dumpData config r'.ours
  exact ⟨hholds.getProviderInfo_iff, fun _ => hholds.names_of_getProviderInfo⟩

/-- The relation of a gateway, with an older config in its databag. -/
def republished : List (Relation Databag) :=
  updateRelationData ⟨"http://gate:8080", [], ["kubeflow-userid"]⟩ 7
    [⟨7, "istio-ingress", ∅, dumpData ⟨"http://old:1", ["board"], []⟩⟩]

theorem a_config_is_read_as_written_iff_its_address_is_readable_republished : ∃ r,
    republished = [r] ∧ Requirer.getProviderInfo [otherSide "oidc-gatekeeper" r] =
      .ok (some ⟨"http://gate:8080", [], ["kubeflow-userid"]⟩) := by
  have hreadable : Readable "http://gate:8080" := ⟨by decide, loads_http "gate:8080"⟩
  obtain ⟨r, hr, hid, hours⟩ : ∃ r, republished = [r] ∧ r.id = 7 ∧
      r.ours = dumpData ⟨"http://gate:8080", [], ["kubeflow-userid"]⟩ ∪
        dumpData ⟨"http://old:1", ["board"], []⟩ := ⟨_, rfl, rfl, rfl⟩
  have hmem : r ∈ republished := hr ▸ List.mem_singleton_self r
  have hlong : NoLongInteger r.ours := by
    rw [hours]
    exact (dumpData_union _ (some _)).symm ▸ noLongInteger_dumpData hreadable
  exact ⟨r, hr, (a_config_is_read_as_written_iff_its_address_is_readable "oidc-gatekeeper"
    ⟨"http://gate:8080", [], ["kubeflow-userid"]⟩ 7 _ r hmem hid).1.mpr ⟨hreadable, hlong⟩⟩

end written

/-! ## The protocol -/

/-- What happens on the forward-auth relations of one provider. A hook runs on a unit
that leads or on one that does not. -/
inductive ProtocolStep
  | related (id : Nat) (app : String)
  | unrelated (id : Nat)
  | published (isLeader : Bool) (config : ForwardAuthConfig) (id : Nat)
  | wiped (isLeader : Bool) (id : Nat)
  | announced (isLeader : Bool) (config : ForwardAuthRequirerConfig) (id : Nat)

/-- `_pop_relation_data`. -/
def popRelationData (relationId : Nat) (rels : List (Relation Databag)) : List (Relation Databag) :=
  Relation.written (fun r => if r.id = relationId then ∅ else r.ours) rels

def protocolStep (rels : List (Relation Databag)) : ProtocolStep → List (Relation Databag)
  | .related id app => Relation.added ∅ id app rels
  | .unrelated id => Relation.removed id rels
  | .published isLeader config id => if isLeader then updateRelationData config id rels else rels
  | .wiped isLeader id => if isLeader then popRelationData id rels else rels
  | .announced isLeader config id =>
    if isLeader then Requirer.updateRequirerRelationData config id rels else rels

/-- What the two sides of a relation told each other last. -/
structure Told where
  id : Nat
  app : String
  config : Option ForwardAuthConfig
  names : Option ForwardAuthRequirerConfig
  deriving DecidableEq

/-- The machine that only remembers what was told last. -/
def toldStep (told : List Told) : ProtocolStep → List Told
  | .related id app => told ++ [⟨id, app, none, none⟩]
  | .unrelated id => told.filter (·.id ≠ id)
  | .published isLeader config id =>
    told.map fun t => if isLeader ∧ t.id = id then { t with config := some config } else t
  | .wiped isLeader id =>
    told.map fun t => if isLeader ∧ t.id = id then { t with config := none } else t
  | .announced isLeader config id =>
    told.map fun t => if isLeader ∧ t.id = id then { t with names := some config } else t

/-- The relation with the databags of what was told. -/
def Told.wire (t : Told) : Relation Databag where
  id := t.id
  app := t.app
  remote := (t.names.map dumpRequirerData).getD ∅
  ours := (t.config.map dumpData).getD ∅

theorem dumpRequirerData_union (config : ForwardAuthRequirerConfig)
    (told : Option ForwardAuthRequirerConfig) :
    dumpRequirerData config ∪ (told.map dumpRequirerData).getD ∅ = dumpRequirerData config := by
  apply dicts.union_eq_left
  intro k hk
  cases told with
  | none => exact absurd hk Finmap.notMem_empty
  | some other => simpa [dumpRequirerData] using hk

theorem step_wire (told : List Told) (st : ProtocolStep) :
    protocolStep (told.map Told.wire) st = (toldStep told st).map Told.wire := by
  cases st with
  | related id app => simp [protocolStep, toldStep, Relation.added, Told.wire]
  | unrelated id =>
    change List.filter _ (told.map Told.wire) = _
    rw [List.filter_map]
    rfl
  | published isLeader config id =>
    cases isLeader with
    | false => simp [protocolStep, toldStep]
    | true =>
      simp only [protocolStep, toldStep, updateRelationData, Relation.written, if_true, true_and,
        List.map_map]
      apply List.map_congr_left
      intro t _
      by_cases ht : t.id = id <;> simp [Told.wire, ht, dumpData_union]
  | wiped isLeader id =>
    cases isLeader with
    | false => simp [protocolStep, toldStep]
    | true =>
      simp only [protocolStep, toldStep, popRelationData, Relation.written, if_true, true_and,
        List.map_map]
      apply List.map_congr_left
      intro t _
      by_cases ht : t.id = id <;> simp [Told.wire, ht]
  | announced isLeader config id =>
    cases isLeader with
    | false => simp [protocolStep, toldStep]
    | true =>
      simp only [protocolStep, toldStep, Requirer.updateRequirerRelationData, if_true, true_and,
        List.map_map]
      apply List.map_congr_left
      intro t _
      by_cases ht : t.id = id <;> simp [Told.wire, ht, dumpRequirerData_union]

/-! ## What the two sides read -/

/-- The outcome of `_compare_apps`, by the names and not by their text: an app is taken as
related when its name is a part of a name that the gateway announced. -/
def compareNames (names : List String) : List String → List ProviderEvent
  | [] => []
  | app :: apps =>
    if ∃ name ∈ names, app.toList <:+: name.toList then
      .forwardAuthProxySet :: compareNames names apps
    else [.invalidForwardAuthConfig (app ++ " is not related via ingress")]

def Told.compared (t : Told) : Except oidc_gatekeeper.Exc (List ProviderEvent) :=
  match t.names, t.config with
  | none, _ => .ok []
  | some _, none => .error (.keyError "app_names")
  | some names, some config => .ok (compareNames names.ingressAppNames config.appNames)

/-- The outcome of `_compare_apps` by what was told. With two relations it raises. -/
def compareTold : List Told → Except oidc_gatekeeper.Exc (List ProviderEvent)
  | [] => .ok []
  | [t] => t.compared
  | _ => .error .typeError

/-- Each function of the gateway answers by what was told last. -/
structure Agrees (provider : String) (r : Relation Databag) (t : Told) : Prop where
  getProviderInfo : Requirer.getProviderInfo [otherSide provider r] =
    .ok (t.config.map ForwardAuthConfig.asRead)
  isReady : Requirer.isReady [otherSide provider r] = .ok (some t.config.isSome)
  isProtectedApp : ∀ app, Requirer.isProtectedApp app [otherSide provider r] =
    .ok (t.config.any fun config => app ∈ config.appNames)
  onRelationChangedEvent : Requirer.onRelationChangedEvent true (otherSide provider r) =
    .ok (t.config.toList.map fun config => .authConfigChanged config.decisionsAddress
      config.asRead.appNames (some config.asRead.headers) t.id provider)

/-- Addresses and names that go through the databags as they are. -/
structure Told.Proper (t : Told) : Prop where
  readable : ∀ config ∈ t.config, Readable config.decisionsAddress
  appNames : ∀ config ∈ t.config, ∀ app ∈ config.appNames, json_strings.Plain app
  names : ∀ config ∈ t.names, ∀ name ∈ config.ingressAppNames, json_strings.Plain name

theorem compareLoop_dumps {names apps : List String} (hn : ∀ name ∈ names, json_strings.Plain name)
    (ha : ∀ app ∈ apps, json_strings.Plain app) :
    compareLoop (json_strings.dumps names) (apps.map fun s => .str (.text s)) =
      .ok (compareNames names apps) := by
  induction apps with
  | nil => rfl
  | cons app apps ih =>
    have happ := (ha app List.mem_cons_self).infix_dumps hn
    rw [List.map_cons, compareLoop, compareNames, ih fun a h => ha a (List.mem_cons_of_mem _ h)]
    by_cases hpart : ∃ name ∈ names, app.toList <:+: name.toList
    · have htrue : isPartOf app (json_strings.dumps names) = true :=
        decide_eq_true (happ.mpr hpart)
      rw [if_pos hpart, if_pos htrue]
      rfl
    · have hfalse : ¬ isPartOf app (json_strings.dumps names) = true :=
        fun htrue => hpart (happ.mp (of_decide_eq_true htrue))
      rw [if_neg hpart, if_neg hfalse, Str.append_text]
      rfl

section read

variable {r : Relation Databag} {config : Option ForwardAuthConfig}

theorem readConfig_of_readable {config : ForwardAuthConfig}
    (h : Readable config.decisionsAddress) :
    Requirer.readConfig (dumpData config) = .ok config.asRead := by
  have hholds := holds_only_dumpData config
  have hlong := noLongInteger_dumpData h
  rw [hholds.readConfig, if_pos hlong, (hholds.address_iff hlong).mpr h]
  rfl

theorem getProviderInfo_told (h : ∀ c ∈ config, Readable c.decisionsAddress)
    (hr : r.remote = (config.map dumpData).getD ∅) :
    Requirer.getProviderInfo [r] = .ok (config.map ForwardAuthConfig.asRead) := by
  cases config with
  | none =>
    simp only [Option.map_none, Option.getD_none] at hr
    unfold Requirer.getProviderInfo Requirer.relationOf getRelation
    simp only [bind, Except.bind, hr, if_true]
    rfl
  | some config =>
    simp only [Option.map_some, Option.getD_some] at hr
    rw [Holds.getProviderInfo (hr ▸ holds_only_dumpData config), hr,
      readConfig_of_readable (h config rfl)]
    rfl

theorem isReady_told (h : ∀ c ∈ config, Readable c.decisionsAddress)
    (hr : r.remote = (config.map dumpData).getD ∅) :
    Requirer.isReady [r] = .ok (some config.isSome) := by
  unfold Requirer.isReady Requirer.relationOf getRelation
  cases config with
  | none =>
    simp only [Option.map_none, Option.getD_none] at hr
    simp [bind, Except.bind, pure, Except.pure, hr, shown]
  | some config =>
    simp only [Option.map_some, Option.getD_some] at hr
    obtain ⟨haddress, hnames, -⟩ := holds_only_dumpData config
    have hshown : shown (dumpData config) "decisions_address" = some config.decisionsAddress := by
      simp [shown, haddress, (h config rfl).1]
    have happs : shown (dumpData config) "app_names" =
        some (json_strings.dumps config.appNames) := by
      rw [shown, hnames, shown_names]
    simp [hr, hshown, happs, bind, Except.bind, pure, Except.pure]

theorem mem_asRead (config : ForwardAuthConfig) (app : String) :
    Str.text app ∈ config.asRead.appNames ↔ app ∈ config.appNames := by
  simp [ForwardAuthConfig.asRead]

theorem isProtectedApp_told (h : ∀ c ∈ config, Readable c.decisionsAddress)
    (hr : r.remote = (config.map dumpData).getD ∅) (app : String) :
    Requirer.isProtectedApp app [r] = .ok (config.any fun c => app ∈ c.appNames) := by
  unfold Requirer.isProtectedApp
  rw [isReady_told h hr]
  cases config with
  | none => rfl
  | some config =>
    simp only [bind, Except.bind, Option.isSome_some, if_true, getProviderInfo_told h hr,
      Option.map_some, mem_asRead]
    rfl

theorem onRelationChangedEvent_told (h : ∀ c ∈ config, Readable c.decisionsAddress)
    (hr : r.remote = (config.map dumpData).getD ∅) :
    Requirer.onRelationChangedEvent true r =
      .ok (config.toList.map fun c => .authConfigChanged c.decisionsAddress c.asRead.appNames
        (some c.asRead.headers) r.id r.app) := by
  unfold Requirer.onRelationChangedEvent
  cases config with
  | none =>
    simp only [Option.map_none, Option.getD_none] at hr
    simp [hr]
  | some config =>
    simp only [Option.map_some, Option.getD_some] at hr
    have hholds := holds_only_dumpData config
    simp only [hr, Bool.not_true, Bool.false_eq_true, if_false, hholds.ne_empty,
      readConfig_of_readable (h config rfl), hholds.headers, Option.bind_some, strsOf_strings]
    rfl

end read

/-- Where the words are proper, a gateway reads what the provider told it last. -/
theorem agrees_wire (provider : String) {t : Told} (h : t.Proper) : Agrees provider t.wire t where
  getProviderInfo := getProviderInfo_told h.readable rfl
  isReady := isReady_told h.readable rfl
  isProtectedApp := isProtectedApp_told h.readable rfl
  onRelationChangedEvent := onRelationChangedEvent_told h.readable rfl

theorem compareApps_wire {t : Told} (h : t.Proper) : compareApps [t.wire] = t.compared := by
  cases hn : t.names with
  | none =>
    have hempty : t.wire.remote = ∅ := by simp [Told.wire, hn]
    simp [compareApps, relationOf, getRelation, Told.compared, hn, hempty, bind, Except.bind, pure,
      Except.pure]
  | some names =>
    have hlook : t.wire.remote.lookup "ingress_app_names" =
        some (json_strings.dumps names.ingressAppNames) := by
      simp [Told.wire, hn, dumpRequirerData]
    cases hc : t.config with
    | none =>
      have hne : t.wire.remote ≠ ∅ := by
        intro he
        rw [he] at hlook
        cases hlook
      have hours : t.wire.ours = ∅ := by simp [Told.wire, hc]
      simp [compareApps, relationOf, getRelation, Told.compared, hn, hc, hne, hlook, hours, bind,
        Except.bind, throw, throwThe, MonadExceptOf.throw]
    | some config =>
      have hours : t.wire.ours.lookup "app_names" =
          some (json_strings.dumps config.appNames) := by
        simp [Told.wire, hc, (holds_only_dumpData config).2.1]
      rw [compareApps_of_lookup hlook hours,
        compareLoop_dumps (h.names names hn) (h.appNames config hc)]
      simp [Told.compared, hn, hc]

/-- And the provider judges by what the gateway told it last. -/
theorem compareApps_wires {told : List Told} (h : ∀ t ∈ told, t.Proper) :
    compareApps (told.map Told.wire) = compareTold told := by
  rcases told with _ | ⟨t, _ | ⟨t', told⟩⟩
  · rfl
  · exact compareApps_wire (h t List.mem_cons_self)
  · rfl

/-- What is told over the protocol is proper. -/
def ProtocolStep.Proper : ProtocolStep → Prop
  | .published _ config _ => Readable config.decisionsAddress ∧
    ∀ app ∈ config.appNames, json_strings.Plain app
  | .announced _ config _ => ∀ name ∈ config.ingressAppNames, json_strings.Plain name
  | _ => True

theorem proper_step {told : List Told} (h : ∀ t ∈ told, t.Proper) {st : ProtocolStep}
    (hst : st.Proper) : ∀ t ∈ toldStep told st, t.Proper := by
  intro t ht
  cases st with
  | related id app =>
    rcases List.mem_append.mp ht with ht | ht
    · exact h t ht
    · rw [List.mem_singleton.mp ht]
      exact ⟨by simp, by simp, by simp⟩
  | unrelated id => exact h t (List.mem_filter.mp ht).1
  | published isLeader config id =>
    obtain ⟨t', ht', rfl⟩ := List.mem_map.mp ht
    have hp := h t' ht'
    split
    · exact ⟨by simpa using hst.1, by simpa using hst.2, hp.names⟩
    · exact hp
  | wiped isLeader id =>
    obtain ⟨t', ht', rfl⟩ := List.mem_map.mp ht
    have hp := h t' ht'
    split
    · exact ⟨by simp, by simp, hp.names⟩
    · exact hp
  | announced isLeader config id =>
    obtain ⟨t', ht', rfl⟩ := List.mem_map.mp ht
    have hp := h t' ht'
    split
    · refine ⟨hp.readable, hp.appNames, ?_⟩
      rintro _ ⟨⟩
      exact hst
    · exact hp

/-- Over every run of the protocol, with units that lead and units that do not, each
function of the library answers by what the other side told last: the gateway reads the
config that was published last and not wiped since, and protects the apps that it names;
the provider judges them by the names that its one gateway announced last, and raises
when it has two gateways. -/
theorem each_side_reads_what_the_other_told_last (provider : String) {steps : List ProtocolStep}
    (h : ∀ st ∈ steps, st.Proper) :
    List.Forall₂ (Agrees provider) (runs.run protocolStep [] steps)
        (runs.run toldStep [] steps) ∧
      compareApps (runs.run protocolStep [] steps) =
        compareTold (runs.run toldStep [] steps) := by
  have hwire : runs.run protocolStep [] steps = (runs.run toldStep [] steps).map Told.wire :=
    runs.refines (R := fun rels (told : List Told) => rels = told.map Told.wire)
      (fun rels told st hr => hr ▸ step_wire told st) (t := []) rfl steps
  have hmeets : runs.Meets (fun _ => ProtocolStep.Proper) toldStep [] steps :=
    runs.meets_of_forall h
  have hproper : ∀ t ∈ runs.run toldStep [] steps, t.Proper :=
    runs.run_keeps_of_meets (I := fun told => ∀ t ∈ told, t.Proper)
      (fun _ _ ht hst => proper_step ht hst) (by simp) hmeets
  rw [hwire, List.forall₂_map_left_iff]
  exact ⟨List.forall₂_same.mpr fun t ht => agrees_wire provider (hproper t ht),
    compareApps_wires hproper⟩

/-- A gateway that is related to the dashboard, and a provider that protects `board`. -/
def boardSteps : List ProtocolStep :=
  [.related 7 "istio-ingress", .announced true (.init ["argo", "dashboard", "argo"]) 7,
    .published false ⟨"http://old:1", [], []⟩ 7,
    .published true ⟨"http://gate:8080", ["board"], ["kubeflow-userid"]⟩ 7, .wiped false 7]

/-- The name of the app that is protected is only a part of a name that was announced. -/
theorem each_side_reads_what_the_other_told_last_board : ∃ r,
    runs.run protocolStep [] boardSteps = [r] ∧ compareApps [r] = .ok [.forwardAuthProxySet] ∧
    Requirer.isProtectedApp "board" [otherSide "oidc-gatekeeper" r] = .ok true ∧
    Requirer.isProtectedApp "dashboard" [otherSide "oidc-gatekeeper" r] = .ok false := by
  have hproper : ∀ st ∈ boardSteps, st.Proper := by
    simp only [boardSteps, List.mem_cons, List.not_mem_nil, or_false]
    rintro st (rfl | rfl | rfl | rfl | rfl)
    · trivial
    · have hnames : fromkeys ["argo", "dashboard", "argo"] = ["argo", "dashboard"] := by decide
      change ∀ name ∈ fromkeys ["argo", "dashboard", "argo"], json_strings.Plain name
      rw [hnames]
      exact List.forall_mem_cons.mpr ⟨by decide, List.forall_mem_singleton.mpr (by decide)⟩
    · exact ⟨⟨by decide, loads_http "old:1"⟩, by simp⟩
    · exact ⟨⟨by decide, loads_http "gate:8080"⟩, List.forall_mem_singleton.mpr (by decide)⟩
    · trivial
  obtain ⟨hagrees, hcompare⟩ :=
    each_side_reads_what_the_other_told_last "oidc-gatekeeper" hproper
  have htold : runs.run toldStep [] boardSteps = [⟨7, "istio-ingress",
      some ⟨"http://gate:8080", ["board"], ["kubeflow-userid"]⟩,
      some (.init ["argo", "dashboard", "argo"])⟩] := by decide
  rw [htold] at hagrees hcompare
  obtain ⟨r, rs, hr, hnil, hrun⟩ := List.forall₂_cons_right_iff.mp hagrees
  rw [List.forall₂_nil_right_iff.mp hnil] at hrun
  rw [hrun] at hcompare
  exact ⟨r, hrun, hcompare.trans (by decide), (hr.isProtectedApp "board").trans (by decide),
    (hr.isProtectedApp "dashboard").trans (by decide)⟩

end oidc_gatekeeper.forward_auth
