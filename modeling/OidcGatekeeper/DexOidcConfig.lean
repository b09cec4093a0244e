-- The requirer side of the dex-oidc-config library: what `get_data` returns for
-- each set of relations, and what it raises.
import OidcGatekeeper.Hook

namespace oidc_gatekeeper

/-- `model.get_relation(name)` of ops, with no relation id. -/
def getRelation {α : Type} (name : String) : List (Relation α) → Except Exc (Option (Relation α))
  | [] => .ok none
  | [r] => .ok (some r)
  | rels => .error (.tooManyRelatedApps name rels.length)

namespace dex_oidc_config

structure DexOidcConfigObject where
  issuerUrl : String
  deriving DecidableEq

def validateRelation : Option (Relation Unit) → Except Exc Unit
  | none => .error (.dexOidcConfigRelationMissing "Missing relation with a Dex OIDC config provider.")
  | some relation =>
    if relation.remote = ∅ then
      .error (.dexOidcConfigRelationDataMissing
        "No data found in relation dex-oidc-config data bag.")
    else .ok ()

/-- `get_data`. After the validation there is a relation, so the last case never happens. -/
def getData (rels : List (Relation Unit)) : Except Exc DexOidcConfigObject := do
  let relation ← getRelation "dex-oidc-config" rels
  validateRelation relation
  match relation with
  | some relation =>
    match relation.remote.lookup "issuer-url" with
    | some url => return ⟨url⟩
    | none => throw (.keyError "issuer-url")
  | none => throw (.keyError "issuer-url")

/-! ## The four situations of the relation -/

theorem getData_none : getData [] =
    .error (.dexOidcConfigRelationMissing "Missing relation with a Dex OIDC config provider.") :=
  rfl

theorem getData_one (r : Relation Unit) : getData [r] =
    if r.remote = ∅ then
      .error (.dexOidcConfigRelationDataMissing
        "No data found in relation dex-oidc-config data bag.")
    else match r.remote.lookup "issuer-url" with
      | some url => .ok ⟨url⟩
      | none => .error (.keyError "issuer-url") := by
  by_cases h : r.remote = ∅
  · simp [getData, getRelation, validateRelation, h, bind, Except.bind]
  · simp only [getData, getRelation, validateRelation, h, if_false, bind, Except.bind]
    rfl

theorem getData_many (r r' : Relation Unit) (rels : List (Relation Unit)) :
    getData (r :: r' :: rels) =
      .error (.tooManyRelatedApps "dex-oidc-config" (rels.length + 2)) := rfl

/-- `get_data` returns for exactly one relation, with an issuer URL in its databag. -/
theorem getData_ok_iff (rels : List (Relation Unit)) (d : DexOidcConfigObject) :
    getData rels = .ok d ↔ ∃ r, rels = [r] ∧ r.remote.lookup "issuer-url" = some d.issuerUrl := by
  match rels with
  | [] => simp [getData_none]
  | r :: r' :: rels => simp [getData_many]
  | [r] =>
    rw [getData_one]
    split
    · rename_i h
      simp [h]
    · cases hl : r.remote.lookup "issuer-url" with
      | none => simp [hl]
      | some url => obtain ⟨u⟩ := d; simp [hl]

/-- The library raises its own errors, and those of ops and of Python. -/
theorem getData_raises_no_status (rels : List (Relation Unit)) (status : UnitStatus) :
    getData rels ≠ .error (.errorWithStatus status) := by
  match rels with
  | [] => simp [getData_none]
  | r :: r' :: rels => simp [getData_many]
  | [r] =>
    rw [getData_one]
    split
    · simp
    · split <;> simp

end dex_oidc_config

end oidc_gatekeeper
