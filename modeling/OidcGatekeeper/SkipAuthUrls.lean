-- The law of `skip-auth-urls`: which paths need no authentication, once the
-- workload has cut the rendered list at its commas.
import OidcGatekeeper.Application
import OidcGatekeeper.Separators

open handlers separators

namespace oidc_gatekeeper.skip_auth_urls

/-! ## What the workload reads -/

/-- `SKIP_AUTH_URLS`, cut at each comma. -/
def entries (list : String) : List (List Char) := list.toList.splitOn ','

/-- Some entry is a prefix of the path. -/
def Exempt (list path : String) : Prop := ∃ e ∈ entries list, e <+: path.toList

/-- What the option says: the Dex path, and each path that it lists. -/
def Listed (option path : String) : Prop :=
  "/dex/".toList <+: path.toList ∨ ∃ e ∈ entries option, e ≠ [] ∧ e <+: path.toList

instance (list path : String) : Decidable (Exempt list path) :=
  inferInstanceAs (Decidable (∃ e ∈ entries list, e <+: path.toList))

instance (option path : String) : Decidable (Listed option path) :=
  inferInstanceAs (Decidable (_ ∨ ∃ e ∈ entries option, e ≠ [] ∧ e <+: path.toList))

/-- The rendered list exempts the listed paths and no others. -/
structure RendersOption (option list : String) : Prop where
  exempt_iff : ∀ path, Exempt list path ↔ Listed option path
  no_empty_entry : [] ∉ entries list
  dex : "/dex/".toList ∈ entries list

/-! ## What the charm renders -/

theorem entries_dexSkipUrls_empty : entries (dexSkipUrls "") = ["/dex/".toList] := by decide

theorem entries_dexSkipUrls {option : String} (h : option ≠ "") :
    entries (dexSkipUrls option) = "/dex/".toList :: entries option := by
  unfold entries dexSkipUrls
  rw [if_neg h, String.toList_append]
  exact splitOn_append ',' (l := "/dex/".toList) (by decide) option.toList

theorem dex_mem_entries (option : String) : "/dex/".toList ∈ entries (dexSkipUrls option) := by
  by_cases h : option = ""
  · subst h
    rw [entries_dexSkipUrls_empty]
    exact List.mem_singleton_self _
  · rw [entries_dexSkipUrls h]
    exact List.mem_cons_self

/-- An empty entry comes from the commas of the option, never from the charm. -/
theorem nil_mem_entries (option : String) :
    [] ∈ entries (dexSkipUrls option) ↔ option ≠ "" ∧ ¬ Tight ',' option.toList := by
  by_cases h : option = ""
  · subst h
    rw [entries_dexSkipUrls_empty]
    simp
  · have hl : option.toList ≠ [] := fun hn => h (String.toList_eq_nil_iff.mp hn)
    rw [entries_dexSkipUrls h, List.mem_cons, entries, nil_mem_splitOn]
    simp [h, hl]

theorem exempt_dexSkipUrls {option : String} (h : [] ∉ entries (dexSkipUrls option))
    (path : String) : Exempt (dexSkipUrls option) path ↔ Listed option path := by
  unfold Exempt Listed
  by_cases ho : option = ""
  · subst ho
    rw [entries_dexSkipUrls_empty]
    constructor
    · rintro ⟨e, he, hp⟩
      rw [List.mem_singleton] at he
      exact .inl (he ▸ hp)
    · rintro (hp | ⟨e, he, hne, -⟩)
      · exact ⟨_, List.mem_singleton_self _, hp⟩
      · rw [show entries "" = [[]] from rfl, List.mem_singleton] at he
        exact absurd he hne
  · rw [entries_dexSkipUrls ho] at h ⊢
    rw [List.mem_cons, not_or] at h
    constructor
    · rintro ⟨e, he, hp⟩
      rcases List.mem_cons.mp he with rfl | he
      · exact .inl hp
      · exact .inr ⟨e, he, fun hn => h.2 (hn ▸ he), hp⟩
    · rintro (hp | ⟨e, he, -, hp⟩)
      · exact ⟨_, List.mem_cons_self, hp⟩
      · exact ⟨e, List.mem_cons_of_mem _ he, hp⟩

theorem renders_iff (option : String) : RendersOption option (dexSkipUrls option) ↔
    option = "" ∨ Tight ',' option.toList := by
  have hiff : [] ∉ entries (dexSkipUrls option) ↔ option = "" ∨ Tight ',' option.toList := by
    rw [nil_mem_entries]
    tauto
  rw [← hiff]
  exact ⟨fun h => h.no_empty_entry, fun h => ⟨exempt_dexSkipUrls h, h, dex_mem_entries option⟩⟩

/-! ## The law -/

/-- The environment exempts what the option lists exactly when the option has no comma at
an end and no two commas in a row. -/
theorem skip_auth_urls_exempt_what_is_listed {s s' : HookState} {env : Environment}
    (h : serviceEnvironment.run s = .ok env s') :
    ∃ list, env.lookup "SKIP_AUTH_URLS" = some (.str list) ∧
      (RendersOption s.model.config.skipAuthUrls list ↔
        s.model.config.skipAuthUrls = "" ∨ Tight ',' s.model.config.skipAuthUrls.toList) := by
  obtain ⟨secret, d, bundle, -, rfl⟩ := serviceEnvironment_ok h
  obtain ⟨-, -, -, -, -, hl, -⟩ :=
    environmentOf_lookup s.model.config secret d.issuerUrl bundle
  exact ⟨_, hl, renders_iff _⟩

/-- The sample deployment with this `skip-auth-urls`, at the start of a hook. -/
def sampleHook (option : String) : HookState where
  model := { sample.model with config := { Config.default with skipAuthUrls := option } }
  unit := sample.freshUnit
  tape := sample.tapeA

theorem skip_auth_urls_sample : ∃ env s',
    serviceEnvironment.run (sampleHook "/path1/,/path2/") = .ok env s' ∧
    ∃ list, env.lookup "SKIP_AUTH_URLS" = some (.str list) ∧
      (RendersOption "/path1/,/path2/" list ↔
        "/path1/,/path2/" = "" ∨ Tight ',' "/path1/,/path2/".toList) :=
  ⟨_, _, rfl, skip_auth_urls_exempt_what_is_listed (s := sampleHook "/path1/,/path2/") rfl⟩

/-- A comma at the end of the option exempts every path, here `/admin`. -/
theorem trailing_comma_exempts_every_path : ∃ env s' list,
    serviceEnvironment.run (sampleHook "/path1/,") = .ok env s' ∧
    env.lookup "SKIP_AUTH_URLS" = some (.str list) ∧
    Exempt list "/admin" ∧ ¬ Listed "/path1/," "/admin" ∧ ¬ RendersOption "/path1/," list := by
  refine ⟨_, _, "/dex/,/path1/,", rfl, by decide +kernel, by decide, by decide, fun h => ?_⟩
  exact h.no_empty_entry (by decide)

end oidc_gatekeeper.skip_auth_urls
