import MethodMarkers.Proofs.TableLayer

namespace MethodMarkers
open Toml (Value Table)

namespace Setting

def name : Setting → String
  | beginSample => "begin_marker"
  | endSample => "end_marker"
  | indentUnit => "indent_unit"
  | iteratorMarkers => "iterator_markers"
  | extensions => "extensions"
  | includePatterns => "include_patterns"
  | excludePatterns => "exclude_patterns"
  | encoding => "encoding"

/-- The values that an override may give: a list where the setting is one, and texts for suffixes.
-/
structure Accepts (setting : Setting) (value : Value) : Prop where
  listed : setting.isList = true → value ≠ .missing → ∃ items, value = .list items
  texts : setting = extensions → value ≠ .missing → ∃ texts, value = .ofTexts texts

theorem accepts_of_single {setting : Setting} (h : setting.isList = false) (value : Value) :
    setting.Accepts value where
  listed hl := by
    rw [h] at hl
    cases hl
  texts he := by
    rw [he] at h
    cases h

theorem name_mem_settingNames (setting : Setting) : setting.name ∈ Draft.settingNames := by
  cases setting <;> decide

abbrev Override := Setting × Value

def inOverride (setting : Setting) (override : Override) : Value :=
  if override.1 = setting then setting.adopt override.2 else .missing

end Setting

open Setting (Override)

def overrideTable (overrides : List Override) : Table :=
  overrides.map fun override => (override.1.name, override.2)

theorem find?_overrideTable {p : String × Value → Bool} (overrides : List Override)
    (h : ∀ setting : Setting, ∀ value, p (setting.name, value) = false) :
    (overrideTable overrides).find? p = none := by
  rw [List.find?_eq_none]
  intro entry hm
  obtain ⟨override, -, rfl⟩ := List.mem_map.1 hm
  rw [h]
  exact Bool.false_ne_true

theorem lookup_overrideTable {name : String} (overrides : List Override)
    (h : ∀ setting : Setting, setting.name ≠ name) :
    (overrideTable overrides).lookup name = none := by
  induction overrides with
  | nil => rfl
  | cons override overrides ih =>
    rw [overrideTable, List.map_cons, List.lookup_cons, beq_false_of_ne (h override.1).symm]
    exact ih

namespace Draft

variable {draft : Draft} {setting : Setting} {value : Value} {overrides : List Override}

def only (value : Value) : Setting → Draft
  | .beginSample => { beginSample := value }
  | .endSample => { endSample := value }
  | .indentUnit => { indentUnit := value }
  | .iteratorMarkers => { iteratorMarkers := value }
  | .extensions => { extensions := value }
  | .includePatterns => { includePatterns := value }
  | .excludePatterns => { excludePatterns := value }
  | .encoding => { encoding := value }

theorem only_value (setting other : Setting) (value : Value) :
    (only value setting).value other = if setting = other then value else .missing := by
  cases setting <;> cases other <;> rfl

@[simp] theorem only_sources (setting : Setting) (value : Value) :
    (only value setting).sources = [] := by
  cases setting <;> rfl

@[simp] theorem only_strays (setting : Setting) (value : Value) :
    (only value setting).strays = [] := by
  cases setting <;> rfl

def ofOverride (override : Override) : Draft :=
  only (override.1.adopt override.2) override.1

theorem ofOverride_value (override : Override) (setting : Setting) :
    (ofOverride override).value setting = setting.inOverride override := by
  rw [ofOverride, only_value, Setting.inOverride]
  split
  · next h => rw [h]
  · rfl

theorem ofOverride_sound {override : Override} (h : override.1.Accepts override.2) :
    (ofOverride override).Sound where
  strays_eq := only_strays ..
  listed other hs hm := by
    rw [ofOverride, only_value] at hm ⊢
    split at hm
    · next he =>
      rw [if_pos he]
      by_cases hv : override.2 = .missing
      · rw [hv, Setting.adopt_missing] at hm
        exact absurd rfl hm
      by_cases hx : override.1 = .extensions
      · obtain ⟨texts, ht⟩ := h.texts hx hv
        exact ⟨_, by rw [ht, hx, Setting.adopt_extensions]; rfl⟩
      · rw [Setting.adopt_of_ne hx]
        exact h.listed (he ▸ hs) hv
    · exact absurd rfl hm

theorem ofOverride_missing (setting : Setting) : ofOverride (setting, .missing) = {} := by
  cases setting <;> rfl

theorem textsWith_map_text (part : String) (texts : List String) :
    Value.textsWith part (texts.map .text) = .ok texts := by
  induction texts with
  | nil => rfl
  | cons s texts ih =>
    unfold Value.textsWith at ih ⊢
    rw [List.map_cons, List.mapM_cons, ih]
    rfl

theorem merge_only_value (draft : Draft) (setting other : Setting) (value : Value)
    (hv : value ≠ .missing) : (draft.merge (only value setting)).value other =
      if setting = other then value else draft.value other := by
  rw [merge_value, only_value]
  split
  · exact Value.over_of_ne _ hv
  · exact Value.missing_over _

theorem eq_merge_only {after : Draft} (hv : value ≠ .missing)
    (h : ∀ other, after.value other = if setting = other then value else draft.value other)
    (hs : after.sources = draft.sources) (ht : after.strays = draft.strays) :
    after = draft.merge (only value setting) := by
  apply ext_value
  · intro other
    rw [h, merge_only_value draft setting other value hv]
  · rw [hs, merge_sources, only_sources, List.append_nil]
  · rw [ht, merge_strays, only_strays, List.nil_append]

theorem set_name (hv : value ≠ .missing) (ha : setting.Accepts value) :
    draft.set setting.name value = .ok (draft.merge (ofOverride (setting, value))) := by
  cases setting with
  | extensions =>
    obtain ⟨texts, rfl⟩ := ha.texts rfl hv
    have hset : draft.set Setting.extensions.name (.ofTexts texts) =
        .ok { draft with extensions := .ofTexts (texts.map normalizeExtension) } := by
      simp only [set, Setting.name, Value.items, Value.ofTexts, textsWith_map_text, bind,
        Except.bind, pure, Except.pure]
    rw [hset, ofOverride, Setting.adopt_extensions]
    refine congrArg Except.ok (eq_merge_only nofun (fun other => ?_) rfl rfl)
    cases other <;> rfl
  | beginSample | endSample | indentUnit | iteratorMarkers | includePatterns | excludePatterns
  | encoding =>
    refine congrArg Except.ok (eq_merge_only hv (fun other => ?_) rfl rfl)
    cases other <;> rfl

/-- Overrides are layers on top of all others. -/
theorem setAll_overrideTable (draft : Draft)
    (h : ∀ override ∈ overrides, override.1.Accepts override.2) :
    setAll draft (overrideTable overrides) =
      ((overrides.map ofOverride).foldl merge draft, .ok ()) := by
  induction overrides generalizing draft with
  | nil => rfl
  | cons override overrides ih =>
    rw [List.forall_mem_cons] at h
    have hname : (settingNames ++ spareNames).contains override.1.name = true :=
      List.contains_iff_mem.2 (List.mem_append_left _ override.1.name_mem_settingNames)
    rw [List.map_cons, List.foldl_cons, ← ih (draft.merge (ofOverride override)) h.2]
    rw [overrideTable, List.map_cons, setAll, hname]
    simp only [Bool.not_true, Bool.false_eq_true, if_false]
    split
    · next hm =>
      obtain ⟨setting, value⟩ := override
      cases Value.isMissing_iff.1 hm
      rw [ofOverride_missing, merge_empty]
      rfl
    · next hm =>
      rw [set_name (mt Value.isMissing_iff.2 hm) h.1]
      rfl

theorem freezeWith_overrideTable (hd : draft.strays = [])
    (h : ∀ override ∈ overrides, override.1.Accepts override.2) :
    draft.freezeWith (overrideTable overrides) =
      ((overrides.map ofOverride).foldl merge draft).freeze.mapError .misuse := by
  have hself : (overrideTable overrides).lookup "self" = none :=
    lookup_overrideTable overrides fun setting => by cases setting <;> decide
  have happlied : draft.applyOverrides (overrideTable overrides) =
      ((overrides.map ofOverride).foldl merge draft, .ok ()) := by
    rw [applyOverrides, allow, hd, hself]
    exact setAll_overrideTable draft h
  rw [freezeWith, happlied]
  rfl

end Draft

end MethodMarkers
