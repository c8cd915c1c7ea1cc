import MethodMarkers.Proofs.SettingLayers
import MethodMarkers.Proofs.TreeWriting

namespace MethodMarkers

namespace Toml.Value

theorem mapM_text?_map (texts : List String) : (texts.map text).mapM text? = some texts := by
  induction texts with
  | nil => rfl
  | cons s texts ih =>
    rw [List.map_cons, List.mapM_cons, ih]
    rfl

theorem eq_map_of_mapM_text? {items : List Value} {texts : List String}
    (h : items.mapM text? = some texts) : items = texts.map text := by
  induction items generalizing texts with
  | nil =>
    cases h
    rfl
  | cons item items ih =>
    rw [List.mapM_cons] at h
    obtain ⟨s, hs, h⟩ := Option.bind_eq_some_iff.1 h
    obtain ⟨rest, hr, h⟩ := Option.bind_eq_some_iff.1 h
    cases h
    rw [List.map_cons, ← ih hr]
    cases item <;> cases hs
    rfl

@[simp] theorem texts?_ofTexts (texts : List String) : (ofTexts texts).texts? = some texts :=
  mapM_text?_map texts

theorem texts?_eq_some_iff {value : Value} {texts : List String} :
    value.texts? = some texts ↔ value = ofTexts texts := by
  constructor
  · intro h
    cases value with
    | list items => exact congrArg list (eq_map_of_mapM_text? h)
    | _ => cases h
  · rintro rfl
    exact texts?_ofTexts texts

end Toml.Value

theorem Toml.Table.get_cons (entry : String × Toml.Value) (table : Toml.Table) (key : String) :
    Toml.Table.get (entry :: table) key = if key = entry.1 then entry.2 else table.get key := by
  unfold Toml.Table.get
  by_cases h : key = entry.1
  · rw [if_pos h, h, List.lookup_cons_self]
    rfl
  · rw [if_neg h, List.lookup_cons, beq_false_of_ne h]

namespace Setting
open Toml (Table Value)

/-- Where a settings table has a setting: the name of a section, and the key in it. -/
def place : Setting → String × String
  | beginSample => ("markers", "begin")
  | endSample => ("markers", "end")
  | indentUnit => ("markers", "indent_unit")
  | iteratorMarkers => ("scanner", "iterator_markers")
  | extensions => ("files", "extensions")
  | includePatterns => ("files", "include_patterns")
  | excludePatterns => ("files", "exclude_patterns")
  | encoding => ("files", "encoding")

def sectionOf (table : Table) (name : String) : Table :=
  (table.get name).entries?.getD []

def inTable (setting : Setting) (table : Table) : Value :=
  setting.adopt ((sectionOf table setting.place.1).get setting.place.2)

@[simp] theorem adopt_missing (setting : Setting) : setting.adopt .missing = .missing := by
  cases setting <;> rfl

theorem adopt_of_ne {setting : Setting} (h : setting ≠ extensions) (value : Value) :
    setting.adopt value = value := by
  cases setting <;> first | rfl | exact absurd rfl h

@[simp] theorem adopt_extensions (texts : List String) :
    extensions.adopt (.ofTexts texts) = .ofTexts (texts.map normalizeExtension) := by
  simp only [adopt, Value.texts?_ofTexts]

end Setting

namespace SettingsTable
open Toml (Table Value)

variable {table entries : Table} {key : String} {layer : Draft}

theorem eq_of_tableAt (h : tableAt table key = .ok entries) :
    entries = Setting.sectionOf table key := by
  unfold tableAt at h
  unfold Setting.sectionOf
  split at h
  · next hg =>
    cases h
    rw [hg]
    rfl
  · next hg =>
    cases h
    rw [hg]
    rfl
  · cases h

theorem eq_of_textAt? {text : Option String} (h : textAt? table key = .ok text) :
    Value.ofText? text = table.get key := by
  unfold textAt? at h
  split at h
  · next hg =>
    cases h
    exact hg.symm
  · next hg =>
    cases h
    exact hg.symm
  · cases h

theorem eq_of_textsAt? {texts : Option (List String)} (h : textsAt? table key = .ok texts) :
    (texts.map Value.ofTexts).getD .missing = table.get key := by
  unfold textsAt? at h
  split at h
  · next hg =>
    cases h
    exact hg.symm
  · split at h
    · next ht =>
      cases h
      exact (Value.texts?_eq_some_iff.1 ht).symm
    · cases h

theorem textsAt?_of_get {texts : List String} (key : String)
    (h : table.get key = .ofTexts texts) : textsAt? table key = .ok (some texts) := by
  have htexts := Value.texts?_ofTexts texts
  unfold Value.ofTexts at h htexts
  simp only [textsAt?, h, htexts]

def listOf (texts : Option (List String)) : Value :=
  (texts.map Value.ofTexts).getD .missing

theorem listOf_map_normalizeExtension (texts : Option (List String)) :
    listOf (texts.map (·.map normalizeExtension)) = Setting.extensions.adopt (listOf texts) := by
  cases texts with
  | none => rfl
  | some texts => exact (Setting.adopt_extensions texts).symm

theorem listOf_listed {texts : Option (List String)} (h : listOf texts ≠ .missing) :
    ∃ items, listOf texts = .list items := by
  cases texts with
  | none => exact absurd rfl h
  | some texts => exact ⟨_, rfl⟩

theorem draft_value (h : draft table = .ok layer) :
    layer.Sound ∧ layer.sources = [] ∧ ∀ setting, layer.value setting = setting.inTable table := by
  unfold draft at h
  simp only [bind_eq_ok_iff] at h
  obtain ⟨markers, hm, scanner, hs, files, hf, extensions, he, beginSample, hb, endSample, hn,
    indentUnit, hu, iteratorMarkers, hi, includePatterns, hip, excludePatterns, hep, encoding, hc,
    h⟩ := h
  cases eq_of_tableAt hm
  cases eq_of_tableAt hs
  cases eq_of_tableAt hf
  cases h
  refine ⟨⟨rfl, fun setting hl hv => ?_⟩, rfl, fun setting => ?_⟩
  · cases setting with
    | iteratorMarkers | extensions | includePatterns | excludePatterns => exact listOf_listed hv
    | beginSample | endSample | indentUnit | encoding => cases hl
  · cases setting with
    | beginSample => exact eq_of_textAt? hb
    | endSample => exact eq_of_textAt? hn
    | indentUnit => exact eq_of_textAt? hu
    | iteratorMarkers => exact eq_of_textsAt? hi
    | extensions =>
      exact (listOf_map_normalizeExtension extensions).trans
        (congrArg Setting.extensions.adopt (eq_of_textsAt? he))
    | includePatterns => exact eq_of_textsAt? hip
    | excludePatterns => exact eq_of_textsAt? hep
    | encoding => exact eq_of_textAt? hc

end SettingsTable

end MethodMarkers
