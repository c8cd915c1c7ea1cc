import MethodMarkers.Proofs.SettingPrecedence
import MethodMarkers.Proofs.SmallLetters

namespace MethodMarkers
open Toml (Value Table)

variable {setting : Setting} {value : Value} {table : Table} {layer : Draft} {snapshot : Snapshot}
  {tree : Tree} {directory : Option Path} {files : List Path} {overrides : List Setting.Override}

namespace Setting

/-- A text, or a list of texts where a setting is one. -/
inductive OfKind : Setting → Value → Prop where
  | text {setting : Setting} (h : setting.isList = false) (text : String) :
      OfKind setting (.text text)
  | texts {setting : Setting} (h : setting.isList = true) (texts : List String) :
      OfKind setting (.ofTexts texts)

theorem OfKind.accepts (h : value = .missing ∨ setting.OfKind value) : setting.Accepts value := by
  rcases h with rfl | ⟨hs, text⟩ | ⟨-, texts⟩
  · exact ⟨fun _ h => absurd rfl h, fun _ h => absurd rfl h⟩
  · exact accepts_of_single hs _
  · exact ⟨fun _ _ => ⟨_, rfl⟩, fun _ _ => ⟨texts, rfl⟩⟩

theorem ne_extensions (hs : setting.isList = false) : setting ≠ extensions := by
  rintro rfl
  cases hs

def Takes (setting : Setting) (value : Value) : Prop :=
  ∃ given, setting.OfKind given ∧ value = setting.adopt given

theorem Takes.text (h : setting.Takes value) (hs : setting.isList = false) :
    ∃ text, value = .text text := by
  obtain ⟨given, hg, rfl⟩ := h
  cases hg with
  | text _ text => exact ⟨text, adopt_of_ne (ne_extensions hs) _⟩
  | texts hl texts =>
    rw [hs] at hl
    cases hl

theorem Takes.texts (h : setting.Takes value) (hs : setting.isList = true) :
    ∃ texts, value = .ofTexts texts ∧ (setting = extensions → ∀ s ∈ texts, NormalExtension s) := by
  obtain ⟨given, hg, rfl⟩ := h
  cases hg with
  | text hl text =>
    rw [hs] at hl
    cases hl
  | texts _ texts =>
    by_cases hne : setting = extensions
    · subst hne
      refine ⟨texts.map normalizeExtension, adopt_extensions texts, fun _ s hm => ?_⟩
      obtain ⟨extension, -, rfl⟩ := List.mem_map.1 hm
      exact normalExtension_normalizeExtension extension
    · exact ⟨texts, adopt_of_ne hne _, fun he => absurd he hne⟩

theorem takes_ofText? (hs : setting.isList = false) (text : Option String) :
    Value.ofText? text = .missing ∨ setting.Takes (.ofText? text) := by
  cases text with
  | none => exact .inl rfl
  | some text => exact .inr ⟨.text text, .text hs text, (adopt_of_ne (ne_extensions hs) _).symm⟩

theorem takes_adopt_listOf (setting : Setting) (hs : setting.isList = true)
    (texts : Option (List String)) :
    setting.adopt (SettingsTable.listOf texts) = .missing ∨
      setting.Takes (setting.adopt (SettingsTable.listOf texts)) := by
  cases texts with
  | none => exact .inl (adopt_missing setting)
  | some texts => exact .inr ⟨.ofTexts texts, .texts hs texts, rfl⟩

end Setting

theorem SettingsTable.draft_takes (h : draft table = .ok layer) (setting : Setting) :
    layer.value setting = .missing ∨ setting.Takes (layer.value setting) := by
  unfold draft at h
  simp only [bind_eq_ok_iff] at h
  obtain ⟨_, -, _, -, _, -, extensions, -, beginSample, -, endSample, -, indentUnit, -,
    iteratorMarkers, -, includePatterns, -, excludePatterns, -, encoding, -, h⟩ := h
  cases h
  cases setting with
  | beginSample => exact Setting.takes_ofText? rfl beginSample
  | endSample => exact Setting.takes_ofText? rfl endSample
  | indentUnit => exact Setting.takes_ofText? rfl indentUnit
  | iteratorMarkers =>
    exact Setting.takes_adopt_listOf .iteratorMarkers rfl iteratorMarkers
  | extensions =>
    have htakes := Setting.takes_adopt_listOf .extensions rfl extensions
    rw [← listOf_map_normalizeExtension] at htakes
    exact htakes
  | includePatterns =>
    exact Setting.takes_adopt_listOf .includePatterns rfl includePatterns
  | excludePatterns =>
    exact Setting.takes_adopt_listOf .excludePatterns rfl excludePatterns
  | encoding => exact Setting.takes_ofText? rfl encoding

theorem Toml.Value.lastSet_cases {p : Value → Prop} {values : List Value}
    (h : ∀ value ∈ values, value = .missing ∨ p value) :
    lastSet values = .missing ∨ p (lastSet values) := by
  induction values with
  | nil => exact .inl rfl
  | cons value values ih =>
    rw [List.forall_mem_cons] at h
    rw [lastSet_cons]
    rcases ih h.2 with hm | hp
    · rw [hm, missing_over]
      exact h.1
    · by_cases hm : lastSet values = .missing
      · rw [hm, missing_over]
        exact h.1
      · rw [over_of_ne _ hm]
        exact .inr hp

theorem Draft.defaults_takes (setting : Setting) : setting.Takes (defaults.value setting) := by
  cases setting with
  | beginSample | endSample | indentUnit | encoding => exact ⟨.text _, .text rfl _, rfl⟩
  | iteratorMarkers | includePatterns | excludePatterns => exact ⟨.ofTexts _, .texts rfl _, rfl⟩
  | extensions =>
    have hnormal : normalizeExtension ".cs" = ".cs" := by decide +kernel
    refine ⟨.ofTexts [".cs"], .texts rfl _, ?_⟩
    rw [Setting.adopt_extensions, List.map_singleton, hnormal]
    rfl

theorem Snapshot.exists_settings (h : ∀ setting : Setting, setting.Takes (snapshot.value setting)) :
    ∃ settings, snapshot = .ofSettings settings ∧ ∀ s ∈ settings.extensions, NormalExtension s := by
  obtain ⟨beginSample, hb⟩ := (h .beginSample).text rfl
  obtain ⟨endSample, hn⟩ := (h .endSample).text rfl
  obtain ⟨indentUnit, hu⟩ := (h .indentUnit).text rfl
  obtain ⟨encoding, hc⟩ := (h .encoding).text rfl
  obtain ⟨iteratorMarkers, hi, -⟩ := (h .iteratorMarkers).texts rfl
  obtain ⟨extensions, he, hsuffix⟩ := (h .extensions).texts rfl
  obtain ⟨includePatterns, hp, -⟩ := (h .includePatterns).texts rfl
  obtain ⟨excludePatterns, hx, -⟩ := (h .excludePatterns).texts rfl
  refine ⟨{
    markers := { beginSample, endSample, indentUnit }
    iteratorMarkers, extensions, includePatterns, excludePatterns, encoding
    sources := snapshot.sources }, ext_value (fun setting => ?_) rfl, hsuffix rfl⟩
  cases setting with
  | beginSample => exact hb
  | endSample => exact hn
  | indentUnit => exact hu
  | iteratorMarkers => exact hi
  | extensions => exact he
  | includePatterns => exact hp
  | excludePatterns => exact hx
  | encoding => exact hc

open SettingsFile

theorem SettingsFile.exists_draft_of_mem {paths : List Path} {tables : List Table}
    (ht : List.Forall₂ (fun file table => (readTable tree file).value = .ok table) paths tables)
    (hr : ∀ file ∈ paths, ∃ layer, (read tree file).value = .ok layer) (hm : table ∈ tables) :
    ∃ layer, SettingsTable.draft table = .ok layer := by
  induction ht with
  | nil => cases hm
  | cons hfirst _ ih =>
    rw [List.forall_mem_cons] at hr
    rcases List.mem_cons.1 hm with rfl | hm
    · obtain ⟨layer, hl⟩ := hr.1
      rw [read_value, hfirst] at hl
      obtain ⟨draft, hd, -⟩ := layerOf_eq_ok_iff.1 hl
      exact ⟨draft, hd⟩
    · exact ih hr.2 hm

/-- Settings that are loaded from files and overrides of the right kinds are texts and lists of
texts, with suffixes in their normal form. -/
theorem Snapshot.load_ofSettings
    (ho : ∀ override ∈ overrides, override.2 = .missing ∨ override.1.OfKind override.2)
    (h : (Snapshot.load tree directory files (overrideTable overrides)).value = .ok snapshot) :
    ∃ settings, snapshot = .ofSettings settings ∧ ∀ s ∈ settings.extensions, NormalExtension s := by
  have hload := h
  rw [load_value, bind_eq_ok_iff] at hload
  obtain ⟨path, hp, hload⟩ := hload
  rw [bind_eq_ok_iff] at hload
  obtain ⟨drafts, hd, -⟩ := hload
  have hread := forall_read_of_layers hd
  obtain ⟨tables, loaded, htables, hl, -, hv⟩ :=
    exists_load hp hread fun override hm => Setting.OfKind.accepts (ho override hm)
  cases Except.ok.inj (h.symm.trans hl)
  refine exists_settings fun setting => ?_
  have htable : ∀ table ∈ tables, setting.inTable table = .missing ∨
      setting.Takes (setting.inTable table) := by
    intro table hm
    obtain ⟨layer, hlayer⟩ := exists_draft_of_mem htables hread hm
    rw [← (SettingsTable.draft_value hlayer).2.2 setting]
    exact SettingsTable.draft_takes hlayer setting
  have hoverride : ∀ override ∈ overrides, setting.inOverride override = .missing ∨
      setting.Takes (setting.inOverride override) := by
    intro override hm
    by_cases hs : override.1 = setting
    · subst hs
      rw [Setting.inOverride, if_pos rfl]
      rcases ho override hm with hmissing | hk
      · rw [hmissing]
        exact .inl (Setting.adopt_missing _)
      · exact .inr ⟨override.2, hk, rfl⟩
    · exact .inl (if_neg hs)
  have hall : ∀ value ∈ Draft.defaults.value setting ::
      (tables.map setting.inTable ++ overrides.map setting.inOverride),
      value = .missing ∨ setting.Takes value :=
    List.forall_mem_cons.2 ⟨.inr (Draft.defaults_takes setting), List.forall_mem_append.2
      ⟨List.forall_mem_map.2 htable, List.forall_mem_map.2 hoverride⟩⟩
  have hne : Value.lastSet (Draft.defaults.value setting ::
      (tables.map setting.inTable ++ overrides.map setting.inOverride)) ≠ .missing :=
    Draft.over_defaults_ne _ setting
  rw [hv]
  exact (Value.lastSet_cases hall).resolve_left hne

end MethodMarkers
