import MethodMarkers.Proofs.SettingKinds

namespace MethodMarkers
open Toml (Value Table)

theorem Toml.Table.get_eq_missing_iff {table : Table} {key : String}
    (h : ∀ entry ∈ table, entry.2 ≠ .missing) :
    table.get key = .missing ↔ ∀ entry ∈ table, entry.1 ≠ key := by
  induction table with
  | nil => exact ⟨nofun, fun _ => rfl⟩
  | cons entry table ih =>
    rw [List.forall_mem_cons] at h ⊢
    rw [get_cons, ← ih h.2]
    split
    · next hk => exact ⟨fun hm => absurd hm h.1, fun hm => absurd hk.symm hm.1⟩
    · next hk => exact ⟨fun hm => ⟨Ne.symm hk, hm⟩, fun hm => hm.2⟩

theorem Toml.Table.get_cases (table : Table) (key : String) :
    table.get key = .missing ∨ ∃ entry ∈ table, table.get key = entry.2 := by
  induction table with
  | nil => exact .inl rfl
  | cons entry table ih =>
    rw [get_cons]
    split
    · exact .inr ⟨entry, List.mem_cons_self, rfl⟩
    · exact ih.imp id fun ⟨other, hm, he⟩ => ⟨other, List.mem_cons_of_mem _ hm, he⟩

namespace Setting

def named? (name : String) : Option Setting :=
  all.find? fun setting => setting.name == name

theorem named?_name (setting : Setting) : named? setting.name = some setting := by
  cases setting <;> decide

theorem name_of_named? {name : String} {setting : Setting} (h : named? name = some setting) :
    setting.name = name := by
  have hname := List.find?_some h
  exact eq_of_beq hname

theorem named?_eq_none_iff {name : String} : named? name = none ↔ name ∉ Draft.settingNames := by
  have hnames : Draft.settingNames = all.map (·.name) := rfl
  rw [named?, List.find?_eq_none, hnames, List.mem_map]
  simp only [beq_iff_eq, not_exists, not_and]

def inEntry (setting : Setting) (entry : String × Value) : Value :=
  if entry.1 = setting.name then setting.adopt entry.2 else .missing

end Setting

namespace Draft

variable {draft after : Draft} {entry : String × Value} {overrides : Table}

/-- Nothing, a text or a list of texts; what the setting is, if the name is that of one. -/
structure Suits (entry : String × Value) : Prop where
  plain : entry.2 = .missing ∨ (∃ text, entry.2 = .text text) ∨ ∃ texts, entry.2 = .ofTexts texts
  kind : ∀ setting : Setting, setting.name = entry.1 →
    entry.2 = .missing ∨ setting.OfKind entry.2

/-- Names of no setting that cannot be set to texts. -/
def fixedNames : List String :=
  ["__class__", "__dict__", "__weakref__"]

/-- An override that is refused although its name is known. -/
def Bars (entry : String × Value) : Prop :=
  entry.2 ≠ .missing ∧ entry.1 ∈ fixedNames

def isStray (entry : String × Value) : Bool :=
  !settingNames.contains entry.1 && !entry.2.isMissing

theorem isStray_iff : isStray entry = true ↔ entry.1 ∉ settingNames ∧ entry.2 ≠ .missing := by
  rw [isStray, Bool.and_eq_true_iff, Bool.not_eq_true', Bool.not_eq_true', ← Bool.not_eq_true,
    List.contains_iff_mem, ← Bool.not_eq_true, Value.isMissing_iff]

def ofEntry (entry : String × Value) : Draft :=
  match Setting.named? entry.1 with
  | some setting => ofOverride (setting, entry.2)
  | none => { strays := [entry].filter isStray }

theorem ofEntry_value (entry : String × Value) (setting : Setting) :
    (ofEntry entry).value setting = setting.inEntry entry := by
  unfold ofEntry Setting.inEntry
  split
  · next other h =>
    rw [ofOverride_value, Setting.inOverride, ← Setting.name_of_named? h]
    by_cases hs : other = setting
    · subst hs
      rw [if_pos rfl, if_pos rfl]
    · rw [if_neg hs, if_neg]
      intro hn
      have hsome := (Setting.named?_name other).symm.trans (hn ▸ Setting.named?_name setting)
      exact hs (Option.some.inj hsome)
  · next h =>
    rw [if_neg]
    · exact value_empty setting
    · intro hn
      rw [hn, Setting.named?_name] at h
      cases h

theorem ofEntry_sources (entry : String × Value) : (ofEntry entry).sources = [] := by
  unfold ofEntry
  split
  · exact only_sources _ _
  · rfl

theorem ofEntry_strays (entry : String × Value) :
    (ofEntry entry).strays = [entry].filter isStray := by
  unfold ofEntry
  split
  · next setting h =>
    have hstray : isStray entry = false := by
      have hm := setting.name_mem_settingNames
      rw [Setting.name_of_named? h, ← List.contains_iff_mem] at hm
      rw [isStray, hm, Bool.not_true, Bool.false_and]
    rw [List.filter_cons, hstray]
    exact only_strays _ _
  · rfl

theorem ofEntry_missing (h : entry.2 = .missing) : ofEntry entry = {} := by
  apply ext_value
  · intro setting
    rw [ofEntry_value, Setting.inEntry, h, Setting.adopt_missing, value_empty, ite_self]
  · exact ofEntry_sources entry
  · rw [ofEntry_strays, List.filter_cons, isStray, h]
    simp only [Value.isMissing, Bool.not_true, Bool.and_false]
    rfl

theorem set_spare {name : String} {value : Value} (hn : name ∉ settingNames)
    (hb : name ∉ fixedNames) :
    draft.set name value = .ok { draft with strays := (name, value) :: draft.strays } := by
  simp only [settingNames, fixedNames, List.mem_cons, not_or] at hn hb
  unfold set
  split <;> simp_all

theorem set_entry (hv : entry.2 ≠ .missing) (hb : entry.1 ∉ fixedNames) (hs : Suits entry) :
    draft.set entry.1 entry.2 = .ok (draft.merge (ofEntry entry)) := by
  cases h : Setting.named? entry.1 with
  | some setting =>
    have hn := Setting.name_of_named? h
    have hlayer : ofEntry entry = ofOverride (setting, entry.2) := by rw [ofEntry, h]
    rw [← hn, hlayer]
    exact set_name hv (Setting.OfKind.accepts (hs.kind setting hn))
  | none =>
    have hn := Setting.named?_eq_none_iff.1 h
    have hstray : isStray entry = true := isStray_iff.2 ⟨hn, hv⟩
    have hlayer : ofEntry entry = { strays := [entry] } := by
      rw [ofEntry, h, List.filter_cons, hstray]
      rfl
    rw [set_spare hn hb, hlayer]
    apply congrArg Except.ok
    apply ext_value
    · intro setting
      rw [merge_value]
      cases setting <;> rfl
    · exact (List.append_nil _).symm
    · rfl

theorem set_bars (hb : Bars entry) (hs : Suits entry) :
    ∃ fault, draft.set entry.1 entry.2 = .error fault := by
  obtain ⟨name, value⟩ := entry
  obtain ⟨hv, hm⟩ := hb
  simp only [fixedNames, List.mem_cons, List.not_mem_nil, or_false] at hm
  rcases hm with rfl | rfl | rfl
  · exact ⟨_, rfl⟩
  · rcases hs.plain with hn | ⟨text, ht⟩ | ⟨texts, ht⟩
    · exact absurd hn hv
    · obtain rfl : value = .text text := ht
      exact ⟨_, rfl⟩
    · obtain rfl : value = .ofTexts texts := ht
      exact ⟨_, rfl⟩
  · exact ⟨_, rfl⟩

def knownNames : List String :=
  settingNames ++ spareNames

theorem setAll_cons_unknown (hm : entry.1 ∉ knownNames) :
    setAll draft (entry :: overrides) = (draft, .error (.unknown entry.1)) := by
  have hc : knownNames.contains entry.1 = false := by
    rw [← Bool.not_eq_true, List.contains_iff_mem]
    exact hm
  rw [knownNames] at hc
  rw [setAll, hc]
  rfl

theorem setAll_cons_bars (hm : entry.1 ∈ knownNames) (hb : Bars entry) (hs : Suits entry) :
    ∃ fault, setAll draft (entry :: overrides) = (draft, .error (.misuse fault)) := by
  obtain ⟨fault, hf⟩ := set_bars hb hs
  refine ⟨fault, ?_⟩
  rw [knownNames, ← List.contains_iff_mem] at hm
  rw [setAll, hm, hf]
  simp only [Bool.not_true, Bool.false_eq_true, if_false, mt Value.isMissing_iff.1 hb.1]

theorem setAll_cons_layer (hm : entry.1 ∈ knownNames) (hb : ¬ Bars entry) (hs : Suits entry) :
    setAll draft (entry :: overrides) = setAll (draft.merge (ofEntry entry)) overrides := by
  rw [knownNames, ← List.contains_iff_mem] at hm
  rw [setAll, hm]
  simp only [Bool.not_true, Bool.false_eq_true, if_false]
  split
  · next hv => rw [ofEntry_missing (Value.isMissing_iff.1 hv), merge_empty]
  · next hv =>
    have hne := mt Value.isMissing_iff.2 hv
    rw [set_entry hne (fun hf => hb ⟨hne, hf⟩) hs]

def overridden (draft : Draft) (overrides : Table) : Draft :=
  (overrides.map ofEntry).foldl merge draft

theorem setAll_layers (hs : ∀ entry ∈ overrides, Suits entry)
    (h : ∀ entry ∈ overrides, entry.1 ∈ knownNames ∧ ¬ Bars entry) :
    setAll draft overrides = (draft.overridden overrides, .ok ()) := by
  induction overrides generalizing draft with
  | nil => rfl
  | cons entry overrides ih =>
    rw [List.forall_mem_cons] at hs h
    rw [setAll_cons_layer h.1.1 h.1.2 hs.1, ih hs.2 h.2]
    rfl

theorem setAll_eq_ok_iff (hs : ∀ entry ∈ overrides, Suits entry) :
    (setAll draft overrides).2 = .ok () ↔
      ∀ entry ∈ overrides, entry.1 ∈ knownNames ∧ ¬ Bars entry := by
  constructor
  · intro h
    induction overrides generalizing draft with
    | nil => exact nofun
    | cons entry overrides ih =>
      rw [List.forall_mem_cons] at hs ⊢
      by_cases hm : entry.1 ∈ knownNames
      · by_cases hb : Bars entry
        · obtain ⟨fault, hf⟩ := setAll_cons_bars hm hb hs.1
          rw [hf] at h
          cases h
        · rw [setAll_cons_layer hm hb hs.1] at h
          exact ⟨⟨hm, hb⟩, ih hs.2 h⟩
      · rw [setAll_cons_unknown hm] at h
        cases h
  · intro h
    rw [setAll_layers hs h]

/-- An unknown name is refused unless a barred one comes first. -/
theorem setAll_eq_unknown_iff (hs : ∀ entry ∈ overrides, Suits entry) :
    (∃ name, (setAll draft overrides).2 = .error (.unknown name)) ↔
      ∃ before entry rest, overrides = before ++ entry :: rest ∧ entry.1 ∉ knownNames ∧
        ∀ earlier ∈ before, ¬ Bars earlier := by
  induction overrides generalizing draft with
  | nil =>
    constructor
    · rintro ⟨name, h⟩
      cases h
    · rintro ⟨before, entry, rest, h, -⟩
      cases before <;> cases h
  | cons entry overrides ih =>
    rw [List.forall_mem_cons] at hs
    by_cases hm : entry.1 ∈ knownNames
    · by_cases hb : Bars entry
      · obtain ⟨fault, hf⟩ := setAll_cons_bars hm hb hs.1
        rw [hf]
        constructor
        · rintro ⟨name, h⟩
          cases h
        · rintro ⟨before, unknown, rest, h, hu, hbefore⟩
          cases before with
          | nil =>
            cases h
            exact absurd hm hu
          | cons first before =>
            cases h
            exact absurd hb (hbefore _ List.mem_cons_self)
      · rw [setAll_cons_layer hm hb hs.1, ih hs.2]
        constructor
        · rintro ⟨before, unknown, rest, rfl, hu, hbefore⟩
          exact ⟨entry :: before, unknown, rest, rfl, hu, List.forall_mem_cons.2 ⟨hb, hbefore⟩⟩
        · rintro ⟨before, unknown, rest, h, hu, hbefore⟩
          cases before with
          | nil =>
            cases h
            exact absurd hm hu
          | cons first before =>
            cases h
            exact ⟨before, unknown, rest, rfl, hu, (List.forall_mem_cons.1 hbefore).2⟩
    · rw [setAll_cons_unknown hm]
      exact ⟨fun _ => ⟨[], entry, overrides, rfl, hm, nofun⟩, fun _ => ⟨_, rfl⟩⟩

theorem overridden_strays (draft : Draft) (overrides : Table) :
    (draft.overridden overrides).strays =
      (overrides.filter isStray).reverse ++ draft.strays := by
  unfold overridden
  induction overrides generalizing draft with
  | nil => rfl
  | cons entry overrides ih =>
    have hself : ([entry].filter isStray).reverse = [entry].filter isStray := by
      rw [List.filter_cons]
      split <;> rfl
    have hcons : (entry :: overrides).filter isStray =
        [entry].filter isStray ++ overrides.filter isStray :=
      List.filter_append [entry] overrides
    rw [List.map_cons, List.foldl_cons, ih, merge_strays, ofEntry_strays, hcons,
      List.reverse_append, hself, List.append_assoc]

theorem overridden_sources (draft : Draft) (overrides : Table) :
    (draft.overridden overrides).sources = draft.sources := by
  have hnone : (overrides.map ofEntry).flatMap (·.sources) = [] := by
    rw [List.flatMap_map, List.flatMap_eq_nil_iff]
    exact fun entry _ => ofEntry_sources entry
  rw [overridden, foldl_merge_sources, hnone, List.append_nil]

theorem overridden_value (draft : Draft) (overrides : Table) (setting : Setting) :
    (draft.overridden overrides).value setting =
      (Value.lastSet (overrides.map setting.inEntry)).over (draft.value setting) := by
  have hentries : (overrides.map ofEntry).map (·.value setting) =
      overrides.map setting.inEntry := by
    rw [List.map_map]
    exact List.map_congr_left fun entry _ => ofEntry_value entry setting
  rw [overridden, foldl_merge_value, hentries, Value.lastSet_cons]

/-- A draft without what was set under names of no setting. -/
def bare (draft : Draft) : Draft :=
  { draft with strays := [] }

theorem bare_foldl (draft : Draft) (layers : List Draft) :
    (layers.foldl merge draft).bare = (layers.map bare).foldl merge draft.bare := by
  induction layers generalizing draft with
  | nil => rfl
  | cons layer layers ih =>
    rw [List.foldl_cons, ih, List.map_cons, List.foldl_cons]
    rfl

theorem Sound.bare (h : draft.Sound) : draft.bare.Sound where
  strays_eq := rfl
  listed setting := by
    have hv : draft.bare.value setting = draft.value setting := by cases setting <;> rfl
    rw [hv]
    exact h.listed setting

theorem bare_ofEntry_sound (hs : Suits entry) : (ofEntry entry).bare.Sound := by
  unfold ofEntry
  split
  · next setting h =>
    have haccepts := Setting.OfKind.accepts (hs.kind setting (Setting.name_of_named? h))
    have hlayer : (ofOverride (setting, entry.2)).Sound := ofOverride_sound haccepts
    exact hlayer.bare
  · exact ⟨rfl, fun setting _ hv => absurd (value_empty setting) hv⟩

theorem bare_overridden_sound (hd : draft.Sound) (hs : ∀ entry ∈ overrides, Suits entry) :
    (draft.overridden overrides).bare.Sound := by
  rw [overridden, bare_foldl]
  apply hd.bare.foldl_merge
  rw [List.map_map, List.forall_mem_map]
  exact fun entry hm => bare_ofEntry_sound (hs entry hm)

theorem settingNames_notMem_fixedNames : ∀ name ∈ settingNames, name ∉ fixedNames := by
  decide

theorem known_of_setting (h : entry.1 ∈ settingNames) : entry.1 ∈ knownNames ∧ ¬ Bars entry :=
  ⟨List.mem_append_left _ h, fun hb => settingNames_notMem_fixedNames _ h hb.2⟩

theorem overridden_sound (hd : draft.Sound) (hs : ∀ entry ∈ overrides, Suits entry)
    (h : ∀ entry ∈ overrides, entry.1 ∈ settingNames) : (draft.overridden overrides).Sound := by
  have hnone : overrides.filter isStray = [] := by
    rw [List.filter_eq_nil_iff]
    exact fun entry hm hstray => (isStray_iff.1 hstray).1 (h entry hm)
  have hstrays : (draft.overridden overrides).strays = [] := by
    rw [overridden_strays, hd.strays_eq, hnone]
    rfl
  have hbare : (draft.overridden overrides).bare = draft.overridden overrides := by
    rw [bare, ← hstrays]
  exact hbare ▸ bare_overridden_sound hd hs

theorem allow_eq_ok_iff {operation : String} :
    draft.allow operation = .ok () ↔ draft.strays.get operation = .missing := by
  unfold allow
  split
  · next h => exact ⟨fun _ => h, fun _ => rfl⟩
  · next h => exact ⟨nofun, fun hm => absurd hm h⟩

theorem freeze_ok_iff (hb : draft.bare.Sound) (hd : draft.strays.get "__dict__" = .missing)
    (hf : ∀ entries, draft.strays.get "__dataclass_fields__" ≠ .table entries) :
    (∃ snapshot, draft.freeze = .ok snapshot) ↔ draft.strays.get "freeze" = .missing ∧
      draft.strays.get "__dataclass_fields__" = .missing := by
  constructor
  · rintro ⟨snapshot, h⟩
    unfold Draft.freeze at h
    simp only [bind_eq_ok_iff] at h
    obtain ⟨_, hallow, copied, hcopy, -⟩ := h
    refine ⟨allow_eq_ok_iff.1 hallow, ?_⟩
    unfold copy at hcopy
    split at hcopy
    · next hg => exact hg
    · next hg => exact absurd hg (hf _)
    · next hg => exact absurd hg (hf _)
    · cases hcopy
  · rintro ⟨hz, hp⟩
    obtain ⟨snapshot, hs, -⟩ := hb.freeze
    refine ⟨snapshot, ?_⟩
    rw [← hs]
    unfold Draft.freeze allow copy requireSources
    rw [hz, hp, hd]
    rfl

theorem mergeAllowed_ok_iff {upper : Draft} (hd : draft.strays.get "__dict__" = .missing) :
    draft.mergeAllowed upper = .ok (draft.merge upper) ↔
      draft.strays.get "merge_with" = .missing := by
  have hr : draft.requireSources = .ok () := by
    rw [requireSources, hd]
    rfl
  rw [← allow_eq_ok_iff, mergeAllowed, bind_eq_ok_iff, hr]
  constructor
  · rintro ⟨_, h, -⟩
    exact h
  · intro h
    exact ⟨(), h, rfl⟩

def Sets (overrides : Table) (name : String) : Prop :=
  ∃ entry ∈ overrides, entry.1 = name ∧ entry.2 ≠ .missing

theorem strays_get_eq_missing_iff {name : String} (hn : name ∉ settingNames) :
    Table.get (overrides.filter isStray).reverse name = .missing ↔ ¬ Sets overrides name := by
  rw [Table.get_eq_missing_iff]
  · constructor
    · rintro h ⟨entry, hm, rfl, hv⟩
      exact h entry (List.mem_reverse.2 (List.mem_filter.2 ⟨hm, isStray_iff.2 ⟨hn, hv⟩⟩)) rfl
    · intro h entry hm he
      obtain ⟨hm, hstray⟩ := List.mem_filter.1 (List.mem_reverse.1 hm)
      exact h ⟨entry, hm, he, (isStray_iff.1 hstray).2⟩
  · intro entry hm
    exact (isStray_iff.1 (List.mem_filter.1 (List.mem_reverse.1 hm)).2).2

theorem overridden_get (hd : draft.Sound) {name : String} (hn : name ∉ settingNames) :
    (draft.overridden overrides).strays.get name = .missing ↔ ¬ Sets overrides name := by
  rw [overridden_strays, hd.strays_eq, List.append_nil]
  exact strays_get_eq_missing_iff hn

theorem not_sets_of_bars (h : ∀ entry ∈ overrides, ¬ Bars entry) {name : String}
    (hn : name ∈ fixedNames) : ¬ Sets overrides name := by
  rintro ⟨entry, hm, rfl, hv⟩
  exact h entry hm ⟨hv, hn⟩

theorem overridden_get_ne_table (hd : draft.Sound) (hs : ∀ entry ∈ overrides, Suits entry)
    (name : String) (entries : Table) :
    (draft.overridden overrides).strays.get name ≠ .table entries := by
  rw [overridden_strays, hd.strays_eq, List.append_nil]
  intro h
  rcases Table.get_cases (overrides.filter isStray).reverse name with hg | ⟨entry, hm, hg⟩
  · rw [hg] at h
    cases h
  · rw [hg] at h
    rcases (hs entry (List.mem_filter.1 (List.mem_reverse.1 hm)).1).plain with
      he | ⟨_, he⟩ | ⟨_, he⟩
    · rw [he] at h
      cases h
    · rw [he] at h
      cases h
    · rw [he] at h
      cases h

theorem overridden_freeze_iff (hd : draft.Sound) (hs : ∀ entry ∈ overrides, Suits entry)
    (hb : ∀ entry ∈ overrides, ¬ Bars entry) :
    (∃ snapshot, (draft.overridden overrides).freeze = .ok snapshot) ↔
      ¬ Sets overrides "freeze" ∧ ¬ Sets overrides "__dataclass_fields__" := by
  have hdict : (draft.overridden overrides).strays.get "__dict__" = .missing :=
    (overridden_get hd (by decide)).2 (not_sets_of_bars hb (by decide))
  rw [freeze_ok_iff (bare_overridden_sound hd hs) hdict (overridden_get_ne_table hd hs _),
    overridden_get hd (by decide), overridden_get hd (by decide)]

theorem overridden_merge_iff (hd : draft.Sound) (hb : ∀ entry ∈ overrides, ¬ Bars entry)
    (upper : Draft) :
    (draft.overridden overrides).mergeAllowed upper =
        .ok ((draft.overridden overrides).merge upper) ↔ ¬ Sets overrides "merge_with" := by
  have hdict : (draft.overridden overrides).strays.get "__dict__" = .missing :=
    (overridden_get hd (by decide)).2 (not_sets_of_bars hb (by decide))
  rw [mergeAllowed_ok_iff hdict, overridden_get hd (by decide)]

theorem applyOverrides_eq (hd : draft.Sound) (overrides : Table) :
    draft.applyOverrides overrides = if (overrides.lookup "self").isSome then
      (draft, .error (.misuse .draftTwice)) else setAll draft overrides := by
  rw [applyOverrides, allow, hd.strays_eq]
  rfl

theorem lookup_of_known {name : String} (hn : name ∉ knownNames)
    (h : ∀ entry ∈ overrides, entry.1 ∈ knownNames) : overrides.lookup name = none := by
  rw [List.lookup_eq_none_iff]
  intro entry hm
  rw [bne_iff_ne]
  rintro rfl
  exact hn (h entry hm)

theorem applyOverrides_eq_overridden (hd : draft.Sound) (hs : ∀ entry ∈ overrides, Suits entry)
    (h : ∀ entry ∈ overrides, entry.1 ∈ knownNames ∧ ¬ Bars entry) :
    draft.applyOverrides overrides = (draft.overridden overrides, .ok ()) := by
  have hself : "self" ∉ knownNames := by decide
  rw [applyOverrides_eq hd, lookup_of_known hself fun entry hm => (h entry hm).1]
  exact setAll_layers hs h

theorem applyOverrides_eq_ok_iff (hd : draft.Sound) (hs : ∀ entry ∈ overrides, Suits entry) :
    (draft.applyOverrides overrides).2 = .ok () ↔
      ∀ entry ∈ overrides, entry.1 ∈ knownNames ∧ ¬ Bars entry := by
  constructor
  · intro h
    rw [applyOverrides_eq hd] at h
    split at h
    · cases h
    · exact (setAll_eq_ok_iff hs).1 h
  · intro h
    rw [applyOverrides_eq_overridden hd hs h]

end Draft

theorem loadArguments_unknown : ∀ name ∈ loadArguments, name ∉ Draft.knownNames := by
  decide

open SettingsFile in
/-- Settings under known overrides are loaded where they are loaded without, unless an override has
the name of what freezing needs. -/
theorem Snapshot.load_overridden_iff {overrides : Table}
    (hs : ∀ entry ∈ overrides, Draft.Suits entry)
    (h : ∀ entry ∈ overrides, entry.1 ∈ Draft.knownNames ∧ ¬ Draft.Bars entry) (tree : Tree)
    (directory : Option Path) (files : List Path) :
    (∃ snapshot, (load tree directory files overrides).value = .ok snapshot) ↔
      (∃ snapshot, (load tree directory files []).value = .ok snapshot) ∧
        ¬ Draft.Sets overrides "freeze" ∧ ¬ Draft.Sets overrides "__dataclass_fields__" := by
  have hnames : overrides.find? (loadArguments.contains ·.1) = none := by
    rw [List.find?_eq_none]
    intro entry hm hc
    exact loadArguments_unknown _ (List.contains_iff_mem.1 hc) (h entry hm).1
  have hsound {path : Option Path} {drafts : List Draft}
      (hl : layers tree (path.toList ++ files) = .ok drafts) :
      (drafts.foldl Draft.merge Draft.defaults).Sound := by
    obtain ⟨found, _, hfound, -, hdrafts, -⟩ := exists_layers (forall_read_of_layers hl)
    cases Except.ok.inj (hl.symm.trans hfound)
    exact (Draft.ofSnapshot_sound _).foldl_merge hdrafts
  have hfreeze {draft : Draft} (hd : draft.Sound) :
      (∃ snapshot, (draft.freezeWith overrides).mapError LoadFault.override = .ok snapshot) ↔
        ¬ Draft.Sets overrides "freeze" ∧ ¬ Draft.Sets overrides "__dataclass_fields__" := by
    rw [← Draft.overridden_freeze_iff hd hs fun entry hm => (h entry hm).2, Draft.freezeWith,
      Draft.applyOverrides_eq_overridden hd hs h]
    cases hz : (draft.overridden overrides).freeze with
    | error fault =>
      constructor
      · rintro ⟨_, hn⟩
        simp only [bind, Except.bind, hz] at hn
        cases hn
      · rintro ⟨_, hn⟩
        cases hn
    | ok snapshot =>
      refine iff_of_true ⟨snapshot, ?_⟩ ⟨snapshot, rfl⟩
      simp only [bind, Except.bind, hz]
      rfl
  rw [load_value_of_names tree directory files hnames, load_value_of_names tree directory files rfl]
  simp only [bind_eq_ok_iff]
  constructor
  · rintro ⟨snapshot, path, hp, drafts, hl, hz⟩
    obtain ⟨plain, hplain, -⟩ := (hsound hl).freeze
    refine ⟨⟨plain, path, hp, drafts, hl, ?_⟩, (hfreeze (hsound hl)).1 ⟨snapshot, hz⟩⟩
    rw [Draft.freezeWith, Draft.applyOverrides_eq (hsound hl)]
    change ((drafts.foldl Draft.merge Draft.defaults).freeze.mapError _).mapError _ = _
    rw [hplain]
    rfl
  · rintro ⟨⟨_, path, hp, drafts, hl, -⟩, hz⟩
    obtain ⟨snapshot, hsnapshot⟩ := (hfreeze (hsound hl)).2 hz
    exact ⟨snapshot, path, hp, drafts, hl, hsnapshot⟩

namespace Draft

/-- Overrides of settings alone set exactly those with a value. An unknown name is refused, though
not behind an override that is barred or beside one with the name `self`. Names that a draft knows
although no setting has them are taken up as well; they leave the settings as they are, and hide the
operations that have these names. -/
theorem applyOverrides_known (draft : Draft) (overrides : Table) (hd : draft.Sound)
    (hs : ∀ entry ∈ overrides, Suits entry) :
    ((∀ entry ∈ overrides, entry.1 ∈ settingNames) →
      ∃ after, draft.applyOverrides overrides = (after, .ok ()) ∧ after.Sound) ∧
    ((∃ name, (draft.applyOverrides overrides).2 = .error (.unknown name)) ↔
      overrides.lookup "self" = none ∧ ∃ before entry rest, overrides = before ++ entry :: rest ∧
        entry.1 ∉ knownNames ∧ ∀ earlier ∈ before, ¬ Bars earlier) ∧
    ((draft.applyOverrides overrides).2 = .ok () ↔
      ∀ entry ∈ overrides, entry.1 ∈ knownNames ∧ ¬ Bars entry) ∧
    ∀ after, draft.applyOverrides overrides = (after, .ok ()) →
      after.sources = draft.sources ∧ after.strays = (overrides.filter isStray).reverse ∧
      (∀ setting, after.value setting =
        (Value.lastSet (overrides.map setting.inEntry)).over (draft.value setting)) ∧
      ((∃ snapshot, after.freeze = .ok snapshot) ↔
        ¬ Sets overrides "freeze" ∧ ¬ Sets overrides "__dataclass_fields__") ∧
      (∀ upper, after.mergeAllowed upper = .ok (after.merge upper) ↔
        ¬ Sets overrides "merge_with") ∧
      ∀ tree directory files,
        (∃ snapshot, (Snapshot.load tree directory files overrides).value = .ok snapshot) ↔
          (∃ snapshot, (Snapshot.load tree directory files []).value = .ok snapshot) ∧
            ¬ Sets overrides "freeze" ∧ ¬ Sets overrides "__dataclass_fields__" := by
  refine ⟨?_, ?_, ?_, ?_⟩
  · intro h
    have hknown := applyOverrides_eq_overridden hd hs fun entry hm => known_of_setting (h entry hm)
    exact ⟨_, hknown, overridden_sound hd hs h⟩
  · have hunknown : (∃ name, (setAll draft overrides).2 = .error (.unknown name)) ↔ _ :=
      setAll_eq_unknown_iff hs
    rw [applyOverrides_eq hd, ← hunknown]
    cases overrides.lookup "self" with
    | none => exact ⟨fun h => ⟨rfl, h⟩, fun h => h.2⟩
    | some value =>
      constructor
      · rintro ⟨name, h⟩
        cases h
      · rintro ⟨h, -⟩
        cases h
  · exact applyOverrides_eq_ok_iff hd hs
  · intro after h
    have hall := (applyOverrides_eq_ok_iff hd hs).1 (congrArg Prod.snd h)
    have hbars := fun entry hm => (hall entry hm).2
    obtain rfl := congrArg Prod.fst ((applyOverrides_eq_overridden hd hs hall).symm.trans h)
    refine ⟨overridden_sources draft overrides, ?_, overridden_value draft overrides,
      overridden_freeze_iff hd hs hbars, overridden_merge_iff hd hbars,
      Snapshot.load_overridden_iff hs hall⟩
    rw [overridden_strays, hd.strays_eq, List.append_nil]

/-- An override that sets a marker is taken up, and a missing one beside it sets nothing. -/
theorem applyOverrides_known_marker : ∃ after : Draft,
    ({} : Draft).applyOverrides [("begin_marker", .text "B();"), ("encoding", .missing)] =
      (after, .ok ()) ∧
    after.beginSample = .text "B();" ∧ after.encoding = .missing ∧
    (∃ snapshot, after.freeze = .ok snapshot) ∧
    after.mergeAllowed {} = .ok (after.merge {}) := by
  have hsuits : ∀ entry ∈ [("begin_marker", Value.text "B();"), ("encoding", .missing)],
      Suits entry := by
    rw [List.forall_mem_cons, List.forall_mem_singleton]
    constructor
    · refine ⟨.inr (.inl ⟨_, rfl⟩), fun setting hn => .inr ?_⟩
      cases setting with
      | beginSample => exact .text rfl _
      | _ => exact absurd hn (by decide)
    · exact ⟨.inl rfl, fun _ _ => .inl rfl⟩
  have hsets (name : String) (hn : name ≠ "begin_marker") :
      ¬ Sets [("begin_marker", .text "B();"), ("encoding", .missing)] name := by
    rintro ⟨entry, hm, rfl, hv⟩
    rcases List.mem_cons.1 hm with rfl | hm
    · exact hn rfl
    · obtain rfl := List.mem_singleton.1 hm
      exact hv rfl
  have hempty : ({} : Draft).Sound := ⟨rfl, fun setting _ hv => absurd (value_empty setting) hv⟩
  obtain ⟨hsettings, -, -, hafter⟩ := applyOverrides_known {} _ hempty hsuits
  obtain ⟨after, ha, -⟩ := hsettings (by decide)
  obtain ⟨-, -, hv, hz, hm, -⟩ := hafter after ha
  exact ⟨after, ha, hv .beginSample, hv .encoding, hz.2 ⟨hsets _ (by decide), hsets _ (by decide)⟩,
    (hm {}).2 (hsets _ (by decide))⟩

/-- A draft takes up a value under the name of freezing, and is not frozen any more. -/
theorem applyOverrides_hides_freeze : ∃ after : Draft, "freeze" ∉ settingNames ∧
    ({} : Draft).applyOverrides [("freeze", .text "x")] = (after, .ok ()) ∧
    after.freeze = .error (.notCallable "str") :=
  ⟨{ strays := [("freeze", .text "x")] }, by decide, rfl, rfl⟩

end Draft

end MethodMarkers
