import MethodMarkers.Proofs.SettingKinds

namespace MethodMarkers
open Toml (Value Table)

namespace Setting

def hasSection (name : String) : Bool :=
  all.any fun setting => setting.place.1 == name

def hasPlace (name key : String) : Bool :=
  all.any fun setting => setting.place.1 == name && setting.place.2 == key

theorem hasSection_of_hasPlace {name key : String} (h : hasPlace name key = true) :
    hasSection name = true := by
  obtain ⟨setting, hm, hs⟩ := List.any_eq_true.1 h
  exact List.any_eq_true.2 ⟨setting, hm, (Bool.and_eq_true_iff.1 hs).1⟩

end Setting

open Setting (hasSection hasPlace)

/-- A part of a settings table: a section as a whole, or a key of a section. -/
inductive TablePart where
  | whole (name : String)
  | entry (name key : String)
  deriving DecidableEq, Repr

namespace TablePart

def isKnown : TablePart → Bool
  | whole name => hasSection name
  | entry name key => hasPlace name key

/-- A section of no setting, or a key of no setting in a section of some. -/
def isStray : TablePart → Bool
  | whole name => !hasSection name
  | entry name key => hasSection name && !hasPlace name key

theorem isStray_of_isKnown (part : TablePart) (h : part.isKnown = true) : part.isStray = false := by
  cases part with
  | whole name =>
    have hs : hasSection name = true := h
    rw [isStray, hs, Bool.not_true]
  | entry name key =>
    have hp : hasPlace name key = true := h
    rw [isStray, hp, Bool.not_true, Bool.and_false]

def warning (origin : String) : TablePart → String
  | whole name => s!"Unknown config section [{name}] in {origin}"
  | entry name key => s!"Unknown config key '{name}.{key}' in {origin}"

end TablePart

namespace SettingsTable

variable {table entries : Table} {name key : String}

def partsOf (name : String) (value : Value) : List TablePart :=
  .whole name :: (value.entries?.getD []).map fun entry => .entry name entry.1

def parts (table : Table) : List TablePart :=
  table.flatMap fun entry => partsOf entry.1 entry.2

def keptKeys (name : String) (entries : Table) : Table :=
  entries.filter fun entry => hasPlace name entry.1

def keptValue (name : String) : Value → Value
  | .table entries => .table (keptKeys name entries)
  | value => value

/-- A table without its sections of no setting, and without the keys of no setting in the other
sections. -/
def kept (table : Table) : Table :=
  (table.filter fun entry => hasSection entry.1).map fun entry =>
    (entry.1, keptValue entry.1 entry.2)

theorem sections_lookup_eq_none_iff : sections.lookup name = none ↔ hasSection name = false := by
  have hnames : hasSection name = (sections.map Prod.fst).contains name := by
    simp only [hasSection, Setting.all, Setting.place, sections]
    grind
  rw [hnames, List.lookup_eq_none_iff, List.contains_eq_any_beq, List.any_map, List.any_eq_false]
  simp only [bne, Bool.not_eq_true', Function.comp_apply, Bool.not_eq_true]

theorem sections_keys : ∀ p ∈ sections,
    p.2 = (Setting.all.filter fun setting => setting.place.1 == p.1).map (·.place.2) := by
  decide

theorem contains_of_sections_lookup {known : List String} (h : sections.lookup name = some known)
    (key : String) : known.contains key = hasPlace name key := by
  obtain ⟨before, behind, hs, -⟩ := List.lookup_eq_some_iff.1 h
  have hkeys := sections_keys (name, known) (hs ▸ List.mem_append_right _ List.mem_cons_self)
  dsimp only at hkeys
  rw [hkeys, hasPlace, List.contains_eq_any_beq, List.any_map, List.any_filter]
  simp only [Function.comp_apply, BEq.comm]

theorem isStray_of_section (h : hasSection name = false) (value : Value) :
    (partsOf name value).filter TablePart.isStray = [.whole name] := by
  have hwhole : (TablePart.whole name).isStray = true := by
    rw [TablePart.isStray, h, Bool.not_false]
  rw [partsOf, List.filter_cons_of_pos hwhole, List.cons_inj_right, List.filter_eq_nil_iff]
  intro part hm
  obtain ⟨entry, -, rfl⟩ := List.mem_map.1 hm
  rw [TablePart.isStray, h, Bool.false_and]
  exact Bool.false_ne_true

theorem isStray_of_keys (h : hasSection name = true) (value : Value) :
    (partsOf name value).filter TablePart.isStray =
      ((value.entries?.getD []).filter fun entry => !hasPlace name entry.1).map
        fun entry => .entry name entry.1 := by
  have hwhole : ¬ (TablePart.whole name).isStray = true := by
    rw [TablePart.isStray, h, Bool.not_true]
    exact Bool.false_ne_true
  rw [partsOf, List.filter_cons_of_neg hwhole, List.filter_map]
  refine congrArg _ (List.filter_congr fun entry _ => ?_)
  rw [Function.comp_apply, TablePart.isStray, h, Bool.true_and]

theorem unknownParts_eq (origin name : String) (value : Value) :
    unknownParts origin name value =
      ((partsOf name value).filter TablePart.isStray).map (·.warning origin) := by
  unfold unknownParts
  split
  · next h =>
    rw [isStray_of_section (sections_lookup_eq_none_iff.1 h)]
    rfl
  · next known h =>
    have hs : hasSection name = true := by
      rw [← Bool.not_eq_false, ← sections_lookup_eq_none_iff, h]
      nofun
    rw [isStray_of_keys hs, List.map_map]
    simp only [contains_of_sections_lookup h]
    rfl

theorem warnings_eq (origin : String) (table : Table) :
    warnings origin table =
      ((parts table).filter TablePart.isStray).map (·.warning origin) := by
  rw [warnings, parts, List.filter_flatMap, List.map_flatMap]
  exact List.flatMap_congr fun entry _ => unknownParts_eq origin entry.1 entry.2

theorem partsOf_keptValue (h : hasSection name = true) (value : Value) :
    partsOf name (keptValue name value) = (partsOf name value).filter TablePart.isKnown := by
  have hwhole : (TablePart.whole name).isKnown = true := h
  unfold partsOf
  rw [List.filter_cons_of_pos hwhole, List.filter_map]
  cases value with
  | table entries => rfl
  | _ => rfl

theorem partsOf_isKnown (h : hasSection name = false) (value : Value) :
    (partsOf name value).filter TablePart.isKnown = [] := by
  rw [List.filter_eq_nil_iff]
  intro part hm
  rcases List.mem_cons.1 hm with rfl | hm
  · rw [TablePart.isKnown, h]
    exact Bool.false_ne_true
  · obtain ⟨entry, -, rfl⟩ := List.mem_map.1 hm
    apply mt Setting.hasSection_of_hasPlace
    rw [h]
    exact Bool.false_ne_true

theorem kept_cons (entry : String × Value) (table : Table) :
    kept (entry :: table) = if hasSection entry.1 then
      (entry.1, keptValue entry.1 entry.2) :: kept table else kept table := by
  unfold kept
  rw [List.filter_cons]
  split <;> rfl

theorem parts_kept (table : Table) :
    parts (kept table) = (parts table).filter TablePart.isKnown := by
  induction table with
  | nil => rfl
  | cons entry table ih =>
    unfold parts at ih ⊢
    rw [kept_cons, List.flatMap_cons, List.filter_append, ← ih]
    cases h : hasSection entry.1 with
    | true => rw [if_pos rfl, List.flatMap_cons, partsOf_keptValue h]
    | false => rw [if_neg Bool.false_ne_true, partsOf_isKnown h, List.nil_append]

theorem get_keptKeys (h : hasPlace name key = true) (entries : Table) :
    (keptKeys name entries).get key = entries.get key := by
  induction entries with
  | nil => rfl
  | cons entry entries ih =>
    unfold keptKeys at ih ⊢
    rw [List.filter_cons, Table.get_cons]
    split
    · rw [Table.get_cons, ih]
    · next hp =>
      rw [ih, if_neg]
      rintro rfl
      exact hp h

theorem get_kept (h : hasSection key = true) (table : Table) :
    (kept table).get key = keptValue key (table.get key) := by
  induction table with
  | nil => rfl
  | cons entry table ih =>
    rw [kept_cons, Table.get_cons]
    split
    · rw [Table.get_cons, ih]
      split
      · next hk => rw [hk]
      · rfl
    · next hs =>
      rw [ih, if_neg]
      rintro rfl
      exact hs h

theorem tableAt_kept (h : hasSection key = true) (table : Table) :
    tableAt (kept table) key = keptKeys key <$> tableAt table key := by
  unfold tableAt
  rw [get_kept h]
  cases table.get key <;> rfl

theorem textAt?_keptKeys (h : hasPlace name key = true) (entries : Table) :
    textAt? (keptKeys name entries) key = textAt? entries key := by
  unfold textAt?
  rw [get_keptKeys h]

theorem textsAt?_keptKeys (h : hasPlace name key = true) (entries : Table) :
    textsAt? (keptKeys name entries) key = textsAt? entries key := by
  unfold textsAt?
  rw [get_keptKeys h]

/-- What has no meaning changes neither the layer nor the fault of a table. -/
theorem draft_kept (table : Table) : draft (kept table) = draft table := by
  unfold draft
  simp (disch := decide) only [tableAt_kept, bind_map_left, textAt?_keptKeys, textsAt?_keptKeys]

end SettingsTable

namespace Setting
open SettingsTable

variable {setting : Setting} {table : Table} {layer : Draft}

/-- A table fits a setting if its section is a table, where there is one, and has nothing or a value
of the kind of the setting under its key. -/
structure Fits (setting : Setting) (table : Table) : Prop where
  place : table.get setting.place.1 = .missing ∨
    ∃ entries, table.get setting.place.1 = .table entries
  value : (sectionOf table setting.place.1).get setting.place.2 = .missing ∨
    setting.OfKind ((sectionOf table setting.place.1).get setting.place.2)

theorem place_of_tableAt {key : String} {entries : Table} (h : tableAt table key = .ok entries) :
    table.get key = .missing ∨ ∃ entries, table.get key = .table entries := by
  unfold tableAt at h
  split at h
  · next hg => exact .inl hg
  · next hg => exact .inr ⟨_, hg⟩
  · cases h

theorem Fits.tableAt (h : setting.Fits table) :
    tableAt table setting.place.1 = .ok (sectionOf table setting.place.1) := by
  unfold SettingsTable.tableAt sectionOf
  rcases h.place with hg | ⟨entries, hg⟩
  · rw [hg]
    rfl
  · rw [hg]
    rfl

theorem Fits.textAt? (h : setting.Fits table) (hs : setting.isList = false) :
    ∃ text, textAt? (sectionOf table setting.place.1) setting.place.2 = .ok text := by
  unfold SettingsTable.textAt?
  rcases h.value with hg | hk
  · exact ⟨none, by rw [hg]⟩
  · generalize (sectionOf table setting.place.1).get setting.place.2 = value at hk
    cases hk with
    | text _ text => exact ⟨some text, rfl⟩
    | texts hl => exact absurd (hs.symm.trans hl) Bool.false_ne_true

theorem Fits.textsAt? (h : setting.Fits table) (hs : setting.isList = true) :
    ∃ texts, textsAt? (sectionOf table setting.place.1) setting.place.2 = .ok texts := by
  rcases h.value with hg | hk
  · unfold SettingsTable.textsAt?
    exact ⟨none, by rw [hg]⟩
  · generalize hv : (sectionOf table setting.place.1).get setting.place.2 = value at hk
    cases hk with
    | text hl => exact absurd (hl.symm.trans hs) Bool.false_ne_true
    | texts _ texts => exact ⟨some texts, textsAt?_of_get _ hv⟩

theorem value_of_textAt? {entries : Table} {key : String} {text : Option String}
    (h : textAt? entries key = .ok text) (hs : setting.isList = false) :
    entries.get key = .missing ∨ setting.OfKind (entries.get key) := by
  rw [← eq_of_textAt? h]
  cases text with
  | none => exact .inl rfl
  | some text => exact .inr (.text hs text)

theorem value_of_textsAt? {entries : Table} {key : String} {texts : Option (List String)}
    (h : textsAt? entries key = .ok texts) (hs : setting.isList = true) :
    entries.get key = .missing ∨ setting.OfKind (entries.get key) := by
  rw [← eq_of_textsAt? h]
  cases texts with
  | none => exact .inl rfl
  | some texts => exact .inr (.texts hs texts)

end Setting

namespace SettingsTable

variable {table : Table} {layer : Draft}

theorem fits_of_draft (h : draft table = .ok layer) (setting : Setting) : setting.Fits table := by
  unfold draft at h
  simp only [bind_eq_ok_iff] at h
  obtain ⟨markers, hm, scanner, hs, files, hf, extensions, he, beginSample, hb, endSample, hn,
    indentUnit, hu, iteratorMarkers, hi, includePatterns, hip, excludePatterns, hep, encoding, hc,
    -⟩ := h
  cases eq_of_tableAt hm
  cases eq_of_tableAt hs
  cases eq_of_tableAt hf
  cases setting with
  | beginSample => exact ⟨Setting.place_of_tableAt hm, Setting.value_of_textAt? hb rfl⟩
  | endSample => exact ⟨Setting.place_of_tableAt hm, Setting.value_of_textAt? hn rfl⟩
  | indentUnit => exact ⟨Setting.place_of_tableAt hm, Setting.value_of_textAt? hu rfl⟩
  | iteratorMarkers => exact ⟨Setting.place_of_tableAt hs, Setting.value_of_textsAt? hi rfl⟩
  | extensions => exact ⟨Setting.place_of_tableAt hf, Setting.value_of_textsAt? he rfl⟩
  | includePatterns => exact ⟨Setting.place_of_tableAt hf, Setting.value_of_textsAt? hip rfl⟩
  | excludePatterns => exact ⟨Setting.place_of_tableAt hf, Setting.value_of_textsAt? hep rfl⟩
  | encoding => exact ⟨Setting.place_of_tableAt hf, Setting.value_of_textAt? hc rfl⟩

theorem exists_draft_iff : (∃ layer, draft table = .ok layer) ↔
    ∀ setting : Setting, setting.Fits table := by
  constructor
  · rintro ⟨layer, h⟩
    exact fits_of_draft h
  · intro h
    obtain ⟨beginSample, hb⟩ := (h .beginSample).textAt? rfl
    obtain ⟨endSample, hn⟩ := (h .endSample).textAt? rfl
    obtain ⟨indentUnit, hu⟩ := (h .indentUnit).textAt? rfl
    obtain ⟨iteratorMarkers, hi⟩ := (h .iteratorMarkers).textsAt? rfl
    obtain ⟨extensions, he⟩ := (h .extensions).textsAt? rfl
    obtain ⟨includePatterns, hip⟩ := (h .includePatterns).textsAt? rfl
    obtain ⟨excludePatterns, hep⟩ := (h .excludePatterns).textsAt? rfl
    obtain ⟨encoding, hc⟩ := (h .encoding).textAt? rfl
    unfold draft
    simp only [bind_eq_ok_iff]
    exact ⟨_, _, (h .beginSample).tableAt, _, (h .iteratorMarkers).tableAt, _,
      (h .extensions).tableAt, _, he, _, hb, _, hn, _, hu, _, hi, _, hip, _, hep, _, hc, rfl⟩

end SettingsTable

theorem Logged.trace_forM_note (level : Level) (texts : List String) :
    (texts.forM (note level)).trace = texts.map (Record.mk level) := by
  induction texts with
  | nil => rfl
  | cons text texts ih =>
    rw [List.map_cons, ← ih]
    rfl

namespace SettingsTable

theorem read_eq_ok_iff {source : Option Path} {table : Table} {layer : Draft} :
    (read source table).value = .ok layer ↔
      ∃ bare, draft table = .ok bare ∧ layer = { bare with sources := source.toList } := by
  unfold read
  rw [Traced.value_bind, Traced.value_pure]
  cases draft table with
  | error fault => exact ⟨nofun, fun ⟨_, h, _⟩ => nomatch h⟩
  | ok bare => exact ⟨fun h => ⟨bare, rfl, (Except.ok.inj h).symm⟩,
      fun ⟨_, h, he⟩ => congrArg Except.ok (he ▸ Except.ok.inj h ▸ rfl)⟩

/-- What has no meaning in a settings table is warned about, part by part in the order of the table,
and makes no difference: neither to the layer nor to the fault. The layer exists if all else is of
the right kinds, and holds exactly what the table sets. -/
theorem read_kept (source : Option Path) (table : Table) :
    parts (kept table) = (parts table).filter TablePart.isKnown ∧
    (read source (kept table)).value = (read source table).value ∧
    (read source (kept table)).trace = [] ∧
    (read source table).trace = ((parts table).filter TablePart.isStray).map
      (fun part => ⟨.warning, part.warning (originName source)⟩) ∧
    ((∃ layer, (read source table).value = .ok layer) ↔ ∀ setting : Setting, setting.Fits table) ∧
    ∀ layer, (read source table).value = .ok layer →
      layer.sources = source.toList ∧ layer.strays = [] ∧
        ∀ setting, layer.value setting = setting.inTable table := by
  have htrace (table : Table) : (read source table).trace =
      ((parts table).filter TablePart.isStray).map
        (fun part => ⟨.warning, part.warning (originName source)⟩) := by
    unfold read
    rw [Traced.trace_bind, Logged.trace_forM_note, Traced.trace_pure, List.append_nil, warnings_eq,
      List.map_map]
    rfl
  refine ⟨parts_kept table, ?_, ?_, htrace table, ?_, ?_⟩
  · unfold read
    rw [Traced.value_bind, Traced.value_bind, draft_kept]
  · have hnone : (parts (kept table)).filter TablePart.isStray = [] := by
      rw [List.filter_eq_nil_iff]
      intro part hm
      rw [parts_kept] at hm
      rw [part.isStray_of_isKnown (List.mem_filter.1 hm).2]
      exact Bool.false_ne_true
    rw [htrace, hnone, List.map_nil]
  · rw [← exists_draft_iff]
    constructor
    · rintro ⟨layer, h⟩
      obtain ⟨bare, hb, -⟩ := read_eq_ok_iff.1 h
      exact ⟨bare, hb⟩
    · rintro ⟨bare, hb⟩
      exact ⟨_, read_eq_ok_iff.2 ⟨bare, hb, rfl⟩⟩
  · intro layer h
    obtain ⟨bare, hb, rfl⟩ := read_eq_ok_iff.1 h
    obtain ⟨hsound, -, hvalue⟩ := draft_value hb
    exact ⟨rfl, hsound.strays_eq, hvalue⟩

example : kept [("color", .table [("begin", .text "B();")]),
      ("markers", .table [("begn", .text "B();"), ("end", .text "E();")])] =
    [("markers", .table [("end", .text "E();")])] := by
  rfl

end SettingsTable

end MethodMarkers
