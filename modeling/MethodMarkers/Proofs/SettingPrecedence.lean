import Mathlib.Data.List.Forall2
import MethodMarkers.Proofs.SettingsLoading

namespace MethodMarkers
open Text
open Toml (Value Table)

variable {tree other : Tree} {path standalone : Path} {paths : List Path} {table document : Table}
  {layer : Draft} {overrides : List Setting.Override}

namespace SettingsFile

theorem layerOf_eq_ok_iff :
    layerOf path table = .ok layer ↔
      ∃ draft, SettingsTable.draft table = .ok draft ∧
        layer = { draft with sources := [path] } := by
  unfold layerOf
  cases SettingsTable.draft table with
  | error fault => exact ⟨nofun, fun ⟨_, h, _⟩ => nomatch h⟩
  | ok draft => exact ⟨fun h => ⟨draft, rfl, (Except.ok.inj h).symm⟩,
      fun ⟨_, h, he⟩ => Except.ok.inj h ▸ he ▸ rfl⟩

theorem layer_of_read (h : (read tree path).value = .ok layer) :
    layer.Sound ∧ layer.sources = [path] ∧ ∃ table, (readTable tree path).value = .ok table ∧
      ∀ setting, layer.value setting = setting.inTable table := by
  rw [read_value, bind_eq_ok_iff] at h
  obtain ⟨table, ht, h⟩ := h
  obtain ⟨draft, hd, rfl⟩ := layerOf_eq_ok_iff.1 h
  obtain ⟨hsound, -, hvalue⟩ := SettingsTable.draft_value hd
  exact ⟨⟨hsound.strays_eq, hsound.listed⟩, rfl, table, ht, hvalue⟩

theorem exists_layers (h : ∀ path ∈ paths, ∃ layer, (read tree path).value = .ok layer) :
    ∃ drafts tables, layers tree paths = .ok drafts ∧
      List.Forall₂ (fun path table => (readTable tree path).value = .ok table) paths tables ∧
      (∀ draft ∈ drafts, draft.Sound) ∧ drafts.flatMap (·.sources) = paths ∧
      ∀ setting : Setting, drafts.map (·.value setting) = tables.map setting.inTable := by
  induction paths with
  | nil => exact ⟨[], [], rfl, .nil, nofun, rfl, fun _ => rfl⟩
  | cons path paths ih =>
    rw [List.forall_mem_cons] at h
    obtain ⟨⟨layer, hl⟩, hrest⟩ := h
    obtain ⟨drafts, tables, hd, ht, hsound, hsources, hvalue⟩ := ih hrest
    obtain ⟨hs, hp, table, hr, hv⟩ := layer_of_read hl
    refine ⟨layer :: drafts, table :: tables, ?_, .cons hr ht, ?_, ?_, fun setting => ?_⟩
    · rw [layers_cons, hl, hd]
      rfl
    · exact List.forall_mem_cons.2 ⟨hs, hsound⟩
    · rw [List.flatMap_cons, hp, hsources]
      rfl
    · rw [List.map_cons, List.map_cons, hv, hvalue]

end SettingsFile

open SettingsFile

/-- Settings are loaded if no file has a fault. Each is what was set last: in the layers of the
files in order, or in the overrides after them. -/
theorem Snapshot.exists_load {directory : Option Path} {files : List Path} {path : Option Path}
    (hp : found tree directory = .ok path)
    (hf : ∀ file ∈ path.toList ++ files, ∃ layer, (read tree file).value = .ok layer)
    (ho : ∀ override ∈ overrides, override.1.Accepts override.2) :
    ∃ tables snapshot,
      List.Forall₂ (fun file table => (readTable tree file).value = .ok table)
        (path.toList ++ files) tables ∧
      (Snapshot.load tree directory files (overrideTable overrides)).value = .ok snapshot ∧
      snapshot.sources = path.toList ++ files ∧
      ∀ setting : Setting, snapshot.value setting = Value.lastSet
        (Draft.defaults.value setting ::
          (tables.map setting.inTable ++ overrides.map setting.inOverride)) := by
  obtain ⟨drafts, tables, hd, ht, hsound, hsources, hvalue⟩ := exists_layers hf
  have hfiles : (drafts.foldl Draft.merge Draft.defaults).Sound :=
    (Draft.ofSnapshot_sound _).foldl_merge hsound
  have hlayers : ∀ layer ∈ overrides.map Draft.ofOverride, layer.Sound := by
    rw [List.forall_mem_map]
    exact fun override hm => Draft.ofOverride_sound (ho override hm)
  obtain ⟨snapshot, hz, hs, hv⟩ := (hfiles.foldl_merge hlayers).freeze
  refine ⟨tables, snapshot, ht, ?_, ?_, fun setting => ?_⟩
  · rw [load_value, hp]
    simp only [bind, Except.bind, hd]
    rw [Draft.freezeWith_overrideTable hfiles.strays_eq ho, hz]
    rfl
  · have hnone : (overrides.map Draft.ofOverride).flatMap (·.sources) = [] := by
      rw [List.flatMap_map, List.flatMap_eq_nil_iff]
      exact fun override _ => Draft.only_sources _ _
    rw [hs, Draft.foldl_merge_sources, Draft.foldl_merge_sources, hsources, hnone, List.append_nil]
    rfl
  · have hoverrides : (overrides.map Draft.ofOverride).map (·.value setting) =
        overrides.map setting.inOverride := by
      rw [List.map_map]
      exact List.map_congr_left fun override _ => Draft.ofOverride_value override setting
    have hself := Value.over_of_not_isMissing (Draft.defaults.value setting)
      (Draft.defaults_value_isMissing setting)
    rw [hv, Draft.foldl_merge_value, Draft.foldl_merge_value, hoverrides, hvalue]
    simp only [Value.lastSet_cons, Value.lastSet_append, Value.over_assoc, hself]

theorem SettingsFile.read_shared (hn : path.name = sharedName) (hs : standalone.name ≠ sharedName)
    (hd : (readDocument tree path).value = .ok document) :
    (sharedTable? document = none → (read tree path).value = .ok { sources := [path] }) ∧
    ∀ table, sharedTable? document = some table →
      (readDocument other standalone).value = .ok table →
      ∀ layer : Draft, (read tree path).value = .ok { layer with sources := [path] } ↔
        (read other standalone).value = .ok { layer with sources := [standalone] } := by
  constructor
  · intro hnone
    rw [read_of_document hd, tableOf, if_pos hn, hnone]
    rfl
  · intro table ht hstandalone layer
    have hshared : (read tree path).value = layerOf path table := by
      rw [read_of_document hd, tableOf, if_pos hn, ht]
      rfl
    have halone : (read other standalone).value = layerOf standalone table := by
      rw [read_of_document hstandalone, tableOf, if_neg hs]
    have hsources {a b : Draft} {first : List Path} (second : List Path)
        (he : ({ a with sources := first } : Draft) = { b with sources := first }) :
        ({ a with sources := second } : Draft) = { b with sources := second } :=
      congrArg (fun draft : Draft => { draft with sources := second }) he
    rw [hshared, halone, layerOf_eq_ok_iff, layerOf_eq_ok_iff]
    exact ⟨fun ⟨draft, h, he⟩ => ⟨draft, h, hsources _ he⟩,
      fun ⟨draft, h, he⟩ => ⟨draft, h, hsources _ he⟩⟩

theorem SettingsFile.found_of_shared {directory : Path}
    (ho : isFile tree (directory / Path.ofString ownName) = .ok false)
    (hs : isFile tree (directory / Path.ofString sharedName) = .ok true)
    (hd : (readDocument tree (directory / Path.ofString sharedName)).value = .ok document) :
    found tree (some directory) = .ok (if (sharedTable? document).isSome then
      some (directory / Path.ofString sharedName) else none) := by
  simp only [found, discover, ho, hs, Traced.value_bind, hd, Traced.value_pure]

/-- Every setting is what was set last: by the overrides, else by the last file that sets it, else
it is the built-in one. Files named `pyproject.toml` count for the settings table in them.
Underneath, layers form a monoid, and settings are frozen from the layer that holds them. -/
theorem Snapshot.load_lastSet :
    (∀ (tree : Tree) (directory : Option Path) (files : List Path) (path : Option Path)
        (overrides : List Setting.Override),
      found tree directory = .ok path →
      (∀ file ∈ path.toList ++ files, ∃ layer, (read tree file).value = .ok layer) →
      (∀ override ∈ overrides, override.1.Accepts override.2) →
      ∃ tables snapshot,
        List.Forall₂ (fun file table => (readTable tree file).value = .ok table)
          (path.toList ++ files) tables ∧
        (Snapshot.load tree directory files (overrideTable overrides)).value = .ok snapshot ∧
        snapshot.sources = path.toList ++ files ∧
        ∀ setting : Setting, snapshot.value setting = Value.lastSet
          (Draft.defaults.value setting ::
            (tables.map setting.inTable ++ overrides.map setting.inOverride))) ∧
    (∀ (tree other : Tree) (path standalone : Path) (document : Table),
      path.name = sharedName → standalone.name ≠ sharedName →
      (readDocument tree path).value = .ok document →
      (sharedTable? document = none → (read tree path).value = .ok { sources := [path] }) ∧
      ∀ table, sharedTable? document = some table →
        (readDocument other standalone).value = .ok table →
        ∀ layer : Draft, (read tree path).value = .ok { layer with sources := [path] } ↔
          (read other standalone).value = .ok { layer with sources := [standalone] }) ∧
    (∀ (tree : Tree) (directory : Path) (document : Table),
      isFile tree (directory / Path.ofString ownName) = .ok false →
      isFile tree (directory / Path.ofString sharedName) = .ok true →
      (readDocument tree (directory / Path.ofString sharedName)).value = .ok document →
      found tree (some directory) = .ok (if (sharedTable? document).isSome then
        some (directory / Path.ofString sharedName) else none)) ∧
    (∀ a b c : Draft, (a.merge b).merge c = a.merge (b.merge c)) ∧
    (∀ draft : Draft, ({} : Draft).merge draft = draft ∧ draft.merge {} = draft) ∧
    ∀ settings, (Draft.ofSnapshot (.ofSettings settings)).freeze = .ok (.ofSettings settings) := by
  refine ⟨?_, ?_, ?_, Draft.merge_assoc, fun draft => ⟨draft.empty_merge, draft.merge_empty⟩, ?_⟩
  · intro tree directory files path overrides hp hf ho
    exact exists_load hp hf ho
  · intro tree other path standalone document hn hs hd
    exact read_shared hn hs hd
  · intro tree directory document ho hs hd
    exact found_of_shared ho hs hd
  · intro settings
    exact Draft.freeze_ofSnapshot (ofSettings_value_ne settings)

/-- Two files that set the same end marker, the first of them in its settings table. -/
def sharedTree : Tree :=
  ⟨[], [(["pyproject.toml"],
      .file (Utf8.encode "[tool.profmark.markers]\nend = \"E();\"\n".toList)),
    (["more.toml"], .file (Utf8.encode "[markers]\nend = \"E();\"\n".toList))]⟩

def endTable : Table :=
  [("markers", .table [("end", .text "E();")])]

theorem sharedTree_shared :
    ∃ bytes, sharedTree.read ⟨0, ["pyproject.toml"]⟩ = .ok (["pyproject.toml"], bytes) ∧
      (readDocument sharedTree ⟨0, ["pyproject.toml"]⟩).value =
        .ok [("tool", .table [("profmark", .table endTable)])] := by
  have hr : sharedTree.read ⟨0, ["pyproject.toml"]⟩ = .ok (["pyproject.toml"], _) :=
    Tree.read_name (by decide) (by decide) (by decide) (by decide +kernel) (by decide +kernel) rfl
  refine ⟨_, hr, ?_⟩
  rw [readDocument_encode hr (by decide +kernel), parse, Toml.parse]
  simp only [String.reduceToList]
  rfl

theorem sharedTree_more :
    (readDocument sharedTree ⟨0, ["more.toml"]⟩).value = .ok endTable := by
  have hr : sharedTree.read ⟨0, ["more.toml"]⟩ = .ok (["more.toml"], _) :=
    Tree.read_name (by decide) (by decide) (by decide) (by decide +kernel) (by decide +kernel) rfl
  rw [readDocument_encode hr (by decide +kernel), parse, Toml.parse]
  simp only [String.reduceToList]
  rfl

theorem sharedTree_own : isFile sharedTree ⟨0, ["profmark.toml"]⟩ = .ok false := by
  have hf : sharedTree.find ⟨0, ["profmark.toml"]⟩ = .error .notFound :=
    Tree.find_absent (by decide) (by decide) (by decide) (by decide +kernel) (by decide +kernel) rfl
  rw [isFile, Tree.isFile, Tree.leadsTo, hf]
  rfl

/-- A shared file is found and a further one added, and of two overrides one sets something. -/
theorem Snapshot.load_lastSet_shared :
    ∃ (tree : Tree) (snapshot : Snapshot),
      (Snapshot.load tree (some ⟨0, []⟩) [⟨0, ["more.toml"]⟩]
        (overrideTable [(.indentUnit, .text "  "), (.encoding, .missing)])).value = .ok snapshot ∧
      snapshot.sources = [⟨0, ["pyproject.toml"]⟩, ⟨0, ["more.toml"]⟩] ∧
      snapshot.indentUnit = .text "  " ∧
      ∀ layer : Draft, (read tree ⟨0, ["pyproject.toml"]⟩).value =
          .ok { layer with sources := [⟨0, ["pyproject.toml"]⟩] } ↔
        (read tree ⟨0, ["more.toml"]⟩).value =
          .ok { layer with sources := [⟨0, ["more.toml"]⟩] } := by
  obtain ⟨bytes, hr, hd⟩ := sharedTree_shared
  have hown : (⟨0, []⟩ : Path) / Path.ofString ownName = ⟨0, ["profmark.toml"]⟩ := by decide +kernel
  have hshared : (⟨0, []⟩ : Path) / Path.ofString sharedName = ⟨0, ["pyproject.toml"]⟩ := by
    decide +kernel
  have hfound := load_lastSet.2.2.1 sharedTree ⟨0, []⟩ _ (hown ▸ sharedTree_own)
    (hshared ▸ isFile_of_read hr) (hshared ▸ hd)
  rw [hshared] at hfound
  have hlayers := (load_lastSet.2.1 sharedTree sharedTree ⟨0, ["pyproject.toml"]⟩
    ⟨0, ["more.toml"]⟩ _ rfl (by decide) hd).2 endTable rfl sharedTree_more
  obtain ⟨_, snapshot, -, hl, hs, hv⟩ := load_lastSet.1 sharedTree (some ⟨0, []⟩)
    [⟨0, ["more.toml"]⟩] _ [(.indentUnit, .text "  "), (.encoding, .missing)] hfound
    (List.forall_mem_cons.2 ⟨⟨_, read_of_document hd⟩,
      List.forall_mem_singleton.2 ⟨_, read_of_document sharedTree_more⟩⟩)
    (List.forall_mem_cons.2 ⟨Setting.accepts_of_single rfl _,
      List.forall_mem_singleton.2 (Setting.accepts_of_single rfl _)⟩)
  refine ⟨sharedTree, snapshot, hl, hs, ?_, hlayers⟩
  rw [show snapshot.indentUnit = snapshot.value .indentUnit from rfl, hv, Value.lastSet_cons,
    Value.lastSet_append]
  rfl

end MethodMarkers
