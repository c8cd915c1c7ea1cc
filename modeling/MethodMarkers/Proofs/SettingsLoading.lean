import MethodMarkers.Proofs.OverrideLayers
import MethodMarkers.Proofs.Utf8RoundTrip
import MethodMarkers.SettingsFile

namespace MethodMarkers
open Text
open Toml (Value Table)

variable {tree : Tree} {path : Path} {paths : List Path} {directory : Option Path}
  {files : List Path}
  {overrides : List Setting.Override} {table document : Table} {layer : Draft} {place : Location}
  {bytes : List UInt8} {text : List Char}

theorem Text.unifyNewlines_of_notMem (h : '\r' ∉ text) : unifyNewlines text = text := by
  induction text with
  | nil => rfl
  | cons c text ih =>
    rw [List.mem_cons, not_or] at h
    rw [unifyNewlines, ih h.2]
    · exact fun cs hc _ => h.1 hc.symm
    · exact fun hc => h.1 hc.symm

namespace SettingsFile

def layerOf (path : Path) (table : Table) : Except LoadFault Draft :=
  match SettingsTable.draft table with
  | .error fault => .error (.settings (.wrongKind (toString path) fault))
  | .ok layer => .ok { layer with sources := [path] }

theorem readDocument_value (hr : tree.read path = .ok (place, bytes))
    (hd : Utf8.decode bytes = .ok text) :
    (readDocument tree path).value =
      parse (toString path) (String.ofList (unifyNewlines text)) := by
  unfold readDocument
  rw [hr]
  simp only [hd]
  cases parse (toString path) (String.ofList (unifyNewlines text)) <;> rfl

theorem readDocument_encode {content : String}
    (hr : tree.read path = .ok (place, Utf8.encode content.toList)) (hc : '\r' ∉ content.toList) :
    (readDocument tree path).value = parse (toString path) content := by
  rw [readDocument_value hr (Utf8.decode_encode content.toList), unifyNewlines_of_notMem hc,
    String.ofList_toList]

theorem isFile_of_read (h : tree.read path = .ok (place, bytes)) : isFile tree path = .ok true := by
  obtain ⟨-, hl, hg⟩ := Tree.read_eq_ok_iff.1 h
  rw [isFile, Tree.isFile, Tree.leadsTo, Tree.find_of_locate hl, hg]
  rfl

/-- The settings table of a document: a part of it if the file is a shared one. -/
def tableOf (path : Path) (document : Table) : Table :=
  if path.name = sharedName then (sharedTable? document).getD [] else document

theorem readTable_value (tree : Tree) (path : Path) :
    (readTable tree path).value = (readDocument tree path).value.map (tableOf path) := by
  unfold readTable tableOf
  simp only [Traced.value_bind]
  cases (readDocument tree path).value with
  | error fault => rfl
  | ok document =>
    simp only [Except.map]
    split
    · cases sharedTable? document <;> rfl
    · rfl

theorem read_value (tree : Tree) (path : Path) :
    (read tree path).value = (readTable tree path).value >>= layerOf path := by
  unfold read layerOf SettingsTable.read
  simp only [Traced.value_bind]
  cases (readTable tree path).value with
  | error fault => rfl
  | ok table =>
    simp only [Traced.value_pure, bind, Except.bind]
    cases SettingsTable.draft table <;> rfl

theorem read_of_document (h : (readDocument tree path).value = .ok document) :
    (read tree path).value = layerOf path (tableOf path document) := by
  rw [read_value, readTable_value, h]
  rfl

theorem read_of_document_error {fault : LoadFault}
    (h : (readDocument tree path).value = .error fault) :
    (read tree path).value = .error fault := by
  rw [read_value, readTable_value, h]
  rfl

def layers (tree : Tree) (paths : List Path) : Except LoadFault (List Draft) :=
  paths.mapM fun path => (read tree path).value

theorem layers_cons (tree : Tree) (path : Path) (paths : List Path) :
    layers tree (path :: paths) = (do
      let layer ← (read tree path).value
      let rest ← layers tree paths
      pure (layer :: rest)) :=
  List.mapM_cons

theorem forall_read_of_layers {drafts : List Draft}
    (h : layers tree paths = .ok drafts) :
    ∀ path ∈ paths, ∃ layer, (read tree path).value = .ok layer := by
  induction paths generalizing drafts with
  | nil => exact nofun
  | cons path paths ih =>
    rw [layers_cons, bind_eq_ok_iff] at h
    obtain ⟨layer, hl, h⟩ := h
    rw [bind_eq_ok_iff] at h
    obtain ⟨rest, hr, -⟩ := h
    exact List.forall_mem_cons.2 ⟨⟨layer, hl⟩, ih hr⟩

theorem mergeFiles_value (tree : Tree) (draft : Draft) (paths : List Path) :
    (mergeFiles tree draft paths).value = (layers tree paths).map (·.foldl Draft.merge draft) := by
  induction paths generalizing draft with
  | nil => rfl
  | cons path paths ih =>
    unfold mergeFiles
    rw [layers_cons]
    simp only [Traced.value_bind]
    cases (read tree path).value with
    | error fault => rfl
    | ok layer =>
      simp only [ih, bind, Except.bind]
      cases layers tree paths <;> rfl

theorem name_own (directory : Path) : (directory / Path.ofString ownName).name = ownName := by
  have hs : Path.ofString ownName = ⟨0, [ownName]⟩ := by decide +kernel
  rw [hs]
  exact List.getLastD_concat

theorem name_shared (directory : Path) :
    (directory / Path.ofString sharedName).name = sharedName := by
  have hs : Path.ofString sharedName = ⟨0, [sharedName]⟩ := by decide +kernel
  rw [hs]
  exact List.getLastD_concat

def found (tree : Tree) (directory : Option Path) : Except LoadFault (Option Path) :=
  match directory with
  | none => .ok none
  | some directory => (discover tree directory).value

theorem mergeDiscovered_value (tree : Tree) (directory : Path) (draft : Draft) :
    (mergeDiscovered tree directory draft).value = (do
      let path ← (discover tree directory).value
      (layers tree path.toList).map (·.foldl Draft.merge draft)) := by
  unfold mergeDiscovered
  simp only [Traced.value_bind]
  cases (discover tree directory).value with
  | error fault => rfl
  | ok path =>
    cases path with
    | none => rfl
    | some path =>
      simp only [bind, Except.bind, Option.toList_some]
      rw [layers_cons]
      cases (read tree path).value <;> rfl

end SettingsFile

open SettingsFile

theorem Setting.name_notMem_loadArguments (setting : Setting) :
    loadArguments.contains setting.name = false := by
  cases setting <;> decide

theorem SettingsFile.layers_append (tree : Tree) (paths more : List Path) :
    layers tree (paths ++ more) = (do
      let front ← layers tree paths
      let back ← layers tree more
      pure (front ++ back)) :=
  List.mapM_append

theorem Settings.load_snapshot (tree : Tree) (directory : Option Path) (files : List Path) :
    (Settings.load tree directory files).value =
      (Snapshot.load tree directory files (overrideTable [])).value.map Snapshot.settings :=
  rfl

/-- What is loaded is frozen from the built-in settings, the layers of all files in order, and the
overrides. The first file with a fault is what is answered. -/
theorem Snapshot.load_value_of_names {overrides : Table} (tree : Tree) (directory : Option Path)
    (files : List Path) (hnames : overrides.find? (loadArguments.contains ·.1) = none) :
    (Snapshot.load tree directory files overrides).value = (do
      let path ← found tree directory
      let layers ← layers tree (path.toList ++ files)
      ((layers.foldl Draft.merge Draft.defaults).freezeWith overrides).mapError .override) := by
  unfold Snapshot.load
  rw [hnames]
  cases directory with
  | none =>
    simp only [found, Traced.value_pure, mergeFiles_value, Option.toList_none, List.nil_append,
      bind, Except.bind]
    cases layers tree files with
    | error fault => rfl
    | ok back =>
      simp only [Except.map]
      cases (back.foldl Draft.merge Draft.defaults).freezeWith overrides <;> rfl
  | some directory =>
    simp only [found, mergeDiscovered_value, bind, Except.bind]
    cases (discover tree directory).value with
    | error fault => rfl
    | ok path =>
      simp only [layers_append, bind, Except.bind]
      cases layers tree path.toList with
      | error fault => rfl
      | ok front =>
        simp only [Except.map, mergeFiles_value]
        cases layers tree files with
        | error fault => rfl
        | ok back =>
          simp only [pure, Except.pure, List.foldl_append]
          cases (back.foldl Draft.merge (front.foldl Draft.merge Draft.defaults)).freezeWith
            overrides <;> rfl

theorem Snapshot.load_value (tree : Tree) (directory : Option Path) (files : List Path)
    (overrides : List Setting.Override) :
    (Snapshot.load tree directory files (overrideTable overrides)).value = (do
      let path ← found tree directory
      let layers ← layers tree (path.toList ++ files)
      ((layers.foldl Draft.merge Draft.defaults).freezeWith (overrideTable overrides)).mapError
        .override) :=
  load_value_of_names tree directory files (find?_overrideTable overrides
    fun setting _ => setting.name_notMem_loadArguments)

end MethodMarkers
