import MethodMarkers.Proofs.CommandExit
import MethodMarkers.Proofs.SettingPrecedence

namespace MethodMarkers
open Text
open Toml (Value Table)

variable {tree : Tree} {path : Path} {paths files : List Path} {directory : Option Path}
  {fault : LoadFault} {place : Location} {bytes : List UInt8} {text : List Char} {document : Table}

namespace SettingsFile

/-- The faults of a file that are not reported as faults of settings. -/
inductive Escapes (tree : Tree) (path : Path) : LoadFault → Prop where
  | nulInName : path.hasNul = true → Escapes tree path (.closed .nulInName)
  | undecodable {place : Location} {bytes : List UInt8} {fault : CodingFault} :
      tree.read path = .ok (place, bytes) → Utf8.decode bytes = .error fault →
      Escapes tree path (.coding fault)
  | clash {place : Location} {bytes : List UInt8} {text : List Char} {clash : Toml.Clash} :
      tree.read path = .ok (place, bytes) → Utf8.decode bytes = .ok text →
      Toml.parse (String.ofList (unifyNewlines text)) = .error (.clash clash) →
      Escapes tree path (.clash clash)

theorem read_eq_nulInName_iff : tree.read path = .error .nulInName ↔ path.hasNul = true := by
  unfold Tree.read
  split
  · next h => exact ⟨fun _ => h, fun _ => rfl⟩
  · next h =>
    refine ⟨fun he => ?_, fun hn => absurd hn h⟩
    split at he <;> cases he

theorem Escapes.readDocument_eq (h : Escapes tree path fault) :
    (readDocument tree path).value = .error fault := by
  cases h with
  | nulInName h => simp only [readDocument, read_eq_nulInName_iff.2 h, Traced.value_pure]
  | undecodable hr hd => simp only [readDocument, hr, hd, Traced.value_pure]
  | clash hr hd hp =>
    rw [readDocument_value hr hd, parse, hp]

theorem Escapes.read_eq (h : Escapes tree path fault) : (read tree path).value = .error fault :=
  read_of_document_error h.readDocument_eq

theorem Escapes.ne_settings (h : Escapes tree path fault) (of : SettingsFault) :
    fault ≠ .settings of := by
  cases h <;> exact nofun

theorem readDocument_cases (tree : Tree) (path : Path) :
    (∃ document, (readDocument tree path).value = .ok document) ∨
      (∃ fault, (readDocument tree path).value = .error (.settings fault)) ∨
      ∃ fault, Escapes tree path fault := by
  cases hr : tree.read path with
  | error fault =>
    cases fault with
    | refused fault =>
      refine .inr (.inl ⟨.unreadable path fault, ?_⟩)
      simp only [readDocument, hr, Traced.value_pure]
    | nulInName => exact .inr (.inr ⟨_, .nulInName (read_eq_nulInName_iff.1 hr)⟩)
  | ok content =>
    obtain ⟨place, bytes⟩ := content
    cases hd : Utf8.decode bytes with
    | error fault => exact .inr (.inr ⟨_, .undecodable hr hd⟩)
    | ok text =>
      rw [readDocument_value hr hd, parse]
      split
      · exact .inl ⟨_, rfl⟩
      · exact .inr (.inl ⟨_, rfl⟩)
      · next hp => exact .inr (.inr ⟨_, .clash hr hd hp⟩)

theorem layerOf_error {table : Table} (h : layerOf path table = .error fault) :
    ∃ of, fault = .settings of := by
  unfold layerOf at h
  split at h
  · cases h
    exact ⟨_, rfl⟩
  · cases h

theorem read_eq_error_iff (hn : ∀ of, fault ≠ .settings of) :
    (read tree path).value = .error fault ↔ Escapes tree path fault := by
  refine ⟨fun h => ?_, Escapes.read_eq⟩
  rcases readDocument_cases tree path with ⟨document, hd⟩ | ⟨of, hd⟩ | ⟨other, he⟩
  · rw [read_of_document hd] at h
    obtain ⟨of, rfl⟩ := layerOf_error h
    exact absurd rfl (hn of)
  · rw [read_of_document_error hd] at h
    cases h
    exact absurd rfl (hn of)
  · rw [he.read_eq] at h
    cases h
    exact he

def FirstFault (tree : Tree) (paths : List Path) (fault : LoadFault) : Prop :=
  ∃ done path rest, paths = done ++ path :: rest ∧
    (∀ file ∈ done, ∃ layer, (read tree file).value = .ok layer) ∧
    (read tree path).value = .error fault

theorem FirstFault.cons {layer : Draft} (hl : (read tree path).value = .ok layer)
    (h : FirstFault tree paths fault) : FirstFault tree (path :: paths) fault := by
  obtain ⟨done, file, rest, rfl, hd, hf⟩ := h
  exact ⟨path :: done, file, rest, rfl, List.forall_mem_cons.2 ⟨⟨layer, hl⟩, hd⟩, hf⟩

theorem firstFault_cons_iff {layer : Draft} (hl : (read tree path).value = .ok layer) :
    FirstFault tree (path :: paths) fault ↔ FirstFault tree paths fault := by
  refine ⟨?_, .cons hl⟩
  rintro ⟨done, file, rest, hp, hd, hf⟩
  cases done with
  | nil =>
    cases hp
    rw [hl] at hf
    cases hf
  | cons first done =>
    cases hp
    exact ⟨done, file, rest, rfl, (List.forall_mem_cons.1 hd).2, hf⟩

theorem layers_eq_error_iff : layers tree paths = .error fault ↔ FirstFault tree paths fault := by
  induction paths with
  | nil => exact ⟨nofun, fun ⟨done, _, _, h, _⟩ => by simp at h⟩
  | cons path paths ih =>
    rw [layers_cons]
    cases hl : (read tree path).value with
    | error other =>
      refine ⟨fun h => ?_, fun ⟨done, file, rest, hp, hd, hf⟩ => ?_⟩
      · cases h
        exact ⟨[], path, paths, rfl, nofun, hl⟩
      · cases done with
        | nil =>
          cases hp
          rw [← hl, hf]
          rfl
        | cons first done =>
          cases hp
          obtain ⟨layer, hfirst⟩ := (List.forall_mem_cons.1 hd).1
          rw [hl] at hfirst
          cases hfirst
    | ok layer =>
      rw [firstFault_cons_iff hl, ← ih]
      cases layers tree paths with
      | error other => exact Iff.rfl
      | ok drafts => exact ⟨nofun, nofun⟩

/-- The file that is looked into for settings without being named, whether it has any or not. -/
def consulted (tree : Tree) (directory : Option Path) : Except LoadFault (Option Path) :=
  match directory with
  | none => .ok none
  | some directory =>
    match isFile tree (directory / Path.ofString ownName) with
    | .error fault => .error fault
    | .ok true => .ok (some (directory / Path.ofString ownName))
    | .ok false =>
      match isFile tree (directory / Path.ofString sharedName) with
      | .error fault => .error fault
      | .ok true => .ok (some (directory / Path.ofString sharedName))
      | .ok false => .ok none

theorem isFile_eq_error_iff :
    isFile tree path = .error fault ↔
      fault = .closed (.refused (.of .nameTooLong path)) ∧
      tree.find path = .error .nameTooLong := by
  unfold isFile Tree.isFile Tree.leadsTo
  cases tree.find path with
  | ok found => exact ⟨nofun, fun h => nomatch h.2⟩
  | error cause =>
    cases cause with
    | nameTooLong => exact ⟨fun h => by cases h; exact ⟨rfl, rfl⟩, fun h => h.1 ▸ rfl⟩
    | notFound | notDirectory | isDirectory | tooManyLinks =>
      exact ⟨nofun, fun h => nomatch h.2⟩

theorem consulted_error (h : consulted tree directory = .error fault) :
    ∃ path, fault = .closed (.refused (.of .nameTooLong path)) := by
  unfold consulted at h
  split at h
  · cases h
  · split at h
    · next he =>
      cases h
      exact ⟨_, (isFile_eq_error_iff.1 he).1⟩
    · cases h
    · split at h
      · next he =>
        cases h
        exact ⟨_, (isFile_eq_error_iff.1 he).1⟩
      · cases h
      · cases h

def kept (tree : Tree) (path : Path) : Except LoadFault (Option Path) :=
  if path.name = sharedName then
    (readDocument tree path).value.map fun document =>
      if (sharedTable? document).isSome then some path else none
  else .ok (some path)

theorem found_eq (tree : Tree) (directory : Option Path) :
    found tree directory = (do
      match ← consulted tree directory with
      | none => pure none
      | some path => kept tree path) := by
  cases directory with
  | none => rfl
  | some directory =>
    simp only [found, consulted, discover, bind, Except.bind]
    cases isFile tree (directory / Path.ofString ownName) with
    | error fault => rfl
    | ok own =>
      cases own with
      | true => exact (if_neg (by rw [name_own]; decide)).symm
      | false =>
        cases isFile tree (directory / Path.ofString sharedName) with
        | error fault => rfl
        | ok shared =>
          cases shared with
          | false => rfl
          | true =>
            simp only [kept, name_shared, if_true]
            cases (readDocument tree (directory / Path.ofString sharedName)).value <;> rfl

theorem kept_layers_eq_error_iff :
    (do let found ← kept tree path; layers tree (found.toList ++ files)) = .error fault ↔
      FirstFault tree (path :: files) fault := by
  rw [← layers_eq_error_iff]
  unfold kept
  by_cases hn : path.name = sharedName
  · rw [if_pos hn]
    cases hd : (readDocument tree path).value with
    | error other =>
      rw [layers_cons, read_of_document_error hd]
      exact Iff.rfl
    | ok document =>
      cases ht : sharedTable? document with
      | some table => simp [Except.map, ht, bind, Except.bind]
      | none =>
        have hread : (read tree path).value = .ok { sources := [path] } := by
          rw [read_of_document hd, tableOf, if_pos hn, ht]
          rfl
        rw [layers_eq_error_iff, firstFault_cons_iff hread, ← layers_eq_error_iff]
        simp [Except.map, ht, bind, Except.bind]
  · rw [if_neg hn]
    exact Iff.rfl

end SettingsFile

open SettingsFile

theorem Snapshot.load_nil_eq_error_iff :
    (Snapshot.load tree directory files (overrideTable [])).value = .error fault ↔
      (do let path ← found tree directory; layers tree (path.toList ++ files)) = .error fault := by
  have hload := load_value tree directory files []
  cases hf : found tree directory with
  | error other =>
    rw [hload, hf]
    simp only [bind, Except.bind, Except.error.injEq]
  | ok path =>
    cases hl : layers tree (path.toList ++ files) with
    | error other =>
      rw [hload, hf]
      simp only [bind, Except.bind, hl, Except.error.injEq]
    | ok drafts =>
      obtain ⟨_, snapshot, -, hok, -⟩ :=
        exists_load hf (forall_read_of_layers hl) (List.forall_mem_nil _)
      rw [hok]
      simp only [bind, Except.bind, hl]
      exact ⟨nofun, nofun⟩

/-- What fails first is looking for the settings file of the directory, then the first file that has
a fault. -/
theorem Settings.load_eq_error_iff :
    (Settings.load tree directory files).value = .error fault ↔
      consulted tree directory = .error fault ∨ ∃ path, consulted tree directory = .ok path ∧
        FirstFault tree (path.toList ++ files) fault := by
  have hmap : (Settings.load tree directory files).value = .error fault ↔
      (Snapshot.load tree directory files (overrideTable [])).value = .error fault := by
    rw [load_snapshot]
    cases (Snapshot.load tree directory files (overrideTable [])).value with
    | error other => simp only [Except.map, Except.error.injEq]
    | ok snapshot => exact ⟨nofun, nofun⟩
  rw [hmap, Snapshot.load_nil_eq_error_iff, found_eq]
  cases hc : consulted tree directory with
  | error other =>
    simp only [bind, Except.bind, Except.error.injEq, reduceCtorEq, false_and, exists_false,
      or_false]
  | ok path =>
    simp only [reduceCtorEq, false_or, Except.ok.injEq, exists_eq_left']
    cases path with
    | none => exact layers_eq_error_iff
    | some path => exact kept_layers_eq_error_iff

theorem SettingsFile.Escapes.ofLoad_exit_ne (h : Escapes tree path fault) :
    (Failure.ofLoad fault).exit ≠ .settings := by
  cases h with
  | nulInName => exact nofun
  | undecodable => exact fun he => absurd (he ▸ Failure.ofCoding_exit_mem _) (by decide)
  | clash => exact nofun

theorem Settings.exit_of_load_error (h : (Settings.load tree directory files).value = .error fault)
    (he : (Failure.ofLoad fault).exit = .settings) : ∃ of, fault = .settings of := by
  rcases load_eq_error_iff.1 h with hc | ⟨path, -, -, file, -, -, -, hf⟩
  · obtain ⟨path, rfl⟩ := consulted_error hc
    exact absurd (he ▸ Failure.ofOpen_exit_mem _) (by decide)
  · by_contra hn
    exact ((read_eq_error_iff (not_exists.1 hn)).1 hf).ofLoad_exit_ne he

/-- Loading ends with a fault that is not reported as one of settings if a name is too long to look
for, or if such a fault is in a file and no file before it has a fault. The command tells bad
settings from other failures by that. -/
theorem Settings.load_reported_iff (tree : Tree) :
    (∀ (directory : Option Path) (files : List Path) (fault : LoadFault),
      ((Settings.load tree directory files).value = .error fault ∧ ∀ of, fault ≠ .settings of) ↔
        (∃ path, fault = .closed (.refused (.of .nameTooLong path)) ∧
          consulted tree directory = .error fault) ∨
        ∃ path done file rest, consulted tree directory = .ok path ∧
          path.toList ++ files = done ++ file :: rest ∧
          (∀ earlier ∈ done, ∃ layer, (read tree earlier).value = .ok layer) ∧
          Escapes tree file fault) ∧
    ∀ (surroundings : CommandLine.Surroundings) (arguments : List String),
      (CommandLine.run surroundings tree arguments).exit = 78 ↔
        ∃ options : CommandLine.Options, options.Runs arguments ∧
          (∃ level, CommandLine.shownLevel surroundings = .ok level) ∧
          (options.verbose = 0 ∨ options.quiet = 0) ∧
          ∃ fault, (options.load tree).value = .error (.settings fault) := by
  constructor
  · intro directory files fault
    rw [load_eq_error_iff]
    constructor
    · rintro ⟨hc | ⟨path, hc, done, file, rest, hp, hd, hf⟩, hn⟩
      · obtain ⟨path, hpath⟩ := consulted_error hc
        exact .inl ⟨path, hpath, hc⟩
      · exact .inr ⟨path, done, file, rest, hc, hp, hd, (read_eq_error_iff hn).1 hf⟩
    · rintro (⟨path, rfl, hc⟩ | ⟨path, done, file, rest, hc, hp, hd, he⟩)
      · exact ⟨.inl hc, nofun⟩
      · exact ⟨.inr ⟨path, hc, done, file, rest, hp, hd, he.read_eq⟩, he.ne_settings⟩
  · intro surroundings arguments
    rw [show 78 = Exit.settings.code from rfl, CommandLine.run_exit_eq_code_iff (by decide)]
    constructor
    · rintro ⟨options, hruns, he⟩
      rcases options.exit_cases surroundings tree with
        h | ⟨hs, ⟨-, -, h⟩ | ⟨hvq, ⟨fault, hl, h⟩ | h | ⟨settings, hready⟩⟩⟩
      · exact absurd (h.symm.trans he) nofun
      · exact absurd (h.symm.trans he) nofun
      · obtain ⟨of, rfl⟩ := exit_of_load_error hl (h.symm.trans he)
        exact ⟨options, hruns, hs, hvq, of, hl⟩
      · exact absurd (h.symm.trans he) nofun
      · rw [hready.exit_eq] at he
        split at he
        · cases he
        · exact absurd he (CommandLine.targetExit_ne_of_notMem (by decide))
    · rintro ⟨options, hruns, hs, hvq, fault, hl⟩
      exact ⟨options, hruns, CommandLine.Options.exit_of_load_error hs hvq hl⟩

/-- Bytes that are no text are not reported as a fault of settings. -/
theorem Settings.load_undecodable :
    ∃ fault, (Settings.load ⟨[], [(["bad.toml"], .file [0xFF])]⟩ none
      [Path.ofString "bad.toml"]).value = .error (.coding fault) := by
  have hname : Path.ofString "bad.toml" = ⟨0, ["bad.toml"]⟩ := by decide +kernel
  have hr : Tree.read ⟨[], [(["bad.toml"], .file [0xFF])]⟩ ⟨0, ["bad.toml"]⟩ =
      .ok (["bad.toml"], [0xFF]) :=
    Tree.read_name (by decide) (by decide) (by decide) (by decide +kernel) (by decide +kernel) rfl
  have hd : Utf8.decode [0xFF] =
      .error (.undecodable "utf-8" (some 0xFF) 0 0 "invalid start byte") := by
    decide
  rw [hname]
  exact ⟨_, load_eq_error_iff.2 (.inr ⟨none, rfl, [], _, [], rfl, nofun,
    (Escapes.undecodable hr hd).read_eq⟩)⟩

end MethodMarkers
