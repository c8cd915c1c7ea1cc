import MethodMarkers.Proofs.CommandExit
import MethodMarkers.Proofs.DocumentRoundTrip
import MethodMarkers.Proofs.SettingKinds

namespace MethodMarkers
open Text
open Toml (Value Table)

variable {settings : Settings} {tree : Tree} {directory : Path} {place : Location}

namespace Settings

def sections (settings : Settings) : List (String × Table) :=
  [("markers",
      [("begin", .text settings.markers.beginSample), ("end", .text settings.markers.endSample),
       ("indent_unit", .text settings.markers.indentUnit)]),
   ("scanner", [("iterator_markers", .ofTexts settings.iteratorMarkers)]),
   ("files",
      [("extensions", .ofTexts settings.extensions),
       ("include_patterns", .ofTexts settings.includePatterns),
       ("exclude_patterns", .ofTexts settings.excludePatterns),
       ("encoding", .text settings.encoding)])]

theorem table_eq (settings : Settings) : settings.table = Toml.ofSections settings.sections :=
  rfl

theorem sectioned (settings : Settings) : Toml.Sectioned settings.sections where
  distinct := by
    change ["markers", "scanner", "files"].Nodup
    decide
  keys part hp := by
    simp only [sections, List.mem_cons, List.not_mem_nil, or_false] at hp
    rcases hp with rfl | rfl | rfl
    · change ["begin", "end", "indent_unit"].Nodup
      decide
    · exact List.nodup_singleton _
    · change ["extensions", "include_patterns", "exclude_patterns", "encoding"].Nodup
      decide
  flat part hp entry he := by
    simp only [sections, List.mem_cons, List.not_mem_nil, or_false] at hp
    rcases hp with rfl | rfl | rfl
    · simp only [List.mem_cons, List.not_mem_nil, or_false] at he
      rcases he with rfl | rfl | rfl
      · exact .text _
      · exact .text _
      · exact .text _
    · simp only [List.mem_cons, List.not_mem_nil, or_false] at he
      subst he
      exact .texts _
    · simp only [List.mem_cons, List.not_mem_nil, or_false] at he
      rcases he with rfl | rfl | rfl | rfl
      · exact .texts _
      · exact .texts _
      · exact .texts _
      · exact .text _

theorem parse_document (settings : Settings) :
    Toml.parse settings.document = .ok settings.table ∧
      ∀ c ∈ settings.document.toList, Toml.isPlain c = true ∨ c = '\n' := by
  obtain ⟨text, hp, hr, hc⟩ := Toml.parse_print? settings.sectioned
  have hdocument : settings.document = text := by
    rw [document, table_eq, hp]
    rfl
  rw [hdocument, table_eq]
  exact ⟨hr, hc⟩

theorem table_warnings (settings : Settings) (origin : String) :
    SettingsTable.warnings origin settings.table = [] := by
  rfl

open SettingsTable in
theorem draft_table (h : ∀ s ∈ settings.extensions, NormalExtension s) :
    draft settings.table =
      .ok (Draft.ofSnapshot (.ofSettings { settings with sources := [] })) := by
  have hextensions : settings.extensions.map normalizeExtension = settings.extensions :=
    (List.map_congr_left fun s hs => (h s hs).normalizeExtension_eq).trans (List.map_id _)
  have hmarkers : tableAt settings.table "markers" =
      .ok [("begin", .text settings.markers.beginSample), ("end", .text settings.markers.endSample),
        ("indent_unit", .text settings.markers.indentUnit)] := rfl
  have hscanner : tableAt settings.table "scanner" =
      .ok [("iterator_markers", .ofTexts settings.iteratorMarkers)] := rfl
  have hfiles : tableAt settings.table "files" =
      .ok [("extensions", .ofTexts settings.extensions),
        ("include_patterns", .ofTexts settings.includePatterns),
        ("exclude_patterns", .ofTexts settings.excludePatterns),
        ("encoding", .text settings.encoding)] := rfl
  rw [draft, hmarkers, hscanner, hfiles]
  simp only [bind, Except.bind]
  rw [textsAt?_of_get "extensions" rfl, textsAt?_of_get "iterator_markers" rfl,
    textsAt?_of_get "include_patterns" rfl, textsAt?_of_get "exclude_patterns" rfl]
  simp only [Option.map_some, hextensions]
  rfl

theorem read_table (h : ∀ s ∈ settings.extensions, NormalExtension s) :
    (SettingsTable.read none settings.table).trace = [] ∧
      ∃ draft, (SettingsTable.read none settings.table).value = .ok draft ∧
        draft.freeze = .ok (.ofSettings { settings with sources := [] }) := by
  refine ⟨?_, _, ?_, Draft.freeze_ofSnapshot (Snapshot.ofSettings_value_ne _)⟩
  · unfold SettingsTable.read
    rw [table_warnings]
    rfl
  · unfold SettingsTable.read
    rw [draft_table h]
    rfl

end Settings

theorem Toml.Value.leadingTexts_texts (texts : List String) :
    leadingTexts (texts.map .text) = texts := by
  induction texts with
  | nil => rfl
  | cons text texts ih => exact congrArg (text :: ·) ih

theorem Snapshot.settings_ofSettings (settings : Settings) :
    (ofSettings settings).settings = settings := by
  rw [Snapshot.settings]
  simp only [ofSettings, Value.leadingTexts_texts]
  rfl

open SettingsFile

namespace Settings

theorem notMem_document {c : Char} (hp : Toml.isPlain c = false) (hn : c ≠ '\n') :
    c ∉ settings.document.toList := by
  intro hm
  rcases (parse_document settings).2 c hm with hc | hc
  · rw [hp] at hc
    cases hc
  · exact hn hc

theorem load_normal {directory : Option Path} {files : List Path}
    (h : (Settings.load tree directory files).value = .ok settings) :
    ∀ s ∈ settings.extensions, NormalExtension s := by
  rw [load_snapshot] at h
  cases hs : (Snapshot.load tree directory files (overrideTable [])).value with
  | error fault =>
    rw [hs] at h
    cases h
  | ok snapshot =>
    rw [hs] at h
    cases h
    obtain ⟨settings, rfl, hn⟩ := Snapshot.load_ofSettings (List.forall_mem_nil _) hs
    rw [Snapshot.settings_ofSettings]
    exact hn

/-- A directory whose settings file is the document of settings has these settings. -/
theorem load_document (h : ∀ s ∈ settings.extensions, NormalExtension s)
    (hr : tree.read (directory / Path.ofString ownName) =
      .ok (place, Utf8.encode settings.document.toList)) :
    (Settings.load tree (some directory) []).value =
      .ok { settings with sources := [directory / Path.ofString ownName] } := by
  have hreturn : '\r' ∉ settings.document.toList := notMem_document (by decide) (by decide)
  have hdocument : (readDocument tree (directory / Path.ofString ownName)).value =
      .ok settings.table := by
    rw [readDocument_encode hr hreturn, SettingsFile.parse, (parse_document settings).1]
  have hlayer : layers tree [directory / Path.ofString ownName] =
      .ok [{ Draft.ofSnapshot (.ofSettings { settings with sources := [] }) with
        sources := [directory / Path.ofString ownName] }] := by
    have hname : tableOf (directory / Path.ofString ownName) settings.table = settings.table :=
      if_neg (by rw [name_own]; decide)
    rw [layers_cons, read_of_document hdocument, hname, layerOf, draft_table h]
    rfl
  have hfound : found tree (some directory) = .ok (some (directory / Path.ofString ownName)) := by
    simp only [found, discover, isFile_of_read hr, Traced.value_pure]
  have hload := Snapshot.load_value tree (some directory) [] []
  rw [hfound] at hload
  simp only [bind, Except.bind, Option.toList_some, List.append_nil, hlayer] at hload
  rw [Draft.freezeWith_overrideTable rfl (List.forall_mem_nil _)] at hload
  have hmerge : ([{ Draft.ofSnapshot (.ofSettings { settings with sources := [] }) with
      sources := [directory / Path.ofString ownName] }] : List Draft).foldl Draft.merge
        Draft.defaults =
      Draft.ofSnapshot (.ofSettings
        { settings with sources := [directory / Path.ofString ownName] }) := rfl
  rw [hmerge] at hload
  have hfreeze := Draft.freeze_ofSnapshot (Snapshot.ofSettings_value_ne
    { settings with sources := [directory / Path.ofString ownName] })
  rw [load_snapshot, hload]
  simp only [List.map_nil, List.foldl_nil, hfreeze, Except.mapError, Except.map,
    Snapshot.settings_ofSettings]

end Settings

namespace Terminal

theorem dropSequences_of_notMem {cs : List Char} (h : escapeChar ∉ cs) :
    dropSequences 0 cs = cs := by
  induction cs with
  | nil => rfl
  | cons c cs ih =>
    rw [List.mem_cons, not_or] at h
    have hnone : sequenceLength? (c :: cs) = none := by
      rw [sequenceLength?]
      exact fun _ hc => h.1 (List.cons.inj hc).1.symm
    rw [dropSequences, hnone]
    exact congrArg (c :: ·) (ih h.2)

theorem stripSequences_of_notMem {text : String} (h : escapeChar ∉ text.toList) :
    stripSequences text = text := by
  rw [stripSequences, dropSequences_of_notMem h, String.ofList_toList]

theorem outputText_append (events more : List Event) :
    outputText (events ++ more) = outputText events ++ outputText more := by
  rw [outputText, List.map_append, String.join_append]
  rfl

theorem outputText_ofLogged {α : Type} (x : Logged α) :
    outputText (Session.ofLogged x).trace = "" := by
  rw [Session.ofLogged, Traced.trace_mapTrace]
  induction x.trace with
  | nil => rfl
  | cons record records ih =>
    rw [outputText, List.map_cons, List.map_cons, String.join_cons]
    exact (congrArg ("" ++ ·) ih).trans String.empty_append

theorem outputText_printed (text : String) : outputText [.printed text] = text := by
  rw [outputText, List.map_singleton, String.join_cons, String.join_nil, String.append_empty]

end Terminal

namespace CommandLine
open Terminal

variable {surroundings : Surroundings} {arguments : List String} {options : Options}

theorem perform_dump (console : Console) (hvq : options.verbose = 0 ∨ options.quiet = 0)
    (hl : (options.load tree).value = .ok settings) (hd : options.dumpConfig = true) :
    (perform options console tree).value = (.ok .success, tree) ∧
      outputText (perform options console tree).trace = settings.document := by
  have hend : settings.document ++ Console.lineEnd false = settings.document := String.append_empty
  have hescape : escapeChar ∉ settings.document.toList :=
    Settings.notMem_document (by decide) (by decide)
  have hclean : console.clean settings.document = settings.document := by
    rw [Console.clean, stripSequences_of_notMem hescape, ite_self]
  have hload : (Session.ofLogged (Settings.load tree
      (if options.noConfig then none else some tree.workingPath)
      (options.configFiles.map Path.ofString))).value = .ok settings := hl
  unfold perform
  cases hlevel : reportLevel? options.verbose options.quiet with
  | none => exact absurd hlevel (Options.reportLevel?_ne_none hvq)
  | some level =>
    simp only [Traced.value_bind, Traced.trace_bind, hload, hd, if_true, outputText_append,
      outputText_ofLogged, Console.print, Traced.trace_happen, Traced.trace_pure, Traced.value_pure,
      hend, hclean, outputText_printed, String.empty_append]
    exact ⟨trivial, String.append_empty⟩

/-- What is dumped is the document of the settings that are loaded. -/
theorem run_dump {level : Level} (hruns : options.Runs arguments)
    (hs : shownLevel surroundings = .ok level) (hvq : options.verbose = 0 ∨ options.quiet = 0)
    (hl : (options.load tree).value = .ok settings) (hd : options.dumpConfig = true) :
    (run surroundings tree arguments).exit = 0 ∧
      (run surroundings tree arguments).output = settings.document ∧
      (run surroundings tree arguments).tree = tree := by
  obtain ⟨hvalue, htrace⟩ := perform_dump ⟨surroundings.terminal && !options.noColor⟩ hvq hl hd
  unfold run
  simp only [hruns.read_eq, hruns.question_eq, hruns.hasNul_eq, hruns.extra_eq, Bool.false_eq_true,
    if_false, ne_eq, not_true_eq_false]
  unfold runOptions
  rw [hs]
  simp only [hvalue, htrace]
  exact ⟨rfl, trivial, trivial⟩

end CommandLine

/-- Settings are read back from their document, as it is dumped by the command. They are texts and
lists of texts, with suffixes in a normal form that normalising leaves alone. -/
theorem Settings.document_roundTrip :
    (∀ settings : Settings, (∀ s ∈ settings.extensions, NormalExtension s) →
      Toml.parse settings.document = .ok settings.table ∧
      (SettingsTable.read none settings.table).trace = [] ∧
      ∃ draft, (SettingsTable.read none settings.table).value = .ok draft ∧
        draft.freeze = .ok (.ofSettings { settings with sources := [] })) ∧
    (∀ extension, NormalExtension (normalizeExtension extension) ∧
      normalizeExtension (normalizeExtension extension) = normalizeExtension extension) ∧
    (∀ (tree : Tree) (directory : Option Path) (files : List Path)
        (overrides : List Setting.Override) (snapshot : Snapshot),
      (∀ override ∈ overrides, override.2 = .missing ∨ override.1.OfKind override.2) →
      (Snapshot.load tree directory files (overrideTable overrides)).value = .ok snapshot →
      ∃ settings, snapshot = .ofSettings settings ∧ ∀ s ∈ settings.extensions, NormalExtension s) ∧
    ∀ (surroundings : CommandLine.Surroundings) (tree : Tree) (arguments : List String)
        (options : CommandLine.Options) (settings : Settings) (level : Level),
      options.Runs arguments → CommandLine.shownLevel surroundings = .ok level →
      (options.verbose = 0 ∨ options.quiet = 0) → (options.load tree).value = .ok settings →
      options.dumpConfig = true →
      (CommandLine.run surroundings tree arguments).exit = 0 ∧
      (CommandLine.run surroundings tree arguments).output = settings.document ∧
      (CommandLine.run surroundings tree arguments).tree = tree ∧
      ∀ (other : Tree) (directory : Path) (place : Location),
        other.read (directory / Path.ofString ownName) =
          .ok (place, Utf8.encode settings.document.toList) →
        (Settings.load other (some directory) []).value =
          .ok { settings with sources := [directory / Path.ofString ownName] } := by
  refine ⟨?_, ?_, ?_, ?_⟩
  · intro settings h
    exact ⟨(parse_document settings).1, read_table h⟩
  · intro extension
    have h := normalExtension_normalizeExtension extension
    exact ⟨h, h.normalizeExtension_eq⟩
  · intro tree directory files overrides snapshot ho h
    exact Snapshot.load_ofSettings ho h
  · intro surroundings tree arguments options settings level hruns hs hvq hl hd
    obtain ⟨hexit, houtput, htree⟩ := CommandLine.run_dump hruns hs hvq hl hd
    exact ⟨hexit, houtput, htree, fun other directory place hr => load_document (load_normal hl) hr⟩

/-- The built-in settings are dumped in an empty directory, and read back from what was dumped. An
encoding that cannot be is read back as well. -/
theorem Settings.document_roundTrip_default :
    Toml.parse ({ encoding := "\x1b[0m\"\\\r\n" } : Settings).document =
        .ok ({ encoding := "\x1b[0m\"\\\r\n" } : Settings).table ∧
      (∃ snapshot settings, (Snapshot.load (.empty []) none [] (overrideTable
          [(.extensions, .ofTexts [" CS "]), (.encoding, .missing)])).value = .ok snapshot ∧
        snapshot = .ofSettings settings) ∧
      (CommandLine.run {} (.empty []) ["--dump-config", "--no-config"]).output =
        ({} : Settings).document ∧
      (Settings.load ⟨[], [(["profmark.toml"],
          .file (Utf8.encode ({} : Settings).document.toList))]⟩ (some ⟨0, []⟩) []).value =
        .ok { sources := [⟨0, ["profmark.toml"]⟩] } := by
  have hnormal : ∀ s ∈ [".cs"], NormalExtension s := by
    rw [List.forall_mem_singleton]
    exact ⟨by decide +kernel, by decide +kernel, rfl⟩
  have hkinds : ∀ override ∈ [(Setting.extensions, Value.ofTexts [" CS "]), (.encoding, .missing)],
      override.2 = .missing ∨ override.1.OfKind override.2 := by
    rw [List.forall_mem_cons, List.forall_mem_singleton]
    exact ⟨.inr (.texts rfl _), .inl rfl⟩
  have hfound : found (.empty []) none = .ok none := rfl
  obtain ⟨_, snapshot, -, hload, -⟩ := Snapshot.exists_load hfound (List.forall_mem_nil _)
    fun override hm => Setting.OfKind.accepts (hkinds override hm)
  obtain ⟨settings, hsettings, -⟩ := document_roundTrip.2.2.1 (.empty []) none [] _ snapshot hkinds
    hload
  have hpath : (⟨0, []⟩ : Path) / Path.ofString ownName = ⟨0, ["profmark.toml"]⟩ := by
    decide +kernel
  have hread : Tree.read ⟨[], [(["profmark.toml"],
      .file (Utf8.encode ({} : Settings).document.toList))]⟩ ⟨0, ["profmark.toml"]⟩ =
      .ok (["profmark.toml"], _) :=
    Tree.read_name (by decide) (by decide) (by decide) (by decide +kernel) (by decide +kernel) rfl
  have hruns : CommandLine.Options.Runs { dumpConfig := true, noConfig := true }
      ["--dump-config", "--no-config"] := by
    refine ⟨?_, rfl, rfl, rfl⟩
    decide +kernel
  obtain ⟨-, houtput, -, hback⟩ := document_roundTrip.2.2.2 {} (.empty [])
    ["--dump-config", "--no-config"] { dumpConfig := true, noConfig := true } {} _ hruns rfl
    (.inl rfl) rfl rfl
  have hagain := hback _ ⟨0, []⟩ _ (hpath ▸ hread)
  rw [hpath] at hagain
  exact ⟨(document_roundTrip.1 _ hnormal).1, ⟨snapshot, settings, hload, hsettings⟩, houtput,
    hagain⟩

end MethodMarkers
