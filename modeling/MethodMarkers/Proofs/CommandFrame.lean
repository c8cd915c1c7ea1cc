import MethodMarkers.CommandLine.Run
import MethodMarkers.Proofs.BatchRun
import MethodMarkers.Proofs.PathText

namespace MethodMarkers

variable {settings : Settings} {procedure : Procedure} {dryRun : Bool} {tree after : Tree}
  {path : Path} {paths : List Path} {result : FileResult}

/-- What a tree may become when only the files are written to which some paths lead: nothing comes
or goes, and every other entry stays as it is. -/
structure Tree.Confined (tree : Tree) (paths : List Path) (after : Tree) : Prop where
  alike : tree.Alike after
  elsewhere : ∀ place, (∀ path ∈ paths, tree.locate path ≠ .ok place) →
    after.get? place = tree.get? place

theorem Discovery.target_exists_of_ofTarget {target : Path} {selection : Selection}
    (h : (ofTarget tree target selection).value = .ok paths) :
    tree.isFile target = .ok true ∨ tree.isDirectory target = .ok true := by
  unfold ofTarget at h
  split at h
  · cases h
  · cases h
  · next hf _ => exact .inl hf
  · next hd => exact .inr hd
  · cases h

namespace Batch

theorem oneFile_dryRun_tree (h : (oneFile procedure true tree path).value = .ok (result, after)) :
    after = tree := by
  cases hr : (procedure.read tree path).value with
  | error fault =>
    rw [oneFile_of_read_error hr] at h
    cases h
  | ok image =>
    cases hm : (procedure.mark path image.source.lines).value with
    | error fault =>
      rw [oneFile] at h
      simp only [Traced.value_bind, hr, hm, Traced.value_pure] at h
      cases h
    | ok marked =>
      rw [oneFile_dryRun_value hr hm] at h
      cases h
      rfl

theorem files_dryRun_tree (procedure : Procedure) (tree : Tree) (paths : List Path) :
    (files procedure true tree paths).value.tree = tree := by
  induction paths with
  | nil => rfl
  | cons path paths ih =>
    unfold files
    simp only [Traced.value_bind]
    split
    · rfl
    · next result after ho =>
      rw [oneFile_dryRun_tree ho]
      exact ih

theorem files_confined (settings : Settings) (tree : Tree) (paths : List Path) :
    tree.Confined paths (files settings.procedure false tree paths).value.tree := by
  obtain ⟨done, results, after, hran, hstop⟩ := files_cases settings tree paths
  have hafter : (files settings.procedure false tree paths).value.tree = after ∧
      ∀ path ∈ done, path ∈ paths := by
    rcases hstop with ⟨rfl, hv⟩ | ⟨path, rest, fault, rfl, -, hv⟩
    · exact ⟨congrArg Run.tree hv, fun path hm => hm⟩
    · exact ⟨congrArg Run.tree hv, fun path hm => List.mem_append_left _ hm⟩
  rw [hafter.1]
  constructor
  · exact hran.alike
  · intro place hp
    exact hran.get?_eq fun path hm => hp path (hafter.2 path hm)

theorem target_dryRun_tree (procedure : Procedure) (tree : Tree) (target : String) :
    (Batch.target procedure true tree target).value.tree = tree := by
  unfold Batch.target
  simp only [Traced.value_bind]
  split
  · rfl
  · exact files_dryRun_tree procedure tree _

/-- A run over a target leaves the tree as it is, or writes to the files that are found. -/
theorem target_tree_cases (settings : Settings) (dryRun : Bool) (tree : Tree) (target : String) :
    let after := (Batch.target settings.procedure dryRun tree target).value.tree
    after = tree ∨ dryRun = false ∧ ∃ paths,
      (settings.procedure.find tree (Path.ofString target)).value = .ok paths ∧
      tree.Confined paths after := by
  intro after
  cases dryRun with
  | true => exact .inl (target_dryRun_tree settings.procedure tree target)
  | false =>
    cases hf : (settings.procedure.find tree (Path.ofString target)).value with
    | error fault =>
      left
      simp only [after, Batch.target, resolve, Traced.value_bind, hf, Traced.value_pure]
    | ok paths =>
      have hafter : after = (files settings.procedure false tree paths).value.tree :=
        congrArg Run.tree (target_value_of_find hf)
      rw [hafter]
      exact .inr ⟨rfl, paths, rfl, files_confined settings tree paths⟩

end Batch

namespace CommandLine
open Terminal

theorem processFiles_tree (settings : Settings) (options : Options) (console : Console)
    (level : Level) (tree : Tree) (paths : List Path) :
    (processFiles settings options console level tree paths).value.2 =
      (Batch.files settings.procedure options.dryRun tree paths).value.tree := by
  induction paths generalizing tree with
  | nil => rfl
  | cons path paths ih =>
    unfold processFiles Batch.files
    simp only [Traced.value_bind, Session.ofLogged, Traced.value_mapTrace]
    cases ho : (Batch.oneFile settings.procedure options.dryRun tree path).value with
    | error fault => rfl
    | ok pair => exact ih pair.2

theorem processTarget_tree (settings : Settings) (options : Options) (console : Console)
    (level : Level) (tree : Tree) (target : Path) :
    (processTarget settings options console level tree target).value.2 =
      (Batch.target settings.procedure options.dryRun tree (toString target)).value.tree := by
  unfold processTarget Batch.target
  simp only [Traced.value_bind, Session.ofLogged, Traced.value_mapTrace]
  cases hr : (Batch.resolve settings.procedure tree (toString target)).value with
  | error fault => rfl
  | ok paths =>
    rw [← processFiles_tree settings options console level tree paths]
    simp only [Traced.value_bind]
    split
    · next heq =>
      rw [heq]
      rfl
    · next heq =>
      rw [heq]
      rfl

/-- What the options must be for a target to be processed. -/
structure Options.Processes (options : Options) (target : String) : Prop where
  path_eq : options.path = some target
  /-- Neither help nor the version is asked for. -/
  question_eq : options.question = none
  extra_eq : options.extra = []
  dumpConfig_eq : options.dumpConfig = false
  verbose_or_quiet : options.verbose = 0 ∨ options.quiet = 0

def Options.load (options : Options) (tree : Tree) : Logged (Except LoadFault Settings) :=
  Settings.load tree (if options.noConfig then none else some tree.workingPath)
    (options.configFiles.map Path.ofString)

theorem verbose_or_quiet_of_reportLevel? {verbose quiet : Nat}
    (h : reportLevel? verbose quiet ≠ none) : verbose = 0 ∨ quiet = 0 := by
  unfold reportLevel? at h
  split at h <;> simp_all

/-- A tree is changed only by the run over a target, if the options ask for one. -/
theorem perform_tree_cases (options : Options) (console : Console) (tree : Tree) :
    (perform options console tree).value.2 = tree ∨ ∃ settings target,
      options.path = some target ∧ options.dumpConfig = false ∧
      (options.verbose = 0 ∨ options.quiet = 0) ∧ (options.load tree).value = .ok settings ∧
      (perform options console tree).value.2 =
        (Batch.target settings.procedure options.dryRun tree
          (toString (Path.ofString target))).value.tree := by
  unfold perform Options.load
  cases hlevel : reportLevel? options.verbose options.quiet with
  | none => exact .inl rfl
  | some level =>
    have hvq := verbose_or_quiet_of_reportLevel? (hlevel ▸ Option.some_ne_none level)
    simp only [Traced.value_bind, Session.ofLogged, Traced.value_mapTrace]
    cases hload : (Settings.load tree (if options.noConfig then none else some tree.workingPath)
        (options.configFiles.map Path.ofString)).value with
    | error fault => exact .inl rfl
    | ok settings =>
      cases hdump : options.dumpConfig with
      | true => exact .inl rfl
      | false =>
        cases hpath : options.path with
        | none => exact .inl rfl
        | some target =>
          exact .inr ⟨settings, target, rfl, rfl, hvq, rfl, processTarget_tree ..⟩

theorem runOptions_tree (surroundings : Surroundings) (tree : Tree) (options : Options) :
    (runOptions surroundings tree options).tree = tree ∨ ∃ console,
      (runOptions surroundings tree options).tree = (perform options console tree).value.2 := by
  unfold runOptions
  split
  · exact .inl rfl
  · refine .inr ⟨⟨surroundings.terminal && !options.noColor⟩, ?_⟩
    dsimp only
    split <;> next heq => rw [heq]

theorem run_tree_cases (surroundings : Surroundings) (tree : Tree) (arguments : List String) :
    (run surroundings tree arguments).tree = tree ∨ ∃ options,
      Options.ofArguments arguments = .ok options ∧ options.question = none ∧ options.extra = [] ∧
      (run surroundings tree arguments).tree = (runOptions surroundings tree options).tree := by
  unfold run
  dsimp only
  split
  · exact .inl rfl
  · next options hargs =>
    split
    · exact .inl rfl
    · exact .inl rfl
    · next hq =>
      split
      · exact .inl rfl
      · split
        · exact .inl rfl
        · next hextra => exact .inr ⟨options, hargs, hq, not_not.1 hextra, rfl⟩

/-- The command changes a tree only if it is asked to process a file or a directory, with settings
that are read without fault, and no dry run. It then changes nothing but the contents of files that
are found under that target. -/
theorem run_frame (surroundings : Surroundings) (tree : Tree) (arguments : List String) :
    let after := (run surroundings tree arguments).tree
    after = tree ∨ ∃ options target settings paths,
      Options.ofArguments arguments = .ok options ∧ options.Processes target ∧
      options.dryRun = false ∧ (options.load tree).value = .ok settings ∧
      (tree.isFile (Path.ofString target) = .ok true ∨
        tree.isDirectory (Path.ofString target) = .ok true) ∧
      (Discovery.ofTarget tree (Path.ofString target) settings.selection).value = .ok paths ∧
      tree.Confined paths after := by
  intro after
  rcases run_tree_cases surroundings tree arguments with he | ⟨options, hargs, hq, hx, hrun⟩
  · exact .inl he
  rcases runOptions_tree surroundings tree options with he | ⟨console, hperform⟩
  · exact .inl (hrun.trans he)
  rcases perform_tree_cases options console tree with
    he | ⟨settings, target, hpath, hdump, hvq, hload, htarget⟩
  · exact .inl ((hrun.trans hperform).trans he)
  have hafter := (hrun.trans hperform).trans htarget
  rcases Batch.target_tree_cases settings options.dryRun tree
    (toString (Path.ofString target)) with he | ⟨hdry, paths, hfind, hconfined⟩
  · exact .inl (hafter.trans he)
  right
  rw [(Path.ofString_canonical target).ofString_toString] at hfind
  rw [← hafter] at hconfined
  exact ⟨options, target, settings, paths, hargs, ⟨hpath, hq, hx, hdump, hvq⟩, hdry, hload,
    Discovery.target_exists_of_ofTarget hfind, hfind, hconfined⟩

end CommandLine

end MethodMarkers
