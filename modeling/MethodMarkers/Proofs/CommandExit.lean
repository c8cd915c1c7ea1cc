import MethodMarkers.Proofs.CommandFrame

namespace MethodMarkers

theorem Exit.code_injective : Function.Injective Exit.code := by
  intro a b h
  cases a <;> cases b <;> first | rfl | cases h

def Exit.ofFiles : List Exit :=
  [.encoding, .fileNotFound, .system, .permissionDenied, .unexpected]

def Run.completed (run : Run) : Except BatchFault (List FileResult) :=
  match run.fault with
  | some fault => .error fault
  | none => .ok run.results

namespace Failure

theorem ofSystem_exit_mem (fault : SystemFault) : (ofSystem fault).exit ∈ Exit.ofFiles := by
  unfold ofSystem
  dsimp only
  split <;> simp [Exit.ofFiles]

theorem ofCoding_exit_mem (fault : Text.CodingFault) : (ofCoding fault).exit ∈ Exit.ofFiles := by
  cases fault <;> simp [ofCoding, unexpected, encoding, Exit.ofFiles]

theorem unexpected_exit_mem (message : String) : (unexpected message).exit ∈ Exit.ofFiles := by
  simp [unexpected, Exit.ofFiles]

theorem ofOpen_exit_mem (fault : OpenFault) : (ofOpen fault).exit ∈ Exit.ofFiles := by
  cases fault with
  | refused fault => exact ofSystem_exit_mem fault
  | nulInName => exact unexpected_exit_mem _

theorem ofBatch_exit_mem (fault : BatchFault) : (ofBatch fault).exit ∈ Exit.ofFiles := by
  cases fault with
  | discovery fault =>
    cases fault with
    | invalidPath path => simp [ofBatch, ofDiscovery, Exit.ofFiles]
    | refused fault => exact ofSystem_exit_mem fault
    | pattern fault => exact unexpected_exit_mem _
    | misuse fault => exact unexpected_exit_mem _
  | file fault =>
    cases fault with
    | closed fault => exact ofOpen_exit_mem fault
    | coding fault => exact ofCoding_exit_mem fault
    | misuse fault => exact unexpected_exit_mem _
  | block fault => exact unexpected_exit_mem _

theorem ofLoad_exit_mem (fault : LoadFault) :
    (ofLoad fault).exit ∈ Exit.settings :: Exit.ofFiles := by
  cases fault with
  | settings fault => exact List.mem_cons_self
  | clash clash => exact List.mem_cons_of_mem _ (unexpected_exit_mem _)
  | coding fault => exact List.mem_cons_of_mem _ (ofCoding_exit_mem fault)
  | closed fault => exact List.mem_cons_of_mem _ (ofOpen_exit_mem fault)
  | override fault =>
    cases fault with
    | unknown name => exact List.mem_cons_self
    | misuse fault => exact List.mem_cons_of_mem _ (unexpected_exit_mem _)

theorem ofLoad_exit_ne {fault : LoadFault} {exit : Exit}
    (h : exit ∉ Exit.settings :: Exit.ofFiles) :
    (ofLoad fault).exit ≠ exit :=
  fun he => h (he ▸ ofLoad_exit_mem fault)

theorem ofBatch_exit_ne {fault : BatchFault} {exit : Exit} (h : exit ∉ Exit.ofFiles) :
    (ofBatch fault).exit ≠ exit :=
  fun he => h (he ▸ ofBatch_exit_mem fault)

end Failure

namespace CommandLine
open Terminal

variable {surroundings : Surroundings} {tree : Tree} {arguments : List String} {options : Options}

theorem processFiles_results (settings : Settings) (options : Options) (console : Console)
    (level : Level) (tree : Tree) (paths : List Path) :
    (processFiles settings options console level tree paths).value.1 =
      (Batch.files settings.procedure options.dryRun tree paths).value.completed := by
  induction paths generalizing tree with
  | nil => rfl
  | cons path paths ih =>
    unfold processFiles Batch.files
    simp only [Traced.value_bind, Session.ofLogged, Traced.value_mapTrace]
    cases ho : (Batch.oneFile settings.procedure options.dryRun tree path).value with
    | error fault => rfl
    | ok pair =>
      change Except.map _ (processFiles settings options console level pair.2 paths).value.1 = _
      rw [ih pair.2]
      simp only [Run.completed]
      cases (Batch.files settings.procedure options.dryRun pair.2 paths).value.fault <;> rfl

/-- How a run over a target ends. -/
def targetExit (dryRun : Bool) (run : Run) : Exit :=
  match run.completed with
  | .error fault => (Failure.ofBatch fault).exit
  | .ok results => exitOf dryRun results

/-- How the command ends with read options, whatever it says meanwhile. -/
def Options.exit (options : Options) (surroundings : Surroundings) (tree : Tree) : Exit :=
  match shownLevel surroundings with
  | .error _ => .failure
  | .ok _ =>
    if reportLevel? options.verbose options.quiet = none then .usage
    else match (options.load tree).value with
      | .error fault => (Failure.ofLoad fault).exit
      | .ok settings =>
        if options.dumpConfig then .success
        else match options.path with
          | none => .usage
          | some target =>
            targetExit options.dryRun (Batch.target settings.procedure options.dryRun tree
              (toString (Path.ofString target))).value

def ending : Except Failure Exit → Exit
  | .ok exit => exit
  | .error failure => failure.exit

theorem processTarget_exit (settings : Settings) (options : Options) (console : Console)
    (level : Level) (tree : Tree) (target : Path) :
    ending (processTarget settings options console level tree target).value.1 =
      targetExit options.dryRun
        (Batch.target settings.procedure options.dryRun tree (toString target)).value := by
  unfold processTarget Batch.target targetExit
  simp only [Traced.value_bind, Session.ofLogged, Traced.value_mapTrace]
  cases hr : (Batch.resolve settings.procedure tree (toString target)).value with
  | error fault => rfl
  | ok paths =>
    have hresults := processFiles_results settings options console level tree paths
    simp only [Traced.value_bind]
    rw [← hresults]
    split
    · next heq =>
      rw [heq]
      rfl
    · next heq =>
      rw [heq]
      rfl

theorem perform_exit {shown : Level} (h : shownLevel surroundings = .ok shown) (options : Options)
    (console : Console) (tree : Tree) :
    ending (perform options console tree).value.1 = options.exit surroundings tree := by
  unfold perform Options.exit Options.load
  rw [h]
  cases hlevel : reportLevel? options.verbose options.quiet with
  | none => rfl
  | some level =>
    simp only [Traced.value_bind, Session.ofLogged, Traced.value_mapTrace, reduceCtorEq, if_false]
    cases (Settings.load tree (if options.noConfig then none else some tree.workingPath)
        (options.configFiles.map Path.ofString)).value with
    | error fault => rfl
    | ok settings =>
      dsimp only
      cases options.dumpConfig with
      | true => rfl
      | false =>
        cases options.path with
        | none => rfl
        | some target =>
          simp only [Bool.false_eq_true, if_false]
          exact processTarget_exit settings options console level tree (Path.ofString target)

theorem runOptions_exit (surroundings : Surroundings) (tree : Tree) (options : Options) :
    (runOptions surroundings tree options).exit = (options.exit surroundings tree).code := by
  unfold runOptions
  split
  · next fault h =>
    unfold Options.exit
    rw [h]
  · next shown h =>
    dsimp only
    rw [← perform_exit h options ⟨surroundings.terminal && !options.noColor⟩ tree]
    split <;> next heq => rw [heq]; rfl

/-- What arguments must be for the command to do its work: they are read, and ask for neither help
nor the version. -/
structure Options.Runs (options : Options) (arguments : List String) : Prop where
  read_eq : Options.ofArguments arguments = .ok options
  question_eq : options.question = none
  hasNul_eq : options.hasNul = false
  extra_eq : options.extra = []

/-- Arguments that are refused: they cannot be read, or there are more than the command takes. -/
def Refused (arguments : List String) : Prop :=
  match Options.ofArguments arguments with
  | .error _ => True
  | .ok options => options.question = none ∧ options.hasNul = false ∧ options.extra ≠ []

theorem Options.Runs.not_refused (h : options.Runs arguments) : ¬ Refused arguments := by
  unfold Refused
  rw [h.read_eq]
  exact fun hr => hr.2.2 h.extra_eq

theorem run_exit_of_refused (surroundings : Surroundings) (tree : Tree) (h : Refused arguments) :
    (run surroundings tree arguments).exit = 2 := by
  unfold Refused at h
  unfold run
  cases hread : Options.ofArguments arguments with
  | error fault => rfl
  | ok options =>
    rw [hread] at h
    obtain ⟨hq, hnul, hextra⟩ := h
    simp only [hq, hnul, hextra, Bool.false_eq_true, if_false, ne_eq, not_false_eq_true, if_true]
    rfl

theorem run_exit_of_runs (surroundings : Surroundings) (tree : Tree) (h : options.Runs arguments) :
    (run surroundings tree arguments).exit = (options.exit surroundings tree).code := by
  unfold run
  simp only [h.read_eq, h.question_eq, h.hasNul_eq, h.extra_eq, Bool.false_eq_true, if_false, ne_eq,
    not_true_eq_false]
  exact runOptions_exit surroundings tree options

theorem run_exit_of_idle (surroundings : Surroundings) (tree : Tree) (hr : ¬ Refused arguments)
    (hi : ∀ options : Options, ¬ options.Runs arguments) :
    (run surroundings tree arguments).exit = Exit.success.code ∨
      (run surroundings tree arguments).exit = Exit.failure.code := by
  unfold Refused at hr
  unfold run
  cases hread : Options.ofArguments arguments with
  | error fault =>
    rw [hread] at hr
    exact absurd trivial hr
  | ok options =>
    rw [hread] at hr
    dsimp only
    split
    · exact .inl rfl
    · exact .inl rfl
    · next hq =>
      split
      · exact .inr rfl
      · next hnul =>
        have hnul := Bool.eq_false_iff.2 hnul
        split
        · next hextra => exact absurd ⟨hq, hnul, hextra⟩ hr
        · next hextra => exact absurd ⟨hread, hq, hnul, not_not.1 hextra⟩ (hi options)

structure Options.Ready (options : Options) (surroundings : Surroundings) (tree : Tree)
    (settings : Settings) : Prop where
  shown : ∃ level, shownLevel surroundings = .ok level
  verbose_or_quiet : options.verbose = 0 ∨ options.quiet = 0
  load_eq : (options.load tree).value = .ok settings
  dumpConfig_eq : options.dumpConfig = false

/-- Options for a dry run in which every file of the target is processed and one would change. -/
def Options.FindsChanges (options : Options) (surroundings : Surroundings) (tree : Tree) : Prop :=
  options.dryRun = true ∧ ∃ settings target paths results,
    options.Ready surroundings tree settings ∧ options.path = some target ∧
    (Discovery.ofTarget tree (Path.ofString target) settings.selection).value = .ok paths ∧
    (Batch.files settings.procedure true tree paths).value.completed = .ok results ∧
    ∃ result ∈ results, result.changed = true

/-- Options that ask for more and for less at once, or for no target although they need one. -/
def Options.Misused (options : Options) (surroundings : Surroundings) (tree : Tree) : Prop :=
  (∃ level, shownLevel surroundings = .ok level) ∧ 0 < options.verbose ∧ 0 < options.quiet ∨
    ∃ settings, options.Ready surroundings tree settings ∧ options.path = none

theorem reportLevel?_eq_none_iff {verbose quiet : Nat} :
    reportLevel? verbose quiet = none ↔ 0 < verbose ∧ 0 < quiet := by
  constructor
  · intro h
    unfold reportLevel? at h
    split at h <;> simp_all
  · rintro ⟨hv, hq⟩
    obtain ⟨v, rfl⟩ := Nat.exists_eq_add_of_lt hv
    obtain ⟨q, rfl⟩ := Nat.exists_eq_add_of_lt hq
    rfl

theorem resolve_value (procedure : Procedure) (tree : Tree) (target : String) :
    (Batch.resolve procedure tree target).value =
      (procedure.find tree (Path.ofString target)).value.mapError .discovery := by
  unfold Batch.resolve
  simp only [Traced.value_bind]
  cases (procedure.find tree (Path.ofString target)).value with
  | error fault => rfl
  | ok paths => cases paths <;> rfl

theorem target_completed_eq_ok_iff {procedure : Procedure} {dryRun : Bool} {target : String}
    {results : List FileResult} :
    (Batch.target procedure dryRun tree target).value.completed = .ok results ↔
      ∃ paths, (procedure.find tree (Path.ofString target)).value = .ok paths ∧
        (Batch.files procedure dryRun tree paths).value.completed = .ok results := by
  unfold Batch.target
  simp only [Traced.value_bind, resolve_value]
  cases (procedure.find tree (Path.ofString target)).value with
  | error fault => simp [Except.mapError, Run.completed]
  | ok paths => simp [Except.mapError]

theorem targetExit_eq_wouldChange_iff {dryRun : Bool} {run : Run} :
    targetExit dryRun run = .wouldChange ↔
      dryRun = true ∧ ∃ results, run.completed = .ok results ∧
        ∃ result ∈ results, result.changed = true := by
  unfold targetExit
  cases hc : run.completed with
  | error fault =>
    constructor
    · exact fun h => absurd h (Failure.ofBatch_exit_ne (by decide))
    · rintro ⟨-, results, h, -⟩
      cases h
  | ok results =>
    unfold exitOf
    simp

theorem targetExit_ne_of_notMem {dryRun : Bool} {run : Run} {exit : Exit}
    (h : exit ∉ .success :: .wouldChange :: Exit.ofFiles) : targetExit dryRun run ≠ exit := by
  rintro rfl
  unfold targetExit at h
  split at h
  · next fault hc =>
    exact h (List.mem_cons_of_mem _ (List.mem_cons_of_mem _ (Failure.ofBatch_exit_mem fault)))
  · unfold exitOf at h
    split at h <;> simp at h

namespace Options

theorem exit_of_contradiction (hs : ∃ level, shownLevel surroundings = .ok level)
    (hv : 0 < options.verbose) (hq : 0 < options.quiet) :
    options.exit surroundings tree = .usage := by
  obtain ⟨level, hs⟩ := hs
  simp only [exit, hs, reportLevel?_eq_none_iff.2 ⟨hv, hq⟩, if_true]

theorem reportLevel?_ne_none {verbose quiet : Nat} (h : verbose = 0 ∨ quiet = 0) :
    reportLevel? verbose quiet ≠ none := by
  rw [Ne, reportLevel?_eq_none_iff]
  omega

theorem exit_of_load_error {fault : LoadFault} (hs : ∃ level, shownLevel surroundings = .ok level)
    (hvq : options.verbose = 0 ∨ options.quiet = 0)
    (hl : (options.load tree).value = .error fault) :
    options.exit surroundings tree = (Failure.ofLoad fault).exit := by
  obtain ⟨level, hs⟩ := hs
  simp only [exit, hs, reportLevel?_ne_none hvq, hl, if_false]

theorem Ready.exit_eq {settings : Settings} (h : options.Ready surroundings tree settings) :
    options.exit surroundings tree = match options.path with
      | none => .usage
      | some target =>
        targetExit options.dryRun (Batch.target settings.procedure options.dryRun tree
          (toString (Path.ofString target))).value := by
  obtain ⟨level, hs⟩ := h.shown
  simp only [exit, hs, reportLevel?_ne_none h.verbose_or_quiet, h.load_eq, h.dumpConfig_eq,
    if_false, Bool.false_eq_true]

/-- The ways in which the command can end before it gets as far as a target, and that it can get
there. -/
theorem exit_cases (options : Options) (surroundings : Surroundings) (tree : Tree) :
    options.exit surroundings tree = .failure ∨
      ((∃ level, shownLevel surroundings = .ok level) ∧
        (0 < options.verbose ∧ 0 < options.quiet ∧ options.exit surroundings tree = .usage ∨
          (options.verbose = 0 ∨ options.quiet = 0) ∧
            ((∃ fault, (options.load tree).value = .error fault ∧
                options.exit surroundings tree = (Failure.ofLoad fault).exit) ∨
              options.exit surroundings tree = .success ∨
              ∃ settings, options.Ready surroundings tree settings))) := by
  cases hs : shownLevel surroundings with
  | error fault =>
    left
    unfold exit
    rw [hs]
  | ok level =>
    have hs : ∃ level, shownLevel surroundings = .ok level := ⟨level, hs⟩
    refine .inr ⟨⟨level, rfl⟩, ?_⟩
    by_cases hvq : 0 < options.verbose ∧ 0 < options.quiet
    · exact .inl ⟨hvq.1, hvq.2, exit_of_contradiction hs hvq.1 hvq.2⟩
    have hvq : options.verbose = 0 ∨ options.quiet = 0 := by omega
    refine .inr ⟨hvq, ?_⟩
    cases hl : (options.load tree).value with
    | error fault => exact .inl ⟨fault, rfl, exit_of_load_error hs hvq hl⟩
    | ok settings =>
      right
      cases hd : options.dumpConfig with
      | true =>
        obtain ⟨level, hs⟩ := hs
        left
        simp only [exit, hs, reportLevel?_ne_none hvq, hl, hd, if_false, if_true]
      | false => exact .inr ⟨settings, hs, hvq, hl, hd⟩

theorem exit_eq_wouldChange_iff :
    options.exit surroundings tree = .wouldChange ↔ options.FindsChanges surroundings tree := by
  constructor
  · intro h
    rcases options.exit_cases surroundings tree with
      he | ⟨-, ⟨-, -, he⟩ | ⟨-, ⟨fault, -, he⟩ | he | ⟨settings, hready⟩⟩⟩
    · exact absurd (he.symm.trans h) nofun
    · exact absurd (he.symm.trans h) nofun
    · exact absurd (he.symm.trans h) (Failure.ofLoad_exit_ne (by decide))
    · exact absurd (he.symm.trans h) nofun
    · rw [hready.exit_eq] at h
      split at h
      · cases h
      · next target hpath =>
        obtain ⟨hdry, results, hc, hchanged⟩ := targetExit_eq_wouldChange_iff.1 h
        rw [hdry, target_completed_eq_ok_iff] at hc
        obtain ⟨paths, hfind, hfiles⟩ := hc
        rw [(Path.ofString_canonical target).ofString_toString] at hfind
        exact ⟨hdry, settings, target, paths, results, hready, hpath, hfind, hfiles, hchanged⟩
  · rintro ⟨hdry, settings, target, paths, results, hready, hpath, hfind, hfiles, hchanged⟩
    rw [hready.exit_eq, hpath]
    refine targetExit_eq_wouldChange_iff.2 ⟨hdry, results, ?_, hchanged⟩
    rw [hdry, target_completed_eq_ok_iff, (Path.ofString_canonical target).ofString_toString]
    exact ⟨paths, hfind, hfiles⟩

theorem exit_eq_usage_iff :
    options.exit surroundings tree = .usage ↔ options.Misused surroundings tree := by
  constructor
  · intro h
    rcases options.exit_cases surroundings tree with
      he | ⟨hs, ⟨hv, hq, -⟩ | ⟨-, ⟨fault, -, he⟩ | he | ⟨settings, hready⟩⟩⟩
    · exact absurd (he.symm.trans h) nofun
    · exact .inl ⟨hs, hv, hq⟩
    · exact absurd (he.symm.trans h) (Failure.ofLoad_exit_ne (by decide))
    · exact absurd (he.symm.trans h) nofun
    · rw [hready.exit_eq] at h
      split at h
      · next hpath => exact .inr ⟨settings, hready, hpath⟩
      · exact absurd h (targetExit_ne_of_notMem (by decide))
  · rintro (⟨hs, hv, hq⟩ | ⟨settings, hready, hpath⟩)
    · exact exit_of_contradiction hs hv hq
    · rw [hready.exit_eq, hpath]

end Options

/-- An exit is that of refused arguments, of a command without work, or of the options that run. -/
theorem run_exit_cases {exit : Exit} (he : (run surroundings tree arguments).exit = exit.code) :
    Refused arguments ∧ exit = .wouldChange ∨ exit = .success ∨ exit = .failure ∨
      ∃ options : Options, options.Runs arguments ∧ options.exit surroundings tree = exit := by
  by_cases hr : Refused arguments
  · rw [run_exit_of_refused surroundings tree hr] at he
    have hcode : Exit.wouldChange.code = exit.code := he
    exact .inl ⟨hr, (Exit.code_injective hcode).symm⟩
  by_cases hi : ∀ options : Options, ¬ options.Runs arguments
  · rcases run_exit_of_idle surroundings tree hr hi with hidle | hidle
    · exact .inr (.inl (Exit.code_injective (he.symm.trans hidle)))
    · exact .inr (.inr (.inl (Exit.code_injective (he.symm.trans hidle))))
  obtain ⟨options, hruns⟩ := not_forall_not.1 hi
  rw [run_exit_of_runs surroundings tree hruns] at he
  exact .inr (.inr (.inr ⟨options, hruns, Exit.code_injective he⟩))

theorem run_exit_eq_code_iff {exit : Exit} (h : exit ∉ [.success, .failure, .wouldChange]) :
    (run surroundings tree arguments).exit = exit.code ↔
      ∃ options : Options, options.Runs arguments ∧ options.exit surroundings tree = exit := by
  simp only [List.mem_cons, List.not_mem_nil, or_false, not_or] at h
  constructor
  · intro he
    rcases run_exit_cases he with ⟨-, hw⟩ | hs | hf | hruns
    · exact absurd hw h.2.2
    · exact absurd hs h.1
    · exact absurd hf h.2.1
    · exact hruns
  · rintro ⟨options, hruns, rfl⟩
    exact run_exit_of_runs surroundings tree hruns

/-- The exit of a dry run that finds changes is also that of refused arguments, and of nothing else.
The exit for a misuse is that of options which are read but make no sense together. -/
theorem run_exit_two_iff (surroundings : Surroundings) (tree : Tree) (arguments : List String) :
    ((run surroundings tree arguments).exit = 2 ↔
      Refused arguments ∨ ∃ options : Options, options.Runs arguments ∧
        options.FindsChanges surroundings tree) ∧
    ((run surroundings tree arguments).exit = 64 ↔
      ∃ options : Options, options.Runs arguments ∧ options.Misused surroundings tree) ∧
    ¬ (Refused arguments ∧ ∃ options : Options, options.Runs arguments) := by
  refine ⟨⟨fun he => ?_, ?_⟩, ?_, ?_⟩
  · have hcode : (run surroundings tree arguments).exit = Exit.wouldChange.code := he
    rcases run_exit_cases hcode with ⟨hr, -⟩ | hs | hf | ⟨options, hruns, hexit⟩
    · exact .inl hr
    · cases hs
    · cases hf
    · exact .inr ⟨options, hruns, Options.exit_eq_wouldChange_iff.1 hexit⟩
  · rintro (hr | ⟨options, hruns, hfinds⟩)
    · exact run_exit_of_refused surroundings tree hr
    · rw [run_exit_of_runs surroundings tree hruns, Options.exit_eq_wouldChange_iff.2 hfinds]
      rfl
  · rw [show 64 = Exit.usage.code from rfl, run_exit_eq_code_iff (by decide)]
    simp only [Options.exit_eq_usage_iff]
  · rintro ⟨hr, options, hruns⟩
    exact hruns.not_refused hr

/-- An unknown option ends the command as if a dry run had found changes. -/
theorem run_exit_unknown_option :
    (run {} (.empty []) ["--zzzzzz"]).exit = 2 ∧
      ¬ ∃ options : Options, options.Runs ["--zzzzzz"] ∧ options.FindsChanges {} (.empty []) := by
  have hread : ∃ fault, Options.ofArguments ["--zzzzzz"] = .error fault :=
    ⟨_, by simp only [Options.ofArguments, Options.read]; rfl⟩
  obtain ⟨fault, hread⟩ := hread
  have hr : Refused ["--zzzzzz"] := by
    unfold Refused
    rw [hread]
    trivial
  exact ⟨run_exit_of_refused {} (.empty []) hr, fun ⟨_, hruns, _⟩ => hruns.not_refused hr⟩

end CommandLine

end MethodMarkers
