import MethodMarkers.Proofs.FileDiscovery
import MethodMarkers.Proofs.PathOrder
import MethodMarkers.Proofs.PatternChoice
import MethodMarkers.Proofs.TreeListing

namespace MethodMarkers
open Text

namespace Discovery
open MethodMarkers.Tree IgnorePattern

variable {tree other : Tree} {directory path : Path} {base place : Location}
  {paths files : List Path} {extensions included excluded lines : List String}
  {fault : SystemFault} {patterns : Option (List IgnorePattern)}

def Walked (tree : Tree) (directory : Path) (base : Location) (path : Path) : Prop :=
  ∃ names, tree.Visits base names ∧
    path = { directory with segments := directory.segments ++ names }

/-- The text by which patterns know a path: the way from the directory to the place that the path
leads to, or the path as it is when that place is elsewhere. -/
def MatchText (tree : Tree) (base : Location) (path : Path) (text : String) : Prop :=
  (∃ names, tree.locate path = .ok (base ++ names) ∧ text = "/".intercalate names) ∨
    (∀ names, tree.locate path ≠ .ok (base ++ names)) ∧ text = toString path

/-- What makes a path one of the files that are taken from a directory. -/
structure Taken (tree : Tree) (directory : Path) (base : Location)
    (extensions included excluded : List String) (path : Path) : Prop where
  walked : Walked tree directory base path
  regular : ∃ place content, tree.find path = .ok (place, .file content)
  extension : ∃ extension ∈ extensions, lower path.suffix = lower extension
  matched : ∃ text, MatchText tree base path text ∧
    ((∀ line ∈ included, allBlank line.toList = true) ∨ Chooses included text) ∧
    ((∀ line ∈ excluded, allBlank line.toList = true) ∨ ¬Chooses excluded text)

theorem Visits.relists (h : tree.Relists other) (hp : tree.Proper) (hn : tree.Nested)
    (names : List String) : other.Visits base names ↔ tree.Visits base names := by
  rw [← (h.nested hp hn).mem_namesBelow_iff, (h.namesBelow_perm base).mem_iff,
    hn.mem_namesBelow_iff]

theorem Walked.relists (h : tree.Relists other) (hp : tree.Proper) (hn : tree.Nested)
    (path : Path) : Walked other directory base path ↔ Walked tree directory base path := by
  simp only [Walked, Visits.relists h hp hn]

theorem Taken.relists (h : tree.Relists other) (hp : tree.Proper) (hn : tree.Nested)
    (path : Path) : Taken other directory base extensions included excluded path ↔
      Taken tree directory base extensions included excluded path := by
  have hwalked : Walked other directory base path ↔ Walked tree directory base path :=
    Walked.relists h hp hn path
  have htext (text : String) : MatchText other base path text ↔ MatchText tree base path text := by
    simp only [MatchText, h.locate_eq hp]
  constructor
  · rintro ⟨hw, hr, hx, hm⟩
    simp only [h.find_eq hp, htext] at hr hm
    exact ⟨hwalked.1 hw, hr, hx, hm⟩
  · rintro ⟨hw, hr, hx, hm⟩
    refine ⟨hwalked.2 hw, ?_, hx, ?_⟩
    · simpa only [h.find_eq hp] using hr
    · simpa only [htext] using hm

theorem mem_visited_iff (hn : tree.Nested) (hb : tree.locate directory = .ok base) :
    path ∈ visited tree directory ↔ Walked tree directory base path := by
  rw [visited, hb]
  simp only [List.mem_map, hn.mem_namesBelow_iff, Walked, eq_comm]

theorem filesAmong_ok (h : filesAmong tree paths = .ok files) :
    (∀ path ∈ paths, tree.find path ≠ .error .nameTooLong) ∧
      ∀ path, path ∈ files ↔ path ∈ paths ∧ tree.isFile path = .ok true := by
  induction paths generalizing files with
  | nil =>
    cases h
    exact ⟨nofun, fun path => ⟨nofun, nofun⟩⟩
  | cons first paths ih =>
    obtain ⟨isFile, hi, hrest⟩ := bind_eq_ok_iff.1 h
    obtain ⟨rest, hr, he⟩ := bind_eq_ok_iff.1 hrest
    obtain ⟨hall, hmem⟩ := ih hr
    refine ⟨List.forall_mem_cons.2 ⟨fun hf => ?_, hall⟩, fun path => ?_⟩
    · rw [Tree.isFile, leadsTo_eq_error_iff.2 ⟨hf, rfl⟩] at hi
      cases hi
    · cases he
      cases isFile with
      | false =>
        rw [if_neg Bool.false_ne_true, hmem, List.mem_cons]
        have hother (ht : tree.isFile path = .ok true) : path ≠ first := by
          rintro rfl
          rw [hi] at ht
          cases ht
        exact and_congr_left fun ht => (or_iff_right (hother ht)).symm
      | true =>
        have hfirst : path = first → tree.isFile path = .ok true := fun he => he ▸ hi
        rw [if_pos rfl, List.mem_cons, List.mem_cons, hmem, or_and_right,
          and_iff_left_of_imp hfirst]

theorem filesAmong_refused (h : filesAmong tree paths = .error fault) :
    ∃ path ∈ paths, tree.find path = .error .nameTooLong ∧ fault = .of .nameTooLong path := by
  induction paths with
  | nil => cases h
  | cons first paths ih =>
    rw [filesAmong] at h
    cases hi : tree.isFile first with
    | error refusal =>
      rw [hi] at h
      cases h
      exact ⟨first, List.mem_cons_self, leadsTo_eq_error_iff.1 hi⟩
    | ok isFile =>
      cases hr : filesAmong tree paths with
      | error refusal =>
        rw [hi, hr] at h
        cases h
        obtain ⟨path, hp, hf⟩ := ih hr
        exact ⟨path, List.mem_cons_of_mem first hp, hf⟩
      | ok rest =>
        rw [hi, hr] at h
        cases h

theorem hasExtension_iff :
    hasExtension extensions path = true ↔
      ∃ extension ∈ extensions, lower path.suffix = lower extension := by
  rw [hasExtension, List.contains_iff_mem, List.mem_map]
  simp only [eq_comm]

def choice (lines : List String) : Option (List IgnorePattern) :=
  if ∀ line ∈ lines, allBlank line.toList = true then none else some (lines.filterMap pattern?)

theorem patternsOf_valid (h : ∀ line ∈ lines, Valid line) :
    patternsOf (.ok lines) = .ok (choice lines) := by
  rw [patternsOf]
  change ((IgnorePattern.ofLines? lines).mapError DiscoveryFault.pattern) = _
  rw [ofLines?_of_valid h]
  rfl

theorem mem_selected_iff {whenSelected : Bool} :
    path ∈ selected tree directory (choice lines) whenSelected paths ↔
      path ∈ paths ∧ ((∀ line ∈ lines, allBlank line.toList = true) ∨
        (Chooses lines (matchPath tree directory path) ↔ whenSelected = true)) := by
  rw [choice]
  split
  · next hblank => exact ⟨fun h => ⟨h, .inl hblank⟩, And.left⟩
  · next hblank =>
    rw [selected, List.mem_filter, beq_iff_eq, Bool.eq_iff_iff, select_iff_chooses,
      or_iff_right hblank]

theorem matchText_iff (hb : tree.locate directory = .ok base) (hne : tree.locate path ≠ .ok base)
    {text : String} : MatchText tree base path text ↔ text = matchPath tree directory path := by
  rw [matchPath, hb]
  split
  · next base' place hbase hl =>
    cases hbase
    split
    · next names hn =>
      obtain ⟨rfl, -⟩ := below?_eq_some_iff.1 hn
      rw [MatchText, hl]
      constructor
      · rintro (⟨names', he, ht⟩ | ⟨hout, -⟩)
        · rw [ht, List.append_cancel_left (Except.ok.inj he)]
        · exact absurd rfl (hout names)
      · exact fun ht => .inl ⟨names, rfl, ht⟩
    · next hn =>
      have hout (names : List String) : tree.locate path ≠ .ok (base ++ names) := by
        intro he
        rw [hl] at he hne
        cases names with
        | nil => exact hne (he.trans (by rw [List.append_nil]))
        | cons name names =>
          rw [Except.ok.inj he, below?_eq_some_iff.2 ⟨rfl, List.cons_ne_nil _ _⟩] at hn
          cases hn
      exact ⟨fun h => h.elim (fun ⟨names, he, _⟩ => absurd he (hout names)) And.right,
        fun ht => .inr ⟨hout, ht⟩⟩
  · next hnot =>
    have hout (names : List String) : tree.locate path ≠ .ok (base ++ names) :=
      fun he => hnot base _ rfl he
    exact ⟨fun h => h.elim (fun ⟨names, he, _⟩ => absurd he (hout names)) And.right,
      fun ht => .inr ⟨hout, ht⟩⟩

theorem below_value_of_valid (hd : tree.find directory = .ok (base, .directory))
    (hi : ∀ line ∈ included, Valid line) (he : ∀ line ∈ excluded, Valid line) :
    (below tree directory ⟨.ok extensions, .ok included, .ok excluded⟩).value =
      match filesAmong tree (visited tree directory) with
      | .error fault => .error (.refused fault)
      | .ok among =>
        .ok (sortPaths (selected tree directory (choice excluded) false
          (selected tree directory (choice included) true
            (among.filter (hasExtension extensions))))) := by
  have hfiles : filesBelow tree directory = filesAmong tree (visited tree directory) := by
    rw [filesBelow, isDirectory, leadsTo, hd]
    rfl
  rw [below, hfiles]
  cases filesAmong tree (visited tree directory) with
  | error fault => rfl
  | ok among =>
    dsimp only
    rw [Traced.value_bind, patternsOf_valid hi, patternsOf_valid he]
    rfl

theorem ofTarget_directory {selection : Selection}
    (hd : tree.find directory = .ok (base, .directory)) :
    ofTarget tree directory selection = below tree directory selection := by
  have hkind (kind : Entry → Bool) : tree.leadsTo kind directory = .ok (kind .directory) := by
    rw [leadsTo, hd]
  rw [ofTarget, isFile, isDirectory, hkind, hkind]
  rfl

theorem ofTarget_file {selection : Selection} {content : List UInt8}
    (hf : tree.find path = .ok (place, .file content)) :
    (ofTarget tree path selection).value = .ok [path] := by
  have hkind (kind : Entry → Bool) : tree.leadsTo kind path = .ok (kind (.file content)) := by
    rw [leadsTo, hf]
  rw [ofTarget, isFile, isDirectory, hkind, hkind]
  rfl

theorem matchText_iff_of_file (hd : tree.find directory = .ok (base, .directory))
    (hf : ∃ place content, tree.find path = .ok (place, .file content)) (text : String) :
    MatchText tree base path text ↔ text = matchPath tree directory path := by
  obtain ⟨hb, hbase⟩ := find_eq_ok_iff.1 hd
  obtain ⟨place, content, hf⟩ := hf
  obtain ⟨hl, hg⟩ := find_eq_ok_iff.1 hf
  refine matchText_iff hb fun hsame => ?_
  rw [← Except.ok.inj (hl.symm.trans hsame), hg] at hbase
  cases hbase

theorem mem_selected_iff_taken (hd : tree.find directory = .ok (base, .directory))
    (hm : path ∈ files ↔ Walked tree directory base path ∧ tree.isFile path = .ok true) :
    path ∈ selected tree directory (choice excluded) false
        (selected tree directory (choice included) true (files.filter (hasExtension extensions))) ↔
      Taken tree directory base extensions included excluded path := by
  rw [mem_selected_iff, mem_selected_iff, List.mem_filter, hm, hasExtension_iff,
    isFile_eq_true_iff]
  constructor
  · rintro ⟨⟨⟨⟨hw, hr⟩, hx⟩, hincluded⟩, hexcluded⟩
    refine ⟨hw, hr, hx, _, (matchText_iff_of_file hd hr _).2 rfl, ?_, ?_⟩
    · simpa only [iff_true] using hincluded
    · simpa only [Bool.false_eq_true, iff_false] using hexcluded
  · rintro ⟨hw, hr, hx, text, ht, hincluded, hexcluded⟩
    rw [(matchText_iff_of_file hd hr _).1 ht] at hincluded hexcluded
    refine ⟨⟨⟨⟨hw, hr⟩, hx⟩, ?_⟩, ?_⟩
    · simpa only [iff_true] using hincluded
    · simpa only [Bool.false_eq_true, iff_false] using hexcluded

/-- Which files are taken from a directory in which the system answers for every path, and in which
order. -/
theorem below_taken (hp : tree.Proper) (hn : tree.Nested)
    (hd : tree.find directory = .ok (base, .directory))
    (hi : ∀ line ∈ included, Valid line) (he : ∀ line ∈ excluded, Valid line)
    (h : (below tree directory ⟨.ok extensions, .ok included, .ok excluded⟩).value = .ok files) :
    (∀ path, Walked tree directory base path → tree.find path ≠ .error .nameTooLong) ∧
      Ordered files ∧
      ∀ path, path ∈ files ↔ Taken tree directory base extensions included excluded path := by
  have hb := (find_eq_ok_iff.1 hd).1
  rw [below_value_of_valid hd hi he] at h
  split at h
  · cases h
  · next among ha =>
    cases h
    obtain ⟨hanswered, hmem⟩ := filesAmong_ok ha
    simp only [mem_visited_iff hn hb] at hanswered hmem
    have hsub := (selected_sublist tree directory (choice excluded) false _).trans
      ((selected_sublist tree directory (choice included) true _).trans
        ((List.filter_sublist (p := hasExtension extensions)).trans (filesAmong_sublist ha).1))
    have hslashes : ∀ path ∈ selected tree directory (choice excluded) false
        (selected tree directory (choice included) true (among.filter (hasExtension extensions))),
        path.slashes = directory.slashes := by
      intro path hpath
      obtain ⟨names, -, rfl⟩ := (mem_visited_iff hn hb).1 (hsub.subset hpath)
      rfl
    refine ⟨hanswered, sortPaths_ordered _ ((visited_nodup hp directory).sublist hsub) hslashes,
      fun path => ?_⟩
    rw [sortPaths, List.mem_mergeSort]
    exact mem_selected_iff_taken hd (hmem path)

/-- A directory is not listed only if the system refuses a path that the walk comes across. -/
theorem below_refused (hn : tree.Nested) (hd : tree.find directory = .ok (base, .directory))
    (hi : ∀ line ∈ included, Valid line) (he : ∀ line ∈ excluded, Valid line)
    {fault : DiscoveryFault}
    (h : (below tree directory ⟨.ok extensions, .ok included, .ok excluded⟩).value = .error fault) :
    ∃ path, Walked tree directory base path ∧ tree.find path = .error .nameTooLong ∧
      fault = .refused (.of .nameTooLong path) := by
  rw [below_value_of_valid hd hi he] at h
  split at h
  · next refusal ha =>
    cases h
    obtain ⟨path, hp, hf, rfl⟩ := filesAmong_refused ha
    exact ⟨path, (mem_visited_iff hn (find_eq_ok_iff.1 hd).1).1 hp, hf, rfl⟩
  · cases h

theorem ofTarget_listed (hp : tree.Proper) (hn : tree.Nested)
    (hd : tree.find directory = .ok (base, .directory)) (extensions : List String)
    (hi : ∀ line ∈ included, Valid line) (he : ∀ line ∈ excluded, Valid line)
    (h : tree.Relists other)
    (ha : ∀ path, Walked tree directory base path → tree.find path ≠ .error .nameTooLong) :
    ∃ files, Ordered files ∧
      (∀ path, path ∈ files ↔ Taken tree directory base extensions included excluded path) ∧
      (ofTarget other directory ⟨.ok extensions, .ok included, .ok excluded⟩).value =
        .ok files := by
  have hd' := (h.find_eq hp directory).trans hd
  rw [ofTarget_directory hd']
  cases hv : (below other directory ⟨.ok extensions, .ok included, .ok excluded⟩).value with
  | error fault =>
    obtain ⟨path, hw, hf, -⟩ := below_refused (h.nested hp hn) hd' hi he hv
    exact absurd ((h.find_eq hp path).symm.trans hf) (ha path ((Walked.relists h hp hn path).1 hw))
  | ok files =>
    obtain ⟨-, ho, hm⟩ := below_taken (h.proper hp) (h.nested hp hn) hd' hi he hv
    exact ⟨files, ho, fun path => (hm path).trans (Taken.relists h hp hn path), rfl⟩

theorem ofTarget_refused (hp : tree.Proper) (hn : tree.Nested)
    (hd : tree.find directory = .ok (base, .directory))
    (hi : ∀ line ∈ included, Valid line) (he : ∀ line ∈ excluded, Valid line)
    (h : tree.Relists other) (hw : Walked tree directory base path)
    (hf : tree.find path = .error .nameTooLong) :
    ∃ path, Walked tree directory base path ∧ tree.find path = .error .nameTooLong ∧
      (ofTarget other directory ⟨.ok extensions, .ok included, .ok excluded⟩).value =
        .error (.refused (.of .nameTooLong path)) := by
  have hd' := (h.find_eq hp directory).trans hd
  rw [ofTarget_directory hd']
  cases hv : (below other directory ⟨.ok extensions, .ok included, .ok excluded⟩).value with
  | error fault =>
    obtain ⟨path, hw, hf, rfl⟩ := below_refused (h.nested hp hn) hd' hi he hv
    exact ⟨path, (Walked.relists h hp hn path).1 hw, (h.find_eq hp path).symm.trans hf, rfl⟩
  | ok files =>
    obtain ⟨ha, -, -⟩ := below_taken (h.proper hp) (h.nested hp hn) hd' hi he hv
    exact absurd ((h.find_eq hp path).trans hf) (ha path ((Walked.relists h hp hn path).2 hw))

/-- A directory is listed exactly if the system answers for every path that the walk comes across;
the list then holds the files that are taken, in order, however the tree lists its entries. A file
is listed as it is. -/
theorem ofTarget_exact (hp : tree.Proper) (hn : tree.Nested)
    (hd : tree.find directory = .ok (base, .directory)) (extensions : List String)
    (hi : ∀ line ∈ included, Valid line) (he : ∀ line ∈ excluded, Valid line) :
    ((∀ path, Walked tree directory base path → tree.find path ≠ .error .nameTooLong) →
      ∃ files, Ordered files ∧
        (∀ path, path ∈ files ↔ Taken tree directory base extensions included excluded path) ∧
        ∀ other, tree.Relists other →
          (ofTarget other directory ⟨.ok extensions, .ok included, .ok excluded⟩).value =
            .ok files) ∧
    ((∃ path, Walked tree directory base path ∧ tree.find path = .error .nameTooLong) →
      ∀ other, tree.Relists other →
        ∃ path, Walked tree directory base path ∧ tree.find path = .error .nameTooLong ∧
          (ofTarget other directory ⟨.ok extensions, .ok included, .ok excluded⟩).value =
            .error (.refused (.of .nameTooLong path))) ∧
    ∀ path place content, tree.find path = .ok (place, .file content) →
      ∀ selection, (ofTarget tree path selection).value = .ok [path] := by
  refine ⟨fun ha => ?_, fun ⟨path, hw, hf⟩ other h => ofTarget_refused hp hn hd hi he h hw hf,
    fun path place content hf selection => ofTarget_file hf⟩
  obtain ⟨files, ho, hm, -⟩ := ofTarget_listed hp hn hd extensions hi he
    ⟨rfl, List.Perm.refl _⟩ ha
  refine ⟨files, ho, hm, fun other h => ?_⟩
  obtain ⟨files', ho', hm', hv⟩ := ofTarget_listed hp hn hd extensions hi he h ha
  rw [hv, ho.eq_of_mem ho' fun path => (hm path).trans (hm' path).symm]

/-- A directory with a link out of it, a name in capitals and a directory of its own. -/
def sourceTree : Tree :=
  ⟨["home"], [(["home"], .directory), (["home", "lib.cs"], .file []), (["home", "src"], .directory),
    (["home", "src", "z.cs"], .link "../lib.cs"), (["home", "src", "gen"], .directory),
    (["home", "src", "gen", "a.cs"], .file []), (["home", "src", "B.CS"], .file []),
    (["home", "src", "a.txt"], .file [])]⟩

theorem sourceTree_find :
    sourceTree.find ⟨0, ["src"]⟩ = .ok (["home", "src"], .directory) ∧
    sourceTree.find ⟨0, ["src", "z.cs"]⟩ = .ok (["home", "lib.cs"], .file []) ∧
    sourceTree.find ⟨0, ["src", "gen"]⟩ = .ok (["home", "src", "gen"], .directory) ∧
    sourceTree.find ⟨0, ["src", "gen", "a.cs"]⟩ = .ok (["home", "src", "gen", "a.cs"], .file []) ∧
    sourceTree.find ⟨0, ["src", "B.CS"]⟩ = .ok (["home", "src", "B.CS"], .file []) ∧
    sourceTree.find ⟨0, ["src", "a.txt"]⟩ = .ok (["home", "src", "a.txt"], .file []) := by
  have hsteps : targetSteps "../lib.cs" = ["..", "lib.cs"] := by decide +kernel
  simp only [find_eq_ok_iff]
  refine ⟨⟨?_, rfl⟩, ⟨?_, rfl⟩, ⟨?_, rfl⟩, ⟨?_, rfl⟩, ⟨?_, rfl⟩, ?_, rfl⟩
  all_goals
    rw [locate, if_neg (by decide), if_neg (by decide +kernel)]
    simp [walk, get?, sourceTree, List.lookup_cons, nameLimit, linkLimit, hsteps]
    decide

theorem sourceTree_visited :
    visited sourceTree ⟨0, ["src"]⟩ = [⟨0, ["src", "z.cs"]⟩, ⟨0, ["src", "gen"]⟩,
      ⟨0, ["src", "gen", "a.cs"]⟩, ⟨0, ["src", "B.CS"]⟩, ⟨0, ["src", "a.txt"]⟩] := by
  rw [visited, (find_eq_ok_iff.1 sourceTree_find.1).1]
  decide

theorem sourceTree_among :
    filesAmong sourceTree (visited sourceTree ⟨0, ["src"]⟩) =
      .ok [⟨0, ["src", "z.cs"]⟩, ⟨0, ["src", "gen", "a.cs"]⟩, ⟨0, ["src", "B.CS"]⟩,
        ⟨0, ["src", "a.txt"]⟩] := by
  obtain ⟨-, hz, hgen, ha, hb, htxt⟩ := sourceTree_find
  rw [sourceTree_visited]
  simp only [filesAmong, isFile, leadsTo, hz, hgen, ha, hb, htxt]
  rfl

theorem sourceTree_matchPath :
    matchPath sourceTree ⟨0, ["src"]⟩ ⟨0, ["src", "z.cs"]⟩ = "src/z.cs" ∧
    matchPath sourceTree ⟨0, ["src"]⟩ ⟨0, ["src", "gen", "a.cs"]⟩ = "gen/a.cs" ∧
    matchPath sourceTree ⟨0, ["src"]⟩ ⟨0, ["src", "B.CS"]⟩ = "B.CS" := by
  obtain ⟨hd, hz, -, ha, hb, -⟩ := sourceTree_find
  simp only [matchPath, (find_eq_ok_iff.1 hd).1, (find_eq_ok_iff.1 hz).1, (find_eq_ok_iff.1 ha).1,
    (find_eq_ok_iff.1 hb).1]
  decide +kernel

theorem sourceTree_below :
    (below sourceTree ⟨0, ["src"]⟩ ⟨.ok [".cs"], .ok ["*.cs", "*.CS"], .ok ["gen/", " "]⟩).value =
      .ok [⟨0, ["src", "B.CS"]⟩, ⟨0, ["src", "z.cs"]⟩] := by
  obtain ⟨hz, ha, hb⟩ := sourceTree_matchPath
  have hcandidates : List.filter (hasExtension [".cs"]) [⟨0, ["src", "z.cs"]⟩,
      ⟨0, ["src", "gen", "a.cs"]⟩, ⟨0, ["src", "B.CS"]⟩, ⟨0, ["src", "a.txt"]⟩] =
        [⟨0, ["src", "z.cs"]⟩, ⟨0, ["src", "gen", "a.cs"]⟩, ⟨0, ["src", "B.CS"]⟩] := by
    decide +kernel
  rw [below_value_of_valid sourceTree_find.1 (by decide +kernel) (by decide +kernel),
    sourceTree_among]
  dsimp only
  rw [hcandidates, choice, if_neg (by decide), choice, if_neg (by decide)]
  have hincluded :
      selected sourceTree ⟨0, ["src"]⟩ (some (["*.cs", "*.CS"].filterMap pattern?)) true
      [⟨0, ["src", "z.cs"]⟩, ⟨0, ["src", "gen", "a.cs"]⟩, ⟨0, ["src", "B.CS"]⟩] =
        [⟨0, ["src", "z.cs"]⟩, ⟨0, ["src", "gen", "a.cs"]⟩, ⟨0, ["src", "B.CS"]⟩] := by
    simp only [selected, List.filter_cons, hz, ha, hb]
    decide +kernel
  have hexcluded : selected sourceTree ⟨0, ["src"]⟩ (some (["gen/", " "].filterMap pattern?)) false
      [⟨0, ["src", "z.cs"]⟩, ⟨0, ["src", "gen", "a.cs"]⟩, ⟨0, ["src", "B.CS"]⟩] =
        [⟨0, ["src", "z.cs"]⟩, ⟨0, ["src", "B.CS"]⟩] := by
    simp only [selected, List.filter_cons, hz, ha, hb]
    decide +kernel
  have hordered : Ordered [⟨0, ["src", "B.CS"]⟩, ⟨0, ["src", "z.cs"]⟩] := by
    rw [Ordered]
    decide +kernel
  rw [hincluded, hexcluded]
  have hsorted : Ordered (sortPaths [⟨0, ["src", "z.cs"]⟩, ⟨0, ["src", "B.CS"]⟩]) :=
    sortPaths_ordered 0 (by decide) (by decide)
  refine congrArg _ (hsorted.eq_of_mem hordered fun path => ?_)
  rw [sortPaths, List.mem_mergeSort]
  exact (List.Perm.swap _ _ _).mem_iff

/-- The link is listed under its own name, and the sources that a pattern excludes are left out. -/
theorem ofTarget_lists_sources :
    sourceTree.Proper ∧ sourceTree.Nested ∧
    (∀ line ∈ ["*.cs", "*.CS"], Valid line) ∧ (∀ line ∈ ["gen/", " "], Valid line) ∧
    ∀ other, sourceTree.Relists other →
      (ofTarget other ⟨0, ["src"]⟩ ⟨.ok [".cs"], .ok ["*.cs", "*.CS"], .ok ["gen/", " "]⟩).value =
        .ok [⟨0, ["src", "B.CS"]⟩, ⟨0, ["src", "z.cs"]⟩] := by
  have hp : sourceTree.Proper := ⟨by decide, by decide⟩
  have hn : sourceTree.Nested := nested_of_entries (by decide)
  have hi : ∀ line ∈ ["*.cs", "*.CS"], Valid line := by decide +kernel
  have he : ∀ line ∈ ["gen/", " "], Valid line := by decide +kernel
  obtain ⟨hd, hz, hgen, ha, hb, htxt⟩ := sourceTree_find
  have hanswered : ∀ path, Walked sourceTree ⟨0, ["src"]⟩ ["home", "src"] path →
      sourceTree.find path ≠ .error .nameTooLong := by
    intro path hw
    rw [← mem_visited_iff hn (find_eq_ok_iff.1 hd).1, sourceTree_visited] at hw
    simp only [List.mem_cons, List.not_mem_nil, or_false] at hw
    rcases hw with rfl | rfl | rfl | rfl | rfl <;> simp only [hz, hgen, ha, hb, htxt] <;> nofun
  obtain ⟨files, -, -, hall⟩ := (ofTarget_exact hp hn hd [".cs"] hi he).1 hanswered
  refine ⟨hp, hn, hi, he, fun other h => (hall other h).trans ?_⟩
  rw [← hall sourceTree ⟨rfl, .refl _⟩, ofTarget_directory hd]
  exact sourceTree_below

def longName : String :=
  String.ofList (List.replicate 256 'x')

def longLinkTree : Tree :=
  ⟨[], [(["a.cs"], .link longName)]⟩

theorem targetSteps_longName : targetSteps longName = [longName] := by
  have hname : longName.toList = List.replicate 256 'x' := String.toList_ofList
  have hwhole : Path.splitAt '/' (List.replicate 256 'x') = [List.replicate 256 'x'] := by
    decide +kernel
  have hne : (longName != "") = true := by
    rw [bne_iff_ne, Ne, ← String.toList_inj, hname]
    decide
  have hlast : longName.toList.getLast? ≠ some '/' := by
    rw [hname]
    decide +kernel
  rw [targetSteps, if_neg hlast, hname, hwhole]
  exact List.filter_cons_of_pos hne

theorem longLinkTree_find : longLinkTree.find ⟨0, ["a.cs"]⟩ = .error .nameTooLong := by
  have hlong : nameLimit < longName.utf8ByteSize := by decide +kernel
  have hg : longLinkTree.get? ([] ++ ["a.cs"]) = some (.link longName) := rfl
  have hw : longLinkTree.walk linkLimit [] ["a.cs"] = .error .nameTooLong := by
    rw [walk, if_neg (by decide), hg]
    · dsimp only [linkLimit]
      rw [ite_self, targetSteps_longName, List.append_nil, walk, if_pos hlong]
      · decide +kernel
      · decide +kernel
    · decide
    · decide
  rw [find, locate, if_neg (by decide), if_neg (by decide +kernel)]
  change (longLinkTree.walk linkLimit [] ["a.cs"] >>= _) = _
  rw [hw]
  rfl

/-- Whether a link to a name that is too long leads to a file is a question that the system does not
answer, and the directory of the link is not listed. -/
theorem ofTarget_refuses_longLink :
    longLinkTree.Proper ∧ longLinkTree.Nested ∧
    longLinkTree.find ⟨0, []⟩ = .ok ([], .directory) ∧
    (ofTarget longLinkTree ⟨0, []⟩ ⟨.ok [".cs"], .ok [], .ok []⟩).value =
      .error (.refused (.of .nameTooLong ⟨0, ["a.cs"]⟩)) ∧
    ¬∃ files, (ofTarget longLinkTree ⟨0, []⟩ ⟨.ok [".cs"], .ok [], .ok []⟩).value = .ok files := by
  have hn : longLinkTree.Nested := nested_of_entries (by decide)
  have hl : longLinkTree.locate ⟨0, []⟩ = .ok [] := locate_here longLinkTree
  have hd : longLinkTree.find ⟨0, []⟩ = .ok ([], .directory) := find_eq_ok_iff.2 ⟨hl, rfl⟩
  have hvalue : (ofTarget longLinkTree ⟨0, []⟩ ⟨.ok [".cs"], .ok [], .ok []⟩).value =
      .error (.refused (.of .nameTooLong ⟨0, ["a.cs"]⟩)) := by
    rw [ofTarget_directory hd, below_value_of_valid hd (List.forall_mem_nil _)
      (List.forall_mem_nil _)]
    have hfiles : filesAmong longLinkTree [⟨0, ["a.cs"]⟩] =
        .error (.of .nameTooLong ⟨0, ["a.cs"]⟩) := by
      rw [filesAmong, isFile, leadsTo, longLinkTree_find]
      rfl
    rw [show visited longLinkTree ⟨0, []⟩ = [⟨0, ["a.cs"]⟩] by rw [visited, hl]; rfl, hfiles]
  refine ⟨⟨by decide, by decide⟩, hn, hd, hvalue, ?_⟩
  rw [hvalue]
  rintro ⟨files, ⟨⟩⟩

end Discovery

end MethodMarkers
