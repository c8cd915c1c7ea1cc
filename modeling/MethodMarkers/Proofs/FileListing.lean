import MethodMarkers.Proofs.CommandFrame
import MethodMarkers.Proofs.TreeListing

namespace MethodMarkers

namespace Tree

variable {tree : Tree} {location place : Location} {names : List String}
  {bytes content : List UInt8}

theorem mem_filesHere : (names, content) ∈ tree.filesHere ↔
    names ≠ [] ∧ (tree.workingDirectory ++ names, .file content) ∈ tree.entries := by
  rw [filesHere, List.mem_filterMap]
  constructor
  · rintro ⟨⟨place, entry⟩, hm, he⟩
    cases entry with
    | directory => cases he
    | link target => cases he
    | file bytes =>
      cases hb : below? tree.workingDirectory place with
      | none =>
        simp only [hb] at he
        cases he
      | some found =>
        simp only [hb] at he
        cases he
        obtain ⟨rfl, hn⟩ := below?_eq_some_iff.1 hb
        exact ⟨hn, hm⟩
  · rintro ⟨hn, hm⟩
    refine ⟨_, hm, ?_⟩
    simp only [below?_eq_some_iff.2 ⟨rfl, hn⟩]

/-- The listed files are those that a path below the working directory leads to. -/
theorem Proper.mem_filesHere_iff (h : tree.Proper) : (names, content) ∈ tree.filesHere ↔
    names ≠ [] ∧ tree.get? (tree.workingDirectory ++ names) = some (.file content) := by
  rw [mem_filesHere]
  refine and_congr_right fun hn => ?_
  rw [h.get?_eq_some_iff (List.append_ne_nil_of_right_ne_nil _ hn)]

/-- Writing to a file changes its content in the list, and nothing else of it. -/
theorem Proper.filesHere_write (h : tree.Proper) (hg : tree.get? location = some (.file bytes))
    (content : List UInt8) : (tree.write location content).filesHere =
      tree.filesHere.map fun listed =>
        (listed.1, if tree.workingDirectory ++ listed.1 = location then content else listed.2) := by
  rw [filesHere, filesHere, Tree.write, List.filterMap_map, List.map_filterMap]
  apply List.filterMap_congr
  rintro ⟨place, entry⟩ hm
  dsimp only [Function.comp]
  by_cases hp : place = location
  · subst hp
    have hentry := (h.get?_eq_some_iff (ne_nil_of_file hg)).2 hm
    obtain rfl : entry = .file bytes := Option.some.inj (hentry.symm.trans hg)
    rw [if_pos rfl]
    cases hb : below? tree.workingDirectory place with
    | none => rfl
    | some names =>
      obtain ⟨rfl, -⟩ := below?_eq_some_iff.1 hb
      simp only [Option.map_some, if_pos]
  · rw [if_neg hp]
    cases entry with
    | directory => rfl
    | link target => rfl
    | file old =>
      cases hb : below? tree.workingDirectory place with
      | none => rfl
      | some names =>
        obtain ⟨rfl, -⟩ := below?_eq_some_iff.1 hb
        simp only [Option.map_some, if_neg hp]

/-- A file that is put somewhere below the working directory is listed with the others. -/
theorem mem_filesHere_put {found : List String} {old : List UInt8} (hn : names ≠ []) :
    (found, old) ∈ (tree.put (tree.workingDirectory ++ names) (.file content)).filesHere ↔
      found = names ∧ old = content ∨ found ≠ names ∧ (found, old) ∈ tree.filesHere := by
  simp only [mem_filesHere, put, List.mem_append, List.mem_filter, List.mem_map,
    List.mem_singleton, Prod.mk.injEq, Entry.file.injEq, bne_iff_ne, reduceCtorEq, and_false,
    exists_false, or_false, List.append_cancel_left_eq, ne_eq]
  by_cases hf : found = names
  · simp [hf, hn]
  · simp [hf, and_comm]

end Tree

namespace Settings.Ran

variable {settings : Settings} {tree after : Tree} {paths : List Path} {results : List FileResult}

theorem filesHere_names (h : settings.Ran tree paths results after) (hp : tree.Proper) :
    after.filesHere.map Prod.fst = tree.filesHere.map Prod.fst := by
  induction h with
  | nil => rfl
  | cons hone hrest ih =>
    obtain ⟨location, bytes, content, hr, -, rfl⟩ := Batch.oneFile_eq_ok_iff.1 hone
    rw [ih (hp.write location _), hp.filesHere_write (Tree.read_eq_ok_iff.1 hr).2.2, List.map_map]
    rfl

end Settings.Ran

/-- A run neither makes a file nor takes one away. -/
theorem Batch.target_filesHere (settings : Settings) (dryRun : Bool) {tree : Tree}
    (hp : tree.Proper) (target : String) :
    (Batch.target settings.procedure dryRun tree target).value.tree.filesHere.map Prod.fst =
      tree.filesHere.map Prod.fst := by
  cases dryRun with
  | true => rw [target_dryRun_tree]
  | false =>
    cases hf : (settings.procedure.find tree (Path.ofString target)).value with
    | error fault => simp only [Batch.target, resolve, Traced.value_bind, hf, Traced.value_pure]
    | ok paths =>
      obtain ⟨done, results, after, hran, hstop⟩ := files_cases settings tree paths
      have hafter : (Batch.target settings.procedure false tree target).value.tree = after := by
        rw [target_value_of_find hf]
        rcases hstop with ⟨-, hv⟩ | ⟨_, _, _, -, -, hv⟩ <;> rw [hv]
      rw [hafter, hran.filesHere_names hp]

end MethodMarkers
