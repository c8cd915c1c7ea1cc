import MethodMarkers.Proofs.FileAtomicity

namespace MethodMarkers
open Text

namespace Tree

variable {tree other : Tree} {path : Path} {place : Location}

/-- The paths among some that lead to a place, in order. -/
def leadingTo (tree : Tree) (place : Location) (paths : List Path) : List Path :=
  paths.filter fun path => tree.locate path = .ok place

theorem leadingTo_append (place : Location) (paths more : List Path) :
    tree.leadingTo place (paths ++ more) =
      tree.leadingTo place paths ++ tree.leadingTo place more :=
  List.filter_append ..

theorem leadingTo_cons_of_locate (h : tree.locate path = .ok place) (paths : List Path) :
    tree.leadingTo place (path :: paths) = path :: tree.leadingTo place paths :=
  List.filter_cons_of_pos (p := fun path => decide (tree.locate path = .ok place))
    (decide_eq_true h)

theorem leadingTo_cons_of_ne (h : tree.locate path ≠ .ok place) (paths : List Path) :
    tree.leadingTo place (path :: paths) = tree.leadingTo place paths :=
  List.filter_cons_of_neg (p := fun path => decide (tree.locate path = .ok place))
    (mt of_decide_eq_true h)

namespace Alike

theorem refl (tree : Tree) : tree.Alike tree :=
  ⟨rfl, fun _ => .inl rfl⟩

theorem symm (h : tree.Alike other) : other.Alike tree where
  workingDirectory_eq := h.workingDirectory_eq.symm
  entry place := by
    rcases h.entry place with he | ⟨content, content', hc, hc'⟩
    · exact .inl he.symm
    · exact .inr ⟨content', content, hc', hc⟩

theorem trans {third : Tree} (h : tree.Alike other) (h' : other.Alike third) :
    tree.Alike third where
  workingDirectory_eq := h'.workingDirectory_eq.trans h.workingDirectory_eq
  entry place := by
    rcases h.entry place with he | ⟨content, content', hc, hc'⟩
    · rw [← he]
      exact h'.entry place
    · obtain ⟨content'', hc''⟩ := h'.exists_file hc'
      exact .inr ⟨content, content'', hc, hc''⟩

theorem leadingTo (h : tree.Alike other) (place : Location) (paths : List Path) :
    other.leadingTo place paths = tree.leadingTo place paths := by
  simp only [Tree.leadingTo, h.locate]

theorem read_eq (h : tree.Alike other)
    (hp : ∀ place, tree.locate path = .ok place → other.get? place = tree.get? place) :
    other.read path = tree.read path := by
  have hf : other.find path = tree.find path := by
    cases hl : tree.locate path with
    | error cause => rw [find, find, h.locate, hl]; rfl
    | ok place => rw [find_of_locate hl, find_of_locate ((h.locate path).trans hl), hp place hl]
  rw [read, read, hf]

end Alike

end Tree

/-- What becomes of the bytes of a file that is processed under several paths in turn. -/
def Settings.rewriteAll (settings : Settings) (paths : List Path) (bytes : List UInt8) :
    Except Text.CodingFault (List UInt8) :=
  paths.foldlM (fun bytes path => (settings.rewrite path bytes).map Prod.snd) bytes

/-- Files that were all processed, one after the other. -/
inductive Settings.Ran (settings : Settings) :
    Tree → List Path → List FileResult → Tree → Prop where
  | nil {tree : Tree} : settings.Ran tree [] [] tree
  | cons {tree next after : Tree} {path : Path} {paths : List Path} {result : FileResult}
    {results : List FileResult}
    (hone : (Batch.oneFile settings.procedure false tree path).value = .ok (result, next))
    (hrest : settings.Ran next paths results after) :
    settings.Ran tree (path :: paths) (result :: results) after

variable {settings : Settings} {tree next after : Tree} {path : Path} {paths done rest : List Path}
  {result : FileResult} {results : List FileResult} {place : Location} {bytes : List UInt8}

namespace Batch

theorem files_cons_of_ok
    (h : (oneFile settings.procedure false tree path).value = .ok (result, next))
    (paths : List Path) :
    (files settings.procedure false tree (path :: paths)).value =
      { (files settings.procedure false next paths).value with
        results := result :: (files settings.procedure false next paths).value.results } := by
  rw [files]
  simp only [Traced.value_bind, h, Traced.value_pure]

theorem files_cons_of_error {fault : BatchFault}
    (h : (oneFile settings.procedure false tree path).value = .error fault) (paths : List Path) :
    (files settings.procedure false tree (path :: paths)).value = ⟨[], tree, some fault⟩ := by
  rw [files]
  simp only [Traced.value_bind, h, Traced.value_pure]

/-- How far a run gets: through all files, or up to the first that is refused. -/
theorem files_cases (settings : Settings) (tree : Tree) (paths : List Path) :
    ∃ done results after, settings.Ran tree done results after ∧
      ((paths = done ∧
        (files settings.procedure false tree paths).value = ⟨results, after, none⟩) ∨
      ∃ path rest fault, paths = done ++ path :: rest ∧
        (oneFile settings.procedure false after path).value = .error fault ∧
        (files settings.procedure false tree paths).value = ⟨results, after, some fault⟩) := by
  induction paths generalizing tree with
  | nil => exact ⟨[], [], tree, .nil, .inl ⟨rfl, rfl⟩⟩
  | cons path paths ih =>
    cases ho : (oneFile settings.procedure false tree path).value with
    | error fault =>
      exact ⟨[], [], tree, .nil, .inr ⟨path, paths, fault, rfl, ho, files_cons_of_error ho paths⟩⟩
    | ok pair =>
      obtain ⟨result, next⟩ := pair
      have hfiles := files_cons_of_ok ho paths
      obtain ⟨done, results, after, hran, hstop⟩ := ih next
      refine ⟨path :: done, result :: results, after, .cons ho hran, ?_⟩
      rcases hstop with ⟨rfl, hv⟩ | ⟨path', rest, fault, rfl, hf, hv⟩
      · exact .inl ⟨rfl, by rw [hfiles, hv]⟩
      · exact .inr ⟨path', rest, fault, rfl, hf, by rw [hfiles, hv]⟩

end Batch

namespace Settings.Ran

theorem files_value (h : settings.Ran tree paths results after) :
    (Batch.files settings.procedure false tree paths).value = ⟨results, after, none⟩ := by
  induction h with
  | nil => rfl
  | cons hone hrest ih => rw [Batch.files_cons_of_ok hone, ih]

theorem of_files_value
    (h : (Batch.files settings.procedure false tree paths).value = ⟨results, after, none⟩) :
    settings.Ran tree paths results after := by
  obtain ⟨done, results', after', hran, ⟨rfl, hv⟩ | ⟨_, _, _, -, -, hv⟩⟩ :=
    Batch.files_cases settings tree paths
  · rw [h] at hv
    cases hv
    exact hran
  · rw [h] at hv
    cases hv

theorem length_eq (h : settings.Ran tree paths results after) : results.length = paths.length := by
  induction h with
  | nil => rfl
  | cons hone hrest ih => rw [List.length_cons, List.length_cons, ih]

theorem alike (h : settings.Ran tree paths results after) : tree.Alike after := by
  induction h with
  | nil => exact .refl _
  | cons hone hrest ih =>
    obtain ⟨location, bytes, content, hr, -, rfl⟩ := Batch.oneFile_eq_ok_iff.1 hone
    exact (Tree.alike_write (Tree.read_eq_ok_iff.1 hr).2.2).trans ih

theorem split (h : settings.Ran tree (done ++ rest) results after) :
    ∃ first second next, settings.Ran tree done first next ∧ settings.Ran next rest second after ∧
      results = first ++ second := by
  induction done generalizing tree results with
  | nil => exact ⟨[], results, tree, .nil, h, rfl⟩
  | cons path done ih =>
    cases h with
    | cons hone hrest =>
      obtain ⟨first, second, next, hf, hs, rfl⟩ := ih hrest
      exact ⟨_ :: first, second, next, .cons hone hf, hs, rfl⟩

theorem content (h : settings.Ran tree paths results after)
    (hg : tree.get? place = some (.file bytes)) :
    ∃ content, settings.rewriteAll (tree.leadingTo place paths) bytes = .ok content ∧
      after.get? place = some (.file content) := by
  induction h generalizing bytes with
  | nil => exact ⟨bytes, rfl, hg⟩
  | @cons tree next after path paths result results hone hrest ih =>
    obtain ⟨location, before, written, hr, hw, rfl⟩ := Batch.oneFile_eq_ok_iff.1 hone
    obtain ⟨hn, hl, hf⟩ := Tree.read_eq_ok_iff.1 hr
    have halike : tree.Alike (tree.write location written) := Tree.alike_write hf
    have hlead := halike.leadingTo place paths
    by_cases hp : place = location
    · subst hp
      obtain rfl : bytes = before := by
        rw [hg] at hf
        cases hf
        rfl
      obtain ⟨content, ha, hc⟩ := ih (Tree.write_get?_self hf)
      refine ⟨content, ?_, hc⟩
      rw [hlead] at ha
      rw [Tree.leadingTo_cons_of_locate hl, rewriteAll, List.foldlM_cons, hw]
      exact ha
    · have hg' : (tree.write location written).get? place = some (.file bytes) := by
        rw [Tree.write_get? (Tree.ne_nil_of_file hf), if_neg hp, hg]
      obtain ⟨content, ha, hc⟩ := ih hg'
      refine ⟨content, ?_, hc⟩
      rw [hlead] at ha
      have hne : tree.locate path ≠ .ok place := fun he => hp (Except.ok.inj (he.symm.trans hl))
      rw [Tree.leadingTo_cons_of_ne hne]
      exact ha

/-- A path finds its file as the paths in front of it have left it. -/
theorem result_at (h : settings.Ran tree (done ++ path :: rest) results after) :
    ∃ place bytes before result content, tree.read path = .ok (place, bytes) ∧
      settings.rewriteAll (tree.leadingTo place done) bytes = .ok before ∧
      settings.rewrite path before = .ok (result, content) ∧
      results[done.length]? = some result := by
  obtain ⟨first, second, next, hf, hs, rfl⟩ := h.split
  cases hs with
  | @cons _ _ _ _ _ result second hone hrest =>
    obtain ⟨place, before, content, hr, hw, rfl⟩ := Batch.oneFile_eq_ok_iff.1 hone
    obtain ⟨hn, hl, hg⟩ := Tree.read_eq_ok_iff.1 hr
    obtain ⟨bytes, hb⟩ := hf.alike.symm.exists_file hg
    have hl' := (hf.alike.locate path).symm.trans hl
    obtain ⟨content', ha, hc⟩ := hf.content hb
    obtain rfl : content' = before := by
      rw [hg] at hc
      cases hc
      rfl
    refine ⟨place, bytes, _, result, content, Tree.read_eq_ok_iff.2 ⟨hn, hl', hb⟩, ha, hw, ?_⟩
    rw [← hf.length_eq, List.getElem?_append_right (Nat.le_refl _), Nat.sub_self]
    rfl

theorem get?_eq (h : settings.Ran tree paths results after)
    (hp : ∀ path ∈ paths, tree.locate path ≠ .ok place) : after.get? place = tree.get? place := by
  induction h with
  | nil => rfl
  | @cons tree next after path paths result results hone hrest ih =>
    obtain ⟨location, bytes, content, hr, -, rfl⟩ := Batch.oneFile_eq_ok_iff.1 hone
    obtain ⟨-, hl, hf⟩ := Tree.read_eq_ok_iff.1 hr
    have hne : place ≠ location := fun he => hp path List.mem_cons_self (he ▸ hl)
    have halike : tree.Alike (tree.write location content) := Tree.alike_write hf
    rw [ih fun other ho => halike.locate other ▸ hp other (List.mem_cons_of_mem path ho),
      Tree.write_get? (Tree.ne_nil_of_file hf), if_neg hne]

end Settings.Ran

theorem Tree.leadingTo_eq_nil (h : ∀ path ∈ paths, tree.locate path ≠ .ok place) :
    tree.leadingTo place paths = [] :=
  List.filter_eq_nil_iff.2 fun path hp => mt of_decide_eq_true (h path hp)

theorem Settings.rewriteAll_singleton {content : List UInt8}
    (h : settings.rewrite path bytes = .ok (result, content)) :
    settings.rewriteAll [path] bytes = .ok content := by
  rw [rewriteAll, List.foldlM_cons, h]
  rfl

namespace Batch

theorem target_value_of_find {target : String}
    (hp : (settings.procedure.find tree (Path.ofString target)).value = .ok paths) :
    (Batch.target settings.procedure false tree target).value =
      (files settings.procedure false tree paths).value := by
  rw [Batch.target, resolve]
  simp only [Traced.value_bind, hp]
  cases paths <;> rfl

end Batch

end MethodMarkers
