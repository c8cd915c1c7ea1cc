import MethodMarkers.Proofs.FileIndependence

namespace MethodMarkers

variable {settings : Settings} {tree after : Tree} {path : Path} {paths done rest : List Path}
  {results : List FileResult} {place : Location}

theorem Settings.rewrite_after {result : FileResult} {bytes content : List UInt8}
    (h : settings.rewrite path bytes = .ok (result, content)) :
    ∃ encoding text marked, Text.Encoding.named settings.encoding = .ok encoding ∧
      encoding.decode bytes = .ok text ∧
      (Instrument.lines settings (some path) (Source.ofText text).lines).value = .ok marked ∧
      result.after = marked.after ∧
      encoding.encode ((Source.ofText text).layout.render result.after).toList = .ok content := by
  obtain ⟨encoding, text, he, hd, rfl, hc⟩ := rewrite_eq_ok_iff.1 h
  obtain ⟨marked, hm, ho⟩ := settings.mark_value path text
  refine ⟨encoding, text, marked, he, hd, hm, ?_, hc⟩
  rw [← ho]

namespace Batch

theorem target_stopped {target : String} {fault : BatchFault}
    (hp : (settings.procedure.find tree (Path.ofString target)).value = .ok paths)
    (hr : (Batch.target settings.procedure false tree target).value =
      ⟨results, after, some fault⟩) :
    ∃ done path rest, paths = done ++ path :: rest ∧ settings.Ran tree done results after ∧
      (oneFile settings.procedure false after path).value = .error fault := by
  rw [target_value_of_find hp] at hr
  obtain ⟨done, results', after', hran, ⟨-, hv⟩ | ⟨path, rest, fault', hs, hf, hv⟩⟩ :=
    files_cases settings tree paths
  · rw [hv] at hr
    cases hr
  · rw [hv] at hr
    cases hr
    exact ⟨done, path, rest, hs, hran, hf⟩

end Batch

theorem Settings.Ran.read_rest (h : settings.Ran tree done results after)
    (hd : ((done ++ rest).map tree.locate).Nodup) (hm : path ∈ rest) :
    after.read path = tree.read path := by
  apply h.alike.read_eq
  intro place hl
  apply h.get?_eq
  intro other ho he
  rw [List.map_append, List.nodup_append] at hd
  exact hd.2.2 _ (List.mem_map_of_mem ho) _ (List.mem_map_of_mem hm) (he.trans hl.symm)

/-- A file that stops a run would have stopped it first as well. -/
theorem Settings.Ran.refuses {fault : BatchFault} (h : settings.Ran tree done results after)
    (hd : ((done ++ path :: rest).map tree.locate).Nodup)
    (hf : (Batch.oneFile settings.procedure false after path).value = .error fault) :
    ∃ refusal, fault = .file refusal ∧ settings.Refuses tree path refusal ∧
      (Batch.oneFile settings.procedure false tree path).value = .error fault := by
  have hfirst : (Batch.oneFile settings.procedure false after path).value.map Prod.fst =
      (Batch.oneFile settings.procedure false tree path).value.map Prod.fst :=
    Batch.oneFile_congr (h.read_rest hd List.mem_cons_self)
  rw [hf] at hfirst
  rcases Batch.oneFile_cases settings tree path with
    ⟨location, bytes, result, content, -, -, hone⟩ | ⟨refusal, hrefuses, hone⟩
  · rw [hone] at hfirst
    cases hfirst
  · rw [hone] at hfirst
    cases hfirst
    exact ⟨refusal, rfl, hrefuses, hone⟩

namespace Batch

theorem oneFile_whole (settings : Settings) (tree : Tree) (path : Path) :
    (∃ location bytes encoding text marked result content after,
      tree.read path = .ok (location, bytes) ∧
      Text.Encoding.named settings.encoding = .ok encoding ∧
      encoding.decode bytes = .ok text ∧
      (Instrument.lines settings (some path) (Source.ofText text).lines).value = .ok marked ∧
      (oneFile settings.procedure false tree path).value = .ok (result, after) ∧
      result.after = marked.after ∧
      encoding.encode ((Source.ofText text).layout.render result.after).toList = .ok content ∧
      after.read path = .ok (location, content) ∧
      ∀ place, place ≠ location → after.get? place = tree.get? place) ∨
    ∃ fault, settings.Refuses tree path fault ∧
      (oneFile settings.procedure false tree path).value = .error (.file fault) ∧
      (files settings.procedure false tree [path]).value = ⟨[], tree, some (.file fault)⟩ := by
  rcases oneFile_cases settings tree path with
    ⟨location, bytes, result, content, hr, hw, hone⟩ | ⟨fault, hrefuses, hone⟩
  · obtain ⟨encoding, text, marked, he, hd, hm, ha, hc⟩ := Settings.rewrite_after hw
    refine .inl ⟨location, bytes, encoding, text, marked, result, content, _, hr, he, hd, hm, hone,
      ha, hc, Tree.read_write hr content, ?_⟩
    intro place hp
    rw [Tree.write_get? (Tree.ne_nil_of_file (Tree.read_eq_ok_iff.1 hr).2.2), if_neg hp]
  · exact .inr ⟨fault, hrefuses, hone, files_cons_of_error hone []⟩

/-- A file is written as a whole or is refused, and a refused file changes nothing. In a tree
without links, a run that is stopped at a file has processed the files before it as if each were
alone, and has touched no other file. -/
theorem target_stops_whole (settings : Settings) (tree : Tree) :
    (∀ path,
      (∃ location bytes encoding text marked result content after,
        tree.read path = .ok (location, bytes) ∧
        Text.Encoding.named settings.encoding = .ok encoding ∧
        encoding.decode bytes = .ok text ∧
        (Instrument.lines settings (some path) (Source.ofText text).lines).value = .ok marked ∧
        (oneFile settings.procedure false tree path).value = .ok (result, after) ∧
        result.after = marked.after ∧
        encoding.encode ((Source.ofText text).layout.render result.after).toList = .ok content ∧
        after.read path = .ok (location, content) ∧
        ∀ place, place ≠ location → after.get? place = tree.get? place) ∨
      ∃ fault, settings.Refuses tree path fault ∧
        (oneFile settings.procedure false tree path).value = .error (.file fault) ∧
        (files settings.procedure false tree [path]).value = ⟨[], tree, some (.file fault)⟩) ∧
    ∀ target paths results after fault, tree.Proper → tree.LinkFree →
      (settings.procedure.find tree (Path.ofString target)).value = .ok paths →
      (Batch.target settings.procedure false tree target).value = ⟨results, after, some fault⟩ →
      ∃ done path rest refusal, paths = done ++ path :: rest ∧ fault = .file refusal ∧
        settings.Refuses tree path refusal ∧
        (oneFile settings.procedure false tree path).value = .error fault ∧
        settings.EachAlone tree done results after ∧
        ∀ later ∈ path :: rest, after.read later = tree.read later := by
  refine ⟨oneFile_whole settings tree, ?_⟩
  intro target paths results after fault hproper hfree hp hr
  obtain ⟨done, path, rest, rfl, hran, hf⟩ := target_stopped hp hr
  have hd := Discovery.ofTarget_locate_nodup hproper hfree hp
  have hdone : (done.map tree.locate).Nodup :=
    hd.sublist ((List.sublist_append_left ..).map tree.locate)
  obtain ⟨refusal, rfl, hrefuses, hone⟩ := hran.refuses hd hf
  exact ⟨done, path, rest, refusal, rfl, rfl, hrefuses, hone, hran.eachAlone hdone,
    fun later hm => hran.read_rest hd hm⟩

theorem pairTree_proper (first : List UInt8) (second : Entry) :
    (pairTree first second).Proper := by
  constructor
  · change [["A.cs"], ["B.cs"]].Nodup
    decide
  · change ∀ place ∈ [["A.cs"], ["B.cs"]], "." ∉ place ∧ ".." ∉ place
    decide

theorem pairTree_linkFree (first bytes : List UInt8) :
    (pairTree first (.file bytes)).LinkFree := by
  apply Tree.linkFree_of_entries
  rw [pairTree, List.forall_mem_cons, List.forall_mem_singleton]
  exact ⟨nofun, nofun⟩

/-- A file that cannot be decoded stops the run; the file in front of it stays marked. -/
theorem target_stops_at_undecodable :
    ∃ results after fault,
      (pairTree plainBytes (.file [0xFF])).Proper ∧ (pairTree plainBytes (.file [0xFF])).LinkFree ∧
      (shortMarkers.procedure.find (pairTree plainBytes (.file [0xFF])) (Path.ofString ".")).value =
        .ok pairPaths ∧
      (target shortMarkers.procedure false (pairTree plainBytes (.file [0xFF])) ".").value =
        ⟨results, after, some fault⟩ ∧
      after = pairTree onceMarkedBytes (.file [0xFF]) ∧
      ∃ done path rest refusal, pairPaths = done ++ path :: rest ∧ fault = .file refusal ∧
        shortMarkers.Refuses (pairTree plainBytes (.file [0xFF])) path refusal ∧
        shortMarkers.EachAlone (pairTree plainBytes (.file [0xFF])) done results after ∧
        ∀ later ∈ path :: rest,
          after.read later = (pairTree plainBytes (.file [0xFF])).read later := by
  have hfind := pairTree_find (pairTree_read_second plainBytes [0xFF])
  obtain ⟨a, ha⟩ := exists_pairTree_first (.file [0xFF])
  obtain ⟨fault, hd⟩ : ∃ fault, Text.Encoding.utf8.decode [0xFF] = .error fault := by
    have hnone : (Text.Encoding.utf8.decode [0xFF]).toOption = none := by decide +kernel
    cases hd : Text.Encoding.utf8.decode [0xFF] with
    | error fault => exact ⟨fault, rfl⟩
    | ok text =>
      rw [hd] at hnone
      cases hnone
  have hb : (oneFile shortMarkers.procedure false (pairTree onceMarkedBytes (.file [0xFF]))
      ⟨0, ["B.cs"]⟩).value = .error (.file (.coding fault)) :=
    oneFile_of_read_error (Settings.read_value_of_undecodable
      (pairTree_read_second onceMarkedBytes [0xFF]) named_default hd)
  have hvalue := target_value_of_find hfind
  rw [pairPaths, files_cons_of_ok ha, files_cons_of_error hb] at hvalue
  have hproper := pairTree_proper plainBytes (.file [0xFF])
  have hfree := pairTree_linkFree plainBytes [0xFF]
  obtain ⟨done, path, rest, refusal, hs, hf, hr, -, halone, hrest⟩ :=
    (target_stops_whole shortMarkers (pairTree plainBytes (.file [0xFF]))).2 _ _ _ _ _ hproper hfree
      hfind hvalue
  exact ⟨_, _, _, hproper, hfree, hfind, hvalue, rfl, done, path, rest, refusal, hs, hf, hr, halone,
    hrest⟩

end Batch

end MethodMarkers
