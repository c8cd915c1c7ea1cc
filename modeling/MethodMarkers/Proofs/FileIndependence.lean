import MethodMarkers.Proofs.BatchRun
import MethodMarkers.Proofs.FileDiscovery
import Mathlib.Data.List.Nodup

namespace MethodMarkers
open Text

variable {settings : Settings} {tree after : Tree} {path : Path} {paths : List Path}
  {results : List FileResult} {place : Location} {bytes : List UInt8}

/-- Every file has the result and the content that it gets when it is processed alone, and nothing
else is changed. -/
structure Settings.EachAlone (settings : Settings) (tree : Tree) (paths : List Path)
    (results : List FileResult) (after : Tree) : Prop where
  length_eq : results.length = paths.length
  alone : ∀ (k : Nat) (path : Path), paths[k]? = some path → ∃ result alone,
    (Batch.oneFile settings.procedure false tree path).value = .ok (result, alone) ∧
      results[k]? = some result ∧ after.read path = alone.read path
  others : ∀ place, (∀ path ∈ paths, tree.locate path ≠ .ok place) →
    after.get? place = tree.get? place

theorem getElem?_split {α : Type} {xs : List α} {k : Nat} {x : α} (h : xs[k]? = some x) :
    xs = xs.take k ++ x :: xs.drop (k + 1) ∧ (xs.take k).length = k := by
  obtain ⟨hlt, rfl⟩ := List.getElem?_eq_some_iff.1 h
  exact ⟨by rw [← List.drop_eq_getElem_cons hlt, List.take_append_drop],
    List.length_take_of_le (Nat.le_of_lt hlt)⟩

theorem Settings.Ran.eachAlone (h : settings.Ran tree paths results after)
    (hd : (paths.map tree.locate).Nodup) : settings.EachAlone tree paths results after where
  length_eq := h.length_eq
  others _ hp := h.get?_eq hp
  alone k path hk := by
    obtain ⟨hs, hlength⟩ := getElem?_split hk
    rw [hs] at h hd
    obtain ⟨place, bytes, before, result, content, hr, hb, hw, hres⟩ := h.result_at
    obtain ⟨hn, hl, hg⟩ := Tree.read_eq_ok_iff.1 hr
    rw [List.map_append, List.map_cons, List.nodup_append, List.nodup_cons] at hd
    have hdone : tree.leadingTo place (paths.take k) = [] :=
      Tree.leadingTo_eq_nil fun other ho he =>
        hd.2.2 _ (List.mem_map_of_mem ho) _ List.mem_cons_self (he.trans hl.symm)
    have hrest : tree.leadingTo place (paths.drop (k + 1)) = [] :=
      Tree.leadingTo_eq_nil fun other ho he =>
        hd.2.1.1 (hl.trans he.symm ▸ List.mem_map_of_mem ho)
    rw [hdone] at hb
    obtain rfl : bytes = before := Except.ok.inj hb
    obtain ⟨content', hc, hafter⟩ := h.content hg
    rw [Tree.leadingTo_append, hdone, Tree.leadingTo_cons_of_locate hl, hrest, List.nil_append,
      rewriteAll_singleton hw] at hc
    cases hc
    refine ⟨result, _, Batch.oneFile_eq_ok_iff.2 ⟨place, bytes, content, hr, hw, rfl⟩,
      hlength ▸ hres, ?_⟩
    rw [Tree.read_write hr]
    exact Tree.read_eq_ok_iff.2 ⟨hn, (h.alike.locate path).trans hl, hafter⟩

/-- Where paths lead to different files, a run gets through if it would with each file alone. -/
theorem Settings.exists_ran (settings : Settings) (hd : (paths.map tree.locate).Nodup)
    (h : ∀ path ∈ paths, ∃ result alone,
      (Batch.oneFile settings.procedure false tree path).value = .ok (result, alone)) :
    ∃ results after, settings.Ran tree paths results after := by
  induction paths generalizing tree with
  | nil => exact ⟨[], tree, .nil⟩
  | cons path paths ih =>
    obtain ⟨result, next, hone⟩ := h path List.mem_cons_self
    obtain ⟨place, bytes, content, hr, -, rfl⟩ := Batch.oneFile_eq_ok_iff.1 hone
    obtain ⟨-, hl, hg⟩ := Tree.read_eq_ok_iff.1 hr
    have halike : tree.Alike (tree.write place content) := Tree.alike_write hg
    obtain ⟨hnot, hd⟩ := List.nodup_cons.1 hd
    have hd' : (paths.map (tree.write place content).locate).Nodup := by
      rwa [List.map_congr_left fun other _ => halike.locate other]
    obtain ⟨results, after, hran⟩ := ih hd' fun other ho => by
      have hread : (tree.write place content).read other = tree.read other := by
        refine halike.read_eq fun place' hl' => ?_
        have hne : place' ≠ place := by
          rintro rfl
          exact hnot (hl.trans hl'.symm ▸ List.mem_map_of_mem ho)
        rw [Tree.write_get? (Tree.ne_nil_of_file hg), if_neg hne]
      obtain ⟨result, alone, ha⟩ := h other (List.mem_cons_of_mem path ho)
      obtain ⟨place', bytes', content', hr', hw', -⟩ := Batch.oneFile_eq_ok_iff.1 ha
      exact ⟨result, _, Batch.oneFile_eq_ok_iff.2
        ⟨place', bytes', content', hread.trans hr', hw', rfl⟩⟩
    exact ⟨result :: results, after, .cons hone hran⟩

namespace Settings.EachAlone

theorem exists_alone (h : settings.EachAlone tree paths results after) (hp : path ∈ paths) :
    ∃ result alone, (Batch.oneFile settings.procedure false tree path).value =
      .ok (result, alone) ∧ after.read path = alone.read path := by
  obtain ⟨k, hk⟩ := List.mem_iff_getElem?.1 hp
  obtain ⟨result, alone, ho, -, hr⟩ := h.alone k path hk
  exact ⟨result, alone, ho, hr⟩

/-- What a place holds afterwards is told by the paths alone, whatever their order. -/
theorem get?_eq {order : List Path} {others : List FileResult} {other : Tree}
    (h : settings.EachAlone tree paths results after)
    (h' : settings.EachAlone tree order others other) (hp : order.Perm paths) (place : Location) :
    other.get? place = after.get? place := by
  by_cases hl : ∃ path ∈ paths, tree.locate path = .ok place
  · obtain ⟨path, hm, hl⟩ := hl
    obtain ⟨result, alone, ho, hr⟩ := h.exists_alone hm
    obtain ⟨result', alone', ho', hr'⟩ := h'.exists_alone (hp.mem_iff.2 hm)
    obtain ⟨location, bytes, content, hread, -, rfl⟩ := Batch.oneFile_eq_ok_iff.1 ho
    obtain rfl : location = place :=
      Except.ok.inj ((Tree.read_eq_ok_iff.1 hread).2.1.symm.trans hl)
    rw [ho] at ho'
    cases ho'
    rw [Tree.read_write hread] at hr hr'
    rw [(Tree.read_eq_ok_iff.1 hr).2.2, (Tree.read_eq_ok_iff.1 hr').2.2]
  · rw [h.others place fun path hm he => hl ⟨path, hm, he⟩,
      h'.others place fun path hm he => hl ⟨path, hp.mem_iff.1 hm, he⟩]

end Settings.EachAlone

namespace Batch

/-- A file is rewritten once for each path of the run that leads to it, in the order of the run, and
each of these paths has the result of its turn. Where no two paths lead to the same file, as in a
tree without links, every file has the result and the content that it gets alone, in this order and
in any other. -/
theorem target_rewrites_in_turn {target : String}
    (hp : (settings.procedure.find tree (Path.ofString target)).value = .ok paths)
    (hr : (Batch.target settings.procedure false tree target).value = ⟨results, after, none⟩) :
    (∀ place bytes, tree.get? place = some (.file bytes) →
      ∃ content, settings.rewriteAll (tree.leadingTo place paths) bytes = .ok content ∧
        after.get? place = some (.file content)) ∧
    (∀ done path rest, paths = done ++ path :: rest →
      ∃ place bytes before result content, tree.read path = .ok (place, bytes) ∧
        settings.rewriteAll (tree.leadingTo place done) bytes = .ok before ∧
        settings.rewrite path before = .ok (result, content) ∧
        results[done.length]? = some result) ∧
    ((paths.map tree.locate).Nodup → settings.EachAlone tree paths results after ∧
      ∀ order, order.Perm paths → ∃ others other,
        (files settings.procedure false tree order).value = ⟨others, other, none⟩ ∧
          settings.EachAlone tree order others other ∧
          ∀ place, other.get? place = after.get? place) ∧
    (tree.Proper → tree.LinkFree → (paths.map tree.locate).Nodup) := by
  rw [target_value_of_find hp] at hr
  have hran := Settings.Ran.of_files_value hr
  refine ⟨fun _ _ => hran.content, ?_, ?_, ?_⟩
  · rintro done path rest rfl
    exact hran.result_at
  · intro hd
    have halone := hran.eachAlone hd
    refine ⟨halone, ?_⟩
    intro order ho
    have hd' : (order.map tree.locate).Nodup := (ho.map tree.locate).nodup_iff.2 hd
    obtain ⟨others, other, hran'⟩ := settings.exists_ran hd' fun path hm => by
      obtain ⟨result, alone, ha, -⟩ := halone.exists_alone (ho.mem_iff.1 hm)
      exact ⟨result, alone, ha⟩
    have halone' := hran'.eachAlone hd'
    exact ⟨others, other, hran'.files_value, halone', halone.get?_eq halone' ho⟩
  · intro hproper hfree
    exact Discovery.ofTarget_locate_nodup hproper hfree hp

section Pair

def shortMarkers : Settings :=
  { markers := { beginSample := "B();", endSample := "E();" } }

def plainBytes : List UInt8 :=
  Utf8.encode "void F() \x7b\n\x7d\n".toList

def onceMarkedBytes : List UInt8 :=
  Utf8.encode "void F() \x7b\n\tB();\n\tE();\n\x7d\n".toList

def twiceMarkedBytes : List UInt8 :=
  Utf8.encode "void F() \x7b\n\tB();\n\tB();\n\tE();\n\tE();\n\x7d\n".toList

def pairTree (first : List UInt8) (second : Entry) : Tree :=
  ⟨[], [(["A.cs"], .file first), (["B.cs"], second)]⟩

def pairPaths : List Path :=
  [⟨0, ["A.cs"]⟩, ⟨0, ["B.cs"]⟩]

theorem pairTree_write (first : List UInt8) (second : Entry) (content : List UInt8) :
    (pairTree first second).write ["A.cs"] content = pairTree content second := by
  rfl

theorem pairTree_read_first (first : List UInt8) (second : Entry) :
    (pairTree first second).read ⟨0, ["A.cs"]⟩ = .ok (["A.cs"], first) :=
  Tree.read_name (by decide) (by decide) (by decide +kernel) (by decide) (by decide +kernel) rfl

theorem pairTree_read_second (first bytes : List UInt8) :
    (pairTree first (.file bytes)).read ⟨0, ["B.cs"]⟩ = .ok (["B.cs"], bytes) :=
  Tree.read_name (by decide) (by decide) (by decide +kernel) (by decide) (by decide +kernel) rfl

theorem pairTree_read_link (first : List UInt8) :
    (pairTree first (.link "A.cs")).read ⟨0, ["B.cs"]⟩ = .ok (["A.cs"], first) :=
  Tree.read_link (by decide) (by decide) (by decide +kernel) (by decide) (by decide +kernel) rfl
    (by decide) (by decide) (by decide +kernel) (by decide) (by decide) rfl

theorem pairTree_find {first : List UInt8} {second : Entry} {opened : Location × List UInt8}
    (h : (pairTree first second).read ⟨0, ["B.cs"]⟩ = .ok opened) :
    (shortMarkers.procedure.find (pairTree first second) (Path.ofString ".")).value =
      .ok pairPaths := by
  refine Discovery.ofTarget_here [["A.cs"], ["B.cs"]] rfl rfl ?_ (by decide +kernel)
    (by decide +kernel)
  rw [List.map_cons, List.map_cons, List.map_nil, List.forall_mem_cons, List.forall_mem_singleton]
  exact ⟨⟨_, pairTree_read_first first second⟩, ⟨_, h⟩⟩

theorem pairTree_places (first bytes : List UInt8) :
    pairPaths.map (pairTree first (.file bytes)).locate = [.ok ["A.cs"], .ok ["B.cs"]] := by
  rw [pairPaths, List.map_cons, List.map_cons, List.map_nil,
    (Tree.read_eq_ok_iff.1 (pairTree_read_first first _)).2.1,
    (Tree.read_eq_ok_iff.1 (pairTree_read_second first bytes)).2.1]

theorem exists_rewrite_of_content {content : List UInt8}
    (h : (settings.rewrite path bytes).toOption.map Prod.snd = some content) :
    ∃ result, settings.rewrite path bytes = .ok (result, content) := by
  cases hw : settings.rewrite path bytes with
  | error fault =>
    rw [hw] at h
    cases h
  | ok pair =>
    rw [hw] at h
    cases h
    exact ⟨pair.1, rfl⟩

theorem exists_pairTree_first (second : Entry) :
    ∃ result,
      (oneFile shortMarkers.procedure false (pairTree plainBytes second) ⟨0, ["A.cs"]⟩).value =
        .ok (result, pairTree onceMarkedBytes second) := by
  obtain ⟨result, hw⟩ : ∃ result,
      shortMarkers.rewrite ⟨0, ["A.cs"]⟩ plainBytes = .ok (result, onceMarkedBytes) :=
    exists_rewrite_of_content (by decide +kernel)
  exact ⟨result, oneFile_eq_ok_iff.2
    ⟨_, _, _, pairTree_read_first plainBytes second, hw, (pairTree_write ..).symm⟩⟩

/-- Two files at different places are each marked once, also in the other order. -/
theorem target_rewrites_pair_in_turn :
    ∃ results after,
      (shortMarkers.procedure.find (pairTree plainBytes (.file plainBytes))
        (Path.ofString ".")).value = .ok pairPaths ∧
      (target shortMarkers.procedure false (pairTree plainBytes (.file plainBytes)) ".").value =
        ⟨results, after, none⟩ ∧
      (pairPaths.map (pairTree plainBytes (.file plainBytes)).locate).Nodup ∧
      shortMarkers.EachAlone (pairTree plainBytes (.file plainBytes)) pairPaths results after ∧
      after.get? ["A.cs"] = some (.file onceMarkedBytes) ∧
      after.get? ["B.cs"] = some (.file onceMarkedBytes) ∧
      ∃ others other,
        (files shortMarkers.procedure false (pairTree plainBytes (.file plainBytes))
          pairPaths.reverse).value = ⟨others, other, none⟩ ∧
        ∀ place, other.get? place = after.get? place := by
  have hfind := pairTree_find (pairTree_read_second plainBytes plainBytes)
  obtain ⟨a, ha⟩ := exists_pairTree_first (.file plainBytes)
  obtain ⟨b, hb⟩ : ∃ result,
      shortMarkers.rewrite ⟨0, ["B.cs"]⟩ plainBytes = .ok (result, onceMarkedBytes) :=
    exists_rewrite_of_content (by decide +kernel)
  have hsecond := pairTree_read_second onceMarkedBytes plainBytes
  have hran := Settings.Ran.cons ha (.cons (oneFile_eq_ok_iff.2 ⟨_, _, _, hsecond, hb, rfl⟩) .nil)
  have hvalue := (target_value_of_find hfind).trans hran.files_value
  have hplaces : (pairPaths.map (pairTree plainBytes (.file plainBytes)).locate).Nodup := by
    rw [pairTree_places]
    decide
  obtain ⟨halone, horder⟩ := (target_rewrites_in_turn hfind hvalue).2.2.1 hplaces
  obtain ⟨others, other, hother, -, hsame⟩ := horder pairPaths.reverse (List.reverse_perm _)
  exact ⟨_, _, hfind, hvalue, hplaces, halone, rfl, rfl, others, other, hother, hsame⟩

/-- A file and a link to it are both found, and the file is marked twice in one run. -/
theorem target_marks_linked_twice :
    ∃ results after,
      (shortMarkers.procedure.find (pairTree plainBytes (.link "A.cs"))
        (Path.ofString ".")).value = .ok pairPaths ∧
      (target shortMarkers.procedure false (pairTree plainBytes (.link "A.cs")) ".").value =
        ⟨results, after, none⟩ ∧
      (∃ result alone,
        (oneFile shortMarkers.procedure false (pairTree plainBytes (.link "A.cs"))
          ⟨0, ["A.cs"]⟩).value = .ok (result, alone) ∧
        alone.get? ["A.cs"] = some (.file onceMarkedBytes)) ∧
      after.get? ["A.cs"] = some (.file twiceMarkedBytes) ∧
      ¬ shortMarkers.EachAlone (pairTree plainBytes (.link "A.cs")) pairPaths results after := by
  have hfind := pairTree_find (pairTree_read_link plainBytes)
  obtain ⟨a, ha⟩ := exists_pairTree_first (.link "A.cs")
  obtain ⟨b, hb⟩ : ∃ result,
      shortMarkers.rewrite ⟨0, ["B.cs"]⟩ onceMarkedBytes = .ok (result, twiceMarkedBytes) :=
    exists_rewrite_of_content (by decide +kernel)
  have hsecond := pairTree_read_link onceMarkedBytes
  have hran := Settings.Ran.cons ha (.cons (oneFile_eq_ok_iff.2 ⟨_, _, _, hsecond, hb, rfl⟩) .nil)
  have hvalue := (target_value_of_find hfind).trans hran.files_value
  refine ⟨_, _, hfind, hvalue, ⟨a, _, ha, rfl⟩, rfl, ?_⟩
  intro halone
  obtain ⟨result, alone, ho, -, hread⟩ := halone.alone 0 ⟨0, ["A.cs"]⟩ rfl
  rw [ha] at ho
  cases ho
  rw [pairTree_read_first] at hread
  have hget := (Tree.read_eq_ok_iff.1 hread).2.2
  exact absurd hget (by decide +kernel)

end Pair

end Batch

end MethodMarkers
