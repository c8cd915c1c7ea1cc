import MethodMarkers.Discovery
import MethodMarkers.Proofs.LinkFreeTree

namespace MethodMarkers

namespace Discovery
open MethodMarkers.Tree

variable {tree : Tree} {target directory path : Path} {base place : Location}
  {paths files : List Path} {selection : Selection}

theorem filesAmong_sublist (h : filesAmong tree paths = .ok files) :
    files.Sublist paths ∧ ∀ path ∈ files, tree.isFile path = .ok true := by
  induction paths generalizing files with
  | nil =>
    cases h
    exact ⟨List.Sublist.slnil, nofun⟩
  | cons path paths ih =>
    obtain ⟨isFile, hi, hrest⟩ := bind_eq_ok_iff.1 h
    obtain ⟨rest, hr, he⟩ := bind_eq_ok_iff.1 hrest
    obtain ⟨hs, hall⟩ := ih hr
    cases he
    cases isFile with
    | false => exact ⟨hs.cons path, hall⟩
    | true => exact ⟨hs.cons_cons path, List.forall_mem_cons.2 ⟨hi, hall⟩⟩

theorem selected_sublist (tree : Tree) (directory : Path)
    (patterns : Option (List IgnorePattern)) (whenSelected : Bool) (paths : List Path) :
    (selected tree directory patterns whenSelected paths).Sublist paths := by
  cases patterns with
  | none => exact List.Sublist.refl _
  | some patterns => exact List.filter_sublist

theorem below_sublist (h : (below tree directory selection).value = .ok files) :
    ∃ among kept, filesBelow tree directory = .ok among ∧ kept.Sublist among ∧
      files.Perm kept := by
  rw [below] at h
  split at h
  · cases h
  · cases h
  · next extensions among hx ha =>
    simp only [Traced.value_bind] at h
    split at h
    · cases h
    · next included hi =>
      split at h
      · cases h
      · next excluded he =>
        cases h
        have hcandidates := selected_sublist tree directory included true
          (among.filter (hasExtension extensions))
        have hkept := (selected_sublist tree directory excluded false _).trans hcandidates
        exact ⟨among, _, ha, hkept.trans List.filter_sublist, List.mergeSort_perm _ _⟩

theorem isFile_of_read {bytes : List UInt8} (h : tree.read path = .ok (place, bytes)) :
    tree.isFile path = .ok true := by
  obtain ⟨-, hl, hg⟩ := read_eq_ok_iff.1 h
  rw [isFile, leadsTo, find_of_locate hl, hg]
  rfl

theorem below_value {extensions : List String}
    (ha : filesBelow tree directory = .ok files) :
    (below tree directory ⟨.ok extensions, .ok [], .ok []⟩).value =
      .ok (sortPaths (files.filter (hasExtension extensions))) := by
  rw [below, ha]
  rfl

theorem filesAmong_eq_self (h : ∀ path ∈ paths, tree.isFile path = .ok true) :
    filesAmong tree paths = .ok paths := by
  induction paths with
  | nil => rfl
  | cons path paths ih =>
    obtain ⟨hpath, hpaths⟩ := List.forall_mem_cons.1 h
    rw [filesAmong, hpath, ih hpaths]
    rfl

theorem ofTarget_here {extensions : List String} (names : List (List String))
    (hd : tree.get? tree.workingDirectory = some .directory)
    (hn : tree.namesBelow tree.workingDirectory = names)
    (hr : ∀ path ∈ names.map (Path.mk 0), ∃ opened, tree.read path = .ok opened)
    (hx : ∀ path ∈ names.map (Path.mk 0), hasExtension extensions path = true)
    (hs : (names.map (Path.mk 0)).Pairwise fun a b => (!b.precedes a) = true) :
    (ofTarget tree ⟨0, []⟩ ⟨.ok extensions, .ok [], .ok []⟩).value =
      .ok (names.map (Path.mk 0)) := by
  have hkind (kind : Entry → Bool) : tree.leadsTo kind ⟨0, []⟩ = .ok (kind .directory) := by
    rw [leadsTo, find_of_locate tree.locate_here, hd]
  have hbelow : filesBelow tree ⟨0, []⟩ = .ok (names.map (Path.mk 0)) := by
    rw [filesBelow, isDirectory, hkind]
    change filesAmong tree (visited tree ⟨0, []⟩) = _
    rw [visited, tree.locate_here]
    dsimp only
    rw [hn]
    refine filesAmong_eq_self fun path hp => ?_
    obtain ⟨opened, ho⟩ := hr path hp
    exact isFile_of_read ho
  rw [ofTarget, isFile, isDirectory, hkind, hkind]
  change (below tree ⟨0, []⟩ _).value = _
  rw [below_value hbelow, List.filter_eq_self.2 hx, sortPaths, List.mergeSort_of_pairwise hs]

theorem locate_visited (hp : tree.Proper) (hf : tree.LinkFree)
    (hb : tree.locate directory = .ok base) (hd : tree.get? base = some .directory)
    (hm : path ∈ visited tree directory) (hl : tree.locate path = .ok place) :
    ∃ names, place = base ++ names ∧
      path = { directory with segments := directory.segments ++ names } := by
  rw [visited, hb] at hm
  obtain ⟨names, hn, rfl⟩ := List.mem_map.1 hm
  have hw := walk_of_locate hl
  rw [hf.walk_append (walk_of_locate hb) hd names] at hw
  exact ⟨names, hf.walk_names (hp.names_of_mem_namesBelow hn) hw, rfl⟩

theorem visited_nodup (hp : tree.Proper) (directory : Path) : (visited tree directory).Nodup := by
  rw [visited]
  split
  · next base hb =>
    refine (hp.namesBelow_nodup base).map fun names names' he => ?_
    exact List.append_cancel_left (congrArg Path.segments he)
  · exact List.nodup_nil

theorem ofTarget_locate_nodup (hp : tree.Proper) (hf : tree.LinkFree)
    (h : (ofTarget tree target selection).value = .ok paths) :
    (paths.map tree.locate).Nodup := by
  rw [ofTarget] at h
  split at h
  · cases h
  · cases h
  · cases h
    exact List.nodup_singleton _
  · next hdirectory =>
    obtain ⟨among, kept, ha, hk, hperm⟩ := below_sublist h
    obtain ⟨base, hb, hd⟩ := directory_of_isDirectory hdirectory
    obtain ⟨isDirectory, hi, hamong⟩ := bind_eq_ok_iff.1 ha
    rw [hdirectory] at hi
    cases hi
    obtain ⟨hs, hall⟩ := filesAmong_sublist hamong
    have hkept : (kept.map tree.locate).Nodup := by
      refine List.Nodup.map_on (fun x hx y hy he => ?_)
        ((visited_nodup hp target).sublist (hk.trans hs))
      obtain ⟨place, entry, hlx, -, -⟩ := leadsTo_eq_true (hall x (hk.subset hx))
      obtain ⟨names, hnx, rfl⟩ := locate_visited hp hf hb hd (hs.subset (hk.subset hx)) hlx
      obtain ⟨names', hny, rfl⟩ :=
        locate_visited hp hf hb hd (hs.subset (hk.subset hy)) (he.symm.trans hlx)
      rw [List.append_cancel_left (hnx.symm.trans hny)]
    exact ((hperm.map tree.locate).nodup_iff).2 hkept
  · cases h

end Discovery

end MethodMarkers
