import MethodMarkers.Proofs.TreeWriting
import Mathlib.Data.List.Nodup

namespace MethodMarkers

namespace Tree

/-- One entry for each place, and no name that would lead somewhere else. -/
structure Proper (tree : Tree) : Prop where
  nodup : (tree.entries.map Prod.fst).Nodup
  names : ∀ place ∈ tree.entries.map Prod.fst, "." ∉ place ∧ ".." ∉ place

def LinkFree (tree : Tree) : Prop :=
  ∀ place target, tree.get? place ≠ some (.link target)

variable {tree : Tree} {links : Nat} {here there base place location : Location}
  {xs names : List String} {path directory : Path} {kind : Entry → Bool}

theorem write_places (tree : Tree) (location : Location) (content : List UInt8) :
    (tree.write location content).entries.map Prod.fst = tree.entries.map Prod.fst := by
  rw [write, List.map_map]
  apply List.map_congr_left
  rintro ⟨place, entry⟩ -
  dsimp only [Function.comp]
  split <;> rfl

theorem Proper.write (h : tree.Proper) (location : Location) (content : List UInt8) :
    (tree.write location content).Proper where
  nodup := by
    rw [write_places]
    exact h.nodup
  names := by
    rw [write_places]
    exact h.names

theorem mem_missingDirectories (h : place ∈ tree.missingDirectories location) :
    place ∉ tree.entries.map Prod.fst ∧ ∃ n, place = location.take n := by
  obtain ⟨hm, hn⟩ := List.mem_filter.1 h
  obtain ⟨n, -, rfl⟩ := List.mem_map.1 hm
  refine ⟨?_, n, rfl⟩
  intro he
  obtain ⟨⟨place, entry⟩, he, hp⟩ := List.mem_map.1 he
  have hget := Option.isNone_iff_eq_none.1 hn
  rw [get?] at hget
  split at hget
  · cases hget
  · have hne := List.lookup_eq_none_iff.1 hget _ he
    rw [← hp, bne_self_eq_false] at hne
    cases hne

theorem missingDirectories_nodup (tree : Tree) (location : Location) :
    (tree.missingDirectories location).Nodup := by
  apply List.Nodup.filter
  apply List.Nodup.map_on _ List.nodup_range
  intro m hm n hn he
  have hlength := congrArg List.length he
  rw [List.mem_range] at hm hn
  rwa [List.length_take_of_le (Nat.le_of_lt hm),
    List.length_take_of_le (Nat.le_of_lt hn)] at hlength

theorem put_places (tree : Tree) (location : Location) (entry : Entry) :
    (tree.put location entry).entries.map Prod.fst =
      (tree.entries.map Prod.fst ++ tree.missingDirectories location).filter (· != location) ++
        [location] := by
  have hmap : (tree.entries ++ (tree.missingDirectories location).map
      fun place => (place, Entry.directory)).map Prod.fst =
        tree.entries.map Prod.fst ++ tree.missingDirectories location := by
    rw [List.map_append, List.map_map]
    exact congrArg _ (List.map_id _)
  rw [put, List.map_append, ← hmap, List.filter_map]
  rfl

theorem Proper.put (h : tree.Proper) (hl : "." ∉ location ∧ ".." ∉ location) (entry : Entry) :
    (tree.put location entry).Proper where
  nodup := by
    rw [put_places]
    apply List.Nodup.append
    · apply List.Nodup.filter
      apply h.nodup.append (missingDirectories_nodup tree location)
      intro place hp hm
      exact (mem_missingDirectories hm).1 hp
    · exact List.nodup_singleton _
    · intro place hp hm
      rw [List.mem_singleton] at hm
      simpa [hm] using (List.mem_filter.1 hp).2
  names := by
    rw [put_places]
    intro place hp
    rcases List.mem_append.1 hp with hp | hp
    · rcases List.mem_append.1 (List.mem_filter.1 hp).1 with hp | hp
      · exact h.names place hp
      · obtain ⟨-, n, rfl⟩ := mem_missingDirectories hp
        exact ⟨mt List.mem_of_mem_take hl.1, mt List.mem_of_mem_take hl.2⟩
    · rw [List.mem_singleton] at hp
      exact hp ▸ hl

/-- Whatever is put into an empty tree at places without dots, the tree is proper. -/
theorem proper_foldl_put (hl : "." ∉ location ∧ ".." ∉ location)
    (entries : List (Location × Entry))
    (he : ∀ entry ∈ entries, "." ∉ entry.1 ∧ ".." ∉ entry.1) :
    (entries.foldl (fun tree entry => tree.put entry.1 entry.2) (empty location)).Proper := by
  have hempty : (empty location).Proper :=
    ⟨List.nodup_singleton location, fun place hp => List.mem_singleton.1 hp ▸ hl⟩
  exact List.foldlRecOn entries _ hempty fun tree ht entry hm => ht.put (he entry hm) entry.2

theorem mem_entries_of_get? {entry : Entry} (h : tree.get? place = some entry) (hp : place ≠ []) :
    (place, entry) ∈ tree.entries := by
  rw [get?, if_neg hp] at h
  obtain ⟨before, after, he, -⟩ := List.lookup_eq_some_iff.1 h
  rw [he]
  exact List.mem_append_right before List.mem_cons_self

theorem linkFree_of_entries (h : ∀ entry ∈ tree.entries, ∀ target, entry.2 ≠ .link target) :
    tree.LinkFree := by
  intro place target hg
  by_cases hp : place = []
  · rw [get?, if_pos hp] at hg
    cases hg
  · exact h _ (mem_entries_of_get? hg hp) target rfl

theorem LinkFree.walk_append (h : tree.LinkFree) (hw : tree.walk links here xs = .ok there)
    (hd : tree.get? there = some .directory) (ys : List String) :
    tree.walk links here (xs ++ ys) = tree.walk links there ys := by
  fun_induction Tree.walk tree links here xs with
  | case1 =>
    cases hw
    rfl
  | case2 links here rest ih => rw [List.cons_append, Tree.walk, ih hw]
  | case3 links here rest ih => rw [List.cons_append, Tree.walk, ih hw]
  | case4 => cases hw
  | case5 => cases hw
  | case6 links here name rest hdot hdots hlong hg ih =>
    rw [List.cons_append, Tree.walk, if_neg hlong, hg]
    · exact ih hw
    all_goals assumption
  | case7 links here name hdot hdots hlong content hg =>
    cases hw
    rw [hg] at hd
    cases hd
  | case8 => cases hw
  | case9 here name rest hdot hdots hlong target hg => exact absurd hg (h _ target)
  | case10 here name rest hdot hdots hlong target hg => exact absurd hg (h _ target)

theorem LinkFree.walk_names (h : tree.LinkFree) (hn : "." ∉ names ∧ ".." ∉ names)
    (hw : tree.walk links here names = .ok there) : there = here ++ names := by
  fun_induction Tree.walk tree links here names with
  | case1 =>
    cases hw
    rw [List.append_nil]
  | case2 => exact absurd List.mem_cons_self hn.1
  | case3 => exact absurd List.mem_cons_self hn.2
  | case4 => cases hw
  | case5 => cases hw
  | case6 links here name rest hdot hdots hlong hg ih =>
    have hrest := ih ⟨mt (List.mem_cons_of_mem name) hn.1, mt (List.mem_cons_of_mem name) hn.2⟩ hw
    rw [hrest, List.append_assoc, List.singleton_append]
  | case7 =>
    cases hw
    rfl
  | case8 => cases hw
  | case9 here name rest hdot hdots hlong target hg => exact absurd hg (h _ target)
  | case10 here name rest hdot hdots hlong target hg => exact absurd hg (h _ target)

theorem walk_of_locate (h : tree.locate path = .ok place) :
    tree.walk linkLimit (if path.slashes = 0 then tree.workingDirectory else []) path.segments =
      .ok place := by
  rw [locate] at h
  split at h
  · cases h
  · split at h
    · cases h
    · exact h

theorem below?_eq_some_iff {directory : Location} :
    below? directory location = some names ↔ location = directory ++ names ∧ names ≠ [] := by
  fun_induction below? directory location with
  | case1 => simp
  | case2 rest hr =>
    simp only [Option.some.injEq, List.nil_append]
    exact ⟨fun he => ⟨he, he ▸ hr⟩, fun he => he.1⟩
  | case3 => simp
  | case4 b directory location ih => simp [ih]
  | case5 a directory b location hne => simp [Ne.symm hne]

theorem leadsTo_eq_true (h : tree.leadsTo kind path = .ok true) :
    ∃ place entry, tree.locate path = .ok place ∧ tree.get? place = some entry ∧
      kind entry = true := by
  cases hl : tree.locate path with
  | error cause =>
    have hf : tree.find path = .error cause := by
      rw [find, hl]
      rfl
    rw [leadsTo, hf] at h
    cases cause <;> cases h
  | ok place =>
    rw [leadsTo, find_of_locate hl] at h
    cases hg : tree.get? place with
    | none =>
      rw [hg] at h
      cases h
    | some entry =>
      rw [hg] at h
      exact ⟨place, entry, rfl, hg, Except.ok.inj h⟩

theorem directory_of_isDirectory (h : tree.isDirectory path = .ok true) :
    ∃ place, tree.locate path = .ok place ∧ tree.get? place = some .directory := by
  obtain ⟨place, entry, hl, hg, hk⟩ := leadsTo_eq_true h
  cases entry with
  | directory => exact ⟨place, hl, hg⟩
  | file content => cases hk
  | link target => cases hk

theorem Proper.namesBelow_nodup (h : tree.Proper) (base : Location) :
    (tree.namesBelow base).Nodup := by
  have hm : tree.namesBelow base = (tree.entries.map Prod.fst).filterMap (below? base) := by
    rw [namesBelow, List.filterMap_map]
    rfl
  rw [hm]
  refine h.nodup.filterMap fun place place' names hn hn' => ?_
  rw [(below?_eq_some_iff.1 hn).1, (below?_eq_some_iff.1 hn').1]

theorem Proper.names_of_mem_namesBelow (h : tree.Proper) (hn : names ∈ tree.namesBelow base) :
    "." ∉ names ∧ ".." ∉ names := by
  obtain ⟨entry, he, hb⟩ := List.mem_filterMap.1 hn
  have hp := h.names entry.1 (List.mem_map_of_mem he)
  rw [(below?_eq_some_iff.1 hb).1] at hp
  exact ⟨mt (List.mem_append_right base) hp.1, mt (List.mem_append_right base) hp.2⟩

end Tree

end MethodMarkers
