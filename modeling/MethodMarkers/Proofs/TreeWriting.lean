import MethodMarkers.Tree

namespace MethodMarkers

theorem bind_eq_ok_iff {ε α β : Type} {x : Except ε α} {f : α → Except ε β} {b : β} :
    x >>= f = .ok b ↔ ∃ a, x = .ok a ∧ f a = .ok b := by
  cases x with
  | error e => exact ⟨nofun, fun ⟨_, h, _⟩ => nomatch h⟩
  | ok a => exact ⟨fun h => ⟨a, rfl, h⟩, fun ⟨_, h, hf⟩ => Except.ok.inj h ▸ hf⟩

theorem mapM_eq_ok {ε α β : Type} {f : α → Except ε β} {g : α → β} {as : List α}
    (h : ∀ a ∈ as, f a = .ok (g a)) : as.mapM f = .ok (as.map g) := by
  induction as with
  | nil => rfl
  | cons a as ih =>
    rw [List.forall_mem_cons] at h
    rw [List.mapM_cons, h.1, ih h.2]
    rfl

namespace Tree

/-- Two trees that differ in the contents of files only. -/
structure Alike (tree other : Tree) : Prop where
  workingDirectory_eq : other.workingDirectory = tree.workingDirectory
  entry : ∀ place, other.get? place = tree.get? place ∨
    ∃ content content', tree.get? place = some (.file content) ∧
      other.get? place = some (.file content')

variable {tree other : Tree} {location place : Location} {path : Path}
  {bytes content : List UInt8}

theorem write_lookup (entries : List (Location × Entry)) (location place : Location)
    (content : List UInt8) :
    (entries.map fun (place, entry) =>
        if place = location then (place, Entry.file content) else (place, entry)).lookup place =
      if place = location then (entries.lookup place).map fun _ => .file content
      else entries.lookup place := by
  induction entries with
  | nil => split <;> rfl
  | cons entry entries ih =>
    obtain ⟨here, entry⟩ := entry
    rw [List.map_cons]
    by_cases hp : place = here
    · subst hp
      dsimp only
      split <;> simp only [List.lookup_cons_self, Option.map_some]
    · have hb : (place == here) = false := beq_false_of_ne hp
      have hskip (entry : Entry) (entries : List (Location × Entry)) :
          ((here, entry) :: entries).lookup place = entries.lookup place := by
        rw [List.lookup_cons, hb]
      dsimp only
      rw [hskip, ← ih]
      split <;> rw [hskip]

theorem write_get? (h : location ≠ []) (place : Location) :
    (tree.write location content).get? place =
      if place = location then (tree.get? place).map fun _ => .file content
      else tree.get? place := by
  rw [get?, get?, write, write_lookup]
  by_cases hp : place = []
  · subst hp
    rw [if_pos rfl, if_pos rfl, if_neg (Ne.symm h)]
  · rw [if_neg hp, if_neg hp]

theorem ne_nil_of_file (h : tree.get? location = some (.file bytes)) : location ≠ [] := by
  rintro rfl
  cases h

theorem write_get?_self (h : tree.get? location = some (.file bytes)) :
    (tree.write location content).get? location = some (.file content) := by
  rw [write_get? (ne_nil_of_file h), if_pos rfl, h, Option.map_some]

theorem write_same (h : tree.get? location = some (.file bytes)) (place : Location) :
    (tree.write location bytes).get? place = tree.get? place := by
  rw [write_get? (ne_nil_of_file h)]
  split
  · next hp => rw [hp, h, Option.map_some]
  · rfl

theorem alike_write (h : tree.get? location = some (.file bytes)) :
    tree.Alike (tree.write location content) where
  workingDirectory_eq := rfl
  entry place := by
    rw [write_get? (ne_nil_of_file h)]
    split
    · next hp =>
      right
      exact ⟨bytes, content, hp ▸ h, by rw [hp, h, Option.map_some]⟩
    · exact .inl rfl

namespace Alike

theorem get?_eq (h : tree.Alike other) (hn : ∀ content, tree.get? place ≠ some (.file content)) :
    other.get? place = tree.get? place := by
  cases h.entry place with
  | inl he => exact he
  | inr he =>
    obtain ⟨content, _, hc, _⟩ := he
    exact absurd hc (hn content)

theorem exists_file (h : tree.Alike other) (hf : tree.get? place = some (.file content)) :
    ∃ content', other.get? place = some (.file content') := by
  cases h.entry place with
  | inl he => exact ⟨content, he.trans hf⟩
  | inr he =>
    obtain ⟨_, content', _, hc⟩ := he
    exact ⟨content', hc⟩

theorem walk (h : tree.Alike other) (links : Nat) (here : Location) (steps : List String) :
    other.walk links here steps = tree.walk links here steps := by
  fun_induction Tree.walk tree links here steps with
  | case1 => rw [Tree.walk]
  | case2 links here rest ih => rw [Tree.walk, ih]
  | case3 links here rest ih => rw [Tree.walk, ih]
  | case4 links here name rest hd hdd hlong =>
    rw [Tree.walk, if_pos hlong]
    all_goals assumption
  | case5 links here name rest hd hdd hlong hg =>
    rw [Tree.walk, if_neg hlong, h.get?_eq (by rw [hg]; nofun), hg]
    all_goals assumption
  | case6 links here name rest hd hdd hlong hg ih =>
    rw [Tree.walk, if_neg hlong, h.get?_eq (by rw [hg]; nofun), hg]
    all_goals assumption
  | case7 links here name hd hdd hlong content hg =>
    obtain ⟨content', hg'⟩ := h.exists_file hg
    rw [Tree.walk, if_neg hlong, hg']
    · exact if_pos rfl
    all_goals assumption
  | case8 links here name rest hd hdd hlong content hg hr =>
    obtain ⟨content', hg'⟩ := h.exists_file hg
    rw [Tree.walk, if_neg hlong, hg']
    · exact if_neg hr
    all_goals assumption
  | case9 here name rest hd hdd hlong target hg =>
    rw [Tree.walk, if_neg hlong, h.get?_eq (by rw [hg]; nofun), hg]
    all_goals assumption
  | case10 here name rest hd hdd hlong target hg fewer ih =>
    rw [Tree.walk, if_neg hlong, h.get?_eq (by rw [hg]; nofun), hg]
    all_goals assumption

theorem locate (h : tree.Alike other) (path : Path) : other.locate path = tree.locate path := by
  rw [Tree.locate, Tree.locate, h.workingDirectory_eq, h.walk]

end Alike

theorem find_of_locate (h : tree.locate path = .ok location) :
    tree.find path = match tree.get? location with
      | some entry => .ok (location, entry)
      | none => .error .notFound := by
  rw [find, h]
  rfl

theorem read_eq_ok_iff : tree.read path = .ok (location, bytes) ↔
    path.hasNul = false ∧ tree.locate path = .ok location ∧
      tree.get? location = some (.file bytes) := by
  constructor
  · intro h
    rw [read] at h
    split at h
    · cases h
    · next hn =>
      refine ⟨eq_false_of_ne_true hn, ?_⟩
      cases hl : tree.locate path with
      | error cause =>
        have hf : tree.find path = .error cause := by
          rw [find, hl]
          rfl
        rw [hf] at h
        cases h
      | ok here =>
        rw [find_of_locate hl] at h
        cases hg : tree.get? here with
        | none =>
          rw [hg] at h
          cases h
        | some entry =>
          rw [hg] at h
          cases entry with
          | file content =>
            cases h
            exact ⟨rfl, hg⟩
          | directory => cases h
          | link target => cases h
  · rintro ⟨hn, hl, hg⟩
    rw [read, hn, if_neg Bool.false_ne_true, find_of_locate hl, hg]

theorem locate_here (tree : Tree) : tree.locate ⟨0, []⟩ = .ok tree.workingDirectory := by
  have hshort : ¬ pathLimit < (toString (Path.mk 0 [])).utf8ByteSize := by decide +kernel
  rw [locate, if_neg hshort]
  exact walk.eq_1 ..

theorem read_name {name : String} (hdot : name ≠ ".") (hdots : name ≠ "..")
    (hname : ¬ nameLimit < name.utf8ByteSize) (hnul : (Path.mk 0 [name]).hasNul = false)
    (hpath : ¬ pathLimit < (toString (Path.mk 0 [name])).utf8ByteSize)
    (hg : tree.get? (tree.workingDirectory ++ [name]) = some (.file bytes)) :
    tree.read ⟨0, [name]⟩ = .ok (tree.workingDirectory ++ [name], bytes) := by
  have hw : tree.walk linkLimit tree.workingDirectory [name] =
      .ok (tree.workingDirectory ++ [name]) := by
    rw [walk, if_neg hname, hg]
    · exact if_pos rfl
    · exact hdot
    · exact hdots
  refine read_eq_ok_iff.2 ⟨hnul, ?_, hg⟩
  rw [locate, hnul, if_neg Bool.false_ne_true, if_neg hpath]
  exact hw

theorem find_absent {name : String} (hdot : name ≠ ".") (hdots : name ≠ "..")
    (hname : ¬ nameLimit < name.utf8ByteSize) (hnul : (Path.mk 0 [name]).hasNul = false)
    (hpath : ¬ pathLimit < (toString (Path.mk 0 [name])).utf8ByteSize)
    (hg : tree.get? (tree.workingDirectory ++ [name]) = none) :
    tree.find ⟨0, [name]⟩ = .error .notFound := by
  have hw : tree.walk linkLimit tree.workingDirectory [name] = .error .notFound := by
    rw [walk, if_neg hname, hg]
    · exact hdot
    · exact hdots
  rw [find, locate, hnul, if_neg Bool.false_ne_true, if_neg hpath, if_pos rfl, hw]
  rfl

theorem read_link {name target other : String} (hdot : name ≠ ".") (hdots : name ≠ "..")
    (hname : ¬ nameLimit < name.utf8ByteSize) (hnul : (Path.mk 0 [name]).hasNul = false)
    (hpath : ¬ pathLimit < (toString (Path.mk 0 [name])).utf8ByteSize)
    (hg : tree.get? (tree.workingDirectory ++ [name]) = some (.link target))
    (htarget : target.toList.head? ≠ some '/') (hsteps : targetSteps target = [other])
    (hother : ¬ nameLimit < other.utf8ByteSize) (hodot : other ≠ ".") (hodots : other ≠ "..")
    (hf : tree.get? (tree.workingDirectory ++ [other]) = some (.file bytes)) :
    tree.read ⟨0, [name]⟩ = .ok (tree.workingDirectory ++ [other], bytes) := by
  have hw : tree.walk linkLimit tree.workingDirectory [name] =
      .ok (tree.workingDirectory ++ [other]) := by
    rw [walk, if_neg hname, hg]
    · dsimp only [linkLimit]
      rw [if_neg htarget, hsteps, List.append_nil, walk, if_neg hother, hf]
      · exact if_pos rfl
      · exact hodot
      · exact hodots
    · exact hdot
    · exact hdots
  refine read_eq_ok_iff.2 ⟨hnul, ?_, hf⟩
  rw [locate, hnul, if_neg Bool.false_ne_true, if_neg hpath]
  exact hw

theorem read_write (h : tree.read path = .ok (location, bytes)) (content : List UInt8) :
    (tree.write location content).read path = .ok (location, content) := by
  obtain ⟨hn, hl, hg⟩ := read_eq_ok_iff.1 h
  refine read_eq_ok_iff.2 ⟨hn, ?_, write_get?_self hg⟩
  exact ((alike_write hg).locate path).trans hl

end Tree

end MethodMarkers
