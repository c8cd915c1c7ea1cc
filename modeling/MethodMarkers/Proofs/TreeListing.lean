import MethodMarkers.Proofs.LinkFreeTree
import Mathlib.Data.List.Induction

namespace MethodMarkers

namespace Tree

/-- Every entry stands in a directory. -/
def Nested (tree : Tree) : Prop :=
  ∀ place name, (tree.get? (place ++ [name])).isSome → tree.get? place = some .directory

/-- The names that a walk below a directory comes across. It enters the directories that it finds,
and follows no links. -/
inductive Visits (tree : Tree) (base : Location) : List String → Prop
  | entry {name : String} (found : (tree.get? (base ++ [name])).isSome) : Visits tree base [name]
  | inside {names : List String} {name : String} (outer : Visits tree base names)
      (directory : tree.get? (base ++ names) = some .directory)
      (found : (tree.get? (base ++ names ++ [name])).isSome) : Visits tree base (names ++ [name])

structure Relists (tree other : Tree) : Prop where
  workingDirectory_eq : other.workingDirectory = tree.workingDirectory
  entries_perm : other.entries.Perm tree.entries

variable {tree other : Tree} {base place : Location} {names : List String} {name : String}
  {entry : Entry} {path : Path}

theorem isSome_get?_iff (hp : place ≠ []) :
    (tree.get? place).isSome ↔ ∃ entry, (place, entry) ∈ tree.entries := by
  rw [get?, if_neg hp, Option.isSome_iff_ne_none, Ne, List.lookup_eq_none_iff, not_forall]
  constructor
  · rintro ⟨⟨place', entry⟩, h⟩
    obtain ⟨he, hb⟩ := not_forall.1 h
    have hplace : place = place' := by simpa using hb
    exact ⟨entry, hplace ▸ he⟩
  · rintro ⟨entry, he⟩
    exact ⟨(place, entry), by simp [he]⟩

theorem isSome_get?_append_iff (hn : names ≠ []) :
    (tree.get? (base ++ names)).isSome ↔ names ∈ tree.namesBelow base := by
  have hp : base ++ names ≠ [] := fun h => hn (List.append_eq_nil_iff.1 h).2
  rw [isSome_get?_iff hp, namesBelow, List.mem_filterMap]
  constructor
  · rintro ⟨entry, he⟩
    exact ⟨_, he, below?_eq_some_iff.2 ⟨rfl, hn⟩⟩
  · rintro ⟨⟨place, entry⟩, he, hb⟩
    obtain ⟨rfl, -⟩ := below?_eq_some_iff.1 hb
    exact ⟨entry, he⟩

theorem Visits.ne_nil (h : Visits tree base names) : names ≠ [] := by
  cases h with
  | entry => exact List.cons_ne_nil _ _
  | inside => exact List.append_ne_nil_of_right_ne_nil _ (List.cons_ne_nil _ _)

theorem Visits.found (h : Visits tree base names) : (tree.get? (base ++ names)).isSome := by
  cases h with
  | entry hf => exact hf
  | inside outer hd hf => rwa [← List.append_assoc]

theorem nested_of_entries
    (h : ∀ entry ∈ tree.entries, tree.get? entry.1.dropLast = some .directory) : tree.Nested := by
  intro place name hf
  have hne : place ++ [name] ≠ [] := List.append_ne_nil_of_right_ne_nil _ (List.cons_ne_nil _ _)
  obtain ⟨entry, he⟩ := (isSome_get?_iff hne).1 hf
  have hd := h _ he
  rwa [List.dropLast_concat] at hd

/-- In a nested tree the walk comes across everything below the directory. -/
theorem Nested.visits (h : tree.Nested) (hn : names ≠ [])
    (hf : (tree.get? (base ++ names)).isSome) : Visits tree base names := by
  induction names using List.reverseRecOn with
  | nil => exact absurd rfl hn
  | append_singleton outer name ih =>
    rw [← List.append_assoc] at hf
    have hd := h _ _ hf
    by_cases ho : outer = []
    · subst ho
      rw [List.append_nil] at hf
      exact .entry hf
    · exact .inside (ih ho (by rw [hd]; rfl)) hd hf

theorem Nested.mem_namesBelow_iff (h : tree.Nested) :
    names ∈ tree.namesBelow base ↔ Visits tree base names := by
  refine ⟨fun hm => ?_, fun hv => (isSome_get?_append_iff hv.ne_nil).1 hv.found⟩
  obtain ⟨entry, he, hb⟩ := List.mem_filterMap.1 hm
  have hn := (below?_eq_some_iff.1 hb).2
  exact h.visits hn ((isSome_get?_append_iff hn).2 hm)

theorem Proper.get?_eq_some_iff (h : tree.Proper) (hp : place ≠ []) :
    tree.get? place = some entry ↔ (place, entry) ∈ tree.entries := by
  refine ⟨fun hg => mem_entries_of_get? hg hp, fun he => ?_⟩
  obtain ⟨found, hf⟩ := Option.isSome_iff_exists.1 ((isSome_get?_iff hp).2 ⟨entry, he⟩)
  have hsame := List.inj_on_of_nodup_map h.nodup (mem_entries_of_get? hf hp) he rfl
  exact hf.trans (congrArg some (congrArg Prod.snd hsame))

namespace Relists

variable (h : tree.Relists other)
include h

theorem proper (hp : tree.Proper) : other.Proper where
  nodup := ((h.entries_perm.map Prod.fst).nodup_iff).2 hp.nodup
  names := by
    intro place hm
    exact hp.names place ((h.entries_perm.map Prod.fst).mem_iff.1 hm)

theorem get?_eq (hp : tree.Proper) (place : Location) : other.get? place = tree.get? place := by
  by_cases hn : place = []
  · rw [hn]
    rfl
  · apply Option.ext
    intro entry
    rw [(h.proper hp).get?_eq_some_iff hn, hp.get?_eq_some_iff hn, h.entries_perm.mem_iff]

theorem alike (hp : tree.Proper) : tree.Alike other where
  workingDirectory_eq := h.workingDirectory_eq
  entry place := .inl (h.get?_eq hp place)

theorem locate_eq (hp : tree.Proper) (path : Path) : other.locate path = tree.locate path :=
  (h.alike hp).locate path

theorem find_eq (hp : tree.Proper) (path : Path) : other.find path = tree.find path := by
  rw [find, find, h.locate_eq hp]
  simp only [h.get?_eq hp]

theorem nested (hp : tree.Proper) (hn : tree.Nested) : other.Nested := by
  intro place name
  rw [h.get?_eq hp, h.get?_eq hp]
  exact hn place name

theorem namesBelow_perm (base : Location) :
    (other.namesBelow base).Perm (tree.namesBelow base) :=
  h.entries_perm.filterMap _

end Relists

theorem find_eq_ok_iff : tree.find path = .ok (place, entry) ↔
    tree.locate path = .ok place ∧ tree.get? place = some entry := by
  cases hl : tree.locate path with
  | error cause =>
    rw [find, hl]
    constructor
    · rintro ⟨⟩
    · rintro ⟨⟨⟩, -⟩
  | ok here =>
    rw [find_of_locate hl]
    cases hg : tree.get? here with
    | none =>
      constructor
      · rintro ⟨⟩
      · rintro ⟨⟨⟩, h⟩
        rw [hg] at h
        cases h
    | some found =>
      constructor
      · rintro ⟨⟩
        exact ⟨rfl, hg⟩
      · rintro ⟨⟨⟩, h⟩
        rw [hg] at h
        cases h
        rfl

theorem isFile_eq_true_iff :
    tree.isFile path = .ok true ↔ ∃ place content, tree.find path = .ok (place, .file content) := by
  rw [isFile, leadsTo]
  constructor
  · intro h
    split at h
    · next place entry hf =>
      cases entry with
      | file content => exact ⟨place, content, hf⟩
      | directory => cases h
      | link target => cases h
    · cases h
    · cases h
  · rintro ⟨place, content, hf⟩
    rw [hf]
    rfl

theorem leadsTo_eq_error_iff {kind : Entry → Bool} {fault : SystemFault} :
    tree.leadsTo kind path = .error fault ↔
      tree.find path = .error .nameTooLong ∧ fault = .of .nameTooLong path := by
  rw [leadsTo]
  split
  · next hf => simp [hf]
  · next hf => simp [hf, eq_comm]
  · next cause hne hf =>
    rw [hf]
    constructor
    · rintro ⟨⟩
    · rintro ⟨he, -⟩
      exact absurd (Except.error.inj he) hne

end Tree

end MethodMarkers
