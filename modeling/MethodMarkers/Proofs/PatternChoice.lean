import MethodMarkers.IgnorePattern
import MethodMarkers.Proofs.TreeWriting
import Mathlib.Data.List.Basic
import Mathlib.Data.List.TakeWhile

namespace MethodMarkers
open Text

namespace IgnorePattern

variable {lines : List String} {line : String} {text : String} {cs : List Char}
  {pattern : IgnorePattern}

/-- A line that can be read, be it a pattern or none. -/
def Valid (line : String) : Prop :=
  ∃ pattern, ofLine? line = .ok pattern

instance (line : String) : Decidable (Valid line) :=
  decidable_of_iff ((ofLine? line).isOk = true) <| by
    rw [Valid]
    cases ofLine? line with
    | ok pattern => exact ⟨fun _ => ⟨pattern, rfl⟩, fun _ => rfl⟩
    | error fault => exact ⟨nofun, fun ⟨_, h⟩ => nomatch h⟩

inductive LastMatch (cs : List Char) : List String → IgnorePattern → Prop
  | here {line : String} {lines : List String} {pattern : IgnorePattern}
      (read : ofLine? line = .ok (some pattern)) (occurs : pattern.pattern.occursIn cs = true)
      (last : ∀ later ∈ lines, ∀ other, ofLine? later = .ok (some other) →
        other.pattern.occursIn cs = false) : LastMatch cs (line :: lines) pattern
  | later {line : String} {lines : List String} {pattern : IgnorePattern}
      (rest : LastMatch cs lines pattern) : LastMatch cs (line :: lines) pattern

/-- Lines of an ignore file select a path if the last pattern that matches it is not negated. -/
def Chooses (lines : List String) (text : String) : Prop :=
  ∃ pattern, LastMatch (relative text.toList) lines pattern ∧ pattern.negated = false

def pattern? (line : String) : Option IgnorePattern :=
  match ofLine? line with
  | .ok pattern => pattern
  | .error _ => none

theorem pattern?_eq_some_iff : pattern? line = some pattern ↔
    ofLine? line = .ok (some pattern) := by
  rw [pattern?]
  split
  · next h => rw [h, Except.ok.injEq]
  · next h => rw [h]; exact ⟨nofun, nofun⟩

theorem dropEnd_of_allBlank (h : allBlank cs = true) : dropEnd cs = [] := by
  rw [allBlank, List.all_eq_true] at h
  rw [dropEnd, if_neg, dropBlanksEnd, dropBlanks, List.reverse_eq_nil_iff,
    List.dropWhile_eq_nil_iff]
  · exact fun c hc => h c (List.mem_reverse.1 hc)
  · intro hs
    exact absurd (h '\\' ((List.isSuffixOf_iff_suffix.1 hs).subset List.mem_cons_self)) (by decide)

theorem pattern?_of_allBlank (h : allBlank line.toList = true) : pattern? line = none := by
  rw [pattern?, ofLine?, dropEnd_of_allBlank h]
  rfl

theorem find?_eq_some_iff_lastMatch :
    (lines.filterMap pattern?).reverse.find? (·.pattern.occursIn cs) = some pattern ↔
      LastMatch cs lines pattern := by
  induction lines with
  | nil => exact ⟨nofun, nofun⟩
  | cons line lines ih =>
    cases hp : pattern? line with
    | none =>
      rw [List.filterMap_cons_none hp, ih]
      refine ⟨.later, fun h => ?_⟩
      cases h with
      | here read =>
        rw [pattern?_eq_some_iff.2 read] at hp
        cases hp
      | later rest => exact rest
    | some first =>
      rw [List.filterMap_cons_some hp, List.reverse_cons, List.find?_append, Option.or_eq_some_iff,
        ih, List.find?_eq_none, List.find?_singleton]
      have hnone : (∀ other ∈ (lines.filterMap pattern?).reverse,
          ¬other.pattern.occursIn cs = true) ↔
          ∀ later ∈ lines, ∀ other, ofLine? later = .ok (some other) →
            other.pattern.occursIn cs = false := by
        simp only [List.mem_reverse, List.mem_filterMap, pattern?_eq_some_iff, Bool.not_eq_true]
        exact ⟨fun h later hl other ho => h other ⟨later, hl, ho⟩,
          fun h other ⟨later, hl, ho⟩ => h later hl other ho⟩
      rw [hnone]
      constructor
      · rintro (h | ⟨hlast, h⟩)
        · exact .later h
        · split at h
          · next ho =>
            cases h
            exact .here (pattern?_eq_some_iff.1 hp) ho hlast
          · cases h
      · intro h
        cases h with
        | here read occurs last =>
          rw [pattern?_eq_some_iff.2 read] at hp
          cases hp
          exact .inr ⟨last, if_pos occurs⟩
        | later rest => exact .inl rest

theorem select_iff_chooses : select (lines.filterMap pattern?) text = true ↔
    Chooses lines text := by
  rw [Chooses]
  simp only [← find?_eq_some_iff_lastMatch]
  rw [select]
  split
  · next pattern hf => rw [hf]; simp
  · next hf => rw [hf]; simp

theorem ofLines?_of_valid (h : ∀ line ∈ lines, Valid line) :
    ofLines? lines =
      .ok (if ∀ line ∈ lines, allBlank line.toList = true then none
        else some (lines.filterMap pattern?)) := by
  have hread : ∀ line ∈ lines.filter (fun line => !allBlank line.toList),
      ofLine? line = .ok (pattern? line) := by
    intro line hl
    obtain ⟨pattern, hp⟩ := h line (List.mem_filter.1 hl).1
    rw [pattern?, hp]
  have hpatterns : (lines.filter fun line => !allBlank line.toList).filterMap pattern? =
      lines.filterMap pattern? := by
    rw [List.filterMap_filter]
    refine List.filterMap_congr fun line _ => ?_
    split
    · rfl
    · next hb => exact (pattern?_of_allBlank (by simpa using hb)).symm
  rw [ofLines?]
  split
  · next hnil =>
    rw [if_pos]
    intro line hl
    simpa using (List.filter_eq_nil_iff.1 hnil) line hl
  · next hne =>
    rw [mapM_eq_ok hread, if_neg fun hall => hne (List.filter_eq_nil_iff.2 fun line hl => by
      simp [hall line hl])]
    rw [← hpatterns, Except.map, List.filterMap_map]
    rfl

end IgnorePattern

end MethodMarkers
