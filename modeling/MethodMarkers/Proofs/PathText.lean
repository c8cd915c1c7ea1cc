import MethodMarkers.Path

namespace MethodMarkers.Path

/-- A path as it is read from a text: at most two slashes at its front, and segments that are cut at
slashes and say something. -/
structure Canonical (path : Path) : Prop where
  slashes_le : path.slashes ≤ 2
  segment : ∀ s ∈ path.segments, s ≠ "" ∧ s ≠ "." ∧ '/' ∉ s.toList

variable {path : Path} {separator : Char} {cs piece : List Char}

theorem splitAt_eq_splitOn (separator : Char) (cs : List Char) :
    splitAt separator cs = cs.splitOn separator := by
  induction cs with
  | nil => rfl
  | cons c cs ih =>
    rw [splitAt, List.splitOn_cons_eq_if_modifyHead, ih]
    by_cases hc : c = separator
    · rw [if_pos hc, if_pos (beq_iff_eq.2 hc)]
    · rw [if_neg hc, if_neg (mt beq_iff_eq.1 hc)]
      cases hs : cs.splitOn separator with
      | nil => exact absurd hs (List.splitOn_ne_nil separator cs)
      | cons piece pieces => rfl

theorem separator_notMem_of_mem_splitAt (h : piece ∈ splitAt separator cs) : separator ∉ piece := by
  induction cs generalizing piece with
  | nil =>
    cases List.mem_singleton.1 h
    exact List.not_mem_nil
  | cons c cs ih =>
    rw [splitAt] at h
    split at h
    · rcases List.mem_cons.1 h with rfl | h
      · exact List.not_mem_nil
      · exact ih h
    · next hc =>
      split at h
      · cases List.mem_singleton.1 h
        exact fun hm => hc (List.mem_singleton.1 hm).symm
      · next first pieces hs =>
        rcases List.mem_cons.1 h with rfl | h
        · intro hm
          rcases List.mem_cons.1 hm with he | hm
          · exact hc he.symm
          · exact ih (hs ▸ List.mem_cons_self) hm
        · exact ih (hs ▸ List.mem_cons_of_mem first h)

theorem leadingSlashes_le (cs : List Char) : leadingSlashes cs ≤ 2 := by
  unfold leadingSlashes
  split <;> omega

theorem ofString_canonical (s : String) : (ofString s).Canonical where
  slashes_le := leadingSlashes_le s.toList
  segment piece hp := by
    obtain ⟨hm, hkept⟩ := List.mem_filter.1 hp
    obtain ⟨chars, hc, rfl⟩ := List.mem_map.1 hm
    rw [Bool.and_eq_true, bne_iff_ne, bne_iff_ne] at hkept
    exact ⟨hkept.1, hkept.2, by
      rw [String.toList_ofList]
      exact separator_notMem_of_mem_splitAt hc⟩

theorem splitAt_replicate_append (n : Nat) (cs : List Char) :
    splitAt '/' (List.replicate n '/' ++ cs) = List.replicate n [] ++ splitAt '/' cs := by
  induction n with
  | zero => rfl
  | succ n ih => exact congrArg ([] :: ·) ih

theorem leadingSlashes_replicate_append {n : Nat} (hn : n ≤ 2) (hc : cs.head? ≠ some '/') :
    leadingSlashes (List.replicate n '/' ++ cs) = n := by
  have hrest : cs.takeWhile (· == '/') = [] := by
    cases cs with
    | nil => rfl
    | cons c cs =>
      have hne : ¬ (c == '/') = true := fun he => hc (congrArg some (eq_of_beq he))
      rw [List.takeWhile_cons, if_neg hne]
  have hslashes : ∀ c ∈ List.replicate n '/', (c == '/') = true := by
    intro c hm
    rw [List.eq_of_mem_replicate hm]
    rfl
  rw [leadingSlashes, List.takeWhile_append_of_pos hslashes, hrest, List.append_nil,
    List.length_replicate]
  match n, hn with
  | 0, _ => rfl
  | 1, _ => rfl
  | 2, _ => rfl

def chars (path : Path) : List Char :=
  List.replicate path.slashes '/' ++ ['/'].intercalate (path.segments.map String.toList)

theorem toString_eq (path : Path) :
    toString path = if path.chars = [] then "." else String.ofList path.chars := by
  have htext : String.ofList (List.replicate path.slashes '/') ++ "/".intercalate path.segments =
      String.ofList path.chars := by
    apply String.toList_injective
    have hchars : (String.ofList path.chars).toList = path.chars := String.toList_ofList
    rw [String.toList_append, String.toList_intercalate, String.toList_ofList, hchars]
    rfl
  have hempty : (String.ofList path.chars == "") = true ↔ path.chars = [] := by
    rw [beq_iff_eq, ← String.toList_eq_nil_iff, String.toList_ofList]
  change (if _ == "" then "." else _) = _
  rw [htext]
  simp only [hempty]

namespace Canonical

variable (h : path.Canonical)
include h

theorem splitAt_intercalate (hn : path.segments ≠ []) :
    splitAt '/' (['/'].intercalate (path.segments.map String.toList)) =
      path.segments.map String.toList := by
  rw [splitAt_eq_splitOn]
  apply List.splitOn_intercalate
  · intro piece hp
    obtain ⟨s, hs, rfl⟩ := List.mem_map.1 hp
    exact (h.segment s hs).2.2
  · exact mt List.map_eq_nil_iff.1 hn

theorem segments_eq :
    ((splitAt '/' (['/'].intercalate (path.segments.map String.toList))).map String.ofList).filter
      (fun piece => piece != "" && piece != ".") = path.segments := by
  by_cases hn : path.segments = []
  · rw [hn]
    rfl
  · have hid : (path.segments.map String.toList).map String.ofList = path.segments := by
      rw [List.map_map]
      exact (List.map_congr_left fun s _ => String.ofList_toList).trans (List.map_id _)
    rw [h.splitAt_intercalate hn, hid, List.filter_eq_self]
    intro s hs
    obtain ⟨hempty, hdot, -⟩ := h.segment s hs
    rw [Bool.and_eq_true, bne_iff_ne, bne_iff_ne]
    exact ⟨hempty, hdot⟩

theorem intercalate_head_ne :
    (['/'].intercalate (path.segments.map String.toList)).head? ≠ some '/' := by
  cases hs : path.segments with
  | nil => exact nofun
  | cons s rest =>
    obtain ⟨hempty, -, hslash⟩ := h.segment s (hs ▸ List.mem_cons_self)
    cases hc : s.toList with
    | nil => exact absurd (String.toList_eq_nil_iff.1 hc) hempty
    | cons c cs =>
      intro hhead
      rw [hc] at hslash
      apply hslash
      cases rest with
      | nil =>
        rw [List.map_singleton, List.intercalate_singleton, hc] at hhead
        exact Option.some.inj hhead ▸ List.mem_cons_self
      | cons next rest =>
        rw [List.map_cons, List.map_cons, List.intercalate_cons_cons, hc] at hhead
        exact Option.some.inj hhead ▸ List.mem_cons_self

theorem ofString_chars : ofString (String.ofList path.chars) = path := by
  have hslashes : (List.replicate path.slashes "").filter
      (fun piece => piece != "" && piece != ".") = [] := by
    rw [List.filter_eq_nil_iff]
    intro piece hp
    rw [List.eq_of_mem_replicate hp]
    decide
  rw [ofString, String.toList_ofList, chars,
    leadingSlashes_replicate_append h.slashes_le h.intercalate_head_ne, splitAt_replicate_append,
    List.map_append, List.filter_append, h.segments_eq, List.map_replicate]
  exact congrArg (Path.mk path.slashes) (congrArg (· ++ path.segments) hslashes)

/-- A path is read from the text by which it is shown. -/
theorem ofString_toString : ofString (toString path) = path := by
  rw [toString_eq]
  split
  · next hc =>
    have he := h.ofString_chars
    rw [hc] at he
    exact he
  · exact h.ofString_chars

end Canonical

end MethodMarkers.Path
