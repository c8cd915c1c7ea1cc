import MethodMarkers.Text.Blank
import MethodMarkers.Text.Word
import Mathlib.Data.List.Infix

namespace MethodMarkers.Text

variable {part word cs : List Char} {c : Char}

theorem containsPart_iff : containsPart part cs = true ↔ part <:+: cs := by
  induction cs with
  | nil => rw [containsPart, List.isEmpty_iff, List.infix_nil]
  | cons c cs ih =>
    rw [containsPart, Bool.or_eq_true, List.isPrefixOf_iff_prefix, ih, List.infix_cons_iff]

theorem containsPart_eq_false (hp : c ∈ part) (hc : c ∉ cs) : containsPart part cs = false := by
  rw [← Bool.not_eq_true, containsPart_iff]
  intro h
  exact hc (h.subset hp)

theorem isPrefixOf_append_cons (hc : c ∉ word) (xs ys : List Char) :
    word.isPrefixOf (xs ++ c :: ys) = word.isPrefixOf xs := by
  induction word generalizing xs with
  | nil => rfl
  | cons d word ih =>
    rw [List.mem_cons, not_or] at hc
    cases xs with
    | nil =>
      rw [List.nil_append, List.isPrefixOf_cons_cons, beq_false_of_ne (Ne.symm hc.1),
        Bool.false_and]
      rfl
    | cons x xs =>
      rw [List.cons_append, List.isPrefixOf_cons_cons, List.isPrefixOf_cons_cons, ih hc.2]

theorem containsPart_append_cons (hp : part ≠ []) (hc : c ∉ part) (xs ys : List Char) :
    containsPart part (xs ++ c :: ys) = (containsPart part xs || containsPart part ys) := by
  induction xs with
  | nil =>
    have hprefix := isPrefixOf_append_cons hc [] ys
    have hempty : part.isPrefixOf [] = false := by
      cases part with
      | nil => exact absurd rfl hp
      | cons d part => rfl
    rw [List.nil_append] at hprefix ⊢
    rw [containsPart, containsPart, hprefix, hempty, List.isEmpty_eq_false_iff.2 hp]
  | cons x xs ih =>
    rw [List.cons_append, containsPart, ih, ← List.cons_append, isPrefixOf_append_cons hc,
      ← Bool.or_assoc, containsPart]

theorem startsWithWord_append_cons (hb : isWordChar c = false) (hc : c ∉ word)
    (xs ys : List Char) : startsWithWord word (xs ++ c :: ys) = startsWithWord word xs := by
  rw [startsWithWord, startsWithWord, isPrefixOf_append_cons hc]
  by_cases hp : word.isPrefixOf xs = true
  · obtain ⟨rest, rfl⟩ := List.isPrefixOf_iff_prefix.1 hp
    rw [List.append_assoc, List.drop_left, List.drop_left]
    cases rest with
    | nil =>
      rw [List.nil_append, List.head?_cons, Option.any_some, hb, List.head?_nil, Option.any_none]
    | cons d rest => rfl
  · rw [Bool.eq_false_iff.2 hp, Bool.false_and, Bool.false_and]

theorem containsWordAfter_append_cons (hw : word ≠ []) (hb : isWordChar c = false) (hc : c ∉ word)
    (b : Bool) (xs ys : List Char) :
    containsWordAfter word b (xs ++ c :: ys) =
      (containsWordAfter word b xs || containsWord word ys) := by
  induction xs generalizing b with
  | nil =>
    have hstart := startsWithWord_append_cons hb hc [] ys
    have hempty : startsWithWord word [] = false := by
      cases word with
      | nil => exact absurd rfl hw
      | cons d word => rfl
    rw [List.nil_append] at hstart ⊢
    rw [containsWordAfter, containsWordAfter, hstart, hempty, Bool.and_false, hb, containsWord]
  | cons x xs ih =>
    rw [List.cons_append, containsWordAfter, ih, ← List.cons_append,
      startsWithWord_append_cons hb hc, ← Bool.or_assoc, containsWordAfter]

theorem containsWord_append_cons (hw : word ≠ []) (hb : isWordChar c = false) (hc : c ∉ word)
    (xs ys : List Char) :
    containsWord word (xs ++ c :: ys) = (containsWord word xs || containsWord word ys) :=
  containsWordAfter_append_cons hw hb hc false xs ys

theorem containsWord_append_of_notWord {front : List Char} (hw : word ≠ [])
    (h : ∀ c ∈ front, isWordChar c = false ∧ c ∉ word) (cs : List Char) :
    containsWord word (front ++ cs) = containsWord word cs := by
  induction front with
  | nil => rfl
  | cons c front ih =>
    obtain ⟨hb, hc⟩ := h c List.mem_cons_self
    have hsplit := containsWord_append_cons hw hb hc [] (front ++ cs)
    rw [List.nil_append] at hsplit
    rw [List.cons_append, hsplit, ih fun d hd => h d (List.mem_cons_of_mem c hd)]
    rfl

/-- A text holds a word with no character of a word on either side of it. -/
def HoldsWord (word cs : List Char) : Prop :=
  ∃ front rest, cs = front ++ word ++ rest ∧
    (∀ c ∈ front.getLast?, isWordChar c = false) ∧ ∀ c ∈ rest.head?, isWordChar c = false

theorem startsWithWord_iff : startsWithWord word cs = true ↔
    ∃ rest, cs = word ++ rest ∧ ∀ c ∈ rest.head?, isWordChar c = false := by
  rw [startsWithWord, Bool.and_eq_true, List.isPrefixOf_iff_prefix, Bool.not_eq_true',
    Option.any_eq_false]
  constructor
  · intro ⟨⟨rest, hr⟩, hb⟩
    rw [← hr, List.drop_left] at hb
    exact ⟨rest, hr.symm, hb⟩
  · intro ⟨rest, hr, hb⟩
    rw [hr, List.drop_left]
    exact ⟨⟨rest, rfl⟩, hb⟩

theorem containsWordAfter_iff (hw : word ≠ []) {b : Bool} :
    containsWordAfter word b cs = true ↔ ∃ front rest, cs = front ++ word ++ rest ∧
      (front.getLast?.map isWordChar).getD b = false ∧ ∀ c ∈ rest.head?, isWordChar c = false := by
  induction cs generalizing b with
  | nil =>
    constructor
    · intro h
      cases h
    · intro ⟨front, rest, hr, _⟩
      have hnil := (List.append_eq_nil_iff.1 hr.symm).1
      exact absurd (List.append_eq_nil_iff.1 hnil).2 hw
  | cons c cs ih =>
    have hlast (front : List Char) : ((c :: front).getLast?.map isWordChar).getD b =
        (front.getLast?.map isWordChar).getD (isWordChar c) := by
      rw [List.getLast?_cons, Option.map_some, Option.getD_some, Option.getD_map]
    rw [containsWordAfter, Bool.or_eq_true, Bool.and_eq_true, Bool.not_eq_true', startsWithWord_iff,
      ih]
    constructor
    · rintro (⟨hb, rest, hr, hrest⟩ | ⟨front, rest, hr, hfront, hrest⟩)
      · exact ⟨[], rest, hr, hb, hrest⟩
      · exact ⟨c :: front, rest, congrArg (c :: ·) hr, (hlast front).trans hfront, hrest⟩
    · intro ⟨front, rest, hr, hfront, hrest⟩
      cases front with
      | nil => exact .inl ⟨hfront, rest, hr, hrest⟩
      | cons d front =>
        obtain ⟨rfl, hcs⟩ := List.cons.inj hr
        exact .inr ⟨front, rest, hcs, (hlast front).symm.trans hfront, hrest⟩

theorem containsWord_iff (hw : word ≠ []) : containsWord word cs = true ↔ HoldsWord word cs := by
  have hlast (front : List Char) : (front.getLast?.map isWordChar).getD false = false ↔
      ∀ c ∈ front.getLast?, isWordChar c = false := by
    cases front.getLast? <;> simp
  rw [containsWord, containsWordAfter_iff hw]
  simp only [hlast, HoldsWord]

theorem dropBlanksEnd_append_singleton (hc : isBlank c = false) (cs : List Char) :
    dropBlanksEnd (cs ++ [c]) = cs ++ [c] := by
  rw [dropBlanksEnd, List.reverse_append, List.reverse_singleton, List.singleton_append, dropBlanks,
    List.dropWhile_cons_of_neg (Bool.eq_false_iff.1 hc), List.reverse_cons, List.reverse_reverse]

end MethodMarkers.Text
