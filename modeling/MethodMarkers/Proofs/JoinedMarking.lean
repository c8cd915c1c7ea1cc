import MethodMarkers.Proofs.ScanJoining
import MethodMarkers.Proofs.SurroundedMarking
import Mathlib.Data.List.Find

namespace MethodMarkers

section Segment

variable {α : Type} {i j : Nat}

theorem segment_append_left {xs : List α} (hj : j < xs.length) (ys : List α) :
    segment (xs ++ ys) i j = segment xs i j := by
  rw [segment, segment, List.take_append_of_le_length hj]

theorem segment_append_right (xs ys : List α) (i j : Nat) :
    segment (xs ++ ys) (xs.length + i) (xs.length + j) = segment ys i j := by
  rw [segment, segment, Nat.add_assoc, List.take_length_add_append, List.drop_append,
    List.drop_of_length_le (Nat.le_add_right _ _), List.nil_append, Nat.add_sub_cancel_left]

end Segment

def MethodOutcome.after (n : Nat) (method : MethodOutcome) : MethodOutcome :=
  { method with line := n + method.line }

namespace Span

variable {settings : Settings} {texts rest : List String} {span : Span}

theorem isIterator_append (h : span.closing < texts.length) (rest : List String) :
    span.isIterator settings (texts ++ rest) = span.isIterator settings texts := by
  rw [isIterator, segment_append_left h, isIterator]

theorem isIterator_behind (settings : Settings) (texts rest : List String) (span : Span) :
    (span.shift (texts.length + ·)).isIterator settings (texts ++ rest) =
      span.isIterator settings rest := by
  rw [isIterator, isIterator, ← segment_append_right texts rest]
  rfl

theorem indent_append (h : span.opening < texts.length) (settings : Settings)
    (rest : List String) : span.indent settings (texts ++ rest) = span.indent settings texts := by
  rw [indent, indent, List.getD_eq_getElem?_getD, List.getElem?_append_left h,
    ← List.getD_eq_getElem?_getD]

theorem indent_behind (settings : Settings) (texts rest : List String) (span : Span) :
    (span.shift (texts.length + ·)).indent settings (texts ++ rest) =
      span.indent settings rest := by
  have hget : (texts ++ rest)[texts.length + span.opening]? = rest[span.opening]? := by
    rw [List.getElem?_append_right (Nat.le_add_right _ _), Nat.add_sub_cancel_left]
  rw [indent, indent, List.getD_eq_getElem?_getD, List.getD_eq_getElem?_getD, ← hget]
  rfl

theorem outcome_append (h : span.closing < texts.length) (settings : Settings)
    (rest : List String) :
    span.outcome settings (texts ++ rest) = span.outcome settings texts := by
  simp only [outcome, isIterator_append h, segment_append_left h]

theorem outcome_behind (settings : Settings) (texts rest : List String) (span : Span) :
    (span.shift (texts.length + ·)).outcome settings (texts ++ rest) =
      (span.outcome settings rest).after texts.length := by
  have hi := isIterator_behind settings texts rest span
  have hbody := segment_append_right texts rest span.opening span.closing
  have htext := segment_append_right texts rest span.define span.closing
  simp only [outcome, hi]
  simp only [shift, Candidate.shift, hbody, htext]
  rfl

end Span

section Joined

variable {settings : Settings} {texts rest : List String} {spans others : List Span} {i : Nat}
  (hs : ∀ span ∈ spans, span.opening ≤ span.closing ∧ span.closing < texts.length)
include hs

theorem markedAt?_join_left (hi : i < texts.length) :
    markedAt? settings (texts ++ rest) (spans ++ others.map (Span.shift (texts.length + ·))) i =
      markedAt? settings texts spans i := by
  have hbehind : (others.map (Span.shift (texts.length + ·))).find? (fun span =>
      decide (span.Contains i) && !span.isIterator settings (texts ++ rest)) = none := by
    rw [List.find?_eq_none]
    intro span hm hp
    obtain ⟨span, -, rfl⟩ := List.mem_map.1 hm
    rw [Bool.and_eq_true, decide_eq_true_iff] at hp
    have hopening : texts.length + span.opening ≤ i := hp.1.1
    omega
  rw [markedAt?, List.find?_append, hbehind, Option.or_none, markedAt?]
  apply List.find?_congr
  intro span hm
  rw [Span.isIterator_append (hs span hm).2]

theorem markedAt?_join_right (i : Nat) :
    markedAt? settings (texts ++ rest) (spans ++ others.map (Span.shift (texts.length + ·)))
        (texts.length + i) =
      (markedAt? settings rest others i).map (Span.shift (texts.length + ·)) := by
  have hfront : spans.find? (fun span => decide (span.Contains (texts.length + i)) &&
      !span.isIterator settings (texts ++ rest)) = none := by
    rw [List.find?_eq_none]
    intro span hm hp
    rw [Bool.and_eq_true, decide_eq_true_iff] at hp
    have hclosing : texts.length + i ≤ span.closing := hp.1.2
    have := (hs span hm).2
    omega
  rw [markedAt?, List.find?_append, hfront, Option.none_or, List.find?_map, markedAt?]
  congr 2
  funext span
  have hcontains : (span.shift (texts.length + ·)).Contains (texts.length + i) ↔
      span.Contains i := and_congr (Nat.add_le_add_iff_left) (Nat.add_le_add_iff_left)
  simp only [Function.comp_apply, Span.isIterator_behind, hcontains]

theorem markedLine_join_left (hi : i < texts.length) (fileName text : String) :
    markedLine settings fileName (texts ++ rest)
        (spans ++ others.map (Span.shift (texts.length + ·))) (text, i) =
      markedLine settings fileName texts spans (text, i) := by
  apply markedLine_congr
  rw [markedAt?_join_left hs hi]
  cases hm : markedAt? settings texts spans i with
  | none => exact .none
  | some span =>
    obtain ⟨ho, hc⟩ := hs span (of_markedAt?_eq_some hm).1
    exact .some ⟨rfl, Span.indent_append (Nat.lt_of_le_of_lt ho hc) settings rest, Iff.rfl, Iff.rfl⟩

theorem markedLine_join_right (fileName text : String) (i : Nat) :
    markedLine settings fileName (texts ++ rest)
        (spans ++ others.map (Span.shift (texts.length + ·))) (text, texts.length + i) =
      markedLine settings fileName rest others (text, i) := by
  apply markedLine_congr
  rw [markedAt?_join_right hs]
  cases markedAt? settings rest others i with
  | none => exact .none
  | some span =>
    exact .some ⟨rfl, span.indent_behind settings texts rest, Nat.add_left_cancel_iff,
      Nat.add_left_cancel_iff⟩

/-- What is put in at the seam of two files falls on the side of its own method. -/
theorem markedTexts_join (fileName : String) :
    markedTexts settings fileName (texts ++ rest)
        (spans ++ others.map (Span.shift (texts.length + ·))) =
      markedTexts settings fileName texts spans ++ markedTexts settings fileName rest others := by
  rw [markedTexts_eq_flatMap, markedTexts_eq_flatMap, markedTexts_eq_flatMap, List.zipIdx_append,
    Nat.zero_add, List.flatMap_append, List.zipIdx_eq_map_add (l := rest) (i := texts.length),
    List.flatMap_map]
  congr 1
  · apply List.flatMap_congr
    rintro ⟨text, i⟩ hp
    have hi := (List.getElem?_eq_some_iff.1 (List.mem_zipIdx_iff_getElem?.1 hp)).1
    exact markedLine_join_left hs hi fileName text
  · apply List.flatMap_congr
    rintro ⟨text, i⟩ -
    exact markedLine_join_right hs fileName text i

end Joined

namespace Instrument

/-- Two files in one are marked as each is alone, unless the first leaves a method open; and even
then its closed methods are those that it has alone. -/
theorem lines_append (settings : Settings) (path : Option Path) (texts rest : List String) :
    let first := (Scanner.scanTexts path texts).value.2
    let whole := (Scanner.scanTexts path (texts ++ rest)).value.2
    first.finished <+: whole.finished ∧
      (Outline.ofTexts path texts).spans <+: (Outline.ofTexts path (texts ++ rest)).spans ∧
      (first.active = none → ∃ a b both, (lines settings path texts).value = .ok a ∧
        (lines settings path rest).value = .ok b ∧
        (lines settings path (texts ++ rest)).value = .ok both ∧
        both.after = a.after ++ b.after ∧
        both.methods = a.methods ++ b.methods.map (MethodOutcome.after texts.length) ∧
        both.unfinished = b.unfinished) := by
  intro first whole
  refine ⟨Scanner.scanTexts_finished_prefix path texts rest,
    Scanner.outline_spans_prefix path texts rest, fun hclosed => ?_⟩
  have hp : (Outline.ofTexts path texts).pending = none := by
    change Option.map _ first.active = none
    rw [hclosed]
    rfl
  have hjoin := Outline.ofTexts_append hp rest
  have hs : ∀ span ∈ (Outline.ofTexts path texts).spans,
      span.opening ≤ span.closing ∧ span.closing < texts.length := by
    obtain ⟨-, -, -, hd⟩ := Scanner.exists_shows path texts
    intro span hm
    have hl := hd.lie span hm
    exact ⟨hl.opening_le, Buffer.ofTexts_lines_length path texts ▸ hl.closing_lt⟩
  refine ⟨_, _, _, lines_value .., lines_value .., lines_value .., ?_, ?_, ?_⟩
  · dsimp only
    rw [hjoin]
    exact markedTexts_join hs _
  · dsimp only
    rw [hjoin, Outline.join, List.map_append, Outline.shift, List.map_map, List.map_map]
    congr 1
    · apply List.map_congr_left
      intro span hm
      exact Span.outcome_append (hs span hm).2 settings rest
    · apply List.map_congr_left
      intro span _
      exact span.outcome_behind settings texts rest
  · dsimp only
    rw [hjoin, Outline.join, Outline.shift, Option.map_map]
    rfl

/-- The first file ends, and the second begins, with a method of one line that returns. -/
theorem lines_append_oneLiners :
    let texts := ["void F() \x7b return; \x7d"]
    let rest := ["int G() \x7b return 1; \x7d", "void H() \x7b"]
    let settings : Settings := { markers := { beginSample := "B", endSample := "E" } }
    (Scanner.scanTexts none texts).value.2.active = none ∧
      ∃ a b both, (lines settings none texts).value = .ok a ∧
        (lines settings none rest).value = .ok b ∧
        (lines settings none (texts ++ rest)).value = .ok both ∧
        both.after = a.after ++ b.after ∧
        both.methods = a.methods ++ b.methods.map (MethodOutcome.after texts.length) ∧
        both.unfinished = b.unfinished ∧
        a.after = ["\tE", "\tE", "void F() \x7b return; \x7d", "\tB"] ∧
        b.after = ["\tE", "\tE", "int G() \x7b return 1; \x7d", "\tB", "void H() \x7b"] := by
  intro texts rest settings
  have hclosed : (Scanner.scanTexts none texts).value.2.active = none := by decide +kernel
  obtain ⟨a, b, both, ha, hb, hboth, hafter, hmethods, hunfinished⟩ :=
    (lines_append settings none texts rest).2.2 hclosed
  have haa : (lines settings none texts).value.toOption.map FileResult.after =
      some ["\tE", "\tE", "void F() \x7b return; \x7d", "\tB"] := by
    decide +kernel
  have hba : (lines settings none rest).value.toOption.map FileResult.after =
      some ["\tE", "\tE", "int G() \x7b return 1; \x7d", "\tB", "void H() \x7b"] := by
    decide +kernel
  rw [ha] at haa
  rw [hb] at hba
  exact ⟨hclosed, a, b, both, ha, hb, hboth, hafter, hmethods, hunfinished,
    Option.some.inj haa, Option.some.inj hba⟩

end Instrument

end MethodMarkers
