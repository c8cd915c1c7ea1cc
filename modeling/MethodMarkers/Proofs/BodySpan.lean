import Mathlib.Data.List.Flatten
import MethodMarkers.Instrument
import MethodMarkers.Proofs.ScanOutline

namespace MethodMarkers
open Text

/-- The elements of a list from one position up to and including another. -/
def segment {α : Type} (xs : List α) (i j : Nat) : List α :=
  (xs.take (j + 1)).drop i

section Segment

variable {α : Type} {xs : List α} {i j k : Nat} {x : α}

theorem segment_map {β : Type} (f : α → β) (xs : List α) (i j : Nat) :
    (segment xs i j).map f = segment (xs.map f) i j := by
  rw [segment, List.map_drop, List.map_take, segment]

theorem take_append_segment (hij : i ≤ j + 1) (xs : List α) :
    xs.take i ++ segment xs i j ++ xs.drop (j + 1) = xs := by
  have ht : xs.take i = (xs.take (j + 1)).take i := by
    rw [List.take_take, Nat.min_eq_left hij]
  rw [segment, ht, List.take_append_drop, List.take_append_drop]

theorem segment_getElem? (xs : List α) (i j k : Nat) :
    (segment xs i j)[k]? = if i + k ≤ j then xs[i + k]? else none := by
  rw [segment, List.getElem?_drop, List.getElem?_take]
  simp only [Nat.lt_succ_iff]

theorem segment_length (i : Nat) (hj : j < xs.length) :
    (segment xs i j).length = j + 1 - i := by
  rw [segment, List.length_drop, List.length_take, Nat.min_eq_left hj]

theorem segment_head? (hij : i ≤ j) (xs : List α) : (segment xs i j).head? = xs[i]? := by
  rw [List.head?_eq_getElem?, segment_getElem?, Nat.add_zero, if_pos hij]

theorem segment_getLast? (hij : i ≤ j) (hj : j < xs.length) :
    (segment xs i j).getLast? = xs[j]? := by
  rw [List.getLast?_eq_getElem?, segment_length i hj, segment_getElem?, if_pos (by omega)]
  congr 1
  omega

theorem getD_of_getElem? (h : xs[i]? = some x) (d : α) : xs.getD i d = x := by
  rw [List.getD_eq_getElem?_getD, h, Option.getD_some]

theorem mem_segment_iff (hn : xs.Nodup) (hx : xs[k]? = some x) :
    x ∈ segment xs i j ↔ i ≤ k ∧ k ≤ j := by
  obtain ⟨hk, -⟩ := List.getElem?_eq_some_iff.1 hx
  rw [List.mem_iff_getElem?]
  constructor
  · rintro ⟨l, hl⟩
    rw [segment_getElem?] at hl
    split at hl
    · next hle =>
      have he := (List.getElem?_inj hk hn).1 (hx.trans hl.symm)
      omega
    · cases hl
  · rintro ⟨hik, hkj⟩
    refine ⟨k - i, ?_⟩
    rw [segment_getElem?, Nat.add_sub_cancel' hik, if_pos hkj, hx]

end Segment

namespace Span

variable (settings : Settings) (fileName : String) (texts : List String) (span : Span)

def Contains (i : Nat) : Prop :=
  span.opening ≤ i ∧ i ≤ span.closing

instance (i : Nat) : Decidable (span.Contains i) :=
  inferInstanceAs (Decidable (_ ∧ _))

def isIterator : Bool :=
  (segment texts span.opening span.closing).any fun text =>
    settings.iteratorMarkers.any fun marker => containsPart marker.toList text.toList

def holdsReturn (text : String) : Bool :=
  containsWord "return".toList text.toList

def indent : String :=
  leadingWhitespace (texts.getD span.opening "") ++ settings.markers.indentUnit

def beginLine : String :=
  settings.markers.beginLine (span.indent settings texts) (Markers.label fileName span.name)

def endLine : String :=
  settings.markers.endLine (span.indent settings texts)

/-- How many end lines stand in front of a line of the body. -/
def exitsAt (i : Nat) (text : String) : Nat :=
  (if i = span.closing then 1 else 0) + (if holdsReturn text then 1 else 0)

def outcome : MethodOutcome :=
  let iterator := span.isIterator settings texts
  let returns := (segment texts span.opening span.closing).countP holdsReturn
  { name := span.name
    status := if iterator then .skippedIterator else .instrumented
    inserted := if iterator then 0 else 2 + returns
    line := span.define + 1
    text := segment texts span.define span.closing }

end Span

section Marking

variable (settings : Settings) (fileName : String) (texts : List String) (spans : List Span)

def markedAt? (i : Nat) : Option Span :=
  spans.find? fun span => decide (span.Contains i) && !span.isIterator settings texts

variable {settings texts spans} in
theorem of_markedAt?_eq_some {i : Nat} {span : Span}
    (h : markedAt? settings texts spans i = some span) :
    span ∈ spans ∧ span.Contains i ∧ span.isIterator settings texts = false := by
  have hp := List.find?_some h
  rw [Bool.and_eq_true, decide_eq_true_iff, Bool.not_eq_true'] at hp
  exact ⟨List.mem_of_find?_eq_some h, hp⟩

def linesBefore (i : Nat) (text : String) : List String :=
  match markedAt? settings texts spans i with
  | some span => List.replicate (span.exitsAt i text) (span.endLine settings texts)
  | none => []

def linesAfter (i : Nat) : List String :=
  match markedAt? settings texts spans i with
  | some span => if i = span.opening then [span.beginLine settings fileName texts] else []
  | none => []

/-- Every line with what is put before and after it. -/
def markedTexts : List String :=
  texts.zipIdx.flatMap fun (text, i) =>
    linesBefore settings texts spans i text ++ [text] ++ linesAfter settings fileName texts spans i

theorem zipIdx_flatMap_fst (texts : List String) :
    (texts.zipIdx.flatMap fun p => [p.1]) = texts := by
  rw [← List.map_eq_flatMap]
  exact List.zipIdx_map_fst 0 texts

theorem sublist_markedTexts : texts.Sublist (markedTexts settings fileName texts spans) := by
  have hs := List.Sublist.flatMap_right texts.zipIdx (f := fun p => [p.1]) (g := fun p =>
      linesBefore settings texts spans p.2 p.1 ++ [p.1] ++
        linesAfter settings fileName texts spans p.2)
    fun p _ => (List.sublist_append_right _ _).trans (List.sublist_append_left _ _)
  rwa [zipIdx_flatMap_fst] at hs

theorem markedTexts_eq_self (h : ∀ span ∈ spans, span.isIterator settings texts = true) :
    markedTexts settings fileName texts spans = texts := by
  have hnone (i : Nat) : markedAt? settings texts spans i = none := by
    rw [markedAt?, List.find?_eq_none]
    intro span ho
    rw [h span ho, Bool.not_true, Bool.and_false]
    nofun
  rw [markedTexts]
  refine Eq.trans ?_ (zipIdx_flatMap_fst texts)
  apply List.flatMap_congr
  intro p _
  simp only [linesBefore, linesAfter, hnone, List.nil_append, List.append_nil]

theorem length_lt_of_markedTexts_ne (h : markedTexts settings fileName texts spans ≠ texts) :
    texts.length < (markedTexts settings fileName texts spans).length := by
  have hs := sublist_markedTexts settings fileName texts spans
  refine Nat.lt_of_le_of_ne hs.length_le fun hl => ?_
  exact h (hs.eq_of_length hl).symm

end Marking

end MethodMarkers
