import MethodMarkers.Proofs.IgnoredLines
import MethodMarkers.Proofs.TextSurrounding

namespace MethodMarkers
open Text

theorem Settings.Ignores.unnoticed {settings : Settings} {text : String}
    (h : settings.Ignores text) : Surround.Unnoticed text := by
  refine ⟨List.filter_eq_nil_iff.2 ?_, h.signature_eq⟩
  intro c hc hb
  rw [isBrace, Bool.or_eq_true, beq_iff_eq, beq_iff_eq] at hb
  rcases hb with rfl | rfl
  · exact h.opening_notMem hc
  · exact h.closing_notMem hc

/-- What a run tells of a method, less where the method stands and what it holds. -/
def MethodOutcome.gist (method : MethodOutcome) : String × MethodStatus × Nat :=
  (method.name, method.status, method.inserted)

def markedLine (settings : Settings) (fileName : String) (texts : List String) (spans : List Span)
    (p : String × Nat) : List String :=
  linesBefore settings texts spans p.2 p.1 ++ p.1 :: linesAfter settings fileName texts spans p.2

theorem markedTexts_eq_flatMap (settings : Settings) (fileName : String) (texts : List String)
    (spans : List Span) :
    markedTexts settings fileName texts spans =
      texts.zipIdx.flatMap (markedLine settings fileName texts spans) := by
  apply List.flatMap_congr
  rintro ⟨text, i⟩ -
  exact List.append_assoc ..

/-- A method at a line that is marked as another one is at a line of other texts. -/
structure Span.MarkedAlike (settings : Settings) (texts others : List String) (i j : Nat)
    (span other : Span) : Prop where
  name_eq : other.name = span.name
  indent_eq : other.indent settings others = span.indent settings texts
  opening_iff : j = other.opening ↔ i = span.opening
  closing_iff : j = other.closing ↔ i = span.closing

theorem markedLine_congr {settings : Settings} {texts others : List String}
    {spans otherSpans : List Span} {i j : Nat}
    (h : Option.Rel (Span.MarkedAlike settings texts others i j)
      (markedAt? settings texts spans i) (markedAt? settings others otherSpans j))
    (fileName text : String) :
    markedLine settings fileName others otherSpans (text, j) =
      markedLine settings fileName texts spans (text, i) := by
  rw [markedLine, markedLine, linesBefore, linesBefore, linesAfter, linesAfter]
  generalize markedAt? settings texts spans i = found at h ⊢
  generalize markedAt? settings others otherSpans j = found' at h ⊢
  cases h with
  | none => rfl
  | some h =>
    simp only [Span.exitsAt, Span.endLine, Span.beginLine, h.name_eq, h.indent_eq, h.opening_iff,
      h.closing_iff]

section Ignored

open Surround

variable {settings : Settings} {before after : Nat → List String} {texts : List String}
  (h : ∀ i < texts.length, ∀ text ∈ before i ++ after i, settings.Ignores text)
include h

theorem Span.isIterator_surround (span : Span) :
    (span.shift (place before after)).isIterator settings (surround before after texts) =
      span.isIterator settings texts := by
  apply any_segment_surround
  intro i hi text ht
  rw [List.any_eq_false]
  intro marker hm
  rw [(h i hi text ht).iterator_notMem marker hm]
  exact Bool.false_ne_true

theorem Span.outcome_surround (span : Span) :
    ((span.shift (place before after)).outcome settings (surround before after texts)).gist =
      (span.outcome settings texts).gist := by
  have hi := span.isIterator_surround h
  have hc := countP_segment_surround (fun i hi text ht => (h i hi text ht).holdsReturn_eq)
    span.opening span.closing
  simp only [Span.outcome, MethodOutcome.gist, hi]
  rw [Span.shift, hc]
  rfl

omit h in
theorem Span.indent_surround (settings : Settings) (span : Span) :
    (span.shift (place before after)).indent settings (surround before after texts) =
      span.indent settings texts := by
  rw [Span.indent, Span.shift, List.getD_eq_getElem?_getD, getElem?_place,
    ← List.getD_eq_getElem?_getD]
  rfl

variable {spans : List Span}

theorem markedAt?_surround (i : Nat) :
    markedAt? settings (surround before after texts) (spans.map (Span.shift (place before after)))
        (place before after i) =
      (markedAt? settings texts spans i).map (Span.shift (place before after)) := by
  have hle {i j : Nat} : place before after i ≤ place before after j ↔ i ≤ j :=
    (place_strictMono before after).le_iff_le
  rw [markedAt?, List.find?_map, markedAt?]
  congr 2
  funext span
  have hcontains : (span.shift (place before after)).Contains (place before after i) ↔
      span.Contains i := and_congr hle hle
  simp only [Function.comp, span.isIterator_surround h, hcontains]

theorem markedLine_surround (fileName text : String) (i : Nat) :
    markedLine settings fileName (surround before after texts)
        (spans.map (Span.shift (place before after))) (text, place before after i) =
      markedLine settings fileName texts spans (text, i) := by
  have hinj := (place_strictMono before after).injective
  apply markedLine_congr
  rw [markedAt?_surround h]
  cases markedAt? settings texts spans i with
  | none => exact .none
  | some span => exact .some ⟨rfl, span.indent_surround settings, hinj.eq_iff, hinj.eq_iff⟩

omit h in
theorem markedLine_of_ignored {text : String} {k : Nat} (ht : settings.Ignores text)
    (hk : ∀ i, k ≠ place before after i) (fileName : String) :
    markedLine settings fileName (surround before after texts)
      (spans.map (Span.shift (place before after))) (text, k) = [text] := by
  rw [markedLine, linesBefore, linesAfter]
  cases hm : markedAt? settings (surround before after texts)
      (spans.map (Span.shift (place before after))) k with
  | none => rfl
  | some span =>
    obtain ⟨span, -, rfl⟩ := List.mem_map.1 (List.mem_of_find?_eq_some hm)
    have hc : k ≠ (span.shift (place before after)).closing := hk span.closing
    have ho : k ≠ (span.shift (place before after)).opening := hk span.opening
    dsimp only
    rw [Span.exitsAt, if_neg hc, if_neg ho, ht.holdsReturn_eq, if_neg Bool.false_ne_true]
    rfl

omit h in
theorem flatMap_markedLine_of_ignored {more : List String} {n : Nat}
    (hm : ∀ r ∈ more.zipIdx n, settings.Ignores r.1 ∧ ∀ i, r.2 ≠ place before after i)
    (fileName : String) :
    (more.zipIdx n).flatMap (markedLine settings fileName (surround before after texts)
      (spans.map (Span.shift (place before after)))) = more := by
  have hfst : ((more.zipIdx n).flatMap fun r => [r.1]) = more := by
    rw [← List.map_eq_flatMap, List.zipIdx_map_fst]
  refine Eq.trans (List.flatMap_congr ?_) hfst
  intro r hr
  exact markedLine_of_ignored (hm r hr).1 (hm r hr).2 fileName

/-- One more run puts its lines right beside the lines of the file. -/
theorem markedTexts_surround (fileName : String) :
    markedTexts settings fileName (surround before after texts)
        (spans.map (Span.shift (place before after))) =
      surround
        (fun i => before i ++ linesBefore settings texts spans i (texts.getD i ""))
        (fun i => linesAfter settings fileName texts spans i ++ after i) texts := by
  rw [markedTexts_eq_flatMap, zipIdx_surround, List.flatMap_assoc]
  apply List.flatMap_congr
  intro p hp
  have hown := List.mem_zipIdx_iff_getElem?.1 hp
  have hi := (List.getElem?_eq_some_iff.1 hown).1
  have hbefore : ∀ r ∈ (before p.2).zipIdx (offset before after p.2),
      settings.Ignores r.1 ∧ ∀ i, r.2 ≠ place before after i := fun r hr =>
    ⟨h p.2 hi r.1 (List.mem_append_left _ (List.fst_mem_of_mem_zipIdx hr)), ne_place_of_before hr⟩
  have hafter : ∀ r ∈ (after p.2).zipIdx (place before after p.2 + 1),
      settings.Ignores r.1 ∧ ∀ i, r.2 ≠ place before after i := fun r hr =>
    ⟨h p.2 hi r.1 (List.mem_append_right _ (List.fst_mem_of_mem_zipIdx hr)), ne_place_of_after hr⟩
  rw [List.flatMap_append, List.flatMap_cons, flatMap_markedLine_of_ignored hbefore,
    flatMap_markedLine_of_ignored hafter, markedLine_surround h, markedLine]
  dsimp only
  rw [getD_of_getElem? hown, List.append_assoc, List.append_assoc, List.cons_append]

end Ignored

end MethodMarkers
