import MethodMarkers.Proofs.BodySpan
import MethodMarkers.Proofs.PartSearch
import Mathlib.Data.List.TakeWhile

namespace MethodMarkers
open Text

/-- A line that a run takes for nothing. -/
structure Settings.Ignores (settings : Settings) (text : String) : Prop where
  opening_notMem : '{' ∉ text.toList
  closing_notMem : '}' ∉ text.toList
  holdsReturn_eq : Span.holdsReturn text = false
  iterator_notMem : ∀ marker ∈ settings.iteratorMarkers,
    containsPart marker.toList text.toList = false
  signature_eq : (Signature.ofLine? text).value = none

def Settings.IgnoresOwn (settings : Settings) (fileName : String) (texts : List String)
    (spans : List Span) : Prop :=
  ∀ span ∈ spans, span.isIterator settings texts = false →
    settings.Ignores (span.beginLine settings fileName texts) ∧
      settings.Ignores (span.endLine settings texts)

/-- A label that leaves the default begin line ignored. -/
structure Markers.PlainLabel (label : String) : Prop where
  opening_notMem : '{' ∉ label.toList
  closing_notMem : '}' ∉ label.toList
  returns : containsWord "return".toList label.toList = false
  yieldReturn : containsPart "yield return".toList label.toList = false
  yieldBreak : containsPart "yield break".toList label.toList = false

variable {settings : Settings} {text line label : String} {cs : List Char} {c : Char}

theorem Signature.ofLine?_of_terminated (h : text.toList.getLast? = some ';') :
    (ofLine? text).value = none := by
  obtain ⟨cs, h⟩ := List.getLast?_eq_some_iff.1 h
  have hend : Exclusion.applies text.toList .terminated = true := by
    rw [h, Exclusion.applies, dropBlanksEnd_append_singleton (by decide), List.getLast?_concat]
    rfl
  have hfirst : Exclusion.first? text.toList = some .terminated :=
    List.find?_cons_of_pos hend
  rw [ofLine?, hfirst]
  cases inHead? text.toList <;> rfl

theorem mem_leadingWhitespace (h : c ∈ (leadingWhitespace line).toList) : c = ' ' ∨ c = '\t' := by
  rw [leadingWhitespace, String.toList_ofList] at h
  simpa using List.mem_takeWhile_imp h

def Blank (cs : List Char) : Prop :=
  ∀ c ∈ cs, c = ' ' ∨ c = '\t'

theorem Span.indent_blank (span : Span) (texts : List String) (h : settings.markers = {}) :
    Blank (span.indent settings texts).toList := by
  intro c hc
  rw [Span.indent, h, String.toList_append] at hc
  rcases List.mem_append.1 hc with hc | hc
  · exact mem_leadingWhitespace hc
  · exact .inr (List.mem_singleton.1 hc)

theorem beginLine_default (indent label : String) :
    (Markers.beginLine {} indent label).toList =
      (indent.toList ++ "UnityEngine.Profiling.Profiler.BeginSample(".toList) ++
        '"' :: (label.toList ++ '"' :: [')', ';']) := by
  rw [Markers.beginLine, String.toList_append, String.toList_ofList, List.append_assoc]
  rfl

theorem endLine_default (indent : String) :
    (Markers.endLine {} indent).toList =
      indent.toList ++ "UnityEngine.Profiling.Profiler.EndSample();".toList := by
  rw [Markers.endLine, String.toList_append]

namespace Blank

variable {front : List Char}

theorem notMem_append (h : Blank front) (hc : c ∉ ' ' :: '\t' :: cs) : c ∉ front ++ cs := by
  rw [List.mem_cons, List.mem_cons, not_or, not_or] at hc
  rw [List.mem_append, not_or]
  refine ⟨?_, hc.2.2⟩
  intro hm
  rcases h c hm with rfl | rfl
  · exact hc.1 rfl
  · exact hc.2.1 rfl

theorem containsReturn (h : Blank front) (cs : List Char) :
    containsWord "return".toList (front ++ cs) = containsWord "return".toList cs := by
  apply containsWord_append_of_notWord (by decide)
  intro c hc
  rcases h c hc with rfl | rfl
  · exact ⟨by decide, by decide⟩
  · exact ⟨by decide, by decide⟩

end Blank

section Quoted

variable {part front back : List Char}

theorem notMem_quoted (hq : c ≠ '"') (hf : c ∉ front) (hb : c ∉ back) (hl : c ∉ cs) :
    c ∉ front ++ '"' :: (cs ++ '"' :: back) := by
  rw [List.mem_append, List.mem_cons, List.mem_append, List.mem_cons]
  rintro (h | h | h | h | h)
  · exact hf h
  · exact hq h
  · exact hl h
  · exact hq h
  · exact hb h

theorem containsPart_quoted (hq : '"' ∉ part) (hp : c ∈ part) (hf : c ∉ front) (hb : c ∉ back)
    (hl : containsPart part cs = false) :
    containsPart part (front ++ '"' :: (cs ++ '"' :: back)) = false := by
  have hne := List.ne_nil_of_mem hp
  rw [containsPart_append_cons hne hq, containsPart_append_cons hne hq,
    containsPart_eq_false hp hf, hl, containsPart_eq_false hp hb]
  rfl

end Quoted

theorem ignores_beginLine {indent : String} (hi : Blank indent.toList)
    (hl : Markers.PlainLabel label)
    (hm : settings.iteratorMarkers = MethodBlock.defaultIteratorMarkers) :
    settings.Ignores (Markers.beginLine {} indent label) := by
  have htext := beginLine_default indent label
  constructor
  · rw [htext]
    exact notMem_quoted (by decide) (hi.notMem_append (by decide)) (by decide) hl.opening_notMem
  · rw [htext]
    exact notMem_quoted (by decide) (hi.notMem_append (by decide)) (by decide) hl.closing_notMem
  · rw [Span.holdsReturn, htext, List.append_assoc, hi.containsReturn,
      containsWord_append_cons (by decide) (by decide) (by decide),
      containsWord_append_cons (by decide) (by decide) (by decide), hl.returns]
    decide
  · intro marker hmarker
    rw [hm, MethodBlock.defaultIteratorMarkers, List.mem_cons, List.mem_singleton] at hmarker
    rw [htext]
    rcases hmarker with rfl | rfl
    · exact containsPart_quoted (c := 'u') (by decide) (by decide) (hi.notMem_append (by decide))
        (by decide) hl.yieldReturn
    · exact containsPart_quoted (c := 'k') (by decide) (by decide) (hi.notMem_append (by decide))
        (by decide) hl.yieldBreak
  · apply Signature.ofLine?_of_terminated
    rw [htext, List.getLast?_append, List.getLast?_cons, List.getLast?_append]
    rfl

theorem ignores_endLine {indent : String} (hi : Blank indent.toList)
    (hm : settings.iteratorMarkers = MethodBlock.defaultIteratorMarkers) :
    settings.Ignores (Markers.endLine {} indent) := by
  have htext := endLine_default indent
  constructor
  · rw [htext]
    exact hi.notMem_append (by decide)
  · rw [htext]
    exact hi.notMem_append (by decide)
  · rw [Span.holdsReturn, htext, hi.containsReturn]
    decide
  · intro marker hmarker
    rw [hm, MethodBlock.defaultIteratorMarkers, List.mem_cons, List.mem_singleton] at hmarker
    rw [htext]
    rcases hmarker with rfl | rfl
    · exact containsPart_eq_false (c := 'u') (by decide) (hi.notMem_append (by decide))
    · exact containsPart_eq_false (c := 'k') (by decide) (hi.notMem_append (by decide))
  · apply Signature.ofLine?_of_terminated
    rw [htext, List.getLast?_append]
    rfl

theorem Settings.ignoresOwn_of_plainLabel {fileName : String} {texts : List String}
    {spans : List Span} (hd : settings.markers = {})
    (hm : settings.iteratorMarkers = MethodBlock.defaultIteratorMarkers)
    (hl : ∀ span ∈ spans, span.isIterator settings texts = false →
      Markers.PlainLabel (Markers.label fileName span.name)) :
    settings.IgnoresOwn fileName texts spans := by
  intro span hs hi
  have hblank := span.indent_blank texts hd
  rw [Span.beginLine, Span.endLine, hd]
  exact ⟨ignores_beginLine hblank (hl span hs hi) hm, ignores_endLine hblank hm⟩

end MethodMarkers
