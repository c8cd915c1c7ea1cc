import MethodMarkers.Proofs.BodySpan
import MethodMarkers.Proofs.BufferWeaving
import MethodMarkers.Proofs.ScanUniqueness

namespace MethodMarkers
open Text

variable {settings : Settings} {fileName : String} {lines : List Line} {done : List Span}
  {span : Span} {buffer : Buffer} {method : MethodBlock} {i j : Nat} {first last : Line}

theorem markedAt?_append (settings : Settings) (texts : List String) (done : List Span)
    (span : Span) (i : Nat) :
    markedAt? settings texts (done ++ [span]) i =
      (markedAt? settings texts done i).or
        (if span.Contains i ∧ span.isIterator settings texts = false then some span else none) := by
  rw [markedAt?, List.find?_append, List.find?_singleton]
  simp only [Bool.and_eq_true, decide_eq_true_eq, Bool.not_eq_true']
  rfl

/-- A buffer in which the methods of some spans have been marked. -/
structure Marked (settings : Settings) (fileName : String) (lines : List Line) (done : List Span)
    (buffer : Buffer) : Prop where
  fileName_eq : buffer.fileName = fileName
  lie : ∀ span ∈ done, span.Lies lines
  woven : ∃ before after, buffer.Woven lines before after ∧ ∀ i line, lines[i]? = some line →
    (before line).map Line.text =
        linesBefore settings (lines.map Line.text) done i line.text ∧
      (after line).map Line.text =
        linesAfter settings fileName (lines.map Line.text) done i

def Span.Apart (span other : Span) : Prop :=
  span.closing < other.define ∨ other.closing < span.define

theorem Marked.markedAt?_eq_none (h : Marked settings fileName lines done buffer)
    (ha : ∀ other ∈ done, other.Apart span) (hi : span.define ≤ i) (hj : i ≤ span.closing) :
    markedAt? settings (lines.map Line.text) done i = none := by
  rw [markedAt?, List.find?_eq_none]
  intro other ho hp
  have hd := (h.lie other ho).define_le
  rw [Bool.and_eq_true, decide_eq_true_iff] at hp
  obtain ⟨⟨hio, hic⟩, -⟩ := hp
  rcases ha other ho with hb | hb <;> omega

theorem Marked.range (h : Marked settings fileName lines done buffer)
    (ha : ∀ other ∈ done, other.Apart span) (hd : span.define ≤ i) (hij : i ≤ j)
    (hj : j ≤ span.closing) (hl : span.closing < lines.length) (hf : lines[i]? = some first)
    (hz : lines[j]? = some last) : buffer.range first last = .ok (segment lines i j) := by
  obtain ⟨before, after, hw, ht⟩ := h.woven
  have hjl : j < lines.length := Nat.lt_of_le_of_lt hj hl
  refine hw.range (take_append_segment (Nat.le_succ_of_le hij) lines).symm (fun line hm => ?_)
    ?_ ?_
  · obtain ⟨k, hk⟩ := List.mem_iff_getElem?.1 hm
    rw [segment_getElem?] at hk
    split at hk
    · next hle =>
      obtain ⟨hb, haf⟩ := ht _ line hk
      have hn := h.markedAt?_eq_none ha (Nat.le_add_right_of_le hd) (Nat.le_trans hle hj)
      rw [linesBefore, hn, List.map_eq_nil_iff] at hb
      rw [linesAfter, hn, List.map_eq_nil_iff] at haf
      exact ⟨hb, haf⟩
    · cases hk
  · rw [segment_head? hij, hf]
  · rw [segment_getLast? hij hjl, hz]

structure MethodBlock.LiesAt (method : MethodBlock) (lines : List Line) (span : Span)
    (define first last : Line) : Prop where
  define_eq : method.block.define = some define
  opening_eq : method.block.opening = some first
  closing_eq : method.block.closing = some last
  finished : method.block.finished = true
  at_define : lines[span.define]? = some define
  at_opening : lines[span.opening]? = some first
  at_closing : lines[span.closing]? = some last

theorem MethodBlock.BegunAt.liesAt (h : method.BegunAt lines span.toCandidate)
    (hs : span.Lies lines) (hc : span.toCandidate.Stands lines) :
    ∃ define first last, method.LiesAt lines span define first last := by
  have hol := Nat.lt_of_le_of_lt hs.opening_le hs.closing_lt
  have hd := List.getElem?_eq_getElem hc.lt
  have ho := List.getElem?_eq_getElem hol
  have he := List.getElem?_eq_getElem hs.closing_lt
  refine ⟨_, _, _, ?_, ?_, ?_, ?_, hd, ho, he⟩
  · rw [h.define_eq hc, hd]
  · rw [h.2, hs.ends.opening_eq, ho]
  · rw [h.2, hs.ends.closing_eq, he]
  · rw [h.2, hs.finished]

theorem MethodBlock.LiesAt.ends_eq {define : Line}
    (hm : method.LiesAt lines span define first last) : method.ends = .ok (first, last) := by
  simp only [MethodBlock.ends, hm.finished, hm.opening_eq, hm.closing_eq, ↓reduceIte]

theorem MethodBlock.LiesAt.lineNumber_eq {define : Line} (hn : lines.Nodup)
    (hm : method.LiesAt lines span define first last) :
    Instrument.lineNumber lines method.block.define = span.define + 1 := by
  obtain ⟨hlt, hd⟩ := List.getElem?_eq_some_iff.1 hm.at_define
  have hf : lines.findIdx? (· == define) = some span.define := by
    rw [List.findIdx?_eq_some_iff_getElem]
    refine ⟨hlt, beq_iff_eq.2 hd, fun j hj he => ?_⟩
    rw [beq_iff_eq, ← hd] at he
    have := (hn.getElem_inj_iff).1 he
    omega
  rw [Instrument.lineNumber, hm.define_eq, Option.bind_some, hf]

section Place

variable {define : Line} (h : Marked settings fileName lines done buffer)
  (hs : span.Lies lines) (ha : ∀ other ∈ done, other.Apart span)
  (hm : method.LiesAt lines span define first last)
include h hs ha hm

theorem Marked.text_eq :
    method.block.text buffer =
      .ok (segment (lines.map Line.text) span.define span.closing) := by
  have hle : span.define ≤ span.closing := Nat.le_trans hs.define_le hs.opening_le
  have hr := h.range ha (Nat.le_refl _) hle (Nat.le_refl _) hs.closing_lt hm.at_define hm.at_closing
  simp only [Block.text, hm.define_eq, hm.closing_eq, Option.orElse_eq_orElse,
    Option.orElse_eq_or, Option.some_or, hr, ← segment_map]
  rfl

theorem Marked.body_eq :
    method.body buffer = .ok (segment lines span.opening span.closing) := by
  have hr := h.range ha hs.define_le hs.opening_le (Nat.le_refl _) hs.closing_lt hm.at_opening
    hm.at_closing
  rw [MethodBlock.body, hm.ends_eq]
  change (buffer.range first last).mapError _ = _
  rw [hr]
  rfl

theorem Marked.isIterator_eq :
    method.isIterator buffer settings.iteratorMarkers =
      .ok (span.isIterator settings (lines.map Line.text)) := by
  rw [MethodBlock.isIterator, h.body_eq hs ha hm, Span.isIterator, ← segment_map, List.any_map]
  rfl

theorem Marked.earlyExits_eq :
    method.earlyExits buffer =
      .ok ((segment lines span.opening span.closing).filter MethodBlock.holdsReturn) := by
  rw [MethodBlock.earlyExits, h.body_eq hs ha hm]
  rfl

end Place

theorem MethodBlock.LiesAt.indent_eq {define : Line}
    (hm : method.LiesAt lines span define first last) (settings : Settings) :
    span.indent settings (lines.map Line.text) =
      leadingWhitespace first.text ++ settings.markers.indentUnit := by
  rw [Span.indent, List.getD_eq_getElem?_getD, List.getElem?_map, hm.at_opening, Option.map_some,
    Option.getD_some]

theorem MethodBlock.LiesAt.eq_first_iff {define line : Line} (hn : lines.Nodup)
    (hm : method.LiesAt lines span define first last) (hl : lines[i]? = some line) :
    line = first ↔ i = span.opening := by
  have hlt := (List.getElem?_eq_some_iff.1 hl).1
  rw [← List.getElem?_inj hlt hn, hl, hm.at_opening, Option.some.injEq]

theorem MethodBlock.LiesAt.count_exits {define line : Line} (hn : lines.Nodup)
    (hs : span.Lies lines) (hm : method.LiesAt lines span define first last)
    (hl : lines[i]? = some line) :
    (last :: (segment lines span.opening span.closing).filter MethodBlock.holdsReturn).count line =
      if span.Contains i then span.exitsAt i line.text else 0 := by
  have hlt := (List.getElem?_eq_some_iff.1 hl).1
  have hlast : last = line ↔ i = span.closing := by
    rw [← List.getElem?_inj hlt hn, hl, hm.at_closing, Option.some.injEq, eq_comm]
  have hseg : (segment lines span.opening span.closing).Nodup :=
    (hn.sublist (List.take_sublist _ _)).sublist (List.drop_sublist _ _)
  have hle := hs.opening_le
  have hret : MethodBlock.holdsReturn line = Span.holdsReturn line.text := rfl
  simp only [List.count_cons, (hseg.filter _).count, List.mem_filter, mem_segment_iff hn hl, hret,
    beq_iff_eq, hlast]
  by_cases hc : span.Contains i
  · have hb : span.opening ≤ i ∧ i ≤ span.closing := hc
    simp only [hc, hb, true_and, and_self, ↓reduceIte, Span.exitsAt, Nat.add_comm]
  · have hb : ¬ (span.opening ≤ i ∧ i ≤ span.closing) := hc
    have hne : ¬ i = span.closing := by omega
    simp only [hc, hb, hne, false_and, ↓reduceIte, Nat.add_zero]

theorem Marked.lie_append (h : Marked settings fileName lines done buffer) (hs : span.Lies lines) :
    ∀ other ∈ done ++ [span], other.Lies lines := by
  intro other ho
  rcases List.mem_append.1 ho with ho | ho
  · exact h.lie other ho
  · exact List.mem_singleton.1 ho ▸ hs

theorem Marked.skip (h : Marked settings fileName lines done buffer) (hs : span.Lies lines)
    (hi : span.isIterator settings (lines.map Line.text) = true) :
    Marked settings fileName lines (done ++ [span]) buffer := by
  obtain ⟨before, after, hw, ht⟩ := h.woven
  refine ⟨h.fileName_eq, h.lie_append hs, before, after, hw, fun i line hl => ?_⟩
  have he : markedAt? settings (lines.map Line.text) (done ++ [span]) i =
      markedAt? settings (lines.map Line.text) done i := by
    rw [markedAt?_append, if_neg (by simp [hi]), Option.or_none]
  rw [linesBefore, linesAfter, he]
  exact ht i line hl

theorem Marked.insert {define : Line} (h : Marked settings fileName lines done buffer)
    (hs : span.Lies lines) (ha : ∀ other ∈ done, other.Apart span)
    (hm : method.LiesAt lines span define first last) (hname : method.name = span.name)
    (hi : span.isIterator settings (lines.map Line.text) = false) :
    ∃ inserted, MethodBlock.insertMarkers settings.markers (method.label buffer) first last
        ((segment lines span.opening span.closing).filter MethodBlock.holdsReturn) buffer =
        (.ok (), inserted) ∧
      Marked settings fileName lines (done ++ [span]) inserted := by
  obtain ⟨before, after, hw, ht⟩ := h.woven
  have hexits : ∀ line ∈ last ::
      (segment lines span.opening span.closing).filter MethodBlock.holdsReturn, line ∈ lines := by
    intro line hl
    rcases List.mem_cons.1 hl with rfl | hl
    · exact List.mem_of_getElem? hm.at_closing
    · exact List.mem_of_mem_take (List.mem_of_mem_drop (List.mem_of_mem_filter hl))
  obtain ⟨inserted, before', after', he, hp, hw', hb', ha'⟩ :=
    hw.insertMarkers (List.mem_of_getElem? hm.at_opening) hexits settings.markers
      (method.label buffer)
  have hlabel : method.label buffer = Markers.label fileName span.name := by
    rw [MethodBlock.label, h.fileName_eq, hname]
  refine ⟨inserted, he, ?_, h.lie_append hs, before', after', hw', fun i line hl => ?_⟩
  · rw [Buffer.fileName, hp]
    exact h.fileName_eq
  · obtain ⟨hb, haf⟩ := ht i line hl
    rw [hb', ha', hb, haf, hm.count_exits hw.nodup hs hl, hlabel, ← hm.indent_eq settings]
    by_cases hc : span.Contains i
    · have hn := h.markedAt?_eq_none ha (Nat.le_trans hs.define_le hc.1) hc.2
      have he : markedAt? settings (lines.map Line.text) (done ++ [span]) i = some span := by
        rw [markedAt?_append, hn, if_pos ⟨hc, hi⟩, Option.none_or]
      simp only [linesBefore, linesAfter, hn, he, hc, ↓reduceIte, List.nil_append, List.append_nil,
        hm.eq_first_iff hw.nodup hl]
      exact ⟨rfl, rfl⟩
    · have he : markedAt? settings (lines.map Line.text) (done ++ [span]) i =
          markedAt? settings (lines.map Line.text) done i := by
        rw [markedAt?_append, if_neg fun hx => hc hx.1, Option.or_none]
      have hne : ¬ line = first := by
        rw [hm.eq_first_iff hw.nodup hl]
        rintro rfl
        exact hc ⟨Nat.le_refl _, hs.opening_le⟩
      simp only [linesBefore, linesAfter, he, hc, hne, ↓reduceIte, List.replicate_zero,
        List.append_nil, List.nil_append, and_self]

theorem Marked.markMethod (h : Marked settings fileName lines done buffer) (hn : lines.Nodup)
    (hs : span.Lies lines) (hc : span.toCandidate.Stands lines)
    (ha : ∀ other ∈ done, other.Apart span) (hb : method.BegunAt lines span.toCandidate) :
    ∃ marked, (Instrument.markMethod settings lines buffer method).value =
        .ok (marked, some (span.outcome settings (lines.map Line.text))) ∧
      Marked settings fileName lines (done ++ [span]) marked := by
  obtain ⟨define, first, last, hm⟩ := hb.liesAt hs hc
  have ho : (method.block.opening.isNone || method.block.closing.isNone) = false := by
    rw [hm.opening_eq, hm.closing_eq]
    rfl
  rw [Instrument.markMethod, ho]
  simp only [Bool.false_eq_true, ↓reduceIte, hm.lineNumber_eq hn, h.text_eq hs ha hm,
    h.isIterator_eq hs ha hm]
  cases hi : span.isIterator settings (lines.map Line.text) with
  | true =>
    refine ⟨buffer, ?_, h.skip hs hi⟩
    simp only [Span.outcome, hi, hb.1]
    rfl
  | false =>
    obtain ⟨inserted, he, hmarked⟩ := h.insert hs ha hm hb.1 hi
    refine ⟨inserted, ?_, hmarked⟩
    have hcount : ((segment lines span.opening span.closing).filter
        MethodBlock.holdsReturn).length =
          (segment (lines.map Line.text) span.opening span.closing).countP Span.holdsReturn := by
      rw [← segment_map, List.countP_map, List.countP_eq_length_filter]
      rfl
    simp only [MethodBlock.instrument, h.isIterator_eq hs ha hm, hi, hm.ends_eq,
      h.earlyExits_eq hs ha hm, he, Span.outcome, hb.1, hcount]
    rfl

/-- Methods that lie apart are all marked, whatever their order. -/
theorem Marked.markEach {methods : List MethodBlock} {spans : List Span} (hn : lines.Nodup)
    (h : Marked settings fileName lines done buffer)
    (hs : ∀ span ∈ spans, span.Lies lines ∧ span.toCandidate.Stands lines)
    (ha : (done ++ spans).Pairwise Span.Apart)
    (hb : List.Forall₂ (fun method span => method.BegunAt lines span.toCandidate) methods spans) :
    ∃ marked, (Instrument.markEach (Instrument.markMethod settings lines) methods buffer).value =
        .ok (marked, spans.map (Span.outcome settings (lines.map Line.text))) ∧
      Marked settings fileName lines (done ++ spans) marked := by
  induction hb generalizing done buffer with
  | nil =>
    rw [List.append_nil]
    exact ⟨buffer, rfl, h⟩
  | @cons method span methods spans hb hbs ih =>
    obtain ⟨hl, hc⟩ := hs span List.mem_cons_self
    have hd : ∀ other ∈ done, other.Apart span := fun other ho =>
      (List.pairwise_append.1 ha).2.2 other ho span List.mem_cons_self
    obtain ⟨marked, he, hm⟩ := h.markMethod hn hl hc hd hb
    rw [← List.singleton_append, ← List.append_assoc] at ha
    obtain ⟨all, he', hm'⟩ := ih hm (fun other ho => hs other (List.mem_cons_of_mem span ho)) ha
    refine ⟨all, ?_, ?_⟩
    · rw [Instrument.markEach, Traced.value_bind, he]
      simp only [Traced.value_bind, he', Traced.value_pure, Option.toList_some,
        List.singleton_append, List.map_cons]
    · rwa [List.append_assoc, List.singleton_append] at hm'

end MethodMarkers
