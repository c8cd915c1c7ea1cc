import MethodMarkers.Proofs.ScanOutline

namespace MethodMarkers

variable {lines : List Line} {c d : Candidate} {span other : Span} {outline : Outline}

theorem Candidate.Stands.unique (hc : c.Stands lines) (hd : d.Stands lines)
    (h : c.define = d.define) : c = d := by
  obtain ⟨line, hl, hn⟩ := hc
  obtain ⟨line', hl', hn'⟩ := hd
  rw [h, hl', Option.some.injEq] at hl
  rw [← hl, hn', Option.some.injEq] at hn
  cases c with
  | mk name define =>
    cases d with
    | mk name' define' => exact congr (congrArg Candidate.mk hn.symm) h

theorem Span.Lies.unique (hn : lines.Nodup) (h : span.Lies lines) (h' : other.Lies lines)
    (hc : span.toCandidate = other.toCandidate) : span = other := by
  have hd : span.define = other.define := congrArg Candidate.define hc
  have ho : lines[span.opening]? = lines[other.opening]? := by
    rw [← h.ends.opening_eq, hd, h'.ends.opening_eq]
  have he : lines[span.closing]? = lines[other.closing]? := by
    rw [← h.ends.closing_eq, hd, h'.ends.closing_eq]
  have ho := (List.getElem?_inj (Nat.lt_of_le_of_lt h.opening_le h.closing_lt) hn).1 ho
  have he := (List.getElem?_inj h.closing_lt hn).1 he
  cases span with
  | mk c opening closing =>
    cases other with
    | mk c' opening' closing' => exact congr (congr (congrArg Span.mk hc) ho) he

namespace Outline

structure DescribesFrom (outline : Outline) (lines : List Line) (start : Nat) : Prop where
  lie : ∀ span ∈ outline.spans, span.Lies lines
  apart : outline.spans.Pairwise fun a b => a.closing < b.define
  behind : ∀ span ∈ outline.spans, ∀ c ∈ outline.pending, span.closing < c.define
  stand : ∀ c ∈ outline.candidates, start ≤ c.define ∧ c.Stands lines
  quiet : ∀ i line, start ≤ i → lines[i]? = some line →
    (∀ span ∈ outline.spans, i < span.define ∨ span.closing < i) →
    (∀ c ∈ outline.pending, i < c.define) → line.methodName? = none
  unclosed : ∀ c ∈ outline.pending, (Block.following (lines.drop c.define)).finished = false

theorem Describes.describesFrom (h : outline.Describes lines) : outline.DescribesFrom lines 0 :=
  ⟨h.lie, h.apart, h.behind, fun c hc => ⟨Nat.zero_le _, h.stand c hc⟩,
    fun i line _ => h.quiet i line, fun _ hc => h.unclosed_of_pending hc⟩

theorem DescribesFrom.tail {spans : List Span} {pending : Option Candidate} {start : Nat}
    (h : DescribesFrom ⟨span :: spans, pending⟩ lines start) :
    DescribesFrom ⟨spans, pending⟩ lines (span.closing + 1) := by
  have hl := h.lie span List.mem_cons_self
  have ha := List.pairwise_cons.1 h.apart
  have hd := hl.define_le
  have ho := hl.opening_le
  have hs := (h.stand _ (mem_candidates_of_span List.mem_cons_self)).1
  refine ⟨fun other hm => h.lie other (List.mem_cons_of_mem span hm), ha.2,
    fun other hm => h.behind other (List.mem_cons_of_mem span hm), fun c hc => ⟨?_, ?_⟩,
    fun i line hi hline hout hp => ?_, h.unclosed⟩
  · rcases List.mem_append.1 hc with hc | hc
    · obtain ⟨other, hm, rfl⟩ := List.mem_map.1 hc
      exact ha.1 other hm
    · exact h.behind span List.mem_cons_self c (Option.mem_toList.1 hc)
  · exact (h.stand c (List.mem_cons_of_mem _ hc)).2
  · refine h.quiet i line (by omega) hline (fun other hm => ?_) hp
    rcases List.mem_cons.1 hm with rfl | hm
    · exact .inr hi
    · exact hout other hm

theorem DescribesFrom.quiet_of_lt_head {start i : Nat} {line : Line}
    (h : outline.DescribesFrom lines start) (hi : start ≤ i)
    (hc : ∀ c ∈ outline.candidates.head?, i < c.define) (hl : lines[i]? = some line) :
    line.methodName? = none := by
  obtain ⟨spans, pending⟩ := outline
  cases spans with
  | nil =>
    refine h.quiet i line hi hl (fun _ hm => nomatch hm) fun c hm => hc c ?_
    cases hm
    rfl
  | cons span spans =>
    have hlt : i < span.define := hc span.toCandidate rfl
    have hlies := h.lie span List.mem_cons_self
    have hd := hlies.define_le
    have ho := hlies.opening_le
    refine h.quiet i line hi hl (fun other hm => .inl ?_) fun c hm => ?_
    · rcases List.mem_cons.1 hm with rfl | hm
      · exact hlt
      · have := (List.pairwise_cons.1 h.apart).1 other hm
        omega
    · have := h.behind span List.mem_cons_self c hm
      omega

theorem DescribesFrom.head_le {outline' : Outline} {start : Nat}
    (h : outline.DescribesFrom lines start) (h' : outline'.DescribesFrom lines start)
    (hc : c ∈ outline.candidates.head?) : ∃ d ∈ outline'.candidates.head?, d.define ≤ c.define := by
  obtain ⟨hs, line, hl, hn⟩ := h.stand c (List.mem_of_mem_head? hc)
  by_contra hcon
  have hq := h'.quiet_of_lt_head hs (fun d hd => ?_) hl
  · rw [hn] at hq
    cases hq
  · by_contra hle
    exact hcon ⟨d, hd, Nat.le_of_not_lt hle⟩

theorem DescribesFrom.head_unique {outline' : Outline} {start : Nat}
    (h : outline.DescribesFrom lines start) (h' : outline'.DescribesFrom lines start) :
    outline.candidates.head? = outline'.candidates.head? := by
  cases hc : outline.candidates.head? with
  | none =>
    cases hd : outline'.candidates.head? with
    | none => rfl
    | some d =>
      obtain ⟨c, hc', -⟩ := h'.head_le h hd
      rw [hc] at hc'
      cases hc'
  | some c =>
    obtain ⟨d, hd, hle⟩ := h.head_le h' hc
    obtain ⟨c', hc', hge⟩ := h'.head_le h hd
    obtain rfl : c = c' := by rw [hc] at hc'; exact Option.some.inj hc'
    have hs := (h.stand c (List.mem_of_mem_head? hc)).2
    have hs' := (h'.stand d (List.mem_of_mem_head? hd)).2
    rw [hs.unique hs' (Nat.le_antisymm hge hle)]
    exact hd.symm

theorem head?_candidates_nil (pending : Option Candidate) :
    (candidates ⟨[], pending⟩).head? = pending := by
  cases pending <;> rfl

/-- Two outlines of the same lines begin with the same candidate, which closes for both at the same
place or for neither. -/
theorem DescribesFrom.unique (hn : lines.Nodup) {spans spans' : List Span}
    {pending pending' : Option Candidate} {start : Nat}
    (h : DescribesFrom ⟨spans, pending⟩ lines start)
    (h' : DescribesFrom ⟨spans', pending'⟩ lines start) :
    spans = spans' ∧ pending = pending' := by
  have hh := h.head_unique h'
  induction spans generalizing spans' start with
  | nil =>
    rw [head?_candidates_nil] at hh
    cases spans' with
    | nil => exact ⟨rfl, by rw [hh, head?_candidates_nil]⟩
    | cons span' spans' =>
      have hf := h.unclosed span'.toCandidate hh
      rw [(h'.lie span' List.mem_cons_self).finished] at hf
      cases hf
  | cons span spans ih =>
    cases spans' with
    | nil =>
      rw [head?_candidates_nil] at hh
      have hf := h'.unclosed span.toCandidate hh.symm
      rw [(h.lie span List.mem_cons_self).finished] at hf
      cases hf
    | cons span' spans' =>
      have hs : span = span' :=
        (h.lie span List.mem_cons_self).unique hn (h'.lie span' List.mem_cons_self)
          (Option.some.inj hh)
      subst hs
      obtain ⟨hss, hp⟩ := ih h.tail h'.tail (h.tail.head_unique h'.tail)
      exact ⟨congrArg (span :: ·) hss, hp⟩

end Outline

theorem Line.position_getElem? (hn : lines.Nodup) {i : Nat} (hi : i < lines.length) :
    Line.position lines lines[i]? = i := by
  rw [List.getElem?_eq_getElem hi, Line.position, Option.map_some, Option.getD_some,
    hn.idxOf_getElem]

theorem MethodBlock.BegunAt.define_eq {method : MethodBlock} (h : method.BegunAt lines c)
    (hc : c.Stands lines) : method.block.define = lines[c.define]? := by
  rw [h.2, List.drop_eq_getElem_cons hc.lt, Block.following_define, List.getElem?_eq_getElem hc.lt]

theorem MethodBlock.BegunAt.candidate_eq {method : MethodBlock} (hn : lines.Nodup)
    (h : method.BegunAt lines c) (hc : c.Stands lines) : method.candidate lines = c := by
  rw [MethodBlock.candidate, h.define_eq hc, Line.position_getElem? hn hc.lt, h.1]

theorem MethodBlock.BegunAt.span_eq {method : MethodBlock} (hn : lines.Nodup)
    (h : method.BegunAt lines span.toCandidate) (hc : span.toCandidate.Stands lines)
    (hs : span.Lies lines) : method.span lines = span := by
  rw [MethodBlock.span, h.candidate_eq hn hc, h.2, hs.ends.opening_eq, hs.ends.closing_eq,
    Line.position_getElem? hn (Nat.lt_of_le_of_lt hs.opening_le hs.closing_lt),
    Line.position_getElem? hn hs.closing_lt]

theorem MethodBlock.spans_eq {methods : List MethodBlock} {spans : List Span}
    (hn : lines.Nodup)
    (hs : ∀ span ∈ spans, span.Lies lines ∧ span.toCandidate.Stands lines)
    (hb : List.Forall₂ (fun method span => method.BegunAt lines span.toCandidate) methods spans) :
    methods.map (fun method => method.span lines) = spans := by
  induction hb with
  | nil => rfl
  | @cons method span methods spans hb hbs ih =>
    obtain ⟨hl, hc⟩ := hs span List.mem_cons_self
    rw [List.map_cons, hb.span_eq hn hc hl,
      ih fun other ho => hs other (List.mem_cons_of_mem span ho)]

theorem Scanner.Shows.outline_eq {scanner : Scanner} (hn : lines.Nodup)
    (h : scanner.Shows lines outline) (hd : outline.Describes lines) :
    scanner.outline lines = outline := by
  rw [Scanner.outline, MethodBlock.spans_eq hn hd.placed h.finished]
  obtain ⟨spans, pending⟩ := outline
  cases hm : scanner.active with
  | none => exact congrArg (Outline.mk spans) (h.active_none hm).symm
  | some method =>
    obtain ⟨c, rfl, hb⟩ := h.active_some hm
    have hc := hd.stand c (Outline.mem_candidates_of_pending rfl)
    rw [Option.map_some, hb.candidate_eq hn hc]

namespace Scanner

theorem take_value (state : Buffer × Scanner) (text : String) :
    (take state text).value = (state.1.append text, state.2.step (state.1.newLine text)) := by
  rw [take, Traced.value_bind, ← push_value (state.1.append text)]
  rfl

theorem scanTexts_value (path : Option Path) (texts : List String) :
    (scanTexts path texts).value =
      (Buffer.ofTexts 0 path texts, (scan (Buffer.ofTexts 0 path texts)).value) := by
  have hfold : texts.foldl (fun state text => (take state text).value) (.empty 0 path, {}) =
      (Buffer.ofTexts 0 path texts, (Buffer.ofTexts 0 path texts).lines.foldl step {}) := by
    induction texts using List.reverseRecOn with
    | nil => rfl
    | append_singleton texts text ih =>
      rw [List.foldl_append, ih, List.foldl_cons, List.foldl_nil, take_value, Buffer.ofTexts_append,
        Buffer.append_lines, List.foldl_append, List.foldl_cons, List.foldl_nil]
  rw [scanTexts, Traced.value_bind, Traced.value_foldlM, hfold, scan_value]
  simp only [Traced.value_bind, conclude_value, Traced.value_pure]

/-- The outline of a scan is the only one that describes the lines, and it is the same whether the
buffer is scanned as it is filled or afterwards. -/
theorem scan_outline_iff (path : Option Path) (texts : List String) :
    let buffer := Buffer.ofTexts 0 path texts
    let scanner := (scan buffer).value
    buffer.texts = texts ∧ (scanTexts path texts).value = (buffer, scanner) ∧
      ∀ outline : Outline,
        outline.Describes buffer.lines ↔ outline = scanner.outline buffer.lines := by
  intro buffer scanner
  have hn : buffer.lines.Nodup := (Buffer.ofTexts_intact 0 path texts).nodup
  obtain ⟨found, hs, hd⟩ := foldl_step_shows buffer.lines
  have hf : scanner.outline buffer.lines = found := by
    rw [← scan_value buffer] at hs
    exact hs.outline_eq hn hd
  refine ⟨Buffer.ofTexts_texts 0 path texts, scanTexts_value path texts, fun outline => ⟨?_, ?_⟩⟩
  · intro ho
    rw [hf]
    obtain ⟨hspans, hpending⟩ := ho.describesFrom.unique hn hd.describesFrom
    exact congr (congrArg Outline.mk hspans) hpending
  · rintro rfl
    rw [hf]
    exact hd

end Scanner

end MethodMarkers
