import MethodMarkers.Proofs.BodyMarking

namespace MethodMarkers

variable {settings : Settings} {fileName : String} {lines : List Line} {spans : List Span}
  {buffer : Buffer}

def Outline.ofTexts (path : Option Path) (texts : List String) : Outline :=
  let (buffer, scanner) := (Scanner.scanTexts path texts).value
  scanner.outline buffer.lines

theorem flatMap_eq_flatMap_zipIdx {f : Line → List String} {g : String × Nat → List String}
    (h : ∀ i line, lines[i]? = some line → f line = g (line.text, i)) :
    lines.flatMap f = (lines.map Line.text).zipIdx.flatMap g := by
  have hz : lines.flatMap f = lines.zipIdx.flatMap fun p => f p.1 := by
    conv_lhs => rw [← List.zipIdx_map_fst 0 lines, List.flatMap_map]
  rw [hz, List.zipIdx_map, List.flatMap_map]
  apply List.flatMap_congr
  intro p hp
  exact h p.2 p.1 (List.mem_zipIdx_iff_getElem?.1 hp)

theorem Marked.texts_eq (h : Marked settings fileName lines spans buffer) :
    buffer.texts = markedTexts settings fileName (lines.map Line.text) spans := by
  obtain ⟨before, after, hw, ht⟩ := h.woven
  rw [Buffer.texts, hw.lines_eq, weave, List.map_flatMap, markedTexts]
  apply flatMap_eq_flatMap_zipIdx
  intro i line hl
  obtain ⟨hb, ha⟩ := ht i line hl
  rw [List.map_append, List.map_cons, hb, ha]
  simp only [List.append_assoc, List.singleton_append]

theorem Buffer.Intact.marked_nil (h : buffer.Intact) (settings : Settings) :
    Marked settings buffer.fileName buffer.lines [] buffer where
  fileName_eq := rfl
  lie _ ho := nomatch ho
  woven := by
    refine ⟨fun _ => [], fun _ => [], ⟨h, h.nodup, ?_⟩, fun i line hl => ⟨rfl, rfl⟩⟩
    exact (weave_eq_self fun _ _ => ⟨rfl, rfl⟩).symm

theorem Outline.Describes.spans_apart {outline : Outline} (h : outline.Describes lines) :
    outline.spans.Pairwise Span.Apart :=
  h.apart.imp fun hab => .inl hab

theorem Scanner.exists_shows (path : Option Path) (texts : List String) :
    ∃ scanner, (scanTexts path texts).value = (Buffer.ofTexts 0 path texts, scanner) ∧
      scanner.Shows (Buffer.ofTexts 0 path texts).lines (Outline.ofTexts path texts) ∧
      (Outline.ofTexts path texts).Describes (Buffer.ofTexts 0 path texts).lines := by
  obtain ⟨outline, hs, hd⟩ := foldl_step_shows (Buffer.ofTexts 0 path texts).lines
  have hv := scanTexts_value path texts
  rw [scan_value] at hv
  have he : Outline.ofTexts path texts = outline := by
    rw [Outline.ofTexts, hv]
    exact hs.outline_eq (Buffer.ofTexts_intact 0 path texts).nodup hd
  rw [he]
  exact ⟨_, hv, hs, hd⟩

theorem Scanner.Shows.pending_name {scanner : Scanner} {outline : Outline}
    (h : scanner.Shows lines outline) :
    scanner.active.map MethodBlock.name = outline.pending.map Candidate.name := by
  cases hm : scanner.active with
  | none => rw [h.active_none hm]; rfl
  | some method =>
    obtain ⟨c, hp, hb⟩ := h.active_some hm
    rw [hp]
    exact congrArg some hb.1

/-- What becomes of the lines of a file, told by the outline of its scan alone. -/
theorem Instrument.lines_value (settings : Settings) (path : Option Path) (texts : List String) :
    (Instrument.lines settings path texts).value = .ok
      { path, before := texts
        after := markedTexts settings ((path.map Path.name).getD "") texts
          (Outline.ofTexts path texts).spans
        methods := (Outline.ofTexts path texts).spans.map (Span.outcome settings texts)
        unfinished := (Outline.ofTexts path texts).pending.map Candidate.name } := by
  obtain ⟨scanner, hv, hs, hd⟩ := Scanner.exists_shows path texts
  have hi := Buffer.ofTexts_intact 0 path texts
  have ht : (Buffer.ofTexts 0 path texts).lines.map Line.text = texts :=
    Buffer.ofTexts_texts 0 path texts
  obtain ⟨marked, hm, hmarked⟩ := (hi.marked_nil settings).markEach hi.nodup hd.placed
    hd.spans_apart hs.finished
  rw [List.nil_append] at hmarked
  have hafter := hmarked.texts_eq
  rw [ht, Buffer.fileName, Buffer.ofTexts_path] at hafter
  rw [ht] at hm
  rw [Instrument.lines, Instrument.linesBy, Traced.value_bind, hv]
  simp only [Traced.value_bind, hm, Traced.value_pure, hafter, hs.pending_name]

/-- Marking is one pass over the lines, told by the methods that a scan of them finds. -/
theorem Instrument.lines_after_eq_markedTexts (settings : Settings) (path : Option Path)
    (texts : List String) :
    let spans := (Outline.ofTexts path texts).spans
    (∀ span ∈ spans, span.opening ≤ span.closing ∧ span.closing < texts.length) ∧
      (spans.Pairwise fun a b => a.closing < b.opening) ∧
      ∃ result, (Instrument.lines settings path texts).value = .ok result ∧
        result.after = markedTexts settings ((path.map Path.name).getD "") texts spans := by
  obtain ⟨scanner, hv, hs, hd⟩ := Scanner.exists_shows path texts
  have ht : (Buffer.ofTexts 0 path texts).lines.map Line.text = texts :=
    Buffer.ofTexts_texts 0 path texts
  have hlen : (Buffer.ofTexts 0 path texts).lines.length = texts.length := by
    rw [← List.length_map Line.text, ht]
  refine ⟨fun span hm => ?_, ?_, _, Instrument.lines_value settings path texts, rfl⟩
  · have hl := hd.lie span hm
    exact ⟨hl.opening_le, hlen ▸ hl.closing_lt⟩
  · refine hd.apart.imp_of_mem fun {a b} _ hb hab => ?_
    exact Nat.lt_of_lt_of_le hab (hd.lie b hb).define_le

end MethodMarkers
