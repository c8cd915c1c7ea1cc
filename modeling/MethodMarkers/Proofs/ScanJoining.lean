import MethodMarkers.Proofs.MarkingOrder
import MethodMarkers.Proofs.TextSurrounding

namespace MethodMarkers

variable {g : Line → Line} {lines more : List Line} {c : Candidate} {span : Span}
  {outline other : Outline}

namespace Block.Image

variable {block image : Block}

theorem foldl_map (h : Image g block image)
    (hb : ∀ line ∈ lines, braces (g line).text = braces line.text) :
    Image g (lines.foldl Block.step block) ((lines.map g).foldl Block.step image) := by
  induction lines generalizing block image with
  | nil => exact h
  | cons line lines ih =>
    have hstep := h.step (hb line List.mem_cons_self)
    exact ih hstep fun other ho => hb other (List.mem_cons_of_mem line ho)

theorem following_map (hb : ∀ line ∈ lines, braces (g line).text = braces line.text) :
    Image g (Block.following lines) (Block.following (lines.map g)) := by
  cases lines with
  | nil => exact ⟨rfl, rfl, rfl, rfl, rfl⟩
  | cons line lines =>
    rw [List.map_cons, following_cons, following_cons, ← List.map_cons]
    exact (Image.new g line).foldl_map hb

end Block.Image

theorem Outline.shift_id (outline : Outline) : outline.shift id = outline := by
  obtain ⟨spans, pending⟩ := outline
  have hspans : spans.map (Span.shift id) = spans := List.map_id spans
  have hpending : pending.map (Candidate.shift id) = pending := Option.map_id_apply
  rw [shift, hspans, hpending]

theorem Line.Embeds.of_map (hb : ∀ line ∈ lines, braces (g line).text = braces line.text)
    (hn : ∀ line ∈ lines, (g line).methodName? = line.methodName?) :
    Line.Embeds id g lines (lines.map g) where
  strictMono := strictMono_id
  getElem?_place i := List.getElem?_map
  methodName?_eq := hn
  quiet k _ _ := .inl ⟨k, rfl⟩
  following d _ := by
    rw [id_eq, ← List.map_drop]
    exact Block.Image.following_map fun line hl => hb line (List.mem_of_mem_drop hl)

/-- A scan knows the lines by their braces, the names on them and their places only. -/
theorem Outline.Describes.map (h : outline.Describes lines)
    (hb : ∀ line ∈ lines, braces (g line).text = braces line.text)
    (hn : ∀ line ∈ lines, (g line).methodName? = line.methodName?) :
    outline.Describes (lines.map g) := by
  have hd := (Line.Embeds.of_map hb hn).describes h
  rwa [outline.shift_id] at hd

section Behind

theorem drop_length_add_append (lines more : List Line) (i : Nat) :
    (lines ++ more).drop (lines.length + i) = more.drop i := by
  rw [List.drop_append, List.drop_of_length_le (Nat.le_add_right _ _), List.nil_append,
    Nat.add_sub_cancel_left]

theorem getElem?_length_add_append (lines more : List Line) (i : Nat) :
    (lines ++ more)[lines.length + i]? = more[i]? := by
  rw [List.getElem?_append_right (Nat.le_add_right _ _), Nat.add_sub_cancel_left]

theorem Candidate.Stands.behind (h : c.Stands more) (lines : List Line) :
    (c.shift (lines.length + ·)).Stands (lines ++ more) := by
  obtain ⟨line, hl, hn⟩ := h
  exact ⟨line, (getElem?_length_add_append lines more c.define).trans hl, hn⟩

theorem Span.Lies.behind (h : span.Lies more) (lines : List Line) :
    (span.shift (lines.length + ·)).Lies (lines ++ more) := by
  have hdrop := drop_length_add_append lines more span.define
  constructor
  · exact Nat.add_le_add_left h.define_le _
  · exact Nat.add_le_add_left h.opening_le _
  · rw [List.length_append]
    exact Nat.add_lt_add_left h.closing_lt _
  · change (Block.following ((lines ++ more).drop (lines.length + span.define))).finished = true
    rw [hdrop]
    exact h.finished
  · change (Block.following ((lines ++ more).drop (lines.length + span.define))).Ends _ _ _
    rw [hdrop]
    constructor
    · exact h.ends.opening_eq.trans (getElem?_length_add_append lines more span.opening).symm
    · exact h.ends.closing_eq.trans (getElem?_length_add_append lines more span.closing).symm

end Behind

namespace Outline

/-- What one outline tells, and behind it what another tells of the lines that come after `n`
others. -/
def join (n : Nat) (outline other : Outline) : Outline :=
  ⟨outline.spans ++ (other.shift (n + ·)).spans, (other.shift (n + ·)).pending⟩

theorem mem_candidates_join {n : Nat} (h : c ∈ (outline.join n other).candidates) :
    c ∈ outline.candidates ∨ ∃ d ∈ other.candidates, c = d.shift (n + ·) := by
  have hshift := Line.Embeds.candidates_shift (n + ·) other
  rw [candidates, join, List.map_append, List.append_assoc, List.mem_append] at h
  rcases h with h | h
  · exact .inl (List.mem_append_left _ h)
  · change c ∈ (other.shift (n + ·)).candidates at h
    rw [hshift] at h
    obtain ⟨d, hd, rfl⟩ := List.mem_map.1 h
    exact .inr ⟨d, hd, rfl⟩

theorem Describes.join (h : outline.Describes lines) (hp : outline.pending = none)
    (h' : other.Describes more) : (outline.join lines.length other).Describes (lines ++ more) := by
  apply Traces.describes
  · constructor
    · intro span hs
      rcases List.mem_append.1 hs with hs | hs
      · exact (h.lie span hs).append more
      · obtain ⟨span, hm, rfl⟩ := List.mem_map.1 hs
        exact (h'.lie span hm).behind lines
    · apply List.pairwise_append.2
      refine ⟨h.apart, List.pairwise_map.2 (h'.apart.imp (Nat.add_lt_add_left · _)), ?_⟩
      intro a ha b hb
      obtain ⟨b, -, rfl⟩ := List.mem_map.1 hb
      exact Nat.lt_of_lt_of_le (h.lie a ha).closing_lt (Nat.le_add_right _ _)
    · intro span hs c hc
      obtain ⟨d, hd, rfl⟩ := Option.mem_map.1 hc
      rcases List.mem_append.1 hs with hs | hs
      · exact Nat.lt_of_lt_of_le (h.lie span hs).closing_lt (Nat.le_add_right _ _)
      · obtain ⟨span, hm, rfl⟩ := List.mem_map.1 hs
        exact Nat.add_lt_add_left (h'.behind span hm d hd) _
    · intro c hc
      rcases mem_candidates_join hc with hc | ⟨d, hd, rfl⟩
      · exact (h.stand c hc).append more
      · exact (h'.stand d hd).behind lines
    · intro i line hl hs hc
      by_cases hi : i < lines.length
      · rw [List.getElem?_append_left hi] at hl
        apply h.quiet i line hl
        · intro span hm
          exact hs span (List.mem_append_left _ hm)
        · intro c hm
          rw [hp] at hm
          cases hm
      · obtain ⟨j, rfl⟩ := Nat.exists_eq_add_of_le (Nat.le_of_not_lt hi)
        rw [getElem?_length_add_append] at hl
        apply h'.quiet j line hl
        · intro span hm
          have hout := hs _ (List.mem_append_right _ (List.mem_map_of_mem hm))
          exact hout.imp Nat.lt_of_add_lt_add_left Nat.lt_of_add_lt_add_left
        · intro c hm
          exact Nat.lt_of_add_lt_add_left (hc _ (Option.mem_map_of_mem _ hm))
  · intro c hc
    obtain ⟨c, hm, rfl⟩ := Option.mem_map.1 hc
    change (Block.following ((lines ++ more).drop (lines.length + c.define))).finished = false
    rw [drop_length_add_append]
    exact h'.unclosed_of_pending hm

end Outline

section Texts

variable {path : Option Path} {texts rest : List String}

def Line.after (n : Nat) (line : Line) : Line :=
  { line with serial := n + line.serial }

theorem Buffer.ofTexts_lines_append (path : Option Path) (texts rest : List String) :
    (Buffer.ofTexts 0 path (texts ++ rest)).lines =
      (Buffer.ofTexts 0 path texts).lines ++
        (Buffer.ofTexts 0 path rest).lines.map (Line.after texts.length) := by
  rw [Surround.ofTexts_lines, Surround.ofTexts_lines, Surround.ofTexts_lines, List.zipIdx_append,
    List.map_append, Nat.zero_add, List.zipIdx_eq_map_add (l := rest) (i := texts.length),
    List.map_map, List.map_map]
  rfl

theorem Buffer.ofTexts_lines_length (path : Option Path) (texts : List String) :
    (Buffer.ofTexts 0 path texts).lines.length = texts.length := by
  rw [Surround.ofTexts_lines, List.length_map, List.length_zipIdx]

/-- Two files in one, of which the first leaves no method open. -/
theorem Outline.ofTexts_append (h : (ofTexts path texts).pending = none) (rest : List String) :
    ofTexts path (texts ++ rest) = (ofTexts path texts).join texts.length (ofTexts path rest) := by
  obtain ⟨-, -, -, hd⟩ := Scanner.exists_shows path texts
  obtain ⟨-, -, -, hd'⟩ := Scanner.exists_shows path rest
  have hmoved := hd'.map (g := Line.after texts.length) (fun _ _ => rfl) fun _ _ => rfl
  have hjoin := hd.join h hmoved
  rw [Buffer.ofTexts_lines_length, ← Buffer.ofTexts_lines_append] at hjoin
  exact hjoin.ofTexts_eq

namespace Scanner

theorem finished_prefix_settled (scanner : Scanner) (method : MethodBlock) :
    scanner.finished <+: (scanner.settled method).finished := by
  rw [settled]
  split
  · exact List.prefix_append _ _
  · exact List.prefix_refl _

theorem finished_prefix_step (scanner : Scanner) (line : Line) :
    scanner.finished <+: (scanner.step line).finished := by
  rw [step]
  split
  · exact finished_prefix_settled scanner _
  · split
    · exact finished_prefix_settled scanner _
    · exact List.prefix_refl _

theorem finished_prefix_foldl (scanner : Scanner) (lines : List Line) :
    scanner.finished <+: (lines.foldl step scanner).finished := by
  induction lines generalizing scanner with
  | nil => exact List.prefix_refl _
  | cons line lines ih => exact (scanner.finished_prefix_step line).trans (ih _)

theorem Shows.spans_eq {scanner : Scanner} (h : scanner.Shows lines outline)
    (hd : outline.Describes lines) (more : List Line) (hn : (lines ++ more).Nodup) :
    scanner.finished.map (fun method => method.span (lines ++ more)) = outline.spans := by
  apply MethodBlock.spans_eq hn
  · intro span hs
    obtain ⟨hl, hc⟩ := hd.placed span hs
    exact ⟨hl.append more, hc.append more⟩
  · exact h.finished_append hd more

theorem scanTexts_finished_prefix (path : Option Path) (texts rest : List String) :
    (scanTexts path texts).value.2.finished <+:
      (scanTexts path (texts ++ rest)).value.2.finished := by
  rw [scanTexts_value, scanTexts_value, scan_value, scan_value, Buffer.ofTexts_lines_append,
    List.foldl_append]
  exact finished_prefix_foldl _ _

theorem outline_spans_prefix (path : Option Path) (texts rest : List String) :
    (Outline.ofTexts path texts).spans <+: (Outline.ofTexts path (texts ++ rest)).spans := by
  obtain ⟨scanner, hv, hs, hd⟩ := exists_shows path texts
  obtain ⟨whole, hv', hs', hd'⟩ := exists_shows path (texts ++ rest)
  have hprefix := scanTexts_finished_prefix path texts rest
  have hn := (Buffer.ofTexts_intact 0 path (texts ++ rest)).nodup
  have hown := hs'.spans_eq hd' [] (by rwa [List.append_nil])
  rw [hv, hv'] at hprefix
  rw [Buffer.ofTexts_lines_append] at hn hown
  rw [List.append_nil] at hown
  rw [← hs.spans_eq hd _ hn, ← hown]
  exact hprefix.map _

end Scanner

end Texts

end MethodMarkers
