import MethodMarkers.Proofs.LayoutRendering
import Mathlib.Tactic.ByContra

namespace MethodMarkers
open Text

namespace Text

variable {text chars : List Char} {newline : Newline} {lines : List CutLine} {c : Char}

/-- A text read from the left as lines and their ends. A carriage return with the line feed behind
it is one end, and every other of these two characters is an end by itself. -/
inductive Cuts : List Char → List CutLine → Prop
  | nil : Cuts [] []
  | last {chars : List Char} (hp : Plain chars) (hn : chars ≠ []) : Cuts chars [⟨chars, none⟩]
  | lf {chars rest : List Char} {lines : List CutLine} (hp : Plain chars) (h : Cuts rest lines) :
      Cuts (chars ++ '\n' :: rest) (⟨chars, some .lf⟩ :: lines)
  | crlf {chars rest : List Char} {lines : List CutLine} (hp : Plain chars) (h : Cuts rest lines) :
      Cuts (chars ++ '\r' :: '\n' :: rest) (⟨chars, some .crlf⟩ :: lines)
  | cr {chars rest : List Char} {lines : List CutLine} (hp : Plain chars)
      (hr : rest.head? ≠ some '\n') (h : Cuts rest lines) :
      Cuts (chars ++ '\r' :: rest) (⟨chars, some .cr⟩ :: lines)

theorem flatMap_whole_cons (chars : List Char) (newline : Newline) (lines : List CutLine) :
    (CutLine.mk chars (some newline) :: lines).flatMap CutLine.whole =
      chars ++ (newline.chars ++ lines.flatMap CutLine.whole) := by
  rw [List.flatMap_cons, CutLine.whole, List.append_assoc]
  rfl

theorem Cuts.flatMap_whole (h : Cuts text lines) : lines.flatMap CutLine.whole = text := by
  induction h with
  | nil => rfl
  | @last chars =>
    rw [List.flatMap_singleton]
    exact List.append_nil chars
  | lf _ _ ih =>
    rw [flatMap_whole_cons, ih]
    rfl
  | crlf _ _ ih =>
    rw [flatMap_whole_cons, ih]
    rfl
  | cr _ _ _ ih =>
    rw [flatMap_whole_cons, ih]
    rfl

theorem WellCut.head?_flatMap_whole (h : WellCut lines) :
    (lines.flatMap CutLine.whole).head? = some '\n' ↔ lines.head? = some ⟨[], some .lf⟩ := by
  have hplain {c : Char} {chars : List Char} (hp : Plain (c :: chars)) : some c ≠ some '\n' := by
    intro he
    cases he
    exact hp.2 List.mem_cons_self
  cases h with
  | nil => exact iff_of_false nofun nofun
  | @last chars hp hn =>
    cases chars with
    | nil => exact absurd rfl hn
    | cons c chars => exact iff_of_false (hplain hp) nofun
  | @cons chars newline lines hp =>
    rw [flatMap_whole_cons]
    cases chars with
    | nil =>
      cases newline with
      | lf => exact iff_of_true rfl rfl
      | crlf =>
        change some '\r' = some '\n' ↔ _
        exact iff_of_false (by decide) nofun
      | cr =>
        change some '\r' = some '\n' ↔ _
        exact iff_of_false (by decide) nofun
    | cons c chars => exact iff_of_false (hplain hp) nofun

theorem Cuts.wellCut (h : Cuts text lines) : WellCut lines := by
  induction h with
  | nil => exact .nil
  | last hp hn => exact .last hp hn
  | lf hp _ ih => exact .cons hp nofun ih
  | crlf hp _ ih => exact .cons hp nofun ih
  | cr hp hr h ih =>
    apply WellCut.cons hp _ ih
    intro _ hh
    apply hr
    rw [← h.flatMap_whole]
    exact ih.head?_flatMap_whole.2 hh

theorem WellCut.cuts (h : WellCut lines) : Cuts (lines.flatMap CutLine.whole) lines := by
  induction h with
  | nil => exact .nil
  | @last chars hp hn =>
    rw [List.flatMap_singleton, CutLine.whole, Option.map_none, Option.getD_none, List.append_nil]
    exact .last hp hn
  | @cons chars newline lines hp hc hl ih =>
    rw [flatMap_whole_cons]
    cases newline with
    | lf => exact .lf hp ih
    | crlf => exact .crlf hp ih
    | cr => exact .cr hp (fun hr => hc rfl (hl.head?_flatMap_whole.1 hr)) ih

/-- A text is cut in one way. -/
theorem cuts_iff : Cuts text lines ↔ lines = cutLines text := by
  constructor
  · intro h
    rw [← h.flatMap_whole, h.wellCut.cutLines_eq]
  · intro h
    have hc := (cutLines_wellCut text).cuts
    rw [flatMap_whole_cutLines] at hc
    rwa [h]

theorem NewlineCounts.count_ofLines_cons (chars : List Char) (newline other : Newline)
    (lines : List CutLine) :
    (ofLines (⟨chars, some newline⟩ :: lines)).count other =
      (ofLines lines).count other + if newline = other then 1 else 0 := by
  rw [count_ofLines, count_ofLines, List.countP_cons]
  simp only [beq_iff_eq, Option.some.injEq]

theorem WellCut.count_eq (hc : ∀ chars, Plain chars → c ∉ chars) (h : WellCut lines) :
    (lines.flatMap CutLine.whole).count c =
      (NewlineCounts.ofLines lines).lf * Newline.lf.chars.count c +
        (NewlineCounts.ofLines lines).crlf * Newline.crlf.chars.count c +
        (NewlineCounts.ofLines lines).cr * Newline.cr.chars.count c := by
  change _ = (NewlineCounts.ofLines lines).count .lf * _ +
    (NewlineCounts.ofLines lines).count .crlf * _ + (NewlineCounts.ofLines lines).count .cr * _
  induction h with
  | nil => simp [NewlineCounts.count_ofLines]
  | @last chars hp =>
    rw [List.flatMap_singleton, CutLine.whole, Option.map_none, Option.getD_none, List.append_nil,
      List.count_eq_zero.2 (hc chars hp)]
    simp [NewlineCounts.count_ofLines]
  | @cons chars newline lines hp _ _ ih =>
    rw [flatMap_whole_cons, List.count_append, List.count_append,
      List.count_eq_zero.2 (hc chars hp), ih]
    simp only [NewlineCounts.count_ofLines_cons]
    cases newline <;>
      simp only [reduceCtorEq, ↓reduceIte, Nat.add_mul, Nat.one_mul, Nat.add_zero] <;> omega

theorem WellCut.flatMap_whole_ne_nil (h : WellCut lines) (hn : lines ≠ []) :
    lines.flatMap CutLine.whole ≠ [] := by
  intro he
  apply hn
  rw [← h.cutLines_eq, he]
  rfl

theorem WellCut.endsWithNewline_iff (h : WellCut lines) :
    Source.endsWithNewline lines = true ↔
      ∃ c ∈ (lines.flatMap CutLine.whole).getLast?, c = '\r' ∨ c = '\n' := by
  induction h with
  | nil =>
    apply iff_of_false Bool.false_ne_true
    intro h
    obtain ⟨c, hc, -⟩ := h
    cases hc
  | @last chars hp =>
    rw [List.flatMap_singleton, CutLine.whole, Option.map_none, Option.getD_none, List.append_nil]
    apply iff_of_false Bool.false_ne_true
    intro h
    obtain ⟨c, hc, he⟩ := h
    have hm := List.mem_of_getLast? hc
    rcases he with rfl | rfl
    · exact hp.1 hm
    · exact hp.2 hm
  | @cons chars newline lines hp hc hl ih =>
    rw [flatMap_whole_cons]
    cases lines with
    | nil =>
      apply iff_of_true rfl
      rw [List.flatMap_nil, List.append_nil, List.getLast?_append]
      cases newline with
      | lf => exact ⟨'\n', rfl, .inr rfl⟩
      | crlf => exact ⟨'\n', rfl, .inr rfl⟩
      | cr => exact ⟨'\r', rfl, .inl rfl⟩
    | cons next lines =>
      have hnext := List.cons_ne_nil next lines
      have hlast := List.getLast?_eq_some_getLast (hl.flatMap_whole_ne_nil hnext)
      rw [endsWithNewline_cons _ hnext, ih, List.getLast?_append, List.getLast?_append, hlast]
      rfl

/-- What splitting a text tells of it: its lines with their ends, how many there are of each, and
whether the text ends in one. -/
structure SplitsInto (text : List Char) (lines : List CutLine) (counts : NewlineCounts)
    (ended : Bool) : Prop where
  cuts_iff : ∀ other, Cuts text other ↔ other = lines
  plain : ∀ line ∈ lines, Plain line.chars
  whole_eq : lines.flatMap CutLine.whole = text
  count_eq : ∀ newline, counts.count newline = lines.countP (·.newline == some newline)
  lineFeeds : text.count '\n' = counts.lf + counts.crlf
  carriageReturns : text.count '\r' = counts.cr + counts.crlf
  ended_iff : ended = true ↔ ∃ c ∈ text.getLast?, c = '\r' ∨ c = '\n'

theorem splitsInto_cutLines (text : List Char) :
    SplitsInto text (cutLines text) (NewlineCounts.ofLines (cutLines text))
      (Source.endsWithNewline (cutLines text)) := by
  have hw := cutLines_wellCut text
  have hcount {c : Char} (hc : ∀ chars, Plain chars → c ∉ chars) := hw.count_eq hc
  simp only [flatMap_whole_cutLines] at hcount
  constructor
  · exact fun _ => cuts_iff
  · exact fun _ => hw.plain
  · exact flatMap_whole_cutLines text
  · exact NewlineCounts.count_ofLines (cutLines text)
  · rw [hcount fun chars hp => hp.2]
    change _ * 1 + _ * 1 + _ * 0 = _
    omega
  · rw [hcount fun chars hp => hp.1]
    change _ * 0 + _ * 1 + _ * 1 = _
    omega
  · rw [hw.endsWithNewline_iff, flatMap_whole_cutLines]

def Newline.rank : Newline → Nat
  | lf => 0
  | crlf => 1
  | cr => 2

namespace NewlineCounts

variable {counts : NewlineCounts}

/-- No newline occurs more often, and none that occurs as often comes first. -/
def Leads (counts : NewlineCounts) (newline : Newline) : Prop :=
  ∀ other, counts.count other < counts.count newline ∨
    counts.count other = counts.count newline ∧ newline.rank ≤ other.rank

theorem dominant_leads (counts : NewlineCounts) : counts.Leads counts.dominant := by
  intro other
  rw [dominant]
  split
  · cases other <;> simp only [count, Newline.rank, true_and] <;> omega
  · split
    · cases other <;> simp only [count, Newline.rank, true_and] <;> omega
    · cases other <;> simp only [count, Newline.rank, true_and] <;> omega

theorem mixed_iff : counts.mixed = true ↔
    ∃ newline other, newline ≠ other ∧ 0 < counts.count newline ∧ 0 < counts.count other := by
  constructor
  · intro hm
    by_contra hnone
    rw [mixed_eq_false_iff.2] at hm
    · cases hm
    intro other hne
    by_contra ho
    have hpos := Nat.pos_of_ne_zero ho
    apply hnone
    refine ⟨counts.dominant, other, hne.symm, ?_, hpos⟩
    rcases counts.dominant_leads other with hlt | ⟨heq, -⟩
    · exact Nat.lt_trans hpos hlt
    · rwa [heq] at hpos
  · intro ⟨newline, other, hne, hn, ho⟩
    by_contra hm
    have honly := mixed_eq_false_iff.1 (Bool.eq_false_iff.2 hm)
    have hdominant {style : Newline} (hs : 0 < counts.count style) : style = counts.dominant := by
      by_contra hd
      exact Nat.ne_of_gt hs (honly style hd)
    exact hne ((hdominant hn).trans (hdominant ho).symm)

end NewlineCounts

theorem CutLine.restyle_restyle (newline : Newline) (line : CutLine) :
    (line.restyle newline).restyle newline = line.restyle newline := by
  rw [restyle, restyle, Option.map_map]
  rfl

theorem WellCut.uniform_restyle (h : WellCut lines) (newline : Newline) :
    Uniform ((lines.map (CutLine.restyle newline)).flatMap CutLine.whole) := by
  rw [uniform_iff, (h.restyle newline).cutLines_eq]
  refine ⟨newline, ?_⟩
  intro line hl
  obtain ⟨original, -, rfl⟩ := List.mem_map.1 hl
  exact original.restyle_restyle newline

theorem WellCut.head?_restyle (h : WellCut lines) (hr : c ≠ '\r') (hn : c ≠ '\n')
    (hc : (lines.flatMap CutLine.whole).head? ≠ some c) (newline : Newline) :
    ((lines.map (CutLine.restyle newline)).flatMap CutLine.whole).head? ≠ some c := by
  cases h with
  | nil => exact hc
  | last => exact hc
  | @cons chars ending lines =>
    cases chars with
    | nil =>
      intro he
      rw [List.map_cons, CutLine.restyle, Option.map_some, flatMap_whole_cons] at he
      cases newline with
      | lf =>
        change some '\n' = some c at he
        exact hn (Option.some.inj he).symm
      | crlf =>
        change some '\r' = some c at he
        exact hr (Option.some.inj he).symm
      | cr =>
        change some '\r' = some c at he
        exact hr (Option.some.inj he).symm
    | cons d chars => exact hc

end Text

variable {text body : List Char}

theorem withoutMark_leadingMark_append
    (h : text.head? ≠ some byteOrderMark → body.head? ≠ some byteOrderMark) :
    withoutMark (leadingMark text ++ body) = body := by
  rw [leadingMark]
  split
  · rfl
  · next hm =>
    rw [beq_iff_eq] at hm
    rw [List.nil_append, withoutMark, if_neg]
    rw [beq_iff_eq]
    exact h hm

namespace Source

theorem mixed_render (text : List Char) :
    (ofText ((ofText text).layout.render (ofText text).lines).toList).counts.mixed = false := by
  have hw := cutLines_wellCut (withoutMark text)
  rw [← uniform_iff_mixed, render_lines, withoutMark_leadingMark_append]
  · exact hw.uniform_restyle _
  · intro hm
    have hbody : withoutMark text = text := by
      rw [withoutMark, if_neg]
      rwa [beq_iff_eq]
    apply hw.head?_restyle (by decide) (by decide)
    rwa [flatMap_whole_cutLines, hbody]

/-- A text is split at its ends and written with the most frequent of them in place of each. This
changes nothing where the ends are of one style, so that doing it twice is doing it once. -/
theorem render_normalizes (text : List Char) :
    SplitsInto text (cutLines text) (NewlineCounts.ofLines (cutLines text))
      (endsWithNewline (cutLines text)) ∧
    let source := ofText text
    let rendered := (source.layout.render source.lines).toList
    let again := ofText rendered
    ∃ lines, SplitsInto (withoutMark text) lines source.counts source.layout.endsWithNewline ∧
      source.lines.map String.toList = lines.map CutLine.chars ∧
      source.counts.Leads source.layout.newline ∧
      rendered = leadingMark text ++
        (lines.map (CutLine.restyle source.layout.newline)).flatMap CutLine.whole ∧
      (source.counts.mixed = true ↔ ∃ newline other, newline ≠ other ∧
        0 < source.counts.count newline ∧ 0 < source.counts.count other) ∧
      (source.counts.mixed = false → rendered = text) ∧
      again.counts.mixed = false ∧ (again.layout.render again.lines).toList = rendered := by
  have hsame (text : List Char) (hm : (ofText text).counts.mixed = false) :
      ((ofText text).layout.render (ofText text).lines).toList = text := by
    rw [render_lines_eq_iff, uniform_iff_mixed]
    exact hm
  refine ⟨splitsInto_cutLines text, cutLines (withoutMark text), ?_⟩
  refine ⟨splitsInto_cutLines (withoutMark text), ofText_lines_toList text, ?_, ?_, ?_, ?_, ?_, ?_⟩
  · exact NewlineCounts.dominant_leads _
  · exact render_lines text
  · exact NewlineCounts.mixed_iff
  · exact hsame text
  · exact mixed_render text
  · exact hsame _ (mixed_render text)

end Source

end MethodMarkers
