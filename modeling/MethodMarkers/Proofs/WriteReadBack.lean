import MethodMarkers.Proofs.FileRewriting

namespace MethodMarkers
open Text

namespace Layout

def cut (layout : Layout) : List String → List CutLine
  | [] => []
  | [line] => [⟨line.toList, if layout.endsWithNewline then some layout.newline else none⟩]
  | line :: next :: lines => ⟨line.toList, some layout.newline⟩ :: cut layout (next :: lines)

/-- Lines that a text in a layout can hold. What is not marked must not begin with a mark, and an
empty line is one only if it has an end. -/
structure Fits (layout : Layout) (lines : List String) : Prop where
  ne_nil : lines ≠ []
  plain : ∀ line ∈ lines, Plain line.toList
  last_ne_empty : layout.endsWithNewline = false → lines.getLast? ≠ some ""
  first_unmarked : layout.marked = false →
    ∀ line ∈ lines.head?, line.toList.head? ≠ some byteOrderMark

variable {layout : Layout} {lines : List String}

theorem cut_chars (layout : Layout) (lines : List String) :
    (layout.cut lines).map CutLine.chars = lines.map String.toList := by
  fun_induction cut layout lines with
  | case1 => rfl
  | case2 => rfl
  | case3 line next lines ih =>
    rw [List.map_cons, ih]
    rfl

theorem cut_restyle (layout : Layout) (lines : List String) :
    ∀ line ∈ layout.cut lines, line.restyle layout.newline = line := by
  fun_induction cut layout lines with
  | case1 => exact fun _ h => nomatch h
  | case2 line =>
    intro cut hc
    rw [List.mem_singleton.1 hc]
    cases layout.endsWithNewline <;> rfl
  | case3 line next lines ih => exact List.forall_mem_cons.2 ⟨rfl, ih⟩

theorem cut_ne_nil (h : lines ≠ []) : layout.cut lines ≠ [] := by
  intro he
  have hc := congrArg (List.map CutLine.chars) he
  rw [cut_chars, List.map_nil, List.map_eq_nil_iff] at hc
  exact h hc

theorem cut_endsWithNewline (h : lines ≠ []) :
    Source.endsWithNewline (layout.cut lines) = layout.endsWithNewline := by
  fun_induction cut layout lines with
  | case1 => exact absurd rfl h
  | case2 line => cases he : layout.endsWithNewline <;> rfl
  | case3 line next lines ih =>
    rw [endsWithNewline_cons _ (cut_ne_nil (List.cons_ne_nil _ _)), ih (List.cons_ne_nil _ _)]

theorem cut_wellCut (hp : ∀ line ∈ lines, Plain line.toList)
    (hl : layout.endsWithNewline = false → lines.getLast? ≠ some "") :
    WellCut (layout.cut lines) := by
  fun_induction cut layout lines with
  | case1 => exact .nil
  | case2 line =>
    have hline := hp line (List.mem_singleton_self line)
    cases he : layout.endsWithNewline with
    | true => exact .cons hline (fun _ => nofun) .nil
    | false =>
      refine .last hline fun hn => hl he ?_
      rw [String.toList_eq_nil_iff.1 hn]
      rfl
  | case3 line next lines ih =>
    obtain ⟨hline, hp⟩ := List.forall_mem_cons.1 hp
    refine .cons hline (fun hc hh => ?_) (ih hp hl)
    have hr := layout.cut_restyle (next :: lines) _ (List.mem_of_mem_head? hh)
    rw [hc] at hr
    cases hr

theorem exists_newline (hn : lines ≠ []) (h : 2 ≤ lines.length ∨ layout.endsWithNewline = true) :
    ∃ line ∈ layout.cut lines, line.newline = some layout.newline := by
  fun_cases cut layout lines with
  | case1 => exact absurd rfl hn
  | case2 line =>
    have he : layout.endsWithNewline = true := h.resolve_left (by simp)
    exact ⟨_, List.mem_singleton_self _, by rw [he]; rfl⟩
  | case3 line next lines => exact ⟨_, List.mem_cons_self, rfl⟩

theorem render_eq (hp : WellCut (layout.cut lines)) (hn : lines ≠ []) :
    (layout.render lines).toList =
      (if layout.marked then [byteOrderMark] else []) ++
        (layout.cut lines).flatMap CutLine.whole := by
  have hw := hp.intercalate_chars layout.newline
  rw [cut_chars, cut_endsWithNewline hn, map_restyle_eq_self_iff.2 (layout.cut_restyle lines)] at hw
  rw [render, joinLines_toList, List.append_assoc, List.isEmpty_eq_false_iff.2 hn, Bool.not_false,
    Bool.and_true]
  exact congrArg _ hw

theorem whole_head_ne_mark {line : CutLine} (hn : line.chars = [] → line.newline ≠ none)
    (hf : line.chars.head? ≠ some byteOrderMark) (text : List Char) :
    (line.whole ++ text).head? ≠ some byteOrderMark := by
  obtain ⟨chars, newline⟩ := line
  cases chars with
  | cons c chars => exact hf
  | nil =>
    cases newline with
    | none => exact absurd rfl (hn rfl)
    | some newline =>
      cases newline <;> simp [CutLine.whole, Newline.chars, Newline.text, byteOrderMark]

theorem cut_head_ne_mark (hl : layout.endsWithNewline = false → lines.getLast? ≠ some "")
    (hf : ∀ line ∈ lines.head?, line.toList.head? ≠ some byteOrderMark) :
    ((layout.cut lines).flatMap CutLine.whole).head? ≠ some byteOrderMark := by
  fun_cases cut layout lines with
  | case1 => exact nofun
  | case2 line =>
    refine whole_head_ne_mark (fun hn he => ?_) (hf line rfl) []
    cases hends : layout.endsWithNewline with
    | true =>
      rw [hends] at he
      cases he
    | false =>
      apply hl hends
      rw [String.toList_eq_nil_iff.1 hn]
      rfl
  | case3 line next lines =>
    exact whole_head_ne_mark (fun _ => Option.some_ne_none _) (hf line rfl) _

theorem Fits.withoutMark_render (h : layout.Fits lines) :
    withoutMark (layout.render lines).toList = (layout.cut lines).flatMap CutLine.whole ∧
      ((layout.render lines).toList.head? == some byteOrderMark) = layout.marked := by
  rw [render_eq (cut_wellCut h.plain h.last_ne_empty) h.ne_nil]
  cases hm : layout.marked with
  | true => exact ⟨rfl, rfl⟩
  | false =>
    have hu := cut_head_ne_mark h.last_ne_empty (h.first_unmarked hm)
    have hb := beq_eq_false_iff_ne.2 hu
    rw [if_neg Bool.false_ne_true, List.nil_append, withoutMark, hb]
    exact ⟨rfl, rfl⟩

end Layout

theorem Text.NewlineCounts.Only.dominant_eq {counts : NewlineCounts} {newline : Newline}
    (h : counts.Only newline) (hc : 0 < counts.count newline) : counts.dominant = newline := by
  by_contra hn
  exact Nat.ne_of_gt hc (h.dominant newline (Ne.symm hn))

/-- The text of lines in a layout has these lines and this layout, as far as it shows in it. -/
theorem Layout.Fits.ofText_render {layout : Layout} {lines : List String} (h : layout.Fits lines) :
    let source := Source.ofText (layout.render lines).toList
    source.lines = lines ∧ source.layout.endsWithNewline = layout.endsWithNewline ∧
      source.layout.marked = layout.marked ∧ source.counts.mixed = false ∧
      (2 ≤ lines.length ∨ layout.endsWithNewline = true →
        source.layout.newline = layout.newline) := by
  intro source
  obtain ⟨hbody, hmark⟩ := h.withoutMark_render
  have hcut : cutLines (withoutMark (layout.render lines).toList) = layout.cut lines := by
    rw [hbody]
    exact (cut_wellCut h.plain h.last_ne_empty).cutLines_eq
  have honly : source.counts.Only layout.newline := by
    change (NewlineCounts.ofLines (cutLines (withoutMark _))).Only _
    rw [hcut]
    exact NewlineCounts.only_ofLines_iff.2 (layout.cut_restyle lines)
  refine ⟨?_, ?_, hmark, NewlineCounts.mixed_eq_false_iff.2 honly.dominant, fun hends => ?_⟩
  · apply List.map_injective_iff.2 fun _ _ => String.toList_injective
    rw [Source.ofText_lines_toList, hcut, cut_chars]
  · change Source.endsWithNewline (cutLines (withoutMark _)) = _
    rw [hcut, cut_endsWithNewline h.ne_nil]
  · apply honly.dominant_eq
    change 0 < (NewlineCounts.ofLines (cutLines (withoutMark _))).count _
    rw [hcut, NewlineCounts.count_ofLines, List.countP_pos_iff]
    obtain ⟨line, hm, he⟩ := exists_newline h.ne_nil hends
    exact ⟨line, hm, beq_iff_eq.2 he⟩

namespace Source

variable {tree : Tree} {path : Path} {name : String} {image : OpenSource} {lines : List String}

theorem read_eq_ok_iff :
    (read tree path name).value = .ok image ↔ ∃ encoding location bytes text,
      Encoding.named name = .ok encoding ∧ tree.read path = .ok (location, bytes) ∧
        encoding.decode bytes = .ok text ∧ image = ⟨ofText text, location, encoding⟩ := by
  constructor
  · intro h
    unfold read at h
    split at h
    · cases h
    · cases h
    · next location bytes hr _ =>
      cases hn : Encoding.named name with
      | error fault =>
        rw [hn] at h
        cases h
      | ok encoding =>
        rw [hn] at h
        cases hd : encoding.decode bytes with
        | error fault =>
          simp only [hd] at h
          cases h
        | ok text =>
          simp only [hd] at h
          cases h
          exact ⟨encoding, location, bytes, text, rfl, hr, hd, rfl⟩
  · rintro ⟨encoding, location, bytes, text, hn, hr, hd, rfl⟩
    simp only [read, hn, hr, hd]
    rfl

/-- What is written to a file is read from it again: the lines as they are, in the layout that the
file had. Line ends are of one style then, and of the same, where the text has any. -/
theorem read_write_read (he : Encoding.named name = .ok .utf8)
    (hr : (read tree path name).value = .ok image) (hf : image.source.layout.Fits lines) :
    ∃ size after again, (image.write tree path lines).value = .ok (size, after) ∧
      (read after path name).value = .ok again ∧ again.source.lines = lines ∧
      again.source.layout.endsWithNewline = image.source.layout.endsWithNewline ∧
      again.source.layout.marked = image.source.layout.marked ∧
      again.source.counts.mixed = false ∧
      (2 ≤ lines.length ∨ image.source.layout.endsWithNewline = true →
        again.source.layout.newline = image.source.layout.newline) := by
  obtain ⟨encoding, location, bytes, text, hn, ho, hd, rfl⟩ := read_eq_ok_iff.1 hr
  obtain rfl : Encoding.utf8 = encoding := Except.ok.inj (he.symm.trans hn)
  have hw : (OpenSource.write ⟨ofText text, location, .utf8⟩ tree path lines).value = .ok _ :=
    OpenSource.write_value rfl tree path
  have hagain := read_eq_ok_iff.2 ⟨_, _, _, _, he, Tree.read_write ho _,
    Utf8.decode_encode ((ofText text).layout.render lines).toList, rfl⟩
  exact ⟨_, _, _, hw, hagain, hf.ofText_render⟩

/-- A marked text with a carriage return, whose last line has no end. The lines that are written
begin with a mark of their own, and one of them is empty. -/
theorem read_write_read_carriageReturn :
    let tree : Tree := ⟨[], [(["A.cs"], .file [0xEF, 0xBB, 0xBF, 0x61, 0x0D, 0x62])]⟩
    let path : Path := ⟨0, ["A.cs"]⟩
    let lines := ["\ufeff", "", "b"]
    Encoding.named "utf-8" = .ok .utf8 ∧ ∃ image, (read tree path "utf-8").value = .ok image ∧
      image.source.layout = ⟨.cr, false, true⟩ ∧ image.source.layout.Fits lines ∧
      ∃ size after again, (image.write tree path lines).value = .ok (size, after) ∧
        (read after path "utf-8").value = .ok again ∧ again.source.lines = lines ∧
        again.source.layout = ⟨.cr, false, true⟩ ∧ again.source.counts.mixed = false := by
  intro tree path lines
  have he : Encoding.named "utf-8" = .ok .utf8 := by decide +kernel
  have ho : tree.read path = .ok (["A.cs"], [0xEF, 0xBB, 0xBF, 0x61, 0x0D, 0x62]) :=
    Tree.read_name (by decide) (by decide) (by decide +kernel) (by decide) (by decide +kernel) rfl
  have hd : Encoding.utf8.decode [0xEF, 0xBB, 0xBF, 0x61, 0x0D, 0x62] =
      .ok [byteOrderMark, 'a', '\r', 'b'] := by
    decide +kernel
  have hr := read_eq_ok_iff.2 ⟨_, _, _, _, he, ho, hd, rfl⟩
  have hlayout : (ofText [byteOrderMark, 'a', '\r', 'b']).layout = ⟨.cr, false, true⟩ := by
    decide +kernel
  have hf : (ofText [byteOrderMark, 'a', '\r', 'b']).layout.Fits lines := by
    rw [hlayout]
    exact ⟨by decide, by decide +kernel, fun _ => by decide, fun h => nomatch h⟩
  obtain ⟨size, after, again, hw, ha, hl, hends, hmarked, hmixed, hn⟩ := read_write_read he hr hf
  refine ⟨he, _, hr, hlayout, hf, size, after, again, hw, ha, hl, ?_, hmixed⟩
  rw [hlayout] at hends hmarked hn
  exact congr (congr (congrArg Layout.mk (hn (.inl (by decide)))) hends) hmarked

end Source

end MethodMarkers
