import MethodMarkers.Proofs.LineCutting
import MethodMarkers.Source

namespace MethodMarkers
open Text

def withoutMark (text : List Char) : List Char :=
  if text.head? == some byteOrderMark then text.tail else text

def leadingMark (text : List Char) : List Char :=
  if text.head? == some byteOrderMark then [byteOrderMark] else []

variable {text : List Char} {newline : Newline} {lines : List CutLine} {texts : List String}

theorem leadingMark_append (text : List Char) : leadingMark text ++ withoutMark text = text := by
  rw [leadingMark, withoutMark]
  split
  · next h =>
    obtain ⟨rest, rfl⟩ := List.head?_eq_some_iff.1 (eq_of_beq h)
    rfl
  · rfl

theorem joinLines_toList (separator : String) (terminated marked : Bool) (lines : List String) :
    (joinLines separator terminated marked lines).toList =
      (if marked then [byteOrderMark] else []) ++
        separator.toList.intercalate (lines.map String.toList) ++
        (if terminated && !lines.isEmpty then separator.toList else []) := by
  rw [joinLines, String.toList_append, String.toList_append, String.toList_intercalate]
  congr 1
  · congr 1
    split <;> rfl
  · split <;> rfl

theorem endsWithNewline_cons (line : CutLine) (h : lines ≠ []) :
    Source.endsWithNewline (line :: lines) = Source.endsWithNewline lines := by
  obtain ⟨last, hl⟩ := Option.ne_none_iff_exists'.1 (mt List.getLast?_eq_none_iff.1 h)
  rw [Source.endsWithNewline, Source.endsWithNewline, List.getLast?_cons, hl, Option.getD_some]

theorem Text.WellCut.intercalate_chars (h : WellCut lines) (newline : Newline) :
    newline.chars.intercalate (lines.map CutLine.chars) ++
        (if Source.endsWithNewline lines then newline.chars else []) =
      (lines.map (CutLine.restyle newline)).flatMap CutLine.whole := by
  induction h with
  | nil => rfl
  | @last chars =>
    rw [List.map_singleton, List.intercalate_singleton, List.map_singleton,
      List.flatMap_singleton]
    rfl
  | @cons chars ending lines hp hc hl ih =>
    cases lines with
    | nil =>
      rw [List.map_singleton, List.intercalate_singleton, List.map_singleton,
        List.flatMap_singleton]
      rfl
    | cons next lines =>
      rw [endsWithNewline_cons _ (List.cons_ne_nil _ _), List.map_cons, List.map_cons,
        List.intercalate_cons_cons, List.append_assoc, ← List.map_cons, ih]
      rfl

namespace Text

/-- A character that the newline holds once and every other newline at most once. -/
def Newline.final : Newline → Char
  | lf | crlf => '\n'
  | cr => '\r'

theorem Newline.count_final (newline : Newline) : newline.chars.count newline.final = 1 := by
  cases newline <;> rfl

theorem Newline.count_final_le (other newline : Newline) :
    other.chars.count newline.final ≤ 1 := by
  cases other <;> cases newline <;> decide

theorem Plain.count_final {chars : List Char} (h : Plain chars) (newline : Newline) :
    chars.count newline.final = 0 := by
  cases newline with
  | lf => exact List.count_eq_zero.2 h.2
  | crlf => exact List.count_eq_zero.2 h.2
  | cr => exact List.count_eq_zero.2 h.1

theorem length_le_count_intercalate (newline : Newline) (pieces : List (List Char)) :
    pieces.length ≤ (newline.chars.intercalate pieces).count newline.final + 1 := by
  induction pieces with
  | nil => exact Nat.zero_le _
  | cons piece pieces ih =>
    cases pieces with
    | nil => exact Nat.le_add_left _ _
    | cons next pieces =>
      rw [List.intercalate_cons_cons, List.count_append, List.count_append,
        newline.count_final, List.length_cons]
      omega

theorem WellCut.count_final_le (h : WellCut lines) (hn : lines ≠ []) (newline : Newline) :
    (lines.flatMap CutLine.whole).count newline.final + 1 ≤
      lines.length + (if Source.endsWithNewline lines then 1 else 0) := by
  induction h with
  | nil => exact absurd rfl hn
  | @last chars hp =>
    rw [List.flatMap_singleton, CutLine.whole, List.count_append, hp.count_final]
    exact Nat.le_refl 1
  | @cons chars ending lines hp hc hl ih =>
    have he := ending.count_final_le newline
    rw [List.flatMap_cons, List.count_append, CutLine.whole, List.count_append, hp.count_final,
      Option.map_some, Option.getD_some, List.length_cons]
    cases lines with
    | nil =>
      have hends : Source.endsWithNewline [CutLine.mk chars (some ending)] = true := rfl
      rw [hends, if_pos rfl, List.flatMap_nil, List.count_nil]
      omega
    | cons next lines =>
      have ih := ih (List.cons_ne_nil _ _)
      rw [endsWithNewline_cons _ (List.cons_ne_nil _ _)]
      omega

end Text

namespace Source

theorem ofText_lines (text : List Char) :
    (ofText text).lines = (cutLines (withoutMark text)).map fun line => String.ofList line.chars :=
  rfl

theorem uniform_iff_mixed (text : List Char) :
    Uniform (withoutMark text) ↔ (ofText text).counts.mixed = false :=
  Text.uniform_iff_mixed

theorem ofText_lines_toList (text : List Char) :
    (ofText text).lines.map String.toList = (cutLines (withoutMark text)).map CutLine.chars := by
  rw [ofText_lines, List.map_map]
  exact List.map_congr_left fun line _ => String.toList_ofList

theorem render_toList (text : List Char) (texts : List String) :
    ((ofText text).layout.render texts).toList =
      leadingMark text ++
        ((ofText text).layout.newline.chars.intercalate (texts.map String.toList) ++
          (if endsWithNewline (cutLines (withoutMark text)) && !texts.isEmpty then
            (ofText text).layout.newline.chars else [])) := by
  rw [Layout.render, joinLines_toList, List.append_assoc]
  rfl

theorem render_lines (text : List Char) :
    ((ofText text).layout.render (ofText text).lines).toList =
      leadingMark text ++ ((cutLines (withoutMark text)).map
        (CutLine.restyle (ofText text).layout.newline)).flatMap CutLine.whole := by
  have hends : (endsWithNewline (cutLines (withoutMark text)) && !(ofText text).lines.isEmpty) =
      endsWithNewline (cutLines (withoutMark text)) := by
    rw [ofText_lines, List.isEmpty_map]
    cases cutLines (withoutMark text) with
    | nil => rfl
    | cons => exact Bool.and_true _
  rw [render_toList, hends, ofText_lines_toList, (cutLines_wellCut _).intercalate_chars]

theorem render_lines_eq_iff (text : List Char) :
    ((ofText text).layout.render (ofText text).lines).toList = text ↔
      Uniform (withoutMark text) := by
  have hw := cutLines_wellCut (withoutMark text)
  calc ((ofText text).layout.render (ofText text).lines).toList = text
    _ ↔ ((cutLines (withoutMark text)).map
          (CutLine.restyle (ofText text).layout.newline)).flatMap CutLine.whole =
        withoutMark text := by
      have hm := leadingMark_append text
      rw [render_lines]
      constructor
      · intro h
        exact List.append_cancel_left (h.trans hm.symm)
      · intro h
        rw [h]
        exact hm
    _ ↔ (cutLines (withoutMark text)).map (CutLine.restyle (ofText text).layout.newline) =
        cutLines (withoutMark text) := by
      constructor
      · intro h
        rw [← (hw.restyle _).cutLines_eq, h]
      · intro h
        rw [h, flatMap_whole_cutLines]
    _ ↔ (ofText text).counts.Only (ofText text).counts.dominant :=
      map_restyle_eq_self_iff.trans NewlineCounts.only_ofLines_iff.symm
    _ ↔ Uniform (withoutMark text) := by
      rw [uniform_iff_mixed, NewlineCounts.mixed_eq_false_iff]

theorem render_ne_of_longer (hn : (ofText text).lines ≠ [])
    (hl : (ofText text).lines.length < texts.length) :
    ((ofText text).layout.render texts).toList ≠ text := by
  intro he
  have htexts : texts.isEmpty = false := by
    rw [List.isEmpty_eq_false_iff]
    exact List.ne_nil_of_length_pos (Nat.zero_lt_of_lt hl)
  have hcut : cutLines (withoutMark text) ≠ [] := mt (fun h => by rw [ofText_lines, h]; rfl) hn
  rw [render_toList, htexts, Bool.not_false, Bool.and_true] at he
  have hbody := List.append_cancel_left (he.trans (leadingMark_append text).symm)
  have hcount := congrArg (List.count (ofText text).layout.newline.final) hbody
  have hmany := length_le_count_intercalate (ofText text).layout.newline (texts.map String.toList)
  have hfew := (cutLines_wellCut (withoutMark text)).count_final_le hcut
    (ofText text).layout.newline
  rw [flatMap_whole_cutLines] at hfew
  rw [List.length_map] at hmany
  rw [ofText_lines, List.length_map] at hl
  rw [List.count_append] at hcount
  cases hends : endsWithNewline (cutLines (withoutMark text)) with
  | false =>
    rw [hends, if_neg Bool.false_ne_true] at hfew
    omega
  | true =>
    rw [hends, if_pos rfl, Newline.count_final] at hcount
    rw [hends, if_pos rfl] at hfew
    omega

end Source

end MethodMarkers
