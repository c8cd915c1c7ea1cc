import MethodMarkers.Diff.Preview
import MethodMarkers.Proofs.PaintedText
import Mathlib.Algebra.GroupWithZero.Nat
import Mathlib.Algebra.Order.BigOperators.Group.List
import Mathlib.Algebra.Order.Group.Nat

namespace MethodMarkers

namespace Text

variable {line cs rest : List Char} {c : Char}

theorem displayLinesAfter_separator (hc : isSeparator c = true)
    (hr : ∀ rest, c = '\r' → cs ≠ '\n' :: rest) :
    displayLinesAfter line (c :: cs) = String.ofList line.reverse :: displayLinesAfter [] cs := by
  rw [displayLinesAfter]
  · rw [if_pos hc]
  · exact hr

theorem displayLinesAfter_plain (hc : isSeparator c = false) :
    displayLinesAfter line (c :: cs) = displayLinesAfter (c :: line) cs := by
  rw [displayLinesAfter]
  · rw [hc]
    rfl
  · rintro rest rfl
    cases hc

theorem append_ne_feed {tail : List Char} (h : '\n' ∉ cs) (hne : cs ≠ []) :
    cs ++ tail ≠ '\n' :: rest := by
  cases cs with
  | nil => exact absurd rfl hne
  | cons d cs =>
    intro he
    exact h (List.mem_cons.2 (.inl (List.cons.inj he).1.symm))

theorem displayLinesAfter_append (h : '\n' ∉ cs) :
    displayLinesAfter line (cs ++ '\n' :: rest) =
      displayLinesAfter line (cs ++ ['\n']) ++ displayLinesAfter [] rest := by
  induction cs generalizing line with
  | nil => rfl
  | cons c cs ih =>
    obtain ⟨hc, hcs⟩ := not_or.1 (mt List.mem_cons.2 h)
    cases hs : isSeparator c with
    | false =>
      rw [List.cons_append, List.cons_append, displayLinesAfter_plain hs,
        displayLinesAfter_plain hs, ih hcs]
    | true =>
      by_cases hr : c = '\r' ∧ cs = []
      · obtain ⟨rfl, rfl⟩ := hr
        rfl
      · have hfeed : ∀ tail rest', c = '\r' → cs ++ '\n' :: tail ≠ '\n' :: rest' := by
          intro tail rest' he
          exact append_ne_feed hcs fun hnil => hr ⟨he, hnil⟩
        rw [List.cons_append, List.cons_append, displayLinesAfter_separator hs (hfeed rest),
          displayLinesAfter_separator hs (hfeed []), ih hcs, List.cons_append]

/-- What becomes of a line that is cut at its separators: it stays whole, or it loses a carriage
return at its end, or it falls into several. -/
theorem displayLinesAfter_cases (h : '\n' ∉ cs) :
    ((∀ c ∈ cs, isSeparator c = false) ∧
      displayLinesAfter line (cs ++ ['\n']) = [String.ofList (line.reverse ++ cs)]) ∨
    (∃ front, cs = front ++ ['\r'] ∧
      displayLinesAfter line (cs ++ ['\n']) = [String.ofList (line.reverse ++ front)]) ∨
    ((∃ c ∈ cs, isSeparator c = true) ∧
      2 ≤ (displayLinesAfter line (cs ++ ['\n'])).length) := by
  induction cs generalizing line with
  | nil =>
    refine .inl ⟨nofun, ?_⟩
    rw [List.append_nil]
    rfl
  | cons c cs ih =>
    obtain ⟨hc, hcs⟩ := not_or.1 (mt List.mem_cons.2 h)
    cases hs : isSeparator c with
    | false =>
      rw [List.cons_append, displayLinesAfter_plain hs]
      have happend (front : List Char) : (c :: line).reverse ++ front =
          line.reverse ++ c :: front := by
        rw [List.reverse_cons, List.append_assoc, List.singleton_append]
      rcases @ih (c :: line) hcs with ⟨hall, he⟩ | ⟨front, rfl, he⟩ | ⟨⟨d, hd, hsd⟩, hl⟩
      · exact .inl ⟨List.forall_mem_cons.2 ⟨hs, hall⟩, he.trans (by rw [happend])⟩
      · exact .inr (.inl ⟨c :: front, rfl, he.trans (by rw [happend])⟩)
      · exact .inr (.inr ⟨⟨d, List.mem_cons_of_mem c hd, hsd⟩, hl⟩)
    | true =>
      by_cases hr : c = '\r' ∧ cs = []
      · obtain ⟨rfl, rfl⟩ := hr
        refine .inr (.inl ⟨[], rfl, ?_⟩)
        rw [List.append_nil]
        rfl
      · refine .inr (.inr ⟨⟨c, List.mem_cons_self, hs⟩, ?_⟩)
        rw [List.cons_append, displayLinesAfter_separator hs, List.length_cons]
        · apply Nat.succ_le_succ
          rcases @ih [] hcs with ⟨-, he⟩ | ⟨front, -, he⟩ | ⟨-, hl⟩
          · rw [he]
            exact Nat.le_refl 1
          · rw [he]
            exact Nat.le_refl 1
          · exact Nat.le_of_succ_le hl
        · intro rest he
          exact append_ne_feed hcs fun hnil => hr ⟨he, hnil⟩

theorem displayLinesAfter_feedless (hl : '\n' ∉ line) (cs : List Char) :
    ∀ piece ∈ displayLinesAfter line cs, '\n' ∉ piece.toList := by
  have hpiece : '\n' ∉ (String.ofList line.reverse).toList := by
    rwa [String.toList_ofList, List.mem_reverse]
  fun_induction displayLinesAfter line cs with
  | case1 line he => nofun
  | case2 line he => exact List.forall_mem_singleton.2 hpiece
  | case3 line cs ih => exact List.forall_mem_cons.2 ⟨hpiece, ih List.not_mem_nil List.not_mem_nil⟩
  | case4 line c cs hc hs ih =>
    exact List.forall_mem_cons.2 ⟨hpiece, ih List.not_mem_nil List.not_mem_nil⟩
  | case5 line c cs hc hs ih =>
    have hne : '\n' ∉ c :: line := by
      rintro (_ | ⟨_, hm⟩)
      · exact hs rfl
      · exact hl hm
    refine ih hne ?_
    rwa [String.toList_ofList, List.mem_reverse]

end Text

namespace Diff
open Terminal Text

variable {colour : Bool} {line : String} {lines : List String}

theorem lineStyles_subset (cs : List Char) :
    ∀ style ∈ lineStyles cs, style ∈ [Style.bold, .white, .red, .green, .cyan] := by
  unfold lineStyles
  split <;> decide

theorem inert {c : Char} (hc : c ∈ ['\n', '\\']) (cs : List Char) : Inert (lineStyles cs) c := by
  have hsequences : ∀ c ∈ ['\n', '\\'], c ∉ sequence 0 ∧
      ∀ style ∈ [Style.bold, .white, .red, .green, .cyan], c ∉ style.on ∧ c ∉ style.off :=
    List.forall_mem_cons.2 ⟨by decide, List.forall_mem_singleton.2 (by decide)⟩
  obtain ⟨hreset, hstyles⟩ := hsequences c hc
  exact ⟨fun style hs => (hstyles style (lineStyles_subset cs style hs)).1,
    fun style hs => (hstyles style (lineStyles_subset cs style hs)).2, hreset⟩

theorem count_feed_previewChar (cs : List Char) :
    (cs.flatMap previewChar).count '\n' = cs.count '\n' := by
  induction cs with
  | nil => rfl
  | cons c cs ih =>
    rw [List.flatMap_cons, List.count_append, ih, List.count_cons, Nat.add_comm]
    congr 1
    unfold previewChar
    split
    · rfl
    · rfl
    · rw [List.count_singleton]

theorem count_backslash_previewChar (cs : List Char) :
    (cs.flatMap previewChar).count '\\' = cs.count '\\' + cs.count '\r' := by
  induction cs with
  | nil => rfl
  | cons c cs ih =>
    have hc : (previewChar c).count '\\' =
        (if c == '\\' then 1 else 0) + if c == '\r' then 1 else 0 := by
      unfold previewChar
      split
      · rfl
      · rfl
      · next hr ht =>
        have hne : c ≠ '\r' := hr
        simp [List.count_singleton, hne]
    rw [List.flatMap_cons, List.count_append, ih, List.count_cons, List.count_cons, hc]
    omega

theorem count_previewLine {c : Char} (hc : c ∈ ['\n', '\\']) (colour : Bool) (line : String) :
    (previewLine colour line).toList.count c =
      (line.toList.flatMap previewChar).count c + ['\n'].count c := by
  rw [previewLine, String.toList_append, List.count_append, (inert hc _).count_paintIf,
    String.toList_ofList]
  rfl

theorem count_feed_previewLine (h : '\n' ∉ line.toList) (colour : Bool) :
    (previewLine colour line).toList.count '\n' = 1 := by
  rw [count_previewLine (by simp), count_feed_previewChar, List.count_eq_zero_of_not_mem h]
  rfl

theorem count_backslash_previewLine (colour : Bool) (line : String) :
    (previewLine colour line).toList.count '\\' =
      line.toList.count '\\' + line.toList.count '\r' := by
  rw [count_previewLine (by simp), count_backslash_previewChar]
  rfl

theorem dropWhile_feed {cs feeds : List Char} (h : '\n' ∉ cs) (hf : ∀ c ∈ feeds, c = '\n') :
    ((cs ++ feeds).reverse.dropWhile (· == '\n')).reverse = cs := by
  have hfeeds : ∀ c ∈ feeds.reverse, (c == '\n') = true := by
    intro c hc
    rw [hf c (List.mem_reverse.1 hc), beq_self_eq_true]
  rw [List.reverse_append, List.dropWhile_append_of_pos hfeeds, List.reverse_eq_iff]
  cases hr : cs.reverse with
  | nil => rfl
  | cons c rest =>
    have hc : c ≠ '\n' := by
      rintro rfl
      exact h (List.mem_reverse.1 (hr ▸ List.mem_cons_self))
    rw [List.dropWhile_cons_of_neg (by simpa using hc)]

theorem previewLines_map (h : ∀ line ∈ lines, '\n' ∉ line.toList) {ends : String}
    (he : ∀ c ∈ ends.toList, c = '\n') (colour : Bool) :
    previewLines colour (lines.map (· ++ ends)) = String.join (lines.map (previewLine colour)) := by
  rw [previewLines, List.map_map]
  refine congrArg String.join (List.map_congr_left fun line hl => ?_)
  dsimp only [Function.comp]
  rw [String.toList_append, dropWhile_feed (h line hl) he, String.ofList_toList]

theorem previewLines_eq (h : ∀ line ∈ lines, '\n' ∉ line.toList) (colour : Bool) :
    previewLines colour lines = String.join (lines.map (previewLine colour)) := by
  have hplain : previewLines colour (lines.map (· ++ "")) =
      String.join (lines.map (previewLine colour)) :=
    previewLines_map h (fun _ => List.not_mem_nil.elim) colour
  rwa [List.map_congr_left fun line _ => String.append_empty, List.map_id'] at hplain

/-- The lines that a line and the feed behind it are cut into. -/
def cutLine (line : String) : List String :=
  displayLines (line ++ "\n")

theorem displayLines_join (h : ∀ line ∈ lines, '\n' ∉ line.toList) :
    displayLines (String.join (lines.map (· ++ "\n"))) = lines.flatMap cutLine := by
  induction lines with
  | nil => rfl
  | cons line lines ih =>
    obtain ⟨hline, hlines⟩ := List.forall_mem_cons.1 h
    rw [List.map_cons, String.join_cons, List.flatMap_cons, ← ih hlines, cutLine, displayLines,
      displayLines, displayLines, String.toList_append, String.toList_append,
      List.append_assoc]
    exact displayLinesAfter_append hline

theorem preview_join (h : ∀ line ∈ lines, '\n' ∉ line.toList) (colour : Bool) :
    preview colour (String.join (lines.map (· ++ "\n"))) =
      String.join ((lines.flatMap cutLine).map (previewLine colour)) := by
  rw [preview, displayLines_join h]

theorem cutLine_cases (h : '\n' ∉ line.toList) :
    ((∀ c ∈ line.toList, isSeparator c = false) ∧ cutLine line = [line]) ∨
    (∃ front, line.toList = front ++ ['\r'] ∧ cutLine line = [String.ofList front]) ∨
    ((∃ c ∈ line.toList, isSeparator c = true) ∧ 2 ≤ (cutLine line).length) := by
  rw [cutLine, displayLines, String.toList_append, show "\n".toList = ['\n'] from rfl]
  have hcases := @displayLinesAfter_cases [] line.toList h
  simpa only [List.reverse_nil, List.nil_append, String.ofList_toList] using hcases

theorem count_preview_join (h : ∀ line ∈ lines, '\n' ∉ line.toList) (c : Char) :
    (preview colour (String.join (lines.map (· ++ "\n")))).toList.count c =
      (lines.map fun line =>
        ((cutLine line).map fun piece => (previewLine colour piece).toList.count c).sum).sum := by
  rw [preview_join h, String.toList_join, List.count_flatMap, List.map_map, List.map_flatMap,
    List.flatMap, List.sum_flatten, List.map_map]
  rfl

theorem count_previewLines (c : Char) :
    (String.join (lines.map (previewLine colour))).toList.count c =
      (lines.map fun line => (previewLine colour line).toList.count c).sum := by
  rw [String.toList_join, List.count_flatMap, List.map_map]
  rfl

theorem cutLine_feeds (line : String) (colour : Bool) :
    ((cutLine line).map fun piece => (previewLine colour piece).toList.count '\n').sum =
      (cutLine line).length := by
  have hpieces : ∀ piece ∈ cutLine line, (previewLine colour piece).toList.count '\n' = 1 := by
    intro piece hp
    exact count_feed_previewLine (displayLinesAfter_feedless List.not_mem_nil _ piece hp) colour
  rw [List.map_congr_left hpieces, List.map_const', List.sum_replicate_nat, Nat.mul_one]

theorem cutLine_pos (h : '\n' ∉ line.toList) : 1 ≤ (cutLine line).length := by
  rcases cutLine_cases h with ⟨-, he⟩ | ⟨front, -, he⟩ | ⟨-, hl⟩
  · rw [he]
    exact Nat.le_refl 1
  · rw [he]
    exact Nat.le_refl 1
  · exact Nat.le_of_succ_le hl

/-- A line of one piece shows no more backslashes in that piece than it has itself; fewer if it held
a separator, which then was a carriage return to spell. -/
theorem cutLine_backslashes (h : '\n' ∉ line.toList) (hone : (cutLine line).length = 1)
    (colour : Bool) :
    (∀ c ∈ line.toList, isSeparator c = false) ∧ cutLine line = [line] ∨
    ((cutLine line).map fun piece => (previewLine colour piece).toList.count '\\').sum <
      (previewLine colour line).toList.count '\\' := by
  rcases cutLine_cases h with hwhole | ⟨front, hfront, he⟩ | ⟨-, hl⟩
  · exact .inl hwhole
  · refine .inr ?_
    rw [he, List.map_singleton, List.sum_singleton, count_backslash_previewLine,
      count_backslash_previewLine, hfront, String.toList_ofList, List.count_append,
      List.count_append, List.count_singleton_self]
    omega
  · omega

theorem whole_of_preview_eq (h : ∀ line ∈ lines, '\n' ∉ line.toList)
    (he : preview colour (String.join (lines.map (· ++ "\n"))) =
      String.join (lines.map (previewLine colour))) :
    ∀ line ∈ lines, ∀ c ∈ line.toList, isSeparator c = false := by
  have hcount (c : Char) := congrArg (fun text => text.toList.count c) he
  simp only [count_preview_join h, count_previewLines] at hcount
  -- every piece shows one line feed, so that no line falls into several
  have hfeeds := hcount '\n'
  rw [List.map_congr_left fun line _ => cutLine_feeds line colour,
    List.map_congr_left fun line hl => count_feed_previewLine (h line hl) colour] at hfeeds
  have hone : ∀ line ∈ lines, (cutLine line).length = 1 := by
    intro line hl
    by_contra hne
    apply Nat.ne_of_gt (List.sum_lt_sum _ _ (fun line hl => cutLine_pos (h line hl))
      ⟨line, hl, lt_of_le_of_ne (cutLine_pos (h line hl)) (Ne.symm hne)⟩)
    exact hfeeds
  have hcases := fun line hl => cutLine_backslashes (h line hl) (hone line hl) colour
  by_contra hnot
  simp only [not_forall] at hnot
  obtain ⟨line, hl, c, hc, hs⟩ := hnot
  apply Nat.ne_of_lt (List.sum_lt_sum _ _ ?_ ⟨line, hl, ?_⟩)
  · exact hcount '\\'
  · intro line hl
    rcases hcases line hl with ⟨-, hwhole⟩ | hlt
    · rw [hwhole, List.map_singleton, List.sum_singleton]
    · exact Nat.le_of_lt hlt
  · rcases hcases line hl with ⟨hall, -⟩ | hlt
    · exact absurd (hall c hc) hs
    · exact hlt

theorem preview_eq_of_whole (h : ∀ line ∈ lines, '\n' ∉ line.toList)
    (hw : ∀ line ∈ lines, ∀ c ∈ line.toList, isSeparator c = false) (colour : Bool) :
    preview colour (String.join (lines.map (· ++ "\n"))) =
      String.join (lines.map (previewLine colour)) := by
  have hpieces : ∀ line ∈ lines, cutLine line = [line] := by
    intro line hl
    rcases cutLine_cases (h line hl) with ⟨-, he⟩ | ⟨front, hf, -⟩ | ⟨⟨c, hc, hs⟩, -⟩
    · exact he
    · have hr := hw line hl '\r' (hf ▸ List.mem_append_right front (List.mem_singleton_self _))
      cases hr
    · rw [hw line hl c hc] at hs
      cases hs
  rw [preview_join h, List.flatMap_congr hpieces, List.flatMap_singleton']

/-- A list of diff lines is shown line by line, with or without their feeds. The same lines in one
text are shown alike exactly as long as none of them holds a separator, at which it would be cut. -/
theorem preview_forms (colour : Bool) (lines : List String)
    (h : ∀ line ∈ lines, '\n' ∉ line.toList) :
    previewLines colour lines = String.join (lines.map (previewLine colour)) ∧
    previewLines colour (lines.map (· ++ "\n")) = previewLines colour lines ∧
    (∀ line ∈ lines, ∃ shown, previewLine colour line = shown ++ "\n" ∧ '\n' ∉ shown.toList) ∧
    preview colour (String.join (lines.map (· ++ "\n"))) =
      previewLines colour (lines.flatMap cutLine) ∧
    (preview colour (String.join (lines.map (· ++ "\n"))) = previewLines colour lines ↔
      ∀ line ∈ lines, ∀ c ∈ line.toList, isSeparator c = false) := by
  have hpieces : ∀ piece ∈ lines.flatMap cutLine, '\n' ∉ piece.toList := by
    intro piece hp
    obtain ⟨line, -, hp⟩ := List.mem_flatMap.1 hp
    exact displayLinesAfter_feedless List.not_mem_nil _ piece hp
  refine ⟨previewLines_eq h colour, ?_, ?_, ?_, ?_⟩
  · rw [previewLines_eq h]
    exact previewLines_map h (fun _ => List.eq_of_mem_singleton) colour
  · intro line hl
    refine ⟨_, rfl, List.count_eq_zero.1 ?_⟩
    have hcount := count_feed_previewLine (h line hl) colour
    rw [previewLine, String.toList_append, List.count_append] at hcount
    exact Nat.succ.inj hcount
  · rw [previewLines_eq hpieces]
    exact preview_join h colour
  · rw [previewLines_eq h]
    exact ⟨whole_of_preview_eq h, fun hw => preview_eq_of_whole h hw colour⟩

/-- A line of every style that a diff has. -/
def styledLines : List String :=
  ["--- a.cs", "+++ a.cs", "@@ -1,2 +1,2 @@", " void F() \x7b", "-a\tb", "+c"]

/-- A hunk with its headers is shown in the same way as lines and as a text. -/
theorem preview_forms_added :
    (∀ line ∈ styledLines, '\n' ∉ line.toList) ∧
    (∀ line ∈ styledLines, ∀ c ∈ line.toList, isSeparator c = false) ∧
    preview true "--- a.cs\n+++ a.cs\n@@ -1,2 +1,2 @@\n void F() \x7b\n-a\tb\n+c\n" =
      previewLines true styledLines := by
  have hfeedless : ∀ line ∈ styledLines, '\n' ∉ line.toList := by decide +kernel
  have hwhole : ∀ line ∈ styledLines, ∀ c ∈ line.toList, isSeparator c = false := by
    simp [styledLines, isSeparator]
  exact ⟨hfeedless, hwhole, (preview_forms true styledLines hfeedless).2.2.2.2.2 hwhole⟩

/-- A form feed is kept in a line of a list, and cuts the line of a text in two. -/
theorem preview_cuts_formFeed :
    (∀ line ∈ ["+a\x0cb"], '\n' ∉ line.toList) ∧
    String.join (["+a\x0cb"].map (· ++ "\n")) = "+a\x0cb\n" ∧
    previewLines false ["+a\x0cb"] = "+a\x0cb\n" ∧
    preview false "+a\x0cb\n" = "+a\nb\n" ∧
    previewLines false ["+a\x0cb"] ≠ preview false "+a\x0cb\n" := by
  decide +kernel

end Diff

end MethodMarkers
