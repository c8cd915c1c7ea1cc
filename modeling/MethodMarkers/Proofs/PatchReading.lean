import MethodMarkers.Proofs.PatchApplication
import MethodMarkers.Proofs.PathText
import MethodMarkers.Proofs.PatternMatching

namespace MethodMarkers

theorem Text.notMem_append {c : Char} {a b : String} (ha : c ∉ a.toList) (hb : c ∉ b.toList) :
    c ∉ (a ++ b).toList := by
  rw [String.toList_append, List.mem_append, not_or]
  exact ⟨ha, hb⟩

namespace Diff
open Text

namespace Patch

def number? (cs : List Char) : Option (Nat × List Char) :=
  let digits := cs.takeWhile Char.isDigit
  if digits = [] then none else some (Nat.ofDigitChars 10 digits 0, cs.drop digits.length)

/-- The places of so many lines from a line on, which is counted from 1. Where there is none, the
line before them is told. -/
def places? (start length : Nat) : Option (Nat × Nat) :=
  if length = 0 then some (start, start)
  else if start = 0 then none
  else some (start - 1, start - 1 + length)

def range? (cs : List Char) : Option ((Nat × Nat) × List Char) :=
  (number? cs).bind fun (start, rest) =>
    (if rest.head? = some ',' then number? rest.tail else some (1, rest)).bind fun (length, rest) =>
      (places? start length).map (·, rest)

def ranges? (line : List Char) : Option ((Nat × Nat) × (Nat × Nat)) :=
  (Pattern.dropLiteral? "@@ -".toList line).bind fun rest =>
    (range? rest).bind fun (old, rest) =>
      (Pattern.dropLiteral? " +".toList rest).bind fun rest =>
        (range? rest).bind fun (new, rest) => if rest = " @@".toList then some (old, new) else none

/-- The hunks among the lines of a patch, and the lines in front of the first one. -/
def read? : List (List Char) → Option (List PatchLine × List Hunk)
  | [] => some ([], [])
  | line :: lines =>
    match read? lines with
    | none => none
    | some (front, hunks) =>
      match line with
      | ' ' :: text => some (.context (String.ofList text) :: front, hunks)
      | '-' :: text => some (.removed (String.ofList text) :: front, hunks)
      | '+' :: text => some (.added (String.ofList text) :: front, hunks)
      | line =>
        (ranges? line).map fun (old, new) => ([], ⟨old.1, old.2, new.1, new.2, front⟩ :: hunks)

/-- The hunks of a patch: behind two lines that name the texts, and up to its last line feed. -/
def hunks? (patch : String) : Option (List Hunk) :=
  match Path.splitAt '\n' patch.toList with
  | oldName :: newName :: lines =>
    if "--- ".toList <+: oldName ∧ "+++ ".toList <+: newName ∧ lines.getLast? = some [] then
      match read? lines.dropLast with
      | some ([], hunks) => some hunks
      | _ => none
    else none
  | _ => none

end Patch

open Patch

variable {old new lines : List String} {oldName newName : String} {hunk : Hunk} {hunks : List Hunk}
  {first last : Nat}

theorem number?_toDigits {c : Char} (hc : c.isDigit = false) (n : Nat) (rest : List Char) :
    number? (Nat.toDigits 10 n ++ c :: rest) = some (n, c :: rest) := by
  have hall : ∀ d ∈ Nat.toDigits 10 n, d.isDigit = true :=
    fun d hd => Nat.isDigit_of_mem_toDigits (by decide) (by decide) hd
  have hdigits : (Nat.toDigits 10 n ++ c :: rest).takeWhile Char.isDigit = Nat.toDigits 10 n := by
    rw [List.takeWhile_append_of_pos hall, List.takeWhile_cons, hc, if_neg Bool.false_ne_true,
      List.append_nil]
  rw [number?, hdigits, if_neg Nat.toDigits_ne_nil, List.drop_left, Nat.ofDigitChars_ten_toDigits]

theorem places?_succ (first : Nat) {length : Nat} (h : length ≠ 0) :
    places? (first + 1) length = some (first, first + length) := by
  rw [places?, if_neg h, if_neg (Nat.succ_ne_zero first), Nat.add_sub_cancel]

theorem range?_displayRange (hle : first ≤ last) (rest : List Char) :
    range? ((Hunk.displayRange first last).toList ++ ' ' :: rest) =
      some ((first, last), ' ' :: rest) := by
  have hnat (n : Nat) : (toString n).toList = Nat.toDigits 10 n := Nat.toList_repr
  have hspace : ' '.isDigit = false := by decide
  have hcomma : ','.isDigit = false := by decide
  rw [Hunk.displayRange]
  split
  · next hone =>
    rw [hnat, range?, number?_toDigits hspace, Option.bind_some]
    dsimp only
    rw [List.head?_cons, if_neg (by decide), Option.bind_some, places?_succ first Nat.one_ne_zero,
      show first + 1 = last by omega]
    rfl
  · next hmany =>
    have htext (start length : Nat) : (s!"{start},{length}").toList ++ ' ' :: rest =
        Nat.toDigits 10 start ++ ',' :: (Nat.toDigits 10 length ++ ' ' :: rest) := by
      change (toString start ++ "," ++ toString length).toList ++ ' ' :: rest = _
      rw [String.toList_append, String.toList_append, hnat, hnat, List.append_assoc,
        List.append_assoc]
      rfl
    rw [htext, range?, number?_toDigits hcomma, Option.bind_some]
    dsimp only
    rw [List.head?_cons, if_pos rfl, List.tail_cons, number?_toDigits hspace, Option.bind_some]
    dsimp only
    split
    · next hzero =>
      rw [places?, if_pos hzero, show last = first by omega]
      rfl
    · next hpos =>
      rw [places?_succ first hpos, Nat.add_sub_cancel' hle]
      rfl

namespace Hunk

def header (hunk : Hunk) : String :=
  "@@ -" ++ displayRange hunk.oldFrom hunk.oldTo ++ " +" ++ displayRange hunk.newFrom hunk.newTo ++
    " @@"

def printed (hunk : Hunk) : List String :=
  hunk.header :: hunk.lines.map PatchLine.display

theorem ranges?_header (hold : hunk.oldFrom ≤ hunk.oldTo) (hnew : hunk.newFrom ≤ hunk.newTo) :
    ranges? hunk.header.toList =
      some ((hunk.oldFrom, hunk.oldTo), (hunk.newFrom, hunk.newTo)) := by
  have hline : hunk.header.toList =
      "@@ -".toList ++ ((displayRange hunk.oldFrom hunk.oldTo).toList ++
      (" +".toList ++ ((displayRange hunk.newFrom hunk.newTo).toList ++ " @@".toList))) := by
    rw [header]
    simp only [String.toList_append, List.append_assoc]
  have hdrop (cs rest : List Char) : Pattern.dropLiteral? cs (cs ++ rest) = some rest :=
    Pattern.dropLiteral?_eq_some_iff.2 rfl
  rw [hline, ranges?, hdrop, Option.bind_some]
  have hplus (cs : List Char) : " +".toList ++ cs = ' ' :: '+' :: cs := rfl
  have hends : " @@".toList = [' ', '@', '@'] := rfl
  rw [hplus, range?_displayRange hold, Option.bind_some, ← hplus]
  dsimp only
  rw [hdrop, Option.bind_some, hends, range?_displayRange hnew, Option.bind_some, if_pos rfl]

end Hunk

theorem read?_display (lines : List PatchLine) {printed : List (List Char)} {front : List PatchLine}
    (h : read? printed = some (front, hunks)) :
    read? (lines.map (fun line => line.display.toList) ++ printed) =
      some (lines ++ front, hunks) := by
  induction lines with
  | nil => exact h
  | cons line lines ih =>
    rw [List.map_cons, List.cons_append, read?, ih]
    cases line with
    | context text =>
      rw [PatchLine.display, String.toList_append]
      change some (PatchLine.context (String.ofList text.toList) :: _, hunks) = _
      rw [String.ofList_toList]
      rfl
    | removed text =>
      rw [PatchLine.display, String.toList_append]
      change some (PatchLine.removed (String.ofList text.toList) :: _, hunks) = _
      rw [String.ofList_toList]
      rfl
    | added text =>
      rw [PatchLine.display, String.toList_append]
      change some (PatchLine.added (String.ofList text.toList) :: _, hunks) = _
      rw [String.ofList_toList]
      rfl

theorem read?_header {printed : List (List Char)} {front : List PatchLine}
    (hold : hunk.oldFrom ≤ hunk.oldTo) (hnew : hunk.newFrom ≤ hunk.newTo)
    (h : read? printed = some (front, hunks)) :
    read? (hunk.header.toList :: printed) = some ([], { hunk with lines := front } :: hunks) := by
  have hranges := Hunk.ranges?_header hold hnew
  have hat : ∃ cs, hunk.header.toList = '@' :: cs := by
    rw [Hunk.header]
    simp only [String.toList_append, List.append_assoc]
    exact ⟨_, rfl⟩
  obtain ⟨cs, hcs⟩ := hat
  rw [hcs] at hranges ⊢
  rw [read?, h]
  change (ranges? ('@' :: cs)).map _ = _
  rw [hranges]
  rfl

theorem read?_printed (h : ∀ hunk ∈ hunks, hunk.oldFrom ≤ hunk.oldTo ∧ hunk.newFrom ≤ hunk.newTo) :
    read? ((hunks.flatMap Hunk.printed).map String.toList) = some ([], hunks) := by
  induction hunks with
  | nil => rfl
  | cons hunk hunks ih =>
    obtain ⟨⟨hold, hnew⟩, hhunks⟩ := List.forall_mem_cons.1 h
    have hlines := read?_display hunk.lines (ih hhunks)
    rw [List.append_nil] at hlines
    rw [List.flatMap_cons, Hunk.printed, List.cons_append, List.map_cons, List.map_append,
      List.map_map]
    exact read?_header hold hnew hlines

theorem splitAt_append_cons {separator : Char} {piece : List Char} (h : separator ∉ piece)
    (cs : List Char) :
    Path.splitAt separator (piece ++ separator :: cs) = piece :: Path.splitAt separator cs := by
  induction piece with
  | nil => rw [List.nil_append, Path.splitAt, if_pos rfl]
  | cons c piece ih =>
    rw [List.mem_cons, not_or] at h
    rw [List.cons_append, Path.splitAt, if_neg (Ne.symm h.1), ih h.2]

theorem splitAt_join (h : ∀ line ∈ lines, '\n' ∉ line.toList) :
    Path.splitAt '\n' (String.join (lines.map (· ++ "\n"))).toList =
      lines.map String.toList ++ [[]] := by
  induction lines with
  | nil => rfl
  | cons line lines ih =>
    obtain ⟨hline, hlines⟩ := List.forall_mem_cons.1 h
    have hcons : (String.join ((line :: lines).map (· ++ "\n"))).toList =
        line.toList ++ '\n' :: (String.join (lines.map (· ++ "\n"))).toList := by
      rw [List.map_cons, String.join_cons, String.toList_append, String.toList_append,
        List.append_assoc]
      rfl
    rw [hcons, splitAt_append_cons hline, ih hlines]
    rfl

theorem mem_displayRange {c : Char} (h : c ∈ (Hunk.displayRange first last).toList) :
    c.isDigit = true ∨ c = ',' := by
  have hnat (n : Nat) (hc : c ∈ (toString n).toList) : c.isDigit = true :=
    Nat.isDigit_of_mem_toDigits (by decide) (by decide) (Nat.toList_repr ▸ hc)
  rw [Hunk.displayRange] at h
  split at h
  · exact .inl (hnat _ h)
  · change c ∈ (toString _ ++ "," ++ toString _).toList at h
    rw [String.toList_append, String.toList_append, List.mem_append, List.mem_append] at h
    rcases h with (h | h) | h
    · exact .inl (hnat _ h)
    · exact .inr (List.mem_singleton.1 h)
    · exact .inl (hnat _ h)

theorem Hunk.header_feedless (hunk : Hunk) : '\n' ∉ hunk.header.toList := by
  have hrange (first last : Nat) : '\n' ∉ (displayRange first last).toList :=
    fun h => absurd (mem_displayRange h) (by decide)
  rw [header]
  simp only [String.toList_append, List.mem_append, hrange, or_false]
  decide

theorem Hunk.Fits.feedless (h : hunk.Fits old new) (hold : ∀ line ∈ old, '\n' ∉ line.toList)
    (hnew : ∀ line ∈ new, '\n' ∉ line.toList) : ∀ line ∈ hunk.printed, '\n' ∉ line.toList := by
  have hslice {texts : List String} {text : String} {first last : Nat}
      (hm : text ∈ slice texts first last) : text ∈ texts :=
    List.mem_of_mem_drop (List.mem_of_mem_take hm)
  rw [printed, List.forall_mem_cons, List.forall_mem_map]
  refine ⟨hunk.header_feedless, fun line hl => ?_⟩
  cases line with
  | context text =>
    have hm : text ∈ hunk.oldLines := List.mem_filterMap.2 ⟨_, hl, rfl⟩
    exact notMem_append (by decide) (hold text (hslice (h.oldLines_eq ▸ hm)))
  | removed text =>
    have hm : text ∈ hunk.oldLines := List.mem_filterMap.2 ⟨_, hl, rfl⟩
    exact notMem_append (by decide) (hold text (hslice (h.oldLines_eq ▸ hm)))
  | added text =>
    have hm : text ∈ hunk.newLines := List.mem_filterMap.2 ⟨_, hl, rfl⟩
    exact notMem_append (by decide) (hnew text (hslice (h.newLines_eq ▸ hm)))

theorem Hunk.display_eq (hunk : Hunk) :
    hunk.display = String.join (hunk.printed.map (· ++ "\n")) := by
  have hheader :
      s!"@@ -{displayRange hunk.oldFrom hunk.oldTo} +{displayRange hunk.newFrom hunk.newTo} @@\n" =
        hunk.header ++ "\n" := by
    symm
    rw [header, String.append_assoc]
    rfl
  rw [display, hheader, printed, List.map_cons, String.join_cons, List.map_map]
  rfl

theorem join_display (hunks : List Hunk) :
    String.join (hunks.map Hunk.display) =
      String.join ((hunks.flatMap Hunk.printed).map (· ++ "\n")) := by
  induction hunks with
  | nil => rfl
  | cons hunk hunks ih =>
    rw [List.map_cons, String.join_cons, List.flatMap_cons, List.map_append, String.join_append, ih,
      hunk.display_eq]

theorem unified_eq (h : Diff.hunks old new ≠ []) :
    unified oldName newName old new =
      String.join ((("--- " ++ oldName) :: ("+++ " ++ newName) ::
        (Diff.hunks old new).flatMap Hunk.printed).map (· ++ "\n")) := by
  have hnames : s!"--- {oldName}\n+++ {newName}\n" =
      "--- " ++ oldName ++ "\n" ++ ("+++ " ++ newName ++ "\n") := by
    change "--- " ++ oldName ++ ("\n" ++ "+++ ") ++ newName ++ "\n" = _
    simp only [String.append_assoc]
  rw [unified]
  split
  · next he => exact absurd he h
  · rw [hnames, join_display, List.map_cons, List.map_cons, String.join_cons, String.join_cons,
      String.append_assoc]

theorem unified_eq_empty_iff : unified oldName newName old new = "" ↔ old = new := by
  rw [← hunks_eq_nil_iff]
  refine ⟨fun h => ?_, fun h => by rw [unified, h]⟩
  by_contra hne
  rw [unified_eq hne, ← String.toList_inj] at h
  rw [List.map_cons, String.join_cons, String.toList_append, String.toList_append,
    String.toList_append] at h
  cases h

/-- A printed diff is read back as its hunks. -/
theorem hunks?_unified (hne : old ≠ new) (hold : ∀ line ∈ old, '\n' ∉ line.toList)
    (hnew : ∀ line ∈ new, '\n' ∉ line.toList) (ho : '\n' ∉ oldName.toList)
    (hn : '\n' ∉ newName.toList) :
    hunks? (unified oldName newName old new) = some (Diff.hunks old new) := by
  obtain ⟨groups, he, hs⟩ := hunks_spread old new
  have hfits : ∀ hunk ∈ Diff.hunks old new, hunk.Fits old new := by
    rw [he]
    exact fun hunk hm => (hs.fits hunk hm).1
  have hfeedless : ∀ line ∈ ("--- " ++ oldName) :: ("+++ " ++ newName) ::
      (Diff.hunks old new).flatMap Hunk.printed, '\n' ∉ line.toList := by
    rw [List.forall_mem_cons, List.forall_mem_cons]
    refine ⟨notMem_append (by decide) ho, notMem_append (by decide) hn, fun line hl => ?_⟩
    obtain ⟨hunk, hm, hl⟩ := List.mem_flatMap.1 hl
    exact (hfits hunk hm).feedless hold hnew line hl
  have hread := read?_printed fun hunk hm => ⟨(hfits hunk hm).old_le, (hfits hunk hm).new_le⟩
  rw [unified_eq (mt hunks_eq_nil_iff.1 hne), hunks?, splitAt_join hfeedless, List.map_cons,
    List.map_cons, List.cons_append, List.cons_append]
  dsimp only
  rw [if_pos, List.dropLast_concat, hread]
  rw [String.toList_append, String.toList_append, List.getLast?_concat]
  exact ⟨List.prefix_append _ _, List.prefix_append _ _, rfl⟩

end Diff

end MethodMarkers
