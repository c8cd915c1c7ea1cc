import MethodMarkers.Report
import MethodMarkers.Proofs.LineInstrumentation
import MethodMarkers.Proofs.PaintedText
import MethodMarkers.Proofs.PatchReading
import MethodMarkers.Proofs.SignatureReading
import Mathlib.Data.List.TakeWhile

namespace MethodMarkers
open Text

section Feedless

variable {settings : Settings} {markers : Markers} {fileName indent label : String}
  {texts : List String} {spans : List Span} {path : Path}

structure Markers.Feedless (markers : Markers) : Prop where
  beginSample : '\n' ∉ markers.beginSample.toList
  endSample : '\n' ∉ markers.endSample.toList
  indentUnit : '\n' ∉ markers.indentUnit.toList

theorem Markers.Feedless.beginLine (h : markers.Feedless) (hi : '\n' ∉ indent.toList)
    (hl : '\n' ∉ label.toList) : '\n' ∉ (markers.beginLine indent label).toList := by
  refine notMem_append hi ?_
  rw [String.toList_ofList, ← List.count_eq_zero, count_replacePart (by decide) hl,
    List.count_eq_zero]
  exact h.beginSample

theorem leadingWhitespace_feedless (line : String) : '\n' ∉ (leadingWhitespace line).toList := by
  intro h
  rw [leadingWhitespace, String.toList_ofList] at h
  cases List.mem_takeWhile_imp h

theorem Signature.isNameChar_of_mem_name {line : String} {signature : Signature} {c : Char}
    (h : (Signature.ofLine? line).value = some signature) (hc : c ∈ signature.name.toList) :
    Signature.isNameChar c = true := by
  obtain ⟨captures, hsearch, rfl⟩ :=
    Option.map_eq_some_iff.1 (Signature.ofLine?_value_eq_some_iff.1 h).2
  obtain ⟨before, access, static, modifiers, reading, rest, hleft, rfl⟩ :=
    Signature.exists_leftmost hsearch
  rw [hleft.tells.name_eq, String.toList_ofList] at hc
  exact hleft.leads.name_run.all c hc

theorem Candidate.Stands.name_feedless {c : Candidate} {lines : List Line} (h : c.Stands lines) :
    '\n' ∉ c.name.toList := by
  obtain ⟨line, -, hn⟩ := h
  obtain ⟨signature, hs, he⟩ := Option.map_eq_some_iff.1 hn
  intro hm
  rw [← he] at hm
  exact absurd (Signature.isNameChar_of_mem_name hs hm) (by decide)

theorem markedTexts_feedless (hm : settings.markers.Feedless) (hf : '\n' ∉ fileName.toList)
    (ht : ∀ text ∈ texts, '\n' ∉ text.toList) (hs : ∀ span ∈ spans, '\n' ∉ span.name.toList) :
    ∀ text ∈ markedTexts settings fileName texts spans, '\n' ∉ text.toList := by
  have hindent (span : Span) : '\n' ∉ (span.indent settings texts).toList :=
    notMem_append (leadingWhitespace_feedless _) hm.indentUnit
  intro line hl
  obtain ⟨⟨text, i⟩, hp, hl⟩ := List.mem_flatMap.1 hl
  rcases List.mem_append.1 hl with hl | hl
  · rcases List.mem_append.1 hl with hl | hl
    · rw [linesBefore] at hl
      split at hl
      · next span _ =>
        rw [List.eq_of_mem_replicate hl]
        exact notMem_append (hindent span) hm.endSample
      · cases hl
    · rw [List.mem_singleton.1 hl]
      exact ht text (List.fst_mem_of_mem_zipIdx hp)
  · rw [linesAfter] at hl
    split at hl
    · next span hspan =>
      split at hl
      · have hname := hs span (of_markedAt?_eq_some hspan).1
        rw [List.mem_singleton.1 hl]
        exact hm.beginLine (hindent span) (notMem_append (notMem_append hf (by decide)) hname)
      · cases hl
    · cases hl

theorem mem_intercalate {c : Char} {separator piece : List Char} {pieces : List (List Char)}
    (hp : piece ∈ pieces) (hc : c ∈ piece) : c ∈ separator.intercalate pieces := by
  induction pieces with
  | nil => cases hp
  | cons first pieces ih =>
    cases pieces with
    | nil =>
      rw [List.intercalate_singleton, ← List.mem_singleton.1 hp]
      exact hc
    | cons next pieces =>
      rw [List.intercalate_cons_cons]
      rcases List.mem_cons.1 hp with rfl | hp
      · exact List.mem_append_left _ (List.mem_append_left _ hc)
      · exact List.mem_append_right _ (ih hp)

theorem Path.name_feedless (h : '\n' ∉ (toString path).toList) : '\n' ∉ path.name.toList := by
  intro hn
  rw [name, List.getLastD_eq_getLast?] at hn
  cases hl : path.segments.getLast? with
  | none =>
    rw [hl] at hn
    cases hn
  | some last =>
    rw [hl, Option.getD_some] at hn
    have hm : last.toList ∈ path.segments.map String.toList :=
      List.mem_map_of_mem (List.mem_of_getLast? hl)
    have hchars : '\n' ∈ path.chars := List.mem_append_right _ (mem_intercalate hm hn)
    rw [toString_eq, if_neg (List.ne_nil_of_mem hchars), String.toList_ofList] at h
    exact h hchars

end Feedless

namespace Instrument
open Diff

/-- The diff of a file is empty if nothing changes. Otherwise it reads as hunks in order and apart,
each of which tells the lines of both texts at the ranges that it states, and the new text is the
old one with the hunks replaced. -/
theorem lines_diff_patches (settings : Settings) (path : Option Path) (texts : List String)
    (ht : ∀ text ∈ texts, '\n' ∉ text.toList) (hm : settings.markers.Feedless)
    (hp : ∀ p ∈ path, '\n' ∉ (toString p).toList) :
    ∃ result, (lines settings path texts).value = .ok result ∧ result.before = texts ∧
      (result.diff = "" ↔ result.changed = false) ∧
      (result.changed = true → ∃ hunks, Patch.hunks? result.diff = some hunks ∧
        hunks.Pairwise Hunk.Before ∧ (∀ hunk ∈ hunks, hunk.Fits result.before result.after) ∧
        patched? result.before 0 hunks = some result.after) := by
  obtain ⟨scanner, -, -, hd⟩ := Scanner.exists_shows path texts
  have hfile : '\n' ∉ ((path.map Path.name).getD "").toList := by
    cases path with
    | none => decide
    | some p => exact Path.name_feedless (hp p rfl)
  have hname : '\n' ∉ ((path.map toString).getD "<buffer>").toList := by
    cases path with
    | none => decide
    | some p => exact hp p rfl
  have hafter := markedTexts_feedless hm hfile ht fun span hs =>
    (hd.stand _ (Outline.mem_candidates_of_span hs)).name_feedless
  refine ⟨_, lines_value settings path texts, rfl, ?_, fun hc => ?_⟩
  · rw [FileResult.diff, unified_eq_empty_iff, FileResult.changed, bne_eq_false_iff_eq, eq_comm]
  · have hne : texts ≠ markedTexts settings ((path.map Path.name).getD "") texts
        (Outline.ofTexts path texts).spans := by
      rw [FileResult.changed, bne_iff_ne] at hc
      exact hc.symm
    obtain ⟨groups, he, hs⟩ := hunks_spread texts (markedTexts settings
      ((path.map Path.name).getD "") texts (Outline.ofTexts path texts).spans)
    refine ⟨_, hunks?_unified hne ht hafter (notMem_append hname (by decide))
      (notMem_append hname (by decide)), ?_, ?_, ?_⟩
    · rw [he]
      exact hs.pairwise
    · rw [he]
      exact fun hunk hh => (hs.fits hunk hh).1
    · rw [he]
      exact hs.patched?

def briefSettings : Settings :=
  { markers := { beginSample := "B();", endSample := "E();" } }

/-- The diff of a file with one empty method puts two lines into it. -/
theorem lines_diff_patches_method :
    (∀ text ∈ ["void F() \x7b", "\x7d"], '\n' ∉ text.toList) ∧ briefSettings.markers.Feedless ∧
    ∃ result hunks,
      (lines briefSettings (some ⟨0, ["A.cs"]⟩) ["void F() \x7b", "\x7d"]).value = .ok result ∧
      Patch.hunks? result.diff = some hunks ∧
      patched? ["void F() \x7b", "\x7d"] 0 hunks =
        some ["void F() \x7b", "\tB();", "\tE();", "\x7d"] := by
  have hm : briefSettings.markers.Feedless := ⟨by decide, by decide, by decide⟩
  have hafter :
      (lines briefSettings (some ⟨0, ["A.cs"]⟩) ["void F() \x7b", "\x7d"]).value.toOption.map
        FileResult.after = some ["void F() \x7b", "\tB();", "\tE();", "\x7d"] := by
    decide +kernel
  obtain ⟨result, hv, hb, -, hpatch⟩ := lines_diff_patches briefSettings (some ⟨0, ["A.cs"]⟩)
    ["void F() \x7b", "\x7d"] (by decide) hm (by decide +kernel)
  rw [hv] at hafter
  have he := Option.some.inj hafter
  have hc : result.changed = true := by
    rw [FileResult.changed, hb, he]
    decide
  obtain ⟨hunks, hh, -, -, hp⟩ := hpatch hc
  rw [hb, he] at hp
  exact ⟨by decide, hm, result, hunks, hv, hh, hp⟩

end Instrument

end MethodMarkers
