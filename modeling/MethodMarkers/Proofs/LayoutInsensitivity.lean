import MethodMarkers.Proofs.BlankMargins
import MethodMarkers.Proofs.ScanJoining
import MethodMarkers.Proofs.SurroundedMarking

namespace MethodMarkers
open Text

/-- Two texts that differ in the blanks around them at most. -/
def SameTrimmed (text other : String) : Prop :=
  trim text.toList = trim other.toList

theorem isBrace_of_isBlank {c : Char} (hc : isBlank c = true) : isBrace c = false := by
  rw [isBrace, Bool.or_eq_false_iff, beq_eq_false_iff_ne, beq_eq_false_iff_ne]
  exact ⟨ne_of_isBlank hc (by decide), ne_of_isBlank hc (by decide)⟩

theorem ignoresBlanks_braces : IgnoresBlanks (List.filter isBrace) where
  front c cs hc := List.filter_cons_of_neg (Bool.eq_false_iff.1 (isBrace_of_isBlank hc))
  back c cs hc := by
    rw [List.filter_append, List.filter_cons_of_neg (Bool.eq_false_iff.1 (isBrace_of_isBlank hc))]
    exact List.append_nil _

theorem ignoresBlanks_return : IgnoresBlanks (containsWord "return".toList) :=
  .containsWord (by decide) (by decide +kernel)

section Relaid

variable {texts others : List String} (h : List.Forall₂ SameTrimmed texts others)
include h

theorem exists_relaid {i : Nat} {text : String} (ht : texts[i]? = some text) :
    ∃ other, others[i]? = some other ∧ SameTrimmed text other := by
  induction h generalizing i with
  | nil => cases ht
  | cons hfirst _ ih =>
    cases i with
    | zero =>
      cases ht
      exact ⟨_, rfl, hfirst⟩
    | succ i => exact ih ht

theorem map_relaid {α : Type} {f : List Char → α} (hf : IgnoresBlanks f) :
    (texts.map fun text => f text.toList) = others.map fun text => f text.toList := by
  induction h with
  | nil => rfl
  | cons hfirst _ ih => rw [List.map_cons, List.map_cons, ih, hf.eq_of_trim hfirst]

theorem segment_relaid {α : Type} {f : List Char → α} (hf : IgnoresBlanks f) (i j : Nat) :
    ((segment texts i j).map fun text => f text.toList) =
      (segment others i j).map fun text => f text.toList := by
  rw [segment_map, segment_map, map_relaid h hf]

def Line.relaid (others : List String) (line : Line) : Line :=
  { line with text := others.getD line.serial line.text }

theorem Buffer.lines_relaid (path : Option Path) :
    (Buffer.ofTexts 0 path texts).lines.map (Line.relaid others) =
      (Buffer.ofTexts 0 path others).lines := by
  apply List.ext_getElem?
  intro i
  rw [List.getElem?_map, Surround.getElem?_ofTexts, Surround.getElem?_ofTexts]
  cases ht : texts[i]? with
  | none =>
    rw [List.getElem?_eq_none_iff, h.length_eq] at ht
    rw [List.getElem?_eq_none_iff.2 ht]
    rfl
  | some text =>
    obtain ⟨other, ho, -⟩ := exists_relaid h ht
    rw [ho, Option.map_some, Option.map_some, Option.map_some, ← getD_of_getElem? ho text]
    rfl

theorem Line.sameTrimmed_relaid {path : Option Path} {line : Line}
    (hl : line ∈ (Buffer.ofTexts 0 path texts).lines) :
    SameTrimmed line.text (line.relaid others).text := by
  obtain ⟨i, hi⟩ := List.mem_iff_getElem?.1 hl
  rw [Surround.getElem?_ofTexts] at hi
  obtain ⟨text, ht, rfl⟩ := Option.map_eq_some_iff.1 hi
  obtain ⟨other, ho, hs⟩ := exists_relaid h ht
  change SameTrimmed text (others.getD i text)
  rw [getD_of_getElem? ho]
  exact hs

theorem Outline.ofTexts_relaid (path : Option Path) :
    Outline.ofTexts path others = Outline.ofTexts path texts := by
  obtain ⟨-, -, -, hd⟩ := Scanner.exists_shows path texts
  have hmoved := hd.map (g := Line.relaid others)
    (fun line hl => (ignoresBlanks_braces.eq_of_trim (Line.sameTrimmed_relaid h hl)).symm)
    (fun line hl => congrArg (Option.map Signature.name)
      (Signature.ofLine?_value_of_trim (Line.sameTrimmed_relaid h hl)).symm)
  rw [Buffer.lines_relaid h] at hmoved
  exact hmoved.ofTexts_eq

theorem countP_holdsReturn_relaid (i j : Nat) :
    (segment others i j).countP Span.holdsReturn = (segment texts i j).countP Span.holdsReturn := by
  have hmap := congrArg (List.countP id) (segment_relaid h ignoresBlanks_return i j)
  rw [List.countP_map, List.countP_map] at hmap
  exact hmap.symm

theorem holdsReturn_relaid (i : Nat) :
    Span.holdsReturn (others.getD i "") = Span.holdsReturn (texts.getD i "") := by
  have hmap := congrArg (List.getD · i (Span.holdsReturn "")) (map_relaid h ignoresBlanks_return)
  change (texts.map Span.holdsReturn).getD i _ = (others.map Span.holdsReturn).getD i _ at hmap
  simp only [List.getD_eq_getElem?_getD, List.getElem?_map, Option.getD_map] at hmap
  simp only [List.getD_eq_getElem?_getD, hmap]

variable {settings : Settings}
  (hm : ∀ marker ∈ settings.iteratorMarkers, marker ≠ "" ∧ Trimmed marker.toList)
include hm

theorem Span.isIterator_relaid (span : Span) :
    span.isIterator settings others = span.isIterator settings texts := by
  have hmarkers : IgnoresBlanks fun cs =>
      settings.iteratorMarkers.any fun marker => containsPart marker.toList cs :=
    .any fun marker hmarker => .containsPart (String.toList_eq_nil_iff.not.2 (hm marker hmarker).1)
      (hm marker hmarker).2
  have hmap := congrArg (List.any · id) (segment_relaid h hmarkers span.opening span.closing)
  rw [List.any_map, List.any_map] at hmap
  exact hmap.symm

theorem Span.outcome_relaid (span : Span) :
    ((span.outcome settings others).gist, (span.outcome settings others).line) =
      ((span.outcome settings texts).gist, (span.outcome settings texts).line) := by
  simp only [outcome, MethodOutcome.gist, span.isIterator_relaid h hm, countP_holdsReturn_relaid h]

theorem markedAt?_relaid (spans : List Span) (i : Nat) :
    markedAt? settings others spans i = markedAt? settings texts spans i := by
  simp only [markedAt?, Span.isIterator_relaid h hm]

end Relaid

namespace Instrument

variable (settings : Settings) (path : Option Path) (texts : List String)

def ahead (i : Nat) : List String :=
  linesBefore settings texts (Outline.ofTexts path texts).spans i (texts.getD i "")

def behind (i : Nat) : List String :=
  linesAfter settings ((path.map Path.name).getD "") texts (Outline.ofTexts path texts).spans i

theorem markedTexts_eq_surround :
    markedTexts settings ((path.map Path.name).getD "") texts (Outline.ofTexts path texts).spans =
      surround (ahead settings path texts) (behind settings path texts) texts := by
  rw [markedTexts_eq_flatMap]
  apply List.flatMap_congr
  intro p hp
  rw [ahead, getD_of_getElem? (List.mem_zipIdx_iff_getElem?.1 hp)]
  rfl

section Relaid

variable {settings texts} {others : List String}
  (h : List.Forall₂ SameTrimmed texts others)
  (hm : ∀ marker ∈ settings.iteratorMarkers, marker ≠ "" ∧ Trimmed marker.toList)
include h hm

theorem length_ahead_relaid (i : Nat) :
    (ahead settings path others i).length = (ahead settings path texts i).length := by
  have hreturns := holdsReturn_relaid h i
  rw [ahead, ahead, linesBefore, linesBefore, Outline.ofTexts_relaid h, markedAt?_relaid h hm]
  cases markedAt? settings texts (Outline.ofTexts path texts).spans i with
  | none => rfl
  | some span =>
    dsimp only
    rw [List.length_replicate, List.length_replicate, Span.exitsAt, Span.exitsAt, hreturns]

theorem length_behind_relaid (i : Nat) :
    (behind settings path others i).length = (behind settings path texts i).length := by
  rw [behind, behind, linesAfter, linesAfter, Outline.ofTexts_relaid h, markedAt?_relaid h hm]
  cases markedAt? settings texts (Outline.ofTexts path texts).spans i with
  | none => rfl
  | some span =>
    dsimp only
    split <;> rfl

end Relaid

/-- Blanks around the lines of a file change nothing of what a run tells, and nothing of where it
puts lines in. Nor do they change whether a line has a signature, or which one it has. -/
theorem lines_ignore_layout (settings : Settings) (path : Option Path) (texts others : List String)
    (hm : ∀ marker ∈ settings.iteratorMarkers, marker ≠ "" ∧ Trimmed marker.toList)
    (h : List.Forall₂ SameTrimmed texts others) :
    (∀ line other, SameTrimmed line other →
      (Signature.ofLine? line).value = (Signature.ofLine? other).value) ∧
    ∃ one other, (lines settings path texts).value = .ok one ∧
      (lines settings path others).value = .ok other ∧
      other.unfinished = one.unfinished ∧
      (other.methods.map fun method => (method.gist, method.line)) =
        (one.methods.map fun method => (method.gist, method.line)) ∧
      one.after = surround (ahead settings path texts) (behind settings path texts) texts ∧
      other.after = surround (ahead settings path others) (behind settings path others) others ∧
      ∀ i, (ahead settings path others i).length = (ahead settings path texts i).length ∧
        (behind settings path others i).length = (behind settings path texts i).length := by
  refine ⟨fun line other => Signature.ofLine?_value_of_trim, _, _, lines_value .., lines_value ..,
    ?_, ?_, markedTexts_eq_surround .., markedTexts_eq_surround .., fun i => ?_⟩
  · dsimp only
    rw [Outline.ofTexts_relaid h]
  · dsimp only
    rw [Outline.ofTexts_relaid h, List.map_map, List.map_map]
    exact List.map_congr_left fun span _ => span.outcome_relaid h hm
  · exact ⟨length_ahead_relaid path h hm i, length_behind_relaid path h hm i⟩

/-- An indented method, and the same one at the margin with a space of another kind behind it. -/
theorem lines_ignore_layout_indented :
    let texts := ["\tvoid F() \x7b", "\t\treturn;", "\t\x7d"]
    let others := ["void F() \x7b\u00a0", "return;", " \x7d"]
    let settings : Settings := { markers := { beginSample := "B();", endSample := "E();" } }
    List.Forall₂ SameTrimmed texts others ∧
      ∃ one other, (lines settings none texts).value = .ok one ∧
        (lines settings none others).value = .ok other ∧
        other.methods.map (fun method => (method.gist, method.line)) =
          [(("F", .instrumented, 3), 1)] ∧
        one.after =
          ["\tvoid F() \x7b", "\t\tB();", "\t\tE();", "\t\treturn;", "\t\tE();", "\t\x7d"] ∧
        other.after =
          ["void F() \x7b\u00a0", "\tB();", "\tE();", "return;", "\tE();", " \x7d"] := by
  intro texts others settings
  have hsame : List.Forall₂ SameTrimmed texts others := by
    refine .cons ?_ (.cons ?_ (.cons ?_ .nil)) <;> unfold SameTrimmed <;> decide +kernel
  have hmarkers : ∀ marker ∈ settings.iteratorMarkers, marker ≠ "" ∧ Trimmed marker.toList := by
    have hends (marker : String) (hn : marker ≠ "")
        (hh : marker.toList.head?.all (!isBlank ·) = true)
        (hl : marker.toList.getLast?.all (!isBlank ·) = true) :
        marker ≠ "" ∧ Trimmed marker.toList := by
      refine ⟨hn, fun c hc => ?_, fun c hc => ?_⟩
      · rwa [hc, Option.all_some, Bool.not_eq_true'] at hh
      · rwa [hc, Option.all_some, Bool.not_eq_true'] at hl
    refine List.forall_mem_cons.2 ⟨?_, List.forall_mem_singleton.2 ?_⟩
    · exact hends _ (by decide) (by decide +kernel) (by decide +kernel)
    · exact hends _ (by decide) (by decide +kernel) (by decide +kernel)
  obtain ⟨-, one, other, hone, hother, -, hmethods, -, -, -⟩ :=
    lines_ignore_layout settings none texts others hmarkers hsame
  have hfirst : (lines settings none texts).value.toOption.map FileResult.after = some
      ["\tvoid F() \x7b", "\t\tB();", "\t\tE();", "\t\treturn;", "\t\tE();", "\t\x7d"] := by
    decide +kernel
  have hsecond : (lines settings none others).value.toOption.map FileResult.after = some
      ["void F() \x7b\u00a0", "\tB();", "\tE();", "return;", "\tE();", " \x7d"] := by
    decide +kernel
  have htold : (lines settings none texts).value.toOption.map (fun result =>
      result.methods.map fun method => (method.gist, method.line)) =
        some [(("F", .instrumented, 3), 1)] := by
    decide +kernel
  rw [hone] at hfirst htold
  rw [hother] at hsecond
  exact ⟨hsame, one, other, hone, hother, hmethods.trans (Option.some.inj htold),
    Option.some.inj hfirst, Option.some.inj hsecond⟩

end Instrument

end MethodMarkers
