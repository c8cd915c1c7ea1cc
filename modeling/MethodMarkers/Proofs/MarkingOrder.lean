import MethodMarkers.Proofs.LineInstrumentation
import Mathlib.Data.List.Pairwise
import Mathlib.Data.List.Perm.Basic

namespace MethodMarkers

variable {settings : Settings} {fileName : String} {texts : List String} {lines : List Line}
  {spans other : List Span} {span : Span}

instance : Std.Symm Span.Apart :=
  ⟨fun _ _ => Or.symm⟩

theorem markedAt?_eq_some_iff (hl : ∀ span ∈ spans, span.define ≤ span.opening)
    (ha : spans.Pairwise Span.Apart) {i : Nat} :
    markedAt? settings texts spans i = some span ↔
      span ∈ spans ∧ span.Contains i ∧ span.isIterator settings texts = false := by
  have hp (a : Span) : (decide (a.Contains i) && !a.isIterator settings texts) = true ↔
      a.Contains i ∧ a.isIterator settings texts = false := by
    rw [Bool.and_eq_true, decide_eq_true_iff, Bool.not_eq_true']
  refine ⟨of_markedAt?_eq_some, ?_⟩
  rintro ⟨hm, hc⟩
  cases hf : markedAt? settings texts spans i with
  | none => exact absurd ((hp span).2 hc) (List.find?_eq_none.1 hf span hm)
  | some found =>
    obtain ⟨hmem, hcf, -⟩ := of_markedAt?_eq_some hf
    have hdf := hl found hmem
    have hds := hl span hm
    have hif : found.opening ≤ i ∧ i ≤ found.closing := hcf
    have his : span.opening ≤ i ∧ i ≤ span.closing := hc.1
    by_contra hne
    rcases ha.forall hmem hm fun he => hne (congrArg some he) with hb | hb <;> omega

theorem markedTexts_perm (hl : ∀ span ∈ spans, span.define ≤ span.opening)
    (ha : spans.Pairwise Span.Apart) (hp : other.Perm spans) :
    markedTexts settings fileName texts other = markedTexts settings fileName texts spans := by
  have hl' : ∀ span ∈ other, span.define ≤ span.opening := fun span hm => hl span (hp.mem_iff.1 hm)
  have ha' : other.Pairwise Span.Apart := (hp.pairwise_iff Or.symm).2 ha
  have hat (i : Nat) : markedAt? settings texts other i = markedAt? settings texts spans i := by
    ext span
    rw [markedAt?_eq_some_iff hl' ha', markedAt?_eq_some_iff hl ha, hp.mem_iff]
  simp only [markedTexts, linesBefore, linesAfter, hat]

/-- The methods of a scan, marked in any order. -/
theorem Scanner.Shows.markEach {buffer : Buffer} {scanner : Scanner} {outline : Outline}
    {methods : List MethodBlock} (hs : scanner.Shows buffer.lines outline)
    (hd : outline.Describes buffer.lines) (hi : buffer.Intact)
    (hp : methods.Perm scanner.finished) (settings : Settings) :
    ∃ marked, (Instrument.markEach (Instrument.markMethod settings buffer.lines) methods
        buffer).value = .ok (marked, methods.map fun method =>
          (method.span buffer.lines).outcome settings buffer.texts) ∧
      marked.texts = markedTexts settings buffer.fileName buffer.texts outline.spans := by
  obtain ⟨spans, hb, hps⟩ := List.perm_comp_forall₂ hp hs.finished
  have hlies := fun span hm => hd.placed span (hps.mem_iff.1 hm)
  have ha : spans.Pairwise Span.Apart := (hps.pairwise_iff Or.symm).2 hd.spans_apart
  obtain ⟨marked, he, hm⟩ := (hi.marked_nil settings).markEach hi.nodup hlies ha hb
  refine ⟨marked, ?_, ?_⟩
  · rw [he, ← MethodBlock.spans_eq hi.nodup hlies hb, List.map_map]
    rfl
  · rw [hm.texts_eq, List.nil_append]
    exact markedTexts_perm (fun span ho => (hd.lie span ho).define_le) hd.spans_apart hps

namespace Instrument

/-- The methods of a scan can be marked in any order: each has the same outcome, and the lines of
the file become the same. -/
theorem markEach_perm (settings : Settings) (path : Option Path) (texts : List String) :
    ∃ buffer scanner, (Scanner.scanTexts path texts).value = (buffer, scanner) ∧
      ∃ updated outcome,
        (markEach (markMethod settings buffer.lines) scanner.finished buffer).value =
          .ok (updated, scanner.finished.map outcome) ∧
        ∀ methods, methods.Perm scanner.finished →
          ∃ marked, (markEach (markMethod settings buffer.lines) methods buffer).value =
              .ok (marked, methods.map outcome) ∧
            marked.texts = updated.texts := by
  obtain ⟨scanner, hv, hs, hd⟩ := Scanner.exists_shows path texts
  have hi := Buffer.ofTexts_intact 0 path texts
  obtain ⟨updated, hu, ht⟩ := hs.markEach hd hi (List.Perm.refl _) settings
  refine ⟨_, scanner, hv, updated, _, hu, fun methods hp => ?_⟩
  obtain ⟨marked, hm, htexts⟩ := hs.markEach hd hi hp settings
  exact ⟨marked, hm, htexts.trans ht.symm⟩

/-- Two methods of one line each, the second marked first. The markers between the lines are those
of both methods, and would be taken for more of them if they were read. -/
theorem markEach_perm_reversed :
    let settings : Settings :=
      { markers := { beginSample := "return \x7blabel\x7d;", endSample := "\x7d yield return" } }
    ∃ buffer scanner, (Scanner.scanTexts (some ⟨0, ["A.cs"]⟩)
        ["void F() \x7b return; \x7d", "void G() \x7b return; \x7d"]).value = (buffer, scanner) ∧
      scanner.finished.length = 2 ∧ scanner.finished.reverse.Perm scanner.finished ∧
      ∃ updated outcome,
        (markEach (markMethod settings buffer.lines) scanner.finished buffer).value =
          .ok (updated, scanner.finished.map outcome) ∧
        ∃ marked,
          (markEach (markMethod settings buffer.lines) scanner.finished.reverse buffer).value =
            .ok (marked, scanner.finished.reverse.map outcome) ∧
          marked.texts = updated.texts := by
  intro settings
  obtain ⟨buffer, scanner, hv, updated, outcome, hu, hall⟩ := markEach_perm settings
    (some ⟨0, ["A.cs"]⟩) ["void F() \x7b return; \x7d", "void G() \x7b return; \x7d"]
  have hlength : (Scanner.scanTexts (some ⟨0, ["A.cs"]⟩)
      ["void F() \x7b return; \x7d",
        "void G() \x7b return; \x7d"]).value.2.finished.length = 2 := by
    decide +kernel
  rw [hv] at hlength
  have hp := scanner.finished.reverse_perm
  exact ⟨buffer, scanner, hv, hlength, hp, updated, outcome, hu, hall _ hp⟩

end Instrument

end MethodMarkers
