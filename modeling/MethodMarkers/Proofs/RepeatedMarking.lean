import MethodMarkers.Proofs.SurroundedMarking

namespace MethodMarkers
open Text

/-- A line of a marked file: one of its own, or one that was put in. -/
inductive Piece where
  | own (text : String)
  | marker (text : String)
  deriving DecidableEq, Repr

namespace Piece

def text : Piece → String
  | own text => text
  | marker text => text

def own? : Piece → Option String
  | own text => some text
  | marker _ => none

/-- Lines that were put in are there as often as they were put in. -/
def copies (n : Nat) : Piece → List String
  | own text => [text]
  | marker text => List.replicate n text

end Piece

section Pieces

variable (settings : Settings) (fileName : String) (texts : List String) (spans : List Span)

def markedPieces : List Piece :=
  texts.zipIdx.flatMap fun p =>
    (linesBefore settings texts spans p.2 p.1).map .marker ++
      .own p.1 :: (linesAfter settings fileName texts spans p.2).map .marker

theorem markedPieces_text :
    (markedPieces settings fileName texts spans).map Piece.text =
      markedTexts settings fileName texts spans := by
  have hmarkers (more : List String) : more.map (Piece.text ∘ Piece.marker) = more :=
    List.map_id more
  rw [markedTexts_eq_flatMap, markedPieces, List.map_flatMap]
  apply List.flatMap_congr
  intro p _
  rw [List.map_append, List.map_cons, List.map_map, List.map_map, hmarkers, hmarkers]
  rfl

theorem markedPieces_own :
    (markedPieces settings fileName texts spans).filterMap Piece.own? = texts := by
  have hmarkers (more : List String) : (more.map Piece.marker).filterMap Piece.own? = [] := by
    rw [List.filterMap_map, List.filterMap_eq_nil_iff]
    intro text _
    rfl
  refine Eq.trans ?_ (zipIdx_flatMap_fst texts)
  rw [markedPieces, List.filterMap_flatMap]
  apply List.flatMap_congr
  intro p _
  rw [List.filterMap_append, List.filterMap_cons, hmarkers, hmarkers]
  rfl

def copiesBefore (n i : Nat) : List String :=
  (linesBefore settings texts spans i (texts.getD i "")).flatMap (List.replicate n)

def copiesAfter (n i : Nat) : List String :=
  (linesAfter settings fileName texts spans i).flatMap (List.replicate n)

theorem markedPieces_copies (n : Nat) :
    (markedPieces settings fileName texts spans).flatMap (Piece.copies n) =
      surround (copiesBefore settings texts spans n) (copiesAfter settings fileName texts spans n)
        texts := by
  rw [markedPieces, List.flatMap_assoc]
  apply List.flatMap_congr
  intro p hp
  rw [List.flatMap_append, List.flatMap_cons, List.flatMap_map, List.flatMap_map, copiesBefore,
    getD_of_getElem? (List.mem_zipIdx_iff_getElem?.1 hp)]
  rfl

theorem exists_replicate_linesBefore (i : Nat) (text : String) :
    ∃ m line, linesBefore settings texts spans i text = List.replicate m line := by
  rw [linesBefore]
  cases markedAt? settings texts spans i with
  | none => exact ⟨0, "", rfl⟩
  | some span => exact ⟨_, _, rfl⟩

theorem exists_replicate_linesAfter (i : Nat) :
    ∃ m line, linesAfter settings fileName texts spans i = List.replicate m line := by
  rw [linesAfter]
  cases markedAt? settings texts spans i with
  | none => exact ⟨0, "", rfl⟩
  | some span =>
    by_cases hi : i = span.opening
    · exact ⟨1, _, if_pos hi⟩
    · exact ⟨0, "", if_neg hi⟩

variable {settings fileName texts spans}

theorem flatMap_replicate_replicate {α : Type} (m n : Nat) (x : α) :
    (List.replicate m x).flatMap (List.replicate n) = List.replicate (m * n) x := by
  induction m with
  | zero => rw [Nat.zero_mul]; rfl
  | succ m ih =>
    rw [List.replicate_succ, List.flatMap_cons, ih, List.replicate_append_replicate, Nat.succ_mul,
      Nat.add_comm]

theorem copiesBefore_succ (n i : Nat) :
    copiesBefore settings texts spans (n + 1) i =
      copiesBefore settings texts spans n i ++
        linesBefore settings texts spans i (texts.getD i "") := by
  obtain ⟨m, line, hm⟩ := exists_replicate_linesBefore settings texts spans i (texts.getD i "")
  rw [copiesBefore, copiesBefore, hm, flatMap_replicate_replicate, flatMap_replicate_replicate,
    List.replicate_append_replicate, Nat.mul_succ]

theorem copiesAfter_succ (n i : Nat) :
    copiesAfter settings fileName texts spans (n + 1) i =
      linesAfter settings fileName texts spans i ++
        copiesAfter settings fileName texts spans n i := by
  obtain ⟨m, line, hm⟩ := exists_replicate_linesAfter settings fileName texts spans i
  rw [copiesAfter, copiesAfter, hm, flatMap_replicate_replicate, flatMap_replicate_replicate,
    List.replicate_append_replicate, Nat.mul_succ, Nat.add_comm]

theorem surround_copies_zero :
    surround (copiesBefore settings texts spans 0) (copiesAfter settings fileName texts spans 0)
      texts = texts := by
  have hnone (more : List String) : more.flatMap (List.replicate 0) = [] :=
    List.flatMap_eq_nil_iff.2 fun _ _ => rfl
  refine Eq.trans ?_ (zipIdx_flatMap_fst texts)
  apply List.flatMap_congr
  intro p _
  rw [copiesBefore, copiesAfter, hnone, hnone]
  rfl

theorem exists_of_mem_linesBefore {i : Nat} {text line : String}
    (h : line ∈ linesBefore settings texts spans i text) :
    ∃ span ∈ spans, span.isIterator settings texts = false ∧
      line = span.endLine settings texts := by
  rw [linesBefore] at h
  cases hm : markedAt? settings texts spans i with
  | none =>
    rw [hm] at h
    cases h
  | some span =>
    obtain ⟨hs, -, hi⟩ := of_markedAt?_eq_some hm
    rw [hm] at h
    exact ⟨span, hs, hi, List.eq_of_mem_replicate h⟩

theorem exists_of_mem_linesAfter {i : Nat} {line : String}
    (h : line ∈ linesAfter settings fileName texts spans i) :
    ∃ span ∈ spans, span.isIterator settings texts = false ∧
      line = span.beginLine settings fileName texts := by
  rw [linesAfter] at h
  cases hm : markedAt? settings texts spans i with
  | none =>
    rw [hm] at h
    cases h
  | some span =>
    obtain ⟨hs, -, hi⟩ := of_markedAt?_eq_some hm
    rw [hm] at h
    dsimp only at h
    split at h
    · exact ⟨span, hs, hi, List.mem_singleton.1 h⟩
    · cases h

theorem Settings.IgnoresOwn.copies (h : settings.IgnoresOwn fileName texts spans) (n i : Nat) :
    ∀ text ∈ copiesBefore settings texts spans n i ++
      copiesAfter settings fileName texts spans n i, settings.Ignores text := by
  intro text ht
  rcases List.mem_append.1 ht with ht | ht
  · obtain ⟨line, hl, ht⟩ := List.mem_flatMap.1 ht
    obtain ⟨span, hs, hi, rfl⟩ := exists_of_mem_linesBefore hl
    rw [List.eq_of_mem_replicate ht]
    exact (h span hs hi).2
  · obtain ⟨line, hl, ht⟩ := List.mem_flatMap.1 ht
    obtain ⟨span, hs, hi, rfl⟩ := exists_of_mem_linesAfter hl
    rw [List.eq_of_mem_replicate ht]
    exact (h span hs hi).1

end Pieces

namespace Instrument

/-- The result of a run on the lines that some other runs have left, one after the other. -/
def repeated (settings : Settings) (path : Option Path) (texts : List String) :
    Nat → Except BlockFault FileResult
  | 0 => (lines settings path texts).value
  | n + 1 => do
    let result ← repeated settings path texts n
    (lines settings path result.after).value

variable {settings : Settings} {path : Option Path} {texts : List String}

theorem lines_surround_copies {fileName : String} {spans : List Span}
    (hf : (path.map Path.name).getD "" = fileName) (hs : (Outline.ofTexts path texts).spans = spans)
    (h : settings.IgnoresOwn fileName texts spans) (n : Nat) :
    ∃ result, (lines settings path (surround (copiesBefore settings texts spans n)
          (copiesAfter settings fileName texts spans n) texts)).value = .ok result ∧
      result.methods.map MethodOutcome.gist =
        (spans.map (Span.outcome settings texts)).map MethodOutcome.gist ∧
      result.unfinished = (Outline.ofTexts path texts).pending.map Candidate.name ∧
      result.after = surround (copiesBefore settings texts spans (n + 1))
        (copiesAfter settings fileName texts spans (n + 1)) texts := by
  have hignored : ∀ i < texts.length, ∀ text ∈ copiesBefore settings texts spans n i ++
      copiesAfter settings fileName texts spans n i, settings.Ignores text :=
    fun i _ => h.copies n i
  have houtline := Surround.outline_surround path fun i hi text ht =>
    (hignored i hi text ht).unnoticed
  refine ⟨_, lines_value .., ?_, ?_, ?_⟩
  · dsimp only
    rw [houtline, Outline.shift, hs, List.map_map, List.map_map, List.map_map]
    apply List.map_congr_left
    intro span _
    exact Span.outcome_surround hignored span
  · dsimp only
    rw [houtline, Outline.shift, Option.map_map]
    rfl
  · dsimp only
    rw [houtline, Outline.shift, hs, hf, markedTexts_surround hignored]
    congr 1
    · funext i
      exact (copiesBefore_succ n i).symm
    · funext i
      exact (copiesAfter_succ n i).symm

/-- Where a run ignores the lines that it puts in, further runs find the same methods and put the
same lines beside those that are there. With the default markers that is so unless a label of a
marked method stands against it. -/
theorem lines_repeated (settings : Settings) (path : Option Path) (texts : List String) :
    let spans := (Outline.ofTexts path texts).spans
    let fileName := (path.map Path.name).getD ""
    let pieces := markedPieces settings fileName texts spans
    (settings.IgnoresOwn fileName texts spans →
      ∃ first, (lines settings path texts).value = .ok first ∧
        first.methods = spans.map (Span.outcome settings texts) ∧
        first.after = pieces.map Piece.text ∧ pieces.filterMap Piece.own? = texts ∧
        ∀ n, ∃ result, repeated settings path texts n = .ok result ∧
          result.methods.map MethodOutcome.gist = first.methods.map MethodOutcome.gist ∧
          result.unfinished = first.unfinished ∧
          result.after = pieces.flatMap (Piece.copies (n + 1))) ∧
    (settings.markers = {} → settings.iteratorMarkers = MethodBlock.defaultIteratorMarkers →
      (∀ span ∈ spans, span.isIterator settings texts = false →
        Markers.PlainLabel (Markers.label fileName span.name)) →
      settings.IgnoresOwn fileName texts spans) := by
  intro spans fileName pieces
  constructor
  · intro h
    refine ⟨_, lines_value settings path texts, rfl, (markedPieces_text ..).symm,
      markedPieces_own .., ?_⟩
    intro n
    -- some runs leave as many copies of each marker, and the next run adds one
    rw [markedPieces_copies]
    induction n with
    | zero =>
      obtain ⟨result, hv, hrest⟩ := lines_surround_copies rfl rfl h 0
      rw [surround_copies_zero] at hv
      exact ⟨result, hv, hrest⟩
    | succ n ih =>
      obtain ⟨before, hb, -, -, hafter⟩ := ih
      obtain ⟨result, hv, hrest⟩ := lines_surround_copies rfl rfl h (n + 1)
      refine ⟨result, ?_, hrest⟩
      rw [repeated, hb]
      change (lines settings path before.after).value = .ok result
      rw [hafter, hv]
  · intro hd hm hl
    exact Settings.ignoresOwn_of_plainLabel hd hm hl

section TwoRuns

def twoMethods : List String :=
  ["void F()", "\x7b", "\treturn;", "\x7d", "int G() \x7b return 1; \x7d"]

theorem twoMethods_spans :
    (Outline.ofTexts (some ⟨0, ["A.cs"]⟩) twoMethods).spans =
      [⟨⟨"F", 0⟩, 1, 3⟩, ⟨⟨"G", 4⟩, 4, 4⟩] := by
  decide +kernel

/-- A method of several lines and one of one line, marked twice. -/
theorem lines_repeated_twice :
    ∃ first result, (lines {} (some ⟨0, ["A.cs"]⟩) twoMethods).value = .ok first ∧
      Settings.IgnoresOwn {} "A.cs" twoMethods
        (Outline.ofTexts (some ⟨0, ["A.cs"]⟩) twoMethods).spans ∧
      repeated {} (some ⟨0, ["A.cs"]⟩) twoMethods 1 = .ok result ∧
      result.methods.map MethodOutcome.gist = first.methods.map MethodOutcome.gist ∧
      result.after =
        ["void F()", "\x7b",
          "\tUnityEngine.Profiling.Profiler.BeginSample(\"A.cs F\");",
          "\tUnityEngine.Profiling.Profiler.BeginSample(\"A.cs F\");",
          "\tUnityEngine.Profiling.Profiler.EndSample();",
          "\tUnityEngine.Profiling.Profiler.EndSample();",
          "\treturn;",
          "\tUnityEngine.Profiling.Profiler.EndSample();",
          "\tUnityEngine.Profiling.Profiler.EndSample();",
          "\x7d",
          "\tUnityEngine.Profiling.Profiler.EndSample();",
          "\tUnityEngine.Profiling.Profiler.EndSample();",
          "\tUnityEngine.Profiling.Profiler.EndSample();",
          "\tUnityEngine.Profiling.Profiler.EndSample();",
          "int G() \x7b return 1; \x7d",
          "\tUnityEngine.Profiling.Profiler.BeginSample(\"A.cs G\");",
          "\tUnityEngine.Profiling.Profiler.BeginSample(\"A.cs G\");"] := by
  obtain ⟨hmarked, hdefault⟩ := lines_repeated {} (some ⟨0, ["A.cs"]⟩) twoMethods
  have hignored := hdefault rfl rfl (by
    rw [twoMethods_spans, List.forall_mem_cons, List.forall_mem_singleton]
    constructor
    · intro _
      exact ⟨by decide, by decide, by decide, by decide, by decide⟩
    · intro _
      exact ⟨by decide, by decide, by decide, by decide, by decide⟩)
  obtain ⟨first, hfirst, -, -, -, hagain⟩ := hmarked hignored
  obtain ⟨result, hr, hm, -, ha⟩ := hagain 1
  refine ⟨first, result, hfirst, hignored, hr, hm, ?_⟩
  rw [ha, twoMethods_spans]
  decide +kernel

end TwoRuns

end Instrument

end MethodMarkers
