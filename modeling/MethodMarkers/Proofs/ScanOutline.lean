import MethodMarkers.Scanner
import MethodMarkers.Proofs.BlockFollowing
import MethodMarkers.Proofs.BufferInsertion
import Mathlib.Data.List.Forall2
import Mathlib.Data.List.Nodup

namespace MethodMarkers

theorem Traced.value_foldlM {ε α β : Type} (f : β → α → Traced ε β) (b : β) (xs : List α) :
    (xs.foldlM f b).value = xs.foldl (fun b a => (f b a).value) b := by
  induction xs generalizing b with
  | nil => rfl
  | cons x xs ih => rw [List.foldlM_cons, value_bind, ih, List.foldl_cons]

def Line.methodName? (line : Line) : Option String :=
  (Signature.ofLine? line.text).value.map Signature.name

structure Candidate where
  name : String
  define : Nat
  deriving DecidableEq, Repr

structure Span extends Candidate where
  opening : Nat
  closing : Nat
  deriving DecidableEq, Repr

/-- What a scan finds: the closed methods in order, and the one that never closes. -/
structure Outline where
  spans : List Span
  pending : Option Candidate
  deriving DecidableEq, Repr

/-- Where a line stands, or the number of all lines for one that is none of them. -/
def Line.position (lines : List Line) (line : Option Line) : Nat :=
  (line.map lines.idxOf).getD lines.length

def MethodBlock.candidate (method : MethodBlock) (lines : List Line) : Candidate :=
  ⟨method.name, Line.position lines method.block.define⟩

def MethodBlock.span (method : MethodBlock) (lines : List Line) : Span :=
  ⟨method.candidate lines, Line.position lines method.block.opening,
    Line.position lines method.block.closing⟩

def Scanner.outline (scanner : Scanner) (lines : List Line) : Outline :=
  ⟨scanner.finished.map fun method => method.span lines,
    scanner.active.map fun method => method.candidate lines⟩

variable {lines : List Line} {line : Line} {c : Candidate} {span : Span} {outline : Outline}

def Candidate.Stands (c : Candidate) (lines : List Line) : Prop :=
  ∃ line, lines[c.define]? = some line ∧ line.methodName? = some c.name

/-- A method lies where a fresh block closes that is started on its first line. -/
structure Span.Lies (span : Span) (lines : List Line) : Prop where
  define_le : span.define ≤ span.opening
  opening_le : span.opening ≤ span.closing
  closing_lt : span.closing < lines.length
  finished : (Block.following (lines.drop span.define)).finished = true
  ends : (Block.following (lines.drop span.define)).Ends lines span.opening span.closing

theorem Candidate.Stands.lt (h : c.Stands lines) : c.define < lines.length := by
  obtain ⟨line, hl, -⟩ := h
  exact (List.getElem?_eq_some_iff.1 hl).1

theorem Candidate.Stands.append (h : c.Stands lines) (more : List Line) :
    c.Stands (lines ++ more) := by
  have hlt := h.lt
  obtain ⟨line, hl, hn⟩ := h
  exact ⟨line, by rw [List.getElem?_append_left hlt, hl], hn⟩

theorem Span.Lies.append (h : span.Lies lines) (more : List Line) : span.Lies (lines ++ more) := by
  have hd := h.define_le
  have ho := h.opening_le
  have hc := h.closing_lt
  have he : Block.following ((lines ++ more).drop span.define) =
      Block.following (lines.drop span.define) := by
    rw [List.drop_append_of_le_length (by omega)]
    exact Block.following_append_of_finished h.finished more
  refine ⟨hd, ho, by rw [List.length_append]; omega, ?_, ?_⟩
  · rw [he, h.finished]
  · rw [he]
    refine ⟨?_, ?_⟩
    · rw [List.getElem?_append_left (by omega), h.ends.opening_eq]
    · rw [List.getElem?_append_left hc, h.ends.closing_eq]

namespace Outline

def candidates (outline : Outline) : List Candidate :=
  outline.spans.map Span.toCandidate ++ outline.pending.toList

/-- An outline of some lines whose pending method, if there is one, may close with the last. -/
structure Traces (outline : Outline) (lines : List Line) : Prop where
  lie : ∀ span ∈ outline.spans, span.Lies lines
  apart : outline.spans.Pairwise fun a b => a.closing < b.define
  behind : ∀ span ∈ outline.spans, ∀ c ∈ outline.pending, span.closing < c.define
  stand : ∀ c ∈ outline.candidates, c.Stands lines
  /-- A line in no method and in front of the pending one is no candidate. -/
  quiet : ∀ i line, lines[i]? = some line →
    (∀ span ∈ outline.spans, i < span.define ∨ span.closing < i) →
    (∀ c ∈ outline.pending, i < c.define) → line.methodName? = none

structure Describes (outline : Outline) (lines : List Line) : Prop
    extends outline.Traces lines where
  unclosed : ∀ c ∈ outline.candidates,
    c ∈ outline.pending ↔ (Block.following (lines.drop c.define)).finished = false

theorem mem_candidates_of_span (h : span ∈ outline.spans) :
    span.toCandidate ∈ outline.candidates :=
  List.mem_append_left _ (List.mem_map_of_mem h)

theorem mem_candidates_of_pending (h : c ∈ outline.pending) : c ∈ outline.candidates :=
  List.mem_append_right _ (Option.mem_toList.2 h)

theorem empty_describes : Describes ⟨[], none⟩ [] where
  lie _ h := nomatch h
  apart := List.Pairwise.nil
  behind _ h := nomatch h
  stand _ h := nomatch h
  quiet _ _ h := nomatch h
  unclosed _ h := nomatch h

theorem Traces.describes (h : outline.Traces lines)
    (hu : ∀ c ∈ outline.pending, (Block.following (lines.drop c.define)).finished = false) :
    outline.Describes lines where
  toTraces := h
  unclosed c hc := by
    refine ⟨hu c, fun hf => ?_⟩
    rcases List.mem_append.1 hc with hc | hc
    · obtain ⟨span, hs, rfl⟩ := List.mem_map.1 hc
      rw [(h.lie span hs).finished] at hf
      cases hf
    · exact Option.mem_toList.1 hc

theorem Describes.unclosed_of_pending (h : outline.Describes lines) (hc : c ∈ outline.pending) :
    (Block.following (lines.drop c.define)).finished = false :=
  (h.unclosed c (mem_candidates_of_pending hc)).1 hc

theorem Describes.placed (h : outline.Describes lines) :
    ∀ span ∈ outline.spans, span.Lies lines ∧ span.toCandidate.Stands lines :=
  fun span hs => ⟨h.lie span hs, h.stand _ (mem_candidates_of_span hs)⟩

theorem Traces.append (h : outline.Traces lines)
    (hq : outline.pending = none → line.methodName? = none) :
    outline.Traces (lines ++ [line]) where
  lie span hs := (h.lie span hs).append [line]
  apart := h.apart
  behind := h.behind
  stand c hc := (h.stand c hc).append [line]
  quiet i other hl hs hp := by
    by_cases hi : i < lines.length
    · rw [List.getElem?_append_left hi] at hl
      exact h.quiet i other hl hs hp
    · have hlt := (List.getElem?_eq_some_iff.1 hl).1
      rw [List.length_append, List.length_singleton] at hlt
      obtain rfl : i = lines.length := by omega
      rw [List.getElem?_concat_length, Option.some.injEq] at hl
      subst hl
      cases hc : outline.pending with
      | none => exact hq hc
      | some c =>
        have hlt := (h.stand c (mem_candidates_of_pending hc)).lt
        have := hp c hc
        omega

theorem Traces.begin (h : outline.Traces lines) (hp : outline.pending = none) {name : String}
    (hn : line.methodName? = some name) :
    Traces ⟨outline.spans, some ⟨name, lines.length⟩⟩ (lines ++ [line]) where
  lie span hs := (h.lie span hs).append [line]
  apart := h.apart
  behind span hs c hc := by
    cases hc
    exact (h.lie span hs).closing_lt
  stand c hc := by
    rcases List.mem_append.1 hc with hc | hc
    · exact (h.stand c (List.mem_append_left _ hc)).append [line]
    · cases List.mem_singleton.1 hc
      exact ⟨line, List.getElem?_concat_length, hn⟩
  quiet i other hl hs hc := by
    have hi : i < lines.length := hc _ rfl
    rw [List.getElem?_append_left hi] at hl
    refine h.quiet i other hl hs fun c hm => ?_
    rw [hp] at hm
    cases hm

theorem Traces.close (h : outline.Traces (lines ++ [line])) (hp : outline.pending = some c)
    {opening : Nat} (hl : Span.Lies ⟨c, opening, lines.length⟩ (lines ++ [line])) :
    Traces ⟨outline.spans ++ [⟨c, opening, lines.length⟩], none⟩ (lines ++ [line]) where
  lie span hs := by
    rcases List.mem_append.1 hs with hs | hs
    · exact h.lie span hs
    · cases List.mem_singleton.1 hs
      exact hl
  apart := by
    refine List.pairwise_append.2 ⟨h.apart, List.pairwise_singleton _ _, fun a ha b hb => ?_⟩
    cases List.mem_singleton.1 hb
    exact h.behind a ha c hp
  behind _ _ _ hc := nomatch hc
  stand d hd := by
    refine h.stand d ?_
    rw [candidates, hp]
    simpa only [candidates, List.map_append, List.map_cons, List.map_nil, Option.toList_none,
      List.append_nil, Option.toList_some] using hd
  quiet i other hi hs _ := by
    refine h.quiet i other hi (fun span hm => hs span (List.mem_append_left _ hm)) fun d hd => ?_
    obtain rfl : c = d := by rw [hp] at hd; exact Option.some.inj hd
    have hlt := (List.getElem?_eq_some_iff.1 hi).1
    rw [List.length_append, List.length_singleton] at hlt
    rcases hs _ (List.mem_append_right _ (List.mem_singleton_self _)) with hb | hb
    · exact hb
    · simp only at hb
      omega

end Outline

def MethodBlock.BegunAt (method : MethodBlock) (lines : List Line) (c : Candidate) : Prop :=
  method.name = c.name ∧ method.block = Block.following (lines.drop c.define)

theorem MethodBlock.BegunAt.append {method : MethodBlock}
    (h : method.BegunAt lines span.toCandidate) (hs : span.Lies lines) (more : List Line) :
    method.BegunAt (lines ++ more) span.toCandidate := by
  have hd := hs.define_le
  have ho := hs.opening_le
  have hc := hs.closing_lt
  refine ⟨h.1, ?_⟩
  rw [h.2, List.drop_append_of_le_length (by omega)]
  exact (Block.following_append_of_finished hs.finished more).symm

namespace Scanner

variable {scanner : Scanner}

structure Shows (scanner : Scanner) (lines : List Line) (outline : Outline) : Prop where
  finished : List.Forall₂ (fun method span => method.BegunAt lines span.toCandidate)
    scanner.finished outline.spans
  active : Option.Rel (fun method c => method.BegunAt lines c) scanner.active outline.pending

theorem Shows.active_some {method : MethodBlock} (h : scanner.Shows lines outline)
    (hm : scanner.active = some method) :
    ∃ c, outline.pending = some c ∧ method.BegunAt lines c := by
  have ha := h.active
  rw [hm] at ha
  cases hp : outline.pending with
  | none => rw [hp] at ha; cases ha
  | some c =>
    rw [hp] at ha
    cases ha with
    | some hb => exact ⟨c, rfl, hb⟩

theorem Shows.active_none (h : scanner.Shows lines outline) (hm : scanner.active = none) :
    outline.pending = none := by
  have ha := h.active
  rw [hm] at ha
  cases hp : outline.pending with
  | none => rfl
  | some c => rw [hp] at ha; cases ha

theorem Shows.finished_append (h : scanner.Shows lines outline) (hd : outline.Describes lines)
    (more : List Line) :
    List.Forall₂ (fun method span => method.BegunAt (lines ++ more) span.toCandidate)
      scanner.finished outline.spans := by
  obtain ⟨hlength, hall⟩ := List.forall₂_iff_get.1 h.finished
  apply List.forall₂_iff_get.2
  refine ⟨hlength, fun i h₁ h₂ => ?_⟩
  exact (hall i h₁ h₂).append (hd.lie _ (List.get_mem outline.spans ⟨i, h₂⟩)) more

def settled (scanner : Scanner) (method : MethodBlock) : Scanner :=
  if method.block.finished then ⟨scanner.finished ++ [method], none⟩
  else { scanner with active := some method }

def step (scanner : Scanner) (line : Line) : Scanner :=
  match scanner.active with
  | some method => scanner.settled { method with block := method.block.step line }
  | none =>
    match line.methodName? with
    | some name => scanner.settled ⟨name, Block.following [line]⟩
    | none => scanner

theorem settle_value (buffer : Buffer) (scanner : Scanner) (method : MethodBlock) :
    (scanner.settle buffer method).value.1 = scanner.settled method := by
  unfold settle settled
  split <;> rfl

theorem push_value (buffer : Buffer) (scanner : Scanner) (line : Line) :
    (push buffer scanner line).value.1 = scanner.step line := by
  unfold push step
  cases scanner.active with
  | some method => exact settle_value buffer scanner _
  | none =>
    simp only [Traced.value_bind, Line.methodName?]
    cases (Signature.ofLine? line.text).value with
    | none => rfl
    | some signature => exact settle_value buffer scanner _

theorem conclude_value (scanner : Scanner) : scanner.conclude.value = scanner := by
  unfold conclude
  cases scanner.active <;> rfl

theorem scan_value (buffer : Buffer) : (scan buffer).value = buffer.lines.foldl step {} := by
  rw [scan, Traced.value_bind, conclude_value, Traced.value_foldlM]
  congr 1
  funext scanner line
  exact push_value buffer scanner line

theorem settled_shows {method : MethodBlock} (ht : outline.Traces (lines ++ [line]))
    (hp : outline.pending = some c)
    (hf : List.Forall₂ (fun method span => method.BegunAt (lines ++ [line]) span.toCandidate)
      scanner.finished outline.spans)
    (hm : method.BegunAt (lines ++ [line]) c)
    (hu : (Block.following (lines.drop c.define)).finished = false) :
    ∃ settled, (scanner.settled method).Shows (lines ++ [line]) settled ∧
      settled.Describes (lines ++ [line]) := by
  have hlt := (ht.stand c (Outline.mem_candidates_of_pending hp)).lt
  rw [List.length_append, List.length_singleton] at hlt
  have hdrop : (lines ++ [line]).drop c.define = lines.drop c.define ++ [line] :=
    List.drop_append_of_le_length (Nat.le_of_lt_succ hlt)
  unfold settled
  split
  · next hfin =>
    rw [hm.2, hdrop] at hfin
    obtain ⟨i, hi, he⟩ := Block.exists_ends hu hfin
    rw [List.length_drop] at hi he
    have hends : (Block.following ((lines ++ [line]).drop c.define)).Ends (lines ++ [line])
        (c.define + i) lines.length := by
      rw [← hdrop] at he
      refine ⟨?_, ?_⟩
      · rw [he.opening_eq, List.getElem?_drop]
      · rw [he.closing_eq, List.getElem?_drop, Nat.add_sub_cancel' (by omega)]
    have hl : Span.Lies ⟨c, c.define + i, lines.length⟩ (lines ++ [line]) :=
      ⟨Nat.le_add_right _ _, by simp only; omega, by simp, by rw [hdrop, hfin], hends⟩
    refine ⟨_, ⟨?_, .none⟩, (ht.close hp hl).describes fun _ hc => nomatch hc⟩
    exact List.rel_append hf (.cons hm .nil)
  · next hfin =>
    refine ⟨outline, ⟨hf, ?_⟩, ht.describes fun d hd => ?_⟩
    · rw [hp]
      exact .some hm
    · rw [hp] at hd
      cases hd
      rw [← hm.2]
      exact Bool.eq_false_iff.2 hfin

theorem step_shows (hs : scanner.Shows lines outline) (hd : outline.Describes lines)
    (line : Line) :
    ∃ next, (scanner.step line).Shows (lines ++ [line]) next ∧
      next.Describes (lines ++ [line]) := by
  have hf := hs.finished_append hd [line]
  unfold step
  cases hm : scanner.active with
  | some method =>
    obtain ⟨c, hp, hb⟩ := hs.active_some hm
    have hlt := (hd.stand c (Outline.mem_candidates_of_pending hp)).lt
    have ht : outline.Traces (lines ++ [line]) := hd.append fun h => by rw [hp] at h; cases h
    refine settled_shows ht hp hf ⟨hb.1, ?_⟩ (hd.unclosed_of_pending hp)
    rw [List.drop_append_of_le_length (Nat.le_of_lt hlt), hb.2,
      Block.following_append (mt List.drop_eq_nil_iff.1 (Nat.not_le_of_lt hlt))]
    rfl
  | none =>
    have hp := hs.active_none hm
    cases hn : line.methodName? with
    | none =>
      refine ⟨outline, ⟨hf, ?_⟩, (hd.append fun _ => hn).describes fun c hc => ?_⟩
      · rw [hm, hp]
        exact .none
      · rw [hp] at hc
        cases hc
    | some name =>
      refine settled_shows (hd.begin hp hn) rfl hf ⟨rfl, ?_⟩ ?_
      · rw [List.drop_left]
      · rw [List.drop_length]
        rfl

/-- A scan of any lines shows an outline of all that they hold. -/
theorem foldl_step_shows (lines : List Line) :
    ∃ outline, (lines.foldl step {}).Shows lines outline ∧ outline.Describes lines := by
  induction lines using List.reverseRecOn with
  | nil => exact ⟨⟨[], none⟩, ⟨.nil, .none⟩, Outline.empty_describes⟩
  | append_singleton lines line ih =>
    obtain ⟨outline, hs, hd⟩ := ih
    rw [List.foldl_append]
    exact step_shows hs hd line

end Scanner

end MethodMarkers
