import MethodMarkers.Proofs.LinkedChains
import Mathlib.Logic.Function.Basic

namespace MethodMarkers

/-- One insertion more, if its target was handed out before; the line put in is handed out. -/
def Insertion.step {σ ε : Type} (insert : σ → Nat → Insertion Line → Except ε Line × σ)
    (state : σ × List Line) (call : Nat × Insertion Nat) : σ × List Line :=
  match call.2.resolve? state.2 with
  | none => state
  | some insertion =>
    let outcome := insert state.1 call.1 insertion
    (outcome.2, state.2 ++ outcome.1.toOption.toList)

namespace Insertion

section Step
variable {σ ε : Type} {insert : σ → Nat → Insertion Line → Except ε Line × σ} {state after : σ}
  {handed : List Line} {home : Nat} {call : Insertion Nat} {insertion : Insertion Line}

theorem step_of_unknown (hr : call.resolve? handed = none) :
    step insert (state, handed) (home, call) = (state, handed) := by
  rw [step, hr]

theorem step_of_ok {line : Line} (hr : call.resolve? handed = some insertion)
    (hi : insert state home insertion = (.ok line, after)) :
    step insert (state, handed) (home, call) = (after, handed ++ [line]) := by
  rw [step, hr]
  dsimp only
  rw [hi]
  rfl

theorem step_of_error {fault : ε} (hr : call.resolve? handed = some insertion)
    (hi : insert state home insertion = (.error fault, after)) :
    step insert (state, handed) (home, call) = (after, handed) := by
  rw [step, hr]
  dsimp only
  rw [hi]
  exact congrArg (after, ·) (List.append_nil handed)

end Step

theorem resolve?_target {handed : List Line} {call : Insertion Nat}
    {insertion : Insertion Line} {target : Line} (h : call.resolve? handed = some insertion)
    (ht : insertion.target? = some target) : target ∈ handed := by
  cases call with
  | append text =>
    cases h
    cases ht
  | after number text =>
    obtain ⟨line, hl, rfl⟩ := Option.map_eq_some_iff.1 h
    cases ht
    exact List.mem_of_getElem? hl
  | before number text =>
    obtain ⟨line, hl, rfl⟩ := Option.map_eq_some_iff.1 h
    cases ht
    exact List.mem_of_getElem? hl

end Insertion

namespace Buffer

def put (buffer : Buffer) : Insertion Line → Except Foreign Buffer
  | .append text => .ok (buffer.append text)
  | .after target text => buffer.insertAfter target text
  | .before target text => buffer.insertBefore target text

def insertInto (buffers : Nat → Buffer) (home : Nat) (insertion : Insertion Line) :
    Except Foreign Line × (Nat → Buffer) :=
  match (buffers home).put insertion with
  | .ok after => (.ok ((buffers home).newLine insertion.text), Function.update buffers home after)
  | .error fault => (.error fault, buffers)

end Buffer

theorem takeThrough_eq_self {α : Type} {p : α → Bool} {xs : List α} (h : ∀ x ∈ xs, p x = false) :
    takeThrough p xs = xs := by
  induction xs with
  | nil => rfl
  | cons x xs ih =>
    rw [List.forall_mem_cons] at h
    rw [takeThrough, h.1, ih h.2]
    rfl

namespace LinkedLines

variable {lines : LinkedLines} {buffers : Nat → Buffer} {buffer : Buffer} {home : Nat}
  {insertion : Insertion Line} {line target first last : Line} {handed xs mid ys : List Line}

theorem insert_foreign (lines : LinkedLines) (ht : insertion.target? = some target)
    (hh : target.home ≠ home) :
    lines.insert home insertion = (.error ⟨target, lines.chain home⟩, lines) := by
  rw [insert, ht]
  simp [checkOwned, hh]

theorem insert_owned (ht : ∀ target, insertion.target? = some target → target.home = home) :
    lines.insert home insertion =
      (.ok (lines.newLine home insertion.text), lines.place home insertion) := by
  have hc : insertion.target?.elim (.ok ()) (lines.checkOwned home) = .ok () := by
    cases hi : insertion.target? with
    | none => rfl
    | some target => exact if_pos (ht target hi)
  rw [insert, hc]

/-- An insertion at a line of the chain puts the same line at the same place of both. -/
theorem Holds.insert (h : lines.Holds home buffer)
    (ht : ∀ target, insertion.target? = some target → target ∈ buffer.lines) :
    ∃ xs ys, buffer.lines = xs ++ ys ∧
      buffer.put insertion = .ok (buffer.insertAt xs.length insertion.text) ∧
      lines.insert home insertion = (.ok (lines.newLine home insertion.text),
        lines.splice home xs.getLast? insertion.text ys.head?) := by
  rw [insert_owned fun target ho => h.home_eq (ht target ho)]
  cases insertion with
  | append text =>
    refine ⟨buffer.lines, [], (List.append_nil _).symm, rfl, ?_⟩
    rw [place, append_eq_splice, h.last]
    rfl
  | after target text =>
    obtain ⟨xs, ys, hl⟩ := List.append_of_mem (ht target rfl)
    refine ⟨xs ++ [target], ys, by rw [hl, List.append_assoc, List.singleton_append], ?_, ?_⟩
    · rw [Buffer.put, Buffer.insertAfter, h.intact.owning (ht target rfl), h.intact.idxOf hl,
        List.length_append, List.length_singleton]
      rfl
    · rw [place, putAfter_eq_splice (h.ne_newLine (ht target rfl) text), (h.neighbours hl).1,
        List.getLast?_concat]
      rfl
  | before target text =>
    obtain ⟨xs, ys, hl⟩ := List.append_of_mem (ht target rfl)
    refine ⟨xs, target :: ys, hl, ?_, ?_⟩
    · rw [Buffer.put, Buffer.insertBefore, h.intact.owning (ht target rfl), h.intact.idxOf hl]
      rfl
    · rw [place, putBefore_eq_splice (h.ne_newLine (ht target rfl) text), (h.neighbours hl).2]
      rfl

/-- Linked lines and plain lists after the same insertions, and the lines handed out by them. -/
structure Refines (lines : LinkedLines) (buffers : Nat → Buffer) (handed : List Line) : Prop where
  holds : ∀ home, lines.Holds home (buffers home)
  mem_handed : ∀ line, line ∈ handed ↔ line ∈ (buffers line.home).lines
  nodup : handed.Nodup

theorem empty_refines (paths : Nat → Option Path) :
    Refines (empty paths) (fun home => Buffer.empty home (paths home)) [] where
  holds home := empty_holds paths home
  mem_handed _ := Iff.rfl
  nodup := List.nodup_nil

theorem Refines.mem_lines (h : Refines lines buffers handed) :
    line ∈ (buffers home).lines ↔ line ∈ handed ∧ line.home = home := by
  rw [h.mem_handed]
  constructor
  · intro hm
    have hh := (h.holds home).home_eq hm
    exact ⟨hh ▸ hm, hh⟩
  · rintro ⟨hm, rfl⟩
    exact hm

theorem Refines.splice (h : Refines lines buffers handed) (hl : (buffers home).lines = xs ++ ys)
    (text : String) :
    Refines (lines.splice home xs.getLast? text ys.head?)
      (Function.update buffers home ((buffers home).insertAt xs.length text))
      (handed ++ [lines.newLine home text]) := by
  have hown := h.holds home
  have hlines := hown.insertAt_lines hl text
  refine ⟨?_, ?_, ?_⟩
  · intro other
    by_cases ho : other = home
    · rw [ho, Function.update_self]
      exact hown.splice hl text
    · rw [Function.update_of_ne ho]
      apply hown.splice_other (h.holds other) ho
      · intro line hline
        exact hl ▸ List.mem_append_left _ (List.mem_of_getLast? hline)
      · intro line hline
        exact hl ▸ List.mem_append_right _ (List.mem_of_head? hline)
  · intro line
    rw [List.mem_append, List.mem_singleton, h.mem_handed]
    by_cases ho : line.home = home
    · rw [ho, Function.update_self, hlines, hl]
      simp only [List.mem_append, List.mem_cons]
      tauto
    · rw [Function.update_of_ne ho]
      refine or_iff_left ?_
      rintro rfl
      exact ho rfl
  · refine List.nodup_append.2 ⟨h.nodup, List.nodup_singleton _, ?_⟩
    intro line hline new hnew
    rw [List.mem_singleton.1 hnew]
    rintro rfl
    exact hown.ne_newLine (h.mem_lines.2 ⟨hline, rfl⟩) _ rfl

theorem Refines.insert (h : Refines lines buffers handed)
    (ht : ∀ target, insertion.target? = some target → target ∈ handed ∧ target.home = home) :
    ∃ new after buffers', lines.insert home insertion = (.ok new, after) ∧
      Buffer.insertInto buffers home insertion = (.ok new, buffers') ∧
      Refines after buffers' (handed ++ [new]) ∧
      ∀ other, (buffers other).lines.Sublist (buffers' other).lines := by
  have hown := h.holds home
  obtain ⟨xs, ys, hl, hput, hinsert⟩ := hown.insert fun target ho => h.mem_lines.2 (ht target ho)
  refine ⟨_, _, _, hinsert, ?_, h.splice hl insertion.text, ?_⟩
  · rw [Buffer.insertInto, hput, hown.newLine]
  · intro other
    by_cases ho : other = home
    · rw [ho, Function.update_self, hown.insertAt_lines hl, hl]
      exact List.Sublist.append_left (List.sublist_cons_self _ _) xs
    · rw [Function.update_of_ne ho]

theorem Refines.insert_foreign (h : Refines lines buffers handed)
    (ht : insertion.target? = some target) (hh : target.home ≠ home) :
    Buffer.insertInto buffers home insertion = (.error ⟨target, buffers home⟩, buffers) := by
  have howning : (buffers home).owning target = .error ⟨target, buffers home⟩ := by
    rw [Buffer.owning, (h.holds home).own, if_neg hh]
  cases insertion with
  | append text => cases ht
  | after target' text =>
    cases ht
    rw [Buffer.insertInto, Buffer.put, Buffer.insertAfter, howning]
    rfl
  | before target' text =>
    cases ht
    rw [Buffer.insertInto, Buffer.put, Buffer.insertBefore, howning]
    rfl

theorem Refines.step (h : Refines lines buffers handed) (call : Nat × Insertion Nat) :
    ∃ after buffers' handed',
      Insertion.step LinkedLines.insert (lines, handed) call = (after, handed') ∧
      Insertion.step Buffer.insertInto (buffers, handed) call = (buffers', handed') ∧
      Refines after buffers' handed' ∧
      ∀ other, (buffers other).lines.Sublist (buffers' other).lines := by
  obtain ⟨home, call⟩ := call
  cases hr : call.resolve? handed with
  | none =>
    exact ⟨lines, buffers, handed, Insertion.step_of_unknown hr, Insertion.step_of_unknown hr, h,
      fun other => List.Sublist.refl _⟩
  | some insertion =>
    by_cases hf : ∃ target, insertion.target? = some target ∧ target.home ≠ home
    · obtain ⟨target, ht, hh⟩ := hf
      refine ⟨lines, buffers, handed, ?_, ?_, h, fun other => List.Sublist.refl _⟩
      · exact Insertion.step_of_error hr (LinkedLines.insert_foreign lines ht hh)
      · exact Insertion.step_of_error hr (h.insert_foreign ht hh)
    · simp only [not_exists, not_and, not_not] at hf
      have hhere : ∀ target, insertion.target? = some target →
          target ∈ handed ∧ target.home = home :=
        fun target ht => ⟨Insertion.resolve?_target hr ht, hf target ht⟩
      obtain ⟨new, after, buffers', hi, hb, hrefines, hsub⟩ := h.insert hhere
      exact ⟨after, buffers', handed ++ [new], Insertion.step_of_ok hr hi,
        Insertion.step_of_ok hr hb, hrefines, hsub⟩

structure Presents (lines : LinkedLines) (home : Nat) (plain : List Line) : Prop where
  forward : Walks lines.next (lines.chain home).first plain
  backward : Walks lines.prev (lines.chain home).last plain.reverse
  reversed : lines.reversed home = plain.reverse
  size : (lines.chain home).size = plain.length
  texts : lines.texts home = plain.map Line.text
  range_through : ∀ xs mid ys first last, plain = xs ++ mid ++ ys → mid.head? = some first →
    mid.getLast? = some last → lines.range home first last = .ok mid
  range_rest : ∀ xs ys first last, plain = xs ++ first :: ys → last ∉ first :: ys →
    lines.range home first last = .ok (first :: ys)
  range_foreign : ∀ first last, first.home ≠ home →
    lines.range home first last = .error ⟨first, lines.chain home⟩
  insert_foreign : ∀ insertion target, insertion.target? = some target → target.home ≠ home →
    lines.insert home insertion = (.error ⟨target, lines.chain home⟩, lines)

theorem Holds.presents (h : lines.Holds home buffer) : lines.Presents home buffer.lines where
  forward := h.walks_first
  backward := h.walks_last
  reversed := h.reversed_eq
  size := h.size
  texts := congrArg _ h.nodes_eq
  range_through := by
    intro xs mid ys first last hl hf hz
    obtain ⟨init, rfl⟩ := List.getLast?_eq_some_iff.1 hz
    obtain ⟨rest, hr⟩ := List.head?_eq_some_iff.1 hf
    have hi : ∀ line ∈ init, (line == last) = false := by
      intro line hli
      have hn := h.intact.nodup
      rw [hl, List.nodup_append, List.nodup_append, List.nodup_append] at hn
      rw [beq_eq_false_iff_ne]
      exact hn.1.2.1.2.2 line hli last (List.mem_singleton_self last)
    have hsplit : buffer.lines = xs ++ first :: (rest ++ ys) := by
      rw [hl, hr, List.append_assoc, List.cons_append]
    rw [h.range_eq hsplit, ← List.cons_append, ← hr, List.append_assoc]
    exact congrArg _ (takeThrough_append hi (beq_self_eq_true last))
  range_rest := by
    intro xs ys first last hl hlast
    rw [h.range_eq hl, takeThrough_eq_self]
    intro line hline
    rw [beq_eq_false_iff_ne]
    rintro rfl
    exact hlast hline
  range_foreign := by
    intro first last hne
    rw [range, checkOwned, if_neg hne]
    rfl
  insert_foreign _ _ ht hne := LinkedLines.insert_foreign lines ht hne

def afterCalls (paths : Nat → Option Path) (calls : List (Nat × Insertion Nat)) :
    LinkedLines × List Line :=
  calls.foldl (Insertion.step LinkedLines.insert) (empty paths, [])

end LinkedLines

def Buffer.afterCalls (paths : Nat → Option Path) (calls : List (Nat × Insertion Nat)) :
    (Nat → Buffer) × List Line :=
  calls.foldl (Insertion.step Buffer.insertInto) (fun home => Buffer.empty home (paths home), [])

namespace LinkedLines

variable {paths : Nat → Option Path} {calls later : List (Nat × Insertion Nat)}

theorem Refines.foldl (h : Refines lines buffers handed) (calls : List (Nat × Insertion Nat)) :
    ∃ after buffers' handed',
      calls.foldl (Insertion.step LinkedLines.insert) (lines, handed) = (after, handed') ∧
      calls.foldl (Insertion.step Buffer.insertInto) (buffers, handed) = (buffers', handed') ∧
      Refines after buffers' handed' ∧
      ∀ home, (buffers home).lines.Sublist (buffers' home).lines := by
  induction calls generalizing lines buffers handed with
  | nil => exact ⟨lines, buffers, handed, rfl, rfl, h, fun home => List.Sublist.refl _⟩
  | cons call calls ih =>
    obtain ⟨middle, buffers₁, handed₁, hs, hs', h₁, hsub₁⟩ := h.step call
    obtain ⟨after, buffers₂, handed₂, hf, hf', h₂, hsub₂⟩ := ih h₁
    refine ⟨after, buffers₂, handed₂, ?_, ?_, h₂, fun home => (hsub₁ home).trans (hsub₂ home)⟩
    · rw [List.foldl_cons, hs, hf]
    · rw [List.foldl_cons, hs', hf']

/-- Linked lines are plain lists whose lines can be told from each other: the same calls hand out
the same lines and leave them in the same order, in which later calls never change. -/
theorem afterCalls_presents (paths : Nat → Option Path) (calls : List (Nat × Insertion Nat)) :
    (afterCalls paths calls).2 = (Buffer.afterCalls paths calls).2 ∧
    (afterCalls paths calls).2.Nodup ∧
    ∀ home,
      (afterCalls paths calls).1.Presents home ((Buffer.afterCalls paths calls).1 home).lines ∧
      ((Buffer.afterCalls paths calls).1 home).lines.Nodup ∧
      (∀ line, line ∈ ((Buffer.afterCalls paths calls).1 home).lines ↔
        line ∈ (afterCalls paths calls).2 ∧ line.home = home) ∧
      ∀ later, ((afterCalls paths calls).1.nodes home).Sublist
        ((afterCalls paths (calls ++ later)).1.nodes home) := by
  obtain ⟨lines, buffers, handed, hl, hb, h, -⟩ := (empty_refines paths).foldl calls
  have hlines : afterCalls paths calls = (lines, handed) := hl
  have hbuffers : Buffer.afterCalls paths calls = (buffers, handed) := hb
  rw [hlines, hbuffers]
  refine ⟨rfl, h.nodup, fun home => ⟨(h.holds home).presents, (h.holds home).intact.nodup,
    fun line => h.mem_lines, fun later => ?_⟩⟩
  obtain ⟨after, buffers', handed', hl', -, h', hsub⟩ := h.foldl later
  have hafter : afterCalls paths (calls ++ later) = (after, handed') := by
    rw [afterCalls, List.foldl_append, hl, hl']
  rw [hafter, (h.holds home).nodes_eq, (h'.holds home).nodes_eq]
  exact hsub home

end LinkedLines

end MethodMarkers
