import MethodMarkers.MethodBlock
import MethodMarkers.Proofs.BufferInsertion
import Mathlib.Logic.Function.Basic

namespace MethodMarkers

def weave {α : Type} (before after : α → List α) (xs : List α) : List α :=
  xs.flatMap fun x => before x ++ x :: after x

theorem weave_append {α : Type} (before after : α → List α) (xs ys : List α) :
    weave before after (xs ++ ys) = weave before after xs ++ weave before after ys :=
  List.flatMap_append

theorem weave_cons {α : Type} (before after : α → List α) (x : α) (xs : List α) :
    weave before after (x :: xs) = before x ++ x :: (after x ++ weave before after xs) := by
  rw [weave, List.flatMap_cons, List.append_assoc, List.cons_append]
  rfl

theorem weave_congr {α : Type} {before after before' after' : α → List α} {xs : List α}
    (h : ∀ x ∈ xs, before' x = before x ∧ after' x = after x) :
    weave before' after' xs = weave before after xs := by
  apply List.flatMap_congr
  intro x hx
  rw [(h x hx).1, (h x hx).2]

theorem weave_eq_self {α : Type} {before after : α → List α} {xs : List α}
    (h : ∀ x ∈ xs, before x = [] ∧ after x = []) : weave before after xs = xs := by
  induction xs with
  | nil => rfl
  | cons x xs ih =>
    obtain ⟨hb, ha⟩ := h x List.mem_cons_self
    rw [weave_cons, hb, ha, ih fun y hy => h y (List.mem_cons_of_mem x hy)]
    rfl

namespace Buffer

variable {buffer : Buffer} {lines : List Line} {before after : Line → List Line} {line : Line}

/-- A buffer of some lines that stand once in it, with others put among them. -/
structure Woven (buffer : Buffer) (lines : List Line) (before after : Line → List Line) : Prop where
  intact : buffer.Intact
  nodup : lines.Nodup
  lines_eq : buffer.lines = weave before after lines

theorem Woven.update_congr {f : Line → List Line} {xs ys : List Line}
    (hn : (xs ++ line :: ys).Nodup) (more : List Line) :
    ∀ other ∈ xs ++ ys, Function.update f line more other = f other := by
  intro other ho
  have hm := (List.perm_middle.nodup_iff.1 hn)
  apply Function.update_of_ne
  rintro rfl
  exact (List.nodup_cons.1 hm).1 ho

theorem Woven.insertAfter (h : buffer.Woven lines before after) (hm : line ∈ lines)
    (text : String) :
    ∃ new inserted, buffer.insertAfter line text = .ok inserted ∧ inserted.path = buffer.path ∧
      new.text = text ∧
      inserted.Woven lines before (Function.update after line (new :: after line)) := by
  obtain ⟨xs, ys, rfl⟩ := List.append_of_mem hm
  have hl := h.lines_eq
  rw [weave_append, weave_cons, ← List.append_assoc] at hl
  obtain ⟨inserted, he, hi, hp, hs⟩ := h.intact.insertAfter hl text
  refine ⟨buffer.newLine text, inserted, he, hp, rfl, hi, h.nodup, ?_⟩
  have hu := Woven.update_congr (f := after) h.nodup (buffer.newLine text :: after line)
  rw [hs, weave_append, weave_cons, Function.update_self,
    weave_congr fun x hx => ⟨rfl, hu x (List.mem_append_left ys hx)⟩,
    weave_congr fun x hx => ⟨rfl, hu x (List.mem_append_right xs hx)⟩]
  simp only [List.append_assoc, List.cons_append]

theorem Woven.insertBefore (h : buffer.Woven lines before after) (hm : line ∈ lines)
    (text : String) :
    ∃ new inserted, buffer.insertBefore line text = .ok inserted ∧ inserted.path = buffer.path ∧
      new.text = text ∧
      inserted.Woven lines (Function.update before line (before line ++ [new])) after := by
  obtain ⟨xs, ys, rfl⟩ := List.append_of_mem hm
  have hl := h.lines_eq
  rw [weave_append, weave_cons, ← List.append_assoc] at hl
  obtain ⟨inserted, he, hi, hp, hs⟩ := h.intact.insertBefore hl text
  refine ⟨buffer.newLine text, inserted, he, hp, rfl, hi, h.nodup, ?_⟩
  have hu := Woven.update_congr (f := before) h.nodup (before line ++ [buffer.newLine text])
  rw [hs, weave_append, weave_cons, Function.update_self,
    weave_congr fun x hx => ⟨hu x (List.mem_append_left ys hx), rfl⟩,
    weave_congr fun x hx => ⟨hu x (List.mem_append_right xs hx), rfl⟩]
  simp only [List.append_assoc, List.cons_append, List.nil_append]

theorem Woven.range {xs mid ys : List Line} {first last : Line}
    (h : buffer.Woven lines before after) (hl : lines = xs ++ mid ++ ys)
    (hq : ∀ line ∈ mid, before line = [] ∧ after line = [])
    (hf : mid.head? = some first) (hz : mid.getLast? = some last) :
    buffer.range first last = .ok mid := by
  have he := h.lines_eq
  rw [hl, weave_append, weave_append, weave_eq_self hq] at he
  exact h.intact.range he hf hz

theorem Woven.insertBeforeEach {targets : List Line} (h : buffer.Woven lines before after)
    (ht : ∀ line ∈ targets, line ∈ lines) (text : String) :
    ∃ inserted before', MethodBlock.insertBeforeEach text targets buffer = (.ok (), inserted) ∧
      inserted.path = buffer.path ∧ inserted.Woven lines before' after ∧
      ∀ line, (before' line).map Line.text =
        (before line).map Line.text ++ List.replicate (targets.count line) text := by
  induction targets generalizing buffer before with
  | nil => exact ⟨buffer, before, rfl, rfl, h, fun line => by simp⟩
  | cons target targets ih =>
    obtain ⟨new, first, he, hp, hnew, hw⟩ := h.insertBefore (ht target List.mem_cons_self) text
    obtain ⟨inserted, before', he', hp', hw', ht'⟩ :=
      ih hw fun line hl => ht line (List.mem_cons_of_mem target hl)
    refine ⟨inserted, before', ?_, hp'.trans hp, hw', fun line => ?_⟩
    · simp only [MethodBlock.insertBeforeEach, he, he']
    · rw [ht' line]
      by_cases hl : line = target
      · subst hl
        rw [Function.update_self, List.map_append, List.map_singleton, hnew, List.count_cons_self,
          List.replicate_succ, List.append_assoc, List.singleton_append]
      · rw [Function.update_of_ne hl, List.count_cons_of_ne (Ne.symm hl)]

theorem Woven.insertMarkers {first last : Line} {exits : List Line}
    (h : buffer.Woven lines before after) (hf : first ∈ lines)
    (he : ∀ line ∈ last :: exits, line ∈ lines) (markers : Markers) (label : String) :
    ∃ inserted before' after',
      MethodBlock.insertMarkers markers label first last exits buffer = (.ok (), inserted) ∧
      inserted.path = buffer.path ∧ inserted.Woven lines before' after' ∧
      (∀ line, (before' line).map Line.text = (before line).map Line.text ++
        List.replicate ((last :: exits).count line)
          (markers.endLine (leadingWhitespace first.text ++ markers.indentUnit))) ∧
      ∀ line, (after' line).map Line.text =
        (if line = first then
          [markers.beginLine (leadingWhitespace first.text ++ markers.indentUnit) label] else []) ++
          (after line).map Line.text := by
  obtain ⟨new, begun, hb, hp, hnew, hw⟩ := h.insertAfter hf
    (markers.beginLine (leadingWhitespace first.text ++ markers.indentUnit) label)
  obtain ⟨inserted, before', hi, hp', hw', ht⟩ := hw.insertBeforeEach he
    (markers.endLine (leadingWhitespace first.text ++ markers.indentUnit))
  refine ⟨inserted, before', _, ?_, hp'.trans hp, hw', ht, fun line => ?_⟩
  · simp only [MethodBlock.insertMarkers, hb, hi]
  · by_cases hl : line = first
    · subst hl
      rw [Function.update_self, List.map_cons, hnew, if_pos rfl, List.singleton_append]
    · rw [Function.update_of_ne hl, if_neg hl, List.nil_append]

end Buffer

end MethodMarkers
