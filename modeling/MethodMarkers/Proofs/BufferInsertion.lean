import MethodMarkers.Buffer
import Mathlib.Data.List.Induction
import Mathlib.Data.List.Basic

namespace MethodMarkers

theorem takeThrough_append {α : Type} {p : α → Bool} {xs ys : List α} {a : α}
    (hx : ∀ x ∈ xs, p x = false) (ha : p a = true) :
    takeThrough p (xs ++ a :: ys) = xs ++ [a] := by
  induction xs with
  | nil => simp only [List.nil_append, takeThrough, ha, ↓reduceIte]
  | cons x xs ih =>
    have hp := hx x List.mem_cons_self
    simp only [List.cons_append, takeThrough, hp, Bool.false_eq_true, ↓reduceIte]
    rw [ih fun y hy => hx y (List.mem_cons_of_mem x hy)]

namespace Buffer

variable {buffer : Buffer} {line first last : Line} {xs mid ys : List Line} {text : String}

/-- Every line is the buffer's own, has a number that was given out, and stands in it once. -/
structure Intact (buffer : Buffer) : Prop where
  home : ∀ line ∈ buffer.lines, line.home = buffer.home
  serial : ∀ line ∈ buffer.lines, line.serial < buffer.nextSerial
  nodup : buffer.lines.Nodup

theorem empty_intact (home : Nat) (path : Option Path) : (empty home path).Intact where
  home _ h := nomatch h
  serial _ h := nomatch h
  nodup := List.nodup_nil

theorem Intact.newLine_notMem (h : buffer.Intact) (text : String) :
    buffer.newLine text ∉ buffer.lines :=
  fun hm => Nat.lt_irrefl _ (h.serial _ hm)

theorem Intact.insertAt (h : buffer.Intact) (position : Nat) (text : String) :
    (buffer.insertAt position text).Intact := by
  by_cases hp : position ≤ buffer.lines.length
  · have hperm := List.perm_insertIdx (buffer.newLine text) buffer.lines hp
    refine ⟨fun line hl => ?_, fun line hl => ?_, ?_⟩
    · rcases List.mem_cons.1 (hperm.mem_iff.1 hl) with rfl | hl
      · rfl
      · exact h.home line hl
    · rcases List.mem_cons.1 (hperm.mem_iff.1 hl) with rfl | hl
      · exact Nat.lt_succ_self buffer.nextSerial
      · exact Nat.lt_succ_of_lt (h.serial line hl)
    · exact hperm.nodup_iff.2 (List.nodup_cons.2 ⟨h.newLine_notMem text, h.nodup⟩)
  · have he : (buffer.insertAt position text).lines = buffer.lines :=
      List.insertIdx_of_length_lt (Nat.lt_of_not_le hp)
    refine ⟨fun line hl => ?_, fun line hl => ?_, he ▸ h.nodup⟩
    · exact h.home line (he ▸ hl)
    · exact Nat.lt_succ_of_lt (h.serial line (he ▸ hl))

theorem append_lines (buffer : Buffer) (text : String) :
    (buffer.append text).lines = buffer.lines ++ [buffer.newLine text] :=
  List.insertIdx_length_self

theorem ofTexts_append (home : Nat) (path : Option Path) (texts : List String) (text : String) :
    ofTexts home path (texts ++ [text]) = (ofTexts home path texts).append text := by
  rw [ofTexts, List.foldl_append]
  rfl

theorem ofTexts_intact (home : Nat) (path : Option Path) (texts : List String) :
    (ofTexts home path texts).Intact :=
  List.foldlRecOn texts append (motive := Intact) (empty_intact home path)
    fun buffer h text _ => h.insertAt buffer.lines.length text

@[simp] theorem ofTexts_texts (home : Nat) (path : Option Path) (texts : List String) :
    (ofTexts home path texts).texts = texts := by
  induction texts using List.reverseRecOn with
  | nil => rfl
  | append_singleton texts text ih =>
    rw [ofTexts_append, Buffer.texts, append_lines, List.map_append]
    exact congrArg (· ++ [text]) ih

@[simp] theorem ofTexts_path (home : Nat) (path : Option Path) (texts : List String) :
    (ofTexts home path texts).path = path :=
  List.foldlRecOn texts append (motive := fun buffer => buffer.path = path) rfl
    fun buffer h text _ => (show (buffer.append text).path = buffer.path from rfl).trans h

theorem Intact.owning (h : buffer.Intact) (hl : line ∈ buffer.lines) :
    buffer.owning line = .ok buffer :=
  if_pos (h.home line hl)

theorem Intact.idxOf (h : buffer.Intact) (hl : buffer.lines = xs ++ line :: ys) :
    buffer.lines.idxOf line = xs.length := by
  have hn := hl ▸ h.nodup
  have hx : line ∉ xs := fun hm =>
    (List.nodup_append.1 hn).2.2 line hm line List.mem_cons_self rfl
  rw [hl, List.idxOf_append_of_notMem hx, List.idxOf_cons_self, Nat.add_zero]

theorem insertIdx_length_append (new : Line) (xs ys : List Line) :
    (xs ++ ys).insertIdx xs.length new = xs ++ new :: ys := by
  induction xs with
  | nil => rfl
  | cons x xs ih => exact congrArg (x :: ·) ih

theorem Intact.insertAfter (h : buffer.Intact) (hl : buffer.lines = xs ++ line :: ys)
    (text : String) :
    ∃ after, buffer.insertAfter line text = .ok after ∧ after.Intact ∧
      after.path = buffer.path ∧ after.lines = xs ++ line :: buffer.newLine text :: ys := by
  have hm : line ∈ buffer.lines := hl ▸ List.mem_append_right xs List.mem_cons_self
  refine ⟨_, congrArg _ (h.owning hm), h.insertAt _ text, rfl, ?_⟩
  have he := insertIdx_length_append (buffer.newLine text) (xs ++ [line]) ys
  rw [List.append_assoc, List.append_assoc, List.length_append] at he
  change buffer.lines.insertIdx (buffer.lines.idxOf line + 1) _ = _
  rw [h.idxOf hl, hl]
  exact he

theorem Intact.insertBefore (h : buffer.Intact) (hl : buffer.lines = xs ++ line :: ys)
    (text : String) :
    ∃ after, buffer.insertBefore line text = .ok after ∧ after.Intact ∧
      after.path = buffer.path ∧ after.lines = xs ++ buffer.newLine text :: line :: ys := by
  have hm : line ∈ buffer.lines := hl ▸ List.mem_append_right xs List.mem_cons_self
  refine ⟨_, congrArg _ (h.owning hm), h.insertAt _ text, rfl, ?_⟩
  change buffer.lines.insertIdx (buffer.lines.idxOf line) _ = _
  rw [h.idxOf hl, hl]
  exact insertIdx_length_append (buffer.newLine text) xs (line :: ys)

theorem Intact.range (h : buffer.Intact) (hl : buffer.lines = xs ++ mid ++ ys)
    (hf : mid.head? = some first) (hz : mid.getLast? = some last) :
    buffer.range first last = .ok mid := by
  obtain ⟨init, rfl⟩ := List.getLast?_eq_some_iff.1 hz
  obtain ⟨rest, hr⟩ := List.head?_eq_some_iff.1 hf
  have hm : first ∈ buffer.lines := by
    rw [hl, hr]
    exact List.mem_append_left ys (List.mem_append_right xs List.mem_cons_self)
  have hn := hl ▸ h.nodup
  rw [List.append_assoc, List.nodup_append] at hn
  have hx : ∀ line ∈ xs, (line != first) = true := fun line hlx => by
    rw [bne_iff_ne]
    exact hn.2.2 line hlx first (by rw [hr]; exact List.mem_append_left ys List.mem_cons_self)
  have hi : ∀ line ∈ init, (line == last) = false := fun line hli => by
    rw [beq_eq_false_iff_ne]
    have hs := (List.nodup_append.1 hn.2.1).1
    exact (List.nodup_append.1 hs).2.2 line hli last (List.mem_singleton_self last)
  rw [Buffer.range, h.owning hm]
  refine congrArg Except.ok ?_
  beta_reduce
  rw [hl, List.append_assoc, List.dropWhile_append_of_pos hx, hr, List.cons_append,
    List.dropWhile_cons_of_neg (by simp), ← List.cons_append, ← hr, List.append_assoc]
  exact takeThrough_append hi (beq_self_eq_true last)

end Buffer

end MethodMarkers
