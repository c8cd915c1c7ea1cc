import MethodMarkers.Terminal.Style
import Mathlib.Data.List.Basic

namespace MethodMarkers

namespace Text

variable {c : Char} {part by_ : List Char}

theorem count_replacePart (hp : c ∉ part) (hb : c ∉ by_) (cs : List Char) :
    (replacePart part by_ cs).count c = cs.count c := by
  have hgo (skip : Nat) : (replacePart.go part by_ skip cs).count c = (cs.drop skip).count c := by
    induction cs generalizing skip with
    | nil => rw [replacePart.go, List.drop_nil]
    | cons d cs ih =>
      cases skip with
      | succ skip => rw [replacePart.go, ih, List.drop_succ_cons]
      | zero =>
        rw [replacePart.go]
        split
        · next hprefix =>
          rw [Bool.and_eq_true, List.isPrefixOf_iff_prefix] at hprefix
          obtain ⟨rest, hrest⟩ := hprefix.2
          cases part with
          | nil => cases hprefix.1
          | cons p part =>
            obtain ⟨rfl, hcs⟩ := List.cons.inj hrest
            rw [List.count_append, List.count_eq_zero_of_not_mem hb, ih, List.length_cons,
              Nat.add_sub_cancel, ← hrest, ← hcs, List.drop_zero, List.count_append,
              List.count_eq_zero_of_not_mem hp]
            exact congrArg (0 + List.count c ·) List.drop_left
        · rw [List.drop_zero, List.count_cons, List.count_cons, ih, List.drop_zero]
  rw [replacePart, hgo, List.drop_zero]

end Text

namespace Terminal

variable {c : Char} {off on : List Char} {styles : List Style}

/-- A character that no control sequence around a text is made of. -/
structure Inert (styles : List Style) (c : Char) : Prop where
  on : ∀ style ∈ styles, c ∉ style.on
  off : ∀ style ∈ styles, c ∉ style.off
  reset : c ∉ sequence 0

theorem count_releaseResets (hr : c ∉ sequence 0) (hoff : c ∉ off) (hon : c ∉ on) (inside : Bool)
    (cs : List Char) : (releaseResets off on inside cs).count c = cs.count c := by
  have hreset : ∀ cs, ('\x1b' :: '[' :: '0' :: 'm' :: cs).count c = cs.count c := by
    intro cs
    change (sequence 0 ++ cs).count c = cs.count c
    rw [List.count_append, List.count_eq_zero_of_not_mem hr, Nat.zero_add]
  fun_induction releaseResets off on inside cs with
  | case1 => rfl
  | case2 cs ih =>
    rw [List.count_append, List.count_append, List.count_eq_zero_of_not_mem hr,
      List.count_eq_zero_of_not_mem hon, ih, hreset, Nat.zero_add]
  | case3 inside cs hi hf ih =>
    rw [List.count_append, List.count_append, List.count_eq_zero_of_not_mem hr,
      List.count_eq_zero_of_not_mem hoff, ih, hreset, Nat.zero_add]
  | case4 inside cs hi hf ih =>
    rw [List.count_append, List.count_eq_zero_of_not_mem hr, ih, hreset, Nat.zero_add]
  | case5 inside d cs hd ih => rw [List.count_cons, List.count_cons, ih]

theorem count_releaseLineEnds (hoff : c ∉ off) (hon : c ∉ on) (cs : List Char) :
    (releaseLineEnds off on cs).count c = cs.count c := by
  fun_induction releaseLineEnds off on cs with
  | case1 => rfl
  | case2 cs ih =>
    simp only [List.count_append, List.count_cons, List.count_eq_zero_of_not_mem hoff,
      List.count_eq_zero_of_not_mem hon, ih, Nat.zero_add]
    omega
  | case3 cs ih =>
    simp only [List.count_append, List.count_cons, List.count_eq_zero_of_not_mem hoff,
      List.count_eq_zero_of_not_mem hon, ih, Nat.zero_add]
    omega
  | case4 d cs hd hd' ih => rw [List.count_cons, List.count_cons, ih]

theorem Inert.count_resume (h : Inert styles c) (cs : List Char) :
    (styles.foldl (fun cs style => style.resume cs) cs).count c = cs.count c := by
  induction styles generalizing cs with
  | nil => rfl
  | cons style styles ih =>
    obtain ⟨hon, hon'⟩ := List.forall_mem_cons.1 h.on
    obtain ⟨hoff, hoff'⟩ := List.forall_mem_cons.1 h.off
    rw [List.foldl_cons, ih ⟨hon', hoff', h.reset⟩, Style.resume,
      Text.count_replacePart hoff (by simp [hon, hoff])]

theorem Inert.count_paint (h : Inert styles c) (text : String) :
    (paint styles text).toList.count c = text.toList.count c := by
  have hon : c ∉ styles.flatMap Style.on := by
    intro hm
    obtain ⟨style, hs, hc⟩ := List.mem_flatMap.1 hm
    exact h.on style hs hc
  have hoff : c ∉ styles.flatMap Style.off := by
    intro hm
    obtain ⟨style, hs, hc⟩ := List.mem_flatMap.1 hm
    exact h.off style hs hc
  rw [paint, String.toList_ofList, List.count_append, List.count_append,
    List.count_eq_zero_of_not_mem hon, List.count_eq_zero_of_not_mem hoff, Nat.zero_add,
    Nat.add_zero, count_releaseLineEnds hoff hon]
  split
  · rw [count_releaseResets h.reset hoff hon, h.count_resume]
  · rfl

theorem Inert.count_paintIf (h : Inert styles c) (colour : Bool) (text : String) :
    (paintIf colour styles text).toList.count c = text.toList.count c := by
  cases colour with
  | false => rfl
  | true => exact h.count_paint text

end Terminal

end MethodMarkers
