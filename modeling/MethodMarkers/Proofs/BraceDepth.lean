import MethodMarkers.Proofs.BlockFollowing
import Mathlib.Data.List.Infix

namespace MethodMarkers

/-- How many more braces a text opens than it closes; below 0 where it closes more. -/
def braceDepth (cs : List Char) : Int :=
  cs.count '{' - cs.count '}'

def Line.chars (lines : List Line) : List Char :=
  lines.flatMap fun line => line.text.toList

/-- The position of the first line of which something holds, given the lines in front of it, or
none where it holds of no line. -/
def IsFirst (holds : List Line → Line → Prop) (lines : List Line) : Option Nat → Prop
  | none => ∀ i line, lines[i]? = some line → ¬ holds (lines.take i) line
  | some i =>
    (∃ line, lines[i]? = some line ∧ holds (lines.take i) line) ∧
      ∀ k < i, ∀ line, lines[k]? = some line → ¬ holds (lines.take k) line

/-- Some brace of a text takes the depth, which the text finds at `start`, from 0 to 1. -/
def Rises (start : Int) (cs : List Char) : Prop :=
  ∃ before behind, cs = before ++ '{' :: behind ∧ start + braceDepth before = 0

namespace Line

def Opens (front : List Line) (line : Line) : Prop :=
  Rises (braceDepth (chars front)) line.text.toList

/-- The line holds a closing brace and leaves the depth at 0, which it or a line in front of it had
taken above 0. -/
structure Closes (front : List Line) (line : Line) : Prop where
  mem : '}' ∈ line.text.toList
  depth_eq : braceDepth (chars (front ++ [line])) = 0
  was_deep : ∃ cs, cs <+: chars (front ++ [line]) ∧ 0 < braceDepth cs

end Line

variable {holds : List Line → Line → Prop} {lines : List Line} {line : Line} {i : Nat}
  {start : Int} {read cs : List Char} {c : Char} {block before : Block}

section Depth

@[simp] theorem braceDepth_nil : braceDepth [] = 0 :=
  rfl

theorem braceDepth_append (xs ys : List Char) :
    braceDepth (xs ++ ys) = braceDepth xs + braceDepth ys := by
  simp only [braceDepth, List.count_append]
  omega

theorem braceDepth_singleton (c : Char) :
    braceDepth [c] = (if c = '{' then 1 else 0) - if c = '}' then 1 else 0 := by
  simp only [braceDepth, List.count_singleton, beq_iff_eq]
  split <;> split <;> rfl

theorem Line.chars_append_singleton (lines : List Line) (line : Line) :
    chars (lines ++ [line]) = chars lines ++ line.text.toList := by
  rw [chars, List.flatMap_append, List.flatMap_singleton]
  rfl

theorem not_rises_nil (start : Int) : ¬ Rises start [] := by
  rintro ⟨before, behind, he, -⟩
  simp at he

theorem rises_append_singleton :
    Rises start (cs ++ [c]) ↔ Rises start cs ∨ c = '{' ∧ start + braceDepth cs = 0 := by
  constructor
  · rintro ⟨before, behind, he, hz⟩
    rcases List.eq_nil_or_concat behind with rfl | ⟨behind, d, rfl⟩
    · obtain ⟨rfl, hc⟩ := List.append_inj' he rfl
      exact .inr ⟨List.singleton_inj.1 hc, hz⟩
    · rw [List.concat_eq_append, ← List.cons_append, ← List.append_assoc] at he
      obtain ⟨rfl, -⟩ := List.append_inj' he rfl
      exact .inl ⟨before, behind, rfl, hz⟩
  · rintro (⟨before, behind, rfl, hz⟩ | ⟨rfl, hz⟩)
    · exact ⟨before, behind ++ [c], by simp, hz⟩
    · exact ⟨cs, [], rfl, hz⟩

theorem exists_deep_append {xs ys : List Char} :
    (∃ cs, cs <+: xs ++ ys ∧ 0 < braceDepth cs) ↔
      (∃ cs, cs <+: xs ∧ 0 < braceDepth cs) ∨
        ∃ cs, cs <+: ys ∧ 0 < braceDepth xs + braceDepth cs := by
  constructor
  · rintro ⟨cs, hcs, hd⟩
    rcases List.prefix_or_prefix_of_prefix hcs (List.prefix_append xs ys) with hx | ⟨more, rfl⟩
    · exact .inl ⟨cs, hx, hd⟩
    · rw [braceDepth_append] at hd
      exact .inr ⟨more, (List.prefix_append_right_inj xs).1 hcs, hd⟩
  · rintro (⟨cs, hcs, hd⟩ | ⟨cs, hcs, hd⟩)
    · exact ⟨cs, hcs.trans (List.prefix_append xs ys), hd⟩
    · rw [← braceDepth_append] at hd
      exact ⟨xs ++ cs, (List.prefix_append_right_inj xs).2 hcs, hd⟩

end Depth

section First

theorem IsFirst.append (h : IsFirst holds lines (some i)) (more : List Line) :
    IsFirst holds (lines ++ more) (some i) := by
  obtain ⟨⟨line, hl, hh⟩, hk⟩ := h
  have hi := (List.getElem?_eq_some_iff.1 hl).1
  refine ⟨⟨line, ?_, ?_⟩, fun k hki earlier he => ?_⟩
  · rw [List.getElem?_append_left hi, hl]
  · rwa [List.take_append_of_le_length (Nat.le_of_lt hi)]
  · have hkl := Nat.lt_trans hki hi
    rw [List.getElem?_append_left hkl] at he
    rw [List.take_append_of_le_length (Nat.le_of_lt hkl)]
    exact hk k hki earlier he

theorem IsFirst.last (h : IsFirst holds lines none) (hh : holds lines line) :
    IsFirst holds (lines ++ [line]) (some lines.length) := by
  refine ⟨⟨line, List.getElem?_concat_length, by rwa [List.take_left]⟩, fun k hk earlier he => ?_⟩
  rw [List.getElem?_append_left hk] at he
  rw [List.take_append_of_le_length (Nat.le_of_lt hk)]
  exact h k earlier he

theorem IsFirst.none_append (h : IsFirst holds lines none) (hh : ¬ holds lines line) :
    IsFirst holds (lines ++ [line]) none := by
  intro k other hk
  by_cases hlt : k < lines.length
  · rw [List.getElem?_append_left hlt] at hk
    rw [List.take_append_of_le_length (Nat.le_of_lt hlt)]
    exact h k other hk
  · have hk' := (List.getElem?_eq_some_iff.1 hk).1
    rw [List.length_append, List.length_singleton] at hk'
    obtain rfl : k = lines.length := by omega
    rw [List.getElem?_concat_length, Option.some.injEq] at hk
    rwa [List.take_left, ← hk]

theorem IsFirst.lt_length (h : IsFirst holds lines (some i)) : i < lines.length := by
  obtain ⟨⟨line, hl, -⟩, -⟩ := h
  exact (List.getElem?_eq_some_iff.1 hl).1

end First

namespace Block

theorem readChar_depth (line : Line) (block : Block) (c : Char) :
    (readChar line block c).depth = block.depth + braceDepth [c] := by
  unfold readChar
  split
  · rfl
  · rfl
  · next ho hc => rw [braceDepth_singleton, if_neg ho, if_neg hc, Int.sub_zero, Int.add_zero]

theorem readChar_opened (hd : 0 < block.depth → block.opened = true) (line : Line) (c : Char) :
    (readChar line block c).opened = true ↔
      block.opened = true ∨ 0 < block.depth + braceDepth [c] := by
  have hle (h : braceDepth [c] ≤ 0) (hlt : 0 < block.depth + braceDepth [c]) :
      block.opened = true := hd (by omega)
  unfold readChar
  split
  · rw [Bool.or_eq_true, decide_eq_true_eq]
    exact or_congr_right Int.lt_add_one_iff.symm
  · exact (or_iff_left_of_imp (hle (by decide))).symm
  · next ho hc =>
    rw [braceDepth_singleton, if_neg ho, if_neg hc] at hle ⊢
    exact (or_iff_left_of_imp (hle (Int.le_refl 0))).symm

theorem readChar_opening (line : Line) (block : Block) (c : Char) :
    (readChar line block c).opening =
      if c = '{' ∧ block.depth = 0 then block.opening.or (some line) else block.opening := by
  unfold readChar
  split
  · simp only [true_and, Option.orElse_eq_orElse, Option.orElse_eq_or]
  · rfl
  · next ho hc => rw [if_neg fun h => ho h.1]

theorem readChar_closing (line : Line) (block : Block) (c : Char) :
    (readChar line block c).closing = block.closing := by
  unfold readChar
  split <;> rfl

structure Tracks (line : Line) (before : Block) (read : List Char) (block : Block) : Prop where
  depth_eq : block.depth = before.depth + braceDepth read
  opened_iff : block.opened = true ↔
    before.opened = true ∨ ∃ cs, cs <+: read ∧ 0 < before.depth + braceDepth cs
  opening_of_rises : Rises before.depth read → block.opening = before.opening.or (some line)
  opening_of_not_rises : ¬ Rises before.depth read → block.opening = before.opening
  closing_eq : block.closing = before.closing

theorem Tracks.new (hd : 0 < before.depth → before.opened = true) (line : Line) :
    Tracks line before [] { before with lastFed := some line } where
  depth_eq := (Int.add_zero before.depth).symm
  opened_iff := by
    refine ⟨Or.inl, fun h => h.elim id ?_⟩
    rintro ⟨cs, hcs, hlt⟩
    rw [List.prefix_nil.1 hcs, braceDepth_nil, Int.add_zero] at hlt
    exact hd hlt
  opening_of_rises h := absurd h (not_rises_nil _)
  opening_of_not_rises _ := rfl
  closing_eq := rfl

theorem Tracks.opened_of_deep (h : Tracks line before read block) (hd : 0 < block.depth) :
    block.opened = true := by
  rw [h.depth_eq] at hd
  exact h.opened_iff.2 (.inr ⟨read, List.prefix_rfl, hd⟩)

theorem Tracks.readChar (h : Tracks line before read block) (c : Char) :
    Tracks line before (read ++ [c]) (readChar line block c) := by
  have hdepth : block.depth + braceDepth [c] = before.depth + braceDepth (read ++ [c]) := by
    rw [h.depth_eq, braceDepth_append, Int.add_assoc]
  have hrises : Rises before.depth (read ++ [c]) ↔
      Rises before.depth read ∨ c = '{' ∧ block.depth = 0 := by
    rw [rises_append_singleton, h.depth_eq]
  refine ⟨?_, ?_, fun hr => ?_, fun hr => ?_, ?_⟩
  · rw [readChar_depth, hdepth]
  · rw [readChar_opened h.opened_of_deep, hdepth, h.opened_iff, or_assoc]
    simp only [List.prefix_concat_iff, or_and_right, exists_or, exists_eq_left]
    rw [or_comm (a := ∃ _, _)]
  · rw [readChar_opening]
    by_cases hbefore : Rises before.depth read
    · rw [h.opening_of_rises hbefore, Option.or_assoc, Option.or_self, ite_self]
    · rw [if_pos ((hrises.1 hr).resolve_left hbefore), h.opening_of_not_rises hbefore]
  · rw [hrises, not_or] at hr
    rw [readChar_opening, if_neg hr.2, h.opening_of_not_rises hr.1]
  · rw [readChar_closing, h.closing_eq]

theorem tracks_readLine (hd : 0 < block.depth → block.opened = true) (line : Line) :
    Tracks line block line.text.toList (block.readLine line) := by
  unfold readLine
  generalize line.text.toList = cs
  induction cs using List.reverseRecOn with
  | nil => exact .new hd line
  | append_singleton cs c ih =>
    rw [List.foldl_append]
    exact ih.readChar c

/-- Where a block fed some lines opened and closed, told by the depth of their braces. -/
structure Located (lines : List Line) (opening closing : Option Nat) (block : Block) : Prop where
  opening_first : IsFirst Line.Opens lines opening
  closing_first : IsFirst Line.Closes lines closing
  opening_eq : block.opening = opening.bind (lines[·]?)
  closing_eq : block.closing = closing.bind (lines[·]?)
  finished_eq : block.finished = closing.isSome
  depth_eq : closing = none → block.depth = braceDepth (Line.chars lines)
  opened_iff : closing = none →
    (block.opened = true ↔ ∃ cs, cs <+: Line.chars lines ∧ 0 < braceDepth cs)
  ordered : ∀ j ∈ closing, ∃ i ∈ opening, i ≤ j

namespace Located

variable {opening closing : Option Nat}

theorem new (line : Line) : Located [] none none { define := some line } where
  opening_first _ _ h := nomatch h
  closing_first _ _ h := nomatch h
  opening_eq := rfl
  closing_eq := rfl
  finished_eq := rfl
  depth_eq _ := rfl
  opened_iff _ := by
    refine ⟨nofun, ?_⟩
    rintro ⟨cs, hcs, hd⟩
    rw [List.prefix_nil.1 hcs] at hd
    exact absurd hd (Int.lt_irrefl 0)
  ordered _ h := nomatch h

theorem getElem?_append (hi : IsFirst holds lines (some i)) (more : List Line) :
    (some i).bind ((lines ++ more)[·]?) = (some i).bind (lines[·]?) :=
  List.getElem?_append_left hi.lt_length

theorem append_of_closed {j : Nat} (h : Located lines opening (some j) block) (line : Line) :
    Located (lines ++ [line]) opening (some j) block := by
  obtain ⟨i, hi, hij⟩ := h.ordered j rfl
  obtain rfl : opening = some i := hi
  refine ⟨h.opening_first.append [line], h.closing_first.append [line], ?_, ?_, h.finished_eq,
    nofun, nofun, h.ordered⟩
  · rw [h.opening_eq, getElem?_append h.opening_first]
  · rw [h.closing_eq, getElem?_append h.closing_first]

section Unclosed

variable {read : Block} (h : Located lines opening none block)
  (ht : Tracks line block line.text.toList read)
include h ht

theorem depth_append : read.depth = braceDepth (Line.chars (lines ++ [line])) := by
  rw [ht.depth_eq, h.depth_eq rfl, Line.chars_append_singleton, braceDepth_append]

theorem opened_append : read.opened = true ↔
    ∃ cs, cs <+: Line.chars (lines ++ [line]) ∧ 0 < braceDepth cs := by
  rw [ht.opened_iff, h.opened_iff rfl, h.depth_eq rfl, Line.chars_append_singleton,
    exists_deep_append]

theorem closesWith_iff : read.closesWith line = true ↔ line.Closes lines := by
  rw [closesWith, Bool.and_eq_true, Bool.and_eq_true, decide_eq_true_iff, List.contains_iff_mem,
    h.depth_append ht, h.opened_append ht]
  constructor
  · rintro ⟨⟨hd, hm⟩, ho⟩
    exact ⟨hm, hd, ho⟩
  · rintro ⟨hm, hd, ho⟩
    exact ⟨⟨hd, hm⟩, ho⟩

theorem opening_append : ∃ next, IsFirst Line.Opens (lines ++ [line]) next ∧
    read.opening = next.bind ((lines ++ [line])[·]?) := by
  have hr : Rises block.depth line.text.toList ↔ line.Opens lines := by
    rw [h.depth_eq rfl, Line.Opens]
  have hopening := h.opening_eq
  have hfirst := h.opening_first
  by_cases ho : line.Opens lines
  · have he := ht.opening_of_rises (hr.2 ho)
    cases opening with
    | none =>
      refine ⟨some lines.length, hfirst.last ho, ?_⟩
      rw [he, hopening]
      exact List.getElem?_concat_length.symm
    | some i =>
      refine ⟨some i, hfirst.append [line], ?_⟩
      rw [he, hopening, getElem?_append hfirst, Option.bind_some,
        List.getElem?_eq_getElem hfirst.lt_length, Option.some_or]
  · have he := ht.opening_of_not_rises (mt hr.1 ho)
    cases opening with
    | none => exact ⟨none, hfirst.none_append ho, he.trans hopening⟩
    | some i =>
      refine ⟨some i, hfirst.append [line], ?_⟩
      rw [he, hopening, getElem?_append hfirst]

end Unclosed

/-- A further line keeps a block where the depth of its braces says. -/
theorem step (h : Located lines opening closing block)
    (hf : block.finished = false → Fed lines block) (line : Line) :
    ∃ opening closing, Located (lines ++ [line]) opening closing (block.step line) := by
  cases closing with
  | some j =>
    rw [step_of_finished h.finished_eq]
    exact ⟨opening, some j, h.append_of_closed line⟩
  | none =>
    have hu : block.finished = false := h.finished_eq
    have ht := tracks_readLine (hf hu).opened_of_deep line
    obtain ⟨next, hnext, hopening⟩ := h.opening_append ht
    rw [step_of_unfinished hu]
    split
    · next hc =>
      have hcloses := (h.closesWith_iff ht).1 hc
      refine ⟨next, some lines.length, hnext, h.closing_first.last hcloses, hopening,
        List.getElem?_concat_length.symm, rfl, nofun, nofun, ?_⟩
      rintro j ⟨⟩
      obtain ⟨first, hfirst⟩ := ((hf hu).readLine line).opening_of_opened
        ((h.opened_append ht).2 hcloses.was_deep)
      rw [hopening, Option.bind_eq_some_iff] at hfirst
      obtain ⟨i, hi, -⟩ := hfirst
      subst hi
      have hlt := hnext.lt_length
      rw [List.length_append, List.length_singleton] at hlt
      exact ⟨i, rfl, Nat.le_of_lt_succ hlt⟩
    · next hc =>
      have hopen : ¬ line.Closes lines := mt (h.closesWith_iff ht).2 hc
      refine ⟨next, none, hnext, h.closing_first.none_append hopen, hopening, ?_, ?_,
        fun _ => h.depth_append ht, fun _ => h.opened_append ht, nofun⟩
      · rw [ht.closing_eq, h.closing_eq]
        rfl
      · rw [(readLine_frame block line).2, h.finished_eq]

end Located

theorem exists_located (define : Line) (lines : List Line) :
    ∃ opening closing, Located lines opening closing
      (lines.foldl step { define := some define }) := by
  induction lines using List.reverseRecOn with
  | nil => exact ⟨none, none, .new define⟩
  | append_singleton lines line ih =>
    obtain ⟨opening, closing, h⟩ := ih
    rw [List.foldl_append]
    exact h.step (foldl_step_fed define lines) line

def feedEach (block : Block) (lines : List Line) : Option Block :=
  lines.foldlM (fun block line => (block.feed line).map Traced.value) block

theorem feedEach_of_started (h : block.define = some line) (lines : List Line) :
    block.feedEach lines = some (lines.foldl step block) := by
  induction lines generalizing block with
  | nil => rfl
  | cons next lines ih =>
    have hfeed : (block.feed next).map Traced.value = some (block.step next) := by
      rw [feed, h]
      rfl
    rw [feedEach, List.foldlM_cons, hfeed, List.foldl_cons]
    exact ih ((step_define block next).trans h)

/-- Whatever a block followed before, once it is started on a line and fed some others, it opened
and closed where the depth of their braces says, and does not change any more when it has closed. -/
theorem restart_feedEach_located (earlier : Block) (line : Line) (lines : List Line) :
    earlier.restart line = Block.start line ∧
      ∃ block, (earlier.restart line).value.feedEach lines = some block ∧
        (∃ opening closing, Located (line :: lines) opening closing block) ∧
        (block.finished = true → ∀ more, block.feed more = some (pure block)) := by
  have hstarted : (earlier.restart line).value = step { define := some line } line := rfl
  have hdefine : (earlier.restart line).value.define = some line := by
    rw [hstarted, step_define]
  refine ⟨rfl, _, feedEach_of_started hdefine lines, ?_, fun hf more => ?_⟩
  · rw [hstarted]
    exact exists_located line (line :: lines)
  · rw [feed, foldl_step_define, hdefine, advance, if_pos hf]
    rfl

end Block

end MethodMarkers
