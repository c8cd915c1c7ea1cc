import MethodMarkers.Block
import Mathlib.Data.List.Induction

namespace MethodMarkers.Block

variable {block : Block} {line : Line} {lines : List Line}

def step (block : Block) (line : Line) : Block :=
  (block.advance line).value

/-- What a fresh block becomes when it is started on the first of some lines and fed the others. -/
def following : List Line → Block
  | [] => {}
  | line :: lines => lines.foldl step (start line).value

def readLine (block : Block) (line : Line) : Block :=
  line.text.toList.foldl (readChar line) { block with lastFed := some line }

theorem step_of_finished (h : block.finished = true) (line : Line) : block.step line = block := by
  simp only [step, advance, h, ↓reduceIte, Traced.value_pure]

theorem step_of_unfinished (h : block.finished = false) (line : Line) :
    block.step line =
      if (block.readLine line).closesWith line then
        { block.readLine line with closing := some line, finished := true }
      else block.readLine line := by
  simp only [step, advance, h, Bool.false_eq_true, ↓reduceIte, readLine]
  split <;> rfl

theorem foldl_step_of_finished (h : block.finished = true) (lines : List Line) :
    lines.foldl step block = block := by
  induction lines with
  | nil => rfl
  | cons line lines ih => rw [List.foldl_cons, step_of_finished h, ih]

theorem following_cons (line : Line) (lines : List Line) :
    following (line :: lines) = (line :: lines).foldl step { define := some line } :=
  rfl

theorem following_append (h : lines ≠ []) (more : List Line) :
    following (lines ++ more) = more.foldl step (following lines) := by
  cases lines with
  | nil => exact absurd rfl h
  | cons line lines => rw [List.cons_append, following, following, List.foldl_append]

theorem following_append_of_finished (h : (following lines).finished = true) (more : List Line) :
    following (lines ++ more) = following lines := by
  cases lines with
  | nil => cases h
  | cons line lines =>
    rw [following_append (List.cons_ne_nil line lines), foldl_step_of_finished h]

theorem readChar_frame (line : Line) (block : Block) (c : Char) :
    (readChar line block c).define = block.define ∧
      (readChar line block c).finished = block.finished := by
  unfold readChar
  split <;> exact ⟨rfl, rfl⟩

theorem readLine_frame (block : Block) (line : Line) :
    (block.readLine line).define = block.define ∧
      (block.readLine line).finished = block.finished := by
  unfold readLine
  generalize line.text.toList = cs
  induction cs using List.reverseRecOn with
  | nil => exact ⟨rfl, rfl⟩
  | append_singleton cs c ih =>
    rw [List.foldl_append, List.foldl_cons, List.foldl_nil]
    obtain ⟨hd, hf⟩ := readChar_frame line (cs.foldl (readChar line) _) c
    exact ⟨hd.trans ih.1, hf.trans ih.2⟩

theorem step_define (block : Block) (line : Line) : (block.step line).define = block.define := by
  by_cases h : block.finished = true
  · rw [step_of_finished h]
  · rw [step_of_unfinished (Bool.eq_false_iff.2 h)]
    split <;> exact (readLine_frame block line).1

theorem foldl_step_define (block : Block) (lines : List Line) :
    (lines.foldl step block).define = block.define :=
  List.foldlRecOn lines step (motive := fun read => read.define = block.define) rfl
    fun read h line _ => (step_define read line).trans h

@[simp] theorem following_define (line : Line) (lines : List Line) :
    (following (line :: lines)).define = some line := by
  rw [following_cons, foldl_step_define]

/-- What holds of every block that has been fed some lines, and while it is fed the last of them. -/
structure Fed (lines : List Line) (block : Block) : Prop where
  opening_mem : ∀ first, block.opening = some first → first ∈ lines
  opening_of_opened : block.opened = true → ∃ first, block.opening = some first
  opened_of_deep : 0 < block.depth → block.opened = true

theorem Fed.new (line : Line) : Fed [] { define := some line } where
  opening_mem _ hf := nomatch hf
  opening_of_opened ho := nomatch ho
  opened_of_deep hd := absurd hd (Int.lt_irrefl 0)

theorem Fed.weaken (h : Fed lines block) (line : Line) :
    Fed (lines ++ [line]) { block with lastFed := some line } where
  opening_mem first hf := List.mem_append_left _ (h.opening_mem first hf)
  opening_of_opened := h.opening_of_opened
  opened_of_deep := h.opened_of_deep

theorem Fed.readChar (h : Fed lines block) (hl : line ∈ lines) (c : Char) :
    Fed lines (readChar line block c) := by
  unfold Block.readChar
  split
  · refine ⟨fun first hf => ?_, fun ho => ?_, fun hd => ?_⟩
    · by_cases hz : block.depth = 0
      · simp only [hz, ↓reduceIte, Option.orElse_eq_orElse, Option.orElse_eq_or,
          Option.or_eq_some_iff, Option.some.injEq] at hf
        rcases hf with hf | ⟨-, hf⟩
        · exact h.opening_mem first hf
        · exact hf ▸ hl
      · simp only [hz, ↓reduceIte] at hf
        exact h.opening_mem first hf
    · by_cases hz : block.depth = 0
      · cases block.opening <;> simp [hz]
      · simp only [hz, ↓reduceIte]
        simp only [Bool.or_eq_true, decide_eq_true_eq] at ho
        rcases ho with ho | ho
        · exact h.opening_of_opened ho
        · exact h.opening_of_opened (h.opened_of_deep (by omega))
    · simp only [Bool.or_eq_true, decide_eq_true_eq] at hd ⊢
      exact .inr (by omega)
  · refine ⟨h.opening_mem, h.opening_of_opened, fun hd => h.opened_of_deep ?_⟩
    simp only at hd
    omega
  · exact h

theorem Fed.readLine (h : Fed lines block) (line : Line) :
    Fed (lines ++ [line]) (block.readLine line) :=
  List.foldlRecOn line.text.toList (Block.readChar line) (h.weaken line)
    fun _ h c _ => h.readChar (List.mem_append_right _ (List.mem_singleton_self line)) c

structure Ends (lines : List Line) (block : Block) (i j : Nat) : Prop where
  opening_eq : block.opening = lines[i]?
  closing_eq : block.closing = lines[j]?

theorem Fed.ends_of_closesWith (h : Fed (lines ++ [line]) block) (hc : block.closesWith line) :
    ∃ i ≤ lines.length,
      Ends (lines ++ [line]) { block with closing := some line, finished := true }
        i lines.length := by
  simp only [closesWith, Bool.and_eq_true] at hc
  obtain ⟨first, hf⟩ := h.opening_of_opened hc.2
  obtain ⟨i, hi, hfirst⟩ := List.mem_iff_getElem.1 (h.opening_mem first hf)
  have hle : i < lines.length + 1 := by
    rwa [List.length_append, List.length_singleton] at hi
  refine ⟨i, Nat.le_of_lt_succ hle, ?_, List.getElem?_concat_length.symm⟩
  rw [List.getElem?_eq_getElem hi, hfirst]
  exact hf

theorem foldl_step_fed (define : Line) (lines : List Line)
    (hu : (lines.foldl step { define := some define }).finished = false) :
    Fed lines (lines.foldl step { define := some define }) := by
  induction lines using List.reverseRecOn with
  | nil => exact .new define
  | append_singleton lines line ih =>
    rw [List.foldl_append, List.foldl_cons, List.foldl_nil] at hu ⊢
    by_cases hb : (lines.foldl step { define := some define }).finished = true
    · rw [step_of_finished hb, hb] at hu
      cases hu
    · have hb := Bool.eq_false_iff.2 hb
      rw [step_of_unfinished hb] at hu ⊢
      split at hu
      · cases hu
      · next hc =>
        rw [if_neg hc]
        exact (ih hb).readLine line

/-- A block closes with the last of the lines it needs, and this or an earlier line opened it. -/
theorem exists_ends (hu : (following lines).finished = false)
    (hf : (following (lines ++ [line])).finished = true) :
    ∃ i ≤ lines.length, Ends (lines ++ [line]) (following (lines ++ [line])) i lines.length := by
  have hstep : ∃ block, block.finished = false ∧ Fed lines block ∧
      following (lines ++ [line]) = block.step line := by
    cases lines with
    | nil => exact ⟨_, rfl, .new line, rfl⟩
    | cons define lines =>
      exact ⟨_, hu, foldl_step_fed define (define :: lines) hu, following_append (by simp) [line]⟩
  obtain ⟨block, hb, hfed, he⟩ := hstep
  rw [he, step_of_unfinished hb] at hf ⊢
  split at hf
  · next hc =>
    rw [if_pos hc]
    exact (hfed.readLine line).ends_of_closesWith hc
  · rw [(readLine_frame block line).2, hb] at hf
    cases hf

end MethodMarkers.Block
