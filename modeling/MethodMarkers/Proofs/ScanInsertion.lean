import MethodMarkers.Proofs.LineInstrumentation
import Mathlib.Data.Option.Basic
import Mathlib.Order.Monotone.Basic

namespace MethodMarkers

def isBrace (c : Char) : Bool :=
  c == '{' || c == '}'

def braces (text : String) : List Char :=
  text.toList.filter isBrace

namespace Block

variable {g : Line → Line} {block other : Block} {line : Line} {lines : List Line}

theorem readChar_of_not_brace {c : Char} (h : isBrace c = false) (line : Line) (block : Block) :
    readChar line block c = block := by
  rw [isBrace, Bool.or_eq_false_iff, beq_eq_false_iff_ne, beq_eq_false_iff_ne] at h
  unfold readChar
  split
  · exact absurd rfl h.1
  · exact absurd rfl h.2
  · rfl

theorem readLine_eq_braces (block : Block) (line : Line) :
    block.readLine line =
      (braces line.text).foldl (readChar line) { block with lastFed := some line } := by
  rw [readLine, braces, List.foldl_filter]
  congr 1
  funext read c
  split
  · rfl
  · next h => exact readChar_of_not_brace (Bool.eq_false_iff.2 h) line read

theorem closesWith_eq_braces (block : Block) (line : Line) :
    block.closesWith line =
      (decide (block.depth = 0) && (braces line.text).contains '}' && block.opened) := by
  have hc : (braces line.text).contains '}' = line.text.toList.contains '}' := by
    rw [Bool.eq_iff_iff, List.contains_iff_mem, List.contains_iff_mem, braces, List.mem_filter]
    exact and_iff_left rfl
  rw [closesWith, hc]

/-- A block and one that has taken the same course over the images of its lines. -/
structure Image (g : Line → Line) (block other : Block) : Prop where
  opening_eq : other.opening = block.opening.map g
  closing_eq : other.closing = block.closing.map g
  depth_eq : other.depth = block.depth
  finished_eq : other.finished = block.finished
  opened_eq : other.opened = block.opened

namespace Image

theorem new (g : Line → Line) (line : Line) :
    Image g { define := some line } { define := some (g line) } :=
  ⟨rfl, rfl, rfl, rfl, rfl⟩

theorem weaken (h : Image g block other) (fed fed' : Option Line) :
    Image g { block with lastFed := fed } { other with lastFed := fed' } :=
  ⟨h.opening_eq, h.closing_eq, h.depth_eq, h.finished_eq, h.opened_eq⟩

theorem readChar (h : Image g block other) (line : Line) (c : Char) :
    Image g (Block.readChar line block c) (Block.readChar (g line) other c) := by
  obtain ⟨ho, hc, hd, hf, hp⟩ := h
  unfold Block.readChar
  split
  · refine ⟨?_, hc, ?_, hf, ?_⟩
    · dsimp only
      rw [ho, hd]
      cases block.opening <;> split <;> rfl
    · dsimp only
      rw [hd]
    · dsimp only
      rw [hd, hp]
  · refine ⟨ho, hc, ?_, hf, hp⟩
    dsimp only
    rw [hd]
  · exact ⟨ho, hc, hd, hf, hp⟩

theorem readLine (h : Image g block other) (hb : braces (g line).text = braces line.text) :
    Image g (block.readLine line) (other.readLine (g line)) := by
  rw [readLine_eq_braces, readLine_eq_braces, hb]
  generalize braces line.text = cs
  induction cs using List.reverseRecOn with
  | nil => exact h.weaken _ _
  | append_singleton cs c ih =>
    rw [List.foldl_append, List.foldl_append]
    exact ih.readChar line c

theorem closesWith (h : Image g block other) (hb : braces (g line).text = braces line.text) :
    other.closesWith (g line) = block.closesWith line := by
  rw [closesWith_eq_braces, closesWith_eq_braces, hb, h.depth_eq, h.opened_eq]

theorem step (h : Image g block other) (hb : braces (g line).text = braces line.text) :
    Image g (block.step line) (other.step (g line)) := by
  by_cases hf : block.finished = true
  · rw [step_of_finished hf, step_of_finished (h.finished_eq.trans hf)]
    exact h
  · have hf := Bool.eq_false_iff.2 hf
    have hr := h.readLine hb
    rw [step_of_unfinished hf, step_of_unfinished (h.finished_eq.trans hf), hr.closesWith hb]
    split
    · exact ⟨hr.opening_eq, rfl, hr.depth_eq, rfl, hr.opened_eq⟩
    · exact hr

theorem step_of_plain (h : Image g block other) (hb : braces line.text = []) :
    Image g block (other.step line) := by
  by_cases hf : other.finished = true
  · rw [step_of_finished hf]
    exact h
  · have hr : other.readLine line = { other with lastFed := some line } := by
      rw [readLine_eq_braces, hb, List.foldl_nil]
    rw [step_of_unfinished (Bool.eq_false_iff.2 hf), hr, closesWith_eq_braces, hb,
      List.contains_nil, Bool.and_false, Bool.false_and, if_neg Bool.false_ne_true]
    exact h.weaken _ _

theorem foldl_plain (h : Image g block other) (hb : ∀ line ∈ lines, braces line.text = []) :
    Image g block (lines.foldl Block.step other) := by
  induction lines using List.reverseRecOn with
  | nil => exact h
  | append_singleton lines line ih =>
    rw [List.foldl_append]
    have hlines := ih fun line hl => hb line (List.mem_append_left _ hl)
    exact hlines.step_of_plain
      (hb line (List.mem_append_right lines (List.mem_singleton_self line)))

theorem foldl_flatMap {before after : Line → List Line} (h : Image g block other)
    (hb : ∀ line ∈ lines, braces (g line).text = braces line.text)
    (hi : ∀ line ∈ lines, ∀ new ∈ before line ++ after line, braces new.text = []) :
    Image g (lines.foldl Block.step block)
      ((lines.flatMap fun line => before line ++ g line :: after line).foldl Block.step other) := by
  induction lines generalizing block other with
  | nil => exact h
  | cons line lines ih =>
    rw [List.flatMap_cons, List.foldl_cons, List.foldl_append, List.foldl_append, List.foldl_cons]
    have hline := hi line List.mem_cons_self
    have hbefore := h.foldl_plain fun new hn => hline new (List.mem_append_left _ hn)
    have hstep := hbefore.step (hb line List.mem_cons_self)
    have hafter := hstep.foldl_plain fun new hn => hline new (List.mem_append_right _ hn)
    apply ih hafter
    · intro line hl
      exact hb line (List.mem_cons_of_mem _ hl)
    · intro line hl
      exact hi line (List.mem_cons_of_mem _ hl)

theorem following {before after : Line → List Line}
    (hb : ∀ other ∈ line :: lines, braces (g other).text = braces other.text)
    (hi : ∀ other ∈ line :: lines, ∀ new ∈ before other ++ after other, braces new.text = []) :
    Image g (Block.following (line :: lines)) (Block.following (g line :: (after line ++
      lines.flatMap fun other => before other ++ g other :: after other))) := by
  rw [following_cons, following_cons, List.foldl_cons, List.foldl_cons, List.foldl_append]
  have hline := (Image.new g line).step (hb line List.mem_cons_self)
  have hafter := hline.foldl_plain fun new hn =>
    hi line List.mem_cons_self new (List.mem_append_right _ hn)
  apply hafter.foldl_flatMap
  · intro other ho
    exact hb other (List.mem_cons_of_mem line ho)
  · intro other ho
    exact hi other (List.mem_cons_of_mem line ho)

end Image

end Block

def Candidate.shift (place : Nat → Nat) (c : Candidate) : Candidate :=
  { c with define := place c.define }

theorem Candidate.shift_injective {place : Nat → Nat} (h : Function.Injective place) :
    Function.Injective (Candidate.shift place) := by
  rintro ⟨name, i⟩ ⟨name', j⟩ he
  obtain ⟨hname, hplace⟩ := Candidate.mk.inj he
  exact congr (congrArg Candidate.mk hname) (h hplace)

def Span.shift (place : Nat → Nat) (span : Span) : Span :=
  { span.toCandidate.shift place with
    opening := place span.opening
    closing := place span.closing }

def Outline.shift (place : Nat → Nat) (outline : Outline) : Outline :=
  ⟨outline.spans.map (Span.shift place), outline.pending.map (Candidate.shift place)⟩

/-- Lines that stand among others, each at its place, so that a scan finds the same methods in
both. -/
structure Line.Embeds (place : Nat → Nat) (g : Line → Line) (lines others : List Line) : Prop where
  strictMono : StrictMono place
  getElem?_place : ∀ i, others[place i]? = lines[i]?.map g
  methodName?_eq : ∀ line ∈ lines, (g line).methodName? = line.methodName?
  /-- What stands between the lines is no candidate. -/
  quiet : ∀ (k : Nat) (line : Line), others[k]? = some line →
    (∃ i, k = place i) ∨ line.methodName? = none
  following : ∀ d < lines.length,
    (Block.following (lines.drop d)).Image g (Block.following (others.drop (place d)))

namespace Line.Embeds

variable {place : Nat → Nat} {g : Line → Line} {lines others : List Line} {c : Candidate}
  {span : Span} {outline : Outline} {i : Nat}

theorem lt_length (h : Line.Embeds place g lines others) (hi : i < lines.length) :
    place i < others.length := by
  have hget := h.getElem?_place i
  rw [List.getElem?_eq_getElem hi] at hget
  exact (List.getElem?_eq_some_iff.1 hget).1

theorem stands (h : Line.Embeds place g lines others) (hc : c.Stands lines) :
    (c.shift place).Stands others := by
  obtain ⟨line, hl, hn⟩ := hc
  refine ⟨g line, ?_, ?_⟩
  · rw [Candidate.shift, h.getElem?_place, hl, Option.map_some]
  · rw [h.methodName?_eq line (List.mem_of_getElem? hl), hn]
    rfl

theorem lies (h : Line.Embeds place g lines others) (hs : span.Lies lines) :
    (span.shift place).Lies others := by
  have hlt : span.define < lines.length :=
    Nat.lt_of_le_of_lt (Nat.le_trans hs.define_le hs.opening_le) hs.closing_lt
  have hf := h.following span.define hlt
  constructor
  · exact h.strictMono.monotone hs.define_le
  · exact h.strictMono.monotone hs.opening_le
  · exact h.lt_length hs.closing_lt
  · exact hf.finished_eq.trans hs.finished
  · constructor
    · exact (hf.opening_eq.trans (congrArg _ hs.ends.opening_eq)).trans (h.getElem?_place _).symm
    · exact (hf.closing_eq.trans (congrArg _ hs.ends.closing_eq)).trans (h.getElem?_place _).symm

theorem candidates_shift (place : Nat → Nat) (outline : Outline) :
    (outline.shift place).candidates = outline.candidates.map (Candidate.shift place) := by
  rw [Outline.candidates, Outline.candidates, List.map_append, Outline.shift, List.map_map,
    List.map_map, ← Option.toList_map]
  rfl

/-- A scan of the others finds the same methods at their places. -/
theorem describes (h : Line.Embeds place g lines others) (hd : outline.Describes lines) :
    (outline.shift place).Describes others := by
  have hlt {i j : Nat} : place i < place j ↔ i < j := h.strictMono.lt_iff_lt
  constructor
  · constructor
    · intro span hs
      obtain ⟨span, hm, rfl⟩ := List.mem_map.1 hs
      exact h.lies (hd.lie span hm)
    · exact List.pairwise_map.2 (hd.apart.imp hlt.2)
    · intro span hs c hc
      obtain ⟨span, hm, rfl⟩ := List.mem_map.1 hs
      obtain ⟨c, hp, rfl⟩ := Option.mem_map.1 hc
      exact hlt.2 (hd.behind span hm c hp)
    · intro c hc
      rw [candidates_shift] at hc
      obtain ⟨c, hm, rfl⟩ := List.mem_map.1 hc
      exact h.stands (hd.stand c hm)
    · intro k line hk hs hc
      obtain ⟨i, rfl⟩ | hn := h.quiet k line hk
      · rw [h.getElem?_place] at hk
        obtain ⟨line, hl, rfl⟩ := Option.map_eq_some_iff.1 hk
        rw [h.methodName?_eq line (List.mem_of_getElem? hl)]
        apply hd.quiet i line hl
        · intro span hm
          exact (hs _ (List.mem_map_of_mem hm)).imp hlt.1 hlt.1
        · intro c hm
          exact hlt.1 (hc _ (Option.mem_map_of_mem _ hm))
      · exact hn
  · intro c hc
    rw [candidates_shift] at hc
    obtain ⟨c, hm, rfl⟩ := List.mem_map.1 hc
    have hpending : c.shift place ∈ (outline.shift place).pending ↔ c ∈ outline.pending :=
      Option.mem_map_of_injective (Candidate.shift_injective h.strictMono.injective)
    rw [hpending, hd.unclosed c hm]
    exact (h.following c.define (hd.stand c hm).lt).finished_eq ▸ Iff.rfl

end Line.Embeds

theorem Outline.Describes.ofTexts_eq {outline : Outline} {path : Option Path} {texts : List String}
    (h : outline.Describes (Buffer.ofTexts 0 path texts).lines) :
    Outline.ofTexts path texts = outline := by
  obtain ⟨scanner, -, -, hd⟩ := Scanner.exists_shows path texts
  have hn := (Buffer.ofTexts_intact 0 path texts).nodup
  obtain ⟨hspans, hpending⟩ := hd.describesFrom.unique hn h.describesFrom
  exact congr (congrArg Outline.mk hspans) hpending

end MethodMarkers
