import MethodMarkers.Text.Newline

namespace MethodMarkers.Text

def Newline.chars (newline : Newline) : List Char :=
  newline.text.toList

def Plain (chars : List Char) : Prop :=
  '\r' ∉ chars ∧ '\n' ∉ chars

instance (chars : List Char) : Decidable (Plain chars) :=
  inferInstanceAs (Decidable (_ ∧ _))

namespace CutLine

def whole (line : CutLine) : List Char :=
  line.chars ++ (line.newline.map Newline.chars).getD []

def restyle (newline : Newline) (line : CutLine) : CutLine :=
  { line with newline := line.newline.map fun _ => newline }

end CutLine

/-- Lines as they are cut from a text: only the last may have no end, and it is not empty then, and
no line ended by a carriage return stands before an empty one ended by a line feed. -/
inductive WellCut : List CutLine → Prop
  | nil : WellCut []
  | last {chars : List Char} (hp : Plain chars) (hn : chars ≠ []) : WellCut [⟨chars, none⟩]
  | cons {chars : List Char} {newline : Newline} {lines : List CutLine} (hp : Plain chars)
      (hc : newline = .cr → lines.head? ≠ some ⟨[], some .lf⟩) (hl : WellCut lines) :
      WellCut (⟨chars, some newline⟩ :: lines)

variable {c : Char} {chars text : List Char} {newline : Newline} {line : CutLine}
  {lines : List CutLine}

theorem Plain.nil : Plain [] :=
  ⟨List.not_mem_nil, List.not_mem_nil⟩

theorem plain_cons : Plain (c :: chars) ↔ c ≠ '\r' ∧ c ≠ '\n' ∧ Plain chars := by
  simp only [Plain, List.mem_cons, not_or, ne_eq, eq_comm (a := c)]
  exact and_and_and_comm.trans and_assoc

theorem consChar_cr (h : lines.head? ≠ some ⟨[], some .lf⟩) :
    consChar '\r' lines = ⟨[], some .cr⟩ :: lines := by
  cases lines with
  | nil => rfl
  | cons line lines =>
    obtain ⟨chars, newline⟩ := line
    cases chars with
    | cons => rfl
    | nil =>
      cases newline with
      | none => rfl
      | some newline =>
        cases newline with
        | lf => exact absurd rfl h
        | crlf => rfl
        | cr => rfl

theorem consChar_plain_nil (hr : c ≠ '\r') (hn : c ≠ '\n') : consChar c [] = [⟨[c], none⟩] := by
  unfold consChar
  split <;> first | rfl | contradiction

theorem consChar_plain (hr : c ≠ '\r') (hn : c ≠ '\n') (line : CutLine) (lines : List CutLine) :
    consChar c (line :: lines) = ⟨c :: line.chars, line.newline⟩ :: lines := by
  unfold consChar
  split <;> first | rfl | simp_all

theorem flatMap_whole_consChar (c : Char) (lines : List CutLine) :
    (consChar c lines).flatMap CutLine.whole = c :: lines.flatMap CutLine.whole := by
  unfold consChar
  split <;> rfl

theorem flatMap_whole_cutLines (text : List Char) :
    (cutLines text).flatMap CutLine.whole = text := by
  induction text with
  | nil => rfl
  | cons c text ih => exact (flatMap_whole_consChar c _).trans (congrArg (c :: ·) ih)

theorem WellCut.tail (h : WellCut (line :: lines)) : WellCut lines := by
  cases h with
  | last => exact .nil
  | cons _ _ hl => exact hl

theorem WellCut.plain_cons (hr : c ≠ '\r') (hn : c ≠ '\n') (h : WellCut lines) :
    WellCut (consChar c lines) := by
  cases h with
  | nil =>
    rw [consChar_plain_nil hr hn]
    exact .last (Text.plain_cons.2 ⟨hr, hn, .nil⟩) (List.cons_ne_nil _ _)
  | last hp =>
    rw [consChar_plain hr hn]
    exact .last (Text.plain_cons.2 ⟨hr, hn, hp⟩) (List.cons_ne_nil _ _)
  | cons hp hc hl =>
    rw [consChar_plain hr hn]
    exact .cons (Text.plain_cons.2 ⟨hr, hn, hp⟩) hc hl

theorem WellCut.char_cons (c : Char) (h : WellCut lines) : WellCut (consChar c lines) := by
  by_cases hn : c = '\n'
  · subst hn
    exact .cons .nil (fun he => nomatch he) h
  by_cases hr : c = '\r'
  · subst hr
    by_cases hh : lines.head? = some ⟨[], some .lf⟩
    · obtain ⟨rest, rfl⟩ := List.head?_eq_some_iff.1 hh
      exact .cons .nil (fun he => nomatch he) h.tail
    · rw [consChar_cr hh]
      exact .cons .nil (fun _ => hh) h
  · exact h.plain_cons hr hn

theorem cutLines_wellCut (text : List Char) : WellCut (cutLines text) := by
  induction text with
  | nil => exact .nil
  | cons c text ih => exact ih.char_cons c

theorem cutLines_plain (hp : Plain chars) (hn : chars ≠ []) : cutLines chars = [⟨chars, none⟩] := by
  induction chars with
  | nil => exact absurd rfl hn
  | cons c chars ih =>
    obtain ⟨hr, hn', hp⟩ := plain_cons.1 hp
    change consChar c (cutLines chars) = _
    cases chars with
    | nil => exact consChar_plain_nil hr hn'
    | cons d chars =>
      rw [ih hp (List.cons_ne_nil _ _)]
      exact consChar_plain hr hn' _ _

theorem foldr_consChar_plain (hp : Plain chars) (line : CutLine) (lines : List CutLine) :
    chars.foldr consChar (line :: lines) = ⟨chars ++ line.chars, line.newline⟩ :: lines := by
  induction chars with
  | nil => rfl
  | cons c chars ih =>
    obtain ⟨hr, hn, hp⟩ := plain_cons.1 hp
    rw [List.foldr_cons, ih hp]
    exact consChar_plain hr hn _ _

theorem foldr_consChar_newline (hc : newline = .cr → lines.head? ≠ some ⟨[], some .lf⟩) :
    newline.chars.foldr consChar lines = ⟨[], some newline⟩ :: lines := by
  cases newline with
  | lf => rfl
  | crlf => rfl
  | cr => exact consChar_cr (hc rfl)

theorem cutLines_append (hp : Plain chars)
    (hc : newline = .cr → (cutLines text).head? ≠ some ⟨[], some .lf⟩) :
    cutLines (chars ++ newline.chars ++ text) = ⟨chars, some newline⟩ :: cutLines text := by
  have he : newline.chars.foldr consChar (text.foldr consChar []) =
      ⟨[], some newline⟩ :: cutLines text := foldr_consChar_newline hc
  rw [cutLines, List.foldr_append, List.foldr_append, he, foldr_consChar_plain hp,
    List.append_nil]

/-- Lines are cut from their own text. -/
theorem WellCut.cutLines_eq (h : WellCut lines) :
    cutLines (lines.flatMap CutLine.whole) = lines := by
  induction h with
  | nil => rfl
  | @last chars hp hn =>
    have hw : [CutLine.mk chars none].flatMap CutLine.whole = chars := by
      rw [List.flatMap_singleton]
      exact List.append_nil chars
    rw [hw]
    exact cutLines_plain hp hn
  | cons hp hc hl ih =>
    rw [← ih] at hc
    rw [List.flatMap_cons]
    exact (cutLines_append hp hc).trans (congrArg _ ih)

theorem WellCut.plain (h : WellCut lines) (hl : line ∈ lines) : Plain line.chars := by
  induction h with
  | nil => cases hl
  | last hp =>
    rw [List.mem_singleton.1 hl]
    exact hp
  | cons hp _ _ ih =>
    cases hl with
    | head => exact hp
    | tail _ hl => exact ih hl

theorem WellCut.restyle (newline : Newline) (h : WellCut lines) :
    WellCut (lines.map (CutLine.restyle newline)) := by
  induction h with
  | nil => exact .nil
  | last hp hn => exact .last hp hn
  | @cons chars _ lines hp hc hl ih =>
    refine .cons hp (fun he => ?_) ih
    subst he
    intro hh
    rw [List.head?_map, Option.map_eq_some_iff] at hh
    obtain ⟨⟨chars, ending⟩, -, hh⟩ := hh
    cases ending <;> cases hh

namespace NewlineCounts

variable {counts : NewlineCounts}

def count (counts : NewlineCounts) : Newline → Nat
  | .lf => counts.lf
  | .crlf => counts.crlf
  | .cr => counts.cr

def Only (counts : NewlineCounts) (newline : Newline) : Prop :=
  ∀ other, other ≠ newline → counts.count other = 0

theorem only_iff : counts.Only newline ↔
    (newline ≠ .lf → counts.lf = 0) ∧ (newline ≠ .crlf → counts.crlf = 0) ∧
      (newline ≠ .cr → counts.cr = 0) := by
  constructor
  · intro h
    exact ⟨fun hn => h _ hn.symm, fun hn => h _ hn.symm, fun hn => h _ hn.symm⟩
  · rintro ⟨hlf, hcrlf, hcr⟩ other hn
    cases other with
    | lf => exact hlf hn.symm
    | crlf => exact hcrlf hn.symm
    | cr => exact hcr hn.symm

theorem Only.dominant (h : counts.Only newline) : counts.Only counts.dominant := by
  rw [only_iff] at h ⊢
  rw [NewlineCounts.dominant]
  cases newline <;> grind

theorem mixed_eq_false_iff : counts.mixed = false ↔ counts.Only counts.dominant := by
  rw [only_iff, NewlineCounts.dominant, mixed]
  grind

theorem count_ofLines (lines : List CutLine) (newline : Newline) :
    (ofLines lines).count newline = lines.countP (·.newline == some newline) := by
  cases newline <;> rfl

theorem only_ofLines_iff :
    (ofLines lines).Only newline ↔ ∀ line ∈ lines, line.restyle newline = line := by
  simp only [Only, count_ofLines, List.countP_eq_zero, beq_iff_eq]
  constructor
  · intro h line hl
    obtain ⟨chars, ending⟩ := line
    cases ending with
    | none => rfl
    | some other =>
      by_cases he : other = newline
      · rw [he]
        rfl
      · exact absurd rfl (h other he _ hl)
  · intro h other hn line hl he
    have hr := congrArg CutLine.newline (h line hl)
    rw [CutLine.restyle, he] at hr
    exact hn (Option.some.inj hr).symm

end NewlineCounts

theorem map_restyle_eq_self_iff :
    lines.map (CutLine.restyle newline) = lines ↔ ∀ line ∈ lines, line.restyle newline = line := by
  constructor
  · intro h
    exact List.map_inj_left.1 (h.trans (List.map_id lines).symm)
  · intro h
    exact (List.map_inj_left.2 h).trans (List.map_id lines)

/-- Whether the lines of a text end in at most one way. -/
def Uniform (text : List Char) : Prop :=
  ∃ (newline : Newline) (pieces : List (List Char)),
    (∀ piece ∈ pieces, Plain piece) ∧ text = newline.chars.intercalate pieces

theorem restyle_cutLines_intercalate {pieces : List (List Char)}
    (hp : ∀ piece ∈ pieces, Plain piece) :
    ∀ line ∈ cutLines (newline.chars.intercalate pieces), line.restyle newline = line := by
  induction pieces with
  | nil => exact fun _ hl => nomatch hl
  | cons piece pieces ih =>
    have ih := ih fun p hm => hp p (List.mem_cons_of_mem _ hm)
    have hpiece := hp piece List.mem_cons_self
    cases pieces with
    | nil =>
      rw [List.intercalate_singleton]
      by_cases hn : piece = []
      · subst hn
        exact fun _ hl => nomatch hl
      · rw [cutLines_plain hpiece hn]
        intro line hl
        rw [List.mem_singleton.1 hl]
        rfl
    | cons next pieces =>
      rw [List.intercalate_cons_cons, cutLines_append hpiece]
      · rw [List.forall_mem_cons]
        exact ⟨rfl, ih⟩
      · intro hc hh
        subst hc
        cases ih _ (List.mem_of_mem_head? hh)

theorem WellCut.exists_intercalate (h : WellCut lines)
    (hr : ∀ line ∈ lines, line.restyle newline = line) :
    ∃ piece pieces, (∀ p ∈ piece :: pieces, Plain p) ∧
      lines.flatMap CutLine.whole = newline.chars.intercalate (piece :: pieces) := by
  induction h with
  | nil => exact ⟨[], [], fun p hm => List.mem_singleton.1 hm ▸ .nil, rfl⟩
  | @last chars hp =>
    refine ⟨chars, [], fun p hm => List.mem_singleton.1 hm ▸ hp, ?_⟩
    rw [List.intercalate_singleton, List.flatMap_singleton]
    exact List.append_nil chars
  | @cons chars ending lines hp _ _ ih =>
    obtain ⟨hl, hr⟩ := List.forall_mem_cons.1 hr
    obtain ⟨piece, pieces, hps, he⟩ := ih hr
    have hn : newline = ending := Option.some.inj (congrArg CutLine.newline hl)
    refine ⟨chars, piece :: pieces, List.forall_mem_cons.2 ⟨hp, hps⟩, ?_⟩
    rw [List.intercalate_cons_cons, List.flatMap_cons, he, hn]
    rfl

theorem uniform_iff :
    Uniform text ↔ ∃ newline, ∀ line ∈ cutLines text, line.restyle newline = line := by
  constructor
  · rintro ⟨newline, pieces, hp, rfl⟩
    exact ⟨newline, restyle_cutLines_intercalate hp⟩
  · rintro ⟨newline, hr⟩
    obtain ⟨piece, pieces, hp, he⟩ := (cutLines_wellCut text).exists_intercalate hr
    rw [flatMap_whole_cutLines] at he
    exact ⟨newline, piece :: pieces, hp, he⟩

theorem uniform_iff_mixed :
    Uniform text ↔ (NewlineCounts.ofLines (cutLines text)).mixed = false := by
  rw [uniform_iff, NewlineCounts.mixed_eq_false_iff]
  constructor
  · rintro ⟨newline, hr⟩
    exact (NewlineCounts.only_ofLines_iff.2 hr).dominant
  · intro h
    exact ⟨_, NewlineCounts.only_ofLines_iff.1 h⟩

end MethodMarkers.Text
