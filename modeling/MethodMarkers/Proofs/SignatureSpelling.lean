import MethodMarkers.Signature
import MethodMarkers.Proofs.PatternMatching

namespace MethodMarkers
open Text Pattern

namespace Signature

variable {c : Char}

theorem isTypeChar_of_isNameChar (h : isNameChar c = true) : isTypeChar c = true := by
  rw [isTypeChar, h, Bool.true_or, Bool.true_or]

theorem isTypeChar_of_isBlank (h : isBlank c = true) : isTypeChar c = false := by
  have hall : ∀ r ∈ blankRanges, ∀ k < r.2 + 1 - r.1, isTypeChar (.ofNat (r.1 + k)) = false := by
    decide +kernel
  obtain ⟨r, hr, hfirst, hlast⟩ := inRanges_iff.1 h
  have hc := hall r hr (c.toNat - r.1) (by omega)
  rwa [Nat.add_sub_cancel' hfirst, Char.ofNat_toNat] at hc

theorem isNameChar_of_isBlank (h : isBlank c = true) : isNameChar c = false := by
  have htype := isTypeChar_of_isBlank h
  rw [isTypeChar, Bool.or_eq_false_iff, Bool.or_eq_false_iff] at htype
  exact htype.1.1

theorem isBlank_of_isTypeChar (h : isTypeChar c = true) : isBlank c = false := by
  by_contra hb
  rw [isTypeChar_of_isBlank (Bool.of_not_eq_false hb)] at h
  cases h

/-- A parenthesis of a head, with what reads as a type and a name in front of it. -/
structure Reading where
  front : List Char
  type : List Char
  gap : List Char
  name : List Char
  space : List Char
  behind : List Char

def Reading.before (reading : Reading) : List Char :=
  reading.front ++ reading.type ++ reading.gap ++ reading.name ++ reading.space

/-- The parenthesis reads as the one behind the name of a method, if a later one closes it. -/
structure Reading.Reads (reading : Reading) (head : List Char) : Prop where
  head_eq : head = reading.before ++ '(' :: reading.behind
  type_run : Run isTypeChar reading.type
  gap_run : Run isBlank reading.gap
  name_run : Run isNameChar reading.name
  space_blank : ∀ c ∈ reading.space, isBlank c = true
  closes : ')' ∈ reading.behind

def Modifies : Option (List Char) → List Char → Prop
  | none, text => text = []
  | some word, text => ∃ gap, text = word ++ gap ∧ Run isBlank gap

def modifier (name : String) (words : List (List Char)) : Pattern :=
  .optional (.seq (.named name (.anyOf (words.map .literal))) (.run isBlank))

def call : Pattern :=
  .concat
    [.run isTypeChar, .run isBlank, .named "name" (.run isNameChar), .runOrEmpty isBlank,
     .literal ['('], .runOrEmpty (· != ')'), .literal [')'],
     .runOrEmpty isBlank, .runOrEmpty (· == '{')]

def keywords : List (List Char) :=
  Access.all.map (·.keyword.toList)

theorem keyword_mem (access : Access) : access.keyword.toList ∈ keywords := by
  cases access <;> decide

theorem keyword_injective : Function.Injective Access.keyword := by
  intro a b
  cases a <;> cases b <;> decide

theorem ofKeyword?_keyword (access : Access) :
    Access.ofKeyword? (String.ofList access.keyword.toList) = some access := by
  cases access <;> decide

def staticWord : List Char :=
  "static".toList

theorem pattern_eq :
    pattern = .seq (modifier "access" keywords) (.seq (modifier "static" [staticWord]) call) :=
  rfl

variable {text : List Char} {place after : Place} {found captures : Captures}

theorem spans_word {name : String} {words : List (List Char)} :
    Spans (.named name (.anyOf (words.map .literal))) place found after captures ↔
      ∃ word ∈ words, ∃ rest, place.rest = word ++ rest ∧
        after = ⟨place.isStart && word.isEmpty, rest⟩ ∧ captures = (name, word) :: found := by
  have htake {word rest : List Char} (hr : place.rest = word ++ rest) :
      place.rest.take (place.rest.length - rest.length) = word := by
    rw [hr, List.length_append, Nat.add_sub_cancel, List.take_left]
  constructor
  · rintro ⟨_, hword, rfl⟩
    obtain ⟨_, hm, hs⟩ := spans_anyOf.1 hword
    obtain ⟨word, hw, rfl⟩ := List.mem_map.1 hm
    obtain ⟨rest, hr, rfl, rfl⟩ := hs
    exact ⟨word, hw, rest, hr, rfl, by rw [htake hr]⟩
  · rintro ⟨word, hw, rest, hr, rfl, rfl⟩
    refine ⟨found, spans_anyOf.2 ⟨.literal word, List.mem_map_of_mem hw, rest, hr, rfl, rfl⟩, ?_⟩
    rw [htake hr]

theorem spans_modifier {name : String} {words : List (List Char)} :
    Spans (modifier name words) place found after captures ↔ ∃ word? text rest,
      (∀ word ∈ word?, word ∈ words) ∧ Modifies word? text ∧ place.rest = text ++ rest ∧
        after = ⟨place.isStart && text.isEmpty, rest⟩ ∧
        captures = (word?.map fun word => (name, word)).toList ++ found := by
  constructor
  · rintro (⟨mid, _, hword, gap, rest, hr, hgap, rfl, rfl⟩ | ⟨rfl, rfl⟩)
    · obtain ⟨word, hw, _, hr', rfl, rfl⟩ := spans_word.1 hword
      obtain rfl : _ = gap ++ rest := hr
      refine ⟨some word, word ++ gap, rest, ?_, ⟨gap, rfl, hgap⟩, ?_, ?_, rfl⟩
      · rintro _ ⟨⟩
        exact hw
      · rw [hr', List.append_assoc]
      · rw [List.isEmpty_eq_false_iff.2 (List.append_ne_nil_of_right_ne_nil word hgap.ne_nil),
          Bool.and_false]
    · refine ⟨none, [], after.rest, nofun, rfl, rfl, ?_, rfl⟩
      rw [List.isEmpty_nil, Bool.and_true]
  · rintro ⟨word?, text, rest, hw, hm, hr, rfl, rfl⟩
    cases word? with
    | none =>
      obtain rfl : text = [] := hm
      refine .inr ⟨?_, rfl⟩
      rw [List.isEmpty_nil, Bool.and_true, ← List.nil_append rest, ← hr]
    | some word =>
      obtain ⟨gap, rfl, hgap⟩ := hm
      rw [List.append_assoc] at hr
      refine .inl ⟨_, _, spans_word.2 ⟨word, hw word rfl, gap ++ rest, hr, rfl, rfl⟩, gap, rest,
        rfl, hgap, ?_, rfl⟩
      rw [List.isEmpty_eq_false_iff.2 (List.append_ne_nil_of_right_ne_nil word hgap.ne_nil),
        Bool.and_false]

def parameters : Pattern :=
  .concat
    [.literal ['('], .runOrEmpty (· != ')'), .literal [')'], .runOrEmpty isBlank,
     .runOrEmpty (· == '{')]

theorem spans_parameters_iff {isStart : Bool} :
    (∃ after, Spans parameters ⟨isStart, text⟩ found after captures) ↔
      (∃ behind, text = '(' :: behind ∧ ')' ∈ behind) ∧ captures = found := by
  constructor
  · rintro ⟨after, _, _, ⟨behind, hopen, rfl, rfl⟩, _, _, hbody, _, _, ⟨_, hclose, rfl, rfl⟩, _, _,
      hend, _, _, hbraces, rfl, rfl⟩
    obtain ⟨body, _, hr, -, rfl, rfl⟩ := spans_runOrEmpty.1 hbody
    obtain ⟨_, _, -, -, rfl, rfl⟩ := spans_runOrEmpty.1 hend
    obtain ⟨_, _, -, -, rfl, rfl⟩ := spans_runOrEmpty.1 hbraces
    dsimp only at hr hclose
    refine ⟨⟨behind, hopen, ?_⟩, rfl⟩
    rw [hr, hclose]
    exact List.mem_append_right body List.mem_cons_self
  · rintro ⟨⟨behind, hr, hm⟩, rfl⟩
    obtain ⟨body, rest, rfl, hbody⟩ := List.eq_append_cons_of_mem hm
    have hall : ∀ c ∈ body, (c != ')') = true := fun c hc => bne_iff_ne.2 fun he => hbody (he ▸ hc)
    exact ⟨_, _, _, ⟨_, hr, rfl, rfl⟩, _, _, spans_runOrEmpty.2 ⟨body, _, rfl, hall, rfl, rfl⟩,
      _, _, ⟨rest, rfl, rfl, rfl⟩, _, _, spans_runOrEmpty.2 ⟨[], rest, rfl, nofun, rfl, rfl⟩, _, _,
      spans_runOrEmpty.2 ⟨[], rest, rfl, nofun, rfl, rfl⟩, rfl, rfl⟩

theorem spans_call_iff {isStart : Bool} :
    (∃ after, Spans call ⟨isStart, text⟩ found after captures) ↔
      ∃ reading : Reading, reading.front = [] ∧ reading.Reads text ∧
        captures = ("name", reading.name) :: found := by
  have htake {name rest : List Char} :
      (name ++ rest).take ((name ++ rest).length - rest.length) = name := by
    rw [List.length_append, Nat.add_sub_cancel, List.take_left]
  constructor
  · rintro ⟨after, _, _, ⟨type, _, htype, ht, rfl, rfl⟩, _, _, ⟨gap, _, hgap, hg, rfl, rfl⟩,
      _, _, ⟨_, ⟨name, _, hname, hn, rfl, rfl⟩, rfl⟩, _, _, hspace, hend⟩
    obtain ⟨space, _, hrest, hs, rfl, rfl⟩ := spans_runOrEmpty.1 hspace
    obtain ⟨⟨behind, hopen, hm⟩, rfl⟩ := spans_parameters_iff.1 ⟨after, hend⟩
    dsimp only at htype hgap hname hrest hopen
    refine ⟨⟨[], type, gap, name, space, behind⟩, rfl, ⟨?_, ht, hg, hn, hs, hm⟩, ?_⟩
    · rw [htype, hgap, hname, hrest, hopen]
      simp only [Reading.before, List.nil_append, List.append_assoc]
    · simp only [hname, htake]
  · rintro ⟨⟨front, type, gap, name, space, behind⟩, rfl, ⟨hr, ht, hg, hn, hs, hm⟩, rfl⟩
    simp only [Reading.before, List.nil_append, List.append_assoc] at hr
    obtain ⟨after, hend⟩ := spans_parameters_iff.2 ⟨⟨behind, rfl, hm⟩, rfl⟩
    exact ⟨after, _, _, ⟨type, _, hr, ht, rfl, rfl⟩, _, _, ⟨gap, _, rfl, hg, rfl, rfl⟩, _, _,
      ⟨_, ⟨name, _, rfl, hn, rfl, rfl⟩, by rw [htake]⟩, _, _,
      spans_runOrEmpty.2 ⟨space, _, rfl, hs, rfl, rfl⟩, hend⟩

structure Modifiers (access static : Option (List Char)) (text : List Char) : Prop where
  access_mem : ∀ word ∈ access, word ∈ keywords
  static_eq : ∀ word ∈ static, word = staticWord
  text_eq : ∃ first second, text = first ++ second ∧ Modifies access first ∧ Modifies static second

def Reading.behindText (reading : Reading) (text : List Char) : Reading :=
  { reading with front := text ++ reading.front }

theorem Reading.before_behindText (reading : Reading) (text : List Char) :
    (reading.behindText text).before = text ++ reading.before := by
  simp only [before, behindText, List.append_assoc]

theorem Reading.reads_behindText_iff {reading : Reading} {text rest : List Char} :
    (reading.behindText text).Reads (text ++ rest) ↔ reading.Reads rest := by
  constructor
  · rintro ⟨hr, ht, hg, hn, hs, hc⟩
    rw [before_behindText, List.append_assoc] at hr
    exact ⟨List.append_cancel_left hr, ht, hg, hn, hs, hc⟩
  · rintro ⟨rfl, ht, hg, hn, hs, hc⟩
    refine ⟨?_, ht, hg, hn, hs, hc⟩
    rw [before_behindText, List.append_assoc]
    rfl

def capturesOf (access static : Option (List Char)) (name : List Char) : Captures :=
  ("name", name) :: ((static.map fun word => ("static", word)).toList ++
    ((access.map fun word => ("access", word)).toList ++ []))

/-- A text begins with a signature, whose type has nothing but the modifiers in front of it. -/
structure Starts (text : List Char) (access static : Option (List Char)) (modifiers : List Char)
    (reading : Reading) (rest : List Char) : Prop where
  text_eq : text = modifiers ++ rest
  modifiers : Modifiers access static modifiers
  front_eq : reading.front = []
  reads : reading.Reads rest

theorem Reading.Reads.starts {reading : Reading} {head : List Char} (h : reading.Reads head) :
    ∃ later, head = reading.front ++ later ∧
    Starts later none none [] { reading with front := [] } later := by
  obtain ⟨he, ht, hg, hn, hs, hc⟩ := h
  refine ⟨_, ?_, rfl, ⟨nofun, nofun, [], [], rfl, rfl, rfl⟩, rfl, rfl, ht, hg, hn, hs, hc⟩
  rw [he]
  simp only [Reading.before, List.nil_append, List.append_assoc]

theorem spans_pattern_iff : (∃ after, Spans pattern place [] after captures) ↔
    ∃ access static modifiers reading rest,
      Starts place.rest access static modifiers reading rest ∧
        captures = capturesOf access static reading.name := by
  rw [pattern_eq]
  constructor
  · rintro ⟨after, _, _, haccess, _, _, hstatic, hcall⟩
    obtain ⟨access, first, _, ha, hfirst, hr, rfl, rfl⟩ := spans_modifier.1 haccess
    obtain ⟨static, second, rest, hs, hsecond, hr', rfl, rfl⟩ := spans_modifier.1 hstatic
    obtain ⟨reading, hfront, hreads, rfl⟩ := spans_call_iff.1 ⟨after, hcall⟩
    dsimp only at hr' hreads
    refine ⟨access, static, first ++ second, reading, rest, ⟨?_, ?_, hfront, hreads⟩, rfl⟩
    · rw [hr, hr', List.append_assoc]
    · exact ⟨ha, fun word hw => List.mem_singleton.1 (hs word hw), first, second, rfl, hfirst,
        hsecond⟩
  · rintro ⟨access, static, _, reading, rest, ⟨hr, ⟨ha, hs, first, second, rfl, hfirst, hsecond⟩,
      hfront, hreads⟩, rfl⟩
    rw [List.append_assoc] at hr
    obtain ⟨after, hcall⟩ := spans_call_iff.2 ⟨reading, hfront, hreads, rfl⟩
    exact ⟨after, _, _, spans_modifier.2 ⟨access, first, _, ha, hfirst, hr, rfl, rfl⟩, _, _,
      spans_modifier.2 ⟨static, second, rest, fun word hw => List.mem_singleton.2 (hs word hw),
        hsecond, rfl, rfl, rfl⟩, hcall⟩

def Begins (text : List Char) : Prop :=
  ∃ access static modifiers reading rest, Starts text access static modifiers reading rest

theorem first?_isSome_iff_begins : (first? pattern place).isSome = true ↔ Begins place.rest := by
  rw [first?_isSome_iff, exists_comm]
  simp only [spans_pattern_iff]
  constructor
  · rintro ⟨captures, access, static, modifiers, reading, rest, hs, -⟩
    exact ⟨access, static, modifiers, reading, rest, hs⟩
  · rintro ⟨access, static, modifiers, reading, rest, hs⟩
    exact ⟨_, access, static, modifiers, reading, rest, hs, rfl⟩

theorem Modifies.mem {word? : Option (List Char)} (h : Modifies word? text)
    (hw : ∀ word ∈ word?, word ∈ staticWord :: keywords) :
    ∀ c ∈ text, isTypeChar c = true ∨ isBlank c = true := by
  have hletters : ((staticWord :: keywords).all fun word => word.all isTypeChar) = true := by
    decide +kernel
  intro c hc
  cases word? with
  | none =>
    obtain rfl : text = [] := h
    cases hc
  | some word =>
    obtain ⟨gap, rfl, hgap⟩ := h
    rcases List.mem_append.1 hc with hc | hc
    · exact .inl (List.all_eq_true.1 (List.all_eq_true.1 hletters word (hw word rfl)) c hc)
    · exact .inr (hgap.all c hc)

theorem Modifies.blank_last {word? : Option (List Char)} (h : Modifies word? text) :
    ∀ c ∈ text.getLast?, isBlank c = true := by
  intro c hc
  cases word? with
  | none =>
    obtain rfl : text = [] := h
    cases hc
  | some word =>
    obtain ⟨gap, rfl, hgap⟩ := h
    exact hgap.of_mem_getLast? hc

theorem Modifiers.mem {access static : Option (List Char)} {modifiers : List Char}
    (h : Modifiers access static modifiers) :
    ∀ c ∈ modifiers, isTypeChar c = true ∨ isBlank c = true := by
  obtain ⟨ha, hs, first, second, rfl, hfirst, hsecond⟩ := h
  intro c hc
  rcases List.mem_append.1 hc with hc | hc
  · exact hfirst.mem (fun word hw => List.mem_cons_of_mem _ (ha word hw)) c hc
  · exact hsecond.mem (fun word hw => hs word hw ▸ List.mem_cons_self) c hc

theorem Modifiers.blank_last {access static : Option (List Char)} {modifiers : List Char}
    (h : Modifiers access static modifiers) : ∀ c ∈ modifiers.getLast?, isBlank c = true := by
  obtain ⟨-, -, first, second, rfl, hfirst, hsecond⟩ := h
  intro c hc
  rw [List.getLast?_append, Option.mem_def, Option.or_eq_some_iff] at hc
  rcases hc with hc | ⟨-, hc⟩
  · exact hsecond.blank_last c hc
  · exact hfirst.blank_last c hc

theorem Reading.Reads.mem {reading : Reading} {rest : List Char} (h : reading.Reads rest)
    (hf : reading.front = []) :
    ∀ c ∈ reading.before, isTypeChar c = true ∨ isBlank c = true := by
  intro c hc
  rw [Reading.before, hf, List.nil_append] at hc
  rcases List.mem_append.1 hc with hc | hc
  · rcases List.mem_append.1 hc with hc | hc
    · rcases List.mem_append.1 hc with hc | hc
      · exact .inl (h.type_run.all c hc)
      · exact .inr (h.gap_run.all c hc)
    · exact .inl (isTypeChar_of_isNameChar (h.name_run.all c hc))
  · exact .inr (h.space_blank c hc)

end Signature

end MethodMarkers
