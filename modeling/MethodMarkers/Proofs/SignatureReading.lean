import MethodMarkers.Proofs.SignatureSpelling
import Mathlib.Data.List.Infix

namespace MethodMarkers
open Text Pattern

theorem append_class_inj {p : Char → Bool} {xs xs' ys ys' : List Char}
    (hx : ∀ c ∈ xs.getLast?, p c = false) (hx' : ∀ c ∈ xs'.getLast?, p c = false)
    (hy : ∀ c ∈ ys, p c = true) (hy' : ∀ c ∈ ys', p c = true) (h : xs ++ ys = xs' ++ ys') :
    xs = xs' ∧ ys = ys' := by
  have key {xs ys zs : List Char} (hx : ∀ c ∈ (xs ++ zs).getLast?, p c = false)
      (hy : ∀ c ∈ zs ++ ys, p c = true) : zs = [] := by
    by_contra hn
    have hl := List.getLast?_eq_some_getLast hn
    have hin := hy (zs.getLast hn) (List.mem_append_left ys (List.getLast_mem hn))
    rw [hx (zs.getLast hn) (by rw [List.getLast?_append, hl]; rfl)] at hin
    cases hin
  rcases List.append_eq_append_iff.1 h with ⟨zs, rfl, rfl⟩ | ⟨zs, rfl, rfl⟩
  · obtain rfl := key hx' hy
    exact ⟨(List.append_nil xs).symm, List.nil_append ys'⟩
  · obtain rfl := key hx hy'
    exact ⟨List.append_nil xs', (List.nil_append ys).symm⟩

namespace Signature

variable {text : List Char} {captures : Captures}

/-- A text ends in a word with white space behind it, and `outer` is in front of the word. -/
def EndsIn (text word outer : List Char) : Prop :=
  ∃ gap, text = outer ++ word ++ gap ∧ Run isBlank gap

section Words

variable {word word' outer outer' : List Char}

theorem isBlank_of_getLast?_word (hw : word ∈ staticWord :: keywords) (outer : List Char) :
    ∀ c ∈ (outer ++ word).getLast?, isBlank c = false := by
  have hall : ((staticWord :: keywords).all fun word => word.getLast?.any (!isBlank ·)) = true := by
    decide +kernel
  obtain ⟨c, hc, hb⟩ := (Option.any_eq_true _ _).1 (List.all_eq_true.1 hall word hw)
  rw [Bool.not_eq_true'] at hb
  intro d hd
  rw [List.getLast?_append, hc] at hd
  cases hd
  exact hb

theorem EndsIn.unique (h : EndsIn text word outer) (h' : EndsIn text word' outer')
    (hw : word ∈ staticWord :: keywords) (hw' : word' ∈ staticWord :: keywords) :
    word = word' ∧ outer = outer' := by
  obtain ⟨gap, rfl, hgap⟩ := h
  obtain ⟨gap', he, hgap'⟩ := h'
  have hsuffix : ∀ word ∈ staticWord :: keywords, ∀ word' ∈ staticWord :: keywords,
      word.isSuffixOf word' = true → word = word' := by
    decide +kernel
  obtain ⟨he, -⟩ := append_class_inj (isBlank_of_getLast?_word hw outer)
    (isBlank_of_getLast?_word hw' outer') hgap.all hgap'.all he
  have hword : word = word' := by
    rcases List.suffix_or_suffix_of_suffix ⟨outer, rfl⟩ ⟨outer', he.symm⟩ with hs | hs
    · exact hsuffix word hw word' hw' (List.isSuffixOf_iff_suffix.2 hs)
    · exact (hsuffix word' hw' word hw (List.isSuffixOf_iff_suffix.2 hs)).symm
  subst hword
  exact ⟨rfl, List.append_cancel_right he⟩

end Words

namespace Reading

variable {reading other : Reading} {head before rest : List Char}

/-- The first parenthesis of a head that has a signature in front of it, with all of the type. -/
structure Leads (reading : Reading) (head : List Char) : Prop extends reading.Reads head where
  first : ∀ other : Reading, other.Reads head → reading.before.length ≤ other.before.length
  whole : ∀ c ∈ reading.front.getLast?, isTypeChar c = false

/-- What the modifiers and the name of a reading tell. `static` stands in front of the type, and the
access in front of `static`, or of the type where there is no `static`. -/
structure Tells (reading : Reading) (signature : Signature) : Prop where
  name_eq : signature.name = String.ofList reading.name
  isStatic_iff : signature.isStatic = true ↔ ∃ outer, EndsIn reading.front staticWord outer
  access_iff : ∀ access, signature.access = some access ↔ ∃ modified outer,
    (if signature.isStatic then EndsIn reading.front staticWord modified
      else modified = reading.front) ∧ EndsIn modified access.keyword.toList outer

end Reading

structure Leftmost (head before : List Char) (access static : Option (List Char))
    (modifiers : List Char) (reading : Reading) (rest : List Char) : Prop where
  starts : Starts (modifiers ++ rest) access static modifiers reading rest
  head_eq : head = before ++ (modifiers ++ rest)
  left : ∀ earlier later, head = earlier ++ later → Begins later → before.length ≤ earlier.length

namespace Leftmost

variable {head before modifiers rest : List Char} {access static : Option (List Char)}
  {reading other : Reading} (h : Leftmost head before access static modifiers reading rest)
include h

theorem not_begins {earlier more : List Char} (hb : before = earlier ++ more) (hm : more ≠ []) :
    ¬ Begins (more ++ (modifiers ++ rest)) := by
  intro hbegins
  have hle := h.left earlier (more ++ (modifiers ++ rest))
    (by rw [h.head_eq, hb, List.append_assoc]) hbegins
  rw [hb, List.length_append] at hle
  exact hm (List.eq_nil_of_length_eq_zero (by omega))

theorem reads : (reading.behindText (before ++ modifiers)).Reads head := by
  rw [h.head_eq, ← List.append_assoc]
  exact Reading.reads_behindText_iff.2 h.starts.reads

theorem first (ho : other.Reads head) :
    (reading.behindText (before ++ modifiers)).before.length ≤ other.before.length := by
  obtain ⟨later, he, hs⟩ := ho.starts
  have hle := h.left other.front later he ⟨_, _, _, _, _, hs⟩
  have hfront : other.front.length ≤ other.before.length := by
    simp only [Reading.before, List.length_append]
    omega
  have hbefore : (reading.behindText (before ++ modifiers)).before =
      before ++ (modifiers ++ reading.before) := by
    simp only [Reading.before, Reading.behindText, h.starts.front_eq, List.append_assoc,
      List.nil_append, List.append_nil]
  have hopen : head[other.before.length]? = some '(' := by
    rw [ho.head_eq, List.getElem?_append_right (Nat.le_refl _), Nat.sub_self]
    rfl
  rw [hbefore]
  by_contra hlt
  rw [h.reads.head_eq, hbefore, List.getElem?_append_left (Nat.lt_of_not_le hlt),
    List.getElem?_append_right (Nat.le_trans hle hfront)] at hopen
  have hparen : isTypeChar '(' = true ∨ isBlank '(' = true := by
    rcases List.mem_append.1 (List.mem_of_getElem? hopen) with hm | hm
    · exact h.starts.modifiers.mem _ hm
    · exact h.starts.reads.mem h.starts.front_eq _ hm
  revert hparen
  decide

theorem endsIn_access_iff {first second word : List Char} (hm : modifiers = first ++ second)
    (hfirst : Modifies access first) (hsecond : Modifies static second) (hw : word ∈ keywords) :
    (∃ outer, EndsIn (before ++ first) word outer) ↔ access = some word := by
  obtain ⟨ha, hs, -⟩ := h.starts.modifiers
  cases access with
  | some other =>
    obtain ⟨gap, rfl, hgap⟩ := hfirst
    have hends : EndsIn (before ++ (other ++ gap)) other before :=
      ⟨gap, (List.append_assoc ..).symm, hgap⟩
    rw [Option.some.injEq]
    constructor
    · rintro ⟨outer, he⟩
      exact (hends.unique he (List.mem_cons_of_mem _ (ha other rfl)) (List.mem_cons_of_mem _ hw)).1
    · rintro rfl
      exact ⟨before, hends⟩
  | none =>
    obtain rfl : first = [] := hfirst
    rw [List.append_nil]
    refine ⟨?_, nofun⟩
    rintro ⟨outer, gap, hb, hgap⟩
    rw [List.append_assoc] at hb
    have hstarts : Starts (word ++ gap ++ (modifiers ++ rest)) (some word) static
        (word ++ gap ++ second) reading rest := by
      refine ⟨?_, ⟨?_, hs, word ++ gap, second, rfl, ⟨gap, rfl, hgap⟩, hsecond⟩, h.starts.front_eq,
        h.starts.reads⟩
      · simp only [hm, List.nil_append, List.append_assoc]
      · rintro _ ⟨⟩
        exact hw
    have hne : word ++ gap ≠ [] := List.append_ne_nil_of_right_ne_nil word hgap.ne_nil
    exact absurd ⟨_, _, _, _, _, hstarts⟩ (h.not_begins hb hne)

theorem endsIn_static_iff {first second : List Char} (hm : modifiers = first ++ second)
    (hfirst : Modifies access first) (hsecond : Modifies static second) :
    (∃ outer, EndsIn (before ++ modifiers) staticWord outer) ↔ static = some staticWord := by
  obtain ⟨ha, hs, -⟩ := h.starts.modifiers
  cases static with
  | some word =>
    obtain rfl : word = staticWord := hs word rfl
    obtain ⟨gap, rfl, hgap⟩ := hsecond
    refine ⟨fun _ => rfl, fun _ => ⟨before ++ first, gap, ?_, hgap⟩⟩
    simp only [hm, List.append_assoc]
  | none =>
    obtain rfl : second = [] := hsecond
    rw [List.append_nil] at hm
    subst hm
    refine ⟨?_, nofun⟩
    rintro ⟨outer, hends⟩
    cases access with
    | some word =>
      have hword := ha word rfl
      obtain ⟨gap, rfl, hgap⟩ := hfirst
      obtain ⟨rfl, -⟩ := hends.unique ⟨gap, (List.append_assoc ..).symm, hgap⟩ List.mem_cons_self
        (List.mem_cons_of_mem _ hword)
      revert hword
      decide +kernel
    | none =>
      obtain rfl : modifiers = [] := hfirst
      obtain ⟨gap, hb, hgap⟩ := hends
      rw [List.append_nil, List.append_assoc] at hb
      have hstarts : Starts (staticWord ++ gap ++ ([] ++ rest)) none (some staticWord)
          (staticWord ++ gap) reading rest := by
        refine ⟨?_, ⟨nofun, ?_, [], staticWord ++ gap, rfl, rfl, ⟨gap, rfl, hgap⟩⟩,
          h.starts.front_eq, h.starts.reads⟩
        · rw [List.nil_append]
        · rintro _ ⟨⟩
          rfl
      have hne : staticWord ++ gap ≠ [] := List.append_ne_nil_of_right_ne_nil _ hgap.ne_nil
      exact absurd ⟨_, _, _, _, _, hstarts⟩ (h.not_begins hb hne)

theorem front_eq : (reading.behindText (before ++ modifiers)).front = before ++ modifiers := by
  rw [Reading.behindText, h.starts.front_eq, List.append_nil]

theorem whole : ∀ c ∈ (before ++ modifiers).getLast?, isTypeChar c = false := by
  intro c hc
  rw [List.getLast?_append, Option.mem_def, Option.or_eq_some_iff] at hc
  rcases hc with hc | ⟨hm, hc⟩
  · exact isTypeChar_of_isBlank (h.starts.modifiers.blank_last c hc)
  · obtain ⟨earlier, hb⟩ := List.getLast?_eq_some_iff.1 hc
    by_contra htype
    obtain ⟨hr, ht, hg, hn, hs, hcl⟩ := h.starts.reads
    obtain rfl : modifiers = [] := List.getLast?_eq_none_iff.1 hm
    have hstarts : Starts ([c] ++ ([] ++ rest)) none none []
        { reading with type := c :: reading.type } (c :: rest) := by
      refine ⟨rfl, ⟨nofun, nofun, [], [], rfl, rfl, rfl⟩, h.starts.front_eq,
        ⟨?_, ht.cons (Bool.of_not_eq_false htype), hg, hn, hs, hcl⟩⟩
      rw [hr]
      simp only [Reading.before, h.starts.front_eq, List.nil_append, List.cons_append]
    exact absurd ⟨_, _, _, _, _, hstarts⟩ (h.not_begins hb (List.cons_ne_nil c []))

theorem modified_iff {first second modified : List Char} (hm : modifiers = first ++ second)
    (hsecond : Modifies static second) :
    (if static.isSome then EndsIn (before ++ modifiers) staticWord modified
      else modified = before ++ modifiers) ↔ modified = before ++ first := by
  obtain ⟨-, hs, -⟩ := h.starts.modifiers
  cases static with
  | some word =>
    obtain rfl : word = staticWord := hs word rfl
    obtain ⟨gap, rfl, hgap⟩ := hsecond
    have hends : EndsIn (before ++ modifiers) staticWord (before ++ first) :=
      ⟨gap, by simp only [hm, List.append_assoc], hgap⟩
    rw [Option.isSome_some, if_pos rfl]
    constructor
    · intro he
      exact (he.unique hends List.mem_cons_self List.mem_cons_self).2
    · rintro rfl
      exact hends
  | none =>
    obtain rfl : second = [] := hsecond
    rw [Option.isSome_none, if_neg Bool.false_ne_true, hm, List.append_nil]

theorem tells : (reading.behindText (before ++ modifiers)).Tells
    (ofCaptures (capturesOf access static reading.name)) := by
  obtain ⟨ha, hs, first, second, hm, hfirst, hsecond⟩ := h.starts.modifiers
  have hstatic : (ofCaptures (capturesOf access static reading.name)).isStatic = static.isSome := by
    cases access <;> cases static <;> rfl
  have haccess : (ofCaptures (capturesOf access static reading.name)).access =
      access.bind fun word => Access.ofKeyword? (String.ofList word) := by
    cases access <;> cases static <;> rfl
  refine ⟨?_, ?_, fun a => ?_⟩
  · cases access <;> cases static <;> rfl
  · rw [hstatic, h.front_eq, h.endsIn_static_iff hm hfirst hsecond]
    cases static with
    | none => exact ⟨nofun, nofun⟩
    | some word => exact iff_of_true rfl (congrArg some (hs word rfl))
  · simp only [hstatic, haccess, h.front_eq, h.modified_iff hm hsecond, exists_and_left,
      exists_eq_left, h.endsIn_access_iff hm hfirst hsecond (keyword_mem a)]
    cases access with
    | none => exact ⟨nofun, nofun⟩
    | some word =>
      obtain ⟨b, -, rfl⟩ := List.mem_map.1 (ha word rfl)
      rw [Option.bind_some, ofKeyword?_keyword, Option.some.injEq, Option.some.injEq]
      exact ⟨fun he => he ▸ rfl, fun he => keyword_injective (String.toList_injective he)⟩

theorem leads : (reading.behindText (before ++ modifiers)).Leads head where
  toReads := h.reads
  first _ ho := h.first ho
  whole := by
    rw [h.front_eq]
    exact h.whole

end Leftmost

/-- A search finds the leftmost signature, and its captures are those of the text that it found. -/
theorem exists_leftmost {head : List Char} {isStart : Bool}
    (hs : pattern.searchFrom isStart head = some captures) :
    ∃ before access static modifiers reading rest,
      Leftmost head before access static modifiers reading rest ∧
        captures = capturesOf access static reading.name := by
  obtain ⟨before, text, rfl, hfirst, hleft⟩ := exists_of_searchFrom hs
  obtain ⟨after, found, hspans, hfound⟩ := exists_of_attempt hfirst
  obtain rfl : found = captures := Option.some.inj hfound
  obtain ⟨access, static, modifiers, reading, rest, hstarts, rfl⟩ :=
    spans_pattern_iff.1 ⟨after, hspans⟩
  obtain rfl : text = modifiers ++ rest := hstarts.text_eq
  refine ⟨before, access, static, modifiers, reading, rest,
    ⟨hstarts, rfl, fun earlier later he hb => ?_⟩, rfl⟩
  by_contra hlt
  have hnone := hleft earlier later he (Nat.lt_of_not_le hlt)
  have hsome : (first? pattern ⟨isStart && earlier.isEmpty, later⟩).isSome = true :=
    first?_isSome_iff_begins.2 hb
  rw [hnone] at hsome
  cases hsome

/-- There is one way only to read the first parenthesis. -/
theorem Reading.Leads.unique {reading other : Reading} {head : List Char} (h : reading.Leads head)
    (h' : other.Leads head) : reading = other := by
  have hlength := Nat.le_antisymm (h.first other h'.toReads) (h'.first reading h.toReads)
  obtain ⟨hbefore, hbehind⟩ := List.append_inj (h.head_eq.symm.trans h'.head_eq) hlength
  have hblank {xs name : List Char} (hn : Run isNameChar name) :
      ∀ c ∈ (xs ++ name).getLast?, isBlank c = false := fun c hc =>
    isBlank_of_isTypeChar (isTypeChar_of_isNameChar (hn.of_mem_getLast? hc))
  have hname {xs gap : List Char} (hg : Run isBlank gap) :
      ∀ c ∈ (xs ++ gap).getLast?, isNameChar c = false := fun c hc =>
    isNameChar_of_isBlank (hg.of_mem_getLast? hc)
  have htype {xs type : List Char} (ht : Run isTypeChar type) :
      ∀ c ∈ (xs ++ type).getLast?, isBlank c = false := fun c hc =>
    isBlank_of_isTypeChar (ht.of_mem_getLast? hc)
  obtain ⟨hbefore, hspace⟩ := append_class_inj (hblank h.name_run) (hblank h'.name_run)
    h.space_blank h'.space_blank hbefore
  obtain ⟨hbefore, hname⟩ := append_class_inj (hname h.gap_run) (hname h'.gap_run)
    h.name_run.all h'.name_run.all hbefore
  obtain ⟨hbefore, hgap⟩ := append_class_inj (htype h.type_run) (htype h'.type_run)
    h.gap_run.all h'.gap_run.all hbefore
  obtain ⟨hfront, htype⟩ := append_class_inj h.whole h'.whole h.type_run.all h'.type_run.all hbefore
  cases reading
  cases other
  cases hbehind
  rw [Reading.mk.injEq]
  exact ⟨hfront, htype, hgap, hname, hspace, rfl⟩

theorem inHead?_isSome_iff (line : List Char) :
    (inHead? line).isSome = true ↔ ∃ reading : Reading, reading.Reads (head line) := by
  rw [inHead?, Option.isSome_map]
  constructor
  · intro h
    obtain ⟨captures, h⟩ := Option.isSome_iff_exists.1 h
    obtain ⟨_, _, _, _, _, _, hleft, -⟩ := exists_leftmost h
    exact ⟨_, hleft.reads⟩
  · rintro ⟨reading, hr⟩
    obtain ⟨later, he, hs⟩ := hr.starts
    rw [search, he]
    exact searchFrom_isSome reading.front (first?_isSome_iff_begins.2 ⟨_, _, _, _, _, hs⟩)

theorem Exclusion.first?_eq_none_iff (line : List Char) :
    first? line = none ↔ ∀ reason, applies line reason = false := by
  rw [first?, List.find?_eq_none]
  simp only [Bool.not_eq_true]
  refine ⟨fun h reason => h reason ?_, fun h reason _ => h reason⟩
  cases reason <;> decide

theorem ofLine?_value_eq_some_iff {line : String} {signature : Signature} :
    (ofLine? line).value = some signature ↔
      (∀ reason, Exclusion.applies line.toList reason = false) ∧
        inHead? line.toList = some signature := by
  rw [← Exclusion.first?_eq_none_iff, ofLine?]
  split
  · next hs hr =>
    rw [hs, hr]
    exact (and_iff_right rfl).symm
  · next hs hr =>
    rw [hr]
    exact ⟨nofun, nofun⟩
  · next hs =>
    rw [hs]
    exact ⟨nofun, nofun⟩

/-- A line has a signature if nothing excludes it and some parenthesis of its head reads as the one
behind a method's name. The first such parenthesis tells all of the signature. -/
theorem ofLine?_tells (line : String) :
    ((ofLine? line).value.isSome = true ↔
      (∀ reason, Exclusion.applies line.toList reason = false) ∧
        ∃ reading : Reading, reading.Reads (head line.toList)) ∧
    ∀ signature, (ofLine? line).value = some signature →
      ∃ reading : Reading, reading.Leads (head line.toList) ∧
        (∀ other : Reading, other.Leads (head line.toList) → other = reading) ∧
        reading.Tells signature := by
  constructor
  · rw [← inHead?_isSome_iff, Option.isSome_iff_exists, Option.isSome_iff_exists]
    simp only [ofLine?_value_eq_some_iff, exists_and_left]
  · intro signature hs
    obtain ⟨captures, hsearch, rfl⟩ :=
      Option.map_eq_some_iff.1 (ofLine?_value_eq_some_iff.1 hs).2
    obtain ⟨before, access, static, modifiers, reading, rest, hleft, rfl⟩ := exists_leftmost hsearch
    exact ⟨_, hleft.leads, fun other ho => ho.unique hleft.leads, hleft.tells⟩

example : (ofLine? "public static F()").value = some ⟨"F", some .everyone, false⟩ := by
  decide +kernel

end Signature

end MethodMarkers
