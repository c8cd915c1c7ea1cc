import MethodMarkers.Proofs.PartSearch
import MethodMarkers.Proofs.SignatureReading
import MethodMarkers.Proofs.Trimming

namespace MethodMarkers
open Text

namespace Text

variable {α β γ : Type} {f : List Char → α} {c : Char} {cs part word : List Char}

theorem isWordChar_of_isBlank (h : isBlank c = true) : isWordChar c = false := by
  have hn := Signature.isNameChar_of_isBlank h
  rw [Signature.isNameChar, Bool.or_eq_false_iff, Bool.or_eq_false_iff] at hn
  exact hn.1.1

theorem ne_of_isBlank {d : Char} (hc : isBlank c = true) (hd : isBlank d = false) : c ≠ d := by
  rintro rfl
  exact Bool.false_ne_true (hd.symm.trans hc)

theorem dropBlanksEnd_append_blank (hc : isBlank c = true) (cs : List Char) :
    dropBlanksEnd (cs ++ [c]) = dropBlanksEnd cs := by
  rw [dropBlanksEnd, List.reverse_append, List.reverse_singleton, List.singleton_append, dropBlanks,
    List.dropWhile_cons_of_pos hc]
  rfl

theorem dropBlanks_append_blank_head? (hc : isBlank c = true) (cs : List Char) :
    (dropBlanks (cs ++ [c])).head? = (dropBlanks cs).head? := by
  induction cs with
  | nil =>
    rw [List.nil_append, dropBlanks, List.dropWhile_cons_of_pos hc]
    rfl
  | cons d cs ih =>
    unfold dropBlanks at ih ⊢
    rw [List.cons_append, List.dropWhile_cons, List.dropWhile_cons]
    split
    · exact ih
    · rfl

theorem dropBlanksEnd_getLast? (cs : List Char) :
    (dropBlanksEnd cs).getLast? = (dropBlanks cs.reverse).head? := by
  rw [dropBlanksEnd, List.getLast?_reverse]

/-- A function of texts to which blanks around a text make no difference. -/
structure IgnoresBlanks (f : List Char → α) : Prop where
  front : ∀ c cs, isBlank c = true → f (c :: cs) = f cs
  back : ∀ c cs, isBlank c = true → f (cs ++ [c]) = f cs

namespace IgnoresBlanks

theorem dropBlanks (h : IgnoresBlanks f) (cs : List Char) : f (dropBlanks cs) = f cs := by
  induction cs with
  | nil => rfl
  | cons c cs ih =>
    rw [Text.dropBlanks, List.dropWhile_cons]
    split
    · next hc => exact ih.trans (h.front c cs hc).symm
    · rfl

theorem dropBlanksEnd (h : IgnoresBlanks f) (cs : List Char) : f (dropBlanksEnd cs) = f cs := by
  induction cs using List.reverseRecOn with
  | nil => rfl
  | append_singleton cs c ih =>
    by_cases hc : isBlank c = true
    · rw [dropBlanksEnd_append_blank hc, ih, h.back c cs hc]
    · rw [dropBlanksEnd_append_singleton (Bool.eq_false_iff.2 hc)]

/-- Texts that are the same once they are trimmed are not told apart. -/
theorem eq_of_trim (h : IgnoresBlanks f) {a b : List Char} (ht : trim a = trim b) : f a = f b := by
  have htrim (cs : List Char) : f (trim cs) = f cs := (h.dropBlanksEnd _).trans (h.dropBlanks cs)
  rw [← htrim a, ht, htrim]

theorem comp (h : IgnoresBlanks f) (g : α → β) : IgnoresBlanks fun cs => g (f cs) where
  front c cs hc := congrArg g (h.front c cs hc)
  back c cs hc := congrArg g (h.back c cs hc)

theorem map₂ {f' : List Char → β} (h : IgnoresBlanks f) (h' : IgnoresBlanks f') (g : α → β → γ) :
    IgnoresBlanks fun cs => g (f cs) (f' cs) where
  front c cs hc := by rw [h.front c cs hc, h'.front c cs hc]
  back c cs hc := by rw [h.back c cs hc, h'.back c cs hc]

theorem any {f : β → List Char → Bool} {xs : List β} (h : ∀ x ∈ xs, IgnoresBlanks (f x)) :
    IgnoresBlanks fun cs => xs.any (f · cs) where
  front c cs hc := by
    rw [Bool.eq_iff_iff, List.any_eq_true, List.any_eq_true]
    exact exists_congr fun x => and_congr_right fun hx => by rw [(h x hx).front c cs hc]
  back c cs hc := by
    rw [Bool.eq_iff_iff, List.any_eq_true, List.any_eq_true]
    exact exists_congr fun x => and_congr_right fun hx => by rw [(h x hx).back c cs hc]

theorem dropBlanks_head? : IgnoresBlanks fun cs => (Text.dropBlanks cs).head? where
  front c cs hc := by rw [Text.dropBlanks, List.dropWhile_cons_of_pos hc, Text.dropBlanks]
  back c cs hc := dropBlanks_append_blank_head? hc cs

theorem dropBlanksEnd_getLast? : IgnoresBlanks fun cs => (Text.dropBlanksEnd cs).getLast? where
  front c cs hc := by
    rw [Text.dropBlanksEnd_getLast?, Text.dropBlanksEnd_getLast?, List.reverse_cons,
      dropBlanks_append_blank_head? hc]
  back c cs hc := congrArg List.getLast? (dropBlanksEnd_append_blank hc cs)

theorem containsWord (hw : word ≠ []) (hb : word.any isBlank = false) :
    IgnoresBlanks (containsWord word) where
  front c cs hc := by
    have hm : c ∉ word := fun hm => List.any_eq_false.1 hb c hm hc
    exact containsWord_append_cons hw (isWordChar_of_isBlank hc) hm [] cs
  back c cs hc := by
    have hm : c ∉ word := fun hm => List.any_eq_false.1 hb c hm hc
    rw [containsWord_append_cons hw (isWordChar_of_isBlank hc) hm cs []]
    exact Bool.or_false _

theorem containsPart (hp : part ≠ []) (ht : Trimmed part) : IgnoresBlanks (containsPart part) where
  front c cs hc := by
    rw [Bool.eq_iff_iff, containsPart_iff, containsPart_iff, List.infix_cons_iff, or_iff_right]
    intro hprefix
    obtain ⟨d, rest, rfl⟩ := List.exists_cons_of_ne_nil hp
    obtain ⟨rfl, -⟩ := List.cons_prefix_cons.1 hprefix
    exact Bool.false_ne_true ((ht.head d rfl).symm.trans hc)
  back c cs hc := by
    rw [Bool.eq_iff_iff, containsPart_iff, containsPart_iff, List.infix_concat_iff, or_iff_right]
    intro hsuffix
    obtain he | ⟨rest, rfl, -⟩ := List.suffix_concat_iff.1 hsuffix
    · exact hp he
    · exact Bool.false_ne_true ((ht.last c List.getLast?_concat).symm.trans hc)

end IgnoresBlanks

end Text

namespace Signature

variable {c : Char}

theorem head_cons_blank (hc : isBlank c = true) (line : List Char) :
    head (c :: line) = c :: head line := by
  have hne : (c != '{') = true := bne_iff_ne.2 (ne_of_isBlank hc (by decide))
  exact List.takeWhile_cons_of_pos hne

theorem head_append_blank (hc : isBlank c = true) (line : List Char) :
    head (line ++ [c]) = head line ∨ head (line ++ [c]) = head line ++ [c] := by
  have hne : (c != '{') = true := bne_iff_ne.2 (ne_of_isBlank hc (by decide))
  rw [head, head, List.takeWhile_append]
  split
  · next h =>
    have hall : line.takeWhile (· != '{') = line :=
      (List.takeWhile_prefix _).eq_of_length h
    have hblank : [c].takeWhile (· != '{') = [c] := List.takeWhile_cons_of_pos hne
    rw [hall, hblank]
    exact .inr rfl
  · exact .inl rfl

theorem ignoresBlanks_head {α : Type} {f : List Char → α} (h : IgnoresBlanks f) :
    IgnoresBlanks fun line => f (head line) where
  front c line hc := by rw [head_cons_blank hc, h.front c _ hc]
  back c line hc := by
    rcases head_append_blank hc line with he | he
    · rw [he]
    · rw [he, h.back c _ hc]

theorem Exclusion.ignoresBlanks (reason : Exclusion) :
    IgnoresBlanks fun line => applies line reason := by
  have word {word : String} (hw : word.toList ≠ []) (hb : word.toList.any isBlank = false) :=
    IgnoresBlanks.containsWord hw hb
  have part {part : String} (hp : part.toList ≠ []) (hb : part.toList.any isBlank = false) :=
    IgnoresBlanks.containsPart hp
      (.of_notBlank fun c hc => Bool.eq_false_iff.2 (List.any_eq_false.1 hb c hc))
  cases reason with
  | terminated =>
    exact IgnoresBlanks.dropBlanksEnd_getLast?.comp
      fun last => last.any fun c => c == ';' || c == ','
  | construction => exact word (by decide) (by decide +kernel)
  | returned => exact ignoresBlanks_head (word (by decide) (by decide +kernel))
  | control =>
    exact (word (by decide) (by decide +kernel)).map₂ (word (by decide) (by decide +kernel)) or
  | comment =>
    have hstar := IgnoresBlanks.dropBlanks_head?.comp fun first => first == some '*'
    exact ((part (by decide) (by decide +kernel)).map₂
      (part (by decide) (by decide +kernel)) or).map₂ hstar or
  | asynchronous => exact word (by decide) (by decide +kernel)

theorem endsIn_cons_iff {text word outer : List Char} (hc : isBlank c = true)
    (hw : word ∈ staticWord :: keywords) :
    EndsIn (c :: text) word outer ↔ ∃ inner, outer = c :: inner ∧ EndsIn text word inner := by
  constructor
  · rintro ⟨gap, he, hg⟩
    cases outer with
    | nil =>
      have hall : ((staticWord :: keywords).all fun word => word.head?.any (!isBlank ·)) =
          true := by
        decide +kernel
      obtain ⟨d, hd, hb⟩ := (Option.any_eq_true _ _).1 (List.all_eq_true.1 hall word hw)
      obtain ⟨rest, rfl⟩ := List.head?_eq_some_iff.1 hd
      obtain ⟨rfl, -⟩ := List.cons.inj he
      rw [hc] at hb
      cases hb
    | cons d inner =>
      obtain ⟨rfl, ht⟩ := List.cons.inj he
      exact ⟨inner, rfl, gap, ht, hg⟩
  · rintro ⟨inner, rfl, gap, rfl, hg⟩
    exact ⟨gap, rfl, hg⟩

theorem exists_endsIn_cons_iff {text word : List Char} (hc : isBlank c = true)
    (hw : word ∈ staticWord :: keywords) :
    (∃ outer, EndsIn (c :: text) word outer) ↔ ∃ outer, EndsIn text word outer := by
  simp only [endsIn_cons_iff hc hw]
  constructor
  · rintro ⟨_, inner, rfl, h⟩
    exact ⟨inner, h⟩
  · rintro ⟨inner, h⟩
    exact ⟨_, inner, rfl, h⟩

namespace Reading

variable {reading : Reading} {text : List Char} {signature : Signature}

def followed (reading : Reading) (c : Char) : Reading :=
  { reading with behind := reading.behind ++ [c] }

theorem Reads.followed (h : reading.Reads text) (c : Char) :
    (reading.followed c).Reads (text ++ [c]) where
  head_eq := by
    rw [h.head_eq, List.append_assoc]
    rfl
  type_run := h.type_run
  gap_run := h.gap_run
  name_run := h.name_run
  space_blank := h.space_blank
  closes := List.mem_append_left [c] h.closes

theorem Reads.of_cons_blank (hc : isBlank c = true) (h : reading.Reads (c :: text)) :
    ∃ inner : Reading, reading = inner.behindText [c] ∧ inner.Reads text := by
  obtain ⟨front, type, gap, name, space, behind⟩ := reading
  cases front with
  | nil =>
    obtain ⟨d, rest, rfl⟩ := List.exists_cons_of_ne_nil h.type_run.ne_nil
    obtain ⟨rfl, -⟩ := List.cons.inj h.head_eq
    have htype := h.type_run.all c List.mem_cons_self
    rw [isTypeChar_of_isBlank hc] at htype
    cases htype
  | cons d front =>
    obtain ⟨rfl, -⟩ := List.cons.inj h.head_eq
    have hinner : (behindText ⟨front, type, gap, name, space, behind⟩ [c]).Reads ([c] ++ text) := h
    exact ⟨_, rfl, reads_behindText_iff.1 hinner⟩

theorem Reads.of_append_blank (hc : isBlank c = true) (h : reading.Reads (text ++ [c])) :
    ∃ inner : Reading, reading = inner.followed c ∧ inner.Reads text := by
  obtain ⟨front, type, gap, name, space, behind⟩ := reading
  obtain rfl | ⟨init, last, rfl⟩ := List.eq_nil_or_concat' behind
  · cases h.closes
  · have he : text ++ [c] =
      before ⟨front, type, gap, name, space, init⟩ ++ '(' :: init ++ [last] := by
      rw [h.head_eq, List.append_assoc]
      rfl
    obtain ⟨rfl, hlast⟩ := List.append_inj' he rfl
    obtain rfl := List.singleton_inj.1 hlast
    refine ⟨⟨front, type, gap, name, space, init⟩, rfl, rfl, h.type_run, h.gap_run, h.name_run,
      h.space_blank, ?_⟩
    rcases List.mem_append.1 h.closes with hm | hm
    · exact hm
    · exact absurd (List.mem_singleton.1 hm).symm (ne_of_isBlank hc (by decide))

theorem Leads.behindBlank (hc : isBlank c = true) (h : reading.Leads text) :
    (reading.behindText [c]).Leads (c :: text) where
  toReads := reads_behindText_iff.2 h.toReads
  first other ho := by
    obtain ⟨inner, rfl, hi⟩ := ho.of_cons_blank hc
    rw [before_behindText, before_behindText, List.length_append, List.length_append]
    exact Nat.add_le_add_left (h.first inner hi) _
  whole d hd := by
    rw [behindText, List.singleton_append, List.getLast?_cons, Option.mem_def,
      Option.some.injEq] at hd
    subst hd
    cases hl : reading.front.getLast? with
    | none => exact isTypeChar_of_isBlank hc
    | some d => exact h.whole d hl

theorem Leads.followed (hc : isBlank c = true) (h : reading.Leads text) :
    (reading.followed c).Leads (text ++ [c]) where
  toReads := h.toReads.followed c
  first other ho := by
    obtain ⟨inner, rfl, hi⟩ := ho.of_append_blank hc
    exact h.first inner hi
  whole := h.whole

theorem Tells.followed (h : reading.Tells signature) (c : Char) :
    (reading.followed c).Tells signature :=
  ⟨h.name_eq, h.isStatic_iff, h.access_iff⟩

theorem Tells.behindBlank (hc : isBlank c = true) (h : reading.Tells signature) :
    (reading.behindText [c]).Tells signature where
  name_eq := h.name_eq
  isStatic_iff := h.isStatic_iff.trans (exists_endsIn_cons_iff hc List.mem_cons_self).symm
  access_iff access := by
    have hw := List.mem_cons_of_mem staticWord (keyword_mem access)
    rw [h.access_iff access]
    constructor
    · rintro ⟨modified, outer, hm, ho⟩
      refine ⟨c :: modified, c :: outer, ?_, (endsIn_cons_iff hc hw).2 ⟨outer, rfl, ho⟩⟩
      split at hm
      · next hs =>
        rw [if_pos hs]
        exact (endsIn_cons_iff hc List.mem_cons_self).2 ⟨modified, rfl, hm⟩
      · next hs =>
        rw [if_neg hs, hm]
        rfl
    · rintro ⟨modified, outer, hm, ho⟩
      split at hm
      · next hs =>
        obtain ⟨inner, rfl, hi⟩ := (endsIn_cons_iff hc List.mem_cons_self).1 hm
        obtain ⟨rest, rfl, hr⟩ := (endsIn_cons_iff hc hw).1 ho
        refine ⟨inner, rest, ?_, hr⟩
        rw [if_pos hs]
        exact hi
      · next hs =>
        obtain rfl : modified = c :: reading.front := hm
        obtain ⟨rest, rfl, hr⟩ := (endsIn_cons_iff hc hw).1 ho
        refine ⟨reading.front, rest, ?_, hr⟩
        rw [if_neg hs]

theorem Tells.unique {other : Signature} (h : reading.Tells signature) (h' : reading.Tells other) :
    signature = other := by
  have hs : signature.isStatic = other.isStatic := by
    rw [Bool.eq_iff_iff, h.isStatic_iff, h'.isStatic_iff]
  have ha : signature.access = other.access := by
    apply Option.ext
    intro access
    rw [h.access_iff, h'.access_iff, hs]
  cases signature
  cases other
  cases h.name_eq.trans h'.name_eq.symm
  cases hs
  cases ha
  rfl

end Reading

theorem inHead?_eq_some_iff {line : List Char} {signature : Signature} :
    inHead? line = some signature ↔
      ∃ reading : Reading, reading.Leads (head line) ∧ reading.Tells signature := by
  have hleads {signature : Signature} (h : inHead? line = some signature) :
      ∃ reading : Reading, reading.Leads (head line) ∧ reading.Tells signature := by
    obtain ⟨captures, hs, rfl⟩ := Option.map_eq_some_iff.1 h
    obtain ⟨_, _, _, _, _, _, hleft, rfl⟩ := exists_leftmost hs
    exact ⟨_, hleft.leads, hleft.tells⟩
  refine ⟨hleads, ?_⟩
  rintro ⟨reading, hl, ht⟩
  obtain ⟨found, hf⟩ :=
    Option.isSome_iff_exists.1 ((inHead?_isSome_iff line).2 ⟨reading, hl.toReads⟩)
  obtain ⟨other, ho, htells⟩ := hleads hf
  obtain rfl := hl.unique ho
  rw [hf, htells.unique ht]

theorem inHead?_eq_of_leads {line other : List Char}
    (hreads : (∃ reading : Reading, reading.Reads (head other)) →
      ∃ reading : Reading, reading.Reads (head line))
    (hleads : ∀ reading : Reading, reading.Leads (head line) →
      ∀ signature, reading.Tells signature →
      ∃ image : Reading, image.Leads (head other) ∧ image.Tells signature) :
    inHead? other = inHead? line := by
  cases h : inHead? line with
  | none =>
    rw [← Option.not_isSome_iff_eq_none, inHead?_isSome_iff]
    intro hr
    have hsome := (inHead?_isSome_iff line).2 (hreads hr)
    rw [h] at hsome
    cases hsome
  | some signature =>
    obtain ⟨reading, hl, ht⟩ := inHead?_eq_some_iff.1 h
    exact inHead?_eq_some_iff.2 (hleads reading hl signature ht)

theorem ignoresBlanks_inHead? : IgnoresBlanks inHead? where
  front c line hc := by
    apply inHead?_eq_of_leads
    · rw [head_cons_blank hc]
      rintro ⟨reading, hr⟩
      obtain ⟨inner, -, hi⟩ := hr.of_cons_blank hc
      exact ⟨inner, hi⟩
    · rw [head_cons_blank hc]
      intro reading hl signature ht
      exact ⟨_, hl.behindBlank hc, ht.behindBlank hc⟩
  back c line hc := by
    rcases head_append_blank hc line with he | he
    · apply inHead?_eq_of_leads
      · rw [he]
        exact id
      · rw [he]
        intro reading hl signature ht
        exact ⟨reading, hl, ht⟩
    · apply inHead?_eq_of_leads
      · rw [he]
        rintro ⟨reading, hr⟩
        obtain ⟨inner, -, hi⟩ := hr.of_append_blank hc
        exact ⟨inner, hi⟩
      · rw [he]
        intro reading hl signature ht
        exact ⟨_, hl.followed hc, ht.followed c⟩

/-- Lines that differ in the blanks around them have the same signature, or none. -/
theorem ofLine?_value_of_trim {line other : String} (h : trim line.toList = trim other.toList) :
    (ofLine? line).value = (ofLine? other).value := by
  apply Option.ext
  intro signature
  rw [ofLine?_value_eq_some_iff, ofLine?_value_eq_some_iff, ignoresBlanks_inHead?.eq_of_trim h]
  simp only [(Exclusion.ignoresBlanks _).eq_of_trim h]

end Signature

end MethodMarkers
