import MethodMarkers.Proofs.QuotedRoundTrip
import MethodMarkers.Proofs.Trimming
import MethodMarkers.Toml.Printer

namespace MethodMarkers.Toml
open Text

variable {c : Char} {cs rest : List Char} {fuel depth : Nat}

structure NameLetter (c : Char) : Prop where
  isBlank_eq : isBlank c = false
  isSpace_eq : isSpace c = false
  isQuote_eq : isQuote c = false
  opensNoStatement_eq : opensNoStatement c = false
  ne_bracket : c ≠ '['
  isPlain_eq : isPlain c = true

theorem nameLetter_of_isBare (h : isBare c = true) : NameLetter c := by
  have hlt : c.toNat < 128 := by
    have hranges : (decide ('A'.val ≤ c.val ∧ c.val ≤ 'Z'.val) ||
        (decide ('a'.val ≤ c.val) && decide (c.val ≤ 'z'.val)) ||
        (decide ('0'.val ≤ c.val) && decide (c.val ≤ '9'.val)) || c == '_' || c == '-') = true := h
    simp only [Bool.or_eq_true, Bool.and_eq_true, decide_eq_true_eq, beq_iff_eq,
      UInt32.le_iff_toNat_le] at hranges
    rcases hranges with (((⟨-, hle⟩ | ⟨-, hle⟩) | ⟨-, hle⟩) | rfl) | rfl
    · exact Nat.lt_of_le_of_lt hle (by decide)
    · exact Nat.lt_of_le_of_lt hle (by decide)
    · exact Nat.lt_of_le_of_lt hle (by decide)
    · decide
    · decide
  have hall : ∀ n < 128, isBare (.ofNat n) = true →
      isBlank (.ofNat n) = false ∧ isSpace (.ofNat n) = false ∧ isQuote (.ofNat n) = false ∧
        opensNoStatement (.ofNat n) = false ∧ Char.ofNat n ≠ '[' ∧ isPlain (.ofNat n) = true := by
    decide +kernel
  have hc := hall c.toNat hlt
  rw [Char.ofNat_toNat] at hc
  obtain ⟨hblank, hspace, hquote, hopens, hbracket, hplain⟩ := hc h
  exact ⟨hblank, hspace, hquote, hopens, hbracket, hplain⟩

theorem nameText_bare {name : String} (h : name.toList ≠ [] ∧ name.toList.all isBare = true) :
    nameText name = name.toList :=
  if_pos h

theorem nameText_spec (name : String) :
    (∃ first more, nameText name = first :: more ∧ isSpace first = false ∧
      opensNoStatement first = false ∧ first ≠ '[') ∧ ∀ c ∈ nameText name, isPlain c = true := by
  by_cases h : name.toList ≠ [] ∧ name.toList.all isBare = true
  · rw [nameText_bare h]
    obtain ⟨hn, hb⟩ := h
    rw [List.all_eq_true] at hb
    constructor
    · obtain ⟨first, more, he⟩ := List.exists_cons_of_ne_nil hn
      have hfirst := nameLetter_of_isBare (hb first (he ▸ List.mem_cons_self))
      exact ⟨first, more, he, hfirst.isSpace_eq, hfirst.opensNoStatement_eq, hfirst.ne_bracket⟩
    · exact fun c hc => (nameLetter_of_isBare (hb c hc)).isPlain_eq
  · rw [nameText, if_neg h]
    exact ⟨⟨'"', _, rfl, rfl, rfl, by decide⟩, fun c hc => isPlain_of_mem_encode hc⟩

theorem dropSpace_cons (h : isSpace c = false) (cs : List Char) :
    dropSpace (c :: cs) = c :: cs := by
  rw [dropSpace, List.dropWhile_cons_of_neg (Bool.not_eq_true _ ▸ h)]

theorem bareName_append {name blanks : List Char} (hn : name ≠ [])
    (hb : ∀ c ∈ name, isBare c = true) (hs : ∀ c ∈ blanks, c = ' ')
    (hc : isBare c = false ∧ isSpace c = false) (rest : List Char) :
    bareName (name ++ (blanks ++ c :: rest)) = .ok (String.ofList name, c :: rest) := by
  have hname : ∀ d ∈ name ++ blanks, (isBare d || isSpace d) = true := by
    intro d hd
    rcases List.mem_append.1 hd with hd | hd
    · rw [hb d hd, Bool.true_or]
    · rw [hs d hd]
      rfl
  have hstop : ¬ (isBare c || isSpace c) = true := by
    rw [hc.1, hc.2]
    decide
  have htake : (name ++ blanks ++ c :: rest).takeWhile (fun d => isBare d || isSpace d) =
      name ++ blanks := by
    rw [List.takeWhile_append_of_pos hname]
    exact (congrArg (name ++ blanks ++ ·) (List.takeWhile_cons_of_neg hstop)).trans
      (List.append_nil _)
  have hdrop : (name ++ blanks ++ c :: rest).dropWhile (fun d => isBare d || isSpace d) =
      c :: rest := by
    rw [List.dropWhile_append_of_pos hname]
    exact List.dropWhile_cons_of_neg hstop
  have htrimmed : Trimmed name :=
    .of_notBlank fun d hd => (nameLetter_of_isBare (hb d hd)).isBlank_eq
  have htrim : trim (name ++ blanks) = name := htrimmed.trim_append hn fun d hd => hs d hd ▸ rfl
  have hspace : name.any isSpace = false :=
    List.any_eq_false.2 fun d hd => Bool.not_eq_true _ ▸ (nameLetter_of_isBare (hb d hd)).isSpace_eq
  rw [← List.append_assoc, bareName, htake, hdrop, htrim, if_neg (by simp [hn, hspace])]

theorem readName_nameText (name : String) {blanks : List Char} (hs : ∀ c ∈ blanks, c = ' ')
    (hc : isBare c = false ∧ isSpace c = false ∧ c ≠ '"') :
    readName (nameText name ++ (blanks ++ c :: rest)) = .ok (name, c :: rest) := by
  by_cases h : name.toList ≠ [] ∧ name.toList.all isBare = true
  · rw [nameText_bare h]
    obtain ⟨hn, hb⟩ := h
    rw [List.all_eq_true] at hb
    obtain ⟨first, more, he⟩ := List.exists_cons_of_ne_nil hn
    have hfirst := nameLetter_of_isBare (hb first (he ▸ List.mem_cons_self))
    have hread := bareName_append hn hb hs ⟨hc.1, hc.2.1⟩ rest
    rw [String.ofList_toList] at hread
    rw [he, List.cons_append] at hread ⊢
    rw [readName, dropSpace_cons hfirst.isSpace_eq]
    rw [if_neg (by simp [hfirst.isQuote_eq])]
    exact hread
  · have hrest : (blanks ++ c :: rest).head? ≠ some '"' := by
      cases blanks with
      | nil => exact fun he => hc.2.2 (Option.some.inj he)
      | cons d blanks =>
        rw [hs d List.mem_cons_self]
        exact nofun
    have hdrop : dropSpace (blanks ++ c :: rest) = c :: rest := by
      rw [dropSpace, List.dropWhile_append_of_pos fun d hd => hs d hd ▸ rfl]
      exact dropSpace_cons hc.2.1 rest
    have hspace : dropSpace (encode name ++ (blanks ++ c :: rest)) =
        encode name ++ (blanks ++ c :: rest) :=
      dropSpace_cons rfl _
    have hquote : (encode name ++ (blanks ++ c :: rest)).head?.any isQuote = true := rfl
    rw [nameText, if_neg h, readName, hspace, decode?_encode name hrest, if_pos hquote]
    simp only [require, bind, Except.bind, Bool.false_eq_true, if_false, hdrop]

theorem keyEquals_nameText (name : String) (hc : isSpace c = false) :
    keyEquals (nameText name ++ ' ' :: '=' :: ' ' :: c :: cs) = .ok ([name], c :: cs) := by
  have hname : readName (nameText name ++ ([' '] ++ '=' :: ' ' :: c :: cs)) =
      .ok (name, '=' :: ' ' :: c :: cs) :=
    readName_nameText name (fun _ hd => List.mem_singleton.1 hd) (by decide)
  have hkey : readKey (nameText name ++ ' ' :: '=' :: ' ' :: c :: cs) =
      .ok ([name], '=' :: ' ' :: c :: cs) := by
    rw [readKey, longestKey, readKeyWith]
    change (readName (nameText name ++ ([' '] ++ '=' :: ' ' :: c :: cs)) >>= _) = _
    rw [hname]
    rfl
  have hdrop : dropSpace (' ' :: c :: cs) = c :: cs := dropSpace_cons hc cs
  rw [keyEquals, hkey]
  exact congrArg (fun rest => Except.ok ([name], rest)) hdrop

theorem readKey_header (name : String) (rest : List Char) :
    readKey (nameText name ++ ']' :: rest) = .ok ([name], ']' :: rest) := by
  have hname : readName (nameText name ++ ([] ++ ']' :: rest)) = .ok (name, ']' :: rest) :=
    readName_nameText name nofun (by decide)
  rw [List.nil_append] at hname
  rw [readKey, longestKey, readKeyWith, hname]
  rfl

theorem valueWith_encode (text : String) (h : rest.head? ≠ some '"') :
    valueWith (fuel + 1) depth (encode text ++ rest) = .ok (.text text, rest) := by
  have hquote : (encode text ++ rest).head?.any isQuote = true := rfl
  have hvalue : valueWith (fuel + 1) depth (encode text ++ rest) =
      if (encode text ++ rest).head?.any isQuote then
        require ((decode? (encode text ++ rest)).map fun read => (.text read.1.2, read.2))
      else scalar (encode text ++ rest) := by
    rw [encode, List.cons_append, List.cons_append, valueWith]
    · rintro _ ⟨⟩
    · rintro _ ⟨⟩
  rw [hvalue, if_pos hquote, decode?_encode text h]
  rfl

theorem itemsWith_space (fuel depth : Nat) (cs : List Char) :
    itemsWith fuel depth (' ' :: cs) = itemsWith fuel depth cs := by
  cases fuel with
  | zero => rw [itemsWith, itemsWith]
  | succ fuel => rw [itemsWith, itemsWith]; rfl

theorem itemsWith_comma (text : String) (fuel depth : Nat) (cs : List Char) :
    itemsWith (fuel + 2) depth (encode text ++ ',' :: cs) = (do
      let (items, rest) ← itemsWith (fuel + 1) depth cs
      return (.text text :: items, rest)) := by
  have hvalue : valueWith (fuel + 1) depth (encode text ++ ',' :: cs) =
      .ok (.text text, ',' :: cs) :=
    valueWith_encode text nofun
  have hgap : dropGap false (encode text ++ ',' :: cs) = .ok (encode text ++ ',' :: cs) := rfl
  rw [itemsWith, hgap]
  simp only [bind, Except.bind, hvalue]
  rfl

theorem itemsWith_last (text : String) (fuel depth : Nat) (cs : List Char) :
    itemsWith (fuel + 2) depth (encode text ++ ']' :: cs) = .ok ([.text text], cs) := by
  have hvalue : valueWith (fuel + 1) depth (encode text ++ ']' :: cs) =
      .ok (.text text, ']' :: cs) :=
    valueWith_encode text nofun
  have hgap : dropGap false (encode text ++ ']' :: cs) = .ok (encode text ++ ']' :: cs) := rfl
  rw [itemsWith, hgap]
  simp only [bind, Except.bind, hvalue]
  rfl

theorem itemsWith_none (fuel depth : Nat) (cs : List Char) :
    itemsWith (fuel + 2) depth (']' :: cs) = .ok ([], cs) := by
  have hgap : dropGap false (']' :: cs) = .ok (']' :: cs) := rfl
  have hvalue : valueWith (fuel + 1) depth (']' :: cs) = .error (.brokenOff cs) := by
    rw [valueWith]
    · rfl
    · exact nofun
    · exact nofun
  rw [itemsWith, hgap]
  simp only [bind, Except.bind, hvalue]
  rfl

theorem itemsWith_texts (texts : List String) (depth : Nat) (rest : List Char)
    (hf : texts.length + 2 ≤ fuel) :
    itemsWith fuel depth (List.intercalate ", ".toList (texts.map encode) ++ ']' :: rest) =
      .ok (texts.map .text, rest) := by
  -- The fuel of a value is given back for the items behind it: two are enough for the last.
  induction texts generalizing fuel with
  | nil =>
    obtain ⟨more, rfl⟩ := Nat.exists_eq_add_of_le' hf
    exact itemsWith_none more depth rest
  | cons text texts ih =>
    rw [List.length_cons] at hf
    obtain ⟨more, rfl⟩ := Nat.exists_eq_add_of_le' (Nat.le_trans (by omega : 2 ≤ _) hf)
    cases texts with
    | nil =>
      rw [List.map_singleton, List.map_singleton, List.intercalate_singleton]
      exact itemsWith_last text more depth rest
    | cons next texts =>
      have hrest := @ih (more + 1) (by omega)
      rw [List.map_cons, List.map_cons, List.intercalate_cons_cons]
      rw [List.map_cons] at hrest
      simp only [List.append_assoc]
      change itemsWith (more + 2) depth (encode text ++ ',' :: ' ' ::
        (List.intercalate ", ".toList (encode next :: texts.map encode) ++ ']' :: rest)) = _
      rw [itemsWith_comma, itemsWith_space, hrest]
      rfl

inductive Value.IsFlat : Value → Prop where
  | text (text : String) : IsFlat (.text text)
  | texts (texts : List String) : IsFlat (.ofTexts texts)

theorem Value.IsFlat.hasHeaders_eq {value : Value} (h : value.IsFlat) :
    value.hasHeaders = false := by
  cases h with
  | text text => rfl
  | texts texts => cases texts <;> rfl

theorem itemDocuments?_texts (texts : List String) :
    itemDocuments? (texts.map .text) = some (texts.map encode) := by
  induction texts with
  | nil => rfl
  | cons text texts ih =>
    rw [List.map_cons, itemDocuments?, ih]
    rfl

theorem length_le_length_intercalate (texts : List String) :
    texts.length ≤ (List.intercalate ", ".toList (texts.map encode)).length := by
  induction texts with
  | nil => exact Nat.zero_le _
  | cons text texts ih =>
    cases texts with
    | nil =>
      rw [List.map_singleton, List.intercalate_singleton]
      exact Nat.succ_le_succ (Nat.zero_le _)
    | cons next texts =>
      rw [List.map_cons] at ih
      rw [List.map_cons, List.map_cons, List.intercalate_cons_cons, List.length_append,
        List.length_append, List.length_cons]
      have hcomma : ", ".toList.length = 2 := rfl
      omega

theorem isPlain_of_mem_intercalate {texts : List String}
    (h : c ∈ List.intercalate ", ".toList (texts.map encode)) : isPlain c = true := by
  induction texts with
  | nil => cases h
  | cons text texts ih =>
    cases texts with
    | nil =>
      rw [List.map_singleton, List.intercalate_singleton] at h
      exact isPlain_of_mem_encode h
    | cons next texts =>
      rw [List.map_cons] at ih
      rw [List.map_cons, List.map_cons, List.intercalate_cons_cons, List.mem_append,
        List.mem_append] at h
      rcases h with (h | h) | h
      · exact isPlain_of_mem_encode h
      · have hcomma : ∀ d ∈ ", ".toList, isPlain d = true := List.all_eq_true.1 rfl
        exact hcomma c h
      · exact ih h

theorem Value.IsFlat.readValue_document {value : Value} (h : value.IsFlat) :
    ∃ first text, value.document? = some (first :: text) ∧ isSpace first = false ∧
      (∀ c ∈ first :: text, isPlain c = true) ∧
      ∀ rest, readValue (first :: text ++ '\n' :: rest) = .ok (value, '\n' :: rest) := by
  cases h with
  | text text =>
    refine ⟨'"', _, rfl, rfl, fun c hc => isPlain_of_mem_encode hc, fun rest => ?_⟩
    exact valueWith_encode text nofun
  | texts texts =>
    refine ⟨'[', List.intercalate ", ".toList (texts.map encode) ++ [']'], ?_, rfl, ?_, ?_⟩
    · rw [ofTexts, document?, itemDocuments?_texts]
      rfl
    · intro c hc
      rw [List.mem_cons, List.mem_append, List.mem_singleton] at hc
      rcases hc with rfl | hc | rfl
      · rfl
      · exact isPlain_of_mem_intercalate hc
      · rfl
    · intro rest
      have hlength := length_le_length_intercalate texts
      rw [List.cons_append, List.append_assoc, List.singleton_append, readValue, valueWith,
        if_pos (by decide), itemsWith_texts]
      · rfl
      · rw [List.length_cons, List.length_append]
        omega

/-- Lines that are read as statements, whatever stands behind them. -/
structure Spells (text : List Char) (made : List Statement) : Prop where
  isPlain_or : ∀ c ∈ text, isPlain c = true ∨ c = '\n'
  read : ∃ lines ≤ text.length, ∀ fuel rest,
    statementsWith (fuel + lines) (text ++ rest) = made ++ statementsWith fuel rest

namespace Spells

variable {text more : List Char} {made next : List Statement}

theorem nil : Spells [] [] where
  isPlain_or := nofun
  read := ⟨0, Nat.le_refl _, fun _ _ => rfl⟩

theorem append (h : Spells text made) (hm : Spells more next) :
    Spells (text ++ more) (made ++ next) where
  isPlain_or c hc := (List.mem_append.1 hc).elim (h.isPlain_or c) (hm.isPlain_or c)
  read := by
    obtain ⟨lines, hl, hr⟩ := h.read
    obtain ⟨further, hf, hrest⟩ := hm.read
    refine ⟨further + lines, ?_, fun fuel rest => ?_⟩
    · rw [List.length_append]
      omega
    · rw [← Nat.add_assoc, List.append_assoc, hr, hrest, List.append_assoc]

theorem blank : Spells ['\n'] [] where
  isPlain_or _ hc := .inr (List.mem_singleton.1 hc)
  read := ⟨1, Nat.le_refl _, fun _ _ => rfl⟩

theorem line {statement : Statement} (hp : ∀ c ∈ text, isPlain c = true)
    (h : ∀ fuel rest, statementsWith (fuel + 1) (text ++ '\n' :: rest) =
      statement :: statementsWith fuel rest) : Spells (text ++ ['\n']) [statement] where
  isPlain_or c hc := (List.mem_append.1 hc).imp (hp c) List.mem_singleton.1
  read := by
    refine ⟨1, ?_, fun fuel rest => ?_⟩
    · rw [List.length_append]
      exact Nat.le_add_left _ _
    · rw [List.append_assoc]
      exact h fuel rest

/-- All that is read of the lines of a document are their statements. -/
theorem statements_eq (h : Spells text made) : statements text = made := by
  obtain ⟨lines, hl, hr⟩ := h.read
  have hread := hr (text.length + 1 - lines) []
  have hend : statementsWith (text.length + 1 - lines) [] = [] := by
    obtain ⟨fuel, hf⟩ : ∃ fuel, text.length + 1 - lines = fuel + 1 :=
      ⟨text.length - lines, by omega⟩
    rw [hf]
    rfl
  rw [List.append_nil, hend, List.append_nil, Nat.sub_add_cancel (by omega)] at hread
  exact hread

end Spells

theorem statementsWith_pair (hs : isSpace c = false) (ho : opensNoStatement c = false)
    (hb : c ≠ '[') : statementsWith (fuel + 1) (c :: cs) = match readPair (c :: cs) with
      | .error refusal => [.broken refusal.toFault]
      | .ok (pair, rest) => pair :: statementsWith fuel rest := by
  rw [statementsWith, dropSpace_cons hs]
  split
  · next h => cases h
  · next h => exact absurd (List.cons.inj h).1 hb
  · next h => exact absurd (List.cons.inj h).1 hb
  · exact if_neg (by simp [ho])

theorem spells_pair (name : String) {value : Value} (h : value.IsFlat) :
    ∃ text, value.document? = some text ∧
      Spells (pairText name text ++ ['\n']) [.pair [name] value] := by
  obtain ⟨c, text, hd, hs, hp, hr⟩ := h.readValue_document
  obtain ⟨⟨first, more, hn, hspace, ho, hb⟩, hname⟩ := nameText_spec name
  refine ⟨c :: text, hd, .line ?_ fun fuel rest => ?_⟩
  · have hequals : ∀ d ∈ " = ".toList, isPlain d = true := List.all_eq_true.1 rfl
    intro d hd
    rw [pairText, List.mem_append, List.mem_append] at hd
    exact hd.elim (Or.elim · (hname d) (hequals d)) (hp d)
  · have hkey : keyEquals (nameText name ++ ' ' :: '=' :: ' ' :: c :: (text ++ '\n' :: rest)) =
        .ok ([name], c :: (text ++ '\n' :: rest)) :=
      keyEquals_nameText name hs
    have hline : pairText name (c :: text) ++ '\n' :: rest =
        nameText name ++ ' ' :: '=' :: ' ' :: c :: (text ++ '\n' :: rest) := by
      rw [pairText, List.append_assoc, List.append_assoc]
      rfl
    have hpair : readPair (nameText name ++ ' ' :: '=' :: ' ' :: c :: (text ++ '\n' :: rest)) =
        .ok (.pair [name] value, rest) := by
      have hvalue := hr rest
      rw [List.cons_append] at hvalue
      rw [readPair, hkey]
      simp only [bind, Except.bind, hvalue]
      rfl
    rw [hline]
    rw [hn, List.cons_append] at hpair ⊢
    rw [statementsWith_pair hspace ho hb, hpair]

theorem spells_header (name : String) :
    Spells ('[' :: keyText [name] ++ [']', '\n']) [.header [name]] := by
  obtain ⟨⟨first, more, hn, -, -, hb⟩, hname⟩ := nameText_spec name
  have hline : '[' :: keyText [name] ++ [']', '\n'] =
      ('[' :: nameText name ++ [']']) ++ ['\n'] := by
    rw [keyText, List.map_singleton, List.intercalate_singleton, List.append_assoc]
    rfl
  rw [hline]
  refine .line ?_ fun fuel rest => ?_
  · intro c hc
    rw [List.cons_append, List.mem_cons, List.mem_append, List.mem_singleton] at hc
    rcases hc with rfl | hc | rfl
    · rfl
    · exact hname c hc
    · rfl
  · have hkey := readKey_header name ('\n' :: rest)
    have hopen : statementsWith (fuel + 1) ('[' :: (nameText name ++ ']' :: '\n' :: rest)) =
        headerThen (statementsWith fuel) 1 .header (nameText name ++ ']' :: '\n' :: rest) := by
      rw [hn, List.cons_append, statementsWith, dropSpace_cons rfl]
      split
      · next h => cases h
      · next h => exact absurd (List.cons.inj (List.cons.inj h).2).1 hb
      · next h =>
        cases h
        rfl
      · next h => exact absurd rfl (h _)
    rw [List.cons_append, List.cons_append, List.append_assoc]
    refine hopen.trans ?_
    rw [headerThen, hkey]
    rfl

end MethodMarkers.Toml
