import MethodMarkers.Toml.Quoted

namespace MethodMarkers.Toml
open Text

variable {c letter : Char} {cs done rest : List Char} {multiline : Bool}

theorem meaning_of_shortEscape (h : shortEscapes.lookup c = some letter) :
    numeralWidth? letter = none ∧ letterEscapes.find? (·.2 == letter) = some (c, letter) := by
  have hall : ∀ escape ∈ shortEscapes, numeralWidth? escape.2 = none ∧
      letterEscapes.find? (·.2 == escape.2) = some escape := by decide
  obtain ⟨front, back, he, -⟩ := List.lookup_eq_some_iff.1 h
  exact hall (c, letter) (he ▸ List.mem_append_right front List.mem_cons_self)

theorem ne_quote_of_lookup (h : shortEscapes.lookup c = none) : c ≠ '"' ∧ c ≠ '\\' := by
  constructor
  · rintro rfl
    cases h
  · rintro rfl
    cases h

theorem toNat_lt_of_not_isPlain (h : isPlain c = false) : c.toNat < 128 := by
  rw [isPlain, Bool.or_eq_false_iff, Bool.and_eq_false_iff, decide_eq_false_iff_not,
    bne_eq_false_iff_eq] at h
  omega

theorem numeral_spec {n : Nat} (h : n < 128) :
    (hexDigits 4 n).length = 4 ∧ numberedChar? (hexDigits 4 n) = some (Char.ofNat n) := by
  revert n
  decide +kernel

theorem decodeFrom_backslash {cs : List Char} :
    decodeFrom '"' multiline done .outside ('\\' :: cs) = decodeFrom '"' multiline done .begun cs :=
  rfl

theorem decodeFrom_numeral {quote : Char} {numeral : List Char} {left : Nat} (hl : cs.length = left)
    (hs : cs ≠ []) (hn : numberedChar? (numeral.reverse ++ cs) = some c) :
    decodeFrom quote multiline done (.numeral left numeral) (cs ++ rest) =
      decodeFrom quote multiline (c :: done) .outside rest := by
  -- What was read of the number moves from `cs` to `numeral`, so both vary.
  induction cs generalizing left numeral with
  | nil => exact absurd rfl hs
  | cons digit cs ih =>
    rw [List.length_cons] at hl
    rw [List.cons_append, decodeFrom]
    cases cs with
    | nil =>
      have hread : numberedChar? (digit :: numeral).reverse = some c := by
        rw [List.reverse_cons]
        exact hn
      rw [List.length_nil] at hl
      rw [if_neg (by omega), hread]
      rfl
    | cons next cs =>
      rw [List.length_cons] at hl
      rw [if_pos (by omega)]
      refine ih (by rw [List.length_cons]; omega) (List.cons_ne_nil _ _) ?_
      rw [List.reverse_cons, List.append_assoc]
      exact hn

theorem decodeFrom_encodeChar (c : Char) (done rest : List Char) :
    decodeFrom '"' multiline done .outside (encodeChar c ++ rest) =
      decodeFrom '"' multiline (c :: done) .outside rest := by
  unfold encodeChar
  split
  · next letter hl =>
    obtain ⟨hw, hf⟩ := meaning_of_shortEscape hl
    have hbegun : decodeFrom '"' multiline done .begun (letter :: rest) =
        decodeFrom '"' multiline (c :: done) .outside rest := by
      rw [decodeFrom, hw, hf]
    rw [← hbegun]
    exact decodeFrom_backslash
  · next hl =>
    obtain ⟨hq, hb⟩ := ne_quote_of_lookup hl
    split
    · next hp =>
      rw [List.singleton_append, decodeFrom, if_neg hq, if_neg fun h => hb h.1, hp, Bool.true_or,
        if_pos rfl]
    · next hp =>
      have hc := toNat_lt_of_not_isPlain (eq_false_of_ne_true hp)
      obtain ⟨hlength, hn⟩ := numeral_spec hc
      rw [Char.ofNat_toNat] at hn
      have hbegun : decodeFrom '"' multiline done .begun ('u' :: (hexDigits 4 c.toNat ++ rest)) =
          decodeFrom '"' multiline done (.numeral 4 []) (hexDigits 4 c.toNat ++ rest) := rfl
      have hnumeral : decodeFrom '"' multiline done (.numeral 4 []) (hexDigits 4 c.toNat ++ rest) =
          decodeFrom '"' multiline (c :: done) .outside rest :=
        decodeFrom_numeral hlength (List.ne_nil_of_length_eq_add_one hlength) hn
      rw [← hnumeral, ← hbegun]
      exact decodeFrom_backslash

theorem decodeFrom_encoded (text done rest : List Char) :
    decodeFrom '"' false done .outside (text.flatMap encodeChar ++ '"' :: rest) =
      some (String.ofList (done.reverse ++ text), rest) := by
  induction text generalizing done with
  | nil =>
    rw [List.append_nil]
    rfl
  | cons c text ih =>
    rw [List.flatMap_cons, List.append_assoc, decodeFrom_encodeChar, ih, List.reverse_cons,
      List.append_assoc]
    rfl

theorem encodeChar_head (c : Char) : ∃ first more, encodeChar c = first :: more ∧ first ≠ '"' := by
  unfold encodeChar
  split
  · exact ⟨'\\', _, rfl, by decide⟩
  · next hl =>
    split
    · exact ⟨c, [], rfl, (ne_quote_of_lookup hl).1⟩
    · exact ⟨'\\', _, rfl, by decide⟩

theorem isPlain_of_mem_encode {text : String} (h : c ∈ encode text) : isPlain c = true := by
  have hletter : ∀ escape ∈ shortEscapes, isPlain escape.2 = true := by decide
  have hnumeral : ∀ n < 128, (hexDigits 4 n).all isPlain = true := by decide +kernel
  rw [encode, List.cons_append, List.mem_cons, List.mem_append, List.mem_flatMap,
    List.mem_singleton] at h
  rcases h with rfl | ⟨written, -, h⟩ | rfl
  · rfl
  · unfold encodeChar at h
    split at h
    · next letter hl =>
      obtain ⟨front, back, he, -⟩ := List.lookup_eq_some_iff.1 hl
      rcases List.mem_cons.1 h with rfl | h
      · rfl
      · cases List.mem_singleton.1 h
        exact hletter (written, c) (he ▸ List.mem_append_right front List.mem_cons_self)
    · split at h
      · next hp =>
        cases List.mem_singleton.1 h
        exact hp
      · next hp =>
        rw [List.mem_cons, List.mem_cons] at h
        rcases h with rfl | rfl | h
        · rfl
        · rfl
        · have hdigits := hnumeral _ (toNat_lt_of_not_isPlain (eq_false_of_ne_true hp))
          exact List.all_eq_true.1 hdigits c h
  · rfl

/-- A written text is read back, unless another quote follows the closing one: an empty text would
then seem to begin with three. -/
theorem decode?_encode (text : String) (h : rest.head? ≠ some '"') :
    decode? (encode text ++ rest) = some ((false, text), rest) := by
  have hread := decodeFrom_encoded text.toList [] rest
  rw [List.reverse_nil, List.nil_append, String.ofList_toList] at hread
  have hthree : (text.toList.flatMap encodeChar ++ '"' :: rest).take 2 ≠ ['"', '"'] := by
    cases text.toList with
    | nil =>
      intro ht
      cases rest with
      | nil => cases ht
      | cons c rest => exact h (congrArg some (List.cons.inj (List.cons.inj ht).2).1)
    | cons c cs =>
      obtain ⟨first, more, he, hf⟩ := encodeChar_head c
      rw [List.flatMap_cons, he]
      exact fun ht => hf (List.cons.inj ht).1
  have htext : encode text ++ rest = '"' :: (text.toList.flatMap encodeChar ++ '"' :: rest) := by
    rw [encode, List.cons_append, List.cons_append, List.append_assoc]
    rfl
  rw [htext, decode?, if_neg (by decide), if_neg hthree, hread]
  rfl

end MethodMarkers.Toml
