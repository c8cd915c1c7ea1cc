import MethodMarkers.Template.Filling
import MethodMarkers.Proofs.TreeWriting

namespace MethodMarkers.Template
open Toml (Value Table)

variable {size fuel : Nat} {supply : Supply} {cs rest key : List Char} {reader : Reader}

theorem length_lay (place : Place) (parts : Parts) : (lay place parts).length =
    max (place.width.getD 0) (parts.sign.length + parts.mark.length + parts.body.length) := by
  unfold lay
  dsimp only
  split
  · simp only [List.length_append, List.length_replicate]
    omega
  · split
    · simp only [List.length_append, Binary64.zeros, List.length_replicate]
      omega
    · simp only [List.length_append, List.length_replicate]
      omega

theorem length_readMarks (place : Place) (cs : List Char) :
    (readMarks place cs).2.length ≤ cs.length := by
  fun_induction readMarks place cs with
  | case1 place cs ih => exact Nat.le_succ_of_le ih
  | case2 place cs ih => exact Nat.le_succ_of_le ih
  | case3 place cs ih => exact Nat.le_succ_of_le ih
  | case4 place cs ih => exact Nat.le_succ_of_le ih
  | case5 place cs ih => exact Nat.le_succ_of_le ih
  | case6 => exact Nat.le_refl _

theorem length_untilClosed {depth : Nat} {found : List Char}
    (h : untilClosed depth key cs = some (found, rest)) : rest.length ≤ cs.length := by
  fun_induction untilClosed depth key cs with
  | case1 => cases h
  | case2 => cases h; exact Nat.le_succ _
  | case3 depth key cs hd ih => exact Nat.le_succ_of_le (ih h)
  | case4 depth key cs ih => exact Nat.le_succ_of_le (ih h)
  | case5 depth key c cs _ _ ih => exact Nat.le_succ_of_le (ih h)

theorem length_readKey {after : Supply} (h : readKey supply cs = .ok (rest, after)) :
    rest.length ≤ cs.length := by
  unfold readKey at h
  split at h
  · split at h
    · cases h
    · split at h
      · cases h
      · next hu =>
        obtain ⟨found, -, he⟩ := bind_eq_ok_iff.1 h
        cases he
        exact Nat.le_succ_of_le (length_untilClosed hu)
  · cases h
    exact Nat.le_refl _

theorem length_readNumber {limit n m : Nat} {tooBig : Fault}
    (h : readNumber limit tooBig n cs = .ok (m, rest)) : rest.length ≤ cs.length := by
  induction cs generalizing n with
  | nil => cases h; exact Nat.le_refl _
  | cons c cs ih =>
    unfold readNumber at h
    split at h
    · dsimp only at h
      split at h
      · cases h
      · exact Nat.le_succ_of_le (ih h)
    · cases h
      exact Nat.le_refl _

/-- A reader that is further on and may have taken an argument. -/
structure Reader.Advances (reader after : Reader) : Prop where
  length_le : after.rest.length ≤ reader.rest.length
  supply : after.supply = reader.supply ∨
    ∃ value, reader.supply.next = .ok (value, after.supply)

theorem Reader.Advances.refl (reader : Reader) : reader.Advances reader where
  length_le := Nat.le_refl _
  supply := .inl rfl

theorem readWidth_advances {after : Reader} (h : readWidth reader = .ok after) :
    reader.Advances after := by
  unfold readWidth at h
  split at h
  · next he =>
    obtain ⟨⟨value, supply⟩, hn, h⟩ := bind_eq_ok_iff.1 h
    obtain ⟨n, -, h⟩ := bind_eq_ok_iff.1 h
    split at h
    · cases h
    · cases h
      exact ⟨by rw [he]; exact Nat.le_succ _, .inr ⟨value, hn⟩⟩
  · next he =>
    split at h
    · obtain ⟨_, hn, h⟩ := bind_eq_ok_iff.1 h
      cases h
      exact ⟨by rw [he]; exact length_readNumber hn, .inl rfl⟩
    · cases h
      exact .refl _
  · cases h
    exact .refl _

theorem readPrecision_advances {after : Reader} (h : readPrecision reader = .ok after) :
    reader.Advances after := by
  unfold readPrecision at h
  split at h
  · next he =>
    obtain ⟨⟨value, supply⟩, hn, h⟩ := bind_eq_ok_iff.1 h
    obtain ⟨n, -, h⟩ := bind_eq_ok_iff.1 h
    split at h
    · cases h
    · cases h
      exact ⟨by rw [he]; exact Nat.le_add_right _ 2, .inr ⟨value, hn⟩⟩
  · next he =>
    obtain ⟨_, hn, h⟩ := bind_eq_ok_iff.1 h
    cases h
    exact ⟨by rw [he]; exact Nat.le_succ_of_le (length_readNumber hn), .inl rfl⟩
  · cases h
    exact .refl _

theorem length_dropSizeLetter (cs : List Char) : (dropSizeLetter cs).length ≤ cs.length := by
  unfold dropSizeLetter
  split
  all_goals simp

theorem length_readPlace (h : readPlace supply cs = .ok reader) :
    reader.rest.length ≤ cs.length := by
  obtain ⟨⟨behind, found⟩, hk, h⟩ := bind_eq_ok_iff.1 h
  obtain ⟨wide, hw, h⟩ := bind_eq_ok_iff.1 h
  obtain ⟨read, hp, h⟩ := bind_eq_ok_iff.1 h
  cases h
  calc
    (dropSizeLetter read.rest).length ≤ read.rest.length := length_dropSizeLetter _
    _ ≤ wide.rest.length := (readPrecision_advances hp).length_le
    _ ≤ (readMarks {} behind).2.length := (readWidth_advances hw).length_le
    _ ≤ behind.length := length_readMarks _ _
    _ ≤ cs.length := length_readKey hk

theorem bind_congr_ok {α β : Type} {x : Except Fault α} {f g : α → Except Fault β}
    (h : ∀ a, x = .ok a → f a = g a) : x >>= f = x >>= g := by
  cases x with
  | error fault => rfl
  | ok a => exact h a rfl

theorem fillWith_nil (size fuel more : Nat) (supply : Supply) :
    fillWith size fuel supply [] = fillWith size more supply [] := by
  cases supply with
  | keyed table current => cases fuel <;> cases more <;> rfl
  | listed values => cases values <;> cases fuel <;> cases more <;> rfl

theorem fillWith_percents (size fuel : Nat) (supply : Supply) (cs : List Char) :
    fillWith size (fuel + 1) supply ('%' :: '%' :: cs) =
      ('%' :: ·) <$> fillWith size fuel supply cs := by
  rw [fillWith]

theorem fillWith_place (hne : cs.head? ≠ some '%') (size fuel : Nat) (supply : Supply) :
    fillWith size (fuel + 1) supply ('%' :: cs) = (do
      let reader ← readPlace supply cs
      match reader.rest with
      | [] => .error .incomplete
      | letter :: rest =>
        let (value, supply) ← reader.supply.next
        let parts ← convert reader.place letter (size - rest.length - 1) value
        return lay reader.place parts ++ (← fillWith size fuel supply rest)) := by
  have hnot : ∀ ds, cs = '%' :: ds → False := by
    rintro ds rfl
    exact hne rfl
  exact fillWith.eq_5 _ _ _ _ hnot

theorem fillWith_char {c : Char} (hc : c ≠ '%') (size fuel : Nat) (supply : Supply)
    (cs : List Char) :
    fillWith size (fuel + 1) supply (c :: cs) = (c :: ·) <$> fillWith size fuel supply cs := by
  rw [fillWith]
  · exact fun _ he => absurd he hc
  · exact hc

/-- Fuel for each character is enough. -/
theorem fillWith_fuel {more : Nat} (h : cs.length ≤ fuel) (h' : cs.length ≤ more) :
    fillWith size fuel supply cs = fillWith size more supply cs := by
  induction fuel generalizing more supply cs with
  | zero =>
    obtain rfl : cs = [] := List.eq_nil_of_length_eq_zero (Nat.le_zero.mp h)
    exact fillWith_nil ..
  | succ fuel ih =>
    cases cs with
    | nil => exact fillWith_nil ..
    | cons c cs =>
      obtain ⟨more, rfl⟩ := Nat.exists_eq_add_of_le' (Nat.lt_of_lt_of_le (Nat.succ_pos _) h')
      have hf := Nat.le_of_succ_le_succ h
      have hm := Nat.le_of_succ_le_succ h'
      by_cases hc : c = '%'
      · subst hc
        by_cases hd : cs.head? = some '%'
        · obtain ⟨ds, rfl⟩ := List.head?_eq_some_iff.1 hd
          rw [fillWith_percents, fillWith_percents]
          exact congrArg _ (ih (Nat.le_of_succ_le hf) (Nat.le_of_succ_le hm))
        · rw [fillWith_place hd, fillWith_place hd]
          apply bind_congr_ok
          intro reader hr
          have hlength := length_readPlace hr
          cases hrest : reader.rest with
          | nil => rfl
          | cons letter rest =>
            rw [hrest, List.length_cons] at hlength
            apply bind_congr_ok
            rintro ⟨value, supply⟩ -
            apply bind_congr_ok
            intro parts _
            have hboth : rest.length ≤ fuel ∧ rest.length ≤ more := by omega
            rw [ih hboth.1 hboth.2]
      · rw [fillWith_char hc, fillWith_char hc]
        exact congrArg _ (ih hf hm)

/-- A template with its places filled, as many as there are. -/
def filled (size : Nat) (supply : Supply) (cs : List Char) : Except Fault (List Char) :=
  fillWith size cs.length supply cs

theorem filled_percents (size : Nat) (supply : Supply) (cs : List Char) :
    filled size supply ('%' :: '%' :: cs) = ('%' :: ·) <$> filled size supply cs := by
  rw [filled, List.length_cons, fillWith_percents]
  exact congrArg _ (fillWith_fuel (Nat.le_succ _) (Nat.le_refl _))

theorem filled_char {c : Char} (hc : c ≠ '%') (size : Nat) (supply : Supply) (cs : List Char) :
    filled size supply (c :: cs) = (c :: ·) <$> filled size supply cs := by
  rw [filled, List.length_cons, fillWith_char hc, filled]

/-- A text with its percent signs doubled, so that it stands for itself in a template. -/
def escaped (cs : List Char) : List Char :=
  cs.flatMap fun c => if c = '%' then ['%', '%'] else [c]

theorem escaped_percent (cs : List Char) : escaped ('%' :: cs) = '%' :: '%' :: escaped cs :=
  rfl

theorem escaped_char {c : Char} (hc : c ≠ '%') (cs : List Char) :
    escaped (c :: cs) = c :: escaped cs := by
  rw [escaped, List.flatMap_cons, if_neg hc]
  rfl

theorem filled_escaped (size : Nat) (supply : Supply) (cs rest : List Char) :
    filled size supply (escaped cs ++ rest) = (cs ++ ·) <$> filled size supply rest := by
  induction cs with
  | nil => exact (id_map _).symm
  | cons c cs ih =>
    by_cases hc : c = '%'
    · subst hc
      rw [escaped_percent, List.cons_append, List.cons_append, filled_percents, ih, ← comp_map]
      rfl
    · rw [escaped_char hc, List.cons_append, filled_char hc, ih, ← comp_map]
      rfl

theorem filled_place {value : Value} {letter : Char} {parts : Parts} {after : Supply}
    (hne : cs.head? ≠ some '%') (hr : readPlace supply cs = .ok reader)
    (hl : reader.rest = letter :: rest) (hn : reader.supply.next = .ok (value, after))
    (hc : convert reader.place letter (size - rest.length - 1) value = .ok parts) :
    filled size supply ('%' :: cs) = (lay reader.place parts ++ ·) <$> filled size after rest := by
  have hlength := length_readPlace hr
  rw [hl, List.length_cons] at hlength
  rw [filled, List.length_cons, fillWith_place hne, hr]
  simp only [bind, Except.bind, hl, hn, hc]
  rw [filled, fillWith_fuel (by omega) (Nat.le_refl rest.length)]
  cases fillWith size rest.length after rest with
  | error fault => rfl
  | ok text => rfl

theorem filled_missing (hne : cs.head? ≠ some '%') (hr : readPlace supply cs = .ok reader)
    {letter : Char} (hl : reader.rest = letter :: rest) {fault : Fault}
    (hn : reader.supply.next = .error fault) : filled size supply ('%' :: cs) = .error fault := by
  rw [filled, List.length_cons, fillWith_place hne, hr]
  simp only [bind, Except.bind, hl, hn]

theorem lay_plain (value : Value) :
    lay {} (textParts {} value.plain.toList) = value.plain.toList := by
  simp [lay, textParts]

theorem filled_plain (size : Nat) (value : Value) (values : List Value) (cs : List Char) :
    filled size (.listed (value :: values)) ('%' :: 's' :: cs) =
      (value.plain.toList ++ ·) <$> filled size (.listed values) cs := by
  have hr : readPlace (.listed (value :: values)) ('s' :: cs) =
      .ok ⟨{}, 's' :: cs, .listed (value :: values)⟩ := rfl
  rw [filled_place (by simp) hr rfl rfl rfl, lay_plain]

theorem filled_plain_nil (size : Nat) (cs : List Char) :
    filled size (.listed []) ('%' :: 's' :: cs) = .error .tooFewArguments :=
  filled_missing (by simp) rfl rfl rfl

/-- A template with a place for any value between each two of its pieces. -/
def joined (first : List Char) (pieces : List (List Char)) : List Char :=
  escaped first ++ pieces.flatMap fun piece => '%' :: 's' :: escaped piece

theorem joined_cons (first piece : List Char) (pieces : List (List Char)) :
    joined first (piece :: pieces) = escaped first ++ '%' :: 's' :: joined piece pieces :=
  rfl

/-- The pieces behind the first one, each with the value in front of it. -/
def woven (values : List Value) (pieces : List (List Char)) : List Char :=
  (List.zipWith (fun value piece => value.plain.toList ++ piece) values pieces).flatten

theorem woven_cons (value : Value) (values : List Value) (piece : List Char)
    (pieces : List (List Char)) : woven (value :: values) (piece :: pieces) =
      value.plain.toList ++ piece ++ woven values pieces :=
  rfl

/-- Values are put between the pieces if there is one for each place; too many of them are refused
as too few are. -/
theorem filled_joined (size : Nat) (first : List Char) (pieces : List (List Char))
    (values : List Value) : filled size (.listed values) (joined first pieces) =
      if values.length < pieces.length then .error .tooFewArguments
      else if pieces.length < values.length then .error .tooManyArguments
      else .ok (first ++ woven values pieces) := by
  induction pieces generalizing first values with
  | nil =>
    rw [joined, filled_escaped]
    cases values with
    | nil => rfl
    | cons value values => rfl
  | cons piece pieces ih =>
    rw [joined_cons, filled_escaped]
    cases values with
    | nil =>
      rw [filled_plain_nil]
      rfl
    | cons value values =>
      rw [filled_plain, ih]
      simp only [List.length_cons, Nat.add_lt_add_iff_right]
      split
      · rfl
      · split
        · rfl
        · rw [woven_cons]
          exact congrArg Except.ok (by simp only [List.append_assoc])

/-- Arguments that stand for themselves, as all do but a single table with entries. -/
def AreListed (arguments : List Value) : Prop :=
  ∀ entry entries, arguments ≠ [.table (entry :: entries)]

theorem AreListed.supply_eq {arguments : List Value} (h : AreListed arguments) :
    Supply.of arguments = .listed arguments := by
  unfold Supply.of
  split
  · next entry entries => exact absurd rfl (h entry entries)
  · rfl

theorem fill_eq {arguments : List Value} (hne : arguments ≠ []) (template : String) :
    fill template arguments = String.ofList <$>
      filled template.toList.length (.of arguments) template.toList := by
  unfold fill
  dsimp only
  rw [List.isEmpty_eq_false_iff.mpr hne, if_neg Bool.false_ne_true, filled,
    fillWith_fuel (Nat.le_succ _) (Nat.le_refl _)]

theorem fill_joined {arguments : List Value} (hne : arguments ≠ []) (h : AreListed arguments)
    (first : List Char) (pieces : List (List Char)) :
    fill (String.ofList (joined first pieces)) arguments =
      if arguments.length < pieces.length then .error .tooFewArguments
      else if pieces.length < arguments.length then .error .tooManyArguments
      else .ok (String.ofList (first ++ woven arguments pieces)) := by
  rw [fill_eq hne, h.supply_eq, String.toList_ofList, filled_joined]
  split
  · rfl
  · split <;> rfl

end MethodMarkers.Template
