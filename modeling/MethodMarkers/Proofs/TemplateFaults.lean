import MethodMarkers.Proofs.TemplateFilling

namespace MethodMarkers.Template
open Toml (Value Table)

variable {α β : Type} {size fuel : Nat} {supply : Supply} {cs rest : List Char} {reader : Reader}
  {fault : Fault}

theorem Fault.class_eq_entry_iff : fault.class = .entry ↔ ∃ key, fault = .noEntry key := by
  cases fault <;> simp [Fault.class]

/-- A computation in which a missing entry is one that the table does not have. -/
def Misses (known : Option Table) (x : Except Fault α) : Prop :=
  ∀ key, x = .error (.noEntry key) → ∃ table, known = some table ∧ table.lookup key = none

variable {known : Option Table}

theorem misses_ok (a : α) : Misses known (.ok a) :=
  nofun

theorem misses_error (h : fault.class ≠ .entry) : Misses known (.error fault : Except Fault α) :=
  fun key he => absurd (Fault.class_eq_entry_iff.mpr ⟨key, Except.error.inj he⟩) h

theorem Misses.bind {x : Except Fault α} {f : α → Except Fault β} (hx : Misses known x)
    (hf : ∀ a, x = .ok a → Misses known (f a)) : Misses known (x >>= f) := by
  cases x with
  | error fault => exact fun key he => hx key (congrArg _ (Except.error.inj he))
  | ok a => exact hf a rfl

theorem Misses.map {x : Except Fault α} (f : α → β) (hx : Misses known x) :
    Misses known (f <$> x) := by
  cases x with
  | error fault => exact fun key he => hx key (congrArg _ (Except.error.inj he))
  | ok a => exact misses_ok _

/-- The table whose entries places name. -/
def Supply.table? : Supply → Option Table
  | listed _ => none
  | keyed table _ => some table

theorem Supply.misses_next (supply : Supply) : Misses known supply.next := by
  unfold Supply.next
  split
  · exact misses_ok _
  · exact misses_ok _
  · exact misses_error (by decide)

theorem Supply.table?_of_next {value : Value} {after : Supply}
    (h : supply.next = .ok (value, after)) : after.table? = supply.table? := by
  unfold Supply.next at h
  split at h
  · cases h; rfl
  · cases h; rfl
  · cases h

theorem Supply.misses_find (key : String) (supply : Supply) :
    Misses supply.table? (supply.find key) := by
  unfold Supply.find
  split
  · exact misses_error (by decide)
  · next table current =>
    split
    · exact misses_ok _
    · next hl =>
      intro other he
      cases he
      exact ⟨table, rfl, hl⟩

theorem Supply.table?_of_find {key : String} {after : Supply} (h : supply.find key = .ok after) :
    after.table? = supply.table? := by
  unfold Supply.find at h
  split at h
  · cases h
  · split at h
    · cases h; rfl
    · cases h

theorem misses_readKey (supply : Supply) (cs : List Char) :
    Misses supply.table? (readKey supply cs) := by
  unfold readKey
  split
  · split
    · exact misses_error (by decide)
    · split
      · exact misses_error (by decide)
      · exact (Supply.misses_find _ _).bind fun after _ => misses_ok _
  · exact misses_ok _

theorem table?_of_readKey {after : Supply} (h : readKey supply cs = .ok (rest, after)) :
    after.table? = supply.table? := by
  unfold readKey at h
  split at h
  · cases supply with
    | listed values => cases h
    | keyed table current =>
      dsimp only at h
      split at h
      · cases h
      · obtain ⟨found, hf, he⟩ := bind_eq_ok_iff.1 h
        cases he
        exact Supply.table?_of_find hf
  · cases h; rfl

theorem misses_readNumber {limit n : Nat} {tooBig : Fault} (h : tooBig.class ≠ .entry)
    (cs : List Char) : Misses known (readNumber limit tooBig n cs) := by
  induction cs generalizing n with
  | nil => exact misses_ok _
  | cons c cs ih =>
    unfold readNumber
    split
    · dsimp only
      split
      · exact misses_error h
      · exact ih
    · exact misses_ok _

theorem misses_sizeOf (value : Value) : Misses known (sizeOf value) := by
  unfold sizeOf
  split
  · exact misses_ok _
  · exact misses_ok _
  · exact misses_error (by decide)

theorem misses_readWidth (reader : Reader) : Misses known (readWidth reader) := by
  unfold readWidth
  split
  · refine reader.supply.misses_next.bind fun _ _ => (misses_sizeOf _).bind fun _ _ => ?_
    split
    · exact misses_error (by decide)
    · exact misses_ok _
  · split
    · exact (misses_readNumber (by decide) _).bind fun _ _ => misses_ok _
    · exact misses_ok _
  · exact misses_ok _

theorem misses_readPrecision (reader : Reader) : Misses known (readPrecision reader) := by
  unfold readPrecision
  split
  · refine reader.supply.misses_next.bind fun _ _ => (misses_sizeOf _).bind fun _ _ => ?_
    split
    · exact misses_error (by decide)
    · exact misses_ok _
  · exact (misses_readNumber (by decide) _).bind fun _ _ => misses_ok _
  · exact misses_ok _

theorem Reader.Advances.table?_eq {after : Reader} (h : reader.Advances after) :
    after.supply.table? = reader.supply.table? := by
  rcases h.supply with he | ⟨value, hn⟩
  · rw [he]
  · exact Supply.table?_of_next hn

theorem misses_readPlace (supply : Supply) (cs : List Char) :
    Misses supply.table? (readPlace supply cs) :=
  (misses_readKey supply cs).bind fun _ _ => (misses_readWidth _).bind fun _ _ =>
    (misses_readPrecision _).bind fun _ _ => misses_ok _

theorem table?_of_readPlace (h : readPlace supply cs = .ok reader) :
    reader.supply.table? = supply.table? := by
  obtain ⟨⟨behind, found⟩, hk, h⟩ := bind_eq_ok_iff.1 h
  obtain ⟨wide, hw, h⟩ := bind_eq_ok_iff.1 h
  obtain ⟨read, hp, h⟩ := bind_eq_ok_iff.1 h
  cases h
  calc
    read.supply.table? = wide.supply.table? := (readPrecision_advances hp).table?_eq
    _ = found.table? := (readWidth_advances hw).table?_eq
    _ = supply.table? := table?_of_readKey hk

theorem misses_wholeOf (letter : Char) (value : Value) : Misses known (wholeOf letter value) := by
  unfold wholeOf
  split
  · exact misses_ok _
  · exact misses_ok _
  · split
    · exact misses_ok _
    · exact misses_error (by decide)
    · exact misses_error (by decide)
  · exact misses_error nofun

theorem misses_integerOf (letter : Char) (value : Value) :
    Misses known (integerOf letter value) := by
  unfold integerOf
  split
  · exact misses_ok _
  · exact misses_ok _
  · exact misses_error nofun

theorem misses_realOf (value : Value) : Misses known (realOf value) := by
  -- Unfolding would compute a real.
  fun_cases realOf value with
  | case1 => exact misses_ok _
  | case2 => exact misses_ok _
  | case3 => exact misses_error (by decide)
  | case4 => exact misses_ok _
  | case5 => exact misses_error nofun

theorem misses_characterOf (value : Value) : Misses known (characterOf value) := by
  have number (n : Int) : Misses known (characterOf.ofNumber n) := by
    unfold characterOf.ofNumber
    split
    · exact misses_ok _
    · exact misses_error (by decide)
  unfold characterOf
  split
  · split
    · exact misses_ok _
    · exact misses_error (by decide)
  · exact number _
  · exact number _
  · exact misses_error (by decide)

theorem misses_integerParts (place : Place) (base : Nat) (mark : List Char) (n : Int) :
    Misses known (integerParts place base mark n) := by
  unfold integerParts
  dsimp only
  split
  · exact misses_error (by decide)
  · exact misses_ok _

theorem misses_convert (place : Place) (letter : Char) (index : Nat) (value : Value) :
    Misses known (convert place letter index value) := by
  have real (layout : Binary64.Layout) :
      Misses known (do return realParts place layout (← realOf value)) :=
    (misses_realOf value).bind fun _ _ => misses_ok _
  unfold convert
  dsimp only
  split
  all_goals first
    | exact misses_ok _
    | exact real _
    | exact (real _).bind fun _ _ => misses_ok _
    | exact (misses_wholeOf _ _).bind fun _ _ => misses_integerParts _ _ _ _
    | exact (misses_integerOf _ _).bind fun _ _ => misses_integerParts _ _ _ _
    | exact (misses_integerOf _ _).bind fun _ _ => (misses_integerParts _ _ _ _).bind
        fun _ _ => misses_ok _
    | exact (misses_characterOf _).bind fun _ _ => misses_ok _
    | exact misses_error nofun

theorem misses_fillWith (size fuel : Nat) (supply : Supply) (cs : List Char) :
    Misses supply.table? (fillWith size fuel supply cs) := by
  fun_induction fillWith size fuel supply cs with
  | case1 => exact misses_error (by decide)
  | case2 => exact misses_ok _
  | case3 => exact misses_ok _
  | case4 fuel supply cs ih => exact ih.map _
  | case5 fuel supply cs hne ih =>
    refine (misses_readPlace supply cs).bind fun reader hr => ?_
    rw [← table?_of_readPlace hr]
    split
    · exact misses_error (by decide)
    · refine (Supply.misses_next _).bind fun next hn => ?_
      rw [← Supply.table?_of_next hn]
      exact (misses_convert _ _ _ _).bind fun _ _ => (ih _ _).bind fun _ _ => misses_ok _
  | case6 fuel supply c cs hne hc ih => exact ih.map _

theorem Supply.of_table? {arguments : List Value} {table : Table}
    (h : (Supply.of arguments).table? = some table) : arguments = [.table table] := by
  unfold Supply.of at h
  split at h
  · cases h; rfl
  · cases h

/-- A missing entry is one of a single table, in which its name is not found. -/
theorem fill_entry {template : String} {arguments : List Value}
    (h : fill template arguments = .error fault) (hf : fault.class = .entry) :
    ∃ table key, arguments = [.table table] ∧ fault = .noEntry key ∧ table.lookup key = none := by
  obtain ⟨key, rfl⟩ := Fault.class_eq_entry_iff.mp hf
  have hne : arguments ≠ [] := by
    rintro rfl
    cases h
  rw [fill_eq hne] at h
  obtain ⟨table, ht, hl⟩ := (misses_fillWith _ _ _ _).map String.ofList key h
  exact ⟨table, key, Supply.of_table? ht, rfl, hl⟩

end MethodMarkers.Template
