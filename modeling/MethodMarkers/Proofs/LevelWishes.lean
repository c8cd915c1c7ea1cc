import MethodMarkers.Log.Threshold
import MethodMarkers.Proofs.Trimming

namespace MethodMarkers
open Text

namespace Text

variable {c : Char}

theorem toUpper_of_small {k : Nat} (h : k < 26) :
    (Char.ofNat (97 + k)).toUpper = Char.ofNat (65 + k) := by
  revert k
  decide

theorem toUpper_eq_self_or (c : Char) :
    c.toUpper = c ∨ ∃ k < 26, c = Char.ofNat (97 + k) := by
  unfold Char.toUpper
  split
  · next h =>
    right
    have hlow : 97 ≤ c.toNat := h.1
    have hhigh : c.toNat ≤ 122 := h.2
    refine ⟨c.toNat - 97, by omega, ?_⟩
    rw [Nat.add_sub_cancel' hlow, Char.ofNat_toNat]
  · exact .inl rfl

theorem asciiCapital_cases (c : Char) : asciiCapital c = c ∨
    isBlank c = false ∧ isBlank (asciiCapital c) = false ∧
      asciiCapital (asciiCapital c) = asciiCapital c := by
  unfold asciiCapital
  split
  · next h => subst h; decide
  · split
    · next h => subst h; decide
    · rcases toUpper_eq_self_or c with h | ⟨k, hk, rfl⟩
      · exact .inl h
      · right
        rw [toUpper_of_small hk]
        revert k
        decide

theorem isBlank_asciiCapital (c : Char) : isBlank (asciiCapital c) = isBlank c := by
  rcases asciiCapital_cases c with h | ⟨h, hc, -⟩
  · rw [h]
  · rw [h, hc]

theorem asciiCapital_idem (c : Char) : asciiCapital (asciiCapital c) = asciiCapital c := by
  rcases asciiCapital_cases c with h | ⟨-, -, h⟩
  · rw [h, h]
  · exact h

theorem dropBlanks_map_asciiCapital (cs : List Char) :
    dropBlanks (cs.map asciiCapital) = (dropBlanks cs).map asciiCapital := by
  rw [dropBlanks, List.dropWhile_map]
  exact congrArg _ (congrArg (List.dropWhile · cs) (funext isBlank_asciiCapital))

theorem trim_map_asciiCapital (cs : List Char) :
    trim (cs.map asciiCapital) = (trim cs).map asciiCapital := by
  rw [trim, trim, dropBlanksEnd, dropBlanksEnd, dropBlanks_map_asciiCapital, ← List.map_reverse,
    dropBlanks_map_asciiCapital, List.map_reverse]

end Text

namespace Level

variable {level : Level} {environment : Option String}

/-- Neither the case of letters nor the white space around a wish matters. -/
theorem ofText_trim_capital (text : String) :
    ofText (String.ofList ((trim text.toList).map asciiCapital)) = ofText text := by
  have hsame : (trim ((trim text.toList).map asciiCapital)).map asciiCapital =
      (trim text.toList).map asciiCapital := by
    rw [trim_map_asciiCapital, (trimmed_trim _).trim_eq, List.map_map]
    exact List.map_congr_left fun c _ => asciiCapital_idem c
  rw [ofText, ofText, String.toList_ofList, hsame]

/-- Every level that has a name of its own is read by this name. -/
theorem ofText_name (h : level ∈ [0, trace, debug, info, warning, error, critical]) :
    ofText level.name = .ok (some level) := by
  simp only [List.mem_cons, List.not_mem_nil, or_false] at h
  rcases h with rfl | rfl | rfl | rfl | rfl | rfl | rfl <;> rfl

/-- Without a level of its own a run shows call sites only where the environment wishes to see
records that are less grave than information. -/
theorem showsCallSite_threshold (h : threshold none environment = .ok level) :
    level.showsCallSite = true ↔
      ∃ wish, ofEnvironment environment = .ok (some wish) ∧ wish ≠ 0 ∧ wish < info := by
  rw [showsCallSite, decide_eq_true_eq]
  cases he : ofEnvironment environment with
  | error fault =>
    rw [threshold, he] at h
    cases h
  | ok wished =>
    rw [threshold, he] at h
    cases wished with
    | none =>
      cases h
      exact ⟨fun hlt => absurd hlt (by decide), fun ⟨_, hw, _⟩ => nomatch hw⟩
    | some wish =>
      cases h
      by_cases hz : wish = 0
      · rw [if_pos hz]
        exact ⟨fun hlt => absurd hlt (by decide), fun ⟨_, hw, hne, _⟩ =>
          absurd (Option.some.inj (Except.ok.inj hw) ▸ hz) hne⟩
      · rw [if_neg hz]
        exact ⟨fun hlt => ⟨wish, rfl, hz, hlt⟩, fun ⟨_, hw, _, hlt⟩ =>
          Option.some.inj (Except.ok.inj hw) ▸ hlt⟩

end Level

end MethodMarkers
