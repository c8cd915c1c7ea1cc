import MethodMarkers.Diff.Matching
import Mathlib.Data.List.Range

namespace MethodMarkers.Diff

variable {old new lines : Array String} {i j room : Nat} {p q : Nat → Nat → Bool}
  {window : Window} {run : Run} {xs ys : List Run}

theorem agree_iff :
    agree old new i j = true ↔ ∃ line, old[i]? = some line ∧ new[j]? = some line := by
  rw [agree]
  split
  · next a b ha hb =>
    rw [ha, hb, beq_iff_eq]
    exact ⟨fun he => ⟨a, rfl, he ▸ rfl⟩, fun ⟨_, hl, hl'⟩ => Option.some.inj (hl.trans hl'.symm)⟩
  · next hnot => exact ⟨nofun, fun ⟨line, hl, hl'⟩ => absurd hl' (hnot line line hl)⟩

/-- Seeds are the pairs of equal lines that are not popular. -/
theorem mem_seeds_iff : j ∈ (seeds old new)[i]?.getD [] ↔
    ∃ line, old[i]? = some line ∧ new[j]? = some line ∧ isPopular new line = false := by
  rw [seeds, Array.getElem?_map]
  cases hi : old[i]? with
  | none => exact ⟨nofun, fun ⟨_, h, _⟩ => nomatch h⟩
  | some line =>
    rw [Option.map_some, Option.getD_some]
    split
    · next hp =>
      refine ⟨nofun, fun ⟨_, he, _, hn⟩ => ?_⟩
      rw [← Option.some.inj he, hp] at hn
      cases hn
    · next hp =>
      rw [List.mem_filter, List.mem_range, agree_iff]
      constructor
      · rintro ⟨-, other, ho, hj⟩
        exact ⟨other, ho, hj, by rw [← Option.some.inj ho]; exact Bool.eq_false_iff.2 hp⟩
      · rintro ⟨other, ho, hj, -⟩
        exact ⟨(Array.getElem?_eq_some_iff.1 hj).1, other, ho, hj⟩

section Counting

theorem countBack_le (p : Nat → Nat → Bool) (room i j : Nat) : countBack p room i j ≤ room := by
  induction room generalizing i j with
  | zero => exact Nat.le_refl 0
  | succ room ih =>
    rw [countBack]
    split
    · exact Nat.succ_le_succ (ih _ _)
    · exact Nat.zero_le _

theorem of_lt_countBack {k : Nat} (h : k < countBack p room i j) : p (i - k) (j - k) = true := by
  induction room generalizing i j k with
  | zero => cases h
  | succ room ih =>
    rw [countBack] at h
    split at h
    · next hp =>
      cases k with
      | zero => exact hp
      | succ k =>
        have hrest := ih (Nat.lt_of_succ_lt_succ h)
        rwa [Nat.sub_sub, Nat.sub_sub, Nat.add_comm 1 k] at hrest
    · cases h

theorem countBack_mono {room' i' j' : Nat} (hr : room ≤ room')
    (h : ∀ k, p (i - k) (j - k) = true → q (i' - k) (j' - k) = true) :
    countBack p room i j ≤ countBack q room' i' j' := by
  induction room generalizing i j room' i' j' with
  | zero => exact Nat.zero_le _
  | succ room ih =>
    obtain ⟨room', rfl⟩ := Nat.exists_eq_add_of_lt hr
    rw [countBack]
    split
    · next hp =>
      have hq : q i' j' = true := h 0 hp
      rw [countBack, if_pos hq]
      refine Nat.succ_le_succ (ih (Nat.le_add_right _ _) fun k hk => ?_)
      rw [Nat.sub_sub, Nat.sub_sub] at hk ⊢
      exact h (1 + k) hk
    · exact Nat.zero_le _

theorem countBack_eq_room (h : ∀ k < room, p (i - k) (j - k) = true) :
    countBack p room i j = room := by
  induction room generalizing i j with
  | zero => rfl
  | succ room ih =>
    have hp : p i j = true := h 0 (Nat.succ_pos room)
    rw [countBack, if_pos hp, ih]
    intro k hk
    rw [Nat.sub_sub, Nat.sub_sub, Nat.add_comm]
    exact h (k + 1) (Nat.succ_lt_succ hk)

theorem countOn_le (p : Nat → Nat → Bool) (room i j : Nat) : countOn p room i j ≤ room := by
  induction room generalizing i j with
  | zero => exact Nat.le_refl 0
  | succ room ih =>
    rw [countOn]
    split
    · exact Nat.succ_le_succ (ih _ _)
    · exact Nat.zero_le _

theorem of_lt_countOn {k : Nat} (h : k < countOn p room i j) : p (i + k) (j + k) = true := by
  induction room generalizing i j k with
  | zero => cases h
  | succ room ih =>
    rw [countOn] at h
    split at h
    · next hp =>
      cases k with
      | zero => exact hp
      | succ k =>
        have hrest := ih (Nat.lt_of_succ_lt_succ h)
        rwa [Nat.add_assoc, Nat.add_assoc, Nat.add_comm 1 k] at hrest
    · cases h

theorem countOn_eq_room (h : ∀ k < room, p (i + k) (j + k) = true) :
    countOn p room i j = room := by
  induction room generalizing i j with
  | zero => rfl
  | succ room ih =>
    have hp : p i j = true := h 0 (Nat.succ_pos room)
    rw [countOn, if_pos hp, ih]
    intro k hk
    rw [Nat.add_assoc, Nat.add_assoc, Nat.add_comm 1 k]
    exact h (k + 1) (Nat.succ_lt_succ hk)

end Counting

def Run.Pairs (old new : Array String) (run : Run) : Prop :=
  ∀ k < run.length, agree old new (run.old + k) (run.new + k) = true

structure Run.Within (window : Window) (run : Run) : Prop where
  old_ge : window.oldFrom ≤ run.old
  old_le : run.old + run.length ≤ window.oldTo
  new_ge : window.newFrom ≤ run.new
  new_le : run.new + run.length ≤ window.newTo

def Window.behind (window : Window) (run : Run) : Window :=
  { window with oldFrom := run.old + run.length, newFrom := run.new + run.length }

/-- Runs of equal lines in a window, each behind the one before in both texts. -/
inductive Increasing (old new : Array String) : Window → List Run → Prop
  | nil {window : Window} : Increasing old new window []
  | cons {window : Window} {run : Run} {runs : List Run} (within : run.Within window)
      (pairs : run.Pairs old new) (rest : Increasing old new (window.behind run) runs) :
      Increasing old new window (run :: runs)

theorem length_runEndingAt_le (seeds : Array (List Nat)) (window : Window) (i j : Nat) :
    (runEndingAt seeds window i j).length ≤ min (i - window.oldFrom) (j - window.newFrom) + 1 :=
  countBack_le _ _ _ _

theorem runEndingAt_within {seeds : Array (List Nat)} (hi : window.oldFrom ≤ i)
    (hi' : i < window.oldTo) (hj : window.newFrom ≤ j) (hj' : j < window.newTo) :
    (runEndingAt seeds window i j).Within window := by
  have hl := length_runEndingAt_le seeds window i j
  rw [runEndingAt] at hl ⊢
  dsimp only at hl ⊢
  constructor <;> dsimp only <;> omega

theorem runEndingAt_pairs (i j : Nat) :
    (runEndingAt (seeds old new) window i j).Pairs old new := by
  have hl := length_runEndingAt_le (seeds old new) window i j
  intro k hk
  rw [runEndingAt] at hl hk ⊢
  dsimp only at hl hk ⊢
  generalize hn : countBack _ _ i j = length at hl hk ⊢
  have hlt : length - 1 - k < length := by omega
  rw [← hn] at hlt
  have hseed := of_lt_countBack hlt
  rw [hn, List.contains_iff_mem, mem_seeds_iff] at hseed
  obtain ⟨line, ho, hw, -⟩ := hseed
  refine agree_iff.2 ⟨line, ?_, ?_⟩
  · rw [← ho]
    congr 1
    omega
  · rw [← hw]
    congr 1
    omega

def row (seeds : Array (List Nat)) (window : Window) (i : Nat) : List Nat :=
  (seeds[i]?.getD []).filter fun j => decide (window.newFrom ≤ j) && decide (j < window.newTo)

def longer (best run : Run) : Run :=
  if best.length < run.length then run else best

theorem longestSeeded_eq (seeds : Array (List Nat)) (window : Window) :
    longestSeeded seeds window =
      (List.range' window.oldFrom (window.oldTo - window.oldFrom)).foldl
        (fun best i => (row seeds window i).foldl
          (fun best j => longer best (runEndingAt seeds window i j)) best)
        ⟨window.oldFrom, window.newFrom, 0⟩ :=
  rfl

/-- The first longest run of seeds is a run of equal lines in the window. -/
theorem longestSeeded_spec (ho : window.oldFrom ≤ window.oldTo)
    (hn : window.newFrom ≤ window.newTo) :
    (longestSeeded (seeds old new) window).Within window ∧
      (longestSeeded (seeds old new) window).Pairs old new := by
  rw [longestSeeded_eq]
  refine List.foldlRecOn (motive := fun run : Run => run.Within window ∧ run.Pairs old new) _ _
    ?_ ?_
  · exact ⟨⟨Nat.le_refl _, ho, Nat.le_refl _, hn⟩, nofun⟩
  · intro best hbest i hi
    refine List.foldlRecOn (motive := fun run : Run => run.Within window ∧ run.Pairs old new) _ _
      hbest ?_
    intro best hbest j hj
    obtain ⟨hi, hi'⟩ := List.mem_range'_1.1 hi
    have hj := (List.mem_filter.1 hj).2
    rw [Bool.and_eq_true, decide_eq_true_iff, decide_eq_true_iff] at hj
    rw [longer]
    split
    · exact ⟨runEndingAt_within hi (by omega) hj.1 hj.2, runEndingAt_pairs i j⟩
    · exact hbest

theorem extend_spec (hw : run.Within window) (hp : run.Pairs old new) :
    (extend old new window run).Within window ∧ (extend old new window run).Pairs old new := by
  obtain ⟨hog, hol, hng, hnl⟩ := hw
  rw [extend]
  generalize hback : (if run.old = 0 ∨ run.new = 0 then 0 else _) = back
  generalize hon : countOn _ _ _ _ = on
  have hb : back ≤ run.old - window.oldFrom ∧ back ≤ run.new - window.newFrom ∧
      ∀ k < back, agree old new (run.old - 1 - k) (run.new - 1 - k) = true := by
    subst hback
    split
    · exact ⟨Nat.zero_le _, Nat.zero_le _, nofun⟩
    · have hle := countBack_le (agree old new)
        (min (run.old - window.oldFrom) (run.new - window.newFrom)) (run.old - 1) (run.new - 1)
      exact ⟨by omega, by omega, fun k hk => of_lt_countBack hk⟩
  have ho := countOn_le (agree old new)
    (min (window.oldTo - (run.old + run.length)) (window.newTo - (run.new + run.length)))
    (run.old + run.length) (run.new + run.length)
  have hon' : ∀ k < on,
      agree old new (run.old + run.length + k) (run.new + run.length + k) = true :=
    fun k hk => of_lt_countOn (hon ▸ hk)
  rw [hon] at ho
  obtain ⟨hbo, hbn, hbk⟩ := hb
  constructor
  · constructor <;> dsimp only <;> omega
  · intro k hk
    dsimp only at hk ⊢
    by_cases hk1 : k < back
    · have h := hbk (back - 1 - k) (by omega)
      rwa [show run.old - 1 - (back - 1 - k) = run.old - back + k by omega,
        show run.new - 1 - (back - 1 - k) = run.new - back + k by omega] at h
    · by_cases hk2 : k < back + run.length
      · have h := hp (k - back) (by omega)
        rwa [show run.old + (k - back) = run.old - back + k by omega,
          show run.new + (k - back) = run.new - back + k by omega] at h
      · have h := hon' (k - back - run.length) (by omega)
        rwa [show run.old + run.length + (k - back - run.length) = run.old - back + k by omega,
          show run.new + run.length + (k - back - run.length) = run.new - back + k by omega] at h

namespace Increasing

theorem append (h : Increasing old new { window with oldTo := run.old, newTo := run.new } xs)
    (hw : run.Within window) (hp : run.Pairs old new)
    (h' : Increasing old new (window.behind run) ys) :
    Increasing old new window (xs ++ run :: ys) := by
  induction xs generalizing window with
  | nil => exact .cons hw hp h'
  | cons first xs ih =>
    cases h with
    | cons within pairs rest =>
      obtain ⟨hog, hol, hng, hnl⟩ := within
      dsimp only at hog hol hng hnl
      have hwhole : first.Within window :=
        ⟨hog, by have := hw.old_le; omega, hng, by have := hw.new_le; omega⟩
      have hbehind : run.Within (window.behind first) := ⟨hol, hw.old_le, hnl, hw.new_le⟩
      exact .cons hwhole pairs (ih rest hbehind h')

theorem joinTouching (h : Increasing old new window xs) :
    Increasing old new window (joinTouching xs) := by
  induction h with
  | nil => exact .nil
  | @cons window run runs hw hp _ ih =>
    rw [Diff.joinTouching]
    split
    · exact .cons hw hp .nil
    · next next rest he =>
      rw [he] at ih
      split
      · next ht =>
        cases ih with
        | cons hnw hnp hrest =>
          refine .cons ⟨hw.old_ge, ?_, hw.new_ge, ?_⟩ ?_ ?_
          · have := hnw.old_le
            simp only [Window.behind] at this ⊢
            omega
          · have := hnw.new_le
            simp only [Window.behind] at this ⊢
            omega
          · intro k hk
            dsimp only at hk ⊢
            by_cases hlt : k < run.length
            · exact hp k hlt
            · have h := hnp (k - run.length) (by omega)
              rwa [show next.old + (k - run.length) = run.old + k by omega,
                show next.new + (k - run.length) = run.new + k by omega] at h
          · simp only [Window.behind] at hrest ⊢
            rwa [← Nat.add_assoc, ← Nat.add_assoc, ht.1, ht.2]
      · exact .cons hw hp ih

end Increasing

theorem runsIn_increasing (depth : Nat) (window : Window) :
    Increasing old new window (runsIn old new (seeds old new) depth window) := by
  induction depth generalizing window with
  | zero => exact .nil
  | succ depth ih =>
    rw [runsIn]
    split
    · next hw =>
      obtain ⟨hl, hp⟩ := @longestSeeded_spec old new window (Nat.le_of_lt hw.1) (Nat.le_of_lt hw.2)
      obtain ⟨he, hp⟩ := extend_spec hl hp
      dsimp only
      split
      · exact .nil
      · exact (ih _).append he hp (ih _)
    · exact .nil

/-- The runs by which two texts are compared are runs of equal lines, each behind the one before. -/
theorem runs_increasing (old new : Array String) :
    Increasing old new ⟨0, old.size, 0, new.size⟩ (runs old new) :=
  (runsIn_increasing _ _).joinTouching

end MethodMarkers.Diff
