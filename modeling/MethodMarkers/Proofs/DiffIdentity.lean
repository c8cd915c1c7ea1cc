import MethodMarkers.Proofs.DiffMatching

namespace MethodMarkers.Diff

variable {lines : Array String} {i : Nat} {window : Window} {run : Run}

def whole (lines : Array String) : Window :=
  ⟨0, lines.size, 0, lines.size⟩

/-- How many seeds of a text compared with itself stand in a row up to a pair of positions. -/
def seedsBack (lines : Array String) (i j : Nat) : Nat :=
  (runEndingAt (seeds lines lines) (whole lines) i j).length

theorem seedsBack_le (lines : Array String) (i j : Nat) :
    seedsBack lines i j ≤ seedsBack lines (min i j) (min i j) := by
  refine countBack_mono ?_ ?_
  · dsimp only [whole]
    omega
  · intro k hk
    rw [List.contains_iff_mem, mem_seeds_iff] at hk ⊢
    obtain ⟨line, hi, hj, hp⟩ := hk
    rcases Nat.le_total i j with hle | hle
    · rw [Nat.min_eq_left hle]
      exact ⟨line, hi, hi, hp⟩
    · rw [Nat.min_eq_right hle]
      exact ⟨line, hj, hj, hp⟩

theorem seedsBack_eq_zero (h : i ∉ (seeds lines lines)[i]?.getD []) : seedsBack lines i i = 0 := by
  rw [seedsBack, runEndingAt]
  dsimp only
  rw [countBack, if_neg (mt List.contains_iff_mem.1 h)]

theorem mem_row_self (h : i ∈ (seeds lines lines)[i]?.getD []) :
    i ∈ row (seeds lines lines) (whole lines) i := by
  obtain ⟨line, hi, -⟩ := mem_seeds_iff.1 h
  have hlt := (Array.getElem?_eq_some_iff.1 hi).1
  refine List.mem_filter.2 ⟨h, ?_⟩
  rw [Bool.and_eq_true, decide_eq_true_iff, decide_eq_true_iff]
  exact ⟨Nat.zero_le i, hlt⟩

theorem row_pairwise (old new : Array String) (window : Window) (i : Nat) :
    (row (seeds old new) window i).Pairwise (· < ·) := by
  apply List.Pairwise.filter
  rw [seeds, Array.getElem?_map]
  cases old[i]? with
  | none => exact List.Pairwise.nil
  | some line =>
    rw [Option.map_some, Option.getD_some]
    split
    · exact List.Pairwise.nil
    · exact List.pairwise_lt_range.filter _

theorem longer_eq_self {best : Run} (h : run.length ≤ best.length) : longer best run = best :=
  if_neg (Nat.not_lt.2 h)

/-- Of the runs of seeds that end with one line, the one on the diagonal is taken, unless one that
is as long was found before. -/
theorem foldl_row {js : List Nat} {best after : Run} (hs : js.Pairwise (· < ·))
    (ha : js.foldl (fun best j =>
      longer best (runEndingAt (seeds lines lines) (whole lines) i j)) best = after)
    (hb : best.old = best.new) (hk : ∀ k < i, seedsBack lines k k ≤ best.length)
    (hi : i ∈ js ∨ seedsBack lines i i ≤ best.length) :
    after.old = after.new ∧ ∀ k < i + 1, seedsBack lines k k ≤ after.length := by
  induction js generalizing best with
  | nil =>
    subst ha
    refine ⟨hb, fun k hlt => ?_⟩
    rcases Nat.lt_succ_iff_lt_or_eq.1 hlt with hlt | rfl
    · exact hk k hlt
    · exact hi.resolve_left List.not_mem_nil
  | cons j js ih =>
    obtain ⟨hj, hs⟩ := List.pairwise_cons.1 hs
    rw [List.foldl_cons] at ha
    have hle := seedsBack_le lines i j
    rcases Nat.lt_trichotomy j i with hlt | rfl | hlt
    · rw [Nat.min_eq_right (Nat.le_of_lt hlt)] at hle
      rw [longer_eq_self (hle.trans (hk j hlt))] at ha
      exact ih hs ha hb hk (hi.imp_left fun hm =>
        (List.mem_cons.1 hm).resolve_left (Nat.ne_of_gt hlt))
    · rw [longer] at ha
      split at ha
      · next hlonger =>
        refine ih hs ha ?_ (fun k hlt => (hk k hlt).trans (Nat.le_of_lt hlonger))
          (.inr (Nat.le_refl _))
        rfl
      · next hshorter => exact ih hs ha hb hk (.inr (Nat.not_lt.1 hshorter))
    · rw [Nat.min_eq_left (Nat.le_of_lt hlt)] at hle
      have hdiagonal : seedsBack lines i i ≤ best.length := by
        refine hi.resolve_left fun hm => ?_
        rcases List.mem_cons.1 hm with rfl | hm
        · exact Nat.lt_irrefl _ hlt
        · exact Nat.lt_asymm hlt (hj i hm)
      rw [longer_eq_self (hle.trans hdiagonal)] at ha
      exact ih hs ha hb hk (.inr hdiagonal)

theorem longestSeeded_self (lines : Array String) :
    (longestSeeded (seeds lines lines) (whole lines)).old =
      (longestSeeded (seeds lines lines) (whole lines)).new := by
  have hrows : ∀ rows best, (List.range' 0 rows).foldl (fun best i =>
      (row (seeds lines lines) (whole lines) i).foldl (fun best j =>
        longer best (runEndingAt (seeds lines lines) (whole lines) i j)) best) ⟨0, 0, 0⟩ = best →
      best.old = best.new ∧ ∀ k < rows, seedsBack lines k k ≤ best.length := by
    intro rows
    induction rows with
    | zero =>
      rintro best rfl
      exact ⟨rfl, nofun⟩
    | succ rows ih =>
      intro best hbest
      rw [List.range'_concat, List.foldl_append, List.foldl_cons, List.foldl_nil, Nat.zero_add,
        Nat.one_mul] at hbest
      obtain ⟨hd, hk⟩ := ih _ rfl
      refine foldl_row (row_pairwise lines lines _ rows) hbest hd hk ?_
      by_cases hm : rows ∈ row (seeds lines lines) (whole lines) rows
      · exact .inl hm
      · rw [seedsBack_eq_zero (mt mem_row_self hm)]
        exact .inr (Nat.zero_le _)
  rw [longestSeeded_eq]
  exact (hrows _ _ rfl).1

theorem extend_self (hw : run.Within (whole lines)) (hd : run.old = run.new) :
    extend lines lines (whole lines) run = ⟨0, 0, lines.size⟩ := by
  have hagree (k : Nat) (hk : k < lines.size) : agree lines lines k k = true :=
    agree_iff.2 ⟨lines[k], Array.getElem?_eq_getElem hk, Array.getElem?_eq_getElem hk⟩
  have hol := hw.old_le
  dsimp only [whole] at hol
  have hback : (if run.old = 0 ∨ run.new = 0 then 0 else
      countBack (agree lines lines) (min (run.old - 0) (run.new - 0)) (run.old - 1)
        (run.new - 1)) = run.old := by
    split
    · next hz => omega
    · rw [countBack_eq_room, ← hd, Nat.min_self, Nat.sub_zero]
      intro k hk
      rw [← hd]
      exact hagree _ (by omega)
  have hon : countOn (agree lines lines) (min (lines.size - (run.old + run.length))
      (lines.size - (run.new + run.length))) (run.old + run.length) (run.new + run.length) =
        lines.size - (run.old + run.length) := by
    rw [countOn_eq_room, ← hd, Nat.min_self]
    intro k hk
    rw [← hd]
    exact hagree _ (by omega)
  rw [extend]
  dsimp only [whole]
  rw [hback, hon, Run.mk.injEq]
  omega

theorem runsIn_eq_nil {old new : Array String} {seeds : Array (List Nat)} {depth : Nat}
    (h : window.oldTo ≤ window.oldFrom) : runsIn old new seeds depth window = [] := by
  cases depth with
  | zero => rfl
  | succ depth => rw [runsIn, if_neg fun hw => Nat.not_lt.2 h hw.1]

/-- A text compared with itself is one run. -/
theorem runs_self (lines : Array String) :
    runs lines lines = if lines.size = 0 then [] else [⟨0, 0, lines.size⟩] := by
  rw [runs]
  cases hn : lines.size with
  | zero => rfl
  | succ size =>
    have hrun : extend lines lines (whole lines) (longestSeeded (seeds lines lines) (whole lines)) =
        ⟨0, 0, lines.size⟩ :=
      extend_self (longestSeeded_spec (Nat.zero_le _) (Nat.zero_le _)).1 (longestSeeded_self lines)
    rw [whole, hn] at hrun
    rw [runsIn, if_pos ⟨Nat.succ_pos size, Nat.succ_pos size⟩, hrun]
    dsimp only
    rw [if_neg (Nat.succ_ne_zero size), if_neg (Nat.succ_ne_zero size),
      runsIn_eq_nil (Nat.le_refl _), runsIn_eq_nil (Nat.le_add_left _ _)]
    rfl

end MethodMarkers.Diff
