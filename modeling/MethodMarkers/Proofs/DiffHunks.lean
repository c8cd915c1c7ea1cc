import MethodMarkers.Diff.Hunk
import MethodMarkers.Proofs.DiffMatching

namespace MethodMarkers.Diff

variable {old new : List String} {i j a b c d e f n gap : Nat} {part : Section}
  {parts group : List Section} {groups : List (List Section)} {runs : List Run}

/-- As many lines of both texts, from a place in each on, are equal. -/
def Same (old new : List String) (i j n : Nat) : Prop :=
  ∀ k < n, old[i + k]? = new[j + k]?

def SameTail (old new : List String) (i j : Nat) : Prop :=
  ∀ k, old[i + k]? = new[j + k]?

theorem SameTail.of_same (h : Same old new i j n) (ht : SameTail old new (i + n) (j + n)) :
    SameTail old new i j := by
  intro k
  by_cases hk : k < n
  · exact h k hk
  · have hrest := ht (k - n)
    rwa [Nat.add_assoc, Nat.add_assoc, Nat.add_sub_cancel' (Nat.not_lt.1 hk)] at hrest

theorem Same.append {m : Nat} (h : Same old new i j n) (h' : Same old new (i + n) (j + n) m) :
    Same old new i j (n + m) := by
  intro k hk
  by_cases hlt : k < n
  · exact h k hlt
  · have hrest := h' (k - n) (by omega)
    rwa [Nat.add_assoc, Nat.add_assoc, Nat.add_sub_cancel' (Nat.not_lt.1 hlt)] at hrest

theorem Same.within {i' j' n' : Nat} (h : Same old new i j n) (hi : i ≤ i') (hj : j ≤ j')
    (he : i' - i = j' - j) (hn : i' - i + n' ≤ n) : Same old new i' j' n' := by
  intro k hk
  have hpart := h (i' - i + k) (by omega)
  rwa [← Nat.add_assoc, Nat.add_sub_cancel' hi, he, ← Nat.add_assoc,
    Nat.add_sub_cancel' hj] at hpart

theorem Same.slice_eq (h : Same old new i j n) :
    Hunk.slice old i (i + n) = Hunk.slice new j (j + n) := by
  rw [Hunk.slice, Hunk.slice, Nat.add_sub_cancel_left, Nat.add_sub_cancel_left]
  apply List.ext_getElem?
  intro k
  rw [List.getElem?_take, List.getElem?_take, List.getElem?_drop, List.getElem?_drop]
  split
  · next hk => exact h k hk
  · rfl

theorem slice_append (lines : List String) (hab : a ≤ b) (hbc : b ≤ c) :
    Hunk.slice lines a b ++ Hunk.slice lines b c = Hunk.slice lines a c := by
  rw [Hunk.slice, Hunk.slice, Hunk.slice, show c - a = (b - a) + (c - b) by omega, List.take_add,
    List.drop_drop, Nat.add_sub_cancel' hab]

theorem slice_append_drop (lines : List String) (hab : a ≤ b) :
    Hunk.slice lines a b ++ lines.drop b = lines.drop a := by
  conv_rhs => rw [← List.take_append_drop (b - a) (lines.drop a), List.drop_drop,
    Nat.add_sub_cancel' hab]
  rfl

structure Section.Fits (old new : List String) (part : Section) : Prop where
  old_le : part.oldFrom ≤ part.oldTo
  old_bound : part.oldTo ≤ old.length
  new_le : part.newFrom ≤ part.newTo
  new_bound : part.newTo ≤ new.length
  size_eq : part.kept = true → part.oldTo - part.oldFrom = part.newTo - part.newFrom
  same : part.kept = true → Same old new part.oldFrom part.newFrom (part.oldTo - part.oldFrom)

/-- Sections that lead from one place in both texts to another, each beginning where the one before
ends. -/
inductive Tiles (old new : List String) : Nat → Nat → List Section → Nat → Nat → Prop
  | nil {i j : Nat} : Tiles old new i j [] i j
  | cons {i j c d : Nat} {part : Section} {parts : List Section} (old_at : part.oldFrom = i)
      (new_at : part.newFrom = j) (fits : part.Fits old new)
      (rest : Tiles old new part.oldTo part.newTo parts c d) : Tiles old new i j (part :: parts) c d

namespace Tiles

theorem append (h : Tiles old new a b group c d) (h' : Tiles old new c d parts e f) :
    Tiles old new a b (group ++ parts) e f := by
  induction h with
  | nil => exact h'
  | cons hi hj hf _ ih => exact .cons hi hj hf (ih h')

theorem single (h : part.Fits old new) :
    Tiles old new part.oldFrom part.newFrom [part] part.oldTo part.newTo :=
  .cons rfl rfl h .nil

theorem le (h : Tiles old new a b parts c d) : a ≤ c ∧ b ≤ d := by
  induction h with
  | nil => exact ⟨Nat.le_refl _, Nat.le_refl _⟩
  | cons hi hj hf _ ih => exact ⟨hi ▸ hf.old_le.trans ih.1, hj ▸ hf.new_le.trans ih.2⟩

theorem of_nil (h : Tiles old new a b [] c d) : c = a ∧ d = b := by
  cases h
  exact ⟨rfl, rfl⟩

theorem of_kept (h : Tiles old new a b parts c d) (hk : parts.all Section.kept = true) :
    c - a = d - b ∧ Same old new a b (c - a) := by
  induction h with
  | nil => exact ⟨by omega, by rw [Nat.sub_self]; nofun⟩
  | @cons a b c d part parts hi hj hf hrest ih =>
    rw [List.all_cons, Bool.and_eq_true] at hk
    obtain ⟨hsize, hsame⟩ := ih hk.2
    obtain ⟨hlo, hln⟩ := hrest.le
    have hol := hf.old_le
    have hnl := hf.new_le
    have hsz := hf.size_eq hk.1
    subst hi hj
    refine ⟨by omega, ?_⟩
    rw [show c - part.oldFrom = (part.oldTo - part.oldFrom) + (c - part.oldTo) by omega]
    refine (hf.same hk.1).append ?_
    rwa [Nat.add_sub_cancel' hol, hsz, Nat.add_sub_cancel' hnl]

end Tiles

namespace Section

theorem firstLines_fits (h : part.Fits old new) (hk : part.kept = true) :
    part.firstLines.Fits old new := by
  obtain ⟨hol, hob, hnl, hnb, hsize, hsame⟩ := h
  have hsz := hsize hk
  have hsame := hsame hk
  constructor
  case same =>
    refine fun _ => hsame.within (Nat.le_refl _) (Nat.le_refl _) ?_ ?_ <;>
      simp only [firstLines, context] <;> omega
  all_goals
    simp only [firstLines, context]
    omega

theorem lastLines_fits (h : part.Fits old new) (hk : part.kept = true) :
    part.lastLines.Fits old new := by
  obtain ⟨hol, hob, hnl, hnb, hsize, hsame⟩ := h
  have hsz := hsize hk
  have hsame := hsame hk
  constructor
  case same =>
    refine fun _ => hsame.within ?_ ?_ ?_ ?_ <;> simp only [lastLines, context] <;> omega
  all_goals
    simp only [lastLines, context]
    omega

theorem changed_tiles (hia : i ≤ a) (ha : a ≤ old.length) (hjb : j ≤ b) (hb : b ≤ new.length) :
    Tiles old new i j (changed i a j b) a b := by
  rw [changed]
  split
  · exact .cons rfl rfl ⟨hia, ha, hjb, hb, nofun, nofun⟩ .nil
  · obtain rfl : i = a := by omega
    obtain rfl : j = b := by omega
    exact .nil

theorem along_tiles {window : Window}
    (h : Increasing old.toArray new.toArray window runs) (hw : window.oldTo = old.length)
    (hw' : window.newTo = new.length) (hi : window.oldFrom ≤ old.length)
    (hj : window.newFrom ≤ new.length) :
    Tiles old new window.oldFrom window.newFrom
      (along old.length new.length window.oldFrom window.newFrom runs) old.length new.length := by
  induction h with
  | nil => exact changed_tiles hi (Nat.le_refl _) hj (Nat.le_refl _)
  | @cons window run runs within pairs _ ih =>
    obtain ⟨hog, hol, hng, hnl⟩ := within
    have hob : run.old + run.length ≤ old.length := by omega
    have hnb : run.new + run.length ≤ new.length := by omega
    have hkept : (Section.mk true run.old (run.old + run.length) run.new
        (run.new + run.length)).Fits old new := by
      refine ⟨Nat.le_add_right _ _, hob, Nat.le_add_right _ _, hnb, fun _ => ?_, fun _ k hk => ?_⟩
      · rw [Nat.add_sub_cancel_left, Nat.add_sub_cancel_left]
      · dsimp only at hk ⊢
        rw [Nat.add_sub_cancel_left] at hk
        obtain ⟨line, ho, hn⟩ := agree_iff.1 (pairs k hk)
        rw [List.getElem?_toArray] at ho hn
        rw [ho, hn]
    exact (changed_tiles hog (by omega) hng (by omega)).append
      (.cons rfl rfl hkept (ih hw hw' hob hnb))

theorem trimFirst_tiles (h : Tiles old new i j parts c d) :
    ∃ a b, i ≤ a ∧ j ≤ b ∧ a - i = b - j ∧ Same old new i j (a - i) ∧
      Tiles old new a b (trimFirst parts) c d := by
  cases h with
  | nil => exact ⟨i, j, Nat.le_refl _, Nat.le_refl _, by omega, by rw [Nat.sub_self]; nofun, .nil⟩
  | @cons _ _ _ _ part parts hi hj hf hrest =>
    subst hi hj
    rw [trimFirst]
    split
    · next hk =>
      have hfits := lastLines_fits hf hk
      obtain ⟨hol, hob, hnl, hnb, hsize, hsame⟩ := hf
      have hsz := hsize hk
      refine ⟨part.lastLines.oldFrom, part.lastLines.newFrom, ?_, ?_, ?_,
        (hsame hk).within (Nat.le_refl _) (Nat.le_refl _) (by omega) ?_,
        .cons rfl rfl hfits hrest⟩ <;> simp only [lastLines, context] <;> omega
    · exact ⟨part.oldFrom, part.newFrom, Nat.le_refl _, Nat.le_refl _, by omega,
        by rw [Nat.sub_self]; nofun, .cons rfl rfl hf hrest⟩

theorem trimLast_tiles (h : Tiles old new i j parts old.length new.length) :
    ∃ e f, SameTail old new e f ∧ Tiles old new i j (trimLast parts) e f := by
  have hends : SameTail old new old.length new.length := by
    intro k
    rw [List.getElem?_eq_none (Nat.le_add_right _ _), List.getElem?_eq_none (Nat.le_add_right _ _)]
  induction parts generalizing i j with
  | nil => exact ⟨_, _, hends, h⟩
  | cons part parts ih =>
    cases h with
    | cons hi hj hf hrest =>
      cases parts with
      | nil =>
        rw [trimLast]
        split
        · next hk =>
          refine ⟨part.firstLines.oldTo, part.firstLines.newTo, ?_,
            .cons hi hj (firstLines_fits hf hk) .nil⟩
          obtain ⟨hob, hnb⟩ := hrest.of_nil
          obtain ⟨hol, -, hnl, -, hsize, hsame⟩ := hf
          have hsz := hsize hk
          have hbehind : Same old new part.firstLines.oldTo part.firstLines.newTo
              (part.oldTo - part.firstLines.oldTo) := by
            refine (hsame hk).within ?_ ?_ ?_ ?_ <;> simp only [firstLines, context] <;> omega
          refine .of_same hbehind ?_
          · simp only [firstLines, context]
            rwa [show min part.oldTo (part.oldFrom + 3) +
                (part.oldTo - min part.oldTo (part.oldFrom + 3)) = old.length by omega,
              show min part.newTo (part.newFrom + 3) +
                (part.oldTo - min part.oldTo (part.oldFrom + 3)) = new.length by omega]
        · exact ⟨_, _, hends, .cons hi hj hf hrest⟩
      | cons next parts =>
        obtain ⟨e, f, ht, htiles⟩ := ih hrest
        exact ⟨e, f, ht, .cons hi hj hf htiles⟩

end Section

/-- Groups of sections that lie apart in both texts, with the same lines between them, in front of
the first and behind the last. -/
inductive Spread (old new : List String) : (gap i j : Nat) → List (List Section) → Prop
  | nil {gap i j : Nat} (tail : SameTail old new i j) : Spread old new gap i j []
  | cons {gap i j a b c d : Nat} {group : List Section} {groups : List (List Section)}
      (old_gap : i + gap ≤ a) (new_gap : j + gap ≤ b) (size_eq : a - i = b - j)
      (same : Same old new i j (a - i)) (ne_nil : group ≠ []) (tiles : Tiles old new a b group c d)
      (rest : Spread old new 1 c d groups) : Spread old new gap i j (group :: groups)

/-- Sections are cut into groups only where more is kept than the context of both sides. -/
theorem Section.groups_spread (hi : i + gap ≤ a) (hj : j + gap ≤ b) (hsize : a - i = b - j)
    (hsame : Same old new i j (a - i)) (hg : Tiles old new a b group c d)
    (hp : Tiles old new c d parts e f) (ht : SameTail old new e f) :
    Spread old new gap i j (Section.groups group parts) := by
  induction parts generalizing gap i j a b c d group with
  | nil =>
    obtain ⟨rfl, rfl⟩ := hp.of_nil
    rw [Section.groups]
    split
    · next hk =>
      obtain ⟨hsize', hsame'⟩ := hg.of_kept hk
      have hle := hg.le
      refine .nil (.of_same hsame ?_)
      rw [show i + (a - i) = a by omega, show j + (a - i) = b by omega]
      refine .of_same hsame' ?_
      rwa [show a + (e - a) = e by omega, show b + (e - a) = f by omega]
    · next hk =>
      refine .cons hi hj hsize hsame ?_ hg (.nil ht)
      rintro rfl
      exact hk rfl
  | cons next parts ih =>
    cases hp with
    | cons hci hdj hf hrest =>
      rw [Section.groups]
      split
      · next hcut =>
        have hfirst := Tiles.single (Section.firstLines_fits hf hcut.1)
        have hlast := Tiles.single (Section.lastLines_fits hf hcut.1)
        subst hci hdj
        obtain ⟨hol, hob, hnl, hnb, hsz, hsame'⟩ := hf
        have hsz := hsz hcut.1
        have hmany := hcut.2
        refine .cons hi hj hsize hsame (List.concat_ne_nil _ _) (hg.append hfirst)
          (ih ?_ ?_ ?_ ((hsame' hcut.1).within ?_ ?_ ?_ ?_) hlast hrest)
        all_goals
          simp only [Section.firstLines, Section.lastLines, Section.context] at hmany ⊢
          omega
      · exact ih hi hj hsize hsame (hg.append (.cons hci hdj hf .nil)) hrest

end MethodMarkers.Diff
