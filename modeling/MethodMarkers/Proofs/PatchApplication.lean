import MethodMarkers.Proofs.DiffHunks
import MethodMarkers.Proofs.DiffIdentity

namespace MethodMarkers.Diff

variable {old new : List String} {i j a b c d gap : Nat} {parts group : List Section}
  {groups : List (List Section)}

def PatchLine.old? : PatchLine → Option String
  | context text | removed text => some text
  | added _ => none

def PatchLine.new? : PatchLine → Option String
  | context text | added text => some text
  | removed _ => none

namespace Hunk

def oldLines (hunk : Hunk) : List String :=
  hunk.lines.filterMap PatchLine.old?

def newLines (hunk : Hunk) : List String :=
  hunk.lines.filterMap PatchLine.new?

/-- A hunk tells the lines of both texts at its ranges. -/
structure Fits (old new : List String) (hunk : Hunk) : Prop where
  old_le : hunk.oldFrom ≤ hunk.oldTo
  old_bound : hunk.oldTo ≤ old.length
  new_le : hunk.newFrom ≤ hunk.newTo
  new_bound : hunk.newTo ≤ new.length
  oldLines_eq : hunk.oldLines = slice old hunk.oldFrom hunk.oldTo
  newLines_eq : hunk.newLines = slice new hunk.newFrom hunk.newTo

def Before (first second : Hunk) : Prop :=
  first.oldTo < second.oldFrom ∧ first.newTo < second.newFrom

end Hunk

/-- A text with its hunks replaced in turn, from a place on. A hunk that does not find its lines, or
that stands before the place, is refused. -/
def patched? (old : List String) : (place : Nat) → List Hunk → Option (List String)
  | place, [] => some (old.drop place)
  | place, hunk :: hunks =>
    if place ≤ hunk.oldFrom ∧ Hunk.slice old hunk.oldFrom hunk.oldTo = hunk.oldLines then
      (patched? old hunk.oldTo hunks).map fun rest =>
        Hunk.slice old place hunk.oldFrom ++ hunk.newLines ++ rest
    else none

theorem filterMap_eq_self {f : String → PatchLine} {g : PatchLine → Option String}
    (h : ∀ text, g (f text) = some text) (texts : List String) :
    (texts.map f).filterMap g = texts := by
  have hsome : g ∘ f = some := funext h
  rw [List.filterMap_map, hsome, List.filterMap_some]

theorem filterMap_eq_nil {f : String → PatchLine} {g : PatchLine → Option String}
    (h : ∀ text, g (f text) = none) (texts : List String) :
    (texts.map f).filterMap g = [] := by
  rw [List.filterMap_map, List.filterMap_eq_nil_iff]
  exact fun text _ => h text

theorem linesOf_old (old new : List String) (part : Section) :
    (Hunk.linesOf old new part).filterMap PatchLine.old? =
      Hunk.slice old part.oldFrom part.oldTo := by
  rw [Hunk.linesOf]
  split
  · exact filterMap_eq_self (fun _ => rfl) _
  · rw [List.filterMap_append, filterMap_eq_self fun _ => rfl, filterMap_eq_nil fun _ => rfl,
      List.append_nil]

theorem Section.Fits.linesOf_new {part : Section} (h : part.Fits old new) :
    (Hunk.linesOf old new part).filterMap PatchLine.new? =
      Hunk.slice new part.newFrom part.newTo := by
  rw [Hunk.linesOf]
  split
  · next hk =>
    have hsame := (h.same hk).slice_eq
    rw [Nat.add_sub_cancel' h.old_le, h.size_eq hk, Nat.add_sub_cancel' h.new_le] at hsame
    rw [← hsame]
    exact filterMap_eq_self (fun _ => rfl) _
  · rw [List.filterMap_append, filterMap_eq_nil fun _ => rfl, filterMap_eq_self fun _ => rfl,
      List.nil_append]

theorem slice_self (lines : List String) (a : Nat) : Hunk.slice lines a a = [] := by
  rw [Hunk.slice, Nat.sub_self, List.take_zero]

namespace Tiles

theorem linesOf_old (h : Tiles old new a b parts c d) :
    (parts.flatMap (Hunk.linesOf old new)).filterMap PatchLine.old? = Hunk.slice old a c := by
  induction h with
  | nil => exact (slice_self _ _).symm
  | cons hi hj hf hrest ih =>
    subst hi hj
    rw [List.flatMap_cons, List.filterMap_append, Diff.linesOf_old, ih,
      slice_append _ hf.old_le hrest.le.1]

theorem linesOf_new (h : Tiles old new a b parts c d) :
    (parts.flatMap (Hunk.linesOf old new)).filterMap PatchLine.new? = Hunk.slice new b d := by
  induction h with
  | nil => exact (slice_self _ _).symm
  | cons hi hj hf hrest ih =>
    subst hi hj
    rw [List.flatMap_cons, List.filterMap_append, hf.linesOf_new, ih,
      slice_append _ hf.new_le hrest.le.2]

theorem last (h : Tiles old new a b parts c d) {last : Section} (hl : parts.getLast? = some last) :
    last.oldTo = c ∧ last.newTo = d ∧ c ≤ old.length ∧ d ≤ new.length := by
  induction h with
  | nil => cases hl
  | @cons _ _ _ _ part parts hi hj hf hrest ih =>
    cases parts with
    | nil =>
      cases hl
      obtain ⟨rfl, rfl⟩ := hrest.of_nil
      exact ⟨rfl, rfl, hf.old_bound, hf.new_bound⟩
    | cons next parts => exact ih (by rwa [List.getLast?_cons_cons] at hl)

theorem ofGroup? (h : Tiles old new a b group c d) (hne : group ≠ []) :
    ∃ lines, Hunk.ofGroup? old new group = some ⟨a, c, b, d, lines⟩ ∧
      (Hunk.mk a c b d lines).Fits old new := by
  have hlast := List.getLast?_eq_some_getLast hne
  obtain ⟨hc, hd, hcb, hdb⟩ := h.last hlast
  have hle := h.le
  have hold := h.linesOf_old
  have hnew := h.linesOf_new
  cases h with
  | nil => exact absurd rfl hne
  | @cons _ _ _ _ part parts hi hj hf hrest =>
    refine ⟨(part :: parts).flatMap (Hunk.linesOf old new), ?_, hle.1, hcb, hle.2, hdb, hold, hnew⟩
    subst hi hj hc hd
    rw [Hunk.ofGroup?, List.head?_cons, hlast]

end Tiles

namespace Spread

theorem fits (h : Spread old new gap i j groups) :
    ∀ hunk ∈ groups.filterMap (Hunk.ofGroup? old new),
      hunk.Fits old new ∧ i + gap ≤ hunk.oldFrom ∧ j + gap ≤ hunk.newFrom := by
  induction h with
  | nil => nofun
  | cons hi hj hsize hsame hne htiles _ ih =>
    obtain ⟨lines, he, hf⟩ := htiles.ofGroup? hne
    rw [List.filterMap_cons_some he, List.forall_mem_cons]
    refine ⟨⟨hf, hi, hj⟩, fun hunk hm => ?_⟩
    obtain ⟨hfits, hoi, hnj⟩ := ih hunk hm
    have hle := htiles.le
    exact ⟨hfits, by omega, by omega⟩

theorem pairwise (h : Spread old new gap i j groups) :
    (groups.filterMap (Hunk.ofGroup? old new)).Pairwise Hunk.Before := by
  induction h with
  | nil => exact .nil
  | cons hi hj hsize hsame hne htiles hrest ih =>
    obtain ⟨lines, he, -⟩ := htiles.ofGroup? hne
    rw [List.filterMap_cons_some he]
    refine .cons (fun hunk hm => ?_) ih
    obtain ⟨-, hoi, hnj⟩ := hrest.fits hunk hm
    exact ⟨hoi, hnj⟩

/-- What lies between the groups is the same in both texts, so that the new text is the old one with
the hunks replaced. -/
theorem patched? (h : Spread old new gap i j groups) :
    patched? old i (groups.filterMap (Hunk.ofGroup? old new)) = some (new.drop j) := by
  induction h with
  | nil ht =>
    refine congrArg some (List.ext_getElem? fun k => ?_)
    rw [List.getElem?_drop, List.getElem?_drop]
    exact ht k
  | @cons gap i j a b c d group groups hi hj hsize hsame hne htiles _ ih =>
    obtain ⟨lines, he, hf⟩ := htiles.ofGroup? hne
    have hbetween := hsame.slice_eq
    rw [show i + (a - i) = a by omega, show j + (a - i) = b by omega] at hbetween
    rw [List.filterMap_cons_some he, Diff.patched?,
      if_pos ⟨by dsimp only; omega, hf.oldLines_eq.symm⟩, ih, Option.map_some, hf.newLines_eq,
      hbetween]
    dsimp only
    rw [slice_append _ (by omega) htiles.le.2, slice_append_drop]
    have := htiles.le
    omega

end Spread

theorem hunks_spread (old new : List String) :
    ∃ groups, hunks old new = groups.filterMap (Hunk.ofGroup? old new) ∧
      Spread old new 0 0 0 groups := by
  have hruns := runs_increasing old.toArray new.toArray
  rw [List.size_toArray, List.size_toArray] at hruns
  have htiles := Section.along_tiles hruns rfl rfl (Nat.zero_le _) (Nat.zero_le _)
  obtain ⟨a, b, hia, hjb, hsize, hsame, hfirst⟩ := Section.trimFirst_tiles htiles
  obtain ⟨e, f, ht, hlast⟩ := Section.trimLast_tiles hfirst
  exact ⟨_, rfl, Section.groups_spread hia hjb hsize hsame .nil hlast ht⟩

theorem hunks_self (lines : List String) : hunks lines lines = [] := by
  rw [hunks, runs_self, List.size_toArray]
  split
  · next hn =>
    rw [List.length_eq_zero_iff] at hn
    subst hn
    rfl
  · have hsections : Section.along lines.length lines.length 0 0 [⟨0, 0, lines.length⟩] =
        [⟨true, 0, lines.length, 0, lines.length⟩] := by
      simp [Section.along, Section.changed]
    rw [hsections]
    simp [Section.trimFirst, Section.trimLast, Section.groups, Section.lastLines,
      Section.firstLines, Section.context]
    omega

theorem hunks_eq_nil_iff : hunks old new = [] ↔ old = new := by
  constructor
  · intro h
    obtain ⟨groups, he, hs⟩ := hunks_spread old new
    have hpatched := hs.patched?
    rw [← he, h] at hpatched
    exact Option.some.inj hpatched
  · rintro rfl
    exact hunks_self old

end MethodMarkers.Diff
