import MethodMarkers.Discovery
import Mathlib.Data.List.Lex
import Mathlib.Data.List.Perm.Basic
import Mathlib.Order.Lattice

namespace MethodMarkers

theorem lex_iff_map_lt {α β : Type} [BEq α] [LawfulBEq α] [LinearOrder β] {f : α → β}
    {precedes : α → α → Bool} (hf : Function.Injective f)
    (hp : ∀ a b, precedes a b = true ↔ f a < f b) (as bs : List α) :
    as.lex bs precedes = true ↔ as.map f < bs.map f := by
  induction as generalizing bs with
  | nil =>
    cases bs with
    | nil => simp [List.lex]
    | cons b bs => simp [List.lex]
  | cons a as ih =>
    cases bs with
    | nil => simp [List.lex]
    | cons b bs =>
      rw [List.map_cons, List.map_cons, List.cons_lt_cons_iff, hf.eq_iff, ← hp, ← ih bs]
      simp [List.lex]

namespace Path

variable {a b : Path}

def key (path : Path) : List (List Nat) :=
  path.segments.map fun segment => segment.toList.map Char.toNat

theorem segmentKey_injective :
    Function.Injective fun segment : String => segment.toList.map Char.toNat := by
  intro s t h
  apply String.toList_injective
  exact Function.Injective.list_map (fun c d => Char.toNat_inj.1) h

theorem precedes_iff (a b : Path) : a.precedes b = true ↔ a.key < b.key := by
  have htext (s t : String) :
      textPrecedes s t = true ↔ s.toList.map Char.toNat < t.toList.map Char.toNat :=
    lex_iff_map_lt (fun c d => Char.toNat_inj.1) (fun c d => decide_eq_true_iff) _ _
  exact lex_iff_map_lt segmentKey_injective htext _ _

theorem segments_eq_of_key (h : a.key = b.key) : a.segments = b.segments :=
  segmentKey_injective.list_map h

end Path

namespace Discovery

variable {paths files : List Path}

/-- Paths in their order, none of them twice. -/
def Ordered (paths : List Path) : Prop :=
  paths.Pairwise fun a b => a.precedes b = true

theorem Ordered.nodup (h : Ordered paths) : paths.Nodup := by
  refine h.imp fun {a b} hab he => ?_
  rw [he, Path.precedes_iff] at hab
  exact lt_irrefl _ hab

theorem Ordered.eq_of_mem (h : Ordered paths) (h' : Ordered files)
    (hm : ∀ path, path ∈ paths ↔ path ∈ files) : paths = files := by
  refine List.Perm.eq_of_pairwise ?_ h h' ((List.perm_ext_iff_of_nodup h.nodup h'.nodup).2 hm)
  intro a b _ _ hab hba
  rw [Path.precedes_iff] at hab hba
  exact absurd (hab.trans hba) (lt_irrefl _)

theorem sortPaths_ordered (slashes : Nat) (hn : paths.Nodup)
    (hs : ∀ path ∈ paths, path.slashes = slashes) : Ordered (sortPaths paths) := by
  have hle (a b : Path) : (!b.precedes a) = true ↔ a.key ≤ b.key := by
    rw [Bool.not_eq_true', Bool.eq_false_iff, Ne, Path.precedes_iff, not_lt]
  have hsorted : (sortPaths paths).Pairwise fun a b => (!b.precedes a) = true := by
    apply List.pairwise_mergeSort
    · intro a b c hab hbc
      exact (hle a c).2 (((hle a b).1 hab).trans ((hle b c).1 hbc))
    · intro a b
      rw [Bool.or_eq_true, hle, hle]
      exact le_total _ _
  have hdistinct : (sortPaths paths).Pairwise (· ≠ ·) :=
    ((List.mergeSort_perm paths _).nodup_iff).2 hn
  refine (hsorted.and hdistinct).imp_of_mem ?_
  intro a b ha hb ⟨hab, hne⟩
  rw [Path.precedes_iff]
  refine lt_of_le_of_ne ((hle a b).1 hab) fun he => hne ?_
  have hslashes : a.slashes = b.slashes :=
    (hs a (List.mem_mergeSort.1 ha)).trans (hs b (List.mem_mergeSort.1 hb)).symm
  cases a with
  | mk slashes segments =>
    cases b with
    | mk slashes' segments' =>
      cases hslashes
      exact congrArg _ (Path.segments_eq_of_key he)

end Discovery

end MethodMarkers
