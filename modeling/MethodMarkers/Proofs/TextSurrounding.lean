import MethodMarkers.Proofs.ScanInsertion

namespace MethodMarkers

section Within

variable {α β γ : Type}

def within (i j k : Nat) : Bool :=
  decide (i ≤ k) && decide (k ≤ j)

theorem within_iff {i j k : Nat} : within i j k = true ↔ i ≤ k ∧ k ≤ j := by
  rw [within, Bool.and_eq_true, decide_eq_true_iff, decide_eq_true_iff]

theorem drop_take_eq_filter (xs : List α) (i j n : Nat) :
    (xs.take (j + 1 - n)).drop (i - n) =
      ((xs.zipIdx n).filter fun p => within i j p.2).map Prod.fst := by
  induction xs generalizing n with
  | nil =>
    rw [List.take_nil, List.drop_nil]
    rfl
  | cons x xs ih =>
    rw [List.zipIdx_cons, List.filter_cons]
    by_cases hn : n ≤ j
    · have hj : j + 1 - n = j + 1 - (n + 1) + 1 := by omega
      rw [hj, List.take_succ_cons]
      by_cases hi : i ≤ n
      · have h0 : i - n = 0 := by omega
        have h1 : i - (n + 1) = 0 := by omega
        have hrest := ih (n + 1)
        rw [h1, List.drop_zero] at hrest
        rw [if_pos (within_iff.2 ⟨hi, hn⟩), List.map_cons, ← hrest, h0, List.drop_zero]
      · have hs : i - n = i - (n + 1) + 1 := by omega
        rw [if_neg fun h => hi (within_iff.1 h).1, ← ih (n + 1), hs, List.drop_succ_cons]
    · have h0 : j + 1 - n = 0 := by omega
      have h1 : j + 1 - (n + 1) = 0 := by omega
      rw [if_neg fun h => hn (within_iff.1 h).2, ← ih (n + 1), h0, h1, List.take_zero,
        List.take_zero, List.drop_nil, List.drop_nil]

theorem segment_eq_filter (xs : List α) (i j : Nat) :
    segment xs i j = (xs.zipIdx.filter fun p => within i j p.2).map Prod.fst :=
  drop_take_eq_filter xs i j 0

theorem map_filter_flatMap {xs : List α} {f : α → List β} {p : β → Bool} {q : α → Bool}
    {u : β → γ} {v : α → γ}
    (h : ∀ x ∈ xs, ((f x).filter p).map u = if q x then [v x] else []) :
    ((xs.flatMap f).filter p).map u = (xs.filter q).map v := by
  induction xs with
  | nil => rfl
  | cons x xs ih =>
    rw [List.flatMap_cons, List.filter_append, List.map_append, h x List.mem_cons_self,
      ih fun y hy => h y (List.mem_cons_of_mem x hy), List.filter_cons]
    split <;> rfl

end Within

def surround (before after : Nat → List String) (texts : List String) : List String :=
  texts.zipIdx.flatMap fun p => before p.2 ++ p.1 :: after p.2

namespace Surround

variable (before after : Nat → List String)

/-- How many texts come before the first of those that belong to a text. -/
def offset : Nat → Nat
  | 0 => 0
  | i + 1 => offset i + (before i).length + 1 + (after i).length

def place (i : Nat) : Nat :=
  offset before after i + (before i).length

theorem offset_succ (i : Nat) :
    offset before after (i + 1) = place before after i + 1 + (after i).length :=
  rfl

theorem offset_mono : Monotone (offset before after) := by
  apply monotone_nat_of_le_succ
  intro i
  rw [offset_succ, place]
  omega

theorem place_strictMono : StrictMono (place before after) := by
  apply strictMono_nat_of_lt_succ
  intro i
  rw [place, place, offset_succ, place]
  omega

theorem ne_place {i k : Nat} (ho : offset before after i ≤ k) (hn : k < offset before after (i + 1))
    (hk : k ≠ place before after i) (j : Nat) : k ≠ place before after j := by
  rintro rfl
  rcases Nat.lt_trichotomy j i with hj | rfl | hj
  · have hle : offset before after (j + 1) ≤ offset before after i := offset_mono before after hj
    rw [offset_succ] at hle
    omega
  · exact hk rfl
  · have hle : offset before after (i + 1) ≤ offset before after j := offset_mono before after hj
    rw [place] at hn
    omega

theorem zipIdx_flatMap (texts : List String) (n : Nat) :
    ((texts.zipIdx n).flatMap fun p => before p.2 ++ p.1 :: after p.2).zipIdx
        (offset before after n) =
      (texts.zipIdx n).flatMap fun p =>
        (before p.2).zipIdx (offset before after p.2) ++
          (p.1, place before after p.2) :: (after p.2).zipIdx (place before after p.2 + 1) := by
  induction texts generalizing n with
  | nil => rfl
  | cons text texts ih =>
    have hlength : offset before after n + (before n ++ text :: after n).length =
        offset before after (n + 1) := by
      rw [offset_succ, place, List.length_append, List.length_cons]
      omega
    rw [List.zipIdx_cons, List.flatMap_cons, List.flatMap_cons, ← ih, List.zipIdx_append, hlength,
      List.zipIdx_append, List.zipIdx_cons]
    rfl

theorem zipIdx_surround (texts : List String) :
    (surround before after texts).zipIdx = texts.zipIdx.flatMap fun p =>
      (before p.2).zipIdx (offset before after p.2) ++
        (p.1, place before after p.2) :: (after p.2).zipIdx (place before after p.2 + 1) :=
  zipIdx_flatMap before after texts 0

theorem length_surround (texts : List String) :
    (surround before after texts).length = offset before after texts.length := by
  induction texts using List.reverseRecOn with
  | nil => rfl
  | append_singleton texts text ih =>
    rw [List.length_append, List.length_singleton, offset_succ, place, ← ih, surround,
      List.zipIdx_append, List.flatMap_append, List.length_append, Nat.zero_add,
      List.zipIdx_singleton, List.flatMap_singleton, List.length_append, List.length_cons,
        ← surround]
    dsimp only
    omega

variable {before after} {texts : List String} {text : String} {i k : Nat}

theorem mem_zipIdx_surround (h : texts[i]? = some text) :
    (text, place before after i) ∈ (surround before after texts).zipIdx := by
  rw [zipIdx_surround]
  apply List.mem_flatMap.2
  refine ⟨(text, i), List.mem_zipIdx_iff_getElem?.2 h, ?_⟩
  exact List.mem_append_right _ List.mem_cons_self

theorem getElem?_place (before after : Nat → List String) (texts : List String) (i : Nat) :
    (surround before after texts)[place before after i]? = texts[i]? := by
  by_cases hi : i < texts.length
  · rw [List.getElem?_eq_getElem hi]
    exact List.mem_zipIdx_iff_getElem?.1 (mem_zipIdx_surround (List.getElem?_eq_getElem hi))
  · have hle := offset_mono before after (Nat.le_of_not_lt hi)
    rw [List.getElem?_eq_none (Nat.le_of_not_lt hi), List.getElem?_eq_none]
    rw [length_surround]
    exact Nat.le_trans hle (Nat.le_add_right _ _)

theorem ne_place_of_before (h : (text, k) ∈ (before i).zipIdx (offset before after i)) (j : Nat) :
    k ≠ place before after j := by
  have hle : offset before after i ≤ k := List.le_snd_of_mem_zipIdx h
  have hlt : k < place before after i := List.snd_lt_add_of_mem_zipIdx h
  have hn : k < offset before after (i + 1) := by
    rw [offset_succ]
    omega
  exact ne_place before after hle hn (Nat.ne_of_lt hlt) j

theorem ne_place_of_after (h : (text, k) ∈ (after i).zipIdx (place before after i + 1)) (j : Nat) :
    k ≠ place before after j := by
  have hle : place before after i < k := List.le_snd_of_mem_zipIdx h
  have hn : k < offset before after (i + 1) := List.snd_lt_add_of_mem_zipIdx h
  have ho : offset before after i ≤ k := by
    rw [place] at hle
    omega
  exact ne_place before after ho hn (Nat.ne_of_gt hle) j

theorem eq_place_or_mem (h : (surround before after texts)[k]? = some text) :
    (∃ i, texts[i]? = some text ∧ k = place before after i) ∨
      (∀ i, k ≠ place before after i) ∧ ∃ i < texts.length, text ∈ before i ++ after i := by
  have hm : (text, k) ∈ (surround before after texts).zipIdx := List.mem_zipIdx_iff_getElem?.2 h
  rw [zipIdx_surround] at hm
  obtain ⟨⟨own, i⟩, hp, hm⟩ := List.mem_flatMap.1 hm
  have hown := List.mem_zipIdx_iff_getElem?.1 hp
  have hi := (List.getElem?_eq_some_iff.1 hown).1
  rcases List.mem_append.1 hm with hm | hm
  · have ht := List.fst_mem_of_mem_zipIdx hm
    exact .inr ⟨ne_place_of_before hm, i, hi, List.mem_append_left _ ht⟩
  · rcases List.mem_cons.1 hm with hm | hm
    · cases hm
      exact .inl ⟨i, hown, rfl⟩
    · have ht := List.fst_mem_of_mem_zipIdx hm
      exact .inr ⟨ne_place_of_after hm, i, hi, List.mem_append_right _ ht⟩

theorem filter_segment_surround {p : String → Bool}
    (h : ∀ i < texts.length, ∀ text ∈ before i ++ after i, p text = false) (i j : Nat) :
    (segment (surround before after texts) (place before after i) (place before after j)).filter p =
      (segment texts i j).filter p := by
  have hplace (k : Nat) :
      within (place before after i) (place before after j) (place before after k) =
        within i j k := by
    rw [Bool.eq_iff_iff, within_iff, within_iff, (place_strictMono before after).le_iff_le,
      (place_strictMono before after).le_iff_le]
  rw [segment_eq_filter, segment_eq_filter, List.filter_map, List.filter_filter, List.filter_map,
    List.filter_filter, zipIdx_surround]
  apply map_filter_flatMap
  intro q hq
  have hi := (List.getElem?_eq_some_iff.1 (List.mem_zipIdx_iff_getElem?.1 hq)).1
  have hnone (more : List String) (n : Nat) (hm : ∀ text ∈ more, p text = false) :
      ((more.zipIdx n).filter fun r =>
        (p ∘ Prod.fst) r && within (place before after i) (place before after j) r.2) = [] := by
    apply List.filter_eq_nil_iff.2
    intro r hr
    rw [Function.comp_apply, hm r.1 (List.fst_mem_of_mem_zipIdx hr), Bool.false_and]
    exact Bool.false_ne_true
  have hbefore := hnone (before q.2) (offset before after q.2) fun text ht =>
    h q.2 hi text (List.mem_append_left _ ht)
  have hafter := hnone (after q.2) (place before after q.2 + 1) fun text ht =>
    h q.2 hi text (List.mem_append_right _ ht)
  rw [List.filter_append, hbefore, List.nil_append, List.filter_cons, hafter, hplace,
    Function.comp_apply, Function.comp_apply]
  split <;> rfl

theorem any_segment_surround {p : String → Bool}
    (h : ∀ i < texts.length, ∀ text ∈ before i ++ after i, p text = false) (i j : Nat) :
    (segment (surround before after texts) (place before after i) (place before after j)).any p =
      (segment texts i j).any p := by
  have hany (xs : List String) : xs.any p = (xs.filter p).any fun _ => true := by
    rw [List.any_filter]
    simp only [Bool.and_true]
  rw [hany, hany, filter_segment_surround h]

theorem countP_segment_surround {p : String → Bool}
    (h : ∀ i < texts.length, ∀ text ∈ before i ++ after i, p text = false) (i j : Nat) :
    (segment (surround before after texts) (place before after i)
      (place before after j)).countP p = (segment texts i j).countP p := by
  rw [List.countP_eq_length_filter, List.countP_eq_length_filter, filter_segment_surround h]

def moved (before after : Nat → List String) (line : Line) : Line :=
  { line with serial := place before after line.serial }

def numbered (p : String × Nat) : Line :=
  ⟨0, p.2, p.1⟩

theorem ofTexts_eq (path : Option Path) (texts : List String) :
    Buffer.ofTexts 0 path texts = ⟨0, path, texts.zipIdx.map numbered, texts.length⟩ := by
  induction texts using List.reverseRecOn with
  | nil => rfl
  | append_singleton texts text ih =>
    rw [Buffer.ofTexts_append, ih, Buffer.append, Buffer.insertAt, List.insertIdx_length_self,
      List.zipIdx_append, List.map_append, List.length_append, Nat.zero_add]
    rfl

theorem ofTexts_lines (path : Option Path) (texts : List String) :
    (Buffer.ofTexts 0 path texts).lines = texts.zipIdx.map numbered := by
  rw [ofTexts_eq]

theorem getElem?_ofTexts (path : Option Path) (texts : List String) (i : Nat) :
    (Buffer.ofTexts 0 path texts).lines[i]? = texts[i]?.map fun text => numbered (text, i) := by
  rw [ofTexts_lines, List.getElem?_map, List.getElem?_zipIdx, Option.map_map, Nat.zero_add]
  rfl

def ahead (before after : Nat → List String) (line : Line) : List Line :=
  ((before line.serial).zipIdx (offset before after line.serial)).map numbered

def behind (before after : Nat → List String) (line : Line) : List Line :=
  ((after line.serial).zipIdx (place before after line.serial + 1)).map numbered

theorem lines_surround (before after : Nat → List String) (path : Option Path)
    (texts : List String) :
    (Buffer.ofTexts 0 path (surround before after texts)).lines =
      (Buffer.ofTexts 0 path texts).lines.flatMap fun line =>
        ahead before after line ++ moved before after line :: behind before after line := by
  rw [ofTexts_lines, ofTexts_lines, zipIdx_surround, List.map_flatMap, List.flatMap_map]
  apply List.flatMap_congr
  intro p _
  rw [List.map_append, List.map_cons]
  rfl

theorem getElem?_lines_surround (before after : Nat → List String) (path : Option Path)
    (texts : List String) (i : Nat) :
    (Buffer.ofTexts 0 path (surround before after texts)).lines[place before after i]? =
      (Buffer.ofTexts 0 path texts).lines[i]?.map (moved before after) := by
  rw [getElem?_ofTexts, getElem?_ofTexts, getElem?_place, Option.map_map]
  rfl

theorem drop_eq_of_nodup {xs ys : List Line} {line : Line} (hn : (xs ++ line :: ys).Nodup)
    (hk : (xs ++ line :: ys)[k]? = some line) : (xs ++ line :: ys).drop k = line :: ys := by
  have hl : (xs ++ line :: ys)[xs.length]? = some line := by
    rw [List.getElem?_append_right (Nat.le_refl _), Nat.sub_self]
    rfl
  obtain ⟨hlt, -⟩ := List.getElem?_eq_some_iff.1 hk
  rw [(List.getElem?_inj hlt hn).1 (hk.trans hl.symm), List.drop_left]

theorem drop_lines_surround {path : Option Path} {lines : List Line} {line : Line} {d : Nat}
    (h : (Buffer.ofTexts 0 path texts).lines.drop d = line :: lines) :
    (Buffer.ofTexts 0 path (surround before after texts)).lines.drop (place before after d) =
      moved before after line :: (behind before after line ++ lines.flatMap fun other =>
        ahead before after other ++ moved before after other :: behind before after other) := by
  have hl : (Buffer.ofTexts 0 path texts).lines[d]? = some line := by
    rw [← List.head?_drop, h, List.head?_cons]
  -- the line has its place once, which tells how many lines are in front of it
  have hplace := getElem?_lines_surround before after path texts d
  have hn := (Buffer.ofTexts_intact 0 path (surround before after texts)).nodup
  have hs := lines_surround before after path texts
  rw [hl, Option.map_some] at hplace
  rw [← List.take_append_drop d (Buffer.ofTexts 0 path texts).lines, h, List.flatMap_append,
    List.flatMap_cons, List.append_assoc, List.cons_append, ← List.append_assoc] at hs
  rw [hs] at hplace hn ⊢
  exact drop_eq_of_nodup hn hplace

def Unnoticed (text : String) : Prop :=
  braces text = [] ∧ (Signature.ofLine? text).value = none

section Unnoticed

variable (path : Option Path)
  (h : ∀ i < texts.length, ∀ text ∈ before i ++ after i, Unnoticed text)
include h

theorem braces_put {line new : Line} (hl : line ∈ (Buffer.ofTexts 0 path texts).lines)
    (hn : new ∈ ahead before after line ++ behind before after line) : braces new.text = [] := by
  obtain ⟨i, hi⟩ := List.mem_iff_getElem?.1 hl
  rw [getElem?_ofTexts] at hi
  obtain ⟨text, ht, rfl⟩ := Option.map_eq_some_iff.1 hi
  rw [ahead, behind, ← List.map_append] at hn
  obtain ⟨p, hp, rfl⟩ := List.mem_map.1 hn
  apply (h i (List.getElem?_eq_some_iff.1 ht).1 p.1 _).1
  rcases List.mem_append.1 hp with hp | hp
  · exact List.mem_append_left _ (List.fst_mem_of_mem_zipIdx hp)
  · exact List.mem_append_right _ (List.fst_mem_of_mem_zipIdx hp)

/-- Texts in which a scan finds nothing may be put anywhere between others. -/
theorem embeds :
    Line.Embeds (place before after) (moved before after) (Buffer.ofTexts 0 path texts).lines
      (Buffer.ofTexts 0 path (surround before after texts)).lines := by
  constructor
  · exact place_strictMono before after
  · exact getElem?_lines_surround before after path texts
  · intro line _
    rfl
  · intro k line hk
    rw [getElem?_ofTexts] at hk
    obtain ⟨text, ht, rfl⟩ := Option.map_eq_some_iff.1 hk
    obtain ⟨i, -, he⟩ | ⟨-, i, hi, hm⟩ := eq_place_or_mem ht
    · exact .inl ⟨i, he⟩
    · refine .inr ?_
      rw [Line.methodName?, numbered, (h i hi text hm).2]
      rfl
  · intro d hd
    have hdrop := List.drop_eq_getElem_cons hd
    rw [drop_lines_surround hdrop, hdrop]
    apply Block.Image.following
    · intro other _
      rfl
    · intro other ho new hn
      rw [← hdrop] at ho
      exact braces_put path h (List.mem_of_mem_drop ho) hn

theorem outline_surround :
    Outline.ofTexts path (surround before after texts) =
      (Outline.ofTexts path texts).shift (place before after) := by
  obtain ⟨-, -, -, hd⟩ := Scanner.exists_shows path texts
  exact ((embeds path h).describes hd).ofTexts_eq

end Unnoticed

end Surround

end MethodMarkers
