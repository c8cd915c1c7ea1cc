import MethodMarkers.Draft
import MethodMarkers.Proofs.Trimming
import MethodMarkers.Proofs.Utf8RoundTrip

namespace MethodMarkers.Text

variable {c d : Char} {cs before : List Char} {n : Nat}

namespace CapitalRun

variable {run other : CapitalRun}

def firstSmall (run : CapitalRun) : Nat :=
  (run.first + run.toSmall).toNat

def lastSmall (run : CapitalRun) : Nat :=
  (run.last + run.toSmall).toNat

/-- Whether the small letters of a run lie on one side of another run, or in its gaps. -/
def avoids (run other : CapitalRun) : Bool :=
  Nat.blt run.lastSmall other.first || Nat.blt other.last run.firstSmall ||
    (other.step == 2 && (run.step == 2 || run.first == run.last) &&
      (run.firstSmall + other.first) % 2 == 1)

def isValid (run : CapitalRun) : Bool :=
  decide (0 ≤ run.first + run.toSmall) && (Nat.blt run.lastSmall 0xD800 ||
    (Nat.blt 0xDFFF run.firstSmall && Nat.blt run.lastSmall 0x110000))

theorem contains_iff : run.contains n = true ↔
    run.first ≤ n ∧ n ≤ run.last ∧ (n - run.first) % run.step = 0 := by
  simp only [contains, Bool.and_eq_true, decide_eq_true_eq, beq_iff_eq, and_assoc]

theorem isValid_iff : run.isValid = true ↔ 0 ≤ run.first + run.toSmall ∧
    (run.lastSmall < 0xD800 ∨ 0xDFFF < run.firstSmall ∧ run.lastSmall < 0x110000) := by
  simp only [isValid, Bool.and_eq_true, Bool.or_eq_true, decide_eq_true_eq, Nat.blt_eq]

theorem avoids_iff : run.avoids other = true ↔
    (run.lastSmall < other.first ∨ other.last < run.firstSmall) ∨
      (other.step = 2 ∧ (run.step = 2 ∨ run.first = run.last)) ∧
        (run.firstSmall + other.first) % 2 = 1 := by
  simp only [avoids, Bool.and_eq_true, Bool.or_eq_true, beq_iff_eq, Nat.blt_eq]

theorem not_contains_small (ha : run.avoids other = true) (hv : run.isValid = true)
    (hc : run.contains n = true) : other.contains (n + run.toSmall).toNat = false := by
  obtain ⟨hnonneg, -⟩ := isValid_iff.1 hv
  obtain ⟨hfirst, hlast, hstep⟩ := contains_iff.1 hc
  rw [avoids_iff, firstSmall, lastSmall] at ha
  rw [← Bool.not_eq_true, contains_iff]
  rintro ⟨hfirst', hlast', hstep'⟩
  rcases ha with (h | h) | ⟨⟨ho, hs | hs⟩, h⟩
  · omega
  · omega
  · rw [ho] at hstep'
    rw [hs] at hstep
    omega
  · rw [ho] at hstep'
    omega

theorem small_isValidChar (hv : run.isValid = true) (hc : run.contains n = true) :
    (n + run.toSmall).toNat.isValidChar := by
  obtain ⟨hnonneg, hrange⟩ := isValid_iff.1 hv
  obtain ⟨hfirst, hlast, -⟩ := contains_iff.1 hc
  rw [firstSmall, lastSmall] at hrange
  rw [Nat.isValidChar]
  omega

end CapitalRun

/-- What no small letter may be: a capital, or a blank. -/
def unwantedRuns : List CapitalRun :=
  ⟨0x41, 0x5A, 1, 0⟩ :: ⟨0x130, 0x130, 1, 0⟩ :: ⟨0x3A3, 0x3A3, 1, 0⟩ ::
    (capitalRuns ++ blankRanges.map fun range => ⟨range.1, range.2, 1, 0⟩)

theorem capitalRuns_avoid :
    (capitalRuns.all fun run => run.isValid && unwantedRuns.all run.avoids) = true := by
  decide +kernel

structure IsSmall (c : Char) : Prop where
  smallLetter_eq : smallLetter c = c
  ne_sigma : c ≠ 'Σ'
  ne_dotted : c ≠ 'İ'

theorem isSmall_of_unwanted (h : ∀ run ∈ unwantedRuns, run.contains c.toNat = false) :
    IsSmall c ∧ isBlank c = false := by
  have hcapitals : ∀ run ∈ capitalRuns, run.contains c.toNat = false := fun run hr =>
    h run (List.mem_cons_of_mem _ (List.mem_cons_of_mem _ (List.mem_cons_of_mem _
      (List.mem_append_left _ hr))))
  have hsmall : smallLetter c = c := by
    by_cases hc : c.toNat < 128
    · have hall : ∀ n < 128, CapitalRun.contains ⟨0x41, 0x5A, 1, 0⟩ n = false →
          (Char.ofNat n).toLower = .ofNat n := by decide +kernel
      have hlower := hall c.toNat hc (h _ List.mem_cons_self)
      rw [Char.ofNat_toNat] at hlower
      rw [smallLetter, if_pos hc, hlower]
    · have hnone : capitalRuns.find? (·.contains c.toNat) = none :=
        List.find?_eq_none.2 fun run hr => Bool.eq_false_iff.1 (hcapitals run hr)
      rw [smallLetter, if_neg hc, hnone]
  refine ⟨⟨hsmall, ?_, ?_⟩, ?_⟩
  · rintro rfl
    exact absurd (h ⟨0x3A3, 0x3A3, 1, 0⟩ (by simp [unwantedRuns])) (by decide)
  · rintro rfl
    exact absurd (h ⟨0x130, 0x130, 1, 0⟩ (by simp [unwantedRuns])) (by decide)
  · rw [← Bool.not_eq_true, isBlank, inRanges_iff]
    rintro ⟨range, hr, hfirst, hlast⟩
    have hmem : (⟨range.1, range.2, 1, 0⟩ : CapitalRun) ∈ unwantedRuns :=
      List.mem_cons_of_mem _ (List.mem_cons_of_mem _ (List.mem_cons_of_mem _
        (List.mem_append_right _ (List.mem_map_of_mem hr))))
    have hcontains : CapitalRun.contains ⟨range.1, range.2, 1, 0⟩ c.toNat = true :=
      CapitalRun.contains_iff.2 ⟨hfirst, hlast, Nat.mod_one _⟩
    rw [h _ hmem] at hcontains
    cases hcontains

theorem isSmall_special :
    ∀ c ∈ ['.', 'ς', 'σ', 'i', '\u0307'], IsSmall c ∧ isBlank c = false := by
  have hall : (['.', 'ς', 'σ', 'i', '\u0307'].all fun c =>
      unwantedRuns.all fun run => !run.contains c.toNat) = true := by decide +kernel
  simp only [List.all_eq_true, Bool.not_eq_true'] at hall
  exact fun c hc => isSmall_of_unwanted (hall c hc)

theorem smallLetter_ascii (h : c.toNat < 128) :
    IsSmall (smallLetter c) ∧ (isBlank c = false → isBlank (smallLetter c) = false) := by
  have hall : ∀ n < 128, smallLetter (smallLetter (.ofNat n)) = smallLetter (.ofNat n) ∧
      smallLetter (.ofNat n) ≠ 'Σ' ∧ smallLetter (.ofNat n) ≠ 'İ' ∧
        (isBlank (.ofNat n) = false → isBlank (smallLetter (.ofNat n)) = false) := by
    decide +kernel
  have hc := hall c.toNat h
  rw [Char.ofNat_toNat] at hc
  exact ⟨⟨hc.1, hc.2.1, hc.2.2.1⟩, hc.2.2.2⟩

theorem smallLetter_spec (hs : c ≠ 'Σ') (hd : c ≠ 'İ') :
    IsSmall (smallLetter c) ∧ (isBlank c = false → isBlank (smallLetter c) = false) := by
  by_cases hc : c.toNat < 128
  · exact smallLetter_ascii hc
  · cases hf : capitalRuns.find? (·.contains c.toNat) with
    | none =>
      have hsmall : smallLetter c = c := by
        rw [smallLetter, if_neg hc, hf]
      rw [hsmall]
      exact ⟨⟨hsmall, hs, hd⟩, id⟩
    | some run =>
      have hsmall : smallLetter c = Char.ofNat (c.toNat + run.toSmall).toNat := by
        rw [smallLetter, if_neg hc, hf]
      have hcontains : run.contains c.toNat = true :=
        List.find?_some (p := fun run : CapitalRun => run.contains c.toNat) hf
      have hrun := List.all_eq_true.1 capitalRuns_avoid run (List.mem_of_find?_eq_some hf)
      rw [Bool.and_eq_true, List.all_eq_true] at hrun
      obtain ⟨hvalid, havoids⟩ := hrun
      have hnumber := toNat_ofNat_of_valid (CapitalRun.small_isValidChar hvalid hcontains)
      obtain ⟨h, hblank⟩ := isSmall_of_unwanted (c := .ofNat (c.toNat + run.toSmall).toNat)
        fun other ho => by
          rw [hnumber]
          exact CapitalRun.not_contains_small (havoids other ho) hvalid hcontains
      rw [hsmall]
      exact ⟨h, fun _ => hblank⟩

/-- The first character of a text is put in small letters without those behind it, whatever stands
around it. -/
theorem lowerAfter_cons (before : List Char) (c : Char) (cs : List Char) :
    ∃ first more, lowerAfter before (c :: cs) = first :: more ++ lowerAfter (c :: before) cs ∧
      ∀ d ∈ first :: more, IsSmall d ∧ (isBlank c = false → isBlank d = false) := by
  have hspecial : ∀ d ∈ ['ς', 'σ', 'i', '\u0307'],
      IsSmall d ∧ (isBlank c = false → isBlank d = false) := by
    intro d hd
    obtain ⟨hs, hb⟩ := isSmall_special d (List.mem_cons_of_mem _ hd)
    exact ⟨hs, fun _ => hb⟩
  rw [lowerAfter]
  split
  · exact ⟨_, [], rfl, List.forall_mem_singleton.2 (hspecial _ (by split <;> simp))⟩
  · next hs =>
    split
    · exact ⟨'i', ['\u0307'], rfl, fun d hd =>
      hspecial d (List.mem_cons_of_mem _ (List.mem_cons_of_mem _ hd))⟩
    · next hd => exact ⟨_, [], rfl, List.forall_mem_singleton.2 (smallLetter_spec hs hd)⟩

theorem isSmall_of_mem_lowerAfter (h : d ∈ lowerAfter before cs) : IsSmall d := by
  induction cs generalizing before with
  | nil => cases h
  | cons c cs ih =>
    obtain ⟨first, more, he, hd⟩ := lowerAfter_cons before c cs
    rw [he, List.mem_append] at h
    exact h.elim (fun h => (hd d h).1) ih

theorem lowerAfter_eq_self (h : ∀ c ∈ cs, IsSmall c) (before : List Char) :
    lowerAfter before cs = cs := by
  induction cs generalizing before with
  | nil => rfl
  | cons c cs ih =>
    rw [List.forall_mem_cons] at h
    rw [lowerAfter, if_neg h.1.ne_sigma, if_neg h.1.ne_dotted, h.1.smallLetter_eq, ih h.2]
    rfl

theorem lowerAfter_last (h : ∀ c, cs.getLast? = some c → isBlank c = false)
    (hd : (lowerAfter before cs).getLast? = some d) : isBlank d = false := by
  induction cs generalizing before with
  | nil => cases hd
  | cons c cs ih =>
    obtain ⟨first, more, he, hs⟩ := lowerAfter_cons before c cs
    rw [he] at hd
    cases cs with
    | nil =>
      rw [lowerAfter, List.append_nil] at hd
      exact (hs d (List.mem_of_getLast? hd)).2 (h c rfl)
    | cons next cs =>
      obtain ⟨second, others, hnext, -⟩ := lowerAfter_cons (c :: before) next cs
      have hlast : (lowerAfter (c :: before) (next :: cs)).getLast? = some d := by
        rw [List.getLast?_append, hnext, List.cons_append, List.getLast?_cons, Option.some_or] at hd
        rw [hnext, List.cons_append, List.getLast?_cons, hd]
      exact ih (fun last hl => h last hl) hlast

theorem Trimmed.lower (h : Trimmed cs) (before : List Char) : Trimmed (lowerAfter before cs) where
  head d hd := by
    cases cs with
    | nil => cases hd
    | cons c cs =>
      obtain ⟨first, more, he, hs⟩ := lowerAfter_cons before c cs
      rw [he] at hd
      cases hd
      exact (hs d List.mem_cons_self).2 (h.head c rfl)
  last _ hd := lowerAfter_last h.last hd

end MethodMarkers.Text

namespace MethodMarkers
open Text

/-- A suffix without blanks around it, in small letters and with a dot in front. -/
structure NormalExtension (extension : String) : Prop where
  trim_eq : trim extension.toList = extension.toList
  lower_eq : lower extension = extension
  dotted : extension.toList.head? = some '.'

theorem normalExtension_ofList {cs : List Char} (ht : Trimmed cs) (hs : ∀ c ∈ cs, IsSmall c)
    (hd : cs.head? = some '.') : NormalExtension (String.ofList cs) where
  trim_eq := by rw [String.toList_ofList, ht.trim_eq]
  lower_eq := by rw [lower, String.toList_ofList, lowerAfter_eq_self hs]
  dotted := by rw [String.toList_ofList, hd]

theorem normalExtension_dot {cs : List Char} (ht : Trimmed cs) (hs : ∀ c ∈ cs, IsSmall c) :
    NormalExtension ("." ++ String.ofList cs) := by
  have hdot : IsSmall '.' ∧ isBlank '.' = false := isSmall_special _ List.mem_cons_self
  have happend : "." ++ String.ofList cs = String.ofList ('.' :: cs) :=
    (@String.ofList_append ['.'] cs).symm
  rw [happend]
  refine normalExtension_ofList ⟨?_, ?_⟩ (List.forall_mem_cons.2 ⟨hdot.1, hs⟩) rfl
  · intro c hc
    cases hc
    exact hdot.2
  · intro c hc
    rw [List.getLast?_cons] at hc
    cases hl : cs.getLast? with
    | none =>
      rw [hl] at hc
      cases hc
      exact hdot.2
    | some last =>
      rw [hl] at hc
      cases hc
      exact ht.last _ hl

theorem normalExtension_normalizeExtension (extension : String) :
    NormalExtension (normalizeExtension extension) := by
  have ht : Trimmed (lowerAfter [] (trim extension.toList)) := (trimmed_trim _).lower []
  have hs : ∀ c ∈ lowerAfter [] (trim extension.toList), IsSmall c :=
    fun c hc => isSmall_of_mem_lowerAfter hc
  rw [normalizeExtension, lower, String.toList_ofList, String.toList_ofList]
  split
  · next hd => exact normalExtension_ofList ht hs hd
  · exact normalExtension_dot ht hs

theorem NormalExtension.normalizeExtension_eq {extension : String} (h : NormalExtension extension) :
    normalizeExtension extension = extension := by
  rw [normalizeExtension, h.trim_eq, String.ofList_toList, h.lower_eq, if_pos h.dotted]

end MethodMarkers
