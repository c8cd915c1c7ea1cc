import MethodMarkers.Proofs.DecimalRounding
import Mathlib.Data.List.TakeWhile

namespace MethodMarkers.Binary64
open Text

variable {n units : Nat}

theorem toNat_of_isDigit {c : Char} (h : c.isDigit = true) : 48 ≤ c.toNat ∧ c.toNat ≤ 57 := by
  simp only [Char.isDigit, Bool.and_eq_true, decide_eq_true_eq] at h
  exact h

theorem decimalValue?_of_isDigit {c : Char} (h : c.isDigit = true) :
    decimalValue? c = some (c.toNat - '0'.toNat) := by
  obtain ⟨hlow, hhigh⟩ := toNat_of_isDigit h
  have hhigh' : c.toNat < 48 + 10 := by omega
  simp [decimalValue?, digitZeros, hlow, hhigh']

theorem decimalNumber?_eq {cs : List Char} (h : ∀ c ∈ cs, c.isDigit = true) :
    decimalNumber? cs = some (Nat.ofDigitChars 10 cs 0) := by
  unfold decimalNumber?
  generalize 0 = k
  induction cs generalizing k with
  | nil => rfl
  | cons c cs ih =>
    rw [List.foldlM_cons, decimalValue?_of_isDigit (h c List.mem_cons_self)]
    exact ih (fun d hd => h d (List.mem_cons_of_mem _ hd)) _

theorem splitFirst_of_none {isMark : Char → Bool} {cs : List Char}
    (h : ∀ c ∈ cs, isMark c = false) : splitFirst isMark cs = (cs, none) := by
  have h' : ∀ c ∈ cs, (!isMark c) = true := fun c hc => by rw [h c hc]; rfl
  simp [splitFirst, List.takeWhile_eq_self_iff.mpr h', List.dropWhile_eq_nil_iff.mpr h']

theorem splitFirst_append {isMark : Char → Bool} {cs : List Char} {c : Char}
    (h : ∀ c ∈ cs, isMark c = false) (hc : isMark c = true) (rest : List Char) :
    splitFirst isMark (cs ++ c :: rest) = (cs, some rest) := by
  have h' : ∀ c ∈ cs, (!isMark c) = true := fun c hc => by rw [h c hc]; rfl
  simp [splitFirst, List.takeWhile_append_of_pos h', List.dropWhile_append_of_pos h', hc]

theorem isDigit_of_mem_padded {k : Nat} :
    ∀ c ∈ zeros k ++ Nat.toDigits 10 n, c.isDigit = true := by
  intro c hc
  rcases List.mem_append.mp hc with hz | hd
  · rw [List.eq_of_mem_replicate hz]
    rfl
  · exact Nat.isDigit_of_mem_toDigits (by decide) (by decide) hd

theorem ofDigitChars_padded (k n : Nat) :
    Nat.ofDigitChars 10 (zeros k ++ Nat.toDigits 10 n) 0 = n := by
  rw [Nat.ofDigitChars_append, zeros, Nat.ofDigitChars_replicate_zero, Nat.mul_zero,
    Nat.ofDigitChars_ten_toDigits]

/-- The digits before a point and the places behind it. -/
structure Splits (places n : Nat) (whole fraction : List Char) : Prop where
  nonempty : whole ≠ []
  length : fraction.length = places
  isDigit : ∀ c ∈ whole ++ fraction, c.isDigit = true
  value : Nat.ofDigitChars 10 (whole ++ fraction) 0 = n

def point (keepPoint : Bool) (places : Nat) : List Char :=
  if places = 0 ∧ !keepPoint then [] else ['.']

theorem exists_splits (keepPoint : Bool) (places n : Nat) : ∃ whole fraction,
    Splits places n whole fraction ∧
      pointed keepPoint places n = whole ++ point keepPoint places ++ fraction := by
  let digits := Nat.toDigits 10 n
  let padded := zeros (places + 1 - digits.length) ++ digits
  have hlength : padded.length - (padded.length - places) = places := by
    simp only [padded, zeros, List.length_append, List.length_replicate]
    omega
  refine ⟨padded.take (padded.length - places), padded.drop (padded.length - places),
    ⟨?_, ?_, ?_, ?_⟩, rfl⟩
  · intro h
    have := congrArg List.length h
    simp only [padded, zeros, List.length_take, List.length_append, List.length_replicate,
      List.length_nil] at this
    omega
  · rw [List.length_drop, hlength]
  · rw [List.take_append_drop]
    exact isDigit_of_mem_padded
  · rw [List.take_append_drop]
    exact ofDigitChars_padded ..

theorem pointed_eq_cons (keepPoint : Bool) (places n : Nat) :
    ∃ c cs, pointed keepPoint places n = c :: cs ∧ c.isDigit = true := by
  obtain ⟨whole, fraction, hs, he⟩ := exists_splits keepPoint places n
  cases whole with
  | nil => exact absurd rfl hs.nonempty
  | cons c cs => exact ⟨c, _, he, hs.isDigit c List.mem_cons_self⟩

theorem splitSign_of_isDigit {c : Char} (h : c.isDigit = true) (cs : List Char) :
    splitSign (c :: cs) = (false, c :: cs) := by
  unfold splitSign
  split
  · next he =>
    obtain rfl : c = '-' := (List.cons.inj he).1
    exact absurd h (by decide)
  · next he =>
    obtain rfl : c = '+' := (List.cons.inj he).1
    exact absurd h (by decide)
  · rfl

theorem ne_of_isDigit {c d : Char} (hc : c.isDigit = true) (hd : d.isDigit = false) :
    (c == d) = false := by
  simp only [beq_eq_false_iff_ne]
  rintro rfl
  rw [hc] at hd
  cases hd

theorem Splits.splitFirst_point (keepPoint : Bool) {places : Nat} {whole fraction : List Char}
    (h : Splits places n whole fraction) :
    ∃ behind, splitFirst (· == '.') (whole ++ point keepPoint places ++ fraction) =
      (whole, behind) ∧ behind.getD [] = fraction := by
  have hwhole : ∀ c ∈ whole, (c == '.') = false := fun c hc =>
    ne_of_isDigit (h.isDigit c (List.mem_append_left _ hc)) rfl
  unfold point
  split
  · next hp =>
    obtain rfl : fraction = [] := List.eq_nil_of_length_eq_zero (h.length.trans hp.1)
    rw [List.append_nil, List.append_nil]
    exact ⟨none, splitFirst_of_none hwhole, rfl⟩
  · rw [List.append_assoc]
    exact ⟨some fraction, splitFirst_append hwhole rfl fraction, rfl⟩

theorem not_mark_of_mem_pointed {isMark : Char → Bool} {keepPoint : Bool} {places : Nat}
    (hdigit : ∀ c, c.isDigit = true → isMark c = false) (hpoint : isMark '.' = false) :
    ∀ c ∈ pointed keepPoint places n, isMark c = false := by
  obtain ⟨whole, fraction, hs, he⟩ := exists_splits keepPoint places n
  intro c hc
  rw [he] at hc
  rcases List.mem_append.mp hc with hc | hc
  · rcases List.mem_append.mp hc with hc | hc
    · exact hdigit c (hs.isDigit c (List.mem_append_left _ hc))
    · unfold point at hc
      split at hc
      · cases hc
      · rwa [List.mem_singleton.mp hc]
  · exact hdigit c (hs.isDigit c (List.mem_append_right _ hc))

/-- What stands behind a decimal tells an exponent: nothing, or the text of one. -/
inductive Tells : Int → List Char → Prop where
  | none : Tells 0 []
  | exponent (exponent : Int) : Tells exponent (exponentText exponent)

def exponentDigits (exponent : Int) : List Char :=
  zeros (2 - (Nat.toDigits 10 exponent.natAbs).length) ++ Nat.toDigits 10 exponent.natAbs

theorem decimalNumber?_exponentDigits (exponent : Int) :
    decimalNumber? (exponentDigits exponent) = some exponent.natAbs := by
  rw [exponentDigits, decimalNumber?_eq isDigit_of_mem_padded, ofDigitChars_padded]

theorem splitSign_exponentText (exponent : Int) :
    splitSign (exponentText exponent).tail = (decide (exponent < 0), exponentDigits exponent) := by
  by_cases h : exponent < 0 <;> simp [exponentText, exponentDigits, splitSign, h]

theorem exponentDigits_ne_nil (exponent : Int) : exponentDigits exponent ≠ [] := by
  simp [exponentDigits, Nat.toDigits_ne_nil]

theorem splitSign_pointed (negative keepPoint : Bool) (places n : Nat) (tail : List Char) :
    splitSign ((if negative then ['-'] else []) ++ (pointed keepPoint places n ++ tail)) =
      (negative, pointed keepPoint places n ++ tail) := by
  obtain ⟨c, cs, he, hc⟩ := pointed_eq_cons keepPoint places n
  cases negative with
  | false => rw [he]; exact splitSign_of_isDigit hc _
  | true => rfl

/-- A decimal with its exponent is read back, the places behind the point counted in. -/
theorem ofNumeral?_pointed (negative keepPoint : Bool) (places n : Nat) {exponent : Int}
    {tail : List Char} (ht : Tells exponent tail) :
    ofNumeral? ((if negative then ['-'] else []) ++ (pointed keepPoint places n ++ tail)) =
      some (ofDecimal negative n (exponent - places)) := by
  obtain ⟨whole, fraction, hs, he⟩ := exists_splits keepPoint places n
  have hsign := splitSign_pointed negative keepPoint places n tail
  have hmark : ∀ c ∈ pointed keepPoint places n, (c == 'e' || c == 'E') = false :=
    not_mark_of_mem_pointed
      (fun c hc => by rw [ne_of_isDigit hc rfl, ne_of_isDigit hc rfl]; rfl) rfl
  obtain ⟨behind, hmantissa, hplaces⟩ := hs.splitFirst_point keepPoint
  rw [← he] at hmantissa
  have hnumber : decimalNumber? (whole ++ fraction) = some n := by
    rw [decimalNumber?_eq hs.isDigit, hs.value]
  have hne : whole ++ fraction ≠ [] := List.append_ne_nil_of_left_ne_nil hs.nonempty _
  cases ht with
  | none =>
    rw [List.append_nil] at hsign ⊢
    simp only [ofNumeral?, hsign, splitFirst_of_none hmark, hmantissa, hplaces, hnumber, hs.length,
      Option.bind_eq_bind, Option.bind_some, if_neg hne]
    rfl
  | exponent =>
    have hexp : splitFirst (fun c => c == 'e' || c == 'E')
        (pointed keepPoint places n ++ exponentText exponent) =
        (pointed keepPoint places n, some (exponentText exponent).tail) :=
      splitFirst_append hmark rfl _
    have habs : (if decide (exponent < 0) = true then -(exponent.natAbs : Int)
        else exponent.natAbs) = exponent := by
      simp only [decide_eq_true_eq]
      split <;> omega
    simp only [ofNumeral?, hsign, hexp, hmantissa, hplaces, hnumber, hs.length,
      splitSign_exponentText, decimalNumber?_exponentDigits, Option.bind_eq_bind,
      Option.bind_some, if_neg (exponentDigits_ne_nil exponent), habs, Option.pure_def, if_neg hne]

theorem isNumeralBlank_of_isDigit {c : Char} (h : c.isDigit = true) : isNumeralBlank c = false := by
  have hc := toNat_of_isDigit h
  have hblank : isBlank c = false := by
    simp only [isBlank, inRanges, blankRanges, List.any_eq_false, List.mem_cons, List.not_mem_nil,
      or_false, forall_eq_or_imp, forall_eq, Bool.and_eq_true, decide_eq_true_eq]
    omega
  rw [isNumeralBlank, hblank, Bool.false_and]

theorem trimNumeral_eq {cs : List Char} (h : ∀ c ∈ cs, isNumeralBlank c = false) :
    trimNumeral cs = cs := by
  have hdrop (cs : List Char) (h : ∀ c ∈ cs, isNumeralBlank c = false) :
      cs.dropWhile isNumeralBlank = cs := by
    cases cs with
    | nil => rfl
    | cons c cs => rw [List.dropWhile_cons_of_neg (by simp [h c List.mem_cons_self])]
  rw [trimNumeral, hdrop cs h, hdrop cs.reverse (fun c hc => h c (List.mem_reverse.mp hc)),
    List.reverse_reverse]

theorem Tells.not_blank {exponent : Int} {tail : List Char} (h : Tells exponent tail) :
    ∀ c ∈ tail, isNumeralBlank c = false := by
  cases h with
  | none => simp
  | exponent =>
    intro c hc
    have he : exponentText exponent =
        'e' :: (if exponent < 0 then '-' else '+') :: exponentDigits exponent := rfl
    rw [he, List.mem_cons, List.mem_cons] at hc
    rcases hc with rfl | rfl | hc
    · rfl
    · split <;> rfl
    · exact isNumeralBlank_of_isDigit (isDigit_of_mem_padded c hc)

theorem ofText?_pointed (negative keepPoint : Bool) (places n : Nat) {exponent : Int}
    {tail : List Char} (ht : Tells exponent tail) :
    ofText? ((if negative then ['-'] else []) ++ (pointed keepPoint places n ++ tail)) =
      some (ofDecimal negative n (exponent - places)) := by
  have hblank : ∀ c ∈ (if negative then ['-'] else []) ++ (pointed keepPoint places n ++ tail),
      isNumeralBlank c = false := by
    intro c hc
    rcases List.mem_append.mp hc with hc | hc
    · cases negative with
      | false => cases hc
      | true => rw [List.mem_singleton.mp hc]; rfl
    · rcases List.mem_append.mp hc with hc | hc
      · exact not_mark_of_mem_pointed (fun c => isNumeralBlank_of_isDigit) rfl c hc
      · exact ht.not_blank c hc
  obtain ⟨c, cs, he, hc⟩ := pointed_eq_cons keepPoint places n
  have hword (d : Char) (ds : List Char) (hd : d.isDigit = false) :
      pointed keepPoint places n ++ tail ≠ d :: ds := by
    rw [he]
    intro h
    rw [(List.cons.inj h).1, hd] at hc
    cases hc
  have hinf : pointed keepPoint places n ++ tail ≠ "inf".toList := hword 'i' ['n', 'f'] rfl
  have hnan : pointed keepPoint places n ++ tail ≠ "nan".toList := hword 'n' ['a', 'n'] rfl
  rw [ofText?, splitSign_pointed]
  dsimp only
  rw [if_neg hinf, if_neg hnan, trimNumeral_eq hblank,
    ofNumeral?_pointed negative keepPoint places n ht]

/-- A number laid out to so many places is read back as the nearest decimal that has no more. -/
theorem ofText?_fixed (negative keepPoint : Bool) (precision units : Nat) :
    ofText? ((finite negative units).format .fixed keepPoint precision) =
      some (ofDecimal negative (roundTo units (-precision)) (-precision)) := by
  have := ofText?_pointed negative keepPoint precision (roundTo units (-precision)) .none
  rwa [List.append_nil, Int.zero_sub] at this

/-- A number laid out with an exponent is read back as the nearest decimal of so many digits. -/
theorem ofText?_scientific (negative keepPoint : Bool) {precision : Nat} {exponent : Int}
    (hs : significant units precision = (n, exponent)) :
    ofText? ((finite negative units).format .scientific keepPoint precision) =
      some (ofDecimal negative n (exponent - precision)) := by
  have := ofText?_pointed negative keepPoint precision n (.exponent exponent)
  rw [format, Layout.magnitude, hs]
  exact this

/-- With its point kept the general layout is read back in the same way, be it with an exponent or
without one. -/
theorem ofText?_general (negative : Bool) {precision places : Nat} {exponent : Int}
    (hp : max 1 precision = places + 1) (hs : significant units places = (n, exponent)) :
    ofText? ((finite negative units).format .general true precision) =
      some (ofDecimal negative n (exponent - places)) := by
  have htext : Layout.general.magnitude true precision units =
      if -4 ≤ exponent ∧ exponent < places + 1 then pointed true (places - exponent).toNat n
      else pointed true places n ++ exponentText exponent := by
    rw [Layout.magnitude]
    simp only [hp, Nat.add_sub_cancel, hs, ↓reduceIte, Nat.cast_add, Nat.cast_one,
      Int.add_sub_cancel]
  rw [format, htext]
  by_cases hplain : -4 ≤ exponent ∧ exponent < places + 1
  · have := ofText?_pointed negative true (places - exponent).toNat n .none
    rw [if_pos hplain]
    rwa [List.append_nil, Int.toNat_of_nonneg (by omega), Int.zero_sub, Int.neg_sub] at this
  · rw [if_neg hplain]
    exact ofText?_pointed negative true places n (.exponent exponent)

end MethodMarkers.Binary64
