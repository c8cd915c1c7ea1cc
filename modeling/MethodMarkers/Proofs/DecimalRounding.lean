import MethodMarkers.Binary64.Places
import Mathlib.Tactic.Ring

namespace MethodMarkers.Binary64

variable {numerator denominator m n units : Nat}

/-- A whole number than which no other is nearer to a quotient, and which is even if another one is
as near. -/
structure Nearest (numerator denominator n : Nat) : Prop where
  below : 2 * n * denominator ≤ 2 * numerator + denominator
  above : 2 * numerator ≤ 2 * n * denominator + denominator
  even : 2 * n * denominator = 2 * numerator + denominator ∨
    2 * numerator = 2 * n * denominator + denominator → n % 2 = 0

theorem roundQuotient_nearest (numerator : Nat) (hd : 0 < denominator) :
    Nearest numerator denominator (roundQuotient numerator denominator) := by
  have hq := Nat.div_add_mod numerator denominator
  have hr := Nat.mod_lt numerator hd
  unfold roundQuotient
  generalize numerator / denominator = q at hq ⊢
  generalize numerator % denominator = r at hq hr ⊢
  have hm : denominator * q = q * denominator := Nat.mul_comm ..
  have hup : 2 * (q + 1) * denominator = 2 * (q * denominator) + 2 * denominator := by ring
  have hdown : 2 * q * denominator = 2 * (q * denominator) := by ring
  dsimp only
  split
  · refine ⟨?_, ?_, ?_⟩ <;> omega
  · refine ⟨?_, ?_, ?_⟩ <;> omega

theorem Nearest.le_succ (hm : Nearest numerator denominator m)
    (hn : Nearest numerator denominator n) (hd : 0 < denominator) : m ≤ n + 1 := by
  have h := hm.below.trans (Nat.add_le_add_right hn.above denominator)
  have he : 2 * n * denominator + denominator + denominator = 2 * (n + 1) * denominator := by ring
  rw [he] at h
  have := Nat.le_of_mul_le_mul_right h hd
  omega

theorem Nearest.unique (hm : Nearest numerator denominator m)
    (hn : Nearest numerator denominator n) (hd : 0 < denominator) : m = n := by
  have hmn := hm.le_succ hn hd
  have hnm := hn.le_succ hm hd
  -- Two neighbours are equally near only in the middle between them, and one of them is odd.
  have step {k : Nat} (hk : Nearest numerator denominator k)
      (hk' : Nearest numerator denominator (k + 1)) : False := by
    have he : 2 * (k + 1) * denominator = 2 * k * denominator + denominator + denominator := by ring
    have hbelow := hk'.below
    have habove := hk.above
    have heven := hk.even (.inr (by omega))
    have hodd := hk'.even (.inl (by omega))
    omega
  rcases Nat.lt_trichotomy m n with h | h | h
  · obtain rfl : n = m + 1 := by omega
    exact (step hm hn).elim
  · exact h
  · obtain rfl : m = n + 1 := by omega
    exact (step hn hm).elim

theorem roundQuotient_eq_iff (hd : 0 < denominator) :
    roundQuotient numerator denominator = n ↔ Nearest numerator denominator n := by
  have h := roundQuotient_nearest numerator hd
  exact ⟨fun he => he ▸ h, fun hn => h.unique hn hd⟩

theorem Nearest.le_of_le (hn : Nearest numerator denominator n) (hd : 0 < denominator)
    (h : m * denominator ≤ numerator) : m ≤ n := by
  have he : 2 * m * denominator ≤ (2 * n + 1) * denominator := by
    rw [Nat.mul_assoc, Nat.add_mul]
    have := hn.above
    omega
  have := Nat.le_of_mul_le_mul_right he hd
  omega

theorem Nearest.le_of_lt (hn : Nearest numerator denominator n)
    (h : numerator < m * denominator) : n ≤ m := by
  have he : 2 * n * denominator < (2 * m + 1) * denominator := by
    rw [Nat.add_mul, Nat.mul_assoc 2 m]
    have := hn.below
    omega
  have := Nat.lt_of_mul_lt_mul_right he
  omega

theorem lt_pow_digitCount (n : Nat) : n < 10 ^ digitCount n :=
  (Nat.length_toDigits_le_iff (by decide) Nat.length_toDigits_pos).mp (Nat.le_refl _)

theorem pow_digitCount_le (hn : 0 < n) : 10 ^ (digitCount n - 1) ≤ n := by
  by_contra h
  have hlt : n < 10 ^ (digitCount n - 1) := Nat.lt_of_not_le h
  have hcount : 0 < digitCount n := Nat.length_toDigits_pos
  rcases Nat.eq_zero_or_pos (digitCount n - 1) with hz | hpos
  · rw [hz] at hlt
    omega
  · have : digitCount n ≤ digitCount n - 1 :=
      (Nat.length_toDigits_le_iff (by decide) hpos).mpr hlt
    omega

theorem one_pos : 0 < one := by
  unfold one
  generalize 1074 = k
  exact Nat.two_pow_pos k

theorem one_le_pow_ten {k : Nat} (h : 1074 ≤ 3 * k) : one ≤ Nat.pow 10 k := by
  unfold one
  generalize 1074 = j at h ⊢
  calc
    2 ^ j ≤ 2 ^ (3 * k) := Nat.pow_le_pow_right (by decide) h
    _ = (2 ^ 3) ^ k := Nat.pow_mul ..
    _ ≤ 10 ^ k := Nat.pow_le_pow_left (by decide) k

theorem digitCount_quotient {margin : Nat} (h : 0 < units) (hm : one ≤ Nat.pow 10 margin) :
    10 ^ (digitCount (units * Nat.pow 10 margin / one) - 1) * one ≤ units * 10 ^ margin ∧
      units * 10 ^ margin < 10 ^ digitCount (units * Nat.pow 10 margin / one) * one := by
  have hpos : 0 < units * 10 ^ margin / one :=
    Nat.div_pos (hm.trans (Nat.le_mul_of_pos_left _ h)) one_pos
  exact ⟨(Nat.le_div_iff_mul_le one_pos).mp (pow_digitCount_le hpos),
    (Nat.div_lt_iff_lt_mul one_pos).mp (lt_pow_digitCount _)⟩

/-- The first digit of a positive number has the weight `10 ^ leadingExponent`. -/
theorem leadingExponent_spec (h : 0 < units) :
    ∃ count margin : Nat, 0 < count ∧ leadingExponent units = (count : Int) - (margin + 1) ∧
      10 ^ (count - 1) * one ≤ units * 10 ^ margin ∧ units * 10 ^ margin < 10 ^ count * one := by
  obtain ⟨margin, hmargin⟩ : ∃ k, k = 400 := ⟨_, rfl⟩
  refine ⟨digitCount (units * Nat.pow 10 margin / one), margin, Nat.length_toDigits_pos, ?_,
    digitCount_quotient h (one_le_pow_ten (by omega))⟩
  rw [leadingExponent, ← hmargin]
  omega

theorem roundTo_nearest (units : Nat) (power : Int) :
    Nearest (units * 10 ^ (-power).toNat) (one * 10 ^ power.toNat) (roundTo units power) :=
  roundQuotient_nearest _ (Nat.mul_pos one_pos (Nat.pow_pos (by decide)))

theorem leading_bounds (h : 0 < units) (places : Nat) {power : Int}
    (hp : power = leadingExponent units - places) :
    10 ^ places * (one * 10 ^ power.toNat) ≤ units * 10 ^ (-power).toNat ∧
      units * 10 ^ (-power).toNat < 10 ^ (places + 1) * (one * 10 ^ power.toNat) := by
  obtain ⟨count, margin, hcount, he, hlow, hhigh⟩ := leadingExponent_spec h
  rw [he] at hp
  have hten (k : Nat) : 0 < 10 ^ k := Nat.pow_pos (by decide)
  have hpower : places + power.toNat + margin = count - 1 + (-power).toNat := by omega
  have hpower' : places + 1 + power.toNat + margin = count + (-power).toNat := by omega
  generalize power.toNat = up at hpower hpower' ⊢
  generalize (-power).toNat = down at hpower hpower' ⊢
  generalize one = unit at hlow hhigh ⊢
  constructor
  · apply Nat.le_of_mul_le_mul_right _ (hten margin)
    calc
      10 ^ places * (unit * 10 ^ up) * 10 ^ margin
        = 10 ^ (places + up + margin) * unit := by ring
      _ = 10 ^ (count - 1) * unit * 10 ^ down := by rw [hpower]; ring
      _ ≤ units * 10 ^ margin * 10 ^ down := Nat.mul_le_mul_right _ hlow
      _ = units * 10 ^ down * 10 ^ margin := by ring
  · apply Nat.lt_of_mul_lt_mul_right (a := 10 ^ margin)
    calc
      units * 10 ^ down * 10 ^ margin
        = units * 10 ^ margin * 10 ^ down := by ring
      _ < 10 ^ count * unit * 10 ^ down := Nat.mul_lt_mul_of_pos_right hhigh (hten down)
      _ = 10 ^ (places + 1 + up + margin) * unit := by rw [hpower']; ring
      _ = 10 ^ (places + 1) * (unit * 10 ^ up) * 10 ^ margin := by ring

theorem Nearest.carry {power : Int}
    (hn : Nearest (units * 10 ^ (-power).toNat) (one * 10 ^ power.toNat) (10 * n))
    (hlt : units * 10 ^ (-power).toNat < 10 * n * (one * 10 ^ power.toNat)) :
    Nearest (units * 10 ^ (-(power + 1)).toNat) (one * 10 ^ (power + 1).toNat) n := by
  have hbelow := hn.below
  by_cases hneg : power < 0
  · have hdown : (-power).toNat = (-(power + 1)).toNat + 1 := by omega
    have hup : (power + 1).toNat = power.toNat := by omega
    rw [hdown, Nat.pow_succ, ← Nat.mul_assoc units] at hbelow hlt
    rw [hup]
    generalize units * 10 ^ (-(power + 1)).toNat = x at hbelow hlt ⊢
    generalize one * 10 ^ power.toNat = d at hbelow hlt ⊢
    have hten : 2 * (10 * n) * d = 10 * (2 * n * d) := by ring
    have hten' : 10 * n * d = 5 * (2 * n * d) := by ring
    refine ⟨?_, ?_, ?_⟩ <;> omega
  · have hdown : (-(power + 1)).toNat = (-power).toNat := by omega
    have hup : (power + 1).toNat = power.toNat + 1 := by omega
    rw [hdown, hup, Nat.pow_succ, ← Nat.mul_assoc one]
    generalize units * 10 ^ (-power).toNat = x at hbelow hlt ⊢
    generalize one * 10 ^ power.toNat = d at hbelow hlt ⊢
    have hten : 2 * n * (d * 10) = 2 * (10 * n) * d := by ring
    have hten' : 2 * (10 * n * d) = 2 * (10 * n) * d := by ring
    refine ⟨?_, ?_, ?_⟩ <;> omega

theorem significant_cases (h : 0 < units) (places : Nat) {power : Int}
    (hp : power = leadingExponent units - places) :
    roundTo units power < 10 ^ (places + 1) ∧
        significant units places = (roundTo units power, leadingExponent units) ∨
      roundTo units power = 10 * 10 ^ places ∧
        significant units places = (10 ^ places, leadingExponent units + 1) := by
  subst hp
  have hle := (roundTo_nearest units _).le_of_lt (leading_bounds h places rfl).2
  have hsucc : 10 ^ (places + 1) = 10 * 10 ^ places := Nat.pow_succ'
  rw [significant, if_neg (by omega)]
  dsimp only
  by_cases hlt : roundTo units (leadingExponent units - places) < Nat.pow 10 (places + 1)
  · exact .inl ⟨hlt, if_pos hlt⟩
  · have he : roundTo units (leadingExponent units - places) = 10 * 10 ^ places := by
      rw [← hsucc]
      exact Nat.le_antisymm hle (Nat.le_of_not_lt hlt)
    refine .inr ⟨he, ?_⟩
    rw [if_neg hlt, he, Nat.mul_div_cancel_left _ (by decide)]

/-- The digits of a number to a precision are those of the nearest decimal. -/
theorem significant_nearest (units places : Nat) {exponent : Int}
    (hs : significant units places = (n, exponent)) :
    Nearest (units * 10 ^ (places - exponent).toNat) (one * 10 ^ (exponent - places).toNat) n := by
  rcases Nat.eq_zero_or_pos units with rfl | h
  · obtain ⟨rfl, rfl⟩ : 0 = n ∧ 0 = exponent := by simpa [significant] using hs
    exact ⟨by omega, by omega, fun _ => rfl⟩
  have hnearest := roundTo_nearest units (leadingExponent units - places)
  rcases significant_cases h places rfl with ⟨-, he⟩ | ⟨hcarry, he⟩
  · obtain ⟨rfl, rfl⟩ := Prod.mk.inj (he.symm.trans hs)
    rwa [← Int.neg_sub]
  · obtain ⟨rfl, rfl⟩ := Prod.mk.inj (he.symm.trans hs)
    have hlt := (leading_bounds h places rfl).2
    rw [Nat.pow_succ'] at hlt
    rw [hcarry] at hnearest
    have hpower : leadingExponent units - places + 1 = leadingExponent units + 1 - places := by
      omega
    have := hnearest.carry hlt
    rwa [hpower, Int.neg_sub] at this

/-- They are exactly as many as were asked for, the first of which is no zero. -/
theorem significant_digits (h : 0 < units) (places : Nat) :
    10 ^ places ≤ (significant units places).1 ∧
      (significant units places).1 < 10 ^ (places + 1) := by
  have hpos : 0 < 10 ^ places := Nat.pow_pos (by decide)
  have hsucc : 10 ^ (places + 1) = 10 * 10 ^ places := Nat.pow_succ'
  rcases significant_cases h places rfl with ⟨hlt, he⟩ | ⟨-, he⟩
  · rw [he]
    have hd : 0 < one * 10 ^ (leadingExponent units - places).toNat :=
      Nat.mul_pos one_pos (Nat.pow_pos (by decide))
    exact ⟨(roundTo_nearest units _).le_of_le hd (leading_bounds h places rfl).1, hlt⟩
  · rw [he]
    exact ⟨Nat.le_refl _, by omega⟩

end MethodMarkers.Binary64
