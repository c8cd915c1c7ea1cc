import Mathlib.Algebra.Group.Nat.Defs
import Mathlib.Tactic.SplitIfs
import MethodMarkers.Text.Encoding

namespace MethodMarkers.Text

theorem toNat_ofNat_of_valid {n : Nat} (h : n.isValidChar) : (Char.ofNat n).toNat = n := by
  rw [Char.ofNat, dif_pos h]
  rfl

theorem byte_toNat {n : Nat} (h : n < 256) : (UInt8.ofNat n).toNat = n :=
  UInt8.toNat_ofNat_of_lt' h

theorem flatMap_reverse_cons (f : Char → List UInt8) (c : Char) (done : List Char) :
    (c :: done).reverse.flatMap f = done.reverse.flatMap f ++ f c := by
  rw [List.reverse_cons, List.flatMap_append, List.flatMap_singleton]

namespace Utf8

def continuation (n : Nat) : Nat → List UInt8
  | 0 => []
  | k + 1 => .ofNat (0x80 + n / 64 ^ k % 64) :: continuation n k

theorem continuation_length (n k : Nat) : (continuation n k).length = k := by
  induction k with
  | zero => rfl
  | succ k ih => rw [continuation, List.length_cons, ih]

theorem continuation_toNat (n k : Nat) :
    (UInt8.ofNat (0x80 + n / 64 ^ k % 64)).toNat = 0x80 + n / 64 ^ k % 64 :=
  byte_toNat (by omega)

section EncodeChar

variable {c : Char}

theorem encodeChar_one (h : c.toNat < 0x80) : encodeChar c = [.ofNat c.toNat] := by
  rw [encodeChar, if_pos h]

theorem encodeChar_two (h : 0x80 ≤ c.toNat) (h' : c.toNat < 0x800) :
    encodeChar c = .ofNat (0xC0 + c.toNat / 64 ^ 1) :: continuation c.toNat 1 := by
  rw [encodeChar, if_neg (Nat.not_lt.2 h), if_pos h']
  rfl

theorem encodeChar_three (h : 0x800 ≤ c.toNat) (h' : c.toNat < 0x10000) :
    encodeChar c = .ofNat (0xE0 + c.toNat / 64 ^ 2) :: continuation c.toNat 2 := by
  rw [encodeChar, if_neg (by omega), if_neg (Nat.not_lt.2 h), if_pos h']
  rfl

theorem encodeChar_four (h : 0x10000 ≤ c.toNat) :
    encodeChar c = .ofNat (0xF0 + c.toNat / 64 ^ 3) :: continuation c.toNat 3 := by
  rw [encodeChar, if_neg (by omega), if_neg (by omega), if_neg (Nat.not_lt.2 h)]
  rfl

end EncodeChar

/-- A number that begins with the bits of a pending sequence, and whose next byte it allows. -/
structure Pending.Admits (pending : Pending) (n : Nat) : Prop where
  bits_eq : n / 64 ^ pending.owed = pending.bits
  low_le : pending.low.toNat ≤ 0x80 + n / 64 ^ (pending.owed - 1) % 64
  le_high : 0x80 + n / 64 ^ (pending.owed - 1) % 64 ≤ pending.high.toNat

/-- What a pending sequence is good for: every number it admits is a character whose bytes begin
with those seen. -/
structure Pending.Promises (pending : Pending) : Prop where
  owed_pos : 0 < pending.owed
  low_ge : 0x80 ≤ pending.low.toNat
  high_le : pending.high.toNat ≤ 0xBF
  keeps : ∀ n, pending.Admits n →
    n.isValidChar ∧ encodeChar (.ofNat n) = pending.seen.reverse ++ continuation n pending.owed

variable {b : UInt8} {pending : Pending} {n k : Nat}

theorem keeps_of_lead {lead : Nat} (hv : n.isValidChar)
    (he : encodeChar (.ofNat n) = .ofNat (lead + (Char.ofNat n).toNat / 64 ^ k) ::
      continuation (Char.ofNat n).toNat k)
    (hb : n / 64 ^ k = b.toNat - lead) (hl : lead ≤ b.toNat) :
    n.isValidChar ∧ encodeChar (.ofNat n) = [b] ++ continuation n k := by
  rw [toNat_ofNat_of_valid hv, hb, Nat.add_sub_cancel' hl, UInt8.ofNat_toNat] at he
  exact ⟨hv, he⟩

theorem keeps_two (h : 0x80 ≤ n) (h' : n < 0x800) (hb : n / 64 ^ 1 = b.toNat - 0xC0)
    (hl : 0xC0 ≤ b.toNat) :
    n.isValidChar ∧ encodeChar (.ofNat n) = [b] ++ continuation n 1 := by
  have hv : n.isValidChar := by omega
  have hn := toNat_ofNat_of_valid hv
  exact keeps_of_lead hv (encodeChar_two (by omega) (by omega)) hb hl

theorem keeps_three (h : 0x800 ≤ n) (h' : n < 0x10000) (hs : n < 0xD800 ∨ 0xE000 ≤ n)
    (hb : n / 64 ^ 2 = b.toNat - 0xE0) (hl : 0xE0 ≤ b.toNat) :
    n.isValidChar ∧ encodeChar (.ofNat n) = [b] ++ continuation n 2 := by
  have hv : n.isValidChar := by omega
  have hn := toNat_ofNat_of_valid hv
  exact keeps_of_lead hv (encodeChar_three (by omega) (by omega)) hb hl

theorem keeps_four (h : 0x10000 ≤ n) (h' : n < 0x110000) (hb : n / 64 ^ 3 = b.toNat - 0xF0)
    (hl : 0xF0 ≤ b.toNat) :
    n.isValidChar ∧ encodeChar (.ofNat n) = [b] ++ continuation n 3 := by
  have hv : n.isValidChar := by omega
  have hn := toNat_ofNat_of_valid hv
  exact keeps_of_lead hv (encodeChar_four (by omega)) hb hl

theorem Pending.admits_iff (bits owed low high : Nat) {seen : List UInt8} (hl : low ≤ high)
    (hh : high ≤ 0xBF) :
    Pending.Admits ⟨bits, owed, .ofNat low, .ofNat high, seen⟩ n ↔ n / 64 ^ owed = bits ∧
      low ≤ 0x80 + n / 64 ^ (owed - 1) % 64 ∧ 0x80 + n / 64 ^ (owed - 1) % 64 ≤ high := by
  have hlow : (UInt8.ofNat low).toNat = low := byte_toNat (by omega)
  have hhigh : (UInt8.ofNat high).toNat = high := byte_toNat (by omega)
  constructor
  · rintro ⟨hb, hl, hh⟩
    exact ⟨hb, hlow ▸ hl, hhigh ▸ hh⟩
  · rintro ⟨hb, hl, hh⟩
    exact ⟨hb, hlow.symm ▸ hl, hhigh.symm ▸ hh⟩

theorem Pending.Promises.within (bits owed low high : Nat) {seen : List UInt8} (ho : 0 < owed)
    (hl : 0x80 ≤ low) (hlh : low ≤ high) (hh : high ≤ 0xBF)
    (hk : ∀ n, n / 64 ^ owed = bits → low ≤ 0x80 + n / 64 ^ (owed - 1) % 64 →
      0x80 + n / 64 ^ (owed - 1) % 64 ≤ high →
      n.isValidChar ∧ encodeChar (.ofNat n) = seen.reverse ++ continuation n owed) :
    Pending.Promises ⟨bits, owed, .ofNat low, .ofNat high, seen⟩ := by
  have hlow : (UInt8.ofNat low).toNat = low := byte_toNat (by omega)
  have hhigh : (UInt8.ofNat high).toNat = high := byte_toNat (by omega)
  refine ⟨ho, hlow.symm ▸ hl, hhigh.symm ▸ hh, fun n ha => ?_⟩
  obtain ⟨hb, hln, hnh⟩ := (admits_iff bits owed low high hlh hh).1 ha
  exact hk n hb hln hnh

theorem Pending.ofLead?_eq (b : UInt8) :
    Pending.ofLead? b =
      if 0xC2 ≤ b.toNat ∧ b.toNat ≤ 0xDF then some ⟨b.toNat - 0xC0, 1, 0x80, 0xBF, [b]⟩
      else if b.toNat = 0xE0 then some ⟨0, 2, 0xA0, 0xBF, [b]⟩
      else if b.toNat = 0xED then some ⟨0xD, 2, 0x80, 0x9F, [b]⟩
      else if 0xE1 ≤ b.toNat ∧ b.toNat ≤ 0xEF then some ⟨b.toNat - 0xE0, 2, 0x80, 0xBF, [b]⟩
      else if b.toNat = 0xF0 then some ⟨0, 3, 0x90, 0xBF, [b]⟩
      else if 0xF1 ≤ b.toNat ∧ b.toNat ≤ 0xF3 then some ⟨b.toNat - 0xF0, 3, 0x80, 0xBF, [b]⟩
      else if b.toNat = 0xF4 then some ⟨4, 3, 0x80, 0x8F, [b]⟩
      else none := by
  simp only [Pending.ofLead?, UInt8.le_iff_toNat_le, ← UInt8.toNat_inj, UInt8.reduceToNat]

theorem Pending.ofLead?_promises (h : Pending.ofLead? b = some pending) : pending.Promises := by
  rw [Pending.ofLead?_eq] at h
  split_ifs at h with h1 h2 h3 h4 h5 h6 h7 <;> obtain rfl := Option.some.inj h
  · refine .within (b.toNat - 0xC0) 1 0x80 0xBF (by decide) (by decide) (by decide) (by decide) ?_
    intro n hb hlow hhigh
    exact keeps_two (by omega) (by omega) hb (by omega)
  · refine .within 0 2 0xA0 0xBF (by decide) (by decide) (by decide) (by decide) ?_
    intro n hb hlow hhigh
    exact keeps_three (by omega) (by omega) (by omega) (by omega) (by omega)
  · refine .within 0xD 2 0x80 0x9F (by decide) (by decide) (by decide) (by decide) ?_
    intro n hb hlow hhigh
    exact keeps_three (by omega) (by omega) (by omega) (by omega) (by omega)
  · refine .within (b.toNat - 0xE0) 2 0x80 0xBF (by decide) (by decide) (by decide) (by decide) ?_
    intro n hb hlow hhigh
    exact keeps_three (by omega) (by omega) (by omega) hb (by omega)
  · refine .within 0 3 0x90 0xBF (by decide) (by decide) (by decide) (by decide) ?_
    intro n hb hlow hhigh
    exact keeps_four (by omega) (by omega) (by omega) (by omega)
  · refine .within (b.toNat - 0xF0) 3 0x80 0xBF (by decide) (by decide) (by decide) (by decide) ?_
    intro n hb hlow hhigh
    exact keeps_four (by omega) (by omega) hb (by omega)
  · refine .within 4 3 0x80 0x8F (by decide) (by decide) (by decide) (by decide) ?_
    intro n hb hlow hhigh
    exact keeps_four (by omega) (by omega) (by omega) (by omega)

theorem Pending.ofLead?_seen (h : Pending.ofLead? b = some pending) : pending.seen = [b] := by
  rw [Pending.ofLead?] at h
  split_ifs at h <;> obtain rfl := Option.some.inj h <;> rfl

theorem Pending.Promises.six_bits (h : pending.Promises)
    (hb : pending.low ≤ b ∧ b ≤ pending.high) : 0x80 ≤ b.toNat ∧ b.toNat - 0x80 < 64 := by
  have hl := h.low_ge
  have hh := h.high_le
  rw [UInt8.le_iff_toNat_le, UInt8.le_iff_toNat_le] at hb
  omega

theorem Pending.admits_of_next (hb : pending.low ≤ b ∧ b ≤ pending.high)
    (hdiv : n / 64 ^ pending.owed = pending.bits)
    (hmod : 0x80 + n / 64 ^ (pending.owed - 1) % 64 = b.toNat) : pending.Admits n := by
  rw [UInt8.le_iff_toNat_le, UInt8.le_iff_toNat_le, ← hmod] at hb
  exact ⟨hdiv, hb.1, hb.2⟩

theorem Pending.Promises.last (h : pending.Promises) (hb : pending.low ≤ b ∧ b ≤ pending.high)
    (ho : pending.owed ≤ 1) :
    encodeChar (.ofNat (64 * pending.bits + (b.toNat - 0x80))) = pending.seen.reverse ++ [b] := by
  obtain ⟨hge, hlt⟩ := h.six_bits hb
  have howed : pending.owed = 1 := Nat.le_antisymm ho h.owed_pos
  have hdiv : (64 * pending.bits + (b.toNat - 0x80)) / 64 ^ 1 = pending.bits := by omega
  have hmod : 0x80 + (64 * pending.bits + (b.toNat - 0x80)) / 64 ^ 0 % 64 = b.toNat := by omega
  have ha := Pending.admits_of_next hb (howed.symm ▸ hdiv) (howed.symm ▸ hmod)
  rw [(h.keeps _ ha).2, howed, continuation, hmod, UInt8.ofNat_toNat, continuation]

theorem Pending.Promises.more (h : pending.Promises) (hb : pending.low ≤ b ∧ b ≤ pending.high)
    (ho : ¬ pending.owed ≤ 1) :
    Pending.Promises ⟨64 * pending.bits + (b.toNat - 0x80), pending.owed - 1, 0x80, 0xBF,
      b :: pending.seen⟩ := by
  obtain ⟨hge, hlt⟩ := h.six_bits hb
  obtain ⟨k, howed⟩ : ∃ k, pending.owed = k + 2 := ⟨pending.owed - 2, by omega⟩
  refine .within _ _ 0x80 0xBF (by omega) (by decide) (by decide) (by decide) fun n hn _ _ => ?_
  rw [howed] at hn
  change n / 64 ^ (k + 1) = _ at hn
  have hdiv : n / 64 ^ (k + 2) = pending.bits := by
    rw [Nat.pow_succ, ← Nat.div_div_eq_div_mul]
    omega
  have hmod : 0x80 + n / 64 ^ (k + 1) % 64 = b.toNat := by omega
  have ha := Pending.admits_of_next hb (howed.symm ▸ hdiv) (howed.symm ▸ hmod)
  obtain ⟨hv, he⟩ := h.keeps n ha
  refine ⟨hv, ?_⟩
  rw [he, howed, continuation, hmod, UInt8.ofNat_toNat, List.reverse_cons, List.append_assoc]
  rfl

theorem encode_snoc (done : List Char) (c : Char) :
    encode (c :: done).reverse = encode done.reverse ++ encodeChar c :=
  flatMap_reverse_cons encodeChar c done

theorem encode_of_decodeFrom {done text : List Char} {position : Nat} {bytes : List UInt8}
    {pending : Option Pending} (hp : ∀ p ∈ pending, p.Promises)
    (h : decodeFrom done position pending bytes = .ok text) :
    encode text = encode done.reverse ++ (pending.elim [] fun p => p.seen.reverse) ++ bytes := by
  induction bytes generalizing done position pending with
  | nil =>
    cases pending with
    | none =>
      rw [decodeFrom] at h
      cases h
      rw [Option.elim_none, List.append_nil, List.append_nil]
    | some p => cases h
  | cons b bytes ih =>
    cases pending with
    | none =>
      rw [decodeFrom] at h
      split at h
      · next hlt =>
        have hlt : b.toNat < 0x80 := UInt8.lt_iff_toNat_lt.1 hlt
        have hc : (Char.ofNat b.toNat).toNat = b.toNat :=
          toNat_ofNat_of_valid (Or.inl (by omega))
        have he := encodeChar_one (c := Char.ofNat b.toNat) (by omega)
        rw [ih (by nofun) h, encode_snoc, he, hc, UInt8.ofNat_toNat]
        simp only [Option.elim_none, List.append_nil, List.append_assoc, List.singleton_append]
      · split at h
        · next p hl =>
          have hpromises := Pending.ofLead?_promises hl
          rw [ih (fun q hq => Option.some.inj hq ▸ hpromises) h, Option.elim_some,
            Pending.ofLead?_seen hl]
          simp only [Option.elim_none, List.append_nil, List.append_assoc, List.reverse_singleton,
            List.singleton_append]
        · cases h
    | some p =>
      have hpromises := hp p rfl
      rw [decodeFrom] at h
      split at h
      · next hb =>
        split at h
        · next ho =>
          rw [ih (by nofun) h, encode_snoc, hpromises.last hb ho]
          simp only [Option.elim_none, Option.elim_some, List.append_nil, List.append_assoc,
            List.singleton_append]
        · next ho =>
          rw [ih (fun q hq => Option.some.inj hq ▸ hpromises.more hb ho) h]
          simp only [Option.elim_some, List.reverse_cons, List.append_assoc, List.singleton_append]
      · cases h

theorem decodeFrom_continuation {done : List Char} {position : Nat} {bytes : List UInt8}
    (ha : pending.Admits n) (ho : pending.owed = k + 1) :
    decodeFrom done position (some pending) (continuation n (k + 1) ++ bytes) =
      decodeFrom (.ofNat n :: done) (position + (k + 1)) none bytes := by
  induction k generalizing pending position with
  | zero =>
    obtain ⟨hb, hl, hh⟩ := ha
    rw [ho] at hb hl hh
    change n / 64 ^ 1 = _ at hb
    rw [Nat.add_sub_cancel, ← continuation_toNat, ← UInt8.le_iff_toNat_le] at hl hh
    have hn : 64 * pending.bits + (0x80 + n / 64 ^ 0 % 64 - 0x80) = n := by omega
    rw [continuation, continuation, List.singleton_append, decodeFrom, if_pos ⟨hl, hh⟩,
      if_pos (Nat.le_of_eq ho), continuation_toNat, hn]
  | succ k ih =>
    obtain ⟨hb, hl, hh⟩ := ha
    rw [ho] at hb hl hh
    rw [Nat.add_sub_cancel, ← continuation_toNat, ← UInt8.le_iff_toNat_le] at hl hh
    have hdiv : n / 64 ^ (k + 1) / 64 = pending.bits := by
      rw [Nat.div_div_eq_div_mul, ← Nat.pow_succ]
      exact hb
    have hn : n / 64 ^ (k + 1) = 64 * pending.bits + (0x80 + n / 64 ^ (k + 1) % 64 - 0x80) := by
      omega
    rw [continuation, List.cons_append, decodeFrom, if_pos ⟨hl, hh⟩, if_neg (by omega),
      continuation_toNat]
    refine (ih ?_ (by rw [ho]; rfl)).trans (by rw [Nat.add_assoc, Nat.add_comm 1])
    refine (Pending.admits_iff _ _ 0x80 0xBF (by decide) (by decide)).2 ?_
    rw [ho]
    exact ⟨hn, by omega, by omega⟩

theorem exists_lead_two (h : 0x80 ≤ n) (h' : n < 0x800) (hb : b.toNat = 0xC0 + n / 64 ^ 1) :
    ∃ pending, Pending.ofLead? b = some pending ∧ pending.owed = 1 ∧ pending.Admits n := by
  refine ⟨⟨b.toNat - 0xC0, 1, 0x80, 0xBF, [b]⟩, ?_, rfl, ?_⟩
  · rw [Pending.ofLead?_eq, if_pos (by omega)]
  · refine (Pending.admits_iff _ 1 0x80 0xBF (by decide) (by decide)).2 ?_
    omega

theorem exists_lead_three (h : 0x800 ≤ n) (h' : n < 0x10000) (hs : n < 0xD800 ∨ 0xE000 ≤ n)
    (hb : b.toNat = 0xE0 + n / 64 ^ 2) :
    ∃ pending, Pending.ofLead? b = some pending ∧ pending.owed = 2 ∧ pending.Admits n := by
  rw [Pending.ofLead?_eq, if_neg (by omega)]
  split_ifs with h0 hd hx
  · refine ⟨_, rfl, rfl, (Pending.admits_iff 0 2 0xA0 0xBF (by decide) (by decide)).2 ?_⟩
    omega
  · refine ⟨_, rfl, rfl, (Pending.admits_iff 0xD 2 0x80 0x9F (by decide) (by decide)).2 ?_⟩
    omega
  · refine ⟨_, rfl, rfl,
      (Pending.admits_iff (b.toNat - 0xE0) 2 0x80 0xBF (by decide) (by decide)).2 ?_⟩
    omega
  all_goals omega

theorem exists_lead_four (h : 0x10000 ≤ n) (h' : n < 0x110000) (hb : b.toNat = 0xF0 + n / 64 ^ 3) :
    ∃ pending, Pending.ofLead? b = some pending ∧ pending.owed = 3 ∧ pending.Admits n := by
  rw [Pending.ofLead?_eq, if_neg (by omega), if_neg (by omega), if_neg (by omega),
    if_neg (by omega)]
  split_ifs with h0 hx h4
  · refine ⟨_, rfl, rfl, (Pending.admits_iff 0 3 0x90 0xBF (by decide) (by decide)).2 ?_⟩
    omega
  · refine ⟨_, rfl, rfl,
      (Pending.admits_iff (b.toNat - 0xF0) 3 0x80 0xBF (by decide) (by decide)).2 ?_⟩
    omega
  · refine ⟨_, rfl, rfl, (Pending.admits_iff 4 3 0x80 0x8F (by decide) (by decide)).2 ?_⟩
    omega
  · omega

theorem exists_lead {c : Char} (h : 0x80 ≤ c.toNat) :
    ∃ b k, 0x80 ≤ b.toNat ∧ encodeChar c = b :: continuation c.toNat (k + 1) ∧
      ∃ pending, Pending.ofLead? b = some pending ∧ pending.owed = k + 1 ∧
        pending.Admits c.toNat := by
  have hv : c.toNat < 0xD800 ∨ 0xDFFF < c.toNat ∧ c.toNat < 0x110000 := c.valid
  by_cases h2 : c.toNat < 0x800
  · have hb : (UInt8.ofNat (0xC0 + c.toNat / 64 ^ 1)).toNat = 0xC0 + c.toNat / 64 ^ 1 :=
      byte_toNat (by omega)
    exact ⟨_, 0, by omega, encodeChar_two h h2, exists_lead_two h h2 hb⟩
  by_cases h3 : c.toNat < 0x10000
  · have hb : (UInt8.ofNat (0xE0 + c.toNat / 64 ^ 2)).toNat = 0xE0 + c.toNat / 64 ^ 2 :=
      byte_toNat (by omega)
    exact ⟨_, 1, by omega, encodeChar_three (by omega) h3,
      exists_lead_three (by omega) h3 (by omega) hb⟩
  · have hb : (UInt8.ofNat (0xF0 + c.toNat / 64 ^ 3)).toNat = 0xF0 + c.toNat / 64 ^ 3 :=
      byte_toNat (by omega)
    exact ⟨_, 2, by omega, encodeChar_four (by omega),
      exists_lead_four (by omega) (by omega) hb⟩

theorem decodeFrom_encodeChar (c : Char) (done : List Char) (position : Nat)
    (bytes : List UInt8) :
    decodeFrom done position none (encodeChar c ++ bytes) =
      decodeFrom (c :: done) (position + (encodeChar c).length) none bytes := by
  by_cases h : c.toNat < 0x80
  · have hb : (UInt8.ofNat c.toNat).toNat = c.toNat := byte_toNat (by omega)
    have hlt : UInt8.ofNat c.toNat < 0x80 := by
      rw [UInt8.lt_iff_toNat_lt, hb]
      exact h
    rw [encodeChar_one h, List.singleton_append, decodeFrom, if_pos hlt, hb, Char.ofNat_toNat]
    rfl
  · obtain ⟨b, k, hb, he, pending, hl, ho, ha⟩ := exists_lead (Nat.le_of_not_lt h)
    have hlt : ¬ b < 0x80 := by
      rw [UInt8.lt_iff_toNat_lt]
      exact Nat.not_lt.2 hb
    rw [he, List.cons_append, decodeFrom, if_neg hlt, hl]
    dsimp only
    rw [decodeFrom_continuation ha ho, Char.ofNat_toNat, List.length_cons, continuation_length,
      Nat.add_assoc, Nat.add_comm 1]

theorem decodeFrom_encode (text done : List Char) (position : Nat) :
    decodeFrom done position none (encode text) = .ok (done.reverse ++ text) := by
  induction text generalizing done position with
  | nil =>
    rw [List.append_nil]
    rfl
  | cons c text ih =>
    rw [encode, List.flatMap_cons, decodeFrom_encodeChar]
    refine (ih _ _).trans ?_
    rw [List.reverse_cons, List.append_assoc, List.singleton_append]

theorem decode_encode (text : List Char) : decode (encode text) = .ok text :=
  decodeFrom_encode text [] 0

theorem encode_of_decode {bytes : List UInt8} {text : List Char} (h : decode bytes = .ok text) :
    encode text = bytes :=
  encode_of_decodeFrom (by nofun) h

theorem encode_injective {text other : List Char} (h : encode text = encode other) :
    text = other := by
  have ht := decode_encode text
  rw [h, decode_encode other] at ht
  exact (Except.ok.inj ht).symm

end Utf8

end MethodMarkers.Text
