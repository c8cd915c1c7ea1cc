import Mathlib.Data.List.TakeWhile
import MethodMarkers.Proofs.Utf8RoundTrip

namespace MethodMarkers.Text

namespace Utf16

variable {order : Order} {a b c d : UInt8}

theorem Order.bytes_unit (order : Order) (a b : UInt8) : order.bytes (order.unit a b) = [a, b] := by
  have ha := a.toNat_lt
  have hb := b.toNat_lt
  cases order with
  | little =>
    have hlow : (a.toNat + 256 * b.toNat) % 256 = a.toNat := by omega
    have hhigh : (a.toNat + 256 * b.toNat) / 256 = b.toNat := by omega
    rw [Order.unit, Order.bytes, hlow, hhigh, UInt8.ofNat_toNat, UInt8.ofNat_toNat]
  | big =>
    have hlow : (256 * a.toNat + b.toNat) % 256 = b.toNat := by omega
    have hhigh : (256 * a.toNat + b.toNat) / 256 = a.toNat := by omega
    rw [Order.unit, Order.bytes, hlow, hhigh, UInt8.ofNat_toNat, UInt8.ofNat_toNat]

theorem Order.unit_lt (order : Order) (a b : UInt8) : order.unit a b < 0x10000 := by
  have ha := a.toNat_lt
  have hb := b.toNat_lt
  cases order <;> simp only [Order.unit] <;> omega

theorem isHigh_iff {unit : Nat} : isHigh unit = true ↔ 0xD800 ≤ unit ∧ unit < 0xDC00 := by
  rw [isHigh, Bool.and_eq_true, decide_eq_true_iff, decide_eq_true_iff]

theorem isLow_iff {unit : Nat} : isLow unit = true ↔ 0xDC00 ≤ unit ∧ unit < 0xE000 := by
  rw [isLow, Bool.and_eq_true, decide_eq_true_iff, decide_eq_true_iff]

theorem encodeChar_unit (hh : isHigh (order.unit a b) = false)
    (hl : isLow (order.unit a b) = false) :
    encodeChar order (.ofNat (order.unit a b)) = [a, b] := by
  have hu := order.unit_lt a b
  rw [← Bool.not_eq_true, isHigh_iff] at hh
  rw [← Bool.not_eq_true, isLow_iff] at hl
  have hv : (order.unit a b).isValidChar := by omega
  rw [encodeChar, toNat_ofNat_of_valid hv, if_pos hu, order.bytes_unit]

theorem encodeChar_pair (hh : isHigh (order.unit a b) = true) (hl : isLow (order.unit c d) = true) :
    encodeChar order
        (.ofNat (0x10000 + (order.unit a b - 0xD800) * 0x400 + (order.unit c d - 0xDC00))) =
      [a, b] ++ [c, d] := by
  rw [isHigh_iff] at hh
  rw [isLow_iff] at hl
  have hv : (0x10000 + (order.unit a b - 0xD800) * 0x400 +
      (order.unit c d - 0xDC00)).isValidChar := by omega
  have hhigh : 0xD800 + (0x10000 + (order.unit a b - 0xD800) * 0x400 + (order.unit c d - 0xDC00) -
      0x10000) / 0x400 = order.unit a b := by omega
  have hlow : 0xDC00 + (0x10000 + (order.unit a b - 0xD800) * 0x400 +
      (order.unit c d - 0xDC00)) % 0x400 = order.unit c d := by omega
  rw [encodeChar, toNat_ofNat_of_valid hv, if_neg (by omega), hhigh, hlow, order.bytes_unit,
    order.bytes_unit]

theorem encode_snoc (order : Order) (done : List Char) (c : Char) :
    encode order (c :: done).reverse = encode order done.reverse ++ encodeChar order c :=
  flatMap_reverse_cons (encodeChar order) c done

theorem encode_of_decodeFrom {done text : List Char} {position : Nat}
    {half : Option (UInt8 × UInt8)} {bytes : List UInt8}
    (hh : ∀ p ∈ half, isHigh (order.unit p.1 p.2) = true)
    (h : decodeFrom order done position half bytes = .ok text) :
    encode order text =
      encode order done.reverse ++ (half.elim [] fun p => [p.1, p.2]) ++ bytes := by
  fun_induction decodeFrom order done position half bytes with
  | case1 done position =>
    cases h
    rw [Option.elim_none, List.append_nil, List.append_nil]
  | case2 => cases h
  | case3 => cases h
  | case4 => cases h
  | case5 done position a b bytes unit hhigh ih =>
    rw [ih (fun p hp => Option.some.inj hp ▸ hhigh) h]
    simp only [Option.elim_some, Option.elim_none, List.append_nil, List.append_assoc,
      List.cons_append, List.nil_append]
  | case6 => cases h
  | case7 done position a b bytes unit hhigh hlow ih =>
    rw [ih (by nofun) h, encode_snoc,
      encodeChar_unit (eq_false_of_ne_true hhigh) (eq_false_of_ne_true hlow)]
    simp only [Option.elim_none, List.append_nil, List.append_assoc, List.cons_append,
      List.nil_append]
  | case8 done position a b c d bytes low hlow n ih =>
    rw [ih (by nofun) h, encode_snoc, encodeChar_pair (hh (a, b) rfl) hlow]
    simp only [Option.elim_some, Option.elim_none, List.append_nil, List.append_assoc,
      List.cons_append, List.nil_append]
  | case9 => cases h

end Utf16

theorem SingleByte.encode_of_decode {single : SingleByte} {bytes : List UInt8} {text : List Char}
    (h : single.decode bytes = .ok text) : single.encode text = .ok bytes := by
  have hc (b : UInt8) : (Char.ofNat b.toNat).toNat = b.toNat := by
    have hb := b.toNat_lt
    exact toNat_ofNat_of_valid (Or.inl (by omega))
  rw [decode] at h
  split at h
  · next hd =>
    cases h
    rw [List.dropWhile_eq_nil_iff] at hd
    have he : (bytes.map fun b => Char.ofNat b.toNat).dropWhile
        (fun c => decide (c.toNat < single.limit)) = [] := by
      rw [List.dropWhile_eq_nil_iff]
      intro c hm
      obtain ⟨b, hb, rfl⟩ := List.mem_map.1 hm
      rw [hc]
      exact hd b hb
    rw [encode, he]
    dsimp only
    rw [List.map_map]
    refine congrArg Except.ok ((List.map_congr_left fun b _ => ?_).trans (List.map_id bytes))
    rw [Function.comp_apply, hc, UInt8.ofNat_toNat]
    rfl
  · cases h

namespace Encoding

/-- Whether the encoding writes no signature of its own in front of a text. -/
def isBare : Encoding → Bool
  | utf8 | ascii | latin1 | utf16 _ => true
  | utf8Marked | utf16Marked | locale => false

variable {encoding : Encoding} {bytes : List UInt8} {text : List Char}

theorem encode_of_decode (hb : encoding.isBare = true) (h : encoding.decode bytes = .ok text) :
    encoding.encode text = .ok bytes := by
  cases encoding with
  | utf8 => exact congrArg Except.ok (Utf8.encode_of_decode h)
  | ascii => exact SingleByte.encode_of_decode h
  | latin1 => exact SingleByte.encode_of_decode h
  | utf16 order => exact congrArg Except.ok (Utf16.encode_of_decodeFrom (by nofun) h)
  | utf8Marked => cases hb
  | utf16Marked => cases hb
  | locale => cases hb

end Encoding

end MethodMarkers.Text
