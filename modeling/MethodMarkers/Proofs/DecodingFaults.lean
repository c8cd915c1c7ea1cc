import MethodMarkers.Proofs.CodecRoundTrip

namespace MethodMarkers.Text

variable {cause : CodingFault} {bytes seen : List UInt8}

namespace CodingFault

theorem inPart_append (codec : String) (front seen back : List UInt8) (reason : String) :
    inPart codec (front ++ (seen ++ back)) front.length (front.length + seen.length) reason =
      inBytes codec seen front.length reason := by
  unfold inPart inBytes
  match seen with
  | [] => rw [if_neg (fun h => by have := h.2; rw [List.length_nil] at this; omega)]
  | [byte] =>
    rw [if_pos ⟨Int.natCast_nonneg _, rfl⟩, Int.toNat_natCast,
      List.getElem?_append_right (Nat.le_refl _), Nat.sub_self]
    rfl
  | first :: second :: rest =>
    rw [if_neg (fun h => by have := h.2; simp only [List.length_cons] at this; omega)]

/-- A fault about some of the given bytes, told by their places among these. -/
def Within (bytes : List UInt8) (cause : CodingFault) : Prop :=
  ∃ codec front seen back reason, bytes = front ++ (seen ++ back) ∧ seen ≠ [] ∧
    cause = .inPart codec bytes front.length (front.length + seen.length) reason

theorem within_inBytes (codec : String) (front back : List UInt8) (hs : seen ≠ [])
    (reason : String) :
    Within (front ++ (seen ++ back)) (.inBytes codec seen front.length reason) :=
  ⟨codec, front, seen, back, reason, rfl, hs, (inPart_append ..).symm⟩

end CodingFault

namespace Utf8

theorem within_fault (front back : List UInt8) (hs : seen ≠ []) (reason : String) :
    (fault seen (front.length + seen.length) reason).Within (front ++ (seen.reverse ++ back)) := by
  rw [fault, Nat.add_sub_cancel]
  exact CodingFault.within_inBytes _ front back (List.reverse_ne_nil_iff.mpr hs) reason

def seenOf (pending : Option Pending) : List UInt8 :=
  (pending.map Pending.seen).getD []

theorem within_of_decodeFrom (front : List UInt8) {done : List Char} {position : Nat}
    {pending : Option Pending} (h : decodeFrom done position pending bytes = .error cause)
    (hp : ∀ p, pending = some p → p.seen ≠ [])
    (hpos : position = front.length + (seenOf pending).length) :
    cause.Within (front ++ ((seenOf pending).reverse ++ bytes)) := by
  induction bytes generalizing done position pending front with
  | nil =>
    cases pending with
    | none => cases h
    | some pending =>
      subst hpos
      cases h
      exact within_fault front [] (hp pending rfl) _
  | cons b bytes ih =>
    cases pending with
    | none =>
      rw [decodeFrom] at h
      split at h
      · have := ih (front ++ [b]) h (by simp) (by rw [hpos]; simp [seenOf])
        simpa [seenOf] using this
      · split at h
        · next pending hl =>
          have hseen := Pending.ofLead?_seen hl
          have := ih front h (fun p he => by cases he; simp [hseen])
            (by rw [hpos]; simp [seenOf, hseen])
          simpa [seenOf, hseen] using this
        · subst hpos
          cases h
          exact within_fault front bytes (List.cons_ne_nil b []) _
    | some pending =>
      rw [decodeFrom] at h
      split at h
      · dsimp only at h
        split at h
        · have := ih (front ++ (pending.seen.reverse ++ [b])) h (by simp)
            (by rw [hpos]; simp [seenOf, Nat.add_assoc])
          simpa [seenOf] using this
        · have := ih front h
            (fun p he => by rw [← Option.some.inj he]; exact List.cons_ne_nil b _)
            (by rw [hpos]; rfl)
          simpa [seenOf] using this
      · subst hpos
        cases h
        exact within_fault front (b :: bytes) (hp pending rfl) _

theorem within_of_decode (h : decode bytes = .error cause) : cause.Within bytes :=
  within_of_decodeFrom [] h (by simp) rfl

end Utf8

namespace Utf16

def bytesOf (pending : Option (UInt8 × UInt8)) : List UInt8 :=
  (pending.map fun pair => [pair.1, pair.2]).getD []

theorem within_of_decodeFrom (front : List UInt8) {order : Order} {done : List Char}
    {position : Nat} {pending : Option (UInt8 × UInt8)}
    (h : decodeFrom order done position pending bytes = .error cause)
    (hpos : position = front.length + (bytesOf pending).length) :
    cause.Within (front ++ (bytesOf pending ++ bytes)) := by
  fun_induction decodeFrom order done position pending bytes generalizing front with
  | case1 => cases h
  | case2 done position b =>
    subst hpos
    cases h
    exact CodingFault.within_inBytes _ front [] (List.cons_ne_nil b []) _
  | case3 done position a b =>
    subst hpos
    cases h
    exact CodingFault.within_inBytes _ front [] (List.cons_ne_nil a [b]) _
  | case4 done position a b c =>
    subst hpos
    cases h
    exact CodingFault.within_inBytes _ front [] (List.cons_ne_nil a [b, c]) _
  | case5 =>
    rename_i ih
    exact ih front h (by rw [hpos]; rfl)
  | case6 done position a b bytes =>
    subst hpos
    cases h
    exact CodingFault.within_inBytes _ front bytes (List.cons_ne_nil a [b]) _
  | case7 done position a b =>
    rename_i ih
    have := ih (front ++ [a, b]) h (by rw [hpos]; simp [bytesOf])
    simpa [bytesOf] using this
  | case8 done position a b c d =>
    rename_i ih
    have := ih (front ++ [a, b, c, d]) h (by rw [hpos]; simp [bytesOf])
    simpa [bytesOf] using this
  | case9 done position a b c d bytes =>
    subst hpos
    cases h
    exact CodingFault.within_inBytes _ front (c :: d :: bytes) (List.cons_ne_nil a [b]) _

theorem within_of_decodeMarked (h : decodeMarked bytes = .error cause) :
    cause = .noByteOrderMark ∨ cause.Within bytes := by
  unfold decodeMarked at h
  split at h
  · cases h
  · exact .inr (within_of_decodeFrom [0xFF, 0xFE] h rfl)
  · exact .inr (within_of_decodeFrom [0xFE, 0xFF] h rfl)
  · cases hd : decodeFrom .little [] 0 none bytes with
    | error other =>
      rw [hd] at h
      cases h
      exact .inr (within_of_decodeFrom [] hd rfl)
    | ok text =>
      rw [hd] at h
      cases h
      exact .inl rfl

end Utf16

theorem SingleByte.within_of_decode {single : SingleByte} (h : single.decode bytes = .error cause) :
    cause.Within bytes := by
  unfold SingleByte.decode at h
  dsimp only at h
  split at h
  · cases h
  · next b back hdrop =>
    cases h
    have hsplit :=
      List.takeWhile_append_dropWhile (p := fun b => b.toNat < single.limit) (l := bytes)
    rw [hdrop] at hsplit
    have := CodingFault.within_inBytes single.codec
      (bytes.takeWhile fun b => b.toNat < single.limit) back (List.cons_ne_nil b [])
      s!"ordinal not in range({single.limit})"
    rwa [List.singleton_append, hsplit] at this

/-- What is wrong with bytes is told by their places among those of the file, behind its mark if it
has one that is no part of the text. -/
theorem Encoding.within_of_decode {encoding : Encoding}
    (h : encoding.decode bytes = .error cause) :
    cause = .noByteOrderMark ∨ ∃ mark rest, bytes = mark ++ rest ∧ cause.Within rest := by
  have whole (hw : cause.Within bytes) : ∃ mark rest, bytes = mark ++ rest ∧ cause.Within rest :=
    ⟨[], bytes, rfl, hw⟩
  unfold Encoding.decode at h
  split at h
  · exact .inr (whole (Utf8.within_of_decode h))
  · exact .inr (whole (Utf8.within_of_decode h))
  · cases h
  · cases h
  · cases h
  · exact .inr ⟨[0xEF, 0xBB, 0xBF], _, rfl, Utf8.within_of_decode h⟩
  · exact .inr (whole (Utf8.within_of_decode h))
  · exact .inr (whole (SingleByte.within_of_decode h))
  · exact .inr (whole (SingleByte.within_of_decode h))
  · exact (Utf16.within_of_decodeMarked h).imp_right whole
  · exact .inr (whole (Utf16.within_of_decodeFrom [] h rfl))

end MethodMarkers.Text
