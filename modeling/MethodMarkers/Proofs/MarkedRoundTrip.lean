import MethodMarkers.Proofs.WriteReadBack

namespace MethodMarkers
open Text

namespace Text

namespace Utf16

variable {order : Order} {n : Nat}

theorem Order.exists_bytes (order : Order) (h : n < 0x10000) :
    ∃ a b, order.bytes n = [a, b] ∧ order.unit a b = n := by
  have hlow : (UInt8.ofNat (n % 256)).toNat = n % 256 := byte_toNat (by omega)
  have hhigh : (UInt8.ofNat (n / 256)).toNat = n / 256 := byte_toNat (by omega)
  cases order with
  | little =>
    refine ⟨_, _, rfl, ?_⟩
    rw [Order.unit, hlow, hhigh, Nat.mod_add_div]
  | big =>
    refine ⟨_, _, rfl, ?_⟩
    rw [Order.unit, hlow, hhigh, Nat.div_add_mod]

theorem decodeFrom_encodeChar (order : Order) (done : List Char) (position : Nat) (c : Char)
    (bytes : List UInt8) :
    ∃ next, decodeFrom order done position none (encodeChar order c ++ bytes) =
      decodeFrom order (c :: done) next none bytes := by
  have hv : c.toNat < 0xD800 ∨ 0xDFFF < c.toNat ∧ c.toNat < 0x110000 := c.valid
  by_cases hc : c.toNat < 0x10000
  · obtain ⟨a, b, hab, hu⟩ := order.exists_bytes hc
    have hhigh : isHigh (order.unit a b) = false := by
      rw [← Bool.not_eq_true, isHigh_iff]
      omega
    have hlow : isLow (order.unit a b) = false := by
      rw [← Bool.not_eq_true, isLow_iff]
      omega
    refine ⟨position + 2, ?_⟩
    rw [encodeChar, if_pos hc, hab, List.cons_append, List.cons_append, List.nil_append, decodeFrom]
    simp only [hhigh, hlow, Bool.false_eq_true, if_false]
    rw [hu, Char.ofNat_toNat]
  · obtain ⟨a, b, hab, hu⟩ := order.exists_bytes
      (n := 0xD800 + (c.toNat - 0x10000) / 0x400) (by omega)
    obtain ⟨d, e, hde, hl⟩ := order.exists_bytes (n := 0xDC00 + c.toNat % 0x400) (by omega)
    have hhigh : isHigh (order.unit a b) = true := isHigh_iff.2 (by omega)
    have hlow : isLow (order.unit d e) = true := isLow_iff.2 (by omega)
    have hn : 0x10000 + (order.unit a b - 0xD800) * 0x400 + (order.unit d e - 0xDC00) =
        c.toNat := by omega
    refine ⟨position + 2 + 2, ?_⟩
    rw [encodeChar, if_neg hc, hab, hde]
    simp only [List.cons_append, List.nil_append, decodeFrom, hhigh, hlow, if_true, hn,
      Char.ofNat_toNat]

theorem decodeFrom_encode (order : Order) (text done : List Char) (position : Nat) :
    decodeFrom order done position none (encode order text) = .ok (done.reverse ++ text) := by
  induction text generalizing done position with
  | nil =>
    rw [List.append_nil]
    rfl
  | cons c text ih =>
    obtain ⟨next, hnext⟩ := decodeFrom_encodeChar order done position c (encode order text)
    rw [encode, List.flatMap_cons]
    refine (hnext.trans (ih _ _)).trans ?_
    rw [List.reverse_cons, List.append_assoc, List.singleton_append]

end Utf16

namespace Encoding

variable {encoding : Encoding} {bytes rest : List UInt8} {text : List Char}

/-- The byte order mark that an encoding writes in front of every text. -/
def signature : Encoding → List UInt8
  | utf8Marked => [0xEF, 0xBB, 0xBF]
  | utf16Marked => [0xFF, 0xFE]
  | utf8 | ascii | latin1 | utf16 _ | locale => []

def IsMarked (encoding : Encoding) : Prop :=
  encoding = utf8Marked ∨ encoding = utf16Marked

/-- Behind its own mark an encoding decodes what it encodes, and nothing else. -/
theorem IsMarked.encode_of_decode (hm : encoding.IsMarked)
    (h : encoding.decode (encoding.signature ++ rest) = .ok text) :
    encoding.encode text = .ok (encoding.signature ++ rest) := by
  rcases hm with rfl | rfl
  · have hrest : Utf8.encode text = rest := Utf8.encode_of_decode h
    rw [← hrest]
    rfl
  · have hrest : Utf16.encode .little text = [] ++ [] ++ rest :=
      Utf16.encode_of_decodeFrom (by nofun) h
    rw [List.append_nil, List.nil_append] at hrest
    rw [← hrest]
    rfl

theorem IsMarked.exists_encode (hm : encoding.IsMarked) (text : List Char) :
    ∃ bytes, encoding.encode text = .ok bytes ∧ encoding.signature <+: bytes ∧
      encoding.decode bytes = .ok text := by
  rcases hm with rfl | rfl
  · exact ⟨_, rfl, List.prefix_append _ _, Utf8.decode_encode text⟩
  · exact ⟨_, rfl, List.prefix_append _ _, Utf16.decodeFrom_encode .little text [] 2⟩

theorem IsMarked.encode_eq_iff (hm : encoding.IsMarked) (h : encoding.decode bytes = .ok text) :
    encoding.encode text = .ok bytes ↔ encoding.signature <+: bytes := by
  constructor
  · intro he
    obtain ⟨content, hc, hs, -⟩ := hm.exists_encode text
    rw [hc] at he
    cases he
    exact hs
  · rintro ⟨rest, rfl⟩
    exact hm.encode_of_decode h

end Encoding

end Text

namespace Source

variable {tree : Tree} {path : Path} {name : String} {encoding : Encoding} {image : OpenSource}
  {location : Location} {bytes : List UInt8}

/-- A file in an encoding with a mark of its own, whose line ends are of one style, is written back
as the same text. Its bytes are the same only if they began with the mark of the encoding. -/
theorem read_write_marked (hn : Encoding.named name = .ok encoding) (hm : encoding.IsMarked)
    (ho : tree.read path = .ok (location, bytes))
    (hr : (read tree path name).value = .ok image) (hu : image.source.counts.mixed = false) :
    ∃ content after, (image.write tree path image.source.lines).value =
        .ok (content.length, after) ∧
      after.read path = .ok (location, content) ∧ (read after path name).value = .ok image ∧
      (content = bytes ↔ encoding.signature <+: bytes) := by
  obtain ⟨named, place, found, text, hnamed, hread, hd, rfl⟩ := read_eq_ok_iff.1 hr
  obtain rfl : named = encoding := Except.ok.inj (hnamed.symm.trans hn)
  obtain ⟨rfl, rfl⟩ := Prod.mk.inj (Except.ok.inj (hread.symm.trans ho))
  have hrender : ((ofText text).layout.render (ofText text).lines).toList = text := by
    rw [render_lines_eq_iff, uniform_iff_mixed]
    exact hu
  obtain ⟨content, hc, -, hagain⟩ := hm.exists_encode text
  have hcontent := hrender.symm ▸ hc
  have hafter := Tree.read_write ho content
  refine ⟨content, _, OpenSource.write_value hcontent tree path, hafter, ?_, ?_⟩
  · exact read_eq_ok_iff.2 ⟨_, _, _, _, hn, hafter, hagain, rfl⟩
  · rw [← hm.encode_eq_iff hd, hc]
    exact ⟨congrArg Except.ok, Except.ok.inj⟩

/-- The first mark belongs to the encoding and the second to the text. -/
theorem read_write_marked_twice :
    let bytes : List UInt8 := [0xEF, 0xBB, 0xBF, 0xEF, 0xBB, 0xBF, 0x61, 0x0D]
    let tree : Tree := ⟨[], [(["A.cs"], .file bytes)]⟩
    let path : Path := ⟨0, ["A.cs"]⟩
    Encoding.named "utf-8-sig" = .ok .utf8Marked ∧ Encoding.utf8Marked.IsMarked ∧
      ∃ image, (read tree path "utf-8-sig").value = .ok image ∧
        image.source.layout = ⟨.cr, true, true⟩ ∧ image.source.counts.mixed = false ∧
        ∃ after, (image.write tree path image.source.lines).value = .ok (bytes.length, after) ∧
          after.read path = .ok (["A.cs"], bytes) := by
  intro bytes tree path
  have hn : Encoding.named "utf-8-sig" = .ok .utf8Marked := by decide +kernel
  have hm : Encoding.utf8Marked.IsMarked := .inl rfl
  have ho : tree.read path = .ok (["A.cs"], bytes) :=
    Tree.read_name (by decide) (by decide) (by decide +kernel) (by decide) (by decide +kernel) rfl
  have hd : Encoding.utf8Marked.decode bytes = .ok [byteOrderMark, 'a', '\r'] := by decide +kernel
  have hr := read_eq_ok_iff.2 ⟨_, _, _, _, hn, ho, hd, rfl⟩
  have hlayout : (ofText [byteOrderMark, 'a', '\r']).layout = ⟨.cr, true, true⟩ := by
    decide +kernel
  have hu : (ofText [byteOrderMark, 'a', '\r']).counts.mixed = false := by decide +kernel
  obtain ⟨content, after, hw, ha, -, hsame⟩ := read_write_marked hn hm ho hr hu
  obtain rfl := hsame.2 ⟨[0xEF, 0xBB, 0xBF, 0x61, 0x0D], rfl⟩
  exact ⟨hn, hm, _, hr, hlayout, hu, after, hw, ha⟩

/-- A file without a mark has one when it is written back. -/
theorem read_write_unmarked :
    let bytes : List UInt8 := [0x61, 0x0A]
    let tree : Tree := ⟨[], [(["A.cs"], .file bytes)]⟩
    let path : Path := ⟨0, ["A.cs"]⟩
    ∃ image, (read tree path "utf-8-sig").value = .ok image ∧
      image.source.counts.mixed = false ∧ ∃ content after,
        (image.write tree path image.source.lines).value = .ok (content.length, after) ∧
          after.read path = .ok (["A.cs"], content) ∧ content ≠ bytes := by
  intro bytes tree path
  have hn : Encoding.named "utf-8-sig" = .ok .utf8Marked := by decide +kernel
  have ho : tree.read path = .ok (["A.cs"], bytes) :=
    Tree.read_name (by decide) (by decide) (by decide +kernel) (by decide) (by decide +kernel) rfl
  have hd : Encoding.utf8Marked.decode bytes = .ok ['a', '\n'] := by decide +kernel
  have hu : (ofText ['a', '\n']).counts.mixed = false := by decide +kernel
  have hc : Encoding.utf8Marked.encode
      ((ofText ['a', '\n']).layout.render (ofText ['a', '\n']).lines).toList =
        .ok [0xEF, 0xBB, 0xBF, 0x61, 0x0A] := by
    decide +kernel
  have hw : (OpenSource.write ⟨ofText ['a', '\n'], ["A.cs"], .utf8Marked⟩ tree path
      (ofText ['a', '\n']).lines).value = .ok _ := OpenSource.write_value hc tree path
  exact ⟨_, read_eq_ok_iff.2 ⟨_, _, _, _, hn, ho, hd, rfl⟩, hu, _, _, hw,
    Tree.read_write ho _, by decide⟩

end Source

end MethodMarkers
