import MethodMarkers.Buffer.Linked
import MethodMarkers.Proofs.BufferInsertion
import Mathlib.Data.List.Nodup

namespace MethodMarkers

def Linked {α : Type} (ahead behind : α → α) : List α → Prop
  | x :: y :: rest => ahead x = y ∧ behind y = x ∧ Linked ahead behind (y :: rest)
  | _ => True

section Linked
variable {α : Type} {ahead behind ahead' behind' : α → α} {x y z : α} {xs ys : List α}

theorem linked_append :
    Linked ahead behind (xs ++ x :: y :: ys) ↔
      Linked ahead behind (xs ++ [x]) ∧ ahead x = y ∧ behind y = x ∧
        Linked ahead behind (y :: ys) := by
  induction xs with
  | nil => simp [Linked]
  | cons a xs ih =>
    cases xs with
    | nil => simp [Linked, and_assoc]
    | cons b xs =>
      simp only [List.cons_append, Linked] at ih ⊢
      rw [ih, and_assoc, and_assoc]

theorem Linked.congr (h : Linked ahead behind xs) (ha : ∀ x ∈ xs.dropLast, ahead' x = ahead x)
    (hb : ∀ y ∈ xs.tail, behind' y = behind y) : Linked ahead' behind' xs := by
  induction xs with
  | nil => trivial
  | cons x xs ih =>
    cases xs with
    | nil => trivial
    | cons y rest =>
      obtain ⟨hx, hy, hrest⟩ := h
      rw [List.dropLast_cons_cons, List.forall_mem_cons] at ha
      rw [List.tail_cons, List.forall_mem_cons] at hb
      exact ⟨ha.1.trans hx, hb.1.trans hy, ih hrest ha.2 hb.2⟩

theorem Linked.reverse (h : Linked ahead behind xs) : Linked behind ahead xs.reverse := by
  induction xs with
  | nil => trivial
  | cons x xs ih =>
    cases xs with
    | nil => trivial
    | cons y rest =>
      obtain ⟨hx, hy, hrest⟩ := h
      have hr := ih hrest
      rw [List.reverse_cons] at hr
      rw [List.reverse_cons, List.reverse_cons, List.append_assoc, List.singleton_append]
      exact linked_append.2 ⟨hr, hy, hx, trivial⟩

/-- A new element stands between two others as soon as the four links around it are set. -/
theorem Linked.splice (h : Linked ahead behind (xs ++ x :: z :: ys))
    (hx : ahead' x = y) (hyx : behind' y = x) (hyz : ahead' y = z) (hz : behind' z = y)
    (ha : ∀ u ∈ xs ++ (z :: ys).dropLast, ahead' u = ahead u)
    (hb : ∀ u ∈ (xs ++ [x]).tail ++ ys, behind' u = behind u) :
    Linked ahead' behind' (xs ++ x :: y :: z :: ys) := by
  rw [linked_append] at h ⊢
  obtain ⟨hfront, -, -, hback⟩ := h
  refine ⟨hfront.congr ?_ ?_, hx, hyx, hyz, hz, hback.congr ?_ ?_⟩
  · rw [List.dropLast_concat]
    intro u hu
    exact ha u (List.mem_append_left _ hu)
  · intro u hu
    exact hb u (List.mem_append_left _ hu)
  · intro u hu
    exact ha u (List.mem_append_right _ hu)
  · intro u hu
    exact hb u (List.mem_append_right _ hu)

end Linked

/-- A chain as a ring through its head, which stands before the first line and behind the last. -/
def ring (lines : List Line) : List (Option Line) :=
  none :: lines.map some ++ [none]

theorem mem_ring {u : Option Line} {lines : List Line} (h : u ∈ ring lines) :
    ∀ line, u = some line → line ∈ lines := by
  rintro line rfl
  simpa [ring] using h

theorem ring_cons_eq (xs : List Line) : ∃ front, none :: xs.map some = front ++ [xs.getLast?] := by
  rcases List.eq_nil_or_concat xs with rfl | ⟨init, last, rfl⟩
  · exact ⟨[], rfl⟩
  · exact ⟨none :: init.map some, by simp⟩

theorem ring_concat_eq (ys : List Line) : ∃ back, ys.map some ++ [none] = ys.head? :: back := by
  cases ys with
  | nil => exact ⟨[], rfl⟩
  | cons y ys => exact ⟨ys.map some ++ [none], rfl⟩

/-- A ring cut between two parts of its lines. Neither neighbour of the cut stands elsewhere where
it would be read again: the left one ahead, the right one behind. -/
theorem ring_cut {xs ys : List Line} (h : (xs ++ ys).Nodup) :
    ∃ front back, ring (xs ++ ys) = front ++ xs.getLast? :: ys.head? :: back ∧
      (∀ new, ring (xs ++ new :: ys) =
        front ++ xs.getLast? :: some new :: ys.head? :: back) ∧
      xs.getLast? ∉ front ++ (ys.head? :: back).dropLast ∧
      ys.head? ∉ (front ++ [xs.getLast?]).tail ++ back := by
  obtain ⟨front, hf⟩ := ring_cons_eq xs
  obtain ⟨back, hb⟩ := ring_concat_eq ys
  have hmap : (xs.map some ++ ys.map some).Nodup := by
    rw [← List.map_append]
    exact h.map fun _ _ => Option.some.inj
  refine ⟨front, back, ?_, fun new => ?_, ?_, ?_⟩
  · rw [ring, List.map_append, ← List.cons_append, hf, List.append_assoc, hb, List.append_assoc]
    rfl
  · rw [ring, List.map_append, ← List.cons_append, hf, List.map_cons, List.append_assoc,
      List.cons_append, hb, List.append_assoc]
    rfl
  · have hn : (none :: xs.map some ++ ys.map some).Nodup :=
      List.nodup_cons.2 ⟨by simp, hmap⟩
    rw [hf, List.append_assoc, List.singleton_append] at hn
    rw [← hb, List.dropLast_concat]
    exact (List.nodup_middle.1 hn).notMem
  · have hn : (xs.map some ++ (ys.map some ++ [none])).Nodup := by
      rw [← List.append_assoc]
      exact List.nodup_append_comm.1 (List.nodup_cons.2 ⟨by simp, hmap⟩)
    rw [hb] at hn
    rw [← hf, List.tail_cons]
    exact (List.nodup_middle.1 hn).notMem

theorem ring_reverse (lines : List Line) : (ring lines).reverse = ring lines.reverse := by
  simp [ring]

inductive Walks (link : Line → Option Line) : Option Line → List Line → Prop
  | done : Walks link none []
  | step {line : Line} {lines : List Line} (h : Walks link (link line) lines) :
      Walks link (some line) (line :: lines)

theorem Linked.walks {ahead behind : Option Line → Option Line} {start : Option Line}
    {lines : List Line} (h : Linked ahead behind (start :: lines.map some ++ [none])) :
    Walks (fun line => ahead (some line)) (ahead start) lines := by
  induction lines generalizing start with
  | nil =>
    obtain ⟨hs, -, -⟩ := h
    rw [hs]
    exact .done
  | cons line lines ih =>
    obtain ⟨hs, -, hrest⟩ := h
    rw [hs]
    exact .step (ih hrest)

theorem Walks.follow {link : Line → Option Line} {start : Option Line} {lines : List Line}
    {bound : Nat} (h : Walks link start lines) (hb : lines.length ≤ bound) :
    follow link bound start = lines := by
  induction h generalizing bound with
  | done => cases bound <;> rfl
  | step h ih =>
    cases bound with
    | zero => cases hb
    | succ bound => exact congrArg _ (ih (Nat.le_of_succ_le_succ hb))

namespace LinkedLines

variable {lines before after : LinkedLines} {home other : Nat} {left right : Option Line}
  {line target : Line} {xs ys : List Line} {text : String}

/-- The line behind another; behind the head of the chain stands the first. -/
def ahead (lines : LinkedLines) (home : Nat) : Option Line → Option Line
  | none => (lines.chain home).first
  | some line => lines.next line

def behind (lines : LinkedLines) (home : Nat) : Option Line → Option Line
  | none => (lines.chain home).last
  | some line => lines.prev line

def splice (lines : LinkedLines) (home : Nat) (left : Option Line) (text : String)
    (right : Option Line) : LinkedLines :=
  let new := lines.newLine home text
  let chain := lines.chain home
  { prev := fun line =>
      if some line = right then some new else if line = new then left else lines.prev line
    next := fun line =>
      if some line = left then some new else if line = new then right else lines.next line
    chain := fun other =>
      if other = home then
        { path := chain.path
          first := if left = none then some new else chain.first
          last := if right = none then some new else chain.last
          size := chain.size + 1
          nextSerial := chain.nextSerial + 1 }
      else lines.chain other }

theorem splice_ahead (x : Option Line) :
    (lines.splice home left text right).ahead home x =
      if x = left then some (lines.newLine home text)
      else if x = some (lines.newLine home text) then right else lines.ahead home x := by
  cases x with
  | none => cases left <;> simp [ahead, splice]
  | some line => simp [ahead, splice]

theorem splice_behind (x : Option Line) :
    (lines.splice home left text right).behind home x =
      if x = right then some (lines.newLine home text)
      else if x = some (lines.newLine home text) then left else lines.behind home x := by
  cases x with
  | none => cases right <;> simp [behind, splice]
  | some line => simp [behind, splice]

theorem eq_of_reads (hp : ∀ line, after.prev line = before.prev line)
    (hn : ∀ line, after.next line = before.next line)
    (hc : ∀ home, after.chain home = before.chain home) : after = before :=
  LinkedLines.ext (funext hp) (funext hn) (funext hc)

theorem append_eq_splice (lines : LinkedLines) (home : Nat) (text : String) :
    lines.append home text = lines.splice home (lines.chain home).last text none := by
  have hlast : ((lines.make home text).chain home).last = (lines.chain home).last := by
    simp [make]
  rw [append, hlast]
  cases hl : (lines.chain home).last with
  | none =>
    apply eq_of_reads
    · intro line
      simp [splice, make, grow, setFirst, setLast]
    · intro line
      simp [splice, make, grow, setFirst, setLast]
    · intro other
      by_cases ho : other = home <;> simp [splice, make, grow, setFirst, setLast, ho]
  | some last =>
    apply eq_of_reads
    · intro line
      by_cases hn : line = lines.newLine home text <;> simp [splice, make, grow, setLast, hn]
    · intro line
      simp [splice, make, grow, setLast]
    · intro other
      by_cases ho : other = home <;> simp [splice, make, grow, setLast, ho]

theorem putAfter_eq_splice (ht : target ≠ lines.newLine home text) :
    lines.putAfter home target text = lines.splice home (some target) text (lines.next target) := by
  have hnext : (lines.make home text).next target = lines.next target := by
    simp [make, ht]
  simp only [putAfter, hnext, setPrev_next, setNext_next, ht, ↓reduceIte]
  cases hl : lines.next target with
  | none =>
    apply eq_of_reads
    · intro line
      by_cases hn : line = lines.newLine home text <;> simp [splice, make, grow, setLast, hn]
    · intro line
      by_cases hn : line = lines.newLine home text <;> simp [splice, make, grow, setLast, hn]
    · intro other
      by_cases ho : other = home <;> simp [splice, make, grow, setLast, ho]
  | some following =>
    apply eq_of_reads
    · intro line
      by_cases hn : line = lines.newLine home text <;> simp [splice, make, grow, hn]
    · intro line
      by_cases hn : line = lines.newLine home text <;> simp [splice, make, grow, hn]
    · intro other
      by_cases ho : other = home <;> simp [splice, make, grow, ho]

theorem putBefore_eq_splice (ht : target ≠ lines.newLine home text) :
    lines.putBefore home target text =
      lines.splice home (lines.prev target) text (some target) := by
  have hprev : (lines.make home text).prev target = lines.prev target := by
    simp [make, ht]
  simp only [putBefore, hprev, setNext_prev, setPrev_prev, ht, ↓reduceIte]
  cases hl : lines.prev target with
  | none =>
    apply eq_of_reads
    · intro line
      by_cases hn : line = lines.newLine home text <;> simp [splice, make, grow, setFirst, hn]
    · intro line
      by_cases hn : line = lines.newLine home text <;> simp [splice, make, grow, setFirst, hn]
    · intro other
      by_cases ho : other = home <;> simp [splice, make, grow, setFirst, ho]
  | some preceding =>
    apply eq_of_reads
    · intro line
      by_cases hn : line = lines.newLine home text <;> simp [splice, make, grow, hn]
    · intro line
      by_cases hn : line = lines.newLine home text <;> simp [splice, make, grow, hn]
    · intro other
      by_cases ho : other = home <;> simp [splice, make, grow, ho]

/-- The links of a chain run through the lines of a buffer, forwards and backwards. -/
structure Holds (lines : LinkedLines) (home : Nat) (buffer : Buffer) : Prop where
  path : (lines.chain home).path = buffer.path
  linked : Linked (lines.ahead home) (lines.behind home) (ring buffer.lines)
  size : (lines.chain home).size = buffer.lines.length
  nextSerial : (lines.chain home).nextSerial = buffer.nextSerial
  bound : buffer.lines.length = buffer.nextSerial
  own : buffer.home = home
  intact : buffer.Intact

variable {buffer : Buffer}

theorem empty_holds (paths : Nat → Option Path) (home : Nat) :
    (empty paths).Holds home (Buffer.empty home (paths home)) where
  path := rfl
  linked := ⟨rfl, rfl, trivial⟩
  size := rfl
  nextSerial := rfl
  bound := rfl
  own := rfl
  intact := Buffer.empty_intact home (paths home)

theorem Holds.newLine (h : lines.Holds home buffer) (text : String) :
    lines.newLine home text = buffer.newLine text := by
  rw [LinkedLines.newLine, Buffer.newLine, h.nextSerial, h.own]

theorem Holds.home_eq (h : lines.Holds home buffer) (hl : line ∈ buffer.lines) :
    line.home = home :=
  (h.intact.home line hl).trans h.own

theorem Holds.ne_newLine (h : lines.Holds home buffer) (hl : line ∈ buffer.lines) (text : String) :
    line ≠ lines.newLine home text := by
  rintro rfl
  rw [h.newLine] at hl
  exact h.intact.newLine_notMem text hl

theorem Holds.insertAt_lines (h : lines.Holds home buffer) (hl : buffer.lines = xs ++ ys)
    (text : String) :
    (buffer.insertAt xs.length text).lines = xs ++ lines.newLine home text :: ys := by
  rw [h.newLine, ← Buffer.insertIdx_length_append, ← hl]
  rfl

/-- Between the lines on either side of a place, a new line can be put there. -/
theorem Holds.splice (h : lines.Holds home buffer) (hl : buffer.lines = xs ++ ys) (text : String) :
    (lines.splice home xs.getLast? text ys.head?).Holds home (buffer.insertAt xs.length text) := by
  have hput := h.insertAt_lines hl text
  have hlength : (buffer.insertAt xs.length text).lines.length = buffer.lines.length + 1 := by
    rw [hput, hl, List.length_append, List.length_append, List.length_cons, Nat.add_assoc]
  refine ⟨?_, ?_, ?_, ?_, ?_, h.own, h.intact.insertAt _ text⟩
  · exact (by simp [LinkedLines.splice] : _ = (lines.chain home).path).trans h.path
  · obtain ⟨front, back, hring, hcut, hleft, hright⟩ := ring_cut (hl ▸ h.intact.nodup)
    have hnew : some (lines.newLine home text) ∉ ring (xs ++ ys) := by
      intro hm
      exact h.ne_newLine (hl ▸ mem_ring hm _ rfl) text rfl
    have hlinked := h.linked
    rw [hring] at hnew
    rw [hl, hring] at hlinked
    rw [hput, hcut]
    simp only [List.mem_append, List.mem_cons, not_or] at hnew
    apply hlinked.splice
    · rw [splice_ahead, if_pos rfl]
    · rw [splice_behind, if_neg hnew.2.2.1, if_pos rfl]
    · rw [splice_ahead, if_neg hnew.2.1, if_pos rfl]
    · rw [splice_behind, if_pos rfl]
    · intro u hu
      rw [splice_ahead, if_neg (ne_of_mem_of_not_mem hu hleft), if_neg]
      rintro rfl
      rcases List.mem_append.1 hu with hu | hu
      · exact hnew.1 hu
      · exact not_or.2 hnew.2.2 (List.mem_cons.1 (List.dropLast_subset _ hu))
    · intro u hu
      rw [splice_behind, if_neg (ne_of_mem_of_not_mem hu hright), if_neg]
      rintro rfl
      rcases List.mem_append.1 hu with hu | hu
      · have hm := List.mem_of_mem_tail hu
        rw [List.mem_append, List.mem_singleton] at hm
        exact hm.elim hnew.1 hnew.2.1
      · exact hnew.2.2.2 hu
  · rw [hlength, ← h.size]
    simp [LinkedLines.splice]
  · change _ = buffer.nextSerial + 1
    simp [LinkedLines.splice, h.nextSerial]
  · rw [hlength, h.bound]
    rfl

theorem Holds.splice_other {neighbour : Buffer} (h : lines.Holds home buffer)
    (ho : lines.Holds other neighbour) (hne : other ≠ home)
    (hl : ∀ line, left = some line → line ∈ buffer.lines)
    (hr : ∀ line, right = some line → line ∈ buffer.lines) (text : String) :
    (lines.splice home left text right).Holds other neighbour := by
  have hchain : (lines.splice home left text right).chain other = lines.chain other :=
    if_neg hne
  have hfar : ∀ line ∈ neighbour.lines, line ∉ buffer.lines ∧ line ≠ lines.newLine home text := by
    intro line hline
    have hhome := ho.home_eq hline
    refine ⟨fun hm => hne (hhome.symm.trans (h.home_eq hm)), ?_⟩
    rintro rfl
    exact hne hhome.symm
  refine ⟨hchain ▸ ho.path, ho.linked.congr ?_ ?_, hchain ▸ ho.size, hchain ▸ ho.nextSerial,
    ho.bound, ho.own, ho.intact⟩
  · intro u hu
    cases u with
    | none => rw [ahead, hchain, ahead]
    | some line =>
      obtain ⟨hm, hn⟩ := hfar line (mem_ring (List.dropLast_subset _ hu) line rfl)
      rw [ahead, LinkedLines.splice]
      exact (if_neg fun he => hm (hl line he.symm)).trans (if_neg hn)
  · intro u hu
    cases u with
    | none => rw [behind, hchain, behind]
    | some line =>
      obtain ⟨hm, hn⟩ := hfar line (mem_ring (List.mem_of_mem_tail hu) line rfl)
      rw [behind, LinkedLines.splice]
      exact (if_neg fun he => hm (hr line he.symm)).trans (if_neg hn)

theorem Holds.neighbours (h : lines.Holds home buffer) (hl : buffer.lines = xs ++ target :: ys) :
    lines.next target = ys.head? ∧ lines.prev target = xs.getLast? := by
  have hlinked := h.linked
  obtain ⟨front, hf⟩ := ring_cons_eq xs
  obtain ⟨back, hb⟩ := ring_concat_eq ys
  rw [hl, ring, List.map_append, ← List.cons_append, hf, List.map_cons, List.append_assoc,
    List.cons_append, hb, List.append_assoc, List.singleton_append, linked_append] at hlinked
  obtain ⟨-, -, hprev, hnext, -⟩ := hlinked
  exact ⟨hnext, hprev⟩

theorem Holds.last (h : lines.Holds home buffer) :
    (lines.chain home).last = buffer.lines.getLast? := by
  have hlinked := h.linked
  obtain ⟨front, hf⟩ := ring_cons_eq buffer.lines
  rw [ring, hf, List.append_assoc, List.singleton_append, linked_append] at hlinked
  obtain ⟨-, -, hlast, -⟩ := hlinked
  exact hlast

theorem Holds.walks (h : lines.Holds home buffer) (hl : buffer.lines = xs ++ ys) :
    Walks lines.next ys.head? ys := by
  have hlinked := h.linked
  obtain ⟨front, hf⟩ := ring_cons_eq xs
  obtain ⟨back, hb⟩ := ring_concat_eq ys
  rw [hl, ring, List.map_append, ← List.cons_append, hf, List.append_assoc, hb, List.append_assoc,
    List.singleton_append, linked_append] at hlinked
  obtain ⟨-, hahead, hbehind, hrest⟩ := hlinked
  have hring : Linked (lines.ahead home) (lines.behind home) (xs.getLast? :: ys.head? :: back) :=
    ⟨hahead, hbehind, hrest⟩
  rw [← hb] at hring
  rw [← hahead]
  exact hring.walks

theorem Holds.walks_first (h : lines.Holds home buffer) :
    Walks lines.next (lines.chain home).first buffer.lines :=
  h.linked.walks

theorem Holds.walks_last (h : lines.Holds home buffer) :
    Walks lines.prev (lines.chain home).last buffer.lines.reverse := by
  have hlinked := h.linked.reverse
  rw [ring_reverse] at hlinked
  exact hlinked.walks

theorem Holds.nodes_eq (h : lines.Holds home buffer) : lines.nodes home = buffer.lines :=
  h.walks_first.follow (Nat.le_of_eq (h.bound.trans h.nextSerial.symm))

theorem Holds.reversed_eq (h : lines.Holds home buffer) :
    lines.reversed home = buffer.lines.reverse := by
  apply h.walks_last.follow
  exact Nat.le_of_eq (List.length_reverse.trans (h.bound.trans h.nextSerial.symm))

theorem Holds.range_eq (h : lines.Holds home buffer) (hl : buffer.lines = xs ++ target :: ys)
    (last : Line) :
    lines.range home target last = .ok (takeThrough (· == last) (target :: ys)) := by
  have hm : target ∈ buffer.lines := hl ▸ List.mem_append_right xs List.mem_cons_self
  have hlength : (target :: ys).length ≤ (lines.chain home).nextSerial := by
    rw [h.nextSerial, ← h.bound, hl, List.length_append]
    exact Nat.le_add_left _ _
  rw [range, checkOwned, if_pos (h.home_eq hm)]
  exact congrArg (fun walked => Except.ok (takeThrough _ walked)) ((h.walks hl).follow hlength)

end LinkedLines

end MethodMarkers
