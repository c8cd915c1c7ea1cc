import Mathlib.Data.List.Nodup
import MethodMarkers.Proofs.TreeWriting
import MethodMarkers.Toml.Document

namespace MethodMarkers.Toml

theorem eraseDups_of_nodup {α : Type} [BEq α] [LawfulBEq α] {as : List α} (h : as.Nodup) :
    as.eraseDups = as := by
  induction as with
  | nil => rfl
  | cons a as ih =>
    rw [List.nodup_cons] at h
    have hfilter : as.filter (fun b => (b == a) = false) = as := by
      rw [List.filter_eq_self]
      exact fun b hb => decide_eq_true (beq_false_of_ne fun he => h.1 (he ▸ hb))
    rw [List.eraseDups, List.eraseDupsBy_cons, hfilter]
    exact congrArg (a :: ·) (ih h.2)

variable {entries top : Entries} {name key : String} {node : Node} {fuel : Nat} {table : Table}
  {value : Value}

def Distinct {α : Type} (entries : List (String × α)) : Prop :=
  (entries.map Prod.fst).Nodup

namespace Distinct

variable {α : Type} {front back : List (String × α)} {a : α}

theorem of_append (h : Distinct (front ++ back)) : Distinct front := by
  rw [Distinct, List.map_append] at h
  exact h.of_append_left

theorem concat_iff : Distinct (front ++ [(name, a)]) ↔
    Distinct front ∧ name ∉ front.map Prod.fst := by
  rw [Distinct, List.map_append, List.map_singleton, List.nodup_append']
  simp only [List.nodup_singleton, true_and, List.disjoint_singleton, Distinct]

end Distinct

namespace Entries

theorem parts_of_notMem (hn : name ∉ entries.map Prod.fst) : entries.parts name = [] := by
  rw [parts, List.map_eq_nil_iff, List.filter_eq_nil_iff]
  exact fun entry he hname => hn (of_decide_eq_true hname ▸ List.mem_map_of_mem he)

theorem parts_of_mem (hd : Distinct entries) (hm : (name, node) ∈ entries) :
    entries.parts name = [node] := by
  induction entries with
  | nil => cases hm
  | cons entry entries ih =>
    obtain ⟨hn, hd⟩ := List.nodup_cons.1 hd
    rcases List.mem_cons.1 hm with rfl | hm
    · have hrest : parts entries name = [] := parts_of_notMem hn
      rw [parts, List.filter_cons_of_pos (by simp), List.map_cons]
      exact congrArg (node :: ·) hrest
    · have hother : entry.1 ≠ name := fun he => hn (he ▸ List.mem_map_of_mem hm)
      rw [parts, List.filter_cons_of_neg (by simp [hother])]
      exact ih hd hm

theorem isScattered_eq_false (hd : Distinct entries) (name : String) :
    entries.isScattered name = false := by
  by_cases hn : name ∈ entries.map Prod.fst
  · obtain ⟨⟨other, node⟩, hm, rfl⟩ := List.mem_map.1 hn
    rw [isScattered, parts_of_mem hd hm]
    rfl
  · rw [isScattered, parts_of_notMem hn]
    rfl

theorem names_eq (hd : Distinct entries) : entries.names = entries.map Prod.fst :=
  eraseDups_of_nodup hd

theorem checkName_eq_ok (hd : Distinct entries) (fuel : Nat) (name : String) :
    checkName fuel name entries = .ok () := by
  cases fuel with
  | zero => rw [checkName]
  | succ fuel =>
    rw [checkName, isScattered_eq_false hd]
    rfl

theorem checkUse_eq_ok (hd : Distinct entries) (fuel : Nat) (name : String) :
    checkUse fuel name entries = .ok () := by
  cases fuel with
  | zero => rw [checkUse]
  | succ fuel =>
    rw [checkUse, isScattered_eq_false hd]
    rfl

theorem check_eq_ok (hd : Distinct entries) (fuel : Nat) : check fuel entries = .ok () := by
  cases fuel with
  | zero => rw [check]
  | succ fuel =>
    rw [check]
    induction entries.names with
    | nil => rfl
    | cons name names ih =>
      rw [List.forM_eq_forM, List.forM_cons, checkName_eq_ok hd]
      exact ih

theorem add_new (hd : Distinct entries) (hn : name ∉ entries.map Prod.fst) (fuel : Nat)
    (checked : Bool) (node : Node) :
    add (fuel + 1) checked name node entries = .ok (entries ++ [(name, node)]) := by
  have hlast : entries.lastPart? name = none := by
    rw [lastPart?, parts_of_notMem hn]
    rfl
  rw [add, hlast, push, hlast]
  cases checked with
  | false => rfl
  | true =>
    simp only [bind, Except.bind, checkName_eq_ok (Distinct.concat_iff.2 ⟨hd, hn⟩)]
    rfl

theorem valuesOf_map {α : Type} {items : List (String × α)} (fuel : Nat) (node : α → Node)
    (value : α → Value) (hd : Distinct items)
    (h : ∀ item ∈ items, valueOf fuel (node item.2) = .ok (value item.2)) :
    valuesOf (fuel + 1) (items.map fun item => (item.1, node item.2)) =
      .ok (items.map fun item => (item.1, value item.2)) := by
  have hnames : (items.map fun item => (item.1, node item.2)).map Prod.fst =
      items.map Prod.fst := by
    rw [List.map_map]
    rfl
  have hnodes : Distinct (items.map fun item => (item.1, node item.2)) := by
    rw [Distinct, hnames]
    exact hd
  rw [valuesOf, names_eq hnodes, hnames, List.mapM_map]
  refine mapM_eq_ok fun item hi => ?_
  have hpart := parts_of_mem hnodes (List.mem_map_of_mem hi)
  simp only [Function.comp, isScattered_eq_false hnodes, lastPart?, hpart, Bool.false_eq_true,
    if_false, List.getLast?_singleton, Option.getD_some, h item hi]
  rfl

end Entries

def Frame.ofName (name : String) (entries : Entries) : Frame where
  key := [name]
  names := [name]
  isItem := false
  origin := .implied
  earlier := []
  entries := entries

/-- An assembly that has made some entries once its frames are finished. -/
structure Assembly.Makes (assembly : Assembly) (made : Entries) : Prop where
  finish_eq : ∀ stays : Frame → Bool, (∀ frame ∈ assembly.frames, stays frame = false) →
    assembly.finishUntil stays = .ok ⟨made, []⟩
  shallow : ∀ frame ∈ assembly.frames, frame.isItem = false ∧ frame.key.length = 1

def leaves (table : Table) : Entries :=
  table.map fun entry => (entry.1, .leaf entry.2)

def pairsOf (table : Table) : List Statement :=
  table.map fun entry => .pair [entry.1] entry.2

theorem leaves_fst (table : Table) : (leaves table).map Prod.fst = table.map Prod.fst := by
  rw [leaves, List.map_map]
  rfl

namespace Assembly

variable {assembly : Assembly} {made : Entries}

theorem makes_top (top : Entries) : Makes ⟨top, []⟩ top where
  finish_eq _ _ := rfl
  shallow := nofun

theorem makes_frame (ht : Distinct top) (hn : name ∉ top.map Prod.fst) (hd : Distinct entries) :
    Makes ⟨top, [.ofName name entries]⟩ (top ++ [(name, .table .header entries)]) where
  finish_eq stays hs := by
    have hchecked : (Frame.ofName name entries).checked = .ok (.ofName name entries) := by
      rw [Frame.checked, Frame.ofName, Entries.check_eq_ok hd]
    have hadd : Entries.add Entries.enough true name (.table .header entries) top =
        .ok (top ++ [(name, .table .header entries)]) :=
      Entries.add_new ht hn (10 * longestKey - 1) true _
    change finish stays top (.ofName name entries) [] = _
    rw [finish, hs _ (List.mem_singleton_self _), hchecked]
    simp only [Bool.false_eq_true, if_false, bind, Except.bind, Frame.entry, Frame.ofName,
      Frame.node, hadd]
    rfl
  shallow frame hf := by
    cases List.mem_singleton.1 hf
    exact ⟨rfl, rfl⟩

theorem add_header (h : assembly.Makes made) (name : String) :
    assembly.add (.header [name]) = .ok ⟨made, [.ofName name []]⟩ := by
  have hstays : ∀ frame ∈ assembly.frames,
      (frame.encloses [name] || frame.isRepeatedBy false [name]) = false := by
    intro frame hf
    obtain ⟨hitem, hlength⟩ := h.shallow frame hf
    rw [Frame.encloses, Frame.isRepeatedBy, hitem, hlength]
    simp
  rw [add, openTable, h.finish_eq _ hstays]
  rfl

theorem add_pair (hd : Distinct entries) (hn : key ∉ entries.map Prod.fst) (value : Value) :
    add ⟨top, [.ofName name entries]⟩ (.pair [key] value) =
      .ok ⟨top, [.ofName name (entries ++ [(key, .leaf value)])]⟩ := by
  have hdefine : Entries.define false value [key] entries =
      .ok (entries ++ [(key, .leaf value)]) :=
    Entries.add_new hd hn (10 * longestKey - 1) false _
  have huse := Entries.checkUse_eq_ok (Distinct.concat_iff (a := Node.leaf value).2 ⟨hd, hn⟩)
    Entries.enough key
  have htake : (Frame.ofName name entries).take key (.ok (entries ++ [(key, .leaf value)])) =
      .ok (.ofName name (entries ++ [(key, .leaf value)])) := by
    simp only [Frame.take, bind, Except.bind, huse]
    rfl
  have hframe : (Frame.ofName name entries).entries = entries := rfl
  simp only [add, List.headD_cons, hframe, hdefine, htake, bind, Except.bind]
  rfl

theorem foldlM_pairs (hd : Distinct (entries ++ leaves table)) :
    (pairsOf table).foldlM add ⟨top, [.ofName name entries]⟩ =
      .ok ⟨top, [.ofName name (entries ++ leaves table)]⟩ := by
  induction table generalizing entries with
  | nil =>
    rw [leaves, List.map_nil, List.append_nil]
    rfl
  | cons entry table ih =>
    have hsplit : entries ++ leaves (entry :: table) =
        (entries ++ [(entry.1, .leaf entry.2)]) ++ leaves table := by
      rw [List.append_assoc]
      rfl
    rw [hsplit] at hd ⊢
    obtain ⟨hfront, hn⟩ := Distinct.concat_iff.1 hd.of_append
    rw [pairsOf, List.map_cons, List.foldlM_cons, add_pair hfront hn]
    exact ih hd

end Assembly

open Assembly

/-- A header for each of some tables, and its pairs behind it. -/
def statementsOf (sections : List (String × Table)) : List Statement :=
  sections.flatMap fun part => .header [part.1] :: pairsOf part.2

def nodesOf (sections : List (String × Table)) : Entries :=
  sections.map fun part => (part.1, .table .header (leaves part.2))

def ofSections (sections : List (String × Table)) : Table :=
  sections.map fun part => (part.1, .table part.2)

variable {sections : List (String × Table)} {assembly : Assembly} {made : Entries}

theorem foldlM_sections (h : assembly.Makes made) (hd : Distinct (made ++ nodesOf sections))
    (hs : ∀ part ∈ sections, Distinct part.2) :
    ∃ last : Assembly, (statementsOf sections).foldlM add assembly = .ok last ∧
      last.Makes (made ++ nodesOf sections) := by
  -- The frame of a table is finished only by the header of the next, so what is made so far is said
  -- of the assembly as if it were finished.
  induction sections generalizing assembly made with
  | nil =>
    rw [nodesOf, List.map_nil, List.append_nil]
    exact ⟨assembly, rfl, h⟩
  | cons part sections ih =>
    rw [List.forall_mem_cons] at hs
    have hsplit : made ++ nodesOf (part :: sections) =
        (made ++ [(part.1, .table .header (leaves part.2))]) ++ nodesOf sections := by
      rw [List.append_assoc]
      rfl
    rw [hsplit] at hd ⊢
    obtain ⟨hfront, hn⟩ := Distinct.concat_iff.1 hd.of_append
    have hleaves : Distinct (leaves part.2) := by
      rw [Distinct, leaves_fst]
      exact hs.1
    have hpairs : (pairsOf part.2).foldlM add ⟨made, [.ofName part.1 []]⟩ =
        .ok ⟨made, [.ofName part.1 (leaves part.2)]⟩ :=
      foldlM_pairs hleaves
    obtain ⟨last, hl, hm⟩ := ih (makes_frame hfront hn hleaves) hd hs.2
    refine ⟨last, ?_, hm⟩
    rw [statementsOf, List.flatMap_cons, List.cons_append, List.foldlM_cons, add_header h,
      ← hl]
    change ((pairsOf part.2 ++ statementsOf sections).foldlM add _) = _
    rw [List.foldlM_append, hpairs]
    rfl

/-- Headers with distinct names and pairs with distinct keys make the tables that they spell. -/
theorem tableOf_statementsOf (hd : Distinct sections) (hs : ∀ part ∈ sections, Distinct part.2) :
    tableOf (statementsOf sections) = .ok (ofSections sections) := by
  have hnodes : Distinct ([] ++ nodesOf sections) := by
    rw [Distinct, List.nil_append, nodesOf, List.map_map]
    exact hd
  obtain ⟨last, hl, hm⟩ := foldlM_sections (makes_top []) hnodes hs
  have hvalues : Entries.values (nodesOf sections) = .ok (ofSections sections) := by
    refine Entries.valuesOf_map (10 * longestKey - 1) (fun table => .table .header (leaves table))
      .table hd fun part hp => ?_
    have hleaves : Entries.valuesOf (10 * longestKey - 2) (leaves part.2) = .ok part.2 :=
      (Entries.valuesOf_map (10 * longestKey - 3) .leaf id (hs part hp) fun _ _ => rfl).trans
        (congrArg Except.ok (List.map_id _))
    change Value.table <$> Entries.valuesOf (10 * longestKey - 2) (leaves part.2) = _
    rw [hleaves]
    rfl
  rw [tableOf, hl]
  simp only [bind, Except.bind, hm.finish_eq _ fun _ _ => rfl, List.nil_append, hvalues]
  rfl

end MethodMarkers.Toml
