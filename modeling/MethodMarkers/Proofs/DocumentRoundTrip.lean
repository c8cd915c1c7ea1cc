import MethodMarkers.Proofs.DocumentAssembly
import MethodMarkers.Proofs.StatementReading

namespace MethodMarkers.Toml
open Text

variable {table : Table} {sections : List (String × Table)}

/-- Tables of texts and lists of texts under headers of one name each. -/
structure Sectioned (sections : List (String × Table)) : Prop where
  distinct : Distinct sections
  keys : ∀ part ∈ sections, Distinct part.2
  flat : ∀ part ∈ sections, ∀ entry ∈ part.2, entry.2.IsFlat

theorem linesOf?_spells (h : ∀ entry ∈ table, entry.2.IsFlat) :
    ∃ text, linesOf? table = some text ∧ Spells text (pairsOf table) := by
  induction table with
  | nil => exact ⟨[], rfl, .nil⟩
  | cons entry table ih =>
    obtain ⟨name, value⟩ := entry
    rw [List.forall_mem_cons] at h
    obtain ⟨line, hd, hs⟩ := spells_pair name h.1
    obtain ⟨text, hl, ht⟩ := ih h.2
    refine ⟨pairText name line ++ ['\n'] ++ text, ?_, hs.append ht⟩
    rw [linesOf?, h.1.hasHeaders_eq, hd, hl, List.append_assoc]
    rfl

theorem sectionsOf?_flat (h : ∀ entry ∈ table, entry.2.IsFlat) (key : Key)
    (lines preceded followsTable : Bool) :
    sectionsOf? key lines preceded followsTable table = some [] := by
  induction table generalizing preceded with
  | nil => rw [sectionsOf?]
  | cons entry table ih =>
    obtain ⟨name, value⟩ := entry
    rw [List.forall_mem_cons] at h
    obtain ⟨hvalue, hrest⟩ := h
    have hheaders := hvalue.hasHeaders_eq
    cases hvalue with
    | text text =>
      rw [sectionsOf?]
      · exact ih hrest true
      · rintro _ _ ⟨⟩
      · rintro _ _ ⟨⟩
    | texts texts =>
      have hitems : Value.areTables (texts.map .text) = false := hheaders
      change sectionsOf? key lines preceded followsTable
        ((name, .list (texts.map .text)) :: table) = _
      rw [sectionsOf?, hitems]
      exact ih hrest true

theorem tableHeader_eq (h : ∀ entry ∈ table, entry.2.IsFlat) (key : Key) :
    tableHeader key table = '[' :: keyText key ++ [']', '\n'] := by
  have hlines : (table.isEmpty || hasLines table) = true := by
    cases table with
    | nil => rfl
    | cons entry table =>
      rw [hasLines, List.any_cons, (h entry List.mem_cons_self).hasHeaders_eq]
      rfl
  rw [tableHeader, hlines, if_pos rfl]

theorem sectionsOf?_spells (h : ∀ part ∈ sections, ∀ entry ∈ part.2, entry.2.IsFlat)
    (preceded followsTable : Bool) :
    ∃ text, sectionsOf? [] false preceded followsTable (ofSections sections) = some text ∧
      Spells text (statementsOf sections) := by
  induction sections generalizing preceded followsTable with
  | nil =>
    refine ⟨[], ?_, .nil⟩
    rw [ofSections, List.map_nil, sectionsOf?]
  | cons part sections ih =>
    obtain ⟨name, table⟩ := part
    rw [List.forall_mem_cons] at h
    obtain ⟨lines, hl, hlines⟩ := linesOf?_spells h.1
    obtain ⟨rest, hr, hrest⟩ := ih h.2 true true
    have hblank : Spells (blankLineIf followsTable) [] := by
      cases followsTable with
      | false => exact .nil
      | true => exact .blank
    refine ⟨_, ?_, ((hblank.append (spells_header name)).append hlines).append hrest⟩
    rw [ofSections] at hr
    rw [ofSections, List.map_cons, sectionsOf?, sectionsOf?_flat h.1, hl, hr]
    simp only [bind, Option.bind, pure, tableHeader_eq h.1, List.nil_append, List.append_nil,
      Bool.false_or]

theorem linesOf?_ofSections (sections : List (String × Table)) :
    linesOf? (ofSections sections) = some [] := by
  induction sections with
  | nil => rfl
  | cons part sections ih =>
    rw [ofSections, List.map_cons, linesOf?]
    exact ih

theorem print?_spells (h : ∀ part ∈ sections, ∀ entry ∈ part.2, entry.2.IsFlat) :
    ∃ text, print? (ofSections sections) = some (String.ofList text) ∧
      Spells text (statementsOf sections) := by
  obtain ⟨text, ht, hs⟩ := sectionsOf?_spells h false false
  refine ⟨text, ?_, hs⟩
  have hlines : hasLines (ofSections sections) = false := by
    rw [hasLines, ofSections, List.any_map, List.any_eq_false]
    exact fun part _ => nofun
  rw [print?, hlines, ht, linesOf?_ofSections]
  rfl

/-- What is printed is read back as it was. -/
theorem parse_print? (h : Sectioned sections) :
    ∃ text, print? (ofSections sections) = some text ∧ parse text = .ok (ofSections sections) ∧
      ∀ c ∈ text.toList, isPlain c = true ∨ c = '\n' := by
  obtain ⟨text, hp, hs⟩ := print?_spells h.flat
  refine ⟨String.ofList text, hp, ?_, ?_⟩
  · rw [parse, String.toList_ofList, hs.statements_eq, tableOf_statementsOf h.distinct h.keys]
  · rw [String.toList_ofList]
    exact hs.isPlain_or

theorem dropMissing_ofSections (sections : List (String × Table)) :
    (ofSections sections).dropMissing =
      ofSections (sections.map fun part => (part.1, part.2.filter (!·.2.isMissing))) := by
  have hall : (ofSections sections).filter (!·.2.isMissing) = ofSections sections := by
    rw [List.filter_eq_self, ofSections, List.forall_mem_map]
    exact fun part _ => rfl
  rw [Table.dropMissing, hall, ofSections, ofSections, List.map_map, List.map_map]
  rfl

theorem Distinct.lookup_eq {α : Type} {entries : List (String × α)} {entry : String × α}
    (h : Distinct entries) (hm : entry ∈ entries) : entries.lookup entry.1 = some entry.2 := by
  induction entries with
  | nil => cases hm
  | cons first entries ih =>
    rw [Distinct, List.map_cons, List.nodup_cons] at h
    rcases List.mem_cons.1 hm with rfl | hm
    · exact List.lookup_cons_self
    · have hne : (entry.1 == first.1) = false :=
        beq_false_of_ne fun he => h.1 (he ▸ List.mem_map_of_mem hm)
      rw [List.lookup_cons, hne]
      exact ih h.2 hm

theorem lookup_ofSections {part : String × Table} (h : Distinct sections) (hm : part ∈ sections) :
    (ofSections sections).lookup part.1 = some (.table part.2) := by
  have hentry : (part.1, Value.table part.2) ∈ ofSections sections := List.mem_map_of_mem hm
  refine Distinct.lookup_eq ?_ hentry
  rw [Distinct, ofSections, List.map_map]
  exact h

theorem Distinct.filter {α : Type} {entries : List (String × α)} (h : Distinct entries)
    (keep : String × α → Bool) : Distinct (entries.filter keep) :=
  h.sublist (List.filter_sublist.map Prod.fst)

theorem lookup_eq_none {α : Type} {entries : List (String × α)} {key : String}
    (h : key ∉ entries.map Prod.fst) : entries.lookup key = none := by
  rw [List.lookup_eq_none_iff]
  exact fun entry hm => bne_iff_ne.2 fun he => h (he ▸ List.mem_map_of_mem hm)

theorem Distinct.get_filter (h : Distinct table) (key : String) :
    Table.get (table.filter (!·.2.isMissing)) key = table.get key := by
  unfold Table.get
  induction table with
  | nil => rfl
  | cons first table ih =>
    obtain ⟨name, value⟩ := first
    rw [Distinct, List.map_cons, List.nodup_cons] at h
    rw [List.filter_cons, List.lookup_cons]
    by_cases hkey : key = name
    · subst hkey
      rw [beq_self_eq_true]
      cases hmissing : value.isMissing with
      | true =>
        rw [Value.isMissing_iff.1 hmissing, lookup_eq_none]
        · rfl
        · exact fun hm => h.1 ((List.filter_sublist.map Prod.fst).subset hm)
      | false =>
        rw [Bool.not_false, if_pos rfl, List.lookup_cons_self]
    · have hne : (key == name) = false := beq_false_of_ne hkey
      rw [hne, ← ih h.2]
      split
      · rw [List.lookup_cons, hne]
      · rfl

/-- Without its missing values a table is printed and read back, and every key has the value that it
had. -/
theorem parse_print?_dropMissing (hd : Distinct sections)
    (hk : ∀ part ∈ sections, Distinct part.2)
    (hv : ∀ part ∈ sections, ∀ entry ∈ part.2, entry.2 = .missing ∨ entry.2.IsFlat) :
    ∃ text read, print? (ofSections sections).dropMissing = some text ∧ parse text = .ok read ∧
      ∀ part ∈ sections, ∃ entries, read.get part.1 = .table entries ∧
        ∀ key, Table.get entries key = Table.get part.2 key := by
  have hs : Sectioned (sections.map fun part => (part.1, part.2.filter (!·.2.isMissing))) := by
    refine ⟨?_, List.forall_mem_map.2 fun part hm => (hk part hm).filter _,
      List.forall_mem_map.2 fun part hm entry he => ?_⟩
    · rw [Distinct, List.map_map]
      exact hd
    · obtain ⟨he, hvalue⟩ := List.mem_filter.1 he
      refine (hv part hm entry he).resolve_left fun hmissing => ?_
      rw [hmissing] at hvalue
      cases hvalue
  obtain ⟨text, hp, hr, -⟩ := parse_print? hs
  refine ⟨text, _, dropMissing_ofSections sections ▸ hp, hr, fun part hm =>
    ⟨part.2.filter (!·.2.isMissing), ?_, (hk part hm).get_filter⟩⟩
  rw [Table.get, lookup_ofSections hs.distinct (List.mem_map_of_mem hm)]
  rfl

end MethodMarkers.Toml
