import MethodMarkers.Proofs.MarkingOrder
import MethodMarkers.Proofs.MarkingSafety
import MethodMarkers.Proofs.PartSearch
import Mathlib.Algebra.GroupWithZero.Nat

namespace MethodMarkers
open Text

section Growth

variable {buffer middle inserted : Buffer} {line first last : Line} {text : String} {m n : Nat}

structure Buffer.Grows (buffer : Buffer) (n : Nat) (inserted : Buffer) : Prop where
  sublist : buffer.lines.Sublist inserted.lines
  length_eq : inserted.lines.length = buffer.lines.length + n

theorem Buffer.Grows.refl (buffer : Buffer) : buffer.Grows 0 buffer :=
  ⟨List.Sublist.refl buffer.lines, rfl⟩

theorem Buffer.Grows.trans (h : buffer.Grows m middle) (h' : middle.Grows n inserted) :
    buffer.Grows (m + n) inserted := by
  constructor
  · exact h.sublist.trans h'.sublist
  · rw [h'.length_eq, h.length_eq, Nat.add_assoc]

theorem Buffer.grows_insertAt {position : Nat} (hp : position ≤ buffer.lines.length)
    (text : String) : buffer.Grows 1 (buffer.insertAt position text) := by
  constructor
  · exact List.sublist_insertIdx buffer.lines position _
  · exact List.length_insertIdx_of_le_length hp _

theorem Buffer.grows_insertBefore (h : buffer.insertBefore line text = .ok inserted) :
    buffer.Grows 1 inserted := by
  rw [insertBefore, owning] at h
  split at h
  · cases h
    apply grows_insertAt
    exact List.idxOf_le_length
  · cases h

theorem Buffer.grows_insertAfter (hm : line ∈ buffer.lines)
    (h : buffer.insertAfter line text = .ok inserted) : buffer.Grows 1 inserted := by
  rw [insertAfter, owning] at h
  split at h
  · cases h
    apply grows_insertAt
    exact List.idxOf_lt_length_iff.2 hm
  · cases h

namespace MethodBlock

variable {method : MethodBlock} {markers : Markers} {iteratorMarkers : List String}
  {label : String} {exits targets : List Line}

theorem grows_insertBeforeEach (h : insertBeforeEach text targets buffer = (.ok (), inserted)) :
    buffer.Grows targets.length inserted := by
  induction targets generalizing buffer with
  | nil =>
    cases h
    exact .refl _
  | cons target targets ih =>
    rw [insertBeforeEach] at h
    split at h
    · next middle hm =>
      rw [List.length_cons, Nat.add_comm]
      exact (Buffer.grows_insertBefore hm).trans (ih h)
    · cases h

theorem grows_insertMarkers (hf : first ∈ buffer.lines)
    (h : insertMarkers markers label first last exits buffer = (.ok (), inserted)) :
    buffer.Grows (2 + exits.length) inserted := by
  rw [insertMarkers] at h
  split at h
  · next begun hb =>
    have hall := (Buffer.grows_insertAfter hf hb).trans (grows_insertBeforeEach h)
    rwa [List.length_cons, Nat.add_comm exits.length, ← Nat.add_assoc] at hall
  · cases h

theorem grows_instrument (ho : ∀ first ∈ method.block.opening, first ∈ buffer.lines)
    (h : (method.instrument markers iteratorMarkers buffer).value = (.ok n, inserted)) :
    buffer.Grows n inserted := by
  rw [instrument] at h
  split at h
  · cases h
  · cases h
  · cases h
  · cases h
    exact .refl _
  · next first last exits _ he _ =>
    obtain ⟨-, hopening, -⟩ := ends_eq_ok_iff.1 he
    dsimp only at h
    split at h
    · cases h
    · next marked hm =>
      cases h
      exact grows_insertMarkers (ho first hopening) hm

end MethodBlock

namespace Instrument

variable {settings : Settings} {numbered : List Line}

theorem grows_markMethod {method : MethodBlock} {outcome : Option MethodOutcome}
    (ho : ∀ first ∈ method.block.opening, first ∈ buffer.lines)
    (h : (markMethod settings numbered buffer method).value = .ok (inserted, outcome)) :
    buffer.Grows (outcome.toList.map MethodOutcome.inserted).sum inserted := by
  rw [markMethod] at h
  split at h
  · cases h
    exact .refl _
  · dsimp only at h
    split at h
    · cases h
    · cases h
    · cases h
      exact .refl _
    · rw [Traced.value_bind] at h
      split at h
      · cases h
      · next n marked hm =>
        cases h
        exact MethodBlock.grows_instrument ho hm

theorem grows_markEach {methods : List MethodBlock} {outcomes : List MethodOutcome}
    (ho : ∀ method ∈ methods, ∀ first ∈ method.block.opening, first ∈ buffer.lines)
    (h : (markEach (markMethod settings numbered) methods buffer).value =
      .ok (inserted, outcomes)) :
    buffer.Grows (outcomes.map MethodOutcome.inserted).sum inserted := by
  induction methods generalizing buffer outcomes with
  | nil =>
    cases h
    exact .refl _
  | cons method methods ih =>
    rw [markEach, Traced.value_bind] at h
    split at h
    · cases h
    · next middle outcome hm =>
      rw [Traced.value_bind] at h
      split at h
      · cases h
      · next last more hmore =>
        cases h
        have hone := grows_markMethod (ho method List.mem_cons_self) hm
        have hrest := ih (fun other hother first hf =>
          hone.sublist.subset (ho other (List.mem_cons_of_mem method hother) first hf)) hmore
        rw [List.map_append, List.sum_append]
        exact hone.trans hrest

end Instrument

end Growth

variable {settings : Settings} {lines : List Line} {texts : List String} {span : Span}
  {method : MethodBlock} {scanner : Scanner} {outline : Outline}

/-- Some line of a body holds one of the statements by which iterators are told. -/
def Settings.IteratorShaped (settings : Settings) (body : List String) : Prop :=
  ∃ text ∈ body, ∃ marker ∈ settings.iteratorMarkers, marker.toList <:+: text.toList

def HoldsReturn (text : String) : Prop :=
  HoldsWord "return".toList text.toList

theorem Span.holdsReturn_iff {text : String} : Span.holdsReturn text = true ↔ HoldsReturn text :=
  containsWord_iff (by decide)

instance : DecidablePred HoldsReturn :=
  fun _ => decidable_of_iff _ Span.holdsReturn_iff

theorem Span.isIterator_iff : span.isIterator settings texts = true ↔
    settings.IteratorShaped (segment texts span.opening span.closing) := by
  simp only [isIterator, Settings.IteratorShaped, List.any_eq_true, containsPart_iff]

/-- An outcome is told by the lines of a file as they were read, and by where the signature, the
opening and the closing line of the method stand among them. -/
structure MethodOutcome.Accounts (outcome : MethodOutcome) (settings : Settings)
    (lines : List Line) (method : MethodBlock) (define opening closing : Nat) : Prop where
  finished : method.block.finished = true
  define_eq : method.block.define = lines[define]?
  opening_eq : method.block.opening = lines[opening]?
  closing_eq : method.block.closing = lines[closing]?
  define_le : define ≤ opening
  opening_le : opening ≤ closing
  closing_lt : closing < lines.length
  name_eq : outcome.name = method.name
  line_eq : outcome.line = define + 1
  text_eq : outcome.text = segment (lines.map Line.text) define closing
  skipped_iff : outcome.status = .skippedIterator ∧ outcome.inserted = 0 ↔
    settings.IteratorShaped (segment (lines.map Line.text) opening closing)
  instrumented : ¬ settings.IteratorShaped (segment (lines.map Line.text) opening closing) →
    outcome.status = .instrumented ∧
      outcome.inserted = 2 + (segment (lines.map Line.text) opening closing).countP (HoldsReturn ·)

theorem MethodBlock.LiesAt.accounts {define first last : Line}
    (hm : method.LiesAt lines span define first last) (hs : span.Lies lines)
    (hn : method.name = span.name) (settings : Settings) :
    (span.outcome settings (lines.map Line.text)).Accounts settings lines method span.define
      span.opening span.closing := by
  have hcount (body : List String) :
      body.countP Span.holdsReturn = body.countP (HoldsReturn ·) := by
    apply List.countP_congr
    intro text _
    rw [Span.holdsReturn_iff, decide_eq_true_iff]
  constructor
  · exact hm.finished
  · rw [hm.define_eq, hm.at_define]
  · rw [hm.opening_eq, hm.at_opening]
  · rw [hm.closing_eq, hm.at_closing]
  · exact hs.define_le
  · exact hs.opening_le
  · exact hs.closing_lt
  · exact hn.symm
  · rfl
  · rfl
  · rw [← Span.isIterator_iff, Span.outcome]
    cases span.isIterator settings (lines.map Line.text) <;> simp
  · intro hi
    rw [← Span.isIterator_iff, Bool.not_eq_true] at hi
    rw [Span.outcome, hi, hcount]
    exact ⟨rfl, rfl⟩

theorem Scanner.Shows.liesAt (hs : scanner.Shows lines outline) (hd : outline.Describes lines) :
    List.Forall₂ (fun method span => span.Lies lines ∧ method.name = span.name ∧
        ∃ define first last, method.LiesAt lines span define first last)
      scanner.finished outline.spans := by
  obtain ⟨hlength, hall⟩ := List.forall₂_iff_get.1 hs.finished
  apply List.forall₂_iff_get.2
  refine ⟨hlength, fun i h₁ h₂ => ?_⟩
  obtain ⟨hl, hc⟩ := hd.placed _ (List.get_mem outline.spans ⟨i, h₂⟩)
  have hb := hall i h₁ h₂
  exact ⟨hl, hb.1, hb.liesAt hl hc⟩

theorem Scanner.Shows.opening_mem (hs : scanner.Shows lines outline)
    (hd : outline.Describes lines) :
    ∀ method ∈ scanner.finished, ∀ first ∈ method.block.opening, first ∈ lines := by
  have hall : List.Forall₂ (fun method (span : Span) =>
      (∀ first ∈ method.block.opening, first ∈ lines) ∧ method.name = span.name)
      scanner.finished outline.spans := by
    apply (hs.liesAt hd).imp
    intro method span h
    obtain ⟨-, hn, define, first, last, hm⟩ := h
    refine ⟨fun other ho => ?_, hn⟩
    rw [hm.opening_eq] at ho
    cases ho
    exact List.mem_of_getElem? hm.at_opening
  exact ((List.forall₂_and_left _ _).1 hall).1

theorem FileResult.inserted_eq_sum (result : FileResult) :
    result.inserted = (result.methods.map MethodOutcome.inserted).sum := by
  rw [inserted, List.sum_eq_foldl, List.foldl_map]

theorem length_markedTexts_ofTexts (settings : Settings) (path : Option Path)
    (texts : List String) :
    let spans := (Outline.ofTexts path texts).spans
    (markedTexts settings ((path.map Path.name).getD "") texts spans).length = texts.length +
      ((spans.map (Span.outcome settings texts)).map MethodOutcome.inserted).sum := by
  obtain ⟨scanner, -, hs, hd⟩ := Scanner.exists_shows path texts
  have hi := Buffer.ofTexts_intact 0 path texts
  have ht : (Buffer.ofTexts 0 path texts).lines.map Line.text = texts :=
    Buffer.ofTexts_texts 0 path texts
  obtain ⟨marked, hm, hmarked⟩ := (hi.marked_nil settings).markEach hi.nodup hd.placed
    hd.spans_apart hs.finished
  have hgrows := Instrument.grows_markEach (hs.opening_mem hd) hm
  have hlength := congrArg List.length hmarked.texts_eq
  rw [Buffer.texts, List.length_map, hgrows.length_eq, ht, ← List.length_map Line.text, ht,
    Buffer.fileName, Buffer.ofTexts_path] at hlength
  exact hlength.symm

theorem Span.inserted_pos_iff (settings : Settings) (texts : List String) (span : Span) :
    0 < (span.outcome settings texts).inserted ↔
      (span.outcome settings texts).status = .instrumented := by
  rw [Span.outcome]
  cases span.isIterator settings texts with
  | true =>
    constructor
    · intro h
      cases h
    · intro h
      cases h
  | false => exact iff_of_true (Nat.lt_of_lt_of_le Nat.two_pos (Nat.le_add_right 2 _)) rfl

theorem sum_inserted_pos_iff (settings : Settings) (texts : List String) (spans : List Span) :
    0 < ((spans.map (Span.outcome settings texts)).map MethodOutcome.inserted).sum ↔
      ∃ outcome ∈ spans.map (Span.outcome settings texts), outcome.status = .instrumented := by
  rw [List.sum_pos_iff_exists_pos_nat]
  simp only [List.mem_map, exists_exists_and_eq_and, Span.inserted_pos_iff]

theorem Instrument.lines_changed_iff {result : FileResult} (settings : Settings)
    (path : Option Path) (texts : List String)
    (h : (Instrument.lines settings path texts).value = .ok result) :
    result.changed = true ↔ ∃ outcome ∈ result.methods, outcome.status = .instrumented := by
  rw [Instrument.lines_value] at h
  cases h
  have hlength := length_markedTexts_ofTexts settings path texts
  dsimp only at hlength ⊢
  rw [← sum_inserted_pos_iff, FileResult.changed, bne_iff_ne]
  constructor
  · intro hne
    have hlt := length_lt_of_markedTexts_ne settings _ texts _ hne
    omega
  · intro hpos heq
    dsimp only at heq
    rw [heq] at hlength
    omega

/-- A run tells of each closed method in turn where it stood and what became of it, by the lines as
they were read, and accounts for every line that it put in. -/
theorem Instrument.lines_accounts (settings : Settings) (path : Option Path)
    (texts : List String) :
    ∃ buffer scanner result, (Scanner.scanTexts path texts).value = (buffer, scanner) ∧
      buffer.texts = texts ∧ buffer.lines.Nodup ∧
      (Instrument.lines settings path texts).value = .ok result ∧ result.before = texts ∧
      List.Forall₂ (fun method outcome => ∃ define opening closing,
          outcome.Accounts settings buffer.lines method define opening closing)
        scanner.finished result.methods ∧
      (result.methods.map MethodOutcome.line).Pairwise (· < ·) ∧
      result.after.length = result.before.length + result.inserted ∧
      (result.changed = true ↔ ∃ outcome ∈ result.methods, outcome.status = .instrumented) := by
  obtain ⟨scanner, hv, hs, hd⟩ := Scanner.exists_shows path texts
  have hi := Buffer.ofTexts_intact 0 path texts
  have ht : (Buffer.ofTexts 0 path texts).lines.map Line.text = texts :=
    Buffer.ofTexts_texts 0 path texts
  have hvalue := Instrument.lines_value settings path texts
  refine ⟨_, scanner, _, hv, ht, hi.nodup, hvalue, rfl, ?_, ?_, ?_, ?_⟩
  · rw [List.forall₂_map_right_iff]
    refine (hs.liesAt hd).imp fun method span h => ?_
    obtain ⟨hl, hn, define, first, last, hm⟩ := h
    have ha := hm.accounts hl hn settings
    rw [ht] at ha
    exact ⟨_, _, _, ha⟩
  · rw [List.map_map, List.pairwise_map]
    refine hd.apart.imp_of_mem fun {a b} ha _ hab => ?_
    have hle := Nat.le_trans (hd.lie a ha).define_le (hd.lie a ha).opening_le
    exact Nat.succ_lt_succ (Nat.lt_of_le_of_lt hle hab)
  · rw [FileResult.inserted_eq_sum]
    exact length_markedTexts_ofTexts settings path texts
  · exact Instrument.lines_changed_iff settings path texts hvalue

end MethodMarkers
