import MethodMarkers.Proofs.LineInstrumentation

namespace MethodMarkers

inductive ScanPhase where
  | idle
  | active
  deriving DecidableEq, Repr

/-- What must not happen in a scan. -/
inductive ScanFault where
  /-- A method is to be followed or finished, and there is none. -/
  | noMethod
  /-- A block is refused its next line, or the walk over its lines. -/
  | refused (fault : BlockFault)
  deriving DecidableEq, Repr

/-- A scan that records its phase beside the method it follows, and so could have the one without
the other. -/
structure GuardedScanner where
  phase : ScanPhase := .idle
  finished : List MethodBlock := []
  active : Option MethodBlock := none
  deriving DecidableEq, Repr

namespace GuardedScanner

def ofScanner (scanner : Scanner) : GuardedScanner :=
  ⟨if scanner.active.isSome then .active else .idle, scanner.finished, scanner.active⟩

def finish (buffer : Buffer) (guarded : GuardedScanner) : Except ScanFault GuardedScanner :=
  match guarded.active with
  | none => .error .noMethod
  | some method =>
    match method.block.text buffer with
    | .error fault => .error (.refused (.foreign fault))
    | .ok _ => .ok ⟨.idle, guarded.finished ++ [method], none⟩

def proceed (buffer : Buffer) (guarded : GuardedScanner) (method : MethodBlock) :
    Except ScanFault GuardedScanner :=
  let next := { guarded with phase := .active, active := some method }
  if method.block.finished then next.finish buffer else .ok next

/-- Takes the next line of the buffer, as a scan does, with every check that it relies on. -/
def push (buffer : Buffer) (guarded : GuardedScanner) (line : Line) :
    Except ScanFault GuardedScanner :=
  match guarded.phase with
  | .idle =>
    match (Signature.ofLine? line.text).value with
    | none => .ok guarded
    | some signature => guarded.proceed buffer ⟨signature.name, (Block.start line).value⟩
  | .active =>
    match guarded.active with
    | none => .error .noMethod
    | some method =>
      match method.block.feed line with
      | none => .error (.refused .notStarted)
      | some block => guarded.proceed buffer { method with block := block.value }

def take (state : Buffer × GuardedScanner) (text : String) :
    Except ScanFault (Buffer × GuardedScanner) :=
  let buffer := state.1.append text
  (push buffer state.2 (state.1.newLine text)).map fun guarded => (buffer, guarded)

def scanTexts (path : Option Path) (texts : List String) :
    Except ScanFault (Buffer × GuardedScanner) :=
  texts.foldlM take (Buffer.empty 0 path, {})

end GuardedScanner

/-- The walk from a line ends at another, which it gets to before the end of the buffer. -/
def Buffer.Reaches (buffer : Buffer) (first last : Line) : Prop :=
  ∃ between, buffer.range first last = .ok (between ++ [last]) ∧ last ∉ between

def MethodBlock.Closed (method : MethodBlock) (buffer : Buffer) : Prop :=
  ∃ define first last, method.block.define = some define ∧
    method.ends = .ok (first, last) ∧ buffer.Reaches define last ∧ buffer.Reaches first last

variable {settings : Settings} {fileName : String} {lines : List Line} {line first last : Line}
  {done : List Span} {buffer : Buffer} {method : MethodBlock} {scanner : Scanner}
  {outline : Outline} {i j : Nat}

theorem MethodBlock.ends_eq_ok_iff :
    method.ends = .ok (first, last) ↔ method.block.finished = true ∧
      method.block.opening = some first ∧ method.block.closing = some last := by
  unfold MethodBlock.ends
  cases method.block.finished <;> cases method.block.opening <;> cases method.block.closing <;> simp

theorem MethodBlock.Closed.exists_text (h : method.Closed buffer) :
    ∃ texts, method.block.text buffer = .ok texts := by
  obtain ⟨define, first, last, hd, he, ⟨between, hr, -⟩, -⟩ := h
  obtain ⟨-, -, hc⟩ := ends_eq_ok_iff.1 he
  refine ⟨(between ++ [last]).map Line.text, ?_⟩
  simp only [Block.text, hd, hc, Option.orElse_eq_orElse, Option.orElse_eq_or, Option.some_or, hr]
  rfl

theorem takeThrough_of_mem {xs : List Line} (h : last ∈ xs) :
    ∃ front, takeThrough (· == last) xs = front ++ [last] ∧ last ∉ front := by
  obtain ⟨front, rest, rfl, hn⟩ := List.eq_append_cons_of_mem h
  refine ⟨front, ?_, hn⟩
  apply takeThrough_append
  · intro line hl
    rw [beq_eq_false_iff_ne]
    rintro rfl
    exact hn hl
  · exact beq_self_eq_true last

theorem Buffer.Intact.reaches {xs ys : List Line} (h : buffer.Intact)
    (hl : buffer.lines = xs ++ first :: ys) (hm : last ∈ first :: ys) :
    buffer.Reaches first last := by
  have hf : first ∈ buffer.lines := hl ▸ List.mem_append_right xs List.mem_cons_self
  have hx : ∀ line ∈ xs, (line != first) = true := by
    intro line hx
    rw [bne_iff_ne]
    exact (List.nodup_append.1 (hl ▸ h.nodup)).2.2 line hx first List.mem_cons_self
  have hdrop : buffer.lines.dropWhile (· != first) = first :: ys := by
    rw [hl, List.dropWhile_append_of_pos hx, List.dropWhile_cons_of_neg (by simp)]
  obtain ⟨between, ht, hn⟩ := takeThrough_of_mem hm
  refine ⟨between, ?_, hn⟩
  rw [Buffer.range, h.owning hf]
  refine congrArg Except.ok ?_
  beta_reduce
  rw [hdrop, ht]

theorem Buffer.Woven.reaches {before after : Line → List Line}
    (h : buffer.Woven lines before after) (hij : i ≤ j) (hf : lines[i]? = some first)
    (hz : lines[j]? = some last) : buffer.Reaches first last := by
  obtain ⟨hi, rfl⟩ := List.getElem?_eq_some_iff.1 hf
  have hl : lines = lines.take i ++ lines[i] :: lines.drop (i + 1) := by
    rw [← List.drop_eq_getElem_cons hi, List.take_append_drop]
  have he := h.lines_eq
  rw [hl, weave_append, weave_cons, ← List.append_assoc] at he
  apply h.intact.reaches he
  rcases Nat.eq_or_lt_of_le hij with rfl | hlt
  · rw [hf, Option.some.injEq] at hz
    exact hz ▸ List.mem_cons_self
  · have hm : last ∈ lines.drop (i + 1) := by
      rw [List.mem_iff_getElem?]
      exact ⟨j - (i + 1), by rw [List.getElem?_drop, Nat.add_sub_cancel' hlt, hz]⟩
    apply List.mem_cons_of_mem
    apply List.mem_append_right
    rw [weave, List.mem_flatMap]
    exact ⟨last, hm, List.mem_append_right _ List.mem_cons_self⟩

theorem Marked.closed {span : Span} (h : Marked settings fileName lines done buffer)
    (hs : span.Lies lines) (hc : span.toCandidate.Stands lines)
    (hb : method.BegunAt lines span.toCandidate) : method.Closed buffer := by
  obtain ⟨define, first, last, hm⟩ := hb.liesAt hs hc
  obtain ⟨before, after, hw, -⟩ := h.woven
  exact ⟨define, first, last, hm.define_eq, hm.ends_eq,
    hw.reaches (Nat.le_trans hs.define_le hs.opening_le) hm.at_define hm.at_closing,
    hw.reaches hs.opening_le hm.at_opening hm.at_closing⟩

theorem Scanner.Shows.closed (hs : scanner.Shows lines outline) (hd : outline.Describes lines)
    (h : Marked settings fileName lines done buffer) :
    ∀ method ∈ scanner.finished, method.Closed buffer := by
  intro method hm
  obtain ⟨i, hi, rfl⟩ := List.mem_iff_getElem.1 hm
  obtain ⟨hlength, hall⟩ := List.forall₂_iff_get.1 hs.finished
  obtain ⟨hl, hc⟩ := hd.placed _ (List.get_mem outline.spans ⟨i, hlength ▸ hi⟩)
  exact h.closed hl hc (hall i hi (hlength ▸ hi))

namespace GuardedScanner

theorem proceed_ofScanner
    (h : ∀ closed ∈ (scanner.settled method).finished, closed.Closed buffer) (phase : ScanPhase)
    (active : Option MethodBlock) :
    proceed buffer ⟨phase, scanner.finished, active⟩ method =
      .ok (ofScanner (scanner.settled method)) := by
  unfold Scanner.settled at h ⊢
  unfold proceed
  split
  · next hf =>
    rw [if_pos hf] at h
    obtain ⟨texts, ht⟩ := (h method (by simp)).exists_text
    simp only [finish, ht]
    rfl
  · rfl

/-- No check fails for the next line, and the guarded scan goes on as the scan does. -/
theorem push_ofScanner (hs : scanner.Shows lines outline) (hd : outline.Describes lines)
    (hi : buffer.Intact) (hl : buffer.lines = lines ++ [line]) :
    push buffer (ofScanner scanner) line = .ok (ofScanner (scanner.step line)) := by
  obtain ⟨next, hn, hnd⟩ := Scanner.step_shows hs hd line
  rw [← hl] at hn hnd
  have hclosed := hn.closed hnd (hi.marked_nil {})
  obtain ⟨finished, active⟩ := scanner
  cases active with
  | some method =>
    obtain ⟨c, hp, hb⟩ := hs.active_some rfl
    have hc := hd.stand c (Outline.mem_candidates_of_pending hp)
    have hdefine := (hb.define_eq hc).trans (List.getElem?_eq_getElem hc.lt)
    change push buffer ⟨.active, finished, some method⟩ line = _
    simp only [push, Block.feed, hdefine, Option.map_some]
    exact proceed_ofScanner hclosed .active (some method)
  | none =>
    change push buffer ⟨.idle, finished, none⟩ line = _
    unfold Scanner.step at hclosed ⊢
    simp only [push, Line.methodName?] at hclosed ⊢
    cases hsig : (Signature.ofLine? line.text).value with
    | none => rfl
    | some signature =>
      rw [hsig] at hclosed
      exact proceed_ofScanner hclosed .idle none

end GuardedScanner

theorem Scanner.scanTexts_append (path : Option Path) (texts : List String) (text : String) :
    (scanTexts path (texts ++ [text])).value = (take (scanTexts path texts).value text).value := by
  rw [scanTexts_value, scanTexts_value, scan_value, scan_value, take_value, Buffer.ofTexts_append,
    Buffer.append_lines, List.foldl_append]
  rfl

/-- The guarded scan of any texts finds what the scan finds, and meets no fault. -/
theorem GuardedScanner.scanTexts_eq (path : Option Path) (texts : List String) :
    scanTexts path texts = .ok ((Scanner.scanTexts path texts).value.1,
      ofScanner (Scanner.scanTexts path texts).value.2) := by
  induction texts using List.reverseRecOn with
  | nil => rfl
  | append_singleton texts text ih =>
    obtain ⟨scanner, hv, hs, hd⟩ := Scanner.exists_shows path texts
    have hi := Buffer.ofTexts_intact 0 path (texts ++ [text])
    rw [Buffer.ofTexts_append] at hi
    have hpush := push_ofScanner hs hd hi (Buffer.append_lines _ text)
    rw [scanTexts] at ih ⊢
    rw [List.foldlM_append, ih, Scanner.scanTexts_append, hv, Scanner.take_value]
    change List.foldlM take (_, _) [text] = _
    rw [List.foldlM_cons, take, hpush]
    rfl

theorem Scanner.Shows.markEach_prefix {methods : List MethodBlock}
    (hs : scanner.Shows buffer.lines outline) (hd : outline.Describes buffer.lines)
    (hi : buffer.Intact) (hp : methods <+: scanner.finished) (settings : Settings) :
    ∃ marked outcomes, (Instrument.markEach (Instrument.markMethod settings buffer.lines) methods
        buffer).value = .ok (marked, outcomes) ∧ outcomes.length = methods.length ∧
      ∀ method ∈ scanner.finished, method.Closed marked := by
  have hb := List.forall₂_take methods.length hs.finished
  rw [← List.prefix_iff_eq_take.1 hp] at hb
  obtain ⟨marked, he, hm⟩ := (hi.marked_nil settings).markEach hi.nodup
    (fun span hm => hd.placed span (List.mem_of_mem_take hm))
    (hd.spans_apart.sublist (List.take_sublist _ _)) hb
  exact ⟨marked, _, he, (List.length_map _).trans hb.length_eq.symm, hs.closed hd hm⟩

/-- Nothing fails on the way to a result, whatever the lines are. A guarded scan meets no fault; in
every buffer that is read, the methods finished by then have all their lines, and the walks over
them end at the closing one; and marking refuses none of them. -/
theorem Instrument.lines_safe (settings : Settings) (path : Option Path) (texts : List String) :
    let (buffer, scanner) := (Scanner.scanTexts path texts).value
    GuardedScanner.scanTexts path texts = .ok (buffer, .ofScanner scanner) ∧
      (∀ fed, fed <+: texts → let (buffer, scanner) := (Scanner.scanTexts path fed).value
        ∀ method ∈ scanner.finished, method.Closed buffer) ∧
      (∀ done, done <+: scanner.finished → ∃ marked outcomes,
        (markEach (markMethod settings buffer.lines) done buffer).value = .ok (marked, outcomes) ∧
          outcomes.length = done.length ∧ ∀ method ∈ scanner.finished, method.Closed marked) ∧
      ∃ result, (Instrument.lines settings path texts).value = .ok result ∧
        result.methods.length = scanner.finished.length := by
  obtain ⟨scanner, hv, hs, hd⟩ := Scanner.exists_shows path texts
  have hi := Buffer.ofTexts_intact 0 path texts
  rw [hv]
  refine ⟨?_, ?_, ?_, _, lines_value settings path texts, ?_⟩
  · rw [GuardedScanner.scanTexts_eq, hv]
  · intro fed _
    obtain ⟨scanner, hv, hs, hd⟩ := Scanner.exists_shows path fed
    rw [hv]
    exact hs.closed hd ((Buffer.ofTexts_intact 0 path fed).marked_nil settings)
  · intro done hp
    exact hs.markEach_prefix hd hi hp settings
  · rw [List.length_map, hs.finished.length_eq]

end MethodMarkers
