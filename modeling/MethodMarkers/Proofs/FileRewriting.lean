import MethodMarkers.Batch
import MethodMarkers.Proofs.CodecRoundTrip
import MethodMarkers.Proofs.LayoutRendering
import MethodMarkers.Proofs.LineInstrumentation
import MethodMarkers.Proofs.TreeWriting

namespace MethodMarkers
open Text

/-- What becomes of a file of the given text, before anything is written. -/
def Settings.outcome (settings : Settings) (path : Path) (text : List Char) : FileResult :=
  let source := Source.ofText text
  let outline := Outline.ofTexts (some path) source.lines
  { path := some path
    before := source.lines
    after := markedTexts settings path.name source.lines outline.spans
    methods := outline.spans.map (Span.outcome settings source.lines)
    unfinished := outline.pending.map Candidate.name
    mixedNewlines := source.counts.mixed }

variable {settings : Settings} {tree : Tree} {path : Path} {location : Location}
  {bytes : List UInt8} {encoding : Encoding} {text : List Char}

theorem Settings.read_value (hr : tree.read path = .ok (location, bytes))
    (he : Encoding.named settings.encoding = .ok encoding)
    (hd : encoding.decode bytes = .ok text) :
    (settings.procedure.read tree path).value = .ok ⟨Source.ofText text, location, encoding⟩ := by
  rw [procedure]
  dsimp only
  rw [Source.read, hr, he]
  dsimp only
  rw [hd]
  rfl

theorem Settings.mark_value (settings : Settings) (path : Path) (text : List Char) :
    ∃ result, (settings.procedure.mark path (Source.ofText text).lines).value = .ok result ∧
      { result with mixedNewlines := (Source.ofText text).counts.mixed } =
        settings.outcome path text :=
  ⟨_, Instrument.lines_value .., rfl⟩

theorem OpenSource.write_value {image : OpenSource} {lines : List String}
    (he : image.encoding.encode (image.source.layout.render lines).toList = .ok bytes)
    (tree : Tree) (path : Path) :
    (image.write tree path lines).value = .ok (bytes.length, tree.write image.location bytes) := by
  rw [write, he]
  rfl

namespace Batch

section OneFile

variable {procedure : Procedure} {image : OpenSource} {result : FileResult}

theorem oneFile_dryRun_value (hr : (procedure.read tree path).value = .ok image)
    (hm : (procedure.mark path image.source.lines).value = .ok result) :
    (oneFile procedure true tree path).value =
      .ok ({ result with mixedNewlines := image.source.counts.mixed }, tree) := by
  rw [oneFile]
  simp only [Traced.value_bind, hr, hm]
  cases result.unfinished <;> rfl

theorem oneFile_value (hr : (procedure.read tree path).value = .ok image)
    (hm : (procedure.mark path image.source.lines).value = .ok result)
    (he : image.encoding.encode (image.source.layout.render result.after).toList = .ok bytes) :
    (oneFile procedure false tree path).value =
      .ok ({ result with
          mixedNewlines := image.source.counts.mixed
          bytesWritten := some bytes.length }, tree.write image.location bytes) := by
  rw [oneFile]
  simp only [Traced.value_bind, hr, hm]
  cases result.unfinished <;>
    simp only [Bool.false_eq_true, if_false, Traced.value_bind, image.write_value he] <;> rfl

end OneFile

section Settings

variable (hr : tree.read path = .ok (location, bytes))
  (he : Encoding.named settings.encoding = .ok encoding) (hd : encoding.decode bytes = .ok text)

include hr he hd

theorem oneFile_dryRun :
    (oneFile settings.procedure true tree path).value =
      .ok (settings.outcome path text, tree) := by
  obtain ⟨result, hm, ho⟩ := settings.mark_value path text
  rw [oneFile_dryRun_value (settings.read_value hr he hd) hm, ← ho]

theorem oneFile_write {content : List UInt8}
    (hc : encoding.encode ((Source.ofText text).layout.render
      (settings.outcome path text).after).toList = .ok content) :
    (oneFile settings.procedure false tree path).value =
      .ok ({ settings.outcome path text with bytesWritten := some content.length },
        tree.write location content) := by
  obtain ⟨result, hm, ho⟩ := settings.mark_value path text
  have hafter : result.after = (settings.outcome path text).after := by rw [← ho]
  rw [← hafter] at hc
  rw [oneFile_value (settings.read_value hr he hd) hm hc, ← ho]

end Settings

end Batch

namespace Settings

theorem outcome_after :
    (settings.outcome path text).after =
      markedTexts settings path.name (Source.ofText text).lines
        (Outline.ofTexts (some path) (Source.ofText text).lines).spans :=
  rfl

theorem outcome_changed_iff :
    (settings.outcome path text).changed = true ↔
      (settings.outcome path text).after ≠ (Source.ofText text).lines := by
  rw [FileResult.changed, bne_iff_ne]
  rfl

theorem render_outcome_eq_iff :
    ((Source.ofText text).layout.render (settings.outcome path text).after).toList = text ↔
      (settings.outcome path text).changed = false ∧ Uniform (withoutMark text) := by
  cases hc : (settings.outcome path text).changed with
  | false =>
    have he : (settings.outcome path text).after = (Source.ofText text).lines := by
      rw [← not_not (a := _ = _), ← ne_eq, ← outcome_changed_iff, hc]
      nofun
    rw [he, Source.render_lines_eq_iff]
    exact (and_iff_right rfl).symm
  | true =>
    have hn := outcome_changed_iff.1 hc
    have hl := length_lt_of_markedTexts_ne _ _ _ _ hn
    have hne : (Source.ofText text).lines ≠ [] := by
      intro he
      apply hn
      rw [outcome_after, he]
      rfl
    constructor
    · intro he
      exact absurd he (Source.render_ne_of_longer hne hl)
    · rintro ⟨he, -⟩
      cases he

theorem outcome_after_eq (h : (settings.outcome path text).instrumented = []) :
    (settings.outcome path text).after = (Source.ofText text).lines := by
  rw [outcome_after]
  apply markedTexts_eq_self
  intro span ho
  rw [FileResult.instrumented, List.filter_eq_nil_iff] at h
  have hs := h _ (List.mem_map_of_mem ho)
  cases hi : span.isIterator settings (Source.ofText text).lines with
  | true => rfl
  | false =>
    rw [Span.outcome, hi] at hs
    exact absurd rfl hs

end Settings

namespace Batch

/-- A file whose line ends are of one style, and of which no method is instrumented, is written back
byte for byte. -/
theorem oneFile_leaves_bytes (hr : tree.read path = .ok (location, bytes))
    (he : Encoding.named settings.encoding = .ok encoding) (hb : encoding.isBare = true)
    (hd : encoding.decode bytes = .ok text) (hu : Uniform (withoutMark text))
    (hn : ∀ result, (settings.procedure.mark path (Source.ofText text).lines).value = .ok result →
      result.instrumented = []) :
    ∃ result after, (oneFile settings.procedure false tree path).value = .ok (result, after) ∧
      result.bytesWritten = some bytes.length ∧ after.read path = .ok (location, bytes) ∧
      ∀ place, after.get? place = tree.get? place := by
  obtain ⟨marked, hm, ho⟩ := settings.mark_value path text
  have hnone : (settings.outcome path text).instrumented = [] := by
    rw [← ho]
    exact hn marked hm
  have hrender : ((Source.ofText text).layout.render
      (settings.outcome path text).after).toList = text := by
    rw [Settings.outcome_after_eq hnone]
    exact (Source.render_lines_eq_iff text).2 hu
  have hc := hrender.symm ▸ Encoding.encode_of_decode hb hd
  have hg := (Tree.read_eq_ok_iff.1 hr).2.2
  exact ⟨_, _, oneFile_write hr he hd hc, rfl, Tree.read_write hr bytes, Tree.write_same hg⟩

/-- A file without methods in UTF-16 keeps its bytes, among them a mark of the byte order. -/
theorem oneFile_leaves_marked_bytes :
    let settings : Settings := { encoding := "utf-16-le" }
    let bytes : List UInt8 := [0xFF, 0xFE, 0x61, 0x00, 0x0D, 0x00, 0x0A, 0x00]
    let tree : Tree := ⟨[], [(["A.cs"], .file bytes)]⟩
    let path : Path := ⟨0, ["A.cs"]⟩
    Encoding.named settings.encoding = .ok (.utf16 .little) ∧
      ∃ result after, (oneFile settings.procedure false tree path).value = .ok (result, after) ∧
        result.bytesWritten = some bytes.length ∧ after.read path = .ok (["A.cs"], bytes) ∧
        ∀ place, after.get? place = tree.get? place := by
  intro settings bytes tree path
  have hr : tree.read path = .ok (["A.cs"], bytes) :=
    Tree.read_name (by decide) (by decide) (by decide +kernel) (by decide) (by decide +kernel) rfl
  have he : Encoding.named "utf-16-le" = .ok (.utf16 .little) := by decide +kernel
  have hd : (Encoding.utf16 .little).decode bytes = .ok [byteOrderMark, 'a', '\r', '\n'] := by
    decide +kernel
  have hu : Uniform (withoutMark [byteOrderMark, 'a', '\r', '\n']) :=
    ⟨.crlf, [['a'], []], by decide, by decide +kernel⟩
  refine ⟨he, oneFile_leaves_bytes hr he rfl hd hu fun result hm => ?_⟩
  have hn : (settings.procedure.mark path
      (Source.ofText [byteOrderMark, 'a', '\r', '\n']).lines).value.toOption.map
        FileResult.instrumented = some [] := by
    decide +kernel
  rw [hm] at hn
  exact Option.some.inj hn

/-- A dry run tells whether a file would change exactly if it would tell so or the file's line ends
are of one style; mixed ends are made one without being told. -/
theorem oneFile_dryRun_predicts_iff (hr : tree.read path = .ok (location, bytes))
    (he : Encoding.named settings.encoding = .ok .utf8)
    (hd : Encoding.utf8.decode bytes = .ok text) :
    ∃ dry real after content, (oneFile settings.procedure true tree path).value = .ok (dry, tree) ∧
      (oneFile settings.procedure false tree path).value = .ok (real, after) ∧
      after.read path = .ok (location, content) ∧
      ((dry.changed = true ↔ content ≠ bytes) ↔
        dry.changed = true ∨ Uniform (withoutMark text)) := by
  refine ⟨_, _, _, _, oneFile_dryRun hr he hd, oneFile_write hr he hd rfl,
    Tree.read_write hr _, ?_⟩
  have hbytes : Utf8.encode text = bytes := Utf8.encode_of_decode hd
  have hsame : Utf8.encode ((Source.ofText text).layout.render
        (settings.outcome path text).after).toList = bytes ↔
      (settings.outcome path text).changed = false ∧ Uniform (withoutMark text) := by
    rw [← Settings.render_outcome_eq_iff, ← hbytes]
    exact ⟨Utf8.encode_injective, congrArg Utf8.encode⟩
  rw [ne_eq, hsame]
  cases (settings.outcome path text).changed <;> by_cases hu : Uniform (withoutMark text) <;>
    simp [hu]

section MixedEnds

def mixedBytes : List UInt8 :=
  [0x61, 0x0D, 0x0A, 0x62, 0x0A]

def mixedText : List Char :=
  ['a', '\r', '\n', 'b', '\n']

def mixedTree : Tree :=
  ⟨[], [(["A.cs"], .file mixedBytes)]⟩

def mixedPath : Path :=
  ⟨0, ["A.cs"]⟩

theorem mixedTree_read : mixedTree.read mixedPath = .ok (["A.cs"], mixedBytes) :=
  Tree.read_name (by decide) (by decide) (by decide +kernel) (by decide) (by decide +kernel) rfl

theorem mixedBytes_decode : Encoding.utf8.decode mixedBytes = .ok mixedText := by
  decide +kernel

theorem named_default : Encoding.named ({} : Settings).encoding = .ok .utf8 := by
  decide +kernel

/-- A dry run on a file with line ends of two styles. -/
theorem oneFile_dryRun_predicts_mixed :
    ∃ dry real after content,
      (oneFile (Settings.procedure {}) true mixedTree mixedPath).value = .ok (dry, mixedTree) ∧
      (oneFile (Settings.procedure {}) false mixedTree mixedPath).value = .ok (real, after) ∧
      after.read mixedPath = .ok (["A.cs"], content) ∧
      ((dry.changed = true ↔ content ≠ mixedBytes) ↔
        dry.changed = true ∨ Uniform (withoutMark mixedText)) :=
  oneFile_dryRun_predicts_iff mixedTree_read named_default mixedBytes_decode

/-- The file is written with other bytes, of which the dry run does not tell. -/
theorem oneFile_dryRun_misses_mixed :
    ∃ dry real after content,
      (oneFile (Settings.procedure {}) true mixedTree mixedPath).value = .ok (dry, mixedTree) ∧
      (oneFile (Settings.procedure {}) false mixedTree mixedPath).value = .ok (real, after) ∧
      after.read mixedPath = .ok (["A.cs"], content) ∧
      ¬ (dry.changed = true ↔ content ≠ mixedBytes) := by
  have hc : Encoding.utf8.encode ((Source.ofText mixedText).layout.render
      (Settings.outcome {} mixedPath mixedText).after).toList =
        .ok [0x61, 0x0A, 0x62, 0x0A] := by
    decide +kernel
  have hn : (Settings.outcome {} mixedPath mixedText).changed = false := by
    decide +kernel
  refine ⟨_, _, _, _, oneFile_dryRun mixedTree_read named_default mixedBytes_decode,
    oneFile_write mixedTree_read named_default mixedBytes_decode hc,
    Tree.read_write mixedTree_read _, fun h => ?_⟩
  have hchanged := h.2 (by decide)
  rw [hn] at hchanged
  cases hchanged

end MixedEnds

end Batch

end MethodMarkers
