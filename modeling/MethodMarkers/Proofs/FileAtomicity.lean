import MethodMarkers.Proofs.FileRewriting

namespace MethodMarkers
open Text

/-- What becomes of the bytes of a file that is processed under a path: its result and its new
bytes. -/
def Settings.rewrite (settings : Settings) (path : Path) (bytes : List UInt8) :
    Except CodingFault (FileResult × List UInt8) := do
  let encoding ← Encoding.named settings.encoding
  let text ← encoding.decode bytes
  let outcome := settings.outcome path text
  let content ← encoding.encode ((Source.ofText text).layout.render outcome.after).toList
  return ({ outcome with bytesWritten := some content.length }, content)

/-- Why a file is not processed. -/
inductive Settings.Refuses (settings : Settings) (tree : Tree) (path : Path) :
    FileFault → Prop where
  | unopened {fault : OpenFault} (hr : tree.read path = .error fault) :
    settings.Refuses tree path (.closed fault)
  | unknownEncoding {fault : CodingFault} (he : Encoding.named settings.encoding = .error fault) :
    settings.Refuses tree path (.coding fault)
  | undecodable {location : Location} {bytes : List UInt8} {encoding : Encoding}
    {fault : CodingFault} (hr : tree.read path = .ok (location, bytes))
    (he : Encoding.named settings.encoding = .ok encoding)
    (hd : encoding.decode bytes = .error fault) : settings.Refuses tree path (.coding fault)
  | unencodable {location : Location} {bytes : List UInt8} {encoding : Encoding}
    {text : List Char} {fault : CodingFault} (hr : tree.read path = .ok (location, bytes))
    (he : Encoding.named settings.encoding = .ok encoding) (hd : encoding.decode bytes = .ok text)
    (hc : encoding.encode ((Source.ofText text).layout.render
      (settings.outcome path text).after).toList = .error fault) :
    settings.Refuses tree path (.coding fault)

variable {settings : Settings} {tree other : Tree} {path : Path} {location : Location}
  {bytes content : List UInt8} {encoding : Encoding} {text : List Char} {result : FileResult}
  {fault : CodingFault}

namespace Settings

theorem rewrite_eq_ok_iff :
    settings.rewrite path bytes = .ok (result, content) ↔
      ∃ encoding text, Encoding.named settings.encoding = .ok encoding ∧
        encoding.decode bytes = .ok text ∧
        result = { settings.outcome path text with bytesWritten := some content.length } ∧
        encoding.encode ((Source.ofText text).layout.render result.after).toList = .ok content := by
  simp only [rewrite, bind_eq_ok_iff]
  constructor
  · rintro ⟨encoding, he, text, hd, written, hc, hr⟩
    cases hr
    exact ⟨encoding, text, he, hd, rfl, hc⟩
  · rintro ⟨encoding, text, he, hd, rfl, hc⟩
    exact ⟨encoding, he, text, hd, content, hc, rfl⟩

theorem read_congr (settings : Settings) (h : other.read path = tree.read path) :
    settings.procedure.read other path = settings.procedure.read tree path := by
  simp only [procedure, Source.read, h]

theorem read_value_of_unopened (settings : Settings) {fault : OpenFault}
    (hr : tree.read path = .error fault) :
    ∃ refusal, settings.Refuses tree path refusal ∧
      (settings.procedure.read tree path).value = .error refusal := by
  rw [procedure]
  dsimp only
  rw [Source.read, hr]
  split
  · next he => exact ⟨_, .unknownEncoding he, rfl⟩
  · next heq _ =>
    cases heq
    exact ⟨_, .unopened hr, rfl⟩
  · next heq _ => cases heq

theorem read_value_of_unknown (hr : tree.read path = .ok (location, bytes))
    (he : Encoding.named settings.encoding = .error fault) :
    (settings.procedure.read tree path).value = .error (.coding fault) := by
  rw [procedure]
  dsimp only
  rw [Source.read, hr, he]
  cases fault <;> rfl

theorem read_value_of_undecodable (hr : tree.read path = .ok (location, bytes))
    (he : Encoding.named settings.encoding = .ok encoding)
    (hd : encoding.decode bytes = .error fault) :
    (settings.procedure.read tree path).value = .error (.coding fault) := by
  rw [procedure]
  dsimp only
  rw [Source.read, hr, he]
  dsimp only
  rw [hd]
  rfl

end Settings

namespace Batch

variable {procedure : Procedure} {dryRun : Bool} {image : OpenSource}

theorem oneFile_of_read_error {fault : FileFault}
    (hr : (procedure.read tree path).value = .error fault) :
    (oneFile procedure dryRun tree path).value = .error (.file fault) := by
  rw [oneFile]
  simp only [Traced.value_bind, hr, Traced.value_pure]

theorem oneFile_of_write_error (hr : (procedure.read tree path).value = .ok image)
    (hm : (procedure.mark path image.source.lines).value = .ok result)
    (hc : image.encoding.encode (image.source.layout.render result.after).toList = .error fault) :
    (oneFile procedure false tree path).value = .error (.file (.coding fault)) := by
  rw [oneFile]
  simp only [Traced.value_bind, hr, hm]
  cases result.unfinished <;>
    simp only [Bool.false_eq_true, if_false, Traced.value_bind, OpenSource.write, hc] <;> rfl

/-- A file is rewritten as a whole, or it is refused. -/
theorem oneFile_cases (settings : Settings) (tree : Tree) (path : Path) :
    (∃ location bytes result content, tree.read path = .ok (location, bytes) ∧
      settings.rewrite path bytes = .ok (result, content) ∧
      (oneFile settings.procedure false tree path).value =
        .ok (result, tree.write location content)) ∨
    ∃ fault, settings.Refuses tree path fault ∧
      (oneFile settings.procedure false tree path).value = .error (.file fault) := by
  cases hr : tree.read path with
  | error fault =>
    obtain ⟨refusal, hrefuses, hread⟩ := settings.read_value_of_unopened hr
    exact .inr ⟨refusal, hrefuses, oneFile_of_read_error hread⟩
  | ok opened =>
    obtain ⟨location, bytes⟩ := opened
    cases he : Encoding.named settings.encoding with
    | error fault =>
      exact .inr ⟨_, .unknownEncoding he,
        oneFile_of_read_error (Settings.read_value_of_unknown hr he)⟩
    | ok encoding =>
      cases hd : encoding.decode bytes with
      | error fault =>
        exact .inr ⟨_, .undecodable hr he hd,
          oneFile_of_read_error (Settings.read_value_of_undecodable hr he hd)⟩
      | ok text =>
        cases hc : encoding.encode ((Source.ofText text).layout.render
            (settings.outcome path text).after).toList with
        | error fault =>
          obtain ⟨result, hm, ho⟩ := settings.mark_value path text
          have hafter : result.after = (settings.outcome path text).after := by rw [← ho]
          refine .inr ⟨_, .unencodable hr he hd hc, ?_⟩
          exact oneFile_of_write_error (settings.read_value hr he hd) hm (hafter ▸ hc)
        | ok content =>
          refine .inl ⟨location, bytes, _, content, rfl, ?_, oneFile_write hr he hd hc⟩
          exact Settings.rewrite_eq_ok_iff.2 ⟨encoding, text, he, hd, rfl, hc⟩

theorem oneFile_eq_ok_iff {after : Tree} :
    (oneFile settings.procedure false tree path).value = .ok (result, after) ↔
      ∃ location bytes content, tree.read path = .ok (location, bytes) ∧
        settings.rewrite path bytes = .ok (result, content) ∧
        after = tree.write location content := by
  constructor
  · intro h
    rcases oneFile_cases settings tree path with
      ⟨location, bytes, written, content, hr, hw, hv⟩ | ⟨fault, -, hv⟩
    · rw [hv] at h
      cases h
      exact ⟨location, bytes, content, hr, hw, rfl⟩
    · rw [hv] at h
      cases h
  · rintro ⟨location, bytes, content, hr, hw, rfl⟩
    obtain ⟨encoding, text, he, hd, rfl, hc⟩ := Settings.rewrite_eq_ok_iff.1 hw
    exact oneFile_write hr he hd hc

theorem oneFile_congr (h : other.read path = tree.read path) :
    (oneFile settings.procedure false other path).value.map Prod.fst =
      (oneFile settings.procedure false tree path).value.map Prod.fst := by
  have hread := congrArg Traced.value (settings.read_congr h)
  cases hr : (settings.procedure.read tree path).value with
  | error fault => rw [oneFile_of_read_error hr, oneFile_of_read_error (hread.trans hr)]
  | ok image =>
    obtain ⟨result, hm⟩ : ∃ result,
        (settings.procedure.mark path image.source.lines).value = .ok result :=
      ⟨_, Instrument.lines_value ..⟩
    cases hc : image.encoding.encode (image.source.layout.render result.after).toList with
    | error fault =>
      rw [oneFile_of_write_error hr hm hc, oneFile_of_write_error (hread.trans hr) hm hc]
    | ok content =>
      rw [oneFile_value hr hm hc, oneFile_value (hread.trans hr) hm hc]
      rfl

end Batch

end MethodMarkers
