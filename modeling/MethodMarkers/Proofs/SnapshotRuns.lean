import MethodMarkers.Proofs.SettingsDump
import MethodMarkers.Snapshot.Procedure

namespace MethodMarkers.Snapshot
open Toml (Value)

variable {snapshot : Snapshot} {tree : Tree} {directory : Option Path} {files : List Path}

theorem firstOther?_map_text (texts : List String) :
    Value.firstOther? (texts.map .text) = none := by
  simp [Value.firstOther?, Value.text?]

theorem insertionMisuse?_ofSettings (settings : Settings) :
    (ofSettings settings).insertionMisuse? = none :=
  rfl

theorem misuse?_ofSettings (settings : Settings) (buffer : Buffer) (method : MethodBlock) :
    (ofSettings settings).misuse? buffer method = none := by
  have hother : Value.firstOther? (ofSettings settings).iteratorMarkers = none :=
    firstOther?_map_text settings.iteratorMarkers
  unfold misuse?
  split
  · rfl
  · rfl
  · rw [hother, insertionMisuse?_ofSettings]
    exact ite_self none

theorem mark_ofSettings (settings : Settings) :
    (ofSettings settings).mark = Instrument.markMethod settings := by
  funext numbered buffer method
  rw [mark, misuse?_ofSettings, settings_ofSettings]

theorem selection_ofSettings (settings : Settings) :
    (ofSettings settings).selection = settings.selection := by
  rw [selection, Settings.selection]
  simp only [ofSettings, Draft.textsWith_map_text]

/-- A run on settings that are texts is the run on values that happen to be texts. -/
theorem procedure_ofSettings (settings : Settings) :
    (ofSettings settings).procedure = settings.procedure := by
  rw [procedure, mark_ofSettings, selection_ofSettings]
  rfl

/-- What is loaded from files and overrides of the right kinds is run as its settings are. -/
theorem load_procedure {overrides : List Setting.Override}
    (ho : ∀ override ∈ overrides, override.2 = .missing ∨ override.1.OfKind override.2)
    (h : (load tree directory files (overrideTable overrides)).value = .ok snapshot) :
    snapshot.procedure = snapshot.settings.procedure := by
  obtain ⟨settings, rfl, -⟩ := load_ofSettings ho h
  rw [procedure_ofSettings, settings_ofSettings]

end MethodMarkers.Snapshot
