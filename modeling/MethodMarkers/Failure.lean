import MethodMarkers.Batch
import MethodMarkers.SettingsFile

namespace MethodMarkers

inductive Exit where
  | success
  | failure
  /-- A dry run found something to change. -/
  | wouldChange
  | usage
  | encoding
  | fileNotFound
  | system
  | permissionDenied
  | settings
  | unexpected
  deriving DecidableEq, Repr

namespace Exit

def code : Exit → Nat
  | success => 0
  | failure => 1
  | wouldChange => 2
  | usage => 64
  | encoding => 65
  | fileNotFound => 66
  | system => 74
  | permissionDenied => 77
  | settings => 78
  | unexpected => 255

def all : List Exit :=
  [success, failure, wouldChange, usage, encoding, fileNotFound, system, permissionDenied, settings,
    unexpected]

end Exit

structure Failure where
  exit : Exit
  message : String
  deriving DecidableEq, Repr

namespace Failure

def unexpected (message : String) : Failure :=
  ⟨.unexpected, s!"Unexpected error: {message}"⟩

/-- Texts that cannot be encoded are reported in the same words as bytes that cannot be decoded. -/
def encoding (message : String) : Failure :=
  ⟨.encoding, s!"Cannot decode file: {message}"⟩

def settings (message : String) : Failure :=
  ⟨.settings, message⟩

/-- Missing files and missing rights have exits of their own. -/
def ofSystem (fault : SystemFault) : Failure :=
  let path := fault.path.getD "None"
  match fault.number with
  | 1 | 13 => ⟨.permissionDenied, s!"Permission denied: {path}"⟩
  | 2 => ⟨.fileNotFound, s!"No such file or directory: {path}"⟩
  | _ => ⟨.system, s!"I/O error: {fault.message}"⟩

/-- An encoding that does not exist is no matter of a file. -/
def ofCoding (fault : Text.CodingFault) : Failure :=
  match fault with
  | .unknownEncoding _ | .nulInName => unexpected fault.message
  | _ => encoding fault.message

def ofOpen : OpenFault → Failure
  | .refused fault => ofSystem fault
  | .nulInName => unexpected OpenFault.nulInName.message

def ofFile : FileFault → Failure
  | .closed fault => ofOpen fault
  | .coding fault => ofCoding fault
  | .misuse fault => unexpected fault.message

def ofDiscovery : DiscoveryFault → Failure
  | .invalidPath path => ⟨.fileNotFound, (DiscoveryFault.invalidPath path).message⟩
  | .refused fault => ofSystem fault
  | .pattern fault => unexpected fault.message
  | .misuse fault => unexpected fault.message

def ofBatch : BatchFault → Failure
  | .discovery fault => ofDiscovery fault
  | .file fault => ofFile fault
  | .block fault => unexpected fault.message

def ofLoad : LoadFault → Failure
  | .settings fault => settings fault.message
  | .clash clash => unexpected clash.message
  | .coding fault => ofCoding fault
  | .closed fault => ofOpen fault
  | .override (.unknown name) => settings (OverrideFault.unknown name).message
  | .override (.misuse fault) => unexpected fault.message

end Failure

end MethodMarkers
