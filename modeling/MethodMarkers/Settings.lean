import MethodMarkers.Markers
import MethodMarkers.MethodBlock

namespace MethodMarkers

structure Settings where
  markers : Markers := {}
  iteratorMarkers : List String := MethodBlock.defaultIteratorMarkers
  /-- The suffixes of the files taken from a directory. -/
  extensions : List String := [".cs"]
  includePatterns : List String := []
  excludePatterns : List String := []
  encoding : String := "utf-8"
  /-- The files that the settings were read from, in order. -/
  sources : List Path := []
  deriving DecidableEq, Repr

end MethodMarkers
