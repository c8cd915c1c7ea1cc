import MethodMarkers.Text.Word

namespace MethodMarkers
open Text

/-- The statements put around a method body. In `beginSample` every `{label}` stands for the label
of the sample; other braces are text. -/
structure Markers where
  beginSample : String := "UnityEngine.Profiling.Profiler.BeginSample(\"\x7blabel\x7d\");"
  endSample : String := "UnityEngine.Profiling.Profiler.EndSample();"
  /-- Added to the indentation of the line that opens the body. -/
  indentUnit : String := "\t"
  deriving DecidableEq, Repr

namespace Markers

def placeholder : List Char :=
  "\x7blabel\x7d".toList

/-- The label of a sample: the base name of the file and the name of the method. -/
def label (fileName methodName : String) : String :=
  fileName ++ " " ++ methodName

def beginLine (markers : Markers) (indent label : String) : String :=
  indent ++ String.ofList (replacePart placeholder label.toList markers.beginSample.toList)

def endLine (markers : Markers) (indent : String) : String :=
  indent ++ markers.endSample

end Markers

def leadingWhitespace (line : String) : String :=
  String.ofList (line.toList.takeWhile fun c => c == ' ' || c == '\t')

end MethodMarkers
