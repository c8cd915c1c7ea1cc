import MethodMarkers.Terminal.Style
import MethodMarkers.Text.Newline

namespace MethodMarkers.Diff
open Terminal

def lineStyles : List Char → List Style
  | '+' :: '+' :: '+' :: _ | '-' :: '-' :: '-' :: _ => [.bold, .white]
  | '-' :: _ => [.bold, .red]
  | '+' :: _ => [.bold, .green]
  | '@' :: _ => [.cyan]
  | _ => [.white]

/-- A character of a previewed line: a carriage return is spelled, a tab is four blanks wide. -/
def previewChar : Char → List Char
  | '\r' => ['\\', 'r']
  | '\t' => [' ', ' ', ' ', ' ']
  | c => [c]

def previewLine (colour : Bool) (line : String) : String :=
  paintIf colour (lineStyles line.toList) (String.ofList (line.toList.flatMap previewChar)) ++ "\n"

def previewLines (colour : Bool) (lines : List String) : String :=
  let dropFeeds (line : String) : String :=
    String.ofList (line.toList.reverse.dropWhile (· == '\n')).reverse
  String.join (lines.map fun line => previewLine colour (dropFeeds line))

def preview (colour : Bool) (diff : String) : String :=
  String.join ((Text.displayLines diff).map (previewLine colour))

end MethodMarkers.Diff
