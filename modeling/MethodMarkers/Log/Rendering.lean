import MethodMarkers.Log
import MethodMarkers.Path
import MethodMarkers.Terminal.Style

namespace MethodMarkers
open Terminal

def Level.styles (level : Level) : List Style :=
  if critical ≤ level then [.brightRed]
  else if error ≤ level then [.red]
  else if warning ≤ level then [.yellow]
  else if info ≤ level then [.green]
  else if debug ≤ level then [.gray]
  else if trace ≤ level then [.blue]
  else [.dim, .red]

structure CallSite where
  file : String
  line : Nat
  function : String
  deriving DecidableEq, Repr

def lastPart (path : String) : String :=
  String.ofList ((Path.splitAt '/' path.toList).getLastD [])

def CallSite.display (site : CallSite) : String :=
  s!"[{lastPart site.file}:{site.line}] [{site.function}] "

def Record.display (record : Record) (site : Option CallSite) : String :=
  s!"[{record.level.name}] " ++ (site.map CallSite.display).getD "" ++ record.message

def Record.render (record : Record) (site : Option CallSite) (colour : Bool) : String :=
  paintIf colour record.level.styles (record.display site)

end MethodMarkers
