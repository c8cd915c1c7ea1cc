import MethodMarkers.Traced

namespace MethodMarkers

abbrev Level := Int

namespace Level

def trace : Level := 5
def debug : Level := 10
def info : Level := 20
def warning : Level := 30
def error : Level := 40
def critical : Level := 50

def name (level : Level) : String :=
  if level = 0 then "NOTSET"
  else if level = trace then "TRACE"
  else if level = debug then "DEBUG"
  else if level = info then "INFO"
  else if level = warning then "WARNING"
  else if level = error then "ERROR"
  else if level = critical then "CRITICAL"
  else s!"Level {level}"

end Level

structure Record where
  level : Level
  message : String
  deriving DecidableEq, Repr

abbrev Logged := Traced Record

def Logged.note (level : Level) (message : String) : Logged Unit :=
  .happen ⟨level, message⟩

end MethodMarkers
