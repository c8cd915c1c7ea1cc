import MethodMarkers.CommandLine.Options

namespace MethodMarkers.CommandLine

def commandName : String :=
  "profmark"

def version : String :=
  "0.1.0"

def versionText : String :=
  s!"{commandName}, version {version}\n"

def usageText : String :=
  s!"Usage: {commandName} [OPTIONS]\n"

def helpText : String :=
  usageText ++ "
  Insert profiler begin/end sample markers around every method body.

Options:
  -p, --path PATH  A source file, or a folder whose matching files are all
                   processed.
  --config PATH    Additional TOML config file (repeatable; later files win).
  --no-config      Do not discover profmark.toml or [tool.profmark] in the
                   working directory.
  --dry-run        Compute changes without writing files.
  --diff           Print a unified diff per changed file.
  --dump-config    Print the effective configuration as TOML and exit.
  --no-color       Disable colored output.
  -q, --quiet      Suppress progress output.
  -v, --verbose    Increase output detail: -v lists methods, -vv also prints
                   their bodies.
  --version        Show the version and exit.
  -h, --help       Show this message and exit.
"

def UsageFault.text (fault : UsageFault) : String :=
  (if fault.remindsOfUsage then usageText ++ s!"Try '{commandName} --help' for help.\n\n"
    else "") ++
    s!"Error: {fault.message}\n"

end MethodMarkers.CommandLine
