import MethodMarkers.Diff.Matching
import MethodMarkers.Log
import MethodMarkers.Path

namespace MethodMarkers.CommandLine

inductive OptionName where
  | path
  | config
  | noConfig
  | dryRun
  | diff
  | dumpConfig
  | noColor
  | quiet
  | verbose
  | version
  | help
  deriving DecidableEq, Repr

namespace OptionName

def takesValue : OptionName → Bool
  | path | config => true
  | _ => false

def all : List OptionName :=
  [path, config, noConfig, dryRun, diff, dumpConfig, noColor, quiet, verbose, version, help]

def long : OptionName → String
  | path => "--path"
  | config => "--config"
  | noConfig => "--no-config"
  | dryRun => "--dry-run"
  | diff => "--diff"
  | dumpConfig => "--dump-config"
  | noColor => "--no-color"
  | quiet => "--quiet"
  | verbose => "--verbose"
  | version => "--version"
  | help => "--help"

def ofLong? (name : String) : Option OptionName :=
  all.find? (·.long == name)

def ofShort? : Char → Option OptionName
  | 'p' => some path
  | 'q' => some quiet
  | 'v' => some verbose
  | 'h' => some help
  | _ => none

end OptionName

def sharedLength (a b : String) : Nat :=
  let pieces (s : String) : Array String := (s.toList.map Char.toString).toArray
  (Diff.runs (pieces a) (pieces b)).foldl (fun shared run => shared + run.length) 0

structure Likeness where
  name : String
  shared : Nat
  total : Nat

namespace Likeness

def of (wanted name : String) : Likeness :=
  ⟨name, sharedLength name wanted, name.length + wanted.length⟩

/-- Names are close if at least three fifths of their characters are shared. -/
def isClose (likeness : Likeness) : Bool :=
  decide (6 * likeness.total ≤ 20 * likeness.shared)

/-- The likeness of two names orders them; between names that are as like, the later one counts
more. -/
def exceeds (a b : Likeness) : Bool :=
  let left := a.shared * b.total
  let right := b.shared * a.total
  decide (right < left) || (left == right && Path.textPrecedes b.name a.name)

end Likeness

def suggestions (wanted : String) : List String :=
  let close := (OptionName.all.map fun option => Likeness.of wanted option.long).filter (·.isClose)
  let best := (close.mergeSort fun a b => !Likeness.exceeds b a).take 3
  (best.map (·.name)).mergeSort fun a b => !Path.textPrecedes b a

inductive UsageFault where
  /-- There is no such option; others have names close to it. -/
  | noSuchOption (name : String) (close : List String)
  | valueMissing (name : String)
  | valueUnwanted (name : String)
  | extraArguments (arguments : List String)
  deriving DecidableEq, Repr

namespace UsageFault

/-- A question after the option that was meant. -/
def suggestion : (close : List String) → String
  | [] => ""
  | [name] => s!" Did you mean {Text.quoted name}?"
  | names =>
    let shown := ", ".intercalate (names.map Text.quoted)
    s!" (Did you mean one of: {shown}?)"

def message : UsageFault → String
  | noSuchOption name close => s!"No such option {Text.quoted name}." ++ suggestion close
  | valueMissing name => s!"Option '{name}' requires an argument."
  | valueUnwanted name => s!"Option '{name}' does not take a value."
  | extraArguments arguments =>
    let noun := if arguments.length = 1 then "argument" else "arguments"
    let shown := " ".intercalate arguments
    s!"Got unexpected extra {noun} ({shown})"

def remindsOfUsage : UsageFault → Bool
  | noSuchOption .. | extraArguments _ => true
  | valueMissing _ | valueUnwanted _ => false

end UsageFault

inductive Given where
  | flag (option : OptionName)
  | valued (option : OptionName) (value : String)
  /-- The value is the next argument; `name` is how the option was written. -/
  | awaiting (option : OptionName) (name : String)
  deriving DecidableEq, Repr

structure Options where
  path : Option String := none
  configFiles : List String := []
  noConfig : Bool := false
  dryRun : Bool := false
  diff : Bool := false
  dumpConfig : Bool := false
  noColor : Bool := false
  quiet : Nat := 0
  verbose : Nat := 0
  /-- The first of the options that answer a question and do nothing else. -/
  question : Option OptionName := none
  extra : List String := []
  deriving DecidableEq, Repr

namespace Options

def set (options : Options) (option : OptionName) (value : String) : Options :=
  match option with
  | .path => { options with path := some value }
  | .config => { options with configFiles := options.configFiles ++ [value] }
  | .noConfig => { options with noConfig := true }
  | .dryRun => { options with dryRun := true }
  | .diff => { options with diff := true }
  | .dumpConfig => { options with dumpConfig := true }
  | .noColor => { options with noColor := true }
  | .quiet => { options with quiet := options.quiet + 1 }
  | .verbose => { options with verbose := options.verbose + 1 }
  | .version => { options with question := options.question.or (some .version) }
  | .help => { options with question := options.question.or (some .help) }

/-- The options in the letters of one argument. The first one that takes a value takes all letters
behind it. -/
def ofLetters : List Char → Except UsageFault (List Given)
  | [] => .ok []
  | c :: cs =>
    match OptionName.ofShort? c with
    | none => .error (.noSuchOption (String.ofList ['-', c]) [])
    | some option =>
      if !option.takesValue then (ofLetters cs).map (.flag option :: ·)
      else if cs = [] then .ok [.awaiting option (String.ofList ['-', c])]
      else .ok [.valued option (String.ofList cs)]

def ofArgument (cs : List Char) : Except UsageFault (List Given) :=
  let name := String.ofList (cs.takeWhile (· != '='))
  let value := (cs.dropWhile (· != '=')).tail
  let hasValue := cs.contains '='
  match OptionName.ofLong? name with
  | some option =>
    if !option.takesValue then
      if hasValue then .error (.valueUnwanted name) else .ok [.flag option]
    else if hasValue then .ok [.valued option (String.ofList value)]
    else .ok [.awaiting option name]
  | none =>
    if cs.take 2 = ['-', '-'] then .error (.noSuchOption name (suggestions name))
    else ofLetters cs.tail

/-- Sets options in order; one without its value is answered for the next argument. -/
def give (options : Options) : List Given → Options × Option (OptionName × String)
  | [] => (options, none)
  | .flag option :: rest => give (options.set option "") rest
  | .valued option value :: rest => give (options.set option value) rest
  | .awaiting option name :: _ => (options, some (option, name))

/-- Reads arguments from left to right. An argument without a dash, or of a dash alone, is an extra
one, and so are all behind two dashes. -/
def read (options : Options) : List String → Except UsageFault Options
  | [] => .ok options
  | argument :: rest =>
    let cs := argument.toList
    if argument = "--" then .ok { options with extra := options.extra ++ rest }
    else if cs.head? = some '-' ∧ 1 < cs.length then
      match ofArgument cs with
      | .error fault => .error fault
      | .ok given =>
        match give options given, rest with
        | (options, none), rest => read options rest
        | (options, some (option, _)), value :: rest => read (options.set option value) rest
        | (_, some (_, name)), [] => .error (.valueMissing name)
    else read { options with extra := options.extra ++ [argument] } rest

def ofArguments (arguments : List String) : Except UsageFault Options :=
  read {} arguments

def hasNul (options : Options) : Bool :=
  (options.path.toList ++ options.configFiles).any fun path => (Path.ofString path).hasNul

end Options

/-- How much is reported: the lower the level, the more. Asking for more and for less at once is
refused. -/
def reportLevel? (verbose quiet : Nat) : Option Level :=
  match verbose, quiet with
  | 0, 0 => some .warning
  | 0, _ + 1 => some .error
  | _ + 1, _ + 1 => none
  | 1, 0 => some .info
  | 2, 0 => some .debug
  | _ + 3, 0 => some .trace

end MethodMarkers.CommandLine
