import Abacus.Session.Report

/-!
# Command line arguments

The arguments are read from left to right.  An argument that starts with a
dash holds flags: one by its full name behind two dashes, or any number of
single letters behind one dash.  Two dashes alone end the flags.  Everything
else, also a dash alone and the empty text, is positional, and there may be
one such argument.

Asking for help or for the version takes effect as soon as it is read.  So
does any fault, so that of two things that end the reading the left one wins.
-/

namespace Abacus.CommandLine

/-- What can be switched on by an argument. -/
inductive Flag where
  /-- Read the expressions from a file. -/
  | file
  /-- Do not draw the trees. -/
  | noTree
  /-- Print the help. -/
  | help
  /-- Print the version. -/
  | version
deriving DecidableEq

namespace Flag

/-- The flag with a name behind two dashes. -/
def ofName? (name : String) : Option Flag :=
  if name = "file" then some .file
  else if name = "no-tree" then some .noTree
  else if name = "help" then some .help
  else if name = "version" then some .version
  else none

/-- The flag with a letter behind one dash. -/
def ofLetter? (letter : Char) : Option Flag :=
  if letter = 'f' then some .file
  else if letter = 'h' then some .help
  else if letter = 'V' then some .version
  else none

end Flag

/-- What is wrong with the arguments. -/
inductive UsageError where
  /-- An argument that names no flag. -/
  | unknownFlag (argument : String)
  /-- A flag that is switched on for a second time. -/
  | repeatedFlag (argument : String)
  /-- A second positional argument. -/
  | extraArgument (argument : String)
deriving DecidableEq

/-- What the user is told. -/
def UsageError.message : UsageError → String
  | .unknownFlag argument =>
      "error: unexpected argument '" ++ argument ++ "' found"
  | .repeatedFlag argument =>
      "error: the argument '" ++ argument ++
        "' cannot be used multiple times"
  | .extraArgument argument =>
      "error: unexpected argument '" ++ argument ++ "' found"

/-- The settings that the arguments make. -/
structure Settings where
  /-- Whether the positional argument is the name of a file. -/
  fromFile : Bool
  /-- Whether trees are drawn. -/
  trees : Session.Trees
  /-- The positional argument. -/
  contents : Option String
deriving DecidableEq

/-- The settings that hold when no argument is given. -/
def Settings.default : Settings :=
  { fromFile := false, trees := .shown, contents := none }

/-- Why the arguments are not read any further. -/
inductive Interruption where
  | help
  | version
  | usage (error : UsageError)
deriving DecidableEq

namespace Settings

/-- The settings after a flag of some argument. -/
def switchOn
    (settings : Settings)
    (argument : String) :
    Flag → Except Interruption Settings
  | .file =>
      if settings.fromFile then
        .error (.usage (.repeatedFlag argument))
      else
        .ok { settings with fromFile := true }
  | .noTree =>
      match settings.trees with
      | .hidden => .error (.usage (.repeatedFlag argument))
      | .shown => .ok { settings with trees := .hidden }
  | .help => .error .help
  | .version => .error .version

/-- The settings after the letters behind one dash. -/
def readLetters
    (settings : Settings)
    (argument : String) :
    List Char → Except Interruption Settings
  | [] => .ok settings
  | letter :: others =>
      match Flag.ofLetter? letter with
      | none => .error (.usage (.unknownFlag argument))
      | some flag =>
          match settings.switchOn argument flag with
          | .error interruption => .error interruption
          | .ok switched => switched.readLetters argument others

/-- The settings after the name behind two dashes. -/
def readName
    (settings : Settings)
    (argument name : String) :
    Except Interruption Settings :=
  match Flag.ofName? name with
  | none => .error (.usage (.unknownFlag argument))
  | some flag => settings.switchOn argument flag

/-- The settings after a positional argument. -/
def readPositional
    (settings : Settings)
    (argument : String) :
    Except Interruption Settings :=
  match settings.contents with
  | none => .ok { settings with contents := some argument }
  | some _ => .error (.usage (.extraArgument argument))

/-- The settings after some arguments that are all positional. -/
def readPositionals
    (settings : Settings) :
    List String → Except Interruption Settings
  | [] => .ok settings
  | argument :: others =>
      match settings.readPositional argument with
      | .error interruption => .error interruption
      | .ok extended => extended.readPositionals others

/-- The settings after one argument before the end of the flags. -/
def readArgument
    (settings : Settings)
    (argument : String) :
    Except Interruption Settings :=
  match argument.toList with
  | '-' :: '-' :: name =>
      settings.readName argument (String.ofList name)
  | '-' :: letter :: letters =>
      settings.readLetters argument (letter :: letters)
  | _ => settings.readPositional argument

/-- The settings after some arguments. -/
def readArguments
    (settings : Settings) :
    List String → Except Interruption Settings
  | [] => .ok settings
  | argument :: others =>
      if argument = "--" then
        settings.readPositionals others
      else
        match settings.readArgument argument with
        | .error interruption => .error interruption
        | .ok extended => extended.readArguments others

end Settings

/-- The settings that some arguments make, or why they make none. -/
def readArguments
    (arguments : List String) :
    Except Interruption Settings :=
  Settings.default.readArguments arguments

end Abacus.CommandLine
