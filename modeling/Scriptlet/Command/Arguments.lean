namespace Scriptlet.Command

/-- What to print of a source text before it runs. -/
structure View where
  tokens : Bool
  tree : Bool
deriving DecidableEq, Repr

inductive Request where
  | version
  | script (path : String) (view : View)
  | session (view : View)
  | usage
deriving DecidableEq, Repr

structure Arguments where
  view : View
  path : Option String
deriving DecidableEq, Repr

namespace Arguments

def empty : Arguments := ⟨⟨false, false⟩, none⟩

def request (args : Arguments) : Request :=
  match args.path with
  | some path => .script path args.view
  | none => .session args.view

/-- After `--` every argument is the path of a script; there can be one. -/
def paths (args : Arguments) : List String → Request
  | [] => args.request
  | path :: rest => if args.path.isSome then .usage else paths { args with path := some path } rest

def read (args : Arguments) : List String → Request
  | [] => args.request
  | "--" :: rest => args.paths rest
  | "--version" :: _ | "-V" :: _ => .version
  | "--tokens" :: rest =>
    if args.view.tokens then .usage
    else read { args with view := { args.view with tokens := true } } rest
  | "--ast" :: rest =>
    if args.view.tree then .usage
    else read { args with view := { args.view with tree := true } } rest
  | arg :: rest =>
    if args.path.isSome || (arg.startsWith "-" && arg ≠ "-") then .usage
    else read { args with path := some arg } rest

end Arguments

def Request.ofArguments (args : List String) : Request := Arguments.empty.read args

/-- Whether help is asked for, before an argument that is wrong or asks for the version. -/
def asksHelp (args : List String) : Bool :=
  let before := args.takeWhile fun arg => arg ≠ "-h" && arg ≠ "--help"
  before.length < args.length && !before.contains "--" &&
    match Request.ofArguments before with
    | .script _ _ | .session _ => true
    | .version | .usage => false

def help : String :=
  "\n".intercalate [
    "Run a Lox script, or start an interactive session", "",
    "Usage: lox [OPTIONS] [SCRIPT]", "",
    "Arguments:",
    "  [SCRIPT]  Script to run (starts the REPL when omitted)", "",
    "Options:",
    "      --tokens   Print the token stream before running",
    "      --ast      Print the parsed syntax tree before running",
    "  -h, --help     Print help",
    "  -V, --version  Print version", ""]

def version : String := "lox 0.1.0\n"

def usage : String := "Usage: lox [--tokens] [--ast] [--version] [SCRIPT]\n"

end Scriptlet.Command
