import TinyLisp.Program
import TinyLisp.Text.Blank

/-!
The console: a conversation, line by line, over one set of globals.
-/

set_option autoImplicit false

namespace TinyLisp

inductive Request where
  | blank
  | help
  | environment
  | eager
  | lazy
  | quit
  | source (text : String)
  deriving DecidableEq, Repr

namespace Request

def ofLine (line : List Char) : Request :=
  match String.ofList (Text.trimBlanks line) with
  | "" => .blank
  | ":help" => .help
  | ":env" => .environment
  | ":eager" => .eager
  | ":lazy" => .lazy
  | ":quit" => .quit
  | ":exit" => .quit
  | text => .source text

end Request

structure Console where
  world : World
  scope : Scope
  config : Config

namespace Console

/-- A conversation starts without globals and binds arguments unevaluated. -/
def start : Console :=
  let (world, scope) := World.empty.addRoot
  ⟨world, scope, {}⟩

def banner : List String :=
  ["Lisg - a tiny Lisp interpreter",
    "Enter expressions like: (+ 1 2)",
    "Type :help for more commands, or Ctrl+D to exit.",
    ""]

def farewell : String := "Goodbye!"

def namesOf (builtins : List Builtin) : String :=
  ", ".intercalate (builtins.map Builtin.name)

def help : List String :=
  ["Commands:",
    "  :help   - Show this help message",
    "  :env    - Show global bindings",
    "  :eager  - Evaluate function arguments before binding them",
    "  :lazy   - Bind function arguments unevaluated (default)",
    "  :quit   - Exit the interpreter",
    "  :exit   - Exit the interpreter",
    "",
    "Forms:",
    "  Numbers: 42, -2.5, inf    Strings: \"hi\"    Nil: ()",
    "  Special forms: " ++ namesOf (Builtin.all.filter Builtin.isSpecial),
    "  Arithmetic: " ++ namesOf (Builtin.all.filter fun builtin => !builtin.isSpecial),
    "  (defvar name expr)             - Define a global",
    "  (lambda (params...) body...)   - Build a function",
    "  (funcall f args...)            - Call a function",
    "  (eval expr)                    - Evaluate the value of expr",
    "",
    "Examples:",
    "  (defvar sq (lambda (n) (* (eval n) (eval n))))",
    "  (sq (+ 1 2))",
    ""]

/-- A heading with a count, and a line for each entry; nothing if there is no entry. -/
def block (heading : String) (entries : List (String × Value)) : List String :=
  if entries = [] then
    []
  else
    (heading ++ " (" ++ Nat.repr entries.length ++ "):") ::
      entries.map fun entry => "  " ++ entry.1 ++ " = " ++ entry.2.render

/-- The globals, functions before other values. -/
def listing (bindings : Bindings) : List String :=
  let (functions, others) := bindings.entries.partition fun entry => entry.2.isFunction
  if bindings.entries = [] then
    ["Environment is empty."]
  else
    block "Functions" functions ++ block "Values" others

def answer : Except RunError Value → String
  | .ok value => value.render
  | .error error => "Error: " ++ error.message

/-- What a request is answered with, and the conversation after it, if it goes on. -/
def respond (console : Console) : Request → List String × Option Console
  | .blank => ([], some console)
  | .help => (help, some console)
  | .environment => (listing (console.scope.bindings console.world), some console)
  | .eager =>
      (["Arguments are evaluated before binding."],
        some { console with config := { console.config with passing := .evaluated } })
  | .lazy =>
      (["Arguments are bound unevaluated; use eval to force them."],
        some { console with config := { console.config with passing := .unevaluated } })
  | .quit => ([farewell], none)
  | .source text =>
      let (outcome, world) := run console.config console.scope (text ++ "\n") console.world
      ([answer outcome], some { console with world := world })

/-- Everything that is answered to some lines, from the state of a conversation on. -/
def converse : Console → List (List Char) → List String
  | _, [] => [farewell]
  | console, line :: rest =>
      match console.respond (.ofLine line) with
      | (output, some next) => output ++ converse next rest
      | (output, none) => output

/-- The lines of an input, each without the line feed that ends it. -/
def lines : List Char → List (List Char)
  | [] => [[]]
  | char :: rest =>
      if char = '\n' then
        [] :: lines rest
      else
        match lines rest with
        | [] => [[char]]
        | line :: later => (char :: line) :: later

def transcript (input : String) : List String :=
  banner ++ converse start (lines input.toList)

end Console

end TinyLisp
