import RequestAccess.Codec.Standard
import RequestAccess.Command

/-!
# Command-line arguments

The words behind the program's name: options with one dash or two, and the names of commands.
Some options may stand at every level, and then the innermost that is given counts.
-/

namespace RequestAccess

/-! ## Options -/

/-- The options that may be given. -/
inductive Flag where
  | verbose
  | json
  | config
  | phase
  | access
  | window
  | abort
  | route
  | force
  | help
  | version
deriving DecidableEq

/-- A place among the commands. -/
inductive Level where
  | program
  | explain
  | config
  | show
  | init
  | validate
deriving DecidableEq

namespace Level

/-- The options of every level. -/
def shared : List Flag := [.verbose, .json, .config, .help, .version]

def own : Level → List Flag
  | .explain => [.phase, .access, .window, .abort]
  | .init => [.route, .force]
  | _ => []

def flags (l : Level) : List Flag := shared ++ l.own

/-- The commands that may follow. -/
def commands : Level → List (String × Level)
  | .program => [("explain", .explain), ("config", .config)]
  | .config => [("show", .show), ("init", .init), ("validate", .validate)]
  | _ => []

/-- The words that lead to a level. -/
def title : Level → String
  | .program => "edge"
  | .explain => "edge-explain"
  | .config => "edge-config"
  | .show => "edge-config-show"
  | .init => "edge-config-init"
  | .validate => "edge-config-validate"

end Level

namespace Flag

def long : Flag → String
  | verbose => "verbose"
  | json => "json"
  | config => "config"
  | phase => "phase"
  | access => "access"
  | window => "window-ms"
  | abort => "abort"
  | route => "route"
  | force => "force"
  | help => "help"
  | version => "version"

def short? : Flag → Option Char
  | verbose => some 'v'
  | config => some 'c'
  | phase => some 'p'
  | access => some 'a'
  | force => some 'f'
  | help => some 'h'
  | version => some 'V'
  | json | window | abort | route => none

def takesValue : Flag → Bool
  | config | phase | access | window | route => true
  | _ => false

def repeats : Flag → Bool
  | phase | access => true
  | _ => false

def ofLong? (l : Level) (name : String) : Option Flag := l.flags.find? fun f => f.long == name

def ofShort? (l : Level) (c : Char) : Option Flag := l.flags.find? fun f => f.short? == some c

end Flag

/-- The options given at one level, in order, each with its value. -/
abbrev Given := List (Flag × String)

namespace Given

def has (g : Given) (f : Flag) : Bool := g.any fun e => e.1 == f

def value? (g : Given) (f : Flag) : Option String := (g.find? fun e => e.1 == f).map (·.2)

def valuesOf (g : Given) (f : Flag) : List String := (g.filter fun e => e.1 == f).map (·.2)

end Given

/-! ## Whole numbers -/

def isDigit (c : Char) : Bool := '0' ≤ c && c ≤ '9'

/-- A number of 64 bits, perhaps with a plus sign. -/
def milliseconds? (s : String) : Option Nat :=
  let digits := match s.toList with
    | '+' :: digits => digits
    | digits => digits
  if digits = [] ∨ !digits.all isDigit then none
  else
    let n := digits.foldl (fun n c => n * 10 + (c.toNat - '0'.toNat)) 0
    if n < UInt64.size then some n else none

/-! ## Reading -/

/-- What the arguments ask for. -/
inductive Invocation where
  | run (console : Console) (config : Option String) (command : Command)
  | version (title : String)
  | help (level : Level)
  | invalid

/-- Adds an option, unless it was given and may be given once, or its value is not valid. -/
def addFlag? (g : Given) (f : Flag) (value : String) : Option Given :=
  if g.has f && !f.repeats then none
  else if f = .window ∧ (milliseconds? value).isNone then none
  else some (g ++ [(f, value)])

/-- What one word of options comes to. -/
inductive Word where
  | given (g : Given)
  /-- The option whose value is the next word. -/
  | wants (g : Given) (f : Flag)
  | version
  | help
  | invalid

def Word.add (g : Given) (f : Flag) (value : String) : Word :=
  match addFlag? g f value with
  | some g => .given g
  | none => .invalid

/-- A word behind two dashes. -/
def readLong (l : Level) (g : Given) (word : List Char) : Word :=
  let (name, value) := match Text.cut? '=' word with
    | some (name, value) => (name, some value)
    | none => (word, none)
  match Flag.ofLong? l (String.ofList name), value with
  | none, _ => .invalid
  | some f, some value => if f.takesValue then .add g f (String.ofList value) else .invalid
  | some f, none =>
    if f.takesValue then .wants g f
    else if f = .help then .help
    else if f = .version then .version
    else .add g f ""

/-- The letters behind one dash. What follows an option with a value is its value. -/
def readShort (l : Level) : Given → List Char → Word
  | g, [] => .given g
  | g, c :: rest =>
    match Flag.ofShort? l c with
    | none => .invalid
    | some f =>
      if f.takesValue then
        match rest with
        | [] => .wants g f
        | '=' :: value => .add g f (String.ofList value)
        | value => .add g f (String.ofList value)
      else if f = .help then .help
      else if f = .version then .version
      else match addFlag? g f "" with
        | some g => readShort l g rest
        | none => .invalid

/-- Whether a word can only be an option. -/
def looksLikeFlag (word : String) : Bool :=
  match word.toList with
  | '-' :: _ :: _ => true
  | _ => false

/-- The command of a level, from the options that were given there. -/
def commandOf? (l : Level) (g : Given) : Option Command :=
  match l with
  | .program | .config => none
  | .show => some .show
  | .validate => some .validate
  | .init => some (.init ((g.value? .route).getD "/") (g.has .force))
  | .explain => some (.explain
    { phases := g.valuesOf .phase, accesses := g.valuesOf .access
      window := ((g.value? .window).bind milliseconds?).getD 20, abort := g.has .abort })

/-- The end of the arguments. Options further in come first. -/
def finish (l : Level) (outer g : Given) : Invocation :=
  match commandOf? l g with
  | none => .invalid
  | some command =>
    let all := g ++ outer
    .run { json := all.has .json, verbose := all.has .verbose } (all.value? .config) command

/-- Whether the words name a command, from a level on. -/
def namesCommand : Level → List String → Bool
  | _, [] => true
  | l, word :: rest =>
    match l.commands.find? fun c => c.1 == word with
    | some c => namesCommand c.2 rest
    | none => word == "help" && !l.commands.isEmpty && rest.isEmpty

def readArguments (l : Level) (outer g : Given) : List String → Invocation
  | [] => finish l outer g
  | word :: rest =>
    match l.commands.find? fun c => c.1 == word with
    | some c => readArguments c.2 (g ++ outer) [] rest
    | none =>
      if word = "help" ∧ l.commands ≠ [] then
        if namesCommand l rest then .help l else .invalid
      else if word = "--" then
        if rest = [] then finish l outer g else .invalid
      else
        let read := match word.toList with
          | '-' :: '-' :: name => readLong l g name
          | '-' :: c :: more => readShort l g (c :: more)
          | _ => .invalid
        match read, rest with
        | .given g, rest => readArguments l outer g rest
        | .wants g f, value :: rest =>
          if looksLikeFlag value then .invalid
          else match addFlag? g f value with
            | some g => readArguments l outer g rest
            | none => .invalid
        | .wants .., [] => .invalid
        | .version, _ => .version l.title
        | .help, _ => .help l
        | .invalid, _ => .invalid

/-- What the arguments of the program ask for. -/
def Invocation.ofArguments (args : List String) : Invocation :=
  readArguments .program [] [] args

end RequestAccess
