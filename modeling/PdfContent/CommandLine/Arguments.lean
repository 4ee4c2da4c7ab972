import PdfContent.Decimal.Reading

/-!
# Arguments

The words after the program's name are a command, a file and options, in any order after the command. An
option is given once at most, with its value in the next word or after an equals sign; a value in a word
of its own may not start like an option. After `--` all words are files.
-/

namespace PdfContent.CommandLine

inductive Command
  | text
  | chars
  | ops
  | warnings
  deriving DecidableEq, Repr

def Command.names : List (Command × String) :=
  [(.text, "text"), (.chars, "chars"), (.ops, "ops"), (.warnings, "warnings")]

def Command.ofName? (name : String) : Option Command :=
  (names.find? fun entry => entry.2 == name).map Prod.fst

inductive Switch
  /-- Leave text in the order in which it is shown. -/
  | unsorted
  | expandPatterns
  | annotations
  deriving DecidableEq, Repr

inductive Setting
  | pages
  | format
  | maxDepth
  | tolerance
  deriving DecidableEq, Repr

inductive Flag
  | switch (s : Switch)
  | setting (s : Setting)
  deriving DecidableEq, Repr

/-- The options of a command by their names. -/
def Command.flags (c : Command) : List (String × Flag) :=
  [("pages", .setting .pages), ("format", .setting .format), ("max-depth", .setting .maxDepth)] ++
    match c with
    | .text => [("no-sort", .switch .unsorted), ("tolerance", .setting .tolerance)]
    | .ops => [("expand-patterns", .switch .expandPatterns), ("annotations", .switch .annotations)]
    | .chars | .warnings => []

/-- Whether a text is a value for a setting. -/
def Setting.accepts : Setting → String → Bool
  | .pages, _ => true
  | .format, value => value == "text" || value == "json"
  | .maxDepth, value => (Decimal.natural? value.toList).isSome
  | .tolerance, value => (Decimal.decimal? value).isSome

/-- The words of a command that have been read. -/
structure Given where
  file : Option String
  switches : List Switch
  settings : List (Setting × String)
  deriving Repr

namespace Given

def empty : Given := ⟨none, [], []⟩

/-- One more file; there is room for only one, and it has a name. -/
def addFile? (g : Given) (file : String) : Option Given :=
  if g.file.isSome || file.isEmpty then none else some { g with file := some file }

def addSwitch? (g : Given) (s : Switch) : Option Given :=
  if g.switches.contains s then none else some { g with switches := s :: g.switches }

def setting? (g : Given) (s : Setting) : Option String :=
  (g.settings.find? fun entry => entry.1 == s).map Prod.snd

def addSetting? (g : Given) (s : Setting) (value : String) : Option Given :=
  if (g.setting? s).isSome || !s.accepts value then none
  else some { g with settings := (s, value) :: g.settings }

end Given

/-- How one word of a command is to be taken. -/
inductive Word
  | file (name : String)
  | onlyFiles
  | help
  | option (name : String) (value : Option String)
  | unknown

def Word.ofString (word : String) : Word :=
  match word.toList with
  | ['-', '-'] => .onlyFiles
  | '-' :: '-' :: rest =>
    let name := String.ofList (rest.takeWhile (· != '='))
    match rest.dropWhile (· != '=') with
    | [] => if name == "help" then .help else .option name none
    | _ :: value => .option name (some (String.ofList value))
  | '-' :: 'h' :: _ => .help
  | '-' :: _ :: _ => .unknown
  | _ => .file word

/-- What the words of a command say; none if they are no proper use of it. A request for help counts
from where it stands. -/
def Given.read? (flags : List (String × Flag)) (g : Given) : List String → Option (Given × Bool)
  | [] => some (g, false)
  | word :: rest =>
    match Word.ofString word with
    | .file name => (g.addFile? name).bind fun g => g.read? flags rest
    | .onlyFiles => (rest.foldlM Given.addFile? g).map (·, false)
    | .help => some (g, true)
    | .unknown => none
    | .option name value =>
      match (flags.find? fun entry => entry.1 == name).map Prod.snd, value with
      | some (.switch s), none => (g.addSwitch? s).bind fun g => g.read? flags rest
      | some (.setting s), some value => (g.addSetting? s value).bind fun g => g.read? flags rest
      | some (.setting s), none =>
        match rest with
        | [] => none
        | value :: rest =>
          match Word.ofString value with
          | .file _ => (g.addSetting? s value).bind fun g => g.read? flags rest
          | _ => none
      | _, _ => none

/-- What the program is asked for. -/
inductive Request
  | run (command : Command) (file : String) (given : Given)
  | version
  | help

/-- The request of a list of words; none if they are no proper use of the program. -/
def Request.ofWords? : List String → Option Request
  | [] => none
  | word :: rest =>
    match Command.ofName? word with
    | some command =>
      match Given.empty.read? command.flags rest with
      | some (_, true) => some .help
      | some (given, false) => given.file.map fun file => .run command file given
      | none => none
    | none =>
      if word == "--version" || word.startsWith "-V" then some .version
      else if word == "--help" || word.startsWith "-h" then some .help
      else if word == "help" then
        match rest with
        | [] => some .help
        | [topic] => if topic == "help" || (Command.ofName? topic).isSome then some .help else none
        | _ => none
      else none

/-- A short account of how the program is used. -/
def usage : List String :=
  ["Usage: pdfstream <text|chars|ops|warnings> <FILE> [--pages <PAGES>] [--format <text|json>] [--max-depth <MAX_DEPTH>]",
    "  text: [--no-sort] [--tolerance <TOLERANCE>]", "  ops: [--expand-patterns] [--annotations]"]

end PdfContent.CommandLine
