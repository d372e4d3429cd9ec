/-
The command line: `check` or `update`, then options and at most one
directory, in any order.

An option that takes a value has it behind an equals sign, behind its
letter, or in the next word, unless that looks like an option. No option
but the one for verbosity may come twice, and no value may be empty.
Behind two dashes everything is a directory. Whoever asks for help gets
it, if nothing before was wrong.
-/
import CopyrightNotice.Path.Basic

namespace CopyrightNotice

/-- When output has colours. -/
inductive ColorChoice where
  | auto
  | never
  | always
deriving DecidableEq, Repr

/-- The words for the choices. -/
def ColorChoice.ofWord? (w : Text) : Option ColorChoice :=
  if w = "auto".toList then some .auto
  else if w = "never".toList then some .never
  else if w = "always".toList then some .always
  else none

/-- What a run is asked to do. -/
structure Options where
  /-- Whether files are only checked. -/
  check : Bool
  directory : Option Path := none
  config : Option Path := none
  noConfig : Bool := false
  noticeFile : Option Path := none
  showDiff : Bool := false
  saveDiff : Option Path := none
  reportJson : Option Path := none
  verbosity : Nat := 0
  quiet : Bool := false
  colors : Option ColorChoice := none
  skipOwnerCheck : Bool := false

/-- What a command line asks for. -/
inductive Request where
  | run (options : Options)
  | help
  | version

/-- Why a command line asks for nothing: it is help, or it is wrong. -/
inductive Stop where
  | help
  | misuse

namespace Options

-- ============================================================= options

/-- The options that take a value. -/
inductive Key where
  | config
  | noticeFile
  | saveDiff
  | reportJson
  | colors
deriving DecidableEq, Repr

/-- The options that take none. -/
inductive Flag where
  | noConfig
  | showDiff
  | verbose
  | quiet
  | skipOwnerCheck
  | help
deriving DecidableEq, Repr

/-- An option. -/
inductive Switch where
  | key (k : Key)
  | flag (f : Flag)

/-- The option with a long name. -/
def ofName? (name : Text) : Option Switch :=
  match String.ofList name with
  | "config" => some (.key .config)
  | "notice-file" => some (.key .noticeFile)
  | "save-diff" => some (.key .saveDiff)
  | "report-json" => some (.key .reportJson)
  | "colors" => some (.key .colors)
  | "no-config" => some (.flag .noConfig)
  | "show-diff" => some (.flag .showDiff)
  | "verbose" => some (.flag .verbose)
  | "quiet" => some (.flag .quiet)
  | "skip-git-owner-check" => some (.flag .skipOwnerCheck)
  | "help" => some (.flag .help)
  | _ => none

/-- The option with a letter. -/
def ofLetter? : Char → Option Switch
  | 'f' => some (.key .noticeFile)
  | 'o' => some (.key .saveDiff)
  | 'v' => some (.flag .verbose)
  | 'q' => some (.flag .quiet)
  | 'h' => some (.flag .help)
  | _ => none

-- ============================================================ settings

/-- Sets what was not set before. -/
def once {α : Type} (old : Option α) (new : α) : Except Stop (Option α) :=
  if old.isSome then .error .misuse else .ok (some new)

/-- Raises a flag that was not raised before. -/
def raise (old : Bool) : Except Stop Bool :=
  if old then .error .misuse else .ok true

/-- The most that words can add to the verbosity. -/
def maxVerbosity : Nat := 255

/-- A value is never empty. -/
def pathOf (value : Text) : Except Stop Path :=
  if value = [] then .error .misuse else .ok (Path.ofText value)

variable (o : Options)

/-- The options with a value. -/
def set (key : Key) (value : Text) : Except Stop Options := do
  match key with
  | .config => return { o with config := ← once o.config (← pathOf value) }
  | .noticeFile =>
      return { o with noticeFile := ← once o.noticeFile (← pathOf value) }
  | .saveDiff =>
      return { o with saveDiff := ← once o.saveDiff (← pathOf value) }
  | .reportJson =>
      return { o with reportJson := ← once o.reportJson (← pathOf value) }
  | .colors =>
    match ColorChoice.ofWord? value with
    | some choice => return { o with colors := ← once o.colors choice }
    | none => .error .misuse

/-- The options with a flag. -/
def apply (f : Flag) : Except Stop Options := do
  match f with
  | .noConfig => return { o with noConfig := ← raise o.noConfig }
  | .showDiff => return { o with showDiff := ← raise o.showDiff }
  | .verbose =>
      return { o with verbosity := min maxVerbosity (o.verbosity + 1) }
  | .quiet => return { o with quiet := ← raise o.quiet }
  | .skipOwnerCheck =>
      return { o with skipOwnerCheck := ← raise o.skipOwnerCheck }
  | .help => .error .help

/-- The options with the directory. -/
def setDirectory (word : Text) : Except Stop Options := do
  return { o with directory := ← once o.directory (← pathOf word) }

-- =============================================================== words

/-- The options after an option got no value in its word or the next. -/
def withoutValue : Option Key → Except Stop Options
  | none => .ok o
  | some .colors => o.set .colors "always".toList
  | some _ => .error .misuse

/-- The letters behind a dash, and the option that still waits for its
value. -/
def readLetters (o : Options) : Text → Except Stop (Options × Option Key)
  | [] => .ok (o, none)
  | c :: rest =>
    match ofLetter? c with
    | none => .error .misuse
    | some (.flag f) => do readLetters (← o.apply f) rest
    | some (.key k) =>
      match rest with
      | [] => .ok (o, some k)
      | '=' :: value => do return (← o.set k value, none)
      | value => do return (← o.set k value, none)

/-- A long option behind its dashes, and whether it still waits for its
value. -/
def readLong (word : Text) : Except Stop (Options × Option Key) := do
  let (name, rest) := word.span (· != '=')
  match ofName? name, rest with
  | some (.key k), _ :: value => return (← o.set k value, none)
  | some (.key k), [] => return (o, some k)
  | some (.flag f), [] => return (← o.apply f, none)
  | _, _ => .error .misuse

/-- The words behind two dashes. -/
def readDirectories (o : Options) : List Text → Except Stop Options
  | [] => .ok o
  | word :: more => do readDirectories (← o.setDirectory word) more

/-- The words behind the command. An option may be waiting for its
value. -/
def readWords (o : Options) (waiting : Option Key) :
    List Text → Except Stop Options
  | [] => o.withoutValue waiting
  | word :: more =>
    match word with
    | ['-', '-'] => do (← o.withoutValue waiting).readDirectories more
    | '-' :: '-' :: name => do
      let (o, waiting) ← (← o.withoutValue waiting).readLong name
      readWords o waiting more
    | '-' :: letter :: letters => do
      let (o, waiting) ← (← o.withoutValue waiting).readLetters (letter
        :: letters)
      readWords o waiting more
    | _ =>
      match waiting with
      | some k => do readWords (← o.set k word) none more
      | none => do readWords (← o.setDirectory word) none more

/-- The options in the words behind the command. A quiet run has no
details. -/
def parse (check : Bool) (words : List Text) : Except Stop Options := do
  let o ← readWords { check } none words
  if o.quiet && 0 < o.verbosity then .error .misuse else .ok o

end Options

namespace Request

/-- The request in the words for help: no word, or one command. -/
def ofHelp : List Text → Except Stop Request
  | [] => .ok .help
  | [command] =>
    if ["check", "update", "help"].any (·.toList == command) then .ok .help
      else .error .misuse
  | _ => .error .misuse

/-- What a word of letters asks for, in front of a command. -/
def ofLetters : Text → Except Stop Request
  | 'h' :: _ => .ok .help
  | 'V' :: _ => .ok .version
  | _ => .error .misuse

/-- What a command line asks for. -/
def parse : List Text → Except Stop Request
  | [] => .error .misuse
  | word :: more =>
    match String.ofList word with
    | "check" => do return .run (← Options.parse true more)
    | "update" => do return .run (← Options.parse false more)
    | "help" => ofHelp more
    | "--help" => .ok .help
    | "--version" => .ok .version
    | _ =>
      match word with
      | '-' :: letters => ofLetters letters
      | _ => .error .misuse

end Request

end CopyrightNotice
