/-
How a run speaks: which of its events are printed, where, and in what
colours. A quiet run prints on standard output the paths of failing
files and nothing else.
-/
import CopyrightNotice.Console.Event
import CopyrightNotice.Decimal.Exact

namespace CopyrightNotice

/-- How much a run prints. -/
inductive Mode where
  | normal
  | quiet
  | verbose
deriving DecidableEq, Repr

/-- The style of a piece of output. -/
inductive Paint where
  | red
  | green
  | yellow
  | cyan
  | dimmed
deriving DecidableEq, Repr

namespace Paint

/-- The terminal code that starts a style. -/
def on : Paint → String
  | .red => "\x1b[31m"
  | .green => "\x1b[32m"
  | .yellow => "\x1b[33m"
  | .cyan => "\x1b[36m"
  | .dimmed => "\x1b[2m"

/-- The terminal code that ends a style. -/
def off : Paint → String
  | .dimmed => "\x1b[0m"
  | _ => "\x1b[39m"

end Paint

/-- How a run speaks. -/
structure Voice where
  mode : Mode := .normal
  colored : Bool := false
  log : LogFilter := LogFilter.silent

namespace Voice

/-- The sign of a file that is as it should be, or now is. -/
def success : String := "\u2713"

/-- The sign of a file without a header. -/
def failure : String := "\u2717"

/-- The sign of a file with a stale header. -/
def stale : String := "\u21bb"

variable (v : Voice)

/-- A piece of output in a style, if there are colours. -/
def paint (p : Paint) (s : String) : String :=
  if v.colored then p.on ++ s ++ p.off else s

/-- A count that should be zero. -/
def badCount (n : Nat) : String :=
  v.paint (if 0 < n then .red else .cyan) (toString n)

/-- The line for the outcome of a file, if there is one. -/
def statusLine? (path : Path) : FileStatus → Option String
  | .missing => some (v.paint .red failure ++ " " ++ path.display
      ++ ": copyright header missing")
  | .outOfDate =>
    some (v.paint .yellow stale ++ " " ++ path.display
      ++ ": copyright header out-of-date")
  | .inserted | .replaced =>
    some (v.paint .green success ++ " " ++ path.display
      ++ ": copyright header missing or out-of-date, updating.")
  | .compliant =>
    if v.mode = .verbose
      then some (v.paint .green success ++ " " ++ path.display) else none
  | .skipped => none

/-- The line for the counts. -/
def summaryLine (s : Summary) (check : Bool) : String :=
  let ok := v.paint .cyan (toString s.compliant)
  let skipped := v.paint .dimmed (toString s.skipped)
  let counts :=
    if check then
      v.badCount s.missing ++ " missing, " ++ v.badCount s.outOfDate
      ++ " out-of-date, "
    else toString s.inserted ++ " inserted, " ++ toString s.replaced
      ++ " replaced, "
  let line := "Summary: " ++ ok ++ " OK, " ++ counts ++ skipped ++ " skipped"
  if v.mode = .verbose then
    let seconds := Decimal.twoPlaces (Decimal.Exact.ofFloat s.elapsed.seconds)
    line ++ " (" ++ String.ofList seconds ++ "s)"
  else line

/-- What a run that is not quiet prints on standard output. -/
def stdoutLine? : Event → Option String
  | .start count check =>
    let verb := if check then "Checking" else "Updating"
    let files := if count = 1 then "file" else "files"
    some s!"{verb} {count} {files}..."
  | .blank => some ""
  | .mismatch path m =>
    some (path.display ++ ": notice text mismatch:\n  actual  : "
      ++ v.paint .red (String.ofList m.actual) ++ "\n  expected: "
      ++ v.paint .green (String.ofList m.expected))
  | .status path status => v.statusLine? path status
  | .allOk => some (v.paint .green success
      ++ " All files have up-to-date copyright headers.")
  | .summary s check => some (v.summaryLine s check)
  | .hint =>
    some (v.paint .yellow
      ("Copyright header check failed.\n"
        ++ "Please update copyright headers by running "
        ++ "'notice-headers update'"))
  | .info text => some (v.paint .yellow text)
  | _ => none

/-- What a quiet run prints on standard output. -/
def quietLine? : Event → Option String
  | .status path .missing | .status path .outOfDate => some path.display
  | _ => none

/-- An event on standard output. -/
def stdout (e : Event) : String :=
  match if v.mode = .quiet then quietLine? e else v.stdoutLine? e with
  | some line => line ++ "\n"
  | none => ""

/-- An event on standard error. -/
def stderr : Event → String
  | .detail text => if v.mode = .verbose then text ++ "\n" else ""
  | .warning text => text ++ "\n"
  | .preview text => String.ofList text
  | .log r => if v.log.shows r then r.line else ""
  | _ => ""

/-- All events on standard output. -/
def allStdout (events : List Event) : String :=
  String.join (events.map v.stdout)

/-- All events on standard error. -/
def allStderr (events : List Event) : String :=
  String.join (events.map v.stderr)

end Voice

end CopyrightNotice
