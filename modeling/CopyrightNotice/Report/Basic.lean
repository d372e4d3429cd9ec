/-
What a run says about each file, and the counts over all of them.
-/
import CopyrightNotice.Decimal.Exact
import CopyrightNotice.Header.Machine
import CopyrightNotice.Path.Basic

namespace CopyrightNotice

/-- The outcome for one file. -/
inductive FileStatus where
  | compliant
  /-- A check found no header. -/
  | missing
  /-- A check found a stale header. -/
  | outOfDate
  /-- An update put a header in. -/
  | inserted
  /-- An update replaced a stale header. -/
  | replaced
  /-- The file was not looked into. -/
  | skipped
deriving DecidableEq, Repr

namespace FileStatus

/-- All outcomes. -/
def all : List FileStatus :=
  [.compliant, .missing, .outOfDate, .inserted, .replaced, .skipped]

/-- The word for an outcome. -/
def word : FileStatus → String
  | .compliant => "compliant"
  | .missing => "missing"
  | .outOfDate => "out-of-date"
  | .inserted => "inserted"
  | .replaced => "replaced"
  | .skipped => "skipped"

/-- The outcome that a word stands for. -/
def ofWord? (w : Text) : Option FileStatus := all.find? (·.word.toList == w)

/-- The outcome for a header, in a check or in an update. -/
def ofVerdict (check : Bool) : Verdict → FileStatus
  | .current => .compliant
  | .missing => if check then .missing else .inserted
  | .stale => if check then .outOfDate else .replaced

/-- Whether the header was not as it should be. -/
def isNonCompliant : FileStatus → Bool
  | .missing | .outOfDate | .inserted | .replaced => true
  | .compliant | .skipped => false

end FileStatus

/-- The outcome for one file, and why it was skipped. -/
structure FileReport where
  path : Path
  status : FileStatus
  reason : Option Text := none
deriving DecidableEq, Repr

namespace FileReport

/-- The report of a file that was not looked into. -/
def skipped (path : Path) (reason : Text) : FileReport :=
  ⟨path, .skipped, some reason⟩

/-- Whether the file's header was not as it should be. -/
def isNonCompliant (r : FileReport) : Bool := r.status.isNonCompliant

end FileReport

/-- The time a run took, in nanoseconds. -/
structure Elapsed where
  nanos : Nat
deriving DecidableEq, Repr

namespace Elapsed

/-- Nanoseconds in a second. -/
def perSecond : Nat := 1000000000

/-- The time in seconds: the whole seconds, and the rest as a fraction. -/
def seconds (e : Elapsed) : Float :=
  Float.ofNat (e.nanos / perSecond)
    + Float.ofNat (e.nanos % perSecond) / Float.ofNat perSecond

end Elapsed

/-- The counts over the files of a run. -/
structure Summary where
  total : Nat
  compliant : Nat
  missing : Nat
  outOfDate : Nat
  inserted : Nat
  replaced : Nat
  skipped : Nat
  elapsed : Elapsed
  /-- The elapsed time as it is written in a document: the value of a
  double, in seconds. -/
  seconds : Decimal.Exact
  /-- When the run ended, in seconds. -/
  timestamp : Int
deriving DecidableEq, Repr

namespace Summary

/-- The summary of a run's reports. -/
def ofReports (reports : List FileReport) (elapsed : Elapsed)
    (timestamp : Int) : Summary :=
  let count := fun s : FileStatus => reports.countP (·.status == s)
  { total := reports.length
    compliant := count .compliant
    missing := count .missing
    outOfDate := count .outOfDate
    inserted := count .inserted
    replaced := count .replaced
    skipped := count .skipped
    elapsed
    seconds := .ofFloat elapsed.seconds
    timestamp }

/-- How many files failed the check or were updated. -/
def nonCompliant (s : Summary) : Nat :=
  s.missing + s.outOfDate + s.inserted + s.replaced

end Summary

end CopyrightNotice
