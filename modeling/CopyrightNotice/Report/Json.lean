/-
Reports as JSON: what a run writes, and how a single report is read back.

A report is read from an object or from an array of its fields in order.
In an object unknown members are passed over, and none of the known ones
may come twice; a reason may be absent or null.
-/
import CopyrightNotice.Decimal.Shortest
import CopyrightNotice.Json.Printer
import CopyrightNotice.Json.Reader
import CopyrightNotice.Report.Basic

namespace CopyrightNotice

/-- The string of a literal. -/
def Json.ofString (s : String) : Json := .ofText s.toList

/-- Members with literal names. -/
def Json.record (members : List (String × Json)) : Json :=
  .object (members.map fun (key, value) => (Json.escape key.toList, value))

namespace FileReport

/-- The report as a member of a document. -/
def toJson (r : FileReport) : Json :=
  .record <|
    [("path", .ofText (Utf8.display r.path.bytes)),
    ("status", .ofString r.status.word)]
      ++ match r.reason with
        | some reason => [("ignored_reason", Json.ofText reason)]
        | none => []

/-- The outcome in a document: its word, or an object with the word for
its only member and nothing in it. -/
def statusOf? : Json → Option FileStatus
  | .object [(key, .null)] => do FileStatus.ofWord? (← Json.unescape? key)
  | value => do FileStatus.ofWord? (← value.text?)

/-- The reason in a document. -/
def reasonOf? : Json → Option (Option Text)
  | .null => some none
  | value => do return some (← value.text?)

/-- The report of its fields. -/
def ofFields? (path status : Json) (reason : Option Json) :
    Option FileReport := do
  let path ← path.text?
  let status ← statusOf? status
  let reason ← match reason with
    | some value => reasonOf? value
    | none => some none
  return { path := Path.ofText path, status, reason }

/-- The values of the members of one name. -/
def valuesOf (key : String) (members : List (Text × Json)) : List Json :=
  (members.filter (·.1 == key.toList)).map Prod.snd

/-- The report in a document. -/
def ofJson? : Json → Option FileReport
  | .array [path, status] => ofFields? path status none
  | .array [path, status, reason] => ofFields? path status (some reason)
  | .object members => do
    let named ← members.mapM fun (key, value) =>
      do return (← Json.unescape? key, value)
    match valuesOf "path" named, valuesOf "status" named,
    valuesOf "ignored_reason" named with
    | [path], [status], [] => ofFields? path status none
    | [path], [status], [reason] => ofFields? path status (some reason)
    | _, _, _ => none
  | _ => none

/-- The report that a text holds. -/
def read? (t : Text) : Option FileReport := do ofJson? (← Json.read? t)

end FileReport

namespace Summary

/-- The summary as a member of a document. -/
def toJson (s : Summary) : Json :=
  .record
    [("total_files", .ofNat s.total),
     ("compliant", .ofNat s.compliant),
     ("missing", .ofNat s.missing),
     ("out_of_date", .ofNat s.outOfDate),
     ("inserted", .ofNat s.inserted),
     ("replaced", .ofNat s.replaced),
     ("skipped", .ofNat s.skipped),
     ("processing_time_seconds", .number (Decimal.render s.seconds)),
     ("timestamp", .ofInt s.timestamp)]

end Summary

/-- The document of a run: its summary and the reports in order. -/
def reportDocument (reports : List FileReport) (summary : Summary) : Json :=
  .record [("summary", summary.toJson),
    ("files", .array (reports.map FileReport.toJson))]

/-- The text of a run's report. -/
def renderReport (reports : List FileReport) (summary : Summary) : Text :=
  (reportDocument reports summary).render

end CopyrightNotice
