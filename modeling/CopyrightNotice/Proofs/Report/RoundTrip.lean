/-
A report, read back.

The text of a report holds the document that it was made of, for the
document's numbers and strings are well written (`printable_reportDocument`).
A member is found in a record by its name, and what is found there is read
by the rules for a single report, which undo `FileReport.toJson` for paths
that are text: any other path is written with marks in the place of its
bad bytes.

The main statement: from the text come the reports in order and what the
summary counted (`report_loses_nothing`).
-/
import CopyrightNotice.Proofs.Json.RoundTrip
import CopyrightNotice.Proofs.Text.Utf8
import CopyrightNotice.Report.Json

namespace CopyrightNotice

-- ============================================================= reading

namespace Json

/-- The value of the member with the name, if there is one such member. -/
def member? (name : String) : Json → Option Json
  | .object members => do
    let named ← members.mapM fun (key, value) =>
      do return (← unescape? key, value)
    match FileReport.valuesOf name named with
    | [value] => some value
    | _ => none
  | _ => none

/-- The elements of an array. -/
def elements? : Json → Option (List Json)
  | .array elements => some elements
  | _ => none

/-- The number that digits stand for. -/
def nat? : Json → Option Nat
  | .number digits =>
    if digits.all Char.isDigit then some (Nat.ofDigitChars 10 digits 0)
      else none
  | _ => none

/-- The whole number that digits stand for, with a sign or without. -/
def int? : Json → Option Int
  | .number ('-' :: digits) => (nat? (.number digits)).map fun n => -(n : Int)
  | value => (nat? value).map Int.ofNat

end Json

/-- What a summary says of a run, but for the time the run took. -/
structure Counts where
  total : Nat
  compliant : Nat
  missing : Nat
  outOfDate : Nat
  inserted : Nat
  replaced : Nat
  skipped : Nat
  timestamp : Int
deriving DecidableEq, Repr

/-- The counts of a summary. -/
def Summary.counts (s : Summary) : Counts where
  total := s.total
  compliant := s.compliant
  missing := s.missing
  outOfDate := s.outOfDate
  inserted := s.inserted
  replaced := s.replaced
  skipped := s.skipped
  timestamp := s.timestamp

/-- The counts in the summary of a document. -/
def Counts.ofJson? (summary : Json) : Option Counts := do
  return {
    total := ← (← summary.member? "total_files").nat?
    compliant := ← (← summary.member? "compliant").nat?
    missing := ← (← summary.member? "missing").nat?
    outOfDate := ← (← summary.member? "out_of_date").nat?
    inserted := ← (← summary.member? "inserted").nat?
    replaced := ← (← summary.member? "replaced").nat?
    skipped := ← (← summary.member? "skipped").nat?
    timestamp := ← (← summary.member? "timestamp").int? }

/-- The reports that a text holds, and the counts over them. -/
def readReport? (t : Text) : Option (Counts × List FileReport) := do
  let document ← Json.read? t
  let counts ← Counts.ofJson? (← document.member? "summary")
  let reports ← (← (← document.member? "files").elements?).mapM
    FileReport.ofJson?
  return (counts, reports)

-- ============================================================= records

namespace Json

@[simp] theorem text?_ofText (t : Text) : (ofText t).text? = some t :=
  unescape?_escape t

/-- A natural number is read from its digits. -/
@[simp] theorem nat?_ofNat (n : Nat) : (ofNat n).nat? = some n := by
  have hdigits : (Text.ofNat n).all Char.isDigit = true :=
    List.all_eq_true.2 (isDigits_ofNat n).isDigit
  rw [ofNat, nat?, if_pos hdigits, Text.ofNat, Nat.ofDigitChars_ten_toDigits]

/-- An integer is read from its sign and digits. -/
@[simp] theorem int?_ofInt (i : Int) : (ofInt i).int? = some i := by
  cases i with
  | ofNat n =>
    obtain ⟨d, ds, e, hd⟩ := (isDigits_ofNat n).exists_cons
    have hsign : d ≠ '-' := ne_of_isDigit hd (by decide)
    have hread := nat?_ofNat n
    rw [ofNat, e] at hread
    rw [ofInt, Text.ofInt, e]
    simp [int?, hsign, hread]
  | negSucc n =>
    have hread := nat?_ofNat (n + 1)
    rw [ofNat] at hread
    simp [ofInt, Text.ofInt, int?, hread, Int.negSucc_eq]

/-- The names of a record are read as they were given. -/
theorem mapM_unescape?_record (members : List (String × Json)) :
    ((members.map fun (key, value) => (escape key.toList, value)).mapM
        fun (key, value) => do return (← unescape? key, value))
      = some (members.map fun (key, value) => (key.toList, value)) := by
  induction members with
  | nil => rfl
  | cons member members ih =>
    obtain ⟨key, value⟩ := member
    rw [List.map_cons, List.mapM_cons, ih]
    dsimp only
    rw [unescape?_escape]
    rfl

/-- The values under a name are those of the members with this name. -/
theorem valuesOf_map (name : String) (members : List (String × Json)) :
    FileReport.valuesOf name
        (members.map fun (key, value) => (key.toList, value))
      = (members.filter (·.1 == name)).map Prod.snd := by
  have hname (key : String) : (key.toList == name.toList) = (key == name) := by
    rw [Bool.eq_iff_iff, beq_iff_eq, beq_iff_eq, String.toList_inj]
  simp [FileReport.valuesOf, List.filter_map, Function.comp_def, hname]

/-- A member of a record is found by its name. -/
theorem member?_record (name : String) (members : List (String × Json)) :
    (record members).member? name
      = match (members.filter (·.1 == name)).map Prod.snd with
        | [value] => some value
        | _ => none := by
  rw [record, member?, mapM_unescape?_record]
  simp only [Option.bind_eq_bind, Option.bind_some, valuesOf_map]

/-- A record of what can be printed can be printed. -/
theorem printable_record {members : List (String × Json)}
    (h : ∀ m ∈ members, Printable m.2) : Printable (record members) := by
  refine .object (fun m hm => ?_) (fun m hm => ?_)
  · obtain ⟨⟨key, value⟩, -, rfl⟩ := List.mem_map.1 hm
    exact isInside_escape key.toList
  · obtain ⟨member, hmember, rfl⟩ := List.mem_map.1 hm
    exact h member hmember

theorem printable_ofText (t : Text) : Printable (ofText t) :=
  .string (isInside_escape t)

private theorem printable_ofNat (n : Nat) : Printable (ofNat n) :=
  .number (isNumeral_ofNat n)

private theorem printable_ofInt (i : Int) : Printable (ofInt i) :=
  .number (isNumeral_ofInt i)

end Json

-- ============================================================= reports

/-- A status is read from its word: no two have the same one. -/
private theorem FileStatus.ofWord?_word (s : FileStatus) :
    FileStatus.ofWord? s.word.toList = some s := by
  cases s <;> rfl

namespace FileReport

/-- A word is no object: it is read as it is. -/
theorem statusOf?_ofString (s : FileStatus) :
    statusOf? (.ofString s.word) = some s := by
  change (Json.ofText s.word.toList).text?.bind FileStatus.ofWord? = some s
  rw [Json.text?_ofText, Option.bind_some, FileStatus.ofWord?_word]

/-- A reason is read from its text. -/
private theorem reasonOf?_ofText (reason : Text) :
    reasonOf? (.ofText reason) = some (some reason) := by
  change (Json.ofText reason).text?.bind _ = _
  rw [Json.text?_ofText]
  rfl

/-- The report on a file can be printed. -/
theorem printable_toJson (r : FileReport) : Json.Printable r.toJson := by
  refine Json.printable_record (List.forall_mem_append.2 ⟨?_, ?_⟩)
  · simp [Json.printable_ofText, Json.ofString]
  · cases r.reason <;> simp [Json.printable_ofText]

/-- A report whose path is text is read back. -/
theorem ofJson?_toJson {r : FileReport} (h : Utf8.isText r.path.bytes = true) :
    ofJson? r.toJson = some r := by
  obtain ⟨path, status, reason⟩ := r
  have hpath : Path.ofText (Utf8.display path.bytes) = path := by
    rw [Path.ofText, Utf8.encode_display h]
  rw [toJson, Json.record, ofJson?, Json.mapM_unescape?_record]
  simp only [Option.bind_eq_bind, Option.bind_some, Json.valuesOf_map]
  cases reason with
  | none => simp [ofFields?, statusOf?_ofString, hpath]
  | some reason =>
      simp [ofFields?, statusOf?_ofString, hpath, reasonOf?_ofText]

/-- No other path can be read back: a byte that is no text is written as
the mark for it. -/
example :
    toJson ⟨⟨[0xFF]⟩, .compliant, none⟩
      = toJson ⟨.ofString "\uFFFD", .compliant, none⟩ := by
  cbv

/-- The reports of a document are read back, in order. -/
private theorem mapM_ofJson?_toJson {reports : List FileReport}
    (h : ∀ r ∈ reports, Utf8.isText r.path.bytes = true) :
    (reports.map toJson).mapM ofJson? = some reports := by
  induction reports with
  | nil => rfl
  | cons r reports ih =>
    rw [List.map_cons, List.mapM_cons, ofJson?_toJson (h r List.mem_cons_self),
      ih fun r' hr' => h r' (List.mem_cons_of_mem _ hr')]
    rfl

end FileReport

-- ======================================================== the document

/-- A summary can be printed. -/
theorem Summary.printable_toJson (s : Summary) : Json.Printable s.toJson := by
  have htime := Json.Printable.number (Decimal.isNumeral_render s.seconds)
  refine Json.printable_record ?_
  simp [Json.printable_ofNat, Json.printable_ofInt, htime]

/-- The counts are found in a summary by their names. -/
theorem Counts.ofJson?_toJson (s : Summary) :
    Counts.ofJson? s.toJson = some s.counts := by
  simp [Counts.ofJson?, Summary.toJson, Summary.counts, Json.member?_record]

/-- So can the whole document. -/
private theorem printable_reportDocument (reports : List FileReport)
    (summary : Summary) : Json.Printable (reportDocument reports summary) := by
  have hfiles : Json.Printable (.array (reports.map FileReport.toJson)) := by
    refine .array fun e he => ?_
    obtain ⟨r, -, rfl⟩ := List.mem_map.1 he
    exact r.printable_toJson
  refine Json.printable_record ?_
  simp [summary.printable_toJson, hfiles]

/-- The text of a report says what was reported of every file, in order,
and what was counted. -/
theorem readReport?_renderReport {reports : List FileReport}
    (summary : Summary) (h : ∀ r ∈ reports, Utf8.isText r.path.bytes = true) :
    readReport? (renderReport reports summary)
      = some (summary.counts, reports) := by
  rw [readReport?, renderReport,
    Json.read?_render (printable_reportDocument reports summary)]
  simp [reportDocument, Json.member?_record, Json.elements?,
    Counts.ofJson?_toJson, FileReport.mapM_ofJson?_toJson h]

/-- The report loses nothing of reports on paths that are text: its text is
read as the same reports in the same order, and its summary carries the
counts and the timestamp. So two lists of reports have different texts,
whatever their summaries are. -/
theorem report_loses_nothing (reports : List FileReport) (summary : Summary)
    (h : ∀ r ∈ reports, Utf8.isText r.path.bytes = true) :
    readReport? (renderReport reports summary) = some (summary.counts, reports)
      ∧ ∀ (others : List FileReport) (summary' : Summary),
        (∀ r ∈ others, Utf8.isText r.path.bytes = true) → others ≠ reports →
          renderReport others summary' ≠ renderReport reports summary := by
  refine ⟨readReport?_renderReport summary h, fun others summary' h' hne e =>
    hne ?_⟩
  have hread := readReport?_renderReport summary' h'
  rw [e, readReport?_renderReport summary h] at hread
  exact (congrArg Prod.snd (Option.some.inj hread)).symm

/-- A path with a quote and a line break in it, and one with a letter of
two bytes, whose report has a reason with a backslash. -/
theorem report_loses_nothing_of_two :
    let reports : List FileReport :=
      [⟨.ofString "a\"b\n.rs", .outOfDate, none⟩,
        .skipped (.ofString "é.rs") "C:\\".toList]
    let summary := Summary.ofReports reports ⟨0⟩ 1700000000
    readReport? (renderReport reports summary)
      = some (⟨2, 0, 0, 1, 0, 0, 1, 1700000000⟩, reports)
      ∧ renderReport reports.reverse summary
      ≠ renderReport reports summary := by
  intro reports summary
  have htext : ∀ r ∈ reports, Utf8.isText r.path.bytes = true := by
    simp [reports, FileReport.skipped, Path.ofString, Path.ofText,
      Utf8.isText_encode]
  have h := report_loses_nothing reports summary htext
  exact ⟨h.1, h.2 reports.reverse summary (by simpa using htext) (by decide)⟩

end CopyrightNotice
