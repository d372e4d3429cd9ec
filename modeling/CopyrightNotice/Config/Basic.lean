/-
A configuration: where the notice is, which directory is looked at, which
marker opts a directory out, and the comment formats of further kinds of
files. A configuration is read from a TOML document and then checked;
what it leaves out has a default.
-/
import CopyrightNotice.Comment.Overrides
import CopyrightNotice.Toml.Document
import CopyrightNotice.Tree.Access

namespace CopyrightNotice

/-- What a configuration says. -/
structure Config where
  noticeFile? : Option Path := none
  defaultDirectory? : Option Path := none
  optOutMarker? : Option Text := none
  formats : List (Text × CommentFormat) := []

/-- What is wrong with a format. -/
inductive FormatProblem where
  | leadingDot
  | noMarker
deriving DecidableEq, Repr

/-- The sentence for a problem. -/
def FormatProblem.message : FormatProblem → String
  | .leadingDot => "extension should not include leading dot"
  | .noMarker => "either line or start must be set"

/-- Why a configuration cannot be used. -/
inductive ConfigFault where
  | unreadable (path : Path) (fault : Fault)
  | malformed (path : Path)
  | badFormat (extension : Text) (problem : FormatProblem)
  | badMarker (marker : Text)
deriving DecidableEq, Repr

namespace ConfigFault

/-- What is said of any document that is no TOML, or not of this form. -/
def malformedMessage : String := "TOML parse error"

/-- The sentence for a fault. -/
def message : ConfigFault → String
  | .unreadable path fault =>
    "Failed to read config file '" ++ path.display ++ "': " ++ fault.message
  | .malformed path =>
    "Failed to parse config file '" ++ path.display ++ "': "
      ++ malformedMessage
  | .badFormat extension problem =>
    "Invalid format for '" ++ String.ofList extension ++ "': "
      ++ problem.message
  | .badMarker marker =>
    "Invalid opt-out marker '" ++ String.ofList marker
      ++ "': must be a file name without separators"

/-- The sentences for a fault and for what brought it about. -/
def chain (fault : ConfigFault) : List String :=
  match fault with
  | .unreadable _ cause => [fault.message, cause.message]
  | .malformed _ => [fault.message, malformedMessage]
  | _ => [fault.message]

end ConfigFault

namespace Config

-- ============================================================ defaults

/-- The notice file, relative to the repository. -/
def noticeFile (c : Config) : Path := c.noticeFile?.getD (Path.ofString "COPY")

/-- The directory that is looked at, relative to the repository. -/
def defaultDirectory (c : Config) : Path :=
  c.defaultDirectory?.getD (Path.ofString ".")

/-- The marker of a run without a configuration. -/
def defaultMarker : Text := "NO_AUTO_COPYRIGHT".toList

/-- The name of the entry that opts a directory out. -/
def optOutMarker (c : Config) : Text := c.optOutMarker?.getD defaultMarker

/-- The configured formats. -/
def overrides (c : Config) : Overrides := ⟨c.formats⟩

-- ============================================================= reading

/-- The text under a key, if there is one; another kind of value is a
fault. -/
def textUnder? (key : String) (ms : Toml.Members) : Option (Option Text) :=
  match ms.lookup key.toList with
  | none => some none
  | some (.string t) => some (some t)
  | some _ => none

/-- The text that a value is. -/
def textOf? : Toml.Value → Option Text
  | .string t => some t
  | _ => none

/-- A format in a document: a table, or the array of its fields in
order. -/
def formatOf? : Toml.Value → Option CommentFormat
  | .table _ ms => do
    return {
      opening := (← textUnder? "start" ms).getD []
      leader := (← textUnder? "line" ms).getD []
      closing := (← textUnder? "end" ms).getD []
      blank := ← textUnder? "empty-line" ms
      preamble := ← textUnder? "skip" ms }
  | .array _ elements => do
    let fields ← (elements.take 5).mapM textOf?
    return {
      opening := fields[0]?.getD []
      leader := fields[1]?.getD []
      closing := fields[2]?.getD []
      blank := fields[3]?
      preamble := fields[4]? }
  | _ => none

/-- The configuration in a document. Keys that mean nothing are passed
over. -/
def ofMembers? (ms : Toml.Members) : Option Config := do
  let formats ← match ms.lookup "formats".toList with
    | none => some []
    | some (.table _ formats) =>
      formats.mapM fun (extension, value) => do return (extension,
        ← formatOf? value)
    | some _ => none
  return {
    noticeFile? := (← textUnder? "notice-file" ms).map Path.ofText
    defaultDirectory? := (← textUnder? "default-directory" ms).map Path.ofText
    optOutMarker? := ← textUnder? "opt-out-marker" ms
    formats }

-- ============================================================ checking

/-- What is wrong with a format and its extension. -/
def formatProblem? (extension : Text) (f : CommentFormat) :
    Option FormatProblem :=
  if extension.head? = some '.' then some .leadingDot
  else if f.leader = [] ∧ f.opening = [] then some .noMarker
  else none

/-- Whether a text can be the name of an entry in any directory. -/
def isEntryName (marker : Text) : Bool :=
  !marker.isEmpty && !marker.contains '/' && !marker.contains '\\'
    && marker != ['.']
    && marker != ['.', '.']

/-- The first fault of a configuration: its formats come before its
marker. -/
def fault? (c : Config) : Option ConfigFault :=
  match c.formats.findSome? fun (extension, f) =>
      (formatProblem? extension f).map (.badFormat extension) with
  | some fault => some fault
  | none =>
    match c.optOutMarker? with
    | some marker => if isEntryName marker then none
        else some (.badMarker marker)
    | none => none

/-- The configuration with its extensions in lowercase. -/
def normalize (c : Config) : Config :=
  { c with formats := c.formats.map fun (extension, f) =>
    (Text.lowercase extension, f) }

/-- The configuration that a document at a path holds. -/
def ofText (path : Path) (t : Text) : Except ConfigFault Config :=
  match Toml.read? t >>= ofMembers? with
  | none => .error (.malformed path)
  | some c =>
    match c.fault? with
    | some fault => .error fault
    | none => .ok c.normalize

/-- The configuration in a file. -/
def read (tree : Tree) (path : Path) : Except ConfigFault Config :=
  match tree.readText path with
  | .error fault => .error (.unreadable path fault)
  | .ok t => ofText path t

end Config

end CopyrightNotice
