/-
The log: records of what a run does, for whoever wants to look into it.
Each record has a level and a topic, and a filter decides which records
are shown.

# Filters

A filter is a list of rules, written with commas between them. A rule
names a topic and the least level shown for it, `topic=level`, or one of
the two: a level alone is for all topics, a topic alone shows everything
about it. Topics are named by their beginnings, and for a record the rule
with the longest matching name decides. A rule may be bound to a span or
to fields, `topic[span{field}]=level`; there are no spans here, and the
only field of a record is its message.
-/
import CopyrightNotice.Text.Basic

namespace CopyrightNotice

/-- How much a record matters, the weightiest first. -/
inductive Level where
  | error
  | warn
  | info
  | debug
  | trace
deriving DecidableEq, Repr

namespace Level

/-- The place of a level, from one. -/
def rank : Level → Nat
  | .error => 1
  | .warn => 2
  | .info => 3
  | .debug => 4
  | .trace => 5

/-- The word for a level, five characters wide. -/
def label : Level → String
  | .error => "ERROR"
  | .warn => " WARN"
  | .info => " INFO"
  | .debug => "DEBUG"
  | .trace => "TRACE"

end Level

/-- What a record is about. -/
inductive Topic where
  | command
  | notice
  | listing
  | optOut
  | processing
deriving DecidableEq, Repr

/-- The name of a topic in filters. -/
def Topic.name : Topic → String
  | .command => "notice_headers::cli::run"
  | .notice => "notice_headers::notice"
  | .listing => "notice_headers::git"
  | .optOut => "notice_headers::opt_out"
  | .processing => "notice_headers::processor"

/-- A record of the log. -/
structure Record where
  level : Level
  topic : Topic
  message : String
deriving DecidableEq, Repr

namespace Record

/-- A character of a message as it is shown: those that could steer a
terminal are spelled out. -/
def showChar (c : Char) : Text :=
  let n := c.toNat
  let hex := (Nat.toDigits 16 n)
  if n == 0x1B || n == 0x7F then '\\' :: 'x' :: hex
  else if n == 0x07 || n == 0x08 || n == 0x0C then '\\' :: 'x' :: '0' :: hex
  else if 0x80 ≤ n && n ≤ 0x9F then '\\' :: 'u' :: '\x7b' :: hex ++ ['\x7d']
  else [c]

/-- The line for a record. -/
def line (r : Record) : String :=
  r.level.label ++ " " ++ String.ofList (r.message.toList.flatMap showChar)
    ++ "\n"

end Record

-- ============================================================= filters

/-- A rule of a filter: the beginning of the topics it is about, and the
rank of the least level shown, zero for none. -/
structure LogRule where
  topic : Option Text
  rank : Nat
  /-- Whether the rule is bound to a span or to the value of a field. -/
  bound : Bool := false
  /-- The fields that a record has to have. -/
  fields : List Text := []
deriving DecidableEq, Repr

/-- The rules of a log. -/
abbrev LogFilter := List LogRule

namespace LogRule

/-- Whether a rule is about a record of the topic. -/
def covers (rule : LogRule) (t : Topic) : Bool :=
  !rule.bound && rule.fields.all (· == "message".toList) &&
    match rule.topic with
    | some front => front.isPrefixOf t.name.toList
    | none => true

/-- How narrow a rule is: the length of its topic, if it has one, then
its fields. -/
def narrowness (rule : LogRule) : Nat × Nat :=
  (match rule.topic with
   | some front => (String.ofList front).utf8ByteSize + 1
   | none => 0,
   rule.fields.length)

/-- Whether a rule goes before another one that is about the same
record; of two alike the later one does. -/
def outranks (later earlier : LogRule) : Bool :=
  let (l, m) := later.narrowness
  let (l', m') := earlier.narrowness
  l' < l || (l' == l && m' ≤ m)

/-- The rank that a word or a digit names. -/
def rankOf? (word : Text) : Option Nat :=
  let digits := match word with
    | '+' :: rest => rest
    | _ => word
  if !digits.isEmpty && digits.all Char.isDigit then
    let n := Nat.ofDigitChars 10 digits 0
    if n ≤ 5 then some n else none
  else match (String.ofList word).toLower with
    | "off" => some 0
    | "error" => some 1
    | "warn" => some 2
    | "info" => some 3
    | "debug" => some 4
    | "trace" => some 5
    | _ => none

/-- The characters a rule may start with, a bracket apart: those of
names. -/
def startsName (c : Char) : Bool :=
  c.isAlphanum || c == '-' || c == ':' || c == '_' || 0x80 ≤ c.toNat

/-- The rule with the level behind an equals sign; none there means
everything. -/
def withLevel? (rule : LogRule) (word : Text) : Option LogRule :=
  if word = [] then some rule else (rankOf? word).map fun rank =>
    { rule with rank }

/-- The rest of a rule behind the bracket that closes its span. -/
def afterSpan? (rule : LogRule) : Text → Option LogRule
  | [] => some rule
  | '=' :: word => withLevel? rule word
  | _ => none

/-- The text in front of the first of the given characters, that
character, and the text behind it. -/
def cut? (stops : List Char) (t : Text) : Option (Text × Char × Text) :=
  match t.span (!stops.contains ·) with
  | (front, stop :: rest) => some (front, stop, rest)
  | (_, []) => none

/-- The rest of a rule behind the bracket that opens its span. -/
def ofSpan? (rule : LogRule) (t : Text) : Option LogRule := do
  let (span, stop, rest) ← cut? [']', '\x7b'] t
  if stop = ']' then afterSpan? { rule with bound := true } rest
  else
    let (field, _, rest) ← cut? ['\x7d'] rest
    if field = [] then none
    else match rest with
      | ']' :: rest =>
        let bound := !span.isEmpty || field.contains '='
        afterSpan? { rule with bound, fields := [field] } rest
      | _ => none

/-- The rule that a text spells, if it is one. -/
def parse? (written : Text) : Option LogRule :=
  match Text.trim written with
  | '[' :: rest => ofSpan? ⟨none, Level.trace.rank, false, []⟩ rest
  | [] => none
  | c :: more =>
    if !startsName c then none
    else
      let t := c :: more
      match cut? ['=', '['] t with
      | some (topic, '=', word) =>
          withLevel? ⟨some topic, Level.trace.rank, false, []⟩ word
      | some (topic, _, rest) =>
          ofSpan? ⟨some topic, Level.trace.rank, false, []⟩ rest
      | none =>
        match rankOf? t with
        | some rank => some ⟨none, rank, false, []⟩
        | none => some ⟨some t, Level.trace.rank, false, []⟩

end LogRule

namespace LogFilter

/-- The filter that shows records of a level and above. -/
def atLeast (level : Level) : LogFilter := [⟨none, level.rank, false, []⟩]

/-- The filter that shows nothing. -/
def silent : LogFilter := []

/-- The texts between commas. -/
def splitRules : Text → List Text
  | [] => [[]]
  | ',' :: rest => [] :: splitRules rest
  | c :: rest =>
    match splitRules rest with
    | [] => [[c]]
    | rule :: more => (c :: rule) :: more

/-- The filter that a text spells, if all its rules are well formed. -/
def parse? (written : Text) : Option LogFilter :=
  ((splitRules written).filter (!·.isEmpty)).mapM LogRule.parse?

/-- The narrowest rule about a topic; of two alike the later one. -/
def ruleFor? (f : LogFilter) (t : Topic) : Option LogRule :=
  (f.filter (·.covers t)).foldl
    (fun best rule =>
      match best with
      | none => some rule
      | some b => if rule.outranks b then some rule else some b)
    none

/-- Whether a record is shown. -/
def shows (f : LogFilter) (r : Record) : Bool :=
  match ruleFor? f r.topic with
  | some rule => r.level.rank ≤ rule.rank
  | none => false

end LogFilter

end CopyrightNotice
