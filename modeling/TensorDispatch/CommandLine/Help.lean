import TensorDispatch.Text.Paint

/-!
# Help

The pages that describe the program and its commands. A **page** says what a command is for and
how it is called, and lists what may follow it, section by section. Within a section the
explanations stand in one column, behind the widest **label**.
-/

namespace TensorDispatch.CommandLine

open Text

/-- A run of text in the same tints. -/
structure Span where
  text : String
  tints : List Tint := []
  deriving DecidableEq, Repr

namespace Span

/-- A text as it is. -/
def plain (text : String) : Span := { text := text }

/-- A text to be typed as it stands. -/
def typed (text : String) : Span := { text := text, tints := [.bold] }

/-- The title of a section. -/
def title (text : String) : Span := { text := text, tints := [.bold, .underlined] }

/-- The text of a span, in its tints if colours are shown. -/
def render (coloured : Bool) (s : Span) : String := paint coloured s.tints s.text

end Span

/-- The text of spans in a row. -/
def renderSpans (coloured : Bool) (spans : List Span) : String :=
  String.join (spans.map (Span.render coloured))

/-- One line of a section. -/
structure Entry where
  label : List Span
  about : String
  deriving DecidableEq, Repr

namespace Entry

/-- The number of characters of a label. -/
def width (e : Entry) : Nat := e.label.foldl (fun n s => n + s.text.length) 0

/-- The line of an entry, its explanation `column` characters behind the start of the label. -/
def line (coloured : Bool) (column : Nat) (e : Entry) : String :=
  "  " ++ renderSpans coloured e.label ++ String.ofList (List.replicate (column - e.width) ' ')
    ++ e.about

end Entry

/-- A list of things that may be typed, under a title. -/
structure HelpSection where
  title : String
  entries : List Entry
  deriving DecidableEq, Repr

/-- The lines of a section. -/
def HelpSection.lines (coloured : Bool) (s : HelpSection) : List String :=
  let column := (s.entries.map Entry.width).foldl max 0 + 2
  (Span.title s.title).render coloured :: s.entries.map (Entry.line coloured column)

/-- The description of a command. -/
structure HelpPage where
  about : String
  usage : List Span
  sections : List HelpSection
  deriving DecidableEq, Repr

/-- The lines of a page. -/
def HelpPage.lines (coloured : Bool) (page : HelpPage) : List String :=
  page.about :: "" :: renderSpans coloured (.title "Usage:" :: .plain " " :: page.usage)
    :: page.sections.flatMap fun s => "" :: s.lines coloured

/-! ### Entries -/

/-- The entry of a command. -/
def commandEntry (name about : String) : Entry := { label := [.typed name], about := about }

/-- The entry of a positional value. -/
def valueEntry (placeholder about : String) : Entry :=
  { label := [.plain placeholder], about := about }

/-- The label of an option: its short form, if it has one, and its long form. -/
def optionLabel (short : Option Char) (name : String) : List Span :=
  match short with
  | some c => [.typed ("-" ++ c.toString), .plain ", ", .typed ("--" ++ name)]
  | none => [.plain "    ", .typed ("--" ++ name)]

/-- The entry of an option that takes no value. -/
def flagEntry (short : Char) (name about : String) : Entry :=
  { label := optionLabel (some short) name, about := about }

/-- The entry of an option with a value. -/
def optionEntry (short : Option Char) (name placeholder about : String) : Entry :=
  { label := optionLabel short name ++ [.plain (" " ++ placeholder)], about := about }

/-- The entry of the option for help. -/
def helpEntry : Entry := flagEntry 'h' "help" "Print help"

/-! ### Pages -/

/-- The name of the program. -/
def programName : String := "stagequeue"

/-- The name and the version of the program. -/
def versionLine : String := programName ++ " 0.1.0"

/-- What a rehearsal is for. -/
def replayAbout : String :=
  "Drive one dispatcher through synthetic iterations and print the emission order"

/-- What a check is for. -/
def checkAbout : String := "Validate a config file"

/-- What the command for help is for. -/
def helpAbout : String := "Print this message or the help of the given subcommand(s)"

/-- The description of the program. -/
def programHelp : HelpPage where
  about := "Replay a per-stage dispatcher against synthetic tensors"
  usage := [.typed programName, .plain " [OPTIONS] <COMMAND>"]
  sections := [
    { title := "Commands:"
      entries := [
        commandEntry "replay" replayAbout,
        commandEntry "check" checkAbout,
        commandEntry "help" helpAbout] },
    { title := "Options:"
      entries := [
        optionEntry (some 'c') "config" "<CONFIG>" "Path to config file",
        flagEntry 'v' "verbose" "Enable debug logging",
        helpEntry,
        flagEntry 'V' "version" "Print version"] }]

/-- The description of a rehearsal. -/
def replayHelp : HelpPage where
  about := replayAbout
  usage := [.typed (programName ++ " replay"), .plain " [OPTIONS]"]
  sections := [
    { title := "Options:"
      entries := [
        optionEntry (some 's') "stage" "<STAGE>"
          "Pipeline stage to instantiate [default: push]",
        optionEntry (some 'i') "iterations" "<ITERATIONS>"
          "Training iterations to replay [default: 1]",
        optionEntry (some 'p') "partitions" "<PARTITIONS>"
          "Partitions per tensor [default: 1]",
        optionEntry (some 'l') "len" "<LEN>" "Bytes per partition [default: 1024]",
        optionEntry (some 'd') "depth" "<DEPTH>"
          "Dispatched tasks kept in flight [default: 2]",
        optionEntry none "seed" "<SEED>" "Seed for the submission shuffle [default: 0]",
        optionEntry (some 't') "tensors" "<TENSORS>"
          "Tensor count when the config has no schedule [default: 8]",
        optionEntry (some 'f') "format" "<FORMAT>"
          "Output format [default: text] [possible values: text, json]",
        helpEntry] }]

/-- The description of a check. -/
def checkHelp : HelpPage where
  about := checkAbout
  usage := [.typed (programName ++ " check"), .plain " <PATH>"]
  sections := [
    { title := "Arguments:", entries := [valueEntry "<PATH>" "Config file to validate"] },
    { title := "Options:", entries := [helpEntry] }]

/-- The description of the command for help. -/
def helpHelp : HelpPage where
  about := helpAbout
  usage := [.typed (programName ++ " help"), .plain " [COMMAND]..."]
  sections := [
    { title := "Arguments:"
      entries := [valueEntry "[COMMAND]..." "Print help for the subcommand(s)"] }]

/-- The description of a command. -/
def helpOn : List String → HelpPage
  | ["replay"] => replayHelp
  | ["check"] => checkHelp
  | ["help"] => helpHelp
  | _ => programHelp

end TensorDispatch.CommandLine
