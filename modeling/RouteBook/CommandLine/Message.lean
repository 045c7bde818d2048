import RouteBook.CommandLine.Basic

/-! The texts of a command: its help, short or in detail, and the messages for command lines that are not
run. -/

namespace RouteBook.CommandLine

/-- Spaces up to a width. -/
def pad (width : Nat) (text : String) : String :=
  text ++ String.ofList (List.replicate (width - text.length) ' ')

/-- The spellings of a flag in help texts. -/
def spelling (short : Option Char) (long : String) : String :=
  (match short with
    | some c => "  -" ++ c.toString ++ ", "
    | none => "      ") ++ long

namespace Command

/-- Some flag has more to tell than fits on a line. -/
def detailed (command : Command) : Bool := command.flags.any fun flag => flag.words ≠ []

def usageLine (command : Command) : String := "Usage: " ++ command.name ++ " [OPTIONS]"

/-- Where the value of a flag comes from when it is not given. -/
def sources (environment : Environment) (flag : Flag) : List String :=
  (flag.standIn?.map fun name =>
      "[env: " ++ name ++ "=" ++ ((environment.lookup name).map lossy).getD "" ++ "]").toList ++
    (flag.default?.map fun value => "[default: " ++ value ++ "]").toList

/-- The flags of the command and the two that every command has: spelling, help, remarks and words. -/
def entries (command : Command) (environment : Environment) (long : Bool) :
    List (Option Char × String × String × List String × List (String × String)) :=
  let helpText :=
    if !command.detailed then "Print help"
    else if long then "Print help (see a summary with '-h')"
    else "Print help (see more with '--help')"
  (command.flags.map fun flag =>
      (flag.short, flag.usage, flag.help, sources environment flag,
        match flag.values with
        | .choice words => words
        | _ => [])) ++
    [(some 'h', "--help", helpText, [], []), (some 'V', "--version", "Print version", [], [])]

/-- One line for each flag. -/
def briefHelp (command : Command) (environment : Environment) : List String :=
  let all := command.entries environment false
  let width := (all.map fun (_, long, _) => long.length).foldl max 0
  all.map fun (short, long, help, remarks, words) =>
    let choice :=
      if words = [] then []
      else ["[possible values: " ++ String.intercalate ", " (words.map Prod.fst) ++ "]"]
    spelling short (pad width long) ++ "  " ++ String.intercalate " " (help :: remarks ++ choice)

def indent : String := "          "

/-- A paragraph for each flag. -/
def detailedHelp (command : Command) (environment : Environment) : List String :=
  let paragraphs := (command.entries environment true).map fun (short, long, help, remarks, words) =>
    let width := (words.map fun (word, _) => word.length).foldl max 0
    [spelling short long, indent ++ help] ++
      (remarks.flatMap fun remark => [indent, indent ++ remark]) ++
      (if words = [] then []
        else
          ["", indent ++ "Possible values:"] ++ words.map fun (word, meaning) =>
            indent ++ "- " ++ pad (width + 1) (word ++ ":") ++ " " ++ meaning)
  (List.intersperse [""] paragraphs).flatten

def help (command : Command) (environment : Environment) (long : Bool) : String :=
  let lines := if long && command.detailed then command.detailedHelp environment else command.briefHelp environment
  String.intercalate "\n" ([command.about, "", command.usageLine, "", "Options:"] ++ lines) ++ "\n"

def versionLine (command : Command) : String := command.name ++ " " ++ command.version ++ "\n"

end Command

namespace Refusal

/-- The first line of a message. -/
def headline : Refusal → String
  | .help _ | .version => ""
  | .unknown argument _ _ => "error: unexpected argument '" ++ argument ++ "' found"
  | .unneeded flag value _ =>
    "error: unexpected value '" ++ value ++ "' for '--" ++ flag ++ "' found; no more were expected"
  | .repeated flag => "error: the argument '" ++ flag.usage ++ "' cannot be used multiple times"
  | .missing flag => "error: a value is required for '" ++ flag.usage ++ "' but none was supplied"
  | .notChoice flag value => "error: invalid value '" ++ value ++ "' for '" ++ flag.usage ++ "'"
  | .invalid flag value reason =>
    "error: invalid value '" ++ value ++ "' for '" ++ flag.usage ++ "': " ++ reason
  | .notText => "error: invalid UTF-8 was detected in one or more arguments"

/-- A flag in a usage line: the flags for help and version take no value. -/
def usageOf (flag : Flag) : String := if flag.help = "" then "--" ++ flag.long else flag.usage

def usageAfter (command : Command) (used : List Flag) : List String :=
  ["", if used = [] then command.usageLine
    else "Usage: " ++ String.intercalate " " (command.name :: used.map usageOf)]

def wordList (flag : Flag) : List String :=
  if flag.words = [] then [] else ["  [possible values: " ++ String.intercalate ", " flag.words ++ "]"]

def tip (what found : String) : List String := ["", "  tip: a similar " ++ what ++ " exists: '" ++ found ++ "'"]

/-- What a message tells between its first and its last line. -/
def details (command : Command) : Refusal → List String
  | .help _ | .version | .invalid .. => []
  | .unknown _ similar used =>
    match similar with
    | some flag =>
      tip "argument" ("--" ++ flag.long) ++
        usageAfter command (if flag ∈ used then used else used ++ [flag])
    | none => usageAfter command used
  | .unneeded flag _ used => usageAfter command (used ++ [common flag])
  | .repeated _ | .notText => usageAfter command []
  | .missing flag => wordList flag
  | .notChoice flag value =>
    wordList flag ++ ((Text.mostSimilar? value flag.words).map (tip "value")).getD []

/-- The whole text that is shown. -/
def text (command : Command) (environment : Environment) : Refusal → String
  | .help long => command.help environment long
  | .version => command.versionLine
  | refusal =>
    String.intercalate "\n"
      (refusal.headline :: refusal.details command ++ ["", "For more information, try '--help'.", ""])

/-- Help and version are answers, everything else is a failure. -/
def isAnswer : Refusal → Bool
  | .help _ | .version => true
  | _ => false

end Refusal
end RouteBook.CommandLine
