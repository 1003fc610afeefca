/-
Commands, their options, and what can be wrong with a command line.
-/
namespace LaunchReports

inductive CommandName where
  | report
  | catalog
  | requestSchema
  | init
  | importRecords
deriving DecidableEq, Repr

namespace CommandName

def all : List CommandName := [report, catalog, requestSchema, init, importRecords]

def text : CommandName → String
  | report => "report"
  | catalog => "catalog"
  | requestSchema => "request-schema"
  | init => "init"
  | importRecords => "import"

def ofText? (s : String) : Option CommandName := all.find? fun c => c.text = s

end CommandName

/-! ## Options -/

inductive OptionName where
  | homeDir
  | cwd
  | db
  | query
  | filter
  | group
  | order
  | limit
  | request
  | explain
  | singleValue
  | verbose
  | pretty
  | help
  | version
deriving DecidableEq, Repr

namespace OptionName

def long : OptionName → String
  | homeDir => "home-dir"
  | cwd => "cwd"
  | db => "db"
  | query => "query"
  | filter => "filter"
  | group => "group"
  | order => "order"
  | limit => "limit"
  | request => "request"
  | explain => "explain"
  | singleValue => "single-value"
  | verbose => "verbose"
  | pretty => "pretty"
  | help => "help"
  | version => "version"

def short? : OptionName → Option Char
  | help => some 'h'
  | version => some 'V'
  | _ => none

def takesValue : OptionName → Bool
  | explain | singleValue | verbose | pretty | help | version => false
  | _ => true

/-- options of the program, which every command takes too -/
def everywhere : List OptionName := [homeDir, cwd, db, help]

/-- the options of the program or of one of its commands -/
def taken : Option CommandName → List OptionName
  | none => everywhere ++ [version]
  | some .report => everywhere ++ [query, filter, group, order, limit, request, explain, singleValue]
  | some .catalog => everywhere ++ [verbose]
  | some .requestSchema => everywhere ++ [pretty]
  | some .init | some .importRecords => everywhere

end OptionName

/-! ## Errors -/

/-- why a command line is not run; asking for help or the version counts -/
inductive UsageError where
  | unknownArgument
  | invalidValue
  | valueValidation
  | argumentConflict
  | tooManyValues
  | invalidSubcommand
  | missingSubcommand
  | missingRequiredArgument
  | displayHelp
  | displayVersion
  | displayHelpOnMissingArgumentOrSubcommand
deriving DecidableEq, Repr

namespace UsageError

def text : UsageError → String
  | unknownArgument => "UnknownArgument"
  | invalidValue => "InvalidValue"
  | valueValidation => "ValueValidation"
  | argumentConflict => "ArgumentConflict"
  | tooManyValues => "TooManyValues"
  | invalidSubcommand => "InvalidSubcommand"
  | missingSubcommand => "MissingSubcommand"
  | missingRequiredArgument => "MissingRequiredArgument"
  | displayHelp => "DisplayHelp"
  | displayVersion => "DisplayVersion"
  | displayHelpOnMissingArgumentOrSubcommand => "DisplayHelpOnMissingArgumentOrSubcommand"

/-- the version of the program -/
def versionText : String := "simstats 0.1.0"

def helpText : String :=
  "Usage-telemetry report compiler for simulation launch statistics\n\n" ++
    "Usage: simstats [--home-dir PATH] [--cwd PATH] [--db PATH] COMMAND\n\nCommands:\n" ++
    "  report [--query QUERY] [--filter FIELD=VALUE]... [--group DIMENSION] [--order COLUMN] [--limit N]\n" ++
    "         [--request PATH] [--explain | --single-value]\n  catalog [--verbose]\n  request-schema [--pretty]\n" ++
    "  init\n  import INPUT"

/-- the text that was asked for; other errors ask for none -/
def answer? : UsageError → Option String
  | displayHelp => some helpText
  | displayVersion => some versionText
  | _ => none

def message : UsageError → String
  | unknownArgument => "error: an argument is not expected here"
  | invalidValue => "error: an option has no value or an empty path"
  | valueValidation => "error: the value of an option is not valid"
  | argumentConflict => "error: an option is given twice or beside one that excludes it"
  | tooManyValues => "error: a switch takes no value"
  | invalidSubcommand => "error: there is no such command"
  | missingSubcommand => "error: a command is missing"
  | missingRequiredArgument => "error: an argument is missing"
  | displayHelp | displayHelpOnMissingArgumentOrSubcommand => helpText
  | displayVersion => versionText

end UsageError

end LaunchReports
