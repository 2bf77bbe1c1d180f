import FairLease.CommandLine.Flag

/-!
# Explaining the command line
-/

namespace FairLease.CommandLine

def Flag.placeholder (flag : Flag) : String :=
  "<" ++ String.ofList
    (flag.name.toList.map (fun c => if c = '-' then '_' else c.toUpper)) ++ ">"

def Flag.helpLine (flag : Flag) : String :=
  "      --" ++ flag.name ++ " " ++ flag.placeholder ++ "  " ++ flag.help

def helpText (program : String) : String :=
  String.intercalate "\n"
    (["Claim served IP addresses fairly across cluster nodes", "",
      "Usage: " ++ program ++ " [OPTIONS]", "", "Options:"] ++
      Flag.all.map Flag.helpLine ++ ["  -h, --help  Print help"])

def UsageError.message : UsageError -> String
  | displayHelp => "help was asked for"
  | unknownArgument => "unexpected argument found"
  | missingValue => "a value is required"
  | invalidValue => "invalid value"
  | repeatedFlag => "an argument cannot be used multiple times"
  | unexpectedValue => "unexpected value found"

end FairLease.CommandLine
