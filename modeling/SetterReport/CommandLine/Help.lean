import SetterReport.CommandLine
import SetterReport.CommandLine.Version

/-!
# Help texts

What the program tells about itself and about each of its subcommands: what it
is for, how it is called, and what its options do.

The pages are stand-ins for those that a library for command lines lays out:
they name the commands, options and examples, in a wording and layout of their
own. No statement is about their text; what counts is that there is a page for
every level, that it goes to standard output, and that showing it is a success.
-/

namespace SetterReport.CommandLine

/-- Lines, each of them ended. -/
def asLines (ls : List String) : Text :=
  ls.flatMap fun l => l.toList ++ ['\n']

/-- The options that may stand at every level. -/
def commonOptions : List String :=
  ["      --openapi-file <NAME>  Metadata file name that marks a package directory " ++
      "[env: CFGMETA_OPENAPI_FILE=]",
    "  -v, --verbose              Enable verbose output",
    "  -h, --help                 Print help"]

/-- The help on a level. -/
def helpText : Level → Text
  | .program => asLines <|
    ["Report setters and substitutions in configuration packages",
      "",
      "Usage: cfgmeta [OPTIONS] <COMMAND>",
      "",
      "Commands:",
      "  list-setters  List setters (and substitutions) for every package under a directory",
      "  version       Show version information",
      "  completions   Generate shell completions",
      "  help          Print this message or the help of the given subcommand(s)",
      "",
      "Options:"] ++ commonOptions ++
    ["  -V, --version              Print version",
      "",
      "Examples:",
      "    cfgmeta list-setters ./pkg",
      "    cfgmeta list-setters ./pkg replicas",
      "    cfgmeta list-setters ./pkg --include-subst --markdown"]
  | .listSetters => asLines <|
    ["List setters (and substitutions) for every package under a directory",
      "",
      "Usage: cfgmeta list-setters [OPTIONS] <DIR> [NAME]",
      "",
      "Arguments:",
      "  <DIR>   Directory to search for packages",
      "  [NAME]  Only list setters and substitutions with exactly this name",
      "",
      "Options:",
      "      --markdown             Output as github markdown",
      "      --include-subst        Include substitutions in the output",
      "      --fail-on-empty        Exit non-zero when no setters are listed " ++
        "[env: CFGMETA_FAIL_ON_EMPTY=]"] ++ commonOptions ++
    ["",
      "EXAMPLES:",
      "  List setters for all packages:",
      "    cfgmeta list-setters ./pkg",
      "",
      "  List one setter by name:",
      "    cfgmeta list-setters ./pkg replicas",
      "",
      "  Include substitutions as a markdown table:",
      "    cfgmeta list-setters ./pkg --include-subst --markdown",
      "",
      "  Fail when nothing matches:",
      "    cfgmeta list-setters ./pkg replicas --fail-on-empty"]
  | .version => asLines <|
    ["Show version information",
      "",
      "Usage: cfgmeta version [OPTIONS]",
      "",
      "Options:"] ++ commonOptions
  | .completions => asLines <|
    ["Generate shell completions",
      "",
      "Usage: cfgmeta completions [OPTIONS] --shell <SHELL>",
      "",
      "Options:",
      "      --shell <SHELL>        Shell to generate completions for " ++
        "[possible values: bash, elvish, fish, powershell, zsh]"] ++ commonOptions ++
    ["",
      "EXAMPLES:",
      "  Generate bash completions:",
      "    cfgmeta completions --shell bash > ~/.bash_completion.d/cfgmeta",
      "",
      "  Generate zsh completions:",
      "    cfgmeta completions --shell zsh > ~/.zfunc/_cfgmeta",
      "",
      "  Generate fish completions:",
      "    cfgmeta completions --shell fish > ~/.config/fish/completions/cfgmeta.fish"]
  | .help => asLines
    ["Print this message or the help of the given subcommand(s)",
      "",
      "Usage: cfgmeta help [COMMAND]...",
      "",
      "Arguments:",
      "  [COMMAND]...  Print help for the subcommand(s)"]

end SetterReport.CommandLine
