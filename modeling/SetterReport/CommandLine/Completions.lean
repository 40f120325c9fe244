import SetterReport.CommandLine
import SetterReport.CommandLine.Version

/-!
# Completion scripts

For each shell a script that completes the words of the command line. The words
are listed once, level by level, and every script is made of that list.

The scripts are stand-ins for those that a library for command lines generates:
they offer the words of each level, in the plainest way. No statement is about
their text; what counts is that there is a script for every shell, that it goes
to standard output, and that writing it is a success.
-/

namespace SetterReport.CommandLine

/-- The words that may follow the name of the program. -/
def programWords : List String :=
  ["list-setters", "version", "completions", "help", "--openapi-file", "--verbose", "--help",
    "--version", "-v", "-h", "-V"]

/-- The options that every subcommand has. -/
def commonWords : List String :=
  ["--openapi-file", "--verbose", "--help", "-v", "-h"]

/-- The subcommands that have options, and their own options. -/
def subcommandWords : List (String × List String) :=
  [("list-setters", ["--markdown", "--include-subst", "--fail-on-empty"]),
    ("completions", ["--shell"]),
    ("version", [])]

/-- Words side by side. -/
def spaced (ws : List String) : Text :=
  Text.join [' '] (ws.map String.toList)

/-- A text for each subcommand, made of its name and all its words. -/
def perSubcommand (f : Text → Text → Text) : Text :=
  subcommandWords.flatMap fun (name, own) => f name.toList (spaced (own ++ commonWords))

/-- The completion script for a shell. -/
def completionScript : Shell → Text
  | .bash =>
    "_cfgmeta() \x7b\n    local words='".toList ++ spaced programWords ++
      "'\n    case \"$\x7bCOMP_WORDS[1]\x7d\" in\n".toList ++
      perSubcommand (fun name ws =>
        "        ".toList ++ name ++ ") words='".toList ++ ws ++ "' ;;\n".toList) ++
      ("    esac\n    COMPREPLY=($(compgen -W \"$words\" -- \"$2\"))\n\x7d\n" ++
        "complete -o default -F _cfgmeta cfgmeta\n").toList
  | .elvish =>
    "set edit:completion:arg-completer[cfgmeta] = [@words]\x7b\n    put ".toList ++
      spaced programWords ++ "\n".toList ++
      perSubcommand (fun name ws =>
        "    if (has-value $words ".toList ++ name ++ ") \x7b put ".toList ++ ws ++
          " \x7d\n".toList) ++ "\x7d\n".toList
  | .fish =>
    "complete -c cfgmeta -n __fish_use_subcommand -a '".toList ++ spaced programWords ++
      "'\n".toList ++
      perSubcommand (fun name ws =>
        "complete -c cfgmeta -n '__fish_seen_subcommand_from ".toList ++ name ++ "' -a '".toList ++
          ws ++ "'\n".toList)
  | .powershell =>
    ("Register-ArgumentCompleter -Native -CommandName cfgmeta -ScriptBlock \x7b\n" ++
      "    param($word, $line)\n    $words = '").toList ++ spaced programWords ++ "'\n".toList ++
      perSubcommand (fun name ws =>
        "    if (\"$line\" -like '*".toList ++ name ++ "*') \x7b $words = '".toList ++ ws ++
          "' \x7d\n".toList) ++
      "    $words.Split(' ') | Where-Object \x7b $_ -like \"$word*\" \x7d\n\x7d\n".toList
  | .zsh =>
    "#compdef cfgmeta\nlocal -a candidates\ncandidates=(".toList ++ spaced programWords ++
      ")\ncase $words[2] in\n".toList ++
      perSubcommand (fun name ws =>
        "    ".toList ++ name ++ ") candidates=(".toList ++ ws ++ ") ;;\n".toList) ++
      "esac\ncompadd -- $candidates\n_files\n".toList

end SetterReport.CommandLine
