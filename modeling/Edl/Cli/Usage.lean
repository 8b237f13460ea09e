/-
How the program explains itself.

Main definitions:

* `Edl.Cli.Grammar.usage`, `Edl.Cli.Grammar.help` — the usage of the program and of its command, and
  their help;
* `Edl.Cli.versionText` — the version;
* `Edl.Cli.Misuse.text` — what is printed when a command line is refused.
-/

import Edl.Cli.Command

set_option relaxedAutoImplicit false
set_option autoImplicit false

namespace Edl.Cli

/-- The lines of a text, each with its line end. -/
def lines (ls : List String) : String :=
  String.join (ls.map (· ++ "\n"))

/-- The name under which a grammar speaks. -/
def Grammar.name : Grammar → String
  | program => "edlpy"
  | lint => "edlpy lint"

/-- How a grammar is used. -/
def Grammar.usage : Grammar → String
  | program =>
      lines
        ["usage: edlpy [-h] [--version] [--log-level \x7bDEBUG,INFO,WARNING,ERROR\x7d]",
         "             \x7blint\x7d ..."]
  | lint =>
      lines
        ["usage: edlpy lint [-h] [--format \x7btext,json\x7d] [--disable-linting]",
         "                  files [files ...]"]

/-- The help for a grammar. -/
def Grammar.help : Grammar → String
  | program =>
      Grammar.usage .program ++ lines
        ["",
         "EDL language tooling",
         "",
         "positional arguments:",
         "  \x7blint\x7d                Commands",
         "    lint                Lint EDL files",
         "",
         "options:",
         "  -h, --help            show this help message and exit",
         "  --version             show program's version number and exit",
         "  --log-level \x7bDEBUG,INFO,WARNING,ERROR\x7d",
         "                        Logging verbosity (default: WARNING)",
         "",
         "Examples:",
         "    edlpy lint machines/door.edl",
         "    edlpy lint --format json machines/*.edl"]
  | lint =>
      Grammar.usage .lint ++ lines
        ["",
         "positional arguments:",
         "  files                 Files to lint",
         "",
         "options:",
         "  -h, --help            show this help message and exit",
         "  --format \x7btext,json\x7d  Output format",
         "  --disable-linting     Run with linting disabled (reports nothing)"]

/-- The version of the program. -/
def versionText : String := "edlpy 0.1.0\n"

/-- What is printed when a command line is refused. -/
def Misuse.text (m : Misuse) : String :=
  m.grammar.usage ++ m.grammar.name ++ ": error: " ++ m.cause.text ++ "\n"

end Edl.Cli
