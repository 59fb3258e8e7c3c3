/-
What the command says about itself.
-/
import SignalWiring.Text.Split

namespace SignalWiring.Cli

def commandName : String := "behaviorgen"

def version : String := "0.1.0"

/-- how the command is called -/
def usage : List String :=
  ["usage: behaviorgen [-h] [--out OUT] [--config CONFIG]",
   "                   [--format \x7bconsole,plain\x7d] [--log-level LOG_LEVEL]",
   "                   [--log-format \x7bconsole,json\x7d] [--version]",
   "                   src"]

/-- what the command does, and what each argument means -/
def explanation : List String :=
  ["Generate signal wiring for Godot C# Behavior classes.",
   "",
   "positional arguments:",
   "  src                   directory with C# sources",
   "",
   "options:",
   "  -h, --help            show this help message and exit",
   "  --out OUT             output directory (default: SRC/Generated)",
   "  --config CONFIG       TOML file with a [tool.behaviorgen] table (default:",
   "                        SRC/pyproject.toml if present)",
   "  --format \x7bconsole,plain\x7d",
   "  --log-level LOG_LEVEL",
   "  --log-format \x7bconsole,json\x7d",
   "  --version             show program's version number and exit"]

def linesText (lines : List String) : String := String.join (lines.map fun line => line ++ "\n")

def helpText : String := linesText (usage ++ [""] ++ explanation)

def versionText : String := s!"{commandName} {version}\n"

/-- what wrong arguments are answered with -/
def refusalText (message : String) : String := linesText usage ++ s!"{commandName}: error: {message}\n"

end SignalWiring.Cli
