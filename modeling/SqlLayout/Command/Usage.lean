import SqlLayout.Command.Arguments

/-!
# Usage texts

What the command line says about itself.
-/

namespace SqlLayout.Command

def commandName : Text :=
  "sqlshape".toList

def usage : Text :=
  ("usage: sqlshape [-h] [-o OUTPUT] [--indent N] [--tabs] [--max-line-length N]\n" ++
    "                [--comma-style \x7bleading,trailing\x7d] [-p [NAME=]VALUE]\n" ++
    "                [--dialect DIALECT] [--config FILE] [--check] [--debug] [-v]\n" ++
    "                [input]\n").toList

def help : Text :=
  usage ++
    ("\n" ++
      "Reformat whitespace and indentation of SQL queries\n" ++
      "\n" ++
      "positional arguments:\n" ++
      "  input                 Input .sql file (default: stdin)\n" ++
      "\n" ++
      "options:\n" ++
      "  -h, --help            show this help message and exit\n" ++
      "  -o OUTPUT, --output OUTPUT\n" ++
      "                        Output file (default: stdout)\n" ++
      "  --indent N            Spaces per level\n" ++
      "  --tabs                Indent with tabs\n" ++
      "  --max-line-length N   Wrap lines longer than N characters (default: 0, off)\n" ++
      "  --comma-style \x7bleading,trailing\x7d\n" ++
      "                        Where commas go when a list is broken across lines\n" ++
      "  -p [NAME=]VALUE, --param [NAME=]VALUE\n" ++
      "                        Placeholder value, named or positional (repeatable)\n" ++
      "  --dialect DIALECT     SQL dialect (default: sql)\n" ++
      "  --config FILE         Config file (default: auto-discover sqlshape.toml)\n" ++
      "  --check               Exit 1 if input is not formatted\n" ++
      "  --debug               Dump the token stream to stderr\n" ++
      "  -v, --verbose         Enable debug logging\n").toList

def UsageFault.line (f : UsageFault) : Text :=
  commandName ++ ": error: ".toList ++ f.message

end SqlLayout.Command
