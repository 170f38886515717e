import LogicSignature.CommandLine.Grammar

/-
The commands of the checker, with the form of their arguments and their help texts.
-/

namespace LogicSignature.CommandLine

/-- The commands. A group is a command that needs a subcommand. -/
inductive Command where
  | root
  | check
  | langSpec
  | langSpecShow
  | varint
  | varintDecode
  | varintEncode
  | config
  | configGet
  | configShow
  | configValidate
deriving DecidableEq, Repr

def textLines (lines : List Text) : Text := lines.flatMap (fun line => (line ++ "\n" : Text))

def helpSwitch : Switch := ⟨["-h", "--help"], .help⟩

def langSpecSwitch : Switch := ⟨["--langspec", "-l"], .langSpec⟩

def rootUsage : Text :=
  textLines
    ["usage: lsigcheck [-h] [--version] [--format \x7bjson,yaml,table,text\x7d] [--quiet]",
      "                 [--config CONFIG]",
      "                 \x7bcheck,langspec,varint,config\x7d ..."]

def rootDetails : Text :=
  textLines
    ["Static length and cost checker for logic signature programs",
      "",
      "positional arguments:",
      "  \x7bcheck,langspec,varint,config\x7d",
      "                        Commands",
      "    check               Validate a program",
      "    langspec            Language specification",
      "    varint              Varint helpers",
      "    config              Configuration management",
      "",
      "options:",
      "  -h, --help            show this help message and exit",
      "  --version, -V         show program's version number and exit",
      "  --format \x7bjson,yaml,table,text\x7d, -f \x7bjson,yaml,table,text\x7d",
      "                        Output format (default: json)",
      "  --quiet, -q           Suppress error messages and warning logs on stderr",
      "  --config CONFIG, -c CONFIG",
      "                        YAML configuration file (default: lsigcheck.yaml",
      "                        lookup)"]

def rootGrammar : Grammar :=
  { name := "lsigcheck"
    usage := rootUsage
    details := rootDetails
    switches :=
      [helpSwitch, ⟨["--version", "-V"], .version⟩, ⟨["--format", "-f"], .format⟩,
        ⟨["--quiet", "-q"], .quiet⟩, ⟨["--config", "-c"], .config⟩]
    operand := .command "command" ["check", "langspec", "varint", "config"] }

def checkGrammar : Grammar :=
  { name := "lsigcheck check"
    usage := "usage: lsigcheck check [-h] [--arg ARGS] [--langspec LANGSPEC] program\n"
    details :=
      textLines
        ["positional arguments:",
          "  program               0x-hex, hex string, .hex file or binary file",
          "",
          "options:",
          "  -h, --help            show this help message and exit",
          "  --arg ARGS, -a ARGS   Program argument as hex (repeatable)",
          "  --langspec LANGSPEC, -l LANGSPEC",
          "                        langspec.json to build the opcode table from"]
    switches := [helpSwitch, ⟨["--arg", "-a"], .argument⟩, langSpecSwitch]
    operand := .text "program" }

def langSpecGrammar : Grammar :=
  { name := "lsigcheck langspec"
    usage := "usage: lsigcheck langspec [-h] \x7bshow\x7d ...\n"
    details :=
      textLines
        ["positional arguments:",
          "  \x7bshow\x7d",
          "    show      Show versions and opcode table",
          "",
          "options:",
          "  -h, --help  show this help message and exit"]
    switches := [helpSwitch]
    operand := .command "subcommand" ["show"] }

def langSpecShowGrammar : Grammar :=
  { name := "lsigcheck langspec show"
    usage := "usage: lsigcheck langspec show [-h] [--langspec LANGSPEC]\n"
    details :=
      textLines
        ["options:",
          "  -h, --help            show this help message and exit",
          "  --langspec LANGSPEC, -l LANGSPEC",
          "                        langspec.json to read"]
    switches := [helpSwitch, langSpecSwitch]
    operand := .absent }

def varintGrammar : Grammar :=
  { name := "lsigcheck varint"
    usage := "usage: lsigcheck varint [-h] \x7bdecode,encode\x7d ...\n"
    details :=
      textLines
        ["positional arguments:",
          "  \x7bdecode,encode\x7d",
          "    decode         Decode a varint from hex",
          "    encode         Encode an integer",
          "",
          "options:",
          "  -h, --help       show this help message and exit"]
    switches := [helpSwitch]
    operand := .command "subcommand" ["decode", "encode"] }

def varintDecodeGrammar : Grammar :=
  { name := "lsigcheck varint decode"
    usage := "usage: lsigcheck varint decode [-h] [--offset OFFSET] data\n"
    details :=
      textLines
        ["positional arguments:",
          "  data             Hex bytes",
          "",
          "options:",
          "  -h, --help       show this help message and exit",
          "  --offset OFFSET  Start offset"]
    switches := [helpSwitch, ⟨["--offset"], .offset⟩]
    operand := .text "data" }

def varintEncodeGrammar : Grammar :=
  { name := "lsigcheck varint encode"
    usage := "usage: lsigcheck varint encode [-h] value\n"
    details :=
      textLines
        ["positional arguments:",
          "  value       Non-negative integer",
          "",
          "options:",
          "  -h, --help  show this help message and exit"]
    switches := [helpSwitch]
    operand := .integer "value" }

def configGrammar : Grammar :=
  { name := "lsigcheck config"
    usage := "usage: lsigcheck config [-h] \x7bget,show,validate\x7d ...\n"
    details :=
      textLines
        ["positional arguments:",
          "  \x7bget,show,validate\x7d",
          "    get                Get configuration value",
          "    show               Show all configuration",
          "    validate           Validate configuration",
          "",
          "options:",
          "  -h, --help           show this help message and exit"]
    switches := [helpSwitch]
    operand := .command "subcommand" ["get", "show", "validate"] }

def configGetGrammar : Grammar :=
  { name := "lsigcheck config get"
    usage := "usage: lsigcheck config get [-h] path\n"
    details :=
      textLines
        ["positional arguments:",
          "  path        Config path (e.g., observability.log_level)",
          "",
          "options:",
          "  -h, --help  show this help message and exit"]
    switches := [helpSwitch]
    operand := .text "path" }

/-- The form of a command that takes nothing. -/
def bareGrammar (name : Text) : Grammar :=
  { name
    usage := "usage: " ++ name ++ " [-h]\n"
    details := textLines ["options:", "  -h, --help  show this help message and exit"]
    switches := [helpSwitch]
    operand := .absent }

namespace Command

/-- The form of the arguments of a command. -/
def grammar : Command → Grammar
  | .root => rootGrammar
  | .check => checkGrammar
  | .langSpec => langSpecGrammar
  | .langSpecShow => langSpecShowGrammar
  | .varint => varintGrammar
  | .varintDecode => varintDecodeGrammar
  | .varintEncode => varintEncodeGrammar
  | .config => configGrammar
  | .configGet => configGetGrammar
  | .configShow => bareGrammar "lsigcheck config show"
  | .configValidate => bareGrammar "lsigcheck config validate"

def below : Command → List (Text × Command)
  | .root =>
    [("check", .check), ("langspec", .langSpec), ("varint", .varint), ("config", .config)]
  | .langSpec => [("show", .langSpecShow)]
  | .varint => [("decode", .varintDecode), ("encode", .varintEncode)]
  | .config => [("get", .configGet), ("show", .configShow), ("validate", .configValidate)]
  | _ => []

end Command

end LogicSignature.CommandLine
