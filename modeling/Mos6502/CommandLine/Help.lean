/-!
The texts that the command line shows about itself.
-/

namespace Mos6502.CommandLine

def programName : String := "sim65"

def versionLine : String := programName ++ " 0.1.0"

def usageLine : String := "Usage: " ++ programName ++ " [OPTIONS] <IMAGE>"

def helpLines : List String :=
  ["Run a raw 6502 binary image",
    "",
    usageLine,
    "",
    "Arguments:",
    "  <IMAGE>  Raw binary image",
    "",
    "Options:",
    "  -o, --origin <ORIGIN>            Load address (hex) [default: 0600]",
    "  -e, --entry <ENTRY>              Entry point (hex), defaults to the load address",
    "      --rom                        Load the image as ROM",
    "  -l, --labels <LABELS>            Label file",
    "  -c, --config <CONFIG>            JSON configuration file; flags override its values. With a "
      ++ "random `fill`, memory outside the image keeps the random bytes and is treated as never "
      ++ "written",
    "  -t, --trace                      Trace every instruction to stderr",
    "      --error-level <ERROR_LEVEL>  none, memory or full",
    "      --cycle-limit <CYCLE_LIMIT>  ",
    "      --profile-out <PROFILE_OUT>  Write the execution profile here",
    "      --profile-in <PROFILE_IN>    Accumulate into an existing profile",
    "      --report <N>                 Print a JSON summary of the N most expensive addresses",
    "      --metrics                    Print the counters to stderr when done",
    "      --disasm <N>                 Disassemble N instructions from the entry point instead of "
      ++ "running",
    "  -h, --help                       Print help",
    "  -V, --version                    Print version"]

end Mos6502.CommandLine
