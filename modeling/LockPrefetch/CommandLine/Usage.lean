/-! # What the program says about itself

The summary of the command line, and the longer help. -/

set_option autoImplicit false

namespace LockPrefetch.CommandLine

/-- The name of the program. -/
def programName : String := "npmdeps"

/-- What the program does. -/
def description : String := "Prefetches npm dependencies for usage by fetchNpmDeps."

/-- The summary of the command line. -/
def usage : String :=
  "usage: npmdeps [-h] [--jobs JOBS] [--require-integrity]\n" ++
  "               [--mutable-refs \x7bwarn,error,allow\x7d] [--report REPORT]\n" ++
  "               [lockfile] [output_dir]\n"

/-- The help on arguments and options. -/
def help : String :=
  usage ++ "\n" ++ description ++ "\n\n" ++
  "positional arguments:\n" ++
  "  lockfile              Path to package-lock.json\n" ++
  "  output_dir            Directory to populate; a temporary one is hashed and\n" ++
  "                        printed when omitted\n" ++
  "\n" ++
  "options:\n" ++
  "  -h, --help            show this help message and exit\n" ++
  "  --jobs JOBS           Concurrent downloads\n" ++
  "  --require-integrity   Fail on packages that declare no integrity digest\n" ++
  "  --mutable-refs \x7bwarn,error,allow\x7d\n" ++
  "                        How to treat hosted git dependencies pinned to a\n" ++
  "                        branch or tag\n" ++
  "  --report REPORT       Write a JSON or .cbor run report\n"

end LockPrefetch.CommandLine
