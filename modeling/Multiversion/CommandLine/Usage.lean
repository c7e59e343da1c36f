import Multiversion.Text.Basic

/-! The usage of the program and its help, on lines of 80 columns. -/
namespace Multiversion.CommandLine

/-- Lines, each ended by a line feed. -/
def unlines (lines : List String) : Text := lines.flatMap fun line => line.toText ++ "\n".toText

/-- How the program is called. -/
def usage : Text := unlines [
  "usage: commentpp [-h] [--overwrites OVERWRITES] [--config CONFIG]",
  "                 [--define DEFINE] [--keywords SUFFIX=PROFILE] [--remap REMAP]",
  "                 [--jobs JOBS] [--no-clean] [--report REPORT]",
  "                 [source] [generated]"]

/-- The usage and what the arguments mean. -/
def help : Text := usage ++ unlines [
  "",
  "commentpp - Comment directive preprocessor for multi-version sources",
  "",
  "positional arguments:",
  "  source                Folder with the sources to preprocess",
  "  generated             Folder the preprocessed files are written to",
  "",
  "options:",
  "  -h, --help            show this help message and exit",
  "  --overwrites OVERWRITES",
  "                        Folder whose files replace their preprocessed",
  "                        counterpart",
  "  --config CONFIG       Path to a JSON configuration (vars, keywords, entries)",
  "  --define DEFINE       Condition variables (e.g. 'MC=11605,FABRIC')",
  "  --keywords SUFFIX=PROFILE",
  "                        Use the 'default' or 'cfg' keywords for files ending",
  "                        in SUFFIX",
  "  --remap REMAP         Remap function as module:function, called with the",
  "                        lines of every file",
  "  --jobs JOBS           Number of files converted in parallel",
  "  --no-clean            Do not delete the generated folders first",
  "  --report REPORT       Path to save a JSON report"]

end Multiversion.CommandLine
