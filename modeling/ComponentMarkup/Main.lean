/-
  The program.

  `main` takes the files that a run needs into memory, runs, writes the HTML file, and shows the log
  and the reports on the standard error stream.
-/
import ComponentMarkup.Command.Report
import ComponentMarkup.Command.Run

namespace ComponentMarkup.Program

/-- The files with what is found at a path: a file, or a directory with the files in it. -/
def take (files : Files) (path : String) : IO Files := do
  try
    return files.add path (.file (← IO.FS.readBinFile path))
  catch _ =>
    try
      let mut files := files.add path .directory
      for found in ← (← IO.FS.realPath path).readDir do
        let inner := Files.join path found.fileName
        try
          files := files.add inner (.file (← IO.FS.readBinFile inner))
        catch _ => pure ()
      return files
    catch _ => return files

/-- The directory part of a path, with its slash. -/
def directoryOf (path : String) : String :=
  "/".intercalate ((Text.splitAt "/" path).dropLast ++ [""])

/-- The path of the configuration file of the system. -/
def systemConfig : IO String := do
  let home ← IO.getEnv "HOME"
  let configured ← IO.getEnv "XDG_CONFIG_HOME"
  let dir := configured.getD (home.getD "" ++ "/.config")
  return dir ++ "/" ++ Config.localPath

/-- The files that a run needs. -/
def gather (args : Arguments) (system : String) : IO Files := do
  let start := Files.ofList ((Text.splitAt "/" (← IO.currentDir).toString).filter (· ≠ "")) []
  let files ← [args.config.getD Config.localPath, system, args.input, args.output].foldlM take start
  let files ← if args.output.contains '/' then take files (directoryOf args.output) else pure files
  match (Config.load files args.config system).value with
  | .ok config => take files (args.configured config).templates.dir
  | .error _ => return files

/-- A report on one or more lines. -/
def describe (report : Report) : String :=
  let code := (report.code.map fun code => s!"[{code}]").getD ""
  let severity := (report.severity.map (·.text)).getD "error"
  let labels := report.labels.map fun label => s!"\n  {label.span.text}: {label.message}"
  let help := (report.help.map fun help => s!"\n  help: {help}").getD ""
  severity ++ code ++ ": " ++ report.message ++ String.join labels ++ help

/-- A record on one line. -/
def line (record : Record) : String :=
  let fields := record.fields.map fun (key, value) => s!" {key}={value}"
  s!"[{record.level.text}] {record.text}" ++ String.join fields

end ComponentMarkup.Program

open ComponentMarkup Program

/-- Runs with the words of the command line. The exit code is 1 if the run fails, and 2 if the words
are refused. -/
def main (words : List String) : IO UInt32 := do
  match Arguments.ofWords? words with
  | none =>
    IO.eprintln "usage: trellis [-o FILE] [-c FILE] [-t DIRECTORY] [--log-level LEVEL] INPUT"
    return 2
  | some args =>
    let limit ← match Level.ofWord? args.logLevel with
      | some limit => pure limit
      | none =>
        IO.eprintln s!"Invalid log level: {args.logLevel}. Using 'warn' instead."
        pure (some .warn)
    let system ← systemConfig
    let result := args.run (← gather args system) system
    if let some limit := limit then
      for record in result.records limit do
        IO.eprintln (line record)
    match result.value with
    | .ok files =>
      match files.read args.output with
      | .ok html => IO.FS.writeFile args.output html
      | .error _ => pure ()
      return 0
    | .error e =>
      for report in e.reports do
        IO.eprintln (describe report)
      return 1
