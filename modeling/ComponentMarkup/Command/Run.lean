/-
  A run: from a document to an HTML file.

  * `Config.load`: the configuration, from the file that is asked for, else from the working
    directory, else from the place of the system, else with all defaults.
  * `Arguments.run`: the files after a run. Nothing is written when anything fails.
-/
import ComponentMarkup.Catalog.Discovery
import ComponentMarkup.Command.Arguments
import ComponentMarkup.Command.Error
import ComponentMarkup.Compile
import ComponentMarkup.Toml.Document
import ComponentMarkup.View.Directory

namespace ComponentMarkup

/-! ## Configuration files -/

namespace Config

/-- The configuration that a text describes. -/
def ofText? (text : String) : Option Config :=
  (Toml.read? text).bind (ofSetting? false)

/-- The path of the configuration file below a working directory or the place of the system. -/
def localPath : String := "trellis/config.toml"

/-- Reads a configuration file. -/
def readFile (files : Files) (path : String) : Except RunError Config := do
  if !files.has path then throw (.config (.missing path))
  let text ← (files.read path).mapError .file
  match ofText? text with
  | some config => return config
  | none => throw (.config .malformed)

/-- Where the configuration file is, if there is one. -/
def locate (files : Files) (explicit : Option String) (system : String) :
    Option (ConfigPlace × String) :=
  match explicit with
  | some path => some (.explicit, path)
  | none =>
    if files.has localPath then some (.local, localPath)
    else if files.has system then some (.system, system)
    else none

/-- The configuration of a run. -/
def load (files : Files) (explicit : Option String) (system : String) :
    Logged (Except RunError Config) := do
  match locate files explicit system with
  | some (place, path) =>
    log (.loadingConfig place path)
    return readFile files path
  | none =>
    log (.systemConfigMissing system)
    log .defaultConfig
    return .ok {}

end Config

/-! ## Runs -/

/-- The expander for the templates in the directory of a configuration. -/
def Expander.ofFiles (files : Files) (config : Config) : Logged (Except RunError Expander) := do
  let dir := config.templates.dir
  let extension := config.templates.extension
  match ← Catalog.discover files dir extension config.templates.separator with
  | .error e => return .error (.catalog dir e)
  | .ok catalog =>
    let views : DirectoryViews := ⟨files, dir, extension, config.markup.voids⟩
    return .ok (← Expander.ofConfig config catalog views.run)

namespace Arguments

open MonadExcept (ofExcept)

variable (args : Arguments)

/-- The configuration with the template directory that is asked for. -/
def configured (config : Config) : Config :=
  match args.templates with
  | some dir => config.withTemplateDir dir
  | none => config

/-- The HTML of the document. -/
def html (files : Files) (config : Config) : Logged (Except RunError String) := ExceptT.run do
  let source ← ofExcept ((files.read args.input).mapError RunError.file)
  let expander ← ExceptT.mk (Expander.ofFiles files config)
  let compiled ← expander.compile source
  ofExcept (compiled.mapError RunError.document)

/-- The files after a run, which writes the HTML of the document. -/
def run (files : Files) (systemConfig : String) : Logged (Except RunError Files) := ExceptT.run do
  log (.processing args.input args.output)
  let config ← ExceptT.mk (Config.load files args.config systemConfig)
  let html ← ExceptT.mk (args.html files (args.configured config))
  let after ← ofExcept ((files.write args.output html).mapError RunError.file)
  log (.exported args.output)
  return after

end Arguments

end ComponentMarkup
