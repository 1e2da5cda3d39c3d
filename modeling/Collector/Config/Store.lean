/-
# Where a configuration is kept

The configuration file has a place of its own in the home directory, unless the environment
names another.  A configuration that is not there is the default one; one that is there has to
be readable and free of problems.
-/
import Collector.Config.File
import Collector.Files.Disk
import Collector.Files.Path
import Collector.Text.Quoted
import Collector.Text.Utf8

namespace Collector

/-- What the program takes from its environment. -/
structure Environment where
  /-- The user's home directory, if it is known. -/
  home? : Option String := none
  /-- The configuration file to use instead of the one in the home directory. -/
  configFile? : Option String := none
deriving Repr, DecidableEq, Inhabited

/-- Why a configuration could not be loaded or saved. -/
inductive ConfigError where
  /-- The place of the file hangs on a home directory that is not known. -/
  | noHome
  | read (path : String)
  | parse (path : String)
  | invalid (problem : Config.Problem)
  /-- A number is too large for the file. -/
  | serialize
  | directory (path : String)
  | write (path : String)
deriving Repr, DecidableEq

/-- The error as told to the user. -/
def ConfigError.message : ConfigError → String
  | .noHome => "Could not determine home directory"
  | .read path => "Failed to read config file: " ++ Text.quoted path
  | .parse path => "Failed to parse config file: " ++ Text.quoted path
  | .invalid problem => "Invalid config: " ++ problem.message
  | .serialize => "Failed to serialize config"
  | .directory path => "Failed to create config directory: " ++ Text.quoted path
  | .write path => "Failed to write config file: " ++ Text.quoted path

namespace Environment

/-- The directory of the configuration file in the home directory. -/
def configDir? (env : Environment) : Except ConfigError String :=
  match env.home? with
  | none => .error .noHome
  | some home => .ok (Path.join (Path.join home ".config") "harvest")

/-- The configuration file. -/
def configPath? (env : Environment) : Except ConfigError String :=
  match env.configFile? with
  | some path => .ok path
  | none => env.configDir?.map (Path.join · "config.toml")

end Environment

namespace Config

/-- The directory for parameter files.  `~/` in front stands for the home directory. -/
def outputDirectory (env : Environment) (config : Config) : String :=
  match config.output.directory.toList, env.home? with
  | '~' :: '/' :: rest, some home => Path.join home (String.ofList rest)
  | _, _ => config.output.directory

/-- The time between two polls in milliseconds. -/
def pollIntervalMs (config : Config) : Nat :=
  config.decoder.pollIntervalSecs * 1000

/-- The configuration in the contents of a file. -/
def ofContents (path : String) (contents : ByteArray) : Except ConfigError Config :=
  match Text.Utf8.strict? contents with
  | none => .error (.read path)
  | some text =>
    match read? text with
    | none => .error (.parse path)
    | some config =>
      match config.problem? with
      | some problem => .error (.invalid problem)
      | none => .ok config

variable {m : Type → Type} [Monad m] [Disk m]

/-- Loads the configuration from a file; without a file it is the default one. -/
def load (path : String) : m (Except ConfigError Config) := do
  match ← Disk.info path with
  | .error _ => return .ok {}
  | .ok _ =>
    match ← Disk.read path with
    | .error _ => return .error (.read path)
    | .ok contents => return ofContents path contents

/-- Loads the configuration that the environment asks for. -/
def loadDefault (env : Environment) : m (Except ConfigError Config) :=
  match env.configPath? with
  | .error e => return .error e
  | .ok path => load path

/-- Saves the configuration to a file, making its directory first. -/
def save (config : Config) (path : String) : m (Except ConfigError Unit) := do
  let parent := (Path.parent? path).getD ""
  match ← Disk.makeDirs parent with
  | .error _ => return .error (.directory parent)
  | .ok () =>
    match config.render? with
    | none => return .error .serialize
    | some text =>
      match ← Disk.write path text.toUTF8 with
      | .error _ => return .error (.write path)
      | .ok () => return .ok ()

end Config
end Collector
