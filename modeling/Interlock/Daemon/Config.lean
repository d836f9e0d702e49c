import Interlock.Coordinator.Operations
import Interlock.Coordinator.Settings
import Interlock.Disk.Basic
import Interlock.Toml.Parser

/-!
The configuration of a daemon: its spaces, its store, its registry, its fleets, and where its files
are. A configuration is read from TOML, or from JSON with the same names, and then checked.
Specification, section 10.4: Configuration.
-/
namespace Interlock.Daemon

open Disk (Pathname Refusal)
open Json (Decoder Field Format Value)

/-- The variable that names the configuration file when no argument does. -/
def configVariable : String := "FLEETLOCK_CONFIG"

/-- Why there is no configuration to work with. -/
inductive ConfigError where
  | noConfigPath
  | read (path : Pathname) (reason : String)
  | parse (path : Pathname) (reason : String)
  /-- A time in the configuration leaves its range while it is read. -/
  | overrun
  | noSharedSpaces
  | noFleets
  | duplicateFleet (name : String)
  | missingBaseUrl (fleet : String)
  | blankSharedSpace
  | noStateDir
  deriving DecidableEq, Repr

/-- The wording of a configuration error. -/
def ConfigError.message : ConfigError → String
  | .noConfigPath => "no config file given (pass a path or set " ++ configVariable ++ ")"
  | .read path reason => "failed to read config " ++ path.text ++ ": " ++ reason
  | .parse path reason => "invalid config " ++ path.text ++ ": " ++ reason
  | .overrun => "overrun"
  | .noSharedSpaces => "no shared spaces configured"
  | .noFleets => "no fleets configured"
  | .duplicateFleet name => "duplicate fleet name: " ++ name
  | .missingBaseUrl fleet => "fleet " ++ fleet ++ " uses kind = \"http\" but has no base_url"
  | .blankSharedSpace => "blank shared space id in config"
  | .noStateDir => "could not determine state directory"

/-- The name of the kind of a configuration error. -/
def ConfigError.name : ConfigError → String
  | .noConfigPath => "NoConfigPath"
  | .read .. => "Read"
  | .parse .. => "Parse"
  | .overrun => "Panic"
  | .noSharedSpaces => "NoSharedSpaces"
  | .noFleets => "NoFleets"
  | .duplicateFleet _ => "DuplicateFleet"
  | .missingBaseUrl _ => "MissingBaseUrl"
  | .blankSharedSpace => "BlankSharedSpace"
  | .noStateDir => "NoStateDir"

/-- Where records are kept. -/
inductive StoreConfig where
  | memory
  | file (path : Pathname)
  deriving DecidableEq, Repr, Inhabited

/-- Where properties of workers are published. -/
inductive RegistryConfig where
  | noop
  | http (url : String)
  deriving DecidableEq, Repr, Inhabited

/-- How a fleet is reached. -/
inductive FleetKind where
  | http | simulated
  deriving DecidableEq, Repr

/-- The written name of a kind. -/
def FleetKind.name : FleetKind → String
  | .http => "http"
  | .simulated => "simulated"

/-- A fleet. Its spaces and workers are sets: in order, each once. -/
structure FleetConfig where
  name : String
  kind : FleetKind
  baseUrl : Option String
  token : Option String
  spaces : List SpaceId
  workers : List WorkerId
  deriving DecidableEq, Repr

/-- A configuration. -/
structure Config where
  spaces : List SpaceId := []
  socketPath : Option Pathname := none
  coordinator : Coordinator.Settings := {}
  store : StoreConfig := .memory
  logPath : Option Pathname := none
  registry : RegistryConfig := .noop
  fleets : List FleetConfig := []
  deriving DecidableEq, Repr

/-! Reading configurations. -/

def pathDecoder : Decoder Pathname := fun v => (Decoder.text v).map Pathname.mk

/-- A tagged part stands inside the configuration. -/
def enclosingLevels : Nat := 1

def StoreConfig.decode (format : Format) : Decoder StoreConfig := fun v => do
  let (kind, payload) ← v.tagged "kind" Decoder.text format enclosingLevels
  match kind with
  | "memory" =>
    payload.nothing
    return .memory
  | "file" =>
    let ms ← payload.fields [⟨"path", false⟩]
    return .file (← ms.required "path" pathDecoder)
  | other => throw (.unknownVariant other)

def RegistryConfig.decode (format : Format) : Decoder RegistryConfig := fun v => do
  let (kind, payload) ← v.tagged "kind" Decoder.text format enclosingLevels
  match kind with
  | "noop" =>
    payload.nothing
    return .noop
  | "http" =>
    let ms ← payload.fields [⟨"url", false⟩]
    return .http (← ms.required "url" Decoder.text)
  | other => throw (.unknownVariant other)

/-- The part about logs: the path of the log file. -/
def loggingDecoder (format : Format) : Decoder (Option Pathname) := fun v => do
  let ms ← v.members [⟨"path", true⟩] true format.spareItems
  ms.optional "path" pathDecoder

def FleetKind.decode (format : Format) : Decoder FleetKind := fun v => do
  match ← format.name v with
  | "http" => return .http
  | "simulated" => return .simulated
  | other => throw (.unknownVariant other)

/-- Things in order, each once. -/
def asSet {α : Type} [Ord α] [BEq α] (xs : List α) : List α :=
  (xs.mergeSort fun a b => (compare a b).isLE).eraseReps

def FleetConfig.decode (format : Format) : Decoder FleetConfig := fun v => do
  let ms ← v.members
    [⟨"name", false⟩, ⟨"kind", false⟩, ⟨"base_url", true⟩, ⟨"token", true⟩, ⟨"shared_spaces", true⟩,
      ⟨"workers", true⟩] true format.spareItems
  let name ← ms.required "name" Decoder.text
  let kind ← ms.required "kind" (FleetKind.decode format)
  let baseUrl ← ms.optional "base_url" Decoder.text
  let token ← ms.optional "token" Decoder.text
  let spaces ← ms.orElse "shared_spaces" (Decoder.list SpaceId.decode) []
  let workers ← ms.orElse "workers" (Decoder.list WorkerId.decode) []
  return ⟨name, kind, baseUrl, token, asSet spaces, asSet workers⟩

/-- A configuration; it is not checked. -/
def Config.decode (format : Format := .json) : Decoder Config := fun v => do
  let ms ← v.members
    [⟨"shared_spaces", true⟩, ⟨"socket_path", true⟩, ⟨"coordinator", true⟩, ⟨"store", true⟩,
      ⟨"logging", true⟩, ⟨"registry", true⟩, ⟨"fleet", true⟩] true format.spareItems
  let spaces ← ms.orElse "shared_spaces" (Decoder.list SpaceId.decode) []
  let socketPath ← ms.optional "socket_path" pathDecoder
  let coordinator ← ms.orElse "coordinator" (Coordinator.Settings.decode format) {}
  let store ← ms.orElse "store" (StoreConfig.decode format) .memory
  let logPath ← ms.orElse "logging" (loggingDecoder format) none
  let registry ← ms.orElse "registry" (RegistryConfig.decode format) .noop
  let fleets ← ms.orElse "fleet" (Decoder.list (FleetConfig.decode format)) []
  return ⟨spaces, socketPath, coordinator, store, logPath, registry, fleets⟩

namespace Config

/-- The first fault among fleets whose names so far are given: a name that stands twice, or a fleet
reached by HTTP that does not say where. -/
def checkFleets (names : List String) : List FleetConfig → Except ConfigError Unit
  | [] => .ok ()
  | f :: rest =>
    if names.contains f.name then .error (.duplicateFleet f.name)
    else if f.kind = .http ∧ f.baseUrl.isNone then .error (.missingBaseUrl f.name)
    else checkFleets (f.name :: names) rest

/-- What a configuration has to have before a daemon can work with it. -/
def validate (c : Config) : Except ConfigError Unit :=
  if c.spaces.isEmpty then .error .noSharedSpaces
  else if c.spaces.any SpaceId.isBlank then .error .blankSharedSpace
  else if c.fleets.isEmpty then .error .noFleets
  else checkFleets [] c.fleets

/-- All workers that some fleet names, in order, each once. -/
def workers (c : Config) : List WorkerId := asSet (c.fleets.flatMap FleetConfig.workers)

/-- The path of the configuration file: the argument, else the value of the variable. A blank one
counts as none, and a blank argument hides the variable. -/
def locate (argument fallback : Option String) : Except ConfigError Pathname :=
  match argument.or fallback with
  | some p => if Text.blank p then .error .noConfigPath else .ok ⟨p⟩
  | none => .error .noConfigPath

/-- The checked configuration in the content of a file. -/
def ofFile (path : Pathname) (content : Except Refusal String) : Except ConfigError Config := do
  match content with
  | .error e => throw (.read path e.message)
  | .ok text =>
    match Toml.read text with
    | none => throw (.parse path "TOML parse error")
    | some v =>
      match decode Toml.format v with
      | .error .overrun => throw .overrun
      | .error e => throw (.parse path e.message)
      | .ok c =>
        c.validate
        return c

/-- Load a configuration from a disk. -/
def load (d : Disk) (path : Pathname) : Except ConfigError Config := ofFile path (d.readText path)

end Config

/-- Where the files of a daemon are. -/
structure Paths where
  socket : Pathname
  /-- The file that is locked while the daemon runs and holds its process number. -/
  lock : Pathname
  log : Pathname
  deriving DecidableEq, Repr

namespace Paths

/-- The directory for state that outlives the daemon. -/
def stateDirectory (environment : String → Option String) : Except ConfigError Pathname :=
  match environment "XDG_STATE_HOME", environment "HOME" with
  | some state, _ => .ok ((Pathname.mk state).join ⟨"fleetlock"⟩)
  | none, some home => .ok ((Pathname.mk home).join ⟨".local/state/fleetlock"⟩)
  | none, none => .error .noStateDir

/-- The paths a configuration names, and the usual ones for the others. -/
def resolve (c : Config) (environment : String → Option String) : Except ConfigError Paths := do
  let socket :=
    match c.socketPath with
    | some p => p
    | none => (Pathname.mk ((environment "XDG_RUNTIME_DIR").getD "/tmp")).join ⟨"fleetlock.sock"⟩
  let log ←
    match c.logPath with
    | some p => .ok p
    | none => (stateDirectory environment).map (·.join ⟨"fld.log"⟩)
  return ⟨socket, socket.withExtension "pid", log⟩

end Paths

end Interlock.Daemon
