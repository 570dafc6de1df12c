import ContentProtection.Configuration.File
import ContentProtection.Hls.KeyTag
import ContentProtection.Key.Id

/-!
# The command line

Three commands that show what the library makes of a key tag, of a header in base64 and of a configuration file. What they say goes to the output line by line, with its severity and the name of the program.
-/

namespace ContentProtection.CommandLine

def programName : String := "rsdrm"

def version : String := "0.1.0"

inductive Command
  | keyTag (attributes : String) (hdcp22Required : Bool)
  | header (encoded : String)
  | configuration (path : String)
  deriving DecidableEq, Repr

inductive Invocation
  | showVersion
  | perform (showsDetails : Bool) (command : Command)
  deriving DecidableEq, Repr

/-! ### Arguments -/

/-- The flags and the texts among the arguments of a command. -/
structure Arguments where
  flags : List String := []
  texts : List String := []
  deriving DecidableEq, Repr

/-- Reads the arguments of a command that has the given flags. A flag may be given once; after two hyphens every argument is a text, and so is a single hyphen. -/
def Arguments.ofList? (known : List String) : List String → Option Arguments
  | [] => some {}
  | argument :: rest =>
    if argument = "--" then some { texts := rest }
    else if argument.startsWith "-" ∧ argument ≠ "-" then do
      let arguments ← ofList? known rest
      if known.contains argument ∧ ¬arguments.flags.contains argument then
        some { arguments with flags := argument :: arguments.flags }
      else none
    else (ofList? known rest).map fun arguments => { arguments with texts := argument :: arguments.texts }

def hdcp22Flag : String := "--hdcp22"

/-- A command has its name and one text, which for a path may not be empty. -/
def Command.ofArguments? (name : String) (arguments : List String) : Option Command :=
  match name with
  | "hls-key" =>
    match Arguments.ofList? [hdcp22Flag] arguments with
    | some ⟨flags, [attributes]⟩ => some (.keyTag attributes (flags.contains hdcp22Flag))
    | _ => none
  | "pssh" =>
    match Arguments.ofList? [] arguments with
    | some ⟨_, [encoded]⟩ => some (.header encoded)
    | _ => none
  | "config" =>
    match Arguments.ofList? [] arguments with
    | some ⟨_, [path]⟩ => if path.isEmpty then none else some (.configuration path)
    | _ => none
  | _ => none

def Invocation.ofArguments? (showsDetails : Bool) : List String → Option Invocation
  | [] => none
  | argument :: rest =>
    if argument = "-V" ∨ argument = "--version" then some .showVersion
    else if argument = "-d" ∨ argument = "--debug" then if showsDetails then none else ofArguments? true rest
    else (Command.ofArguments? argument rest).map (.perform showsDetails)

/-! ### Output -/

inductive Severity
  | detail
  | information
  | warning
  deriving DecidableEq, Repr

def Severity.label : Severity → String
  | detail => "DEBUG"
  | information => "INFO"
  | warning => "WARN"

def line (severity : Severity) (message : String) : String :=
  severity.label ++ " " ++ programName ++ ": " ++ message ++ "\n"

/-- What a command has written, and why it failed if it did. -/
structure Outcome where
  output : List String
  failure? : Option String := none
  deriving DecidableEq, Repr

/-- How the program ends: arguments that make no sense are told apart from a command that failed. -/
def exitCode (outcome? : Option Outcome) : UInt32 :=
  match outcome? with
  | none => 2
  | some outcome => if outcome.failure?.isSome then 1 else 0

def helperLines (showsDetails : Bool) (helper : Helper) : List String :=
  let keyIds := helper.contents.keyIds
  let detail := s!"{helper.kind.name} helper from EXT-X-KEY with {keyIds.length} key id(s)"
  let facts :=
    [s!"[+] {helper.kind.name} ({helper.keySystem})", s!"    hdcp 2.2 required: {helper.info.hdcp22Required}"]
      ++ helper.contents.licenseUrl.toList.map ("    license server: " ++ ·)
      ++ (if keyIds.isEmpty then ["    key ids: <none>"] else keyIds.map ("    kid: " ++ Uuid.toText ·))
  (if showsDetails then [line .detail detail] else []) ++ facts.map (line .information)

def headerLines (pssh : Pssh) : List String :=
  let system := match ProtectionSystem.ofUuid? pssh.systemId with
    | some system => system.keySystem
    | none => "unknown"
  let facts := [s!"version: {pssh.version}", s!"flags: {pssh.flags}", s!"system_id: {pssh.systemId.toText} ({system})"]
  let keys := match pssh.keyIds with
    | .ok [] => [line .information "key_ids: <none>"]
    | .ok keyIds => keyIds.map fun keyId => line .information ("kid: " ++ KeyId.display keyId.bytes)
    | .error error => [line .warning ("key_ids unavailable: " ++ error.message)]
  facts.map (line .information) ++ keys

/-- The file that a command reads. -/
def Command.path? : Command → Option String
  | configuration path => some path
  | _ => none

/-- Performs a command; `file` is what the file it reads holds. -/
def Command.perform (showsDetails : Bool) (file : Except SystemFault Bytes) : Command → Outcome
  | keyTag attributes hdcp22Required =>
    match Hls.helperFor .standard attributes hdcp22Required with
    | .ok helper => { output := helperLines showsDetails helper }
    | .error fault =>
      { output := fault.warnings.map (line .warning)
        failure? := some "No usable DRM helper in EXT-X-KEY attributes" }
  | header encoded =>
    match Pssh.ofBase64 encoded with
    | .ok pssh => { output := headerLines pssh }
    | .error error => { output := [], failure? := some error.message }
  | configuration path =>
    match Configuration.ofFile file with
    | .ok settings => { output := [String.ofList settings.toText ++ "\n"] }
    | .error _ => { output := [], failure? := some ("Failed to load " ++ path) }

def Invocation.path? : Invocation → Option String
  | showVersion => none
  | perform _ command => command.path?

def Invocation.outcome (file : Except SystemFault Bytes) : Invocation → Outcome
  | showVersion => { output := [programName ++ " " ++ version ++ "\n"] }
  | perform showsDetails command => command.perform showsDetails file

end ContentProtection.CommandLine
