import TunnelFleet.Address.Socket

namespace TunnelFleet

inductive UsageError where
  | unknownArgument
  | invalidValue
  | valueValidation
  | argumentConflict
  | tooManyValues
  | displayHelp
  | displayVersion
deriving DecidableEq

inductive ValueRule where
  | anyText
  | somePath
  | socketAddress
deriving DecidableEq

inductive OptionRole where
  | flag
  | value (rule : ValueRule) (envName : Option String)
  | help
  | version
deriving DecidableEq

structure OptionDef where
  name : String
  role : OptionRole
deriving DecidableEq

namespace CommandLine

/-- The options of every program. Only these have short names, their first letters. -/
def helpOption : OptionDef :=
  ⟨"help", .help⟩

def versionOption : OptionDef :=
  ⟨"version", .version⟩

def short? (c : Char) : Option OptionDef :=
  if c = 'h' then some helpOption else if c = 'V' then some versionOption else none

def ValueRule.check (rule : ValueRule) (value : String) : Except UsageError Unit :=
  match rule with
  | .anyText => .ok ()
  | .somePath => if value = "" then .error .invalidValue else .ok ()
  | .socketAddress =>
      if (SocketAddress.ofText? value).isSome then .ok () else .error .valueValidation

/-- The reader between two arguments: the options met so far with their values, and an option that
waits for its value or whose value has not been looked at yet. -/
structure Scan where
  given : List (String × String)
  waiting : Option (String × ValueRule × Option String)

namespace Scan

def accept (given : List (String × String)) (name : String) (rule : ValueRule) (value : String) :
    Except UsageError (List (String × String)) :=
  if given.any fun entry => entry.1 == name then .error .argumentConflict
  else (ValueRule.check rule value).map fun _ => (name, value) :: given

def settle (s : Scan) : Except UsageError (List (String × String)) :=
  match s.waiting with
  | none => .ok s.given
  | some (_, _, none) => .error .invalidValue
  | some (name, rule, some value) => accept s.given name rule value

def option (s : Scan) (o : OptionDef) : Except UsageError Scan := do
  let given ← s.settle
  match o.role with
  | .value rule _ => .ok ⟨given, some (o.name, rule, none)⟩
  | .flag => do
      let given ← accept given o.name .anyText ""
      .ok ⟨given, none⟩
  | .help => .error .displayHelp
  | .version => .error .displayVersion

def optionWith (s : Scan) (o : OptionDef) (value : String) : Except UsageError Scan :=
  match o.role with
  | .value rule _ => do
      let given ← s.settle
      let given ← accept given o.name rule value
      .ok ⟨given, none⟩
  | _ => .error .tooManyValues

def word (s : Scan) (value : String) : Except UsageError Scan :=
  match s.waiting with
  | some (name, rule, none) => .ok { s with waiting := some (name, rule, some value) }
  | _ => .error .unknownArgument

def argument (options : List OptionDef) (s : Scan) (arg : String) : Except UsageError Scan :=
  match arg.toList with
  | '-' :: '-' :: body =>
      let name := String.ofList (body.takeWhile (· != '='))
      match options.find? fun o => o.name == name with
      | none => .error .unknownArgument
      | some o =>
          match body.dropWhile (· != '=') with
          | [] => s.option o
          | _ :: value => s.optionWith o (String.ofList value)
  | '-' :: c :: _ =>
      match short? c with
      | none => .error .unknownArgument
      | some o => s.option o
  | _ => s.word arg

def arguments (options : List OptionDef) (s : Scan) : List String → Except UsageError Scan
  | [] => .ok s
  | arg :: rest =>
      if arg = "--" then if rest.isEmpty then .ok s else .error .unknownArgument
      else do
        let s ← s.argument options arg
        s.arguments options rest

end Scan

def fromEnvironment (environment : List (String × String)) :
    List OptionDef → List (String × String) → Except UsageError (List (String × String))
  | [], given => .ok given
  | o :: rest, given =>
      match o.role with
      | .value rule (some envName) =>
          match given.lookup o.name, environment.lookup envName with
          | none, some value => do
              let given ← Scan.accept given o.name rule value
              fromEnvironment environment rest given
          | _, _ => fromEnvironment environment rest given
      | _ => fromEnvironment environment rest given

def read (options : List OptionDef) (args : List String) (environment : List (String × String)) :
    Except UsageError (List (String × String)) := do
  let s ← Scan.arguments (options ++ [helpOption, versionOption]) ⟨[], none⟩ args
  let given ← s.settle
  fromEnvironment environment options given

end CommandLine

structure NodeArguments where
  once : Bool
  serveMetrics : Bool
  metricsAddress : SocketAddress
deriving DecidableEq

namespace NodeArguments

def options : List OptionDef :=
  [⟨"once", .flag⟩, ⟨"serve-metrics", .flag⟩,
    ⟨"metrics-addr", .value .socketAddress (some "KUBE_PET_METRICS_ADDR")⟩]

def everywhere : SocketAddress :=
  .v4 ⟨0, by decide⟩ 9090

def read (args : List String) (environment : List (String × String)) :
    Except UsageError NodeArguments :=
  (CommandLine.read options args environment).map fun given => {
    once := (given.lookup "once").isSome
    serveMetrics := (given.lookup "serve-metrics").isSome
    metricsAddress :=
      ((given.lookup "metrics-addr").bind SocketAddress.ofText?).getD everywhere }

end NodeArguments

structure RouterArguments where
  once : Bool
  interface : String
  configPath : String
  host : Option String
deriving DecidableEq

namespace RouterArguments

def options : List OptionDef :=
  [⟨"once", .flag⟩, ⟨"interface", .value .anyText (some "KUBE_PET_INTERFACE")⟩,
    ⟨"config-path", .value .somePath (some "KUBE_PET_CONFIG_PATH")⟩,
    ⟨"host", .value .anyText (some "HOSTNAME")⟩]

/-- Without a path the tunnel file is the interface's usual one. -/
def read (args : List String) (environment : List (String × String)) :
    Except UsageError RouterArguments :=
  (CommandLine.read options args environment).map fun given =>
    let interface := (given.lookup "interface").getD "wg-gke"
    { once := (given.lookup "once").isSome
      interface
      configPath :=
        (given.lookup "config-path").getD ("/etc/wireguard/" ++ interface ++ ".conf")
      host := given.lookup "host" }

end RouterArguments

end TunnelFleet
