import Courier.Config
import Courier.Selector

/-!
# Checked Configurations

A configuration is checked before a broker is deployed from it. First come the rules of single
fields, all of which are reported together; then the wildcards, the log, the address settings
and the bindings, where the first fault is reported.

## Main definitions

* `FieldFault`: a field that breaks its rule.
* `ConfigError`: what is wrong with a configuration or with the places it comes from.
* `Config.fieldFaults`: every field that breaks its rule.
* `SettingsEntry.check`, `Config.check`: the checks.
-/

namespace Courier

/-! ### Faults -/

/-- The rule that a field breaks. -/
inductive FieldRule where
  /-- The text has to have a character. -/
  | length
  /-- The number has to lie in its range. -/
  | range
  deriving DecidableEq, Repr

/-- The name of a rule. -/
def FieldRule.name : FieldRule → String
  | length => "length"
  | range => "range"

/-- A field that breaks its rule. -/
structure FieldFault where
  /-- The sections and fields on the way to the field. -/
  path : List String
  /-- The rule. -/
  rule : FieldRule
  deriving DecidableEq, Repr

namespace FieldFault

/-- The written form: the path with points, and the rule. -/
def text (f : FieldFault) : String :=
  ".".intercalate f.path ++ ":" ++ f.rule.name

/-- The same fault seen from further out. -/
def under (outer : String) (f : FieldFault) : FieldFault :=
  { f with path := outer :: f.path }

/-- The fault of a text without characters. -/
def ofText (field : String) (text : String) : List FieldFault :=
  if text.isEmpty then [⟨[field], .length⟩] else []

/-- The fault of a number that is not in its range. -/
def ofCount (field : String) (inRange : Bool) : List FieldFault :=
  if inRange then [] else [⟨[field], .range⟩]

/-- The faults of the items of a list, each under its place. -/
def ofItems {α : Type} (field : String) (items : List α) (faults : α → List FieldFault) :
    List FieldFault :=
  items.zipIdx.flatMap fun (item, i) =>
    (faults item).map (under (field ++ "[" ++ toString i ++ "]"))

end FieldFault

/-- What settings send messages to another address for. -/
inductive TargetRole where
  /-- The message was given up. -/
  | deadLetter
  /-- The message expired. -/
  | expiry
  deriving DecidableEq, Repr

/-- The name of a role. -/
def TargetRole.name : TargetRole → String
  | deadLetter => "dead-letter"
  | expiry => "expiry"

/-- What is wrong with a configuration, or with the places it comes from. -/
inductive ConfigError where
  /-- Fields break their rules. -/
  | fields (faults : List FieldFault)
  /-- Two characters of the address syntax are the same. -/
  | wildcardClash (wildcards : Wildcards)
  /-- The level of the log is none. -/
  | logLevel (level : String)
  /-- The pattern of settings is no address. -/
  | settingsPattern (pattern : String) (error : AddressError)
  /-- Settings send messages to a text that is no address. -/
  | settingsTarget (pattern : String) (role : TargetRole) (error : AddressError)
  /-- Settings send messages to a pattern. -/
  | settingsWildcard (pattern : String) (role : TargetRole) (target : String)
  /-- Two bindings have the same name. -/
  | duplicateName (name : String)
  /-- An address of a binding is none. -/
  | bindingAddress (name : String) (error : AddressError)
  /-- The selector of a binding is none. -/
  | bindingFilter (name : String) (error : SelectorError)
  /-- A divert forwards to a pattern. -/
  | wildcardForwarding (name : String) (target : String)
  /-- A divert forwards to the address that it takes messages from. -/
  | selfForwarding (name : String) (target : String)
  /-- The file that was asked for does not exist. -/
  | missingFile
  /-- A file cannot be read. -/
  | unreadableFile
  /-- A file is not in the form of configuration files. -/
  | malformedFile
  /-- The files together do not describe a configuration. -/
  | unusableFiles
  /-- The file and the environment together do not describe a configuration. -/
  | unusableSources
  deriving DecidableEq, Repr

/-- The report of a configuration error. -/
def ConfigError.message : ConfigError → String
  | fields _ => "Validation failed"
  | wildcardClash w =>
    "wildcard delimiter '" ++ String.singleton w.delimiter ++ "', any-words '" ++
      String.singleton w.anyWords ++ "' and single-word '" ++ String.singleton w.singleWord ++
      "' must be distinct"
  | logLevel _ => "Invalid log level"
  | settingsPattern pattern e =>
    "Invalid address settings match '" ++ pattern ++ "': " ++ e.message
  | settingsTarget pattern role e =>
    "Address settings '" ++ pattern ++ "' has an invalid " ++ role.name ++ " address: " ++
      e.message
  | settingsWildcard pattern role target =>
    "Address settings '" ++ pattern ++ "' sends to wildcard " ++ role.name ++ " address '" ++
      target ++ "'"
  | duplicateName name => "Duplicate binding name '" ++ name ++ "'"
  | bindingAddress name e => "Binding '" ++ name ++ "' has an invalid address: " ++ e.message
  | bindingFilter name e => "Binding '" ++ name ++ "' has an invalid filter: " ++ e.message
  | wildcardForwarding name target =>
    "Divert '" ++ name ++ "' forwards to wildcard address '" ++ target ++ "'"
  | selfForwarding name target =>
    "Divert '" ++ name ++ "' forwards to its own address '" ++ target ++ "'"
  | missingFile => "Configuration file"
  | unreadableFile => "Failed to read config file"
  | malformedFile => "Failed to parse config file"
  | unusableFiles => "Failed to parse merged config"
  | unusableSources => "Failed to deserialize config"

/-! ### The rules of fields -/

/-- The faults of settings. -/
def AddressSettings.fieldFaults (s : AddressSettings) : List FieldFault :=
  (s.lastValueKey.map (FieldFault.ofText "last_value_key")).getD [] ++
    (s.maxDeliveryAttempts.map fun n =>
      FieldFault.ofCount "max_delivery_attempts" (1 ≤ n)).getD []

/-- The faults of settings and their pattern. -/
def SettingsEntry.fieldFaults (e : SettingsEntry) : List FieldFault :=
  FieldFault.ofText "pattern" e.pattern ++
    e.settings.fieldFaults.map (FieldFault.under "settings")

/-- The faults of a queue. -/
def QueueConfig.fieldFaults (c : QueueConfig) : List FieldFault :=
  FieldFault.ofText "name" c.name ++ FieldFault.ofText "address" c.address

/-- The faults of a divert. -/
def DivertConfig.fieldFaults (c : DivertConfig) : List FieldFault :=
  FieldFault.ofText "name" c.name ++ FieldFault.ofText "address" c.address ++
    FieldFault.ofText "forwarding_address" c.forwardingAddress

/-- Every field of a configuration that breaks its rule. -/
def Config.fieldFaults (c : Config) : List FieldFault :=
  (FieldFault.ofCount "max_divert_hops"
      (1 ≤ c.routing.maxDivertHops && c.routing.maxDivertHops ≤ 1000)).map
      (FieldFault.under "routing") ++
    (FieldFault.ofCount "max_delivery_attempts" (1 ≤ c.delivery.maxDeliveryAttempts)).map
      (FieldFault.under "delivery") ++
    (FieldFault.ofText "level" c.logging.level).map (FieldFault.under "logging") ++
    FieldFault.ofItems "address_settings" c.addressSettings SettingsEntry.fieldFaults ++
    FieldFault.ofItems "queues" c.queues QueueConfig.fieldFaults ++
    FieldFault.ofItems "diverts" c.diverts DivertConfig.fieldFaults

/-- Reports faults of fields if there are any. -/
def FieldFault.report (faults : List FieldFault) : Except ConfigError Unit :=
  if faults.isEmpty then .ok () else .error (.fields faults)

/-! ### The checks -/

/-- The three characters of the address syntax have to differ. -/
def Wildcards.check (w : Wildcards) : Except ConfigError Unit :=
  if w.areDistinct then .ok () else .error (.wildcardClash w)

/-- The level of the log has to be one of those that the log takes. -/
def LoggingConfig.check (levels : String → Bool) (c : LoggingConfig) : Except ConfigError Unit :=
  if levels c.level then .ok () else .error (.logLevel c.level)

namespace SettingsEntry

/-- A target of settings has to be an address without wildcards. -/
def checkTarget (e : SettingsEntry) (w : Wildcards) (role : TargetRole) :
    Option String → Except ConfigError Unit
  | none => .ok ()
  | some target =>
    match Address.ofString target with
    | .error error => .error (.settingsTarget e.pattern role error)
    | .ok address =>
      if w.isWildcard address.text then .error (.settingsWildcard e.pattern role target)
      else .ok ()

/-- Settings obey the rules of their fields, stand under a pattern that is an address, and send
messages to addresses without wildcards only. -/
def check (e : SettingsEntry) (w : Wildcards) : Except ConfigError Unit := do
  FieldFault.report e.fieldFaults
  match Address.ofString e.pattern with
  | .error error => .error (.settingsPattern e.pattern error)
  | .ok _ => .ok ()
  e.checkTarget w .deadLetter e.settings.deadLetterAddress
  e.checkTarget w .expiry e.settings.expiryAddress

end SettingsEntry

/-- The address of a binding has to be one. -/
def checkBindingAddress (name address : String) : Except ConfigError Address :=
  (Address.ofString address).mapError (.bindingAddress name)

/-- The selector of a binding has to be one. -/
def checkBindingFilter (name : String) (filter : Option String) : Except ConfigError Unit :=
  match Selector.parseOptional filter with
  | .ok _ => .ok ()
  | .error error => .error (.bindingFilter name error)

/-- A queue has an address and a selector. -/
def QueueConfig.check (c : QueueConfig) : Except ConfigError Unit := do
  let _ ← checkBindingAddress c.name c.address
  checkBindingFilter c.name c.filter

/-- A divert has two different addresses and a selector, and forwards to no pattern. -/
def DivertConfig.check (c : DivertConfig) (w : Wildcards) : Except ConfigError Unit := do
  let _ ← checkBindingAddress c.name c.address
  let _ ← checkBindingAddress c.name c.forwardingAddress
  if w.isWildcard c.forwardingAddress then
    .error (.wildcardForwarding c.name c.forwardingAddress)
  if c.forwardingAddress = c.address then .error (.selfForwarding c.name c.address)
  checkBindingFilter c.name c.filter

/-- Checks named things one after another. A name that was taken before is reported ahead of
the faults of the thing itself. -/
def checkNamed {α : Type} (name : α → String) (check : α → Except ConfigError Unit) :
    List String → List α → Except ConfigError (List String)
  | taken, [] => .ok taken
  | taken, a :: rest => do
    if taken.contains (name a) then .error (.duplicateName (name a))
    check a
    checkNamed name check (name a :: taken) rest

namespace Config

/-- Queues and diverts have names of their own and pass their checks. -/
def checkBindings (c : Config) : Except ConfigError Unit := do
  let taken ← checkNamed QueueConfig.name QueueConfig.check [] c.queues
  let _ ← checkNamed DivertConfig.name (DivertConfig.check · c.wildcards) taken c.diverts

/-- The check of a configuration, for a log that takes certain levels. -/
def check (levels : String → Bool) (c : Config) : Except ConfigError Unit := do
  FieldFault.report c.fieldFaults
  c.wildcards.check
  c.logging.check levels
  c.addressSettings.forM (·.check c.wildcards)
  c.checkBindings

end Config

end Courier
