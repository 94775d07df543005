import Courier.Address
import Courier.Config.Tree

/-!
# Configurations

A configuration says how a broker is deployed: how addresses are written, how far messages are
forwarded, what becomes of messages that cannot be delivered, and which queues and diverts
there are. Every setting has a default, so the empty tree describes a working broker.

A configuration is written to a tree and read from one. Keys that mean nothing are passed over,
and options that are not set are not written.

## Main definitions

* `Config` with its sections.
* `Config.toTree`, `Config.ofTree?`: a configuration as a tree, and the way back.
* `AddressSettings.mergeWith`: settings filled up from less specific ones.
-/

namespace Courier

/-! ### Sections -/

/-- The limits of the router. -/
structure RoutingConfig where
  /-- The greatest number of diverts that a message passes through. -/
  maxDivertHops : UInt32 := 10
  deriving DecidableEq, Repr

/-- What becomes of messages that are not delivered, unless their address says otherwise. -/
structure DeliveryConfig where
  /-- The number of deliveries before a message is given up. -/
  maxDeliveryAttempts : UInt32 := 10
  /-- Where messages go that are given up. -/
  deadLetterAddress : Option String := none
  /-- Where messages go that expired. -/
  expiryAddress : Option String := none
  deriving DecidableEq, Repr

/-- The form of the log. -/
inductive LogFormat where
  /-- Lines for readers. -/
  | text
  /-- One object for each event. -/
  | json
  deriving DecidableEq, Repr

/-- The log. -/
structure LoggingConfig where
  /-- Which events are logged. -/
  level : String := "info"
  /-- How events are written. -/
  format : LogFormat := .text
  deriving DecidableEq, Repr

/-- Settings for the queues of some addresses; what is not set is left to less specific
settings. -/
structure AddressSettings where
  /-- Whether only the last message for each value is kept. -/
  lastValueQueue : Option Bool := none
  /-- The property that holds the value. -/
  lastValueKey : Option String := none
  /-- The number of deliveries before a message is given up. -/
  maxDeliveryAttempts : Option UInt32 := none
  /-- Where messages go that are given up. -/
  deadLetterAddress : Option String := none
  /-- Where messages go that expired. -/
  expiryAddress : Option String := none
  deriving DecidableEq, Repr

/-- The settings with those that are not set taken from less specific ones. -/
def AddressSettings.mergeWith (settings fallback : AddressSettings) : AddressSettings where
  lastValueQueue := settings.lastValueQueue <|> fallback.lastValueQueue
  lastValueKey := settings.lastValueKey <|> fallback.lastValueKey
  maxDeliveryAttempts := settings.maxDeliveryAttempts <|> fallback.maxDeliveryAttempts
  deadLetterAddress := settings.deadLetterAddress <|> fallback.deadLetterAddress
  expiryAddress := settings.expiryAddress <|> fallback.expiryAddress

/-- Settings with the pattern of the addresses that they are for. -/
structure SettingsEntry where
  /-- The pattern. -/
  pattern : String
  /-- The settings. -/
  settings : AddressSettings := {}
  deriving DecidableEq, Repr

/-- A queue to be deployed. -/
structure QueueConfig where
  /-- The name, which no other queue or divert has. -/
  name : String
  /-- The pattern of the addresses that the queue is bound to. -/
  address : String
  /-- The selector of the messages that the queue takes. -/
  filter : Option String := none
  /-- Whether durable messages in the queue outlive a restart. -/
  durable : Bool := true
  deriving DecidableEq, Repr

/-- A divert to be deployed. -/
structure DivertConfig where
  /-- The name, which no other queue or divert has. -/
  name : String
  /-- The pattern of the addresses that messages are taken from. -/
  address : String
  /-- The address that copies are sent to. -/
  forwardingAddress : String
  /-- Whether a message that is diverted goes nowhere else. -/
  exclusive : Bool := false
  /-- The selector of the messages that are diverted. -/
  filter : Option String := none
  deriving DecidableEq, Repr

/-- The configuration of a broker. -/
structure Config where
  /-- How addresses and patterns are written. -/
  wildcards : Wildcards := {}
  /-- The limits of the router. -/
  routing : RoutingConfig := {}
  /-- What becomes of messages that are not delivered. -/
  delivery : DeliveryConfig := {}
  /-- The log. -/
  logging : LoggingConfig := {}
  /-- Settings by address pattern. -/
  addressSettings : List SettingsEntry := []
  /-- The queues to be deployed. -/
  queues : List QueueConfig := []
  /-- The diverts to be deployed. -/
  diverts : List DivertConfig := []
  deriving DecidableEq, Repr

/-! ### Writing -/

namespace Config.Tree

/-- A number of things. -/
def ofCount (n : UInt32) : Tree :=
  integer (Int64.ofNat n.toNat)

/-- A character. -/
def ofChar (c : Char) : Tree :=
  string (String.singleton c)

end Config.Tree

open Config (Tree)

/-- How addresses are written, as a tree. -/
def Wildcards.toTree (w : Wildcards) : Tree :=
  .ofFields [
    ("enabled", some (.boolean w.enabled)),
    ("delimiter", some (.ofChar w.delimiter)),
    ("any_words", some (.ofChar w.anyWords)),
    ("single_word", some (.ofChar w.singleWord))]

/-- The limits of the router as a tree. -/
def RoutingConfig.toTree (c : RoutingConfig) : Tree :=
  .ofFields [("max_divert_hops", some (.ofCount c.maxDivertHops))]

/-- The delivery defaults as a tree. -/
def DeliveryConfig.toTree (c : DeliveryConfig) : Tree :=
  .ofFields [
    ("max_delivery_attempts", some (.ofCount c.maxDeliveryAttempts)),
    ("dead_letter_address", c.deadLetterAddress.map .string),
    ("expiry_address", c.expiryAddress.map .string)]

/-- The name of a log format. -/
def LogFormat.name : LogFormat → String
  | text => "text"
  | json => "json"

/-- The log as a tree. -/
def LoggingConfig.toTree (c : LoggingConfig) : Tree :=
  .ofFields [("level", some (.string c.level)), ("format", some (.string c.format.name))]

/-- The fields of settings. -/
def AddressSettings.fields (s : AddressSettings) : List (String × Option Tree) :=
  [("last_value_queue", s.lastValueQueue.map .boolean),
   ("last_value_key", s.lastValueKey.map .string),
   ("max_delivery_attempts", s.maxDeliveryAttempts.map .ofCount),
   ("dead_letter_address", s.deadLetterAddress.map .string),
   ("expiry_address", s.expiryAddress.map .string)]

/-- Settings as a tree. -/
def AddressSettings.toTree (s : AddressSettings) : Tree :=
  .ofFields s.fields

/-- Settings with their pattern as a tree: the pattern stands beside the settings. -/
def SettingsEntry.toTree (e : SettingsEntry) : Tree :=
  .ofFields (("match", some (.string e.pattern)) :: e.settings.fields)

/-- A queue as a tree. -/
def QueueConfig.toTree (c : QueueConfig) : Tree :=
  .ofFields [
    ("name", some (.string c.name)), ("address", some (.string c.address)),
    ("filter", c.filter.map .string), ("durable", some (.boolean c.durable))]

/-- A divert as a tree. -/
def DivertConfig.toTree (c : DivertConfig) : Tree :=
  .ofFields [
    ("name", some (.string c.name)), ("address", some (.string c.address)),
    ("forwarding_address", some (.string c.forwardingAddress)),
    ("exclusive", some (.boolean c.exclusive)), ("filter", c.filter.map .string)]

/-- A configuration as a tree. -/
def Config.toTree (c : Config) : Tree :=
  .ofFields [
    ("wildcard", some c.wildcards.toTree), ("routing", some c.routing.toTree),
    ("delivery", some c.delivery.toTree), ("logging", some c.logging.toTree),
    ("address_settings", some (.array (c.addressSettings.map SettingsEntry.toTree))),
    ("queues", some (.array (c.queues.map QueueConfig.toTree))),
    ("diverts", some (.array (c.diverts.map DivertConfig.toTree)))]

/-! ### Reading -/

namespace Config.Tree

/-- The text that a tree holds. -/
def toText? : Tree → Option String
  | string text => some text
  | _ => none

/-- The truth value that a tree holds. -/
def toBool? : Tree → Option Bool
  | boolean b => some b
  | _ => none

/-- The number of things that a tree holds, which fits into 32 bits. -/
def toCount? : Tree → Option UInt32
  | integer n =>
    if 0 ≤ n.toInt ∧ n.toInt < (1 <<< 32 : Nat) then some (UInt32.ofNat n.toInt.toNat) else none
  | _ => none

/-- The character that a tree holds: a text of one character. -/
def toChar? : Tree → Option Char
  | string text =>
    match text.toList with
    | [c] => some c
    | _ => none
  | _ => none

/-- The items that a tree holds, each read alike. -/
def toItems? {α : Type} (read : Tree → Option α) : Tree → Option (List α)
  | array items => items.mapM read
  | _ => none

/-- The log format that a tree names, by a text or by the only key of a table that holds
nothing there. -/
def toLogFormat? : Tree → Option LogFormat
  | string name => ofName? name
  | table [(name, table [])] | table [(name, array [])] => ofName? name
  | _ => none
where
  /-- The log format of a name. -/
  ofName? : String → Option LogFormat
    | "text" => some .text
    | "json" => some .json
    | _ => none

end Config.Tree

/-- What a section says about each of its fields. -/
abbrev Config.Fields : Type := String → Option Tree

namespace Config.Fields

/-- The fields of a table. -/
def ofTable? : Tree → Option Fields
  | .table entries => some fun k => Entries.find? k entries
  | _ => none

/-- The fields of a section, which is a table, or a list of its first fields in order. -/
def ofSection? (names : List String) : Tree → Option Fields
  | .table entries => some fun k => Entries.find? k entries
  | .array items =>
    if items.length ≤ names.length then some fun k => (names.zip items).lookup k else none
  | _ => none

variable {α : Type} (fields : Fields) (name : String) (read : Tree → Option α)

/-- A field that has to be there. -/
def required : Option α :=
  (fields name).bind read

/-- A field that stands at its default where it is missing. -/
def withDefault (default : α) : Option α :=
  match fields name with
  | some t => read t
  | none => some default

/-- A field that may be missing. -/
def optional : Option (Option α) :=
  fields.withDefault name (fun t => (read t).map some) none

end Config.Fields

open Config (Fields)

/-- The way of writing addresses that a section describes. -/
def Wildcards.ofTree? (t : Tree) : Option Wildcards := do
  let f ← Fields.ofSection? ["enabled", "delimiter", "any_words", "single_word"] t
  some {
    enabled := ← f.withDefault "enabled" Tree.toBool? true
    delimiter := ← f.withDefault "delimiter" Tree.toChar? '.'
    anyWords := ← f.withDefault "any_words" Tree.toChar? '#'
    singleWord := ← f.withDefault "single_word" Tree.toChar? '*' }

/-- The limits that a section describes. -/
def RoutingConfig.ofTree? (t : Tree) : Option RoutingConfig := do
  let f ← Fields.ofSection? ["max_divert_hops"] t
  some { maxDivertHops := ← f.withDefault "max_divert_hops" Tree.toCount? 10 }

/-- The delivery defaults that a section describes. -/
def DeliveryConfig.ofTree? (t : Tree) : Option DeliveryConfig := do
  let f ← Fields.ofSection? ["max_delivery_attempts", "dead_letter_address", "expiry_address"] t
  some {
    maxDeliveryAttempts := ← f.withDefault "max_delivery_attempts" Tree.toCount? 10
    deadLetterAddress := ← f.optional "dead_letter_address" Tree.toText?
    expiryAddress := ← f.optional "expiry_address" Tree.toText? }

/-- The log that a section describes. -/
def LoggingConfig.ofTree? (t : Tree) : Option LoggingConfig := do
  let f ← Fields.ofSection? ["level", "format"] t
  some {
    level := ← f.withDefault "level" Tree.toText? "info"
    format := ← f.withDefault "format" Tree.toLogFormat? .text }

/-- The settings among the fields of a table. -/
def AddressSettings.ofFields? (f : Fields) : Option AddressSettings := do
  some {
    lastValueQueue := ← f.optional "last_value_queue" Tree.toBool?
    lastValueKey := ← f.optional "last_value_key" Tree.toText?
    maxDeliveryAttempts := ← f.optional "max_delivery_attempts" Tree.toCount?
    deadLetterAddress := ← f.optional "dead_letter_address" Tree.toText?
    expiryAddress := ← f.optional "expiry_address" Tree.toText? }

/-- The settings that a table describes. -/
def AddressSettings.ofTree? (t : Tree) : Option AddressSettings :=
  (Fields.ofTable? t).bind AddressSettings.ofFields?

/-- The settings and the pattern that a table describes. -/
def SettingsEntry.ofTree? (t : Tree) : Option SettingsEntry := do
  let f ← Fields.ofTable? t
  some {
    pattern := ← f.required "match" Tree.toText?
    settings := ← AddressSettings.ofFields? f }

/-- The queue that a section describes. -/
def QueueConfig.ofTree? (t : Tree) : Option QueueConfig := do
  let f ← Fields.ofSection? ["name", "address", "filter", "durable"] t
  some {
    name := ← f.required "name" Tree.toText?
    address := ← f.required "address" Tree.toText?
    filter := ← f.optional "filter" Tree.toText?
    durable := ← f.withDefault "durable" Tree.toBool? true }

/-- The divert that a section describes. -/
def DivertConfig.ofTree? (t : Tree) : Option DivertConfig := do
  let f ← Fields.ofSection? ["name", "address", "forwarding_address", "exclusive", "filter"] t
  some {
    name := ← f.required "name" Tree.toText?
    address := ← f.required "address" Tree.toText?
    forwardingAddress := ← f.required "forwarding_address" Tree.toText?
    exclusive := ← f.withDefault "exclusive" Tree.toBool? false
    filter := ← f.optional "filter" Tree.toText? }

/-- The configuration that a tree describes. -/
def Config.ofTree? (t : Tree) : Option Config := do
  let f ← Fields.ofSection?
    ["wildcard", "routing", "delivery", "logging", "address_settings", "queues", "diverts"] t
  some {
    wildcards := ← f.withDefault "wildcard" Wildcards.ofTree? {}
    routing := ← f.withDefault "routing" RoutingConfig.ofTree? {}
    delivery := ← f.withDefault "delivery" DeliveryConfig.ofTree? {}
    logging := ← f.withDefault "logging" LoggingConfig.ofTree? {}
    addressSettings := ←
      f.withDefault "address_settings" (Tree.toItems? SettingsEntry.ofTree?) []
    queues := ← f.withDefault "queues" (Tree.toItems? QueueConfig.ofTree?) []
    diverts := ← f.withDefault "diverts" (Tree.toItems? DivertConfig.ofTree?) [] }

end Courier
