import Courier.Config.Check
import Courier.Message

/-!
# Address Settings

The settings of a queue are gathered from every entry whose pattern matches the queue's
address. Each setting is taken from the most specific entry that has it: the one with the most
literal words, then the fewest runs of words, then the fewest single-word wildcards, and among
equals the latest. What no entry sets is taken from the delivery defaults.

## Main definitions

* `Specificity`: how closely a pattern describes addresses.
* `SettingsRepository`: the entries, with `add`, `remove`, `lookup` and `resolve`.
* `QueueSettings`: the settings that a queue works with.
-/

namespace Courier

/-- How closely a pattern describes addresses: the numbers of its parts of each kind. -/
structure Specificity where
  /-- The number of literal words. -/
  literals : Nat
  /-- The number of runs of words. -/
  runs : Nat
  /-- The number of single-word wildcards. -/
  singles : Nat
  deriving DecidableEq, Repr

namespace Specificity

/-- How closely the segments of a pattern describe addresses. -/
def ofSegments (segments : List Segment) : Specificity where
  literals := segments.countP fun | .literal _ => true | _ => false
  runs := segments.countP fun | .run => true | _ => false
  singles := segments.countP fun | .single => true | _ => false

/-- Whether one pattern is more specific than another. -/
def exceeds (s t : Specificity) : Bool :=
  t.literals < s.literals ||
    (s.literals = t.literals &&
      (s.runs < t.runs || (s.runs = t.runs && s.singles < t.singles)))

end Specificity

/-- The settings that a queue works with. -/
structure QueueSettings where
  /-- The property by which messages replace each other, if they do. -/
  lastValueKey : Option String := none
  /-- The number of deliveries before a message is given up. -/
  maxDeliveryAttempts : UInt32 := 10
  /-- Where messages go that are given up. -/
  deadLetterAddress : Option Address := none
  /-- Where messages go that expired. -/
  expiryAddress : Option Address := none
  deriving DecidableEq, Repr

/-- The settings of all addresses. -/
structure SettingsRepository where
  /-- How patterns and addresses are written. -/
  wildcards : Wildcards := {}
  /-- What holds where no entry says otherwise. -/
  defaults : DeliveryConfig := {}
  /-- The entries, in the order in which they were added. -/
  entries : List SettingsEntry := []
  deriving DecidableEq, Repr

namespace SettingsRepository

/-- The settings of a configuration. -/
def ofConfig (c : Config) : SettingsRepository :=
  { wildcards := c.wildcards, defaults := c.delivery, entries := c.addressSettings }

/-- The repository with an entry added in place of those with the same pattern, if the entry is
sound. -/
def add (r : SettingsRepository) (entry : SettingsEntry) :
    Except ConfigError SettingsRepository := do
  entry.check r.wildcards
  return { r with entries := r.entries.filter (·.pattern ≠ entry.pattern) ++ [entry] }

/-- Whether there is an entry with a pattern. -/
def contains (r : SettingsRepository) (pattern : String) : Bool :=
  r.entries.any (·.pattern = pattern)

/-- The repository without the entries with a pattern. -/
def remove (r : SettingsRepository) (pattern : String) : SettingsRepository :=
  { r with entries := r.entries.filter (·.pattern ≠ pattern) }

/-- How closely a pattern describes addresses. -/
def specificity (r : SettingsRepository) (pattern : String) : Specificity :=
  .ofSegments (r.wildcards.segments pattern)

/-- Whether the first of two entries, each with its place, has the last word over the second:
it is more specific, or as specific and not earlier. -/
def overrides (r : SettingsRepository) (e f : SettingsEntry × Nat) : Bool :=
  let s := r.specificity e.1.pattern
  let t := r.specificity f.1.pattern
  s.exceeds t || (s = t && f.2 ≤ e.2)

/-- The entries whose patterns match an address, those with the last word first. -/
def matching (r : SettingsRepository) (address : String) : List SettingsEntry :=
  ((r.entries.zipIdx.filter fun e => r.wildcards.matches e.1.pattern address).mergeSort
    r.overrides).map Prod.fst

/-- The settings that the entries give an address. -/
def lookup (r : SettingsRepository) (address : String) : AddressSettings :=
  (r.matching address).foldl (fun settings e => settings.mergeWith e.settings) {}

/-- The address that a text names, if it does. -/
def target? (text : Option String) : Option Address :=
  text.bind fun text => (Address.ofString text).toOption

/-- The settings of the queues of an address. A queue that keeps last values without a property
of its own goes by the usual one, and a target that is no address counts as none. -/
def resolve (r : SettingsRepository) (address : String) : QueueSettings :=
  let s := r.lookup address
  { lastValueKey :=
      match s.lastValueQueue, s.lastValueKey with
      | some false, _ => none
      | _, some key => some key
      | some true, none => some Header.lastValue.key
      | none, none => none
    maxDeliveryAttempts := s.maxDeliveryAttempts.getD r.defaults.maxDeliveryAttempts
    deadLetterAddress := target? (s.deadLetterAddress <|> r.defaults.deadLetterAddress)
    expiryAddress := target? (s.expiryAddress <|> r.defaults.expiryAddress) }

end SettingsRepository

end Courier
