import Courier.Config.Check
import Courier.Message

/-!
# Broker Errors

What goes wrong when bindings are managed and messages delivered.

## Main definitions

* `BrokerError`: the causes.
* `BrokerError.message`: the report of each.
-/

namespace Courier

/-- What goes wrong in a broker. -/
inductive BrokerError where
  /-- A text is no address. -/
  | address (error : AddressError)
  /-- A text is no selector. -/
  | selector (error : SelectorError)
  /-- A configuration, or settings in it, are unsound. -/
  | config (error : ConfigError)
  /-- A divert forwards to a pattern. -/
  | wildcardForwarding (divert : String) (target : String)
  /-- A divert forwards to the address that it takes messages from. -/
  | selfForwarding (divert : String) (target : String)
  /-- The name belongs to another binding. -/
  | duplicateBinding (name : String)
  /-- There is no queue of that name. -/
  | queueNotFound (name : String)
  /-- There is no divert of that name. -/
  | divertNotFound (name : String)
  /-- The message is not in delivery on the queue. -/
  | notInDelivery (queue : String) (id : MessageId)
  /-- The store failed. -/
  | storage (reason : String)
  deriving DecidableEq, Repr

/-- The report of a broker error. -/
def BrokerError.message : BrokerError → String
  | address e => e.message
  | selector e => e.message
  | config e => e.message
  | wildcardForwarding divert target =>
    "Invalid address: divert '" ++ divert ++ "' cannot forward to wildcard address '" ++ target ++
      "'"
  | selfForwarding divert target =>
    "Invalid address: divert '" ++ divert ++ "' cannot forward to its own address '" ++ target ++
      "'"
  | duplicateBinding name => "Binding '" ++ name ++ "' already exists"
  | queueNotFound name => "Queue '" ++ name ++ "' not found"
  | divertNotFound name => "Divert '" ++ name ++ "' not found"
  | notInDelivery queue id =>
    "Message " ++ id.text ++ " is not in delivery on queue '" ++ queue ++ "'"
  | storage reason => "Storage error: " ++ reason

end Courier
