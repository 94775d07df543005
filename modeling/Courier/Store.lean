import Courier.Record.Stream

/-!
# Message Stores

A store keeps durable messages across restarts: messages are appended, removed by their
identifiers, and loaded in the order in which they were appended. A store may fail at any call;
a failed call leaves the store in a state that the call names.

The store in memory is a log of records. Removing a message does not touch the log but notes
the identifier, which hides every record of that identifier, earlier or later, until the log is
compacted.

## Main definitions

* `MessageStore`: what a store can do.
* `MessageLog`: the store in memory, with `MessageLog.load` and `MessageLog.compact`.
-/

namespace Courier

/-- Stores of messages. -/
class MessageStore (σ : Type) where
  /-- Stores a message behind the others. -/
  append : σ → Message → Except String Unit × σ
  /-- Removes a message. -/
  remove : σ → MessageId → Except String Unit × σ
  /-- The messages that are stored, in order. -/
  load : σ → Except String (List Message)

/-- A store in memory. -/
structure MessageLog where
  /-- The records, one after another. -/
  log : List UInt8 := []
  /-- The identifiers of messages that were removed. -/
  removed : List MessageId := []
  /-- The number of records. -/
  records : Nat := 0
  deriving DecidableEq, Repr

namespace MessageLog

/-- The log with a record of a message at its end. -/
def append (s : MessageLog) (m : Message) : Except WireError MessageLog :=
  m.toRecord.map fun record => { s with log := s.log ++ record, records := s.records + 1 }

/-- The log with a message noted as removed. -/
def remove (s : MessageLog) (id : MessageId) : MessageLog :=
  if s.removed.contains id then s else { s with removed := id :: s.removed }

/-- The messages in the log that were not removed. -/
def load (s : MessageLog) : Except WireError (List Message) :=
  (StreamReader.ofMessages s.log).map fun messages =>
    messages.filter fun m => !s.removed.contains m.id

/-- The log with the records of the messages that were not removed, and of nothing else. -/
def compact (s : MessageLog) : Except WireError MessageLog := do
  (← s.load).foldlM append {}

instance : MessageStore MessageLog where
  append s m :=
    match s.append m with
    | .ok s => (.ok (), s)
    | .error e => (.error e.message, s)
  remove s id := (.ok (), s.remove id)
  load s := s.load.mapError WireError.message

end MessageLog

end Courier
