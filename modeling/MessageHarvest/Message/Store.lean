import MessageHarvest.Message.Basic

/-! # Stores of messages

    A store holds at most one message for each key, in the order of the keys.
    Recording and merging only ever add occurrences to a message that is
    already there. -/

namespace MessageHarvest

/-- Messages by key. -/
structure Store where
  messages : Sorted Message Message.key
  deriving DecidableEq, Inhabited

namespace Store

/-- No messages. -/
def empty : Store := ⟨.empty⟩

/-- The messages in the order of their keys. -/
def toList (s : Store) : List Message := s.messages.toList

/-- The number of messages. -/
def size (s : Store) : Nat := s.messages.size

/-- Whether there is no message. -/
def isEmpty (s : Store) : Bool := s.toList.isEmpty

/-- The message of a key. -/
def find? (s : Store) (k : Message.Key) : Option Message := s.messages.find? k

/-- Whether there is a message of a key. -/
def contains (s : Store) (k : Message.Key) : Bool := s.messages.contains k

/-- Adds one occurrence of a message. -/
def record (k : Message.Key) (o : Occurrence) (s : Store) : Store :=
  ⟨s.messages.insertWith (Message.occurs o) (Message.key_occurs o)
    (Message.occurs o { key := k })⟩

/-- Adds one occurrence of a message, and tells whether the message is new. -/
def recordNew (k : Message.Key) (o : Occurrence) (s : Store) : Bool × Store :=
  match s.find? k with
  | some _ => (false, s.record k o)
  | none => (true, s.record k o)

/-- Adds a message. One that is already there gets its occurrences, and keeps
    its position if it has one. -/
def insert (m : Message) (s : Store) : Store :=
  ⟨s.messages.insertWith (Message.absorb m) (Message.key_absorb m) m⟩

/-- The store of some messages. -/
def ofList (ms : List Message) : Store := ms.foldl (fun s m => s.insert m) empty

/-- Adds the messages of another store. -/
def merge (s t : Store) : Store := t.toList.foldl (fun s m => s.insert m) s

/-- Removes the message of a key. -/
def erase (k : Message.Key) (s : Store) : Store := ⟨s.messages.erase k⟩

/-- The number of occurrences of all messages. -/
def occurrenceCount (s : Store) : Nat :=
  s.toList.foldl (fun n m => n + m.occurrences.size) 0

/-- The messages in catalog order. -/
def sorted (s : Store) : List Message :=
  s.toList.mergeSort fun a b => a.catalogOrder b != .gt

@[simp] theorem toList_empty : empty.toList = [] := rfl

@[simp] theorem find?_empty (k : Message.Key) : empty.find? k = none := rfl

end Store

end MessageHarvest
