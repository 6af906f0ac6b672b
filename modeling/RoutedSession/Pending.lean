import RoutedSession.Error

/-!
Requests that wait for their answers. Every registration has an id, which answers carry, and a
ticket, under which its own outcome is kept. An id can be given out again later; a ticket cannot.
-/

namespace RoutedSession

/-- Tells registrations apart, also those of one id. -/
abbrev Ticket := Nat

/-- What a request that is no longer pending has come to. -/
abbrev Outcome := Except SessionError Message

/-- The pending requests of a session. -/
structure PendingTable where
  /-- The ids in use, each with the ticket of its registration. -/
  entries : List (UInt32 × Ticket) := []
  /-- The id that was given out last. -/
  lastId : UInt32 := 0
  closed : Bool := false
  /-- How many tickets have been given out. -/
  issued : Nat := 0
  /-- Outcomes that nobody has taken yet. -/
  outcomes : List (Ticket × Outcome) := []
  deriving Repr

namespace PendingTable

/-- The number of pending requests. -/
def size (table : PendingTable) : Nat :=
  table.entries.length

def isPending (table : PendingTable) (id : UInt32) : Bool :=
  table.entries.any (·.1 == id)

def ticket? (table : PendingTable) (id : UInt32) : Option Ticket :=
  table.entries.lookup id

/-- The first id after `id` that is neither zero nor in use, if one of the next `attempts` is. -/
def nextFree? (inUse : UInt32 → Bool) : (attempts : Nat) → (id : UInt32) → Option UInt32
  | 0, _ => none
  | attempts + 1, id =>
      let next := id + 1
      if next ≠ 0 && !inUse next then some next else nextFree? inUse attempts next

/-- The id for the next registration. Of so many ids in a row one is free, unless every id is in
use: at most one of them is zero, and the others cannot all be in use. -/
def nextId? (table : PendingTable) : Option UInt32 :=
  nextFree? table.isPending (table.entries.length + 2) table.lastId

/-- Adds a request, unless the table is closed. While every id is in use, none can be added: the
search for a free id goes on for ever. -/
def register (table : PendingTable) : Option ((UInt32 × Ticket) × PendingTable) :=
  if table.closed then none
  else
    table.nextId?.map fun id =>
      ((id, table.issued),
        { table with
          entries := (id, table.issued) :: table.entries
          lastId := id
          issued := table.issued + 1 })

def without (table : PendingTable) (id : UInt32) : PendingTable :=
  { table with entries := table.entries.filter (·.1 != id) }

/-- Hands an answer to the request whose id it carries. Says whether there is one. -/
def resolve (table : PendingTable) (answer : Message) : Bool × PendingTable :=
  match table.ticket? answer.id with
  | none => (false, table)
  | some ticket =>
      (true, { table.without answer.id with
        outcomes := (ticket, .ok answer) :: table.outcomes })

/-- Removes a request that no longer waits. Says whether there was one. -/
def cancel (table : PendingTable) (id : UInt32) : Bool × PendingTable :=
  (table.isPending id, table.without id)

/-- Fails every pending request and takes no more. Returns how many were pending. -/
def close (table : PendingTable) : Nat × PendingTable :=
  (table.size,
    { table with
      entries := []
      closed := true
      outcomes := table.entries.map (fun entry => (entry.2, .error .closed)) ++ table.outcomes })

/-- Where a registration stands. -/
inductive Standing where
  /-- No outcome yet. -/
  | waiting
  | ready (outcome : Outcome)
  /-- There is no outcome to come: it was taken, or the request was cancelled. -/
  | gone
  deriving Repr

def standing (table : PendingTable) (ticket : Ticket) : Standing :=
  match table.outcomes.lookup ticket with
  | some outcome => .ready outcome
  | none => if table.entries.any (·.2 == ticket) then .waiting else .gone

/-- Takes the outcome of a ticket out of the table. -/
def take (table : PendingTable) (ticket : Ticket) : PendingTable :=
  { table with outcomes := table.outcomes.filter (·.1 != ticket) }

end PendingTable

/-- The waiting side of a registration. -/
structure PendingAnswer where
  id : UInt32
  ticket : Ticket
  deriving DecidableEq, Repr

namespace PendingAnswer

/-- Looks for the outcome and takes it. A request that was cancelled has come to an end too. -/
def poll (answer : PendingAnswer) (table : PendingTable) : Option Outcome × PendingTable :=
  match table.standing answer.ticket with
  | .waiting => (none, table)
  | .ready outcome => (some outcome, table.take answer.ticket)
  | .gone => (some (.error .closed), table)

/-- Gives up. A request that still waits under this ticket is cancelled, and an outcome that nobody
took is lost. -/
def drop (answer : PendingAnswer) (table : PendingTable) : PendingTable :=
  match table.standing answer.ticket with
  | .waiting => (table.cancel answer.id).2
  | .ready _ => table.take answer.ticket
  | .gone => table

end PendingAnswer

end RoutedSession
