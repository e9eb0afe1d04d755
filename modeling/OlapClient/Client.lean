import OlapClient.Connection
import OlapClient.Statement.Execution

/-!
# Clients

A client works with one connection at a time, and may give up a statement or replace the
connection at any moment, even while something executes. A statement that is given up closes as
soon as nothing executes on it. Until then it keeps its connection, with the settings and the
cache of that connection.
-/

namespace OlapClient

/-- A statement of a client. -/
structure ClientStatement where
  state : Statement := {}
  /-- The number of its connection. -/
  connection : Nat := 0
  /-- How many executions on it are under way. -/
  executions : Nat := 0
  isGivenUp : Bool := false
  deriving DecidableEq, Repr

/-- The connections of a client, with all that stands on them. Numbers are never used again. -/
structure Client (κ : Type) where
  /-- The response caches, by number. -/
  caches : List κ := []
  /-- The cache that the next connection can share. -/
  cache : Option Nat := none
  /-- The connections, by number, each with the number of its cache. -/
  connections : List (Connection × Option Nat) := []
  /-- The connection in use. -/
  connection : Option Nat := none
  /-- The statements, by number. -/
  statements : List ClientStatement := []
  /-- The statements of the connection in use, by slot; one that was given up leaves a gap. -/
  slots : List (Option Nat) := []
  desk : Desk := {}

namespace Client

variable {κ : Type}

/-! ### Connections and caches -/

/-- The connection in use. -/
def current? (c : Client κ) : Option Connection :=
  (c.connection.bind (c.connections[·]?)).map (·.1)

/-- Changes the connection in use. -/
def changeCurrent (c : Client κ) (f : Connection → Connection) : Client κ :=
  match c.connection with
  | some n => { c with connections := c.connections.modify n fun entry => (f entry.1, entry.2) }
  | none => c

/-- Takes a new cache for the next connection. -/
def withCache (c : Client κ) (cache : κ) : Client κ :=
  { c with caches := c.caches ++ [cache], cache := some c.caches.length }

/-- Changes the cache of a number. -/
def changeCache (c : Client κ) (n : Nat) (f : κ → κ) : Client κ :=
  { c with caches := c.caches.modify n f }

/-- The number of the cache that a statement uses. -/
def cacheOf (c : Client κ) (s : ClientStatement) : Option Nat :=
  (c.connections[s.connection]?).bind (·.2)

/-- Whether a cache is still needed. -/
def needs (c : Client κ) (cache : Nat) : Bool :=
  c.cache == some cache ||
    c.statements.any fun s => 0 < s.executions && c.cacheOf s == some cache

/-! ### Statements -/

/-- The number of the statement in a slot. -/
def inSlot (c : Client κ) (slot : Nat) : Option Nat := (c.slots[slot]?).join

/-- The statement of a number. -/
def statement (c : Client κ) (n : Nat) : ClientStatement := c.statements.getD n {}

/-- Changes the statement of a number. -/
def changeStatement (c : Client κ) (n : Nat) (f : ClientStatement → ClientStatement) : Client κ :=
  { c with statements := c.statements.modify n f }

/-- An action on the statement of a number, under the settings of its connection. -/
def act {α : Type} (c : Client κ) (n : Nat) (f : Config → Statement → Desk → Acted α) :
    Logged (α × Client κ) :=
  let s := c.statement n
  let config := ((c.connections[s.connection]?).map (·.1.config)).getD {}
  let (events, a, state, desk) := f config s.state c.desk
  (events, a, { c.changeStatement n ({ · with state := state }) with desk := desk })

/-- Closes the statement of a number. -/
def close (c : Client κ) (n : Nat) : Logged (Client κ) :=
  let (events, _, c) := c.act n fun _ s d => let (events, s, d) := s.close d; (events, (), s, d)
  (events, c)

/-- Closes the statement of a number if nobody needs it. -/
def closeUnneeded (c : Client κ) (n : Nat) : Logged (Client κ) :=
  let s := c.statement n
  if s.isGivenUp && s.executions == 0 then c.close n else ([], c)

/-- Gives up statements. -/
def giveUp (c : Client κ) : List Nat → Logged (Client κ)
  | [] => ([], c)
  | n :: rest =>
    let (events, c) := (c.changeStatement n ({ · with isGivenUp := true })).closeUnneeded n
    let (more, c) := giveUp c rest
    (events ++ more, c)

/-- Gives up the statement in a slot, if there is one. -/
def giveUpSlot (c : Client κ) (slot : Nat) : Logged (Client κ) :=
  { c with slots := c.slots.set slot none }.giveUp (c.inSlot slot).toList

/-- An execution on the statement of a number begins. -/
def beginExecution (c : Client κ) (n : Nat) : Client κ :=
  c.changeStatement n fun s => { s with executions := s.executions + 1 }

/-- An execution on the statement of a number is over. -/
def endExecution (c : Client κ) (n : Nat) : Logged (Client κ) :=
  (c.changeStatement n fun s => { s with executions := s.executions - 1 }).closeUnneeded n

/-- Makes a statement on the connection in use, in the next slot. -/
def newStatement (c : Client κ) : Client κ :=
  match c.connection, c.current? with
  | some n, some connection =>
    { c with
      statements := c.statements ++ [{ state := connection.newStatement, connection := n }]
      slots := c.slots ++ [some c.statements.length] }
  | _, _ => c

/-! ### Replacing the connection -/

/-- The client without a connection, and the statements that it is to give up. -/
def disconnect (c : Client κ) : Client κ × List Nat :=
  ({ c with connection := none, slots := [] }, c.slots.filterMap id)

/-- The client with a new connection, on which there is one statement. -/
def connect (c : Client κ) (connection : Connection) : Client κ :=
  newStatement { c with
    connections := c.connections ++ [(connection, c.cache)]
    connection := some c.connections.length
    slots := [] }

end Client

end OlapClient
