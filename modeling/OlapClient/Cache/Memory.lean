import OlapClient.Cache.Settings
import OlapClient.Text.Utf8

/-!
# Exchanges in memory

A bounded store that gives up the exchange used longest ago. Storing an exchange uses it, and
so does looking it up with success. An exchange that outlived its time is dropped when it is
looked up.
-/

namespace OlapClient

/-- An address and a key: what an exchange is stored under. -/
abbrev ExchangeKey := String × Bytes

/-- An exchange in memory. -/
structure MemoryEntry where
  key : ExchangeKey
  response : Bytes
  /-- The nanosecond at which it was stored. -/
  storedAt : Nat
  deriving DecidableEq, Repr

/-- A bounded store of exchanges. -/
structure MemoryStore where
  capacity : Nat
  lifetime : Duration
  /-- The exchanges, most recently used first. -/
  entries : List MemoryEntry := []
  deriving DecidableEq, Repr

namespace MemoryStore

/-- An empty store; it holds one exchange at least. -/
def ofSettings (s : MemorySettings) : MemoryStore where
  capacity := max 1 s.capacity
  lifetime := s.lifetime

/-- The number of exchanges, those that outlived their time included. -/
def size (m : MemoryStore) : Nat := m.entries.length

/-- A store without exchanges. -/
def isEmpty (m : MemoryStore) : Bool := m.entries.isEmpty

/-- The store without its exchanges. -/
def clear (m : MemoryStore) : MemoryStore := { m with entries := [] }

/-- The exchanges under other keys. -/
def others (m : MemoryStore) (key : ExchangeKey) : List MemoryEntry :=
  m.entries.filter fun entry => entry.key != key

/-- Whether an exchange outlived its time. -/
def isExpired (m : MemoryStore) (now : Nat) (entry : MemoryEntry) : Bool :=
  m.lifetime.nanoseconds < now - entry.storedAt

/-- Looks up a response. -/
def lookup (m : MemoryStore) (now : Nat) (key : ExchangeKey) : MemoryStore × Option Bytes :=
  match m.entries.find? fun entry => entry.key == key with
  | none => (m, none)
  | some entry =>
    if m.isExpired now entry then ({ m with entries := m.others key }, none)
    else ({ m with entries := entry :: m.others key }, some entry.response)

/-- Stores a response, in place of an earlier one under its key. -/
def store (m : MemoryStore) (now : Nat) (key : ExchangeKey) (response : Bytes) : MemoryStore :=
  { m with entries := (⟨key, response, now⟩ :: m.others key).take m.capacity }

end MemoryStore

end OlapClient
