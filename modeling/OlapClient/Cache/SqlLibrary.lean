import OlapClient.Files
import OlapClient.Time.Stamp

/-!
# Database libraries

What a table store asks of the library that runs its statements. Nothing is known of it here: any
call may change the files and the connection, may depend on the time, and may fail. What a table
store can promise beyond that rests on what its library promises.
-/

namespace OlapClient

/-- A library for SQL databases, by the calls that a table store makes. `κ` is an open connection.
-/
class SqlLibrary (κ : Type) where
  /-- Connects to a new database that nobody else sees. -/
  openInMemory : Files → Moment → Files × Option κ
  /-- Connects to the database at a location. -/
  openAt : Files → Moment → String → Files × Option κ
  /-- Runs the statements of a text. -/
  executeBatch : κ → Files → Moment → String → Files × κ × Option Unit
  /-- Runs a statement on one parameter, for the bytes in the first column of its first row. -/
  queryRow : κ → Files → Moment → String → Bytes → Files × κ × Option (Option Bytes)
  /-- Runs a statement on two parameters. -/
  execute : κ → Files → Moment → String → Bytes → Bytes → Files × κ × Option Unit

end OlapClient
