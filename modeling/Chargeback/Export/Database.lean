import Chargeback.Config.Settings
import Chargeback.Export.Sql
import Chargeback.Net.Url

/-!
# The database behind the ClickHouse exporter

What the exporter says to the database: the address that it connects to, the login that a
client reads from that address, and the statements, in the order in which they are executed.
-/

namespace Chargeback

/-- The user information in an address: nothing without a user name. -/
def ClickHouseSettings.credentials (s : ClickHouseSettings) : String :=
  if s.username.isEmpty then ""
  else if s.password.isEmpty then s.username ++ "@"
  else s.username ++ ":" ++ s.password ++ "@"

/-- The options of every connection. -/
def ClickHouseSettings.connectionOptions : String := "compression=lz4&pool_min=1&pool_max=4"

/-- The address of the database. -/
def ClickHouseSettings.dsn (s : ClickHouseSettings) : String :=
  "tcp://" ++ s.credentials ++ s.endpoint ++ "/" ++ s.database ++ "?" ++
    ClickHouseSettings.connectionOptions

/-- Who a client is to the database. -/
structure Login where
  database : String
  username : String
  password : String
  deriving DecidableEq, Repr

namespace Login

/-- The login that an address asks for. The path names at most one database, and the options
must be the known ones; what is missing or empty is `default`, and so is the user, while the
password is empty. -/
def ofUrl? (u : Url) : Option Login :=
  let database? := match u.path.toList with
    | [] => some ""
    | _ :: name => if name.contains '/' then none else some (String.ofList name)
  let named (s : String) : String := if s.isEmpty then "default" else s
  if u.scheme != "tcp" || !(u.query.all (· == ClickHouseSettings.connectionOptions)) then none
  else database?.map fun d =>
    { database := named d, username := named u.user, password := u.password.getD "" }

end Login

/-- A database that takes note of what is said to it. -/
structure Database where
  host : String
  port : Nat
  /-- A statement that contains one of these texts fails. -/
  refusals : List String
  firstLogin : Option Login
  statements : List String
  deriving DecidableEq, Repr

namespace Database

/-- A database that nobody has spoken to. -/
def silent (host : String) (port : Nat) (refusals : List String) : Database :=
  { host, port, refusals, firstLogin := none, statements := [] }

/-- The port of databases whose address has none. -/
def usualPort : Nat := 9000

/-- A client connects to an address; it fails unless the database is there. -/
def connect? (address : String) (d : Database) : Option Database := do
  let u ← Url.read? address
  let login ← Login.ofUrl? u
  if u.host == d.host && u.port.getD usualPort == d.port then
    return { d with firstLogin := some (d.firstLogin.getD login) }
  else none

/-- A text contains another one. -/
def containsText (part : List Char) : List Char → Bool
  | [] => part.isEmpty
  | c :: r => part.isPrefixOf (c :: r) || containsText part r

/-- Executes a statement: whether it succeeded, and the database afterwards. -/
def execute (statement : String) (d : Database) : Bool × Database :=
  (!d.refusals.any fun r => containsText r.toList statement.toList,
    { d with statements := d.statements ++ [statement] })

end Database

end Chargeback
