import Chargeback.Number.Power
import Chargeback.Text.Blank
import Chargeback.Text.Utf8

/-!
# Web addresses

An address with an authority is read by the URL rules: the authority ends at the first slash,
question mark or number sign; the user information in it ends at the last at-sign and is split
at its first colon; the port, if there is one, follows the host after a colon. Percent escapes
in user information stand for bytes.

Addresses of the web itself, such as those of scheme `http`, are SPECIAL: a backslash counts as
a slash, it does not matter how many slashes stand before the authority, and the name of the host
is one of the web, where escapes stand for bytes and case is of no consequence. The host of any
other address is taken as it is written.

Names of hosts beyond ASCII and numbers as hosts are not brought to their usual form here.
-/

namespace Chargeback

open Text

/-- The parts of an address. -/
structure Url where
  scheme : String
  user : String
  password : Option String
  host : String
  port : Option Nat
  path : String
  query : Option String
  deriving DecidableEq, Repr

namespace Url

/-- The bytes that a text with percent escapes stands for. A percent sign that begins no escape
stands for itself. -/
def percentDecode : List Char → List UInt8
  | [] => []
  | '%' :: a :: b :: r => match hexValue? a, hexValue? b with
    | some x, some y => UInt8.ofNat (16 * x + y) :: percentDecode r
    | _, _ => encode "%" ++ percentDecode (a :: b :: r)
  | c :: r => encode (String.singleton c) ++ percentDecode r

/-- A text with its percent escapes replaced by what they stand for. -/
def decoded? (s : List Char) : Option String := Text.decode? (percentDecode s)

/-- Control characters and spaces, which are cut off at the ends. -/
def isOuterBlank (c : Char) : Bool := c.toNat ≤ 0x20

/-- The text that is read: without blanks at the ends, and without tabs and line ends. -/
def cleaned (s : List Char) : List Char :=
  let inner := ((s.dropWhile isOuterBlank).reverse.dropWhile isOuterBlank).reverse
  inner.filter fun c => c != '\t' && c != '\n' && c != '\r'

/-- The schemes of the web. -/
def isSpecial (scheme : String) : Bool := ["http", "https", "ws", "wss", "ftp"].contains scheme

/-- The scheme in lower case, and what follows the colon after it. -/
def splitScheme? (s : List Char) : Option (String × List Char) :=
  let isInner (c : Char) : Bool := isLetter c || isDigit c || c == '+' || c == '-' || c == '.'
  match s.takeWhile isInner, s.dropWhile isInner with
  | c :: cs, ':' :: r => if isLetter c then some (String.ofList ((c :: cs).map lowerAscii), r) else none
  | _, _ => none

/-- What stands before the authority: two slashes or, for a special scheme, any number of
slashes. -/
def skipSlashes? (special : Bool) (s : List Char) : Option (List Char) :=
  if special then some (s.dropWhile fun c => c == '/' || c == '\\')
  else match s with
    | '/' :: '/' :: r => some r
    | _ => none

/-- The character ends an authority. -/
def endsAuthority (special : Bool) (c : Char) : Bool :=
  c == '/' || c == '?' || c == '#' || (special && c == '\\')

/-- What stands before the last at-sign, if there is one, and what stands after it. -/
def splitUserInfo (s : List Char) : Option (List Char) × List Char :=
  match s.reverse.dropWhile (· != '@') with
  | [] => (none, s)
  | _ :: front => (some front.reverse, (s.reverse.takeWhile (· != '@')).reverse)

/-- The user and, after the first colon, the password. -/
def userAndPassword? (info : List Char) : Option (String × Option String) := do
  let user ← decoded? (info.takeWhile (· != ':'))
  match info.dropWhile (· != ':') with
  | _ :: r => return (user, some (← decoded? r))
  | [] => return (user, none)

/-- The character may stand in the host of an address that is not special. -/
def isOpaqueChar (c : Char) : Bool := c.toNat != 0 && !" #/:<>?@[\\]^|".toList.contains c

/-- The character may stand in the name of a host of the web. -/
def isHostChar (c : Char) : Bool :=
  isOpaqueChar c && 0x20 < c.toNat && c.toNat != 0x7F && c != '%'

/-- A character as it stands in a host that is taken as it is written: a control character or one
beyond ASCII is escaped. -/
def escaped (c : Char) : List Char :=
  if 0x20 ≤ c.toNat && c.toNat < 0x7F then [c]
  else (encode (String.singleton c)).flatMap fun b =>
    ['%', (Nat.digitChar (b.toNat / 16)).toUpper, (Nat.digitChar (b.toNat % 16)).toUpper]

/-- The host that is written somehow. -/
def host? (special : Bool) (written : List Char) : Option String :=
  if special then do
    let name ← decoded? written
    if name.toList.all isHostChar then some (String.ofList (name.toList.map lowerAscii)) else none
  else if written.all isOpaqueChar then some (String.ofList (written.flatMap escaped))
  else none

/-- A host that is not empty, and the port after it. -/
def hostAndPort? (special : Bool) (s : List Char) : Option (String × Option Nat) := do
  let bracketed := s.head? == some '['
  let host := if bracketed then s.takeWhile (· != ']') ++ [']'] else s.takeWhile (· != ':')
  let rest := if bracketed then (s.dropWhile (· != ']')).drop 1 else s.dropWhile (· != ':')
  if host.isEmpty then none
  else
    let name ← if bracketed then some (String.ofList (host.map lowerAscii)) else host? special host
    match rest with
    | [] => some (name, none)
    | ':' :: ds =>
      if ds.isEmpty then some (name, none)
      else if ds.all isDigit && digitsValue ds < 2 ^ 16 then some (name, some (digitsValue ds))
      else none
    | _ => none

/-- Reads an address with an authority. -/
def read? (text : String) : Option Url := do
  let (scheme, rest) ← splitScheme? (cleaned text.toList)
  let special := isSpecial scheme
  let rest ← skipSlashes? special rest
  let authority := rest.takeWhile fun c => !endsAuthority special c
  let tail := rest.dropWhile fun c => !endsAuthority special c
  let (info, place) := splitUserInfo authority
  let (user, password) ← userAndPassword? (info.getD [])
  let (host, port) ← hostAndPort? special place
  let beforeFragment := tail.takeWhile (· != '#')
  let query := match beforeFragment.dropWhile (· != '?') with
    | _ :: q => some (String.ofList q)
    | [] => none
  return { scheme, user, password, host, port,
           path := String.ofList (beforeFragment.takeWhile (· != '?')), query }

end Url

end Chargeback
