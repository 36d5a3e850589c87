import Chargeback.Text.Blank

/-!
# Addresses to listen on

An address without a host, written with a colon in front, stands for every address of the
machine; an empty one is that of port 5000. A process can listen on the addresses of its own
machine: all of them together, or those that only the machine itself can reach.
-/

namespace Chargeback.Net

open Text

/-- The address to listen on. -/
def bindAddress (addr : String) : String :=
  let addr := if addr.isEmpty then ":5000" else addr
  if addr.toList.head? == some ':' then "0.0.0.0" ++ addr else addr

/-- A decimal number without a sign that is at most the limit. -/
def numberUpTo? (limit : Nat) (s : List Char) : Option Nat :=
  if s.isEmpty || !s.all isDigit then none
  else if digitsValue s ≤ limit then some (digitsValue s) else none

/-- One of the four numbers of an address: it has no leading zero. -/
def octet? (s : String) : Option Nat :=
  if 1 < s.length && s.toList.head? == some '0' then none else numberUpTo? 255 s.toList

/-- The host is this machine. -/
def isOwnHost (host : String) : Bool :=
  ["localhost", "[::]", "[::1]"].contains host ||
  match (host.splitOn ".").mapM octet? with
  | some [a, b, c, d] => a == 127 || [a, b, c, d].all (· == 0)
  | _ => false

/-- A process can listen on the address: one of this machine and a port. -/
def canListen (address : String) : Bool :=
  let reversed := address.toList.reverse
  let port := (reversed.takeWhile (· != ':')).reverse
  match reversed.dropWhile (· != ':') with
  | [] => false
  | _ :: host => isOwnHost (String.ofList host.reverse) && (numberUpTo? 65535 port).isSome

end Chargeback.Net
