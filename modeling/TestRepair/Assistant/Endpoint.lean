import TestRepair.Assistant.Request
import TestRepair.Settings
import TestRepair.Text.Search

/-!
Addresses of assistants. An address has to be absolute; where it names a host, the host and the port
have to be well formed.
-/

namespace TestRepair

namespace Endpoint

/-- What is wrong with an address. -/
inductive Fault
  | relative
  | emptyHost
  | port
  | ipv4
  | ipv6
  | internationalName
  | hostCharacter
  deriving DecidableEq, Repr

def Fault.message : Fault → String
  | relative => "relative URL without a base"
  | emptyHost => "empty host"
  | port => "invalid port number"
  | ipv4 => "invalid IPv4 address"
  | ipv6 => "invalid IPv6 address"
  | internationalName => "invalid international domain name"
  | hostCharacter => "invalid domain character"

def isSchemeChar (c : Char) : Bool := c.isAlphanum || c == '+' || c == '-' || c == '.'

/-- The scheme of an address and what follows its colon. -/
def scheme? (s : List Char) : Option (List Char × List Char) :=
  let name := s.takeWhile isSchemeChar
  match s.dropWhile isSchemeChar with
  | ':' :: rest => if name.head?.any Char.isAlpha then some (name.map Char.toLower, rest) else none
  | _ => none

def hostSchemes : List (List Char) := ["http", "https", "ws", "wss", "ftp"].map String.toList

/-- A character that ends the part of an address with the host. -/
def endsAuthority (special : Bool) (c : Char) : Bool :=
  c == '/' || c == '?' || c == '#' || (special && c == '\\')

/-- What follows the last `@`. -/
def withoutUser (s : List Char) : List Char := ((Text.splitLast? '@' s).map (·.2)).getD s

/-- The number of a group of hexadecimal digits, four at most. -/
def isHexGroup (s : List Char) : Bool :=
  0 < s.length && s.length ≤ 4 && s.all fun c => c.isDigit || "abcdefABCDEF".toList.contains c

/-- The number that decimal digits without a leading zero spell, if it fits into a byte. -/
def isByte (s : List Char) : Bool :=
  0 < s.length && s.length ≤ 3 && s.all Char.isDigit && (s.length == 1 || s.head? != some '0') &&
    s.foldl (fun n c => 10 * n + (c.toNat - 48)) 0 ≤ 255

/-- How many groups of sixteen bits pieces between colons stand for; a dotted piece may come last. -/
def groups? : List (List Char) → Option Nat
  | [] => some 0
  | [last] =>
    if isHexGroup last then some 1
    else
      let parts := Text.splitAtChar '.' last
      if parts.length == 4 && parts.all isByte then some 2 else none
  | p :: ps => if isHexGroup p then (groups? ps).map (· + 1) else none

/-- The pieces between colons; none for the empty text. -/
def colonPieces (s : List Char) : List (List Char) :=
  if s.isEmpty then [] else Text.splitAtChar ':' s

/-- Whether the text between square brackets is an address of eight groups, `::` standing for one
group or more. -/
def isIpv6 (s : List Char) : Bool :=
  match gap s with
  | none => groups? (colonPieces s) == some 8
  | some (a, b) =>
    match groups? (colonPieces a), groups? (colonPieces b) with
    | some m, some n => m + n < 8 && !a.contains '.'
    | _, _ => false
where
  /-- What stands before and after the first `::`. -/
  gap : List Char → Option (List Char × List Char)
    | [] => none
    | [_] => none
    | c :: d :: s =>
      if c == ':' && d == ':' then some ([], s)
      else (gap (d :: s)).map fun (a, b) => (c :: a, b)

/-- A character that no host name contains. -/
def isForbidden (c : Char) : Bool :=
  c.toNat ≤ 32 || c.toNat == 127 || "%#/:<>?@[\\]^|".toList.contains c

/-- The value of a part of a numeric host, in one of three notations. -/
def hostNumber? (s : List Char) : Option Nat :=
  match s with
  | '0' :: 'x' :: ds => digits? 16 (ds.map Char.toLower)
  | '0' :: 'X' :: ds => digits? 16 (ds.map Char.toLower)
  | '0' :: d :: ds => digits? 8 (d :: ds)
  | [] => none
  | ds => digits? 10 ds
where
  /-- The number that digits of a base spell; no digits spell zero. -/
  digits? (base : Nat) (ds : List Char) : Option Nat :=
    ds.foldlM (fun n c =>
      let v := if c.isDigit then c.toNat - 48 else if c.isLower then c.toNat - 87 else base
      if v < base then some (n * base + v) else none) 0

/-- The parts of a host name between points; a point at the end does not count. -/
def hostParts (s : List Char) : List (List Char) :=
  let parts := Text.splitAtChar '.' s
  if parts.length > 1 && parts.getLast? == some [] then parts.dropLast else parts

/-- Whether the last part of a host name is a number, so that the whole has to be an address. -/
def isNumeric (s : List Char) : Bool :=
  match (hostParts s).getLast? with
  | none => false
  | some last => !last.isEmpty && (last.all Char.isDigit || (hostNumber? last).isSome)

/-- Whether numeric parts make an address: four at most, all but the last one bytes. -/
def isIpv4 (s : List Char) : Bool :=
  let parts := hostParts s
  match parts.mapM hostNumber? with
  | none => false
  | some ns =>
    ns.length ≤ 4 && ns.dropLast.all (· ≤ 255) &&
      (ns.getLast?.any fun n => n < 1 <<< (8 * (5 - ns.length)))

def hexDigit? (c : Char) : Option Nat :=
  if c.isDigit then some (c.toNat - 48)
  else if 'a' ≤ c.toLower ∧ c.toLower ≤ 'f' then some (c.toLower.toNat - 87)
  else none

/-- A host with its escapes resolved, as far as they stand for ASCII. -/
def unescapeHost : List Char → List Char
  | '%' :: a :: b :: s =>
    match hexDigit? a, hexDigit? b with
    | some m, some n => Char.ofNat (16 * m + n) :: unescapeHost s
    | _, _ => '%' :: unescapeHost (a :: b :: s)
  | c :: s => c :: unescapeHost s
  | [] => []

/-- Checks a host. `special` says that its scheme has to have one. -/
def checkHost (special : Bool) (host : List Char) : Except Fault Unit :=
  match host with
  | '[' :: inner =>
    match Text.front? [']'] inner with
    | some address => if isIpv6 address then .ok () else .error .ipv6
    | none => .error .ipv6
  | _ =>
    if !special then
      if host.any fun c => isForbidden c && c != '%' && 32 ≤ c.toNat then .error .hostCharacter
      else .ok ()
    else if host.isEmpty then .error .emptyHost
    else
      let name := unescapeHost host
      if name.any isForbidden then .error .internationalName
      else if isNumeric name && !isIpv4 name then .error .ipv4
      else .ok ()

/-- The host and the port of an authority. A colon between brackets belongs to the host. -/
def hostAndPort : (bracket : Bool) → List Char → List Char × Option (List Char)
  | _, [] => ([], none)
  | bracket, c :: s =>
    if c == ':' && !bracket then ([], some s)
    else
      let (host, port) := hostAndPort (if c == '[' then true else if c == ']' then false else bracket) s
      (c :: host, port)

def checkPort (port : List Char) : Except Fault Unit :=
  if port.all Char.isDigit && port.foldl (fun n c => 10 * n + (c.toNat - 48)) 0 < 65536 then .ok ()
  else .error .port

/-- Checks what stands between the slashes after the scheme and the path. -/
def checkAuthority (special : Bool) (s : List Char) : Except Fault Unit := do
  let authority := s.takeWhile fun c => !endsAuthority special c
  let (host, port) := hostAndPort false (withoutUser authority)
  if host.isEmpty && (port.isSome || authority.contains '@') then throw .emptyHost
  checkHost special host
  checkPort (port.getD [])

/-- Checks the host of a file address, which may be missing. -/
def checkFileHost (s : List Char) : Except Fault Unit :=
  let host := s.takeWhile fun c => !endsAuthority true c
  if host.isEmpty then .ok () else checkHost true host

/-- The text without blanks and controls at its ends, and without tabs and line breaks. -/
def clean (s : List Char) : List Char :=
  let isOuter (c : Char) : Bool := c.toNat ≤ 32
  let bare := ((s.dropWhile isOuter).reverse.dropWhile isOuter).reverse
  bare.filter fun c => c != '\t' && c != '\n' && c != '\r'

def isSlash (c : Char) : Bool := c == '/' || c == '\\'

def check (address : String) : Except Fault Unit :=
  match scheme? (clean address.toList) with
  | none => .error .relative
  | some (scheme, rest) =>
    if hostSchemes.contains scheme then checkAuthority true (rest.dropWhile isSlash)
    else if scheme == "file".toList then
      match rest with
      | a :: b :: s => if isSlash a && isSlash b then checkFileHost s else .ok ()
      | _ => .ok ()
    else
      match rest with
      | '/' :: '/' :: s => checkAuthority false s
      | _ => .ok ()

/-- Checks that the assistant of the settings can be reached at all: there is an address, and it is
well formed. -/
def checkSettings (s : AssistantSettings) : Except AssistantError String :=
  match s.endpoint with
  | none => .error .disabled
  | some address =>
    match check address with
    | .ok () => .ok address
    | .error fault => .error (.invalidEndpoint fault.message)

end Endpoint

end TestRepair
