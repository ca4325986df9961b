import JobFleet.Net.Address
import JobFleet.Text.Blank

/-!
# Uniform resource locators

A locator is a scheme, perhaps an authority after two slashes, a path, and perhaps a query. An
authority is perhaps a user, a host and perhaps a port number. The dots of a path are followed
when it is read, and a fragment is passed over. Read here are the schemes that put no rules of
their own on hosts and paths.
-/

namespace JobFleet.Net

/-- The host of a locator; a name is kept as it is written. -/
inductive Host
  | absent
  | name (text : String)
  | address (a : Address)
deriving DecidableEq, Repr

/-- The path of a locator: text that no slash leads, or what stands after each slash. -/
inductive Path
  | plain (text : List Char)
  | slashed (segments : List (List Char))
deriving DecidableEq, Repr

/-- A locator; the user and the password are kept as they are written, escapes unread. -/
structure Url where
  scheme : String
  user : List Char
  host : Host
  port : Option Nat
  path : Path
  query : String
deriving DecidableEq, Repr

/-- The characters of a path. -/
def Path.chars : Path → List Char
  | .plain text => text
  | .slashed segments => segments.flatMap ('/' :: ·)

/-! ### Paths -/

/-- Whether a segment names the level it stands on: a dot, perhaps escaped. -/
def isCurrentLevel (segment : List Char) : Bool :=
  [".", "%2e"].contains (String.ofList (segment.map Char.toLower))

/-- Whether a segment names the level above: two dots, either perhaps escaped. -/
def isLevelAbove (segment : List Char) : Bool :=
  ["..", ".%2e", "%2e.", "%2e%2e"].contains (String.ofList (segment.map Char.toLower))

/-- Whether a segment is the letter of a drive, alone or before a backslash. -/
def isDrive : List Char → Bool
  | c :: mark :: rest =>
      c.isAlpha && (mark = ':' || mark = '|') && (rest.isEmpty || rest.head? = some '\\')
  | _ => false

/-- Leaves the last of the segments so far, which are listed last first; no way leads above a
drive. -/
def leaveLevel : List (List Char) → List (List Char)
  | [] => []
  | segment :: rest => if isDrive segment then segment :: rest else rest

/-- Follows the dots among the segments of a path. The first argument lists the segments so far,
last first; dots at the end leave an empty segment. -/
def followDots (sofar : List (List Char)) : List (List Char) → List (List Char)
  | [] => sofar.reverse
  | segment :: rest =>
      let dots := isLevelAbove segment || isCurrentLevel segment
      let sofar := if isLevelAbove segment then leaveLevel sofar else sofar
      if dots then followDots (if rest.isEmpty then [] :: sofar else sofar) rest
      else followDots (segment :: sofar) rest

/-- Reads a path that begins at a slash, or as if it did. -/
def Path.ofChars (cs : List Char) : Path :=
  match cs with
  | [] => .plain []
  | '/' :: rest => .slashed (followDots [] (Text.splitChars '/' rest))
  | cs => .slashed (followDots [] (Text.splitChars '/' cs))

/-! ### Authorities -/

/-- Whether a character may not stand in the name of a host. -/
def forbiddenInHost (c : Char) : Bool :=
  c.toNat = 0 || " #/:<>?@[\\]^|".toList.contains c

/-- Reads a host, which may be an address of eight groups in brackets, and gives the text after
it. -/
def readHost (cs : List Char) : Option (Host × List Char) :=
  match cs with
  | '[' :: rest =>
      let inner := rest.takeWhile (· ≠ ']')
      match rest.drop inner.length, readV6 inner with
      | ']' :: rest, some (a, []) => some (.address a, rest)
      | _, _ => none
  | cs =>
      let host := cs.takeWhile (· ≠ ':')
      if host.any forbiddenInHost then none
      else if host.isEmpty then some (.absent, cs)
      else some (.name (String.ofList host), cs.drop host.length)

/-- Reads what follows a host: nothing, or a colon and perhaps a port number. A backslash ends
the number and begins the path. -/
def readPort (cs : List Char) : Option (Option Nat × List Char) :=
  match cs with
  | [] => some (none, [])
  | ':' :: rest =>
      let (digits, rest) := takeDigits 10 rest
      let n := valueOf 10 digits
      if 65535 < n ∨ ¬(rest.isEmpty ∨ rest.head? = some '\\') then none
      else some (if digits.isEmpty then none else some n, rest)
  | _ => none

/-- The text before the last at sign, if there is one, and the text after it. -/
def splitUser (authority : List Char) : Option (List Char) × List Char :=
  let host := (authority.reverse.takeWhile (· ≠ '@')).reverse
  if host.length = authority.length then (none, host)
  else (some (authority.take (authority.length - host.length - 1)), host)

/-- Reads an authority and gives the front of the path that may follow a port number. The second
argument tells whether more follows the authority. A user or a port number needs a host, and so
does an at sign before more text. -/
def readAuthority (authority : List Char) (more : Bool) :
    Option (List Char × Host × Option Nat × List Char) := do
  let (user, rest) := splitUser authority
  let (host, rest) ← readHost rest
  let (port, rest') ← readPort rest
  let named := match user with
    | none => false
    | some [] => more
    | some user => user != [':']
  if host = .absent ∧ (named || !rest.isEmpty) then none
  else some (user.getD [], host, port, rest')

/-! ### Locators -/

/-- The characters without controls and blanks at either end, tabs and line ends left out. -/
def cleaned (s : String) : List Char :=
  let outer (c : Char) : Bool := c.toNat ≤ 0x20
  let cs := ((s.toList.dropWhile outer).reverse.dropWhile outer).reverse
  cs.filter fun c => !(c = '\t' || c = '\n' || c = '\r')

/-- A scheme in lower case and the text after its colon. -/
def splitScheme (cs : List Char) : Option (String × List Char) :=
  match cs with
  | c :: _ =>
      let isSchemeChar (c : Char) : Bool := c.isAlphanum || c = '+' || c = '-' || c = '.'
      let scheme := cs.takeWhile isSchemeChar
      match cs.drop scheme.length with
      | ':' :: rest =>
          if c.isAlpha then some (String.ofList (scheme.map Char.toLower), rest) else none
      | _ => none
  | [] => none

/-- The query at the front of a text that follows a path. -/
def queryOf : List Char → String
  | '?' :: rest => String.ofList (rest.takeWhile (· ≠ '#'))
  | _ => ""

/-- Whether a character goes on a path. -/
def inPath (c : Char) : Bool := c ≠ '?' && c ≠ '#'

/-- Reads a locator. -/
def Url.read? (s : String) : Option Url := do
  let (scheme, rest) ← splitScheme (cleaned s)
  let path := rest.takeWhile inPath
  let query := queryOf (rest.dropWhile inPath)
  match path with
  | '/' :: '/' :: path =>
      let authority := path.takeWhile (· ≠ '/')
      let path := path.drop authority.length
      let more := !path.isEmpty || !(rest.dropWhile inPath).isEmpty
      let (user, host, port, front) ← readAuthority authority more
      return ⟨scheme, user, host, port, .ofChars (front ++ path), query⟩
  | '/' :: _ => return ⟨scheme, [], .absent, none, .ofChars path, query⟩
  | _ => return ⟨scheme, [], .absent, none, .plain path, query⟩

end JobFleet.Net
