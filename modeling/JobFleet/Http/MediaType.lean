import JobFleet.Text.Blank

/-!
# Media types

Whether the value of a content-type header announces a JSON body: the type is application, and
the subtype or its suffix after the last plus sign is json. Parameters may follow, each a name,
an equals sign and a word or a quoted text; anything else makes the value unreadable.
-/

namespace JobFleet.Http

/-- Whether a character may stand in a word of a header. -/
def isTokenChar (c : Char) : Bool :=
  c.isAlphanum || "!#$%&'*+-.^_`|~".toList.contains c

/-- The text after the parameter values that begin it: a quoted text after its opening quote. -/
def afterQuoted : Bool → List Char → Option (List Char)
  | _, [] => none
  | started, c :: rest =>
      if c = '"' && started then some rest
      else if 0x1f < c.toNat && c.toNat ≠ 0x7f then afterQuoted true rest
      else none

/-- What follows a quoted value: blanks, then the end or a semicolon, which is passed over. -/
def afterBlanks : List Char → Option (List Char)
  | [] => some []
  | c :: rest =>
      if c = ';' then some rest
      else if c = ' ' then afterBlanks rest
      else none

/-- What follows a value that is a word: the end, or a semicolon after at least one character,
which is passed over. -/
def afterWord (cs : List Char) : Option (List Char) :=
  match cs.dropWhile isTokenChar with
  | [] => some []
  | c :: rest => if c = ';' && cs.head? ≠ some ';' then some rest else none

/-- Whether parameters are well formed. The first argument bounds their number. -/
def validParameters : Nat → List Char → Bool
  | 0, cs => cs.isEmpty
  | bound + 1, cs =>
      match cs with
      | [] => true
      | ' ' :: rest => validParameters bound rest
      | cs =>
          match cs.takeWhile isTokenChar, cs.dropWhile isTokenChar with
          | _ :: _, '=' :: value =>
              let next := match value with
                | '"' :: quoted => (afterQuoted false quoted).bind afterBlanks
                | word => afterWord word
              match next with
              | some rest => validParameters bound rest
              | none => false
          | _, _ => false

/-- Whether a subtype is json up to the last plus sign that does not begin it, or after it. -/
def isJsonSubtype (cs : List Char) : Bool :=
  let json := "json".toList
  if (cs.drop 1).contains '+' then
    let suffix := (cs.reverse.takeWhile (· ≠ '+')).reverse
    suffix = json || cs.take (cs.length - suffix.length - 1) = json
  else cs = json

/-- Whether a content-type announces a JSON body. -/
def announcesJson (value : String) : Bool :=
  let cs := (Text.asciiLower value).toList
  let kind := cs.takeWhile fun c => isTokenChar c
  match cs.drop kind.length with
  | '/' :: rest =>
      let subtype := rest.takeWhile isTokenChar
      let wellFormed := match rest.drop subtype.length with
        | [] => true
        | ';' :: parameters => validParameters (parameters.length + 1) parameters
        | _ => false
      String.ofList kind = "application" && !subtype.isEmpty && wellFormed &&
        isJsonSubtype subtype
  | _ => false

end JobFleet.Http
