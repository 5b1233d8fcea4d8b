import PluginHost.Text.Fold
import PluginHost.Url
import PluginHost.Url.Address
import PluginHost.Url.Domain
import PluginHost.Url.Path

/-!
# Reading URLs

`Url.read` brings a text that stands on its own into the normal form of a URL.  Controls and
spaces at both ends and line breaks and tabs everywhere are ignored.  What follows the scheme
depends on it: the web schemes always have a host, file URLs may have one, and other schemes
have one only after two slashes; a text after another scheme that does not begin with a slash
is kept as it is.
-/

namespace PluginHost.Url

/-- The schemes that are read by rules of their own. -/
inductive SchemeKind where
  | web (port : Nat)
  | file
  | other
  deriving DecidableEq, Repr

/-- The kind of a scheme; the web schemes have a port that goes without saying. -/
def kindOf (scheme : String) : SchemeKind :=
  if scheme = "http" ∨ scheme = "ws" then .web 80
  else if scheme = "https" ∨ scheme = "wss" then .web 443
  else if scheme = "ftp" then .web 21
  else if scheme = "file" then .file
  else .other

/-- Whether the rules of a scheme are not the general ones. -/
def SchemeKind.isSpecial : SchemeKind → Bool
  | other => false
  | _ => true

/-- Whether a character ends the authority. -/
def endsAuthority (special : Bool) (c : Char) : Bool :=
  c == '/' || c == '?' || c == '#' || (special && c == '\\')

/-- Whether a character is a slash to a scheme with rules of its own. -/
def isSlash (c : Char) : Bool := c == '/' || c == '\\'

/-- The scheme in small letters before the first colon, and the text after it. -/
def readScheme? (cs : List Char) : Option (String × List Char) :=
  match Text.cutFirst [':'] cs with
  | some (name, rest) =>
    let good := name.all fun c =>
      c.isAlphanum || c == '+' || c == '-' || c == '.'
    if name.head?.any Char.isAlpha && good then some (String.ofList (Text.foldChars name), rest)
    else none
  | none => none

/-! ### Authorities -/

/-- The characters that no host of the general schemes contains. -/
def isForbiddenInHost (c : Char) : Bool :=
  "\x00\t\n\r #/:<>?@[\\]^|".toList.contains c

/-- A host between brackets. -/
def readBracketed (host : List Char) : Except UrlError (List Char) :=
  match host.getLast?, readAddress8? (host.drop 1).dropLast with
  | some ']', some words => .ok (printAddress8 words)
  | _, _ => .error .badAddress8

/-- The host of a scheme with rules of its own. -/
def readHost [DomainNames] (host : List Char) : Except UrlError (List Char) :=
  if host.head? = some '[' then readBracketed host
  else match domain? (unescape host) with
    | none => .error .badDomain
    | some [] => .error .emptyHost
    | some name =>
      if endsInNumber name then
        match readAddress4? name with
        | some n => .ok (printAddress4 n)
        | none => .error .badAddress4
      else .ok name

/-- The host of any other scheme. -/
def readPlainHost (host : List Char) : Except UrlError (List Char) :=
  if host.head? = some '[' then readBracketed host
  else if host.any isForbiddenInHost then .error .badHostCharacter
  else .ok (escape isControl host)

/-- The credentials in normal form: a name, a colon unless no password follows it, and a
password. -/
def printCredentials (cs : List Char) : List Char :=
  match Text.cutFirst [':'] cs with
  | some (name, password) =>
    let tail := if password.isEmpty then [] else ':' :: escape inUserSet password
    let all := escape inUserSet name ++ tail
    if all.isEmpty then [] else all ++ ['@']
  | none => if cs.isEmpty then [] else escape inUserSet cs ++ ['@']

/-- The credentials of an authority, in normal form, and what follows the last at sign. -/
def splitCredentials (authority : List Char) : Option (List Char) × List Char :=
  if authority.contains '@' then
    let host := (authority.reverse.takeWhile (· != '@')).reverse
    (some (authority.take (authority.length - host.length - 1)), host)
  else (none, authority)

/-- The host of an authority and the text from the colon of its port on; a colon between
brackets belongs to the host. -/
def splitPort (inside : Bool) : List Char → List Char × List Char
  | [] => ([], [])
  | c :: cs =>
    if c = ':' ∧ !inside then ([], c :: cs)
    else
      let inside := if c = '[' then true else if c = ']' then false else inside
      let (host, port) := splitPort inside cs
      (c :: host, port)

/-- The port after its colon; the text is read up to a slash of either kind, and the rest
belongs to the path. -/
def readPort (standard : Option Nat) (cs : List Char) :
    Except UrlError (List Char × List Char) :=
  let digits := cs.takeWhile Text.isDigit
  let rest := cs.dropWhile Text.isDigit
  let port := (Text.numberIn? 10 digits).getD 0
  if 65535 < port ∨ !rest.head?.all isSlash then .error .badPort
  else if digits.isEmpty ∨ standard = some port then .ok ([], rest)
  else .ok (':' :: (Text.decimal port).toList, rest)

/-- The authority of a text after two slashes, in normal form, and the text after it. -/
def readAuthority [DomainNames] (kind : SchemeKind) (cs : List Char) :
    Except UrlError (List Char × List Char) := do
  let special := kind.isSpecial
  let authority := cs.takeWhile fun c => !endsAuthority special c
  let after := cs.dropWhile fun c => !endsAuthority special c
  let (credentials, hostAndPort) := splitCredentials authority
  if credentials = some [] ∧ hostAndPort = [] ∧ after ≠ [] then throw .emptyHost
  let printed := (credentials.map printCredentials).getD []
  let (hostText, portText) := splitPort false hostAndPort
  if special ∧ hostText = [] then throw .emptyHost
  let host ← if special then readHost hostText else readPlainHost hostText
  if host = [] ∧ portText ≠ [] then throw .emptyHost
  let standard := match kind with
    | .web port => some port
    | _ => none
  let (port, rest) ← match portText with
    | _ :: digits => readPort standard digits
    | [] => pure ([], [])
  if host = [] ∧ printed ≠ [] then throw .emptyHost
  return (printed ++ host ++ port, rest ++ after)

/-! ### What follows the authority -/

/-- Whether a character ends the path. -/
def endsPath (c : Char) : Bool := c == '?' || c == '#'

/-- The query and the fragment of a text that is empty or begins with one of them. -/
def readEnd (special : Bool) (cs : List Char) : Option (List Char) × Option (List Char) :=
  let fragmentOf := fun (cs : List Char) =>
    match cs with
    | '#' :: rest => some (escape inFragmentSet rest)
    | _ => none
  match cs with
  | '?' :: rest =>
    (some (escape (inQuerySet special) (rest.takeWhile (· != '#'))),
      fragmentOf (rest.dropWhile (· != '#')))
  | cs => (none, fragmentOf cs)

/-- The URL of an authority and the text after it. -/
def finish (scheme : String) (kind : SchemeKind) (authority : List Char) (cs : List Char) :
    Url :=
  let special := kind.isSpecial
  let body := cs.takeWhile fun c => !endsPath c
  let rest := cs.dropWhile fun c => !endsPath c
  let (query, fragment) := readEnd special rest
  let (path, dropsHost) :=
    if special then
      let body := if body.head?.any isSlash then body.drop 1 else body
      normalizePath true (kind == .file) ['/'] body
    else if body.isEmpty then ([], false)
    else normalizePath false false ['/'] (if body.head? = some '/' then body.drop 1 else body)
  ⟨scheme, some (if dropsHost then [] else authority), path, query, fragment⟩

/-- The URL of a file after the colon of its scheme. -/
def readFile [DomainNames] (cs : List Char) : Except UrlError Url := do
  match cs with
  | a :: b :: rest =>
    if isSlash a && isSlash b then
      let host := rest.takeWhile fun c => !endsAuthority true c
      let after := rest.dropWhile fun c => !endsAuthority true c
      if isDrive host then return finish "file" .file [] rest
      else if host = [] then return finish "file" .file [] after
      else
        let name ← readHost host
        return finish "file" .file (if name = "localhost".toList then [] else name) after
    else return finish "file" .file [] cs
  | cs => return finish "file" .file [] cs

/-- The URL of a scheme of no special kind after its colon. -/
def readOther [DomainNames] (scheme : String) (cs : List Char) : Except UrlError Url := do
  match cs with
  | '/' :: '/' :: rest =>
    let (authority, after) ← readAuthority .other rest
    return finish scheme .other authority after
  | '/' :: rest =>
    let body := rest.takeWhile fun c => !endsPath c
    let (query, fragment) := readEnd false (rest.dropWhile fun c => !endsPath c)
    return ⟨scheme, none, (normalizePath false false ['/'] body).1, query, fragment⟩
  | cs =>
    let body := cs.takeWhile fun c => !endsPath c
    let (query, fragment) := readEnd false (cs.dropWhile fun c => !endsPath c)
    return ⟨scheme, none, escape isControl body, query, fragment⟩

/-- The text without controls and spaces at its ends and without line breaks and tabs. -/
def strip (cs : List Char) : List Char :=
  let low := fun (c : Char) => decide (c.toNat ≤ 0x20)
  let cs := ((cs.dropWhile low).reverse.dropWhile low).reverse
  cs.filter fun c => c != '\t' && c != '\n' && c != '\r'

/-- The URL that a text spells on its own. -/
def read [DomainNames] (s : String) : Except UrlError Url := do
  match readScheme? (strip s.toList) with
  | none => throw .noScheme
  | some (scheme, rest) =>
    match kindOf scheme with
    | .file => readFile rest
    | .other => readOther scheme rest
    | .web port =>
      let (authority, after) ← readAuthority (.web port) (rest.dropWhile isSlash)
      return finish scheme (.web port) authority after

end PluginHost.Url
