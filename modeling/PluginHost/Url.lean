/-!
# URLs

A URL in normal form: a scheme in small letters, an authority with credentials, host and port
unless there is none, a path, a query and a fragment.  Every part is kept as it is printed,
with its escapes.
-/

namespace PluginHost

/-- A URL in normal form. -/
structure Url where
  scheme : String
  authority : Option (List Char)
  path : List Char
  query : Option (List Char)
  fragment : Option (List Char)
  deriving DecidableEq, Repr

/-- The text of a URL.  Without an authority a path does not begin with two slashes, so such a
path has a dot in front. -/
def Url.text (u : Url) : String :=
  let authority := match u.authority with
    | some a => ['/', '/'] ++ a
    | none => if ['/', '/'].isPrefixOf u.path then ['/', '.'] else []
  let query := u.query.elim [] ('?' :: ·)
  let fragment := u.fragment.elim [] ('#' :: ·)
  u.scheme ++ ":" ++ String.ofList (authority ++ u.path ++ query ++ fragment)

/-- The reasons for which a text is no URL. -/
inductive UrlError where
  | noScheme
  | emptyHost
  | badDomain
  | badPort
  | badAddress4
  | badAddress8
  | badHostCharacter
  deriving DecidableEq, Repr

/-- The wording of a reason. -/
def UrlError.message : UrlError → String
  | noScheme => "relative URL without a base"
  | emptyHost => "empty host"
  | badDomain => "invalid international domain name"
  | badPort => "invalid port number"
  | badAddress4 => "invalid IPv4 address"
  | badAddress8 => "invalid IPv6 address"
  | badHostCharacter => "invalid domain character"

end PluginHost
