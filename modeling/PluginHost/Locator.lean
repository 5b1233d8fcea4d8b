import PluginHost.Path
import PluginHost.Text.Blank
import PluginHost.Text.Fold
import PluginHost.Url.Reader

/-!
# Locators

A locator says where a package is installed from: a name in a registry with or without a
version, a directory, an archive, or a URL.  `Locator.read` tells them apart by the first
character, by the scheme and by the suffix, in this order, and takes what is left for a name
in a registry.
-/

namespace PluginHost

/-- Where a package is installed from. -/
inductive Locator where
  | registry (name : String) (version : Option String)
  | directory (path : Path)
  | url (url : Url)
  | archive (path : Path)
  deriving DecidableEq, Repr

namespace Locator

/-- The suffixes of archives. -/
def archiveEndings : List String := [".tgz", ".tar.gz", ".tar"]

/-- The schemes of URLs that packages are installed from. -/
def schemes : List String :=
  ["http", "https", "git", "git+ssh", "git+http", "git+https", "git+file", "file"]

/-- Whether a text ends in the suffix of an archive, in letters of any case. -/
def isArchive (text : List Char) : Bool :=
  archiveEndings.any fun ending => ending.toList.isSuffixOf (Text.foldChars text)

/-- Whether a text begins as a path does. -/
def startsAsPath (text : List Char) : Bool :=
  text.head?.any fun c => c == '.' || c == '/' || c == '~' || c == '\\'

/-- Whether a character may stand in the name of a package. -/
def isNameChar (c : Char) : Bool := c.isAlphanum || "-_./@~".toList.contains c

/-- Whether a text is accepted as the name of a package: a scoped name has one slash, any other
none, and the slash is not at the end. -/
def isPackageName (name : List Char) : Bool :=
  name != [] && name != ['@'] && name.getLast? != some '/'
    && name.count '/' == (if name.head? = some '@' then 1 else 0)
    && name.all isNameChar

/-- The name and the text after the at sign that separates a version; an at sign in front
belongs to a scope. -/
def splitVersion (text : List Char) : List Char × Option (List Char) :=
  let (scope, rest) := match text with
    | '@' :: rest => (['@'], rest)
    | rest => ([], rest)
  match Text.cutFirst ['@'] rest with
  | some (name, version) => (scope ++ name, some version)
  | none => (text, none)

/-- The package of a registry that a text names. -/
def readRegistry? (text : List Char) : Option Locator :=
  let (name, version) := splitVersion text
  if isPackageName name then
    some (.registry (String.ofList name) ((version.filter (· != [])).map String.ofList))
  else none

/-- The locator that a text spells, or the part of the text that is none. -/
def read [DomainNames] (raw : String) : Except String Locator :=
  let text := Text.trimChars raw.toList
  let path : Path := ⟨String.ofList text⟩
  if text = [] then .error raw
  else if startsAsPath text then .ok (if isArchive text then .archive path else .directory path)
  else
    match (Url.read path.text).toOption.filter fun u => schemes.contains u.scheme with
    | some u => .ok (.url u)
    | none =>
      if isArchive text then .ok (.archive path)
      else match readRegistry? text with
        | some locator => .ok locator
        | none => .error path.text

/-- The name of a package of a registry. -/
def registryName? : Locator → Option String
  | registry name _ => some name
  | _ => none

end Locator

end PluginHost
