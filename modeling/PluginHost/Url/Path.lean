import PluginHost.Text.Fold
import PluginHost.Text.Split
import PluginHost.Url.Escape

/-!
# Paths of URLs

The path of a URL is brought into normal form segment by segment: a single dot is left out, two
dots take away the segment before, and every other segment is escaped and added.  A file URL
keeps a drive, a letter and a colon as first segment, and begins with one slash only.
-/

namespace PluginHost.Url

/-- Whether a segment is a letter with a colon or a bar. -/
def isDrive : List Char → Bool
  | [a, b] => a.isAlpha && (b == ':' || b == '|')
  | _ => false

/-- Whether a segment is a letter with a colon. -/
def isColonDrive : List Char → Bool
  | [a, b] => a.isAlpha && b == ':'
  | _ => false

/-- Whether a text begins with a segment that is a drive. -/
def startsWithDrive (cs : List Char) : Bool :=
  isDrive (cs.take 2) && (cs.drop 2).head?.all fun c => "/\\?#".toList.contains c

/-- Whether a segment is two dots, escaped or not. -/
def isDoubleDot (segment : List Char) : Bool :=
  ["..", "%2e%2e", "%2e.", ".%2e"].contains (String.ofList (Text.foldChars segment))

/-- Whether a segment is a single dot, escaped or not. -/
def isSingleDot (segment : List Char) : Bool :=
  [".", "%2e"].contains (String.ofList (Text.foldChars segment))

/-- A path under construction, where its last segment starts, and whether the host of a file
URL gives way to a drive. -/
structure PathState where
  path : List Char
  start : Nat
  dropsHost : Bool

/-- The path up to and with its last slash. -/
def upToSlash (path : List Char) : List Char :=
  (path.reverse.dropWhile (· != '/')).reverse

/-- The path after its last slash. -/
def afterSlash (path : List Char) : List Char :=
  (path.reverse.takeWhile (· != '/')).reverse

/-- Whether the slash at the end of a path may go: there is another before it, and the segment
between them is no drive. -/
def canLoseSlash (path : List Char) : Bool :=
  path.getLast? == some '/' && path.dropLast.contains '/'
    && !startsWithDrive (afterSlash path.dropLast ++ ['/'])

/-- The path without its last segment. -/
def climb (isFile : Bool) (path : List Char) : List Char :=
  let path := if canLoseSlash path then path.dropLast else path
  if isFile && isColonDrive (afterSlash path) then path else upToSlash path

/-- The path with a slash at its end. -/
def withSlash (path : List Char) : List Char :=
  if path.getLast? == some '/' then path else path ++ ['/']

/-- Ends the last segment, with a slash if one follows. -/
def endSegment (isFile : Bool) (slash : Bool) (s : PathState) : PathState :=
  let segment := s.path.drop s.start
  let front := s.path.take s.start
  if isDoubleDot segment then
    let path := climb isFile front
    { s with path := if slash then withSlash path else path }
  else if isSingleDot segment then { s with path := withSlash front }
  else
    let tail := if slash then ['/'] else []
    if isFile && s.start == 1 && isDrive segment then
      { s with path := front ++ segment.take 1 ++ [':'] ++ tail, dropsHost := true }
    else { s with path := s.path ++ tail }

/-- Adds a segment, with a slash if one follows. -/
def addSegment (isFile : Bool) (s : PathState) (segment : List Char) (slash : Bool) :
    PathState :=
  endSegment isFile slash
    { s with path := s.path ++ segment.flatMap (escapeChar inPathSet), start := s.path.length }

/-- Adds segments with slashes between them. -/
def addSegments (isFile : Bool) (s : PathState) : List (List Char) → PathState
  | [] => s
  | [segment] => addSegment isFile s segment false
  | segment :: rest => addSegments isFile (addSegment isFile s segment true) rest

/-- The path that continues a beginning, and whether a drive takes the place of the host.
Backslashes count as slashes where the scheme has a host of its own. -/
def normalizePath (special isFile : Bool) (start body : List Char) : List Char × Bool :=
  let body := if special then body.map fun c => if c = '\\' then '/' else c else body
  let s := addSegments isFile ⟨start, 0, false⟩ (Text.splitOn '/' body)
  (if isFile then '/' :: s.path.dropWhile (· == '/') else s.path, s.dropsHost)

end PluginHost.Url
