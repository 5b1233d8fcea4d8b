import PluginHost.Text.Printable
import PluginHost.Text.Split
import PluginHost.Url.Escape

/-!
# Domain names

A domain name is made of labels between points, in small letters, from characters that have no
meaning of their own in a URL.  It is international if it has characters beyond ASCII, or a label
that begins with `xn--` and so stands for one with such characters.  International names are mapped
to ASCII by tables that are kept elsewhere: `DomainNames` is any such mapping.
-/

namespace PluginHost

/-- The mapping of international domain names to ASCII, by which some names are refused. -/
class DomainNames where
  toAscii? : List UInt8 → Option (List Char)

namespace Url

/-- The ASCII characters that no domain name contains. -/
def isForbiddenInDomain (c : Char) : Bool :=
  isControl c || " #/:<>?@[\\]^|%".toList.contains c

/-- The bytes of a name as characters, in small letters. -/
def foldName (bytes : List UInt8) : List Char :=
  bytes.map fun byte => (Char.ofNat byte.toNat).toLower

/-- What follows `xn--` in the labels of a name that begin with it. -/
def codedLabels (name : List Char) : List (List Char) :=
  (Text.splitOn '.' name).filterMap (Text.dropStart "xn--".toList)

/-- Whether a name is international. -/
def isInternational (name : List Char) : Bool :=
  name.any (fun c => 0x80 ≤ c.toNat) || codedLabels name != []

/-- The domain name in ASCII that bytes spell, if they spell any. -/
def domain? [DomainNames] (bytes : List UInt8) : Option (List Char) :=
  let name := foldName bytes
  if isInternational name then DomainNames.toAscii? bytes
  else if name.any isForbiddenInDomain then none
  else some name

end Url

end PluginHost
