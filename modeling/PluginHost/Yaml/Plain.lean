import PluginHost.Decimal
import PluginHost.Text.Split
import PluginHost.Yaml.Text

/-!
# Plain words of YAML

A plain scalar can spell null, a truth value or a number.  A text that spells one of these is
written between quotes, so that it is read back as text; so is a number with zeros in front,
which spells text here but a number elsewhere.
-/

namespace PluginHost.Yaml

/-- Whether a plain scalar spells null; the empty one does so only where it stands for itself. -/
def isNull (cs : List Char) : Bool :=
  ["null", "Null", "NULL", "~"].any fun w => w.toList == cs

/-- The truth value that a plain scalar spells. -/
def bool? (cs : List Char) : Option Bool :=
  if ["true", "True", "TRUE"].any fun w => w.toList == cs then some true
  else if ["false", "False", "FALSE"].any fun w => w.toList == cs then some false
  else none

/-- The prefixes of numbers that are not in base ten. -/
def bases : List (List Char × Nat) := [(['0', 'x'], 16), (['0', 'o'], 8), (['0', 'b'], 2)]

/-- The number that a text with the prefix of a base spells. -/
def based? (cs : List Char) : Option Nat :=
  bases.findSome? fun (start, base) => (Text.dropStart start cs).bind (Text.numberIn? base)

/-- The text without one plus sign in front. -/
def withoutPlus : List Char → List Char
  | '+' :: cs => cs
  | cs => cs

/-- Whether a text spells a whole number with a base: one without a minus sign has 128 bits,
one with a minus sign 127. -/
def isBased (cs : List Char) : Bool :=
  match cs with
  | '-' :: more => (based? more).any (· ≤ Nat.pow 2 127)
  | _ => (based? (withoutPlus cs)).any (· < Nat.pow 2 128)

/-- Whether a text consists of digits with a zero in front, after at most one sign. -/
def isZeroLed (cs : List Char) : Bool :=
  let digits := match cs with
    | '+' :: more => more
    | '-' :: more => more
    | more => more
  match digits with
  | '0' :: d :: more => (d :: more).all Text.isDigit
  | _ => false

/-- Whether a text spells a number in base ten, or an infinity or no number by name. -/
def isDecimal (cs : List Char) : Bool :=
  let inner := withoutPlus cs
  if inner.length < cs.length && inner.head?.any fun c => c == '+' || c == '-' then false
  else
    let unsigned := match inner with
      | '-' :: more => more
      | more => more
    [".inf", ".Inf", ".INF"].any (fun w => w.toList == inner)
      || ["-.inf", "-.Inf", "-.INF", ".nan", ".NaN", ".NAN"].any (fun w => w.toList == cs)
      || (Decimal.read? unsigned).any Decimal.isFinite

/-- Whether a text would not be read back as text if it were written plainly. -/
def isAmbiguous (cs : List Char) : Bool :=
  cs.isEmpty || isNull cs || (bool? cs).isSome || isBased cs || isZeroLed cs || isDecimal cs

end PluginHost.Yaml
