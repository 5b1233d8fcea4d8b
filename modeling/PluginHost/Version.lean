/-!
# Versions

A version has three numbers and possibly a prerelease, a list of identifiers that are numbers
or words.  Versions are ordered by their numbers first; a prerelease comes before the version
without one, and two prereleases are compared identifier by identifier, a number before any
word and a shorter list before its continuations.  Build metadata is not kept, because no
comparison looks at it.
-/

namespace PluginHost

/-- An identifier of a prerelease. -/
inductive Identifier where
  | number (n : Nat)
  | word (letters : List Char)
  deriving DecidableEq, Repr

/-- A version without its build metadata. -/
structure Version where
  major : Nat
  minor : Nat
  patch : Nat
  prerelease : List Identifier
  deriving DecidableEq, Repr

/-- The order of words by code points. -/
def compareWords : List Char → List Char → Ordering
  | [], [] => .eq
  | [], _ :: _ => .lt
  | _ :: _, [] => .gt
  | a :: as, b :: bs => (compare a.toNat b.toNat).then (compareWords as bs)

namespace Identifier

/-- The order of identifiers: numbers by value, then words by code points. -/
def order : Identifier → Identifier → Ordering
  | number a, number b => compare a b
  | number _, word _ => .lt
  | word _, number _ => .gt
  | word a, word b => compareWords a b

/-- The order of lists of identifiers, by the first difference; a beginning comes first. -/
def orderLists : List Identifier → List Identifier → Ordering
  | [], [] => .eq
  | [], _ :: _ => .lt
  | _ :: _, [] => .gt
  | a :: as, b :: bs => (order a b).then (orderLists as bs)

/-- The order of prereleases, where the empty one means a release and comes last. -/
def orderPrereleases : List Identifier → List Identifier → Ordering
  | [], [] => .eq
  | [], _ :: _ => .gt
  | _ :: _, [] => .lt
  | as, bs => orderLists as bs

end Identifier

end PluginHost
