import PluginHost.Attempt
import PluginHost.Inventory

/-!
# The store of the inventory

The inventory is kept in one file.  Loading creates an empty inventory where the file is missing,
and saving puts a whole new file in the place of the old one, so that the file never holds a
part of an inventory.
-/

namespace PluginHost

/-- The file that keeps an inventory. -/
structure Store where
  path : Path
  deriving DecidableEq, Repr

namespace Store

/-- The directory in which the file is. -/
def directory (s : Store) : Path :=
  match s.path.parent? with
  | some parent => if parent.text = "" then ⟨"."⟩ else parent
  | none => ⟨"."⟩

/-- The inventory that a text in the file spells. -/
def parse (s : Store) (text : String) : Except Failure Inventory :=
  match Inventory.read? text with
  | some inventory => .ok inventory
  | none => .error (.unreadable s.path)

/-- The inventory in the file, which has to be there. -/
def read (s : Store) (files : Files) : Except Failure Inventory := do
  s.parse (← (files.read s.path).mapError (.access s.path))

/-- Puts an inventory into the file. -/
def save (s : Store) (inventory : Inventory) : Attempt Files Unit := do
  Attempt.onFiles s.path fun files => files.makeDirectories s.directory
  Attempt.onFiles s.path fun files => files.replace s.path inventory.print

/-- The inventory in the file; a missing file is created with an empty inventory. -/
def load (s : Store) : Attempt Files Inventory := do
  if (← get).exists? s.path then Attempt.look s.read
  else do
    s.save ByName.empty
    return ByName.empty

end Store

end PluginHost
