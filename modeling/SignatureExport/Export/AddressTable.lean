import SignatureExport.Export.Document
import Std.Data.HashMap

/-!
# Address tables

An *address table* gives the address of a key.  The first address written for a
key stays, and later ones are dropped.  The rows keep the order in which the keys
were first seen, and an index finds the row of a key.
-/

namespace SignatureExport

/-- The hash of a text, mixed from its characters. -/
instance : Hashable Text where
  hash text := text.foldl (fun mixed c => mixHash mixed (hash c.val)) 7

/-- Keys with their addresses, each key once. -/
structure AddressTable where
  /-- The position of the row of each key. -/
  index : Std.HashMap Text Nat := ∅
  /-- The keys and their addresses, in the order of their first insertion. -/
  rows : Array (Text × Address) := #[]

namespace AddressTable

/-- The table without rows. -/
def empty : AddressTable := {}

/-- The number of rows. -/
def size (table : AddressTable) : Nat := table.rows.size

/-- Writes an address for a key that has none yet.  Also tells whether the row was
kept. -/
def insert (table : AddressTable) (key : Text) (address : Address) : AddressTable × Bool :=
  if table.index.contains key then (table, false)
  else (⟨table.index.insert key table.rows.size, table.rows.push (key, address)⟩, true)

/-- The address that stands for a missing key. -/
def missing : Address := 0

/-- The address of a key, or `missing`. -/
def addressOf (table : AddressTable) (key : Text) : Address :=
  match table.index[key]?.bind fun position => table.rows[position]? with
  | some (_, address) => address
  | none => missing

/-- The table of some entries, each under the key of its signature. -/
def ofEntries (entries : List Entry) : AddressTable :=
  entries.foldl (fun table entry => (table.insert entry.signature.key entry.address).1) empty

end AddressTable

end SignatureExport
