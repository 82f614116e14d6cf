import Mathlib.Data.List.Induction
import SignatureExport.Export.AddressTable
import Std.Data.HashMap.Lemmas

/-!
# The first address of a key

A table is filled by inserting pairs of a key and an address, one after the other.
`Follows pairs table` says what the table holds then: its rows are the pairs whose
key is new, and its index finds each row.  A single insertion keeps this
(`Follows.insert`), so every run does (`follows_ofPairs`).  What a lookup answers
follows from the invariant alone.
-/

namespace SignatureExport

namespace AddressTable

/-- The keys of some pairs. -/
def keys (pairs : List (Text × Address)) : List Text := pairs.map Prod.fst

/-- The pairs whose key is not one of `earlier` and not the key of a pair before
them. -/
def firstWrites (earlier : List Text) : List (Text × Address) → List (Text × Address)
  | [] => []
  | (key, address) :: rest =>
      if key ∈ earlier then firstWrites (key :: earlier) rest
      else (key, address) :: firstWrites (key :: earlier) rest

/-- The table after some insertions. -/
def ofPairs (pairs : List (Text × Address)) : AddressTable :=
  pairs.foldl (fun table pair => (table.insert pair.1 pair.2).1) empty

/-- A table holds what inserting some pairs leaves. -/
structure Follows (pairs : List (Text × Address)) (table : AddressTable) : Prop where
  rows : table.rows.toList = firstWrites [] pairs
  /-- The index holds the position of each row under its key, and nothing else. -/
  index : ∀ (key : Text) (position : Nat), table.index[key]? = some position ↔
    ∃ address, table.rows[position]? = some (key, address)

/-! ## First writes -/

theorem firstWrites_append (earlier : List Text) (front back : List (Text × Address)) :
    firstWrites earlier (front ++ back) =
      firstWrites earlier front ++ firstWrites ((keys front).reverse ++ earlier) back := by
  induction front generalizing earlier with
  | nil => rfl
  | cons pair front ih =>
      obtain ⟨key, address⟩ := pair
      have seen : (keys ((key, address) :: front)).reverse ++ earlier
          = (keys front).reverse ++ key :: earlier := by simp [keys]
      rw [List.cons_append, firstWrites, firstWrites, seen, ih]
      split
      next => rfl
      next => rfl

theorem mem_keys_firstWrites {earlier : List Text} {pairs : List (Text × Address)} {key : Text} :
    key ∈ keys (firstWrites earlier pairs) ↔ key ∈ keys pairs ∧ key ∉ earlier := by
  induction pairs generalizing earlier with
  | nil => simp [firstWrites, keys]
  | cons pair pairs ih =>
      obtain ⟨first, address⟩ := pair
      rw [firstWrites]
      split
      next seen =>
        rw [ih]
        by_cases same : key = first
        · simp [same, seen]
        · simp [keys, same]
      next new =>
        have rest := @ih (first :: earlier)
        by_cases same : key = first
        · simp [keys, same, new]
        · simp only [keys, List.map_cons, List.mem_cons, same, false_or] at rest ⊢
          exact rest

/-- The first pair with a new key is a first write. -/
theorem find?_firstWrites {earlier : List Text} {key : Text} (new : key ∉ earlier)
    (pairs : List (Text × Address)) :
    (firstWrites earlier pairs).find? (·.1 = key) = pairs.find? (·.1 = key) := by
  induction pairs generalizing earlier with
  | nil => rfl
  | cons pair pairs ih =>
      obtain ⟨first, address⟩ := pair
      rw [firstWrites]
      by_cases same : first = key
      · subst same
        rw [if_neg new]
        simp
      · have rest := @ih (first :: earlier) (by simp [Ne.symm same, new])
        split
        next => simpa [same] using rest
        next => simpa [same] using rest

/-! ## One insertion -/

theorem contains_iff {pairs : List (Text × Address)} {table : AddressTable}
    (follows : Follows pairs table) {key : Text} :
    table.index.contains key = true ↔ key ∈ keys pairs := by
  have listed : key ∈ keys (firstWrites [] pairs) ↔ key ∈ keys pairs := by
    simp [mem_keys_firstWrites]
  rw [← listed, ← follows.rows, keys, List.mem_map, Std.HashMap.contains_eq_isSome_getElem?,
    Option.isSome_iff_exists]
  constructor
  · intro found
    obtain ⟨position, found⟩ := found
    obtain ⟨address, row⟩ := (follows.index key position).1 found
    exact ⟨(key, address), Array.mem_toList_iff.2 (Array.mem_of_getElem? row), rfl⟩
  · intro found
    obtain ⟨⟨first, address⟩, inside, rfl⟩ := found
    obtain ⟨position, row⟩ := Array.getElem?_of_mem (Array.mem_toList_iff.1 inside)
    exact ⟨position, (follows.index first position).2 ⟨address, row⟩⟩

/-- A key that is present stays as it is. -/
theorem insert_of_mem {pairs : List (Text × Address)} {table : AddressTable}
    (follows : Follows pairs table) {key : Text} (seen : key ∈ keys pairs) (address : Address) :
    table.insert key address = (table, false) := by
  rw [insert, if_pos ((contains_iff follows).2 seen)]

/-- A new key gets a row behind the others. -/
theorem insert_of_not_mem {pairs : List (Text × Address)} {table : AddressTable}
    (follows : Follows pairs table) {key : Text} (new : key ∉ keys pairs) (address : Address) :
    table.insert key address =
      (⟨table.index.insert key table.rows.size, table.rows.push (key, address)⟩, true) := by
  have absent : ¬ table.index.contains key = true := fun found =>
    new ((contains_iff follows).1 found)
  rw [insert, if_neg absent]

theorem follows_empty : Follows [] empty := by
  refine ⟨rfl, ?_⟩
  intro key position
  simp [empty]

/-- An insertion keeps the rows and the index in step. -/
theorem Follows.insert {pairs : List (Text × Address)} {table : AddressTable}
    (follows : Follows pairs table) (key : Text) (address : Address) :
    Follows (pairs ++ [(key, address)]) (table.insert key address).1 := by
  by_cases seen : key ∈ keys pairs
  · rw [insert_of_mem follows seen]
    refine ⟨?_, follows.index⟩
    rw [firstWrites_append, follows.rows]
    simp [firstWrites, seen]
  · have absent : table.index[key]? = none := by
      refine Std.HashMap.getElem?_eq_none ?_
      rwa [Std.HashMap.mem_iff_contains, contains_iff follows]
    rw [insert_of_not_mem follows seen]
    refine ⟨?_, ?_⟩
    · rw [firstWrites_append, Array.toList_push, follows.rows]
      simp [firstWrites, seen]
    · intro other position
      have known := follows.index other position
      rw [Std.HashMap.getElem?_insert, Array.getElem?_push]
      by_cases same : key = other
      · subst same
        rw [absent] at known
        by_cases last : position = table.rows.size
        · simp [last]
        · simp [last, Ne.symm last, ← known]
      · by_cases last : position = table.rows.size
        · subst last
          have beyond : table.rows[table.rows.size]? = none := Array.getElem?_size
          rw [beyond] at known
          simpa [same] using known
        · simpa [same, last] using known

/-! ## Runs -/

theorem ofPairs_append (front back : List (Text × Address)) :
    ofPairs (front ++ back) =
      back.foldl (fun table pair => (table.insert pair.1 pair.2).1) (ofPairs front) :=
  List.foldl_append

/-- Every run leaves the rows and the index in step. -/
theorem follows_ofPairs (pairs : List (Text × Address)) : Follows pairs (ofPairs pairs) := by
  induction pairs using List.reverseRecOn with
  | nil => exact follows_empty
  | append_singleton front pair ih =>
      rw [ofPairs_append]
      exact ih.insert pair.1 pair.2

/-! ## Lookups -/

/-- A row is the only one with its key. -/
theorem Follows.find?_rows {pairs : List (Text × Address)} {table : AddressTable}
    (follows : Follows pairs table) {key : Text} {address : Address} {position : Nat}
    (row : table.rows[position]? = some (key, address)) :
    table.rows.toList.find? (·.1 = key) = some (key, address) := by
  cases found : table.rows.toList.find? (·.1 = key) with
  | none =>
      have listed := Array.mem_toList_iff.2 (Array.mem_of_getElem? row)
      simpa using List.find?_eq_none.1 found (key, address) listed
  | some pair =>
      obtain ⟨first, other⟩ := pair
      obtain rfl : first = key := by simpa using List.find?_some found
      have inside := Array.mem_toList_iff.1 (List.mem_of_find?_eq_some found)
      obtain ⟨place, otherRow⟩ := Array.getElem?_of_mem inside
      -- the index has room for one position under the key
      have here := (follows.index first position).2 ⟨address, row⟩
      have there := (follows.index first place).2 ⟨other, otherRow⟩
      obtain rfl : position = place := Option.some.inj (here.symm.trans there)
      rw [← row, otherRow]

/-- A lookup answers with the address of the first pair with the key, or with 0. -/
theorem Follows.addressOf {pairs : List (Text × Address)} {table : AddressTable}
    (follows : Follows pairs table) (key : Text) :
    table.addressOf key = ((pairs.find? (·.1 = key)).map Prod.snd).getD 0 := by
  rw [← @find?_firstWrites [] key List.not_mem_nil, ← follows.rows, AddressTable.addressOf]
  cases found : table.index[key]? with
  | none =>
      have absent : table.rows.toList.find? (·.1 = key) = none := by
        rw [List.find?_eq_none]
        intro pair inside
        obtain ⟨first, address⟩ := pair
        obtain ⟨position, row⟩ := Array.getElem?_of_mem (Array.mem_toList_iff.1 inside)
        have known := (follows.index first position).2 ⟨address, row⟩
        simp only [decide_eq_true_eq]
        intro same
        rw [same, found] at known
        simp at known
      rw [absent]
      rfl
  | some position =>
      obtain ⟨address, row⟩ := (follows.index key position).1 found
      rw [follows.find?_rows row]
      simp [row]

theorem ofEntries_eq (entries : List Entry) :
    ofEntries entries = ofPairs (entries.map fun entry => (entry.signature.key, entry.address)) := by
  rw [ofEntries, ofPairs, List.foldl_map]

/-- The first write wins: what a run of insertions leaves, and what each insertion
and each lookup in it answers. -/
theorem first_write_wins (pairs : List (Text × Address)) :
    -- the rows are the pairs with a new key, and the index finds each
    Follows pairs (ofPairs pairs) ∧
    (∀ (key : Text) (position : Nat), (ofPairs pairs).index[key]? = some position →
      position < (ofPairs pairs).rows.size) ∧
    -- an insertion keeps its pair if the key is new, and changes nothing otherwise
    (∀ front key address back, pairs = front ++ (key, address) :: back →
      ((ofPairs front).insert key address).2 = decide (key ∉ keys front) ∧
        (key ∈ keys front → ((ofPairs front).insert key address).1 = ofPairs front)) ∧
    (∀ key, (ofPairs pairs).addressOf key
      = ((pairs.find? (·.1 = key)).map Prod.snd).getD 0) ∧
    -- more insertions keep the rows and the addresses that are there
    (∀ more, (ofPairs pairs).rows.toList <+: (ofPairs (pairs ++ more)).rows.toList ∧
      ∀ key ∈ (ofPairs pairs).index,
        (ofPairs (pairs ++ more)).addressOf key = (ofPairs pairs).addressOf key) ∧
    ∀ entries : List Entry,
      ofEntries entries
        = ofPairs (entries.map fun entry => (entry.signature.key, entry.address)) := by
  have follows := follows_ofPairs pairs
  refine ⟨follows, ?_, ?_, follows.addressOf, ?_, ofEntries_eq⟩
  · intro key position found
    obtain ⟨address, row⟩ := (follows.index key position).1 found
    exact (Array.getElem?_eq_some_iff.1 row).1
  · intro front key address back _
    by_cases seen : key ∈ keys front
    · rw [insert_of_mem (follows_ofPairs front) seen]
      simp [seen]
    · rw [insert_of_not_mem (follows_ofPairs front) seen]
      simp [seen]
  · intro more
    have after := follows_ofPairs (pairs ++ more)
    refine ⟨?_, ?_⟩
    · rw [follows.rows, after.rows, firstWrites_append]
      exact List.prefix_append _ _
    · intro key present
      have listed := (contains_iff follows).1 (Std.HashMap.mem_iff_contains.1 present)
      obtain ⟨pair, inside, sameKey⟩ := List.mem_map.1 listed
      have found : (pairs.find? (·.1 = key)).isSome = true := by
        rw [List.find?_isSome]
        exact ⟨pair, inside, by simpa using sameKey⟩
      rw [after.addressOf, follows.addressOf, List.find?_append, Option.or_of_isSome found]

end AddressTable

end SignatureExport
