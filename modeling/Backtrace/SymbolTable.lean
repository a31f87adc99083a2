import Backtrace.Address
import Std.Data.ExtTreeMap

/-!
# Symbol tables

Function names, keyed by the address of the function's first instruction.  Names are for display and
have no part in rebuilding a call stack.  A table is no more than what it says about each address:
neither the order in which names came nor a name that was replaced leaves a trace.

A table comes about in two ways.  Names are inserted one by one, and each insertion tells the name
that it replaces.  Or entries are collected all at once: they are sorted by address, and of those
for one address the last one is kept.

Main results:

- Theorem `SymbolTable.name?_insert`: a new name answers for its own address alone.
- Theorem `SymbolTable.fst_replace`: an insertion tells the name that the address had before.
- Theorem `SymbolTable.ext_name?`: tables that name every address alike are equal.
-/

namespace Backtrace

/-- Names of functions by the address they start at. -/
structure SymbolTable where
  names : Std.ExtTreeMap Address String
deriving DecidableEq

namespace SymbolTable

/-- An address and the name of the function that starts there. -/
abbrev Binding := Address × String

/-- The table without any name. -/
def empty : SymbolTable := ⟨∅⟩

/-- The name of the function that starts exactly at `address`. -/
def name? (table : SymbolTable) (address : Address) : Option String := table.names[address]?

/-! ## Inserting one by one -/

/-- The name that an insertion at `address` replaces, and the table after it. -/
def replace (table : SymbolTable) (address : Address) (name : String) :
    Option String × SymbolTable :=
  match table.names[address]? with
  | none => (none, ⟨table.names.insert address name⟩)
  | some replaced => (some replaced, ⟨table.names.modify address fun _ => name⟩)

/-- The table with `name` as the name at `address`. -/
def insert (table : SymbolTable) (address : Address) (name : String) : SymbolTable :=
  (table.replace address name).2

/-- The empty table names nothing. -/
@[simp] theorem name?_empty (address : Address) : empty.name? address = none := by
  simp [empty, name?]

/-- An insertion tells the name that the address had before. -/
theorem fst_replace (table : SymbolTable) (address : Address) (name : String) :
    (table.replace address name).1 = table.name? address := by
  unfold replace name?
  split
  next hvacant => rw [hvacant]
  next replaced hoccupied => rw [hoccupied]

/-- A new name answers for its own address alone. -/
theorem name?_insert (table : SymbolTable) (address other : Address) (name : String) :
    (table.insert address name).name? other =
      if address = other then some name else table.name? other := by
  unfold insert replace name?
  split
  next hvacant => simp [Std.ExtTreeMap.getElem?_insert]
  next replaced hoccupied => simp [Std.ExtTreeMap.getElem?_modify, hoccupied]

/-- Tables that name every address alike are equal. -/
theorem ext_name? {first second : SymbolTable}
    (hnames : ∀ address, first.name? address = second.name? address) : first = second := by
  cases first
  cases second
  congr
  exact Std.ExtTreeMap.ext_getElem? hnames

/-! ## Collecting all at once -/

/-- Whether two entries are in the order of their addresses. -/
def inOrder (first second : Binding) : Bool := first.1 ≤ second.1

/-- The entries of a list in which those for one address stand together, but only the last one for
each address. -/
def keepLast : List Binding → List Binding
  | [] => []
  | [entry] => [entry]
  | first :: second :: rest =>
    if first.1 = second.1 then keepLast (second :: rest)
    else first :: keepLast (second :: rest)

/-- The last entry for each address, by ascending address.  Sorting leaves the entries for one
address in their order. -/
def lastEntries (entries : List Binding) : List Binding := keepLast (entries.mergeSort inOrder)

/-- The table with the names of `entries`, where the last of equal addresses stays. -/
def ofList (entries : List Binding) : SymbolTable :=
  ⟨Std.ExtTreeMap.ofList (lastEntries entries)⟩

end SymbolTable

end Backtrace
