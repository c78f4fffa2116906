import Mathlib.Data.BitVec

/-!
# The sortable table

The page slices and the CSV export of `daimon-app/src/components/sortable_table.rs`. A `usize` has `w` bits.
-/

namespace Daimon.App.SortableTable

/-! ## Pages -/

section Pages
variable {T : Type} {w : Nat}

/-- With overflow checks an operation that leaves the range panics, without them it wraps around. -/
def checked (overflowChecks overflows : Bool) (value : BitVec w) : Option (BitVec w) :=
  if overflowChecks && overflows then none else some value

/-- `rows[start..end]` panics unless `start ≤ end ≤ rows.len()`. -/
def slice (rows : List T) (first last : Nat) : Option (List T) :=
  if first ≤ last ∧ last ≤ rows.length then some ((rows.take last).drop first) else none

def paginate (overflowChecks : Bool) (rows : List T) (page pageSize : BitVec w) : Option (List T) := do
  let start ← checked overflowChecks (page.umulOverflow pageSize) (page * pageSize)
  if rows.length ≤ start.toNat then return []
  let last ← checked overflowChecks (start.uaddOverflow pageSize) (start + pageSize)
  slice rows start.toNat (min last.toNat rows.length)

def totalPages (overflowChecks : Bool) (rowCount pageSize : BitVec w) : Option (BitVec w) := do
  if pageSize = 0#w then return 0#w
  let sum ← checked overflowChecks (rowCount.uaddOverflow pageSize) (rowCount + pageSize)
  let upper ← checked overflowChecks (sum.usubOverflow 1#w) (sum - 1#w)
  return upper / pageSize

end Pages

/-! ## CSV export -/

structure ColumnDef where
  key : String
  label : String
  deriving DecidableEq, Repr

def doubleQuotes (val : List Char) : List Char := val.flatMap fun c => if c = '"' then ['"', '"'] else [c]

def exportCell (val : String) : String :=
  if ',' ∈ val.toList ∨ '"' ∈ val.toList then String.ofList ('"' :: (doubleQuotes val.toList ++ ['"'])) else val

section Csv
variable {T : Type} (cellValue : T → String → String)

def exportLine (columns : List ColumnDef) (row : T) : String :=
  ",".intercalate (columns.map fun c => exportCell (cellValue row c.key))

def exportCsv (rows : List T) (columns : List ColumnDef) : String :=
  rows.foldl (fun csv row => csv ++ exportLine cellValue columns row ++ "\n")
    (",".intercalate (columns.map ColumnDef.label) ++ "\n")

end Csv

end Daimon.App.SortableTable
