import Daimon.App.SortableTable
import Daimon.Lib.Csv
import Daimon.Lib.Lists
import Daimon.Lib.Pages

/-!
# Pages and the CSV export of a table
-/

namespace Daimon.Proof.App.SortableTable
open Daimon.App.SortableTable Lib

/-! ## Pages -/

section Pages
variable {T : Type} {w : Nat} {overflowChecks : Bool} {rows : List T} {rowCount pageSize page total : BitVec w}
  {pages : List (List T)}

@[simp] theorem checked_of_fits (value : BitVec w) : checked overflowChecks false value = some value := by
  simp [checked]

/-- The arguments for which the page count does not overflow. -/
structure Paged (rows : List T) (rowCount pageSize : BitVec w) : Prop where
  count : rowCount.toNat = rows.length
  positive : 0#w < pageSize
  fits : rowCount.uaddOverflow pageSize = false

theorem Paged.positive_toNat (paged : Paged rows rowCount pageSize) : 0 < pageSize.toNat := by
  simpa [BitVec.lt_def] using paged.positive

theorem Paged.reach (paged : Paged rows rowCount pageSize) : rows.length + pageSize.toNat < 2 ^ w := by
  simpa [BitVec.uaddOverflow, ← paged.count] using paged.fits

theorem totalPages_eq (paged : Paged rows rowCount pageSize) :
    ∃ total, totalPages overflowChecks rowCount pageSize = some total ∧
      total.toNat = rows.length ⌈/⌉ pageSize.toNat := by
  have positive := paged.positive_toNat
  have nonzero : pageSize ≠ 0#w := by
    rintro rfl
    simp at positive
  have sum : (rowCount + pageSize).toNat = rows.length + pageSize.toNat := by
    rw [BitVec.toNat_add_of_not_uaddOverflow (by simp [paged.fits]), paged.count]
  have width : w ≠ 0 := by
    rintro rfl
    exact absurd paged.reach (by simp; omega)
  have one : (1#w).toNat = 1 := by
    rw [BitVec.toNat_ofNat]
    exact Nat.mod_eq_of_lt (Nat.one_lt_two_pow width)
  have upper : (rowCount + pageSize).usubOverflow 1#w = false := by
    rw [BitVec.usubOverflow, sum, one]
    simp
    omega
  refine ⟨(rowCount + pageSize - 1#w) / pageSize, ?_, ?_⟩
  · simp [totalPages, nonzero, paged.fits, upper]
  · rw [BitVec.toNat_udiv, BitVec.toNat_sub_of_not_usubOverflow (by simp [upper]), sum, one,
      Nat.ceilDiv_eq_add_pred_div]

theorem paginate_eq (paged : Paged rows rowCount pageSize) (start : page.umulOverflow pageSize = false) :
    paginate overflowChecks rows page pageSize = some (pageOf pageSize.toNat rows page.toNat) := by
  have product : (page * pageSize).toNat = page.toNat * pageSize.toNat :=
    BitVec.toNat_mul_of_not_umulOverflow (by simp [start])
  by_cases beyond : rows.length ≤ page.toNat * pageSize.toNat
  · simp [paginate, start, product, beyond, pageOf, List.drop_of_length_le]
  · have fits : (page * pageSize).uaddOverflow pageSize = false := by
      have reach := paged.reach
      simp only [BitVec.uaddOverflow, product, ge_iff_le, decide_eq_false_iff_not]
      omega
    have last : (page * pageSize + pageSize).toNat = page.toNat * pageSize.toNat + pageSize.toNat := by
      rw [BitVec.toNat_add_of_not_uaddOverflow (by simp [fits]), product]
    have inside : page.toNat * pageSize.toNat ≤
        min (page.toNat * pageSize.toNat + pageSize.toNat) rows.length := by omega
    simp only [paginate, start, checked_of_fits, Option.bind_eq_bind, Option.bind_some, product, beyond, if_false, fits,
      last, slice, inside, Nat.min_le_right, and_self, if_true, pageOf, List.drop_take]
    rw [Option.some_inj, List.take_eq_take_iff, List.length_drop]
    omega

/-- The pages of an answered table, one behind the other, and what a page index behind them gives. -/
structure Partition (overflowChecks : Bool) (rows : List T) (rowCount pageSize total : BitVec w)
    (pages : List (List T)) : Prop where
  counted : totalPages overflowChecks rowCount pageSize = some total
  read : (List.range total.toNat).mapM (fun p => paginate overflowChecks rows (BitVec.ofNat w p) pageSize) = some pages
  whole : pages.flatten = rows
  full : ∀ page ∈ pages.dropLast, page.length = pageSize.toNat
  last : ∀ page ∈ pages.getLast?, page ≠ []
  beyond : ∀ page, total ≤ page → page.umulOverflow pageSize = false →
    paginate overflowChecks rows page pageSize = some []

theorem pages_partition (overflowChecks : Bool) (rows : List T) (rowCount pageSize : BitVec w)
    (paged : Paged rows rowCount pageSize) :
    ∃ total pages, Partition overflowChecks rows rowCount pageSize total pages := by
  obtain ⟨total, counted, ceiling⟩ := @totalPages_eq T w overflowChecks rows rowCount pageSize paged
  have positive := paged.positive_toNat
  have page_ok (p : Nat) (member : p ∈ List.range total.toNat) :
      paginate overflowChecks rows (BitVec.ofNat w p) pageSize = some (pageOf pageSize.toNat rows p) := by
    have below : p < total.toNat := List.mem_range.mp member
    have index : (BitVec.ofNat w p).toNat = p := by
      rw [BitVec.toNat_ofNat]
      exact Nat.mod_eq_of_lt (below.trans total.isLt)
    have start : (BitVec.ofNat w p).umulOverflow pageSize = false := by
      have first := (lt_pageCount_iff positive).mp (below.trans_eq ceiling)
      have reach := paged.reach
      simp only [BitVec.umulOverflow, index, ge_iff_le, decide_eq_false_iff_not]
      omega
    rw [paginate_eq paged start, index]
  have beyond (page : BitVec w) (above : total ≤ page) (start : page.umulOverflow pageSize = false) :
      paginate overflowChecks rows page pageSize = some [] := by
    rw [paginate_eq paged start, pageOf_eq_nil positive]
    rw [← ceiling]
    exact above
  have read := mapM_of_forall page_ok
  rw [ceiling] at read
  exact ⟨total, pagesOf pageSize.toNat rows, counted, by rw [ceiling, read, pagesOf], flatten_pages positive rows,
    fun page => length_of_mem_dropLast positive, fun page => ne_nil_of_mem_getLast? positive, beyond⟩

theorem three_rows_partition :
    Paged [5, 6, 7] 3#64 2#64 ∧
      ∃ total pages, Partition true [5, 6, 7] 3#64 2#64 total pages := by
  have paged : Paged [5, 6, 7] 3#64 2#64 := ⟨rfl, by decide, by decide⟩
  exact ⟨paged, pages_partition true [5, 6, 7] 3#64 2#64 paged⟩

end Pages

/-! ## CSV export -/

section Csv
variable {T : Type} {cellValue : T → String → String} {rows : List T} {columns : List ColumnDef}

/-- A label is written as it is. -/
def LabelFits (label : String) : Prop := ∀ c ∈ label.toList, Csv.isText c = true

/-- A line break that no comma and no quote comes with is written as it is. -/
def CellFits (val : String) : Prop :=
  ('\r' ∈ val.toList ∨ '\n' ∈ val.toList) → ',' ∈ val.toList ∨ '"' ∈ val.toList

theorem isText_of_fits {val : String} (plain : ¬(',' ∈ val.toList ∨ '"' ∈ val.toList)) :
    (∀ c ∈ val.toList, Csv.isText c = true) ↔ CellFits val := by
  constructor
  · rintro allText (member | member)
    · exact absurd (allText _ member) (by simp [Csv.isText])
    · exact absurd (allText _ member) (by simp [Csv.isText])
  · intro fits c member
    rw [Csv.isText_eq_true]
    refine ⟨?_, ?_, ?_, ?_⟩ <;> rintro rfl
    · exact plain (Or.inl member)
    · exact plain (Or.inr member)
    · exact plain (fits (Or.inl member))
    · exact plain (fits (Or.inr member))

theorem written_cell (val : String) : Csv.Written (exportCell val).toList val.toList (CellFits val) := by
  unfold exportCell
  split
  · rename_i special
    rw [String.toList_ofList]
    exact ⟨fun _ => Csv.reads_quoted val.toList, fun misfit => absurd (fun _ => special) misfit⟩
  · rename_i plain
    rw [← isText_of_fits plain]
    exact Csv.written_bare val.toList

theorem toList_exportLine (row : T) : (exportLine cellValue columns row).toList =
    [','].intercalate (columns.map fun c => (exportCell (cellValue row c.key)).toList) := by
  rw [exportLine, String.toList_intercalate, List.map_map]
  rfl

theorem toList_exportRows (csv : String) (rows : List T) :
    (rows.foldl (fun csv row => csv ++ exportLine cellValue columns row ++ "\n") csv).toList =
      csv.toList ++ rows.flatMap fun row => (exportLine cellValue columns row).toList ++ ['\n'] := by
  induction rows generalizing csv with
  | nil => simp
  | cons row rows ih =>
      rw [List.foldl_cons, ih, List.flatMap_cons]
      simp

theorem parse_header_iff {rest : List Char} {records : List (List (List Char))} :
    Csv.parse ([','].intercalate (columns.map fun c => c.label.toList) ++ '\n' :: rest) =
        some ((columns.map fun c => c.label.toList) :: records) ↔
      columns ≠ [] ∧ (∀ c ∈ columns, LabelFits c.label) ∧ Csv.parse rest = some records :=
  @Csv.parse_line_iff ColumnDef (fun c => c.label.toList) (fun c => c.label.toList) (fun c => LabelFits c.label) rest
    records (fun c => Csv.written_bare c.label.toList) columns

theorem parse_row_iff {row : T} {rest : List Char} {records : List (List (List Char))} :
    Csv.parse ((exportLine cellValue columns row).toList ++ '\n' :: rest) =
        some ((columns.map fun c => (cellValue row c.key).toList) :: records) ↔
      columns ≠ [] ∧ (∀ c ∈ columns, CellFits (cellValue row c.key)) ∧ Csv.parse rest = some records := by
  rw [toList_exportLine]
  exact @Csv.parse_line_iff ColumnDef (fun c => (exportCell (cellValue row c.key)).toList)
    (fun c => (cellValue row c.key).toList) (fun c => CellFits (cellValue row c.key)) rest records
    (fun c => written_cell (cellValue row c.key)) columns

theorem parse_rows_iff (someColumn : columns ≠ []) (rows : List T) :
    Csv.parse (rows.flatMap fun row => (exportLine cellValue columns row).toList ++ ['\n']) =
        some (rows.map fun row => columns.map fun c => (cellValue row c.key).toList) ↔
      ∀ row ∈ rows, ∀ c ∈ columns, CellFits (cellValue row c.key) := by
  induction rows with
  | nil => simp [Csv.parse]
  | cons row rows ih =>
      rw [List.flatMap_cons, List.append_assoc, List.singleton_append, List.map_cons, parse_row_iff, ih,
        List.forall_mem_cons]
      exact and_iff_right someColumn

/-- The export reads back where there is a column, no label holds a character that the format treats specially, and
every cell with a line break also holds a comma or a quote. -/
theorem export_readable_iff (cellValue : T → String → String) (rows : List T) (columns : List ColumnDef) :
    Csv.parseText (exportCsv cellValue rows columns) =
        some (columns.map ColumnDef.label :: rows.map fun row => columns.map fun c => cellValue row c.key) ↔
      columns ≠ [] ∧ (∀ c ∈ columns, LabelFits c.label) ∧
        ∀ row ∈ rows, ∀ c ∈ columns, CellFits (cellValue row c.key) := by
  have header : (",".intercalate (columns.map ColumnDef.label)).toList =
      [','].intercalate (columns.map fun c => c.label.toList) := by
    rw [String.toList_intercalate, List.map_map]
    rfl
  have expected : (columns.map ColumnDef.label :: rows.map fun row => columns.map fun c => cellValue row c.key).map
      (·.map String.toList) = (columns.map fun c => c.label.toList) ::
        rows.map fun row => columns.map fun c => (cellValue row c.key).toList := by
    simp [Function.comp_def]
  have feed : "\n".toList = ['\n'] := by simp
  rw [Csv.parseText_eq_some, exportCsv, toList_exportRows, String.toList_append, header, feed, List.append_assoc,
    List.singleton_append, expected, parse_header_iff]
  constructor
  · rintro ⟨someColumn, labels, cells⟩
    exact ⟨someColumn, labels, (parse_rows_iff someColumn rows).mp cells⟩
  · rintro ⟨someColumn, labels, cells⟩
    exact ⟨someColumn, labels, (parse_rows_iff someColumn rows).mpr cells⟩

/-- A line feed alone does not bring a cell into quotes, and nothing brings a label into quotes. -/
theorem line_break_splits_record :
    Csv.parseText (exportCsv (fun row _ => row) ["a\nb"] [⟨"note", "Note"⟩]) = some [["Note"], ["a"], ["b"]] ∧
      Csv.parseText (exportCsv (fun row _ => row) ["a\nb"] [⟨"note", "Note"⟩]) ≠ some [["Note"], ["a\nb"]] ∧
      Csv.parseText (exportCsv (fun row _ => row) ["a"] [⟨"note", "Note, if any"⟩]) ≠
        some [["Note, if any"], ["a"]] := by
  decide

end Csv

end Daimon.Proof.App.SortableTable
