import BarcodeWorker.Scalar

/-!
# One pass over column 0

Each scalar function reads column 0 of its batch cell by cell, appends one row a cell and puts the
finished column under the output schema. What such a pass returns depends on the cells alone:
`columnLoop_outcome` states it with the traversal of the cells by a function of one cell.
-/

namespace BarcodeWorker

open ArrowIo

theorem column0_eq {batch : RecordBatch} {col : Column}
    (hcol : batch.columns.head? = some col) : column0 batch = pure col := by
  rw [column0]
  cases hc : batch.columns with
  | nil => simp [hc] at hcol
  | cons c rest =>
    rw [hc,List.head?_cons,Option.some.injEq] at hcol
    simp only [hcol]

section ColumnLoop
variable {α : Type} {size : α → ℕ}

/-- The shape of every `process`: `row` computes a row, `finish` the output column. -/
def columnLoop (size : α → ℕ) (crates : Crates) (schema : Schema) (batch : RecordBatch)
    (row : Column → ℕ → Run RpcError (Option α)) (finish : List (Option α) → Column) :
    Run RpcError RecordBatch := do
  let col ← column0 batch
  let out ← rowLoop (row col) (List.range batch.numRows) (.new : OffsetBuilder α size i32Max)
  tryNew crates schema [finish out.rows]

/-- The rows of a traversal, or the panic of the builder when the rows before the first failing
one do not fit its offsets. -/
def collectRows {ι : Type} (size : α → ℕ) (read : ι → Outcome RpcError (Option α))
    (cells : List ι) : Outcome RpcError (List (Option α)) :=
  if totalSize size (Outcome.okPrefix read cells) ≤ i32Max then cells.mapM read
  else .panic offsetOverflow

theorem columnLoop_outcome (crates : Crates) (schema : Schema) {batch : RecordBatch}
    {col : Column} (hcol : batch.columns.head? = some col)
    (row : Column → ℕ → Run RpcError (Option α)) (finish : List (Option α) → Column)
    (read : Option col.dataType.Native → Outcome RpcError (Option α))
    (hrow : ∀ i cell, col.cells[i]? = some cell → (row col i).outcome = read cell)
    (hend : ∀ i, col.cells[i]? = none → (row col i).outcome = .panic indexOutOfBounds) :
    (columnLoop size crates schema batch row finish).outcome =
      collectRows size read col.cells >>= fun rows =>
        .ofExcept ((crates.arrow.tryNew schema [finish rows]).mapError .runtimeError) := by
  have hread : ∀ i, (row col i).outcome =
      (fun c => c.elim (.panic indexOutOfBounds) read) col.cells[i]? := by
    intro i
    cases hc : col.cells[i]? with
    | none => exact hend i hc
    | some cell => exact hrow i cell hc
  have hloop : OffsetBuilder.rows <$> (rowLoop (row col) (List.range batch.numRows)
      (.new : OffsetBuilder α size i32Max)).outcome = collectRows size read col.cells := by
    rw [← RecordBatch.length_cells hcol]
    exact rowLoop_range_outcome (row col) col.cells
      (fun c => c.elim (.panic indexOutOfBounds) read) hread
  rw [columnLoop,column0_eq hcol,pure_bind,← hloop,Traced.outcome_bind]
  cases (rowLoop (row col) (List.range batch.numRows)
    (.new : OffsetBuilder α size i32Max)).outcome <;> rfl

/-- Only the row loop calls out. -/
theorem columnLoop_trace (crates : Crates) (schema : Schema) {batch : RecordBatch}
    {col : Column} (hcol : batch.columns.head? = some col)
    (row : Column → ℕ → Run RpcError (Option α)) (finish : List (Option α) → Column) :
    (columnLoop size crates schema batch row finish).trace =
      (rowLoop (row col) (List.range col.cells.length)
        (.new : OffsetBuilder α size i32Max)).trace := by
  rw [columnLoop,column0_eq hcol,pure_bind,RecordBatch.length_cells hcol]
  cases h : (rowLoop (row col) (List.range batch.numRows)
      (.new : OffsetBuilder α size i32Max)).outcome with
  | ok out => rw [Traced.trace_bind_ok h,tryNew,Traced.trace_ofExcept,List.append_nil]
  | error e => rw [Traced.trace_bind_error h]
  | panic m => rw [Traced.trace_bind_panic h]

theorem collectRows_fits {ι : Type} {read : ι → Outcome RpcError (Option α)} {cells : List ι}
    (hfit : totalSize size (Outcome.okPrefix read cells) ≤ i32Max) :
    collectRows size read cells = cells.mapM read := if_pos hfit

theorem collectRows_overflow {ι : Type} {read : ι → Outcome RpcError (Option α)} {cells : List ι}
    (hfit : ¬ totalSize size (Outcome.okPrefix read cells) ≤ i32Max) :
    collectRows size read cells = .panic offsetOverflow := if_neg hfit

end ColumnLoop

section Panics
variable {α ι : Type} {size : α → ℕ} {read : ι → Outcome RpcError (Option α)} {cells : List ι}

/-- A pass whose cells come to no panic panics exactly when its rows do not fit the builder. -/
theorem pass_ne_panic_iff (hread : ∀ cell ∈ cells, ∀ m, read cell ≠ .panic m)
    (put : List (Option α) → Except RpcError RecordBatch) :
    (∀ m, (collectRows size read cells >>= fun rows => .ofExcept (put rows)) ≠ .panic m) ↔
      totalSize size (Outcome.okPrefix read cells) ≤ i32Max := by
  constructor
  · intro hne
    by_contra hfit
    exact hne offsetOverflow (by rw [collectRows_overflow hfit]; rfl)
  · intro hfit m
    rw [collectRows_fits hfit]
    have hm := Outcome.mapM_ne_panic read cells m fun cell hc => hread cell hc m
    cases h : cells.mapM read with
    | ok rows => simp
    | error e => simp
    | panic m' => simpa [h] using hm

end Panics

/-- A column of the type that the bind declared is put under its schema. -/
theorem tryNew_declared {crates : Crates} (hb : crates.vgi.BindContract)
    (ht : crates.arrow.TryNewContract) (col : Column) :
    crates.arrow.tryNew (crates.vgi.result col.dataType).outputSchema [col] =
      .ok (.ofColumn (crates.vgi.result col.dataType).outputSchema col) := by
  obtain ⟨name,hs⟩ := hb col.dataType
  have ha : Schema.Admits (crates.vgi.result col.dataType).outputSchema [col] col.len := by
    rw [hs]
    exact ⟨by simp,by simp,by simp,by simp⟩
  exact ht _ _ _ ha

end BarcodeWorker
