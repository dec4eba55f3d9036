import BarcodeWorker.OffsetLimit
import BarcodeWorker.RowFunction
import BarcodeWorker.Worker

/-!
# What the scalar functions compute

The meaning of a scalar function with its constants is a row function on typed values. The worker
computes it batch by batch through Arrow columns, index loops and offset builders: `process_refines`
says that one batch is the lifted row function, rows, error and calls, and `boundScan_refines` that
a whole scan is the row function lifted to all its batches put one after the other.
-/

namespace BarcodeWorker

open Barcoding ArrowIo

/-! ## Values -/

/-- A value with the type of the column it stands in. -/
structure TypedValue where
  dataType : DataType
  value : dataType.Native

namespace TypedValue

/-- Bytes of a value in the value buffer of its column. -/
def size : TypedValue → ℕ
  | ⟨.binary,b⟩ => List.length b
  | ⟨.largeBinary,b⟩ => List.length b
  | ⟨.utf8,s⟩ => String.utf8ByteSize s
  | ⟨.largeUtf8,s⟩ => String.utf8ByteSize s
  | _ => 0

def binary (b : Bytes) : TypedValue := ⟨.binary,b⟩
def utf8 (s : String) : TypedValue := ⟨.utf8,s⟩

@[simp] theorem size_binary (b : Bytes) : (binary b).size = b.length := rfl
@[simp] theorem size_utf8 (s : String) : (utf8 s).size = s.utf8ByteSize := rfl

/-- What `blob_bytes` and `text_str` read of a value. -/
def blob (v : TypedValue) : Except RpcError (Option Bytes) := blobCell v.dataType (some v.value)
def text (v : TypedValue) : Except RpcError (Option String) := textCell v.dataType (some v.value)

end TypedValue

def Column.values (c : Column) : List (Option TypedValue) :=
  c.cells.map (Option.map (TypedValue.mk c.dataType))

/-- The values of column 0. -/
def RecordBatch.values (batch : RecordBatch) : List (Option TypedValue) :=
  batch.columns.head?.elim [] Column.values

theorem RecordBatch.values_eq {batch : RecordBatch} {col : Column}
    (hcol : batch.columns.head? = some col) : batch.values = col.values := by
  rw [values,hcol]
  rfl

/-! ## One batch -/

section Loop
variable {α : Type} {size : α → ℕ} {crates : Crates} {f : RowFunction Call RpcError TypedValue TypedValue}

/-- The room that a row function needs in a builder is that of the rows it reads. -/
theorem fits_iff_read {t : DataType} {cells : List (Option t.Native)}
    {read : Option t.Native → Run RpcError (Option α)} {toValue : α → TypedValue}
    (hread : ∀ c, f.onCell (c.map (TypedValue.mk t)) = Option.map toValue <$> read c)
    (hsize : ∀ a, (toValue a).size = size a) (limit : ℕ) :
    f.Fits TypedValue.size limit (cells.map (Option.map (TypedValue.mk t))) ↔
      totalSize size (Outcome.okPrefix (fun c => (read c).outcome) cells) ≤ limit := by
  have htotal : totalSize TypedValue.size (Outcome.okPrefix (fun c => (f.onCell c).outcome)
      (cells.map (Option.map (TypedValue.mk t)))) =
      totalSize size (Outcome.okPrefix (fun c => (read c).outcome) cells) := by
    rw [Outcome.okPrefix_map]
    induction cells with
    | nil => rfl
    | cons c cells ih =>
      simp only [Outcome.okPrefix,hread,Traced.outcome_map] at ih ⊢
      cases (read c).outcome with
      | error e => rfl
      | panic m => rfl
      | ok r =>
        cases r with
        | none => simpa using ih
        | some a => simpa [hsize] using ih
  rw [RowFunction.Fits,htotal]

/-- A pass over column 0 that reads each cell by itself is the lifted row function. -/
theorem columnLoop_refines (hb : crates.vgi.BindContract) (ht : crates.arrow.TryNewContract)
    {batch : RecordBatch} {col : Column} (hcol : batch.columns.head? = some col)
    {row : Column → ℕ → Run RpcError (Option α)} {finish : List (Option α) → Column}
    {read : Option col.dataType.Native → Run RpcError (Option α)} {toValue : α → TypedValue}
    {t : DataType} (htype : ∀ rows, (finish rows).dataType = t)
    (hvalues : ∀ rows, (finish rows).values = rows.map (Option.map toValue))
    (hrow : ∀ i c, col.cells[i]? = some c → row col i = read c)
    (hread : ∀ c, f.onCell (c.map (TypedValue.mk col.dataType)) = Option.map toValue <$> read c)
    (hsize : ∀ a, (toValue a).size = size a) (hfit : f.Fits TypedValue.size i32Max col.values) :
    RecordBatch.values <$> columnLoop size crates (crates.vgi.result t).outputSchema batch row finish
      = f.lift col.values := by
  have hroom := (fits_iff_read hread hsize i32Max).mp hfit
  have hloop : OffsetBuilder.rows <$> rowLoop (row col) (List.range col.cells.length)
      (.new : OffsetBuilder α size i32Max) = col.cells.mapM read :=
    rowLoop_range_eq_mapM (row col) col.cells read hrow hroom
  rw [RecordBatch.length_cells hcol] at hloop
  have hput : ∀ rows : List (Option α), RecordBatch.values <$>
      tryNew crates (crates.vgi.result t).outputSchema [finish rows] =
        pure (rows.map (Option.map toValue)) := by
    intro rows
    have hnew := tryNew_declared hb ht (finish rows)
    rw [htype] at hnew
    rw [tryNew,hnew,← hvalues rows]
    rfl
  have hall : f.lift col.values = List.map (Option.map toValue) <$> col.cells.mapM read := by
    rw [← Traced.mapM_map_result,RowFunction.lift,Column.values,List.mapM_map]
    exact Traced.mapM_congr_left fun c _ => hread c
  rw [columnLoop,column0_eq hcol,pure_bind,map_bind,hall,← hloop]
  simp only [hput,map_eq_pure_bind,bind_assoc,pure_bind]

end Loop

/-! ## The row functions -/

namespace DecodeBarcode

/-- The row of a cell with its calls. -/
def cellRun (crates : Crates) (self : DecodeBarcode) (t : DataType) (cell : Option t.Native) :
    Run RpcError (Option String) := do
  match ← Traced.ofExcept (blobCell t cell) with
  | none => pure none
  | some bytes =>
    match ← (decodeFirst crates bytes).attempt with
    | .ok (some d) => pure (some (self.project d))
    | .ok none => pure none
    | .error _ => pure none

/-- `decode_barcode` and `barcode_format` on one value. -/
def rowFunction (crates : Crates) (self : DecodeBarcode) :
    RowFunction Call RpcError TypedValue TypedValue :=
  fun v => Option.map TypedValue.utf8 <$> self.cellRun crates v.dataType (some v.value)

section Rows
variable (crates : Crates) (self : DecodeBarcode)

theorem row_eq_cellRun {col : Column} {i : ℕ} {cell : Option col.dataType.Native}
    (hc : col.cells[i]? = some cell) :
    self.row crates col i = self.cellRun crates col.dataType cell := by
  simp only [row,blobBytes,hc]
  rfl

theorem onCell_rowFunction {t : DataType} (cell : Option t.Native) :
    (self.rowFunction crates).onCell (cell.map (TypedValue.mk t)) =
      Option.map TypedValue.utf8 <$> self.cellRun crates t cell := by
  cases cell with
  | none =>
    have hnone : blobCell t none = .ok none := by cases t <;> rfl
    rw [cellRun,hnone]
    rfl
  | some v => rfl

end Rows
end DecodeBarcode

namespace Request

/-- The row of a cell with its calls. -/
def cellRun (crates : Crates) (request : Request) (t : DataType) (cell : Option t.Native) :
    Run RpcError (Option Bytes) := do
  match ← Traced.ofExcept (textCell t cell) with
  | none => pure none
  | some text => some <$> (request.image crates text).mapErr ve

/-- The image of one value. -/
def rowFunction (crates : Crates) (request : Request) :
    RowFunction Call RpcError TypedValue TypedValue :=
  fun v => Option.map TypedValue.binary <$> request.cellRun crates v.dataType (some v.value)

section Rows
variable (crates : Crates) (request : Request)

theorem row_eq_cellRun {col : Column} {i : ℕ} {cell : Option col.dataType.Native}
    (hc : col.cells[i]? = some cell) :
    request.row crates col i = request.cellRun crates col.dataType cell := by
  simp only [row,textStr,hc]
  rfl

theorem onCell_rowFunction {t : DataType} (cell : Option t.Native) :
    (request.rowFunction crates).onCell (cell.map (TypedValue.mk t)) =
      Option.map TypedValue.binary <$> request.cellRun crates t cell := by
  cases cell with
  | none =>
    rw [cellRun,textCell_none]
    rfl
  | some v => rfl

end Rows
end Request

/-! ## The scans of the worker -/

namespace ScalarFunction

/-- A scalar function with its constants; constants that a bind rejects have no meaning. -/
def meaning (crates : Crates) (args : Arguments) :
    ScalarFunction → Except RpcError (RowFunction Call RpcError TypedValue TypedValue)
  | .decode f => .ok (f.rowFunction crates)
  | .generate g => (g.resolve crates args).map fun request => request.rowFunction crates

section Scans
variable {crates : Crates} {args : Arguments} {f : ScalarFunction}
  {r : RowFunction Call RpcError TypedValue TypedValue}

theorem onBind_eq (crates : Crates) (f : ScalarFunction) (args : Arguments) :
    f.onBind crates ⟨args⟩ = Traced.ofExcept (f.meaning crates args) >>= fun _ =>
      pure (crates.vgi.result f.returnType) := by
  cases f with
  | decode f => rfl
  | generate g =>
    have htype : (ScalarFunction.generate g).returnType = .binary := by cases g <;> rfl
    rw [onBind,Generator.onBind_eq,htype,meaning]
    cases g.resolve crates args <;> rfl

theorem process_error {e : RpcError} (he : f.meaning crates args = .error e) (schema : Schema)
    (batch : RecordBatch) : f.process crates ⟨args,schema⟩ batch = ⟨.error e,[]⟩ := by
  cases f with
  | decode f => cases he
  | generate g =>
    rw [process,Generator.process_eq]
    cases hr : g.resolve crates args with
    | error e' =>
      obtain rfl : e' = e := by simpa [meaning,hr,Except.map] using he
      rfl
    | ok request => simp [meaning,hr,Except.map] at he

/-- One batch under the declared schema is the lifted row function. -/
theorem process_refines (hb : crates.vgi.BindContract) (ht : crates.arrow.TryNewContract)
    (hr : f.meaning crates args = .ok r) {batch : RecordBatch} (hne : batch.columns ≠ [])
    (hfit : r.Fits TypedValue.size i32Max batch.values) :
    RecordBatch.values <$>
        f.process crates ⟨args,(crates.vgi.result f.returnType).outputSchema⟩ batch =
      r.lift batch.values := by
  obtain ⟨col,hcol⟩ : ∃ col, batch.columns.head? = some col :=
    ⟨_,List.head?_eq_some_head hne⟩
  rw [RecordBatch.values_eq hcol] at hfit ⊢
  cases f with
  | decode f =>
    obtain rfl : f.rowFunction crates = r := by simpa [meaning] using hr
    rw [process,DecodeBarcode.process_eq_columnLoop]
    exact columnLoop_refines hb ht hcol (fun _ => rfl) (fun _ => rfl)
      (fun i c hc => f.row_eq_cellRun crates hc) (fun c => f.onCell_rowFunction crates c)
      (fun _ => rfl) hfit
  | generate g =>
    have htype : (ScalarFunction.generate g).returnType = .binary := by cases g <;> rfl
    cases hreq : g.resolve crates args with
    | error e => simp [meaning,hreq,Except.map] at hr
    | ok request =>
      obtain rfl : request.rowFunction crates = r := by simpa [meaning,hreq,Except.map] using hr
      rw [process,Generator.process_eq,hreq,htype]
      exact columnLoop_refines hb ht hcol (fun _ => rfl) (fun _ => rfl)
        (fun i c hc => request.row_eq_cellRun crates hc)
        (fun c => request.onCell_rowFunction crates c) (fun _ => rfl) hfit

/-- A bind and its scan calls, over any batches. -/
theorem boundScan_of_meaning (hb : crates.vgi.BindContract) (ht : crates.arrow.TryNewContract)
    (hr : f.meaning crates args = .ok r) {batches : List RecordBatch}
    (hne : ∀ batch ∈ batches, batch.columns ≠ [])
    (hfit : r.ScanFits TypedValue.size i32Max (batches.map RecordBatch.values)) :
    List.flatMap RecordBatch.values <$> f.boundScan crates args batches =
      r.lift (batches.flatMap RecordBatch.values) := by
  rw [boundScan,onBind_eq,hr]
  exact RowFunction.mapM_refines (fun batch hb' => process_refines hb ht hr (hne batch hb')) hfit

end Scans
end ScalarFunction
end BarcodeWorker
