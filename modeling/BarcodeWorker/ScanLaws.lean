import BarcodeWorker.ScalarMeaning

/-!
# Laws of whole scans

A scan panics exactly when a batch that it comes to has no room in its builder, and is otherwise
the lifted row function, whatever the batches are. So it does not see where batches begin, nor
which of the physical types a value comes in, and nested calls compose as their row functions do.
-/

namespace BarcodeWorker

open Barcoding ArrowIo

/-! ## Room -/

theorem DecodeBarcode.cellRun_outcome (crates : Crates) (self : DecodeBarcode) {t : DataType}
    (cell : Option t.Native) :
    (self.cellRun crates t cell).outcome = self.cellText crates t cell := by
  let col : Column := ⟨t,[cell]⟩
  have hc : col.cells[0]? = some cell := rfl
  have hrun := congrArg Traced.outcome (self.row_eq_cellRun crates hc)
  exact hrun.symm.trans (self.row_outcome crates hc)

theorem Request.cellRun_outcome (crates : Crates) (request : Request) {t : DataType}
    (cell : Option t.Native) :
    (request.cellRun crates t cell).outcome = request.cellImage crates t cell := by
  let col : Column := ⟨t,[cell]⟩
  have hc : col.cells[0]? = some cell := rfl
  have hrun := congrArg Traced.outcome (request.row_eq_cellRun crates hc)
  exact hrun.symm.trans (request.row_outcome crates hc)

theorem DecodeBarcode.rowFunction_fits_iff (crates : Crates) (self : DecodeBarcode) (col : Column) :
    (self.rowFunction crates).Fits TypedValue.size i32Max col.values ↔ self.Fits crates col := by
  have hread : (self.rowFunction crates).Fits TypedValue.size i32Max col.values ↔
      totalSize String.utf8ByteSize (Outcome.okPrefix
        (fun c => (self.cellRun crates col.dataType c).outcome) col.cells) ≤ i32Max :=
    fits_iff_read (fun c => self.onCell_rowFunction crates c) (fun _ => rfl) i32Max
  simp only [self.cellRun_outcome crates] at hread
  exact hread

theorem Request.rowFunction_fits_iff (crates : Crates) (request : Request) (col : Column) :
    (request.rowFunction crates).Fits TypedValue.size i32Max col.values ↔
      request.Fits crates col := by
  have hread : (request.rowFunction crates).Fits TypedValue.size i32Max col.values ↔
      totalSize List.length (Outcome.okPrefix
        (fun c => (request.cellRun crates col.dataType c).outcome) col.cells) ≤ i32Max :=
    fits_iff_read (fun c => request.onCell_rowFunction crates c) (fun _ => rfl) i32Max
  simp only [request.cellRun_outcome crates] at hread
  exact hread

namespace ScalarFunction

section Laws
variable {crates : Crates} (hb : crates.vgi.BindContract) (ht : crates.arrow.TryNewContract)
  {args : Arguments} {f : ScalarFunction} {r : RowFunction Call RpcError TypedValue TypedValue}

/-- A batch panics exactly when its rows have no room. -/
theorem process_ne_panic_iff (hr : f.meaning crates args = .ok r) (schema : Schema)
    {batch : RecordBatch} (hne : batch.columns ≠ []) :
    (∀ m, (f.process crates ⟨args,schema⟩ batch).outcome ≠ .panic m) ↔
      r.Fits TypedValue.size i32Max batch.values := by
  have hcol := List.head?_eq_some_head hne
  rw [RecordBatch.values_eq hcol]
  cases f with
  | decode f =>
    obtain rfl : f.rowFunction crates = r := by simpa [meaning] using hr
    rw [f.rowFunction_fits_iff crates]
    exact f.process_ne_panic_iff crates ⟨args,schema⟩ hcol
  | generate g =>
    cases hreq : g.resolve crates args with
    | error e => simp [meaning,hreq,Except.map] at hr
    | ok request =>
      obtain rfl : request.rowFunction crates = r := by simpa [meaning,hreq,Except.map] using hr
      have hfits : g.Fits crates args (batch.columns.head hne) ↔
          request.Fits crates (batch.columns.head hne) := by
        simp [Generator.Fits,hreq]
      rw [request.rowFunction_fits_iff crates,← hfits]
      exact g.process_ne_panic_iff crates args schema hcol

include hb ht in
theorem boundScan_ne_panic_iff {batches : List RecordBatch}
    (hne : ∀ batch ∈ batches, batch.columns ≠ []) :
    (∀ m, (f.boundScan crates args batches).outcome ≠ .panic m) ↔
      ∀ r, f.meaning crates args = .ok r →
        r.ScanFits TypedValue.size i32Max (batches.map RecordBatch.values) := by
  rw [boundScan,onBind_eq]
  cases hr : f.meaning crates args with
  | error e => simp
  | ok r =>
    have hscan : (∀ m, (batches.mapM fun batch => f.process crates
        ⟨args,(crates.vgi.result f.returnType).outputSchema⟩ batch).outcome ≠ .panic m) ↔
        r.ScanFits TypedValue.size i32Max (batches.map RecordBatch.values) :=
      RowFunction.mapM_ne_panic_iff
        (fun batch hb' => process_refines hb ht hr (hne batch hb'))
        fun batch hb' => process_ne_panic_iff hr _ (hne batch hb')
    constructor
    · intro h r' hr'
      obtain rfl : r = r' := by simpa using hr'
      exact hscan.mp h
    · intro h
      exact hscan.mpr (h r rfl)

end Laws
end ScalarFunction

/-! ## Output batches -/

/-- A pass that succeeds gives one column of the declared type, with a row for each input row. -/
theorem columnLoop_ok {α : Type} {size : α → ℕ} {crates : Crates} (hb : crates.vgi.BindContract)
    (ht : crates.arrow.TryNewContract) {batch out : RecordBatch} (hne : batch.columns ≠ [])
    {row : Column → ℕ → Run RpcError (Option α)} {finish : List (Option α) → Column} {t : DataType}
    (htype : ∀ rows, (finish rows).dataType = t) (hlen : ∀ rows, (finish rows).len = rows.length)
    (hok : (columnLoop size crates (crates.vgi.result t).outputSchema batch row finish).outcome =
      .ok out) :
    ∃ col, col.dataType = t ∧ col.len = batch.numRows ∧
      out = .ofColumn (crates.vgi.result t).outputSchema col := by
  rw [columnLoop,column0_eq (List.head?_eq_some_head hne),pure_bind,Traced.outcome_bind,
    Outcome.bind_eq_ok_iff] at hok
  obtain ⟨b,hloop,hput⟩ := hok
  have hrows := rowLoop_outcome (row (batch.columns.head hne)) (List.range batch.numRows)
    (.new : OffsetBuilder α size i32Max)
  rw [hloop] at hrows
  have hcount : b.rows.length = batch.numRows := by
    split_ifs at hrows with hfit
    · have hm : (List.range batch.numRows).mapM
          (fun i => (row (batch.columns.head hne) i).outcome) = .ok b.rows := by
        simpa using hrows.symm
      simpa using Outcome.mapM_ok_length hm
    · simp at hrows
  have hnew := tryNew_declared hb ht (finish b.rows)
  rw [htype] at hnew
  rw [tryNew,hnew] at hput
  exact ⟨finish b.rows,htype _,by rw [hlen,hcount],(Outcome.ok.inj hput).symm⟩

namespace ScalarFunction

/-- The batch that a call returns for a batch. -/
structure Conforms (crates : Crates) (f : ScalarFunction) (batch out : RecordBatch) : Prop where
  schema : out.schema = (crates.vgi.result f.returnType).outputSchema
  numRows : out.numRows = batch.numRows
  column : ∃ col, out.columns = [col] ∧ col.dataType = f.returnType

theorem process_conforms {crates : Crates} (hb : crates.vgi.BindContract)
    (ht : crates.arrow.TryNewContract) {args : Arguments} {f : ScalarFunction}
    {batch out : RecordBatch} (hne : batch.columns ≠ [])
    (hok : (f.process crates ⟨args,(crates.vgi.result f.returnType).outputSchema⟩ batch).outcome =
      .ok out) : f.Conforms crates batch out := by
  have hcol : ∃ col, col.dataType = f.returnType ∧ col.len = batch.numRows ∧
      out = .ofColumn (crates.vgi.result f.returnType).outputSchema col := by
    cases f with
    | decode f =>
      rw [process,DecodeBarcode.process_eq_columnLoop] at hok
      exact columnLoop_ok hb ht hne (fun _ => rfl) (fun _ => rfl) hok
    | generate g =>
      have htype : (ScalarFunction.generate g).returnType = .binary := by cases g <;> rfl
      rw [htype] at hok ⊢
      rw [process,Generator.process_eq,Traced.outcome_bind,Outcome.bind_eq_ok_iff] at hok
      obtain ⟨request,-,hloop⟩ := hok
      exact columnLoop_ok hb ht hne (fun _ => rfl) (fun _ => rfl) hloop
  obtain ⟨col,htype,hlen,rfl⟩ := hcol
  exact ⟨rfl,hlen,col,rfl,htype⟩

end ScalarFunction

/-! ## Scans -/

namespace ScalarFunction

section Scans
variable {crates : Crates} {args : Arguments} {f : ScalarFunction} {batches : List RecordBatch}

/-- A scan that succeeds runs every batch under the declared schema. -/
theorem mapM_process {outs : List RecordBatch}
    (hok : (f.boundScan crates args batches).outcome = .ok outs) :
    batches.mapM (fun batch => (f.process crates
      ⟨args,(crates.vgi.result f.returnType).outputSchema⟩ batch).outcome) = .ok outs := by
  rw [boundScan,onBind_eq] at hok
  cases hr : f.meaning crates args with
  | error e => simp [hr] at hok
  | ok r =>
    rw [hr] at hok
    rw [← Traced.outcome_mapM]
    exact hok

variable (hb : crates.vgi.BindContract) (ht : crates.arrow.TryNewContract)
  (hne : ∀ batch ∈ batches, batch.columns ≠ [])

include hb ht hne

/-- Every batch of a successful scan conforms to a batch of its input. -/
theorem boundScan_conforms {outs : List RecordBatch}
    (hok : (f.boundScan crates args batches).outcome = .ok outs) :
    List.Forall₂ (f.Conforms crates) batches outs := by
  have hm := (Outcome.mapM_eq_ok_iff _ _ _).mp (mapM_process hok)
  have hboth := (List.forall₂_and_left _ _).mpr ⟨hne,hm⟩
  exact hboth.imp fun batch out h => process_conforms hb ht h.1 h.2

theorem boundScan_columns_ne {outs : List RecordBatch}
    (hok : (f.boundScan crates args batches).outcome = .ok outs) :
    ∀ out ∈ outs, out.columns ≠ [] := by
  intro out hmem
  obtain ⟨batch,hbatch,hout⟩ := Outcome.mapM_ok_mem (mapM_process hok) hmem
  obtain ⟨col,hcols,-⟩ := (process_conforms hb ht (hne batch hbatch) hout).column
  simp [hcols]

/-- A scan that succeeds is the lifted row function. -/
theorem boundScan_eq_ok {outs : List RecordBatch}
    (hok : (f.boundScan crates args batches).outcome = .ok outs) :
    ∃ r, f.meaning crates args = .ok r ∧
      (r.lift (batches.flatMap RecordBatch.values)).outcome =
        .ok (outs.flatMap RecordBatch.values) := by
  have hpanic : ∀ m, (f.boundScan crates args batches).outcome ≠ .panic m := by simp [hok]
  have hfits := (boundScan_ne_panic_iff hb ht hne).mp hpanic
  cases hr : f.meaning crates args with
  | error e =>
    rw [boundScan,onBind_eq,hr] at hok
    simp at hok
  | ok r =>
    refine ⟨r,rfl,?_⟩
    rw [← boundScan_of_meaning hb ht hr hne (hfits r hr),Traced.outcome_map,hok]
    rfl

/-- A column on which the row function succeeds scans to its rows, in any batches, if these have
room as a whole. -/
theorem boundScan_of_lift {r : RowFunction Call RpcError TypedValue TypedValue}
    (hr : f.meaning crates args = .ok r) {rows : List (Option TypedValue)}
    (hlift : (r.lift (batches.flatMap RecordBatch.values)).outcome = .ok rows)
    (hfit : totalSize TypedValue.size rows ≤ i32Max) :
    ∃ outs, (f.boundScan crates args batches).outcome = .ok outs ∧
      outs.flatMap RecordBatch.values = rows := by
  have hroom := (RowFunction.fits_iff_of_lift hlift).mpr hfit
  have hscan := boundScan_of_meaning hb ht hr hne
    (RowFunction.scanFits_of_fits (by rw [← List.flatMap_def]; exact hroom))
  exact (RowFunction.computes_of_eq hscan rows).mpr hlift

end Scans
end ScalarFunction

/-- Values that the function reads alike, in whatever type they come. -/
def ScalarFunction.Alike : ScalarFunction → TypedValue → TypedValue → Prop
  | .decode _, v, w => v.blob = w.blob
  | .generate _, v, w => v.text = w.text

theorem ScalarFunction.meaning_alike {crates : Crates} {args : Arguments} {f : ScalarFunction}
    {r : RowFunction Call RpcError TypedValue TypedValue} (hr : f.meaning crates args = .ok r)
    {c c' : Option TypedValue} (h : Option.Rel f.Alike c c') : r.onCell c = r.onCell c' := by
  cases h with
  | none => rfl
  | @some v w hvw =>
    cases f with
    | decode f =>
      obtain rfl : f.rowFunction crates = r := by simpa [meaning] using hr
      have hblob : blobCell v.dataType (some v.value) = blobCell w.dataType (some w.value) := hvw
      simp only [RowFunction.onCell_some,DecodeBarcode.rowFunction,DecodeBarcode.cellRun,hblob]
    | generate g =>
      cases hreq : g.resolve crates args with
      | error e => simp [meaning,hreq,Except.map] at hr
      | ok request =>
        obtain rfl : request.rowFunction crates = r := by simpa [meaning,hreq,Except.map] using hr
        have htext : textCell v.dataType (some v.value) = textCell w.dataType (some w.value) := hvw
        simp only [RowFunction.onCell_some,Request.rowFunction,Request.cellRun,htext]

/-- Two inputs with the same values, cut into batches in any two ways and in any physical types
that are read alike, scan to the same rows, the same error and the same calls. -/
theorem boundScan_cutting (crates : Crates) (hb : crates.vgi.BindContract)
    (ht : crates.arrow.TryNewContract) (f : ScalarFunction) (args : Arguments)
    (batches batches' : List RecordBatch) (hne : ∀ batch ∈ batches, batch.columns ≠ [])
    (hne' : ∀ batch ∈ batches', batch.columns ≠ [])
    (halike : List.Forall₂ (Option.Rel f.Alike) (batches.flatMap RecordBatch.values)
      (batches'.flatMap RecordBatch.values))
    (hfit : ∀ r, f.meaning crates args = .ok r →
      r.Fits TypedValue.size i32Max (batches.flatMap RecordBatch.values)) :
    List.flatMap RecordBatch.values <$> f.boundScan crates args batches =
      List.flatMap RecordBatch.values <$> f.boundScan crates args batches' := by
  cases hr : f.meaning crates args with
  | error e =>
    rw [ScalarFunction.boundScan,ScalarFunction.boundScan,ScalarFunction.onBind_eq,hr]
    rfl
  | ok r =>
    have hcells := halike.imp fun c c' h => ScalarFunction.meaning_alike hr h
    have hfit' := (RowFunction.fits_congr hcells TypedValue.size i32Max).mp (hfit r hr)
    have hscan := ScalarFunction.boundScan_of_meaning hb ht hr hne
      (RowFunction.scanFits_of_fits (by rw [← List.flatMap_def]; exact hfit r hr))
    have hscan' := ScalarFunction.boundScan_of_meaning hb ht hr hne'
      (RowFunction.scanFits_of_fits (by rw [← List.flatMap_def]; exact hfit'))
    rw [hscan,hscan',RowFunction.lift_congr hcells]

/-- A text and an image in one batch of large blobs, or in two of blobs. -/
theorem boundScan_cutting_large : List.flatMap RecordBatch.values <$>
    (ScalarFunction.decode .text).boundScan (Reference.crates Reference.hello) ⟨[]⟩
      [.ofColumn [] ⟨.largeBinary,[some [0],some Reference.onePixel]⟩] =
    List.flatMap RecordBatch.values <$>
      (ScalarFunction.decode .text).boundScan (Reference.crates Reference.hello) ⟨[]⟩
        [.ofColumn [] (.binary [some [0]]),.ofColumn [] (.binary [some Reference.onePixel])] := by
  refine boundScan_cutting (Reference.crates Reference.hello) Reference.vgi_bind
    Reference.arrow_tryNew (.decode .text) ⟨[]⟩ _ _ (by simp [RecordBatch.ofColumn])
    (by simp [RecordBatch.ofColumn]) (.cons (.some rfl) (.cons (.some rfl) .nil)) fun r hr => ?_
  obtain rfl : DecodeBarcode.text.rowFunction (Reference.crates Reference.hello) = r := by
    simpa [ScalarFunction.meaning] using hr
  unfold RowFunction.Fits
  decide

end BarcodeWorker
