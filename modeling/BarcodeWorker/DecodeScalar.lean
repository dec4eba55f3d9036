import BarcodeWorker.ColumnLoop

/-!
# Row isolation of `decode_barcode` and `barcode_format`

An output row is a function of its own cell, `cellRow`: the run lemma of the column loop makes
`process` the map of that function over the column. Concatenation of batches and change of one
cell are then facts about maps.
-/

namespace BarcodeWorker

open Barcoding ArrowIo

/-! ## Blob cells -/

/-- The bytes of a blob cell; its type says that it has some. -/
theorem blobCell_eq_ok {t : DataType} (ht : t.isBlob) (cell : Option t.Native) :
    ∃ bytes, blobCell t cell = .ok bytes ∧ (bytes = none ↔ cell = none) := by
  cases cell with
  | none => exact ⟨none,by cases t <;> rfl,by simp⟩
  | some v =>
    cases t with
    | binary => exact ⟨some v,rfl,by simp⟩
    | largeBinary => exact ⟨some v,rfl,by simp⟩
    | utf8 => exact ⟨_,rfl,by simp⟩
    | largeUtf8 => exact ⟨_,rfl,by simp⟩
    | int64 => simp [DataType.isBlob] at ht
    | other name => simp [DataType.isBlob] at ht

theorem decodeFirst_returns (crates : Crates) (bytes : Bytes) :
    ∃ r, (decodeFirst crates bytes).outcome = .ofExcept r := by
  obtain ⟨r,hr⟩ := decodeLuma_returns crates.image bytes
  cases r with
  | error e => exact ⟨.error e,by rw [decodeFirst_of_error crates hr]; rfl⟩
  | ok d =>
    exact ⟨.ok (firstOf (crates.rxing.detectInLuma d.1 d.2.1 d.2.2)),
      by rw [decodeFirst_of_ok crates hr]; rfl⟩

namespace DecodeBarcode

/-- The field of the first barcode that the function projects. -/
def project (self : DecodeBarcode) (d : Decoded) : String :=
  match self.field with
  | .text => d.text
  | .format => d.format

/-- The row of a turn of the loop, before it is appended. -/
def row (crates : Crates) (self : DecodeBarcode) (col : Column) (i : ℕ) :
    Run RpcError (Option String) := do
  match ← blobBytes col i with
  | none => pure none
  | some bytes =>
    match ← (decodeFirst crates bytes).attempt with
    | .ok (some d) => pure (some (self.project d))
    | .ok none => pure none
    | .error _ => pure none

/-- The row that a blob alone comes to. -/
def blobRow (crates : Crates) (self : DecodeBarcode) (bytes : Bytes) : Option String :=
  match (decodeFirst crates bytes).outcome with
  | .ok (some d) => some (self.project d)
  | _ => none

/-- The row that a cell alone comes to. -/
def cellRow (crates : Crates) (self : DecodeBarcode) (t : DataType) (cell : Option t.Native) :
    Option String :=
  match blobCell t cell with
  | .ok (some bytes) => self.blobRow crates bytes
  | _ => none

/-- The row of a cell, or the error of a cell of another type. -/
def cellText (crates : Crates) (self : DecodeBarcode) (t : DataType) (cell : Option t.Native) :
    Outcome RpcError (Option String) :=
  (fun _ => self.cellRow crates t cell) <$> Outcome.ofExcept (blobCell t cell)

section Loop
variable (crates : Crates) (self : DecodeBarcode)

/-- Every branch of a turn appends exactly one row. -/
theorem step_eq_rowStep (col : Column) : self.step crates col = rowStep (self.row crates col) := by
  funext out i
  simp only [step,rowStep,row,bind_assoc]
  congr 1
  funext bytes
  cases bytes with
  | none => simp
  | some bytes =>
    simp only [bind_assoc]
    congr 1
    funext first
    cases first with
    | error e => simp
    | ok found =>
      cases found with
      | none => simp
      | some d => cases hf : self.field <;> simp [project,hf,OffsetBuilder.append]

theorem process_eq_columnLoop (params : ProcessParams) (batch : RecordBatch) :
    self.process crates params batch =
      columnLoop String.utf8ByteSize crates params.outputSchema batch (self.row crates) .utf8 := by
  simp only [process,columnLoop,step_eq_rowStep,rowLoop]
  rfl

theorem row_outcome {col : Column} {i : ℕ} {cell : Option col.dataType.Native}
    (hc : col.cells[i]? = some cell) :
    (self.row crates col i).outcome = self.cellText crates col.dataType cell := by
  simp only [row,cellText,blobBytes,hc,Traced.outcome_bind,Traced.outcome_ofExcept,cellRow]
  cases hb : blobCell col.dataType cell with
  | error e => rfl
  | ok bytes =>
    cases bytes with
    | none => rfl
    | some bytes =>
      obtain ⟨r,hr⟩ := decodeFirst_returns crates bytes
      simp only [blobRow,Outcome.ofExcept_ok,Outcome.ok_bind,Traced.outcome_bind,
        Traced.outcome_attempt,hr,Outcome.map_ok]
      cases r with
      | error e => rfl
      | ok found => cases found <;> rfl

theorem row_end {col : Column} {i : ℕ} (hc : col.cells[i]? = none) :
    (self.row crates col i).outcome = .panic indexOutOfBounds := by
  simp [row,blobBytes,hc]

/-- What `process` returns depends on the cells of column 0 alone. -/
theorem process_outcome (params : ProcessParams) {batch : RecordBatch} {col : Column}
    (hcol : batch.columns.head? = some col) :
    (self.process crates params batch).outcome =
      collectRows String.utf8ByteSize (self.cellText crates col.dataType) col.cells >>= fun rows =>
        .ofExcept ((crates.arrow.tryNew params.outputSchema [.utf8 rows]).mapError
          .runtimeError) := by
  rw [process_eq_columnLoop]
  exact columnLoop_outcome crates params.outputSchema hcol (self.row crates) .utf8 _
    (fun i cell hc => self.row_outcome crates hc) fun i hc => self.row_end crates hc

end Loop

/-! ## The rows of a batch -/

/-- Decoding of a blob finds no barcode: it is no image, or the detector answers an exception. -/
def NotDecoded (crates : Crates) (bytes : Bytes) : Prop :=
  (∃ e, (decodeLuma crates.image bytes).outcome = .error e) ∨
    ∃ luma w h e, (decodeLuma crates.image bytes).outcome = .ok (luma,w,h) ∧
      crates.rxing.detectInLuma luma w h = .error e

/-- The detector answers `r` on a blob. -/
def Detects (crates : Crates) (bytes : Bytes) (r : RXingResult) : Prop :=
  ∃ luma w h, (decodeLuma crates.image bytes).outcome = .ok (luma,w,h) ∧
    crates.rxing.detectInLuma luma w h = .ok r

theorem blobRow_cases (crates : Crates) (bytes : Bytes) :
    (NotDecoded crates bytes ∧ ∀ self : DecodeBarcode, self.blobRow crates bytes = none) ∨
      ∃ r, Detects crates bytes r ∧
        ∀ self : DecodeBarcode, self.blobRow crates bytes = some (self.project (toDecoded r)) := by
  obtain ⟨d,hd⟩ := decodeLuma_returns crates.image bytes
  cases d with
  | error e => exact .inl ⟨.inl ⟨e,hd⟩,fun self => by simp [blobRow,decodeFirst_of_error crates hd]⟩
  | ok d =>
    obtain ⟨luma,w,h⟩ := d
    cases hr : crates.rxing.detectInLuma luma w h with
    | error e =>
      refine .inl ⟨.inr ⟨luma,w,h,e,hd,hr⟩,fun self => ?_⟩
      simp [blobRow,decodeFirst_of_ok crates hd,hr,firstOf]
    | ok r =>
      refine .inr ⟨r,⟨luma,w,h,hd,hr⟩,fun self => ?_⟩
      simp [blobRow,decodeFirst_of_ok crates hd,hr,firstOf]

theorem Detects.not_notDecoded {crates : Crates} {bytes : Bytes} {r : RXingResult}
    (hr : Detects crates bytes r) : ¬ NotDecoded crates bytes := by
  obtain ⟨luma,w,h,hd,hr⟩ := hr
  rintro (⟨e,he⟩ | ⟨luma',w',h',e,hd',he⟩)
  · simp [hd] at he
  · have hsame := hd.symm.trans hd'
    simp only [Outcome.ok.injEq,Prod.mk.injEq] at hsame
    obtain ⟨rfl,rfl,rfl⟩ := hsame
    simp [hr] at he

/-- The law of one row: null for a null cell, an undecodable blob or an exception of the detector,
and otherwise the field of what the detector returned for that cell. -/
structure RowLaw (crates : Crates) (decoder : DecodeBarcode) (t : DataType) (cell : Option t.Native)
    (row : Option String) : Prop where
  null_iff : row = none ↔
    cell = none ∨ ∃ bytes, blobCell t cell = .ok (some bytes) ∧ NotDecoded crates bytes
  value_iff : ∀ s, row = some s ↔ ∃ bytes r, blobCell t cell = .ok (some bytes) ∧
    Detects crates bytes r ∧ s = match decoder.field with
      | .text => r.text
      | .format => formatName r.barcodeFormat

theorem project_toDecoded (self : DecodeBarcode) (r : RXingResult) :
    self.project (toDecoded r) = match self.field with
      | .text => r.text
      | .format => formatName r.barcodeFormat := by
  cases hf : self.field <;> simp [project,toDecoded,hf]

theorem Detects.unique {crates : Crates} {bytes : Bytes} {r r' : RXingResult}
    (hr : Detects crates bytes r) (hr' : Detects crates bytes r') : r = r' := by
  obtain ⟨luma,w,h,hd,hr⟩ := hr
  obtain ⟨luma',w',h',hd',hr'⟩ := hr'
  have hsame := hd.symm.trans hd'
  simp only [Outcome.ok.injEq,Prod.mk.injEq] at hsame
  obtain ⟨rfl,rfl,rfl⟩ := hsame
  exact Except.ok.inj (hr.symm.trans hr')

theorem cellRow_law (crates : Crates) (self : DecodeBarcode) {t : DataType} (ht : t.isBlob)
    (cell : Option t.Native) : RowLaw crates self t cell (self.cellRow crates t cell) := by
  obtain ⟨bytes,hb,hnone⟩ := blobCell_eq_ok ht cell
  cases bytes with
  | none =>
    have hcell : cell = none := hnone.mp rfl
    have hrow : self.cellRow crates t cell = none := by simp [cellRow,hb]
    rw [hrow]
    exact ⟨by simp [hcell],by simp [hb]⟩
  | some bytes =>
    have hcell : cell ≠ none := fun h => by simpa using hnone.mpr h
    have hrow : self.cellRow crates t cell = self.blobRow crates bytes := by simp [cellRow,hb]
    rw [hrow]
    obtain ⟨hn,he⟩ | ⟨r,hr,he⟩ := blobRow_cases crates bytes
    · refine ⟨by simp [he,hb,hn],fun s => ?_⟩
      simp only [he,hb,reduceCtorEq,Except.ok.injEq,Option.some.injEq,false_iff,not_exists,not_and]
      rintro bytes' r rfl hr
      exact absurd hn hr.not_notDecoded
    · refine ⟨?_,fun s => ?_⟩
      · simp [he,hb,hcell,hr.not_notDecoded]
      · rw [he,project_toDecoded]
        simp only [hb,Except.ok.injEq,Option.some.injEq]
        constructor
        · rintro rfl
          exact ⟨bytes,r,rfl,hr,rfl⟩
        · rintro ⟨bytes',r',rfl,hr',rfl⟩
          rw [hr.unique hr']

/-! ## Batches -/

/-- The texts of the rows before the first failing one fit the builder. -/
def Fits (crates : Crates) (self : DecodeBarcode) (col : Column) : Prop :=
  totalSize String.utf8ByteSize
    (Outcome.okPrefix (self.cellText crates col.dataType) col.cells) ≤ i32Max

/-- A blob column has no failing row. -/
theorem mapM_cellText (crates : Crates) (self : DecodeBarcode) {t : DataType} (ht : t.isBlob)
    (cells : List (Option t.Native)) :
    cells.mapM (self.cellText crates t) = .ok (cells.map (self.cellRow crates t)) := by
  apply Outcome.mapM_eq_ok_map
  intro cell _
  obtain ⟨bytes,he,-⟩ := blobCell_eq_ok ht cell
  rw [cellText,he]
  rfl

theorem fits_iff (crates : Crates) (self : DecodeBarcode) {t : DataType} (ht : t.isBlob)
    (cells : List (Option t.Native)) : self.Fits crates ⟨t,cells⟩ ↔
      totalSize String.utf8ByteSize (cells.map (self.cellRow crates t)) ≤ i32Max := by
  rw [Fits,Outcome.okPrefix_eq_of_mapM (self.mapM_cellText crates ht cells)]

/-- A run with the output schema that `on_bind` declared. -/
def boundProcess (crates : Crates) (self : DecodeBarcode) (args : Arguments) (batch : RecordBatch) :
    Run RpcError RecordBatch := do
  let response ← onBind crates ⟨args⟩
  self.process crates ⟨args,response.outputSchema⟩ batch

/-- The batch of the output column under the declared schema. -/
def outputBatch (crates : Crates) (rows : List (Option String)) : RecordBatch :=
  .ofColumn (crates.vgi.result .utf8).outputSchema (.utf8 rows)

section Batches
variable {crates : Crates} (hb : crates.vgi.BindContract) (ht : crates.arrow.TryNewContract)
  (self : DecodeBarcode) (args : Arguments)

include hb ht in
theorem boundProcess_map {batch : RecordBatch} {col : Column}
    (hcol : batch.columns.head? = some col) (hblob : col.dataType.isBlob)
    (hfit : self.Fits crates col) : (self.boundProcess crates args batch).outcome =
      .ok (outputBatch crates (col.cells.map (self.cellRow crates col.dataType))) := by
  have hrows := self.mapM_cellText crates hblob col.cells
  have hnew := tryNew_declared hb ht (.utf8 (col.cells.map (self.cellRow crates col.dataType)))
  rw [boundProcess,onBind,pure_bind,process_outcome crates self _ hcol,collectRows_fits hfit,hrows,
    Outcome.ok_bind]
  simp only [Column.utf8] at hnew ⊢
  rw [hnew]
  rfl

theorem fits_append {t : DataType} (htype : t.isBlob) {cells cells' : List (Option t.Native)}
    (h : self.Fits crates ⟨t,cells++cells'⟩) :
    self.Fits crates ⟨t,cells⟩ ∧ self.Fits crates ⟨t,cells'⟩ := by
  rw [fits_iff crates self htype] at h
  have hsum : totalSize String.utf8ByteSize (cells.map (self.cellRow crates t)) +
      totalSize String.utf8ByteSize (cells'.map (self.cellRow crates t)) ≤ i32Max := by
    simpa using h
  constructor
  · rw [fits_iff crates self htype]
    exact le_trans (Nat.le_add_right _ _) hsum
  · rw [fits_iff crates self htype]
    exact le_trans (Nat.le_add_left _ _) hsum

/-- Text and format of a cell are null together. -/
theorem cellRow_none_iff (self self' : DecodeBarcode) {t : DataType} (htype : t.isBlob)
    (cell : Option t.Native) :
    self.cellRow crates t cell = none ↔ self'.cellRow crates t cell = none := by
  rw [(cellRow_law crates self htype cell).null_iff,(cellRow_law crates self' htype cell).null_iff]

end Batches

/-- Untrusted decoding is isolated by row: over any batch of blobs, any two batches put one after
the other, any change of one cell, and for the two functions beside each other. -/
structure RowIsolation (crates : Crates) (args : Arguments) : Prop where
  rows : ∀ (self : DecodeBarcode) (batch : RecordBatch) (col : Column),
    batch.columns.head? = some col → col.dataType.isBlob → self.Fits crates col →
    ∃ rows, (self.boundProcess crates args batch).outcome = .ok (outputBatch crates rows) ∧
      rows.length = batch.numRows ∧ ∀ (i : ℕ) cell, col.cells[i]? = some cell →
        ∃ row, rows[i]? = some row ∧ RowLaw crates self col.dataType cell row
  append : ∀ (self : DecodeBarcode) (t : DataType) (cells₁ cells₂ : List (Option t.Native))
    (b₁ b₂ b : RecordBatch), b₁.columns.head? = some ⟨t,cells₁⟩ →
    b₂.columns.head? = some ⟨t,cells₂⟩ → b.columns.head? = some ⟨t,cells₁++cells₂⟩ →
    t.isBlob → self.Fits crates ⟨t,cells₁++cells₂⟩ →
    ∃ rows₁ rows₂, (self.boundProcess crates args b₁).outcome = .ok (outputBatch crates rows₁) ∧
      (self.boundProcess crates args b₂).outcome = .ok (outputBatch crates rows₂) ∧
      (self.boundProcess crates args b).outcome = .ok (outputBatch crates (rows₁++rows₂))
  change : ∀ (self : DecodeBarcode) (t : DataType) (cells : List (Option t.Native)) (i : ℕ)
    (cell : Option t.Native) (b b' : RecordBatch), b.columns.head? = some ⟨t,cells⟩ →
    b'.columns.head? = some ⟨t,cells.set i cell⟩ → t.isBlob → self.Fits crates ⟨t,cells⟩ →
    self.Fits crates ⟨t,cells.set i cell⟩ →
    ∃ rows rows', (self.boundProcess crates args b).outcome = .ok (outputBatch crates rows) ∧
      (self.boundProcess crates args b').outcome = .ok (outputBatch crates rows') ∧
      ∀ j : ℕ, j ≠ i → rows'[j]? = rows[j]?
  sameNulls : ∀ (batch : RecordBatch) (col : Column), batch.columns.head? = some col →
    col.dataType.isBlob → text.Fits crates col → format.Fits crates col →
    ∃ texts formats, (text.boundProcess crates args batch).outcome =
        .ok (outputBatch crates texts) ∧
      (format.boundProcess crates args batch).outcome = .ok (outputBatch crates formats) ∧
      ∀ i : ℕ, texts[i]? = some none ↔ formats[i]? = some none

theorem decode_rowIsolation (crates : Crates) (hb : crates.vgi.BindContract)
    (ht : crates.arrow.TryNewContract) (args : Arguments) : RowIsolation crates args where
  rows := by
    intro self batch col hcol hblob hfit
    refine ⟨_,boundProcess_map hb ht self args hcol hblob hfit,?_,fun i cell hc => ?_⟩
    · rw [List.length_map,RecordBatch.length_cells hcol]
    · have hlaw := cellRow_law crates self hblob cell
      exact ⟨_,by rw [List.getElem?_map,hc]; rfl,hlaw⟩
  append := by
    intro self t cells₁ cells₂ b₁ b₂ b h₁ h₂ h hblob hfit
    obtain ⟨hfit₁,hfit₂⟩ := self.fits_append hblob hfit
    have hall := boundProcess_map hb ht self args h hblob hfit
    rw [List.map_append] at hall
    exact ⟨_,_,boundProcess_map hb ht self args h₁ hblob hfit₁,
      boundProcess_map hb ht self args h₂ hblob hfit₂,hall⟩
  change := by
    intro self t cells i cell b b' h h' hblob hfit hfit'
    refine ⟨_,_,boundProcess_map hb ht self args h hblob hfit,
      boundProcess_map hb ht self args h' hblob hfit',fun j hj => ?_⟩
    rw [List.getElem?_map,List.getElem?_map,List.getElem?_set_ne hj.symm]
  sameNulls := by
    intro batch col hcol hblob hfit hfit'
    refine ⟨_,_,boundProcess_map hb ht text args hcol hblob hfit,
      boundProcess_map hb ht format args hcol hblob hfit',fun i => ?_⟩
    rw [List.getElem?_map,List.getElem?_map]
    cases hc : col.cells[i]? with
    | none => simp
    | some cell => simpa using cellRow_none_iff text format hblob cell

/-- A null cell, a blob that is no image and an image of one pixel. -/
def mixedCells : List (Option Bytes) :=
  [none,some [0],some Reference.onePixel]

theorem decode_rowIsolation_mixed : ∃ rows,
    (text.boundProcess (Reference.crates Reference.hello) ⟨[]⟩
      (.ofColumn [] (.binary mixedCells))).outcome =
        .ok (outputBatch (Reference.crates Reference.hello) rows) ∧
    rows.length = 3 ∧ ∀ (i : ℕ) cell, mixedCells[i]? = some cell → ∃ row, rows[i]? = some row ∧
      RowLaw (Reference.crates Reference.hello) text .binary cell row :=
  (decode_rowIsolation (Reference.crates Reference.hello) Reference.vgi_bind
    Reference.arrow_tryNew ⟨[]⟩).rows text (.ofColumn [] (.binary mixedCells))
    (.binary mixedCells) rfl rfl (by unfold Fits; decide)

end DecodeBarcode
end BarcodeWorker
