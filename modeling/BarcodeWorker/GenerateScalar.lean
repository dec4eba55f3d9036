import BarcodeWorker.ColumnLoop

/-!
# The generators

Bind and scan resolve the arguments to one request: a format and the dimensions asked of the
encoder. `onBind_eq` and `process_eq` say that both go through the same resolution, and that a
scan then maps `cellImage` over column 0. The batch law follows from the traversal of the cells.
-/

namespace BarcodeWorker

open Barcoding ArrowIo

/-! ## Requests -/

/-- What an overload asks of the encoder for each text of a batch. -/
structure Request where
  format : BarcodeFormat
  width : UInt32
  height : UInt32

namespace Request

def ofSize (format : BarcodeFormat) (px : UInt32) : Request :=
  ⟨format,(requestedSize format px).1,(requestedSize format px).2⟩

section Rows
variable (crates : Crates) (request : Request)

/-- One image of the request. -/
def image (text : String) : Run BarcodeError Bytes :=
  generate crates text request.format request.width request.height

/-- The row of a turn of the loop, before it is appended. -/
def row (col : Column) (i : ℕ) : Run RpcError (Option Bytes) := do
  match ← textStr col i with
  | none => pure none
  | some text => some <$> (request.image crates text).mapErr ve

/-- The row that a cell alone comes to. -/
def cellImage (t : DataType) (cell : Option t.Native) : Outcome RpcError (Option Bytes) :=
  match textCell t cell with
  | .error e => .error e
  | .ok none => .ok none
  | .ok (some text) => some <$> (request.image crates text).outcome.mapErr ve

theorem row_outcome {col : Column} {i : ℕ} {cell : Option col.dataType.Native}
    (hc : col.cells[i]? = some cell) :
    (request.row crates col i).outcome = request.cellImage crates col.dataType cell := by
  simp only [row,textStr,hc,cellImage]
  cases textCell col.dataType cell with
  | error e => rfl
  | ok text =>
    cases text with
    | none => rfl
    | some text => simp

theorem row_end {col : Column} {i : ℕ} (hc : col.cells[i]? = none) :
    (request.row crates col i).outcome = .panic indexOutOfBounds := by
  simp [row,textStr,hc]

end Rows
end Request

namespace Generator

/-- Whether the overload takes a size. -/
def withSize : Generator → Bool
  | .qr f => f.withSize
  | .barcode f => f.withSize

/-- The position of the size argument. -/
def sizePos : Generator → ℕ
  | .qr _ => 1
  | .barcode _ => 2

def formatOf (crates : Crates) (args : Arguments) : Generator → Except RpcError BarcodeFormat
  | .qr _ => .ok .qrCode
  | .barcode _ => GenerateBarcode.formatArg crates args

def sizeOf (crates : Crates) (args : Arguments) (g : Generator) : Except RpcError UInt32 :=
  if g.withSize then sizePx crates args g.sizePos else .ok defaultGeneratePx

/-- Resolution of the arguments, the format before the size. -/
def resolve (crates : Crates) (args : Arguments) (g : Generator) : Except RpcError Request := do
  let format ← g.formatOf crates args
  let px ← g.sizeOf crates args
  return .ofSize format px

section Equations
variable (crates : Crates) (g : Generator)

theorem onBind_eq (args : Arguments) : g.onBind crates ⟨args⟩ =
    Traced.ofExcept (g.resolve crates args) >>= fun _ => pure (crates.vgi.result .binary) := by
  cases g with
  | qr f =>
    cases hs : f.withSize with
    | false => simp [onBind,GenerateQr.onBind,resolve,formatOf,sizeOf,withSize,hs]; rfl
    | true =>
      simp only [onBind,GenerateQr.onBind,resolve,formatOf,sizeOf,withSize,sizePos,hs,if_true]
      cases sizePx crates args 1 <;> rfl
  | barcode f =>
    cases hs : f.withSize with
    | false =>
      simp only [onBind,GenerateBarcode.onBind,resolve,formatOf,sizeOf,withSize,hs]
      cases GenerateBarcode.formatArg crates args <;> rfl
    | true =>
      simp only [onBind,GenerateBarcode.onBind,resolve,formatOf,sizeOf,withSize,sizePos,hs,if_true]
      cases GenerateBarcode.formatArg crates args with
      | error e => rfl
      | ok format => cases sizePx crates args 2 <;> rfl

theorem step_barcode (format : BarcodeFormat) (px : UInt32) (col : Column) :
    GenerateBarcode.step crates format px col =
      rowStep ((Request.ofSize format px).row crates col) := by
  funext out i
  simp only [GenerateBarcode.step,rowStep,Request.row,bind_assoc]
  congr 1
  funext text
  cases text with
  | none => simp
  | some text =>
    simp only [bind_map_left]
    rfl

theorem step_qr (px : UInt32) (col : Column) :
    GenerateQr.step crates px col = rowStep ((Request.ofSize .qrCode px).row crates col) := by
  rw [← step_barcode]
  rfl

/-- The part of a scan after the resolution. -/
theorem process_request (schema : Schema) (batch : RecordBatch)
    (step : Column → BinaryBuilder → ℕ → Run RpcError BinaryBuilder) (request : Request)
    (hstep : ∀ col, step col = rowStep (request.row crates col)) :
    (do
      let col ← column0 batch
      let out ← (List.range batch.numRows).foldlM (step col) OffsetBuilder.new
      tryNew crates schema [BinaryBuilder.finish out]) =
        columnLoop List.length crates schema batch (request.row crates) .binary := by
  simp only [hstep,columnLoop,rowLoop]
  rfl

theorem process_eq (params : ProcessParams) (batch : RecordBatch) :
    g.process crates params batch =
      Traced.ofExcept (g.resolve crates params.arguments) >>= fun request =>
        columnLoop List.length crates params.outputSchema batch (request.row crates) .binary := by
  have hqr := fun px => process_request crates params.outputSchema batch _ _ (step_qr crates px)
  have hbar := fun format px =>
    process_request crates params.outputSchema batch _ _ (step_barcode crates format px)
  cases g with
  | qr f =>
    cases hs : f.withSize with
    | false =>
      simp only [process,GenerateQr.process,resolve,formatOf,sizeOf,withSize,hs,hqr]
      rfl
    | true =>
      simp only [process,GenerateQr.process,resolve,formatOf,sizeOf,withSize,sizePos,hs,if_true,hqr]
      cases sizePx crates params.arguments 1 <;> rfl
  | barcode f =>
    cases hs : f.withSize with
    | false =>
      simp only [process,GenerateBarcode.process,resolve,formatOf,sizeOf,withSize,hs,hbar]
      cases GenerateBarcode.formatArg crates params.arguments <;> rfl
    | true =>
      simp only [process,GenerateBarcode.process,resolve,formatOf,sizeOf,withSize,sizePos,hs,
        if_true,hbar]
      cases GenerateBarcode.formatArg crates params.arguments with
      | error e => rfl
      | ok format => cases sizePx crates params.arguments 2 <;> rfl

theorem onBind_eq_ok_iff (args : Arguments) (response : BindResponse) :
    (g.onBind crates ⟨args⟩).outcome = .ok response ↔
      (∃ request, g.resolve crates args = .ok request) ∧ response = crates.vgi.result .binary := by
  rw [onBind_eq]
  cases g.resolve crates args <;> simp [eq_comm]

theorem onBind_eq_error_iff (args : Arguments) (e : RpcError) :
    (g.onBind crates ⟨args⟩).outcome = .error e ↔ g.resolve crates args = .error e := by
  rw [onBind_eq]
  cases g.resolve crates args <;> simp

end Equations
end Generator

/-! ## Cells -/

namespace Request

section Cells
variable {crates : Crates} {request : Request} {t : DataType}

/-- A string cell whose text the request turns into a PNG. -/
def Accepts (crates : Crates) (request : Request) (t : DataType) (cell : Option t.Native) : Prop :=
  t.isText ∧ ∃ text m png, textCell t cell = .ok (some text) ∧
    Draws crates text request.format request.width request.height m ∧
    writePng crates.image (render m) = .ok png

/-- The error of a cell that is no string, or whose text the request does not turn into a PNG. -/
def Refuses (crates : Crates) (request : Request) (t : DataType) (cell : Option t.Native)
    (e : RpcError) : Prop :=
  textCell t cell = .error e ∨ ∃ text b, textCell t cell = .ok (some text) ∧
    (generate crates text request.format request.width request.height).outcome = .error b ∧ e = ve b

theorem textCell_isText {cell : Option t.Native} {text : String}
    (h : textCell t cell = .ok (some text)) : t.isText := by
  cases t <;> cases cell <;> first | rfl | cases h

theorem textCell_none : textCell t none = .ok none := by cases t <;> rfl

theorem textCell_some_ne (v : t.Native) : textCell t (some v) ≠ .ok none := by
  cases t <;> simp [textCell]

variable (crates request) in
/-- A cell comes to a null row, to an image, or to an error. -/
theorem cellImage_cases (cell : Option t.Native) :
    (cell = none ∧ request.cellImage crates t cell = .ok none) ∨
      (cell ≠ none ∧ ∃ text png, textCell t cell = .ok (some text) ∧
        (request.image crates text).outcome = .ok png ∧
        request.cellImage crates t cell = .ok (some png)) ∨
      (cell ≠ none ∧ ∃ e, request.Refuses crates t cell e ∧
        request.cellImage crates t cell = .error e) := by
  cases cell with
  | none => exact .inl ⟨rfl,by simp [cellImage,textCell_none]⟩
  | some v =>
    right
    cases htext : textCell t (some v) with
    | error e => exact .inr ⟨by simp,e,.inl htext,by simp [cellImage,htext]⟩
    | ok text =>
      cases text with
      | none => exact absurd htext (textCell_some_ne v)
      | some text =>
        obtain ⟨r,hr⟩ := generate_returns crates text request.format request.width request.height
        cases r with
        | ok png =>
          exact .inl ⟨by simp,text,png,rfl,hr,by simp [cellImage,htext,image,hr]⟩
        | error b =>
          exact .inr ⟨by simp,ve b,.inr ⟨text,b,htext,hr,rfl⟩,by simp [cellImage,htext,image,hr]⟩

theorem cellImage_of_draws {cell : Option t.Native} {text : String} {m : BitMatrix} {png : Bytes}
    (htext : textCell t cell = .ok (some text))
    (hd : Draws crates text request.format request.width request.height m)
    (hw : writePng crates.image (render m) = .ok png) :
    request.cellImage crates t cell = .ok (some png) := by
  have hok := (generate_eq_ok_iff png).mpr ⟨m,hd,hw⟩
  simp [cellImage,htext,image,hok]

theorem accepts_iff (cell : Option t.Native) : request.Accepts crates t cell ↔
    ∃ png, request.cellImage crates t cell = .ok (some png) := by
  constructor
  · rintro ⟨-,text,m,png,htext,hd,hw⟩
    exact ⟨png,cellImage_of_draws htext hd hw⟩
  · rintro ⟨png,hp⟩
    obtain ⟨-,he⟩ | ⟨-,text,png',htext,hok,-⟩ | ⟨-,e,-,he⟩ :=
      cellImage_cases crates request cell
    · simp [he] at hp
    · obtain ⟨m,hd,hw⟩ := (generate_eq_ok_iff png').mp hok
      exact ⟨textCell_isText htext,text,m,png',htext,hd,hw⟩
    · simp [he] at hp

theorem cellImage_ok_iff (cell : Option t.Native) :
    (∃ row, request.cellImage crates t cell = .ok row) ↔
      (cell ≠ none → request.Accepts crates t cell) := by
  rw [accepts_iff]
  obtain ⟨hc,he⟩ | ⟨hc,text,png,-,-,he⟩ | ⟨hc,e,-,he⟩ :=
    cellImage_cases crates request cell
  · subst hc
    simp [he]
  · simp [he]
  · simp [hc,he]

theorem cellImage_ne_panic (cell : Option t.Native) (message : String) :
    request.cellImage crates t cell ≠ .panic message := by
  obtain ⟨-,he⟩ | ⟨-,text,png,-,-,he⟩ | ⟨-,e,-,he⟩ :=
    cellImage_cases crates request cell <;> simp [he]

theorem cellImage_error {cell : Option t.Native} {e : RpcError}
    (h : request.cellImage crates t cell = .error e) :
    cell ≠ none ∧ ¬ request.Accepts crates t cell ∧ request.Refuses crates t cell e := by
  have hacc : ¬ request.Accepts crates t cell := by
    rw [accepts_iff]
    rintro ⟨png,hp⟩
    simp [h] at hp
  obtain ⟨-,he⟩ | ⟨-,text,png,-,-,he⟩ | ⟨hc,e',hr,he⟩ :=
    cellImage_cases crates request cell
  · simp [h] at he
  · simp [h] at he
  · obtain rfl : e = e' := by simpa [h] using he
    exact ⟨hc,hacc,hr⟩

/-- The law of one output row. -/
theorem cellImage_row {cell : Option t.Native} {row : Option Bytes}
    (h : request.cellImage crates t cell = .ok row) : (row = none ↔ cell = none) ∧
      ∀ png, row = some png ↔ ∃ text, textCell t cell = .ok (some text) ∧
        (generate crates text request.format request.width request.height).outcome = .ok png := by
  obtain ⟨hc,he⟩ | ⟨hc,text,png,htext,hok,he⟩ | ⟨-,e,-,he⟩ :=
    cellImage_cases crates request cell
  · obtain rfl : row = none := by simpa [he] using h.symm
    subst hc
    exact ⟨by simp,by simp [textCell_none]⟩
  · obtain rfl : row = some png := by simpa [he] using h.symm
    have hok' : (generate crates text request.format request.width request.height).outcome =
      .ok png := hok
    exact ⟨by simp [hc],by simp [htext,hok']⟩
  · simp [he] at h

end Cells

/-- The images of the rows before the first failing one fit the builder. -/
def Fits (crates : Crates) (request : Request) (col : Column) : Prop :=
  totalSize List.length (Outcome.okPrefix (request.cellImage crates col.dataType) col.cells) ≤ i32Max

end Request

/-! ## Batches -/

namespace Generator

section Batches
variable {crates : Crates} {g : Generator} {args : Arguments} {request : Request}

theorem process_resolved (hr : g.resolve crates args = .ok request) (schema : Schema)
    {batch : RecordBatch} {col : Column} (hcol : batch.columns.head? = some col) :
    (g.process crates ⟨args,schema⟩ batch).outcome =
      collectRows List.length (request.cellImage crates col.dataType) col.cells >>= fun rows =>
        .ofExcept ((crates.arrow.tryNew schema [.binary rows]).mapError .runtimeError) := by
  have hloop : (columnLoop List.length crates schema batch (request.row crates) .binary).outcome =
      _ := columnLoop_outcome crates schema hcol (request.row crates) .binary
        (request.cellImage crates col.dataType) (fun i cell hc => request.row_outcome crates hc)
        fun i hc => request.row_end crates hc
  rw [process_eq,hr,← hloop]
  simp

/-- Under the declared schema a scan is the traversal of the cells. -/
theorem process_declared (hb : crates.vgi.BindContract) (ht : crates.arrow.TryNewContract)
    (hr : g.resolve crates args = .ok request) {batch : RecordBatch} {col : Column}
    (hcol : batch.columns.head? = some col) (hfit : request.Fits crates col) :
    (g.process crates ⟨args,(crates.vgi.result .binary).outputSchema⟩ batch).outcome =
      (fun rows => RecordBatch.ofColumn (crates.vgi.result .binary).outputSchema (.binary rows)) <$>
        col.cells.mapM (request.cellImage crates col.dataType) := by
  rw [process_resolved hr _ hcol,collectRows_fits hfit,map_eq_pure_bind]
  congr 1
  funext rows
  have hnew := tryNew_declared hb ht (.binary rows)
  simp only [Column.binary] at hnew ⊢
  rw [hnew]
  rfl

end Batches

/-- A supplied size is one that `check_size` accepts; an absent or unread one is the default. -/
def AcceptedSize (crates : Crates) (args : Arguments) (pos : ℕ) (px : UInt32) : Prop :=
  (crates.vgi.constI64 args pos = none ∧ px = defaultGeneratePx) ∨
    ∃ n, crates.vgi.constI64 args pos = some n ∧ 1 ≤ n.toInt ∧ n.toInt ≤ 4096 ∧
      (px.toNat : ℤ) = n.toInt

/-- The request that the arguments of an overload ask for. -/
structure Asks (crates : Crates) (args : Arguments) (g : Generator) (request : Request) : Prop where
  format : match g with
    | .qr _ => request.format = .qrCode
    | .barcode _ => ∃ s, crates.vgi.constStr args 1 = some s ∧
        parseFormat crates.rxing s = .ok request.format
  size : if g.withSize then AcceptedSize crates args g.sizePos request.width
    else request.width = defaultGeneratePx
  height : request.height.toNat = if isTwoD request.format then request.width.toNat
    else max 64 (request.width.toNat/4)

theorem sizePx_eq_ok_iff (crates : Crates) (args : Arguments) (pos : ℕ) (px : UInt32) :
    sizePx crates args pos = .ok px ↔ AcceptedSize crates args pos px := by
  rw [sizePx,AcceptedSize]
  cases crates.vgi.constI64 args pos with
  | none => simp [eq_comm]
  | some n =>
    have hn := checkSize_eq_ok_iff n px
    cases hc : checkSize n with
    | error e => simpa [hc,Except.mapError] using hn
    | ok px' => simpa [hc,Except.mapError] using hn

theorem asks_of_resolve {crates : Crates} {args : Arguments} {g : Generator} {request : Request}
    (h : g.resolve crates args = .ok request) : g.Asks crates args request := by
  cases hf : g.formatOf crates args with
  | error e => rw [resolve,hf] at h; cases h
  | ok format =>
    cases hs : g.sizeOf crates args with
    | error e => rw [resolve,hf,hs] at h; cases h
    | ok px =>
      rw [resolve,hf,hs] at h
      obtain rfl : Request.ofSize format px = request := Except.ok.inj h
      have hdim := requestedSize_toNat format px
      refine ⟨?_,?_,?_⟩
      · cases g with
        | qr f => exact (Except.ok.inj hf).symm
        | barcode f =>
          cases hc : crates.vgi.constStr args 1 with
          | none => simp [formatOf,GenerateBarcode.formatArg,hc] at hf
          | some s =>
            refine ⟨s,rfl,?_⟩
            simp only [formatOf,GenerateBarcode.formatArg,hc] at hf
            cases hp : parseFormat crates.rxing s with
            | error e => simp [hp,Except.mapError] at hf
            | ok format' => simpa [hp,Except.mapError,Request.ofSize] using hf
      · rw [sizeOf] at hs
        have hw : (Request.ofSize format px).width = px := hdim.1
        rw [hw]
        split_ifs at hs ⊢ with hsize
        · exact (sizePx_eq_ok_iff crates args g.sizePos px).mp hs
        · exact (Except.ok.inj hs).symm
      · have hw : (Request.ofSize format px).width = px := hdim.1
        rw [hw]
        exact hdim.2

/-- What a scan of a batch returns, for a request and the schema it was bound with. -/
structure BatchLaw (crates : Crates) (g : Generator) (args : Arguments) (schema : Schema)
    (request : Request) (batch : RecordBatch) (col : Column) : Prop where
  ok_iff : (∃ out, (g.process crates ⟨args,schema⟩ batch).outcome = .ok out) ↔
    ∀ cell ∈ col.cells, cell ≠ none → request.Accepts crates col.dataType cell
  rows : ∀ out, (g.process crates ⟨args,schema⟩ batch).outcome = .ok out →
    ∃ rows, out = .ofColumn schema (.binary rows) ∧ rows.length = batch.numRows ∧
      ∀ (i : ℕ) cell, col.cells[i]? = some cell → ∃ row, rows[i]? = some row ∧
        (row = none ↔ cell = none) ∧ ∀ png, row = some png ↔
          ∃ text, textCell col.dataType cell = .ok (some text) ∧
            (generate crates text request.format request.width request.height).outcome = .ok png
  failed : (¬ ∀ cell ∈ col.cells, cell ≠ none → request.Accepts crates col.dataType cell) →
    ∃ pre cell post e, col.cells = pre ++ cell :: post ∧
      (∀ c ∈ pre, c ≠ none → request.Accepts crates col.dataType c) ∧ cell ≠ none ∧
      ¬ request.Accepts crates col.dataType cell ∧ request.Refuses crates col.dataType cell e ∧
      (g.process crates ⟨args,schema⟩ batch).outcome = .error e

section Law
variable {crates : Crates} {request : Request} {t : DataType} {cells : List (Option t.Native)}

theorem mapM_cellImage_ok_iff : (∃ rows, cells.mapM (request.cellImage crates t) = .ok rows) ↔
    ∀ cell ∈ cells, cell ≠ none → request.Accepts crates t cell := by
  rw [Outcome.mapM_ok_exists_iff]
  simp only [Request.cellImage_ok_iff]

/-- Where some cell is not accepted, the traversal ends with the error of the first such cell. -/
theorem mapM_cellImage_failed
    (h : ¬ ∀ cell ∈ cells, cell ≠ none → request.Accepts crates t cell) :
    ∃ pre cell post e, cells = pre ++ cell :: post ∧
      (∀ c ∈ pre, c ≠ none → request.Accepts crates t c) ∧
      request.cellImage crates t cell = .error e ∧
      cells.mapM (request.cellImage crates t) = .error e := by
  rw [← mapM_cellImage_ok_iff] at h
  cases hm : cells.mapM (request.cellImage crates t) with
  | ok rows => exact absurd ⟨rows,hm⟩ h
  | panic message =>
    have hne := Outcome.mapM_ne_panic (request.cellImage crates t) cells message
      fun cell _ => Request.cellImage_ne_panic cell message
    exact absurd hm hne
  | error e =>
    obtain ⟨pre,cell,post,hs,hpre,he⟩ := (Outcome.mapM_eq_error_iff _ _ _).mp hm
    refine ⟨pre,cell,post,e,hs,fun c hc => ?_,he,rfl⟩
    exact (Request.cellImage_ok_iff c).mp (hpre c hc)

end Law

/-- The batch law of the four generators, for every bind that succeeds. -/
theorem generate_batchLaw (crates : Crates) (hb : crates.vgi.BindContract)
    (ht : crates.arrow.TryNewContract) (g : Generator) (args : Arguments) (response : BindResponse)
    (hbind : (g.onBind crates ⟨args⟩).outcome = .ok response) :
    ∃ request, g.Asks crates args request ∧ ∀ (batch : RecordBatch) (col : Column),
      batch.columns.head? = some col → request.Fits crates col →
      g.BatchLaw crates args response.outputSchema request batch col := by
  obtain ⟨⟨request,hr⟩,rfl⟩ := (onBind_eq_ok_iff crates g args response).mp hbind
  refine ⟨request,asks_of_resolve hr,fun batch col hcol hfit => ?_⟩
  have hscan := process_declared hb ht hr hcol hfit
  have hiff : (∃ rows, col.cells.mapM (request.cellImage crates col.dataType) = .ok rows) ↔ _ :=
    mapM_cellImage_ok_iff
  constructor
  · rw [hscan,← hiff]
    cases col.cells.mapM (request.cellImage crates col.dataType) <;> simp
  · intro out hout
    rw [hscan] at hout
    cases hm : col.cells.mapM (request.cellImage crates col.dataType) with
    | error e => simp [hm] at hout
    | panic message => simp [hm] at hout
    | ok rows =>
      have hlen := Outcome.mapM_ok_length hm
      have hrows := RecordBatch.length_cells hcol
      refine ⟨rows,by simpa [hm] using hout.symm,by rw [hlen,hrows],fun i cell hc => ?_⟩
      obtain ⟨row,hrow,he⟩ := Outcome.mapM_ok_getElem? hm hc
      exact ⟨row,hrow,Request.cellImage_row he⟩
  · intro hbad
    obtain ⟨pre,cell,post,e,hs,hpre,he,hm⟩ := mapM_cellImage_failed hbad
    obtain ⟨hne,hacc,href⟩ := Request.cellImage_error he
    exact ⟨pre,cell,post,e,hs,hpre,hne,hacc,href,by rw [hscan,hm]; rfl⟩

/-- A null cell and a text. -/
def greetingCells : List (Option String) := [none,some "hi"]

/-- The image of the greeting fits the builder. -/
theorem fits_greeting : Request.Fits (Reference.crates Reference.hello) ⟨.qrCode,256,256⟩
    (.utf8 greetingCells) := by
  let m : BitMatrix := ⟨256,256,fun x y => (x+y)%2 = 0⟩
  have hd : Draws (Reference.crates Reference.hello) "hi" .qrCode 256 256 m :=
    ⟨by decide,rfl,by decide,by decide⟩
  have hlen := Reference.length_png_le m 8192 (by decide)
  have hnull : Request.cellImage (Reference.crates Reference.hello) ⟨.qrCode,256,256⟩ .utf8 none =
      .ok none := rfl
  have hcell : Request.cellImage (Reference.crates Reference.hello) ⟨.qrCode,256,256⟩ .utf8
      (some "hi") = .ok (some (Reference.writeStored (render m))) :=
    Request.cellImage_of_draws rfl hd (Reference.writeTo_eq (render m))
  show totalSize List.length (Outcome.okPrefix (Request.cellImage (Reference.crates Reference.hello)
    ⟨.qrCode,256,256⟩ .utf8) [none,some "hi"]) ≤ i32Max
  rw [Outcome.okPrefix_cons_ok _ hnull,Outcome.okPrefix_cons_ok _ hcell]
  simp only [Outcome.okPrefix,totalSize_none,totalSize_some,totalSize_nil]
  have hmax : 8192+17 ≤ i32Max := by decide
  exact le_trans hlen hmax

theorem generate_batchLaw_greeting : ∃ request,
    (Generator.qr ⟨false⟩).Asks (Reference.crates Reference.hello) ⟨[]⟩ request ∧
    (Generator.qr ⟨false⟩).BatchLaw (Reference.crates Reference.hello) ⟨[]⟩
      (Reference.vgi.result .binary).outputSchema request (.ofColumn [] (.utf8 greetingCells))
      (.utf8 greetingCells) := by
  obtain ⟨request,hasks,hlaw⟩ := generate_batchLaw (Reference.crates Reference.hello)
    Reference.vgi_bind Reference.arrow_tryNew (.qr ⟨false⟩) ⟨[]⟩ (Reference.vgi.result .binary) rfl
  refine ⟨request,hasks,hlaw _ _ rfl ?_⟩
  have hf : request.format = .qrCode := hasks.format
  have hw : request.width = 256 := hasks.size
  have hh : request.height = 256 := by
    have hn := hasks.height
    rw [hf,hw] at hn
    exact UInt32.toNat_inj.mp hn
  obtain rfl : request = ⟨.qrCode,256,256⟩ := by
    cases request
    simp_all
  exact fits_greeting

end Generator
end BarcodeWorker
