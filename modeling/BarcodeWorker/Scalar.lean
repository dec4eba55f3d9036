import BarcodeWorker.Generation

/-! The scalar functions: reading of input cells, `decode_barcode` and `barcode_format`,
`generate_qr` and `generate_barcode` in both arities. -/
namespace BarcodeWorker

open Barcoding

/-! ## Input cells -/
namespace ArrowIo

def indexOutOfBounds : String := "index out of bounds"

/-- `blob_bytes` on the cell it reads. -/
def blobCell : (t : DataType) → Option t.Native → Except RpcError (Option Bytes)
  | _, none => .ok none
  | .binary, some b => .ok (some b)
  | .largeBinary, some b => .ok (some b)
  | .utf8, some s => .ok (some s.toUTF8.data.toList)
  | .largeUtf8, some s => .ok (some s.toUTF8.data.toList)
  | .int64, some _ => .error (.valueError
      s!"expected a BLOB (binary) argument, got {DataType.int64.debug}")
  | .other name, some _ => .error (.valueError s!"expected a BLOB (binary) argument, got {name}")

/-- `text_str` on the cell it reads. -/
def textCell : (t : DataType) → Option t.Native → Except RpcError (Option String)
  | _, none => .ok none
  | .utf8, some s => .ok (some s)
  | .largeUtf8, some s => .ok (some s)
  | .binary, some _ => .error (.valueError
      s!"expected a VARCHAR (string) argument, got {DataType.binary.debug}")
  | .largeBinary, some _ => .error (.valueError
      s!"expected a VARCHAR (string) argument, got {DataType.largeBinary.debug}")
  | .int64, some _ => .error (.valueError
      s!"expected a VARCHAR (string) argument, got {DataType.int64.debug}")
  | .other name, some _ => .error (.valueError s!"expected a VARCHAR (string) argument, got {name}")

def blobBytes (col : Column) (row : ℕ) : Run RpcError (Option Bytes) :=
  match col.cells[row]? with
  | none => .crash indexOutOfBounds
  | some cell => .ofExcept (blobCell col.dataType cell)

def textStr (col : Column) (row : ℕ) : Run RpcError (Option String) :=
  match col.cells[row]? with
  | none => .crash indexOutOfBounds
  | some cell => .ofExcept (textCell col.dataType cell)

/-- `batch.column(0)` -/
def column0 (batch : RecordBatch) : Run RpcError Column :=
  match batch.columns with
  | [] => .crash indexOutOfBounds
  | col :: _ => pure col

/-- `RecordBatch::try_new(schema, columns)`, its error as a runtime error. -/
def tryNew (crates : Crates) (schema : Schema) (columns : List Column) :
    Run RpcError RecordBatch :=
  .ofExcept ((crates.arrow.tryNew schema columns).mapError .runtimeError)

end ArrowIo

open ArrowIo

structure BindParams where
  arguments : Arguments

structure ProcessParams where
  arguments : Arguments
  outputSchema : Schema

/-! ## `decode_barcode` and `barcode_format` -/

inductive DecodeField
  | text | format
  deriving DecidableEq

structure DecodeBarcode where
  field : DecodeField

namespace DecodeBarcode

def text : DecodeBarcode := ⟨.text⟩
def format : DecodeBarcode := ⟨.format⟩

def onBind (crates : Crates) (_params : BindParams) : Run RpcError BindResponse :=
  pure (crates.vgi.result .utf8)

/-- One turn of the row loop. A blob that is no image is a null row, not an error. -/
def step (crates : Crates) (self : DecodeBarcode) (col : Column) (out : StringBuilder) (i : ℕ) :
    Run RpcError StringBuilder := do
  match ← blobBytes col i with
  | none => pure out.appendNull
  | some bytes =>
    match ← (decodeFirst crates bytes).attempt with
    | .ok (some d) =>
      match self.field with
      | .text => out.appendValue d.text
      | .format => out.appendValue d.format
    | .ok none => pure out.appendNull
    | .error _ => pure out.appendNull

def process (crates : Crates) (self : DecodeBarcode) (params : ProcessParams)
    (batch : RecordBatch) : Run RpcError RecordBatch := do
  let col ← column0 batch
  let out ← (List.range batch.numRows).foldlM (self.step crates col) .new
  tryNew crates params.outputSchema [StringBuilder.finish out]

end DecodeBarcode

/-! ## `generate_qr` and `generate_barcode` -/

/-- A barcode error as a value error of the worker. -/
def ve (e : BarcodeError) : RpcError := .valueError e.message

/-- The optional size constant at a position, with the default where none is read. -/
def sizePx (crates : Crates) (args : Arguments) (pos : ℕ) : Except RpcError UInt32 :=
  match crates.vgi.constI64 args pos with
  | none => .ok defaultGeneratePx
  | some n => (checkSize n).mapError ve

structure GenerateQr where
  withSize : Bool

namespace GenerateQr

def onBind (crates : Crates) (self : GenerateQr) (params : BindParams) :
    Run RpcError BindResponse := do
  if self.withSize then
    let _ ← Traced.ofExcept (sizePx crates params.arguments 1)
  return crates.vgi.result .binary

def step (crates : Crates) (px : UInt32) (col : Column) (out : BinaryBuilder) (i : ℕ) :
    Run RpcError BinaryBuilder := do
  match ← textStr col i with
  | none => pure out.appendNull
  | some text =>
    let png ← (generateQr crates text px).mapErr ve
    out.appendValue png

def process (crates : Crates) (self : GenerateQr) (params : ProcessParams)
    (batch : RecordBatch) : Run RpcError RecordBatch := do
  let px ← if self.withSize then .ofExcept (sizePx crates params.arguments 1)
    else pure defaultGeneratePx
  let col ← column0 batch
  let out ← (List.range batch.numRows).foldlM (step crates px col) .new
  tryNew crates params.outputSchema [BinaryBuilder.finish out]

end GenerateQr

structure GenerateBarcode where
  withSize : Bool

namespace GenerateBarcode

def formatRequired : RpcError := .valueError "generate_barcode: a format string is required"

/-- `const_str(1).ok_or_else(..)?`, then `parse_format(..)?` -/
def formatArg (crates : Crates) (args : Arguments) : Except RpcError BarcodeFormat :=
  match crates.vgi.constStr args 1 with
  | none => .error formatRequired
  | some fmt => (parseFormat crates.rxing fmt).mapError ve

def onBind (crates : Crates) (self : GenerateBarcode) (params : BindParams) :
    Run RpcError BindResponse := do
  let _ ← Traced.ofExcept (formatArg crates params.arguments)
  if self.withSize then
    let _ ← Traced.ofExcept (sizePx crates params.arguments 2)
  return crates.vgi.result .binary

def step (crates : Crates) (format : BarcodeFormat) (px : UInt32) (col : Column)
    (out : BinaryBuilder) (i : ℕ) : Run RpcError BinaryBuilder := do
  match ← textStr col i with
  | none => pure out.appendNull
  | some text =>
    let png ← (generateBarcode crates text format px).mapErr ve
    out.appendValue png

def process (crates : Crates) (self : GenerateBarcode) (params : ProcessParams)
    (batch : RecordBatch) : Run RpcError RecordBatch := do
  let format ← Traced.ofExcept (formatArg crates params.arguments)
  let px ← if self.withSize then .ofExcept (sizePx crates params.arguments 2)
    else pure defaultGeneratePx
  let col ← column0 batch
  let out ← (List.range batch.numRows).foldlM (step crates format px col) .new
  tryNew crates params.outputSchema [BinaryBuilder.finish out]

end GenerateBarcode

/-- The four generator overloads. -/
inductive Generator
  | qr (f : GenerateQr)
  | barcode (f : GenerateBarcode)

namespace Generator

def onBind (crates : Crates) : Generator → BindParams → Run RpcError BindResponse
  | .qr f, params => f.onBind crates params
  | .barcode f, params => f.onBind crates params

def process (crates : Crates) :
    Generator → ProcessParams → RecordBatch → Run RpcError RecordBatch
  | .qr f, params, batch => f.process crates params batch
  | .barcode f, params, batch => f.process crates params batch

end Generator
end BarcodeWorker
