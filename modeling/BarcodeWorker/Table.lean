import BarcodeWorker.Producer
import BarcodeWorker.Scalar

/-! The table functions: `decode_barcodes`, one row for every symbol of an image, and
`barcode_formats`, one row for every supported format. -/
namespace BarcodeWorker

open Barcoding ArrowIo

/-- A builder of 64-bit cells keeps no offsets. -/
abbrev Int64Builder := List (Option Int64)

def Int64Builder.appendValue (b : Int64Builder) (n : Int64) : Int64Builder := b ++ [some n]
def Int64Builder.finish (b : Int64Builder) : Column := .int64 b

/-! ## `decode_barcodes` -/
namespace DecodeBarcodes

def outputSchema : Schema :=
  [⟨"seq",.int64,false⟩,⟨"format",.utf8,true⟩,⟨"text",.utf8,true⟩]

def onBind (_params : BindParams) : Run RpcError BindResponse := pure ⟨outputSchema,[]⟩

structure DecodeProducer where
  schema : Schema
  rows : List Decoded
  done : Bool

/-- A null blob has no rows, and neither has one that `decode_all` rejects. -/
def producer (crates : Crates) (params : ProcessParams) : Run RpcError DecodeProducer := do
  let rows ← match crates.vgi.constBytes params.arguments 0 with
    | none => pure []
    | some bytes => do
      match ← (decodeAll crates bytes).attempt with
      | .ok rows => pure rows
      | .error _ => pure []
  return ⟨params.outputSchema,rows,false⟩

/-- The three builders of `next_batch`. -/
structure Builders where
  seq : Int64Builder
  format : StringBuilder
  text : StringBuilder

def appendRow (b : Builders) (row : Decoded × ℕ) : Run RpcError Builders := do
  let seq := b.seq.appendValue (Int64.ofNat row.2)
  let format ← b.format.appendValue row.1.format
  let text ← b.text.appendValue row.1.text
  return ⟨seq,format,text⟩

/-- The batch of one call, and the producer after it. -/
def nextBatch (crates : Crates) (self : DecodeProducer) :
    Run RpcError (Option RecordBatch) × DecodeProducer :=
  if self.done then (pure none,self)
  else
    (do
      let out ← self.rows.zipIdx.foldlM appendRow ⟨[],.new,.new⟩
      let batch ← tryNew crates self.schema
        [out.seq.finish,StringBuilder.finish out.format,StringBuilder.finish out.text]
      return some batch,
    {self with done := true})

end DecodeBarcodes

/-! ## `barcode_formats` -/
namespace BarcodeFormats

def outputSchema : Schema := [⟨"format",.utf8,false⟩]

/-- The cardinality that the catalog declares for the table. -/
def supportedFormatCount : ℕ := supportedFormats.length

def onBind (_params : BindParams) : Run RpcError BindResponse := pure ⟨outputSchema,[]⟩

structure FormatsProducer where
  schema : Schema
  done : Bool

def producer (params : ProcessParams) : Run RpcError FormatsProducer :=
  pure ⟨params.outputSchema,false⟩

def nextBatch (crates : Crates) (self : FormatsProducer) :
    Run RpcError (Option RecordBatch) × FormatsProducer :=
  if self.done then (pure none,self)
  else
    (do
      let out ← supportedFormats.foldlM (fun (b : StringBuilder) f => b.appendValue f) .new
      let batch ← tryNew crates self.schema [StringBuilder.finish out]
      return some batch,
    {self with done := true})

end BarcodeFormats
end BarcodeWorker
