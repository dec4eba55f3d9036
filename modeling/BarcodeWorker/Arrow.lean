import BarcodeWorker.RowLoop

/-! Arrow columns, schemas and record batches, as far as the worker reads and builds them.
A cell is `none` when the null bitmap of its column marks it. A column whose type keeps no
null bitmap has no such cell. -/
namespace BarcodeWorker

abbrev Bytes := List UInt8

inductive DataType
  | binary | largeBinary | utf8 | largeUtf8 | int64
  | other (name : String)
  deriving DecidableEq

namespace DataType

/-- The `{:?}` rendering of a type. -/
def debug : DataType → String
  | .binary => "Binary"
  | .largeBinary => "LargeBinary"
  | .utf8 => "Utf8"
  | .largeUtf8 => "LargeUtf8"
  | .int64 => "Int64"
  | .other name => name

/-- What a valid cell of the type holds. No cell of another type is ever read. -/
def Native : DataType → Type
  | .binary => Bytes
  | .largeBinary => Bytes
  | .utf8 => String
  | .largeUtf8 => String
  | .int64 => Int64
  | .other _ => Unit

/-- The types `blob_bytes` reads. -/
def isBlob : DataType → Bool
  | .binary | .largeBinary | .utf8 | .largeUtf8 => true
  | _ => false

/-- The types `text_str` reads. -/
def isText : DataType → Bool
  | .utf8 | .largeUtf8 => true
  | _ => false

end DataType

structure Column where
  dataType : DataType
  cells : List (Option dataType.Native)

namespace Column

def len (c : Column) : ℕ := c.cells.length

def binary (rows : List (Option Bytes)) : Column := ⟨.binary,rows⟩
def utf8 (rows : List (Option String)) : Column := ⟨.utf8,rows⟩
def int64 (rows : List (Option Int64)) : Column := ⟨.int64,rows⟩

@[simp] theorem len_binary (rows : List (Option Bytes)) : (binary rows).len = rows.length := rfl
@[simp] theorem len_utf8 (rows : List (Option String)) : (utf8 rows).len = rows.length := rfl
@[simp] theorem len_int64 (rows : List (Option Int64)) : (int64 rows).len = rows.length := rfl

/-- The one-row column that holds row `i` of `c`. -/
def single (c : Column) (i : ℕ) : Column := ⟨c.dataType,c.cells[i]?.toList⟩

end Column

structure Field where
  name : String
  dataType : DataType
  nullable : Bool
  deriving DecidableEq

abbrev Schema := List Field

/-- Columns of one length under a schema. -/
structure RecordBatch where
  schema : Schema
  columns : List Column
  numRows : ℕ
  aligned : ∀ c ∈ columns, c.len = numRows

theorem RecordBatch.length_cells {batch : RecordBatch} {col : Column}
    (hcol : batch.columns.head? = some col) : col.cells.length = batch.numRows :=
  batch.aligned col (List.mem_of_mem_head? hcol)

/-- What a schema asks of the columns put under it. -/
structure Schema.Admits (schema : Schema) (columns : List Column) (n : ℕ) : Prop where
  nonempty : columns ≠ []
  typed : columns.map Column.dataType = schema.map Field.dataType
  nullable : ∀ p ∈ schema.zip columns, p.1.nullable = false → ∀ cell ∈ p.2.cells, cell.isSome
  aligned : ∀ c ∈ columns, c.len = n

/-- The batch with one column and its length. -/
def RecordBatch.ofColumn (schema : Schema) (c : Column) : RecordBatch :=
  ⟨schema,[c],c.len,by simp⟩

def i32Max : ℕ := 2^31-1

/-- Arrow's builders for `Binary` and `Utf8` keep 32-bit offsets. -/
abbrev BinaryBuilder := OffsetBuilder Bytes List.length i32Max
abbrev StringBuilder := OffsetBuilder String String.utf8ByteSize i32Max

def BinaryBuilder.finish (b : BinaryBuilder) : Column := .binary b.rows
def StringBuilder.finish (b : StringBuilder) : Column := .utf8 b.rows

end BarcodeWorker
