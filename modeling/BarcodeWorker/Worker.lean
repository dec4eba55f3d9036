import BarcodeWorker.Metadata
import BarcodeWorker.Table

/-! The worker: what each function advertises, which functions are registered, and the catalog
with its one table. -/
namespace BarcodeWorker

open Barcoding

/-! ## Declared interfaces -/

/-- An argument as a function declares it. -/
structure ArgSpec where
  name : String
  position : ℕ
  arrowType : String
  isConst : Bool

namespace ArgSpec

def column (name : String) (position : ℕ) (arrowType : String) : ArgSpec :=
  ⟨name,position,arrowType,false⟩

def constArg (name : String) (position : ℕ) (arrowType : String) : ArgSpec :=
  ⟨name,position,arrowType,true⟩

end ArgSpec

/-- A constant of any SQL type. -/
def constAny (name : String) (position : ℕ) : ArgSpec := .constArg name position "any"

namespace DecodeBarcode

def name (self : DecodeBarcode) : String :=
  match self.field with
  | .text => "decode_barcode"
  | .format => "barcode_format"

def returnType (_self : DecodeBarcode) : DataType := .utf8

def argumentSpecs (_self : DecodeBarcode) : List ArgSpec := [.column "blob" 0 "binary"]

end DecodeBarcode

namespace GenerateQr

def plain : GenerateQr := ⟨false⟩
def sized : GenerateQr := ⟨true⟩

def name (_self : GenerateQr) : String := "generate_qr"

def returnType (_self : GenerateQr) : DataType := .binary

def argumentSpecs (self : GenerateQr) : List ArgSpec :=
  [.column "text" 0 "varchar"] ++ if self.withSize then [constAny "size_px" 1] else []

end GenerateQr

namespace GenerateBarcode

def plain : GenerateBarcode := ⟨false⟩
def sized : GenerateBarcode := ⟨true⟩

def name (_self : GenerateBarcode) : String := "generate_barcode"

def returnType (_self : GenerateBarcode) : DataType := .binary

def argumentSpecs (self : GenerateBarcode) : List ArgSpec :=
  [.column "text" 0 "varchar",constAny "format" 1] ++
    if self.withSize then [constAny "size_px" 2] else []

end GenerateBarcode

namespace DecodeBarcodes

def name : String := "decode_barcodes"

def argumentSpecs : List ArgSpec := [.constArg "blob" 0 "binary"]

end DecodeBarcodes

namespace BarcodeFormats

def name : String := "barcode_formats"

def argumentSpecs : List ArgSpec := []

end BarcodeFormats

/-! ## Scalar functions -/

/-- The implementations of `ScalarFunction`. -/
inductive ScalarFunction
  | decode (f : DecodeBarcode)
  | generate (g : Generator)

namespace ScalarFunction

def name : ScalarFunction → String
  | .decode f => f.name
  | .generate (.qr f) => f.name
  | .generate (.barcode f) => f.name

def returnType : ScalarFunction → DataType
  | .decode f => f.returnType
  | .generate (.qr f) => f.returnType
  | .generate (.barcode f) => f.returnType

def argumentSpecs : ScalarFunction → List ArgSpec
  | .decode f => f.argumentSpecs
  | .generate (.qr f) => f.argumentSpecs
  | .generate (.barcode f) => f.argumentSpecs

def onBind (crates : Crates) : ScalarFunction → BindParams → Run RpcError BindResponse
  | .decode _, params => DecodeBarcode.onBind crates params
  | .generate g, params => g.onBind crates params

def process (crates : Crates) :
    ScalarFunction → ProcessParams → RecordBatch → Run RpcError RecordBatch
  | .decode f, params, batch => f.process crates params batch
  | .generate g, params, batch => g.process crates params batch

/-- One bind, then one scan call for each batch under the schema that the bind declared. -/
def boundScan (crates : Crates) (f : ScalarFunction) (args : Arguments)
    (batches : List RecordBatch) : Run RpcError (List RecordBatch) := do
  let response ← f.onBind crates ⟨args⟩
  batches.mapM fun batch => f.process crates ⟨args,response.outputSchema⟩ batch

end ScalarFunction

/-- `scalar::register` -/
def registeredScalars : List ScalarFunction :=
  [.decode .text,.decode .format,.generate (.qr .plain),.generate (.qr .sized),
    .generate (.barcode .plain),.generate (.barcode .sized)]

/-! ## The catalog -/

/-- The implementations of `TableFunction`. -/
inductive TableFunction
  | decodeBarcodes
  | barcodeFormats
  deriving DecidableEq

structure CatTable where
  name : String
  schema : Schema
  function : TableFunction
  cardinality : Option Int64
  primaryKey : List (List ℕ)
  notNull : List ℕ

/-- The table behind `SELECT * FROM barcode_formats`. -/
def barcodeFormatsTable : CatTable where
  name := "barcode_formats"
  schema := BarcodeFormats.outputSchema
  function := .barcodeFormats
  cardinality := some (Int64.ofNat BarcodeFormats.supportedFormatCount)
  primaryKey := [[0]]
  notNull := [0]

structure CatSchema where
  name : String
  tables : List CatTable

structure CatalogModel where
  name : String
  schemas : List CatSchema

def catalogMetadata (name : String) : CatalogModel := ⟨name,[⟨"main",[barcodeFormatsTable]⟩]⟩

/-- What is served: the registered functions and the catalog. -/
structure Worker where
  scalars : List ScalarFunction
  tables : List TableFunction
  catalog : CatalogModel

/-! ## Start -/

/-- The value of an environment variable, which need not be Unicode. -/
inductive OsString
  | unicode (s : String)
  | raw (bytes : Bytes)
  deriving DecidableEq

/-- The environment of the process. -/
abbrev Environment := String → Option OsString

namespace Environment

/-- `env::var`, which also fails on a value that is not Unicode. -/
def var (env : Environment) (key : String) : Option String :=
  match env key with
  | some (.unicode s) => some s
  | _ => none

def setVar (env : Environment) (key value : String) : Environment :=
  Function.update env key (some (.unicode value))

/-- Set a variable that is not there yet. -/
def setDefault (env : Environment) (key value : String) : Environment :=
  if (env key).isNone then env.setVar key value else env

end Environment

def catalogNameVar : String := "VGI_WORKER_CATALOG_NAME"
def sharedStorageVar : String := "VGI_WORKER_SHARED_STORAGE"

/-- `build_worker`, with the environment after it. -/
def buildWorker (env : Environment) : Worker × Environment :=
  let env := env.setDefault catalogNameVar "barcode"
  let catalogName := (env.var catalogNameVar).getD "barcode"
  (⟨registeredScalars,[.decodeBarcodes],catalogMetadata catalogName⟩,env)

/-- The hook of the browser build. -/
def wasmInit (env : Environment) : Environment := env.setDefault sharedStorageVar "memory"

end BarcodeWorker
