import BarcodeWorker.Arrow
import BarcodeWorker.Raster

/-!
# The crates the worker calls

`image`, `rxing`, `arrow` and the `vgi` SDK are parameters: records of the functions the worker
calls, answered in any way their signatures allow. What a result relies on beyond the signatures
is a named contract, and a theorem that needs one takes it as a hypothesis.
-/

namespace BarcodeWorker

/-! ## `image` -/

inductive ImageFormat
  | png | jpeg | gif | bmp | webp
  | other (name : String)
  deriving DecidableEq

/-- An 8-bit grayscale image. Its raw buffer has `width*height` bytes by construction. -/
structure GrayImage where
  width : UInt32
  height : UInt32
  pixels : Raster UInt8 width.toNat height.toNat

structure ImageReader where
  inner : Bytes
  format : Option ImageFormat

def ImageReader.new (blob : Bytes) : ImageReader := ⟨blob,none⟩

structure ImageCrate where
  DynamicImage : Type
  withGuessedFormat : ImageReader → Except String ImageReader
  intoDimensions : ImageReader → Except String (UInt32 × UInt32)
  decode : ImageReader → Except String DynamicImage
  width : DynamicImage → UInt32
  height : DynamicImage → UInt32
  toLuma8 : DynamicImage → GrayImage
  imageLuma8 : GrayImage → DynamicImage
  writeTo : DynamicImage → ImageFormat → Except String Bytes

/-- The eight bytes every PNG file starts with. -/
def pngSignature : Bytes := [0x89,0x50,0x4E,0x47,0x0D,0x0A,0x1A,0x0A]

namespace ImageCrate

/-- Conversion to grayscale keeps the dimensions. -/
structure Luma8Contract (image : ImageCrate) : Prop where
  width_toLuma8 : ∀ d, (image.toLuma8 d).width = image.width d
  height_toLuma8 : ∀ d, (image.toLuma8 d).height = image.height d

/-- The PNG codec reads back every 8-bit grayscale image it wrote. -/
structure PngContract (image : ImageCrate) : Prop where
  signature : ∀ g png, image.writeTo (image.imageLuma8 g) .png = .ok png → pngSignature <+: png
  guess : ∀ blob, pngSignature <+: blob →
    image.withGuessedFormat (.new blob) = .ok ⟨blob,some .png⟩
  dimensions : ∀ g png, image.writeTo (image.imageLuma8 g) .png = .ok png →
    image.intoDimensions ⟨png,some .png⟩ = .ok (g.width,g.height)
  pixels : ∀ g png, image.writeTo (image.imageLuma8 g) .png = .ok png →
    ∃ d, image.decode ⟨png,some .png⟩ = .ok d ∧ image.toLuma8 d = g

end ImageCrate

/-! ## `rxing` -/

inductive BarcodeFormat
  | aztec | codabar | code39 | code93 | code128 | dataMatrix | ean8 | ean13 | itf | maxicode
  | pdf417 | qrCode | microQrCode | rectangularMicroQrCode | rss14 | rssExpanded | telepen
  | upcA | upcE | upcEanExtension | dxFilmEdge | unsuportedFormat
  | other (name : String)
  deriving DecidableEq

inductive Exceptions
  | notFoundException (message : String)
  | other (message : String)

def Exceptions.message : Exceptions → String
  | .notFoundException m => m
  | .other m => m

structure BitMatrix where
  width : UInt32
  height : UInt32
  get : ℕ → ℕ → Bool

structure RXingResult where
  barcodeFormat : BarcodeFormat
  text : String

structure Rxing where
  formatFrom : String → BarcodeFormat
  encode : String → BarcodeFormat → Int32 → Int32 → Except Exceptions BitMatrix
  detectInLuma : Bytes → UInt32 → UInt32 → Except Exceptions RXingResult
  detectMultipleInLuma : Bytes → UInt32 → UInt32 → Except Exceptions (List RXingResult)

/-! ## The `vgi` SDK -/

/-- A constant of a SQL query, of any type. A `double` without a value is NaN or infinite. -/
inductive SqlValue
  | null
  | boolean (b : Bool)
  | integer (n : ℤ)
  | decimal (unscaled : ℤ) (scale : ℕ)
  | double (q : Option ℚ)
  | varchar (s : String)
  | blob (b : Bytes)
  | other (type : String)

/-- The number that a constant stands for, if it stands for one. -/
def SqlValue.number : SqlValue → Option ℚ
  | .integer n => some n
  | .decimal unscaled scale => some (unscaled/10^scale)
  | .double q => q
  | .varchar s => s.toInt?.map Int.cast
  | _ => none

/-- Constants by argument position; a position that holds a column has none. -/
structure Arguments where
  positional : List (Option SqlValue)

def Arguments.constAt (args : Arguments) (pos : ℕ) : Option SqlValue := args.positional[pos]?.join

structure BindResponse where
  outputSchema : Schema
  opaqueData : Bytes

structure Vgi where
  constStr : Arguments → ℕ → Option String
  constI64 : Arguments → ℕ → Option Int64
  constBytes : Arguments → ℕ → Option Bytes
  result : DataType → BindResponse

namespace Vgi

/-- `BindResponse::result` declares one nullable column of the given type. -/
def BindContract (vgi : Vgi) : Prop :=
  ∀ t, ∃ name, (vgi.result t).outputSchema = [⟨name,t,true⟩]

/-- `const_i64` reads a constant as the integer it stands for, or does not read it. -/
def ConstI64Contract (vgi : Vgi) : Prop :=
  ∀ args pos n, vgi.constI64 args pos = some n →
    ∃ v, args.constAt pos = some v ∧ v.number = some (n.toInt : ℚ)

end Vgi

/-! ## `arrow` -/

structure Arrow where
  tryNew : Schema → List Column → Except String RecordBatch

/-- `RecordBatch::try_new` accepts columns that match their schema. -/
def Arrow.TryNewContract (arrow : Arrow) : Prop :=
  ∀ schema columns n (h : Schema.Admits schema columns n),
    arrow.tryNew schema columns = .ok ⟨schema,columns,n,h.aligned⟩

/-! ## All of them -/

structure Crates where
  image : ImageCrate
  rxing : Rxing
  vgi : Vgi
  arrow : Arrow

/-- A call of the worker to `image` or `rxing`, with the answer where a law speaks of it. -/
inductive Call
  | withGuessedFormat
  | intoDimensions (answer : Except String (UInt32 × UInt32))
  | decode
  | detectInLuma (luma : Bytes) (width height : UInt32)
  | detectMultipleInLuma (luma : Bytes) (width height : UInt32)
  | encode (contents : String) (format : BarcodeFormat) (width height : Int32)
  | writeTo (width height : UInt32)

abbrev Run (ε α : Type) := Traced Call ε α

inductive RpcError
  | valueError (message : String)
  | runtimeError (message : String)
  deriving DecidableEq

end BarcodeWorker
