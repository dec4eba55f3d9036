import BarcodeWorker.Crates

/-! The pure barcode logic: decoding of untrusted image blobs behind the dimension guard, and
generation of barcode images. Nothing here knows of Arrow or of the worker's arguments. -/
namespace BarcodeWorker
namespace Barcoding

/-- A processing error, rendered to a string. -/
structure BarcodeError where
  message : String
  deriving DecidableEq

def err (message : String) : BarcodeError := ⟨message⟩

def maxDimension : UInt32 := 20000
def maxPixels : UInt64 := 100000000
def maxGeneratePx : UInt32 := 4096
def defaultGeneratePx : UInt32 := 256

structure Decoded where
  format : String
  text : String
  deriving DecidableEq

/-- Reject images whose dimensions exceed the safety bounds. -/
def guardDimensions (w h : UInt32) : Except BarcodeError Unit :=
  if w = 0 ∨ h = 0 then .error (err "image has a zero dimension")
  else if w > maxDimension ∨ h > maxDimension then
    .error (err s!"image dimension {w}x{h} exceeds the {maxDimension}px limit")
  else if w.toUInt64*h.toUInt64 > maxPixels then
    .error (err s!"image has {w.toUInt64*h.toUInt64} pixels, exceeding the {maxPixels} pixel limit")
  else .ok ()

/-- `if let Ok((w, h)) = probe { guard_dimensions(w, h)?; }` -/
def guardProbe : Except String (UInt32 × UInt32) → Except BarcodeError Unit
  | .ok (w,h) => guardDimensions w h
  -- A probe that fails leaves the blob unguarded, and decoding goes on.
  | .error _ => .ok ()

/-- Guess the container format of a blob; no pixel is decoded. -/
def withGuessedFormat (image : ImageCrate) (blob : Bytes) : Run BarcodeError ImageReader :=
  (Traced.call .withGuessedFormat (image.withGuessedFormat (.new blob))).mapErr
    fun e => err s!"could not read image header: {e}"

/-- Decode a blob to grayscale, with the guard before the pixel decode and again after it. -/
def decodeLuma (image : ImageCrate) (blob : Bytes) : Run BarcodeError (Bytes × UInt32 × UInt32) :=
  if blob.isEmpty then .fail (err "empty image blob") else do
  let reader ← withGuessedFormat image blob
  if reader.format.isNone then .fail (err "unrecognized image format") else do
  let dimensions := image.intoDimensions reader
  let probe ← (Traced.call (.intoDimensions dimensions) dimensions).attempt
  .ofExcept (guardProbe probe)
  let reader ← withGuessedFormat image blob
  let img ← (Traced.call .decode (image.decode reader)).mapErr
    fun e => err s!"could not decode image: {e}"
  .ofExcept (guardDimensions (image.width img) (image.height img))
  let luma := image.toLuma8 img
  return (luma.pixels.data,luma.width,luma.height)

/-- The canonical name of a format. -/
def formatName : BarcodeFormat → String
  | .aztec => "AZTEC"
  | .codabar => "CODABAR"
  | .code39 => "CODE_39"
  | .code93 => "CODE_93"
  | .code128 => "CODE_128"
  | .dataMatrix => "DATA_MATRIX"
  | .ean8 => "EAN_8"
  | .ean13 => "EAN_13"
  | .itf => "ITF"
  | .maxicode => "MAXICODE"
  | .pdf417 => "PDF_417"
  | .qrCode => "QR_CODE"
  | .microQrCode => "MICRO_QR_CODE"
  | .rectangularMicroQrCode => "RECTANGULAR_MICRO_QR_CODE"
  | .rss14 => "RSS_14"
  | .rssExpanded => "RSS_EXPANDED"
  | .telepen => "TELEPEN"
  | .upcA => "UPC_A"
  | .upcE => "UPC_E"
  | .upcEanExtension => "UPC_EAN_EXTENSION"
  | .dxFilmEdge => "DX_FILM_EDGE"
  | _ => "UNKNOWN"

/-- The names advertised as decodable and generatable. -/
def supportedFormats : List String :=
  ["QR_CODE","EAN_8","EAN_13","UPC_A","UPC_E","CODE_39","CODE_93","CODE_128","CODABAR","ITF",
    "DATA_MATRIX","PDF_417","AZTEC"]

def toDecoded (r : RXingResult) : Decoded := ⟨formatName r.barcodeFormat,r.text⟩

/-- The first barcode of a blob. Only a blob that is no image is an error. -/
def decodeFirst (crates : Crates) (blob : Bytes) : Run BarcodeError (Option Decoded) := do
  let (luma,w,h) ← decodeLuma crates.image blob
  let answer ← (Traced.call (.detectInLuma luma w h) (crates.rxing.detectInLuma luma w h)).attempt
  match answer with
    | .ok r => pure (some (toDecoded r))
    | .error (.notFoundException _) => pure none
    | .error _ => pure none

/-- Every barcode of a blob, in detection order. -/
def decodeAll (crates : Crates) (blob : Bytes) : Run BarcodeError (List Decoded) := do
  let (luma,w,h) ← decodeLuma crates.image blob
  let answer ← (Traced.call (.detectMultipleInLuma luma w h)
    (crates.rxing.detectMultipleInLuma luma w h)).attempt
  match answer with
    | .ok results => pure (results.map toDecoded)
    | .error (.notFoundException _) => pure []
    | .error _ => pure []

/-- Rust's `char::is_whitespace`, the Unicode property `White_Space`. -/
def isWhitespace (c : Char) : Bool :=
  (0x09 ≤ c.toNat && c.toNat ≤ 0x0D) || c.toNat = 0x20 || c.toNat = 0x85 || c.toNat = 0xA0
    || c.toNat = 0x1680 || (0x2000 ≤ c.toNat && c.toNat ≤ 0x200A) || c.toNat = 0x2028
    || c.toNat = 0x2029 || c.toNat = 0x202F || c.toNat = 0x205F || c.toNat = 0x3000

/-- Rust's `str::trim`. -/
def trim (s : String) : String :=
  String.ofList (((s.toList.dropWhile isWhitespace).reverse.dropWhile isWhitespace).reverse)

def parseFormat (rxing : Rxing) (s : String) : Except BarcodeError BarcodeFormat :=
  let f := rxing.formatFrom (trim s)
  if f = .unsuportedFormat then
    .error (err ("unknown barcode format '" ++ s ++ "'; supported: " ++
      String.intercalate ", " supportedFormats))
  else .ok f

def isTwoD : BarcodeFormat → Bool
  | .qrCode | .microQrCode | .rectangularMicroQrCode | .dataMatrix | .pdf417 | .aztec
  | .maxicode => true
  | _ => false

/-- Validate a requested side length. -/
def checkSize (sizePx : Int64) : Except BarcodeError UInt32 :=
  if sizePx ≤ 0 then .error (err s!"size_px must be positive, got {sizePx}")
  else if sizePx > Int64.ofNat maxGeneratePx.toNat then
    .error (err s!"size_px {sizePx} exceeds the {maxGeneratePx}px generation limit")
  else .ok sizePx.toUInt64.toUInt32

/-- Set bit to black, clear bit to white, one pixel a module. -/
def render (matrix : BitMatrix) : GrayImage :=
  ⟨matrix.width,matrix.height,
    Raster.paint (fun x y => if matrix.get x y then 0 else 255) (Raster.new _ _ 0)⟩

/-- Core encode: text to a PNG of the matrix that the encoder answers. -/
def generate (crates : Crates) (text : String) (format : BarcodeFormat) (width height : UInt32) :
    Run BarcodeError Bytes :=
  if text.isEmpty then .fail (err "cannot encode empty text") else do
  let matrix ← (Traced.call (.encode text format width.toInt32 height.toInt32)
    (crates.rxing.encode text format width.toInt32 height.toInt32)).mapErr
    fun e => err s!"could not encode {formatName format}: {e.message}"
  if matrix.width = 0 ∨ matrix.height = 0 then .fail (err "encoder produced an empty matrix") else do
  let img := render matrix
  (Traced.call (.writeTo img.width img.height)
    (crates.image.writeTo (crates.image.imageLuma8 img) .png)).mapErr
    fun e => err s!"could not encode PNG: {e}"

def generateQr (crates : Crates) (text : String) (sizePx : UInt32) : Run BarcodeError Bytes :=
  generate crates text .qrCode sizePx sizePx

/-- A square for the two-dimensional formats, a wide and short image for the others. -/
def requestedSize (format : BarcodeFormat) (sizePx : UInt32) : UInt32 × UInt32 :=
  if isTwoD format then (sizePx,sizePx) else (sizePx,max (sizePx/4) 64)

def generateBarcode (crates : Crates) (text : String) (format : BarcodeFormat) (sizePx : UInt32) :
    Run BarcodeError Bytes :=
  let (w,h) := requestedSize format sizePx
  generate crates text format w h

end Barcoding
end BarcodeWorker
