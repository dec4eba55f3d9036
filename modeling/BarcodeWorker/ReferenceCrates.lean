import BarcodeWorker.Barcoding
import Mathlib.Data.Nat.Digits.Lemmas
import Mathlib.Data.Nat.BinaryRec

/-!
# Reference crates

One concrete instance of every crate, with the contracts proved of it, so that no result below
rests on a contract that nothing meets. The image codec is a stored raster behind the signature
and the dimensions of a PNG file: one bit a pixel for a black-and-white image, one byte a pixel
for any other.
-/

namespace BarcodeWorker
namespace Reference

open Barcoding

/-! ## Bits in bytes -/

def bitsToNat : List Bool → ℕ
  | [] => 0
  | b :: bits => Nat.bit b (bitsToNat bits)

theorem testBit_bitsToNat (bits : List Bool) (i : ℕ) (hi : i < bits.length) :
    (bitsToNat bits).testBit i = bits[i] := by
  induction bits generalizing i with
  | nil => simp at hi
  | cons b bits ih =>
    cases i with
    | zero => exact Nat.testBit_bit_zero b _
    | succ i =>
      have hi' : i < bits.length := by simpa using hi
      simpa [bitsToNat,Nat.testBit_bit_succ] using ih i hi'

theorem bitsToNat_lt (bits : List Bool) : bitsToNat bits < 2^bits.length := by
  induction bits with
  | nil => simp [bitsToNat]
  | cons b bits ih =>
    have hb : Nat.bit b (bitsToNat bits) ≤ 2*bitsToNat bits+1 := by
      cases b <;> simp [Nat.bit_val]
    simp only [bitsToNat,List.length_cons,pow_succ]
    omega

/-- Eight bits a byte, the first bit lowest. -/
def packBits (bits : List Bool) : Bytes := (Nat.digits 256 (bitsToNat bits)).map UInt8.ofNat

def unpackBits (n : ℕ) (packed : Bytes) : List Bool :=
  (List.range n).map (Nat.ofDigits 256 (packed.map UInt8.toNat)).testBit

theorem unpackBits_packBits (bits : List Bool) : unpackBits bits.length (packBits bits) = bits := by
  have hd : (packBits bits).map UInt8.toNat = Nat.digits 256 (bitsToNat bits) := by
    rw [packBits,List.map_map]
    refine (List.map_congr_left fun d hd => ?_).trans (List.map_id _)
    have hlt : d < 256 := Nat.digits_lt_base (by norm_num) hd
    simpa using Nat.mod_eq_of_lt hlt
  rw [unpackBits,hd,Nat.ofDigits_digits]
  apply List.ext_getElem
  · simp
  · intro i hi hi'
    simpa using testBit_bitsToNat bits i hi'

theorem length_packBits_le (bits : List Bool) (k : ℕ) (hk : bits.length ≤ 8*k) :
    (packBits bits).length ≤ k := by
  have hlt : bitsToNat bits < 256^k := by
    calc bitsToNat bits < 2^bits.length := bitsToNat_lt bits
      _ ≤ 2^(8*k) := Nat.pow_le_pow_right (by norm_num) hk
      _ = 256^k := by rw [pow_mul]; norm_num
  rw [packBits,List.length_map]
  exact (Nat.digits_length_le_iff (by norm_num) _).mpr hlt

/-! ## The stored raster format -/

def be32 (n : UInt32) : Bytes :=
  [UInt8.ofNat (n.toNat/2^24),UInt8.ofNat (n.toNat/2^16),UInt8.ofNat (n.toNat/2^8),
    UInt8.ofNat n.toNat]

def readBe32 : Bytes → Option (UInt32 × Bytes)
  | a::b::c::d::rest =>
    some (UInt32.ofNat (a.toNat*2^24+b.toNat*2^16+c.toNat*2^8+d.toNat),rest)
  | _ => none

theorem readBe32_be32 (n : UInt32) (rest : Bytes) : readBe32 (be32 n ++ rest) = some (n,rest) := by
  have hn := n.toNat_lt
  simp only [be32,readBe32,List.cons_append,List.nil_append,Option.some.injEq,Prod.mk.injEq,
    and_true,UInt8.toNat_ofNat']
  apply UInt32.toNat.inj
  rw [UInt32.toNat_ofNat']
  omega

/-- Black-and-white pixels, as the generator renders them. -/
def isBilevel (g : GrayImage) : Bool := g.pixels.data.all fun v => v = 0 || v = 255

def writeStored (g : GrayImage) : Bytes :=
  pngSignature ++ (be32 g.width ++ (be32 g.height ++
    if isBilevel g then 1 :: packBits (g.pixels.data.map (· = 255))
    else 8 :: g.pixels.data))

def readSignature (file : Bytes) : Option Bytes :=
  if pngSignature.isPrefixOf file then some (file.drop pngSignature.length) else none

def readHeader (file : Bytes) : Option (UInt32 × UInt32 × Bytes) := do
  let body ← readSignature file
  let (w,body) ← readBe32 body
  let (h,body) ← readBe32 body
  some (w,h,body)

def readPixels (n : ℕ) : Bytes → Option Bytes
  | [] => none
  | depth :: body =>
    if depth = 1 then some ((unpackBits n body).map fun b => if b then 255 else 0) else some body

def readStored (file : Bytes) : Option GrayImage := do
  let (w,h,body) ← readHeader file
  let pixels ← readPixels (w.toNat*h.toNat) body
  if hp : pixels.length = w.toNat*h.toNat then some ⟨w,h,pixels,hp⟩ else none

theorem readHeader_writeStored (g : GrayImage) : ∃ body,
    readHeader (writeStored g) = some (g.width,g.height,body) ∧
      readPixels (g.width.toNat*g.height.toNat) body = some g.pixels.data := by
  have hs (rest : Bytes) : readSignature (pngSignature ++ rest) = some rest := by
    simp [readSignature,pngSignature]
  have hl := g.pixels.length_data
  by_cases hb : isBilevel g = true
  · refine ⟨_,by simp [readHeader,writeStored,hs,readBe32_be32]; rfl,?_⟩
    simp only [hb,if_true,readPixels]
    have hu := unpackBits_packBits (g.pixels.data.map (· = 255))
    rw [List.length_map,hl] at hu
    rw [hu,List.map_map]
    congr 1
    refine (List.map_congr_left fun v hv => ?_).trans (List.map_id _)
    have hv' := List.all_eq_true.mp hb v hv
    simp only [Bool.or_eq_true,decide_eq_true_eq] at hv'
    rcases hv' with rfl | rfl <;> decide
  · refine ⟨_,by simp [readHeader,writeStored,hs,readBe32_be32]; rfl,?_⟩
    simp [hb,readPixels]

theorem readStored_writeStored (g : GrayImage) : readStored (writeStored g) = some g := by
  obtain ⟨body,hh,hp⟩ := readHeader_writeStored g
  simp [readStored,hh,hp,g.pixels.length_data]

/-- A black-and-white image takes a bit a pixel and seventeen bytes before them. -/
theorem length_writeStored_le {g : GrayImage} (hg : isBilevel g = true) (k : ℕ)
    (hk : g.width.toNat*g.height.toNat ≤ 8*k) : (writeStored g).length ≤ k+17 := by
  have hp := length_packBits_le (g.pixels.data.map (· = 255)) k
    (by rw [List.length_map,g.pixels.length_data]; exact hk)
  simp only [writeStored,hg,if_true,be32,pngSignature,List.length_append,List.length_cons,
    List.length_nil]
  omega

/-! ## The crates -/

def image : ImageCrate where
  DynamicImage := GrayImage
  withGuessedFormat r :=
    .ok (if pngSignature.isPrefixOf r.inner then ⟨r.inner,some .png⟩ else r)
  intoDimensions r :=
    match readHeader r.inner with
    | some (w,h,_) => .ok (w,h)
    | none => .error "unexpected end of file"
  decode r :=
    match readStored r.inner with
    | some g => .ok g
    | none => .error "unexpected end of file"
  width := GrayImage.width
  height := GrayImage.height
  toLuma8 := id
  imageLuma8 := id
  writeTo g _ := .ok (writeStored g)

theorem image_luma8 : image.Luma8Contract := ⟨fun _ => rfl,fun _ => rfl⟩

theorem image_png : image.PngContract where
  signature := by
    intro g png h
    obtain rfl : writeStored g = png := by simpa [image] using h
    exact List.prefix_append _ _
  guess := by
    intro blob h
    simp [image,ImageReader.new,h]
  dimensions := by
    intro g png h
    obtain rfl : writeStored g = png := by simpa [image] using h
    obtain ⟨body,hh,-⟩ := readHeader_writeStored g
    simp [image,hh]
  pixels := by
    intro g png h
    obtain rfl : writeStored g = png := by simpa [image] using h
    exact ⟨g,by simp [image,readStored_writeStored],rfl⟩

theorem isBilevel_render (m : BitMatrix) : isBilevel (render m) = true := by
  rw [isBilevel,List.all_eq_true]
  intro v hv
  obtain ⟨x,y,rfl⟩ := Raster.exists_get_of_mem hv
  have hpix : (render m).pixels.get x y = if m.get x y then 0 else 255 :=
    Raster.get_paint (fun x y => if m.get x y then 0 else 255) _ x y
  rw [hpix]
  split_ifs <;> decide

theorem writeTo_eq (g : GrayImage) :
    image.writeTo (image.imageLuma8 g) .png = .ok (writeStored g) := rfl

/-- The file of a matrix takes a bit a module and seventeen bytes before them. -/
theorem length_png_le (m : BitMatrix) (k : ℕ) (hk : m.width.toNat*m.height.toNat ≤ 8*k) :
    (writeStored (render m)).length ≤ k+17 :=
  length_writeStored_le (isBilevel_render m) k hk

/-- Modules of a one-dimensional symbol with its quiet zones: ten a character for CODABAR,
eleven a character for the others. -/
def modulesNeeded (text : String) : BarcodeFormat → ℕ
  | .codabar => 10*text.length+31
  | _ => 11*text.length+55

/-- Side of a version-40 QR code with its quiet zone. -/
def symbolSide : ℕ := 185

def encode (text : String) (format : BarcodeFormat) (width height : Int32) :
    Except Exceptions BitMatrix :=
  let (w,h) := if isTwoD format then (symbolSide,symbolSide) else (modulesNeeded text format,1)
  if w < 2^31 then
    .ok ⟨UInt32.ofNat (max width.toInt.toNat w),UInt32.ofNat (max height.toInt.toNat h),
      fun x y => (x+y)%2 = 0⟩
  else .error (.other "IllegalArgumentException")

/-- Encoders that draw a symbol of the right size, and detectors that answer `detected`. -/
def rxing (detected : RXingResult) : Rxing where
  formatFrom s := ([.codabar,.code128,.ean13,.qrCode].find? (formatName · = s)).getD .unsuportedFormat
  encode := encode
  detectInLuma _ _ _ := .ok detected
  detectMultipleInLuma _ _ _ := .ok [detected]

def vgi : Vgi where
  constStr args pos :=
    match args.constAt pos with
    | some (.varchar s) => some s
    | _ => none
  constI64 args pos :=
    match args.constAt pos with
    | some (.integer n) => if (Int64.ofInt n).toInt = n then some (Int64.ofInt n) else none
    | _ => none
  constBytes args pos :=
    match args.constAt pos with
    | some (.blob b) => some b
    | _ => none
  result t := ⟨[⟨"result",t,true⟩],[]⟩

theorem vgi_bind : vgi.BindContract := fun _ => ⟨"result",rfl⟩

theorem vgi_constI64 : vgi.ConstI64Contract := by
  intro args pos n h
  simp only [vgi] at h
  split at h
  · rename_i m hm
    split_ifs at h with hr
    obtain rfl := Option.some.inj h
    exact ⟨_,hm,by simp [SqlValue.number,hr]⟩
  · cases h

instance (schema : Schema) (columns : List Column) (n : ℕ) : Decidable (schema.Admits columns n) :=
  decidable_of_iff
    (columns ≠ [] ∧ columns.map Column.dataType = schema.map Field.dataType ∧
      (∀ p ∈ schema.zip columns, p.1.nullable = false → ∀ cell ∈ p.2.cells, cell.isSome) ∧
      ∀ c ∈ columns, c.len = n)
    ⟨fun h => ⟨h.1,h.2.1,h.2.2.1,h.2.2.2⟩,fun h => ⟨h.1,h.2,h.3,h.4⟩⟩

def arrow : Arrow where
  tryNew schema columns :=
    let n := (columns.head?.map Column.len).getD 0
    if h : schema.Admits columns n then .ok ⟨schema,columns,n,h.aligned⟩
    else .error "Invalid argument error"

theorem arrow_tryNew : arrow.TryNewContract := by
  intro schema columns n h
  have hn : (columns.head?.map Column.len).getD 0 = n := by
    cases columns with
    | nil => exact absurd rfl h.nonempty
    | cons c cs => exact h.aligned c (by simp)
  subst hn
  simp [arrow,h]

def crates (detected : RXingResult) : Crates := ⟨image,rxing detected,vgi,arrow⟩

/-- A stored image of one pixel. -/
def onePixel : Bytes := pngSignature ++ [0,0,0,1,0,0,0,1,8,7]

/-- A text of `n` zeros. -/
def zeros (n : ℕ) : String := String.ofList (List.replicate n '0')

theorem length_zeros (n : ℕ) : (zeros n).length = n := by
  rw [zeros,String.length_ofList,List.length_replicate]

theorem zeros_ne_empty {n : ℕ} (hn : 0 < n) : zeros n ≠ "" := by
  intro h0
  have hlen := length_zeros n
  rw [h0] at hlen
  have hzero : "".length = 0 := rfl
  omega

theorem utf8ByteSize_zeros (n : ℕ) : (zeros n).utf8ByteSize = n := by
  induction n with
  | zero => rfl
  | succ n ih =>
    have hone : (zeros (n+1)) = String.ofList ['0'] ++ zeros n := by
      rw [zeros,zeros,← String.ofList_append]
      rfl
    have hsize : (String.ofList ['0']).utf8ByteSize = 1 := by decide
    rw [hone,String.utf8ByteSize_append,ih,hsize,Nat.add_comm]

def hello : RXingResult := ⟨.qrCode,"hello world"⟩

end Reference
end BarcodeWorker
