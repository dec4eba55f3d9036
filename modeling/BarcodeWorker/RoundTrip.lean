import BarcodeWorker.OffsetLimit

/-!
# Generate, then decode

The decoder reads back the matrix of the encoder pixel by pixel, so a decoded row depends on the
cell of the text through the encoder and the detector alone. A whole batch comes back row by row
as long as the decoded texts fit the output column.
-/

namespace BarcodeWorker

open Barcoding ArrowIo

/-! ## One image -/

/-- A luma buffer that holds a matrix black-on-white, row after row. -/
structure BlackOnWhite (m : BitMatrix) (luma : Bytes) : Prop where
  length : luma.length = m.width.toNat*m.height.toNat
  pixel : ∀ x y, x < m.width.toNat → y < m.height.toNat →
    luma[y*m.width.toNat+x]? = some (if m.get x y then 0 else 255)

/-- The decoder reads a file as the matrix it was generated from, or rejects it by its size. -/
structure PixelExact (image : ImageCrate) (m : BitMatrix) (png : Bytes) : Prop where
  ok_iff : (∃ d, (decodeLuma image png).outcome = .ok d) ↔ m.width.toNat ≤ maxDimension.toNat ∧
    m.height.toNat ≤ maxDimension.toNat ∧ m.width.toNat*m.height.toNat ≤ maxPixels.toNat
  pixels : ∀ luma w h, (decodeLuma image png).outcome = .ok (luma,w,h) →
    w = m.width ∧ h = m.height ∧ BlackOnWhite m luma

theorem render_blackOnWhite (m : BitMatrix) : BlackOnWhite m (render m).pixels.data :=
  ⟨(render m).pixels.length_data,fun _ _ hx hy => render_getElem? m hx hy⟩

/-- The encoder's matrix has no side of zero, so only the upper bounds of the guard matter. -/
theorem inGuard_matrix_iff {m : BitMatrix} (hw : m.width ≠ 0) (hh : m.height ≠ 0) :
    InGuard m.width m.height ↔ m.width.toNat ≤ maxDimension.toNat ∧
      m.height.toNat ≤ maxDimension.toNat ∧ m.width.toNat*m.height.toNat ≤ maxPixels.toNat := by
  have hw₀ : m.width.toNat ≠ 0 := fun h0 => hw (UInt32.toNat_inj.mp h0)
  have hh₀ : m.height.toNat ≠ 0 := fun h0 => hh (UInt32.toNat_inj.mp h0)
  have hd : maxDimension.toNat = 20000 := rfl
  have hp : maxPixels.toNat = 100000000 := rfl
  rw [inGuard_iff_toNat,hd,hp]
  omega

theorem pixelExact_png {image : ImageCrate} (hl : image.Luma8Contract) (hp : image.PngContract)
    {m : BitMatrix} (hw : m.width ≠ 0) (hh : m.height ≠ 0) {png : Bytes}
    (hpng : writePng image (render m) = .ok png) : PixelExact image m png := by
  constructor
  · rw [← inGuard_matrix_iff hw hh]
    constructor
    · rintro ⟨d,hd⟩
      by_contra hg
      obtain ⟨e,he⟩ := decodeLuma_png_error hp hpng hg
      rw [he] at hd
      cases hd
    · intro hg
      exact ⟨_,decodeLuma_png hl hp hpng hg⟩
  · intro luma w h hd
    by_cases hg : InGuard m.width m.height
    · rw [decodeLuma_png hl hp hpng hg] at hd
      cases hd
      exact ⟨rfl,rfl,render_blackOnWhite m⟩
    · obtain ⟨e,he⟩ := decodeLuma_png_error hp hpng hg
      rw [he] at hd
      cases hd

/-! ## One row -/

/-- What the detector returns on a matrix rendered black-on-white. -/
def decodedText (crates : Crates) (decoder : DecodeBarcode) (m : BitMatrix) : Option String :=
  if InGuard m.width m.height then
    (firstOf (crates.rxing.detectInLuma (render m).pixels.data m.width m.height)).map
      decoder.project
  else none

/-- What a text cell comes to when it is generated and decoded again. -/
def expectedText (crates : Crates) (decoder : DecodeBarcode) (request : Request) (t : DataType)
    (cell : Option t.Native) : Option String :=
  match textCell t cell with
  | .ok (some text) =>
    match crates.rxing.encode text request.format request.width.toInt32 request.height.toInt32 with
    | .ok m => decodedText crates decoder m
    | .error _ => none
  | _ => none

/-- The law of one decoded row: null for a null text or a matrix outside the guard, and otherwise
what the detector returns on the matrix of the text. -/
structure RoundTripRow (crates : Crates) (decoder : DecodeBarcode) (request : Request)
    (t : DataType) (cell : Option t.Native) (row : Option String) : Prop where
  null : cell = none → row = none
  text : ∀ text m, textCell t cell = .ok (some text) →
    Draws crates text request.format request.width request.height m →
    ∃ luma, BlackOnWhite m luma ∧ row = if InGuard m.width m.height then
      match crates.rxing.detectInLuma luma m.width m.height with
      | .ok r => some (decoder.project (toDecoded r))
      | .error _ => none
    else none

section Row
variable {crates : Crates} {decoder : DecodeBarcode} {request : Request} {t : DataType}

theorem expectedText_row (cell : Option t.Native) :
    RoundTripRow crates decoder request t cell (expectedText crates decoder request t cell) := by
  constructor
  · rintro rfl
    rw [expectedText,Request.textCell_none]
  · intro text m htext hd
    refine ⟨(render m).pixels.data,render_blackOnWhite m,?_⟩
    rw [expectedText,htext]
    simp only [hd.encoded,decodedText]
    cases crates.rxing.detectInLuma (render m).pixels.data m.width m.height <;> rfl

theorem blobRow_png (hl : crates.image.Luma8Contract) (hp : crates.image.PngContract)
    {m : BitMatrix} {png : Bytes} (hpng : writePng crates.image (render m) = .ok png) :
    decoder.blobRow crates png = decodedText crates decoder m := by
  by_cases hg : InGuard m.width m.height
  · have hdec := decodeLuma_png hl hp hpng hg
    rw [DecodeBarcode.blobRow,decodeFirst_of_ok crates hdec,decodedText,if_pos hg]
    simp only [render_width,render_height]
    cases crates.rxing.detectInLuma (render m).pixels.data m.width m.height <;> rfl
  · obtain ⟨e,he⟩ := decodeLuma_png_error hp hpng hg
    rw [DecodeBarcode.blobRow,decodeFirst_of_error crates he,decodedText,if_neg hg]

/-- Decoding of a generated row gives what its text cell leads to. -/
theorem cellRow_cellImage (hl : crates.image.Luma8Contract) (hp : crates.image.PngContract)
    {cell : Option t.Native} {row : Option Bytes}
    (hrow : request.cellImage crates t cell = .ok row) :
    decoder.cellRow crates .binary row = expectedText crates decoder request t cell := by
  obtain ⟨hnull,hpng⟩ := Request.cellImage_row hrow
  cases row with
  | none =>
    have hcell : cell = none := hnull.mp rfl
    rw [hcell,expectedText,Request.textCell_none]
    rfl
  | some png =>
    obtain ⟨text,htext,hok⟩ := (hpng png).mp rfl
    obtain ⟨m,hd,hw⟩ := (generate_eq_ok_iff png).mp hok
    calc decoder.cellRow crates .binary (some png) = decoder.blobRow crates png := rfl
      _ = decodedText crates decoder m := blobRow_png hl hp hw
      _ = expectedText crates decoder request t cell := by
        rw [expectedText,htext]
        simp only [hd.encoded]

end Row

/-! ## A batch -/

/-- The decoded texts of a column fit the builder. -/
def RoundTripFits (crates : Crates) (decoder : DecodeBarcode) (request : Request) (col : Column) :
    Prop :=
  totalSize String.utf8ByteSize
    (col.cells.map (expectedText crates decoder request col.dataType)) ≤ i32Max

/-- Decoding of a generated batch comes back row by row. -/
def RoundTrips (crates : Crates) (decoder : DecodeBarcode) (args : Arguments) (request : Request)
    (col : Column) (generated : RecordBatch) : Prop :=
  ∃ rows, (decoder.boundProcess crates args generated).outcome =
      .ok (DecodeBarcode.outputBatch crates rows) ∧ rows.length = col.cells.length ∧
    ∀ (i : ℕ) cell, col.cells[i]? = some cell → ∃ row, rows[i]? = some row ∧
      RoundTripRow crates decoder request col.dataType cell row

section Batch
variable {crates : Crates} (hl : crates.image.Luma8Contract) (hp : crates.image.PngContract)
  (hb : crates.vgi.BindContract) (ht : crates.arrow.TryNewContract)

theorem Generator.process_ok {g : Generator} {args : Arguments} {request : Request}
    {batch out : RecordBatch} {col : Column} (hb : crates.vgi.BindContract)
    (ht : crates.arrow.TryNewContract) (hr : g.resolve crates args = .ok request)
    (hcol : batch.columns.head? = some col)
    (hout : (g.process crates ⟨args,(crates.vgi.result .binary).outputSchema⟩ batch).outcome =
      .ok out) : ∃ rows, out.columns.head? = some (.binary rows) ∧
        col.cells.mapM (request.cellImage crates col.dataType) = .ok rows := by
  have hne : ∀ m, (g.process crates ⟨args,(crates.vgi.result .binary).outputSchema⟩ batch).outcome ≠
      .panic m := by simp [hout]
  have hfit := (g.process_ne_panic_iff crates args _ hcol).mp hne request hr
  rw [process_declared hb ht hr hcol hfit] at hout
  cases hm : col.cells.mapM (request.cellImage crates col.dataType) with
  | error e => simp [hm] at hout
  | panic m => simp [hm] at hout
  | ok rows =>
    obtain rfl : RecordBatch.ofColumn _ (.binary rows) = out := by simpa [hm] using hout
    exact ⟨rows,rfl,rfl⟩

include hl hp in
theorem map_cellRow {decoder : DecodeBarcode} {request : Request} {t : DataType}
    {cells : List (Option t.Native)} {rows : List (Option Bytes)}
    (hm : cells.mapM (request.cellImage crates t) = .ok rows) :
    rows.map (decoder.cellRow crates .binary) =
      cells.map (expectedText crates decoder request t) := by
  rw [Outcome.mapM_eq_ok_iff] at hm
  induction hm with
  | nil => rfl
  | cons hrow _ ih => exact congrArg₂ List.cons (cellRow_cellImage hl hp hrow) ih

include hl hp hb ht in
/-- A generated batch comes back exactly when its texts fit. -/
theorem roundTrips_iff {decoder : DecodeBarcode} {args : Arguments} {request : Request}
    {col : Column} {rows : List (Option Bytes)}
    (hm : col.cells.mapM (request.cellImage crates col.dataType) = .ok rows)
    {generated : RecordBatch} (hgen : generated.columns.head? = some (.binary rows)) :
    RoundTrips crates decoder args request col generated ↔
      RoundTripFits crates decoder request col := by
  have hrows : rows.map (decoder.cellRow crates .binary) = _ := map_cellRow hl hp hm
  have hfits : decoder.Fits crates (.binary rows) ↔ RoundTripFits crates decoder request col := by
    rw [RoundTripFits,← hrows]
    exact DecodeBarcode.fits_iff (t := .binary) crates decoder rfl rows
  rw [← hfits]
  constructor
  · rintro ⟨rows',hout,-,-⟩
    rw [← decoder.process_ne_panic_iff crates ⟨args,(crates.vgi.result .utf8).outputSchema⟩ hgen]
    intro m hpanic
    rw [DecodeBarcode.boundProcess,DecodeBarcode.onBind,pure_bind,hpanic] at hout
    cases hout
  · intro hfit
    have hout := DecodeBarcode.boundProcess_map hb ht decoder args hgen rfl hfit
    refine ⟨_,hout,?_,fun i cell hc => ?_⟩
    · rw [List.length_map]
      exact Outcome.mapM_ok_length hm
    · refine ⟨_,?_,expectedText_row cell⟩
      calc (rows.map (decoder.cellRow crates .binary))[i]?
          = (col.cells.map (expectedText crates decoder request col.dataType))[i]? := by rw [hrows]
        _ = some (expectedText crates decoder request col.dataType cell) := by
          rw [List.getElem?_map,hc]
          rfl

end Batch

/-- Arguments of `generate_qr` with a size of 1. -/
def onePixelArgs : Arguments := ⟨[none,some (.integer 1)]⟩

def fullCells (n : ℕ) : List (Option (DataType.Native .largeUtf8)) :=
  List.replicate n (some (Reference.zeros 7089))

def fullTexts (n : ℕ) : Column := ⟨.largeUtf8,fullCells n⟩

theorem draws_fullMatrix :
    Draws (Reference.crates fullSymbol) (Reference.zeros 7089) .qrCode 1 1 fullMatrix :=
  ⟨Reference.zeros_ne_empty (by decide),rfl,by decide,by decide⟩

theorem resolve_onePixel : (Generator.qr ⟨true⟩).resolve (Reference.crates fullSymbol) onePixelArgs =
    .ok ⟨.qrCode,1,1⟩ := rfl

theorem length_fullPng_le : fullPng.length ≤ 4279+17 :=
  Reference.length_png_le fullMatrix 4279 (by decide)

theorem cellImage_full : Request.cellImage (Reference.crates fullSymbol) ⟨.qrCode,1,1⟩ .largeUtf8
    (some (Reference.zeros 7089)) = .ok (some fullPng) :=
  Request.cellImage_of_draws rfl draws_fullMatrix (Reference.writeTo_eq (render fullMatrix))

theorem mapM_fullCells (n : ℕ) : (fullCells n).mapM
    (Request.cellImage (Reference.crates fullSymbol) ⟨.qrCode,1,1⟩ .largeUtf8) =
      .ok (List.replicate n (some fullPng)) := by
  have hread : ∀ cell ∈ fullCells n, Request.cellImage (Reference.crates fullSymbol)
      ⟨.qrCode,1,1⟩ .largeUtf8 cell = .ok (some fullPng) := by
    intro cell hc
    rw [List.eq_of_mem_replicate hc]
    exact cellImage_full
  rw [Outcome.mapM_eq_ok_map (fun _ => some fullPng) hread,fullCells]
  simp

def fullBatch (n : ℕ) : RecordBatch :=
  .ofColumn (Reference.vgi.result .binary).outputSchema (.binary (List.replicate n (some fullPng)))

/-- The files of 303000 rows fit the builder, unlike their texts. -/
theorem process_fullTexts {n : ℕ} (hn : n ≤ 303000) :
    ((Generator.qr ⟨true⟩).process (Reference.crates fullSymbol)
      ⟨onePixelArgs,(Reference.vgi.result .binary).outputSchema⟩
      (.ofColumn [] (fullTexts n))).outcome = .ok (fullBatch n) := by
  have hfit : Request.Fits (Reference.crates fullSymbol) ⟨.qrCode,1,1⟩ (fullTexts n) := by
    rw [Request.Fits,fullTexts,fullCells,Outcome.okPrefix_replicate cellImage_full,
      totalSize_replicate]
    calc n*fullPng.length ≤ 303000*(4279+17) := Nat.mul_le_mul hn length_fullPng_le
      _ ≤ i32Max := by decide
  have hcol : (RecordBatch.ofColumn [] (fullTexts n)).columns.head? = some (fullTexts n) := rfl
  have hscan := Generator.process_declared Reference.vgi_bind Reference.arrow_tryNew
    resolve_onePixel hcol hfit
  simp only [fullTexts,mapM_fullCells] at hscan ⊢
  exact hscan

theorem expectedText_full : expectedText (Reference.crates fullSymbol) .text ⟨.qrCode,1,1⟩ .largeUtf8
    (some (Reference.zeros 7089)) = some (Reference.zeros 7089) := by
  have hg : InGuard fullMatrix.width fullMatrix.height := by decide
  have htext : textCell .largeUtf8 (some (Reference.zeros 7089)) =
    .ok (some (Reference.zeros 7089)) := rfl
  rw [expectedText,htext]
  simp only [draws_fullMatrix.encoded,decodedText,if_pos hg]
  rfl

theorem not_roundTrips_of_lt {n : ℕ} (hn : i32Max < n*7089) :
    ¬ RoundTrips (Reference.crates fullSymbol) .text ⟨[]⟩ ⟨.qrCode,1,1⟩ (fullTexts n)
      (fullBatch n) := by
  have hfit : ¬ RoundTripFits (Reference.crates fullSymbol) .text ⟨.qrCode,1,1⟩ (fullTexts n) := by
    rw [RoundTripFits,fullTexts,fullCells,List.map_replicate,expectedText_full,
      totalSize_replicate,Reference.utf8ByteSize_zeros]
    exact Nat.not_le.mpr hn
  rwa [roundTrips_iff Reference.image_luma8 Reference.image_png Reference.vgi_bind
    Reference.arrow_tryNew (mapM_fullCells n) rfl]

end BarcodeWorker
