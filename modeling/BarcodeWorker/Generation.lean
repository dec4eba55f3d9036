import BarcodeWorker.DecodeGuard

/-!
# Generated images

`generate` returns a PNG exactly when it gets from the text to an image step by step. The image is
the encoder's matrix with one pixel a module, so its size is the encoder's answer and not the
size asked for. What `decodeLuma` reads back from the PNG is that image, pixel by pixel.
-/

namespace BarcodeWorker
namespace Barcoding

/-! ## From text to PNG -/

/-- The steps of `generate` up to the image, for a request of `w` by `h` pixels. -/
structure Draws (crates : Crates) (text : String) (format : BarcodeFormat) (w h : UInt32)
    (m : BitMatrix) : Prop where
  text_ne : text ≠ ""
  encoded : crates.rxing.encode text format w.toInt32 h.toInt32 = .ok m
  width_ne : m.width ≠ 0
  height_ne : m.height ≠ 0

/-- The PNG writer of a crate. -/
def writePng (image : ImageCrate) (g : GrayImage) : Except String Bytes :=
  image.writeTo (image.imageLuma8 g) .png

section Generate
variable {crates : Crates} {text : String} {format : BarcodeFormat} {w h : UInt32} {m : BitMatrix}

theorem generate_of_draws (hd : Draws crates text format w h m) :
    generate crates text format w h =
      ⟨.ofExcept ((writePng crates.image (render m)).mapError
        fun e => err s!"could not encode PNG: {e}"),
        [.encode text format w.toInt32 h.toInt32,.writeTo m.width m.height]⟩ := by
  have ht : text.isEmpty = false := by simpa using hd.text_ne
  have hz : ¬ (m.width = 0 ∨ m.height = 0) := by simp [hd.width_ne,hd.height_ne]
  cases hw : writePng crates.image (render m) with
  | error e => simp_all [generate,hd.encoded,writePng,render,Except.mapError]
  | ok png => simp_all [generate,hd.encoded,writePng,render,Except.mapError]

/-- A request that does not come to an image fails, after at most the call of the encoder. -/
theorem generate_of_not_draws (hd : ∀ m, ¬ Draws crates text format w h m) :
    ∃ e, (generate crates text format w h).outcome = .error e ∧
      (generate crates text format w h).trace =
        if text = "" then [] else [.encode text format w.toInt32 h.toInt32] := by
  by_cases ht : text = ""
  · subst ht
    exact ⟨_,rfl,rfl⟩
  have he : text.isEmpty = false := by simpa using ht
  cases hm : crates.rxing.encode text format w.toInt32 h.toInt32 with
  | error e => exact ⟨_,by simp [generate,he,hm]; rfl,by simp [generate,he,hm,ht]⟩
  | ok m =>
    have hz : m.width = 0 ∨ m.height = 0 := by
      by_contra hz
      rw [not_or] at hz
      exact hd m ⟨ht,hm,hz.1,hz.2⟩
    exact ⟨_,by simp [generate,he,hm,hz]; rfl,by simp [generate,he,hm,hz,ht]⟩

theorem Draws.unique {m' : BitMatrix} (hd : Draws crates text format w h m)
    (hd' : Draws crates text format w h m') : m = m' := by
  have he := hd.encoded.symm.trans hd'.encoded
  exact Except.ok.inj he

theorem generate_eq_ok_iff (png : Bytes) : (generate crates text format w h).outcome = .ok png ↔
    ∃ m, Draws crates text format w h m ∧ writePng crates.image (render m) = .ok png := by
  constructor
  · intro hg
    by_cases hd : ∃ m, Draws crates text format w h m
    · obtain ⟨m,hd⟩ := hd
      refine ⟨m,hd,?_⟩
      rw [generate_of_draws hd] at hg
      cases hw : writePng crates.image (render m) with
      | error e => simp [hw,Except.mapError] at hg
      | ok png' => simpa [hw,Except.mapError] using hg
    · obtain ⟨e,he,-⟩ := generate_of_not_draws fun m hm => hd ⟨m,hm⟩
      rw [he] at hg
      cases hg
  · rintro ⟨m,hd,hw⟩
    rw [generate_of_draws hd,hw]
    rfl

theorem generate_returns (crates : Crates) (text : String) (format : BarcodeFormat)
    (w h : UInt32) : ∃ r, (generate crates text format w h).outcome = .ofExcept r := by
  by_cases hd : ∃ m, Draws crates text format w h m
  · obtain ⟨m,hd⟩ := hd
    exact ⟨_,by rw [generate_of_draws hd]⟩
  · obtain ⟨e,he,-⟩ := generate_of_not_draws fun m hm => hd ⟨m,hm⟩
    exact ⟨.error e,he⟩

end Generate

/-! ## Back from the PNG -/

@[simp] theorem render_width (m : BitMatrix) : (render m).width = m.width := rfl
@[simp] theorem render_height (m : BitMatrix) : (render m).height = m.height := rfl

/-- Byte `y*width+x` of the rendered matrix is black for a set bit and white for a clear one. -/
theorem render_getElem? (m : BitMatrix) {x y : ℕ} (hx : x < m.width.toNat)
    (hy : y < m.height.toNat) : (render m).pixels.data[y*m.width.toNat+x]? =
      some (if m.get x y then 0 else 255) := by
  have hd := (render m).pixels.data_getElem? ⟨x,hx⟩ ⟨y,hy⟩
  simpa [render] using hd

section ReadBack
variable {image : ImageCrate} {g : GrayImage} {png : Bytes}

theorem recognised_png (hp : image.PngContract) (hw : writePng image g = .ok png) :
    Recognised image png ⟨png,some .png⟩ := by
  have hs := hp.signature g png hw
  refine ⟨?_,hp.guess png hs,rfl⟩
  rintro rfl
  simp [pngSignature] at hs

/-- Reading back an image inside the guard returns its own buffer and dimensions. -/
theorem decodeLuma_png (hl : image.Luma8Contract) (hp : image.PngContract)
    (hw : writePng image g = .ok png) (hg : InGuard g.width g.height) :
    (decodeLuma image png).outcome = .ok (g.pixels.data,g.width,g.height) := by
  have hd := hp.dimensions g png hw
  obtain ⟨d,hdec,hlum⟩ := hp.pixels g png hw
  have hpass : ProbePasses (image.intoDimensions ⟨png,some .png⟩) := by
    intro w h he
    rw [hd] at he
    cases he
    exact hg
  rw [decodeLuma_decoding (recognised_png hp hw) hpass]
  have hgd : guardDimensions (image.width d) (image.height d) = .ok () := by
    rw [guardDimensions_eq_ok_iff,← hl.width_toLuma8,← hl.height_toLuma8,hlum]
    exact hg
  simp only [decodedLuma,hdec,hgd,Outcome.ofExcept_ok]
  rw [hlum]

theorem decodeLuma_png_error (hp : image.PngContract) (hw : writePng image g = .ok png)
    (hg : ¬ InGuard g.width g.height) : ∃ e, (decodeLuma image png).outcome = .error e := by
  have hd := hp.dimensions g png hw
  obtain ⟨e,he⟩ := decodeLuma_rejected (recognised_png hp hw) hd hg
  exact ⟨e,by rw [he]⟩

end ReadBack

/-! ## Requested sizes -/

theorem toInt_maxGeneratePx : (Int64.ofNat maxGeneratePx.toNat).toInt = 4096 := by decide

/-- `check_size` accepts 1 to 4096 and its cast to `u32` keeps the value. -/
theorem checkSize_eq_ok_iff (n : Int64) (px : UInt32) :
    checkSize n = .ok px ↔ 1 ≤ n.toInt ∧ n.toInt ≤ 4096 ∧ (px.toNat : ℤ) = n.toInt := by
  have hz : n ≤ 0 ↔ n.toInt ≤ 0 := Int64.le_iff_toInt_le
  have hm : n > Int64.ofNat maxGeneratePx.toNat ↔ 4096 < n.toInt := by
    rw [gt_iff_lt,Int64.lt_iff_toInt_lt,toInt_maxGeneratePx]
  simp only [checkSize,hz,hm]
  split_ifs with h₁ h₂
  · simp only [false_iff]; omega
  · simp only [false_iff]; omega
  · have h0 : 0 ≤ n := by rw [Int64.le_iff_toInt_le]; exact (not_le.mp h₁).le
    have hcast : (n.toUInt64.toUInt32.toNat : ℤ) = n.toInt := by
      rw [UInt64.toNat_toUInt32,Int64.toNat_toUInt64_of_le h0,Int64.toNatClampNeg]
      omega
    rw [Except.ok.injEq,← UInt32.toNat_inj]
    omega

theorem checkSize_default : checkSize 256 = .ok defaultGeneratePx := by
  rw [checkSize_eq_ok_iff]; decide

/-- The cast of a requested dimension to `i32` does not truncate. -/
theorem toInt_toInt32 {w : UInt32} (hw : w.toNat ≤ 4096) : w.toInt32.toInt = w.toNat := by
  have hb : w.toInt32.toInt = w.toBitVec.toInt := rfl
  rw [hb,BitVec.toInt_eq_toNat_of_lt]
  · rfl
  · have hn : w.toBitVec.toNat = w.toNat := rfl
    omega

theorem requestedSize_toNat (format : BarcodeFormat) (px : UInt32) :
    (requestedSize format px).1 = px ∧ (requestedSize format px).2.toNat =
      if isTwoD format then px.toNat else max 64 (px.toNat/4) := by
  cases hf : isTwoD format with
  | true => simp [requestedSize,hf]
  | false =>
    have hm : (max (px/4) 64).toNat = max 64 (px.toNat/4) := by
      have hq : (px/4).toNat = px.toNat/4 := UInt32.toNat_div px 4
      have h64 : (64 : UInt32).toNat = 64 := rfl
      show (if px/4 ≤ 64 then 64 else px/4).toNat = _
      split_ifs with h <;> rw [UInt32.le_iff_toNat_le] at h <;> omega
    simp [requestedSize,hf,hm]

/-! ## Bounded generation -/

/-- The one-dimensional writers draw as many columns as requested, or as many modules as the text
needs where these are more. -/
def OneDimensionalContract (rxing : Rxing) (modules : String → BarcodeFormat → ℕ) : Prop :=
  ∀ text format w h m, isTwoD format = false → rxing.encode text format w h = .ok m →
    m.width.toNat = max w.toInt.toNat (modules text format)

/-- Every image a run returns is within the generation limit on both sides, and is not rejected
when it is decoded again. -/
def GeneratesBounded (crates : Crates) (run : Run BarcodeError Bytes) : Prop :=
  ∀ png, run.outcome = .ok png → ∃ w h, crates.image.intoDimensions ⟨png,some .png⟩ = .ok (w,h) ∧
    w ≤ maxGeneratePx ∧ h ≤ maxGeneratePx ∧ InGuard w h ∧
    ∃ first, (decodeFirst crates png).outcome = .ok first

/-- The symbol of a request fits the limit, if the request comes to an image at all. -/
def SymbolFits (crates : Crates) (modules : String → BarcodeFormat → ℕ) (text : String)
    (format : BarcodeFormat) (px : UInt32) : Prop :=
  ∀ m png, Draws crates text format (requestedSize format px).1 (requestedSize format px).2 m →
    writePng crates.image (render m) = .ok png →
    (if isTwoD format then m.width.toNat ≤ 4096 else modules text format ≤ 4096) ∧
      m.height.toNat ≤ 4096

theorem inGuard_of_le {w h : UInt32} (hw : w ≠ 0) (hh : h ≠ 0) (hw' : w.toNat ≤ 4096)
    (hh' : h.toNat ≤ 4096) : InGuard w h := by
  have hw₀ : w.toNat ≠ 0 := fun h0 => hw (UInt32.toNat_inj.mp h0)
  have hh₀ : h.toNat ≠ 0 := fun h0 => hh (UInt32.toNat_inj.mp h0)
  have hp : w.toNat*h.toNat ≤ 4096*4096 := Nat.mul_le_mul hw' hh'
  rw [inGuard_iff_toNat]
  omega

section Bounded
variable {crates : Crates} {modules : String → BarcodeFormat → ℕ}

/-- One image is bounded exactly when its matrix is. -/
theorem image_bounded_iff (hl : crates.image.Luma8Contract) (hp : crates.image.PngContract)
    {text : String} {format : BarcodeFormat} {w h : UInt32} {m : BitMatrix} {png : Bytes}
    (hd : Draws crates text format w h m) (hw : writePng crates.image (render m) = .ok png) :
    (∃ w h, crates.image.intoDimensions ⟨png,some .png⟩ = .ok (w,h) ∧ w ≤ maxGeneratePx ∧
      h ≤ maxGeneratePx ∧ InGuard w h ∧ ∃ first, (decodeFirst crates png).outcome = .ok first) ↔
      m.width.toNat ≤ 4096 ∧ m.height.toNat ≤ 4096 := by
  have hdim := hp.dimensions (render m) png hw
  constructor
  · rintro ⟨w',h',he,hw',hh',-⟩
    rw [hdim] at he
    cases he
    exact ⟨hw',hh'⟩
  · rintro ⟨hw',hh'⟩
    have hg : InGuard m.width m.height := inGuard_of_le hd.width_ne hd.height_ne hw' hh'
    have hdec := decodeLuma_png hl hp hw hg
    exact ⟨m.width,m.height,hdim,hw',hh',hg,_,by rw [decodeFirst_of_ok crates hdec]⟩

/-- Where the columns are bounded: by the text alone for a one-dimensional symbol. -/
theorem columns_le_iff (ho : OneDimensionalContract crates.rxing modules) {text : String}
    {format : BarcodeFormat} {px : UInt32} (hpx : px.toNat ≤ 4096) {m : BitMatrix}
    (hd : Draws crates text format (requestedSize format px).1 (requestedSize format px).2 m) :
    m.width.toNat ≤ 4096 ↔
      if isTwoD format then m.width.toNat ≤ 4096 else modules text format ≤ 4096 := by
  cases hf : isTwoD format with
  | true => simp
  | false =>
    have hm := ho text format _ _ m hf hd.encoded
    rw [(requestedSize_toNat format px).1,toInt_toInt32 hpx,Int.toNat_natCast] at hm
    simp only [Bool.false_eq_true,if_false,hm]
    omega

theorem generateBarcode_bounded_iff (hl : crates.image.Luma8Contract)
    (hp : crates.image.PngContract) (ho : OneDimensionalContract crates.rxing modules)
    (text : String) (format : BarcodeFormat) {px : UInt32} (hpx : px.toNat ≤ 4096) :
    GeneratesBounded crates (generateBarcode crates text format px) ↔
      SymbolFits crates modules text format px := by
  constructor
  · intro hb m png hd hw
    have hok : (generateBarcode crates text format px).outcome = .ok png :=
      (generate_eq_ok_iff png).mpr ⟨m,hd,hw⟩
    obtain ⟨hc,hr⟩ := (image_bounded_iff hl hp hd hw).mp (hb png hok)
    exact ⟨(columns_le_iff ho hpx hd).mp hc,hr⟩
  · intro hs png hok
    obtain ⟨m,hd,hw⟩ := (generate_eq_ok_iff png).mp hok
    obtain ⟨hc,hr⟩ := hs m png hd hw
    exact (image_bounded_iff hl hp hd hw).mpr ⟨(columns_le_iff ho hpx hd).mpr hc,hr⟩

theorem generateQr_eq_generateBarcode (crates : Crates) (text : String) (px : UInt32) :
    generateQr crates text px = generateBarcode crates text .qrCode px := rfl

/-- For every accepted size both generators return bounded images if and only if the symbol fits:
for a one-dimensional format the modules that the text needs, for a two-dimensional one the
matrix that the encoder answers. -/
theorem generated_bounded_iff_symbolFits (hl : crates.image.Luma8Contract)
    (hp : crates.image.PngContract) (ho : OneDimensionalContract crates.rxing modules)
    (n : Int64) (px : UInt32) (hn : checkSize n = .ok px) (text : String) :
    (GeneratesBounded crates (generateQr crates text px) ↔
      SymbolFits crates modules text .qrCode px) ∧
    ∀ format, GeneratesBounded crates (generateBarcode crates text format px) ↔
      SymbolFits crates modules text format px := by
  have hpx : px.toNat ≤ 4096 := by
    have h := (checkSize_eq_ok_iff n px).mp hn
    omega
  rw [generateQr_eq_generateBarcode]
  exact ⟨generateBarcode_bounded_iff hl hp ho text .qrCode hpx,
    fun format => generateBarcode_bounded_iff hl hp ho text format hpx⟩

end Bounded

theorem reference_oneDimensional (detected : RXingResult) :
    OneDimensionalContract (Reference.rxing detected) Reference.modulesNeeded := by
  intro text format w h m hf he
  have hw : w.toInt < 2^31 := Int32.toInt_lt w
  simp only [Reference.rxing,Reference.encode,hf,Bool.false_eq_true,if_false] at he
  split_ifs at he with hn
  obtain rfl := Except.ok.inj he
  simp only [UInt32.toNat_ofNat']
  omega

theorem generated_bounded_iff_symbolFits_hello :
    (GeneratesBounded (Reference.crates Reference.hello)
        (generateQr (Reference.crates Reference.hello) "hi" 256) ↔
      SymbolFits (Reference.crates Reference.hello) Reference.modulesNeeded "hi" .qrCode 256) ∧
    ∀ format, GeneratesBounded (Reference.crates Reference.hello)
        (generateBarcode (Reference.crates Reference.hello) "hi" format 256) ↔
      SymbolFits (Reference.crates Reference.hello) Reference.modulesNeeded "hi" format 256 :=
  generated_bounded_iff_symbolFits Reference.image_luma8 Reference.image_png
    (reference_oneDimensional Reference.hello) 256 256 checkSize_default "hi"

/-- Five hundred digits as CODABAR come out 5031 pixels wide at the default size. -/
theorem not_generatesBounded_longCodabar :
    OneDimensionalContract (Reference.crates Reference.hello).rxing Reference.modulesNeeded ∧
    checkSize 256 = .ok 256 ∧
    ¬ GeneratesBounded (Reference.crates Reference.hello)
      (generateBarcode (Reference.crates Reference.hello) (Reference.zeros 500) .codabar 256) := by
  have ho := reference_oneDimensional Reference.hello
  have hneed : Reference.modulesNeeded (Reference.zeros 500) .codabar = 5031 := by
    rw [Reference.modulesNeeded,Reference.length_zeros]
  have hd : Draws (Reference.crates Reference.hello) (Reference.zeros 500) .codabar 256 64
      ⟨5031,64,fun x y => (x+y)%2 = 0⟩ := by
    refine ⟨Reference.zeros_ne_empty (by decide),?_,by decide,by decide⟩
    simp [Reference.crates,Reference.rxing,Reference.encode,isTwoD,hneed]
  refine ⟨ho,checkSize_default,fun hb => ?_⟩
  have hs := (generateBarcode_bounded_iff Reference.image_luma8 Reference.image_png ho
    (Reference.zeros 500) .codabar (by decide)).mp hb
  have hle := (hs _ _ hd rfl).1
  rw [hneed] at hle
  exact absurd hle (by decide)

end Barcoding
end BarcodeWorker
