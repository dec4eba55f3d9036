import BarcodeWorker.BindAgreement
import BarcodeWorker.DecodeScalar

/-!
# The offsets of an output column

The builders keep 32-bit offsets, and nothing bounds the sum of the values of a batch. A scan
panics exactly when the rows before its first failing one come to more bytes than such an offset
counts, in all three functions for the same reason: the run lemma of the row loop.
-/

namespace BarcodeWorker

open Barcoding ArrowIo

theorem DecodeBarcode.process_ne_panic_iff (crates : Crates) (self : DecodeBarcode)
    (params : ProcessParams) {batch : RecordBatch} {col : Column}
    (hcol : batch.columns.head? = some col) :
    (∀ m, (self.process crates params batch).outcome ≠ .panic m) ↔ self.Fits crates col := by
  rw [process_outcome crates self params hcol]
  apply pass_ne_panic_iff
  intro cell _ m
  rw [cellText]
  cases blobCell col.dataType cell <;> simp

theorem Generator.process_ne_panic_iff (crates : Crates) (g : Generator) (args : Arguments)
    (schema : Schema) {batch : RecordBatch} {col : Column}
    (hcol : batch.columns.head? = some col) :
    (∀ m, (g.process crates ⟨args,schema⟩ batch).outcome ≠ .panic m) ↔ g.Fits crates args col := by
  cases hr : g.resolve crates args with
  | error e =>
    have he : (g.process crates ⟨args,schema⟩ batch).outcome = .error e := by
      rw [process_eq,hr]
      simp
    exact iff_of_true (by simp [he]) fun request hr' => by simp [hr] at hr'
  | ok request =>
    have hfits : g.Fits crates args col ↔ request.Fits crates col := by
      constructor
      · intro h
        exact h request hr
      · intro h request' hr'
        obtain rfl : request = request' := by simpa [hr] using hr'
        exact h
    rw [hfits,process_resolved hr schema hcol]
    apply pass_ne_panic_iff
    intro cell _ m
    exact Request.cellImage_ne_panic cell m

/-- No scan of the three functions panics over a batch if and only if the values of the rows before
the first failing one fit 32-bit offsets. -/
theorem no_offsetOverflow_iff_fits (crates : Crates) (params : ProcessParams)
    (batch : RecordBatch) (col : Column) (hcol : batch.columns.head? = some col) :
    (∀ self : DecodeBarcode, (∀ m, (self.process crates params batch).outcome ≠ .panic m) ↔
      self.Fits crates col) ∧
    ∀ g : Generator, (∀ m, (g.process crates params batch).outcome ≠ .panic m) ↔
      g.Fits crates params.arguments col :=
  ⟨fun self => self.process_ne_panic_iff crates params hcol,
    fun g => g.process_ne_panic_iff crates params.arguments params.outputSchema hcol⟩

/-- The symbol of the longest numeric text that a QR code holds, and a detector that reads it. -/
def fullSymbol : RXingResult := ⟨.qrCode,Reference.zeros 7089⟩

/-- The matrix of the largest QR code with its quiet zone, and its file. -/
def fullMatrix : BitMatrix := ⟨185,185,fun x y => (x+y)%2 = 0⟩

def fullPng : Bytes := Reference.writeStored (render fullMatrix)

theorem no_offsetOverflow_iff_fits_fullPng :
    (∀ self : DecodeBarcode, (∀ m, (self.process (Reference.crates fullSymbol)
        ⟨⟨[]⟩,(Reference.vgi.result .utf8).outputSchema⟩
        (.ofColumn [] (.binary [some fullPng]))).outcome ≠ .panic m) ↔
      self.Fits (Reference.crates fullSymbol) (.binary [some fullPng])) ∧
    ∀ g : Generator, (∀ m, (g.process (Reference.crates fullSymbol)
        ⟨⟨[]⟩,(Reference.vgi.result .utf8).outputSchema⟩
        (.ofColumn [] (.binary [some fullPng]))).outcome ≠ .panic m) ↔
      g.Fits (Reference.crates fullSymbol) ⟨[]⟩ (.binary [some fullPng]) :=
  no_offsetOverflow_iff_fits (Reference.crates fullSymbol)
    ⟨⟨[]⟩,(Reference.vgi.result .utf8).outputSchema⟩
    (.ofColumn [] (.binary [some fullPng])) (.binary [some fullPng]) rfl

theorem decodeFirst_fullPng :
    (decodeFirst (Reference.crates fullSymbol) fullPng).outcome = .ok (some (toDecoded fullSymbol)) := by
  have hg : InGuard (render fullMatrix).width (render fullMatrix).height := by
    rw [inGuard_iff_toNat]
    decide
  have hdec := decodeLuma_png Reference.image_luma8 Reference.image_png
    (Reference.writeTo_eq (render fullMatrix)) hg
  rw [fullPng,decodeFirst_of_ok (Reference.crates fullSymbol) hdec]
  rfl

theorem cellText_fullPng : DecodeBarcode.text.cellText (Reference.crates fullSymbol) .largeBinary
    (some fullPng) = .ok (some (Reference.zeros 7089)) := by
  have hrow : DecodeBarcode.text.blobRow (Reference.crates fullSymbol) fullPng =
      some (Reference.zeros 7089) := by
    rw [DecodeBarcode.blobRow,decodeFirst_fullPng]
    rfl
  rw [DecodeBarcode.cellText,DecodeBarcode.cellRow]
  simp only [blobCell,hrow]
  rfl

/-- 303000 small images, whose texts together pass `i32::MAX`. -/
def manyBlobs : Column := ⟨.largeBinary,List.replicate 303000 (some fullPng)⟩

theorem offsetOverflow_manyBlobs : ¬ ∀ m, (DecodeBarcode.text.process
    (Reference.crates fullSymbol) ⟨⟨[]⟩,(Reference.vgi.result .utf8).outputSchema⟩
      (.ofColumn [] manyBlobs)).outcome ≠ .panic m := by
  have hfits : ¬ DecodeBarcode.text.Fits (Reference.crates fullSymbol) manyBlobs := by
    rw [DecodeBarcode.Fits,manyBlobs,Outcome.okPrefix_replicate cellText_fullPng,
      totalSize_replicate,Reference.utf8ByteSize_zeros]
    decide
  have hcol : (RecordBatch.ofColumn [] manyBlobs).columns.head? = some manyBlobs := rfl
  rwa [DecodeBarcode.process_ne_panic_iff _ _ _ hcol]

end BarcodeWorker
