import BarcodeWorker.RoundTrip
import BarcodeWorker.ScanLaws
import BarcodeWorker.Session

/-!
# Generated columns, read back

Where the detector reads the symbols of a column back from their rendered matrices, decoding
inverts generation on the whole column, in any batches, and generating again from the decoded
texts gives the same files. Without a detector, a file still determines the matrix it was made of,
and a scan asks the encoder for exactly the texts of the cells it comes to.
-/

namespace BarcodeWorker

open Barcoding ArrowIo

/-! ## Symbols that are read back -/

/-- The matrix of a text lies in the guard, and the detector reads the text and the format back
from it. -/
def Request.ReadBack (rxing : Rxing) (request : Request) (text : String) : Prop :=
  ∀ m, rxing.encode text request.format request.width.toInt32 request.height.toInt32 = .ok m →
    InGuard m.width m.height ∧
    rxing.detectInLuma (render m).pixels.data m.width m.height = .ok ⟨request.format,text⟩

/-- A value that is the file of a text. -/
def Request.FileOf (crates : Crates) (request : Request) (v : TypedValue) (text : String) : Prop :=
  ∃ m png, v = .binary png ∧ Draws crates text request.format request.width request.height m ∧
    writePng crates.image (render m) = .ok png

/-- A column of texts, in whatever string type. -/
def HoldsTexts (cells : List (Option TypedValue)) (texts : List (Option String)) : Prop :=
  List.Forall₂ (Option.Rel fun v s => v.text = .ok (some s)) cells texts

theorem holdsTexts_utf8 (texts : List (Option String)) :
    HoldsTexts (texts.map (Option.map .utf8)) texts := by
  induction texts with
  | nil => exact .nil
  | cons text texts ih =>
    cases text with
    | none => exact .cons .none ih
    | some s => exact .cons (.some rfl) ih

section Rows
variable {crates : Crates} {request : Request}

/-- A row that a text comes to is its file. -/
theorem fileOf_of_row {v : TypedValue} {s : String} (hv : v.text = .ok (some s))
    {row : Option TypedValue} (hrow : (request.rowFunction crates v).outcome = .ok row) :
    ∃ file, row = some file ∧ request.FileOf crates file s := by
  have htext : textCell v.dataType (some v.value) = .ok (some s) := hv
  rw [Request.rowFunction,Traced.outcome_map,request.cellRun_outcome crates] at hrow
  cases hcell : request.cellImage crates v.dataType (some v.value) with
  | error e => simp [hcell] at hrow
  | panic m => simp [hcell] at hrow
  | ok image =>
    rw [hcell] at hrow
    obtain ⟨hnull,hfile⟩ := Request.cellImage_row hcell
    cases image with
    | none => simpa using hnull.mp rfl
    | some png =>
      obtain ⟨text,ht,hok⟩ := (hfile png).mp rfl
      obtain rfl : s = text := by simpa [htext] using ht
      obtain ⟨m,hd,hw⟩ := (generate_eq_ok_iff png).mp hok
      exact ⟨.binary png,(Outcome.ok.inj hrow).symm,m,png,rfl,hd,hw⟩

/-- A text whose file is known comes to that file again, in whatever type it is. -/
theorem row_of_fileOf {file v : TypedValue} {s : String} (hv : v.text = .ok (some s))
    (hf : request.FileOf crates file s) :
    (request.rowFunction crates v).outcome = .ok (some file) := by
  obtain ⟨m,png,rfl,hd,hw⟩ := hf
  have htext : textCell v.dataType (some v.value) = .ok (some s) := hv
  rw [Request.rowFunction,Traced.outcome_map,request.cellRun_outcome crates,
    Request.cellImage_of_draws htext hd hw]
  rfl

/-- The file of a text that is read back decodes to the text and the format. -/
theorem decode_fileOf (hl : crates.image.Luma8Contract) (hp : crates.image.PngContract)
    (decoder : DecodeBarcode) {file : TypedValue} {s : String} (hf : request.FileOf crates file s)
    (hread : request.ReadBack crates.rxing s) : (decoder.rowFunction crates file).outcome =
      .ok (some (.utf8 (decoder.project ⟨formatName request.format,s⟩))) := by
  obtain ⟨m,png,rfl,hd,hw⟩ := hf
  obtain ⟨hg,hdetect⟩ := hread m hd.encoded
  have hrow : decoder.cellRow crates .binary (some png) =
      some (decoder.project ⟨formatName request.format,s⟩) := by
    calc decoder.cellRow crates .binary (some png) = decoder.blobRow crates png := rfl
      _ = decodedText crates decoder m := blobRow_png hl hp hw
      _ = some (decoder.project ⟨formatName request.format,s⟩) := by
        rw [decodedText,if_pos hg,hdetect]
        rfl
  have hblob : blobCell .binary (some png) = .ok (some png) := rfl
  rw [DecodeBarcode.rowFunction,Traced.outcome_map]
  simp only [TypedValue.binary]
  rw [decoder.cellRun_outcome crates,DecodeBarcode.cellText,hrow,hblob]
  rfl

end Rows

/-! ## Files and matrices -/

/-- Matrices of one size with the same modules. -/
structure SameModules (m m' : BitMatrix) : Prop where
  width : m.width = m'.width
  height : m.height = m'.height
  get : ∀ x y, x < m.width.toNat → y < m.height.toNat → m.get x y = m'.get x y

/-- Rendering keeps the modules and nothing else. -/
theorem render_eq_iff (m m' : BitMatrix) : render m = render m' ↔ SameModules m m' := by
  constructor
  · intro h
    have hw : m.width = m'.width := congrArg GrayImage.width h
    have hh : m.height = m'.height := congrArg GrayImage.height h
    refine ⟨hw,hh,fun x y hx hy => ?_⟩
    have hd : (render m).pixels.data = (render m').pixels.data := by rw [h]
    have hpix := render_getElem? m hx hy
    rw [hd,hw,render_getElem? m' (by rw [← hw]; exact hx) (by rw [← hh]; exact hy)] at hpix
    by_cases hm : m.get x y = true
    · by_contra hne
      have hm' : m'.get x y = false := by simpa [hm] using Ne.symm hne
      simp [hm,hm'] at hpix
    · by_contra hne
      have hm' : m'.get x y = true := by simpa [hm] using Ne.symm hne
      simp [hm,hm'] at hpix
  · rintro ⟨hw,hh,hget⟩
    obtain ⟨w,h,get⟩ := m
    obtain ⟨w',h',get'⟩ := m'
    obtain rfl : w = w' := hw
    obtain rfl : h = h' := hh
    have hcell : (fun (x : Fin w.toNat) (y : Fin h.toNat) => if get x y then (0 : UInt8) else 255) =
        fun (x : Fin w.toNat) (y : Fin h.toNat) => if get' x y then 0 else 255 := by
      funext x y
      have hxy : get x y = get' x y := hget x y x.isLt y.isLt
      rw [hxy]
    show GrayImage.mk w h _ = GrayImage.mk w h _
    rw [hcell]

/-- The file of a request and the modules of its matrix determine each other, across requests of
any two texts, formats and sizes. -/
theorem generated_file_eq_iff (crates : Crates) (hp : crates.image.PngContract)
    (text text' : String) (format format' : BarcodeFormat) (w h w' h' : UInt32) (m m' : BitMatrix)
    (hd : Draws crates text format w h m) (hd' : Draws crates text' format' w' h' m')
    (png png' : Bytes) (hok : (generate crates text format w h).outcome = .ok png)
    (hok' : (generate crates text' format' w' h').outcome = .ok png') :
    png = png' ↔ SameModules m m' := by
  obtain ⟨m₁,hd₁,hw⟩ := (generate_eq_ok_iff png).mp hok
  obtain ⟨m₂,hd₂,hw'⟩ := (generate_eq_ok_iff png').mp hok'
  obtain rfl := hd.unique hd₁
  obtain rfl := hd'.unique hd₂
  rw [← render_eq_iff]
  constructor
  · rintro rfl
    obtain ⟨d,hdec,hluma⟩ := hp.pixels _ _ hw
    obtain ⟨d',hdec',hluma'⟩ := hp.pixels _ _ hw'
    obtain rfl : d = d' := Except.ok.inj (hdec.symm.trans hdec')
    exact hluma.symm.trans hluma'
  · intro hrender
    rw [hrender] at hw
    exact Except.ok.inj (hw.symm.trans hw')

/-- The matrix that the reference encoder draws at the default size. -/
def helloMatrix : BitMatrix := ⟨256,256,fun x y => (x+y)%2 = 0⟩

def helloPng : Bytes := Reference.writeStored (render helloMatrix)

theorem draws_hello (text : String) (ht : text ≠ "") (detected : RXingResult) :
    Draws (Reference.crates detected) text .qrCode 256 256 helloMatrix :=
  ⟨ht,rfl,by decide,by decide⟩

theorem generated_file_eq_iff_hello :
    fullPng = helloPng ↔ SameModules fullMatrix helloMatrix := by
  have hd : Draws (Reference.crates fullSymbol) "hi" .aztec 1 1 fullMatrix :=
    ⟨by decide,rfl,by decide,by decide⟩
  have hd' := draws_hello "hello world" (by decide) fullSymbol
  exact generated_file_eq_iff (Reference.crates fullSymbol) Reference.image_png "hi" "hello world"
    .aztec .qrCode 1 1 256 256 fullMatrix helloMatrix hd hd' fullPng helloPng
    ((generate_eq_ok_iff fullPng).mpr ⟨fullMatrix,hd,Reference.writeTo_eq (render fullMatrix)⟩)
    ((generate_eq_ok_iff helloPng).mpr ⟨helloMatrix,hd',Reference.writeTo_eq (render helloMatrix)⟩)

/-! ## Columns -/

section Columns
variable {crates : Crates} {request : Request}

/-- The files of a column of texts. -/
def HoldsFiles (crates : Crates) (request : Request) (cells : List (Option TypedValue))
    (texts : List (Option String)) : Prop :=
  List.Forall₂ (Option.Rel (request.FileOf crates)) cells texts

theorem holdsFiles_of_lift {cells rows : List (Option TypedValue)} {texts : List (Option String)}
    (htexts : HoldsTexts cells texts)
    (hlift : ((request.rowFunction crates).lift cells).outcome = .ok rows) :
    HoldsFiles crates request rows texts := by
  rw [RowFunction.lift_eq_ok_iff] at hlift
  induction htexts generalizing rows with
  | nil =>
    cases hlift
    exact .nil
  | cons hc _ ih =>
    cases hlift with
    | cons hrow hrest =>
      refine .cons ?_ (ih hrest)
      cases hc with
      | none =>
        obtain rfl := Outcome.ok.inj hrow
        exact .none
      | some hv =>
        obtain ⟨file,rfl,hfile⟩ := fileOf_of_row hv hrow
        exact .some hfile

theorem lift_of_holdsFiles {cells rows : List (Option TypedValue)} {texts : List (Option String)}
    (htexts : HoldsTexts cells texts) (hfiles : HoldsFiles crates request rows texts) :
    ((request.rowFunction crates).lift cells).outcome = .ok rows := by
  rw [RowFunction.lift_eq_ok_iff]
  induction htexts generalizing rows with
  | nil =>
    cases hfiles
    exact .nil
  | cons hc _ ih =>
    cases hfiles with
    | cons hfile hrest =>
      refine .cons ?_ (ih hrest)
      cases hc with
      | none =>
        cases hfile
        rfl
      | some hv =>
        cases hfile with
        | some hf => exact row_of_fileOf hv hf

theorem lift_decode_of_holdsFiles (hl : crates.image.Luma8Contract)
    (hp : crates.image.PngContract) (decoder : DecodeBarcode) {cells : List (Option TypedValue)}
    {texts : List (Option String)} (hfiles : HoldsFiles crates request cells texts)
    (hread : ∀ s, some s ∈ texts → request.ReadBack crates.rxing s) :
    ((decoder.rowFunction crates).lift cells).outcome = .ok (texts.map (Option.map fun s =>
      .utf8 (decoder.project ⟨formatName request.format,s⟩))) := by
  rw [RowFunction.lift_eq_ok_iff]
  induction hfiles with
  | nil => exact .nil
  | cons hc _ ih =>
    refine .cons ?_ (ih fun s hs => hread s (by simp [hs]))
    cases hc with
    | none => rfl
    | some hf => exact decode_fileOf hl hp decoder hf (hread _ (by simp))

end Columns

def helloTexts : List (Option String) := [none,some "hello world"]

def helloFile : TypedValue := .binary helloPng

theorem fileOf_hello : Request.FileOf (Reference.crates Reference.hello) ⟨.qrCode,256,256⟩ helloFile
    "hello world" :=
  ⟨helloMatrix,helloPng,rfl,draws_hello "hello world" (by decide) Reference.hello,
    Reference.writeTo_eq (render helloMatrix)⟩

theorem readBack_hello :
    Request.ReadBack (Reference.rxing Reference.hello) ⟨.qrCode,256,256⟩ "hello world" := by
  intro m hm
  have he : (Reference.rxing Reference.hello).encode "hello world" .qrCode (256 : UInt32).toInt32
      (256 : UInt32).toInt32 = .ok helloMatrix := rfl
  obtain rfl : helloMatrix = m := Except.ok.inj (he.symm.trans hm)
  exact ⟨by decide,rfl⟩

/-- A scan of the greeting gives its file. -/
theorem boundScan_hello : ∃ files, ((ScalarFunction.generate (.qr .plain)).boundScan
    (Reference.crates Reference.hello) ⟨[]⟩ [.ofColumn [] (.utf8 helloTexts)]).outcome = .ok files ∧
      files.flatMap RecordBatch.values = [none,some helloFile] := by
  have hlen := Reference.length_png_le helloMatrix 8192 (by decide)
  have hmax : 8192+17 ≤ i32Max := by decide
  have hfiles : HoldsFiles (Reference.crates Reference.hello) ⟨.qrCode,256,256⟩
      [none,some helloFile] helloTexts := .cons .none (.cons (.some fileOf_hello) .nil)
  have hlift := lift_of_holdsFiles (holdsTexts_utf8 helloTexts) hfiles
  refine ScalarFunction.boundScan_of_lift Reference.vgi_bind Reference.arrow_tryNew
    (by simp [RecordBatch.ofColumn]) rfl hlift ?_
  rw [totalSize_none,totalSize_some,totalSize_nil,Nat.add_zero,helloFile,TypedValue.size_binary]
  exact le_trans hlen hmax

/-- What a call asks of the encoder. -/
def Call.encoded : Call → Option (String × BarcodeFormat × Int32 × Int32)
  | .encode text format w h => some (text,format,w,h)
  | _ => none

/-- The text that a cell has to encode. -/
def encodable (cell : Option TypedValue) : Option String :=
  cell.bind fun v =>
    match v.text with
    | .ok (some s) => if s = "" then none else some s
    | _ => none

/-- What a request asks of the encoder for a text. -/
def Request.asked (request : Request) (text : String) : String × BarcodeFormat × Int32 × Int32 :=
  (text,request.format,request.width.toInt32,request.height.toInt32)

theorem Request.cellRun_trace (crates : Crates) (request : Request) {t : DataType}
    {cell : Option t.Native} {s : String} (htext : textCell t cell = .ok (some s)) :
    (request.cellRun crates t cell).trace = (request.image crates s).trace := by
  rw [cellRun,htext]
  exact Traced.trace_map some ((request.image crates s).mapErr ve)

theorem Request.image_encoded (crates : Crates) (request : Request) (s : String) :
    (request.image crates s).trace.filterMap Call.encoded =
      if s = "" then [] else [request.asked s] := by
  by_cases hd : ∃ m, Draws crates s request.format request.width request.height m
  · obtain ⟨m,hd⟩ := hd
    rw [image,generate_of_draws hd,if_neg hd.text_ne]
    rfl
  · obtain ⟨e,-,ht⟩ := generate_of_not_draws fun m hm => hd ⟨m,hm⟩
    rw [image,ht]
    by_cases hs : s = ""
    · rw [if_pos hs,if_pos hs]
      rfl
    · rw [if_neg hs,if_neg hs]
      rfl

/-- A cell asks the encoder once if it has a text to encode, and else not at all. -/
theorem Request.onCell_encoded (crates : Crates) (request : Request) (cell : Option TypedValue) :
    ((request.rowFunction crates).onCell cell).trace.filterMap Call.encoded =
      ((encodable cell).map request.asked).toList := by
  cases cell with
  | none => rfl
  | some v =>
    rw [RowFunction.onCell_some,rowFunction,Traced.trace_map,encodable,Option.bind_some,
      TypedValue.text]
    cases htext : textCell v.dataType (some v.value) with
    | error e => rw [cellRun,htext]; rfl
    | ok text =>
      cases text with
      | none => rw [cellRun,htext]; rfl
      | some s =>
        rw [cellRun_trace crates request htext,image_encoded]
        by_cases hs : s = ""
        · simp [hs]
        · simp [hs]

/-- A scan of a generator that does not panic asks the encoder for exactly the texts of the cells it
comes to, each once and in order: of all cells where it succeeds, and of those up to the first that
fails where it does not. -/
theorem scan_encodes_exact (crates : Crates) (hb : crates.vgi.BindContract)
    (ht : crates.arrow.TryNewContract) (g : Generator) (args : Arguments) (request : Request)
    (hr : g.resolve crates args = .ok request) (batches : List RecordBatch)
    (hne : ∀ batch ∈ batches, batch.columns ≠ [])
    (hpanic : ∀ m, ((ScalarFunction.generate g).boundScan crates args batches).outcome ≠ .panic m) :
    ∃ cells, cells <+: batches.flatMap RecordBatch.values ∧
      ((ScalarFunction.generate g).boundScan crates args batches).trace.filterMap Call.encoded =
        (cells.filterMap encodable).map request.asked ∧
      (∀ outs, ((ScalarFunction.generate g).boundScan crates args batches).outcome = .ok outs →
        cells = batches.flatMap RecordBatch.values) ∧
      ∀ e, ((ScalarFunction.generate g).boundScan crates args batches).outcome = .error e →
        ∃ pre c, cells = pre ++ [c] ∧ ((request.rowFunction crates).onCell c).outcome = .error e ∧
          ∀ c' ∈ pre, ∃ r, ((request.rowFunction crates).onCell c').outcome = .ok r := by
  have hmeaning : (ScalarFunction.generate g).meaning crates args =
      .ok (request.rowFunction crates) := by
    rw [ScalarFunction.meaning,hr]
    rfl
  have hfits := (ScalarFunction.boundScan_ne_panic_iff hb ht hne).mp hpanic _ hmeaning
  have hscan := ScalarFunction.boundScan_of_meaning hb ht hmeaning hne hfits
  have houtcome := congrArg Traced.outcome hscan
  have htrace := congrArg Traced.trace hscan
  rw [Traced.outcome_map] at houtcome
  rw [Traced.trace_map,RowFunction.lift_trace] at htrace
  have hasked : ((ScalarFunction.generate g).boundScan crates args batches).trace.filterMap
      Call.encoded = (((request.rowFunction crates).reached (batches.flatMap RecordBatch.values)
        ).filterMap encodable).map request.asked := by
    rw [htrace,List.filterMap_flatMap,List.map_filterMap,List.filterMap_eq_flatMap_toList]
    simp only [request.onCell_encoded crates]
  cases hout : ((ScalarFunction.generate g).boundScan crates args batches).outcome with
  | panic m => exact absurd hout (hpanic m)
  | ok outs =>
    rw [hout] at houtcome
    have hall := RowFunction.reached_of_ok houtcome.symm
    exact ⟨_,by rw [hall],hasked,fun _ _ => hall,fun e he => by cases he⟩
  | error e =>
    rw [hout] at houtcome
    obtain ⟨pre,c,post,hcells,hreached,hc,hpre⟩ := RowFunction.reached_of_error houtcome.symm
    refine ⟨_,?_,hasked,fun outs ho => (by cases ho),fun e' he => ?_⟩
    · rw [hreached,hcells]
      exact ⟨post,by simp⟩
    · obtain rfl : e = e' := Outcome.error.inj he
      exact ⟨pre,c,hreached,hc,hpre⟩

theorem scan_encodes_exact_hello :
    ((ScalarFunction.generate (.qr .plain)).boundScan (Reference.crates Reference.hello) ⟨[]⟩
      [.ofColumn [] (.utf8 helloTexts)]).trace.filterMap Call.encoded =
        [("hello world",.qrCode,256,256)] := by
  obtain ⟨files,hfiles,-⟩ := boundScan_hello
  obtain ⟨cells,-,hasked,hall,-⟩ := scan_encodes_exact (Reference.crates Reference.hello)
    Reference.vgi_bind Reference.arrow_tryNew (.qr .plain) ⟨[]⟩ ⟨.qrCode,256,256⟩ rfl
    [.ofColumn [] (.utf8 helloTexts)] (by simp [RecordBatch.ofColumn])
    (by simp [hfiles])
  rw [hasked,hall files hfiles]
  decide

/-! ## Tables -/

/-- The symbols of a matrix: those found on its rendering, and none outside the guard. -/
def symbolsOf (crates : Crates) (m : BitMatrix) : List Decoded :=
  if InGuard m.width m.height then
    match crates.rxing.detectMultipleInLuma (render m).pixels.data m.width m.height with
    | .ok rs => rs.map toDecoded
    | .error _ => []
  else []

theorem decoded_png {crates : Crates} (hl : crates.image.Luma8Contract)
    (hp : crates.image.PngContract) {m : BitMatrix} {png : Bytes}
    (hw : writePng crates.image (render m) = .ok png) {args : Arguments}
    (hargs : crates.vgi.constBytes args 0 = some png) :
    DecodeBarcodes.decoded crates args = symbolsOf crates m := by
  have hall := DecodeBarcodes.decoded_decodesAll crates args
  by_cases hg : InGuard m.width m.height
  · have hdec := decodeLuma_png hl hp hw hg
    rw [hall.detected png _ _ _ hargs hdec,symbolsOf,if_pos hg]
    rfl
  · obtain ⟨e,he⟩ := decodeLuma_png_error hp hw hg
    rw [hall.rejected png e hargs he,symbolsOf,if_neg hg]

/-- Over any run, `decode_barcodes` of a generated file gives the symbols of its matrix once: those
that the detector finds on the rendering, or none where the matrix is outside the guard. -/
theorem generated_table_run (crates : Crates) (hl : crates.image.Luma8Contract)
    (hp : crates.image.PngContract) (ht : crates.arrow.TryNewContract) (text : String)
    (format : BarcodeFormat) (w h : UInt32) (m : BitMatrix) (hd : Draws crates text format w h m)
    (png : Bytes) (hok : (generate crates text format w h).outcome = .ok png) (args : Arguments)
    (hargs : crates.vgi.constBytes args 0 = some png)
    (hfit : DecodeBarcodes.Fits (symbolsOf crates m)) (response : BindResponse)
    (hbind : (TableFunction.decodeBarcodes.onBind ⟨args⟩).outcome = .ok response) :
    ∃ p batch, (TableFunction.decodeBarcodes.producer crates
        ⟨args,response.outputSchema⟩).outcome = .ok p ∧
      DecodeBarcodes.Carries batch (symbolsOf crates m) ∧
      ∀ k, answers (TableProducer.nextBatch crates) (k+1) p =
        .ok (some batch) :: List.replicate k (.ok none) := by
  obtain ⟨m',hd',hw⟩ := (generate_eq_ok_iff png).mp hok
  obtain rfl := hd.unique hd'
  have hrows := decoded_png hl hp hw hargs
  rw [← hrows] at hfit ⊢
  have hroom : TableFunction.decodeBarcodes.Fits crates args := hfit
  exact TableFunction.producer_oneShot ht hroom hbind

/-- The file of the greeting, as a constant. -/
def helloBlob : Arguments := ⟨[some (.blob helloPng)]⟩

theorem symbolsOf_hello : symbolsOf (Reference.crates Reference.hello) helloMatrix =
    [⟨"QR_CODE","hello world"⟩] := by
  have hg : InGuard helloMatrix.width helloMatrix.height := by decide
  rw [symbolsOf,if_pos hg]
  rfl

theorem generated_table_run_hello : ∃ batch, DecodeBarcodes.Carries batch
    (symbolsOf (Reference.crates Reference.hello) helloMatrix) := by
  have hd := draws_hello "hello world" (by decide) Reference.hello
  obtain ⟨p,batch,-,hcarries,-⟩ := generated_table_run (Reference.crates Reference.hello)
    Reference.image_luma8 Reference.image_png Reference.arrow_tryNew "hello world" .qrCode 256 256
    helloMatrix hd helloPng
    ((generate_eq_ok_iff helloPng).mpr ⟨helloMatrix,hd,Reference.writeTo_eq (render helloMatrix)⟩)
    helloBlob rfl
    (by
      rw [symbolsOf_hello]
      exact ⟨by decide,by decide⟩)
    ⟨DecodeBarcodes.outputSchema,[]⟩ rfl
  exact ⟨batch,hcarries⟩

end BarcodeWorker
