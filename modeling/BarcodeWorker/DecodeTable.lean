import BarcodeWorker.DecodeScalar
import BarcodeWorker.Table

/-!
# The rows of `decode_barcodes` and `barcode_formats`

A producer of either function gives one batch and is exhausted. `fill_outcome` keeps the three
builders of `decode_barcodes` aligned with the enumeration of the symbols, so the batch carries
every symbol once, in the order of detection.
-/

namespace BarcodeWorker

open Barcoding ArrowIo

theorem decodeAll_returns (crates : Crates) (bytes : Bytes) :
    ∃ r, (decodeAll crates bytes).outcome = .ofExcept r := by
  obtain ⟨r,hr⟩ := decodeLuma_returns crates.image bytes
  cases r with
  | error e => exact ⟨.error e,by rw [decodeAll_of_error crates hr]; rfl⟩
  | ok d =>
    exact ⟨.ok (allOf (crates.rxing.detectMultipleInLuma d.1 d.2.1 d.2.2)),
      by rw [decodeAll_of_ok crates hr]; rfl⟩

/-- A blob is an error of one decoder exactly when it is one of the other. -/
theorem decodeAll_error_iff (crates : Crates) (bytes : Bytes) :
    (∃ e, (decodeAll crates bytes).outcome = .error e) ↔
      ∃ e, (decodeFirst crates bytes).outcome = .error e := by
  obtain ⟨r,hr⟩ := decodeLuma_returns crates.image bytes
  cases r with
  | error e => simp [decodeAll_of_error crates hr,decodeFirst_of_error crates hr]
  | ok d => simp [decodeAll_of_ok crates hr,decodeFirst_of_ok crates hr]

theorem formatName_size_pos (f : BarcodeFormat) : 0 < (formatName f).utf8ByteSize := by
  cases f with
  | other name => exact (by decide : 0 < "UNKNOWN".utf8ByteSize)
  | _ => decide

namespace DecodeBarcodes

/-- The symbols of the blob argument. -/
def decoded (crates : Crates) (args : Arguments) : List Decoded :=
  match crates.vgi.constBytes args 0 with
  | none => []
  | some bytes =>
    match (decodeAll crates bytes).outcome with
    | .ok rows => rows
    | _ => []

theorem producer_outcome (crates : Crates) (params : ProcessParams) :
    (producer crates params).outcome =
      .ok ⟨params.outputSchema,decoded crates params.arguments,false⟩ := by
  rw [producer,decoded]
  cases crates.vgi.constBytes params.arguments 0 with
  | none => rfl
  | some bytes =>
    obtain ⟨r,hr⟩ := decodeAll_returns crates bytes
    cases r <;> simp [hr]

/-! ## The row loop -/

section Fill
variable (rows : List Decoded)

/-- The run lemma of the three builders. -/
theorem fill_outcome (start : ℕ) (b : Builders)
    (hf : totalSize String.utf8ByteSize (b.format.rows ++ rows.map fun d => some d.format) ≤ i32Max)
    (ht : totalSize String.utf8ByteSize (b.text.rows ++ rows.map fun d => some d.text) ≤ i32Max) :
    ∃ out, ((rows.zipIdx start).foldlM appendRow b).outcome = .ok out ∧
      out.seq = b.seq ++ (List.range' start rows.length).map (fun i => some (Int64.ofNat i)) ∧
      out.format.rows = b.format.rows ++ rows.map (fun d => some d.format) ∧
      out.text.rows = b.text.rows ++ rows.map fun d => some d.text := by
  induction rows generalizing start b with
  | nil => exact ⟨b,rfl,by simp,by simp,by simp⟩
  | cons d rows ih =>
    have hf' : totalSize String.utf8ByteSize (b.format.rows ++ [some d.format]) ≤ i32Max := by
      simp only [List.map_cons,totalSize_append,totalSize_some,totalSize_nil] at hf ⊢
      omega
    have ht' : totalSize String.utf8ByteSize (b.text.rows ++ [some d.text]) ≤ i32Max := by
      simp only [List.map_cons,totalSize_append,totalSize_some,totalSize_nil] at ht ⊢
      omega
    have hstep : (appendRow b (d,start)).outcome = .ok ⟨b.seq ++ [some (Int64.ofNat start)],
        ⟨b.format.rows ++ [some d.format],hf'⟩,⟨b.text.rows ++ [some d.text],ht'⟩⟩ := by
      simp [appendRow,OffsetBuilder.appendValue_outcome_fits hf',
        OffsetBuilder.appendValue_outcome_fits ht',Int64Builder.appendValue]
    obtain ⟨out,hout,hseq,hformat,htext⟩ := ih (start+1) ⟨b.seq ++ [some (Int64.ofNat start)],
      ⟨b.format.rows ++ [some d.format],hf'⟩,⟨b.text.rows ++ [some d.text],ht'⟩⟩
      (by simpa using hf) (by simpa using ht)
    refine ⟨out,?_,?_,?_,?_⟩
    · rw [List.zipIdx_cons,List.foldlM_cons,Traced.outcome_bind,hstep,Outcome.ok_bind]
      exact hout
    · simp [hseq,List.range'_succ]
    · simp [hformat]
    · simp [htext]

end Fill

/-- The symbols of a blob argument fit the builders. -/
structure Fits (rows : List Decoded) : Prop where
  format : totalSize String.utf8ByteSize (rows.map fun d => some d.format) ≤ i32Max
  text : totalSize String.utf8ByteSize (rows.map fun d => some d.text) ≤ i32Max

/-- A batch with one row for each symbol, numbered from zero. -/
structure Carries (batch : RecordBatch) (rows : List Decoded) : Prop where
  schema : batch.schema = outputSchema
  numRows : batch.numRows = rows.length
  columns : ∃ seq : List Int64, batch.columns = [.int64 (seq.map some),
      .utf8 (rows.map fun d => some d.format),.utf8 (rows.map fun d => some d.text)] ∧
    seq.length = rows.length ∧ ∀ (i : ℕ) n, seq[i]? = some n → n.toInt = i

section Run
variable {crates : Crates} {rows : List Decoded}

theorem admits_columns (seq : List Int64) (hlen : seq.length = rows.length) :
    Schema.Admits outputSchema [.int64 (seq.map some),.utf8 (rows.map fun d => some d.format),
      .utf8 (rows.map fun d => some d.text)] rows.length := by
  refine ⟨by simp,rfl,?_,?_⟩
  · intro p hp hnull cell hc
    simp only [outputSchema,List.zip_cons_cons,List.zip_nil_left,List.mem_cons,
      List.not_mem_nil,or_false] at hp
    rcases hp with rfl | rfl | rfl
    · obtain ⟨n,-,rfl⟩ := List.mem_map.mp hc
      rfl
    · simp at hnull
    · simp at hnull
  · simp [hlen]

/-- Formats of at least one byte each keep the number of rows within the offsets. -/
theorem length_le_i32Max (hfit : Fits rows) (hname : ∀ d ∈ rows, 0 < d.format.utf8ByteSize) :
    rows.length ≤ i32Max := by
  have hpos : ∀ f ∈ rows.map Decoded.format, 0 < f.utf8ByteSize := by
    intro f hf
    obtain ⟨d,hd,rfl⟩ := List.mem_map.mp hf
    exact hname d hd
  have hle := length_le_totalSize String.utf8ByteSize hpos
  rw [List.length_map,List.map_map] at hle
  exact le_trans hle hfit.format

/-- As many numbers do not wrap. -/
theorem seq_getElem? {k : ℕ} (hk : k ≤ i32Max) {i : ℕ} {n : Int64}
    (hn : ((List.range' 0 k).map Int64.ofNat)[i]? = some n) : n.toInt = i := by
  have hmax : i32Max < 2^63 := by decide
  rw [List.getElem?_map,Option.map_eq_some_iff] at hn
  obtain ⟨j,hj,rfl⟩ := hn
  obtain ⟨hi,hget⟩ := List.getElem?_eq_some_iff.mp hj
  rw [List.length_range'] at hi
  obtain rfl : i = j := by simpa using hget
  exact Int64.toInt_ofNat_of_lt (by omega)

/-- The first call gives every symbol, numbered without a wrap. -/
theorem nextBatch_first (ht : crates.arrow.TryNewContract) (hfit : Fits rows)
    (hname : ∀ d ∈ rows, 0 < d.format.utf8ByteSize) :
    ∃ batch, (nextBatch crates ⟨outputSchema,rows,false⟩).1.outcome = .ok (some batch) ∧
      Carries batch rows := by
  obtain ⟨out,hout,hseq,hformat,htext⟩ :=
    fill_outcome rows 0 ⟨[],.new,.new⟩ (by simpa using hfit.format) (by simpa using hfit.text)
  simp only [OffsetBuilder.new_rows,List.nil_append] at hseq hformat htext
  let seq := (List.range' 0 rows.length).map Int64.ofNat
  have hlen : seq.length = rows.length := by simp [seq]
  have hnew := ht outputSchema _ rows.length (admits_columns seq hlen)
  have hcols : [out.seq.finish,StringBuilder.finish out.format,StringBuilder.finish out.text] =
      [.int64 (seq.map some),.utf8 (rows.map fun d => some d.format),
        .utf8 (rows.map fun d => some d.text)] := by
    simp only [Int64Builder.finish,StringBuilder.finish,hseq,hformat,htext,seq,List.map_map]
    rfl
  refine ⟨⟨outputSchema,_,rows.length,(admits_columns seq hlen).aligned⟩,?_,rfl,rfl,seq,rfl,hlen,?_⟩
  · simp only [nextBatch,Bool.false_eq_true,if_false,Traced.outcome_bind,hout,Outcome.ok_bind,
      tryNew,hcols,hnew]
    rfl
  · intro i n hn
    exact seq_getElem? (length_le_i32Max hfit hname) hn

end Run

/-- What the table function has to return for a blob argument: all that `decode_all` finds, and
nothing where there is no blob, no image or no barcode. -/
structure DecodesAll (crates : Crates) (args : Arguments) (rows : List Decoded) : Prop where
  null : crates.vgi.constBytes args 0 = none → rows = []
  all : ∀ blob, crates.vgi.constBytes args 0 = some blob →
    (∃ ds, (decodeAll crates blob).outcome = .ok ds ∧ rows = ds) ∨
      ∃ e, (decodeAll crates blob).outcome = .error e ∧ rows = []
  rejected : ∀ blob e, crates.vgi.constBytes args 0 = some blob →
    (decodeLuma crates.image blob).outcome = .error e → rows = []
  detected : ∀ blob luma w h, crates.vgi.constBytes args 0 = some blob →
    (decodeLuma crates.image blob).outcome = .ok (luma,w,h) →
    rows = match crates.rxing.detectMultipleInLuma luma w h with
      | .ok rs => rs.map fun r => ⟨formatName r.barcodeFormat,r.text⟩
      | .error _ => []

theorem decoded_decodesAll (crates : Crates) (args : Arguments) :
    DecodesAll crates args (decoded crates args) := by
  constructor
  · intro hnone
    rw [decoded,hnone]
  · intro blob hblob
    rw [decoded,hblob]
    obtain ⟨r,hr⟩ := decodeAll_returns crates blob
    cases r with
    | ok ds => exact .inl ⟨ds,hr,by simp only [hr,Outcome.ofExcept_ok]⟩
    | error e => exact .inr ⟨e,hr,by simp only [hr,Outcome.ofExcept_error]⟩
  · intro blob e hblob he
    rw [decoded,hblob]
    simp only [decodeAll_of_error crates he]
  · intro blob luma w h hblob hluma
    rw [decoded,hblob]
    simp only [decodeAll_of_ok crates hluma]
    cases crates.rxing.detectMultipleInLuma luma w h <;> rfl

/-- The rows come from the detector, so their formats are canonical names. -/
theorem format_size_pos (crates : Crates) (args : Arguments) :
    ∀ d ∈ decoded crates args, 0 < d.format.utf8ByteSize := by
  have hall := decoded_decodesAll crates args
  intro d hd
  cases hb : crates.vgi.constBytes args 0 with
  | none => simp [hall.null hb] at hd
  | some blob =>
    obtain ⟨r,hr⟩ := decodeLuma_returns crates.image blob
    cases r with
    | error e => simp [hall.rejected blob e hb hr] at hd
    | ok found =>
      obtain ⟨luma,w,h⟩ := found
      rw [hall.detected blob luma w h hb hr] at hd
      cases hm : crates.rxing.detectMultipleInLuma luma w h with
      | error e => simp [hm] at hd
      | ok rs =>
        rw [hm] at hd
        obtain ⟨r,-,rfl⟩ := List.mem_map.mp hd
        exact formatName_size_pos r.barcodeFormat

/-- Over any run, `decode_barcodes` gives every symbol of its blob once, in one batch. -/
theorem decodeBarcodes_run (crates : Crates) (ht : crates.arrow.TryNewContract)
    (args : Arguments) (hfit : Fits (decoded crates args)) (response : BindResponse)
    (hbind : (onBind ⟨args⟩).outcome = .ok response) :
    (∃ start batch, (producer crates ⟨args,response.outputSchema⟩).outcome = .ok start ∧
      Carries batch (decoded crates args) ∧
      ∀ k, answers (nextBatch crates) (k+1) start =
          .ok (some batch) :: List.replicate k (.ok none) ∧
        batchesOf (answers (nextBatch crates) (k+1) start) = [batch]) ∧
    DecodesAll crates args (decoded crates args) ∧
    ∀ blob, (∃ e, (decodeAll crates blob).outcome = .error e) ↔
      ∃ e, (decodeFirst crates blob).outcome = .error e := by
  refine ⟨?_,decoded_decodesAll crates args,decodeAll_error_iff crates⟩
  obtain rfl : (⟨outputSchema,[]⟩ : BindResponse) = response := Outcome.ok.inj hbind
  obtain ⟨batch,hfirst,hcarries⟩ := nextBatch_first ht hfit (format_size_pos crates args)
  have hdone : Exhausted (nextBatch crates)
      (nextBatch crates ⟨outputSchema,decoded crates args,false⟩).2 := rfl
  refine ⟨_,batch,producer_outcome crates _,hcarries,fun k => ?_⟩
  have hrun := answers_oneShot hdone hfirst k
  exact ⟨hrun,by rw [hrun,batchesOf_oneShot]⟩

theorem decodeBarcodes_run_hello :
    (∃ start batch, (producer (Reference.crates Reference.hello)
        ⟨⟨[some (.blob Reference.onePixel)]⟩,outputSchema⟩).outcome = .ok start ∧
      Carries batch [⟨"QR_CODE","hello world"⟩] ∧
      ∀ k, answers (nextBatch (Reference.crates Reference.hello)) (k+1) start =
          .ok (some batch) :: List.replicate k (.ok none) ∧
        batchesOf (answers (nextBatch (Reference.crates Reference.hello)) (k+1) start) = [batch]) :=
  (decodeBarcodes_run (Reference.crates Reference.hello) Reference.arrow_tryNew
    ⟨[some (.blob Reference.onePixel)]⟩ ⟨by decide,by decide⟩
    ⟨outputSchema,[]⟩ rfl).1

end DecodeBarcodes

namespace BarcodeFormats

theorem fill_formats (formats : List String) (b : StringBuilder)
    (hfit : totalSize String.utf8ByteSize (b.rows ++ formats.map some) ≤ i32Max) :
    ∃ out : StringBuilder, (formats.foldlM (fun (b : StringBuilder) f => b.appendValue f) b :
      Run RpcError StringBuilder).outcome = .ok out ∧ out.rows = b.rows ++ formats.map some := by
  induction formats generalizing b with
  | nil => exact ⟨b,rfl,by simp⟩
  | cons f formats ih =>
    have hf : totalSize String.utf8ByteSize (b.rows ++ [some f]) ≤ i32Max := by
      simp only [List.map_cons,totalSize_append,totalSize_some,totalSize_nil] at hfit ⊢
      omega
    obtain ⟨out,hout,hrows⟩ := ih ⟨b.rows ++ [some f],hf⟩ (by simpa using hfit)
    refine ⟨out,?_,by simp [hrows]⟩
    rw [List.foldlM_cons,Traced.outcome_bind,OffsetBuilder.appendValue_outcome_fits hf,
      Outcome.ok_bind]
    exact hout

/-- Over any run, `barcode_formats` lists the supported formats once, as many as the catalog
declares. -/
theorem barcodeFormats_run (crates : Crates) (ht : crates.arrow.TryNewContract)
    (args : Arguments) (response : BindResponse)
    (hbind : (onBind ⟨args⟩).outcome = .ok response) : ∃ start batch,
      (producer ⟨args,response.outputSchema⟩).outcome = .ok start ∧ batch.schema = outputSchema ∧
      batch.columns = [.utf8 (supportedFormats.map some)] ∧ batch.numRows = supportedFormatCount ∧
      ∀ k, answers (nextBatch crates) (k+1) start =
        .ok (some batch) :: List.replicate k (.ok none) := by
  obtain rfl : (⟨outputSchema,[]⟩ : BindResponse) = response := Outcome.ok.inj hbind
  have hfit : totalSize String.utf8ByteSize (supportedFormats.map some) ≤ i32Max := by decide
  obtain ⟨out,hout,hrows⟩ := fill_formats supportedFormats .new (by simpa using hfit)
  rw [OffsetBuilder.new_rows,List.nil_append] at hrows
  have ha : Schema.Admits outputSchema [.utf8 (supportedFormats.map some)]
      supportedFormatCount := by
    refine ⟨by simp,rfl,?_,by decide⟩
    intro p hp _ cell hc
    obtain rfl : p = (⟨"format",.utf8,false⟩,.utf8 (supportedFormats.map some)) := by
      simpa [outputSchema] using hp
    obtain ⟨f,-,rfl⟩ := List.mem_map.mp hc
    rfl
  have hnew := ht _ _ _ ha
  have hfirst : (nextBatch crates ⟨outputSchema,false⟩).1.outcome =
      .ok (some ⟨outputSchema,_,supportedFormatCount,ha.aligned⟩) := by
    simp only [nextBatch,Bool.false_eq_true,if_false,Traced.outcome_bind,hout,Outcome.ok_bind,
      tryNew,StringBuilder.finish,hrows,hnew]
    rfl
  have hdone : Exhausted (nextBatch crates) (nextBatch crates ⟨outputSchema,false⟩).2 := rfl
  exact ⟨_,_,rfl,rfl,rfl,rfl,answers_oneShot hdone hfirst⟩

end BarcodeFormats
end BarcodeWorker
