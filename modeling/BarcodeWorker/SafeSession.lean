import BarcodeWorker.ScanLaws
import BarcodeWorker.Session

/-!
# Safety of sessions

Within the limits of the builders no call of a session panics, whatever came before it: every open
producer keeps rows that it can still put into a batch. What calls may fail, and how, is stated
with it: a value error of a generator or of a column that holds no blobs, and nothing else. So the
calls that decode untrusted blobs never fail.
-/

namespace BarcodeWorker

open Barcoding ArrowIo

/-! ## Errors of a row -/

def RpcError.IsValueError : RpcError → Prop
  | .valueError _ => True
  | .runtimeError _ => False

theorem blobCell_error {t : DataType} {v : t.Native} {e : RpcError}
    (he : blobCell t (some v) = .error e) : e.IsValueError ∧ t.isBlob = false := by
  cases t <;> cases he <;> exact ⟨trivial,rfl⟩

theorem textCell_error {t : DataType} {v : t.Native} {e : RpcError}
    (he : textCell t (some v) = .error e) : e.IsValueError := by
  cases t <;> cases he <;> trivial

theorem Request.refuses_isValueError {crates : Crates} {request : Request} {t : DataType}
    {v : t.Native} {e : RpcError} (h : request.Refuses crates t (some v) e) : e.IsValueError := by
  rcases h with he | ⟨text,b,-,-,rfl⟩
  · exact textCell_error he
  · trivial

theorem isValueError_of_mapError {α : Type} {x : Except BarcodeError α} {e : RpcError}
    (he : x.mapError ve = .error e) : e.IsValueError := by
  cases x with
  | ok a => cases he
  | error b =>
    obtain rfl : ve b = e := Except.error.inj he
    trivial

theorem Generator.formatOf_error {crates : Crates} {g : Generator} {args : Arguments} {e : RpcError}
    (he : g.formatOf crates args = .error e) : e.IsValueError := by
  cases g with
  | qr f => cases he
  | barcode f =>
    rw [formatOf,GenerateBarcode.formatArg] at he
    cases hc : crates.vgi.constStr args 1 with
    | none =>
      obtain rfl : GenerateBarcode.formatRequired = e := by simpa [hc] using he
      trivial
    | some fmt =>
      rw [hc] at he
      exact isValueError_of_mapError he

theorem Generator.sizeOf_error {crates : Crates} {g : Generator} {args : Arguments} {e : RpcError}
    (he : g.sizeOf crates args = .error e) : e.IsValueError := by
  rw [sizeOf,sizePx] at he
  by_cases hs : g.withSize
  · rw [if_pos hs] at he
    cases hc : crates.vgi.constI64 args g.sizePos with
    | none => simp [hc] at he
    | some n =>
      rw [hc] at he
      exact isValueError_of_mapError he
  · rw [if_neg hs] at he
    cases he

theorem Generator.resolve_error {crates : Crates} {g : Generator} {args : Arguments} {e : RpcError}
    (he : g.resolve crates args = .error e) : e.IsValueError := by
  rw [resolve] at he
  cases hf : g.formatOf crates args with
  | error e' =>
    obtain rfl : e' = e := Except.error.inj (by rw [hf] at he; exact he)
    exact formatOf_error hf
  | ok format =>
    cases hs : g.sizeOf crates args with
    | error e' =>
      obtain rfl : e' = e := Except.error.inj (by rw [hf,hs] at he; exact he)
      exact sizeOf_error hs
    | ok px =>
      rw [hf,hs] at he
      cases he

namespace ScalarFunction

section Errors
variable {crates : Crates} {args : Arguments} {f : ScalarFunction}
  {r : RowFunction Call RpcError TypedValue TypedValue}

/-- Only a generator refuses its constants. -/
theorem meaning_error {e : RpcError} (he : f.meaning crates args = .error e) :
    e.IsValueError ∧ ∃ g, f = .generate g := by
  cases f with
  | decode f => cases he
  | generate g =>
    cases hr : g.resolve crates args with
    | error e' =>
      obtain rfl : e' = e := by simpa [meaning,hr,Except.map] using he
      exact ⟨Generator.resolve_error hr,g,rfl⟩
    | ok request => simp [meaning,hr,Except.map] at he

/-- A decoder fails on a value of another type than a blob, and on nothing else. -/
theorem onCell_error (hr : f.meaning crates args = .ok r) {c : Option TypedValue} {e : RpcError}
    (he : (r.onCell c).outcome = .error e) :
    e.IsValueError ∧ ((∃ g, f = .generate g) ∨ ∃ v, c = some v ∧ v.dataType.isBlob = false) := by
  cases c with
  | none => cases he
  | some v =>
    cases f with
    | decode f =>
      obtain rfl : f.rowFunction crates = r := by simpa [meaning] using hr
      rw [RowFunction.onCell_some,DecodeBarcode.rowFunction,Traced.outcome_map,
        f.cellRun_outcome crates,DecodeBarcode.cellText] at he
      cases hb : blobCell v.dataType (some v.value) with
      | ok bytes => simp [hb] at he
      | error e' =>
        obtain rfl : e' = e := by simpa [hb] using he
        exact ⟨(blobCell_error hb).1,.inr ⟨v,rfl,(blobCell_error hb).2⟩⟩
    | generate g =>
      cases hreq : g.resolve crates args with
      | error e' => simp [meaning,hreq,Except.map] at hr
      | ok request =>
        obtain rfl : request.rowFunction crates = r := by simpa [meaning,hreq,Except.map] using hr
        rw [RowFunction.onCell_some,Request.rowFunction,Traced.outcome_map,
          request.cellRun_outcome crates] at he
        cases hc : request.cellImage crates v.dataType (some v.value) with
        | ok row => simp [hc] at he
        | panic m => simp [hc] at he
        | error e' =>
          obtain rfl : e' = e := by simpa [hc] using he
          exact ⟨Request.refuses_isValueError (Request.cellImage_error hc).2.2,.inl ⟨g,rfl⟩⟩

/-- A batch under the declared schema that has room: a batch comes back, or a value error. -/
theorem process_answers (hb : crates.vgi.BindContract) (ht : crates.arrow.TryNewContract)
    {batch : RecordBatch} (hne : batch.columns ≠ [])
    (hfit : ∀ r, f.meaning crates args = .ok r → r.Fits TypedValue.size i32Max batch.values) :
    (∃ out, (f.process crates ⟨args,(crates.vgi.result f.returnType).outputSchema⟩ batch).outcome =
      .ok out) ∨
    ∃ e, (f.process crates ⟨args,(crates.vgi.result f.returnType).outputSchema⟩ batch).outcome =
      .error e ∧ e.IsValueError ∧
      ((∃ g, f = .generate g) ∨ ∃ v, some v ∈ batch.values ∧ v.dataType.isBlob = false) := by
  cases hr : f.meaning crates args with
  | error e =>
    obtain ⟨hvalue,hgen⟩ := meaning_error hr
    exact .inr ⟨e,by rw [process_error hr],hvalue,.inl hgen⟩
  | ok r =>
    have hlift := process_refines hb ht hr hne (hfit r hr)
    cases hout : (f.process crates ⟨args,(crates.vgi.result f.returnType).outputSchema⟩
        batch).outcome with
    | ok out => exact .inl ⟨out,rfl⟩
    | panic m => exact absurd hout ((process_ne_panic_iff hr _ hne).mpr (hfit r hr) m)
    | error e =>
      have he := congrArg Traced.outcome hlift
      rw [Traced.outcome_map,hout,RowFunction.lift,Traced.outcome_mapM] at he
      obtain ⟨pre,c,post,hsplit,-,hc⟩ := (Outcome.mapM_eq_error_iff _ _ _).mp he.symm
      obtain ⟨hvalue,hcause⟩ := onCell_error hr hc
      refine .inr ⟨e,rfl,hvalue,hcause.imp_right ?_⟩
      rintro ⟨v,rfl,hv⟩
      exact ⟨v,by simp [hsplit],hv⟩

end Errors
end ScalarFunction

/-! ## Open producers -/

/-- What an open producer has still to give fits a batch under its schema. -/
def TableProducer.Ready : TableProducer → Prop
  | .decode p => p.schema = DecodeBarcodes.outputSchema ∧ DecodeBarcodes.Fits p.rows ∧
      ∀ d ∈ p.rows, 0 < d.format.utf8ByteSize
  | .formats p => p.schema = BarcodeFormats.outputSchema

/-- A pull of a ready producer is answered, and leaves it ready. -/
theorem TableProducer.nextBatch_ready {crates : Crates} (ht : crates.arrow.TryNewContract)
    {p : TableProducer} (hp : p.Ready) :
    (∃ b, (p.nextBatch crates).1.outcome = .ok b) ∧ (p.nextBatch crates).2.Ready := by
  cases p with
  | decode p =>
    obtain ⟨schema,rows,done⟩ := p
    obtain ⟨rfl,hfit,hname⟩ := hp
    cases done with
    | true => exact ⟨⟨none,rfl⟩,rfl,hfit,hname⟩
    | false =>
      obtain ⟨batch,hfirst,-⟩ := DecodeBarcodes.nextBatch_first ht hfit hname
      exact ⟨⟨some batch,hfirst⟩,rfl,hfit,hname⟩
  | formats p =>
    obtain ⟨schema,done⟩ := p
    obtain rfl : schema = BarcodeFormats.outputSchema := hp
    cases done with
    | true => exact ⟨⟨none,rfl⟩,rfl⟩
    | false =>
      obtain ⟨start,batch,hstart,-,-,-,hrun⟩ :=
        BarcodeFormats.barcodeFormats_run crates ht ⟨[]⟩ ⟨BarcodeFormats.outputSchema,[]⟩ rfl
      obtain rfl : (⟨BarcodeFormats.outputSchema,false⟩ : BarcodeFormats.FormatsProducer) = start :=
        Outcome.ok.inj hstart
      have hfirst := (List.cons.inj (hrun 0)).1
      exact ⟨⟨some batch,hfirst⟩,rfl⟩

/-- Opening a scan whose rows fit always works, and gives a ready producer. -/
theorem TableFunction.producer_ready {crates : Crates} {t : TableFunction} {args : Arguments}
    (hfit : t.Fits crates args) {response : BindResponse}
    (hbind : (t.onBind ⟨args⟩).outcome = .ok response) :
    ∃ p, (t.producer crates ⟨args,response.outputSchema⟩).outcome = .ok p ∧ p.Ready := by
  cases t with
  | decodeBarcodes =>
    obtain rfl : (⟨DecodeBarcodes.outputSchema,[]⟩ : BindResponse) = response :=
      Outcome.ok.inj hbind
    refine ⟨.decode ⟨DecodeBarcodes.outputSchema,DecodeBarcodes.decoded crates args,false⟩,?_,rfl,
      hfit,DecodeBarcodes.format_size_pos crates args⟩
    rw [producer,Traced.outcome_map,DecodeBarcodes.producer_outcome]
    rfl
  | barcodeFormats =>
    obtain rfl : (⟨BarcodeFormats.outputSchema,[]⟩ : BindResponse) = response :=
      Outcome.ok.inj hbind
    exact ⟨.formats ⟨BarcodeFormats.outputSchema,false⟩,rfl,rfl⟩

/-! ## Sessions -/

section Sessions
variable {ι : Type} [DecidableEq ι] {crates : Crates}

/-- A scan uses the schema that its bind declared, a batch has a column, and what comes of it
fits the builders. -/
def Event.WithinLimits (crates : Crates) : Event ι → Prop
  | .process f params batch => params.outputSchema = (crates.vgi.result f.returnType).outputSchema ∧
      batch.columns ≠ [] ∧ ∀ r, f.meaning crates params.arguments = .ok r →
        r.Fits TypedValue.size i32Max batch.values
  | .openScan _ t params => (∃ response, (t.onBind ⟨params.arguments⟩).outcome = .ok response ∧
      params.outputSchema = response.outputSchema) ∧ t.Fits crates params.arguments
  | _ => True

/-- The calls that may fail: those of a generator, and of a decoder that is given no blobs. -/
def Event.MayFail : Event ι → Prop
  | .bindScalar f _ => ∃ g, f = .generate g
  | .process f _ batch =>
    (∃ g, f = .generate g) ∨ ∃ v, some v ∈ batch.values ∧ v.dataType.isBlob = false
  | _ => False

/-- An answer, or a value error of a call that may fail. -/
def Served.Answered (entry : Served ι) : Prop :=
  (∃ a, entry.run.outcome = .ok a) ∨
    ∃ e, entry.run.outcome = .error e ∧ e.IsValueError ∧ entry.event.MayFail

def Streams.Ready (s : Streams ι) : Prop := ∀ id p, s id = some p → p.Ready

theorem Streams.Ready.update {s : Streams ι} (hs : s.Ready) (id : ι) {p : TableProducer}
    (hp : p.Ready) : Streams.Ready (Function.update s id (some p)) := by
  intro id' p' hp'
  by_cases hid : id' = id
  · rw [hid,Function.update_self] at hp'
    obtain rfl : p = p' := Option.some.inj hp'
    exact hp
  · rw [Function.update_of_ne hid] at hp'
    exact hs id' p' hp'

/-- One call within the limits is answered, and keeps every open producer ready. -/
theorem Step.answered (hb : crates.vgi.BindContract) (ht : crates.arrow.TryNewContract)
    {s s' : Streams ι} {e : Event ι} {x : Run RpcError Answer} (h : Step crates s e x s')
    (hs : s.Ready) (hlim : e.WithinLimits crates) : Served.Answered ⟨e,x⟩ ∧ s'.Ready := by
  cases h with
  | bindScalar f params =>
    refine ⟨?_,hs⟩
    have hbind : (f.onBind crates params).outcome =
        (fun _ => crates.vgi.result f.returnType) <$>
          Outcome.ofExcept (f.meaning crates params.arguments) := by
      rw [ScalarFunction.onBind_eq]
      cases f.meaning crates params.arguments <;> rfl
    rw [Served.Answered,Traced.outcome_map,hbind]
    cases hr : f.meaning crates params.arguments with
    | ok r => exact .inl ⟨_,rfl⟩
    | error e =>
      obtain ⟨hvalue,hgen⟩ := ScalarFunction.meaning_error hr
      exact .inr ⟨e,rfl,hvalue,hgen⟩
  | process f params batch =>
    refine ⟨?_,hs⟩
    obtain ⟨hschema,hne,hfit⟩ := hlim
    obtain ⟨args,schema⟩ := params
    obtain rfl : schema = (crates.vgi.result f.returnType).outputSchema := hschema
    rw [Served.Answered,Traced.outcome_map]
    rcases ScalarFunction.process_answers hb ht hne hfit with ⟨out,hout⟩ | ⟨e,he,hvalue,hcause⟩
    · exact .inl ⟨.batch out,by rw [hout]; rfl⟩
    · exact .inr ⟨e,by rw [he]; rfl,hvalue,hcause⟩
  | bindTable t params => exact ⟨.inl (by cases t <;> exact ⟨_,rfl⟩),hs⟩
  | openScan id t params =>
    obtain ⟨⟨response,hbind,hschema⟩,hfit⟩ := hlim
    obtain ⟨args,schema⟩ := params
    obtain rfl : schema = response.outputSchema := hschema
    obtain ⟨p,hp,hready⟩ := TableFunction.producer_ready hfit hbind
    refine ⟨.inl ⟨.opened,?_⟩,?_⟩
    · rw [Traced.outcome_map,hp]
      rfl
    · rw [hp]
      exact hs.update id hready
  | nextBatch id p hp =>
    obtain ⟨⟨b,hb⟩,hready⟩ := TableProducer.nextBatch_ready ht (hs id p hp)
    refine ⟨.inl ⟨.next b,?_⟩,hs.update id hready⟩
    rw [Traced.outcome_map,hb]
    rfl

end Sessions

theorem formatName_size_le (f : BarcodeFormat) : (formatName f).utf8ByteSize ≤ 25 := by
  cases f with
  | other name => exact (by decide : "UNKNOWN".utf8ByteSize ≤ 25)
  | _ => decide

/-- Rows of format names take 25 bytes at most. -/
theorem DecodeBarcode.format_totalSize_le (crates : Crates) {t : DataType}
    (cells : List (Option t.Native)) :
    totalSize String.utf8ByteSize (Outcome.okPrefix (DecodeBarcode.format.cellText crates t) cells) ≤
      cells.length*25 := by
  refine totalSize_okPrefix_le String.utf8ByteSize fun cell _ row hrow => ?_
  cases hbytes : blobCell t cell with
  | error e => simp [cellText,hbytes] at hrow
  | ok bytes =>
    obtain rfl : DecodeBarcode.format.cellRow crates t cell = row := by
      simpa [cellText,hbytes] using hrow
    rw [cellRow,hbytes]
    cases bytes with
    | none => simp
    | some bytes =>
      rcases blobRow_cases crates bytes with ⟨-,hnone⟩ | ⟨r,-,hsome⟩
      · simp [hnone]
      · have hname : DecodeBarcode.format.project (toDecoded r) = formatName r.barcodeFormat := rfl
        simpa [hsome,hname] using formatName_size_le r.barcodeFormat

/-- A detector that reads the symbol with the longest name. -/
def longestName : RXingResult := ⟨.rectangularMicroQrCode,""⟩

theorem longestName_fits_iff (k : ℕ) : DecodeBarcode.format.Fits (Reference.crates longestName)
    (.binary (List.replicate k (some Reference.onePixel))) ↔ k*25 ≤ i32Max := by
  have hrow : DecodeBarcode.format.cellText (Reference.crates longestName) .binary
      (some Reference.onePixel) = .ok (some "RECTANGULAR_MICRO_QR_CODE") := by rfl
  have hsize : "RECTANGULAR_MICRO_QR_CODE".utf8ByteSize = 25 := by decide
  have hpre := Outcome.okPrefix_replicate hrow k
  show totalSize String.utf8ByteSize (Outcome.okPrefix (DecodeBarcode.format.cellText
    (Reference.crates longestName) .binary) (List.replicate k (some Reference.onePixel))) ≤ i32Max ↔ _
  rw [hpre,totalSize_replicate,hsize]

/-- `barcode_format` never runs out of offsets on batches of up to 85,899,345 rows, whatever the
crates answer, and on no larger batches is that so. -/
theorem barcodeFormat_capacity (n : ℕ) :
    (∀ (crates : Crates) (params : ProcessParams) (batch : RecordBatch), batch.columns ≠ [] →
      batch.numRows ≤ n →
      ∀ m, (DecodeBarcode.format.process crates params batch).outcome ≠ .panic m) ↔
    n ≤ 85899345 := by
  constructor
  · intro h
    let col : Column := .binary (List.replicate n (some Reference.onePixel))
    have hcol : (RecordBatch.ofColumn [] col).columns.head? = some col := rfl
    have hrows : (RecordBatch.ofColumn [] col).numRows = n := List.length_replicate
    have hsafe := h (Reference.crates longestName) ⟨⟨[]⟩,[]⟩ (.ofColumn [] col)
      (List.cons_ne_nil _ _) (le_of_eq hrows)
    rw [DecodeBarcode.process_ne_panic_iff _ _ _ hcol,longestName_fits_iff] at hsafe
    have hmax : i32Max = 2147483647 := rfl
    omega
  · intro hn crates params batch hne hrows
    have hcol := List.head?_eq_some_head hne
    rw [DecodeBarcode.process_ne_panic_iff _ _ _ hcol,DecodeBarcode.Fits]
    have hsize := DecodeBarcode.format_totalSize_le crates (batch.columns.head hne).cells
    have hlen := RecordBatch.length_cells hcol
    have hmax : i32Max = 2147483647 := rfl
    omega

end BarcodeWorker
