import BarcodeWorker.Protocol
import BarcodeWorker.Session

/-!
# The calls of a session

What the worker asks of `image` and `rxing` comes in rounds, one for a blob and one for a text.
A session makes at most one round for each value of the scanned batches and each blob of a table
scan, in whatever order its calls come and whatever they end in. That a pixel decode follows its
probe, and a detector its decode, are facts about one round.
-/

namespace BarcodeWorker

open Barcoding ArrowIo

/-! ## Rounds -/

/-- The calls for one blob. -/
inductive DecodeRound : List Call → Prop
  | unrecognised : DecodeRound [.withGuessedFormat]
  | rejected (w h : UInt32) (hout : ¬ InGuard w h) :
    DecodeRound [.withGuessedFormat,.intoDimensions (.ok (w,h))]
  | undecoded (answer : Except String (UInt32 × UInt32)) (hpass : ProbePasses answer) :
    DecodeRound [.withGuessedFormat,.intoDimensions answer,.withGuessedFormat,.decode]
  | first (answer : Except String (UInt32 × UInt32)) (hpass : ProbePasses answer) (luma : Bytes)
    (w h : UInt32) (hin : InGuard w h) (hlen : luma.length = w.toNat*h.toNat) :
    DecodeRound [.withGuessedFormat,.intoDimensions answer,.withGuessedFormat,.decode,
      .detectInLuma luma w h]
  | all (answer : Except String (UInt32 × UInt32)) (hpass : ProbePasses answer) (luma : Bytes)
    (w h : UInt32) (hin : InGuard w h) (hlen : luma.length = w.toNat*h.toNat) :
    DecodeRound [.withGuessedFormat,.intoDimensions answer,.withGuessedFormat,.decode,
      .detectMultipleInLuma luma w h]

/-- Dimensions that an accepted size asks of the encoder. -/
def AcceptedDims (format : BarcodeFormat) (w h : Int32) : Prop :=
  ∃ n : ℕ, 1 ≤ n ∧ n ≤ 4096 ∧ w.toInt = n ∧
    h.toInt = if isTwoD format then (n : ℤ) else max 64 (n/4)

/-- The calls for one text. -/
inductive EncodeRound : List Call → Prop
  | refused (text : String) (format : BarcodeFormat) (w h : Int32) (htext : text ≠ "")
    (hdims : AcceptedDims format w h) : EncodeRound [.encode text format w h]
  | drawn (text : String) (format : BarcodeFormat) (w h : Int32) (htext : text ≠ "")
    (hdims : AcceptedDims format w h) (mw mh : UInt32) (hw : mw ≠ 0) (hh : mh ≠ 0) :
    EncodeRound [.encode text format w h,.writeTo mw mh]

def callRounds : Language Call := {t | DecodeRound t ∨ EncodeRound t}

/-- Decoding to grayscale is a whole round, or one that goes on to a detector. -/
theorem decodeLuma_round (crates : Crates) (blob : Bytes) :
    ((∃ e, (decodeLuma crates.image blob).outcome = .error e) ∧
      ((decodeLuma crates.image blob).trace = [] ∨
        DecodeRound (decodeLuma crates.image blob).trace)) ∨
    ∃ luma w h answer, (decodeLuma crates.image blob).outcome = .ok (luma,w,h) ∧
      ProbePasses answer ∧ (decodeLuma crates.image blob).trace =
        [.withGuessedFormat,.intoDimensions answer,.withGuessedFormat,.decode] := by
  by_cases hrec : ∃ reader, Recognised crates.image blob reader
  · obtain ⟨reader,hrec⟩ := hrec
    by_cases hpass : ProbePasses (crates.image.intoDimensions reader)
    · have hrun := decodeLuma_decoding hrec hpass
      cases hd : decodedLuma crates.image reader with
      | error e => exact .inl ⟨⟨e,by rw [hrun,hd]; rfl⟩,.inr (by rw [hrun]; exact .undecoded _ hpass)⟩
      | ok d =>
        obtain ⟨luma,w,h⟩ := d
        exact .inr ⟨luma,w,h,_,by rw [hrun,hd]; rfl,hpass,by rw [hrun]⟩
    · simp only [ProbePasses,not_forall] at hpass
      obtain ⟨w,h,hd,hout⟩ := hpass
      obtain ⟨e,hrun⟩ := decodeLuma_rejected hrec hd hout
      exact .inl ⟨⟨e,by rw [hrun]⟩,.inr (by rw [hrun]; exact .rejected w h hout)⟩
  · obtain ⟨e,hrun | hrun⟩ := decodeLuma_unrecognised fun reader hr => hrec ⟨reader,hr⟩
    · exact .inl ⟨⟨e,by rw [hrun]⟩,.inl (by rw [hrun])⟩
    · exact .inl ⟨⟨e,by rw [hrun]⟩,.inr (by rw [hrun]; exact .unrecognised)⟩

section Rounds
variable {crates : Crates} (hl : crates.image.Luma8Contract)

include hl in
theorem decodeFirst_follows (blob : Bytes) : (decodeFirst crates blob).Follows callRounds 1 := by
  rcases decodeLuma_round crates blob with ⟨⟨e,he⟩,ht⟩ | ⟨luma,w,h,answer,hd,hpass,ht⟩
  · rw [decodeFirst_of_error crates he]
    rcases ht with ht | ht
    · exact Traced.follows_of_trace_nil ht 1
    · exact Traced.follows_of_trace_mem (.inl ht)
  · obtain ⟨hin,hlen⟩ := decodeLuma_bounds hl hd
    rw [decodeFirst_of_ok crates hd,ht]
    exact Traced.follows_of_trace_mem (.inl (.first answer hpass luma w h hin hlen))

include hl in
theorem decodeAll_follows (blob : Bytes) : (decodeAll crates blob).Follows callRounds 1 := by
  rcases decodeLuma_round crates blob with ⟨⟨e,he⟩,ht⟩ | ⟨luma,w,h,answer,hd,hpass,ht⟩
  · rw [decodeAll_of_error crates he]
    rcases ht with ht | ht
    · exact Traced.follows_of_trace_nil ht 1
    · exact Traced.follows_of_trace_mem (.inl ht)
  · obtain ⟨hin,hlen⟩ := decodeLuma_bounds hl hd
    rw [decodeAll_of_ok crates hd,ht]
    exact Traced.follows_of_trace_mem (.inl (.all answer hpass luma w h hin hlen))

theorem generate_follows {text : String} {format : BarcodeFormat} {w h : UInt32}
    (hdims : AcceptedDims format w.toInt32 h.toInt32) :
    (generate crates text format w h).Follows callRounds 1 := by
  by_cases hd : ∃ m, Draws crates text format w h m
  · obtain ⟨m,hd⟩ := hd
    rw [generate_of_draws hd]
    exact Traced.follows_of_trace_mem
      (.inr (.drawn text format _ _ hd.text_ne hdims m.width m.height hd.width_ne hd.height_ne))
  · obtain ⟨e,-,ht⟩ := generate_of_not_draws fun m hm => hd ⟨m,hm⟩
    by_cases htext : text = ""
    · exact Traced.follows_of_trace_nil (by rw [ht,if_pos htext]) 1
    · rw [if_neg htext] at ht
      refine Traced.follows_of_trace_mem ?_
      rw [ht]
      exact .inr (.refused text format _ _ htext hdims)

end Rounds

/-! ## Scans -/

/-- The values among the cells of a column. -/
def valueCount {α : Type} (cells : List (Option α)) : ℕ := cells.countP Option.isSome

theorem sum_map_isSome {α : Type} (cells : List (Option α)) :
    (cells.map fun c => if c.isSome then 1 else 0).sum = valueCount cells := by
  induction cells with
  | nil => rfl
  | cons c cells ih => cases c <;> simp_all [valueCount,Nat.add_comm]

section Scans
variable {crates : Crates}

/-- A pass makes a round for each value, if a row does. -/
theorem columnLoop_follows {α : Type} {size : α → ℕ} {schema : Schema} {batch : RecordBatch}
    {row : Column → ℕ → Run RpcError (Option α)} {finish : List (Option α) → Column}
    (hrow : ∀ (col : Column) i c, col.cells[i]? = some c →
      (row col i).Follows callRounds (if c.isSome then 1 else 0)) :
    (columnLoop size crates schema batch row finish).Follows callRounds (valueCount batch.values) := by
  cases hcols : batch.columns with
  | nil =>
    have hempty : column0 batch = .crash indexOutOfBounds := by rw [column0,hcols]
    refine Traced.follows_of_trace_nil ?_ _
    rw [columnLoop,hempty]
    rfl
  | cons col cols =>
    have hcol : batch.columns.head? = some col := by rw [hcols,List.head?_cons]
    let cost : ℕ → ℕ := fun i => col.cells[i]?.elim 0 fun c => if c.isSome then 1 else 0
    have hturn : ∀ i ∈ List.range col.cells.length, ∀ b : OffsetBuilder α size i32Max,
        (rowStep (row col) b i).Follows callRounds (cost i) := by
      intro i hi b
      have hget := List.getElem?_eq_getElem (List.mem_range.mp hi)
      have hfirst := hrow col i _ hget
      rw [Traced.Follows] at hfirst
      rw [Traced.Follows,rowStep_trace]
      simpa only [cost,hget,Option.elim_some] using hfirst
    have hloop := Traced.Follows.foldlM hturn .new
    have hsum : ((List.range col.cells.length).map cost).sum = valueCount col.cells := by
      have hcost : (List.range col.cells.length).map cost =
          (col.cells.map some).map fun c => c.elim 0 fun c => if c.isSome then 1 else 0 := by
        rw [← map_range_getElem?,List.map_map]
        rfl
      rw [hcost,List.map_map,← sum_map_isSome]
      rfl
    have hcount : valueCount batch.values = valueCount col.cells := by
      rw [RecordBatch.values_eq hcol,Column.values,valueCount,List.countP_map]
      congr 1
      funext c
      exact Option.isSome_map
    rw [hsum] at hloop
    rw [Traced.Follows,columnLoop_trace crates schema hcol row finish,hcount]
    exact hloop

theorem DecodeBarcode.row_follows (hl : crates.image.Luma8Contract) (decoder : DecodeBarcode)
    (col : Column) (i : ℕ) (c : Option col.dataType.Native) (hc : col.cells[i]? = some c) :
    (decoder.row crates col i).Follows callRounds (if c.isSome then 1 else 0) := by
  rw [decoder.row_eq_cellRun crates hc,cellRun]
  cases c with
  | none =>
    have hnone : blobCell col.dataType none = .ok none := by cases col.dataType <;> rfl
    exact Traced.follows_of_trace_nil (by rw [hnone]; rfl) _
  | some v =>
    cases hblob : blobCell col.dataType (some v) with
    | error e => exact Traced.follows_of_trace_nil rfl _
    | ok bytes =>
      cases bytes with
      | none => exact Traced.follows_of_trace_nil rfl _
      | some bytes =>
        have hdec : ((decodeFirst crates bytes).attempt : Run RpcError _).Follows callRounds 1 :=
          decodeFirst_follows hl bytes
        rw [Option.isSome_some,if_pos rfl]
        refine Traced.Follows.silent_bind rfl fun _ ho => ?_
        obtain rfl := Outcome.ok.inj ho
        refine hdec.bind (n := 0) fun first _ => Traced.follows_of_trace_nil ?_ 0
        cases first with
        | error e => rfl
        | ok found => cases found <;> rfl

theorem Request.row_follows {request : Request}
    (hdims : AcceptedDims request.format request.width.toInt32 request.height.toInt32)
    (col : Column) (i : ℕ) (c : Option col.dataType.Native) (hc : col.cells[i]? = some c) :
    (request.row crates col i).Follows callRounds (if c.isSome then 1 else 0) := by
  rw [request.row_eq_cellRun crates hc,cellRun]
  cases c with
  | none => exact Traced.follows_of_trace_nil (by rw [textCell_none]; rfl) _
  | some v =>
    cases htext : textCell col.dataType (some v) with
    | error e => exact Traced.follows_of_trace_nil rfl _
    | ok text =>
      cases text with
      | none => exact Traced.follows_of_trace_nil rfl _
      | some text =>
        have himage : ((request.image crates text).mapErr ve).Follows callRounds 1 :=
          generate_follows hdims
        rw [Option.isSome_some,if_pos rfl]
        refine Traced.Follows.silent_bind rfl fun _ ho => ?_
        obtain rfl := Outcome.ok.inj ho
        exact himage.map some

/-- The dimensions of a resolved request are those of an accepted size. -/
theorem acceptedDims_of_resolve {g : Generator} {args : Arguments} {request : Request}
    (hr : g.resolve crates args = .ok request) :
    AcceptedDims request.format request.width.toInt32 request.height.toInt32 := by
  have hasks := Generator.asks_of_resolve hr
  have hsize : 1 ≤ request.width.toNat ∧ request.width.toNat ≤ 4096 := by
    have hdef : defaultGeneratePx.toNat = 256 := rfl
    have hs := hasks.size
    split_ifs at hs
    · rcases hs with ⟨-,hw⟩ | ⟨n,-,hpos,hle,hw⟩
      · rw [hw,hdef]
        decide
      · omega
    · rw [hs,hdef]
      decide
  have hheight := hasks.height
  have hle : request.height.toNat ≤ 4096 := by
    rw [hheight]
    split_ifs <;> omega
  refine ⟨request.width.toNat,hsize.1,hsize.2,toInt_toInt32 hsize.2,?_⟩
  rw [toInt_toInt32 hle,hheight]
  split_ifs <;> omega

theorem ScalarFunction.process_follows (hl : crates.image.Luma8Contract) (f : ScalarFunction)
    (params : ProcessParams) (batch : RecordBatch) :
    (f.process crates params batch).Follows callRounds (valueCount batch.values) := by
  cases f with
  | decode f =>
    rw [process,DecodeBarcode.process_eq_columnLoop]
    exact columnLoop_follows fun col i c hc => f.row_follows hl col i c hc
  | generate g =>
    rw [process,Generator.process_eq]
    cases hr : g.resolve crates params.arguments with
    | error e => exact Traced.follows_of_trace_nil rfl _
    | ok request =>
      have hloop : (columnLoop List.length crates params.outputSchema batch (request.row crates)
          .binary).Follows callRounds (valueCount batch.values) :=
        columnLoop_follows fun col i c hc =>
          Request.row_follows (acceptedDims_of_resolve hr) col i c hc
      exact hloop

end Scans

/-! ## Sessions -/

section Sessions
variable {ι : Type} [DecidableEq ι] {crates : Crates}

/-- What a call may cost: a round for each value of a batch, and one for the blob of a table scan. -/
def Event.budget (crates : Crates) : Event ι → ℕ
  | .process _ _ batch => valueCount batch.values
  | .openScan _ .decodeBarcodes params => (crates.vgi.constBytes params.arguments 0).elim 0 fun _ => 1
  | _ => 0

def sessionTrace (log : List (Served ι)) : List Call := log.flatMap fun entry => entry.run.trace

def sessionBudget (crates : Crates) (log : List (Served ι)) : ℕ :=
  (log.map fun entry => entry.event.budget crates).sum

theorem ScalarFunction.onBind_trace (f : ScalarFunction) (params : BindParams) :
    (f.onBind crates params).trace = [] := by
  cases f with
  | decode f => rfl
  | generate g =>
    rw [onBind,Generator.onBind_eq]
    cases g.resolve crates params.arguments <;> rfl

theorem DecodeBarcodes.producer_follows (hl : crates.image.Luma8Contract) (params : ProcessParams) :
    (DecodeBarcodes.producer crates params).Follows callRounds
      ((crates.vgi.constBytes params.arguments 0).elim 0 fun _ => 1) := by
  rw [DecodeBarcodes.producer]
  cases crates.vgi.constBytes params.arguments 0 with
  | none => exact Traced.follows_of_trace_nil rfl 0
  | some bytes =>
    have hall : ((decodeAll crates bytes).attempt : Run RpcError _).Follows callRounds 1 :=
      decodeAll_follows hl bytes
    exact hall.bind (n := 0) fun rows _ => Traced.follows_of_trace_nil (by cases rows <;> rfl) 0

/-! Cutting a batch out of a producer calls nothing. -/

theorem appendValue_silent {α : Type} {size : α → ℕ} (b : OffsetBuilder α size i32Max) (a : α) :
    (b.appendValue a : Run RpcError _).Follows callRounds 0 :=
  Traced.follows_of_trace_nil (OffsetBuilder.append_trace b (some a)) 0

theorem tryNew_silent (schema : Schema) (columns : List Column) :
    (tryNew crates schema columns).Follows callRounds 0 := Traced.follows_of_trace_nil rfl 0

theorem DecodeBarcodes.appendRow_silent (b : Builders) (row : Decoded × ℕ) :
    (appendRow b row).Follows callRounds 0 :=
  (appendValue_silent b.format row.1.format).bind fun _ _ =>
    (appendValue_silent b.text row.1.text).map _

theorem DecodeBarcodes.nextBatch_silent (p : DecodeProducer) :
    (nextBatch crates p).1.Follows callRounds 0 := by
  by_cases hdone : p.done
  · rw [nextBatch,if_pos hdone]
    exact Traced.follows_of_trace_nil rfl 0
  · rw [nextBatch,if_neg hdone]
    have hrows : (p.rows.zipIdx.foldlM appendRow ⟨[],.new,.new⟩).Follows callRounds
        (p.rows.zipIdx.map fun _ => 0).sum :=
      Traced.Follows.foldlM (fun row _ b => appendRow_silent b row) _
    rw [List.map_const',List.sum_replicate_nat,Nat.mul_zero] at hrows
    exact hrows.bind fun out _ => (tryNew_silent p.schema _).map some

theorem BarcodeFormats.nextBatch_silent (p : FormatsProducer) :
    (nextBatch crates p).1.Follows callRounds 0 := by
  by_cases hdone : p.done
  · rw [nextBatch,if_pos hdone]
    exact Traced.follows_of_trace_nil rfl 0
  · rw [nextBatch,if_neg hdone]
    have hrows : (supportedFormats.foldlM (fun (b : StringBuilder) f => b.appendValue f) .new :
        Run RpcError _).Follows callRounds (supportedFormats.map fun _ => 0).sum :=
      Traced.Follows.foldlM (fun f _ b => appendValue_silent b f) .new
    rw [List.map_const',List.sum_replicate_nat,Nat.mul_zero] at hrows
    exact hrows.bind fun out _ => (tryNew_silent p.schema _).map some

theorem TableProducer.nextBatch_silent (p : TableProducer) :
    (p.nextBatch crates).1.Follows callRounds 0 := by
  cases p with
  | decode p => exact DecodeBarcodes.nextBatch_silent p
  | formats p => exact BarcodeFormats.nextBatch_silent p

/-- What one call asks of the crates is within its budget. -/
theorem Step.follows (hl : crates.image.Luma8Contract) {s s' : Streams ι} {e : Event ι}
    {x : Run RpcError Answer} (h : Step crates s e x s') : x.Follows callRounds (e.budget crates) := by
  cases h with
  | bindScalar f params =>
    exact Traced.follows_of_trace_nil (by rw [Traced.trace_map,ScalarFunction.onBind_trace]) _
  | process f params batch => exact (f.process_follows hl params batch).map Answer.batch
  | bindTable t params =>
    exact Traced.follows_of_trace_nil (by rw [Traced.trace_map]; cases t <;> rfl) _
  | openScan id t params =>
    refine Traced.Follows.map ?_ _
    cases t with
    | decodeBarcodes => exact (DecodeBarcodes.producer_follows hl params).map TableProducer.decode
    | barcodeFormats => exact Traced.follows_of_trace_nil rfl 0
  | nextBatch id p hp => exact p.nextBatch_silent.map Answer.next

theorem Session.trace_mem_rounds (hl : crates.image.Luma8Contract) {s s' : Streams ι}
    {log : List (Served ι)} (h : Session crates s log s') :
    sessionTrace log ∈ Rounds callRounds (sessionBudget crates log) := by
  induction h with
  | nil => exact nil_mem_rounds 0
  | cons first _ ih =>
    rw [sessionTrace,List.flatMap_cons,sessionBudget,List.map_cons,List.sum_cons]
    exact append_mem_rounds (first.follows hl) ih

end Sessions

/-! ## The order of the calls -/

/-- A call that decodes pixels or draws a symbol. -/
def Call.isHeavy : Call → Bool
  | .decode => true
  | .encode .. => true
  | _ => false

/-- How the calls of a run stand to each other, and how many they are for `n` values. -/
structure CallOrder (trace : List Call) (n : ℕ) : Prop where
  decode : ∀ pre post, trace = pre ++ .decode :: post → ∃ before answer, ProbePasses answer ∧
    pre = before ++ [.withGuessedFormat,.intoDimensions answer,.withGuessedFormat]
  detect : ∀ pre post luma w h, trace = pre ++ .detectInLuma luma w h :: post ∨
      trace = pre ++ .detectMultipleInLuma luma w h :: post →
    InGuard w h ∧ luma.length = w.toNat*h.toNat ∧ ∃ before, pre = before ++ [.decode]
  encode : ∀ pre post text format w h, trace = pre ++ .encode text format w h :: post →
    text ≠ "" ∧ AcceptedDims format w h
  writeTo : ∀ pre post w h, trace = pre ++ .writeTo w h :: post → w ≠ 0 ∧ h ≠ 0 ∧
    ∃ before text format w' h', pre = before ++ [.encode text format w' h']
  heavy : trace.countP Call.isHeavy ≤ n
  length : trace.length ≤ n*5

section Order
variable {first last : List Call}

theorem callRounds_decode (hr : first ++ .decode :: last ∈ callRounds) : ∃ answer,
    ProbePasses answer ∧ first = [.withGuessedFormat,.intoDimensions answer,.withGuessedFormat] := by
  generalize ht : first ++ .decode :: last = t at hr
  rcases hr with hr | hr <;> cases hr <;> simp [append_cons_eq_cons_iff] at ht
  all_goals exact ⟨_,‹_›,ht.1⟩

theorem callRounds_detect {luma : Bytes} {w h : UInt32}
    (hr : first ++ .detectInLuma luma w h :: last ∈ callRounds ∨
      first ++ .detectMultipleInLuma luma w h :: last ∈ callRounds) :
    InGuard w h ∧ luma.length = w.toNat*h.toNat ∧ ∃ before, first = before ++ [.decode] := by
  rcases hr with hr | hr
  · generalize ht : first ++ .detectInLuma luma w h :: last = t at hr
    rcases hr with hr | hr <;> cases hr <;> simp [append_cons_eq_cons_iff] at ht
    obtain ⟨rfl,⟨rfl,rfl,rfl⟩,-⟩ := ht
    exact ⟨‹_›,‹_›,[_,_,_],rfl⟩
  · generalize ht : first ++ .detectMultipleInLuma luma w h :: last = t at hr
    rcases hr with hr | hr <;> cases hr <;> simp [append_cons_eq_cons_iff] at ht
    obtain ⟨rfl,⟨rfl,rfl,rfl⟩,-⟩ := ht
    exact ⟨‹_›,‹_›,[_,_,_],rfl⟩

theorem callRounds_encode {text : String} {format : BarcodeFormat} {w h : Int32}
    (hr : first ++ .encode text format w h :: last ∈ callRounds) :
    text ≠ "" ∧ AcceptedDims format w h := by
  generalize ht : first ++ .encode text format w h :: last = t at hr
  rcases hr with hr | hr <;> cases hr <;> simp [append_cons_eq_cons_iff] at ht
  all_goals
    obtain ⟨-,⟨rfl,rfl,rfl,rfl⟩,-⟩ := ht
    exact ⟨‹_›,‹_›⟩

theorem callRounds_writeTo {w h : UInt32} (hr : first ++ .writeTo w h :: last ∈ callRounds) :
    w ≠ 0 ∧ h ≠ 0 ∧ ∃ text format w' h', first = [.encode text format w' h'] := by
  generalize ht : first ++ .writeTo w h :: last = t at hr
  rcases hr with hr | hr <;> cases hr <;> simp [append_cons_eq_cons_iff] at ht
  obtain ⟨rfl,⟨rfl,rfl⟩,-⟩ := ht
  exact ⟨‹_›,‹_›,_,_,_,_,rfl⟩

theorem callRounds_size {round : List Call} (hr : round ∈ callRounds) :
    round.countP Call.isHeavy ≤ 1 ∧ round.countP (fun _ => true) ≤ 5 := by
  rcases hr with hr | hr <;> cases hr <;> simp [Call.isHeavy,List.countP_cons]

theorem callOrder_of_rounds {trace : List Call} {n : ℕ} (ht : trace ∈ Rounds callRounds n) :
    CallOrder trace n where
  decode := by
    rintro pre post rfl
    obtain ⟨before,first,last,after,hr,rfl,rfl⟩ := exists_round ht
    obtain ⟨answer,hpass,rfl⟩ := callRounds_decode hr
    exact ⟨before,answer,hpass,rfl⟩
  detect := by
    intro pre post luma w h htrace
    have hround : ∃ before first, pre = before ++ first ∧ ∃ last,
        (first ++ .detectInLuma luma w h :: last ∈ callRounds ∨
          first ++ .detectMultipleInLuma luma w h :: last ∈ callRounds) := by
      rcases htrace with rfl | rfl <;>
        obtain ⟨before,first,last,after,hr,hpre,-⟩ := exists_round ht
      · exact ⟨before,first,hpre,last,.inl hr⟩
      · exact ⟨before,first,hpre,last,.inr hr⟩
    obtain ⟨before,first,rfl,last,hr⟩ := hround
    obtain ⟨hin,hlen,start,rfl⟩ := callRounds_detect hr
    exact ⟨hin,hlen,before ++ start,(List.append_assoc ..).symm⟩
  encode := by
    rintro pre post text format w h rfl
    obtain ⟨before,first,last,after,hr,-,-⟩ := exists_round ht
    exact callRounds_encode hr
  writeTo := by
    rintro pre post w h rfl
    obtain ⟨before,first,last,after,hr,rfl,rfl⟩ := exists_round ht
    obtain ⟨hw,hh,text,format,w',h',rfl⟩ := callRounds_writeTo hr
    exact ⟨hw,hh,before,text,format,w',h',rfl⟩
  heavy := by
    have hcount := countP_le_mul 1 (fun r hr => (callRounds_size hr).1) ht
    rwa [Nat.mul_one] at hcount
  length := by
    have hcount := countP_le_mul 5 (fun r hr => (callRounds_size hr).2) ht
    rwa [List.countP_true] at hcount

end Order

end BarcodeWorker
