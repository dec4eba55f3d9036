import BarcodeWorker.DecodeTable
import BarcodeWorker.ScalarMeaning

/-!
# Sessions

The worker serves the calls of any number of clients one by one, in any order: binds, batches of
scalar scans, openings of table scans and pulls of their batches. Its only state is the producer of
each open table scan. What a scan answers to its pulls depends on none of the other calls, so every
table scan gives its rows once, however the calls of a session are interleaved.
-/

namespace BarcodeWorker

open Barcoding ArrowIo

/-! ## Table functions -/

inductive TableProducer
  | decode (p : DecodeBarcodes.DecodeProducer)
  | formats (p : BarcodeFormats.FormatsProducer)

namespace TableFunction

def name : TableFunction → String
  | .decodeBarcodes => DecodeBarcodes.name
  | .barcodeFormats => BarcodeFormats.name

def argumentSpecs : TableFunction → List ArgSpec
  | .decodeBarcodes => DecodeBarcodes.argumentSpecs
  | .barcodeFormats => BarcodeFormats.argumentSpecs

def onBind : TableFunction → BindParams → Run RpcError BindResponse
  | .decodeBarcodes, params => DecodeBarcodes.onBind params
  | .barcodeFormats, params => BarcodeFormats.onBind params

def producer (crates : Crates) : TableFunction → ProcessParams → Run RpcError TableProducer
  | .decodeBarcodes, params => .decode <$> DecodeBarcodes.producer crates params
  | .barcodeFormats, params => .formats <$> BarcodeFormats.producer params

end TableFunction

def TableProducer.nextBatch (crates : Crates) :
    TableProducer → Run RpcError (Option RecordBatch) × TableProducer
  | .decode p =>
    let (answer,p) := DecodeBarcodes.nextBatch crates p
    (answer,.decode p)
  | .formats p =>
    let (answer,p) := BarcodeFormats.nextBatch crates p
    (answer,.formats p)

theorem TableProducer.nextBatch_decode (crates : Crates) (p : DecodeBarcodes.DecodeProducer) :
    (TableProducer.decode p).nextBatch crates =
      ((DecodeBarcodes.nextBatch crates p).1,.decode (DecodeBarcodes.nextBatch crates p).2) := rfl

theorem TableProducer.nextBatch_formats (crates : Crates) (p : BarcodeFormats.FormatsProducer) :
    (TableProducer.formats p).nextBatch crates =
      ((BarcodeFormats.nextBatch crates p).1,.formats (BarcodeFormats.nextBatch crates p).2) := rfl

/-! ## Calls of a session -/

section Session
variable {ι : Type} [DecidableEq ι]

/-- The producers of the open table scans. -/
abbrev Streams (ι : Type) := ι → Option TableProducer

/-- A call that reaches the worker. -/
inductive Event (ι : Type)
  | bindScalar (f : ScalarFunction) (params : BindParams)
  | process (f : ScalarFunction) (params : ProcessParams) (batch : RecordBatch)
  | bindTable (t : TableFunction) (params : BindParams)
  | openScan (id : ι) (t : TableFunction) (params : ProcessParams)
  | nextBatch (id : ι)

inductive Answer
  | bound (response : BindResponse)
  | batch (b : RecordBatch)
  | opened
  | next (b : Option RecordBatch)

/-- An opening that fails opens nothing. -/
def Streams.openScan (s : Streams ι) (id : ι) (producer : Outcome RpcError TableProducer) :
    Streams ι :=
  match producer with
  | .ok p => Function.update s id (some p)
  | _ => s

theorem Streams.openScan_of_ne (s : Streams ι) {id id' : ι} (hne : id ≠ id')
    (producer : Outcome RpcError TableProducer) : s.openScan id' producer id = s id := by
  cases producer with
  | ok p => exact Function.update_of_ne hne _ _
  | error e => rfl
  | panic m => rfl

/-- One call, served. A pull asks for a scan that is open. -/
inductive Step (crates : Crates) : Streams ι → Event ι → Run RpcError Answer → Streams ι → Prop
  | bindScalar (s : Streams ι) (f : ScalarFunction) (params : BindParams) :
    Step crates s (.bindScalar f params) (.bound <$> f.onBind crates params) s
  | process (s : Streams ι) (f : ScalarFunction) (params : ProcessParams) (batch : RecordBatch) :
    Step crates s (.process f params batch) (.batch <$> f.process crates params batch) s
  | bindTable (s : Streams ι) (t : TableFunction) (params : BindParams) :
    Step crates s (.bindTable t params) (.bound <$> t.onBind params) s
  | openScan (s : Streams ι) (id : ι) (t : TableFunction) (params : ProcessParams) :
    Step crates s (.openScan id t params) ((fun _ => .opened) <$> t.producer crates params)
      (s.openScan id (t.producer crates params).outcome)
  | nextBatch (s : Streams ι) (id : ι) (p : TableProducer) (hp : s id = some p) :
    Step crates s (.nextBatch id) (.next <$> (p.nextBatch crates).1)
      (Function.update s id (some (p.nextBatch crates).2))

/-- A call with what came of it. -/
structure Served (ι : Type) where
  event : Event ι
  run : Run RpcError Answer

/-- Call after call, whatever they end in. -/
inductive Session (crates : Crates) : Streams ι → List (Served ι) → Streams ι → Prop
  | nil (s : Streams ι) : Session crates s [] s
  | cons {s s' s'' : Streams ι} {e : Event ι} {x : Run RpcError Answer} {log : List (Served ι)}
    (first : Step crates s e x s') (rest : Session crates s' log s'') :
    Session crates s (⟨e,x⟩::log) s''

def Event.Opens (id : ι) : Event ι → Prop
  | .openScan id' _ _ => id' = id
  | _ => False

/-- The answer of a call that pulls a scan. -/
def Served.pull (id : ι) (entry : Served ι) : Option (Outcome RpcError Answer) :=
  match entry.event with
  | .nextBatch id' => if id' = id then some entry.run.outcome else none
  | _ => none

/-- What the pulls of a scan were answered. -/
def pulls (id : ι) (log : List (Served ι)) : List (Outcome RpcError Answer) :=
  log.filterMap (Served.pull id)

/-! ## One scan of a session -/

section Projection
variable {crates : Crates} {s s' : Streams ι} {id : ι} {p : TableProducer}

/-- A step that does not open a scan leaves its producer alone, or pulls it once. -/
theorem Step.stream {e : Event ι} {x : Run RpcError Answer} (h : Step crates s e x s')
    (hs : s id = some p) (hopen : ¬ e.Opens id) :
    (Served.pull id ⟨e,x⟩ = none ∧ s' id = some p) ∨
      (Served.pull id ⟨e,x⟩ = some (.next <$> (p.nextBatch crates).1.outcome) ∧
        s' id = some (p.nextBatch crates).2) := by
  cases h with
  | bindScalar => exact .inl ⟨rfl,hs⟩
  | process => exact .inl ⟨rfl,hs⟩
  | bindTable => exact .inl ⟨rfl,hs⟩
  | openScan id' t params =>
    have hne : id ≠ id' := fun he => hopen he.symm
    exact .inl ⟨rfl,by rw [Streams.openScan_of_ne s hne,hs]⟩
  | nextBatch id' p' hp =>
    by_cases hid : id' = id
    · subst hid
      obtain rfl : p' = p := Option.some.inj (hp.symm.trans hs)
      exact .inr ⟨by simp [Served.pull],by rw [Function.update_self]⟩
    · exact .inl ⟨by simp [Served.pull,hid],by rw [Function.update_of_ne (Ne.symm hid),hs]⟩

/-- The pulls of one scan in a session are a run of its own producer. -/
theorem Session.pulls_eq {log : List (Served ι)} (h : Session crates s log s')
    (hs : s id = some p) (hopen : ∀ entry ∈ log, ¬ entry.event.Opens id) :
    pulls id log =
      (answers (TableProducer.nextBatch crates) (pulls id log).length p).map (Answer.next <$> ·) := by
  induction h generalizing p with
  | nil => rfl
  | @cons s s' s'' e x log first _ ih =>
    have hrest : ∀ entry ∈ log, ¬ entry.event.Opens id :=
      fun entry hmem => hopen entry (by simp [hmem])
    rcases first.stream hs (hopen ⟨e,x⟩ (by simp)) with ⟨hnone,hs'⟩ | ⟨hsome,hs'⟩
    · rw [pulls,List.filterMap_cons_none hnone]
      exact ih hs' hrest
    · rw [pulls,List.filterMap_cons_some hsome,List.length_cons,answers,List.map_cons]
      exact congrArg _ (ih hs' hrest)

end Projection
end Session

/-! ## Every scan gives its rows once -/

namespace TableFunction

/-- The rows of a scan: every symbol of the blob, or every supported format. -/
def Delivers (crates : Crates) (args : Arguments) (batch : RecordBatch) : TableFunction → Prop
  | .decodeBarcodes => DecodeBarcodes.Carries batch (DecodeBarcodes.decoded crates args)
  | .barcodeFormats => batch.schema = BarcodeFormats.outputSchema ∧
      batch.columns = [.utf8 (supportedFormats.map some)]

/-- The symbols of the blob fit the builders. -/
def Fits (crates : Crates) (args : Arguments) : TableFunction → Prop
  | .decodeBarcodes => DecodeBarcodes.Fits (DecodeBarcodes.decoded crates args)
  | .barcodeFormats => True

theorem producer_oneShot {crates : Crates} (ht : crates.arrow.TryNewContract) {t : TableFunction}
    {args : Arguments} (hfit : t.Fits crates args) {response : BindResponse}
    (hbind : (t.onBind ⟨args⟩).outcome = .ok response) :
    ∃ p batch, (t.producer crates ⟨args,response.outputSchema⟩).outcome = .ok p ∧
      t.Delivers crates args batch ∧ ∀ k, answers (TableProducer.nextBatch crates) (k+1) p =
        .ok (some batch) :: List.replicate k (.ok none) := by
  cases t with
  | decodeBarcodes =>
    obtain rfl : (⟨DecodeBarcodes.outputSchema,[]⟩ : BindResponse) = response :=
      Outcome.ok.inj hbind
    obtain ⟨batch,hfirst,hcarries⟩ :=
      DecodeBarcodes.nextBatch_first ht hfit (DecodeBarcodes.format_size_pos crates args)
    have hdone : Exhausted (DecodeBarcodes.nextBatch crates) (DecodeBarcodes.nextBatch crates
      ⟨DecodeBarcodes.outputSchema,DecodeBarcodes.decoded crates args,false⟩).2 := rfl
    refine ⟨.decode ⟨DecodeBarcodes.outputSchema,DecodeBarcodes.decoded crates args,false⟩,batch,?_,
      hcarries,fun k => ?_⟩
    · rw [producer,Traced.outcome_map,DecodeBarcodes.producer_outcome]
      rfl
    · rw [answers_embed TableProducer.decode (TableProducer.nextBatch_decode crates)]
      exact answers_oneShot hdone hfirst k
  | barcodeFormats =>
    obtain ⟨start,batch,hstart,hschema,hcols,-,hrun⟩ :=
      BarcodeFormats.barcodeFormats_run crates ht args response hbind
    refine ⟨.formats start,batch,?_,⟨hschema,hcols⟩,fun k => ?_⟩
    · rw [producer,Traced.outcome_map,hstart]
      rfl
    · rw [answers_embed TableProducer.formats (TableProducer.nextBatch_formats crates)]
      exact hrun k

end TableFunction

/-- The blob of the reference detector, as a constant. -/
def onePixelBlob : Arguments := ⟨[some (.blob Reference.onePixel)]⟩

end BarcodeWorker
