import BarcodeWorker.Interleaving
import BarcodeWorker.Session

/-!
# Reordered sessions

A call touches the producer of one table scan or none, so calls of different scans commute. The
calls of a session can be served in any other order that keeps the calls of each scan in theirs:
every call is answered as before, and the session ends in the same state.
-/

namespace BarcodeWorker

open Barcoding ArrowIo

section Steps
variable {ι : Type} [DecidableEq ι] {crates : Crates}

/-- The table scan that a call is for, if it is for one. -/
def Event.stream : Event ι → Option ι
  | .openScan id _ _ => some id
  | .nextBatch id => some id
  | _ => none

/-- A step, as one of a system whose labels are the served calls. -/
def ServedStep (crates : Crates) (s : Streams ι) (entry : Served ι) (s' : Streams ι) : Prop :=
  Step crates s entry.event entry.run s'

theorem session_iff_runs {s s' : Streams ι} {log : List (Served ι)} :
    Session crates s log s' ↔ Runs (ServedStep crates) s log s' := by
  constructor
  · intro h
    induction h with
    | nil s => exact .nil s
    | cons first _ ih => exact .cons first ih
  · intro h
    induction h with
    | nil s => exact .nil s
    | cons first _ ih => exact .cons first ih

/-- A call that is for no scan changes nothing, and is answered alike in every state. -/
theorem Step.of_stream_none {s s' : Streams ι} {e : Event ι} {x : Run RpcError Answer}
    (h : Step crates s e x s') (he : e.stream = none) : s' = s ∧ ∀ t, Step crates t e x t := by
  cases h with
  | bindScalar f params => exact ⟨rfl,fun t => .bindScalar t f params⟩
  | process f params batch => exact ⟨rfl,fun t => .process t f params batch⟩
  | bindTable t params => exact ⟨rfl,fun u => .bindTable u t params⟩
  | openScan id t params => cases he
  | nextBatch id p hp => cases he

theorem Streams.openScan_eq_update (s : Streams ι) (id : ι) (producer : Outcome RpcError TableProducer) :
    ∃ v, ∀ t : Streams ι, t id = s id → t.openScan id producer = Function.update t id v := by
  cases producer with
  | ok p => exact ⟨some p,fun t _ => rfl⟩
  | error e => exact ⟨s id,fun t ht => (Function.update_eq_self_iff.mpr ht.symm).symm⟩
  | panic m => exact ⟨s id,fun t ht => (Function.update_eq_self_iff.mpr ht.symm).symm⟩

/-- A call that is for a scan changes its producer alone, and looks at nothing else. -/
theorem Step.of_stream_some {s s' : Streams ι} {e : Event ι} {x : Run RpcError Answer} {id : ι}
    (h : Step crates s e x s') (he : e.stream = some id) :
    ∃ v, s' = Function.update s id v ∧
      ∀ t : Streams ι, t id = s id → Step crates t e x (Function.update t id v) := by
  cases h with
  | bindScalar f params => cases he
  | process f params batch => cases he
  | bindTable t params => cases he
  | openScan id' t params =>
    obtain rfl : id' = id := Option.some.inj he
    obtain ⟨v,hv⟩ := s.openScan_eq_update id' (t.producer crates params).outcome
    refine ⟨v,hv s rfl,fun u hu => ?_⟩
    rw [← hv u hu]
    exact .openScan u id' t params
  | nextBatch id' p hp =>
    obtain rfl : id' = id := Option.some.inj he
    exact ⟨some (p.nextBatch crates).2,rfl,fun u hu => .nextBatch u id' p (hu.trans hp)⟩

theorem servedStep_local :
    Local (fun entry : Served ι => entry.event.stream) (ServedStep crates) where
  of_none _ _ _ h he := Step.of_stream_none h he
  of_some _ _ _ _ h he := Step.of_stream_some h he

/-- The state and the call determine the answer. -/
theorem Step.unique {s t t' : Streams ι} {e : Event ι} {x x' : Run RpcError Answer}
    (h : Step crates s e x t) (h' : Step crates s e x' t') : x = x' ∧ t = t' := by
  cases h with
  | bindScalar f params => cases h'; exact ⟨rfl,rfl⟩
  | process f params batch => cases h'; exact ⟨rfl,rfl⟩
  | bindTable u params => cases h'; exact ⟨rfl,rfl⟩
  | openScan id u params => cases h'; exact ⟨rfl,rfl⟩
  | nextBatch id p hp =>
    cases h' with
    | nextBatch _ p' hp' =>
      obtain rfl : p = p' := Option.some.inj (hp.symm.trans hp')
      exact ⟨rfl,rfl⟩

theorem Session.unique {s t t' : Streams ι} {log log' : List (Served ι)}
    (h : Session crates s log t) (h' : Session crates s log' t')
    (hevents : log.map Served.event = log'.map Served.event) : log = log' ∧ t = t' := by
  refine Runs.unique ?_ (session_iff_runs.mp h) (session_iff_runs.mp h') hevents
  intro s a b t t' hevent ha hb
  obtain ⟨e,x⟩ := a
  obtain ⟨e',x'⟩ := b
  obtain rfl : e = e' := hevent
  obtain ⟨hrun,hstate⟩ := Step.unique ha hb
  exact ⟨congrArg _ hrun,hstate⟩

end Steps

/-! Two table scans, pulled in turns. -/

def openDecode : Event ℕ := .openScan 0 .decodeBarcodes ⟨onePixelBlob,DecodeBarcodes.outputSchema⟩

def openFormats : Event ℕ := .openScan 1 .barcodeFormats ⟨⟨[]⟩,BarcodeFormats.outputSchema⟩

theorem session_turns : ∃ (s' : Streams ℕ) (log : List (Served ℕ)),
    Session (Reference.crates Reference.hello) (fun _ => none) log s' ∧
    log.map Served.event = [openDecode,openFormats,.nextBatch 0,.nextBatch 1] := by
  have h : Session (Reference.crates Reference.hello) (fun _ => none) _ _ :=
    .cons (.openScan (fun _ => none) 0 .decodeBarcodes ⟨onePixelBlob,DecodeBarcodes.outputSchema⟩)
      (.cons (.openScan _ 1 .barcodeFormats ⟨⟨[]⟩,BarcodeFormats.outputSchema⟩)
        (.cons (.nextBatch _ 0 _ rfl) (.cons (.nextBatch _ 1 _ rfl) (.nil _))))
  exact ⟨_,_,h,rfl⟩

end BarcodeWorker
