import BarcodeWorker.ScanLaws

/-!
# Nested calls

In a query the column of one scalar call is the input of the next. All calls are bound first. The
batches then go through them either one batch at a time through every call, or one call at a time
over every batch. Both compute the composition of the row functions.
-/

namespace BarcodeWorker

open Barcoding ArrowIo

/-- A call of a scalar function in a query, with its constants. -/
structure ScalarCall where
  function : ScalarFunction
  arguments : Arguments

/-- A call and the schema that it was bound to. -/
structure BoundCall where
  call : ScalarCall
  schema : Schema

section Calls
variable (crates : Crates)

def ScalarCall.bindTo (call : ScalarCall) : Run RpcError BoundCall := do
  let response ← call.function.onBind crates ⟨call.arguments⟩
  return ⟨call,response.outputSchema⟩

def BoundCall.process (bound : BoundCall) (batch : RecordBatch) : Run RpcError RecordBatch :=
  bound.call.function.process crates ⟨bound.call.arguments,bound.schema⟩ batch

/-- One batch through every call, the innermost first. -/
def runCalls (bound : List BoundCall) (batch : RecordBatch) : Run RpcError RecordBatch :=
  bound.foldlM (fun batch call => call.process crates batch) batch

/-- Every call over all the batches, the innermost first. -/
def runStages (bound : List BoundCall) (batches : List RecordBatch) :
    Run RpcError (List RecordBatch) :=
  bound.foldlM (fun batches call => batches.mapM (call.process crates)) batches

/-- The innermost call is the first of the list. -/
def nestedScan (calls : List ScalarCall) (batches : List RecordBatch) :
    Run RpcError (List RecordBatch) := do
  let bound ← calls.mapM (ScalarCall.bindTo crates)
  batches.mapM (runCalls crates bound)

def stagedScan (calls : List ScalarCall) (batches : List RecordBatch) :
    Run RpcError (List RecordBatch) := do
  let bound ← calls.mapM (ScalarCall.bindTo crates)
  runStages crates bound batches

/-- The composition of the calls, or the first error of a bind. -/
def callsMeaning : List ScalarCall → Except RpcError (RowFunction Call RpcError TypedValue TypedValue)
  | [] => .ok RowFunction.id
  | call :: calls => do
    let r ← call.function.meaning crates call.arguments
    let q ← callsMeaning calls
    return q.comp r

/-- A call with the schema that its function declares. -/
def ScalarCall.declared (call : ScalarCall) : BoundCall :=
  ⟨call,(crates.vgi.result call.function.returnType).outputSchema⟩

theorem ScalarCall.bindTo_eq (call : ScalarCall) : call.bindTo crates =
    Traced.ofExcept (call.function.meaning crates call.arguments) >>= fun _ =>
      pure (call.declared crates) := by
  rw [bindTo,ScalarFunction.onBind_eq,bind_assoc]
  rfl

theorem mapM_bindTo (calls : List ScalarCall) : calls.mapM (ScalarCall.bindTo crates) =
    Traced.ofExcept (callsMeaning crates calls) >>= fun _ =>
      pure (calls.map (ScalarCall.declared crates)) := by
  induction calls with
  | nil => rfl
  | cons call calls ih =>
    rw [List.mapM_cons,ScalarCall.bindTo_eq,ih,callsMeaning]
    cases call.function.meaning crates call.arguments with
    | error e => rfl
    | ok r => cases callsMeaning crates calls <;> rfl

theorem callsMeaning_cons_eq_ok_iff (call : ScalarCall) (calls : List ScalarCall)
    (q : RowFunction Call RpcError TypedValue TypedValue) :
    callsMeaning crates (call::calls) = .ok q ↔
      ∃ r s, call.function.meaning crates call.arguments = .ok r ∧
        callsMeaning crates calls = .ok s ∧ q = s.comp r := by
  rw [callsMeaning]
  cases call.function.meaning crates call.arguments with
  | error e => simp [bind,Except.bind]
  | ok r => cases callsMeaning crates calls <;> simp [bind,Except.bind,pure,Except.pure,eq_comm]

end Calls

section Evaluation
variable {crates : Crates} (hb : crates.vgi.BindContract) (ht : crates.arrow.TryNewContract)

/-- No call of a query panics. -/
def NoPanic {α : Type} (x : Run RpcError α) : Prop := ∀ m, x.outcome ≠ .panic m

theorem NoPanic.first {α β : Type} {x : Run RpcError α} {k : α → Run RpcError β}
    (h : NoPanic (x >>= k)) : NoPanic x := by
  intro m hm
  exact h m (by rw [Traced.outcome_bind,hm]; rfl)

theorem NoPanic.rest {α β : Type} {x : Run RpcError α} {k : α → Run RpcError β}
    (h : NoPanic (x >>= k)) {a : α} (ha : x.outcome = .ok a) : NoPanic (k a) := by
  intro m hm
  exact h m (by rw [Traced.outcome_bind,ha,Outcome.ok_bind,hm])

include hb ht

theorem computes_process {call : ScalarCall} {r : RowFunction Call RpcError TypedValue TypedValue}
    (hr : call.function.meaning crates call.arguments = .ok r) {batch : RecordBatch}
    (hne : batch.columns ≠ []) (hpanic : NoPanic ((call.declared crates).process crates batch)) :
    r.Computes RecordBatch.values ((call.declared crates).process crates batch) batch.values :=
  RowFunction.computes_of_eq (ScalarFunction.process_refines hb ht hr hne
    ((ScalarFunction.process_ne_panic_iff hr _ hne).mp hpanic))

theorem columns_ne_of_process {call : ScalarCall} {batch out : RecordBatch}
    (hne : batch.columns ≠ []) (hok : ((call.declared crates).process crates batch).outcome = .ok out) :
    out.columns ≠ [] := by
  obtain ⟨col,hcols,-⟩ := (ScalarFunction.process_conforms hb ht hne hok).column
  simp [hcols]

/-- One batch through every call computes the composition. -/
theorem computes_runCalls {calls : List ScalarCall}
    {q : RowFunction Call RpcError TypedValue TypedValue} (hq : callsMeaning crates calls = .ok q)
    {batch : RecordBatch} (hne : batch.columns ≠ [])
    (hpanic : NoPanic (runCalls crates (calls.map (ScalarCall.declared crates)) batch)) :
    q.Computes RecordBatch.values (runCalls crates (calls.map (ScalarCall.declared crates)) batch)
      batch.values := by
  induction calls generalizing q batch with
  | nil =>
    obtain rfl : RowFunction.id = q := Except.ok.inj hq
    exact RowFunction.computes_pure batch
  | cons call calls ih =>
    obtain ⟨r,s,hr,hs,rfl⟩ := (callsMeaning_cons_eq_ok_iff crates call calls q).mp hq
    rw [List.map_cons,runCalls,List.foldlM_cons] at hpanic ⊢
    refine (computes_process hb ht hr hne hpanic.first).bind fun out hout => ?_
    exact ih hs (columns_ne_of_process hb ht hne hout) (hpanic.rest hout)

/-- So does one call after the other over all the batches. -/
theorem computes_runStages {calls : List ScalarCall}
    {q : RowFunction Call RpcError TypedValue TypedValue} (hq : callsMeaning crates calls = .ok q)
    {batches : List RecordBatch} (hne : ∀ batch ∈ batches, batch.columns ≠ [])
    (hpanic : NoPanic (runStages crates (calls.map (ScalarCall.declared crates)) batches)) :
    q.Computes (List.flatMap RecordBatch.values)
      (runStages crates (calls.map (ScalarCall.declared crates)) batches)
      (batches.flatMap RecordBatch.values) := by
  induction calls generalizing q batches with
  | nil =>
    obtain rfl : RowFunction.id = q := Except.ok.inj hq
    exact RowFunction.computes_pure batches
  | cons call calls ih =>
    obtain ⟨r,s,hr,hs,rfl⟩ := (callsMeaning_cons_eq_ok_iff crates call calls q).mp hq
    rw [List.map_cons,runStages,List.foldlM_cons] at hpanic ⊢
    have hfirst : r.Computes (List.flatMap RecordBatch.values)
        (batches.mapM ((call.declared crates).process crates))
        (batches.flatMap RecordBatch.values) :=
      .mapM (fun batch hmem hp => computes_process hb ht hr (hne batch hmem) hp) hpanic.first
    refine hfirst.bind fun outs houts => ih hs (fun out hmem => ?_) (hpanic.rest houts)
    -- Every batch of a stage comes from a batch of the stage before it.
    rw [Traced.outcome_mapM] at houts
    obtain ⟨batch,hbatch,hout⟩ := Outcome.mapM_ok_mem houts hmem
    exact columns_ne_of_process hb ht (hne batch hbatch) hout

theorem nestedScan_computes {calls : List ScalarCall} {batches : List RecordBatch}
    (hne : ∀ batch ∈ batches, batch.columns ≠ [])
    (hpanic : NoPanic (nestedScan crates calls batches)) (rows : List (Option TypedValue)) :
    (∃ outs, (nestedScan crates calls batches).outcome = .ok outs ∧
        outs.flatMap RecordBatch.values = rows) ↔
      ∃ q, callsMeaning crates calls = .ok q ∧
        (q.lift (batches.flatMap RecordBatch.values)).outcome = .ok rows := by
  rw [nestedScan,mapM_bindTo] at hpanic ⊢
  cases hq : callsMeaning crates calls with
  | error e => simp
  | ok q =>
    rw [hq] at hpanic
    have hcomp : q.Computes (List.flatMap RecordBatch.values)
        (batches.mapM (runCalls crates (calls.map (ScalarCall.declared crates))))
        (batches.flatMap RecordBatch.values) :=
      .mapM (fun batch hmem hp => computes_runCalls hb ht hq (hne batch hmem) hp) hpanic
    have h := hcomp rows
    simpa using h

theorem stagedScan_computes {calls : List ScalarCall} {batches : List RecordBatch}
    (hne : ∀ batch ∈ batches, batch.columns ≠ [])
    (hpanic : NoPanic (stagedScan crates calls batches)) (rows : List (Option TypedValue)) :
    (∃ outs, (stagedScan crates calls batches).outcome = .ok outs ∧
        outs.flatMap RecordBatch.values = rows) ↔
      ∃ q, callsMeaning crates calls = .ok q ∧
        (q.lift (batches.flatMap RecordBatch.values)).outcome = .ok rows := by
  rw [stagedScan,mapM_bindTo] at hpanic ⊢
  cases hq : callsMeaning crates calls with
  | error e => simp
  | ok q =>
    rw [hq] at hpanic
    have hcomp := computes_runStages hb ht hq hne hpanic
    simpa using hcomp rows

end Evaluation

/-- A query of nested calls, of any depth and over any batches, comes to the same rows batch by
batch and call by call, and they are those of the composed row functions. -/
theorem nestedScan_agrees (crates : Crates) (hb : crates.vgi.BindContract)
    (ht : crates.arrow.TryNewContract) (calls : List ScalarCall) (batches : List RecordBatch)
    (hne : ∀ batch ∈ batches, batch.columns ≠ [])
    (hnested : NoPanic (nestedScan crates calls batches))
    (hstaged : NoPanic (stagedScan crates calls batches)) (rows : List (Option TypedValue)) :
    ((∃ outs, (nestedScan crates calls batches).outcome = .ok outs ∧
        outs.flatMap RecordBatch.values = rows) ↔
      ∃ outs, (stagedScan crates calls batches).outcome = .ok outs ∧
        outs.flatMap RecordBatch.values = rows) ∧
    ((∃ outs, (nestedScan crates calls batches).outcome = .ok outs ∧
        outs.flatMap RecordBatch.values = rows) ↔
      ∃ q, callsMeaning crates calls = .ok q ∧
        (q.lift (batches.flatMap RecordBatch.values)).outcome = .ok rows) := by
  have hn := nestedScan_computes hb ht hne hnested rows
  have hs := stagedScan_computes hb ht hne hstaged rows
  exact ⟨hn.trans hs.symm,hn⟩

/-- The text of an image, read as a blob once more. -/
def decodeTwice : List ScalarCall := [⟨.decode .text,⟨[]⟩⟩,⟨.decode .format,⟨[]⟩⟩]

theorem nestedScan_agrees_decodeTwice :
    ∃ outs, (stagedScan (Reference.crates Reference.hello) decodeTwice
      [.ofColumn [] (.binary [none,some Reference.onePixel])]).outcome = .ok outs ∧
      outs.flatMap RecordBatch.values = [none,none] := by
  have hnested : (nestedScan (Reference.crates Reference.hello) decodeTwice
      [.ofColumn [] (.binary [none,some Reference.onePixel])]).outcome =
        .ok [DecodeBarcode.outputBatch (Reference.crates Reference.hello) [none,none]] := by
    rfl
  have hstaged : (stagedScan (Reference.crates Reference.hello) decodeTwice
      [.ofColumn [] (.binary [none,some Reference.onePixel])]).outcome =
        .ok [DecodeBarcode.outputBatch (Reference.crates Reference.hello) [none,none]] := by
    rfl
  have hall := nestedScan_agrees (Reference.crates Reference.hello) Reference.vgi_bind
    Reference.arrow_tryNew decodeTwice [.ofColumn [] (.binary [none,some Reference.onePixel])]
    (by simp [RecordBatch.ofColumn]) (by simp [NoPanic,hnested]) (by simp [NoPanic,hstaged])
    [none,none]
  exact hall.1.mp ⟨_,hnested,rfl⟩

end BarcodeWorker
