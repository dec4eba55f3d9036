import BarcodeWorker.Reordering

/-!
# Clients that do not notice each other

A worker that serves any number of clients, none of which uses a table scan of another, serves each
as if it were alone: the calls of a session are those of the sessions of its clients, put together
in any order.
-/

namespace BarcodeWorker

section Calls
variable {ι κ : Type}

/-- The table scan that a client's call is for. -/
def callStream (call : κ × Served ι) : Option ι := call.2.event.stream

/-- No client uses a table scan of another. -/
def SeparateScans (log : List (κ × Served ι)) : Prop := Unshared callStream Prod.fst log

/-- The calls of one client. -/
def callsOf [DecidableEq κ] (client : κ) (log : List (κ × Served ι)) : List (Served ι) :=
  (log.filter fun call => call.1 = client).map Prod.snd

/-- A step, labelled with the client that it is for. -/
def ClientStep [DecidableEq ι] (crates : Crates) (s : Streams ι) (call : κ × Served ι)
    (s' : Streams ι) : Prop :=
  ServedStep crates s call.2 s'

variable [DecidableEq ι] {crates : Crates}

theorem clientStep_local : Local (callStream (κ := κ)) (ClientStep (ι := ι) crates) where
  of_none _ _ call h he := servedStep_local.of_none _ _ call.2 h he
  of_some _ _ call _ h he := servedStep_local.of_some _ _ call.2 _ h he

theorem session_iff_clientStep {s s' : Streams ι} {log : List (κ × Served ι)} :
    Session crates s (log.map Prod.snd) s' ↔ Runs (ClientStep crates) s log s' :=
  session_iff_runs.trans runs_map_iff

end Calls

end BarcodeWorker
