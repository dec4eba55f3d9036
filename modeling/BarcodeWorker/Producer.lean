import BarcodeWorker.Traced

/-!
# Producers

A producer answers each call with a batch or with none, and moves to its next state. A run is a
number of calls one after the other, whatever each of them answers.
-/

namespace BarcodeWorker

section Producer
variable {κ ε σ β : Type}

/-- The answers to `k` calls, from a state on. -/
def answers (next : σ → Traced κ ε (Option β) × σ) : ℕ → σ → List (Outcome ε (Option β))
  | 0, _ => []
  | k+1, s => (next s).1.outcome :: answers next k (next s).2

/-- A state in which a producer has no more to give, and stays. -/
def Exhausted (next : σ → Traced κ ε (Option β) × σ) (s : σ) : Prop := next s = (pure none,s)

theorem answers_exhausted {next : σ → Traced κ ε (Option β) × σ} {s : σ}
    (hs : Exhausted next s) (k : ℕ) : answers next k s = List.replicate k (.ok none) := by
  have hstep : next s = (pure none,s) := hs
  induction k with
  | zero => rfl
  | succ k ih => rw [answers,hstep,ih,List.replicate_succ,Traced.outcome_pure]

/-- A producer that is exhausted after its first call gives one batch over any run. -/
theorem answers_oneShot {next : σ → Traced κ ε (Option β) × σ} {s : σ}
    (hs : Exhausted next (next s).2) {b : β} (hb : (next s).1.outcome = .ok (some b)) (k : ℕ) :
    answers next (k+1) s = .ok (some b) :: List.replicate k (.ok none) := by
  rw [answers,answers_exhausted hs,hb]

/-- A producer behind another state type answers as it does by itself. -/
theorem answers_embed {τ : Type} {next : σ → Traced κ ε (Option β) × σ}
    {next' : τ → Traced κ ε (Option β) × τ} (embed : σ → τ)
    (hnext : ∀ s, next' (embed s) = ((next s).1,embed (next s).2)) (k : ℕ) (s : σ) :
    answers next' k (embed s) = answers next k s := by
  induction k generalizing s with
  | zero => rfl
  | succ k ih => rw [answers,answers,hnext,ih]

def given : Outcome ε (Option β) → Option β
  | .ok b => b
  | _ => none

/-- The batches among the answers of a run. -/
def batchesOf (run : List (Outcome ε (Option β))) : List β := run.filterMap given

theorem batchesOf_oneShot (b : β) (k : ℕ) :
    batchesOf (.ok (some b) :: List.replicate k (.ok none) : List (Outcome ε (Option β))) = [b] := by
  have hrest : (List.replicate k (.ok none : Outcome ε (Option β))).filterMap given = [] := by
    rw [List.filterMap_eq_nil_iff]
    intro r hr
    rw [List.eq_of_mem_replicate hr]
    rfl
  rw [batchesOf,List.filterMap_cons,hrest]
  rfl

end Producer
end BarcodeWorker
