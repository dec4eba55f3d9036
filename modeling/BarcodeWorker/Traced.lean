import Mathlib.Data.List.Basic
import Mathlib.Tactic

/-!
# Computations that call out, fail and panic

A computation is paired with the calls it makes to code outside the program. It ends in a value,
in an error that its caller handles, or in a panic that nobody handles. The calls made before an
error or a panic stay in the trace, so that a law about the order of effects can be stated.
-/

namespace BarcodeWorker

/-- How a computation ends. -/
inductive Outcome (ε α : Type)
  | ok (value : α)
  | error (err : ε)
  | panic (message : String)
  deriving DecidableEq

namespace Outcome

variable {ε ε' α β : Type}

def bind : Outcome ε α → (α → Outcome ε β) → Outcome ε β
  | .ok a, f => f a
  | .error e, _ => .error e
  | .panic m, _ => .panic m

instance : Monad (Outcome ε) where
  pure := .ok
  bind := bind

@[simp] theorem pure_eq (a : α) : (pure a : Outcome ε α) = .ok a := rfl
@[simp] theorem ok_bind (a : α) (f : α → Outcome ε β) : (Outcome.ok a >>= f) = f a := rfl
@[simp] theorem error_bind (e : ε) (f : α → Outcome ε β) : (Outcome.error e >>= f) = .error e := rfl
@[simp] theorem panic_bind (m : String) (f : α → Outcome ε β) :
    (Outcome.panic m >>= f) = .panic m := rfl

instance : LawfulMonad (Outcome ε) := LawfulMonad.mk' _
  (by intro α x; cases x <;> rfl)
  (by intro α β a f; rfl)
  (by intro α β γ x f g; cases x <;> rfl)

@[simp] theorem map_ok (f : α → β) (a : α) : f <$> (Outcome.ok a : Outcome ε α) = .ok (f a) := rfl
@[simp] theorem map_error (f : α → β) (e : ε) : f <$> (Outcome.error e : Outcome ε α) = .error e := rfl
@[simp] theorem map_panic (f : α → β) (m : String) :
    f <$> (Outcome.panic m : Outcome ε α) = .panic m := rfl

/-- A Rust `Result` returned to the caller. -/
def ofExcept : Except ε α → Outcome ε α
  | .ok a => .ok a
  | .error e => .error e

@[simp] theorem ofExcept_ok (a : α) : (ofExcept (.ok a) : Outcome ε α) = .ok a := rfl
@[simp] theorem ofExcept_error (e : ε) : (ofExcept (.error e) : Outcome ε α) = .error e := rfl
@[simp] theorem ofExcept_ne_panic (x : Except ε α) (m : String) : ofExcept x ≠ .panic m := by
  cases x <;> simp [ofExcept]

@[simp] theorem ofExcept_eq_ok_iff (x : Except ε α) (a : α) : ofExcept x = .ok a ↔ x = .ok a := by
  cases x <;> simp [ofExcept]

def mapErr (f : ε → ε') : Outcome ε α → Outcome ε' α
  | .ok a => .ok a
  | .error e => .error (f e)
  | .panic m => .panic m

@[simp] theorem mapErr_ok (f : ε → ε') (a : α) : (Outcome.ok a).mapErr f = .ok a := rfl
@[simp] theorem mapErr_error (f : ε → ε') (e : ε) :
    (Outcome.error e : Outcome ε α).mapErr f = .error (f e) := rfl
@[simp] theorem mapErr_panic (f : ε → ε') (m : String) :
    (Outcome.panic m : Outcome ε α).mapErr f = .panic m := rfl

/-- Hand an error to the caller as a value, as a `match` on a Rust `Result` does. -/
def attempt : Outcome ε α → Outcome ε' (Except ε α)
  | .ok a => .ok (.ok a)
  | .error e => .ok (.error e)
  | .panic m => .panic m

@[simp] theorem attempt_ok (a : α) : (Outcome.ok a : Outcome ε α).attempt = (.ok (.ok a) : Outcome ε' _) := rfl
@[simp] theorem attempt_error (e : ε) :
    (Outcome.error e : Outcome ε α).attempt = (.ok (.error e) : Outcome ε' _) := rfl
@[simp] theorem attempt_panic (m : String) :
    (Outcome.panic m : Outcome ε α).attempt = (.panic m : Outcome ε' (Except ε α)) := rfl

theorem bind_eq_ok_iff (x : Outcome ε α) (f : α → Outcome ε β) (b : β) :
    (x >>= f) = .ok b ↔ ∃ a, x = .ok a ∧ f a = .ok b := by
  cases x <;> simp

end Outcome

/-- An outcome and the calls made on the way to it, in order. -/
structure Traced (κ ε α : Type) where
  outcome : Outcome ε α
  trace : List κ

namespace Traced

variable {κ ε ε' α β : Type}

def bind (x : Traced κ ε α) (f : α → Traced κ ε β) : Traced κ ε β :=
  match x.outcome with
  | .ok a => ⟨(f a).outcome,x.trace ++ (f a).trace⟩
  | .error e => ⟨.error e,x.trace⟩
  | .panic m => ⟨.panic m,x.trace⟩

instance : Monad (Traced κ ε) where
  pure a := ⟨.ok a,[]⟩
  bind := bind

theorem bind_def (x : Traced κ ε α) (f : α → Traced κ ε β) : x >>= f = x.bind f := rfl

instance : LawfulMonad (Traced κ ε) := LawfulMonad.mk' _
  (by rintro α ⟨x,t⟩; cases x <;> simp [Functor.map,bind])
  (by intro α β a f; simp [Bind.bind,Pure.pure,bind])
  (by
    rintro α β γ ⟨x,t⟩ f g
    cases x with
    | ok a =>
      simp only [bind_def,bind]
      cases (f a).outcome <;> simp
    | error e => rfl
    | panic m => rfl)

/-- Return an error to the caller. -/
def fail (e : ε) : Traced κ ε α := ⟨.error e,[]⟩

/-- Unwind: no caller in the program catches a panic. -/
def crash (message : String) : Traced κ ε α := ⟨.panic message,[]⟩

/-- One call to outside code, answered with a Rust `Result`. -/
def call (k : κ) (answer : Except ε α) : Traced κ ε α := ⟨.ofExcept answer,[k]⟩

def ofExcept (x : Except ε α) : Traced κ ε α := ⟨.ofExcept x,[]⟩

def mapErr (f : ε → ε') (x : Traced κ ε α) : Traced κ ε' α := ⟨x.outcome.mapErr f,x.trace⟩

def attempt (x : Traced κ ε α) : Traced κ ε' (Except ε α) := ⟨x.outcome.attempt,x.trace⟩

@[simp] theorem outcome_pure (a : α) : (pure a : Traced κ ε α).outcome = .ok a := rfl
@[simp] theorem outcome_fail (e : ε) : (fail e : Traced κ ε α).outcome = .error e := rfl
@[simp] theorem outcome_crash (m : String) : (crash m : Traced κ ε α).outcome = .panic m := rfl
@[simp] theorem outcome_call (k : κ) (x : Except ε α) : (call k x).outcome = .ofExcept x := rfl
@[simp] theorem outcome_ofExcept (x : Except ε α) : (ofExcept x : Traced κ ε α).outcome = .ofExcept x := rfl
@[simp] theorem outcome_mapErr (f : ε → ε') (x : Traced κ ε α) :
    (x.mapErr f).outcome = x.outcome.mapErr f := rfl
@[simp] theorem outcome_attempt (x : Traced κ ε α) :
    (x.attempt : Traced κ ε' _).outcome = x.outcome.attempt := rfl
@[simp] theorem outcome_bind (x : Traced κ ε α) (f : α → Traced κ ε β) :
    (x >>= f).outcome = x.outcome >>= fun a => (f a).outcome := by
  simp only [bind_def,bind]
  cases x.outcome <;> rfl

@[simp] theorem trace_pure (a : α) : (pure a : Traced κ ε α).trace = [] := rfl
@[simp] theorem trace_fail (e : ε) : (fail e : Traced κ ε α).trace = [] := rfl
@[simp] theorem trace_crash (m : String) : (crash m : Traced κ ε α).trace = [] := rfl
@[simp] theorem trace_call (k : κ) (x : Except ε α) : (call k x).trace = [k] := rfl
@[simp] theorem trace_ofExcept (x : Except ε α) : (ofExcept x : Traced κ ε α).trace = [] := rfl
@[simp] theorem trace_mapErr (f : ε → ε') (x : Traced κ ε α) : (x.mapErr f).trace = x.trace := rfl
@[simp] theorem trace_attempt (x : Traced κ ε α) :
    (x.attempt : Traced κ ε' _).trace = x.trace := rfl

/-! Once an answer is known, a computation that starts with it runs on. -/

@[simp] theorem mk_ok_bind (a : α) (t : List κ) (f : α → Traced κ ε β) :
    (⟨.ok a,t⟩ >>= f : Traced κ ε β) = ⟨(f a).outcome,t ++ (f a).trace⟩ := rfl
@[simp] theorem mk_error_bind (e : ε) (t : List κ) (f : α → Traced κ ε β) :
    (⟨.error e,t⟩ >>= f : Traced κ ε β) = ⟨.error e,t⟩ := rfl
@[simp] theorem map_mk (f : α → β) (x : Outcome ε α) (t : List κ) :
    f <$> (⟨x,t⟩ : Traced κ ε α) = ⟨f <$> x,t⟩ := by
  rw [map_eq_pure_bind]
  cases x with
  | ok a => exact congrArg (Traced.mk _) (List.append_nil t)
  | error e => rfl
  | panic m => rfl
@[simp] theorem outcome_map (f : α → β) (x : Traced κ ε α) : (f <$> x).outcome = f <$> x.outcome :=
  congrArg outcome (map_mk f x.outcome x.trace)
@[simp] theorem trace_map (f : α → β) (x : Traced κ ε α) : (f <$> x).trace = x.trace :=
  congrArg trace (map_mk f x.outcome x.trace)
@[simp] theorem call_ok (k : κ) (a : α) : (call k (.ok a) : Traced κ ε α) = ⟨.ok a,[k]⟩ := rfl
@[simp] theorem call_error (k : κ) (e : ε) : (call k (.error e) : Traced κ ε α) = ⟨.error e,[k]⟩ := rfl
@[simp] theorem mapErr_mk (f : ε → ε') (x : Outcome ε α) (t : List κ) :
    (⟨x,t⟩ : Traced κ ε α).mapErr f = ⟨x.mapErr f,t⟩ := rfl
@[simp] theorem attempt_mk (x : Outcome ε α) (t : List κ) :
    ((⟨x,t⟩ : Traced κ ε α).attempt : Traced κ ε' _) = ⟨x.attempt,t⟩ := rfl

theorem trace_bind_ok {x : Traced κ ε α} {a : α} (h : x.outcome = .ok a) (f : α → Traced κ ε β) :
    (x >>= f).trace = x.trace ++ (f a).trace := by
  simp [bind_def,bind,h]

theorem trace_bind_error {x : Traced κ ε α} {e : ε} (h : x.outcome = .error e)
    (f : α → Traced κ ε β) : (x >>= f).trace = x.trace := by
  simp [bind_def,bind,h]

theorem trace_bind_panic {x : Traced κ ε α} {m : String} (h : x.outcome = .panic m)
    (f : α → Traced κ ε β) : (x >>= f).trace = x.trace := by
  simp [bind_def,bind,h]

end Traced

/-! ## The order of calls -/

/-- Every `Q` call of the trace comes after some `P` call. -/
def Guarded {κ : Type} (P Q : κ → Prop) (trace : List κ) : Prop :=
  ∀ pre k post, trace = pre ++ k :: post → Q k → ∃ j ∈ pre, P j

section Guarded
variable {κ : Type} {P Q : κ → Prop}

theorem guarded_of_forall_not {trace : List κ} (h : ∀ k ∈ trace, ¬ Q k) : Guarded P Q trace := by
  rintro pre k post rfl hk
  exact absurd hk (h k (by simp))

theorem Guarded.append {s t : List κ} (hs : Guarded P Q s) (ht : ∀ k ∈ t, ¬ Q k) :
    Guarded P Q (s++t) := by
  intro pre k post he hk
  rcases List.append_eq_append_iff.mp he with ⟨r,hpre,hr⟩ | ⟨r,hspre,hr⟩
  · exact absurd hk (ht k (by simp [hr]))
  · cases r with
    | nil =>
      have htk : t = k::post := hr.symm
      exact absurd hk (ht k (by simp [htk]))
    | cons j r =>
      obtain ⟨rfl,-⟩ := List.cons.inj hr
      exact hs pre k r hspre hk

/-- After one `P` call anything goes. -/
theorem Guarded.append_of_mem {s : List κ} (hs : Guarded P Q s) {j : κ} (hj : j ∈ s) (hP : P j)
    (t : List κ) : Guarded P Q (s++t) := by
  intro pre k post he hk
  rcases List.append_eq_append_iff.mp he with ⟨r,hpre,-⟩ | ⟨r,hspre,hr⟩
  · exact ⟨j,by simp [hpre,hj],hP⟩
  · cases r with
    | nil => exact ⟨j,by simpa [hspre] using hj,hP⟩
    | cons i r =>
      obtain ⟨rfl,-⟩ := List.cons.inj hr
      exact hs pre k r hspre hk

end Guarded
end BarcodeWorker
