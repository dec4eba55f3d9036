import BarcodeWorker.RowLoop
import Mathlib.Computability.Language

/-!
# Call protocols

A protocol is a language of rounds. A computation follows it within a budget `n` when its calls
are at most `n` rounds, one after the other, whatever the computation ends in. Budgets add up
along a sequence, so a bound on each row is a bound on a loop.
-/

namespace BarcodeWorker

section Rounds
variable {κ : Type} {L : Language κ}

/-- At most `n` rounds. -/
def Rounds (L : Language κ) (n : ℕ) : Language κ := (1+L)^n

theorem mem_rounds_iff {n : ℕ} {t : List κ} : t ∈ Rounds L n ↔
    ∃ rounds : List (List κ), t = rounds.flatten ∧ rounds.length = n ∧
      ∀ r ∈ rounds, r = [] ∨ r ∈ L := by
  rw [Rounds,Language.mem_pow]
  simp only [Language.mem_add,Language.mem_one]

theorem nil_mem_rounds (n : ℕ) : [] ∈ Rounds L n := by
  rw [mem_rounds_iff]
  exact ⟨List.replicate n [],by simp,by simp,fun r hr => .inl (List.eq_of_mem_replicate hr)⟩

theorem mem_rounds_one {t : List κ} (ht : t ∈ L) : t ∈ Rounds L 1 := by
  rw [mem_rounds_iff]
  exact ⟨[t],by simp,rfl,by simp [ht]⟩

theorem append_mem_rounds {m n : ℕ} {s t : List κ} (hs : s ∈ Rounds L m) (ht : t ∈ Rounds L n) :
    s ++ t ∈ Rounds L (m+n) := by
  rw [Rounds,pow_add]
  exact Language.append_mem_mul hs ht

theorem mem_rounds_of_le {m n : ℕ} (h : m ≤ n) {t : List κ} (ht : t ∈ Rounds L m) :
    t ∈ Rounds L n := by
  have happ := append_mem_rounds ht (nil_mem_rounds (n-m))
  rwa [List.append_nil,Nat.add_sub_cancel' h] at happ

/-- A call belongs to a round, and what stands before and after it in the round does so in the
whole. -/
theorem exists_round {n : ℕ} {pre post : List κ} {k : κ} (ht : pre ++ k :: post ∈ Rounds L n) :
    ∃ before first last after, first ++ k :: last ∈ L ∧ pre = before ++ first ∧
      post = last ++ after := by
  obtain ⟨rounds,hflat,-,hrounds⟩ := mem_rounds_iff.mp ht
  have hsplit := List.flatten_eq_append_iff.mp hflat.symm
  rcases hsplit with ⟨before,rest,rfl,rfl,hrest⟩ | ⟨before,first,k',last,after,rfl,rfl,hrest⟩
  · obtain ⟨empties,last,after,rfl,hempty,rfl⟩ := List.flatten_eq_cons_iff.mp hrest.symm
    refine ⟨before.flatten,[],last,after.flatten,?_,by simp,rfl⟩
    have hround := hrounds (k::last) (by simp)
    simpa using hround
  · obtain ⟨rfl,rfl⟩ := List.cons.inj hrest
    refine ⟨before.flatten,first,last,after.flatten,?_,rfl,rfl⟩
    have hround := hrounds (first ++ k :: last) (by simp)
    simpa using hround

theorem append_cons_eq_cons_iff {pre post t : List κ} {k k' : κ} :
    pre ++ k :: post = k' :: t ↔
      (pre = [] ∧ k = k' ∧ post = t) ∨ ∃ rest, pre = k' :: rest ∧ rest ++ k :: post = t := by
  cases pre <;> simp [eq_comm]

section Counting
variable {p : κ → Bool} {n : ℕ} {t : List κ}

theorem countP_le_mul (c : ℕ) (hL : ∀ r ∈ L, r.countP p ≤ c) (ht : t ∈ Rounds L n) :
    t.countP p ≤ n*c := by
  obtain ⟨rounds,rfl,rfl,hrounds⟩ := mem_rounds_iff.mp ht
  clear ht
  induction rounds with
  | nil => simp
  | cons r rounds ih =>
    have hrest := ih fun r' hr' => hrounds r' (by simp [hr'])
    have hr : r.countP p ≤ c := by
      rcases hrounds r (by simp) with rfl | hmem
      · simp
      · exact hL r hmem
    rw [List.flatten_cons,List.countP_append,List.length_cons,Nat.add_mul,Nat.one_mul]
    omega

end Counting
end Rounds

namespace Traced

variable {κ ε ε' ι α β : Type} {L : Language κ}

/-- The calls are at most `n` rounds. -/
def Follows (L : Language κ) (n : ℕ) (x : Traced κ ε α) : Prop := x.trace ∈ Rounds L n

theorem follows_of_trace_nil {x : Traced κ ε α} (h : x.trace = []) (n : ℕ) : x.Follows L n := by
  rw [Follows,h]
  exact nil_mem_rounds n

theorem follows_of_trace_mem {x : Traced κ ε α} (h : x.trace ∈ L) : x.Follows L 1 := mem_rounds_one h

theorem Follows.bind {x : Traced κ ε α} {f : α → Traced κ ε β} {m n : ℕ} (hx : x.Follows L m)
    (hf : ∀ a, x.outcome = .ok a → (f a).Follows L n) : (x >>= f).Follows L (m+n) := by
  rw [Follows]
  cases h : x.outcome with
  | ok a =>
    rw [trace_bind_ok h]
    exact append_mem_rounds hx (hf a h)
  | error e =>
    rw [trace_bind_error h]
    exact mem_rounds_of_le (Nat.le_add_right m n) hx
  | panic m' =>
    rw [trace_bind_panic h]
    exact mem_rounds_of_le (Nat.le_add_right m n) hx

/-- A step that calls nothing costs nothing. -/
theorem Follows.silent_bind {x : Traced κ ε α} {f : α → Traced κ ε β} {n : ℕ} (hx : x.trace = [])
    (hf : ∀ a, x.outcome = .ok a → (f a).Follows L n) : (x >>= f).Follows L n := by
  have hbind := (follows_of_trace_nil hx 0).bind hf
  rwa [Nat.zero_add] at hbind

theorem Follows.map {x : Traced κ ε α} {n : ℕ} (hx : x.Follows L n) (f : α → β) :
    (f <$> x).Follows L n := by
  rw [Follows,trace_map]
  exact hx

/-- A loop follows the protocol within the sum of the budgets of its turns. -/
theorem Follows.foldlM {step : β → ι → Traced κ ε β} {cost : ι → ℕ} {is : List ι}
    (hstep : ∀ i ∈ is, ∀ b, (step b i).Follows L (cost i)) (b : β) :
    (is.foldlM step b).Follows L (is.map cost).sum := by
  induction is generalizing b with
  | nil => exact follows_of_trace_nil rfl 0
  | cons i is ih =>
    rw [List.foldlM_cons,List.map_cons,List.sum_cons]
    exact (hstep i (by simp) b).bind fun b' _ => ih (fun j hj => hstep j (by simp [hj])) b'

end Traced
end BarcodeWorker
