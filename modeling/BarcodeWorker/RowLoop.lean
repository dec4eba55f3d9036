import BarcodeWorker.Traced

/-!
# Row loops over an offset-limited builder

A column builder concatenates the values of its rows in one buffer whose end must stay within a
fixed limit. A loop that computes one optional value a row and appends it is compared with the
pointwise traversal of the rows: `rowLoop_outcome` says that it is that traversal as long as the
rows before the first failing one fit, and a panic otherwise.
-/

namespace BarcodeWorker

namespace Outcome

variable {ι ε α : Type}

theorem mapM_eq_ok_iff (f : ι → Outcome ε α) (is : List ι) (as : List α) :
    is.mapM f = .ok as ↔ List.Forall₂ (fun i a => f i = .ok a) is as := by
  induction is generalizing as with
  | nil => cases as <;> simp
  | cons i is ih =>
    rw [List.mapM_cons,bind_eq_ok_iff]
    constructor
    · rintro ⟨a,ha,h⟩
      obtain ⟨rest,hrest,he⟩ := (bind_eq_ok_iff _ _ _).mp h
      cases he
      exact .cons ha ((ih rest).mp hrest)
    · intro h
      cases h with
      | cons ha hrest => exact ⟨_,ha,by simp [(ih _).mpr hrest]⟩

theorem mapM_ok_exists_iff (f : ι → Outcome ε α) (is : List ι) :
    (∃ as, is.mapM f = .ok as) ↔ ∀ i ∈ is, ∃ a, f i = .ok a := by
  simp only [mapM_eq_ok_iff]
  induction is with
  | nil => exact ⟨fun _ => by simp,fun _ => ⟨[],.nil⟩⟩
  | cons i is ih =>
    rw [List.forall_mem_cons,← ih]
    constructor
    · rintro ⟨as,has⟩
      cases has with
      | cons ha hrest => exact ⟨⟨_,ha⟩,⟨_,hrest⟩⟩
    · rintro ⟨⟨a,ha⟩,⟨as,has⟩⟩
      exact ⟨a::as,.cons ha has⟩

/-- Each value of a traversal comes from the row at its own index. -/
theorem mapM_ok_getElem? {f : ι → Outcome ε α} {is : List ι} {as : List α}
    (h : is.mapM f = .ok as) {n : ℕ} {i : ι} (hi : is[n]? = some i) :
    ∃ a, as[n]? = some a ∧ f i = .ok a := by
  rw [mapM_eq_ok_iff] at h
  induction h generalizing n with
  | nil => simp at hi
  | cons ha _ ih =>
    cases n with
    | zero =>
      obtain rfl := Option.some.inj hi
      exact ⟨_,rfl,ha⟩
    | succ n => exact ih hi

/-- Each value of a traversal comes from one of its rows. -/
theorem mapM_ok_mem {f : ι → Outcome ε α} {is : List ι} {as : List α} (h : is.mapM f = .ok as)
    {a : α} (ha : a ∈ as) : ∃ i ∈ is, f i = .ok a := by
  rw [mapM_eq_ok_iff] at h
  induction h with
  | nil => simp at ha
  | @cons i a' is as hi _ ih =>
    cases ha with
    | head => exact ⟨i,by simp,hi⟩
    | tail _ hmem =>
      obtain ⟨j,hj,he⟩ := ih hmem
      exact ⟨j,by simp [hj],he⟩

theorem mapM_ok_length {f : ι → Outcome ε α} {is : List ι} {as : List α}
    (h : is.mapM f = .ok as) : as.length = is.length :=
  ((mapM_eq_ok_iff f is as).mp h).length_eq.symm

/-- A traversal fails with the error of the first row that fails, and no later row matters. -/
theorem mapM_eq_error_iff (f : ι → Outcome ε α) (is : List ι) (e : ε) :
    is.mapM f = .error e ↔ ∃ pre i post, is = pre ++ i :: post ∧
      (∀ j ∈ pre, ∃ a, f j = .ok a) ∧ f i = .error e := by
  induction is with
  | nil => simp
  | cons i is ih =>
    cases hi : f i with
    | panic m =>
      simp only [List.mapM_cons,hi,panic_bind,reduceCtorEq,false_iff]
      rintro ⟨pre,j,post,hs,hpre,hj⟩
      cases pre with
      | nil => simp_all
      | cons k pre =>
        obtain ⟨rfl,-⟩ := List.cons.inj hs
        simpa [hi] using hpre i (by simp)
    | error e' =>
      simp only [List.mapM_cons,hi,error_bind,Outcome.error.injEq]
      constructor
      · rintro rfl; exact ⟨[],i,is,rfl,by simp,hi⟩
      · rintro ⟨pre,j,post,hs,hpre,hj⟩
        cases pre with
        | nil => simp_all
        | cons k pre =>
          obtain ⟨rfl,-⟩ := List.cons.inj hs
          simpa [hi] using hpre i (by simp)
    | ok a =>
      have hm : (i::is).mapM f = .error e ↔ is.mapM f = .error e := by
        rw [List.mapM_cons,hi,ok_bind]
        cases is.mapM f <;> simp
      rw [hm,ih]
      constructor
      · rintro ⟨pre,j,post,rfl,hpre,hj⟩
        refine ⟨i::pre,j,post,rfl,?_,hj⟩
        simpa [hi] using hpre
      · rintro ⟨pre,j,post,hs,hpre,hj⟩
        cases pre with
        | nil => simp_all
        | cons k pre =>
          obtain ⟨rfl,rfl⟩ := List.cons.inj hs
          exact ⟨pre,j,post,rfl,fun j hj' => hpre j (by simp [hj']),hj⟩

theorem mapM_ne_panic (f : ι → Outcome ε α) (is : List ι) (m : String)
    (hf : ∀ i ∈ is, f i ≠ .panic m) : is.mapM f ≠ .panic m := by
  induction is with
  | nil => simp
  | cons i is ih =>
    have hi := hf i (by simp)
    have hr := ih fun j hj => hf j (by simp [hj])
    rw [List.mapM_cons]
    cases h : f i with
    | panic m' => simpa [h] using hi
    | error e => simp
    | ok a => cases h' : is.mapM f <;> simp_all

/-- The values of the rows before the first one that does not succeed. -/
def okPrefix (f : ι → Outcome ε α) : List ι → List α
  | [] => []
  | i :: is =>
    match f i with
    | .ok a => a :: okPrefix f is
    | _ => []

theorem okPrefix_cons_ok (f : ι → Outcome ε α) {i : ι} {a : α} (h : f i = .ok a) (is : List ι) :
    okPrefix f (i::is) = a :: okPrefix f is := by
  simp [okPrefix,h]

theorem okPrefix_eq_of_mapM {f : ι → Outcome ε α} {is : List ι} {as : List α}
    (h : is.mapM f = .ok as) : okPrefix f is = as := by
  rw [mapM_eq_ok_iff] at h
  induction h with
  | nil => rfl
  | cons ha _ ih => rw [okPrefix_cons_ok f ha,ih]

theorem okPrefix_map {κ : Type} (f : ι → Outcome ε α) (g : κ → ι) (ks : List κ) :
    okPrefix f (ks.map g) = okPrefix (fun k => f (g k)) ks := by
  induction ks with
  | nil => rfl
  | cons k ks ih => simp only [List.map_cons,okPrefix,ih]

theorem okPrefix_congr {f g : ι → Outcome ε α} {is : List ι} (h : ∀ i ∈ is, f i = g i) :
    okPrefix f is = okPrefix g is := by
  induction is with
  | nil => rfl
  | cons i is ih =>
    have hrest := ih fun j hj => h j (by simp [hj])
    rw [okPrefix,okPrefix,h i (by simp),hrest]

theorem okPrefix_append_ok {f : ι → Outcome ε α} {is : List ι} {as : List α}
    (h : is.mapM f = .ok as) (js : List ι) : okPrefix f (is++js) = as ++ okPrefix f js := by
  rw [mapM_eq_ok_iff] at h
  induction h with
  | nil => rfl
  | cons ha _ ih => rw [List.cons_append,okPrefix_cons_ok f ha,ih,List.cons_append]

theorem okPrefix_prefix (f : ι → Outcome ε α) (is js : List ι) :
    okPrefix f is <+: okPrefix f (is++js) := by
  induction is with
  | nil => exact List.nil_prefix
  | cons i is ih =>
    rw [List.cons_append]
    cases hi : f i with
    | ok a =>
      rw [okPrefix_cons_ok f hi,okPrefix_cons_ok f hi]
      exact (List.prefix_cons_inj a).mpr ih
    | error e => simp [okPrefix,hi]
    | panic m => simp [okPrefix,hi]

theorem okPrefix_replicate {f : ι → Outcome ε α} {i : ι} {a : α} (h : f i = .ok a) (n : ℕ) :
    okPrefix f (List.replicate n i) = List.replicate n a := by
  induction n with
  | zero => rfl
  | succ n ih => rw [List.replicate_succ,okPrefix_cons_ok f h,ih,List.replicate_succ]

theorem mapM_eq_ok_map {f : ι → Outcome ε α} (g : ι → α) {is : List ι}
    (h : ∀ i ∈ is, f i = .ok (g i)) : is.mapM f = .ok (is.map g) := by
  rw [mapM_eq_ok_iff]
  induction is with
  | nil => exact .nil
  | cons i is ih => exact .cons (h i (by simp)) (ih fun j hj => h j (by simp [hj]))

end Outcome

/-- Bytes that the values of the rows take; a null row takes none. -/
def totalSize {α : Type} (size : α → ℕ) (rows : List (Option α)) : ℕ :=
  (rows.map fun r => r.elim 0 size).sum

section TotalSize
variable {α : Type} (size : α → ℕ)

@[simp] theorem totalSize_nil : totalSize size [] = 0 := rfl
@[simp] theorem totalSize_none (rows : List (Option α)) :
    totalSize size (none::rows) = totalSize size rows := by simp [totalSize]
@[simp] theorem totalSize_some (a : α) (rows : List (Option α)) :
    totalSize size (some a::rows) = size a + totalSize size rows := by simp [totalSize]
@[simp] theorem totalSize_append (rows rows' : List (Option α)) :
    totalSize size (rows++rows') = totalSize size rows + totalSize size rows' := by
  simp [totalSize]
@[simp] theorem totalSize_replicate (n : ℕ) (a : α) :
    totalSize size (List.replicate n (some a)) = n*size a := by simp [totalSize]

theorem totalSize_map {β : Type} (f : β → α) (rows : List (Option β)) :
    totalSize size (rows.map (Option.map f)) = totalSize (fun b => size (f b)) rows := by
  induction rows with
  | nil => rfl
  | cons r rows ih => cases r <;> simp [ih]

theorem totalSize_cons (r : Option α) (rows : List (Option α)) :
    totalSize size (r::rows) = r.elim 0 size + totalSize size rows := by simp [totalSize]

theorem totalSize_le_of_prefix {rows rows' : List (Option α)} (h : rows <+: rows') :
    totalSize size rows ≤ totalSize size rows' := by
  obtain ⟨rest,rfl⟩ := h
  rw [totalSize_append]
  exact Nat.le_add_right _ _

/-- Rows of at most `c` bytes each. -/
theorem totalSize_okPrefix_le {ι ε : Type} {f : ι → Outcome ε (Option α)} {is : List ι} {c : ℕ}
    (h : ∀ i ∈ is, ∀ r, f i = .ok r → totalSize size [r] ≤ c) :
    totalSize size (Outcome.okPrefix f is) ≤ is.length*c := by
  induction is with
  | nil => simp [Outcome.okPrefix]
  | cons i is ih =>
    have hrest := ih fun j hj => h j (by simp [hj])
    cases hi : f i with
    | ok r =>
      have hrow := h i (by simp) r hi
      have hcons : r::Outcome.okPrefix f is = [r] ++ Outcome.okPrefix f is := rfl
      rw [Outcome.okPrefix_cons_ok f hi,hcons,totalSize_append,List.length_cons,Nat.succ_mul]
      omega
    | error e => simp [Outcome.okPrefix,hi]
    | panic m => simp [Outcome.okPrefix,hi]

/-- Values of at least one byte each take at least a byte a row. -/
theorem length_le_totalSize {as : List α} (h : ∀ a ∈ as, 0 < size a) :
    as.length ≤ totalSize size (as.map some) := by
  induction as with
  | nil => simp
  | cons a as ih =>
    have ha := h a (by simp)
    have hrest := ih fun b hb => h b (by simp [hb])
    rw [List.map_cons,totalSize_some,List.length_cons]
    omega

/-- A row before the first failing one is among the rows that have to fit. -/
theorem totalSize_le_okPrefix {ι ε : Type} {f : ι → Outcome ε (Option α)} {pre : List ι}
    (hpre : ∀ j ∈ pre, ∃ r, f j = .ok r) {i : ι} (hi : i ∈ pre) {r : Option α} (h : f i = .ok r)
    (rest : List ι) :
    totalSize size [r] ≤ totalSize size (Outcome.okPrefix f (pre ++ rest)) := by
  induction pre with
  | nil => simp at hi
  | cons j pre ih =>
    obtain ⟨r',hr'⟩ := hpre j (by simp)
    rw [List.cons_append,Outcome.okPrefix_cons_ok f hr',totalSize_cons _ r']
    rcases List.mem_cons.mp hi with rfl | hi
    · obtain rfl : r' = r := by simpa [h] using hr'.symm
      simp [totalSize]
    · exact le_trans (ih (fun k hk => hpre k (by simp [hk])) hi) (Nat.le_add_left _ _)

end TotalSize

/-- Rows appended so far. The end of the value buffer is an offset, and stays within `limit`. -/
structure OffsetBuilder (α : Type) (size : α → ℕ) (limit : ℕ) where
  rows : List (Option α)
  fits : totalSize size rows ≤ limit

/-- What the builder panics with when an offset leaves its type. -/
def offsetOverflow : String := "byte array offset overflow"

namespace OffsetBuilder

variable {κ ε ι α : Type} {size : α → ℕ} {limit : ℕ}

def new : OffsetBuilder α size limit := ⟨[],Nat.zero_le _⟩

def appendNull (b : OffsetBuilder α size limit) : OffsetBuilder α size limit :=
  ⟨b.rows ++ [none],by simpa using b.fits⟩

def appendValue (b : OffsetBuilder α size limit) (a : α) :
    Traced κ ε (OffsetBuilder α size limit) :=
  if h : totalSize size (b.rows ++ [some a]) ≤ limit then pure ⟨b.rows ++ [some a],h⟩
  else .crash offsetOverflow

def append (b : OffsetBuilder α size limit) : Option α → Traced κ ε (OffsetBuilder α size limit)
  | none => pure b.appendNull
  | some a => b.appendValue a

@[simp] theorem append_none (b : OffsetBuilder α size limit) :
    (b.append none : Traced κ ε _) = pure b.appendNull := rfl

@[simp] theorem new_rows : (new : OffsetBuilder α size limit).rows = [] := rfl

theorem append_outcome_fits {b : OffsetBuilder α size limit} {r : Option α}
    (h : totalSize size (b.rows ++ [r]) ≤ limit) :
    (b.append r : Traced κ ε _).outcome = .ok ⟨b.rows ++ [r],h⟩ := by
  cases r with
  | none => rfl
  | some a => simp only [append,appendValue,dif_pos h,Traced.outcome_pure]

theorem appendValue_outcome_fits {b : OffsetBuilder α size limit} {a : α}
    (h : totalSize size (b.rows ++ [some a]) ≤ limit) :
    (b.appendValue a : Traced κ ε _).outcome = .ok ⟨b.rows ++ [some a],h⟩ :=
  append_outcome_fits h

theorem append_outcome_overflow {b : OffsetBuilder α size limit} {r : Option α}
    (h : ¬ totalSize size (b.rows ++ [r]) ≤ limit) :
    (b.append r : Traced κ ε _).outcome = .panic offsetOverflow := by
  cases r with
  | none => exact absurd (by simpa using b.fits) h
  | some a => simp only [append,appendValue,dif_neg h,Traced.outcome_crash]

@[simp] theorem append_trace (b : OffsetBuilder α size limit) (r : Option α) :
    (b.append r : Traced κ ε _).trace = [] := by
  cases r with
  | none => rfl
  | some a => simp only [append,appendValue]; split <;> rfl

end OffsetBuilder

section RowLoop
variable {κ ε ι α : Type} {size : α → ℕ} {limit : ℕ}

/-- One turn of the loop: compute the row and append it. -/
def rowStep (row : ι → Traced κ ε (Option α)) (b : OffsetBuilder α size limit) (i : ι) :
    Traced κ ε (OffsetBuilder α size limit) :=
  row i >>= b.append

def rowLoop (row : ι → Traced κ ε (Option α)) (is : List ι) (b : OffsetBuilder α size limit) :
    Traced κ ε (OffsetBuilder α size limit) :=
  is.foldlM (rowStep row) b

theorem rowLoop_cons (row : ι → Traced κ ε (Option α)) (i : ι) (is : List ι)
    (b : OffsetBuilder α size limit) :
    rowLoop row (i::is) b = rowStep row b i >>= rowLoop row is := List.foldlM_cons

/-- The run lemma. Rows appended equal rows visited, each from its own index, until a row fails
or the value buffer is full. -/
theorem rowLoop_outcome (row : ι → Traced κ ε (Option α)) (is : List ι)
    (b : OffsetBuilder α size limit) :
    OffsetBuilder.rows <$> (rowLoop row is b).outcome =
      if totalSize size (b.rows ++ Outcome.okPrefix (fun i => (row i).outcome) is) ≤ limit
      then (b.rows ++ ·) <$> is.mapM fun i => (row i).outcome
      else .panic offsetOverflow := by
  induction is generalizing b with
  | nil => simp [rowLoop,Outcome.okPrefix,b.fits]
  | cons i is ih =>
    rw [rowLoop_cons,rowStep]
    cases hi : (row i).outcome with
    | error e => simp [hi,Outcome.okPrefix,b.fits]
    | panic m => simp [hi,Outcome.okPrefix,b.fits]
    | ok r =>
      rw [Outcome.okPrefix_cons_ok (fun i => (row i).outcome) hi,List.mapM_cons]
      simp only [Traced.outcome_bind,hi,Outcome.ok_bind]
      by_cases hr : totalSize size (b.rows ++ [r]) ≤ limit
      · rw [OffsetBuilder.append_outcome_fits hr,Outcome.ok_bind,ih]
        simp only [List.append_assoc,List.singleton_append]
        congr 1
        cases is.mapM fun i => (row i).outcome <;> simp
      · have hall : ¬ totalSize size
            (b.rows ++ r :: Outcome.okPrefix (fun i => (row i).outcome) is) ≤ limit := by
          rw [totalSize_append,totalSize_cons] at *
          simp only [totalSize_nil] at hr
          omega
        rw [OffsetBuilder.append_outcome_overflow hr,if_neg hall]
        rfl

theorem map_range_getElem? {γ : Type} (cells : List γ) :
    (List.range cells.length).map (cells[·]?) = cells.map some := by
  apply List.ext_getElem?
  intro i
  by_cases hi : i < cells.length <;> simp [hi]

/-- The loop `for i in 0..len` over the cells of a column, read by index, is the traversal of its
cells. -/
theorem rowLoop_range_outcome {γ : Type} (row : ℕ → Traced κ ε (Option α)) (cells : List γ)
    (read : Option γ → Outcome ε (Option α)) (hrow : ∀ i, (row i).outcome = read cells[i]?) :
    OffsetBuilder.rows <$>
        (rowLoop row (List.range cells.length) (.new : OffsetBuilder α size limit)).outcome =
      if totalSize size (Outcome.okPrefix (fun c => read (some c)) cells) ≤ limit
      then cells.mapM fun c => read (some c)
      else .panic offsetOverflow := by
  have hm := List.mapM_map (g := read) (f := (cells[·]?)) (l := List.range cells.length)
  have ho := Outcome.okPrefix_map read (cells[·]?) (List.range cells.length)
  rw [map_range_getElem?,Outcome.okPrefix_map] at ho
  rw [map_range_getElem?,List.mapM_map] at hm
  rw [rowLoop_outcome]
  simp only [hrow,OffsetBuilder.new_rows,List.nil_append,← ho]
  congr 1
  exact (congrArg _ hm.symm).trans (id_map _)

theorem rowStep_trace (row : ι → Traced κ ε (Option α)) (b : OffsetBuilder α size limit) (i : ι) :
    (rowStep row b i).trace = (row i).trace := by
  rw [rowStep]
  cases h : (row i).outcome with
  | ok r => simp [Traced.trace_bind_ok h]
  | error e => simp [Traced.trace_bind_error h]
  | panic m => simp [Traced.trace_bind_panic h]

/-- Every call of a loop is made by one of its rows, and the rows before it succeeded. -/
theorem mem_rowLoop_trace {row : ι → Traced κ ε (Option α)} {is : List ι}
    {b : OffsetBuilder α size limit} {k : κ} (hk : k ∈ (rowLoop row is b).trace) :
    ∃ pre i post, is = pre ++ i :: post ∧ (∀ j ∈ pre, ∃ r, (row j).outcome = .ok r) ∧
      k ∈ (row i).trace := by
  induction is generalizing b with
  | nil => simp [rowLoop] at hk
  | cons i is ih =>
    have hhere (hki : k ∈ (row i).trace) : ∃ pre i' post, i::is = pre ++ i' :: post ∧
        (∀ j ∈ pre, ∃ r, (row j).outcome = .ok r) ∧ k ∈ (row i').trace :=
      ⟨[],i,is,rfl,by simp,hki⟩
    rw [rowLoop_cons] at hk
    cases h : (rowStep row b i).outcome with
    | ok b' =>
      rw [Traced.trace_bind_ok h,rowStep_trace,List.mem_append] at hk
      rcases hk with hk | hk
      · exact hhere hk
      · obtain ⟨r,hr,-⟩ := (Outcome.bind_eq_ok_iff _ _ _).mp
          ((Traced.outcome_bind (row i) b.append).symm.trans h)
        obtain ⟨pre,j,post,rfl,hpre,hkj⟩ := ih hk
        refine ⟨i::pre,j,post,rfl,?_,hkj⟩
        simpa [hr] using hpre
    | error e =>
      rw [Traced.trace_bind_error h,rowStep_trace] at hk
      exact hhere hk
    | panic m =>
      rw [Traced.trace_bind_panic h,rowStep_trace] at hk
      exact hhere hk

/-- Null rows do not keep the loop from the row after them. -/
theorem mem_rowLoop_trace_of_nulls {row : ι → Traced κ ε (Option α)} {pre post : List ι} {i : ι}
    (hpre : ∀ j ∈ pre, (row j).outcome = .ok none) {k : κ} (hk : k ∈ (row i).trace)
    (b : OffsetBuilder α size limit) : k ∈ (rowLoop row (pre ++ i :: post) b).trace := by
  induction pre generalizing b with
  | nil =>
    rw [List.nil_append,rowLoop_cons]
    cases h : (rowStep row b i).outcome with
    | ok b' => simp [Traced.trace_bind_ok h,rowStep_trace,hk]
    | error e => simp [Traced.trace_bind_error h,rowStep_trace,hk]
    | panic m => simp [Traced.trace_bind_panic h,rowStep_trace,hk]
  | cons j pre ih =>
    have hstep : (rowStep row b j).outcome = .ok b.appendNull := by
      simp [rowStep,hpre j (by simp)]
    rw [List.cons_append,rowLoop_cons,Traced.trace_bind_ok hstep,List.mem_append]
    exact .inr (ih (fun j' hj' => hpre j' (by simp [hj'])) b.appendNull)

/-- Where a cell passes a test, the first cell that does is at no later index. -/
theorem exists_first_le {γ : Type} {p : γ → Bool} {cells : List γ} {i : ℕ} {cell : γ}
    (hc : cells[i]? = some cell) (hp : p cell = true) : ∃ first j,
      cells.find? p = some first ∧ p first = true ∧ cells[j]? = some first ∧ j ≤ i := by
  obtain ⟨first,hfirst⟩ : ∃ first, cells.find? p = some first := by
    rw [← Option.isSome_iff_exists,List.find?_isSome]
    exact ⟨cell,List.mem_of_getElem? hc,hp⟩
  obtain ⟨hpass,j,hj,hat,hbefore⟩ := List.find?_eq_some_iff_getElem.mp hfirst
  refine ⟨first,j,hfirst,hpass,by rw [List.getElem?_eq_getElem hj,hat],?_⟩
  obtain ⟨hi,rfl⟩ := List.getElem?_eq_some_iff.mp hc
  by_contra hlt
  have hno := hbefore i (by omega)
  simp [hp] at hno

/-- The indices of a range around one of them. -/
theorem range_eq_append {i n : ℕ} (hi : i < n) :
    ∃ post, List.range n = List.range i ++ i :: post := by
  refine ⟨(List.range n).drop (i+1),?_⟩
  have hlt : i < (List.range n).length := by simpa using hi
  have htake : (List.range n).take i = List.range i := by
    rw [List.take_range,Nat.min_eq_left hi.le]
  have hdrop : (List.range n).drop i = i :: (List.range n).drop (i+1) := by
    rw [List.drop_eq_getElem_cons hlt,List.getElem_range]
  rw [← htake,← hdrop,List.take_append_drop]

theorem eq_range_of_append {n i : ℕ} {pre post : List ℕ} (h : List.range n = pre ++ i :: post) :
    pre = List.range i ∧ i < n := by
  have hi : (List.range n)[pre.length]? = some i := by rw [h]; simp
  obtain ⟨hlt,hget⟩ := List.getElem?_eq_some_iff.mp hi
  rw [List.getElem_range] at hget
  have htake : (List.range n).take pre.length = pre := by rw [h]; simp
  rw [List.take_range,Nat.min_eq_left (by simpa using hlt.le),hget] at htake
  rw [List.length_range,hget] at hlt
  exact ⟨htake.symm,hlt⟩

end RowLoop
end BarcodeWorker
