import BarcodeWorker.RowLoop

/-!
# Row functions

A row function is strict: null comes to null. A value comes to a value, to null or to an error,
and the calls made on the way are part of the result. Lifted to a column it visits one row after
the other and ends at the first error; scanned over chunks it visits one chunk after the other.
Row functions form a category, and a column does not see where its chunks begin.
-/

namespace BarcodeWorker

namespace Traced

variable {κ ε ι α β : Type}

@[ext] theorem ext {x y : Traced κ ε α} (ho : x.outcome = y.outcome) (ht : x.trace = y.trace) :
    x = y := by
  cases x
  cases y
  simp_all

@[simp] theorem mk_panic_bind (m : String) (t : List κ) (f : α → Traced κ ε β) :
    (⟨.panic m,t⟩ >>= f : Traced κ ε β) = ⟨.panic m,t⟩ := rfl

theorem outcome_mapM (x : ι → Traced κ ε α) (is : List ι) :
    (is.mapM x).outcome = is.mapM fun i => (x i).outcome := by
  induction is with
  | nil => rfl
  | cons i is ih =>
    rw [List.mapM_cons,List.mapM_cons,outcome_bind]
    congr 1
    funext a
    rw [outcome_bind,ih]
    rfl

theorem mapM_congr_left {x y : ι → Traced κ ε α} {is : List ι} (h : ∀ i ∈ is, x i = y i) :
    is.mapM x = is.mapM y := by
  induction is with
  | nil => rfl
  | cons i is ih =>
    have hrest := ih fun j hj => h j (by simp [hj])
    rw [List.mapM_cons,List.mapM_cons,h i (by simp),hrest]

/-- A conversion of every result commutes with the traversal. -/
theorem mapM_map_result (h : α → β) (x : ι → Traced κ ε α) (is : List ι) :
    is.mapM (fun i => h <$> x i) = List.map h <$> is.mapM x := by
  induction is with
  | nil => simp
  | cons i is ih => simp [List.mapM_cons,ih]

end Traced

/-- A strict function of one value, with the calls it makes. -/
def RowFunction (κ ε α β : Type) : Type := α → Traced κ ε (Option β)

namespace RowFunction

variable {κ ε α β γ : Type}

def onCell (f : RowFunction κ ε α β) : Option α → Traced κ ε (Option β)
  | none => pure none
  | some a => f a

@[simp] theorem onCell_none (f : RowFunction κ ε α β) : f.onCell none = pure none := rfl
@[simp] theorem onCell_some (f : RowFunction κ ε α β) (a : α) : f.onCell (some a) = f a := rfl

/-- Row after row, up to the first error. -/
def lift (f : RowFunction κ ε α β) (cells : List (Option α)) : Traced κ ε (List (Option β)) :=
  cells.mapM f.onCell

@[simp] theorem lift_nil (f : RowFunction κ ε α β) : f.lift [] = pure [] := rfl

theorem lift_cons (f : RowFunction κ ε α β) (c : Option α) (cells : List (Option α)) :
    f.lift (c::cells) = f.onCell c >>= fun r => List.cons r <$> f.lift cells := by
  simp only [lift,List.mapM_cons,map_eq_pure_bind]

theorem lift_append (f : RowFunction κ ε α β) (cells cells' : List (Option α)) :
    f.lift (cells++cells') =
      f.lift cells >>= fun rows => (rows ++ ·) <$> f.lift cells' := by
  simp only [lift,List.mapM_append,map_eq_pure_bind]

/-! ## Chunks -/

/-- Chunk after chunk, up to the first error. -/
def scan (f : RowFunction κ ε α β) (chunks : List (List (Option α))) :
    Traced κ ε (List (List (Option β))) := chunks.mapM f.lift

/-- Rows, error and calls of a scan are those of the whole column. -/
theorem flatten_scan (f : RowFunction κ ε α β) (chunks : List (List (Option α))) :
    List.flatten <$> f.scan chunks = f.lift chunks.flatten := by
  induction chunks with
  | nil => simp [scan]
  | cons chunk chunks ih =>
    rw [List.flatten_cons,lift_append,← ih]
    simp [scan,List.mapM_cons]

/-! ## Composition -/

/-- The row function that changes nothing. -/
def id : RowFunction κ ε α α := fun a => pure (some a)

/-- First `f`, then `g` on what `f` returns. -/
def comp (g : RowFunction κ ε β γ) (f : RowFunction κ ε α β) : RowFunction κ ε α γ :=
  fun a => f a >>= g.onCell

theorem onCell_comp (g : RowFunction κ ε β γ) (f : RowFunction κ ε α β) (c : Option α) :
    (g.comp f).onCell c = f.onCell c >>= g.onCell := by
  cases c with
  | none => simp
  | some a => rfl

@[simp] theorem onCell_id (c : Option α) : (id : RowFunction κ ε α α).onCell c = pure c := by
  cases c <;> rfl

@[simp] theorem lift_id (cells : List (Option α)) :
    (id : RowFunction κ ε α α).lift cells = pure cells := by
  induction cells with
  | nil => rfl
  | cons c cells ih => rw [lift_cons,ih,onCell_id,pure_bind,map_pure]

/-- Row by row in two steps is row by row in one. -/
theorem forall₂_comp_iff {R : α → β → Prop} {S : β → γ → Prop} {as : List α} {cs : List γ} :
    (∃ bs, List.Forall₂ R as bs ∧ List.Forall₂ S bs cs) ↔
      List.Forall₂ (fun a c => ∃ b, R a b ∧ S b c) as cs := by
  constructor
  · rintro ⟨bs,hR,hS⟩
    induction hR generalizing cs with
    | nil =>
      cases hS
      exact .nil
    | cons hab _ ih =>
      cases hS with
      | cons hbc hrest => exact .cons ⟨_,hab,hbc⟩ (ih hrest)
  · intro h
    induction h with
    | nil => exact ⟨[],.nil,.nil⟩
    | cons hac _ ih =>
      obtain ⟨b,hab,hbc⟩ := hac
      obtain ⟨bs,hR,hS⟩ := ih
      exact ⟨b::bs,.cons hab hR,.cons hbc hS⟩

section Outcomes
variable (f : RowFunction κ ε α β) (g : RowFunction κ ε β γ)

theorem lift_eq_ok_iff (cells : List (Option α)) (rows : List (Option β)) :
    (f.lift cells).outcome = .ok rows ↔
      List.Forall₂ (fun c r => (f.onCell c).outcome = .ok r) cells rows := by
  rw [lift,Traced.outcome_mapM,Outcome.mapM_eq_ok_iff]

/-- Column by column and row by row a composition succeeds together, with the same rows. Where it
fails the two may end in different errors, as a column runs through `f` before `g` starts. -/
theorem lift_comp_eq_ok_iff (cells : List (Option α)) (rows : List (Option γ)) :
    (f.lift cells >>= g.lift).outcome = .ok rows ↔ ((g.comp f).lift cells).outcome = .ok rows := by
  rw [Traced.outcome_bind,Outcome.bind_eq_ok_iff,lift_eq_ok_iff]
  simp only [lift_eq_ok_iff,onCell_comp,Traced.outcome_bind,Outcome.bind_eq_ok_iff]
  exact forall₂_comp_iff

end Outcomes

/-! ## Calls -/

/-- The cells that a column comes to: all up to the first one that does not succeed, and that one. -/
def reached (f : RowFunction κ ε α β) : List (Option α) → List (Option α)
  | [] => []
  | c :: cells =>
    match (f.onCell c).outcome with
    | .ok _ => c :: f.reached cells
    | _ => [c]

/-- Each cell that is reached makes its calls once, in order. -/
theorem lift_trace (f : RowFunction κ ε α β) (cells : List (Option α)) :
    (f.lift cells).trace = (f.reached cells).flatMap fun c => (f.onCell c).trace := by
  induction cells with
  | nil => rfl
  | cons c cells ih =>
    rw [lift_cons,reached]
    cases hc : (f.onCell c).outcome with
    | ok r => rw [Traced.trace_bind_ok hc,Traced.trace_map,ih,List.flatMap_cons]
    | error e => rw [Traced.trace_bind_error hc,List.flatMap_singleton]
    | panic m => rw [Traced.trace_bind_panic hc,List.flatMap_singleton]

/-- Where a column succeeds, every cell is reached. -/
theorem reached_of_ok {f : RowFunction κ ε α β} {cells : List (Option α)} {rows : List (Option β)}
    (hok : (f.lift cells).outcome = .ok rows) : f.reached cells = cells := by
  rw [lift_eq_ok_iff] at hok
  induction hok with
  | nil => rfl
  | cons hc _ ih => rw [reached,hc,ih]

/-- Where it fails, the last cell reached is the first that fails, with the error of the column. -/
theorem reached_of_error {f : RowFunction κ ε α β} {cells : List (Option α)} {e : ε}
    (herr : (f.lift cells).outcome = .error e) : ∃ pre c post, cells = pre ++ c::post ∧
      f.reached cells = pre ++ [c] ∧ (f.onCell c).outcome = .error e ∧
      ∀ c' ∈ pre, ∃ r, (f.onCell c').outcome = .ok r := by
  rw [lift,Traced.outcome_mapM,Outcome.mapM_eq_error_iff] at herr
  obtain ⟨pre,c,post,rfl,hpre,hc⟩ := herr
  refine ⟨pre,c,post,rfl,?_,hc,hpre⟩
  induction pre with
  | nil => rw [List.nil_append,reached,hc]; rfl
  | cons c' pre ih =>
    obtain ⟨r,hr⟩ := hpre c' (by simp)
    rw [List.cons_append,reached,hr,ih fun c'' hmem => hpre c'' (by simp [hmem])]
    rfl

/-! ## Room in the builder -/

/-- The rows before the first failing one have room in a builder of the given limit. -/
def Fits (size : β → ℕ) (limit : ℕ) (f : RowFunction κ ε α β) (cells : List (Option α)) : Prop :=
  totalSize size (Outcome.okPrefix (fun c => (f.onCell c).outcome) cells) ≤ limit

/-- Every chunk that a scan comes to has room, in a builder of its own. -/
def ScanFits (size : β → ℕ) (limit : ℕ) (f : RowFunction κ ε α β)
    (chunks : List (List (Option α))) : Prop :=
  ∀ pre chunk post, chunks = pre ++ chunk :: post → (∃ rows, (f.scan pre).outcome = .ok rows) →
    f.Fits size limit chunk

section Room
variable {size : β → ℕ} {limit : ℕ} {f : RowFunction κ ε α β}

theorem ScanFits.head {chunk : List (Option α)} {chunks : List (List (Option α))}
    (h : f.ScanFits size limit (chunk::chunks)) : f.Fits size limit chunk :=
  h [] chunk chunks rfl ⟨[],rfl⟩

theorem ScanFits.tail {chunk : List (Option α)} {chunks : List (List (Option α))}
    (h : f.ScanFits size limit (chunk::chunks)) {rows : List (Option β)}
    (hrows : (f.lift chunk).outcome = .ok rows) : f.ScanFits size limit chunks := by
  intro pre chunk' post hs hpre
  obtain ⟨rest,hrest⟩ := hpre
  refine h (chunk::pre) chunk' post (by rw [hs]; rfl) ⟨rows::rest,?_⟩
  have hscan : (pre.mapM f.lift).outcome = .ok rest := hrest
  simp [scan,List.mapM_cons,hrows,hscan]

/-- A column that succeeds needs the room of all its rows. -/
theorem fits_iff_of_lift {cells : List (Option α)} {rows : List (Option β)}
    (h : (f.lift cells).outcome = .ok rows) :
    f.Fits size limit cells ↔ totalSize size rows ≤ limit := by
  rw [lift,Traced.outcome_mapM] at h
  rw [Fits,Outcome.okPrefix_eq_of_mapM h]

theorem scanFits_cons_iff (chunk : List (Option α)) (chunks : List (List (Option α))) :
    f.ScanFits size limit (chunk::chunks) ↔ f.Fits size limit chunk ∧
      ∀ rows, (f.lift chunk).outcome = .ok rows → f.ScanFits size limit chunks := by
  constructor
  · intro h
    exact ⟨h.head,fun rows hrows => h.tail hrows⟩
  · rintro ⟨hhead,htail⟩ pre chunk' post hs ⟨rows,hrows⟩
    cases pre with
    | nil =>
      obtain ⟨rfl,-⟩ := List.cons.inj hs
      exact hhead
    | cons first pre =>
      obtain ⟨rfl,rfl⟩ := List.cons.inj hs
      rw [scan,List.mapM_cons,Traced.outcome_bind,Outcome.bind_eq_ok_iff] at hrows
      obtain ⟨firstRows,hfirst,hrest⟩ := hrows
      rw [Traced.outcome_bind,Outcome.bind_eq_ok_iff] at hrest
      obtain ⟨restRows,hrest,-⟩ := hrest
      exact htail firstRows hfirst pre chunk' post rfl ⟨restRows,hrest⟩

/-- A column that has room as a whole has room in every cutting. -/
theorem scanFits_of_fits {chunks : List (List (Option α))}
    (h : f.Fits size limit chunks.flatten) : f.ScanFits size limit chunks := by
  rintro pre chunk post rfl ⟨rows,hrows⟩
  have hpre : (f.lift pre.flatten).outcome = .ok rows.flatten := by
    rw [← flatten_scan,Traced.outcome_map,hrows]
    rfl
  rw [lift,Traced.outcome_mapM] at hpre
  rw [Fits,List.flatten_append,List.flatten_cons,Outcome.okPrefix_append_ok hpre,
    totalSize_append] at h
  have hle := totalSize_le_of_prefix size
    (Outcome.okPrefix_prefix (fun c => (f.onCell c).outcome) chunk post.flatten)
  exact le_trans hle (le_trans (Nat.le_add_left _ _) h)

/-- A batch by batch implementation of the lifted function implements its scan, rows, error and
calls, as long as the batches it comes to have room. -/
theorem mapM_refines {σ τ : Type} {impl : σ → Traced κ ε τ} {values : σ → List (Option α)}
    {rowsOf : τ → List (Option β)} {batches : List σ}
    (himpl : ∀ b ∈ batches, f.Fits size limit (values b) → rowsOf <$> impl b = f.lift (values b))
    (hfits : f.ScanFits size limit (batches.map values)) :
    List.flatMap rowsOf <$> batches.mapM impl = f.lift (batches.flatMap values) := by
  induction batches with
  | nil => simp
  | cons b batches ih =>
    have hb := himpl b (by simp) hfits.head
    rw [List.flatMap_cons,lift_append,← hb,List.mapM_cons]
    cases hx : impl b with
    | mk outcome trace =>
      cases outcome with
      | error e => simp
      | panic m => simp
      | ok out =>
        have hrows : (f.lift (values b)).outcome = .ok (rowsOf out) := by
          rw [← hb,hx]
          rfl
        have hrest := ih (fun b' hb' => himpl b' (by simp [hb'])) (hfits.tail hrows)
        rw [← hrest]
        ext1
        · simp
        · simp

/-- Where the batches panic for want of room only, a scan panics when a batch it comes to has
none. -/
theorem mapM_ne_panic_iff {σ τ : Type} {impl : σ → Traced κ ε τ} {values : σ → List (Option α)}
    {rowsOf : τ → List (Option β)} {batches : List σ}
    (himpl : ∀ b ∈ batches, f.Fits size limit (values b) → rowsOf <$> impl b = f.lift (values b))
    (hpanic : ∀ b ∈ batches, (∀ m, (impl b).outcome ≠ .panic m) ↔ f.Fits size limit (values b)) :
    (∀ m, (batches.mapM impl).outcome ≠ .panic m) ↔ f.ScanFits size limit (batches.map values) := by
  induction batches with
  | nil => simp [ScanFits]
  | cons b batches ih =>
    have hrest := ih (fun b' hb' => himpl b' (by simp [hb'])) fun b' hb' => hpanic b' (by simp [hb'])
    have hb := hpanic b (by simp)
    rw [List.map_cons,scanFits_cons_iff,← hb,← hrest,List.mapM_cons]
    cases hx : (impl b).outcome with
    | panic m => simp [hx]
    | error e =>
      have hfit : f.Fits size limit (values b) := hb.mp (by simp [hx])
      have hlift : (f.lift (values b)).outcome = .error e := by
        rw [← himpl b (by simp) hfit,Traced.outcome_map,hx]
        rfl
      simp [hx,hlift]
    | ok out =>
      have hfit : f.Fits size limit (values b) := hb.mp (by simp [hx])
      have hlift : (f.lift (values b)).outcome = .ok (rowsOf out) := by
        rw [← himpl b (by simp) hfit,Traced.outcome_map,hx]
        rfl
      have hne : ∀ m, ((impl b >>= fun out => do
          let outs ← batches.mapM impl
          pure (out::outs) : Traced κ ε (List τ)).outcome ≠ .panic m ↔
            (batches.mapM impl).outcome ≠ .panic m) := by
        intro m
        rw [Traced.outcome_bind,hx,Outcome.ok_bind,Traced.outcome_bind]
        cases (batches.mapM impl).outcome <;> simp
      rw [forall_congr' hne]
      simp [hlift]

end Room

/-! ## Columns that are read alike -/

/-- Two functions that agree on the cells of two columns, row by row, agree on the columns. -/
theorem lift_congr {f : RowFunction κ ε α β} {g : RowFunction κ ε γ β} {cells : List (Option α)}
    {cells' : List (Option γ)}
    (h : List.Forall₂ (fun c c' => f.onCell c = g.onCell c') cells cells') :
    f.lift cells = g.lift cells' := by
  induction h with
  | nil => rfl
  | cons hc _ ih => rw [lift_cons,lift_cons,hc,ih]

theorem fits_congr {f : RowFunction κ ε α β} {g : RowFunction κ ε γ β} {cells : List (Option α)}
    {cells' : List (Option γ)}
    (h : List.Forall₂ (fun c c' => f.onCell c = g.onCell c') cells cells') (size : β → ℕ)
    (limit : ℕ) : f.Fits size limit cells ↔ g.Fits size limit cells' := by
  have hsame : Outcome.okPrefix (fun c => (f.onCell c).outcome) cells =
      Outcome.okPrefix (fun c => (g.onCell c).outcome) cells' := by
    induction h with
    | nil => rfl
    | cons hc _ ih => rw [Outcome.okPrefix,Outcome.okPrefix,hc,ih]
  rw [Fits,Fits,hsame]

/-! ## Computations of a row function -/

/-- A computation succeeds exactly when the function does on a column, with the same rows. -/
def Computes {τ : Type} (f : RowFunction κ ε α β) (rowsOf : τ → List (Option β))
    (x : Traced κ ε τ) (cells : List (Option α)) : Prop :=
  ∀ rows, (∃ out, x.outcome = .ok out ∧ rowsOf out = rows) ↔ (f.lift cells).outcome = .ok rows

section Computes
variable {σ τ υ : Type} {f : RowFunction κ ε α β} {g : RowFunction κ ε β γ}

theorem computes_of_eq {rowsOf : τ → List (Option β)} {x : Traced κ ε τ} {cells : List (Option α)}
    (h : rowsOf <$> x = f.lift cells) : f.Computes rowsOf x cells := by
  intro rows
  rw [← h,Traced.outcome_map]
  cases x.outcome <;> simp

theorem computes_pure {cells : τ → List (Option α)} (out : τ) :
    (id : RowFunction κ ε α α).Computes cells (pure out) (cells out) :=
  computes_of_eq (by rw [lift_id,map_pure])

/-- One computation after the other computes the composition. -/
theorem Computes.bind {rowsOf : τ → List (Option β)} {rowsOf' : υ → List (Option γ)}
    {x : Traced κ ε τ} {k : τ → Traced κ ε υ} {cells : List (Option α)}
    (hx : f.Computes rowsOf x cells)
    (hk : ∀ out, x.outcome = .ok out → g.Computes rowsOf' (k out) (rowsOf out)) :
    (g.comp f).Computes rowsOf' (x >>= k) cells := by
  intro rows
  rw [← lift_comp_eq_ok_iff,Traced.outcome_bind,Traced.outcome_bind,Outcome.bind_eq_ok_iff]
  constructor
  · rintro ⟨out,hout,hrows⟩
    obtain ⟨mid,hmid,hout⟩ := (Outcome.bind_eq_ok_iff _ _ _).mp hout
    exact ⟨rowsOf mid,(hx _).mp ⟨mid,hmid,rfl⟩,(hk mid hmid rows).mp ⟨out,hout,hrows⟩⟩
  · rintro ⟨mid,hmid,hrows⟩
    obtain ⟨out,hout,rfl⟩ := (hx mid).mpr hmid
    obtain ⟨out',hout',hrows⟩ := (hk out hout rows).mpr hrows
    exact ⟨out',(Outcome.bind_eq_ok_iff _ _ _).mpr ⟨out,hout,hout'⟩,hrows⟩

/-- Batch by batch, as long as no batch that is come to panics. -/
theorem Computes.mapM {impl : σ → Traced κ ε τ} {values : σ → List (Option α)}
    {rowsOf : τ → List (Option β)} {batches : List σ}
    (himpl : ∀ b ∈ batches, (∀ m, (impl b).outcome ≠ .panic m) →
      f.Computes rowsOf (impl b) (values b))
    (hpanic : ∀ m, (batches.mapM impl).outcome ≠ .panic m) :
    f.Computes (List.flatMap rowsOf) (batches.mapM impl) (batches.flatMap values) := by
  induction batches with
  | nil => exact computes_of_eq (by simp)
  | cons b batches ih =>
    have hb : ∀ m, (impl b).outcome ≠ .panic m := by
      intro m hm
      exact hpanic m (by rw [List.mapM_cons,Traced.outcome_bind,hm]; rfl)
    have hfirst := himpl b (by simp) hb
    have hrest : ∀ out, (impl b).outcome = .ok out →
        f.Computes (List.flatMap rowsOf) (batches.mapM impl) (batches.flatMap values) := by
      intro out hout
      refine ih (fun b' hb' => himpl b' (by simp [hb'])) fun m hm => hpanic m ?_
      rw [List.mapM_cons,Traced.outcome_bind,hout,Outcome.ok_bind,Traced.outcome_bind,hm]
      rfl
    intro rows
    rw [List.flatMap_cons,lift_append,Traced.outcome_bind,Outcome.bind_eq_ok_iff]
    simp only [Traced.outcome_map]
    constructor
    · rintro ⟨outs,houts,rfl⟩
      rw [List.mapM_cons,Traced.outcome_bind,Outcome.bind_eq_ok_iff] at houts
      obtain ⟨out,hout,houts⟩ := houts
      rw [Traced.outcome_bind,Outcome.bind_eq_ok_iff] at houts
      obtain ⟨rest,hr,he⟩ := houts
      obtain rfl : out::rest = outs := Outcome.ok.inj he
      refine ⟨rowsOf out,(hfirst _).mp ⟨out,hout,rfl⟩,?_⟩
      rw [(hrest out hout _).mp ⟨rest,hr,rfl⟩]
      rfl
    · rintro ⟨firstRows,hf,hr⟩
      obtain ⟨out,hout,rfl⟩ := (hfirst _).mpr hf
      cases hl : (f.lift (batches.flatMap values)).outcome with
      | error e => simp [hl] at hr
      | panic m => simp [hl] at hr
      | ok restRows =>
        obtain ⟨rest,hm,rfl⟩ := (hrest out hout _).mpr hl
        refine ⟨out::rest,?_,by simpa [hl] using hr⟩
        rw [List.mapM_cons,Traced.outcome_bind,hout,Outcome.ok_bind,Traced.outcome_bind,hm]
        rfl

end Computes

end RowFunction

section RowLoop
variable {κ ε ι α : Type} {size : α → ℕ} {limit : ℕ}

theorem rowLoop_trace {row : ι → Traced κ ε (Option α)} {is : List ι}
    {b : OffsetBuilder α size limit}
    (hfit : totalSize size (b.rows ++ Outcome.okPrefix (fun i => (row i).outcome) is) ≤ limit) :
    (rowLoop row is b).trace = (is.mapM row).trace := by
  induction is generalizing b with
  | nil => rfl
  | cons i is ih =>
    rw [rowLoop_cons,List.mapM_cons]
    cases hi : (row i).outcome with
    | error e =>
      have hstep : (rowStep row b i).outcome = .error e := by simp [rowStep,hi]
      rw [Traced.trace_bind_error hstep,Traced.trace_bind_error hi,rowStep_trace]
    | panic m =>
      have hstep : (rowStep row b i).outcome = .panic m := by simp [rowStep,hi]
      rw [Traced.trace_bind_panic hstep,Traced.trace_bind_panic hi,rowStep_trace]
    | ok r =>
      rw [Outcome.okPrefix_cons_ok (fun i => (row i).outcome) hi] at hfit
      have hr : totalSize size (b.rows ++ [r]) ≤ limit := by
        rw [totalSize_append,totalSize_cons] at hfit ⊢
        rw [totalSize_nil]
        omega
      have hstep : (rowStep row b i).outcome = .ok ⟨b.rows ++ [r],hr⟩ := by
        rw [rowStep,Traced.outcome_bind,hi,Outcome.ok_bind]
        exact OffsetBuilder.append_outcome_fits hr
      rw [Traced.trace_bind_ok hstep,Traced.trace_bind_ok hi,rowStep_trace,
        ih (b := ⟨b.rows ++ [r],hr⟩) (by simpa using hfit)]
      rw [← map_eq_pure_bind,Traced.trace_map]

/-- A loop whose rows have room is the traversal of its rows, with the same calls. -/
theorem rowLoop_eq_mapM (row : ι → Traced κ ε (Option α)) (is : List ι)
    (hfit : totalSize size (Outcome.okPrefix (fun i => (row i).outcome) is) ≤ limit) :
    OffsetBuilder.rows <$> rowLoop row is (.new : OffsetBuilder α size limit) = is.mapM row := by
  have hnew : totalSize size ((.new : OffsetBuilder α size limit).rows ++
      Outcome.okPrefix (fun i => (row i).outcome) is) ≤ limit := hfit
  ext1
  · rw [Traced.outcome_map,rowLoop_outcome,if_pos hnew,Traced.outcome_mapM]
    simp
  · rw [Traced.trace_map,rowLoop_trace hnew]

/-- The loop `for i in 0..len` over the cells of a column is the traversal of its cells, with the
same calls. -/
theorem rowLoop_range_eq_mapM {γ : Type} (row : ℕ → Traced κ ε (Option α)) (cells : List γ)
    (read : γ → Traced κ ε (Option α)) (hrow : ∀ i c, cells[i]? = some c → row i = read c)
    (hfit : totalSize size (Outcome.okPrefix (fun c => (read c).outcome) cells) ≤ limit) :
    OffsetBuilder.rows <$> rowLoop row (List.range cells.length)
      (.new : OffsetBuilder α size limit) = cells.mapM read := by
  let get : Option γ → Traced κ ε (Option α) := fun c => c.elim (row cells.length) read
  have hget : ∀ i ∈ List.range cells.length, row i = get cells[i]? := by
    intro i hi
    have hlt : i < cells.length := List.mem_range.mp hi
    have hc : cells[i]? = some cells[i] := List.getElem?_eq_getElem hlt
    rw [hc,hrow i cells[i] hc]
    rfl
  have hall : (List.range cells.length).mapM row = cells.mapM read := by
    calc (List.range cells.length).mapM row
        = (List.range cells.length).mapM fun i => get cells[i]? := Traced.mapM_congr_left hget
      _ = ((List.range cells.length).map (cells[·]?)).mapM get := by
          rw [List.mapM_map]
          rfl
      _ = (cells.map some).mapM get := by rw [map_range_getElem?]
      _ = cells.mapM read := by
          rw [List.mapM_map]
          rfl
  have houtcomes : Outcome.okPrefix (fun i => (row i).outcome) (List.range cells.length) =
      Outcome.okPrefix (fun c => (read c).outcome) cells := by
    calc Outcome.okPrefix (fun i => (row i).outcome) (List.range cells.length)
        = Outcome.okPrefix (fun i => (get cells[i]?).outcome) (List.range cells.length) :=
          Outcome.okPrefix_congr fun i hi => by rw [hget i hi]
      _ = Outcome.okPrefix (fun c => (get c).outcome) (cells.map some) := by
          rw [← map_range_getElem?,Outcome.okPrefix_map]
      _ = Outcome.okPrefix (fun c => (read c).outcome) cells := by
          rw [Outcome.okPrefix_map]
          rfl
  rw [← hall]
  exact rowLoop_eq_mapM row _ (by rw [houtcomes]; exact hfit)

end RowLoop
end BarcodeWorker
