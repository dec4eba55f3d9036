import BarcodeWorker.GenerateScalar

/-!
# Bind and scan

A bind fails exactly when the resolution of the arguments does, and then every scan fails with the
same error. After a bind that succeeds, a scan fails only with the error of a cell, which the
one-row batch of that cell shows alone.
-/

namespace BarcodeWorker

open Barcoding ArrowIo

namespace Generator

/-- The images of a column fit the builder, for the request of the arguments. -/
def Fits (crates : Crates) (args : Arguments) (g : Generator) (col : Column) : Prop :=
  ∀ request, g.resolve crates args = .ok request → request.Fits crates col

/-- The outcomes of one scan call after the other, with the arguments and schema of one bind. -/
def scan (crates : Crates) (g : Generator) (args : Arguments) (schema : Schema)
    (batches : List RecordBatch) : List (Outcome RpcError RecordBatch) :=
  batches.map fun batch => (g.process crates ⟨args,schema⟩ batch).outcome

/-- What a bind decides about the scans after it. -/
structure BindAgrees (crates : Crates) (g : Generator) (args : Arguments) : Prop where
  zeroRows : ∀ (batch : RecordBatch) (col : Column), batch.columns.head? = some col →
    batch.numRows = 0 →
    ((∃ response, (g.onBind crates ⟨args⟩).outcome = .ok response) ↔
      ∃ out, (g.process crates ⟨args,(crates.vgi.result .binary).outputSchema⟩ batch).outcome =
        .ok out)
  bindError : ∀ e, (g.onBind crates ⟨args⟩).outcome = .error e → ∀ schema batch,
    (g.process crates ⟨args,schema⟩ batch).outcome = .error e
  scanError : ∀ response, (g.onBind crates ⟨args⟩).outcome = .ok response →
    ∀ batches : List RecordBatch,
      (∀ batch ∈ batches, ∃ col, batch.columns.head? = some col ∧ g.Fits crates args col) →
    ∀ (k : ℕ) e, (g.scan crates args response.outputSchema batches)[k]? = some (.error e) →
    ∃ batch col i cell, batches[k]? = some batch ∧ batch.columns.head? = some col ∧
      col.cells[i]? = some cell ∧ cell ≠ none ∧
      (∀ one : RecordBatch, one.columns.head? = some (col.single i) →
        (g.process crates ⟨args,response.outputSchema⟩ one).outcome = .error e) ∧
      ∀ j < i, ∀ one : RecordBatch, one.columns.head? = some (col.single j) →
        ∃ out, (g.process crates ⟨args,response.outputSchema⟩ one).outcome = .ok out
  allNull : ∀ response, (g.onBind crates ⟨args⟩).outcome = .ok response →
    ∀ (batch : RecordBatch) (col : Column), batch.columns.head? = some col →
    (∀ cell ∈ col.cells, cell = none) →
    ∃ out, (g.process crates ⟨args,response.outputSchema⟩ batch).outcome = .ok out

section Single
variable {crates : Crates} {request : Request} {col : Column}

theorem okPrefix_nulls {cells : List (Option col.dataType.Native)}
    (hnull : ∀ cell ∈ cells, cell = none) : totalSize List.length
      (Outcome.okPrefix (request.cellImage crates col.dataType) cells) = 0 := by
  induction cells with
  | nil => rfl
  | cons cell cells ih =>
    obtain rfl : cell = none := hnull _ (by simp)
    have hnone : request.cellImage crates col.dataType none = .ok none := by
      simp [Request.cellImage,Request.textCell_none]
    rw [Outcome.okPrefix_cons_ok _ hnone,totalSize_none]
    exact ih fun cell hc => hnull cell (by simp [hc])

/-- The one-row column of a cell before the first failing one fits, as the cell's own row does. -/
theorem fits_single {pre rest : List (Option col.dataType.Native)} (hs : col.cells = pre ++ rest)
    (hpre : ∀ c ∈ pre, ∃ row, request.cellImage crates col.dataType c = .ok row)
    (hfit : request.Fits crates col) {j : ℕ} (hj : j < pre.length) :
    ∃ cell, col.cells[j]? = some cell ∧ cell ∈ pre ∧ request.Fits crates (col.single j) := by
  have hc : col.cells[j]? = some pre[j] := by
    rw [hs,List.getElem?_append_left hj,List.getElem?_eq_getElem hj]
  have hmem : pre[j] ∈ pre := List.getElem_mem hj
  obtain ⟨row,hrow⟩ := hpre _ hmem
  refine ⟨pre[j],hc,hmem,?_⟩
  have hle := totalSize_le_okPrefix List.length hpre hmem hrow rest
  rw [← hs] at hle
  have hone : Outcome.okPrefix (request.cellImage crates col.dataType) (col.single j).cells =
      [row] := by simp [Column.single,hc,Outcome.okPrefix,hrow]
  show totalSize List.length
    (Outcome.okPrefix (request.cellImage crates col.dataType) (col.single j).cells) ≤ i32Max
  rw [hone]
  exact le_trans hle hfit

theorem fits_single_error {i : ℕ} {cell : Option col.dataType.Native} {e : RpcError}
    (hc : col.cells[i]? = some cell) (he : request.cellImage crates col.dataType cell = .error e) :
    request.Fits crates (col.single i) := by
  simp [Request.Fits,Column.single,hc,Outcome.okPrefix,he]

theorem mapM_single {i : ℕ} {cell : Option col.dataType.Native} (hc : col.cells[i]? = some cell) :
    (col.single i).cells.mapM (request.cellImage crates col.dataType) =
      List.singleton <$> request.cellImage crates col.dataType cell := by
  simp only [Column.single,hc,Option.toList_some,List.mapM_cons,List.mapM_nil]
  cases request.cellImage crates col.dataType cell <;> rfl

end Single

section Agreement
variable {crates : Crates} (hb : crates.vgi.BindContract) (ht : crates.arrow.TryNewContract)
  {g : Generator} {args : Arguments} {request : Request} (hr : g.resolve crates args = .ok request)

include hb ht hr

theorem process_nulls {batch : RecordBatch} {col : Column}
    (hcol : batch.columns.head? = some col) (hnull : ∀ cell ∈ col.cells, cell = none) :
    ∃ out, (g.process crates ⟨args,(crates.vgi.result .binary).outputSchema⟩ batch).outcome =
      .ok out := by
  have hfit : request.Fits crates col := by
    rw [Request.Fits,okPrefix_nulls hnull]
    exact Nat.zero_le _
  obtain ⟨rows,hm⟩ : ∃ rows, col.cells.mapM (request.cellImage crates col.dataType) = .ok rows :=
    mapM_cellImage_ok_iff.mpr fun cell hc hne => absurd (hnull cell hc) hne
  exact ⟨_,by rw [process_declared hb ht hr hcol hfit,hm]; rfl⟩

theorem process_single {col : Column} {i : ℕ} {cell : Option col.dataType.Native}
    (hc : col.cells[i]? = some cell) (hfit : request.Fits crates (col.single i))
    {one : RecordBatch} (hone : one.columns.head? = some (col.single i)) :
    (g.process crates ⟨args,(crates.vgi.result .binary).outputSchema⟩ one).outcome =
      (fun row => RecordBatch.ofColumn (crates.vgi.result .binary).outputSchema (.binary [row])) <$>
        request.cellImage crates col.dataType cell := by
  rw [process_declared hb ht hr hone hfit]
  have hm : (col.single i).cells.mapM (request.cellImage crates col.dataType) = _ := mapM_single hc
  simp only [Column.single] at hm ⊢
  rw [hm]
  cases request.cellImage crates col.dataType cell <;> rfl

end Agreement

/-- Bind and scan agree on the arguments, and after a bind every error is that of a row. -/
theorem generate_bindAgrees (crates : Crates) (hb : crates.vgi.BindContract)
    (ht : crates.arrow.TryNewContract) (g : Generator) (args : Arguments) :
    g.BindAgrees crates args where
  zeroRows := by
    intro batch col hcol hn
    have hlen := RecordBatch.length_cells hcol
    have hnil : col.cells = [] := List.length_eq_zero_iff.mp (hlen.trans hn)
    constructor
    · rintro ⟨response,hbind⟩
      obtain ⟨⟨request,hr⟩,-⟩ := (onBind_eq_ok_iff crates g args response).mp hbind
      exact process_nulls hb ht hr hcol (by simp [hnil])
    · rintro ⟨out,hout⟩
      cases hr : g.resolve crates args with
      | error e =>
        rw [process_eq,hr] at hout
        simp at hout
      | ok request => exact ⟨_,(onBind_eq_ok_iff crates g args _).mpr ⟨⟨request,hr⟩,rfl⟩⟩
  bindError := by
    intro e he schema batch
    have hr := (onBind_eq_error_iff crates g args e).mp he
    rw [process_eq,hr]
    simp
  scanError := by
    intro response hbind batches hall k e hk
    obtain ⟨⟨request,hr⟩,rfl⟩ := (onBind_eq_ok_iff crates g args response).mp hbind
    rw [scan,List.getElem?_map,Option.map_eq_some_iff] at hk
    obtain ⟨batch,hbatch,he⟩ := hk
    obtain ⟨col,hcol,hfits⟩ := hall batch (List.mem_of_getElem? hbatch)
    have hfit := hfits request hr
    rw [process_declared hb ht hr hcol hfit] at he
    have hm : col.cells.mapM (request.cellImage crates col.dataType) = .error e := by
      cases hm : col.cells.mapM (request.cellImage crates col.dataType) <;> simp [hm] at he
      rw [he]
    obtain ⟨pre,cell,post,hs,hpre,herr⟩ := (Outcome.mapM_eq_error_iff _ _ _).mp hm
    have hc : col.cells[pre.length]? = some cell := by simp [hs]
    refine ⟨batch,col,pre.length,cell,hbatch,hcol,hc,(Request.cellImage_error herr).1,?_,?_⟩
    · intro one hone
      rw [process_single hb ht hr hc (fits_single_error hc herr) hone,herr]
      rfl
    · intro j hj one hone
      obtain ⟨cell',hc',hmem,hfit'⟩ := fits_single hs hpre hfit hj
      obtain ⟨row,hrow⟩ := hpre cell' hmem
      exact ⟨_,by rw [process_single hb ht hr hc' hfit' hone,hrow]; rfl⟩
  allNull := by
    intro response hbind batch col hcol hnull
    obtain ⟨⟨request,hr⟩,rfl⟩ := (onBind_eq_ok_iff crates g args response).mp hbind
    exact process_nulls hb ht hr hcol hnull

/-- Arguments of a format and a size. -/
def codabarArgs : Arguments := ⟨[none,some (.varchar "CODABAR"),some (.integer 300)]⟩

theorem generate_bindAgrees_nulls : ∃ out, ((Generator.barcode ⟨true⟩).process
    (Reference.crates Reference.hello) ⟨codabarArgs,(Reference.vgi.result .binary).outputSchema⟩
      (.ofColumn [] (.utf8 (List.replicate 2 none)))).outcome = .ok out := by
  have hr : (Generator.barcode ⟨true⟩).resolve (Reference.crates Reference.hello) codabarArgs =
      .ok (.ofSize .codabar 300) := by
    rfl
  have hbind := (onBind_eq_ok_iff (Reference.crates Reference.hello) (.barcode ⟨true⟩) codabarArgs
    _).mpr ⟨⟨_,hr⟩,rfl⟩
  exact (generate_bindAgrees (Reference.crates Reference.hello) Reference.vgi_bind
    Reference.arrow_tryNew (.barcode ⟨true⟩) codabarArgs).allNull _ hbind _
      (.utf8 (List.replicate 2 none)) rfl fun _ hc => List.eq_of_mem_replicate hc

end Generator
end BarcodeWorker
