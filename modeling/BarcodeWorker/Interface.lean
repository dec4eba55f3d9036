import BarcodeWorker.ScalarMeaning
import BarcodeWorker.Session

/-!
# Declared interfaces

What a function declares is what it reads. A constant makes a difference to a bind or to a scan
exactly when its position is declared as one, no scan looks at another column than the first, and
no two registered overloads take the same name with the same number of arguments.
-/

namespace BarcodeWorker

open Barcoding ArrowIo

/-- The SDK reads a constant off its own position. -/
structure Vgi.LocalContract (vgi : Vgi) : Prop where
  constStr : ∀ args args' pos, args.constAt pos = args'.constAt pos →
    vgi.constStr args pos = vgi.constStr args' pos
  constI64 : ∀ args args' pos, args.constAt pos = args'.constAt pos →
    vgi.constI64 args pos = vgi.constI64 args' pos
  constBytes : ∀ args args' pos, args.constAt pos = args'.constAt pos →
    vgi.constBytes args pos = vgi.constBytes args' pos

theorem Reference.vgi_local : Reference.vgi.LocalContract where
  constStr args args' pos h := by simp only [vgi,h]
  constI64 args args' pos h := by simp only [vgi,h]
  constBytes args args' pos h := by simp only [vgi,h]

/-- The positions declared as constants. -/
def constPositions (specs : List ArgSpec) : List ℕ := (specs.filter ArgSpec.isConst).map ArgSpec.position

def Arguments.AgreeAt (positions : List ℕ) (args args' : Arguments) : Prop :=
  ∀ pos ∈ positions, args.constAt pos = args'.constAt pos

/-- The two argument lists differ at one position only. -/
def Arguments.AgreeBut (pos : ℕ) (args args' : Arguments) : Prop :=
  ∀ pos', pos' ≠ pos → args.constAt pos' = args'.constAt pos'

theorem Arguments.agreeBut_set (values : List (Option SqlValue)) (pos : ℕ) (v : Option SqlValue) :
    Arguments.AgreeBut pos ⟨values⟩ ⟨values.set pos v⟩ := by
  intro pos' hne
  rw [constAt,constAt,List.getElem?_set_ne (Ne.symm hne)]

theorem Arguments.AgreeBut.agreeAt {pos : ℕ} {args args' : Arguments} {positions : List ℕ}
    (h : Arguments.AgreeBut pos args args') (hpos : pos ∉ positions) :
    Arguments.AgreeAt positions args args' := by
  intro pos' hmem
  apply h
  rintro rfl
  exact hpos hmem

/-! ## Constants of scalar functions -/

namespace ScalarFunction

/-- No bind and no scan tells the two argument lists apart. -/
def SameFor (crates : Crates) (f : ScalarFunction) (args args' : Arguments) : Prop :=
  f.onBind crates ⟨args⟩ = f.onBind crates ⟨args'⟩ ∧ ∀ schema batch,
    f.process crates ⟨args,schema⟩ batch = f.process crates ⟨args',schema⟩ batch

/-- The constant at a position makes a difference, with some crates. -/
def DependsOn (f : ScalarFunction) (pos : ℕ) : Prop :=
  ∃ crates : Crates, crates.vgi.LocalContract ∧ ∃ args args', Arguments.AgreeBut pos args args' ∧
    ¬ f.SameFor crates args args'

section Constants
variable {crates : Crates} {args args' : Arguments}

theorem resolve_congr (hl : crates.vgi.LocalContract) (g : Generator)
    (h : Arguments.AgreeAt (constPositions (ScalarFunction.generate g).argumentSpecs) args args') :
    g.resolve crates args = g.resolve crates args' := by
  have hformat : g.formatOf crates args = g.formatOf crates args' := by
    cases g with
    | qr f => rfl
    | barcode f =>
      have hpos : args.constAt 1 = args'.constAt 1 := by
        apply h
        simp [argumentSpecs,GenerateBarcode.argumentSpecs,constPositions,constAny,ArgSpec.constArg,
          ArgSpec.column]
      simp only [Generator.formatOf,GenerateBarcode.formatArg,hl.constStr args args' 1 hpos]
  have hsize : g.sizeOf crates args = g.sizeOf crates args' := by
    rw [Generator.sizeOf,Generator.sizeOf]
    by_cases hs : g.withSize
    · have hpos : args.constAt g.sizePos = args'.constAt g.sizePos := by
        apply h
        cases g with
        | qr f =>
          have hf : f.withSize = true := hs
          simp [argumentSpecs,GenerateQr.argumentSpecs,constPositions,constAny,ArgSpec.constArg,
            ArgSpec.column,Generator.sizePos,hf]
        | barcode f =>
          have hf : f.withSize = true := hs
          simp [argumentSpecs,GenerateBarcode.argumentSpecs,constPositions,constAny,ArgSpec.constArg,
            ArgSpec.column,Generator.sizePos,hf]
      simp only [sizePx,hl.constI64 args args' g.sizePos hpos]
    · rw [if_neg hs,if_neg hs]
  rw [Generator.resolve,Generator.resolve,hformat,hsize]

/-- Constants at the declared positions are all that a bind or a scan looks at. -/
theorem sameFor_of_agreeAt (hl : crates.vgi.LocalContract) (f : ScalarFunction)
    (h : Arguments.AgreeAt (constPositions f.argumentSpecs) args args') :
    f.SameFor crates args args' := by
  cases f with
  | decode f => exact ⟨rfl,fun _ _ => rfl⟩
  | generate g =>
    have hr := resolve_congr hl g h
    refine ⟨?_,fun schema batch => ?_⟩
    · rw [onBind,onBind,Generator.onBind_eq,Generator.onBind_eq,hr]
    · rw [process,process,Generator.process_eq,Generator.process_eq]
      simp only [hr]

end Constants

/-- A call that is refused is told apart from one that is not. -/
theorem dependsOn_of_resolve {g : Generator} {pos : ℕ} (values : List (Option SqlValue))
    (v : Option SqlValue) {request : Request} {e : RpcError}
    (hok : g.resolve (Reference.crates Reference.hello) ⟨values⟩ = .ok request)
    (herr : g.resolve (Reference.crates Reference.hello) ⟨values.set pos v⟩ = .error e) :
    (ScalarFunction.generate g).DependsOn pos := by
  refine ⟨Reference.crates Reference.hello,Reference.vgi_local,⟨values⟩,⟨values.set pos v⟩,
    Arguments.agreeBut_set values pos v,fun hsame => ?_⟩
  have hbind := congrArg Traced.outcome hsame.1
  rw [onBind,onBind,Generator.onBind_eq,Generator.onBind_eq,hok,herr] at hbind
  cases hbind

/-- The constants that a registered function declares are those it depends on. -/
theorem dependsOn_iff_declared {f : ScalarFunction} (hf : f ∈ registeredScalars) (pos : ℕ) :
    f.DependsOn pos ↔ pos ∈ constPositions f.argumentSpecs := by
  constructor
  · rintro ⟨crates,hl,args,args',hbut,hdiffer⟩
    by_contra hpos
    exact hdiffer (sameFor_of_agreeAt hl f (hbut.agreeAt hpos))
  · intro hpos
    have hqr : (ScalarFunction.generate (.qr .sized)).DependsOn 1 :=
      dependsOn_of_resolve [none,some (.integer 1)] (some (.integer 0)) rfl rfl
    have hplain : (ScalarFunction.generate (.barcode .plain)).DependsOn 1 :=
      dependsOn_of_resolve [none,some (.varchar "QR_CODE")] none rfl rfl
    have hformat : (ScalarFunction.generate (.barcode .sized)).DependsOn 1 :=
      dependsOn_of_resolve [none,some (.varchar "QR_CODE")] none rfl rfl
    have hsize : (ScalarFunction.generate (.barcode .sized)).DependsOn 2 :=
      dependsOn_of_resolve [none,some (.varchar "QR_CODE"),none] (some (.integer 0)) rfl rfl
    simp only [registeredScalars,List.mem_cons,List.not_mem_nil,or_false] at hf
    rcases hf with rfl | rfl | rfl | rfl | rfl | rfl
    · cases hpos
    · cases hpos
    · cases hpos
    · obtain rfl := List.mem_singleton.mp (show pos ∈ [1] from hpos)
      exact hqr
    · obtain rfl := List.mem_singleton.mp (show pos ∈ [1] from hpos)
      exact hplain
    · have hpair : pos = 1 ∨ pos = 2 := List.mem_pair.mp hpos
      rcases hpair with rfl | rfl
      · exact hformat
      · exact hsize

end ScalarFunction

/-! ## Columns -/

theorem columnLoop_column {α : Type} (size : α → ℕ) (crates : Crates) (schema : Schema)
    {batch batch' : RecordBatch} (h : batch.columns.head? = batch'.columns.head?)
    (row : Column → ℕ → Run RpcError (Option α)) (finish : List (Option α) → Column) :
    columnLoop size crates schema batch row finish = columnLoop size crates schema batch' row finish := by
  cases hcol : batch.columns.head? with
  | some col =>
    have hcol' := h.symm.trans hcol
    have hrows : batch.numRows = batch'.numRows :=
      (RecordBatch.length_cells hcol).symm.trans (RecordBatch.length_cells hcol')
    rw [columnLoop,columnLoop,column0_eq hcol,column0_eq hcol',hrows]
  | none =>
    have hnil := List.head?_eq_none_iff.mp hcol
    have hnil' := List.head?_eq_none_iff.mp (h.symm.trans hcol)
    rw [columnLoop,columnLoop,column0,column0,hnil,hnil']
    rfl

/-- A scan looks at no other column than the first. -/
theorem ScalarFunction.process_column (crates : Crates) (f : ScalarFunction) (params : ProcessParams)
    {batch batch' : RecordBatch} (h : batch.columns.head? = batch'.columns.head?) :
    f.process crates params batch = f.process crates params batch' := by
  cases f with
  | decode f =>
    rw [process,process,DecodeBarcode.process_eq_columnLoop,DecodeBarcode.process_eq_columnLoop]
    exact columnLoop_column _ crates _ h _ _
  | generate g =>
    rw [process,process,Generator.process_eq,Generator.process_eq]
    congr 1
    funext request
    exact columnLoop_column _ crates _ h _ _

/-! ## Table functions -/

namespace TableFunction

def SameFor (crates : Crates) (t : TableFunction) (args args' : Arguments) : Prop :=
  t.onBind ⟨args⟩ = t.onBind ⟨args'⟩ ∧
    ∀ schema, t.producer crates ⟨args,schema⟩ = t.producer crates ⟨args',schema⟩

def DependsOn (t : TableFunction) (pos : ℕ) : Prop :=
  ∃ crates : Crates, crates.vgi.LocalContract ∧ ∃ args args', Arguments.AgreeBut pos args args' ∧
    ¬ t.SameFor crates args args'

theorem sameFor_of_agreeAt {crates : Crates} (hl : crates.vgi.LocalContract) (t : TableFunction)
    {args args' : Arguments} (h : Arguments.AgreeAt (constPositions t.argumentSpecs) args args') :
    t.SameFor crates args args' := by
  cases t with
  | decodeBarcodes =>
    have hpos : args.constAt 0 = args'.constAt 0 := h 0 (by decide)
    refine ⟨rfl,fun schema => ?_⟩
    simp only [producer,DecodeBarcodes.producer,hl.constBytes args args' 0 hpos]
  | barcodeFormats => exact ⟨rfl,fun _ => rfl⟩

theorem dependsOn_iff_declared (t : TableFunction) (pos : ℕ) :
    t.DependsOn pos ↔ pos ∈ constPositions t.argumentSpecs := by
  constructor
  · rintro ⟨crates,hl,args,args',hbut,hdiffer⟩
    by_contra hpos
    exact hdiffer (sameFor_of_agreeAt hl t (hbut.agreeAt hpos))
  · intro hpos
    cases t with
    | decodeBarcodes =>
      obtain rfl := List.mem_singleton.mp (show pos ∈ [0] from hpos)
      refine ⟨Reference.crates Reference.hello,Reference.vgi_local,⟨[none]⟩,onePixelBlob,
        Arguments.agreeBut_set [none] 0 _,fun hsame => ?_⟩
      have hcalls := congrArg (fun x => x.trace.length) (hsame.2 [])
      exact absurd hcalls (by decide)
    | barcodeFormats => cases hpos

end TableFunction

/-- What the registered functions read is what they declare: the constants at the declared
positions and the first column, and no name with one number of arguments is registered twice. -/
theorem interface_exact :
    (∀ f ∈ registeredScalars, ∀ pos, f.DependsOn pos ↔ pos ∈ constPositions f.argumentSpecs) ∧
    (∀ (t : TableFunction) (pos : ℕ), t.DependsOn pos ↔ pos ∈ constPositions t.argumentSpecs) ∧
    (∀ (f : ScalarFunction) (crates : Crates) (params : ProcessParams) (batch batch' : RecordBatch),
      batch.columns.head? = batch'.columns.head? →
      f.process crates params batch = f.process crates params batch') ∧
    (registeredScalars.map fun f => (f.name,f.argumentSpecs.length)).Nodup :=
  ⟨fun _ hf pos => ScalarFunction.dependsOn_iff_declared hf pos,TableFunction.dependsOn_iff_declared,
    fun f crates params _ _ h => f.process_column crates params h,by decide⟩

end BarcodeWorker
