import BarcodeWorker.Interchange
import BarcodeWorker.Session

/-!
# The catalog

A worker can be started in any environment, any number of times and from either build; it is always
the same worker, and no variable that was set is touched. Its catalog declares a table, and every
run of the table's function gives what is declared: the schema, the cardinality, the key and the
column without nulls. Each row is a format that `generate_barcode` accepts and that a decoder
reports by that name.
-/

namespace BarcodeWorker

open Barcoding ArrowIo

/-! ## Start -/

/-- The entry points: the hook of the browser build, and the build of a worker. -/
inductive Start
  | init
  | build
  deriving DecidableEq

namespace Start

/-- The variable that an entry point sets where it is not set, and its default. -/
def default : Start → String × String
  | .init => (sharedStorageVar,"memory")
  | .build => (catalogNameVar,"barcode")

/-- The workers built in one process, and the environment in the end. -/
def run : List Start → Environment → List Worker × Environment
  | [], env => ([],env)
  | .init :: starts, env => run starts (wasmInit env)
  | .build :: starts, env =>
    let (worker,env) := buildWorker env
    let (workers,env) := run starts env
    (worker::workers,env)

end Start

namespace Environment

theorem setDefault_apply (env : Environment) (key value key' : String) :
    env.setDefault key value key' =
      (env key').or (if key = key' then some (.unicode value) else none) := by
  rw [setDefault]
  by_cases hkey : key = key'
  · subst hkey
    cases h : env key with
    | none => rw [Option.isNone_none,if_pos rfl,if_pos rfl,setVar,Function.update_self]; rfl
    | some v => rw [Option.isNone_some,if_neg Bool.false_ne_true,h]; rfl
  · rw [if_neg hkey,Option.or_none]
    by_cases hnone : (env key).isNone
    · rw [if_pos hnone,setVar,Function.update_of_ne (Ne.symm hkey)]
    · rw [if_neg hnone]

/-- The name under which a worker of the environment is attached. -/
def catalogName (env : Environment) : String := (env.var catalogNameVar).getD "barcode"

/-- A variable that is set to no Unicode is left as it is, and the name falls back all the same. -/
theorem catalogName_setDefault (env : Environment) (start : Start) :
    (env.setDefault start.default.1 start.default.2).catalogName = env.catalogName := by
  rw [catalogName,catalogName,var,var,setDefault_apply]
  cases h : env catalogNameVar with
  | none => cases start <;> rfl
  | some v => rfl

end Environment

/-- The worker that an environment asks for. -/
def workerOf (env : Environment) : Worker :=
  ⟨registeredScalars,[.decodeBarcodes],catalogMetadata env.catalogName⟩

namespace Start

theorem buildWorker_eq (env : Environment) :
    buildWorker env = (workerOf env,env.setDefault catalogNameVar "barcode") := by
  have hname := env.catalogName_setDefault .build
  rw [workerOf,← hname]
  rfl

theorem workerOf_setDefault (env : Environment) (start : Start) :
    workerOf (env.setDefault start.default.1 start.default.2) = workerOf env := by
  rw [workerOf,env.catalogName_setDefault start,workerOf]

theorem run_workers (starts : List Start) (env : Environment) :
    (run starts env).1 = List.replicate (starts.count .build) (workerOf env) := by
  induction starts generalizing env with
  | nil => rfl
  | cons start starts ih =>
    cases start with
    | init =>
      have hsame : workerOf (wasmInit env) = workerOf env := workerOf_setDefault env .init
      rw [run,ih,hsame]
      rfl
    | build =>
      have hsame : workerOf (env.setDefault catalogNameVar "barcode") = workerOf env :=
        workerOf_setDefault env .build
      rw [run,buildWorker_eq]
      simp only [ih,hsame]
      rw [List.count_cons_self,List.replicate_succ]

theorem run_env (starts : List Start) (env : Environment) (key : String) :
    (run starts env).2 key = (env key).or
      ((starts.find? fun start => start.default.1 = key).map fun start => .unicode start.default.2) := by
  induction starts generalizing env with
  | nil => exact Option.or_none.symm
  | cons start starts ih =>
    have hrun : (run (start::starts) env).2 =
        (run starts (env.setDefault start.default.1 start.default.2)).2 := by
      cases start <;> rfl
    rw [hrun,ih,Environment.setDefault_apply,Option.or_assoc]
    congr 1
    by_cases hkey : start.default.1 = key
    · rw [if_pos hkey,List.find?_cons_of_pos (by simpa using hkey)]
      rfl
    · rw [if_neg hkey,List.find?_cons_of_neg (by simpa using hkey)]
      rfl

end Start

/-- However often a process is started, from either build and in any order, every worker is that of
the environment it began with, and a variable changes only if it was not set: to the default of an
entry point that was run. -/
theorem start_runs (starts : List Start) (env : Environment) :
    (∀ worker ∈ (Start.run starts env).1, worker = workerOf env) ∧
    (Start.run starts env).1.length = starts.count .build ∧
    ∀ key, (Start.run starts env).2 key = (env key).or ((starts.find? fun start =>
      start.default.1 = key).map fun start => .unicode start.default.2) := by
  rw [Start.run_workers]
  exact ⟨fun _ hw => List.eq_of_mem_replicate hw,List.length_replicate,Start.run_env starts env⟩

/-! ## Tables -/

/-- What a catalog table declares, of a batch that its function gives. -/
structure CatTable.Describes (t : CatTable) (batch : RecordBatch) : Prop where
  schema : batch.schema = t.schema
  typed : batch.columns.map Column.dataType = t.schema.map Field.dataType
  cardinality : ∀ n, t.cardinality = some n → n.toInt = batch.numRows
  notNull : ∀ i ∈ t.notNull, ∃ col, batch.columns[i]? = some col ∧ ∀ cell ∈ col.cells, cell.isSome
  /-- Rows that agree on a key are one row. -/
  primaryKey : ∀ group ∈ t.primaryKey, ∀ r r', r < batch.numRows → r' < batch.numRows →
    (∀ i ∈ group, ∃ col, batch.columns[i]? = some col ∧ col.cells[r]? = col.cells[r']?) → r = r'

theorem barcodeFormatsTable_describes {batch : RecordBatch}
    (hschema : batch.schema = BarcodeFormats.outputSchema)
    (hcols : batch.columns = [.utf8 (supportedFormats.map some)])
    (hrows : batch.numRows = BarcodeFormats.supportedFormatCount) :
    barcodeFormatsTable.Describes batch where
  schema := hschema
  typed := by rw [hcols]; rfl
  cardinality := by
    intro n hn
    obtain rfl : Int64.ofNat BarcodeFormats.supportedFormatCount = n := Option.some.inj hn
    rw [hrows]
    decide
  notNull := by
    intro i hi
    obtain rfl := List.mem_singleton.mp hi
    refine ⟨.utf8 (supportedFormats.map some),by rw [hcols]; rfl,fun cell hcell => ?_⟩
    obtain ⟨name,-,rfl⟩ := List.mem_map.mp hcell
    rfl
  primaryKey := by
    intro group hgroup r r' hr hr' hsame
    obtain rfl := List.mem_singleton.mp hgroup
    obtain ⟨col,hcol,hcell⟩ := hsame 0 (by decide)
    rw [hcols] at hcol
    obtain rfl : .utf8 (supportedFormats.map some) = col := Option.some.inj hcol
    have hnodup : (supportedFormats.map some).Nodup := by decide
    have hlt : r < (supportedFormats.map some).length := by
      rw [hrows,BarcodeFormats.supportedFormatCount] at hr
      rwa [List.length_map]
    exact (List.getElem?_inj hlt hnodup).mp hcell

/-- A table of the catalog gives what it declares, in one batch, over any run. -/
theorem catalog_table_run {crates : Crates} (ht : crates.arrow.TryNewContract) (env : Environment)
    {schema : CatSchema} (hs : schema ∈ (buildWorker env).1.catalog.schemas) {t : CatTable}
    (hmem : t ∈ schema.tables) (args : Arguments) {response : BindResponse}
    (hbind : (t.function.onBind ⟨args⟩).outcome = .ok response) :
    ∃ p batch, (t.function.producer crates ⟨args,response.outputSchema⟩).outcome = .ok p ∧
      t.Describes batch ∧ batch.columns = [.utf8 (supportedFormats.map some)] ∧
      ∀ k, answers (TableProducer.nextBatch crates) (k+1) p =
        .ok (some batch) :: List.replicate k (.ok none) := by
  obtain rfl := List.mem_singleton.mp hs
  obtain rfl := List.mem_singleton.mp hmem
  obtain ⟨start,batch,hstart,hschema,hcols,hrows,hrun⟩ :=
    BarcodeFormats.barcodeFormats_run crates ht args response hbind
  refine ⟨.formats start,batch,?_,barcodeFormatsTable_describes hschema hcols hrows,hcols,fun k => ?_⟩
  · show (TableProducer.formats <$> BarcodeFormats.producer _).outcome = _
    rw [Traced.outcome_map,hstart]
    rfl
  · rw [answers_embed TableProducer.formats (TableProducer.nextBatch_formats crates)]
    exact hrun k

/-! ## Listed formats -/

/-- The formats behind the listed names. -/
def listedFormats : List BarcodeFormat :=
  [.qrCode,.ean8,.ean13,.upcA,.upcE,.code39,.code93,.code128,.codabar,.itf,.dataMatrix,.pdf417,
    .aztec]

theorem supportedFormats_eq : supportedFormats = listedFormats.map formatName := rfl

/-- `rxing` reads the canonical names of the listed formats. -/
def Rxing.NamesContract (rxing : Rxing) : Prop :=
  ∀ f ∈ listedFormats, rxing.formatFrom (formatName f) = f

theorem parseFormat_formatName {rxing : Rxing} (hn : rxing.NamesContract) {f : BarcodeFormat}
    (hf : f ∈ listedFormats) : parseFormat rxing (formatName f) = .ok f := by
  have htrim : ∀ f ∈ listedFormats, trim (formatName f) = formatName f := by decide
  have hread : ∀ f ∈ listedFormats, f ≠ .unsuportedFormat := by decide
  rw [parseFormat,htrim f hf,hn f hf]
  exact if_neg (hread f hf)

/-- A listed name, with any white space around it, is a format that `generate_barcode` accepts. -/
theorem resolve_listed {crates : Crates} (hn : crates.rxing.NamesContract) {name : String}
    (hname : name ∈ supportedFormats) {f : GenerateBarcode} {args : Arguments} {s : String}
    (hs : crates.vgi.constStr args 1 = some s) (hpad : PaddedWith s name)
    (hsize : ∃ px, (Generator.barcode f).sizeOf crates args = .ok px) :
    ∃ request, (Generator.barcode f).resolve crates args = .ok request ∧
      formatName request.format = name := by
  rw [supportedFormats_eq] at hname
  obtain ⟨format,hformat,rfl⟩ := List.mem_map.mp hname
  obtain ⟨px,hpx⟩ := hsize
  have hparse : parseFormat crates.rxing s = .ok format :=
    (parseFormat_of_padded crates.rxing hpad (padded_self (formatName format)) format).mpr
      (parseFormat_formatName hn hformat)
  refine ⟨.ofSize format px,?_,rfl⟩
  rw [Generator.resolve,hpx,Generator.formatOf,GenerateBarcode.formatArg,hs]
  simp only [hparse]
  rfl

/-- In whatever environment the worker is built, every run of a table of its catalog gives one
batch, which is as the table is declared, and each name in it, as the format of any call of
`generate_barcode`, stands for the format with that name. -/
theorem catalog_sound (crates : Crates) (ht : crates.arrow.TryNewContract)
    (hn : crates.rxing.NamesContract) (env : Environment) (schema : CatSchema)
    (hs : schema ∈ (buildWorker env).1.catalog.schemas) (t : CatTable) (hmem : t ∈ schema.tables)
    (args : Arguments) (response : BindResponse)
    (hbind : (t.function.onBind ⟨args⟩).outcome = .ok response) :
    ∃ p batch, (t.function.producer crates ⟨args,response.outputSchema⟩).outcome = .ok p ∧
      (∀ k, answers (TableProducer.nextBatch crates) (k+1) p =
        .ok (some batch) :: List.replicate k (.ok none)) ∧
      t.Describes batch ∧ batch.columns = [.utf8 (supportedFormats.map some)] ∧
      ∀ name ∈ supportedFormats, ∀ (f : GenerateBarcode) (args' : Arguments) (s : String),
        crates.vgi.constStr args' 1 = some s → PaddedWith s name →
        (∃ px, (Generator.barcode f).sizeOf crates args' = .ok px) →
        ∃ request, (Generator.barcode f).resolve crates args' = .ok request ∧
          formatName request.format = name := by
  obtain ⟨p,batch,hp,hdescribes,hcols,hrun⟩ := catalog_table_run ht env hs hmem args hbind
  exact ⟨p,batch,hp,hrun,hdescribes,hcols,
    fun _ hname f args' s hconst hpad hsize => resolve_listed hn hname hconst hpad hsize⟩

/-- The reference crates, with all the canonical names. -/
def Reference.listed : Crates :=
  {Reference.crates Reference.hello with
    rxing := {Reference.rxing Reference.hello with
      formatFrom := fun s => (listedFormats.find? (formatName · = s)).getD .unsuportedFormat}}

theorem Reference.listed_names : Reference.listed.rxing.NamesContract := by
  unfold Rxing.NamesContract
  decide

theorem catalog_sound_aztec : ∃ request, (Generator.barcode ⟨false⟩).resolve Reference.listed
    ⟨[none,some (.varchar "AZTEC ")]⟩ = .ok request ∧ formatName request.format = "AZTEC" := by
  have hpad : PaddedWith "AZTEC " "AZTEC" := ⟨[],[' '],by simp [isWhitespace],by decide⟩
  obtain ⟨p,batch,-,-,-,-,hnames⟩ := catalog_sound Reference.listed
    Reference.arrow_tryNew Reference.listed_names (fun _ => none) ⟨"main",[barcodeFormatsTable]⟩
    (List.mem_singleton.mpr rfl) barcodeFormatsTable (List.mem_singleton.mpr rfl) ⟨[]⟩
    ⟨BarcodeFormats.outputSchema,[]⟩ rfl
  exact hnames "AZTEC" (by decide) ⟨false⟩ ⟨[none,some (.varchar "AZTEC ")]⟩ "AZTEC " rfl hpad
    ⟨256,rfl⟩

end BarcodeWorker
