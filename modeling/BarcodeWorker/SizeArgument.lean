import BarcodeWorker.GenerateScalar

/-!
# The size argument

Which dimensions reach the encoder is a law of the trace of a scan: `encode_mem_trace_iff` lists
the encoder calls of one image, `mem_process_trace` those of a scan. A constant that `const_i64`
does not read is replaced by the default, so a supplied size is honoured exactly when it is read,
or makes no difference.
-/

namespace BarcodeWorker

open Barcoding ArrowIo

/-- A call that asks the encoder for exactly the size that a constant stands for. -/
def EncodesAt (v : SqlValue) (k : Call) : Prop :=
  ∀ text format w h, k = .encode text format w h → ∃ n : ℕ, v.number = some (n : ℚ) ∧
    1 ≤ n ∧ n ≤ 4096 ∧ w.toInt = n ∧ h.toInt = if isTwoD format then (n : ℤ) else max 64 (n/4)

/-! ## Encoder calls -/

/-- One image calls the encoder once, unless its text is empty. -/
theorem encode_mem_trace_iff (crates : Crates) (request : Request) (text text' : String)
    (format : BarcodeFormat) (w h : Int32) :
    .encode text' format w h ∈ (request.image crates text).trace ↔ text ≠ "" ∧ text' = text ∧
      format = request.format ∧ w = request.width.toInt32 ∧ h = request.height.toInt32 := by
  by_cases hd : ∃ m, Draws crates text request.format request.width request.height m
  · obtain ⟨m,hd⟩ := hd
    have htext := hd.text_ne
    simp [Request.image,generate_of_draws hd,htext]
  · obtain ⟨e,-,htrace⟩ := generate_of_not_draws fun m hm => hd ⟨m,hm⟩
    rw [Request.image,htrace]
    by_cases htext : text = ""
    · simp [htext]
    · simp [htext]

section Rows
variable {crates : Crates} {request : Request} {col : Column}

theorem row_trace_text {i : ℕ} {cell : Option col.dataType.Native} {text : String}
    (hc : col.cells[i]? = some cell) (htext : textCell col.dataType cell = .ok (some text)) :
    (request.row crates col i).trace = (request.image crates text).trace := by
  have hread : textStr col i = pure (some text) := by
    rw [textStr,hc]
    simp only [htext]
    rfl
  rw [Request.row,hread,pure_bind]
  simp

theorem row_trace_other {i : ℕ}
    (hc : ∀ cell text, col.cells[i]? = some cell → textCell col.dataType cell ≠ .ok (some text)) :
    (request.row crates col i).trace = [] := by
  rw [Request.row,textStr]
  cases hi : col.cells[i]? with
  | none => rfl
  | some cell =>
    cases ht : textCell col.dataType cell with
    | error e => simp only [ht]; rfl
    | ok text =>
      cases text with
      | none => simp only [ht]; rfl
      | some text => exact absurd ht (hc cell text hi)

/-- The text that a scan first hands to the encoder, if any: that of the first cell with a value,
unless the cell is no string or empty. -/
def FirstText (col : Column) (text : String) : Prop :=
  text ≠ "" ∧ ∃ cell, col.cells.find? Option.isSome = some cell ∧
    textCell col.dataType cell = .ok (some text)

theorem cellImage_ok_text {cell : Option col.dataType.Native} {row : Option Bytes}
    (hok : request.cellImage crates col.dataType cell = .ok row) (hne : cell ≠ none) :
    ∃ text, text ≠ "" ∧ textCell col.dataType cell = .ok (some text) := by
  obtain ⟨-,text,m,png,htext,hd,-⟩ := (Request.cellImage_ok_iff cell).mp ⟨row,hok⟩ hne
  exact ⟨text,hd.text_ne,htext⟩

/-- Where a scan calls the encoder at all, there is a first text. -/
theorem firstText_of_call {text' : String} {format : BarcodeFormat} {w h : Int32}
    (hk : .encode text' format w h ∈ (rowLoop (request.row crates col)
      (List.range col.cells.length) (.new : BinaryBuilder)).trace) : ∃ text, FirstText col text := by
  obtain ⟨pre,i,post,hs,hpre,hki⟩ := mem_rowLoop_trace hk
  obtain ⟨rfl,hi⟩ := eq_range_of_append hs
  obtain ⟨cell,text,hc,htext⟩ : ∃ cell text, col.cells[i]? = some cell ∧
      textCell col.dataType cell = .ok (some text) := by
    by_contra hnone
    push Not at hnone
    rw [row_trace_other fun cell text hc => hnone cell text hc] at hki
    simp at hki
  rw [row_trace_text hc htext,encode_mem_trace_iff] at hki
  have hvalue : cell ≠ none := by
    rintro rfl
    simp [Request.textCell_none] at htext
  obtain ⟨first,j,hfirst,hsome,hat,hji⟩ := exists_first_le (p := Option.isSome) hc
    (Option.isSome_iff_ne_none.mpr hvalue)
  rcases Nat.lt_or_eq_of_le hji with hlt | rfl
  · -- The row of the first cell with a value succeeded, so that cell has a text.
    obtain ⟨row,hrow⟩ := hpre j (List.mem_range.mpr hlt)
    rw [request.row_outcome crates hat] at hrow
    obtain ⟨text',hne,ht⟩ := cellImage_ok_text hrow (Option.isSome_iff_ne_none.mp hsome)
    exact ⟨text',hne,first,hfirst,ht⟩
  · obtain rfl : first = cell := by simpa [hat] using hc
    exact ⟨text,hki.1,first,hfirst,htext⟩

/-- A first text reaches the encoder. -/
theorem call_of_firstText {text : String} (hf : FirstText col text) :
    .encode text request.format request.width.toInt32 request.height.toInt32 ∈
      (rowLoop (request.row crates col) (List.range col.cells.length)
        (.new : BinaryBuilder)).trace := by
  obtain ⟨hne,cell,hfirst,htext⟩ := hf
  obtain ⟨-,as,bs,hcells,hnull⟩ := List.find?_eq_some_iff_append.mp hfirst
  have hat : col.cells[as.length]? = some cell := by rw [hcells]; simp
  have hlt : as.length < col.cells.length := by simp [hcells]
  obtain ⟨post,hrange⟩ := range_eq_append hlt
  have hpre : ∀ j ∈ List.range as.length, (request.row crates col j).outcome = .ok none := by
    intro j hj
    have hj' : j < as.length := List.mem_range.mp hj
    have hcj : col.cells[j]? = some as[j] := by
      rw [hcells,List.getElem?_append_left hj',List.getElem?_eq_getElem hj']
    have hnone : as[j] = none := by simpa using hnull as[j] (List.getElem_mem hj')
    rw [hnone] at hcj
    rw [request.row_outcome crates hcj]
    simp [Request.cellImage,Request.textCell_none]
  rw [hrange]
  refine mem_rowLoop_trace_of_nulls hpre ?_ _
  rw [row_trace_text hat htext,encode_mem_trace_iff]
  exact ⟨hne,rfl,rfl,rfl,rfl⟩

/-- Every encoder call of a scan asks for the dimensions of the request. -/
theorem call_dims {text : String} {format : BarcodeFormat} {w h : Int32}
    (hk : .encode text format w h ∈ (rowLoop (request.row crates col)
      (List.range col.cells.length) (.new : BinaryBuilder)).trace) :
    format = request.format ∧ w = request.width.toInt32 ∧ h = request.height.toInt32 := by
  obtain ⟨-,i,-,-,-,hki⟩ := mem_rowLoop_trace hk
  by_cases hc : ∃ cell text, col.cells[i]? = some cell ∧
      textCell col.dataType cell = .ok (some text)
  · obtain ⟨cell,text',hc,htext⟩ := hc
    rw [row_trace_text hc htext,encode_mem_trace_iff] at hki
    exact hki.2.2
  · push Not at hc
    rw [row_trace_other fun cell text hi => hc cell text hi] at hki
    simp at hki

end Rows

/-! ## A supplied size -/

namespace Generator

/-- A supplied size is honoured or rejected: bind and scan both fail, or every call of the encoder
asks for the number that the constant stands for. -/
def SizeHonoured (crates : Crates) (g : Generator) (args : Arguments) (schema : Schema)
    (batch : RecordBatch) (v : SqlValue) : Prop :=
  ((∃ e, (g.onBind crates ⟨args⟩).outcome = .error e) ∧
    ∃ e, (g.process crates ⟨args,schema⟩ batch).outcome = .error e) ∨
  ∀ k ∈ (g.process crates ⟨args,schema⟩ batch).trace, EncodesAt v k

/-- The constant is read, or reading it would change nothing: it stands for the default, the
format argument is rejected before it, or the batch has no text to encode. -/
def SizeRead (crates : Crates) (g : Generator) (args : Arguments) (col : Column) (v : SqlValue) :
    Prop :=
  (∃ n, crates.vgi.constI64 args g.sizePos = some n) ∨ v.number = some 256 ∨
    (∃ e, g.formatOf crates args = .error e) ∨ ¬ ∃ text, FirstText col text

section Size
variable {crates : Crates} {g : Generator} {args : Arguments} {request : Request} {v : SqlValue}
  {schema : Schema} {batch : RecordBatch} {col : Column}

theorem process_trace (hr : g.resolve crates args = .ok request)
    (hcol : batch.columns.head? = some col) : (g.process crates ⟨args,schema⟩ batch).trace =
      (rowLoop (request.row crates col) (List.range col.cells.length)
        (.new : BinaryBuilder)).trace := by
  rw [process_eq,hr]
  exact columnLoop_trace crates schema hcol (request.row crates) .binary

theorem honoured_of_resolve_error {e : RpcError} (he : g.resolve crates args = .error e) :
    g.SizeHonoured crates args schema batch v := by
  refine .inl ⟨⟨e,(onBind_eq_error_iff crates g args e).mpr he⟩,e,?_⟩
  rw [process_eq,he]
  simp

theorem not_bind_error (hr : g.resolve crates args = .ok request) :
    ¬ ∃ e, (g.onBind crates ⟨args⟩).outcome = .error e := by
  rintro ⟨e,he⟩
  rw [onBind_eq_error_iff,hr] at he
  cases he

/-- A request of the size that the constant stands for is honoured in every call. -/
theorem honoured_of_width (hasks : g.Asks crates args request)
    (hr : g.resolve crates args = .ok request) (hcol : batch.columns.head? = some col)
    (hpos : 1 ≤ request.width.toNat) (hle : request.width.toNat ≤ 4096)
    (hv : v.number = some (request.width.toNat : ℚ)) :
    g.SizeHonoured crates args schema batch v := by
  refine .inr fun k hk => ?_
  rw [process_trace hr hcol] at hk
  rintro text format w h rfl
  obtain ⟨rfl,rfl,rfl⟩ := call_dims hk
  refine ⟨request.width.toNat,hv,hpos,hle,toInt_toInt32 hle,?_⟩
  have hheight := hasks.height
  have hle' : request.height.toNat ≤ 4096 := by
    rw [hheight]
    split_ifs <;> omega
  rw [toInt_toInt32 hle',hheight]
  split_ifs <;> omega

theorem sizeRead_of_resolve_error {e : RpcError} (hs : g.withSize = true)
    (he : g.resolve crates args = .error e) : g.SizeRead crates args col v := by
  cases hf : g.formatOf crates args with
  | error e' => exact .inr (.inr (.inl ⟨e',hf⟩))
  | ok format =>
    left
    rw [resolve,hf] at he
    cases hn : crates.vgi.constI64 args g.sizePos with
    | none =>
      rw [sizeOf,if_pos hs,sizePx,hn] at he
      cases he
    | some n => exact ⟨n,rfl⟩

/-- Where no constant is read, the request is for the default. -/
theorem number_of_default_call {text : String} {format : BarcodeFormat} {h : Int32}
    (hk : EncodesAt v (.encode text format defaultGeneratePx.toInt32 h)) : v.number = some 256 := by
  obtain ⟨n,hnum,-,-,hw,-⟩ := hk _ _ _ _ rfl
  have hdef : defaultGeneratePx.toInt32.toInt = 256 := by decide
  obtain rfl : n = 256 := by omega
  exact hnum

end Size

/-- A size of 300 as an integer. -/
def sizedArgs (v : SqlValue) : Arguments := ⟨[none,some v]⟩

end Generator
end BarcodeWorker
