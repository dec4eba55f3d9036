import BarcodeWorker.SizeArgument
import Mathlib.Data.List.DropRight

/-!
# Interchangeable calls

The generators come in four overloads, and a call writes its format and its size in many ways. Two
calls are interchangeable when no bind and no scan tells them apart, by what it returns or by what
it asks of the crates. They are so exactly when they resolve to the same request, which is read off
the format name without the white space around it and off the size, `QR_CODE` and 256 where an
overload takes none.
-/

namespace BarcodeWorker

open Barcoding ArrowIo

/-! ## White space around a name -/

/-- A text with white space before and after it. -/
def PaddedWith (s core : String) : Prop :=
  ∃ pre post : List Char, (∀ c ∈ pre ++ post, isWhitespace c) ∧
    s = String.ofList (pre ++ core.toList ++ post)

theorem padded_self (s : String) : PaddedWith s s := ⟨[],[],by simp,by simp⟩

/-- `trim` is `dropWhile` from both ends. -/
theorem trim_toList (s : String) :
    (trim s).toList = (s.toList.dropWhile isWhitespace).rdropWhile isWhitespace :=
  String.toList_ofList

theorem rdropWhile_append_of_pos {α : Type} {p : α → Bool} (l : List α) {post : List α}
    (h : ∀ a ∈ post, p a) : (l ++ post).rdropWhile p = l.rdropWhile p := by
  have hrev : ∀ a ∈ post.reverse, p a := fun a ha => h a (List.mem_reverse.mp ha)
  rw [List.rdropWhile,List.reverse_append,List.dropWhile_append_of_pos hrev,List.rdropWhile]

theorem trim_of_padded {s core : String} (h : PaddedWith s core) : trim s = trim core := by
  obtain ⟨pre,post,hspace,rfl⟩ := h
  have hpre : ∀ c ∈ pre, isWhitespace c := fun c hc => hspace c (by simp [hc])
  have hpost : ∀ c ∈ post, isWhitespace c := fun c hc => hspace c (by simp [hc])
  apply String.toList_inj.mp
  rw [trim_toList,trim_toList,String.toList_ofList,List.append_assoc,
    List.dropWhile_append_of_pos hpre]
  by_cases hall : ∀ c ∈ core.toList, isWhitespace c
  · -- Nothing is left of either.
    have hnone : ∀ c ∈ core.toList ++ post, isWhitespace c := by
      intro c hc
      rcases List.mem_append.mp hc with hc | hc
      · exact hall c hc
      · exact hpost c hc
    rw [List.dropWhile_eq_nil_iff.mpr hnone,List.dropWhile_eq_nil_iff.mpr hall]
  · have hleft : (core.toList.dropWhile isWhitespace).isEmpty = false := by
      rw [List.isEmpty_eq_false_iff]
      exact fun hnil => hall (List.dropWhile_eq_nil_iff.mp hnil)
    rw [List.dropWhile_append,hleft,if_neg Bool.false_ne_true]
    exact rdropWhile_append_of_pos _ hpost

/-- A format is parsed without the white space around it; only an error quotes it. -/
theorem parseFormat_of_padded (rxing : Rxing) {s s' core : String} (h : PaddedWith s core)
    (h' : PaddedWith s' core) (f : BarcodeFormat) :
    parseFormat rxing s = .ok f ↔ parseFormat rxing s' = .ok f := by
  rw [parseFormat,parseFormat,trim_of_padded h,trim_of_padded h']
  by_cases hf : rxing.formatFrom (trim core) = .unsuportedFormat
  · simp [hf]
  · simp [hf]

namespace Generator

/-! ## Requests and calls -/

/-- No bind and no scan tells the two calls apart. -/
structure Interchangeable (crates : Crates) (g g' : Generator) (args args' : Arguments) : Prop where
  bind : g.onBind crates ⟨args⟩ = g'.onBind crates ⟨args'⟩
  process : ∀ schema batch,
    g.process crates ⟨args,schema⟩ batch = g'.process crates ⟨args',schema⟩ batch

section Calls
variable {crates : Crates} {g g' : Generator} {args args' : Arguments}

/-- A batch with one text. -/
def oneText : RecordBatch := .ofColumn [] (.utf8 [some "A"])

theorem encode_mem_oneText {request : Request} (hr : g.resolve crates args = .ok request)
    (schema : Schema) : .encode "A" request.format request.width.toInt32 request.height.toInt32 ∈
      (g.process crates ⟨args,schema⟩ oneText).trace := by
  have hfirst : FirstText (.utf8 [some "A"]) "A" := ⟨by decide,_,rfl,rfl⟩
  rw [process_trace hr (rfl : oneText.columns.head? = some (.utf8 [some "A"]))]
  exact call_of_firstText hfirst

theorem request_eq_of_oneText {request request' : Request}
    (hr : g.resolve crates args = .ok request) (hr' : g'.resolve crates args' = .ok request')
    {schema : Schema} (hsame : g.process crates ⟨args,schema⟩ oneText =
      g'.process crates ⟨args',schema⟩ oneText) : request = request' := by
  have hmem := encode_mem_oneText hr schema
  rw [hsame,process_trace hr' (rfl : oneText.columns.head? = some (.utf8 [some "A"]))] at hmem
  obtain ⟨hformat,hw,hh⟩ := call_dims hmem
  have hwidth : request.width = request'.width := by
    have hback := congrArg Int32.toUInt32 hw
    rwa [UInt32.toUInt32_toInt32,UInt32.toUInt32_toInt32] at hback
  have hheight : request.height = request'.height := by
    have hback := congrArg Int32.toUInt32 hh
    rwa [UInt32.toUInt32_toInt32,UInt32.toUInt32_toInt32] at hback
  cases request
  cases request'
  simp_all

/-- Two calls are interchangeable exactly when they resolve to the same request, or are refused
with the same error. -/
theorem interchangeable_iff (crates : Crates) (g g' : Generator) (args args' : Arguments) :
    g.Interchangeable crates g' args args' ↔ g.resolve crates args = g'.resolve crates args' := by
  constructor
  · intro h
    have hsame := h.process [] oneText
    cases hr : g.resolve crates args with
    | ok request =>
      cases hr' : g'.resolve crates args' with
      | ok request' => rw [request_eq_of_oneText hr hr' hsame]
      | error e =>
        have hmem := encode_mem_oneText hr []
        rw [hsame,process_eq,hr'] at hmem
        cases hmem
    | error e =>
      have hbind := congrArg Traced.outcome h.bind
      rw [(onBind_eq_error_iff crates g args e).mpr hr] at hbind
      exact ((onBind_eq_error_iff crates g' args' e).mp hbind.symm).symm
  · intro h
    refine ⟨?_,fun schema batch => ?_⟩
    · rw [onBind_eq,onBind_eq,h]
    · rw [process_eq,process_eq]
      simp only [h]

end Calls

/-! ## How a call writes its request -/

/-- The format name of a call. -/
def formatText (crates : Crates) (args : Arguments) : Generator → Option String
  | .qr _ => some "QR_CODE"
  | .barcode _ => crates.vgi.constStr args 1

/-- The size of a call. -/
def sizeValue (crates : Crates) (args : Arguments) (g : Generator) : Int64 :=
  if g.withSize then (crates.vgi.constI64 args g.sizePos).getD 256 else 256

section Resolution
variable {crates : Crates} {g g' : Generator} {args args' : Arguments}

theorem formatOf_eq_ok_iff (hname : crates.rxing.formatFrom "QR_CODE" = .qrCode)
    (format : BarcodeFormat) : g.formatOf crates args = .ok format ↔
      ∃ s, g.formatText crates args = some s ∧ parseFormat crates.rxing s = .ok format := by
  cases g with
  | qr f =>
    have hparse : parseFormat crates.rxing "QR_CODE" = .ok .qrCode := by
      have htrim : trim "QR_CODE" = "QR_CODE" := by decide
      rw [parseFormat,htrim,hname]
      rfl
    simp [formatOf,formatText,hparse]
  | barcode f =>
    rw [formatOf,formatText,GenerateBarcode.formatArg]
    cases crates.vgi.constStr args 1 with
    | none => simp
    | some s => cases hp : parseFormat crates.rxing s <;> simp [hp,Except.mapError]

theorem sizeOf_eq (crates : Crates) (g : Generator) (args : Arguments) :
    g.sizeOf crates args = (checkSize (g.sizeValue crates args)).mapError ve := by
  have hdefault : checkSize 256 = .ok defaultGeneratePx := by decide
  rw [sizeOf,sizeValue]
  by_cases hs : g.withSize
  · rw [if_pos hs,if_pos hs,sizePx]
    cases crates.vgi.constI64 args g.sizePos with
    | none => rw [Option.getD_none,hdefault]; rfl
    | some n => rfl
  · rw [if_neg hs,if_neg hs,hdefault]
    rfl

theorem resolve_eq_ok_iff (hname : crates.rxing.formatFrom "QR_CODE" = .qrCode)
    (request : Request) : g.resolve crates args = .ok request ↔
      ∃ s format px, g.formatText crates args = some s ∧
        parseFormat crates.rxing s = .ok format ∧ checkSize (g.sizeValue crates args) = .ok px ∧
        request = .ofSize format px := by
  rw [resolve,sizeOf_eq]
  constructor
  · intro h
    cases hf : g.formatOf crates args with
    | error e => rw [hf] at h; cases h
    | ok format =>
      obtain ⟨s,hs,hparse⟩ := (formatOf_eq_ok_iff hname format).mp hf
      cases hp : checkSize (g.sizeValue crates args) with
      | error e => rw [hf,hp] at h; cases h
      | ok px =>
        rw [hf,hp] at h
        exact ⟨s,format,px,hs,hparse,rfl,(Except.ok.inj h).symm⟩
  · rintro ⟨s,format,px,hs,hparse,hp,rfl⟩
    rw [(formatOf_eq_ok_iff hname format).mpr ⟨s,hs,hparse⟩,hp]
    rfl

end Resolution

/-- Calls of any two overloads with the same format name up to white space around it, and with
the same size, are interchangeable, or both are refused. -/
theorem interchangeable_of_same (crates : Crates)
    (hname : crates.rxing.formatFrom "QR_CODE" = .qrCode) (g g' : Generator)
    (args args' : Arguments) (s s' core : String) (hs : g.formatText crates args = some s)
    (hs' : g'.formatText crates args' = some s') (hpad : PaddedWith s core)
    (hpad' : PaddedWith s' core) (hsize : g.sizeValue crates args = g'.sizeValue crates args') :
    g.Interchangeable crates g' args args' ∨
      (∃ e, (g.onBind crates ⟨args⟩).outcome = .error e) ∧
        ∃ e, (g'.onBind crates ⟨args'⟩).outcome = .error e := by
  have hsame : ∀ request, g.resolve crates args = .ok request ↔
      g'.resolve crates args' = .ok request := by
    intro request
    simp only [resolve_eq_ok_iff hname,hs,hs',hsize,Option.some.injEq,exists_eq_left',exists_and_left,
      parseFormat_of_padded crates.rxing hpad hpad']
  cases hr : g.resolve crates args with
  | ok request =>
    refine .inl ((interchangeable_iff crates g g' args args').mpr ?_)
    rw [hr,(hsame request).mp hr]
  | error e =>
    cases hr' : g'.resolve crates args' with
    | ok request =>
      have h := (hsame request).mpr hr'
      rw [hr] at h
      cases h
    | error e' =>
      exact .inr ⟨⟨e,(onBind_eq_error_iff crates g args e).mpr hr⟩,
        e',(onBind_eq_error_iff crates g' args' e').mpr hr'⟩

/-- The format between blanks and the default size, written out. -/
def paddedArgs : Arguments := ⟨[none,some (.varchar " QR_CODE\t"),some (.integer 256)]⟩

theorem interchangeable_of_same_padded : (Generator.qr ⟨false⟩).Interchangeable
    (Reference.crates Reference.hello) (.barcode ⟨true⟩) ⟨[none]⟩ paddedArgs := by
  have hpad : PaddedWith " QR_CODE\t" "QR_CODE" := ⟨[' '],['\t'],by simp [isWhitespace],by decide⟩
  rcases interchangeable_of_same (Reference.crates Reference.hello) (by decide) (.qr ⟨false⟩)
    (.barcode ⟨true⟩) ⟨[none]⟩ paddedArgs "QR_CODE" " QR_CODE\t" "QR_CODE" rfl rfl
    (padded_self "QR_CODE") hpad rfl with h | ⟨⟨e,he⟩,-⟩
  · exact h
  · cases he

end Generator
end BarcodeWorker
