import Mathlib.Data.List.Basic
import Mathlib.Tactic

/-!
# The JSON grammar

The productions of RFC 8259. Each relates a text to the value that the text begins with and to the
text after it. A JSON string denotes UTF-16 code units, since an escape may name one half of a
surrogate pair; a number denotes its own lexeme.
-/

namespace BarcodeWorker

inductive Json
  | null
  | bool (b : Bool)
  | number (lexeme : List Char)
  | string (units : List ℕ)
  | array (values : List Json)
  | object (members : List (List ℕ × Json))

namespace Json

def quotationMark : Char := '\x22'
def reverseSolidus : Char := '\x5c'

/-! ## Code units -/

def utf16Char (c : Char) : List ℕ :=
  if c.toNat < 0x10000 then [c.toNat]
  else [0xD800+(c.toNat-0x10000)/0x400,0xDC00+(c.toNat-0x10000)%0x400]

def utf16 (s : List Char) : List ℕ := s.flatMap utf16Char

/-- No character stands for a lone surrogate. -/
theorem toNat_not_surrogate (c : Char) :
    c.toNat < 0xD800 ∨ 0xDFFF < c.toNat ∧ c.toNat < 0x110000 := c.valid

theorem utf16Char_ne_nil (c : Char) : utf16Char c ≠ [] := by
  rw [utf16Char]
  split_ifs <;> simp

/-- Code units begin with the units of one character only. -/
theorem utf16Char_append_inj {c d : Char} {us vs : List ℕ}
    (h : utf16Char c ++ us = utf16Char d ++ vs) : c = d ∧ us = vs := by
  have hc := toNat_not_surrogate c
  have hd := toNat_not_surrogate d
  have hnat : c.toNat = d.toNat ∧ us = vs := by
    rw [utf16Char,utf16Char] at h
    split_ifs at h with h₁ h₂ h₂
    · simp only [List.cons_append,List.nil_append,List.cons.injEq] at h
      exact h
    · simp only [List.cons_append,List.nil_append,List.cons.injEq] at h
      omega
    · simp only [List.cons_append,List.nil_append,List.cons.injEq] at h
      omega
    · simp only [List.cons_append,List.nil_append,List.cons.injEq] at h
      exact ⟨by omega,h.2.2⟩
  exact ⟨Char.toNat_inj.mp hnat.1,hnat.2⟩

theorem utf16_injective : Function.Injective utf16 := by
  intro s t h
  induction s generalizing t with
  | nil =>
    cases t with
    | nil => rfl
    | cons d t => simp [utf16,utf16Char_ne_nil] at h
  | cons c s ih =>
    cases t with
    | nil => simp [utf16,utf16Char_ne_nil] at h
    | cons d t =>
      rw [utf16,utf16,List.flatMap_cons,List.flatMap_cons] at h
      obtain ⟨hcd,hst⟩ := utf16Char_append_inj h
      rw [hcd,ih hst]

/-! ## Lexical productions -/

def IsWs (c : Char) : Prop :=
  c.toNat = 0x20 ∨ c.toNat = 0x09 ∨ c.toNat = 0x0A ∨ c.toNat = 0x0D

inductive WsText : List Char → List Char → Prop
  | nil (s : List Char) : WsText s s
  | cons {c : Char} {s t : List Char} (hc : IsWs c) (hs : WsText s t) : WsText (c::s) t

/-- A structural character, with whitespace around it. -/
def StructuralText (c : Char) (s t : List Char) : Prop :=
  ∃ r, WsText s (c::r) ∧ WsText r t

def IsUnescaped (c : Char) : Prop :=
  (0x20 ≤ c.toNat ∧ c.toNat ≤ 0x21) ∨ (0x23 ≤ c.toNat ∧ c.toNat ≤ 0x5B) ∨ 0x5D ≤ c.toNat

/-- The two-character escapes, by their second character. -/
def escapeUnit (c : Char) : Option ℕ :=
  match c.toNat with
  | 0x22 => some 0x22
  | 0x5C => some 0x5C
  | 0x2F => some 0x2F
  | 0x62 => some 0x08
  | 0x66 => some 0x0C
  | 0x6E => some 0x0A
  | 0x72 => some 0x0D
  | 0x74 => some 0x09
  | _ => none

def hexDigit (c : Char) : Option ℕ :=
  if 0x30 ≤ c.toNat ∧ c.toNat ≤ 0x39 then some (c.toNat-0x30)
  else if 0x41 ≤ c.toNat ∧ c.toNat ≤ 0x46 then some (c.toNat-0x41+10)
  else if 0x61 ≤ c.toNat ∧ c.toNat ≤ 0x66 then some (c.toNat-0x61+10)
  else none

def hex4 (a b c d : Char) : Option ℕ := do
  return (← hexDigit a)*0x1000+(← hexDigit b)*0x100+(← hexDigit c)*0x10+(← hexDigit d)

/-- The characters of a string and its closing quotation mark. -/
inductive CharsText : List Char → List ℕ → List Char → Prop
  | close (s : List Char) : CharsText (quotationMark::s) [] s
  | unescaped {c : Char} {s t : List Char} {us : List ℕ} (hc : IsUnescaped c)
      (hs : CharsText s us t) : CharsText (c::s) (utf16Char c ++ us) t
  | escape {c : Char} {s t : List Char} {u : ℕ} {us : List ℕ} (hc : escapeUnit c = some u)
      (hs : CharsText s us t) : CharsText (reverseSolidus::c::s) (u::us) t
  | unicode {a b c d : Char} {s t : List Char} {u : ℕ} {us : List ℕ} (hu : hex4 a b c d = some u)
      (hs : CharsText s us t) : CharsText (reverseSolidus :: 'u' :: a::b::c::d::s) (u::us) t

def IsDigits (s : List Char) : Prop := s ≠ [] ∧ ∀ c ∈ s, c.isDigit

def IsInt (s : List Char) : Prop :=
  s = ['0'] ∨ ∃ c ds, s = c::ds ∧ c.isDigit ∧ c ≠ '0' ∧ ∀ d ∈ ds, d.isDigit

def IsFrac (s : List Char) : Prop := s = [] ∨ ∃ ds, s = '.' :: ds ∧ IsDigits ds

def IsExp (s : List Char) : Prop :=
  s = [] ∨ ∃ e sign ds, s = e::(sign++ds) ∧ (e = 'e' ∨ e = 'E') ∧
    (sign = [] ∨ sign = ['+'] ∨ sign = ['-']) ∧ IsDigits ds

def IsNumber (s : List Char) : Prop :=
  ∃ sign int frac exp, s = sign++int++frac++exp ∧ (sign = [] ∨ sign = ['-']) ∧
    IsInt int ∧ IsFrac frac ∧ IsExp exp

/-! ## Values -/

mutual

inductive ValueText : List Char → Json → List Char → Prop
  | null {s t : List Char} (hs : s = 'n' :: 'u' :: 'l' :: 'l' :: t) : ValueText s .null t
  | false {s t : List Char} (hs : s = 'f' :: 'a' :: 'l' :: 's' :: 'e' :: t) : ValueText s (.bool false) t
  | true {s t : List Char} (hs : s = 't' :: 'r' :: 'u' :: 'e' :: t) : ValueText s (.bool true) t
  | number {s t lexeme : List Char} (hs : s = lexeme++t) (hn : IsNumber lexeme) :
      ValueText s (.number lexeme) t
  | string {s r t : List Char} {us : List ℕ} (hs : s = quotationMark::r) (hr : CharsText r us t) :
      ValueText s (.string us) t
  | emptyArray {s r t : List Char} (hs : StructuralText '[' s r) (hr : StructuralText ']' r t) :
      ValueText s (.array []) t
  | array {s r q p t : List Char} {v : Json} {vs : List Json} (hs : StructuralText '[' s r)
      (hv : ValueText r v q) (hvs : ElementsText q vs p) (hp : StructuralText ']' p t) :
      ValueText s (.array (v::vs)) t
  | emptyObject {s r t : List Char} (hs : StructuralText '\x7b' s r)
      (hr : StructuralText '\x7d' r t) : ValueText s (.object []) t
  | object {s r q p t : List Char} {m : List ℕ × Json} {ms : List (List ℕ × Json)}
      (hs : StructuralText '\x7b' s r) (hm : MemberText r m q) (hms : MembersText q ms p)
      (hp : StructuralText '\x7d' p t) : ValueText s (.object (m::ms)) t

/-- The elements of an array after the first. -/
inductive ElementsText : List Char → List Json → List Char → Prop
  | nil (s : List Char) : ElementsText s [] s
  | cons {s r q t : List Char} {v : Json} {vs : List Json} (hs : StructuralText ',' s r)
      (hv : ValueText r v q) (hvs : ElementsText q vs t) : ElementsText s (v::vs) t

inductive MemberText : List Char → List ℕ × Json → List Char → Prop
  | intro {s r q p t : List Char} {us : List ℕ} {v : Json} (hs : s = quotationMark::r)
      (hr : CharsText r us q) (hq : StructuralText ':' q p) (hv : ValueText p v t) :
      MemberText s (us,v) t

/-- The members of an object after the first. -/
inductive MembersText : List Char → List (List ℕ × Json) → List Char → Prop
  | nil (s : List Char) : MembersText s [] s
  | cons {s r q t : List Char} {m : List ℕ × Json} {ms : List (List ℕ × Json)}
      (hs : StructuralText ',' s r) (hm : MemberText r m q) (hms : MembersText q ms t) :
      MembersText s (m::ms) t

end

/-- A whole document. -/
def JsonText (s : List Char) (v : Json) : Prop :=
  ∃ r t, WsText s r ∧ ValueText r v t ∧ WsText t []

/-! ## Inversion

What a text that begins with a known character can be. -/

theorem not_isWs_of_lt {c : Char} (h : 0x20 < c.toNat) : ¬ IsWs c := by
  rw [IsWs]
  omega

theorem WsText.eq_of_not_isWs {c : Char} {s t : List Char} (h : WsText (c::s) t)
    (hc : ¬ IsWs c) : t = c::s := by
  cases h with
  | nil => rfl
  | cons hws _ => exact absurd hws hc

theorem StructuralText.first {c d : Char} {s t : List Char} (h : StructuralText c (d::s) t)
    (hd : ¬ IsWs d) : c = d ∧ WsText s t := by
  obtain ⟨r,hr,ht⟩ := h
  obtain ⟨rfl,rfl⟩ := List.cons.inj (hr.eq_of_not_isWs hd)
  exact ⟨rfl,ht⟩

theorem structuralText_intro (c : Char) (s : List Char) : StructuralText c (c::s) s :=
  ⟨s,.nil _,.nil _⟩

section Chars
variable {c : Char} {s t : List Char} {us : List ℕ}

theorem not_isUnescaped_quotationMark : ¬ IsUnescaped quotationMark := by
  rw [IsUnescaped]
  decide

theorem not_isUnescaped_reverseSolidus : ¬ IsUnescaped reverseSolidus := by
  rw [IsUnescaped]
  decide

theorem isUnescaped_iff (hq : c ≠ quotationMark) (hr : c ≠ reverseSolidus) :
    IsUnescaped c ↔ 0x20 ≤ c.toNat := by
  have hq' : c.toNat ≠ 0x22 := fun h => hq (Char.toNat_inj.mp h)
  have hr' : c.toNat ≠ 0x5C := fun h => hr (Char.toNat_inj.mp h)
  rw [IsUnescaped]
  omega

theorem CharsText.inv_close (h : CharsText (quotationMark::s) us t) : us = [] ∧ t = s := by
  generalize hr : quotationMark::s = r at h
  cases h with
  | close => exact ⟨rfl,(List.cons.inj hr).2.symm⟩
  | unescaped hc _ =>
    obtain ⟨rfl,-⟩ := List.cons.inj hr
    exact absurd hc not_isUnescaped_quotationMark
  | escape _ _ => exact absurd (List.cons.inj hr).1 (by decide)
  | unicode _ _ => exact absurd (List.cons.inj hr).1 (by decide)

theorem CharsText.inv_unescaped (h : CharsText (c::s) us t) (hq : c ≠ quotationMark)
    (hr : c ≠ reverseSolidus) :
    IsUnescaped c ∧ ∃ us', us = utf16Char c ++ us' ∧ CharsText s us' t := by
  generalize hs : c::s = r at h
  cases h with
  | close => exact absurd (List.cons.inj hs).1 hq
  | unescaped hc hrest =>
    obtain ⟨rfl,rfl⟩ := List.cons.inj hs
    exact ⟨hc,_,rfl,hrest⟩
  | escape _ _ => exact absurd (List.cons.inj hs).1 hr
  | unicode _ _ => exact absurd (List.cons.inj hs).1 hr

theorem CharsText.inv_escape (h : CharsText (reverseSolidus::c::s) us t) {u : ℕ}
    (hu : escapeUnit c = some u) : ∃ us', us = u::us' ∧ CharsText s us' t := by
  generalize hs : reverseSolidus::c::s = r at h
  cases h with
  | close => exact absurd (List.cons.inj hs).1 (by decide)
  | unescaped hc _ =>
    obtain ⟨rfl,-⟩ := List.cons.inj hs
    exact absurd hc not_isUnescaped_reverseSolidus
  | escape hc hrest =>
    simp only [List.cons.injEq,true_and] at hs
    obtain ⟨rfl,rfl⟩ := hs
    obtain rfl := Option.some.inj (hu.symm.trans hc)
    exact ⟨_,rfl,hrest⟩
  | unicode _ _ =>
    simp only [List.cons.injEq,true_and] at hs
    obtain ⟨rfl,-⟩ := hs
    exact absurd hu (by simp [escapeUnit])

end Chars

/-- A number begins with a digit or a minus. -/
theorem IsNumber.first {c : Char} {lexeme s t : List Char} (h : IsNumber lexeme)
    (hs : c::s = lexeme++t) : c = '-' ∨ c.isDigit := by
  obtain ⟨sign,int,frac,exp,rfl,hsign,hint,-,-⟩ := h
  rcases hsign with rfl | rfl
  · rcases hint with rfl | ⟨d,ds,rfl,hd,-,-⟩
    · simp only [List.nil_append,List.cons_append,List.cons.injEq] at hs
      rw [hs.1]
      exact .inr (by decide)
    · simp only [List.nil_append,List.cons_append,List.cons.injEq] at hs
      rw [hs.1]
      exact .inr hd
  · simp only [List.cons_append,List.cons.injEq] at hs
    exact .inl hs.1

section Value
variable {c : Char} {s t : List Char} {v : Json}

/-- What a value that begins with a bracket can be. -/
def ArrayText (s : List Char) (v : Json) (t : List Char) : Prop :=
  (v = .array [] ∧ ∃ r, WsText s r ∧ StructuralText ']' r t) ∨
    ∃ w ws r q p, v = .array (w::ws) ∧ WsText s r ∧ ValueText r w q ∧ ElementsText q ws p ∧
      StructuralText ']' p t

/-- The first character of a value says which production it is. -/
theorem ValueText.first (h : ValueText (c::s) v t) (hws : ¬ IsWs c) :
    (c = quotationMark ∧ ∃ us, v = .string us ∧ CharsText s us t) ∨
      (c = '[' ∧ ArrayText s v t) ∨ c ∈ ['n','f','t','-','\x7b'] ∨ c.isDigit := by
  cases h with
  | null hs => simp [(List.cons.inj hs).1]
  | false hs => simp [(List.cons.inj hs).1]
  | true hs => simp [(List.cons.inj hs).1]
  | number hs hn =>
    rcases hn.first hs with hc | hc
    · simp [hc]
    · exact .inr (.inr (.inr hc))
  | string hs hr =>
    obtain ⟨rfl,rfl⟩ := List.cons.inj hs
    exact .inl ⟨rfl,_,rfl,hr⟩
  | emptyArray hs hr =>
    obtain ⟨rfl,hgap⟩ := hs.first hws
    exact .inr (.inl ⟨rfl,.inl ⟨rfl,_,hgap,hr⟩⟩)
  | array hs hv hvs hp =>
    obtain ⟨rfl,hgap⟩ := hs.first hws
    exact .inr (.inl ⟨rfl,.inr ⟨_,_,_,_,_,rfl,hgap,hv,hvs,hp⟩⟩)
  | emptyObject hs _ => simp [← (hs.first hws).1]
  | object hs _ _ _ => simp [← (hs.first hws).1]

/-- A value after a quotation mark is a string. -/
theorem ValueText.inv_string (h : ValueText (quotationMark::s) v t) :
    ∃ us, v = .string us ∧ CharsText s us t := by
  have hws : ¬ IsWs quotationMark := not_isWs_of_lt (by decide)
  rcases h.first hws with ⟨-,hv⟩ | ⟨hc,-⟩ | hc | hc
  · exact hv
  · exact absurd hc (by decide)
  · exact absurd hc (by decide)
  · exact absurd hc (by decide)

/-- A value after an opening bracket is an array. -/
theorem ValueText.inv_array (h : ValueText ('[' :: s) v t) : ArrayText s v t := by
  have hws : ¬ IsWs '[' := not_isWs_of_lt (by decide)
  rcases h.first hws with ⟨hc,-⟩ | ⟨-,hv⟩ | hc | hc
  · exact absurd hc (by decide)
  · exact hv
  · exact absurd hc (by decide)
  · exact absurd hc (by decide)

/-- No value begins with a closing bracket. -/
theorem not_valueText_bracket : ¬ ValueText (']' :: s) v t := by
  have hws : ¬ IsWs ']' := not_isWs_of_lt (by decide)
  intro h
  rcases h.first hws with ⟨hc,-⟩ | ⟨hc,-⟩ | hc | hc <;> exact absurd hc (by decide)

/-- After the last element comes the closing bracket. -/
theorem ElementsText.inv_end {vs : List Json} {p : List Char} (h : ElementsText (']' :: s) vs p)
    (hp : StructuralText ']' p t) : vs = [] ∧ WsText s t := by
  have hws : ¬ IsWs ']' := not_isWs_of_lt (by decide)
  cases h with
  | nil => exact ⟨rfl,(hp.first hws).2⟩
  | cons hs _ _ => exact absurd (hs.first hws).1 (by decide)

/-- After a comma comes another element. -/
theorem ElementsText.inv_comma {vs : List Json} {p : List Char} (h : ElementsText (',' :: s) vs p)
    (hp : StructuralText ']' p t) : ∃ w ws r q, vs = w::ws ∧ WsText s r ∧ ValueText r w q ∧
      ElementsText q ws p := by
  have hws : ¬ IsWs ',' := not_isWs_of_lt (by decide)
  cases h with
  | nil => exact absurd (hp.first hws).1 (by decide)
  | cons hs hv hvs => exact ⟨_,_,_,_,rfl,(hs.first hws).2,hv,hvs⟩

end Value
end Json
end BarcodeWorker
