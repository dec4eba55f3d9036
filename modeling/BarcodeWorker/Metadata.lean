import BarcodeWorker.JsonGrammar

/-! Discovery metadata of the functions and tables: `keywords_json` and `object_tags`. -/
namespace BarcodeWorker
namespace Meta

open Json

/-- One turn of the inner loop: the two escapes, and every other character as it is. -/
def pushEscaped (s : String) (ch : Char) : String :=
  match ch with
  | '\x22' => s ++ "\\\""
  | '\x5c' => s ++ "\\\\"
  | _ => s.push ch

/-- One turn of the outer loop. -/
def pushKeyword (s : String) (kw : String × ℕ) : String :=
  let s := if kw.2 > 0 then s.push ',' else s
  let s := s.push '\x22'
  let s := kw.1.toList.foldl pushEscaped s
  s.push '\x22'

def keywordsJson (keywords : List String) : String :=
  (keywords.zipIdx.foldl pushKeyword "[").push ']'

/-- The standard tags of an object. -/
def objectTags (title docLlm docMd : String) (keywords : List String) (category : String) :
    List (String × String) :=
  [("vgi.title",title),("vgi.doc_llm",docLlm),("vgi.doc_md",docMd),
    ("vgi.keywords",keywordsJson keywords),("vgi.category",category),("domain","imaging")]

/-! ## The text of the encoder -/

def escapeChar (c : Char) : List Char :=
  if c = quotationMark then [reverseSolidus,quotationMark]
  else if c = reverseSolidus then [reverseSolidus,reverseSolidus]
  else [c]

def quoted (kw : String) : List Char :=
  quotationMark :: (kw.toList.flatMap escapeChar ++ [quotationMark])

/-- The elements after the first, each behind its comma. -/
def moreElements (keywords : List String) : List Char :=
  keywords.flatMap fun kw => ',' :: quoted kw

theorem pushEscaped_toList (s : String) (c : Char) :
    (pushEscaped s c).toList = s.toList ++ escapeChar c := by
  by_cases hq : c = quotationMark
  · subst hq
    simp [pushEscaped,escapeChar,quotationMark,reverseSolidus]
  · by_cases hr : c = reverseSolidus
    · subst hr
      simp [pushEscaped,escapeChar,quotationMark,reverseSolidus]
    · rw [escapeChar,if_neg hq,if_neg hr,pushEscaped]
      · simp
      · exact hq
      · exact hr

theorem foldl_pushEscaped_toList (cs : List Char) (s : String) :
    (cs.foldl pushEscaped s).toList = s.toList ++ cs.flatMap escapeChar := by
  induction cs generalizing s with
  | nil => simp
  | cons c cs ih => rw [List.foldl_cons,ih,pushEscaped_toList,List.flatMap_cons,List.append_assoc]

theorem pushKeyword_toList (s : String) (kw : String) (i : ℕ) :
    (pushKeyword s (kw,i)).toList =
      s.toList ++ ((if i > 0 then [','] else []) ++ quoted kw) := by
  by_cases hi : i > 0
  · simp [pushKeyword,hi,foldl_pushEscaped_toList,quoted,quotationMark]
  · simp [pushKeyword,hi,foldl_pushEscaped_toList,quoted,quotationMark]

theorem foldl_pushKeyword_toList (keywords : List String) (s : String) (i : ℕ) (hi : 0 < i) :
    ((keywords.zipIdx i).foldl pushKeyword s).toList = s.toList ++ moreElements keywords := by
  induction keywords generalizing s i with
  | nil => simp [moreElements]
  | cons kw keywords ih =>
    rw [List.zipIdx_cons,List.foldl_cons,ih _ (i+1) (by omega),pushKeyword_toList,if_pos hi]
    simp [moreElements]

theorem keywordsJson_nil : (keywordsJson []).toList = ['[',']'] := by decide

theorem keywordsJson_cons (kw : String) (keywords : List String) :
    (keywordsJson (kw::keywords)).toList =
      '[' :: (quoted kw ++ (moreElements keywords ++ [']'])) := by
  rw [keywordsJson,List.zipIdx_cons,List.foldl_cons,String.toList_push,
    foldl_pushKeyword_toList _ _ _ (by decide),pushKeyword_toList]
  simp

/-! ## Strings -/

/-- No character of the keyword is one that JSON forbids raw. -/
def Plain (kw : String) : Prop := ∀ c ∈ kw.toList, 0x20 ≤ c.toNat

theorem charsText_escape {s : List Char} (hs : ∀ c ∈ s, 0x20 ≤ c.toNat) (r : List Char) :
    CharsText (s.flatMap escapeChar ++ quotationMark::r) (utf16 s) r := by
  induction s with
  | nil => exact .close r
  | cons c s ih =>
    have hrest := ih fun d hd => hs d (by simp [hd])
    rw [List.flatMap_cons,utf16,List.flatMap_cons,← utf16,escapeChar]
    split_ifs with hq hr
    · subst hq
      exact .escape (by decide) hrest
    · subst hr
      exact .escape (by decide) hrest
    · exact .unescaped ((isUnescaped_iff hq hr).mpr (hs c (by simp))) hrest

/-- The grammar reads an escaped text in one way only, and only if no character is forbidden. -/
theorem charsText_escape_inv {s r t : List Char} {us : List ℕ}
    (h : CharsText (s.flatMap escapeChar ++ quotationMark::r) us t) :
    (∀ c ∈ s, 0x20 ≤ c.toNat) ∧ us = utf16 s ∧ t = r := by
  induction s generalizing us with
  | nil =>
    obtain ⟨rfl,rfl⟩ := h.inv_close
    exact ⟨by simp,rfl,rfl⟩
  | cons c s ih =>
    rw [utf16,List.flatMap_cons,← utf16]
    rw [List.flatMap_cons,escapeChar] at h
    split_ifs at h with hq hr
    · subst hq
      obtain ⟨us',rfl,hrest⟩ := h.inv_escape (u := 0x22) (by decide)
      obtain ⟨hs,rfl,rfl⟩ := ih hrest
      exact ⟨by simpa using ⟨by decide,hs⟩,rfl,rfl⟩
    · subst hr
      obtain ⟨us',rfl,hrest⟩ := h.inv_escape (u := 0x5C) (by decide)
      obtain ⟨hs,rfl,rfl⟩ := ih hrest
      exact ⟨by simpa using ⟨by decide,hs⟩,rfl,rfl⟩
    · obtain ⟨hc,us',rfl,hrest⟩ := CharsText.inv_unescaped h hq hr
      obtain ⟨hs,rfl,rfl⟩ := ih hrest
      exact ⟨by simpa using ⟨(isUnescaped_iff hq hr).mp hc,hs⟩,rfl,rfl⟩

theorem quoted_append (kw : String) (r : List Char) :
    quoted kw ++ r = quotationMark :: (kw.toList.flatMap escapeChar ++ quotationMark::r) := by
  simp [quoted]

theorem valueText_quoted {kw : String} (hkw : Plain kw) (r : List Char) :
    ValueText (quoted kw ++ r) (.string (utf16 kw.toList)) r :=
  .string (quoted_append kw r) (charsText_escape hkw r)

theorem valueText_quoted_inv {kw : String} {r t : List Char} {v : Json}
    (h : ValueText (quoted kw ++ r) v t) :
    Plain kw ∧ v = .string (utf16 kw.toList) ∧ t = r := by
  rw [quoted_append] at h
  obtain ⟨us,rfl,hus⟩ := h.inv_string
  obtain ⟨hplain,rfl,rfl⟩ := charsText_escape_inv hus
  exact ⟨hplain,rfl,rfl⟩

/-! ## Documents -/

/-- What the document of a list of keywords has to denote. -/
def keywordArray (keywords : List String) : Json :=
  .array (keywords.map fun kw => .string (utf16 kw.toList))

theorem keywordArray_injective : Function.Injective keywordArray := by
  intro ks ks' h
  have hmap := Json.array.inj h
  refine List.map_injective_iff.mpr ?_ hmap
  intro kw kw' hkw
  have hunits := utf16_injective (Json.string.inj hkw)
  exact String.toList_inj.mp hunits

/-- The document is JSON, denotes the keywords in order and can be read in no other way. -/
structure Encodes (doc : String) (keywords : List String) : Prop where
  accepted : JsonText doc.toList (keywordArray keywords)
  unique : ∀ v, JsonText doc.toList v → v = keywordArray keywords
  strings : ∀ keywords', JsonText doc.toList (keywordArray keywords') → keywords' = keywords

theorem moreElements_cons (kw : String) (keywords : List String) (r : List Char) :
    moreElements (kw::keywords) ++ r = ',' :: (quoted kw ++ (moreElements keywords ++ r)) := by
  simp [moreElements]

theorem elementsText_more {keywords : List String} (hk : ∀ kw ∈ keywords, Plain kw)
    (r : List Char) : ElementsText (moreElements keywords ++ r)
      (keywords.map fun kw => .string (utf16 kw.toList)) r := by
  induction keywords with
  | nil => exact .nil r
  | cons kw keywords ih =>
    rw [moreElements_cons,List.map_cons]
    have hrest := ih fun kw' hkw => hk kw' (by simp [hkw])
    exact .cons (structuralText_intro ',' _) (valueText_quoted (hk kw (by simp)) _) hrest

theorem quoted_ws {kw : String} {r t : List Char} (h : WsText (quoted kw ++ r) t) :
    t = quoted kw ++ r := by
  have hws : ¬ IsWs quotationMark := not_isWs_of_lt (by decide)
  rw [quoted_append] at h ⊢
  exact h.eq_of_not_isWs hws

theorem elementsText_more_inv {keywords : List String} {vs : List Json} {p t : List Char}
    (h : ElementsText (moreElements keywords ++ [']']) vs p) (hp : StructuralText ']' p t) :
    (∀ kw ∈ keywords, Plain kw) ∧ vs = keywords.map fun kw => .string (utf16 kw.toList) := by
  induction keywords generalizing vs with
  | nil =>
    obtain ⟨rfl,-⟩ := ElementsText.inv_end h hp
    exact ⟨by simp,rfl⟩
  | cons kw keywords ih =>
    rw [moreElements_cons] at h
    obtain ⟨w,ws,r,q,rfl,hr,hw,hws⟩ := h.inv_comma hp
    rw [quoted_ws hr] at hw
    obtain ⟨hplain,rfl,rfl⟩ := valueText_quoted_inv hw
    obtain ⟨hrest,rfl⟩ := ih hws
    exact ⟨by simpa using ⟨hplain,hrest⟩,rfl⟩

theorem jsonText_keywords {keywords : List String} (hk : ∀ kw ∈ keywords, Plain kw) :
    JsonText (keywordsJson keywords).toList (keywordArray keywords) := by
  refine ⟨_,[],.nil _,?_,.nil []⟩
  cases keywords with
  | nil =>
    rw [keywordsJson_nil]
    exact .emptyArray (structuralText_intro '[' _) (structuralText_intro ']' [])
  | cons kw keywords =>
    rw [keywordsJson_cons]
    have hall : ∀ kw' ∈ keywords, Plain kw' := fun kw' hkw => hk kw' (by simp [hkw])
    have hrest := elementsText_more hall [']']
    exact .array (structuralText_intro '[' _) (valueText_quoted (hk kw (by simp)) _) hrest
      (structuralText_intro ']' [])

/-- Whatever the grammar reads in the document is the keywords, all of them plain. -/
theorem jsonText_keywords_inv {keywords : List String} {v : Json}
    (h : JsonText (keywordsJson keywords).toList v) :
    (∀ kw ∈ keywords, Plain kw) ∧ v = keywordArray keywords := by
  have hopen : ¬ IsWs '[' := not_isWs_of_lt (by decide)
  have hclose : ¬ IsWs ']' := not_isWs_of_lt (by decide)
  have hquote : ¬ IsWs quotationMark := not_isWs_of_lt (by decide)
  obtain ⟨r,t,hr,hv,-⟩ := h
  cases keywords with
  | nil =>
    rw [keywordsJson_nil] at hr
    rw [hr.eq_of_not_isWs hopen] at hv
    obtain ⟨rfl,-⟩ | ⟨w,ws,r',q,p,-,hr',hw,-⟩ := hv.inv_array
    · exact ⟨by simp,rfl⟩
    · rw [hr'.eq_of_not_isWs hclose] at hw
      exact absurd hw not_valueText_bracket
  | cons kw keywords =>
    rw [keywordsJson_cons] at hr
    rw [hr.eq_of_not_isWs hopen] at hv
    obtain ⟨-,r',hr',hp⟩ | ⟨w,ws,r',q,p,rfl,hr',hw,hws,hp⟩ := hv.inv_array
    · rw [quoted_ws hr',quoted_append] at hp
      exact absurd (hp.first hquote).1 (by decide)
    · rw [quoted_ws hr'] at hw
      obtain ⟨hplain,rfl,rfl⟩ := valueText_quoted_inv hw
      obtain ⟨hrest,rfl⟩ := elementsText_more_inv hws hp
      exact ⟨by simpa using ⟨hplain,hrest⟩,rfl⟩

theorem encodes_iff (keywords : List String) :
    Encodes (keywordsJson keywords) keywords ↔ ∀ kw ∈ keywords, Plain kw := by
  constructor
  · intro h
    exact (jsonText_keywords_inv h.accepted).1
  · intro hk
    exact ⟨jsonText_keywords hk,fun v hv => (jsonText_keywords_inv hv).2,
      fun ks hks => keywordArray_injective (jsonText_keywords_inv hks).2⟩

/-! ## Distinct lists -/

theorem escapeChar_append_inj {c d : Char} {x y : List Char}
    (h : escapeChar c ++ x = escapeChar d ++ y) : c = d ∧ x = y := by
  have hne : quotationMark ≠ reverseSolidus := by decide
  rw [escapeChar,escapeChar] at h
  split_ifs at h <;> grind

theorem quotationMark_ne_escape (d : Char) (x y : List Char) :
    quotationMark::x ≠ escapeChar d ++ y := by
  rw [escapeChar]
  split_ifs with hq hr
  · simp [quotationMark,reverseSolidus]
  · simp [quotationMark,reverseSolidus]
  · simp [Ne.symm hq]

/-- An escaped text ends at the first quotation mark that is not escaped. -/
theorem escape_append_inj {s s' x y : List Char}
    (h : s.flatMap escapeChar ++ quotationMark::x = s'.flatMap escapeChar ++ quotationMark::y) :
    s = s' ∧ x = y := by
  induction s generalizing s' with
  | nil =>
    cases s' with
    | nil => exact ⟨rfl,(List.cons.inj h).2⟩
    | cons d s' =>
      rw [List.flatMap_cons,List.append_assoc] at h
      exact absurd h (quotationMark_ne_escape d _ _)
  | cons c s ih =>
    rw [List.flatMap_cons,List.append_assoc] at h
    cases s' with
    | nil => exact absurd h.symm (quotationMark_ne_escape c _ _)
    | cons d s' =>
      rw [List.flatMap_cons,List.append_assoc] at h
      obtain ⟨rfl,hrest⟩ := escapeChar_append_inj h
      obtain ⟨rfl,rfl⟩ := ih hrest
      exact ⟨rfl,rfl⟩

theorem quoted_append_inj {kw kw' : String} {x y : List Char}
    (h : quoted kw ++ x = quoted kw' ++ y) : kw = kw' ∧ x = y := by
  rw [quoted_append,quoted_append] at h
  obtain ⟨hkw,hxy⟩ := escape_append_inj (List.cons.inj h).2
  exact ⟨String.toList_inj.mp hkw,hxy⟩

theorem moreElements_inj {ks ks' : List String}
    (h : moreElements ks ++ [']'] = moreElements ks' ++ [']']) : ks = ks' := by
  induction ks generalizing ks' with
  | nil =>
    cases ks' with
    | nil => rfl
    | cons kw' ks' =>
      rw [moreElements_cons] at h
      exact absurd (List.cons.inj h).1 (by decide)
  | cons kw ks ih =>
    rw [moreElements_cons] at h
    cases ks' with
    | nil => exact absurd (List.cons.inj h).1 (by decide)
    | cons kw' ks' =>
      rw [moreElements_cons] at h
      obtain ⟨rfl,hrest⟩ := quoted_append_inj (List.cons.inj h).2
      rw [ih hrest]

theorem keywordsJson_inj : Function.Injective keywordsJson := by
  intro ks ks' h
  have hlist := congrArg String.toList h
  cases ks with
  | nil =>
    cases ks' with
    | nil => rfl
    | cons kw' ks' =>
      rw [keywordsJson_nil,keywordsJson_cons,quoted_append] at hlist
      exact absurd (List.cons.inj (List.cons.inj hlist).2).1 (by decide)
  | cons kw ks =>
    rw [keywordsJson_cons] at hlist
    cases ks' with
    | nil =>
      rw [keywordsJson_nil,quoted_append] at hlist
      exact absurd (List.cons.inj (List.cons.inj hlist).2).1 (by decide)
    | cons kw' ks' =>
      rw [keywordsJson_cons] at hlist
      obtain ⟨rfl,hrest⟩ := quoted_append_inj (List.cons.inj hlist).2
      rw [moreElements_inj hrest]

/-- The encoder is correct exactly on keywords without control characters, which it does not
escape; distinct lists never share a document. -/
theorem keywordsJson_encodes_iff_plain (keywords : List String) :
    (Encodes (keywordsJson keywords) keywords ↔ ∀ kw ∈ keywords, Plain kw) ∧
      ∀ keywords', keywordsJson keywords' = keywordsJson keywords → keywords' = keywords :=
  ⟨encodes_iff keywords,fun _ h => keywordsJson_inj h⟩

/-- A keyword with a line feed comes out as no JSON document at all. -/
theorem not_jsonText_lineFeed : ¬ ∃ v, JsonText (keywordsJson ["scan\nimage"]).toList v := by
  rintro ⟨v,hv⟩
  have hplain := (jsonText_keywords_inv hv).1 "scan\nimage" (by simp)
  have hfeed := hplain '\n' (by decide)
  exact absurd hfeed (by decide)

/-- The tags of an object carry its keywords as JSON. -/
theorem objectTags_keywords (title docLlm docMd category : String) {keywords : List String}
    (hk : ∀ kw ∈ keywords, Plain kw) : ∃ doc,
      (objectTags title docLlm docMd keywords category).lookup "vgi.keywords" = some doc ∧
      Encodes doc keywords :=
  ⟨keywordsJson keywords,rfl,(encodes_iff keywords).mpr hk⟩

end Meta
end BarcodeWorker
