import Mathlib.Data.List.Basic
import Mathlib.Data.List.Perm.Basic
import Mathlib.Logic.Function.Basic

/-!
# Interleavings

A system takes labelled steps, and a label belongs to a resource or to none. Where steps of
different resources commute, a run is determined by the order of its labels on each resource: any
two lists of the same labels with the same order on every resource have the same runs.

Where a step looks at nothing but the part of the state that its resource has, parties that share
no resource do not notice each other: labels make a run if and only if those of each party do.
-/

namespace BarcodeWorker

/-- A run with its labels. -/
inductive Runs {S E : Type} (Step : S → E → S → Prop) : S → List E → S → Prop
  | nil (s : S) : Runs Step s [] s
  | cons {s s' s'' : S} {e : E} {es : List E} (first : Step s e s') (rest : Runs Step s' es s'') :
    Runs Step s (e::es) s''

/-- Labels may carry more than the steps look at. -/
theorem runs_map_iff {S E F : Type} {Step : S → E → S → Prop} {f : F → E} {s t : S} {fs : List F} :
    Runs Step s (fs.map f) t ↔ Runs (fun s e t => Step s (f e) t) s fs t := by
  induction fs generalizing s with
  | nil =>
    constructor
    · rintro ⟨⟩
      exact .nil _
    · rintro ⟨⟩
      exact .nil _
  | cons e fs ih =>
    constructor
    · rintro (_ | ⟨first,rest⟩)
      exact .cons first (ih.mp rest)
    · rintro (_ | ⟨first,rest⟩)
      exact .cons first (ih.mpr rest)

section Order
variable {E F κ : Type} (key : E → Option κ)

/-- The labels have no resource in common. -/
def Independent (e e' : E) : Prop := ∀ k, key e = some k → key e' ≠ some k

theorem Independent.symm {e e' : E} (h : Independent key e e') : Independent key e' e :=
  fun k hk' hk => h k hk hk'

variable [DecidableEq κ]

/-- The labels of one resource, in order. -/
def onKey (k : κ) (es : List E) : List E := es.filter fun e => key e = some k

/-- The same labels, in the same order on each resource. -/
structure SameOrder (es es' : List E) : Prop where
  perm : es.Perm es'
  order : ∀ k, onKey key k es = onKey key k es'

theorem onKey_append (k : κ) (es es' : List E) :
    onKey key k (es ++ es') = onKey key k es ++ onKey key k es' := List.filter_append ..

variable {key}

/-- Labels that are independent of `e` leave it the first of its resource. -/
theorem onKey_insert {e : E} {k : κ} (hk : key e = some k) {before after : List E}
    (hind : ∀ e' ∈ before, Independent key e' e) :
    onKey key k (before ++ e::after) = e :: onKey key k (before ++ after) := by
  have hnone : onKey key k before = [] := by
    apply List.filter_eq_nil_iff.mpr
    intro e' he' hk'
    exact hind e' he' k (of_decide_eq_true hk') hk
  rw [onKey_append,onKey_append,hnone,List.nil_append,List.nil_append,onKey,
    List.filter_cons_of_pos (by simpa using hk),onKey]

theorem onKey_insert_of_ne {e : E} {k : κ} (hk : key e ≠ some k) (before after : List E) :
    onKey key k (before ++ e::after) = onKey key k (before ++ after) := by
  rw [onKey_append,onKey_append]
  congr 1
  exact List.filter_cons_of_neg (by simpa using hk)

/-- A first label may stand behind any labels that are independent of it. -/
theorem sameOrder_cons_iff {e : E} {es before after : List E}
    (hind : ∀ e' ∈ before, Independent key e' e) :
    SameOrder key (e::es) (before ++ e::after) ↔ SameOrder key es (before ++ after) := by
  have hhead : ∀ k, key e = some k → onKey key k (e::es) = e :: onKey key k es :=
    fun k hk => List.filter_cons_of_pos (by simpa using hk)
  have hskip : ∀ k, key e ≠ some k → onKey key k (e::es) = onKey key k es :=
    fun k hk => List.filter_cons_of_neg (by simpa using hk)
  constructor
  · rintro ⟨hperm,horder⟩
    refine ⟨(hperm.trans List.perm_middle).cons_inv,fun k => ?_⟩
    have hk := horder k
    by_cases he : key e = some k
    · rw [hhead k he,onKey_insert he hind] at hk
      exact (List.cons.inj hk).2
    · rwa [hskip k he,onKey_insert_of_ne he] at hk
  · rintro ⟨hperm,horder⟩
    refine ⟨(hperm.cons e).trans List.perm_middle.symm,fun k => ?_⟩
    by_cases he : key e = some k
    · rw [hhead k he,onKey_insert he hind,horder k]
    · rw [hskip k he,onKey_insert_of_ne he,horder k]

/-- The first label of one list stands in the other behind independent labels only. -/
theorem SameOrder.exists_split {e : E} {es es' : List E} (h : SameOrder key (e::es) es') :
    ∃ before after, es' = before ++ e::after ∧ (∀ e' ∈ before, Independent key e' e) ∧
      SameOrder key es (before ++ after) := by
  have hsplit : ∃ before after, es' = before ++ e::after ∧
      ∀ e' ∈ before, Independent key e' e := by
    cases hk : key e with
    | none =>
      obtain ⟨before,after,hes⟩ := List.append_of_mem (h.perm.mem_iff.mp List.mem_cons_self)
      exact ⟨before,after,hes,fun e' _ k _ hk' => by simp [hk] at hk'⟩
    | some k =>
      have hfirst : onKey key k es' = e :: onKey key k es := by
        rw [← h.order k]
        exact List.filter_cons_of_pos (by simpa using hk)
      obtain ⟨before,after,hes,hbefore,-,-⟩ := List.filter_eq_cons_iff.mp hfirst
      refine ⟨before,after,hes,fun e' he' k' hk' hek => ?_⟩
      obtain rfl : k = k' := Option.some.inj (hk.symm.trans hek)
      exact hbefore e' he' (by simpa using hk')
  obtain ⟨before,after,rfl,hind⟩ := hsplit
  exact ⟨before,after,rfl,hind,(sameOrder_cons_iff hind).mp h⟩

/-- What labels carry along is put in order with them. -/
theorem SameOrder.exists_map {f : F → E} {es : List F} {es' : List E}
    (h : SameOrder key (es.map f) es') :
    ∃ fs, fs.map f = es' ∧ SameOrder (key ∘ f) es fs := by
  induction es generalizing es' with
  | nil =>
    have hnil : es' = [] := List.nil_perm.mp h.perm
    exact ⟨[],hnil.symm,.refl _,fun _ => rfl⟩
  | cons e es ih =>
    rw [List.map_cons] at h
    obtain ⟨before,after,rfl,hind,hrest⟩ := h.exists_split
    obtain ⟨fs,hmap,hfs⟩ := ih hrest
    obtain ⟨fs₁,fs₂,rfl,rfl,rfl⟩ := List.map_eq_append_iff.mp hmap
    refine ⟨fs₁ ++ e::fs₂,by simp,(sameOrder_cons_iff fun e' he' => ?_).mpr hfs⟩
    exact hind (f e') (List.mem_map_of_mem he')

end Order

section Commute
variable {S E κ : Type} {Step : S → E → S → Prop} {key : E → Option κ}

/-- Steps of independent labels can be taken the other way round. -/
def Commutes (key : E → Option κ) (Step : S → E → S → Prop) : Prop :=
  ∀ s s' s'' e e', Independent key e e' → Step s e s' → Step s' e' s'' →
    ∃ t, Step s e' t ∧ Step t e s''

/-- A first step can wait for all steps that are independent of it. -/
theorem Runs.postpone (hc : Commutes key Step) {e : E} {before after : List E} {s t : S}
    (hind : ∀ e' ∈ before, Independent key e' e) (h : Runs Step s (e :: (before ++ after)) t) :
    Runs Step s (before ++ e::after) t := by
  induction before generalizing s with
  | nil => exact h
  | cons e' before ih =>
    cases h with
    | cons hfirst hrest =>
      cases hrest with
      | cons hsecond hrest =>
        obtain ⟨u,hu,hut⟩ := hc _ _ _ e e' (hind e' List.mem_cons_self).symm hfirst hsecond
        exact .cons hu (ih (fun e'' he'' => hind e'' (List.mem_cons_of_mem e' he'')) (.cons hut hrest))

/-- The order on each resource determines the runs. -/
theorem Runs.of_sameOrder [DecidableEq κ] (hc : Commutes key Step) {es es' : List E} {s t : S}
    (hsame : SameOrder key es es') (h : Runs Step s es t) : Runs Step s es' t := by
  induction es generalizing s es' with
  | nil =>
    have hnil : es' = [] := List.nil_perm.mp hsame.perm
    rwa [hnil]
  | cons e es ih =>
    obtain ⟨before,after,rfl,hind,hrest⟩ := hsame.exists_split
    cases h with
    | cons hfirst h => exact Runs.postpone hc hind (.cons hfirst (ih hrest h))

/-- Where a step is determined by a part of its label, a run is by that part of its labels. -/
theorem Runs.unique {F : Type} {part : E → F}
    (hdet : ∀ s e e' t t', part e = part e' → Step s e t → Step s e' t' → e = e' ∧ t = t')
    {es es' : List E} {s t t' : S} (h : Runs Step s es t) (h' : Runs Step s es' t')
    (hpart : es.map part = es'.map part) : es = es' ∧ t = t' := by
  induction h generalizing es' with
  | nil s =>
    have hnil : es' = [] := List.map_eq_nil_iff.mp hpart.symm
    subst hnil
    cases h'
    exact ⟨rfl,rfl⟩
  | cons first _ ih =>
    cases h' with
    | nil => cases hpart
    | cons first' rest' =>
      obtain ⟨hhead,htail⟩ := List.cons.inj hpart
      obtain ⟨rfl,rfl⟩ := hdet _ _ _ _ _ hhead first first'
      obtain ⟨rfl,rfl⟩ := ih rest' htail
      exact ⟨rfl,rfl⟩

end Commute

section Local
variable {E κ σ : Type} [DecidableEq κ] {key : E → Option κ} {Step : (κ → σ) → E → (κ → σ) → Prop}

/-- A step looks at the part of its resource and changes that part alone. -/
structure Local (key : E → Option κ) (Step : (κ → σ) → E → (κ → σ) → Prop) : Prop where
  of_none : ∀ s s' e, Step s e s' → key e = none → s' = s ∧ ∀ t, Step t e t
  of_some : ∀ s s' e k, Step s e s' → key e = some k →
    ∃ v, s' = Function.update s k v ∧ ∀ t : κ → σ, t k = s k → Step t e (Function.update t k v)

/-- No two parties use the same resource. -/
def Unshared {ι : Type} (key : E → Option κ) (party : E → ι) (es : List E) : Prop :=
  ∀ e ∈ es, ∀ e' ∈ es, ∀ k, key e = some k → key e' = some k → party e = party e'

namespace Local

theorem commutes (hl : Local key Step) : Commutes key Step := by
  intro s s' s'' a b hind ha hb
  cases hka : key a with
  | none =>
    obtain ⟨rfl,hany⟩ := hl.of_none _ _ _ ha hka
    exact ⟨s'',hb,hany s''⟩
  | some k =>
    obtain ⟨v,rfl,hanyA⟩ := hl.of_some _ _ _ _ ha hka
    cases hkb : key b with
    | none =>
      obtain ⟨rfl,hany⟩ := hl.of_none _ _ _ hb hkb
      exact ⟨s,hany s,ha⟩
    | some k' =>
      have hne : k' ≠ k := by
        rintro rfl
        exact hind k' hka hkb
      obtain ⟨w,rfl,hanyB⟩ := hl.of_some _ _ _ _ hb hkb
      have hstay : s k' = Function.update s k v k' := (Function.update_of_ne hne v s).symm
      refine ⟨Function.update s k' w,hanyB s hstay,?_⟩
      rw [Function.update_comm (Ne.symm hne)]
      exact hanyA (Function.update s k' w) (Function.update_of_ne (Ne.symm hne) w s)

theorem unchanged (hl : Local key Step) {s s' : κ → σ} {e : E} (h : Step s e s') {k : κ}
    (hk : key e ≠ some k) : s' k = s k := by
  cases he : key e with
  | none => rw [(hl.of_none s s' e h he).1]
  | some k' =>
    obtain ⟨v,rfl,-⟩ := hl.of_some s s' e k' h he
    have hne : k ≠ k' := fun hkk => hk (by rw [he,hkk])
    exact Function.update_of_ne hne v s

/-- A step can be taken in any state that agrees with its own on its resource. States that agreed
on a resource agree on it afterwards. -/
theorem step_of_agree (hl : Local key Step) {s s' t : κ → σ} {e : E} (h : Step s e s')
    (hagree : ∀ k, key e = some k → t k = s k) :
    ∃ t', Step t e t' ∧ ∀ k, t k = s k → t' k = s' k := by
  cases he : key e with
  | none =>
    obtain ⟨rfl,hany⟩ := hl.of_none s s' e h he
    exact ⟨t,hany t,fun k hk => hk⟩
  | some k =>
    obtain ⟨v,rfl,hany⟩ := hl.of_some s s' e k h he
    refine ⟨Function.update t k v,hany t (hagree k he),fun k' hk' => ?_⟩
    by_cases hkk : k' = k
    · subst hkk
      rw [Function.update_self,Function.update_self]
    · rw [Function.update_of_ne hkk,Function.update_of_ne hkk,hk']

/-- The labels of a party run by themselves, in any state that agrees on the resources of the party,
and take these to where the whole run takes them. -/
theorem runs_filter (hl : Local key Step) {mine : κ → Prop} {own : E → Prop} [DecidablePred own]
    {es : List E} {s t u : κ → σ} (hown : ∀ e ∈ es, ∀ k, key e = some k → (own e ↔ mine k))
    (hagree : ∀ k, mine k → u k = s k) (h : Runs Step s es t) :
    ∃ u', Runs Step u (es.filter own) u' ∧ ∀ k, mine k → u' k = t k := by
  induction h generalizing u with
  | nil s => exact ⟨u,.nil u,hagree⟩
  | @cons s s' _ e es first _ ih =>
    have hrest : ∀ e' ∈ es, ∀ k, key e' = some k → (own e' ↔ mine k) :=
      fun e' he' => hown e' (List.mem_cons_of_mem e he')
    by_cases he : own e
    · have hres : ∀ k, key e = some k → u k = s k :=
        fun k hk => hagree k ((hown e List.mem_cons_self k hk).mp he)
      obtain ⟨u',hu,hu'⟩ := hl.step_of_agree first hres
      obtain ⟨t',ht,ht'⟩ := ih hrest fun k hk => hu' k (hagree k hk)
      refine ⟨t',?_,ht'⟩
      rw [List.filter_cons_of_pos (by simpa using he)]
      exact .cons hu ht
    · have hres : ∀ k, mine k → u k = s' k := by
        intro k hk
        rw [hagree k hk,hl.unchanged first]
        exact fun hek => he ((hown e List.mem_cons_self k hek).mpr hk)
      rw [List.filter_cons_of_neg (by simpa using he)]
      exact ih hrest hres

variable {ι : Type} [DecidableEq ι] {party : E → ι}

/-- The run of a party by itself takes its resources to where the run of all takes them. -/
theorem runs_party (hl : Local key Step) {es : List E} (hes : Unshared key party es) {s t : κ → σ}
    (h : Runs Step s es t) (i : ι) :
    ∃ t', Runs Step s (es.filter fun e => party e = i) t' ∧
      ∀ e ∈ es, party e = i → ∀ k, key e = some k → t' k = t k := by
  have hown : ∀ e ∈ es, ∀ k, key e = some k →
      (party e = i ↔ ∃ e' ∈ es, party e' = i ∧ key e' = some k) := by
    intro e he k hk
    constructor
    · intro hi
      exact ⟨e,he,hi,hk⟩
    · rintro ⟨e',he',hi,hk'⟩
      rw [hes e he e' he' k hk hk',hi]
  obtain ⟨t',ht,hagree⟩ := hl.runs_filter hown (fun _ _ => rfl) h
  exact ⟨t',ht,fun e he hi k hk => hagree k ⟨e,he,hi,hk⟩⟩

/-- Runs of all parties by themselves make a run of all. -/
theorem runs_of_parties (hl : Local key Step) {es : List E} (hes : Unshared key party es)
    {s : κ → σ} (h : ∀ i, ∃ t, Runs Step s (es.filter fun e => party e = i) t) :
    ∃ t, Runs Step s es t := by
  induction es generalizing s with
  | nil => exact ⟨s,.nil s⟩
  | cons e es ih =>
    obtain ⟨t,ht⟩ := h (party e)
    rw [List.filter_cons_of_pos (by simp)] at ht
    cases ht with
    | @cons _ s' _ _ _ first hrest =>
      have hes' : Unshared key party es := fun e₁ h₁ e₂ h₂ =>
        hes e₁ (List.mem_cons_of_mem e h₁) e₂ (List.mem_cons_of_mem e h₂)
      obtain ⟨u,hu⟩ := ih hes' (s := s') fun i => by
        by_cases hi : party e = i
        · subst hi
          exact ⟨t,hrest⟩
        · obtain ⟨t',ht'⟩ := h i
          rw [List.filter_cons_of_neg (by simpa using hi)] at ht'
          have hown : ∀ e' ∈ es.filter (fun e' => party e' = i), ∀ k, key e' = some k →
              (True ↔ key e ≠ some k) := by
            intro e' he' k hk
            obtain ⟨hmem,hpi⟩ := List.mem_filter.mp he'
            refine iff_of_true trivial fun hek => hi ?_
            rw [hes e List.mem_cons_self e' (List.mem_cons_of_mem e hmem) k hek hk]
            exact of_decide_eq_true hpi
          obtain ⟨u,hu,-⟩ := hl.runs_filter hown (fun k hk => hl.unchanged first hk) ht'
          exact ⟨u,by simpa using hu⟩
      exact ⟨u,.cons first hu⟩

end Local
end Local
end BarcodeWorker
