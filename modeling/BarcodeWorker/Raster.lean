import Mathlib.Data.List.FinRange
import Mathlib.Tactic

/-!
# Row-major rasters

A raster of width `w` and height `h` is one buffer of exactly `w*h` cells, row after row. A nested
loop over rows and columns that writes every cell once leaves each cell with its own value,
whatever the buffer held before.
-/

namespace BarcodeWorker

structure Raster (α : Type) (w h : ℕ) where
  data : List α
  length_data : data.length = w*h

namespace Raster

variable {α : Type} {w h : ℕ}

theorem index_lt (x : Fin w) (y : Fin h) : y.val*w+x.val < w*h := by
  have hx := x.isLt
  have hy : (y.val+1)*w ≤ h*w := Nat.mul_le_mul_right w y.isLt
  nlinarith

theorem index_injective {x x' : Fin w} {y y' : Fin h}
    (he : y.val*w+x.val = y'.val*w+x'.val) : x = x' ∧ y = y' := by
  have hw : 0 < w := x.pos
  have hm := congrArg (· % w) he
  have hd := congrArg (· / w) he
  simp only [Nat.mul_comm _ w,Nat.mul_add_mod,Nat.mod_eq_of_lt x.isLt,
    Nat.mod_eq_of_lt x'.isLt] at hm
  simp only [Nat.mul_comm _ w,Nat.mul_add_div hw,Nat.div_eq_of_lt x.isLt,
    Nat.div_eq_of_lt x'.isLt,Nat.add_zero] at hd
  exact ⟨Fin.ext hm,Fin.ext hd⟩

/-- A raster whose cells all hold `a`. -/
def new (w h : ℕ) (a : α) : Raster α w h := ⟨List.replicate (w*h) a,by simp⟩

def get (r : Raster α w h) (x : Fin w) (y : Fin h) : α :=
  r.data.get ⟨y.val*w+x.val,by rw [r.length_data]; exact index_lt x y⟩

def put (r : Raster α w h) (x : Fin w) (y : Fin h) (a : α) : Raster α w h :=
  ⟨r.data.set (y.val*w+x.val) a,by simp [r.length_data]⟩

theorem get_put (r : Raster α w h) (x x' : Fin w) (y y' : Fin h) (a : α) :
    (r.put x y a).get x' y' = if x' = x ∧ y' = y then a else r.get x' y' := by
  simp only [get,put,List.get_eq_getElem,List.getElem_set]
  by_cases he : y.val*w+x.val = y'.val*w+x'.val
  · obtain ⟨hx,hy⟩ := index_injective he
    simp [hx,hy]
  · rw [if_neg he,if_neg]
    rintro ⟨rfl,rfl⟩
    exact he rfl

/-- Write `f x y` at every cell of a list of cells, one after the other. -/
def putAll (f : Fin w → Fin h → α) (ps : List (Fin w × Fin h)) (r : Raster α w h) :
    Raster α w h :=
  ps.foldl (fun r p => r.put p.1 p.2 (f p.1 p.2)) r

theorem get_putAll (f : Fin w → Fin h → α) (ps : List (Fin w × Fin h)) (r : Raster α w h)
    (x : Fin w) (y : Fin h) :
    (putAll f ps r).get x y = if (x,y) ∈ ps then f x y else r.get x y := by
  induction ps generalizing r with
  | nil => simp [putAll]
  | cons p ps ih =>
    rw [putAll,List.foldl_cons,← putAll,ih,get_put]
    by_cases hp : x = p.1 ∧ y = p.2
    · obtain ⟨rfl,rfl⟩ := hp
      simp
    · have hne : (x,y) ≠ p := fun he => hp ⟨congrArg Prod.fst he,congrArg Prod.snd he⟩
      simp [hp,hne]

/-- The nested loop `for y in 0..h { for x in 0..w { put(x,y,f(x,y)) } }`. -/
def paint (f : Fin w → Fin h → α) (r : Raster α w h) : Raster α w h :=
  (List.finRange h).foldl
    (fun r y => (List.finRange w).foldl (fun r x => r.put x y (f x y)) r) r

theorem paint_eq_putAll (f : Fin w → Fin h → α) (r : Raster α w h) :
    paint f r = putAll f ((List.finRange h).flatMap fun y => (List.finRange w).map (·,y)) r := by
  simp [paint,putAll,List.foldl_flatMap,List.foldl_map]

@[simp] theorem get_paint (f : Fin w → Fin h → α) (r : Raster α w h) (x : Fin w) (y : Fin h) :
    (paint f r).get x y = f x y := by
  rw [paint_eq_putAll,get_putAll,if_pos]
  simp

/-- Cell `(x,y)` is byte `y*w+x` of the buffer. -/
theorem data_getElem? (r : Raster α w h) (x : Fin w) (y : Fin h) :
    r.data[y.val*w+x.val]? = some (r.get x y) := by
  rw [get,List.get_eq_getElem,List.getElem?_eq_getElem]

theorem exists_get_of_mem {r : Raster α w h} {a : α} (ha : a ∈ r.data) :
    ∃ x y, r.get x y = a := by
  obtain ⟨i,hi,rfl⟩ := List.mem_iff_getElem.mp ha
  have hlt : i < w*h := by rw [← r.length_data]; exact hi
  have hw : 0 < w := by
    by_contra hw
    have hz : w = 0 := by omega
    simp [hz] at hlt
  have hmod := Nat.mod_lt i hw
  have hdiv : i/w < h := Nat.div_lt_of_lt_mul hlt
  have hi' : i/w*w+i%w = i := Nat.div_add_mod' i w
  exact ⟨⟨i%w,hmod⟩,⟨i/w,hdiv⟩,by simp only [get,List.get_eq_getElem,hi']⟩

end Raster
end BarcodeWorker
