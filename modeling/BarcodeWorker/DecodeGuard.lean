import BarcodeWorker.ReferenceCrates

/-!
# The dimension guard of the decoder

`decodeLuma` has five ways to run. They are listed once, with the calls each makes; the bounds on
what is handed to the detector, and the exact blobs on which no pixel decode starts before a
successful probe, follow from the list.
-/

namespace BarcodeWorker
namespace Barcoding

/-- The bounds the guard enforces, with the product taken exactly. -/
structure InGuard (w h : UInt32) : Prop where
  width_pos : 0 < w
  width_le : w ≤ maxDimension
  height_pos : 0 < h
  height_le : h ≤ maxDimension
  pixels_le : w.toNat*h.toNat ≤ maxPixels.toNat

/-- The `u64` product of two `u32` values does not wrap. -/
theorem toNat_mul_toUInt64 (w h : UInt32) : (w.toUInt64*h.toUInt64).toNat = w.toNat*h.toNat := by
  have hw := w.toNat_lt
  have hh := h.toNat_lt
  have hp : w.toNat*h.toNat < 2^64 := by
    calc w.toNat*h.toNat ≤ (2^32-1)*(2^32-1) := Nat.mul_le_mul (by omega) (by omega)
      _ < 2^64 := by norm_num
  rw [UInt64.toNat_mul,UInt32.toNat_toUInt64,UInt32.toNat_toUInt64,Nat.mod_eq_of_lt hp]

theorem inGuard_iff_toNat (w h : UInt32) : InGuard w h ↔
    (0 < w.toNat ∧ w.toNat ≤ 20000) ∧ (0 < h.toNat ∧ h.toNat ≤ 20000) ∧
      w.toNat*h.toNat ≤ 100000000 :=
  ⟨fun ⟨a,b,c,d,e⟩ => ⟨⟨a,b⟩,⟨c,d⟩,e⟩,fun ⟨⟨a,b⟩,⟨c,d⟩,e⟩ => ⟨a,b,c,d,e⟩⟩

instance (w h : UInt32) : Decidable (InGuard w h) := decidable_of_iff _ (inGuard_iff_toNat w h).symm

theorem guardDimensions_eq_ok_iff (w h : UInt32) : guardDimensions w h = .ok () ↔ InGuard w h := by
  have hp := toNat_mul_toUInt64 w h
  have hw : w = 0 ↔ w.toNat = 0 := by rw [← UInt32.toNat_inj]; rfl
  have hh : h = 0 ↔ h.toNat = 0 := by rw [← UInt32.toNat_inj]; rfl
  have hd : maxDimension.toNat = 20000 := rfl
  have hm : maxPixels.toNat = 100000000 := rfl
  simp only [guardDimensions,hw,hh,gt_iff_lt,UInt32.lt_iff_toNat_lt,UInt64.lt_iff_toNat_lt,hp,
    hd,hm,inGuard_iff_toNat]
  split_ifs with h₁ h₂ h₃
  · simp only [false_iff]; omega
  · simp only [false_iff]; omega
  · simp only [false_iff]; omega
  · simp only [true_iff]; omega

theorem guardDimensions_cases (w h : UInt32) :
    InGuard w h ∧ guardDimensions w h = .ok () ∨
      ¬ InGuard w h ∧ ∃ e, guardDimensions w h = .error e := by
  cases hg : guardDimensions w h with
  | ok u => exact .inl ⟨(guardDimensions_eq_ok_iff w h).mp (by rw [hg]),rfl⟩
  | error e =>
    refine .inr ⟨fun hi => ?_,e,rfl⟩
    rw [(guardDimensions_eq_ok_iff w h).mpr hi] at hg
    cases hg

/-- What the last steps of `decodeLuma` return, from the pixel decode on. -/
def decodedLuma (image : ImageCrate) (reader : ImageReader) :
    Except BarcodeError (Bytes × UInt32 × UInt32) :=
  match image.decode reader with
  | .error e => .error (err s!"could not decode image: {e}")
  | .ok img =>
    match guardDimensions (image.width img) (image.height img) with
    | .error e => .error e
    | .ok () =>
      let luma := image.toLuma8 img
      .ok (luma.pixels.data,luma.width,luma.height)

/-- The guess of the container format recognises the blob. -/
def Recognised (image : ImageCrate) (blob : Bytes) (reader : ImageReader) : Prop :=
  blob ≠ [] ∧ image.withGuessedFormat (.new blob) = .ok reader ∧ reader.format.isSome

/-- A probe after which decoding goes on. -/
def ProbePasses (answer : Except String (UInt32 × UInt32)) : Prop :=
  ∀ w h, answer = .ok (w,h) → InGuard w h

section Runs
variable {image : ImageCrate} {blob : Bytes} {reader : ImageReader}

theorem decodeLuma_unrecognised (hr : ∀ reader, ¬ Recognised image blob reader) :
    ∃ e, decodeLuma image blob = ⟨.error e,[]⟩ ∨
      decodeLuma image blob = ⟨.error e,[.withGuessedFormat]⟩ := by
  by_cases hb : blob = []
  · subst hb
    exact ⟨_,.inl rfl⟩
  have he : blob.isEmpty = false := by simpa using hb
  cases hg : image.withGuessedFormat (.new blob) with
  | error e => exact ⟨_,.inr (by simp [decodeLuma,withGuessedFormat,he,hg]; rfl)⟩
  | ok reader =>
    have hn : reader.format = none := by
      have hs := fun h => hr reader ⟨hb,hg,h⟩
      simpa using hs
    exact ⟨_,.inr (by simp [decodeLuma,withGuessedFormat,he,hg,hn,Traced.fail]; rfl)⟩

/-- A probe outside the guard ends the run before any pixel is decoded. -/
theorem decodeLuma_rejected (hr : Recognised image blob reader) {w h : UInt32}
    (hp : image.intoDimensions reader = .ok (w,h)) (hg : ¬ InGuard w h) :
    ∃ e, decodeLuma image blob =
      ⟨.error e,[.withGuessedFormat,.intoDimensions (.ok (w,h))]⟩ := by
  obtain ⟨hb,hw,hs⟩ := hr
  have he : blob.isEmpty = false := by simpa using hb
  have hn : reader.format ≠ none := by simpa [Option.isSome_iff_ne_none] using hs
  obtain ⟨hi,-⟩ | ⟨-,e,heq⟩ := guardDimensions_cases w h
  · exact absurd hi hg
  · exact ⟨e,by simp [decodeLuma,withGuessedFormat,he,hw,hn,hp,guardProbe,heq,Traced.ofExcept]⟩

/-- Otherwise the pixel decode starts, whatever the probe answered. -/
theorem decodeLuma_decoding (hr : Recognised image blob reader)
    (hp : ProbePasses (image.intoDimensions reader)) :
    decodeLuma image blob = ⟨.ofExcept (decodedLuma image reader),[.withGuessedFormat,
      .intoDimensions (image.intoDimensions reader),.withGuessedFormat,.decode]⟩ := by
  obtain ⟨hb,hw,hs⟩ := hr
  have he : blob.isEmpty = false := by simpa using hb
  have hn : reader.format ≠ none := by simpa [Option.isSome_iff_ne_none] using hs
  have hguard : guardProbe (image.intoDimensions reader) = .ok () := by
    cases hd : image.intoDimensions reader with
    | error e => rfl
    | ok d => exact (guardDimensions_eq_ok_iff d.1 d.2).mpr (hp d.1 d.2 hd)
  have hprobe : ((Traced.call (.intoDimensions (image.intoDimensions reader))
      (image.intoDimensions reader)).attempt : Run BarcodeError _) =
      ⟨.ok (image.intoDimensions reader),[.intoDimensions (image.intoDimensions reader)]⟩ := by
    cases image.intoDimensions reader <;> rfl
  cases hd : image.decode reader with
  | error e =>
    simp [decodeLuma,withGuessedFormat,he,hw,hn,hprobe,hguard,hd,decodedLuma,Traced.ofExcept]
  | ok img =>
    obtain ⟨-,hi⟩ | ⟨-,e,hi⟩ := guardDimensions_cases (image.width img) (image.height img)
    · simp [decodeLuma,withGuessedFormat,he,hw,hn,hprobe,hguard,hd,hi,decodedLuma,Traced.ofExcept]
    · simp [decodeLuma,withGuessedFormat,he,hw,hn,hprobe,hguard,hd,hi,decodedLuma,Traced.ofExcept]

/-- Every run of `decodeLuma` is one of these three kinds. -/
theorem decodeLuma_runs (image : ImageCrate) (blob : Bytes) :
    (∃ e, decodeLuma image blob = ⟨.error e,[]⟩ ∨
        decodeLuma image blob = ⟨.error e,[.withGuessedFormat]⟩) ∨
      (∃ w h e, decodeLuma image blob =
        ⟨.error e,[.withGuessedFormat,.intoDimensions (.ok (w,h))]⟩) ∨
      ∃ reader, Recognised image blob reader ∧ ProbePasses (image.intoDimensions reader) ∧
        decodeLuma image blob = ⟨.ofExcept (decodedLuma image reader),[.withGuessedFormat,
          .intoDimensions (image.intoDimensions reader),.withGuessedFormat,.decode]⟩ := by
  by_cases hr : ∃ reader, Recognised image blob reader
  · obtain ⟨reader,hr⟩ := hr
    by_cases hp : ProbePasses (image.intoDimensions reader)
    · exact .inr (.inr ⟨reader,hr,hp,decodeLuma_decoding hr hp⟩)
    · simp only [ProbePasses,not_forall] at hp
      obtain ⟨w,h,hd,hg⟩ := hp
      exact .inr (.inl ⟨w,h,decodeLuma_rejected hr hd hg⟩)
  · exact .inl (decodeLuma_unrecognised fun reader hrec => hr ⟨reader,hrec⟩)

/-- Decoding returns: it never panics. -/
theorem decodeLuma_returns (image : ImageCrate) (blob : Bytes) :
    ∃ r, (decodeLuma image blob).outcome = .ofExcept r := by
  rcases decodeLuma_runs image blob with ⟨e,h | h⟩ | ⟨w,h,e,hd⟩ | ⟨reader,-,-,hd⟩
  · exact ⟨.error e,by rw [h]; rfl⟩
  · exact ⟨.error e,by rw [h]; rfl⟩
  · exact ⟨.error e,by rw [hd]; rfl⟩
  · exact ⟨_,by rw [hd]⟩

end Runs

/-- The buffer handed on is inside the guard and has one byte a pixel. -/
theorem decodedLuma_bounds {image : ImageCrate} (hl : image.Luma8Contract) {reader : ImageReader}
    {luma : Bytes} {w h : UInt32} (hd : decodedLuma image reader = .ok (luma,w,h)) :
    InGuard w h ∧ luma.length = w.toNat*h.toNat := by
  cases hi : image.decode reader with
  | error e => simp [decodedLuma,hi] at hd
  | ok img =>
    obtain ⟨hg,he⟩ | ⟨-,e,he⟩ := guardDimensions_cases (image.width img) (image.height img)
    · simp only [decodedLuma,hi,he,Except.ok.injEq,Prod.mk.injEq] at hd
      obtain ⟨rfl,rfl,rfl⟩ := hd
      have hlen := (image.toLuma8 img).pixels.length_data
      rw [← hl.width_toLuma8,← hl.height_toLuma8] at hg
      exact ⟨hg,hlen⟩
    · simp [decodedLuma,hi,he] at hd

theorem decodeLuma_bounds {image : ImageCrate} (hl : image.Luma8Contract) {blob luma : Bytes}
    {w h : UInt32} (hd : (decodeLuma image blob).outcome = .ok (luma,w,h)) :
    InGuard w h ∧ luma.length = w.toNat*h.toNat := by
  rcases decodeLuma_runs image blob with ⟨e,he | he⟩ | ⟨w',h',e,he⟩ | ⟨reader,-,-,he⟩
  · rw [he] at hd; cases hd
  · rw [he] at hd; cases hd
  · rw [he] at hd; cases hd
  · rw [he] at hd
    exact decodedLuma_bounds hl (by simpa using hd)

/-! ## The two detectors -/

/-- The result of the first detector, an exception of any kind being no barcode. -/
def firstOf : Except Exceptions RXingResult → Option Decoded
  | .ok r => some (toDecoded r)
  | .error _ => none

def allOf : Except Exceptions (List RXingResult) → List Decoded
  | .ok rs => rs.map toDecoded
  | .error _ => []

section Detectors
variable (crates : Crates) {blob luma : Bytes} {w h : UInt32}

theorem decodeFirst_of_ok (hd : (decodeLuma crates.image blob).outcome = .ok (luma,w,h)) :
    decodeFirst crates blob = ⟨.ok (firstOf (crates.rxing.detectInLuma luma w h)),
      (decodeLuma crates.image blob).trace ++ [.detectInLuma luma w h]⟩ := by
  rw [decodeFirst,Traced.bind_def,Traced.bind,hd]
  cases hr : crates.rxing.detectInLuma luma w h with
  | error e => cases e <;> simp [hr,firstOf]
  | ok r => simp [hr,firstOf]

theorem decodeAll_of_ok (hd : (decodeLuma crates.image blob).outcome = .ok (luma,w,h)) :
    decodeAll crates blob = ⟨.ok (allOf (crates.rxing.detectMultipleInLuma luma w h)),
      (decodeLuma crates.image blob).trace ++ [.detectMultipleInLuma luma w h]⟩ := by
  rw [decodeAll,Traced.bind_def,Traced.bind,hd]
  cases hr : crates.rxing.detectMultipleInLuma luma w h with
  | error e => cases e <;> simp [hr,allOf]
  | ok rs => simp [hr,allOf]

theorem decodeFirst_of_error {e : BarcodeError}
    (hd : (decodeLuma crates.image blob).outcome = .error e) :
    decodeFirst crates blob = ⟨.error e,(decodeLuma crates.image blob).trace⟩ := by
  rw [decodeFirst,Traced.bind_def,Traced.bind,hd]

theorem decodeAll_of_error {e : BarcodeError}
    (hd : (decodeLuma crates.image blob).outcome = .error e) :
    decodeAll crates blob = ⟨.error e,(decodeLuma crates.image blob).trace⟩ := by
  rw [decodeAll,Traced.bind_def,Traced.bind,hd]

end Detectors

/-! ## The guard fails closed exactly when the probe answers -/

def IsDecode : Call → Prop
  | .decode => True
  | _ => False

def ProbedInGuard : Call → Prop
  | .intoDimensions (.ok (w,h)) => InGuard w h
  | _ => False

def HandedInGuard : Call → Prop
  | .detectInLuma luma w h => InGuard w h ∧ luma.length = w.toNat*h.toNat
  | .detectMultipleInLuma luma w h => InGuard w h ∧ luma.length = w.toNat*h.toNat
  | _ => True

/-- No pixel is decoded before a probe inside the guard, and what is returned, and handed to a
detector, is inside the guard. -/
structure FailClosed (crates : Crates) (blob : Bytes) : Prop where
  luma : Guarded ProbedInGuard IsDecode (decodeLuma crates.image blob).trace
  first : Guarded ProbedInGuard IsDecode (decodeFirst crates blob).trace
  all : Guarded ProbedInGuard IsDecode (decodeAll crates blob).trace
  result : ∀ luma w h, (decodeLuma crates.image blob).outcome = .ok (luma,w,h) →
    InGuard w h ∧ luma.length = w.toNat*h.toNat
  handed : ∀ k ∈ (decodeFirst crates blob).trace ++ (decodeAll crates blob).trace, HandedInGuard k

/-- A recognised blob has a header that the probe can read. -/
def ProbeAnswers (image : ImageCrate) (blob : Bytes) : Prop :=
  ∀ reader, Recognised image blob reader → ∃ w h, image.intoDimensions reader = .ok (w,h)

theorem decodeLuma_guarded {image : ImageCrate} {blob : Bytes} (hp : ProbeAnswers image blob) :
    Guarded ProbedInGuard IsDecode (decodeLuma image blob).trace := by
  rcases decodeLuma_runs image blob with ⟨e,h | h⟩ | ⟨w,h,e,hd⟩ | ⟨reader,hr,hpass,hd⟩
  · rw [h]; exact guarded_of_forall_not (by simp)
  · rw [h]; exact guarded_of_forall_not (by simp [IsDecode])
  · rw [hd]; exact guarded_of_forall_not (by simp [IsDecode])
  · obtain ⟨w,h,hdim⟩ := hp reader hr
    have hprobe : Guarded ProbedInGuard IsDecode
        [Call.withGuessedFormat,.intoDimensions (.ok (w,h))] :=
      guarded_of_forall_not (by simp [IsDecode])
    have hg : ProbedInGuard (.intoDimensions (.ok (w,h))) := hpass w h hdim
    rw [hd,hdim]
    exact hprobe.append_of_mem (by simp) hg [.withGuessedFormat,.decode]

theorem not_decodeLuma_guarded {image : ImageCrate} {blob : Bytes} {reader : ImageReader}
    (hr : Recognised image blob reader) {e : String} (he : image.intoDimensions reader = .error e) :
    ¬ Guarded ProbedInGuard IsDecode (decodeLuma image blob).trace := by
  intro hg
  have hpass : ProbePasses (image.intoDimensions reader) := by
    intro w h hd
    rw [he] at hd
    cases hd
  rw [decodeLuma_decoding hr hpass,he] at hg
  obtain ⟨j,hj,hP⟩ := hg [.withGuessedFormat,.intoDimensions (.error e),.withGuessedFormat]
    .decode [] rfl trivial
  simp only [List.mem_cons,List.not_mem_nil,or_false] at hj
  rcases hj with rfl | rfl | rfl <;> exact hP

theorem decodeLuma_handed (image : ImageCrate) (blob : Bytes) :
    ∀ k ∈ (decodeLuma image blob).trace, HandedInGuard k := by
  rcases decodeLuma_runs image blob with ⟨e,h | h⟩ | ⟨w,h,e,hd⟩ | ⟨reader,hr,hpass,hd⟩
  · rw [h]; simp
  · rw [h]; simp [HandedInGuard]
  · rw [hd]; simp [HandedInGuard]
  · rw [hd]; simp [HandedInGuard]

/-- The decoder fails closed on a blob if and only if the header probe answers whenever the blob
is recognised. Where the probe fails, the pixel decode starts unguarded. -/
theorem failClosed_iff_probeAnswers (crates : Crates) (hl : crates.image.Luma8Contract)
    (blob : Bytes) : FailClosed crates blob ↔ ProbeAnswers crates.image blob := by
  constructor
  · intro hf reader hr
    cases hd : crates.image.intoDimensions reader with
    | error e => exact absurd hf.luma (not_decodeLuma_guarded hr hd)
    | ok d => exact ⟨d.1,d.2,rfl⟩
  · intro hp
    have hg := decodeLuma_guarded hp
    have hh := decodeLuma_handed crates.image blob
    have hres : ∀ luma w h, (decodeLuma crates.image blob).outcome = .ok (luma,w,h) →
        InGuard w h ∧ luma.length = w.toNat*h.toNat := fun _ _ _ hd => decodeLuma_bounds hl hd
    obtain ⟨r,hr⟩ := decodeLuma_returns crates.image blob
    cases r with
    | error e =>
      have hf := decodeFirst_of_error crates hr
      have ha := decodeAll_of_error crates hr
      exact ⟨hg,by rw [hf]; exact hg,by rw [ha]; exact hg,hres,by rw [hf,ha]; simpa using hh⟩
    | ok d =>
      obtain ⟨luma,w,h⟩ := d
      have hf := decodeFirst_of_ok crates hr
      have ha := decodeAll_of_ok crates hr
      have hb := decodeLuma_bounds hl hr
      have hfirst := hg.append (t := [.detectInLuma luma w h]) (by simp [IsDecode])
      have hall := hg.append (t := [.detectMultipleInLuma luma w h]) (by simp [IsDecode])
      refine ⟨hg,by rw [hf]; exact hfirst,by rw [ha]; exact hall,hres,?_⟩
      rw [hf,ha]
      simp only [List.mem_append,List.mem_singleton]
      rintro k ((hk | rfl) | (hk | rfl))
      · exact hh k hk
      · exact hb
      · exact hh k hk
      · exact hb

theorem failClosed_iff_probeAnswers_reference :
    FailClosed (Reference.crates Reference.hello) pngSignature ↔
      ProbeAnswers Reference.image pngSignature :=
  failClosed_iff_probeAnswers (Reference.crates Reference.hello) Reference.image_luma8 pngSignature

/-- A file that ends after the signature is recognised as PNG, its header cannot be read, and the
pixel decode is started all the same. -/
theorem not_failClosed_bare_signature : Reference.image.Luma8Contract ∧
    ¬ FailClosed (Reference.crates Reference.hello) pngSignature := by
  have hr : Recognised Reference.image pngSignature ⟨pngSignature,some .png⟩ :=
    ⟨by decide,rfl,rfl⟩
  have he : Reference.image.intoDimensions ⟨pngSignature,some .png⟩ =
      .error "unexpected end of file" := rfl
  exact ⟨Reference.image_luma8,fun hf => not_decodeLuma_guarded hr he hf.luma⟩

end Barcoding
end BarcodeWorker
