import OneOS.Graphics.PaintedPictures

/-!
# Scrolled pictures

A framebuffer is copied onto itself in the order of its points, row by row. When the place that is
drawn does not follow the one that is read, the rectangle arrives as it was. When it follows, what
arrives is what the rectangle becomes, so that its first rows or columns are repeated
(`copyWithin_eq`).

The rectangle arrives whole whatever is on the framebuffer exactly when its place does not follow,
or no point that is copied is drawn on before (`blitFramebuffer_self_iff`).
-/

set_option autoImplicit false
set_option relaxedAutoImplicit false

namespace OneOS.Graphics

open Foundation

/-- A shift to a later place, row by row. -/
def Follows (shift : Point) : Prop := 0 < shift.2 ∨ shift.2 = 0 ∧ 0 < shift.1

instance (shift : Point) : Decidable (Follows shift) :=
  inferInstanceAs (Decidable (0 < shift.2 ∨ shift.2 = 0 ∧ 0 < shift.1))

/-- The points of a rectangle that are copied: they are on the picture, and so are their places
after a shift. -/
def copiedPoints (width height : UInt32) (rect : Rect) (shift : Point) : Set Point :=
  { point | point ∈ rect.region ∧ isInside width height point = true ∧
    isInside width height (point + shift) = true }

variable {core : GraphicsCore} {fb : FrameBuffer} {id width height : UInt32}
  {shift first second : Point} {picture : Picture Point Color}

theorem follows_add (hfirst : Follows first) (hsecond : Follows second) :
    Follows (first + second) := by
  simp only [Follows, Prod.fst_add, Prod.snd_add] at *
  omega

theorem not_follows_neg (hshift : Follows shift) : ¬ Follows (-shift) := by
  simp only [Follows, Prod.fst_neg, Prod.snd_neg] at *
  omega

theorem follows_ne (hshift : Follows shift) : shift ≠ 0 := by
  rintro rfl
  simp [Follows] at hshift

theorem pairwise_rasterPoints (x y w h : ℤ) :
    (rasterPoints x y w h).Pairwise fun earlier later ↦ Follows (later - earlier) := by
  refine List.pairwise_flatMap.mpr ⟨fun j _ ↦ ?_, ?_⟩
  · rw [List.pairwise_map]
    refine List.pairwise_lt_range.imp fun {i i'} hless ↦ Or.inr ?_
    simp only [Prod.mk_sub_mk]
    omega
  · refine List.pairwise_lt_range.imp fun {j j'} hless point hpoint point' hpoint' ↦ Or.inl ?_
    obtain ⟨i, -, rfl⟩ := List.mem_map.mp hpoint
    obtain ⟨i', -, rfl⟩ := List.mem_map.mp hpoint'
    simp only [Prod.mk_sub_mk]
    omega

/-- What a rectangle becomes that is copied onto its own picture. -/
theorem copyWithin_eq (picture : Picture Point Color) (rect : Rect) (shift : Point) :
    copyWithin picture rect shift =
      paste picture (if Follows shift then copyWithin picture rect shift else picture) rect.region
        shift := by
  have horder := pairwise_rasterPoints rect.x rect.y rect.width rect.height
  rw [← setOf_mem_rasterPoints]
  split_ifs with hshift
  · refine foldl_copyDot_trail shift (horder.imp ?_) picture
    intro earlier later hlater hsame
    have hback : later - earlier = -shift := by
      rw [hsame]
      abel
    exact not_follows_neg hshift (hback ▸ hlater)
  · refine foldl_copyDot_self shift (horder.imp ?_) picture
    intro earlier later hlater hsame
    rw [← hsame, add_sub_cancel_left] at hlater
    exact hshift hlater

/-- A picture with a dot of one colour on a ground of another one. -/
def dotted (width height : UInt32) (place : Point) (ground colour : Color) :
    Picture Point Color := fun point ↦
  if isInside width height point then some (if point = place then colour else ground) else none

/-- Every memory can be made to show a dot on a ground. -/
theorem exists_dotted (hfb : fb.IsSound) (place : Point) (ground colour : Color) :
    ∃ pixels, pixels.length = fb.pixels.length ∧
      pictureOf fb.width fb.height pixels = dotted fb.width fb.height place ground colour := by
  obtain ⟨cleared, -, hcleared⟩ := clearPixels_shows hfb.memorySize_eq ⟨hfb.toIsMemory, rfl⟩
  obtain ⟨written, -, hwritten⟩ := @drawPoints_shows colour { fb with pixels := cleared } _
    hfb.pitch_eq hcleared [place] 0
  refine ⟨written, hwritten.length_eq.trans hfb.length_eq.symm, hwritten.shows.trans ?_⟩
  funext point
  simp only [fill, dotted, pictureOf, List.mem_singleton, Set.mem_ofPred_eq, Set.mem_univ, if_true]
  split_ifs <;> rfl

/-- A rectangle does not arrive whole when a point that is copied was drawn on before. -/
theorem copyWithin_dotted_ne {rect : Rect} {point : Point} {ground colour : Color}
    (hcolours : colour ≠ ground) (hshift : Follows shift)
    (hpoint : point ∈ copiedPoints width height rect shift)
    (hnext : point + shift ∈ copiedPoints width height rect shift) :
    copyWithin (dotted width height (point + shift) ground colour) rect shift ≠
      paste (dotted width height (point + shift) ground colour)
        (dotted width height (point + shift) ground colour) rect.region shift := by
  intro hwhole
  generalize hpicture : dotted width height (point + shift) ground colour = picture at hwhole
  have hinside : ∀ place, isInside width height place = true → (picture place).isSome = true := by
    intro place hplace
    rw [← hpicture, dotted, if_pos hplace]
    rfl
  -- the dot arrives as a dot when the rectangle arrives whole
  have hdot : copyWithin picture rect shift (point + shift + shift) = some colour := by
    obtain ⟨old, hold⟩ := Option.isSome_iff_exists.mp (hinside _ hnext.2.2)
    rw [hwhole, paste, add_sub_cancel_right, if_pos hnext.1, hold, Option.map_some, ← hpicture,
      dotted, if_pos hnext.2.1, if_pos rfl]
    rfl
  -- but what is read for it was drawn before, from the ground
  have hplain : ∀ c ∈ copyWithin picture rect shift point, c = ground := by
    refine @foldl_copyDot_plain _ _ _ _ _ { place | Follows (point + shift - place) }
      (fun place hplace ↦ ?_) (rasterPoints rect.x rect.y rect.width rect.height) _
      (fun place hplace c hc ↦ ?_) point ?_
    · have hsum := follows_add hplace hshift
      have hsame : point + shift - (place + shift) + shift = point + shift - place := by abel
      rwa [hsame] at hsum
    · rw [← hpicture, dotted] at hc
      split_ifs at hc with hin hat
      · rw [hat] at hplace
        exact absurd (sub_self (point + shift)) (follows_ne hplace)
      · exact (Option.some.inj hc).symm
      · exact absurd hc (Option.not_mem_none c)
    · change Follows (point + shift - point)
      rwa [add_sub_cancel_left]
  have hread : ∀ place, place ∈ rect.region → (picture (place + shift)).isSome = true →
      copyWithin picture rect shift place = some ground →
        copyWithin picture rect shift (place + shift) = some ground := by
    intro place hplace hsome hground
    obtain ⟨old, hold⟩ := Option.isSome_iff_exists.mp hsome
    rw [copyWithin_eq, if_pos hshift, paste, add_sub_cancel_right, if_pos hplace, hground, hold]
    rfl
  have hstart : (copyWithin picture rect shift point).isSome = true := by
    rw [copyWithin_eq, isSome_paste]
    exact hinside point hpoint.2.1
  obtain ⟨start, hstart⟩ := Option.isSome_iff_exists.mp hstart
  obtain rfl := hplain start hstart
  have harrives := hread _ hnext.1 (hinside _ hnext.2.2)
    (hread _ hpoint.1 (hinside _ hpoint.2.2) hstart)
  exact hcolours (Option.some.inj (hdot.symm.trans harrives))

/-- A rectangle arrives whole when no point that is copied was drawn on before. -/
theorem copyWithin_eq_paste {pixels : List UInt8} {rect : Rect}
    (happart : Follows shift → ∀ point ∈ copiedPoints width height rect shift,
      point + shift ∉ copiedPoints width height rect shift) :
    copyWithin (pictureOf width height pixels) rect shift =
      paste (pictureOf width height pixels) (pictureOf width height pixels) rect.region shift := by
  by_cases hshift : Follows shift
  · generalize hpicture : pictureOf width height pixels = picture
    have hinside : ∀ place, (picture place).isSome = isInside width height place := by
      intro place
      rw [← hpicture, isSome_pictureOf]
    have hfinal := copyWithin_eq picture rect shift
    rw [if_pos hshift] at hfinal
    have hsome : ∀ place,
        (copyWithin picture rect shift place).isSome = (picture place).isSome := by
      intro place
      rw [hfinal, isSome_paste]
    rw [hfinal]
    funext place
    rw [paste, paste]
    split_ifs with hregion
    · cases hold : picture place with
      | none => rfl
      | some old =>
        have hplace : isInside width height (place - shift + shift) = true := by
          rw [sub_add_cancel, ← hinside, hold]
          rfl
        have hkept : copyWithin picture rect shift (place - shift) = picture (place - shift) := by
          rw [hfinal, paste]
          split_ifs with hbefore
          · cases hmiddle : picture (place - shift) with
            | none => rfl
            | some middle =>
              have hmiddle' : isInside width height (place - shift) = true := by
                rw [← hinside, hmiddle]
                rfl
              have hout : isInside width height (place - shift - shift) ≠ true := by
                intro hin
                refine happart hshift (place - shift - shift) ⟨hbefore, hin, ?_⟩ ?_
                · rwa [sub_add_cancel]
                · rw [sub_add_cancel]
                  exact ⟨hregion, hmiddle', hplace⟩
              have hnone : copyWithin picture rect shift (place - shift - shift) = none := by
                rw [← Option.not_isSome_iff_eq_none, hsome, hinside]
                exact hout
              rw [hnone]
              rfl
          · rfl
        rw [hkept]
    · rfl
  · rw [copyWithin_eq, if_neg hshift]

/-- What the core becomes when a framebuffer has other bytes in its memory. -/
def GraphicsCore.withPixels (core : GraphicsCore) (id : UInt32) (pixels : List UInt8) :
    GraphicsCore :=
  core.onFramebuffer id fun fb ↦ { fb with pixels := pixels }

theorem pictureUnder_updateFirst {pictures : List (UInt32 × Picture Point Color)}
    {old : Picture Point Color} (hunder : pictureUnder pictures id = some old) :
    pictureUnder (updateFirst (fun sheet ↦ sheet.1 = id) (fun sheet ↦ (sheet.1, picture)) pictures)
      id = some picture := by
  obtain ⟨sheet, hsheet, -⟩ := Option.map_eq_some_iff.mp hunder
  rw [pictureUnder, @find?_key_updateFirst _ _ (fun sheet ↦ (sheet.1, picture)) _ Prod.fst
    _ _ id fun _ ↦ rfl, if_pos rfl, Option.map_map, hsheet]
  rfl

/-- What a framebuffer shows after it is copied onto itself. -/
theorem blitFramebuffer_self (hsound : core.IsSound)
    (hfind : graphicsGetFramebuffer core id = some fb) {pixels : List UInt8}
    (hlength : pixels.length = fb.pixels.length) (rect : Rect) (point : Point) :
    ∃ next, graphicsCall (core.withPixels id pixels) (.blitFramebuffer id rect id point) =
        some next ∧
      pictureUnder next.painter.sheets id =
        some (copyWithin (pictureOf fb.width fb.height pixels) rect
          (point - (rect.x, rect.y))) := by
  have hfb := hsound.frameBuffers fb (List.mem_of_find?_eq_some hfind)
  have hsound' : (core.withPixels id pixels).IsSound := by
    have hafter := (@afterDrawing_paints _ _ _ _ _ 0 hsound hfind
      ⟨hfb.toIsMemory.of_length hlength, rfl⟩).1
    exact ⟨hafter.frameBuffers, hafter.surfaces⟩
  have hfind' : graphicsGetFramebuffer (core.withPixels id pixels) id =
      some { fb with pixels := pixels } := by
    refine (@find?_key_updateFirst _ _ (fun fb ↦ { fb with pixels := pixels }) _
      FrameBuffer.frameBufferId _ _ id (fun _ ↦ rfl)).trans ?_
    rw [if_pos rfl]
    exact congrArg (Option.map _) hfind
  obtain ⟨next, hcall, -, hpainter⟩ := blitFramebuffer_paints hsound' id rect point
  refine ⟨next, hcall, ?_⟩
  have hunder := @pictureUnder_sheets (core.withPixels id pixels) id
  rw [hfind'] at hunder
  rw [hpainter, paint, hunder]
  simp only [Option.map_some, Painter.onSheet, hunder, if_true]
  exact pictureUnder_updateFirst hunder

/-- A framebuffer is copied onto itself: the rectangle arrives as it was, whatever is on the
framebuffer, exactly when its place does not follow, or no point that is copied is drawn on before.
Coordinates are integers: a sum that leaves 32 bits is outside of the framebuffer, as is the
negative number that it becomes where it wraps around. -/
theorem blitFramebuffer_self_iff (hsound : core.IsSound)
    (hfind : graphicsGetFramebuffer core id = some fb) (rect : Rect) (point : Point) :
    (∀ pixels, pixels.length = fb.pixels.length →
      ∃ next, graphicsCall (core.withPixels id pixels) (.blitFramebuffer id rect id point) =
          some next ∧
        pictureUnder next.painter.sheets id =
          some (paste (pictureOf fb.width fb.height pixels) (pictureOf fb.width fb.height pixels)
            rect.region (point - (rect.x, rect.y)))) ↔
      (Follows (point - (rect.x, rect.y)) →
        ∀ place ∈ copiedPoints fb.width fb.height rect (point - (rect.x, rect.y)),
          place + (point - (rect.x, rect.y)) ∉
            copiedPoints fb.width fb.height rect (point - (rect.x, rect.y))) := by
  have hfb := hsound.frameBuffers fb (List.mem_of_find?_eq_some hfind)
  constructor
  · intro hwhole hfollows place hplace hnext
    obtain ⟨pixels, hlength, hdotted⟩ := exists_dotted hfb (place + (point - (rect.x, rect.y)))
      ⟨0, 0, 0, 0⟩ ⟨1, 1, 1, 1⟩
    obtain ⟨next, hcall, hpasted⟩ := hwhole pixels hlength
    obtain ⟨next', hcall', hcopied⟩ := blitFramebuffer_self hsound hfind hlength rect point
    obtain rfl := Option.some.inj (hcall.symm.trans hcall')
    have hsame := Option.some.inj (hcopied.symm.trans hpasted)
    rw [hdotted] at hsame
    exact copyWithin_dotted_ne (by decide) hfollows hplace hnext hsame
  · intro happart pixels hlength
    rw [← copyWithin_eq_paste happart]
    exact blitFramebuffer_self hsound hfind hlength rect point

/-- A column of three points is scrolled down by one: the second point is drawn on before it is
copied. -/
theorem blitFramebuffer_self_iff_example :
    ∃ core fb, core.IsSound ∧ graphicsGetFramebuffer core 1 = some fb ∧
      ¬ ∀ pixels, pixels.length = fb.pixels.length →
        ∃ next, graphicsCall (core.withPixels 1 pixels) (.blitFramebuffer 1 ⟨0, 0, 1, 2⟩ 1 (0, 1)) =
            some next ∧
          pictureUnder next.painter.sheets 1 =
            some (paste (pictureOf fb.width fb.height pixels) (pictureOf fb.width fb.height pixels)
              (Rect.region ⟨0, 0, 1, 2⟩) ((0, 1) - (0, 0))) := by
  have hsound := (@createFramebuffer_paints graphicsInit 1 3 .rgba32
    ⟨List.forall_mem_nil _, List.forall_mem_nil _⟩ ⟨by decide, by decide⟩ true).1
  refine ⟨_, _, hsound, rfl, fun hwhole ↦ ?_⟩
  have happart := (blitFramebuffer_self_iff hsound rfl ⟨0, 0, 1, 2⟩ (0, 1)).mp hwhole
  refine happart (by decide) (0, 0) ⟨?_, by decide, by decide⟩ ⟨?_, by decide, by decide⟩
  · exact ⟨by decide, by decide⟩
  · exact ⟨by decide, by decide⟩

end OneOS.Graphics
