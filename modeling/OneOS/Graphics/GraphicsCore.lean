import OneOS.Foundation.Table
import Mathlib.Algebra.Group.Prod
import Mathlib.Data.Int.Order.Basic

/-!
# The graphics core

`ui-system/graphics_core.c`: framebuffers and surfaces, and what draws on them. The rows of a table
are numbered from its count, and destroying a row shifts those behind it down, so an id may be given
twice: every call works on the first row that has it.

A pixel is written as four bytes, whatever the format is. Its place in the memory is computed in 32
bits, and neither the place nor the last three bytes are compared with the size of the memory: a
write behind its end is the end of the program (`none`). Coordinates are integers. In the source
they are `int32_t`, and the language leaves open what a sum or a product does that does not fit:
what is said of runs assumes that none does in a call (`GraphicsCall.InInt32`). The memory is
granted or refused by the allocator, which is told apart by an argument.

Left out are `graphics_draw_line`, which steps in floating point, the refresh rate, and the blend
mode, colour key and parent of a surface, which nothing reads.
-/

set_option autoImplicit false
set_option relaxedAutoImplicit false

namespace OneOS.Graphics

open Foundation

/-! ### Data -/

/-- `MAX_FRAME_BUFFERS`. -/
def maxFrameBuffers : ℕ := 16

/-- `MAX_SURFACE_OBJECTS`. -/
def maxSurfaceObjects : ℕ := 512

/-- `PixelFormat`. -/
inductive PixelFormat
  | rgb24
  | rgba32
  | bgra32
  | rgb565
  | grayscale
  deriving DecidableEq, Repr

/-- `Color`. -/
structure Color where
  r : UInt8
  g : UInt8
  b : UInt8
  a : UInt8
  deriving DecidableEq, Repr

/-- `Point`, with `x` before `y`. -/
abbrev Point := ℤ × ℤ

/-- `Rect`. -/
structure Rect where
  x : ℤ
  y : ℤ
  width : ℤ
  height : ℤ
  deriving DecidableEq, Repr

/-- `FrameBuffer`. -/
structure FrameBuffer where
  frameBufferId : UInt32
  width : UInt32
  height : UInt32
  format : PixelFormat
  pitch : UInt32
  pixels : List UInt8
  memorySize : UInt64
  isActive : Bool
  vsyncCount : UInt32
  deriving DecidableEq, Repr

/-- `Surface`. -/
structure Surface where
  surfaceId : UInt32
  width : UInt32
  height : UInt32
  format : PixelFormat
  pixels : List UInt8
  deriving DecidableEq, Repr

/-- `GraphicsCore`, with the used rows of its tables as lists. -/
structure GraphicsCore where
  frameBuffers : List FrameBuffer
  activeFbId : UInt32
  surfaces : List Surface
  totalPixelsDrawn : UInt32
  totalOperations : UInt32
  deriving DecidableEq, Repr

/-- `graphics_init`. -/
def graphicsInit : GraphicsCore where
  frameBuffers := []
  activeFbId := 0
  surfaces := []
  totalPixelsDrawn := 0
  totalOperations := 0

/-! ### Tables -/

/-- The bytes of a pixel, as far as the size of the memory goes. -/
def PixelFormat.pixelSize (format : PixelFormat) : UInt32 :=
  if format = .rgb24 then 3 else 4

/-- `graphics_get_framebuffer`. -/
def graphicsGetFramebuffer (core : GraphicsCore) (fbId : UInt32) : Option FrameBuffer :=
  core.frameBuffers.find? fun fb ↦ fb.frameBufferId = fbId

/-- `graphics_get_surface`. -/
def graphicsGetSurface (core : GraphicsCore) (surfaceId : UInt32) : Option Surface :=
  core.surfaces.find? fun surface ↦ surface.surfaceId = surfaceId

/-- The framebuffer that `graphics_create_framebuffer` adds. -/
def newFramebuffer (fbId width height : UInt32) (format : PixelFormat) : FrameBuffer where
  frameBufferId := fbId
  width := width
  height := height
  format := format
  pitch := width * format.pixelSize
  pixels := List.replicate ((width * format.pixelSize).toUInt64 * height.toUInt64).toNat 0
  memorySize := (width * format.pixelSize).toUInt64 * height.toUInt64
  isActive := false
  vsyncCount := 0

/-- `graphics_create_framebuffer`, returning the id or 0. -/
def graphicsCreateFramebuffer (core : GraphicsCore) (width height : UInt32) (format : PixelFormat)
    (granted : Bool) : GraphicsCore × UInt32 :=
  if maxFrameBuffers ≤ core.frameBuffers.length then (core, 0)
  else if width = 0 || height = 0 then (core, 0)
  else if granted then
    ({ core with
      frameBuffers := core.frameBuffers ++
        [newFramebuffer (UInt32.ofNat core.frameBuffers.length + 1) width height format] },
      UInt32.ofNat core.frameBuffers.length + 1)
  else (core, 0)

/-- `graphics_destroy_framebuffer`. -/
def graphicsDestroyFramebuffer (core : GraphicsCore) (fbId : UInt32) : GraphicsCore × Int :=
  if core.frameBuffers.any fun fb ↦ fb.frameBufferId = fbId then
    ({ core with
      activeFbId := if core.activeFbId = fbId then 0 else core.activeFbId
      frameBuffers := core.frameBuffers.eraseP fun fb ↦ fb.frameBufferId = fbId }, 0)
  else (core, -1)

/-- A change of the first framebuffer with an id. -/
def GraphicsCore.onFramebuffer (core : GraphicsCore) (fbId : UInt32)
    (change : FrameBuffer → FrameBuffer) : GraphicsCore :=
  { core with
    frameBuffers := updateFirst (fun fb ↦ fb.frameBufferId = fbId) change core.frameBuffers }

/-- `graphics_set_active_framebuffer`. -/
def graphicsSetActiveFramebuffer (core : GraphicsCore) (fbId : UInt32) : GraphicsCore × Int :=
  match graphicsGetFramebuffer core fbId with
  | none => (core, -1)
  | some _ =>
    ({ core.onFramebuffer fbId fun fb ↦ { fb with isActive := true } with activeFbId := fbId }, 0)

/-- The surface that `graphics_create_surface` adds. -/
def newSurface (surfaceId width height : UInt32) (format : PixelFormat) : Surface where
  surfaceId := surfaceId
  width := width
  height := height
  format := format
  pixels := List.replicate (width * height * format.pixelSize).toNat 0

/-- `graphics_create_surface`, returning the id or 0. -/
def graphicsCreateSurface (core : GraphicsCore) (width height : UInt32) (format : PixelFormat)
    (granted : Bool) : GraphicsCore × UInt32 :=
  if maxSurfaceObjects ≤ core.surfaces.length then (core, 0)
  else if width = 0 || height = 0 then (core, 0)
  else if granted then
    ({ core with
      surfaces := core.surfaces ++
        [newSurface (UInt32.ofNat core.surfaces.length + 1) width height format] },
      UInt32.ofNat core.surfaces.length + 1)
  else (core, 0)

/-- `graphics_destroy_surface`. -/
def graphicsDestroySurface (core : GraphicsCore) (surfaceId : UInt32) : GraphicsCore × Int :=
  if core.surfaces.any fun surface ↦ surface.surfaceId = surfaceId then
    ({ core with
      surfaces := core.surfaces.eraseP fun surface ↦ surface.surfaceId = surfaceId }, 0)
  else (core, -1)

/-! ### Pixels -/

/-- A byte written into the memory of a framebuffer. -/
def storeByte (pixels : List UInt8) (address : UInt32) (byte : UInt8) : Option (List UInt8) :=
  if address.toNat < pixels.length then some (pixels.set address.toNat byte) else none

/-- The four writes that set a pixel, at addresses of 32 bits. -/
def storeColor (pixels : List UInt8) (offset : UInt32) (color : Color) : Option (List UInt8) := do
  let pixels ← storeByte pixels offset color.r
  let pixels ← storeByte pixels (offset + 1) color.g
  let pixels ← storeByte pixels (offset + 2) color.b
  storeByte pixels (offset + 3) color.a

/-- The `memcpy` of four bytes. -/
def copyPixel (source pixels : List UInt8) (srcOffset dstOffset : UInt32) : Option (List UInt8) :=
  if srcOffset.toNat + 4 ≤ source.length ∧ dstOffset.toNat + 4 ≤ pixels.length then
    some (pixels.take dstOffset.toNat ++ (source.drop srcOffset.toNat).take 4 ++
      pixels.drop (dstOffset.toNat + 4))
  else none

/-- The test for a point, with the width and height taken as signed numbers. -/
def isInside (width height : UInt32) (point : Point) : Bool :=
  0 ≤ point.1 && point.1 < width.toInt32.toInt && 0 ≤ point.2 && point.2 < height.toInt32.toInt

/-- The place of a point in the memory of a framebuffer. -/
def FrameBuffer.offset (fb : FrameBuffer) (point : Point) : UInt32 :=
  UInt32.ofInt point.2 * fb.pitch + UInt32.ofInt point.1 * 4

/-- The place of a point in the memory of a surface. -/
def Surface.offset (surface : Surface) (point : Point) : UInt32 :=
  (UInt32.ofInt point.2 * surface.width + UInt32.ofInt point.1) * 4

/-- The points of a rectangle in the order of two nested loops, row by row. -/
def rasterPoints (x y width height : ℤ) : List Point :=
  (List.range height.toNat).flatMap fun (j : ℕ) ↦
    (List.range width.toNat).map fun (i : ℕ) ↦ (x + i, y + j)

/-! ### Drawing -/

/-- `graphics_clear_framebuffer` behind its checks: the loop from `i` on, for as many passes as are
granted. The index has 32 bits, and after 2³⁰ passes it is at 0 again: the loop has no end. -/
def clearPixels (memorySize : UInt64) (color : Color) :
    ℕ → UInt32 → List UInt8 → Option (List UInt8)
  | 0, i, pixels => if i.toUInt64 < memorySize then none else some pixels
  | passes + 1, i, pixels =>
    if i.toUInt64 < memorySize then
      (storeColor pixels i color).bind fun pixels ↦
        clearPixels memorySize color passes (i + 4) pixels
    else some pixels

/-- The end of a call that has drawn on a framebuffer. -/
def GraphicsCore.afterDrawing (core : GraphicsCore) (fbId : UInt32) (pixels : List UInt8)
    (pixelsDrawn : UInt32) : GraphicsCore × Int :=
  ({ core.onFramebuffer fbId fun fb ↦ { fb with pixels := pixels } with
    totalPixelsDrawn := pixelsDrawn
    totalOperations := core.totalOperations + 1 }, 0)

/-- `graphics_clear_framebuffer`. -/
def graphicsClearFramebuffer (core : GraphicsCore) (fbId : UInt32) (color : Color) :
    Option (GraphicsCore × Int) :=
  match graphicsGetFramebuffer core fbId with
  | none => some (core, -1)
  | some fb =>
    (clearPixels fb.memorySize color (2 ^ 30) 0 fb.pixels).map fun pixels ↦
      core.afterDrawing fbId pixels core.totalPixelsDrawn

/-- A pixel drawn in the body of a loop, with the count of the pixels drawn. -/
def FrameBuffer.drawPoint (fb : FrameBuffer) (color : Color) (drawn : List UInt8 × UInt32)
    (point : Point) : Option (List UInt8 × UInt32) :=
  if isInside fb.width fb.height point then
    (storeColor drawn.1 (fb.offset point) color).map fun pixels ↦ (pixels, drawn.2 + 1)
  else some drawn

/-- The loops that draw points in one colour, with the checks before them. -/
def GraphicsCore.drawPoints (core : GraphicsCore) (fbId : UInt32) (points : List Point)
    (color : Color) : Option (GraphicsCore × Int) :=
  match graphicsGetFramebuffer core fbId with
  | none => some (core, -1)
  | some fb =>
    (points.foldlM (fb.drawPoint color) (fb.pixels, core.totalPixelsDrawn)).map fun drawn ↦
      core.afterDrawing fbId drawn.1 drawn.2

/-- `graphics_fill_rect`, where the sums for the last row and the last column fit. -/
def graphicsFillRect (core : GraphicsCore) (fbId : UInt32) (rect : Rect) (color : Color) :
    Option (GraphicsCore × Int) :=
  core.drawPoints fbId (rasterPoints rect.x rect.y rect.width rect.height) color

/-- The points around a centre that pass a test, row by row, where the squares of the distances and
the sums with the centre fit. -/
def circlePoints (center : Point) (radius : ℤ) (test : Point → Bool) : List Point :=
  ((rasterPoints (-radius) (-radius) (2 * radius + 1) (2 * radius + 1)).filter test).map fun point ↦
    center + point

/-- `graphics_draw_circle`. -/
def graphicsDrawCircle (core : GraphicsCore) (fbId : UInt32) (center : Point) (radius : ℤ)
    (color : Color) : Option (GraphicsCore × Int) :=
  if radius ≤ 0 then some (core, -1)
  else
    core.drawPoints fbId (circlePoints center radius fun point ↦
      radius * radius - radius ≤ point.1 * point.1 + point.2 * point.2 &&
        point.1 * point.1 + point.2 * point.2 ≤ radius * radius + radius) color

/-- `graphics_fill_circle`. -/
def graphicsFillCircle (core : GraphicsCore) (fbId : UInt32) (center : Point) (radius : ℤ)
    (color : Color) : Option (GraphicsCore × Int) :=
  if radius ≤ 0 then some (core, -1)
  else
    core.drawPoints fbId (circlePoints center radius fun point ↦
      point.1 * point.1 + point.2 * point.2 ≤ radius * radius) color

/-! ### Copying -/

/-- A pixel copied in the body of a loop. The bytes are read by `source` from the memory as the loop
has left it so far. -/
def copyPoint (source : List UInt8 → List UInt8) (srcInside dstInside : Point → Bool)
    (srcOffset dstOffset : Point → UInt32) (srcPoint dstPoint : Point)
    (drawn : List UInt8 × UInt32) (point : Point) : Option (List UInt8 × UInt32) :=
  if srcInside (srcPoint + point) && dstInside (dstPoint + point) then
    (copyPixel (source drawn.1) drawn.1 (srcOffset (srcPoint + point))
      (dstOffset (dstPoint + point))).map fun pixels ↦ (pixels, drawn.2 + 1)
  else some drawn

/-- `graphics_blit_surface`. -/
def graphicsBlitSurface (core : GraphicsCore) (srcSurfaceId : UInt32) (srcRect : Rect)
    (dstFbId : UInt32) (dstPoint : Point) : Option (GraphicsCore × Int) :=
  match graphicsGetSurface core srcSurfaceId, graphicsGetFramebuffer core dstFbId with
  | some src, some dst =>
    ((rasterPoints 0 0 srcRect.width srcRect.height).foldlM
      (copyPoint (fun _ ↦ src.pixels) (isInside src.width src.height)
        (isInside dst.width dst.height) src.offset dst.offset (srcRect.x, srcRect.y) dstPoint)
      (dst.pixels, core.totalPixelsDrawn)).map fun drawn ↦
        core.afterDrawing dstFbId drawn.1 drawn.2
  | _, _ => some (core, -1)

/-- `graphics_blit_framebuffer`. A framebuffer may be copied onto itself: it is then read as the
loop has left it so far. -/
def graphicsBlitFramebuffer (core : GraphicsCore) (srcFbId : UInt32) (srcRect : Rect)
    (dstFbId : UInt32) (dstPoint : Point) : Option (GraphicsCore × Int) :=
  match graphicsGetFramebuffer core srcFbId, graphicsGetFramebuffer core dstFbId with
  | some src, some dst =>
    ((rasterPoints 0 0 srcRect.width srcRect.height).foldlM
      (copyPoint (fun pixels ↦ if srcFbId = dstFbId then pixels else src.pixels)
        (isInside src.width src.height) (isInside dst.width dst.height) src.offset dst.offset
        (srcRect.x, srcRect.y) dstPoint)
      (dst.pixels, core.totalPixelsDrawn)).map fun drawn ↦
        core.afterDrawing dstFbId drawn.1 drawn.2
  | _, _ => some (core, -1)

/-! ### Showing -/

/-- `graphics_present`. -/
def graphicsPresent (core : GraphicsCore) : GraphicsCore × Int :=
  ({ core with totalOperations := core.totalOperations + 1 }, 0)

/-- `graphics_vsync_wait`. -/
def graphicsVsyncWait (core : GraphicsCore) : GraphicsCore × Int :=
  (core.onFramebuffer core.activeFbId fun fb ↦ { fb with vsyncCount := fb.vsyncCount + 1 }, 0)

/-! ### Runs -/

/-- The calls. -/
inductive GraphicsCall
  | createFramebuffer (width height : UInt32) (format : PixelFormat) (granted : Bool)
  | destroyFramebuffer (fbId : UInt32)
  | setActiveFramebuffer (fbId : UInt32)
  | createSurface (width height : UInt32) (format : PixelFormat) (granted : Bool)
  | destroySurface (surfaceId : UInt32)
  | clearFramebuffer (fbId : UInt32) (color : Color)
  | fillRect (fbId : UInt32) (rect : Rect) (color : Color)
  | drawCircle (fbId : UInt32) (center : Point) (radius : ℤ) (color : Color)
  | fillCircle (fbId : UInt32) (center : Point) (radius : ℤ) (color : Color)
  | blitSurface (srcSurfaceId : UInt32) (srcRect : Rect) (dstFbId : UInt32) (dstPoint : Point)
  | blitFramebuffer (srcFbId : UInt32) (srcRect : Rect) (dstFbId : UInt32) (dstPoint : Point)
  | present
  | vsyncWait
  deriving DecidableEq, Repr

/-! ### Signed numbers of 32 bits -/

/-- An `int32_t` holds the number. -/
def FitsInt32 (n : ℤ) : Prop :=
  -2 ^ 31 ≤ n ∧ n < 2 ^ 31

instance (n : ℤ) : Decidable (FitsInt32 n) :=
  inferInstanceAs (Decidable (_ ∧ _))

/-- The numbers of a point are `int32_t`. -/
def PointInInt32 (point : Point) : Prop :=
  FitsInt32 point.1 ∧ FitsInt32 point.2

instance (point : Point) : Decidable (PointInInt32 point) :=
  inferInstanceAs (Decidable (_ ∧ _))

/-- The numbers of a rectangle are `int32_t`. -/
def Rect.InInt32 (rect : Rect) : Prop :=
  PointInInt32 (rect.x, rect.y) ∧ FitsInt32 rect.width ∧ FitsInt32 rect.height

instance (rect : Rect) : Decidable rect.InInt32 :=
  inferInstanceAs (Decidable (_ ∧ _))

/-- What is computed around a centre fits: the bounds of the squared distance, and for every point
of the square that is searched its squared distance and its sum with the centre. -/
def CircleInInt32 (center : Point) (radius : ℤ) : Prop :=
  FitsInt32 (radius * radius - radius) ∧ FitsInt32 (radius * radius + radius) ∧
    ∀ point ∈ rasterPoints (-radius) (-radius) (2 * radius + 1) (2 * radius + 1),
      FitsInt32 (point.1 * point.1 + point.2 * point.2) ∧ PointInInt32 (center + point)

instance (center : Point) (radius : ℤ) : Decidable (CircleInInt32 center radius) :=
  inferInstanceAs (Decidable (_ ∧ _ ∧ ∀ point ∈ _, _))

/-- What is computed for the points that are copied fits: their sums with the corner they are copied
from and with the point they are copied to. -/
def CopyInInt32 (rect : Rect) (dstPoint : Point) : Prop :=
  ∀ point ∈ rasterPoints 0 0 rect.width rect.height,
    PointInInt32 ((rect.x, rect.y) + point) ∧ PointInInt32 (dstPoint + point)

instance (rect : Rect) (dstPoint : Point) : Decidable (CopyInInt32 rect dstPoint) :=
  inferInstanceAs (Decidable (∀ point ∈ _, _))

/-- The signed numbers of a call have 32 bits, and so has every signed number that it computes. On a
framebuffer that it creates, the first byte of every column has a number of 32 bits with its
sign. -/
def GraphicsCall.InInt32 : GraphicsCall → Prop
  | .createFramebuffer width _ _ _ => FitsInt32 ((width.toNat - 1) * 4)
  | .fillRect _ rect _ => rect.InInt32 ∧ FitsInt32 (rect.y + rect.height) ∧
    (0 < rect.height → FitsInt32 (rect.x + rect.width))
  | .drawCircle _ center radius _ => PointInInt32 center ∧ FitsInt32 radius ∧
    (0 < radius → CircleInInt32 center radius)
  | .fillCircle _ center radius _ => PointInInt32 center ∧ FitsInt32 radius ∧
    (0 < radius → CircleInInt32 center radius)
  | .blitSurface _ srcRect _ dstPoint =>
    srcRect.InInt32 ∧ PointInInt32 dstPoint ∧ CopyInInt32 srcRect dstPoint
  | .blitFramebuffer _ srcRect _ dstPoint =>
    srcRect.InInt32 ∧ PointInInt32 dstPoint ∧ CopyInInt32 srcRect dstPoint
  | _ => True

instance : (call : GraphicsCall) → Decidable call.InInt32
  | .createFramebuffer _ _ _ _ => inferInstanceAs (Decidable (FitsInt32 _))
  | .fillRect _ _ _ => inferInstanceAs (Decidable (_ ∧ _ ∧ (_ → _)))
  | .drawCircle _ _ _ _ => inferInstanceAs (Decidable (_ ∧ _ ∧ (_ → _)))
  | .fillCircle _ _ _ _ => inferInstanceAs (Decidable (_ ∧ _ ∧ (_ → _)))
  | .blitSurface _ _ _ _ => inferInstanceAs (Decidable (_ ∧ _ ∧ _))
  | .blitFramebuffer _ _ _ _ => inferInstanceAs (Decidable (_ ∧ _ ∧ _))
  | .destroyFramebuffer _ | .setActiveFramebuffer _ | .createSurface _ _ _ _ | .destroySurface _
  | .clearFramebuffer _ _ | .present | .vsyncWait => inferInstanceAs (Decidable True)

/-- One call, and what it leaves. -/
def graphicsCall (core : GraphicsCore) : GraphicsCall → Option GraphicsCore
  | .createFramebuffer width height format granted =>
    some (graphicsCreateFramebuffer core width height format granted).1
  | .destroyFramebuffer fbId => some (graphicsDestroyFramebuffer core fbId).1
  | .setActiveFramebuffer fbId => some (graphicsSetActiveFramebuffer core fbId).1
  | .createSurface width height format granted =>
    some (graphicsCreateSurface core width height format granted).1
  | .destroySurface surfaceId => some (graphicsDestroySurface core surfaceId).1
  | .clearFramebuffer fbId color => (graphicsClearFramebuffer core fbId color).map Prod.fst
  | .fillRect fbId rect color => (graphicsFillRect core fbId rect color).map Prod.fst
  | .drawCircle fbId center radius color =>
    (graphicsDrawCircle core fbId center radius color).map Prod.fst
  | .fillCircle fbId center radius color =>
    (graphicsFillCircle core fbId center radius color).map Prod.fst
  | .blitSurface srcSurfaceId srcRect dstFbId dstPoint =>
    (graphicsBlitSurface core srcSurfaceId srcRect dstFbId dstPoint).map Prod.fst
  | .blitFramebuffer srcFbId srcRect dstFbId dstPoint =>
    (graphicsBlitFramebuffer core srcFbId srcRect dstFbId dstPoint).map Prod.fst
  | .present => some (graphicsPresent core).1
  | .vsyncWait => some (graphicsVsyncWait core).1

end OneOS.Graphics
