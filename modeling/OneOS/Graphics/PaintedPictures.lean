import OneOS.Foundation.Counters
import OneOS.Graphics.PixelMemory
import Mathlib.Algebra.Order.Ring.Abs
import Mathlib.Data.Set.Card
import Mathlib.Tactic.Linarith

/-!
# Painted pictures

What a program that draws on framebuffers sees: pictures under their ids (`Painter`), and calls that
fill regions of the plane and paste pieces of pictures (`paint`), without memory and loops.

When every memory that is created has four bytes for each pixel, and fewer than 2³² of them, every
run of calls goes on to its end, and what it leaves is what the painter leaves
(`graphicsRun_paints`). No call draws on a surface: what is copied from one is always blank.
-/

set_option autoImplicit false
set_option relaxedAutoImplicit false

namespace OneOS.Graphics

open Foundation

/-! ### The painter -/

/-- The points of a rectangle. -/
def Rect.region (rect : Rect) : Set Point :=
  { point | (rect.x ≤ point.1 ∧ point.1 < rect.x + rect.width) ∧
    rect.y ≤ point.2 ∧ point.2 < rect.y + rect.height }

/-- The points around a centre whose distance squared lies between two bounds. -/
def annulus (center : Point) (least most : ℤ) : Set Point :=
  { point | least ≤ (point.1 - center.1) ^ 2 + (point.2 - center.2) ^ 2 ∧
    (point.1 - center.1) ^ 2 + (point.2 - center.2) ^ 2 ≤ most }

open Classical in
/-- A picture of a width and a height that nothing was drawn on. -/
noncomputable def blankPicture (width height : UInt32) : Picture Point Color := fun point ↦
  if (0 ≤ point.1 ∧ point.1 < width.toNat) ∧ 0 ≤ point.2 ∧ point.2 < height.toNat then
    some ⟨0, 0, 0, 0⟩
  else none

/-- The number of points of a region that pass a test. -/
noncomputable def area (region : Set Point) (test : Point → Bool) : ℕ :=
  Set.ncard { point | point ∈ region ∧ test point = true }

/-- The sheets and blanks under their ids, and the counts. -/
structure Painter where
  sheets : List (UInt32 × Picture Point Color)
  blanks : List (UInt32 × Picture Point Color)
  active : UInt32
  drawn : UInt32
  operations : UInt32

/-- A painter without sheets. -/
def Painter.start : Painter where
  sheets := []
  blanks := []
  active := 0
  drawn := 0
  operations := 0

/-- The picture under an id. -/
def pictureUnder (pictures : List (UInt32 × Picture Point Color)) (id : UInt32) :
    Option (Picture Point Color) :=
  (pictures.find? fun picture ↦ picture.1 = id).map Prod.snd

/-- A change of the first sheet with an id, with the number of points that are drawn. -/
def Painter.onSheet (painter : Painter) (id : UInt32)
    (change : Picture Point Color → Picture Point Color) (count : Picture Point Color → ℕ) :
    Painter :=
  match pictureUnder painter.sheets id with
  | none => painter
  | some picture =>
    { painter with
      sheets := updateFirst (fun sheet ↦ sheet.1 = id) (fun sheet ↦ (sheet.1, change picture))
        painter.sheets
      drawn := painter.drawn + UInt32.ofNat (count picture)
      operations := painter.operations + 1 }

/-- A region of a sheet filled with a colour. -/
noncomputable def Painter.fillRegion (painter : Painter) (id : UInt32) (region : Set Point)
    (color : Color) : Painter :=
  painter.onSheet id (fun picture ↦ fill picture region color)
    fun picture ↦ area region fun point ↦ (picture point).isSome

/-- The number of points that are copied: those on both pictures. -/
noncomputable def copiedArea (source picture : Picture Point Color) (region : Set Point)
    (shift : Point) : ℕ :=
  area region fun point ↦ (source point).isSome && (picture (point + shift)).isSome

/-- A rectangle of a picture copied onto the picture itself, point by point. -/
noncomputable def copyWithin (picture : Picture Point Color) (rect : Rect) (shift : Point) :
    Picture Point Color :=
  (rasterPoints rect.x rect.y rect.width rect.height).foldl
    (fun drawn point ↦ copyDot shift drawn drawn point) picture

/-- What a call does for the painter. -/
noncomputable def paint (painter : Painter) : GraphicsCall → Painter
  | .createFramebuffer width height _ granted =>
    if painter.sheets.length < maxFrameBuffers ∧ width ≠ 0 ∧ height ≠ 0 ∧ granted = true then
      { painter with
        sheets := painter.sheets ++
          [(UInt32.ofNat painter.sheets.length + 1, blankPicture width height)] }
    else painter
  | .destroyFramebuffer id =>
    if (pictureUnder painter.sheets id).isSome then
      { painter with
        sheets := painter.sheets.eraseP fun sheet ↦ sheet.1 = id
        active := if painter.active = id then 0 else painter.active }
    else painter
  | .setActiveFramebuffer id =>
    if (pictureUnder painter.sheets id).isSome then { painter with active := id } else painter
  | .createSurface width height _ granted =>
    if painter.blanks.length < maxSurfaceObjects ∧ width ≠ 0 ∧ height ≠ 0 ∧ granted = true then
      { painter with
        blanks := painter.blanks ++
          [(UInt32.ofNat painter.blanks.length + 1, blankPicture width height)] }
    else painter
  | .destroySurface id =>
    { painter with blanks := painter.blanks.eraseP fun blank ↦ blank.1 = id }
  | .clearFramebuffer id color =>
    painter.onSheet id (fun picture ↦ fill picture Set.univ color) fun _ ↦ 0
  | .fillRect id rect color => painter.fillRegion id rect.region color
  | .drawCircle id center radius color =>
    if radius ≤ 0 then painter
    else painter.fillRegion id (annulus center (radius ^ 2 - radius) (radius ^ 2 + radius)) color
  | .fillCircle id center radius color =>
    if radius ≤ 0 then painter
    else painter.fillRegion id (annulus center 0 (radius ^ 2)) color
  | .blitSurface blankId rect id point =>
    match pictureUnder painter.blanks blankId with
    | none => painter
    | some blank =>
      painter.onSheet id
        (fun picture ↦ paste picture blank rect.region (point - (rect.x, rect.y)))
        fun picture ↦ copiedArea blank picture rect.region (point - (rect.x, rect.y))
  | .blitFramebuffer sheetId rect id point =>
    match pictureUnder painter.sheets sheetId with
    | none => painter
    | some sheet =>
      painter.onSheet id
        (fun picture ↦
          if sheetId = id then copyWithin picture rect (point - (rect.x, rect.y))
          else paste picture sheet rect.region (point - (rect.x, rect.y)))
        fun picture ↦ copiedArea sheet picture rect.region (point - (rect.x, rect.y))
  | .present => { painter with operations := painter.operations + 1 }
  | .vsyncWait => painter

/-! ### Regions -/

variable {core : GraphicsCore} {width height id : UInt32} {point shift : Point}
  {picture : Picture Point Color}

theorem mem_rasterPoints {x y w h : ℤ} :
    point ∈ rasterPoints x y w h ↔
      (x ≤ point.1 ∧ point.1 < x + w) ∧ y ≤ point.2 ∧ point.2 < y + h := by
  obtain ⟨a, b⟩ := point
  simp only [rasterPoints, List.mem_flatMap, List.mem_map, List.mem_range, Prod.mk.injEq]
  constructor
  · rintro ⟨j, hj, i, hi, rfl, rfl⟩
    omega
  · rintro ⟨⟨hleft, hright⟩, htop, hbottom⟩
    exact ⟨(b - y).toNat, by omega, (a - x).toNat, by omega, by omega, by omega⟩

theorem nodup_rasterPoints (x y w h : ℤ) : (rasterPoints x y w h).Nodup := by
  refine List.nodup_flatMap.mpr ⟨fun j _ ↦ List.nodup_range.map fun i i' hsame ↦ ?_, ?_⟩
  · have hcolumn := congrArg Prod.fst hsame
    simpa using hcolumn
  · refine List.nodup_range.imp fun hne point hmem hmem' ↦ ?_
    obtain ⟨i, -, rfl⟩ := List.mem_map.mp hmem
    obtain ⟨i', -, hsame⟩ := List.mem_map.mp hmem'
    have hrow := congrArg Prod.snd hsame
    exact hne (by simpa using hrow.symm)

theorem map_add_rasterPoints (start : Point) (w h : ℤ) :
    (rasterPoints 0 0 w h).map (start + ·) = rasterPoints start.1 start.2 w h := by
  obtain ⟨x, y⟩ := start
  simp only [rasterPoints, List.map_flatMap, List.map_map, Function.comp_def, Prod.mk_add_mk,
    zero_add]

/-- The number of the items of a list that pass a test, as an area. -/
theorem countP_eq_area {points : List Point} (hnodup : points.Nodup) (test : Point → Bool) :
    points.countP test = area { point | point ∈ points } test := by
  rw [List.countP_eq_length_filter, ← List.toFinset_card_of_nodup (hnodup.filter _), area,
    ← Set.ncard_coe_finset]
  congr 1
  ext point
  simp

theorem setOf_mem_rasterPoints (rect : Rect) :
    { point | point ∈ rasterPoints rect.x rect.y rect.width rect.height } = rect.region :=
  Set.ext fun _ ↦ mem_rasterPoints

/-- A framebuffer with four bytes for every point, whose places have 32 bits. -/
structure FrameBuffer.IsSound (fb : FrameBuffer) : Prop
    extends IsMemory fb.width fb.height fb.pixels where
  pitch_eq : fb.pitch = fb.width * 4
  memorySize_eq : fb.memorySize.toNat = fb.pixels.length

/-- A surface with four bytes for every point, whose places have 32 bits, that is blank. -/
abbrev Surface.IsBlank (surface : Surface) : Prop :=
  Showing surface.width surface.height surface.pixels (blankPicture surface.width surface.height)

/-- All framebuffers are sound, and all surfaces are blank. -/
structure GraphicsCore.IsSound (core : GraphicsCore) : Prop where
  frameBuffers : ∀ fb ∈ core.frameBuffers, fb.IsSound
  surfaces : ∀ surface ∈ core.surfaces, surface.IsBlank

/-- The picture on a framebuffer, under its id. -/
def FrameBuffer.sheet (fb : FrameBuffer) : UInt32 × Picture Point Color :=
  (fb.frameBufferId, pictureOf fb.width fb.height fb.pixels)

/-- What the painter sees of a core. -/
noncomputable def GraphicsCore.painter (core : GraphicsCore) : Painter where
  sheets := core.frameBuffers.map FrameBuffer.sheet
  blanks := core.surfaces.map fun surface ↦
    (surface.surfaceId, blankPicture surface.width surface.height)
  active := core.activeFbId
  drawn := core.totalPixelsDrawn
  operations := core.totalOperations

theorem pictureUnder_sheets :
    pictureUnder core.painter.sheets id =
      (graphicsGetFramebuffer core id).map fun fb ↦ pictureOf fb.width fb.height fb.pixels := by
  rw [pictureUnder, GraphicsCore.painter, List.find?_map, Option.map_map]
  rfl

/-- What drawing on a framebuffer leaves, when it leaves a picture in the memory. -/
theorem afterDrawing_paints {fb : FrameBuffer} {pixels : List UInt8} {drawn : UInt32}
    (hsound : core.IsSound) (hfind : graphicsGetFramebuffer core id = some fb)
    (hshowing : Showing fb.width fb.height pixels picture) :
    (core.afterDrawing id pixels drawn).1.IsSound ∧
      (core.afterDrawing id pixels drawn).1.painter =
        { core.painter with
          sheets := updateFirst (fun sheet ↦ sheet.1 = id) (fun sheet ↦ (sheet.1, picture))
            core.painter.sheets
          drawn := drawn
          operations := core.totalOperations + 1 } := by
  have hfb := hsound.frameBuffers fb (List.mem_of_find?_eq_some hfind)
  refine ⟨⟨fun other hother ↦ ?_, hsound.surfaces⟩, ?_⟩
  · obtain hold | ⟨old, hold, rfl⟩ := mem_updateFirst hother
    · exact hsound.frameBuffers other hold
    · obtain rfl : old = fb := Option.some.inj (hold.symm.trans hfind)
      exact ⟨hshowing.toIsMemory, hfb.pitch_eq, hfb.memorySize_eq.trans
        (hfb.length_eq.trans hshowing.length_eq.symm)⟩
  · have hsheets := @map_updateFirst_eq _
      (fun fb : FrameBuffer ↦ fb.frameBufferId = id)
      (fun fb : FrameBuffer ↦ { fb with pixels := pixels }) _ _ _ FrameBuffer.sheet
      (fun sheet ↦ sheet.1 = id) (fun sheet ↦ (sheet.1, picture)) (fun _ ↦ rfl) hfind
      (Prod.ext rfl hshowing.shows)
    simp only [GraphicsCore.painter, GraphicsCore.afterDrawing, GraphicsCore.onFramebuffer, hsheets]

/-- A call that draws on the first framebuffer with an id, by a loop that leaves its memory and the
count of the pixels drawn. -/
def GraphicsCore.drawWith (core : GraphicsCore) (id : UInt32)
    (loop : FrameBuffer → Option (List UInt8 × UInt32)) : Option GraphicsCore :=
  match graphicsGetFramebuffer core id with
  | none => some core
  | some fb => (loop fb).map fun drawn ↦ (core.afterDrawing id drawn.1 drawn.2).1

/-- The loop of the calls that copy a rectangle. -/
def blitLoop (core : GraphicsCore) (read : List UInt8 → List UInt8) (srcInside : Point → Bool)
    (srcOffset : Point → UInt32) (rect : Rect) (point : Point) (dst : FrameBuffer) :
    Option (List UInt8 × UInt32) :=
  (rasterPoints 0 0 rect.width rect.height).foldlM
    (copyPoint read srcInside (isInside dst.width dst.height) srcOffset dst.offset
      (rect.x, rect.y) point) (dst.pixels, core.totalPixelsDrawn)

theorem blitFramebuffer_eq {sheetId : UInt32} {src : FrameBuffer}
    (hsrc : graphicsGetFramebuffer core sheetId = some src) (rect : Rect) (id : UInt32)
    (point : Point) :
    graphicsCall core (.blitFramebuffer sheetId rect id point) =
      core.drawWith id (blitLoop core (fun pixels ↦ if sheetId = id then pixels else src.pixels)
        (isInside src.width src.height) src.offset rect point) := by
  rw [graphicsCall, graphicsBlitFramebuffer, hsrc, GraphicsCore.drawWith]
  cases graphicsGetFramebuffer core id with
  | none => rfl
  | some fb => simp only [blitLoop, Option.map_map, Function.comp_def]

/-- A call that draws on the first framebuffer with an id does what the painter does, when its loop
does. -/
theorem drawing_paints {call : GraphicsCall} {change : Picture Point Color → Picture Point Color}
    {count : Picture Point Color → ℕ} {loop : FrameBuffer → Option (List UInt8 × UInt32)}
    (hsound : core.IsSound)
    (hcall : graphicsCall core call = core.drawWith id loop)
    (hpaint : paint core.painter call = core.painter.onSheet id change count)
    (hloop : ∀ fb, graphicsGetFramebuffer core id = some fb → fb.IsSound →
      ∃ written, loop fb = some (written, core.totalPixelsDrawn +
          UInt32.ofNat (count (pictureOf fb.width fb.height fb.pixels))) ∧
        Showing fb.width fb.height written (change (pictureOf fb.width fb.height fb.pixels))) :
    ∃ next, graphicsCall core call = some next ∧ next.IsSound ∧
      next.painter = paint core.painter call := by
  rw [hcall, hpaint, GraphicsCore.drawWith, Painter.onSheet, pictureUnder_sheets]
  cases hfind : graphicsGetFramebuffer core id with
  | none => exact ⟨core, rfl, hsound, rfl⟩
  | some fb =>
    obtain ⟨written, hwritten, hshowing⟩ := hloop fb hfind
      (hsound.frameBuffers fb (List.mem_of_find?_eq_some hfind))
    obtain ⟨hafter, hpainter⟩ := @afterDrawing_paints _ _ _ _ _ (core.totalPixelsDrawn +
      UInt32.ofNat (count (pictureOf fb.width fb.height fb.pixels))) hsound hfind hshowing
    refine ⟨_, ?_, hafter, hpainter⟩
    simp only [hwritten, Option.map_some]

/-! ### The calls -/

theorem isSome_pictureOf {pixels : List UInt8} :
    (pictureOf width height pixels point).isSome = isInside width height point := by
  rw [pictureOf]
  split_ifs with hinside
  · exact hinside.symm
  · exact (Bool.not_eq_true _ ▸ hinside).symm

/-- The number of the points that a loop copies. -/
theorem countP_eq_copiedArea {srcWidth srcHeight : UInt32} {source pixels : List UInt8}
    (rect : Rect) (point : Point) :
    ((rasterPoints 0 0 rect.width rect.height).countP fun offset ↦
        isInside srcWidth srcHeight ((rect.x, rect.y) + offset) &&
          isInside width height (point + offset)) =
      copiedArea (pictureOf srcWidth srcHeight source) (pictureOf width height pixels) rect.region
        (point - (rect.x, rect.y)) := by
  have hmoved : ∀ offset : Point,
      (rect.x, rect.y) + offset + (point - (rect.x, rect.y)) = point + offset := by
    intro offset
    abel
  rw [copiedArea, ← setOf_mem_rasterPoints, ← countP_eq_area (nodup_rasterPoints _ _ _ _),
    ← map_add_rasterPoints (rect.x, rect.y), List.countP_map]
  simp only [Function.comp_def, isSome_pictureOf, hmoved]

theorem foldl_copyDot_raster (rect : Rect) (source picture : Picture Point Color) :
    ((rasterPoints 0 0 rect.width rect.height).map ((rect.x, rect.y) + ·)).foldl
        (fun drawn point ↦ copyDot shift source drawn point) picture =
      paste picture source rect.region shift := by
  rw [map_add_rasterPoints (rect.x, rect.y), foldl_copyDot, setOf_mem_rasterPoints]

theorem blitFramebuffer_paints (hsound : core.IsSound) (sheetId : UInt32) (rect : Rect)
    (point : Point) :
    ∃ next, graphicsCall core (.blitFramebuffer sheetId rect id point) = some next ∧
      next.IsSound ∧
        next.painter = paint core.painter (.blitFramebuffer sheetId rect id point) := by
  cases hsheet : graphicsGetFramebuffer core sheetId with
  | none =>
    refine ⟨core, ?_, hsound, ?_⟩
    · rw [graphicsCall, graphicsBlitFramebuffer, hsheet]
      rfl
    · rw [paint, pictureUnder_sheets, hsheet]
      rfl
  | some src =>
    have hsrc := hsound.frameBuffers src (List.mem_of_find?_eq_some hsheet)
    refine @drawing_paints _ _ _
      (fun picture ↦
        if sheetId = id then copyWithin picture rect (point - (rect.x, rect.y))
        else paste picture (pictureOf src.width src.height src.pixels) rect.region
          (point - (rect.x, rect.y)))
      (fun picture ↦ copiedArea (pictureOf src.width src.height src.pixels) picture
        rect.region (point - (rect.x, rect.y))) _ hsound
      (blitFramebuffer_eq hsheet rect id point) ?_ fun fb hfind hfb ↦ ?_
    · rw [paint, pictureUnder_sheets, hsheet]
      rfl
    · have hread : ∀ pixels picture, Showing fb.width fb.height pixels picture →
          Showing src.width src.height (if sheetId = id then pixels else src.pixels)
            (if sheetId = id then picture else pictureOf src.width src.height src.pixels) := by
        intro pixels picture hnow
        split_ifs with hsame
        · rw [hsame, hfind] at hsheet
          obtain rfl := Option.some.inj hsheet
          exact hnow
        · exact ⟨hsrc.toIsMemory, rfl⟩
      obtain ⟨written, hloop, hshowing⟩ := copyPoints_shows hread
        (fun _ hin ↦ offset_eq hsrc.pitch_eq hsrc.fits hin)
        (fun _ hin ↦ offset_eq hfb.pitch_eq hfb.fits hin) ⟨hfb.toIsMemory, rfl⟩
        (rect.x, rect.y) point (rasterPoints 0 0 rect.width rect.height) core.totalPixelsDrawn
      rw [countP_eq_copiedArea] at hloop
      refine ⟨written, hloop, ?_⟩
      by_cases hsame : sheetId = id
      · simp only [if_pos hsame, map_add_rasterPoints (rect.x, rect.y)] at hshowing ⊢
        exact hshowing
      · simp only [if_neg hsame, foldl_copyDot_raster] at hshowing ⊢
        exact hshowing

/-! ### Creating and destroying -/

/-- A memory of zeros is blank. -/
theorem blank_showing (hfits : 4 * (width.toNat * height.toNat) < 2 ^ 32) (hwidth : width ≠ 0)
    (hheight : height ≠ 0) :
    Showing width height (List.replicate (4 * (width.toNat * height.toNat)) 0)
      (blankPicture width height) := by
  have hwide := toNat_pos hwidth
  have hhigh := toNat_pos hheight
  have hwidth' := toInt_toInt32 (n := width) (by nlinarith)
  have hheight' := toInt_toInt32 (n := height) (by nlinarith)
  refine ⟨⟨hfits, List.length_replicate⟩, funext fun point ↦ ?_⟩
  rw [pictureOf, blankPicture]
  simp only [isInside_iff, hwidth', hheight']
  split_ifs
  · refine congrArg some ?_
    have hzero : ∀ i, (List.replicate (4 * (width.toNat * height.toNat)) (0 : UInt8)).getD i 0 =
        0 := by
      intro i
      rw [List.getD_eq_getElem?_getD, List.getElem?_replicate]
      split_ifs <;> rfl
    simp only [colorAt, hzero]
  · rfl

/-- The format has four bytes for a pixel, and fewer than 2³² of them make up a memory. -/
def FitsMemory (width height : UInt32) (format : PixelFormat) : Prop :=
  format ≠ .rgb24 ∧ 4 * (width.toNat * height.toNat) < 2 ^ 32

theorem newFramebuffer_sound {format : PixelFormat} (hfits : FitsMemory width height format)
    (hwidth : width ≠ 0) (hheight : height ≠ 0) :
    (newFramebuffer id width height format).IsSound ∧
      (newFramebuffer id width height format).sheet = (id, blankPicture width height) := by
  obtain ⟨hformat, hfits⟩ := hfits
  have hhigh := toNat_pos hheight
  have hsize : format.pixelSize = 4 := if_neg hformat
  have hpitch : (width * 4).toNat = 4 * width.toNat := by
    rw [UInt32.toNat_mul, Nat.mod_eq_of_lt (by change width.toNat * 4 < _; nlinarith)]
    exact Nat.mul_comm _ _
  have hbytes : ((width * format.pixelSize).toUInt64 * height.toUInt64).toNat =
      4 * (width.toNat * height.toNat) := by
    rw [hsize, UInt64.toNat_mul, UInt32.toNat_toUInt64, UInt32.toNat_toUInt64, hpitch,
      Nat.mul_assoc, Nat.mod_eq_of_lt (by omega)]
  have hshowing := blank_showing hfits hwidth hheight
  rw [← hbytes] at hshowing
  refine ⟨⟨hshowing.toIsMemory, ?_, ?_⟩, Prod.ext rfl hshowing.shows⟩
  · rw [newFramebuffer, hsize]
  · exact List.length_replicate.symm

/-- What a call creates has four bytes for each pixel, and fewer than 2³² of them. -/
def GraphicsCall.CreatesMemory : GraphicsCall → Prop
  | .createFramebuffer width height format _ => FitsMemory width height format
  | .createSurface width height format _ => FitsMemory width height format
  | _ => True

/-- What a call creates has its memory, and its signed numbers stay in their 32 bits. -/
structure GraphicsCall.Fits (call : GraphicsCall) : Prop where
  memory : call.CreatesMemory
  numbers : call.InInt32

theorem createFramebuffer_paints {format : PixelFormat} (hsound : core.IsSound)
    (hfits : FitsMemory width height format) (granted : Bool) :
    (graphicsCreateFramebuffer core width height format granted).1.IsSound ∧
      (graphicsCreateFramebuffer core width height format granted).1.painter =
        paint core.painter (.createFramebuffer width height format granted) := by
  have hcount : core.painter.sheets.length = core.frameBuffers.length := List.length_map _
  rw [paint, hcount, graphicsCreateFramebuffer]
  by_cases hfull : maxFrameBuffers ≤ core.frameBuffers.length
  · rw [if_pos hfull, if_neg fun hroom ↦ absurd hroom.1 hfull.not_gt]
    exact ⟨hsound, rfl⟩
  rw [if_neg hfull]
  by_cases hempty : (width = 0 || height = 0) = true
  · rw [if_pos hempty, if_neg]
    · exact ⟨hsound, rfl⟩
    · rintro ⟨-, hwidth, hheight, -⟩
      simp [hwidth, hheight] at hempty
  rw [if_neg hempty]
  cases granted with
  | false => exact ⟨hsound, (if_neg fun hroom ↦ Bool.false_ne_true hroom.2.2.2).symm⟩
  | true =>
    have hsize : width ≠ 0 ∧ height ≠ 0 := by simpa using hempty
    obtain ⟨hnew, hsheet⟩ := @newFramebuffer_sound _ _
      (UInt32.ofNat core.frameBuffers.length + 1) _ hfits hsize.1 hsize.2
    rw [if_pos rfl, if_pos ⟨not_le.mp hfull, hsize.1, hsize.2, rfl⟩]
    refine ⟨⟨?_, hsound.surfaces⟩, ?_⟩
    · simpa only [List.forall_mem_append, List.forall_mem_singleton] using
        ⟨hsound.frameBuffers, hnew⟩
    · simp only [GraphicsCore.painter, List.map_append, List.map_singleton, hsheet]

end OneOS.Graphics
