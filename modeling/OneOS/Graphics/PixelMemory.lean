import OneOS.Foundation.PartialRuns
import OneOS.Foundation.Pictures
import OneOS.Graphics.GraphicsCore
import Mathlib.Tactic.Abel

/-!
# The memory of a picture

A memory with four bytes for every point, whose places have 32 bits, shows a picture (`Showing`).
The loops that draw in one colour fill a region of it (`drawPoints_shows`), those that copy draw the
dots of another picture or of the same one (`copyPoints_shows`), and the loop that clears it fills
the whole picture (`clearPixels_shows`). None of them reads or writes beside the memory.
-/

set_option autoImplicit false
set_option relaxedAutoImplicit false

namespace OneOS.Graphics

open Foundation

/-! ### Memory -/

/-- The four bytes from a place on, as a colour. -/
def colorAt (pixels : List UInt8) (offset : ℕ) : Color where
  r := pixels.getD offset 0
  g := pixels.getD (offset + 1) 0
  b := pixels.getD (offset + 2) 0
  a := pixels.getD (offset + 3) 0

/-- One memory is another one after a pixel is written at a place. -/
structure Wrote (pixels written : List UInt8) (offset : ℕ) (color : Color) : Prop where
  length_eq : written.length = pixels.length
  here : colorAt written offset = color
  apart : ∀ other, other + 4 ≤ offset ∨ offset + 4 ≤ other →
    colorAt written other = colorAt pixels other

theorem storeByte_eq {pixels : List UInt8} {address : UInt32} {byte : UInt8} {i : ℕ}
    (haddress : address.toNat = i) (hin : i < pixels.length) :
    storeByte pixels address byte = some (pixels.set i byte) := by
  rw [storeByte, haddress, if_pos hin]

/-- Four writes behind each other write a pixel. -/
theorem wrote_set {pixels : List UInt8} {offset : ℕ} (color : Color)
    (hin : offset + 4 ≤ pixels.length) :
    Wrote pixels ((((pixels.set offset color.r).set (offset + 1) color.g).set
      (offset + 2) color.b).set (offset + 3) color.a) offset color := by
  obtain ⟨r, g, b, a⟩ := color
  constructor
  · simp
  · simp only [colorAt, List.getD_eq_getElem?_getD, List.getElem?_set, List.length_set]
    grind
  · intro other hother
    simp only [colorAt, List.getD_eq_getElem?_getD, List.getElem?_set, List.length_set]
    grind

/-- A pixel whose bytes are all in the memory is written. -/
theorem storeColor_wrote {pixels : List UInt8} {offset : UInt32} (color : Color)
    (hin : offset.toNat + 4 ≤ pixels.length) (hsize : pixels.length < 2 ^ 32) :
    ∃ written, storeColor pixels offset color = some written ∧
      Wrote pixels written offset.toNat color := by
  have hnext : ∀ i : UInt32, i.toNat < 4 → (offset + i).toNat = offset.toNat + i.toNat := by
    intro i hi
    rw [UInt32.toNat_add, Nat.mod_eq_of_lt (by omega)]
  refine ⟨_, ?_, wrote_set color hin⟩
  simp only [storeColor, storeByte_eq rfl (show offset.toNat < pixels.length by omega),
    Option.bind_eq_bind, Option.bind_some]
  rw [storeByte_eq (hnext 1 (by decide)) (by simp; omega), Option.bind_some,
    storeByte_eq (hnext 2 (by decide)) (by simp; omega), Option.bind_some,
    storeByte_eq (hnext 3 (by decide)) (by simp; omega)]
  rfl

theorem getElem?_copied {source pixels : List UInt8} {srcOffset dstOffset : ℕ}
    (hsource : srcOffset + 4 ≤ source.length) (hin : dstOffset + 4 ≤ pixels.length) (i : ℕ) :
    (pixels.take dstOffset ++ (source.drop srcOffset).take 4 ++ pixels.drop (dstOffset + 4))[i]? =
      if dstOffset ≤ i ∧ i < dstOffset + 4 then source[srcOffset + (i - dstOffset)]?
      else pixels[i]? := by
  have hbefore : (pixels.take dstOffset).length = dstOffset := by
    rw [List.length_take]
    omega
  have hfour : ((source.drop srcOffset).take 4).length = 4 := by
    rw [List.length_take, List.length_drop]
    omega
  rw [List.append_assoc, List.getElem?_append, List.getElem?_append, hbefore, hfour]
  by_cases hlow : i < dstOffset
  · rw [if_pos hlow, if_neg (by omega), List.getElem?_take, if_pos hlow]
  · rw [if_neg hlow]
    by_cases hhigh : i - dstOffset < 4
    · rw [if_pos hhigh, if_pos ⟨by omega, by omega⟩, List.getElem?_take, if_pos hhigh,
        List.getElem?_drop]
    · rw [if_neg hhigh, if_neg (by omega), List.getElem?_drop]
      congr 1
      omega

/-- A pixel that is read and written inside of memory is copied. -/
theorem copyPixel_wrote {source pixels : List UInt8} {srcOffset dstOffset : UInt32}
    (hsource : srcOffset.toNat + 4 ≤ source.length) (hin : dstOffset.toNat + 4 ≤ pixels.length) :
    ∃ written, copyPixel source pixels srcOffset dstOffset = some written ∧
      Wrote pixels written dstOffset.toNat (colorAt source srcOffset.toNat) := by
  refine ⟨_, if_pos ⟨hsource, hin⟩, ?_⟩
  constructor
  · simp only [List.length_append, List.length_take, List.length_drop]
    omega
  · simp only [colorAt, List.getD_eq_getElem?_getD, getElem?_copied hsource hin]
    simp
  · intro other hother
    have hapart : ∀ i < 4, ¬(dstOffset.toNat ≤ other + i ∧ other + i < dstOffset.toNat + 4) := by
      omega
    have hfirst := hapart 0 (by omega)
    rw [Nat.add_zero] at hfirst
    simp only [colorAt, List.getD_eq_getElem?_getD, getElem?_copied hsource hin, if_neg hfirst,
      if_neg (hapart 1 (by omega)), if_neg (hapart 2 (by omega)), if_neg (hapart 3 (by omega))]

/-! ### Places -/

/-- The picture that the memory of a width and a height shows. -/
def pictureOf (width height : UInt32) (pixels : List UInt8) : Picture Point Color := fun point ↦
  if isInside width height point then
    some (colorAt pixels (4 * (point.2.toNat * width.toNat + point.1.toNat)))
  else none

/-- The memory has four bytes for every point, and their places have 32 bits. -/
structure IsMemory (width height : UInt32) (pixels : List UInt8) : Prop where
  fits : 4 * (width.toNat * height.toNat) < 2 ^ 32
  length_eq : pixels.length = 4 * (width.toNat * height.toNat)

theorem toInt_toInt32_le (n : UInt32) : n.toInt32.toInt ≤ n.toNat := by
  have hcond := BitVec.toInt_eq_toNat_cond n.toBitVec
  change n.toInt32.toInt = _ at hcond
  rw [hcond]
  split_ifs
  · exact le_rfl
  · change (n.toNat : ℤ) - _ ≤ n.toNat
    omega

theorem toInt_toInt32 {n : UInt32} (hsmall : n.toNat < 2 ^ 31) : n.toInt32.toInt = n.toNat := by
  have hcond := BitVec.toInt_eq_toNat_cond n.toBitVec
  change n.toInt32.toInt = _ at hcond
  rw [hcond, if_pos (by change 2 * n.toNat < 2 ^ 32; omega)]
  rfl

variable {width height : UInt32} {pixels written source : List UInt8} {point other : Point}
  {color : Color}

theorem isInside_iff :
    isInside width height point = true ↔
      (0 ≤ point.1 ∧ point.1 < width.toInt32.toInt) ∧
        0 ≤ point.2 ∧ point.2 < height.toInt32.toInt := by
  simp [isInside, and_assoc]

/-- The number of a point, row by row. -/
def placeOf (width : UInt32) (point : Point) : ℕ :=
  point.2.toNat * width.toNat + point.1.toNat

theorem placeOf_lt (hinside : isInside width height point = true) :
    placeOf width point < width.toNat * height.toNat := by
  obtain ⟨⟨hleft, hright⟩, htop, hbottom⟩ := isInside_iff.mp hinside
  have hx : point.1.toNat < width.toNat := by
    have := toInt_toInt32_le width
    omega
  have hy : point.2.toNat + 1 ≤ height.toNat := by
    have := toInt_toInt32_le height
    omega
  calc placeOf width point < (point.2.toNat + 1) * width.toNat := by
        rw [placeOf, Nat.succ_mul]
        omega
    _ ≤ height.toNat * width.toNat := Nat.mul_le_mul_right _ hy
    _ = width.toNat * height.toNat := Nat.mul_comm _ _

/-- Two points on one picture have different places. -/
theorem placeOf_inj (hpoint : isInside width height point = true)
    (hother : isInside width height other = true)
    (hplace : placeOf width point = placeOf width other) : point = other := by
  obtain ⟨⟨hleft, hright⟩, htop, -⟩ := isInside_iff.mp hpoint
  obtain ⟨⟨hleft', hright'⟩, htop', -⟩ := isInside_iff.mp hother
  have hx : point.1.toNat < width.toNat := by
    have := toInt_toInt32_le width
    omega
  have hx' : other.1.toNat < width.toNat := by
    have := toInt_toInt32_le width
    omega
  have hwidth : 0 < width.toNat := by omega
  have hrow : point.2.toNat = other.2.toNat := by
    have := congrArg (· / width.toNat) hplace
    simpa [placeOf, Nat.mul_comm _ width.toNat, Nat.mul_add_div hwidth, Nat.div_eq_of_lt hx,
      Nat.div_eq_of_lt hx'] using this
  have hcolumn : point.1.toNat = other.1.toNat := by
    rw [placeOf, placeOf, hrow] at hplace
    omega
  exact Prod.ext (by omega) (by omega)

/-- A pixel written at the place of a point draws a dot. -/
theorem pictureOf_wrote (hinside : isInside width height point = true)
    (hwrote : Wrote pixels written (4 * placeOf width point) color) :
    pictureOf width height written = dot (pictureOf width height pixels) point color := by
  funext other
  by_cases hother : other = point
  · rw [hother, dot_self, pictureOf, pictureOf, if_pos hinside, if_pos hinside, Option.map_some]
    exact congrArg some hwrote.here
  · rw [dot_of_ne hother, pictureOf, pictureOf]
    split_ifs with hin
    · refine congrArg some (hwrote.apart _ ?_)
      have hne : placeOf width other ≠ placeOf width point := fun hsame ↦
        hother (placeOf_inj hin hinside hsame)
      rw [placeOf] at hne
      omega
    · rfl

theorem ofInt_of_nonneg {n : ℤ} (hn : 0 ≤ n) : UInt32.ofInt n = UInt32.ofNat n.toNat := by
  rw [UInt32.ofInt, ← UInt32.toNat_inj, UInt32.toNat_ofNat', UInt32.toNat_ofNat']
  omega

/-- The place of a point, as both kinds of memory compute it. -/
theorem toNat_offset (hfits : 4 * (width.toNat * height.toNat) < 2 ^ 32)
    (hinside : isInside width height point = true) :
    (UInt32.ofInt point.2 * (width * 4) + UInt32.ofInt point.1 * 4).toNat =
      4 * placeOf width point := by
  have hplace := placeOf_lt hinside
  obtain ⟨⟨hleft, hright⟩, htop, hbottom⟩ := isInside_iff.mp hinside
  have hvalue : UInt32.ofInt point.2 * (width * 4) + UInt32.ofInt point.1 * 4 =
      UInt32.ofNat (4 * placeOf width point) := by
    rw [placeOf, ofInt_of_nonneg htop, ofInt_of_nonneg hleft, UInt32.ofNat_mul, UInt32.ofNat_add,
      UInt32.ofNat_mul, UInt32.ofNat_toNat]
    grind
  rw [hvalue, UInt32.toNat_ofNat_of_lt' (by rw [UInt32.size]; omega)]

theorem offset_eq {fb : FrameBuffer} (hpitch : fb.pitch = fb.width * 4)
    (hfits : 4 * (fb.width.toNat * fb.height.toNat) < 2 ^ 32)
    (hinside : isInside fb.width fb.height point = true) :
    (fb.offset point).toNat = 4 * placeOf fb.width point := by
  rw [FrameBuffer.offset, hpitch, toNat_offset hfits hinside]

/-- The memory shows a picture. -/
structure Showing (width height : UInt32) (pixels : List UInt8) (picture : Picture Point Color) :
    Prop extends IsMemory width height pixels where
  shows : pictureOf width height pixels = picture

theorem IsMemory.of_length (hmemory : IsMemory width height pixels)
    (hlength : written.length = pixels.length) : IsMemory width height written :=
  ⟨hmemory.fits, hlength.trans hmemory.length_eq⟩

/-- A loop that counts the items that pass a test, besides what else it does. -/
theorem foldl_counting {Image : Type*} (follow : Image → Point → Image) (test : Point → Bool)
    (points : List Point) (image : Image) (count : UInt32) :
    points.foldl (fun state point ↦
        (follow state.1 point, if test point then state.2 + 1 else state.2)) (image, count) =
      (points.foldl follow image, count + UInt32.ofNat (points.countP test)) := by
  induction points generalizing image count with
  | nil => exact congrArg (Prod.mk image) (UInt32.add_zero count).symm
  | cons point points ih =>
    rw [List.foldl_cons, ih, List.countP_cons, List.foldl_cons]
    refine congrArg (Prod.mk _) ?_
    split_ifs
    · rw [UInt32.ofNat_add]
      grind
    · rw [Nat.add_zero]

/-- A loop that draws points in one colour. -/
theorem drawPoints_shows {fb : FrameBuffer} {picture : Picture Point Color}
    (hpitch : fb.pitch = fb.width * 4) (hshowing : Showing fb.width fb.height fb.pixels picture)
    (points : List Point) (count : UInt32) :
    ∃ written, points.foldlM (fb.drawPoint color) (fb.pixels, count) =
        some (written, count + UInt32.ofNat (points.countP (isInside fb.width fb.height))) ∧
      Showing fb.width fb.height written (fill picture { point | point ∈ points } color) := by
  have hfollow := @foldlM_follows _ _ _ (fb.drawPoint color)
    (fun (state : Picture Point Color × UInt32) point ↦
      (dot state.1 point color, if isInside fb.width fb.height point then state.2 + 1 else state.2))
    (fun drawn state ↦ Showing fb.width fb.height drawn.1 state.1 ∧ drawn.2 = state.2)
    points ?_ (fb.pixels, count) (picture, count) ⟨hshowing, rfl⟩
  · obtain ⟨⟨written, last⟩, hloop, hshows, hlast⟩ := hfollow
    rw [foldl_counting (fun picture point ↦ dot picture point color), foldl_dot] at hshows hlast
    obtain rfl : last = count + UInt32.ofNat (points.countP (isInside fb.width fb.height)) := hlast
    exact ⟨written, hloop, hshows⟩
  · rintro ⟨pixels, drawn⟩ ⟨shown, -⟩ point -
      ⟨(hnow : Showing fb.width fb.height pixels shown), rfl⟩
    rw [FrameBuffer.drawPoint]
    by_cases hinside : isInside fb.width fb.height point = true
    · have hoffset := offset_eq hpitch hnow.fits hinside
      have hplace := placeOf_lt hinside
      obtain ⟨written, hstore, hwrote⟩ := storeColor_wrote color
        (by rw [hoffset, hnow.length_eq]; omega) (by rw [hnow.length_eq]; exact hnow.fits)
      rw [hoffset] at hwrote
      refine ⟨(written, drawn + 1), ?_, ⟨hnow.of_length hwrote.length_eq, ?_⟩, ?_⟩
      · rw [if_pos hinside, hstore]
        rfl
      · rw [pictureOf_wrote hinside hwrote, hnow.shows]
      · exact (if_pos hinside).symm
    · have hbeside : shown point = none := by
        rw [← hnow.shows, pictureOf, if_neg hinside]
      refine ⟨(pixels, drawn), if_neg hinside, ?_, (if_neg hinside).symm⟩
      rw [dot_of_none hbeside]
      exact hnow

/-- A loop that copies points of a picture, which may be the one it draws on. -/
theorem copyPoints_shows {srcWidth srcHeight : UInt32} {srcOffset dstOffset : Point → UInt32}
    {read : List UInt8 → List UInt8} {shown : Picture Point Color → Picture Point Color}
    (hread : ∀ pixels picture, Showing width height pixels picture →
      Showing srcWidth srcHeight (read pixels) (shown picture))
    (hsrc : ∀ point, isInside srcWidth srcHeight point = true →
      (srcOffset point).toNat = 4 * placeOf srcWidth point)
    (hdst : ∀ point, isInside width height point = true →
      (dstOffset point).toNat = 4 * placeOf width point)
    {picture : Picture Point Color} (hshowing : Showing width height pixels picture)
    (srcPoint dstPoint : Point) (points : List Point) (count : UInt32) :
    ∃ written, points.foldlM (copyPoint read (isInside srcWidth srcHeight) (isInside width height)
        srcOffset dstOffset srcPoint dstPoint) (pixels, count) =
        some (written, count + UInt32.ofNat (points.countP fun point ↦
          isInside srcWidth srcHeight (srcPoint + point) &&
            isInside width height (dstPoint + point))) ∧
      Showing width height written ((points.map (srcPoint + ·)).foldl (fun drawn point ↦
        copyDot (dstPoint - srcPoint) (shown drawn) drawn point) picture) := by
  have hfollow := @foldlM_follows _ _ _ (copyPoint read (isInside srcWidth srcHeight)
      (isInside width height) srcOffset dstOffset srcPoint dstPoint)
    (fun (state : Picture Point Color × UInt32) point ↦
      (copyDot (dstPoint - srcPoint) (shown state.1) state.1 (srcPoint + point),
        if isInside srcWidth srcHeight (srcPoint + point) &&
          isInside width height (dstPoint + point) then state.2 + 1 else state.2))
    (fun drawn state ↦ Showing width height drawn.1 state.1 ∧ drawn.2 = state.2)
    points ?_ (pixels, count) (picture, count) ⟨hshowing, rfl⟩
  · obtain ⟨⟨written, last⟩, hloop, hshows, hlast⟩ := hfollow
    rw [foldl_counting (fun drawn point ↦
      copyDot (dstPoint - srcPoint) (shown drawn) drawn (srcPoint + point))] at hshows hlast
    rw [List.foldl_map]
    obtain rfl : last = count + UInt32.ofNat (points.countP fun point ↦
      isInside srcWidth srcHeight (srcPoint + point) &&
        isInside width height (dstPoint + point)) := hlast
    exact ⟨written, hloop, hshows⟩
  · rintro ⟨pixels, drawn⟩ ⟨now, -⟩ point - ⟨(hnow : Showing width height pixels now), rfl⟩
    have hsource := hread pixels now hnow
    have hmoved : srcPoint + point + (dstPoint - srcPoint) = dstPoint + point := by abel
    rw [copyPoint]
    by_cases hfrom : isInside srcWidth srcHeight (srcPoint + point) = true
    · have hcolour : shown now (srcPoint + point) =
          some (colorAt (read pixels) (srcOffset (srcPoint + point)).toNat) := by
        rw [← hsource.shows, pictureOf, if_pos hfrom, hsrc _ hfrom, placeOf]
      simp only [copyDot, hcolour, hmoved, hfrom, Bool.true_and]
      by_cases hto : isInside width height (dstPoint + point) = true
      · have hplace := placeOf_lt hto
        have hplace' := placeOf_lt hfrom
        obtain ⟨written, hcopy, hwrote⟩ := copyPixel_wrote
          (by rw [hsrc _ hfrom, hsource.length_eq]; omega)
          (by rw [hdst _ hto, hnow.length_eq]; omega)
        rw [hdst _ hto] at hwrote
        refine ⟨(written, drawn + 1), ?_, ⟨hnow.of_length hwrote.length_eq, ?_⟩, ?_⟩
        · rw [if_pos hto, hcopy]
          rfl
        · rw [pictureOf_wrote hto hwrote, hnow.shows]
        · exact (if_pos hto).symm
      · have hbeside : now (dstPoint + point) = none := by
          rw [← hnow.shows, pictureOf, if_neg hto]
        refine ⟨(pixels, drawn), if_neg hto, ?_, (if_neg hto).symm⟩
        rw [dot_of_none hbeside]
        exact hnow
    · have hcolour : shown now (srcPoint + point) = none := by
        rw [← hsource.shows, pictureOf, if_neg hfrom]
      simp only [copyDot, hcolour, hfrom, Bool.false_and]
      exact ⟨(pixels, drawn), rfl, hnow, rfl⟩

/-- The loop that clears a memory from one of its pixels on. -/
theorem clearPixels_wrote {memorySize : UInt64} {count : ℕ} (hcount : 4 * count < 2 ^ 32)
    (hmemory : memorySize.toNat = 4 * count) (passes : ℕ) {i : UInt32} {j : ℕ}
    (hi : i.toNat = 4 * j) (hj : j ≤ count) (hpasses : count ≤ j + passes) {pixels : List UInt8}
    (hlength : pixels.length = 4 * count) :
    ∃ written, clearPixels memorySize color passes i pixels = some written ∧
      written.length = 4 * count ∧
      (∀ k < j, colorAt written (4 * k) = colorAt pixels (4 * k)) ∧
      ∀ k, j ≤ k → k < count → colorAt written (4 * k) = color := by
  have hguard : ∀ (i : UInt32) (j : ℕ), i.toNat = 4 * j →
      (i.toUInt64 < memorySize ↔ j < count) := by
    intro i j hi
    rw [UInt64.lt_iff_toNat_lt, UInt32.toNat_toUInt64, hmemory, hi]
    omega
  induction passes generalizing i j pixels with
  | zero =>
    have hend : ¬ j < count := by omega
    refine ⟨pixels, ?_, hlength, fun k _ ↦ rfl, fun k hjk hk ↦ absurd (hjk.trans_lt hk) hend⟩
    rw [clearPixels, if_neg ((hguard i j hi).not.mpr hend)]
  | succ passes ih =>
    rw [clearPixels]
    by_cases hless : j < count
    · obtain ⟨first, hstore, hwrote⟩ := @storeColor_wrote pixels i color (by omega) (by omega)
      rw [hi] at hwrote
      have hnext : (i + 4).toNat = 4 * (j + 1) := by
        rw [UInt32.toNat_add, hi]
        exact Nat.mod_eq_of_lt (by change 4 * j + 4 < _; omega)
      obtain ⟨written, hrest, hsame, hbefore, hafter⟩ := ih (j := j + 1) hnext (by omega) (by omega)
        (hwrote.length_eq.trans hlength)
      refine ⟨written, ?_, hsame, ?_, ?_⟩
      · rw [if_pos ((hguard i j hi).mpr hless), hstore]
        exact hrest
      · intro k hk
        rw [hbefore k (by omega), hwrote.apart _ (by omega)]
      · intro k hjk hk
        by_cases hfirst : k = j
        · rw [hfirst, hbefore j (by omega), hwrote.here]
        · exact hafter k (by omega) hk
    · refine ⟨pixels, ?_, hlength, fun k _ ↦ rfl, fun k hjk hk ↦ absurd (hjk.trans_lt hk) hless⟩
      rw [if_neg ((hguard i j hi).not.mpr hless)]

/-- The loop that clears a memory fills the whole picture. -/
theorem clearPixels_shows {memorySize : UInt64} {picture : Picture Point Color}
    (hmemory : memorySize.toNat = pixels.length) (hshowing : Showing width height pixels picture) :
    ∃ written, clearPixels memorySize color (2 ^ 30) 0 pixels = some written ∧
      Showing width height written (fill picture Set.univ color) := by
  have hfits := hshowing.fits
  obtain ⟨written, hclear, hlength, -, hcolor⟩ := @clearPixels_wrote color _ _ hfits
    (hmemory.trans hshowing.length_eq) (2 ^ 30) 0 0 rfl (Nat.zero_le _) (by omega) _
    hshowing.length_eq
  refine ⟨written, hclear, ⟨hfits, hlength⟩, ?_⟩
  funext point
  rw [fill, if_pos (Set.mem_univ _), ← hshowing.shows, pictureOf, pictureOf]
  split_ifs with hinside
  · exact congrArg some (hcolor _ (Nat.zero_le _) (placeOf_lt hinside))
  · rfl

end OneOS.Graphics
