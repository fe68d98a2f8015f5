/-
  ZeroAuth.Android.FaceCrop

  `cropAndResize` of RegistrationFaceCapture.kt and of FaceMatchVerification.kt, one and
  the same function: which part of the camera image the face crop is cut from.  `Int`
  arithmetic wraps around, and `Float` arithmetic rounds.

  The sub-bitmap is always inside the image and square.  It is cut to the shorter
  side of the image from its lower right corner, so it has the whole face exactly when
  each axis is `Covered`: when the padded square fits the image, or the face ends before the
  cut.
-/

import ZeroAuth.Mobile.Floats

namespace ZeroAuth.Android

open ZeroAuth.Mobile (toFloat toInt toFloat_nonneg toFloat_le toFloat_intCast toInt_of_nonneg)

/-! ## Integers and rectangles -/

/-- The result of an `Int` operation. -/
def i32 (x : ℤ) : ℤ := (x + 2 ^ 31) % 2 ^ 32 - 2 ^ 31

theorem i32_of_range {x : ℤ} (hlow : -2 ^ 31 ≤ x) (hhigh : x < 2 ^ 31) : i32 x = x := by
  unfold i32
  omega

theorem i32_range (x : ℤ) : -2 ^ 31 ≤ i32 x ∧ i32 x < 2 ^ 31 := by
  unfold i32
  omega

/-- `android.graphics.Rect`: four `Int`s. -/
structure Rect where
  left : ℤ
  top : ℤ
  right : ℤ
  bottom : ℤ

namespace Rect

def width (r : Rect) : ℤ := i32 (r.right - r.left)

def height (r : Rect) : ℤ := i32 (r.bottom - r.top)

/-- `exactCenterX().toInt()` and `exactCenterY().toInt()`, from the two edges. -/
def centre (lo hi : ℤ) : ℤ := toInt (toFloat (i32 (lo + hi)) * (1 / 2))

def longer (r : Rect) : ℤ := max r.width r.height

end Rect

/-- An image; its bytes, four for a pixel, are counted by an `Int`. -/
structure Bitmap where
  width : ℤ
  height : ℤ
  width_pos : 0 < width
  height_pos : 0 < height
  bytes_lt : 4 * (width * height) < 2 ^ 31

/-- What the face crop is scaled from: the whole image, or a sub-bitmap. -/
inductive Crop
  | whole
  | sub (x y width height : ℤ)
  deriving DecidableEq

/-! ## The crop -/

/-- `0.15f`. -/
def paddingRatio : ℚ := 10066330 / 67108864

def padding (longer : ℤ) : ℤ := toInt (toFloat (toFloat longer * paddingRatio))

/-- The side of the padded square. -/
def paddedSide (longer : ℤ) : ℤ := i32 (longer + i32 (2 * padding longer))

/-- `if (left < 0) { right -= left; left = 0 }`. -/
def raiseEdges (lo hi : ℤ) : ℤ × ℤ := if lo < 0 then (0, i32 (hi - lo)) else (lo, hi)

/-- `if (right > w) { left -= (right - w); right = w }`. -/
def lowerEdges (size : ℤ) (e : ℤ × ℤ) : ℤ × ℤ :=
  if e.2 > size then (i32 (e.1 - i32 (e.2 - size)), size) else e

/-- The two edges of the square on one axis, pushed into the image. -/
def clampEdges (size lo hi : ℤ) : ℤ × ℤ :=
  let e := lowerEdges size (raiseEdges lo hi)
  (max e.1 0, e.2)

/-- `sideClamped`. -/
def cutSide (w h : ℤ) (x y : ℤ × ℤ) : ℤ :=
  min (min (i32 (x.2 - x.1)) (i32 (w - x.1))) (min (i32 (y.2 - y.1)) (i32 (h - y.1)))

/-- The square at the lower edges, as large as the edges and the image allow. -/
def cutSquare (w h : ℤ) (x y : ℤ × ℤ) : Crop :=
  if cutSide w h x y ≤ 0 then .whole else .sub x.1 y.1 (cutSide w h x y) (cutSide w h x y)

def cropAndResize (source : Bitmap) (faceBounds : Rect) : Crop :=
  let w := source.width
  let h := source.height
  let side := paddedSide faceBounds.longer
  let cx := Rect.centre faceBounds.left faceBounds.right
  let cy := Rect.centre faceBounds.top faceBounds.bottom
  let left := i32 (cx - side.tdiv 2)
  let top := i32 (cy - side.tdiv 2)
  cutSquare w h (clampEdges w left (i32 (left + side))) (clampEdges h top (i32 (top + side)))

/-- The rectangle lies inside the image. -/
structure Rect.Inside (r : Rect) (source : Bitmap) : Prop where
  left : 0 ≤ r.left
  top : 0 ≤ r.top
  leftRight : r.left ≤ r.right
  topBottom : r.top ≤ r.bottom
  right : r.right ≤ source.width
  bottom : r.bottom ≤ source.height

/-- The part of the image that is scaled has the whole rectangle; the whole image has every
    rectangle inside it. -/
def Crop.Has (source : Bitmap) (r : Rect) : Crop → Prop
  | whole => r.Inside source
  | sub x y width height =>
      x ≤ r.left ∧ y ≤ r.top ∧ r.right ≤ x + width ∧ r.bottom ≤ y + height

/-! ## Inside the image, and square -/

/-- A sub-bitmap that `Bitmap.createBitmap` accepts, and square.  Where the rectangle is empty
    none is asked for: `whole` takes no region, whatever the shape of the image. -/
def Crop.Valid (source : Bitmap) : Crop → Prop
  | whole => True
  | sub x y width height => 0 ≤ x ∧ 0 ≤ y ∧ 0 < width ∧ width = height ∧
      x + width ≤ source.width ∧ y + height ≤ source.height

theorem clampEdges_nonneg (size lo hi : ℤ) : 0 ≤ (clampEdges size lo hi).1 := le_max_right _ _

theorem clampEdges_lt (size : ℤ) {lo : ℤ} (hi : ℤ) (hlo : lo < 2 ^ 31) :
    (clampEdges size lo hi).1 < 2 ^ 31 := by
  have hraise : (raiseEdges lo hi).1 < 2 ^ 31 := by
    unfold raiseEdges
    split
    · norm_num
    · exact hlo
  have hlower : (lowerEdges size (raiseEdges lo hi)).1 < 2 ^ 31 := by
    unfold lowerEdges
    split
    · exact (i32_range _).2
    · exact hraise
  exact max_lt hlower (by norm_num)

namespace Bitmap

theorem width_lt (source : Bitmap) : source.width < 2 ^ 31 := by
  have hle : source.width * 1 ≤ source.width * source.height :=
    mul_le_mul_of_nonneg_left source.height_pos source.width_pos.le
  have := source.bytes_lt
  omega

theorem height_lt (source : Bitmap) : source.height < 2 ^ 31 := by
  have hle : 1 * source.height ≤ source.width * source.height :=
    mul_le_mul_of_nonneg_right source.width_pos source.height_pos.le
  have := source.bytes_lt
  omega

end Bitmap

theorem cutSquare_valid (source : Bitmap) {x y : ℤ × ℤ} (hx : 0 ≤ x.1 ∧ x.1 < 2 ^ 31)
    (hy : 0 ≤ y.1 ∧ y.1 < 2 ^ 31) : (cutSquare source.width source.height x y).Valid source := by
  have hw := source.width_pos
  have hh := source.height_pos
  have hwmax := source.width_lt
  have hhmax := source.height_lt
  have hxw : i32 (source.width - x.1) = source.width - x.1 := i32_of_range (by omega) (by omega)
  have hyh : i32 (source.height - y.1) = source.height - y.1 := i32_of_range (by omega) (by omega)
  have hside : cutSide source.width source.height x y =
      min (min (i32 (x.2 - x.1)) (source.width - x.1))
        (min (i32 (y.2 - y.1)) (source.height - y.1)) := by
    rw [cutSide, hxw, hyh]
  unfold cutSquare
  split
  · trivial
  · next hpos => exact ⟨hx.1, hy.1, by omega, rfl, by omega, by omega⟩

/-- Whatever the rectangle, and whatever wraps around. -/
theorem cropAndResize_valid (source : Bitmap) (r : Rect) : (cropAndResize source r).Valid source := by
  apply cutSquare_valid
  · exact ⟨clampEdges_nonneg _ _ _, clampEdges_lt _ _ (i32_range _).2⟩
  · exact ⟨clampEdges_nonneg _ _ _, clampEdges_lt _ _ (i32_range _).2⟩

/-! ## The face in the crop -/

/-- The face on one axis: the padded square begins at its lower edge or before, or reaches the end
    of the image; and its upper edge is not beyond the cut. -/
structure Covered (size centre side cut lo hi : ℤ) : Prop where
  begins : centre - side / 2 ≤ lo ∨ size ≤ lo + side
  ends : hi ≤ cut ∨ (hi + side / 2 ≤ centre + cut ∧ hi + side ≤ size + cut)

/-- The padded square fits the image, or what is cut off it is not part of the face; an empty
    rectangle is in the whole image. -/
def FaceCovered (source : Bitmap) (r : Rect) : Prop :=
  let side := paddedSide r.longer
  let cut := min side (min source.width source.height)
  r.longer ≤ 0 ∨
    (Covered source.width (Rect.centre r.left r.right) side cut r.left r.right ∧
      Covered source.height (Rect.centre r.top r.bottom) side cut r.top r.bottom)

theorem padding_range {n : ℤ} (h0 : 0 ≤ n) (h : n < 2 ^ 15) : 0 ≤ padding n ∧ padding n ≤ n := by
  have hn : (0 : ℚ) ≤ n := by exact_mod_cast h0
  have hlt : (n : ℚ) < 2 ^ 15 := by exact_mod_cast h
  have hr : (0 : ℚ) ≤ paddingRatio := by norm_num [paddingRatio]
  have hr' : paddingRatio ≤ 1 / 4 := by norm_num [paddingRatio]
  have hf0 : 0 ≤ toFloat (n : ℚ) := toFloat_nonneg hn
  have hf : toFloat (n : ℚ) ≤ 2 * n := toFloat_le hn
  have hm0 : 0 ≤ toFloat (n : ℚ) * paddingRatio := mul_nonneg hf0 hr
  have hm : toFloat (n : ℚ) * paddingRatio ≤ 2 * n * (1 / 4) :=
    mul_le_mul hf hr' hr (by linarith)
  have hp0 : 0 ≤ toFloat (toFloat (n : ℚ) * paddingRatio) := toFloat_nonneg hm0
  have hp : toFloat (toFloat (n : ℚ) * paddingRatio) ≤ n := by
    have := toFloat_le hm0
    linarith
  rw [padding, toInt_of_nonneg hp0 (by linarith)]
  refine ⟨Int.floor_nonneg.mpr hp0, ?_⟩
  have hfloor := Int.floor_le (toFloat (toFloat (n : ℚ) * paddingRatio))
  exact_mod_cast hfloor.trans hp

theorem paddedSide_eq {n : ℤ} (h0 : 0 ≤ n) (h : n < 2 ^ 15) :
    paddedSide n = n + 2 * padding n := by
  obtain ⟨hp0, hp⟩ := padding_range h0 h
  have hdouble : i32 (2 * padding n) = 2 * padding n := i32_of_range (by omega) (by omega)
  rw [paddedSide, hdouble, i32_of_range (by omega) (by omega)]

theorem centre_range (lo hi : ℤ) (h0 : 0 ≤ lo + hi) (h : lo + hi < 2 ^ 30) :
    0 ≤ Rect.centre lo hi ∧ Rect.centre lo hi ≤ lo + hi := by
  have hn : (0 : ℚ) ≤ ((lo + hi : ℤ) : ℚ) := by exact_mod_cast h0
  have hlt : ((lo + hi : ℤ) : ℚ) < 2 ^ 30 := by exact_mod_cast h
  have hf0 := toFloat_nonneg hn
  have hf := toFloat_le hn
  have hc0 : 0 ≤ toFloat ((lo + hi : ℤ) : ℚ) * (1 / 2) := by linarith
  have hc : toFloat ((lo + hi : ℤ) : ℚ) * (1 / 2) ≤ ((lo + hi : ℤ) : ℚ) := by linarith
  rw [Rect.centre, i32_of_range (by omega) (by omega), toInt_of_nonneg hc0 (by linarith)]
  refine ⟨Int.floor_nonneg.mpr hc0, ?_⟩
  exact_mod_cast (Int.floor_le _).trans hc

/-- Where the coordinates are floats the centre is half of their sum. -/
theorem centre_eq {lo hi : ℤ} (h0 : 0 ≤ lo + hi) (h : lo + hi < 2 ^ 24) :
    Rect.centre lo hi = (lo + hi) / 2 := by
  have hfloat : toFloat ((lo + hi : ℤ) : ℚ) = ((lo + hi : ℤ) : ℚ) :=
    toFloat_intCast (by rw [abs_of_nonneg h0]; exact h)
  have hn : (0 : ℚ) ≤ ((lo + hi : ℤ) : ℚ) := by exact_mod_cast h0
  have hlt : ((lo + hi : ℤ) : ℚ) < 2 ^ 24 := by exact_mod_cast h
  rw [Rect.centre, i32_of_range (by omega) (by omega), hfloat,
    toInt_of_nonneg (by linarith) (by linarith), ← div_eq_mul_one_div]
  exact Rat.floor_intCast_div_natCast _ 2

section Clamp

variable {size lo side : ℤ} (hs0 : 0 ≤ side) (hs : side < 2 ^ 20)

include hs0 hs

theorem raiseEdges_eq (hlo : -2 ^ 20 < lo) (hlo' : lo < 2 ^ 30) :
    raiseEdges lo (lo + side) = (max lo 0, max lo 0 + side) := by
  unfold raiseEdges
  split
  · next hneg =>
      rw [i32_of_range (by omega) (by omega), max_eq_right hneg.le]
      congr 1
      omega
  · next hpos => rw [max_eq_left (by omega)]

theorem lowerEdges_eq (h0 : 0 < size) (hsize : size < 2 ^ 29) (hlo : 0 ≤ lo) (hlo' : lo < 2 ^ 30) :
    lowerEdges size (lo, lo + side) = (min lo (size - side), min (lo + side) size) := by
  unfold lowerEdges
  split
  · next hover =>
      have hover' : size < lo + side := hover
      have hin : i32 (lo + side - size) = lo + side - size := i32_of_range (by omega) (by omega)
      show (i32 (lo - i32 (lo + side - size)), size) = _
      rw [hin, i32_of_range (by omega) (by omega), min_eq_right (by omega), min_eq_right (by omega)]
      congr 1
      omega
  · next hfits =>
      have hfits' : lo + side ≤ size := not_lt.mp hfits
      rw [min_eq_left (by omega), min_eq_left hfits']

/-- Without wrapping around, the lower edge is clamped and the distance is cut to the image. -/
theorem clampEdges_eq (h0 : 0 < size) (hsize : size < 2 ^ 29) (hlo : -2 ^ 20 < lo)
    (hlo' : lo < 2 ^ 30) :
    clampEdges size lo (lo + side) =
      (max 0 (min lo (size - side)), min (max lo 0 + side) size) := by
  unfold clampEdges
  rw [raiseEdges_eq hs0 hs hlo hlo', lowerEdges_eq hs0 hs h0 hsize (le_max_right _ _) (by omega)]
  show (max (min (max lo 0) (size - side)) 0, _) = _
  congr 1
  omega

end Clamp

section Inside

variable {source : Bitmap} {r : Rect}

theorem Bitmap.size_lt (source : Bitmap) : source.width < 2 ^ 29 ∧ source.height < 2 ^ 29 := by
  have hle : source.width * 1 ≤ source.width * source.height :=
    mul_le_mul_of_nonneg_left source.height_pos source.width_pos.le
  have hle' : 1 * source.height ≤ source.width * source.height :=
    mul_le_mul_of_nonneg_right source.width_pos source.height_pos.le
  have := source.bytes_lt
  constructor <;> omega

theorem Rect.Inside.longer_eq (h : r.Inside source) :
    r.longer = max (r.right - r.left) (r.bottom - r.top) := by
  obtain ⟨hw, hh⟩ := source.size_lt
  obtain ⟨hl, ht, hlr, htb, hr, hb⟩ := h
  rw [Rect.longer, Rect.width, Rect.height, i32_of_range (by omega) (by omega),
    i32_of_range (by omega) (by omega)]

/-- A side that fits both ways squares to the number of pixels at most. -/
theorem longer_lt {n : ℤ} (h : n ≤ min source.width source.height) : n < 2 ^ 15 := by
  by_contra hlarge
  have hw : 2 ^ 15 ≤ source.width := by omega
  have hh : 2 ^ 15 ≤ source.height := by omega
  have hprod : (2 : ℤ) ^ 15 * 2 ^ 15 ≤ source.width * source.height :=
    mul_le_mul hw hh (by norm_num) source.width_pos.le
  have := source.bytes_lt
  omega

/-- The square for a padded side and a centre, without wrapping around. -/
theorem cutSquare_eq (source : Bitmap) {side cx cy : ℤ} (hs0 : 0 ≤ side) (hs : side < 2 ^ 20)
    (hcx0 : 0 ≤ cx) (hcx : cx < 2 ^ 30) (hcy0 : 0 ≤ cy) (hcy : cy < 2 ^ 30) :
    cutSquare source.width source.height
        (clampEdges source.width (i32 (cx - side.tdiv 2)) (i32 (i32 (cx - side.tdiv 2) + side)))
        (clampEdges source.height (i32 (cy - side.tdiv 2)) (i32 (i32 (cy - side.tdiv 2) + side))) =
      if min side (min source.width source.height) ≤ 0 then .whole
      else .sub (max 0 (min (cx - side / 2) (source.width - side)))
        (max 0 (min (cy - side / 2) (source.height - side)))
        (min side (min source.width source.height)) (min side (min source.width source.height)) := by
  obtain ⟨hw, hh⟩ := source.size_lt
  have hw0 := source.width_pos
  have hh0 := source.height_pos
  have hhalf : side.tdiv 2 = side / 2 := Int.tdiv_eq_ediv_of_nonneg hs0
  have hx : i32 (cx - side / 2) = cx - side / 2 := i32_of_range (by omega) (by omega)
  have hy : i32 (cy - side / 2) = cy - side / 2 := i32_of_range (by omega) (by omega)
  have hx' : i32 (cx - side / 2 + side) = cx - side / 2 + side := i32_of_range (by omega) (by omega)
  have hy' : i32 (cy - side / 2 + side) = cy - side / 2 + side := i32_of_range (by omega) (by omega)
  rw [hhalf, hx, hy, hx', hy', clampEdges_eq hs0 hs hw0 hw (by omega) (by omega),
    clampEdges_eq hs0 hs hh0 hh (by omega) (by omega)]
  -- what is left between the edges is the side, or the whole axis
  have haxis : ∀ {size lo : ℤ}, 0 < size → size < 2 ^ 29 → lo < 2 ^ 30 →
      min (i32 (min (max lo 0 + side) size - max 0 (min lo (size - side))))
        (i32 (size - max 0 (min lo (size - side)))) = min side size := by
    intro size lo h0 hsize hlo
    rw [i32_of_range (by omega) (by omega), i32_of_range (by omega) (by omega)]
    omega
  have hcut : cutSide source.width source.height
      (max 0 (min (cx - side / 2) (source.width - side)),
        min (max (cx - side / 2) 0 + side) source.width)
      (max 0 (min (cy - side / 2) (source.height - side)),
        min (max (cy - side / 2) 0 + side) source.height) =
      min side (min source.width source.height) := by
    rw [cutSide, haxis hw0 hw (by omega), haxis hh0 hh (by omega)]
    omega
  rw [cutSquare, hcut]

/-- The crop of a rectangle inside the image that is no longer than the shorter side. -/
theorem cropAndResize_eq (h : r.Inside source) (hlong : r.longer ≤ min source.width source.height) :
    cropAndResize source r =
      let side := paddedSide r.longer
      let cut := min side (min source.width source.height)
      if cut ≤ 0 then .whole
      else .sub (max 0 (min (Rect.centre r.left r.right - side / 2) (source.width - side)))
        (max 0 (min (Rect.centre r.top r.bottom - side / 2) (source.height - side))) cut cut := by
  obtain ⟨hw, hh⟩ := source.size_lt
  have hw0 := source.width_pos
  have hh0 := source.height_pos
  have heq := h.longer_eq
  have hlt := longer_lt hlong
  obtain ⟨hl, ht, hlr, htb, hr, hb⟩ := h
  have hlong0 : 0 ≤ r.longer := by omega
  obtain ⟨hp0, hp⟩ := padding_range hlong0 hlt
  obtain ⟨hcx0, hcx⟩ := centre_range r.left r.right (by omega) (by omega)
  obtain ⟨hcy0, hcy⟩ := centre_range r.top r.bottom (by omega) (by omega)
  have hside := paddedSide_eq hlong0 hlt
  exact cutSquare_eq source (by omega) (by omega) hcx0 (by omega) hcy0 (by omega)

/-- What the function promises of one image and one rectangle. -/
structure CropKeepsFace (source : Bitmap) (r : Rect) : Prop where
  valid : (cropAndResize source r).Valid source
  has : r.Inside source → r.longer ≤ min source.width source.height →
    (cropAndResize source r).Has source r

theorem covered_iff {size centre side cut lo hi : ℤ} (hlo : 0 ≤ lo) :
    Covered size centre side cut lo hi ↔
      max 0 (min (centre - side / 2) (size - side)) ≤ lo ∧
        hi ≤ max 0 (min (centre - side / 2) (size - side)) + cut := by
  constructor
  · rintro ⟨hbegins, hends⟩
    omega
  · rintro ⟨hbegins, hends⟩
    constructor <;> omega

/-- The crop keeps the face exactly when the face is covered. -/
theorem cropKeepsFace_iff (source : Bitmap) (r : Rect) :
    CropKeepsFace source r ↔
      (r.Inside source → r.longer ≤ min source.width source.height → FaceCovered source r) := by
  have hiff : r.Inside source → r.longer ≤ min source.width source.height →
      ((cropAndResize source r).Has source r ↔ FaceCovered source r) := by
    intro hin hlong
    have hw0 := source.width_pos
    have hh0 := source.height_pos
    have heq := hin.longer_eq
    have hlt := longer_lt hlong
    have hlong0 : 0 ≤ r.longer := by
      have := hin.leftRight
      omega
    obtain ⟨hp0, hp⟩ := padding_range hlong0 hlt
    have hside := paddedSide_eq hlong0 hlt
    rw [cropAndResize_eq hin hlong]
    dsimp only
    unfold FaceCovered
    dsimp only
    rw [covered_iff hin.left, covered_iff hin.top]
    split
    · next hnone =>
        have hzero : r.longer ≤ 0 := by omega
        exact ⟨fun _ => .inl hzero, fun _ => hin⟩
    · next hsome =>
        have hpos : ¬ r.longer ≤ 0 := by omega
        constructor
        · rintro ⟨hl, ht, hr, hb⟩
          exact .inr ⟨⟨hl, hr⟩, ht, hb⟩
        · rintro (hzero | ⟨⟨hl, hr⟩, ht, hb⟩)
          · exact absurd hzero hpos
          · exact ⟨hl, ht, hr, hb⟩
  constructor
  · rintro ⟨-, hhas⟩ hin hlong
    exact (hiff hin hlong).mp (hhas hin hlong)
  · intro h
    exact ⟨cropAndResize_valid source r, fun hin hlong => (hiff hin hlong).mpr (h hin hlong)⟩

/-- A padded square that fits the image covers the face, where the coordinates are floats. -/
theorem faceCovered_of_fits (hin : r.Inside source)
    (hfits : paddedSide r.longer ≤ min source.width source.height)
    (hlong : r.longer ≤ min source.width source.height)
    (hx : r.left + r.right < 2 ^ 24) (hy : r.top + r.bottom < 2 ^ 24) : FaceCovered source r := by
  have heq := hin.longer_eq
  have hlt := longer_lt hlong
  obtain ⟨hl, ht, hlr, htb, hr, hb⟩ := hin
  have hlong0 : 0 ≤ r.longer := by omega
  obtain ⟨hp0, -⟩ := padding_range hlong0 hlt
  have hside := paddedSide_eq hlong0 hlt
  have hcx := centre_eq (by omega) hx
  have hcy := centre_eq (by omega) hy
  refine .inr ⟨⟨.inl ?_, ?_⟩, ⟨.inl ?_, ?_⟩⟩
  · rw [hcx]
    omega
  · rw [hcx, min_eq_left hfits]
    omega
  · rw [hcy]
    omega
  · rw [hcy, min_eq_left hfits]
    omega

end Inside

/-! ## A face that is cut -/

def portrait : Bitmap := ⟨480, 640, by norm_num, by norm_num, by norm_num⟩

/-- A face as wide as 25/28 of the image, 12 pixels above its lower edge. -/
def closeFace : Rect := ⟨20, 200, 450, 628⟩

/-- The padded square is 558 pixels wide; it is cut to 480 from below, and the crop ends in row
    562. -/
theorem closeFace_cut :
    closeFace.Inside portrait ∧ closeFace.longer ≤ min portrait.width portrait.height ∧
      cropAndResize portrait closeFace = .sub 0 82 480 480 ∧
      ¬ (cropAndResize portrait closeFace).Has portrait closeFace := by
  have hcrop : cropAndResize portrait closeFace = .sub 0 82 480 480 := by decide +kernel
  have hin : closeFace.Inside portrait := by constructor <;> decide
  refine ⟨hin, by decide, hcrop, ?_⟩
  rw [hcrop]
  rintro ⟨-, -, -, hbottom⟩
  have hlt : (82 : ℤ) + 480 < closeFace.bottom := by decide
  omega

end ZeroAuth.Android
