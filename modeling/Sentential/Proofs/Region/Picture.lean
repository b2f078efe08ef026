import Sentential.Proofs.Region.Classification
import Sentential.Region.Picture
import Mathlib.Tactic.Linarith
import Mathlib.Tactic.NormNum
import Mathlib.Tactic.Ring
/-!
# What the picture of a formula shows

The centre of a pixel is in the left circle, in the right one, in both or in neither.  This fixes
the truth values of the two atoms there, and the pixel is painted where the formula is true of them
inside the circles.  The regions do not overlap, so they may be painted in any order.
-/

namespace Sentential

namespace Canvas

/-- Whether the centre of a pixel is within a distance of a point. -/
def isWithin (distance x y : Rat) (row column : Nat) : Bool :=
  let dx : Rat := column + 1 / 2 - x
  let dy : Rat := row + 1 / 2 - y
  dx * dx + dy * dy ≤ distance * distance

/-- Whether a pixel is in the circle of the first atom. -/
def inLeft (row column : Nat) : Bool := isWithin 90 190 150 row column

/-- Whether a pixel is in the circle of the second atom. -/
def inRight (row column : Nat) : Bool := isWithin 90 290 150 row column

end Canvas

/-! ## The geometry of the regions -/

theorem Disk.contains_eq_isWithin (d : Disk) (row column : Nat) :
    d.contains row column = Canvas.isWithin d.radius d.centerX d.centerY row column := by
  rw [Bool.eq_iff_iff]
  unfold Disk.contains Canvas.isWithin
  simp only [decide_eq_true_eq]
  rw [← Int.cast_le (R := Rat)]
  push_cast
  constructor
  · intro h
    linarith
  · intro h
    linarith

theorem Disk.contains_left (row column : Nat) :
    Disk.left.contains row column = Canvas.inLeft row column := by
  rw [contains_eq_isWithin]
  norm_num [Canvas.inLeft, left]

theorem Disk.contains_right (row column : Nat) :
    Disk.right.contains row column = Canvas.inRight row column := by
  rw [contains_eq_isWithin]
  norm_num [Canvas.inRight, right]

namespace Region

/-- Whether a pixel belongs to the region: it is in the circles in which the region lies, and in no
other. -/
def mask (r : Region) (row column : Nat) : Bool :=
  Canvas.inLeft row column == r.inLeft && Canvas.inRight row column == r.inRight

theorem mask_eq_true_iff {r : Region} {row column : Nat} :
    r.mask row column = true ↔
      Canvas.inLeft row column = r.inLeft ∧ Canvas.inRight row column = r.inRight := by
  simp [mask]

theorem ofPixel?_eq_some_iff {r : Region} {row column : Nat} :
    ofPixel? row column = some r ↔ r.mask row column = true := by
  unfold ofPixel? mask
  rw [Disk.contains_left, Disk.contains_right]
  cases Canvas.inLeft row column <;> cases Canvas.inRight row column <;> cases r <;> decide

theorem ofPixel?_eq_none_iff {row column : Nat} :
    ofPixel? row column = none ↔
      Canvas.inLeft row column = false ∧ Canvas.inRight row column = false := by
  unfold ofPixel?
  rw [Disk.contains_left, Disk.contains_right]
  cases Canvas.inLeft row column <;> cases Canvas.inRight row column <;> simp

theorem exists_mask_or_outside (row column : Nat) :
    (∃ r : Region, r.mask row column = true) ∨
      Canvas.inLeft row column = false ∧ Canvas.inRight row column = false := by
  cases hpixel : ofPixel? row column with
  | none => exact .inr (ofPixel?_eq_none_iff.1 hpixel)
  | some r => exact .inl ⟨r, ofPixel?_eq_some_iff.1 hpixel⟩

theorem inside_of_mask {r : Region} {row column : Nat} (h : r.mask row column = true) :
    Canvas.inLeft row column = true ∨ Canvas.inRight row column = true := by
  obtain ⟨hleft, hright⟩ := mask_eq_true_iff.1 h
  rw [hleft, hright]
  cases r <;> decide

theorem isPainted_colour (r : Region) (alpha : Rat) : (r.colour alpha).isPainted = true := by
  unfold Colour.isPainted
  cases r <;> norm_num [colour, Colour.ofBytes]

end Region

theorem Colour.isPainted_transparent : transparent.isPainted = false := by
  simp [isPainted, transparent]

namespace Shading

variable {s : Shading} {alpha : Rat} {r : Region} {row column : Nat}

theorem pixel_of_mask (h : r.mask row column = true) :
    s.pixel alpha row column = if s.get r then r.colour alpha else .transparent := by
  unfold pixel
  rw [Region.ofPixel?_eq_some_iff.2 h]

theorem pixel_of_outside (hleft : Canvas.inLeft row column = false)
    (hright : Canvas.inRight row column = false) :
    s.pixel alpha row column = .transparent := by
  unfold pixel
  rw [Region.ofPixel?_eq_none_iff.2 ⟨hleft, hright⟩]

/-! ## What is painted -/

theorem isPainted_pixel_of_mask (h : r.mask row column = true) :
    (s.pixel alpha row column).isPainted = s.get r := by
  rw [pixel_of_mask h]
  cases s.get r with
  | true => exact r.isPainted_colour alpha
  | false => exact Colour.isPainted_transparent

theorem isPainted_pixel_of_outside (hleft : Canvas.inLeft row column = false)
    (hright : Canvas.inRight row column = false) :
    (s.pixel alpha row column).isPainted = false := by
  rw [pixel_of_outside hleft hright, Colour.isPainted_transparent]

theorem pixel_of_isPainted (hpaint : (s.pixel alpha row column).isPainted = true)
    (h : r.mask row column = true) : s.pixel alpha row column = r.colour alpha := by
  rw [isPainted_pixel_of_mask h] at hpaint
  rw [pixel_of_mask h, if_pos hpaint]

theorem pixel_of_not_isPainted (hpaint : (s.pixel alpha row column).isPainted = false) :
    s.pixel alpha row column = .transparent := by
  rcases Region.exists_mask_or_outside row column with ⟨r, hmask⟩ | ⟨hleft, hright⟩
  · rw [isPainted_pixel_of_mask hmask] at hpaint
    rw [pixel_of_mask hmask, hpaint, if_neg Bool.false_ne_true]
  · exact pixel_of_outside hleft hright

/-! ## Painting region by region -/

/-- Whether the shading paints the pixel in the colour of the region. -/
def paints (s : Shading) (row column : Nat) (r : Region) : Bool := s.get r && r.mask row column

/-- The colour of a pixel after some regions have been painted, a later one over an earlier one. -/
def paintOver (s : Shading) (alpha : Rat) (row column : Nat) (c : Colour) (order : List Region) :
    Colour :=
  order.foldl (fun c r => if s.paints row column r then r.colour alpha else c) c

theorem pixel_of_paints (h : s.paints row column r = true) :
    s.pixel alpha row column = r.colour alpha := by
  obtain ⟨hget, hmask⟩ := Bool.and_eq_true_iff.1 h
  rw [pixel_of_mask hmask, if_pos hget]

theorem pixel_of_not_paints (h : ∀ r, s.paints row column r = false) :
    s.pixel alpha row column = .transparent := by
  apply pixel_of_not_isPainted
  rcases Region.exists_mask_or_outside row column with ⟨r, hmask⟩ | ⟨hleft, hright⟩
  · rw [isPainted_pixel_of_mask hmask]
    simpa [paints, hmask] using h r
  · exact isPainted_pixel_of_outside hleft hright

theorem paintOver_eq_ite (order : List Region) (c : Colour) :
    s.paintOver alpha row column c order =
      if order.any (s.paints row column) then s.pixel alpha row column else c := by
  induction order generalizing c with
  | nil => rfl
  | cons r rest ih =>
      have hcons : s.paintOver alpha row column c (r :: rest) = s.paintOver alpha row column
        (if s.paints row column r then r.colour alpha else c) rest := rfl
      rw [hcons, ih, List.any_cons]
      cases hr : s.paints row column r with
      | true => rw [if_pos rfl, ← pixel_of_paints hr, Bool.true_or, if_pos rfl, ite_self]
      | false => rw [if_neg Bool.false_ne_true, Bool.false_or]

/-- A pixel has at most one region, so the order in which all are painted does not matter. -/
theorem paintOver_eq_pixel {order : List Region} (h : ∀ r, r ∈ order) :
    s.paintOver alpha row column .transparent order = s.pixel alpha row column := by
  rw [paintOver_eq_ite]
  cases hany : order.any (s.paints row column) with
  | true => rw [if_pos rfl]
  | false =>
      have hnot : ∀ r, s.paints row column r = false := by
        intro r
        simpa using List.any_eq_false.1 hany r (h r)
      rw [if_neg Bool.false_ne_true, pixel_of_not_paints hnot]

end Shading

/-- The truth values of the two atoms at a pixel. -/
def Canvas.assignment (row column : Nat) : Assignment :=
  [("P", inLeft row column), ("Q", inRight row column)]

/-- A pixel shows the truth value of a program.  It is painted if it is in a circle and the program
is true there, in the colour of its region; otherwise all channels are zero. -/
structure Shading.Depicts (s : Shading) (alpha : Rat) (p : Program) (row column : Nat) : Prop where
  painted_iff : (s.pixel alpha row column).isPainted = true ↔
    (Canvas.inLeft row column = true ∨ Canvas.inRight row column = true) ∧
      p.evaluate (Canvas.assignment row column).valuation = true
  leftOnly : (s.pixel alpha row column).isPainted = true →
    Canvas.inLeft row column = true → Canvas.inRight row column = false →
      s.pixel alpha row column = ⟨124 / 255, 154 / 255, 1, alpha⟩
  rightOnly : (s.pixel alpha row column).isPainted = true →
    Canvas.inLeft row column = false → Canvas.inRight row column = true →
      s.pixel alpha row column = ⟨49 / 255, 196 / 255, 141 / 255, alpha⟩
  both : (s.pixel alpha row column).isPainted = true →
    Canvas.inLeft row column = true → Canvas.inRight row column = true →
      s.pixel alpha row column = ⟨86 / 255, 175 / 255, 198 / 255, alpha⟩
  unpainted : (s.pixel alpha row column).isPainted = false →
    s.pixel alpha row column = ⟨0, 0, 0, 0⟩
  outside : Canvas.inLeft row column = false → Canvas.inRight row column = false →
    (s.pixel alpha row column).isPainted = false
  anyOrder : ∀ order : List Region, (∀ r, r ∈ order) →
    s.paintOver alpha row column .transparent order = s.pixel alpha row column

namespace Program

variable {p : Program} {alpha : Rat} {r : Region} {row column : Nat}

theorem get_shading_of_mask (h : r.mask row column = true) :
    (p.shading "P" "Q").get r = p.evaluate (Canvas.assignment row column).valuation := by
  obtain ⟨hleft, hright⟩ := Region.mask_eq_true_iff.1 h
  rw [get_shading, Canvas.assignment, hleft, hright]
  rfl

theorem depicts_shading (p : Program) (alpha : Rat) (row column : Nat) :
    (p.shading "P" "Q").Depicts alpha p row column := by
  constructor
  case painted_iff =>
    rcases Region.exists_mask_or_outside row column with ⟨r, hmask⟩ | ⟨hleft, hright⟩
    · rw [Shading.isPainted_pixel_of_mask hmask, get_shading_of_mask hmask]
      exact ⟨fun hvalue => ⟨Region.inside_of_mask hmask, hvalue⟩, fun h => h.2⟩
    · simp [Shading.isPainted_pixel_of_outside hleft hright, hleft, hright]
  case leftOnly =>
    intro hpaint hleft hright
    have hmask := Region.mask_eq_true_iff (r := .leftOnly).2 ⟨hleft, hright⟩
    rw [Shading.pixel_of_isPainted hpaint hmask]
    norm_num [Region.colour, Colour.ofBytes]
  case rightOnly =>
    intro hpaint hleft hright
    have hmask := Region.mask_eq_true_iff (r := .rightOnly).2 ⟨hleft, hright⟩
    rw [Shading.pixel_of_isPainted hpaint hmask]
    norm_num [Region.colour, Colour.ofBytes]
  case both =>
    intro hpaint hleft hright
    have hmask := Region.mask_eq_true_iff (r := .both).2 ⟨hleft, hright⟩
    rw [Shading.pixel_of_isPainted hpaint hmask]
    norm_num [Region.colour, Colour.ofBytes]
  case unpainted => exact fun hpaint => Shading.pixel_of_not_isPainted hpaint
  case outside => exact fun hleft hright => Shading.isPainted_pixel_of_outside hleft hright
  case anyOrder => exact fun order horder => Shading.paintOver_eq_pixel horder

end Program

namespace Alphabet

/-- The picture of a formula shows its truth value at every pixel. -/
theorem classify_depicts {source : Source} {p : Program}
    (h : (diagram.compile source).outcome = .ok p) (alpha : Rat) :
    ∃ c, diagram.classify source = .ok c ∧
      ∀ row column, c.shading.Depicts alpha p row column :=
  ⟨_, classify_of_outcome rfl h, fun row column => p.depicts_shading alpha row column⟩

/-- A conditional leaves the left circle alone unpainted and paints the right one. -/
theorem classify_depicts_implies :
    (diagram.compile (.text "p implies Q")).outcome =
        .ok [.push "P", .push "Q", .apply (.binary .implies)] ∧
      ∃ c, diagram.classify (.text "p implies Q") = .ok c ∧
        (c.shading.pixel (7 / 10) 150 120).isPainted = false ∧
        c.shading.pixel (7 / 10) 150 360 = ⟨49 / 255, 196 / 255, 141 / 255, 7 / 10⟩ := by
  have houtcome : (diagram.compile (.text "p implies Q")).outcome =
      .ok [.push "P", .push "Q", .apply (.binary .implies)] := by decide +kernel
  obtain ⟨c, hclassify, hdepicts⟩ := classify_depicts houtcome (7 / 10)
  refine ⟨houtcome, c, hclassify, ?_, ?_⟩
  · rw [← Bool.not_eq_true, (hdepicts 150 120).painted_iff]
    decide +kernel
  · have hpainted := (hdepicts 150 360).painted_iff.2 (by decide +kernel)
    exact (hdepicts 150 360).rightOnly hpainted (by decide +kernel) (by decide +kernel)

end Alphabet

end Sentential
