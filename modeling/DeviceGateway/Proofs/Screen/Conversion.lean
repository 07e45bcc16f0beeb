import Mathlib.Algebra.Group.Nat.Defs
import Mathlib.Data.List.Basic
import DeviceGateway.Screen.RawFrame

/-!
# Pictures out of raw frames

A frame is a picture when its rows are long enough for their pixels and all its rows are there
(`IsPicture`). The octets of the packed picture are told by an index formula: the colours of the
pixel in column `x` of row `y` are octets of the pixel that starts at `y * stride + x * size`
(`conversion_is_exact`). The same conversion with every product, cut and look-up checked
(`careful?`) never meets one that fails.
-/

namespace DeviceGateway

/-! ## Rows of one length -/

section Rows

variable {row : Nat → Bytes} {n k : Nat}

/-- Every row ends within all rows. -/
theorem row_end_le {i : Nat} (hi : i < n) (k : Nat) : i * k + k ≤ n * k := by
  rw [← Nat.succ_mul]
  exact Nat.mul_le_mul_right k hi

/-- A colour by its pixel, and by its place in the row of the pixel. -/
theorem colour_index (width x y c : Nat) :
    (y * width + x) * 3 + c = y * (width * 3) + (x * 3 + c) := by
  rw [Nat.add_mul, Nat.mul_assoc, Nat.add_assoc]

theorem length_flatMap_rows (hrow : ∀ i < n, (row i).length = k) :
    ((List.range n).flatMap row).length = n * k := by
  induction n with
  | zero => rw [Nat.zero_mul]; rfl
  | succ n ih =>
      rw [List.range_succ, List.flatMap_append, List.length_append,
        ih fun i hi => hrow i (Nat.lt_succ_of_lt hi), List.flatMap_singleton,
        hrow n (Nat.lt_succ_self n), Nat.succ_mul]

/-- **Rows of one length that follow each other**: where the octets of a row stand. -/
theorem getElem?_flatMap_rows (hrow : ∀ i < n, (row i).length = k) {i j : Nat} (hi : i < n)
    (hj : j < k) : ((List.range n).flatMap row)[i * k + j]? = (row i)[j]? := by
  induction n with
  | zero => exact absurd hi (Nat.not_lt_zero i)
  | succ n ih =>
      have hfront (i : Nat) (hi : i < n) : (row i).length = k := hrow i (Nat.lt_succ_of_lt hi)
      have hlength : ((List.range n).flatMap row).length = n * k := length_flatMap_rows hfront
      rw [List.range_succ, List.flatMap_append, List.flatMap_singleton]
      rcases Nat.lt_succ_iff_lt_or_eq.1 hi with hi | rfl
      · have hend := row_end_le hi k
        rw [List.getElem?_append_left (by omega), ih hfront hi]
      · rw [List.getElem?_append_right (by omega), hlength, Nat.add_sub_cancel_left]

end Rows

/-! ## Checked steps -/

namespace Checked

/-- The product of two words, if it is a word. -/
def product? (a b : Nat) : Option Nat := if a * b < 2 ^ 64 then some (a * b) else none

/-- Room for a number of octets, if a list of octets may be that long. -/
def room? (n : Nat) : Option Nat := if n < 2 ^ 63 then some n else none

/-- The first octets, if there are that many. -/
def front? (n : Nat) (bs : Bytes) : Option Bytes := if n ≤ bs.length then some (bs.take n) else none

/-- Pieces of one size, the first of the octets at the front. -/
def pieces (size count : Nat) (bs : Bytes) : List Bytes :=
  (List.range count).map fun i => (bs.drop (i * size)).take size

/-- All octets in pieces of one size, which is not nought. The last piece may be shorter. -/
def allPieces? (size : Nat) (bs : Bytes) : Option (List Bytes) :=
  if size = 0 then none else some (pieces size ((bs.length + size - 1) / size) bs)

/-- The whole pieces of one size, which is not nought. -/
def wholePieces? (size : Nat) (bs : Bytes) : Option (List Bytes) :=
  if size = 0 then none else some (pieces size (bs.length / size) bs)

theorem mapM_eq_some_map {α β : Type} {g : α → Option β} {h : α → β} {l : List α}
    (hl : ∀ a ∈ l, g a = some (h a)) : l.mapM g = some (l.map h) := by
  induction l with
  | nil => rfl
  | cons a l ih =>
      rw [List.mapM_cons, hl a List.mem_cons_self, ih fun b hb => hl b (List.mem_cons_of_mem _ hb)]
      rfl

theorem product?_of_lt {a b : Nat} (h : a * b < 2 ^ 64) : product? a b = some (a * b) := if_pos h

theorem product?_of_words (a b : UInt32) : product? a.toNat b.toNat = some (a.toNat * b.toNat) := by
  have h : a.toNat * b.toNat < 2 ^ 32 * 2 ^ 32 := Nat.mul_lt_mul'' a.toNat_lt b.toNat_lt
  exact product?_of_lt (by omega)

theorem take_pieces {size count n : Nat} (bs : Bytes) (hn : n ≤ count) :
    (pieces size count bs).take n = pieces size n bs := by
  rw [pieces, ← List.map_take, List.take_range, Nat.min_eq_left hn]
  rfl

end Checked

/-! ## The pixels of a frame -/

namespace PixelFormat

/-- Where in a pixel its red, green or blue (0, 1 or 2) stands. -/
def place : PixelFormat → Nat → Nat
  | bgra, c => 2 - c
  | rgba, c | rgb, c => c

/-- The colours of the pixel that starts at an offset. -/
def colourAt (format : PixelFormat) (data : Bytes) (offset : Nat) : Bytes :=
  format.colour ((data.drop offset).take format.size)

theorem size_pos (format : PixelFormat) : 0 < format.size := by cases format <;> decide

theorem three_le_size (format : PixelFormat) : 3 ≤ format.size := by cases format <;> decide

theorem place_lt_size (format : PixelFormat) {c : Nat} (hc : c < 3) :
    format.place c < format.size := by
  cases format <;> simp only [place, size] <;> omega

section

variable {format : PixelFormat} {pixel data : Bytes} {offset : Nat}

/-- A pixel that is all there has at least three octets. -/
theorem exists_of_length (hpixel : pixel.length = format.size) :
    ∃ a b c rest, pixel = a :: b :: c :: rest := by
  have hsize : 3 ≤ pixel.length := hpixel ▸ format.three_le_size
  rcases pixel with - | ⟨a, - | ⟨b, - | ⟨c, rest⟩⟩⟩
  · simp at hsize
  · simp at hsize
  · simp at hsize
  · exact ⟨a, b, c, rest, rfl⟩

theorem length_colour (hpixel : pixel.length = format.size) :
    (format.colour pixel).length = 3 := by
  obtain ⟨a, b, c, rest, rfl⟩ := exists_of_length hpixel
  cases format <;> rfl

/-- Each colour of a pixel that is all there is an octet of it. -/
theorem getElem?_colour (hpixel : pixel.length = format.size) {c : Nat} (hc : c < 3) :
    (format.colour pixel)[c]? = pixel[format.place c]? := by
  obtain ⟨r, g, b, rest, rfl⟩ := exists_of_length hpixel
  rcases c with - | - | - | c
  · cases format <;> rfl
  · cases format <;> rfl
  · cases format <;> rfl
  · omega

theorem length_pixel (hin : offset + format.size ≤ data.length) :
    ((data.drop offset).take format.size).length = format.size := by
  rw [List.length_take, List.length_drop]
  omega

theorem length_colourAt (hin : offset + format.size ≤ data.length) :
    (format.colourAt data offset).length = 3 := length_colour (length_pixel hin)

theorem getElem?_colourAt (hin : offset + format.size ≤ data.length) {c : Nat} (hc : c < 3) :
    (format.colourAt data offset)[c]? = data[offset + format.place c]? := by
  rw [colourAt, getElem?_colour (length_pixel hin) hc,
    List.getElem?_take_of_lt (format.place_lt_size hc), List.getElem?_drop]

theorem colourAt_drop (format : PixelFormat) (data : Bytes) (m offset : Nat) :
    format.colourAt (data.drop m) offset = format.colourAt data (m + offset) := by
  rw [colourAt, colourAt, List.drop_drop]

end

end PixelFormat

namespace RawFrame

/-- **A frame that is a picture**: it has pixels, its rows have room for them, and the octets of all
its rows are there. -/
structure IsPicture (f : RawFrame) : Prop where
  width : f.width ≠ 0
  height : f.height ≠ 0
  stride : f.width.toNat * f.format.size ≤ f.stride.toNat
  data : f.stride.toNat * f.height.toNat ≤ f.data.length

/-- Where the pixel in a column of a row starts. -/
def offset (f : RawFrame) (x y : Nat) : Nat := y * f.stride.toNat + x * f.format.size

/-- The colours of all pixels, row by row. -/
def pixels (f : RawFrame) : Bytes :=
  (List.range f.height.toNat).flatMap fun y =>
    (List.range f.width.toNat).flatMap fun x => f.format.colourAt f.data (f.offset x y)

variable {f : RawFrame}

theorem defect?_eq_none_iff : f.defect? = none ↔ f.IsPicture := by
  rw [defect?]
  constructor
  · intro h
    split at h
    · cases h
    · next hsize =>
      rw [not_or] at hsize
      split at h
      · cases h
      · split at h
        · cases h
        · exact ⟨hsize.1, hsize.2, by omega, by rw [needed] at *; omega⟩
  · intro h
    rw [if_neg (not_or.2 ⟨h.width, h.height⟩), if_neg (Nat.not_lt.2 h.stride),
      if_neg (Nat.not_lt.2 (by rw [needed]; exact h.data))]

namespace IsPicture

variable (hf : f.IsPicture) {x y : Nat}
include hf

theorem stride_pos : 0 < f.stride.toNat := by
  have hwidth : 0 < f.width.toNat := Nat.pos_of_ne_zero fun h => hf.width (UInt32.toNat_inj.1 h)
  exact Nat.lt_of_lt_of_le (Nat.mul_pos hwidth f.format.size_pos) hf.stride

/-- A pixel ends within its row. -/
theorem pixel_in_row (hx : x < f.width.toNat) :
    x * f.format.size + f.format.size ≤ f.stride.toNat :=
  Nat.le_trans (row_end_le hx f.format.size) hf.stride

/-- A row ends within the frame. -/
theorem row_in_frame (hy : y < f.height.toNat) :
    y * f.stride.toNat + f.stride.toNat ≤ f.data.length := by
  have h := row_end_le hy f.stride.toNat
  rw [Nat.mul_comm f.height.toNat] at h
  exact Nat.le_trans h hf.data

theorem pixel_in_frame (hx : x < f.width.toNat) (hy : y < f.height.toNat) :
    f.offset x y + f.format.size ≤ f.data.length := by
  have hrow := hf.row_in_frame hy
  have hpixel := hf.pixel_in_row hx
  rw [offset]
  omega

theorem length_line (hy : y < f.height.toNat) :
    ((List.range f.width.toNat).flatMap fun x => f.format.colourAt f.data (f.offset x y)).length =
      f.width.toNat * 3 :=
  length_flatMap_rows fun _ hx => PixelFormat.length_colourAt (hf.pixel_in_frame hx hy)

theorem length_pixels : f.pixels.length = f.width.toNat * f.height.toNat * 3 := by
  rw [pixels, length_flatMap_rows fun _ hy => hf.length_line hy, Nat.mul_left_comm,
    Nat.mul_assoc]

/-- **The index formula.** -/
theorem getElem?_pixels (hx : x < f.width.toNat) (hy : y < f.height.toNat) {c : Nat} (hc : c < 3) :
    f.pixels[(y * f.width.toNat + x) * 3 + c]? =
      f.data[f.offset x y + f.format.place c]? := by
  rw [colour_index, pixels, getElem?_flatMap_rows (fun _ hy => hf.length_line hy) hy (by omega),
    getElem?_flatMap_rows
      (fun _ hx => PixelFormat.length_colourAt (hf.pixel_in_frame hx hy)) hx hc,
    PixelFormat.getElem?_colourAt (hf.pixel_in_frame hx hy) hc]

/-- The colours alone make the picture. -/
theorem pixels_congr {data : Bytes} (hdata : f.stride.toNat * f.height.toNat ≤ data.length)
    (hsame : ∀ x < f.width.toNat, ∀ y < f.height.toNat, ∀ c < 3,
      data[f.offset x y + f.format.place c]? = f.data[f.offset x y + f.format.place c]?) :
    pixels { f with data } = f.pixels := by
  have hother : IsPicture { f with data } := ⟨hf.width, hf.height, hf.stride, hdata⟩
  have hcolour (x y : Nat) (hx : x < f.width.toNat) (hy : y < f.height.toNat) :
      f.format.colourAt data (f.offset x y) = f.format.colourAt f.data (f.offset x y) := by
    have hin := hf.pixel_in_frame hx hy
    have hin' : f.offset x y + f.format.size ≤ data.length := hother.pixel_in_frame hx hy
    apply List.ext_getElem?
    intro c
    by_cases hc : c < 3
    · rw [PixelFormat.getElem?_colourAt hin hc, PixelFormat.getElem?_colourAt hin' hc,
        hsame x hx y hy c hc]
    · have hlength := PixelFormat.length_colourAt hin
      have hlength' := PixelFormat.length_colourAt hin'
      rw [List.getElem?_eq_none (by omega), List.getElem?_eq_none (by omega)]
  refine List.flatMap_congr fun y hy => List.flatMap_congr fun x hx => ?_
  exact hcolour x y (List.mem_range.1 hx) (List.mem_range.1 hy)

/-- The picture takes no more room than the frame. -/
theorem room_le : f.width.toNat * f.height.toNat * 3 ≤ f.data.length :=
  calc f.width.toNat * f.height.toNat * 3
      ≤ f.width.toNat * f.height.toNat * f.format.size :=
        Nat.mul_le_mul_left _ f.format.three_le_size
    _ = f.width.toNat * f.format.size * f.height.toNat := Nat.mul_right_comm _ _ _
    _ ≤ f.stride.toNat * f.height.toNat := Nat.mul_le_mul_right _ hf.stride
    _ ≤ f.data.length := hf.data

end IsPicture

/-! ## The conversion -/

theorem reverse_rowColours (format : PixelFormat) (n : Nat) (row done : Bytes) :
    (rowColours format n row done).reverse =
      done.reverse ++ (List.range n).flatMap fun x => format.colourAt row (x * format.size) := by
  induction n generalizing row done with
  | zero => exact (List.append_nil _).symm
  | succ n ih =>
      have hnext (x : Nat) : format.colourAt (row.drop format.size) (x * format.size) =
          format.colourAt row ((x + 1) * format.size) := by
        rw [PixelFormat.colourAt_drop, Nat.succ_mul, Nat.add_comm]
      have hfirst : format.colourAt row (0 * format.size) = format.colour (row.take format.size) := by
        rw [Nat.zero_mul, PixelFormat.colourAt, List.drop_zero]
      rw [rowColours, ih, List.range_succ_eq_map, List.flatMap_cons, List.flatMap_map,
        List.reverse_append, List.reverse_reverse, List.append_assoc, hfirst]
      simp only [hnext, Nat.succ_eq_add_one]

theorem reverse_colours (format : PixelFormat) (width stride n : Nat) (data done : Bytes) :
    (colours format width stride n data done).reverse =
      done.reverse ++ (List.range n).flatMap fun y => (List.range width).flatMap fun x =>
        format.colourAt data (y * stride + x * format.size) := by
  induction n generalizing data done with
  | zero => exact (List.append_nil _).symm
  | succ n ih =>
      have hnext (x y : Nat) :
          format.colourAt (data.drop stride) (y * stride + x * format.size) =
            format.colourAt data ((y + 1) * stride + x * format.size) := by
        rw [PixelFormat.colourAt_drop, Nat.succ_mul, Nat.add_comm (y * stride) stride,
          Nat.add_assoc]
      rw [colours, ih, reverse_rowColours, List.range_succ_eq_map, List.flatMap_cons,
        List.flatMap_map, List.append_assoc]
      simp only [hnext, Nat.succ_eq_add_one, Nat.zero_mul, Nat.zero_add]

theorem toImage_of_isPicture (hf : f.IsPicture) :
    f.toImage = .ok ⟨f.width, f.height, f.pixels⟩ := by
  rw [toImage, defect?_eq_none_iff.2 hf]
  dsimp only
  rw [reverse_colours, List.reverse_nil, List.nil_append]
  rfl

theorem toImage_of_defect {d : FrameDefect} (hd : f.defect? = some d) : f.toImage = .error d := by
  rw [toImage, hd]

theorem toImage_of_not_isPicture (hf : ¬ f.IsPicture) :
    ∃ d text, f.toImage = .error d ∧ d.toError = .encoding text := by
  obtain ⟨d, hd⟩ := Option.ne_none_iff_exists'.1 (mt defect?_eq_none_iff.1 hf)
  have htext : ∃ text, d.toError = .encoding text := by cases d <;> exact ⟨_, rfl⟩
  obtain ⟨text, htext⟩ := htext
  exact ⟨d, text, toImage_of_defect hd, htext⟩

/-- **Exactly the pictures are converted.** -/
theorem exists_toImage_iff : (∃ image, f.toImage = .ok image) ↔ f.IsPicture := by
  constructor
  · rintro ⟨image, himage⟩
    by_contra hf
    obtain ⟨d, text, hd, -⟩ := toImage_of_not_isPicture hf
    cases hd.symm.trans himage
  · exact fun hf => ⟨_, toImage_of_isPicture hf⟩

/-! ## The conversion with everything checked -/

open Checked

/-- The colours of a pixel, each of them looked up. -/
def colour? (format : PixelFormat) (pixel : Bytes) : Option Bytes :=
  [0, 1, 2].mapM fun c => pixel[format.place c]?

/-- The colours of the pixels of one row. -/
def line? (f : RawFrame) (rowSize : Nat) (row : Bytes) : Option (List Bytes) := do
  let pixels ← wholePieces? f.format.size (← front? rowSize row)
  pixels.mapM (colour? f.format)

/-- **The conversion with everything checked**: nothing comes of it if a product is no word, if the
octets are cut at a place that they do not reach, if a colour is looked up outside its pixel, or if
there are not the octets that the size of the picture wants. -/
def careful? (f : RawFrame) : Option (Except FrameDefect RgbImage) := do
  let rowSize ← product? f.width.toNat f.format.size
  let needed ← product? f.stride.toNat f.height.toNat
  if f.width = 0 ∨ f.height = 0 then pure (.error .empty)
  else if f.stride.toNat < rowSize then pure (.error .shortStride)
  else if f.data.length < needed then pure (.error (.shortData f.data.length needed))
  else do
    let room ← room? (← product? (← product? f.width.toNat f.height.toNat) 3)
    let rows ← allPieces? f.stride.toNat f.data
    let lines ← (rows.take f.height.toNat).mapM (f.line? rowSize)
    let pixels := lines.flatten.flatten
    if pixels.length = room then pure (.ok ⟨f.width, f.height, pixels⟩) else none

theorem product?_size (a : UInt32) (format : PixelFormat) :
    product? a.toNat format.size = some (a.toNat * format.size) := by
  have hsize : format.size ≤ 4 := by cases format <;> decide
  have h : a.toNat * format.size ≤ 2 ^ 32 * 4 := Nat.mul_le_mul (Nat.le_of_lt a.toNat_lt) hsize
  exact product?_of_lt (by omega)

theorem colour?_of_length {format : PixelFormat} {pixel : Bytes}
    (hpixel : pixel.length = format.size) : colour? format pixel = some (format.colour pixel) := by
  obtain ⟨a, b, c, rest, rfl⟩ := PixelFormat.exists_of_length hpixel
  cases format <;> rfl

variable {f : RawFrame}

/-- **The checked conversion of a row** that has room for its pixels. -/
theorem line?_of_length {row : Bytes} (hrow : f.width.toNat * f.format.size ≤ row.length) :
    f.line? (f.width.toNat * f.format.size) row =
      some ((List.range f.width.toNat).map fun x => f.format.colourAt row (x * f.format.size)) := by
  have hfront : (row.take (f.width.toNat * f.format.size)).length =
      f.width.toNat * f.format.size := by rw [List.length_take, Nat.min_eq_left hrow]
  have hpixel (x : Nat) (hx : x < f.width.toNat) :
      ((row.take (f.width.toNat * f.format.size)).drop (x * f.format.size)).take f.format.size =
        (row.drop (x * f.format.size)).take f.format.size := by
    have hend := row_end_le hx f.format.size
    rw [List.drop_take, List.take_take, Nat.min_eq_left (by omega)]
  have hlength (x : Nat) (hx : x < f.width.toNat) :
      ((row.drop (x * f.format.size)).take f.format.size).length = f.format.size := by
    have hend := row_end_le hx f.format.size
    exact PixelFormat.length_pixel (by omega)
  simp only [line?, front?, if_pos hrow, wholePieces?, if_neg (Nat.ne_of_gt f.format.size_pos),
    Option.bind_eq_bind, Option.bind_some, hfront, Nat.mul_div_cancel _ f.format.size_pos]
  rw [mapM_eq_some_map (h := f.format.colour), pieces, List.map_map]
  · congr 1
    apply List.map_congr_left
    intro x hx
    show f.format.colour (((row.take _).drop _).take _) = _
    rw [hpixel x (List.mem_range.1 hx)]
    rfl
  · intro pixel hmem
    obtain ⟨x, hx, rfl⟩ := List.mem_map.1 hmem
    rw [hpixel x (List.mem_range.1 hx)]
    exact colour?_of_length (hlength x (List.mem_range.1 hx))

namespace IsPicture

variable (hf : f.IsPicture)
include hf

/-- The rows that a picture is cut into have room for their pixels, and hold the pixels. -/
theorem length_row {y : Nat} (hy : y < f.height.toNat) :
    ((f.data.drop (y * f.stride.toNat)).take f.stride.toNat).length = f.stride.toNat := by
  have hrow := hf.row_in_frame hy
  rw [List.length_take, List.length_drop]
  omega

theorem colourAt_row {x : Nat} (hx : x < f.width.toNat) (y : Nat) :
    f.format.colourAt ((f.data.drop (y * f.stride.toNat)).take f.stride.toNat)
      (x * f.format.size) = f.format.colourAt f.data (f.offset x y) := by
  have hpixel := hf.pixel_in_row hx
  rw [PixelFormat.colourAt, PixelFormat.colourAt, List.drop_take, List.take_take,
    Nat.min_eq_left (by omega), List.drop_drop, offset]

/-- All rows of a picture are among the pieces of its octets. -/
theorem height_le_count :
    f.height.toNat ≤ (f.data.length + f.stride.toNat - 1) / f.stride.toNat := by
  have hpos := hf.stride_pos
  have hdata := hf.data
  rw [Nat.mul_comm] at hdata
  exact (Nat.le_div_iff_mul_le hpos).2 (by omega)

theorem mapM_line? :
    (pieces f.stride.toNat f.height.toNat f.data).mapM
        (f.line? (f.width.toNat * f.format.size)) =
      some ((List.range f.height.toNat).map fun y => (List.range f.width.toNat).map fun x =>
        f.format.colourAt f.data (f.offset x y)) := by
  rw [mapM_eq_some_map (h := fun row => (List.range f.width.toNat).map fun x =>
    f.format.colourAt row (x * f.format.size)), pieces, List.map_map]
  · congr 1
    apply List.map_congr_left
    intro y _
    apply List.map_congr_left
    intro x hx
    exact hf.colourAt_row (List.mem_range.1 hx) y
  · intro row hmem
    obtain ⟨y, hy, rfl⟩ := List.mem_map.1 hmem
    apply line?_of_length
    rw [hf.length_row (List.mem_range.1 hy)]
    exact hf.stride

theorem careful?_eq (hdata : f.data.length < 2 ^ 63) : f.careful? = some f.toImage := by
  have hroom := hf.room_le
  have hproduct : product? (f.width.toNat * f.height.toNat) 3 =
      some (f.width.toNat * f.height.toNat * 3) := product?_of_lt (by omega)
  have hpixels : (((List.range f.height.toNat).map fun y => (List.range f.width.toNat).map fun x =>
      f.format.colourAt f.data (f.offset x y)).flatten).flatten = f.pixels := by
    rw [List.flatten_flatten, List.map_map]
    rfl
  simp only [careful?, product?_size, product?_of_words, hproduct, Option.bind_eq_bind,
    Option.bind_some]
  rw [if_neg (not_or.2 ⟨hf.width, hf.height⟩), if_neg (Nat.not_lt.2 hf.stride),
    if_neg (Nat.not_lt.2 hf.data), room?, if_pos (by omega), allPieces?,
    if_neg (Nat.ne_of_gt hf.stride_pos)]
  simp only [Option.bind_some, take_pieces _ hf.height_le_count, hf.mapM_line?, hpixels,
    if_pos hf.length_pixels, toImage_of_isPicture hf]
  rfl

end IsPicture

/-- **Nothing goes wrong in the checked conversion**, which is the conversion, for every list of
octets that a machine can hold. -/
theorem careful?_eq (hdata : f.data.length < 2 ^ 63) : f.careful? = some f.toImage := by
  by_cases hf : f.IsPicture
  · exact hf.careful?_eq hdata
  -- The defects are looked for in the same order.
  simp only [careful?, product?_size, product?_of_words, Option.bind_eq_bind, Option.bind_some]
  by_cases hsize : f.width = 0 ∨ f.height = 0
  · rw [if_pos hsize, toImage_of_defect (by rw [defect?, if_pos hsize])]
    rfl
  by_cases hstride : f.stride.toNat < f.width.toNat * f.format.size
  · rw [if_neg hsize, if_pos hstride,
      toImage_of_defect (by rw [defect?, if_neg hsize, if_pos hstride])]
    rfl
  by_cases hneeded : f.data.length < f.stride.toNat * f.height.toNat
  · have hdefect : f.defect? = some (.shortData f.data.length f.needed) := by
      rw [defect?, if_neg hsize, if_neg hstride, if_pos (by rwa [needed])]
    rw [if_neg hsize, if_neg hstride, if_pos hneeded, toImage_of_defect hdefect]
    rfl
  rw [not_or] at hsize
  exact absurd ⟨hsize.1, hsize.2, Nat.not_lt.1 hstride, Nat.not_lt.1 hneeded⟩ hf

/-! ## The conversion is exact -/

/-- **A conversion that does what a picture asks for.** -/
structure Exact (f : RawFrame) : Prop where
  /-- What is no picture is refused, as octets that cannot be encoded. -/
  refused : ¬ f.IsPicture → ∃ d text, f.toImage = .error d ∧ d.toError = .encoding text
  /-- Of a picture comes a picture of its size, with three octets for each pixel: they are the
  octets of its red, green and blue in the frame, -/
  converted : f.IsPicture → ∃ image, f.toImage = .ok image ∧ image.width = f.width ∧
    image.height = f.height ∧ image.pixels.length = f.width.toNat * f.height.toNat * 3 ∧
    ∀ x < f.width.toNat, ∀ y < f.height.toNat, ∀ c < 3, ∃ octet,
      image.pixels[(y * f.width.toNat + x) * 3 + c]? = some octet ∧
        f.data[f.offset x y + f.format.place c]? = some octet
  /-- so any other octets in the frame make no difference, and neither do octets behind it. -/
  colours : f.IsPicture → ∀ data : Bytes, f.stride.toNat * f.height.toNat ≤ data.length →
    (∀ x < f.width.toNat, ∀ y < f.height.toNat, ∀ c < 3,
      data[f.offset x y + f.format.place c]? = f.data[f.offset x y + f.format.place c]?) →
    toImage { f with data } = f.toImage
  /-- Nothing that the conversion does goes wrong. -/
  safe : f.data.length < 2 ^ 63 → f.careful? = some f.toImage

theorem conversion_is_exact (f : RawFrame) : f.Exact where
  refused := toImage_of_not_isPicture
  converted hf := by
    refine ⟨_, toImage_of_isPicture hf, rfl, rfl, hf.length_pixels, ?_⟩
    intro x hx y hy c hc
    have hin := hf.pixel_in_frame hx hy
    have hplace := f.format.place_lt_size hc
    have hoctet := List.getElem?_eq_getElem (l := f.data) (i := f.offset x y + f.format.place c)
      (by omega)
    exact ⟨_, (hf.getElem?_pixels hx hy hc).trans hoctet, hoctet⟩
  colours hf data hdata hsame := by
    have hother : IsPicture { f with data } := ⟨hf.width, hf.height, hf.stride, hdata⟩
    rw [toImage_of_isPicture hother, toImage_of_isPicture hf,
      hf.pixels_congr hdata hsame]
  safe := careful?_eq

/-- The rest of a row and the opacity of its pixels are left out. -/
example : (RawFrame.mk 2 1 12 .bgra [10, 20, 30, 255, 40, 50, 60, 255, 0, 0, 0, 0]).toImage =
    .ok ⟨2, 1, [30, 20, 10, 60, 50, 40]⟩ := rfl

end RawFrame

end DeviceGateway
