import ThingOS.Compositor.Coherence

/-!
# Presenting a frame

`present` and `present_partial` of `BitmapFramebufferDevice`, down to the bytes. The two functions
count in words of four bytes, and a row every `pitch / 4` words is a row every `pitch` bytes only if
the pitch is a multiple of four, which `sanitize_fb_info` does not see to. They stay inside the
buffer in any case, and a sequence of partial presentations is worth a whole one.
-/

namespace ThingOS.Compositor

open List

/-! ## Pixels in memory -/

def pixelByte (p : Pixel) (i : ℕ) : UInt8 := UInt8.ofNat (p.toNat / 256 ^ i)

/-- The bytes of a pixel in the order in which the processor stores them. -/
def pixelBytes (p : Pixel) : List UInt8 := (List.range 4).map (pixelByte p)

@[simp] lemma length_pixelBytes (p : Pixel) : (pixelBytes p).length = 4 := by simp [pixelBytes]

variable {i : ℕ}

lemma getElem?_pixelBytes (p : Pixel) (hi : i < 4) :
    (pixelBytes p)[i]? = some (pixelByte p i) := by
  simp [pixelBytes, getElem?_range hi]

lemma getElem?_flatMap_pixelBytes (row : List Pixel) (k : ℕ) (hi : i < 4) :
    (row.flatMap pixelBytes)[4 * k + i]? = row[k]?.map (pixelByte · i) := by
  induction row generalizing k with
  | nil => simp
  | cons p row ih =>
    grind [pixelBytes, length_pixelBytes]

@[simp] lemma length_flatMap_pixelBytes (row : List Pixel) :
    (row.flatMap pixelBytes).length = 4 * row.length := by
  simp [length_flatMap, Nat.mul_comm]

structure RowCopy where
  address : ℕ
  row : List Pixel

def copyRow (m : Memory) (copy : RowCopy) : Memory :=
  m.write copy.address (copy.row.flatMap pixelBytes)

variable {copy : RowCopy} {p : Pixel}

lemma copyRow_apply {k : ℕ} (hp : copy.row[k]? = some p)
    (hi : i < 4) (m : Memory) : copyRow m copy (copy.address + (4 * k + i)) = pixelByte p i := by
  have hbyte := getElem?_flatMap_pixelBytes copy.row k hi
  rw [hp, Option.map_some] at hbyte
  obtain ⟨hlt, -⟩ := List.getElem?_eq_some_iff.mp hbyte
  exact Option.some.inj ((m.holds_write _ _ _ hlt).symm.trans hbyte)

lemma run_copyRow_of_outside {copies : List RowCopy} {a : ℕ}
    (h : ∀ copy ∈ copies, a < copy.address ∨ copy.address + 4 * copy.row.length ≤ a) (m : Memory) :
    run copyRow m copies a = m a := by
  induction copies generalizing m with
  | nil => rfl
  | cons copy copies ih =>
    rw [run_cons, ih (fun c hc => h c (mem_cons_of_mem _ hc)), copyRow,
      Memory.write_of_outside]
    rw [length_flatMap_pixelBytes]
    exact h copy mem_cons_self

/-! ## The device -/

structure FramebufferGeometry where
  width : ℕ
  height : ℕ
  pitch : ℕ
  bpp : ℕ

def sanitizeFbInfo (info : FramebufferGeometry) : FramebufferGeometry :=
  let maxDim := 4096
  let width := min (max info.width 1) maxDim
  let height := min (max info.height 1) maxDim
  let pitch :=
    if width * 4 ≤ info.pitch ∧ info.pitch ≤ width * 8 then info.pitch else width * 4
  let pitch := if pitch < width then width else pitch
  let bpp := if info.bpp = 24 ∨ info.bpp = 32 then info.bpp else 32
  ⟨width, height, pitch, bpp⟩

/-- A device has a buffer of `pitch * height` bytes at its address. -/
structure BitmapFramebufferDevice where
  width : ℕ
  height : ℕ
  pitch : ℕ
  addr : ℕ
  mapped : addr ≠ 0
  columns : 1 ≤ width
  rows : 4 * width ≤ pitch

variable {y x : ℕ}

namespace BitmapFramebufferDevice

def new (rawWidth rawHeight rawPitchBytes addr : ℕ) (haddr : addr ≠ 0) :
    BitmapFramebufferDevice :=
  let fbInfo := sanitizeFbInfo
    ⟨rawWidth % 2 ^ 32, rawHeight % 2 ^ 32, rawPitchBytes % 2 ^ 32, 32⟩
  { width := fbInfo.width
    height := fbInfo.height
    pitch := fbInfo.pitch
    addr := addr
    mapped := haddr
    columns := by
      simp only [fbInfo, sanitizeFbInfo]
      omega
    rows := by
      simp only [fbInfo, sanitizeFbInfo]
      split <;> split <;> omega }

/-- The device after `resize` in the loop of the host. -/
def resized (width height addr : ℕ) (haddr : addr ≠ 0) (hwidth : 1 ≤ width) :
    BitmapFramebufferDevice where
  width := width
  height := height
  pitch := width * 4
  addr := addr
  mapped := haddr
  columns := hwidth
  rows := by omega

variable (d : BitmapFramebufferDevice)

def stride : ℕ := d.pitch / 4

/-! ## The copies -/

variable (frame : List Pixel)

/-- Columns `x0..x1` of a row, if the frame has it. -/
def rowCopy (x0 x1 y : ℕ) : Option RowCopy :=
  let srcStart := y * d.width + x0
  let srcEnd := y * d.width + x1
  let dstStart := y * d.stride + x0
  if srcEnd ≤ frame.length then
    some ⟨d.addr + 4 * dstStart, (frame.drop srcStart).take (srcEnd - srcStart)⟩
  else none

def rowCopies (x0 x1 y0 y1 : ℕ) : List RowCopy :=
  (List.range' y0 (y1 - y0)).filterMap (d.rowCopy frame x0 x1)

def present : List RowCopy :=
  if d.pitch = 0 ∨ d.height = 0 then []
  else
    let copyWidth := min d.width d.stride
    let copyHeight := min d.height (frame.length / d.width)
    d.rowCopies frame 0 copyWidth 0 copyHeight

/-- The copies that `present_partial` makes, in order. -/
def presentPartial (dirtyRect : Rect) : List RowCopy :=
  if d.pitch = 0 ∨ d.height = 0 then []
  else
    match intersectRect dirtyRect ⟨0, 0, d.width, d.height⟩ with
    | none => []
    | some rect =>
      let x := rect.x.toNat
      let y := rect.y.toNat
      d.rowCopies frame x (x + rect.width) y (y + rect.height)

/-- Where the pixel of a column and a row begins. -/
def pixelAddr (x y : ℕ) : ℕ := d.addr + y * d.pitch + 4 * x

/-- Where the copies put it. -/
def wordAddr (x y : ℕ) : ℕ := d.addr + 4 * (y * d.stride + x)

variable {d}

lemma width_le_stride : d.width ≤ d.stride := by
  have := d.rows
  unfold stride
  omega

/-- The rows of the copies begin where the rows of the framebuffer do. -/
lemma wordAddr_eq_pixelAddr (h : 4 ∣ d.pitch ∨ d.height ≤ 1) (hy : y < d.height) (x : ℕ) :
    d.wordAddr x y = d.pixelAddr x y := by
  unfold wordAddr pixelAddr stride
  rcases h with h | h
  · have hpitch : 4 * (y * (d.pitch / 4)) = y * d.pitch := by
      rw [Nat.mul_left_comm, Nat.mul_div_cancel' h]
    omega
  · obtain rfl : y = 0 := by omega
    omega

/-- Rows of words do not overlap. -/
lemma wordAddr_lt_of_lt {x x' y y' : ℕ} (hx : x < d.stride) (hy : y < y') :
    d.wordAddr x y + 4 ≤ d.wordAddr x' y' := by
  have hrow : (y + 1) * d.stride ≤ y' * d.stride := Nat.mul_le_mul_right _ hy
  unfold wordAddr
  rw [Nat.succ_mul] at hrow
  omega

lemma wordAddr_inj {x' y' i' : ℕ} (hx : x < d.stride) (hx' : x' < d.stride) (hi : i < 4)
    (hi' : i' < 4) (h : d.wordAddr x y + i = d.wordAddr x' y' + i') : x = x' ∧ y = y' ∧ i = i' := by
  obtain rfl : y = y' := by
    rcases Nat.lt_trichotomy y y' with hy | hy | hy
    · have := @wordAddr_lt_of_lt d x x' y y' hx hy
      omega
    · exact hy
    · have := @wordAddr_lt_of_lt d x' x y' y hx' hy
      omega
  unfold wordAddr at h
  omega

/-! ## What the copies leave -/

variable {frame : List Pixel} {x0 x1 y0 y1 : ℕ}

lemma rowCopy_eq_some (h : d.rowCopy frame x0 x1 y = some copy) :
    y * d.width + x1 ≤ frame.length ∧ copy.address = d.wordAddr x0 y
      ∧ copy.row.length = x1 - x0 := by
  unfold rowCopy at h
  dsimp only at h
  split at h
  · rename_i hrow
    cases h
    refine ⟨hrow, rfl, ?_⟩
    rw [length_take, length_drop]
    omega
  · cases h

lemma mem_rowCopies (h : copy ∈ d.rowCopies frame x0 x1 y0 y1) :
    ∃ y, (y0 ≤ y ∧ y < y1) ∧ d.rowCopy frame x0 x1 y = some copy := by
  obtain ⟨y, hy, hcopy⟩ := mem_filterMap.mp h
  rw [mem_range'_1] at hy
  exact ⟨y, by omega, hcopy⟩

lemma run_rowCopies_of_outside {a : ℕ}
    (h : ∀ x y i, x0 ≤ x ∧ x < x1 → y0 ≤ y ∧ y < y1 → i < 4 → a ≠ d.wordAddr x y + i) (m : Memory) :
    run copyRow m (d.rowCopies frame x0 x1 y0 y1) a = m a := by
  refine run_copyRow_of_outside (fun copy hcopy => ?_) m
  obtain ⟨y, hy, hcopy⟩ := mem_rowCopies hcopy
  obtain ⟨-, haddress, hlength⟩ := rowCopy_eq_some hcopy
  rw [haddress, hlength]
  by_contra hin
  have ha := h (x0 + (a - d.wordAddr x0 y) / 4) y ((a - d.wordAddr x0 y) % 4) (by omega) hy
    (Nat.mod_lt _ (by omega))
  unfold wordAddr at ha hin
  omega

/-- A word in range holds its pixel of the frame. -/
lemma run_rowCopies_apply (hx1 : x1 ≤ d.width) (hx : x0 ≤ x ∧ x < x1)
    (hy : y0 ≤ y ∧ y < y1) (hi : i < 4) (hrow : y * d.width + x1 ≤ frame.length)
    (hp : frame[y * d.width + x]? = some p) (m : Memory) :
    run copyRow m (d.rowCopies frame x0 x1 y0 y1) (d.wordAddr x y + i) = pixelByte p i := by
  have hstride := d.width_le_stride
  have hrange : List.range' y0 (y1 - y0)
      = List.range' y0 (y - y0) ++ y :: List.range' (y + 1) (y1 - (y + 1)) := by
    have hlength : y1 - y0 = (y - y0) + (y1 - (y + 1) + 1) := by omega
    have hstart : y0 + (y - y0) = y := by omega
    rw [hlength, ← range'_append_1, hstart, range'_succ]
  obtain ⟨copy, hcopy⟩ : ∃ copy, d.rowCopy frame x0 x1 y = some copy := by
    simp [rowCopy, hrow]
  have hpixel : copy.row[x - x0]? = some p := by
    have hcolumn : y * d.width + x0 + (x - x0) = y * d.width + x := by omega
    simp only [rowCopy, if_pos hrow] at hcopy
    cases hcopy
    rw [getElem?_take_of_lt (by omega), getElem?_drop, hcolumn, hp]
  have haddress : d.wordAddr x y + i = copy.address + (4 * (x - x0) + i) := by
    rw [(rowCopy_eq_some hcopy).2.1]
    unfold wordAddr
    omega
  have hlater (m : Memory) : run copyRow m (d.rowCopies frame x0 x1 (y + 1) y1) (d.wordAddr x y + i)
      = m (d.wordAddr x y + i) := by
    refine run_rowCopies_of_outside (fun x' y' i' hx' hy' hi' heq => ?_) m
    have := (wordAddr_inj (by omega) (by omega) hi hi' heq).2.1
    omega
  rw [rowCopies, hrange, filterMap_append, filterMap_cons_some hcopy, run_append,
    run_cons]
  refine (hlater _).trans ?_
  rw [haddress]
  exact copyRow_apply hpixel hi _

def Inside (d : BitmapFramebufferDevice) (copy : RowCopy) : Prop :=
  d.addr ≤ copy.address ∧ copy.address + 4 * copy.row.length ≤ d.addr + d.pitch * d.height

lemma inside_of_mem_rowCopies (hx : x0 ≤ x1) (hx1 : x1 ≤ d.width) (hy1 : y1 ≤ d.height)
    (h : copy ∈ d.rowCopies frame x0 x1 y0 y1) : d.Inside copy := by
  obtain ⟨y, hy, hcopy⟩ := mem_rowCopies h
  obtain ⟨-, haddress, hlength⟩ := rowCopy_eq_some hcopy
  have hstride := d.width_le_stride
  have hrow : 4 * (y * d.stride + d.stride) ≤ d.pitch * d.height :=
    calc 4 * (y * d.stride + d.stride) = (4 * d.stride) * (y + 1) := by ring
      _ ≤ d.pitch * d.height := Nat.mul_le_mul (Nat.mul_div_le d.pitch 4) (by omega)
  unfold Inside
  rw [haddress, hlength]
  unfold wordAddr
  omega

section

variable (hframe : frame.length = d.width * d.height)
include hframe

/-- A frame of the size of the screen is copied whole. -/
lemma present_eq :
    d.present frame = d.rowCopies frame 0 d.width 0 d.height := by
  have hcolumns := d.columns
  have hrows := d.rows
  have hheight : frame.length / d.width = d.height := by
    rw [hframe, Nat.mul_div_cancel_left _ hcolumns]
  unfold present
  split
  · have hzero : d.height = 0 := by omega
    rw [hzero]
    rfl
  · dsimp only
    rw [hheight, Nat.min_self, Nat.min_eq_left d.width_le_stride]

lemma row_le (hx : x ≤ d.width) (hy : y < d.height) : y * d.width + x ≤ frame.length := by
  have hrow : (y + 1) * d.width ≤ d.height * d.width := Nat.mul_le_mul_right _ hy
  rw [hframe, Nat.mul_comm d.width]
  rw [Nat.succ_mul] at hrow
  omega

lemma present_apply (hx : x < d.width)
    (hy : y < d.height) (hi : i < 4) (hp : frame[y * d.width + x]? = some p)
    (m : Memory) :
    run copyRow m (d.present frame) (d.wordAddr x y + i) = pixelByte p i := by
  rw [present_eq hframe]
  exact run_rowCopies_apply le_rfl ⟨Nat.zero_le _, hx⟩ ⟨Nat.zero_le _, hy⟩ hi
    (row_le hframe le_rfl hy) hp m

end

/-- `present_partial` copies the rows and columns of a rectangle: the part of the dirty one that is
on the screen. -/
lemma exists_presentPartial_eq (dirty : Rect) :
    ∃ x0 x1 y0 y1, d.presentPartial frame dirty = d.rowCopies frame x0 x1 y0 y1
      ∧ x0 ≤ x1 ∧ x1 ≤ d.width ∧ y1 ≤ d.height
      ∧ ∀ x y, (x0 ≤ x ∧ x < x1) ∧ y0 ≤ y ∧ y < y1
        ↔ (x < d.width ∧ y < d.height) ∧ dirty.Contains x y := by
  have hrows := d.rows
  have hboth (x y : ℕ) := inClip_intersectRect (a := dirty) (b := ⟨0, 0, d.width, d.height⟩)
    (x := x) (y := y)
  have hscreen (x y : ℕ) :
      (⟨0, 0, d.width, d.height⟩ : Rect).Contains x y ↔ x < d.width ∧ y < d.height := by
    simp only [Rect.Contains]
    omega
  simp only [hscreen] at hboth
  unfold presentPartial
  split
  · refine ⟨0, 0, 0, 0, rfl, le_rfl, Nat.zero_le _, Nat.zero_le _, fun x y => ?_⟩
    omega
  · cases hrect : intersectRect dirty ⟨0, 0, d.width, d.height⟩ with
    | none =>
      refine ⟨0, 0, 0, 0, rfl, le_rfl, Nat.zero_le _, Nat.zero_le _, fun x y => ?_⟩
      have := hboth x y
      simp only [hrect, InClip, reduceCtorEq, false_and, exists_false, false_iff] at this
      constructor
      · omega
      · exact fun hin => absurd hin.symm this
    | some rect =>
      obtain ⟨⟨hx, hx2⟩, hy, hy2⟩ := intersectRect_sub_right hrect
      dsimp only at hx hx2 hy hy2 ⊢
      refine ⟨_, _, _, _, rfl, Nat.le_add_right _ _, by omega, by omega, fun x y => ?_⟩
      rw [and_comm (b := dirty.Contains x y), ← hboth x y, hrect, inClip_some]
      simp only [Rect.Contains]
      omega

/-! ## The device of words

`FramebufferDevice` has the memory as a canvas with `pitch / 4` words to a row. -/

/-- The words of the buffer are the pixels of the canvas. -/
structure Backs (d : BitmapFramebufferDevice) (m : Memory) (e : FramebufferDevice) : Prop where
  width : e.width = d.width
  height : e.height = d.height
  pitch : e.pitch = d.pitch
  words : ∀ x y p, e.pixel x y = some p → ∀ i < 4, m (d.wordAddr x y + i) = pixelByte p i

variable {m : Memory} {e : FramebufferDevice} {r : BitmapRenderer}

lemma Backs.lt_stride (h : d.Backs m e) (hp : e.pixel x y = some p) :
    x < d.stride := by
  obtain ⟨canvas, hcanvas, hp⟩ := Option.bind_eq_some_iff.mp hp
  have hwidth : canvas.width = d.stride := by rw [(e.rows canvas hcanvas).1, h.pitch, stride]
  unfold Canvas.pixel at hp
  split at hp
  · omega
  · cases hp

variable (hr : r.width = d.width ∧ r.height = d.height)
include hr

/-- A renderer of the size of the screen fits the canvas. -/
lemma Backs.fits (h : d.Backs m e) : e.Fits r where
  width := hr.1.trans h.width.symm
  height := hr.2.trans h.height.symm
  rows := by
    have := d.rows
    rw [h.width, h.pitch]
    omega

/-- If the device's pixels in range become those of a frame and the others stay, and the copies are
the rows and columns in range, the buffer follows. -/
lemma Backs.rowCopies (h : d.Backs m e) (hx1 : x1 ≤ d.width) (hy1 : y1 ≤ d.height)
    {e' : FramebufferDevice} (hwrite : ∃ marks, e' = e.write marks)
    (hpixel : ∀ x y, e'.pixel x y = if (x0 ≤ x ∧ x < x1) ∧ y0 ≤ y ∧ y < y1
      then (e.pixel x y).bind fun _ => r.pixel x y else e.pixel x y) :
    d.Backs (run copyRow m (d.rowCopies r.storage x0 x1 y0 y1)) e' where
  width := hwrite.elim fun _ heq => heq ▸ h.width
  height := hwrite.elim fun _ heq => heq ▸ h.height
  pitch := hwrite.elim fun _ heq => heq ▸ h.pitch
  words := by
    intro x y p hp i hi
    have hstride := d.width_le_stride
    rw [hpixel] at hp
    split at hp
    · rename_i hin
      obtain ⟨q, -, hp⟩ := Option.bind_eq_some_iff.mp hp
      have hsize : r.storage.length = d.width * d.height := by rw [r.size, hr.1, hr.2]
      unfold Canvas.pixel at hp
      rw [if_pos (by omega), hr.1] at hp
      exact run_rowCopies_apply hx1 hin.1 hin.2 hi (row_le hsize hx1 (by omega)) hp m
    · rename_i hout
      rw [run_rowCopies_of_outside, h.words x y p hp i hi]
      rintro x' y' i' hx' hy' hi' heq
      obtain ⟨rfl, rfl, -⟩ := wordAddr_inj (h.lt_stride hp) (by omega) hi hi' heq
      exact hout ⟨hx', hy'⟩

lemma Backs.present (h : d.Backs m e) :
    d.Backs (run copyRow m (d.present r.storage)) (e.present r.storage) := by
  rw [present_eq (by rw [r.size, hr.1, hr.2])]
  refine h.rowCopies hr le_rfl le_rfl (e.present_eq_write r.storage) fun x y => ?_
  rw [FramebufferDevice.pixel_present (h.fits hr), h.width, h.height]
  simp

lemma Backs.presentPartial (h : d.Backs m e) (dirty : Rect) :
    d.Backs (run copyRow m (d.presentPartial r.storage dirty))
      (e.presentPartial r.storage dirty) := by
  obtain ⟨x0, x1, y0, y1, heq, -, hx1, hy1, hiff⟩ := @exists_presentPartial_eq d r.storage dirty
  rw [heq]
  refine h.rowCopies hr hx1 hy1 (e.presentPartial_eq_write r.storage dirty) fun x y => ?_
  rw [FramebufferDevice.pixel_presentPartial (h.fits hr), h.width, h.height]
  simp only [hiff]

omit hr

/-! ## Safety and agreement -/

/-- For frames of the size of the screen: `present` leaves the frame, and `present_partial` leaves
the same at the pixels of the dirty rectangle that are on the screen, and nothing elsewhere. -/
structure Agrees (d : BitmapFramebufferDevice) : Prop where
  presents : ∀ (m : Memory) (frame : List Pixel), frame.length = d.width * d.height →
    ∀ x y p, x < d.width → y < d.height → frame[y * d.width + x]? = some p →
    (run copyRow m (d.present frame)).Holds (d.pixelAddr x y) (pixelBytes p)
  dirty : ∀ (m : Memory) (frame : List Pixel) (dirty : Rect),
    frame.length = d.width * d.height →
    ∀ x y i, x < d.width ∧ y < d.height → dirty.Contains x y → i < 4 →
    run copyRow m (d.presentPartial frame dirty) (d.pixelAddr x y + i)
      = run copyRow m (d.present frame) (d.pixelAddr x y + i)
  rest : ∀ (m : Memory) (frame : List Pixel) (dirty : Rect) (a : ℕ),
    frame.length = d.width * d.height →
    (∀ x y i, x < d.width ∧ y < d.height → dirty.Contains x y → i < 4 →
      a ≠ d.pixelAddr x y + i) →
    run copyRow m (d.presentPartial frame dirty) a = m a

lemma inside_present (h : copy ∈ d.present frame) : d.Inside copy := by
  unfold present at h
  split at h
  · cases h
  · exact inside_of_mem_rowCopies (Nat.zero_le _) (min_le_left _ _) (min_le_left _ _) h

lemma inside_presentPartial {dirty : Rect}
    (h : copy ∈ d.presentPartial frame dirty) : d.Inside copy := by
  obtain ⟨x0, x1, y0, y1, heq, hx, hx1, hy1, -⟩ := @exists_presentPartial_eq d frame dirty
  rw [heq] at h
  exact inside_of_mem_rowCopies hx hx1 hy1 h

/-- If the rows begin where they should, all is well. -/
lemma agrees_of_aligned (h : 4 ∣ d.pitch ∨ d.height ≤ 1) : d.Agrees where
  presents := by
    intro m frame hframe x y p hx hy hp i hi
    rw [length_pixelBytes] at hi
    rw [← wordAddr_eq_pixelAddr h hy, present_apply hframe hx hy hi hp, getElem?_pixelBytes p hi]
  dirty := by
    intro m frame dirty hframe x y i hin hdirty hi
    obtain ⟨x0, x1, y0, y1, heq, -, hx1, hy1, hiff⟩ := @exists_presentPartial_eq d frame dirty
    obtain ⟨hx, hy⟩ := (hiff x y).mpr ⟨hin, hdirty⟩
    obtain ⟨p, hp⟩ : ∃ p, frame[y * d.width + x]? = some p := by
      have := row_le hframe hin.1 hin.2
      exact ⟨_, getElem?_eq_getElem this⟩
    rw [← wordAddr_eq_pixelAddr h hin.2, present_apply hframe hin.1 hin.2 hi hp, heq]
    exact run_rowCopies_apply hx1 hx hy hi (row_le hframe hx1 hin.2) hp m
  rest := by
    intro m frame dirty a hframe ha
    obtain ⟨x0, x1, y0, y1, heq, -, -, -, hiff⟩ := @exists_presentPartial_eq d frame dirty
    rw [heq]
    refine run_rowCopies_of_outside (fun x y i hx hy hi => ?_) m
    obtain ⟨hin, hdirty⟩ := (hiff x y).mp ⟨hx, hy⟩
    rw [wordAddr_eq_pixelAddr h hin.2]
    exact ha x y i hin hdirty hi

/-- A frame of the size of the screen whose pixels all have the value one. -/
def ones (d : BitmapFramebufferDevice) : List Pixel := List.replicate (d.width * d.height) 1#32

lemma length_ones : d.ones.length = d.width * d.height := length_replicate

lemma ones_second (hheight : 1 < d.height) : d.ones[1 * d.width + 0]? = some 1#32 := by
  have hlt : d.width < d.width * d.height := (Nat.lt_mul_iff_one_lt_right d.columns).mpr hheight
  rw [ones, Nat.one_mul, Nat.add_zero, getElem?_replicate, if_pos hlt]

/-- If they do not, the second row of a frame of ones begins with another byte. -/
lemma present_ones_ne (hpitch : ¬ 4 ∣ d.pitch) (hheight : 1 < d.height) (m : Memory) :
    run copyRow m (d.present d.ones) (d.pixelAddr 0 1) ≠ pixelByte 1#32 0 := by
  have haddr : d.pixelAddr 0 1 = d.wordAddr 0 1 + d.pitch % 4 := by
    unfold pixelAddr wordAddr stride
    omega
  rw [haddr, present_apply length_ones d.columns hheight (Nat.mod_lt _ (by omega))
    (ones_second hheight)]
  have hrest : d.pitch % 4 = 1 ∨ d.pitch % 4 = 2 ∨ d.pitch % 4 = 3 := by omega
  rcases hrest with h | h | h <;> rw [h] <;> decide

/-- Whatever the frame and the rectangle, only the buffer is written. The frame is presented as it
should, whole and in part, exactly if the pitch is a multiple of four or there is no second row. -/
theorem presentation_iff (d : BitmapFramebufferDevice) : (∀ (frame : List Pixel) (dirty : Rect),
      ∀ copy ∈ d.present frame ++ d.presentPartial frame dirty, d.Inside copy)
    ∧ (d.Agrees ↔ 4 ∣ d.pitch ∨ d.height ≤ 1) := by
  refine ⟨fun frame dirty copy hcopy => ?_, fun h => ?_, agrees_of_aligned⟩
  · rcases mem_append.mp hcopy with hcopy | hcopy
    · exact inside_present hcopy
    · exact inside_presentPartial hcopy
  · by_contra hcond
    rw [not_or, Nat.not_le] at hcond
    have hrow := h.presents (fun _ => 0) d.ones length_ones 0 1 1#32 d.columns hcond.2
      (ones_second hcond.2) 0 (by simp)
    rw [getElem?_pixelBytes _ (by decide)] at hrow
    exact present_ones_ne hcond.1 hcond.2 _ (Option.some.inj hrow).symm

/-- A framebuffer with one column, two rows and five bytes to a row. -/
def oddPitch : BitmapFramebufferDevice := new 1 2 5 4096 (by decide)

/-- The pixel of its second row is written one byte too early. -/
theorem present_misplaced : (oddPitch.pitch, oddPitch.pixelAddr 0 1) = (5, 4101)
      ∧ (oddPitch.present [1#32, 1#32]).map RowCopy.address = [4096, 4100]
      ∧ ¬ (run copyRow (fun _ => 0) (oddPitch.present [1#32, 1#32])).Holds (oddPitch.pixelAddr 0 1)
        (pixelBytes 1#32) := by
  refine ⟨by decide, by decide, fun h => ?_⟩
  have hbyte := h 0 (by decide)
  revert hbyte
  decide +kernel

/-! ## Runs -/

/-- The frame has the size of the screen, and outside the rectangle it is the last one. -/
structure Damages (d : BitmapFramebufferDevice) (last frame : List Pixel) (dirty : Rect) :
    Prop where
  length : frame.length = d.width * d.height
  same : ∀ x y, x < d.width → y < d.height → ¬ dirty.Contains x y →
    frame[y * d.width + x]? = last[y * d.width + x]?

/-- Over the last frame, what is damaged is as good as the whole frame. -/
lemma Damages.presentPartial (hlast : last.length = d.width * d.height) {dirty : Rect}
    (h : d.Damages last frame dirty) (m : Memory) :
    run copyRow (run copyRow m (d.present last)) (d.presentPartial frame dirty)
      = run copyRow m (d.present frame) := by
  obtain ⟨x0, x1, y0, y1, heq, -, hx1, hy1, hiff⟩ := @exists_presentPartial_eq d frame dirty
  have hstride := d.width_le_stride
  funext a
  rw [heq]
  by_cases ha : ∃ x y i, (x < d.width ∧ y < d.height) ∧ i < 4 ∧ a = d.wordAddr x y + i
  · obtain ⟨x, y, i, hin, hi, rfl⟩ := ha
    have hp := getElem?_eq_getElem (row_le h.length hin.1 hin.2)
    rw [present_apply h.length hin.1 hin.2 hi hp]
    by_cases hdirty : dirty.Contains x y
    · obtain ⟨hx, hy⟩ := (hiff x y).mpr ⟨hin, hdirty⟩
      exact run_rowCopies_apply hx1 hx hy hi (row_le h.length hx1 hin.2) hp _
    · rw [run_rowCopies_of_outside,
        present_apply hlast hin.1 hin.2 hi ((h.same x y hin.1 hin.2 hdirty).symm.trans hp)]
      intro x' y' i' hx hy hi' heq
      obtain ⟨rfl, rfl, -⟩ := wordAddr_inj (by omega) (by omega) hi hi' heq
      exact hdirty ((hiff x y).mp ⟨hx, hy⟩).2
  · rw [present_eq hlast, present_eq h.length]
    iterate 3 rw [run_rowCopies_of_outside]
    all_goals
      rintro x y i hx hy hi rfl
      exact ha ⟨x, y, i, by omega, hi, rfl⟩

/-- If a first frame is presented whole and of each later one what differs from the one before, the
memory is left as by the last frame alone, to the byte. -/
theorem present_damage (d : BitmapFramebufferDevice) (m : Memory) (first : List Pixel × Rect)
    (frames : List (List Pixel × Rect))
    (hfirst : first.1.length = d.width * d.height)
    (hframes : (first :: frames).IsChain fun last frame => d.Damages last.1 frame.1 frame.2) :
    run (fun m frame => run copyRow m (d.presentPartial frame.1 frame.2))
        (run copyRow m (d.present first.1)) frames
      = run copyRow m (d.present (frames.getLastD first).1) := by
  induction frames generalizing first with
  | nil => rfl
  | cons frame frames ih =>
    obtain ⟨hframe, hframes⟩ := isChain_cons_cons.mp hframes
    rw [run_cons, hframe.presentPartial hfirst, ih _ hframe.length hframes, getLastD_cons]

/-- On a screen of one row and two columns the right pixel changes. -/
theorem present_damage_right :
    let d := new 2 1 8 4096 (by decide)
    let m : Memory := fun _ => 0
    run copyRow (run copyRow m (d.present [0, 0])) (d.presentPartial [0, 1] ⟨1, 0, 1, 1⟩)
      = run copyRow m (d.present [0, 1]) := by
  intro d m
  have hdamages : d.Damages [0, 0] [0, 1] ⟨1, 0, 1, 1⟩ := by
    refine ⟨rfl, fun x y (hx : x < 2) (hy : y < 1) hout => ?_⟩
    obtain rfl : x = 0 := by
      simp only [Rect.Contains] at hout
      omega
    obtain rfl : y = 0 := by omega
    rfl
  exact present_damage d m ([0, 0], ⟨0, 0, 0, 0⟩) [([0, 1], ⟨1, 0, 1, 1⟩)] rfl
    (isChain_pair.mpr hdamages)

/-- Whatever is presented, whole or in part, the buffer stays in step with the canvas. -/
theorem backs_run (h : d.Backs m e) (frames : List (BitmapRenderer × Option Rect))
    (hframes : ∀ frame ∈ frames, frame.1.width = d.width ∧ frame.1.height = d.height) :
    d.Backs
      (run (fun m (r, dirty) =>
        run copyRow m (dirty.elim (d.present r.storage) (d.presentPartial r.storage))) m frames)
      (run (fun e (r, dirty) => dirty.elim (e.present r.storage) (e.presentPartial r.storage)) e
        frames) := by
  induction frames generalizing m e with
  | nil => exact h
  | cons frame frames ih =>
    obtain ⟨r, dirty⟩ := frame
    obtain ⟨hframe, hframes⟩ := forall_mem_cons.mp hframes
    refine ih ?_ hframes
    cases dirty with
    | none => exact h.present hframe
    | some dirty => exact h.presentPartial hframe dirty

/-- A screen of two pixels, one below the other, with room for another beside each. It is presented
whole and then in its second row. -/
theorem backs_run_padded :
    let d := new 1 2 8 4096 (by decide)
    let e : FramebufferDevice := ⟨1, 2, 8, some ⟨2, 2, [0, 0, 0, 0], rfl⟩, by simp⟩
    d.Backs
      (run copyRow (run copyRow (fun _ => 0) (d.present [1, 2]))
        (d.presentPartial [1, 3] ⟨0, 1, 1, 1⟩))
      ((e.present [1, 2]).presentPartial [1, 3] ⟨0, 1, 1, 1⟩) := by
  intro d e
  have hbacks : d.Backs (fun _ => 0) e := by
    refine ⟨rfl, rfl, rfl, fun x y p hp i hi => ?_⟩
    obtain rfl : p = 0 := by
      simp [e, FramebufferDevice.pixel, Canvas.pixel] at hp
      simpa using mem_of_getElem? hp.2
    simp [pixelByte]
  exact backs_run hbacks [(⟨1, 2, [1, 2], rfl⟩, none), (⟨1, 2, [1, 3], rfl⟩, some ⟨0, 1, 1, 1⟩)]
    (by simp; decide)

end BitmapFramebufferDevice

end ThingOS.Compositor
