import ThingOS.Common.RowMajor
import ThingOS.Compositor.Raster
import ThingOS.Kernel.Task.Elf

/-!
# Decoding bitmap files

`decode_bmp` of `compositor/src/bitmap.rs`, in a build with overflow checks and with a `usize` of 64
bits. The numbers of the header may be anything. The product of stride and height saturates, but the
offset of the pixels is added to it after that, and the vector of pixels is made before one is read.
The loops never read beyond the file: the last row ends where the size was checked.
-/

namespace ThingOS.Compositor

open Checked

inductive BmpPanic where
  | overflow
  | capacity
  | outOfBounds
  | mismatch
deriving DecidableEq

/-- `isize::MAX`, which bounds the bytes of a slice or a vector. -/
def isizeMax : ℕ := 2 ^ 63 - 1

/-- The fields of the headers that the decoder reads. -/
structure BmpHeader where
  dataOffset : ℕ
  width : ℤ
  height : ℤ
  planes : ℕ
  bpp : ℕ
  compression : ℕ

def readBmpHeader (data : List UInt8) : BmpHeader where
  dataOffset := readLe data 10 4
  width := asI32 (readLe data 18 4)
  height := asI32 (readLe data 22 4)
  planes := readLe data 26 2
  bpp := readLe data 28 2
  compression := readLe data 30 4

/-- A result of arithmetic on `usize`. -/
def usize (n : ℕ) : Except BmpPanic ℕ := if n < u64Size then .ok n else .error .overflow

/-- The sixteen bytes more of the `Arc` that the pixels move to are not counted. -/
def newBitmap (width height : ℕ) (pixels : List Pixel) : Except BmpPanic Bitmap := do
  let _ ← usize (width * height)
  if h : pixels.length = width * height then .ok ⟨width, height, pixels, h⟩ else .error .mismatch

/-- `data[i] as u32`. -/
def byteAt (data : List UInt8) (i : ℕ) : Except BmpPanic Pixel :=
  match data[i]? with
  | some byte => .ok (BitVec.ofNat 32 byte.toNat)
  | none => .error .outOfBounds

/-- `vec![0u32; n]`. -/
def zeroed (n : ℕ) : Except BmpPanic (List Pixel) :=
  if 4 * n ≤ isizeMax then .ok (List.replicate n 0) else .error .capacity

namespace BmpHeader

variable (header : BmpHeader)

/-- `unsigned_abs`. -/
def widthU : ℕ := header.width.natAbs

def heightU : ℕ := header.height.natAbs

def stride : Except BmpPanic ℕ :=
  if header.bpp = 24 then do
    let bytes ← usize (header.widthU * 3)
    let padded ← usize (bytes + 3)
    usize (padded / 4 * 4)
  else usize (header.widthU * 4)

/-- A pixel of a row that starts at `srcStart`; there is none where the loop breaks off. -/
def decodePixel (data : List UInt8) (srcStart col : ℕ) : Except BmpPanic (Option Pixel) :=
  if header.bpp = 24 then do
    let idx ← usize (srcStart + (← usize (col * 3)))
    if data.length < (← usize (idx + 3)) then .ok none
    else do
      let b ← byteAt data idx
      let g ← byteAt data (← usize (idx + 1))
      let r ← byteAt data (← usize (idx + 2))
      .ok (some (0xFF000000#32 ||| r <<< 16 ||| g <<< 8 ||| b))
  else do
    let idx ← usize (srcStart + (← usize (col * 4)))
    if data.length < (← usize (idx + 4)) then .ok none
    else do
      let b ← byteAt data idx
      let g ← byteAt data (← usize (idx + 1))
      let r ← byteAt data (← usize (idx + 2))
      let a ← byteAt data (← usize (idx + 3))
      .ok (some (a <<< 24 ||| r <<< 16 ||| g <<< 8 ||| b))

/-- The loop over the columns of a row. -/
def decodeRow (data : List UInt8) (srcStart row : ℕ) :
    (cols : List ℕ) → (pixels : List Pixel) → Except BmpPanic (List Pixel)
  | [], pixels => .ok pixels
  | col :: cols, pixels => do
    match ← header.decodePixel data srcStart col with
    | none => .ok pixels
    | some pixel =>
      let i ← usize ((← usize (row * header.widthU)) + col)
      if i < pixels.length then decodeRow data srcStart row cols (pixels.set i pixel)
      else .error .outOfBounds

/-- The row of the file that holds a row of the image. -/
def srcRow (row : ℕ) : Except BmpPanic ℕ :=
  if 0 < header.height then do
    let last ← sub .overflow header.heightU 1
    sub .overflow last row
  else .ok row

def decodeRows (data : List UInt8) (stride : ℕ) :
    (rows : List ℕ) → (pixels : List Pixel) → Except BmpPanic (List Pixel)
  | [], pixels => .ok pixels
  | row :: rows, pixels => do
    let srcStart ← usize (header.dataOffset + (← usize ((← header.srcRow row) * stride)))
    let pixels ← header.decodeRow data srcStart row (List.range header.widthU) pixels
    decodeRows data stride rows pixels

/-- The pixels of a file that is long enough. -/
def decodePixels (data : List UInt8) (stride : ℕ) : Except BmpPanic (Option Bitmap) := do
  let pixels ← zeroed (← usize (header.widthU * header.heightU))
  let pixels ← header.decodeRows data stride (List.range header.heightU) pixels
  let bmp ← newBitmap header.widthU header.heightU pixels
  .ok (some bmp)

def decodeBody (data : List UInt8) : Except BmpPanic (Option Bitmap) := do
  let stride ← header.stride
  let size ← usize (header.dataOffset + min (stride * header.heightU) (u64Size - 1))
  if data.length < size then .ok none else header.decodePixels data stride

/-- The planes, the depth and the compression that are supported. -/
def Supported : Prop :=
  header.planes = 1 ∧ (header.bpp = 24 ∨ header.bpp = 32) ∧ header.compression = 0

end BmpHeader

def decodeBmp (data : List UInt8) : Except BmpPanic (Option Bitmap) :=
  if data.length < 54 ∨ data.take 2 ≠ [0x42, 0x4D] then .ok none
  else
    let header := readBmpHeader data
    if header.planes ≠ 1 ∨ (header.bpp ≠ 24 ∧ header.bpp ≠ 32) ∨ header.compression ≠ 0 then
      .ok none
    else header.decodeBody data

/-! ## The loops -/

lemma usize_of_lt {n : ℕ} (h : n < u64Size) : usize n = .ok n := if_pos h

lemma usize_bind {α : Type} {n : ℕ} (h : n < u64Size) (f : ℕ → Except BmpPanic α) :
    usize n >>= f = f n := by
  rw [usize_of_lt h, ok_bind]

def byteOf (data : List UInt8) (i : ℕ) : Pixel := BitVec.ofNat 32 (data.getD i 0).toNat

lemma byteAt_bind {α : Type} {data : List UInt8} {i : ℕ} (h : i < data.length)
    (f : Pixel → Except BmpPanic α) : byteAt data i >>= f = f (byteOf data i) := by
  unfold byteAt byteOf
  rw [List.getElem?_eq_getElem h, List.getD_eq_getElem _ _ h]
  rfl

namespace BmpHeader

variable (header : BmpHeader) {data : List UInt8}

def bytesPerPixel : ℕ := if header.bpp = 24 then 3 else 4

def rowLength : ℕ :=
  if header.bpp = 24 then (header.widthU * 3 + 3) / 4 * 4 else header.widthU * 4

/-- The pixel whose bytes start at `idx`. -/
def pixelAt (data : List UInt8) (idx : ℕ) : Pixel :=
  let alpha := if header.bpp = 24 then 0xFF000000#32 else byteOf data (idx + 3) <<< 24
  alpha ||| byteOf data (idx + 2) <<< 16 ||| byteOf data (idx + 1) <<< 8 ||| byteOf data idx

lemma mul_bytesPerPixel_le : header.widthU * header.bytesPerPixel ≤ header.rowLength := by
  unfold bytesPerPixel rowLength
  split <;> omega

lemma stride_eq (hwidth : header.widthU ≤ 2 ^ 31) : header.stride = .ok header.rowLength := by
  have hsize : u64Size = 2 ^ 64 := rfl
  unfold stride rowLength
  split
  · rw [usize_bind (by omega), usize_bind (by omega), usize_of_lt (by omega)]
  · rw [usize_of_lt (by omega)]

lemma decodePixel_eq (hlength : data.length < u64Size) {srcStart col : ℕ}
    (hend : srcStart + col * header.bytesPerPixel + header.bytesPerPixel ≤ data.length) :
    header.decodePixel data srcStart col
      = .ok (some (header.pixelAt data (srcStart + col * header.bytesPerPixel))) := by
  unfold decodePixel pixelAt bytesPerPixel at *
  split
  · grind [usize_bind, byteAt_bind]
  · rename_i hbpp
    simp only [hbpp, if_false] at hend ⊢
    rw [usize_bind (by omega), usize_bind (by omega), usize_bind (by omega), if_neg (by omega),
      byteAt_bind (by omega), usize_bind (by omega), byteAt_bind (by omega), usize_bind (by omega),
      byteAt_bind (by omega), usize_bind (by omega), byteAt_bind (by omega)]

/-- The columns from `c` on, of a row that starts at `srcStart`. What was written before is `done`;
the rest of the pixels is still zero. -/
lemma decodeRow_eq (hlength : data.length < u64Size) {srcStart row : ℕ}
    (hend : srcStart + header.widthU * header.bytesPerPixel ≤ data.length) (n c m : ℕ)
    (hcols : c + n = header.widthU) (done : List Pixel)
    (hdone : done.length = row * header.widthU + c)
    (hcount : row * header.widthU + header.widthU < u64Size) :
    header.decodeRow data srcStart row (List.range' c n) (done ++ List.replicate (n + m) 0)
      = .ok (done ++ (List.range' c n).map
          (fun col => header.pixelAt data (srcStart + col * header.bytesPerPixel))
        ++ List.replicate m 0) := by
  induction n generalizing c done with
  | zero => simp [decodeRow]
  | succ n ih =>
    have hbytes : (c + 1) * header.bytesPerPixel ≤ header.widthU * header.bytesPerPixel :=
      Nat.mul_le_mul_right _ (by omega)
    rw [Nat.succ_mul] at hbytes
    rw [List.range'_succ, decodeRow, decodePixel_eq header hlength (by omega), ok_bind]
    dsimp only
    rw [usize_bind (by omega), usize_bind (by omega), if_pos (by simp; omega), ← hdone,
      Nat.add_right_comm n 1 m, RowMajor.set_length_append,
      ih (c + 1) (by omega) _ (by simp; omega)]
    simp

/-- The row of the file that holds a row of the image. -/
def fileRow (row : ℕ) : ℕ := if 0 < header.height then header.heightU - 1 - row else row

lemma srcRow_eq {row : ℕ} (hrow : row < header.heightU) :
    header.srcRow row = .ok (header.fileRow row) ∧ header.fileRow row < header.heightU := by
  unfold srcRow fileRow
  split
  · rw [sub_eq_ok.mpr ⟨by omega, rfl⟩, ok_bind]
    exact ⟨sub_eq_ok.mpr ⟨by omega, rfl⟩, by omega⟩
  · exact ⟨rfl, hrow⟩

def rowStart (row : ℕ) : ℕ := header.dataOffset + header.fileRow row * header.rowLength

def imageRow (data : List UInt8) (row : ℕ) : List Pixel :=
  (List.range header.widthU).map
    fun col => header.pixelAt data (header.rowStart row + col * header.bytesPerPixel)

lemma rowStart_add_le {row : ℕ} (hrow : row < header.heightU) :
    header.rowStart row + header.rowLength
      ≤ header.dataOffset + header.rowLength * header.heightU := by
  have hrows : (header.fileRow row + 1) * header.rowLength ≤ header.heightU * header.rowLength :=
    Nat.mul_le_mul_right _ (header.srcRow_eq hrow).2
  rw [Nat.succ_mul, Nat.mul_comm header.heightU] at hrows
  unfold rowStart
  omega

lemma decodeRows_eq (hlength : data.length < u64Size)
    (hinside : header.dataOffset + header.rowLength * header.heightU ≤ data.length)
    (hcount : header.widthU * header.heightU < u64Size) (n r : ℕ) (hrows : r + n = header.heightU)
    (done : List Pixel) (hdone : done.length = r * header.widthU) :
    header.decodeRows data header.rowLength (List.range' r n)
        (done ++ List.replicate (n * header.widthU) 0)
      = .ok (done ++ (List.range' r n).flatMap (header.imageRow data)) := by
  induction n generalizing r done with
  | zero => simp [decodeRows]
  | succ n ih =>
    have hrow : r < header.heightU := by omega
    have hend := header.rowStart_add_le hrow
    have hbytes := header.mul_bytesPerPixel_le
    have hwritten : (r + 1) * header.widthU ≤ header.widthU * header.heightU := by
      rw [Nat.mul_comm header.widthU]
      exact Nat.mul_le_mul_right _ hrow
    rw [Nat.succ_mul] at hwritten
    have hstart : header.dataOffset + header.fileRow r * header.rowLength = header.rowStart r := rfl
    rw [List.range'_succ, decodeRows, (header.srcRow_eq hrow).1, ok_bind,
      usize_bind (by omega), usize_bind (by omega), hstart, List.range_eq_range', Nat.succ_mul,
      Nat.add_comm (n * header.widthU),
      header.decodeRow_eq hlength (by omega) header.widthU 0 (n * header.widthU) (by omega) done
        (by omega) (by omega), ok_bind, ih (r + 1) (by omega)]
    · simp [imageRow, List.range_eq_range']
    · simp [hdone]
      ring

def image (data : List UInt8) : List Pixel :=
  (List.range header.heightU).flatMap (header.imageRow data)

lemma length_image (data : List UInt8) :
    (header.image data).length = header.widthU * header.heightU := by
  simp [image, imageRow, List.length_flatMap, Nat.mul_comm]

/-- The bytes that the check of the size asks for. -/
def claimedSize : ℕ := header.dataOffset + min (header.rowLength * header.heightU) (u64Size - 1)

lemma decodePixels_eq (hlength : data.length < u64Size)
    (hinside : header.dataOffset + header.rowLength * header.heightU ≤ data.length)
    (hcount : header.widthU * header.heightU < u64Size) :
    header.decodePixels data header.rowLength
      = if isizeMax < 4 * (header.widthU * header.heightU) then .error .capacity
        else .ok (some ⟨header.widthU, header.heightU, header.image data,
          header.length_image data⟩) := by
  rw [decodePixels, usize_bind hcount]
  by_cases hlarge : isizeMax < 4 * (header.widthU * header.heightU)
  · rw [if_pos hlarge, zeroed, if_neg (Nat.not_le.mpr hlarge)]
    rfl
  · have hrows := header.decodeRows_eq hlength hinside hcount header.heightU 0 (Nat.zero_add _) []
      (by simp)
    rw [List.nil_append, ← List.range_eq_range', Nat.mul_comm header.heightU] at hrows
    rw [if_neg hlarge, zeroed, if_pos (Nat.not_lt.mp hlarge), ok_bind, hrows,
      ok_bind, newBitmap, usize_bind hcount]
    exact congrArg (· >>= _) (dif_pos (header.length_image data))

lemma decodeBody_eq (hwidth : header.widthU ≤ 2 ^ 31) (hheight : header.heightU ≤ 2 ^ 31)
    (hlength : data.length ≤ isizeMax) :
    header.decodeBody data
      = if u64Size ≤ header.claimedSize then .error .overflow
        else if data.length < header.claimedSize then .ok none
        else if isizeMax < 4 * (header.widthU * header.heightU) then .error .capacity
        else .ok (some ⟨header.widthU, header.heightU, header.image data,
          header.length_image data⟩) := by
  have hsize : u64Size = 2 ^ 64 := rfl
  have hmax : isizeMax = 2 ^ 63 - 1 := rfl
  have hclaimed : header.dataOffset + min (header.rowLength * header.heightU) (u64Size - 1)
      = header.claimedSize := rfl
  have hcount : header.widthU * header.heightU ≤ 2 ^ 31 * 2 ^ 31 := Nat.mul_le_mul hwidth hheight
  rw [decodeBody, stride_eq header hwidth, ok_bind, hclaimed]
  by_cases hoverflow : u64Size ≤ header.claimedSize
  · rw [if_pos hoverflow, usize, if_neg (Nat.not_lt.mpr hoverflow)]
    rfl
  rw [if_neg hoverflow, usize_bind (Nat.not_le.mp hoverflow)]
  by_cases hshort : data.length < header.claimedSize
  · rw [if_pos hshort, if_pos hshort]
  · rw [if_neg hshort, if_neg hshort, decodePixels_eq header (by omega) (by omega) (by omega)]

/-- The numbers of a header are of 32 bits. -/
structure Ranged : Prop where
  offset : header.dataOffset < 2 ^ 32
  width : -2 ^ 31 ≤ header.width ∧ header.width < 2 ^ 31
  height : -2 ^ 31 ≤ header.height ∧ header.height < 2 ^ 31

/-- The one size at which the product of stride and height saturates, with an offset on top. -/
def Saturating : Prop :=
  header.bpp = 32 ∧ header.width = -2 ^ 31 ∧ header.height = -2 ^ 31 ∧ 0 < header.dataOffset

/-- A file that holds all its rows, of which the pixels do not fit a vector. -/
def Oversized (data : List UInt8) : Prop :=
  header.dataOffset + header.rowLength * header.heightU ≤ data.length
    ∧ isizeMax < 4 * (header.widthU * header.heightU)

variable {header}

section

variable (h : header.Ranged)
include h

lemma Ranged.widthU_le : header.widthU ≤ 2 ^ 31 := by
  have := h.width
  unfold widthU
  omega

lemma Ranged.heightU_le : header.heightU ≤ 2 ^ 31 := by
  have := h.height
  unfold heightU
  omega

lemma Ranged.widthU_eq_iff :
    header.widthU = 2 ^ 31 ↔ header.width = -2 ^ 31 := by
  have := h.width
  unfold widthU
  omega

lemma Ranged.heightU_eq_iff :
    header.heightU = 2 ^ 31 ↔ header.height = -2 ^ 31 := by
  have := h.height
  unfold heightU
  omega

/-- Any other image leaves room for an offset. -/
lemma Ranged.rows_le
    (hsmall : header.bpp = 24 ∨ ¬ (header.widthU = 2 ^ 31 ∧ header.heightU = 2 ^ 31)) :
    header.rowLength * header.heightU ≤ 2 ^ 64 - 2 ^ 33 := by
  have hwidth := h.widthU_le
  have hheight := h.heightU_le
  unfold rowLength
  split
  · calc (header.widthU * 3 + 3) / 4 * 4 * header.heightU
        ≤ (2 ^ 31 * 3 + 3) * 2 ^ 31 := Nat.mul_le_mul (by omega) hheight
      _ ≤ 2 ^ 64 - 2 ^ 33 := by norm_num
  · rename_i hbpp
    rcases not_and_or.mp (hsmall.resolve_left hbpp) with hne | hne
    · calc header.widthU * 4 * header.heightU
          ≤ (2 ^ 31 - 1) * 4 * 2 ^ 31 := Nat.mul_le_mul (by omega) hheight
        _ ≤ 2 ^ 64 - 2 ^ 33 := by norm_num
    · calc header.widthU * 4 * header.heightU
          ≤ 2 ^ 31 * 4 * (2 ^ 31 - 1) := Nat.mul_le_mul (by omega) (by omega)
        _ ≤ 2 ^ 64 - 2 ^ 33 := by norm_num

/-- Only the largest image overflows. -/
lemma Ranged.overflow_iff (hbpp : header.bpp = 24 ∨ header.bpp = 32) :
    u64Size ≤ header.claimedSize ↔ header.Saturating := by
  have hsize : u64Size = 2 ^ 64 := rfl
  have hoffset := h.offset
  unfold claimedSize Saturating
  rw [← h.widthU_eq_iff, ← h.heightU_eq_iff]
  by_cases hlargest : header.bpp = 32 ∧ header.widthU = 2 ^ 31 ∧ header.heightU = 2 ^ 31
  · obtain ⟨hdepth, hwidth, hheight⟩ := hlargest
    have hrows : header.rowLength * header.heightU = 2 ^ 64 := by
      rw [rowLength, hdepth, hwidth, hheight]
      norm_num
    rw [hrows]
    simp only [hdepth, hwidth, hheight, true_and]
    omega
  · have hrows := h.rows_le (by tauto)
    refine iff_of_false (by omega) fun hall => hlargest ⟨hall.1, hall.2.1, hall.2.2.1⟩

end

end BmpHeader

/-! ## Every file -/

lemma readLe_lt (data : List UInt8) (offset n : ℕ) : readLe data offset n < 256 ^ n := by
  induction n generalizing offset with
  | zero => simp [readLe]
  | succ n ih =>
    have hbyte := (data.getD offset 0).toNat_lt
    have hrest := ih (offset + 1)
    rw [readLe, Nat.pow_succ]
    omega

lemma ranged_readBmpHeader (data : List UInt8) : (readBmpHeader data).Ranged := by
  refine ⟨?_, ?_, ?_⟩ <;> dsimp only [readBmpHeader]
  · simpa using readLe_lt data 10 4
  · exact inI32_asI32 _
  · exact inI32_asI32 _

/-- A file with a header that the decoder goes on from. -/
def BmpAccepted (data : List UInt8) : Prop :=
  54 ≤ data.length ∧ data.take 2 = [0x42, 0x4D] ∧ (readBmpHeader data).Supported

lemma decodeBmp_of_accepted {data : List UInt8} (h : BmpAccepted data) :
    decodeBmp data = (readBmpHeader data).decodeBody data := by
  obtain ⟨hlength, hmagic, hplanes, hbpp, hcompression⟩ := h
  rw [decodeBmp, if_neg (by simp [hmagic, hlength])]
  exact if_neg (by omega)

lemma decodeBmp_of_not_accepted {data : List UInt8} (h : ¬ BmpAccepted data) :
    decodeBmp data = .ok none := by
  unfold decodeBmp
  split
  · rfl
  · rename_i hstart
    rw [not_or, Nat.not_lt, not_not] at hstart
    refine if_pos ?_
    by_contra hsupported
    exact h ⟨hstart.1, hstart.2, by omega, by omega, by omega⟩

/-- Decoding a file gives nothing or a bitmap, except for the two kinds of header that make it
panic; in no case does it read outside the file. -/
theorem decodeBmp_safe_iff (data : List UInt8) (hlength : data.length ≤ isizeMax) :
    ((∃ result, decodeBmp data = .ok result
        ∧ ∀ bmp, result = some bmp → bmp.pixels.length = bmp.width * bmp.height)
      ↔ ¬ (BmpAccepted data
        ∧ ((readBmpHeader data).Saturating ∨ (readBmpHeader data).Oversized data)))
    ∧ decodeBmp data ≠ .error .outOfBounds := by
  by_cases haccepted : BmpAccepted data
  case neg =>
    rw [decodeBmp_of_not_accepted haccepted]
    exact ⟨iff_of_true ⟨none, rfl, nofun⟩ fun h => haccepted h.1, nofun⟩
  have hranged := ranged_readBmpHeader data
  have hmax : isizeMax < u64Size - 1 := by decide
  rw [decodeBmp_of_accepted haccepted,
    BmpHeader.decodeBody_eq _ hranged.widthU_le hranged.heightU_le hlength,
    ← hranged.overflow_iff haccepted.2.2.2.1]
  split
  · rename_i hoverflow
    exact ⟨iff_of_false nofun (not_not.mpr ⟨haccepted, .inl hoverflow⟩), nofun⟩
  rename_i hoverflow
  have hclaimed : data.length < (readBmpHeader data).claimedSize
      ↔ ¬ (readBmpHeader data).dataOffset
        + (readBmpHeader data).rowLength * (readBmpHeader data).heightU ≤ data.length := by
    unfold BmpHeader.claimedSize at *
    omega
  split
  · rename_i hshort
    refine ⟨iff_of_true ⟨none, rfl, nofun⟩ ?_, nofun⟩
    rintro ⟨-, hover | ⟨hinside, -⟩⟩
    · exact hoverflow hover
    · exact hclaimed.mp hshort hinside
  rename_i hlong
  split
  · rename_i hlarge
    exact ⟨iff_of_false nofun (not_not.mpr
      ⟨haccepted, .inr ⟨not_not.mp (mt hclaimed.mpr hlong), hlarge⟩⟩), nofun⟩
  · rename_i hsmall
    refine ⟨iff_of_true ⟨_, rfl, fun bmp _ => bmp.size⟩ ?_, nofun⟩
    rintro ⟨-, hover | ⟨-, hlarge⟩⟩
    · exact hoverflow hover
    · exact hsmall hlarge

/-! ## Headers of files -/

/-- The fields that the decoder does not look at. -/
structure BmpExtras where
  fileFields : Vector UInt8 8
  infoSize : Vector UInt8 4
  infoRest : Vector UInt8 20

def BmpExtras.blank : BmpExtras := ⟨.replicate 8 0, .replicate 4 0, .replicate 20 0⟩

/-- The headers of a file without compression; `width` and `height` as `u32`. -/
def writeBmpHeader (extras : BmpExtras) (dataOffset width height bpp : ℕ) : List UInt8 :=
  [0x42, 0x4D] ++ extras.fileFields.toList ++ Elf.writeLe 4 dataOffset ++ extras.infoSize.toList
    ++ Elf.writeLe 4 width ++ Elf.writeLe 4 height ++ Elf.writeLe 2 1 ++ Elf.writeLe 2 bpp
    ++ Elf.writeLe 4 0 ++ extras.infoRest.toList

def onePixel : List UInt8 := writeBmpHeader .blank 54 1 1 24 ++ [0x30, 0x20, 0x10, 0]

theorem decodeBmp_safe_onePixel : (∃ result, decodeBmp onePixel = .ok result
      ∧ ∀ bmp, result = some bmp → bmp.pixels.length = bmp.width * bmp.height)
    ∧ decodeBmp onePixel ≠ .error .outOfBounds := by
  have hsafe := decodeBmp_safe_iff onePixel (by decide +kernel)
  refine ⟨hsafe.1.mpr ?_, hsafe.2⟩
  rintro ⟨-, hsaturating | hoversized⟩
  · exact absurd hsaturating.1 (by decide +kernel)
  · exact absurd hoversized.2 (by decide +kernel)

/-- A header of 54 bytes, with both sides `i32::MIN`: the size saturates, and adding the offset to
it overflows. -/
theorem decodeBmp_overflows : (writeBmpHeader .blank 54 (2 ^ 31) (2 ^ 31) 32).length = 54
      ∧ decodeBmp (writeBmpHeader .blank 54 (2 ^ 31) (2 ^ 31) 32) = .error .overflow := by
  decide +kernel

end ThingOS.Compositor
