import ThingOS.Common.Packed
import ThingOS.Compositor.BmpDecoder

/-!
# Bitmap files and their images

An image written to a file, with 24 or 32 bits a pixel and its rows from the bottom or from the top,
comes back from the decoder, whatever is written between the headers and the pixels, behind the rows
and at the end.
-/

namespace ThingOS.Compositor

open Elf List

/-! ## The headers -/

@[simp] lemma length_writeLe (n value : ℕ) : (writeLe n value).length = n := by
  induction n generalizing value with
  | zero => rfl
  | succ n ih => rw [writeLe, length_cons, ih]

lemma readLe_writeLe (before after : List UInt8) (n value : ℕ) :
    readLe (before ++ writeLe n value ++ after) before.length n = value % 256 ^ n := by
  induction n generalizing before value with
  | zero => simp [readLe, Nat.mod_one]
  | succ n ih =>
    have hshift : before ++ writeLe (n + 1) value ++ after
        = (before ++ [UInt8.ofNat (value % 256)]) ++ writeLe n (value / 256) ++ after := by
      simp [writeLe]
    have hrest := ih (before ++ [UInt8.ofNat (value % 256)]) (value / 256)
    rw [← hshift, length_append, length_singleton] at hrest
    have hfirst : (before ++ writeLe (n + 1) value ++ after).getD before.length 0
        = UInt8.ofNat (value % 256) := by
      simp [writeLe]
    rw [readLe, hrest, hfirst, Nat.pow_succ, Nat.mul_comm (256 ^ n), Nat.mod_mul]
    simp

/-- A number is read where it was written, at the end of what a file starts with. -/
lemma readLe_of_start {data : List UInt8} {offset n value : ℕ} (before : List UInt8)
    (hdata : before ++ writeLe n value <+: data) (hoffset : before.length = offset) :
    readLe data offset n = value % 256 ^ n := by
  obtain ⟨after, rfl⟩ := hdata
  rw [← hoffset, readLe_writeLe]

section Header

variable (extras : BmpExtras) (dataOffset width height bpp : ℕ) (rest : List UInt8)

@[simp] lemma length_writeBmpHeader :
    (writeBmpHeader extras dataOffset width height bpp).length = 54 := by
  simp [writeBmpHeader]

lemma take_writeBmpHeader :
    (writeBmpHeader extras dataOffset width height bpp ++ rest).take 2 = [0x42, 0x4D] := by
  simp [writeBmpHeader]

lemma readBmpHeader_write :
    readBmpHeader (writeBmpHeader extras dataOffset width height bpp ++ rest)
      = ⟨dataOffset % 2 ^ 32, asI32 (width % 2 ^ 32 : ℕ), asI32 (height % 2 ^ 32 : ℕ), 1,
        bpp % 2 ^ 16, 0⟩ := by
  set data := writeBmpHeader extras dataOffset width height bpp ++ rest with hdata
  -- what stands before each of the fields
  let magic := [0x42, 0x4D] ++ extras.fileFields.toList
  let info := magic ++ writeLe 4 dataOffset ++ extras.infoSize.toList
  let sides := info ++ writeLe 4 width ++ writeLe 4 height
  let format := sides ++ writeLe 2 1 ++ writeLe 2 bpp
  have hformat : format ++ writeLe 4 0 <+: data := by
    simp [hdata, writeBmpHeader, format, sides, info, magic]
  have hoffset : readLe data 10 4 = dataOffset % 2 ^ 32 :=
    readLe_of_start magic (.trans (by simp [format, sides, info]) hformat) (by simp [magic])
  have hwidth : readLe data 18 4 = width % 2 ^ 32 :=
    readLe_of_start info (.trans (by simp [format, sides]) hformat) (by simp [info, magic])
  have hheight : readLe data 22 4 = height % 2 ^ 32 :=
    readLe_of_start (info ++ writeLe 4 width) (.trans (by simp [format, sides]) hformat)
      (by simp [info, magic])
  have hplanes : readLe data 26 2 = 1 % 2 ^ 16 :=
    readLe_of_start sides (.trans (by simp [format]) hformat) (by simp [sides, info, magic])
  have hbpp : readLe data 28 2 = bpp % 2 ^ 16 :=
    readLe_of_start (sides ++ writeLe 2 1) (.trans (by simp [format]) hformat)
      (by simp [sides, info, magic])
  have hcompression : readLe data 30 4 = 0 % 2 ^ 32 :=
    readLe_of_start format hformat (by simp [format, sides, info, magic])
  rw [readBmpHeader, hoffset, hwidth, hheight, hplanes, hbpp, hcompression,
    Nat.zero_mod, Nat.mod_eq_of_lt (Nat.one_lt_two_pow (by norm_num))]

end Header

/-! ## Pixels -/

inductive BmpDepth where
  | bgr24
  | bgra32

/-- One of the four bytes of a pixel, blue first. -/
def channel (p : Pixel) (k : ℕ) : UInt8 := .ofBitVec ((p >>> (8 * k)).setWidth 8)

namespace BmpDepth

def bits : BmpDepth → ℕ
  | bgr24 => 24
  | bgra32 => 32

def bytes : BmpDepth → ℕ
  | bgr24 => 3
  | bgra32 => 4

/-- The bytes that fill a row up to a multiple of four. -/
def padding (depth : BmpDepth) (width : ℕ) : ℕ := (4 - width * depth.bytes % 4) % 4

def encodePixel (depth : BmpDepth) (p : Pixel) : List UInt8 :=
  (List.range depth.bytes).map (channel p)

/-- What a file of this depth says of a pixel: with 24 bits it is opaque. -/
def shown : BmpDepth → Pixel → Pixel
  | bgr24, p => 0xFF000000#32 ||| p
  | bgra32, p => p

@[simp] lemma length_encodePixel (depth : BmpDepth) (p : Pixel) :
    (depth.encodePixel p).length = depth.bytes := by
  simp [encodePixel]

end BmpDepth

lemma toNat_channel (p : Pixel) (k : ℕ) : (channel p k).toNat = Packed.component p k := by
  rw [Packed.component_eq, ← Nat.shiftRight_eq_div_pow, ← BitVec.toNat_ushiftRight]
  exact BitVec.toNat_setWidth ..

/-- The four bytes of a pixel make it up again. -/
lemma or_channels (p : Pixel) :
    Packed.pack (channel p 3).toNat (channel p 2).toNat (channel p 1).toNat (channel p 0).toNat
      = p := by
  simp only [toNat_channel]
  exact Packed.pack_component p

/-- Without the fourth byte a pixel is opaque. -/
lemma or_three_channels (p : Pixel) :
    Packed.pack 255 (channel p 2).toNat (channel p 1).toNat (channel p 0).toNat
      = 0xFF000000#32 ||| p := by
  simp only [toNat_channel]
  exact (Packed.or_eq_pack p).symm

/-! ## Files -/

/-- An image to be written to a file, and what the file has besides it: the fields of the headers
and the bytes that the decoder does not look at. The sides and the offset fit the headers. -/
structure BmpFile where
  image : Bitmap
  depth : BmpDepth
  topDown : Bool
  extras : BmpExtras
  gap : List UInt8
  padding : ℕ → List UInt8
  trailing : List UInt8
  width_pos : 1 ≤ image.width
  height_pos : 1 ≤ image.height
  width_lt : image.width < 2 ^ 31
  height_le : image.height ≤ 2 ^ 31
  height_lt : topDown = false → image.height < 2 ^ 31
  offset_lt : 54 + gap.length < 2 ^ 32
  padding_length : ∀ row, (padding row).length = depth.padding image.width

namespace BmpFile

variable (file : BmpFile)

def pixel (row col : ℕ) : Pixel := file.image.pixels.getD (row * file.image.width + col) 0

def pixelBytes (row : ℕ) : List (List UInt8) :=
  (List.range file.image.width).map fun col => file.depth.encodePixel (file.pixel row col)

def encodeRow (row : ℕ) : List UInt8 := (file.pixelBytes row).flatten ++ file.padding row

/-- The rows of the image in the order of the file. -/
def rowOrder : List ℕ :=
  if file.topDown then List.range file.image.height else (List.range file.image.height).reverse

/-- The height as the headers have it, negative for rows from the top. -/
def heightField : ℕ :=
  if file.topDown then 2 ^ 32 - file.image.height else file.image.height

def encode : List UInt8 :=
  writeBmpHeader file.extras (54 + file.gap.length) file.image.width file.heightField
      file.depth.bits
    ++ (file.gap ++ (file.rowOrder.map file.encodeRow).flatten ++ file.trailing)

def shown : Bitmap where
  width := file.image.width
  height := file.image.height
  pixels := file.image.pixels.map file.depth.shown
  size := by rw [length_map, file.image.size]

/-- The headers as they are read. -/
def header : BmpHeader where
  dataOffset := 54 + file.gap.length
  width := file.image.width
  height := if file.topDown then -file.image.height else file.image.height
  planes := 1
  bpp := file.depth.bits
  compression := 0

lemma asI32_heightField :
    asI32 (file.heightField % 2 ^ 32 : ℕ)
      = if file.topDown then -(file.image.height : ℤ) else file.image.height := by
  have hle := file.height_le
  unfold heightField
  cases htop : file.topDown
  · have hlt := file.height_lt htop
    rw [if_neg nofun, if_neg nofun]
    exact asI32_eq ⟨by omega, by omega⟩ (by omega)
  · rw [if_pos rfl, if_pos rfl]
    exact asI32_eq ⟨by omega, by omega⟩ (by omega)

lemma readBmpHeader_encode : readBmpHeader file.encode = file.header := by
  have hwidth := file.width_lt
  have hwide : asI32 (file.image.width % 2 ^ 32 : ℕ) = file.image.width :=
    asI32_eq ⟨by omega, by omega⟩ (by omega)
  have hbits : file.depth.bits % 2 ^ 16 = file.depth.bits := by cases file.depth <;> rfl
  rw [encode, readBmpHeader_write, asI32_heightField, hbits, hwide,
    Nat.mod_eq_of_lt file.offset_lt]
  rfl

@[simp] lemma header_widthU : file.header.widthU = file.image.width := Int.natAbs_natCast _

@[simp] lemma header_heightU : file.header.heightU = file.image.height := by
  unfold header BmpHeader.heightU
  split <;> simp

@[simp] lemma header_bytesPerPixel : file.header.bytesPerPixel = file.depth.bytes := by
  unfold header BmpHeader.bytesPerPixel
  cases file.depth <;> rfl

lemma header_rowLength :
    file.header.rowLength
      = file.image.width * file.depth.bytes + file.depth.padding file.image.width := by
  have hbpp : file.header.bpp = file.depth.bits := rfl
  rw [BmpHeader.rowLength, header_widthU, hbpp]
  unfold BmpDepth.padding
  cases file.depth
  · rw [if_pos (by rfl), BmpDepth.bytes]
    omega
  · rw [if_neg (by decide), BmpDepth.bytes]
    omega

/-! ### Places in a file -/

lemma length_pixelBytes (row : ℕ) :
    (file.pixelBytes row).flatten.length = file.image.width * file.depth.bytes := by
  simp [pixelBytes, length_flatten, Function.comp_def]

lemma length_encodeRow (row : ℕ) : (file.encodeRow row).length = file.header.rowLength := by
  rw [header_rowLength, encodeRow, length_append, padding_length, length_pixelBytes]

lemma length_rows :
    (file.rowOrder.map file.encodeRow).flatten.length
      = file.header.rowLength * file.image.height := by
  have hlength : file.rowOrder.length = file.image.height := by
    unfold rowOrder
    split <;> simp
  simp [length_flatten, Function.comp_def, length_encodeRow, hlength, Nat.mul_comm]

lemma getElem?_rowOrder {row : ℕ} (hrow : row < file.image.height) :
    file.rowOrder[file.header.fileRow row]? = some row := by
  have hheight : file.header.height
      = if file.topDown then -(file.image.height : ℤ) else file.image.height := rfl
  rw [BmpHeader.fileRow, rowOrder, header_heightU, hheight]
  cases file.topDown
  · grind
  · simp only [if_true]
    rw [if_neg (by omega), getElem?_range hrow]

lemma getElem?_encode {row i : ℕ} (hrow : row < file.image.height)
    (hi : i < file.header.rowLength) :
    file.encode[file.header.rowStart row + i]? = (file.encodeRow row)[i]? := by
  have hstart : file.header.rowStart row + i
      = 54 + (file.gap.length + (file.header.fileRow row * file.header.rowLength + i)) := by
    have hoffset : file.header.dataOffset = 54 + file.gap.length := rfl
    rw [BmpHeader.rowStart, hoffset]
    ring
  have hend : file.header.fileRow row * file.header.rowLength + i
      < (file.rowOrder.map file.encodeRow).flatten.length := by
    have hfile := (file.header.srcRow_eq (file.header_heightU.symm ▸ hrow)).2
    rw [length_rows, Nat.mul_comm file.header.rowLength, ← header_heightU]
    exact RowMajor.index_lt hfile hi
  rw [hstart, encode, getElem?_append_right (by simp), length_writeBmpHeader,
    Nat.add_sub_cancel_left, append_assoc, getElem?_append_right (Nat.le_add_right _ _),
    Nat.add_sub_cancel_left, getElem?_append_left hend,
    RowMajor.getElem?_flatten (by simp [length_encodeRow]) hi, getElem?_map,
    file.getElem?_rowOrder hrow]
  rfl

lemma byteOf_encode {row col k : ℕ} (hrow : row < file.image.height)
    (hcol : col < file.image.width) (hk : k < file.depth.bytes) :
    byteOf file.encode (file.header.rowStart row + col * file.depth.bytes + k)
      = BitVec.ofNat 32 (channel (file.pixel row col) k).toNat := by
  have hpixels : col * file.depth.bytes + k < file.image.width * file.depth.bytes :=
    RowMajor.index_lt hcol hk
  have hrowLength := file.header_rowLength
  have hbyte : file.encode[file.header.rowStart row + col * file.depth.bytes + k]?
      = some (channel (file.pixel row col) k) := by
    rw [Nat.add_assoc, file.getElem?_encode hrow (by omega), encodeRow,
      getElem?_append_left (file.length_pixelBytes row ▸ hpixels),
      RowMajor.getElem?_flatten (by simp [pixelBytes]) hk]
    simp [pixelBytes, hcol, BmpDepth.encodePixel, hk]
  rw [byteOf, getD_eq_getElem?_getD, hbyte, Option.getD_some]

lemma pixelAt_encode {row col : ℕ} (hrow : row < file.image.height)
    (hcol : col < file.image.width) :
    file.header.pixelAt file.encode (file.header.rowStart row + col * file.depth.bytes)
      = file.depth.shown (file.pixel row col) := by
  have hbpp : file.header.bpp = file.depth.bits := rfl
  have hbyte := fun k => file.byteOf_encode (k := k) hrow hcol
  have hfirst := hbyte 0
  rw [Nat.add_zero] at hfirst
  unfold BmpHeader.pixelAt
  rw [hbpp]
  cases hdepth : file.depth <;> rw [hdepth] at hbyte hfirst
  · rw [if_pos (by rfl), hbyte 2 (by decide), hbyte 1 (by decide), hfirst (by decide)]
    exact or_three_channels _
  · rw [if_neg (by decide), hbyte 3 (by decide), hbyte 2 (by decide), hbyte 1 (by decide),
      hfirst (by decide)]
    exact or_channels _

lemma image_encode : file.header.image file.encode = file.shown.pixels := by
  unfold BmpHeader.image BmpHeader.imageRow
  rw [header_heightU, header_widthU, header_bytesPerPixel]
  refine RowMajor.flatMap_range_eq (w := file.image.width) (h := file.image.height)
    file.shown.size _ fun row hrow col hcol => ?_
  have hplace : row * file.image.width + col < file.image.pixels.length := by
    rw [file.image.size, Nat.mul_comm file.image.width]
    exact RowMajor.index_lt hrow hcol
  rw [file.pixelAt_encode hrow hcol, pixel, getD_eq_getElem _ _ hplace]
  simp [shown, hplace]

lemma length_encode_ge :
    file.header.dataOffset + file.header.rowLength * file.image.height ≤ file.encode.length := by
  have hoffset : file.header.dataOffset = 54 + file.gap.length := rfl
  rw [hoffset, encode, length_append, length_append, length_append, length_rows,
    length_writeBmpHeader]
  omega

lemma accepted_encode : BmpAccepted file.encode := by
  have hoffset : file.header.dataOffset = 54 + file.gap.length := rfl
  have hlength := file.length_encode_ge
  refine ⟨by omega, take_writeBmpHeader _ _ _ _ _ _, ?_⟩
  rw [readBmpHeader_encode]
  have hbits : file.depth.bits = 24 ∨ file.depth.bits = 32 := by cases file.depth <;> decide
  exact ⟨rfl, hbits, rfl⟩

end BmpFile

/-- A file shows the image that was written to it. -/
theorem decodeBmp_encode (file : BmpFile) (hfile : file.encode.length ≤ isizeMax)
    (himage : 4 * (file.image.width * file.image.height) ≤ isizeMax) :
    decodeBmp file.encode = .ok (some file.shown) := by
  have hmax : isizeMax < u64Size := by decide
  have hwidth : file.header.widthU ≤ 2 ^ 31 := by
    rw [file.header_widthU]
    exact file.width_lt.le
  have hheight : file.header.heightU ≤ 2 ^ 31 := by
    rw [file.header_heightU]
    exact file.height_le
  have hsize : file.header.claimedSize ≤ file.encode.length := by
    have hlength := file.length_encode_ge
    rw [BmpHeader.claimedSize, file.header_heightU]
    omega
  rw [decodeBmp_of_accepted file.accepted_encode, file.readBmpHeader_encode,
    file.header.decodeBody_eq hwidth hheight hfile, if_neg (by omega), if_neg (by omega),
    if_neg (by rw [file.header_widthU, file.header_heightU]; omega)]
  simp only [Except.ok.injEq, Option.some.injEq, BmpFile.shown, Bitmap.mk.injEq]
  exact ⟨file.header_widthU, file.header_heightU, file.image_encode⟩

/-- Two by two pixels, with rows from the bottom, two bytes behind each of them and one before. -/
def twoRows : BmpFile where
  image := ⟨2, 2, [0xFF112233#32, 0xFF445566#32, 0xFF778899#32, 0xFFAABBCC#32], rfl⟩
  depth := .bgr24
  topDown := false
  extras := .blank
  gap := [7]
  padding row := [UInt8.ofNat row, 9]
  trailing := []
  width_pos := by decide
  height_pos := by decide
  width_lt := by decide
  height_le := by decide
  height_lt := by decide
  offset_lt := by decide
  padding_length _ := rfl

theorem decodeBmp_twoRows : decodeBmp twoRows.encode = .ok (some twoRows.image) :=
  decodeBmp_encode twoRows (by decide +kernel) (by decide +kernel)

end ThingOS.Compositor
