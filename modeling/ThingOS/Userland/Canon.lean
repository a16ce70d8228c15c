import ThingOS.Abi.Symbol

/-!
# The symbols of user programs

The part of `canon` in `userland/src/lib.rs` that the kernel's table does not name. Some codes stand
for two of its names: `ICON_NAME` is the code of `ICON`, `ACTIVE` that of `ACTIVATED`, `FOCUSABLE`
that of `FOCUSED_INDEX`.
-/

namespace ThingOS.Canon

/-! ## Widgets -/

def role := canon 'R' 'O' 'L'
def widget := canon 'W' 'G' 'T'
def label := canon 'L' 'B' 'L'
def itemLabel := canon 'I' 'T' 'L'
def active := canon 'A' 'C' 'T'
def parent := canon 'P' 'A' 'R'
def iconName := canon 'I' 'C' 'N'
def action := canon 'A' 'C' 'N'
def description := canon 'D' 'S' 'C'
def focusable := canon 'F' 'O' 'C'
def tabIndex := canon 'T' 'B' 'I'
def minWidth := canon 'M' 'N' 'W'
def maxWidth := canon 'M' 'X' 'W'
def minHeight := canon 'M' 'N' 'H'
def maxHeight := canon 'M' 'X' 'H'
def gap := canon 'G' 'A' 'P'
def scrollY := canon 'S' 'C' 'Y'
def mouseX := canon 'M' 'S' 'X'
def mouseY := canon 'M' 'S' 'Y'
def mouseDown := canon 'M' 'D' 'N'
def binds := canon 'B' 'N' 'D'
def notification := canon 'N' 'T' 'F'
def ack := canon 'A' 'C' 'K'
def scope := canon 'S' 'C' 'P'

/-! ## Windows and surfaces -/

def title := canon 'T' 'T' 'L'
def isRoot := canon 'I' 'S' 'R'
def isPlaceRoot := canon 'I' 'P' 'R'
def place := canon 'P' 'L' 'C'
def modeIndex := canon 'M' 'D' 'X'
def tileMode := canon 'T' 'L' 'M'
def isMono := canon 'M' 'O' 'N'
def textColor := canon 'T' 'X' 'C'
def bgColor := canon 'B' 'G' 'C'

end ThingOS.Canon
