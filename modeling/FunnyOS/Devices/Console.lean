import FunnyOS.Kernel.KString
import FunnyOS.Lib.For

/-!
# The console

`src/kernel/console.c`: characters are drawn into the framebuffer, and the screen scrolls by moving
its rows of pixels. Text goes to the VGA text buffer and to the serial line as well. The framebuffer
and the VGA buffer are memory of their own, and the serial line is given by what it is handed.
-/

namespace FunnyOS.Devices

open Prog

/-! ## Constants -/

/-- `VGA_WIDTH`. -/
abbrev vgaWidth : Nat := 80

/-- `VGA_HEIGHT`. -/
abbrev vgaHeight : Nat := 25

/-- `VGA_ATTRIBUTE`. -/
abbrev vgaAttribute : UInt16 := 0x07

/-- `VGA_CRTC_INDEX_PORT`. -/
abbrev vgaCrtcIndexPort : Nat := 0x3D4

/-- `VGA_CRTC_DATA_PORT`. -/
abbrev vgaCrtcDataPort : Nat := 0x3D5

/-- `FB_CHAR_WIDTH`. -/
abbrev fbCharWidth : Nat := 12

/-- `FB_CHAR_HEIGHT`. -/
abbrev fbCharHeight : Nat := 20

/-- `FB_GLYPH_WIDTH`. -/
abbrev fbGlyphWidth : Nat := 5

/-- `FB_GLYPH_HEIGHT`. -/
abbrev fbGlyphHeight : Nat := 7

/-- `FB_GLYPH_SCALE_X`. -/
abbrev fbGlyphScaleX : Nat := 2

/-- `FB_GLYPH_SCALE_Y`. -/
abbrev fbGlyphScaleY : Nat := 2

/-- `FB_GLYPH_OFFSET_X`. -/
abbrev fbGlyphOffsetX : Nat := 1

/-- `FB_GLYPH_OFFSET_Y`. -/
abbrev fbGlyphOffsetY : Nat := 2

/-- `BOOTINFO_CONSOLE_VGA_TEXT`. -/
abbrev bootinfoConsoleVgaText : UInt16 := 0x0002

/-- `BOOTINFO_CONSOLE_FRAMEBUFFER`. -/
abbrev bootinfoConsoleFramebuffer : UInt16 := 0x0004

/-- `BOOTINFO_FRAMEBUFFER_FORMAT_BGRX`. -/
abbrev bootinfoFramebufferFormatBgrx : UInt32 := 1

/-! ## The state -/

/-- `BootInfo`, the fields for the console. -/
structure ConsoleBootInfo where
  consoleFlags : UInt16
  framebufferBase : UInt64
  framebufferWidth : UInt32
  framebufferHeight : UInt32
  framebufferPixelsPerScanline : UInt32
  framebufferFormat : UInt32
deriving DecidableEq, Repr

/-- The variables of the console, the pixels from `g_framebuffer` on, the VGA text buffer, and what
has been sent to the ports and to the serial line, the last first. `written` is no variable of the
source: it lists the numbers of the pixels that have been written. -/
structure ConsoleState where
  row : Nat
  col : Nat
  vgaEnabled : Bool
  framebufferEnabled : Bool
  width : Nat
  height : Nat
  pitch : Nat
  columns : Nat
  rows : Nat
  fg : UInt32
  bg : UInt32
  framebuffer : Nat → UInt32
  vga : Nat → UInt16
  ports : List (Nat × UInt8)
  serial : List UInt8
  written : List Nat

/-- `framebuffer_color`. -/
def framebufferColor (format : UInt32) (r g b : UInt8) : UInt32 :=
  if format = bootinfoFramebufferFormatBgrx then
    b.toUInt32 ||| g.toUInt32 <<< 8 ||| r.toUInt32 <<< 16
  else r.toUInt32 ||| g.toUInt32 <<< 8 ||| b.toUInt32 <<< 16

/-- `serial_write_byte`. -/
def serialWriteByte (value : UInt8) (s : ConsoleState) : ConsoleState :=
  { s with serial := value :: s.serial }

/-- `io_out8`. -/
def ConsoleState.ioOut8 (port : Nat) (value : UInt8) (s : ConsoleState) : ConsoleState :=
  { s with ports := (port, value) :: s.ports }

/-! ## Glyphs -/

/-- The bits of the characters that have a glyph of their own, row by row. -/
def glyphs : List (UInt8 × List UInt8) := [
  (0x41, [0x04, 0x0A, 0x11, 0x11, 0x1F, 0x11, 0x11]),
  (0x42, [0x1E, 0x11, 0x11, 0x1E, 0x11, 0x11, 0x1E]),
  (0x43, [0x0E, 0x11, 0x10, 0x10, 0x10, 0x11, 0x0E]),
  (0x44, [0x1C, 0x12, 0x11, 0x11, 0x11, 0x12, 0x1C]),
  (0x45, [0x1F, 0x10, 0x10, 0x1E, 0x10, 0x10, 0x1F]),
  (0x46, [0x1F, 0x10, 0x10, 0x1E, 0x10, 0x10, 0x10]),
  (0x47, [0x0E, 0x11, 0x10, 0x17, 0x11, 0x11, 0x0E]),
  (0x48, [0x11, 0x11, 0x11, 0x1F, 0x11, 0x11, 0x11]),
  (0x49, [0x1F, 0x04, 0x04, 0x04, 0x04, 0x04, 0x1F]),
  (0x4A, [0x1F, 0x02, 0x02, 0x02, 0x12, 0x12, 0x0C]),
  (0x4B, [0x11, 0x12, 0x14, 0x18, 0x14, 0x12, 0x11]),
  (0x4C, [0x10, 0x10, 0x10, 0x10, 0x10, 0x10, 0x1F]),
  (0x4D, [0x11, 0x1B, 0x15, 0x15, 0x11, 0x11, 0x11]),
  (0x4E, [0x11, 0x19, 0x15, 0x13, 0x11, 0x11, 0x11]),
  (0x4F, [0x0E, 0x11, 0x11, 0x11, 0x11, 0x11, 0x0E]),
  (0x50, [0x1E, 0x11, 0x11, 0x1E, 0x10, 0x10, 0x10]),
  (0x51, [0x0E, 0x11, 0x11, 0x11, 0x15, 0x12, 0x0D]),
  (0x52, [0x1E, 0x11, 0x11, 0x1E, 0x14, 0x12, 0x11]),
  (0x53, [0x0F, 0x10, 0x10, 0x0E, 0x01, 0x01, 0x1E]),
  (0x54, [0x1F, 0x04, 0x04, 0x04, 0x04, 0x04, 0x04]),
  (0x55, [0x11, 0x11, 0x11, 0x11, 0x11, 0x11, 0x0E]),
  (0x56, [0x11, 0x11, 0x11, 0x11, 0x11, 0x0A, 0x04]),
  (0x57, [0x11, 0x11, 0x11, 0x15, 0x15, 0x15, 0x0A]),
  (0x58, [0x11, 0x11, 0x0A, 0x04, 0x0A, 0x11, 0x11]),
  (0x59, [0x11, 0x11, 0x0A, 0x04, 0x04, 0x04, 0x04]),
  (0x5A, [0x1F, 0x01, 0x02, 0x04, 0x08, 0x10, 0x1F]),
  (0x30, [0x0E, 0x11, 0x13, 0x15, 0x19, 0x11, 0x0E]),
  (0x31, [0x04, 0x0C, 0x14, 0x04, 0x04, 0x04, 0x1F]),
  (0x32, [0x0E, 0x11, 0x01, 0x02, 0x04, 0x08, 0x1F]),
  (0x33, [0x1E, 0x01, 0x01, 0x0E, 0x01, 0x01, 0x1E]),
  (0x34, [0x02, 0x06, 0x0A, 0x12, 0x1F, 0x02, 0x02]),
  (0x35, [0x1F, 0x10, 0x10, 0x1E, 0x01, 0x01, 0x1E]),
  (0x36, [0x0E, 0x10, 0x10, 0x1E, 0x11, 0x11, 0x0E]),
  (0x37, [0x1F, 0x01, 0x02, 0x04, 0x08, 0x08, 0x08]),
  (0x38, [0x0E, 0x11, 0x11, 0x0E, 0x11, 0x11, 0x0E]),
  (0x39, [0x0E, 0x11, 0x11, 0x0F, 0x01, 0x01, 0x0E]),
  (0x2E, [0x00, 0x00, 0x00, 0x00, 0x00, 0x0C, 0x0C]),
  (0x2C, [0x00, 0x00, 0x00, 0x00, 0x0C, 0x0C, 0x08]),
  (0x3A, [0x00, 0x0C, 0x0C, 0x00, 0x0C, 0x0C, 0x00]),
  (0x3B, [0x00, 0x0C, 0x0C, 0x00, 0x0C, 0x0C, 0x08]),
  (0x2F, [0x01, 0x02, 0x02, 0x04, 0x08, 0x08, 0x10]),
  (0x5C, [0x10, 0x08, 0x08, 0x04, 0x02, 0x02, 0x01]),
  (0x2D, [0x00, 0x00, 0x00, 0x1F, 0x00, 0x00, 0x00]),
  (0x5F, [0x00, 0x00, 0x00, 0x00, 0x00, 0x00, 0x1F]),
  (0x3D, [0x00, 0x00, 0x1F, 0x00, 0x1F, 0x00, 0x00]),
  (0x2B, [0x00, 0x04, 0x04, 0x1F, 0x04, 0x04, 0x00]),
  (0x28, [0x02, 0x04, 0x08, 0x08, 0x08, 0x04, 0x02]),
  (0x29, [0x08, 0x04, 0x02, 0x02, 0x02, 0x04, 0x08]),
  (0x5B, [0x0E, 0x08, 0x08, 0x08, 0x08, 0x08, 0x0E]),
  (0x5D, [0x0E, 0x02, 0x02, 0x02, 0x02, 0x02, 0x0E]),
  (0x3C, [0x02, 0x04, 0x08, 0x10, 0x08, 0x04, 0x02]),
  (0x3E, [0x08, 0x04, 0x02, 0x01, 0x02, 0x04, 0x08]),
  (0x3F, [0x0E, 0x11, 0x01, 0x02, 0x04, 0x00, 0x04]),
  (0x21, [0x04, 0x04, 0x04, 0x04, 0x04, 0x00, 0x04]),
  (0x27, [0x04, 0x04, 0x02, 0x00, 0x00, 0x00, 0x00]),
  (0x22, [0x0A, 0x0A, 0x04, 0x00, 0x00, 0x00, 0x00]),
  (0x20, [0x00, 0x00, 0x00, 0x00, 0x00, 0x00, 0x00])]

/-- The bits of every other character. -/
def defaultGlyph : List UInt8 := [0x0E, 0x11, 0x01, 0x06, 0x04, 0x00, 0x04]

/-- `glyph_row_bits`. -/
def glyphRowBits (c : UInt8) (row : Nat) : UInt8 :=
  ((glyphs.lookup (kToupper c)).getD defaultGlyph).getD row 0

/-! ## Drawing -/

/-- A store to the pixel with the given number. -/
def storePixel (index : Nat) (color : UInt32) (s : ConsoleState) : ConsoleState :=
  { s with
    framebuffer := Function.update s.framebuffer index color
    written := index :: s.written }

/-- `put_framebuffer_pixel`. -/
def putFramebufferPixel (x y : Nat) (color : UInt32) (s : ConsoleState) : ConsoleState :=
  if !s.framebufferEnabled ∨ x ≥ s.width ∨ y ≥ s.height then s
  else storePixel ((y * s.pitch + x) % 2 ^ 32) color s

/-- `clear_framebuffer_cell`. -/
def clearFramebufferCell (row col : Nat) (s : ConsoleState) : ConsoleState :=
  let baseX := col * fbCharWidth
  let baseY := row * fbCharHeight
  forRange fbCharHeight (fun y => forRange fbCharWidth fun x s =>
    putFramebufferPixel (baseX + x) (baseY + y) s.bg s) s

/-- The loops over the pixels of a bit of a glyph. -/
def putGlyphBit (baseX baseY x y : Nat) (s : ConsoleState) : ConsoleState :=
  forRange fbGlyphScaleY (fun drawY => forRange fbGlyphScaleX fun drawX s =>
    putFramebufferPixel (baseX + fbGlyphOffsetX + x * fbGlyphScaleX + drawX)
      (baseY + fbGlyphOffsetY + y * fbGlyphScaleY + drawY) s.fg s) s

/-- `(bits & (1u << (FB_GLYPH_WIDTH - 1u - x))) != 0`. -/
def glyphBit (c : UInt8) (x y : Nat) : Bool :=
  (glyphRowBits c y).toNat &&& 1 <<< (fbGlyphWidth - 1 - x) != 0

/-- `put_framebuffer_char_at`. -/
def putFramebufferCharAt (row col : Nat) (c : UInt8) (s : ConsoleState) : ConsoleState :=
  let baseX := col * fbCharWidth
  let baseY := row * fbCharHeight
  let s := clearFramebufferCell row col s
  if c = 0x20 then s
  else forRange fbGlyphHeight (fun y => forRange fbGlyphWidth fun x s =>
    if !glyphBit c x y then s else putGlyphBit baseX baseY x y s) s

/-- A store to the cell of the VGA text buffer with the given number. -/
def storeVga (index : Nat) (value : UInt16) (s : ConsoleState) : ConsoleState :=
  { s with vga := Function.update s.vga index value }

/-- `put_vga_at`. -/
def putVgaAt (row col : Nat) (c : UInt8) (s : ConsoleState) : ConsoleState :=
  if !s.vgaEnabled then s
  else storeVga (row * vgaWidth + col) (vgaAttribute <<< 8 ||| c.toUInt16) s

/-- `update_cursor`. -/
def updateCursor (s : ConsoleState) : ConsoleState :=
  let position := (s.row * vgaWidth + s.col) % 2 ^ 16
  if !s.vgaEnabled then s
  else
    let s := s.ioOut8 vgaCrtcIndexPort 14
    let s := s.ioOut8 vgaCrtcDataPort (.ofNat (position >>> 8))
    let s := s.ioOut8 vgaCrtcIndexPort 15
    s.ioOut8 vgaCrtcDataPort (.ofNat (position &&& 0xFF))

/-! ## Scrolling -/

/-- The loop that moves a row of pixels up. -/
def movePixelRow (y : Nat) (s : ConsoleState) : ConsoleState :=
  let dst := (y - fbCharHeight) * s.pitch % 2 ^ 32
  let src := y * s.pitch % 2 ^ 32
  forRange s.width (fun col s => storePixel (dst + col) (s.framebuffer (src + col)) s) s

/-- The loop that clears a row of pixels. -/
def clearPixelRow (y : Nat) (s : ConsoleState) : ConsoleState :=
  let rowPixels := y * s.pitch % 2 ^ 32
  forRange s.width (fun col s => storePixel (rowPixels + col) s.bg s) s

/-- The part of `scroll_if_needed` for the framebuffer. -/
def scrollFramebuffer (s : ConsoleState) : ConsoleState :=
  let s := forFrom fbCharHeight s.height movePixelRow s
  forFrom (s.height - fbCharHeight) s.height clearPixelRow s

/-- The part of `scroll_if_needed` for the VGA text buffer. -/
def scrollVga (s : ConsoleState) : ConsoleState :=
  let s := forFrom 1 vgaHeight (fun row => forRange vgaWidth fun col s =>
    storeVga ((row - 1) * vgaWidth + col) (s.vga (row * vgaWidth + col)) s) s
  forRange vgaWidth (fun col => putVgaAt (vgaHeight - 1) col 0x20) s

/-- `scroll_if_needed`. -/
def scrollIfNeeded (s : ConsoleState) : ConsoleState :=
  if s.row < s.rows then s
  else
    let s := if s.framebufferEnabled then scrollFramebuffer s else s
    let s := if s.vgaEnabled then scrollVga s else s
    updateCursor { s with row := (s.rows - 1) % 2 ^ 16 }

/-! ## The calls -/

/-- `++g_row` with `g_col = 0`, and `scroll_if_needed`. -/
def nextRow (s : ConsoleState) : ConsoleState :=
  scrollIfNeeded { s with col := 0, row := (s.row + 1) % 2 ^ 16 }

/-- `++g_col` in `console_write_char`, and what follows it. -/
def advance (s : ConsoleState) : ConsoleState :=
  let s := { s with col := (s.col + 1) % 2 ^ 16 }
  updateCursor (if s.col ≥ s.columns then nextRow s else s)

/-- `put_framebuffer_char_at` at the cursor, where the framebuffer is in use. -/
def drawAtCursor (c : UInt8) (s : ConsoleState) : ConsoleState :=
  if s.framebufferEnabled then putFramebufferCharAt s.row s.col c s else s

/-- `console_write_char`. -/
def consoleWriteChar (c : UInt8) (s : ConsoleState) : ConsoleState :=
  if c = 0x0D then updateCursor (serialWriteByte 0x0D { s with col := 0 })
  else if c = 0x0A then updateCursor (serialWriteByte 0x0A (serialWriteByte 0x0D (nextRow s)))
  else
    let s := drawAtCursor c (putVgaAt s.row s.col c s)
    advance (serialWriteByte c s)

/-- The part of `console_backspace` behind the moved cursor. -/
def eraseAtCursor (s : ConsoleState) : ConsoleState :=
  let s := drawAtCursor 0x20 (putVgaAt s.row s.col 0x20 s)
  updateCursor (serialWriteByte 0x08 (serialWriteByte 0x20 (serialWriteByte 0x08 s)))

/-- `console_backspace`. -/
def consoleBackspace (s : ConsoleState) : ConsoleState :=
  if s.col = 0 then
    if s.row = 0 then s
    else eraseAtCursor { s with row := s.row - 1, col := (s.columns - 1) % 2 ^ 16 }
  else eraseAtCursor { s with col := s.col - 1 }

/-- A step of the console. -/
abbrev ConsoleStep (α : Type) : Type := Prog ConsoleState Unit α

/-- The part of `console_clear` for the VGA text buffer. -/
def clearVga (s : ConsoleState) : ConsoleState :=
  if s.vgaEnabled then
    forRange vgaHeight (fun row => forRange vgaWidth fun col => putVgaAt row col 0x20) s
  else s

/-- The loops of `console_clear` over the cells. Their counters have 16 bits. -/
def clearCells (rows columns : Nat) : ConsoleStep Unit :=
  forWrapping (2 ^ 16) rows fun row =>
    forWrapping (2 ^ 16) columns fun col => modify (clearFramebufferCell row col)

/-- `console_clear`. -/
def consoleClear : ConsoleStep Unit := do
  modify clearVga
  let s ← get
  (if s.framebufferEnabled then clearCells s.rows s.columns else pure ())
  modify fun s => updateCursor { s with row := 0, col := 0 }

/-- The test of the framebuffer in `console_init`. -/
def ConsoleBootInfo.accepted (info : ConsoleBootInfo) : Bool :=
  info.consoleFlags &&& bootinfoConsoleFramebuffer != 0 && info.framebufferBase != 0 &&
    info.framebufferWidth.toNat ≥ fbCharWidth && info.framebufferHeight.toNat ≥ fbCharHeight &&
    info.framebufferPixelsPerScanline ≥ info.framebufferWidth

/-- What `console_init` sets the variables to. -/
def configureConsole (bootInfo : Option ConsoleBootInfo) (s : ConsoleState) : ConsoleState :=
  let vgaEnabled := match bootInfo with
    | none => false
    | some info => info.consoleFlags &&& bootinfoConsoleVgaText != 0
  let none := { s with
    vgaEnabled, framebufferEnabled := false, width := 0, height := 0, pitch := 0
    columns := vgaWidth, rows := vgaHeight }
  match bootInfo with
  | .none => none
  | some info =>
    if info.accepted then
      { s with
        vgaEnabled, framebufferEnabled := true
        width := info.framebufferWidth.toNat
        height := info.framebufferHeight.toNat
        pitch := info.framebufferPixelsPerScanline.toNat
        fg := framebufferColor info.framebufferFormat 0xE6 0xE6 0xE6
        bg := framebufferColor info.framebufferFormat 0x11 0x11 0x11
        columns := info.framebufferWidth.toNat / fbCharWidth
        rows := info.framebufferHeight.toNat / fbCharHeight }
    else none

/-- `console_init`. -/
def consoleInit (bootInfo : Option ConsoleBootInfo) : ConsoleStep Unit := do
  modify (configureConsole bootInfo)
  consoleClear

/-- A call of the rest of the kernel. -/
inductive ConsoleCall
  | clear
  | writeChar (c : UInt8)
  | backspace
deriving DecidableEq, Repr

/-- The function that is called. -/
def ConsoleCall.run : ConsoleCall → ConsoleStep Unit
  | clear => consoleClear
  | writeChar c => modify (consoleWriteChar c)
  | backspace => modify consoleBackspace

/-- A sequence of calls. -/
def consoleCalls : List ConsoleCall → ConsoleStep Unit
  | [] => pure ()
  | call :: rest => do
    call.run
    consoleCalls rest

end FunnyOS.Devices
