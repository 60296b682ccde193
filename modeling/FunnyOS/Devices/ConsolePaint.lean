import FunnyOS.Devices.Console

/-!
# Painting

Every loop over pixels paints an area with given colours and nothing else. A scroll paints the whole
screen: each row of pixels gets the colours of the one that is a character's height below it.
-/

namespace FunnyOS.Devices

/-! ## The screen -/

/-- What does not change while the console runs. -/
structure Screen where
  width : Nat
  height : Nat
  pitch : Nat
  columns : Nat
  rows : Nat
  fg : UInt32
  bg : UInt32

/-- The screen that the console draws on. -/
def ConsoleState.screen (s : ConsoleState) : Screen :=
  ⟨s.width, s.height, s.pitch, s.columns, s.rows, s.fg, s.bg⟩

/-- The pixel at a place on the screen. -/
def ConsoleState.pixel (s : ConsoleState) (x y : Nat) : UInt32 := s.framebuffer (y * s.pitch + x)

/-- The place lies in the text area. -/
def ConsoleState.InText (s : ConsoleState) (x y : Nat) : Prop :=
  x < s.columns * fbCharWidth ∧ y < s.rows * fbCharHeight

/-- Every pixel that has been written lies in the framebuffer. -/
def ConsoleState.WrittenInside (s : ConsoleState) : Prop :=
  ∀ index ∈ s.written, ∃ x y, x < s.width ∧ y < s.height ∧ index = y * s.pitch + x

/-- The framebuffer is in use, its size is that of the grid, and the numbers of rows, columns and
pixels fit their variables. -/
structure Drawable (s : ConsoleState) : Prop where
  enabled : s.framebufferEnabled = true
  columns : s.columns = s.width / fbCharWidth
  rows : s.rows = s.height / fbCharHeight
  width : fbCharWidth ≤ s.width
  height : fbCharHeight ≤ s.height
  pitch : s.width ≤ s.pitch
  columns_lt : s.columns < 2 ^ 16
  rows_lt : s.rows < 2 ^ 16
  rowIndex : ∀ y < s.height, y * s.pitch < 2 ^ 32
  textIndex : ∀ x y, s.InText x y → y * s.pitch + x < 2 ^ 32

/-! ## Glyphs -/

/-- Whether a pixel of a cell belongs to the glyph of its character. -/
def glyphPixel (c : UInt8) (x y : Nat) : Bool :=
  fbGlyphOffsetX ≤ x && x < fbGlyphOffsetX + fbGlyphWidth * fbGlyphScaleX &&
    fbGlyphOffsetY ≤ y && y < fbGlyphOffsetY + fbGlyphHeight * fbGlyphScaleY &&
    glyphBit c ((x - fbGlyphOffsetX) / fbGlyphScaleX) ((y - fbGlyphOffsetY) / fbGlyphScaleY)

/-- The colour of a pixel where a character is rendered. -/
def charPixel (fg bg : UInt32) (c : UInt8) (x y : Nat) : UInt32 :=
  if glyphPixel c (x % fbCharWidth) (y % fbCharHeight) then fg else bg

section

variable {s s' s₁ s₂ : ConsoleState} {A B : Nat → Nat → Prop}
  {paint : Nat → Nat → UInt32} {color : UInt32} {x y row col i n index : Nat} {c : UInt8}

/-! ## Painting -/

/-- Nothing but pixels has changed. -/
def Repainted (s s' : ConsoleState) : Prop :=
  s' = { s with framebuffer := s'.framebuffer, written := s'.written }

theorem Repainted.refl : Repainted s s := rfl

theorem Repainted.screen_eq (h : Repainted s s') : s'.screen = s.screen := by
  rw [h]
  rfl

theorem Repainted.trans (h : Repainted s s₁) (h' : Repainted s₁ s₂) : Repainted s s₂ := by
  refine Eq.trans h' ?_
  rw [h]

/-- The area has been painted with the given colours, and nothing else. -/
structure Painted (A : Nat → Nat → Prop) (paint : Nat → Nat → UInt32) (s s' : ConsoleState) :
    Prop where
  rest : Repainted s s'
  bounded : ∀ x y, A x y → x < s.width ∧ y < s.height
  inside : ∀ x y, A x y → s'.pixel x y = paint x y
  outside : ∀ x y, x < s.pitch → ¬ A x y → s'.pixel x y = s.pixel x y
  written : ∀ index ∈ s'.written, index ∈ s.written ∨ ∃ x y, A x y ∧ index = y * s.pitch + x

/-- Two places have two numbers. -/
theorem index_inj {pitch x' y' : Nat} (hx : x < pitch) (hx' : x' < pitch)
    (h : y * pitch + x = y' * pitch + x') : x = x' ∧ y = y' := by
  have hy : y = y' := by
    have hdiv := congrArg (· / pitch) h
    simpa [Nat.add_div_of_dvd_right, Nat.div_eq_of_lt hx, Nat.div_eq_of_lt hx',
      Nat.zero_lt_of_lt hx] using hdiv
  subst hy
  exact ⟨Nat.add_left_cancel h, rfl⟩

theorem Painted.congr (h : Painted A paint s s') (hAB : ∀ x y, A x y ↔ B x y) :
    Painted B paint s s' := by
  obtain rfl : A = B := funext fun x => funext fun y => propext (hAB x y)
  exact h

theorem Painted.congr_paint {paint' : Nat → Nat → UInt32} (h : Painted A paint s s')
    (hpaint : ∀ x y, A x y → paint x y = paint' x y) : Painted A paint' s s' :=
  ⟨h.rest, h.bounded, fun x y hA => (h.inside x y hA).trans (hpaint x y hA), h.outside, h.written⟩

theorem Painted.refl : Painted (fun _ _ => False) paint s s where
  rest := .refl
  bounded _ _ h := h.elim
  inside _ _ h := h.elim
  outside _ _ _ _ := rfl
  written _ h := .inl h

theorem Painted.trans (hpitch : s.width ≤ s.pitch) (h : Painted A paint s s₁)
    (h' : Painted B paint s₁ s₂) : Painted (fun x y => A x y ∨ B x y) paint s s₂ := by
  have hwidth : s₁.width = s.width := by rw [h.rest]
  have hheight : s₁.height = s.height := by rw [h.rest]
  have hsame : s₁.pitch = s.pitch := by rw [h.rest]
  constructor
  · exact h.rest.trans h'.rest
  · rintro x y (hA | hB)
    · exact h.bounded x y hA
    · rw [← hwidth, ← hheight]
      exact h'.bounded x y hB
  · intro x y hAB
    by_cases hB : B x y
    · exact h'.inside x y hB
    · have hA := hAB.resolve_right hB
      have hx := (h.bounded x y hA).1
      rw [h'.outside x y (by omega) hB, h.inside x y hA]
  · intro x y hx hnot
    obtain ⟨hA, hB⟩ := not_or.mp hnot
    rw [h'.outside x y (by omega) hB, h.outside x y hx hA]
  · intro index hindex
    rcases h'.written index hindex with hold | ⟨x, y, hB, rfl⟩
    · exact (h.written index hold).imp id fun hex => by
        obtain ⟨x, y, hA, hindex⟩ := hex
        exact ⟨x, y, .inl hA, hindex⟩
    · exact .inr ⟨x, y, .inr hB, by rw [hsame]⟩

theorem storePixel_painted (hpitch : s.width ≤ s.pitch) (hx : x < s.width) (hy : y < s.height)
    (hcolor : color = paint x y) :
    Painted (fun x' y' => x' = x ∧ y' = y) paint s (storePixel (y * s.pitch + x) color s) where
  rest := rfl
  bounded x' y' h := by
    obtain ⟨rfl, rfl⟩ := h
    exact ⟨hx, hy⟩
  inside x' y' h := by
    obtain ⟨rfl, rfl⟩ := h
    exact (Function.update_self ..).trans hcolor
  outside x' y' hx' hnot := by
    refine Function.update_of_ne (fun heq => hnot ?_) ..
    exact index_inj hx' (hx.trans_le hpitch) heq
  written index h := by
    rcases List.mem_cons.mp h with rfl | h
    · exact .inr ⟨x, y, ⟨rfl, rfl⟩, rfl⟩
    · exact .inl h

/-- A loop paints what its rounds paint. -/
theorem Painted.forRange {A : Nat → Nat → Nat → Prop} {body : Nat → ConsoleState → ConsoleState}
    (hpitch : s.width ≤ s.pitch)
    (h : ∀ i s', i < n → Painted (fun x y => ∃ j < i, A j x y) paint s s' →
      Painted (A i) paint s' (body i s')) :
    Painted (fun x y => ∃ i < n, A i x y) paint s (forRange n body s) := by
  refine forRange_rule (fun k s' => Painted (fun x y => ∃ i < k, A i x y) paint s s') ?_ ?_
  · refine Painted.refl.congr fun x y => ?_
    simp
  · intro k s' hk hpainted
    refine (hpainted.trans hpitch (h k s' hk hpainted)).congr fun x y => ?_
    constructor
    · rintro (⟨i, hi, hA⟩ | hA)
      · exact ⟨i, by omega, hA⟩
      · exact ⟨k, by omega, hA⟩
    · rintro ⟨i, hi, hA⟩
      rcases Nat.lt_succ_iff_lt_or_eq.mp hi with hlt | rfl
      · exact .inl ⟨i, hlt, hA⟩
      · exact .inr hA

/-! ## Characters -/

theorem Drawable.repaint (h : Drawable s) (hsame : Repainted s s') : Drawable s' := by
  rw [hsame]
  exact ⟨h.enabled, h.columns, h.rows, h.width, h.height, h.pitch, h.columns_lt, h.rows_lt,
    h.rowIndex, h.textIndex⟩

theorem Drawable.columns_pos (h : Drawable s) : 0 < s.columns := by
  rw [h.columns]
  exact Nat.div_pos h.width (by decide)

theorem Drawable.rows_pos (h : Drawable s) : 0 < s.rows := by
  rw [h.rows]
  exact Nat.div_pos h.height (by decide)

theorem Drawable.inText (h : Drawable s) (hin : s.InText x y) : x < s.width ∧ y < s.height := by
  obtain ⟨hx, hy⟩ := hin
  have hcolumns := h.columns
  have hrows := h.rows
  simp only [fbCharWidth, fbCharHeight] at *
  omega

theorem Drawable.inText_cell (hrow : row < s.rows) (hcol : col < s.columns) {x y : Nat}
    (hx : x < fbCharWidth) (hy : y < fbCharHeight) :
    s.InText (col * fbCharWidth + x) (row * fbCharHeight + y) := by
  simp only [ConsoleState.InText, fbCharWidth, fbCharHeight] at *
  omega

theorem putFramebufferPixel_painted (h : Drawable s) (hin : s.InText x y) :
    Painted (fun x' y' => x' = x ∧ y' = y) (fun _ _ => color) s (putFramebufferPixel x y color s) := by
  obtain ⟨hx, hy⟩ := h.inText hin
  have hindex := h.textIndex x y hin
  have hshown : ¬ ((!s.framebufferEnabled) = true ∨ x ≥ s.width ∨ y ≥ s.height) := by
    rw [h.enabled]
    simp only [Bool.not_true, Bool.false_eq_true, false_or, not_or, not_le]
    exact ⟨hx, hy⟩
  rw [putFramebufferPixel, if_neg hshown, Nat.mod_eq_of_lt hindex]
  exact storePixel_painted h.pitch hx hy rfl

/-- The pixels of a cell. -/
def InCell (row col x y : Nat) : Prop := x / fbCharWidth = col ∧ y / fbCharHeight = row

theorem clearFramebufferCell_painted (h : Drawable s) (hrow : row < s.rows) (hcol : col < s.columns) :
    Painted (InCell row col) (fun _ _ => s.bg) s (clearFramebufferCell row col s) := by
  have hrows : Painted (fun x' y' => ∃ y < fbCharHeight, ∃ x < fbCharWidth,
      x' = col * fbCharWidth + x ∧ y' = row * fbCharHeight + y) (fun _ _ => s.bg) s
      (clearFramebufferCell row col s) := by
    unfold clearFramebufferCell
    refine Painted.forRange h.pitch fun y s₁ hy hbefore => ?_
    have hsame₁ := hbefore.rest
    have h₁ := h.repaint hsame₁
    refine Painted.forRange h₁.pitch fun x s₂ hx hbefore₁ => ?_
    have hsame := hsame₁.trans hbefore₁.rest
    have hbg : s₂.bg = s.bg := by rw [hsame]
    rw [hbg]
    refine putFramebufferPixel_painted (h.repaint hsame) (Drawable.inText_cell ?_ ?_ hx hy)
    · rw [hsame]
      exact hrow
    · rw [hsame]
      exact hcol
  refine hrows.congr fun x' y' => ?_
  simp only [InCell, fbCharWidth, fbCharHeight]
  constructor
  · rintro ⟨y, hy, x, hx, rfl, rfl⟩
    omega
  · rintro ⟨rfl, rfl⟩
    exact ⟨y' % 20, by omega, x' % 12, by omega, by omega, by omega⟩

/-- The pixels of a bit of the glyph in a cell. -/
def InBit (row col x y x' y' : Nat) : Prop :=
  ∃ drawY < fbGlyphScaleY, ∃ drawX < fbGlyphScaleX,
    x' = col * fbCharWidth + fbGlyphOffsetX + x * fbGlyphScaleX + drawX ∧
    y' = row * fbCharHeight + fbGlyphOffsetY + y * fbGlyphScaleY + drawY

theorem putGlyphBit_painted (h : Drawable s) (hrow : row < s.rows) (hcol : col < s.columns)
    (hx : x < fbGlyphWidth) (hy : y < fbGlyphHeight) :
    Painted (InBit row col x y) (fun _ _ => s.fg) s
      (putGlyphBit (col * fbCharWidth) (row * fbCharHeight) x y s) := by
  unfold putGlyphBit
  refine Painted.forRange h.pitch fun drawY s₁ hdrawY hbefore => ?_
  have hsame₁ := hbefore.rest
  have h₁ := h.repaint hsame₁
  refine Painted.forRange h₁.pitch fun drawX s₂ hdrawX hbefore₁ => ?_
  have hsame := hsame₁.trans hbefore₁.rest
  have hfg : s₂.fg = s.fg := by rw [hsame]
  have hrows : s₂.rows = s.rows := by rw [hsame]
  have hcolumns : s₂.columns = s.columns := by rw [hsame]
  rw [hfg]
  refine putFramebufferPixel_painted (h.repaint hsame) ?_
  simp only [ConsoleState.InText, fbCharWidth, fbCharHeight, fbGlyphOffsetX, fbGlyphOffsetY,
    fbGlyphScaleX, fbGlyphScaleY, fbGlyphWidth, fbGlyphHeight] at *
  omega

/-- The pixels of the glyph in a cell. -/
def InGlyph (c : UInt8) (row col x y : Nat) : Prop :=
  InCell row col x y ∧ glyphPixel c (x % fbCharWidth) (y % fbCharHeight) = true

theorem inGlyph_iff {x' y' : Nat} : InGlyph c row col x' y' ↔ ∃ y < fbGlyphHeight,
    ∃ x < fbGlyphWidth, glyphBit c x y = true ∧ InBit row col x y x' y' := by
  simp only [InGlyph, InCell, InBit, glyphPixel, Bool.and_eq_true, decide_eq_true_eq, fbCharWidth,
    fbCharHeight, fbGlyphOffsetX, fbGlyphOffsetY, fbGlyphScaleX, fbGlyphScaleY, fbGlyphWidth,
    fbGlyphHeight]
  constructor
  · rintro ⟨⟨rfl, rfl⟩, ⟨⟨⟨hx, hx'⟩, hy⟩, hy'⟩, hbit⟩
    exact ⟨(y' % 20 - 2) / 2, by omega, (x' % 12 - 1) / 2, by omega, hbit,
      (y' % 20 - 2) % 2, by omega, (x' % 12 - 1) % 2, by omega, by omega, by omega⟩
  · rintro ⟨y, hy, x, hx, hbit, drawY, hdrawY, drawX, hdrawX, rfl, rfl⟩
    have hcolumn : ((col * 12 + 1 + x * 2 + drawX) % 12 - 1) / 2 = x := by omega
    have hline : ((row * 20 + 2 + y * 2 + drawY) % 20 - 2) / 2 = y := by omega
    rw [hcolumn, hline]
    exact ⟨by omega, by omega, hbit⟩

theorem glyphPixel_space : glyphPixel 0x20 x y = false := by
  have hlookup : glyphs.lookup (kToupper 0x20) = some (List.replicate 7 0) := by decide +kernel
  have hzero : ∀ i : Nat, (List.replicate 7 (0 : UInt8)).getD i 0 = 0 := by
    intro i
    rw [List.getD_eq_getElem?_getD, List.getElem?_replicate]
    split <;> rfl
  unfold glyphPixel glyphBit glyphRowBits
  rw [hlookup, Option.getD_some, hzero]
  simp

/-- A cell has been drawn with a character. -/
structure Drawn (row col : Nat) (c : UInt8) (s s' : ConsoleState) : Prop where
  rest : Repainted s s'
  cell : ∀ x y, InCell row col x y → s'.pixel x y = charPixel s.fg s.bg c x y
  others : ∀ x y, x < s.pitch → ¬ InCell row col x y → s'.pixel x y = s.pixel x y
  written : s.WrittenInside → s'.WrittenInside

theorem Painted.writtenInside (h : Painted A paint s s') (hs : s.WrittenInside) :
    s'.WrittenInside := by
  intro index hindex
  rw [h.rest]
  rcases h.written index hindex with hold | ⟨x, y, hA, rfl⟩
  · exact hs index hold
  · exact ⟨x, y, (h.bounded x y hA).1, (h.bounded x y hA).2, rfl⟩

theorem putGlyph_painted (h : Drawable s) (hrow : row < s.rows) (hcol : col < s.columns) :
    Painted (InGlyph c row col) (fun _ _ => s.fg) s (forRange fbGlyphHeight (fun y =>
      forRange fbGlyphWidth fun x s => if !glyphBit c x y then s
        else putGlyphBit (col * fbCharWidth) (row * fbCharHeight) x y s) s) := by
  refine Painted.congr ?_ fun x' y' => inGlyph_iff.symm
  refine Painted.forRange h.pitch fun y s₁ hy hbefore => ?_
  have hsame₁ := hbefore.rest
  have h₁ := h.repaint hsame₁
  refine Painted.forRange h₁.pitch fun x s₂ hx hbefore₁ => ?_
  have hsame := hsame₁.trans hbefore₁.rest
  have hfg : s₂.fg = s.fg := by rw [hsame]
  have hrows : s₂.rows = s.rows := by rw [hsame]
  have hcolumns : s₂.columns = s.columns := by rw [hsame]
  cases hbit : glyphBit c x y with
  | false =>
    refine Painted.refl.congr fun x' y' => ?_
    simp
  | true =>
    have hpainted := putGlyphBit_painted (h.repaint hsame) (hrows ▸ hrow) (hcolumns ▸ hcol) hx hy
    rw [hfg] at hpainted
    refine hpainted.congr fun x' y' => ?_
    simp

theorem putFramebufferCharAt_drawn (h : Drawable s) (hrow : row < s.rows) (hcol : col < s.columns) :
    Drawn row col c s (putFramebufferCharAt row col c s) := by
  have hclear := clearFramebufferCell_painted h hrow hcol
  unfold putFramebufferCharAt
  by_cases hc : c = 0x20
  · simp only [if_pos hc]
    refine ⟨hclear.rest, fun x y hin => ?_, hclear.outside, hclear.writtenInside⟩
    rw [hclear.inside x y hin, charPixel, hc, glyphPixel_space]
    rfl
  · simp only [if_neg hc]
    have hsame := hclear.rest
    have hrows : (clearFramebufferCell row col s).rows = s.rows := by rw [hsame]
    have hcolumns : (clearFramebufferCell row col s).columns = s.columns := by rw [hsame]
    have hfg : (clearFramebufferCell row col s).fg = s.fg := by rw [hsame]
    have hpitch : (clearFramebufferCell row col s).pitch = s.pitch := by rw [hsame]
    have hwidth := h.pitch
    have hglyph := putGlyph_painted (c := c) (h.repaint hsame) (hrows.symm ▸ hrow)
      (hcolumns.symm ▸ hcol)
    rw [hfg] at hglyph
    constructor
    · exact hsame.trans hglyph.rest
    · intro x y hin
      have hx := (hclear.bounded x y hin).1
      by_cases hbit : glyphPixel c (x % fbCharWidth) (y % fbCharHeight) = true
      · rw [hglyph.inside x y ⟨hin, hbit⟩, charPixel, if_pos hbit]
      · rw [hglyph.outside x y (by omega) fun hg => hbit hg.2, hclear.inside x y hin, charPixel,
          if_neg hbit]
    · intro x y hx hout
      rw [hglyph.outside x y (by omega) fun hg => hout hg.1, hclear.outside x y hx hout]
    · exact fun hs => hglyph.writtenInside (hclear.writtenInside hs)

/-! ## What does not show -/

/-- Nothing that the screen shows has changed, and the cursor has not moved. -/
def Aside (s s' : ConsoleState) : Prop :=
  s' = { s with vga := s'.vga, ports := s'.ports, serial := s'.serial }

theorem Aside.refl : Aside s s := rfl

theorem Aside.trans (h : Aside s s₁) (h' : Aside s₁ s₂) : Aside s s₂ := by
  refine Eq.trans h' ?_
  rw [h]

theorem Aside.forRange {body : Nat → ConsoleState → ConsoleState} (h : ∀ i s', Aside s' (body i s')) :
    Aside s (forRange n body s) :=
  forRange_rule (fun _ s' => Aside s s') .refl fun i s' _ hs => hs.trans (h i s')

theorem putVgaAt_aside : Aside s (putVgaAt row col c s) := by
  unfold putVgaAt
  split
  · exact .refl
  · rfl

theorem updateCursor_aside : Aside s (updateCursor s) := by
  unfold updateCursor
  simp only
  split
  · exact .refl
  · rfl

theorem serialWriteByte_aside : Aside s (serialWriteByte c s) := rfl

theorem scrollVga_aside : Aside s (scrollVga s) := by
  unfold scrollVga
  refine Aside.trans ?_ (Aside.forRange fun col s' => putVgaAt_aside)
  exact Aside.forRange fun row s' => Aside.forRange fun col s' => rfl

theorem clearVga_aside : Aside s (clearVga s) := by
  unfold clearVga
  split_ifs
  · exact Aside.forRange fun row s' => Aside.forRange fun col s' => putVgaAt_aside
  · exact .refl

/-! ## Scrolling -/

/-- A row of pixels. -/
def InRow (s : ConsoleState) (row x y : Nat) : Prop := x < s.width ∧ y = row

theorem movePixelRow_painted (h : Drawable s) (hlow : fbCharHeight ≤ y) (hy : y < s.height) :
    Painted (InRow s (y - fbCharHeight)) (fun x' y' => s.pixel x' (y' + fbCharHeight)) s
      (movePixelRow y s) := by
  have hheight : fbCharHeight = 20 := rfl
  have hdst := h.rowIndex (y - fbCharHeight) (by omega)
  have hsrc := h.rowIndex y hy
  simp only [movePixelRow, Nat.mod_eq_of_lt hdst, Nat.mod_eq_of_lt hsrc]
  refine Painted.congr (Painted.forRange (A := fun col x' y' => x' = col ∧ y' = y - fbCharHeight)
    h.pitch fun col s' hcol hbefore => ?_) fun x' y' => ?_
  · have hpitch : s'.pitch = s.pitch := by rw [hbefore.rest]
    have hwidth : s'.width = s.width := by rw [hbefore.rest]
    have hheight' : s'.height = s.height := by rw [hbefore.rest]
    have hle := h.pitch
    rw [← hpitch]
    refine storePixel_painted (by omega) (by omega) (by omega) ?_
    -- the row that is moved lies below the one that is written
    have hkept := hbefore.outside col y (by omega) fun hex => by
      obtain ⟨j, -, -, heq⟩ := hex
      omega
    simp only [ConsoleState.pixel, hpitch] at hkept ⊢
    rw [hkept, Nat.sub_add_cancel hlow]
  · constructor
    · rintro ⟨col, hcol, rfl, rfl⟩
      exact ⟨hcol, rfl⟩
    · rintro ⟨hx, rfl⟩
      exact ⟨x', hx, rfl, rfl⟩

theorem clearPixelRow_painted (h : Drawable s) (hy : y < s.height) :
    Painted (InRow s y) (fun _ _ => s.bg) s (clearPixelRow y s) := by
  have hrow := h.rowIndex y hy
  simp only [clearPixelRow, Nat.mod_eq_of_lt hrow]
  refine Painted.congr (Painted.forRange (A := fun col x' y' => x' = col ∧ y' = y)
    h.pitch fun col s' hcol hbefore => ?_) fun x' y' => ?_
  · have hpitch : s'.pitch = s.pitch := by rw [hbefore.rest]
    have hwidth : s'.width = s.width := by rw [hbefore.rest]
    have hheight : s'.height = s.height := by rw [hbefore.rest]
    have hbg : s'.bg = s.bg := by rw [hbefore.rest]
    have hle := h.pitch
    rw [← hpitch]
    exact storePixel_painted (by omega) (by omega) (by omega) hbg
  · constructor
    · rintro ⟨col, hcol, rfl, rfl⟩
      exact ⟨hcol, rfl⟩
    · rintro ⟨hx, rfl⟩
      exact ⟨x', hx, rfl, rfl⟩

/-- The pixel that a scroll brings to a place. -/
def scrolledPixel (s : ConsoleState) (x y : Nat) : UInt32 :=
  if y + fbCharHeight < s.height then s.pixel x (y + fbCharHeight) else s.bg

theorem moveRows_painted (h : Drawable s) :
    Painted (fun x y => x < s.width ∧ y + fbCharHeight < s.height) (scrolledPixel s) s
      (forFrom fbCharHeight s.height movePixelRow s) := by
  have hheight : fbCharHeight = 20 := rfl
  refine Painted.congr (Painted.forRange (A := fun i => InRow s i) h.pitch
    fun i s' hi hbefore => ?_) fun x' y' => ?_
  · have hpitch : s'.pitch = s.pitch := by rw [hbefore.rest]
    have hwidth : s'.width = s.width := by rw [hbefore.rest]
    have hsame : s'.height = s.height := by rw [hbefore.rest]
    have hmoved := movePixelRow_painted (y := fbCharHeight + i) (h.repaint hbefore.rest) (by omega)
      (by omega)
    rw [Nat.add_sub_cancel_left] at hmoved
    refine (hmoved.congr fun x y => ?_).congr_paint fun x y hin => ?_
    · rw [InRow, InRow, hwidth]
    · obtain ⟨hx, rfl⟩ := hin
      have hle := h.pitch
      -- the rows that have been written lie above
      rw [hbefore.outside x (y + fbCharHeight) (by omega) fun hex => by
        obtain ⟨j, hj, -, heq⟩ := hex
        omega]
      rw [scrolledPixel, if_pos (by omega)]
  · constructor
    · rintro ⟨i, hi, hx, rfl⟩
      exact ⟨hx, by omega⟩
    · rintro ⟨hx, hy⟩
      exact ⟨y', by omega, hx, rfl⟩

theorem clearRows_painted (h : Drawable s) :
    Painted (fun x y => x < s.width ∧ s.height ≤ y + fbCharHeight ∧ y < s.height)
      (fun _ _ => s.bg) s (forFrom (s.height - fbCharHeight) s.height clearPixelRow s) := by
  have hle := h.height
  refine Painted.congr (Painted.forRange (A := fun i => InRow s (s.height - fbCharHeight + i))
    h.pitch fun i s' hi hbefore => ?_) fun x' y' => ?_
  · have hwidth : s'.width = s.width := by rw [hbefore.rest]
    have hsame : s'.height = s.height := by rw [hbefore.rest]
    have hbg : s'.bg = s.bg := by rw [hbefore.rest]
    have hcleared := clearPixelRow_painted (y := s.height - fbCharHeight + i)
      (h.repaint hbefore.rest) (by omega)
    rw [hbg] at hcleared
    refine hcleared.congr fun x y => ?_
    rw [InRow, InRow, hwidth]
  · constructor
    · rintro ⟨i, hi, hx, rfl⟩
      exact ⟨hx, by omega, by omega⟩
    · rintro ⟨hx, hlow, hy⟩
      exact ⟨y' - (s.height - fbCharHeight), by omega, hx, by omega⟩

/-- A scroll moves every row of pixels, the ones below the text area as well. -/
theorem scrollFramebuffer_painted (h : Drawable s) :
    Painted (fun x y => x < s.width ∧ y < s.height) (scrolledPixel s) s (scrollFramebuffer s) := by
  have hmoved := moveRows_painted h
  have hheight : (forFrom fbCharHeight s.height movePixelRow s).height = s.height := by
    rw [hmoved.rest]
  have hwidth : (forFrom fbCharHeight s.height movePixelRow s).width = s.width := by
    rw [hmoved.rest]
  have hbg : (forFrom fbCharHeight s.height movePixelRow s).bg = s.bg := by rw [hmoved.rest]
  have hcleared := clearRows_painted (h.repaint hmoved.rest)
  simp only [hheight, hwidth, hbg] at hcleared
  unfold scrollFramebuffer
  simp only [hheight]
  refine (hmoved.trans h.pitch (hcleared.congr_paint fun x y hin => ?_)).congr fun x y => ?_
  · rw [scrolledPixel, if_neg (by omega)]
  · omega

end

end FunnyOS.Devices
