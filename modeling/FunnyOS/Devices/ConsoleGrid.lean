import FunnyOS.Devices.ConsolePaint

/-!
# The screen as a grid of characters

The console is a grid of characters with a cursor, and the text area is its rendering. The scroll is
the only call that brings pixels from below the text area into it, so the rendering is right in
every run exactly where these have the colour of the background from the start.
-/

namespace FunnyOS.Devices

open Prog

/-! ## The grid -/

/-- A grid of characters with a cursor. -/
structure CharGrid where
  cells : Nat → Nat → UInt8
  row : Nat
  col : Nat

namespace CharGrid

/-- No character, and the cursor in the first cell. -/
def blank : CharGrid := ⟨fun _ _ => 0x20, 0, 0⟩

/-- A character in a cell. -/
def put (row col : Nat) (c : UInt8) (g : CharGrid) : CharGrid :=
  { g with cells := Function.update g.cells row (Function.update (g.cells row) col c) }

/-- The cursor goes to the next row. Past the last one all rows move up by one instead, and the last
row becomes blank. -/
def newline (rows : Nat) (g : CharGrid) : CharGrid :=
  if g.row + 1 < rows then { g with row := g.row + 1, col := 0 }
  else
    { cells := fun row col => if row + 1 < rows then g.cells (row + 1) col else 0x20
      row := rows - 1
      col := 0 }

/-- A character is written. -/
def writeChar (rows columns : Nat) (c : UInt8) (g : CharGrid) : CharGrid :=
  if c = 0x0D then { g with col := 0 }
  else if c = 0x0A then newline rows g
  else
    let g := g.put g.row g.col c
    if g.col + 1 < columns then { g with col := g.col + 1 } else newline rows g

/-- The previous cell becomes blank. -/
def backspace (columns : Nat) (g : CharGrid) : CharGrid :=
  if g.col = 0 then
    if g.row = 0 then g
    else { g.put (g.row - 1) (columns - 1) 0x20 with row := g.row - 1, col := columns - 1 }
  else { g.put g.row (g.col - 1) 0x20 with col := g.col - 1 }

/-- What a call does. -/
def step (rows columns : Nat) (g : CharGrid) : ConsoleCall → CharGrid
  | .clear => blank
  | .writeChar c => g.writeChar rows columns c
  | .backspace => g.backspace columns

/-- What a sequence of calls does. -/
def run (rows columns : Nat) (calls : List ConsoleCall) (g : CharGrid) : CharGrid :=
  calls.foldl (step rows columns) g

end CharGrid

/-- The colour of a pixel in the rendering of a grid. -/
def CharGrid.pixel (g : CharGrid) (fg bg : UInt32) (x y : Nat) : UInt32 :=
  charPixel fg bg (g.cells (y / fbCharHeight) (x / fbCharWidth)) x y

/-! ## What is shown -/

/-- The place lies below the text area. -/
def ConsoleState.BelowText (s : ConsoleState) (x y : Nat) : Prop :=
  x < s.columns * fbCharWidth ∧ s.rows * fbCharHeight ≤ y ∧ y < s.height

/-- What is below the text area has the colour of the background. -/
def ConsoleState.BlankBelow (s : ConsoleState) : Prop :=
  ∀ x y, s.BelowText x y → s.pixel x y = s.bg

/-- The screen shows the grid. -/
structure Shows (s : ConsoleState) (g : CharGrid) : Prop where
  row : s.row = g.row
  col : s.col = g.col
  pixel : ∀ x y, s.InText x y → s.pixel x y = g.pixel s.fg s.bg x y

section

variable {screen : Screen} {s s' s₁ s₂ : ConsoleState} {g : CharGrid} {x y row col : Nat} {c : UInt8}

/-! ## What a call keeps -/

/-- The text area is the rendering of the grid's cells, and nothing is written outside. -/
structure Rendered (screen : Screen) (s : ConsoleState) (g : CharGrid) : Prop where
  screen : s.screen = screen
  drawable : Drawable s
  pixel : ∀ x y, s.InText x y → s.pixel x y = g.pixel s.fg s.bg x y
  below : s.BlankBelow
  inside : s.WrittenInside

/-- The screen shows the grid, and the cursor is in it. -/
structure Consistent (screen : Screen) (s : ConsoleState) (g : CharGrid) : Prop where
  rendered : Rendered screen s g
  row : s.row = g.row
  col : s.col = g.col
  row_lt : s.row < s.rows
  col_lt : s.col < s.columns

theorem Consistent.shows (h : Consistent screen s g) : Shows s g := ⟨h.row, h.col, h.rendered.pixel⟩

theorem Drawable.aside (h : Drawable s) (ha : Aside s s') : Drawable s' := by
  rw [ha]
  exact ⟨h.enabled, h.columns, h.rows, h.width, h.height, h.pitch, h.columns_lt, h.rows_lt,
    h.rowIndex, h.textIndex⟩

theorem Drawable.cursor (h : Drawable s) : Drawable { s with row := row, col := col } :=
  ⟨h.enabled, h.columns, h.rows, h.width, h.height, h.pitch, h.columns_lt, h.rows_lt, h.rowIndex,
    h.textIndex⟩

theorem Rendered.cursor (h : Rendered screen s g) {row' col' : Nat} :
    Rendered screen { s with row := row, col := col } { g with row := row', col := col' } :=
  ⟨h.screen, h.drawable.cursor, h.pixel, h.below, h.inside⟩

theorem Rendered.aside (h : Rendered screen s g) (ha : Aside s s') : Rendered screen s' g := by
  have hdrawable := h.drawable.aside ha
  rw [ha] at hdrawable ⊢
  exact ⟨h.screen, hdrawable, h.pixel, h.below, h.inside⟩

theorem Consistent.aside (h : Consistent screen s g) (ha : Aside s s') : Consistent screen s' g := by
  have hrendered := h.rendered.aside ha
  rw [ha] at hrendered ⊢
  exact ⟨hrendered, h.row, h.col, h.row_lt, h.col_lt⟩

/-- The cursor goes elsewhere. -/
theorem Consistent.cursor (h : Rendered screen s g) (hrow : row < s.rows) (hcol : col < s.columns) :
    Consistent screen { s with row := row, col := col } { g with row := row, col := col } :=
  ⟨h.cursor, rfl, rfl, hrow, hcol⟩

theorem CharGrid.put_cells (g : CharGrid) {row' col' : Nat} :
    (g.put row col c).cells row' col' =
      if row' = row ∧ col' = col then c else g.cells row' col' := by
  unfold CharGrid.put
  by_cases hrow : row' = row
  · subst hrow
    by_cases hcol : col' = col
    · subst hcol
      simp
    · simp [hcol]
  · simp [hrow]

theorem Rendered.drawn (h : Rendered screen s g) (hrow : row < s.rows) (hd : Drawn row col c s s') :
    Rendered screen s' (g.put row col c) := by
  have hfg : s'.fg = s.fg := by rw [hd.rest]
  have hbg : s'.bg = s.bg := by rw [hd.rest]
  have hrows : s'.rows = s.rows := by rw [hd.rest]
  have hcolumns : s'.columns = s.columns := by rw [hd.rest]
  have hheight : s'.height = s.height := by rw [hd.rest]
  refine ⟨hd.rest.screen_eq.trans h.screen, h.drawable.repaint hd.rest, fun x y hin => ?_,
    fun x y hbelow => ?_, hd.written h.inside⟩
  · have hin : s.InText x y := by rwa [ConsoleState.InText, hrows, hcolumns] at hin
    have hx := (h.drawable.inText hin).1
    rw [hfg, hbg, CharGrid.pixel, CharGrid.put_cells]
    by_cases hcell : InCell row col x y
    · rw [hd.cell x y hcell, if_pos ⟨hcell.2, hcell.1⟩]
    · rw [hd.others x y (hx.trans_le h.drawable.pitch) hcell, h.pixel x y hin,
        if_neg fun hsame => hcell ⟨hsame.2, hsame.1⟩]
      rfl
  · obtain ⟨hx, hlow, hy⟩ := hbelow
    rw [hcolumns] at hx
    rw [hrows] at hlow
    rw [hheight] at hy
    have hcolumn := h.drawable.columns
    have hpitch := h.drawable.pitch
    rw [hbg, hd.others x y ?_ ?_, h.below x y ⟨hx, hlow, hy⟩]
    · simp only [fbCharWidth] at *
      omega
    · rintro ⟨-, hcell⟩
      simp only [fbCharHeight] at *
      omega

/-- After a scroll the rows have moved up, and the last one is blank. -/
theorem Rendered.scrolled (h : Rendered screen s g)
    (hp : Painted (fun x y => x < s.width ∧ y < s.height) (scrolledPixel s) s s') :
    Rendered screen s' { g with cells := fun row col =>
      if row + 1 < s.rows then g.cells (row + 1) col else 0x20 } := by
  have hfg : s'.fg = s.fg := by rw [hp.rest]
  have hbg : s'.bg = s.bg := by rw [hp.rest]
  have hrows : s'.rows = s.rows := by rw [hp.rest]
  have hcolumns : s'.columns = s.columns := by rw [hp.rest]
  have hheight : s'.height = s.height := by rw [hp.rest]
  have hrow := h.drawable.rows
  have hcolumn := h.drawable.columns
  refine ⟨hp.rest.screen_eq.trans h.screen, h.drawable.repaint hp.rest, fun x y hin => ?_,
    fun x y hbelow => ?_, hp.writtenInside h.inside⟩
  · have hin : s.InText x y := by rwa [ConsoleState.InText, hrows, hcolumns] at hin
    rw [hp.inside x y (h.drawable.inText hin), hfg, hbg, scrolledPixel]
    obtain ⟨hx, hy⟩ := hin
    have hnext : (y + fbCharHeight) / fbCharHeight = y / fbCharHeight + 1 :=
      Nat.add_div_right y (by decide)
    have hmod : (y + fbCharHeight) % fbCharHeight = y % fbCharHeight := Nat.add_mod_right ..
    by_cases hlast : y / fbCharHeight + 1 < s.rows
    · have hmoved : s.InText x (y + fbCharHeight) := by
        refine ⟨hx, ?_⟩
        simp only [fbCharHeight] at *
        omega
      rw [if_pos (h.drawable.inText hmoved).2, h.pixel x _ hmoved]
      simp only [CharGrid.pixel, charPixel, hnext, hmod, if_pos hlast]
    · -- the last row gets what was below the text area
      have hblank : (if y + fbCharHeight < s.height then s.pixel x (y + fbCharHeight) else s.bg)
          = s.bg := by
        split_ifs with hinside
        · refine h.below x _ ⟨hx, ?_, hinside⟩
          simp only [fbCharHeight] at *
          omega
        · rfl
      rw [hblank, CharGrid.pixel, charPixel]
      simp only [if_neg hlast]
      rw [glyphPixel_space]
      rfl
  · obtain ⟨hx, hlow, hy⟩ := hbelow
    rw [hcolumns] at hx
    rw [hrows] at hlow
    rw [hheight] at hy
    rw [hbg, hp.inside x y ⟨?_, hy⟩, scrolledPixel, if_neg]
    · simp only [fbCharHeight] at *
      omega
    · simp only [fbCharWidth] at *
      omega

/-- What a scroll does: to the framebuffer, beside the screen, and to the cursor. -/
theorem scrollIfNeeded_split (h : Drawable s) (hrow : ¬ s.row < s.rows) : ∃ s₁ s₂,
    Painted (fun x y => x < s.width ∧ y < s.height) (scrolledPixel s) s s₁ ∧ Aside s₁ s₂ ∧
      Aside { s₂ with row := s.rows - 1 } (scrollIfNeeded s) := by
  have hscroll := scrollFramebuffer_painted h
  have haside : Aside (scrollFramebuffer s) (if (scrollFramebuffer s).vgaEnabled = true then
      scrollVga (scrollFramebuffer s) else scrollFramebuffer s) := by
    split_ifs
    · exact scrollVga_aside
    · exact .refl
  refine ⟨_, _, hscroll, haside, ?_⟩
  have hrest := hscroll.rest
  unfold scrollIfNeeded
  rw [if_neg hrow]
  simp only [h.enabled, if_true]
  generalize scrollFramebuffer s = s₁ at hrest haside ⊢
  generalize (if s₁.vgaEnabled = true then scrollVga s₁ else s₁) = s₂ at haside ⊢
  have hrows : s₂.rows = s.rows := by
    rw [haside, hrest]
  have hlt := h.rows_lt
  rw [hrows, Nat.mod_eq_of_lt (by omega)]
  exact updateCursor_aside

theorem scrollIfNeeded_consistent (h : Rendered screen s g) (hrow : ¬ s.row < s.rows)
    (hcol : s.col = 0) :
    Consistent screen (scrollIfNeeded s)
      { cells := fun row col => if row + 1 < s.rows then g.cells (row + 1) col else 0x20
        row := s.rows - 1
        col := 0 } := by
  obtain ⟨s₁, s₂, hscroll, haside, hcursor⟩ := scrollIfNeeded_split h.drawable hrow
  have hrest := hscroll.rest
  have hrows : s₂.rows = s.rows := by
    rw [haside, hrest]
  have hcolumns : s₂.columns = s.columns := by
    rw [haside, hrest]
  have hcol₂ : s₂.col = 0 := by
    rw [haside, hrest]
    exact hcol
  have hpos := h.drawable.rows_pos
  have hcolumn := h.drawable.columns_pos
  refine Consistent.aside ?_ hcursor
  have hscrolled := (h.scrolled hscroll).aside haside
  refine ⟨Rendered.cursor hscrolled, rfl, hcol₂, ?_, ?_⟩
  · change s.rows - 1 < s₂.rows
    omega
  · change s₂.col < s₂.columns
    omega

/-- The next row, with a scroll where there is none. -/
theorem nextRow_consistent (h : Rendered screen s g) (hrow : s.row = g.row) (hlt : s.row < s.rows) :
    Consistent screen (nextRow s) (g.newline s.rows) := by
  have hrows := h.drawable.rows_lt
  have hmod : (s.row + 1) % 2 ^ 16 = s.row + 1 := Nat.mod_eq_of_lt (by omega)
  unfold nextRow CharGrid.newline
  rw [hmod, ← hrow]
  by_cases hnext : s.row + 1 < s.rows
  · rw [if_pos hnext, scrollIfNeeded, if_pos hnext]
    exact Consistent.cursor h hnext h.drawable.columns_pos
  · rw [if_neg hnext]
    exact scrollIfNeeded_consistent (s := { s with row := s.row + 1, col := 0 }) (g := g) h.cursor
      hnext rfl

theorem drawAtCursor_consistent (h : Consistent screen s g) :
    Consistent screen (drawAtCursor c s) (g.put g.row g.col c) ∧ Repainted s (drawAtCursor c s) := by
  have hdrawn := putFramebufferCharAt_drawn (c := c) h.rendered.drawable h.row_lt h.col_lt
  have hrendered := h.rendered.drawn h.row_lt hdrawn
  have hrest := hdrawn.rest
  rw [drawAtCursor, if_pos h.rendered.drawable.enabled, ← h.row, ← h.col]
  refine ⟨⟨hrendered, ?_, ?_, ?_, ?_⟩, hrest⟩
  · rw [hrest]
    exact h.row
  · rw [hrest]
    exact h.col
  · rw [hrest]
    exact h.row_lt
  · rw [hrest]
    exact h.col_lt

theorem advance_consistent (h : Consistent screen s g) : Consistent screen (advance s)
    (if g.col + 1 < s.columns then { g with col := g.col + 1 } else g.newline s.rows) := by
  have hcolumns := h.rendered.drawable.columns_lt
  have hcol := h.col_lt
  have hmod : (s.col + 1) % 2 ^ 16 = s.col + 1 := Nat.mod_eq_of_lt (by omega)
  have hmoved : Rendered screen { s with col := s.col + 1 } g := h.rendered.cursor
  unfold advance
  rw [hmod, ← h.col]
  refine Consistent.aside ?_ updateCursor_aside
  by_cases hnext : s.col + 1 < s.columns
  · rw [if_pos hnext, if_neg (not_le.mpr hnext)]
    exact ⟨hmoved.cursor, h.row, rfl, h.row_lt, hnext⟩
  · rw [if_neg hnext, if_pos (not_lt.mp hnext)]
    exact nextRow_consistent hmoved h.row h.row_lt

theorem consoleWriteChar_consistent (h : Consistent screen s g) :
    Consistent screen (consoleWriteChar c s) (g.writeChar s.rows s.columns c) := by
  unfold consoleWriteChar CharGrid.writeChar
  split
  · -- '\r'
    refine Consistent.aside ?_ (serialWriteByte_aside.trans updateCursor_aside)
    exact ⟨h.rendered.cursor, h.row, rfl, h.row_lt, h.rendered.drawable.columns_pos⟩
  split
  · -- '\n'
    refine Consistent.aside (nextRow_consistent h.rendered h.row h.row_lt) ?_
    exact (serialWriteByte_aside.trans serialWriteByte_aside).trans updateCursor_aside
  · have haside : Aside s (putVgaAt s.row s.col c s) := putVgaAt_aside
    obtain ⟨hdrawn, hrest⟩ := drawAtCursor_consistent (c := c) (h.aside haside)
    have hrows : (drawAtCursor c (putVgaAt s.row s.col c s)).rows = s.rows := by
      rw [hrest, haside]
    have hcolumns : (drawAtCursor c (putVgaAt s.row s.col c s)).columns = s.columns := by
      rw [hrest, haside]
    have hadvanced := advance_consistent (hdrawn.aside (serialWriteByte_aside (c := c)))
    rw [← hrows, ← hcolumns]
    exact hadvanced

theorem eraseAtCursor_consistent (h : Consistent screen s g) :
    Consistent screen (eraseAtCursor s) (g.put g.row g.col 0x20) := by
  have haside : Aside s (putVgaAt s.row s.col 0x20 s) := putVgaAt_aside
  obtain ⟨hdrawn, -⟩ := drawAtCursor_consistent (c := 0x20) (h.aside haside)
  refine hdrawn.aside (Aside.trans ?_ updateCursor_aside)
  exact (serialWriteByte_aside.trans serialWriteByte_aside).trans serialWriteByte_aside

theorem consoleBackspace_consistent (h : Consistent screen s g) :
    Consistent screen (consoleBackspace s) (g.backspace s.columns) := by
  have hlt := h.row_lt
  have hcol := h.col_lt
  have hcolumns := h.rendered.drawable.columns_lt
  obtain ⟨cells, row, col⟩ := g
  obtain rfl : s.row = row := h.row
  obtain rfl : s.col = col := h.col
  unfold consoleBackspace CharGrid.backspace
  by_cases hzero : s.col = 0
  · rw [if_pos hzero, if_pos hzero]
    by_cases hfirst : s.row = 0
    · rw [if_pos hfirst, if_pos hfirst]
      exact h
    · rw [if_neg hfirst, if_neg hfirst, Nat.mod_eq_of_lt (by omega)]
      exact eraseAtCursor_consistent (Consistent.cursor h.rendered (by omega) (by omega))
  · rw [if_neg hzero, if_neg hzero]
    exact eraseAtCursor_consistent (Consistent.cursor h.rendered hlt (by omega))

/-! ## Clearing -/

theorem clearCells_ends (h : Drawable s) :
    Ends (clearCells s.rows s.columns) s
      (fun _ s' => Painted (fun x y => s.InText x y) (fun _ _ => s.bg) s s') (fun _ _ => False) := by
  refine Ends.mono (Ends.forWrapping (fun row s' => Painted (fun x y => x / fbCharWidth < s.columns ∧
    y / fbCharHeight < row) (fun _ _ => s.bg) s s') h.rows_lt ?_ fun row s₁ hrow h₁ => ?_)
    (fun _ s' hpainted => hpainted.congr fun x y => ?_) fun _ _ h => h
  · exact Painted.refl.congr fun x y => by simp
  · refine Ends.mono (Ends.forWrapping (fun col s' => Painted (fun x y =>
      x / fbCharWidth < s.columns ∧ y / fbCharHeight < row ∨
      x / fbCharWidth < col ∧ y / fbCharHeight = row) (fun _ _ => s.bg) s s') h.columns_lt ?_
      fun col s₂ hcol h₂ => ?_) (fun _ s' hpainted => hpainted.congr fun x y => ?_) fun _ _ h => h
    · exact h₁.congr fun x y => by simp
    · have hrows : s₂.rows = s.rows := by rw [h₂.rest]
      have hcolumns : s₂.columns = s.columns := by rw [h₂.rest]
      have hbg : s₂.bg = s.bg := by rw [h₂.rest]
      have hcell := clearFramebufferCell_painted (h.repaint h₂.rest) (hrows.symm ▸ hrow)
        (hcolumns.symm ▸ hcol)
      rw [hbg] at hcell
      refine Ends.modify ((h₂.trans h.pitch hcell).congr fun x y => ?_)
      simp only [InCell]
      omega
    · omega
  · simp only [ConsoleState.InText, fbCharWidth, fbCharHeight]
    omega

/-- The text area has been cleared. -/
structure Cleared (s s' : ConsoleState) : Prop where
  screen : s'.screen = s.screen
  drawable : Drawable s'
  row : s'.row = 0
  col : s'.col = 0
  text : ∀ x y, s.InText x y → s'.pixel x y = s.bg
  others : ∀ x y, x < s.pitch → ¬ s.InText x y → s'.pixel x y = s.pixel x y
  written : s.WrittenInside → s'.WrittenInside

theorem Aside.pixel (h : Aside s s') : s'.pixel x y = s.pixel x y := by
  rw [h]
  rfl

theorem Aside.inText (h : Aside s s') : s'.InText x y ↔ s.InText x y := by
  rw [h]
  rfl

theorem Cleared.of_painted (h : Drawable s) (hfirst : Aside s s₁)
    (hp : Painted (fun x y => s₁.InText x y) (fun _ _ => s₁.bg) s₁ s₂)
    (hlast : Aside { s₂ with row := 0, col := 0 } s') : Cleared s s' := by
  have hbg : s₁.bg = s.bg := by rw [hfirst]
  have hpitch : s₁.pitch = s.pitch := by rw [hfirst]
  have hpixel : ∀ x y, s'.pixel x y = s₂.pixel x y := fun x y => hlast.pixel
  constructor
  · rw [hlast, hp.rest, hfirst]
    rfl
  · have hcursor : Drawable { s₂ with row := 0, col := 0 } := ((h.aside hfirst).repaint hp.rest).cursor
    exact hcursor.aside hlast
  · rw [hlast]
  · rw [hlast]
  · intro x y hin
    rw [hpixel, hp.inside x y (hfirst.inText.mpr hin), hbg]
  · intro x y hx hout
    rw [hpixel, hp.outside x y (by omega) fun hin => hout (hfirst.inText.mp hin), hfirst.pixel]
  · intro hs
    have hs₁ : s₁.WrittenInside := by
      rw [hfirst]
      exact hs
    have hs₂ := hp.writtenInside hs₁
    rw [hlast]
    exact hs₂

theorem consoleClear_ends (h : Drawable s) :
    Ends consoleClear s (fun _ s' => Cleared s s') (fun _ _ => False) := by
  have hfirst : Aside s (clearVga s) := clearVga_aside
  refine Ends.modify_bind (Ends.get_bind ?_)
  generalize clearVga s = s₁ at hfirst ⊢
  have h₁ := h.aside hfirst
  rw [if_pos h₁.enabled]
  refine Ends.bind (clearCells_ends h₁) (fun _ _ h => h) fun _ s₂ hp => ?_
  exact Ends.modify (.of_painted h hfirst hp updateCursor_aside)

theorem CharGrid.pixel_blank (h : ∀ row col, g.cells row col = 0x20) {fg bg : UInt32} :
    g.pixel fg bg x y = bg := by
  rw [CharGrid.pixel, h, charPixel, glyphPixel_space]
  rfl

theorem Cleared.consistent (h : Cleared s s') (hd : Drawable s) (hbelow : s.BlankBelow)
    (hinside : s.WrittenInside) : Consistent s.screen s' .blank := by
  have hrows : s'.rows = s.rows := congrArg Screen.rows h.screen
  have hcolumns : s'.columns = s.columns := congrArg Screen.columns h.screen
  have hheight : s'.height = s.height := congrArg Screen.height h.screen
  have hbg : s'.bg = s.bg := congrArg Screen.bg h.screen
  refine ⟨⟨h.screen, h.drawable, fun x y hin => ?_, fun x y hin => ?_, h.written hinside⟩, h.row,
    h.col, ?_, ?_⟩
  · have hin : s.InText x y := by rwa [ConsoleState.InText, hrows, hcolumns] at hin
    rw [h.text x y hin, CharGrid.pixel_blank fun _ _ => rfl, hbg]
  · have hin : s.BelowText x y := by rwa [ConsoleState.BelowText, hrows, hcolumns, hheight] at hin
    have hx := hin.1
    have hcolumn := hd.columns
    have hpitch := hd.pitch
    rw [hbg, ← hbelow x y hin]
    refine h.others x y ?_ fun htext => ?_
    · simp only [fbCharWidth] at *
      omega
    · exact absurd htext.2 (not_lt.mpr hin.2.1)
  · rw [h.row]
    exact h.drawable.rows_pos
  · rw [h.col]
    exact h.drawable.columns_pos

/-! ## Runs -/

theorem ConsoleCall.run_ends (h : Consistent screen s g) (call : ConsoleCall) :
    Ends call.run s
      (fun _ s' => Consistent screen s' (g.step screen.rows screen.columns call))
      (fun _ _ => False) := by
  have hrows : s.rows = screen.rows := congrArg Screen.rows h.rendered.screen
  have hcolumns : s.columns = screen.columns := congrArg Screen.columns h.rendered.screen
  rw [← hrows, ← hcolumns]
  cases call with
  | clear =>
    refine Ends.mono (consoleClear_ends h.rendered.drawable) (fun _ s' hcleared => ?_) fun _ _ h => h
    rw [← h.rendered.screen]
    exact hcleared.consistent h.rendered.drawable h.rendered.below h.rendered.inside
  | writeChar c => exact Ends.modify (consoleWriteChar_consistent h)
  | backspace => exact Ends.modify (consoleBackspace_consistent h)

/-- After any calls the screen shows what they do to the grid. -/
theorem consoleCalls_ends (h : Consistent screen s g) (calls : List ConsoleCall) :
    Ends (consoleCalls calls) s
      (fun _ s' => Consistent screen s' (g.run screen.rows screen.columns calls))
      (fun _ _ => False) := by
  induction calls generalizing s g with
  | nil => exact Ends.pure h
  | cons call calls ih =>
    exact Ends.bind (call.run_ends h) (fun _ _ h => h) fun _ s' h' => ih h'

end

/-! ## The console from its start -/

/-- The screen that the boot information describes. -/
def ConsoleBootInfo.screen (info : ConsoleBootInfo) : Screen where
  width := info.framebufferWidth.toNat
  height := info.framebufferHeight.toNat
  pitch := info.framebufferPixelsPerScanline.toNat
  columns := info.framebufferWidth.toNat / fbCharWidth
  rows := info.framebufferHeight.toNat / fbCharHeight
  fg := framebufferColor info.framebufferFormat 0xE6 0xE6 0xE6
  bg := framebufferColor info.framebufferFormat 0x11 0x11 0x11

/-- `console_init` and the calls return, the screen shows the grid, and nothing has been written
outside the framebuffer. -/
def ShowsAfter (info : ConsoleBootInfo) (s : ConsoleState) (calls : List ConsoleCall) : Prop :=
  ∃ s', (consoleInit (some info) >>= fun _ => consoleCalls calls) { s with written := [] }
      = .ok () s' ∧
    s'.screen = info.screen ∧
    Shows s' (CharGrid.blank.run info.screen.rows info.screen.columns calls) ∧ s'.WrittenInside

/-- The numbers of the pixels that begin a row, and of those in the text area, fit 32 bits. -/
def Screen.PixelsFit (screen : Screen) : Prop :=
  (screen.height - 1) * screen.pitch < 2 ^ 32 ∧
    (screen.rows * fbCharHeight - 1) * screen.pitch + screen.columns * fbCharWidth ≤ 2 ^ 32

section

variable {info : ConsoleBootInfo} {s s' s₁ : ConsoleState}

theorem configureConsole_accepted (h : info.accepted = true) :
    (configureConsole (some info) s).screen = info.screen ∧
    (configureConsole (some info) s).framebufferEnabled = true ∧
    (configureConsole (some info) s).framebuffer = s.framebuffer ∧
    (configureConsole (some info) s).written = s.written := by
  unfold configureConsole
  simp only
  rw [if_pos h]
  exact ⟨rfl, rfl, rfl, rfl⟩

theorem ConsoleBootInfo.accepted_sizes (h : info.accepted = true) :
    fbCharWidth ≤ info.screen.width ∧ fbCharHeight ≤ info.screen.height ∧
      info.screen.width ≤ info.screen.pitch := by
  simp only [ConsoleBootInfo.accepted, Bool.and_eq_true, decide_eq_true_eq, ge_iff_le,
    UInt32.le_iff_toNat_le] at h
  exact ⟨h.1.1.2, h.1.2, h.2⟩

theorem configureConsole_drawable (h : info.accepted = true) (hpixels : info.screen.PixelsFit)
    (hrows : info.screen.rows < 2 ^ 16) (hcolumns : info.screen.columns < 2 ^ 16) :
    Drawable (configureConsole (some info) s) := by
  obtain ⟨hscreen, henabled, -, -⟩ := configureConsole_accepted (s := s) h
  obtain ⟨hwidth, hheight, hpitch⟩ := info.accepted_sizes h
  generalize configureConsole (some info) s = s₁ at hscreen henabled ⊢
  have hdrawable : s₁.columns = s₁.width / fbCharWidth ∧ s₁.rows = s₁.height / fbCharHeight := by
    have hc : s₁.columns = info.screen.columns := congrArg Screen.columns hscreen
    have hr : s₁.rows = info.screen.rows := congrArg Screen.rows hscreen
    have hw : s₁.width = info.screen.width := congrArg Screen.width hscreen
    have hh : s₁.height = info.screen.height := congrArg Screen.height hscreen
    rw [hc, hr, hw, hh]
    exact ⟨rfl, rfl⟩
  rw [← hscreen] at hwidth hheight hpitch hpixels hrows hcolumns
  have hmul : ∀ y n, y < n → y * s₁.pitch ≤ (n - 1) * s₁.pitch := fun y n hy =>
    Nat.mul_le_mul_right _ (by omega)
  refine ⟨henabled, hdrawable.1, hdrawable.2, hwidth, hheight, hpitch, hcolumns, hrows,
    fun y hy => (hmul y _ hy).trans_lt hpixels.1, fun x y hin => ?_⟩
  have hle := hmul y _ hin.2
  have hx := hin.1
  have htext : (s₁.rows * fbCharHeight - 1) * s₁.pitch + s₁.columns * fbCharWidth ≤ 2 ^ 32 :=
    hpixels.2
  omega

/-- The loops over the cells end only where their counters get to the bounds. -/
theorem bounds_of_consoleClear {u : Unit} (h : consoleClear s = .ok u s')
    (henabled : s.framebufferEnabled = true) (hpos : 0 < s.rows) :
    s.rows < 2 ^ 16 ∧ s.columns < 2 ^ 16 := by
  have hfirst : Aside s (clearVga s) := clearVga_aside
  have henabled₁ : (clearVga s).framebufferEnabled = true := by
    rw [hfirst]
    exact henabled
  have hrows : (clearVga s).rows = s.rows := by rw [hfirst]
  have hcolumns : (clearVga s).columns = s.columns := by rw [hfirst]
  obtain ⟨_, s₁, hmodify, h⟩ := ok_of_bind h
  cases hmodify
  obtain ⟨_, s₂, hget, h⟩ := ok_of_bind h
  cases hget
  obtain ⟨_, s₃, hcells, -⟩ := ok_of_bind h
  rw [if_pos henabled₁, hrows, hcolumns] at hcells
  obtain ⟨s₄, hfirstRow⟩ := first_of_forWrapping hpos hcells
  exact ⟨bound_lt_of_forWrapping (by decide) hcells,
    bound_lt_of_forWrapping (by decide) hfirstRow⟩

/-! ## Newlines -/

/-- A newline before the last row leaves the screen as it is. -/
theorem newline_before_last (h : Drawable s) (hrow : s.row + 1 < s.rows) :
    (consoleWriteChar 0x0A s).screen = s.screen ∧ Drawable (consoleWriteChar 0x0A s) ∧
      (consoleWriteChar 0x0A s).row = s.row + 1 ∧
      ∀ x y, (consoleWriteChar 0x0A s).pixel x y = s.pixel x y := by
  have hlt := h.rows_lt
  have hnext : nextRow s = { s with col := 0, row := s.row + 1 } := by
    rw [nextRow, Nat.mod_eq_of_lt (by omega), scrollIfNeeded, if_pos hrow]
  have haside : Aside { s with col := 0, row := s.row + 1 } (consoleWriteChar 0x0A s) := by
    rw [← hnext]
    exact (serialWriteByte_aside.trans serialWriteByte_aside).trans updateCursor_aside
  refine ⟨?_, h.cursor.aside haside, ?_, fun x y => haside.pixel⟩
  · rw [haside]
    rfl
  · rw [haside]

/-- A newline on the last row scrolls the pixels. -/
theorem newline_on_last (h : Drawable s) (hrow : s.row + 1 = s.rows) (hx : x < s.width)
    (hy : y < s.height) : (consoleWriteChar 0x0A s).pixel x y = scrolledPixel s x y := by
  have hlt := h.rows_lt
  have haside : Aside (nextRow s) (consoleWriteChar 0x0A s) :=
    (serialWriteByte_aside.trans serialWriteByte_aside).trans updateCursor_aside
  have hdrawable : Drawable { s with col := 0, row := s.row + 1 } := h.cursor
  have hnot : ¬ s.row + 1 < s.rows := by omega
  obtain ⟨s₁, s₂, hscroll, haside₁, hcursor⟩ := scrollIfNeeded_split hdrawable hnot
  rw [haside.pixel, nextRow, Nat.mod_eq_of_lt (by omega), hcursor.pixel]
  exact haside₁.pixel.trans (hscroll.inside x y ⟨hx, hy⟩)

/-- Newlines up to the first scroll. -/
theorem newlines_run {k : Nat} (h : Drawable s) (hrow : s.row + k + 1 = s.rows) :
    ∃ s', consoleCalls (List.replicate (k + 1) (.writeChar 0x0A)) s = .ok () s' ∧
      ∀ x y, x < s.width → y < s.height → s'.pixel x y = scrolledPixel s x y := by
  induction k generalizing s with
  | zero => exact ⟨_, rfl, fun x y hx hy => newline_on_last h hrow hx hy⟩
  | succ k ih =>
    obtain ⟨hscreen, hdrawable, hnext, hpixel⟩ := newline_before_last h (by omega)
    have hrows : (consoleWriteChar 0x0A s).rows = s.rows := congrArg Screen.rows hscreen
    have hwidth : (consoleWriteChar 0x0A s).width = s.width := congrArg Screen.width hscreen
    have hheight : (consoleWriteChar 0x0A s).height = s.height := congrArg Screen.height hscreen
    have hbg : (consoleWriteChar 0x0A s).bg = s.bg := congrArg Screen.bg hscreen
    obtain ⟨s', hrun, hscrolled⟩ := ih hdrawable (by omega)
    refine ⟨s', hrun, fun x y hx hy => ?_⟩
    rw [hscrolled x y (hwidth.symm ▸ hx) (hheight.symm ▸ hy)]
    simp only [scrolledPixel, hpixel, hheight, hbg]

theorem CharGrid.run_newlines {g : CharGrid} {rows columns : Nat}
    (h : ∀ row col, g.cells row col = 0x20) (n row col : Nat) :
    (g.run rows columns (List.replicate n (.writeChar 0x0A))).cells row col = 0x20 := by
  induction n generalizing g with
  | zero => exact h row col
  | succ n ih =>
    refine ih (g := g.newline rows) fun row col => ?_
    unfold CharGrid.newline
    split
    · exact h row col
    · simp only
      split
      · exact h _ _
      · rfl

/-! ## When the screen is right -/

/-- What is below the text area has the colour of the background from the start. -/
def BlankBelowAtStart (info : ConsoleBootInfo) (framebuffer : Nat → UInt32) : Prop :=
  ∀ x y, x < info.screen.columns * fbCharWidth → info.screen.rows * fbCharHeight ≤ y →
    y < info.screen.height → framebuffer (y * info.screen.pitch + x) = info.screen.bg

theorem configureConsole_blankBelow (h : info.accepted = true) :
    (configureConsole (some info) s).BlankBelow ↔ BlankBelowAtStart info s.framebuffer := by
  obtain ⟨hscreen, -, hframebuffer, -⟩ := configureConsole_accepted (s := s) h
  generalize configureConsole (some info) s = s₁ at hscreen hframebuffer ⊢
  have hbelow : s₁.BlankBelow ↔ BlankBelowAtStart info s₁.framebuffer := by
    unfold BlankBelowAtStart
    rw [← hscreen]
    constructor
    · exact fun h x y hx hlow hy => h x y ⟨hx, hlow, hy⟩
    · exact fun h x y hin => h x y hin.1 hin.2.1 hin.2.2
  rw [hbelow, hframebuffer]

/-- The counters of `console_clear` get to their bounds. -/
theorem bounds_of_showsAfter (h : info.accepted = true) (hshows : ShowsAfter info s []) :
    info.screen.rows < 2 ^ 16 ∧ info.screen.columns < 2 ^ 16 := by
  obtain ⟨s', hrun, -⟩ := hshows
  obtain ⟨hscreen, henabled, -, -⟩ := configureConsole_accepted (s := { s with written := [] }) h
  have hheight : fbCharHeight ≤ info.screen.height := (info.accepted_sizes h).2.1
  have hpos : 0 < info.screen.rows := Nat.div_pos hheight (by decide)
  obtain ⟨_, s₁, hinit, -⟩ := ok_of_bind hrun
  obtain ⟨_, s₂, hconfigure, hclear⟩ := ok_of_bind hinit
  cases hconfigure
  rw [← hscreen] at hpos ⊢
  exact bounds_of_consoleClear hclear henabled hpos

/-- Newlines up to the first scroll bring what is below the text area into it. -/
theorem blankBelow_of_showsAfter (h : info.accepted = true) (hpixels : info.screen.PixelsFit)
    (hshows : ∀ calls, ShowsAfter info s calls) : BlankBelowAtStart info s.framebuffer := by
  obtain ⟨hrows, hcolumns⟩ := bounds_of_showsAfter h (hshows [])
  have hdrawable := configureConsole_drawable (s := { s with written := [] }) h hpixels hrows hcolumns
  have hscreen := (configureConsole_accepted (s := { s with written := [] }) h).1
  have hbelow := configureConsole_blankBelow (s := { s with written := [] }) h
  refine hbelow.mp ?_
  have hconfigure : ∀ calls s', (consoleInit (some info) >>= fun _ => consoleCalls calls)
      { s with written := [] } = .ok () s' →
      ∃ s₁, consoleClear (configureConsole (some info) { s with written := [] }) = .ok () s₁ ∧
        consoleCalls calls s₁ = .ok () s' := by
    intro calls s' hrun
    obtain ⟨_, s₁, hinit, hcalls⟩ := ok_of_bind hrun
    obtain ⟨_, s₂, hconfigure, hclear⟩ := ok_of_bind hinit
    cases hconfigure
    exact ⟨s₁, hclear, hcalls⟩
  generalize configureConsole (some info) { s with written := [] } = s₀ at *
  intro x y hin
  obtain ⟨hx, hlow, hy⟩ := hin
  have hpos := hdrawable.rows_pos
  obtain ⟨s', hrun, hscreen', hshow, -⟩ :=
    hshows (List.replicate (s₀.rows - 1 + 1) (.writeChar 0x0A))
  obtain ⟨s₁, hclear, hcalls⟩ := hconfigure _ s' hrun
  have hcleared := (consoleClear_ends hdrawable).of_ok hclear
  have hrows₁ : s₁.rows = s₀.rows := congrArg Screen.rows hcleared.screen
  have hwidth₁ : s₁.width = s₀.width := congrArg Screen.width hcleared.screen
  have hheight₁ : s₁.height = s₀.height := congrArg Screen.height hcleared.screen
  have hcolumn := hdrawable.columns
  have hrow := hdrawable.rows
  have hpitch := hdrawable.pitch
  simp only [fbCharWidth, fbCharHeight] at hx hlow hcolumn hrow
  obtain ⟨s₂, hnewlines, hscrolled⟩ := newlines_run (k := s₀.rows - 1) hcleared.drawable (by
    rw [hcleared.row, hrows₁]
    omega)
  cases hcalls.symm.trans hnewlines
  have hmoved := hscrolled x (y - fbCharHeight) (by omega) (by omega)
  have hplace : y - fbCharHeight + fbCharHeight = y := Nat.sub_add_cancel (by
    simp only [fbCharHeight]
    omega)
  rw [scrolledPixel, hplace, if_pos (hheight₁.symm ▸ hy), hcleared.others x y (by omega) fun htext =>
    absurd htext.2 (not_lt.mpr hlow)] at hmoved
  have hsame : s'.screen = s₀.screen := hscreen'.trans hscreen.symm
  have hrows' : s'.rows = s₀.rows := congrArg Screen.rows hsame
  have hcolumns' : s'.columns = s₀.columns := congrArg Screen.columns hsame
  have hbg' : s'.bg = s₀.bg := congrArg Screen.bg hsame
  rw [← hmoved, ← hbg', hshow.pixel x (y - fbCharHeight) ⟨?_, ?_⟩]
  · exact CharGrid.pixel_blank fun row col => CharGrid.run_newlines (fun _ _ => rfl) _ row col
  · rw [hcolumns']
    exact hx
  · rw [hrows']
    simp only [fbCharHeight]
    omega

/-- The screen shows the grid after any calls exactly if the numbers of rows and columns fit the
16-bit counters and what is below the text area is blank from the start: `console_clear` does not
clear it, and the first scroll moves it into the last row. -/
theorem console_shows_iff (info : ConsoleBootInfo) (haccepted : info.accepted = true)
    (hpixels : info.screen.PixelsFit) (s : ConsoleState) :
    (∀ calls, ShowsAfter info s calls) ↔
      info.screen.rows < 2 ^ 16 ∧ info.screen.columns < 2 ^ 16 ∧
        BlankBelowAtStart info s.framebuffer := by
  constructor
  · intro h
    obtain ⟨hrows, hcolumns⟩ := bounds_of_showsAfter haccepted (h [])
    exact ⟨hrows, hcolumns, blankBelow_of_showsAfter haccepted hpixels h⟩
  · rintro ⟨hrows, hcolumns, hblank⟩ calls
    have hdrawable := configureConsole_drawable (s := { s with written := [] }) haccepted hpixels
      hrows hcolumns
    obtain ⟨hscreen, -, -, hwritten⟩ :=
      configureConsole_accepted (s := { s with written := [] }) haccepted
    have hbelow := (configureConsole_blankBelow (s := { s with written := [] }) haccepted).mpr hblank
    have hends : Ends (consoleInit (some info) >>= fun _ => consoleCalls calls)
        { s with written := [] }
        (fun _ s' => Consistent info.screen s'
          (CharGrid.blank.run info.screen.rows info.screen.columns calls)) (fun _ _ => False) := by
      refine Ends.bind (Ends.modify_bind (consoleClear_ends hdrawable)) (fun _ _ h => h) ?_
      intro _ s₁ hcleared
      refine consoleCalls_ends ?_ calls
      rw [← hscreen]
      refine hcleared.consistent hdrawable hbelow ?_
      intro index hindex
      rw [hwritten] at hindex
      cases hindex
    obtain ⟨_, s', hrun, hconsistent⟩ := hends.exists_ok
    exact ⟨s', hrun, hconsistent.rendered.screen, hconsistent.shows, hconsistent.rendered.inside⟩

/-- A screen of one cell, with some rows of pixels below it. -/
def smallScreen (height : UInt32) : ConsoleBootInfo := ⟨4, 0x80000000, 12, height, 12, 1⟩

/-- A console that has not been used yet. -/
def unusedConsole (color : UInt32) : ConsoleState :=
  ⟨0, 0, true, false, 0, 0, 0, 80, 25, 0, 0, fun _ => color, fun _ => 0, [], [], []⟩

theorem console_shows_small : ShowsAfter (smallScreen 25) (unusedConsole 0x111111)
    [.writeChar 0x41, .writeChar 0x0A, .backspace] := by
  have hfits : (smallScreen 25).screen.PixelsFit := by
    unfold Screen.PixelsFit
    decide
  have hblank : BlankBelowAtStart (smallScreen 25) (unusedConsole 0x111111).framebuffer := by
    intro x y _ _ _
    have hcolor : (0x111111 : UInt32) = (smallScreen 25).screen.bg := by decide
    exact hcolor
  have hshows := (console_shows_iff (smallScreen 25) (by decide) hfits (unusedConsole 0x111111)).mpr
    ⟨by decide, by decide, hblank⟩
  exact hshows _

/-- With one black row of pixels below the cell a newline leaves a black line at the top. -/
theorem console_not_shows :
    ¬ ∀ calls, ShowsAfter (smallScreen 21) (unusedConsole 0) calls := by
  intro h
  have hblank := blankBelow_of_showsAfter (by decide) (by unfold Screen.PixelsFit; decide) h
  have hblack := hblank 0 20 (by decide) (by decide) (by decide)
  revert hblack
  decide

end

end FunnyOS.Devices
