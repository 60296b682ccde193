import FunnyOS.Devices.ConsoleGrid
import FunnyOS.Programs.UserMemory

/-!
# The line that is typed and the line that is seen

`keyboard_read_line` keeps the line in the buffer of its caller and shows it by calls of the
console, which knows nothing of the line. The cursor wraps, rows scroll away at the top, and a
backspace goes back over the end of a row. Still the text before the cursor is at any time what was
there at the start, with the line behind it.
-/

namespace FunnyOS.Devices

namespace CharGrid

/-! ## Text on a grid -/

section

variable {rows columns : Nat} {text : List UInt8} {c : UInt8} {g : CharGrid} {p q : Nat}

/-- The cells of a grid one after the other. -/
def cellAt (columns : Nat) (g : CharGrid) (p : Nat) : UInt8 := g.cells (p / columns) (p % columns)

/-- The cell of the cursor. -/
def position (columns : Nat) (g : CharGrid) : Nat := g.row * columns + g.col

/-- The cursor stands in the grid, the text ends before it as far as the grid shows that, and behind
it nothing is shown. -/
structure Spells (rows columns : Nat) (text : List UInt8) (g : CharGrid) : Prop where
  row_lt : g.row < rows
  col_lt : g.col < columns
  before : ∀ i c, text.reverse[i]? = some c → i < g.position columns →
    g.cellAt columns (g.position columns - 1 - i) = c
  behind : ∀ p, g.position columns ≤ p → p < rows * columns → g.cellAt columns p = 0x20

theorem cellAt_put {row col : Nat} (hcol : col < columns) : (g.put row col c).cellAt columns p =
    if p = row * columns + col then c else g.cellAt columns p := by
  have hcolumns : 0 < columns := by omega
  have hcell : p / columns = row ∧ p % columns = col ↔ p = row * columns + col := by
    constructor
    · rintro ⟨rfl, rfl⟩
      rw [Nat.mul_comm, Nat.div_add_mod]
    · rintro rfl
      rw [Nat.mul_comm, Nat.mul_add_div hcolumns, Nat.mul_add_mod, Nat.mod_eq_of_lt hcol,
        Nat.div_eq_of_lt hcol]
      exact ⟨rfl, rfl⟩
  unfold cellAt
  simp only [put_cells, hcell]

/-- The next row, with what it does to the cells by their numbers: those of the rows that are gone
are missed, and a row that comes is blank. -/
theorem newline_moves (hrow : g.row < rows) (hcolumns : 0 < columns) : ∃ gone,
    (g.newline rows).position columns + gone = (g.row + 1) * columns ∧
    (∀ p < (g.newline rows).position columns,
      (g.newline rows).cellAt columns p = g.cellAt columns (p + gone)) ∧
    ∀ p, (g.newline rows).position columns ≤ p → p < rows * columns →
      (g.newline rows).cellAt columns p = 0x20 ∨ p + gone < rows * columns ∧
        (g.newline rows).cellAt columns p = g.cellAt columns (p + gone) := by
  unfold newline
  split_ifs with hnext
  · exact ⟨0, Nat.add_zero _, fun p _ => rfl, fun p _ hp => .inr ⟨hp, rfl⟩⟩
  have hlast : rows = g.row + 1 := by omega
  subst hlast
  refine ⟨columns, ?_, fun p hp => ?_, fun p hle hp => .inl ?_⟩
  · unfold position
    rw [Nat.add_zero, Nat.add_sub_cancel, Nat.succ_mul]
  · have hdiv : p / columns < g.row := (Nat.div_lt_iff_lt_mul hcolumns).2 hp
    unfold cellAt
    rw [Nat.add_div_right p hcolumns, Nat.add_mod_right]
    exact if_pos (by omega)
  · have hdiv : g.row ≤ p / columns := (Nat.le_div_iff_mul_le hcolumns).2 hle
    exact if_neg (by omega)

theorem writeChar_inside (hrow : g.row < rows) (hcol : g.col < columns) :
    (g.writeChar rows columns c).row < rows ∧ (g.writeChar rows columns c).col < columns := by
  have hcolumns : 0 < columns := Nat.zero_lt_of_lt hcol
  have hnewline (g' : CharGrid) :
      (g'.newline rows).row < rows ∧ (g'.newline rows).col < columns := by
    unfold newline
    split_ifs with hnext
    · exact ⟨hnext, hcolumns⟩
    · exact ⟨Nat.sub_lt (Nat.zero_lt_of_lt hrow) Nat.one_pos, hcolumns⟩
  unfold writeChar
  dsimp only
  split_ifs with hreturn hfeed hnext
  · exact ⟨hrow, hcolumns⟩
  · exact hnewline g
  · exact ⟨hrow, hnext⟩
  · exact hnewline _

/-- The cursor after a character, and the cells. -/
theorem writeChar_moves (hrow : g.row < rows) (hcol : g.col < columns) (hreturn : c ≠ 0x0D)
    (hfeed : c ≠ 0x0A) : ∃ gone,
    (g.writeChar rows columns c).position columns + gone = g.position columns + 1 ∧
    (∀ p < (g.writeChar rows columns c).position columns,
      (g.writeChar rows columns c).cellAt columns p =
        if p + gone = g.position columns then c else g.cellAt columns (p + gone)) ∧
    ∀ p, (g.writeChar rows columns c).position columns ≤ p → p < rows * columns →
      (g.writeChar rows columns c).cellAt columns p = 0x20 ∨ p + gone < rows * columns ∧
        (g.writeChar rows columns c).cellAt columns p = g.cellAt columns (p + gone) := by
  unfold writeChar
  rw [if_neg hreturn, if_neg hfeed]
  have hput : ∀ p, (g.put g.row g.col c).cellAt columns p =
      if p = g.position columns then c else g.cellAt columns p := fun p => cellAt_put hcol
  dsimp only
  split_ifs with hnext
  · refine ⟨0, Nat.add_assoc .. ▸ rfl, fun p _ => hput p, fun p hle hp => .inr ⟨hp, ?_⟩⟩
    refine (hput p).trans (if_neg fun heq => ?_)
    have hcursor : g.row * columns + (g.col + 1) ≤ p := hle
    unfold position at heq
    omega
  obtain ⟨gone, hpos, hbefore, hbehind⟩ :=
    newline_moves (g := g.put g.row g.col c) hrow (show 0 < columns by omega)
  have hend : (g.row + 1) * columns = g.position columns + 1 := by
    have hlast : ¬ g.col + 1 < columns := hnext
    unfold position
    rw [Nat.succ_mul]
    omega
  have hpos' : ((g.put g.row g.col c).newline rows).position columns + gone =
      g.position columns + 1 := hpos.trans hend
  refine ⟨gone, hpos', fun p hp => (hbefore p hp).trans (hput _), fun p hle hp => ?_⟩
  refine (hbehind p hle hp).imp id fun h => ⟨h.1, h.2.trans ((hput _).trans (if_neg ?_))⟩
  omega

/-- A character is added to the text. -/
theorem Spells.writeChar (h : Spells rows columns text g) (hreturn : c ≠ 0x0D) (hfeed : c ≠ 0x0A) :
    Spells rows columns (text ++ [c]) (g.writeChar rows columns c) := by
  obtain ⟨hrow, hcol⟩ := writeChar_inside (c := c) h.row_lt h.col_lt
  obtain ⟨gone, hpos, hbefore, hbehind⟩ := writeChar_moves h.row_lt h.col_lt hreturn hfeed
  refine ⟨hrow, hcol, fun i d hd hi => ?_, fun p hle hp => ?_⟩
  · rw [List.reverse_append, List.reverse_singleton, List.singleton_append] at hd
    rw [hbefore _ (by omega)]
    cases i with
    | zero =>
      rw [if_pos (by omega)]
      exact Option.some.inj hd
    | succ i =>
      rw [List.getElem?_cons_succ] at hd
      rw [if_neg (by omega), ← h.before i d hd (by omega)]
      congr 1
      omega
  · rcases hbehind p hle hp with hblank | ⟨hlt, hkept⟩
    · exact hblank
    · exact hkept.trans (h.behind _ (by omega) hlt)

/-- The last character of the text is taken away. -/
theorem Spells.backspace (h : Spells rows columns text g) :
    Spells rows columns text.dropLast (g.backspace columns) := by
  have hbackspace : 0 < g.position columns → ∃ row col, row < rows ∧ col < columns ∧
      row * columns + col = g.position columns - 1 ∧
      g.backspace columns = { g.put row col 0x20 with row := row, col := col } := by
    intro hpos
    have hrow := h.row_lt
    have hcol := h.col_lt
    unfold position at hpos ⊢
    unfold CharGrid.backspace
    by_cases hzero : g.col = 0
    · obtain ⟨row, hsucc⟩ : ∃ row, g.row = row + 1 := by
        refine Nat.exists_eq_succ_of_ne_zero fun hrow0 => ?_
        rw [hzero, hrow0, Nat.zero_mul] at hpos
        omega
      rw [if_pos hzero, if_neg (by omega)]
      refine ⟨g.row - 1, columns - 1, by omega, by omega, ?_, rfl⟩
      rw [hzero, hsucc, Nat.succ_mul, Nat.add_sub_cancel]
      omega
    · rw [if_neg hzero]
      exact ⟨g.row, g.col - 1, hrow, by omega, by omega, rfl⟩
  by_cases hpos : 0 < g.position columns
  · obtain ⟨row, col, hrow, hcol, hcursor, heq⟩ := hbackspace hpos
    have hposition : (g.backspace columns).position columns = g.position columns - 1 := by
      rw [heq]
      exact hcursor
    have hcells : ∀ p, (g.backspace columns).cellAt columns p =
        if p = g.position columns - 1 then 0x20 else g.cellAt columns p := by
      intro p
      rw [heq, ← hcursor]
      exact cellAt_put hcol
    refine ⟨by rw [heq]; exact hrow, by rw [heq]; exact hcol, fun i d hd hi => ?_,
      fun p hle hp => ?_⟩
    · rw [hposition] at hi ⊢
      rw [hcells, if_neg (by omega)]
      rw [← List.tail_reverse, List.getElem?_tail] at hd
      rw [← h.before (i + 1) d hd (by omega)]
      congr 1
      omega
    · rw [hposition] at hle
      rw [hcells]
      split_ifs with hlast
      · rfl
      · exact h.behind p (by omega) hp
  · have hstart : g.row = 0 ∧ g.col = 0 := by
      have hcol := h.col_lt
      unfold position at hpos
      refine ⟨Nat.eq_zero_of_not_pos fun hrow => hpos ?_, by omega⟩
      exact Nat.add_pos_left (Nat.mul_pos hrow (by omega)) _
    have hsame : g.backspace columns = g := by
      unfold CharGrid.backspace
      rw [if_pos hstart.2, if_pos hstart.1]
    rw [hsame]
    exact ⟨h.row_lt, h.col_lt, fun i d _ hi => absurd hi (by omega), h.behind⟩

end

end CharGrid

end FunnyOS.Devices

namespace FunnyOS.Programs

open Prog Devices
open Devices.CharGrid (Spells)

section

variable {rows columns buffer capacity n : Nat} {text line line' line'' : List UInt8} {c : UInt8}
  {calls calls' : List ConsoleCall} {event : KeyEvent} {events rest : List KeyEvent}
  {s s' : ForegroundState} {screen : Screen} {console : ConsoleState} {g : CharGrid}

/-! ## What is shown of the line -/

/-- The calls make one line of another, behind any text. -/
def Echoes (rows columns : Nat) (line line' : List UInt8) (calls : List ConsoleCall) : Prop :=
  ∀ text g, Spells rows columns (text ++ line) g →
    Spells rows columns (text ++ line') (g.run rows columns calls)

theorem Echoes.refl : Echoes rows columns line line [] := fun _ _ h => h

theorem Echoes.trans (h : Echoes rows columns line line' calls)
    (h' : Echoes rows columns line' line'' calls') :
    Echoes rows columns line line'' (calls ++ calls') := by
  intro text g hspells
  unfold CharGrid.run
  rw [List.foldl_append]
  exact h' text _ (h text g hspells)

theorem Echoes.type (hreturn : c ≠ 0x0D) (hfeed : c ≠ newline) :
    Echoes rows columns line (line ++ [c]) [.writeChar c] := by
  intro text g hspells
  rw [← List.append_assoc]
  exact hspells.writeChar hreturn hfeed

theorem Echoes.backspace (hne : line ≠ []) :
    Echoes rows columns line line.dropLast [.backspace] := by
  intro text g hspells
  rw [← List.dropLast_append_of_ne_nil hne]
  exact hspells.backspace

/-- What a round of the editor does: it goes on with a line that is shown, or the line is over. -/
theorem readLineFrom_step (h : Editing buffer capacity s line s')
    (hlimit : buffer + capacity < 2 ^ 64) :
    (∃ line' calls s'', Editing buffer capacity s line' s'' ∧
      s''.output = calls.reverse ++ s'.output ∧ Echoes rows columns line line' calls ∧
      readLineFrom buffer capacity (event :: rest) line.length s' =
        readLineFrom buffer capacity rest line'.length s'') ∨
    ∃ s'', readLineFrom buffer capacity (event :: rest) line.length s' = .ok line.length s'' ∧
      StringAt s''.memory buffer line ∧ s''.output = .writeChar newline :: s'.output := by
  have haddress : ∀ i, i < capacity → userAddress buffer i = buffer + i :=
    fun i hi => Nat.mod_eq_of_lt (by omega)
  have hfits := h.fits
  generalize hrun : readLineFrom buffer capacity (event :: rest) line.length s' = run
  have hignored : readLineFrom buffer capacity rest line.length s' = run → ∃ line' calls s'',
      Editing buffer capacity s line' s'' ∧ s''.output = calls.reverse ++ s'.output ∧
      Echoes rows columns line line' calls ∧
      run = readLineFrom buffer capacity rest line'.length s'' :=
    fun heq => ⟨line, [], s', h, rfl, .refl, heq.symm⟩
  rw [readLineFrom] at hrun
  cases hchar : event.char with
  | none =>
    rw [hchar] at hrun
    exact .inl (hignored hrun)
  | some c =>
    rw [hchar] at hrun
    dsimp only at hrun
    by_cases hback : c = backspace
    · rw [if_pos hback] at hrun
      by_cases hempty : line = []
      · rw [if_neg (by rw [hempty]; exact not_not.2 rfl)] at hrun
        exact .inl (hignored hrun)
      · have hpos : line.length ≠ 0 := mt List.length_eq_zero_iff.1 hempty
        rw [if_pos hpos, haddress _ (by omega)] at hrun
        have hstore := h.store (Nat.sub_le line.length 1) 0 (.backspace :: s'.output)
        rw [← List.dropLast_eq_take] at hstore
        rw [← List.length_dropLast] at hrun hstore
        exact .inl ⟨line.dropLast, [.backspace], _, hstore, rfl, .backspace hempty, hrun.symm⟩
    rw [if_neg hback] at hrun
    by_cases hnewline : c = newline
    · rw [if_pos hnewline, haddress _ hfits] at hrun
      have hdone := h.store le_rfl 0 (.writeChar newline :: s'.output)
      rw [List.take_length] at hdone
      exact .inr ⟨_, hrun.symm, hdone.string (Function.update_self ..), rfl⟩
    rw [if_neg hnewline, Nat.mod_eq_of_lt (show line.length + 1 < 2 ^ 64 by omega)] at hrun
    by_cases hfull : line.length + 1 ≥ capacity
    · rw [if_pos hfull] at hrun
      exact .inl (hignored hrun)
    · rw [if_neg hfull, haddress _ hfits, haddress _ (by omega)] at hrun
      have htyped := h.type (KeyEvent.char_ne_zero hchar) (by omega) (.writeChar c :: s'.output)
      have hlength : (line ++ [c]).length = line.length + 1 := List.length_append
      refine .inl ⟨line ++ [c], [.writeChar c], _, htyped, rfl,
        .type (KeyEvent.char_ne_return hchar) hnewline, ?_⟩
      rw [hlength]
      exact hrun.symm

/-! ## A whole line -/

/-- The calls leave a screen on which the text stands before the cursor, and nothing behind it. -/
def LeavesText (screen : Screen) (console : ConsoleState) (calls : List ConsoleCall)
    (text : List UInt8) : Prop :=
  ∃ console' g', consoleCalls calls console = .ok () console' ∧ Consistent screen console' g' ∧
    Spells screen.rows screen.columns text g'

/-- The buffer and the screen have the same line when the editor returns, and already while it waits
for more. -/
def SameLine (screen : Screen) (console : ConsoleState) (text : List UInt8) (buffer : Nat)
    (start : ForegroundState) : Outcome ForegroundState Unit Nat → Prop
  | .ok n s' => ∃ chars calls, n = chars.length ∧ StringAt s'.memory buffer chars ∧
      s'.output = .writeChar newline :: (calls.reverse ++ start.output) ∧
      LeavesText screen console calls (text ++ chars)
  | .timeout s' => ∃ chars calls, (∀ i (_ : i < chars.length), s'.memory (buffer + i) = chars[i]) ∧
      s'.output = calls.reverse ++ start.output ∧ LeavesText screen console calls (text ++ chars)
  | _ => False

/-- The loop of `keyboard_read_line`, by induction on what it is given. -/
theorem readLineFrom_sameLine (h : Editing buffer capacity s line s')
    (hlimit : buffer + capacity < 2 ^ 64) (houtput : s'.output = calls.reverse ++ s.output)
    (hechoes : Echoes screen.rows screen.columns [] line calls)
    (hconsole : Consistent screen console g)
    (hspells : Spells screen.rows screen.columns text g) :
    SameLine screen console text buffer s
      (readLineFrom buffer capacity events line.length s') := by
  have hleaves : ∀ {line calls}, Echoes screen.rows screen.columns [] line calls →
      LeavesText screen console calls (text ++ line) := by
    intro line calls hechoes
    obtain ⟨_, console', hcalls, hconsole'⟩ := (consoleCalls_ends hconsole calls).exists_ok
    exact ⟨console', _, hcalls, hconsole', hechoes text g (by rwa [List.append_nil])⟩
  induction events generalizing line calls s' with
  | nil => exact ⟨line, calls, h.chars, houtput, hleaves hechoes⟩
  | cons event rest ih =>
    rcases readLineFrom_step h hlimit with
      ⟨line', calls', s'', h', houtput', hechoes', hrun⟩ | ⟨s'', hrun, hstring, houtput'⟩
    · rw [hrun]
      refine ih h' ?_ (hechoes.trans hechoes')
      rw [houtput', houtput, List.reverse_append, List.append_assoc]
    · rw [hrun]
      exact ⟨line, calls, rfl, hstring, by rw [houtput', houtput], hleaves hechoes⟩

/-- What the editor gives to its caller is what is on the screen, behind the text that was there
before: at the end of the line, and whenever it waits for the next key. -/
theorem keyboardReadLine_sameLine (events : List KeyEvent) (hne : capacity ≠ 0)
    (hlimit : buffer + capacity < 2 ^ 64) (hconsole : Consistent screen console g)
    (hspells : Spells screen.rows screen.columns text g) :
    SameLine screen console text buffer s (keyboardReadLine events buffer capacity s) := by
  have hstart : Editing buffer capacity s [] s :=
    ⟨.refl, fun i hi => absurd hi (Nat.not_lt_zero i), fun c hc => absurd hc List.not_mem_nil,
      Nat.pos_of_ne_zero hne⟩
  unfold keyboardReadLine
  rw [if_neg hne]
  exact readLineFrom_sameLine hstart hlimit rfl .refl hconsole hspells

/-- A screen of two rows of two cells, without any text. -/
def fourCells : ConsoleState :=
  ⟨0, 0, false, true, 24, 40, 24, 2, 2, 0xE6E6E6, 0x111111, fun _ => 0x111111, fun _ => 0, [], [],
    []⟩

theorem fourCells_consistent : Consistent fourCells.screen fourCells .blank := by
  have hdrawable : Drawable fourCells := by
    refine ⟨rfl, rfl, rfl, by decide, by decide, by decide, by decide, by decide, ?_, ?_⟩
    · intro y hy
      have hheight : y < 40 := hy
      change y * 24 < 2 ^ 32
      omega
    · intro x y hin
      have hplace : x < 24 ∧ y < 40 := hin
      change y * 24 + x < 2 ^ 32
      omega
  refine ⟨⟨rfl, hdrawable, fun x y _ => ?_, fun x y _ => rfl, fun index hindex => ?_⟩, rfl, rfl,
    by decide, by decide⟩
  · exact (CharGrid.pixel_blank fun _ _ => rfl).symm
  · cases hindex

example : (keyboardReadLine sampleKeys 0x100 3 sampleBefore).isOk = true ∧
    SameLine fourCells.screen fourCells [] 0x100 sampleBefore
      (keyboardReadLine sampleKeys 0x100 3 sampleBefore) := by
  have hspells : Spells fourCells.screen.rows fourCells.screen.columns [] .blank :=
    ⟨by decide, by decide, fun i c hc => (by cases hc), fun p _ _ => rfl⟩
  exact ⟨by decide, keyboardReadLine_sameLine sampleKeys (by decide) (by decide)
    fourCells_consistent hspells⟩

end

end FunnyOS.Programs
