import Chip8.Proofs.Screen.Sprites

/-!
# Parity

Drawing and clearing in any order. A pixel is lit exactly if it was drawn an odd number of times
since the screen was cleared, and all views of the screen tell the same.

Results:
1. `performAll_blank`: the screen after strokes is the one with the points drawn since the last
   clearing.
2. `pixel_performAll`: the parity of a pixel.
3. `isBlank_iff`, `getElem?_bytes`: two views of the pixels.
4. `pieces_dump`, `shownIn_dump`, `ShownIn.readPixel`: the third one, and how to read it.
5. `screen_shows_parity`: all of it.
-/

namespace Chip8.Screen

/-! ## Definitions -/

/-- A request to a screen. -/
inductive Stroke
  | draw (x y : Nat)
  | clear
  deriving DecidableEq, Repr

/-- The screen after a stroke. -/
def perform (s : Screen) : Stroke → Screen
  | .draw x y => (s.draw x y).2
  | .clear => blank

/-- The screen after strokes, in order. -/
def performAll (s : Screen) (strokes : List Stroke) : Screen := strokes.foldl perform s

/-- The points that strokes draw, from the last clearing on. If none clears, `points` come before
them. -/
def drawnSince (points : List (Nat × Nat)) : List Stroke → List (Nat × Nat)
  | [] => points
  | .draw x y :: strokes => drawnSince (points ++ [(x, y)]) strokes
  | .clear :: strokes => drawnSince [] strokes

/-- How many points wrap to a pixel. -/
def hits (points : List (Nat × Nat)) (x y : Nat) : Nat :=
  points.countP fun p => p.1 % 64 = x % 64 ∧ p.2 % 32 = y % 32

/-- What stands between the line ends of a text. -/
def pieces (text : String) : List (List Char) := text.toList.splitOn '\n'

/-- A text shows a screen: it has a line for each row with a character for each pixel, and ends
after the last line end. -/
structure ShownIn (s : Screen) (text : String) : Prop where
  count : (pieces text).length = 33
  last : (pieces text)[32]? = some []
  line : ∀ y < 32, ∃ row, (pieces text)[y]? = some row ∧ row.length = 64 ∧
    ∀ x < 64, row[x]? = some (if s.pixel x y then '#' else '.')

/-- The pixel at column `x` and row `y` of a text that shows a screen. -/
def readPixel (text : String) (x y : Nat) : Bool :=
  ((pieces text)[y % 32]?.bind fun row => row[x % 64]?) = some '#'

variable {s : Screen} {points : List (Nat × Nat)}

/-! ## Strokes -/

theorem count_targets (points : List (Nat × Nat)) (x y : Nat) :
    (targets points).count (cell x y) = hits points x y := by
  rw [targets, List.count, List.countP_map, hits]
  refine List.countP_congr fun p _ => ?_
  simp [cell_eq_iff]

/-- Each clearing does away with the points before it. -/
theorem performAll_drawPoints (points : List (Nat × Nat)) (strokes : List Stroke) :
    (blank.drawPoints false points).2.performAll strokes =
      (blank.drawPoints false (drawnSince points strokes)).2 := by
  induction strokes generalizing points with
  | nil => rfl
  | cons stroke strokes ih =>
    cases stroke with
    | draw x y =>
      rw [drawnSince, ← ih, drawPoints_append]
      rfl
    | clear => exact ih []

theorem performAll_blank (strokes : List Stroke) :
    blank.performAll strokes = (blank.drawPoints false (drawnSince [] strokes)).2 :=
  performAll_drawPoints [] strokes

theorem pixel_performAll (strokes : List Stroke) (x y : Nat) :
    (blank.performAll strokes).pixel x y = decide (hits (drawnSince [] strokes) x y % 2 = 1) := by
  rw [performAll_blank, pixel_drawPoints, pixel_blank, count_targets, Bool.false_xor]

/-- The order of the points does not matter, nor what came before the last clearing. -/
theorem performAll_congr {strokes strokes' : List Stroke}
    (same : (drawnSince [] strokes').Perm (drawnSince [] strokes)) :
    blank.performAll strokes' = blank.performAll strokes := by
  refine ext_pixel fun x y => ?_
  rw [pixel_performAll, pixel_performAll, hits, hits, same.countP_eq]

/-! ## Bytes -/

theorem isBlank_iff : s.isBlank = true ↔ ∀ x y, s.pixel x y = false := by
  simp only [isBlank, Vector.all_eq_true, decide_eq_true_eq]
  constructor
  · intro zero x y
    exact decide_eq_false (not_not.mpr (zero (cell x y) (cell x y).isLt))
  · intro unlit k inside
    rw [s.getElem_cells inside, unlit]
    rfl

theorem length_bytes (s : Screen) : s.bytes.length = 2048 := Vector.length_toList

theorem getElem?_bytes (s : Screen) (x y : Nat) :
    s.bytes[x % 64 + 64 * (y % 32)]? = some (if s.pixel x y then 1 else 0) := by
  have inside : x % 64 + 64 * (y % 32) < 2048 := (cell x y).isLt
  have named : s.pixel ((x % 64 + 64 * (y % 32)) % 64) ((x % 64 + 64 * (y % 32)) / 64) =
      s.pixel x y := s.pixel_congr (by omega) (by omega)
  rw [bytes, Vector.getElem?_toList, Vector.getElem?_eq_getElem inside, s.getElem_cells inside,
    named]

/-! ## Text -/

theorem splitOn_lines {lines : List (List Char)} (whole : ∀ line ∈ lines, '\n' ∉ line) :
    (lines.flatMap fun line => line ++ ['\n']).splitOn '\n' = lines ++ [[]] := by
  induction lines with
  | nil => rfl
  | cons line lines ih =>
    obtain ⟨first, rest⟩ := List.forall_mem_cons.mp whole
    rw [List.flatMap_cons, List.append_assoc, List.singleton_append,
      List.splitOn_append_cons_self_of_not_mem first, ih rest]
    rfl

theorem newline_not_mem_line (s : Screen) (y : Nat) : '\n' ∉ s.line y := by
  intro mem
  obtain ⟨x, -, same⟩ := List.mem_map.mp mem
  cases lit : s.pixel x y <;> rw [lit] at same <;> exact absurd same (by decide)

theorem pieces_dump (s : Screen) : pieces s.dump = (List.range 32).map s.line ++ [[]] := by
  have lines : s.dump.toList = ((List.range 32).map s.line).flatMap fun line => line ++ ['\n'] := by
    rw [dump, String.toList_ofList, List.flatMap_map]
  rw [pieces, lines]
  refine splitOn_lines fun line mem => ?_
  obtain ⟨y, -, rfl⟩ := List.mem_map.mp mem
  exact s.newline_not_mem_line y

theorem shownIn_dump (s : Screen) : s.ShownIn s.dump where
  count := by simp [pieces_dump]
  last := by simp [pieces_dump]
  line y below := by
    refine ⟨s.line y, ?_, by simp [Screen.line], fun x left => ?_⟩
    · rw [pieces_dump, List.getElem?_append_left (by simpa using below)]
      simp [below]
    · simp [Screen.line, glyph, left]

theorem ShownIn.readPixel {text : String} (shown : s.ShownIn text) (x y : Nat) :
    readPixel text x y = s.pixel x y := by
  obtain ⟨line, there, -, pixels⟩ := shown.line (y % 32) (Nat.mod_lt _ (by decide))
  have wrapped : s.pixel (x % 64) (y % 32) = s.pixel x y :=
    s.pixel_congr (Nat.mod_mod _ _) (Nat.mod_mod _ _)
  rw [Screen.readPixel, there, Option.bind_some, pixels (x % 64) (Nat.mod_lt _ (by decide)),
    wrapped]
  cases s.pixel x y <;> decide

/-! ## Views -/

/-- After any strokes on a new screen, whatever their coordinates, a pixel is lit exactly if it was
hit an odd number of times since the last clearing, in the answer to another draw and in each of
the views. The order of the draws does not matter. The screen is blank exactly if all pixels were
hit an even number of times, and the text shows it. -/
theorem screen_shows_parity (strokes : List Stroke) :
    let s := blank.performAll strokes
    let points := drawnSince [] strokes
    (∀ x y,
      s.pixel x y = decide (hits points x y % 2 = 1) ∧
      (s.draw x y).1 = decide (hits points x y % 2 = 1) ∧
      s.bytes[x % 64 + 64 * (y % 32)]? = some (if hits points x y % 2 = 1 then 1 else 0) ∧
      readPixel s.dump x y = decide (hits points x y % 2 = 1)) ∧
    (∀ strokes', (drawnSince [] strokes').Perm points → blank.performAll strokes' = s) ∧
    (s.isBlank = true ↔ ∀ x y, hits points x y % 2 = 0) ∧
    s.bytes.length = 2048 ∧ s.ShownIn s.dump ∧ ∀ t : Screen, t.dump = s.dump → t = s := by
  intro s points
  have parity (x y : Nat) : s.pixel x y = decide (hits points x y % 2 = 1) :=
    pixel_performAll strokes x y
  refine ⟨fun x y => ⟨parity x y, parity x y, ?_, ?_⟩, fun strokes' => performAll_congr, ?_,
    s.length_bytes, s.shownIn_dump, fun t same => ?_⟩
  · rw [getElem?_bytes, parity]
    simp only [decide_eq_true_eq]
  · rw [s.shownIn_dump.readPixel, parity]
  · rw [isBlank_iff]
    refine forall_congr' fun x => forall_congr' fun y => ?_
    rw [parity, decide_eq_false_iff_not]
    exact Nat.mod_two_not_eq_one
  · refine ext_pixel fun x y => ?_
    rw [← t.shownIn_dump.readPixel, same, s.shownIn_dump.readPixel]

/-- A pixel under two names, another one, and a point from before the clearing. -/
theorem screen_shows_parity_wrapped :
    let s := blank.performAll [.draw 5 5, .clear, .draw 64 1, .draw 3 4, .draw 0 33]
    s.pixel 3 36 = true ∧ (s.draw 67 4).1 = true ∧ s.bytes[3 + 64 * 4]? = some 1 ∧
      readPixel s.dump 3 4 = true ∧ s.pixel 0 1 = false ∧ s.pixel 5 5 = false ∧
      s.isBlank = false ∧ blank.performAll [.draw 3 4, .draw 0 33, .draw 64 1] = s := by
  intro s
  obtain ⟨views, order, blanks, -, -, -⟩ :=
    screen_shows_parity [.draw 5 5, .clear, .draw 64 1, .draw 3 4, .draw 0 33]
  refine ⟨(views 3 36).1, (views 67 4).2.1, (views 3 4).2.2.1, (views 3 4).2.2.2, (views 0 1).1,
    (views 5 5).1, ?_, order [.draw 3 4, .draw 0 33, .draw 64 1] (by decide)⟩
  exact Bool.eq_false_iff.mpr fun blank => absurd (blanks.mp blank 3 4) (by decide)

end Chip8.Screen
