import Chip8.Screen
import Mathlib.Data.List.Nodup

/-!
# Sprites

Drawing inverts pixels, so what counts is how often each pixel is named. No sprite of up to 32
rows names a pixel twice.

Results:
1. `pixel_drawPoints`: drawing points inverts each pixel as often as it is named.
2. `nodup_points`: the points of a sprite are different pixels.
3. `pixel_drawSprite_ne_iff`: a sprite changes exactly the pixels under its set bits.
4. `fst_drawSprite_iff`, `fst_drawSprite_iff_erased`: it tells whether one of these was lit.
5. `drawSprite_drawSprite`: drawn twice, a sprite leaves the screen as it was.
-/

namespace Chip8.Screen

/-- The pixel of a point depends only on the cell that the point wraps to. -/
theorem pixel_congr (s : Screen) {x y x' y' : Nat} (column : x % 64 = x' % 64)
    (line : y % 32 = y' % 32) : s.pixel x y = s.pixel x' y' := by
  simp only [pixel, cell_eq_iff.mpr ⟨column, line⟩]

theorem cell_of_lt {k : Nat} (inside : k < 2048) : cell (k % 64) (k / 64) = ⟨k, inside⟩ := by
  simp only [cell, Fin.mk.injEq]
  omega

/-- A cell holds 1 or 0. -/
theorem getElem_cells (s : Screen) {k : Nat} (inside : k < 2048) :
    s.cells[k] = if s.pixel (k % 64) (k / 64) then 1 else 0 := by
  simp only [pixel, cell_of_lt inside]
  rcases s.binary ⟨k, inside⟩ with unlit | lit
  · rw [unlit]
    exact unlit
  · rw [lit]
    exact lit

/-- A screen is determined by its pixels. -/
theorem ext_pixel {s t : Screen} (same : ∀ x y, s.pixel x y = t.pixel x y) : s = t := by
  have cells : s.cells = t.cells := by
    refine Vector.ext fun k inside => ?_
    rw [s.getElem_cells inside, t.getElem_cells inside, same]
  obtain ⟨s_cells, _⟩ := s
  obtain ⟨t_cells, _⟩ := t
  obtain rfl : s_cells = t_cells := cells
  rfl

theorem mem_columns {row : UInt8} {c : Nat} :
    c ∈ columns row ↔ c < 8 ∧ row.toNat.testBit (7 - c) := by
  simp [columns]

theorem drawPoints_append (s : Screen) (erased : Bool) (p q : List (Nat × Nat)) :
    s.drawPoints erased (p ++ q) =
      (s.drawPoints erased p).2.drawPoints (s.drawPoints erased p).1 q := by
  induction p generalizing s erased with
  | nil => rfl
  | cons _ p ih => exact ih _ _

/-- A point is in a sprite if it lies under a set bit of one of its rows. -/
theorem mem_points {x y : Nat} {rows : List UInt8} {p : Nat × Nat} :
    p ∈ points x y rows ↔
      ∃ r row c, rows[r]? = some row ∧ c ∈ columns row ∧ p = (x + c, y + r) := by
  induction rows generalizing y with
  | nil => simp [points]
  | cons first rows ih =>
    simp only [points, List.mem_append, List.mem_map, ih]
    constructor
    · rintro (⟨c, hc, rfl⟩ | ⟨r, row, c, hr, hc, rfl⟩)
      · exact ⟨0, first, c, rfl, hc, rfl⟩
      · exact ⟨r + 1, row, c, hr, hc, by rw [Nat.add_assoc, Nat.add_comm 1 r]⟩
    · rintro ⟨r, row, c, hr, hc, rfl⟩
      cases r with
      | zero =>
        obtain rfl : first = row := by simpa using hr
        exact .inl ⟨c, hc, rfl⟩
      | succ r => exact .inr ⟨r, row, c, hr, hc, by rw [Nat.add_assoc, Nat.add_comm 1 r]⟩

/-! ## Counting -/

/-- The cells of points. -/
def targets (points : List (Nat × Nat)) : List (Fin 2048) := points.map fun p => cell p.1 p.2

/-- Drawing points inverts each pixel as often as it is named. -/
theorem pixel_drawPoints (s : Screen) (erased : Bool) (points : List (Nat × Nat)) (x y : Nat) :
    (s.drawPoints erased points).2.pixel x y =
      (s.pixel x y ^^ decide ((targets points).count (cell x y) % 2 = 1)) := by
  induction points generalizing s erased with
  | nil => simp [drawPoints, targets]
  | cons p points ih =>
    obtain ⟨px, py⟩ := p
    show ((s.toggle px py).drawPoints _ points).2.pixel x y = _
    rw [ih, pixel_toggle]
    simp only [targets, List.map_cons, List.count_cons, beq_iff_eq, ← cell_eq_iff]
    split
    · have flips (n : Nat) : decide ((n + 1) % 2 = 1) = !decide (n % 2 = 1) := by
        rcases Nat.mod_two_eq_zero_or_one n with even | odd
        · simp [even, Nat.add_mod]
        · simp [odd, Nat.add_mod]
      rw [flips, Bool.xor_not, Bool.not_xor]
      rfl
    · rfl

/-- The points of a sprite are different pixels, as no sprite reaches around the screen. -/
theorem nodup_points (x y : Nat) {rows : List UInt8} (h : rows.length ≤ 32) :
    (targets (points x y rows)).Nodup := by
  induction rows generalizing y with
  | nil => exact List.nodup_nil
  | cons row rows ih =>
    rw [List.length_cons] at h
    simp only [targets, points, List.map_append, List.map_map, List.nodup_append]
    refine ⟨?_, ih (y + 1) (by omega), ?_⟩
    · refine List.Nodup.map_on ?_ (List.nodup_range.filter _)
      intro c hc c' hc' same
      -- eight columns do not reach around a line
      have := (mem_columns.mp hc).1
      have := (mem_columns.mp hc').1
      have wrapped : (x + c) % 64 = (x + c') % 64 := (cell_eq_iff.mp same).1
      omega
    · rintro k hk k' hk' rfl
      obtain ⟨c, -, rfl⟩ := List.mem_map.mp hk
      obtain ⟨p, hp, same⟩ := List.mem_map.mp hk'
      obtain ⟨r, below, c', hr, -, rfl⟩ := mem_points.mp hp
      -- and the rows below do not come back to this one
      have : r < rows.length := (List.getElem?_eq_some_iff.mp hr).1
      have wrapped : (y + 1 + r) % 32 = y % 32 := (cell_eq_iff.mp same).2
      omega

/-- A sprite of up to 32 rows changes exactly the pixels under its points. -/
theorem pixel_drawSprite_ne_iff (s : Screen) (x y : Nat) {rows : List UInt8}
    (h : rows.length ≤ 32) (px py : Nat) :
    (s.drawSprite x y rows).2.pixel px py ≠ s.pixel px py ↔
      ∃ p ∈ points x y rows, p.1 % 64 = px % 64 ∧ p.2 % 32 = py % 32 := by
  have named : cell px py ∈ targets (points x y rows) ↔
      ∃ p ∈ points x y rows, p.1 % 64 = px % 64 ∧ p.2 % 32 = py % 32 := by
    simp only [targets, List.mem_map, cell_eq_iff]
  rw [drawSprite, pixel_drawPoints, ← named]
  by_cases hit : cell px py ∈ targets (points x y rows)
  · simp [List.count_eq_one_of_mem (nodup_points x y h) hit, hit]
  · simp [List.count_eq_zero_of_not_mem hit, hit]

/-! ## Erasing -/

/-- Each of the points finds its pixel as it was before any of them, as they are different
pixels. -/
theorem fst_drawPoints_iff (s : Screen) (erased : Bool) {points : List (Nat × Nat)}
    (distinct : (targets points).Nodup) :
    (s.drawPoints erased points).1 = true ↔
      erased = true ∨ ∃ p ∈ points, s.pixel p.1 p.2 = true := by
  induction points generalizing s erased with
  | nil => simp [drawPoints]
  | cons p points ih =>
    obtain ⟨apart, distinct⟩ := List.nodup_cons.mp distinct
    have unchanged : ∀ q ∈ points, (s.toggle p.1 p.2).pixel q.1 q.2 = s.pixel q.1 q.2 := by
      intro q later
      have other : cell p.1 p.2 ≠ cell q.1 q.2 := by
        intro same
        exact apart (List.mem_map.mpr ⟨q, later, same.symm⟩)
      rw [pixel_toggle, if_neg fun wrapped => other (cell_eq_iff.mpr wrapped)]
    have rest : (∃ q ∈ points, (s.toggle p.1 p.2).pixel q.1 q.2 = true) ↔
        ∃ q ∈ points, s.pixel q.1 q.2 = true :=
      exists_congr fun q => and_congr_right fun later => by rw [unchanged q later]
    show ((s.toggle p.1 p.2).drawPoints (erased || s.pixel p.1 p.2) points).1 = true ↔ _
    rw [ih _ _ distinct, rest, Bool.or_eq_true, List.exists_mem_cons_iff, or_assoc]

/-- A sprite of up to 32 rows tells whether one of its points was lit. -/
theorem fst_drawSprite_iff (s : Screen) (x y : Nat) {rows : List UInt8} (h : rows.length ≤ 32) :
    (s.drawSprite x y rows).1 = true ↔ ∃ p ∈ points x y rows, s.pixel p.1 p.2 = true := by
  rw [drawSprite, fst_drawPoints_iff s false (nodup_points x y h)]
  simp only [Bool.false_eq_true, false_or]

/-- A sprite of up to 32 rows tells whether some pixel went from lit to unlit. -/
theorem fst_drawSprite_iff_erased (s : Screen) (x y : Nat) {rows : List UInt8}
    (h : rows.length ≤ 32) :
    (s.drawSprite x y rows).1 = true ↔
      ∃ px py, s.pixel px py = true ∧ (s.drawSprite x y rows).2.pixel px py = false := by
  have changes := pixel_drawSprite_ne_iff s x y h
  rw [fst_drawSprite_iff s x y h]
  constructor
  · rintro ⟨p, point, lit⟩
    have changed := (changes p.1 p.2).mpr ⟨p, point, rfl, rfl⟩
    rw [lit] at changed
    exact ⟨p.1, p.2, lit, eq_false_of_ne_true changed⟩
  · rintro ⟨px, py, lit, unlit⟩
    obtain ⟨p, point, column, line⟩ := (changes px py).mp (by simp [lit, unlit])
    exact ⟨p, point, (s.pixel_congr column line).trans lit⟩

/-- A sprite that is drawn twice leaves the screen as it was. -/
theorem drawSprite_drawSprite (s : Screen) (x y : Nat) (rows : List UInt8) :
    ((s.drawSprite x y rows).2.drawSprite x y rows).2 = s := by
  refine ext_pixel fun px py => ?_
  simp only [drawSprite, pixel_drawPoints, Bool.xor_assoc, Bool.xor_self, Bool.xor_false]

end Chip8.Screen
