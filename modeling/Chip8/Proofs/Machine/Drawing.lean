import Chip8.Proofs.Machine.Footprint

/-!
# Drawing a sprite

What a tick leaves that draws a sprite to its end. Both coordinates wrap, but a sprite is smaller
than the screen, so that no pixel is under two of its bits: each bit is added to its pixel once.

Results:
1. `tick_draw`: the machine after the tick.
2. `pixel_drawn_of_fallsOn`: the pixel under a bit of the sprite.
3. `Redraws.restores`, `Redraws.erases_iff`: the same sprite once more.
4. `sprite_drawn`: all of it.
-/

namespace Chip8.Machine

/-! ## Definitions -/

/-- A column and a row of the sprite that Vx and Vy place fall on a pixel. -/
structure FallsOn (m : Machine) (x y : Register) (rows c r px py : Nat) : Prop where
  narrow : c < 8
  below : r < rows
  column : ((m.register x).toNat + c) % 64 = px % 64
  line : ((m.register y).toNat + r) % 32 = py % 32

/-- VF is 1 if the statement holds, and else 0. -/
def FlagTells (m : Machine) (p : Prop) : Prop :=
  (m.register .flag = 1 ↔ p) ∧ (m.register .flag = 0 ↔ ¬ p)

/-- The next tick of `n` draws the sprite that `m` draws from Vx, Vy: the same bytes at the same
point, wherever `n` has them. -/
structure Redraws (m : Machine) (x y : Register) (rows : Fin 16) (n : Machine)
    (x' y' : Register) : Prop where
  code : n.instruction? = some (.draw x' y' rows)
  column : n.register x' = m.register x
  line : n.register y' = m.register y
  bytes : ∀ r < rows.val, n.memory.read (n.index.toNat + r) = m.memory.read (m.index.toNat + r)

/-- The rows of a sprite that are in memory. -/
def spriteRows (m : Machine) (rows : Nat) : List UInt8 := (m.memory.readEach m.index.toNat rows).1

/-- The screen with a sprite drawn to it, and whether that erased a pixel. -/
def drawn (m : Machine) (x y : Register) (rows : Nat) : Bool × Screen :=
  m.screen.drawSprite (m.register x).toNat (m.register y).toNat (m.spriteRows rows)

variable {m n : Machine} {x y : Register} {rows : Fin 16}

/-! ## The tick -/

theorem flagTells_set {flag : Bool} {p : Prop} (tells : flag = true ↔ p)
    (set : m.registers = (n.setFlag flag).registers) : m.FlagTells p := by
  have value : m.register .flag = if flag then 1 else 0 := by
    rw [register, set]
    exact (register_setRegister n .flag .flag _).trans (if_pos rfl)
  unfold FlagTells
  rw [value, ← tells]
  cases flag <;> simp

/-- A sprite that is drawn to its end is in memory. -/
theorem isNone_readEach_of_draw {flow : Flow} (code : m.instruction? = some (.draw x y rows))
    (complete : m.tick.1 = .ok flow) : (m.memory.readEach m.index.toNat rows).2.isNone = true := by
  rw [tick_of_instruction? code] at complete
  cases faults : (m.memory.readEach m.index.toNat rows).2 with
  | none => rfl
  | some fault =>
    have refused : (m.execute (.draw x y rows)).1 = .error fault := by
      simp only [execute, drawSprite_eq, transferred_eq_error_iff]
      exact faults
    rw [refused] at complete
    cases complete

theorem tick_draw (code : m.instruction? = some (.draw x y rows))
    (inside : (m.memory.readEach m.index.toNat rows).2.isNone = true) :
    m.tick = (.ok .draw, { m.setFlag (m.drawn x y rows).1 with
      pc := m.pc + 2
      screen := (m.drawn x y rows).2 }) := by
  have whole : (m.memory.readEach m.index.toNat rows).2 = none := Option.isNone_iff_eq_none.mp inside
  rw [tick_of_instruction? code]
  simp only [execute, drawSprite_eq, advance, whole, transferred, Option.isNone_none, true_and]
  rfl

/-! ## Pixels -/

theorem length_spriteRows_le (m : Machine) (rows : Fin 16) : (m.spriteRows rows).length ≤ 32 :=
  Nat.le_trans (Memory.length_readEach_le _ _ _) (by omega)

theorem FallsOn.unique {c r c' r' px py : Nat} (first : m.FallsOn x y rows c r px py)
    (second : m.FallsOn x y rows c' r' px py) : c' = c ∧ r' = r := by
  obtain ⟨_, _, _, _⟩ := first
  obtain ⟨_, _, _, _⟩ := second
  omega

theorem pixel_drawn_ne_iff (m : Machine) (x y : Register) (rows : Fin 16) (px py : Nat) :
    (m.drawn x y rows).2.pixel px py ≠ m.screen.pixel px py ↔ m.Covers x y rows px py :=
  pixel_drawSprite_readEach_ne_iff m x y (by omega) px py

/-- A pixel is covered exactly if the one bit that falls on it is set. -/
theorem covers_iff_bit {c r px py : Nat} {byte : UInt8} (falls : m.FallsOn x y rows c r px py)
    (read : m.memory.read (m.index.toNat + r) = .ok byte) :
    m.Covers x y rows px py ↔ byte.toNat.testBit (7 - c) = true := by
  constructor
  · rintro ⟨r', below, byte', read', c', narrow, set, column, line⟩
    obtain ⟨rfl, rfl⟩ := falls.unique ⟨narrow, below, column, line⟩
    obtain rfl : byte = byte' := Except.ok.inj (read.symm.trans read')
    exact set
  · exact fun set => ⟨r, falls.below, byte, read, c, falls.narrow, set, falls.column, falls.line⟩

/-- The bit that falls on a pixel is added to it. -/
theorem pixel_drawn_of_fallsOn {c r px py : Nat} {byte : UInt8}
    (falls : m.FallsOn x y rows c r px py)
    (read : m.memory.read (m.index.toNat + r) = .ok byte) :
    (m.drawn x y rows).2.pixel px py = (m.screen.pixel px py ^^ byte.toNat.testBit (7 - c)) := by
  have changes := (pixel_drawn_ne_iff m x y rows px py).trans (covers_iff_bit falls read)
  have sum : ∀ new old bit : Bool, (new ≠ old ↔ bit = true) → new = (old ^^ bit) := by decide
  exact sum _ _ _ changes

theorem pixel_drawn_of_not_fallsOn {px py : Nat}
    (apart : ∀ c r, ¬ m.FallsOn x y rows c r px py) :
    (m.drawn x y rows).2.pixel px py = m.screen.pixel px py := by
  by_contra changed
  obtain ⟨r, below, _, _, c, narrow, _, column, line⟩ :=
    (pixel_drawn_ne_iff m x y rows px py).mp changed
  exact apart c r ⟨narrow, below, column, line⟩

theorem exists_byte {r : Nat} (inside : (m.memory.readEach m.index.toNat rows).2.isNone = true)
    (below : r < rows) : ∃ byte, m.memory.read (m.index.toNat + r) = .ok byte := by
  rw [Memory.readEach_snd] at inside
  split at inside
  · next within => exact ⟨_, Memory.read_of_lt (by omega)⟩
  · cases inside

/-- A sprite erases a pixel exactly if one went from lit to unlit. -/
theorem fst_drawn_iff (m : Machine) (x y : Register) (rows : Fin 16) :
    (m.drawn x y rows).1 = true ↔
      ∃ px py, m.screen.pixel px py = true ∧ (m.drawn x y rows).2.pixel px py = false :=
  Screen.fst_drawSprite_iff_erased _ _ _ (length_spriteRows_le m rows)

/-! ## Once more -/

/-- What is on the screen does not matter to the sprite. -/
theorem redraws_of_screen (code : m.instruction? = some (.draw x y rows)) (screen : Screen) :
    let n := { m with screen }
    m.Redraws x y rows n x y ∧ n.screen = screen :=
  ⟨⟨code, rfl, rfl, fun _ _ => rfl⟩, rfl⟩

theorem Redraws.readEach {x' y' : Register} (again : m.Redraws x y rows n x' y') :
    n.memory.readEach n.index.toNat rows = m.memory.readEach m.index.toNat rows :=
  Memory.readEach_congr again.bytes

theorem Redraws.drawn {x' y' : Register} (again : m.Redraws x y rows n x' y')
    (screen : n.screen = (m.drawn x y rows).2) :
    n.drawn x' y' rows = (m.drawn x y rows).2.drawSprite (m.register x).toNat
      (m.register y).toNat (m.spriteRows rows) := by
  unfold Machine.drawn spriteRows
  rw [again.column, again.line, again.readEach, screen]
  rfl

theorem Redraws.restores {x' y' : Register} (again : m.Redraws x y rows n x' y')
    (screen : n.screen = (m.drawn x y rows).2) : (n.drawn x' y' rows).2 = m.screen := by
  rw [again.drawn screen]
  exact Screen.drawSprite_drawSprite _ _ _ _

/-- The second time those pixels are erased that the first time lit. -/
theorem Redraws.erases_iff {x' y' : Register} (again : m.Redraws x y rows n x' y')
    (screen : n.screen = (m.drawn x y rows).2) :
    (n.drawn x' y' rows).1 = true ↔
      ∃ px py, m.Covers x y rows px py ∧ m.screen.pixel px py = false := by
  have flips {px py : Nat} (covers : m.Covers x y rows px py) :
      (m.drawn x y rows).2.pixel px py = !m.screen.pixel px py :=
    Bool.eq_not_of_ne ((pixel_drawn_ne_iff m x y rows px py).mpr covers)
  rw [again.drawn screen, Screen.fst_drawSprite_iff _ _ _ (length_spriteRows_le m rows)]
  constructor
  · rintro ⟨p, point, lit⟩
    have covers : m.Covers x y rows p.1 p.2 := covers_iff_points.mpr ⟨p, point, rfl, rfl⟩
    rw [flips covers, Bool.not_eq_true'] at lit
    exact ⟨p.1, p.2, covers, lit⟩
  · rintro ⟨px, py, covers, unlit⟩
    obtain ⟨p, point, column, line⟩ := covers_iff_points.mp covers
    refine ⟨p, point, ?_⟩
    rw [Screen.pixel_congr _ column line, flips covers, unlit]
    rfl

/-! ## Sprites -/

/-- A tick that draws a sprite to its end adds each bit of it to the one pixel that it falls on,
and leaves all other pixels. VF tells whether a pixel was erased, also where it was a coordinate;
nothing else changes but the program counter. The same sprite once more restores the screen, and
then VF tells whether a covered pixel was unlit before the first time. -/
theorem sprite_drawn {m : Machine} {x y : Register} {rows : Fin 16} {flow : Flow}
    (code : m.instruction? = some (.draw x y rows)) (complete : m.tick.1 = .ok flow) :
    let after := m.tick.2
    (∀ px py,
      (∀ c r, m.FallsOn x y rows c r px py →
        (∀ c' r', m.FallsOn x y rows c' r' px py → c' = c ∧ r' = r) ∧
        ∃ byte, m.memory.read (m.index.toNat + r) = .ok byte ∧
          after.screen.pixel px py = (m.screen.pixel px py ^^ byte.toNat.testBit (7 - c))) ∧
      ((∀ c r, ¬ m.FallsOn x y rows c r px py) →
        after.screen.pixel px py = m.screen.pixel px py)) ∧
    after.FlagTells
      (∃ px py, m.screen.pixel px py = true ∧ after.screen.pixel px py = false) ∧
    flow = .draw ∧
    after = { m.setRegister .flag (after.register .flag) with
      pc := m.pc + 2
      screen := after.screen } ∧
    ∀ n x' y', m.Redraws x y rows n x' y' → n.screen = after.screen →
      n.tick.1 = .ok .draw ∧ n.tick.2.screen = m.screen ∧
        n.tick.2.FlagTells (∃ px py, m.Covers x y rows px py ∧ m.screen.pixel px py = false) := by
  intro after
  have inside := isNone_readEach_of_draw code complete
  have ticked := tick_draw code inside
  have state : after = _ := congrArg Prod.snd ticked
  have screen : after.screen = (m.drawn x y rows).2 := congrArg (fun n => n.screen) state
  have registers : after.registers = (m.setFlag (m.drawn x y rows).1).registers :=
    congrArg (fun n => n.registers) state
  refine ⟨fun px py => ⟨fun c r falls => ⟨fun c' r' => falls.unique, ?_⟩, fun apart => ?_⟩, ?_,
    ?_, ?_, ?_⟩
  · obtain ⟨byte, read⟩ := exists_byte inside falls.below
    rw [screen]
    exact ⟨byte, read, pixel_drawn_of_fallsOn falls read⟩
  · rw [screen]
    exact pixel_drawn_of_not_fallsOn apart
  · rw [screen]
    exact flagTells_set (fst_drawn_iff m x y rows) registers
  · rw [ticked] at complete
    exact (Except.ok.inj complete).symm
  · have flag : after.register .flag = if (m.drawn x y rows).1 then 1 else 0 := by
      rw [register, registers]
      exact (register_setRegister m .flag .flag _).trans (if_pos rfl)
    rw [flag, screen]
    exact state
  · intro n x' y' again same
    have same := same.trans screen
    have reads : (n.memory.readEach n.index.toNat rows).2.isNone = true := by
      rw [again.readEach]
      exact inside
    rw [tick_draw again.code reads]
    exact ⟨rfl, again.restores same, flagTells_set (again.erases_iff same) rfl⟩

/-- Two rows in the corner of the screen, with both coordinates in VF, drawn twice. -/
theorem sprite_drawn_corner :
    let m : Machine := { Machine.new {} (.constant 0) with
      registers := (Vector.replicate 16 0).set 15 63
      index := 514
      memory := Memory.zero.overlay 512 [0xDF, 0xF2, 0xC0, 0x80] }
    let n : Machine := { m with screen := m.tick.2.screen }
    m.instruction? = some (.draw .flag .flag 2) ∧ m.tick.1 = .ok .draw ∧
      m.FallsOn .flag .flag 2 1 0 0 31 ∧ m.tick.2.screen.pixel 0 31 = true ∧
      m.tick.2.register .flag = 0 ∧ m.Redraws .flag .flag 2 n .flag .flag ∧
      n.tick.2.screen = m.screen ∧ n.tick.2.register .flag = 1 := by
  intro m n
  have code : m.instruction? = some (.draw .flag .flag 2) :=
    instruction?_of_fetch rfl (fetch_of_overlay rfl (by decide) rfl rfl)
  have inside : (m.memory.readEach m.index.toNat 2).2.isNone = true := by
    rw [Memory.readEach_snd]
    rfl
  have complete : m.tick.1 = .ok .draw := congrArg Prod.fst (tick_draw code inside)
  obtain ⟨again, same⟩ := redraws_of_screen code m.tick.2.screen
  obtain ⟨pixels, tells, -, -, twice⟩ := sprite_drawn code complete
  have unlit (px py : Nat) : m.screen.pixel px py = false := Screen.pixel_blank px py
  -- the second column of the first row is past the right edge
  have corner : m.register .flag = 63 := Vector.getElem_set_self _
  have falls : m.FallsOn .flag .flag (2 : Fin 16) 1 0 0 31 := by
    refine ⟨by decide, by decide, ?_, ?_⟩ <;> rw [corner] <;> rfl
  have byte : m.memory.read (m.index.toNat + 0) = .ok 0xC0 :=
    Memory.read_overlay_of_lt (k := 2) (by decide) (by decide)
  obtain ⟨-, byte', read, pixel⟩ := (pixels 0 31).1 1 0 falls
  obtain rfl : 0xC0 = byte' := Except.ok.inj (byte.symm.trans read)
  have lit : m.tick.2.screen.pixel 0 31 = true := by
    rw [pixel, unlit]
    rfl
  have nothing : m.tick.2.register .flag = 0 := by
    refine tells.2.mpr ?_
    rintro ⟨px, py, before, -⟩
    rw [unlit] at before
    cases before
  obtain ⟨-, restored, erased⟩ := twice n .flag .flag again same
  have covers : m.Covers .flag .flag (2 : Fin 16) 0 31 := (covers_iff_bit falls byte).mpr rfl
  exact ⟨code, complete, falls, lit, nothing, again, restored,
    erased.1.mpr ⟨0, 31, covers, unlit 0 31⟩⟩

end Chip8.Machine
