import Chip8.Proofs.Machine.Drawing
import Chip8.Proofs.Machine.Writes

/-!
# Glyphs

The glyphs in force are at the bottom of memory, as long as no tick wrote there since they were put
there for the last time. The index that an instruction points at the glyph of a digit, and the rows
that a sprite of five bytes reads from there, agree with that place.

Results:
1. `holdsGlyphs_of_installs`, `HoldsGlyphs.apply`: what one operation does to the glyphs in memory.
2. `holdsGlyphs_applyAll`: what operations do.
3. `HoldsGlyphs.pixel_drawn_ne_iff`: a glyph on the screen.
4. `glyphs_drawn_from_font`: all of it.
-/

namespace Chip8

/-! ## Definitions -/

/-- An operation puts glyphs into memory: a restart those of the font in force, and a font that is
not refused its own. -/
def Operation.installs (op : Operation) : Bool := op.restarts || op.glyphs?.isSome

/-- The last hexadecimal digit of a byte. -/
def lowDigit (value : UInt8) : Fin 16 := ⟨value.toNat % 16, Nat.mod_lt _ (by decide)⟩

namespace Machine

/-- The bottom of memory holds the bytes of the glyphs. -/
def HoldsGlyphs (m : Machine) (glyphs : List UInt8) : Prop :=
  glyphs.length = 80 ∧
    ∀ address byte, glyphs[address]? = some byte → m.memory.read address = .ok byte

/-- The machines that the ticks of operations act on, from the last operation on that puts glyphs
into memory. If none does so, ticks in `since` come before them. -/
def ticksSinceGlyphs (m : Machine) (since : List Machine) : List Operation → List Machine
  | [] => since
  | op :: ops =>
    (m.apply op).2.ticksSinceGlyphs (if op.installs then [] else since ++ m.tickedBy op) ops

/-- None of the ticks writes to the place of the glyphs. -/
def SpareGlyphs (ticks : List Machine) : Prop := ∀ y ∈ ticks, ∀ address < 80, ¬ y.Writes address

variable {m : Machine} {op : Operation} {font : Font} {glyphs : List UInt8}

/-! ## The glyphs in memory -/

theorem holdsGlyphs_of_font
    (held : ∀ address, ∀ h : address < 80, m.memory.read address = .ok font[address]) :
    m.HoldsGlyphs font.toList := by
  refine ⟨Vector.length_toList, fun address byte listed => ?_⟩
  rw [Vector.getElem?_toList] at listed
  obtain ⟨low, rfl⟩ := Vector.getElem?_eq_some_iff.mp listed
  exact held address low

theorem holdsGlyphs_new (profile : Profile) (random : RandomStream) :
    (Machine.new profile random).HoldsGlyphs Font.builtin.toList :=
  holdsGlyphs_of_font fun _ low => Memory.read_withFont_of_lt _ _ low

theorem holdsGlyphs_of_installs (m : Machine) (installs : op.installs = true) :
    (m.apply op).2.HoldsGlyphs (m.apply op).2.font.toList := by
  rcases Bool.or_eq_true_iff.mp installs with restarts | loads
  · have same : (m.apply op).2.font = m.font := by
      rw [apply_of_restarts restarts]
      rfl
    rw [same]
    exact holdsGlyphs_of_font (restarted_of_restarts m restarts).glyphs
  · cases op with
    | loadFont glyphs =>
      have length : glyphs.length = 80 := by
        by_contra wrong
        rw [Operation.glyphs?, if_neg wrong] at loads
        cases loads
      obtain ⟨font, -, loaded⟩ := loadFont_of_eq m length
      rw [apply, loaded]
      exact holdsGlyphs_of_font fun _ low => Memory.read_withFont_of_lt _ _ low
    | _ => cases loads

theorem font_of_not_installs (m : Machine) (lasting : op.installs = false) :
    (m.apply op).2.font.toList = m.font.toList := by
  have none : op.glyphs? = none :=
    Option.not_isSome_iff_eq_none.mp (Bool.eq_false_iff.mp (Bool.or_eq_false_iff.mp lasting).2)
  rw [font_apply, none, Option.getD_none]

theorem HoldsGlyphs.apply (held : m.HoldsGlyphs glyphs) (lasting : op.installs = false)
    (spared : SpareGlyphs (m.tickedBy op)) : (m.apply op).2.HoldsGlyphs glyphs := by
  obtain ⟨lasts, fontless⟩ := Bool.or_eq_false_iff.mp lasting
  obtain ⟨length, bytes⟩ := held
  refine ⟨length, fun address byte listed => ?_⟩
  have low : address < 80 := by
    rw [← length]
    exact (List.getElem?_eq_some_iff.mp listed).1
  have kept : (m.apply op).2.memory.read address = m.memory.read address := by
    refine ((Path.of_operations m [op]).read ?_ ?_).1
    · intro op' mem
      obtain rfl := List.mem_singleton.mp mem
      simp [Operation.Fills, lasts, fontless]
    · intro y mem
      rw [tickedByAll, tickedByAll, List.append_nil] at mem
      exact spared y mem address low
  exact kept.trans (bytes address byte listed)

theorem ticksSinceGlyphs_of_installs (installs : op.installs = true) (since : List Machine)
    (ops : List Operation) :
    m.ticksSinceGlyphs since (op :: ops) = (m.apply op).2.ticksSinceGlyphs [] ops := by
  rw [ticksSinceGlyphs, if_pos installs]

/-- While no tick writes to their place, the glyphs in memory are those in force. -/
theorem holdsGlyphs_applyAll (ops : List Operation) (m : Machine) {since : List Machine}
    (held : SpareGlyphs since → m.HoldsGlyphs m.font.toList)
    (spared : SpareGlyphs (m.ticksSinceGlyphs since ops)) :
    (m.applyAll ops).2.HoldsGlyphs (m.applyAll ops).2.font.toList := by
  induction ops generalizing m since with
  | nil => exact held spared
  | cons op ops ih =>
    refine ih (m.apply op).2 (fun unwritten => ?_) spared
    cases installs : op.installs with
    | true => exact holdsGlyphs_of_installs m installs
    | false =>
      rw [installs, if_neg Bool.false_ne_true] at unwritten
      obtain ⟨before, during⟩ := List.forall_mem_append.mp unwritten
      rw [font_of_not_installs m installs]
      exact (held before).apply installs during

/-! ## A glyph on the screen -/

variable {x y : Register} {digit : Fin 16}

theorem HoldsGlyphs.read_row (held : m.HoldsGlyphs glyphs) (index : m.index.toNat = 5 * digit)
    (r : Fin 5) : ∃ row, glyphs[5 * digit.val + r.val]? = some row ∧
      m.memory.read (m.index.toNat + r) = .ok row := by
  obtain ⟨length, bytes⟩ := held
  have inside : 5 * digit.val + r.val < glyphs.length := by omega
  rw [index]
  exact ⟨_, List.getElem?_eq_getElem inside, bytes _ _ (List.getElem?_eq_getElem inside)⟩

theorem HoldsGlyphs.pixel_drawn_ne_iff (held : m.HoldsGlyphs glyphs)
    (index : m.index.toNat = 5 * digit) (px py : Nat) :
    (m.drawn x y 5).2.pixel px py ≠ m.screen.pixel px py ↔
      ∃ (r : Fin 5) (c : Fin 8) (row : UInt8), glyphs[5 * digit.val + r.val]? = some row ∧
        row.toNat.testBit (7 - c) = true ∧
        ((m.register x).toNat + c) % 64 = px % 64 ∧ ((m.register y).toNat + r) % 32 = py % 32 := by
  refine (Machine.pixel_drawn_ne_iff m x y (5 : Fin 16) px py).trans ⟨?_, ?_⟩
  · rintro ⟨r, below, byte, read, c, narrow, set, column, line⟩
    obtain ⟨row, listed, same⟩ := held.read_row index ⟨r, below⟩
    obtain rfl : byte = row := Except.ok.inj (read.symm.trans same)
    exact ⟨⟨r, below⟩, ⟨c, narrow⟩, byte, listed, set, column, line⟩
  · rintro ⟨r, c, row, listed, set, column, line⟩
    obtain ⟨row', listed', read⟩ := held.read_row index r
    obtain rfl : row = row' := Option.some.inj (listed.symm.trans listed')
    exact ⟨r, r.isLt, row, read, c, c.isLt, set, column, line⟩

/-- A sprite of five rows that begins with a glyph is all in memory. -/
theorem tick_draw_glyph (code : m.instruction? = some (.draw x y 5))
    (index : m.index.toNat = 5 * digit) :
    m.tick.1 = .ok .draw ∧ m.tick.2.screen = (m.drawn x y 5).2 := by
  have inside : (m.memory.readEach m.index.toNat (5 : Fin 16)).2.isNone = true := by
    have within : m.index.toNat + 5 ≤ 4096 := by omega
    rw [Memory.readEach_snd, if_pos (.inl within)]
    rfl
  rw [tick_draw code inside]
  exact ⟨rfl, rfl⟩

/-! ## Glyphs -/

/-- After any operations on a new machine the bottom of memory holds the glyphs in force, if no tick
wrote there since a restart or a font put them there. An instruction that points at the glyph of a
digit gives the index of the glyph. Whatever comes after it, while the index is there and the bottom
of memory holds the glyphs, a sprite of five bytes is drawn to its end and inverts the pixels of
that glyph. -/
theorem glyphs_drawn_from_font (profile : Profile) (random : RandomStream)
    (ops : List Operation) :
    let begun := Machine.new profile random
    let m := (begun.applyAll ops).2
    (SpareGlyphs (begun.ticksSinceGlyphs [] ops) → m.HoldsGlyphs (glyphsAfter ops)) ∧
    ∀ x, m.instruction? = some (.pointGlyph x) →
      let digit := lowDigit (m.register x)
      m.tick.1 = .ok .proceed ∧ m.tick.2.index.toNat = 5 * digit ∧
      ∀ later,
        let history := ops ++ .tick :: later
        let n := (begun.applyAll history).2
        SpareGlyphs (begun.ticksSinceGlyphs [] history) → n.index = m.tick.2.index →
        ∀ a b, n.instruction? = some (.draw a b 5) →
          n.tick.1 = .ok .draw ∧
          ∀ px py, n.tick.2.screen.pixel px py ≠ n.screen.pixel px py ↔
            ∃ (r : Fin 5) (c : Fin 8) (row : UInt8),
              (glyphsAfter history)[5 * digit.val + r.val]? = some row ∧
              row.toNat.testBit (7 - c) = true ∧
              ((n.register a).toNat + c) % 64 = px % 64 ∧
              ((n.register b).toNat + r) % 32 = py % 32 := by
  intro begun m
  have held (ops : List Operation) (spared : SpareGlyphs (begun.ticksSinceGlyphs [] ops)) :
      (begun.applyAll ops).2.HoldsGlyphs (glyphsAfter ops) := by
    have fonts : glyphsAfter ops = (begun.applyAll ops).2.font.toList :=
      (font_applyAll begun ops).symm
    rw [fonts]
    exact holdsGlyphs_applyAll ops begun (fun _ => holdsGlyphs_new profile random) spared
  refine ⟨held ops, ?_⟩
  intro x code digit
  have ticked : m.tick = m.execute (.pointGlyph x) := tick_of_instruction? code
  have index : m.tick.2.index.toNat = 5 * digit := by
    rw [ticked]
    exact UInt16.toNat_ofNat_of_lt' (show 5 * digit.val < 65536 by omega)
  refine ⟨by rw [ticked]; rfl, index, ?_⟩
  intro later history n spared same a b draws
  have there : n.index.toNat = 5 * digit := by rw [same, index]
  obtain ⟨drawn, screen⟩ := tick_draw_glyph draws there
  refine ⟨drawn, fun px py => ?_⟩
  rw [screen]
  exact (held history spared).pixel_drawn_ne_iff there px py

/-- A byte of two digits, the index of the glyph of the last one and the sprite. -/
def glyphProgram : List UInt8 := [0x60, 0x1A, 0xF0, 0x29, 0xD0, 0x05]

/-- Other glyphs than the built-in ones, and the program. -/
def glyphLoading : List Operation := [.loadFont rampGlyphs, .load glyphProgram]

/-- The glyph of the digit A that was loaded is drawn. -/
theorem glyphs_drawn_from_font_digit :
    let begun := Machine.new {} (.constant 0)
    let m := (begun.applyAll (glyphLoading ++ [.tick])).2
    let n := (begun.applyAll (glyphLoading ++ [.tick, .tick])).2
    m.HoldsGlyphs rampGlyphs ∧ m.tick.2.index.toNat = 50 ∧ n.tick.1 = .ok .draw ∧
      n.tick.2.screen.pixel 28 30 ≠ n.screen.pixel 28 30 := by
  obtain ⟨held, points⟩ := glyphs_drawn_from_font {} (.constant 0) (glyphLoading ++ [.tick])
  -- nothing of the new machine matters, for all of it is loaded
  generalize Machine.new {} (.constant 0) = begun at held points ⊢
  obtain ⟨start, started⟩ :
      ∃ start, ((begun.apply (.loadFont rampGlyphs)).2.apply (.load glyphProgram)).2 = start :=
    ⟨_, rfl⟩
  have execution : start.Executes 512 glyphProgram 0 := by
    have restarts : (Operation.load glyphProgram).restarts = true := rfl
    rw [← started, apply_of_restarts restarts]
    exact .of_overlay rfl (by decide) rfl rfl
  have second : (begun.applyAll (glyphLoading ++ [.tick])).2 = start.tick.2 := by
    show (begun.applyAll [.loadFont rampGlyphs, .load glyphProgram, .tick]).2 = _
    rw [applyAll_cons, applyAll_cons, started]
    rfl
  have third : (begun.applyAll (glyphLoading ++ [.tick, .tick])).2 = start.tick.2.tick.2 := by
    show (begun.applyAll [.loadFont rampGlyphs, .load glyphProgram, .tick, .tick]).2 = _
    rw [applyAll_cons, applyAll_cons, started]
    rfl
  have since (ops : List Operation) : begun.ticksSinceGlyphs [] (glyphLoading ++ .tick :: ops) =
      start.tick.2.ticksSinceGlyphs [start] ops := by
    have loads : (Operation.loadFont rampGlyphs).installs = true := rfl
    have restarts : (Operation.load glyphProgram).installs = true := rfl
    show begun.ticksSinceGlyphs [] (.loadFont rampGlyphs :: .load glyphProgram :: .tick :: ops) = _
    rw [ticksSinceGlyphs_of_installs loads, ticksSinceGlyphs_of_installs restarts, started]
    rfl
  -- the digits
  have code : start.instruction? = some (.setByte 0 0x1A) := execution.instruction? rfl rfl rfl
  have execution₁ : start.tick.2.Executes 512 glyphProgram 2 := execution.tick code rfl rfl rfl
  have digits : start.tick.2.register 0 = 0x1A := by
    rw [tick_of_instruction? code]
    exact (register_setRegister start.advance 0 0 0x1A).trans (if_pos rfl)
  -- the glyph
  have code₁ : start.tick.2.instruction? = some (.pointGlyph 0) :=
    execution₁.instruction? rfl rfl rfl
  have execution₂ : start.tick.2.tick.2.Executes 512 glyphProgram 4 :=
    execution₁.tick code₁ rfl rfl rfl
  have digits₂ : start.tick.2.tick.2.register 0 = 0x1A := by
    rw [tick_of_instruction? code₁]
    exact digits
  have code₂ : start.tick.2.tick.2.instruction? = some (.draw 0 0 5) :=
    execution₂.instruction? rfl rfl rfl
  have spared : SpareGlyphs [start, start.tick.2] := by
    simp [SpareGlyphs, not_writes code id, not_writes code₁ id]
  have once : SpareGlyphs [start] :=
    List.forall_mem_singleton.mpr (List.forall_mem_cons.mp spared).1
  rw [since, second] at held
  rw [second] at points
  obtain ⟨-, index, later⟩ := points 0 code₁
  have draws := later []
  simp only [List.append_assoc, List.cons_append, List.nil_append, since, third] at draws
  obtain ⟨drawn, pixels⟩ := draws spared trivial 0 0 code₂
  rw [digits] at index pixels
  rw [digits₂] at pixels
  simp only [second, third]
  refine ⟨held once, index, drawn, (pixels 28 30).mpr ⟨4, 2, 54, rfl, rfl, rfl, rfl⟩⟩

end Machine

end Chip8
