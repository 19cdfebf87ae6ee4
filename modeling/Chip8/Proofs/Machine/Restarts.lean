import Chip8.Proofs.Machine.Footprint
import Chip8.Proofs.Machine.Lockstep
import Chip8.Proofs.Machine.Unseen

/-!
# Restarts

A reset, or a load that is not refused, leaves nothing of what went on before: the state after it
depends on the font in force and on the random bytes ahead alone. The count of beeps goes on, and
is never looked at.

Results:
1. `apply_of_restarts`, `restarted_of_restarts`: the state after a restart.
2. `font_applyAll`: the glyphs in force are the last ones loaded, byte by byte.
3. `Twin.lockstep`, `Twin.applyAll`: operations on machines that differ only in their pasts.
4. `restart_forgets`: two machines with different pasts after a restart.
-/

namespace Chip8

/-! ## Definitions -/

/-- The glyphs that an operation loads. Any but 80 bytes are refused. -/
def Operation.glyphs? : Operation → Option (List UInt8)
  | .loadFont glyphs => if glyphs.length = 80 then some glyphs else none
  | _ => none

/-- The program that a restart puts into memory. -/
def Operation.program : Operation → List UInt8
  | .load program => program
  | _ => []

namespace Machine

/-- The glyphs after operations on a new machine: the last ones loaded, or the built-in ones. -/
def glyphsAfter (ops : List Operation) : List UInt8 :=
  (ops.filterMap Operation.glyphs?).getLast?.getD Font.builtin.toList

/-- Everything is cleared, and memory holds the glyphs and a program. -/
structure Restarted (m : Machine) (font : Font) (program : List UInt8) : Prop where
  pc : m.pc = 0x200
  registers : ∀ x, m.register x = 0
  index : m.index = 0
  delay : m.delay = 0
  sound : m.sound = 0
  running : m.keyWait = none
  keys : ∀ key, m.keypad.isDown key = false
  stack : m.stack.toList = []
  screen : ∀ x y, m.screen.pixel x y = false
  glyphs : ∀ address, ∀ h : address < 80, m.memory.read address = .ok font[address]
  loaded : ∀ k, ∀ h : k < program.length, m.memory.read (0x200 + k) = .ok program[k]
  rest : ∀ address < 4096, 80 ≤ address → address < 0x200 ∨ 0x200 + program.length ≤ address →
    m.memory.read address = .ok 0

/-- Two machines in the same state with different pasts: one had played `before` beeps and the other
`before'`, and they took different random bytes. Since then they played as many beeps, and the
random bytes ahead of them are the same. -/
inductive Twin (before before' : Nat) (m : Machine) : Machine → Prop
  | mk {gained : Nat} {random : RandomStream} :
      m.beeps = before + gained → random.ahead = m.random.ahead →
      Twin before before' m { m with beeps := before' + gained, random }

/-! ## The state after a restart -/

theorem apply_of_restarts {m : Machine} {op : Operation} (h : op.restarts = true) :
    m.apply op =
      (.ok .done, { m.reset with memory := m.reset.memory.overlay 0x200 op.program }) := by
  cases op with
  | load program =>
    have small : program.length ≤ 3584 := of_decide_eq_true h
    simp only [apply, load_of_le small]
    rfl
  | reset =>
    simp only [apply, Operation.program, Memory.overlay_nil]
  | _ => cases h

theorem length_program_le {op : Operation} (h : op.restarts = true) :
    op.program.length ≤ 3584 := by
  cases op with
  | load program => exact of_decide_eq_true h
  | reset => exact Nat.zero_le _
  | _ => cases h

theorem restarted_of_restarts (m : Machine) {op : Operation} (h : op.restarts = true) :
    (m.apply op).2.Restarted m.font op.program := by
  have small := length_program_le h
  rw [apply_of_restarts h]
  exact {
    pc := rfl
    registers := fun x => by simp [register, reset, Core.initial]
    index := rfl
    delay := rfl
    sound := rfl
    running := rfl
    keys := fun key => by simp [reset, Core.initial, Keypad.isDown, Keypad.released]
    stack := rfl
    screen := fun x y => Screen.pixel_blank x y
    glyphs := fun address low => by
      rw [Memory.read_overlay_of_outside (.inl (by omega))]
      exact Memory.read_withFont_of_lt _ _ low
    loaded := fun k inside => Memory.read_overlay_of_lt inside (by omega)
    rest := fun address room above outside => by
      rw [Memory.read_overlay_of_outside outside]
      exact (Memory.read_withFont_of_le _ _ above).trans (Memory.read_zero room) }

/-! ## The font in force -/

theorem font_tick (m : Machine) : m.tick.2.font = m.font := by
  have kept : m.Keeps m.tick.2 .font := keeps_tick_of_surrounds rfl
  exact kept

theorem font_run (m : Machine) (count : Nat) : (m.run count).2.font = m.font :=
  have path : Path (fun _ _ => False) m (m.tickedByRun count ++ []) (m.run count).2 := .of_go .nil
  (path.keeps (P := fun n => n.font = m.font) False.elim
    (fun x _ h => (font_tick x).trans h) rfl).1

/-- An operation changes the glyphs in force only if it loads some. -/
theorem font_apply (m : Machine) (op : Operation) :
    (m.apply op).2.font.toList = op.glyphs?.getD m.font.toList := by
  cases op with
  | load program =>
    rcases Nat.lt_or_ge 3584 program.length with large | small
    · rw [apply, load_of_lt large]
      rfl
    · rw [apply, load_of_le small]
      rfl
  | loadFont glyphs =>
    by_cases length : glyphs.length = 80
    · obtain ⟨font, same, loaded⟩ := loadFont_of_eq m length
      rw [apply, loaded, Operation.glyphs?, if_pos length]
      exact same
    · rw [apply, loadFont_of_ne length, Operation.glyphs?, if_neg length]
      rfl
  | tick => exact congrArg Vector.toList (font_tick m)
  | run count => exact congrArg Vector.toList (font_run m count)
  | keyDown index | keyUp index =>
    rw [apply, pressKey]
    cases m.keypad.press index _ with
    | ok keypad => rfl
    | error fault => rfl
  | reset | tickTimers | setKey key pressed | clearKeys => rfl

theorem font_applyAll (m : Machine) (ops : List Operation) :
    (m.applyAll ops).2.font.toList =
      (ops.filterMap Operation.glyphs?).getLast?.getD m.font.toList := by
  induction ops generalizing m with
  | nil => rfl
  | cons op ops ih =>
    show ((m.apply op).2.applyAll ops).2.font.toList = _
    rw [ih, font_apply]
    cases loads : op.glyphs? with
    | none => rw [List.filterMap_cons_none loads, Option.getD_none]
    | some glyphs =>
      rw [List.filterMap_cons_some loads, List.getLast?_cons]
      rfl

/-! ## Two pasts -/

variable {before before' : Nat} {m m' : Machine}

theorem Twin.resembles (h : Twin before before' m m') : m.Resembles m' := by
  cases h with
  | mk _ _ => rfl

theorem Twin.tick (h : Twin before before' m m') :
    m'.tick.1 = m.tick.1 ∧ Twin before before' m.tick.2 m'.tick.2 := by
  have same := h.resembles
  cases h with
  | @mk gained random played ahead =>
    have byte := (RandomStream.next_congr ahead).1
    have ticked := alike_tick same (fun _ => rfl) fun _ _ => by rw [← byte]
    refine ⟨ticked.outcome, ?_⟩
    rw [ticked.state, ticked.delay rfl, ticked.sound rfl, ticked.beeps.2]
    refine .mk (ticked.beeps.1.trans played) ?_
    rcases ticked.random with ⟨own, other⟩ | ⟨own, other⟩
    · rw [own, other]
      exact ahead
    · rw [own, other]
      exact (RandomStream.next_congr ahead).2

theorem Twin.apply_of_quiet (h : Twin before before' m m') {op : Operation}
    (quiet : op.makesTicks = false) :
    (m'.apply op).1 = (m.apply op).1 ∧ Twin before before' (m.apply op).2 (m'.apply op).2 := by
  cases h with
  | mk played ahead =>
    rw [Machine.apply_of_quiet m _ _ quiet, Nat.add_assoc]
    refine ⟨rfl, .mk ?_ ?_⟩
    · rw [beeps_apply_of_quiet m quiet, played, Nat.add_assoc]
    · rw [random_apply_of_quiet m quiet, ahead]

theorem Twin.lockstep (before before' : Nat) : Lockstep (Twin before before') fun _ => True where
  tick h _ := h.tick
  quiet h quiet := h.apply_of_quiet quiet

/-- Operations are answered alike by twins, and they stay twins. -/
theorem Twin.applyAll (h : Twin before before' m m') (ops : List Operation) :
    (m'.applyAll ops).1 = (m.applyAll ops).1 ∧
      Twin before before' (m.applyAll ops).2 (m'.applyAll ops).2 :=
  have alike : RunsAlike (Twin before before') m m' ops :=
    (Twin.lockstep before before').applyAll h fun _ _ => trivial
  ⟨alike.answers, alike.state⟩

theorem profile_invariant (profile : Profile) : Invariant fun m => m.profile = profile where
  tick {m} hm :=
    have kept : m.Keeps m.tick.2 .profile := keeps_tick_of_surrounds rfl
    Eq.trans kept hm
  tickTimers hm := hm
  keys _ hm := hm
  font _ _ _ hm := hm
  restart _ hm := hm

theorem twin_of_restarts (profile : m'.profile = m.profile) (font : m'.font = m.font)
    (random : m'.random.ahead = m.random.ahead) {op : Operation} (h : op.restarts = true) :
    Twin m.beeps m'.beeps (m.apply op).2 (m'.apply op).2 := by
  have same : (m'.apply op).2 =
      { (m.apply op).2 with beeps := m'.beeps + 0, random := m'.random } := by
    simp only [apply_of_restarts h, reset, profile, font, Nat.add_zero]
  have kept : (m.apply op).2.beeps = m.beeps + 0 ∧ (m.apply op).2.random = m.random := by
    rw [apply_of_restarts h]
    exact ⟨rfl, rfl⟩
  rw [same]
  exact .mk kept.1 (random.trans (congrArg RandomStream.ahead kept.2).symm)

/-- Whatever two machines went through, with one profile, one font in force and the same random
bytes ahead they are in the same state after a restart. That state is cleared and holds the font and
the program, and whatever operations follow are answered alike and play as many beeps. The glyphs in
force are the bytes that were loaded last; programs and fonts of a wrong size are refused and change
nothing, and no other program is refused. -/
theorem restart_forgets (profile : Profile) (random₁ random₂ : RandomStream)
    (ops₁ ops₂ : List Operation) :
    let m₁ := ((Machine.new profile random₁).applyAll ops₁).2
    let m₂ := ((Machine.new profile random₂).applyAll ops₂).2
    (m₁.font = m₂.font → m₁.random.ahead = m₂.random.ahead → ∀ op, op.restarts = true →
      let n₁ := (m₁.apply op).2
      let n₂ := (m₂.apply op).2
      n₁.Restarted m₁.font op.program ∧ Twin m₁.beeps m₂.beeps n₁ n₂ ∧
        ∀ ops, (n₂.applyAll ops).1 = (n₁.applyAll ops).1 ∧
          Twin m₁.beeps m₂.beeps (n₁.applyAll ops).2 (n₂.applyAll ops).2) ∧
      m₁.font.toList = glyphsAfter ops₁ ∧
      (∀ program : List UInt8, 3584 < program.length →
        m₁.apply (.load program) = (.error (.largeProgram program.length), m₁)) ∧
      (∀ glyphs : List UInt8, glyphs.length ≠ 80 →
        m₁.apply (.loadFont glyphs) = (.error (.font glyphs.length), m₁)) ∧
      ∀ program : List UInt8, program.length ≤ 3584 →
        (m₁.apply (.load program)).1 = .ok .done := by
  intro m₁ m₂
  refine ⟨?_, font_applyAll _ ops₁, ?_, fun glyphs wrong => ?_, ?_⟩
  · intro font random op restarts n₁ n₂
    have profile₁ : m₁.profile = profile := (profile_invariant profile).applyAll ops₁ rfl
    have profile₂ : m₂.profile = profile := (profile_invariant profile).applyAll ops₂ rfl
    have twins : Twin m₁.beeps m₂.beeps n₁ n₂ :=
      twin_of_restarts (profile₂.trans profile₁.symm) font.symm random.symm restarts
    exact ⟨restarted_of_restarts m₁ restarts, twins, twins.applyAll⟩
  · intro program large
    simp only [apply, load_of_lt large]
    rfl
  · simp only [apply, loadFont_of_ne wrong]
    rfl
  · intro program small
    simp only [apply, load_of_le small]
    rfl

/-- Glyphs that are told apart by their bytes: each byte is its own address. -/
def rampGlyphs : List UInt8 := (List.range 80).map UInt8.ofNat

/-- A machine whose program and glyphs were loaded and that holds a key, and one whose glyphs alone
were loaded. -/
theorem restart_forgets_held_key :
    let ops₁ : List Operation := [.load [0xF0, 0x0A], .loadFont rampGlyphs, .keyDown 3]
    let ops₂ : List Operation := [.loadFont rampGlyphs]
    let m₁ := ((Machine.new {} (.constant 7)).applyAll ops₁).2
    let m₂ := ((Machine.new {} (.constant 7)).applyAll ops₂).2
    (m₁.font = m₂.font ∧ m₁.random.ahead = m₂.random.ahead) ∧
      Twin m₁.beeps m₂.beeps (m₁.apply .reset).2 (m₂.apply .reset).2 ∧
      m₁.font.toList = rampGlyphs ∧ (m₁.apply .reset).2.memory.read 54 = .ok 54 := by
  intro ops₁ ops₂ m₁ m₂
  have loaded₁ : m₁.font.toList = rampGlyphs := font_applyAll _ ops₁
  have loaded₂ : m₂.font.toList = rampGlyphs := font_applyAll _ ops₂
  have fonts : m₁.font = m₂.font := Vector.toList_inj.mp (loaded₁.trans loaded₂.symm)
  have random₁ : m₁.random = .constant 7 :=
    random_applyAll_of_quiet _ (by simp [ops₁, Operation.makesTicks])
  have random₂ : m₂.random = .constant 7 :=
    random_applyAll_of_quiet _ (by simp [ops₂, Operation.makesTicks])
  have streams : m₁.random.ahead = m₂.random.ahead :=
    congrArg RandomStream.ahead (random₁.trans random₂.symm)
  obtain ⟨restarted, twins, -⟩ := (restart_forgets {} (.constant 7) (.constant 7) ops₁ ops₂).1
    fonts streams .reset rfl
  have byte : m₁.font[54] = 54 := by
    have listed : m₁.font.toList[54]? = some 54 := by
      rw [loaded₁]
      rfl
    simpa using listed
  exact ⟨⟨fonts, streams⟩, twins, loaded₁, byte ▸ restarted.glyphs 54 (by decide)⟩

end Machine

end Chip8
