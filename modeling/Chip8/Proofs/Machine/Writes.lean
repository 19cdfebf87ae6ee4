import Chip8.Proofs.Machine.Restarts

/-!
# Writes to memory

Two kinds of operations write to memory by themselves, and two instructions do so. A byte that none
of them writes to stays.

Results:
1. `read_apply_of_quiet`, `read_tick`: a byte after an operation without ticks, and after a tick.
2. `Path.read`: a byte along ticks.
-/

namespace Chip8

/-! ## Definitions -/

/-- An operation writes to an address by itself, and not by its ticks: a restart does so everywhere,
and a font that is not refused at the bottom of memory. -/
def Operation.Fills (op : Operation) (address : Nat) : Prop :=
  op.restarts = true ∨ op.glyphs?.isSome = true ∧ address < 80

namespace Machine

/-- The next tick writes to an address. -/
def Writes (m : Machine) (address : Nat) : Prop :=
  ∃ i, m.instruction? = some i ∧ m.Touches i (.byte address)

variable {m m' : Machine} {i : Instruction} {ops : List Operation}

/-! ## Operations -/

theorem restarts_of_makesTicks {op : Operation} (ticks : op.makesTicks = true) :
    op.restarts = false := by
  cases op with
  | tick | run count => rfl
  | _ => cases ticks

theorem not_fills_of_makesTicks {op : Operation} {address : Nat} (ticks : op.makesTicks = true) :
    ¬ op.Fills address := by
  cases op with
  | tick | run count =>
    rintro (restarts | ⟨font, -⟩)
    · cases restarts
    · cases font
  | _ => cases ticks

theorem not_fills_of_all {op : Operation} {address : Nat}
    (ticks : ops.all Operation.makesTicks = true) (mem : op ∈ ops) : ¬ op.Fills address :=
  not_fills_of_makesTicks (List.all_eq_true.mp ticks op mem)

theorem read_apply_of_quiet {op : Operation} {address : Nat} (quiet : op.makesTicks = false)
    (unfilled : ¬ op.Fills address) :
    (m.apply op).2.memory.read address = m.memory.read address := by
  have lasts : op.restarts = false := Bool.eq_false_iff.mpr fun restarts => unfilled (.inl restarts)
  cases op with
  | loadFont glyphs =>
    by_cases length : glyphs.length = 80
    · obtain ⟨font, -, loaded⟩ := loadFont_of_eq m length
      have accepted : (Operation.loadFont glyphs).glyphs?.isSome = true := by
        rw [Operation.glyphs?, if_pos length]
        rfl
      have above : 80 ≤ address := Nat.le_of_not_lt fun low => unfilled (.inr ⟨accepted, low⟩)
      rw [apply, loaded]
      exact Memory.read_withFont_of_le _ _ above
    · rw [apply, loadFont_of_ne length]
  | _ =>
    have kept : m.Keeps (m.apply _).2 (.byte address) := keeps_apply_of_quiet lasts quiet id
    exact kept

/-! ## Ticks -/

theorem not_writes {address : Nat} (code : m.instruction? = some i)
    (untouched : ¬ m.Touches i (.byte address)) : ¬ m.Writes address := by
  rintro ⟨i', code', touches⟩
  obtain rfl := Option.some.inj (code.symm.trans code')
  exact untouched touches

theorem read_tick {address : Nat} (unwritten : ¬ m.Writes address) :
    m.tick.2.memory.read address = m.memory.read address := by
  have kept : m.Keeps m.tick.2 (.byte address) :=
    keeps_tick (by simp) fun i code touches => unwritten ⟨i, code, touches⟩
  exact kept

/-- A byte that nothing writes to stays, at each tick on the way and to the end. -/
theorem Path.read {xs : List Machine} {address : Nat} (path : Path (Between ops) m xs m')
    (unfilled : ∀ op ∈ ops, ¬ op.Fills address) (unwritten : ∀ y ∈ xs, ¬ y.Writes address) :
    m'.memory.read address = m.memory.read address ∧
      ∀ y ∈ xs, y.memory.read address = m.memory.read address := by
  refine path.keeps (P := fun n => n.memory.read address = m.memory.read address) ?_ ?_ rfl
  · rintro n _ ⟨mem, quiet⟩ same
    exact (read_apply_of_quiet quiet (unfilled _ mem)).trans same
  · intro y mem same
    exact (read_tick (unwritten y mem)).trans same

end Machine

end Chip8
