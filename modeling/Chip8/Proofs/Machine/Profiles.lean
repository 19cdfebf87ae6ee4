import Chip8.Proofs.Machine.Lockstep
import Chip8.Proofs.Machine.Surroundings

/-!
# Two profiles

A machine runs the same under another profile until it comes to an instruction on which the two
profiles disagree. Then it is in the same state under both of them, and what the instruction leaves
different is little: the index, which only one of them moves, or the register that is shifted and
the flag.

Results:
1. `lockstep_under`: a machine under two profiles side by side.
2. `execute_transfer`, `registersApart_execute`: what a transfer and a shift do under any profile.
3. `registers_shift_of_copy`: a shift of the second register is a copy and a shift of the first.
4. `profiles_isolated`: all of it.
-/

namespace Chip8.Machine

/-! ## Definitions -/

/-- The machine under another profile. -/
def under (m : Machine) (profile : Profile) : Machine := { m with profile }

/-- The next tick carries out an instruction on which the profiles disagree. -/
def Disputes (m : Machine) (profile : Profile) : Prop :=
  ∃ i, m.instruction? = some i ∧ m.Disputed profile i

/-- The second machine is the first one under another profile, with the index further on. -/
structure IndexAhead (m m' : Machine) (count : Nat) : Prop where
  rest : m' = { m with profile := m'.profile, index := m'.index }
  index : m'.index.toNat = m.index.toNat + count

/-- The second machine is the first one under another profile, with another value in a register and
another flag. -/
structure RegistersApart (m m' : Machine) (x : Register) : Prop where
  rest : m' = { m with profile := m'.profile, registers := m'.registers }
  registers : ∀ k, k ≠ x → k ≠ .flag → m'.register k = m.register k

/-- How the states part at a tick on which the profiles disagree.

* `transfer`: one index is ahead by as much as there are registers to transfer.
* `shift`: the register that is shifted and the flag differ, or one of them. -/
inductive Parts (m : Machine) (profile : Profile) : Prop
  | transfer {x : Register} :
      m.instruction? = some (.storeRegisters x) ∨ m.instruction? = some (.loadRegisters x) →
      m.profile.advanceIndex ≠ profile.advanceIndex →
      (if profile.advanceIndex then m.tick.2.IndexAhead (m.under profile).tick.2 (x + 1)
        else (m.under profile).tick.2.IndexAhead m.tick.2 (x + 1)) → Parts m profile
  | shift {op : Arithmetic} {x y : Register} :
      m.instruction? = some (.arithmetic op x y) → op = .shiftRight ∨ op = .shiftLeft →
      m.profile.shiftSecond ≠ profile.shiftSecond →
      m.tick.2.RegistersApart (m.under profile).tick.2 x → Parts m profile

variable {m : Machine} {profile : Profile}

theorem under_eq_refit : m.under profile = m.refit m.keypad profile := rfl

/-! ## Side by side -/

theorem tick_under (agreed : ¬ m.Disputes profile) :
    (m.under profile).tick = (m.tick.1, m.tick.2.under profile) := by
  have ticked : (m.refit m.keypad profile).tick = refitStep m.keypad profile m.tick :=
    tick_refit (fun _ _ _ => rfl) fun i code disputed => agreed ⟨i, code, disputed⟩
  have keypad : m.Keeps m.tick.2 .keypad := keeps_tick_of_surrounds rfl
  calc (m.under profile).tick = (m.tick.1, m.tick.2.refit m.keypad profile) := ticked
    _ = (m.tick.1, m.tick.2.refit m.tick.2.keypad profile) := by
      rw [show m.tick.2.keypad = m.keypad from keypad]

theorem apply_under {op : Operation} (quiet : op.makesTicks = false) :
    (m.under profile).apply op = ((m.apply op).1, (m.apply op).2.under profile) := by
  cases op with
  | tick | run count => cases quiet
  | load program =>
    rcases Nat.lt_or_ge 3584 program.length with large | small
    · simp only [apply, load_of_lt large]
    · simp only [apply, load_of_le small]
      rfl
  | loadFont glyphs =>
    simp only [apply, loadFont]
    cases Font.ofList? glyphs with
    | some font => rfl
    | none => rfl
  | keyDown index | keyUp index =>
    have keypad : (m.under profile).keypad = m.keypad := rfl
    simp only [apply, pressKey, keypad]
    cases m.keypad.press index _ with
    | ok keypad => rfl
    | error fault => rfl
  | reset | setKey key pressed | clearKeys | tickTimers => rfl

theorem lockstep_under (profile : Profile) :
    Lockstep (fun n n' => n' = n.under profile) (fun n => ¬ n.Disputes profile) where
  tick {n n'} related agreed := by
    subst related
    rw [tick_under agreed]
    exact ⟨rfl, rfl⟩
  quiet {n n' op} related quiet := by
    subst related
    rw [apply_under quiet]
    exact ⟨rfl, rfl⟩

/-! ## Transfers -/

/-- A transfer is complete if all of its bytes are in memory. -/
theorem complete_iff {i : Instruction} {x : Register}
    (transfer : i = .storeRegisters x ∨ i = .loadRegisters x) :
    (m.execute i).1 = .ok .proceed ↔ m.index.toNat + (x + 1) ≤ 4096 := by
  have faults (fault : Fault) : (m.execute i).1 = .error fault ↔
      4096 ≤ m.index.toNat + x ∧ fault = .outOfBounds (max m.index.toNat 4096) := by
    rw [execute_eq_error_iff]
    rcases transfer with rfl | rfl
    · exact Iff.rfl
    · exact Iff.rfl
  obtain ⟨fault?, outcome⟩ : ∃ fault?, (m.execute i).1 = transferred .proceed fault? := by
    rcases transfer with rfl | rfl
    · exact ⟨_, congrArg Prod.fst (storeRegisters_eq m.advance x)⟩
    · exact ⟨_, congrArg Prod.fst (loadRegisters_eq m.advance x)⟩
  rw [outcome] at faults ⊢
  cases fault? with
  | some fault =>
    have beyond := (faults fault).mp rfl
    exact ⟨nofun, fun inside => by omega⟩
  | none =>
    refine ⟨fun _ => ?_, fun _ => rfl⟩
    by_contra outside
    cases (faults _).mpr ⟨by omega, rfl⟩

/-- A transfer that is complete, under any profile: only the index depends on the profile. -/
theorem execute_transfer {i : Instruction} {x : Register}
    (transfer : i = .storeRegisters x ∨ i = .loadRegisters x)
    (complete : (m.execute i).1 = .ok .proceed) (p : Profile) :
    (m.under p).execute i = (.ok .proceed, { (m.execute i).2 with
      profile := p
      index := if p.advanceIndex then m.index + UInt16.ofNat (x + 1) else m.index }) := by
  rcases transfer with rfl | rfl
  · have outcome := congrArg Prod.fst (storeRegisters_eq m.advance x)
    have whole := transferred_eq_ok_iff.mp (outcome.symm.trans complete)
    simp only [under_eq_refit, execute, refit_advance, storeRegisters_eq, refit_memory, refit_index,
      refit_registers, refit_profile, whole, true_and]
    rw [transferred_eq_ok_iff.mpr whole]
    rfl
  · have outcome := congrArg Prod.fst (loadRegisters_eq m.advance x)
    have whole := transferred_eq_ok_iff.mp (outcome.symm.trans complete)
    simp only [under_eq_refit, execute, refit_advance, loadRegisters_eq, refit_memory, refit_index,
      refit_registers, refit_profile, whole, true_and]
    rw [transferred_eq_ok_iff.mpr whole]
    rfl

/-- After a complete transfer the machine whose profile moves the index is ahead. -/
theorem indexAhead_execute {i : Instruction} {x : Register}
    (transfer : i = .storeRegisters x ∨ i = .loadRegisters x)
    (complete : (m.execute i).1 = .ok .proceed) {p q : Profile} (stays : p.advanceIndex = false)
    (moves : q.advanceIndex = true) :
    ((m.under p).execute i).2.IndexAhead ((m.under q).execute i).2 (x + 1) := by
  have inside := (complete_iff transfer).mp complete
  rw [execute_transfer transfer complete, execute_transfer transfer complete]
  refine ⟨rfl, ?_⟩
  simp only [stays, moves]
  show (m.index + UInt16.ofNat (x + 1)).toNat = m.index.toNat + (x + 1)
  have count : (UInt16.ofNat (x + 1)).toNat = x + 1 :=
    UInt16.toNat_ofNat_of_lt' (Nat.lt_of_le_of_lt x.isLt (by decide))
  rw [UInt16.toNat_add, count, Nat.mod_eq_of_lt (by omega)]

/-! ## Shifts -/

theorem register_execute_arithmetic (m : Machine) (op : Arithmetic) {x k : Register} (y : Register)
    (other : k ≠ x) (flagless : k ≠ .flag) :
    (m.execute (.arithmetic op x y)).2.register k = m.register k := by
  have kept : m.Keeps (m.execute (.arithmetic op x y)).2 (.register k) := by
    refine keeps_execute ?_
    rintro (here | ⟨flag, -⟩)
    · exact other here
    · exact flagless flag
  exact kept

theorem registersApart_execute (m : Machine) (op : Arithmetic) (x y : Register) (p : Profile) :
    (m.execute (.arithmetic op x y)).2.RegistersApart
      ((m.under p).execute (.arithmetic op x y)).2 x := by
  constructor
  · obtain ⟨own, state⟩ := calculate_eq m.advance op x y
    obtain ⟨others, state'⟩ := calculate_eq (m.under p).advance op x y
    simp only [execute, state, state']
    rfl
  · intro k other flagless
    rw [register_execute_arithmetic m op y other flagless,
      register_execute_arithmetic (m.under p) op y other flagless]
    rfl

/-- A shift of the second register fills the registers as a copy of it and a shift of the first,
whichever registers these are. -/
theorem registers_shift_of_copy {op : Arithmetic} (shifts : op = .shiftRight ∨ op = .shiftLeft)
    (second : m.profile.shiftSecond = true) {first : Profile}
    (other : first.shiftSecond = false) (x y : Register) :
    (((m.under first).execute (.arithmetic .copy x y)).2.execute (.arithmetic op x y)).2.registers =
      (m.execute (.arithmetic op x y)).2.registers := by
  let n := ((m.under first).execute (.arithmetic .copy x y)).2
  have copied : n.register x = m.register y :=
    (register_setRegister (m.under first) x x (m.register y)).trans (if_pos rfl)
  have operand :
      Arithmetic.shifted n.advance.profile (n.advance.register x) (n.advance.register y) =
        Arithmetic.shifted m.advance.profile (m.advance.register x) (m.advance.register y) :=
    calc Arithmetic.shifted n.profile (n.register x) (n.register y) = n.register x :=
          if_neg (by rw [show n.profile = first from rfl, other]; decide)
      _ = m.register y := copied
      _ = Arithmetic.shifted m.profile (m.register x) (m.register y) := (if_pos second).symm
  obtain ⟨result, flag⟩ := Arithmetic.shift_congr shifts operand
  -- the copy is overwritten by the result, wherever the flag goes
  have overwritten (value : UInt8) :
      (n.advance.setRegister x value).registers = (m.advance.setRegister x value).registers :=
    Vector.set_set _ x.isLt
  show (n.advance.calculate op x y).registers = (m.advance.calculate op x y).registers
  simp only [calculate, result, flag]
  cases op.flag? m.advance.profile (m.advance.register x) (m.advance.register y) with
  | some flag => exact congrArg (·.set Register.flag (if flag then 1 else 0)) (overwritten _)
  | none => exact overwritten _

/-! ## Runs -/

/-- The tick on which the profiles disagree succeeds under both of them. -/
theorem parts_of_disputes (h : m.Disputes profile) :
    (m.under profile).tick.1 = m.tick.1 ∧ m.Parts profile := by
  obtain ⟨i, code, disputed⟩ := h
  have own : m.tick = m.execute i := tick_of_instruction? code
  have other : (m.under profile).tick = (m.under profile).execute i := tick_of_instruction? code
  cases disputed with
  | @transfer i x transfer differ complete =>
    have outcome : (m.under profile).tick.1 = m.tick.1 := by
      rw [own, other, execute_transfer transfer complete, complete]
    have form : m.instruction? = some (.storeRegisters x) ∨
        m.instruction? = some (.loadRegisters x) := by
      rcases transfer with rfl | rfl
      · exact .inl code
      · exact .inr code
    refine ⟨outcome, .transfer form differ ?_⟩
    rw [own, other]
    cases moves : profile.advanceIndex with
    | true =>
      have stays : m.profile.advanceIndex = false := by simpa [moves] using differ
      exact indexAhead_execute transfer complete stays moves
    | false =>
      have moved : m.profile.advanceIndex = true := by simpa [moves] using differ
      exact indexAhead_execute transfer complete moves moved
  | @shift op x y shifts differ operands =>
    have outcome : (m.under profile).tick.1 = m.tick.1 := by
      rw [own, other]
      rfl
    refine ⟨outcome, .shift code shifts differ ?_⟩
    rw [own, other]
    exact registersApart_execute m op x y profile

/-- Under another profile any operations are answered alike and lead to the same states, as long as
no tick carries out an instruction on which the two profiles disagree: a complete transfer of
registers if only one of them moves the index, or a shift with different operands if they take
different ones. A transfer that faults and a shift of equal operands are none.

The first tick that does is reached in the same state. It succeeds under both profiles, and after it
one index is ahead by the number of registers, without leaving memory, or the register that is
shifted and the flag differ, and nothing else does. A shift of the second register fills the
registers as a copy of it and a shift of the first. -/
theorem profiles_isolated (m : Machine) (profile : Profile) :
    (∀ ops, (∀ n ∈ m.tickedByAll ops, ¬ n.Disputes profile) →
      RunsAlike (fun n n' => n' = n.under profile) m (m.under profile) ops) ∧
    (∀ ops before n after, m.tickedByAll ops = before ++ n :: after →
      (∀ x ∈ before, ¬ x.Disputes profile) →
        ∃ before' after', (m.under profile).tickedByAll ops =
            before' ++ n.under profile :: after' ∧
          SameTicks (fun n n' => n' = n.under profile) before before') ∧
    (∀ n : Machine, n.Disputes profile →
      (n.under profile).tick.1 = n.tick.1 ∧ n.Parts profile) ∧
    ∀ op, op = .shiftRight ∨ op = .shiftLeft → m.profile.shiftSecond = true →
      profile.shiftSecond = false → ∀ x y,
        (((m.under profile).execute (.arithmetic .copy x y)).2.execute
          (.arithmetic op x y)).2.registers = (m.execute (.arithmetic op x y)).2.registers := by
  have lockstep := lockstep_under profile
  refine ⟨fun ops agreed => lockstep.applyAll rfl agreed, ?_, fun n => parts_of_disputes, ?_⟩
  · intro ops before n after ticks agreed
    have along := lockstep.along (m := m) rfl ops
    rw [ticks] at along
    obtain ⟨before', n', after', whole, same, rfl⟩ := along.split agreed
    exact ⟨before', after', whole, same⟩
  · exact fun op shifts second other => registers_shift_of_copy shifts second other

/-- A shift of equal operands and then a transfer, under the profiles that disagree on both. -/
theorem profiles_isolated_store :
    let m : Machine := { Machine.new {} (.constant 0) with
      index := 0x300, memory := Memory.zero.overlay 512 [0x80, 0x16, 0xF1, 0x55] }
    let profile : Profile := { advanceIndex := true, shiftSecond := true }
    let n := m.tick.2
    ¬ m.Disputes profile ∧ n.Disputes profile ∧
      RunsAlike (fun n n' => n' = n.under profile) m (m.under profile) [.tick] ∧
      (∃ before' after', (m.under profile).tickedByAll [.tick, .tick] =
          before' ++ n.under profile :: after' ∧
        SameTicks (fun n n' => n' = n.under profile) [m] before') ∧
      n.Parts profile ∧
      ((m.execute (.arithmetic .copy 0 1)).2.execute (.arithmetic .shiftRight 0 1)).2.registers =
        ((m.under profile).execute (.arithmetic .shiftRight 0 1)).2.registers := by
  intro m profile n
  have shift : m.instruction? = some (.arithmetic .shiftRight 0 1) :=
    instruction?_of_fetch rfl (fetch_of_overlay rfl (by decide) rfl rfl)
  have equal : m.register 0 = m.register 1 := rfl
  have agreed : ¬ m.Disputes profile := by
    rintro ⟨i, code, disputed⟩
    cases shift.symm.trans code
    cases disputed with
    | transfer form _ _ => rcases form with form | form <;> cases form
    | shift _ _ operands => exact operands equal
  obtain ⟨registers, next⟩ : ∃ registers, n = { m.advance with registers } := by
    obtain ⟨registers, written⟩ := calculate_eq m.advance .shiftRight 0 1
    exact ⟨registers, (congrArg Prod.snd (tick_of_instruction? shift)).trans written⟩
  have store : n.instruction? = some (.storeRegisters 1) := by
    have first : m.memory.read 514 = .ok 0xF1 :=
      Memory.read_overlay_of_lt (k := 2) (by decide) (by decide)
    have second : m.memory.read 515 = .ok 0x55 :=
      Memory.read_overlay_of_lt (k := 3) (by decide) (by decide)
    have word : ({ m.advance with registers } : Machine).fetch = .ok (Word.ofBytes 0xF1 0x55) :=
      fetch_of_read first second
    rw [next]
    exact instruction?_of_fetch rfl word
  have complete : (n.execute (.storeRegisters 1)).1 = .ok .proceed := by
    have inside : m.index.toNat + ((1 : Register) + 1) ≤ 4096 := by decide
    rw [complete_iff (.inl rfl), next]
    exact inside
  have disputes : n.Disputes profile := by
    have differ : m.profile.advanceIndex ≠ profile.advanceIndex := by decide
    refine ⟨_, store, .transfer (.inl rfl) ?_ complete⟩
    rw [next]
    exact differ
  have ticks (m : Machine) : m.tickedByAll [.tick, .tick] = [m] ++ m.tick.2 :: [] := rfl
  obtain ⟨alike, reached, parted, -⟩ := profiles_isolated m profile
  refine ⟨agreed, disputes, ?_, ?_, (parted n disputes).2, ?_⟩
  · exact alike [.tick] fun x mem => List.mem_singleton.mp mem ▸ agreed
  · exact reached [.tick, .tick] [m] n [] (ticks m) fun x mem =>
      List.mem_singleton.mp mem ▸ agreed
  · exact (profiles_isolated (m.under profile) {}).2.2.2 .shiftRight (.inl rfl) rfl rfl 0 1

end Chip8.Machine
