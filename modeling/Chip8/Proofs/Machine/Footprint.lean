import Chip8.Proofs.Machine.Aftermath
import Chip8.Proofs.Machine.Ticks

/-!
# What an operation can change

The state of a machine in parts, and a table of the parts that each instruction touches and each
operation alters. What the table does not name stays as it is, also where an instruction faults
with half of its work done.

Results:
1. `tick_of_instruction?`: a tick carries out the instruction of `instruction?`.
2. `keeps_execute`: an instruction changes only the parts that it touches.
3. `keeps_tick_of_surrounds`, `random_tick`: no tick changes the surroundings, and only a random
   instruction takes a byte, and it takes one.
4. `keeps_apply`: a part stays that neither the operation nor an instruction of its ticks changes.
5. `changes_attributed`: all of it, for ticks, operations and sequences of operations.
-/

namespace Chip8

/-! ## Definitions -/

/-- A part of the state of a machine. -/
inductive Part
  | pc
  | register (x : Register)
  | index
  | delay
  | sound
  | keyWait
  | byte (address : Nat)
  | stack
  | screen
  | keypad
  | profile
  | font
  | random
  | beeps
  deriving DecidableEq, Repr

/-- What programs cannot change: the keypad, the profile, the font and the count of beeps. -/
def Part.surrounds : Part → Bool
  | keypad | profile | font | beeps => true
  | _ => false

/-- The operations of which VF receives a flag. -/
def Arithmetic.flags : Arithmetic → Bool
  | copy | or | and | xor => false
  | add | sub | shiftRight | subFrom | shiftLeft => true

/-- What an operation other than ticks and restarts may change. -/
def Operation.Alters : Operation → Part → Prop
  | .tickTimers, .delay | .tickTimers, .sound | .tickTimers, .beeps => True
  | .keyDown _, .keypad | .keyUp _, .keypad | .setKey _ _, .keypad | .clearKeys, .keypad => True
  | .loadFont _, .font => True
  | .loadFont _, .byte address => address < 80
  | _, _ => False

namespace Machine

/-- A part is the same in both machines. -/
def Keeps (m m' : Machine) : Part → Prop
  | .pc => m'.pc = m.pc
  | .register x => m'.register x = m.register x
  | .index => m'.index = m.index
  | .delay => m'.delay = m.delay
  | .sound => m'.sound = m.sound
  | .keyWait => m'.keyWait = m.keyWait
  | .byte address => m'.memory.read address = m.memory.read address
  | .stack => m'.stack = m.stack
  | .screen => m'.screen = m.screen
  | .keypad => m'.keypad = m.keypad
  | .profile => m'.profile = m.profile
  | .font => m'.font = m.font
  | .random => m'.random = m.random
  | .beeps => m'.beeps = m.beeps

/-- What an instruction may change. A transfer moves the index only where the profile says so and
only if it is complete, and a wait fills its register only once a key is down. -/
def Touches (m : Machine) : Instruction → Part → Prop
  | _, .pc => True
  | .clearScreen, .screen | .draw _ _ _, .screen => True
  | .ret, .stack | .call _, .stack => True
  | .setByte x _, .register k | .addByte x _, .register k | .random x _, .register k
  | .readDelay x, .register k => k = x
  | .arithmetic op x _, .register k => k = x ∨ k = .flag ∧ op.flags
  | .draw _ _ _, .register k => k = .flag
  | .awaitKey x, .register k => k = x ∧ m.keypad.lowest?.isSome
  | .loadRegisters x, .register k => k ≤ x
  | .awaitKey _, .keyWait => True
  | .setIndex _, .index | .addIndex _, .index | .pointGlyph _, .index => True
  | .storeRegisters x, .index =>
    m.profile.advanceIndex ∧ (m.execute (.storeRegisters x)).1 = .ok .proceed
  | .loadRegisters x, .index =>
    m.profile.advanceIndex ∧ (m.execute (.loadRegisters x)).1 = .ok .proceed
  | .random _ _, .random => True
  | .setDelay _, .delay => True
  | .setSound _, .sound => True
  | .storeDecimal _, .byte address => m.index.toNat ≤ address ∧ address ≤ m.index.toNat + 2
  | .storeRegisters x, .byte address => m.index.toNat ≤ address ∧ address ≤ m.index.toNat + x
  | _, _ => False

/-- The instruction that the next tick carries out, if it comes to one: the wait for a key that is
pending, or what the word at the program counter stands for. -/
def instruction? (m : Machine) : Option Instruction :=
  match m.keyWait with
  | some x => some (.awaitKey x)
  | none =>
    match m.fetch with
    | .ok w => Instruction.decode? w
    | .error _ => none

/-- Execution is at a byte of a program that lies in memory from an address on. -/
structure Executes (m : Machine) (start : Nat) (program : List UInt8) (k : Nat) : Prop where
  bytes : ∀ j byte, program[j]? = some byte → m.memory.read (start + j) = .ok byte
  counter : m.pc = start + k
  running : m.keyWait = none

/-! ## The instruction of a tick -/

variable {m m' : Machine} {i : Instruction} {part : Part}

theorem instruction?_of_fetch (running : m.keyWait = none) (word : m.fetch = .ok i.encode) :
    m.instruction? = some i := by
  simp only [instruction?, running, word, Instruction.decode?_encode]

/-- A wait that is pending goes on as it began. -/
theorem tick_of_instruction? (h : m.instruction? = some i) : m.tick = m.execute i := by
  unfold instruction? at h
  unfold tick
  cases waits : m.keyWait with
  | some x =>
    rw [waits] at h
    obtain rfl := Option.some.inj h
    have remembered : { m with keyWait := some x } = m := by rw [← waits]
    simp only [execute, remembered]
  | none =>
    rw [waits] at h
    cases word : m.fetch with
    | error fault =>
      rw [word] at h
      cases h
    | ok w =>
      rw [word] at h
      simp only [executeWord, show Instruction.decode? w = some i from h]

/-- A tick that comes to no instruction faults; at most it passes over the word. -/
theorem tick_of_instruction?_eq_none (h : m.instruction? = none) :
    m.tick.2 = m ∨ m.tick.2 = m.advance := by
  have ticked := tick_cases m
  generalize m.tick = s at ticked ⊢
  cases ticked with
  | stalled waits =>
    simp only [instruction?, waits] at h
    cases h
  | unfetched _ _ => exact .inl rfl
  | unknown _ _ _ _ => exact .inr rfl
  | executed running word _ code =>
    simp only [instruction?, running, word, code] at h
    cases h

/-! ## Programs in memory -/

section

variable {start k : Nat} {program : List UInt8}

theorem Executes.of_overlay {memory : Memory} (loaded : m.memory = memory.overlay start program)
    (inside : start + program.length ≤ 4096) (counter : m.pc = start)
    (running : m.keyWait = none) : m.Executes start program 0 where
  bytes j byte there := by
    obtain ⟨within, rfl⟩ := List.getElem?_eq_some_iff.mp there
    rw [loaded]
    exact Memory.read_overlay_of_lt within (by omega)
  counter := counter
  running := running

theorem Executes.instruction? {high low : UInt8} (execution : m.Executes start program k)
    (first : program[k]? = some high) (second : program[k + 1]? = some low)
    (word : Word.ofBytes high low = i.encode) : m.instruction? = some i := by
  refine instruction?_of_fetch execution.running (word ▸ fetch_of_read ?_ ?_)
  · rw [execution.counter]
    exact execution.bytes k high first
  · rw [execution.counter]
    exact execution.bytes (k + 1) low second

/-- Execution comes to the next instruction of a program that stays. -/
theorem Executes.next (execution : m.Executes start program k)
    (kept : ∀ address, start ≤ address → address < start + program.length →
      m'.memory.read address = m.memory.read address)
    (counter : m'.pc = m.pc + 2) (running : m'.keyWait = m.keyWait) :
    m'.Executes start program (k + 2) where
  bytes j byte there := by
    obtain ⟨within, -⟩ := List.getElem?_eq_some_iff.mp there
    rw [kept (start + j) (by omega) (by omega)]
    exact execution.bytes j byte there
  counter := by rw [counter, execution.counter, Nat.add_assoc]
  running := running.trans execution.running

theorem Executes.tick (execution : m.Executes start program k) (code : m.instruction? = some i)
    (memory : (m.execute i).2.memory = m.memory) (counter : (m.execute i).2.pc = m.pc + 2)
    (running : (m.execute i).2.keyWait = m.keyWait) :
    m.tick.2.Executes start program (k + 2) := by
  rw [tick_of_instruction? code]
  exact execution.next (fun address _ _ => by rw [memory]) counter running

end

/-! ## Parts of a step -/

theorem Keeps.refl (m : Machine) (part : Part) : m.Keeps m part := by
  cases part with
  | _ => rfl

theorem Keeps.trans {m'' : Machine} (first : m.Keeps m' part) (second : m'.Keeps m'' part) :
    m.Keeps m'' part := by
  cases part with
  | _ => exact Eq.trans second first

theorem keeps_advance (apart : part ≠ .pc) : m.Keeps m.advance part := by
  cases part with
  | pc => exact absurd rfl apart
  | _ => rfl

theorem keeps_skipIf (c : Bool) (apart : part ≠ .pc) : m.Keeps (m.skipIf c) part := by
  cases c with
  | true => exact keeps_advance apart
  | false => exact .refl m part

theorem keeps_setRegister {x : Register} (value : UInt8) (apart : part ≠ .register x) :
    m.Keeps (m.setRegister x value) part := by
  cases part with
  | register k =>
    have other : k ≠ x := fun same => apart (congrArg Part.register same)
    exact (register_setRegister m x k value).trans (if_neg other)
  | _ => rfl

theorem keeps_calculate {op : Arithmetic} {x : Register} (y : Register)
    (apart : part ≠ .register x) (flagless : op.flags → part ≠ .register .flag) :
    m.Keeps (m.calculate op x y) part := by
  have result :
      m.Keeps (m.setRegister x (op.result m.profile (m.register x) (m.register y))) part :=
    keeps_setRegister _ apart
  cases op with
  | copy | or | and | xor => exact result
  | add | sub | shiftRight | subFrom | shiftLeft =>
    exact result.trans (keeps_setRegister _ (flagless rfl))

theorem keeps_pollKey {x : Register} (apart : part ≠ .pc) (waitless : part ≠ .keyWait)
    (unfilled : m.keypad.lowest?.isSome → part ≠ .register x) :
    m.Keeps (m.pollKey x).2 part := by
  unfold pollKey
  cases down : m.keypad.lowest? with
  | none => exact .refl m part
  | some key =>
    rw [down] at unfilled
    refine (keeps_setRegister key.toByte (unfilled rfl)).trans ?_
    cases part with
    | pc => exact absurd rfl apart
    | keyWait => exact absurd rfl waitless
    | _ => rfl

theorem keeps_skipOnKey (x : Register) (pressed : Bool) (apart : part ≠ .pc) :
    m.Keeps (m.skipOnKey x pressed).2 part := by
  unfold skipOnKey
  cases m.keypad.isPressed (m.register x) with
  | ok down => exact keeps_skipIf _ apart
  | error fault => exact .refl m part

theorem keeps_call (target : Fin 4096) (apart : part ≠ .pc) (other : part ≠ .stack) :
    m.Keeps (m.call target).2 part := by
  unfold call
  cases m.stack.push (UInt16.ofNat m.pc) with
  | error fault => exact .refl m part
  | ok stack =>
    cases part with
    | pc => exact absurd rfl apart
    | stack => exact absurd rfl other
    | _ => rfl

theorem keeps_ret (apart : part ≠ .pc) (other : part ≠ .stack) : m.Keeps m.ret.2 part := by
  unfold ret
  cases m.stack.pop with
  | error fault => exact .refl m part
  | ok popped =>
    cases part with
    | pc => exact absurd rfl apart
    | stack => exact absurd rfl other
    | _ => rfl

theorem keeps_drawSprite (x y : Register) (rows : Nat) (undrawn : part ≠ .screen)
    (flagless : part ≠ .register .flag) : m.Keeps (m.drawSprite x y rows).2 part := by
  rw [drawSprite_eq]
  cases part with
  | screen => exact absurd rfl undrawn
  | register k => exact keeps_setRegister (m := m) _ flagless
  | _ => rfl

/-! ## Transfers -/

theorem transferred_eq_ok_iff {flow : Flow} {fault? : Option Fault} :
    transferred flow fault? = .ok flow ↔ fault?.isNone = true := by
  cases fault? <;> simp [transferred]

/-- Bytes are written from the index on, and no further than there are values. -/
theorem read_writeEach_index (values : List UInt8) {address : Nat}
    (outside : ¬ (m.index.toNat ≤ address ∧ address < m.index.toNat + values.length)) :
    (m.memory.writeEach m.index.toNat values).1.read address = m.memory.read address :=
  Memory.read_writeEach_of_outside (by omega)

theorem keeps_storeDecimal (x : Register)
    (outside : ∀ address, part = .byte address →
      ¬ (m.index.toNat ≤ address ∧ address ≤ m.index.toNat + 2)) :
    m.Keeps (m.storeDecimal x).2 part := by
  rw [storeDecimal_eq]
  cases part with
  | byte address =>
    refine read_writeEach_index _ fun inside => outside address rfl ⟨inside.1, ?_⟩
    exact Nat.le_of_lt_succ inside.2
  | _ => rfl

theorem keeps_storeRegisters {x : Register}
    (outside : ∀ address, part = .byte address →
      ¬ (m.index.toNat ≤ address ∧ address ≤ m.index.toNat + x))
    (unmoved : part = .index → ¬ (m.profile.advanceIndex ∧ (m.storeRegisters x).1 = .ok .proceed)) :
    m.Keeps (m.storeRegisters x).2 part := by
  rw [storeRegisters_eq] at unmoved ⊢
  cases part with
  | byte address =>
    refine read_writeEach_index _ fun inside => outside address rfl ⟨inside.1, ?_⟩
    have length := List.length_take_le (x.val + 1) m.registers.toList
    omega
  | index =>
    refine if_neg fun moves => unmoved rfl ⟨moves.2, ?_⟩
    exact transferred_eq_ok_iff.mpr moves.1
  | _ => rfl

theorem keeps_loadRegisters {x : Register} (unfilled : ∀ k ≤ x, part ≠ .register k)
    (unmoved : part = .index → ¬ (m.profile.advanceIndex ∧ (m.loadRegisters x).1 = .ok .proceed)) :
    m.Keeps (m.loadRegisters x).2 part := by
  rw [loadRegisters_eq] at unmoved ⊢
  cases part with
  | register k =>
    have above : x < k := Fin.not_le.mp fun le => unfilled k le rfl
    exact (reloads_readEach m x).kept k (.inl above)
  | index =>
    refine if_neg fun moves => unmoved rfl ⟨moves.2, ?_⟩
    exact transferred_eq_ok_iff.mpr moves.1
  | _ => rfl

/-! ## Instructions -/

theorem touches_pc (m : Machine) (i : Instruction) : m.Touches i .pc := by
  cases i <;> trivial

/-- An instruction changes only the parts that it touches. -/
theorem keeps_execute (untouched : ¬ m.Touches i part) : m.Keeps (m.execute i).2 part := by
  have apart : part ≠ .pc := by
    rintro rfl
    exact untouched (touches_pc m i)
  have advanced : m.Keeps m.advance part := keeps_advance apart
  -- a part that the instruction touches is another one
  have other {touched : Part} (touches : m.Touches i touched) : part ≠ touched := by
    rintro rfl
    exact untouched touches
  cases i with
  | noOp => exact advanced
  | jump t | jumpOffset t =>
    cases part with
    | pc => exact absurd rfl apart
    | _ => rfl
  | skipEqual x v | skipUnequal x v | skipSame x y | skipDifferent x y =>
    exact advanced.trans (keeps_skipIf _ apart)
  | skipPressed x | skipReleased x => exact advanced.trans (keeps_skipOnKey x _ apart)
  | call t => exact advanced.trans (keeps_call t apart (other trivial))
  | ret => exact advanced.trans (keeps_ret apart (other trivial))
  | setByte x v | addByte x v | readDelay x =>
    exact advanced.trans (keeps_setRegister _ (other rfl))
  | arithmetic op x y =>
    exact advanced.trans
      (keeps_calculate y (other (.inl rfl)) fun flags => other (.inr ⟨rfl, flags⟩))
  | random x mask =>
    have filled := keeps_setRegister (m := m.advance) (m.random.next.1 &&& mask) (other rfl)
    cases part with
    | random => exact absurd trivial untouched
    | _ => exact advanced.trans filled
  | clearScreen =>
    refine advanced.trans ?_
    cases part with
    | screen => exact absurd trivial untouched
    | _ => rfl
  | setIndex t | addIndex x | pointGlyph x =>
    refine advanced.trans ?_
    cases part with
    | index => exact absurd trivial untouched
    | _ => rfl
  | setDelay x =>
    refine advanced.trans ?_
    cases part with
    | delay => exact absurd trivial untouched
    | _ => rfl
  | setSound x =>
    refine advanced.trans ?_
    cases part with
    | sound => exact absurd trivial untouched
    | _ => rfl
  | draw x y rows =>
    exact advanced.trans (keeps_drawSprite x y rows (other trivial) (other rfl))
  | awaitKey x =>
    have waitless : part ≠ .keyWait := other trivial
    have began : m.Keeps { m with keyWait := some x } part := by
      cases part with
      | keyWait => exact absurd rfl waitless
      | _ => rfl
    exact began.trans (keeps_pollKey apart waitless fun down => other ⟨rfl, down⟩)
  | storeDecimal x =>
    refine advanced.trans (keeps_storeDecimal x ?_)
    rintro address rfl
    exact untouched
  | storeRegisters x =>
    refine advanced.trans (keeps_storeRegisters ?_ ?_)
    · rintro address rfl
      exact untouched
    · rintro rfl
      exact untouched
  | loadRegisters x =>
    refine advanced.trans (keeps_loadRegisters (fun k le => other le) ?_)
    rintro rfl
    exact untouched

/-! ## Ticks and operations -/

theorem keeps_tick (apart : part ≠ .pc)
    (untouched : ∀ i, m.instruction? = some i → ¬ m.Touches i part) : m.Keeps m.tick.2 part := by
  cases code : m.instruction? with
  | some i =>
    rw [tick_of_instruction? code]
    exact keeps_execute (untouched i code)
  | none =>
    rcases tick_of_instruction?_eq_none code with same | passed
    · rw [same]
      exact .refl m part
    · rw [passed]
      exact keeps_advance apart

theorem not_touches_of_surrounds (around : part.surrounds) (i : Instruction) :
    ¬ m.Touches i part := by
  cases part with
  | keypad | profile | font | beeps => cases i <;> exact id
  | _ => cases around

theorem keeps_tick_of_surrounds (around : part.surrounds) : m.Keeps m.tick.2 part := by
  refine keeps_tick ?_ fun i _ => not_touches_of_surrounds around i
  rintro rfl
  cases around

/-- Only a random instruction takes a byte, and it takes one. -/
theorem random_tick (m : Machine) :
    m.tick.2.random = m.random ∧ (∀ x mask, m.instruction? ≠ some (.random x mask)) ∨
      m.tick.2.random = m.random.next.2 ∧ ∃ x mask, m.instruction? = some (.random x mask) := by
  rcases Classical.em (∃ x mask, m.instruction? = some (.random x mask)) with ⟨x, mask, code⟩ | none
  · refine .inr ⟨?_, x, mask, code⟩
    rw [tick_of_instruction? code]
    rfl
  · refine .inl ⟨?_, fun x mask code => none ⟨x, mask, code⟩⟩
    have kept : m.Keeps m.tick.2 .random := by
      refine keeps_tick (by simp) fun i code touches => ?_
      cases i with
      | random x mask => exact none ⟨x, mask, code⟩
      | _ => exact touches
    exact kept

theorem keeps_withFont {font : Font} {memory : Memory} {glyphs : List UInt8}
    (installed : memory = m.memory.withFont font)
    (unaltered : ¬ Operation.Alters (.loadFont glyphs) part) :
    m.Keeps { m with font, memory } part := by
  cases part with
  | font => exact absurd trivial unaltered
  | byte address =>
    have above : 80 ≤ address := Nat.le_of_not_lt unaltered
    show memory.read address = _
    rw [installed, Memory.read_withFont_of_le _ _ above]
  | _ => rfl

/-- An operation other than ticks and restarts changes only the parts that it alters. -/
theorem keeps_apply_of_quiet {op : Operation} (lasts : op.restarts = false)
    (quiet : op.makesTicks = false) (unaltered : ¬ op.Alters part) :
    m.Keeps (m.apply op).2 part := by
  cases op with
  | tick | run count => cases quiet
  | reset => cases lasts
  | load program =>
    have large : 3584 < program.length := by simpa [Operation.restarts] using lasts
    rw [apply, load_of_lt large]
    exact .refl m part
  | loadFont glyphs =>
    rw [apply, loadFont]
    cases Font.ofList? glyphs with
    | none => exact .refl m part
    | some font => exact keeps_withFont rfl unaltered
  | tickTimers =>
    cases part with
    | delay | sound | beeps => exact absurd trivial unaltered
    | _ => rfl
  | keyDown index | keyUp index =>
    rw [apply, pressKey]
    cases m.keypad.press index _ with
    | error fault => exact .refl m part
    | ok keypad =>
      cases part with
      | keypad => exact absurd trivial unaltered
      | _ => rfl
  | setKey key pressed | clearKeys =>
    cases part with
    | keypad => exact absurd trivial unaltered
    | _ => rfl

/-- A part stays the same along operations, none of which alters it, and ticks, none of which
carries out an instruction that touches it. -/
theorem keeps_applyAll {ops : List Operation} (lasts : ∀ op ∈ ops, op.restarts = false)
    (apart : part ≠ .pc) (unaltered : ∀ op ∈ ops, ¬ op.Alters part)
    (untouched : ∀ x ∈ m.tickedByAll ops, ∀ i, x.instruction? = some i → ¬ x.Touches i part) :
    m.Keeps (m.applyAll ops).2 part := by
  refine ((Path.of_operations m ops).keeps (P := fun n => m.Keeps n part) ?_ ?_ (.refl m part)).1
  · rintro n _ ⟨mem, quiet⟩ kept
    exact kept.trans (keeps_apply_of_quiet (lasts _ mem) quiet (unaltered _ mem))
  · intro x ticked kept
    exact kept.trans (keeps_tick apart (untouched x ticked))

theorem keeps_apply {op : Operation} (lasts : op.restarts = false) (apart : part ≠ .pc)
    (unaltered : ¬ op.Alters part)
    (untouched : ∀ x ∈ m.tickedBy op, ∀ i, x.instruction? = some i → ¬ x.Touches i part) :
    m.Keeps (m.apply op).2 part := by
  have ticks : m.tickedByAll [op] = m.tickedBy op := List.append_nil _
  have kept : m.Keeps (m.applyAll [op]).2 part := by
    refine keeps_applyAll (by simpa using lasts) apart (by simpa using unaltered) ?_
    rwa [ticks]
  exact kept

/-- A tick changes a part other than the program counter only if it carries out an instruction that
touches it, also if it faults, and takes a random byte only for a random instruction, and then one.
Operations other than ticks and restarts change only the parts that they alter. After any operations
without a restart a part that changed was altered by one of them or touched by the instruction of
one of their ticks. -/
theorem changes_attributed (m : Machine) :
    (∀ part, ¬ m.Keeps m.tick.2 part →
      part = .pc ∨ ∃ i, m.instruction? = some i ∧ m.Touches i part) ∧
    (m.tick.2.random = m.random ∨
      m.tick.2.random = { m.random with position := m.random.position + 1 } ∧
        ∃ x mask, m.instruction? = some (.random x mask)) ∧
    (∀ op : Operation, op.restarts = false → op.makesTicks = false →
      ∀ part, ¬ m.Keeps (m.apply op).2 part → op.Alters part) ∧
    ∀ ops : List Operation, (∀ op ∈ ops, op.restarts = false) →
      ∀ part, ¬ m.Keeps (m.applyAll ops).2 part →
        part = .pc ∨ (∃ op ∈ ops, op.Alters part) ∨
          ∃ x ∈ m.tickedByAll ops, ∃ i, x.instruction? = some i ∧ x.Touches i part := by
  refine ⟨?_, ?_, ?_, ?_⟩
  · intro part changed
    by_contra unnamed
    obtain ⟨apart, untouched⟩ := not_or.mp unnamed
    exact changed (keeps_tick apart fun i code touches => untouched ⟨i, code, touches⟩)
  · exact (random_tick m).imp And.left id
  · intro op lasts quiet part changed
    by_contra unaltered
    exact changed (keeps_apply_of_quiet lasts quiet unaltered)
  · intro ops lasts part changed
    by_contra unnamed
    obtain ⟨apart, rest⟩ := not_or.mp unnamed
    obtain ⟨unaltered, untouched⟩ := not_or.mp rest
    refine changed (keeps_applyAll lasts apart ?_ ?_)
    · exact fun op mem alters => unaltered ⟨op, mem, alters⟩
    · exact fun x ticked i code touches => untouched ⟨x, ticked, i, code, touches⟩

/-- A tick that sets register A. -/
theorem changes_attributed_set_register :
    let m : Machine := { Machine.new {} (.constant 0) with
      memory := Memory.zero.overlay 512 [0x6A, 0x01] }
    ¬ m.Keeps m.tick.2 (.register 0xA) ∧
      ∃ i, m.instruction? = some i ∧ m.Touches i (.register 0xA) := by
  intro m
  have word : m.fetch = .ok (Instruction.setByte 0xA 1).encode :=
    fetch_of_overlay rfl (by decide) rfl rfl
  have changed : ¬ m.Keeps m.tick.2 (.register 0xA) := by
    rw [tick_of_instruction? (instruction?_of_fetch rfl word)]
    intro same
    have one : (m.advance.setRegister 0xA 1).register 0xA = 1 :=
      (register_setRegister m.advance 0xA 0xA 1).trans (if_pos rfl)
    have zero : m.register 0xA = 0 := by simp [m, register, new, Core.initial]
    cases one.symm.trans (Eq.trans same zero)
  refine ⟨changed, ?_⟩
  rcases (changes_attributed m).1 _ changed with other | touched
  · cases other
  · exact touched

end Machine

end Chip8
