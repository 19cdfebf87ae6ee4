import Chip8.Proofs.Machine.Effects
import Chip8.Proofs.Machine.Ticks

/-!
# The wait for a key

The machine remembers a wait for a key and then does not fetch. A rewinding machine remembers
nothing: it stays on the waiting instruction and decodes it again at each tick. Nobody can tell
the two apart, as long as no font is loaded while the machine waits: the word it waits on could
lie where the glyphs go.

Results:
1. `Awaiting.apply`: while the machine waits, the word at the program counter is the wait.
2. `tick_forget`, `apply_forget`: each operation has the same outcome on both machines.
3. `applyAll_refines_rewinding`: so have all operations on a new machine.
4. `idle_of_tick`, `Idle.tick`: a machine that begins to wait stays as it is.
-/

namespace Chip8

/-! ## The rewinding machine -/

/-- The state of a machine but for the pending wait. -/
structure Rewinding where
  pc : Nat
  registers : Vector UInt8 16
  index : UInt16
  delay : UInt8
  sound : UInt8
  memory : Memory
  stack : CallStack
  screen : Screen
  keypad : Keypad
  profile : Profile
  font : Font
  random : RandomStream
  beeps : Nat

/-- What can be seen of a machine. -/
def Machine.forget (m : Machine) : Rewinding := { m with }

/-- What can be seen of an outcome and the machine after it. -/
def Machine.seen {α : Type} (s : α × Machine) : α × Rewinding := (s.1, s.2.forget)

namespace Rewinding

/-- The machine in this state that does not wait. -/
def toMachine (r : Rewinding) : Machine := { r with keyWait := none }

/-- A new machine with the built-in glyphs. -/
def new (profile : Profile) (random : RandomStream) : Rewinding :=
  (Machine.new profile random).forget

/-- A wait ends if a key is down: its number goes to the register and execution goes on after the
waiting instruction. Else nothing changes. -/
def awaitKey (r : Rewinding) (x : Register) : Except Fault Flow × Rewinding :=
  match r.keypad.lowest? with
  | some key =>
    (.ok .proceed,
      { r with registers := (r.toMachine.setRegister x key.toByte).registers, pc := r.pc + 2 })
  | none => (.ok .keyWait, r)

/-- All but the wait is executed as by `Machine`. -/
def execute (r : Rewinding) : Instruction → Except Fault Flow × Rewinding
  | .awaitKey x => r.awaitKey x
  | i => Machine.seen (r.toMachine.execute i)

def executeWord (r : Rewinding) (w : Word) : Except Fault Flow × Rewinding :=
  match Instruction.decode? w with
  | some i => r.execute i
  | none => (.error (.unknownOpcode w), { r with pc := r.pc + 2 })

/-- One tick, which always fetches. -/
def tick (r : Rewinding) : Except Fault Flow × Rewinding :=
  match r.memory.readWord r.pc with
  | .ok w => r.executeWord w
  | .error fault => (.error fault, r)

/-- Up to `count` ticks after one with the hint `last`, stopping at the first fault. -/
def run (r : Rewinding) (last : Flow) : (count : Nat) → Except Fault Flow × Rewinding
  | 0 => (.ok last, r)
  | count + 1 =>
    match r.tick with
    | (.ok flow, r) => r.run flow count
    | (.error fault, r) => (.error fault, r)

/-- Ticks and runs are its own, all other requests are answered as by `Machine`. -/
def apply (r : Rewinding) : Operation → Except Fault Answer × Rewinding
  | .tick => let (outcome, r) := r.tick; (outcome.map .flow, r)
  | .run count => let (outcome, r) := r.run .proceed count; (outcome.map .flow, r)
  | op => Machine.seen (r.toMachine.apply op)

/-- Performs requests in order: the answers and the last state. -/
def applyAll (r : Rewinding) : List Operation → List (Except Fault Answer) × Rewinding
  | [] => ([], r)
  | op :: ops =>
    let (answer, r) := r.apply op
    let (answers, r) := r.applyAll ops
    (answer :: answers, r)

end Rewinding

namespace Machine

/-- A font is loaded only while the machine does not wait. -/
def Permits (m : Machine) : Operation → Prop
  | .loadFont _ => m.isWaiting = false
  | _ => True

/-- Each of the operations is permitted when it is performed. -/
def PermitsAll (m : Machine) : List Operation → Prop
  | [] => True
  | op :: ops => m.Permits op ∧ (m.apply op).2.PermitsAll ops

/-! ## The word of a pending wait -/

/-- While the machine waits, the word at the program counter is the wait. -/
def Awaiting (m : Machine) : Prop :=
  ∀ x, m.keyWait = some x → m.fetch = .ok (Instruction.awaitKey x).encode

theorem awaiting_of_running {m : Machine} (running : m.keyWait = none) : m.Awaiting := by
  intro x waits
  rw [running] at waits
  cases waits

theorem awaiting_of_control {m : Machine} {i : Instruction} {s : Step} (h : m.Control i s)
    (running : m.keyWait = none) (word : m.fetch = .ok i.encode) : s.2.Awaiting := by
  cases h with
  | next _ _ _ _ wait => exact awaiting_of_running (wait.trans running)
  | skip _ _ wait => exact awaiting_of_running (wait.trans running)
  | jump _ _ wait => exact awaiting_of_running (wait.trans running)
  | call _ _ _ wait => exact awaiting_of_running (wait.trans running)
  | ret _ _ _ wait => exact awaiting_of_running (wait.trans running)
  | wait _ =>
    intro x waits
    cases waits
    exact word
  | resolve _ => exact awaiting_of_running rfl

theorem awaiting_of_tickCase {m : Machine} {s : Step} (h : m.TickCase s) (hm : m.Awaiting) :
    s.2.Awaiting := by
  cases h with
  | stalled _ =>
    -- nothing was written since the wait began, unless a key has ended it
    unfold pollKey
    split
    · exact awaiting_of_running rfl
    · exact hm
  | unfetched _ _ => exact hm
  | unknown running _ _ _ => exact awaiting_of_running running
  | executed running word _ code =>
    rw [← Instruction.encode_of_decode? code] at word
    exact awaiting_of_control (execute_control m _) running word

theorem Awaiting.tick {m : Machine} (hm : m.Awaiting) : m.tick.2.Awaiting :=
  awaiting_of_tickCase (tick_cases m) hm

/-! ## Ticks -/

theorem toMachine_forget {m : Machine} (running : m.keyWait = none) : m.forget.toMachine = m := by
  obtain ⟨core, profile, font, random, beeps⟩ := m
  obtain ⟨pc, registers, index, delay, sound, keyWait, memory, stack, screen, keypad⟩ := core
  obtain rfl : keyWait = none := running
  rfl

/-- A wait looks the same on both machines, whatever is pending. -/
theorem awaitKey_forget (m : Machine) (x : Register) (keyWait : Option Register) :
    m.forget.awaitKey x = seen (pollKey { m with keyWait } x) := by
  unfold Rewinding.awaitKey pollKey
  show (match m.keypad.lowest? with | some _ => _ | none => _) = _
  cases m.keypad.lowest? with
  | some key => rfl
  | none => rfl

theorem execute_forget {m : Machine} (running : m.keyWait = none) (i : Instruction) :
    m.forget.execute i = seen (m.execute i) := by
  cases i with
  | awaitKey x => exact awaitKey_forget m x (some x)
  | _ => simp only [Rewinding.execute, toMachine_forget running]

theorem rewinding_tick_of_fetch {m : Machine} {i : Instruction} (word : m.fetch = .ok i.encode) :
    m.forget.tick = m.forget.execute i := by
  unfold Rewinding.tick
  rw [show m.forget.memory.readWord m.forget.pc = .ok i.encode from word]
  simp only [Rewinding.executeWord, Instruction.decode?_encode]

theorem tickCase_forget {m : Machine} {s : Step} (h : m.TickCase s) (hm : m.Awaiting) :
    m.forget.tick = seen s := by
  cases h with
  | @stalled x waits =>
    rw [rewinding_tick_of_fetch (hm x waits)]
    exact awaitKey_forget m x m.keyWait
  | unfetched _ past =>
    have missing : m.forget.memory.readWord m.forget.pc = .error (.outOfBounds (max m.pc 4096)) :=
      fetch_eq_error_iff.mpr ⟨past, rfl⟩
    simp only [Rewinding.tick, missing]
    rfl
  | @unknown w _ word _ noCode =>
    have word : m.forget.memory.readWord m.forget.pc = .ok w := word
    simp only [Rewinding.tick, word, Rewinding.executeWord, noCode]
    rfl
  | executed running word _ code =>
    rw [← Instruction.encode_of_decode? code] at word
    rw [rewinding_tick_of_fetch word, execute_forget running]

theorem tick_forget {m : Machine} (hm : m.Awaiting) : m.forget.tick = seen m.tick :=
  tickCase_forget (tick_cases m) hm

theorem run_forget {m : Machine} (hm : m.Awaiting) (last : Flow) (count : Nat) :
    m.forget.run last count = seen (run.go count last m) ∧ (run.go count last m).2.Awaiting := by
  induction count generalizing m last with
  | zero => exact ⟨rfl, hm⟩
  | succ count ih =>
    have next := hm.tick
    unfold Rewinding.run run.go
    rw [tick_forget hm]
    rcases ticked : m.tick with ⟨outcome, m'⟩
    rw [ticked] at next
    cases outcome with
    | ok flow => exact ih next flow
    | error fault => exact ⟨rfl, next⟩

/-! ## Idle machines -/

/-- The machine waits for a key and none is down. -/
def Idle (m : Machine) : Prop := m.isWaiting = true ∧ m.keypad.lowest? = none

/-- Only the timers, the keypad or a restart move an idle machine. -/
theorem Idle.tick {m : Machine} (h : m.Idle) : m.tick = (.ok .keyWait, m) := by
  obtain ⟨waits, up⟩ := h
  obtain ⟨x, waits⟩ := Option.isSome_iff_exists.mp waits
  simp only [Machine.tick, waits, pollKey, up]

theorem idle_of_pollKey {m : Machine} {x : Register} (waits : m.keyWait = some x)
    (h : (m.pollKey x).1 = .ok .keyWait) : m.keypad.lowest? = none ∧ (m.pollKey x).2.Idle := by
  unfold pollKey at h ⊢
  split at h
  · cases h
  · next up => exact ⟨up, Option.isSome_of_eq_some waits, up⟩

theorem idle_of_control {m : Machine} {i : Instruction} {s : Step} (h : m.Control i s)
    (hint : s.1 = .ok .keyWait) : m.keypad.lowest? = none ∧ s.2.Idle := by
  cases h with
  | next _ other _ _ _ => exact absurd hint other
  | wait up => exact ⟨up, rfl, up⟩
  | skip | jump | call | ret | resolve => cases hint

theorem idle_of_tickCase {m : Machine} {s : Step} (h : m.TickCase s)
    (hint : s.1 = .ok .keyWait) : m.keypad.lowest? = none ∧ s.2.Idle := by
  cases h with
  | stalled waits => exact idle_of_pollKey waits hint
  | executed _ _ _ _ => exact idle_of_control (execute_control m _) hint
  | unfetched | unknown => cases hint

/-- A tick that hints at a wait found no key down and leaves an idle machine. -/
theorem idle_of_tick {m : Machine} (hint : m.tick.1 = .ok .keyWait) :
    m.keypad.lowest? = none ∧ m.tick.2.Idle :=
  idle_of_tickCase (tick_cases m) hint

/-! ## Operations -/

theorem running_of_permits {m : Machine} {glyphs : List UInt8}
    (h : m.Permits (.loadFont glyphs)) : m.keyWait = none :=
  Option.isSome_eq_false_iff.mp h |> Option.isNone_iff_eq_none.mp

theorem awaiting_of_applyCase {m m' : Machine} {op : Operation} (change : m.ApplyCase op m')
    (hm : m.Awaiting) (h : m.Permits op) : m'.Awaiting := by
  cases change with
  | refused _ => exact hm
  | tick => exact hm.tick
  | run => exact (run_forget hm .proceed _).2
  | tickTimers => exact hm
  | keys _ => exact hm
  | font _ =>
    -- the glyphs may overwrite the word, but nothing waits on it
    have running : m.keyWait = none := running_of_permits h
    exact awaiting_of_running running
  | restart _ => exact awaiting_of_running rfl

theorem Awaiting.apply {m : Machine} (hm : m.Awaiting) {op : Operation} (h : m.Permits op) :
    (m.apply op).2.Awaiting :=
  awaiting_of_applyCase (apply_cases m op) hm h

theorem apply_forget {m : Machine} (hm : m.Awaiting) {op : Operation} (h : m.Permits op) :
    m.forget.apply op = seen (m.apply op) := by
  cases op with
  | load program =>
    rcases Nat.lt_or_ge 3584 program.length with large | small
    · simp only [Rewinding.apply, Machine.apply, load_of_lt large]
      rfl
    · simp only [Rewinding.apply, Machine.apply, load_of_le small]
      rfl
  | loadFont glyphs =>
    show seen (m.forget.toMachine.apply (.loadFont glyphs)) = _
    rw [toMachine_forget (running_of_permits h)]
  | reset => rfl
  | tick => simp only [Rewinding.apply, tick_forget hm]; rfl
  | run count => simp only [Rewinding.apply, (run_forget hm .proceed count).1]; rfl
  | tickTimers => rfl
  | keyDown index | keyUp index =>
    have keys : m.forget.toMachine.keypad = m.keypad := rfl
    simp only [Rewinding.apply, Machine.apply, pressKey, keys]
    cases m.keypad.press index _ with
    | ok keypad => rfl
    | error fault => rfl
  | setKey key pressed => rfl
  | clearKeys => rfl

/-! ## Sequences of operations -/

theorem PermitsAll.take {m : Machine} {ops : List Operation} (h : m.PermitsAll ops) (k : Nat) :
    m.PermitsAll (ops.take k) := by
  induction ops generalizing m k with
  | nil => rwa [List.take_nil]
  | cons op ops ih =>
    cases k with
    | zero => trivial
    | succ k => exact ⟨h.1, ih h.2 k⟩

theorem applyAll_forget {m : Machine} (hm : m.Awaiting) {ops : List Operation}
    (h : m.PermitsAll ops) : m.forget.applyAll ops = seen (m.applyAll ops) := by
  induction ops generalizing m with
  | nil => rfl
  | cons op ops ih =>
    obtain ⟨permitted, rest⟩ := h
    simp only [Rewinding.applyAll, Machine.applyAll, apply_forget hm permitted, seen]
    rw [ih (hm.apply permitted) rest]
    rfl

/-- After each of a sequence of operations on new machines, in which no font is loaded during a
wait, both machines have given the same answers and are in the same state. -/
theorem applyAll_refines_rewinding (profile : Profile) (random : RandomStream)
    {ops : List Operation} (h : (Machine.new profile random).PermitsAll ops) (k : Nat) :
    let m := (Machine.new profile random).applyAll (ops.take k)
    let r := (Rewinding.new profile random).applyAll (ops.take k)
    r.1 = m.1 ∧ r.2 = m.2.forget := by
  intro m r
  have fresh : (Machine.new profile random).Awaiting := awaiting_of_running rfl
  have same : r = seen m := applyAll_forget fresh (h.take k)
  exact ⟨congrArg Prod.fst same, congrArg Prod.snd same⟩

/-- A key that is pressed ends a wait that began with no key down, and the register receives it. -/
theorem register_of_pressed {m : Machine} {x : Register} {index : UInt8} {key : Key}
    (running : m.keyWait = none) (word : m.fetch = .ok (Instruction.awaitKey x).encode)
    (up : m.keypad = .released) (valid : Key.ofIndex index = .ok key) :
    (m.applyAll [.tick, .keyDown index, .tick]).2.register x = key.toByte := by
  have first : m.tick = (.ok .keyWait, { m with keyWait := some x }) := by
    have nothing : m.keypad.lowest? = none := by
      rw [up]
      decide
    rw [tick_of_fetch running word (Instruction.decode?_encode _)]
    simp only [execute, pollKey, nothing]
  have pressed : Keypad.released.press index true = .ok (Keypad.released.set key true) := by
    rw [Keypad.press, valid]
    rfl
  have lowest : ∀ key, (Keypad.released.set key true).lowest? = some key := by decide
  show (m.tick.2.pressKey index true).2.tick.2.register x = key.toByte
  rw [first]
  simp only [tick, pressKey, pressed, pollKey, up, lowest]
  exact (register_setRegister _ x x key.toByte).trans (if_pos rfl)

/-- A program that waits at once is still there after a font was loaded. -/
theorem fetch_after_font (m : Machine) {glyphs : List UInt8} (length : glyphs.length = 80) :
    let n := (m.applyAll [.load [0xFA, 0x0A], .loadFont glyphs]).2
    n.keyWait = none ∧ n.keypad = .released ∧ n.fetch = .ok (Instruction.awaitKey 10).encode := by
  intro n
  have fits : ([0xFA, 0x0A] : List UInt8).length ≤ 3584 := by decide
  have accepted : Font.ofList? glyphs = some ⟨glyphs.toArray, length⟩ := dif_pos length
  simp only [n, applyAll, apply, load_of_le fits, loadFont, accepted]
  refine ⟨rfl, rfl, @fetch_of_read _ 0xFA 0x0A ?_ ?_⟩
  · have above : 80 ≤ 512 := by decide
    exact (Memory.read_withFont_of_le _ _ above).trans
      (Memory.read_overlay_of_lt (k := 0) (by decide) (by decide))
  · have above : 80 ≤ 513 := by decide
    exact (Memory.read_withFont_of_le _ _ above).trans
      (Memory.read_overlay_of_lt (k := 1) (by decide) (by decide))

/-- A font before the wait, a tick that waits and one that finds the key. -/
def keyAfterFont (glyphs : List UInt8) : List Operation :=
  [.load [0xFA, 0x0A], .loadFont glyphs, .tick, .keyDown 3, .tick]

theorem register_keyAfterFont (m : Machine) {glyphs : List UInt8} (length : glyphs.length = 80) :
    (m.applyAll ((keyAfterFont glyphs).take 5)).2.register 10 = 3 := by
  obtain ⟨running, up, word⟩ := fetch_after_font m length
  have received := @register_of_pressed _ 10 3 3 running word up rfl
  rw [show (keyAfterFont glyphs).take 5 =
    [.load [0xFA, 0x0A], .loadFont glyphs] ++ [.tick, .keyDown 3, .tick] from rfl, applyAll_append]
  exact received

/-- The register holds the key that was pressed. -/
theorem applyAll_refines_rewinding_one_key :
    let ops := keyAfterFont (List.replicate 80 0xF0)
    let m := (Machine.new {} (.constant 0)).applyAll (ops.take 5)
    let r := (Rewinding.new {} (.constant 0)).applyAll (ops.take 5)
    (Machine.new {} (.constant 0)).PermitsAll ops ∧ (r.1 = m.1 ∧ r.2 = m.2.forget) ∧
      m.2.register 10 = 3 := by
  have idle : ((Machine.new {} (.constant 0)).apply (.load [0xFA, 0x0A])).2.isWaiting = false := rfl
  have permits :
      (Machine.new {} (.constant 0)).PermitsAll (keyAfterFont (List.replicate 80 0xF0)) :=
    ⟨trivial, idle, trivial, trivial, trivial, trivial⟩
  exact ⟨permits, applyAll_refines_rewinding {} (.constant 0) permits 5,
    register_keyAfterFont _ List.length_replicate⟩

end Machine

end Chip8
