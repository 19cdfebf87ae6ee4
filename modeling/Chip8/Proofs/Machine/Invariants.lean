import Chip8.Machine.Operation

/-!
# Invariants of machines

A property that survives a tick, a count of the timers, a change of the keypad, a new font and a
restart survives every sequence of operations, whatever they are asked with and whether they are
refused or not.

Results:
1. `apply_cases`: what an operation can do to the state.
2. `Lasting.run`, `Lasting.apply`, `Lasting.applyAll`: operations that do not restart the machine.
3. `Invariant.apply`, `Invariant.applyAll`: all operations.
-/

namespace Chip8

/-- Whether an operation starts the machine anew: a reset, or a load that is not refused. -/
def Operation.restarts : Operation → Bool
  | .reset => true
  | .load program => program.length ≤ 3584
  | _ => false

namespace Machine

/-- A property that everything but a restart keeps. -/
structure Lasting (P : Machine → Prop) : Prop where
  tick {m : Machine} : P m → P m.tick.2
  tickTimers {m : Machine} : P m → P m.tickTimers.2
  keys {m : Machine} (keypad : Keypad) : P m → P { m with keypad }
  font {m : Machine} (font : Font) (memory : Memory) :
    memory = m.memory.withFont font → P m → P { m with font, memory }

/-- A property that everything keeps. A restart leaves a reset machine with some memory. -/
structure Invariant (P : Machine → Prop) : Prop extends Lasting P where
  restart {m : Machine} (memory : Memory) : P m → P { m.reset with memory }

/-! ## Loading -/

theorem load_of_le {m : Machine} {program : List UInt8} (h : program.length ≤ 3584) :
    m.load program =
      (.ok (), { m.reset with memory := m.reset.memory.overlay 0x200 program }) := by
  have fits : 512 + program.length ≤ 4096 := by omega
  simp [load, Nat.not_lt.mpr h, Memory.copy, fits]

theorem load_of_lt {m : Machine} {program : List UInt8} (h : 3584 < program.length) :
    m.load program = (.error (.largeProgram program.length), m) := by
  simp [load, h]

/-- Data of the length of a font are installed as they are. -/
theorem loadFont_of_eq (m : Machine) {glyphs : List UInt8} (h : glyphs.length = 80) :
    ∃ font : Font, font.toList = glyphs ∧
      m.loadFont glyphs = (.ok (), { m with font, memory := m.memory.withFont font }) := by
  obtain ⟨font, rfl⟩ : ∃ font : Font, font.toList = glyphs := ⟨⟨glyphs.toArray, h⟩, rfl⟩
  have accepted : Font.ofList? font.toList = some font := Font.ofList?_eq_some_iff.mpr rfl
  refine ⟨font, rfl, ?_⟩
  simp only [loadFont, accepted]

theorem loadFont_of_ne {m : Machine} {glyphs : List UInt8} (h : glyphs.length ≠ 80) :
    m.loadFont glyphs = (.error (.font glyphs.length), m) := by
  simp only [loadFont, Font.ofList?, dif_neg h]

/-! ## Refusals -/

theorem load_snd_of_error {m : Machine} {program : List UInt8} {fault : Fault}
    (h : (m.load program).1 = .error fault) : (m.load program).2 = m := by
  rcases Nat.lt_or_ge 3584 program.length with large | small
  · rw [load_of_lt large]
  · rw [load_of_le small] at h
    cases h

theorem loadFont_snd_of_error {m : Machine} {glyphs : List UInt8} {fault : Fault}
    (h : (m.loadFont glyphs).1 = .error fault) : (m.loadFont glyphs).2 = m := by
  unfold loadFont at h ⊢
  split at h
  · cases h
  · rfl

theorem pressKey_snd_of_error {m : Machine} {index : UInt8} {pressed : Bool} {fault : Fault}
    (h : (m.pressKey index pressed).1 = .error fault) : (m.pressKey index pressed).2 = m := by
  unfold pressKey at h ⊢
  split at h
  · cases h
  · rfl

/-! ## Operations -/

/-- What an operation can do to the state.

* `refused`: nothing, as its data is refused.
* `tick`, `run`, `tickTimers`: what these do.
* `keys`, `font`: it changes the keypad, or the glyphs and with them the memory.
* `restart`: it resets the machine and may load a program. -/
inductive ApplyCase (m : Machine) : Operation → Machine → Prop
  | refused {op : Operation} : op.restarts = false → ApplyCase m op m
  | tick : ApplyCase m .tick m.tick.2
  | run {count : Nat} : ApplyCase m (.run count) (m.run count).2
  | tickTimers : ApplyCase m .tickTimers m.tickTimers.2
  | keys {op : Operation} {keypad : Keypad} :
      op.restarts = false → ApplyCase m op { m with keypad }
  | font {glyphs : List UInt8} {font : Font} {memory : Memory} :
      memory = m.memory.withFont font → ApplyCase m (.loadFont glyphs) { m with font, memory }
  | restart {op : Operation} {memory : Memory} :
      op.restarts = true → ApplyCase m op { m.reset with memory }

theorem apply_cases (m : Machine) (op : Operation) : m.ApplyCase op (m.apply op).2 := by
  cases op with
  | load program =>
    rcases Nat.lt_or_ge 3584 program.length with large | small
    · have refused : (Operation.load program).restarts = false := by
        simpa [Operation.restarts] using large
      rw [apply, load_of_lt large]
      exact .refused refused
    · have restarts : (Operation.load program).restarts = true := by
        simpa [Operation.restarts] using small
      rw [apply, load_of_le small]
      exact .restart restarts
  | loadFont glyphs =>
    rw [apply, loadFont]
    cases Font.ofList? glyphs with
    | some font => exact .font rfl
    | none => exact .refused rfl
  | reset => exact .restart rfl
  | tick => exact .tick
  | run count => exact .run
  | tickTimers => exact .tickTimers
  | keyDown index | keyUp index =>
    rw [apply, pressKey]
    cases m.keypad.press index _ with
    | ok keypad => exact .keys rfl
    | error fault => exact .refused rfl
  | setKey key pressed => exact .keys rfl
  | clearKeys => exact .keys rfl

/-! ## Properties that last -/

variable {P : Machine → Prop}

theorem Lasting.go (h : Lasting P) (count : Nat) (last : Flow) {m : Machine} (hm : P m) :
    P (run.go count last m).2 := by
  induction count generalizing last m with
  | zero => exact hm
  | succ count ih =>
    have next := h.tick hm
    unfold run.go
    split
    · next flow m' ticked =>
      rw [ticked] at next
      exact ih flow next
    · next fault m' ticked =>
      rw [ticked] at next
      exact next

theorem Lasting.run (h : Lasting P) (count : Nat) {m : Machine} (hm : P m) :
    P (m.run count).2 :=
  h.go count .proceed hm

theorem Lasting.of_applyCase (h : Lasting P) {op : Operation} {m m' : Machine}
    (change : m.ApplyCase op m') (lasts : op.restarts = false) (hm : P m) : P m' := by
  cases change with
  | refused _ => exact hm
  | tick => exact h.tick hm
  | run => exact h.run _ hm
  | tickTimers => exact h.tickTimers hm
  | keys _ => exact h.keys _ hm
  | font installed => exact h.font _ _ installed hm
  | restart restarts =>
    rw [lasts] at restarts
    cases restarts

theorem Lasting.apply (h : Lasting P) {op : Operation} (lasts : op.restarts = false) {m : Machine}
    (hm : P m) : P (m.apply op).2 :=
  h.of_applyCase (apply_cases m op) lasts hm

theorem Lasting.applyAll (h : Lasting P) {ops : List Operation}
    (lasts : ∀ op ∈ ops, op.restarts = false) {m : Machine} (hm : P m) :
    P (m.applyAll ops).2 := by
  induction ops generalizing m with
  | nil => exact hm
  | cons op ops ih =>
    exact ih (fun op' h' => lasts op' (List.mem_cons_of_mem _ h'))
      (h.apply (lasts op List.mem_cons_self) hm)

/-! ## Invariants -/

theorem Invariant.of_applyCase (h : Invariant P) {op : Operation} {m m' : Machine}
    (change : m.ApplyCase op m') (hm : P m) : P m' := by
  cases change with
  | restart _ => exact h.restart _ hm
  | refused _ => exact hm
  | keys _ => exact h.keys _ hm
  | tick => exact h.tick hm
  | run => exact h.toLasting.run _ hm
  | tickTimers => exact h.tickTimers hm
  | font installed => exact h.font _ _ installed hm

theorem Invariant.apply (h : Invariant P) (op : Operation) {m : Machine} (hm : P m) :
    P (m.apply op).2 :=
  h.of_applyCase (apply_cases m op) hm

theorem Invariant.applyAll (h : Invariant P) (ops : List Operation) {m : Machine} (hm : P m) :
    P (m.applyAll ops).2 := by
  induction ops generalizing m with
  | nil => exact hm
  | cons op ops ih => exact ih (h.apply op hm)

end Machine

end Chip8
