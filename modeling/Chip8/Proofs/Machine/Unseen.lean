import Chip8.Proofs.Machine.Effects
import Chip8.Proofs.Machine.Ticks

/-!
# State that ticks hardly see

One instruction reads the delay timer, one takes a random byte, and none reads the sound timer or
the count of beeps. A tick does the same after these were exchanged, as long as it finds the same
delay and the same byte where it looks for them.

Results:
1. `execute_exchange`: an instruction after an exchange.
2. `tick_related`: two machines side by side through a tick.
3. `alike_tick`: a tick after an exchange.
4. `tick_untimed`: ticks of machines that differ in their timers and beeps.
5. `apply_of_quiet`: operations that make no ticks do not look at the beeps and the random bytes.
-/

namespace Chip8

/-- The random bytes that were not taken yet. -/
def RandomStream.ahead (s : RandomStream) (k : Nat) : UInt8 := s.byteAt (s.position + k)

/-- Streams with the same bytes ahead give the same byte and have the same bytes ahead after it. -/
theorem RandomStream.next_congr {s t : RandomStream} (h : s.ahead = t.ahead) :
    s.next.1 = t.next.1 ∧ s.next.2.ahead = t.next.2.ahead := by
  refine ⟨congrFun h 0, funext fun k => ?_⟩
  have later := congrFun h (1 + k)
  simp only [ahead, ← Nat.add_assoc] at later
  exact later

namespace Machine

/-! ## Definitions -/

/-- The machine with other timers, another count of beeps and other random bytes. -/
def exchange (m : Machine) (delay sound : UInt8) (beeps : Nat) (random : RandomStream) : Machine :=
  { m with delay, sound, beeps, random }

/-- The machine but for its timers and its beeps. -/
def untimed (m : Machine) : Machine := m.exchange 0 0 0 m.random

/-- The next tick reads the delay timer. -/
def ReadsDelay (m : Machine) : Prop :=
  m.keyWait = none ∧ ∃ x, m.fetch = .ok (Instruction.readDelay x).encode

/-- The next tick takes a random byte under a mask. -/
def TakesByte (m : Machine) (mask : UInt8) : Prop :=
  m.keyWait = none ∧ ∃ x, m.fetch = .ok (Instruction.random x mask).encode

/-- The delay timer after an instruction. -/
def delayAfter (m : Machine) (delay : UInt8) : Instruction → UInt8
  | .setDelay x => m.register x
  | _ => delay

/-- The sound timer after an instruction. -/
def soundAfter (m : Machine) (sound : UInt8) : Instruction → UInt8
  | .setSound x => m.register x
  | _ => sound

/-- The random bytes after an instruction. -/
def randomAfter (random : RandomStream) : Instruction → RandomStream
  | .random _ _ => random.next.2
  | _ => random

/-- What an exchange leaves is the same in both machines. -/
def Resembles (m m' : Machine) : Prop := m' = m.exchange m'.delay m'.sound m'.beeps m'.random

/-- Steps of two machines that resemble each other do the same. A timer that was the same stays the
same, no beep is played, and both take a random byte or none. -/
structure Alike (m m' : Machine) (s s' : Step) : Prop where
  outcome : s'.1 = s.1
  state : s.2.Resembles s'.2
  delay : m'.delay = m.delay → s'.2.delay = s.2.delay
  sound : m'.sound = m.sound → s'.2.sound = s.2.sound
  beeps : s.2.beeps = m.beeps ∧ s'.2.beeps = m'.beeps
  random : s.2.random = m.random ∧ s'.2.random = m'.random ∨
    s.2.random = m.random.next.2 ∧ s'.2.random = m'.random.next.2

/-! ## Parts of a step -/

variable (m : Machine) (delay sound : UInt8) (beeps : Nat) (random : RandomStream)

/-- A step with an exchange after it. -/
def exchangeStep (s : Step) : Step := (s.1, s.2.exchange delay sound beeps random)

@[simp]
theorem exchange_profile : (m.exchange delay sound beeps random).profile = m.profile := rfl

@[simp]
theorem exchange_pc : (m.exchange delay sound beeps random).pc = m.pc := rfl

@[simp]
theorem exchange_stack : (m.exchange delay sound beeps random).stack = m.stack := rfl

@[simp]
theorem exchange_keypad : (m.exchange delay sound beeps random).keypad = m.keypad := rfl

@[simp]
theorem exchange_register (x : Register) :
    (m.exchange delay sound beeps random).register x = m.register x := rfl

theorem calculate_exchange (op : Arithmetic) (x y : Register) :
    (m.exchange delay sound beeps random).calculate op x y =
      (m.calculate op x y).exchange delay sound beeps random := by
  simp only [calculate, exchange_profile, exchange_register]
  cases op.flag? m.profile (m.register x) (m.register y) with
  | some flag => rfl
  | none => rfl

theorem pollKey_exchange (x : Register) :
    (m.exchange delay sound beeps random).pollKey x =
      exchangeStep delay sound beeps random (m.pollKey x) := by
  simp only [pollKey, exchange_keypad]
  cases m.keypad.lowest? with
  | some key => rfl
  | none => rfl

theorem skipOnKey_exchange (x : Register) (pressed : Bool) :
    (m.exchange delay sound beeps random).skipOnKey x pressed =
      exchangeStep delay sound beeps random (m.skipOnKey x pressed) := by
  simp only [skipOnKey, exchange_keypad, exchange_register]
  cases m.keypad.isPressed (m.register x) with
  | ok down =>
    simp only [skipIf_eq]
    rfl
  | error fault => rfl

theorem call_exchange (target : Fin 4096) :
    (m.exchange delay sound beeps random).call target =
      exchangeStep delay sound beeps random (m.call target) := by
  simp only [call, exchange_stack, exchange_pc]
  cases m.stack.push (UInt16.ofNat m.pc) with
  | ok stack => rfl
  | error fault => rfl

theorem ret_exchange :
    (m.exchange delay sound beeps random).ret = exchangeStep delay sound beeps random m.ret := by
  simp only [ret, exchange_stack]
  cases m.stack.pop with
  | ok popped => rfl
  | error fault => rfl

/-! ## Instructions -/

/-- An instruction does the same after an exchange, if it reads the same delay and takes the same
byte under its mask. -/
theorem execute_exchange {i : Instruction} (delays : ∀ x, i = .readDelay x → delay = m.delay)
    (bytes : ∀ x mask, i = .random x mask → random.next.1 &&& mask = m.random.next.1 &&& mask) :
    (m.exchange delay sound beeps random).execute i =
      exchangeStep (m.delayAfter delay i) (m.soundAfter sound i) beeps (randomAfter random i)
        (m.execute i) := by
  cases i with
  | noOp | clearScreen | jump t | setByte x v | addByte x v | setIndex t | jumpOffset t
  | setDelay x | setSound x | addIndex x | pointGlyph x => rfl
  | readDelay x =>
    rw [delays x rfl]
    rfl
  | random x mask =>
    have taken : (m.exchange delay sound beeps random).execute (.random x mask) = (.ok .proceed,
        { (m.exchange delay sound beeps random).advance.setRegister x (random.next.1 &&& mask) with
          random := random.next.2 }) := rfl
    rw [taken, bytes x mask rfl]
    rfl
  | skipEqual x v | skipUnequal x v | skipSame x y | skipDifferent x y =>
    simp only [execute, skipIf_eq]
    rfl
  | arithmetic op x y => exact congrArg (Prod.mk _) (calculate_exchange m.advance _ _ _ _ op x y)
  | call t => exact call_exchange m.advance _ _ _ _ t
  | ret => exact ret_exchange m.advance _ _ _ _
  | skipPressed x | skipReleased x => exact skipOnKey_exchange m.advance _ _ _ _ x _
  | awaitKey x => exact pollKey_exchange { m with keyWait := some x } _ _ _ _ x
  | draw x y rows =>
    simp only [execute, drawSprite_eq]
    rfl
  | storeDecimal x =>
    simp only [execute, storeDecimal_eq]
    rfl
  | storeRegisters x =>
    simp only [execute, storeRegisters_eq]
    rfl
  | loadRegisters x =>
    simp only [execute, loadRegisters_eq]
    rfl

/-- Where an exchange before a step comes to an exchange after it, the steps are alike. -/
theorem alike_exchangeStep {s : Step} {ownDelay ownSound delay' sound' : UInt8}
    {ownRandom random' : RandomStream}
    (own : s = exchangeStep ownDelay ownSound m.beeps ownRandom s)
    (delays : delay = m.delay → delay' = ownDelay) (sounds : sound = m.sound → sound' = ownSound)
    (streams : ownRandom = m.random ∧ random' = random ∨
      ownRandom = m.random.next.2 ∧ random' = random.next.2) :
    Alike m (m.exchange delay sound beeps random) s (exchangeStep delay' sound' beeps random' s) := by
  rw [own]
  exact ⟨rfl, rfl, delays, sounds, ⟨rfl, rfl⟩, streams⟩

theorem alike_pollKey (x : Register) :
    Alike m (m.exchange delay sound beeps random) (m.pollKey x)
      ((m.exchange delay sound beeps random).pollKey x) := by
  have own := pollKey_exchange m m.delay m.sound m.beeps m.random x
  rw [pollKey_exchange]
  exact alike_exchangeStep m delay sound beeps random own id id (.inl ⟨rfl, rfl⟩)

theorem alike_execute {i : Instruction} (delays : ∀ x, i = .readDelay x → delay = m.delay)
    (bytes : ∀ x mask, i = .random x mask → random.next.1 &&& mask = m.random.next.1 &&& mask) :
    Alike m (m.exchange delay sound beeps random) (m.execute i)
      ((m.exchange delay sound beeps random).execute i) := by
  have own := execute_exchange m m.delay m.sound m.beeps m.random (i := i) (fun _ _ => rfl)
    fun _ _ _ => rfl
  rw [execute_exchange m delay sound beeps random delays bytes]
  refine alike_exchangeStep m delay sound beeps random own ?_ ?_ ?_
  · rintro rfl
    rfl
  · rintro rfl
    rfl
  · cases i with
    | random x mask => exact .inr ⟨rfl, rfl⟩
    | _ => exact .inl ⟨rfl, rfl⟩

/-! ## Ticks -/

/-- A relation between the steps of two machines that wait alike and fetch alike holds of their
ticks, if it holds of whatever a tick can do. -/
theorem tick_related {R : Step → Step → Prop} {m m' : Machine} (waits : m'.keyWait = m.keyWait)
    (words : m'.fetch = m.fetch)
    (polled : ∀ x, m.keyWait = some x → R (m.pollKey x) (m'.pollKey x))
    (unfetched : ∀ fault, R (.error fault, m) (.error fault, m'))
    (unknown : ∀ fault, R (.error fault, m.advance) (.error fault, m'.advance))
    (executed : ∀ i : Instruction, m.keyWait = none → m.fetch = .ok i.encode →
      R (m.execute i) (m'.execute i)) :
    R m.tick m'.tick := by
  unfold tick
  rw [waits, words]
  cases running : m.keyWait with
  | some x => exact polled x running
  | none =>
    cases word : m.fetch with
    | error fault => exact unfetched fault
    | ok w =>
      simp only [executeWord]
      cases code : Instruction.decode? w with
      | none => exact unknown _
      | some i =>
        rw [← Instruction.encode_of_decode? code] at word
        exact executed i running word

variable {m m' : Machine}

/-- A tick does the same on a machine that resembles another, if it reads the same delay and takes
the same byte under its mask. -/
theorem alike_tick (same : m.Resembles m') (delays : m.ReadsDelay → m'.delay = m.delay)
    (bytes : ∀ mask, m.TakesByte mask →
      m'.random.next.1 &&& mask = m.random.next.1 &&& mask) : Alike m m' m.tick m'.tick := by
  obtain ⟨delay, sound, beeps, random, rfl⟩ : ∃ delay sound beeps random,
      m' = m.exchange delay sound beeps random := ⟨_, _, _, _, same⟩
  refine tick_related rfl rfl ?_ ?_ ?_ ?_
  · exact fun x _ => alike_pollKey m delay sound beeps random x
  · exact fun _ => ⟨rfl, rfl, id, id, ⟨rfl, rfl⟩, .inl ⟨rfl, rfl⟩⟩
  · exact fun _ => ⟨rfl, rfl, id, id, ⟨rfl, rfl⟩, .inl ⟨rfl, rfl⟩⟩
  · intro i running word
    refine alike_execute m delay sound beeps random ?_ ?_
    · rintro x rfl
      exact delays ⟨running, x, word⟩
    · rintro x mask rfl
      exact bytes mask ⟨running, x, word⟩

/-! ## All but the timers -/

theorem resembles_of_untimed (alike : m.untimed = m'.untimed) : m.Resembles m' := by
  have whole : m' = m'.untimed.exchange m'.delay m'.sound m'.beeps m'.random := rfl
  rw [← alike] at whole
  exact whole

/-- Two machines that differ in their timers and beeps differ in nothing else after a tick that
does not read the delay timer. -/
theorem tick_untimed (alike : m.untimed = m'.untimed) (blind : ¬ m.ReadsDelay) :
    m.tick.1 = m'.tick.1 ∧ m.tick.2.untimed = m'.tick.2.untimed := by
  have streams : m.untimed.random = m'.untimed.random := congrArg (·.random) alike
  have bytes : m.random = m'.random := streams
  have ticked := alike_tick (resembles_of_untimed alike) (fun reads => absurd reads blind)
    fun _ _ => by rw [bytes]
  refine ⟨ticked.outcome.symm, ?_⟩
  have together : m.tick.2.random = m'.tick.2.random := by
    rcases ticked.random with ⟨own, other⟩ | ⟨own, other⟩
    · rw [own, other, bytes]
    · rw [own, other, bytes]
  rw [ticked.state]
  unfold untimed
  rw [together]
  rfl

/-! ## Operations -/

/-- What an answer tells about the beeper, if it answers a count of the timers. -/
def sounding? : Except Fault Answer → Option Bool
  | .ok (.sounded sounded) => some sounded
  | _ => none

/-- How often an operation that makes no ticks plays the beeper. -/
def plays (m : Machine) (op : Operation) : Nat :=
  match sounding? (m.apply op).1 with
  | some true => 1
  | _ => 0

theorem loadFont_with (m : Machine) (beeps : Nat) (random : RandomStream) (glyphs : List UInt8) :
    ({ m with beeps, random } : Machine).loadFont glyphs =
      ((m.loadFont glyphs).1, { (m.loadFont glyphs).2 with beeps, random }) := by
  unfold loadFont
  cases Font.ofList? glyphs with
  | some font => rfl
  | none => rfl

/-- An operation that makes no ticks looks neither at the beeps nor at the random bytes. -/
theorem apply_of_quiet (m : Machine) (beeps : Nat) (random : RandomStream) {op : Operation}
    (quiet : op.makesTicks = false) :
    ({ m with beeps, random } : Machine).apply op =
      ((m.apply op).1, { (m.apply op).2 with beeps := beeps + m.plays op, random }) := by
  cases op with
  | tick | run count => cases quiet
  | load program =>
    rcases Nat.lt_or_ge 3584 program.length with large | small
    · simp only [plays, apply, load_of_lt large]
      rfl
    · simp only [plays, apply, load_of_le small]
      rfl
  | loadFont glyphs =>
    simp only [plays, apply, loadFont_with m beeps random]
    cases (m.loadFont glyphs).1 with
    | ok _ => rfl
    | error fault => rfl
  | tickTimers =>
    rcases Classical.em (m.sound = 1) with last | other
    · simp only [plays, apply, tickTimers, last]
      rfl
    · simp only [plays, apply, tickTimers, other]
      rfl
  | keyDown index | keyUp index =>
    simp only [plays, apply, pressKey]
    cases m.keypad.press index _ with
    | ok keypad => rfl
    | error fault => rfl
  | reset | setKey key pressed | clearKeys => rfl

theorem beeps_apply_of_quiet (m : Machine) {op : Operation} (quiet : op.makesTicks = false) :
    (m.apply op).2.beeps = m.beeps + m.plays op :=
  congrArg (fun s => s.2.beeps) (apply_of_quiet m m.beeps m.random quiet)

theorem random_apply_of_quiet (m : Machine) {op : Operation} (quiet : op.makesTicks = false) :
    (m.apply op).2.random = m.random :=
  congrArg (fun s => s.2.random) (apply_of_quiet m m.beeps m.random quiet)

theorem random_applyAll_of_quiet (m : Machine) {ops : List Operation}
    (quiet : ∀ op ∈ ops, op.makesTicks = false) : (m.applyAll ops).2.random = m.random := by
  induction ops generalizing m with
  | nil => rfl
  | cons op ops ih =>
    rw [applyAll_cons, ih _ fun op' mem => quiet op' (List.mem_cons_of_mem _ mem)]
    exact random_apply_of_quiet m (quiet op List.mem_cons_self)

end Machine

end Chip8
