import Chip8.Proofs.Machine.Footprint
import Chip8.Proofs.Machine.Lockstep
import Chip8.Proofs.Machine.Unseen

/-!
# Random bytes in order

The random bytes go to the random instructions one by one, in the order in which these are executed:
none is skipped, and nothing else takes one, not a fault, a wait for a key or a restart. So a run
sees of its source what the masks of these instructions let through, and nothing else.

Results:
1. `Path.samples`: the bytes that the random instructions of a path take.
2. `Diverted.lockstep`: machines with different sources side by side.
3. `random_bytes_in_order`: a whole run, and the same run with another source.
-/

namespace Chip8

namespace RandomStream

/-- The stream after `count` more bytes were taken. -/
def drop (s : RandomStream) (count : Nat) : RandomStream :=
  { s with position := s.position + count }

theorem drop_drop (s : RandomStream) (first second : Nat) :
    (s.drop first).drop second = s.drop (first + second) :=
  congrArg (RandomStream.mk s.byteAt) (Nat.add_assoc _ _ _)

theorem drop_injective (s : RandomStream) : Function.Injective s.drop := fun _ _ same =>
  Nat.add_left_cancel (congrArg RandomStream.position same)

end RandomStream

namespace Machine

/-! ## Definitions -/

/-- The register that the next tick fills with a random byte, and the mask of the byte. -/
def sample? (m : Machine) : Option (Register × UInt8) :=
  match m.instruction? with
  | some (.random x mask) => some (x, mask)
  | _ => none

/-- Whether the next tick executes a random instruction. -/
def takesByte (m : Machine) : Bool := m.sample?.isSome

/-- The machines on which the ticks of operations execute a random instruction, in order. -/
def samples (m : Machine) (ops : List Operation) : List Machine :=
  (m.tickedByAll ops).filter takesByte

/-- The machine but for its source of random bytes. -/
def sourceless (m : Machine) : Machine := { m with random := .constant 0 }

/-- Two machines differ in their sources alone, and took as many bytes from `s` as from `s'`. -/
inductive Diverted (s s' : RandomStream) (m : Machine) : Machine → Prop
  | mk (count : Nat) : m.random = s.drop count → Diverted s s' m { m with random := s'.drop count }

/-- The next byte of `s` is to the next tick as the byte of `s'` at the same place. -/
def Tolerates (s s' : RandomStream) (m : Machine) : Prop :=
  ∀ count x mask, m.random = s.drop count → m.sample? = some (x, mask) →
    s.ahead count &&& mask = s'.ahead count &&& mask

variable {m m' : Machine}

/-! ## Taking bytes -/

theorem sample?_eq_some_iff {x : Register} {mask : UInt8} :
    m.sample? = some (x, mask) ↔ m.instruction? = some (.random x mask) := by
  unfold sample?
  constructor
  · intro h
    split at h
    · next code =>
      cases h
      exact code
    · cases h
  · intro code
    rw [code]

/-- A random instruction fills its register with the next byte under its mask. -/
theorem tick_of_sample? {x : Register} {mask : UInt8} (h : m.sample? = some (x, mask)) :
    m.tick = (.ok .proceed, m.advance.takeRandom x mask) :=
  tick_of_instruction? (sample?_eq_some_iff.mp h)

theorem register_tick_of_sample? {x : Register} {mask : UInt8} (h : m.sample? = some (x, mask)) :
    m.tick.2.register x = m.random.ahead 0 &&& mask := by
  rw [tick_of_sample? h]
  exact (register_setRegister m.advance x x _).trans (if_pos rfl)

/-- A tick takes one byte if it executes a random instruction, and else none. -/
theorem random_tick_eq (m : Machine) :
    m.tick.2.random = m.random.drop (if m.takesByte then 1 else 0) := by
  unfold takesByte
  rcases random_tick m with ⟨kept, other⟩ | ⟨taken, x, mask, code⟩
  · have none : m.sample? = none := by
      unfold sample?
      split
      · next x mask code => exact absurd code (other x mask)
      · rfl
    rw [none]
    exact kept
  · rw [sample?_eq_some_iff.mpr code]
    exact taken

/-- Along a path that takes bytes by its ticks alone, the random instructions take them in order. -/
theorem Path.samples {between : Machine → Machine → Prop} {xs : List Machine}
    (path : Path between m xs m') (other : ∀ {n n'}, between n n' → n'.random = n.random) :
    let taking := xs.filter takesByte
    m'.random = m.random.drop taking.length ∧
      ∀ k x, taking[k]? = some x → x.random = m.random.drop k := by
  induction path with
  | nil => exact ⟨rfl, fun k x h => by cases h⟩
  | @tick m m' xs _ ih =>
    have here := random_tick_eq m
    obtain ⟨last, each⟩ := ih
    cases takes : m.takesByte with
    | false =>
      rw [List.filter_cons_of_neg (by simp [takes])]
      rw [takes] at here
      rw [show m.tick.2.random = m.random from here] at last each
      exact ⟨last, each⟩
    | true =>
      rw [List.filter_cons_of_pos takes]
      rw [takes] at here
      rw [show m.tick.2.random = m.random.drop 1 from here] at last each
      -- the first tick takes a byte, and the others begin one byte further on
      refine ⟨?_, fun k x h => ?_⟩
      · rw [last, RandomStream.drop_drop, Nat.add_comm]
        rfl
      · cases k with
        | zero =>
          cases h
          rfl
        | succ k => rw [each k x h, RandomStream.drop_drop, Nat.add_comm]
  | other change _ ih =>
    rw [← other change]
    exact ih

theorem samples_applyAll (m : Machine) (ops : List Operation) :
    (m.applyAll ops).2.random = m.random.drop (m.samples ops).length ∧
      ∀ k x, (m.samples ops)[k]? = some x → x.random = m.random.drop k := by
  refine (Path.of_operations m ops).samples ?_
  rintro n _ ⟨_, quiet⟩
  exact random_apply_of_quiet n quiet

/-! ## Another source -/

variable {s s' : RandomStream}

theorem Diverted.sourceless (h : Diverted s s' m m') : m'.sourceless = m.sourceless := by
  cases h with
  | mk _ _ => rfl

/-- Where steps are alike and the timers and the beeps were the same, only the sources differ. -/
theorem Alike.eq_but_source {t t' : Step} (alike : Alike m m' t t') (delay : m'.delay = m.delay)
    (sound : m'.sound = m.sound) (beeps : m'.beeps = m.beeps) :
    t'.2 = { t.2 with random := t'.2.random } := by
  have played : t'.2.beeps = t.2.beeps := by
    rw [alike.beeps.1, alike.beeps.2, beeps]
  have state := alike.state
  rw [Resembles, alike.delay delay, alike.sound sound, played] at state
  exact state

theorem Diverted.tick (h : Diverted s s' m m') (tolerates : m.Tolerates s s') :
    m'.tick.1 = m.tick.1 ∧ Diverted s s' m.tick.2 m'.tick.2 := by
  cases h with
  | mk count taken =>
    have ticked : Alike m { m with random := s'.drop count } m.tick
        ({ m with random := s'.drop count } : Machine).tick := by
      refine alike_tick rfl (fun _ => rfl) fun mask ⟨running, x, word⟩ => ?_
      have code := sample?_eq_some_iff.mpr (instruction?_of_fetch running word)
      rw [taken]
      exact (tolerates count x mask taken code).symm
    refine ⟨ticked.outcome, ?_⟩
    rw [ticked.eq_but_source rfl rfl rfl]
    rcases ticked.random with ⟨own, other⟩ | ⟨own, other⟩
    · rw [other]
      exact .mk count (own.trans taken)
    · rw [other]
      exact .mk (count + 1) (own.trans (congrArg (fun s => s.next.2) taken))

theorem Diverted.apply_of_quiet (h : Diverted s s' m m') {op : Operation}
    (quiet : op.makesTicks = false) :
    (m'.apply op).1 = (m.apply op).1 ∧ Diverted s s' (m.apply op).2 (m'.apply op).2 := by
  cases h with
  | mk count taken =>
    rw [Machine.apply_of_quiet m m.beeps _ quiet, ← beeps_apply_of_quiet m quiet]
    exact ⟨rfl, .mk count ((random_apply_of_quiet m quiet).trans taken)⟩

/-- Machines with different sources stay together as long as no tick sees a difference. -/
theorem Diverted.lockstep (s s' : RandomStream) :
    Lockstep (Diverted s s') (Tolerates s s') where
  tick h tolerates := h.tick tolerates
  quiet h quiet := h.apply_of_quiet quiet

/-! ## Runs -/

/-- Two sources whose bytes look the same to each random instruction of a run that takes them look
the same to each of its ticks. -/
theorem tolerates_of_samples {ops : List Operation} {random : RandomStream}
    (same : ∀ k n x mask, (m.samples ops)[k]? = some n → n.sample? = some (x, mask) →
      m.random.ahead k &&& mask = random.ahead k &&& mask) :
    ∀ n ∈ m.tickedByAll ops, n.Tolerates m.random random := by
  intro n ticked count x mask taken sample
  have takes : n.takesByte = true := by
    rw [takesByte, sample]
    rfl
  obtain ⟨k, place⟩ := List.getElem?_of_mem (List.mem_filter.mpr ⟨ticked, takes⟩)
  -- the position of its stream tells which of the random instructions it is
  have here : count = k :=
    m.random.drop_injective (taken.symm.trans ((samples_applyAll m ops).2 k n place))
  rw [here]
  exact same k n x mask place sample

theorem runsAlike_take {ops : List Operation} {random : RandomStream}
    (tolerates : ∀ n ∈ m.tickedByAll ops, n.Tolerates m.random random) (j : Nat) :
    RunsAlike (fun n n' => n'.sourceless = n.sourceless) m { m with random } (ops.take j) := by
  have start : Diverted m.random random m { m with random } := .mk 0 rfl
  have alike : RunsAlike (Diverted m.random random) m { m with random } (ops.take j) :=
    (Diverted.lockstep m.random random).applyAll start
      fun n ticked => tolerates n ((tickedByAll_take m ops j).mem ticked)
  exact alike.imp Diverted.sourceless

/-- The random instructions of a run take the random bytes in order, whatever their masks are, and
nothing else takes one: not a fault, a wait for a key, a restart or any other operation. Each puts
the next byte under its mask into its register.

With another source whose bytes look the same under these masks the run is the same but for the
source, operation by operation and tick by tick. If all these masks are zero, any source will do. -/
theorem random_bytes_in_order (m : Machine) (ops : List Operation) :
    (m.applyAll ops).2.random = m.random.drop (m.samples ops).length ∧
    (∀ k n x mask, (m.samples ops)[k]? = some n → n.sample? = some (x, mask) →
      n.tick.2.register x = m.random.ahead k &&& mask) ∧
    (∀ random : RandomStream,
      (∀ k n x mask, (m.samples ops)[k]? = some n → n.sample? = some (x, mask) →
        m.random.ahead k &&& mask = random.ahead k &&& mask) →
      ∀ j, RunsAlike (fun n n' => n'.sourceless = n.sourceless) m { m with random } (ops.take j)) ∧
    ((∀ n ∈ m.tickedByAll ops, ∀ x mask, n.sample? = some (x, mask) → mask = 0) →
      ∀ (random : RandomStream) (j : Nat),
        RunsAlike (fun n n' => n'.sourceless = n.sourceless) m { m with random } (ops.take j)) := by
  obtain ⟨last, each⟩ := samples_applyAll m ops
  refine ⟨last, ?_, ?_, ?_⟩
  · intro k n x mask place sample
    rw [register_tick_of_sample? sample, each k n place]
    rfl
  · intro random same
    exact runsAlike_take (tolerates_of_samples same)
  · intro masked random
    refine runsAlike_take fun n ticked count x mask _ sample => ?_
    rw [masked n ticked x mask sample, UInt8.and_zero, UInt8.and_zero]

/-- Two sources that differ in the upper half of each byte, and an instruction that looks at the
lower half. -/
theorem random_bytes_in_order_half :
    let m : Machine := { Machine.new {} (.constant 0x3A) with
      memory := Memory.zero.overlay 512 [0xC1, 0x0F] }
    (∀ k n x mask, (m.samples [.tick])[k]? = some n → n.sample? = some (x, mask) →
      (RandomStream.constant 0x3A).ahead k &&& mask =
        (RandomStream.constant 0x4A).ahead k &&& mask) ∧
    m.tick.2.register 1 = 0x0A ∧
    RunsAlike (fun n n' => n'.sourceless = n.sourceless) m { m with random := .constant 0x4A }
      ([.tick].take 1) := by
  intro m
  have word : m.fetch = .ok (Instruction.random 1 0x0F).encode :=
    fetch_of_overlay rfl (by decide) rfl rfl
  have sample : m.sample? = some (1, 0x0F) :=
    sample?_eq_some_iff.mpr (instruction?_of_fetch rfl word)
  have samples : m.samples [.tick] = [m] := List.filter_cons_of_pos (by rw [takesByte, sample]; rfl)
  obtain ⟨-, filled, diverted, -⟩ := random_bytes_in_order m [.tick]
  have same : ∀ k n x mask, (m.samples [.tick])[k]? = some n → n.sample? = some (x, mask) →
      (RandomStream.constant 0x3A).ahead k &&& mask =
        (RandomStream.constant 0x4A).ahead k &&& mask := by
    intro k n x mask place sample'
    rw [samples] at place
    obtain rfl : n = m := List.mem_singleton.mp (List.mem_of_getElem? place)
    cases sample.symm.trans sample'
    show (0x3A : UInt8) &&& 0x0F = 0x4A &&& 0x0F
    decide
  have first : (m.samples [.tick])[0]? = some m := by
    rw [samples]
    rfl
  have masked : (0x3A : UInt8) &&& 0x0F = 0x0A := by decide
  exact ⟨same, (filled 0 m 1 0x0F first sample).trans masked, diverted _ same 1⟩

end Machine

end Chip8
