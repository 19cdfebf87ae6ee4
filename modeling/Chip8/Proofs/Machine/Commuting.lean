import Chip8.Proofs.Machine.Lockstep
import Chip8.Proofs.Machine.Surroundings

/-!
# Operations that commute

A front end counts the timers and sets keys between ticks, whenever it gets to it. The order does
not matter where the tick looks at none of what the other operation changes: both answers and the
state after both are the same.

Results:
1. `tick_tickTimers`: a tick after a count of the timers.
2. `commute_tick_keys`, `commute_tickTimers_keys`: operations on the keypad.
3. `applyAll_interleaved`: ticks with any counts of the timers in between.
4. `independent_operations_commute`: all of it.
-/

namespace Chip8

/-! ## Definitions -/

/-- The instructions that read or set a timer. -/
def Instruction.usesTimers : Instruction → Bool
  | readDelay _ | setDelay _ | setSound _ => true
  | _ => false

namespace Machine

/-- The next tick carries out an instruction that reads or sets a timer. -/
def UsesTimers (m : Machine) : Prop := ∃ i, m.instruction? = some i ∧ i.usesTimers = true

/-- Two operations are answered alike in either order, and lead to the same state. -/
structure Commute (m : Machine) (op op' : Operation) : Prop where
  first : ((m.apply op').2.apply op).1 = (m.apply op).1
  second : ((m.apply op).2.apply op').1 = (m.apply op').1
  state : ((m.apply op).2.apply op').2 = ((m.apply op').2.apply op).2

variable {m : Machine}

/-! ## Ticks and timers -/

theorem timers_tick (blind : ¬ m.UsesTimers) :
    m.tick.2.delay = m.delay ∧ m.tick.2.sound = m.sound := by
  have kept {part : Part} (timer : part = .delay ∨ part = .sound) : m.Keeps m.tick.2 part := by
    refine keeps_tick (by rcases timer with rfl | rfl <;> simp) fun i code touches => ?_
    cases i with
    | setDelay x | setSound x => exact blind ⟨_, code, rfl⟩
    | _ => rcases timer with rfl | rfl <;> exact touches
  exact ⟨kept (.inl rfl), kept (.inr rfl)⟩

/-- A tick that does not use the timers does the same after a count of them, and the count does the
same after the tick. -/
theorem tick_tickTimers (blind : ¬ m.UsesTimers) :
    m.tickTimers.2.tick = (m.tick.1, m.tick.2.tickTimers.2) ∧
      m.tick.2.tickTimers.1 = m.tickTimers.1 := by
  have alike : Alike m m.tickTimers.2 m.tick m.tickTimers.2.tick := by
    refine alike_tick rfl ?_ fun _ _ => rfl
    rintro ⟨running, x, word⟩
    exact absurd ⟨_, instruction?_of_fetch running word, rfl⟩ blind
  obtain ⟨delay, sound⟩ := timers_tick blind
  have blind' : ¬ m.tickTimers.2.UsesTimers := blind
  obtain ⟨delay', sound'⟩ := timers_tick blind'
  have random : m.tickTimers.2.tick.2.random = m.tick.2.random := by
    rcases alike.random with ⟨own, other⟩ | ⟨own, other⟩
    · exact other.trans own.symm
    · exact other.trans own.symm
  have told : m.tick.2.tickTimers.1 = m.tickTimers.1 :=
    congrArg (fun sound : UInt8 => decide (sound = 1)) sound
  refine ⟨Prod.ext alike.outcome ?_, told⟩
  calc m.tickTimers.2.tick.2
    _ = m.tick.2.exchange m.tickTimers.2.delay m.tickTimers.2.sound m.tickTimers.2.beeps
          m.tick.2.random := by
        rw [← delay', ← sound', ← alike.beeps.2, ← random]
        exact alike.state
    _ = m.tick.2.tickTimers.2 := by
        simp only [tickTimers, delay, sound, alike.beeps.1]
        rfl

theorem commute_tick_tickTimers (blind : ¬ m.UsesTimers) : m.Commute .tick .tickTimers := by
  obtain ⟨ticked, told⟩ := tick_tickTimers blind
  obtain ⟨outcome, state⟩ := Prod.ext_iff.mp ticked
  exact {
    first := congrArg (Except.map Answer.flow) outcome
    second := congrArg (fun sounded => Except.ok (Answer.sounded sounded)) told
    state := state.symm }

/-- A tick that stalls, faults or carries out another instruction does not use the timers. -/
theorem not_usesTimers (h : m.isWaiting = true ∨ (∃ fault, m.tick.1 = .error fault) ∨
    ∃ i : Instruction, m.fetch = .ok i.encode ∧ i.usesTimers = false) : ¬ m.UsesTimers := by
  rintro ⟨i, code, uses⟩
  rcases h with waits | ⟨fault, fails⟩ | ⟨i', word, blind⟩
  · obtain ⟨x, waits⟩ := Option.isSome_iff_exists.mp waits
    simp only [instruction?, waits] at code
    cases code
    cases uses
  · rw [tick_of_instruction? code] at fails
    cases i with
    | readDelay x | setDelay x | setSound x => cases fails
    | _ => cases uses
  · cases running : m.keyWait with
    | some x =>
      simp only [instruction?, running] at code
      cases code
      cases uses
    | none =>
      cases code.symm.trans (instruction?_of_fetch running word)
      cases blind.symm.trans uses

/-! ## Keys -/

theorem looksAtKeys_of_word (running : m.isWaiting = false)
    (h : (∃ fault, m.fetch = .error fault) ∨
      ∃ w, m.fetch = .ok w ∧ ∀ i : Instruction, i.looksAtKeys = true → w ≠ i.encode)
    (i : Instruction) (code : m.instruction? = some i) : i.looksAtKeys = false := by
  have running : m.keyWait = none :=
    Option.isNone_iff_eq_none.mp (by simpa [isWaiting] using running)
  rcases h with ⟨fault, fails⟩ | ⟨w, word, other⟩
  · simp only [instruction?, running, fails] at code
    cases code
  · simp only [instruction?, running, word] at code
    rw [← Bool.not_eq_true]
    exact fun looks => other i looks (Instruction.encode_of_decode? code).symm

/-- A tick that looks at no key commutes with every operation on the keypad, also if that is
refused. -/
theorem commute_tick_keys {op : Operation} (keys : op.setsKeys = true)
    (blind : ∀ i, m.instruction? = some i → i.looksAtKeys = false) : m.Commute .tick op := by
  obtain ⟨answer, keypad, applied⟩ : ∃ answer keypad, ∀ n : Machine, n.keypad = m.keypad →
      n.apply op = (answer, n.refit keypad n.profile) :=
    ⟨_, _, fun n same => apply_of_setsKeys keys same⟩
  have ticked : (m.refit keypad m.profile).tick = refitStep keypad m.profile m.tick :=
    tick_refit (fun i code looks => by cases (blind i code).symm.trans looks)
      fun i _ => not_disputed_self m i
  have kept : m.Keeps m.tick.2 .keypad := keeps_tick_of_surrounds rfl
  have profile : m.Keeps m.tick.2 .profile := keeps_tick_of_surrounds rfl
  have before := applied m rfl
  have after := applied m.tick.2 kept
  rw [show m.tick.2.profile = m.profile from profile] at after
  obtain ⟨outcome, state⟩ := Prod.ext_iff.mp ticked
  obtain ⟨answers, states⟩ := Prod.ext_iff.mp after
  constructor
  · rw [before]
    exact congrArg (Except.map Answer.flow) outcome
  · rw [before]
    exact answers
  · rw [before]
    exact states.trans state.symm

theorem commute_tickTimers_keys (m : Machine) {op : Operation} (keys : op.setsKeys = true) :
    m.Commute .tickTimers op := by
  have before : m.apply op = ((m.apply op).1, m.refit (m.apply op).2.keypad m.profile) :=
    apply_of_setsKeys keys rfl
  have after : m.tickTimers.2.apply op =
      ((m.apply op).1, m.tickTimers.2.refit (m.apply op).2.keypad m.profile) :=
    apply_of_setsKeys keys rfl
  obtain ⟨answers, states⟩ := Prod.ext_iff.mp after
  constructor
  · rw [before]
    rfl
  · exact answers
  · rw [before]
    exact states

/-! ## Ticks with counts of the timers in between -/

/-- An operation that makes ticks does the same after a count of the timers, if its ticks do not use
them. -/
theorem apply_tickTimers {op : Operation} (ticks : op.makesTicks = true)
    (blind : ∀ x ∈ m.tickedBy op, ¬ x.UsesTimers) :
    (m.tickTimers.2.apply op).2 = (m.apply op).2.tickTimers.2 ∧
      SameTicks (fun n n' => n' = n.tickTimers.2) (m.tickedBy op) (m.tickTimers.2.tickedBy op) := by
  have tick {n n' : Machine} (related : n' = n.tickTimers.2) (blind : ¬ n.UsesTimers) :
      n'.tick.1 = n.tick.1 ∧ n'.tick.2 = n.tick.2.tickTimers.2 := by
    subst related
    exact Prod.ext_iff.mp (tick_tickTimers blind).1
  cases op with
  | tick =>
    obtain ⟨outcome, state⟩ := tick rfl (blind m List.mem_cons_self)
    exact ⟨state, .cons ⟨rfl, outcome⟩ .nil⟩
  | run count =>
    obtain ⟨-, state, same⟩ :=
      go_alike (R := fun n n' => n' = n.tickTimers.2) tick rfl count .proceed blind
    exact ⟨state, same⟩
  | _ => cases ticks

theorem applyAll_tickTimers {ops : List Operation} (ticks : ∀ op ∈ ops, op.makesTicks = true)
    (blind : ∀ x ∈ m.tickedByAll ops, ¬ x.UsesTimers) :
    (m.tickTimers.2.applyAll ops).2 = (m.applyAll ops).2.tickTimers.2 ∧
      SameTicks (fun n n' => n' = n.tickTimers.2) (m.tickedByAll ops)
        (m.tickTimers.2.tickedByAll ops) := by
  induction ops generalizing m with
  | nil => exact ⟨rfl, .nil⟩
  | cons op ops ih =>
    obtain ⟨state, same⟩ := apply_tickTimers (ticks op List.mem_cons_self)
      fun x mem => blind x (List.mem_append_left _ mem)
    obtain ⟨states, others⟩ := ih (fun op mem => ticks op (List.mem_cons_of_mem _ mem))
      fun x mem => blind x (List.mem_append_right _ mem)
    rw [← state] at states others
    exact ⟨states, List.rel_append same others⟩

/-- Ticks that do not use the timers lead to the same state whenever the timers are counted. -/
theorem applyAll_interleaved {ops : List Operation}
    (only : ∀ op ∈ ops, op = .tickTimers ∨ op.makesTicks = true)
    (blind : ∀ x ∈ m.tickedByAll (ops.filter Operation.makesTicks), ¬ x.UsesTimers) :
    (m.applyAll ops).2 = (m.applyAll (ops.filter Operation.makesTicks ++
      List.replicate (ops.count .tickTimers) .tickTimers)).2 := by
  induction ops generalizing m with
  | nil => rfl
  | cons op ops ih =>
    obtain ⟨here, rest⟩ := List.forall_mem_cons.mp only
    let ticks := ops.filter Operation.makesTicks
    let counts := List.replicate (ops.count .tickTimers) Operation.tickTimers
    rcases here with rfl | makes
    · -- a count that comes first is put off until the ticks are over
      obtain ⟨state, same⟩ :=
        applyAll_tickTimers (m := m) (fun op mem => (List.mem_filter.mp mem).2) blind
      have blind' : ∀ x ∈ m.tickTimers.2.tickedByAll ticks, ¬ x.UsesTimers := by
        refine same.all (fun related unused => ?_) blind
        subst related
        exact unused
      rw [List.count_cons_self, List.replicate_succ, applyAll_append]
      calc (m.tickTimers.2.applyAll ops).2
        _ = ((m.tickTimers.2.applyAll ticks).2.applyAll counts).2 := by
            rw [ih rest blind', applyAll_append]
        _ = ((m.applyAll ticks).2.tickTimers.2.applyAll counts).2 :=
            congrArg (fun n => (n.applyAll counts).2) state
    · have other : op ≠ .tickTimers := by
        rintro rfl
        cases makes
      rw [List.filter_cons_of_pos makes] at blind ⊢
      rw [List.count_cons_of_ne other]
      exact ih rest fun x mem => blind x (List.mem_append_right _ mem)

/-! ## Any state -/

/-- A tick that stalls, faults or carries out an instruction other than those that read or set a
timer commutes with a count of the timers. A tick of a machine that does not wait for a key, where
the word at the program counter is missing or none of those that look at the keypad, commutes with
every operation on the keypad, and so does a count of the timers; also with those that are refused.

So where ticks use no timer it does not matter when the timers are counted: any order of the ticks
and the counts leads to the state after all ticks and then all counts. -/
theorem independent_operations_commute (m : Machine) :
    (m.isWaiting = true ∨ (∃ fault, m.tick.1 = .error fault) ∨
        (∃ i : Instruction, m.fetch = .ok i.encode ∧ i.usesTimers = false) →
      m.Commute .tick .tickTimers) ∧
    (m.isWaiting = false →
      (∃ fault, m.fetch = .error fault) ∨
        (∃ w, m.fetch = .ok w ∧ ∀ i : Instruction, i.looksAtKeys = true → w ≠ i.encode) →
      ∀ op : Operation, op.setsKeys = true → m.Commute .tick op) ∧
    (∀ op : Operation, op.setsKeys = true → m.Commute .tickTimers op) ∧
    ∀ ops : List Operation, (∀ op ∈ ops, op = .tickTimers ∨ op.makesTicks = true) →
      (∀ x ∈ m.tickedByAll (ops.filter Operation.makesTicks), ¬ x.UsesTimers) →
        (m.applyAll ops).2 = (m.applyAll (ops.filter Operation.makesTicks ++
          List.replicate (ops.count .tickTimers) .tickTimers)).2 := by
  refine ⟨fun h => commute_tick_tickTimers (not_usesTimers h), ?_,
    fun op => commute_tickTimers_keys m, fun ops => applyAll_interleaved⟩
  intro running h op keys
  exact commute_tick_keys keys (looksAtKeys_of_word running h)

/-- A tick that sets a register, with the beeper played before it and a key refused after it. -/
theorem independent_operations_commute_set_register :
    let m : Machine := { Machine.new {} (.constant 0) with
      delay := 5, sound := 1, memory := Memory.zero.overlay 512 [0x6A, 0x01] }
    let ops : List Operation := [.tickTimers, .tick, .tickTimers]
    m.Commute .tick .tickTimers ∧ m.Commute .tick (.keyDown 16) ∧
      m.Commute .tickTimers (.keyDown 16) ∧
      (m.applyAll ops).2 = (m.applyAll [.tick, .tickTimers, .tickTimers]).2 := by
  intro m ops
  have word : m.fetch = .ok (Instruction.setByte 10 1).encode :=
    fetch_of_overlay rfl (by decide) rfl rfl
  have code : m.instruction? = some (.setByte 10 1) := instruction?_of_fetch rfl word
  have unused : ¬ m.UsesTimers := by
    rintro ⟨i, code', uses⟩
    cases code.symm.trans code'
    cases uses
  have unlooked : ∀ i : Instruction, i.looksAtKeys = true →
      (Instruction.setByte 10 1).encode ≠ i.encode := by
    intro i looks same
    obtain rfl : Instruction.setByte 10 1 = i := by
      have decoded := congrArg Instruction.decode? same
      rw [Instruction.decode?_encode, Instruction.decode?_encode] at decoded
      exact Option.some.inj decoded
    cases looks
  obtain ⟨timers, keys, both, interleaved⟩ := independent_operations_commute m
  refine ⟨timers (.inr (.inr ⟨_, word, rfl⟩)), ?_, both _ rfl, ?_⟩
  · exact keys rfl (.inr ⟨_, word, unlooked⟩) _ rfl
  · refine interleaved ops (by decide) fun x mem => ?_
    obtain rfl : x = m := List.mem_singleton.mp mem
    exact unused

end Machine

end Chip8
