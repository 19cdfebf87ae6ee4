import Chip8.Proofs.Machine.Footprint
import Chip8.Proofs.Machine.Restarts

/-!
# Timers and beeps

The timers count down when they are told to, whatever instructions run in between, and the beeper
is played by the count that takes the sound timer from one to zero and by no other. What a beep
costs was paid when the sound timer was set.

Results:
1. `runsDown_apply`, `runsDown_applyAll`: the timers and the beeps while no timer is set.
2. `sounds_iff`: the answers to the counts of the timers.
3. `beeps_applyAll`: each beep was told by the answer to a count of the timers.
4. `dueBeeps_applyAll`: no more beeps than sound timers were set.
5. `timers_run_down`: all of it.
-/

namespace Chip8.Machine

/-! ## Definitions -/

/-- The next tick sets a timer. -/
def SetsTimer (m : Machine) : Prop :=
  ∃ x, m.instruction? = some (.setDelay x) ∨ m.instruction? = some (.setSound x)

/-- Whether the next tick sets the sound timer to anything but zero. -/
def startsSound (m : Machine) : Bool :=
  match m.instruction? with
  | some (.setSound x) => m.register x ≠ 0
  | _ => false

/-- What `count` counts of the timers make of a machine if nothing else changes them: both go down
and stop at zero, and the beeper is played once if the sound timer gets there. -/
structure RunsDown (m : Machine) (count : Nat) (m' : Machine) : Prop where
  delay : m'.delay.toNat = m.delay.toNat - count
  sound : m'.sound.toNat = m.sound.toNat - count
  beeps : m'.beeps = m.beeps + if 1 ≤ m.sound.toNat ∧ m.sound.toNat ≤ count then 1 else 0

/-- The beeps that were played and the one that will be if the timers are counted on. -/
def dueBeeps (m : Machine) : Nat := m.beeps + if m.sound = 0 then 0 else 1

variable {m m' : Machine}

/-! ## The beeper -/

/-- Only a count of the timers is answered with what the beeper did. -/
theorem sounding?_apply {op : Operation} (other : op ≠ .tickTimers) :
    sounding? (m.apply op).1 = none := by
  have done (r : Except Fault Unit) : sounding? (r.map fun () => .done) = none := by
    cases r with
    | ok _ => rfl
    | error fault => rfl
  have hinted (r : Except Fault Flow) : sounding? (r.map .flow) = none := by
    cases r with
    | ok flow => rfl
    | error fault => rfl
  cases op with
  | tickTimers => exact absurd rfl other
  | tick => exact hinted m.tick.1
  | run count => exact hinted (m.run count).1
  | load program => exact done (m.load program).1
  | loadFont glyphs => exact done (m.loadFont glyphs).1
  | keyDown index | keyUp index => exact done (m.pressKey index _).1
  | reset | setKey key pressed | clearKeys => rfl

theorem apply_eq_sounded_iff {op : Operation} {sounded : Bool} :
    (m.apply op).1 = .ok (.sounded sounded) ↔
      op = .tickTimers ∧ sounded = decide (m.sound = 1) := by
  constructor
  · intro answer
    by_cases counts : op = .tickTimers
    · subst counts
      refine ⟨rfl, ?_⟩
      cases answer
      rfl
    · have silent := sounding?_apply (m := m) counts
      rw [answer] at silent
      cases silent
  · rintro ⟨rfl, rfl⟩
    rfl

/-- An operation plays the beeper if its answer tells so. -/
theorem plays_eq (m : Machine) (op : Operation) :
    m.plays op = if (m.apply op).1 == .ok (.sounded true) then 1 else 0 := by
  unfold plays
  rcases (m.apply op).1 with fault | answer
  · rfl
  · cases answer with
    | sounded sounded => cases sounded <;> rfl
    | done | flow hint => rfl

theorem plays_of_ne {op : Operation} (other : op ≠ .tickTimers) : m.plays op = 0 := by
  unfold plays
  rw [sounding?_apply other]

theorem beeps_apply (m : Machine) (op : Operation) :
    (m.apply op).2.beeps = m.beeps + m.plays op := by
  cases quiet : op.makesTicks with
  | false => exact beeps_apply_of_quiet m quiet
  | true =>
    have lasts : op.restarts = false := by
      cases op with
      | tick | run count => rfl
      | _ => cases quiet
    have other : op ≠ .tickTimers := by
      rintro rfl
      cases quiet
    have kept : m.Keeps (m.apply op).2 .beeps := by
      refine keeps_apply lasts (by simp) ?_ fun x _ i _ => not_touches_of_surrounds rfl i
      cases op with
      | tick | run count => exact id
      | _ => cases quiet
    rw [plays_of_ne other]
    exact kept

theorem beeps_applyAll (m : Machine) (ops : List Operation) :
    (m.applyAll ops).2.beeps = m.beeps + (m.applyAll ops).1.count (.ok (.sounded true)) := by
  induction ops generalizing m with
  | nil => rfl
  | cons op ops ih =>
    show ((m.apply op).2.applyAll ops).2.beeps =
      m.beeps + ((m.apply op).1 :: ((m.apply op).2.applyAll ops).1).count (.ok (.sounded true))
    rw [ih, beeps_apply, plays_eq, List.count_cons]
    omega

/-! ## Counting down -/

/-- A timer at zero stays there, and any other goes down by one. -/
theorem toNat_countDown (timer : UInt8) :
    (if timer = 0 then 0 else timer - 1).toNat = timer.toNat - 1 := by
  split
  · next zero =>
    rw [zero]
    rfl
  · next other =>
    have positive : 1 ≤ timer := by
      rw [UInt8.le_iff_toNat_le]
      exact Nat.pos_of_ne_zero fun zero => other (UInt8.toNat_inj.mp zero)
    exact UInt8.toNat_sub_of_le timer 1 positive

theorem RunsDown.of_same (delay : m'.delay = m.delay) (sound : m'.sound = m.sound)
    (beeps : m'.beeps = m.beeps) : m.RunsDown 0 m' where
  delay := congrArg UInt8.toNat delay
  sound := congrArg UInt8.toNat sound
  beeps := by
    rw [if_neg (by omega)]
    exact beeps

theorem RunsDown.trans {m'' : Machine} {first second : Nat} (before : m.RunsDown first m')
    (after : m'.RunsDown second m'') : m.RunsDown (first + second) m'' where
  delay := by
    rw [after.delay, before.delay, Nat.sub_sub]
  sound := by
    rw [after.sound, before.sound, Nat.sub_sub]
  beeps := by
    rw [after.beeps, before.beeps, before.sound]
    split <;> split <;> split <;> omega

/-- The timers and the beeper stay as they are if nothing counts the timers or sets them. -/
theorem runsDown_of_uncounted {op : Operation} (lasts : op.restarts = false)
    (other : op ≠ .tickTimers) (unset : ∀ x ∈ m.tickedBy op, ¬ x.SetsTimer) :
    m.RunsDown 0 (m.apply op).2 := by
  have kept {part : Part} (timer : part = .delay ∨ part = .sound) :
      m.Keeps (m.apply op).2 part := by
    refine keeps_apply lasts ?_ ?_ ?_
    · rcases timer with rfl | rfl <;> simp
    · cases op with
      | tickTimers => exact absurd rfl other
      | _ => rcases timer with rfl | rfl <;> exact id
    · intro x ticked i code touches
      cases i with
      | setDelay r => exact unset x ticked ⟨r, .inl code⟩
      | setSound r => exact unset x ticked ⟨r, .inr code⟩
      | _ => rcases timer with rfl | rfl <;> exact touches
  have beeps := beeps_apply m op
  rw [plays_of_ne other] at beeps
  exact .of_same (kept (.inl rfl)) (kept (.inr rfl)) beeps

theorem runsDown_tickTimers (m : Machine) : m.RunsDown 1 m.tickTimers.2 where
  delay := toNat_countDown m.delay
  sound := toNat_countDown m.sound
  beeps := by
    have last : m.sound = 1 ↔ 1 ≤ m.sound.toNat ∧ m.sound.toNat ≤ 1 := by
      rw [← UInt8.toNat_inj]
      show m.sound.toNat = 1 ↔ _
      omega
    have played : m.tickTimers.2.beeps = m.beeps + if m.sound = 1 then 1 else 0 := by
      rcases Classical.em (m.sound = 1) with one | other
      · simp only [tickTimers, one, decide_true, if_true]
      · simp only [tickTimers, other, decide_false, if_false]
        rfl
    rw [played]
    exact congrArg _ (if_congr last rfl rfl)

/-- One operation: a count of the timers takes them down by one, and any other leaves them. -/
theorem runsDown_apply {op : Operation} (lasts : op.restarts = false)
    (unset : ∀ x ∈ m.tickedBy op, ¬ x.SetsTimer) :
    m.RunsDown ([op].count .tickTimers) (m.apply op).2 := by
  by_cases counts : op = .tickTimers
  · subst counts
    exact runsDown_tickTimers m
  · rw [List.count_singleton, if_neg (by simpa using counts)]
    exact runsDown_of_uncounted lasts counts unset

/-- Operations that set no timer take the timers down by as much as they count them. -/
theorem runsDown_applyAll {ops : List Operation} (lasts : ∀ op ∈ ops, op.restarts = false)
    (unset : ∀ x ∈ m.tickedByAll ops, ¬ x.SetsTimer) :
    m.RunsDown (ops.count .tickTimers) (m.applyAll ops).2 := by
  induction ops generalizing m with
  | nil => exact .of_same rfl rfl rfl
  | cons op ops ih =>
    have first : m.RunsDown ([op].count .tickTimers) (m.apply op).2 :=
      runsDown_apply (lasts op List.mem_cons_self)
        fun x ticked => unset x (List.mem_append_left _ ticked)
    have others : (m.apply op).2.RunsDown (ops.count .tickTimers) (m.applyAll (op :: ops)).2 :=
      ih (fun op' mem => lasts op' (List.mem_cons_of_mem _ mem))
        fun x ticked => unset x (List.mem_append_right _ ticked)
    rw [← List.singleton_append, List.count_append]
    exact first.trans others

/-- The answer tells of a beep where it is the count that the sound timer runs out with, and of
none at every other count. -/
theorem sounds_iff {ops : List Operation} (lasts : ∀ op ∈ ops, op.restarts = false)
    (unset : ∀ x ∈ m.tickedByAll ops, ¬ x.SetsTimer) (k : Nat) (sounded : Bool) :
    (m.applyAll ops).1[k]? = some (.ok (.sounded sounded)) ↔
      ops[k]? = some .tickTimers ∧
        sounded = decide ((ops.take k).count .tickTimers + 1 = m.sound.toNat) := by
  -- the operation is answered by the machine that those before it leave
  have before : m.RunsDown ((ops.take k).count .tickTimers) (m.applyAll (ops.take k)).2 :=
    runsDown_applyAll (fun op mem => lasts op (List.mem_of_mem_take mem))
      fun x ticked => unset x ((tickedByAll_take m ops k).mem ticked)
  have last : (m.applyAll (ops.take k)).2.sound = 1 ↔
      (ops.take k).count .tickTimers + 1 = m.sound.toNat := by
    rw [← UInt8.toNat_inj, before.sound]
    show m.sound.toNat - _ = 1 ↔ _
    omega
  rw [getElem?_applyAll, Option.map_eq_some_iff, ← decide_eq_decide.mpr last]
  constructor
  · rintro ⟨op, here, answer⟩
    obtain ⟨rfl, told⟩ := apply_eq_sounded_iff.mp answer
    exact ⟨here, told⟩
  · rintro ⟨here, told⟩
    exact ⟨_, here, apply_eq_sounded_iff.mpr ⟨rfl, told⟩⟩

/-! ## Paying for a beep -/

theorem dueBeeps_eq (m : Machine) : m.dueBeeps = m.beeps + min 1 m.sound.toNat := by
  unfold dueBeeps
  split
  · next silent =>
    rw [silent]
    rfl
  · next sounds =>
    have running : m.sound.toNat ≠ 0 := fun zero => sounds (UInt8.toNat_inj.mp zero)
    omega

/-- Counting down plays the beep that is due and makes no other. -/
theorem RunsDown.dueBeeps_le {count : Nat} (down : m.RunsDown count m') :
    m'.dueBeeps ≤ m.dueBeeps := by
  rw [dueBeeps_eq, dueBeeps_eq, down.beeps, down.sound]
  split <;> omega

/-- A tick makes another beep due only where it sets the sound timer to anything but zero. -/
theorem dueBeeps_tick (m : Machine) :
    m.tick.2.dueBeeps ≤ m.dueBeeps + if m.startsSound then 1 else 0 := by
  -- a tick plays no beep, so that only the sound timer matters
  have beeps : m.Keeps m.tick.2 .beeps := keeps_tick_of_surrounds rfl
  rcases Classical.em (∃ x, m.instruction? = some (.setSound x)) with ⟨x, code⟩ | other
  · have sound : m.tick.2.sound = m.register x := by
      rw [tick_of_instruction? code]
      rfl
    have started : m.startsSound = decide (m.register x ≠ 0) := by
      unfold startsSound
      rw [code]
    unfold dueBeeps
    rw [sound, beeps, started]
    by_cases zero : m.register x = 0 <;> simp [zero]
  · have sound : m.Keeps m.tick.2 .sound := by
      refine keeps_tick (by simp) fun i code touches => ?_
      cases i with
      | setSound x => exact other ⟨x, code⟩
      | _ => exact touches
    unfold dueBeeps
    rw [sound, beeps]
    exact Nat.le_add_right _ _

/-- No operation other than ticks makes a beep due. -/
theorem dueBeeps_apply_of_quiet {op : Operation} (quiet : op.makesTicks = false) :
    (m.apply op).2.dueBeeps ≤ m.dueBeeps := by
  cases restarts : op.restarts with
  | false =>
    refine (runsDown_apply restarts fun x ticked => ?_).dueBeeps_le
    cases op with
    | tick | run count => cases quiet
    | _ => cases ticked
  | true =>
    have silenced := (restarted_of_restarts m restarts).sound
    have other : op ≠ .tickTimers := by
      rintro rfl
      cases restarts
    unfold dueBeeps
    rw [beeps_apply, plays_of_ne other, silenced]
    exact Nat.le_add_right _ _

theorem dueBeeps_applyAll (m : Machine) (ops : List Operation) :
    (m.applyAll ops).2.dueBeeps ≤ m.dueBeeps + (m.tickedByAll ops).countP startsSound := by
  refine (Path.of_operations m ops).le_add_countP ?_ dueBeeps_tick
  rintro n _ ⟨_, quiet⟩
  exact dueBeeps_apply_of_quiet quiet

/-! ## Runs -/

/-- Operations without a restart that set no timer take both timers down by as much as they count
them, and no further than zero. If the sound timer runs out, the count that takes it there tells so
and plays the beeper once; no other count does, and nothing but a count tells of the beeper.

Over any operations the beeper plays as often as a count told so, and no more often than an
instruction set the sound timer to anything but zero, and once more if it was running before. -/
theorem timers_run_down (m : Machine) (ops : List Operation) :
    let count := ops.count .tickTimers
    let answers := (m.applyAll ops).1
    let m' := (m.applyAll ops).2
    ((∀ op ∈ ops, op.restarts = false) → (∀ x ∈ m.tickedByAll ops, ¬ x.SetsTimer) →
      m'.delay.toNat = m.delay.toNat - count ∧ m'.sound.toNat = m.sound.toNat - count ∧
      (∀ k sounded, answers[k]? = some (.ok (.sounded sounded)) ↔
        ops[k]? = some .tickTimers ∧
          sounded = decide ((ops.take k).count .tickTimers + 1 = m.sound.toNat)) ∧
      m'.beeps = m.beeps + if 1 ≤ m.sound.toNat ∧ m.sound.toNat ≤ count then 1 else 0) ∧
    m'.beeps = m.beeps + answers.count (.ok (.sounded true)) ∧
    m'.beeps ≤ m.beeps + (if m.sound = 0 then 0 else 1) +
      (m.tickedByAll ops).countP startsSound := by
  intro count answers m'
  refine ⟨fun lasts unset => ?_, beeps_applyAll m ops, ?_⟩
  · have down := runsDown_applyAll lasts unset
    exact ⟨down.delay, down.sound, sounds_iff lasts unset, down.beeps⟩
  · exact Nat.le_trans (Nat.le_add_right _ _) (dueBeeps_applyAll m ops)

/-- A sound of length two, with an instruction between the counts of the timers. -/
theorem timers_run_down_two :
    let m : Machine := { Machine.new {} (.constant 0) with
      delay := 5, sound := 2, memory := Memory.zero.overlay 512 [0x6A, 0x01] }
    let ops : List Operation := [.tickTimers, .tick, .tickTimers, .tickTimers]
    (∀ op ∈ ops, op.restarts = false) ∧ (∀ x ∈ m.tickedByAll ops, ¬ x.SetsTimer) ∧
      (m.applyAll ops).2.delay.toNat = 2 ∧ (m.applyAll ops).2.sound.toNat = 0 ∧
      (m.applyAll ops).1[2]? = some (.ok (.sounded true)) ∧ (m.applyAll ops).2.beeps = 1 := by
  intro m ops
  have lasts : ∀ op ∈ ops, op.restarts = false := by decide
  have unset : ∀ x ∈ m.tickedByAll ops, ¬ x.SetsTimer := by
    rintro x ticked ⟨r, sets⟩
    obtain rfl : x = m.tickTimers.2 := List.mem_singleton.mp ticked
    have word : m.tickTimers.2.fetch = .ok (Instruction.setByte 10 1).encode :=
      fetch_of_overlay rfl (by decide) rfl rfl
    have code : m.tickTimers.2.instruction? = some (.setByte 10 1) :=
      instruction?_of_fetch rfl word
    rw [code] at sets
    rcases sets with delays | sounds
    · cases delays
    · cases sounds
  obtain ⟨delay, sound, told, beeps⟩ := (timers_run_down m ops).1 lasts unset
  exact ⟨lasts, unset, delay, sound, (told 2 true).mpr ⟨rfl, rfl⟩, beeps⟩

end Chip8.Machine
