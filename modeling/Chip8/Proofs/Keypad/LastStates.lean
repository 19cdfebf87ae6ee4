import Chip8.CommandLine.Run

/-!
# Last states of keys

Whatever keys are put down and up, by name or by number, a key is in the state that it was given
last, and the least key that is down is the lowest bit of the mask. What is said of one key leaves
the others alone, so the order of what is said of distinct keys does not matter.

Results:
1. `isDown_handle`, `isDown_handleAll`: a key after one event and after many.
2. `lowest?_eq_some_iff`, `lowest?_eq_trailing?`: the least key, by its definition and on the mask.
3. `handle_comm`, `handle_handle`: events in the other order, and again.
4. `pressAll_congr`, `CommandLine.hold_eq`: keys put down from a list, also for a whole run.
5. `keypad_tells_last_states`: all of it.
-/

namespace Chip8

/-- A key's number names the key. -/
theorem Key.ofIndex_toByte (key : Key) : ofIndex key.toByte = .ok key := by
  have number : key.toByte.toNat = key.val :=
    UInt8.toNat_ofNat_of_lt' (Nat.lt_trans key.isLt (by decide))
  simp only [ofIndex, number, dif_pos key.isLt]

namespace Keypad

/-! ## Definitions -/

/-- What changes a keypad. -/
inductive Event
  /-- The key of a number goes down or up, if there is one. -/
  | press (index : UInt8) (pressed : Bool)
  | set (key : Key) (pressed : Bool)
  | clear
  deriving DecidableEq, Repr

/-- The answer to an event, and the keypad after it. -/
def handle (p : Keypad) : Event → Except Fault Unit × Keypad
  | .press index pressed =>
    match p.press index pressed with
    | .ok p' => (.ok (), p')
    | .error fault => (.error fault, p)
  | .set key pressed => (.ok (), p.set key pressed)
  | .clear => (.ok (), released)

/-- The keypad after events in order, also after refused ones. -/
def handleAll (p : Keypad) (events : List Event) : Keypad :=
  events.foldl (fun p event => (p.handle event).2) p

/-- The state that an event gives to the key of a number, if it gives it one. Clearing puts every
key up. -/
def Event.state? (number : Nat) : Event → Option Bool
  | .press index pressed => if index.toNat = number then some pressed else none
  | .set key pressed => if key.val = number then some pressed else none
  | .clear => some false

/-- The state that events gave to the key of a number last, or up. -/
def lastState (events : List Event) (number : Nat) : Bool :=
  (events.filterMap (Event.state? number)).getLast?.getD false

/-- No key is given a state by both of two events. -/
def Event.Apart (event event' : Event) : Prop :=
  ∀ key : Key, event.state? key = none ∨ event'.state? key = none

instance (event event' : Event) : Decidable (event.Apart event') :=
  inferInstanceAs (Decidable (∀ key : Key, event.state? key = none ∨ event'.state? key = none))

/-- The keypad after keys are put down in order. -/
def pressAll (p : Keypad) (keys : List Key) : Keypad := p.handleAll (keys.map (.set · true))

/-- Whether the mask has a bit, looked up by another mask. -/
def hasBit (p : Keypad) (key : Key) : Bool := p.bits &&& 1#16 <<< key.val ≠ 0

/-- The number of zeros below the lowest bit of the mask, if it has one. -/
def trailing? (p : Keypad) : Option UInt8 :=
  if p.bits = 0 then none else some (UInt8.ofNat p.bits.ctz.toNat)

variable {p : Keypad}

/-! ## Masks -/

/-- A keypad is determined by its keys. -/
theorem ext_isDown {p q : Keypad} (same : ∀ key, p.isDown key = q.isDown key) : p = q := by
  obtain ⟨bits⟩ := p
  obtain ⟨bits'⟩ := q
  exact congrArg mk (BitVec.eq_of_getLsbD_eq fun number inside => same ⟨number, inside⟩)

theorem isDown_released (key : Key) : released.isDown key = false := BitVec.getLsbD_zero

theorem hasBit_eq (p : Keypad) (key : Key) : p.hasBit key = p.isDown key := by
  have bit : BitVec.twoPow 16 key.val ≠ 0#16 := by
    intro zero
    have set := congrArg (·.getLsbD key.val) zero
    simp at set
  rw [hasBit, ← BitVec.twoPow_eq, BitVec.and_twoPow, isDown]
  cases p.bits.getLsbD key.val
  · rfl
  · exact decide_eq_true bit

theorem bits_eq_zero_iff : p.bits = 0 ↔ ∀ key, p.isDown key = false := by
  constructor
  · intro zero key
    rw [isDown, zero]
    exact BitVec.getLsbD_zero
  · intro up
    exact BitVec.eq_of_getLsbD_eq fun number inside =>
      (up ⟨number, inside⟩).trans BitVec.getLsbD_zero.symm

/-! ## The least key -/

/-- No key is the least that is down exactly if none is down. -/
theorem lowest?_eq_none (p : Keypad) : p.lowest? = none ↔ ∀ key, p.isDown key = false := by
  unfold lowest?
  rw [List.find?_eq_none]
  constructor
  · intro up key
    exact Bool.eq_false_iff.mpr (up key (List.mem_finRange key))
  · intro up key _
    exact Bool.eq_false_iff.mp (up key)

theorem lowest?_eq_some_iff {key : Key} :
    p.lowest? = some key ↔ p.isDown key = true ∧ ∀ other < key, p.isDown other = false := by
  rw [lowest?, List.find?_eq_some_iff_getElem]
  refine and_congr_right fun _ => ?_
  constructor
  · rintro ⟨i, inside, rfl, below⟩ other less
    simpa using below other.val (by simpa [Fin.lt_def] using less)
  · intro below
    refine ⟨key.val, by simp, by simp, fun j less => ?_⟩
    simpa using below ⟨j, Nat.lt_trans less key.isLt⟩ less

/-- Below the bit of the least key there are as many zeros as its number says. -/
theorem lowest?_eq_trailing? (p : Keypad) : p.lowest?.map Key.toByte = p.trailing? := by
  unfold trailing?
  split
  · next zero => rw [(lowest?_eq_none p).mpr (bits_eq_zero_iff.mp zero), Option.map_none]
  · next some_bit =>
    have bit : p.bits.getLsbD p.bits.ctz.toNat = true :=
      BitVec.getLsbD_true_ctz_of_ne_zero some_bit
    have least : p.lowest? = some ⟨p.bits.ctz.toNat, BitVec.lt_of_getLsbD bit⟩ :=
      lowest?_eq_some_iff.mpr ⟨bit, fun other less => BitVec.getLsbD_false_of_lt_ctz less⟩
    rw [least, Option.map_some]
    rfl

/-! ## Events -/

theorem press_eq (p : Keypad) (index : UInt8) (pressed : Bool) :
    p.press index pressed = if h : index.toNat < 16 then .ok (p.set ⟨index.toNat, h⟩ pressed)
      else .error (.badKeyIndex index) := by
  unfold press Key.ofIndex
  split <;> rfl

theorem isPressed_eq (p : Keypad) (index : UInt8) :
    p.isPressed index = if h : index.toNat < 16 then .ok (p.isDown ⟨index.toNat, h⟩)
      else .error (.badKeyIndex index) := by
  unfold isPressed Key.ofIndex
  split <;> rfl

theorem isDown_handle (p : Keypad) (event : Event) (key : Key) :
    (p.handle event).2.isDown key = (event.state? key).getD (p.isDown key) := by
  cases event with
  | press index pressed =>
    simp only [handle, press_eq, Event.state?]
    by_cases inside : index.toNat < 16
    · simp only [dif_pos inside, isDown_set, Fin.ext_iff, eq_comm]
      split <;> rfl
    · -- A number that is refused is that of no key, so `state?` gives nothing either.
      have other : index.toNat ≠ key.val := fun same => inside (same ▸ key.isLt)
      simp only [dif_neg inside, if_neg other, Option.getD_none]
  | set target pressed =>
    simp only [handle, Event.state?, isDown_set, Fin.ext_iff, eq_comm]
    split <;> rfl
  | clear => exact isDown_released key

theorem isDown_handleAll (p : Keypad) (events : List Event) (key : Key) :
    (p.handleAll events).isDown key =
      (events.filterMap (Event.state? key)).getLast?.getD (p.isDown key) := by
  induction events generalizing p with
  | nil => rfl
  | cons event events ih =>
    refine (ih (p.handle event).2).trans ?_
    rw [isDown_handle]
    cases given : event.state? key with
    | none => rw [List.filterMap_cons_none given, Option.getD_none]
    | some pressed =>
      rw [List.filterMap_cons_some given, List.getLast?_cons]
      rfl

theorem isDown_handleAll_released (events : List Event) (key : Key) :
    (released.handleAll events).isDown key = lastState events key := by
  rw [isDown_handleAll, isDown_released]
  rfl

/-- The answer to an event does not depend on the keypad. -/
theorem fst_handle_press (p : Keypad) (index : UInt8) (pressed : Bool) :
    (p.handle (.press index pressed)).1 =
      if index.toNat < 16 then .ok () else .error (.badKeyIndex index) := by
  simp only [handle, press_eq]
  by_cases inside : index.toNat < 16
  · simp only [dif_pos inside, if_pos inside]
  · simp only [dif_neg inside, if_neg inside]

theorem handle_snd_of_error {event : Event} {fault : Fault}
    (refused : (p.handle event).1 = .error fault) : (p.handle event).2 = p := by
  cases event with
  | press index pressed =>
    cases result : p.press index pressed <;> simp only [handle, result] at refused ⊢
    cases refused
  | set key pressed | clear => cases refused

/-! ## Order -/

theorem handle_comm {event event' : Event} (apart : event.Apart event') (p : Keypad) :
    ((p.handle event).2.handle event').2 = ((p.handle event').2.handle event).2 := by
  refine ext_isDown fun key => ?_
  simp only [isDown_handle]
  rcases apart key with unsaid | unsaid <;> rw [unsaid] <;> rfl

theorem handle_handle (p : Keypad) (event : Event) :
    ((p.handle event).2.handle event).2 = (p.handle event).2 := by
  refine ext_isDown fun key => ?_
  simp only [isDown_handle]
  cases event.state? key <;> rfl

/-! ## Keys held down -/

theorem isDown_pressAll (p : Keypad) (keys : List Key) (key : Key) :
    (p.pressAll keys).isDown key = true ↔ key ∈ keys ∨ p.isDown key = true := by
  induction keys generalizing p with
  | nil => simp [pressAll, handleAll]
  | cons first keys ih =>
    refine (ih (p.set first true)).trans ?_
    rw [isDown_set, List.mem_cons]
    split
    · next same => simp [same]
    · next other => simp [other]

/-- Neither their order nor how often they are put down matters. -/
theorem pressAll_congr {keys keys' : List Key} (same : ∀ key, key ∈ keys ↔ key ∈ keys')
    (p : Keypad) : p.pressAll keys = p.pressAll keys' := by
  refine ext_isDown fun key => Bool.eq_iff_iff.mpr ?_
  rw [isDown_pressAll, isDown_pressAll, same]

end Keypad

namespace CommandLine

/-- Holding keys puts them down and does nothing else. -/
theorem hold_eq (s : Session) (keys : List Key) :
    hold s keys =
      { s with machine := { s.machine with keypad := s.machine.keypad.pressAll keys } } := by
  induction keys generalizing s with
  | nil => rfl
  | cons first keys ih => exact ih { s with machine := s.machine.setKey first true }

end CommandLine

namespace Keypad

/-! ## All answers -/

/-- After any events on a new keypad, an event is refused exactly if it names a number above F, and
then changes nothing; so is a question, and else its answer is the state that the key was given
last. The least key that is down is the lowest bit of the mask, and the mask has a bit for each key
that is down. Events that say nothing of the same key can change places, one that is repeated
changes nothing, and keys that are put down are the same in any order, also those that a run
holds. -/
theorem keypad_tells_last_states (events : List Event) :
    let p := released.handleAll events
    (∀ index pressed, (p.handle (.press index pressed)).1 =
      if index.toNat < 16 then .ok () else .error (.badKeyIndex index)) ∧
    (∀ index, p.isPressed index =
      if index.toNat < 16 then .ok (lastState events index.toNat)
      else .error (.badKeyIndex index)) ∧
    (∀ event fault, (p.handle event).1 = .error fault → (p.handle event).2 = p) ∧
    (∀ key, p.lowest? = some key ↔
      lastState events key = true ∧ ∀ other < key, lastState events other = false) ∧
    (p.lowest? = none ↔ ∀ key : Key, lastState events key = false) ∧
    p.lowest?.map Key.toByte = p.trailing? ∧
    (∀ key : Key, p.isPressed key.toByte = .ok (p.bits.getLsbD key) ∧
      p.hasBit key = p.bits.getLsbD key ∧
      ∀ pressed, p.handle (.press key.toByte pressed) = p.handle (.set key pressed)) ∧
    (∀ event event', event.Apart event' →
      ((p.handle event).2.handle event').2 = ((p.handle event').2.handle event).2) ∧
    (∀ event, ((p.handle event).2.handle event).2 = (p.handle event).2) ∧
    ∀ keys keys', (∀ key, key ∈ keys ↔ key ∈ keys') →
      p.pressAll keys = p.pressAll keys' ∧
      ∀ s, CommandLine.hold s keys = CommandLine.hold s keys' := by
  intro p
  have state (key : Key) : p.isDown key = lastState events key :=
    isDown_handleAll_released events key
  refine ⟨p.fst_handle_press, fun index => ?_, fun event fault => handle_snd_of_error,
    fun key => ?_, ?_, p.lowest?_eq_trailing?, fun key => ⟨?_, p.hasBit_eq key, fun pressed => ?_⟩,
    fun event event' apart => handle_comm apart p, p.handle_handle,
    fun keys keys' same => ⟨pressAll_congr same p, fun s => ?_⟩⟩
  · rw [isPressed_eq]
    by_cases inside : index.toNat < 16
    · rw [dif_pos inside, if_pos inside, state]
    · rw [dif_neg inside, if_neg inside]
  · simp only [lowest?_eq_some_iff, state]
  · simp only [lowest?_eq_none, state]
  · rw [isPressed, Key.ofIndex_toByte]
    rfl
  · simp only [handle, press, Key.ofIndex_toByte]
    rfl
  · rw [CommandLine.hold_eq, CommandLine.hold_eq, pressAll_congr same]

/-- Two keys down of three that went down, a number that is refused, and keys in two orders. -/
theorem keypad_tells_last_states_released :
    let p := released.handleAll
      [.press 9 true, .set 3 true, .press 16 true, .press 0xC true, .set 3 false]
    p.isPressed 3 = .ok false ∧ p.isPressed 0xC = .ok true ∧ p.lowest? = some 9 ∧
      p.trailing? = some 9 ∧
      (p.handle (.press 16 true)).1 = .error (.badKeyIndex 16) ∧
      (p.handle (.press 16 true)).2 = p ∧
      (Event.set 3 true).Apart (.press 9 false) ∧
      ((p.handle (.set 3 true)).2.handle (.press 9 false)).2 =
        ((p.handle (.press 9 false)).2.handle (.set 3 true)).2 ∧
      p.pressAll [1, 2, 1] = p.pressAll [2, 1] := by
  intro p
  obtain ⟨answers, states, unchanged, least, -, trailing, -, swap, -, held⟩ :=
    keypad_tells_last_states
      [.press 9 true, .set 3 true, .press 16 true, .press 0xC true, .set 3 false]
  have nine : p.lowest? = some 9 := (least 9).mpr (by decide)
  have apart : (Event.set 3 true).Apart (.press 9 false) := by decide
  refine ⟨states 3, states 0xC, nine, ?_, answers 16 true, unchanged _ _ (answers 16 true), apart,
    swap _ _ apart, (held [1, 2, 1] [2, 1] (by decide)).1⟩
  rw [← trailing, nine]
  rfl

end Keypad

end Chip8
