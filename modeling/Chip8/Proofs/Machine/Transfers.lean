import Chip8.Proofs.Machine.Profiles
import Chip8.Proofs.Machine.Writes

/-!
# Registers in memory

What a tick leaves that stores registers, loads them or writes decimal digits, if memory has room
for all of it. Bytes stay until something writes to them, so registers that were stored come back
when they are loaded from the same index, and stores that the index is moved along fill memory one
after the other, to be loaded in the same order.

Results:
1. `stored_tick`, `loaded_tick`, `spelled_tick`: the state after each of the ticks.
2. `registers_return`: registers that were stored and are loaded again.
3. `Path.index_transfers`: where the index is at each of several transfers.
4. `Path.holds_stores`, `Path.registers_loads`: what several stores leave in memory, and what as
   many loads bring back.
5. `stored_registers_return`: all of it.
-/

namespace Chip8

/-! ## Definitions -/

/-- The two ways to transfer registers. -/
inductive Transfer
  | store
  | load
  deriving DecidableEq, Repr

/-- The instruction that transfers the registers up to `x`. -/
def Transfer.instruction : Transfer → Register → Instruction
  | store => .storeRegisters
  | load => .loadRegisters

/-- The last register that an instruction transfers, if it does so in this way. -/
def Transfer.last? : Transfer → Instruction → Option Register
  | store, .storeRegisters x => some x
  | load, .loadRegisters x => some x
  | _, _ => none

namespace Machine

/-- How far the index is moved by a transfer of the registers up to `x`. -/
def stride (m : Machine) (x : Register) : Nat := if m.profile.advanceIndex then x + 1 else 0

/-- The state after the registers up to `x` were stored. -/
structure Stored (m : Machine) (x : Register) (after : Machine) : Prop where
  bytes : ∀ k : Register, k ≤ x → after.memory.read (m.index.toNat + k) = .ok (m.register k)
  others : ∀ address, address < m.index.toNat ∨ m.index.toNat + x < address →
    after.memory.read address = m.memory.read address
  index : after.index.toNat = m.index.toNat + m.stride x
  state : after = { m with pc := m.pc + 2, memory := after.memory, index := after.index }

/-- The state after the registers up to `x` were loaded. -/
structure Loaded (m : Machine) (x : Register) (after : Machine) : Prop where
  registers : ∀ k : Register, k ≤ x → m.memory.read (m.index.toNat + k) = .ok (after.register k)
  others : ∀ k : Register, x < k → after.register k = m.register k
  index : after.index.toNat = m.index.toNat + m.stride x
  state : after = { m with pc := m.pc + 2, registers := after.registers, index := after.index }

/-- The state after the decimal digits of a register were written. -/
structure Spelled (m : Machine) (x : Register) (after : Machine) : Prop where
  digits : ∃ h t o : UInt8, h ≤ 9 ∧ t ≤ 9 ∧ o ≤ 9 ∧
    100 * h.toNat + 10 * t.toNat + o.toNat = (m.register x).toNat ∧
    after.memory.read m.index.toNat = .ok h ∧ after.memory.read (m.index.toNat + 1) = .ok t ∧
    after.memory.read (m.index.toNat + 2) = .ok o
  others : ∀ address, address < m.index.toNat ∨ m.index.toNat + 2 < address →
    after.memory.read address = m.memory.read address
  state : after = { m with pc := m.pc + 2, memory := after.memory }

/-- The transfers of one way among ticks, in order: the machines that they act on and the last
register of each. -/
def transfers (way : Transfer) (ticks : List Machine) : List (Machine × Register) :=
  ticks.filterMap fun m => (m.instruction?.bind way.last?).map fun x => (m, x)

/-- The number of registers in transfers. -/
def span : List (Machine × Register) → Nat
  | [] => 0
  | (_, x) :: ts => x + 1 + span ts

/-- Operations, with the ticks that they make, during which only the transfers of one way move the
index. -/
structure Serial (way : Transfer) (ops : List Operation) (ticks : List Machine) : Prop where
  lasts : ∀ op ∈ ops, op.restarts = false
  steady : ∀ y ∈ ticks, (∀ x, y.instruction? ≠ some (way.instruction x)) →
    y.tick.2.index = y.index

/-- Operations, with the ticks that they make, during which only the transfers of one way write
from an address on to before another. -/
structure Alone (way : Transfer) (first last : Nat) (ops : List Operation)
    (ticks : List Machine) : Prop where
  unfilled : ∀ op ∈ ops, ∀ address, first ≤ address → address < last → ¬ op.Fills address
  unwritten : ∀ y ∈ ticks, (∀ x, y.instruction? ≠ some (way.instruction x)) →
    ∀ address, first ≤ address → address < last → ¬ y.Writes address

/-- Neither operations nor their ticks write from an address on to before another. -/
def Spares (m : Machine) (first last : Nat) (ops : List Operation) : Prop :=
  ∀ address, first ≤ address → address < last →
    (∀ op ∈ ops, ¬ op.Fills address) ∧ ∀ y ∈ m.tickedByAll ops, ¬ y.Writes address

/-- Stores take place inside memory, one after the other from the index on. -/
def Places (m : Machine) (stores : List (Machine × Register)) : Prop :=
  ∀ j s x, stores[j]? = some (s, x) →
    s.index.toNat = m.index.toNat + span (stores.take j) ∧ s.index.toNat + x.val < 4096

/-- The bytes at the index of another machine are the registers up to `x` of that machine. -/
def Holds (m s : Machine) (x : Register) : Prop :=
  ∀ k : Register, k ≤ x → m.memory.read (s.index.toNat + k) = .ok (s.register k)

/-- The next tick gives the registers up to `x` the values that they have on another machine. -/
def Recalls (m s : Machine) (x : Register) : Prop :=
  m.tick.1 = .ok .proceed ∧ ∀ k : Register, k ≤ x → m.tick.2.register k = s.register k

variable {m m' : Machine} {x : Register} {i : Instruction} {ops : List Operation}

/-! ## Ticks -/

theorem toNat_index_of_inside (inside : m.index.toNat + x < 4096) :
    (if m.profile.advanceIndex then m.index + UInt16.ofNat (x + 1) else m.index).toNat =
      m.index.toNat + m.stride x := by
  unfold stride
  split
  · have count : (UInt16.ofNat (x + 1)).toNat = x + 1 :=
      UInt16.toNat_ofNat_of_lt' (Nat.lt_of_le_of_lt x.isLt (by decide))
    rw [UInt16.toNat_add, count, Nat.mod_eq_of_lt (by omega)]
  · rfl

theorem length_firstRegisters (m : Machine) (x : Register) :
    (m.registers.toList.take (x + 1)).length = x + 1 := by
  rw [List.length_take, Vector.length_toList]
  omega

/-- A store for which there is memory is complete. -/
theorem stored_tick (code : m.instruction? = some (.storeRegisters x))
    (inside : m.index.toNat + x < 4096) : m.tick.1 = .ok .proceed ∧ m.Stored x m.tick.2 := by
  have length := length_firstRegisters m x
  have whole : (m.memory.writeEach m.index.toNat (m.registers.toList.take (x + 1))).2 = none := by
    rw [Memory.writeEach_snd, length, if_pos (.inl inside)]
  have written := overwrites_writeEach m.memory m.index.toNat (m.registers.toList.take (x + 1))
  rw [tick_of_instruction? code]
  simp only [execute, storeRegisters_eq, advance, whole, transferred, Option.isNone_none, true_and]
  exact {
    bytes := fun k le => by
      have within : k.val < (m.registers.toList.take (x + 1)).length := by
        rw [length]
        exact Nat.lt_succ_of_le le
      rw [written.inside k within (by omega), List.getElem_take]
      rfl
    others := fun address outside => by
      refine written.outside address (outside.imp id fun above => ?_)
      rw [length]
      exact above
    index := toNat_index_of_inside inside
    state := rfl }

/-- A load for which there is memory is complete. -/
theorem loaded_tick (code : m.instruction? = some (.loadRegisters x))
    (inside : m.index.toNat + x < 4096) : m.tick.1 = .ok .proceed ∧ m.Loaded x m.tick.2 := by
  have whole : (m.memory.readEach m.index.toNat (x + 1)).2 = none := by
    rw [Memory.readEach_snd, if_pos (.inl inside)]
  have reloads := reloads_readEach m x
  rw [tick_of_instruction? code]
  simp only [execute, loadRegisters_eq, advance, whole, transferred, Option.isNone_none, true_and]
  exact {
    registers := fun k le => by
      have room : m.index.toNat + k < 4096 := Nat.lt_of_le_of_lt (Nat.add_le_add_left le _) inside
      have read := Memory.read_of_lt (m := m.memory) room
      rw [read]
      exact congrArg Except.ok (reloads.loaded k le _ read).symm
    others := fun k above => reloads.kept k (.inl above)
    index := toNat_index_of_inside inside
    state := rfl }

theorem spelled_tick (code : m.instruction? = some (.storeDecimal x))
    (inside : m.index.toNat + 2 < 4096) : m.tick.1 = .ok .proceed ∧ m.Spelled x m.tick.2 := by
  let digits := decimalDigits (m.register x)
  have whole : (m.memory.writeEach m.index.toNat digits).2 = none := by
    rw [Memory.writeEach_snd]
    exact if_pos (.inl inside)
  have written := overwrites_writeEach m.memory m.index.toNat digits
  have read (k : Nat) (three : k < 3) := written.inside k three (by omega)
  obtain ⟨hundreds, tens, ones, sum⟩ := decimalDigits_spell (m.register x)
  have ticked : m.tick = (.ok .proceed, { m with
      pc := m.pc + 2, memory := (m.memory.writeEach m.index.toNat digits).1 }) := by
    rw [tick_of_instruction? code, execute, storeDecimal_eq]
    exact congrArg (fun fault? => (transferred Flow.proceed fault?, _)) whole
  rw [ticked]
  exact ⟨rfl, {
    digits := ⟨_, _, _, hundreds, tens, ones, sum, read 0 (by decide), read 1 (by decide),
      read 2 (by decide)⟩
    others := fun address outside => written.outside address (outside.imp id id)
    state := rfl }⟩

/-- A transfer that does not fault stays in memory. -/
theorem inside_of_tick {way : Transfer} (code : m.instruction? = some (way.instruction x))
    (completes : ∀ fault, m.tick.1 ≠ .error fault) : m.index.toNat + x < 4096 := by
  by_contra beyond
  refine completes (.outOfBounds (max m.index.toNat 4096)) ?_
  rw [tick_of_instruction? code, execute_eq_error_iff]
  cases way with
  | store | load => exact ⟨Nat.le_of_not_lt beyond, rfl⟩

/-- Transfers of both ways move the index alike. -/
theorem index_tick_of_transfer {way : Transfer} (code : m.instruction? = some (way.instruction x))
    (inside : m.index.toNat + x < 4096) : m.tick.2.index.toNat = m.index.toNat + m.stride x := by
  cases way with
  | store => exact (stored_tick code inside).2.index
  | load => exact (loaded_tick code inside).2.index

/-! ## After a transfer -/

theorem Stored.executes {start k : Nat} {program : List UInt8} (stored : m.Stored x m')
    (execution : m.Executes start program k) (below : start + program.length ≤ m.index.toNat) :
    m'.Executes start program (k + 2) :=
  execution.next (fun _ _ high => stored.others _ (.inl (Nat.lt_of_lt_of_le high below)))
    (congrArg (fun n => n.pc) stored.state) (congrArg (fun n => n.keyWait) stored.state)

theorem Loaded.executes {start k : Nat} {program : List UInt8} (loaded : m.Loaded x m')
    (execution : m.Executes start program k) : m'.Executes start program (k + 2) :=
  execution.next (fun address _ _ => congrArg (fun n => n.memory.read address) loaded.state)
    (congrArg (fun n => n.pc) loaded.state) (congrArg (fun n => n.keyWait) loaded.state)

/-- Registers that were stored come back, as long as nothing writes to their bytes. -/
theorem registers_return {before after : List Machine} {l : Machine}
    (stored : m.instruction? = some (.storeRegisters x)) (inside : m.index.toNat + x < 4096)
    (trace : m.tick.2.tickedByAll ops = before ++ l :: after)
    (loaded : l.instruction? = some (.loadRegisters x)) (index : l.index = m.index)
    (spared : ∀ address, m.index.toNat ≤ address → address ≤ m.index.toNat + x →
      (∀ op ∈ ops, ¬ op.Fills address) ∧ ∀ y ∈ before, ¬ y.Writes address) :
    l.Recalls m x := by
  have path := Path.of_operations m.tick.2 ops
  rw [trace] at path
  obtain ⟨complete, reloaded⟩ := loaded_tick loaded (by rwa [index])
  refine ⟨complete, fun k le => ?_⟩
  obtain ⟨unfilled, unwritten⟩ := spared (m.index.toNat + k) (Nat.le_add_right _ _)
    (Nat.add_le_add_left le _)
  have byte := reloaded.registers k le
  rw [index, (path.split.1.read unfilled unwritten).1] at byte
  exact Except.ok.inj (byte.symm.trans ((stored_tick stored inside).2.bytes k le))

/-! ## Transfers among ticks -/

variable {way : Transfer} {first last : Nat} {xs : List Machine}

theorem last?_eq_some_iff : way.last? i = some x ↔ i = way.instruction x := by
  cases way with
  | store | load => cases i <;> simp [Transfer.last?, Transfer.instruction]

theorem bind_last?_eq_some_iff :
    m.instruction?.bind way.last? = some x ↔ m.instruction? = some (way.instruction x) := by
  simp only [Option.bind_eq_some_iff, last?_eq_some_iff, exists_eq_right]

/-- The next tick is a transfer, or it is none. -/
theorem transfer_or_not (way : Transfer) (m : Machine) :
    (∃ x, m.instruction? = some (way.instruction x)) ∨
      ∀ x, m.instruction? ≠ some (way.instruction x) :=
  (Classical.em _).imp_right not_exists.mp

theorem transfers_cons_of_other (other : ∀ x, m.instruction? ≠ some (way.instruction x)) :
    transfers way (m :: xs) = transfers way xs := by
  refine List.filterMap_cons_none ?_
  rw [Option.map_eq_none_iff, Option.eq_none_iff_forall_ne_some]
  exact fun x code => other x (bind_last?_eq_some_iff.mp code)

theorem transfers_cons_of_transfer (code : m.instruction? = some (way.instruction x)) :
    transfers way (m :: xs) = (m, x) :: transfers way xs :=
  List.filterMap_cons_some (by rw [bind_last?_eq_some_iff.mpr code, Option.map_some])

theorem mem_transfers {y : Machine} :
    (y, x) ∈ transfers way xs ↔ y ∈ xs ∧ y.instruction? = some (way.instruction x) := by
  simp only [transfers, List.mem_filterMap, Option.map_eq_some_iff, bind_last?_eq_some_iff,
    Prod.mk.injEq]
  constructor
  · rintro ⟨_, mem, _, code, rfl, rfl⟩
    exact ⟨mem, code⟩
  · rintro ⟨mem, code⟩
    exact ⟨y, mem, x, code, rfl, rfl⟩

theorem span_congr {ts us : List (Machine × Register)}
    (same : ts.map Prod.snd = us.map Prod.snd) : span ts = span us := by
  induction ts generalizing us with
  | nil => rw [List.map_eq_nil_iff.mp same.symm]
  | cons t ts ih =>
    obtain ⟨u, us, rfl, last, rest⟩ := List.map_eq_cons_iff.mp same.symm
    rw [span, span, last, ih rest.symm]

/-- The registers of a transfer and of those before it are among all of them. -/
theorem span_take_add_le {ts : List (Machine × Register)} {j : Nat} (here : ts[j]? = some (m, x)) :
    span (ts.take j) + (x + 1) ≤ span ts := by
  induction ts generalizing j with
  | nil => cases here
  | cons t ts ih =>
    cases j with
    | zero =>
      obtain rfl : t = (m, x) := Option.some.inj here
      rw [span, List.take_zero]
      exact Nat.le_trans (Nat.le_of_eq (Nat.zero_add _)) (Nat.le_add_right _ _)
    | succ j =>
      rw [List.take_succ_cons, span, span, Nat.add_assoc]
      exact Nat.add_le_add_left (ih here) _

/-! ## One transfer after the other -/

theorem Serial.tail {y : Machine} (serial : Serial way ops (y :: xs)) : Serial way ops xs where
  lasts := serial.lasts
  steady z mem := serial.steady z (List.mem_cons_of_mem _ mem)

theorem Alone.tail {y : Machine} (alone : Alone way first last ops (y :: xs)) :
    Alone way first last ops xs where
  unfilled := alone.unfilled
  unwritten z mem := alone.unwritten z (List.mem_cons_of_mem _ mem)

theorem Serial.index_between {n n' : Machine} (serial : Serial way ops xs)
    (change : Between ops n n') : n'.index = n.index ∧ n'.profile = n.profile := by
  obtain @⟨op, mem, quiet⟩ := change
  have lasts := serial.lasts op mem
  have index : n.Keeps (n.apply op).2 .index :=
    keeps_apply_of_quiet lasts quiet (by cases op <;> exact id)
  have profile : n.Keeps (n.apply op).2 .profile :=
    keeps_apply_of_quiet lasts quiet (by cases op <;> exact id)
  exact ⟨index, profile⟩

/-- Only a transfer can write to the bytes that are set apart. -/
theorem Alone.not_writes {y : Machine} {address : Nat} (alone : Alone way first last ops xs)
    (mem : y ∈ xs) (low : first ≤ address) (high : address < last)
    (spared : ∀ x, y.instruction? = some (way.instruction x) →
      ¬ y.Touches (way.instruction x) (.byte address)) : ¬ y.Writes address := by
  rcases transfer_or_not way y with ⟨x, transfer⟩ | other
  · exact Machine.not_writes transfer (spared x transfer)
  · exact alone.unwritten y mem other address low high

theorem advanceIndex_tick (m : Machine) :
    m.tick.2.profile.advanceIndex = m.profile.advanceIndex := by
  have kept : m.Keeps m.tick.2 .profile := keeps_tick_of_surrounds rfl
  exact congrArg Profile.advanceIndex kept

/-- At each of several transfers the index has moved past the registers of those before it. To see
that a transfer is inside memory one may assume this of it. -/
theorem Path.index_transfers (path : Path (Between ops) m xs m')
    (serial : Serial way ops xs) (moves : m.profile.advanceIndex = true)
    (inside : ∀ j y x, (transfers way xs)[j]? = some (y, x) →
      y.index.toNat = m.index.toNat + span ((transfers way xs).take j) →
      y.index.toNat + x.val < 4096) :
    ∀ j y x, (transfers way xs)[j]? = some (y, x) →
      y.index.toNat = m.index.toNat + span ((transfers way xs).take j) := by
  induction path with
  | nil =>
    intro j y x here
    cases here
  | @other m n m' xs change path ih =>
    obtain ⟨index, profile⟩ := serial.index_between change
    rw [← index] at inside ⊢
    exact ih serial (profile ▸ moves) inside
  | @tick m m' xs path ih =>
    have moves' : m.tick.2.profile.advanceIndex = true := (advanceIndex_tick m).trans moves
    rcases transfer_or_not way m with ⟨x, code⟩ | other
    · rw [transfers_cons_of_transfer code] at inside ⊢
      have index := index_tick_of_transfer code (inside 0 m x rfl rfl)
      rw [stride, if_pos moves] at index
      have further (j : Nat) : m.index.toNat + span ((m, x) :: (transfers way xs).take j) =
          m.tick.2.index.toNat + span ((transfers way xs).take j) := by
        rw [span, index]
        exact (Nat.add_assoc _ _ _).symm
      have rest := ih serial.tail moves' fun j y x' later there => by
        refine inside (j + 1) y x' later ?_
        rw [List.take_succ_cons, further, there]
      intro j y x' here
      cases j with
      | zero =>
        obtain ⟨rfl, rfl⟩ := Prod.mk.inj (Option.some.inj here)
        rfl
      | succ j => rw [List.take_succ_cons, further, rest j y x' here]
    · rw [transfers_cons_of_other other] at inside ⊢
      rw [← serial.steady m List.mem_cons_self other] at inside ⊢
      exact ih serial.tail moves' inside

theorem Path.places_stores (path : Path (Between ops) m xs m')
    (serial : Serial .store ops xs) (moves : m.profile.advanceIndex = true)
    (complete : ∀ s ∈ transfers .store xs, ∀ fault, s.1.tick.1 ≠ .error fault) :
    m.Places (transfers .store xs) := by
  have inside (j : Nat) (y : Machine) (x : Register)
      (here : (transfers .store xs)[j]? = some (y, x)) : y.index.toNat + x.val < 4096 := by
    have mem := List.mem_of_getElem? here
    exact inside_of_tick (mem_transfers.mp mem).2 (complete _ mem)
  have index := path.index_transfers serial moves fun j y x here _ => inside j y x here
  exact fun j y x here => ⟨index j y x here, inside j y x here⟩

theorem Places.within {ss : List (Machine × Register)} {s : Machine} (placed : m.Places ss)
    (mem : (s, x) ∈ ss) :
    m.index.toNat ≤ s.index.toNat ∧ s.index.toNat + x < m.index.toNat + span ss := by
  obtain ⟨j, here⟩ := List.mem_iff_getElem?.mp mem
  have place := (placed j s x here).1
  have length := span_take_add_le here
  omega

/-- No two of several stores that do not fault share a byte, so that all of them are in memory at
the end. -/
theorem Path.holds_stores (path : Path (Between ops) m xs m')
    (serial : Serial .store ops xs) (alone : Alone .store first last ops xs)
    (moves : m.profile.advanceIndex = true)
    (complete : ∀ s ∈ transfers .store xs, ∀ fault, s.1.tick.1 ≠ .error fault)
    (low : first ≤ m.index.toNat) (high : m.index.toNat + span (transfers .store xs) ≤ last) :
    ∀ s x, (s, x) ∈ transfers .store xs → m'.Holds s x := by
  induction path with
  | nil =>
    intro s x mem
    cases mem
  | @other m n m' xs change path ih =>
    obtain ⟨index, profile⟩ := serial.index_between change
    rw [← index] at low high
    exact ih serial alone (profile ▸ moves) complete low high
  | @tick m m' xs path ih =>
    have moves' : m.tick.2.profile.advanceIndex = true := (advanceIndex_tick m).trans moves
    rcases transfer_or_not .store m with ⟨x, code⟩ | other
    · rw [transfers_cons_of_transfer code] at complete high ⊢
      rw [span] at high
      rw [List.forall_mem_cons] at complete
      have here := inside_of_tick code complete.1
      have index := index_tick_of_transfer code here
      rw [stride, if_pos moves] at index
      have placed := path.places_stores serial.tail moves' complete.2
      have rest := ih serial.tail alone.tail moves' complete.2 (by omega) (by omega)
      intro s x' mem
      rcases List.mem_cons.mp mem with same | mem
      · cases same
        intro k le
        have below : k.val ≤ x.val := le
        refine (path.read ?_ ?_).1.trans ((stored_tick code here).2.bytes k le)
        · exact fun op mem => alone.unfilled op mem _ (by omega) (by omega)
        · refine fun y mem => alone.tail.not_writes mem (by omega) (by omega) ?_
          intro x' code' touches
          have further := placed.within (mem_transfers.mpr ⟨mem, code'⟩)
          have reached : y.index.toNat ≤ m.index.toNat + k := touches.1
          omega
      · exact rest s x' mem
    · rw [transfers_cons_of_other other] at complete high ⊢
      rw [← serial.steady m List.mem_cons_self other] at low high
      exact ih serial.tail alone.tail moves' complete low high

theorem Holds.spared {s : Machine} (held : m.Holds s x)
    (within : first ≤ s.index.toNat ∧ s.index.toNat + x < last) (spared : m.Spares first last ops) :
    (m.applyAll ops).2.Holds s x := by
  intro k le
  have below : k.val ≤ x.val := le
  obtain ⟨unfilled, unwritten⟩ := spared (s.index.toNat + k) (by omega) (by omega)
  exact ((Path.of_operations m ops).read unfilled unwritten).1.trans (held k le)

/-- Where transfers are of as many registers as others, one of them has a counterpart, with as many
registers before it. -/
theorem exists_of_prefix {ss ls : List (Machine × Register)} {j : Nat} {l : Machine}
    (same : ls.map Prod.snd <+: ss.map Prod.snd) (here : ls[j]? = some (l, x)) :
    ∃ s, ss[j]? = some (s, x) ∧ span (ls.take j) = span (ss.take j) := by
  obtain ⟨more, split⟩ := same
  have before : j < (ls.map Prod.snd).length := by
    rw [List.length_map]
    exact (List.getElem?_eq_some_iff.mp here).1
  have counterpart : (ss.map Prod.snd)[j]? = some x := by
    rw [← split, List.getElem?_append_left before, List.getElem?_map, here, Option.map_some]
  rw [List.getElem?_map, Option.map_eq_some_iff] at counterpart
  obtain ⟨⟨s, _⟩, there, rfl⟩ := counterpart
  refine ⟨s, there, span_congr ?_⟩
  rw [List.map_take, List.map_take, ← split,
    List.take_append_of_le_length (Nat.le_of_lt before)]

/-- Loads of as many registers as were stored are where the stores were. -/
theorem Path.index_loads {ss : List (Machine × Register)} (path : Path (Between ops) m xs m')
    (serial : Serial .load ops xs) (moves : m.profile.advanceIndex = true)
    (same : (transfers .load xs).map Prod.snd <+: ss.map Prod.snd) (placed : m.Places ss) {j : Nat}
    {l : Machine} (here : (transfers .load xs)[j]? = some (l, x)) :
    ∃ s, ss[j]? = some (s, x) ∧ l.index.toNat = s.index.toNat ∧ l.index.toNat + x < 4096 := by
  have met (j : Nat) (l : Machine) (x : Register) (here : (transfers .load xs)[j]? = some (l, x))
      (index : l.index.toNat = m.index.toNat + span ((transfers .load xs).take j)) :
      ∃ s, ss[j]? = some (s, x) ∧ l.index.toNat = s.index.toNat ∧ l.index.toNat + x < 4096 := by
    obtain ⟨s, there, sizes⟩ := exists_of_prefix same here
    obtain ⟨place, inside⟩ := placed j s x there
    rw [sizes, ← place] at index
    exact ⟨s, there, index, by rwa [index]⟩
  refine met j l x here (path.index_transfers serial moves (fun j l x here index => ?_) j l x here)
  obtain ⟨_, _, _, inside⟩ := met j l x here index
  exact inside

/-- Where memory holds the registers of stores one after the other, loads of as many registers are
complete and bring them back. -/
theorem Path.registers_loads {ss : List (Machine × Register)} (path : Path (Between ops) m xs m')
    (serial : Serial .load ops xs)
    (alone : Alone .load m.index.toNat (m.index.toNat + span ss) ops xs)
    (moves : m.profile.advanceIndex = true)
    (same : (transfers .load xs).map Prod.snd <+: ss.map Prod.snd) (placed : m.Places ss)
    (held : ∀ s x, (s, x) ∈ ss → m.Holds s x) {j : Nat} {l : Machine}
    (here : (transfers .load xs)[j]? = some (l, x)) :
    ∃ s, ss[j]? = some (s, x) ∧ l.Recalls s x := by
  obtain ⟨s, there, index, inside⟩ := path.index_loads serial moves same placed here
  obtain ⟨ticked, code⟩ := mem_transfers.mp (List.mem_of_getElem? here)
  obtain ⟨proceeds, loaded⟩ := loaded_tick code inside
  refine ⟨s, there, proceeds, fun k le => ?_⟩
  have below : k.val ≤ x.val := le
  have place := (placed j s x there).1
  have within := span_take_add_le there
  have low : m.index.toNat ≤ s.index.toNat + k := by omega
  have high : s.index.toNat + k < m.index.toNat + span ss := by omega
  have kept : l.memory.read (s.index.toNat + k) = m.memory.read (s.index.toNat + k) := by
    refine (path.read (fun op mem => alone.unfilled op mem _ low high) ?_).2 l ticked
    exact fun y mem => alone.not_writes mem low high fun _ _ => id
  have byte := loaded.registers k le
  rw [index, kept, held s x (List.mem_of_getElem? there) k le] at byte
  exact (Except.ok.inj byte).symm

theorem Serial.of_transfers (ticks : ops.all Operation.makesTicks = true)
    (all : ∀ y ∈ xs, ∃ x, y.instruction? = some (way.instruction x)) : Serial way ops xs where
  lasts op mem := restarts_of_makesTicks (List.all_eq_true.mp ticks op mem)
  steady y mem other := absurd (all y mem) (not_exists.mpr other)

theorem Alone.of_transfers (ticks : ops.all Operation.makesTicks = true)
    (all : ∀ y ∈ xs, ∃ x, y.instruction? = some (way.instruction x)) :
    Alone way first last ops xs where
  unfilled _ mem _ _ _ := not_fills_of_all ticks mem
  unwritten y mem other := absurd (all y mem) (not_exists.mpr other)

/-! ## Transfers -/

/-- What transfers do for which there is memory. A store copies the first registers to the bytes at
the index, a load copies these bytes to the registers, decimal digits are written for a register,
and nothing else changes but the index, if the profile moves it, and the program counter.

Registers that were stored come back with a load of as many registers from the same index, if
nothing wrote to their bytes in between. If the profile moves the index and nothing else does,
several stores fill memory one after the other. From where they began, loads of as many registers
as they stored, or the first of these loads, bring the registers back in the same order, if nothing
else wrote to their bytes. -/
theorem stored_registers_return (m : Machine) :
    (∀ x : Register, m.index.toNat + x < 4096 →
      (m.instruction? = some (.storeRegisters x) →
        m.tick.1 = .ok .proceed ∧ m.Stored x m.tick.2) ∧
      (m.instruction? = some (.loadRegisters x) →
        m.tick.1 = .ok .proceed ∧ m.Loaded x m.tick.2)) ∧
    (∀ x : Register, m.index.toNat + 2 < 4096 → m.instruction? = some (.storeDecimal x) →
      m.tick.1 = .ok .proceed ∧ m.Spelled x m.tick.2) ∧
    (∀ x : Register, m.instruction? = some (.storeRegisters x) → m.index.toNat + x < 4096 →
      ∀ ops before l after, m.tick.2.tickedByAll ops = before ++ l :: after →
        l.instruction? = some (.loadRegisters x) → l.index = m.index →
        (∀ address, m.index.toNat ≤ address → address ≤ m.index.toNat + x →
          (∀ op ∈ ops, ¬ op.Fills address) ∧ ∀ y ∈ before, ¬ y.Writes address) →
        l.Recalls m x) ∧
    (m.profile.advanceIndex = true → ∀ filling,
      let stores := transfers .store (m.tickedByAll filling)
      let last := m.index.toNat + span stores
      let full := (m.applyAll filling).2
      Serial .store filling (m.tickedByAll filling) →
      (∀ s ∈ stores, ∀ fault, s.1.tick.1 ≠ .error fault) →
      m.Places stores ∧ (∀ s x, (s, x) ∈ stores → s.Stored x s.tick.2) ∧
        (Alone .store m.index.toNat last filling (m.tickedByAll filling) →
          (∀ s x, (s, x) ∈ stores → full.Holds s x) ∧
            ∀ between emptying,
              let start := (full.applyAll between).2
              let loads := transfers .load (start.tickedByAll emptying)
              full.Spares m.index.toNat last between →
              Serial .load emptying (start.tickedByAll emptying) →
              Alone .load m.index.toNat last emptying (start.tickedByAll emptying) →
              start.index = m.index → loads.map Prod.snd <+: stores.map Prod.snd →
              ∀ (j : Nat) (l : Machine) (x : Register), loads[j]? = some (l, x) →
                ∃ s : Machine, stores[j]? = some (s, x) ∧ l.Recalls s x)) := by
  refine ⟨fun x inside => ⟨(stored_tick · inside), (loaded_tick · inside)⟩,
    fun x inside code => spelled_tick code inside, ?_, ?_⟩
  · intro x stored inside ops before l after trace loaded index spared
    exact registers_return stored inside trace loaded index spared
  · intro moves filling stores last full serial complete
    have path := Path.of_operations m filling
    have placed : m.Places stores := path.places_stores serial moves complete
    have each (s : Machine) (x : Register) (mem : (s, x) ∈ stores) : s.Stored x s.tick.2 := by
      have code := (mem_transfers.mp mem).2
      exact (stored_tick code (inside_of_tick code (complete _ mem))).2
    refine ⟨placed, each, fun alone => ?_⟩
    have held : ∀ s x, (s, x) ∈ stores → full.Holds s x :=
      path.holds_stores serial alone moves complete (Nat.le_refl _) (Nat.le_refl _)
    refine ⟨held, ?_⟩
    intro between emptying start loads spared serial' alone' back same j l x here
    have profile : start.profile = m.profile :=
      (profile_invariant m.profile).applyAll between
        ((profile_invariant m.profile).applyAll filling rfl)
    have range : Alone .load start.index.toNat (start.index.toNat + span stores) emptying
        (start.tickedByAll emptying) := by
      rw [back]
      exact alone'
    refine (Path.of_operations start emptying).registers_loads serial' range
      (by rw [profile, moves]) same ?_ ?_ here
    · unfold Places
      rw [back]
      exact placed
    · intro s x mem
      exact (held s x mem).spared (placed.within mem) spared

/-- Two stores, a register and the index set anew, and the two loads. -/
theorem stored_registers_return_two :
    let program : List UInt8 :=
      [0xF1, 0x55, 0xF0, 0x55, 0x60, 0x07, 0xA3, 0x00, 0xF1, 0x65, 0xF0, 0x65]
    let m : Machine := { Machine.new { advanceIndex := true } (.constant 0) with
      index := 768, memory := Memory.zero.overlay 512 program }
    let full := m.tick.2.tick.2
    let start := full.tick.2.tick.2
    m.Stored 1 m.tick.2 ∧ m.tick.2.index = 770 ∧ full.index = 771 ∧ full.tick.2.register 0 = 7 ∧
      start.Recalls m 1 ∧ start.tick.2.Recalls m.tick.2 0 := by
  intro program begun
  have execution : begun.Executes 512 program 0 := .of_overlay rfl (by decide) rfl rfl
  have index : begun.index = 768 := rfl
  have moves : begun.profile.advanceIndex = true := rfl
  -- the rest holds of every such machine
  obtain ⟨m, same⟩ : ∃ m, m = begun := ⟨begun, rfl⟩
  rw [← same] at execution index moves ⊢
  intro full start
  obtain ⟨exact, -, returns, series⟩ := stored_registers_return m
  have code : m.instruction? = some (.storeRegisters 1) := execution.instruction? rfl rfl rfl
  obtain ⟨proceeds, stored⟩ := (exact 1 (by rw [index]; decide)).1 code
  -- the second store
  have execution₁ := stored.executes execution (by rw [index]; decide)
  have index₁ : m.tick.2.index = 770 := by
    refine UInt16.toNat_inj.mp (stored.index.trans ?_)
    rw [index, stride, if_pos moves]
    rfl
  have code₁ : m.tick.2.instruction? = some (.storeRegisters 0) :=
    execution₁.instruction? rfl rfl rfl
  obtain ⟨proceeds₁, stored₁⟩ := stored_tick code₁ (by rw [index₁]; decide)
  -- the register
  have execution₂ : full.Executes 512 program 4 :=
    stored₁.executes execution₁ (by rw [index₁]; decide)
  have index₂ : full.index = 771 := by
    refine UInt16.toNat_inj.mp (stored₁.index.trans ?_)
    rw [index₁, stride, advanceIndex_tick, if_pos moves]
    rfl
  have code₂ : full.instruction? = some (.setByte 0 7) := execution₂.instruction? rfl rfl rfl
  have filled : full.tick.2.register 0 = 7 := by
    rw [tick_of_instruction? code₂]
    exact (register_setRegister full.advance 0 0 7).trans (if_pos rfl)
  -- the index
  have execution₃ : full.tick.2.Executes 512 program 6 := execution₂.tick code₂ rfl rfl rfl
  have code₃ : full.tick.2.instruction? = some (.setIndex 768) :=
    execution₃.instruction? rfl rfl rfl
  have index₄ : start.index = 768 :=
    congrArg (fun step => step.2.index) (tick_of_instruction? code₃)
  -- the loads
  have execution₄ : start.Executes 512 program 8 := execution₃.tick code₃ rfl rfl rfl
  have code₄ : start.instruction? = some (.loadRegisters 1) := execution₄.instruction? rfl rfl rfl
  obtain ⟨-, loaded⟩ := loaded_tick code₄ (by rw [index₄]; decide)
  have code₅ : start.tick.2.instruction? = some (.loadRegisters 0) :=
    (loaded.executes execution₄).instruction? rfl rfl rfl
  -- nothing writes to the bytes but the stores
  have unwritten₂ (address : Nat) : ¬ full.Writes address := not_writes code₂ id
  have unwritten₃ (address : Nat) : ¬ full.tick.2.Writes address := not_writes code₃ id
  have recalls : start.Recalls m 1 := by
    refine returns 1 code (by rw [index]; decide) [.tick, .tick, .tick, .tick]
      [m.tick.2, full, full.tick.2] start [] rfl code₄ (index₄.trans index.symm) ?_
    intro address low high
    have unwritten₁ : ¬ m.tick.2.Writes address := by
      refine not_writes code₁ fun touches => ?_
      have above : m.tick.2.index.toNat ≤ address := touches.1
      rw [index₁] at above
      rw [index] at high
      exact absurd (Nat.le_trans above high) (by decide)
    refine ⟨fun op mem => not_fills_of_all rfl mem, ?_⟩
    simp [unwritten₁, unwritten₂, unwritten₃]
  have stores : transfers .store (m.tickedByAll [.tick, .tick]) = [(m, 1), (m.tick.2, 0)] :=
    (transfers_cons_of_transfer code).trans (congrArg _ (transfers_cons_of_transfer code₁))
  have loads : transfers .load (start.tickedByAll [.tick, .tick]) =
      [(start, 1), (start.tick.2, 0)] :=
    (transfers_cons_of_transfer code₄).trans (congrArg _ (transfers_cons_of_transfer code₅))
  have same_sizes : (transfers .load (start.tickedByAll [.tick, .tick])).map Prod.snd <+:
      [(m, (1 : Register)), (m.tick.2, 0)].map Prod.snd := by
    rw [loads]
    exact List.prefix_rfl
  have all_store : ∀ y ∈ m.tickedByAll [.tick, .tick],
      ∃ x, y.instruction? = some (.storeRegisters x) := by
    simp [tickedByAll, tickedBy, apply, code, code₁]
  have all_load : ∀ y ∈ start.tickedByAll [.tick, .tick],
      ∃ x, y.instruction? = some (.loadRegisters x) := by
    simp [tickedByAll, tickedBy, apply, code₄, code₅]
  have unwritten : ∀ address, ∀ y ∈ full.tickedByAll [.tick, .tick], ¬ y.Writes address := by
    simp [tickedByAll, tickedBy, apply, unwritten₂, unwritten₃]
  refine ⟨stored, index₁, index₂, filled, recalls, ?_⟩
  have filling := series moves [.tick, .tick]
  rw [stores] at filling
  obtain ⟨-, -, held⟩ := filling (.of_transfers rfl all_store) (by simp [proceeds, proceeds₁])
  obtain ⟨-, emptying⟩ := held (.of_transfers rfl all_store)
  obtain ⟨s, here, recalled⟩ := emptying [.tick, .tick] [.tick, .tick]
    (fun address _ _ => ⟨fun op mem => not_fills_of_all rfl mem, unwritten address⟩)
    (.of_transfers rfl all_load) (.of_transfers rfl all_load) (index₄.trans index.symm)
    same_sizes 1 start.tick.2 0 (congrArg (fun ls => ls[1]?) loads)
  obtain rfl : m.tick.2 = s := (Prod.mk.inj (Option.some.inj here)).1
  exact recalled

end Machine

end Chip8
