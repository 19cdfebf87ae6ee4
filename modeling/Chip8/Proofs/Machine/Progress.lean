import Chip8.Proofs.Machine.Bounds
import Chip8.Proofs.Machine.Hints

/-!
# Progress

Without a jump a machine cannot stay in a loop: each tick that succeeds, does not wait and does not
jump moves the program counter on by two or four, and past the end of memory there is nothing to
fetch. What the program is, and whether it changes itself, does not matter.

Results:
1. `MovesOn.pc_le`, `MovesOn.pc_tick`: where such a tick begins, and how far it gets.
2. `Path.movesOn`: how many such ticks can follow each other.
3. `no_loop_without_jump`: the same for operations on a new machine.
4. `tickedByRun_of_clear`: cleared memory has as many.
-/

namespace Chip8.Machine

/-- The next tick succeeds, and hints neither at a jump nor at a wait for a key. -/
def MovesOn (m : Machine) : Prop := ∃ flow, m.tick.1 = .ok flow ∧ flow ≠ .jump ∧ flow ≠ .keyWait

variable {m m' : Machine}

/-! ## One tick -/

/-- A tick that succeeds has fetched from memory, now or when its wait for a key began. -/
theorem MovesOn.pc_le (moves : m.MovesOn) (bounded : m.Bounded) : m.pc ≤ 4094 := by
  obtain ⟨flow, succeeds, -⟩ := moves
  have ticked := tick_cases m
  generalize m.tick = s at ticked succeeds
  cases ticked with
  | @stalled x waits => exact bounded.waiting x waits
  | unfetched | unknown => cases succeeds
  | executed _ _ inside _ => exact inside

theorem MovesOn.pc_tick (moves : m.MovesOn) : m.pc + 2 ≤ m.tick.2.pc := by
  obtain ⟨flow, succeeds, goes, runs⟩ := moves
  obtain ⟨i, code⟩ := exists_instruction? succeeds
  have hinted := tick_hinted code
  generalize m.tick = s at hinted succeeds ⊢
  cases hinted with
  | faulted => cases succeeds
  | waiting =>
    cases succeeds
    exact absurd rfl runs
  | jumped =>
    cases succeeds
    exact absurd rfl goes
  | skipped _ _ pc => simp only [pc, Nat.add_le_add_iff_left, Nat.reduceLeDiff]
  | passed _ _ _ _ pc => exact Nat.le_of_eq pc.symm

/-- A tick that does not move on jumps, waits or faults. -/
theorem hint_of_not_movesOn (stays : ¬ m.MovesOn) :
    m.tick.1 = .ok .jump ∨ m.tick.1 = .ok .keyWait ∨ ∃ fault, m.tick.1 = .error fault := by
  cases outcome : m.tick.1 with
  | error fault => exact .inr (.inr ⟨fault, rfl⟩)
  | ok flow =>
    by_cases goes : flow = .jump
    · exact .inl (by rw [goes])
    · by_cases runs : flow = .keyWait
      · exact .inr (.inl (by rw [runs]))
      · exact absurd ⟨flow, outcome, goes, runs⟩ stays

/-! ## Ticks in a row -/

theorem Aside.pc (change : m.Aside m') : m'.pc = m.pc := by
  cases change with
  | timers | keys | font _ => rfl

theorem Aside.bounded (change : m.Aside m') (bounded : m.Bounded) : m'.Bounded := by
  cases change with
  | timers => exact bounded_invariant.tickTimers bounded
  | keys => exact bounded_invariant.keys _ bounded
  | font installed => exact bounded_invariant.font _ _ installed bounded

/-- Each tick that moves on takes two more of the addresses from the program counter to the end of
memory. -/
theorem Path.movesOn {xs : List Machine} (path : Path Aside m xs m') (bounded : m.Bounded)
    (moves : ∀ x ∈ xs, x.MovesOn) : xs = [] ∨ m.pc + 2 * xs.length ≤ 4096 := by
  induction path with
  | nil => exact .inl rfl
  | @tick m m' xs _ ih =>
    have here : m.MovesOn := moves m List.mem_cons_self
    have inside := here.pc_le bounded
    have further := here.pc_tick
    rw [List.length_cons]
    refine .inr ?_
    rcases ih (bounded_invariant.tick bounded) fun x hx => moves x (List.mem_cons_of_mem _ hx) with
      rfl | short
    · rw [List.length_nil]
      omega
    · omega
  | @other m n m' xs change _ ih =>
    rw [← change.pc]
    exact ih (change.bounded bounded) moves

theorem Path.bounded {xs : List Machine} (path : Path Aside m xs m') (bounded : m.Bounded) :
    m'.Bounded :=
  (path.keeps (fun change => change.bounded) (fun _ _ => bounded_invariant.tick) bounded).1

/-! ## Runs -/

/-- After any operations on a new machine, ticks in a row that all succeed, without a jump or a wait
for a key, are at most as many as there are words from the program counter to the end of memory, and
none if it is past the last word; timers, keys and fonts may change in between. So among 2049 ticks
without a restart in between one jumps, waits or faults. -/
theorem no_loop_without_jump (profile : Profile) (random : RandomStream) (earlier : List Operation)
    {ops : List Operation} (lasts : ∀ op ∈ ops, op.restarts = false) :
    let m := ((Machine.new profile random).applyAll earlier).2
    (∀ xs, xs <+: m.tickedByAll ops → (∀ x ∈ xs, x.MovesOn) →
      (m.pc ≤ 4094 → xs.length ≤ (4094 - m.pc) / 2 + 1) ∧ (4094 < m.pc → xs = [])) ∧
    ∀ xs, xs <:+: m.tickedByAll ops → 2049 ≤ xs.length →
      ∃ x ∈ xs, x.tick.1 = .ok .jump ∨ x.tick.1 = .ok .keyWait ∨
        ∃ fault, x.tick.1 = .error fault := by
  intro m
  have fresh : (Machine.new profile random).Bounded := .of_initial rfl rfl rfl
  have bounded : m.Bounded := bounded_invariant.applyAll earlier fresh
  have path := Path.of_applyAll m lasts
  constructor
  · rintro xs ⟨after, whole⟩ moves
    rw [← whole] at path
    obtain ⟨n, path, -⟩ := path.divide
    rcases path.movesOn bounded moves with rfl | short
    · simp
    · cases xs with
      | nil => simp
      | cons x xs =>
        rw [List.length_cons] at short ⊢
        omega
  · rintro xs ⟨before, after, whole⟩ long
    rw [← whole, List.append_assoc] at path
    obtain ⟨n, first, path⟩ := path.divide
    obtain ⟨n', path, -⟩ := path.divide
    by_contra steady
    have moves : ∀ x ∈ xs, x.MovesOn := by
      intro x hx
      by_contra stays
      exact steady ⟨x, hx, hint_of_not_movesOn stays⟩
    rcases path.movesOn (first.bounded bounded) moves with rfl | short
    · cases long
    · omega

/-- Cleared memory is run through to its end. -/
theorem tickedByRun_of_clear (count : Nat) (running : m.keyWait = none)
    (room : m.pc + 2 * count ≤ 4096)
    (clear : ∀ address, m.pc ≤ address → address < 4096 → m.memory.read address = .ok 0) :
    (m.tickedByRun count).length = count ∧ ∀ x ∈ m.tickedByRun count, x.MovesOn := by
  induction count generalizing m with
  | zero => exact ⟨rfl, fun x hx => absurd hx List.not_mem_nil⟩
  | succ count ih =>
    have word : m.fetch = .ok Instruction.noOp.encode :=
      fetch_of_read (clear m.pc (Nat.le_refl _) (by omega))
        (clear (m.pc + 1) (Nat.le_add_right _ _) (by omega))
    have passed : m.tick = (.ok .proceed, m.advance) :=
      tick_of_instruction? (instruction?_of_fetch running word)
    have ticks : m.tickedByRun (count + 1) = m :: m.advance.tickedByRun count := by
      unfold tickedByRun
      rw [ticked, passed]
      rfl
    have after : m.advance.pc = m.pc + 2 := rfl
    obtain ⟨length, moves⟩ := ih (m := m.advance) running (by omega)
      fun address above inside => clear address (by omega) inside
    rw [ticks, List.length_cons, length]
    refine ⟨rfl, fun x hx => ?_⟩
    rcases List.mem_cons.mp hx with rfl | later
    · exact ⟨.proceed, congrArg Prod.fst passed, nofun, nofun⟩
    · exact moves x later

/-- A new machine runs through all of its program area, which is as far as it can get. -/
theorem no_loop_without_jump_cleared :
    let m := ((Machine.new {} (.constant 0)).applyAll []).2
    let ops : List Operation := [.run 1792]
    (∀ op ∈ ops, op.restarts = false) ∧ (∀ x ∈ m.tickedByAll ops, x.MovesOn) ∧ m.pc ≤ 4094 ∧
      (m.tickedByAll ops).length = 1792 ∧
      (m.tickedByAll ops).length ≤ (4094 - m.pc) / 2 + 1 := by
  intro m ops
  have lasts : ∀ op ∈ ops, op.restarts = false := by decide
  have clear : ∀ address, 512 ≤ address → address < 4096 → m.memory.read address = .ok 0 :=
    fun address above room =>
      (Memory.read_withFont_of_le _ _ (by omega)).trans (Memory.read_zero room)
  have whole (n : Machine) (count : Nat) : n.tickedByAll [.run count] = n.tickedByRun count :=
    List.append_nil _
  obtain ⟨length, moves⟩ := tickedByRun_of_clear (m := m) 1792 rfl (by decide) clear
  rw [← whole] at length moves
  have limited := (no_loop_without_jump {} (.constant 0) [] lasts).1 _ List.prefix_rfl moves
  exact ⟨lasts, moves, by decide, length, limited.1 (by decide)⟩

end Chip8.Machine
