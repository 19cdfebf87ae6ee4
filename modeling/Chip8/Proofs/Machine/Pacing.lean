import Chip8.Proofs.Machine.KeyWait
import Chip8.Proofs.Machine.Ticks
import Chip8.Proofs.Machine.Unseen

/-!
# Ticks at any pace

A number of ticks with the timers counted at any times in between. Where no tick reads the delay
timer, the end depends on the number of ticks and not on when the timers were counted, nor on
whether the ticks of an idle machine were made or skipped.

Results:
1. `Paced.path`: ticks at a pace as a path on which only the timers change between ticks.
2. `Paced.finish`, `Paced.next`: what comes of the ticks that are left.
3. `Paced.alike`: two paces end alike.
-/

namespace Chip8.Machine

/-! ## Definitions -/

/-- A number of ticks from a machine on act on the machines of a list, in order, and lead to an
outcome and a last machine. A fault ends them.

* `done`: no ticks are left.
* `tick`, `fault`: a tick succeeds and the others follow, or it is the last.
* `timers`: the timers are counted.
* `skip`: a tick is left out, for the machine is idle. -/
inductive Paced : Nat → Machine → List Machine → Except Fault Unit × Machine → Prop
  | done {m : Machine} : Paced 0 m [] (.ok (), m)
  | tick {count : Nat} {m : Machine} {flow : Flow} {xs : List Machine}
      {r : Except Fault Unit × Machine} :
      m.tick.1 = .ok flow → Paced count m.tick.2 xs r → Paced (count + 1) m (m :: xs) r
  | fault {count : Nat} {m : Machine} {fault : Fault} :
      m.tick.1 = .error fault → Paced (count + 1) m [m] (.error fault, m.tick.2)
  | timers {count : Nat} {m : Machine} {xs : List Machine} {r : Except Fault Unit × Machine} :
      Paced count m.tickTimers.2 xs r → Paced count m xs r
  | skip {count : Nat} {m : Machine} {xs : List Machine} {r : Except Fault Unit × Machine} :
      m.Idle → Paced count m xs r → Paced (count + 1) m xs r

/-- What changes a machine between its ticks: the timers count down once. -/
def Counted (m m' : Machine) : Prop := m' = m.tickTimers.2

/-- Two ways to make ticks end alike: both without a fault and in the same state but for the timers
and the beeps, or both with the same fault of their last tick at the same address. -/
def EndAlike (xs ys : List Machine) (r r' : Except Fault Unit × Machine) : Prop :=
  r.1 = r'.1 ∧ r.2.untimed = r'.2.untimed ∧ ∀ fault, r.1 = .error fault →
    ∃ x y, [x] <:+ xs ∧ [y] <:+ ys ∧
      x.tick.1 = .error fault ∧ y.tick.1 = .error fault ∧ x.pc = y.pc

variable {count : Nat} {m n : Machine} {xs ys : List Machine} {r r' : Except Fault Unit × Machine}

theorem Paced.path (h : Paced count m xs r) : Path Counted m xs r.2 := by
  induction h with
  | done => exact .nil
  | tick _ _ ih => exact .tick ih
  | fault _ => exact .tick .nil
  | timers _ ih => exact .other rfl ih
  | skip _ _ ih => exact ih

/-- Any number of ticks of an idle machine can be left out. -/
theorem Paced.skips {more : Nat} (idle : m.Idle) (h : Paced more m xs r) :
    Paced (count + more) m xs r := by
  induction count with
  | zero => rwa [Nat.zero_add]
  | succ count ih =>
    rw [Nat.succ_add]
    exact .skip idle ih

/-! ## What is left of a number of ticks -/

theorem Paced.finish (h : Paced 0 m xs r) : r.1 = .ok () ∧ r.2.untimed = m.untimed := by
  generalize none : 0 = count at h
  induction h with
  | done => exact ⟨rfl, rfl⟩
  | timers _ ih => exact ih none
  | tick | fault | skip => cases none

/-- Before the next of the ticks only the timers change. It faults and is the last, or the others
follow it; the tick of an idle machine need not be made. -/
theorem Paced.next (h : Paced (count + 1) m xs r) : ∃ n, n.untimed = m.untimed ∧
    ((∃ flow ys, n.tick.1 = .ok flow ∧ Paced count n.tick.2 ys r ∧ ys <:+ xs) ∨
      ∃ fault, n.tick.1 = .error fault ∧ [n] <:+ xs ∧ r = (.error fault, n.tick.2)) := by
  generalize some : count + 1 = total at h
  induction h with
  | done => cases some
  | @tick _ m flow xs _ succeeds rest _ =>
    obtain rfl := Nat.succ.inj some
    exact ⟨m, rfl, .inl ⟨flow, xs, succeeds, rest, List.suffix_cons m xs⟩⟩
  | @fault _ m fault fails => exact ⟨m, rfl, .inr ⟨fault, fails, List.suffix_refl _, rfl⟩⟩
  | timers _ ih => exact ih some
  | @skip _ m xs _ idle rest _ =>
    obtain rfl := Nat.succ.inj some
    have ticked := idle.tick
    refine ⟨m, rfl, .inl ⟨.keyWait, xs, ?_, ?_, List.suffix_refl xs⟩⟩
    · rw [ticked]
    · rw [ticked]
      exact rest

/-! ## Two paces -/

theorem Idle.congr (alike : m.untimed = n.untimed) (h : m.Idle) : n.Idle := by
  have moved : m.untimed.Idle := h
  rw [alike] at moved
  exact moved

/-- Earlier ticks do not count. -/
theorem EndAlike.extend {xs' ys' : List Machine} (h : EndAlike xs ys r r') (left : xs <:+ xs')
    (right : ys <:+ ys') : EndAlike xs' ys' r r' := by
  obtain ⟨outcomes, states, faults⟩ := h
  refine ⟨outcomes, states, fun fault failed => ?_⟩
  obtain ⟨x, y, lastX, lastY, both⟩ := faults fault failed
  exact ⟨x, y, lastX.trans left, lastY.trans right, both⟩

/-- As many ticks of two machines that differ in their timers end alike at any two paces, if those
of one of them do not read the delay timer. -/
theorem Paced.alike (first : Paced count m xs r) (second : Paced count n ys r')
    (start : m.untimed = n.untimed) (blind : ∀ x ∈ xs, ¬ x.ReadsDelay) :
    EndAlike xs ys r r' := by
  induction first generalizing n ys r' with
  | @done m =>
    obtain ⟨outcome, state⟩ := second.finish
    exact ⟨outcome.symm, start.trans state.symm, fun fault failed => by cases failed⟩
  | @tick count m flow xs r succeeds rest ih =>
    obtain ⟨n', before, after⟩ := second.next
    obtain ⟨outcome, state⟩ := tick_untimed (start.trans before.symm) (blind m List.mem_cons_self)
    rw [succeeds] at outcome
    rcases after with ⟨_, ys', _, rest', part⟩ | ⟨fault, fails, _, _⟩
    · have later := ih rest' state fun x hx => blind x (List.mem_cons_of_mem _ hx)
      exact later.extend (List.suffix_cons m xs) part
    · rw [fails] at outcome
      cases outcome
  | @fault count m fault fails =>
    obtain ⟨n', before, after⟩ := second.next
    have same := start.trans before.symm
    obtain ⟨outcome, state⟩ := tick_untimed same (blind m List.mem_cons_self)
    rw [fails] at outcome
    rcases after with ⟨_, _, succeeds, _, _⟩ | ⟨fault', fails', made, rfl⟩
    · rw [succeeds] at outcome
      cases outcome
    · rw [fails'] at outcome
      cases outcome
      refine ⟨rfl, state, fun other failed => ?_⟩
      cases failed
      have address : m.untimed.pc = n'.untimed.pc := congrArg (·.pc) same
      exact ⟨m, n', List.suffix_refl _, made, fails, fails', address⟩
  | timers _ ih => exact ih second start blind
  | @skip count m xs r idle rest ih =>
    obtain ⟨n', before, after⟩ := second.next
    have same := start.trans before.symm
    have ticked := (idle.congr same).tick
    rw [ticked] at after
    rcases after with ⟨_, ys', _, rest', part⟩ | ⟨_, fails, _, _⟩
    · exact (ih rest' same blind).extend (List.suffix_refl xs) part
    · cases fails

end Chip8.Machine
