import Mathlib.Data.List.Forall2
import Chip8.Proofs.Machine.Ticks

/-!
# Two machines in lockstep

The same operations on two machines. A relation that ticks keep, and the operations that make no
ticks, holds at the end of any operations and at each tick on the way, and all answers are the same.

Results:
1. `Lockstep.go`: the ticks of a run.
2. `Lockstep.apply`, `Lockstep.applyAll`: operations.
3. `Lockstep.along`: the ticks up to the first one that is not admitted.
-/

namespace Chip8.Machine

/-! ## Definitions -/

/-- Two machines that are related answer a tick alike and stay related, as long as the first is one
that is admitted, and so they do for an operation that makes no ticks. -/
structure Lockstep (R : Machine → Machine → Prop) (Admits : Machine → Prop) : Prop where
  tick {m m' : Machine} : R m m' → Admits m →
    m'.tick.1 = m.tick.1 ∧ R m.tick.2 m'.tick.2
  quiet {m m' : Machine} {op : Operation} : R m m' → op.makesTicks = false →
    (m'.apply op).1 = (m.apply op).1 ∧ R (m.apply op).2 (m'.apply op).2

/-- The ticks of one list go as those of the other, on machines that are related. -/
def SameTicks (R : Machine → Machine → Prop) : List Machine → List Machine → Prop :=
  List.Forall₂ fun x x' => R x x' ∧ x'.tick.1 = x.tick.1

/-- The ticks of one list go as those of the other, on machines that are related, up to the first
one on a machine that is not admitted. Both lists come to that one.

* `nil`, `cons`: all ticks so far are admitted.
* `parted`: the next one is not, and from there on the lists need not agree. -/
inductive Along (R : Machine → Machine → Prop) (Admits : Machine → Prop) :
    List Machine → List Machine → Prop
  | nil : Along R Admits [] []
  | cons {x x' : Machine} {xs xs' : List Machine} :
      R x x' ∧ x'.tick.1 = x.tick.1 → Along R Admits xs xs' → Along R Admits (x :: xs) (x' :: xs')
  | parted {x x' : Machine} {xs xs' : List Machine} :
      R x x' → ¬ Admits x → Along R Admits (x :: xs) (x' :: xs')

/-- Two machines answer operations alike, make the same ticks for them and end up related. -/
structure RunsAlike (R : Machine → Machine → Prop) (m m' : Machine) (ops : List Operation) :
    Prop where
  answers : (m'.applyAll ops).1 = (m.applyAll ops).1
  state : R (m.applyAll ops).2 (m'.applyAll ops).2
  ticks : SameTicks R (m.tickedByAll ops) (m'.tickedByAll ops)

variable {R S : Machine → Machine → Prop} {Admits : Machine → Prop} {m m' : Machine}

/-! ## Weaker relations -/

theorem SameTicks.imp {xs ys : List Machine} (h : SameTicks R xs ys)
    (weaker : ∀ {n n'}, R n n' → S n n') : SameTicks S xs ys :=
  List.Forall₂.imp (fun _ _ same => ⟨weaker same.1, same.2⟩) h

/-- What related machines share holds of all machines of one list if it does of the other. -/
theorem SameTicks.all {P : Machine → Prop} {xs ys : List Machine} (h : SameTicks R xs ys)
    (shared : ∀ {n n'}, R n n' → P n → P n') (all : ∀ x ∈ xs, P x) : ∀ y ∈ ys, P y := by
  induction h with
  | nil => exact fun y mem => absurd mem List.not_mem_nil
  | cons same _ ih =>
    rw [List.forall_mem_cons] at all ⊢
    exact ⟨shared same.1 all.1, ih all.2⟩

theorem RunsAlike.imp {ops : List Operation} (h : RunsAlike R m m' ops)
    (weaker : ∀ {n n'}, R n n' → S n n') : RunsAlike S m m' ops where
  answers := h.answers
  state := weaker h.state
  ticks := h.ticks.imp weaker

/-! ## Operations -/

theorem tickedByRun_succ (m : Machine) (count : Nat) :
    ∃ after, m.tickedByRun (count + 1) = m :: after := by
  unfold tickedByRun ticked
  split
  · exact ⟨_, rfl⟩
  · exact ⟨_, rfl⟩

/-- The ticks of a run keep what one tick keeps. -/
theorem go_alike
    (tick : ∀ {m m'}, R m m' → Admits m → m'.tick.1 = m.tick.1 ∧ R m.tick.2 m'.tick.2)
    (related : R m m') (count : Nat) (last : Flow)
    (admitted : ∀ x ∈ m.tickedByRun count, Admits x) :
    (run.go count last m').1 = (run.go count last m).1 ∧
      R (run.go count last m).2 (run.go count last m').2 ∧
      SameTicks R (m.tickedByRun count) (m'.tickedByRun count) := by
  induction count generalizing m m' last with
  | zero => exact ⟨rfl, related, .nil⟩
  | succ count ih =>
    have first : Admits m := by
      obtain ⟨after, whole⟩ := tickedByRun_succ m count
      rw [whole] at admitted
      exact admitted m List.mem_cons_self
    obtain ⟨outcome, state⟩ := tick related first
    have same : R m m' ∧ m'.tick.1 = m.tick.1 := ⟨related, outcome⟩
    unfold tickedByRun ticked at admitted ⊢
    unfold run.go
    rcases own : m.tick with ⟨result, n⟩
    rcases other : m'.tick with ⟨result', n'⟩
    rw [own] at outcome state admitted
    rw [other] at outcome state
    obtain rfl : result' = result := outcome
    -- a fault ends both runs here
    cases result' with
    | ok flow =>
      obtain ⟨outcomes, states, ticks⟩ :=
        ih state flow fun x mem => admitted x (List.mem_cons_of_mem _ mem)
      exact ⟨outcomes, states, .cons same ticks⟩
    | error fault => exact ⟨rfl, state, .cons same .nil⟩

theorem Lockstep.go (h : Lockstep R Admits) (related : R m m') (count : Nat) (last : Flow)
    (admitted : ∀ x ∈ m.tickedByRun count, Admits x) :
    (run.go count last m').1 = (run.go count last m).1 ∧
      R (run.go count last m).2 (run.go count last m').2 ∧
      SameTicks R (m.tickedByRun count) (m'.tickedByRun count) :=
  go_alike h.tick related count last admitted

theorem Lockstep.apply (h : Lockstep R Admits) (related : R m m') {op : Operation}
    (admitted : ∀ x ∈ m.tickedBy op, Admits x) :
    (m'.apply op).1 = (m.apply op).1 ∧ R (m.apply op).2 (m'.apply op).2 ∧
      SameTicks R (m.tickedBy op) (m'.tickedBy op) := by
  have quiet (silent : op.makesTicks = false) := h.quiet related silent
  cases op with
  | tick =>
    obtain ⟨outcome, state⟩ := h.tick related (admitted m List.mem_cons_self)
    exact ⟨congrArg (Except.map Answer.flow) outcome, state, .cons ⟨related, outcome⟩ .nil⟩
  | run count =>
    obtain ⟨outcome, state, ticks⟩ := h.go related count .proceed admitted
    exact ⟨congrArg (Except.map Answer.flow) outcome, state, ticks⟩
  | _ => exact ⟨(quiet rfl).1, (quiet rfl).2, .nil⟩

theorem Lockstep.applyAll (h : Lockstep R Admits) (related : R m m') {ops : List Operation}
    (admitted : ∀ x ∈ m.tickedByAll ops, Admits x) : RunsAlike R m m' ops := by
  induction ops generalizing m m' with
  | nil => exact ⟨rfl, related, .nil⟩
  | cons op ops ih =>
    obtain ⟨answer, state, ticks⟩ :=
      h.apply related fun x mem => admitted x (List.mem_append_left _ mem)
    have rest := ih state fun x mem => admitted x (List.mem_append_right _ mem)
    refine ⟨?_, rest.state, List.rel_append ticks rest.ticks⟩
    show (m'.apply op).1 :: ((m'.apply op).2.applyAll ops).1 = _
    rw [answer, rest.answers]
    rfl

/-! ## The first tick that is not admitted -/

theorem Along.append {xs xs' ys ys' : List Machine} (first : Along R Admits xs xs')
    (rest : (∀ x ∈ xs, Admits x) → Along R Admits ys ys') :
    Along R Admits (xs ++ ys) (xs' ++ ys') := by
  induction first with
  | nil => exact rest fun x mem => absurd mem List.not_mem_nil
  | @cons x _ xs _ same _ ih =>
    -- unless the first tick is admitted, nothing is known of those that follow
    rcases Classical.em (Admits x) with admits | excluded
    · exact .cons same (ih fun all => rest (List.forall_mem_cons.mpr ⟨admits, all⟩))
    · exact .parted same.1 excluded
  | parted related excluded => exact .parted related excluded

/-- Both lists come to a tick before which all are admitted, in related states. -/
theorem Along.split {before after ys : List Machine} {x : Machine}
    (h : Along R Admits (before ++ x :: after) ys) (admitted : ∀ n ∈ before, Admits n) :
    ∃ before' x' after', ys = before' ++ x' :: after' ∧ SameTicks R before before' ∧ R x x' := by
  induction before generalizing ys with
  | nil =>
    cases h with
    | cons same _ => exact ⟨[], _, _, rfl, .nil, same.1⟩
    | parted related _ => exact ⟨[], _, _, rfl, .nil, related⟩
  | cons n before ih =>
    cases h with
    | @cons _ n' _ _ same rest =>
      obtain ⟨before', x', after', rfl, ticks, related⟩ :=
        ih rest fun n mem => admitted n (List.mem_cons_of_mem _ mem)
      exact ⟨n' :: before', x', after', rfl, .cons same ticks, related⟩
    | parted _ excluded => exact absurd (admitted n List.mem_cons_self) excluded

theorem Lockstep.along_run (h : Lockstep R Admits) (related : R m m') (count : Nat) :
    Along R Admits (m.tickedByRun count) (m'.tickedByRun count) := by
  induction count generalizing m m' with
  | zero => exact .nil
  | succ count ih =>
    rcases Classical.em (Admits m) with admits | excluded
    · obtain ⟨outcome, state⟩ := h.tick related admits
      have same : R m m' ∧ m'.tick.1 = m.tick.1 := ⟨related, outcome⟩
      unfold tickedByRun ticked
      rcases own : m.tick with ⟨result, n⟩
      rcases other : m'.tick with ⟨result', n'⟩
      rw [own] at outcome state
      rw [other] at outcome state
      obtain rfl : result' = result := outcome
      cases result' with
      | ok flow => exact .cons same (ih state)
      | error fault => exact .cons same .nil
    · obtain ⟨after, own⟩ := tickedByRun_succ m count
      obtain ⟨after', other⟩ := tickedByRun_succ m' count
      rw [own, other]
      exact .parted related excluded

theorem Lockstep.along_apply (h : Lockstep R Admits) (related : R m m') (op : Operation) :
    Along R Admits (m.tickedBy op) (m'.tickedBy op) := by
  cases op with
  | tick =>
    rcases Classical.em (Admits m) with admits | excluded
    · exact .cons ⟨related, (h.tick related admits).1⟩ .nil
    · exact .parted related excluded
  | run count => exact h.along_run related count
  | _ => exact .nil

/-- The ticks of any operations go along up to the first one that is not admitted. -/
theorem Lockstep.along (h : Lockstep R Admits) (related : R m m') (ops : List Operation) :
    Along R Admits (m.tickedByAll ops) (m'.tickedByAll ops) := by
  induction ops generalizing m m' with
  | nil => exact .nil
  | cons op ops ih =>
    refine (h.along_apply related op).append fun admitted => ?_
    obtain ⟨-, state, -⟩ := h.apply related admitted
    exact ih state

end Chip8.Machine
