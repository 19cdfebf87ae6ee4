import Chip8.Proofs.Machine.Invariants

/-!
# The ticks of a run

Operations as the ticks that they make: the machines that the ticks act on, in order. A path leads
from one machine to another along such ticks; before, between and after them the machine may change
in other ways, which the path is told.

Results:
1. `Path.of_operations`, `Path.of_applyAll`: operations go along the ticks that they make.
2. `Path.split`, `Path.divide`: a path leads to each of its ticks and on from there.
3. `Path.keeps`: what each tick of a path keeps holds all along it.
4. `Path.le_add_countP`: what grows only at some ticks grows no further than these are many.
5. `apply_of_refused`: a request without ticks that is refused changes nothing.
6. `getElem?_applyAll`, `tickedByAll_take`: the answers and the ticks of the first operations.
-/

namespace Chip8

/-- Whether an operation makes ticks. -/
def Operation.makesTicks : Operation → Bool
  | .tick | .run _ => true
  | _ => false

namespace Machine

/-! ## Definitions -/

/-- The machines that up to `count` ticks act on, in order. A fault ends the ticks, and so does a
hint on which they halt. -/
def ticked (halts : Flow → Bool) : (count : Nat) → Machine → List Machine
  | 0, _ => []
  | count + 1, m =>
    match m.tick with
    | (.ok flow, m') => m :: if halts flow then [] else ticked halts count m'
    | (.error _, _) => [m]

/-- The machines that the ticks of `run` act on. -/
def tickedByRun (m : Machine) (count : Nat) : List Machine := ticked (fun _ => false) count m

/-- The machines that the ticks of an operation act on. -/
def tickedBy (m : Machine) : Operation → List Machine
  | .tick => [m]
  | .run count => m.tickedByRun count
  | _ => []

/-- The machines that the ticks of operations act on, in order. -/
def tickedByAll (m : Machine) : List Operation → List Machine
  | [] => []
  | op :: ops => m.tickedBy op ++ (m.apply op).2.tickedByAll ops

/-- Ticks lead from one machine to another; the list holds the machines that they act on.

* `nil`: without a tick or anything else.
* `tick`: a tick comes first.
* `other`: some other change comes first. -/
inductive Path (between : Machine → Machine → Prop) : Machine → List Machine → Machine → Prop
  | nil {m : Machine} : Path between m [] m
  | tick {m m' : Machine} {xs : List Machine} :
      Path between m.tick.2 xs m' → Path between m (m :: xs) m'
  | other {m n m' : Machine} {xs : List Machine} :
      between m n → Path between n xs m' → Path between m xs m'

/-- One of the operations is performed, and it makes no ticks. -/
inductive Between (ops : List Operation) (m : Machine) : Machine → Prop
  | mk {op : Operation} : op ∈ ops → op.makesTicks = false → Between ops m (m.apply op).2

/-- What operations other than ticks and restarts do to a machine: they count the timers, change
the keypad, or change the glyphs and with them the memory. -/
inductive Aside (m : Machine) : Machine → Prop
  | timers : Aside m m.tickTimers.2
  | keys {keypad : Keypad} : Aside m { m with keypad }
  | font {font : Font} {memory : Memory} :
      memory = m.memory.withFont font → Aside m { m with font, memory }

/-! ## Along a path -/

variable {between : Machine → Machine → Prop} {m m' : Machine}

theorem Path.split {before after : List Machine} {x : Machine}
    (path : Path between m (before ++ x :: after) m') :
    Path between m before x ∧ Path between x.tick.2 after m' := by
  generalize whole : before ++ x :: after = xs at path
  induction path generalizing before with
  | nil =>
    have nonempty : before ++ x :: after ≠ [] := by simp
    exact absurd whole nonempty
  | @tick m m' xs path ih =>
    cases before with
    | nil =>
      obtain ⟨rfl, rfl⟩ := List.cons.inj whole
      exact ⟨.nil, path⟩
    | cons y before =>
      obtain ⟨rfl, rest⟩ := List.cons.inj whole
      exact ⟨.tick (ih rest).1, (ih rest).2⟩
  | other change _ ih => exact ⟨.other change (ih whole).1, (ih whole).2⟩

/-- A path along some ticks and then others passes a machine between the two. -/
theorem Path.divide {before after : List Machine} (path : Path between m (before ++ after) m') :
    ∃ n, Path between m before n ∧ Path between n after m' := by
  cases after with
  | nil =>
    rw [List.append_nil] at path
    exact ⟨m', path, .nil⟩
  | cons x after => exact ⟨x, path.split.1, .tick path.split.2⟩

theorem Path.keeps {P : Machine → Prop} {xs : List Machine} (path : Path between m xs m')
    (other : ∀ {n n'}, between n n' → P n → P n') (ticks : ∀ x ∈ xs, P x → P x.tick.2)
    (start : P m) : P m' ∧ ∀ x ∈ xs, P x := by
  induction path with
  | nil => exact ⟨start, fun _ h => absurd h List.not_mem_nil⟩
  | @tick m m' xs _ ih =>
    have next : P m.tick.2 := ticks m List.mem_cons_self start
    obtain ⟨last, all⟩ := ih (fun x hx => ticks x (List.mem_cons_of_mem _ hx)) next
    refine ⟨last, fun x hx => ?_⟩
    rcases List.mem_cons.mp hx with rfl | later
    · exact start
    · exact all x later
  | other change _ ih => exact ih ticks (other change start)

/-- What grows by one at most at the ticks that are counted, and nowhere else, grows by at most
their number. -/
theorem Path.le_add_countP {size : Machine → Nat} {counted : Machine → Bool} {xs : List Machine}
    (path : Path between m xs m') (other : ∀ {n n'}, between n n' → size n' ≤ size n)
    (ticks : ∀ x, size x.tick.2 ≤ size x + if counted x then 1 else 0) :
    size m' ≤ size m + xs.countP counted := by
  induction path with
  | nil => exact Nat.le_add_right _ _
  | @tick m m' xs _ ih =>
    have here := ticks m
    rw [List.countP_cons]
    omega
  | other change _ ih => exact Nat.le_trans ih (Nat.add_le_add_right (other change) _)

/-! ## Operations in order -/

theorem applyAll_cons (m : Machine) (op : Operation) (ops : List Operation) :
    m.applyAll (op :: ops) =
      ((m.apply op).1 :: ((m.apply op).2.applyAll ops).1, ((m.apply op).2.applyAll ops).2) := rfl

theorem applyAll_append (m : Machine) (ops more : List Operation) :
    m.applyAll (ops ++ more) =
      ((m.applyAll ops).1 ++ ((m.applyAll ops).2.applyAll more).1,
        ((m.applyAll ops).2.applyAll more).2) := by
  induction ops generalizing m with
  | nil => rfl
  | cons op ops ih =>
    rw [List.cons_append, applyAll_cons, ih]
    rfl

theorem tickedByAll_append (m : Machine) (ops more : List Operation) :
    m.tickedByAll (ops ++ more) = m.tickedByAll ops ++ (m.applyAll ops).2.tickedByAll more := by
  induction ops generalizing m with
  | nil => rfl
  | cons op ops ih =>
    show m.tickedBy op ++ (m.apply op).2.tickedByAll (ops ++ more) = _
    rw [ih, ← List.append_assoc]
    rfl

theorem tickedByAll_take (m : Machine) (ops : List Operation) (k : Nat) :
    m.tickedByAll (ops.take k) <+: m.tickedByAll ops := by
  have whole := tickedByAll_append m (ops.take k) (ops.drop k)
  rw [List.take_append_drop] at whole
  exact ⟨_, whole.symm⟩

/-- Each answer is that of the machine after the operations before it. -/
theorem getElem?_applyAll (m : Machine) (ops : List Operation) (k : Nat) :
    (m.applyAll ops).1[k]? = ops[k]?.map fun op => ((m.applyAll (ops.take k)).2.apply op).1 := by
  induction ops generalizing m k with
  | nil => rfl
  | cons op ops ih =>
    cases k with
    | zero => rfl
    | succ k => exact ih (m.apply op).2 k

/-! ## Runs and operations -/

theorem Path.of_go {count : Nat} {last : Flow} {xs : List Machine}
    (path : Path between (run.go count last m).2 xs m') :
    Path between m (m.tickedByRun count ++ xs) m' := by
  induction count generalizing m last with
  | zero => exact path
  | succ count ih =>
    unfold run.go at path
    unfold tickedByRun ticked
    rcases step : m.tick with ⟨outcome, n⟩
    have onwards {ys : List Machine} (rest : Path between n ys m') :
        Path between m (m :: ys) m' := by
      refine .tick ?_
      rw [step]
      exact rest
    rw [step] at path
    cases outcome with
    | ok flow => exact onwards (ih path)
    | error fault => exact onwards path

theorem Path.mono {between' : Machine → Machine → Prop} {xs : List Machine}
    (path : Path between m xs m') (wider : ∀ {n n'}, between n n' → n' = n ∨ between' n n') :
    Path between' m xs m' := by
  induction path with
  | nil => exact .nil
  | tick _ ih => exact .tick ih
  | other change _ ih =>
    rcases wider change with rfl | change'
    · exact ih
    · exact .other change' ih

theorem Path.of_apply {op : Operation} {xs : List Machine}
    (others : op.makesTicks = false → between m (m.apply op).2)
    (path : Path between (m.apply op).2 xs m') : Path between m (m.tickedBy op ++ xs) m' := by
  cases op with
  | tick => exact .tick path
  | run count => exact .of_go path
  | _ => exact .other (others rfl) path

theorem Path.of_operations (m : Machine) (ops : List Operation) :
    Path (Between ops) m (m.tickedByAll ops) (m.applyAll ops).2 := by
  induction ops generalizing m with
  | nil => exact .nil
  | cons op ops ih =>
    refine .of_apply (fun quiet => .mk List.mem_cons_self quiet) ((ih _).mono ?_)
    rintro n n' ⟨mem, quiet⟩
    exact .inr (.mk (List.mem_cons_of_mem _ mem) quiet)

/-- A request without ticks that is refused changes nothing. -/
theorem apply_of_refused {m : Machine} {op : Operation} {fault : Fault}
    (quiet : op.makesTicks = false) (refused : (m.apply op).1 = .error fault) :
    (m.apply op).2 = m := by
  have passed {outcome : Except Fault Unit}
      (answer : outcome.map (fun () => Answer.done) = .error fault) : outcome = .error fault := by
    cases outcome with
    | ok _ => cases answer
    | error fault' =>
      cases answer
      rfl
  cases op with
  | tick | run count => cases quiet
  | load program => exact load_snd_of_error (passed refused)
  | loadFont glyphs => exact loadFont_snd_of_error (passed refused)
  | keyDown index | keyUp index => exact pressKey_snd_of_error (passed refused)
  | reset | tickTimers | setKey key pressed | clearKeys => cases refused

/-- An operation that makes no ticks changes nothing, or something beside the ticks. -/
theorem aside_of_apply (m : Machine) {op : Operation} (lasts : op.restarts = false)
    (quiet : op.makesTicks = false) : (m.apply op).2 = m ∨ m.Aside (m.apply op).2 := by
  have change := apply_cases m op
  generalize (m.apply op).2 = m' at change ⊢
  cases change with
  | refused _ => exact .inl rfl
  | tick | run => cases quiet
  | tickTimers => exact .inr .timers
  | keys _ => exact .inr .keys
  | font installed => exact .inr (.font installed)
  | restart restarts =>
    rw [lasts] at restarts
    cases restarts

theorem Path.of_applyAll (m : Machine) {ops : List Operation}
    (lasts : ∀ op ∈ ops, op.restarts = false) :
    Path Aside m (m.tickedByAll ops) (m.applyAll ops).2 := by
  refine (Path.of_operations m ops).mono ?_
  rintro n n' ⟨mem, quiet⟩
  exact aside_of_apply n (lasts _ mem) quiet

end Machine

end Chip8
