import Chip8.Proofs.Machine.Faults
import Chip8.Proofs.Machine.Guarded

/-!
# Last in, first out

Whatever is pushed, popped and cleared, a call stack answers as a list of at most sixteen addresses
does. A pop takes the address of the last push that no pop and no clearing has undone; addresses
left in dead slots are never seen.

Results:
1. `onList_toList`, `serveAll_onList`: a stack and its list, after one request and after many.
2. `getElem?_toList`: the live addresses, found by looking back over what happened.
3. `guarded_serve_eq`, `guarded_serveAll_eq`: the same on an array with a stack pointer of 64 bits,
   where every slot that is looked up is in the array.
4. `requests_served_as_list`: all of it.
-/

namespace Chip8

/-! ## Definitions -/

namespace CallStack

/-- A request to a call stack. -/
inductive Request
  | push (address : UInt16)
  | pop
  | clear
  deriving DecidableEq, Repr

/-- What a request that succeeds is answered with. -/
inductive Reply
  | done
  | address (address : UInt16)
  deriving DecidableEq, Repr

/-- Serves one request. -/
def serve (s : CallStack) : Request → Except Fault Reply × CallStack
  | .push address =>
    match s.push address with
    | .ok s' => (.ok .done, s')
    | .error fault => (.error fault, s)
  | .pop =>
    match s.pop with
    | .ok (address, s') => (.ok (.address address), s')
    | .error fault => (.error fault, s)
  | .clear => (.ok .done, empty)

/-- Serves one request on a list of at most sixteen addresses, the latest first. -/
def onList (live : List UInt16) : Request → Except Fault Reply × List UInt16
  | .push address =>
    if live.length < 16 then (.ok .done, address :: live) else (.error .stackOverflow, live)
  | .pop =>
    match live with
    | [] => (.error .stackUnderflow, [])
    | address :: live => (.ok (.address address), live)
  | .clear => (.ok .done, [])

/-- Serves requests in order, also after refused ones: the answers and the last state. -/
def serveAll {σ : Type} (step : σ → Request → Except Fault Reply × σ) (s : σ) :
    List Request → List (Except Fault Reply) × σ
  | [] => ([], s)
  | request :: requests =>
    let (answer, s) := step s request
    let (answers, s) := serveAll step s requests
    (answer :: answers, s)

/-- The address of the last push that nothing has undone, where the past is told from its end. So
many pushes are passed over first: those that pops met on the way have undone. -/
def lastPushed? (undone : Nat) : List (Request × Except Fault Reply) → Option UInt16
  | [] => none
  | (_, .error _) :: past => lastPushed? undone past
  | (.push address, .ok _) :: past =>
    match undone with
    | 0 => some address
    | undone + 1 => lastPushed? undone past
  | (.pop, .ok _) :: past => lastPushed? (undone + 1) past
  | (.clear, .ok _) :: _ => none

end CallStack

namespace Guarded

/-- A call stack as an array with a pointer of 64 bits, which may have any value. -/
structure Stack where
  slots : Vector UInt16 16
  pointer : UInt64

namespace Stack

/-- A new stack. -/
def new : Stack := ⟨Vector.replicate 16 0, 0⟩

/-- How a call stack lies in memory. -/
def ofCallStack (s : CallStack) : Stack := ⟨s.slots, UInt64.ofNat s.depth⟩

/-- Serves one request. The pointer wraps, and each slot is looked up with a check. -/
def serve (s : Stack) : CallStack.Request → Option (Except Fault CallStack.Reply × Stack)
  | .push address =>
    if 16 ≤ s.pointer then some (.error .stackOverflow, s)
    else do
      let slots ← replace s.slots s.pointer.toNat address
      return (.ok .done, ⟨slots, s.pointer + 1⟩)
  | .pop =>
    let below := s.pointer - 1
    if s.pointer < 1 then some (.error .stackUnderflow, s)
    else do
      let address ← s.slots[below.toNat]?
      return (.ok (.address address), { s with pointer := below })
  | .clear => some (.ok .done, new)

/-- Serves requests in order, also after refused ones. -/
def serveAll (s : Stack) :
    List CallStack.Request → Option (List (Except Fault CallStack.Reply) × Stack)
  | [] => some ([], s)
  | request :: requests => do
    let (answer, s) ← s.serve request
    let (answers, s) ← s.serveAll requests
    return (answer :: answers, s)

end Stack

end Guarded

namespace CallStack

variable {s : CallStack}

/-! ## The list of live addresses -/

theorem isEmpty_toList (s : CallStack) : s.toList.isEmpty = s.isEmpty := by
  rw [isEmpty, ← s.length_toList, Bool.eq_iff_iff, List.isEmpty_iff, decide_eq_true_eq,
    List.length_eq_zero_iff]

/-- A stack answers as its list does, and goes on as that list does. -/
theorem onList_toList (s : CallStack) (request : Request) :
    onList s.toList request = ((s.serve request).1, (s.serve request).2.toList) := by
  cases request with
  | push address =>
    simp only [onList, serve, length_toList]
    cases pushed : s.push address with
    | ok t =>
      have room : s.depth < 16 := by
        refine Nat.lt_of_le_of_ne s.depth_le fun full => ?_
        rw [push_eq_error_iff.mpr ⟨full, rfl⟩] at pushed
        cases pushed
      simp only [if_pos room, toList_push pushed]
    | error fault =>
      obtain ⟨full, rfl⟩ := push_eq_error_iff.mp pushed
      simp only [full, Nat.lt_irrefl, if_false]
  | pop =>
    simp only [onList, serve]
    cases popped : s.pop with
    | ok result => simp only [toList_pop popped]
    | error fault =>
      obtain ⟨none_live, rfl⟩ := Machine.pop_eq_error_iff.mp popped
      have nothing : s.toList = [] :=
        List.eq_nil_of_length_eq_zero (s.length_toList.trans none_live)
      simp only [nothing]
  | clear => rfl

/-- Two ways to serve requests that agree on each through a view agree on many. -/
theorem serveAll_view {σ τ : Type} {step : σ → Request → Except Fault Reply × σ}
    {step' : τ → Request → Except Fault Reply × τ} {view : σ → τ}
    (same : ∀ s request, step' (view s) request = ((step s request).1, view (step s request).2))
    (s : σ) (requests : List Request) :
    serveAll step' (view s) requests =
      ((serveAll step s requests).1, view (serveAll step s requests).2) := by
  induction requests generalizing s with
  | nil => rfl
  | cons request requests ih => simp only [serveAll, same, ih]

theorem serveAll_onList (s : CallStack) (requests : List Request) :
    serveAll onList s.toList requests =
      ((serveAll serve s requests).1, (serveAll serve s requests).2.toList) :=
  serveAll_view onList_toList s requests

/-- Dead slots do not matter. -/
theorem answers_congr {t : CallStack} (same : t.toList = s.toList) (requests : List Request) :
    (serveAll serve t requests).1 = (serveAll serve s requests).1 := by
  have answers := congrArg Prod.fst (serveAll_onList t requests)
  rw [same, serveAll_onList s requests] at answers
  exact answers.symm

theorem serve_snd_of_error {request : Request} {fault : Fault}
    (refused : (s.serve request).1 = .error fault) : (s.serve request).2 = s := by
  cases request with
  | push address =>
    cases pushed : s.push address <;> simp only [serve, pushed] at refused ⊢
    cases refused
  | pop =>
    cases popped : s.pop <;> simp only [serve, popped] at refused ⊢
    cases refused
  | clear => cases refused

/-! ## The past -/

/-- The live addresses are what looking back finds, `k` pushes further for the one at `k`. -/
theorem getElem?_toList_serve {past : List (Request × Except Fault Reply)}
    (told : ∀ k, s.toList[k]? = lastPushed? k past) (request : Request) (k : Nat) :
    (s.serve request).2.toList[k]? = lastPushed? k ((request, (s.serve request).1) :: past) := by
  cases request with
  | push address =>
    cases pushed : s.push address with
    | ok t =>
      simp only [serve, pushed, toList_push pushed, lastPushed?]
      cases k with
      | zero => rfl
      | succ k => exact told k
    | error fault => simpa only [serve, pushed, lastPushed?] using told k
  | pop =>
    cases popped : s.pop with
    | ok result =>
      -- What is `k`-th after the pop was one further before, behind the address that it takes.
      have next := told (k + 1)
      rw [toList_pop popped, List.getElem?_cons_succ] at next
      simpa only [serve, popped, lastPushed?] using next
    | error fault => simpa only [serve, popped, lastPushed?] using told k
  | clear => rfl

theorem getElem?_toList_serveAll {past : List (Request × Except Fault Reply)}
    (told : ∀ k, s.toList[k]? = lastPushed? k past) (requests : List Request) (k : Nat) :
    (serveAll serve s requests).2.toList[k]? =
      lastPushed? k ((requests.zip (serveAll serve s requests).1).reverse ++ past) := by
  -- The induction is over any past: each request served is put before it.
  induction requests generalizing s past with
  | nil => exact told k
  | cons request requests ih =>
    simp only [serveAll, List.zip_cons_cons, List.reverse_cons, List.append_assoc,
      List.singleton_append]
    exact ih (getElem?_toList_serve told request)

theorem getElem?_toList (requests : List Request) (k : Nat) :
    (serveAll serve empty requests).2.toList[k]? =
      lastPushed? k (requests.zip (serveAll serve empty requests).1).reverse := by
  have untouched (k : Nat) : empty.toList[k]? = lastPushed? k [] := rfl
  rw [getElem?_toList_serveAll untouched, List.append_nil]

/-- A pop is answered with the first live address. -/
theorem fst_serve_pop (s : CallStack) : (s.serve .pop).1 =
    match s.toList[0]? with
    | some address => .ok (.address address)
    | none => .error .stackUnderflow := by
  have answer := congrArg Prod.fst (onList_toList s .pop)
  rw [← answer]
  cases s.toList <;> rfl

/-! ## The array -/

/-- No check fails: a stack that is full or empty is refused before a slot is looked up. -/
theorem guarded_serve_eq (s : CallStack) (request : Request) :
    (Guarded.Stack.ofCallStack s).serve request =
      some ((s.serve request).1, .ofCallStack (s.serve request).2) := by
  obtain ⟨slots, depth, bound⟩ := s
  -- The pointer is at most 16: adding one never wraps, taking one away only for the empty stack.
  have pointer : (UInt64.ofNat depth).toNat = depth :=
    UInt64.toNat_ofNat_of_lt' (show depth < 2 ^ 64 by omega)
  cases request with
  | push address =>
    rcases Nat.lt_or_ge depth 16 with room | full
    · have free : ¬ 16 ≤ UInt64.ofNat depth := by
        rw [UInt64.le_iff_toNat_le, pointer]
        exact Nat.not_le.mpr room
      have above : UInt64.ofNat depth + 1 = UInt64.ofNat (depth + 1) :=
        (UInt64.ofNat_add depth 1).symm
      simp only [Guarded.Stack.serve, Guarded.Stack.ofCallStack, if_neg free, pointer,
        Guarded.replace_eq slots room, above, serve, push, dif_pos room]
      rfl
    · have taken : 16 ≤ UInt64.ofNat depth := by
        rw [UInt64.le_iff_toNat_le, pointer]
        exact full
      simp only [Guarded.Stack.serve, Guarded.Stack.ofCallStack, serve, push,
        dif_neg (Nat.not_lt.mpr full)]
      exact if_pos taken
  | pop =>
    cases depth with
    | zero => rfl
    | succ depth =>
      have below : UInt64.ofNat (depth + 1) - 1 = UInt64.ofNat depth := by
        rw [UInt64.ofNat_add]
        exact UInt64.add_sub_cancel _ _
      have small : (UInt64.ofNat depth).toNat = depth :=
        UInt64.toNat_ofNat_of_lt' (show depth < 2 ^ 64 by omega)
      have some_live : ¬ UInt64.ofNat (depth + 1) < 1 := by
        rw [UInt64.lt_iff_toNat_lt, pointer]
        exact Nat.not_lt.mpr (Nat.le_add_left 1 depth)
      simp only [Guarded.Stack.serve, Guarded.Stack.ofCallStack, if_neg some_live, below, small,
        Vector.getElem?_eq_getElem (Nat.lt_of_succ_le bound)]
      rfl
  | clear => rfl

theorem guarded_serveAll_eq (s : CallStack) (requests : List Request) :
    (Guarded.Stack.ofCallStack s).serveAll requests =
      some ((serveAll serve s requests).1, .ofCallStack (serveAll serve s requests).2) := by
  induction requests generalizing s with
  | nil => rfl
  | cons request requests ih =>
    simp only [Guarded.Stack.serveAll, guarded_serve_eq, Option.bind_eq_bind, Option.bind_some, ih]
    rfl

/-! ## Requests -/

/-- After any requests to a new stack, the answers, the depth and the emptiness are those of a list
of at most sixteen addresses. A push is refused exactly if sixteen addresses are live and a pop
exactly if none is; what is refused changes nothing. A pop that succeeds takes the address of the
last push that nothing has undone, and what else is in the slots makes no difference to later
answers. The array is never left, and the stack pointer is the depth. -/
theorem requests_served_as_list (requests : List Request) :
    let answers := (serveAll serve empty requests).1
    let s := (serveAll serve empty requests).2
    serveAll onList [] requests = (answers, s.toList) ∧
    s.depth = s.toList.length ∧ s.isEmpty = s.toList.isEmpty ∧ s.depth ≤ 16 ∧
    (∀ address fault,
      s.push address = .error fault ↔ s.toList.length = 16 ∧ fault = .stackOverflow) ∧
    (∀ fault, s.pop = .error fault ↔ s.toList = [] ∧ fault = .stackUnderflow) ∧
    (∀ request fault, (s.serve request).1 = .error fault → (s.serve request).2 = s) ∧
    ((s.serve .pop).1 = match lastPushed? 0 (requests.zip answers).reverse with
      | some address => .ok (.address address)
      | none => .error .stackUnderflow) ∧
    (∀ t : CallStack, t.toList = s.toList → ∀ later,
      (serveAll serve t later).1 = (serveAll serve s later).1) ∧
    Guarded.Stack.new.serveAll requests = some (answers, ⟨s.slots, UInt64.ofNat s.depth⟩) := by
  intro answers s
  refine ⟨serveAll_onList empty requests, s.length_toList.symm, s.isEmpty_toList.symm, s.depth_le,
    fun address fault => ?_, fun fault => ?_, fun request fault => serve_snd_of_error, ?_,
    fun t same => answers_congr same, guarded_serveAll_eq empty requests⟩
  · rw [length_toList]
    exact push_eq_error_iff
  · rw [← List.length_eq_zero_iff, length_toList]
    exact Machine.pop_eq_error_iff
  · rw [fst_serve_pop, getElem?_toList]

/-- One push too many and a pop: the address that the pop leaves in its slot is not seen by later
requests, and neither are the zeros of a stack on which the first fifteen addresses were pushed. -/
theorem requests_served_as_list_full :
    let pushes := (List.range 17).map fun k => Request.push (UInt16.ofNat (0x200 + 2 * k))
    let s := (serveAll serve empty (pushes ++ [.pop])).2
    let t := (serveAll serve empty (pushes.take 15)).2
    s.depth = 15 ∧ s.push 0x400 ≠ .error .stackOverflow ∧
      (s.serve .pop).1 = .ok (.address 0x21C) ∧ t.toList = s.toList ∧
      (serveAll serve t [.push 0x400, .push 0x402, .pop]).1 =
        (serveAll serve s [.push 0x400, .push 0x402, .pop]).1 ∧
      (empty.serve .pop).1 = .error .stackUnderflow ∧ (empty.serve .pop).2 = empty := by
  intro pushes s t
  have live : t.toList = s.toList := by decide
  obtain ⟨-, depth, -, -, full, -, -, popped, alike, -⟩ :=
    requests_served_as_list (pushes ++ [.pop])
  obtain ⟨-, -, -, -, -, -, unchanged, -, -, -⟩ := requests_served_as_list []
  refine ⟨depth, fun refused => ?_, popped, live, alike t live _, rfl, unchanged .pop _ rfl⟩
  exact absurd ((full 0x400 _).mp refused).1 (by decide)

end CallStack

end Chip8
