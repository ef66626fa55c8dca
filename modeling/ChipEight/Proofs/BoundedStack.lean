import ChipEight.Proofs.Calls

/-!
# The stack is a bounded list

Pushes, pops and looks at the top, in any order and with any numbers, come to what they would come to on a list of at
most so many numbers (`StackCall.onList`): a push appends or is refused, for a full list before an address out of range;
a pop takes the last number off or is refused; and what is refused changes nothing.

On bare cells the list is spread over slots with a number that tells how many are in use. A pop only lowers that number
and leaves the address in its slot. `StackCall.answers` is what the calls of a history answer, and the answers of the
cells are those of the list whatever such slots hold (`stack_is_bounded_list`). One simulation carries both steps, from
the list to the stack and from the stack to the cells (`StackCall.Simulates.answers`).
-/

namespace ChipEight

/-- What can be asked of a stack. -/
inductive StackCall where
  | push (address : Int)
  | pop
  | peek
  /-- How many addresses there are. -/
  | size
  | isEmpty
deriving DecidableEq

namespace StackCall

/-! ### Calls on a list, on a stack and on cells -/

/-- What a call answers on a list of at most `depth` numbers, the oldest first, and the list after it. -/
def onList (depth : Nat) (entries : List Int) : StackCall → Except Fault Answer × List Int
  | push address =>
    if entries.length = depth then (.error .stackOverflow, entries)
    else if address < 0 ∨ 65535 < address then (.error (.addressRange address), entries)
    else (.ok .nothing, entries ++ [address])
  | pop =>
    match entries.getLast? with
    | none => (.error .stackUnderflow, entries)
    | some address => (.ok (.number address), entries.dropLast)
  | peek => (.ok (Session.numberOrNothing entries.getLast?), entries)
  | size => (.ok (.number entries.length), entries)
  | isEmpty => (.ok (.flag entries.isEmpty), entries)

/-- What a call answers on a stack, and the stack after it. -/
def onStack (s : ReturnStack) : StackCall → Except Fault Answer × ReturnStack
  | push address =>
    match s.push address with
    | .ok pushed => (.ok .nothing, pushed)
    | .error fault => (.error fault, s)
  | pop =>
    match s.pop with
    | .ok (address, popped) => (.ok (.number address.toNat), popped)
    | .error fault => (.error fault, s)
  | peek => (.ok (Session.numberOrNothing (s.peek?.map fun a => (a.toNat : Int))), s)
  | size => (.ok (.number s.entries.length), s)
  | isEmpty => (.ok (.flag s.entries.isEmpty), s)

/-- A call on bare cells. -/
def code : StackCall → Micro.Code Answer
  | push address => do
    Micro.push address
    return .nothing
  | pop => do
    return .number (← Micro.pop)
  | peek => do
    return Session.numberOrNothing (← Micro.peek)
  | size => do
    return .number (← get).top
  | isEmpty => do
    return .flag ((← get).top = 0)

/-- What a call answers on bare cells, and the cells after it, those of a call that ends in a trap included. -/
def onCells (s : Micro.Store) (c : StackCall) : Except Micro.Trap Answer × Micro.Store := Micro.run c.code s

/-! ### Some calls -/

section Histories

variable {σ τ α β : Type}

/-- The answers to some calls, one after the other. -/
def answers (act : σ → StackCall → α × σ) : σ → List StackCall → List α
  | _, [] => []
  | s, c :: calls => (act s c).1 :: answers act (act s c).2 calls

/-- What there is after some calls. -/
def after (act : σ → StackCall → α × σ) : σ → List StackCall → σ
  | s, [] => s
  | s, c :: calls => after act (act s c).2 calls

/-- Calls on related states answer the same up to `f`, and leave related states behind. -/
def Simulates (R : σ → τ → Prop) (f : α → β) (act : σ → StackCall → α × σ) (act' : τ → StackCall → β × τ) : Prop :=
  ∀ s t c, R s t → (act' t c).1 = f (act s c).1 ∧ R (act s c).2 (act' t c).2

variable {R : σ → τ → Prop} {f : α → β} {act : σ → StackCall → α × σ} {act' : τ → StackCall → β × τ}

theorem Simulates.after (h : Simulates R f act act') {s : σ} {t : τ} (hst : R s t) (calls : List StackCall) :
    R (after act s calls) (after act' t calls) := by
  induction calls generalizing s t with
  | nil => exact hst
  | cons c calls ih => exact ih (h s t c hst).2

theorem Simulates.answers (h : Simulates R f act act') {s : σ} {t : τ} (hst : R s t) (calls : List StackCall) :
    answers act' t calls = (answers act s calls).map f := by
  induction calls generalizing s t with
  | nil => rfl
  | cons c calls ih =>
    obtain ⟨hanswer, hnext⟩ := h s t c hst
    exact congrArg₂ List.cons hanswer (ih hnext)

end Histories

/-! ### The stack is the list -/

/-- Addresses as numbers. -/
def numbers (entries : List UInt16) : List Int := entries.map fun a => (a.toNat : Int)

theorem mem_numbers {entries : List UInt16} {n : Int} (h : n ∈ numbers entries) : 0 ≤ n ∧ n ≤ 65535 := by
  obtain ⟨a, -, rfl⟩ := List.mem_map.1 h
  have := a.toNat_lt
  omega

@[simp] theorem length_numbers (entries : List UInt16) : (numbers entries).length = entries.length := List.length_map _

theorem numbers_concat (older : List UInt16) (address : UInt16) :
    numbers (older ++ [address]) = numbers older ++ [(address.toNat : Int)] := List.map_append

@[simp] theorem getLast?_numbers (entries : List UInt16) :
    (numbers entries).getLast? = entries.getLast?.map fun a => (a.toNat : Int) := List.getLast?_map

/-- The list holds the addresses of a stack of this depth. -/
structure Lists (depth : Nat) (list : List Int) (s : ReturnStack) : Prop where
  depth_eq : s.depth = depth
  numbers_eq : numbers s.entries = list

theorem simulates_stack (depth : Nat) : Simulates (Lists depth) id (onList depth) onStack := by
  rintro - s c ⟨rfl, rfl⟩
  cases c with
  | push address =>
    simp only [onList, onStack, length_numbers]
    by_cases hfull : s.entries.length = s.depth
    · rw [if_pos hfull, ReturnStack.push_of_full hfull]
      exact ⟨rfl, rfl, rfl⟩
    · rw [if_neg hfull]
      by_cases hrange : address < 0 ∨ 65535 < address
      · rw [if_pos hrange, ReturnStack.push_of_outside hfull hrange]
        exact ⟨rfl, rfl, rfl⟩
      · obtain ⟨pushed, hpush, hentries, hdepth⟩ := ReturnStack.push_of_inside hfull hrange
        have hexact : ((UInt16.ofInt address).toNat : Int) = address :=
          ReturnStack.toNat_ofInt_of_lt (by omega) (by omega)
        rw [if_neg hrange, hpush]
        refine ⟨rfl, hdepth, ?_⟩
        rw [hentries, numbers_concat, hexact]
  | pop =>
    rcases s.entries.eq_nil_or_concat' with hnil | ⟨older, address, hconcat⟩
    · simp only [onList, onStack, ReturnStack.pop_of_nil hnil, getLast?_numbers, hnil]
      exact ⟨rfl, rfl, congrArg numbers hnil⟩
    · obtain ⟨popped, hpop, hentries, hdepth⟩ := ReturnStack.pop_of_concat hconcat
      simp only [onList, onStack, hpop, hconcat, numbers_concat, List.getLast?_concat, List.dropLast_concat]
      exact ⟨rfl, hdepth, congrArg numbers hentries⟩
  | peek =>
    simp only [onList, onStack, getLast?_numbers]
    exact ⟨rfl, rfl, rfl⟩
  | size =>
    simp only [onList, onStack, length_numbers]
    exact ⟨rfl, rfl, rfl⟩
  | isEmpty =>
    simp only [onList, onStack, numbers, List.isEmpty_map]
    exact ⟨rfl, rfl, rfl⟩

/-! ### The cells are the stack -/

open Micro

/-- The cells are those of the machine with this stack, whatever the slots hold that are not in use. -/
def Cells (m : Machine) (s : ReturnStack) (store : Store) : Prop :=
  ∃ r : Rest, r.Fits { m with stack := s } ∧ store = { m with stack := s }.bare r

theorem simulates_cells (m : Machine) :
    Simulates (Cells m) (Except.mapError Trap.refused) onStack onCells := by
  rintro s - c ⟨r, hfits, rfl⟩
  have hlength : s.entries.length + r.stale.length = s.depth := hfits
  cases c with
  | push address =>
    have hrun := run_push { m with stack := s } r hfits address
    simp only [onStack, onCells, code]
    cases hpush : s.push address with
    | error fault =>
      simp only [hpush] at hrun
      rw [run_bind_of_error hrun]
      exact ⟨rfl, r, hfits, rfl⟩
    | ok pushed =>
      obtain ⟨-, -, hroom, hentries, hdepth⟩ := ReturnStack.push_eq_ok hpush
      simp only [hpush] at hrun
      rw [run_bind_of_ok hrun]
      refine ⟨rfl, { r with stale := r.stale.tail }, ?_, rfl⟩
      change pushed.entries.length + r.stale.tail.length = pushed.depth
      rw [hentries, hdepth, List.length_append, List.length_singleton, List.length_tail]
      omega
  | pop =>
    have hrun := run_pop { m with stack := s } r
    simp only [onStack, onCells, code]
    cases hpop : s.pop with
    | error fault =>
      simp only [hpop] at hrun
      rw [run_bind_of_error hrun]
      exact ⟨rfl, r, hfits, rfl⟩
    | ok result =>
      obtain ⟨address, popped⟩ := result
      obtain ⟨hentries, hdepth⟩ := ReturnStack.pop_eq_ok hpop
      simp only [hpop] at hrun
      rw [run_bind_of_ok hrun]
      -- the address stays in its slot, which is now the first that is not in use
      refine ⟨rfl, { r with stale := address :: r.stale }, ?_, rfl⟩
      change popped.entries.length + (address :: r.stale).length = popped.depth
      rw [hentries, List.length_append, List.length_singleton] at hlength
      rw [hdepth, List.length_cons]
      omega
  | peek =>
    simp only [onStack, onCells, code]
    rw [run_bind_of_ok (run_peek { m with stack := s } r)]
    exact ⟨rfl, r, hfits, rfl⟩
  | size => exact ⟨rfl, r, hfits, rfl⟩
  | isEmpty =>
    refine ⟨?_, r, hfits, rfl⟩
    have hempty : decide (s.entries.length = 0) = s.entries.isEmpty := by
      cases s.entries <;> rfl
    exact congrArg (fun b => Except.ok (Answer.flag b)) hempty

theorem Cells.live {m : Machine} {s : ReturnStack} {store : Store} (h : Cells m s store) : store.live = s.entries := by
  obtain ⟨r, -, rfl⟩ := h
  exact List.take_left

theorem Cells.length_slots {m : Machine} {s : ReturnStack} {store : Store} (h : Cells m s store) :
    store.slots.length = s.depth := by
  obtain ⟨r, hfits, rfl⟩ := h
  exact (List.length_append ..).trans hfits

/-- Other values in the slots that are not in use make no difference to what the cells stand for. -/
theorem Cells.with_slots {m : Machine} {s : ReturnStack} {store : Store} (h : Cells m s store) {others : List UInt16}
    (hlength : others.length = s.depth) : Cells m s { store with slots := store.live ++ others.drop store.top } := by
  have hlive := h.live
  obtain ⟨r, hfits, rfl⟩ := h
  refine ⟨{ r with stale := others.drop s.entries.length }, ?_, ?_⟩
  · have hle := s.length_le
    change s.entries.length + (others.drop s.entries.length).length = s.depth
    rw [List.length_drop]
    omega
  · rw [hlive]
    rfl

end StackCall

open StackCall Micro

/-- A new stack of any depth answers every history of calls as a list of at most so many numbers does, refusals
included, and holds what the list holds. So do slots that are all zero at first, and to every further call they answer
the same when the slots that are not in use hold any other values. -/
theorem stack_is_bounded_list (depth : Nat) (m : Machine) (r : Rest) (history : List StackCall) :
    let new := { m.bare r with slots := List.replicate depth 0, top := 0 }
    let list := after (onList depth) [] history
    let store := after onCells new history
    ReturnStack.ofDepth depth = .ok (ReturnStack.empty depth) ∧
    answers onStack (ReturnStack.empty depth) history = answers (onList depth) [] history ∧
    answers onCells new history = (answers (onList depth) [] history).map (Except.mapError Trap.refused) ∧
    numbers (after onStack (ReturnStack.empty depth) history).entries = list ∧ numbers store.live = list ∧
    list.length ≤ depth ∧ (∀ n ∈ list, 0 ≤ n ∧ n ≤ 65535) ∧
    store.slots.length = depth ∧
    ∀ (others : List UInt16) (more : List StackCall), others.length = depth →
      answers onCells { store with slots := store.live ++ others.drop store.top } more = answers onCells store more := by
  intro new list store
  have hnew : Cells m (ReturnStack.empty depth) new := by
    refine ⟨{ r with stale := List.replicate depth 0 }, ?_, rfl⟩
    change 0 + (List.replicate depth (0 : UInt16)).length = depth
    rw [List.length_replicate, Nat.zero_add]
  have hlists : Lists depth [] (ReturnStack.empty depth) := ⟨rfl, rfl⟩
  have hstack : answers onStack (ReturnStack.empty depth) history = answers (onList depth) [] history := by
    rw [(simulates_stack depth).answers hlists history, List.map_id]
  obtain ⟨hdepth, hnumbers⟩ := (simulates_stack depth).after hlists history
  have hcells := (simulates_cells m).after hnew history
  refine ⟨rfl, hstack, ?_, hnumbers, ?_, ?_, ?_, hcells.length_slots.trans hdepth, ?_⟩
  · rw [(simulates_cells m).answers hnew history, hstack]
  · rw [hcells.live, hnumbers]
  · have hle := (after onStack (ReturnStack.empty depth) history).length_le
    rw [hdepth, ← length_numbers, hnumbers] at hle
    exact hle
  · intro n hn
    have hmem : n ∈ numbers (after onStack (ReturnStack.empty depth) history).entries := by
      rw [hnumbers]
      exact hn
    exact mem_numbers hmem
  · intro others more hlength
    have hothers := hcells.with_slots (hlength.trans hdepth.symm)
    rw [(simulates_cells m).answers hothers more, (simulates_cells m).answers hcells more]

/-- Of two slots one was popped, and its address is still there; another value in its place is not seen. -/
theorem stack_is_bounded_list_popped :
    let history : List StackCall := [.push 5, .push 65536, .push 6, .push 65536, .pop]
    let new := { ({} : Machine).bare ⟨[], false, []⟩ with slots := List.replicate 2 0, top := 0 }
    let list := after (onList 2) [] history
    let store := after onCells new history
    answers (onList 2) [] history =
        [.ok .nothing, .error (.addressRange 65536), .ok .nothing, .error .stackOverflow, .ok (.number 6)] ∧
      (5 : Int) ∈ list ∧ (0 : Int) ≤ 5 ∧ (5 : Int) ≤ 65535 ∧
      store.slots = [5, 6] ∧ store.top = 1 ∧ [8, 9].length = 2 ∧
      answers onCells { store with slots := store.live ++ [8, 9].drop store.top } [.peek, .pop, .pop] =
        answers onCells store [.peek, .pop, .pop] := by
  intro history new list store
  have hlist : answers (onList 2) [] history =
      [.ok .nothing, .error (.addressRange 65536), .ok .nothing, .error .stackOverflow, .ok (.number 6)] := by
    decide
  have hmem : (5 : Int) ∈ list := by decide
  have hslots : store.slots = [5, 6] := by decide +kernel
  have htop : store.top = 1 := by decide +kernel
  obtain ⟨-, -, -, -, -, -, hrange, -, hunseen⟩ := stack_is_bounded_list 2 {} ⟨[], false, []⟩ history
  obtain ⟨h0, h1⟩ := hrange 5 hmem
  exact ⟨hlist, hmem, h0, h1, hslots, htop, rfl, hunseen [8, 9] [.peek, .pop, .pop] rfl⟩

end ChipEight
