import ChipEight.Proofs.Effects
import ChipEight.Proofs.Micro.Simulation

/-!
# Calls and returns

Of all that can happen to a machine only cycles that execute a call or a return touch the stack: a call puts the
address behind it on top, a return takes the top off and goes there (`Machine.cycle_stack`).

So what a call finds on the stack stays there, under the return address of the call, until that address is the top and
a return takes it off (`Machine.above_effect`, `Machine.above_after`), and the depth is what calls have put on it less
what returns have taken off (`Machine.balanced_after`). `Micro.Store.live` is the part of the slots that is in use.
-/

namespace ChipEight

def Instruction.isCall : Instruction → Bool
  | call _ => true
  | _ => false

/-! ### Instructions that are executed -/

/-- The instruction that the next cycle executes; a cycle that is refused or comes upon an unknown opcode executes
none. -/
def Machine.executed? (m : Machine) : Option Instruction :=
  match m.cycle.2 with
  | .ok (.known i) => some i
  | _ => none

/-- The instructions that at most `n` cycles execute, until one is refused. -/
def Machine.executedBy (m : Machine) : Nat → List Instruction
  | 0 => []
  | n + 1 =>
    match m.cycle with
    | (_, .error _) => []
    | (after, .ok _) => m.executed?.toList ++ after.executedBy n

def HostStep.executed (m : Machine) : HostStep → List Instruction
  | cycle => m.executed?.toList
  | frame n => m.tick.executedBy n.toNat
  | _ => []

/-- The instructions that are executed while a host goes through its steps. -/
def Machine.executed (m : Machine) : List HostStep → List Instruction
  | [] => []
  | step :: steps => step.executed m ++ (step.effect m).executed steps

namespace Machine

/-! ### One cycle -/

theorem cycle_stack (m : Machine) :
    (m.executed? = some .ret ∧ ∃ address, m.stack.entries = m.cycle.1.stack.entries ++ [address] ∧
        m.cycle.1.counter = address.toNat) ∨
      (∃ nnn, m.executed? = some (.call nnn) ∧
        m.cycle.1.stack.entries = m.stack.entries ++ [UInt16.ofInt (m.counter + 2)]) ∨
      (m.executed? ≠ some .ret ∧ (∀ nnn, m.executed? ≠ some (.call nnn)) ∧ m.cycle.1.stack = m.stack) := by
  rcases m.cycle_cases with ⟨fault, hc⟩ | ⟨op, hc⟩ | ⟨i, after, -, -, hi, hc⟩
  · have hnone : m.executed? = none := by rw [executed?, hc]
    rw [hnone, hc]
    exact .inr (.inr ⟨nofun, nofun, rfl⟩)
  · have hnone : m.executed? = none := by rw [executed?, hc]
    rw [hnone, hc]
    exact .inr (.inr ⟨nofun, nofun, rfl⟩)
  · have hsome : m.executed? = some i := by rw [executed?, hc]
    rw [hsome, hc]
    cases i with
    | ret =>
      obtain ⟨⟨address, stack⟩, hpop, rfl⟩ := Except.map_eq_ok hi
      exact .inl ⟨rfl, address, (ReturnStack.pop_eq_ok hpop).1, rfl⟩
    | call nnn =>
      obtain ⟨stack, hpush, rfl⟩ := Except.map_eq_ok hi
      exact .inr (.inl ⟨nnn, rfl, (ReturnStack.push_eq_ok hpush).2.2.2.1⟩)
    | _ =>
      rcases (confined_of_execute hi).stack with hret | ⟨nnn, hcall⟩ | hstack
      · cases hret
      · cases hcall
      · exact .inr (.inr ⟨nofun, nofun, hstack⟩)

theorem cycle_of_executed? {m : Machine} {i : Instruction} (h : m.executed? = some i) :
    m.cycle.2 = .ok (.known i) := by
  unfold executed? at h
  split at h
  · rename_i j hj
    cases h
    exact hj
  · cases h

theorem stack_effect (m : Machine) {step : HostStep} (hstep : step.runsCycles = false) :
    (step.effect m).stack = m.stack := by
  obtain ⟨memory, keypad, timers, screen, heffect⟩ := HostStep.effect_eq m hstep
  rw [heffect]

/-! ### Return addresses stay where they are -/

/-- A step leaves the lower part of the stack as it is, or it is the return that takes off its last address. -/
theorem above_effect {m : Machine} {s : List UInt16} {address : UInt16} (h : s ++ [address] <+: m.stack.entries)
    {step : HostStep} (hframe : step.isFrame = false) :
    s ++ [address] <+: (step.effect m).stack.entries ∨
      step = .cycle ∧ m.cycle.2 = .ok (.known .ret) ∧ m.cycle.1.counter = address.toNat ∧
        m.cycle.1.stack.entries = s := by
  by_cases hcycle : step = .cycle
  · subst hcycle
    rw [HostStep.effect]
    rcases m.cycle_stack with ⟨hret, top, hentries, hcounter⟩ | ⟨nnn, -, hentries⟩ | ⟨-, -, hstack⟩
    · -- the return takes off the address in question, or one above it
      rw [hentries, List.prefix_concat_iff] at h
      rcases h with heq | hbelow
      · obtain ⟨rfl, htop⟩ := List.append_inj' heq rfl
        cases htop
        exact .inr ⟨rfl, cycle_of_executed? hret, hcounter, rfl⟩
      · exact .inl hbelow
    · rw [hentries]
      exact .inl (h.trans (List.prefix_append _ _))
    · rw [hstack]
      exact .inl h
  · have hstep : step.runsCycles = false := by
      cases step with
      | cycle => exact absurd rfl hcycle
      | frame n => cases hframe
      | _ => rfl
    rw [stack_effect m hstep]
    exact .inl h

/-- The stack is deeper than this. -/
def Deeper (depth : Nat) (m : Machine) : Prop := depth < m.stack.entries.length

instance (depth : Nat) : DecidablePred (Deeper depth) := fun m =>
  inferInstanceAs (Decidable (depth < m.stack.entries.length))

theorem above_after {m : Machine} {s : List UInt16} {address : UInt16} (h : s ++ [address] <+: m.stack.entries)
    {steps : List HostStep} (hframe : ∀ step ∈ steps, step.isFrame = false) (hdeep : m.Throughout (Deeper s.length) steps) :
    s ++ [address] <+: (m.after steps).stack.entries := by
  induction steps generalizing m with
  | nil => exact h
  | cons step steps ih =>
    rw [List.forall_mem_cons] at hframe
    have hrest := hdeep.of_cons
    rcases above_effect h hframe.1 with habove | ⟨rfl, -, -, hreturned⟩
    · exact ih habove hframe.2 hrest
    · -- that return would have brought the stack down to `s`
      have hnow : s.length < m.cycle.1.stack.entries.length := hrest.now
      rw [hreturned] at hnow
      exact absurd hnow (Nat.lt_irrefl _)

/-! ### Depth -/

/-- The depth of the stack changes by the calls and returns among some instructions. -/
def Balanced (m after : Machine) (instructions : List Instruction) : Prop :=
  after.stack.entries.length + instructions.count .ret = m.stack.entries.length + instructions.countP Instruction.isCall

theorem Balanced.trans {m after later : Machine} {first second : List Instruction} (h : m.Balanced after first)
    (h' : after.Balanced later second) : m.Balanced later (first ++ second) := by
  unfold Balanced at h h' ⊢
  rw [List.count_append, List.countP_append]
  omega

theorem balanced_of_stack {m after : Machine} (h : after.stack = m.stack) : m.Balanced after [] := by
  unfold Balanced
  rw [h]
  rfl

theorem balanced_cycle (m : Machine) : m.Balanced m.cycle.1 m.executed?.toList := by
  unfold Balanced
  rcases m.cycle_stack with ⟨hret, address, hentries, -⟩ | ⟨nnn, hcall, hentries⟩ | ⟨hret, hcall, hstack⟩
  · rw [hret, hentries, List.length_append]
    rfl
  · rw [hcall, hentries, List.length_append]
    rfl
  · rw [hstack]
    cases hi : m.executed? with
    | none => rfl
    | some i =>
      rw [hi] at hret hcall
      cases i with
      | ret => exact absurd rfl hret
      | call nnn => exact absurd rfl (hcall nnn)
      | _ => rfl

theorem balanced_cyclesOf (m : Machine) (n : Nat) : m.Balanced (m.cyclesOf n).1 (m.executedBy n) := by
  induction n generalizing m with
  | zero => exact balanced_of_stack rfl
  | succ n ih =>
    have hcycle := m.balanced_cycle
    unfold cyclesOf executedBy
    cases hc : m.cycle with
    | mk after result =>
      cases result with
      | error fault =>
        have hnone : m.executed? = none := by rw [executed?, hc]
        rw [hnone, hc] at hcycle
        exact hcycle
      | ok step =>
        rw [hc] at hcycle
        exact hcycle.trans (ih after)

theorem balanced_effect (m : Machine) (step : HostStep) : m.Balanced (step.effect m) (step.executed m) := by
  cases step with
  | cycle => exact m.balanced_cycle
  | frame n => exact m.tick.balanced_cyclesOf n.toNat
  | load rom => exact balanced_of_stack (m.stack_effect rfl)
  | _ => exact balanced_of_stack rfl

theorem balanced_after (m : Machine) (steps : List HostStep) : m.Balanced (m.after steps) (m.executed steps) := by
  induction steps generalizing m with
  | nil => exact balanced_of_stack rfl
  | cons step steps ih => exact (m.balanced_effect step).trans (ih (step.effect m))

/-! ### The call -/

/-- The call of a subroutine, with room on the stack, is not refused. -/
theorem cycle_of_call {m : Machine} (hs : m.Sound) {nnn : Fin 4096} (hroom : m.stack.entries.length < 16)
    (hreads : m.Reads (Instruction.call nnn).word) :
    m.cycle.2 = .ok (.known (.call nnn)) ∧
      ∃ address : UInt16, (address.toNat : Int) = m.counter + 2 ∧ m.cycle.1.counter = nnn.val ∧
        m.cycle.1.stack.entries = m.stack.entries ++ [address] := by
  have h0 := hreads.1
  have h1 := hreads.2.1
  have hdepth : m.stack.depth = 16 := hs.depth
  have hpush : ∃ stack, m.stack.push (m.counter + 2) = .ok stack := by
    cases hp : m.stack.push (m.counter + 2) with
    | ok stack => exact ⟨stack, rfl⟩
    | error fault =>
      obtain ⟨hfull, -⟩ := (ReturnStack.push_eq_error_iff (by omega) (by omega) fault).1 hp
      omega
  obtain ⟨stack, hpush⟩ := hpush
  obtain ⟨hnonneg, hlt, -, hentries, -⟩ := ReturnStack.push_eq_ok hpush
  have hi : m.count.pass.execute (.call nnn) = .ok { m.count.pass with counter := nnn.val, stack := stack } := by
    change (m.stack.push (m.counter + 2)).map _ = _
    rw [hpush]
    rfl
  rw [cycle_of_reads hreads trivial, hi]
  exact ⟨rfl, _, ReturnStack.toNat_ofInt_of_lt hnonneg hlt, rfl, hentries⟩

end Machine

/-! ### Slots -/

namespace Micro

/-- The slots that are in use, the oldest first. -/
def Store.live (s : Store) : List UInt16 := s.slots.take s.top

theorem Mirrors.live {store : Store} {s : Session} {lines : List String} (h : Mirrors store s lines) :
    store.live = s.machine.stack.entries := by
  obtain ⟨r, rfl, -, -, -⟩ := h
  exact List.take_left

theorem Mirrors.counter {store : Store} {s : Session} {lines : List String} (h : Mirrors store s lines) :
    store.counter = s.machine.counter := by
  obtain ⟨r, rfl, -, -, -⟩ := h
  rfl

theorem Store.after_append (s : Store) (first second : List HostStep) :
    s.after (first ++ second) = (s.after first).after second :=
  List.foldl_append

end Micro

open Micro

/-- From a call on, what was on the stack stays there under the return address, as long as the stack is deeper than
before the call. When it first is not, a return was executed that goes to the address behind the call, and the stack
is what it was. The depth of the stack is what it was before some steps, with the calls among them and without the
returns. The slots in use are the stack. -/
theorem call_returns_behind (dialect : Dialect) (layout : Layout) (random : Wheel) (logging : Bool)
    (steps : List HostStep) :
    let m := (Machine.fresh dialect layout random).after steps
    let store := (Store.fresh dialect layout random logging).after steps
    let s := m.stack.entries
    (∀ nnn : Fin 4096, s.length < 16 → m.Reads (0x2000 + nnn) →
      m.cycle.2 = .ok (.known (.call nnn)) ∧
      ∃ address : UInt16, (address.toNat : Int) = m.counter + 2 ∧ m.cycle.1.counter = nnn.val ∧
        m.cycle.1.stack.entries = s ++ [address] ∧
        ∀ more : List HostStep, (∀ step ∈ more, step.isFrame = false) → m.cycle.1.Throughout (Machine.Deeper s.length) more →
          let now := m.cycle.1.after more
          s ++ [address] <+: now.stack.entries ∧
          ∀ step : HostStep, step.isFrame = false → (step.effect now).stack.entries.length ≤ s.length →
            step = .cycle ∧ now.cycle.2 = .ok (.known .ret) ∧ now.cycle.1.counter = m.counter + 2 ∧
              now.cycle.1.stack.entries = s) ∧
    ∀ more : List HostStep,
      (m.after more).stack.entries.length + (m.executed more).count .ret =
          s.length + (m.executed more).countP Instruction.isCall ∧
        (m.after more).stack.entries.length ≤ 16 ∧
        (store.after more).live = (m.after more).stack.entries ∧ (store.after more).counter = (m.after more).counter := by
  intro m store s
  have hs : m.Sound := Machine.sound_after dialect layout random steps
  constructor
  · intro nnn hroom hreads
    obtain ⟨hcall, address, haddress, hcounter, hentries⟩ := Machine.cycle_of_call hs hroom hreads
    refine ⟨hcall, address, haddress, hcounter, hentries, ?_⟩
    intro more hframe hdeep now
    have hcalled : s ++ [address] <+: m.cycle.1.stack.entries := ⟨[], by rw [List.append_nil, hentries]⟩
    have habove : s ++ [address] <+: now.stack.entries := Machine.above_after hcalled hframe hdeep
    refine ⟨habove, ?_⟩
    intro step hstep hshallow
    rcases Machine.above_effect habove hstep with hstays | ⟨hcycle, hret, hback, hrest⟩
    · have hlength := hstays.length_le
      rw [List.length_append, List.length_singleton] at hlength
      omega
    · exact ⟨hcycle, hret, hback.trans haddress, hrest⟩
  · intro more
    have hmore : (m.after more).Sound := Machine.after_induction Machine.kept_sound hs more
    obtain ⟨-, hmirrors⟩ := reachable dialect layout random logging (steps ++ more)
    have hmachine : ((Session.fresh dialect layout random logging).after (steps ++ more)).machine = m.after more := by
      rw [machine_after, Machine.after_append]
      rfl
    have hlive := hmirrors.live
    have hcounter := hmirrors.counter
    rw [hmachine, Store.after_append] at hlive hcounter
    refine ⟨m.balanced_after more, ?_, hlive, hcounter⟩
    have hdepth : (m.after more).stack.depth = 16 := hmore.depth
    have hle := (m.after more).stack.length_le
    omega

/-- A subroutine that calls another one, with a key pressed meanwhile. -/
theorem call_returns_behind_nested :
    let rom : List UInt8 := [0x22, 0x06, 0x12, 0x02, 0x00, 0x00, 0x22, 0x0A, 0x00, 0xEE, 0x00, 0xEE]
    let m := (Machine.fresh Dialect.modern Layout.standard {}).after [.load rom]
    let more : List HostStep := [.cycle, .press 5, .cycle]
    let now := m.cycle.1.after more
    m.stack.entries.length < 16 ∧ m.Reads (0x2000 + (0x206 : Fin 4096)) ∧
      m.cycle.1.Throughout (Machine.Deeper m.stack.entries.length) more ∧ (HostStep.effect now .cycle).stack.entries.length ≤ 0 ∧
      now.cycle.2 = .ok (.known .ret) ∧ now.cycle.1.counter = m.counter + 2 := by
  intro rom m more now
  have hroom : m.stack.entries.length < 16 := by decide +kernel
  have hreads : m.Reads (0x2000 + (0x206 : Fin 4096)) := by decide +kernel
  have hdeep : m.cycle.1.Throughout (Machine.Deeper m.stack.entries.length) more := by decide +kernel
  have hshallow : (HostStep.effect now .cycle).stack.entries.length ≤ 0 := by decide +kernel
  obtain ⟨hcalls, -⟩ := call_returns_behind Dialect.modern Layout.standard {} false [.load rom]
  obtain ⟨-, address, -, -, -, hreturns⟩ := hcalls 0x206 hroom hreads
  obtain ⟨-, hback⟩ := hreturns more (by decide) hdeep
  obtain ⟨-, hret, hcounter, -⟩ := hback .cycle rfl (Nat.le_trans hshallow (Nat.zero_le _))
  exact ⟨hroom, hreads, hdeep, hshallow, hret, hcounter⟩

end ChipEight
