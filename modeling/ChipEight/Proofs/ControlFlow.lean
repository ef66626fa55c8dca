import ChipEight.Proofs.Faults
import ChipEight.Proofs.Footprints
import ChipEight.Proofs.RunCycles

/-!
# Where the counter goes

A cycle that succeeds leaves the counter at the target of its instruction (`Machine.target?`): jumps and calls at their
address, a return at the address it takes off the stack, a key wait that goes on where it was, and all others behind
their opcode or, if they skip, behind the next one. An unknown opcode is passed over.

Without jumps, calls, returns and key waits every cycle that succeeds therefore moves the counter on by an opcode at
least, and begins where there still is one. Whatever is stored or loaded meanwhile, such a run comes to the end of
memory (`Machine.advances_after`), so only so many of its cycles can succeed.
-/

namespace ChipEight

/-- The instruction, executed by this machine, skips the opcode behind it. -/
def Instruction.skips (m : Machine) : Instruction → Bool
  | skipIfByte x nn => m.v x = nn
  | skipUnlessByte x nn => m.v x ≠ nn
  | skipIfSame x y => m.v x = m.v y
  | skipUnlessSame x y => m.v x ≠ m.v y
  | skipIfKey x => m.keypad.down.get ⟨(m.v x).toNat % 16, Nat.mod_lt _ (by decide)⟩
  | skipUnlessKey x => !m.keypad.down.get ⟨(m.v x).toNat % 16, Nat.mod_lt _ (by decide)⟩
  | _ => false

/-- The instruction goes to one of the two opcodes behind its own. -/
def Instruction.isStraight : Instruction → Bool
  | jump _ | call _ | jumpOffset _ _ | ret | waitForKey _ => false
  | _ => true

namespace Machine

/-- A key wait of this machine goes on: it only begins, or no key was pressed. -/
def stalls (m : Machine) : Bool := m.waiting.isNone || m.keypad.pending.isNone

/-- Where the instruction at the counter leaves the counter. A return with no address to return to goes nowhere. -/
def target? (m : Machine) : Instruction → Option Int
  | .jump nnn | .call nnn => some nnn.val
  | .jumpOffset x nnn => some (nnn.val + (m.v (if m.dialect.jumpAddsX then x else Registers.base)).toNat)
  | .ret => m.stack.entries.getLast?.map fun address => (address.toNat : Int)
  | .waitForKey _ => some (if m.stalls then m.counter else m.counter + 2)
  | i => some (if i.skips m then m.counter + 4 else m.counter + 2)

/-! ### One instruction -/

theorem isDown_byte (k : Keypad) (b : UInt8) :
    k.isDown b.toNat = k.down.get ⟨b.toNat % 16, Nat.mod_lt _ (by decide)⟩ := by
  have hkey : Keypad.lowKey b.toNat = ⟨b.toNat % 16, Nat.mod_lt _ (by decide)⟩ := Fin.ext rfl
  rw [Keypad.isDown, hkey]

private theorem counter_passBlock (m : Machine) (x : Fin 16) : (m.passBlock x).counter = m.counter := by
  unfold passBlock
  split <;> rfl

private theorem counter_awaitKey (m : Machine) (x : Fin 16) :
    (m.count.pass.awaitKey x).counter = if m.stalls then m.counter else m.counter + 2 := by
  have hback : m.counter + 2 - 2 = m.counter := by omega
  unfold awaitKey stalls
  rw [show m.count.pass.waiting = m.waiting from rfl, show m.count.pass.keypad = m.keypad from rfl]
  cases m.waiting with
  | none => exact hback
  | some register =>
    cases m.keypad.pending with
    | none => exact hback
    | some key => rfl

/-- An instruction that is not refused leaves the counter at its target. -/
theorem target?_of_execute {m after : Machine} {i : Instruction} (hi : m.count.pass.execute i = .ok after) :
    m.target? i = some after.counter := by
  cases i with
  | ret =>
    obtain ⟨⟨address, stack⟩, hpop, rfl⟩ := Except.map_eq_ok hi
    have hentries : m.stack.entries = stack.entries ++ [address] := (ReturnStack.pop_eq_ok hpop).1
    change m.stack.entries.getLast?.map (fun address => (address.toNat : Int)) = _
    rw [hentries, List.getLast?_concat]
    rfl
  | call nnn =>
    obtain ⟨stack, -, rfl⟩ := Except.map_eq_ok hi
    rfl
  | skipIfByte x nn | skipUnlessByte x nn =>
    cases hi
    exact congrArg some (m.counter_pass_skipIf _).symm
  | skipIfSame x y | skipUnlessSame x y =>
    cases hi
    exact congrArg some (m.counter_pass_skipIf _).symm
  | skipIfKey x | skipUnlessKey x =>
    cases hi
    rw [counter_pass_skipIf, show m.count.pass.keypad.isDown (m.count.pass.v x).toNat = _ from isDown_byte m.keypad (m.v x)]
    rfl
  | jumpOffset x nnn =>
    cases hi
    rfl
  | waitForKey x =>
    cases hi
    exact congrArg some (m.counter_awaitKey x).symm
  | draw x y n =>
    obtain ⟨sprite, -, rfl⟩ := Except.map_eq_ok hi
    rfl
  | storeDecimal x =>
    obtain ⟨memory, -, rfl⟩ := Except.map_eq_ok hi
    rfl
  | storeRegisters x | loadRegisters x =>
    obtain ⟨part, -, rfl⟩ := Except.map_eq_ok hi
    rw [counter_passBlock]
    rfl
  | addToIndex x =>
    cases hi
    split <;> rfl
  | _ =>
    cases hi
    rfl

theorem le_of_target? {m : Machine} {i : Instruction} (hi : i.isStraight = true) {p : Int} (h : m.target? i = some p) :
    m.counter + 2 ≤ p := by
  cases i with
  | jump nnn | call nnn | jumpOffset x nnn | ret | waitForKey x => cases hi
  | _ =>
    rw [← Option.some.inj h]
    split <;> omega

/-! ### One cycle -/

theorem counter_of_ok {m : Machine} {step : Step} (h : m.cycle.2 = .ok step) : m.counter + 2 ≤ 4096 := by
  cases hop : m.fetch with
  | error fault =>
    rw [(cycle_eq_error_iff m fault).2 (.inl hop)] at h
    cases h
  | ok op => exact (fetch_eq_ok hop).2.1

theorem target?_cycle {m : Machine} {i : Instruction} (h : m.cycle.2 = .ok (.known i)) :
    m.target? i = some m.cycle.1.counter :=
  target?_of_execute (execute_of_cycle h).2.2

theorem counter_of_unknown {m : Machine} {op : Opcode} (h : m.cycle.2 = .ok (.unknown op)) :
    m.cycle.1.counter = m.counter + 2 := by
  obtain ⟨w, -, hreads, hw⟩ := (m.cycle_eq_unknown_iff op).1 h
  rw [cycle_of_unassigned hreads hw]
  rfl

theorem counter_refused_le (m : Machine) : m.counter ≤ m.refused.counter := by
  unfold refused
  dsimp only
  split <;> omega

/-! ### Straight runs -/

/-- How many of some cycles succeed. -/
def succeeded (begun : List Machine) : Nat := begun.countP fun b => b.cycle.2.isOk

/-- The next cycle executes no instruction but a straight one. -/
def KeepsOn (m : Machine) : Prop := ∀ i, m.executed? = some i → i.isStraight = true

/-- Each of the cycles that succeed has moved the counter on by an opcode at least, and has found one in memory. -/
structure Advances (m : Machine) (begun : List Machine) (after : Machine) : Prop where
  le_counter : m.counter + 2 * succeeded begun ≤ after.counter
  le_size : succeeded begun = 0 ∨ m.counter + 2 * succeeded begun ≤ 4096

theorem Advances.append {m middle after : Machine} {first second : List Machine} (h : m.Advances first middle)
    (h' : middle.Advances second after) : m.Advances (first ++ second) after := by
  have hsum : succeeded (first ++ second) = succeeded first + succeeded second := List.countP_append
  obtain ⟨hle, hsize⟩ := h
  obtain ⟨hle', hsize'⟩ := h'
  constructor
  · omega
  · omega

theorem advances_nil {m after : Machine} (h : after.counter = m.counter) : m.Advances [] after :=
  ⟨by rw [h]; exact Int.le_of_eq (Int.add_zero _), .inl rfl⟩

theorem advances_cycle {m : Machine} (h : m.KeepsOn) : m.Advances [m] m.cycle.1 := by
  have hone : succeeded [m] = if m.cycle.2.isOk then 1 else 0 := by
    unfold succeeded
    rw [List.countP_cons, List.countP_nil, Nat.zero_add]
  cases hc : m.cycle.2 with
  | error fault =>
    have hnone : succeeded [m] = 0 := by rw [hone, hc]; rfl
    have hle := m.counter_refused_le
    rw [cycle_of_error hc]
    refine ⟨?_, .inl hnone⟩
    dsimp only
    omega
  | ok step =>
    have hsome : succeeded [m] = 1 := by rw [hone, hc]; rfl
    have hsize := counter_of_ok hc
    have hmoves : m.counter + 2 ≤ m.cycle.1.counter := by
      cases step with
      | unknown op => exact Int.le_of_eq (counter_of_unknown hc).symm
      | known i => exact le_of_target? (h i (by rw [executed?, hc])) (target?_cycle hc)
    exact ⟨by rw [hsome]; omega, .inr (by rw [hsome]; omega)⟩

theorem advances_cyclesOf {m : Machine} (n : Nat) (h : ∀ b ∈ m.begunBy n, b.KeepsOn) :
    m.Advances (m.begunBy n) (m.cyclesOf n).1 := by
  induction n generalizing m with
  | zero => exact advances_nil rfl
  | succ n ih =>
    unfold begunBy at h ⊢
    unfold cyclesOf
    rw [List.forall_mem_cons] at h
    have hfirst := advances_cycle h.1
    have hrest := h.2
    cases hc : m.cycle with
    | mk after result =>
      rw [hc] at hfirst hrest
      cases result with
      | error fault => exact hfirst
      | ok step => exact hfirst.append (ih hrest)

theorem advances_effect {m : Machine} (step : HostStep) (h : ∀ b ∈ step.begun m, b.KeepsOn) :
    m.Advances (step.begun m) (step.effect m) := by
  cases step with
  | cycle => exact advances_cycle (h m List.mem_cons_self)
  | frame n =>
    obtain ⟨hcounter, hsize⟩ := advances_cyclesOf (m := m.tick) n.toNat h
    exact ⟨hcounter, hsize⟩
  | load rom =>
    have hload : (HostStep.load rom).runsCycles = false := rfl
    obtain ⟨memory, keypad, timers, screen, heffect⟩ := HostStep.effect_eq m hload
    exact advances_nil (by rw [heffect])
  | _ => exact advances_nil rfl

/-- However the host cuts a straight run into steps, each of its cycles that succeed has moved the counter on. -/
theorem advances_after {m : Machine} {steps : List HostStep} (h : ∀ b ∈ m.begun steps, b.KeepsOn) :
    m.Advances (m.begun steps) (m.after steps) := by
  induction steps generalizing m with
  | nil => exact advances_nil rfl
  | cons step steps ih =>
    obtain ⟨hstep, hsteps⟩ := List.forall_mem_append.1 h
    exact (advances_effect step hstep).append (ih hsteps)

theorem Advances.succeeded_le {m after : Machine} {begun : List Machine} (h : m.Advances begun after) :
    succeeded begun ≤ (max 0 ((4096 - m.counter) / 2)).toNat := by
  have hsize := h.le_size
  omega

/-- Of more cycles than can succeed one is refused. -/
theorem exists_error_of_succeeded_lt {begun : List Machine} {n : Nat} (hlength : n < begun.length)
    (h : succeeded begun ≤ n) : ∃ b ∈ begun.take (n + 1), ∃ fault, b.cycle.2 = .error fault := by
  by_contra hnone
  have hall : ∀ b ∈ begun.take (n + 1), b.cycle.2.isOk = true := by
    intro b hb
    cases hc : b.cycle.2 with
    | ok step => rfl
    | error fault => exact absurd ⟨b, hb, fault, hc⟩ hnone
  have hcount : succeeded (begun.take (n + 1)) = n + 1 := by
    rw [succeeded, List.countP_eq_length.2 hall, List.length_take]
    omega
  have hle : succeeded (begun.take (n + 1)) ≤ succeeded begun := (List.take_sublist _ _).countP_le
  omega

end Machine

open Micro

/-- A cycle that succeeds leaves the counter at the target of the instruction it has read, or behind the opcode that
stands for none, and so does the cycle on bare cells. In a run that executes straight instructions only, no more cycles
succeed than there are opcodes from its counter to the end of memory: if there are more cycles, one of them is refused,
by a fault that stops the program. -/
theorem counter_goes_to_target (dialect : Dialect) (layout : Layout) (random : Wheel) (logging : Bool)
    (steps : List HostStep) :
    let m := (Machine.fresh dialect layout random).after steps
    let s := (Session.fresh dialect layout random logging).after steps
    let store := (Store.fresh dialect layout random logging).after steps
    let lines := (Session.fresh dialect layout random logging).printed steps
    (∀ i, m.cycle.2 = .ok (.known i) → m.Reads i.word ∧ i.Proper ∧ m.target? i = some m.cycle.1.counter) ∧
    (∀ op, m.cycle.2 = .ok (.unknown op) →
      (∃ w : Nat, op = ⟨w⟩ ∧ m.Reads w ∧ Instruction.Unassigned w) ∧ m.cycle.1.counter = m.counter + 2) ∧
    (s.machine = m ∧ Mirrors store s lines ∧ (run cycle store).1 = outcome (s.perform .cycle) ∧
      (run cycle store).2.counter = m.cycle.1.counter) ∧
    ∀ more : List HostStep, (∀ i ∈ m.executed more, i.isStraight = true) →
      let room := (max 0 ((4096 - m.counter) / 2)).toNat
      Machine.succeeded (m.begun more) ≤ room ∧
      (room < (m.begun more).length →
        ∃ b ∈ (m.begun more).take (room + 1), ∃ fault, b.cycle.2 = .error fault ∧ fault.stopsProgram = true) := by
  intro m s store lines
  obtain ⟨hsound, hmirrors⟩ := reachable dialect layout random logging steps
  have hmachine : s.machine = m := machine_after _ steps
  refine ⟨?_, ?_, ⟨hmachine, hmirrors, ?_⟩, ?_⟩
  · intro i hi
    obtain ⟨hreads, hproper, -⟩ := Machine.execute_of_cycle hi
    exact ⟨hreads, hproper, Machine.target?_cycle hi⟩
  · intro op hop
    exact ⟨(m.cycle_eq_unknown_iff op).1 hop, Machine.counter_of_unknown hop⟩
  · obtain ⟨houtcome, hafter⟩ := run_perform hsound hmirrors .cycle
    have hcounter : (run cycle store).2.counter = s.machine.cycle.1.counter := by
      rw [← show (s.perform .cycle).session.machine = s.machine.cycle.1 from machine_perform s .cycle]
      exact hafter.counter
    rw [hmachine] at hcounter
    exact ⟨houtcome, hcounter⟩
  · intro more hstraight room
    have hkeeps : ∀ b ∈ m.begun more, b.KeepsOn := fun b hb i hi => hstraight i (Machine.mem_executed hb hi)
    have hcount : Machine.succeeded (m.begun more) ≤ room := (Machine.advances_after hkeeps).succeeded_le
    refine ⟨hcount, fun hlength => ?_⟩
    obtain ⟨b, hb, fault, hfault⟩ := Machine.exists_error_of_succeeded_lt hlength hcount
    rw [hmachine] at hsound
    have hb' : b.Sound := Machine.begun_induction Machine.kept_sound hsound more b (List.mem_of_mem_take hb)
    exact ⟨b, hb, fault, hfault, ((hb'.cycle_eq_error_iff fault).1 hfault).stops⟩

/-- A program that sets a register and jumps to the last two bytes of memory. They stand for no instruction, and behind
them there is no opcode. -/
theorem counter_goes_to_target_end :
    let rom : List UInt8 := [0x63, 0x05, 0x1F, 0xFE]
    let m := (Machine.fresh Dialect.modern Layout.standard {}).after [.load rom]
    let jumped := (Machine.fresh Dialect.modern Layout.standard {}).after [.load rom, .cycle, .cycle]
    let more : List HostStep := [.cycle, .press 3, .frame 9]
    (m.cycle.2 = .ok (.known (.setByte 3 5)) ∧ m.target? (.setByte 3 5) = some m.cycle.1.counter) ∧
      (jumped.cycle.2 = .ok (.unknown ⟨0⟩) ∧ jumped.cycle.1.counter = jumped.counter + 2) ∧
      ((∀ i ∈ m.executed [.cycle], i.isStraight = true) ∧ Machine.succeeded (m.begun [.cycle]) ≤ 1792) ∧
      (∀ i ∈ jumped.executed more, i.isStraight = true) ∧ Machine.succeeded (jumped.begun more) ≤ 1 ∧
      ∃ b ∈ (jumped.begun more).take 2, ∃ fault, b.cycle.2 = .error fault ∧ fault.stopsProgram = true := by
  intro rom m jumped more
  have hknown : m.cycle.2 = .ok (.known (.setByte 3 5)) := by decide +kernel
  have hunknown : jumped.cycle.2 = .ok (.unknown ⟨0⟩) := by decide +kernel
  have hone : ∀ i ∈ m.executed [.cycle], i.isStraight = true := by decide +kernel
  have hmore : ∀ i ∈ jumped.executed more, i.isStraight = true := by decide +kernel
  have hroom : (max 0 ((4096 - m.counter) / 2)).toNat = 1792 := by decide +kernel
  have hroom' : (max 0 ((4096 - jumped.counter) / 2)).toNat = 1 := by decide +kernel
  have hlength : 1 < (jumped.begun more).length := by decide +kernel
  obtain ⟨htargets, -, -, hruns⟩ := counter_goes_to_target Dialect.modern Layout.standard {} false [.load rom]
  obtain ⟨-, hpasses, -, hruns'⟩ :=
    counter_goes_to_target Dialect.modern Layout.standard {} false [.load rom, .cycle, .cycle]
  have hpassed : jumped.cycle.1.counter = jumped.counter + 2 := (hpasses _ hunknown).2
  obtain ⟨hcount, -⟩ := hruns [.cycle] hone
  obtain ⟨hcount', hends⟩ := hruns' more hmore
  rw [hroom] at hcount
  rw [hroom'] at hcount' hends
  exact ⟨⟨hknown, (htargets _ hknown).2.2⟩, ⟨hunknown, hpassed⟩, ⟨hone, hcount⟩, hmore, hcount', hends hlength⟩

end ChipEight
