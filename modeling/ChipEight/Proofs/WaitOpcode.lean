import ChipEight.Proofs.Effects
import ChipEight.Proofs.KeyWait

/-!
# The wait stays at its opcode

The key wait writes the register that its opcode names, and tells by another register number that a key is awaited.
The two agree: `Machine.Anchored` says that the opcode at the counter is the wait for the register that is awaited.
Programs can write to their own opcodes, and do not while they wait: a cycle of the wait executes the wait and nothing
else (`Machine.Anchored.cycle_eq`). So `Anchored` holds after whatever a host does with a fresh machine, as long as it
loads no program once cycles have run (`Machine.anchored_after`).
-/

namespace ChipEight.Machine

/-- If a register is awaited, the opcode at the counter is that of the wait for it. -/
def Anchored (m : Machine) : Prop := ∀ x, m.waiting = some x → m.Reads (Instruction.waitForKey x).word

/-! ### Cycles of a wait -/

theorem Sound.pending_cases {m : Machine} (h : m.Sound) :
    m.keypad.pending = none ∨ ∃ key : Fin 16, m.keypad.pending = some (key.val : Int) := by
  cases hpending : m.keypad.pending with
  | none => exact .inl rfl
  | some key =>
    obtain ⟨h0, h16⟩ := h.pending key hpending
    refine .inr ⟨⟨key.toNat, by omega⟩, ?_⟩
    rw [Int.toNat_of_nonneg h0]

variable {m : Machine} {x : Fin 16}

/-- A cycle of the wait goes on with it, or stores the pending press in the register that was awaited. -/
theorem Anchored.cycle_eq (hs : m.Sound) (h : m.Anchored) (hx : m.waiting = some x) :
    (m.keypad.pending = none ∧
        m.cycle = ({ m with cycles := m.cycles + 1 }, .ok (.known (.waitForKey x)))) ∨
      ∃ key : Fin 16, m.keypad.pending = some (key.val : Int) ∧
        m.cycle = ({ m.setV x (UInt8.ofNat key.val) with
            keypad := m.keypad.take, waiting := none, counter := m.counter + 2, cycles := m.cycles + 1 },
          .ok (.known (.waitForKey x))) := by
  have hawaits : m.Awaits x m.counter := ⟨hx, rfl, h x hx⟩
  rcases hs.pending_cases with hnone | ⟨key, hsome⟩
  · exact .inl ⟨hnone, hawaits.cycle_of_none hnone⟩
  · exact .inr ⟨key, hsome, hawaits.cycle_of_some hsome⟩

/-- Only the key wait makes a machine await a register. -/
theorem starts_of_waiting (hnone : m.waiting = none) (hx : m.cycle.1.waiting = some x) :
    m.Reads (Instruction.waitForKey x).word := by
  rcases m.cycle_cases with ⟨fault, hc⟩ | ⟨op, hc⟩ | ⟨i, after, hreads, -, hi, hc⟩
  · rw [hc] at hx
    exact absurd (hnone.symm.trans hx) nofun
  · rw [hc] at hx
    exact absurd (hnone.symm.trans hx) nofun
  · rw [hc] at hx
    rcases (confined_of_execute hi).waiting with ⟨y, rfl⟩ | hsame
    · rw [cycle_of_not_waiting hreads hnone] at hc
      cases hc
      cases hx
      exact hreads
    · exact absurd (hnone.symm.trans (hsame.symm.trans hx)) nofun

theorem Anchored.cycle (hs : m.Sound) (h : m.Anchored) : m.cycle.1.Anchored := by
  intro x hx
  cases hwaiting : m.waiting with
  | none =>
    have hreads := starts_of_waiting hwaiting hx
    rw [cycle_of_not_waiting hreads hwaiting]
    exact hreads
  | some y =>
    rcases h.cycle_eq hs hwaiting with ⟨-, hc⟩ | ⟨key, -, hc⟩
    · rw [hc] at hx ⊢
      exact h x hx
    · rw [hc] at hx
      cases hx

/-! ### Whatever a host does -/

theorem waiting_effect (m : Machine) {step : HostStep} (hstep : step.runsCycles = false) :
    (step.effect m).waiting = m.waiting := by
  obtain ⟨memory, keypad, timers, screen, heffect⟩ := HostStep.effect_eq m hstep
  rw [heffect]

theorem Anchored.effect (hs : m.Sound) (h : m.Anchored) {step : HostStep} (hstep : step.loads = false) :
    (step.effect m).Anchored := by
  cases step with
  | load rom => cases hstep
  | cycle => exact h.cycle hs
  | frame n =>
    -- the machines between the cycles of a frame are sound as well
    have hcycle : ∀ m : Machine, m.Sound ∧ m.Anchored → m.cycle.1.Sound ∧ m.cycle.1.Anchored :=
      fun m hm => ⟨hm.1.cycle, hm.2.cycle hm.1⟩
    have htick : m.tick.Sound ∧ m.tick.Anchored := ⟨kept_sound.timers m m.timers.tick hs, h⟩
    exact (cyclesOf_induction hcycle htick n.toNat).2
  | _ => exact h

theorem anchored_after (dialect : Dialect) (layout : Layout) (random : Wheel) {early late : List HostStep}
    (hearly : ∀ step ∈ early, step.runsCycles = false) (hlate : ∀ step ∈ late, step.loads = false) :
    ((fresh dialect layout random).after (early ++ late)).Anchored := by
  have hnone : ((fresh dialect layout random).after early).waiting = none :=
    @after_induction_of (fun m => m.waiting = none) (fun step => step.runsCycles = false)
      (fun m step hm hstep => (m.waiting_effect hstep).trans hm) _ rfl early hearly
  have hloaded : ((fresh dialect layout random).after early).Anchored := by
    intro x hx
    exact absurd (hnone.symm.trans hx) nofun
  have hrun : ∀ (m : Machine) (step : HostStep), m.Sound ∧ m.Anchored → step.loads = false →
      (step.effect m).Sound ∧ (step.effect m).Anchored :=
    fun m step hm hstep => ⟨kept_sound.effect hm.1 step, hm.2.effect hm.1 hstep⟩
  rw [after_append]
  exact (after_induction_of hrun ⟨sound_after dialect layout random early, hloaded⟩ hlate).2

/-! ### From the beginning of a wait to its end -/

/-- Some register is awaited. -/
def Waits (m : Machine) : Prop := m.waiting ≠ none

instance : DecidablePred Waits := fun m => inferInstanceAs (Decidable (m.waiting ≠ none))

/-- A step that leaves a register awaited leaves the same one awaited, at the same opcode. -/
theorem Anchored.effect_waiting (hs : m.Sound) (h : m.Anchored) (hx : m.waiting = some x) {step : HostStep}
    (hstep : step.loads = false) (hframe : step.isFrame = false) (hgo : (step.effect m).waiting ≠ none) :
    (step.effect m).waiting = some x ∧ (step.effect m).counter = m.counter := by
  cases step with
  | load rom => cases hstep
  | frame n => cases hframe
  | cycle =>
    rcases h.cycle_eq hs hx with ⟨-, hc⟩ | ⟨key, -, hc⟩
    · rw [HostStep.effect, hc]
      exact ⟨hx, rfl⟩
    · rw [HostStep.effect, hc] at hgo
      exact absurd rfl hgo
  | _ => exact ⟨hx, rfl⟩

theorem Anchored.after_waiting (hs : m.Sound) (h : m.Anchored) (hx : m.waiting = some x) {steps : List HostStep}
    (hsteps : ∀ step ∈ steps, step.loads = false ∧ step.isFrame = false) (hgo : m.Throughout Waits steps) :
    (m.after steps).waiting = some x ∧ (m.after steps).counter = m.counter := by
  induction steps generalizing m with
  | nil => exact ⟨hx, rfl⟩
  | cons step steps ih =>
    rw [List.forall_mem_cons] at hsteps
    obtain ⟨⟨hload, hframe⟩, hrest⟩ := hsteps
    have hfirst : (step.effect m).waiting ≠ none := hgo.of_cons.now
    obtain ⟨hwaiting, hcounter⟩ := h.effect_waiting hs hx hload hframe hfirst
    obtain ⟨hend, hcounterEnd⟩ := ih (kept_sound.effect hs step) (h.effect hs hload) hwaiting hrest hgo.of_cons
    exact ⟨hend, hcounterEnd.trans hcounter⟩

theorem bytes_of_reads_wait (h : m.Reads (Instruction.waitForKey x).word) :
    (m.memory.byteAt m.counter.toNat).toNat = 0xF0 + x ∧ (m.memory.byteAt (m.counter.toNat + 1)).toNat = 0x0A := by
  have hlow := (m.memory.byteAt (m.counter.toNat + 1)).toNat_lt
  obtain ⟨-, -, hword⟩ := h
  simp only [Instruction.word] at hword
  constructor <;> omega

/-- While a register is awaited, the two bytes at the counter are the wait for that register; every cycle executes
this wait and no other instruction, is not refused, and what it stores goes to the register that was awaited when the
wait began. Bare cells await the same register, and no cycle of the wait ends in a trap. -/
theorem awaited_register_is_operand (dialect : Dialect) (layout : Layout) (random : Wheel) (logging : Bool)
    (early late : List HostStep) (hearly : ∀ step ∈ early, step.runsCycles = false)
    (hlate : ∀ step ∈ late, step.loads = false) :
    let m := (fresh dialect layout random).after (early ++ late)
    let s := (Session.fresh dialect layout random logging).after (early ++ late)
    let store := (Micro.Store.fresh dialect layout random logging).after (early ++ late)
    let lines := (Session.fresh dialect layout random logging).printed (early ++ late)
    (∀ x : Fin 16, m.waiting = some x →
      (0 ≤ m.counter ∧ m.counter ≤ 4094 ∧ (m.memory.byteAt m.counter.toNat).toNat = 0xF0 + x ∧
        (m.memory.byteAt (m.counter.toNat + 1)).toNat = 0x0A) ∧
      ((m.keypad.pending = none ∧
          m.cycle = ({ m with cycles := m.cycles + 1 }, .ok (.known (.waitForKey x)))) ∨
        ∃ key : Fin 16, m.keypad.pending = some (key.val : Int) ∧
          m.cycle = ({ m.setV x (UInt8.ofNat key.val) with
              keypad := m.keypad.take, waiting := none, counter := m.counter + 2, cycles := m.cycles + 1 },
            .ok (.known (.waitForKey x)))) ∧
      ∀ more : List HostStep, (∀ step ∈ more, step.loads = false ∧ step.isFrame = false) → m.Throughout Waits more →
        (m.after more).waiting = some x ∧ (m.after more).counter = m.counter) ∧
    (∀ x : Fin 16, m.waiting = none → m.cycle.1.waiting = some x →
      m.cycle.2 = .ok (.known (.waitForKey x)) ∧ m.cycle.1.counter = m.counter) ∧
    s.machine = m ∧ Micro.Mirrors store s lines ∧
      (∀ x : Fin 16, m.waiting = some x →
        store.waiting = some (x.val : Int) ∧ (Micro.run Micro.cycle store).1 = .ok ()) ∧
      Micro.Mirrors (Micro.run Micro.cycle store).2 (s.perform .cycle).session
        (lines ++ (s.perform .cycle).lines.toList) := by
  intro m s store lines
  have hs : m.Sound := sound_after dialect layout random (early ++ late)
  have h : m.Anchored := anchored_after dialect layout random hearly hlate
  have hmachine : s.machine = m := machine_after _ _
  obtain ⟨hsound, hmirrors⟩ := Micro.reachable dialect layout random logging (early ++ late)
  refine ⟨?_, ?_, hmachine, hmirrors, ?_, (Micro.run_perform hsound hmirrors .cycle).2⟩
  · intro x hx
    have hreads := h x hx
    obtain ⟨hhigh, hlow⟩ := bytes_of_reads_wait hreads
    refine ⟨⟨hreads.1, ?_, hhigh, hlow⟩, h.cycle_eq hs hx, ?_⟩
    · have hfits := hreads.2.1
      omega
    · intro more hmore hgo
      exact h.after_waiting hs hx hmore hgo
  · intro x hnone hx
    have hreads := starts_of_waiting hnone hx
    rw [cycle_of_not_waiting hreads hnone]
    exact ⟨rfl, rfl⟩
  · intro x hx
    have hawaits : m.Awaits x m.counter := ⟨hx, rfl, h x hx⟩
    have hcycle : s.machine.cycle.2 = .ok (.known (.waitForKey x)) := by
      rw [hmachine]
      exact hawaits.cycle_known
    refine ⟨?_, Micro.run_cycle_of_ok hsound hmirrors hcycle⟩
    obtain ⟨r, hcells, -⟩ := hmirrors
    have hwaiting : store.waiting = s.machine.waiting.map fun x : Fin 16 => (x.val : Int) :=
      congrArg Micro.Store.waiting hcells
    rw [hwaiting, hmachine, hx]
    rfl

/-- Key 4 is held when the program begins to wait for a key in VA; a press of key 9 is taken away by the host. -/
theorem awaited_register_is_operand_ten :
    let early : List HostStep := [.press 4, .load [0x6A, 0x07, 0xFA, 0x0A]]
    let late : List HostStep := [.frame 3, .press 9, .takePress, .press 2]
    let m := (fresh Dialect.modern Layout.standard {}).after (early ++ late)
    (∀ step ∈ early, step.runsCycles = false) ∧ (∀ step ∈ late, step.loads = false) ∧ m.waiting = some 10 ∧
      m.Throughout Waits [.tick, .release 2] ∧
      ((m.memory.byteAt m.counter.toNat).toNat = 0xF0 + (10 : Fin 16) ∧
        (m.after [.tick, .release 2]).waiting = some 10) ∧
      ∃ key : Fin 16, m.keypad.pending = some (key.val : Int) ∧ m.cycle.1.v 10 = UInt8.ofNat key.val := by
  have hearly : ∀ step ∈ [HostStep.press 4, .load [0x6A, 0x07, 0xFA, 0x0A]], step.runsCycles = false := by decide
  have hlate : ∀ step ∈ [HostStep.frame 3, .press 9, .takePress, .press 2], step.loads = false := by decide
  obtain ⟨hwait, -⟩ :=
    awaited_register_is_operand Dialect.modern Layout.standard {} false _ _ hearly hlate
  have hx : ((fresh Dialect.modern Layout.standard {}).after
      ([.press 4, .load [0x6A, 0x07, 0xFA, 0x0A]] ++ [.frame 3, .press 9, .takePress, .press 2])).waiting = some 10 := by
    decide +kernel
  have hgo : ((fresh Dialect.modern Layout.standard {}).after
      ([.press 4, .load [0x6A, 0x07, 0xFA, 0x0A]] ++ [.frame 3, .press 9, .takePress, .press 2])).Throughout Waits
        [.tick, .release 2] := by
    decide +kernel
  obtain ⟨⟨-, -, hhigh, -⟩, hcycle, hrun⟩ := hwait 10 hx
  refine ⟨hearly, hlate, hx, hgo, ⟨hhigh, (hrun _ (by decide) hgo).1⟩, ?_⟩
  rcases hcycle with ⟨hnone, -⟩ | ⟨key, hsome, hc⟩
  · exact absurd hnone (by decide +kernel)
  · refine ⟨key, hsome, ?_⟩
    rw [hc]
    simp [Machine.v, Machine.setV, get_setAt]

end ChipEight.Machine
