import ChipEight.Proofs.Footprints
import ChipEight.Proofs.RunCycles

/-!
# What programs see of the devices

Keys and timers influence a program only through the four instructions that read them. `Machine.core` is a machine
without its devices, and without the count of its cycles. Every other instruction does to the core what it does to the
machine (`Machine.core_execute`), and a host that runs no cycle leaves the core alone. So two machines with the same
core stay alike cycle by cycle, however their hosts cut the cycles into frames and whatever they do with keys and
timers (`Machine.devices_unseen`).
-/

namespace ChipEight

/-- The instructions that read a timer or the keys. -/
def Instruction.readsDevices : Instruction → Bool
  | skipIfKey _ | skipUnlessKey _ | readDelay _ | waitForKey _ => true
  | _ => false

namespace Machine

/-- The machines agree on all that a program works on. Their keys, timers and counts of cycles may differ. -/
structure Agree (m m' : Machine) : Prop where
  memory : m.memory = m'.memory
  registers : m.registers = m'.registers
  index : m.index = m'.index
  counter : m.counter = m'.counter
  stack : m.stack = m'.stack
  dialect : m.dialect = m'.dialect
  screen : m.screen = m'.screen
  random : m.random = m'.random
  waiting : m.waiting = m'.waiting

/-- The machine without its devices, and without the count of its cycles. -/
def core (m : Machine) : Machine := { m with keypad := {}, timers := {}, cycles := 0 }

theorem agree_iff_core (m m' : Machine) : m.Agree m' ↔ m.core = m'.core := by
  constructor
  · rintro ⟨hmemory, hregisters, hindex, hcounter, hstack, hdialect, hscreen, hrandom, hwaiting⟩
    unfold core
    rw [hmemory, hregisters, hindex, hcounter, hstack, hdialect, hscreen, hrandom, hwaiting]
  · intro h
    simp only [core, mk.injEq, and_true, true_and] at h
    obtain ⟨hmemory, hregisters, hindex, hcounter, hstack, hdialect, hscreen, hrandom, hwaiting⟩ := h
    exact ⟨hmemory, hregisters, hindex, hcounter, hstack, hdialect, hscreen, hrandom, hwaiting⟩

theorem SameButDevices.core_eq {m m' : Machine} (h : m.SameButDevices m') : m'.core = m.core := by
  obtain ⟨keypad, timers, rfl⟩ := h
  rfl

theorem SameButDevices.cycles_eq {m m' : Machine} (h : m.SameButDevices m') : m'.cycles = m.cycles := by
  obtain ⟨keypad, timers, rfl⟩ := h
  rfl

/-! ### Instructions on the core -/

private theorem core_skipIf (m : Machine) (condition : Bool) :
    (m.core.skipIf condition).core = (m.skipIf condition).core := by
  unfold skipIf
  split <;> rfl

private theorem core_passBlock (m : Machine) (x : Fin 16) : (m.core.passBlock x).core = (m.passBlock x).core := by
  unfold passBlock
  change (if m.dialect.blockMovesIndex then _ else _ : Machine).core = _
  split <;> rfl

private theorem map_core {α : Type} {r : Except Fault α} {f g : α → Machine} (h : ∀ a, (f a).core = (g a).core) :
    (r.map f).map core = (r.map g).map core := by
  cases r with
  | error fault => rfl
  | ok a => exact congrArg Except.ok (h a)

/-- An instruction that reads no device does to the core what it does to the machine, or is refused for both. -/
theorem core_execute (m : Machine) {i : Instruction} (hi : i.readsDevices = false) :
    (m.core.execute i).map core = (m.execute i).map core := by
  cases i with
  | skipIfKey x | skipUnlessKey x | readDelay x | waitForKey x => cases hi
  | ret | call nnn | storeDecimal x | draw x y n => exact map_core fun _ => rfl
  | skipIfByte x nn | skipUnlessByte x nn => exact congrArg Except.ok (m.core_skipIf _)
  | skipIfSame x y | skipUnlessSame x y => exact congrArg Except.ok (m.core_skipIf _)
  | addToIndex x =>
    refine congrArg Except.ok ?_
    change (if m.dialect.indexSetsFlag then _ else _ : Machine).core = _
    split <;> rfl
  | storeRegisters x => exact map_core fun memory => core_passBlock { m with memory := memory } x
  | loadRegisters x =>
    exact map_core fun values => core_passBlock { m with registers := Registers.replaceFirst m.registers values } x
  | _ => rfl

/-- An instruction that reads a device is never refused. -/
private theorem execute_ok_of_readsDevices (m : Machine) {i : Instruction} (hi : i.readsDevices = true) :
    ∃ after, m.execute i = .ok after := by
  cases i with
  | skipIfKey x | skipUnlessKey x | readDelay x | waitForKey x => exact ⟨_, rfl⟩
  | _ => cases hi

/-! ### Cycles of two machines -/

variable {m m' : Machine}

theorem Agree.fetch_eq (h : m.Agree m') : m.fetch = m'.fetch := by
  change m.core.fetch = m'.core.fetch
  rw [(agree_iff_core m m').1 h]

/-- Machines that agree have the same cycle, unless they read a device in it. -/
theorem Agree.cycle (h : m.Agree m') (hblind : ∀ i, m.executed? = some i → i.readsDevices = false) :
    m.cycle.2 = m'.cycle.2 ∧ m.cycle.1.Agree m'.cycle.1 := by
  have hcore := (agree_iff_core m m').1 h
  have hpassed : m.count.pass.core = m'.count.pass.core := congrArg pass hcore
  rw [agree_iff_core]
  refine cycle_alike core h.fetch_eq hcore hpassed fun i hreads hproper => ?_
  have hi : i.readsDevices = false := by
    by_contra hdevice
    obtain ⟨after, hexecute⟩ := m.count.pass.execute_ok_of_readsDevices (Bool.eq_true_of_not_eq_false hdevice)
    exact hdevice (hblind i (executed?_of_reads hreads hproper hexecute))
  rw [← core_execute _ hi, hpassed, core_execute _ hi]

/-! ### Runs of two machines -/

theorem SameButDevices.agree (h : m.SameButDevices m') : m.Agree m' := (agree_iff_core m m').2 h.core_eq.symm

theorem Agree.symm (h : m.Agree m') : m'.Agree m := (agree_iff_core m' m).2 ((agree_iff_core m m').1 h).symm

theorem Agree.trans {m'' : Machine} (h : m.Agree m') (h' : m'.Agree m'') : m.Agree m'' :=
  (agree_iff_core m m'').2 (((agree_iff_core m m').1 h).trans ((agree_iff_core m' m'').1 h'))

/-- Two chains of cycles from machines that agree have the same cycles, as far as both of them go. -/
theorem Agree.linked {last last' : Machine} {begun begun' : List Machine} (h : m.Agree m')
    (hlinked : m.Linked begun last) (hlinked' : m'.Linked begun' last')
    (hblind : ∀ b ∈ begun, ∀ i, b.executed? = some i → i.readsDevices = false) :
    (∀ (k : Nat) (b b' : Machine), begun[k]? = some b → begun'[k]? = some b' →
      b.Agree b' ∧ b.cycle.2 = b'.cycle.2 ∧ b.cycle.1.Agree b'.cycle.1) ∧
    (begun.length = begun'.length → last.Agree last') := by
  induction begun generalizing m m' begun' with
  | nil =>
    refine ⟨fun k b b' hb => ?_, fun hlength => ?_⟩
    · rw [List.getElem?_nil] at hb
      cases hb
    · obtain rfl := List.length_eq_zero_iff.1 hlength.symm
      have hlast : m.SameButDevices last := hlinked
      have hlast' : m'.SameButDevices last' := hlinked'
      exact (hlast.agree.symm.trans h).trans hlast'.agree
  | cons b begun ih =>
    cases begun' with
    | nil =>
      refine ⟨fun k c c' _ hc' => ?_, fun hlength => ?_⟩
      · rw [List.getElem?_nil] at hc'
        cases hc'
      · cases hlength
    | cons b' begun' =>
      rw [List.forall_mem_cons] at hblind
      have hbegin : b.Agree b' := (hlinked.1.agree.symm.trans h).trans hlinked'.1.agree
      obtain ⟨hsame, hend⟩ := hbegin.cycle hblind.1
      obtain ⟨hrest, hlast⟩ := ih hend hlinked.2 hlinked'.2 hblind.2
      refine ⟨?_, fun hlength => hlast (Nat.succ.inj hlength)⟩
      intro k c c' hc hc'
      cases k with
      | zero =>
        cases hc
        cases hc'
        exact ⟨hbegin, hsame, hend⟩
      | succ k => exact hrest k c c' hc hc'

/-- Each cycle of a chain counts one more, and nothing in between counts. -/
theorem Linked.cycles {last : Machine} {begun : List Machine} (h : m.Linked begun last) :
    (∀ (k : Nat) (b : Machine), begun[k]? = some b → b.cycles = m.cycles + k) ∧
      last.cycles = m.cycles + begun.length := by
  induction begun generalizing m with
  | nil =>
    have hlast : m.SameButDevices last := h
    refine ⟨fun k b hb => ?_, hlast.cycles_eq⟩
    rw [List.getElem?_nil] at hb
    cases hb
  | cons first begun ih =>
    have hfirst := h.1.cycles_eq
    obtain ⟨hrest, hlast⟩ := ih h.2
    rw [cycles_cycle, hfirst] at hrest hlast
    refine ⟨fun k b hb => ?_, ?_⟩
    · cases k with
      | zero =>
        cases hb
        exact hfirst
      | succ k =>
        have hcount := hrest k b hb
        omega
    · rw [List.length_cons]
      omega

/-- Two machines that agree but for keys and timers, under hosts that cut the cycles in any two ways and do what they
like with keys and timers: if the instructions that the first machine executes read neither, cycle by cycle the
machines agree, read the same opcode, come to the same end, and count one more. -/
theorem devices_unseen (m m' : Machine) (h : m.Agree m') (steps steps' : List HostStep)
    (hsteps : ∀ step ∈ steps, step.onDevices = true) (hsteps' : ∀ step ∈ steps', step.onDevices = true)
    (hblind : ∀ i ∈ m.executed steps, i.readsDevices = false) :
    (∀ (k : Nat) (b b' : Machine), (m.begun steps)[k]? = some b → (m'.begun steps')[k]? = some b' →
      b.Agree b' ∧ b.fetch = b'.fetch ∧ b.cycle.2 = b'.cycle.2 ∧ b.cycle.1.Agree b'.cycle.1 ∧
        (b.cycles = m.cycles + k ∧ b.cycle.1.cycles = m.cycles + k + 1) ∧
        (b'.cycles = m'.cycles + k ∧ b'.cycle.1.cycles = m'.cycles + k + 1)) ∧
    ((m.begun steps).length = (m'.begun steps').length → (m.after steps).Agree (m'.after steps')) ∧
    (m.after steps).cycles = m.cycles + (m.begun steps).length ∧
      (m'.after steps').cycles = m'.cycles + (m'.begun steps').length := by
  have hlinked := m.linked_begun hsteps
  have hlinked' := m'.linked_begun hsteps'
  have hexecuted : ∀ b ∈ m.begun steps, ∀ i, b.executed? = some i → i.readsDevices = false :=
    fun b hb i hi => hblind i (mem_executed hb hi)
  obtain ⟨hcycles, hlast⟩ := h.linked hlinked hlinked' hexecuted
  obtain ⟨hcount, htotal⟩ := hlinked.cycles
  obtain ⟨hcount', htotal'⟩ := hlinked'.cycles
  refine ⟨?_, hlast, htotal, htotal'⟩
  intro k b b' hb hb'
  obtain ⟨hbegin, hsame, hend⟩ := hcycles k b b' hb hb'
  refine ⟨hbegin, hbegin.fetch_eq, hsame, hend, ⟨hcount k b hb, ?_⟩, ⟨hcount' k b' hb', ?_⟩⟩
  · rw [cycles_cycle, hcount k b hb]
  · rw [cycles_cycle, hcount' k b' hb']

/-- Three cycles, the last one a return that is refused, in one frame and in pieces between which keys go down and
timers are set. -/
theorem devices_unseen_in_pieces :
    let rom : List UInt8 := [0xC0, 0xFF, 0xF0, 0x15, 0x00, 0xEE]
    let m := (Machine.fresh Dialect.modern Layout.standard {}).after [.load rom]
    let m' := m.after [.setDelay 9, .press 3]
    let steps : List HostStep := [.frame 8]
    let steps' : List HostStep := [.cycle, .press 2, .setSound 7, .frame 1, .takePress, .cycle]
    m.Agree m' ∧ (∀ i ∈ m.executed steps, i.readsDevices = false) ∧
      (m.begun steps).length = (m'.begun steps').length ∧ (m.after steps).Agree (m'.after steps') := by
  intro rom m m' steps steps'
  have hsame : m.SameButDevices m' := @linked_begun m [.setDelay 9, .press 3] (by decide)
  have hagree : m.Agree m' := hsame.agree
  have hblind : ∀ i ∈ m.executed steps, i.readsDevices = false := by decide +kernel
  have hlength : (m.begun steps).length = (m'.begun steps').length := by decide +kernel
  obtain ⟨-, hlast, -⟩ := devices_unseen m m' hagree steps steps' (by decide) (by decide) hblind
  exact ⟨hagree, hblind, hlength, hlast hlength⟩

end Machine

end ChipEight
