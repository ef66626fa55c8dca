import ChipEight.Proofs.Micro.Instructions
import Mathlib.Data.List.OfFn

/-!
# The machine on bare cells is the machine

From the cells of a sound machine every cycle on bare cells goes the way of `Machine.cycle`: to the cells of the
machine after it, with the lines of that cycle printed, or into the trap of its fault with nothing printed
(`run_cycle`). So does every host step (`run_perform`), and with it every list of them (`mirrors_after`).
-/

namespace ChipEight.Micro

/-- The rest after a machine has become another one and some lines were printed. -/
structure Rest.Leads (r : Rest) (lines : List String) (after : Machine) (r' : Rest) : Prop where
  fits : r'.Fits after
  logging : r'.logging = r.logging
  printed : r'.printed = r.printed ++ lines

theorem Rest.Fits.leads {r : Rest} {after : Machine} (h : r.Fits after) : r.Leads [] after r :=
  ⟨h, rfl, (List.append_nil _).symm⟩

theorem Rest.Leads.trans {r r' r'' : Rest} {after after' : Machine} {lines lines' : List String}
    (h : r.Leads lines after r') (h' : r'.Leads lines' after' r'') : r.Leads (lines ++ lines') after' r'' :=
  ⟨h'.fits, h'.logging.trans h.logging, by rw [h'.printed, h.printed, List.append_assoc]⟩

/-- The line of an instruction is printed while tracing is on; the slots left behind may be others before. -/
theorem Rest.leads_note {r : Rest} {after : Machine} (stale : List UInt16)
    (h : Rest.Fits { r with stale := stale } after) (line? : Option String) :
    r.Leads (if r.logging then line?.toList else []) after ({ r with stale := stale }.note line?) := by
  cases line? with
  | none =>
    refine ⟨h, rfl, ?_⟩
    cases hlogging : r.logging <;> simp [Rest.note]
  | some line =>
    unfold Rest.note Rest.log
    cases hlogging : r.logging with
    | true => exact ⟨h, hlogging.symm, rfl⟩
    | false => exact ⟨h, hlogging.symm, (List.append_nil _).symm⟩

/-! ### Instructions -/

variable {m : Machine} {r : Rest}

private theorem stack_skipIf (m : Machine) (condition : Bool) : (m.skipIf condition).stack = m.stack := by
  unfold Machine.skipIf
  split <;> rfl

private theorem stack_passBlock (m : Machine) (x : Fin 16) : (m.passBlock x).stack = m.stack := by
  unfold Machine.passBlock
  split <;> rfl

private theorem stack_awaitKey (m : Machine) (x : Fin 16) : (m.awaitKey x).stack = m.stack := by
  unfold Machine.awaitKey
  split <;> rfl

/-- What the cells come to when an instruction is executed, or that they stay as they are when it is refused. -/
def Simulates (m : Machine) (r : Rest) (i : Instruction) : Prop :=
  match m.count.pass.execute i with
  | .ok after => ∃ r', run (program i) (m.count.pass.bare r) = (.ok (), after.bare r') ∧
      r.Leads (if r.logging then (Trace.line? m after i).toList else []) after r'
  | .error fault => run (program i) (m.count.pass.bare r) = (.error (.refused fault), m.count.pass.bare r)

/-- An instruction that is not refused and leaves the stack alone. -/
private theorem simulates_of_follows (hr : r.Fits m) {i : Instruction} {after : Machine} (h : Follows m i after)
    (hstack : after.stack = m.stack) (hi : m.count.pass.execute i = .ok after) : Simulates m r i := by
  have hfits : r.Fits after := by
    unfold Rest.Fits
    rw [hstack]
    exact hr
  unfold Simulates
  rw [hi]
  exact ⟨r.note (Trace.line? m after i), h r, Rest.leads_note r.stale hfits _⟩

private theorem simulates_of_refuses {i : Instruction} {fault : Fault} (h : Refuses m i fault)
    (hi : m.count.pass.execute i = .error fault) : Simulates m r i := by
  unfold Simulates
  rw [hi]
  exact h r

private theorem simulates_ret (hr : r.Fits m) : Simulates m r .ret := by
  cases hpop : m.count.pass.stack.pop with
  | error fault =>
    refine simulates_of_refuses (refuses_ret m hpop) ?_
    simp only [Machine.execute, hpop, Except.map]
  | ok popped =>
    obtain ⟨address, stack⟩ := popped
    obtain ⟨hentries, hdepth⟩ := ReturnStack.pop_eq_ok hpop
    have hi : m.count.pass.execute .ret = .ok { m.count.pass with counter := address.toNat, stack := stack } := by
      simp only [Machine.execute, hpop, Except.map]
    have hfits : Rest.Fits { r with stale := address :: r.stale }
        { m.count.pass with counter := address.toNat, stack := stack } := by
      have hlength := congrArg List.length hentries
      unfold Rest.Fits at hr ⊢
      change m.stack.entries.length = _ at hlength
      change stack.depth = m.stack.depth at hdepth
      rw [List.length_append, List.length_singleton] at hlength
      simp only [List.length_cons]
      omega
    unfold Simulates
    rw [hi]
    exact ⟨_, run_ret m r hpop, Rest.leads_note (address :: r.stale) hfits (some _)⟩

private theorem simulates_call (hr : r.Fits m) (nnn : Fin 4096) : Simulates m r (.call nnn) := by
  cases hpush : m.count.pass.stack.push m.count.pass.counter with
  | error fault =>
    have hi : m.count.pass.execute (.call nnn) = .error fault := by
      simp only [Machine.execute, hpush, Except.map]
    unfold Simulates
    rw [hi]
    exact refuses_call m hr nnn hpush
  | ok stack =>
    obtain ⟨-, -, hlt, hentries, hdepth⟩ := ReturnStack.push_eq_ok hpush
    have hi : m.count.pass.execute (.call nnn) = .ok { m.count.pass with counter := nnn.val, stack := stack } := by
      simp only [Machine.execute, hpush, Except.map]
    have hfits : Rest.Fits { r with stale := r.stale.tail }
        { m.count.pass with counter := nnn.val, stack := stack } := by
      have hlength := congrArg List.length hentries
      unfold Rest.Fits at hr ⊢
      change stack.depth = m.stack.depth at hdepth
      change m.stack.entries.length < m.stack.depth at hlt
      rw [List.length_append, List.length_singleton] at hlength
      change stack.entries.length = m.stack.entries.length + 1 at hlength
      simp only [List.length_tail]
      omega
    unfold Simulates
    rw [hi]
    exact ⟨_, run_call m hr nnn hpush, Rest.leads_note r.stale.tail hfits (some _)⟩

/-- Every microprogram goes the way of its instruction. -/
theorem simulates_program (hm : m.Sound) (hr : r.Fits m) (i : Instruction) : Simulates m r i := by
  cases i with
  | clearScreen => exact simulates_of_follows hr (follows_clearScreen m) rfl rfl
  | ret => exact simulates_ret hr
  | jump nnn => exact simulates_of_follows hr (follows_jump m nnn) rfl rfl
  | call nnn => exact simulates_call hr nnn
  | skipIfByte x nn => exact simulates_of_follows hr (follows_skipIfByte m x nn) (stack_skipIf _ _) rfl
  | skipUnlessByte x nn => exact simulates_of_follows hr (follows_skipUnlessByte m x nn) (stack_skipIf _ _) rfl
  | skipIfSame x y => exact simulates_of_follows hr (follows_skipIfSame m x y) (stack_skipIf _ _) rfl
  | skipUnlessSame x y => exact simulates_of_follows hr (follows_skipUnlessSame m x y) (stack_skipIf _ _) rfl
  | skipIfKey x => exact simulates_of_follows hr (follows_skipIfKey m x) (stack_skipIf _ _) rfl
  | skipUnlessKey x => exact simulates_of_follows hr (follows_skipUnlessKey m x) (stack_skipIf _ _) rfl
  | setByte x nn => exact simulates_of_follows hr (follows_setByte m x nn) rfl rfl
  | addByte x nn => exact simulates_of_follows hr (follows_addByte m x nn) rfl rfl
  | copy x y => exact simulates_of_follows hr (follows_copy m x y) rfl rfl
  | bitOr x y => exact simulates_of_follows hr (follows_bitOr m x y) rfl rfl
  | bitAnd x y => exact simulates_of_follows hr (follows_bitAnd m x y) rfl rfl
  | bitXor x y => exact simulates_of_follows hr (follows_bitXor m x y) rfl rfl
  | add x y => exact simulates_of_follows hr (follows_add m x y) rfl rfl
  | subtract x y => exact simulates_of_follows hr (follows_subtract m x y) rfl rfl
  | shiftRight x y => exact simulates_of_follows hr (follows_shiftRight m x y) rfl rfl
  | subtractFrom x y => exact simulates_of_follows hr (follows_subtractFrom m x y) rfl rfl
  | shiftLeft x y => exact simulates_of_follows hr (follows_shiftLeft m x y) rfl rfl
  | setIndex nnn => exact simulates_of_follows hr (follows_setIndex m nnn) rfl rfl
  | jumpOffset x nnn => exact simulates_of_follows hr (follows_jumpOffset m x nnn) rfl rfl
  | random x nn => exact simulates_of_follows hr (follows_random m x nn) rfl rfl
  | readDelay x => exact simulates_of_follows hr (follows_readDelay m x) rfl rfl
  | waitForKey x => exact simulates_of_follows hr (follows_waitForKey m x hm.pending) (stack_awaitKey _ _) rfl
  | setDelay x => exact simulates_of_follows hr (follows_setDelay m x) rfl rfl
  | setSound x => exact simulates_of_follows hr (follows_setSound m x) rfl rfl
  | addToIndex x =>
    refine simulates_of_follows hr (follows_addToIndex m x) ?_ rfl
    dsimp only
    split <;> rfl
  | pointAtGlyph x => exact simulates_of_follows hr (follows_pointAtGlyph m x) rfl rfl
  | draw x y n =>
    cases h : m.count.pass.memory.read m.count.pass.index n.val with
    | error fault =>
      refine simulates_of_refuses (refuses_draw m x y n h) ?_
      simp only [Machine.execute, h, Except.map]
    | ok rows =>
      refine simulates_of_follows hr (follows_draw m x y n h) rfl ?_
      simp only [Machine.execute, h, Except.map]
  | storeDecimal x =>
    cases h : m.count.pass.memory.store m.count.pass.index (Machine.decimalDigits (m.count.pass.v x)) with
    | error fault =>
      refine simulates_of_refuses (refuses_storeDecimal m x h) ?_
      simp only [Machine.execute, h, Except.map]
    | ok memory =>
      refine simulates_of_follows hr (follows_storeDecimal m x h) rfl ?_
      simp only [Machine.execute, h, Except.map]
  | storeRegisters x =>
    cases h : m.count.pass.memory.store m.count.pass.index (Registers.first m.count.pass.registers (x + 1)) with
    | error fault =>
      refine simulates_of_refuses (refuses_storeRegisters m x h) ?_
      simp only [Machine.execute, h, Except.map]
    | ok memory =>
      refine simulates_of_follows hr (follows_storeRegisters m x h) (stack_passBlock _ _) ?_
      simp only [Machine.execute, h, Except.map]
  | loadRegisters x =>
    cases h : m.count.pass.memory.read m.count.pass.index (x + 1) with
    | error fault =>
      refine simulates_of_refuses (refuses_loadRegisters m x h) ?_
      simp only [Machine.execute, h, Except.map]
    | ok values =>
      refine simulates_of_follows hr (follows_loadRegisters m x h) (stack_passBlock _ _) ?_
      simp only [Machine.execute, h, Except.map]

/-! ### Cycles -/

theorem join_bytes (high low : UInt8) :
    Bits.join high.toNat low.toNat 8 = .ok (Opcode.ofBytes high.toNat low.toNat).value := by
  have hslice := Bits.slice_eq_field (low.toNat : Int) 0 8 8 (by omega) (by omega) (by omega)
  simp only [Nat.cast_ofNat, Nat.cast_zero] at hslice
  unfold Bits.join
  rw [if_neg (by omega), hslice]
  rfl

theorem run_fetch (m : Machine) (r : Rest) :
    run fetch (m.bare r) = ((m.fetch.map Fields.ofOpcode).mapError Trap.refused, m.bare r) := by
  have hread := run_readMemory m r m.counter 2
  rw [Nat.cast_ofNat] at hread
  unfold fetch Machine.fetch
  by_cases h : Memory.Fits m.counter 2
  · have hbytes : m.memory.read m.counter 2 =
        .ok [m.memory.byteAt m.counter.toNat, m.memory.byteAt (m.counter.toNat + 1)] := m.memory.read_of_fits h
    rw [hbytes] at hread
    rw [run_bind_of_ok (run_get _), bare_counter, run_bind_of_ok hread, if_pos h]
    simp only [join_bytes]
    rw [Except.bind, split_value]
    rfl
  · have hbytes : m.memory.read m.counter 2 = .error (.memoryBounds m.counter 2) := if_neg h
    rw [hbytes] at hread
    rw [run_bind_of_ok (run_get _), bare_counter, run_bind_of_error hread, if_neg h]
    rfl

/-- A cycle on bare cells goes the way of a cycle. -/
theorem run_cycle (hm : m.Sound) (hr : r.Fits m) :
    match m.cycle with
    | (after, .ok step) => ∃ r', run cycle (m.bare r) = (.ok (), after.bare r') ∧
        r.Leads (Run.cycleLines r.logging m after (.ok step)) after r'
    | (after, .error fault) => run cycle (m.bare r) = (.error (.refused fault), after.bare r) := by
  have hfetch := run_fetch m.count r
  -- the cases are those of `Machine.cycle`: no opcode, an unknown one, a refused instruction, an instruction
  unfold Machine.cycle cycle
  rw [run_bind_of_ok (run_countCycle m r)]
  rw [show m.count.fetch = m.fetch by rfl] at hfetch
  cases hop : m.fetch with
  | error fault =>
    rw [hop] at hfetch
    exact run_bind_of_error hfetch
  | ok op =>
    rw [hop] at hfetch
    rw [run_bind_of_ok hfetch, run_bind_of_ok (run_skip _ r), find_ofOpcode]
    dsimp only
    cases hi : Instruction.decode? op with
    | none => exact ⟨r.say ("Unknown opcode: " ++ op.text), rfl, hr, rfl, rfl⟩
    | some i =>
      have h := simulates_program hm hr i
      unfold Simulates at h
      dsimp only [Option.map]
      cases hexecute : m.count.pass.execute i with
      | error fault =>
        rw [hexecute] at h
        exact h
      | ok after =>
        rw [hexecute] at h
        exact h

/-! ### Runs of cycles -/

/-- The end of a microprogram that runs as long as there is no fault. -/
def ending : Option Fault → Except Trap Unit
  | none => .ok ()
  | some fault => .error (.refused fault)

private theorem fits_of_error (hr : r.Fits m) {after : Machine} {fault : Fault} (h : m.cycle = (after, .error fault)) :
    r.Fits after := by
  have hcycle := Machine.cycle_of_error (congrArg Prod.snd h)
  rw [h] at hcycle
  cases hcycle
  exact hr

/-- Cycles in a row on bare cells go the way of a run, whatever that has printed before. -/
theorem run_cyclesOf (n : Nat) {q : Run} (hq : q.fault = none) (hm : q.machine.Sound) (hr : r.Fits q.machine) :
    ∃ r' lines,
      run (cyclesOf n) (q.machine.bare r) =
        (ending (Run.go r.logging n q).fault, (Run.go r.logging n q).machine.bare r') ∧
      r.Leads lines (Run.go r.logging n q).machine r' ∧
      (Run.go r.logging n q).lines.toList = q.lines.toList ++ lines := by
  -- what is printed before a cycle goes along: the induction is for all runs and all rests
  induction n generalizing q r with
  | zero => exact ⟨r, [], by rw [Run.go, hq]; rfl, hr.leads, (List.append_nil _).symm⟩
  | succ n ih =>
    have hcycle := run_cycle hm hr
    have hsound := hm.cycle
    unfold cyclesOf
    cases hc : q.machine.cycle with
    | mk after result =>
      rw [hc] at hcycle hsound
      cases result with
      | error fault =>
        rw [Run.go_succ_of_error r.logging n hq hc, run_bind_of_error hcycle]
        exact ⟨r, [], rfl, (fits_of_error hr hc).leads, (List.append_nil _).symm⟩
      | ok step =>
        obtain ⟨r', hrun, hleads⟩ := hcycle
        obtain ⟨r'', lines, hrun', hleads', hlines⟩ :=
          @ih r' { machine := after, lines := q.lines ++ Run.cycleLines r.logging q.machine after (.ok step) } rfl hsound
            hleads.fits
        rw [hleads.logging] at hrun' hleads' hlines
        rw [Run.go_succ_of_ok r.logging n hq hc, run_bind_of_ok hrun]
        refine ⟨r'', Run.cycleLines r.logging q.machine after (.ok step) ++ lines, hrun', hleads.trans hleads', ?_⟩
        rw [hlines, Array.toList_appendList, List.append_assoc]

/-! ### Hosts -/

/-- The store holds the machine of a session and its switch for tracing, and has these lines printed. -/
def Mirrors (store : Store) (s : Session) (lines : List String) : Prop :=
  ∃ r : Rest, store = s.machine.bare r ∧ r.Fits s.machine ∧ r.logging = s.logging ∧ r.printed = lines

theorem Mirrors.printed_eq {store : Store} {s : Session} {lines : List String} (h : Mirrors store s lines) :
    store.printed = lines := by
  obtain ⟨r, rfl, -, -, hprinted⟩ := h
  exact hprinted

/-- The outcome of a command, its answer left aside. -/
def outcome (reply : Reply) : Except Trap Unit := (reply.answer.map fun _ => ()).mapError Trap.refused

private theorem cells_fresh_memory :
    splice (List.replicate 4096 0) 0x50 (0x50 + Font.rows.length) Font.rows = Memory.fresh.bytes.toList := by
  have hrows : Font.rows.length = 80 := rfl
  have hsplice := splice_natCast (List.replicate 4096 (0 : UInt8)) Font.rows 0x50
    (by rw [List.length_replicate, hrows]; omega)
  rw [Nat.cast_ofNat] at hsplice
  rw [hsplice, List.take_replicate, List.drop_replicate]
  rfl

private theorem cells_fresh_screen : List.replicate 32 (List.replicate 64 0) = Screen.cells {} := by
  have hdark : ∀ (x : Fin 64) (y : Fin 32), Screen.lit {} x y = false := by
    intro x y
    simp [Screen.lit, Screen.getMsb_eq, get_eq_getElem]
  simp only [Screen.cells, flags, hdark, Bool.false_eq_true, if_false, List.ofFn_const]

private theorem cells_fresh_keys (layout : Layout) : List.replicate 16 0 = Keypad.cells { layout := layout } := by
  have hup : ∀ key : Fin 16, (Vector.replicate 16 false).get key = false := by
    intro key
    simp [get_eq_getElem]
  simp only [Keypad.cells, flags, hup, Bool.false_eq_true, if_false, List.ofFn_const]

theorem mirrors_fresh (dialect : Dialect) (layout : Layout) (random : Wheel) (logging : Bool) :
    Mirrors (Store.fresh dialect layout random logging) (Session.fresh dialect layout random logging) [] := by
  refine ⟨{ stale := List.replicate 16 0, logging := logging, printed := [] }, ?_, rfl, rfl, rfl⟩
  unfold Store.fresh
  rw [cells_fresh_memory, cells_fresh_screen, cells_fresh_keys layout]
  rfl

/-- A step that is never refused and prints nothing. -/
private theorem mirrors_of_ok {code : Code Unit} {s : Session} {after : Machine} {lines : List String}
    (hrun : run code (s.machine.bare r) = (.ok (), after.bare r)) (hr : r.Fits after) (hlogging : r.logging = s.logging)
    (hprinted : r.printed = lines) :
    (run code (s.machine.bare r)).1 = outcome (s.accept after) ∧
      Mirrors (run code (s.machine.bare r)).2 (s.accept after).session (lines ++ (s.accept after).lines.toList) := by
  rw [hrun]
  exact ⟨rfl, r, rfl, hr, hlogging, hprinted.trans (List.append_nil _).symm⟩

private theorem outcome_ofRun (s : Session) (q : Run) : outcome (s.ofRun q) = ending q.fault := by
  unfold outcome Session.ofRun
  cases q.fault <;> rfl

private theorem mirrors_run {s : Session} {m : Machine} {lines : List String} (hm : m.Sound) (hr : r.Fits m)
    (hlogging : r.logging = s.logging) (hprinted : r.printed = lines) (n : Nat) :
    (run (cyclesOf n) (m.bare r)).1 = outcome (s.ofRun (Run.go s.logging n { machine := m })) ∧
      Mirrors (run (cyclesOf n) (m.bare r)).2 (s.ofRun (Run.go s.logging n { machine := m })).session
        (lines ++ (s.ofRun (Run.go s.logging n { machine := m })).lines.toList) := by
  obtain ⟨r', new, hrun, hleads, hlines⟩ := @run_cyclesOf r n { machine := m } rfl hm hr
  rw [hlogging] at hrun hleads hlines
  rw [hrun, outcome_ofRun]
  refine ⟨rfl, r', rfl, hleads.fits, hleads.logging.trans hlogging, ?_⟩
  rw [hleads.printed, hprinted]
  exact congrArg (lines ++ ·) (hlines.trans (List.nil_append new)).symm

private theorem run_cyclesOf_one (store : Store) : run (cyclesOf 1) store = run cycle store := by
  unfold cyclesOf
  rw [run_bind]
  rcases run cycle store with ⟨result, store'⟩
  cases result <;> rfl

private theorem fits_rom {rom : List UInt8} (h : ¬ rom.length > Memory.maxRom) : Memory.Fits 0x200 rom.length := by
  have hmax : Memory.maxRom = 3584 := rfl
  have hsize : (Memory.size : Int) = 4096 := rfl
  exact ⟨by omega, by omega⟩

/-- A program that is too long is refused before anything is written. -/
theorem run_load (m : Machine) (r : Rest) (rom : List UInt8) :
    run (load rom) (m.bare r) =
      match m.memory.loadRom rom with
      | .ok memory => (.ok (), { m with memory := memory }.bare (r.log (Session.loadedLine rom.length)))
      | .error fault => (.error (.refused fault), m.bare r) := by
  unfold load
  by_cases hlong : rom.length > Memory.maxRom
  · have hcells : rom.length > 4096 - 0x200 := hlong
    have hrom : m.memory.loadRom rom = .error (.romTooLarge rom.length Memory.maxRom) := if_pos hlong
    rw [if_pos hcells, hrom]
    exact run_bind_of_error (run_throw _ _)
  · have hcells : ¬ rom.length > 4096 - 0x200 := hlong
    have hstore : m.memory.store 0x200 rom = .ok (m.memory.put 0x200 rom) := if_pos (fits_rom hlong)
    have hrom : m.memory.loadRom rom = .ok (m.memory.put 0x200 rom) := (if_neg hlong).trans hstore
    have hwrite := run_writeMemory m r 0x200 rom
    rw [hstore] at hwrite
    rw [if_neg hcells, run_bind_of_ok hwrite, run_log, hrom]
    rfl

private theorem mirrors_load {s : Session} {lines : List String} (hr : r.Fits s.machine)
    (hlogging : r.logging = s.logging) (hprinted : r.printed = lines) (rom : List UInt8) :
    (run (load rom) (s.machine.bare r)).1 = outcome (s.load rom) ∧
      Mirrors (run (load rom) (s.machine.bare r)).2 (s.load rom).session (lines ++ (s.load rom).lines.toList) := by
  have hrun := run_load s.machine r rom
  cases hrom : s.machine.memory.loadRom rom with
  | error fault =>
    have hload : s.load rom = { session := s, answer := .error fault } := by
      simp only [Session.load, Machine.loadRom, hrom, Except.map]
    rw [hrom] at hrun
    rw [hrun, hload]
    exact ⟨rfl, r, rfl, hr, hlogging, hprinted.trans (List.append_nil _).symm⟩
  | ok memory =>
    have hload : s.load rom =
        { session := s.withMachine { s.machine with memory := memory }
          lines := if s.logging then #[Session.loadedLine rom.length] else #[] } := by
      simp only [Session.load, Machine.loadRom, hrom, Except.map]
    have hfits : r.Fits { s.machine with memory := memory } := hr
    have hleads := Rest.leads_note r.stale hfits (some (Session.loadedLine rom.length))
    rw [hrom] at hrun
    rw [hrun, hload]
    refine ⟨rfl, _, rfl, hleads.fits, hleads.logging.trans hlogging, hleads.printed.trans ?_⟩
    rw [hprinted, hlogging]
    cases s.logging <;> rfl

/-- A host step on bare cells goes the way of its command, and prints what that prints. -/
theorem run_perform {store : Store} {s : Session} {lines : List String} (hs : s.machine.Sound)
    (h : Mirrors store s lines) (step : HostStep) :
    (run (perform step) store).1 = outcome (s.perform step.command) ∧
      Mirrors (run (perform step) store).2 (s.perform step.command).session
        (lines ++ (s.perform step.command).lines.toList) := by
  obtain ⟨r, rfl, hr, hlogging, hprinted⟩ := h
  cases step with
  | load rom => exact mirrors_load hr hlogging hprinted rom
  | cycle =>
    change (run cycle (s.machine.bare r)).1 = _ ∧ Mirrors (run cycle (s.machine.bare r)).2 _ _
    rw [← run_cyclesOf_one]
    exact mirrors_run hs hr hlogging hprinted 1
  | frame n =>
    have htick : s.machine.tick.Sound := Machine.kept_sound.timers s.machine s.machine.timers.tick hs
    change (run (tick >>= fun _ => cyclesOf n.toNat) (s.machine.bare r)).1 = _ ∧
      Mirrors (run (tick >>= fun _ => cyclesOf n.toNat) (s.machine.bare r)).2 _ _
    rw [run_bind_of_ok (run_tick s.machine r)]
    exact mirrors_run htick hr hlogging hprinted n.toNat
  | tick => exact mirrors_of_ok (run_tick s.machine r) hr hlogging hprinted
  | setDelay value => exact mirrors_of_ok (run_setDelay s.machine r value) hr hlogging hprinted
  | setSound value => exact mirrors_of_ok (run_setSound s.machine r value) hr hlogging hprinted
  | press key =>
    have hperform : s.perform (HostStep.press key).command =
        s.accept { s.machine with keypad := s.machine.keypad.pressKey key } := by
      simp only [HostStep.command, Session.perform, Keypad.press_val]
      rfl
    rw [hperform]
    exact mirrors_of_ok (run_pressKey s.machine r key) hr hlogging hprinted
  | release key =>
    have hperform : s.perform (HostStep.release key).command =
        s.accept { s.machine with keypad := s.machine.keypad.releaseKey key } := by
      simp only [HostStep.command, Session.perform, Keypad.release_val]
      rfl
    rw [hperform]
    exact mirrors_of_ok (run_releaseKey s.machine r key) hr hlogging hprinted
  | takePress => exact mirrors_of_ok (run_bind_of_ok (run_takePress s.machine r)) hr hlogging hprinted
  | resetKeys => exact mirrors_of_ok (run_resetKeys s.machine r) hr hlogging hprinted
  | clearScreen => exact mirrors_of_ok (run_clearPixels s.machine r) hr hlogging hprinted
  | markShown => exact mirrors_of_ok (run_modify _ (s.machine.bare r)) hr hlogging hprinted
  | toggleLogging =>
    refine ⟨rfl, { r with logging := !r.logging, printed := r.printed ++ ["logsOn: " ++ Text.truth (!r.logging)] },
      rfl, hr, ?_, ?_⟩
    · change (!r.logging) = !s.logging
      rw [hlogging]
    · rw [hprinted, hlogging]
      rfl

/-- A cycle that succeeds does so on bare cells too. -/
theorem run_cycle_of_ok {store : Store} {s : Session} {lines : List String} (hs : s.machine.Sound)
    (h : Mirrors store s lines) {step : Step} (hstep : s.machine.cycle.2 = .ok step) :
    (run cycle store).1 = .ok () := by
  have houtcome := (run_perform hs h .cycle).1
  rw [outcome, HostStep.command, perform_cycle, hstep] at houtcome
  exact houtcome

/-- Whatever a host does, the machine on bare cells and the machine do the same. -/
theorem mirrors_after {store : Store} {s : Session} {lines : List String} (hs : s.machine.Sound)
    (h : Mirrors store s lines) (steps : List HostStep) :
    Mirrors (store.after steps) (s.after steps) (lines ++ s.printed steps) := by
  induction steps generalizing store s lines with
  | nil =>
    rw [Session.printed, List.append_nil]
    exact h
  | cons step steps ih =>
    have hsound : (s.perform step.command).session.machine.Sound := by
      rw [machine_perform]
      exact Machine.kept_sound.effect hs step
    have hrest := ih hsound (run_perform hs h step).2
    rw [List.append_assoc] at hrest
    exact hrest

/-- Whatever a host has done with a machine just switched on, it is sound, and the one on bare cells mirrors it. -/
theorem reachable (dialect : Dialect) (layout : Layout) (random : Wheel) (logging : Bool) (steps : List HostStep) :
    ((Session.fresh dialect layout random logging).after steps).machine.Sound ∧
      Mirrors ((Store.fresh dialect layout random logging).after steps)
        ((Session.fresh dialect layout random logging).after steps)
        ((Session.fresh dialect layout random logging).printed steps) := by
  constructor
  · rw [machine_after]
    exact Machine.sound_after dialect layout random steps
  · exact mirrors_after (Machine.sound_fresh dialect layout random) (mirrors_fresh dialect layout random logging) steps

end ChipEight.Micro
