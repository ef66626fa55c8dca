import ChipEight.Proofs.Micro.Simulation
import Mathlib.Data.List.Induction

/-!
# Memory is a map of bytes

Memory is worked on by accesses: reads, writes and loads of programs, at any addresses and in any order, refused ones
among them. What a byte is after some accesses follows from the accesses alone: it is the one that the last of them to
go through and to cover its address has put there, or the one that was there from the start (`Access.byteAfter`).

`Access.IsByteMap` says in these terms what every further access comes to: which fault refuses it, what it answers, and
what it leaves behind. It holds of sessions, and of bare cells, where memory is a table that a write could make longer
or shorter (`memory_is_byte_map`).
-/

namespace ChipEight

/-- What can be done to memory. -/
inductive Access where
  | read (address : Int) (count : Nat)
  | write (address : Int) (values : List Int)
  | load (rom : List UInt8)
deriving DecidableEq

namespace Access

/-! ### What the bytes are after some accesses -/

/-- An access to `count` bytes from `address` on leaves memory. -/
def Outside (address : Int) (count : Nat) : Prop := address < 0 ∨ address + count > 4096

instance (address : Int) (count : Nat) : Decidable (Outside address count) := inferInstanceAs (Decidable (_ ∨ _))

/-- Some of the numbers is no byte. -/
def NoBytes (values : List Int) : Prop := ∃ v ∈ values, v < 0 ∨ v > 255

instance (values : List Int) : Decidable (NoBytes values) := inferInstanceAs (Decidable (∃ v ∈ values, _))

/-- The access goes through and writes: its numbers are bytes and have their places, or its program is short enough. -/
def Writes : Access → Prop
  | read _ _ => False
  | write address values => ¬ NoBytes values ∧ ¬ Outside address values.length
  | load rom => rom.length ≤ 3584

instance : DecidablePred Writes
  | read _ _ => inferInstanceAs (Decidable False)
  | write _ _ => inferInstanceAs (Decidable (_ ∧ _))
  | load _ => inferInstanceAs (Decidable (_ ≤ _))

/-- Where the bytes of an access go, if it has any. -/
def start : Access → Nat
  | read _ _ => 0
  | write address _ => address.toNat
  | load _ => 0x200

/-- The bytes of an access. -/
def values : Access → List UInt8
  | read _ _ => []
  | write _ values => values.map UInt8.ofInt
  | load rom => rom

/-- The byte that an access puts at an address, if it goes through and covers the address. -/
def put? (address : Nat) (a : Access) : Option UInt8 :=
  if a.Writes ∧ a.start ≤ address then a.values[address - a.start]? else none

/-- The byte at an address after some accesses to memory as it is when a machine is switched on. -/
def byteAfter (history : List Access) (address : Nat) : UInt8 :=
  (history.filterMap (put? address)).getLast?.getD (Memory.initialByte address)

/-- Bytes are put at an address and behind it, and all other cells are as before. -/
structure Put (before : List UInt8) (start : Nat) (values : List UInt8) (after : List UInt8) : Prop where
  length_eq : after.length = before.length
  byte : ∀ k, after[k]? = if start ≤ k ∧ k < start + values.length then values[k - start]? else before[k]?

/-- Memory behaves as a map of 4096 bytes. After the accesses of the history `bytes` are its cells, and `act` tells what
a further access answers and what the cells are then. -/
structure IsByteMap {ε : Type} (refuse : Fault → ε) (history : List Access) (bytes : List UInt8)
    (act : Access → Except ε Answer × List UInt8) : Prop where
  length_eq : bytes.length = 4096
  byte : ∀ k < 4096, bytes[k]? = some (byteAfter history k)
  read_outside : ∀ (address : Int) (count : Nat), Outside address count →
    act (.read address count) = (.error (refuse (.memoryBounds address count)), bytes)
  read_inside : ∀ (address : Int) (count : Nat), ¬ Outside address count →
    ∃ values, act (.read address count) = (.ok (.bytes values), bytes) ∧ values.length = count ∧
      ∀ i < count, values[i]? = some (byteAfter history (address.toNat + i))
  write_no_bytes : ∀ (address : Int) (values : List Int), NoBytes values →
    act (.write address values) = (.error (refuse .byteRange), bytes)
  write_outside : ∀ (address : Int) (values : List Int), ¬ NoBytes values → Outside address values.length →
    act (.write address values) = (.error (refuse (.memoryBounds address values.length)), bytes)
  write_inside : ∀ (address : Int) (values : List Int), ¬ NoBytes values → ¬ Outside address values.length →
    ∃ after, act (.write address values) = (.ok .nothing, after) ∧
      Put bytes address.toNat (values.map UInt8.ofInt) after
  load_long : ∀ rom : List UInt8, rom.length > 3584 →
    act (.load rom) = (.error (refuse (.romTooLarge rom.length 3584)), bytes)
  load_short : ∀ rom : List UInt8, rom.length ≤ 3584 →
    ∃ after, act (.load rom) = (.ok .nothing, after) ∧ Put bytes 0x200 rom after

/-! ### Accesses to memory -/

/-- What an access answers, and the memory after it. -/
def on (m : Memory) : Access → Except Fault Answer × Memory
  | read address count => ((m.read address count).map .bytes, m)
  | write address values =>
    match m.write address values with
    | .ok written => (.ok .nothing, written)
    | .error fault => (.error fault, m)
  | load rom =>
    match m.loadRom rom with
    | .ok written => (.ok .nothing, written)
    | .error fault => (.error fault, m)

/-- The command of a session that an access is. -/
def command : Access → Command
  | read address count => .readMemory address count
  | write address values => .writeMemory address values
  | load rom => .load rom

/-- An access on bare cells. -/
def code : Access → Micro.Code Answer
  | read address count => do
    return .bytes (← Micro.readMemory address count)
  | write address values => do
    Micro.writeMemory address values
    return .nothing
  | load rom => do
    Micro.load rom
    return .nothing

end Access

open Access

/-- Memory after some accesses to it. -/
def Memory.after (m : Memory) (history : List Access) : Memory := history.foldl (fun m a => (a.on m).2) m

/-- The session after some accesses to its memory. -/
def Session.afterAccesses (s : Session) (history : List Access) : Session :=
  history.foldl (fun s a => (s.perform a.command).session) s

/-- The store after some accesses to its memory, those that ended in a trap included. -/
def Micro.Store.afterAccesses (s : Micro.Store) (history : List Access) : Micro.Store :=
  history.foldl (fun s a => (Micro.run a.code s).2) s

namespace Memory

variable (m : Memory)

theorem not_fits_of_outside {address : Int} {count : Nat} (h : Outside address count) : ¬ Fits address count :=
  not_fits_iff.2 h

theorem fits_of_inside {address : Int} {count : Nat} (h : ¬ Outside address count) : Fits address count :=
  not_not.1 (mt not_fits_iff.1 h)

theorem write_of_bytes (address : Int) {values : List Int} (h : ¬ NoBytes values) :
    m.write address values = m.store address (values.map UInt8.ofInt) := by
  have hall : (values.all fun v => 0 ≤ v ∧ v < 256) = true := by
    rw [List.all_eq_true]
    intro v hv
    have hrange : ¬ (v < 0 ∨ v > 255) := fun hout => h ⟨v, hv, hout⟩
    exact decide_eq_true (by omega)
  exact if_pos hall

theorem write_of_noBytes (address : Int) {values : List Int} (h : NoBytes values) :
    m.write address values = .error .byteRange := by
  obtain ⟨v, hv, hout⟩ := h
  refine if_neg fun hall => ?_
  have hrange := of_decide_eq_true (List.all_eq_true.1 hall v hv)
  omega

theorem store_of_inside {address : Int} {values : List UInt8} (h : ¬ Outside address values.length) :
    m.store address values = .ok (m.put address.toNat values) := if_pos (fits_of_inside h)

theorem store_of_outside {address : Int} {values : List UInt8} (h : Outside address values.length) :
    m.store address values = .error (.memoryBounds address values.length) := if_neg (not_fits_of_outside h)

theorem loadRom_of_short {rom : List UInt8} (h : rom.length ≤ 3584) : m.loadRom rom = .ok (m.put 0x200 rom) := by
  have hinside : ¬ Outside 0x200 rom.length := by
    unfold Outside
    omega
  exact (if_neg (Nat.not_lt.2 h)).trans (m.store_of_inside hinside)

theorem loadRom_of_long {rom : List UInt8} (h : rom.length > 3584) :
    m.loadRom rom = .error (.romTooLarge rom.length 3584) := if_pos h

theorem getElem?_bytes {k : Nat} (h : k < 4096) : m.bytes.toList[k]? = some (m.byteAt k) := by
  rw [Vector.getElem?_toList, byteAt, Vector.getElem?_eq_getElem h, Option.getD_some]

theorem put_bytes {start : Nat} {values : List UInt8} (h : start + values.length ≤ 4096) :
    Put m.bytes.toList start values (m.put start values).bytes.toList := by
  constructor
  · rw [Vector.length_toList, Vector.length_toList]
  · intro k
    by_cases hk : k < 4096
    · rw [getElem?_bytes _ hk, getElem?_bytes _ hk, byteAt_put_of_fits m h]
      by_cases hinside : start ≤ k ∧ k < start + values.length
      · have hlt : k - start < values.length := by omega
        rw [if_pos hinside.1, if_pos hinside, List.getElem?_eq_getElem hlt, Option.getD_some]
      · rw [if_neg hinside]
        split
        · rw [List.getElem?_eq_none (by omega), Option.getD_none]
        · rfl
    · have hend : ∀ m : Memory, m.bytes.toList[k]? = none := fun m =>
        List.getElem?_eq_none (by rw [Vector.length_toList]; omega)
      rw [hend, hend, if_neg (by omega)]

/-! ### One access -/

theorem on_of_writes {a : Access} (h : a.Writes) :
    a.on m = (.ok .nothing, m.put a.start a.values) ∧ a.start + a.values.length ≤ 4096 := by
  cases a with
  | read address count => exact absurd h id
  | write address values =>
    obtain ⟨hbytes, hinside⟩ := h
    have hlength : (values.map UInt8.ofInt).length = values.length := List.length_map _
    have hwrite : m.write address values = .ok (m.put address.toNat (values.map UInt8.ofInt)) := by
      rw [m.write_of_bytes address hbytes, m.store_of_inside (by rwa [hlength])]
    unfold Outside at hinside
    unfold Access.on Access.start Access.values
    dsimp only
    rw [hwrite, hlength]
    exact ⟨rfl, by omega⟩
  | load rom =>
    have hshort : rom.length ≤ 3584 := h
    unfold Access.on Access.start Access.values
    dsimp only
    rw [m.loadRom_of_short hshort]
    exact ⟨rfl, by omega⟩

theorem on_of_not_writes {a : Access} (h : ¬ a.Writes) : (a.on m).2 = m := by
  cases a with
  | read address count => rfl
  | write address values =>
    unfold Access.on
    dsimp only
    by_cases hbytes : NoBytes values
    · rw [m.write_of_noBytes address hbytes]
    · have houtside : Outside address values.length := by
        by_contra hinside
        exact h ⟨hbytes, hinside⟩
      rw [m.write_of_bytes address hbytes, m.store_of_outside (by rwa [List.length_map])]
  | load rom =>
    have hlong : rom.length > 3584 := Nat.lt_of_not_le h
    unfold Access.on
    dsimp only
    rw [m.loadRom_of_long hlong]

/-- An access that goes through puts its bytes where they belong. -/
theorem byteAt_on (a : Access) (address : Nat) :
    (a.on m).2.byteAt address = (a.put? address).getD (m.byteAt address) := by
  unfold put?
  by_cases h : a.Writes
  · obtain ⟨hon, hfits⟩ := m.on_of_writes h
    rw [hon, byteAt_put_of_fits m hfits]
    by_cases hle : a.start ≤ address
    · rw [if_pos hle, if_pos ⟨h, hle⟩]
    · rw [if_neg hle, if_neg fun hboth => hle hboth.2, Option.getD_none]
  · rw [m.on_of_not_writes h, if_neg fun hboth => h hboth.1, Option.getD_none]

/-! ### Some accesses -/

theorem after_concat (history : List Access) (a : Access) :
    m.after (history ++ [a]) = (a.on (m.after history)).2 := List.foldl_concat ..

theorem byteAt_after (history : List Access) (address : Nat) :
    (m.after history).byteAt address =
      (history.filterMap (put? address)).getLast?.getD (m.byteAt address) := by
  induction history using List.reverseRecOn with
  | nil => rfl
  | append_singleton history a ih =>
    rw [after_concat, byteAt_on, ih, List.filterMap_append, List.filterMap_cons, List.filterMap_nil]
    cases a.put? address with
    | none => rw [List.append_nil, Option.getD_none]
    | some b => rw [List.getLast?_concat, Option.getD_some, Option.getD_some]

theorem byteAt_fresh_after (history : List Access) (address : Nat) :
    (fresh.after history).byteAt address = byteAfter history address := by
  rw [byteAt_after, byteAt_fresh]
  rfl

/-- Memory whose bytes are those of the history behaves as a map of bytes. -/
theorem isByteMap {ε : Type} (refuse : Fault → ε) {history : List Access}
    (h : ∀ address, m.byteAt address = byteAfter history address) :
    IsByteMap refuse history m.bytes.toList fun a => ((a.on m).1.mapError refuse, (a.on m).2.bytes.toList) where
  length_eq := Vector.length_toList
  byte k hk := by rw [m.getElem?_bytes hk, h]
  read_outside address count houtside := by
    simp only [Access.on, m.read_of_not_fits (not_fits_of_outside houtside)]
    rfl
  read_inside address count hinside := by
    refine ⟨(List.range count).map fun i => m.byteAt (address.toNat + i), ?_, ?_, ?_⟩
    · simp only [Access.on, m.read_of_fits (fits_of_inside hinside)]
      rfl
    · rw [List.length_map, List.length_range]
    · intro i hi
      rw [List.getElem?_map, List.getElem?_range hi, Option.map_some, h]
  write_no_bytes address values hbytes := by
    simp only [Access.on, m.write_of_noBytes address hbytes]
    rfl
  write_outside address values hbytes houtside := by
    have hlength : (values.map UInt8.ofInt).length = values.length := List.length_map _
    rw [← hlength] at houtside
    simp only [Access.on, m.write_of_bytes address hbytes, m.store_of_outside houtside, hlength]
    rfl
  write_inside address values hbytes hinside := by
    obtain ⟨hon, hfits⟩ := m.on_of_writes (a := .write address values) ⟨hbytes, hinside⟩
    rw [hon]
    exact ⟨_, rfl, m.put_bytes hfits⟩
  load_long rom hlong := by
    simp only [Access.on, m.loadRom_of_long hlong]
    rfl
  load_short rom hshort := by
    obtain ⟨hon, hfits⟩ := m.on_of_writes (a := .load rom) hshort
    rw [hon]
    exact ⟨_, rfl, m.put_bytes hfits⟩

end Memory

/-! ### Sessions and bare cells -/

namespace Access

theorem perform_command (s : Session) (a : Access) :
    (s.perform a.command).answer = (a.on s.machine.memory).1 ∧
      (s.perform a.command).session = s.withMachine { s.machine with memory := (a.on s.machine.memory).2 } := by
  cases a with
  | read address count => exact ⟨rfl, rfl⟩
  | write address values =>
    simp only [command, Session.perform, on]
    cases s.machine.memory.write address values <;> exact ⟨rfl, rfl⟩
  | load rom =>
    simp only [command, Session.perform, Session.load, Machine.loadRom, on]
    cases s.machine.memory.loadRom rom <;> exact ⟨rfl, rfl⟩

theorem machine_afterAccesses (s : Session) (history : List Access) :
    (s.afterAccesses history).machine = { s.machine with memory := s.machine.memory.after history } := by
  induction history using List.reverseRecOn with
  | nil => rfl
  | append_singleton history a ih =>
    have hlast : s.afterAccesses (history ++ [a]) = ((s.afterAccesses history).perform a.command).session :=
      List.foldl_concat ..
    rw [hlast, (a.perform_command _).2, Session.withMachine, ih, Memory.after_concat]

open Micro

/-- An access on bare cells goes the way of the access; only a load may print a line. -/
theorem run_code (m : Machine) (r : Rest) (a : Access) :
    ∃ r', run a.code (m.bare r) =
      ((a.on m.memory).1.mapError Trap.refused, { m with memory := (a.on m.memory).2 }.bare r') := by
  cases a with
  | read address count =>
    have hread := run_readMemory m r address count
    refine ⟨r, ?_⟩
    simp only [code, on]
    cases hbytes : m.memory.read address count with
    | ok bytes =>
      rw [hbytes] at hread
      exact run_bind_of_ok hread
    | error fault =>
      rw [hbytes] at hread
      exact run_bind_of_error hread
  | write address values =>
    have hwrite := run_writeMemory_numbers m r address values
    refine ⟨r, ?_⟩
    simp only [code, on]
    cases hwritten : m.memory.write address values with
    | ok written =>
      rw [hwritten] at hwrite
      exact run_bind_of_ok hwrite
    | error fault =>
      rw [hwritten] at hwrite
      exact run_bind_of_error hwrite
  | load rom =>
    have hload := run_load m r rom
    simp only [code, on]
    cases hwritten : m.memory.loadRom rom with
    | ok written =>
      rw [hwritten] at hload
      exact ⟨_, run_bind_of_ok hload⟩
    | error fault =>
      rw [hwritten] at hload
      exact ⟨r, run_bind_of_error hload⟩

theorem bare_afterAccesses (m : Machine) (r : Rest) (history : List Access) :
    ∃ r', (m.bare r).afterAccesses history = { m with memory := m.memory.after history }.bare r' := by
  induction history using List.reverseRecOn with
  | nil => exact ⟨r, rfl⟩
  | append_singleton history a ih =>
    obtain ⟨r', ih⟩ := ih
    obtain ⟨r'', hrun⟩ := a.run_code { m with memory := m.memory.after history } r'
    have hlast : (m.bare r).afterAccesses (history ++ [a]) = (run a.code ((m.bare r).afterAccesses history)).2 :=
      List.foldl_concat ..
    refine ⟨r'', ?_⟩
    rw [hlast, ih, hrun, Memory.after_concat]

/-- A session whose memory has the bytes of the history behaves as a map of bytes. -/
theorem isByteMap_session {s : Session} {history : List Access}
    (h : ∀ address, s.machine.memory.byteAt address = byteAfter history address) :
    IsByteMap id history s.machine.memory.bytes.toList fun a =>
      ((s.perform a.command).answer, (s.perform a.command).session.machine.memory.bytes.toList) := by
  have hact : (fun a : Access =>
      ((s.perform a.command).answer, (s.perform a.command).session.machine.memory.bytes.toList)) =
        fun a => ((a.on s.machine.memory).1.mapError id, (a.on s.machine.memory).2.bytes.toList) := by
    funext a
    obtain ⟨hanswer, hsession⟩ := a.perform_command s
    rw [hanswer, hsession]
    cases (a.on s.machine.memory).1 <;> rfl
  rw [hact]
  exact s.machine.memory.isByteMap id h

/-- So do the cells of a machine whose memory has these bytes. -/
theorem isByteMap_bare {m : Machine} {r : Rest} {history : List Access}
    (h : ∀ address, m.memory.byteAt address = byteAfter history address) :
    IsByteMap Trap.refused history (m.bare r).memory fun a =>
      ((run a.code (m.bare r)).1, (run a.code (m.bare r)).2.memory) := by
  have hact : (fun a : Access => ((run a.code (m.bare r)).1, (run a.code (m.bare r)).2.memory)) =
      fun a => ((a.on m.memory).1.mapError Trap.refused, (a.on m.memory).2.bytes.toList) := by
    funext a
    obtain ⟨r', hrun⟩ := a.run_code m r
    rw [hrun]
    rfl
  rw [hact]
  exact m.memory.isByteMap Trap.refused h

end Access

open Micro

/-- After any accesses to the memory of a machine just switched on, memory is a map of 4096 bytes: each holds what the
last access that went through and covered it has put there. A read that stays inside memory returns these bytes; what
is refused is refused for its own numbers only, and leaves memory as it was. On bare cells it is the same map. -/
theorem memory_is_byte_map (dialect : Dialect) (layout : Layout) (random : Wheel) (logging : Bool)
    (history : List Access) :
    let s := (Session.fresh dialect layout random logging).afterAccesses history
    let store := (Store.fresh dialect layout random logging).afterAccesses history
    (IsByteMap id history s.machine.memory.bytes.toList fun a =>
      ((s.perform a.command).answer, (s.perform a.command).session.machine.memory.bytes.toList)) ∧
    (IsByteMap Trap.refused history store.memory fun a =>
      ((run a.code store).1, (run a.code store).2.memory)) := by
  intro s store
  have hbytes := Memory.byteAt_fresh_after history
  constructor
  · have hmachine := machine_afterAccesses (Session.fresh dialect layout random logging) history
    refine isByteMap_session fun address => ?_
    rw [hmachine]
    exact hbytes address
  · obtain ⟨r, hfresh, -⟩ := mirrors_fresh dialect layout random logging
    obtain ⟨r', hstore⟩ := bare_afterAccesses (Machine.fresh dialect layout random) r history
    have hcells := (congrArg (fun store : Store => store.afterAccesses history) hfresh).trans hstore
    change store = _ at hcells
    rw [hcells]
    exact isByteMap_bare hbytes

/-- Writes that are refused put nothing, and the last one that goes through counts. -/
example :
    let history : List Access :=
      [.load [1, 2, 3], .write 0x201 [8, 300], .write 0x202 [9], .write (-1) [7], .write 0xFFF [5, 6], .read 0x200 3]
    (byteAfter history 0x201, byteAfter history 0x202, byteAfter history 0xFFF, byteAfter history 0x50) =
      (2, 9, 0, 0xF0) := by
  decide

end ChipEight
