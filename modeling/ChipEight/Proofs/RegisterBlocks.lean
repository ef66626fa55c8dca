import ChipEight.Proofs.Effects
import ChipEight.Proofs.Micro.Instructions

/-!
# Blocks of registers

A block of registers is stored byte by byte from the index on, and loaded back from there. Where blocks move the index,
blocks that are stored one after the other lie side by side in memory (`Memory.putBlocks`), and each is where the index
is when its turn to be loaded comes (`Memory.Holds`). So they come back whole, whatever is in the registers by then
(`stored_blocks_load_back`). Where the index stays, this is so for a single block.
-/

namespace ChipEight

/-- A block of registers, V0 to VX. -/
structure Block where
  /-- The registers that are stored. -/
  file : Registers
  /-- The number of VX. -/
  last : Fin 16
  /-- The registers before the block is loaded back, if they are not those that are there anyway. -/
  found : Option Registers

namespace Block

/-- The number of its registers. -/
def size (b : Block) : Nat := b.last.val + 1

def bytes (b : Block) : List UInt8 := Registers.first b.file b.size

/-- The number of registers of some blocks. -/
def total (bs : List Block) : Nat := (bs.map size).sum

/-- How far storing or loading a block moves the index. -/
def stride (d : Dialect) (b : Block) : Nat := if d.blockMovesIndex then b.size else 0

/-- How far some blocks move the index. -/
def way (d : Dialect) (bs : List Block) : Nat := (bs.map (stride d)).sum

theorem length_bytes (b : Block) : b.bytes.length = b.size := by
  have hle : b.size ≤ 16 := b.last.isLt
  rw [bytes, Registers.first, List.length_take, Vector.length_toList, Nat.min_eq_left hle]

theorem total_cons (b : Block) (bs : List Block) : total (b :: bs) = b.size + total bs := rfl

theorem way_cons (d : Dialect) (b : Block) (bs : List Block) : way d (b :: bs) = b.stride d + way d bs := rfl

theorem way_concat (d : Dialect) (bs : List Block) (b : Block) : way d (bs ++ [b]) = way d bs + b.stride d := by
  rw [way, List.map_append, List.sum_append]
  rfl

theorem stride_le_size (d : Dialect) (b : Block) : b.stride d ≤ b.size := by
  unfold stride
  split
  · exact Nat.le_refl _
  · exact Nat.zero_le _

theorem total_append (bs cs : List Block) : total (bs ++ cs) = total bs + total cs := by
  rw [total, List.map_append, List.sum_append]
  rfl

theorem way_le_total (d : Dialect) (bs : List Block) : way d bs ≤ total bs := by
  induction bs with
  | nil => exact Nat.le_refl _
  | cons b bs ih => exact Nat.add_le_add (b.stride_le_size d) ih

theorem way_of_moves {d : Dialect} (h : d.blockMovesIndex = true) : way d = total := by
  funext bs
  have hstride : stride d = size := funext fun b => if_pos h
  rw [way, hstride, total]

theorem way_of_stays {d : Dialect} (h : d.blockMovesIndex = false) : way d = fun _ => 0 := by
  funext bs
  have hstride : stride d = fun _ => 0 := funext fun b => if_neg (ne_true_of_eq_false h)
  rw [way, hstride, List.map_const', List.sum_replicate_nat, Nat.mul_zero]

/-- A block that is loaded over some registers replaces those up to VX. -/
theorem get_replaceFirst (b : Block) (registers : Registers) (k : Fin 16) :
    (Registers.replaceFirst registers b.bytes).get k = if k ≤ b.last then b.file.get k else registers.get k := by
  rw [Registers.get_replaceFirst]
  by_cases hk : k ≤ b.last
  · have hlt : k.val < b.size := Nat.lt_succ_of_le hk
    rw [if_pos hk, bytes, Registers.first, List.getElem?_take, if_pos hlt, Vector.getElem?_toList,
      Vector.getElem?_eq_getElem k.isLt, Option.getD_some]
    rfl
  · have hge : b.bytes.length ≤ k.val := by
      rw [length_bytes]
      exact Nat.lt_of_not_le hk
    rw [if_neg hk, List.getElem?_eq_none hge, Option.getD_none]

end Block

open Block

namespace Machine

/-- The machine after its registers were set to those of a block and stored. -/
def storeBlock (m : Machine) (b : Block) : Except Fault Machine :=
  { m with registers := b.file }.execute (.storeRegisters b.last)

/-- The machine after some blocks were stored one after the other. -/
def storeAll (m : Machine) (bs : List Block) : Except Fault Machine := bs.foldlM storeBlock m

/-- The machine after a block was loaded. -/
def loadBlock (m : Machine) (b : Block) : Except Fault Machine :=
  { m with registers := b.found.getD m.registers }.execute (.loadRegisters b.last)

/-- The machine after some blocks were loaded one after the other. -/
def loadAll (m : Machine) (bs : List Block) : Except Fault Machine := bs.foldlM loadBlock m

end Machine

namespace Micro

/-- All registers are set. -/
def setRegisters (registers : Registers) : Code Unit :=
  modify fun s => { s with registers := Registers.cells registers }

def storeBlock (b : Block) : Code Unit := do
  setRegisters b.file
  storeRegisters b.last

/-- All registers are set, or left as they are. -/
def overwrite : Option Registers → Code Unit
  | some registers => setRegisters registers
  | none => pure ()

def loadBlock (b : Block) : Code Unit := do
  overwrite b.found
  loadRegisters b.last

/-- The code turns the cells of a machine into those of another one; it may print lines. -/
def Turns (m : Machine) (code : Code Unit) (after : Machine) : Prop :=
  ∀ r : Rest, ∃ r', run code (m.bare r) = (.ok (), after.bare r')

variable {m next after : Machine} {b : Block} {bs : List Block}

theorem turns_pure (m : Machine) : Turns m (pure ()) m := fun r => ⟨r, rfl⟩

theorem Turns.bind {code later : Code Unit} (h : Turns m code next) (hlater : Turns next later after) :
    Turns m (do code; later) after := by
  intro r
  obtain ⟨r', hrun⟩ := h r
  obtain ⟨r'', hrun'⟩ := hlater r'
  exact ⟨r'', (run_bind_of_ok hrun).trans hrun'⟩

/-- What holds of single steps holds of a run. -/
theorem turns_forM {α : Type} {step : Machine → α → Except Fault Machine} {code : α → Code Unit} {as : List α}
    (h : as.foldlM step m = .ok after)
    (hstep : ∀ {m after : Machine} {a : α}, step m a = .ok after → Turns m (code a) after) :
    Turns m (as.forM code) after := by
  induction as generalizing m with
  | nil =>
    cases h
    exact turns_pure _
  | cons a as ih =>
    obtain ⟨next, hfirst, hrest⟩ := Except.foldlM_cons_eq_ok h
    exact (hstep hfirst).bind (ih hrest)

theorem turns_setRegisters (m : Machine) (registers : Registers) :
    Turns m (setRegisters registers) { m with registers := registers } := fun r => ⟨r, rfl⟩

theorem turns_storeBlock (h : m.storeBlock b = .ok after) : Turns m (storeBlock b) after := by
  obtain ⟨memory, hstore, rfl⟩ := Except.map_eq_ok h
  refine (turns_setRegisters m b.file).bind fun r => ?_
  exact ⟨_, run_storeRegisters { m with registers := b.file } r b.last hstore⟩

theorem turns_storeAll (h : m.storeAll bs = .ok after) : Turns m (bs.forM storeBlock) after :=
  turns_forM h turns_storeBlock

theorem turns_overwrite (m : Machine) (registers : Option Registers) :
    Turns m (overwrite registers) { m with registers := registers.getD m.registers } := by
  cases registers with
  | none => exact turns_pure m
  | some registers => exact turns_setRegisters m registers

theorem turns_loadBlock (h : m.loadBlock b = .ok after) : Turns m (loadBlock b) after := by
  obtain ⟨values, hread, rfl⟩ := Except.map_eq_ok h
  refine (turns_overwrite m b.found).bind fun r => ?_
  exact ⟨_, run_loadRegisters { m with registers := b.found.getD m.registers } r b.last hread⟩

theorem turns_loadAll (h : m.loadAll bs = .ok after) : Turns m (bs.forM loadBlock) after :=
  turns_forM h turns_loadBlock

end Micro

namespace Machine

open Micro

variable {m : Machine} {a : Nat} {b : Block} {bs : List Block}

/-! ### Single blocks -/

private theorem index_passBlock (hindex : m.index = a) (hfits : a + b.size ≤ 4096) :
    m.passBlock b.last = { m with index := (a + b.stride m.dialect : Nat) } := by
  unfold passBlock stride
  split
  · have hend : (m.index + b.last.val + 1) % 65536 = ((a + b.size : Nat) : Int) := by
      unfold Block.size at hfits ⊢
      omega
    rw [hend]
  · rw [Nat.add_zero, ← hindex]

theorem storeBlock_of_fits (hindex : m.index = a) (hfits : a + b.size ≤ 4096) :
    m.storeBlock b = .ok { m with
      memory := m.memory.put a b.bytes
      registers := b.file
      index := (a + b.stride m.dialect : Nat) } := by
  have hlength : (Registers.first b.file (b.last + 1)).length = b.size := b.length_bytes
  have hstore : m.memory.store m.index (Registers.first b.file (b.last + 1)) = .ok (m.memory.put a b.bytes) := by
    rw [hindex]
    exact if_pos (Memory.fits_of_le (by omega) (by omega))
  unfold storeBlock execute
  dsimp only
  rw [hstore]
  exact congrArg Except.ok
    (index_passBlock (m := { m with registers := b.file, memory := m.memory.put a b.bytes }) hindex hfits)

theorem loadBlock_of_read (hindex : m.index = a) (hfits : a + b.size ≤ 4096)
    (hread : m.memory.read a b.size = .ok b.bytes) :
    m.loadBlock b = .ok { m with
      registers := Registers.replaceFirst (b.found.getD m.registers) b.bytes
      index := (a + b.stride m.dialect : Nat) } := by
  have hread' : m.memory.read m.index (b.last + 1) = .ok b.bytes := by
    rw [hindex]
    exact hread
  unfold loadBlock execute
  dsimp only
  rw [hread']
  exact congrArg Except.ok (index_passBlock
    (m := { m with registers := Registers.replaceFirst (b.found.getD m.registers) b.bytes }) hindex hfits)

end Machine

/-! ### Blocks in memory -/

namespace Memory

/-- Memory after blocks were put into it, each from where the index has come by then. -/
def putBlocks (d : Dialect) (memory : Memory) (a : Nat) : List Block → Memory
  | [] => memory
  | b :: bs => putBlocks d (memory.put a b.bytes) (a + b.stride d) bs

/-- Each block is found where the index has come when its turn comes. -/
def Holds (d : Dialect) (memory : Memory) (a : Nat) : List Block → Prop
  | [] => True
  | b :: bs => memory.read a b.size = .ok b.bytes ∧ Holds d memory (a + b.stride d) bs

variable {d : Dialect} {memory : Memory} {a : Nat} {bs : List Block}

theorem byteAt_putBlocks {address : Nat} (h : address < a ∨ a + total bs ≤ address) :
    (putBlocks d memory a bs).byteAt address = memory.byteAt address := by
  induction bs generalizing memory a with
  | nil => rfl
  | cons b bs ih =>
    have hstride := b.stride_le_size d
    rw [total_cons] at h
    rw [putBlocks, ih (by omega), byteAt_put memory (by rw [length_bytes]; omega)]

theorem read_putBlocks_of_le {start count : Nat} (h : start + count ≤ a) :
    (putBlocks d memory a bs).read start count = memory.read start count := by
  induction bs generalizing memory a with
  | nil => rfl
  | cons b bs ih => rw [putBlocks, ih (by omega), read_put_of_le memory h]

/-- Where the index moves, no block comes to lie over an earlier one; and a single block does not anyway. -/
theorem holds_putBlocks (hapart : d.blockMovesIndex = true ∨ bs.length ≤ 1) (hfits : a + total bs ≤ 4096) :
    Holds d (putBlocks d memory a bs) a bs := by
  induction bs generalizing memory a with
  | nil => trivial
  | cons b bs ih =>
    have hstride := b.stride_le_size d
    rw [total_cons] at hfits
    have hfirst : (memory.put a b.bytes).read a b.size = .ok b.bytes := by
      have hread : (memory.put a b.bytes).read a b.bytes.length = .ok b.bytes :=
        memory.read_put (by rw [length_bytes]; omega)
      rwa [length_bytes] at hread
    have hrest : d.blockMovesIndex = true ∨ bs.length ≤ 1 :=
      hapart.imp_right fun hle => Nat.le_of_succ_le hle
    refine ⟨?_, ih hrest (by omega)⟩
    rcases hapart with hmoves | hone
    · have hsize : b.stride d = b.size := if_pos hmoves
      rw [putBlocks, hsize, read_putBlocks_of_le (Nat.le_refl _), hfirst]
    · have hnil : bs = [] := List.eq_nil_of_length_eq_zero (Nat.le_zero.1 (Nat.le_of_succ_le_succ hone))
      rw [hnil]
      exact hfirst

theorem Holds.split {earlier later : List Block} {b : Block} (h : Holds d memory a (earlier ++ b :: later)) :
    Holds d memory a earlier ∧ memory.read (a + way d earlier : Nat) b.size = .ok b.bytes := by
  induction earlier generalizing a with
  | nil => exact ⟨trivial, h.1⟩
  | cons c earlier ih =>
    obtain ⟨hread, hrest⟩ := h
    obtain ⟨hearlier, hb⟩ := ih hrest
    rw [Nat.add_assoc, ← way_cons] at hb
    exact ⟨⟨hread, hearlier⟩, hb⟩

end Memory

/-! ### Runs over blocks -/

namespace Machine

open Micro Memory

variable {m : Machine} {a : Nat} {bs : List Block}

theorem storeAll_of_fits (hindex : m.index = a) (hfits : a + total bs ≤ 4096) :
    ∃ registers, m.storeAll bs = .ok { m with
      memory := putBlocks m.dialect m.memory a bs
      registers := registers
      index := (a + way m.dialect bs : Nat) } := by
  induction bs generalizing m a with
  | nil => exact ⟨m.registers, by rw [way, List.map_nil, List.sum_nil, Nat.add_zero, ← hindex]; rfl⟩
  | cons b bs ih =>
    have hstride := b.stride_le_size m.dialect
    rw [total_cons] at hfits
    obtain ⟨registers, hrest⟩ := ih (m := { m with
      memory := m.memory.put a b.bytes
      registers := b.file
      index := (a + b.stride m.dialect : Nat) }) (a := a + b.stride m.dialect) rfl (by omega)
    refine ⟨registers, ?_⟩
    rw [way_cons, ← Nat.add_assoc, storeAll, List.foldlM_cons, storeBlock_of_fits hindex (by omega)]
    exact hrest

theorem loadAll_of_holds (hindex : m.index = a) (hfits : a + total bs ≤ 4096) (h : Holds m.dialect m.memory a bs) :
    ∃ registers, m.loadAll bs = .ok { m with
      registers := registers
      index := (a + way m.dialect bs : Nat) } := by
  induction bs generalizing m a with
  | nil => exact ⟨m.registers, by rw [way, List.map_nil, List.sum_nil, Nat.add_zero, ← hindex]; rfl⟩
  | cons b bs ih =>
    have hstride := b.stride_le_size m.dialect
    rw [total_cons] at hfits
    obtain ⟨registers, hrest⟩ := ih (m := { m with
      registers := Registers.replaceFirst (b.found.getD m.registers) b.bytes
      index := (a + b.stride m.dialect : Nat) }) (a := a + b.stride m.dialect) rfl (by omega) h.2
    refine ⟨registers, ?_⟩
    rw [way_cons, ← Nat.add_assoc, loadAll, List.foldlM_cons, loadBlock_of_read hindex (by omega) h.1]
    exact hrest

/-- Where blocks do not move the index, no run of instructions for blocks does, whatever registers they find. -/
theorem index_of_foldlM {step : Machine → Block → Except Fault Machine}
    (hstep : ∀ {m after : Machine} {b : Block}, step m b = .ok after → ∃ registers i,
      { m with registers := registers }.execute i = .ok after ∧
        (i.MovesIndex m.dialect → m.dialect.blockMovesIndex = true))
    {after : Machine} (hstays : m.dialect.blockMovesIndex = false) (h : bs.foldlM step m = .ok after) :
    after.index = m.index := by
  induction bs generalizing m with
  | nil =>
    cases h
    rfl
  | cons b bs ih =>
    obtain ⟨next, hfirst, hrest⟩ := Except.foldlM_cons_eq_ok h
    obtain ⟨registers, i, hexecute, hmoves⟩ := hstep hfirst
    have hfootprint := footprint_of_execute hexecute
    have hindex : next.index = m.index := hfootprint.index fun hi => ne_true_of_eq_false hstays (hmoves hi)
    have hdialect : next.dialect = m.dialect := hfootprint.dialect
    rw [← hdialect] at hstays
    exact (ih hstays hrest).trans hindex

theorem index_storeAll {after : Machine} (hstays : m.dialect.blockMovesIndex = false) (h : m.storeAll bs = .ok after) :
    after.index = m.index :=
  index_of_foldlM (fun hblock => ⟨_, .storeRegisters _, hblock, id⟩) hstays h

theorem index_loadAll {after : Machine} (hstays : m.dialect.blockMovesIndex = false) (h : m.loadAll bs = .ok after) :
    after.index = m.index :=
  index_of_foldlM (fun hblock => ⟨_, .loadRegisters _, hblock, id⟩) hstays h

/-! ### Storing and loading back -/

/-- The machine stores blocks from an address on and becomes another one, on bare cells too. Nothing but the bytes of
the blocks, the registers and the index has changed. -/
structure Stores (m : Machine) (a : Nat) (bs : List Block) (way : Nat) (stored : Machine) : Prop where
  run : { m with index := a }.storeAll bs = .ok stored
  cells : Turns { m with index := a } (bs.forM Micro.storeBlock) stored
  index : stored.index = (a + way : Nat)
  outside : ∀ address : Nat, address < a ∨ a + total bs ≤ address →
    stored.memory.byteAt address = m.memory.byteAt address
  rest : stored = { m with memory := stored.memory, registers := stored.registers, index := stored.index }

/-- The machine loads blocks from an address on, beginning with any contents of its registers, on bare cells too. When
it has loaded some of them, the index has come as far as these move it. -/
structure LoadsBack (m : Machine) (a : Nat) (bs : List Block) (way : List Block → Nat)
    (contents : Registers) : Prop where
  all : ∃ after, { m with index := a, registers := contents }.loadAll bs = .ok after ∧
    Turns { m with index := a, registers := contents } (bs.forM Micro.loadBlock) after ∧
    after.index = (a + way bs : Nat) ∧ after = { m with registers := after.registers, index := after.index }
  /-- Each block comes back into V0 to VX, and the registers behind VX are left as they are. -/
  each : ∀ (earlier later : List Block) (b : Block), bs = earlier ++ b :: later →
    ∃ before after, { m with index := a, registers := contents }.loadAll earlier = .ok before ∧
      Turns { m with index := a, registers := contents } (earlier.forM Micro.loadBlock) before ∧
      before.loadBlock b = .ok after ∧ Turns before (Micro.loadBlock b) after ∧
      before.index = (a + way earlier : Nat) ∧ after.index = (a + way (earlier ++ [b]) : Nat) ∧
      (∀ k : Fin 16, k ≤ b.last → after.v k = b.file.get k) ∧
      ∀ k : Fin 16, b.last < k → after.v k = (b.found.getD before.registers).get k

theorem stores_of_fits (m : Machine) (hfits : a + total bs ≤ 4096) :
    ∃ stored, m.Stores a bs (way m.dialect bs) stored ∧ stored.memory = putBlocks m.dialect m.memory a bs := by
  obtain ⟨registers, hrun⟩ := storeAll_of_fits (m := { m with index := a }) rfl hfits
  have hcells := turns_storeAll hrun
  refine ⟨_, { run := hrun, cells := hcells, index := rfl, outside := ?_, rest := rfl }, rfl⟩
  exact fun address houtside => byteAt_putBlocks houtside

theorem loadsBack_of_holds (contents : Registers) (hfits : a + total bs ≤ 4096)
    (h : Holds m.dialect m.memory a bs) : m.LoadsBack a bs (way m.dialect) contents := by
  constructor
  · obtain ⟨registers, hrun⟩ := loadAll_of_holds (m := { m with index := a, registers := contents }) rfl hfits h
    have hcells := turns_loadAll hrun
    exact ⟨_, hrun, hcells, rfl, rfl⟩
  · rintro earlier later b rfl
    obtain ⟨hearlier, hread⟩ := h.split
    have hway := way_le_total m.dialect earlier
    rw [total_append, total_cons] at hfits
    obtain ⟨registers, hbefore⟩ :=
      loadAll_of_holds (m := { m with index := a, registers := contents }) rfl (by omega) hearlier
    have hblock := loadBlock_of_read
      (m := { m with registers := registers, index := (a + way m.dialect earlier : Nat) }) rfl (by omega) hread
    refine ⟨_, _, hbefore, turns_loadAll hbefore, hblock, turns_loadBlock hblock, rfl, ?_, ?_, ?_⟩
    · rw [way_concat, ← Nat.add_assoc]
    · intro k hk
      exact (b.get_replaceFirst _ k).trans (if_pos hk)
    · intro k hk
      exact (b.get_replaceFirst _ k).trans (if_neg (Fin.not_le.2 hk))

/-- What was stored is there to be loaded, if no block was stored over another one. -/
theorem exists_stores_loadsBack (m : Machine) (hapart : m.dialect.blockMovesIndex = true ∨ bs.length ≤ 1)
    (hfits : a + total bs ≤ 4096) :
    ∃ stored, m.Stores a bs (way m.dialect bs) stored ∧
      ∀ contents, stored.LoadsBack a bs (way m.dialect) contents := by
  obtain ⟨stored, hstored, hmemory⟩ := m.stores_of_fits hfits
  have hdialect : stored.dialect = m.dialect := by rw [hstored.rest]
  have hholds : Holds stored.dialect stored.memory a bs := by
    rw [hdialect, hmemory]
    exact holds_putBlocks hapart hfits
  refine ⟨stored, hstored, fun contents => ?_⟩
  rw [← hdialect]
  exact loadsBack_of_holds contents hfits hholds

end Machine

/-- Where blocks move the index, blocks that were stored from an address on come back when they are loaded from there
in the same order, each over any registers, and the index ends behind the last one both times. Where the index stays,
it stays throughout, and a block comes back that is loaded from where it was stored. -/
theorem stored_blocks_load_back (m : Machine) :
    (m.dialect.blockMovesIndex = true → ∀ (a : Nat) (bs : List Block), a + total bs ≤ 4096 →
      ∃ stored, m.Stores a bs (total bs) stored ∧ ∀ contents, stored.LoadsBack a bs total contents) ∧
    (m.dialect.blockMovesIndex = false →
      (∀ (a : Nat) (b : Block), a + b.size ≤ 4096 →
        ∃ stored, m.Stores a [b] 0 stored ∧ ∀ contents, stored.LoadsBack a [b] (fun _ => 0) contents) ∧
      ∀ (bs : List Block) (after : Machine), m.storeAll bs = .ok after ∨ m.loadAll bs = .ok after →
        after.index = m.index) := by
  refine ⟨fun hmoves a bs hfits => ?_, fun hstays => ⟨fun a b hfits => ?_, fun bs after hafter => ?_⟩⟩
  · have hback := m.exists_stores_loadsBack (.inl hmoves) hfits
    rwa [way_of_moves hmoves] at hback
  · have hone : [b].length ≤ 1 := Nat.le_refl 1
    have hback := m.exists_stores_loadsBack (.inr hone) hfits
    rwa [way_of_stays hstays] at hback
  · rcases hafter with hstore | hload
    · exact Machine.index_storeAll hstays hstore
    · exact Machine.index_loadAll hstays hload

/-- Two blocks that lie side by side come back where blocks move the index, the first one over registers that are not
those of the second; and the first one does where the index stays. -/
theorem stored_blocks_load_back_pair :
    let first : Block := ⟨Vector.replicate 16 7, 2, some (Vector.replicate 16 1)⟩
    let second : Block := ⟨Vector.replicate 16 9, 15, none⟩
    let m : Machine := { dialect := Dialect.vip }
    let m' : Machine := { dialect := Dialect.modern }
    (∃ stored, m.Stores 0xFED [first, second] 19 stored ∧
      ∀ contents, stored.LoadsBack 0xFED [first, second] total contents) ∧
    (∃ stored, m'.Stores 0xFFD [first] 0 stored ∧
      ∀ contents, stored.LoadsBack 0xFFD [first] (fun _ => 0) contents) ∧
      ∀ after, m'.loadAll [first, second] = .ok after → after.index = 0 := by
  intro first second m m'
  obtain ⟨hmoves, -⟩ := stored_blocks_load_back m
  obtain ⟨-, hstays⟩ := stored_blocks_load_back m'
  obtain ⟨hsingle, hindex⟩ := hstays rfl
  exact ⟨hmoves rfl 0xFED [first, second] (by decide), hsingle 0xFFD first (by decide),
    fun after hafter => hindex _ after (.inr hafter)⟩

end ChipEight
