import ChipEight.Proofs.Micro.Simulation

/-!
# Bounds on the cells

On bare cells nothing but the instructions themselves keeps a table as long as it was, a register a byte, or a
pixel 0 or 1. `Store.WellFormed` lists the bounds that the cells of a machine should have, and they hold after
whatever a host does with a machine just switched on, refused steps included (`cells_wellFormed`): the types of a
machine give some of them, and `Machine.Sound` the others.
-/

namespace ChipEight

namespace Micro

/-- The tables have their sizes, and every number its range. -/
structure Store.WellFormed (s : Store) : Prop where
  registers_length : s.registers.length = 16
  register : ∀ v ∈ s.registers, 0 ≤ v ∧ v ≤ 255
  index : 0 ≤ s.index ∧ s.index ≤ 0xFFFF
  counter : 0 ≤ s.counter ∧ s.counter ≤ 0xFFF + 255
  slots_length : s.slots.length = 16
  top : s.top ≤ 16
  entry : ∀ a ∈ s.slots.take s.top, 2 ≤ a.toNat ∧ a.toNat ≤ 4096
  memory_length : s.memory.length = 4096
  delay : 0 ≤ s.delay ∧ s.delay ≤ 255
  sound : 0 ≤ s.sound ∧ s.sound ≤ 255
  waiting : ∀ x, s.waiting = some x → 0 ≤ x ∧ x ≤ 15
  pending : ∀ key, s.pending = some key → 0 ≤ key ∧ key ≤ 15
  keys_length : s.keys.length = 16
  key : ∀ k ∈ s.keys, k = 0 ∨ k = 1
  pixels_length : s.pixels.length = 32
  row_length : ∀ row ∈ s.pixels, row.length = 64
  pixel : ∀ row ∈ s.pixels, ∀ p ∈ row, p = 0 ∨ p = 1

private theorem length_flags {n : Nat} (on : Fin n → Bool) : (flags on).length = n := List.length_ofFn

/-- A row of cells that stand for truth values holds nothing but 0 and 1. -/
private theorem mem_flags {n : Nat} {on : Fin n → Bool} {k : Nat} (h : k ∈ flags on) : k = 0 ∨ k = 1 := by
  obtain ⟨i, rfl⟩ := List.mem_ofFn.1 h
  cases on i with
  | false => exact .inl rfl
  | true => exact .inr rfl

private theorem toNat_range (b : UInt8) : 0 ≤ (b.toNat : Int) ∧ (b.toNat : Int) ≤ 255 := by
  have hlt := b.toNat_lt
  constructor <;> omega

private theorem mem_cells {rs : Registers} {v : Int} (h : v ∈ Registers.cells rs) : 0 ≤ v ∧ v ≤ 255 := by
  obtain ⟨b, -, rfl⟩ := List.mem_map.1 h
  exact toNat_range b

/-- The cells of a sound machine are well formed. -/
theorem wellFormed_bare {m : Machine} {r : Rest} (h : m.Sound) (hr : r.Fits m) : (m.bare r).WellFormed where
  registers_length := length_cells m.registers
  register v hv := mem_cells hv
  index := ⟨h.index_nonneg, Int.le_of_lt_add_one h.index_lt⟩
  counter := ⟨h.counter_nonneg, h.counter_le⟩
  slots_length := by
    rw [show (m.bare r).slots = m.stack.entries ++ r.stale by rfl, List.length_append]
    exact hr.trans h.depth
  top := by
    have hle := m.stack.length_le
    rw [h.depth] at hle
    exact hle
  entry a ha := by
    rw [show (m.bare r).slots = m.stack.entries ++ r.stale by rfl,
      show (m.bare r).top = m.stack.entries.length by rfl, List.take_left] at ha
    exact h.entries a ha
  memory_length := Vector.length_toList
  delay := toNat_range m.timers.delay
  sound := toNat_range m.timers.sound
  waiting x hx := by
    obtain ⟨register, -, rfl⟩ := Option.map_eq_some_iff.1 hx
    omega
  pending key hkey := by
    have hrange := h.pending key hkey
    omega
  keys_length := length_flags _
  key k hk := mem_flags hk
  pixels_length := List.length_ofFn
  row_length row hrow := by
    obtain ⟨y, rfl⟩ := List.mem_ofFn.1 hrow
    exact length_flags _
  pixel row hrow p hp := by
    obtain ⟨y, rfl⟩ := List.mem_ofFn.1 hrow
    exact mem_flags hp

/-- Whatever a host does with a machine just switched on, the machine is sound and its cells are well formed. -/
theorem cells_wellFormed (dialect : Dialect) (layout : Layout) (random : Wheel) (logging : Bool)
    (steps : List HostStep) :
    let s := (Session.fresh dialect layout random logging).after steps
    let store := (Store.fresh dialect layout random logging).after steps
    s.machine.Sound ∧ Mirrors store s ((Session.fresh dialect layout random logging).printed steps) ∧
      store.WellFormed := by
  intro s store
  obtain ⟨hsound, hmirrors⟩ := reachable dialect layout random logging steps
  obtain ⟨r, hstore, hr, -, -⟩ := id hmirrors
  refine ⟨hsound, hmirrors, ?_⟩
  rw [show store = s.machine.bare r from hstore]
  exact wellFormed_bare hsound hr

end Micro

end ChipEight
