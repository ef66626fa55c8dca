import ChipEight.Proofs.MemoryLaws
import ChipEight.Proofs.Micro.Cells
import ChipEight.Proofs.Soundness

/-!
# Micro-operations on memory, stack and devices

The micro-operations that go beyond registers and addresses, on the cells of a machine. A run of cells that is
replaced by as many values leaves memory as long as it was, so `splice` is `Memory.put`; a stack pointer over slots
is the list of the slots below it; a pixel or a key is a cell that is 0 or 1.
-/

namespace ChipEight.Micro

variable (m : Machine) (r : Rest)

/-! ### Memory -/

private theorem length_bytes (memory : Memory) : memory.bytes.toList.length = 4096 := by
  simp

theorem run_checkAccess_of_fits {address count : Int} (h : Memory.Fits address count) (s : Store) :
    run (checkAccess address count) s = (.ok (), s) := by
  unfold checkAccess
  rw [if_neg (mt Memory.not_fits_iff.2 (not_not.2 h))]
  rfl

theorem run_checkAccess_of_not_fits {address count : Int} (h : ¬ Memory.Fits address count) (s : Store) :
    run (checkAccess address count) s = (.error (.refused (.memoryBounds address count)), s) := by
  unfold checkAccess
  rw [if_pos (Memory.not_fits_iff.1 h)]
  rfl

private theorem slice_bytes (memory : Memory) {address : Int} (count : Nat) (h : Memory.Fits address count) :
    slice memory.bytes.toList address (address + count) =
      memory.between address.toNat (Memory.accessStop address count) := by
  obtain ⟨hnonneg, hle⟩ := h
  obtain ⟨start, rfl⟩ := Int.eq_ofNat_of_zero_le hnonneg
  have hsize : (Memory.size : Int) = 4096 := rfl
  rw [slice_natCast _ _ _ (by rw [length_bytes]; omega), Memory.accessStop_of_nonneg hnonneg, Int.toNat_natCast]
  simp only [Memory.between, Array.toList_extract, List.extract_eq_take_drop, Nat.add_sub_cancel_left]
  rfl

theorem run_readMemory (address : Int) (count : Nat) :
    run (readMemory address count) (m.bare r) =
      ((m.memory.read address count).mapError Trap.refused, m.bare r) := by
  unfold readMemory Memory.read
  by_cases h : Memory.Fits address count
  · rw [if_pos h, run_bind_of_ok (run_checkAccess_of_fits h _), run_bind_of_ok (run_get _), run_pure]
    exact congrArg (fun bytes => (Except.ok bytes, m.bare r)) (slice_bytes m.memory count h)
  · rw [if_neg h, run_bind_of_error (run_checkAccess_of_not_fits h _)]
    rfl

/-- Bytes that fit are put in the place of as many bytes. -/
theorem toList_put (memory : Memory) (address : Nat) (values : List UInt8) (h : address + values.length ≤ 4096) :
    (memory.put address values).bytes.toList =
      memory.bytes.toList.take address ++ values ++ memory.bytes.toList.drop (address + values.length) := by
  induction values generalizing memory address with
  | nil => simp [Memory.put]
  | cons b values ih =>
    rw [List.length_cons] at h
    have hlen : address < (memory.bytes.toList.set address b).length := by
      rw [List.length_set, length_bytes]
      omega
    -- the first byte has its place, and the others go behind it by induction
    have htake : (memory.bytes.toList.set address b).take (address + 1) =
        memory.bytes.toList.take address ++ [b] := by
      rw [List.take_succ_eq_append_getElem hlen, List.getElem_set_self, List.take_set,
        List.set_eq_of_length_le (by rw [List.length_take]; exact Nat.min_le_left _ _)]
    have hdrop : (memory.bytes.toList.set address b).drop (address + 1 + values.length) =
        memory.bytes.toList.drop (address + (b :: values).length) := by
      rw [List.drop_set, if_pos (by omega), List.length_cons, Nat.add_assoc, Nat.add_comm 1]
    rw [Memory.put, ih _ _ (by omega), Vector.toList_setIfInBounds, htake, hdrop, List.append_assoc _ [b]]
    rfl

private theorem all_bytes (values : List UInt8) :
    ((values.map fun b => (b.toNat : Int)).all fun v => 0 ≤ v ∧ v < 256) = true := by
  rw [List.all_eq_true]
  intro v hv
  obtain ⟨b, -, rfl⟩ := List.mem_map.1 hv
  have := b.toNat_lt
  simp only [decide_eq_true_eq]
  omega

private theorem map_ofInt_toNat (values : List UInt8) :
    (values.map fun b => (b.toNat : Int)).map UInt8.ofInt = values := by
  rw [List.map_map]
  conv => rhs; rw [← List.map_id values]
  apply List.map_congr_left
  intro b _
  apply UInt8.toNat_inj.1
  have h := toNat_ofInt_byte (b.toNat : Int)
  have := b.toNat_lt
  simp only [Function.comp_apply, id_eq]
  omega

theorem run_writeMemory (address : Int) (values : List UInt8) :
    run (writeMemory address (values.map fun b => (b.toNat : Int))) (m.bare r) =
      match m.memory.store address values with
      | .ok memory => (.ok (), { m with memory := memory }.bare r)
      | .error fault => (.error (.refused fault), m.bare r) := by
  unfold writeMemory Memory.store
  rw [if_pos (all_bytes values), List.length_map, map_ofInt_toNat]
  by_cases h : Memory.Fits address values.length
  · obtain ⟨hnonneg, hle⟩ := id h
    have hsize : (Memory.size : Int) = 4096 := rfl
    obtain ⟨start, rfl⟩ := Int.eq_ofNat_of_zero_le hnonneg
    rw [if_pos h, run_bind_of_ok (run_checkAccess_of_fits h _), run_modify]
    have hput := toList_put m.memory start values (by omega)
    have hsplice := splice_natCast m.memory.bytes.toList values start (by rw [length_bytes]; omega)
    simp only [Machine.bare, hsplice, ← hput, Int.toNat_natCast]
  · rw [if_neg h, run_bind_of_error (run_checkAccess_of_not_fits h _)]

/-- Numbers are written if all of them are bytes, whatever the address. -/
theorem run_writeMemory_numbers (address : Int) (values : List Int) :
    run (writeMemory address values) (m.bare r) =
      match m.memory.write address values with
      | .ok memory => (.ok (), { m with memory := memory }.bare r)
      | .error fault => (.error (.refused fault), m.bare r) := by
  by_cases hall : (values.all fun v => 0 ≤ v ∧ v < 256) = true
  · have hvalues : (values.map UInt8.ofInt).map (fun b => (b.toNat : Int)) = values := by
      rw [List.map_map]
      conv => rhs; rw [← List.map_id values]
      apply List.map_congr_left
      intro v hv
      have hbyte := of_decide_eq_true (List.all_eq_true.1 hall v hv)
      have htoNat := toNat_ofInt_byte v
      simp only [Function.comp_apply, id_eq]
      omega
    have hwrite := run_writeMemory m r address (values.map UInt8.ofInt)
    rw [hvalues] at hwrite
    rw [hwrite, Memory.write, if_pos hall]
  · unfold writeMemory Memory.write
    rw [if_neg hall, if_neg hall]
    rfl

/-! ### The stack -/

/-- The slots of the stack are those in use and those left behind. -/
def Rest.Fits (r : Rest) (m : Machine) : Prop := m.stack.entries.length + r.stale.length = m.stack.depth

/-- An address is pushed into the first slot left behind. -/
theorem run_push (h : r.Fits m) (address : Int) :
    run (push address) (m.bare r) =
      match m.stack.push address with
      | .ok stack => (.ok (), { m with stack := stack }.bare { r with stale := r.stale.tail })
      | .error fault => (.error (.refused fault), m.bare r) := by
  unfold Rest.Fits at h
  unfold push ReturnStack.push
  rw [run_bind_of_ok (run_get _)]
  simp only [Machine.bare, List.length_append]
  by_cases hlen : m.stack.entries.length < m.stack.depth
  · rw [dif_pos hlen, if_neg (by omega)]
    by_cases hrange : 0 ≤ address ∧ address < 65536
    · have hslot : m.stack.entries.length < (m.stack.entries ++ r.stale).length := by
        rw [List.length_append]
        omega
      -- the depth leaves room, so there is a slot left behind that the address goes into
      obtain ⟨a, stale, hstale⟩ := List.exists_cons_of_length_pos (show 0 < r.stale.length by omega)
      rw [if_pos hrange, if_pos hrange, replace_of_lt 0 hslot, run_bind_of_ok (run_accept_ok _ _),
        run_bind_of_ok (run_modify _ _), run_modify]
      simp only [hstale, List.tail_cons, List.length_append, List.length_singleton, List.append_assoc,
        List.singleton_append, List.set_append_right _ _ (Nat.le_refl _), Nat.sub_self, List.set_cons_zero]
    · rw [if_neg hrange, if_neg hrange]
      rfl
  · rw [dif_neg hlen, if_pos (by omega)]
    rfl

private theorem element_youngest (axis : Nat) (older stale : List UInt16) (address : UInt16) :
    element axis (older ++ [address] ++ stale) (older.length : Int) = .ok address := by
  have hslot : older.length < (older ++ [address] ++ stale).length := by simp
  have hget : (older ++ [address] ++ stale)[older.length] = address := by simp
  rw [element_of_lt axis hslot, hget]

/-- The youngest address is popped, and its slot left behind. -/
theorem run_pop :
    run pop (m.bare r) =
      match m.stack.pop with
      | .ok (address, stack) =>
        (.ok (address.toNat : Int), { m with stack := stack }.bare { r with stale := address :: r.stale })
      | .error fault => (.error (.refused fault), m.bare r) := by
  unfold pop
  rw [run_bind_of_ok (run_get _)]
  rcases m.stack.entries.eq_nil_or_concat' with hnil | ⟨older, address, hconcat⟩
  · have htop : (m.bare r).top = 0 := by simp only [Machine.bare, hnil, List.length_nil]
    rw [if_pos htop, ReturnStack.pop_of_nil hnil]
    rfl
  · have htop : ¬ (m.bare r).top = 0 := by simp [Machine.bare, hconcat]
    obtain ⟨stack, hpop, hentries, hdepth⟩ := ReturnStack.pop_of_concat hconcat
    rw [if_neg htop, run_bind_of_ok (run_modify _ _), run_bind_of_ok (run_get _), hpop]
    simp only [Machine.bare, hconcat, List.length_append, List.length_singleton, Nat.add_sub_cancel]
    rw [element_youngest, run_bind_of_ok (run_accept_ok _ _), run_pure]
    simp only [hentries, List.append_assoc, List.singleton_append]

/-- The youngest address is read off its slot. -/
theorem run_peek :
    run peek (m.bare r) = (.ok (m.stack.entries.getLast?.map fun a => (a.toNat : Int)), m.bare r) := by
  unfold peek
  rw [run_bind_of_ok (run_get _)]
  rcases m.stack.entries.eq_nil_or_concat' with hnil | ⟨older, address, hconcat⟩
  · have htop : (m.bare r).top = 0 := by simp only [Machine.bare, hnil, List.length_nil]
    rw [if_pos htop, run_pure, hnil]
    rfl
  · have htop : ¬ (m.bare r).top = 0 := by simp [Machine.bare, hconcat]
    have hslots : (m.bare r).slots = older ++ [address] ++ r.stale := by simp only [Machine.bare, hconcat]
    have hindex : ((m.bare r).top - 1 : Int) = (older.length : Int) := by
      simp only [Machine.bare, hconcat, List.length_append, List.length_singleton]
      omega
    rw [if_neg htop, hindex, hslots, element_youngest, run_bind_of_ok (run_accept_ok _ _), run_pure, hconcat,
      List.getLast?_concat]
    rfl

/-! ### The screen -/

@[simp] theorem run_readPixel (x : Fin 64) (y : Fin 32) :
    run (readPixel (x.val : Int) (y.val : Int)) (m.bare r) = (.ok (m.screen.lit x y), m.bare r) := by
  unfold readPixel
  rw [run_bind_of_ok (run_get _), bare_pixels, element_ofFn, run_bind_of_ok (run_accept_ok _ _), element_flags,
    run_bind_of_ok (run_accept_ok _ _), run_pure, ite_ne_zero]

private theorem cells_paint (s : Screen) (x : Fin 64) (y : Fin 32) (on : Bool) :
    (s.paint x y on).cells = List.ofFn fun b : Fin 32 =>
      if b = y then flags fun a : Fin 64 => if a = x then on else s.lit a y
      else flags fun a : Fin 64 => s.lit a b := by
  unfold Screen.cells
  congr 1
  funext b
  by_cases hb : b = y
  · subst hb
    rw [if_pos rfl]
    congr 1
    funext a
    rw [Screen.lit_paint]
    simp only [and_true]
  · rw [if_neg hb]
    congr 1
    funext a
    rw [Screen.lit_paint, if_neg fun h => hb h.2]

@[simp] theorem run_writePixel (x : Fin 64) (y : Fin 32) (on : Bool) :
    run (writePixel (x.val : Int) (y.val : Int) on) (m.bare r) =
      (.ok (), { m with screen := m.screen.paint x y on }.bare r) := by
  unfold writePixel
  rw [run_bind_of_ok (run_get _), bare_pixels, element_ofFn, run_bind_of_ok (run_accept_ok _ _), replace_flags,
    run_bind_of_ok (run_accept_ok _ _), replace_ofFn, run_bind_of_ok (run_accept_ok _ _),
    run_bind_of_ok (run_modify _ _), run_modify, ← cells_paint]
  rfl

private theorem cells_clear (s : Screen) :
    s.clear.cells = List.ofFn fun _ : Fin 32 => flags fun _ : Fin 64 => false := by
  unfold Screen.cells
  congr 1
  funext y
  congr 1
  funext x
  simp [Screen.lit, Screen.clear, Screen.getMsb_eq, get_eq_getElem]

@[simp] theorem run_clearPixels :
    run clearPixels (m.bare r) = (.ok (), { m with screen := m.screen.clear }.bare r) := by
  have hcells : ((m.bare r).pixels.map fun row => row.map fun _ => 0) = m.screen.clear.cells := by
    rw [bare_pixels, List.map_ofFn, cells_clear]
    exact congrArg List.ofFn (funext fun y => map_zero_flags _)
  unfold clearPixels
  rw [run_bind_of_ok (run_modify _ _), run_modify, hcells]
  rfl

/-! ### Keys -/

@[simp] theorem run_keyDown (key : Int) :
    run (keyDown key) (m.bare r) = (.ok (m.keypad.isDown key), m.bare r) := by
  have hlow : key % 16 = ((Keypad.lowKey key).val : Int) := by
    simp only [Keypad.lowKey]
    omega
  unfold keyDown Keypad.isDown
  rw [run_bind_of_ok (run_get _), hlow, bare_keys, element_flags, run_bind_of_ok (run_accept_ok _ _), run_pure,
    ite_ne_zero]

private theorem cells_setAt (k : Keypad) (key : Fin 16) (on : Bool) :
    { k with down := setAt k.down key on }.cells = flags fun j => if j = key then on else k.down.get j := by
  unfold Keypad.cells
  simp only [get_setAt]

private theorem run_writeKey (key : Fin 16) (on : Bool) :
    run (do
        let keys ← accept (replace 0 (← get).keys (key.val : Int) (if on then 1 else 0))
        modify fun s => { s with keys := keys }) (m.bare r) =
      (.ok (), { m with keypad := { m.keypad with down := setAt m.keypad.down key on } }.bare r) := by
  rw [run_bind_of_ok (run_get _), bare_keys, replace_flags, run_bind_of_ok (run_accept_ok _ _), run_modify,
    ← cells_setAt]
  rfl

theorem run_pressKey (key : Fin 16) :
    run (pressKey (key.val : Int)) (m.bare r) =
      (.ok (), { m with keypad := m.keypad.pressKey key }.bare r) := by
  unfold pressKey
  rw [run_bind_of_ok (run_get _), bare_keys, element_flags, run_bind_of_ok (run_accept_ok _ _),
    run_bind_of_ok (run_get _), bare_pending]
  by_cases hnew : m.keypad.down.get key = false ∧ m.keypad.pending = none
  · obtain ⟨hup, hnone⟩ := hnew
    have hpress : m.keypad.pressKey key =
        { m.keypad with down := setAt m.keypad.down key true, pending := some (key.val : Int) } := by
      simp [Keypad.pressKey, hup, hnone]
    rw [if_pos ⟨by rw [hup]; rfl, hnone⟩, run_bind_of_ok (run_modify _ _), hpress]
    exact run_writeKey { m with keypad := { m.keypad with pending := some (key.val : Int) } } r key true
  · have hpress : m.keypad.pressKey key = { m.keypad with down := setAt m.keypad.down key true } := by
      cases hdown : m.keypad.down.get key with
      | true => simp [Keypad.pressKey, hdown]
      | false =>
        obtain ⟨first, hfirst⟩ := Option.ne_none_iff_exists'.1 fun hnone => hnew ⟨hdown, hnone⟩
        simp [Keypad.pressKey, hfirst]
    have hcond : ¬ ((if m.keypad.down.get key then 1 else 0) = 0 ∧ m.keypad.pending = none) := by
      rintro ⟨hzero, hnone⟩
      refine hnew ⟨?_, hnone⟩
      cases hdown : m.keypad.down.get key with
      | true => simp [hdown] at hzero
      | false => rfl
    rw [if_neg hcond, hpress]
    -- an earlier press, or the key itself being down, keeps the pending press as it was
    exact run_writeKey m r key true

theorem run_releaseKey (key : Fin 16) :
    run (releaseKey (key.val : Int)) (m.bare r) =
      (.ok (), { m with keypad := m.keypad.releaseKey key }.bare r) :=
  run_writeKey m r key false

@[simp] theorem run_takePress :
    run takePress (m.bare r) = (.ok m.keypad.pending, { m with keypad := m.keypad.take }.bare r) := rfl

@[simp] theorem run_resetKeys :
    run resetKeys (m.bare r) = (.ok (), { m with keypad := m.keypad.reset }.bare r) := by
  have hcells : ((m.bare r).keys.map fun _ => 0) = m.keypad.reset.cells := by
    rw [bare_keys, map_zero_flags]
    unfold Keypad.cells
    congr 1
    funext key
    simp [Keypad.reset, get_eq_getElem]
  unfold resetKeys
  rw [run_bind_of_ok (run_modify _ _), run_modify, hcells]
  rfl

/-! ### Timers -/

@[simp] theorem run_setDelay (value : Int) :
    run (setDelay value) (m.bare r) = (.ok (), { m with timers := m.timers.setDelay value }.bare r) := by
  unfold setDelay
  rw [run_modify, ← toNat_ofInt_byte]
  rfl

@[simp] theorem run_setSound (value : Int) :
    run (setSound value) (m.bare r) = (.ok (), { m with timers := m.timers.setSound value }.bare r) := by
  unfold setSound
  rw [run_modify, ← toNat_ofInt_byte]
  rfl

theorem toNat_countDown_of_pos {t : UInt8} (h : (t.toNat : Int) > 0) :
    ((Timers.countDown t).toNat : Int) = t.toNat - 1 := by
  have hne : t ≠ 0 := by
    rintro rfl
    exact absurd h (by decide)
  have hone : (1 : UInt8).toNat = 1 := rfl
  have hle : (1 : UInt8) ≤ t := UInt8.le_iff_toNat_le.2 (by omega)
  unfold Timers.countDown
  rw [if_neg hne, UInt8.toNat_sub_of_le _ _ hle]
  omega

theorem countDown_of_not_pos {t : UInt8} (h : ¬ (t.toNat : Int) > 0) : Timers.countDown t = t := by
  have hzero : t = 0 := UInt8.toNat_inj.1 (show t.toNat = 0 by omega)
  subst hzero
  rfl

theorem run_countDelay :
    run countDelay (m.bare r) =
      (.ok (), { m with timers := { m.timers with delay := Timers.countDown m.timers.delay } }.bare r) := by
  unfold countDelay
  rw [run_bind_of_ok (run_get _), bare_delay]
  by_cases h : (m.timers.delay.toNat : Int) > 0
  · rw [if_pos h, run_modify, bare_delay, ← toNat_countDown_of_pos h]
    rfl
  · rw [if_neg h, countDown_of_not_pos h]
    rfl

theorem run_countSound :
    run countSound (m.bare r) =
      (.ok (), { m with timers := { m.timers with sound := Timers.countDown m.timers.sound } }.bare r) := by
  unfold countSound
  rw [run_bind_of_ok (run_get _), bare_sound]
  by_cases h : (m.timers.sound.toNat : Int) > 0
  · rw [if_pos h, run_modify, bare_sound, ← toNat_countDown_of_pos h]
    rfl
  · rw [if_neg h, countDown_of_not_pos h]
    rfl

theorem run_tick : run tick (m.bare r) = (.ok (), m.tick.bare r) := by
  unfold tick
  rw [run_bind_of_ok (run_countDelay m r), run_countSound]
  rfl

end ChipEight.Micro
