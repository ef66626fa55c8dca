import ChipEight.Proofs.Results
import ChipEight.Proofs.Vectors
import ChipEight.Window.Keymap
import Mathlib.Data.List.Induction
import Mathlib.Data.List.Nodup

/-!
# Key maps of layouts

A key map is filled from a layout, entry by entry, and a later entry takes the place of an earlier one: so it holds for
a symbol the keypad key of the last entry whose label means it (`key?_foldlM_extend`), and it is refused for the first
label that means nothing (`ofLayout_error_iff`). Because a layout names each of its keys once, no two symbols stand for
the same key (`symbol_unique`). If the layout is `Usable`, there is a key map, and its keys are those of the keypad.

Which key of the keyboard has which name is left open: any partial map of names to symbols will do.
-/

namespace ChipEight

namespace Layout

/-- The keys of a layout are those of the keypad, and each of its labels means a key of the keyboard. -/
structure Usable (l : Layout) (names : String → Option Nat) : Prop where
  keys : ∀ e ∈ l.entries, 0 ≤ e.1 ∧ e.1 < 16
  labels : ∀ e ∈ l.entries, ∃ symbol, Keymap.meaning? names e.2 = some symbol

/-! ### The last entry -/

/-- The keypad key of the last entry whose label is one of these. -/
def last? (p : String → Prop) [DecidablePred p] (entries : List (Int × String)) : Option Int :=
  (entries.reverse.find? fun e => p e.2).map Prod.fst

/-- The entry is the first one whose label is one of these. -/
def IsFirst (p : String → Prop) (entries : List (Int × String)) (e : Int × String) : Prop :=
  ∃ earlier later, entries = earlier ++ e :: later ∧ p e.2 ∧ ∀ e' ∈ earlier, ¬ p e'.2

/-- The entry is the last one whose label is one of these. -/
def IsLast (p : String → Prop) (entries : List (Int × String)) (e : Int × String) : Prop :=
  ∃ earlier later, entries = earlier ++ e :: later ∧ p e.2 ∧ ∀ e' ∈ later, ¬ p e'.2

variable {p q : String → Prop} {entries : List (Int × String)} {e : Int × String}

theorem IsLast.mem (h : IsLast p entries e) : e ∈ entries := by
  obtain ⟨earlier, later, rfl, -, -⟩ := h
  exact List.mem_append_right earlier List.mem_cons_self

theorem IsLast.label (h : IsLast p entries e) : p e.2 := by
  obtain ⟨-, -, -, hlabel, -⟩ := h
  exact hlabel

/-- The last entry is the first one from the other end. -/
theorem isFirst_reverse : IsFirst p entries.reverse e ↔ IsLast p entries e := by
  constructor
  · rintro ⟨later, earlier, heq, hlabel, hlater⟩
    have hentries := congrArg List.reverse heq
    rw [List.reverse_reverse, List.reverse_append, List.reverse_cons, List.append_assoc] at hentries
    exact ⟨earlier.reverse, later.reverse, hentries, hlabel, fun e he => hlater e (List.mem_reverse.1 he)⟩
  · rintro ⟨earlier, later, rfl, hlabel, hlater⟩
    refine ⟨later.reverse, earlier.reverse, ?_, hlabel, fun e he => hlater e (List.mem_reverse.1 he)⟩
    rw [List.reverse_append, List.reverse_cons, List.append_assoc]
    rfl

variable [DecidablePred p] [DecidablePred q]

theorem find?_eq_some_iff : (entries.find? fun e => p e.2) = some e ↔ IsFirst p entries e := by
  simp only [List.find?_eq_some_iff_append, decide_eq_true_eq, Bool.not_eq_true', decide_eq_false_iff_not]
  constructor
  · rintro ⟨hlabel, earlier, later, heq, hearlier⟩
    exact ⟨earlier, later, heq, hlabel, hearlier⟩
  · rintro ⟨earlier, later, heq, hlabel, hearlier⟩
    exact ⟨hlabel, earlier, later, heq, hearlier⟩

theorem last?_concat (e : Int × String) :
    last? p (entries ++ [e]) = if p e.2 then some e.1 else last? p entries := by
  unfold last?
  rw [List.reverse_concat, List.find?_cons]
  by_cases h : p e.2 <;> simp [h]

theorem last?_eq_some_iff {key : Int} : last? p entries = some key ↔ ∃ label, IsLast p entries (key, label) := by
  unfold last?
  simp only [Option.map_eq_some_iff, find?_eq_some_iff, isFirst_reverse]
  constructor
  · rintro ⟨⟨k, label⟩, hlast, rfl⟩
    exact ⟨label, hlast⟩
  · rintro ⟨label, hlast⟩
    exact ⟨(key, label), hlast, rfl⟩

/-- The entries of a layout have different keys. -/
theorem label_unique {l : Layout} {key : Int} {label label' : String} (h : (key, label) ∈ l.entries)
    (h' : (key, label') ∈ l.entries) : label = label' :=
  congrArg Prod.snd (List.inj_on_of_nodup_map l.nodup_keys h h' rfl)

end Layout

open Layout

namespace Keymap

/-! ### Entries -/

theorem lookup_insertEntry (symbol other : Nat) (key : Int) (entries : List (Nat × Int)) :
    (insertEntry symbol key entries).lookup other = if other = symbol then some key else entries.lookup other := by
  induction entries with
  | nil => exact lookup_cons_ite other symbol key []
  | cons e rest ih =>
    obtain ⟨s, k⟩ := e
    unfold insertEntry
    dsimp only
    split
    · exact lookup_cons_ite other symbol key _
    · split
      · rename_i hsame
        -- the entry for the symbol is the one that is replaced
        subst hsame
        rw [lookup_cons_ite, lookup_cons_ite]
        by_cases h : other = symbol
        · rw [if_pos h, if_pos h]
        · rw [if_neg h, if_neg h, if_neg h]
      · rename_i hne
        rw [lookup_cons_ite, lookup_cons_ite, ih]
        by_cases h : other = s
        · have hother : other ≠ symbol := fun he => hne (he.symm.trans h)
          rw [if_pos h, if_pos h, if_neg hother]
        · rw [if_neg h, if_neg h]

theorem key?_insert (m : Keymap) (symbol other : Nat) (key : Int) :
    (m.insert symbol key).key? other = if other = symbol then some key else m.key? other :=
  lookup_insertEntry symbol other key m.entries

variable {names : String → Option Nat}

theorem extend_of_some {e : Int × String} {symbol : Nat} (h : meaning? names e.2 = some symbol) (m : Keymap) :
    m.extend names e = .ok (m.insert symbol e.1) := by
  rw [extend, resolve, h]
  rfl

theorem extend_of_none {e : Int × String} (h : meaning? names e.2 = none) (m : Keymap) :
    m.extend names e = .error (.unknownKey (Keyboard.nameOfLabel e.2)) := by
  rw [extend, resolve, h]
  rfl

theorem extend_eq_ok {m m' : Keymap} {e : Int × String} (h : m.extend names e = .ok m') :
    ∃ symbol, meaning? names e.2 = some symbol ∧ m' = m.insert symbol e.1 := by
  cases hmeans : meaning? names e.2 with
  | none =>
    rw [extend_of_none hmeans] at h
    cases h
  | some symbol =>
    rw [extend_of_some hmeans] at h
    exact ⟨symbol, rfl, (Except.ok.inj h).symm⟩

/-- The first label that means nothing is refused. -/
theorem foldlM_extend_error {entries : List (Int × String)} {m : Keymap} {fault : Fault} :
    entries.foldlM (extend names) m = .error fault ↔
      ∃ e, (entries.find? fun e => meaning? names e.2 = none) = some e ∧
        fault = .unknownKey (Keyboard.nameOfLabel e.2) := by
  induction entries generalizing m with
  | nil => exact iff_of_false nofun (by simp)
  | cons e entries ih =>
    rw [List.foldlM_cons, List.find?_cons]
    cases hmeans : meaning? names e.2 with
    | none =>
      rw [extend_of_none hmeans]
      constructor
      · intro h
        exact ⟨e, rfl, (Except.error.inj h).symm⟩
      · rintro ⟨first, hfirst, rfl⟩
        cases hfirst
        rfl
    | some symbol =>
      rw [extend_of_some hmeans]
      exact ih

/-- A key map that is filled has for each symbol the keypad key of the last entry that means it. -/
theorem key?_foldlM_extend {entries : List (Int × String)} {m : Keymap}
    (h : entries.foldlM (extend names) empty = .ok m) (symbol : Nat) :
    m.key? symbol = last? (fun label => meaning? names label = some symbol) entries := by
  induction entries using List.reverseRecOn generalizing m with
  | nil =>
    cases h
    rfl
  | append_singleton entries e ih =>
    obtain ⟨before, hbefore, hlast⟩ := Except.foldlM_concat_eq_ok h
    obtain ⟨means, hmeans, rfl⟩ := extend_eq_ok hlast
    rw [last?_concat, ← ih hbefore, key?_insert, hmeans]
    exact if_congr (by rw [Option.some_inj, eq_comm]) rfl rfl

theorem ofLayout_refused_iff {l : Layout} :
    (∃ fault, ofLayout l names = .error fault) ↔ ∃ e ∈ l.entries, meaning? names e.2 = none := by
  have hfirst : (∃ fault, ofLayout l names = .error fault) ↔
      (l.entries.find? fun e => meaning? names e.2 = none).isSome := by
    simp only [ofLayout, foldlM_extend_error, Option.isSome_iff_exists]
    rw [exists_comm]
    exact exists_congr fun e => by simp
  rw [hfirst, List.find?_isSome]
  simp only [decide_eq_true_eq]

/-! ### Usable layouts -/

theorem standard_usable : Layout.standard.Usable Keyboard.usual.symbol? := by
  have hmeans : ∀ e ∈ Layout.standard.entries, (meaning? Keyboard.usual.symbol? e.2).isSome = true := by
    decide +kernel
  exact ⟨by decide, fun e he => Option.isSome_iff_exists.1 (hmeans e he)⟩

theorem ofLayout_of_usable {l : Layout} (h : l.Usable names) : ∃ m, ofLayout l names = .ok m := by
  cases hmap : ofLayout l names with
  | ok m => exact ⟨m, rfl⟩
  | error fault =>
    -- the label that is refused would have a meaning
    obtain ⟨e, he, hnone⟩ := ofLayout_refused_iff.1 ⟨fault, hmap⟩
    obtain ⟨symbol, hsome⟩ := h.labels e he
    rw [hnone] at hsome
    cases hsome

/-- The names are those of the keyboard at hand. -/
example :
    ofLayout ⟨[(0, "COMMA"), (7, "1")], by decide⟩ (fun name => [("COMMA", 0x2C), ("_1", 0x31)].lookup name) =
      .ok ⟨[(0x2C, 0), (0x31, 7)]⟩ := by
  decide +kernel

/-- A symbol stands for a key only if the layout gives that key a label which means the symbol. -/
theorem key?_ofLayout {l : Layout} {m : Keymap} (h : ofLayout l names = .ok m) {symbol : Nat} {key : Int}
    (hkey : m.key? symbol = some key) : ∃ label, (key, label) ∈ l.entries ∧ meaning? names label = some symbol := by
  rw [key?_foldlM_extend h] at hkey
  obtain ⟨label, hlast⟩ := last?_eq_some_iff.1 hkey
  exact ⟨label, hlast.mem, hlast.label⟩

theorem symbol_unique {l : Layout} {m : Keymap} (h : ofLayout l names = .ok m) {symbol symbol' : Nat} {key : Int}
    (hkey : m.key? symbol = some key) (hkey' : m.key? symbol' = some key) : symbol = symbol' := by
  obtain ⟨label, hmem, hmeans⟩ := key?_ofLayout h hkey
  obtain ⟨label', hmem', hmeans'⟩ := key?_ofLayout h hkey'
  rw [label_unique hmem hmem', hmeans'] at hmeans
  exact (Option.some.inj hmeans).symm

theorem key_bounds {l : Layout} (hl : l.Usable names) {m : Keymap} (h : ofLayout l names = .ok m) {symbol : Nat}
    {key : Int} (hkey : m.key? symbol = some key) : 0 ≤ key ∧ key < 16 := by
  obtain ⟨label, hmem, -⟩ := key?_ofLayout h hkey
  exact hl.keys _ hmem

end Keymap

end ChipEight
