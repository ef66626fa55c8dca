/-!
# Keypad layouts

Which physical key stands for which key of the hexadecimal keypad: a table from keypad keys to labels in order of
arrival. A second label for the same keypad key replaces the first one in its place (`put`).
-/

namespace ChipEight

/-- Labels by keypad key, each key once. -/
structure Layout where
  entries : List (Int × String)
  nodup_keys : (entries.map Prod.fst).Nodup
deriving DecidableEq

namespace Layout

/-- The layout without keys. -/
def empty : Layout := ⟨[], List.nodup_nil⟩

/-- The entry for a keypad key is replaced by another one for the same key. -/
def relabel (key : Int) (label : String) (e : Int × String) : Int × String :=
  if e.1 = key then (key, label) else e

private theorem map_fst_relabel (key : Int) (label : String) (entries : List (Int × String)) :
    (entries.map (relabel key label)).map Prod.fst = entries.map Prod.fst := by
  rw [List.map_map]
  apply List.map_congr_left
  intro e _
  by_cases h : e.1 = key <;> simp [relabel, h]

/-- Gives a label to a keypad key. -/
def put (l : Layout) (key : Int) (label : String) : Layout :=
  if h : key ∈ l.entries.map Prod.fst then
    ⟨l.entries.map (relabel key label), by rw [map_fst_relabel]; exact l.nodup_keys⟩
  else
    ⟨l.entries ++ [(key, label)], by
      rw [List.map_append, List.nodup_append]
      refine ⟨l.nodup_keys, by simp, ?_⟩
      intro a ha b hb hab
      simp only [List.map_cons, List.map_nil, List.mem_singleton] at hb
      exact h (by rwa [← hb, ← hab])⟩

/-- The layout of a list of labels, put one after the other. -/
def ofList (entries : List (Int × String)) : Layout :=
  entries.foldl (fun l e => l.put e.1 e.2) empty

/-- The label of a keypad key. -/
def label? (l : Layout) (key : Int) : Option String := l.entries.lookup key

/-- The keypad key with a label, the last one if there are several. -/
def key? (l : Layout) (label : String) : Option Int :=
  (l.entries.reverse.find? fun e => e.2 = label).map Prod.fst

/-- The sixteen keys on the left side of a keyboard, in their square. -/
def standard : Layout where
  entries :=
    [(0x1, "1"), (0x2, "2"), (0x3, "3"), (0xC, "4"),
     (0x4, "Q"), (0x5, "W"), (0x6, "E"), (0xD, "R"),
     (0x7, "A"), (0x8, "S"), (0x9, "D"), (0xE, "F"),
     (0xA, "Z"), (0x0, "X"), (0xB, "C"), (0xF, "V")]
  nodup_keys := by decide

end Layout

end ChipEight
