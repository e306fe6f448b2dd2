/-!
# Texts as lists of characters

Every text the library reads or writes is a list of characters, so that the
functions on it recurse on its structure. The readers share two operations:
cutting a text at the first separator, and dropping one optional mark.
-/
namespace FractionDrill

abbrev Text := List Char

instance : Hashable Text := ⟨fun t => hash (String.ofList t)⟩

namespace Text

/-- The parts on either side of the first `mark`, which belongs to neither. -/
def cut (mark : Char) : Text → Option (Text × Text)
  | [] => none
  | c :: rest =>
      if c = mark then some ([], rest)
      else (cut mark rest).map fun parts => (c :: parts.1, parts.2)

/-- The text without its first character where that character is `mark`. -/
def dropMark (mark : Char) : Text → Text
  | [] => []
  | c :: rest => if c = mark then rest else c :: rest

/-- A mark is dropped once, and a text that does not start with it is left as it is. -/
theorem dropMark_eq_iff {mark : Char} {s t : Text} :
    dropMark mark s = t ↔ s = mark :: t ∨ s = t ∧ t.head? ≠ some mark := by
  cases s with
  | nil => grind [dropMark]
  | cons c rest => by_cases hc : c = mark <;> grind [dropMark]

theorem cut_eq_some {mark : Char} {s before after : Text}
    (h : cut mark s = some (before, after)) : s = before ++ mark :: after := by
  induction s generalizing before with
  | nil => simp [cut] at h
  | cons c rest ih =>
    by_cases hc : c = mark
    · simp only [cut, hc, if_pos, Option.some.injEq, Prod.mk.injEq] at h
      simp [← h.1, ← h.2, hc]
    · simp only [cut, hc, if_false, Option.map_eq_some_iff, Prod.mk.injEq] at h
      obtain ⟨⟨b, a⟩, hcut, rfl, rfl⟩ := h
      simp [ih hcut]

theorem cut_append {mark : Char} {before : Text} (h : mark ∉ before) (after : Text) :
    cut mark (before ++ mark :: after) = some (before, after) := by
  induction before with
  | nil => simp [cut]
  | cons c rest ih =>
    have hc : c ≠ mark := fun hc => h (hc ▸ List.mem_cons_self)
    have hrest : mark ∉ rest := fun hmem => h (List.mem_cons_of_mem c hmem)
    simp only [List.cons_append, cut, hc, if_false, ih hrest, Option.map_some]

theorem cut_eq_none {mark : Char} {s : Text} (h : mark ∉ s) : cut mark s = none := by
  induction s with
  | nil => rfl
  | cons c rest ih =>
    have hc : c ≠ mark := fun hc => h (hc ▸ List.mem_cons_self)
    have hrest : mark ∉ rest := fun hmem => h (List.mem_cons_of_mem c hmem)
    simp only [cut, hc, if_false, ih hrest, Option.map_none]

theorem cut_eq_some_iff {mark : Char} {s before after : Text} :
    cut mark s = some (before, after) ↔ s = before ++ mark :: after ∧ mark ∉ before := by
  constructor
  · intro h
    have hmem : mark ∈ s := by simp [cut_eq_some h]
    obtain ⟨front, rest, hs, hfront⟩ := List.eq_append_cons_of_mem hmem
    rw [hs, cut_append hfront] at h
    cases h
    exact ⟨hs, hfront⟩
  · rintro ⟨rfl, h⟩
    exact cut_append h after

theorem cut_eq_none_iff {mark : Char} {s : Text} : cut mark s = none ↔ mark ∉ s := by
  constructor
  · intro h hmem
    obtain ⟨front, rest, rfl, hfront⟩ := List.eq_append_cons_of_mem hmem
    rw [cut_append hfront] at h
    cases h
  · exact cut_eq_none

theorem length_of_cut {mark : Char} {s before after : Text}
    (h : cut mark s = some (before, after)) : after.length < s.length := by
  rw [cut_eq_some h]
  simp
  omega

end Text
end FractionDrill
