import FractionDrill.Proofs.Expr.Rendering
import FractionDrill.Sheet.Numbered
import Mathlib.Data.List.DropRight
import Mathlib.Data.List.Forall2

/-!
# Lines that carry an entry

A line carries an entry if a numeral stands alone before its first dot, blanks and one
plus sign apart. A line that is neither blank nor carries an entry is unnumbered, and a
list of lines is refused for the first unnumbered line in it; otherwise every line that
is not blank gives its entry.
-/
namespace FractionDrill
open Text

namespace Text

/-- Trimming takes blanks from both sides and nothing else. -/
theorem exists_blanks_of_trim (s : Text) :
    ∃ before after, s = before ++ trim s ++ after ∧ (∀ c ∈ before, isBlank c = true) ∧
      ∀ c ∈ after, isBlank c = true := by
  refine ⟨s.takeWhile isBlank, (trimStart s).rtakeWhile isBlank, ?_, ?_, ?_⟩
  · have hend : trim s ++ (trimStart s).rtakeWhile isBlank = trimStart s :=
      List.rdropWhile_append_rtakeWhile
    rw [List.append_assoc, hend, trimStart, List.takeWhile_append_dropWhile]
  · exact fun c hc => List.mem_takeWhile_imp hc
  · exact fun c hc => List.mem_rtakeWhile_imp hc

theorem trim_between {s before after : Text} (h : Inked s)
    (hbefore : ∀ c ∈ before, isBlank c = true) (hafter : ∀ c ∈ after, isBlank c = true) :
    trim (before ++ s ++ after) = s := by
  have hstart : trimStart (before ++ s ++ after) = trimStart (s ++ after) := by
    rw [List.append_assoc]
    exact List.dropWhile_append_of_pos hbefore
  rw [trim, hstart]
  exact trim_append h hafter

theorem dropMark_numeral (n : Numeral) : dropMark '+' n.val = n.val := by
  obtain ⟨c, rest, hcons, hdigit⟩ := n.exists_cons
  have hc : c ≠ '+' := by
    rintro rfl
    cases hdigit
  rw [hcons, dropMark, if_neg hc]

/-- What is read as the number `k` is a numeral, after a plus sign or on its own. -/
theorem natural?_eq_some_iff {most k : Nat} {s : Text} :
    natural? most s = some k ↔
      ∃ (sign : Text) (n : Numeral), s = sign ++ n.val ∧ (sign = [] ∨ sign = ['+']) ∧
        n.value = k ∧ k ≤ most := by
  constructor
  · intro h
    rw [natural?] at h
    split at h
    · rename_i hdigits
      rw [Bool.and_eq_true, decide_eq_true_iff] at hdigits
      cases h
      rcases dropMark_eq_iff.mp (Eq.refl (dropMark '+' s)) with hs | ⟨hs, -⟩
      · exact ⟨['+'], ⟨_, hdigits.1⟩, hs, .inr rfl, rfl, hdigits.2⟩
      · exact ⟨[], ⟨_, hdigits.1⟩, hs, .inl rfl, rfl, hdigits.2⟩
    · cases h
  · rintro ⟨sign, n, rfl, hsign, rfl, hle⟩
    have hdigits : dropMark '+' (sign ++ n.val) = n.val := by
      rcases hsign with rfl | rfl
      · exact dropMark_numeral n
      · rfl
    have hvalue : numeralValue n.val ≤ most := hle
    simp [natural?, hdigits, n.property, hvalue, Numeral.value]

end Text

namespace Sheet

/-- A numeral between blanks, with or without a plus sign, that stands for the number `k`. -/
def Numbers (head : Text) (k : Nat) : Prop :=
  ∃ (before sign after : Text) (n : Numeral), head = before ++ (sign ++ n.val) ++ after ∧
    (∀ c ∈ before, isBlank c = true) ∧ (∀ c ∈ after, isBlank c = true) ∧
    (sign = [] ∨ sign = ['+']) ∧ n.value = k

/-- A line with the number of the entry before its first dot, and the text of the entry
behind it, after a space or else at once. -/
def Carries (line : Text) (entry : Entry) : Prop :=
  ∃ head rest, line = head ++ '.' :: rest ∧ '.' ∉ head ∧ Numbers head entry.1 ∧
    1 ≤ entry.1 ∧ entry.1 ≤ maxNumber ∧
    (rest = ' ' :: entry.2 ∨ rest = entry.2 ∧ entry.2.head? ≠ some ' ')

/-- A line that is neither blank nor has a number. -/
def IsUnnumbered (line : Text) : Prop :=
  line.all isBlank = false ∧ ¬∃ entry, Carries line entry

variable {line : Text} {entry : Entry}

theorem inked_signed {sign : Text} (hsign : sign = [] ∨ sign = ['+']) (n : Numeral) :
    Inked (sign ++ n.val) := by
  obtain ⟨c, rest, hn, -⟩ := n.exists_cons
  apply inked_of_forall
  · simp [hn]
  · intro d hd
    rcases List.mem_append.mp hd with hd | hd
    · rcases hsign with rfl | rfl
      · cases hd
      · rw [List.mem_singleton.mp hd]
        exact ⟨rfl, by decide⟩
    · exact isInk_of_isDigit (n.isDigit hd)

theorem natural?_trim_eq_some_iff {head : Text} {k : Nat} :
    natural? maxNumber (trim head) = some k ↔ Numbers head k ∧ k ≤ maxNumber := by
  rw [natural?_eq_some_iff]
  constructor
  · rintro ⟨sign, n, htrim, hsign, hvalue, hle⟩
    obtain ⟨before, after, hhead, hbefore, hafter⟩ := exists_blanks_of_trim head
    exact ⟨⟨before, sign, after, n, htrim ▸ hhead, hbefore, hafter, hsign, hvalue⟩, hle⟩
  · rintro ⟨⟨before, sign, after, n, rfl, hbefore, hafter, hsign, hvalue⟩, hle⟩
    exact ⟨sign, n, trim_between (inked_signed hsign n) hbefore hafter, hsign, hvalue, hle⟩

/-- A line is divided into the entry that it carries, if it carries one. -/
theorem entry?_eq_some_iff : entry? line = some entry ↔ Carries line entry := by
  constructor
  · intro h
    unfold entry? at h
    simp only [Option.bind_eq_bind, Option.bind_eq_some_iff] at h
    obtain ⟨⟨head, rest⟩, hcut, k, hk, h⟩ := h
    split at h
    · cases h
    · rename_i hzero
      cases h
      obtain ⟨hline, hdot⟩ := cut_eq_some_iff.mp hcut
      obtain ⟨hnumbers, hle⟩ := natural?_trim_eq_some_iff.mp hk
      exact ⟨head, rest, hline, hdot, hnumbers, Nat.one_le_iff_ne_zero.mpr hzero, hle,
        dropMark_eq_iff.mp rfl⟩
  · rintro ⟨head, rest, rfl, hdot, hnumbers, hpos, hle, hrest⟩
    have hk : natural? maxNumber (trim head) = some entry.1 :=
      natural?_trim_eq_some_iff.mpr ⟨hnumbers, hle⟩
    have hzero : entry.1 ≠ 0 := Nat.one_le_iff_ne_zero.mp hpos
    have htext : dropMark ' ' rest = entry.2 := dropMark_eq_iff.mpr hrest
    unfold entry?
    simp [cut_append hdot, hk, hzero, htext]

/-- A line that carries an entry has the digits of its number in it. -/
theorem Carries.not_blank (h : Carries line entry) : line.all isBlank = false := by
  obtain ⟨head, rest, rfl, -, ⟨before, sign, after, n, rfl, -⟩, -⟩ := h
  obtain ⟨c, digits, hn, hdigit⟩ := n.exists_cons
  have hc : isBlank c = false := (isInk_of_isDigit hdigit).1
  simp [hn, hc]

/-- What follows the first dot of a line is the text of its entry, but for a space. -/
theorem Carries.suffix (h : Carries line entry) : entry.2 <:+ line := by
  obtain ⟨head, rest, rfl, -, -, -, -, hrest⟩ := h
  rcases hrest with rfl | ⟨rfl, -⟩
  · exact ⟨head ++ ['.', ' '], by simp⟩
  · exact ⟨head ++ ['.'], by simp⟩

theorem Carries.number_le (h : Carries line entry) : entry.1 ≤ maxNumber := by
  obtain ⟨_, _, -, -, -, -, hle, -⟩ := h
  exact hle

/-- A line has one entry at most. -/
theorem Carries.unique {other : Entry} (h : Carries line entry) (hother : Carries line other) :
    entry = other := by
  rw [← entry?_eq_some_iff] at h hother
  exact Option.some.inj (h.symm.trans hother)

theorem entry?_eq_none_iff : entry? line = none ↔ ¬∃ entry, Carries line entry := by
  simp [Option.eq_none_iff_forall_ne_some, entry?_eq_some_iff]

/-- The first unnumbered line of a list, with its place, where all lines before it count. -/
def IsFirstUnnumbered (lines : List Text) (failure : Unnumbered) : Prop :=
  ∃ before after, lines = before ++ failure.line :: after ∧
    failure.place = before.length + 1 ∧ IsUnnumbered failure.line ∧
    ∀ line ∈ before, ¬IsUnnumbered line

theorem exists_of_forall₂ {α β : Type} {R : α → β → Prop} {l₁ : List α} {l₂ : List β} {b : β}
    (h : List.Forall₂ R l₁ l₂) (hmem : b ∈ l₂) : ∃ a ∈ l₁, R a b := by
  induction h with
  | nil => cases hmem
  | cons hfirst _ ih =>
    rcases List.mem_cons.mp hmem with rfl | hmem
    · exact ⟨_, List.mem_cons_self, hfirst⟩
    · obtain ⟨a, ha, hrel⟩ := ih hmem
      exact ⟨a, List.mem_cons_of_mem _ ha, hrel⟩

section Lists
variable {k : Nat} {lines before after : List Text}

theorem entriesFrom_blank (h : line.all isBlank = true) :
    entriesFrom k (line :: lines) = entriesFrom (k + 1) lines := by
  rw [entriesFrom, if_pos h]

theorem entriesFrom_carries (h : Carries line entry) :
    entriesFrom k (line :: lines) = (entriesFrom (k + 1) lines).map (entry :: ·) := by
  rw [entriesFrom, h.not_blank, if_neg Bool.false_ne_true, entry?_eq_some_iff.mpr h]
  cases entriesFrom (k + 1) lines <;> rfl

theorem entriesFrom_unnumbered (h : IsUnnumbered line) :
    entriesFrom k (line :: lines) = .error ⟨k, line⟩ := by
  rw [entriesFrom, h.1, if_neg Bool.false_ne_true, entry?_eq_none_iff.mpr h.2]

theorem blank_or_carries (h : ¬IsUnnumbered line) :
    line.all isBlank = true ∨ ∃ entry, Carries line entry := by
  cases hblank : line.all isBlank with
  | true => exact .inl rfl
  | false => exact .inr (not_not.mp fun hnone => h ⟨hblank, hnone⟩)

/-- The entries of a list of lines are those that its lines carry, blank lines apart. -/
theorem entriesFrom_eq_ok_iff {entries : List Entry} :
    entriesFrom k lines = .ok entries ↔
      List.Forall₂ Carries (lines.filter fun line => !line.all isBlank) entries := by
  induction lines generalizing k entries with
  | nil => simp [entriesFrom, eq_comm]
  | cons line rest ih =>
    by_cases hline : IsUnnumbered line
    · rw [entriesFrom_unnumbered hline, List.filter_cons_of_pos (by simp [hline.1]),
        List.forall₂_cons_left_iff]
      constructor
      · exact nofun
      · rintro ⟨entry, later, hentry, -⟩
        exact absurd ⟨entry, hentry⟩ hline.2
    · rcases blank_or_carries hline with hblank | ⟨entry, hentry⟩
      · rw [entriesFrom_blank hblank, List.filter_cons_of_neg (by simp [hblank])]
        exact ih
      · rw [entriesFrom_carries hentry, List.filter_cons_of_pos (by simp [hentry.not_blank]),
          List.forall₂_cons_left_iff]
        constructor
        · intro h
          obtain ⟨later, hlater, rfl⟩ := Fault.map_eq_ok_iff.mp h
          exact ⟨entry, later, hentry, ih.mp hlater, rfl⟩
        · rintro ⟨other, later, hother, hlater, rfl⟩
          rw [ih.mpr hlater, hentry.unique hother]
          rfl

/-- Every entry that is read is carried by one of the lines. -/
theorem exists_line_of_mem_entries {entries : List Entry}
    (h : entriesFrom k lines = .ok entries) (hmem : entry ∈ entries) :
    ∃ line ∈ lines, Carries line entry := by
  obtain ⟨line, hline, hentry⟩ := exists_of_forall₂ (entriesFrom_eq_ok_iff.mp h) hmem
  exact ⟨line, List.mem_of_mem_filter hline, hentry⟩

/-- Lines up to an unnumbered one are read, and then the list is refused. -/
theorem entriesFrom_append_unnumbered (hbefore : ∀ line ∈ before, ¬IsUnnumbered line)
    (hline : IsUnnumbered line) :
    entriesFrom k (before ++ line :: after) = .error ⟨k + before.length, line⟩ := by
  induction before generalizing k with
  | nil => exact entriesFrom_unnumbered hline
  | cons first rest ih =>
    have hrest : entriesFrom (k + 1) (rest ++ line :: after) =
        .error ⟨k + (first :: rest).length, line⟩ := by
      rw [ih fun l hl => hbefore l (List.mem_cons_of_mem first hl), List.length_cons]
      simp only [Except.error.injEq, Unnumbered.mk.injEq, and_true]
      omega
    rcases blank_or_carries (hbefore first List.mem_cons_self) with hblank | ⟨entry, hentry⟩
    · rw [List.cons_append, entriesFrom_blank hblank, hrest]
    · rw [List.cons_append, entriesFrom_carries hentry, hrest]
      rfl

theorem exists_entries (h : ∀ line ∈ lines, ¬IsUnnumbered line) :
    ∃ entries, entriesFrom k lines = .ok entries := by
  induction lines generalizing k with
  | nil => exact ⟨[], rfl⟩
  | cons line rest ih =>
    obtain ⟨later, hlater⟩ := ih (k := k + 1) fun l hl => h l (List.mem_cons_of_mem line hl)
    rcases blank_or_carries (h line List.mem_cons_self) with hblank | ⟨entry, hentry⟩
    · exact ⟨later, by rw [entriesFrom_blank hblank, hlater]⟩
    · exact ⟨entry :: later, by rw [entriesFrom_carries hentry, hlater]; rfl⟩

theorem exists_first_unnumbered (h : ∃ line ∈ lines, IsUnnumbered line) :
    ∃ failure, IsFirstUnnumbered lines failure := by
  induction lines with
  | nil => simp at h
  | cons line rest ih =>
    by_cases hline : IsUnnumbered line
    · exact ⟨⟨1, line⟩, [], rest, rfl, rfl, hline, by simp⟩
    · have hrest : ∃ l ∈ rest, IsUnnumbered l := by simpa [hline] using h
      obtain ⟨failure, before, after, rfl, hplace, hfailure, hbefore⟩ := ih hrest
      refine ⟨⟨failure.place + 1, failure.line⟩, line :: before, after, rfl, ?_, hfailure, ?_⟩
      · rw [hplace, List.length_cons]
      · simpa [hline] using hbefore

/-- A list of lines is refused for the first unnumbered line in it, and for no other. -/
theorem entriesFrom_eq_error_iff {failure : Unnumbered} :
    entriesFrom 1 lines = .error failure ↔ IsFirstUnnumbered lines failure := by
  have hfirst : ∀ {failure}, IsFirstUnnumbered lines failure →
      entriesFrom 1 lines = .error failure := by
    rintro ⟨place, line⟩ ⟨before, after, rfl, rfl, hline, hbefore⟩
    rw [entriesFrom_append_unnumbered hbefore hline, Nat.add_comm]
  constructor
  · intro h
    -- the failure is that of the first unnumbered line, as a list has one outcome only
    by_cases hsome : ∃ line ∈ lines, IsUnnumbered line
    · obtain ⟨found, hfound⟩ := exists_first_unnumbered hsome
      rw [hfirst hfound] at h
      exact Except.error.inj h ▸ hfound
    · obtain ⟨entries, hentries⟩ :=
        exists_entries (k := 1) fun line hline hbad => hsome ⟨line, hline, hbad⟩
      rw [hentries] at h
      cases h
  · exact hfirst

/-- Whether a list of lines is refused at all. -/
theorem entriesFrom_fails_iff :
    (∃ failure, entriesFrom 1 lines = .error failure) ↔ ∃ line ∈ lines, IsUnnumbered line := by
  constructor
  · rintro ⟨failure, h⟩
    obtain ⟨before, after, rfl, -, hline, -⟩ := entriesFrom_eq_error_iff.mp h
    exact ⟨failure.line, by simp, hline⟩
  · intro h
    obtain ⟨failure, hfailure⟩ := exists_first_unnumbered h
    exact ⟨failure, entriesFrom_eq_error_iff.mpr hfailure⟩

end Lists

end Sheet
end FractionDrill
