import FractionDrill.Proofs.Run.Machine
import FractionDrill.Proofs.Sheet.Entry

/-!
# Written sheets read back

A text fits on a line if it has no line feed and does not end in a carriage
return. The reader splits lines, skips blank ones and a mark at the start, cuts
at the first dot, trims the number and drops one space; on a written sheet each
of these stops at the text of the entry, which may be empty and may itself have
dots, spaces, digits or marks. So a sheet of texts that fit on lines reads back
as these texts with their numbers, from a text and from a file, and no other
texts do.
-/
namespace FractionDrill
open Text

namespace Text

theorem natural_eq_cons (k : Nat) :
    ∃ c rest, natural k = c :: rest ∧ c.isDigit = true :=
  (Numeral.ofNat k).exists_cons

theorem not_mem_natural (k : Nat) {mark : Char} (h : mark.isDigit = false) : mark ∉ natural k :=
  (Numeral.ofNat k).not_mem h

end Text

namespace Sheet

/-- A text that can be the text of a line. -/
structure FitsLine (t : Text) : Prop where
  noFeed : '\n' ∉ t
  noReturn : t.getLast? ≠ some '\r'

/-- The line of an entry, without its line feed. -/
def entryLine (k : Nat) (t : Text) : Text := natural k ++ '.' :: ' ' :: t

theorem writeFrom_cons (k : Nat) (t : Text) (rest : List Text) :
    writeFrom k (t :: rest) = entryLine k t ++ '\n' :: writeFrom (k + 1) rest := by
  rw [writeFrom, entryLine]

theorem lines_append {line : Text} (h : '\n' ∉ line) (rest : Text) :
    lines (line ++ '\n' :: rest) = dropReturn line :: lines rest := by
  have hcut : cut '\n' (line ++ '\n' :: rest) = some (line, rest) := cut_append h rest
  rw [lines, if_neg (by simp)]
  split
  · rename_i hnone
    rw [hcut] at hnone
    cases hnone
  · rename_i first after hsome
    rw [hcut] at hsome
    cases hsome
    rfl

theorem lines_of_noFeed {line : Text} (h : '\n' ∉ line) :
    lines line = if line.isEmpty then [] else [line] := by
  rw [lines]
  split
  · rfl
  · split
    · rfl
    · rename_i first after hsome
      rw [cut_eq_none h] at hsome
      cases hsome

/-- A text is its last line, or a line before a line feed and a text. -/
@[elab_as_elim]
theorem line_induction {motive : Text → Prop} (last : ∀ line, '\n' ∉ line → motive line)
    (feed : ∀ line rest, '\n' ∉ line → motive rest → motive (line ++ '\n' :: rest)) (s : Text) :
    motive s := by
  induction s using lines.induct with
  | case1 s hempty => exact last s (by simp [List.isEmpty_iff.mp hempty])
  | case2 s _ hcut => exact last s (cut_eq_none_iff.mp hcut)
  | case3 s _ line rest hcut ih =>
    obtain ⟨rfl, hline⟩ := cut_eq_some_iff.mp hcut
    exact feed line rest hline ih

theorem dropReturn_eq_self_iff {line : Text} :
    dropReturn line = line ↔ line.getLast? ≠ some '\r' := by
  constructor
  · intro h hlast
    have hne : line ≠ [] := by
      rintro rfl
      cases hlast
    have hlength := congrArg List.length h
    rw [dropReturn, if_pos hlast, List.length_dropLast] at hlength
    have hpos := List.length_pos_iff.mpr hne
    omega
  · intro h
    rw [dropReturn, if_neg h]

theorem dropReturn_eq_self {line : Text} (h : '\r' ∉ line) : dropReturn line = line :=
  dropReturn_eq_self_iff.mpr fun hlast => h (List.mem_of_getLast? hlast)

theorem dropReturn_sublist (line : Text) : (dropReturn line).Sublist line := by
  rw [dropReturn]
  split
  · exact List.dropLast_sublist line
  · exact List.Sublist.refl line

/-- No line has a line feed in it. -/
theorem noFeed_of_mem_lines {s line : Text} (h : line ∈ lines s) : '\n' ∉ line := by
  induction s using line_induction with
  | last t ht =>
    rw [lines_of_noFeed ht] at h
    split at h
    · cases h
    · rw [List.mem_singleton.mp h]
      exact ht
  | feed first rest hfirst ih =>
    rw [lines_append hfirst, List.mem_cons] at h
    rcases h with rfl | h
    · exact fun hmem => hfirst ((dropReturn_sublist first).subset hmem)
    · exact ih h

theorem noFeed_entryLine {t : Text} (h : '\n' ∉ t) (k : Nat) : '\n' ∉ entryLine k t := by
  have hnumber : '\n' ∉ natural k := not_mem_natural k rfl
  simp [entryLine, hnumber, h]

/-- A return at the end of a written line is one at the end of its text. -/
theorem dropReturn_entryLine (k : Nat) (t : Text) :
    dropReturn (entryLine k t) = entryLine k (dropReturn t) := by
  cases t with
  | nil => simp [dropReturn, entryLine]
  | cons c rest =>
    have hne : c :: rest ≠ [] := List.cons_ne_nil c rest
    have hsplit : entryLine k (c :: rest) = (natural k ++ ['.', ' ']) ++ c :: rest := by
      simp [entryLine]
    rw [dropReturn, dropReturn, hsplit, List.getLast?_append_of_ne_nil _ hne]
    split
    · rw [List.dropLast_append_of_ne_nil hne]
      simp [entryLine]
    · simp [entryLine]

/-- The number of a line ends at the first dot, so dots of the text stay with the text. -/
theorem carries_entryLine {k : Nat} (hpos : 1 ≤ k) (hmax : k ≤ maxNumber) (t : Text) :
    Carries (entryLine k t) (k, t) := by
  have hnumbers : Numbers (natural k) k :=
    ⟨[], [], [], .ofNat k, by simp [Numeral.ofNat], nofun, nofun, .inl rfl, Numeral.value_ofNat k⟩
  exact ⟨natural k, ' ' :: t, rfl, not_mem_natural k rfl, hnumbers, hpos, hmax, .inl rfl⟩

/-- The lines of a written sheet, at any place, have the consecutive numbers from the first
one on, and a return at the end of a text is lost. -/
theorem entriesFrom_writeFrom {texts : List Text} (hfeed : ∀ t ∈ texts, '\n' ∉ t)
    (place : Nat) {k : Nat} (hpos : 1 ≤ k) (hmax : k + texts.length ≤ maxNumber + 1) :
    entriesFrom place (lines (writeFrom k texts)) =
      .ok ((List.range' k texts.length).zip (texts.map dropReturn)) := by
  induction texts generalizing place k with
  | nil => simp [writeFrom, lines, entriesFrom]
  | cons t rest ih =>
    rw [List.length_cons] at hmax
    have hline : '\n' ∉ entryLine k t := noFeed_entryLine (hfeed t List.mem_cons_self) k
    have hrest := ih (fun u hu => hfeed u (List.mem_cons_of_mem t hu)) (place + 1)
      (Nat.le_succ_of_le hpos) (by omega)
    rw [writeFrom_cons, lines_append hline, dropReturn_entryLine,
      entriesFrom_carries (carries_entryLine hpos (by omega) (dropReturn t)), hrest]
    rfl

/-- A written sheet starts with a digit, so no mark is dropped. -/
theorem dropWhile_write (texts : List Text) :
    (write texts).dropWhile (· == byteOrderMark) = write texts := by
  cases texts with
  | nil => rfl
  | cons t rest =>
    obtain ⟨c, digits, hcons, hdigit⟩ := natural_eq_cons 1
    have hc : (c == byteOrderMark) = false := by
      rw [beq_eq_false_iff_ne]
      rintro rfl
      cases hdigit
    simp [write, writeFrom, hcons, hc]

/-- The items with the numbers 1, 2, 3 and so on. -/
def numbered {α : Type} (items : List α) : List (Nat × α) :=
  (List.range' 1 items.length).zip items

theorem map_fst_numbered {α : Type} (items : List α) :
    (numbered items).map Prod.fst = List.range' 1 items.length := by
  rw [numbered, List.map_fst_zip (by rw [List.length_range'])]

theorem map_snd_numbered {α : Type} (items : List α) : (numbered items).map Prod.snd = items := by
  rw [numbered, List.map_snd_zip (by rw [List.length_range'])]

theorem exists_mem_numbered {α : Type} {items : List α} {a : α} (h : a ∈ items) :
    ∃ k, (k, a) ∈ numbered items := by
  rw [← map_snd_numbered items, List.mem_map] at h
  obtain ⟨⟨k, b⟩, hmem, rfl⟩ := h
  exact ⟨k, hmem⟩

/-- The last item has the number of all items. -/
theorem exists_mem_numbered_length {α : Type} {items : List α} (h : items ≠ []) :
    ∃ a, (items.length, a) ∈ numbered items := by
  have hpos : 0 < items.length := List.length_pos_iff.mpr h
  have hlast : items.length ∈ (numbered items).map Prod.fst := by
    rw [map_fst_numbered, List.mem_range'_1]
    omega
  obtain ⟨⟨k, a⟩, hmem, hk⟩ := List.mem_map.mp hlast
  exact ⟨a, hk ▸ hmem⟩

theorem mem_numbered_map {α β : Type} {f : α → β} {items : List α} {k : Nat} {b : β} :
    (k, b) ∈ numbered (items.map f) ↔ ∃ a, (k, a) ∈ numbered items ∧ f a = b := by
  rw [numbered, numbered, List.length_map, List.zip_map_right, List.mem_map]
  constructor
  · rintro ⟨⟨n, a⟩, hmem, heq⟩
    cases heq
    exact ⟨a, hmem, rfl⟩
  · rintro ⟨a, hmem, rfl⟩
    exact ⟨(k, a), hmem, rfl⟩

/-- A sheet of texts without line feeds is read back with its numbers, but for a return at
the end of a text. -/
theorem read_write_of_noFeed {texts : List Text} (hfeed : ∀ t ∈ texts, '\n' ∉ t)
    (hmax : texts.length ≤ maxNumber) :
    read (write texts) = .ok (numbered (texts.map dropReturn)) := by
  rw [read, dropWhile_write, write, entriesFrom_writeFrom hfeed 1 (Nat.le_refl 1) (by omega),
    numbered, List.length_map]

/-- A sheet of texts that fit on lines is read back with its numbers. -/
theorem read_write {texts : List Text} (hfits : ∀ t ∈ texts, FitsLine t)
    (hmax : texts.length ≤ maxNumber) : read (write texts) = .ok (numbered texts) := by
  have hreturn : texts.map dropReturn = texts.map id :=
    List.map_congr_left fun t ht => dropReturn_eq_self_iff.mpr (hfits t ht).noReturn
  rw [read_write_of_noFeed (fun t ht => (hfits t ht).noFeed) hmax, hreturn, List.map_id]

end Sheet

/-- Whether the text is read as the entries: from itself, from every file that holds it, and from
every file to which it was saved. -/
structure Sheet.ReadsAs (t : Text) (entries : List Entry) : Prop where
  text : Sheet.read t = .ok entries
  file : ∀ (machine : Machine) (path : Path), machine.disk.Holds path (toBytes t) →
    Run.outcome (Run.readSheet path) machine = (.ok entries, machine)
  saved : ∀ (directory name path : Path) (machine machine' : Machine),
    Run.outcome (Run.save directory name t) machine = (.ok path, machine') →
      Run.outcome (Run.readSheet path) machine' = (.ok entries, machine')

namespace Sheet

theorem readsAs_of_read {t : Text} {entries : List Entry} (h : read t = .ok entries) :
    ReadsAs t entries := by
  have hfile : ∀ (machine : Machine) (path : Path), machine.disk.Holds path (toBytes t) →
      Run.outcome (Run.readSheet path) machine = (.ok entries, machine) := by
    intro machine path hholds
    rw [Run.outcome_readSheet hholds, h]
    rfl
  exact ⟨h, hfile, fun _ _ path _ machine' hsaved => hfile machine' path (Run.holds_of_save hsaved)⟩

theorem readsAs_write {texts : List Text} (hfits : ∀ t ∈ texts, FitsLine t)
    (hmax : texts.length ≤ maxNumber) : ReadsAs (write texts) (numbered texts) :=
  readsAs_of_read (read_write hfits hmax)

/-- Two texts, the second one empty, saved on a new machine and read back. -/
example : ∃ machine : Machine,
    Run.outcome (Run.save ['.'] "s".toList (write ["3.5".toList, []])) {} =
      (.ok "./s".toList, machine) ∧
    Run.outcome (Run.readSheet "./s".toList) machine =
      (.ok [(1, "3.5".toList), (2, [])], machine) := by
  let disk := Disk.bare.put ["s".toList] (.file (toBytes (write ["3.5".toList, []])))
  have hsaved : Run.outcome (Run.save ['.'] "s".toList (write ["3.5".toList, []])) {} =
      (.ok "./s".toList, ({ disk } : Machine)) := by
    rw [Run.outcome_save, Machine.ensureDirectory_of_isDirectory fun _ => by decide +kernel]
    rfl
  have hreads : ReadsAs (write ["3.5".toList, []]) [(1, "3.5".toList), (2, [])] :=
    readsAs_of_read (by decide +kernel)
  exact ⟨{ disk }, hsaved, hreads.saved _ _ _ _ _ hsaved⟩

/-- Every entry of a sheet that is read is carried by one of its lines. -/
theorem exists_line_of_mem {t : Text} {entries : List Entry} {entry : Entry}
    (h : read t = .ok entries) (hmem : entry ∈ entries) :
    ∃ line, '\n' ∉ line ∧ Carries line entry := by
  obtain ⟨line, hline, hentry⟩ := exists_line_of_mem_entries h hmem
  exact ⟨line, noFeed_of_mem_lines hline, hentry⟩

/-- A sheet is read back as the texts that were written, with their numbers, exactly if every text
fits on a line and the last number fits in a machine word, as the length of a list in memory does.
Nothing else is asked of the texts. -/
theorem readsAs_write_iff (texts : List Text) :
    ReadsAs (write texts) (numbered texts) ↔
      texts.length ≤ maxNumber ∧ ∀ t ∈ texts, FitsLine t := by
  constructor
  · intro h
    have hfeed : ∀ t ∈ texts, '\n' ∉ t := by
      intro t ht
      obtain ⟨k, hk⟩ := exists_mem_numbered ht
      obtain ⟨line, hline, hentry⟩ := exists_line_of_mem h.text hk
      exact fun hmem => hline (hentry.suffix.subset hmem)
    have hmax : texts.length ≤ maxNumber := by
      by_cases hempty : texts = []
      · rw [hempty]
        exact Nat.zero_le maxNumber
      · obtain ⟨t, ht⟩ := exists_mem_numbered_length hempty
        obtain ⟨line, -, hentry⟩ := exists_line_of_mem h.text ht
        exact hentry.number_le
    have hreturn : texts.map dropReturn = texts := by
      have hread := (read_write_of_noFeed hfeed hmax).symm.trans h.text
      rw [← map_snd_numbered (texts.map dropReturn), Except.ok.inj hread, map_snd_numbered]
    have hkept : ∀ t ∈ texts, dropReturn t = t :=
      List.map_inj_left.mp (hreturn.trans texts.map_id.symm)
    exact ⟨hmax, fun t ht => ⟨hfeed t ht, dropReturn_eq_self_iff.mp (hkept t ht)⟩⟩
  · rintro ⟨hmax, hfits⟩
    exact readsAs_write hfits hmax

end Sheet
end FractionDrill
