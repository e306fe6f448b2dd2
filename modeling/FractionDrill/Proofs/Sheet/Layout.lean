import FractionDrill.Proofs.Sheet.RoundTrip

/-!
# The layout of a sheet

A sheet whose lines end in plain line feeds is read line by line, at the places an
editor counts. Marks at its start, carriage returns before its line feeds and blank
lines between its lines change nothing in what is read, but for the place of the line
that a sheet is refused for.
-/
namespace FractionDrill.Sheet
open Text

/-- The lines an editor shows: blank lines count, and so does the empty line after a last
line feed. Marks at the start of the text belong to no line. -/
def physicalLines (s : Text) : List Text := (s.dropWhile (· == byteOrderMark)).splitOn '\n'

/-- The text with a carriage return before every line feed. -/
def withReturns (s : Text) : Text := s.flatMap fun c => if c = '\n' then ['\r', '\n'] else [c]

/-- Puts the first gap before the first line, the second gap before the second line and so
on; gaps for which there is no line go to the end. -/
def interleave : List (List Text) → List Text → List Text
  | [], lines => lines
  | gaps, [] => gaps.flatten
  | gap :: gaps, line :: lines => gap ++ line :: interleave gaps lines

/-- The text with lines put in at its line boundaries, after the marks at its start. -/
def insertLines (gaps : List (List Text)) (s : Text) : Text :=
  s.takeWhile (· == byteOrderMark) ++ ['\n'].intercalate (interleave gaps (physicalLines s))

example : insertLines [[], [['x'], []]] ['a', '\n', 'b'] =
    ['a', '\n', 'x', '\n', '\n', 'b'] := by decide

/-- Lines of blanks only. -/
def AreBlank (gaps : List (List Text)) : Prop :=
  ∀ line ∈ gaps.flatten, line.all isBlank = true ∧ '\n' ∉ line

instance (gaps : List (List Text)) : Decidable (AreBlank gaps) :=
  inferInstanceAs (Decidable (∀ line ∈ gaps.flatten, line.all isBlank = true ∧ '\n' ∉ line))

/-- The line at the place where it stands when the gaps are put in. -/
def Unnumbered.shift (gaps : List (List Text)) (failure : Unnumbered) : Unnumbered :=
  { failure with place := failure.place + (gaps.take failure.place).flatten.length }

section Split
variable {s line : Text} {lines : List Text}

theorem noFeed_of_mem_splitOn (h : line ∈ s.splitOn '\n') : '\n' ∉ line := by
  induction s using line_induction with
  | last t ht =>
    rw [List.splitOn_eq_singleton ht, List.mem_singleton] at h
    exact h ▸ ht
  | feed first rest hfirst ih =>
    rw [List.splitOn_append_cons_self_of_not_mem hfirst, List.mem_cons] at h
    rcases h with rfl | h
    · exact hfirst
    · exact ih h

theorem subset_of_mem_splitOn (h : line ∈ s.splitOn '\n') : line ⊆ s := by
  induction s using line_induction with
  | last t ht =>
    rw [List.splitOn_eq_singleton ht, List.mem_singleton] at h
    exact h ▸ List.Subset.refl line
  | feed first rest hfirst ih =>
    rw [List.splitOn_append_cons_self_of_not_mem hfirst, List.mem_cons] at h
    rcases h with rfl | h
    · exact List.subset_append_left _ _
    · exact fun c hc => List.mem_append_right first (List.mem_cons_of_mem _ (ih h hc))

theorem entriesFrom_cons_congr {k : Nat} {first second : List Text}
    (h : entriesFrom (k + 1) first = entriesFrom (k + 1) second) :
    entriesFrom k (line :: first) = entriesFrom k (line :: second) := by
  rw [entriesFrom, entriesFrom, h]

theorem all_isBlank_dropReturn (h : line.all isBlank = true) :
    (dropReturn line).all isBlank = true := by
  rw [List.all_eq_true] at h ⊢
  exact fun c hc => h c ((dropReturn_sublist line).subset hc)

/-- Lines joined by line feeds are read as they are. A return that is lost at the end of a
line is not missed in a blank one. -/
theorem entriesFrom_lines_intercalate (hfeed : ∀ line ∈ lines, '\n' ∉ line)
    (hreturn : ∀ line ∈ lines, line.all isBlank = true ∨ '\r' ∉ line) (k : Nat) :
    entriesFrom k (Sheet.lines (['\n'].intercalate lines)) = entriesFrom k lines := by
  induction lines generalizing k with
  | nil => simp [Sheet.lines]
  | cons line rest ih =>
    have hline : '\n' ∉ line := hfeed line List.mem_cons_self
    have hrest : ∀ k, entriesFrom k (Sheet.lines (['\n'].intercalate rest)) = entriesFrom k rest :=
      ih (fun l hl => hfeed l (List.mem_cons_of_mem line hl))
        fun l hl => hreturn l (List.mem_cons_of_mem line hl)
    cases rest with
    | nil =>
      rw [List.intercalate_singleton, lines_of_noFeed hline]
      split
      · rename_i hempty
        rw [List.isEmpty_iff.mp hempty]
        rfl
      · rfl
    | cons next later =>
      -- only here does a line feed follow, so only here can a return be taken
      rw [List.intercalate_cons_cons, List.append_assoc, List.singleton_append,
        lines_append hline]
      rcases hreturn line List.mem_cons_self with hblank | hkept
      · rw [entriesFrom_blank hblank, entriesFrom_blank (all_isBlank_dropReturn hblank), hrest]
      · rw [dropReturn_eq_self hkept]
        exact entriesFrom_cons_congr (hrest (k + 1))

theorem noReturn_of_mem_physicalLines (h : '\r' ∉ s) (hline : line ∈ physicalLines s) :
    '\r' ∉ line :=
  fun hmem => h ((List.dropWhile_sublist _).subset (subset_of_mem_splitOn hline hmem))

/-- A sheet without returns is read line by line. -/
theorem read_eq_entriesFrom (h : '\r' ∉ s) : read s = entriesFrom 1 (physicalLines s) := by
  have hread : entriesFrom 1 (Sheet.lines (['\n'].intercalate (physicalLines s))) =
      entriesFrom 1 (physicalLines s) :=
    entriesFrom_lines_intercalate (fun _ => noFeed_of_mem_splitOn)
      (fun _ hline => .inr (noReturn_of_mem_physicalLines h hline)) 1
  rw [← hread, physicalLines, List.intercalate_splitOn, read]

end Split

section Returns

theorem withReturns_append (s t : Text) : withReturns (s ++ t) = withReturns s ++ withReturns t :=
  List.flatMap_append

theorem withReturns_of_noFeed {line : Text} (h : '\n' ∉ line) : withReturns line = line := by
  induction line with
  | nil => rfl
  | cons c rest ih =>
    rw [List.mem_cons, not_or] at h
    rw [withReturns, List.flatMap_cons, if_neg (Ne.symm h.1)]
    exact congrArg (c :: ·) (ih h.2)

theorem lines_withReturns {s : Text} (h : '\r' ∉ s) : lines (withReturns s) = lines s := by
  induction s using line_induction with
  | last line hline => rw [withReturns_of_noFeed hline]
  | feed line rest hline ih =>
    have hreturns : withReturns (line ++ '\n' :: rest) =
        (line ++ ['\r']) ++ '\n' :: withReturns rest := by
      rw [withReturns_append, withReturns_of_noFeed hline]
      simp [withReturns]
    have hfirst : '\n' ∉ line ++ ['\r'] := by simp [hline]
    have hkept : '\r' ∉ line := fun hmem => h (List.mem_append_left _ hmem)
    have hrest : '\r' ∉ rest := fun hmem =>
      h (List.mem_append_right line (List.mem_cons_of_mem _ hmem))
    rw [hreturns, lines_append hfirst, lines_append hline, ih hrest,
      dropReturn_eq_self hkept]
    simp [dropReturn]

/-- Returns go before line feeds only, so the marks at the start stay where they are. -/
theorem dropWhile_withReturns (s : Text) :
    (withReturns s).dropWhile (· == byteOrderMark) =
      withReturns (s.dropWhile (· == byteOrderMark)) := by
  induction s with
  | nil => rfl
  | cons c rest ih =>
    by_cases hmark : c = byteOrderMark
    · subst hmark
      exact ih
    · by_cases hfeed : c = '\n'
      · subst hfeed
        rfl
      · simp [withReturns, hmark, hfeed]

theorem read_withReturns {s : Text} (h : '\r' ∉ s) : read (withReturns s) = read s := by
  have hbody : '\r' ∉ s.dropWhile (· == byteOrderMark) := fun hmem =>
    h ((List.dropWhile_sublist _).subset hmem)
  rw [read, dropWhile_withReturns, lines_withReturns hbody, read]

theorem read_marks (n : Nat) (s : Text) : read (List.replicate n byteOrderMark ++ s) = read s := by
  have hmarks : ∀ c ∈ List.replicate n byteOrderMark, (c == byteOrderMark) = true := fun c hc => by
    rw [List.eq_of_mem_replicate hc, beq_self_eq_true]
  rw [read, List.dropWhile_append_of_pos hmarks, read]

end Returns

section Gaps
variable {gaps : List (List Text)} {lines : List Text}

theorem mem_interleave {line : Text} :
    line ∈ interleave gaps lines ↔ line ∈ gaps.flatten ∨ line ∈ lines := by
  induction gaps, lines using interleave.induct with
  | case1 lines => simp [interleave]
  | case2 gaps hgaps => simp [interleave]
  | case3 gap gaps first rest ih =>
    simp only [interleave, List.mem_append, List.mem_cons, List.flatten_cons, ih]
    tauto

/-- The lines that are not blank stay, in their order. -/
theorem filter_interleave (hblank : AreBlank gaps) :
    (interleave gaps lines).filter (fun line => !line.all isBlank) =
      lines.filter fun line => !line.all isBlank := by
  induction gaps, lines using interleave.induct with
  | case1 lines => rw [interleave]
  | case2 gaps hgaps =>
    rw [interleave, List.filter_nil, List.filter_eq_nil_iff]
    · exact fun line hline => by simp [(hblank line hline).1]
    · exact hgaps
  | case3 gap gaps line lines ih =>
    have hgap : gap.filter (fun line => !line.all isBlank) = [] :=
      List.filter_eq_nil_iff.mpr fun line hline => by
        simp [(hblank line (List.mem_append_left _ hline)).1]
    have hrest : AreBlank gaps := fun line hline => hblank line (List.mem_append_right gap hline)
    rw [interleave, List.filter_append, hgap, List.nil_append, List.filter_cons, List.filter_cons,
      ih hrest]

/-- A line stands behind the lines before it and the gaps up to its own. -/
theorem exists_interleave_append (gaps : List (List Text)) (before : List Text) (line : Text)
    (after : List Text) :
    ∃ before' after', interleave gaps (before ++ line :: after) = before' ++ line :: after' ∧
      before'.length = before.length + (gaps.take (before.length + 1)).flatten.length ∧
      ∀ other ∈ before', other ∈ gaps.flatten ∨ other ∈ before := by
  induction before generalizing gaps with
  | nil =>
    cases gaps with
    | nil => exact ⟨[], after, by simp [interleave]⟩
    | cons gap gaps => exact ⟨gap, interleave gaps after, by simp +contextual [interleave]⟩
  | cons first rest ih =>
    cases gaps with
    | nil => exact ⟨first :: rest, after, by simp [interleave]⟩
    | cons gap gaps =>
      obtain ⟨before', after', h, hlength, hmem⟩ := ih gaps
      refine ⟨gap ++ first :: before', after', ?_, ?_, ?_⟩
      · simp [interleave, h]
      · rw [List.length_append, List.length_cons, hlength, List.length_cons, List.take_succ_cons,
          List.flatten_cons, List.length_append]
        omega
      · intro other hother
        rw [List.flatten_cons, List.mem_append, List.mem_cons]
        rw [List.mem_append, List.mem_cons] at hother
        have hrest := hmem other
        tauto

/-- Blank lines between the lines of a list change nothing but the place of the line it is
refused for. -/
theorem entriesFrom_interleave (hblank : AreBlank gaps) :
    entriesFrom 1 (interleave gaps lines) =
      (entriesFrom 1 lines).mapError (Unnumbered.shift gaps) := by
  -- the gaps are invisible to both characterizations: they carry nothing and count as blank
  cases h : entriesFrom 1 lines with
  | ok entries =>
    have hcarries := entriesFrom_eq_ok_iff.mp h
    rw [← filter_interleave hblank] at hcarries
    exact entriesFrom_eq_ok_iff.mpr hcarries
  | error failure =>
    obtain ⟨before, after, rfl, hplace, hline, hbefore⟩ := entriesFrom_eq_error_iff.mp h
    obtain ⟨before', after', hlines, hlength, hmem⟩ :=
      exists_interleave_append gaps before failure.line after
    have hcounted : ∀ line ∈ before', ¬IsUnnumbered line := by
      intro line hline
      rcases hmem line hline with hgap | hkept
      · exact fun h => Bool.false_ne_true (h.1.symm.trans (hblank line hgap).1)
      · exact hbefore line hkept
    have hshift : (failure.shift gaps).place = before'.length + 1 := by
      change failure.place + (gaps.take failure.place).flatten.length = _
      rw [hlength, hplace]
      omega
    exact entriesFrom_eq_error_iff.mpr ⟨before', after', hlines, hshift, hline, hcounted⟩

end Gaps

section Insertion
variable {s : Text} {gaps : List (List Text)}

theorem head?_ne_mark_of_blank {line : Text} (h : line.all isBlank = true) :
    line.head? ≠ some byteOrderMark := by
  intro hhead
  have hmark : isBlank byteOrderMark = true :=
    List.all_eq_true.mp h byteOrderMark (List.mem_of_mem_head? hhead)
  exact absurd hmark (by decide)

/-- The first line of a text without its marks does not start with a mark. -/
theorem exists_physicalLines_cons (s : Text) :
    ∃ first rest, physicalLines s = first :: rest ∧ first.head? ≠ some byteOrderMark := by
  have hne : physicalLines s ≠ [] := List.splitOn_ne_nil '\n' _
  obtain ⟨first, rest, hlines⟩ := List.exists_cons_of_ne_nil hne
  have hbody : ['\n'].intercalate (first :: rest) = s.dropWhile (· == byteOrderMark) := by
    rw [← hlines, physicalLines, List.intercalate_splitOn]
  refine ⟨first, rest, hlines, fun hhead => ?_⟩
  obtain ⟨tail, rfl⟩ := List.head?_eq_some_iff.mp hhead
  have hmark := List.head?_dropWhile_not (· == byteOrderMark) s
  rw [← hbody] at hmark
  cases rest <;> simp [List.intercalate_cons_cons] at hmark

/-- Lines put in before it do not start with a mark either. -/
theorem exists_interleave_cons (hblank : AreBlank gaps) (s : Text) :
    ∃ first rest, interleave gaps (physicalLines s) = first :: rest ∧
      first.head? ≠ some byteOrderMark := by
  obtain ⟨first, rest, hlines, hhead⟩ := exists_physicalLines_cons s
  rw [hlines]
  match gaps with
  | [] => exact ⟨first, rest, rfl, hhead⟩
  | [] :: gaps => exact ⟨first, interleave gaps rest, rfl, hhead⟩
  | (line :: gap) :: gaps =>
    have hline : line.all isBlank = true := (hblank line (by simp)).1
    exact ⟨line, gap ++ first :: interleave gaps rest, rfl, head?_ne_mark_of_blank hline⟩

/-- Lines joined with no mark in front keep all their marks. -/
theorem dropWhile_intercalate {first : Text} (hfirst : first.head? ≠ some byteOrderMark)
    (rest : List Text) :
    (['\n'].intercalate (first :: rest)).dropWhile (· == byteOrderMark) =
      ['\n'].intercalate (first :: rest) := by
  cases first with
  | nil => cases rest <;> rfl
  | cons c cs =>
    have hc : (c == byteOrderMark) = false := by simpa using hfirst
    cases rest <;> simp [List.intercalate_cons_cons, hc]

theorem dropWhile_insertLines (hblank : AreBlank gaps) (s : Text) :
    (insertLines gaps s).dropWhile (· == byteOrderMark) =
      ['\n'].intercalate (interleave gaps (physicalLines s)) := by
  have hmarks : ∀ c ∈ s.takeWhile (· == byteOrderMark), (c == byteOrderMark) = true :=
    fun c hc => by simpa using List.mem_takeWhile_imp hc
  obtain ⟨first, rest, hlines, hhead⟩ := exists_interleave_cons hblank s
  rw [insertLines, List.dropWhile_append_of_pos hmarks, hlines, dropWhile_intercalate hhead]

theorem read_insertLines (h : '\r' ∉ s) (hblank : AreBlank gaps) :
    read (insertLines gaps s) = (read s).mapError (Unnumbered.shift gaps) := by
  have hfeed : ∀ line ∈ interleave gaps (physicalLines s), '\n' ∉ line := by
    intro line hline
    rcases mem_interleave.mp hline with hgap | hkept
    · exact (hblank line hgap).2
    · exact noFeed_of_mem_splitOn hkept
  have hreturn : ∀ line ∈ interleave gaps (physicalLines s),
      line.all isBlank = true ∨ '\r' ∉ line := by
    intro line hline
    rcases mem_interleave.mp hline with hgap | hkept
    · exact .inl (hblank line hgap).1
    · exact .inr (noReturn_of_mem_physicalLines h hkept)
  rw [read, dropWhile_insertLines hblank, entriesFrom_lines_intercalate hfeed hreturn,
    entriesFrom_interleave hblank, read_eq_entriesFrom h]

end Insertion

/-- What a text is read as, whatever its layout, and whether it can be read. -/
structure ReadsByLine (s : Text) : Prop where
  /-- Any number of marks may stand in front. -/
  marks : ∀ n, read (List.replicate n byteOrderMark ++ s) = read s
  /-- The line feeds may all have a carriage return before them. -/
  returns : ∀ n, read (List.replicate n byteOrderMark ++ withReturns s) = read s
  /-- Lines of blanks may be put in anywhere, and move the place of a refused line only. -/
  blanks : ∀ gaps, AreBlank gaps →
    read (insertLines gaps s) = (read s).mapError (Unnumbered.shift gaps)
  /-- Every line that is not blank gives its entry, in the order of the lines. -/
  entries : ∀ entries, read s = .ok entries ↔
    List.Forall₂ Carries ((physicalLines s).filter fun line => !line.all isBlank) entries
  /-- One line without a number is enough to refuse the text. -/
  refused : (∃ failure, read s = .error failure) ↔ ∃ line ∈ physicalLines s, IsUnnumbered line
  /-- The text is refused for the first such line, at its place among all lines. -/
  failure : ∀ failure, read s = .error failure ↔ IsFirstUnnumbered (physicalLines s) failure
  /-- This text and all that are made from it are read from a file as they are on their own. -/
  file : ∀ (t : Text) (machine : Machine) (path : Path), machine.disk.Holds path (toBytes t) →
    Run.outcome (Run.readSheet path) machine = ((read t).mapError (.unnumbered path), machine)

/-- A text without carriage returns is read by its physical lines. -/
theorem readsByLine_of_noReturn {s : Text} (h : '\r' ∉ s) : ReadsByLine s where
  marks := fun n => read_marks n s
  returns := fun n => (read_marks n (withReturns s)).trans (read_withReturns h)
  blanks := fun gaps hblank => read_insertLines h hblank
  entries := fun entries => by
    rw [read_eq_entriesFrom h]
    exact entriesFrom_eq_ok_iff
  refused := by
    rw [read_eq_entriesFrom h]
    exact entriesFrom_fails_iff
  failure := fun failure => by
    rw [read_eq_entriesFrom h]
    exact entriesFrom_eq_error_iff
  file := fun t machine path hholds => Run.outcome_readSheet hholds

/-- The third line after a mark has no number, and three blank lines before it make it the
sixth; a file that holds the text is refused for the same line. -/
theorem readsByLine_of_noReturn_refused :
    '\r' ∉ [byteOrderMark, '1', '.', ' ', 'a', '\n', '\n', 'b'] ∧
      read [byteOrderMark, '1', '.', ' ', 'a', '\n', '\n', 'b'] = .error ⟨3, ['b']⟩ ∧
      read (insertLines [[[' ']], [[], ['\t']]]
        [byteOrderMark, '1', '.', ' ', 'a', '\n', '\n', 'b']) = .error ⟨6, ['b']⟩ ∧
      ∃ machine : Machine, machine.disk.Holds "./s".toList
          (toBytes [byteOrderMark, '1', '.', ' ', 'a', '\n', '\n', 'b']) ∧
        Run.outcome (Run.readSheet "./s".toList) machine =
          (.error (.unnumbered "./s".toList ⟨3, ['b']⟩), machine) := by
  have hreturn : '\r' ∉ [byteOrderMark, '1', '.', ' ', 'a', '\n', '\n', 'b'] := by decide
  have hreads := readsByLine_of_noReturn hreturn
  have hfirst : IsFirstUnnumbered
      (physicalLines [byteOrderMark, '1', '.', ' ', 'a', '\n', '\n', 'b']) ⟨3, ['b']⟩ := by
    have hentry : Carries ['1', '.', ' ', 'a'] (1, ['a']) := entry?_eq_some_iff.mp (by decide)
    have hnone : IsUnnumbered ['b'] := ⟨by decide, entry?_eq_none_iff.mp (by decide)⟩
    refine ⟨[['1', '.', ' ', 'a'], []], [], by decide, rfl, hnone, ?_⟩
    simp only [List.mem_cons, List.not_mem_nil, or_false, forall_eq_or_imp, forall_eq]
    exact ⟨fun h => h.2 ⟨_, hentry⟩, fun h => by cases h.1⟩
  have hread := (hreads.failure _).mpr hfirst
  have hblank : AreBlank [[[' ']], [[], ['\t']]] := by decide
  let disk := Disk.bare.put ["s".toList]
    (.file (toBytes [byteOrderMark, '1', '.', ' ', 'a', '\n', '\n', 'b']))
  let machine : Machine := { disk }
  have hholds : machine.disk.Holds "./s".toList
      (toBytes [byteOrderMark, '1', '.', ' ', 'a', '\n', '\n', 'b']) := ⟨rfl, rfl⟩
  refine ⟨hreturn, hread, ?_, machine, hholds, ?_⟩
  · rw [hreads.blanks _ hblank, hread]
    rfl
  · rw [hreads.file _ machine _ hholds, hread]
    rfl

end FractionDrill.Sheet
