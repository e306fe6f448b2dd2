import FractionDrill.Proofs.Run.Generation
import FractionDrill.Proofs.Run.Machine
import FractionDrill.Proofs.Storage.Beside

/-!
# What a failed run leaves

A run that grades writes once, at its end, so it leaves all files as they were where
it fails. A run that generates writes twice. Where it fails between the two, the
statements of its batch are on the disk and all other files are as they were, also a
sheet of answers that could not be replaced. On a machine that has files and
directories only, and refuses no write for another reason, this is so only where a
directory bears the name of the sheet of answers.
-/
namespace FractionDrill

/-- Whether a host keeps the contents of files as a disk does: a write that succeeds replaces the
content of one place, a write that fails replaces none, and neither does any other service. -/
structure Host.KeepsContents {σ ι : Type} [DecidableEq ι] [Host (StateM σ)] (place : Path → ι)
    (content : σ → ι → Option ByteArray) : Prop where
  services : ∀ old, KeptByServices fun s => content s = old
  writeFile : ∀ path new s, content ((Host.writeFile path new : StateM σ _).run s).2 =
    match ((Host.writeFile path new : StateM σ _).run s).1 with
    | .ok () => Function.update (content s) (place path) (some new)
    | .error _ => content s

namespace Run

variable {σ ι : Type} [DecidableEq ι] [Host (StateM σ)] {place : Path → ι}
  {content : σ → ι → Option ByteArray}

theorem save_failureKeeps (hhost : Host.KeepsContents place content)
    (old : ι → Option ByteArray) (directory name : Path) (text : Text) :
    FailureKeeps (fun s => content s = old) (save directory name text) := by
  intro s fault s' hs h
  have hensured := Host.keeps_ensureDirectory (hhost.services old) directory.pieces s hs
  rw [outcome_save] at h
  split at h
  · rename_i hend
    rw [hend] at hensured
    cases h
    exact hensured
  · rename_i t hend
    rw [hend] at hensured
    have hwrite := hhost.writeFile (Path.child directory name) (Text.toBytes text) t
    split at h
    · rename_i hfailed
      rw [hfailed] at hwrite
      cases h
      exact hwrite.trans hensured
    · cases h

theorem content_of_save (hhost : Host.KeepsContents place content) {directory name path : Path}
    {text : Text} {s s' : σ} (h : outcome (save directory name text) s = (.ok path, s')) :
    content s' = Function.update (content s) (place (Path.child directory name))
      (some (Text.toBytes text)) := by
  have hensured := Host.keeps_ensureDirectory (hhost.services (content s)) directory.pieces s rfl
  rw [outcome_save] at h
  split at h
  · cases h
  · rename_i t hend
    rw [hend] at hensured
    have hwrite := hhost.writeFile (Path.child directory name) (Text.toBytes text) t
    split at h
    · cases h
    · rename_i hwritten
      rw [hwritten] at hwrite
      cases h
      rw [← hensured]
      exact hwrite

/-- A run that grades changes no content before its only write. -/
theorem gradeSheets_failureKeeps (hhost : Host.KeepsContents place content)
    (old : ι → Option ByteArray) (settings : Settings) (exercises answers : Path) :
    FailureKeeps (fun s => content s = old) (gradeSheets settings exercises answers) := by
  have hservices := hhost.services old
  refine (keeps_readSheet hservices exercises).failureKeeps_bind fun statements => ?_
  refine (keeps_readSheet hservices answers).failureKeeps_bind fun solutions => ?_
  refine (keeps_note hservices settings _).failureKeeps_bind fun _ => ?_
  refine (Keeps.forM fun _ => keeps_note hservices settings _).failureKeeps_bind fun _ => ?_
  refine (Keeps.forM fun _ => keeps_note hservices settings _).failureKeeps_bind fun _ => ?_
  refine (save_failureKeeps hhost old _ _ _).bind fun path => ?_
  exact (succeeds_lift _).bind fun _ => succeeds_note settings _

/-- A run whose statements are saved and whose answers are not. -/
structure HalfSaved (place : Path → ι) (settings : Settings) (batch : List Problem)
    (fault : RunFault) (old new : ι → Option ByteArray) : Prop where
  drawn : ∃ count bound source, settings.mode = .generate count bound ∧
    StartsFrom settings.seed source ∧ drawBatch count bound source = .ok batch
  fault : ∃ f, fault = .storage settings.directory f ∨
    fault = .storage (Path.child settings.directory answersName) f
  contents : new = Function.update old (place (Path.child settings.directory statementsName))
    (some (Text.toBytes (Sheet.ofStatements batch)))

/-- A run that fails has changed no content, or it fails in saving the answers of a batch after
its statements. -/
theorem execute_fails (hhost : Host.KeepsContents place content) {settings : Settings} {s s' : σ}
    {fault : RunFault} (h : outcome (execute settings) s = (.error fault, s')) :
    content s' = content s ∨ ∃ batch t path t',
      HalfSaved place settings batch fault (content s) (content s') ∧
      outcome (save settings.directory statementsName (Sheet.ofStatements batch)) t =
        (.ok path, t') ∧
      outcome (save settings.directory answersName (Sheet.ofAnswers batch)) t' =
        (.error fault, s') := by
  unfold execute at h
  cases hmode : settings.mode with
  | grade exercises answers =>
    rw [hmode] at h
    exact .inl (gradeSheets_failureKeeps hhost _ settings exercises answers s fault s' rfl h)
  | generate count bound =>
    rw [hmode] at h
    obtain ⟨source, hstarts, hfails⟩ := generate_fails (hhost.services (content s)) rfl h
    cases hfails with
    | drawing _ _ hkept => exact .inl hkept
    | statements _ hkept hfailed =>
      exact .inl (save_failureKeeps hhost _ _ _ _ _ fault s' hkept hfailed)
    | answers hdrawn hkept hsaved hfailed =>
      refine .inr ⟨_, _, _, _, ⟨⟨count, bound, source, hmode, hstarts, hdrawn⟩,
        fault_of_save hfailed, ?_⟩, hsaved, hfailed⟩
      rw [save_failureKeeps hhost _ _ _ _ _ fault s' rfl hfailed, content_of_save hhost hsaved,
        hkept]

end Run

namespace Machine

/-- A machine is such a host. -/
theorem keepsContents : Host.KeepsContents Disk.place fun m : Machine => m.disk.content? := by
  constructor
  case services =>
    intro old
    constructor
    case makeDirectory =>
      intro path m hm
      rw [run_makeDirectory]
      cases hmade : m.disk.makeDirectory path with
      | error fault => exact hm
      | ok disk => exact (Disk.content?_of_makeDirectory hmade).trans hm
    all_goals intros; exact fun _ hm => hm
  case writeFile =>
    intro path new m
    rw [run_writeFile]
    cases hwritten : m.disk.writeFile path new with
    | error fault => rfl
    | ok disk => exact Disk.content?_of_writeFile hwritten

end Machine

namespace Run

theorem isName_statementsName : Path.IsName statementsName := by
  constructor <;> decide

theorem isName_answersName : Path.IsName answersName := by
  constructor <;> decide

/-- Once a machine has saved the statements of a batch, only a directory keeps it from saving the
answers beside them. -/
theorem fault_of_second_save {directory path : Path} {statements answers : Text} {m t m' : Machine}
    {fault : RunFault}
    (hsaved : outcome (save directory statementsName statements) m = (.ok path, t))
    (hfailed : outcome (save directory answersName answers) t = (.error fault, m')) :
    fault = .storage (Path.child directory answersName) .isDirectory ∧
      m'.disk.node? (Disk.place (Path.child directory answersName)) = some .directory := by
  obtain ⟨rfl, d, hwritten⟩ := writeFile_of_save hsaved
  have hensured := Machine.ensureDirectory_of_isDirectory (m := t)
    fun hdirectory => Disk.isDirectory_of_writeFile isName_statementsName hdirectory hwritten
  rw [outcome_save, hensured] at hfailed
  simp only [Machine.run_writeFile] at hfailed
  cases hwrite : t.disk.writeFile (Path.child directory answersName) (Text.toBytes answers) with
  | ok d =>
    rw [hwrite] at hfailed
    cases hfailed
  | error f =>
    rw [hwrite] at hfailed
    cases hfailed
    obtain ⟨rfl, hnode⟩ := Disk.fault_beside isName_statementsName isName_answersName
      (by decide) hwritten hwrite
    exact ⟨rfl, hnode⟩

/-- A run that fails leaves the content of every file as it was, on every host that keeps contents
as a disk does, unless it generates and can save the statements of its batch but not the answers;
then the statements alone are new. On a machine of plain files and directories that is so only
where a directory bears the name of the sheet of answers. -/
theorem failed_run_contents :
    (∀ (σ ι : Type) [DecidableEq ι] [Host (StateM σ)] (place : Path → ι)
      (content : σ → ι → Option ByteArray), Host.KeepsContents place content →
      ∀ (settings : Settings) (s s' : σ) (fault : RunFault),
        outcome (execute settings) s = (.error fault, s') →
          content s' = content s ∨
            ∃ batch, HalfSaved place settings batch fault (content s) (content s')) ∧
    ∀ (settings : Settings) (m m' : Machine) (fault : RunFault),
      outcome (execute settings) m = (.error fault, m') →
        m'.disk.content? = m.disk.content? ∨
          (∃ batch, HalfSaved Disk.place settings batch fault m.disk.content? m'.disk.content?) ∧
            fault = .storage (Path.child settings.directory answersName) .isDirectory ∧
            m'.disk.node? (Disk.place (Path.child settings.directory answersName)) =
              some .directory := by
  constructor
  · intro σ ι _ _ place content hhost settings s s' fault h
    rcases execute_fails hhost h with hkept | ⟨batch, _, _, _, hhalf, -⟩
    · exact .inl hkept
    · exact .inr ⟨batch, hhalf⟩
  · intro settings m m' fault h
    rcases execute_fails Machine.keepsContents h with
      hkept | ⟨batch, _, _, _, hhalf, hsaved, hfailed⟩
    · exact .inl hkept
    · exact .inr ⟨⟨batch, hhalf⟩, fault_of_second_save hsaved hfailed⟩

/-- A machine with an old sheet of statements, where a directory bears the name of the answers. -/
def blocked : Machine where
  disk := (Disk.bare.put [answersName] .directory).put [statementsName]
    (.file (Text.toBytes "2. 3 = \n".toList))

/-- One exercise up to ten, into the working directory. -/
def oneExercise : Settings := ⟨.generate 1 10, ['.'], some 2, false⟩

theorem execute_blocked :
    ∃ p m', outcome (execute oneExercise) blocked =
        (.error (.storage "./Answers.txt".toList .isDirectory), m') ∧
      m'.disk.content? [statementsName] = some (Text.toBytes (Sheet.ofStatements [p])) := by
  have hdrawn : ∃ p, drawBatch 1 10 (Keystream.ofSeed 2) = .ok [p] := by
    cases h : drawBatch 1 10 (Keystream.ofSeed 2) with
    | error fault =>
      obtain ⟨found, hpos, hsmall, -⟩ := fault_of_drawBatch (by decide) (by decide) h
      omega
    | ok batch =>
      obtain ⟨p, rfl⟩ := List.length_eq_one_iff.mp (length_of_drawBatch h)
      exact ⟨p, rfl⟩
  obtain ⟨p, hdrawn⟩ := hdrawn
  generalize hstatements : Text.toBytes (Sheet.ofStatements [p]) = statements
  let half : Machine :=
    { blocked with disk := blocked.disk.put [statementsName] (.file statements) }
  have hfirst : outcome (save ['.'] statementsName (Sheet.ofStatements [p])) blocked =
      (.ok "./Exercises.txt".toList, half) := by
    rw [outcome_save, Machine.ensureDirectory_of_isDirectory (fun _ => by decide +kernel),
      hstatements]
    rfl
  obtain ⟨-, d, hwritten⟩ := writeFile_of_save hfirst
  have hsecond : outcome (save ['.'] answersName (Sheet.ofAnswers [p])) half =
      (.error (.storage "./Answers.txt".toList .isDirectory), half) := by
    rw [outcome_save, Machine.ensureDirectory_of_isDirectory fun hdirectory =>
      Disk.isDirectory_of_writeFile isName_statementsName hdirectory hwritten]
    rfl
  refine ⟨p, half, ?_, ?_⟩
  · have hopened : outcome (execute oneExercise) blocked =
        outcome (generateFrom oneExercise 1 10 (.ofSeed 2)) blocked :=
      outcome_bind _ _ blocked
    have hnoted : ∀ text, outcome (note oneExercise text) blocked = (.ok (), blocked) :=
      fun _ => rfl
    rw [hopened, generateFrom, outcome_bind, hnoted]
    dsimp only
    rw [hdrawn]
    dsimp only
    rw [outcome_bind, oneExercise, hfirst]
    dsimp only
    rw [outcome_bind, hsecond]
  · rw [hstatements]
    rfl

/-- A run on accepted arguments that fails can replace the content of a file. -/
theorem failed_run_replaces_statements :
    Options.parse ["-r".toList, "10".toList, "-n".toList, "1".toList, "--graine".toList,
        "2".toList] = .ok { bound := some 10, count := some 1, seed := some 2 } ∧
      Settings.ofOptions { bound := some 10, count := some 1, seed := some 2 } = .ok oneExercise ∧
      ∃ m', outcome (execute oneExercise) blocked =
          (.error (.storage "./Answers.txt".toList .isDirectory), m') ∧
        m'.disk.content? [statementsName] ≠ blocked.disk.content? [statementsName] := by
  obtain ⟨p, m', hfailed, hstatements⟩ := execute_blocked
  refine ⟨by decide +kernel, by decide +kernel, m', hfailed, ?_⟩
  intro hsame
  have hold : blocked.disk.content? [statementsName] = some (Text.toBytes "2. 3 = \n".toList) := rfl
  rw [hstatements, hold] at hsame
  have htext := congrArg Text.ofBytes? (Option.some.inj hsame)
  rw [Text.ofBytes?_toBytes, Text.ofBytes?_toBytes] at htext
  -- A new sheet starts with the number one.
  cases Option.some.inj htext

/-- The same run leaves the statements of its batch and a directory in place of its answers. -/
theorem failed_run_contents_blocked :
    ∃ fault m', outcome (execute oneExercise) blocked = (.error fault, m') ∧
      (m'.disk.content? = blocked.disk.content? ∨ ∃ batch, HalfSaved Disk.place oneExercise batch
        fault blocked.disk.content? m'.disk.content?) ∧
      (m'.disk.content? = blocked.disk.content? ∨
        (∃ batch, HalfSaved Disk.place oneExercise batch fault blocked.disk.content?
          m'.disk.content?) ∧
        fault = .storage (Path.child oneExercise.directory answersName) .isDirectory ∧
        m'.disk.node? (Disk.place (Path.child oneExercise.directory answersName)) =
          some .directory) := by
  obtain ⟨p, m', hfailed, -⟩ := execute_blocked
  obtain ⟨hhosts, hmachines⟩ := failed_run_contents
  refine ⟨_, m', hfailed, ?_, hmachines oneExercise blocked m' _ hfailed⟩
  exact hhosts Machine Place Disk.place (fun m => m.disk.content?) Machine.keepsContents oneExercise
    blocked m' _ hfailed

end Run

end FractionDrill
