import FractionDrill.Run

/-!
# Steps of runs

A run from a state ends in a state, with a result or with a fault. Two steps end
where the second one does, or where the first one fails. A property of states that
every service of a host but writing keeps holds as long as a run has written
nothing, so the places where a run can fail tell what it leaves behind.
-/
namespace FractionDrill

namespace Host

variable {σ α β : Type} {P : σ → Prop}

/-- Whether a computation keeps a property of states. -/
def Keeps (P : σ → Prop) (x : StateM σ α) : Prop := ∀ s, P s → P (x.run s).2

theorem keeps_pure (a : α) : Keeps P (pure a : StateM σ α) := fun _ hs => hs

theorem Keeps.bind {x : StateM σ α} {f : α → StateM σ β} (hx : Keeps P x)
    (hf : ∀ a, Keeps P (f a)) : Keeps P (x >>= f) :=
  fun s hs => hf _ _ (hx s hs)

variable [Host (StateM σ)]

/-- Whether the services that a run uses, but for writing, keep a property of states. -/
structure KeptByServices (P : σ → Prop) : Prop where
  readFile : ∀ path, Keeps P (Host.readFile path : StateM σ _)
  makeDirectory : ∀ path, Keeps P (Host.makeDirectory path : StateM σ _)
  isDirectory : ∀ path, Keeps P (Host.isDirectory path : StateM σ Bool)
  print : ∀ text, Keeps P (Host.print text : StateM σ Unit)
  log : ∀ text, Keeps P (Host.log text : StateM σ Unit)
  freshKey : Keeps P (Host.freshKey : StateM σ Key)

theorem keeps_settleDirectory (hP : KeptByServices P) (path : Path)
    (made : Except StorageFault Unit) : Keeps P (settleDirectory path made : StateM σ _) := by
  cases made with
  | ok _ => exact keeps_pure _
  | error fault =>
    refine (hP.isDirectory path).bind fun there => ?_
    split
    · exact keeps_pure _
    · exact keeps_pure _

theorem keeps_ensureDirectory (hP : KeptByServices P) (pieces : List Text) :
    Keeps P (ensureDirectory pieces : StateM σ _) := by
  induction pieces using ensureDirectory.induct with
  | case1 pieces path hempty =>
    rw [ensureDirectory, dif_pos hempty]
    exact keeps_pure _
  | case2 pieces path hempty _ ih =>
    rw [ensureDirectory, dif_neg hempty]
    refine (hP.makeDirectory path).bind fun made => ?_
    split
    · refine ih.bind fun above => ?_
      split
      · exact keeps_pure _
      · exact (hP.makeDirectory path).bind fun again => keeps_settleDirectory hP path again
    · exact keeps_settleDirectory hP path _

end Host

namespace Run

variable {σ α β : Type}

/-- The end of a run from a state. -/
def outcome (r : Run (StateM σ) α) (s : σ) : Except RunFault α × σ := r.run.run s

theorem outcome_bind (r : Run (StateM σ) α) (f : α → Run (StateM σ) β) (s : σ) :
    outcome (r >>= f) s =
      match outcome r s with
      | (.ok a, s') => outcome (f a) s'
      | (.error fault, s') => (.error fault, s') := by
  unfold outcome
  rw [ExceptT.run_bind, StateT.run_bind]
  rcases r.run.run s with ⟨_ | a, s'⟩ <;> rfl

theorem outcome_bind_error {r : Run (StateM σ) α} {f : α → Run (StateM σ) β} {s s' : σ}
    {fault : RunFault} (h : outcome (r >>= f) s = (.error fault, s')) :
    outcome r s = (.error fault, s') ∨
      ∃ a t, outcome r s = (.ok a, t) ∧ outcome (f a) t = (.error fault, s') := by
  rw [outcome_bind] at h
  rcases hr : outcome r s with ⟨_ | a, t⟩
  · rw [hr] at h
    cases h
    exact .inl rfl
  · rw [hr] at h
    exact .inr ⟨a, t, rfl, h⟩

/-- A service of the host is a step that does not fail. -/
theorem outcome_lift (x : StateM σ α) (s : σ) :
    outcome (ExceptT.lift x : Run (StateM σ) α) s = (.ok (x.run s).1, (x.run s).2) := rfl

theorem outcome_onPath (path : Path) (x : StateM σ (Except StorageFault α)) (s : σ) :
    outcome (onPath path x) s = ((x.run s).1.mapError (.storage path), (x.run s).2) := rfl

/-- Whether a run keeps a property of states, however it ends. -/
def Keeps (P : σ → Prop) (r : Run (StateM σ) α) : Prop := Host.Keeps P r.run

/-- Whether a run keeps a property of states where it fails. -/
def FailureKeeps (P : σ → Prop) (r : Run (StateM σ) α) : Prop :=
  ∀ s fault s', P s → outcome r s = (.error fault, s') → P s'

/-- Whether a run has a result from every state. -/
def Succeeds (r : Run (StateM σ) α) : Prop := ∀ s, ∃ a s', outcome r s = (.ok a, s')

variable {P : σ → Prop} {r : Run (StateM σ) α} {f : α → Run (StateM σ) β}

theorem keeps_pure (a : α) : Keeps P (pure a : Run (StateM σ) α) := Host.keeps_pure _

theorem keeps_throw (fault : RunFault) : Keeps P (throw fault : Run (StateM σ) α) :=
  Host.keeps_pure _

theorem keeps_lift {x : StateM σ α} (h : Host.Keeps P x) :
    Keeps P (ExceptT.lift x : Run (StateM σ) α) :=
  h.bind fun _ => Host.keeps_pure _

theorem keeps_onPath (path : Path) {x : StateM σ (Except StorageFault α)} (h : Host.Keeps P x) :
    Keeps P (onPath path x) :=
  h.bind fun _ => Host.keeps_pure _

theorem Keeps.bind (hr : Keeps P r) (hf : ∀ a, Keeps P (f a)) : Keeps P (r >>= f) := by
  refine Host.Keeps.bind (f := ExceptT.bindCont f) hr fun result => ?_
  cases result with
  | ok a => exact hf a
  | error fault => exact Host.keeps_pure _

theorem Keeps.forM {items : List α} {step : α → Run (StateM σ) Unit}
    (h : ∀ a, Keeps P (step a)) : Keeps P (items.forM step) := by
  induction items with
  | nil => exact keeps_pure _
  | cons a rest ih => exact (h a).bind fun _ => ih

theorem Keeps.of_outcome (h : Keeps P r) {s s' : σ} {result : Except RunFault α} (hs : P s)
    (hend : outcome r s = (result, s')) : P s' := by
  have hkept : P (outcome r s).2 := h s hs
  rwa [hend] at hkept

/-- A run that keeps a property may go on before it fails. -/
theorem Keeps.failureKeeps_bind (hr : Keeps P r) (hf : ∀ a, FailureKeeps P (f a)) :
    FailureKeeps P (r >>= f) := by
  intro s fault s' hs hend
  rcases outcome_bind_error hend with h | ⟨a, t, ha, h⟩
  · exact hr.of_outcome hs h
  · exact hf a t fault s' (hr.of_outcome hs ha) h

theorem Succeeds.ne_error (h : Succeeds r) {s s' : σ} {fault : RunFault} :
    outcome r s ≠ (.error fault, s') := by
  obtain ⟨a, t, hok⟩ := h s
  rw [hok]
  nofun

/-- A run that can only fail in its first step keeps what that step does. -/
theorem FailureKeeps.bind (hr : FailureKeeps P r) (hf : ∀ a, Succeeds (f a)) :
    FailureKeeps P (r >>= f) := by
  intro s fault s' hs hend
  rcases outcome_bind_error hend with h | ⟨a, t, -, h⟩
  · exact hr s fault s' hs h
  · exact absurd h (hf a).ne_error

theorem succeeds_lift (x : StateM σ α) : Succeeds (ExceptT.lift x : Run (StateM σ) α) :=
  fun s => ⟨_, _, outcome_lift x s⟩

theorem Succeeds.bind (hr : Succeeds r) (hf : ∀ a, Succeeds (f a)) : Succeeds (r >>= f) := by
  intro s
  obtain ⟨a, t, ha⟩ := hr s
  obtain ⟨b, t', hb⟩ := hf a t
  exact ⟨b, t', by rw [outcome_bind, ha]; exact hb⟩

variable [Host (StateM σ)]

/-- What is no fault needs no path. -/
theorem mapError_ok {ε ε' : Type} (f : ε → ε') (a : α) :
    (Except.ok a : Except ε α).mapError f = .ok a := rfl

/-- All that saving a file can do: its directory cannot be made, it cannot be written, or both
succeed. -/
theorem outcome_save (directory name : Path) (content : Text) (s : σ) :
    outcome (save directory name content) s =
      match (Host.ensureDirectory directory.pieces : StateM σ _).run s with
      | (.error fault, t) => (.error (.storage directory fault), t)
      | (.ok (), t) =>
          match (Host.writeFile (Path.child directory name) (Text.toBytes content) :
            StateM σ _).run t with
          | (.error fault, t') => (.error (.storage (Path.child directory name) fault), t')
          | (.ok (), t') => (.ok (Path.child directory name), t') := by
  rw [save, outcome_bind, outcome_onPath]
  rcases (Host.ensureDirectory directory.pieces : StateM σ _).run s with ⟨fault | _, t⟩
  · rfl
  · rw [mapError_ok]
    dsimp only
    rw [outcome_bind, outcome_onPath]
    rcases (Host.writeFile (Path.child directory name) (Text.toBytes content) :
      StateM σ _).run t with ⟨fault | _, t'⟩ <;> rfl

/-- A fault in saving a file names its directory or the file. -/
theorem fault_of_save {directory name : Path} {content : Text} {s s' : σ} {fault : RunFault}
    (h : outcome (save directory name content) s = (.error fault, s')) :
    ∃ f, fault = .storage directory f ∨ fault = .storage (Path.child directory name) f := by
  rw [outcome_save] at h
  split at h
  · cases h
    exact ⟨_, .inl rfl⟩
  · split at h
    · cases h
      exact ⟨_, .inr rfl⟩
    · cases h

theorem keeps_note (hP : Host.KeptByServices P) (settings : Settings) (text : Text) :
    Keeps P (note settings text : Run (StateM σ) Unit) := by
  unfold note
  split
  · exact keeps_lift (hP.log text)
  · exact keeps_pure _

theorem succeeds_note (settings : Settings) (text : Text) :
    Succeeds (note settings text : Run (StateM σ) Unit) := by
  unfold note
  split
  · exact succeeds_lift _
  · exact fun s => ⟨(), s, rfl⟩

theorem keeps_readSheet (hP : Host.KeptByServices P) (path : Path) :
    Keeps P (readSheet path : Run (StateM σ) (List Entry)) := by
  have hread : Keeps P (readText path : Run (StateM σ) Text) := by
    refine (keeps_onPath path (hP.readFile path)).bind fun content => ?_
    split
    · exact keeps_pure _
    · exact keeps_throw _
  refine hread.bind fun text => ?_
  split
  · exact keeps_pure _
  · exact keeps_throw _

/-- The sources from which a run may start that wants this seed, or none. -/
def StartsFrom : Option UInt64 → Keystream → Prop
  | some seed, source => source = .ofSeed seed
  | none, source => ∃ key, source = .ofKey key

theorem startsFrom_openSource (hP : Host.KeptByServices P) (seed : Option UInt64) {s : σ}
    (hs : P s) : StartsFrom seed ((openSource seed : StateM σ Keystream).run s).1 ∧
      P ((openSource seed : StateM σ Keystream).run s).2 := by
  cases seed with
  | some seed => exact ⟨rfl, hs⟩
  | none => exact ⟨⟨_, rfl⟩, hP.freshKey s hs⟩

/-- The places where a run that generates can fail. What the services keep still holds where the
first file is saved. -/
inductive GenerateFails (P : σ → Prop) (settings : Settings) (count : Nat) (bound : Int)
    (source : Keystream) (fault : RunFault) (s' : σ) : Prop where
  | drawing {f : Fault} (drawn : drawBatch count bound source = .error f) (core : fault = .core f)
      (kept : P s')
  | statements {batch : List Problem} {t : σ} (drawn : drawBatch count bound source = .ok batch)
      (kept : P t) (failed : outcome (save settings.directory statementsName
        (Sheet.ofStatements batch)) t = (.error fault, s'))
  | answers {batch : List Problem} {t t' : σ} {path : Path}
      (drawn : drawBatch count bound source = .ok batch) (kept : P t)
      (saved : outcome (save settings.directory statementsName (Sheet.ofStatements batch)) t =
        (.ok path, t'))
      (failed : outcome (save settings.directory answersName (Sheet.ofAnswers batch)) t' =
        (.error fault, s'))

theorem generate_fails (hP : Host.KeptByServices P) {settings : Settings} {count : Nat}
    {bound : Int} {s s' : σ} {fault : RunFault} (hs : P s)
    (h : outcome (generate settings count bound) s = (.error fault, s')) :
    ∃ source, StartsFrom settings.seed source ∧
      GenerateFails P settings count bound source fault s' := by
  obtain ⟨hstarts, ht⟩ := startsFrom_openSource hP settings.seed hs
  rw [generate, outcome_bind, outcome_lift] at h
  refine ⟨_, hstarts, ?_⟩
  generalize ((openSource settings.seed : StateM σ Keystream).run s).1 = source at h ⊢
  rcases outcome_bind_error h with h | ⟨_, u, hnoted, h⟩
  · exact absurd h (succeeds_note settings _).ne_error
  have hu : P u := (keeps_note hP settings _).of_outcome ht hnoted
  cases hdrawn : drawBatch count bound source with
  | error f =>
    rw [hdrawn] at h
    cases h
    exact .drawing hdrawn rfl hu
  | ok batch =>
    rw [hdrawn] at h
    rcases outcome_bind_error h with h | ⟨path, t', hsaved, h⟩
    · exact .statements hdrawn hu h
    · rcases outcome_bind_error h with h | ⟨_, _, -, h⟩
      · exact .answers hdrawn hu hsaved h
      · exact absurd h (succeeds_lift _).ne_error

end Run
end FractionDrill
