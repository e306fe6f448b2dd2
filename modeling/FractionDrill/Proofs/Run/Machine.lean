import FractionDrill.Proofs.Run.Steps
import FractionDrill.Proofs.Storage.Disk

/-!
# Runs on a machine

On a machine the services of a host are the operations of its disk. A sheet in a file
is read as its text is, and changes nothing; a sheet that was saved is in the file
whose path was given, so it is read as the text that was saved.
-/
namespace FractionDrill

namespace Machine

theorem run_readFile (m : Machine) (path : Path) :
    (Host.readFile path : StateM Machine _).run m = (m.disk.readFile path, m) := rfl

theorem run_makeDirectory (m : Machine) (path : Path) :
    (Host.makeDirectory path : StateM Machine _).run m = m.update (m.disk.makeDirectory path) := rfl

theorem run_isDirectory (m : Machine) (path : Path) :
    (Host.isDirectory path : StateM Machine Bool).run m = (m.disk.isDirectory path, m) := rfl

theorem run_writeFile (m : Machine) (path : Path) (content : ByteArray) :
    (Host.writeFile path content : StateM Machine _).run m =
      m.update (m.disk.writeFile path content) := rfl

/-- A directory that is there already needs nothing to be made. -/
theorem ensureDirectory_of_isDirectory {m : Machine} {directory : Path}
    (h : directory ≠ [] → m.disk.isDirectory directory = true) :
    (Host.ensureDirectory directory.pieces : StateM Machine _).run m = (.ok (), m) := by
  have hpath := directory.ofPieces_pieces
  rw [Host.ensureDirectory]
  by_cases hempty : directory = []
  · rw [dif_pos (by rw [hpath, hempty]; rfl)]
    rfl
  · obtain ⟨fault, hmade, hfault⟩ := Disk.makeDirectory_of_isDirectory (h hempty)
    have hsettled : (Host.settleDirectory directory (.error fault) : StateM Machine _).run m =
        (.ok (), m) := by
      rw [Host.settleDirectory, StateT.run_bind, run_isDirectory, h hempty]
      rfl
    rw [dif_neg (by rw [hpath]; simpa using hempty)]
    dsimp only
    rw [hpath, StateT.run_bind, run_makeDirectory, hmade]
    cases fault with
    | notFound => exact absurd rfl hfault
    | _ => exact hsettled

end Machine

namespace Run

/-- A file that a machine has saved was written to a disk, under the path that is given. -/
theorem writeFile_of_save {directory name path : Path} {text : Text} {m m' : Machine}
    (h : outcome (save directory name text) m = (.ok path, m')) :
    path = Path.child directory name ∧
      ∃ d : Disk, d.writeFile path (Text.toBytes text) = .ok m'.disk := by
  rw [outcome_save] at h
  split at h
  · cases h
  · rename_i t _
    rw [Machine.run_writeFile] at h
    cases hwrite : t.disk.writeFile (Path.child directory name) (Text.toBytes text) with
    | error fault =>
      rw [hwrite] at h
      cases h
    | ok d =>
      rw [hwrite] at h
      cases h
      exact ⟨rfl, t.disk, hwrite⟩

/-- A sheet in a file is read as its text is, and the machine stays as it was. -/
theorem outcome_readSheet {m : Machine} {path : Path} {t : Text}
    (h : m.disk.Holds path (Text.toBytes t)) :
    outcome (readSheet path) m = ((Sheet.read t).mapError (.unnumbered path), m) := by
  have hcontent : outcome (onPath path (Host.readFile path)) m = (.ok (Text.toBytes t), m) := by
    rw [outcome_onPath, Machine.run_readFile, Disk.readFile_eq_ok_iff.mpr h]
    rfl
  have htext : outcome (readText path) m = (.ok t, m) := by
    rw [readText, outcome_bind, hcontent]
    dsimp only
    rw [Text.ofBytes?_toBytes]
    rfl
  rw [readSheet, outcome_bind, htext]
  dsimp only
  cases Sheet.read t <;> rfl

theorem holds_of_save {directory name path : Path} {text : Text} {m m' : Machine}
    (h : outcome (save directory name text) m = (.ok path, m')) :
    m'.disk.Holds path (Text.toBytes text) := by
  obtain ⟨-, d, hwritten⟩ := writeFile_of_save h
  exact Disk.holds_of_writeFile hwritten

end Run
end FractionDrill
