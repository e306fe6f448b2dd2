import FractionDrill.Fault
import FractionDrill.Storage.Disk
import Mathlib.Data.List.TakeWhile
import Mathlib.Logic.Function.Basic

/-!
# What operations do to a disk

The place of a path does not depend on what a disk holds; the disk only decides
whether the place can be reached. A file that is written replaces the content of
its place and of no other, and a directory that is made replaces no content. What
could be reached before a file was written can be reached after it, so a second
file beside the first can only be refused where a directory bears its name.
-/
namespace FractionDrill

namespace Path

theorem ofPieces_pieces (p : Path) : ofPieces p.pieces = p := List.intercalate_splitOn '/'

theorem getLast?_ofPieces {pieces : List Text} (h : pieces ≠ []) :
    (ofPieces (pieces ++ [[]])).getLast? = some '/' := by
  induction pieces with
  | nil => exact absurd rfl h
  | cons first rest ih =>
    have hcons : ofPieces (first :: (rest ++ [[]])) = first ++ '/' :: ofPieces (rest ++ [[]]) := by
      rw [ofPieces, List.intercalate_cons_of_ne_nil (by simp), List.append_assoc]
      rfl
    rw [List.cons_append, hcons, List.getLast?_append, List.getLast?_cons]
    by_cases hrest : rest = []
    · rw [hrest]
      rfl
    · rw [ih hrest]
      rfl

end Path

namespace Disk

/-- The place that a path leads to where it leads anywhere. -/
def place (p : Path) : Place := p.pieces.foldl enter (origin p)

/-- The content of the file at a place. -/
def content? (d : Disk) (place : Place) : Option ByteArray :=
  match d.node? place with
  | some (.file content) => some content
  | _ => none

variable {d d' : Disk} {here there : Place} {p : Path}

theorem node?_put_self {place : Place} (h : d.node? place ≠ some .directory) (node : Node) :
    (d.put place node).node? place = some node := by
  unfold node? at h ⊢
  split at h
  · exact absurd rfl h
  · rename_i hplace
    rw [if_neg hplace, put, List.lookup_cons_self]

theorem node?_put_of_ne {place other : Place} (h : other ≠ place) (node : Node) :
    (d.put place node).node? other = d.node? other := by
  have hlookup : ∀ nodes : List (Place × Node),
      (nodes.filter fun entry => entry.1 ≠ place).lookup other = nodes.lookup other := by
    intro nodes
    induction nodes with
    | nil => rfl
    | cons entry rest ih =>
      by_cases hentry : entry.1 = place
      · have hne : (other == entry.1) = false := by
          rw [hentry]
          exact beq_eq_false_iff_ne.mpr h
        rw [List.filter_cons_of_neg (by simpa using hentry), List.lookup_cons, hne, ih]
      · rw [List.filter_cons_of_pos (by simpa using hentry), List.lookup_cons, List.lookup_cons,
          ih]
  have hne : (other == place) = false := beq_eq_false_iff_ne.mpr h
  unfold node? put
  simp only [List.lookup_cons, hne, hlookup]

theorem follow_append (d : Disk) (here : Place) (front back : List Text) :
    d.follow here (front ++ back) = d.follow here front >>= fun there => d.follow there back := by
  induction front generalizing here with
  | nil => rfl
  | cons piece rest ih =>
    rw [List.cons_append, follow, follow]
    split
    · rfl
    · rfl
    · split
      · rfl
      · exact ih _

/-- One more piece is followed from a directory, where a directory could hold it. -/
theorem follow_snoc_eq_ok {front : List Text} {piece : Text} :
    d.follow here (front ++ [piece]) = .ok there ↔
      ∃ above, d.follow here front = .ok above ∧ d.node? above = some .directory ∧
        Path.isOverlongName piece = false ∧ enter above piece = there := by
  rw [follow_append, Fault.bind_eq_ok_iff]
  apply exists_congr
  intro above
  apply and_congr_right
  intro _
  rw [follow]
  split
  · simp [*]
  · simp [*]
  · rename_i habove
    cases hname : Path.isOverlongName piece with
    | true => simp
    | false => simp [habove, follow]

theorem follow_eq_foldl {pieces : List Text} (h : d.follow here pieces = .ok there) :
    there = pieces.foldl enter here := by
  induction pieces generalizing here with
  | nil =>
    cases h
    rfl
  | cons piece rest ih =>
    rw [follow] at h
    split at h
    · cases h
    · cases h
    · split at h
      · cases h
      · exact ih h

/-- A node that takes the place of no directory is in nobody's way. -/
theorem follow_put {place : Place} {node : Node} (hplace : d.node? place ≠ some .directory)
    {pieces : List Text} (h : d.follow here pieces = .ok there) :
    (d.put place node).follow here pieces = .ok there := by
  induction pieces generalizing here with
  | nil => exact h
  | cons piece rest ih =>
    rw [follow] at h
    split at h
    · cases h
    · cases h
    · rename_i hhere
      have hne : here ≠ place := by
        rintro rfl
        exact hplace hhere
      split at h
      · cases h
      · rename_i hname
        rw [follow, node?_put_of_ne hne, hhere]
        simp only [if_neg hname]
        exact ih h

theorem enter_nil (here : Place) : enter here [] = here := rfl

theorem foldl_enter_of_isEmpty {pieces : List Text} (h : ∀ piece ∈ pieces, piece.isEmpty = true)
    (here : Place) : pieces.foldl enter here = here := by
  induction pieces with
  | nil => rfl
  | cons piece rest ih =>
    have hpiece : piece = [] := List.isEmpty_iff.mp (h piece List.mem_cons_self)
    rw [List.foldl_cons, hpiece, enter_nil]
    exact ih fun piece hmem => h piece (List.mem_cons_of_mem _ hmem)

/-- The last piece with a character, the pieces before it and the empty ones after it. -/
theorem exists_idle_of_dropWhile {pieces above : List Text} {name : Text}
    (h : pieces.reverse.dropWhile List.isEmpty = name :: above) :
    name.isEmpty = false ∧ ∃ idle, pieces = above.reverse ++ [name] ++ idle ∧
      ∀ piece ∈ idle, piece.isEmpty = true := by
  have hsplit := List.takeWhile_append_dropWhile (p := List.isEmpty) (l := pieces.reverse)
  have hname := List.head_dropWhile_not List.isEmpty (by rw [h]; exact List.cons_ne_nil _ _)
  simp only [h, List.head_cons] at hname
  refine ⟨hname, (pieces.reverse.takeWhile List.isEmpty).reverse, ?_, ?_⟩
  · rw [h] at hsplit
    have hpieces := congrArg List.reverse hsplit
    rw [List.reverse_append, List.reverse_cons, List.reverse_reverse] at hpieces
    exact hpieces.symm
  · intro piece hpiece
    exact List.mem_takeWhile_imp (List.mem_reverse.mp hpiece)

/-- A path has a target where the directory above its last name is reached. -/
theorem exists_of_target {target : Place} (h : d.target p = .ok (some target)) :
    screen p = .ok () ∧ ∃ above name idle here, p.pieces = above ++ [name] ++ idle ∧
      (∀ piece ∈ idle, piece.isEmpty = true) ∧ d.follow (origin p) above = .ok here ∧
      d.node? here = some .directory ∧ enter here name = target ∧ target = here ++ [name] := by
  obtain ⟨_, hscreen, h⟩ := Fault.bind_eq_ok_iff.mp h
  refine ⟨hscreen, ?_⟩
  split at h
  · cases h
  · rename_i name above hpieces
    obtain ⟨hname, idle, hpieces, hidle⟩ := exists_idle_of_dropWhile hpieces
    obtain ⟨reached, hfollow, h⟩ := Fault.bind_eq_ok_iff.mp h
    split at h
    · cases h
    · rename_i hdots
      cases h
      rw [not_or] at hdots
      obtain ⟨here, hhere, hdirectory, -, rfl⟩ := follow_snoc_eq_ok.mp hfollow
      have henter : enter here name = here ++ [name] := by
        simp [enter, Path.isIdle, hname, hdots.1, hdots.2]
      exact ⟨above.reverse, name, idle, here, hpieces, hidle, hhere, hdirectory, henter, rfl⟩

theorem place_of_target {target : Place} (h : d.target p = .ok (some target)) :
    target = place p := by
  obtain ⟨-, above, name, idle, here, hpieces, hidle, hhere, -, henter, -⟩ := exists_of_target h
  rw [place, hpieces, List.foldl_append, List.foldl_append, ← follow_eq_foldl hhere,
    List.foldl_cons, List.foldl_nil, henter, foldl_enter_of_isEmpty hidle]

theorem writeFile_eq_ok {content : ByteArray} (h : d.writeFile p content = .ok d') :
    d.target p = .ok (some (place p)) ∧ p.getLast? ≠ some '/' ∧
      (place p).any Path.isOverlongName = false ∧ d.node? (place p) ≠ some .directory ∧
      d' = d.put (place p) (.file content) := by
  obtain ⟨target, htarget, h⟩ := Fault.bind_eq_ok_iff.mp h
  cases target with
  | none => cases h
  | some target =>
    cases place_of_target htarget
    simp only at h
    split at h
    · cases h
    · rename_i hlast
      split at h
      · cases h
      · rename_i hnames
        split at h
        · cases h
        · rename_i hnode
          cases h
          exact ⟨htarget, hlast, by simpa using hnames, hnode, rfl⟩

/-- A write that succeeds changes the content of one place. -/
theorem content?_of_writeFile {content : ByteArray} (h : d.writeFile p content = .ok d') :
    d'.content? = Function.update d.content? (place p) (some content) := by
  obtain ⟨-, -, -, hnode, rfl⟩ := writeFile_eq_ok h
  funext other
  by_cases hother : other = place p
  · rw [hother, Function.update_self, content?, node?_put_self hnode]
  · rw [Function.update_of_ne hother, content?, node?_put_of_ne hother, content?]

/-- A path leads to a file with this content. -/
structure Holds (d : Disk) (p : Path) (content : ByteArray) : Prop where
  reached : d.locate p = .ok (place p)
  content_eq : d.content? (place p) = some content

/-- What is read is what the disk holds. -/
theorem readFile_eq_ok_iff {content : ByteArray} :
    d.readFile p = .ok content ↔ d.Holds p content := by
  constructor
  · intro h
    obtain ⟨there, hthere, h⟩ := Fault.bind_eq_ok_iff.mp h
    obtain ⟨_, -, hfollow⟩ := Fault.bind_eq_ok_iff.mp hthere
    cases follow_eq_foldl hfollow
    refine ⟨hthere, ?_⟩
    unfold content?
    split at h
    · cases h
    · cases h
    · rename_i hnode
      cases h
      rw [place, hnode]
  · rintro ⟨hreached, hcontent⟩
    unfold content? at hcontent
    split at hcontent
    · rename_i hnode
      cases hcontent
      rw [readFile, hreached, Fault.ok_bind, hnode]
    · cases hcontent

/-- Only a slash at the end leaves an empty piece there. -/
theorem idle_eq_nil {front idle : List Text} (hfront : front ≠ [])
    (hpieces : p.pieces = front ++ idle) (hidle : ∀ piece ∈ idle, piece.isEmpty = true)
    (hlast : p.getLast? ≠ some '/') : idle = [] := by
  rcases List.eq_nil_or_concat idle with hnil | ⟨init, last, rfl⟩
  · exact hnil
  · have hempty : last = [] := List.isEmpty_iff.mp (hidle last (by simp))
    have hpath := Path.ofPieces_pieces p
    rw [hpieces, hempty, List.concat_eq_append, ← List.append_assoc] at hpath
    rw [← hpath] at hlast
    exact absurd (Path.getLast?_ofPieces (by simp [hfront])) hlast

/-- A file that was written is there. -/
theorem holds_of_writeFile {content : ByteArray} (h : d.writeFile p content = .ok d') :
    d'.Holds p content := by
  obtain ⟨htarget, hlast, hnames, hnode, rfl⟩ := writeFile_eq_ok h
  obtain ⟨hscreen, above, name, idle, here, hpieces, hidle, hhere, hdirectory, henter, hplace⟩ :=
    exists_of_target htarget
  cases idle_eq_nil (by simp) hpieces hidle hlast
  have hname : Path.isOverlongName name = false := by
    rw [hplace, List.any_append, Bool.or_eq_false_iff] at hnames
    simpa using hnames.2
  have hfollow : d.follow (origin p) p.pieces = .ok (place p) := by
    rw [hpieces, List.append_nil]
    exact follow_snoc_eq_ok.mpr ⟨here, hhere, hdirectory, hname, henter⟩
  constructor
  · rw [locate, hscreen, Fault.ok_bind, follow_put hnode hfollow]
  · rw [content?_of_writeFile h, Function.update_self]

theorem content?_of_makeDirectory (h : d.makeDirectory p = .ok d') : d'.content? = d.content? := by
  obtain ⟨target, -, h⟩ := Fault.bind_eq_ok_iff.mp h
  cases target with
  | none => cases h
  | some target =>
    simp only at h
    split at h
    · cases h
    · split at h
      · cases h
      · rename_i hnone
        cases h
        have hnone : d.node? target = none := by simpa using hnone
        funext other
        by_cases hother : other = target
        · rw [hother, content?, content?, hnone, node?_put_self (by rw [hnone]; nofun)]
        · rw [content?, content?, node?_put_of_ne hother]

/-- A directory that is there already is not made, and not for want of one above it. -/
theorem makeDirectory_of_isDirectory (h : d.isDirectory p = true) :
    ∃ fault, d.makeDirectory p = .error fault ∧ fault ≠ .notFound := by
  have hlocate : ∃ there, d.locate p = .ok there ∧ d.node? there = some .directory := by
    unfold isDirectory at h
    split at h
    · rename_i there hthere
      exact ⟨there, hthere, of_decide_eq_true h⟩
    · cases h
  obtain ⟨there, hlocate, hnode⟩ := hlocate
  obtain ⟨_, hscreen, hfollow⟩ := Fault.bind_eq_ok_iff.mp hlocate
  have htarget : ∃ found, d.target p = .ok found := by
    rw [target, hscreen, Fault.ok_bind]
    split
    · exact ⟨none, rfl⟩
    · rename_i name above hpieces
      obtain ⟨-, idle, hpieces, -⟩ := exists_idle_of_dropWhile hpieces
      rw [hpieces, follow_append] at hfollow
      obtain ⟨_, hfront, -⟩ := Fault.bind_eq_ok_iff.mp hfollow
      obtain ⟨here, hhere, hdirectory, -, -⟩ := follow_snoc_eq_ok.mp hfront
      have hreached : d.follow (origin p) (above.reverse ++ [[]]) = .ok here :=
        follow_snoc_eq_ok.mpr ⟨here, hhere, hdirectory, rfl, rfl⟩
      rw [hreached, Fault.ok_bind]
      exact ⟨_, rfl⟩
  obtain ⟨found, htarget⟩ := htarget
  rw [makeDirectory, htarget, Fault.ok_bind]
  cases found with
  | none => exact ⟨_, rfl, nofun⟩
  | some target =>
    have hplace : target = there := (place_of_target htarget).trans (follow_eq_foldl hfollow).symm
    simp only
    split
    · exact ⟨_, rfl, nofun⟩
    · rw [hplace, hnode]
      exact ⟨_, rfl, nofun⟩

end Disk
end FractionDrill
