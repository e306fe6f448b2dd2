import FractionDrill.Proofs.Storage.Disk

/-!
# Files beside each other

Two names in one directory make paths that differ in their last piece alone. So
where a file was written, nothing but a directory of its name keeps a second file
from being written beside it, provided that its name is no longer.
-/
namespace FractionDrill

namespace Text

theorem byteSize_cons (c : Char) (t : Text) : byteSize (c :: t) = c.utf8Size + byteSize t := rfl

theorem byteSize_append (s t : Text) : byteSize (s ++ t) = byteSize s + byteSize t := by
  induction s with
  | nil => simp [byteSize]
  | cons c rest ih => rw [List.cons_append, byteSize_cons, byteSize_cons, ih, Nat.add_assoc]

end Text

namespace Path

/-- A piece that can name a file on a machine. -/
structure IsName (name : Path) : Prop where
  noSlash : '/' ∉ name
  noNul : '\x00' ∉ name
  notIdle : isIdle name = false
  notUp : name ≠ Disk.up
  notOverlong : isOverlongName name = false

variable {directory name : Path}

theorem IsName.ne_nil (h : IsName name) : name ≠ [] := by
  rintro rfl
  cases h.notIdle

/-- A name in a directory stands after a slash, which may be the last character of the directory. -/
theorem child_cases (directory : Path) :
    (directory = [] ∧ ∀ name, child directory name = name) ∨
      directory ≠ [] ∧ ∃ stem, (directory = stem ∨ directory = stem ++ ['/']) ∧
        ∀ name, '/' ∉ name → child directory name = stem ++ '/' :: name := by
  by_cases hempty : directory = []
  · refine .inl ⟨hempty, fun name => ?_⟩
    simp [child, hempty]
  · refine .inr ⟨hempty, ?_⟩
    have hhead : ∀ name : Path, '/' ∉ name → name.head? ≠ some '/' :=
      fun name hname hhead => hname (List.mem_of_head? hhead)
    by_cases hlast : directory.getLast? = some '/'
    · obtain ⟨stem, rfl⟩ := List.getLast?_eq_some_iff.mp hlast
      refine ⟨stem, .inr rfl, fun name hname => ?_⟩
      rw [child, if_neg (by simp [hhead name hname]), if_pos hlast, List.append_assoc]
      rfl
    · refine ⟨directory, .inl rfl, fun name hname => ?_⟩
      rw [child, if_neg (by simp [hhead name hname, hempty]), if_neg hlast]

/-- The path of a name does not end in a slash. -/
theorem getLast?_child (h : IsName name) : (child directory name).getLast? ≠ some '/' := by
  have hchild : ∃ front, child directory name = front ++ name := by
    rcases child_cases directory with ⟨-, hchild⟩ | ⟨-, stem, -, hchild⟩
    · exact ⟨[], hchild name⟩
    · exact ⟨stem ++ ['/'], by rw [hchild name h.noSlash]; simp⟩
  obtain ⟨front, hchild⟩ := hchild
  rw [hchild, List.getLast?_append, List.getLast?_eq_some_getLast h.ne_nil, Option.some_or]
  intro hlast
  exact h.noSlash (Option.some.inj hlast ▸ List.getLast_mem h.ne_nil)

/-- The pieces of a directory stand before its names. -/
theorem exists_folder (directory : Path) :
    ∃ folder, (∀ name, '/' ∉ name → pieces (child directory name) = folder ++ [name]) ∧
      (directory = [] ∨ pieces directory = folder ∨ pieces directory = folder ++ [[]]) := by
  rcases child_cases directory with ⟨rfl, hchild⟩ | ⟨-, stem, hstem, hchild⟩
  · refine ⟨[], fun name hname => ?_, .inl rfl⟩
    rw [hchild, pieces, List.splitOn_eq_singleton hname, List.nil_append]
  · refine ⟨pieces stem, fun name hname => ?_, ?_⟩
    · rw [hchild name hname, pieces, List.splitOn_append_cons_self,
        List.splitOn_eq_singleton hname, pieces]
    · rcases hstem with rfl | rfl
      · exact .inr (.inl rfl)
      · refine .inr (.inr ?_)
        rw [pieces, List.splitOn_append_cons_self]
        rfl

end Path

namespace Disk
open FractionDrill.Path

variable {d d' : Disk} {directory name other : Path} {content : ByteArray}

theorem origin_child (hname : '/' ∉ name) : origin (child directory name) = origin directory := by
  have horigin : origin name = origin [] := by
    have hhead : name.head? ≠ some '/' := fun hhead => hname (List.mem_of_head? hhead)
    rw [origin, if_neg hhead, origin, if_neg (by simp)]
  rcases child_cases directory with ⟨rfl, hchild⟩ | ⟨hempty, stem, hstem, hchild⟩
  · rw [hchild, horigin]
  · rw [hchild name hname]
    cases stem with
    | nil =>
      rcases hstem with rfl | rfl
      · exact absurd rfl hempty
      · rfl
    | cons c rest =>
      rcases hstem with rfl | rfl
      · rfl
      · rfl

/-- No path is refused for its text where a longer one is not, but for the character that ends
a path. -/
theorem screen_of_le {p q : Path} (h : screen p = .ok ()) (hnul : '\x00' ∈ q → '\x00' ∈ p)
    (hsize : Text.byteSize q ≤ Text.byteSize p) (hq : q ≠ []) : screen q = .ok () := by
  unfold screen at h ⊢
  split at h
  · cases h
  · rename_i hp
    split at h
    · cases h
    · split at h
      · cases h
      · rename_i hlong
        have hclean : ¬q.hasNul = true := by
          intro hq
          exact hp (List.contains_iff_mem.mpr (hnul (List.contains_iff_mem.mp hq)))
        have hshort : ¬isOverlong q = true := by
          simp only [isOverlong, decide_eq_true_eq] at hlong ⊢
          omega
        rw [if_neg hclean, if_neg (by simpa using hq), if_neg hshort]

theorem screen_child (hname : IsName name) (hother : IsName other)
    (hsize : Text.byteSize other ≤ Text.byteSize name)
    (h : screen (child directory name) = .ok ()) : screen (child directory other) = .ok () := by
  rcases child_cases directory with ⟨-, hchild⟩ | ⟨-, stem, -, hchild⟩
  · rw [hchild] at h ⊢
    exact screen_of_le h (fun hnul => absurd hnul hother.noNul) hsize hother.ne_nil
  · rw [hchild name hname.noSlash] at h
    rw [hchild other hother.noSlash]
    refine screen_of_le h (fun hnul => ?_) ?_ (by simp)
    · have hstem : '\x00' ∈ stem := by simpa [hother.noNul] using hnul
      exact List.mem_append_left _ hstem
    · rw [Text.byteSize_append, Text.byteSize_append, Text.byteSize_cons, Text.byteSize_cons]
      omega

theorem screen_directory (hname : '/' ∉ name) (hdirectory : directory ≠ [])
    (h : screen (child directory name) = .ok ()) : screen directory = .ok () := by
  rcases child_cases directory with ⟨hempty, -⟩ | ⟨-, stem, hstem, hchild⟩
  · exact absurd hempty hdirectory
  · have hchars : ∃ rest, stem ++ '/' :: name = directory ++ rest := by
      rcases hstem with rfl | rfl
      · exact ⟨_, rfl⟩
      · exact ⟨name, by simp⟩
    obtain ⟨rest, hchars⟩ := hchars
    rw [hchild name hname, hchars] at h
    refine screen_of_le h (List.mem_append_left _) ?_ hdirectory
    rw [Text.byteSize_append]
    exact Nat.le_add_right _ _

theorem target_of_pieces {p : Path} {folder : List Text} (hname : IsName name)
    (hscreen : screen p = .ok ()) (hpieces : p.pieces = folder ++ [name]) :
    d.target p = (d.follow (origin p) (folder ++ [[]])).map fun here => some (here ++ [name]) := by
  have hidle := hname.notIdle
  simp only [isIdle, Bool.or_eq_false_iff, beq_eq_false_iff_ne] at hidle
  rw [target, hscreen, Fault.ok_bind, hpieces, List.reverse_append, List.reverse_singleton,
    List.singleton_append, List.dropWhile_cons_of_neg (by simp [hidle.1])]
  simp only [List.reverse_reverse, hidle.2, hname.notUp, or_self, if_false]
  cases d.follow (origin p) (folder ++ [[]]) <;> rfl

/-- Where a file was written, its directory is still reached, and holds it under its name. -/
theorem reached_of_writeFile (hname : IsName name)
    (h : d.writeFile (child directory name) content = .ok d') :
    screen (child directory name) = .ok () ∧ ∃ folder here,
      (∀ name, '/' ∉ name → pieces (child directory name) = folder ++ [name]) ∧
      (directory = [] ∨ pieces directory = folder ∨ pieces directory = folder ++ [[]]) ∧
      here.any isOverlongName = false ∧
      d'.follow (origin directory) (folder ++ [[]]) = .ok here := by
  obtain ⟨htarget, -, hshort, hnode, rfl⟩ := writeFile_eq_ok h
  obtain ⟨_, hscreen, -⟩ := Fault.bind_eq_ok_iff.mp htarget
  obtain ⟨folder, hpieces, hdirectory⟩ := exists_folder directory
  rw [target_of_pieces hname hscreen (hpieces name hname.noSlash), origin_child hname.noSlash]
    at htarget
  cases hfollow : d.follow (origin directory) (folder ++ [[]]) with
  | error fault =>
    rw [hfollow] at htarget
    cases htarget
  | ok here =>
    rw [hfollow] at htarget
    have hplace : here ++ [name] = place (child directory name) :=
      Option.some.inj (Except.ok.inj htarget)
    rw [← hplace, List.any_append, Bool.or_eq_false_iff] at hshort
    exact ⟨hscreen, folder, here, hpieces, hdirectory, hshort.1, follow_put hnode hfollow⟩

/-- The directory in which a file was written is one. -/
theorem isDirectory_of_writeFile (hname : IsName name) (hdirectory : directory ≠ [])
    (h : d.writeFile (child directory name) content = .ok d') :
    d'.isDirectory directory = true := by
  obtain ⟨hscreen, folder, here, -, hpieces, -, hreached⟩ := reached_of_writeFile hname h
  obtain ⟨above, hfolder, hnode, -, rfl⟩ := follow_snoc_eq_ok.mp hreached
  rw [enter_nil] at hreached
  have hfollow : d'.follow (origin directory) directory.pieces = .ok above := by
    rcases hpieces with hempty | hpieces | hpieces
    · exact absurd hempty hdirectory
    · rw [hpieces, hfolder]
    · rw [hpieces, hreached]
  rw [isDirectory, locate, screen_directory hname.noSlash hdirectory hscreen, Fault.ok_bind,
    hfollow]
  simp [hnode]

/-- Beside a file that was written, only a directory is in the way of another one. -/
theorem fault_beside (hname : IsName name) (hother : IsName other)
    (hsize : Text.byteSize other ≤ Text.byteSize name)
    (h : d.writeFile (child directory name) content = .ok d') {second : ByteArray}
    {fault : StorageFault} (hfault : d'.writeFile (child directory other) second = .error fault) :
    fault = .isDirectory ∧ d'.node? (place (child directory other)) = some .directory := by
  obtain ⟨hscreen, folder, here, hpieces, -, hshort, hreached⟩ := reached_of_writeFile hname h
  have htarget : d'.target (child directory other) = .ok (some (here ++ [other])) := by
    rw [target_of_pieces hother (screen_child hname hother hsize hscreen)
      (hpieces other hother.noSlash), origin_child hother.noSlash, hreached]
    rfl
  have hnames : ¬(here ++ [other]).any isOverlongName = true := by
    simp [List.any_append, hshort, hother.notOverlong]
  rw [writeFile, htarget, Fault.ok_bind] at hfault
  simp only [if_neg (getLast?_child hother), if_neg hnames] at hfault
  rw [← place_of_target htarget]
  split at hfault
  · rename_i hnode
    cases hfault
    exact ⟨rfl, hnode⟩
  · cases hfault

end Disk
end FractionDrill
