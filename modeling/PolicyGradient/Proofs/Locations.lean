import PolicyGradient.Proofs.Rows

/-!
Where locations lead.

A file that can be written to lies where the names of its location lead (`Files.of_locate`), and to
create directories leaves the content of all files (`Files.content_createDirectories`).
-/

namespace PolicyGradient

open Outcome

namespace Files

/-- The names in a location, as far as they are found in `n` steps. -/
def namesWithin (location : String) :
    Nat → String.Pos.Raw → String.Pos.Raw → String.Pos.Raw → List String → Option (List String)
  | 0, _, _, _, _ => none
  | n + 1, start, here, found, names =>
      if here.atEnd location then some (start.extract location here :: names).reverse
      else if here.get location == found.get "/" then
        if (found.next "/").atEnd "/" then
          namesWithin location n (here.next location) (here.next location) 0
            (start.extract location ((here.next location).unoffsetBy (found.next "/")) :: names)
        else namesWithin location n start (here.next location) (found.next "/") names
      else namesWithin location n start ((here.unoffsetBy found).next location) 0 names

theorem splitOnAux_of_namesWithin {location : String} {n : Nat}
    {start here found : String.Pos.Raw} {names parts : List String}
    (h : namesWithin location n start here found names = some parts) :
    location.splitOnAux "/" start here found names = parts := by
  induction n generalizing start here found names with
  | zero => cases h
  | succ n ih =>
      rw [namesWithin] at h
      rw [String.splitOnAux]
      split at h
      · rw [if_pos ‹_›]
        exact Option.some.inj h
      · rw [if_neg ‹_›]
        split at h
        · rw [if_pos ‹_›]
          dsimp only
          split at h
          · rw [if_pos ‹_›]
            exact ih h
          · rw [if_neg ‹_›]
            exact ih h
        · rw [if_neg ‹_›]
          exact ih h

theorem names_of_namesWithin {location : String} {n : Nat} {parts : List String}
    (h : namesWithin location n 0 0 0 [] = some parts) : names location = parts :=
  splitOnAux_of_namesWithin h

/-- Where a location leads if all its names are there. -/
def destination (location : String) : Path :=
  (names location).foldl child []

theorem enter_eq_ok {files : Files} {dir last : Path} {parts : List String}
    (h : files.enter dir parts = .ok last) : last = parts.foldl child dir := by
  induction parts generalizing dir with
  | nil =>
      cases h
      rfl
  | cons name others ih =>
      rw [enter] at h
      split at h
      · exact ih h
      · cases h

theorem enter_cons {files : Files} {dir : Path} {name : String}
    (h : files.find? (child dir name) = some .directory) (others : List String) :
    files.enter dir (name :: others) = files.enter (child dir name) others := by
  rw [enter, h]

theorem createFrom_cons {files : Files} {dir : Path} {name : String}
    (h : files.find? (child dir name) = some .directory) (others : List String) :
    files.createFrom dir (name :: others) = files.createFrom (child dir name) others := by
  rw [createFrom, h]

/-- A file can be written to where its directory exists and is not in its place. -/
theorem locate_of_enter {files : Files} {location name : String} {before : List String} {dir : Path}
    (hnames : names location = before ++ [name]) (henter : files.enter [] before = .ok dir)
    (hgiven : isLocation location = true) (hname : isName name = true)
    (hfree : files.find? (child dir name) ≠ some .directory) :
    files.locate location = .ok (child dir name) := by
  have hfree : (files.find? (child dir name) != some .directory) = true := bne_iff_ne.mpr hfree
  rw [locate, hnames, List.dropLast_concat, henter, List.getLast?_concat, Option.getD_some]
  simp only [bind, Except.bind, hgiven, hname, hfree, Bool.and_self]
  rfl

/-- A name that a directory can hold leads into the directory. -/
theorem child_of_isName {name : String} (h : isName name = true) (dir : Path) :
    child dir name = dir ++ [name] := by
  simp only [isName, Bool.and_eq_true, Bool.not_eq_true', bne_iff_ne, ne_eq] at h
  obtain ⟨⟨hblank, hparent⟩, _⟩ := h
  rw [child, if_neg (by rw [hblank]; exact Bool.false_ne_true), if_pos hparent]

/-- A file is where its location leads, it lies below the root, and it is no directory. -/
theorem of_locate {files : Files} {location : String} {path : Path}
    (h : files.locate location = .ok path) :
    path = destination location ∧ path.all (· == "..") = false ∧
      files.find? path ≠ some .directory := by
  obtain ⟨dir, hdir, hlast⟩ := bind_eq_ok.mp h
  have henter := enter_eq_ok hdir
  dsimp only at hlast
  split at hlast
  case isFalse => cases hlast
  case isTrue hgiven =>
    cases hlast
    simp only [Bool.and_eq_true, bne_iff_ne, ne_eq] at hgiven
    obtain ⟨⟨_, hname⟩, hnode⟩ := hgiven
    refine ⟨?_, ?_, hnode⟩
    · -- The names are not empty, because the last one is not blank.
      cases hlast : (names location).getLast? with
      | none =>
          rw [hlast] at hname
          cases hname
      | some name =>
          obtain ⟨before, hnames⟩ := List.getLast?_eq_some_iff.mp hlast
          rw [hnames, List.dropLast_concat] at henter
          rw [destination, hnames, List.foldl_concat, henter]
          rfl
    · have hparent : (names location).getLast?.getD "" ≠ ".." := fun hsame => by
        rw [hsame] at hname
        cases hname
      rw [child_of_isName hname, List.all_append, List.all_cons, beq_eq_false_iff_ne.mpr hparent]
      simp

/-- To create a directory where nothing is leaves the content of all files. -/
theorem content_insert_directory {files : Files} {dir : Path} (h : files.find? dir = none)
    (path : Path) : (files.insert dir .directory).content path = files.content path := by
  by_cases hpath : path = dir
  · have hbelow : dir.all (· == "..") = false := by
      by_contra habove
      rw [find?, if_pos (Bool.not_eq_false _ ▸ habove)] at h
      cases h
    rw [hpath, content, content, find?_insert_self files _ hbelow, h]
  · rw [content, content, find?_insert_of_ne files _ hpath]

theorem content_createFrom (files : Files) (dir : Path) (parts : List String) (path : Path) :
    (files.createFrom dir parts).2.content path = files.content path := by
  induction parts generalizing files dir with
  | nil => rfl
  | cons name others ih =>
      rw [createFrom]
      split
      · exact ih _ _
      · rfl
      · next hnone =>
          split
          · rw [ih, content_insert_directory hnone]
          · rfl

theorem content_createDirectories (files : Files) (location : String) (path : Path) :
    (files.createDirectories location).2.content path = files.content path := by
  rw [createDirectories]
  split
  · exact content_createFrom files [] (names location) path
  · rfl

end Files

end PolicyGradient
