import Mathlib.Data.String.Basic
import PolicyGradient.Proofs.MetricsFile

/-!
Names in directories.

The names of a location are what stands between its slashes (`Files.names_eq`), so a name in a
directory leads on from where the directory lies, however its location is written
(`Files.destination_inside`).  The metrics of a directory and those of a directory in it are then
different files (`metricsPath_inside_ne`).
-/

namespace PolicyGradient

namespace Files

open String

/-- The names found from a place on, with what has been passed of the name at that place. -/
theorem splitOnAux_slash (before passed rest : List Char) (names : List String) :
    splitOnAux (ofList (before ++ passed ++ rest)) "/" ⟨utf8Len before⟩
        ⟨utf8Len (before ++ passed)⟩ 0 names =
      names.reverse ++ (List.splitOnPPrepend (· == '/') rest passed.reverse).map ofList := by
  induction rest generalizing before passed names with
  | nil =>
      have hend : Pos.Raw.atEnd (ofList (before ++ passed ++ []))
          ⟨utf8Len (before ++ passed)⟩ = true := by
        simp [Pos.Raw.atEnd, ← utf8Len_toList]
      have hextract := extract_of_valid before passed []
      rw [← utf8Len_append] at hextract
      rw [splitOnAux, if_pos hend, hextract]
      simp
  | cons c rest ih =>
      have hinside : ¬ Pos.Raw.atEnd (ofList (before ++ passed ++ c :: rest))
          ⟨utf8Len (before ++ passed)⟩ = true := by
        have hsize := c.utf8Size_pos
        simp only [Pos.Raw.atEnd, ← utf8Len_toList, toList_ofList, utf8Len_append, utf8Len_cons,
          decide_eq_true_eq]
        omega
      have hnext := next_of_valid (before ++ passed) c rest
      have hlength : utf8Len (before ++ passed) + c.utf8Size =
          utf8Len (before ++ passed ++ [c]) := by
        rw [utf8Len_append (before ++ passed), utf8Len_cons, utf8Len_nil, Nat.zero_add]
      rw [hlength] at hnext
      rw [splitOnAux, if_neg hinside, get_of_valid (before ++ passed) (c :: rest), List.headD_cons]
      by_cases hc : c = '/'
      · subst hc
        have hfirst : Pos.Raw.get "/" 0 = '/' := rfl
        have hone : Pos.Raw.next "/" 0 = ⟨1⟩ := rfl
        have hlast : Pos.Raw.atEnd "/" ⟨1⟩ = true := rfl
        have hback : Pos.Raw.unoffsetBy ⟨utf8Len (before ++ passed ++ ['/'])⟩ ⟨1⟩ =
            ⟨utf8Len (before ++ passed)⟩ := by
          rw [Pos.Raw.unoffsetBy, ← hlength]
          rfl
        have hextract := extract_of_valid before passed ('/' :: rest)
        rw [← utf8Len_append] at hextract
        rw [hfirst, if_pos (beq_self_eq_true '/'), hone, hnext]
        dsimp only
        rw [if_pos hlast, hback, hextract]
        have hrest := ih (before ++ passed ++ ['/']) [] (ofList passed :: names)
        simp only [List.append_nil, List.append_assoc, List.singleton_append] at hrest ⊢
        rw [hrest]
        simp [List.splitOnPPrepend_cons_eq_if]
      · have hback : Pos.Raw.unoffsetBy ⟨utf8Len (before ++ passed)⟩ 0 =
            ⟨utf8Len (before ++ passed)⟩ := rfl
        have hdiffer : ¬ (c == Pos.Raw.get "/" 0) = true := by
          rw [beq_iff_eq]
          exact hc
        rw [if_neg hdiffer, hback, hnext]
        have hrest := ih before (passed ++ [c]) names
        simp only [List.append_assoc, List.singleton_append] at hrest ⊢
        rw [hrest]
        simp [List.splitOnPPrepend_cons_eq_if, hc]

/-- The names in a location are the parts between its slashes. -/
theorem names_eq (location : String) :
    names location = (location.toList.splitOn '/').map ofList := by
  have hslash : ("/" == "") = false := by decide
  have hparts := splitOnAux_slash [] [] location.toList []
  rw [names, splitOn, hslash, List.splitOn_eq_splitOnP]
  simpa using hparts

theorem names_of_not_mem {name : String} (hname : '/' ∉ name.toList) : names name = [name] := by
  rw [names_eq, List.splitOn_eq_singleton hname, List.map_singleton, ofList_toList]

/-- A name that follows a slash is the last one of the location. -/
theorem names_append {location dir name : String} (hname : '/' ∉ name.toList)
    (hlocation : location.toList = dir.toList ++ '/' :: name.toList) :
    names location = names dir ++ [name] := by
  rw [names_eq, hlocation, List.splitOn_append_cons_self, List.map_append, ← names_eq, ← names_eq,
    names_of_not_mem hname]

theorem destination_append {location dir name : String} (hname : '/' ∉ name.toList)
    (hlocation : location.toList = dir.toList ++ '/' :: name.toList) :
    destination location = child (destination dir) name := by
  rw [destination, names_append hname hlocation, List.foldl_concat]
  rfl

/-- A slash at the end of a location leads nowhere else. -/
theorem destination_slash {location dir : String}
    (hlocation : location.toList = dir.toList ++ ['/']) :
    destination location = destination dir := by
  have hempty : '/' ∉ ("" : String).toList := by decide
  rw [destination_append hempty hlocation]
  rfl

/-- A name in a directory leads from where the directory lies. -/
theorem destination_inside (dir : String) {name : String} (hname : '/' ∉ name.toList) :
    destination (Learner.inside dir name) = child (destination dir) name := by
  rw [Learner.inside]
  by_cases hempty : dir = ""
  · have hroot : destination "" = [] := by
      have hnone : '/' ∉ ("" : String).toList := by decide
      rw [destination, names_of_not_mem hnone]
      rfl
    rw [if_pos (Or.inl hempty), hempty, String.empty_append, hroot, destination,
      names_of_not_mem hname]
    rfl
  · by_cases hslash : dir.endsWith "/" = true
    · have hsuffix : ("/" : String).toList <:+ dir.toSlice.copy.toList :=
        String.Slice.endsWith_string_iff.mp hslash
      rw [String.copy_toSlice] at hsuffix
      obtain ⟨before, hbefore⟩ := hsuffix
      rw [if_pos (Or.inr hslash)]
      have hdir : dir.toList = (ofList before).toList ++ ['/'] := by
        rw [toList_ofList]
        exact hbefore.symm
      have hlocation : (dir ++ name).toList = (ofList before).toList ++ '/' :: name.toList := by
        rw [toList_append, hdir, List.append_assoc]
        rfl
      rw [destination_append hname hlocation, destination_slash hdir]
    · have hdir : ¬ (dir = "" ∨ dir.endsWith "/" = true) := not_or.mpr ⟨hempty, hslash⟩
      rw [if_neg hdir]
      apply destination_append hname
      rw [toList_append, toList_append, List.append_assoc]
      rfl

end Files

/-- The metrics file lies in its directory. -/
theorem metricsPath_eq (dir : String) :
    metricsPath dir = Files.destination dir ++ [Learner.metricsFile] := by
  have hname : '/' ∉ Learner.metricsFile.toList := by decide
  have hchild : Files.child (Files.destination dir) Learner.metricsFile =
      Files.destination dir ++ [Learner.metricsFile] := rfl
  rw [metricsPath, Files.destination_inside dir hname, hchild]

/-- A directory and one in it have different metrics files. -/
theorem metricsPath_inside_ne (dir : String) {name : String} (hslash : '/' ∉ name.toList)
    (hname : Files.isName name = true) :
    metricsPath (Learner.inside dir name) ≠ metricsPath dir := by
  intro hsame
  rw [metricsPath_eq, metricsPath_eq, Files.destination_inside dir hslash,
    Files.child_of_isName hname] at hsame
  have hlength := congrArg List.length hsame
  simp at hlength

end PolicyGradient
