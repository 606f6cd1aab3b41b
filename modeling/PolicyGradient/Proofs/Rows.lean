import PolicyGradient.Proofs.Reached

/-!
The rows of a table.

A table puts down a row for each step.  Whatever part of it has been written so far, the file and
the text that is held back together grow by just that row (`Table.shown_step`), as long as no other
logger writes to the file (`Loggers.shown_step`).
-/

namespace PolicyGradient

open Decimal (Shown)

variable {α ρ : Type}

namespace Files

/-- A node is replaced at its own path only. -/
theorem find?_insert_of_ne (files : Files) {path other : Path} (node : Node) (h : other ≠ path) :
    (files.insert path node).find? other = files.find? other := by
  have hpair : (path == other) = false := beq_eq_false_iff_ne.mpr h.symm
  have hnodes : (files.nodes.filter fun entry => entry.1 != path).find?
      (fun entry => entry.1 == other) = files.nodes.find? fun entry => entry.1 == other := by
    rw [List.find?_filter]
    congr 1
    funext entry
    by_cases hentry : entry.1 = other
    · simp [hentry, h]
    · simp [hentry]
  simp [find?, insert, List.find?_append, hnodes, hpair]

theorem content_append_of_ne (files : Files) {path other : Path} (text : String)
    (h : other ≠ path) : (files.append path text).content other = files.content other := by
  rw [append, content, find?_insert_of_ne files _ h, content]

end Files

namespace Table

/-- What is in the file of a table, and what the table holds back. -/
def shown (table : Table) (files : Files) : String :=
  files.content table.path ++ table.held

/-- The row of a step. -/
def row [Shown α] [Shown ρ] (record : StepRecord α ρ) : String :=
  String.join (rowPieces record)

/-- What a table shows depends only on the content of its file. -/
theorem shown_congr {table : Table} {path : Path} {files files' : Files}
    (hpath : table.path = path) (h : files'.content path = files.content path) :
    table.shown files' = table.shown files := by
  rw [shown, shown, hpath, h]

theorem path_put (piece : String) (table : Table) (files : Files) :
    (table.put piece files).1.path = table.path := by
  unfold put
  by_cases hfree : room - table.held.utf8ByteSize < piece.utf8ByteSize
  · by_cases hroom : room ≤ piece.utf8ByteSize <;> simp [flush, hfree, hroom]
  · by_cases hroom : room ≤ piece.utf8ByteSize <;> simp [hfree, hroom]

/-- A table writes to its own file only. -/
theorem content_put_of_ne (piece : String) (table : Table) (files : Files) {other : Path}
    (h : other ≠ table.path) : (table.put piece files).2.content other = files.content other := by
  unfold put
  by_cases hfree : room - table.held.utf8ByteSize < piece.utf8ByteSize
  · by_cases hroom : room ≤ piece.utf8ByteSize <;>
      simp [flush, hfree, hroom, Files.content_append_of_ne _ _ h]
  · by_cases hroom : room ≤ piece.utf8ByteSize <;>
      simp [hfree, hroom, Files.content_append_of_ne _ _ h]

theorem path_putAll (pieces : List String) (table : Table) (files : Files) :
    (table.putAll pieces files).1.path = table.path := by
  induction pieces generalizing table files with
  | nil => rfl
  | cons piece pieces ih =>
      have hrest := ih (table.put piece files).1 (table.put piece files).2
      rw [path_put] at hrest
      exact hrest

theorem content_putAll_of_ne (pieces : List String) (table : Table) (files : Files) {other : Path}
    (h : other ≠ table.path) :
    (table.putAll pieces files).2.content other = files.content other := by
  induction pieces generalizing table files with
  | nil => rfl
  | cons piece pieces ih =>
      have hrest := ih (table.put piece files).1 (table.put piece files).2
        (by rw [path_put]; exact h)
      rw [content_put_of_ne piece table files h] at hrest
      exact hrest

/-- Pieces that are put down go behind all that is shown. -/
theorem shown_putAll (pieces : List String) (table : Table) (files : Files)
    (h : table.path.all (· == "..") = false) :
    (table.putAll pieces files).1.shown (table.putAll pieces files).2 =
      table.shown files ++ String.join pieces := by
  induction pieces generalizing table files with
  | nil => simp [putAll]
  | cons piece pieces ih =>
      have hput : (table.put piece files).1.shown (table.put piece files).2 =
          table.shown files ++ piece := by
        rw [shown, path_put]
        exact put_spec piece table files h
      have hrest := ih (table.put piece files).1 (table.put piece files).2
        (by rw [path_put]; exact h)
      rw [hput, String.append_assoc, ← String.join_cons] at hrest
      exact hrest

theorem path_step [Shown α] [Shown ρ] (record : StepRecord α ρ) (table : Table) (files : Files) :
    (table.step record files).1.path = table.path :=
  path_putAll (rowPieces record) table files

theorem content_step_of_ne [Shown α] [Shown ρ] (record : StepRecord α ρ) (table : Table)
    (files : Files) {other : Path} (h : other ≠ table.path) :
    (table.step record files).2.content other = files.content other :=
  content_putAll_of_ne (rowPieces record) table files h

/-- A step adds its row. -/
theorem shown_step [Shown α] [Shown ρ] (record : StepRecord α ρ) (table : Table) (files : Files)
    (h : table.path.all (· == "..") = false) :
    (table.step record files).1.shown (table.step record files).2 =
      table.shown files ++ row record :=
  shown_putAll (rowPieces record) table files h

end Table

namespace Logger

/-- The logger does not write to the file at a path. -/
def Apart (path : Path) : Logger → Prop
  | console .. => True
  | table t => t.path ≠ path

variable [Shown α] [Shown ρ]

theorem step_table_eq_ok {record : StepRecord α ρ} {files files' : Files} {table : Table}
    {logger : Logger} {lines : List (Line α ρ)} :
    (Logger.table table).step record files = .ok (logger, files', lines) ↔
      logger = .table (table.step record files).1 ∧ files' = (table.step record files).2 ∧
        lines = [] := by
  rw [step, Except.ok.injEq, Prod.mk.injEq, Prod.mk.injEq, eq_comm, @eq_comm _ files',
    @eq_comm _ lines]

/-- A logger that is apart from a file stays so, and leaves the file alone. -/
theorem Apart.step {path : Path} {logger logger' : Logger} {record : StepRecord α ρ}
    {files files' : Files} {lines : List (Line α ρ)} (h : logger.Apart path)
    (hstep : logger.step record files = .ok (logger', files', lines)) :
    logger'.Apart path ∧ files'.content path = files.content path := by
  cases logger with
  | console interval last =>
      obtain ⟨isDue, _, hrest⟩ := Outcome.bind_eq_ok.mp hstep
      cases isDue <;> cases hrest <;> exact ⟨trivial, rfl⟩
  | table t =>
      obtain ⟨hlogger, hfiles, _⟩ := step_table_eq_ok.mp hstep
      rw [hlogger, hfiles]
      constructor
      · rw [Apart, Table.path_step]
        exact h
      · exact Table.content_step_of_ne record t files (Ne.symm h)

end Logger

namespace Loggers

variable [Shown α] [Shown ρ]

theorem step_cons_eq_ok {record : StepRecord α ρ} {files files' : Files} {logger : Logger}
    {loggers last : List Logger} {lines : List (Line α ρ)}
    (h : step record files (logger :: loggers) = (.ok (), last, files', lines)) :
    ∃ logger' between first loggers' others,
      logger.step record files = .ok (logger', between, first) ∧
      step record between loggers = (.ok (), loggers', files', others) ∧
      last = logger' :: loggers' := by
  unfold step at h
  cases hstep : logger.step record files with
  | error e => simp [hstep] at h
  | ok stepped =>
      obtain ⟨logger', between, first⟩ := stepped
      rw [hstep] at h
      rcases hrest : step record between loggers with ⟨outcome, loggers', files'', others⟩
      simp only [hrest, Prod.mk.injEq] at h
      obtain ⟨rfl, rfl, rfl, _⟩ := h
      exact ⟨logger', between, first, loggers', others, rfl, hrest, rfl⟩

/-- Loggers that are apart from a file stay so, and leave the file alone, even if one fails. -/
theorem apart_step {path : Path} {record : StepRecord α ρ} {files files' : Files}
    {loggers last : List Logger} {outcome : Outcome Unit} {lines : List (Line α ρ)}
    (h : ∀ logger ∈ loggers, logger.Apart path)
    (hstep : step record files loggers = (outcome, last, files', lines)) :
    (∀ logger ∈ last, logger.Apart path) ∧ files'.content path = files.content path := by
  induction loggers generalizing files outcome last lines with
  | nil =>
      cases hstep
      exact ⟨h, rfl⟩
  | cons logger loggers ih =>
      rw [step] at hstep
      cases hfirst : logger.step record files with
      | error e =>
          rw [hfirst] at hstep
          cases hstep
          exact ⟨h, rfl⟩
      | ok stepped =>
          obtain ⟨logger', between, _⟩ := stepped
          rcases hrest : step record between loggers with ⟨outcome', loggers', files'', others⟩
          rw [hfirst] at hstep
          dsimp only at hstep
          rw [hrest] at hstep
          cases hstep
          obtain ⟨hlogger, hbetween⟩ := (h logger List.mem_cons_self).step hfirst
          obtain ⟨hloggers, hfiles⟩ := ih (fun other hother => h other (.tail _ hother)) hrest
          exact ⟨List.forall_mem_cons.mpr ⟨hlogger, hloggers⟩, hfiles.trans hbetween⟩

/-- One of the loggers is a table with a file of its own, and this is what it shows. -/
structure Shows (loggers : List Logger) (files : Files) (path : Path) (text : String) : Prop where
  isBelow : path.all (· == "..") = false
  exists_table : ∃ before table rest, loggers = before ++ .table table :: rest ∧
    (∀ logger ∈ before ++ rest, logger.Apart path) ∧ table.path = path ∧ table.shown files = text

/-- A step adds its row to each table with a file of its own. -/
theorem Shows.step {record : StepRecord α ρ} {loggers last : List Logger} {files files' : Files}
    {lines : List (Line α ρ)} {path : Path} {text : String} (h : Shows loggers files path text)
    (hstep : Loggers.step record files loggers = (.ok (), last, files', lines)) :
    Shows last files' path (text ++ Table.row record) := by
  obtain ⟨hbelow, before, table, rest, rfl, hapart, hpath, htext⟩ := h
  refine ⟨hbelow, ?_⟩
  induction before generalizing files last lines with
  | nil =>
      obtain ⟨_, between, _, loggers', _, hfirst, hrest, rfl⟩ := step_cons_eq_ok hstep
      obtain ⟨rfl, rfl, _⟩ := Logger.step_table_eq_ok.mp hfirst
      obtain ⟨hloggers, hcontent⟩ := apart_step hapart hrest
      have hkept : (table.step record files).1.path = path :=
        (Table.path_step record table files).trans hpath
      refine ⟨[], _, loggers', rfl, hloggers, hkept, ?_⟩
      have hrow := Table.shown_step record table files (by rw [hpath]; exact hbelow)
      rw [Table.shown, hkept] at hrow ⊢
      rw [hcontent, hrow, htext]
  | cons logger before ih =>
      obtain ⟨logger', between, _, loggers', _, hfirst, hrest, rfl⟩ := step_cons_eq_ok hstep
      obtain ⟨hlogger, hcontent⟩ := (hapart logger List.mem_cons_self).step hfirst
      have hbetween : table.shown between = text :=
        (Table.shown_congr hpath hcontent).trans htext
      obtain ⟨before', table', rest', rfl, hapart', hpath', htext'⟩ :=
        ih hrest (fun other hother => hapart other (.tail _ hother)) hbetween
      refine ⟨logger' :: before', table', rest', rfl, ?_, hpath', htext'⟩
      exact List.forall_mem_cons.mpr ⟨hlogger, hapart'⟩

end Loggers

end PolicyGradient
