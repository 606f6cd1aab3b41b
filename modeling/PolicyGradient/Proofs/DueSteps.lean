import PolicyGradient.Metrics.Logger
import PolicyGradient.Proofs.Block

/-!
Which steps a console logger writes.

A console logger remembers the last step it wrote, and writes the next one that is at least its
interval past it.  Over the natural numbers (`Logger.written`) this keeps exactly the due steps of
any records, in whatever order their steps come (`Logger.keepsDue_written`).  The logger itself
adds sizes.  It does the same as long as the sums are sizes, and at the first record where one is
not it faults (`Logger.keeps_iff_inRange`).
-/

namespace PolicyGradient

open Decimal (Shown)
open Outcome

namespace Logger

variable {α ρ : Type}

/-- Take note of records one after the other: the logger and the files afterwards, and the lines
of each record. -/
def steps [Shown α] [Shown ρ] : List (StepRecord α ρ) → Files → Logger →
    Outcome (Logger × Files × List (List (Line α ρ)))
  | [], files, logger => .ok (logger, files, [])
  | record :: records, files, logger => do
      let (logger, files, lines) ← logger.step record files
      let (logger, files, others) ← steps records files logger
      return (logger, files, lines :: others)

/-! ### Due steps over the natural numbers -/

/-- A step is due if none has been written, or if it is at least `gap` past the last one. -/
def isDue (gap : Nat) : (last : Option Nat) → (step : Nat) → Bool
  | none, _ => true
  | some last, step => decide (last + gap ≤ step)

/-- The last step written, after one more step. -/
def lastAfter (gap : Nat) (last : Option Nat) (step : Nat) : Option Nat :=
  if isDue gap last step then some step else last

/-- The lines of a record: one if its step is due. -/
def lines (gap : Nat) (last : Option Nat) (record : StepRecord α ρ) : List (Line α ρ) :=
  if isDue gap last record.step then [.step record] else []

/-- The lines of some records. -/
def written (gap : Nat) : (last : Option Nat) → List (StepRecord α ρ) → List (List (Line α ρ))
  | _, [] => []
  | last, record :: records =>
      lines gap last record :: written gap (lastAfter gap last record.step) records

/-- The last step written, after some records. -/
def lastWritten (gap : Nat) (last : Option Nat) (records : List (StepRecord α ρ)) : Option Nat :=
  (records.map StepRecord.step).foldl (lastAfter gap) last

/-- Whenever a record comes in, the last step written and the gap add up to a size. -/
def InRange (gap : Nat) : (last : Option Nat) → List (StepRecord α ρ) → Prop
  | _, [] => True
  | last, record :: records =>
      (∀ step, last = some step → step + gap < Size.limit) ∧
        InRange gap (lastAfter gap last record.step) records

/-! ### The logger follows them -/

section

variable [Shown α] [Shown ρ] {gap : Nat}

theorem step_of_inRange {last : Option Nat}
    (h : ∀ step, last = some step → step + gap < Size.limit) (record : StepRecord α ρ)
    (files : Files) :
    (console gap last).step record files =
      .ok (console gap (lastAfter gap last record.step), files, lines gap last record) := by
  have hdue : due gap last record.step = .ok (isDue gap last record.step) := by
    cases last with
    | none => rfl
    | some last =>
        rw [due, Size.add_eq_ok.mpr ⟨h last rfl, rfl⟩]
        rfl
  simp only [step, hdue, lastAfter, lines]
  cases isDue gap last record.step with
  | true => rfl
  | false => rfl

theorem step_of_overflow {last : Nat} (h : Size.limit ≤ last + gap) (record : StepRecord α ρ)
    (files : Files) : (console gap (some last)).step record files = faultWith .overflow := by
  have hadd : Size.add last gap = faultWith .overflow := if_neg (Nat.not_lt.mpr h)
  rw [step, due, hadd]
  rfl

theorem steps_cons {record : StepRecord α ρ} {files files' : Files} {logger logger' : Logger}
    {logged : List (Line α ρ)} (h : logger.step record files = .ok (logger', files', logged))
    (records : List (StepRecord α ρ)) :
    logger.steps (record :: records) files = (do
      let (logger, files, others) ← logger'.steps records files'
      return (logger, files, logged :: others)) := by
  rw [steps, h]
  rfl

theorem steps_of_inRange {last : Option Nat} {records : List (StepRecord α ρ)}
    (h : InRange gap last records) (files : Files) :
    (console gap last).steps records files =
      .ok (console gap (lastWritten gap last records), files, written gap last records) := by
  induction records generalizing last with
  | nil => rfl
  | cons record records ih =>
      rw [steps_cons (step_of_inRange h.1 record files), ih h.2]
      rfl

/-- Out of range, some record ends the computation. -/
theorem steps_of_not_inRange {last : Option Nat} {records : List (StepRecord α ρ)}
    (h : ¬ InRange gap last records) (files : Files) :
    (console gap last).steps records files = faultWith .overflow := by
  induction records generalizing last with
  | nil => exact absurd trivial h
  | cons record records ih =>
      by_cases hhead : ∀ step, last = some step → step + gap < Size.limit
      · rw [steps_cons (step_of_inRange hhead record files), ih fun hrest => h ⟨hhead, hrest⟩]
        rfl
      · simp only [not_forall] at hhead
        obtain ⟨step, rfl, hstep⟩ := hhead
        rw [steps, step_of_overflow (Nat.not_lt.mp hstep)]
        rfl

end

/-! ### What is written -/

/-- Before record `i`, the last record with a line is record `j`. -/
structure LastLogged (records : List (StepRecord α ρ)) (logged : List (List (Line α ρ)))
    (i j : Nat) (last : StepRecord α ρ) : Prop where
  before : j < i
  record_eq : records[j]? = some last
  line_eq : logged[j]? = some [.step last]
  silent : ∀ k, j < k → k < i → logged[k]? = some []

/-- Of some records, those are logged that come first or are at least the interval past the last
one logged. -/
structure KeepsDue (interval : Nat) (records : List (StepRecord α ρ))
    (logged : List (List (Line α ρ))) : Prop where
  length_eq : logged.length = records.length
  first : ∀ record, records[0]? = some record → logged[0]? = some [.step record]
  later : ∀ i record, 0 < i → records[i]? = some record →
    ∃ j last, LastLogged records logged i j last ∧
      logged[i]? = some (if last.step + max interval 1 ≤ record.step then [.step record] else [])
  /-- No two logged steps are closer than the interval. -/
  apart : ∀ (i j : Nat) (first second : StepRecord α ρ), i < j →
    records[i]? = some first → logged[i]? = some [.step first] →
    records[j]? = some second → logged[j]? = some [.step second] →
      first.step + max interval 1 ≤ second.step
  /-- What is skipped is closer than the interval to the last step logged. -/
  skipped : ∀ i record, records[i]? = some record → logged[i]? = some [] →
    ∃ j last, LastLogged records logged i j last ∧ record.step < last.step + max interval 1

section

variable {gap : Nat} {records : List (StepRecord α ρ)}

theorem length_written (gap : Nat) (last : Option Nat) (records : List (StepRecord α ρ)) :
    (written gap last records).length = records.length := by
  induction records generalizing last with
  | nil => rfl
  | cons record records ih => exact congrArg Nat.succ (ih _)

/-- The line of a record depends on the records before it by the last step written. -/
theorem getElem?_written (gap : Nat) {i : Nat} {record : StepRecord α ρ}
    (h : records[i]? = some record) (last : Option Nat) :
    (written gap last records)[i]? =
      some (lines gap (lastWritten gap last (records.take i)) record) := by
  induction records generalizing i last with
  | nil => cases h
  | cons head records ih =>
      cases i with
      | zero =>
          cases h
          rfl
      | succ i => exact ih h (lastAfter gap last head.step)

theorem lastWritten_take_succ {i : Nat} {record : StepRecord α ρ} (h : records[i]? = some record)
    (last : Option Nat) :
    lastWritten gap last (records.take (i + 1)) =
      lastAfter gap (lastWritten gap last (records.take i)) record.step := by
  simp [lastWritten, List.take_add_one, h]

theorem exists_lastAfter (gap : Nat) (last : Option Nat) (step : Nat) :
    ∃ written, lastAfter gap last step = some written := by
  cases last with
  | none => exact ⟨step, rfl⟩
  | some last =>
      by_cases h : last + gap ≤ step
      · exact ⟨step, by simp [lastAfter, isDue, h]⟩
      · exact ⟨last, by simp [lastAfter, isDue, h]⟩

/-- The last step written is that of the last record logged. -/
theorem exists_lastLogged {i : Nat} (hi : i ≤ records.length) {step : Nat}
    (h : lastWritten gap none (records.take i) = some step) :
    ∃ j last, LastLogged records (written gap none records) i j last ∧ last.step = step := by
  induction i with
  | zero => cases h
  | succ i ih =>
      have hrecord : records[i]? = some records[i] := List.getElem?_eq_getElem hi
      have hline := getElem?_written gap hrecord none
      rw [lastWritten_take_succ hrecord, lastAfter] at h
      rw [lines] at hline
      split at h
      · next hdue =>
          cases h
          rw [if_pos hdue] at hline
          exact ⟨i, records[i], ⟨Nat.lt_succ_self i, hrecord, hline, by omega⟩, rfl⟩
      · next hdue =>
          rw [if_neg hdue] at hline
          obtain ⟨j, last, hlast, hstep⟩ := ih (Nat.le_of_succ_le hi) h
          refine ⟨j, last, ⟨Nat.lt_succ_of_lt hlast.before, hlast.record_eq,
            hlast.line_eq, fun k hjk hki => ?_⟩, hstep⟩
          rcases Nat.lt_succ_iff_lt_or_eq.mp hki with hki | rfl
          · exact hlast.silent k hjk hki
          · exact hline

/-- Every record but the first has a last record logged before it, which decides about it. -/
theorem exists_lastLogged_of_pos (gap : Nat) {i : Nat} {record : StepRecord α ρ} (hi : 0 < i)
    (h : records[i]? = some record) :
    ∃ j last, LastLogged records (written gap none records) i j last ∧
      (written gap none records)[i]? =
        some (if last.step + gap ≤ record.step then [.step record] else []) := by
  have hlength : i < records.length := (List.getElem?_eq_some_iff.mp h).1
  have hwritten : ∃ step, lastWritten gap none (records.take i) = some step := by
    cases i with
    | zero => exact absurd hi (Nat.lt_irrefl 0)
    | succ i =>
        rw [lastWritten_take_succ (List.getElem?_eq_getElem (Nat.lt_of_succ_lt hlength))]
        exact exists_lastAfter _ _ _
  obtain ⟨step, hstep⟩ := hwritten
  obtain ⟨j, last, hlast, rfl⟩ := exists_lastLogged (Nat.le_of_lt hlength) hstep
  refine ⟨j, last, hlast, ?_⟩
  rw [getElem?_written gap h, hstep, lines]
  simp only [isDue, decide_eq_true_eq]

/-- Of two logged records the later one is at least the gap past the earlier one: so is the next
one logged, and from there on by induction. -/
theorem apart_written {i j : Nat} {first second : StepRecord α ρ} (hij : i < j)
    (hfirst : records[i]? = some first)
    (hfirstLine : (written gap none records)[i]? = some [.step first])
    (hsecond : records[j]? = some second)
    (hsecondLine : (written gap none records)[j]? = some [.step second]) :
    first.step + gap ≤ second.step := by
  induction j using Nat.strongRecOn generalizing second with
  | ind j ih =>
      obtain ⟨k, last, hlast, hline⟩ :=
        exists_lastLogged_of_pos gap (Nat.zero_lt_of_lt hij) hsecond
      have hdue : last.step + gap ≤ second.step := by
        by_contra hnot
        rw [hsecondLine, if_neg hnot] at hline
        cases hline
      rcases Nat.lt_trichotomy k i with hki | rfl | hik
      · have hsilent := hlast.silent i hki hij
        rw [hfirstLine] at hsilent
        cases hsilent
      · cases hfirst.symm.trans hlast.record_eq
        exact hdue
      · have hbefore := ih k hlast.before hik hlast.record_eq hlast.line_eq
        omega

theorem keepsDue_written (interval : Nat) (records : List (StepRecord α ρ)) :
    KeepsDue interval records (written (max interval 1) none records) := by
  refine ⟨length_written _ _ _, fun record h => ?_, fun i record => exists_lastLogged_of_pos _,
    fun i j first second => apart_written, fun i record h hsilent => ?_⟩
  · exact getElem?_written _ h none
  · have hpos : 0 < i := by
      refine Nat.pos_of_ne_zero ?_
      rintro rfl
      cases (getElem?_written _ h none).symm.trans hsilent
    obtain ⟨j, last, hlast, hline⟩ := exists_lastLogged_of_pos _ hpos h
    refine ⟨j, last, hlast, Nat.lt_of_not_le fun hdue => ?_⟩
    rw [hsilent, if_pos hdue] at hline
    cases hline

end

/-- A console logger keeps exactly the due steps of some records, and touches no files. -/
def Keeps [Shown α] [Shown ρ] (interval : Nat) (records : List (StepRecord α ρ)) (files : Files) :
    Prop :=
  ∃ logger logged, (every interval).steps records files = .ok (logger, files, logged) ∧
    KeepsDue interval records logged

/-- Steps that stay below the range by the gap are in range. -/
theorem inRange_of_forall {gap : Nat} {last : Option Nat} {records : List (StepRecord α ρ)}
    (hlast : ∀ step, last = some step → step + gap < Size.limit)
    (h : ∀ record ∈ records, record.step + gap < Size.limit) : InRange gap last records := by
  induction records generalizing last with
  | nil => trivial
  | cons record records ih =>
      refine ⟨hlast, ih (fun step hstep => ?_) fun r hr => h r (List.mem_cons_of_mem _ hr)⟩
      rw [lastAfter] at hstep
      split at hstep
      · cases hstep
        exact h record List.mem_cons_self
      · exact hlast step hstep

/-- A console logger keeps exactly the due steps of records in range, for example of all whose
steps are below the largest size by the interval.  Out of range it faults. -/
theorem keeps_iff_inRange [Shown α] [Shown ρ] (interval : Nat) (records : List (StepRecord α ρ))
    (files : Files) :
    (Keeps interval records files ↔ InRange (max interval 1) none records) ∧
      (¬ InRange (max interval 1) none records →
        (every interval).steps records files = faultWith .overflow) ∧
      ((∀ record ∈ records, record.step + max interval 1 < Size.limit) →
        InRange (max interval 1) none records) := by
  refine ⟨⟨?_, fun h => ?_⟩, fun h => steps_of_not_inRange h files,
    inRange_of_forall fun step hstep => nomatch hstep⟩
  · rintro ⟨logger, logged, hsteps, _⟩
    by_contra hnot
    rw [every, steps_of_not_inRange hnot] at hsteps
    cases hsteps
  · exact ⟨_, _, steps_of_inRange h files, keepsDue_written interval records⟩

namespace Line

/-- The record of a step. -/
def record (step : Nat) : StepRecord Float32 Float :=
  ⟨"value", 0, step, 0.5, 0⟩

/-- With the largest interval, the second record already is out of range. -/
theorem not_keeps_largest : Size.limit - 1 < Size.limit ∧
    ¬ Keeps (Size.limit - 1) [record 1, record 2] Files.empty := by
  refine ⟨by decide, ?_⟩
  rintro ⟨logger, logged, hsteps, _⟩
  rw [every, steps_of_not_inRange] at hsteps
  · cases hsteps
  · rintro ⟨_, hsecond, _⟩
    exact absurd (hsecond 1 rfl) (by decide)

end Line

end Logger

end PolicyGradient
