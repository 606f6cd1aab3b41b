import PolicyGradient.Metrics.Line
import PolicyGradient.Metrics.Table
import PolicyGradient.Size

/-!
Loggers of steps and epochs.

A console logger writes a line for a step when at least its interval has passed since the last
step it wrote.  A table logger keeps one row for each step.
-/

namespace PolicyGradient

open Decimal (Shown)

/-- A logger and what it has to remember. -/
inductive Logger
  | console (interval : Nat) (last : Option Nat)
  | table (table : Table)
  deriving DecidableEq, Repr

namespace Logger

/-- A console logger with an interval of at least one step. -/
def every (interval : Nat) : Logger :=
  .console (max interval 1) none

/-- The console logger of a learner. -/
def standard : Logger :=
  every 100

/-- Whether a step is at least the interval after the last one written. -/
def due (interval : Nat) (last : Option Nat) (step : Nat) : Outcome Bool :=
  match last with
  | none => .ok true
  | some last => do return decide ((← Size.add last interval) ≤ step)

/-- Write out what a logger holds back. -/
def flush (files : Files) : Logger → Logger × Files
  | console interval last => (console interval last, files)
  | table t =>
      let (t, files) := t.flush files
      (table t, files)

variable {α ρ : Type}

/-- Take note of a step: the logger and the files afterwards, and the lines to log. -/
def step [Shown α] [Shown ρ] (record : StepRecord α ρ) (files : Files) :
    Logger → Outcome (Logger × Files × List (Line α ρ))
  | console interval last => do
      if ← due interval last record.step then
        return (console interval (some record.step), files, [.step record])
      else
        return (console interval last, files, [])
  | table t =>
      let (t, files) := t.step record files
      .ok (table t, files, [])

/-- The lines to log at the end of an epoch. -/
def epoch (summary : EpochSummary α ρ) : Logger → List (Line α ρ)
  | console .. => [.epochDone summary]
  | table .. => []

end Logger

namespace Loggers

/-- Write out what the loggers hold back, in order. -/
def flush (files : Files) : List Logger → List Logger × Files
  | [] => ([], files)
  | logger :: loggers =>
      let (logger, files) := logger.flush files
      let (loggers, files) := flush files loggers
      (logger :: loggers, files)

/-- What a logger is to be opened with. -/
inductive Request
  | console (interval : Nat)
  | table (location : String)
  deriving DecidableEq, Repr

/-- Open loggers in order.  When one cannot be opened, those before it are flushed and given up. -/
def openAll (files : Files) : (opened : List Logger) → List Request → Outcome (List Logger) × Files
  | opened, [] => (.ok opened, files)
  | opened, .console interval :: requests =>
      openAll files (opened ++ [.every interval]) requests
  | opened, .table location :: requests =>
      match Table.create files location with
      | .ok (table, files) => openAll files (opened ++ [.table table]) requests
      | .error e => (.error e, (flush files opened).2)

variable {α ρ : Type}

/-- Take note of a step, logger by logger until one fails. -/
def step [Shown α] [Shown ρ] (record : StepRecord α ρ) (files : Files) :
    List Logger → Outcome Unit × List Logger × Files × List (Line α ρ)
  | [] => (.ok (), [], files, [])
  | logger :: loggers =>
      match logger.step record files with
      | .error e => (.error e, logger :: loggers, files, [])
      | .ok (logger, files, lines) =>
          let (outcome, loggers, files, others) := step record files loggers
          (outcome, logger :: loggers, files, lines ++ others)

/-- The lines to log at the end of an epoch. -/
def epoch (summary : EpochSummary α ρ) (loggers : List Logger) : List (Line α ρ) :=
  loggers.flatMap (Logger.epoch summary)

end Loggers

/-- What a run has put out so far: its log lines, in order, and its files. -/
structure Journal (α ρ : Type) where
  lines : List (Line α ρ)
  files : Files
  deriving Repr

namespace Journal

variable {α ρ : Type}

/-- No lines yet. -/
def start (files : Files) : Journal α ρ :=
  ⟨[], files⟩

/-- The journal with more lines. -/
def log (journal : Journal α ρ) (lines : List (Line α ρ)) : Journal α ρ :=
  { journal with lines := journal.lines ++ lines }

end Journal

end PolicyGradient
