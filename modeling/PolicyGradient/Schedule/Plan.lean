import PolicyGradient.Document.Basic
import PolicyGradient.Schedule.Basic

/-!
Descriptions of schedules, as settings hold them.

A plan is read from a document whose entry `type` names the kind of schedule.  Every field of that
kind has to be there; other entries are ignored.
-/

namespace PolicyGradient.Schedule

variable {ρ : Type}

/-- A schedule that settings can describe. -/
inductive Plan (ρ : Type)
  | constant (lr : ρ)
  | linearDecay (start stop : ρ) (total : Nat)
  /-- A linear warm-up from zero, then a constant rate. -/
  | warmupConstant (lr : ρ) (steps : Nat)
  | multifactor (factor : ρ) (steps : Nat)
  deriving DecidableEq, Repr

namespace Plan

/-- The schedule that a plan describes. -/
def build [Scalar ρ] : Plan ρ → Except (Refusal ρ) (Schedule ρ)
  | constant lr => constant? lr
  | linearDecay start stop total => linearDecay? start stop total
  | warmupConstant lr steps => do warmup? (← constant? lr) steps 0
  | multifactor factor steps => multifactor? factor steps

/-- The plan of a learner without settings of its own. -/
def standard [Scalar ρ] : Plan ρ :=
  .multifactor (1 / ((10 : Nat) : ρ)) 400

/-- The names of the fields of a kind of schedule. -/
def fieldNames? : String → Option (List String)
  | "constant" => some ["lr"]
  | "linear_decay" => some ["start_lr", "end_lr", "total_steps"]
  | "warmup_constant" => some ["lr", "warmup_steps"]
  | "multifactor" => some ["constant", "warmup_steps"]
  | _ => none

/-- The plan of a kind with the given field values. -/
def ofFields? : String → List (Option Document) → Option (Plan Float)
  | "constant", [lr] => do
      return .constant (← Document.required? Document.float? lr)
  | "linear_decay", [start, stop, total] => do
      return .linearDecay (← Document.required? Document.float? start)
        (← Document.required? Document.float? stop) (← Document.required? Document.nat? total)
  | "warmup_constant", [lr, steps] => do
      return .warmupConstant (← Document.required? Document.float? lr)
        (← Document.required? Document.nat? steps)
  | "multifactor", [factor, steps] => do
      return .multifactor (← Document.required? Document.float? factor)
        (← Document.required? Document.nat? steps)
  | _, _ => none

/-- The kind named by a document, and the document that holds its fields: the same record, or the
items after the name. -/
def kind? : Document → Option (String × Document)
  | .record entries => do
      let [some tag] ← Document.fields? ["type"] (.record entries) | none
      return (← tag.text?, .record entries)
  | .list (tag :: items) => do
      return (← tag.text?, .list items)
  | _ => none

/-- The plan that a document describes, at most `levels` deep.  Unlike other settings, a plan is
held as a whole before it is read: what cannot be held is refused in ignored entries, too. -/
def ofDocument? (levels : Nat) (document : Document) : Option (Plan Float) := do
  let (kind, body) ← kind? document
  let names ← fieldNames? kind
  let fields ← Document.fields? names body
  if document.isWhole levels then ofFields? kind fields else none

end Plan

end PolicyGradient.Schedule
