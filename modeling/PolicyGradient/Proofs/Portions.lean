import PolicyGradient.Proofs.ValueSide

/-!
Training in portions.

A learner is trained by single steps and by epochs (`Training.Portion`).  A portion has the records
of its steps that succeed, whether it succeeds as a whole or not (`Training.made`).  A portion that
succeeds sums up the records of all its steps (`Training.groups_of_trainEpoch`).
-/

namespace PolicyGradient

open Outcome
open Decimal (Shown)

variable {α ρ β γ σ : Type}

/-- What is noted of repetitions that succeed can be told from their results. -/
theorem Action.noted_of_replicate {note : σ → List γ} {f : β → List γ} {act : Action σ β}
    (hnote : ∀ s b t, act.run s = (.ok b, t) → note s = f b) {n : Nat} {s t : σ} {bs : List β}
    (h : (replicate n act).run s = (.ok bs, t)) : noted note act n s = bs.flatMap f := by
  induction n generalizing s bs with
  | zero =>
      cases h
      rfl
  | succ n ih =>
      obtain ⟨b, u, hfirst, hrest⟩ := run_bind_eq_ok.mp h
      obtain ⟨others, _, hothers, hlast⟩ := run_bind_eq_ok.mp hrest
      cases hlast
      rw [noted_of_ok hfirst, hnote s b u hfirst, ih hothers, List.flatMap_cons]

namespace Training

/-- A single step, or `k` epochs of `n` steps. -/
inductive Portion
  | step
  | epochs (n k : Nat)
  deriving DecidableEq, Repr

namespace Portion

/-- How many steps it has. -/
def size : Portion → Nat
  | step => 1
  | epochs n k => n * k

/-- How many epochs it counts. -/
def span : Portion → Nat
  | step => 0
  | epochs _ k => k

/-- How many steps some portions have in all. -/
def sizes : List Portion → Nat
  | [] => 0
  | portion :: portions => portion.size + sizes portions

/-- How many epochs they count in all. -/
def spans : List Portion → Nat
  | [] => 0
  | portion :: portions => portion.span + spans portions

/-- For each of its steps, how many of its epochs are complete before it. -/
def epochsBefore : Portion → List Nat
  | step => [0]
  | epochs n k => (List.range (n * k)).map (· / n)

end Portion

/-- What a portion is answered with. -/
inductive Reply (α ρ : Type)
  | record (record : StepRecord α ρ)
  | summary (summary : EpochSummary α ρ)

/-- The reply to a portion tells of its records: of the last one, where it sums them up. -/
def Reply.Tells [Zero α] [Zero ρ] (records : List (StepRecord α ρ)) :
    Portion → Reply α ρ → Prop
  | .step, .record own => records = [own]
  | .epochs n k, .summary total =>
      total.steps = n * k ∧
        total.lastLoss = (records.getLast?.map StepRecord.loss).getD 0 ∧
        total.lr = (records.getLast?.map StepRecord.lr).getD 0
  | _, _ => False

variable [Scalar α] [Scalar ρ] [Shown α] [Shown ρ] [Narrows ρ α]

/-- Train for a portion. -/
def answer (feed : Feed σ β) : Portion → Action (Training α ρ β σ) (Reply α ρ)
  | .step => do
      return .record (← trainStep feed)
  | .epochs n k => do
      return .summary (← trainEpoch feed n k)

/-- The training after portions that have been asked for one after the other, whether they succeed
or fail. -/
def afterPortions (feed : Feed σ β) : List Portion → Training α ρ β σ → Training α ρ β σ
  | [], t => t
  | portion :: portions, t => afterPortions feed portions ((answer feed portion).run t).2

/-- The record of a step that succeeds. -/
def madeInStep (feed : Feed σ β) (t : Training α ρ β σ) : List (StepRecord α ρ) :=
  match (trainStep feed).run t with
  | (.ok record, _) => [record]
  | (.error _, _) => []

/-- The records of the steps that succeed in a group of `n` steps. -/
def madeInGroup (feed : Feed σ β) (n : Nat) (t : Training α ρ β σ) : List (StepRecord α ρ) :=
  Action.noted (madeInStep feed) (trainStep feed) n t

/-- The records of the steps that succeed in a portion. -/
def made (feed : Feed σ β) : Portion → Training α ρ β σ → List (StepRecord α ρ)
  | .step, t => madeInStep feed t
  | .epochs n k, t =>
      match (do Size.allocate (← Size.mul n k) recordWidth : Outcome Unit) with
      | .ok _ => Action.noted (madeInGroup feed n) (trainGroup feed n) k t
      | .error _ => []

/-- The records of the steps that succeed in portions that are asked for one after the other. -/
def madeIn (feed : Feed σ β) : List Portion → Training α ρ β σ → List (StepRecord α ρ)
  | [], _ => []
  | portion :: portions, t =>
      made feed portion t ++ madeIn feed portions ((answer feed portion).run t).2

section

variable {feed : Feed σ β} {t u : Training α ρ β σ}

theorem madeInStep_of_ok {record : StepRecord α ρ} (h : (trainStep feed).run t = (.ok record, u)) :
    madeInStep feed t = [record] := by
  rw [madeInStep, h]

theorem madeInGroup_of_ok {n : Nat} {records : List (StepRecord α ρ)}
    (h : (trainGroup feed n).run t = (.ok records, u)) : madeInGroup feed n t = records := by
  obtain ⟨made, _, hsteps, hrest⟩ := Action.run_bind_eq_ok.mp h
  obtain ⟨_, _, _, hlast⟩ := Action.run_bind_eq_ok.mp hrest
  cases hlast
  rw [madeInGroup, Action.noted_of_replicate (fun _ _ _ => madeInStep_of_ok) hsteps,
    List.flatMap_singleton']

/-- Epochs that succeed have made their groups of steps, and sum up the records of all of them. -/
theorem groups_of_trainEpoch {n k : Nat} {summary : EpochSummary α ρ}
    (h : (trainEpoch feed n k).run t = (.ok summary, u)) :
    ∃ groups s, (Action.replicate k (trainGroup feed n)).run t = (.ok groups, s) ∧
      (conclude (made feed (.epochs n k) t)).run s = (.ok summary, u) ∧
      made feed (.epochs n k) t = groups.flatten := by
  obtain ⟨_, hroom, h⟩ := Action.run_lift_bind_eq_ok.mp h
  obtain ⟨groups, s, hgroups, hlast⟩ := Action.run_bind_eq_ok.mp h
  have hmade : made feed (.epochs n k) t = groups.flatten := by
    rw [made, hroom]
    dsimp only
    rw [Action.noted_of_replicate (fun _ _ _ => madeInGroup_of_ok) hgroups, List.flatMap_id']
  refine ⟨groups, s, hgroups, ?_, hmade⟩
  rw [hmade]
  exact hlast

/-- Portions succeed one after the other. -/
theorem run_answers_cons_eq_ok {portion : Portion} {portions : List Portion}
    {replies : List (Reply α ρ)} :
    ((portion :: portions).mapM (answer feed)).run t = (.ok replies, u) ↔
      ∃ reply s others, (answer feed portion).run t = (.ok reply, s) ∧
        (portions.mapM (answer feed)).run s = (.ok others, u) ∧ replies = reply :: others := by
  rw [List.mapM_cons, Action.run_bind_eq_ok]
  constructor
  · rintro ⟨reply, s, hreply, hrest⟩
    obtain ⟨others, _, hothers, hlast⟩ := Action.run_bind_eq_ok.mp hrest
    cases hlast
    exact ⟨reply, s, others, hreply, hothers, rfl⟩
  · rintro ⟨reply, s, others, hreply, hothers, rfl⟩
    exact ⟨reply, s, hreply, Action.run_bind_eq_ok.mpr ⟨others, u, hothers, rfl⟩⟩

end

end Training

end PolicyGradient
