import PolicyGradient.Proofs.Progress

/-!
Failures of a training are contained.

Whatever a training is asked to do, it starts its feed once at most
(`Training.count_of_afterCalls`).  Together with what failed steps and failed epochs leave behind,
this is `Training.failures_contained`: a failure costs an item of the feed and nothing else.
-/

namespace PolicyGradient

open Outcome
open Decimal (Shown)

variable {α ρ β σ : Type}

/-- By a count of its starts that was `first` before, the feed has been started once at most, and
not at all while it is not marked as started. -/
def Feed.Once (count : σ → Nat) (first : Nat) (started : Bool) (s : σ) : Prop :=
  count s ≤ first + 1 ∧ (started = false → count s = first)

namespace Training

variable [Scalar α] [Scalar ρ] [Shown α] [Shown ρ] [Narrows ρ α]

section

variable {Q : Bool → σ → Prop}

/-- Learning has nothing to do with the feed, nor with whether it has been started. -/
theorem preserves_started_learn (batch : β) :
    Action.Preserves (fun t : Training α ρ β σ => Q t.learner.started t.source) (learn batch) := by
  intro t ht
  rw [learn, Action.run_bind, Action.run_get]
  dsimp only
  rw [Action.run_lift_bind]
  cases hupdate : t.learner.update batch with
  | error e => exact ht
  | ok updated =>
      obtain ⟨_, _, _, _, _, hframe, _⟩ := Learner.of_update hupdate
      dsimp only
      rw [Action.run_bind, Action.run_modify]
      dsimp only
      rw [Action.state_bind_pure, hframe]
      exact ht

/-- What each draw leaves true of the feed, all calls leave true. -/
theorem preserves_started_perform {feed : Feed σ β}
    (hdraw : ∀ t : Training α ρ β σ, Q t.learner.started t.source →
      Q true (feed.next (t.start feed).source).2) (call : Call α) :
    Action.Preserves (fun t : Training α ρ β σ => Q t.learner.started t.source)
      (perform feed call) := by
  have hstep : Action.Preserves (fun t : Training α ρ β σ => Q t.learner.started t.source)
      (trainStep feed) := by
    rw [trainStep_eq]
    refine Action.Preserves.bind ?_ fun batch => preserves_started_learn batch
    intro t ht
    rw [run_nextBatch_eq]
    exact hdraw t ht
  cases call with
  | trainStep => exact hstep.bind fun _ => Action.preserves_pure ()
  | trainEpoch n k =>
      have hepoch : Action.Preserves (fun t : Training α ρ β σ => Q t.learner.started t.source)
          (trainEpoch feed n k) :=
        preserves_epochs hstep (fun _ _ ht => ht) (fun _ _ ht => ht) n k
      exact hepoch.bind fun _ => Action.preserves_pure ()
  | setWeights weights =>
      intro t ht
      rw [← setWeights, run_setWeights]
      cases hset : t.learner.setWeights weights with
      | error e => exact ht
      | ok learner =>
          obtain ⟨_, _, rfl⟩ := Learner.of_setWeights hset
          exact ht
  | setOptimizerState state =>
      intro t ht
      rw [← setOptimizerState, run_setOptimizerState]
      cases hset : t.learner.setOptimizerState state with
      | error e => exact ht
      | ok learner =>
          obtain ⟨_, _, rfl⟩ := Learner.of_setOptimizerState hset
          exact ht

end

/-- The training after calls that have been answered one after the other, whether they succeed or
fail. -/
def afterCalls (feed : Feed σ β) : List (Call α) → Training α ρ β σ → Training α ρ β σ
  | [], t => t
  | call :: calls, t => afterCalls feed calls ((perform feed call).run t).2

/-- However the starts of a feed are counted, a training adds one at most. -/
theorem count_of_afterCalls {feed : Feed σ β} {count : σ → Nat}
    (hnext : ∀ s, count (feed.next s).2 = count s)
    (hstart : ∀ epoch s, count (feed.start epoch s) = count s + 1) (calls : List (Call α))
    (t : Training α ρ β σ) : count (afterCalls feed calls t).source ≤ count t.source + 1 := by
  -- The first start is marked, and a feed that is marked is not started again.
  have hdraw : ∀ u : Training α ρ β σ,
      Feed.Once count (count t.source) u.learner.started u.source →
        Feed.Once count (count t.source) true (feed.next (u.start feed).source).2 := by
    intro u hu
    refine ⟨?_, nofun⟩
    rw [hnext, start]
    cases hstarted : u.learner.started with
    | true => exact hu.1
    | false => exact Nat.le_of_eq ((hstart _ _).trans (congrArg (· + 1) (hu.2 hstarted)))
  have hcalls : ∀ u : Training α ρ β σ,
      Feed.Once count (count t.source) u.learner.started u.source →
        Feed.Once count (count t.source) (afterCalls feed calls u).learner.started
          (afterCalls feed calls u).source := by
    induction calls with
    | nil => exact fun _ hu => hu
    | cons call calls ih =>
        exact fun u hu => ih _ (preserves_started_perform hdraw call u hu)
  exact (hcalls t ⟨Nat.le_succ _, fun _ => rfl⟩).1

/-- A failure costs an item of the feed at most, and nothing else. -/
structure Contained (feed : Feed σ β) (t : Training α ρ β σ) : Prop where
  /-- A step that fails has drawn from the feed, and has changed nothing else. -/
  step : ∀ cause after, (trainStep feed).run t = (.error (.error cause), after) →
    after = { t with
      learner := { t.learner with started := true }
      source := (feed.next (t.start feed).source).2 }
  /-- The feed is started once at most. -/
  starts : ∀ count : σ → Nat, (∀ s, count (feed.next s).2 = count s) →
    (∀ epoch s, count (feed.start epoch s) = count s + 1) →
      ∀ calls, count (afterCalls feed calls t).source ≤ count t.source + 1
  /-- Steps that fail do not matter to the others. -/
  skip : ∀ n, (∀ entry ∈ trail feed n t, entry.1.Answers) →
    ∀ (σ' : Type) (feed' : Feed σ' β) (u : Training α ρ β σ'), t.Beside u →
      feed'.Delivers (u.start feed').source (kept feed n t) →
        trail feed' (kept feed n t).length u = (trail feed n t).filter fun entry => entry.1.isOk
  /-- An epoch that fails leaves what the steps before the failure have done. -/
  epoch : ∀ n k cause last, (trainEpoch feed n k).run t = (.error (.error cause), last) →
    ∃ made, made.length < n * k ∧ Interrupted feed n t made last

/-- The failures of any training on any feed are contained. -/
theorem failures_contained (feed : Feed σ β) (t : Training α ρ β σ) : t.Contained feed where
  step _ _ h := of_failed_trainStep h
  starts _ hnext hstart calls := count_of_afterCalls hnext hstart calls t
  skip n hanswers _ _ _ h hkept := trail_of_kept h n hanswers hkept
  epoch _ _ _ _ h := interrupted_of_trainEpoch h

namespace Line

/-- The feed that fails for its second item. -/
def gap : Feed (Feed.Listed (ValueBatch Float32)) (ValueBatch Float32) :=
  .ofList [.ok (point 2 1), failWith (.task "no batch"), .ok (point 1 1)] false

/-- An epoch that fails at its second step has made the first one. -/
theorem interrupted_gap : ∃ cause last made,
    (trainEpoch gap 3 1).run (fresh 7 0.25) = (.error (.error cause), last) ∧
      made.length = 1 ∧ Interrupted gap 3 (fresh 7 0.25) made last := by
  have hfailed : (match (trainEpoch gap 3 1).run (fresh 7 0.25) with
      | (.error (.error _), last) => last.learner.step == 1
      | _ => false) = true := by decide +kernel
  rcases hrun : (trainEpoch gap 3 1).run (fresh 7 0.25) with ⟨(cause | fault) | summary, last⟩
  · rw [hrun] at hfailed
    obtain ⟨made, _, hmade⟩ := (failures_contained gap (fresh 7 0.25)).epoch 3 1 cause last hrun
    have hstep : 0 + made.length = 1 := hmade.step.symm.trans (beq_iff_eq.mp hfailed)
    exact ⟨cause, last, made, rfl, (Nat.zero_add _).symm.trans hstep, hmade⟩
  · rw [hrun] at hfailed
    cases hfailed
  · rw [hrun] at hfailed
    cases hfailed

end Line

end Training

end PolicyGradient
