import PolicyGradient.Proofs.Copy
import PolicyGradient.Proofs.Progress

/-!
The counters of a learner.

The step of a learner counts the batches that it has learned from (`Training.step_learnedInEpochs`),
and its epoch the epochs that have succeeded (`Training.epoch_of_trainEpoch`).  Copies of layers
leave both as they are, however they end (`Copy.counters_of_layers`).
-/

namespace PolicyGradient

open Outcome
open Decimal (Shown)

variable {α ρ β γ σ τ : Type}

namespace Action

/-- What is noted before each of at most `n` repetitions of an action, which end with the first one
that fails. -/
def noted (note : σ → List γ) (act : Action σ β) : Nat → σ → List γ
  | 0, _ => []
  | n + 1, s =>
      match act.run s with
      | (.ok _, t) => note s ++ noted note act n t
      | (.error _, _) => note s

/-- If each repetition adds what is noted to a count, then so do all of them together. -/
theorem count_noted (count : σ → Nat) {note : σ → List γ} {act : Action σ β}
    (h : ∀ s, count (act.run s).2 = count s + (note s).length) (n : Nat) (s : σ) :
    count ((replicate n act).run s).2 = count s + (noted note act n s).length := by
  induction n generalizing s with
  | zero => rfl
  | succ n ih =>
      have hfirst := h s
      rw [replicate, run_bind, noted]
      rcases hrun : act.run s with ⟨e | b, t⟩
      · rw [hrun] at hfirst
        exact hfirst
      · rw [hrun] at hfirst
        dsimp only at hfirst ⊢
        rw [state_bind_pure, ih, hfirst, List.length_append, Nat.add_assoc]

/-- What goes along with the notes of each repetition goes along with the notes of all of them. -/
theorem along_noted (P : σ → List γ → Prop) {note : σ → List γ} {act : Action σ β}
    (hact : ∀ s notes, P s notes → P (act.run s).2 (notes ++ note s)) (n : Nat) {s : σ}
    {notes : List γ} (hs : P s notes) :
    P ((replicate n act).run s).2 (notes ++ noted note act n s) := by
  induction n generalizing s notes with
  | zero =>
      rw [noted, List.append_nil]
      exact hs
  | succ n ih =>
      have hfirst := hact s notes hs
      rw [replicate, run_bind, noted]
      rcases hrun : act.run s with ⟨e | b, t⟩
      · rw [hrun] at hfirst
        exact hfirst
      · rw [hrun] at hfirst
        dsimp only
        rw [state_bind_pure, ← List.append_assoc]
        exact ih hfirst

end Action

namespace Training

variable [Scalar α] [Scalar ρ] [Shown α] [Shown ρ] [Narrows ρ α]

/-- The batch that a step learns from, if it gets that far. -/
def learned (feed : Feed σ β) (t : Training α ρ β σ) : List β :=
  match (nextBatch feed).run t with
  | (.ok batch, drawn) => if (drawn.learner.update batch).isOk then [batch] else []
  | (.error _, _) => []

/-- The batches that a group of `n` steps learns from. -/
def learnedInGroup (feed : Feed σ β) (n : Nat) (t : Training α ρ β σ) : List β :=
  Action.noted (learned feed) (trainStep feed) n t

/-- The batches that `k` epochs of `n` steps learn from, if there is room for their records. -/
def learnedInEpochs (feed : Feed σ β) (n k : Nat) (t : Training α ρ β σ) : List β :=
  match (do Size.allocate (← Size.mul n k) recordWidth : Outcome Unit) with
  | .ok _ => Action.noted (learnedInGroup feed n) (trainGroup feed n) k t
  | .error _ => []

section

variable (feed : Feed σ β) (t : Training α ρ β σ)

/-- A step counts the batch that it learns from. -/
theorem step_learned :
    ((trainStep feed).run t).2.learner.step = t.learner.step + (learned feed t).length := by
  have hdrawn : ((nextBatch feed).run t).2.learner.step = t.learner.step := by
    rw [learner_of_nextBatch]
    rfl
  rw [run_trainStep, learned]
  rcases hbatch : (nextBatch feed).run t with ⟨e | batch, drawn⟩
  · rw [hbatch] at hdrawn
    exact hdrawn
  · rw [hbatch] at hdrawn
    dsimp only
    cases hupdate : drawn.learner.update batch with
    | error e => exact hdrawn
    | ok updated =>
        obtain ⟨loggers, hlearner⟩ :=
          learner_of_report updated.2 { drawn with learner := updated.1 }
        obtain ⟨_, _, _, _, _, _, _, hstep⟩ := Learner.of_update hupdate
        dsimp only
        rw [Action.state_bind_pure, hlearner]
        exact hstep.trans (congrArg (· + 1) hdrawn)

omit [Scalar α] [Scalar ρ] [Shown α] [Shown ρ] [Narrows ρ α] in
theorem step_advanceEpoch : (advanceEpoch.run t).2.learner.step = t.learner.step := by
  simp only [advanceEpoch, Action.run_bind, Action.run_get, Action.run_lift]
  cases Size.add t.learner.epoch 1 with
  | error e => rfl
  | ok epoch => rfl

theorem step_learnedInGroup (n : Nat) : ((trainGroup feed n).run t).2.learner.step =
    t.learner.step + (learnedInGroup feed n t).length := by
  have hsteps := Action.count_noted (fun t : Training α ρ β σ => t.learner.step)
    (step_learned feed) n t
  rw [trainGroup, Action.run_bind, learnedInGroup, ← hsteps]
  rcases (Action.replicate n (trainStep feed)).run t with ⟨e | records, u⟩
  · rfl
  · dsimp only
    rw [Action.state_bind_pure, step_advanceEpoch]

/-- Epochs count the batches that their steps learn from. -/
theorem step_learnedInEpochs (n k : Nat) : ((trainEpoch feed n k).run t).2.learner.step =
    t.learner.step + (learnedInEpochs feed n k t).length := by
  rw [trainEpoch, Action.run_lift_bind, learnedInEpochs]
  cases (do Size.allocate (← Size.mul n k) recordWidth : Outcome Unit) with
  | error e => rfl
  | ok _ =>
      have hgroups := Action.count_noted (fun t : Training α ρ β σ => t.learner.step)
        (fun t => step_learnedInGroup feed t n) k t
      dsimp only
      rw [Action.run_bind, ← hgroups]
      rcases (Action.replicate k (trainGroup feed n)).run t with ⟨e | groups, u⟩
      · rfl
      · rfl

end

section

variable {feed : Feed σ β} {n : Nat} {t u : Training α ρ β σ}

theorem preserves_epoch_trainStep (feed : Feed σ β) (epoch : Nat) :
    Action.Preserves (fun t : Training α ρ β σ => t.learner.epoch = epoch) (trainStep feed) := by
  intro t ht
  have hdrawn : ((nextBatch feed).run t).2.learner.epoch = epoch := by
    rw [learner_of_nextBatch]
    exact ht
  rcases trainStep_cases feed t with hlast | ⟨_, learner, record, hupdate, hlast⟩
  · rw [hlast]
    exact hdrawn
  · obtain ⟨_, _, _, _, _, hframe, _⟩ := Learner.of_update hupdate
    rw [hlast]
    show learner.epoch = epoch
    rw [hframe]
    exact hdrawn

/-- However they end, steps count no epochs. -/
theorem epoch_steps (feed : Feed σ β) (n : Nat) (t : Training α ρ β σ) :
    ((Action.replicate n (trainStep feed)).run t).2.learner.epoch = t.learner.epoch :=
  (preserves_epoch_trainStep feed t.learner.epoch).replicate n t rfl

/-- A group that succeeds is counted as an epoch, and one that fails is not. -/
theorem epoch_of_trainGroup {records : List (StepRecord α ρ)}
    (h : (trainGroup feed n).run t = (.ok records, u)) :
    u.learner.epoch = t.learner.epoch + 1 ∧ t.learner.epoch + 1 < Size.limit := by
  obtain ⟨_, r, hsteps, hrest⟩ := Action.run_bind_eq_ok.mp h
  obtain ⟨_, _, hadvance, hlast⟩ := Action.run_bind_eq_ok.mp hrest
  cases hlast
  have hkept := epoch_steps feed n t
  rw [hsteps] at hkept
  obtain ⟨hlimit, rfl⟩ := advanceEpoch_eq_ok.mp hadvance
  rw [hkept] at hlimit
  exact ⟨congrArg (· + 1) hkept, hlimit⟩

theorem epoch_of_trainGroup_error {e : Failure}
    (h : (trainGroup feed n).run t = (.error e, u)) : u.learner.epoch = t.learner.epoch := by
  have hkept := epoch_steps feed n t
  rw [trainGroup, Action.run_bind] at h
  rcases hsteps : (Action.replicate n (trainStep feed)).run t with ⟨e' | records, r⟩
  · rw [hsteps] at h hkept
    cases h
    exact hkept
  · rw [hsteps] at h hkept
    dsimp only at h
    rw [Action.run_bind_pure, advanceEpoch, Action.run_bind, Action.run_get] at h
    dsimp only at h
    rw [Action.run_lift_bind] at h
    cases hnext : Size.add r.learner.epoch 1 with
    | error e' =>
        rw [hnext] at h
        cases h
        exact hkept
    | ok epoch =>
        rw [hnext] at h
        cases h

theorem epoch_of_trainEpoch {summary : EpochSummary α ρ}
    (h : (trainEpoch feed n 1).run t = (.ok summary, u)) :
    u.learner.epoch = t.learner.epoch + 1 ∧ t.learner.epoch + 1 < Size.limit := by
  obtain ⟨_, _, h⟩ := Action.run_lift_bind_eq_ok.mp h
  obtain ⟨_, v, hgroups, hlast⟩ := Action.run_bind_eq_ok.mp h
  obtain ⟨_, w, hgroup, hrest⟩ := Action.run_bind_eq_ok.mp hgroups
  cases hrest
  cases hlast
  have hcounted := epoch_of_trainGroup hgroup
  exact hcounted

theorem epoch_of_trainEpoch_error {e : Failure}
    (h : (trainEpoch feed n 1).run t = (.error e, u)) : u.learner.epoch = t.learner.epoch := by
  rw [trainEpoch, Action.run_lift_bind] at h
  split at h
  · rw [Action.run_bind] at h
    rcases hgroups : (Action.replicate 1 (trainGroup feed n)).run t with ⟨e' | groups, v⟩
    · rw [hgroups] at h
      cases h
      obtain ⟨m, hm, _, _, hnone, hgroup⟩ := Action.exists_of_replicate_error hgroups
      obtain rfl : m = 0 := by omega
      cases hnone
      exact epoch_of_trainGroup_error hgroup
    · rw [hgroups] at h
      cases h
  · cases h
    rfl

end

end Training

namespace Copy

variable {β' ρ' : Type} [Scalar α]

/-- However it ends, a copy leaves the step and the epoch of the destination as they are. -/
theorem counters_of_write (start stop : Nat) (source : Learner α ρ β)
    (destination : Learner α ρ' β') :
    ((write start stop true source).run destination).2.step = destination.step ∧
      ((write start stop true source).run destination).2.epoch = destination.epoch := by
  cases hprepare : prepare start stop true source destination with
  | error e =>
      rw [run_write_of_error hprepare]
      exact ⟨rfl, rfl⟩
  | ok prepared =>
      obtain ⟨weights, state⟩ := prepared
      have hgiven : Holder.weights source = .ok source.weights := rfl
      have hown : Holder.weights destination = .ok destination.weights := rfl
      have hlimit := limit_of_prepare hgiven hown hprepare
      obtain ⟨_, hstate⟩ := (prepare_eq_ok hlimit hgiven hown).mp hprepare
      obtain ⟨_, _, _, _, _, _, _, _, rfl⟩ := (prepareState_eq_ok hlimit rfl).mp hstate
      rw [run_write hprepare]
      cases hset : Holder.setWeights destination weights with
      | error e => exact ⟨rfl, rfl⟩
      | ok loaded =>
          obtain ⟨model, _, rfl⟩ := Learner.of_setWeights hset
          dsimp only
          split
          · exact ⟨rfl, rfl⟩
          case h_2 restored hstore =>
            -- The state that is set has the step of the destination.
            obtain ⟨optimizer, hoptimizer, rfl⟩ := Learner.of_setOptimizerState hstore
            obtain ⟨_, _, _, _, rfl⟩ := Adam.setState_eq_ok.mp hoptimizer
            exact ⟨rfl, rfl⟩

theorem counters_of_layers (start stop : Nat) (source : Learner α ρ β)
    (destination : Learner α ρ' β') (journal : Journal α ρ) :
    ((layers start stop true source).run (destination, journal)).2.1.step = destination.step ∧
      ((layers start stop true source).run (destination, journal)).2.1.epoch =
        destination.epoch := by
  rw [(run_layers start stop true source destination journal).2]
  exact counters_of_write start stop source destination

end Copy

end PolicyGradient
