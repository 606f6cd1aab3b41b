import PolicyGradient.Proofs.Twins

/-!
Training steps that fail.

A step that fails has drawn from the feed and changed nothing else (`Training.of_failed_trainStep`).
So the steps that succeed do not notice those that fail: the trail of a training is, without the
failed steps, that of a training on the items of the others (`Training.trail_of_kept`).
-/

namespace PolicyGradient

open Outcome
open Decimal (Shown)

variable {α ρ β γ σ σ' : Type}

/-- The computation does not end with an error for its caller: it has a result or ends with a
fault. -/
def Outcome.NoError (x : Outcome β) : Prop :=
  ∀ cause, x ≠ failWith cause

namespace Outcome

theorem noError_ok (b : β) : NoError (.ok b) := by
  intro cause h
  cases h

theorem NoError.bind {x : Outcome β} {f : β → Outcome γ} (hx : NoError x)
    (hf : ∀ b, NoError (f b)) : NoError (x >>= f) := by
  cases x with
  | error e =>
      intro cause h
      cases h
      exact hx cause rfl
  | ok b => exact hf b

theorem noError_bounded (n : Nat) : NoError (Size.bounded n) := by
  intro cause h
  unfold Size.bounded at h
  split at h
  · cases h
  · cases h

theorem noError_allocate (count width : Nat) : NoError (Size.allocate count width) := by
  intro cause h
  unfold Size.allocate at h
  split at h
  · cases h
  · cases h

end Outcome

section

variable [Shown α] [Shown ρ]

theorem Logger.noError_step (record : StepRecord α ρ) (files : Files) (logger : Logger) :
    (logger.step record files).NoError := by
  cases logger with
  | table t => exact noError_ok _
  | console interval last =>
      have hdue : (Logger.due interval last record.step).NoError := by
        cases last with
        | none => exact noError_ok true
        | some last => exact (noError_bounded _).bind fun _ => noError_ok _
      refine hdue.bind fun isDue => ?_
      cases isDue with
      | false => exact noError_ok _
      | true => exact noError_ok _

/-- Loggers refuse nothing. -/
theorem Loggers.noError_step (record : StepRecord α ρ) (files : Files) (loggers : List Logger) :
    (Loggers.step record files loggers).1.NoError := by
  induction loggers generalizing files with
  | nil => exact noError_ok ()
  | cons logger loggers ih =>
      have hlogger := Logger.noError_step record files logger
      unfold Loggers.step
      cases hstep : logger.step record files with
      | error e =>
          intro cause h
          cases h
          exact hlogger cause hstep
      | ok stepped => exact ih stepped.2.1

end

namespace Training

/-- Starting the feed changes nothing of a training but its feed. -/
theorem start_eq (feed : Feed σ β) (t : Training α ρ β σ) : t.start feed =
    { t with learner := { t.learner with started := true }, source := (t.start feed).source } := by
  unfold start
  split
  · next hstarted => rw [← hstarted]
  · rfl

/-- A draw takes one item from the feed and changes nothing else. -/
theorem run_nextBatch_eq (feed : Feed σ β) (t : Training α ρ β σ) : (nextBatch feed).run t =
    ((feed.next (t.start feed).source).1.getD (failWith (.exhausted t.learner.name)),
      { t with
        learner := { t.learner with started := true }
        source := (feed.next (t.start feed).source).2 }) := by
  simp only [nextBatch, Action.run_of]
  rw [start_eq]
  cases (feed.next (t.start feed).source).1 with
  | none => rfl
  | some item => rfl

/-- Trainings with equal journals, whose learners differ in nothing but whether their feeds have
been started. -/
structure Beside (t : Training α ρ β σ) (u : Training α ρ β σ') : Prop where
  learner : u.learner = { t.learner with started := u.learner.started }
  journal : u.journal = t.journal

section

variable [Scalar α] [Scalar ρ] [Shown α] [Shown ρ]

omit [Scalar ρ] in
theorem noError_report (record : StepRecord α ρ) (t : Training α ρ β σ) :
    ((report record).run t).1.NoError :=
  Loggers.noError_step record _ _

variable [Narrows ρ α]

/-- Learning fails before it has changed anything. -/
theorem of_failed_learn {batch : β} {t after : Training α ρ β σ} {cause : Error}
    (h : (learn batch).run t = (.error (.error cause), after)) : after = t := by
  rw [learn, Action.run_bind, Action.run_get] at h
  dsimp only at h
  rw [Action.run_lift_bind] at h
  cases hupdate : t.learner.update batch with
  | error e =>
      rw [hupdate] at h
      cases h
      rfl
  | ok updated =>
      simp only [hupdate] at h
      rw [Action.run_bind, Action.run_modify] at h
      dsimp only at h
      rw [Action.run_bind_pure, Prod.mk.injEq] at h
      have hreport := noError_report updated.2 { t with learner := updated.1 }
      rcases hrun : (report updated.2).run { t with learner := updated.1 } with ⟨e | _, u⟩
      · rw [hrun] at h hreport
        cases h.1
        exact absurd rfl (hreport cause)
      · rw [hrun] at h
        cases h.1

/-- A step that fails has drawn from the feed, and has changed nothing else. -/
theorem of_failed_trainStep {feed : Feed σ β} {t after : Training α ρ β σ} {cause : Error}
    (h : (trainStep feed).run t = (.error (.error cause), after)) :
    after = { t with
      learner := { t.learner with started := true }
      source := (feed.next (t.start feed).source).2 } := by
  rw [trainStep_eq, Action.run_bind, run_nextBatch_eq] at h
  cases hitem : (feed.next (t.start feed).source).1.getD
      (failWith (.exhausted t.learner.name)) with
  | error e =>
      rw [hitem] at h
      cases h
      rfl
  | ok batch =>
      rw [hitem] at h
      exact of_failed_learn h

end

section

variable {feed : Feed σ β} {feed' : Feed σ' β} {t : Training α ρ β σ} {u : Training α ρ β σ'}

theorem Beside.of_failed (h : t.Beside u) (s : σ) :
    Beside { t with learner := { t.learner with started := true }, source := s } u :=
  ⟨h.learner, h.journal⟩

variable [Scalar α] [Scalar ρ] [Shown α] [Shown ρ] [Narrows ρ α]

/-- A step that succeeds has drawn a batch. -/
theorem item_of_trainStep {record : StepRecord α ρ} {after : Training α ρ β σ}
    (h : (trainStep feed).run t = (.ok record, after)) :
    ∃ batch, (feed.next (t.start feed).source).1 = some (.ok batch) := by
  rw [trainStep_eq] at h
  obtain ⟨batch, _, hdraw, _⟩ := Action.run_bind_eq_ok.mp h
  rw [run_nextBatch_eq] at hdraw
  cases hitem : (feed.next (t.start feed).source).1 with
  | none =>
      rw [hitem] at hdraw
      cases (Prod.mk.inj hdraw).1
  | some item =>
      rw [hitem] at hdraw
      exact ⟨batch, congrArg some (Prod.mk.inj hdraw).1⟩

/-- On the same item, trainings that differ in their feeds make the same step. -/
theorem Beside.trainStep (h : t.Beside u) {item : Outcome β}
    (hitem : (feed.next (t.start feed).source).1 = some item)
    (hitem' : (feed'.next (u.start feed').source).1 = some item) :
    Together (fun _ _ => True) ((Training.trainStep feed).run t).2
        ((Training.trainStep feed').run u).2 ∧
      ((Training.trainStep feed').run u).1 = ((Training.trainStep feed).run t).1 := by
  have hdrawn : Together (fun (_ : σ) (_ : σ') => True)
      { t with
        learner := { t.learner with started := true }
        source := (feed.next (t.start feed).source).2 }
      { u with
        learner := { u.learner with started := true }
        source := (feed'.next (u.start feed').source).2 } := by
    refine ⟨?_, h.journal.symm, trivial⟩
    rw [h.learner]
  rw [trainStep_eq, trainStep_eq, Action.run_bind, Action.run_bind, run_nextBatch_eq,
    run_nextBatch_eq, hitem, hitem']
  cases item with
  | error e => exact ⟨hdrawn, rfl⟩
  | ok batch =>
      obtain ⟨hagree, hlast⟩ := lockstep_learn batch _ _ hdrawn
      exact ⟨hlast, hagree.eq.symm⟩

end

variable [Scalar α] [Scalar ρ] [Shown α] [Shown ρ] [Narrows ρ α]

/-- The outcomes of `n` training steps, each with the learner and the journal after it. -/
def trail (feed : Feed σ β) : Nat → Training α ρ β σ →
    List (Outcome (StepRecord α ρ) × Learner α ρ β × Journal α ρ)
  | 0, _ => []
  | n + 1, t =>
      let (outcome, after) := (trainStep feed).run t
      (outcome, after.learner, after.journal) :: trail feed n after

end Training

/-- What a feed gives out in `n` draws. -/
def Feed.items (feed : Feed σ β) : Nat → σ → List (Option (Outcome β))
  | 0, _ => []
  | n + 1, s => (feed.next s).1 :: items feed n (feed.next s).2

namespace Training

variable [Scalar α] [Scalar ρ] [Shown α] [Shown ρ] [Narrows ρ α]

/-- The items of `n` training steps without those of the steps that fail. -/
def kept (feed : Feed σ β) (n : Nat) (t : Training α ρ β σ) : List (Outcome β) :=
  ((trail feed n t).zip (feed.items n (t.start feed).source)).filterMap fun (entry, item) =>
    if entry.1.isOk then item else none

section

variable {feed : Feed σ β} {feed' : Feed σ' β} {t : Training α ρ β σ} {u : Training α ρ β σ'}

theorem kept_of_failed {e : Failure} {after : Training α ρ β σ} (n : Nat)
    (h : (trainStep feed).run t = (.error e, after)) :
    kept feed (n + 1) t = kept feed n after := by
  have hsource := source_of_trainStep feed t
  rw [h] at hsource
  rw [kept, kept, trail, Feed.items, h, ← hsource]
  rfl

theorem kept_of_ok {record : StepRecord α ρ} {after : Training α ρ β σ} {item : Outcome β} (n : Nat)
    (h : (trainStep feed).run t = (.ok record, after))
    (hitem : (feed.next (t.start feed).source).1 = some item) :
    kept feed (n + 1) t = item :: kept feed n after := by
  have hsource := source_of_trainStep feed t
  rw [h] at hsource
  rw [kept, kept, trail, Feed.items, h, ← hsource, hitem]
  rfl

/-- Without the failed steps, the trail of a training is that of a training on the items of the
other steps. -/
theorem trail_of_kept (h : t.Beside u) (n : Nat)
    (hanswers : ∀ entry ∈ trail feed n t, entry.1.Answers)
    (hkept : feed'.Delivers (u.start feed').source (kept feed n t)) :
    trail feed' (kept feed n t).length u =
      (trail feed n t).filter fun entry => entry.1.isOk := by
  induction n generalizing t u with
  | zero => rfl
  | succ n ih =>
      rcases hrun : (trainStep feed).run t with ⟨(cause | fault) | record, after⟩
      · -- The step fails: the other training waits, and what is ahead stays the same.
        have hfailed := of_failed_trainStep hrun
        rw [kept_of_failed n hrun] at hkept ⊢
        rw [trail, hrun] at hanswers ⊢
        have hbeside : after.Beside u := hfailed ▸ h.of_failed _
        exact ih hbeside (fun entry hentry => hanswers entry (.tail _ hentry)) hkept
      · rw [trail, hrun] at hanswers
        exact absurd rfl (hanswers _ List.mem_cons_self fault)
      · -- The step succeeds: the other training has the same item in front of it.
        obtain ⟨batch, hitem⟩ := item_of_trainStep hrun
        rw [kept_of_ok n hrun hitem] at hkept ⊢
        rw [trail, hrun] at hanswers ⊢
        obtain ⟨hlast, houtcome⟩ := h.trainStep hitem hkept.1
        have hsource := source_of_trainStep feed' u
        rcases hrun' : (trainStep feed').run u with ⟨outcome, after'⟩
        rw [hrun, hrun'] at hlast houtcome
        rw [hrun'] at hsource
        dsimp only at hlast houtcome hsource
        have hbeside : after.Beside after' := by
          refine ⟨?_, hlast.journal.symm⟩
          rw [hlast.learner]
        have hrest := ih hbeside (fun entry hentry => hanswers entry (.tail _ hentry))
          (hsource ▸ hkept.2)
        rw [List.length_cons, trail, hrun']
        dsimp only
        rw [hrest, houtcome, ← hlast.learner, ← hlast.journal]
        rfl

end

end Training

end PolicyGradient
