import PolicyGradient.Proofs.Portions
import PolicyGradient.Proofs.Resume

/-!
How steps are grouped does not matter.

Between two steps a learner rests: it counts epochs, sums up and writes out, but it neither learns
nor draws (`Training.Rests`).  So what it learns depends on how many steps it makes and not on the
portions that they are asked for in, as long as the feed does not look at the epoch in which it is
started (`Training.grouping_irrelevant`).
-/

namespace PolicyGradient

open Outcome
open Decimal (Shown)

variable {α ρ β σ : Type}

namespace Learner

variable [Scalar α] [Scalar ρ] [Narrows ρ α]

/-- An update leaves what is aside as it is, and takes only the epoch of its record from there. -/
theorem update_aside (learner : Learner α ρ β) (epoch : Nat) (started : Bool)
    (loggers : List Logger) (batch : β) :
    update { learner with epoch := epoch, started := started, loggers := loggers } batch =
      (learner.update batch).map fun updated =>
        ({ updated.1 with epoch := epoch, started := started, loggers := loggers },
          { updated.2 with epoch := epoch }) := by
  have hstep : step { learner with epoch := epoch, started := started, loggers := loggers } =
      learner.step := rfl
  unfold update
  rw [hstep]
  dsimp only
  cases learner.objective.loss learner.model batch with
  | error e => rfl
  | ok loss =>
      cases learner.objective.gradients learner.model batch with
      | error e => rfl
      | ok gradients =>
          cases hnext : Size.add learner.step 1 with
          | error e => rfl
          | ok step =>
              simp only [Except.bind, bind]
              cases learner.optimizer.update (Narrows.narrow (learner.schedule.rate step))
                learner.model gradients with
              | error e => rfl
              | ok updated => rfl

/-- The rate of an update is that of its number. -/
theorem lr_of_update {learner learner' : Learner α ρ β} {batch : β} {record : StepRecord α ρ}
    (h : learner.update batch = .ok (learner', record)) :
    record.lr = learner.schedule.rate record.step := by
  unfold Learner.update at h
  simp only [bind_eq_ok] at h
  obtain ⟨_, _, _, _, _, _, _, _, heq⟩ := h
  cases heq
  rfl

/-- Learners that differ aside make the same update of a batch. -/
theorem Aside.update {x y x' y' : Learner α ρ β} (h : x.Aside y) {batch : β}
    {record record' : StepRecord α ρ} (hx : x.update batch = .ok (x', record))
    (hy : y.update batch = .ok (y', record')) : x'.Aside y' ∧ record.SameStep record' := by
  rw [h, update_aside, hx] at hy
  cases hy
  exact ⟨rfl, rfl, rfl, rfl⟩

end Learner

namespace Training

/-- The learner has neither learned nor drawn in between. -/
structure Rests (t u : Training α ρ β σ) : Prop where
  learner : t.learner.Aside u.learner
  started : u.learner.started = t.learner.started
  source : u.source = t.source

theorem Rests.refl (t : Training α ρ β σ) : t.Rests t :=
  ⟨.refl t.learner, rfl, rfl⟩

theorem Rests.trans {t u v : Training α ρ β σ} (h : t.Rests u) (h' : u.Rests v) : t.Rests v :=
  ⟨h.learner.trans h'.learner, h'.started.trans h.started, h'.source.trans h.source⟩

theorem Rests.schedule {t u : Training α ρ β σ} (h : t.Rests u) :
    u.learner.schedule = t.learner.schedule := by
  rw [h.learner]

theorem Rests.step {t u : Training α ρ β σ} (h : t.Rests u) :
    u.learner.step = t.learner.step := by
  rw [h.learner]
  rfl

/-- Two trainings whose learners have learned the same, and whose feeds go on alike. -/
structure Abreast (feed : Feed σ β) (t u : Training α ρ β σ) : Prop where
  learner : t.learner.Aside u.learner
  source : (t.start feed).source = (u.start feed).source

section

variable {feed : Feed σ β} {t u v : Training α ρ β σ}

theorem Abreast.refl (feed : Feed σ β) (t : Training α ρ β σ) : Abreast feed t t :=
  ⟨.refl t.learner, rfl⟩

theorem Abreast.symm (h : Abreast feed t u) : Abreast feed u t := by
  refine ⟨?_, h.source.symm⟩
  have hlearner := h.learner
  unfold Learner.Aside at hlearner ⊢
  rw [hlearner]

theorem Abreast.trans (h : Abreast feed t u) (h' : Abreast feed u v) : Abreast feed t v :=
  ⟨h.learner.trans h'.learner, h.source.trans h'.source⟩

/-- A feed that ignores the epoch is started in the same way before a rest and after it. -/
theorem Rests.abreast (hfeed : ∀ epoch epoch' s, feed.start epoch s = feed.start epoch' s)
    (h : t.Rests u) : Abreast feed t u := by
  refine ⟨h.learner, ?_⟩
  rw [start, start, h.started]
  by_cases hstarted : t.learner.started
  · rw [if_pos hstarted, if_pos hstarted, h.source]
  · rw [if_neg hstarted, if_neg hstarted]
    dsimp only
    rw [h.source, hfeed]

end

variable [Scalar α] [Scalar ρ] [Shown α] [Shown ρ] [Narrows ρ α]

/-- Trainings that are abreast make the same step. -/
theorem Abreast.trainStep {feed : Feed σ β} {t u t' u' : Training α ρ β σ}
    {record record' : StepRecord α ρ} (h : Abreast feed t u)
    (ht : (trainStep feed).run t = (.ok record, t'))
    (hu : (trainStep feed).run u = (.ok record', u')) :
    record.SameStep record' ∧ Abreast feed t' u' := by
  have hsource := source_of_trainStep feed t
  have hsource' := source_of_trainStep feed u
  rw [ht] at hsource
  rw [hu, ← h.source] at hsource'
  obtain ⟨batch, x, _, hitem, hupdate, hlast, _⟩ := of_trainStep ht
  obtain ⟨batch', y, _, hitem', hupdate', hlast', _⟩ := of_trainStep hu
  rw [← h.source, hitem] at hitem'
  cases hitem'
  have hdrawn : Learner.Aside { t.learner with started := true }
      { u.learner with started := true } := by
    have hlearner := h.learner
    unfold Learner.Aside at hlearner ⊢
    rw [hlearner]
  obtain ⟨haside, hrecord⟩ := hdrawn.update hupdate hupdate'
  refine ⟨hrecord, ?_, hsource.trans hsource'.symm⟩
  unfold Learner.Aside at haside ⊢
  rw [hlast, hlast', haside]

/-- A step is made in the learner's epoch, and has the next number and the rate of that number. -/
theorem counters_of_trainStep {feed : Feed σ β} {t u : Training α ρ β σ} {record : StepRecord α ρ}
    (h : (trainStep feed).run t = (.ok record, u)) :
    u.learner.schedule = t.learner.schedule ∧ u.learner.epoch = t.learner.epoch ∧
      record.epoch = t.learner.epoch ∧ record.step = t.learner.step + 1 ∧
        record.lr = t.learner.schedule.rate record.step := by
  obtain ⟨_, _, _, _, hupdate, hlast, _⟩ := of_trainStep h
  have hepoch := Learner.epoch_of_update hupdate
  have hrate := Learner.lr_of_update hupdate
  obtain ⟨_, _, _, _, _, hframe, hnumber, _⟩ := Learner.of_update hupdate
  rw [hlast, hframe]
  exact ⟨rfl, rfl, hepoch, hnumber, hrate⟩

/-- Steps with these records, one after the other, with rests in between. -/
inductive Steps (feed : Feed σ β) :
    Training α ρ β σ → List (StepRecord α ρ) → Training α ρ β σ → Prop
  | nil {t u : Training α ρ β σ} (h : t.Rests u) : Steps feed t [] u
  | cons {t s u v : Training α ρ β σ} {record : StepRecord α ρ} {records : List (StepRecord α ρ)}
      (h : t.Rests s) (hstep : (trainStep feed).run s = (.ok record, u))
      (hrest : Steps feed u records v) : Steps feed t (record :: records) v

namespace Steps

variable {feed : Feed σ β} {t u v : Training α ρ β σ} {records others : List (StepRecord α ρ)}

theorem of_rests (h : Steps feed u records v) (hrests : t.Rests u) : Steps feed t records v := by
  cases h with
  | nil hu => exact .nil (hrests.trans hu)
  | cons hu hstep hrest => exact .cons (hrests.trans hu) hstep hrest

theorem append (h : Steps feed t records u) (h' : Steps feed u others v) :
    Steps feed t (records ++ others) v := by
  induction h with
  | nil hrests => exact h'.of_rests hrests
  | cons hrests hstep _ ih => exact .cons hrests hstep (ih h')

/-- Progress is made of steps, and to count an epoch is to rest. -/
theorem of_progress {made : List (β × StepRecord α ρ)} (h : Progress feed t made u) :
    Steps feed t (made.map Prod.snd) u := by
  induction h with
  | nil t => exact .nil (.refl t)
  | step _ hstep _ ih => exact .cons (.refl _) hstep ih
  | epoch hepoch _ ih =>
      obtain ⟨_, rfl⟩ := advanceEpoch_eq_ok.mp hepoch
      refine ih.of_rests ⟨?_, rfl, rfl⟩
      exact rfl

/-- The schedule stays the same, the steps are numbered from the learner's step on, and each has the
rate of its number. -/
theorem numbered (h : Steps feed t records u) :
    u.learner.schedule = t.learner.schedule ∧
      records.map StepRecord.step = List.range' (t.learner.step + 1) records.length ∧
      ∀ record ∈ records, record.lr = t.learner.schedule.rate record.step := by
  induction h with
  | nil hrests =>
      refine ⟨hrests.schedule, rfl, ?_⟩
      exact fun record hrecord => absurd hrecord List.not_mem_nil
  | cons hrests hstep _ ih =>
      obtain ⟨hkept, _, _, hnumber, hrate⟩ := counters_of_trainStep hstep
      have hcount := step_of_trainStep hstep
      obtain ⟨hschedule, hnumbers, hrates⟩ := ih
      rw [hkept, hrests.schedule] at hschedule hrates
      rw [hrests.schedule] at hrate
      rw [hrests.step] at hnumber hcount
      refine ⟨hschedule, ?_, List.forall_mem_cons.mpr ⟨hrate, hrates⟩⟩
      rw [List.map_cons, hnumbers, hcount, hnumber, List.length_cons, List.range'_succ]

/-- From trainings that are abreast, as many steps are the same steps and keep them abreast. -/
theorem abreast (hfeed : ∀ epoch epoch' s, feed.start epoch s = feed.start epoch' s)
    {t' v' : Training α ρ β σ} {records' : List (StepRecord α ρ)} (hstart : Abreast feed t t')
    (h : Steps feed t records v) (h' : Steps feed t' records' v')
    (hlength : records.length = records'.length) :
    List.Forall₂ StepRecord.SameStep records records' ∧ Abreast feed v v' := by
  induction h generalizing t' records' with
  | nil hrests =>
      cases h' with
      | nil hrests' =>
          have hlast := (hrests.abreast hfeed).symm.trans hstart
          exact ⟨.nil, hlast.trans (hrests'.abreast hfeed)⟩
      | cons => cases hlength
  | cons hrests hstep _ ih =>
      cases h' with
      | nil => cases hlength
      | cons hrests' hstep' hrest' =>
          have hbefore := ((hrests.abreast hfeed).symm.trans hstart).trans (hrests'.abreast hfeed)
          obtain ⟨hrecord, hafter⟩ := hbefore.trainStep hstep hstep'
          obtain ⟨hrecords, hlast⟩ := ih hafter hrest' (Nat.succ.inj hlength)
          exact ⟨.cons hrecord hrecords, hlast⟩

end Steps

/-- For each step of the portions, how many epochs are complete before it. -/
def epochsBefore : List Portion → List Nat
  | [] => []
  | portion :: portions =>
      portion.epochsBefore ++ (epochsBefore portions).map (portion.span + ·)

/-- Each portion has a record for each of its steps, and the reply to it tells of them. -/
inductive Told : List Portion → List (StepRecord α ρ) → List (Reply α ρ) → Prop
  | nil : Told [] [] []
  | cons {portion : Portion} {portions : List Portion} {own records : List (StepRecord α ρ)}
      {reply : Reply α ρ} {replies : List (Reply α ρ)} (hlength : own.length = portion.size)
      (htells : reply.Tells own portion) (hrest : Told portions records replies) :
      Told (portion :: portions) (own ++ records) (reply :: replies)

section

variable {feed : Feed σ β} {t u : Training α ρ β σ}

/-- A portion that succeeds has made all its steps, counted its epochs and told of its records. -/
theorem steps_of_answer {portion : Portion} {reply : Reply α ρ}
    (h : (answer feed portion).run t = (.ok reply, u)) :
    Steps feed t (made feed portion t) u ∧ (made feed portion t).length = portion.size ∧
      reply.Tells (made feed portion t) portion ∧
      u.learner.epoch = t.learner.epoch + portion.span ∧
      (made feed portion t).map StepRecord.epoch =
        portion.epochsBefore.map (t.learner.epoch + ·) := by
  cases portion with
  | step =>
      obtain ⟨record, _, hstep, hlast⟩ := Action.run_bind_eq_ok.mp h
      cases hlast
      have hmade : made feed .step t = [record] := madeInStep_of_ok hstep
      obtain ⟨_, hepoch, hrecord, _⟩ := counters_of_trainStep hstep
      rw [hmade]
      refine ⟨.cons (.refl t) hstep (.nil (.refl u)), rfl, rfl, hepoch, ?_⟩
      exact congrArg (fun epoch => [epoch]) hrecord
  | epochs n k =>
      obtain ⟨summary, _, hepochs, hlast⟩ := Action.run_bind_eq_ok.mp h
      cases hlast
      obtain ⟨groups, s, hgroups, hconclude, hmade⟩ := groups_of_trainEpoch hepochs
      obtain ⟨hcount, entries, hprogress, hentries, hbefore⟩ := progress_of_groups hgroups
      rw [← hentries] at hmade
      have hlength : (made feed (.epochs n k) t).length = n * k := by
        have hmap := congrArg List.length hbefore
        rw [List.length_map, List.length_map, List.length_range] at hmap
        rw [hmade, List.length_map, hmap, Nat.mul_comm]
      cases hconclude
      refine ⟨?_, hlength, ⟨hlength, rfl, rfl⟩, hcount, ?_⟩
      · -- To sum up and to write out is to rest.
        have hrests : ∀ loggers journal, Rests s { s with
            learner := { s.learner with loggers := loggers }, journal := journal } :=
          fun _ _ => ⟨rfl, rfl, rfl⟩
        rw [hmade, ← List.append_nil (entries.map Prod.snd)]
        exact (Steps.of_progress hprogress).append (.nil (hrests _ _))
      · rw [hmade, List.map_map, Portion.epochsBefore, List.map_map, Nat.mul_comm n k]
        exact hbefore

/-- The records, the replies and the counters of portions that succeed one after the other. -/
structure Accounted (t : Training α ρ β σ) (portions : List Portion) (replies : List (Reply α ρ))
    (records : List (StepRecord α ρ)) (u : Training α ρ β σ) : Prop where
  steps : records.map StepRecord.step =
    List.range' (t.learner.step + 1) (Portion.sizes portions)
  rates : ∀ record ∈ records, record.lr = t.learner.schedule.rate record.step
  epochs : records.map StepRecord.epoch = (epochsBefore portions).map (t.learner.epoch + ·)
  epoch : u.learner.epoch = t.learner.epoch + Portion.spans portions
  replies : Told portions records replies

/-- Portions that succeed have made their steps, counted their epochs and told of their records. -/
theorem steps_of_answers {portions : List Portion} {replies : List (Reply α ρ)}
    (h : (portions.mapM (answer feed)).run t = (.ok replies, u)) :
    Steps feed t (madeIn feed portions t) u ∧
      (madeIn feed portions t).length = Portion.sizes portions ∧
      Told portions (madeIn feed portions t) replies ∧
      u.learner.epoch = t.learner.epoch + Portion.spans portions ∧
      (madeIn feed portions t).map StepRecord.epoch =
        (epochsBefore portions).map (t.learner.epoch + ·) := by
  induction portions generalizing t replies with
  | nil =>
      cases h
      exact ⟨.nil (.refl _), rfl, .nil, rfl, rfl⟩
  | cons portion portions ih =>
      obtain ⟨reply, s, others, hreply, hothers, rfl⟩ := run_answers_cons_eq_ok.mp h
      obtain ⟨hown, hlength, htells, hcount, hepochs⟩ := steps_of_answer hreply
      obtain ⟨hrest, hlength', htold, hcount', hepochs'⟩ := ih hothers
      have hmade : madeIn feed (portion :: portions) t =
          made feed portion t ++ madeIn feed portions s := by
        rw [madeIn, hreply]
      have hshift : (t.learner.epoch + portion.span + ·) =
          (t.learner.epoch + ·) ∘ (portion.span + ·) := by
        funext epochs
        exact Nat.add_assoc _ _ epochs
      rw [hmade, Portion.sizes, Portion.spans]
      refine ⟨hown.append hrest, ?_, .cons hlength htells htold, ?_, ?_⟩
      · rw [List.length_append, hlength, hlength']
      · rw [hcount', hcount, Nat.add_assoc]
      · rw [List.map_append, hepochs, hepochs', hcount, epochsBefore, List.map_append,
          List.map_map, hshift]

theorem accounted_of_answers {portions : List Portion} {replies : List (Reply α ρ)}
    (h : (portions.mapM (answer feed)).run t = (.ok replies, u)) :
    Accounted t portions replies (madeIn feed portions t) u := by
  obtain ⟨hsteps, hlength, htold, hcount, hepochs⟩ := steps_of_answers h
  obtain ⟨_, hnumbers, hrates⟩ := hsteps.numbered
  rw [hlength] at hnumbers
  exact ⟨hnumbers, hrates, hepochs, hcount, htold⟩

end

/-- Portions that succeed from the same state and have as many steps in all train alike, however
the steps are grouped: they leave the same weights and the same optimizer state, and their steps
have the same numbers, losses and rates.  Each of them is accounted for: the steps go on from the
learner's step, each has the rate of its number and is made in the epoch that has been reached by
then, the epochs are counted, and the replies tell of the steps that they are about. -/
theorem grouping_irrelevant {feed : Feed σ β}
    (hfeed : ∀ epoch epoch' s, feed.start epoch s = feed.start epoch' s)
    {t u u' : Training α ρ β σ} {portions portions' : List Portion}
    {replies replies' : List (Reply α ρ)}
    (h : (portions.mapM (answer feed)).run t = (.ok replies, u))
    (h' : (portions'.mapM (answer feed)).run t = (.ok replies', u'))
    (htotal : Portion.sizes portions = Portion.sizes portions') :
    u.learner.weights = u'.learner.weights ∧
      u.learner.optimizerState = u'.learner.optimizerState ∧
      (madeIn feed portions t).map (fun record => (record.step, record.loss, record.lr)) =
        (madeIn feed portions' t).map (fun record => (record.step, record.loss, record.lr)) ∧
      Accounted t portions replies (madeIn feed portions t) u ∧
      Accounted t portions' replies' (madeIn feed portions' t) u' := by
  obtain ⟨hsteps, hlength, _⟩ := steps_of_answers h
  obtain ⟨hsteps', hlength', _⟩ := steps_of_answers h'
  have hsame : (madeIn feed portions t).length = (madeIn feed portions' t).length := by
    rw [hlength, hlength', htotal]
  obtain ⟨hrecords, hlast⟩ := hsteps.abreast hfeed (.refl feed t) hsteps' hsame
  refine ⟨?_, ?_, ?_, accounted_of_answers h, accounted_of_answers h'⟩
  · rw [hlast.learner]
    rfl
  · rw [hlast.learner]
    rfl
  · refine map_eq_iff_forall₂.mpr (hrecords.imp ?_)
    rintro record record' ⟨hstep, hloss, hlr⟩
    rw [hstep, hloss, hlr]

namespace Line

/-- The feed that gives out two points in turn, in whatever epoch it is started. -/
def turns : Feed Nat (ValueBatch Float32) where
  start _ _ := 0
  next s := (some (.ok (if s % 2 = 0 then point 2 1 else point 1 1)), s + 1)

/-- A learner that is yet to be called, before this feed. -/
def waiting : Training Float32 Float (ValueBatch Float32) Nat :=
  ⟨(fresh 7 0.25).learner, 0, .start .empty⟩

/-- A step, two empty epochs and an epoch of two steps do the same as three epochs of one step. -/
theorem grouping_irrelevant_turns : ∃ replies u replies' u',
    ([.step, .epochs 0 2, .epochs 2 1].mapM (answer turns)).run waiting = (.ok replies, u) ∧
      ([.epochs 1 3].mapM (answer turns)).run waiting = (.ok replies', u') ∧
      u.learner.weights = u'.learner.weights ∧
      u.learner.optimizerState = u'.learner.optimizerState ∧
      u.learner.epoch = 3 ∧ u'.learner.epoch = 3 := by
  have hruns : (([.step, .epochs 0 2, .epochs 2 1].mapM (answer turns)).run waiting).1.isOk =
      true := by decide +kernel
  have hruns' : (([.epochs 1 3].mapM (answer turns)).run waiting).1.isOk = true := by
    decide +kernel
  obtain ⟨replies, hreplies⟩ := exists_of_isOk hruns
  obtain ⟨replies', hreplies'⟩ := exists_of_isOk hruns'
  have hrun : ([.step, .epochs 0 2, .epochs 2 1].mapM (answer turns)).run waiting =
      (.ok replies, _) := Prod.ext hreplies rfl
  have hrun' : ([.epochs 1 3].mapM (answer turns)).run waiting = (.ok replies', _) :=
    Prod.ext hreplies' rfl
  obtain ⟨hweights, hstate, _, haccount, haccount'⟩ :=
    grouping_irrelevant (fun _ _ _ => rfl) hrun hrun' rfl
  exact ⟨replies, _, replies', _, hrun, hrun', hweights, hstate, haccount.epoch, haccount'.epoch⟩

end Line

end Training

end PolicyGradient
