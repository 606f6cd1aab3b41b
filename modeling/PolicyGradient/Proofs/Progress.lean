import PolicyGradient.Proofs.FailedSteps
import PolicyGradient.Proofs.Rows
import PolicyGradient.Proofs.Snapshots

/-!
How far a training has come when it fails.

A training makes progress by steps that succeed and by epochs that it counts in between
(`Training.Progress`).  An epoch that fails has got as far as its last successful step: it leaves
the updates and the rows of the steps before the failure, and has counted the groups of steps that
are complete (`Training.interrupted_of_trainEpoch`).
-/

namespace PolicyGradient

open Outcome
open Decimal (Shown)

variable {α ρ β γ σ σ' : Type}

/-- An action that fails when it is repeated has succeeded for a while before. -/
theorem Action.exists_of_replicate_error {act : Action σ β} {n : Nat} {s u : σ} {e : Failure}
    (h : (replicate n act).run s = (.error e, u)) :
    ∃ m < n, ∃ bs t, (replicate m act).run s = (.ok bs, t) ∧ act.run t = (.error e, u) := by
  induction n generalizing s with
  | zero => cases h
  | succ n ih =>
      rw [replicate, run_bind] at h
      rcases hfirst : act.run s with ⟨e' | b, t⟩
      · rw [hfirst] at h
        cases h
        exact ⟨0, Nat.succ_pos n, [], s, rfl, hfirst⟩
      · rw [hfirst] at h
        dsimp only at h
        rw [run_bind_pure, Prod.mk.injEq] at h
        rcases hrest : (replicate n act).run t with ⟨e' | bs, v⟩
        · rw [hrest] at h
          obtain ⟨he, rfl⟩ := h
          cases he
          obtain ⟨m, hm, bs, w, hbs, hlast⟩ := ih hrest
          refine ⟨m + 1, Nat.succ_lt_succ hm, b :: bs, w, ?_, hlast⟩
          rw [replicate]
          exact run_bind_eq_ok.mpr ⟨b, t, hfirst, run_bind_eq_ok.mpr ⟨bs, w, hbs, rfl⟩⟩
        · rw [hrest] at h
          cases h.1

/-- Steps of one group are made in one epoch. -/
theorem map_div_range {n i : Nat} (hi : i ≤ n) (first g : Nat) :
    (List.range i).map (fun j => first + (g * n + j) / n) = List.replicate i (first + g) := by
  rw [List.eq_replicate_iff]
  refine ⟨by rw [List.length_map, List.length_range], ?_⟩
  intro epoch hepoch
  obtain ⟨j, hj, rfl⟩ := List.mem_map.mp hepoch
  have hlt : j < n := Nat.lt_of_lt_of_le (List.mem_range.mp hj) hi
  rw [Nat.add_comm (g * n), Nat.add_mul_div_right j g (Nat.zero_lt_of_lt hlt),
    Nat.div_eq_of_lt hlt, Nat.zero_add]

/-- After a group of `n` steps comes the next epoch. -/
theorem map_div_range_add (n first g : Nat) :
    (List.range (n + g * n)).map (fun i => first + i / n) =
      List.replicate n first ++ (List.range (g * n)).map fun i => first + 1 + i / n := by
  obtain rfl | hn := Nat.eq_zero_or_pos n
  · rw [Nat.mul_zero]
    rfl
  have hfirst := map_div_range (Nat.le_refl n) first 0
  have hrest : ∀ i, first + (n + i) / n = first + 1 + i / n := by
    intro i
    rw [Nat.add_div_left i hn]
    omega
  simp only [Nat.zero_mul, Nat.zero_add, Nat.add_zero] at hfirst
  rw [List.range_add, List.map_append, hfirst, List.map_map]
  simp only [Function.comp_def, hrest]

/-- The record of an update is made in the learner's epoch. -/
theorem Learner.epoch_of_update [Scalar α] [Scalar ρ] [Narrows ρ α]
    {learner learner' : Learner α ρ β} {batch : β} {record : StepRecord α ρ}
    (h : learner.update batch = .ok (learner', record)) : record.epoch = learner.epoch := by
  unfold update at h
  simp only [bind_eq_ok] at h
  obtain ⟨_, _, _, _, _, _, _, _, heq⟩ := h
  cases heq
  rfl

namespace Training

section

variable [Scalar α] [Scalar ρ] [Shown α] [Shown ρ] [Narrows ρ α]

theorem run_learn_eq_ok {batch : β} {record : StepRecord α ρ} {t u : Training α ρ β σ} :
    (learn batch).run t = (.ok record, u) ↔ ∃ learner,
      t.learner.update batch = .ok (learner, record) ∧
        (report record).run { t with learner := learner } = (.ok (), u) := by
  rw [learn, Action.run_bind, Action.run_get]
  dsimp only
  rw [Action.run_lift_bind_eq_ok]
  constructor
  · rintro ⟨⟨learner, record'⟩, hupdate, hrest⟩
    obtain ⟨_, _, hmodify, hrest⟩ := Action.run_bind_eq_ok.mp hrest
    cases hmodify
    obtain ⟨_, _, hreport, hlast⟩ := Action.run_bind_eq_ok.mp hrest
    cases hlast
    exact ⟨learner, hupdate, hreport⟩
  · rintro ⟨learner, hupdate, hreport⟩
    refine ⟨(learner, record), hupdate, Action.run_bind_eq_ok.mpr ?_⟩
    exact ⟨(), _, rfl, Action.run_bind_eq_ok.mpr ⟨(), u, hreport, rfl⟩⟩

omit [Scalar ρ] [Narrows ρ α] in
/-- A record that is put down has been noted by the loggers. -/
theorem of_report {record : StepRecord α ρ} {t u : Training α ρ β σ}
    (h : (report record).run t = (.ok (), u)) :
    u.learner = { t.learner with loggers := u.learner.loggers } ∧ u.source = t.source ∧
      ∃ lines, Loggers.step record t.journal.files t.learner.loggers =
        (.ok (), u.learner.loggers, u.journal.files, lines) := by
  obtain ⟨houtcome, hlast⟩ := Prod.mk.inj h
  rw [← hlast]
  exact ⟨rfl, rfl, _, Prod.ext houtcome rfl⟩

/-- A step that succeeds is an update by the batch drawn, and its record has been noted. -/
theorem of_trainStep {feed : Feed σ β} {record : StepRecord α ρ} {t u : Training α ρ β σ}
    (h : (trainStep feed).run t = (.ok record, u)) :
    ∃ batch learner lines, (feed.next (t.start feed).source).1 = some (.ok batch) ∧
      Learner.update { t.learner with started := true } batch = .ok (learner, record) ∧
      u.learner = { learner with loggers := u.learner.loggers } ∧
      u.source = (feed.next (t.start feed).source).2 ∧
      Loggers.step record t.journal.files t.learner.loggers =
        (.ok (), u.learner.loggers, u.journal.files, lines) := by
  obtain ⟨batch, hitem⟩ := item_of_trainStep h
  rw [trainStep_eq, Action.run_bind, run_nextBatch_eq, hitem] at h
  obtain ⟨learner, hupdate, hreport⟩ := run_learn_eq_ok.mp h
  obtain ⟨hlearner, hsource, lines, hlines⟩ := of_report hreport
  obtain ⟨_, _, _, _, _, hframe, _⟩ := Learner.of_update hupdate
  have hloggers : learner.loggers = t.learner.loggers := by
    rw [hframe]
  dsimp only at hlines
  rw [hloggers] at hlines
  exact ⟨batch, learner, lines, hitem, hupdate, hlearner, hsource, hlines⟩

omit [Scalar α] [Scalar ρ] [Shown α] [Shown ρ] [Narrows ρ α] in
theorem advanceEpoch_eq_ok {t u : Training α ρ β σ} : advanceEpoch.run t = (.ok (), u) ↔
    t.learner.epoch + 1 < Size.limit ∧
      u = { t with learner := { t.learner with epoch := t.learner.epoch + 1 } } := by
  rw [advanceEpoch, Action.run_bind, Action.run_get]
  dsimp only
  rw [Action.run_lift_bind_eq_ok]
  constructor
  · rintro ⟨_, hadd, hlast⟩
    obtain ⟨hlimit, rfl⟩ := Size.add_eq_ok.mp hadd
    exact ⟨hlimit, (Prod.mk.inj hlast).2.symm⟩
  · rintro ⟨hlimit, rfl⟩
    exact ⟨_, Size.add_eq_ok.mpr ⟨hlimit, rfl⟩, rfl⟩

omit [Scalar α] [Scalar ρ] [Shown α] [Shown ρ] [Narrows ρ α] in
theorem noError_advanceEpoch (t : Training α ρ β σ) : (advanceEpoch.run t).1.NoError := by
  simp only [advanceEpoch, Action.run_bind, Action.run_get, Action.run_lift]
  have hadd := noError_bounded (t.learner.epoch + 1)
  cases hnext : Size.add t.learner.epoch 1 with
  | error e =>
      intro cause h
      cases h
      exact hadd cause hnext
  | ok epoch => exact noError_ok ()

end

variable [Scalar α] [Scalar ρ] [Shown α] [Shown ρ] [Narrows ρ α]

/-- Steps that succeed, with the batches that the feed has given for them and their records; epochs
may be counted in between. -/
inductive Progress (feed : Feed σ β) :
    Training α ρ β σ → List (β × StepRecord α ρ) → Training α ρ β σ → Prop
  | nil (t : Training α ρ β σ) : Progress feed t [] t
  | step {t u v : Training α ρ β σ} {batch : β} {record : StepRecord α ρ}
      {made : List (β × StepRecord α ρ)}
      (hitem : (feed.next (t.start feed).source).1 = some (.ok batch))
      (hstep : (trainStep feed).run t = (.ok record, u)) (hrest : Progress feed u made v) :
      Progress feed t ((batch, record) :: made) v
  | epoch {t u v : Training α ρ β σ} {made : List (β × StepRecord α ρ)}
      (hepoch : advanceEpoch.run t = (.ok (), u)) (hrest : Progress feed u made v) :
      Progress feed t made v

namespace Progress

variable {feed : Feed σ β} {t u v : Training α ρ β σ} {made others : List (β × StepRecord α ρ)}

theorem append (h : Progress feed t made u) (h' : Progress feed u others v) :
    Progress feed t (made ++ others) v := by
  induction h with
  | nil t => exact h'
  | step hitem hstep _ ih => exact .step hitem hstep (ih h')
  | epoch hepoch _ ih => exact .epoch hepoch (ih h')

/-- The learner's step counts the steps. -/
theorem learner_step (h : Progress feed t made u) :
    u.learner.step = t.learner.step + made.length := by
  induction h with
  | nil t => rfl
  | step _ hstep _ ih =>
      rw [ih, step_of_trainStep hstep, List.length_cons]
      omega
  | epoch hepoch _ ih =>
      obtain ⟨_, rfl⟩ := advanceEpoch_eq_ok.mp hepoch
      exact ih

/-- The records are numbered from the learner's step on. -/
theorem steps (h : Progress feed t made u) :
    made.map (fun entry => entry.2.step) = List.range' (t.learner.step + 1) made.length := by
  induction h with
  | nil t => rfl
  | step _ hstep _ ih =>
      obtain ⟨_, _, _, _, hupdate, _⟩ := of_trainStep hstep
      obtain ⟨_, _, _, _, _, _, hnumber, _⟩ := Learner.of_update hupdate
      rw [List.map_cons, ih, List.length_cons, List.range'_succ, step_of_trainStep hstep]
      exact congrArg₂ List.cons hnumber rfl
  | epoch hepoch _ ih =>
      obtain ⟨_, rfl⟩ := advanceEpoch_eq_ok.mp hepoch
      exact ih

/-- Each step adds its row to each table with a file of its own. -/
theorem shows (h : Progress feed t made u) {path : Path} {text : String}
    (hshows : Loggers.Shows t.learner.loggers t.journal.files path text) :
    Loggers.Shows u.learner.loggers u.journal.files path
      (text ++ String.join (made.map fun entry => Table.row entry.2)) := by
  induction h generalizing text with
  | nil t =>
      rw [List.map_nil, String.join_nil, String.append_empty]
      exact hshows
  | step _ hstep _ ih =>
      obtain ⟨_, _, _, _, _, _, _, hnoted⟩ := of_trainStep hstep
      rw [List.map_cons, String.join_cons, ← String.append_assoc]
      exact ih (hshows.step hnoted)
  | epoch hepoch _ ih =>
      obtain ⟨_, rfl⟩ := advanceEpoch_eq_ok.mp hepoch
      exact ih hshows

end Progress

section

variable {feed : Feed σ β} {t u : Training α ρ β σ}

/-- Steps that have succeeded one after the other are progress within one epoch. -/
theorem progress_of_steps {m : Nat} {records : List (StepRecord α ρ)}
    (h : (Action.replicate m (trainStep feed)).run t = (.ok records, u)) :
    u.learner.epoch = t.learner.epoch ∧ ∃ made, Progress feed t made u ∧
      made.map Prod.snd = records ∧
      made.map (fun entry => entry.2.epoch) = List.replicate m t.learner.epoch := by
  induction m generalizing t records with
  | zero =>
      cases h
      exact ⟨rfl, [], .nil _, rfl, rfl⟩
  | succ m ih =>
      obtain ⟨record, s, hstep, hrest⟩ := Action.run_bind_eq_ok.mp h
      obtain ⟨others, _, hothers, hlast⟩ := Action.run_bind_eq_ok.mp hrest
      cases hlast
      obtain ⟨batch, learner, _, hitem, hupdate, hlearner, _⟩ := of_trainStep hstep
      have hrecord := Learner.epoch_of_update hupdate
      have hepoch : s.learner.epoch = t.learner.epoch := by
        obtain ⟨_, _, _, _, _, hframe, _⟩ := Learner.of_update hupdate
        rw [hlearner, hframe]
      obtain ⟨hlast, made, hmade, rfl, hepochs⟩ := ih hothers
      refine ⟨hlast.trans hepoch, (batch, record) :: made, .step hitem hstep hmade, rfl, ?_⟩
      rw [List.map_cons, hepochs, hepoch, List.replicate_succ, hrecord]

/-- Complete groups of `n` steps are progress, and each of them is one epoch. -/
theorem progress_of_groups {n g : Nat} {groups : List (List (StepRecord α ρ))}
    (h : (Action.replicate g (trainGroup feed n)).run t = (.ok groups, u)) :
    u.learner.epoch = t.learner.epoch + g ∧ ∃ made, Progress feed t made u ∧
      made.map Prod.snd = groups.flatten ∧
      made.map (fun entry => entry.2.epoch) =
        (List.range (g * n)).map fun i => t.learner.epoch + i / n := by
  induction g generalizing t groups with
  | zero =>
      cases h
      exact ⟨rfl, [], .nil _, rfl, by rw [Nat.zero_mul]; rfl⟩
  | succ g ih =>
      obtain ⟨group, s, hgroup, hrest⟩ := Action.run_bind_eq_ok.mp h
      obtain ⟨others, _, hothers, hlast⟩ := Action.run_bind_eq_ok.mp hrest
      cases hlast
      obtain ⟨records, r, hsteps, hrest⟩ := Action.run_bind_eq_ok.mp hgroup
      obtain ⟨_, _, hadvance, hlast⟩ := Action.run_bind_eq_ok.mp hrest
      cases hlast
      obtain ⟨hepoch, made, hmade, rfl, hepochs⟩ := progress_of_steps hsteps
      obtain ⟨hcount, made', hmade', hrecords, hepochs'⟩ := ih hothers
      have hnext : s.learner.epoch = t.learner.epoch + 1 := by
        obtain ⟨_, rfl⟩ := advanceEpoch_eq_ok.mp hadvance
        exact congrArg (· + 1) hepoch
      refine ⟨by rw [hcount, hnext]; omega, made ++ made',
        hmade.append (.epoch hadvance hmade'), ?_, ?_⟩
      · rw [List.map_append, hrecords, List.flatten_cons]
      · rw [List.map_append, hepochs, hepochs', hnext, Nat.succ_mul, Nat.add_comm (g * n),
          map_div_range_add]

/-- A group fails at one of its steps. -/
theorem of_failed_trainGroup {n : Nat} {cause : Error}
    (h : (trainGroup feed n).run t = (.error (.error cause), u)) :
    ∃ i < n, ∃ records v, (Action.replicate i (trainStep feed)).run t = (.ok records, v) ∧
      (trainStep feed).run v = (.error (.error cause), u) := by
  rw [trainGroup, Action.run_bind] at h
  rcases hsteps : (Action.replicate n (trainStep feed)).run t with ⟨e | records, v⟩
  · rw [hsteps] at h
    cases h
    exact Action.exists_of_replicate_error hsteps
  · rw [hsteps] at h
    dsimp only at h
    rw [Action.run_bind_pure, Prod.mk.injEq] at h
    have hadvance := noError_advanceEpoch v
    rcases hrun : advanceEpoch.run v with ⟨e | _, w⟩
    · rw [hrun] at h hadvance
      cases h.1
      exact absurd rfl (hadvance cause)
    · rw [hrun] at h
      cases h.1

/-- An epoch fails at one of the steps of one of its groups. -/
theorem of_failed_trainEpoch {n k : Nat} {cause : Error}
    (h : (trainEpoch feed n k).run t = (.error (.error cause), u)) :
    ∃ g < k, ∃ groups r, (Action.replicate g (trainGroup feed n)).run t = (.ok groups, r) ∧
      ∃ i < n, ∃ records v, (Action.replicate i (trainStep feed)).run r = (.ok records, v) ∧
        (trainStep feed).run v = (.error (.error cause), u) := by
  rw [trainEpoch, Action.run_lift_bind] at h
  have hroom : (do Size.allocate (← Size.mul n k) recordWidth : Outcome Unit).NoError :=
    (noError_bounded _).bind fun _ => noError_allocate _ _
  cases hallocate : (do Size.allocate (← Size.mul n k) recordWidth : Outcome Unit) with
  | error e =>
      rw [hallocate] at h hroom
      cases h
      exact absurd rfl (hroom cause)
  | ok _ =>
      rw [hallocate] at h
      dsimp only at h
      rw [Action.run_bind] at h
      rcases hgroups : (Action.replicate k (trainGroup feed n)).run t with ⟨e | groups, v⟩
      · rw [hgroups] at h
        cases h
        obtain ⟨g, hg, groups, r, hcomplete, hfailed⟩ := Action.exists_of_replicate_error hgroups
        exact ⟨g, hg, groups, r, hcomplete, of_failed_trainGroup hfailed⟩
      · rw [hgroups] at h
        cases (Prod.mk.inj h).1

end

/-- How far a training has come that was to make epochs of `n` steps and has failed. -/
structure Interrupted (feed : Feed σ β) (n : Nat) (t : Training α ρ β σ)
    (made : List (β × StepRecord α ρ)) (last : Training α ρ β σ) : Prop where
  /-- The steps before the one that fails have been made. -/
  progress : ∃ stopped cause, Progress feed t made stopped ∧
    (trainStep feed).run stopped = (.error (.error cause), last) ∧
    last = { stopped with
      learner := { stopped.learner with started := true }
      source := (feed.next (stopped.start feed).source).2 }
  step : last.learner.step = t.learner.step + made.length
  /-- Only complete groups of steps have been counted as epochs. -/
  epoch : last.learner.epoch = t.learner.epoch + made.length / n
  steps : made.map (fun entry => entry.2.step) = List.range' (t.learner.step + 1) made.length
  epochs : made.map (fun entry => entry.2.epoch) =
    (List.range made.length).map fun i => t.learner.epoch + i / n
  /-- There is one row for each of the steps. -/
  rows : ∀ path text, Loggers.Shows t.learner.loggers t.journal.files path text →
    Loggers.Shows last.learner.loggers last.journal.files path
      (text ++ String.join (made.map fun entry => Table.row entry.2))

/-- An epoch that fails leaves what the steps before the failure have done. -/
theorem interrupted_of_trainEpoch {feed : Feed σ β} {t last : Training α ρ β σ} {n k : Nat}
    {cause : Error} (h : (trainEpoch feed n k).run t = (.error (.error cause), last)) :
    ∃ made, made.length < n * k ∧ Interrupted feed n t made last := by
  obtain ⟨g, hg, groups, r, hgroups, i, hi, records, v, hsteps, hfailed⟩ := of_failed_trainEpoch h
  have hn : 0 < n := Nat.zero_lt_of_lt hi
  obtain ⟨hcount, made, hmade, _, hepochs⟩ := progress_of_groups hgroups
  obtain ⟨hepoch, made', hmade', _, hepochs'⟩ := progress_of_steps hsteps
  have hlength : made.length = g * n := by
    have hmap := congrArg List.length hepochs
    rwa [List.length_map, List.length_map, List.length_range] at hmap
  have hlength' : made'.length = i := by
    have hmap := congrArg List.length hepochs'
    rwa [List.length_map, List.length_replicate] at hmap
  have htotal : (made ++ made').length = g * n + i := by
    rw [List.length_append, hlength, hlength']
  have hcomplete : (g * n + i) / n = g := by
    rw [Nat.add_comm, Nat.add_mul_div_right i g hn, Nat.div_eq_of_lt hi, Nat.zero_add]
  have hprogress := hmade.append hmade'
  have hlast := of_failed_trainStep hfailed
  refine ⟨made ++ made', ?_, ⟨v, cause, hprogress, hfailed, hlast⟩, ?_, ?_, hprogress.steps, ?_, ?_⟩
  · calc
      (made ++ made').length = g * n + i := htotal
      _ < g * n + n := Nat.add_lt_add_left hi _
      _ = (g + 1) * n := (Nat.succ_mul g n).symm
      _ ≤ n * k := by
        rw [Nat.mul_comm]
        exact Nat.mul_le_mul_left n hg
  · rw [hlast]
    exact hprogress.learner_step
  · rw [hlast, htotal, hcomplete, ← hcount]
    exact hepoch
  · -- The groups before it are complete, and the last one has got as far as step `i`.
    rw [htotal, List.range_add, List.map_append, List.map_append, hepochs, hepochs', hcount,
      List.map_map]
    exact congrArg _ (map_div_range (Nat.le_of_lt hi) t.learner.epoch g).symm
  · intro path text hshows
    rw [hlast]
    exact hprogress.shows hshows

end Training

end PolicyGradient
