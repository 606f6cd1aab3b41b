import PolicyGradient.Proofs.Steps

/-!
What an agent asks of its task.

An event is a call to the task with what has come of it, and a history is a sequence of events of
which each goes on from the state that the one before has left.  An action follows a plan if its
events are those of the plan when it succeeds, and else the first of them, of which only the last
can have failed (`Agent.Follows`).  Plans are put together as actions are, and so is what else is
said of the events (`Agent.Effect`).
-/

namespace PolicyGradient

open Outcome
open Decimal (Shown)

variable {α ρ β γ σ τ : Type}

/-- What a task can be called for. -/
inductive Kind
  | value
  | policy
  | ended
  deriving DecidableEq, Repr

/-- A call to the task: its answer, and what has been made of the answer. -/
inductive Event (α : Type)
  | value (answer : Outcome (Trajectory α)) (item : Outcome (ValueBatch α))
  | policy (answer : Outcome (Trajectory α)) (item : Outcome (PolicyBatch α))
  | ended (epoch : Nat) (answer : Outcome Unit)

namespace Event

def kind : Event α → Kind
  | value _ _ => .value
  | policy _ _ => .policy
  | ended _ _ => .ended

/-- Whether something has come of the call. -/
def ok : Event α → Bool
  | value _ item => item.isOk
  | policy _ item => item.isOk
  | ended _ answer => answer.isOk

/-- The events are the planned ones if the work is done, and else the first of them.  Only the last
event can have failed, and then the work is not done. -/
structure Fits (plan : List Kind) (events : List (Event α)) (done : Bool) : Prop where
  planned : events.map kind <+: plan
  before : ∀ event ∈ events.dropLast, event.ok = true
  done : done = true → events.map kind = plan ∧ ∀ event ∈ events, event.ok = true

theorem fits_nil (done : Bool) : Fits (α := α) [] [] done :=
  ⟨List.prefix_refl _, fun _ h => (List.not_mem_nil h).elim,
    fun _ => ⟨rfl, fun _ h => (List.not_mem_nil h).elim⟩⟩

theorem fits_singleton (event : Event α) {done : Bool} (h : done = true → event.ok = true) :
    Fits [event.kind] [event] done :=
  ⟨List.prefix_refl _, fun _ h => (List.not_mem_nil h).elim,
    fun hdone => ⟨rfl, fun _ hmem => List.mem_singleton.mp hmem ▸ h hdone⟩⟩

/-- What has been done fits a longer plan, which is not done then. -/
theorem Fits.extend {plan plan' : List Kind} {events : List (Event α)} {done : Bool}
    (h : Fits plan events done) : Fits (plan ++ plan') events false :=
  ⟨h.planned.trans (List.prefix_append plan plan'), h.before, fun h => nomatch h⟩

theorem Fits.eq_nil {events : List (Event α)} {done : Bool} (h : Fits [] events done) :
    events = [] :=
  List.map_eq_nil_iff.mp (List.prefix_nil.mp h.planned)

theorem Fits.kind_eq {n : Nat} {kind : Kind} {events : List (Event α)} {done : Bool}
    (h : Fits (List.replicate n kind) events done) : ∀ event ∈ events, event.kind = kind := by
  intro event hevent
  exact List.eq_of_mem_replicate (h.planned.subset (List.mem_map_of_mem hevent))

theorem Fits.append {plan plan' : List Kind} {events events' : List (Event α)} {done : Bool}
    (h : Fits plan events true) (h' : Fits plan' events' done) :
    Fits (plan ++ plan') (events ++ events') done := by
  obtain ⟨hkinds, hok⟩ := h.done rfl
  refine ⟨?_, ?_, ?_⟩
  · rw [List.map_append, hkinds]
    exact (List.prefix_append_right_inj plan).mpr h'.planned
  · intro event hevent
    by_cases hevents : events' = []
    · rw [hevents, List.append_nil] at hevent
      exact h.before event hevent
    · rw [List.dropLast_append_of_ne_nil hevents] at hevent
      rcases List.mem_append.mp hevent with hmem | hmem
      · exact hok event hmem
      · exact h'.before event hmem
  · intro hdone
    obtain ⟨hkinds', hok'⟩ := h'.done hdone
    rw [List.map_append, hkinds, hkinds']
    refine ⟨rfl, fun event hevent => ?_⟩
    rcases List.mem_append.mp hevent with hmem | hmem
    · exact hok event hmem
    · exact hok' event hmem

end Event

namespace Source

variable {task : Task α τ} {algorithm : Algorithm α} {request : BatchRequest} {lookAhead : Nat}
variable {weights : ModelWeights α}

/-- A value batch is made of one answer of the task. -/
theorem run_valueBatch (s : τ) : (valueBatch task request).run s =
    ((do
      let trajectory ← (task.sample request s).1
      trajectory.validate
      trajectory.valueBatch), (task.sample request s).2) := by
  simp only [valueBatch, trajectory, Action.run_bind, Action.run_of]
  rcases task.sample request s with ⟨e | drawn, t⟩
  · rfl
  · simp only [Action.run_lift]
    cases hvalid : drawn.validate with
    | error e => simp only [hvalid, bind, Except.bind]
    | ok _ => simp only [hvalid, bind, Except.bind, Action.run_pure]

/-- A policy batch takes one answer of the task. -/
theorem task_of_policyBatch (s : PolicyState α τ) :
    ((policyBatch task algorithm request lookAhead weights).run s).2.task =
      (task.sample request s.task).2 := by
  have hestimate : ∀ (t : τ) (observations : Tensor α 3),
      Action.Preserves (fun s : PolicyState α τ => s.task = t) (estimate weights observations) :=
    fun t observations => Action.preserves_get.bind fun _ => (Action.preserves_lift _).bind fun _ =>
      (Action.preserves_lift _).bind fun _ =>
        Action.Preserves.bind (fun _ h => h) fun _ => Action.preserves_pure _
  rw [policyBatch, Action.run_bind, Action.run_on, Action.run_of]
  rcases task.sample request s.task with ⟨e | drawn, t⟩
  · rfl
  · exact (Action.preserves_get.bind fun _ => (Action.preserves_lift _).bind fun _ =>
      (hestimate t _).bind fun _ => Action.preserves_lift _) ⟨t, s.evaluation⟩ rfl

/-- A policy batch is made of one answer of the task. -/
theorem item_of_policyBatch (s : PolicyState α τ) :
    (∀ e, (task.sample request s.task).1 = .error e →
      ((policyBatch task algorithm request lookAhead weights).run s).1 = .error e) ∧
    ∀ batch, ((policyBatch task algorithm request lookAhead weights).run s).1 = .ok batch →
      ∃ trajectory values gamma, (task.sample request s.task).1 = .ok trajectory ∧
        algorithm.policyInputs trajectory values gamma lookAhead = .ok batch := by
  constructor
  · intro e he
    rw [policyBatch, Action.run_bind, Action.run_on, Action.run_of]
    rcases hsample : task.sample request s.task with ⟨_ | drawn, t⟩
    · rw [hsample] at he
      cases he
      rfl
    · rw [hsample] at he
      cases he
  · intro batch hbatch
    obtain ⟨x, hscored, hinputs⟩ := run_policyBatch_eq_ok.mp (Prod.ext hbatch rfl)
    obtain ⟨hsample, _⟩ := run_scored_eq_ok.mp hscored
    exact ⟨x.trajectory, x.values, x.gamma, congrArg Prod.fst hsample, hinputs⟩

end Source

namespace Agent

/-- The event takes the task from the first state to the second, and what has been made of the
answer is made of that answer, a policy batch of that answer and some value estimates. -/
def Occurs (first : Agent α ρ τ) (s t : τ) : Event α → Prop
  | .value answer item => first.task.sample first.valueRequest s = (answer, t) ∧
      item = do
        let trajectory ← answer
        trajectory.validate
        trajectory.valueBatch
  | .policy answer item => first.task.sample first.policyRequest s = (answer, t) ∧
      (∀ e, answer = .error e → item = .error e) ∧
      ∀ batch, item = .ok batch → ∃ trajectory values gamma, answer = .ok trajectory ∧
        first.algorithm.policyInputs trajectory values gamma first.config.lookAhead = .ok batch
  | .ended epoch answer => first.task.endEpoch epoch s = (answer, t)

/-- The events take the task from one state to another, one after the other. -/
inductive History (first : Agent α ρ τ) : τ → List (Event α) → τ → Prop
  | nil (s : τ) : History first s [] s
  | cons {s t u : τ} {event : Event α} {events : List (Event α)} (h : first.Occurs s t event)
      (hrest : History first t events u) : History first s (event :: events) u

/-- What is said of an agent before and after some events, and of whether the work is done. -/
abbrev Effect (α ρ τ : Type) : Type :=
  Agent α ρ τ → List (Event α) → Agent α ρ τ → Bool → Prop

namespace Effect

/-- It is true of no work, and of work that goes on if it is true of both parts. -/
structure Additive (E : Effect α ρ τ) : Prop where
  nil : ∀ agent done, E agent [] agent done
  append : ∀ {agent middle after : Agent α ρ τ} {events events' : List (Event α)} {done : Bool},
    E agent events middle true → E middle events' after done →
      E agent (events ++ events') after done

/-- Nothing is said. -/
def any : Effect α ρ τ := fun _ _ _ _ => True

theorem additive_any : Additive (any : Effect α ρ τ) :=
  ⟨fun _ _ => trivial, fun _ _ => trivial⟩

end Effect

section

variable {first : Agent α ρ τ}

theorem History.append {s t u : τ} {events events' : List (Event α)}
    (h : first.History s events t) (h' : first.History t events' u) :
    first.History s (events ++ events') u := by
  induction h with
  | nil => exact h'
  | cons hevent _ ih => exact .cons hevent (ih h')

/-- From any agent with the setup of `first`, the action keeps the setup and has a history that fits
the plan and of which `E` is true. -/
def Follows (first : Agent α ρ τ) (plan : List Kind) (E : Effect α ρ τ)
    (act : Action (Agent α ρ τ) β) : Prop :=
  ∀ agent, agent.SameSetup first → (act.run agent).2.SameSetup first ∧
    ∃ events, first.History agent.taskState events (act.run agent).2.taskState ∧
      Event.Fits plan events (act.run agent).1.isOk ∧
      E agent events (act.run agent).2 (act.run agent).1.isOk

section

variable {E : Effect α ρ τ}

theorem follows_lift (hE : E.Additive) (x : Outcome β) : first.Follows [] E (Action.lift x) := by
  intro agent h
  exact ⟨h, [], .nil _, Event.fits_nil _, hE.nil agent _⟩

theorem follows_pure (hE : E.Additive) (b : β) : first.Follows [] E (pure b) := by
  intro agent h
  exact ⟨h, [], .nil _, Event.fits_nil _, hE.nil agent _⟩

theorem Follows.bind (hE : E.Additive) {plan plan' : List Kind} {act : Action (Agent α ρ τ) β}
    {next : β → Action (Agent α ρ τ) γ} (hact : first.Follows plan E act)
    (hnext : ∀ b, first.Follows plan' E (next b)) :
    first.Follows (plan ++ plan') E (act >>= next) := by
  intro agent h
  obtain ⟨hsetup, events, hhistory, hfits, heffect⟩ := hact agent h
  rw [Action.run_bind]
  rcases hrun : act.run agent with ⟨e | b, middle⟩
  · rw [hrun] at hsetup hhistory hfits heffect
    exact ⟨hsetup, events, hhistory, hfits.extend, heffect⟩
  · rw [hrun] at hsetup hhistory hfits heffect
    obtain ⟨hsetup', events', hhistory', hfits', heffect'⟩ := hnext b middle hsetup
    exact ⟨hsetup', events ++ events', hhistory.append hhistory', hfits.append hfits',
      hE.append heffect heffect'⟩

theorem Follows.replicate (hE : E.Additive) {plan : List Kind} {act : Action (Agent α ρ τ) β}
    (h : first.Follows plan E act) (n : Nat) :
    first.Follows (List.replicate n plan).flatten E (Action.replicate n act) := by
  induction n with
  | zero => exact follows_pure hE []
  | succ n ih =>
      have hall := h.bind hE fun b => ih.bind hE fun bs => follows_pure hE (b :: bs)
      rw [List.append_nil] at hall
      rw [List.replicate_succ, List.flatten_cons]
      exact hall

theorem Follows.any {plan : List Kind} {act : Action (Agent α ρ τ) β}
    (h : first.Follows plan E act) : first.Follows plan .any act := by
  intro agent hagent
  obtain ⟨hsetup, events, hhistory, hfits, _⟩ := h agent hagent
  exact ⟨hsetup, events, hhistory, hfits, trivial⟩

/-- What follows without asking anything of the task changes neither the plan nor what has been said
of the action. -/
theorem Follows.then {plan : List Kind} {act : Action (Agent α ρ τ) β}
    {next : β → Action (Agent α ρ τ) γ} (hact : first.Follows plan E act)
    (hnext : ∀ b, first.Follows [] .any (next b)) :
    first.Follows plan (fun agent events _ _ =>
      E agent events (act.run agent).2 (act.run agent).1.isOk) (act >>= next) := by
  intro agent h
  obtain ⟨hsetup, events, hhistory, hfits, heffect⟩ := hact agent h
  rw [Action.run_bind]
  rcases hrun : act.run agent with ⟨e | b, middle⟩
  · rw [hrun] at hsetup hhistory hfits
    exact ⟨hsetup, events, hhistory, hfits, heffect⟩
  · rw [hrun] at hsetup hhistory hfits
    obtain ⟨hsetup', events', hhistory', hfits', _⟩ := hnext b middle hsetup
    have hall := hhistory.append hhistory'
    have hplanned := hfits.append hfits'
    rw [hfits'.eq_nil, List.append_nil] at hall hplanned
    rw [List.append_nil] at hplanned
    exact ⟨hsetup', events, hall, hplanned, heffect⟩

/-- An action that leaves the setup and the task alone has nothing to plan. -/
theorem follows_nil {act : Action (Agent α ρ τ) β}
    (hsetup : Action.Preserves (fun agent => agent.SameSetup first) act)
    (htask : ∀ agent, (act.run agent).2.taskState = agent.taskState)
    (hE : ∀ agent, E agent [] (act.run agent).2 (act.run agent).1.isOk) :
    first.Follows [] E act := by
  intro agent h
  refine ⟨hsetup agent h, [], ?_, Event.fits_nil _, hE agent⟩
  rw [htask agent]
  exact .nil _

end

end

theorem taskState_of_conclude (value policy : EpochSummary α ρ) (agent : Agent α ρ τ) :
    ((conclude value policy).run agent).2.taskState = agent.taskState := by
  simp only [conclude, Action.run_bind, Action.run_get, Action.run_set, Action.run_lift]
  cases Size.add agent.epoch 1 with
  | error e => rfl
  | ok next => rfl

/-- Copying layers has nothing to do with the task. -/
theorem taskState_of_share [Scalar α] (agent : Agent α ρ τ) :
    (shareToPolicy.run agent).2.taskState = agent.taskState ∧
      (shareToValue.run agent).2.taskState = agent.taskState := by
  have hpolicy : Action.Preserves (fun other : Agent α ρ τ => other.taskState = agent.taskState)
      shareToPolicy := by
    refine Action.preserves_get.bind fun _ => ?_
    split
    · exact Action.preserves_on _ fun _ _ h => h
    · exact Action.preserves_pure ()
  have hvalue : Action.Preserves (fun other : Agent α ρ τ => other.taskState = agent.taskState)
      shareToValue := by
    refine Action.preserves_get.bind fun _ => ?_
    split
    · exact Action.preserves_on _ fun _ _ h => h
    · exact Action.preserves_pure ()
  exact ⟨hpolicy agent rfl, hvalue agent rfl⟩

section

variable {first agent : Agent α ρ τ}

/-- Drawing a value batch is an event, in which the batch is made of the task's answer. -/
theorem occurs_drawValue (h : agent.SameSetup first) :
    ∃ answer, first.Occurs agent.taskState (drawValue.run agent).2.taskState
      (.value answer (drawValue.run agent).1) := by
  have hrun : drawValue.run agent = (((Source.valueBatch agent.task agent.valueRequest).run
      agent.taskState).1, { agent with taskState :=
        ((Source.valueBatch agent.task agent.valueRequest).run agent.taskState).2 }) := rfl
  rw [hrun, Source.run_valueBatch, h.task, h.valueRequest]
  exact ⟨_, rfl, rfl⟩

/-- Drawing a policy batch is an event, in which the batch is made of the task's answer. -/
theorem occurs_drawPolicy (h : agent.SameSetup first) :
    ∃ answer, first.Occurs agent.taskState (drawPolicy.run agent).2.taskState
      (.policy answer (drawPolicy.run agent).1) := by
  have hitem : (drawPolicy.run agent).1 = ((Source.policyBatch agent.task agent.algorithm
      agent.policyRequest agent.config.lookAhead agent.value.weights).run
        ⟨agent.taskState, agent.evaluation⟩).1 := rfl
  have htask : (drawPolicy.run agent).2.taskState = ((Source.policyBatch agent.task agent.algorithm
      agent.policyRequest agent.config.lookAhead agent.value.weights).run
        ⟨agent.taskState, agent.evaluation⟩).2.task := rfl
  rw [hitem, htask, Source.task_of_policyBatch, h.task, h.algorithm, h.policyRequest, h.config]
  exact ⟨_, rfl, Source.item_of_policyBatch ⟨agent.taskState, agent.evaluation⟩⟩

theorem occurs_endEpoch (h : agent.SameSetup first) (epoch : Nat) :
    first.Occurs agent.taskState ((endEpoch epoch).run agent).2.taskState
      (.ended epoch ((endEpoch epoch).run agent).1) := by
  have hrun : (endEpoch epoch).run agent = ((agent.task.endEpoch epoch agent.taskState).1,
      { agent with taskState := (agent.task.endEpoch epoch agent.taskState).2 }) := rfl
  rw [hrun, h.task]
  exact rfl

end

end Agent

end PolicyGradient
