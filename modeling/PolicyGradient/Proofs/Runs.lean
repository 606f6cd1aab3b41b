import PolicyGradient.Proofs.Requests
import PolicyGradient.Proofs.Portions

/-!
Runs of epochs.

A run can be taken apart: its first epochs are a run, and so are the others
(`Agent.composes_of_allocate`).  The task is told of each epoch of a run that succeeds, after all
that is asked of it for this epoch and before it is asked for the next one.  It is told of no other
epoch, and of none twice, whatever has failed in between (`Agent.runs_compose_and_tell`).
-/

namespace PolicyGradient

open Outcome
open Decimal (Shown)

variable {α ρ β γ δ σ τ : Type}

/-- To repeat an action is to repeat it for a while and then to go on. -/
theorem Action.replicate_add (m n : Nat) (act : Action σ β) : replicate (m + n) act = (do
    let bs ← replicate m act
    let cs ← replicate n act
    return bs ++ cs) := by
  induction m with
  | zero => simp only [Nat.zero_add, replicate, pure_bind, List.nil_append, bind_pure]
  | succ m ih =>
      simp only [Nat.succ_add, replicate, ih, bind_assoc, pure_bind, List.cons_append]

theorem Size.allocate_of_le {m n width : Nat} (h : m ≤ n) (hroom : allocate n width = .ok ()) :
    allocate m width = .ok () := by
  unfold allocate at hroom ⊢
  split at hroom
  · next hlimit =>
      rw [if_pos (Nat.lt_of_le_of_lt (Nat.mul_le_mul_right width h) hlimit)]
  · cases hroom

theorem Task.map_sample_requests {calls : List Call} (h : ∀ call ∈ calls, ∃ r, call = .sample r) :
    (requests calls).map .sample = calls := by
  induction calls with
  | nil => rfl
  | cons call calls ih =>
      obtain ⟨r, rfl⟩ := h call List.mem_cons_self
      have hrest := ih fun call hcall => h call (List.mem_cons_of_mem _ hcall)
      exact congrArg (.sample r :: ·) hrest

namespace Agent

/-- An epoch that has been tried. -/
structure Attempt (α ρ : Type) where
  /-- What has been asked of the task for it. -/
  requests : List BatchRequest
  outcome : Outcome (AgentEpoch α ρ)
  inRun : Bool

namespace Attempt

/-- The epoch, if it has succeeded. -/
def epoch? (attempt : Attempt α ρ) : Option Nat :=
  attempt.outcome.toOption.map AgentEpoch.epoch

/-- The epoch that the task is told of: one of a run that has succeeded. -/
def told? (attempt : Attempt α ρ) : Option Nat :=
  if attempt.inRun then attempt.epoch? else none

/-- The calls to the task: all requests, and then the end of the epoch. -/
def calls (attempt : Attempt α ρ) : List Task.Call :=
  attempt.requests.map .sample ++ attempt.told?.toList.map .endEpoch

end Attempt

/-- An epoch, or a run of `n` epochs. -/
inductive Round
  | epoch
  | run (n : Nat)
  deriving DecidableEq, Repr

namespace Round

def call : Round → Call
  | epoch => .trainEpoch
  | run n => .run n

def inRun : Round → Bool
  | epoch => false
  | run _ => true

end Round

/-- What an epoch has counted: the number of the epoch if it has succeeded, and nothing else. -/
inductive Counts (agent : Agent α ρ τ) : Outcome (AgentEpoch α ρ) × Agent α ρ τ → Prop
  | done {losses : AgentEpoch α ρ} {after : Agent α ρ τ} (hlosses : losses.epoch = agent.epoch)
      (hafter : after.epoch = agent.epoch + 1) : Counts agent (.ok losses, after)
  | failed {e : Failure} {after : Agent α ρ τ} (hafter : after.epoch = agent.epoch) :
      Counts agent (.error e, after)

/-- What comes before the count leaves it alone. -/
theorem Counts.bind {agent : Agent α ρ τ} {act : Action (Agent α ρ τ) β}
    {next : β → Action (Agent α ρ τ) (AgentEpoch α ρ)}
    (hact : (act.run agent).2.epoch = agent.epoch)
    (hnext : ∀ b middle, Counts middle ((next b).run middle)) :
    agent.Counts ((act >>= next).run agent) := by
  rw [Action.run_bind]
  rcases hrun : act.run agent with ⟨e | b, middle⟩
  · rw [hrun] at hact
    exact .failed hact
  · rw [hrun] at hact
    dsimp only at hact ⊢
    have hrest := hnext b middle
    rcases hrun' : (next b).run middle with ⟨e | losses, after⟩
    · rw [hrun'] at hrest
      cases hrest with
      | failed hafter => exact .failed (hafter.trans hact)
    · rw [hrun'] at hrest
      cases hrest with
      | done hlosses hafter =>
          exact .done (hlosses.trans hact) (hafter.trans (congrArg (· + 1) hact))

theorem counts_conclude (value policy : EpochSummary α ρ) (agent : Agent α ρ τ) :
    agent.Counts ((conclude value policy).run agent) := by
  simp only [conclude, Action.run_bind, Action.run_get, Action.run_set, Action.run_lift]
  cases hnext : Size.add agent.epoch 1 with
  | error e => exact .failed rfl
  | ok next =>
      obtain ⟨_, rfl⟩ := Size.add_eq_ok.mp hnext
      exact .done rfl rfl

/-- What attempts have left behind: the task has received their calls, and those that have succeeded
are the epochs from that of the agent on. -/
structure Tried (agent : Agent α ρ (Task.Recorded τ)) (attempts : List (Attempt α ρ))
    (after : Agent α ρ (Task.Recorded τ)) : Prop where
  task : after.task = agent.task
  calls : after.taskState.calls = agent.taskState.calls ++ attempts.flatMap Attempt.calls
  epochs : attempts.filterMap Attempt.epoch? =
    List.range' agent.epoch (attempts.filterMap Attempt.epoch?).length
  epoch : after.epoch = agent.epoch + (attempts.filterMap Attempt.epoch?).length

theorem Tried.nil (agent : Agent α ρ (Task.Recorded τ)) : Tried agent [] agent where
  task := rfl
  calls := (List.append_nil _).symm
  epochs := rfl
  epoch := rfl

theorem Tried.append {agent middle after : Agent α ρ (Task.Recorded τ)}
    {attempts attempts' : List (Attempt α ρ)} (h : Tried agent attempts middle)
    (h' : Tried middle attempts' after) : Tried agent (attempts ++ attempts') after where
  task := h'.task.trans h.task
  calls := by rw [h'.calls, h.calls, List.flatMap_append, List.append_assoc]
  epochs := by
    rw [List.filterMap_append, h'.epochs, h.epochs, h.epoch, List.length_append, List.length_range',
      List.length_range', List.range'_append_1]
  epoch := by rw [h'.epoch, h.epoch, List.filterMap_append, List.length_append, Nat.add_assoc]

/-- The task is told of epochs in their order, and of none twice. -/
theorem Tried.told {agent after : Agent α ρ (Task.Recorded τ)} {attempts : List (Attempt α ρ)}
    (h : Tried agent attempts after) :
    (attempts.filterMap Attempt.told?).Pairwise (· < ·) := by
  -- What the task is told of is part of what has succeeded, and that is counted.
  have htold : attempts.filterMap Attempt.told? =
      (attempts.filter Attempt.inRun).filterMap Attempt.epoch? := List.filterMap_filter.symm
  have hsome : (attempts.filterMap Attempt.told?).Sublist (attempts.filterMap Attempt.epoch?) :=
    htold ▸ List.filter_sublist.filterMap Attempt.epoch?
  apply List.Pairwise.sublist hsome
  rw [h.epochs]
  exact List.pairwise_lt_range' 1

variable [Scalar α] [Scalar ρ] [Shown α] [Shown ρ] [Narrows ρ α]

/-- A run of `a` epochs and one of `b` epochs after it are a run of `a + b` epochs, and this run
fails as the first one does. -/
def Composes (agent : Agent α ρ τ) (a b : Nat) : Prop :=
  (∀ history middle others last, (run a).run agent = (.ok history, middle) →
    (run b).run middle = (.ok others, last) →
      (run (a + b)).run agent = (.ok (history ++ others), last)) ∧
  ∀ cause last, (run a).run agent = (.error (.error cause), last) →
    (run (a + b)).run agent = (.error (.error cause), last)

/-- Runs compose as long as there is room for the losses of all their epochs. -/
theorem composes_of_allocate {a b : Nat} (hroom : Size.allocate (a + b) epochWidth = .ok ())
    (agent : Agent α ρ τ) : agent.Composes a b := by
  -- Each part has room if the whole has.
  have hfirst : Size.allocate a epochWidth = .ok () :=
    Size.allocate_of_le (Nat.le_add_right a b) hroom
  have hrest : Size.allocate b epochWidth = .ok () :=
    Size.allocate_of_le (Nat.le_add_left b a) hroom
  constructor
  · intro history middle others last hrun hrun'
    rw [run, Action.run_lift_bind, hfirst] at hrun
    rw [run, Action.run_lift_bind, hrest] at hrun'
    rw [run, Action.run_lift_bind, hroom, Action.replicate_add]
    exact Action.run_bind_eq_ok.mpr ⟨history, middle, hrun,
      Action.run_bind_eq_ok.mpr ⟨others, last, hrun', rfl⟩⟩
  · intro cause last hrun
    rw [run, Action.run_lift_bind, hfirst] at hrun
    rw [run, Action.run_lift_bind, hroom, Action.replicate_add]
    dsimp only at hrun ⊢
    rw [Action.run_bind, hrun]

theorem counts_trainEpoch (agent : Agent α ρ τ) : agent.Counts (trainEpoch.run agent) := by
  rw [trainEpoch_eq]
  refine .bind (congrArg Counters.epoch (counters_valueHalf agent)) fun value half => ?_
  refine .bind (congrArg Counters.epoch (counters_trainPolicy half)) fun policy trained => ?_
  refine .bind (congrArg Counters.epoch (counters_shareToValue trained)) fun _ shared => ?_
  exact counts_conclude value policy shared

/-- What is noted before each epoch of some rounds, one round after the other. -/
def notedInRounds (note : Bool → Agent α ρ τ → List γ) : List Round → Agent α ρ τ → List γ
  | [], _ => []
  | round :: rounds, agent =>
      notedInCall (note round.inRun) round.call agent ++
        notedInRounds note rounds ((perform round.call).run agent).2

/-- The agent after rounds. -/
def afterRounds : List Round → Agent α ρ τ → Agent α ρ τ
  | [], agent => agent
  | round :: rounds, agent => afterRounds rounds ((perform round.call).run agent).2

section

variable {note : Bool → Agent α ρ τ → List γ} (P : Agent α ρ τ → List γ → Prop)
variable (hepoch : ∀ agent notes, P agent notes →
  P (trainEpoch.run agent).2 (notes ++ note false agent))
variable (hrun : ∀ agent notes, P agent notes →
  P (runEpoch.run agent).2 (notes ++ note true agent))
variable {agent : Agent α ρ τ} {notes : List γ}

include hepoch hrun

/-- What goes along with the notes of each epoch goes along with those of a round, which end with
the first epoch of a run that fails. -/
theorem along_notedInCall (round : Round) (h : P agent notes) :
    P ((perform round.call).run agent).2
      (notes ++ notedInCall (note round.inRun) round.call agent) := by
  cases round with
  | epoch =>
      rw [Round.call, perform, Action.state_bind_pure]
      exact hepoch agent notes h
  | run n =>
      rw [Round.call, perform, Action.state_bind_pure, run, Action.run_lift_bind, notedInCall]
      cases Size.allocate n epochWidth with
      | error e =>
          rw [List.append_nil]
          exact h
      | ok _ => exact Action.along_noted P hrun n h

/-- So it goes along with those of all rounds. -/
theorem along_notedInRounds (rounds : List Round) (h : P agent notes) :
    P (afterRounds rounds agent) (notes ++ notedInRounds note rounds agent) := by
  induction rounds generalizing agent notes with
  | nil =>
      rw [notedInRounds, List.append_nil]
      exact h
  | cons round rounds ih =>
      rw [notedInRounds, ← List.append_assoc]
      exact ih (along_notedInCall P hepoch hrun round h)

end

theorem map_notedInRounds (g : γ → δ) (note : Bool → Agent α ρ τ → List γ) (rounds : List Round)
    (agent : Agent α ρ τ) : (notedInRounds note rounds agent).map g =
      notedInRounds (fun inRun agent => (note inRun agent).map g) rounds agent := by
  induction rounds generalizing agent with
  | nil => rfl
  | cons round rounds ih =>
      rw [notedInRounds, notedInRounds, List.map_append, ih]
      cases round with
      | epoch => rfl
      | run n =>
          simp only [Round.call, notedInCall]
          cases Size.allocate n epochWidth with
          | error e => rfl
          | ok _ =>
              dsimp only
              rw [Action.map_noted]

section

variable {task : Task α τ} {agent : Agent α ρ (Task.Recorded τ)}

/-- What an epoch asks of the task, according to the task's record of its calls. -/
def requested (agent : Agent α ρ (Task.Recorded τ)) : List BatchRequest :=
  Task.requests ((trainEpoch.run agent).2.taskState.calls.drop agent.taskState.calls.length)

/-- An epoch asks for batches only. -/
theorem calls_trainEpoch (htask : agent.task = task.recorded) :
    (trainEpoch.run agent).2.taskState.calls =
      agent.taskState.calls ++ agent.requested.map .sample := by
  obtain ⟨_, events, hhistory, _, values, policies, rfl, hepoch⟩ :=
    follows_trainEpoch agent agent (.refl agent)
  have hcalls := calls_of_history htask hhistory
  rw [requested, hcalls, List.drop_left, Task.map_sample_requests]
  intro call hcall
  obtain ⟨event, hevent, rfl⟩ := List.mem_map.mp hcall
  rcases List.mem_append.mp hevent with hvalue | hpolicy
  · cases event with
    | value answer item => exact ⟨_, rfl⟩
    | policy answer item => exact ⟨_, rfl⟩
    | ended epoch answer => exact nomatch hepoch.value_kind _ hvalue
  · cases event with
    | value answer item => exact ⟨_, rfl⟩
    | policy answer item => exact ⟨_, rfl⟩
    | ended epoch answer => exact nomatch hepoch.policy_kind _ hpolicy

/-- The epoch that is tried when an agent is asked for one. -/
def attempt (inRun : Bool) (agent : Agent α ρ (Task.Recorded τ)) : List (Attempt α ρ) :=
  [⟨agent.requested, (trainEpoch.run agent).1, inRun⟩]

/-- The epochs that are tried in a round. -/
def tried (round : Round) (agent : Agent α ρ (Task.Recorded τ)) : List (Attempt α ρ) :=
  notedInCall (attempt round.inRun) round.call agent

/-- The epochs that are tried in rounds, one round after the other, whether they succeed or fail. -/
def triedIn : List Round → Agent α ρ (Task.Recorded τ) → List (Attempt α ρ)
  | [], _ => []
  | round :: rounds, agent =>
      tried round agent ++ triedIn rounds ((perform round.call).run agent).2

theorem triedIn_eq (rounds : List Round) (agent : Agent α ρ (Task.Recorded τ)) :
    triedIn rounds agent = notedInRounds attempt rounds agent := by
  induction rounds generalizing agent with
  | nil => rfl
  | cons round rounds ih => rw [triedIn, notedInRounds, ih, tried]

theorem epochs_attempt (inRun : Bool) (agent : Agent α ρ (Task.Recorded τ)) :
    (attempt inRun agent).filterMap Attempt.epoch? =
        List.range' agent.epoch ((attempt inRun agent).filterMap Attempt.epoch?).length ∧
      (trainEpoch.run agent).2.epoch =
        agent.epoch + ((attempt inRun agent).filterMap Attempt.epoch?).length := by
  have hcounts := counts_trainEpoch agent
  rw [attempt]
  rcases hrun : trainEpoch.run agent with ⟨e | losses, after⟩
  · rw [hrun] at hcounts
    cases hcounts with
    | failed hafter => exact ⟨rfl, hafter⟩
  · rw [hrun] at hcounts
    cases hcounts with
    | done hlosses hafter => exact ⟨congrArg (fun n => [n]) hlosses, hafter⟩

theorem tried_trainEpoch (htask : agent.task = task.recorded) :
    Tried agent (attempt false agent) (trainEpoch.run agent).2 where
  task := ((kept_sameSetup agent).trainEpoch agent (.refl agent)).task
  calls := by
    rw [calls_trainEpoch htask]
    simp [attempt, Attempt.calls, Attempt.told?]
  epochs := (epochs_attempt false agent).1
  epoch := (epochs_attempt false agent).2

/-- An epoch of a run asks for batches, and then tells the task of itself if it has succeeded. -/
theorem calls_runEpoch (htask : agent.task = task.recorded) :
    (runEpoch.run agent).2.taskState.calls =
      agent.taskState.calls ++ (attempt true agent).flatMap Attempt.calls := by
  have hcalls := calls_trainEpoch htask
  have hkept := ((kept_sameSetup agent).trainEpoch agent (.refl agent)).task
  rw [runEpoch, Action.run_bind, attempt, List.flatMap_cons, List.flatMap_nil, List.append_nil]
  rcases hrun : trainEpoch.run agent with ⟨e | losses, trained⟩
  · rw [hrun] at hcalls
    rw [Attempt.calls, ← List.append_assoc]
    exact hcalls.trans (List.append_nil _).symm
  · rw [hrun] at hcalls hkept
    dsimp only at hcalls hkept ⊢
    rw [Action.state_bind_pure]
    have hended : ((endEpoch losses.epoch).run trained).2.taskState.calls =
        trained.taskState.calls ++ [.endEpoch losses.epoch] := by
      show (trained.task.endEpoch losses.epoch trained.taskState).2.calls = _
      rw [hkept, htask]
      rfl
    rw [hended, hcalls, List.append_assoc]
    rfl

theorem tried_runEpoch (htask : agent.task = task.recorded) :
    Tried agent (attempt true agent) (runEpoch.run agent).2 where
  task := ((kept_sameSetup agent).runEpoch agent (.refl agent)).task
  calls := calls_runEpoch htask
  epochs := (epochs_attempt true agent).1
  epoch := (congrArg Counters.epoch (counters_runEpoch agent)).trans (epochs_attempt true agent).2

theorem tried_round (htask : agent.task = task.recorded) (round : Round) :
    Tried agent (tried round agent) ((perform round.call).run agent).2 :=
  along_notedInCall (fun after attempts => Tried agent attempts after)
    (fun _ _ h => h.append (tried_trainEpoch (h.task.trans htask)))
    (fun _ _ h => h.append (tried_runEpoch (h.task.trans htask))) round (.nil agent)

theorem tried_rounds (htask : agent.task = task.recorded) (rounds : List Round) :
    Tried agent (triedIn rounds agent) (afterRounds rounds agent) := by
  rw [triedIn_eq]
  exact along_notedInRounds (fun after attempts => Tried agent attempts after)
    (fun _ _ h => h.append (tried_trainEpoch (h.task.trans htask)))
    (fun _ _ h => h.append (tried_runEpoch (h.task.trans htask))) rounds (.nil agent)

/-- A run that succeeds has tried its epochs, and returns what has come of them. -/
theorem outcomes_of_run {n : Nat} {history : List (AgentEpoch α ρ)}
    {after : Agent α ρ (Task.Recorded τ)} (h : (run n).run agent = (.ok history, after)) :
    (tried (.run n) agent).map Attempt.outcome = history.map .ok ∧ history.length = n := by
  obtain ⟨⟨⟩, hroom, hepochs⟩ := Action.run_lift_bind_eq_ok.mp h
  have hattempts : tried (.run n) agent = Action.noted (attempt true) runEpoch n agent := by
    rw [tried, Round.call, notedInCall, hroom]
    rfl
  have houtcomes : (tried (.run n) agent).map Attempt.outcome = history.map .ok := by
    rw [hattempts, Action.map_noted]
    refine (Action.noted_of_replicate (f := fun losses => [.ok losses]) ?_ hepochs).trans ?_
    · intro middle losses next hepoch
      obtain ⟨_, _, htrain, hrest⟩ := Action.run_bind_eq_ok.mp hepoch
      obtain ⟨_, _, _, hlast⟩ := Action.run_bind_eq_ok.mp hrest
      cases hlast
      exact congrArg (fun r => [r.1]) htrain
    · exact List.map_eq_flatMap.symm
  have hlength : (tried (.run n) agent).length = n := by
    rw [hattempts]
    exact Action.length_noted (fun _ => rfl) hepochs
  have hcount := congrArg List.length houtcomes
  rw [List.length_map, List.length_map, hlength] at hcount
  exact ⟨houtcomes, hcount.symm⟩

/-- So the history of a run has the numbers from that of the agent on. -/
theorem epochs_of_run (htask : agent.task = task.recorded) {n : Nat}
    {history : List (AgentEpoch α ρ)} {after : Agent α ρ (Task.Recorded τ)}
    (h : (run n).run agent = (.ok history, after)) :
    history.map AgentEpoch.epoch = List.range' agent.epoch n := by
  obtain ⟨houtcomes, hcount⟩ := outcomes_of_run h
  have hparts : (tried (.run n) agent).filterMap Attempt.epoch? =
      ((tried (.run n) agent).map Attempt.outcome).filterMap
        fun outcome => outcome.toOption.map AgentEpoch.epoch := by
    rw [List.filterMap_map]
    rfl
  have hnumbers : (tried (.run n) agent).filterMap Attempt.epoch? =
      history.map AgentEpoch.epoch := by
    rw [hparts, houtcomes, List.filterMap_map]
    exact congrFun List.filterMap_eq_map history
  have hepochs := (tried_round htask (.run n)).epochs
  rwa [hnumbers, List.length_map, hcount] at hepochs

/-- Two runs, one after the other, are one run, as long as there is room for all their losses.  A
run that succeeds returns all its epochs, from that of the agent on.  Whatever rounds an agent is
asked for, and however they end, the task has received the requests of each epoch and then, if the
epoch is one of a run and has succeeded, the end of the epoch; the epochs that have succeeded are
those from that of the agent on, and the task is told of epochs in increasing order. -/
theorem runs_compose_and_tell (htask : agent.task = task.recorded) :
    (∀ a b, Size.allocate (a + b) epochWidth = .ok () → agent.Composes a b) ∧
    (∀ n history after, (run n).run agent = (.ok history, after) →
      (tried (.run n) agent).map Attempt.outcome = history.map .ok ∧
        history.map AgentEpoch.epoch = List.range' agent.epoch n) ∧
    ∀ rounds, Tried agent (triedIn rounds agent) (afterRounds rounds agent) ∧
      ((triedIn rounds agent).filterMap Attempt.told?).Pairwise (· < ·) :=
  ⟨fun _ _ hroom => composes_of_allocate hroom agent,
    fun _ _ _ hrun => ⟨(outcomes_of_run hrun).1, epochs_of_run htask hrun⟩,
    fun rounds => ⟨tried_rounds htask rounds, (tried_rounds htask rounds).told⟩⟩

end

namespace Line

/-- An epoch, and then a run of two epochs. -/
def rounds : List Round :=
  [.epoch, .run 2]

/-- Which epochs succeed in these rounds, and which ones the task is told of. -/
def outcomes : Action (Site Float32 Float (Task.Recorded Synthetic.State))
    (List Bool × List Nat) := do
  let first ← buildRecorded
  let attempts := triedIn rounds first
  return (attempts.map fun attempt => attempt.outcome.isOk, attempts.filterMap Attempt.told?)

/-- A failed epoch and a run of two, of which the task is told in order. -/
theorem runs_bent : ∃ first, (buildRecorded.run siteRecorded).1 = .ok first ∧
    first.Composes 1 1 ∧
    (triedIn rounds first).map (fun attempt => attempt.outcome.isOk) = [false, true, true] ∧
    (triedIn rounds first).filterMap Attempt.told? = [0, 1] ∧
    (afterRounds rounds first).taskState.calls =
      first.taskState.calls ++ (triedIn rounds first).flatMap Attempt.calls := by
  have houtcomes : (outcomes.run siteRecorded).1 = .ok ([false, true, true], [0, 1]) := by
    decide +kernel
  obtain ⟨first, here, hbuilt, hlast⟩ := Action.run_bind_eq_ok.mp (Prod.ext houtcomes rfl)
  obtain ⟨hok, htold⟩ := Prod.ext_iff.mp (Except.ok.inj (congrArg Prod.fst hlast))
  obtain ⟨hcomposes, _, hrounds⟩ := runs_compose_and_tell (built_of_construct hbuilt).task_eq
  obtain ⟨htried, _⟩ := hrounds rounds
  exact ⟨first, congrArg Prod.fst hbuilt, hcomposes 1 1 rfl, hok, htold, htried.calls⟩

/-- Whether a run of one epoch ends with an error. -/
def stops : Action (Site Float32 Float (Task.Recorded Synthetic.State)) Bool := do
  let first ← buildRecorded
  return match ((run 1).run first).1 with
    | .error (.error _) => true
    | _ => false

/-- A run of one epoch ends with the error of the task, but there is no room to begin a run of
`1 + 2 ^ 62` epochs. -/
theorem not_composes_bent : ∃ first, (buildRecorded.run siteRecorded).1 = .ok first ∧
    ¬ first.Composes 1 (Nat.pow 2 62) := by
  have hstops : (stops.run siteRecorded).1 = .ok true := by decide +kernel
  obtain ⟨first, here, hbuilt, hlast⟩ := Action.run_bind_eq_ok.mp (Prod.ext hstops rfl)
  have hstop := Except.ok.inj (congrArg Prod.fst hlast)
  refine ⟨first, congrArg Prod.fst hbuilt, fun hcomposes => ?_⟩
  have hfull : Size.allocate (1 + Nat.pow 2 62) epochWidth = faultWith .overflow := rfl
  rcases hrun : (run 1).run first with ⟨(cause | fault) | history, last⟩
  · have hlonger := hcomposes.2 cause last hrun
    rw [run, Action.run_lift_bind, hfull] at hlonger
    cases hlonger
  · rw [hrun] at hstop
    cases hstop
  · rw [hrun] at hstop
    cases hstop

end Line

end Agent

end PolicyGradient
