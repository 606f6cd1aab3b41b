import PolicyGradient.Proofs.Deliveries
import PolicyGradient.Proofs.PolicyBatches
import PolicyGradient.Proofs.Refusals
import PolicyGradient.Proofs.Twins

/-!
The requests that a task receives.

A session is an agent with the streams that have been made from it.  Whatever is asked for in a
session, and in whichever order, the calls to the task are exactly those of the events that the asks
are planned to have, and every pull from a stream gives out what its own call has brought
(`Agent.request_trace`).
-/

namespace PolicyGradient

open Outcome
open Decimal (Shown)

variable {α ρ β τ : Type}

/-- A stream of batches that has been made from an agent.  It holds no batch of its own. -/
inductive Stream
  | values
  | policies
  deriving DecidableEq, Repr

namespace Stream

/-- What the task is called for at a pull. -/
def kind : Stream → Kind
  | values => .value
  | policies => .policy

/-- A pull is a draw from the agent. -/
def call : Stream → Agent.Call
  | values => .drawValue
  | policies => .drawPolicy

end Stream

/-- An agent with its streams, in the order in which they have been made. -/
structure Session (α ρ τ : Type) where
  agent : Agent α ρ τ
  streams : List Stream

/-- What can be asked for in a session. -/
inductive Ask
  | trainEpoch
  | run (n : Nat)
  | make (stream : Stream)
  /-- The next batch of the stream at this place. -/
  | pull (place : Nat)

/-- What has been asked for, with which streams at hand, and what has come of it. -/
structure Reply (α ρ : Type) where
  ask : Ask
  streams : List Stream
  outcome : Outcome (Option (Agent.Answer α ρ))

namespace Event

/-- What a pull gives out. -/
def given : Event α → Outcome (Option (Agent.Answer α ρ))
  | value _ item => item.map fun batch => some (.valueBatch batch)
  | policy _ item => item.map fun batch => some (.policyBatch batch)
  | ended _ answer => answer.map fun _ => none

/-- The call of the event, as the task receives it. -/
def call (first : Agent α ρ τ) : Event α → Task.Call
  | value _ _ => .sample first.valueRequest
  | policy _ _ => .sample first.policyRequest
  | ended epoch _ => .endEpoch epoch

end Event

namespace Session

/-- Ask the agent. -/
def onAgent (call : Agent.Call) [Scalar α] [Scalar ρ] [Shown α] [Shown ρ] [Narrows ρ α] :
    Action (Session α ρ τ) (Option (Agent.Answer α ρ)) :=
  Action.on Session.agent (fun agent session => { session with agent := agent }) do
    return some (← Agent.answer call)

variable [Scalar α] [Scalar ρ] [Shown α] [Shown ρ] [Narrows ρ α]

/-- Do what is asked for. -/
def ask : Ask → Action (Session α ρ τ) (Option (Agent.Answer α ρ))
  | .trainEpoch => onAgent .trainEpoch
  | .run n => onAgent (.run n)
  | .make stream => do
      modify fun session => { session with streams := session.streams ++ [stream] }
      return none
  | .pull place => do
      match (← get).streams[place]? with
      | some stream => onAgent stream.call
      | none => return none

/-- Do what is asked for, ask by ask: the replies in order, and the session in the end. -/
def asked : List Ask → Session α ρ τ → List (Reply α ρ) × Session α ρ τ
  | [], session => ([], session)
  | a :: asks, session =>
      let (outcome, after) := (ask a).run session
      let (replies, last) := asked asks after
      (⟨a, session.streams, outcome⟩ :: replies, last)

end Session

namespace Agent

/-- What is asked of the task for a reply. -/
def plan (first : Agent α ρ τ) (reply : Reply α ρ) : List Kind :=
  match reply.ask with
  | .trainEpoch => first.epochPlan
  | .run n => (List.replicate n (first.epochPlan ++ [.ended])).flatten
  | .make _ => []
  | .pull place => (reply.streams[place]?.map Stream.kind).toList

theorem plan_pull (first : Agent α ρ τ) (place : Nat) (streams : List Stream)
    (outcome : Outcome (Option (Answer α ρ))) :
    first.plan ⟨.pull place, streams, outcome⟩ = (streams[place]?.map Stream.kind).toList := rfl

/-- The events are those of the reply: they fit its plan, and a pull from a stream is one event of
the stream's kind and gives out what that event has brought. -/
structure Explains (first : Agent α ρ τ) (reply : Reply α ρ) (events : List (Event α)) : Prop where
  fits : Event.Fits (first.plan reply) events reply.outcome.isOk
  pulled : ∀ place stream, reply.ask = .pull place → reply.streams[place]? = some stream →
    ∃ event, events = [event] ∧ event.kind = stream.kind ∧ reply.outcome = event.given

variable [Scalar α] [Scalar ρ] [Shown α] [Shown ρ] [Narrows ρ α]

/-- A pull is one event of the stream's kind, and gives out what the event has brought. -/
theorem occurs_pull {first agent : Agent α ρ τ} (stream : Stream) (h : agent.SameSetup first) :
    ∃ event, event.kind = stream.kind ∧
      first.Occurs agent.taskState ((answer stream.call).run agent).2.taskState event ∧
      ((answer stream.call).run agent).1.map some = event.given ∧
      event.ok = (event.given : Outcome (Option (Answer α ρ))).isOk := by
  cases stream with
  | values =>
      obtain ⟨told, hoccurs⟩ := occurs_drawValue h
      refine ⟨.value told (drawValue.run agent).1, rfl, ?_⟩
      rw [Stream.call, answer, Action.run_bind_pure]
      refine ⟨hoccurs, ?_⟩
      cases (drawValue.run agent).1 with
      | error e => exact ⟨rfl, rfl⟩
      | ok batch => exact ⟨rfl, rfl⟩
  | policies =>
      obtain ⟨told, hoccurs⟩ := occurs_drawPolicy h
      refine ⟨.policy told (drawPolicy.run agent).1, rfl, ?_⟩
      rw [Stream.call, answer, Action.run_bind_pure]
      refine ⟨hoccurs, ?_⟩
      cases (drawPolicy.run agent).1 with
      | error e => exact ⟨rfl, rfl⟩
      | ok batch => exact ⟨rfl, rfl⟩

theorem run_onAgent (call : Call) (session : Session α ρ τ) :
    (Session.onAgent call).run session = (((answer call).run session.agent).1.map some,
      { session with agent := ((answer call).run session.agent).2 }) := by
  rw [Session.onAgent, Action.run_on, Action.run_bind_pure]

theorem run_pull (place : Nat) (session : Session α ρ τ) :
    (Session.ask (.pull place)).run session =
      match session.streams[place]? with
      | some stream => (Session.onAgent stream.call).run session
      | none => (.ok none, session) := by
  rw [Session.ask, Action.run_bind, Action.run_get]
  dsimp only
  cases session.streams[place]? with
  | none => rfl
  | some stream => rfl

/-- An epoch or a run. -/
theorem explained_epochs {first : Agent α ρ τ} {call : Call} {a : Ask} {plan : List Kind}
    {act : Action (Agent α ρ τ) β} {f : β → Answer α ρ} {session : Session α ρ τ}
    (h : session.agent.SameSetup first) (hact : first.Follows plan .any act)
    (hcall : answer call = act >>= fun b => pure (f b))
    (hplan : ∀ outcome, first.plan ⟨a, session.streams, outcome⟩ = plan)
    (hpull : ∀ place, a ≠ .pull place) :
    ((Session.onAgent call).run session).2.agent.SameSetup first ∧ ∃ events,
      first.Explains ⟨a, session.streams, ((Session.onAgent call).run session).1⟩ events ∧
      first.History session.agent.taskState events
        ((Session.onAgent call).run session).2.agent.taskState := by
  obtain ⟨hsetup, events, hhistory, hfits, _⟩ := hact session.agent h
  rw [run_onAgent, hcall, Action.run_bind_pure]
  refine ⟨hsetup, events, ⟨?_, fun place _ hask => absurd hask (hpull place)⟩, hhistory⟩
  rw [hplan]
  cases houtcome : (act.run session.agent).1 with
  | error e =>
      rw [houtcome] at hfits
      exact hfits
  | ok b =>
      rw [houtcome] at hfits
      exact hfits

/-- One ask in a session. -/
theorem explained_ask {first : Agent α ρ τ} (a : Ask) {session : Session α ρ τ}
    (h : session.agent.SameSetup first) :
    ((Session.ask a).run session).2.agent.SameSetup first ∧ ∃ events,
      first.Explains ⟨a, session.streams, ((Session.ask a).run session).1⟩ events ∧
      first.History session.agent.taskState events
        ((Session.ask a).run session).2.agent.taskState := by
  cases a with
  | trainEpoch =>
      exact explained_epochs h (follows_trainEpoch first).any rfl (fun _ => rfl)
        fun _ hask => nomatch hask
  | run n =>
      exact explained_epochs h (follows_run first n) rfl (fun _ => rfl) fun _ hask => nomatch hask
  | make stream =>
      exact ⟨h, [], ⟨Event.fits_nil _, fun _ _ hask => nomatch hask⟩, .nil _⟩
  | pull place =>
      rw [run_pull]
      cases hstream : session.streams[place]? with
      | none =>
          refine ⟨h, [], ⟨?_, fun place' stream hask hfound => ?_⟩, .nil _⟩
          · rw [plan_pull, hstream]
            exact Event.fits_nil _
          · cases hask
            rw [hstream] at hfound
            cases hfound
      | some stream =>
          obtain ⟨event, hkind, hoccurs, hgiven, hok⟩ := occurs_pull stream h
          have hsetup : ((answer stream.call).run session.agent).2.SameSetup first := by
            rw [state_answer]
            exact (kept_sameSetup first).perform stream.call session.agent h
          dsimp only
          rw [run_onAgent]
          refine ⟨hsetup, [event], ⟨?_, fun place' stream' hask hfound => ?_⟩,
            .cons hoccurs (.nil _)⟩
          · rw [plan_pull, hgiven, ← hok, hstream, Option.map_some, ← hkind]
            exact Event.fits_singleton event id
          · cases hask
            rw [hstream] at hfound
            cases hfound
            exact ⟨event, rfl, hkind, hgiven⟩

/-- Any asks in a session, one after the other. -/
theorem explained_asked {first : Agent α ρ τ} (asks : List Ask) {session : Session α ρ τ}
    (h : session.agent.SameSetup first) :
    (Session.asked asks session).2.agent.SameSetup first ∧ ∃ segments,
      List.Forall₂ first.Explains (Session.asked asks session).1 segments ∧
      first.History session.agent.taskState segments.flatten
        (Session.asked asks session).2.agent.taskState := by
  induction asks generalizing session with
  | nil => exact ⟨h, [], .nil, .nil _⟩
  | cons a asks ih =>
      obtain ⟨hsetup, events, hexplains, hhistory⟩ := explained_ask a h
      obtain ⟨hlast, segments, hall, hrest⟩ := ih hsetup
      exact ⟨hlast, events :: segments, .cons hexplains hall, hhistory.append hrest⟩

omit [Scalar α] [Scalar ρ] [Shown α] [Shown ρ] [Narrows ρ α] in
/-- The calls that a task with a record of its calls has received. -/
theorem calls_of_history {first : Agent α ρ (Task.Recorded τ)} {task : Task α τ}
    (htask : first.task = task.recorded) {s t : Task.Recorded τ} {events : List (Event α)}
    (h : first.History s events t) : t.calls = s.calls ++ events.map (Event.call first) := by
  induction h with
  | nil => rw [List.map_nil, List.append_nil]
  | @cons s t u event events hoccurs _ ih =>
      have hcall : t.calls = s.calls ++ [event.call first] := by
        cases event with
        | value answer item =>
            have hsample := hoccurs.1
            rw [htask] at hsample
            cases hsample
            rfl
        | policy answer item =>
            have hsample := hoccurs.1
            rw [htask] at hsample
            cases hsample
            rfl
        | ended epoch answer =>
            have hended : first.task.endEpoch epoch s = (answer, t) := hoccurs
            rw [htask] at hended
            cases hended
            rfl
      rw [ih, hcall, List.append_assoc]
      rfl

section

variable {task : Task α τ} {valueModel evaluationModel : Outcome (Model α)}
variable {policyModel : Model α} {algorithm : Algorithm α} {config : Config α ρ}

omit [Shown α] [Shown ρ] [Narrows ρ α] in
/-- The requests of an agent that has been built. -/
theorem Built.requests {start : τ} {first : Agent α ρ τ}
    (h : Built task valueModel evaluationModel policyModel algorithm config start first) :
    ∃ length, config.sliceLength = some length ∧
      first.valueRequest = ⟨config.valueBatchSize, .all, length, false⟩ ∧
      first.policyRequest = ⟨config.policyBatchSize,
        if algorithm.onPolicy then .latest else .all, length + config.lookAhead,
        decide (1 < length + config.lookAhead)⟩ := by
  obtain ⟨length, hlength, hvalue⟩ := h.valueRequest
  obtain ⟨own, hown, _, hpolicy⟩ := Source.policyRequest_eq_ok.mp h.policyRequest
  rw [hlength] at hown
  cases hown
  exact ⟨length, hlength, hvalue, hpolicy⟩

omit [Shown α] [Shown ρ] [Narrows ρ α] in
/-- The one call that the task has received when an agent has just been built. -/
theorem Built.calls {start : Task.Recorded τ} {first : Agent α ρ (Task.Recorded τ)}
    (h : Built task.recorded valueModel evaluationModel policyModel algorithm config start first) :
    first.taskState.calls = start.calls ++ [.sample first.valueRequest] := by
  obtain ⟨batch, hsample⟩ := h.sample
  rw [Source.run_valueBatch] at hsample
  exact (congrArg (fun r => r.2.calls) hsample).symm

/-- What a task is called for.  A construction asks for one value batch at most: for one if it
succeeds, and for none if it fails because of its configuration, that is, with an error that neither
the task nor the evaluation model has come up with.  After that the calls are those of the events of
each ask, in the order of the asks.  An epoch asks for its value batches and then for its policy
batches, until it is done or fails; a pull from a stream asks for one batch and gives out what has
come of it; making a stream asks for nothing.  The batches that an epoch has asked for are used by
its learners in the order of the calls. -/
theorem request_trace {site site' : Site α ρ (Task.Recorded τ)}
    {outcome : Outcome (Agent α ρ (Task.Recorded τ))}
    (hbuilt : (construct task.recorded valueModel evaluationModel policyModel algorithm config).run
      site = (outcome, site')) :
    (site'.taskState.calls = site.taskState.calls ∨
      ∃ length, config.sliceLength = some length ∧ site'.taskState.calls =
        site.taskState.calls ++ [.sample ⟨config.valueBatchSize, .all, length, false⟩]) ∧
    (∀ fault, outcome = failWith (.config fault) → site'.taskState = site.taskState ∨
      Foreign task.recorded evaluationModel config site.taskState fault) ∧
    ∀ first, outcome = .ok first →
      (∃ length, config.sliceLength = some length ∧
        first.valueRequest = ⟨config.valueBatchSize, .all, length, false⟩ ∧
        first.policyRequest = ⟨config.policyBatchSize,
          if algorithm.onPolicy then .latest else .all, length + config.lookAhead,
          decide (1 < length + config.lookAhead)⟩) ∧
      first.epochPlan = List.replicate config.valueSteps .value ++
        List.replicate config.policySteps .policy ∧
      first.taskState.calls = site.taskState.calls ++ [.sample first.valueRequest] ∧
      (∀ asks, ∃ segments,
        List.Forall₂ first.Explains (Session.asked asks ⟨first, []⟩).1 segments ∧
        first.History first.taskState segments.flatten
          (Session.asked asks ⟨first, []⟩).2.agent.taskState ∧
        (Session.asked asks ⟨first, []⟩).2.agent.taskState.calls =
          first.taskState.calls ++ segments.flatten.map (Event.call first)) ∧
      ∀ agent, first.Reached agent → ∃ values policies, EpochEvents agent values policies ∧
        first.History agent.taskState (values ++ policies) (trainEpoch.run agent).2.taskState ∧
        (trainEpoch.run agent).2.taskState.calls =
          agent.taskState.calls ++ (values ++ policies).map (Event.call first) := by
  refine ⟨?_, ?_, ?_⟩
  · rcases calls_of_construct hbuilt with hearly | ⟨length, hlength, hcalled⟩
    · exact .inl (congrArg Task.Recorded.calls hearly)
    · exact .inr ⟨length, hlength, congrArg Task.Recorded.calls hcalled⟩
  · rintro fault rfl
    exact taskState_of_configError hbuilt
  · rintro first rfl
    have hfirst := built_of_construct hbuilt
    refine ⟨hfirst.requests, ?_, hfirst.calls, fun asks => ?_, fun agent hagent => ?_⟩
    · rw [epochPlan, hfirst.config_eq]
    · have hstart : (⟨first, []⟩ : Session α ρ _).agent.SameSetup first := .refl first
      obtain ⟨_, segments, hall, hhistory⟩ := explained_asked asks hstart
      exact ⟨segments, hall, hhistory, calls_of_history hfirst.task_eq hhistory⟩
    · have hsetup := (kept_sameSetup first).of_reached hagent (.refl first)
      obtain ⟨_, events, hhistory, _, values, policies, rfl, hepoch⟩ :=
        follows_trainEpoch first agent hsetup
      exact ⟨values, policies, hepoch, hhistory, calls_of_history hfirst.task_eq hhistory⟩

end

namespace Line

/-- Build the agent of two perceptrons with a task that keeps a record of its calls. -/
def buildRecorded : Action (Site Float32 Float (Task.Recorded Synthetic.State))
    (Agent Float32 Float (Task.Recorded Synthetic.State)) :=
  construct numbers.recorded (.ok (bent 0.5 1)) (.ok (bent 0.5 1)) (bent 0.25 2)
    (.a2c (.gaussian 1 0.5)) config

def siteRecorded : Site Float32 Float (Task.Recorded Synthetic.State) :=
  ⟨⟨⟨.ofSeed 1, 0, []⟩, []⟩, .start .empty⟩

/-- A pull before an epoch that fails at its second step, one after it, and a run. -/
def mixed : List Ask :=
  [.make .policies, .pull 0, .make .values, .trainEpoch, .pull 1, .run 1]

/-- The calls that the task has received in the end. -/
def received : Action (Site Float32 Float (Task.Recorded Synthetic.State)) (List Task.Call) := do
  let first ← buildRecorded
  return (Session.asked mixed ⟨first, []⟩).2.agent.taskState.calls

/-- The calls for the agent of two perceptrons, which draws from two streams between its epochs. -/
theorem request_trace_bent : ∃ first segments, (buildRecorded.run siteRecorded).1 = .ok first ∧
    List.Forall₂ first.Explains (Session.asked mixed ⟨first, []⟩).1 segments ∧
    [.sample first.valueRequest] ++ segments.flatten.map (Event.call first) =
      [.sample ⟨1, .all, 1, false⟩, .sample ⟨1, .latest, 1, false⟩,
        .sample ⟨1, .all, 1, false⟩, .sample ⟨1, .all, 1, false⟩, .sample ⟨1, .all, 1, false⟩,
        .sample ⟨1, .all, 1, false⟩, .sample ⟨1, .all, 1, false⟩, .sample ⟨1, .latest, 1, false⟩,
        .endEpoch 0] := by
  have hreceived : (received.run siteRecorded).1 =
      .ok [.sample ⟨1, .all, 1, false⟩, .sample ⟨1, .latest, 1, false⟩,
        .sample ⟨1, .all, 1, false⟩, .sample ⟨1, .all, 1, false⟩, .sample ⟨1, .all, 1, false⟩,
        .sample ⟨1, .all, 1, false⟩, .sample ⟨1, .all, 1, false⟩, .sample ⟨1, .latest, 1, false⟩,
        .endEpoch 0] := by decide +kernel
  have hempty : siteRecorded.taskState.calls = [] := rfl
  generalize siteRecorded = site at *
  obtain ⟨first, here, hbuilt, hlast⟩ := Action.run_bind_eq_ok.mp (Prod.ext hreceived rfl)
  have hcalls := Except.ok.inj (congrArg Prod.fst hlast)
  obtain ⟨_, _, hsession⟩ := request_trace hbuilt
  obtain ⟨_, _, hstart, hasks, _⟩ := hsession first rfl
  obtain ⟨segments, hexplains, _, htrace⟩ := hasks mixed
  refine ⟨first, segments, congrArg Prod.fst hbuilt, hexplains, ?_⟩
  rw [htrace, hstart, hempty] at hcalls
  exact hcalls

end Line

end Agent

end PolicyGradient
