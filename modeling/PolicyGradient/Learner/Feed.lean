import PolicyGradient.Failure

/-!
Feeds: sources of batches for a learner.

A feed is a transition function on states of its own.  `Feed.ofList` gives out the items of a list
in order and then ends, or starts over.
-/

namespace PolicyGradient

/-- A source of batches with states `σ`.  It is started once, before its first batch, and may
end. -/
structure Feed (σ β : Type) where
  start : (epoch : Nat) → σ → σ
  next : σ → Option (Outcome β) × σ

namespace Feed

variable {β : Type}

/-- The state of a feed that goes through a list. -/
structure Listed (β : Type) where
  /-- The epochs in which the feed was started, in order. -/
  opened : List Nat
  rest : List (Outcome β)

/-- No feed has been started yet. -/
def Listed.unopened : Listed β :=
  ⟨[], []⟩

/-- The feed that gives out the items of a list, over and over again if `again` is set. -/
def ofList (items : List (Outcome β)) (again : Bool) : Feed (Listed β) β where
  start epoch s := ⟨s.opened ++ [epoch], items⟩
  next s :=
    match s.rest with
    | item :: rest => (some item, { s with rest := rest })
    | [] =>
        match again, items with
        | true, item :: rest => (some item, { s with rest := rest })
        | _, _ => (none, s)

end Feed

end PolicyGradient
