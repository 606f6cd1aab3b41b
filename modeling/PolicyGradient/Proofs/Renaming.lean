import PolicyGradient.Proofs.Deliveries

/-!
Learners under other identities.

Identities are only compared with each other.  So a learner whose parameters all have new
identities, different ones where they were different, does what the learner would have done
(`Learner.Renamed.update`), and shows the same weights and the same optimizer state.  Parameters
that share an identity go on sharing it.
-/

namespace PolicyGradient

open Outcome

variable {α ρ β : Type} {f : Nat → Nat}

/-- The parameter under another identity. -/
def Param.rename (f : Nat → Nat) (param : Param α) : Param α :=
  { param with id := f param.id }

theorem Param.replace_rename (f : Nat → Nat) (param : Param α) (block : ParamBlock α) :
    (param.rename f).replace block = (param.replace block).map (rename f) := by
  unfold replace
  split
  · rfl
  · rfl

namespace Model

/-- The model under other identities. -/
def rename (f : Nat → Nat) (model : Model α) : Model α :=
  { model with layers := model.layers.map (List.map (Param.rename f)) }

theorem sameForm_rename (f : Nat → Nat) (model : Model α) : model.SameForm (model.rename f) := by
  refine ⟨rfl, ?_⟩
  rw [form, form, rename, List.map_map]
  refine List.map_congr_left fun params _ => ?_
  rw [Function.comp_apply, List.map_map]
  rfl

theorem weights_rename (f : Nat → Nat) (model : Model α) :
    (model.rename f).weights = model.weights := by
  rw [weights, weights, rename, List.map_map]
  refine congrArg ModelWeights.mk (List.map_congr_left fun params _ => ?_)
  rw [Function.comp_apply, weightsOf, List.map_map]
  rfl

end Model

namespace Adam

/-- The records are the same ones under other identities. -/
def Records.Renamed (f : Nat → Nat) (records records' : Records α) : Prop :=
  ∀ id, records'.find? (f id) = records.find? id

theorem Records.Renamed.insert (hf : f.Injective) {records records' : Records α}
    (h : records.Renamed f records') (id : Nat) (moments : Moments α) :
    (records.insert id moments).Renamed f (records'.insert (f id) moments) := by
  intro other
  rw [Records.find?_insert, Records.find?_insert, h other]
  by_cases hid : id = other
  · rw [if_pos hid, if_pos (congrArg f hid)]
  · rw [if_neg hid, if_neg fun heq => hid (hf heq)]

/-- The optimizers differ in the identities under which they keep their records. -/
structure Renamed (f : Nat → Nat) (adam adam' : Adam α) : Prop where
  settings : adam.settings = adam'.settings
  step : adam.step = adam'.step
  otherGroups : adam.otherGroups = adam'.otherGroups
  records : adam.records.Renamed f adam'.records

section

variable [Scalar α] {settings : Settings α} {lr : α} {records records' : Records α}

theorem move_rename (moments : Moments α) (param : Param α) :
    move settings lr moments (param.rename f) =
      (move settings lr moments param).map (Param.rename f) := by
  unfold move
  cases direction settings moments with
  | error e => rfl
  | ok along =>
      show (param.block.zipWith _ along >>= (param.rename f).replace) =
        (param.block.zipWith _ along >>= param.replace).map _
      cases param.block.zipWith (fun x d => x - lr * d) along with
      | error e => rfl
      | ok block => exact param.replace_rename f block

/-- Updates of parameters, and of rows and layers of them, do the same under other identities. -/
theorem updateParam_rename (hf : f.Injective) (h : records.Renamed f records') (param : Param α)
    (gradient : Option (ParamBlock α)) :
    Agree (fun a b => b.1 = a.1.rename f ∧ a.2.Renamed f b.2)
      (updateParam settings lr records param gradient)
      (updateParam settings lr records' (param.rename f) gradient) := by
  cases gradient with
  | none => exact .ok ⟨rfl, h⟩
  | some gradient =>
      have hsame : effective settings (param.rename f) gradient =
        effective settings param gradient := rfl
      have hfound : records'.find? (param.rename f).id = records.find? param.id := h param.id
      simp only [updateParam, hsame, hfound, move_rename]
      refine (agree_self _).bind ?_
      rintro used _ rfl
      refine (agree_self _).bind ?_
      rintro moments _ rfl
      cases move settings lr moments param with
      | error e => exact .error e
      | ok moved => exact .ok ⟨rfl, h.insert hf param.id moments⟩

theorem updateParams_rename (hf : f.Injective) (h : records.Renamed f records')
    (params : List (Param α)) (gradients : List (Option (ParamBlock α))) :
    Agree (fun a b => b.1 = a.1.map (Param.rename f) ∧ a.2.Renamed f b.2)
      (updateParams settings lr records params gradients)
      (updateParams settings lr records' (params.map (Param.rename f)) gradients) := by
  induction params generalizing records records' gradients with
  | nil => exact .ok ⟨rfl, h⟩
  | cons param params ih =>
      refine (updateParam_rename hf h param gradients.head?.join).bind ?_
      rintro ⟨first, between⟩ ⟨_, between'⟩ ⟨rfl, hbetween⟩
      refine (ih hbetween gradients.tail).bind ?_
      rintro ⟨others, last⟩ ⟨_, last'⟩ ⟨rfl, hlast⟩
      exact .ok ⟨rfl, hlast⟩

theorem updateLayers_rename (hf : f.Injective) (h : records.Renamed f records')
    (layers : List (List (Param α))) (gradients : Gradients α) :
    Agree (fun a b => b.1 = a.1.map (List.map (Param.rename f)) ∧ a.2.Renamed f b.2)
      (updateLayers settings lr records layers gradients)
      (updateLayers settings lr records' (layers.map (List.map (Param.rename f))) gradients) := by
  induction layers generalizing records records' gradients with
  | nil => exact .ok ⟨rfl, h⟩
  | cons params layers ih =>
      refine (updateParams_rename hf h params (gradients.head?.getD [])).bind ?_
      rintro ⟨first, between⟩ ⟨_, between'⟩ ⟨rfl, hbetween⟩
      refine (ih hbetween gradients.tail).bind ?_
      rintro ⟨others, last⟩ ⟨_, last'⟩ ⟨rfl, hlast⟩
      exact .ok ⟨rfl, hlast⟩

/-- An update does the same under other identities. -/
theorem Renamed.update (hf : f.Injective) {adam adam' : Adam α} (h : adam.Renamed f adam')
    (model : Model α) (gradients : Gradients α) :
    Agree (fun a b => a.1.Renamed f b.1 ∧ b.2 = a.2.rename f) (adam.update lr model gradients)
      (adam'.update lr (model.rename f) gradients) := by
  simp only [Adam.update, ← h.settings, ← h.step]
  refine (agree_self _).bind ?_
  rintro step _ rfl
  refine (updateLayers_rename hf h.records model.layers gradients).bind ?_
  rintro ⟨layers, last⟩ ⟨_, last'⟩ ⟨rfl, hlast⟩
  exact .ok ⟨⟨rfl, rfl, h.otherGroups, hlast⟩, rfl⟩

end

section

variable [Zero α] {records records' : Records α}

theorem slot_rename (part : Moments α → ParamBlock α) (h : records.Renamed f records')
    (param : Param α) : slot part records' (param.rename f) = slot part records param := by
  have hfound : records'.find? (param.rename f).id = records.find? param.id := h param.id
  rw [slot, slot, slotValues, slotValues, hfound]
  rfl

/-- What is shown of an optimizer does not depend on the identities. -/
theorem Renamed.state {adam adam' : Adam α} (h : adam.Renamed f adam') (model : Model α) :
    adam'.state (model.rename f) = adam.state model := by
  have hslots : ∀ params : List (Param α), slotsOf adam'.records (params.map (Param.rename f)) =
      slotsOf adam.records params := by
    intro params
    rw [slotsOf, slotsOf, List.map_map, List.map_map]
    refine congrArg LayerWeights.mk (congrArg₂ List.append ?_ ?_)
    · exact List.map_congr_left fun param _ => slot_rename _ h.records param
    · exact List.map_congr_left fun param _ => slot_rename _ h.records param
  rw [Adam.state, Adam.state, Model.rename, List.map_map, h.otherGroups, h.step]
  refine congrArg (fun group => OptimizerState.mk (group :: _) _) ?_
  exact List.map_congr_left fun params _ => hslots params

end

end Adam

namespace Learner

/-- Learners of one training whose parameters have other identities. -/
structure Renamed (f : Nat → Nat) (x y : Learner α ρ β) : Prop where
  name : x.name = y.name
  objective : x.objective = y.objective
  ignoresIds : x.objective.IgnoresIds
  schedule : x.schedule = y.schedule
  epoch : x.epoch = y.epoch
  optimizer : x.optimizer.Renamed f y.optimizer
  model : y.model = x.model.rename f

variable {x y : Learner α ρ β}

theorem Renamed.weights (h : x.Renamed f y) : y.weights = x.weights := by
  rw [Learner.weights, h.model]
  exact x.model.weights_rename f

theorem Renamed.optimizerState [Zero α] (h : x.Renamed f y) :
    y.optimizerState = x.optimizerState := by
  rw [Learner.optimizerState, h.model]
  exact h.optimizer.state x.model

/-- What is beside training may differ, as long as the epochs do not. -/
theorem Renamed.aside {x' y' : Learner α ρ β} (h : x.Renamed f y) (hx : x.Aside x')
    (hy : y.Aside y') (hepoch : x'.epoch = y'.epoch) : x'.Renamed f y' := by
  rw [hx, hy]
  exact ⟨h.name, h.objective, h.ignoresIds, h.schedule, hepoch, h.optimizer, h.model⟩

/-- Under other identities a learner learns the same from a batch. -/
theorem Renamed.update [Scalar α] [Scalar ρ] [Narrows ρ α] (hf : f.Injective) (h : x.Renamed f y)
    (batch : β) :
    Agree (fun a b => a.1.Renamed f b.1 ∧ a.2 = b.2) (x.update batch) (y.update batch) := by
  obtain ⟨hloss, hgradients⟩ := h.ignoresIds x.model (x.model.rename f) batch
    (x.model.sameForm_rename f) (x.model.weights_rename f).symm
  have hstep : x.step = y.step := h.optimizer.step
  simp only [Learner.update, ← h.objective, ← hloss, ← hgradients, ← hstep, ← h.schedule,
    ← h.name, ← h.epoch, h.model]
  refine (agree_self _).bind ?_
  rintro loss _ rfl
  refine (agree_self _).bind ?_
  rintro gradients _ rfl
  refine (agree_self _).bind ?_
  rintro step _ rfl
  refine (h.optimizer.update hf x.model gradients).bind ?_
  rintro ⟨optimizer, model⟩ ⟨optimizer', _⟩ ⟨hoptimizer, rfl⟩
  exact .ok ⟨⟨rfl, rfl, h.ignoresIds, rfl, rfl, hoptimizer, rfl⟩, rfl⟩

end Learner

end PolicyGradient
