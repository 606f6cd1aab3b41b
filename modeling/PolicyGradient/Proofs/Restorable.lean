import PolicyGradient.Proofs.Copy
import PolicyGradient.Proofs.Shapes

/-!
Learners whose optimizer state can always be set.

Where an identity stands for one shape and gradients fill their parameters, the moments on record
have the shapes of their parameters and are filled (`Learner.Restorable.fits`), whatever training,
loading and restoring have gone before.  Identities may be shared.
-/

namespace PolicyGradient

open Outcome

variable {α ρ β : Type}

namespace Adam

/-- Both means are filled. -/
def Moments.Filled (moments : Moments α) : Prop :=
  moments.first.IsFilled ∧ moments.second.IsFilled

/-- The moments on record are filled. -/
def Records.Filled (records : Records α) : Prop :=
  ∀ id moments, records.find? id = some moments → moments.Filled

section

variable {records : Records α}

theorem Records.Filled.insert (h : records.Filled) (id : Nat) {moments : Moments α}
    (hmoments : moments.Filled) : (records.insert id moments).Filled := by
  intro other found hfound
  rw [Records.find?_insert] at hfound
  split at hfound
  · cases hfound
    exact hmoments
  · exact h other found hfound

theorem Records.Filled.insertAll (h : records.Filled) {entries : List (Nat × Moments α)}
    (hentries : ∀ entry ∈ entries, entry.2.Filled) : (records.insertAll entries).Filled := by
  induction entries generalizing records with
  | nil => exact h
  | cons entry entries ih =>
      apply ih (h.insert entry.1 (hentries entry List.mem_cons_self))
      exact fun other hother => hentries other (List.mem_cons_of_mem entry hother)

/-- A state that is accepted holds filled slots only. -/
theorem filled_of_setState {adam adam' : Adam α} {model : Model α} {state : OptimizerState α}
    (h : adam.records.Filled) (hset : adam.setState model state = .ok adam') :
    adam'.records.Filled := by
  obtain ⟨group, others, _, hslots, rfl⟩ := setState_eq_ok.mp hset
  apply h.insertAll
  intro entry hentry
  obtain ⟨_, _, _, _, _, hfits⟩ := fits_of_mem_entriesOf hslots hentry
  exact ⟨hfits.1.2, hfits.2.2⟩

end

section

variable [Scalar α] {settings : Settings α} {lr : α} {records records' : Records α}

theorem isFilled_effective {param : Param α} {gradient used : ParamBlock α}
    (hgradient : gradient.IsFilled) (h : effective settings param gradient = .ok used) :
    used.IsFilled := by
  have hclip : (clip settings gradient).IsFilled := by
    unfold clip
    split
    · exact hgradient
    · exact ParamBlock.isFilled_map hgradient
  unfold effective at h
  split at h
  · exact ParamBlock.isFilled_of_zipWith h
  · cases h
    exact hclip

/-- Moments are combined entry by entry, or begin with the gradient. -/
theorem filled_of_advance {gradient : ParamBlock α} {moments : Option (Moments α)}
    {moments' : Moments α} (hgradient : gradient.IsFilled)
    (h : advance settings gradient moments = .ok moments') : moments'.Filled := by
  cases moments with
  | none =>
      cases h
      exact ⟨ParamBlock.isFilled_map hgradient, ParamBlock.isFilled_map hgradient⟩
  | some m =>
      simp only [advance, bind_eq_ok] at h
      obtain ⟨first, hfirst, second, hsecond, hmoments'⟩ := h
      cases hmoments'
      exact ⟨ParamBlock.isFilled_of_zipWith hfirst, ParamBlock.isFilled_of_zipWith hsecond⟩

theorem filled_of_updateParam {param param' : Param α} {gradient : Option (ParamBlock α)}
    (hrecords : records.Filled) (hgradient : ∀ g, gradient = some g → g.IsFilled)
    (h : updateParam settings lr records param gradient = .ok (param', records')) :
    records'.Filled := by
  cases gradient with
  | none =>
      cases h
      exact hrecords
  | some gradient =>
      simp only [updateParam, bind_eq_ok] at h
      obtain ⟨used, hused, moments, hadvance, moved, _, hupdated⟩ := h
      cases hupdated
      apply hrecords.insert
      exact filled_of_advance (isFilled_effective (hgradient gradient rfl) hused) hadvance

theorem filled_of_updateParams {params params' : List (Param α)}
    {gradients : List (Option (ParamBlock α))} (hrecords : records.Filled)
    (hgradients : ∀ x ∈ assignedRow params gradients, ∀ g, x.2 = some g → g.IsFilled)
    (h : updateParams settings lr records params gradients = .ok (params', records')) :
    records'.Filled := by
  induction params generalizing records params' gradients with
  | nil =>
      cases h
      exact hrecords
  | cons param params ih =>
      simp only [updateParams, bind_eq_ok] at h
      obtain ⟨⟨head, between⟩, hhead, ⟨tail, last⟩, htail, hupdated⟩ := h
      cases hupdated
      have hbetween := filled_of_updateParam hrecords (hgradients _ List.mem_cons_self) hhead
      exact ih hbetween (fun x hx => hgradients x (List.mem_cons_of_mem _ hx)) htail

theorem filled_of_updateLayers {layers layers' : List (List (Param α))} {gradients : Gradients α}
    (hrecords : records.Filled)
    (hgradients : ∀ row ∈ assigned layers gradients, ∀ x ∈ row, ∀ g, x.2 = some g → g.IsFilled)
    (h : updateLayers settings lr records layers gradients = .ok (layers', records')) :
    records'.Filled := by
  induction layers generalizing records layers' gradients with
  | nil =>
      cases h
      exact hrecords
  | cons params layers ih =>
      simp only [updateLayers, bind_eq_ok] at h
      obtain ⟨⟨head, between⟩, hhead, ⟨tail, last⟩, htail, hupdated⟩ := h
      cases hupdated
      have hbetween := filled_of_updateParams hrecords (hgradients _ List.mem_cons_self) hhead
      exact ih hbetween (fun row hrow => hgradients row (List.mem_cons_of_mem _ hrow)) htail

/-- Filled gradients leave filled moments. -/
theorem filled_of_update {adam adam' : Adam α} {model model' : Model α} {gradients : Gradients α}
    (hrecords : adam.records.Filled) (hgradients : gradients.Fit model)
    (h : adam.update lr model gradients = .ok (adam', model')) : adam'.records.Filled := by
  simp only [update, bind_eq_ok] at h
  obtain ⟨_, _, ⟨layers, records⟩, hlayers, hupdated⟩ := h
  cases hupdated
  apply filled_of_updateLayers hrecords ?_ hlayers
  intro row hrow x hx gradient hgradient
  exact (hgradients row hrow x hx gradient hgradient).2

end

end Adam

namespace Learner

/-- The model has its first form, each identity stands for one shape, and the moments have these
shapes and are filled. -/
structure Restorable [Scalar α] (shapes : Nat → List Nat) (first : Model α)
    (learner : Learner α ρ β) : Prop where
  shaped : learner.Shaped shapes
  form : learner.model.SameForm first
  filled : learner.optimizer.records.Filled

variable [Scalar α] {shapes : Nat → List Nat} {first : Model α}

/-- The moments fit the model, so what the optimizer shows can be set. -/
theorem Restorable.fits {learner : Learner α ρ β} (h : learner.Restorable shapes first) :
    learner.optimizer.Fits learner.model := by
  intro params hparams param hparam moments hmoments
  obtain ⟨hfirst, hsecond⟩ := h.shaped.moments param.id moments hmoments
  obtain ⟨hfilled, hfilled'⟩ := h.filled param.id moments hmoments
  rw [h.shaped.model params hparams param hparam]
  exact ⟨⟨hfirst, hfilled⟩, hsecond, hfilled'⟩

theorem Fresh.restorable [Scalar ρ] {learner : Learner α ρ β} (h : learner.Fresh)
    (hobjective : learner.objective.OfModel) (hshaped : learner.model.Shaped shapes) :
    learner.Restorable shapes learner.model := by
  have hnone : ∀ id, learner.optimizer.records.find? id = none := by
    intro id
    rw [h.unused.1]
    rfl
  refine ⟨⟨hobjective, hshaped, ?_⟩, ⟨rfl, rfl⟩, ?_⟩
  · intro id moments hmoments
    rw [hnone] at hmoments
    cases hmoments
  · intro id moments hmoments
    rw [hnone] at hmoments
    cases hmoments

/-- Training, loading and restoring leave a learner restorable. -/
theorem invariant_restorable [Scalar ρ] [Narrows ρ α]
    (hfits : first.architecture.Fits first.layout) :
    Invariant fun learner : Learner α ρ β => learner.Restorable shapes first where
  aside epoch started loggers h := by
    obtain ⟨hshaped, hform⟩ :=
      (invariant_shaped shapes first).aside epoch started loggers ⟨h.shaped, h.form⟩
    exact ⟨hshaped, hform, h.filled⟩
  update := by
    intro learner batch learner' record h hupdate
    obtain ⟨hshaped, hform⟩ := (invariant_shaped shapes first).update ⟨h.shaped, h.form⟩ hupdate
    obtain ⟨gradients, _, _, hgradients, hmodel, rfl, _⟩ := of_update hupdate
    refine ⟨hshaped, hform, Adam.filled_of_update h.filled ?_ hmodel⟩
    exact h.shaped.objective.fits hfits _ batch gradients h.form hgradients
  setWeights := by
    intro learner weights learner' h hset
    obtain ⟨hshaped, hform⟩ := (invariant_shaped shapes first).setWeights ⟨h.shaped, h.form⟩ hset
    obtain ⟨_, _, rfl⟩ := of_setWeights hset
    exact ⟨hshaped, hform, h.filled⟩
  setOptimizerState := by
    intro learner state learner' h hset
    obtain ⟨hshaped, hform⟩ :=
      (invariant_shaped shapes first).setOptimizerState ⟨h.shaped, h.form⟩ hset
    obtain ⟨_, hstate, rfl⟩ := of_setOptimizerState hset
    exact ⟨hshaped, hform, Adam.filled_of_setState h.filled hstate⟩

end Learner

namespace Copy

variable {β' ρ' : Type} [Scalar α] {n : Nat}

section

variable {source : Learner α ρ β} {destination : Learner α ρ' β'}

theorem fits_optimizerState (h : source.optimizer.Fits source.model) :
    source.optimizerState.Fits source.model :=
  Adam.fits_state h

/-- Slots are laid out like the layers that they belong to, twice. -/
theorem sameLayouts_slots (hsource : source.optimizer.Fits source.model)
    (hdestination : destination.optimizer.Fits destination.model)
    (h : ∀ i < n, source.model.layout[i]? = destination.model.layout[i]?) :
    Layers.SameLayouts 0 n source.optimizerState.modelSlots
      destination.optimizerState.modelSlots := by
  obtain ⟨_, hlayout, _⟩ := Adam.fits_iff.mp (fits_optimizerState hsource)
  obtain ⟨_, hlayout', _⟩ := Adam.fits_iff.mp (fits_optimizerState hdestination)
  apply Layers.sameLayouts_of_map_eq.mpr
  intro i _ hi
  rw [hlayout, hlayout', List.getElem?_map, List.getElem?_map, h i hi]

theorem length_modelSlots (h : source.optimizer.Fits source.model) :
    source.optimizerState.modelSlots.length = source.model.depth := by
  obtain ⟨_, hlayout, _⟩ := Adam.fits_iff.mp (fits_optimizerState h)
  have hlength := congrArg List.length hlayout
  rwa [List.length_map, List.length_map, Model.length_layout] at hlength

omit [Scalar α] in
theorem length_weights (model : Model α) : model.weights.length = model.depth :=
  List.length_map _

/-- What a learner with moments that fit is given to load and to restore, if it is laid out like the
learner's own and filled, it takes. -/
theorem exists_write {weights : ModelWeights α} {state : OptimizerState α}
    (hprepared : prepare 0 n true source destination = .ok (weights, some state))
    (hweights : weights.layout = destination.model.layout ∧ weights.IsFilled)
    (hstate : state.Fits destination.model) :
    ∃ last, (write 0 n true source).run destination = (.ok (), last) := by
  obtain ⟨model, hmodel⟩ : ∃ model, destination.model.load weights = .ok model :=
    Model.exists_load_iff.mpr hweights
  obtain ⟨_, _, hform⟩ := Model.load_spec hmodel
  obtain ⟨optimizer, hoptimizer⟩ : ∃ optimizer,
      destination.optimizer.setState model state = .ok optimizer := by
    apply Adam.exists_setState_iff.mpr
    rw [Adam.fits_iff, hform.layout_eq, ← Adam.fits_iff]
    exact hstate
  have hset : Holder.setWeights destination weights = .ok { destination with model := model } := by
    simp only [Holder.setWeights, Learner.setWeights, hmodel]
    rfl
  have hstore : Holder.setOptimizerState { destination with model := model } state =
      .ok { destination with model := model, optimizer := optimizer } := by
    simp only [Holder.setOptimizerState, Learner.setOptimizerState, hoptimizer]
    rfl
  refine ⟨{ destination with model := model, optimizer := optimizer }, ?_⟩
  rw [run_write hprepared, hset]
  simp only [hstore]

/-- Learners whose first layers agree in their layouts can copy these layers, with their slots. -/
theorem exists_write_of_fits (hlimit : n < Size.limit) (hstop : n ≤ source.model.depth)
    (hstop' : n ≤ destination.model.depth)
    (h : ∀ i < n, source.model.layout[i]? = destination.model.layout[i]?)
    (hsource : source.optimizer.Fits source.model)
    (hdestination : destination.optimizer.Fits destination.model) :
    ∃ last, (write 0 n true source).run destination = (.ok (), last) := by
  have hgiven : Holder.weights source = .ok source.weights := rfl
  have hown : Holder.weights destination = .ok destination.weights := rfl
  have hkept : Holder.optimizerState destination = .ok destination.optimizerState := rfl
  obtain ⟨hslots, _, hfilled⟩ := Adam.fits_iff.mp (fits_optimizerState hsource)
  obtain ⟨hslots', hshapes', hfilled'⟩ := Adam.fits_iff.mp (fits_optimizerState hdestination)
  have hlast : n ≤ source.weights.length := (length_weights source.model).symm ▸ hstop
  have hlast' : n ≤ destination.weights.length := (length_weights destination.model).symm ▸ hstop'
  have hlayouts : Layers.SameLayouts 0 n source.weights.layers destination.weights.layers :=
    Layers.sameLayouts_of_map_eq.mpr fun i _ hi => h i hi
  have hslotLast : n ≤ source.optimizerState.modelSlots.length := by
    rwa [length_modelSlots hsource]
  have hslotLast' : n ≤ destination.optimizerState.modelSlots.length := by
    rwa [length_modelSlots hdestination]
  have hslotLayouts := sameLayouts_slots hsource hdestination h
  obtain ⟨hsome, hoverlay⟩ := OptimizerState.modelSlots_overlay 0 n source.optimizerState hslots'
  have hprepared := (prepare_eq_ok hlimit hgiven hown).mpr
    ⟨⟨Nat.zero_le n, hlast, hlast', hlayouts, rfl⟩, (prepareState_eq_ok hlimit hkept).mpr
      ⟨_, rfl, hslots, hslots', Nat.zero_le n, hslotLast, hslotLast', hslotLayouts, rfl⟩⟩
  -- What has been prepared has the layout of the destination and is filled, so it is taken.
  apply exists_write hprepared
  · constructor
    · exact Layers.layout_overlay (Nat.zero_le n) hlast hlast' hlayouts
    · apply (Layers.filled_overlay_iff destination.model.isFilled_weights).mpr
      exact Layers.filledRange_of_filled source.model.isFilled_weights
  · apply Adam.fits_iff.mpr
    refine ⟨hsome, ?_, ?_⟩
    · rw [hoverlay, Layers.layout_overlay (Nat.zero_le n) hslotLast hslotLast' hslotLayouts]
      exact hshapes'
    · rw [hoverlay]
      apply (Layers.filled_overlay_iff hfilled').mpr
      exact Layers.filledRange_of_filled hfilled

/-- What has been copied from one learner to another can be copied back after the second one has
been trained: a copy asks for layouts that agree, and training changes no layout. -/
theorem exists_write_back {trained last : Learner α ρ' β'}
    (h : (write 0 n true source).run destination = (.ok (), last))
    (hform : trained.model.SameForm destination.model)
    (hsource : source.optimizer.Fits source.model)
    (htrained : trained.optimizer.Fits trained.model) :
    ∃ last, (write 0 n true trained).run source = (.ok (), last) := by
  have hgiven : Holder.weights source = .ok source.weights := rfl
  have hown : Holder.weights destination = .ok destination.weights := rfl
  cases hprepare : prepare 0 n true source destination with
  | error e =>
      rw [run_write_of_error hprepare] at h
      cases h
  | ok prepared =>
      have hlimit := limit_of_prepare hgiven hown hprepare
      obtain ⟨⟨_, hstop, hstop', hlayouts, _⟩, _⟩ := (prepare_eq_ok hlimit hgiven hown).mp hprepare
      have hdepth : trained.model.depth = destination.model.depth := by
        rw [← Model.length_layout, hform.layout_eq, Model.length_layout]
      rw [Learner.weights, length_weights] at hstop hstop'
      refine exists_write_of_fits hlimit (hdepth ▸ hstop') hstop ?_ htrained hsource
      intro i hi
      rw [hform.layout_eq]
      exact (Layers.sameLayouts_of_map_eq.mp hlayouts i (Nat.zero_le i) hi).symm

end

end Copy

end PolicyGradient
