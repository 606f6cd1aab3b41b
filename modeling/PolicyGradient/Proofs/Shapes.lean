import PolicyGradient.Proofs.Gradients
import PolicyGradient.Proofs.Sound

/-!
Parameters keep their shapes.

A gradient has the shape of its parameter whatever values the architecture gives it.  So where an
identity stands for one shape, moments have the shapes of their parameters, and nothing that is done
to a learner changes the form of its model (`Learner.invariant_shaped`).  Unlike `Learner.Sound`
this asks neither for identities that differ nor for gradients that are filled.
-/

namespace PolicyGradient

open Outcome

variable {α : Type}

/-- Each identity stands for one shape. -/
def Model.Shaped (shapes : Nat → List Nat) (model : Model α) : Prop :=
  ∀ params ∈ model.layers, ∀ param ∈ params, param.block.shape = shapes param.id

/-- Each gradient has the shape of its parameter. -/
def Gradients.Shaped (gradients : Gradients α) (layers : List (List (Param α))) : Prop :=
  ∀ row ∈ Adam.assigned layers gradients, ∀ x ∈ row, ∀ gradient,
    x.2 = some gradient → gradient.shape = x.1.block.shape

namespace Model

variable {shapes : Nat → List Nat}

theorem Shaped.of_sameForm {model other : Model α} (h : model.Shaped shapes)
    (hids : other.identities = model.identities) (hform : other.form = model.form) :
    other.Shaped shapes := by
  intro params hparams param hparam
  obtain ⟨params', hparams', param', hparam', hid, hsame⟩ :=
    exists_counterpart hids hform hparams hparam
  have hshape : param'.block.shape = param.block.shape := congrArg Prod.snd hsame
  rw [← hshape, ← hid]
  exact h params' hparams' param' hparam'

/-- Identities that differ stand for one shape each. -/
theorem DistinctIds.exists_shaped {model : Model α} (h : model.DistinctIds) :
    ∃ shapes, model.Shaped shapes := by
  refine ⟨fun id => ((model.layers.flatten.find? fun param => param.id == id).map
    fun param => param.block.shape).getD [], ?_⟩
  intro params hparams param hparam
  have hmem : param ∈ model.layers.flatten := List.mem_flatten.mpr ⟨params, hparams, hparam⟩
  have hnodup : (model.layers.flatten.map Param.id).Nodup := by
    rw [List.map_flatten]
    exact h
  show _ = ((model.layers.flatten.find? fun other => other.id == param.id).map _).getD []
  cases hfound : model.layers.flatten.find? fun other => other.id == param.id with
  | none => simpa using List.find?_eq_none.mp hfound param hmem
  | some other =>
      have hid : other.id = param.id := by simpa using List.find?_some hfound
      have hsame : other = param :=
        List.inj_on_of_nodup_map hnodup (List.mem_of_find?_eq_some hfound) hmem hid
      rw [hsame]
      rfl

theorem shaped_assignedRow (params : List (Param α)) (values : List (Array α)) :
    ∀ x ∈ Adam.assignedRow params (List.zipWith gradientOf params values), ∀ gradient,
      x.2 = some gradient → gradient.shape = x.1.block.shape := by
  induction params generalizing values with
  | nil =>
      intro x hx
      cases hx
  | cons param params ih =>
      intro x hx gradient hgradient
      cases values with
      | nil =>
          rcases List.mem_cons.mp hx with rfl | hx
          · cases hgradient
          · exact ih [] x (by simpa using hx) gradient hgradient
      | cons g values =>
          rcases List.mem_cons.mp hx with rfl | hx
          · have hg : gradientOf param g = some gradient := hgradient
            rw [gradientOf] at hg
            split at hg
            · cases hg
              rfl
            · cases hg
          · exact ih values x hx gradient hgradient

/-- The gradients that a model takes from its architecture have the shapes of its parameters. -/
theorem shaped_gradients {model : Model α} {observations gradient : Tensor α 3}
    {gradients : Gradients α} (h : model.gradients observations gradient = .ok gradients) :
    gradients.Shaped model.layers := by
  rw [gradients_eq, bind_eq_ok] at h
  obtain ⟨values, hvalues, hgradients⟩ := h
  cases hgradients
  clear hvalues
  generalize model.layers = layers
  induction layers generalizing values with
  | nil =>
      intro row hrow
      cases hrow
  | cons params layers ih =>
      intro row hrow
      cases values with
      | nil =>
          rcases List.mem_cons.mp hrow with rfl | hrow
          · simpa using shaped_assignedRow params []
          · exact ih [] row (by simpa using hrow)
      | cons row' values =>
          rcases List.mem_cons.mp hrow with rfl | hrow
          · exact shaped_assignedRow params row'
          · exact ih values row hrow

end Model

namespace Adam

/-- The moments on record have the shapes of their identities. -/
def Records.Shaped (shapes : Nat → List Nat) (records : Records α) : Prop :=
  ∀ id moments, records.find? id = some moments → moments.HasShape (shapes id)

section

variable {shapes : Nat → List Nat} {records : Records α}

theorem Records.Shaped.insert (h : records.Shaped shapes) {id : Nat} {moments : Moments α}
    (hmoments : moments.HasShape (shapes id)) : (records.insert id moments).Shaped shapes := by
  intro other found hfound
  rw [Records.find?_insert] at hfound
  split at hfound
  case isTrue hsame =>
    cases hfound
    rw [← hsame]
    exact hmoments
  case isFalse => exact h other found hfound

theorem Records.Shaped.insertAll (h : records.Shaped shapes) {entries : List (Nat × Moments α)}
    (hentries : ∀ entry ∈ entries, entry.2.HasShape (shapes entry.1)) :
    (records.insertAll entries).Shaped shapes := by
  induction entries generalizing records with
  | nil => exact h
  | cons entry entries ih =>
      exact ih (h.insert (hentries entry List.mem_cons_self))
        fun other hother => hentries other (List.mem_cons_of_mem entry hother)

theorem fits_of_mem_pairUp {params : List (Param α)} {firsts seconds : List (ParamBlock α)}
    (hfirsts : BlocksFit params firsts) (hseconds : BlocksFit params seconds) {time : Nat}
    {entry : Nat × Moments α} (h : entry ∈ pairUp params firsts seconds time) :
    ∃ param ∈ params, entry.1 = param.id ∧ entry.2.Fits param.block.shape := by
  induction hfirsts generalizing seconds with
  | nil => cases h
  | @cons param _ params _ hm hfirsts ih =>
      cases hseconds with
      | cons hv hseconds =>
          rcases List.mem_cons.mp h with rfl | h
          · exact ⟨param, List.mem_cons_self, rfl, hm, hv⟩
          · obtain ⟨other, hother, hentry⟩ := ih hseconds h
            exact ⟨other, List.mem_cons_of_mem param hother, hentry⟩

theorem fits_of_mem_entriesOf {layers : List (List (Param α))}
    {group : List (LayerWeights α)} {time : Nat} (hslots : List.Forall₂ SlotsFit layers group)
    {entry : Nat × Moments α} (h : entry ∈ entriesOf layers group time) :
    ∃ params ∈ layers, ∃ param ∈ params,
      entry.1 = param.id ∧ entry.2.Fits param.block.shape := by
  induction hslots with
  | nil => cases h
  | @cons params _ layers _ hhead _ ih =>
      rw [entriesOf_cons] at h
      rcases List.mem_append.mp h with h | h
      · obtain ⟨firsts, seconds, heq, hfirsts, hseconds⟩ := hhead.halves
        rw [recordsOf_eq_pairUp heq (hfirsts.length_eq.symm.trans hseconds.length_eq)] at h
        exact ⟨params, List.mem_cons_self, fits_of_mem_pairUp hfirsts hseconds h⟩
      · obtain ⟨others, hothers, hentry⟩ := ih h
        exact ⟨others, List.mem_cons_of_mem params hothers, hentry⟩

theorem shaped_of_setState {adam adam' : Adam α} {model : Model α} {state : OptimizerState α}
    (hmodel : model.Shaped shapes) (h : adam.records.Shaped shapes)
    (hset : adam.setState model state = .ok adam') : adam'.records.Shaped shapes := by
  obtain ⟨group, others, _, hslots, rfl⟩ := setState_eq_ok.mp hset
  refine h.insertAll fun entry hentry => ?_
  obtain ⟨params, hparams, param, hparam, hid, hfits⟩ := fits_of_mem_entriesOf hslots hentry
  rw [hid, ← hmodel params hparams param hparam]
  exact hfits.hasShape

end

section

variable [Scalar α] {shapes : Nat → List Nat} {settings : Settings α} {lr : α}
variable {records records' : Records α} {param param' : Param α}

theorem shape_of_effective {gradient used : ParamBlock α}
    (hgradient : gradient.shape = param.block.shape)
    (h : effective settings param gradient = .ok used) : used.shape = param.block.shape := by
  have hclip : (clip settings gradient).shape = gradient.shape := by
    unfold clip
    split
    · rfl
    · rfl
  unfold effective at h
  split at h
  · exact (ParamBlock.shape_of_zipWith (hclip.trans hgradient) h).trans (hclip.trans hgradient)
  · cases h
    exact hclip.trans hgradient

theorem advance_hasShape {gradient : ParamBlock α} {moments : Option (Moments α)}
    {moments' : Moments α} {shape : List Nat} (hgradient : gradient.shape = shape)
    (hmoments : ∀ m, moments = some m → m.HasShape shape)
    (h : advance settings gradient moments = .ok moments') : moments'.HasShape shape := by
  cases moments with
  | none =>
      cases h
      exact ⟨hgradient, hgradient⟩
  | some m =>
      simp only [advance, bind_eq_ok] at h
      obtain ⟨first, hfirst, second, hsecond, hmoments'⟩ := h
      cases hmoments'
      obtain ⟨hm, hv⟩ := hmoments m rfl
      exact ⟨(ParamBlock.shape_of_zipWith (hm.trans hgradient.symm) hfirst).trans hm,
        (ParamBlock.shape_of_zipWith (hv.trans hgradient.symm) hsecond).trans hv⟩

theorem updateParam_shaped {gradient : Option (ParamBlock α)} (hrecords : records.Shaped shapes)
    (hparam : param.block.shape = shapes param.id)
    (hgradient : ∀ g, gradient = some g → g.shape = param.block.shape)
    (h : updateParam settings lr records param gradient = .ok (param', records')) :
    param'.id = param.id ∧ param'.form = param.form ∧ records'.Shaped shapes := by
  cases gradient with
  | none =>
      cases h
      exact ⟨rfl, rfl, hrecords⟩
  | some gradient =>
      simp only [updateParam, bind_eq_ok] at h
      obtain ⟨used, hused, moments, hadvance, moved, hmove, hupdated⟩ := h
      cases hupdated
      have hmoments : moments.HasShape (shapes param.id) := by
        refine advance_hasShape ?_ (hrecords param.id) hadvance
        exact (shape_of_effective (hgradient gradient rfl) hused).trans hparam
      refine ⟨id_of_move hmove, form_of_move ?_ hmove, hrecords.insert hmoments⟩
      rw [hparam]
      exact hmoments

theorem updateParams_shaped {params params' : List (Param α)}
    {gradients : List (Option (ParamBlock α))} (hrecords : records.Shaped shapes)
    (hparams : ∀ param ∈ params, param.block.shape = shapes param.id)
    (hgradients : ∀ x ∈ assignedRow params gradients, ∀ g, x.2 = some g →
      g.shape = x.1.block.shape)
    (h : updateParams settings lr records params gradients = .ok (params', records')) :
    params'.map Param.id = params.map Param.id ∧
      params'.map Param.form = params.map Param.form ∧ records'.Shaped shapes := by
  induction params generalizing records params' gradients with
  | nil =>
      cases h
      exact ⟨rfl, rfl, hrecords⟩
  | cons param params ih =>
      simp only [updateParams, bind_eq_ok] at h
      obtain ⟨⟨head, between⟩, hhead, ⟨tail, last⟩, htail, hupdated⟩ := h
      cases hupdated
      obtain ⟨hid, hform, hbetween⟩ := updateParam_shaped hrecords
        (hparams param List.mem_cons_self) (hgradients _ List.mem_cons_self) hhead
      obtain ⟨hids, hforms, hlast⟩ := ih hbetween
        (fun other hother => hparams other (List.mem_cons_of_mem param hother))
        (fun x hx => hgradients x (List.mem_cons_of_mem _ hx)) htail
      exact ⟨by rw [List.map_cons, List.map_cons, hid, hids],
        by rw [List.map_cons, List.map_cons, hform, hforms], hlast⟩

theorem updateLayers_shaped {layers layers' : List (List (Param α))} {gradients : Gradients α}
    (hrecords : records.Shaped shapes)
    (hlayers : ∀ params ∈ layers, ∀ param ∈ params, param.block.shape = shapes param.id)
    (hgradients : gradients.Shaped layers)
    (h : updateLayers settings lr records layers gradients = .ok (layers', records')) :
    layers'.map (List.map Param.id) = layers.map (List.map Param.id) ∧
      layers'.map (List.map Param.form) = layers.map (List.map Param.form) ∧
      records'.Shaped shapes := by
  induction layers generalizing records layers' gradients with
  | nil =>
      cases h
      exact ⟨rfl, rfl, hrecords⟩
  | cons params layers ih =>
      simp only [updateLayers, bind_eq_ok] at h
      obtain ⟨⟨head, between⟩, hhead, ⟨tail, last⟩, htail, hupdated⟩ := h
      cases hupdated
      obtain ⟨hid, hform, hbetween⟩ := updateParams_shaped hrecords
        (hlayers params List.mem_cons_self) (hgradients _ List.mem_cons_self) hhead
      obtain ⟨hids, hforms, hlast⟩ := ih hbetween
        (fun others hothers => hlayers others (List.mem_cons_of_mem params hothers))
        (fun row hrow => hgradients row (List.mem_cons_of_mem _ hrow)) htail
      exact ⟨by rw [List.map_cons, List.map_cons, hid, hids],
        by rw [List.map_cons, List.map_cons, hform, hforms], hlast⟩

/-- An update with gradients in the shapes of their parameters keeps identities and forms. -/
theorem update_shaped {adam adam' : Adam α} {model model' : Model α} {gradients : Gradients α}
    (hmodel : model.Shaped shapes) (hrecords : adam.records.Shaped shapes)
    (hgradients : gradients.Shaped model.layers)
    (h : adam.update lr model gradients = .ok (adam', model')) :
    model'.identities = model.identities ∧ model'.SameForm model ∧
      adam'.records.Shaped shapes := by
  simp only [update, bind_eq_ok] at h
  obtain ⟨_, _, ⟨layers, records⟩, hlayers, hupdated⟩ := h
  cases hupdated
  obtain ⟨hids, hforms, hlast⟩ := updateLayers_shaped hrecords hmodel hgradients hlayers
  exact ⟨hids, ⟨rfl, hforms⟩, hlast⟩

end

end Adam

namespace Learner

variable {ρ β : Type} [Scalar α]

/-- Gradients are the model's own, and moments have the shapes of their parameters. -/
structure Shaped (shapes : Nat → List Nat) (learner : Learner α ρ β) : Prop where
  objective : learner.objective.OfModel
  model : learner.model.Shaped shapes
  moments : learner.optimizer.records.Shaped shapes

/-- Training, loading and restoring change neither the identities nor the form of the model. -/
theorem invariant_shaped [Scalar ρ] [Narrows ρ α] (shapes : Nat → List Nat) (first : Model α) :
    Invariant fun learner : Learner α ρ β =>
      learner.Shaped shapes ∧ learner.model.SameForm first where
  aside _ _ _ h := ⟨⟨h.1.objective, h.1.model, h.1.moments⟩, h.2⟩
  update := by
    rintro learner batch learner' record ⟨hshaped, hform⟩ hupdate
    obtain ⟨gradients, _, _, hgradients, hmodel, rfl, _⟩ := of_update hupdate
    obtain ⟨_, _, hown⟩ := hshaped.objective _ _ _ hgradients
    obtain ⟨hids, hsame, hmoments⟩ := Adam.update_shaped hshaped.model hshaped.moments
      (Model.shaped_gradients hown) hmodel
    exact ⟨⟨hshaped.objective, hshaped.model.of_sameForm hids hsame.2, hmoments⟩,
      hsame.trans hform⟩
  setWeights := by
    rintro learner weights learner' ⟨hshaped, hform⟩ hset
    obtain ⟨_, hmodel, rfl⟩ := of_setWeights hset
    obtain ⟨_, hids, hsame⟩ := Model.load_spec hmodel
    exact ⟨⟨hshaped.objective, hshaped.model.of_sameForm hids hsame.2, hshaped.moments⟩,
      hsame.trans hform⟩
  setOptimizerState := by
    rintro learner state learner' ⟨hshaped, hform⟩ hset
    obtain ⟨_, hstate, rfl⟩ := of_setOptimizerState hset
    exact ⟨⟨hshaped.objective, hshaped.model,
      Adam.shaped_of_setState hshaped.model hshaped.moments hstate⟩, hform⟩

end Learner

end PolicyGradient
