import PolicyGradient.Proofs.Resume

/-!
Restoring an optimizer's own state.

A state shows the moments of every parameter and one step for all of them, so a restore makes the
step the time of every parameter.  No later update can tell the difference as long as it reaches
only parameters whose time is the step already (`transparent_of_onTime`).  A parameter that has
missed an update lags behind the step, and the restore changes how it moves
(`Lagging.not_transparent_lagging`).
-/

namespace PolicyGradient

open Outcome

variable {α : Type}

namespace Gradients

/-- The gradients reach no parameters but those with an identity in `S`. -/
def Within (gradients : Gradients α) (model : Model α) (S : Nat → Prop) : Prop :=
  ∀ row ∈ Adam.assigned model.layers gradients, ∀ x ∈ row, x.2 ≠ none → S x.1.id

/-- The gradients reach the parameters with this identity. -/
def Reach (gradients : Gradients α) (model : Model α) (id : Nat) : Prop :=
  ∀ row ∈ Adam.assigned model.layers gradients, ∀ x ∈ row, x.1.id = id → x.2 ≠ none

/-- Models with the same identities and forms get the same gradients for the same parameters. -/
theorem exists_assigned {model other : Model α} (hids : other.identities = model.identities)
    (hform : other.form = model.form) (gradients : Gradients α)
    {row' : List (Param α × Option (ParamBlock α))}
    (hrow : row' ∈ Adam.assigned other.layers gradients) {y : Param α × Option (ParamBlock α)}
    (hy : y ∈ row') :
    ∃ row ∈ Adam.assigned model.layers gradients, ∃ x ∈ row,
      (x.1.id, x.1.form) = (y.1.id, y.1.form) ∧ x.2 = y.2 := by
  have hparams := map_map_eq_iff_forall₂.mp (Model.map_id_form_eq hids hform).symm
  obtain ⟨row, hmem, hsame⟩ :=
    exists_of_forall₂ (Adam.assigned_counterparts hparams gradients) hrow
  obtain ⟨x, hx, hxy⟩ := exists_of_forall₂ hsame hy
  exact ⟨row, hmem, x, hx, hxy⟩

section

variable {gradients : Gradients α} {model other : Model α}

theorem Fit.of_sameForm (h : gradients.Fit model) (hids : other.identities = model.identities)
    (hform : other.form = model.form) : gradients.Fit other := by
  intro row hrow y hy gradient hgradient
  obtain ⟨row', hrow', x, hx, hsame, hassigned⟩ := exists_assigned hids hform gradients hrow hy
  have hshape : x.1.block.shape = y.1.block.shape :=
    congrArg Prod.snd (congrArg Prod.snd hsame)
  rw [← hshape]
  exact h row' hrow' x hx gradient (hassigned.trans hgradient)

theorem Within.of_sameForm {S : Nat → Prop} (h : gradients.Within model S)
    (hids : other.identities = model.identities) (hform : other.form = model.form) :
    gradients.Within other S := by
  intro row hrow y hy hreached
  obtain ⟨row', hrow', x, hx, hsame, hassigned⟩ := exists_assigned hids hform gradients hrow hy
  have hid : x.1.id = y.1.id := congrArg Prod.fst hsame
  rw [← hid]
  exact h row' hrow' x hx (hassigned ▸ hreached)

end

end Gradients

namespace Adam

variable [Scalar α]

/-- Updates one after the other, each with a rate and gradients of its own. -/
def updates (adam : Adam α) (model : Model α) :
    List (α × Gradients α) → Outcome (Adam α × Model α)
  | [] => .ok (adam, model)
  | (lr, gradients) :: later => do
      let (adam, model) ← adam.update lr model gradients
      adam.updates model later

/-- Optimizers and their models after any updates, restored states and loaded weights. -/
inductive Reached : Adam α → Model α → Prop
  | fresh (settings : Settings α) {model : Model α} (hids : model.DistinctIds) :
      Reached (.ofSettings settings) model
  | update {adam adam' : Adam α} {model model' : Model α} {lr : α} {gradients : Gradients α}
      (h : Reached adam model) (hfit : gradients.Fit model)
      (hupdate : adam.update lr model gradients = .ok (adam', model')) : Reached adam' model'
  | setState {adam adam' : Adam α} {model : Model α} {state : OptimizerState α}
      (h : Reached adam model) (hset : adam.setState model state = .ok adam') :
      Reached adam' model
  | load {adam : Adam α} {model loaded : Model α} {weights : ModelWeights α}
      (h : Reached adam model) (hload : model.load weights = .ok loaded) : Reached adam loaded

theorem Reached.fits {adam : Adam α} {model : Model α} (h : Reached adam model) :
    model.DistinctIds ∧ adam.Fits model := by
  induction h with
  | fresh settings hids => exact ⟨hids, Learner.fits_of_unused ⟨rfl, rfl⟩⟩
  | update _ hfit hupdate ih =>
      obtain ⟨hids, hfits⟩ := ih
      refine ⟨?_, (update_fits hids hfit hfits hupdate).2⟩
      rw [Model.DistinctIds, identities_of_update hids hupdate]
      exact hids
  | setState _ hset ih => exact ⟨ih.1, fits_of_setState ih.1 hset⟩
  | load _ hload ih =>
      refine ⟨?_, ih.2.of_load hload⟩
      rw [Model.DistinctIds, (Model.load_spec hload).2.1]
      exact ih.1

/-- The time of a parameter is the step; one without moments counts as updated at step 0. -/
def OnTime (adam : Adam α) (id : Nat) : Prop :=
  (∃ moments, adam.records.find? id = some moments ∧ moments.time = adam.step) ∨
    adam.records.find? id = none ∧ adam.step = 0 ∧ adam.settings.StartsAtZero

section

variable {settings : Settings α} {lr : α} {param param' : Param α}

/-- Without new moments there has been no update. -/
theorem eq_of_updateOne_none {moments : Option (Moments α)} {gradient : Option (ParamBlock α)}
    (h : updateOne settings lr moments param gradient = .ok (param', none)) : param' = param := by
  cases gradient with
  | none =>
      cases h
      rfl
  | some gradient =>
      simp only [updateOne, bind_eq_ok] at h
      obtain ⟨_, _, _, _, _, _, hupdated⟩ := h
      cases hupdated

/-- Moments that match give the same update, and without a gradient all moments do. -/
theorem updateOne_of_matched {first second : Option (Moments α)}
    {gradient : Option (ParamBlock α)}
    (hfit : ∀ g, gradient = some g → g.Fits param.block.shape)
    (hmatched : gradient ≠ none → Matched settings param.block.shape first second) :
    updateOne settings lr first param gradient = updateOne settings lr second param gradient := by
  cases gradient with
  | none => rfl
  | some gradient =>
      simp only [updateOne]
      cases hused : effective settings param gradient with
      | error e => rfl
      | ok used =>
          have hfits := effective_fits (hfit gradient rfl) hused
          have hadvance := advance_matched hfits (hmatched (Option.some_ne_none gradient))
          show (advance settings used first >>= _) = (advance settings used second >>= _)
          rw [hadvance]

end

omit [Scalar α] in
/-- A slot depends on the parameter's own record. -/
theorem slot_of_find?_eq [Zero α] (part : Moments α → ParamBlock α) {records records' : Records α}
    {param : Param α} (h : records.find? param.id = records'.find? param.id) :
    slot part records param = slot part records' param := by
  rw [slot, slot, slotValues, slotValues, h]

/-- Both show the same for every parameter of the model, and to an update of a parameter in `S`
their moments look the same. -/
structure SameFor (S : Nat → Prop) (adam adam' : Adam α) (model : Model α) : Prop where
  settings : adam.settings = adam'.settings
  step : adam.step = adam'.step
  otherGroups : adam.otherGroups = adam'.otherGroups
  shown : ∀ params ∈ model.layers, ∀ param ∈ params,
    slot Moments.first adam.records param = slot Moments.first adam'.records param ∧
      slot Moments.second adam.records param = slot Moments.second adam'.records param
  matched : ∀ params ∈ model.layers, ∀ param ∈ params, S param.id →
    Matched adam.settings param.block.shape (adam.records.find? param.id)
      (adam'.records.find? param.id)

section

variable {S : Nat → Prop} {adam adam' : Adam α} {model : Model α}

theorem SameFor.state (h : SameFor S adam adam' model) : adam.state model = adam'.state model := by
  have hgroup : model.layers.map (slotsOf adam.records) =
      model.layers.map (slotsOf adam'.records) := by
    refine List.map_congr_left fun params hparams => congrArg LayerWeights.mk ?_
    rw [List.map_congr_left fun param hparam => (h.shown params hparams param hparam).1,
      List.map_congr_left fun param hparam => (h.shown params hparams param hparam).2]
  rw [Adam.state, Adam.state, hgroup, h.otherGroups, h.step]

/-- An update that reaches only parameters in `S` goes the same way for both. -/
theorem SameFor.update (h : SameFor S adam adam' model) (hids : model.DistinctIds)
    {gradients : Gradients α} (hfit : gradients.Fit model) (hwithin : gradients.Within model S)
    (lr : α) :
    Agree (fun a b => a.2 = b.2 ∧ SameFor S a.1 b.1 a.2) (adam.update lr model gradients)
      (adam'.update lr model gradients) := by
  have hrows : updateRows adam.settings lr adam'.records (assigned model.layers gradients) =
      updateRows adam.settings lr adam.records (assigned model.layers gradients) := by
    refine mapM_congr fun row hrow => mapM_congr fun x hx => ?_
    obtain ⟨params, hparams, hparam⟩ := mem_layers_of_assigned hrow hx
    refine (updateOne_of_matched (hfit row hrow x hx) fun hreached => ?_).symm
    exact h.matched params hparams x.1 hparam (hwithin row hrow x hx hreached)
  rw [update_eq hids, update_eq hids, ← h.settings, ← h.step, hrows]
  refine (agree_self _).bind ?_
  rintro step _ rfl
  cases hupdated : updateRows adam.settings lr adam.records (assigned model.layers gradients) with
  | error e => exact .error e
  | ok updated =>
      have hnodup : (updated.flatten.map fun x => x.1.id).Nodup := by
        rw [List.map_flatten, map_ids_of_updateRows hupdated]
        exact hids
      -- What is on record afterwards is new in both, or it is what was there before.
      have hfound : ∀ row ∈ updated, ∀ y ∈ row,
          ((store adam.records updated.flatten).find? y.1.id =
            (store adam'.records updated.flatten).find? y.1.id) ∨
          ∃ params ∈ model.layers, y.1 ∈ params ∧
            (store adam.records updated.flatten).find? y.1.id = adam.records.find? y.1.id ∧
            (store adam'.records updated.flatten).find? y.1.id = adam'.records.find? y.1.id := by
        intro row' hrow' y hy
        have hmem : y ∈ updated.flatten := List.mem_flatten.mpr ⟨row', hrow', hy⟩
        rw [find?_store_of_mem hnodup hmem, find?_store_of_mem hnodup hmem]
        obtain ⟨param, moments⟩ := y
        cases moments with
        | some moments => exact Or.inl rfl
        | none =>
            obtain ⟨row, hrow, hupdate⟩ := exists_of_mem_of_mapM hupdated hrow'
            obtain ⟨x, hx, hone⟩ := exists_of_mem_of_mapM hupdate hy
            obtain ⟨params, hparams, hparam⟩ := mem_layers_of_assigned hrow hx
            rw [eq_of_updateOne_none hone]
            exact Or.inr ⟨params, hparams, hparam, rfl, rfl⟩
      refine .ok ⟨rfl, rfl, rfl, h.otherGroups, ?_, ?_⟩
      · intro params hparams param hparam
        obtain ⟨row, hrow, rfl⟩ := List.mem_map.mp hparams
        obtain ⟨y, hy, rfl⟩ := List.mem_map.mp hparam
        rcases hfound row hrow y hy with hsame | ⟨params, hparams, hparam, hown, hown'⟩
        · exact ⟨slot_of_find?_eq _ hsame, slot_of_find?_eq _ hsame⟩
        · rw [slot_of_find?_eq _ hown, slot_of_find?_eq _ hown, slot_of_find?_eq _ hown',
            slot_of_find?_eq _ hown']
          exact h.shown params hparams y.1 hparam
      · intro params hparams param hparam hS
        obtain ⟨row, hrow, rfl⟩ := List.mem_map.mp hparams
        obtain ⟨y, hy, rfl⟩ := List.mem_map.mp hparam
        rcases hfound row hrow y hy with hsame | ⟨params, hparams, hparam, hown, hown'⟩
        · exact Or.inl hsame
        · simp only [hown, hown']
          exact h.matched params hparams y.1 hparam hS

/-- Updates that reach only parameters in `S` go the same way for both. -/
theorem SameFor.updates (h : SameFor S adam adam' model) (hids : model.DistinctIds)
    (hfits : adam.Fits model) {later : List (α × Gradients α)}
    (hfit : ∀ update ∈ later, update.2.Fit model)
    (hwithin : ∀ update ∈ later, update.2.Within model S) :
    Agree (fun a b => a.2 = b.2 ∧ SameFor S a.1 b.1 a.2) (adam.updates model later)
      (adam'.updates model later) := by
  induction later generalizing adam adam' model with
  | nil => exact .ok ⟨rfl, h⟩
  | cons head later ih =>
      obtain ⟨lr, gradients⟩ := head
      have hhead := hfit _ List.mem_cons_self
      refine ((h.update hids hhead (hwithin _ List.mem_cons_self) lr).of_ok
        (fun a b ha _ hab => And.intro ha hab)).bind ?_
      rintro ⟨next, moved⟩ ⟨next', _⟩ ⟨hupdate, rfl, hsame⟩
      obtain ⟨hform, hfits'⟩ := update_fits hids hhead hfits hupdate
      have hidentities := identities_of_update hids hupdate
      have hids' : moved.DistinctIds := by
        rw [Model.DistinctIds, hidentities]
        exact hids
      refine ih hsame hids' hfits' ?_ ?_
      · intro update hupdate
        exact (hfit update (List.mem_cons_of_mem _ hupdate)).of_sameForm hidentities hform.2
      · intro update hupdate
        exact (hwithin update (List.mem_cons_of_mem _ hupdate)).of_sameForm hidentities hform.2

/-- What a restore of the own state leaves: all that is shown, and the moments on record for the
parameters on time. -/
theorem sameFor_of_setState {restored : Adam α} (hids : model.DistinctIds)
    (hfits : adam.Fits model) (h : adam.setState model (adam.state model) = .ok restored) :
    SameFor adam.OnTime adam restored model := by
  have hstate : restored.state model = adam.state model := state_of_setState hids h
  have hslots := (List.cons.inj (congrArg OptimizerState.slots hstate)).1
  have hshown : ∀ params ∈ model.layers, ∀ param ∈ params,
      slot Moments.first adam.records param = slot Moments.first restored.records param ∧
        slot Moments.second adam.records param = slot Moments.second restored.records param := by
    intro params hparams param hparam
    have hrow := congrArg LayerWeights.params (List.map_inj_left.mp hslots params hparams)
    have hlength : (params.map (slot Moments.first restored.records)).length =
        (params.map (slot Moments.first adam.records)).length := by
      rw [List.length_map, List.length_map]
    obtain ⟨hfirst, hsecond⟩ := List.append_inj hrow hlength
    exact ⟨(List.map_inj_left.mp hfirst param hparam).symm,
      (List.map_inj_left.mp hsecond param hparam).symm⟩
  have hothers := (List.cons.inj (congrArg OptimizerState.slots hstate)).2
  have hsettings : adam.settings = restored.settings := by
    obtain ⟨_, _, _, _, rfl⟩ := setState_eq_ok.mp h
    rfl
  refine ⟨hsettings, (congrArg OptimizerState.step hstate).symm, hothers.symm, hshown, ?_⟩
  intro params hparams param hparam honTime
  obtain ⟨moments, hfound, hmoments, htime⟩ := moments_of_setState hids h hparams hparam
  obtain ⟨hfirst, hsecond⟩ := hshown params hparams param hparam
  refine matched_of_slots hfirst hsecond hfound hmoments htime ?_
  rcases honTime with ⟨own, hown, hownTime⟩ | ⟨hnone, hzero, hstart⟩
  · exact Or.inr ⟨own, hown, hfits params hparams param hparam own hown, hownTime⟩
  · exact Or.inl ⟨hnone, hzero, hstart⟩

/-- A restore of the own state keeps the moments that are shown and makes the step their time. -/
theorem find?_of_setState {restored : Adam α} (hids : model.DistinctIds)
    (hfits : adam.Fits model) (h : adam.setState model (adam.state model) = .ok restored)
    {params : List (Param α)} (hparams : params ∈ model.layers) {param : Param α}
    (hparam : param ∈ params) :
    restored.records.find? param.id = some ⟨slot Moments.first adam.records param,
      slot Moments.second adam.records param, adam.step⟩ := by
  obtain ⟨moments, hfound, hmoments, htime⟩ := moments_of_setState hids h hparams hparam
  obtain ⟨hfirst, hsecond⟩ := (sameFor_of_setState hids hfits h).shown params hparams param hparam
  rw [slot_of_find? hfound hmoments.1.1] at hfirst
  rw [slot_of_find? hfound hmoments.2.1] at hsecond
  rw [hfound, hfirst, hsecond]
  exact congrArg some (congrArg (Moments.mk moments.first moments.second) htime)

end

/-- The own state can be restored, which changes nothing that is shown, and no later update can tell
whether it has been: after any number of them the models are the same and so are the states, and
where one fails the other one fails in the same way. -/
def Transparent (adam : Adam α) (model : Model α) (later : List (α × Gradients α)) : Prop :=
  ∃ restored, adam.setState model (adam.state model) = .ok restored ∧
    restored.state model = adam.state model ∧
    ∀ n, Agree (fun a b => a.2 = b.2 ∧ a.1.state a.2 = b.1.state b.2)
      (adam.updates model (later.take n)) (restored.updates model (later.take n))

/-- Updates that reach only parameters on time cannot tell whether the own state has been restored.
In general a restore keeps the moments of every parameter and makes the step their time. -/
theorem transparent_of_onTime {adam : Adam α} {model : Model α} (h : Reached adam model)
    {later : List (α × Gradients α)} (hfit : ∀ update ∈ later, update.2.Fit model)
    (htime : ∀ update ∈ later, update.2.Within model adam.OnTime) :
    adam.Transparent model later ∧
      ∀ restored, adam.setState model (adam.state model) = .ok restored →
        ∀ params ∈ model.layers, ∀ param ∈ params,
          restored.records.find? param.id = some ⟨slot Moments.first adam.records param,
            slot Moments.second adam.records param, adam.step⟩ := by
  obtain ⟨hids, hfits⟩ := h.fits
  refine ⟨?_, fun restored hrestored params hparams param hparam =>
    find?_of_setState hids hfits hrestored hparams hparam⟩
  obtain ⟨restored, hrestored⟩ := exists_setState_iff.mpr (fits_state hfits)
  have hsame := sameFor_of_setState hids hfits hrestored
  refine ⟨restored, hrestored, hsame.state.symm, fun n => ?_⟩
  have hmem : ∀ update ∈ later.take n, update ∈ later := fun _ => List.mem_of_mem_take
  have hagree := hsame.updates hids hfits
    (fun update hupdate => hfit update (hmem update hupdate))
    (fun update hupdate => htime update (hmem update hupdate))
  refine hagree.of_ok fun a b _ _ hab => ⟨hab.1, ?_⟩
  rw [← hab.1]
  exact hab.2.state

/-- A parameter that every update since the first one has reached is on time. -/
theorem onTime_of_update {adam adam' : Adam α} {model model' : Model α} {lr : α}
    {gradients : Gradients α} {id : Nat} (hids : model.DistinctIds)
    (hid : id ∈ model.identities.flatten) (hreach : gradients.Reach model id)
    (hbefore : adam.Unused ∨ adam.OnTime id)
    (h : adam.update lr model gradients = .ok (adam', model')) : adam'.OnTime id := by
  rw [← identities_of_update hids h] at hid
  obtain ⟨ids, hids', hid⟩ := List.mem_flatten.mp hid
  obtain ⟨params, hparams, rfl⟩ := List.mem_map.mp hids'
  obtain ⟨param, hparam, rfl⟩ := List.mem_map.mp hid
  obtain ⟨row, hrow, x, hx, moments, hupdate, hfound⟩ := exists_origin hids h hparams hparam
  have hsame : param.id = x.1.id := id_of_updateOne hupdate
  obtain ⟨gradient, hgradient⟩ :=
    Option.ne_none_iff_exists'.mp (hreach row hrow x hx hsame.symm)
  rw [hgradient] at hupdate
  obtain ⟨m, hm, htime⟩ := time_of_updateOne hupdate
  have hold : ((adam.records.find? x.1.id).map Moments.time).getD 0 = adam.step := by
    rw [← hsame]
    rcases hbefore with ⟨hrecords, hzero⟩ | ⟨own, hown, hownTime⟩ | ⟨hnone, hzero, _⟩
    · rw [hrecords, hzero]
      rfl
    · rw [hown, Option.map_some, Option.getD_some, hownTime]
    · rw [hnone, hzero]
      rfl
  simp only at hm
  refine Or.inl ⟨m, by rw [hfound, hm, Option.some_or], ?_⟩
  rw [htime, hold, step_of_update h]

namespace Lagging

/-- A weight and a bias, both zero. -/
def start : Model Float32 where
  architecture := Perceptron.architecture
  layers := [[⟨0, true, ⟨[1, 1], #[0]⟩, rfl, rfl⟩, ⟨1, true, ⟨[1], #[0]⟩, rfl, rfl⟩]]

/-- Both decays are one half. -/
def halves : Settings Float32 := ⟨0.5, 0.5, 0, 0, none⟩

/-- A gradient for the weight and, if it is reached, one for the bias. -/
def slope (bias : Bool) : Gradients Float32 :=
  [[some ⟨[1, 1], #[1]⟩, if bias then some ⟨[1], #[1]⟩ else none]]

/-- After an update that has reached the weight alone. -/
def once : Outcome (Adam Float32 × Model Float32) :=
  (ofSettings halves).update 0.5 start (slope false)

theorem start_distinctIds : start.DistinctIds := by
  have hids : [0, 1].Nodup := by decide
  exact hids

theorem slope_fit (bias : Bool) : (slope bias).Fit start := by
  intro row hrow x hx gradient hgradient
  cases List.mem_singleton.mp hrow
  rcases List.mem_cons.mp hx with rfl | hx
  · cases hgradient
    exact ⟨rfl, rfl⟩
  · cases List.mem_singleton.mp hx
    cases bias with
    | false => cases hgradient
    | true =>
        cases hgradient
        exact ⟨rfl, rfl⟩

theorem exists_once : ∃ adam model, once = .ok (adam, model) ∧ Reached adam model ∧
    adam.OnTime 0 ∧ model.identities = start.identities ∧ model.form = start.form := by
  have hok : once.isOk = true := by decide +kernel
  cases honce : once with
  | error e => simp [honce, Except.isOk, Except.toBool] at hok
  | ok updated =>
      obtain ⟨adam, model⟩ := updated
      have hfresh : Reached (ofSettings halves) start := .fresh halves start_distinctIds
      have hform := update_fits start_distinctIds (slope_fit false) hfresh.fits.2 honce
      refine ⟨adam, model, rfl, hfresh.update (slope_fit false) honce, ?_,
        identities_of_update start_distinctIds honce, hform.1.2⟩
      refine onTime_of_update start_distinctIds (by decide) ?_ (Or.inl ⟨rfl, rfl⟩) honce
      intro row hrow x hx hid
      cases List.mem_singleton.mp hrow
      rcases List.mem_cons.mp hx with rfl | hx
      · exact Option.some_ne_none _
      · cases List.mem_singleton.mp hx
        cases hid

/-- Updates of the weight, which is on time, cannot tell that the state has been restored. -/
theorem transparent_once : ∃ adam model, once = .ok (adam, model) ∧
    adam.Transparent model [(0.5, slope false), (0.25, slope false)] := by
  obtain ⟨adam, model, honce, hreached, htime, hids, hform⟩ := exists_once
  have hwithin : (slope false).Within start adam.OnTime := by
    intro row hrow x hx hgradient
    cases List.mem_singleton.mp hrow
    rcases List.mem_cons.mp hx with rfl | hx
    · exact htime
    · cases List.mem_singleton.mp hx
      exact absurd rfl hgradient
  refine ⟨adam, model, honce, (transparent_of_onTime hreached ?_ ?_).1⟩
  · simpa using (slope_fit false).of_sameForm hids hform
  · simpa using hwithin.of_sameForm hids hform

/-- The values of all weights. -/
def values (model : Model Float32) : List (List (Array Float32)) :=
  model.weights.layers.map fun layer => layer.params.map ParamBlock.values

/-- The values after an update of both parameters, with the state restored before it or not. -/
def valuesAfter (restore : Bool) : Outcome (List (List (Array Float32))) := do
  let (adam, model) ← once
  let adam ← if restore then adam.setState model (adam.state model) else pure adam
  let updated ← adam.updates model [(0.5, slope true)]
  return values updated.2

/-- An update of the bias, which lags behind, can tell that the state has been restored. -/
theorem not_transparent_lagging : ∃ adam model, Reached adam model ∧ (slope true).Fit model ∧
    ¬ adam.Transparent model [(0.5, slope true)] := by
  obtain ⟨adam, model, honce, hreached, _, hids, hform⟩ := exists_once
  refine ⟨adam, model, hreached, (slope_fit true).of_sameForm hids hform, ?_⟩
  rintro ⟨restored, hrestored, _, hagree⟩
  have hdiffer : valuesAfter false ≠ valuesAfter true := by decide +kernel
  apply hdiffer
  have hplain : valuesAfter false =
      adam.updates model [(0.5, slope true)] >>= fun updated => pure (values updated.2) := by
    rw [valuesAfter, honce]
    rfl
  have hrestore : valuesAfter true =
      restored.updates model [(0.5, slope true)] >>= fun updated => pure (values updated.2) := by
    rw [valuesAfter, honce]
    show adam.setState model (adam.state model) >>= _ = _
    rw [hrestored]
    rfl
  have hlast := (hagree 1).bind fun a b hab => Agree.ok (congrArg values hab.1)
  rw [hplain, hrestore]
  exact hlast.eq

end Lagging

end Adam

end PolicyGradient
