import PolicyGradient.Proofs.Update

/-!
What Adam updates keep.

With gradients in the shapes of their parameters, moments stay in those shapes and the model keeps
its form (`update_fits`).  If every parameter has a gradient, each parameter's time is the
optimizer's step from the first update on (`update_inStep`).
-/

namespace PolicyGradient

open Outcome

variable {α : Type}

/-- Each gradient has the shape of its parameter and is filled. -/
def Gradients.Fit (gradients : Gradients α) (model : Model α) : Prop :=
  ∀ row ∈ Adam.assigned model.layers gradients, ∀ x ∈ row, ∀ gradient,
    x.2 = some gradient → gradient.Fits x.1.block.shape

/-- Every parameter has a gradient. -/
def Gradients.Complete (gradients : Gradients α) (model : Model α) : Prop :=
  ∀ row ∈ Adam.assigned model.layers gradients, ∀ x ∈ row, x.2 ≠ none

namespace Adam

/-- Nothing has been updated or restored. -/
def Unused (adam : Adam α) : Prop :=
  adam.records = [] ∧ adam.step = 0

/-- Every parameter of the model has moments whose time is the optimizer's step. -/
def InStep (adam : Adam α) (model : Model α) : Prop :=
  ∀ params ∈ model.layers, ∀ param ∈ params, ∃ moments,
    adam.records.find? param.id = some moments ∧ moments.time = adam.step

/-- Both means have this shape. -/
def Moments.HasShape (moments : Moments α) (shape : List Nat) : Prop :=
  moments.first.shape = shape ∧ moments.second.shape = shape

theorem Moments.Fits.hasShape {moments : Moments α} {shape : List Nat} (h : moments.Fits shape) :
    moments.HasShape shape :=
  ⟨h.1.1, h.2.1⟩

variable [Scalar α] {settings : Settings α} {lr : α} {param : Param α}

theorem effective_fits {gradient used : ParamBlock α}
    (hgradient : gradient.Fits param.block.shape)
    (h : effective settings param gradient = .ok used) : used.Fits param.block.shape := by
  have hclip : (clip settings gradient).Fits param.block.shape := by
    unfold clip
    split
    · exact hgradient
    · exact hgradient.map _
  unfold effective at h
  split at h
  · exact hclip.zipWith rfl h
  · cases h
    exact hclip

theorem advance_fits {gradient : ParamBlock α} {moments : Option (Moments α)}
    {moments' : Moments α} {shape : List Nat} (hgradient : gradient.Fits shape)
    (hmoments : ∀ m, moments = some m → m.Fits shape)
    (h : advance settings gradient moments = .ok moments') : moments'.Fits shape := by
  cases moments with
  | none =>
      cases h
      exact ⟨hgradient.map _, hgradient.map _⟩
  | some m =>
      simp only [advance, bind_eq_ok] at h
      obtain ⟨first, hfirst, second, hsecond, hmoments'⟩ := h
      cases hmoments'
      obtain ⟨hm, hv⟩ := hmoments m rfl
      exact ⟨hm.zipWith hgradient.1 hfirst, hv.zipWith hgradient.1 hsecond⟩

theorem time_of_advance {gradient : ParamBlock α} {moments : Option (Moments α)}
    {moments' : Moments α} (h : advance settings gradient moments = .ok moments') :
    moments'.time = (moments.map Moments.time).getD 0 + 1 := by
  cases moments with
  | none =>
      cases h
      rfl
  | some m =>
      simp only [advance, bind_eq_ok] at h
      obtain ⟨first, _, second, _, hmoments'⟩ := h
      cases hmoments'
      rfl

theorem shape_of_direction {moments : Moments α} {shape : List Nat} {block : ParamBlock α}
    (hmoments : moments.HasShape shape) (h : direction settings moments = .ok block) :
    block.shape = shape := by
  have hsame : moments.first.shape = moments.second.shape := hmoments.1.trans hmoments.2.symm
  unfold direction at h
  exact (ParamBlock.shape_of_zipWith (by exact hsame) h).trans hmoments.1

theorem form_of_move {moments : Moments α} {param' : Param α}
    (hmoments : moments.HasShape param.block.shape)
    (h : move settings lr moments param = .ok param') : param'.form = param.form := by
  simp only [move, bind_eq_ok] at h
  obtain ⟨along, halong, block, hblock, hreplace⟩ := h
  obtain ⟨_, htracked, hsame⟩ := Param.of_replace hreplace
  have hshape : block.shape = param.block.shape :=
    ParamBlock.shape_of_zipWith (shape_of_direction hmoments halong).symm hblock
  rw [Param.form, htracked, hsame, hshape, Param.form]

/-- An update keeps a parameter's form, and leaves moments of its shape. -/
theorem updateOne_fits {moments : Option (Moments α)} {gradient : Option (ParamBlock α)}
    {updated : Param α × Option (Moments α)}
    (hgradient : ∀ g, gradient = some g → g.Fits param.block.shape)
    (hmoments : ∀ m, moments = some m → m.Fits param.block.shape)
    (h : updateOne settings lr moments param gradient = .ok updated) :
    updated.1.form = param.form ∧
      ∀ m, updated.2.or moments = some m → m.Fits param.block.shape := by
  cases gradient with
  | none =>
      cases h
      exact ⟨rfl, by simpa using hmoments⟩
  | some gradient =>
      simp only [updateOne, bind_eq_ok] at h
      obtain ⟨used, hused, moments', hadvance, param', hmove, hupdated⟩ := h
      cases hupdated
      have hfits := advance_fits (effective_fits (hgradient gradient rfl) hused) hmoments hadvance
      refine ⟨form_of_move hfits.hasShape hmove, ?_⟩
      rintro m ⟨⟩
      exact hfits

theorem time_of_updateOne {moments : Option (Moments α)} {gradient : ParamBlock α}
    {updated : Param α × Option (Moments α)}
    (h : updateOne settings lr moments param (some gradient) = .ok updated) :
    ∃ m, updated.2 = some m ∧ m.time = (moments.map Moments.time).getD 0 + 1 := by
  simp only [updateOne, bind_eq_ok] at h
  obtain ⟨_, _, moments', hadvance, _, _, hupdated⟩ := h
  cases hupdated
  exact ⟨moments', rfl, time_of_advance hadvance⟩

/-- One update of a model with distinct identities, each parameter's from its own record. -/
theorem update_eq {adam : Adam α} {model : Model α} (hids : model.DistinctIds) (lr : α)
    (gradients : Gradients α) :
    adam.update lr model gradients = do
      let step ← Size.add adam.step 1
      let updated ← updateRows adam.settings lr adam.records (assigned model.layers gradients)
      return ({ adam with records := store adam.records updated.flatten, step := step },
        { model with layers := updated.map (List.map Prod.fst) }) := by
  unfold update
  rw [updateLayers_eq hids]
  simp only [bind_assoc, pure_bind]

section

variable {adam adam' : Adam α} {model model' : Model α} {gradients : Gradients α}

/-- What an update changes: the records, the step and the parameters. -/
theorem of_update (hids : model.DistinctIds)
    (h : adam.update lr model gradients = .ok (adam', model')) :
    ∃ updated, updateRows adam.settings lr adam.records (assigned model.layers gradients) =
        .ok updated ∧
      adam' = { adam with
        records := store adam.records updated.flatten, step := adam.step + 1 } ∧
      model' = { model with layers := updated.map (List.map Prod.fst) } := by
  rw [update_eq hids] at h
  simp only [bind_eq_ok] at h
  obtain ⟨step, hstep, updated, hupdated, heq⟩ := h
  cases heq
  exact ⟨updated, hupdated, by rw [(Size.add_eq_ok.mp hstep).2], rfl⟩

theorem step_of_update (h : adam.update lr model gradients = .ok (adam', model')) :
    adam'.step = adam.step + 1 := by
  unfold update at h
  simp only [bind_eq_ok] at h
  obtain ⟨step, hstep, _, _, heq⟩ := h
  cases heq
  exact (Size.add_eq_ok.mp hstep).2

theorem map_ids_of_updateRows {layers : List (List (Param α))} {records : Records α}
    {updated : List (List (Param α × Option (Moments α)))}
    (h : updateRows settings lr records (assigned layers gradients) = .ok updated) :
    (updated.map (List.map fun x => x.1.id)) = layers.map (List.map Param.id) := by
  rw [← map_assigned Param.id layers gradients]
  exact map_eq_of_mapM h fun row _ row' hrow => ids_of_updateRow hrow

theorem identities_of_update (hids : model.DistinctIds)
    (h : adam.update lr model gradients = .ok (adam', model')) :
    model'.identities = model.identities := by
  obtain ⟨updated, hupdated, _, rfl⟩ := of_update hids h
  rw [Model.identities, Model.identities, ← map_ids_of_updateRows hupdated]
  simp [Function.comp_def]

/-- Where a parameter of an updated model comes from, and what is on record for it. -/
theorem exists_origin (hids : model.DistinctIds)
    (h : adam.update lr model gradients = .ok (adam', model')) {params : List (Param α)}
    (hparams : params ∈ model'.layers) {param' : Param α} (hparam : param' ∈ params) :
    ∃ row ∈ assigned model.layers gradients, ∃ x ∈ row, ∃ moments,
      updateOne adam.settings lr (adam.records.find? x.1.id) x.1 x.2 = .ok (param', moments) ∧
      adam'.records.find? param'.id = moments.or (adam.records.find? x.1.id) := by
  obtain ⟨updated, hupdated, rfl, rfl⟩ := of_update hids h
  obtain ⟨row', hrow', rfl⟩ := List.mem_map.mp hparams
  obtain ⟨y, hy, rfl⟩ := List.mem_map.mp hparam
  obtain ⟨row, hrow, hupdate⟩ := exists_of_mem_of_mapM hupdated hrow'
  obtain ⟨x, hx, hone⟩ := exists_of_mem_of_mapM hupdate hy
  have hnodup : (updated.flatten.map fun x => x.1.id).Nodup := by
    rw [List.map_flatten, map_ids_of_updateRows hupdated]
    exact hids
  refine ⟨row, hrow, x, hx, y.2, hone, ?_⟩
  have hid : y.1.id = x.1.id := id_of_updateOne hone
  rw [find?_store_of_mem hnodup (List.mem_flatten.mpr ⟨row', hrow', hy⟩), hid]

omit [Scalar α] in
theorem mem_layers_of_assigned {row : List (Param α × Option (ParamBlock α))}
    (hrow : row ∈ assigned model.layers gradients) {x : Param α × Option (ParamBlock α)}
    (hx : x ∈ row) : ∃ params ∈ model.layers, x.1 ∈ params := by
  refine ⟨row.map Prod.fst, ?_, List.mem_map_of_mem hx⟩
  have hlayers := map_assigned id model.layers gradients
  rw [List.map_id_fun, List.map_id_fun, id] at hlayers
  rw [← hlayers]
  exact List.mem_map_of_mem hrow

/-- With gradients in the parameters' shapes an update keeps the form of the model, and leaves
every parameter moments of its shape. -/
theorem update_fits (hids : model.DistinctIds) (hgradients : gradients.Fit model)
    (hfits : adam.Fits model) (h : adam.update lr model gradients = .ok (adam', model')) :
    model'.SameForm model ∧ adam'.Fits model' := by
  have hone : ∀ row ∈ assigned model.layers gradients, ∀ x ∈ row, ∀ y,
      updateOne adam.settings lr (adam.records.find? x.1.id) x.1 x.2 = .ok y →
        y.1.form = x.1.form ∧
          ∀ m, y.2.or (adam.records.find? x.1.id) = some m → m.Fits x.1.block.shape := by
    intro row hrow x hx y hy
    obtain ⟨params, hparams, hparam⟩ := mem_layers_of_assigned hrow hx
    exact updateOne_fits (hgradients row hrow x hx) (hfits params hparams x.1 hparam) hy
  constructor
  · obtain ⟨updated, hupdated, _, rfl⟩ := of_update hids h
    refine ⟨rfl, ?_⟩
    rw [Model.form, Model.form, ← map_assigned Param.form model.layers gradients, List.map_map]
    refine map_eq_of_mapM hupdated fun row hrow row' hrow' => ?_
    rw [Function.comp_apply, List.map_map]
    exact map_eq_of_mapM hrow' fun x hx y hy => (hone row hrow x hx y hy).1
  · intro params hparams param hparam m hm
    obtain ⟨row, hrow, x, hx, moments, hupdate, hfound⟩ := exists_origin hids h hparams hparam
    obtain ⟨hform, hmoments⟩ := hone row hrow x hx _ hupdate
    have hshape : param.block.shape = x.1.block.shape := congrArg Prod.snd hform
    rw [hfound] at hm
    rw [hshape]
    exact hmoments m hm

/-- From the first update with all gradients on, every parameter's time is the step. -/
theorem update_inStep (hids : model.DistinctIds) (hcomplete : gradients.Complete model)
    (hstep : adam.Unused ∨ adam.InStep model)
    (h : adam.update lr model gradients = .ok (adam', model')) : adam'.InStep model' := by
  intro params hparams param hparam
  obtain ⟨row, hrow, x, hx, moments, hupdate, hfound⟩ := exists_origin hids h hparams hparam
  obtain ⟨gradient, hgradient⟩ := Option.ne_none_iff_exists'.mp (hcomplete row hrow x hx)
  rw [hgradient] at hupdate
  obtain ⟨m, hm, htime⟩ := time_of_updateOne hupdate
  have hold : ((adam.records.find? x.1.id).map Moments.time).getD 0 = adam.step := by
    rcases hstep with ⟨hrecords, hzero⟩ | hinStep
    · rw [hrecords, hzero]
      rfl
    · obtain ⟨params', hparams', hparam'⟩ := mem_layers_of_assigned hrow hx
      obtain ⟨old, hold, htime⟩ := hinStep params' hparams' x.1 hparam'
      rw [hold, Option.map_some, Option.getD_some, htime]
  obtain ⟨updated, _, rfl, _⟩ := of_update hids h
  simp only at hm
  refine ⟨m, by rw [hfound, hm, Option.some_or], ?_⟩
  rw [htime, hold]

end

end Adam

end PolicyGradient
