import PolicyGradient.Proofs.Moments

/-!
Optimizers in the same position.

`Alike` relates two models with their optimizers that differ in the identities of the parameters,
and in nothing that an update can see: a parameter without moments may stand against one with zero
moments of time zero.  Updates by the same gradients agree and leave models alike (`Alike.update`).
-/

namespace PolicyGradient.Adam

open Outcome

variable {α : Type}

/-- The moments that a parameter starts with. -/
def Moments.zero [Zero α] (shape : List Nat) : Moments α :=
  let zeros : ParamBlock α := ⟨shape, Array.replicate (Size.volume shape) 0⟩
  ⟨zeros, zeros, 0⟩

variable [Scalar α]

/-- A mean that starts at zero has the first gradient's share as its first value, as if there had
been no mean. -/
def Settings.StartsAtZero (settings : Settings α) : Prop :=
  ∀ x : α, settings.beta1 * 0 + x = x ∧ settings.beta2 * 0 + x = x

/-- Moments of parameters with a shape that updates treat alike. -/
def Matched (settings : Settings α) (shape : List Nat) (first second : Option (Moments α)) : Prop :=
  first = second ∨ first = none ∧ second = some (.zero shape) ∧ settings.StartsAtZero

variable {settings : Settings α} {lr : α} {param other : Param α}

/-- A block combined with zeros. -/
theorem zipWith_zeros {f : α → α → α} {g : α → α} {block : ParamBlock α} {shape : List Nat}
    (hblock : block.Fits shape) (hf : ∀ x, f 0 x = g x) :
    (⟨shape, Array.replicate (Size.volume shape) 0⟩ : ParamBlock α).zipWith f block =
      .ok (block.map g) := by
  obtain ⟨hshape, hfilled⟩ := hblock
  rw [ParamBlock.zipWith_of_shape_eq f hshape.symm, ParamBlock.map, hshape]
  congr 2
  apply Array.ext
  · rw [Array.size_ofFn, Array.size_map, hfilled, hshape]
  · intro i hi hi'
    rw [Array.size_ofFn] at hi
    rw [Array.size_map] at hi'
    simp [Array.getD, hi', hf]

theorem advance_zero {gradient : ParamBlock α} {shape : List Nat}
    (hstart : settings.StartsAtZero) (hgradient : gradient.Fits shape) :
    advance settings gradient (some (.zero shape)) = advance settings gradient none := by
  have hfirst := zipWith_zeros (f := fun m g => settings.beta1 * m + (1 - settings.beta1) * g)
    hgradient fun x => (hstart _).1
  have hsecond := zipWith_zeros
    (f := fun v g => settings.beta2 * v + (1 - settings.beta2) * (g * g))
    hgradient fun x => (hstart _).2
  simp only [advance, Moments.zero, hfirst, hsecond]
  rfl

theorem advance_matched {gradient : ParamBlock α} {shape : List Nat}
    {first second : Option (Moments α)} (hgradient : gradient.Fits shape)
    (h : Matched settings shape first second) :
    advance settings gradient first = advance settings gradient second := by
  rcases h with rfl | ⟨rfl, rfl, hstart⟩
  · rfl
  · exact (advance_zero hstart hgradient).symm

theorem move_agree (moments : Moments α) (htracked : param.tracked = other.tracked)
    (hblock : param.block = other.block) :
    Agree (fun p q => p.tracked = q.tracked ∧ p.block = q.block)
      (move settings lr moments param) (move settings lr moments other) := by
  unfold move
  refine (agree_self _).bind ?_
  rintro along _ rfl
  rw [hblock]
  refine (agree_self _).bind ?_
  rintro block _ rfl
  unfold Param.replace
  split
  · exact .ok ⟨htracked, rfl⟩
  · exact .error _

/-- Two updated parameters that differ in their identities alone, with moments that match. -/
def SameUpdate (settings : Settings α) (first second : Option (Moments α))
    (x y : Param α × Option (Moments α)) : Prop :=
  x.1.tracked = y.1.tracked ∧ x.1.block = y.1.block ∧
    Matched settings x.1.block.shape (x.2.or first) (y.2.or second)

theorem updateOne_agree {first second : Option (Moments α)} {gradient : Option (ParamBlock α)}
    (hgradient : ∀ g, gradient = some g → g.Fits param.block.shape)
    (htracked : param.tracked = other.tracked) (hblock : param.block = other.block)
    (hmoments : Matched settings param.block.shape first second) :
    Agree (SameUpdate settings first second) (updateOne settings lr first param gradient)
      (updateOne settings lr second other gradient) := by
  cases gradient with
  | none => exact .ok ⟨htracked, hblock, hmoments⟩
  | some gradient =>
      have hsame : effective settings other gradient = effective settings param gradient := by
        rw [effective, effective, hblock]
      simp only [updateOne, hsame]
      cases hused : effective settings param gradient with
      | error e => exact .error e
      | ok used =>
          have hfits := effective_fits (hgradient gradient rfl) hused
          show Agree _ (advance settings used first >>= _) (advance settings used second >>= _)
          rw [advance_matched hfits hmoments]
          refine (agree_self _).bind ?_
          rintro moments _ rfl
          refine (move_agree moments htracked hblock).bind ?_
          rintro p q ⟨htracked', hblock'⟩
          exact .ok ⟨htracked', hblock', Or.inl rfl⟩

/-- Parameters in the same place of two models that an update cannot tell apart. -/
def Counterparts (settings : Settings α) (records records' : Records α)
    (param other : Param α) : Prop :=
  param.tracked = other.tracked ∧ param.block = other.block ∧
    Matched settings param.block.shape (records.find? param.id) (records'.find? other.id)

/-- Optimizers and models that differ in identities, and in nothing that an update can see. -/
structure Alike (adam adam' : Adam α) (model model' : Model α) : Prop where
  settings : adam.settings = adam'.settings
  step : adam.step = adam'.step
  otherGroups : adam.otherGroups = adam'.otherGroups
  architecture : model.architecture = model'.architecture
  params : List.Forall₂
    (List.Forall₂ (Counterparts adam.settings adam.records adam'.records))
    model.layers model'.layers

omit [Scalar α] in
theorem assignedRow_counterparts {R : Param α → Param α → Prop} {params others : List (Param α)}
    (h : List.Forall₂ R params others) (gradients : List (Option (ParamBlock α))) :
    List.Forall₂ (fun x y => R x.1 y.1 ∧ x.2 = y.2) (assignedRow params gradients)
      (assignedRow others gradients) := by
  induction h generalizing gradients with
  | nil => exact .nil
  | cons hhead _ ih => exact .cons ⟨hhead, rfl⟩ (ih gradients.tail)

omit [Scalar α] in
theorem assigned_counterparts {R : Param α → Param α → Prop}
    {layers others : List (List (Param α))} (h : List.Forall₂ (List.Forall₂ R) layers others)
    (gradients : Gradients α) :
    List.Forall₂ (List.Forall₂ fun x y => R x.1 y.1 ∧ x.2 = y.2) (assigned layers gradients)
      (assigned others gradients) := by
  induction h generalizing gradients with
  | nil => exact .nil
  | cons hhead _ ih => exact .cons (assignedRow_counterparts hhead _) (ih gradients.tail)

section

variable {records records' : Records α}

theorem updateRow_agree (lr : α) {row row' : List (Param α × Option (ParamBlock α))}
    (hfit : ∀ x ∈ row, ∀ gradient, x.2 = some gradient → gradient.Fits x.1.block.shape)
    (h : List.Forall₂
      (fun x y => Counterparts settings records records' x.1 y.1 ∧ x.2 = y.2) row row') :
    Agree (List.Forall₂ fun a b =>
        SameUpdate settings (records.find? a.1.id) (records'.find? b.1.id) a b)
      (updateRow settings lr records row) (updateRow settings lr records' row') := by
  refine Agree.mapM ((List.forall₂_and_left _ _).mpr ⟨hfit, h⟩) ?_
  rintro ⟨param, gradient⟩ ⟨other, _⟩ ⟨hgradient, ⟨htracked, hblock, hmoments⟩, rfl⟩
  refine (updateOne_agree hgradient htracked hblock hmoments).of_ok fun a b ha hb hab => ?_
  rw [id_of_updateOne ha, id_of_updateOne hb]
  exact hab

theorem updateRows_agree (lr : α) {rows rows' : List (List (Param α × Option (ParamBlock α)))}
    (hfit : ∀ row ∈ rows, ∀ x ∈ row, ∀ gradient,
      x.2 = some gradient → gradient.Fits x.1.block.shape)
    (h : List.Forall₂ (List.Forall₂
      fun x y => Counterparts settings records records' x.1 y.1 ∧ x.2 = y.2) rows rows') :
    Agree (List.Forall₂ (List.Forall₂ fun a b =>
        SameUpdate settings (records.find? a.1.id) (records'.find? b.1.id) a b))
      (updateRows settings lr records rows) (updateRows settings lr records' rows') := by
  refine Agree.mapM ((List.forall₂_and_left _ _).mpr ⟨hfit, h⟩) ?_
  rintro row row' ⟨hrow, hrows⟩
  exact updateRow_agree lr hrow hrows

/-- The records of updated parameters match as the updates do. -/
theorem counterparts_of_store {updated updated' : List (List (Param α × Option (Moments α)))}
    (hnodup : (updated.flatten.map fun x => x.1.id).Nodup)
    (hnodup' : (updated'.flatten.map fun x => x.1.id).Nodup)
    (h : List.Forall₂ (List.Forall₂ fun a b =>
      SameUpdate settings (records.find? a.1.id) (records'.find? b.1.id) a b) updated updated') :
    List.Forall₂ (List.Forall₂ (Counterparts settings (store records updated.flatten)
        (store records' updated'.flatten)))
      (updated.map (List.map Prod.fst)) (updated'.map (List.map Prod.fst)) := by
  rw [List.forall₂_map_left_iff, List.forall₂_map_right_iff]
  refine forall₂_of_mem h fun row hrow row' hrow' hsame => ?_
  rw [List.forall₂_map_left_iff, List.forall₂_map_right_iff]
  refine forall₂_of_mem hsame fun x hx y hy hxy => ?_
  obtain ⟨htracked, hblock, hmoments⟩ := hxy
  refine ⟨htracked, hblock, ?_⟩
  rw [find?_store_of_mem hnodup (List.mem_flatten.mpr ⟨row, hrow, hx⟩),
    find?_store_of_mem hnodup' (List.mem_flatten.mpr ⟨row', hrow', hy⟩)]
  exact hmoments

end

/-- Updates by the same gradients agree, and leave models alike. -/
theorem Alike.update {adam adam' : Adam α} {model model' : Model α}
    (h : Alike adam adam' model model') (hids : model.DistinctIds) (hids' : model'.DistinctIds)
    {gradients : Gradients α} (hfit : gradients.Fit model) (lr : α) :
    Agree (fun a b => Alike a.1 b.1 a.2 b.2) (adam.update lr model gradients)
      (adam'.update lr model' gradients) := by
  rw [update_eq hids, update_eq hids', ← h.settings, ← h.step]
  refine (agree_self _).bind ?_
  rintro step _ rfl
  have hrows := updateRows_agree lr hfit (assigned_counterparts h.params gradients)
  have hstored := hrows.of_ok fun updated updated' hupdated hupdated' hsame =>
    have hnodup : (updated.flatten.map fun x => x.1.id).Nodup := by
      rw [List.map_flatten, map_ids_of_updateRows hupdated]
      exact hids
    have hnodup' : (updated'.flatten.map fun x => x.1.id).Nodup := by
      rw [List.map_flatten, map_ids_of_updateRows hupdated']
      exact hids'
    counterparts_of_store hnodup hnodup' hsame
  refine hstored.bind fun updated updated' hparams => .ok ?_
  exact ⟨rfl, rfl, h.otherGroups, h.architecture, hparams⟩

end PolicyGradient.Adam
