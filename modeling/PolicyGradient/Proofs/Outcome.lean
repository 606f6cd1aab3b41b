import Mathlib.Data.List.Forall2
import PolicyGradient.Action

/-!
Computations in sequence.

`bind_eq_ok` and `run_bind_eq_ok` take a sequence that succeeds apart.  `Agree` compares two
computations that may fail, `Preserves` says what an action leaves true however it ends, and
`CommitsTo` that it changes the state as a whole or not at all.
-/

namespace PolicyGradient

namespace Outcome

variable {α β γ δ : Type}

theorem bind_eq_ok {x : Outcome α} {f : α → Outcome β} {b : β} :
    (x >>= f) = .ok b ↔ ∃ a, x = .ok a ∧ f a = .ok b := by
  cases x with
  | error e => simp [bind, Except.bind]
  | ok a => simp [bind, Except.bind]

/-- Two continuations need to agree only on what the computation before them gives. -/
theorem bind_congr_of_ok {x : Outcome α} {f g : α → Outcome β}
    (h : ∀ a, x = .ok a → f a = g a) : x >>= f = x >>= g := by
  cases x with
  | error e => rfl
  | ok a => exact h a rfl

@[simp] theorem failWith_ne_ok (cause : Error) (a : α) : failWith cause ≠ .ok a := by
  simp [failWith]

@[simp] theorem faultWith_ne_ok (cause : Fault) (a : α) : faultWith cause ≠ .ok a := by
  simp [faultWith]

theorem exists_of_isOk {x : Outcome α} (h : x.isOk = true) : ∃ a, x = .ok a := by
  cases x with
  | error e => cases h
  | ok a => exact ⟨a, rfl⟩

theorem map_eq_iff_forall₂ {f : α → γ} {g : β → γ} {xs : List α} {ys : List β} :
    xs.map f = ys.map g ↔ List.Forall₂ (fun x y => f x = g y) xs ys := by
  rw [← List.forall₂_eq_eq_eq, List.forall₂_map_left_iff, List.forall₂_map_right_iff]

theorem map_map_eq_iff_forall₂ {f : α → γ} {g : β → γ} {xs : List (List α)} {ys : List (List β)} :
    xs.map (List.map f) = ys.map (List.map g) ↔
      List.Forall₂ (List.Forall₂ fun x y => f x = g y) xs ys := by
  simp only [map_eq_iff_forall₂]

theorem forall₂_of_mem {R S : α → β → Prop} {xs : List α} {ys : List β}
    (h : List.Forall₂ R xs ys) (hS : ∀ x ∈ xs, ∀ y ∈ ys, R x y → S x y) :
    List.Forall₂ S xs ys := by
  induction h with
  | nil => exact .nil
  | cons hhead _ ih =>
      refine .cons (hS _ List.mem_cons_self _ List.mem_cons_self hhead) (ih ?_)
      intro x hx y hy
      exact hS x (List.mem_cons_of_mem _ hx) y (List.mem_cons_of_mem _ hy)

theorem exists_of_forall₂ {R : α → β → Prop} {xs : List α} {ys : List β}
    (h : List.Forall₂ R xs ys) {y : β} (hy : y ∈ ys) : ∃ x ∈ xs, R x y := by
  induction h with
  | nil => cases hy
  | @cons x _ xs _ hhead _ ih =>
      rcases List.mem_cons.mp hy with rfl | hy
      · exact ⟨x, List.mem_cons_self, hhead⟩
      · obtain ⟨z, hz, hR⟩ := ih hy
        exact ⟨z, List.mem_cons_of_mem x hz, hR⟩

/-- A traversal succeeds exactly when every element does. -/
theorem mapM_eq_ok {f : α → Outcome β} {xs : List α} {ys : List β} :
    xs.mapM f = .ok ys ↔ List.Forall₂ (fun x y => f x = .ok y) xs ys := by
  induction xs generalizing ys with
  | nil =>
      rw [List.mapM_nil, List.forall₂_nil_left_iff]
      exact ⟨fun h => (Except.ok.inj h).symm, fun h => congrArg Except.ok h.symm⟩
  | cons x xs ih =>
      simp only [List.mapM_cons, bind_eq_ok]
      constructor
      · rintro ⟨y, hy, ys', hys, heq⟩
        cases heq
        exact .cons hy (ih.mp hys)
      · intro h
        cases h with
        | cons hy hys => exact ⟨_, hy, _, ih.mpr hys, rfl⟩

theorem exists_of_mem_of_mapM {f : α → Outcome β} {xs : List α} {ys : List β}
    (h : xs.mapM f = .ok ys) {y : β} (hy : y ∈ ys) : ∃ x ∈ xs, f x = .ok y := by
  have hall := mapM_eq_ok.mp h
  clear h
  induction hall with
  | nil => simp at hy
  | @cons x _ xs _ hhead _ ih =>
      rcases List.mem_cons.mp hy with rfl | hy
      · exact ⟨x, List.mem_cons_self, hhead⟩
      · obtain ⟨z, hz, hfz⟩ := ih hy
        exact ⟨z, List.mem_cons_of_mem x hz, hfz⟩

/-- What every element keeps, the traversal keeps in order. -/
theorem map_eq_of_mapM {f : α → Outcome β} {g : β → γ} {k : α → γ} {xs : List α} {ys : List β}
    (h : xs.mapM f = .ok ys) (hkeep : ∀ x ∈ xs, ∀ y, f x = .ok y → g y = k x) :
    ys.map g = xs.map k := by
  have hall := mapM_eq_ok.mp h
  clear h
  induction hall with
  | nil => rfl
  | @cons x y xs ys hhead _ ih =>
      rw [List.map_cons, List.map_cons, hkeep x List.mem_cons_self y hhead,
        ih fun z hz => hkeep z (List.mem_cons_of_mem x hz)]

theorem mapM_congr {f g : α → Outcome β} {xs : List α} (h : ∀ x ∈ xs, f x = g x) :
    xs.mapM f = xs.mapM g := by
  induction xs with
  | nil => rfl
  | cons x xs ih =>
      simp only [List.mapM_cons, h x List.mem_cons_self,
        ih fun y hy => h y (List.mem_cons_of_mem x hy)]

/-- A traversal fails as one of its elements does. -/
theorem error_of_mapM {f : α → Outcome β} {xs : List α} {e : Failure}
    (h : xs.mapM f = .error e) : ∃ x ∈ xs, f x = .error e := by
  induction xs with
  | nil => cases h
  | cons x xs ih =>
      rw [List.mapM_cons] at h
      cases hx : f x with
      | error e' =>
          rw [hx] at h
          cases h
          exact ⟨x, List.mem_cons_self, hx⟩
      | ok y =>
          cases hxs : xs.mapM f with
          | error e' =>
              rw [hx, hxs] at h
              cases h
              obtain ⟨z, hz, hfz⟩ := ih hxs
              exact ⟨z, List.mem_cons_of_mem x hz, hfz⟩
          | ok ys =>
              rw [hx, hxs] at h
              cases h

/-- The computation ends with a result or with an error for its caller, never with a fault. -/
def Answers (x : Outcome α) : Prop :=
  ∀ fault, x ≠ .error (.fault fault)

theorem answers_ok (a : α) : Answers (.ok a) := by
  intro fault h
  cases h

theorem answers_failWith (cause : Error) : Answers (failWith cause : Outcome α) := by
  intro fault h
  cases h

theorem Answers.bind {x : Outcome α} {f : α → Outcome β} (hx : x.Answers)
    (hf : ∀ a, x = .ok a → (f a).Answers) : (x >>= f).Answers := by
  cases x with
  | error e =>
      intro fault h
      cases h
      exact hx fault rfl
  | ok a => exact hf a rfl

theorem answers_ensureShape (what : Subject) (actual expected : List Nat) :
    (ensureShape what actual expected).Answers := by
  unfold ensureShape
  split
  · exact answers_ok _
  · exact answers_failWith _

/-- Two computations agree: both fail in the same way, or both succeed with related results. -/
inductive Agree (R : α → β → Prop) : Outcome α → Outcome β → Prop
  | ok {a : α} {b : β} (h : R a b) : Agree R (.ok a) (.ok b)
  | error (e : Failure) : Agree R (.error e) (.error e)

theorem agree_self (x : Outcome α) : Agree Eq x x := by
  cases x with
  | error e => exact .error e
  | ok a => exact .ok rfl

theorem Agree.eq {x y : Outcome α} (h : Agree Eq x y) : x = y := by
  cases h with
  | ok h => rw [h]
  | error e => rfl

theorem Agree.of_ok {R S : α → β → Prop} {x : Outcome α} {y : Outcome β} (h : Agree R x y)
    (hS : ∀ a b, x = .ok a → y = .ok b → R a b → S a b) : Agree S x y := by
  cases h with
  | ok h => exact .ok (hS _ _ rfl rfl h)
  | error e => exact .error e

theorem Agree.bind {R : α → β → Prop} {S : γ → δ → Prop} {x : Outcome α} {y : Outcome β}
    {f : α → Outcome γ} {g : β → Outcome δ} (hxy : Agree R x y)
    (hfg : ∀ a b, R a b → Agree S (f a) (g b)) : Agree S (x >>= f) (y >>= g) := by
  cases hxy with
  | ok h => exact hfg _ _ h
  | error e => exact .error e

theorem Agree.mapM {R : α → β → Prop} {S : γ → δ → Prop} {f : α → Outcome γ}
    {g : β → Outcome δ} {xs : List α} {ys : List β} (hxy : List.Forall₂ R xs ys)
    (hfg : ∀ a b, R a b → Agree S (f a) (g b)) :
    Agree (List.Forall₂ S) (xs.mapM f) (ys.mapM g) := by
  induction hxy with
  | nil => exact .ok .nil
  | cons hhead _ ih =>
      simp only [List.mapM_cons]
      refine (hfg _ _ hhead).bind fun c d hcd => ih.bind fun cs ds htail => ?_
      exact .ok (.cons hcd htail)

end Outcome

namespace Action

variable {σ τ β γ : Type}

theorem run_bind_eq_ok {act : Action σ β} {next : β → Action σ γ} {s u : σ} {c : γ} :
    (act >>= next).run s = (.ok c, u) ↔
      ∃ b t, act.run s = (.ok b, t) ∧ (next b).run t = (.ok c, u) := by
  rw [run_bind]
  rcases act.run s with ⟨_ | b, t⟩
  · simp
  · simp

theorem run_lift_bind (x : Outcome β) (next : β → Action σ γ) (s : σ) :
    (lift x >>= next).run s =
      match x with
      | .ok b => (next b).run s
      | .error e => (.error e, s) := by
  rw [run_bind, run_lift]
  cases x with
  | error e => rfl
  | ok b => rfl

theorem run_lift_bind_eq_ok {x : Outcome β} {next : β → Action σ γ} {s u : σ} {c : γ} :
    (lift x >>= next).run s = (.ok c, u) ↔ ∃ b, x = .ok b ∧ (next b).run s = (.ok c, u) := by
  rw [run_lift_bind]
  cases x with
  | error e => simp
  | ok b => simp

theorem run_on_eq_ok {part : σ → τ} {update : τ → σ → σ} {act : Action τ β} {s u : σ} {b : β} :
    (on part update act).run s = (.ok b, u) ↔
      ∃ t, act.run (part s) = (.ok b, t) ∧ u = update t s := by
  rw [run_on]
  rcases act.run (part s) with ⟨outcome, t⟩
  constructor
  · intro h
    cases h
    exact ⟨t, rfl, rfl⟩
  · rintro ⟨_, hact, rfl⟩
    cases hact
    rfl

/-- What an action that succeeds adds to a count, it adds each time it is repeated. -/
theorem count_of_replicate (count : σ → Nat) {act : Action σ β} {m : Nat}
    (hact : ∀ s b t, act.run s = (.ok b, t) → count t = count s + m) {n : Nat} {s u : σ}
    {bs : List β} (h : (replicate n act).run s = (.ok bs, u)) : count u = count s + n * m := by
  induction n generalizing s bs with
  | zero =>
      cases h
      rw [Nat.zero_mul, Nat.add_zero]
  | succ n ih =>
      obtain ⟨first, t, hfirst, hrest⟩ := run_bind_eq_ok.mp h
      obtain ⟨others, _, hothers, hlast⟩ := run_bind_eq_ok.mp hrest
      cases hlast
      rw [ih hothers, hact s first t hfirst, Nat.succ_mul]
      omega

/-- Passing a result on leaves the state as it is. -/
theorem run_bind_pure (act : Action σ β) (f : β → γ) (s : σ) :
    (act >>= fun b => pure (f b) : Action σ γ).run s = ((act.run s).1.map f, (act.run s).2) := by
  rw [run_bind]
  rcases act.run s with ⟨_ | _, _⟩
  · rfl
  · rfl

theorem state_bind_pure (act : Action σ β) (f : β → γ) (s : σ) :
    ((act >>= fun b => pure (f b) : Action σ γ).run s).2 = (act.run s).2 := by
  rw [run_bind_pure]

theorem outcome_bind_pure {act : Action σ β} {b : β} {s : σ} (h : (act.run s).1 = .ok b) (c : γ) :
    ((act >>= fun _ => pure c : Action σ γ).run s).1 = .ok c := by
  rw [run_bind]
  rcases hrun : act.run s with ⟨_ | _, _⟩
  · rw [hrun] at h
    cases h
  · rfl

/-- However the action ends, it leaves a property of the state true. -/
def Preserves (P : σ → Prop) (act : Action σ β) : Prop :=
  ∀ s, P s → P (act.run s).2

variable {P : σ → Prop}

theorem Preserves.of_run_eq {act : Action σ β} (h : Preserves P act) {s t : σ}
    {outcome : Outcome β} (hs : P s) (hrun : act.run s = (outcome, t)) : P t := by
  have hlast := h s hs
  rwa [hrun] at hlast

theorem preserves_pure (b : β) : Preserves P (pure b : Action σ β) := by
  intro s hs
  exact hs

theorem preserves_lift (outcome : Outcome β) : Preserves P (lift outcome : Action σ β) := by
  intro s hs
  exact hs

theorem preserves_get : Preserves P (get : Action σ σ) := by
  intro s hs
  exact hs

theorem Preserves.bind {act : Action σ β} {next : β → Action σ γ} (hact : Preserves P act)
    (hnext : ∀ b, Preserves P (next b)) : Preserves P (act >>= next) := by
  intro s hs
  rw [run_bind]
  have hlast := hact s hs
  rcases hrun : act.run s with ⟨_ | b, t⟩
  · simpa [hrun] using hlast
  · rw [hrun] at hlast
    exact hnext b t hlast

theorem Preserves.replicate {act : Action σ β} (hact : Preserves P act) (n : Nat) :
    Preserves P (replicate n act) := by
  induction n with
  | zero => exact preserves_pure []
  | succ n ih => exact hact.bind fun first => ih.bind fun others => preserves_pure _

theorem preserves_on {part : σ → τ} {update : τ → σ → σ} (act : Action τ β)
    (hupdate : ∀ s t, P s → P (update t s)) : Preserves P (on part update act) := by
  intro s hs
  exact hupdate s _ hs

theorem Preserves.on {part : σ → τ} {update : τ → σ → σ} {act : Action τ β} {Q : τ → Prop}
    (hact : Preserves Q act) (hpart : ∀ s, P s → Q (part s))
    (hupdate : ∀ s t, P s → Q t → P (update t s)) : Preserves P (on part update act) := by
  intro s hs
  exact hupdate s _ hs (hact _ (hpart s hs))

/-- The state that has been computed, or the old one if there is none. -/
def committed (s : σ) : Outcome σ → Outcome Unit × σ
  | .ok t => (.ok (), t)
  | .error e => (.error e, s)

/-- Run from a state, the action goes over to the state that has been computed, and stays where it
is if there is none. -/
def CommitsTo (act : Action σ Unit) (s : σ) (outcome : Outcome σ) : Prop :=
  act.run s = committed s outcome

theorem CommitsTo.lift_bind {x : Outcome β} {next : β → Action σ Unit} {f : β → Outcome σ} {s : σ}
    (h : ∀ b, x = .ok b → (next b).CommitsTo s (f b)) :
    (lift x >>= next).CommitsTo s (x >>= f) := by
  rw [CommitsTo, run_lift_bind]
  cases x with
  | error e => rfl
  | ok b => exact h b rfl

theorem CommitsTo.get_bind {next : σ → Action σ Unit} {s : σ} {outcome : Outcome σ}
    (h : (next s).CommitsTo s outcome) : (get >>= next).CommitsTo s outcome := by
  rwa [CommitsTo, run_bind, run_get]

/-- All or nothing on a part of the state is all or nothing. -/
theorem CommitsTo.on {act : Action τ Unit} {part : σ → τ} {update : τ → σ → σ} {s : σ}
    {outcome : Outcome τ} (h : act.CommitsTo (part s) outcome) (hsame : update (part s) s = s) :
    (Action.on part update act).CommitsTo s (outcome.map fun t => update t s) := by
  rw [CommitsTo, run_on, h]
  cases outcome with
  | error e => exact congrArg (Prod.mk _) hsame
  | ok t => rfl

end Action

end PolicyGradient
