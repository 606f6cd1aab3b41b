import PolicyGradient.Proofs.Outcome

/-!
Two computations side by side.

Actions in lockstep lead related states to related states and end alike (`Action.Lockstep`), and so
does whatever is built from them.  Coupled actions may fail each in its own way, and agree where
both succeed (`Action.Coupled`).
-/

namespace PolicyGradient

open Outcome

namespace Action

variable {σ τ σ' τ' β γ δ ε : Type}

/-- From related states both actions end alike, and the states that they leave are related. -/
def Lockstep (R : σ → τ → Prop) (S : β → γ → Prop) (act : Action σ β) (act' : Action τ γ) : Prop :=
  ∀ s t, R s t → Agree S (act.run s).1 (act'.run t).1 ∧ R (act.run s).2 (act'.run t).2

variable {R : σ → τ → Prop} {S : β → γ → Prop} {T : δ → ε → Prop}

theorem lockstep_pure {b : β} {c : γ} (h : S b c) :
    Lockstep R S (pure b : Action σ β) (pure c : Action τ γ) := by
  intro s t hst
  exact ⟨.ok h, hst⟩

theorem lockstep_lift {x : Outcome β} {y : Outcome γ} (h : Agree S x y) :
    Lockstep R S (lift x : Action σ β) (lift y : Action τ γ) := by
  intro s t hst
  exact ⟨h, hst⟩

theorem lockstep_get : Lockstep R R (get : Action σ σ) (get : Action τ τ) := by
  intro s t hst
  exact ⟨.ok hst, hst⟩

theorem lockstep_modify {f : σ → σ} {g : τ → τ} (h : ∀ s t, R s t → R (f s) (g t)) :
    Lockstep R Eq (modify f : Action σ PUnit) (modify g : Action τ PUnit) := by
  intro s t hst
  exact ⟨.ok rfl, h s t hst⟩

theorem Lockstep.bind {act : Action σ β} {act' : Action τ γ} {next : β → Action σ δ}
    {next' : γ → Action τ ε} (hact : Lockstep R S act act')
    (hnext : ∀ b c, S b c → Lockstep R T (next b) (next' c)) :
    Lockstep R T (act >>= next) (act' >>= next') := by
  intro s t hst
  have hpair := hact s t hst
  rw [run_bind, run_bind]
  generalize act.run s = x at hpair
  generalize act'.run t = y at hpair
  obtain ⟨x, s'⟩ := x
  obtain ⟨y, t'⟩ := y
  obtain ⟨hagree, hlast⟩ := hpair
  cases hagree with
  | error e => exact ⟨.error e, hlast⟩
  | ok h => exact hnext _ _ h s' t' hlast

theorem Lockstep.replicate {act : Action σ β} {act' : Action τ β} (h : Lockstep R Eq act act')
    (n : Nat) : Lockstep R Eq (Action.replicate n act) (Action.replicate n act') := by
  induction n with
  | zero => exact lockstep_pure rfl
  | succ n ih =>
      refine h.bind ?_
      rintro first _ rfl
      refine ih.bind ?_
      rintro others _ rfl
      exact lockstep_pure rfl

/-- Work on parts keeps the whole states related if it keeps the parts related. -/
theorem Lockstep.on {Q : σ' → τ' → Prop} {part : σ → σ'} {part' : τ → τ'}
    {update : σ' → σ → σ} {update' : τ' → τ → τ} {act : Action σ' β} {act' : Action τ' γ}
    (h : Lockstep Q S act act') (hpart : ∀ s t, R s t → Q (part s) (part' t))
    (hupdate : ∀ s t u v, R s t → Q u v → R (update u s) (update' v t)) :
    Lockstep R S (Action.on part update act) (Action.on part' update' act') := by
  intro s t hst
  obtain ⟨hagree, hlast⟩ := h _ _ (hpart s t hst)
  exact ⟨hagree, hupdate s t _ _ hst hlast⟩

/-- Where both actions succeed from one state, their results are related and they leave the same
state. -/
def Coupled (S : β → γ → Prop) (act : Action σ β) (act' : Action σ γ) : Prop :=
  ∀ s b c t u, act.run s = (.ok b, t) → act'.run s = (.ok c, u) → S b c ∧ t = u

theorem Coupled.bind {act : Action σ β} {act' : Action σ γ} {next : β → Action σ δ}
    {next' : γ → Action σ ε} (hact : Coupled S act act')
    (hnext : ∀ b c, S b c → Coupled T (next b) (next' c)) :
    Coupled T (act >>= next) (act' >>= next') := by
  intro s d e t u hd he
  obtain ⟨b, s', hb, hd⟩ := run_bind_eq_ok.mp hd
  obtain ⟨c, s'', hc, he⟩ := run_bind_eq_ok.mp he
  obtain ⟨hbc, rfl⟩ := hact s b c s' s'' hb hc
  exact hnext b c hbc s' d e t u hd he

end Action

end PolicyGradient
