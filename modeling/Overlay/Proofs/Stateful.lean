/-! Computations that change a state and can fail. What was done before a failure stays, so the
state after them is looked at in both cases. -/
namespace Overlay
variable {ε σ α β : Type}

theorem run_bind (x : ExceptT ε (StateM σ) α) (next : α → ExceptT ε (StateM σ) β) (s : σ) :
    (x >>= next).run.run s =
      match x.run.run s with
      | (.ok a, s) => (next a).run.run s
      | (.error fault, s) => (.error fault, s) := by
  rw [ExceptT.run_bind, StateT.run_bind]
  rcases x.run.run s with ⟨_ | a, s⟩ <;> rfl

theorem run_get_bind (next : σ → ExceptT ε (StateM σ) β) (s : σ) :
    (get >>= next).run.run s = (next s).run.run s := rfl

theorem run_adapt {ε' : Type} (wrap : ε → ε') (x : ExceptT ε (StateM σ) α) (s : σ) :
    (x.adapt wrap).run.run s = ((x.run.run s).1.mapError wrap, (x.run.run s).2) := rfl

/-- A computation leaves an invariant of the state as it is, also when it fails, and what it
returns has a property. -/
def Keeps (I : σ → Prop) (x : ExceptT ε (StateM σ) α) (Q : α → Prop) : Prop :=
  ∀ s, I s → I (x.run.run s).2 ∧ ∀ a, (x.run.run s).1 = .ok a → Q a

namespace Keeps
variable {I : σ → Prop} {x : ExceptT ε (StateM σ) α} {Q : α → Prop} {R : β → Prop}

theorem pure {a : α} (holds : Q a) : Keeps I (Pure.pure a : ExceptT ε (StateM σ) α) Q := by
  intro s kept
  refine ⟨kept, fun b same => ?_⟩
  cases same
  exact holds

theorem throw (fault : ε) : Keeps I (MonadExcept.throw fault : ExceptT ε (StateM σ) α) Q :=
  fun _ kept => ⟨kept, nofun⟩

theorem ofExcept {result : Except ε α} (holds : ∀ a, result = .ok a → Q a) :
    Keeps I (MonadExcept.ofExcept result : ExceptT ε (StateM σ) α) Q := by
  cases result with
  | error fault => exact throw fault
  | ok a => exact pure (holds a rfl)

theorem bind {next : α → ExceptT ε (StateM σ) β} (first : Keeps I x Q)
    (rest : ∀ a, Q a → Keeps I (next a) R) : Keeps I (x >>= next) R := by
  intro s kept
  have after := first s kept
  revert after
  rw [run_bind]
  rcases x.run.run s with ⟨_ | a, t⟩
  · intro ⟨kept, _⟩
    exact ⟨kept, nofun⟩
  · intro ⟨kept, returned⟩
    exact rest a (returned a rfl) t kept

theorem get_bind {next : σ → ExceptT ε (StateM σ) β} (rest : ∀ s, I s → Keeps I (next s) R) :
    Keeps I (get >>= next) R := by
  intro s kept
  rw [run_get_bind]
  exact rest s kept s kept

theorem adapt {ε' : Type} (wrap : ε → ε') (kept : Keeps I x Q) : Keeps I (x.adapt wrap) Q := by
  intro s holds
  have after := kept s holds
  revert after
  rw [run_adapt]
  rcases x.run.run s with ⟨_ | a, t⟩
  · intro ⟨holds, _⟩
    exact ⟨holds, nofun⟩
  · intro ⟨holds, returned⟩
    exact ⟨holds, fun b same => returned b (congrArg Except.ok (Except.ok.inj same))⟩

theorem forM {items : List β} {f : β → ExceptT ε (StateM σ) PUnit}
    (each : ∀ item ∈ items, Keeps I (f item) fun _ => True) :
    Keeps I (items.forM f) fun _ => True := by
  induction items with
  | nil => exact pure trivial
  | cons item items ih =>
    obtain ⟨first, others⟩ := List.forall_mem_cons.1 each
    exact bind first fun _ _ => ih others

end Keeps

/-- A computation leaves an invariant as it is, also when it fails. When it does not, what it
returns and the state after it have a property. -/
def Leads (I : σ → Prop) (x : ExceptT ε (StateM σ) α) (P : α → σ → Prop) : Prop :=
  ∀ s, I s → I (x.run.run s).2 ∧ ∀ a, (x.run.run s).1 = .ok a → P a (x.run.run s).2

namespace Leads
variable {I : σ → Prop} {x : ExceptT ε (StateM σ) α} {Q : α → Prop}

theorem after_keeps {next : α → ExceptT ε (StateM σ) β} {P : β → σ → Prop} (first : Keeps I x Q)
    (rest : ∀ a, Q a → Leads I (next a) P) : Leads I (x >>= next) P := by
  intro s kept
  have after := first s kept
  revert after
  rw [run_bind]
  rcases x.run.run s with ⟨_ | a, t⟩
  · intro ⟨kept, _⟩
    exact ⟨kept, nofun⟩
  · intro ⟨kept, returned⟩
    exact rest a (returned a rfl) t kept

/-- From a state on that the first computation leads to, there is an invariant of its own. -/
theorem bind_keeps {next : α → ExceptT ε (StateM σ) β} {P : α → σ → Prop} {J : σ → σ → Prop}
    {R : α → β → Prop} (first : Leads I x P)
    (rest : ∀ a t, P a t → J t t ∧ (∀ t', J t t' → I t') ∧ Keeps (J t) (next a) (R a)) :
    Leads I (x >>= next) fun b t' => ∃ a t, P a t ∧ J t t' ∧ R a b := by
  intro s kept
  have after := first s kept
  revert after
  rw [run_bind]
  rcases x.run.run s with ⟨_ | a, t⟩
  · intro ⟨kept, _⟩
    exact ⟨kept, nofun⟩
  · intro ⟨_, led⟩
    obtain ⟨begins, weaken, keeps⟩ := rest a t (led a rfl)
    obtain ⟨holds, returned⟩ := keeps t begins
    exact ⟨weaken _ holds, fun b same => ⟨a, t, led a rfl, holds, returned b same⟩⟩

end Leads
end Overlay
