/-! Actions, one step at a time.

Blocks, disks, runs and the program are all actions on a state that may fail. What they do
is taken apart here and nowhere else: reading and writing the state are equations, a list
of actions is its first one and the rest, and what ends has seen every step of it end. -/
namespace Multiversion

variable {α β ε σ : Type}

theorem get_eq (s : σ) : (EStateM.get : EStateM ε σ σ) s = .ok s s := rfl

theorem set_eq (s t : σ) : (EStateM.set t : EStateM ε σ PUnit) s = .ok ⟨⟩ t := rfl

theorem forM_cons_eq (action : α → EStateM ε σ Unit) (a : α) (rest : List α) (s : σ) :
    (a :: rest).forM action s =
      match action a s with
      | .ok _ s => rest.forM action s
      | .error e s => .error e s := by
  simp only [List.forM, bind, EStateM.bind]
  cases action a s <;> rfl

/-- A step that ends after another one has seen the other one end. -/
theorem exists_of_bind_eq_ok {x : EStateM ε σ α} {f : α → EStateM ε σ β} {b : β} {s s' : σ}
    (h : (x >>= f) s = .ok b s') : ∃ a s₁, x s = .ok a s₁ ∧ f a s₁ = .ok b s' := by
  simp only [bind, EStateM.bind] at h
  split at h
  · next a s₁ hx => exact ⟨a, s₁, hx, h⟩
  · contradiction

end Multiversion
