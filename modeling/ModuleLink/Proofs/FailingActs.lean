/-! # Acts that change a state and may fail

What an act did before it failed stays done, and whoever catches the failure goes on from there. -/
namespace ModuleLink

variable {ε σ α β : Type}

theorem run_bind (a : ExceptT ε (StateM σ) α) (f : α → ExceptT ε (StateM σ) β) (x : σ) :
    (a >>= f).run x =
      match a.run x with
      | (.ok v, y) => (f v).run y
      | (.error e, y) => (.error e, y) := by
  show ExceptT.bindCont f (a.run x).1 (a.run x).2 = _
  rcases a.run x with ⟨_ | _, y⟩ <;> rfl

theorem run_bind_ok {a : ExceptT ε (StateM σ) α} {f : α → ExceptT ε (StateM σ) β} {x y : σ} {v : β}
    (h : (a >>= f).run x = (.ok v, y)) :
    ∃ u z, a.run x = (.ok u, z) ∧ (f u).run z = (.ok v, y) := by
  rw [run_bind] at h
  rcases ha : a.run x with ⟨_ | u, z⟩
  · rw [ha] at h
    cases h
  · rw [ha] at h
    exact ⟨u, z, rfl, h⟩

theorem run_tryCatch (a : ExceptT ε (StateM σ) α) (f : ε → ExceptT ε (StateM σ) α) (x : σ) :
    (tryCatch a f).run x =
      match a.run x with
      | (.ok v, y) => (.ok v, y)
      | (.error e, y) => (f e).run y := by
  simp only [tryCatch, tryCatchThe, MonadExceptOf.tryCatch, ExceptT.tryCatch, ExceptT.run,
    ExceptT.mk, bind, StateT.bind]
  rcases a x with ⟨_ | _, y⟩ <;> rfl

theorem run_get (x : σ) : (get : ExceptT ε (StateM σ) σ).run x = (.ok x, x) := rfl

theorem run_lift (a : StateM σ α) (x : σ) :
    (liftM a : ExceptT ε (StateM σ) α).run x = (.ok (a.run x).1, (a.run x).2) := rfl

end ModuleLink
