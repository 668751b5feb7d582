import Mathlib.Data.List.Forall2

/-! What the success of a computation that may fail says about its steps. -/
namespace CriteriaQuery.Outcome
set_option autoImplicit false

variable {ε α β : Type}

/-! ## One step after another -/

theorem bind_eq_ok {x : Except ε α} {f : α → Except ε β} {b : β} :
    x >>= f = .ok b ↔ ∃ a, x = .ok a ∧ f a = .ok b := by
  cases x <;> simp [bind, Except.bind]

theorem map_eq_ok {x : Except ε α} {f : α → β} {b : β} :
    x.map f = .ok b ↔ ∃ a, x = .ok a ∧ f a = b := by
  cases x <;> simp [Except.map]

theorem pure_eq_ok {a b : α} : (pure a : Except ε α) = .ok b ↔ a = b := by
  simp [pure, Except.pure]

theorem bind_ok {x : Except ε α} {a : α} (h : x = .ok a) (f : α → Except ε β) : x >>= f = f a := by
  rw [h]; rfl

theorem exists_bind_eq_ok {x : Except ε α} {f : α → Except ε β} :
    (∃ b, x >>= f = .ok b) ↔ ∃ a, x = .ok a ∧ ∃ b, f a = .ok b := by
  cases x <;> simp [bind, Except.bind]

theorem exists_map_eq_ok {x : Except ε α} {f : α → β} :
    (∃ b, x.map f = .ok b) ↔ ∃ a, x = .ok a := by
  cases x <;> simp [Except.map]

/-- If the second step succeeds under a condition that does not depend on what the first one gives,
the two succeed if both conditions hold. -/
theorem exists_bind_iff {x : Except ε α} {f : α → Except ε β} {P Q : Prop}
    (hfirst : (∃ a, x = .ok a) ↔ P) (hsecond : ∀ a, x = .ok a → ((∃ b, f a = .ok b) ↔ Q)) :
    (∃ b, x >>= f = .ok b) ↔ P ∧ Q := by
  rw [exists_bind_eq_ok, ← hfirst]
  constructor
  · rintro ⟨a, ha, hb⟩
    exact ⟨⟨a, ha⟩, (hsecond a ha).mp hb⟩
  · rintro ⟨⟨a, ha⟩, hQ⟩
    exact ⟨a, ha, (hsecond a ha).mpr hQ⟩

theorem exists_pure_eq_ok {a : α} : ∃ b, (pure a : Except ε α) = .ok b := ⟨a, rfl⟩

/-! ## One step for each item of a list -/

theorem mapM_eq_map {m : Type → Type} [Monad m] [LawfulMonad m] {f : α → m β} {g : α → β}
    {l : List α} (h : ∀ a ∈ l, f a = pure (g a)) : l.mapM f = pure (l.map g) := by
  induction l with
  | nil => exact List.mapM_nil
  | cons a l ih =>
    rw [List.mapM_cons, h a List.mem_cons_self, pure_bind,
      ih fun b hb => h b (List.mem_cons_of_mem a hb), pure_bind, List.map_cons]

theorem forall₂_of_mapM {f : α → Except ε β} {l : List α} {r : List β} (h : l.mapM f = .ok r) :
    List.Forall₂ (fun a b => f a = .ok b) l r := by
  induction l generalizing r with
  | nil =>
    rw [List.mapM_nil, pure_eq_ok] at h
    subst h
    exact List.Forall₂.nil
  | cons a l ih =>
    rw [List.mapM_cons, bind_eq_ok] at h
    obtain ⟨b, hb, h⟩ := h
    rw [bind_eq_ok] at h
    obtain ⟨bs, hbs, h⟩ := h
    rw [pure_eq_ok] at h
    subst h
    exact List.Forall₂.cons hb (ih hbs)

theorem exists_mapM_eq_ok {f : α → Except ε β} {l : List α} :
    (∃ r, l.mapM f = .ok r) ↔ ∀ a ∈ l, ∃ b, f a = .ok b := by
  induction l with
  | nil => simp [exists_pure_eq_ok]
  | cons a l ih =>
    simp only [List.mapM_cons, exists_bind_eq_ok, exists_pure_eq_ok, and_true, ih,
      List.forall_mem_cons, exists_and_right]

theorem eq_map_of_mapM {f : α → Except ε β} {g : α → β} {l : List α} {r : List β}
    (hg : ∀ a b, f a = .ok b → b = g a) (h : l.mapM f = .ok r) : r = l.map g := by
  have hall := forall₂_of_mapM h
  clear h
  induction hall with
  | nil => rfl
  | cons hfirst _ ih => rw [List.map_cons, ← ih, hg _ _ hfirst]

/-- What holds of all results can be told from the items. -/
theorem forall_mem_iff_of_forall₂ {R : α → β → Prop} {P : α → Prop} {Q : β → Prop} {l : List α}
    {r : List β} (h : List.Forall₂ R l r) (hPQ : ∀ a b, R a b → (Q b ↔ P a)) :
    (∀ b ∈ r, Q b) ↔ ∀ a ∈ l, P a := by
  induction h with
  | nil => simp
  | cons hfirst _ ih => rw [List.forall_mem_cons, List.forall_mem_cons, ih, hPQ _ _ hfirst]

theorem forall_mem_of_forall₂ {R : α → β → Prop} {Q : β → Prop} {l : List α} {r : List β}
    (h : List.Forall₂ R l r) (hQ : ∀ a b, R a b → Q b) : ∀ b ∈ r, Q b := by
  rw [forall_mem_iff_of_forall₂ h fun a b hab => iff_true_intro (hQ a b hab)]
  exact fun _ _ => trivial

end CriteriaQuery.Outcome
