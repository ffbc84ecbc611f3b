import SmsIrc.Program

/-!
Properties of computations that are kept when computations are put together: what all
steps of a computation do is one, and what a computation does that ends well is another.
-/

namespace SmsIrc.Composition

open SmsIrc.Program

variable {ε σ α β : Type}

/-- What is done with the state depends on how it goes in that state only. -/
theorem get_bind_congr {f g : σ → Prog ε σ α} (h : ∀ s, exec (f s) s = exec (g s) s) :
    (get >>= f : Prog ε σ α) = get >>= g := by
  refine eq_of_exec fun s => ?_
  rw [exec_bind, exec_bind, exec_get]
  exact h s

/-- A sequence on a part of the state is a sequence of the two there. -/
theorem zoom_bind {τ : Type} {get : σ → τ} {set : σ → τ → σ} (hget : ∀ s t, get (set s t) = t)
    (hset : ∀ s t u, set (set s t) u = set s u) (p : Prog ε τ α) (f : α → Prog ε τ β) :
    zoom get set (p >>= f) = zoom get set p >>= fun a => zoom get set (f a) := by
  refine eq_of_exec fun s => ?_
  rw [exec_bind, exec_zoom, exec_zoom, exec_bind]
  rcases exec p (get s) with ⟨e | a, t⟩
  · rfl
  · simp only [exec_zoom, hget, hset]

/-- To do something for the elements with a property is to do it for the list of those. -/
theorem forM_when {P : α → Prop} [DecidablePred P] (f : α → Prog ε σ Unit) (xs : List α) :
    forM xs (fun x => when (P x) (f x)) = forM (xs.filter fun x => P x) f := by
  induction xs with
  | nil => rfl
  | cons x xs ih =>
      rw [List.forM_cons, ih]
      by_cases hx : P x
      · rw [List.filter_cons_of_pos (by simpa using hx), List.forM_cons, when, if_pos hx]
      · rw [List.filter_cons_of_neg (by simpa using hx), when, if_neg hx, pure_bind]

structure Composes (W : ∀ {α : Type}, Prog ε σ α → Prop) : Prop where
  pure : ∀ {α : Type} (a : α), W (pure a : Prog ε σ α)
  throw : ∀ {α : Type} (e : ε), W (throw e : Prog ε σ α)
  get : W (get : Prog ε σ σ)
  bind : ∀ {α β : Type} {p : Prog ε σ α} {f : α → Prog ε σ β}, W p → (∀ a, W (f a)) →
    W (p >>= f)

namespace Composes

variable {W : ∀ {α : Type}, Prog ε σ α → Prop} (h : Composes W)
include h

theorem getBind {f : σ → Prog ε σ α} (hf : ∀ s, W (f s)) : W (MonadState.get >>= f) :=
  h.bind h.get hf

/-- To read the state and write another one is to change it. -/
theorem getSet {f : σ → σ} {g : σ → Prog ε σ α} (hf : W (modify f : Prog ε σ PUnit))
    (hg : ∀ s, W (g s)) :
    W (MonadState.get >>= fun s => (set (f s) : Prog ε σ PUnit) >>= fun _ => g s) := by
  have heq : (MonadState.get >>= fun s => (set (f s) : Prog ε σ PUnit) >>= fun _ => g s) =
      (MonadState.get >>= fun s => (modify f : Prog ε σ PUnit) >>= fun _ => g s) :=
    get_bind_congr fun s => by rw [exec_bind, exec_bind, exec_set, exec_modify]
  rw [heq]
  exact h.getBind fun s => h.bind hf fun _ => hg s

theorem when {c : Prop} [Decidable c] {p : Prog ε σ Unit} (hp : W p) : W (when c p) := by
  unfold Program.when
  split
  · exact hp
  · exact h.pure ()

theorem forM {xs : List α} {f : α → Prog ε σ PUnit} (hf : ∀ x ∈ xs, W (f x)) :
    W (forM xs f) := by
  induction xs with
  | nil => exact h.pure _
  | cons x xs ih =>
      rw [List.forM_cons]
      exact h.bind (hf x (by simp)) fun _ => ih fun y hy => hf y (by simp [hy])

end Composes

variable {R : σ → σ → Prop}

theorem composes_moves [IsPreorder σ R] :
    Composes fun {α : Type} (p : Prog ε σ α) => Moves R p where
  pure := steps_pure
  throw _ := steps_throw trivial
  get := steps_get
  bind := Steps.bind

/-- Where the computation does not fail, it leaves an `R`-related state. -/
def Leads (R : σ → σ → Prop) (p : Prog ε σ α) : Prop :=
  ∀ s, wp p (fun _ t => R s t) (fun _ _ => True) s

theorem Leads.exec {p : Prog ε σ α} (h : Leads R p) {s t : σ} {a : α}
    (hp : exec p s = (.ok a, t)) : R s t := by
  have hs := h s
  rwa [wp, hp] at hs

theorem leads_of_moves {p : Prog ε σ α} (h : Moves R p) : Leads R p := fun s =>
  wp_mono (h s) (fun _ _ ht => ht) fun _ _ _ => trivial

theorem leads_modify {f : σ → σ} (h : ∀ s, R s (f s)) : Leads R (modify f : Prog ε σ PUnit) := h

theorem Leads.after [IsPreorder σ R] {p : Prog ε σ α} (h : Leads R p) {s t : σ} (hst : R s t) :
    wp p (fun _ u => R s u) (fun _ _ => True) t :=
  wp_mono (h t) (fun _ _ htu => IsTrans.trans _ _ _ hst htu) fun _ _ _ => trivial

theorem composes_leads [IsPreorder σ R] :
    Composes fun {α : Type} (p : Prog ε σ α) => Leads R p where
  pure a := leads_of_moves (steps_pure a)
  throw _ := leads_of_moves (steps_throw trivial)
  get := leads_of_moves steps_get
  bind hp hf s := by
    rw [wp_bind]
    exact wp_mono (hp s) (fun a _ hst => (hf a).after hst) fun _ _ _ => trivial

/-- What the last of some computations leads to is what all of them do. -/
theorem leads_of_last {P : σ → Prop} {p : Prog ε σ α} {f : α → Prog ε σ β}
    (hR : ∀ s t, P t → R s t) (hf : ∀ a t, wp (f a) (fun _ u => P u) (fun _ _ => True) t) :
    Leads R (p >>= f) := by
  intro s
  rw [wp_bind]
  refine wp_mono (wp_exec p s) (fun a t _ => ?_) fun _ _ _ => trivial
  exact wp_mono (hf a t) (fun _ u hu => hR s u hu) fun _ _ _ => trivial

end SmsIrc.Composition
