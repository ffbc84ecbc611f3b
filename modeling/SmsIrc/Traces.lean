import SmsIrc.Program

/-!
Computations that note down what they do, next to their state. What they note has no part in
what they return, so that a computation can be looked at through one that keeps notes. Nothing
here depends on the bridge.
-/

namespace SmsIrc.Traces

open SmsIrc.Program

variable {ε σ κ α β : Type}

/-- A computation with notes. -/
abbrev Traced (ε σ κ : Type) := Prog ε (σ × List κ)

/-- A computation that notes nothing. -/
def lift (p : Prog ε σ α) : Traced ε σ κ α := zoom Prod.fst (fun s t => (t, s.2)) p

/-- A note of the state. -/
def note (f : σ → κ) : Traced ε σ κ PUnit := modify fun s => (s.1, s.2 ++ [f s.1])

theorem wp_lift {p : Prog ε σ α} {Q : α → σ × List κ → Prop} {E : ε → σ × List κ → Prop}
    {s : σ × List κ} :
    wp (lift p : Traced ε σ κ α) Q E s ↔
      wp p (fun a t => Q a (t, s.2)) (fun e t => E e (t, s.2)) s.1 := wp_zoom p

theorem wp_note {f : σ → κ} {Q : PUnit → σ × List κ → Prop} {E : ε → σ × List κ → Prop}
    {s : σ × List κ} :
    wp (note f : Traced ε σ κ PUnit) Q E s ↔ Q ⟨⟩ (s.1, s.2 ++ [f s.1]) := Iff.rfl

/-- Without the notes it is another computation. -/
def Erases (q : Traced ε σ κ α) (p : Prog ε σ α) : Prop :=
  ∀ s, exec p s.1 = ((exec q s).1, (exec q s).2.1)

theorem erases_lift (p : Prog ε σ α) : Erases (lift p : Traced ε σ κ α) p := fun _ => rfl

theorem erases_pure (a : α) : Erases (pure a : Traced ε σ κ α) (pure a) := fun _ => rfl

theorem erases_throw (e : ε) : Erases (throw e : Traced ε σ κ α) (throw e) := fun _ => rfl

theorem Erases.bind {q : Traced ε σ κ α} {p : Prog ε σ α} {g : α → Traced ε σ κ β}
    {f : α → Prog ε σ β} (hq : Erases q p) (hg : ∀ a, Erases (g a) (f a)) :
    Erases (q >>= g) (p >>= f) := by
  intro s
  have hs := hq s
  rcases hrun : exec q s with ⟨e | a, t⟩
  · rw [hrun] at hs
    rw [exec_bind_error hrun, exec_bind_error hs]
  · rw [hrun] at hs
    rw [exec_bind_ok hrun, exec_bind_ok hs]
    exact hg a t

theorem Erases.note {q : Traced ε σ κ α} {p : Prog ε σ α} (f : σ → κ) (hq : Erases q p) :
    Erases (Traces.note f >>= fun _ => q) p := by
  intro s
  have hnote : exec (Traces.note f : Traced ε σ κ PUnit) s = (.ok ⟨⟩, (s.1, s.2 ++ [f s.1])) := rfl
  rw [exec_bind_ok hnote]
  exact hq (s.1, s.2 ++ [f s.1])

theorem Erases.when {c : Prop} [Decidable c] {q : Traced ε σ κ Unit} {p : Prog ε σ Unit}
    (hq : Erases q p) : Erases (when c q) (when c p) := by
  unfold Program.when
  split
  · exact hq
  · exact erases_pure ()

end SmsIrc.Traces
