import Mathlib.Order.Defs.Unbundled

/-!
Stateful computations that can fail, with the weakest-precondition rules the
rest of the development reasons with. Nothing here depends on the bridge.
-/

namespace SmsIrc.Program

/-- A computation over a state `σ` that returns a value or fails with an `ε`.
The state reached before a failure is kept, as it is for a method that mutates
its receiver and then returns early. -/
abbrev Prog (ε σ : Type) := ExceptT ε (StateM σ)

variable {ε σ τ α β : Type}

/-- The outcome of a computation started in `s`, and the state it leaves. -/
def exec (p : Prog ε σ α) (s : σ) : Except ε α × σ := (p.run).run s

/-- Run a computation on a part of the state. -/
def zoom (get : σ → τ) (set : σ → τ → σ) (p : Prog ε τ α) : Prog ε σ α :=
  ExceptT.mk fun s => ((exec p (get s)).1, set s (exec p (get s)).2)

/-- `if c { p }`. -/
def when (c : Prop) [Decidable c] (p : Prog ε σ Unit) : Prog ε σ Unit :=
  if c then p else pure ()

@[simp] theorem exec_pure (a : α) (s : σ) :
    exec (pure a : Prog ε σ α) s = (.ok a, s) := rfl

@[simp] theorem exec_throw (e : ε) (s : σ) :
    exec (throw e : Prog ε σ α) s = (.error e, s) := rfl

@[simp] theorem exec_get (s : σ) : exec (get : Prog ε σ σ) s = (.ok s, s) := rfl

@[simp] theorem exec_set (s t : σ) :
    exec (set t : Prog ε σ PUnit) s = (.ok ⟨⟩, t) := rfl

@[simp] theorem exec_modify (f : σ → σ) (s : σ) :
    exec (modify f : Prog ε σ PUnit) s = (.ok ⟨⟩, f s) := rfl

@[simp] theorem exec_zoom (get : σ → τ) (set : σ → τ → σ) (p : Prog ε τ α)
    (s : σ) :
    exec (zoom get set p) s =
      ((exec p (get s)).1, set s (exec p (get s)).2) := rfl

theorem exec_bind (p : Prog ε σ α) (f : α → Prog ε σ β) (s : σ) :
    exec (p >>= f) s =
      match exec p s with
      | (.ok a, t) => exec (f a) t
      | (.error e, t) => (.error e, t) := by
  simp only [exec, ExceptT.run_bind, StateT.run_bind]
  change (match (p.run).run s with | (r, t) => _) = _
  rcases (p.run).run s with ⟨_ | _, _⟩ <;> rfl

/-- Computations that do the same everywhere are the same. -/
theorem eq_of_exec {p q : Prog ε σ α} (h : ∀ s, exec p s = exec q s) : p = q := funext h

theorem exec_bind_ok {p : Prog ε σ α} {f : α → Prog ε σ β} {s t : σ} {a : α}
    (h : exec p s = (.ok a, t)) : exec (p >>= f) s = exec (f a) t := by
  rw [exec_bind, h]

theorem exec_bind_error {p : Prog ε σ α} {f : α → Prog ε σ β} {s t : σ} {e : ε}
    (h : exec p s = (.error e, t)) : exec (p >>= f) s = (.error e, t) := by
  rw [exec_bind, h]

/-- A sequence that succeeds is two steps that succeed. -/
theorem exec_bind_eq_ok {p : Prog ε σ α} {f : α → Prog ε σ β} {s u : σ} {b : β}
    (h : exec (p >>= f) s = (.ok b, u)) :
    ∃ a t, exec p s = (.ok a, t) ∧ exec (f a) t = (.ok b, u) := by
  rw [exec_bind] at h
  rcases hp : exec p s with ⟨e | a, t⟩
  · rw [hp] at h
    cases h
  · rw [hp] at h
    exact ⟨a, t, rfl, h⟩

theorem exec_eq_of_isOk {p : Prog ε σ PUnit} {s : σ}
    (h : (exec p s).1.isOk = true) : exec p s = (.ok ⟨⟩, (exec p s).2) := by
  rcases hp : exec p s with ⟨_ | _, _⟩
  · rw [hp] at h
    cases h
  · rfl

/-- A list of results fails with the failure of one of them. -/
theorem mapM_eq_error {f : α → Except ε β} {xs : List α} {e : ε}
    (h : xs.mapM f = .error e) : ∃ x ∈ xs, f x = .error e := by
  induction xs with
  | nil => cases h
  | cons x xs ih =>
      rw [List.mapM_cons] at h
      cases hx : f x with
      | error e' =>
          rw [hx] at h
          cases h
          exact ⟨x, by simp, hx⟩
      | ok y =>
          rw [hx] at h
          cases hxs : xs.mapM f with
          | error e' =>
              rw [hxs] at h
              cases h
              obtain ⟨z, hz, hfz⟩ := ih hxs
              exact ⟨z, by simp [hz], hfz⟩
          | ok ys =>
              rw [hxs] at h
              cases h

theorem mapM_eq_ok {f : α → Except ε β} {xs : List α} {ys : List β}
    (h : xs.mapM f = .ok ys) : ∀ x ∈ xs, ∃ y, f x = .ok y := by
  intro x hx
  obtain ⟨before, after, rfl⟩ := List.append_of_mem hx
  cases hfx : f x with
  | ok y => exact ⟨y, rfl⟩
  | error e =>
      rw [List.mapM_append, List.mapM_cons, hfx] at h
      cases hbefore : before.mapM f with
      | ok _ =>
          rw [hbefore] at h
          cases h
      | error _ =>
          rw [hbefore] at h
          cases h

theorem mapM_of_forall_ok {f : α → Except ε β} {g : α → β} {xs : List α}
    (h : ∀ x ∈ xs, f x = .ok (g x)) : xs.mapM f = .ok (xs.map g) := by
  induction xs with
  | nil => rfl
  | cons x xs ih =>
      rw [List.mapM_cons, h x (by simp), ih fun y hy => h y (by simp [hy])]
      rfl

/-- Weakest precondition: started in `s`, the computation either returns in a
state satisfying `Q`, or fails in a state satisfying `E`. -/
def wp (p : Prog ε σ α) (Q : α → σ → Prop) (E : ε → σ → Prop) (s : σ) : Prop :=
  match exec p s with
  | (.ok a, t) => Q a t
  | (.error e, t) => E e t

section Rules

variable {Q : α → σ → Prop} {E : ε → σ → Prop} {s : σ}

@[simp] theorem wp_pure (a : α) : wp (pure a : Prog ε σ α) Q E s ↔ Q a s :=
  Iff.rfl

@[simp] theorem wp_throw (e : ε) : wp (throw e : Prog ε σ α) Q E s ↔ E e s :=
  Iff.rfl

@[simp] theorem wp_get {Q : σ → σ → Prop} :
    wp (get : Prog ε σ σ) Q E s ↔ Q s s := Iff.rfl

@[simp] theorem wp_set {Q : PUnit → σ → Prop} (t : σ) :
    wp (set t : Prog ε σ PUnit) Q E s ↔ Q ⟨⟩ t := Iff.rfl

@[simp] theorem wp_modify {Q : PUnit → σ → Prop} (f : σ → σ) :
    wp (modify f : Prog ε σ PUnit) Q E s ↔ Q ⟨⟩ (f s) := Iff.rfl

@[simp] theorem wp_bind {Q : β → σ → Prop} (p : Prog ε σ α)
    (f : α → Prog ε σ β) :
    wp (p >>= f) Q E s ↔ wp p (fun a t => wp (f a) Q E t) E s := by
  unfold wp
  rw [exec_bind]
  rcases exec p s with ⟨_ | _, _⟩ <;> rfl

@[simp] theorem wp_map {Q : β → σ → Prop} (f : α → β) (p : Prog ε σ α) :
    wp (f <$> p) Q E s ↔ wp p (fun a t => Q (f a) t) E s := by
  rw [map_eq_pure_bind, wp_bind]
  rfl

@[simp] theorem wp_zoom {get : σ → τ} {set : σ → τ → σ} (p : Prog ε τ α) :
    wp (zoom get set p) Q E s ↔
      wp p (fun a t => Q a (set s t)) (fun e t => E e (set s t)) (get s) := by
  unfold wp
  rw [exec_zoom]
  rcases exec p (get s) with ⟨_ | _, _⟩ <;> rfl

theorem wp_ite {c : Prop} [Decidable c] {p q : Prog ε σ α} :
    wp (if c then p else q) Q E s ↔ if c then wp p Q E s else wp q Q E s := by
  split <;> rfl

theorem wp_when {c : Prop} [Decidable c] {p : Prog ε σ Unit} {Q : Unit → σ → Prop} :
    wp (when c p) Q E s ↔ if c then wp p Q E s else Q () s := by
  unfold when
  split <;> rfl

/-- The rule of consequence, which is how the specification of a called
function is used. -/
theorem wp_mono {p : Prog ε σ α} {Q' : α → σ → Prop} {E' : ε → σ → Prop}
    (h : wp p Q' E' s) (hQ : ∀ a t, Q' a t → Q a t)
    (hE : ∀ e t, E' e t → E e t) : wp p Q E s := by
  unfold wp at *
  rcases hp : exec p s with ⟨_ | _, _⟩
  · exact hE _ _ (by simpa only [hp] using h)
  · exact hQ _ _ (by simpa only [hp] using h)

theorem wp_and {p : Prog ε σ α} {Q' : α → σ → Prop} {E' : ε → σ → Prop}
    (h : wp p Q E s) (h' : wp p Q' E' s) :
    wp p (fun a t => Q a t ∧ Q' a t) (fun e t => E e t ∧ E' e t) s := by
  unfold wp at *
  rcases hp : exec p s with ⟨_ | _, _⟩ <;>
    exact ⟨by simpa only [hp] using h, by simpa only [hp] using h'⟩

/-- A specification that says nothing about failures is added to one that does. -/
theorem wp_both {p : Prog ε σ α} {Q' : α → σ → Prop} {E' : ε → σ → Prop}
    (h : wp p Q E s) (h' : wp p Q' E' s) : wp p (fun a t => Q a t ∧ Q' a t) E s :=
  wp_mono (wp_and h h') (fun _ _ ht => ht) fun _ _ ht => ht.1

/-- The outcome itself, as a postcondition. -/
theorem wp_exec (p : Prog ε σ α) (s : σ) :
    wp p (fun a t => exec p s = (.ok a, t)) (fun e t => exec p s = (.error e, t)) s := by
  unfold wp
  rcases exec p s with ⟨_ | _, _⟩ <;> rfl

theorem wp_of_ok {p : Prog ε σ α} {a : α} {t : σ} (h : exec p s = (.ok a, t))
    (hwp : wp p Q E s) : Q a t := by
  simpa only [wp, h] using hwp

theorem wp_of_error {p : Prog ε σ α} {e : ε} {t : σ}
    (h : exec p s = (.error e, t)) (hwp : wp p Q E s) : E e t := by
  simpa only [wp, h] using hwp

/-- What holds of the state that is left, however the computation ends. -/
theorem wp_exec_snd {p : Prog ε σ α} {P : σ → Prop} (h : wp p (fun _ t => P t) (fun _ t => P t) s) :
    P (exec p s).2 := by
  unfold wp at h
  rcases hp : exec p s with ⟨_ | _, t⟩
  all_goals
    rw [hp] at h
    exact h

/-- A first part of which nothing is known, if failures do not matter. -/
theorem wp_skip {Q : β → σ → Prop} {p : Prog ε σ α} {f : α → Prog ε σ β}
    (h : ∀ a t, wp (f a) Q (fun _ _ => True) t) : wp (p >>= f) Q (fun _ _ => True) s := by
  rw [wp_bind]
  exact wp_mono (wp_exec p s) (fun a t _ => h a t) fun _ _ _ => trivial

end Rules

section Loops

variable {f : α → Prog ε σ PUnit} {E : ε → σ → Prop}

/-- The loop rule with an invariant on the elements already visited. -/
theorem wp_forM_prefix {xs : List α} (I : List α → σ → Prop)
    (hstep : ∀ done x rest, xs = done ++ x :: rest → ∀ s, I done s →
      wp (f x) (fun _ t => I (done ++ [x]) t) E s)
    {s : σ} (h : I [] s) : wp (forM xs f) (fun _ t => I xs t) E s := by
  suffices hgen : ∀ rest done, xs = done ++ rest → ∀ s, I done s →
      wp (forM rest f) (fun _ t => I xs t) E s from hgen xs [] rfl s h
  intro rest
  induction rest with
  | nil =>
      intro done hxs s hs
      simpa [hxs] using hs
  | cons x rest ih =>
      intro done hxs s hs
      rw [List.forM_cons, wp_bind]
      refine wp_mono (hstep done x rest hxs s hs) ?_ fun _ _ h => h
      intro _ t ht
      exact ih (done ++ [x]) (by simp [hxs]) t ht

theorem wp_forM {xs : List α} (I : σ → Prop)
    (hstep : ∀ x ∈ xs, ∀ s, I s → wp (f x) (fun _ t => I t) E s)
    {s : σ} (h : I s) : wp (forM xs f) (fun _ t => I t) E s := by
  refine wp_forM_prefix (fun _ t => I t) ?_ h
  intro done x rest hxs s hs
  exact hstep x (by simp [hxs]) s hs

/-- The loop rule with an invariant on the elements already visited and their results. -/
theorem wp_mapM_prefix {β : Type} {g : α → Prog ε σ β} {xs : List α}
    (I : List α → List β → σ → Prop)
    (hstep : ∀ done x rest, xs = done ++ x :: rest → ∀ ys s, I done ys s →
      wp (g x) (fun y t => I (done ++ [x]) (ys ++ [y]) t) E s)
    {s : σ} (h : I [] [] s) : wp (xs.mapM g) (fun ys t => I xs ys t) E s := by
  suffices hgen : ∀ rest done, xs = done ++ rest → ∀ ys s, I done ys s →
      wp (rest.mapM g) (fun zs t => I xs (ys ++ zs) t) E s from hgen xs [] rfl [] s h
  intro rest
  induction rest with
  | nil =>
      intro done hxs ys s hs
      rw [List.mapM_nil, wp_pure, hxs, List.append_nil, List.append_nil]
      exact hs
  | cons x rest ih =>
      intro done hxs ys s hs
      rw [List.mapM_cons, wp_bind]
      refine wp_mono (hstep done x rest hxs ys s hs) ?_ fun _ _ he => he
      intro y t ht
      rw [wp_bind]
      refine wp_mono (ih (done ++ [x]) (by simp [hxs]) (ys ++ [y]) t ht) ?_ fun _ _ he => he
      intro zs u hu
      rw [wp_pure]
      simpa using hu

/-- A loop that meets an element that always fails does not return. -/
theorem wp_mapM_fails {β : Type} {g : α → Prog ε σ β} {x : α} {xs : List α} (hx : x ∈ xs)
    (hfails : ∀ s, wp (g x) (fun _ _ => False) (fun _ _ => True) s) (s : σ) :
    wp (xs.mapM g) (fun _ _ => False) (fun _ _ => True) s := by
  induction xs generalizing s with
  | nil => cases hx
  | cons y ys ih =>
      rw [List.mapM_cons, wp_bind]
      rcases List.mem_cons.mp hx with rfl | hx
      · exact wp_mono (hfails s) (fun _ _ h => h.elim) fun _ _ h => h
      · refine wp_mono (wp_exec (g y) s) ?_ fun _ _ _ => trivial
        intro _ t _
        rw [wp_bind]
        exact wp_mono (ih hx t) (fun _ _ h => h.elim) fun _ _ h => h

theorem forM_flatMap {γ : Type} (xs : List γ) (g : γ → List α) :
    forM xs (fun x => forM (g x) f) = forM (xs.flatMap g) f := by
  induction xs with
  | nil => rfl
  | cons x xs ih => rw [List.forM_cons, List.flatMap_cons, List.forM_append, ih]

end Loops

section Relations

variable {R : σ → σ → Prop} {P : ε → Prop}

/-- However the computation ends, the state it leaves is `R`-related to the
state it was started in; and every failure satisfies `P`. -/
def Steps (R : σ → σ → Prop) (P : ε → Prop) (p : Prog ε σ α) : Prop :=
  ∀ s, wp p (fun _ t => R s t) (fun e t => R s t ∧ P e) s

/-- The same, whatever the failures are. -/
abbrev Moves (R : σ → σ → Prop) (p : Prog ε σ α) : Prop := Steps R (fun _ => True) p

theorem Steps.exec {p : Prog ε σ α} (h : Steps R P p) (s : σ) :
    R s (exec p s).2 := by
  have hs := h s
  unfold wp at hs
  rcases hp : Program.exec p s with ⟨_ | _, _⟩
  · rw [hp] at hs
    exact hs.1
  · rw [hp] at hs
    exact hs

theorem Steps.moves {p : Prog ε σ α} (h : Steps R P p) : Moves R p :=
  fun s => wp_mono (h s) (fun _ _ ht => ht) fun _ _ he => ⟨he.1, trivial⟩

theorem Steps.mono {S : σ → σ → Prop} {p : Prog ε σ α} (h : Steps R P p)
    (hRS : ∀ s t, R s t → S s t) : Steps S P p :=
  fun s => wp_mono (h s) (fun _ t ht => hRS s t ht) fun _ t ht => ⟨hRS s t ht.1, ht.2⟩

theorem steps_modify {f : σ → σ} (h : ∀ s, R s (f s)) :
    Steps R P (modify f : Prog ε σ PUnit) := h

theorem Steps.zoom {get : σ → τ} {set : σ → τ → σ} {S : τ → τ → Prop}
    {p : Prog ε τ α} (h : Steps S P p)
    (hset : ∀ s t, S (get s) t → R s (set s t)) : Steps R P (zoom get set p) := by
  intro s
  rw [wp_zoom]
  exact wp_mono (h (get s)) (fun _ t ht => hset s t ht)
    fun _ t ht => ⟨hset s t ht.1, ht.2⟩

theorem moves_zoom {get : σ → τ} {set : σ → τ → σ} (p : Prog ε τ α)
    (hset : ∀ s t, R s (set s t)) : Moves R (zoom get set p) := by
  intro s
  rw [wp_zoom]
  unfold wp
  rcases Program.exec p (get s) with ⟨_ | _, t⟩
  · exact ⟨hset s t, trivial⟩
  · exact hset s t

/-- A computation that starts by reading the state. -/
theorem steps_get_bind {f : σ → Prog ε σ α}
    (h : ∀ s, wp (f s) (fun _ t => R s t) (fun e t => R s t ∧ P e) s) :
    Steps R P (get >>= f) := h

variable [IsPreorder σ R]

/-- Going on from a state that has been stepped to. -/
theorem Steps.after {p : Prog ε σ α} (hp : Steps R P p) {s t : σ} (hst : R s t) :
    wp p (fun _ u => R s u) (fun e u => R s u ∧ P e) t :=
  wp_mono (hp t) (fun _ _ htu => IsTrans.trans _ _ _ hst htu)
    fun _ _ htu => ⟨IsTrans.trans _ _ _ hst htu.1, htu.2⟩

theorem steps_pure (a : α) : Steps R P (pure a : Prog ε σ α) :=
  fun s => Std.Refl.refl (r := R) s

theorem steps_throw {e : ε} (h : P e) : Steps R P (throw e : Prog ε σ α) :=
  fun s => ⟨Std.Refl.refl (r := R) s, h⟩

theorem steps_get : Steps R P (get : Prog ε σ σ) := fun s => Std.Refl.refl (r := R) s

theorem Steps.bind {p : Prog ε σ α} {f : α → Prog ε σ β} (hp : Steps R P p)
    (hf : ∀ a, Steps R P (f a)) : Steps R P (p >>= f) := by
  intro s
  rw [wp_bind]
  exact wp_mono (hp s) (fun a _ hst => (hf a).after hst) fun _ _ h => h

theorem Steps.when {c : Prop} [Decidable c] {p : Prog ε σ Unit}
    (hp : Steps R P p) : Steps R P (when c p) := by
  unfold Program.when
  split
  · exact hp
  · exact steps_pure _

theorem Steps.mapM {xs : List α} {f : α → Prog ε σ β} (h : ∀ x, Steps R P (f x)) :
    Steps R P (xs.mapM f) := by
  induction xs with
  | nil => exact steps_pure _
  | cons x xs ih =>
      rw [List.mapM_cons]
      exact Steps.bind (h x) fun _ => Steps.bind ih fun _ => steps_pure _

theorem Steps.forM {xs : List α} {f : α → Prog ε σ PUnit}
    (h : ∀ x ∈ xs, Steps R P (f x)) : Steps R P (forM xs f) := by
  intro s
  refine wp_forM (I := R s) (E := fun e t => R s t ∧ P e) ?_ (Std.Refl.refl (r := R) s)
  exact fun x hx t hst => (h x hx).after hst

end Relations

section Invariants

variable {I : σ → Prop} {P : ε → Prop}

/-- The computation keeps an invariant, and while it holds every failure
satisfies `P`. -/
def Preserves (I : σ → Prop) (P : ε → Prop) (p : Prog ε σ α) : Prop :=
  ∀ s, I s → wp p (fun _ t => I t) (fun e t => I t ∧ P e) s

theorem Steps.preserves {R : σ → σ → Prop} {p : Prog ε σ α} (hp : Steps R P p)
    (hI : ∀ s t, I s → R s t → I t) : Preserves I P p := by
  intro s hs
  exact wp_mono (hp s) (fun _ t ht => hI s t hs ht) fun _ t ht => ⟨hI s t hs ht.1, ht.2⟩

theorem preserves_pure (a : α) : Preserves I P (pure a : Prog ε σ α) := fun _ hs => hs

theorem preserves_get : Preserves I P (get : Prog ε σ σ) := fun _ hs => hs

theorem preserves_throw {e : ε} (h : P e) : Preserves I P (throw e : Prog ε σ α) :=
  fun _ hs => ⟨hs, h⟩

theorem Preserves.bind {p : Prog ε σ α} {f : α → Prog ε σ β} (hp : Preserves I P p)
    (hf : ∀ a, Preserves I P (f a)) : Preserves I P (p >>= f) := by
  intro s hs
  rw [wp_bind]
  exact wp_mono (hp s hs) (fun a t ht => hf a t ht) fun _ _ he => he

theorem Preserves.when {c : Prop} [Decidable c] {p : Prog ε σ Unit}
    (hp : Preserves I P p) : Preserves I P (when c p) := by
  unfold Program.when
  split
  · exact hp
  · exact preserves_pure _

theorem preserves_modify {f : σ → σ} (h : ∀ s, I s → I (f s)) :
    Preserves I P (modify f : Prog ε σ PUnit) := h

theorem Preserves.map {p : Prog ε σ α} (hp : Preserves I P p) (f : α → β) :
    Preserves I P (f <$> p) := by
  intro s hs
  rw [wp_map]
  exact hp s hs

theorem Preserves.zoom {J : τ → Prop} {get : σ → τ} {set : σ → τ → σ} {p : Prog ε τ α}
    (hp : Preserves J P p) (hget : ∀ s, I s → J (get s))
    (hset : ∀ s t, I s → J t → I (set s t)) : Preserves I P (zoom get set p) := by
  intro s hs
  rw [wp_zoom]
  exact wp_mono (hp (get s) (hget s hs)) (fun _ t ht => hset s t hs ht)
    fun _ t ht => ⟨hset s t hs ht.1, ht.2⟩

theorem Preserves.mapM {xs : List α} {f : α → Prog ε σ β}
    (h : ∀ x ∈ xs, Preserves I P (f x)) : Preserves I P (xs.mapM f) := by
  induction xs with
  | nil => exact preserves_pure _
  | cons x xs ih =>
      rw [List.mapM_cons]
      refine Preserves.bind (h x (by simp)) fun _ => ?_
      exact Preserves.bind (ih fun y hy => h y (by simp [hy])) fun _ => preserves_pure _

theorem Preserves.forM {xs : List α} {f : α → Prog ε σ PUnit}
    (h : ∀ x ∈ xs, Preserves I P (f x)) : Preserves I P (forM xs f) := by
  intro s hs
  refine wp_forM (I := I) (E := fun e t => I t ∧ P e) ?_ hs
  intro x hx t ht
  exact h x hx t ht

end Invariants

section Changes

variable {N : σ → σ}

/-- The computation does the same after the change `N` of the state as before it. -/
def Ignores (N : σ → σ) (p : Prog ε σ α) : Prop :=
  ∀ s, exec p (N s) = ((exec p s).1, N (exec p s).2)

theorem ignores_pure (a : α) : Ignores N (pure a : Prog ε σ α) := fun _ => rfl

theorem ignores_throw (e : ε) : Ignores N (throw e : Prog ε σ α) := fun _ => rfl

theorem ignores_modify {f : σ → σ} (h : ∀ s, f (N s) = N (f s)) :
    Ignores N (modify f : Prog ε σ PUnit) := fun s => by
  rw [exec_modify, exec_modify, h s]

theorem Ignores.bind {p : Prog ε σ α} {f : α → Prog ε σ β} (hp : Ignores N p)
    (hf : ∀ a, Ignores N (f a)) : Ignores N (p >>= f) := by
  intro s
  rw [exec_bind, exec_bind, hp s]
  rcases exec p s with ⟨e | a, t⟩
  · rfl
  · exact hf a t

/-- What is done after looking at the state must not depend on what the change is to. -/
theorem ignores_get_bind {f : σ → Prog ε σ α} (hsame : ∀ s, f (N s) = f s)
    (hf : ∀ s, Ignores N (f s)) : Ignores N (get >>= f) := by
  intro s
  rw [exec_bind, exec_bind, exec_get, exec_get]
  dsimp only
  rw [hsame s]
  exact hf s s

theorem Ignores.when {c : Prop} [Decidable c] {p : Prog ε σ Unit} (hp : Ignores N p) :
    Ignores N (when c p) := by
  unfold Program.when
  split
  · exact hp
  · exact ignores_pure _

theorem Ignores.forM {xs : List α} {f : α → Prog ε σ PUnit} (h : ∀ x ∈ xs, Ignores N (f x)) :
    Ignores N (forM xs f) := by
  induction xs with
  | nil => exact ignores_pure _
  | cons x xs ih =>
      rw [List.forM_cons]
      exact Ignores.bind (h x (by simp)) fun _ => ih fun y hy => h y (by simp [hy])

theorem Ignores.mapM {xs : List α} {f : α → Prog ε σ β} (h : ∀ x ∈ xs, Ignores N (f x)) :
    Ignores N (xs.mapM f) := by
  induction xs with
  | nil => exact ignores_pure _
  | cons x xs ih =>
      rw [List.mapM_cons]
      refine Ignores.bind (h x (by simp)) fun _ => ?_
      exact Ignores.bind (ih fun y hy => h y (by simp [hy])) fun _ => ignores_pure _

theorem ignores_zoom {get : σ → τ} {set : σ → τ → σ} (p : Prog ε τ α)
    (hget : ∀ s, get (N s) = get s) (hset : ∀ s t, set (N s) t = N (set s t)) :
    Ignores N (zoom get set p) := by
  intro s
  rw [exec_zoom, exec_zoom, hget, hset]

end Changes

end SmsIrc.Program
