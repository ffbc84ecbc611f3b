import Mathlib.Data.List.Basic

/-!
Runs of a transition system given by a partial next-state function: an event
that is not enabled has no next state. All nondeterminism is in the events.
-/

namespace SmsIrc.Transition

variable {σ ι : Type*}

/-- The state after a sequence of events, if each of them was enabled. -/
def run (next : σ → ι → Option σ) : σ → List ι → Option σ
  | s, [] => some s
  | s, e :: es => (next s e).bind fun t => run next t es

@[simp] theorem run_nil (next : σ → ι → Option σ) (s : σ) :
    run next s [] = some s := rfl

@[simp] theorem run_cons (next : σ → ι → Option σ) (s : σ) (e : ι)
    (es : List ι) :
    run next s (e :: es) = (next s e).bind fun t => run next t es := rfl

theorem run_append (next : σ → ι → Option σ) (s : σ) (es fs : List ι) :
    run next s (es ++ fs) = (run next s es).bind fun t => run next t fs := by
  induction es generalizing s with
  | nil => rfl
  | cons e es ih =>
      simp only [List.cons_append, run_cons, ih]
      cases next s e <;> rfl

/-- States that some run reaches. -/
def Reachable (next : σ → ι → Option σ) (s t : σ) : Prop :=
  ∃ es, run next s es = some t

theorem Reachable.refl (next : σ → ι → Option σ) (s : σ) :
    Reachable next s s := ⟨[], rfl⟩

theorem Reachable.tail {next : σ → ι → Option σ} {s t u : σ} {e : ι}
    (h : Reachable next s t) (hstep : next t e = some u) :
    Reachable next s u := by
  obtain ⟨es, hes⟩ := h
  refine ⟨es ++ [e], ?_⟩
  rw [run_append, hes]
  simp [hstep]

/-- Each event of the run satisfies `C` in the state it happens in. -/
def AllSteps (next : σ → ι → Option σ) (C : σ → ι → Prop) :
    σ → List ι → Prop
  | _, [] => True
  | s, e :: es => C s e ∧ ∀ t, next s e = some t → AllSteps next C t es

instance AllSteps.decidable {next : σ → ι → Option σ} {C : σ → ι → Prop}
    [∀ s e, Decidable (C s e)] : ∀ s es, Decidable (AllSteps next C s es)
  | _, [] => .isTrue trivial
  | s, e :: es =>
      match h : next s e with
      | none => decidable_of_iff (C s e) ⟨fun hC => ⟨hC, by simp [h]⟩, fun hC => hC.1⟩
      | some t =>
          have : Decidable (AllSteps next C t es) := AllSteps.decidable t es
          decidable_of_iff (C s e ∧ AllSteps next C t es)
            ⟨fun hC => ⟨hC.1, by simpa [h] using hC.2⟩, fun hC => ⟨hC.1, hC.2 t h⟩⟩

theorem allSteps_cons {next : σ → ι → Option σ} {C : σ → ι → Prop} {s t : σ} {e : ι}
    {es : List ι} (hC : C s e) (ht : next s e = some t) (hes : AllSteps next C t es) :
    AllSteps next C s (e :: es) := by
  refine ⟨hC, ?_⟩
  intro u hu
  rw [ht] at hu
  cases hu
  exact hes

theorem allSteps_of_forall_mem {next : σ → ι → Option σ} {C : σ → ι → Prop}
    {es : List ι} (h : ∀ e ∈ es, ∀ s, C s e) (s : σ) : AllSteps next C s es := by
  induction es generalizing s with
  | nil => trivial
  | cons e es ih =>
      exact ⟨h e (by simp) s, fun t _ => ih (fun f hf => h f (by simp [hf])) t⟩

theorem AllSteps.append {next : σ → ι → Option σ} {C : σ → ι → Prop} {s t : σ} {es fs : List ι}
    (h : AllSteps next C s (es ++ fs)) (hrun : run next s es = some t) :
    AllSteps next C s es ∧ AllSteps next C t fs := by
  induction es generalizing s with
  | nil =>
      cases hrun
      exact ⟨trivial, h⟩
  | cons e es ih =>
      rw [run_cons, Option.bind_eq_some_iff] at hrun
      obtain ⟨u, hu, hrest⟩ := hrun
      obtain ⟨hes, hfs⟩ := ih (h.2 u hu) hrest
      exact ⟨allSteps_cons h.1 hu hes, hfs⟩

/-- The events one by one, each after those before it. -/
theorem allSteps_of_take {next : σ → ι → Option σ} {C : σ → ι → Prop} {s : σ} {es : List ι}
    (h : ∀ k e t, es[k]? = some e → run next s (es.take k) = some t → C t e) :
    AllSteps next C s es := by
  induction es generalizing s with
  | nil => trivial
  | cons e es ih =>
      refine ⟨h 0 e s rfl rfl, fun t ht => ih fun k f u hf hu => h (k + 1) f u hf ?_⟩
      rw [List.take_succ_cons, run_cons, ht]
      exact hu

/-- A property that holds at first and that every step meeting `C` preserves
holds after every run whose steps all meet `C`. -/
theorem invariant_of_allSteps {next : σ → ι → Option σ} {C : σ → ι → Prop}
    {I : σ → Prop}
    (hstep : ∀ s e t, C s e → I s → next s e = some t → I t)
    {s t : σ} {es : List ι} (hC : AllSteps next C s es) (hs : I s)
    (hrun : run next s es = some t) : I t := by
  induction es generalizing s with
  | nil =>
      cases hrun
      exact hs
  | cons e es ih =>
      rw [run_cons, Option.bind_eq_some_iff] at hrun
      obtain ⟨u, hu, hrest⟩ := hrun
      exact ih (hC.2 u hu) (hstep s e u hC.1 hs hu) hrest

theorem invariant {next : σ → ι → Option σ} {I : σ → Prop}
    (hstep : ∀ s e t, I s → next s e = some t → I t)
    {s t : σ} {es : List ι} (hs : I s) (hrun : run next s es = some t) : I t :=
  invariant_of_allSteps (C := fun _ _ => True)
    (fun s e t _ => hstep s e t) (allSteps_of_forall_mem (fun _ _ _ => trivial) s)
    hs hrun

/-- A property of steps follows from another one under an invariant that the latter keeps. -/
theorem AllSteps.imp {next : σ → ι → Option σ} {C D : σ → ι → Prop} {I : σ → Prop}
    (hstep : ∀ s e t, C s e → I s → next s e = some t → I t) (h : ∀ s e, C s e → I s → D s e)
    {s : σ} {es : List ι} (hC : AllSteps next C s es) (hs : I s) : AllSteps next D s es := by
  induction es generalizing s with
  | nil => trivial
  | cons e es ih =>
      exact ⟨h s e hC.1 hs, fun t ht => ih (hC.2 t ht) (hstep s e t hC.1 hs ht)⟩

/-- Two properties of steps that agree wherever an invariant holds. -/
theorem allSteps_congr {next : σ → ι → Option σ} {C D : σ → ι → Prop} {I : σ → Prop}
    (hstep : ∀ s e t, I s → next s e = some t → I t) (h : ∀ s e, I s → (C s e ↔ D s e))
    {s : σ} {es : List ι} (hs : I s) : AllSteps next C s es ↔ AllSteps next D s es := by
  induction es generalizing s with
  | nil => exact Iff.rfl
  | cons e es ih =>
      refine and_congr (h s e hs) (forall_congr' fun t => ?_)
      exact imp_congr_right fun ht => ih (hstep s e t hs ht)

/-- A property that a step meeting `D` keeps exactly if it meets `C`, and that no such
step restores, holds at the end of exactly those runs whose steps all meet `C`. -/
theorem iff_allSteps {next : σ → ι → Option σ} {C D : σ → ι → Prop} {I P : σ → Prop}
    (hstep : ∀ s e t, D s e → I s → next s e = some t → I t ∧ (P t ↔ P s ∧ C s e))
    {s t : σ} {es : List ι} (hD : AllSteps next D s es) (hs : I s)
    (hrun : run next s es = some t) : P t ↔ P s ∧ AllSteps next C s es := by
  induction es generalizing s with
  | nil =>
      cases hrun
      exact ⟨fun h => ⟨h, trivial⟩, fun h => h.1⟩
  | cons e es ih =>
      rw [run_cons, Option.bind_eq_some_iff] at hrun
      obtain ⟨u, hu, hrest⟩ := hrun
      obtain ⟨hIu, hPu⟩ := hstep s e u hD.1 hs hu
      rw [ih (hD.2 u hu) hIu hrest, hPu]
      constructor
      · rintro ⟨⟨hP, hC⟩, hes⟩
        exact ⟨hP, allSteps_cons hC hu hes⟩
      · rintro ⟨hP, hC, hes⟩
        exact ⟨⟨hP, hC⟩, hes u hu⟩

/-- A property that holds at first, and after a step exactly if the step meets `C`, holds
in all states of exactly those runs whose steps all meet `C`. -/
theorem forall_take_iff_allSteps {next : σ → ι → Option σ} {C : σ → ι → Prop} {P : σ → Prop}
    (hstep : ∀ s e t, P s → next s e = some t → (P t ↔ C s e))
    {s t : σ} {es : List ι} (hs : P s) (hrun : run next s es = some t) :
    (∀ k u, run next s (es.take k) = some u → P u) ↔ AllSteps next C s es := by
  induction es generalizing s with
  | nil =>
      refine ⟨fun _ => trivial, fun _ k u hu => ?_⟩
      rw [List.take_nil, run_nil] at hu
      cases hu
      exact hs
  | cons e es ih =>
      rw [run_cons, Option.bind_eq_some_iff] at hrun
      obtain ⟨v, hv, hrest⟩ := hrun
      have htake : ∀ k, run next s ((e :: es).take (k + 1)) = run next v (es.take k) := by
        intro k
        rw [List.take_succ_cons, run_cons, hv]
        rfl
      constructor
      · intro h
        have hPv : P v := h 1 v (by rw [htake, List.take_zero, run_nil])
        exact allSteps_cons ((hstep s e v hs hv).mp hPv) hv
          ((ih hPv hrest).mp fun k u hu => h (k + 1) u ((htake k).trans hu))
      · rintro ⟨hC, hes⟩ k u hu
        have hPv := (hstep s e v hs hv).mpr hC
        cases k with
        | zero =>
            cases hu
            exact hs
        | succ k => exact (ih hPv hrest).mpr (hes v hv) k u ((htake k).symm.trans hu)

end SmsIrc.Transition
