import SmsIrc.Program
import SmsIrc.Transition

/-!
One system as a part of another: what a part sees of a run is a run of its own, in which
the others are its surroundings. What these do to something that all of them use is a
sequence of operations.
-/

namespace SmsIrc.Simulation

open SmsIrc.Program SmsIrc.Transition

variable {σ τ ι κ : Type*}

theorem AllSteps.trans {next : σ → ι → Option σ} {C : σ → ι → Prop} {s t : σ} {es fs : List ι}
    (hes : AllSteps next C s es) (hrun : run next s es = some t) (hfs : AllSteps next C t fs) :
    AllSteps next C s (es ++ fs) := by
  induction es generalizing s with
  | nil =>
      cases hrun
      exact hfs
  | cons e es ih =>
      rw [run_cons, Option.bind_eq_some_iff] at hrun
      obtain ⟨u, hu, hrest⟩ := hrun
      exact allSteps_cons hes.1 hu (ih (hes.2 u hu) hrest)

/-- A run with steps of one kind. -/
def RunOf (next : σ → ι → Option σ) (C : σ → ι → Prop) (s t : σ) : Prop :=
  ∃ es, AllSteps next C s es ∧ run next s es = some t

theorem RunOf.refl {next : σ → ι → Option σ} {C : σ → ι → Prop} (s : σ) : RunOf next C s s :=
  ⟨[], trivial, rfl⟩

theorem RunOf.single {next : σ → ι → Option σ} {C : σ → ι → Prop} {s t : σ} {e : ι} (he : C s e)
    (h : next s e = some t) : RunOf next C s t :=
  ⟨[e], allSteps_cons he h trivial, by rw [run_cons, h]; rfl⟩

theorem RunOf.trans {next : σ → ι → Option σ} {C : σ → ι → Prop} {s t u : σ}
    (hst : RunOf next C s t) (htu : RunOf next C t u) : RunOf next C s u := by
  obtain ⟨es, hes, hrun⟩ := hst
  obtain ⟨fs, hfs, hrun'⟩ := htu
  refine ⟨es ++ fs, AllSteps.trans hes hrun hfs, ?_⟩
  rw [run_append, hrun]
  exact hrun'

theorem RunOf.reachable {next : σ → ι → Option σ} {C : σ → ι → Prop} {s t : σ}
    (h : RunOf next C s t) : Reachable next s t := by
  obtain ⟨es, -, hes⟩ := h
  exact ⟨es, hes⟩

/-- If each step of a system is, for a part of it, a run of the part, so is each run. -/
theorem runOf_view {next : σ → ι → Option σ} {part : τ → κ → Option τ} {C : σ → ι → Prop}
    {D : τ → κ → Prop} (I : σ → Prop) (view : σ → τ)
    (hstep : ∀ s e t, C s e → I s → next s e = some t →
      I t ∧ RunOf part D (view s) (view t))
    {s t : σ} (hs : I s) (h : RunOf next C s t) : RunOf part D (view s) (view t) := by
  obtain ⟨es, hes, hrun⟩ := h
  induction es generalizing s with
  | nil =>
      cases hrun
      exact .refl _
  | cons e es ih =>
      rw [run_cons, Option.bind_eq_some_iff] at hrun
      obtain ⟨u, hu, hrest⟩ := hrun
      obtain ⟨hI, hview⟩ := hstep s e u hes.1 hs hu
      exact hview.trans (ih hI (hes.2 u hu) hrest)

/-- A state follows from another one by a sequence of operations. -/
def Follows (act : σ → ι → σ) (s t : σ) : Prop := ∃ ops : List ι, ops.foldl act s = t

variable {act : σ → ι → σ}

instance : IsPreorder σ (Follows act) where
  refl _ := ⟨[], rfl⟩
  trans _ _ _ hst htu := by
    obtain ⟨ops, rfl⟩ := hst
    obtain ⟨ops', rfl⟩ := htu
    exact ⟨ops ++ ops', List.foldl_append⟩

/-- What a part of a state is related by. -/
instance isPreorder_invImage {R : τ → τ → Prop} [IsPreorder τ R] (part : σ → τ) :
    IsPreorder σ (InvImage R part) where
  refl s := Std.Refl.refl (r := R) (part s)
  trans _ _ _ hst htu := IsTrans.trans (r := R) _ _ _ hst htu

/-- What follows by operations follows by the steps that stand for them. -/
theorem runOf_follows {part : τ → κ → Option τ} {D : τ → κ → Prop} (put : σ → τ)
    (event : ι → κ) (hstep : ∀ s op, part (put s) (event op) = some (put (act s op)))
    (hD : ∀ s op, D s (event op)) {s t : σ} (h : Follows act s t) :
    RunOf part D (put s) (put t) := by
  obtain ⟨ops, rfl⟩ := h
  induction ops generalizing s with
  | nil => exact .refl _
  | cons op ops ih => exact (RunOf.single (hD _ _) (hstep s op)).trans ih

/-- A computation that leaves what one of the operations leaves. -/
theorem moves_follows {ε α : Type} {σ ι : Type} {ops : ι → Prog ε σ Unit} {p : Prog ε σ α}
    (op : ι) (h : ∀ s, (exec p s).2 = (exec (ops op) s).2) :
    Moves (Follows fun s op => (exec (ops op) s).2) p := by
  intro s
  refine wp_mono (wp_exec p s) (fun a t ht => ?_) fun e t ht => ⟨?_, trivial⟩
  all_goals
    refine ⟨[op], ?_⟩
    rw [List.foldl_cons, List.foldl_nil, ← h s, ht]

/-- More things of a kind have been put into a channel. -/
def Appends {α : Type*} (P : α → Prop) (xs ys : List α) : Prop :=
  ∃ zs, ys = xs ++ zs ∧ ∀ z ∈ zs, P z

instance {α : Type*} (P : α → Prop) : IsPreorder (List α) (Appends P) where
  refl xs := ⟨[], by simp, by simp⟩
  trans xs ys zs hst htu := by
    obtain ⟨as, rfl, has⟩ := hst
    obtain ⟨bs, rfl, hbs⟩ := htu
    refine ⟨as ++ bs, List.append_assoc _ _ _, fun z hz => ?_⟩
    rcases List.mem_append.mp hz with hz | hz
    · exact has z hz
    · exact hbs z hz

theorem appends_single {α : Type*} {P : α → Prop} {x : α} (hx : P x) (xs : List α) :
    Appends P xs (xs ++ [x]) := ⟨[x], rfl, by simpa using hx⟩

/-- What has been put into a channel since. -/
def since {α : Type*} (before after : List α) : List α := after.drop before.length

theorem since_append {α : Type*} (xs ys : List α) : since xs (xs ++ ys) = ys :=
  List.drop_left

@[simp] theorem since_self {α : Type*} (xs : List α) : since xs xs = [] := List.drop_length

theorem Appends.eq_since {α : Type*} {P : α → Prop} {xs ys : List α} (h : Appends P xs ys) :
    ys = xs ++ since xs ys ∧ ∀ z ∈ since xs ys, P z := by
  obtain ⟨zs, rfl, hzs⟩ := h
  rw [since_append]
  exact ⟨rfl, hzs⟩

end SmsIrc.Simulation
