import Mathlib.Data.List.Sort
import SmsIrc.Program
import SmsIrc.Text
import SmsIrc.Transition

/-!
`sink_outbox!` of `src/util.rs`: an outbox that is emptied into a sink, which may
refuse a message and give it back.
-/

namespace SmsIrc.Outbox

open SmsIrc.Program SmsIrc.Text SmsIrc.Transition

/-- What `start_send` returns. -/
inductive SinkAnswer where
  | ready
  | notReady
  | failed (e : Str)
deriving DecidableEq

/-- A message, and the number of the push that it comes from, which is not in the
source. -/
structure Pushed (μ : Type) where
  serial : Nat
  msg : μ
deriving DecidableEq

structure Socket (μ : Type) where
  outbox : List (Pushed μ)
  /-- Not in the source: the messages that the sink has accepted. -/
  accepted : List (Pushed μ)
  /-- Not in the source: all messages that were put in the outbox. -/
  pushed : List (Pushed μ)
deriving DecidableEq

variable {μ : Type}

def Socket.new : Socket μ := ⟨[], [], []⟩

/-- The body of the loop of `sink_outbox!`. -/
def sinkOne (answer : Nat → SinkAnswer) (e : Pushed μ × Nat) : Prog Str (Socket μ) Unit :=
  match answer e.2 with
  | .ready => modify fun s => { s with accepted := s.accepted ++ [e.1] }
  | .notReady => modify fun s => { s with outbox := s.outbox ++ [e.1] }
  | .failed err => throw err

/-- `sink_outbox!`; `answer` gives the answers of the sink by the number of the call,
and `complete` that of `poll_complete`. -/
def sinkOutbox (answer : Nat → SinkAnswer) (complete : Except Str Unit) :
    Prog Str (Socket μ) Unit := do
  let s ← get
  set { s with outbox := [] }
  forM s.outbox.zipIdx (sinkOne answer)
  match complete with
  | .ok _ => pure ()
  | .error err => throw err

inductive Event (μ : Type) where
  | push (m : μ)
  | poll (answer : Nat → SinkAnswer) (complete : Except Str Unit)

/-- A socket, and the error that ended its connection, if one has. -/
structure Session (μ : Type) where
  socket : Socket μ
  outcome : Option Str

def push (s : Socket μ) (m : μ) : Socket μ :=
  { s with
    outbox := s.outbox ++ [⟨s.pushed.length, m⟩]
    pushed := s.pushed ++ [⟨s.pushed.length, m⟩] }

def step (s : Session μ) : Event μ → Session μ
  | .push m => { s with socket := push s.socket m }
  | .poll answer complete =>
      { socket := (exec (sinkOutbox answer complete) s.socket).2
        outcome := match (exec (sinkOutbox answer complete) s.socket).1 with
          | .ok _ => none
          | .error err => some err }

def next (s : Session μ) (e : Event μ) : Option (Session μ) :=
  match s.outcome with
  | none => some (step s e)
  | some _ => none

def initial : Session μ := ⟨.new, none⟩

/-- The sink takes each message or gives it back. -/
def InContract : Event μ → Prop
  | .push _ => True
  | .poll answer _ => ∀ i err, answer i ≠ .failed err

/-- The messages that the sink has accepted, followed by those in the outbox, are the
pushed ones in the order of the pushes. -/
def InOrder (s : Socket μ) : Prop := s.accepted ++ s.outbox = s.pushed

/-- The sink that has refused a message accepts no other one of the same poll. -/
def Orderly (s : Session μ) : Event μ → Prop
  | .push _ => True
  | .poll answer _ => ∀ j < s.socket.outbox.length, ∀ i < j,
      answer i = .notReady → answer j = .notReady

/-- The messages of a poll that the sink answers in a given way. -/
def answered (answer : Nat → SinkAnswer) (a : SinkAnswer) (xs : List (Pushed μ × Nat)) :
    List (Pushed μ) :=
  (xs.filter fun e => answer e.2 = a).map Prod.fst

theorem mem_answered {answer : Nat → SinkAnswer} {a : SinkAnswer} {xs : List (Pushed μ)}
    {x : Pushed μ} :
    x ∈ answered answer a xs.zipIdx ↔ ∃ i, xs[i]? = some x ∧ answer i = a := by
  simp only [answered, List.mem_map, List.mem_filter, decide_eq_true_eq, Prod.exists,
    exists_and_right, exists_eq_right, List.mk_mem_zipIdx_iff_getElem?]

theorem sublist_answered (answer : Nat → SinkAnswer) (a : SinkAnswer) (xs : List (Pushed μ)) :
    (answered answer a xs.zipIdx).Sublist xs := by
  have h := (List.filter_sublist (p := fun e : Pushed μ × Nat => answer e.2 = a)
    (l := xs.zipIdx)).map Prod.fst
  rwa [List.zipIdx_map_fst] at h

/-- What a poll leaves of a socket. -/
def polled (answer : Nat → SinkAnswer) (s : Socket μ) : Socket μ :=
  { s with
    accepted := s.accepted ++ answered answer .ready s.outbox.zipIdx
    outbox := answered answer .notReady s.outbox.zipIdx }

/-- The loop, for a sink that takes each message or gives it back. -/
theorem wp_sinkOutbox {answer : Nat → SinkAnswer} (complete : Except Str Unit)
    (hanswer : ∀ i err, answer i ≠ .failed err) (s : Socket μ) :
    wp (sinkOutbox answer complete) (fun _ t => t = polled answer s)
      (fun _ t => t = polled answer s) s := by
  unfold sinkOutbox
  rw [wp_bind, wp_get, wp_bind, wp_set, wp_bind]
  refine wp_mono ( wp_forM_prefix (E := fun _ _ => False) (fun done t => t =
    { s with
      accepted := s.accepted ++ answered answer .ready done
      outbox := answered answer .notReady done }) ?_ ?_) ?_ fun _ _ h => h.elim
  · rintro done x rest - t rfl
    rw [sinkOne]
    cases hx : answer x.2 with
    | ready => simp [answered, hx]
    | notReady => simp [answered, hx]
    | failed err => exact absurd hx (hanswer _ err)
  · simp [answered]
  · rintro _ t rfl
    cases complete with
    | ok _ => rfl
    | error err => rfl

/-- What is known of every socket: nothing was lost or duplicated, and the messages
in the outbox are in the order of the pushes. -/
structure Kept (s : Socket μ) : Prop where
  perm : (s.accepted ++ s.outbox).Perm s.pushed
  outbox : s.outbox.Pairwise fun a b => a.serial < b.serial
  pushed : s.pushed.Pairwise fun a b => a.serial < b.serial
  bound : ∀ x ∈ s.pushed, x.serial < s.pushed.length

theorem Kept.new : Kept (Socket.new : Socket μ) :=
  ⟨.nil, .nil, .nil, by simp [Socket.new]⟩

theorem Kept.outbox_subset {s : Socket μ} (h : Kept s) : ∀ x ∈ s.outbox, x ∈ s.pushed :=
  fun _ hx => h.perm.subset (List.mem_append_right _ hx)

/-- Being in order is being sorted. -/
theorem Kept.ordered_iff {s : Socket μ} (h : Kept s) :
    InOrder s ↔ (s.accepted ++ s.outbox).Pairwise fun a b => a.serial < b.serial := by
  constructor
  · intro heq
    rw [heq]
    exact h.pushed
  · intro hsorted
    exact h.perm.eq_of_pairwise (fun a b _ _ hab hba => absurd hab (Nat.lt_asymm hba))
      hsorted h.pushed

theorem Kept.push {s : Socket μ} (h : Kept s) (m : μ) : Kept (push s m) where
  perm := by
    change (s.accepted ++ (s.outbox ++ [_])).Perm (s.pushed ++ [_])
    rw [← List.append_assoc]
    exact h.perm.append_right _
  outbox := by
    refine List.pairwise_append.mpr ⟨h.outbox, List.pairwise_singleton _ _, ?_⟩
    intro x hx y hy
    rw [List.mem_singleton.mp hy]
    exact h.bound x (h.outbox_subset x hx)
  pushed := by
    refine List.pairwise_append.mpr ⟨h.pushed, List.pairwise_singleton _ _, ?_⟩
    intro x hx y hy
    rw [List.mem_singleton.mp hy]
    exact h.bound x hx
  bound := by
    intro x hx
    change x.serial < (s.pushed ++ [_]).length
    rw [List.length_append, List.length_singleton]
    rcases List.mem_append.mp hx with hx | hx
    · exact Nat.lt_succ_of_lt (h.bound x hx)
    · rw [List.mem_singleton.mp hx]
      exact Nat.lt_succ_self _

/-- Each message of the outbox is answered in one of the two ways. -/
theorem answered_perm {answer : Nat → SinkAnswer} (hanswer : ∀ i err, answer i ≠ .failed err)
    (xs : List (Pushed μ)) :
    (answered answer .ready xs.zipIdx ++ answered answer .notReady xs.zipIdx).Perm xs := by
  have hnot : ∀ i, decide (answer i = .notReady) = !decide (answer i = .ready) := by
    intro i
    cases hi : answer i with
    | ready => decide
    | notReady => decide
    | failed err => exact absurd hi (hanswer i err)
  have h := (List.filter_append_perm (fun e : Pushed μ × Nat => decide (answer e.2 = .ready))
    xs.zipIdx).map Prod.fst
  rw [List.map_append, List.zipIdx_map_fst] at h
  simpa only [answered, hnot] using h

theorem Kept.polled {s : Socket μ} (h : Kept s) {answer : Nat → SinkAnswer}
    (hanswer : ∀ i err, answer i ≠ .failed err) : Kept (polled answer s) where
  perm := by
    refine List.Perm.trans ?_ h.perm
    change ((s.accepted ++ answered answer .ready s.outbox.zipIdx) ++ _).Perm _
    rw [List.append_assoc]
    exact (answered_perm hanswer s.outbox).append_left _
  outbox := h.outbox.sublist (sublist_answered _ _ _)
  pushed := h.pushed
  bound := h.bound

theorem Kept.inOrder_push {s : Socket μ} (m : μ) :
    InOrder (Outbox.push s m) ↔ InOrder s := by
  change s.accepted ++ (s.outbox ++ [_]) = s.pushed ++ [_] ↔ _
  rw [← List.append_assoc, List.append_cancel_right_eq]
  rfl

/-- A poll keeps the order if and only if it is orderly. -/
theorem Kept.inOrder_polled {s : Socket μ} (h : Kept s) {answer : Nat → SinkAnswer}
    (hanswer : ∀ i err, answer i ≠ .failed err) :
    InOrder (Outbox.polled answer s) ↔ InOrder s ∧ ∀ j < s.outbox.length, ∀ i < j,
      answer i = .notReady → answer j = .notReady := by
  rw [(h.polled hanswer).ordered_iff, h.ordered_iff]
  change ((s.accepted ++ answered answer .ready s.outbox.zipIdx) ++
    answered answer .notReady s.outbox.zipIdx).Pairwise _ ↔ _
  rw [List.append_assoc, List.pairwise_append, iff_comm, List.pairwise_append, iff_comm]
  have hmem : ∀ x, x ∈ answered answer .ready s.outbox.zipIdx ++
      answered answer .notReady s.outbox.zipIdx ↔ x ∈ s.outbox :=
    fun x => (answered_perm hanswer s.outbox).mem_iff
  constructor
  · rintro ⟨haccepted, hparts, hacross⟩
    refine ⟨⟨haccepted, h.outbox, fun a ha b hb => hacross a ha b ((hmem b).mpr hb)⟩, ?_⟩
    intro j hj i hij hi
    by_contra hready
    have hj' : answer j = .ready := by
      cases hans : answer j with
      | ready => rfl
      | notReady => exact absurd hans hready
      | failed err => exact absurd hans (hanswer j err)
    have hx := mem_answered.mpr ⟨j, List.getElem?_eq_getElem hj, hj'⟩
    have hy := mem_answered.mpr ⟨i, List.getElem?_eq_getElem (hij.trans hj), hi⟩
    have hlt := (List.pairwise_append.mp hparts).2.2 _ hx _ hy
    have hgt := List.pairwise_iff_getElem.mp h.outbox i j (hij.trans hj) hj hij
    omega
  · rintro ⟨⟨haccepted, -, hacross⟩, horderly⟩
    refine ⟨haccepted, List.pairwise_append.mpr ⟨h.outbox.sublist (sublist_answered _ _ _),
      h.outbox.sublist (sublist_answered _ _ _), ?_⟩,
      fun a ha b hb => hacross a ha b ((hmem b).mp hb)⟩
    intro x hx y hy
    obtain ⟨j, hj, hready⟩ := mem_answered.mp hx
    obtain ⟨i, hi, hrefused⟩ := mem_answered.mp hy
    obtain ⟨hjlt, rfl⟩ := List.getElem?_eq_some_iff.mp hj
    obtain ⟨hilt, rfl⟩ := List.getElem?_eq_some_iff.mp hi
    apply List.pairwise_iff_getElem.mp h.outbox j i hjlt hilt
    by_contra hle
    have hij : i < j := by
      rcases Nat.lt_or_eq_of_le (Nat.le_of_not_lt hle) with hlt | rfl
      · exact hlt
      · rw [hready] at hrefused
        cases hrefused
    have := horderly j hjlt i hij hrefused
    rw [hready] at this
    cases this

theorem next_eq_some {s t : Session μ} {e : Event μ} (h : next s e = some t) : t = step s e := by
  unfold next at h
  split at h
  · cases h
    rfl
  · cases h

/-- A step of a sink that meets the contract. -/
theorem step_polled {answer : Nat → SinkAnswer} (complete : Except Str Unit) (s : Session μ)
    (hanswer : ∀ i err, answer i ≠ .failed err) :
    (step s (.poll answer complete)).socket = polled answer s.socket := by
  have h := wp_sinkOutbox complete hanswer s.socket
  unfold wp at h
  change (exec (sinkOutbox answer complete) s.socket).2 = _
  rcases hp : exec (sinkOutbox answer complete) s.socket with ⟨_ | _, t⟩
  · rw [hp] at h
    exact h
  · rw [hp] at h
    exact h

theorem kept_step {s : Session μ} {e : Event μ} (he : InContract e) (hs : Kept s.socket) :
    Kept (step s e).socket ∧
      (InOrder (step s e).socket ↔ InOrder s.socket ∧ Orderly s e) := by
  cases e with
  | push m => exact ⟨hs.push m, (Kept.inOrder_push m).trans (and_iff_left trivial).symm⟩
  | poll answer complete =>
      rw [step_polled complete s he]
      exact ⟨hs.polled he, hs.inOrder_polled he⟩

/-- For a sink that takes each message or gives it back, the messages stay in the
order of the pushes exactly if no poll accepts one after a refusal. -/
theorem inOrder_iff {es : List (Event μ)} {t : Session μ} (hes : ∀ e ∈ es, InContract e)
    (hrun : run next initial es = some t) :
    InOrder t.socket ↔ AllSteps next Orderly initial es := by
  have hiff := iff_allSteps (D := fun _ e => InContract e) (I := fun s => Kept s.socket)
    (P := fun s => InOrder s.socket) (C := Orderly) ?_
    (allSteps_of_forall_mem (fun e he _ => hes e he) _) Kept.new hrun
  · exact hiff.trans (and_iff_right rfl)
  · intro s e u he hs hu
    rw [next_eq_some hu]
    exact kept_step he hs

section Samples

def refuseFirst (i : Nat) : SinkAnswer := if i = 0 then .notReady else .ready

/-- A user is introduced and joins a channel; the sink refuses only the first line. -/
def overtaking : List (Event Str) :=
  [.push ("UID" : Str), .push ("JOIN" : Str), .poll refuseFirst (.ok ())]

theorem inContract_overtaking : ∀ e ∈ overtaking, InContract e := by
  have hanswer : ∀ i err, refuseFirst i ≠ .failed err := by
    intro i err
    unfold refuseFirst
    split <;> simp
  simpa [overtaking, InContract] using hanswer

def overtaken : Session Str :=
  (run next initial overtaking).get (by decide)

theorem inOrder_iff_overtaking :
    InOrder overtaken.socket ↔ AllSteps next Orderly initial overtaking :=
  inOrder_iff inContract_overtaking (Option.some_get _).symm

/-- The message that the sink has accepted was pushed after the one that waits. -/
theorem overtaken_messages : ¬ ∀ (es : List (Event Str)) (t : Session Str),
    (∀ e ∈ es, InContract e) → run next initial es = some t →
      (t.socket.accepted ++ t.socket.outbox).map Pushed.msg =
        t.socket.pushed.map Pushed.msg := by
  intro h
  exact absurd (h overtaking overtaken inContract_overtaking (Option.some_get _).symm)
    (by decide)

end Samples

end SmsIrc.Outbox
