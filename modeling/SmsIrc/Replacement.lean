import Mathlib.Data.List.Forall2
import Mathlib.Data.List.Nodup

/-!
Replacing every match of a pattern in a text, from the left and without overlaps, and what
becomes of delimiters that are replaced in pairs. Nothing here depends on the bridge.
-/

namespace SmsIrc.Replacement

universe u

variable {α : Type u}

/-- What comes of a text when a pattern is replaced wherever it is found, each time after the
last match. `Match m r` says that it matches `m`, and puts `r` in its place. -/
inductive Replaced (Match : List α → List α → Prop) : List α → List α → Prop
  | nil : Replaced Match [] []
  | skip {c : α} {text out : List α}
      (hno : ∀ m r rest, c :: text = m ++ rest → ¬ Match m r) (h : Replaced Match text out) :
      Replaced Match (c :: text) (c :: out)
  | hit {m r text out : List α} (hm : Match m r) (h : Replaced Match text out) :
      Replaced Match (m ++ text) (r ++ out)

/-- What relates the matches to their replacements relates the texts, place by place. -/
theorem Replaced.forall₂ {Match : List α → List α → Prop} {R : α → α → Prop}
    (hrefl : ∀ a, R a a) (hM : ∀ m r, Match m r → List.Forall₂ R m r) {text out : List α}
    (h : Replaced Match text out) : List.Forall₂ R text out := by
  induction h with
  | nil => exact .nil
  | skip hno h ih => exact .cons (hrefl _) ih
  | hit hm h ih => exact List.rel_append (hM _ _ hm) ih

theorem forall₂_trans {R S T : α → α → Prop} (hT : ∀ a b c, R a b → S b c → T a c)
    {xs ys zs : List α} (h : List.Forall₂ R xs ys) (h' : List.Forall₂ S ys zs) :
    List.Forall₂ T xs zs := by
  induction h generalizing zs with
  | nil =>
      cases h'
      exact .nil
  | cons hab h ih =>
      cases h' with
      | cons hbc h' => exact .cons (hT _ _ _ hab hbc) (ih h')

/-- What is at a place of the one list is related to what is there in the other. -/
theorem getElem?_of_forall₂ {β : Type u} {R : α → β → Prop} {xs : List α} {ys : List β}
    (h : List.Forall₂ R xs ys) {i : Nat} {b : β} (hb : ys[i]? = some b) :
    ∃ a, xs[i]? = some a ∧ R a b := by
  induction h generalizing i with
  | nil => cases hb
  | cons hab h ih =>
      cases i with
      | zero =>
          cases hb
          exact ⟨_, rfl, hab⟩
      | succ i => exact ih hb

theorem getElem?_iff_of_forall₂ {R : α → α → Prop} {xs ys : List α} (h : List.Forall₂ R xs ys)
    {c : α} (hc : ∀ a b, R a b → (a = c ↔ b = c)) (i : Nat) :
    xs[i]? = some c ↔ ys[i]? = some c := by
  constructor
  · intro hx
    obtain ⟨b, hb, hab⟩ := getElem?_of_forall₂ (R := flip R) h.flip hx
    rw [hb, (hc c b hab).mp rfl]
  · intro hy
    obtain ⟨a, ha, hab⟩ := getElem?_of_forall₂ h hy
    rw [ha, (hc a c hab).mpr rfl]

/-- A part between two delimiters, in which there is none, gets marks for the delimiters. -/
def Delimited (delim mark : α) (m r : List α) : Prop :=
  ∃ body, body ≠ [] ∧ delim ∉ body ∧ m = delim :: (body ++ [delim]) ∧
    r = mark :: (body ++ [mark])

section Delimiters

variable {delim mark : α}

/-- A text is the same up to its first delimiter. -/
theorem eq_of_append_cons {xs ys rest rest' : List α} (hx : delim ∉ xs) (hy : delim ∉ ys)
    (h : xs ++ delim :: rest = ys ++ delim :: rest') : xs = ys := by
  induction xs generalizing ys with
  | nil =>
      cases ys with
      | nil => rfl
      | cons y ys =>
          obtain rfl : delim = y := (List.cons.inj h).1
          exact absurd List.mem_cons_self hy
  | cons x xs ih =>
      cases ys with
      | nil =>
          obtain rfl : x = delim := (List.cons.inj h).1
          exact absurd List.mem_cons_self hx
      | cons y ys =>
          obtain ⟨rfl, htail⟩ := List.cons.inj h
          rw [ih (List.not_mem_of_not_mem_cons hx) (List.not_mem_of_not_mem_cons hy) htail]

theorem forall₂_delimited {m r : List α} (h : Delimited delim mark m r) :
    List.Forall₂ (fun a b => b = a ∨ a = delim ∧ b = mark) m r := by
  obtain ⟨body, -, -, rfl, rfl⟩ := h
  apply List.Forall₂.cons (.inr ⟨rfl, rfl⟩)
  apply List.rel_append
  · exact List.forall₂_same.mpr fun _ _ => .inl rfl
  · exact .cons (.inr ⟨rfl, rfl⟩) .nil

/-- A match begins with a delimiter, and has another. -/
theorem not_delimited_cons {c : α} {text m r rest : List α} (h : c :: text = m ++ rest)
    (hc : c = delim → delim ∉ text) : ¬ Delimited delim mark m r := by
  rintro ⟨body, -, -, rfl, -⟩
  obtain ⟨rfl, rfl⟩ := List.cons.inj h
  exact hc rfl (by simp)

/-- There is something between the two. -/
theorem not_delimited_cons_cons {text m r rest : List α} (h : delim :: delim :: text = m ++ rest) :
    ¬ Delimited delim mark m r := by
  rintro ⟨body, hne, hbody, rfl, -⟩
  cases body with
  | nil => exact hne rfl
  | cons c body =>
      obtain ⟨rfl, -⟩ := List.cons.inj (List.cons.inj h).2
      exact hbody List.mem_cons_self

/-- What has no delimiter is left as it is. -/
theorem Replaced.append_of_notMem {pre text out : List α} (hpre : delim ∉ pre)
    (h : Replaced (Delimited delim mark) text out) :
    Replaced (Delimited delim mark) (pre ++ text) (pre ++ out) := by
  induction pre with
  | nil => exact h
  | cons c pre ih =>
      rw [List.mem_cons, not_or] at hpre
      apply Replaced.skip
      · intro m r rest heq
        exact not_delimited_cons heq fun hc => absurd hc.symm hpre.1
      · exact ih hpre.2

end Delimiters

/-- The places come two by two; between the two of a pair there is something, but no `c`. -/
def PairsUp (c : α) (text : List α) : List Nat → Prop
  | [] => True
  | [_] => False
  | i :: j :: places =>
      (i + 1 < j ∧ ∀ k, i < k → k < j → text[k]? ≠ some c) ∧ PairsUp c text places

theorem PairsUp.congr {c : α} {text text' : List α}
    (htext : ∀ i : Nat, text[i]? = some c ↔ text'[i]? = some c) :
    ∀ {places : List Nat}, PairsUp c text places → PairsUp c text' places
  | [], _ => trivial
  | [_], h => h
  | _ :: _ :: _, h =>
      ⟨⟨h.1.1, fun k hi hj hk => h.1.2 k hi hj ((htext k).mpr hk)⟩, PairsUp.congr htext h.2⟩

/-- Something is put before the text. -/
theorem PairsUp.shift {c : α} {text : List α} (m : List α) :
    ∀ {places : List Nat}, PairsUp c text places →
      PairsUp c (m ++ text) (places.map (m.length + ·))
  | [], _ => trivial
  | [_], h => h
  | i :: j :: _, h => by
      have hij := h.1.1
      refine ⟨⟨?_, fun k hi hj => ?_⟩, PairsUp.shift m h.2⟩
      · show m.length + i + 1 < m.length + j
        omega
      · dsimp only at hi hj
        rw [List.getElem?_append_right (by omega)]
        exact h.1.2 (k - m.length) (by omega) (by omega)

section Places

variable [DecidableEq α]

/-- The places where a text had `c`, and has no more. -/
def changedAt (c : α) (text out : List α) : List Nat :=
  (List.range text.length).filter fun i => text[i]? = some c ∧ out[i]? ≠ some c

theorem changedAt_self (c : α) (text : List α) : changedAt c text text = [] := by
  apply List.filter_eq_nil_iff.mpr
  intro i _
  simp

theorem changedAt_append {c : α} {m r text out : List α} (hlen : m.length = r.length) :
    changedAt c (m ++ text) (r ++ out) =
      changedAt c m r ++ (changedAt c text out).map (m.length + ·) := by
  unfold changedAt
  rw [List.length_append, List.range_add, List.filter_append, List.filter_map]
  congr 1
  · apply List.filter_congr
    intro i hi
    rw [List.mem_range] at hi
    rw [List.getElem?_append_left hi, List.getElem?_append_left (hlen ▸ hi)]
  · apply congrArg
    apply List.filter_congr
    intro i _
    show decide ((m ++ text)[m.length + i]? = some c ∧ (r ++ out)[m.length + i]? ≠ some c) = _
    rw [List.getElem?_append_right (by omega), List.getElem?_append_right (by omega), ← hlen,
      Nat.add_sub_cancel_left]

theorem changedAt_congr {c : α} {text text' out out' : List α} (hlen : text.length = text'.length)
    (htext : ∀ i : Nat, text[i]? = some c ↔ text'[i]? = some c)
    (hout : ∀ i : Nat, out[i]? = some c ↔ out'[i]? = some c) :
    changedAt c text out = changedAt c text' out' := by
  unfold changedAt
  rw [hlen]
  apply List.filter_congr
  intro i _
  rw [decide_eq_decide, htext, Ne, hout]

theorem changedAt_delimited {delim mark : α} (hmark : mark ≠ delim) (body : List α) :
    changedAt delim (delim :: (body ++ [delim])) (mark :: (body ++ [mark])) =
      [0, body.length + 1] := by
  have hone : changedAt delim [delim] [mark] = [0] := by
    simp [changedAt, hmark]
  have hbody : changedAt delim (body ++ [delim]) (body ++ [mark]) = [body.length] := by
    rw [changedAt_append rfl, changedAt_self, hone]
    rfl
  have hall : changedAt delim ([delim] ++ (body ++ [delim])) ([mark] ++ (body ++ [mark])) = _ :=
    changedAt_append rfl
  rw [hone, hbody] at hall
  rw [Nat.add_comm body.length]
  exact hall

/-- The delimiters that are replaced are those of pairs. -/
theorem Replaced.pairsUp {delim mark : α} (hmark : mark ≠ delim) {text out : List α}
    (h : Replaced (Delimited delim mark) text out) :
    PairsUp delim text (changedAt delim text out) := by
  induction h with
  | nil => exact trivial
  | @skip c text out hno h ih =>
      have hplaces : changedAt delim ([c] ++ text) ([c] ++ out) = _ := changedAt_append rfl
      rw [changedAt_self] at hplaces
      have hshift := ih.shift [c]
      rw [← List.nil_append (List.map _ _), ← hplaces] at hshift
      exact hshift
  | @hit m r text out hm h ih =>
      obtain ⟨body, hne, hbody, rfl, rfl⟩ := hm
      have hpos := List.length_pos_of_ne_nil hne
      rw [changedAt_append (by simp), changedAt_delimited hmark]
      refine ⟨⟨by omega, fun k hi hj hk => ?_⟩, ih.shift _⟩
      obtain ⟨k, rfl⟩ : ∃ i, k = i + 1 := ⟨k - 1, by omega⟩
      rw [List.cons_append, List.getElem?_cons_succ, List.append_assoc,
        List.getElem?_append_left (by omega)] at hk
      exact hbody (List.mem_of_getElem? hk)

end Places

end SmsIrc.Replacement
