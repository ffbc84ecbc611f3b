import Mathlib.Logic.Function.Iterate
import SmsIrc.LinkNicks

/-!
The loop of `check_nick_for_collisions`, with the index as the 32-bit number that it is: it
ends, at the first suffix that makes the nick free.
-/

namespace SmsIrc.NickSearch

open SmsIrc.External SmsIrc.HashMaps SmsIrc.InspUsers SmsIrc.Link SmsIrc.LinkNicks
open SmsIrc.LinkSteady SmsIrc.Text

/-- The greatest `i32`. -/
def i32Max : Int := 2147483647

/-- How the search stands. -/
inductive Search where
  | trying (idx : Int) (newnick : Str)
  | returned (result : Option Str)
  | overflowed
deriving DecidableEq

/-- One round of `while self.nick_exists(&newnick)`. -/
def round (taken : Str → Bool) (nick : Str) : Search → Search
  | .trying idx newnick =>
      if taken newnick then
        if idx < i32Max then .trying (idx + 1) (nick ++ decimalInt (idx + 1)) else .overflowed
      else .returned (some newnick)
  | .returned result => .returned result
  | .overflowed => .overflowed

section Rounds

variable {taken : Str → Bool} {nick : Str}

theorem rounds_trying {k : Nat} (htaken : ∀ j < k, taken (nick ++ decimal j) = true)
    (hk : (k : Int) ≤ i32Max) :
    (round taken nick)^[k] (.trying 0 (nick ++ decimalInt 0)) =
      .trying k (nick ++ decimal k) := by
  induction k with
  | zero => rfl
  | succ k ih =>
      have hlt : (k : Int) < i32Max := by
        push_cast at hk
        omega
      rw [Function.iterate_succ_apply', ih (fun j hj => htaken j (by omega)) hlt.le, round,
        if_pos (htaken k (by omega)), if_pos hlt]
      rfl

theorem rounds_returned (n : Nat) (result : Option Str) :
    (round taken nick)^[n] (.returned result) = .returned result := by
  induction n with
  | zero => rfl
  | succ n ih => rw [Function.iterate_succ_apply, round, ih]

/-- The first suffix that is free is found in the round after it has been tried. -/
theorem rounds_found {k n : Nat} (htaken : ∀ j < k, taken (nick ++ decimal j) = true)
    (hfree : taken (nick ++ decimal k) = false) (hk : (k : Int) ≤ i32Max) (hn : k < n) :
    (round taken nick)^[n] (.trying 0 (nick ++ decimalInt 0)) =
      .returned (some (nick ++ decimal k)) := by
  obtain ⟨m, rfl⟩ : ∃ m, n = m + 1 + k := ⟨n - k - 1, by omega⟩
  rw [Function.iterate_add_apply, rounds_trying htaken hk, Function.iterate_succ_apply, round,
    hfree, if_neg Bool.false_ne_true, rounds_returned]

end Rounds

section Searches

variable [Crates]

/-- `check_nick_for_collisions` when its loop has been run so many times. -/
def checkNickAfter (l : InspLink) (nick : Str) (rounds : Nat) : Search :=
  (round (nickExists l) nick)^[rounds]
    (if nickExists l nick then .trying 0 (nick ++ decimalInt 0) else .returned none)

/-- A nick that is neither the admin's nor a user's. -/
def Free (l : InspLink) (nick : Str) : Prop :=
  nick ≠ l.cfg.adminNick ∧ ∀ u user, l.users.lookup u = some user → user.nick ≠ nick

theorem free_iff {l : InspLink} {nick : Str} : Free l nick ↔ nickExists l nick = false := by
  unfold Free nickExists
  rw [Bool.or_eq_false_iff, List.any_eq_false, decide_eq_false_iff_not]
  constructor
  · rintro ⟨hadmin, hnicks⟩
    refine ⟨fun u hu hnick => ?_, hadmin⟩
    rw [decide_eq_true_eq] at hnick
    exact hnicks u.1 u.2 (mem_pairs.mp ((Crates.hashOrder.mem_run).mp hu)) hnick
  · rintro ⟨hnicks, hadmin⟩
    refine ⟨hadmin, fun u user huser hnick => ?_⟩
    have hmem : (u, user) ∈ userList l :=
      (Crates.hashOrder.mem_run).mpr (mem_pairs.mpr huser)
    exact hnicks _ hmem (decide_eq_true hnick)

/-- A search that begins ends at a suffix that is free, the first of as many as there are
nicks. -/
theorem exists_suffix {l : InspLink} {nick : Str} (h : nickExists l nick = true) :
    ∃ k ≤ l.users.entries.length + 1, checkNickForCollisions l nick = some (nick ++ decimal k) ∧
      nickExists l (nick ++ decimal k) = false ∧
        ∀ j < k, nickExists l (nick ++ decimal j) = true := by
  have hfree := nickExists_freeNick l nick
  obtain ⟨k, -, hle, heq, hbefore⟩ :=
    exists_freeNick (nickExists l) nick (l.users.entries.length + 1) 0
  rw [heq] at hfree
  refine ⟨k, by omega, ?_, hfree, fun j hj => hbefore j (Nat.zero_le j) hj⟩
  rw [checkNickForCollisions, if_pos h, heq]

/-- The loop neither overflows nor goes on for more rounds than there are nicks. -/
theorem checkNickAfter_of_few {l : InspLink} {nick : Str}
    (hfew : l.users.entries.length < 2 ^ 31 - 1) (n : Nat) :
    checkNickAfter l nick n ≠ .overflowed ∧ (l.users.entries.length + 1 < n →
      checkNickAfter l nick n = .returned (checkNickForCollisions l nick)) := by
  unfold checkNickAfter
  by_cases htaken : nickExists l nick = true
  · obtain ⟨k, hle, hfound, hfree, hbefore⟩ := exists_suffix htaken
    have hk : (k : Int) ≤ i32Max := by
      show (k : Int) ≤ 2147483647
      omega
    rw [if_pos htaken, hfound]
    by_cases hn : k < n
    · rw [rounds_found hbefore hfree hk hn]
      exact ⟨nofun, fun _ => rfl⟩
    · rw [rounds_trying (fun j hj => hbefore j (by omega)) (by omega)]
      exact ⟨nofun, fun hmore => absurd hmore (by omega)⟩
  · have hnone : checkNickForCollisions l nick = none := if_neg htaken
    rw [if_neg htaken, rounds_returned, hnone]
    exact ⟨nofun, fun _ => rfl⟩

/-- The search ends, and finds the nick with the first suffix that makes it free. -/
theorem search_ends {l : InspLink} (hfew : l.users.entries.length < 2 ^ 31 - 1) (nick : Str) :
    ((∀ n, checkNickAfter l nick n ≠ .overflowed) ∧
      ∀ n > l.users.entries.length + 1,
        checkNickAfter l nick n = .returned (checkNickForCollisions l nick)) ∧
    (checkNickForCollisions l nick = none ↔ Free l nick) ∧
    ∀ newnick, checkNickForCollisions l nick = some newnick →
      ∃ k ≤ l.users.entries.length + 1, newnick = nick ++ decimal k ∧ Free l newnick ∧
        ∀ j < k, ¬ Free l (nick ++ decimal j) := by
  refine ⟨⟨fun n => (checkNickAfter_of_few hfew n).1, fun n => (checkNickAfter_of_few hfew n).2⟩,
    ?_, fun newnick hsome => ?_⟩
  · rw [checkNick_eq_none, free_iff]
  · obtain ⟨k, hle, hfound, hfree, hbefore⟩ :=
      exists_suffix (nickExists_of_checkNick_some hsome)
    obtain rfl : nick ++ decimal k = newnick := Option.some.inj (hfound.symm.trans hsome)
    refine ⟨k, hle, rfl, free_iff.mpr hfree, fun j hj hno => ?_⟩
    rw [free_iff, hbefore j hj] at hno
    cases hno

end Searches

section Samples

attribute [local instance] Sample.crates

/-- A link on which a nick is taken, and its first suffix too. -/
def crowdedLink : InspLink :=
  { InspLink.new LinkRuns.sampleConfig Sample.store 0 with
    users := (AList.insert ['u'] (newForControlbot 0 ("bob" : Str) []) ∅).insert ['v']
      (newForControlbot 0 ("bob0" : Str) []) }

theorem search_ends_sample :
    ((∀ n, checkNickAfter crowdedLink ("bob" : Str) n ≠ .overflowed) ∧
      checkNickAfter crowdedLink ("bob" : Str) 4 = .returned (some ("bob1" : Str))) ∧
    ¬ Free crowdedLink ("bob" : Str) ∧ Free crowdedLink ("bob1" : Str) := by
  have hfew : crowdedLink.users.entries.length < 2 ^ 31 - 1 := by decide
  have hfound : checkNickForCollisions crowdedLink ("bob" : Str) = some ("bob1" : Str) := by
    decide
  obtain ⟨⟨hsafe, hends⟩, hnone, hsome⟩ := search_ends hfew ("bob" : Str)
  refine ⟨⟨hsafe, ?_⟩, fun hfree => ?_, ?_⟩
  · rw [hends 4 (by decide), hfound]
  · rw [hnone.mpr hfree] at hfound
    cases hfound
  · obtain ⟨k, -, -, hfree, -⟩ := hsome _ hfound
    exact hfree

end Samples

end SmsIrc.NickSearch
