import SmsIrc.LinkAgreement

/-!
The nicks that ghosts are given: where they clash with those of other users,
and what becomes of a change of nick that is asked for again.
-/

namespace SmsIrc.LinkNicks

open SmsIrc.Comm SmsIrc.ContactCommon SmsIrc.Database SmsIrc.External SmsIrc.HashMaps
open SmsIrc.InspUsers SmsIrc.Link SmsIrc.LinkAgreement SmsIrc.LinkEffects SmsIrc.LinkGhosts
open SmsIrc.LinkRuns SmsIrc.LinkSteady SmsIrc.Models SmsIrc.Program SmsIrc.SenderCommon
open SmsIrc.Text SmsIrc.Transition SmsIrc.Util

/-- The server takes two nicks for the same. -/
def SameNick (m n : Str) : Prop := m.map Char.toLower = n.map Char.toLower

instance (m n : Str) : Decidable (SameNick m n) := inferInstanceAs (Decidable (_ = _))

/-- The nicks that are tried for a wanted one, in turn. -/
def candidate (nick : Str) : Nat → Str
  | 0 => nick
  | k + 1 => nick ++ decimal k

/-- The first of them that is not taken. -/
def FirstFree (taken : Str → Bool) (nick n : Str) : Prop :=
  ∃ k, n = candidate nick k ∧ taken n = false ∧ ∀ j < k, taken (candidate nick j) = true

theorem FirstFree.eq {taken : Str → Bool} {nick m n : Str} (hm : FirstFree taken nick m)
    (hn : FirstFree taken nick n) : m = n := by
  obtain ⟨i, rfl, hi, hbefore⟩ := hm
  obtain ⟨k, rfl, hk, hbefore'⟩ := hn
  rcases Nat.lt_trichotomy i k with hlt | rfl | hlt
  · rw [hbefore' i hlt] at hi
    cases hi
  · rfl
  · rw [hbefore k hlt] at hk
    cases hk

theorem exists_freeNick (taken : Str → Bool) (nick : Str) (fuel idx : Nat) :
    ∃ k, idx ≤ k ∧ k ≤ idx + fuel ∧ freeNick taken nick fuel idx = nick ++ decimal k ∧
      ∀ j, idx ≤ j → j < k → taken (nick ++ decimal j) = true := by
  induction fuel generalizing idx with
  | zero => exact ⟨idx, le_rfl, le_rfl, rfl, fun j hle hlt => absurd hlt (by omega)⟩
  | succ fuel ih =>
      rw [freeNick]
      split
      · rename_i htaken
        obtain ⟨k, hle, hge, heq, hbefore⟩ := ih (idx + 1)
        refine ⟨k, by omega, by omega, heq, fun j hj hlt => ?_⟩
        rcases Nat.eq_or_lt_of_le hj with rfl | hj
        · exact htaken
        · exact hbefore j hj hlt
      · exact ⟨idx, le_rfl, by omega, rfl, fun j hle hlt => absurd hlt (by omega)⟩

section Nicks

variable [Crates]

/-- The nick that a ghost gets if it wants one. -/
def givenNick (l : InspLink) (nick : Str) : Str := (checkNickForCollisions l nick).getD nick

theorem firstFree_givenNick (l : InspLink) (nick : Str) :
    FirstFree (nickExists l) nick (givenNick l nick) := by
  unfold givenNick checkNickForCollisions
  split
  · rename_i htaken
    obtain ⟨k, -, -, heq, hbefore⟩ :=
      exists_freeNick (nickExists l) nick (l.users.entries.length + 1) 0
    refine ⟨k + 1, heq, nickExists_freeNick l nick, fun j hj => ?_⟩
    cases j with
    | zero => exact htaken
    | succ j => exact hbefore j (Nat.zero_le j) (by omega)
  · rename_i hfree
    exact ⟨0, rfl, Bool.eq_false_iff.mpr hfree, fun j hj => absurd hj (by omega)⟩

/-- A nick that is the admin's, or that of a user other than the one with UUID `u`. -/
def HeldByOther (l : InspLink) (u n : Str) : Prop :=
  n = l.cfg.adminNick ∨ ∃ v user, v ≠ u ∧ l.users.lookup v = some user ∧ user.nick = n

/-- The server has the nick for taken. -/
def Clashes (l : InspLink) (u n : Str) : Prop := ∃ m, HeldByOther l u m ∧ SameNick m n

/-- The nick is another one in other letter case. -/
def Recased (l : InspLink) (u n : Str) : Prop := ∃ m, HeldByOther l u m ∧ m ≠ n ∧ SameNick m n

theorem nickExists_of_heldByOther {l : InspLink} {u n : Str} (h : HeldByOther l u n) :
    nickExists l n = true := by
  simp only [nickExists, Bool.or_eq_true, List.any_eq_true, decide_eq_true_eq]
  rcases h with rfl | ⟨v, user, -, huser, rfl⟩
  · exact .inr rfl
  · exact .inl ⟨(v, user), (Crates.hashOrder.mem_run).mpr (mem_pairs.mpr huser), rfl⟩

/-- A nick that no one has letter by letter clashes only with its recasings. -/
theorem clashes_iff_recased {l : InspLink} {u n : Str} (hfree : nickExists l n = false) :
    Clashes l u n ↔ Recased l u n := by
  refine ⟨fun ⟨m, hm, hsame⟩ => ⟨m, hm, ?_, hsame⟩, fun ⟨m, hm, _, hsame⟩ => ⟨m, hm, hsame⟩⟩
  rintro rfl
  rw [nickExists_of_heldByOther hm] at hfree
  cases hfree

theorem heldByOther_congr {s t : InspLink} {u : Str} (hcfg : t.cfg = s.cfg)
    (husers : ∀ v, v ≠ u → t.users.lookup v = s.users.lookup v) (n : Str) :
    HeldByOther t u n ↔ HeldByOther s u n := by
  unfold HeldByOther
  rw [hcfg]
  refine or_congr_right (exists_congr fun v => exists_congr fun user => ?_)
  exact and_congr_right fun hv => by rw [husers v hv]

/-- Lines that give no nick have been sent. -/
def Unnamed (s t : InspLink) : Prop :=
  t.cfg = s.cfg ∧ t.users = s.users ∧
    ∃ ms, t.outbox = s.outbox ++ ms ∧ ∀ m ∈ ms, ∀ v, nickSaid v m = none

instance : IsPreorder InspLink Unnamed where
  refl _ := ⟨rfl, rfl, [], (List.append_nil _).symm, fun m hm => by cases hm⟩
  trans _ _ _ := by
    rintro ⟨hcfg, husers, ms, hms, hnone⟩ ⟨hcfg', husers', ns, hns, hnone'⟩
    refine ⟨hcfg'.trans hcfg, husers'.trans husers, ms ++ ns, by rw [hns, hms, List.append_assoc],
      fun m hm => ?_⟩
    rcases List.mem_append.mp hm with hm | hm
    · exact hnone m hm
    · exact hnone' m hm

/-- The user with UUID `u` has been given the nick `n`, and no other user any. -/
def Named (u n : Str) (s t : InspLink) : Prop :=
  t.cfg = s.cfg ∧ (∀ v, v ≠ u → t.users.lookup v = s.users.lookup v) ∧
    ∃ line ms, t.outbox = s.outbox ++ line :: ms ∧ nickSaid u line = some n ∧
      (∀ v, v ≠ u → nickSaid v line = none) ∧ ∀ m ∈ ms, ∀ v, nickSaid v m = none

/-- No nick that the handler gives clashes. -/
def GivesFree (p : LinkM Unit) (l : InspLink) : Prop :=
  ∀ m ∈ (exec p l).2.outbox.drop l.outbox.length, ∀ u n, nickSaid u m = some n →
    ¬ Clashes (exec p l).2 u n

theorem givesFree_of_unnamed {p : LinkM Unit} {l : InspLink} (h : Unnamed l (exec p l).2) :
    GivesFree p l := by
  obtain ⟨-, -, ms, hms, hnone⟩ := h
  intro m hm u n hsaid
  rw [hms, List.drop_left] at hm
  rw [hnone m hm u] at hsaid
  cases hsaid

theorem givesFree_of_named {p : LinkM Unit} {l : InspLink} {u n : Str}
    (h : Named u n l (exec p l).2) : GivesFree p l ↔ ¬ Clashes l u n := by
  obtain ⟨hcfg, husers, line, ms, hms, hline, hothers, hnone⟩ := h
  have hsame : Clashes (exec p l).2 u n ↔ Clashes l u n :=
    exists_congr fun m => and_congr_left fun _ => heldByOther_congr hcfg husers m
  unfold GivesFree
  rw [hms, List.drop_left]
  constructor
  · intro hfree
    rw [← hsame]
    exact hfree line List.mem_cons_self u n hline
  · intro hclash m hm v n' hsaid
    rcases List.mem_cons.mp hm with rfl | hm
    · by_cases hv : v = u
      · subst hv
        rw [hline] at hsaid
        cases hsaid
        rwa [hsame]
      · rw [hothers v hv] at hsaid
        cases hsaid
    · rw [hnone m hm v] at hsaid
      cases hsaid

theorem unnamed_push (u : Str) (cmd : String) (hcmd : cmd ∉ ["UID", "NICK", "FHOST"])
    (args : List Str) (suffix : Option Str) : Moves Unnamed (push u cmd args suffix) := by
  refine steps_modify fun l => ⟨rfl, rfl, _, rfl, fun m hm v => ?_⟩
  rw [List.mem_singleton.mp hm]
  exact (word_none cmd hcmd v).1

theorem unnamed_of_eq {s t : InspLink} (hcfg : t.cfg = s.cfg) (husers : t.users = s.users)
    (hout : t.outbox = s.outbox) : Unnamed s t :=
  ⟨hcfg, husers, [], by rw [hout, List.append_nil], fun m hm => by cases hm⟩

theorem unnamed_processGroupsForRecipient (a : PduAddress) :
    Moves Unnamed (processGroupsForRecipient a) := by
  refine Steps.bind steps_get fun l => Steps.bind ?_ fun ct => Steps.bind ?_ fun grps => ?_
  · cases l.contacts.lookup a with
    | some ct => exact steps_pure ct
    | none => exact steps_throw trivial
  · exact moves_zoom _ fun _ _ => unnamed_of_eq rfl rfl rfl
  · refine Steps.bind (Steps.forM fun grp _ => ?_) fun _ => ?_
    · refine Steps.bind (unnamed_push _ "JOIN" (by decide) _ _) fun _ => ?_
      exact steps_modify fun _ => unnamed_of_eq rfl rfl rfl
    refine Steps.bind (Steps.when (unnamed_push _ "JOIN" (by decide) _ _)) fun _ => ?_
    refine Steps.bind (Steps.forM fun ch _ => ?_) fun _ => ?_
    · exact Steps.when (unnamed_push _ "PART" (by decide) _ _)
    exact steps_modify fun _ => unnamed_of_eq rfl rfl rfl

theorem Named.after {u n : Str} {s t v : InspLink} (h : Named u n s t) (htv : Unnamed t v) :
    Named u n s v := by
  obtain ⟨hcfg, husers, line, ms, hms, hline, hothers, hnone⟩ := h
  obtain ⟨hcfg', husers', ns, hns, hnone'⟩ := htv
  refine ⟨hcfg'.trans hcfg, fun w hw => by rw [husers', husers w hw], line, ms ++ ns, ?_, hline,
    hothers, fun m hm => ?_⟩
  · rw [hns, hms, List.append_assoc, List.cons_append]
  · rcases List.mem_append.mp hm with hm | hm
    · exact hnone m hm
    · exact hnone' m hm

/-- A ghost cannot be introduced: there is no UUID left for it, or its nick cannot be
stored. -/
def Unable (l : InspLink) (nick : Str) : Prop :=
  99999 < l.nextUserId ∨ nickExists l nick = true ∧ l.store.dbDown l.store.queries = true

theorem checkNick_eq_none {l : InspLink} {nick : Str} :
    checkNickForCollisions l nick = none ↔ nickExists l nick = false := by
  unfold checkNickForCollisions
  split
  · rename_i htaken
    rw [htaken]
    exact ⟨fun h => (by cases h), fun h => (by cases h)⟩
  · rename_i hfree
    exact ⟨fun _ => Bool.eq_false_iff.mpr hfree, fun _ => rfl⟩

theorem nickExists_of_checkNick_some {l : InspLink} {nick n : Str}
    (h : checkNickForCollisions l nick = some n) : nickExists l nick = true := by
  rw [← Bool.not_eq_false, ← checkNick_eq_none, h]
  exact fun h => by cases h

/-- The nick of a new ghost has been stored where it is not the wanted one. -/
theorem wp_nickFor_given (recip : Recipient) (a : PduAddress) (l : InspLink) :
    wp (nickFor recip a)
      (fun nick t => nick = givenNick l recip.nick ∧ (∃ st, t = { l with store := st }) ∧
        ¬ (nickExists l recip.nick = true ∧ l.store.dbDown l.store.queries = true))
      (fun _ t => (∃ st, t = { l with store := st }) ∧
        nickExists l recip.nick = true ∧ l.store.dbDown l.store.queries = true) l := by
  rw [nickFor, wp_bind, wp_get]
  unfold givenNick
  cases hc : checkNickForCollisions l recip.nick with
  | none =>
      refine ⟨rfl, ⟨l.store, rfl⟩, ?_⟩
      rw [checkNick_eq_none.mp hc]
      exact fun h => absurd h.1 (by decide)
  | some n =>
      have htaken := nickExists_of_checkNick_some hc
      dsimp only
      rw [wp_bind, wp_store, updateRecipientNick, updateRecipient, wp_execute]
      split
      · rename_i hdown
        exact ⟨⟨_, rfl⟩, htaken, hdown⟩
      · rename_i hdown
        exact ⟨rfl, ⟨_, rfl⟩, fun h => hdown h.2⟩

theorem wp_setupContactFor_named (recip : Recipient) (a : PduAddress) (l : InspLink) :
    wp (setupContactFor recip a)
      (fun _ t => ¬ Unable l recip.nick ∧
        Named (uuidOf l.cfg.sid l.nextUserId) (givenNick l recip.nick) l t)
      (fun _ t => (Unable l recip.nick ∧ Unnamed l t) ∨ (¬ Unable l recip.nick ∧
        Named (uuidOf l.cfg.sid l.nextUserId) (givenNick l recip.nick) l t)) l := by
  rw [setupContactFor, wp_bind]
  refine wp_mono (wp_nickFor_given recip a l) ?_ ?_
  swap
  · rintro _ _ ⟨⟨st, rfl⟩, hdown⟩
    exact .inl ⟨.inr hdown, unnamed_of_eq rfl rfl rfl⟩
  rintro _ _ ⟨rfl, ⟨st, rfl⟩, hup⟩
  rw [wp_bind, wp_get, wp_bind, newUser, wp_bind, getUuid, wp_bind, wp_get]
  split
  · rename_i hid
    exact .inl ⟨.inl hid, unnamed_of_eq rfl rfl rfl⟩
  rename_i hid
  have hable : ¬ Unable l recip.nick := fun h => h.elim hid hup
  rw [wp_bind, wp_set, wp_pure, wp_bind, insertUser, wp_modify, wp_bind, makeUidLine, wp_bind,
    wp_get]
  dsimp only
  rw [AList.lookup_insert]
  dsimp only
  rw [wp_pure, wp_bind, send, wp_modify, wp_pure, wp_bind, addContact, wp_modify, wp_when]
  have hnamed : Named (uuidOf l.cfg.sid l.nextUserId) (givenNick l recip.nick) l
      (introduced { l with store := st } a (givenNick l recip.nick) recip.whatsapp) := by
    refine ⟨rfl, fun v hv => AList.lookup_insert_ne hv, _, [], rfl, ?_, fun v hv => ?_,
      fun m hm => by cases hm⟩
    · exact (uidLine_said _ _ _).1
    · exact (uidLine_none (Ne.symm hv)).1
  split
  · refine wp_mono (unnamed_processGroupsForRecipient a _) ?_ ?_
    · exact fun _ t ht => ⟨hable, hnamed.after ht⟩
    · exact fun _ t ht => .inr ⟨hable, hnamed.after ht.1⟩
  · exact ⟨hable, hnamed⟩

/-- The source of the nick that a ghost gets if it wants one. -/
def givenSource (l : InspLink) (nick : Str) (src : Int) : Int :=
  if nickExists l nick then nicksrcCollision else src

/-- A ghost that has another nick gets a new one, even if the database fails then. -/
theorem wp_changeNick_given {a : PduAddress} {ct : InspContact} {user : InspUser} {st : Str}
    {l : InspLink} (src : Int) (huser : l.users.lookup ct.uuid = some user)
    (hne : user.nick ≠ st) :
    wp (changeNick a ct st src)
      (fun _ t => l.store.dbDown l.store.queries = false ∧
        t = { renamed l ct user (givenNick l st) with
          store := nickChanged l.store.tick a (givenNick l st) (givenSource l st src) })
      (fun _ t => l.store.dbDown l.store.queries = true ∧
        t = { renamed l ct user (givenNick l st) with store := l.store.tick }) l := by
  have hrename : ∀ nick nsrc, wp (do
        insertUser ct.uuid { user with nick := nick }
        push ct.uuid "NICK" [nick, decimalInt (timestamp l.now)] none
        store (updateRecipientNick a nick nsrc))
      (fun _ t => l.store.dbDown l.store.queries = false ∧
        t = { renamed l ct user nick with store := nickChanged l.store.tick a nick nsrc })
      (fun _ t => l.store.dbDown l.store.queries = true ∧
        t = { renamed l ct user nick with store := l.store.tick }) l := by
    intro nick nsrc
    rw [wp_bind, insertUser, wp_modify, wp_bind, push, wp_modify, wp_store, updateRecipientNick,
      updateRecipient, wp_execute]
    split
    · rename_i hdown
      exact ⟨hdown, rfl⟩
    · rename_i hup
      exact ⟨Bool.eq_false_iff.mpr hup, rfl⟩
  rw [changeNick, wp_bind, wp_get]
  dsimp only
  rw [huser, wp_bind, wp_unwrap_some, if_neg hne]
  unfold givenNick givenSource
  cases hc : checkNickForCollisions l st with
  | some n =>
      rw [if_pos (nickExists_of_checkNick_some hc)]
      exact hrename n _
  | none =>
      rw [checkNick_eq_none.mp hc, if_neg Bool.false_ne_true]
      exact hrename st _

theorem named_renamed {l : InspLink} {ct : InspContact} {user : InspUser} (n : Str) (st : Store) :
    Named ct.uuid n l { renamed l ct user n with store := st } := by
  refine ⟨rfl, fun v hv => AList.lookup_insert_ne hv, _, [], rfl, ?_, fun v hv => ?_,
    fun m hm => by cases hm⟩
  · exact (nickLine_said _ _ _).1
  · have hne : some ct.uuid ≠ some v := fun heq => hv (Option.some.inj heq).symm
    have hword : ("NICK" : Str) ≠ ("UID" : Str) := by decide
    exact (said_none (m := .new (some ct.uuid) ("NICK" : Str) _ none) hword (fun _ => hne)
      fun _ => hne).1

theorem named_changeNick {a : PduAddress} {ct : InspContact} {user : InspUser} {nick : Str}
    {l : InspLink} (src : Int) (huser : l.users.lookup ct.uuid = some user)
    (hne : user.nick ≠ nick) :
    Named ct.uuid (givenNick l nick) l (exec (changeNick a ct nick src) l).2 := by
  have h : wp (changeNick a ct nick src) (fun _ t => Named ct.uuid (givenNick l nick) l t)
      (fun _ t => Named ct.uuid (givenNick l nick) l t) l := by
    refine wp_mono (wp_changeNick_given src huser hne) ?_ ?_
    · rintro _ _ ⟨-, rfl⟩
      exact named_renamed _ _
    · rintro _ _ ⟨-, rfl⟩
      exact named_renamed _ _
  exact wp_exec_snd h

theorem exec_forwardCmd_some {a : PduAddress} {ct : InspContact} {l : InspLink}
    (hct : l.contacts.lookup a = some ct) (nick : Str) (src : Int) :
    exec (forwardCmd a (.changeNick nick src)) l = exec (changeNick a ct nick src) l := by
  rw [forwardCmd, exec_bind_ok (exec_get l), hct, if_pos Option.isSome_some]
  exact exec_bind_ok (exec_pure ct l)

theorem exec_forwardCmd_none {a : PduAddress} {l : InspLink} (hct : l.contacts.lookup a = none)
    (cmd : ContactManagerCommand) : exec (forwardCmd a cmd) l = (.ok (), l) := by
  rw [forwardCmd, exec_bind_ok (exec_get l)]
  simp only [hct]
  rfl

theorem exec_changeNick_same {a : PduAddress} {ct : InspContact} {user : InspUser} {nick : Str}
    {l : InspLink} (src : Int) (huser : l.users.lookup ct.uuid = some user)
    (hnick : user.nick = nick) : exec (changeNick a ct nick src) l = (.ok (), l) := by
  rw [changeNick, exec_bind_ok (exec_get l)]
  dsimp only
  rw [huser]
  change exec (if user.nick = nick then pure () else _) l = _
  rw [if_pos hnick, exec_pure]

theorem exec_changeNick_unknown {a : PduAddress} {ct : InspContact} {nick : Str}
    {l : InspLink} (src : Int) (huser : l.users.lookup ct.uuid = none) :
    exec (changeNick a ct nick src) l = (.error (.panic .forwardCmdUser), l) := by
  rw [changeNick, exec_bind_ok (exec_get l)]
  dsimp only
  rw [huser]
  rfl

theorem not_clashes_givenNick (l : InspLink) (u nick : Str) :
    ¬ Clashes l u (givenNick l nick) ↔
      ∀ n, FirstFree (nickExists l) nick n → ¬ Recased l u n := by
  have hgiven := firstFree_givenNick l nick
  have hfree : nickExists l (givenNick l nick) = false := by
    obtain ⟨_, _, hfree, _⟩ := hgiven
    exact hfree
  rw [clashes_iff_recased hfree]
  constructor
  · intro hclash n hn
    rwa [hn.eq hgiven]
  · intro hclash
    exact hclash _ hgiven

theorem free_setup_iff (recip : Recipient) (a : PduAddress) (l : InspLink) :
    GivesFree (setupContactFor recip a) l ↔ Unable l recip.nick ∨
      ∀ n, FirstFree (nickExists l) recip.nick n →
        ¬ Recased l (uuidOf l.cfg.sid l.nextUserId) n := by
  have hspec := wp_setupContactFor_named recip a l
  have hcases : (Unable l recip.nick ∧ Unnamed l (exec (setupContactFor recip a) l).2) ∨
      (¬ Unable l recip.nick ∧ Named (uuidOf l.cfg.sid l.nextUserId) (givenNick l recip.nick) l
        (exec (setupContactFor recip a) l).2) := by
    unfold wp at hspec
    rcases hexec : exec (setupContactFor recip a) l with ⟨_ | _, t⟩
    · rw [hexec] at hspec
      exact hspec
    · rw [hexec] at hspec
      exact .inr hspec
  rw [← not_clashes_givenNick]
  rcases hcases with ⟨hunable, hunnamed⟩ | ⟨hable, hnamed⟩
  · exact ⟨fun _ => .inl hunable, fun _ => givesFree_of_unnamed hunnamed⟩
  · rw [givesFree_of_named hnamed]
    exact ⟨.inr, fun h => h.resolve_left hable⟩

/-- What is said of all contacts and users that are found is said of one, if it is found. -/
theorem forall_found_iff {l : InspLink} {a : PduAddress} {P : InspContact → InspUser → Prop}
    {ct : InspContact} {user : InspUser} (hct : l.contacts.lookup a = some ct)
    (huser : l.users.lookup ct.uuid = some user) :
    (∀ ct user, l.contacts.lookup a = some ct → l.users.lookup ct.uuid = some user →
      P ct user) ↔ P ct user := by
  refine ⟨fun h => h ct user hct huser, fun h ct' user' hct' huser' => ?_⟩
  rw [hct] at hct'
  cases hct'
  rw [huser] at huser'
  cases huser'
  exact h

theorem free_change_iff (a : PduAddress) (nick : Str) (src : Int) (l : InspLink) :
    GivesFree (forwardCmd a (.changeNick nick src)) l ↔
      ∀ ct user, l.contacts.lookup a = some ct → l.users.lookup ct.uuid = some user →
        user.nick = nick ∨ ∀ n, FirstFree (nickExists l) nick n → ¬ Recased l ct.uuid n := by
  cases hct : l.contacts.lookup a with
  | none =>
      refine ⟨fun _ ct user h => (by cases h), fun _ => givesFree_of_unnamed ?_⟩
      rw [exec_forwardCmd_none hct]
      exact refl l
  | some ct =>
      have hexec := exec_forwardCmd_some hct nick src
      cases huser : l.users.lookup ct.uuid with
      | none =>
          rw [exec_changeNick_unknown src huser] at hexec
          refine ⟨fun _ ct' user h h' => ?_, fun _ => givesFree_of_unnamed ?_⟩
          · cases h
            rw [huser] at h'
            cases h'
          · rw [hexec]
            exact refl l
      | some user =>
          rw [← hct, forall_found_iff hct huser]
          by_cases hnick : user.nick = nick
          · rw [exec_changeNick_same src huser hnick] at hexec
            refine ⟨fun _ => .inl hnick, fun _ => givesFree_of_unnamed ?_⟩
            rw [hexec]
            exact refl l
          · have hnamed := named_changeNick (a := a) src huser hnick
            rw [← hexec] at hnamed
            rw [givesFree_of_named hnamed, not_clashes_givenNick]
            exact ⟨.inr, fun h => h.resolve_left hnick⟩

/-- A ghost gets a nick that the server does not have for taken exactly if the first
candidate that no one has is no one's nick in other letter case either. -/
theorem givesFree_iff (l : InspLink) (a : PduAddress) :
    (∀ recip, GivesFree (setupContactFor recip a) l ↔ Unable l recip.nick ∨
      ∀ n, FirstFree (nickExists l) recip.nick n →
        ¬ Recased l (uuidOf l.cfg.sid l.nextUserId) n) ∧
    ∀ nick src, GivesFree (forwardCmd a (.changeNick nick src)) l ↔
      ∀ ct user, l.contacts.lookup a = some ct → l.users.lookup ct.uuid = some user →
        user.nick = nick ∨ ∀ n, FirstFree (nickExists l) nick n → ¬ Recased l ct.uuid n :=
  ⟨fun recip => free_setup_iff recip a l, fun nick src => free_change_iff a nick src l⟩

/-- No nick has changed: not in the user map, not in the database, not on the network. -/
structure SameNicks (s t : InspLink) : Prop where
  users : ∀ u, (t.users.lookup u).map InspUser.nick = (s.users.lookup u).map InspUser.nick
  rows : t.store.recipients.rows.map (fun r => (r.phoneNumber, r.nick)) =
    s.store.recipients.rows.map fun r => (r.phoneNumber, r.nick)
  network : ∀ u, lastSaid (nickSaid u) t.outbox = lastSaid (nickSaid u) s.outbox

def renameCommand (a : PduAddress) (nick : Str) (src : Int) : ContactFactoryCommand :=
  .forwardCommand a (.changeNick nick src)

/-- Once a change of nick has been made, making it again changes no nick, and says none. -/
def RenamesOnce (a : PduAddress) (nick : Str) (src : Int) (l : InspLink) : Prop :=
  ∀ t u o, exec (handleCfCommand (renameCommand a nick src)) l = (.ok (), t) →
    exec (handleCfCommand (renameCommand a nick src)) t = (o, u) →
      SameNicks t u ∧ ∀ m ∈ u.outbox.drop t.outbox.length, wordOf m ≠ ("NICK" : Str)

theorem renamesOnce_of_idle {a : PduAddress} {nick : Str} {src : Int} {l t : InspLink}
    (h : exec (forwardCmd a (.changeNick nick src)) l = (.ok (), t))
    (hidle : exec (forwardCmd a (.changeNick nick src)) t = (.ok (), t)) :
    RenamesOnce a nick src l := by
  intro t' u o ht hu
  change exec (forwardCmd a (.changeNick nick src)) l = _ at ht
  rw [h] at ht
  cases ht
  change exec (forwardCmd a (.changeNick nick src)) t = _ at hu
  rw [hidle] at hu
  cases hu
  refine ⟨⟨fun _ => rfl, rfl, fun _ => rfl⟩, fun m hm => ?_⟩
  rw [List.drop_length] at hm
  cases hm

theorem nickLine_changeNick {a : PduAddress} {ct : InspContact} {user : InspUser} {nick : Str}
    {l : InspLink} (src : Int) (huser : l.users.lookup ct.uuid = some user)
    (hne : user.nick ≠ nick) :
    ∃ m, (exec (changeNick a ct nick src) l).2.outbox = l.outbox ++ [m] ∧
      wordOf m = ("NICK" : Str) := by
  have hspec : wp (changeNick a ct nick src)
      (fun _ t => ∃ m, t.outbox = l.outbox ++ [m] ∧ wordOf m = ("NICK" : Str))
      (fun _ t => ∃ m, t.outbox = l.outbox ++ [m] ∧ wordOf m = ("NICK" : Str)) l := by
    refine wp_mono (wp_changeNick_given src huser hne) ?_ ?_
    · rintro _ _ ⟨-, rfl⟩
      exact ⟨_, rfl, rfl⟩
    · rintro _ _ ⟨-, rfl⟩
      exact ⟨_, rfl, rfl⟩
  exact wp_exec_snd hspec

theorem not_renamesOnce_of_taken {a : PduAddress} {ct : InspContact} {user : InspUser}
    {nick : Str} {src : Int} {l : InspLink} (hct : l.contacts.lookup a = some ct)
    (huser : l.users.lookup ct.uuid = some user) (hne : user.nick ≠ nick)
    (htaken : nickExists l nick = true) (hup : l.store.dbDown l.store.queries = false) :
    ¬ RenamesOnce a nick src l := by
  have hfirst : wp (changeNick a ct nick src)
      (fun _ t => t = { renamed l ct user (givenNick l nick) with
        store := nickChanged l.store.tick a (givenNick l nick) (givenSource l nick src) })
      (fun _ _ => False) l := by
    refine wp_mono (wp_changeNick_given src huser hne) (fun _ _ h => h.2) fun _ _ h => ?_
    rw [hup] at h
    cases h.1
  -- the nick that it gets is not the wanted one, which someone else still has
  have hgiven : nickExists l (givenNick l nick) = false := by
    obtain ⟨_, _, hfree, _⟩ := firstFree_givenNick l nick
    exact hfree
  have hother : givenNick l nick ≠ nick := by
    intro heq
    rw [heq, htaken] at hgiven
    cases hgiven
  intro honce
  rcases hexec : exec (changeNick a ct nick src) l with ⟨e | _, t⟩
  · exact wp_of_error hexec hfirst
  have ht := wp_of_ok hexec hfirst
  have hctt : t.contacts.lookup a = some ct := by
    rw [ht]
    exact hct
  have husert : t.users.lookup ct.uuid = some { user with nick := givenNick l nick } := by
    rw [ht]
    exact AList.lookup_insert _
  obtain ⟨m, hm, hword⟩ := nickLine_changeNick (a := a) src husert hother
  have hnone := (honce t (exec (changeNick a ct nick src) t).2 _
    ((exec_forwardCmd_some hct nick src).trans hexec) (exec_forwardCmd_some hctt nick src)).2
  rw [hm, List.drop_left] at hnone
  exact hnone m List.mem_cons_self hword

/-- A change of nick can be repeated exactly if the ghost has the wanted nick already or
no one has it. -/
theorem renamesOnce_iff (a : PduAddress) (nick : Str) (src : Int) (l : InspLink) :
    RenamesOnce a nick src l ↔
      ∀ ct user, l.contacts.lookup a = some ct → l.users.lookup ct.uuid = some user →
        user.nick = nick ∨ nickExists l nick = false ∨
          l.store.dbDown l.store.queries = true := by
  cases hct : l.contacts.lookup a with
  | none =>
      refine ⟨fun _ ct user h => (by cases h), fun _ => ?_⟩
      exact renamesOnce_of_idle (exec_forwardCmd_none hct _) (exec_forwardCmd_none hct _)
  | some ct =>
      have hexec := exec_forwardCmd_some hct nick src
      cases huser : l.users.lookup ct.uuid with
      | none =>
          rw [exec_changeNick_unknown src huser] at hexec
          refine ⟨fun _ ct' user h h' => ?_, fun _ t u o ht => ?_⟩
          · cases h
            rw [huser] at h'
            cases h'
          · change exec (forwardCmd a (.changeNick nick src)) l = _ at ht
            rw [hexec] at ht
            cases ht
      | some user =>
          rw [← hct, forall_found_iff hct huser]
          constructor
          · intro honce
            by_contra hnot
            rw [not_or, not_or, Bool.not_eq_false, Bool.not_eq_true] at hnot
            exact not_renamesOnce_of_taken hct huser hnot.1 hnot.2.1 hnot.2.2 honce
          · intro h
            by_cases hnick : user.nick = nick
            · have hsame := hexec.trans (exec_changeNick_same src huser hnick)
              exact renamesOnce_of_idle hsame hsame
            have hspec := wp_changeNick_given (a := a) src huser hnick
            rcases hrun : exec (changeNick a ct nick src) l with ⟨e | _, t⟩
            · intro t' u o ht
              change exec (forwardCmd a (.changeNick nick src)) l = _ at ht
              rw [hexec, hrun] at ht
              cases ht
            obtain ⟨hup, ht⟩ := wp_of_ok hrun hspec
            have hfree : nickExists l nick = false :=
              (h.resolve_left hnick).resolve_right (by rw [hup]; exact Bool.false_ne_true)
            have hgiven : givenNick l nick = nick := by
              rw [givenNick, checkNick_eq_none.mpr hfree, Option.getD_none]
            have hctt : t.contacts.lookup a = some ct := by
              rw [ht]
              exact hct
            have husert : t.users.lookup ct.uuid = some { user with nick := givenNick l nick } := by
              rw [ht]
              exact AList.lookup_insert _
            apply renamesOnce_of_idle (hexec.trans hrun)
            rw [exec_forwardCmd_some hctt]
            exact exec_changeNick_same src husert hgiven

end Nicks

section Samples

attribute [local instance] Sample.crates

/-- A contact who goes by the name of the admin. -/
def namesake : Recipient where
  id := 2
  phoneNumber := normalizeAddress ⟨Sample.international, [4, 4, 1, 2, 4]⟩
  nick := "Admin"
  whatsapp := true
  avatarUrl := none
  notify := none
  nicksrc := nicksrcWaContact

theorem found_befriended : ∃ ct user, befriended.link.contacts.lookup Sample.alice = some ct ∧
    befriended.link.users.lookup ct.uuid = some user ∧ user.nick = ['a'] := by
  have hnick : ((befriended.link.contacts.lookup Sample.alice).bind fun ct =>
      (befriended.link.users.lookup ct.uuid).map InspUser.nick) = some ['a'] := by
    decide +kernel
  obtain ⟨ct, hct, huser⟩ := Option.bind_eq_some_iff.mp hnick
  obtain ⟨user, huser, hname⟩ := Option.map_eq_some_iff.mp huser
  exact ⟨ct, user, hct, huser, hname⟩

theorem firstFree_namesake : FirstFree (nickExists befriended.link) ("Admin" : Str)
    ("Admin" : Str) := ⟨0, rfl, by decide +kernel, fun j hj => absurd hj (by omega)⟩

theorem recased_namesake (u : Str) : Recased befriended.link u ("Admin" : Str) :=
  ⟨("admin" : Str), .inl (by decide +kernel), by decide, by decide⟩

/-- Neither way of giving a nick looks at letter case. -/
theorem takes_admin : ¬ (∀ (l : InspLink) (recip : Recipient) (a : PduAddress),
      GivesFree (setupContactFor recip a) l) ∧
    ¬ ∀ (l : InspLink) (a : PduAddress) (nick : Str) (src : Int),
      GivesFree (forwardCmd a (.changeNick nick src)) l := by
  constructor
  · intro h
    have hfree := h befriended.link namesake ⟨Sample.international, [4, 4, 1, 2, 4]⟩
    rw [free_setup_iff] at hfree
    have hable : ¬ Unable befriended.link namesake.nick := by
      rintro (hid | ⟨htaken, -⟩)
      · exact absurd hid (by decide +kernel)
      · exact absurd htaken (by decide +kernel)
    exact hfree.resolve_left hable _ firstFree_namesake (recased_namesake _)
  · intro h
    have hfree := h befriended.link Sample.alice ("Admin" : Str) nicksrcUser
    obtain ⟨ct, user, hct, huser, hnick⟩ := found_befriended
    rw [free_change_iff] at hfree
    rcases hfree ct user hct huser with heq | hcased
    · rw [hnick] at heq
      exact absurd heq (by decide)
    · exact hcased _ firstFree_namesake (recased_namesake _)

/-- Asked twice to take the nick of the admin, a ghost changes its nick twice. -/
theorem renames_twice : ¬ ∀ (l : InspLink) (a : PduAddress) (nick : Str) (src : Int),
    RenamesOnce a nick src l := by
  intro h
  obtain ⟨ct, user, hct, huser, hnick⟩ := found_befriended
  refine not_renamesOnce_of_taken hct huser ?_ ?_ ?_
    (h befriended.link Sample.alice ("admin" : Str) nicksrcUser)
  · rw [hnick]
    decide
  · decide +kernel
  · decide +kernel

end Samples

end SmsIrc.LinkNicks
