import SmsIrc.LinkRuns

/-!
What a link does for a server that has not shown its password yet.
-/

namespace SmsIrc.LinkVerified

open SmsIrc.Comm SmsIrc.Database SmsIrc.External SmsIrc.HashMaps SmsIrc.InspUsers SmsIrc.Link
open SmsIrc.LinkRuns SmsIrc.Models SmsIrc.Program SmsIrc.SenderCommon SmsIrc.Text
open SmsIrc.Transition SmsIrc.Util

section Verified

variable [Crates]

/-- An unprefixed SERVER line with four arguments, the password and no hops. -/
def Verifies (cfg : InspConfig) : Event → Prop
  | .remote ⟨none, .raw cmd [_, pass, hops, _] _⟩ =>
      cmd = ("SERVER" : Str) ∧ pass = cfg.recvpass ∧ hops = ("0" : Str)
  | _ => False

/-- No UID line that can be read, and no ENDBURST of the server id that stands for an
unknown server. -/
def Reticent : Event → Prop
  | .remote ⟨some source, .raw cmd args suffix⟩ =>
      (cmd = ("UID" : Str) → (newFromUidLine args suffix).isOk = false) ∧
        (cmd = ("ENDBURST" : Str) → source ≠ ("XXX" : Str))
  | _ => True

/-- The link is not established, nobody is known, nothing has been sent to WhatsApp or
the modem, and no PRIVMSG has an effect. -/
structure Unlinked (l : InspLink) : Prop where
  state : l.state ≠ .linked
  users : l.users = ∅
  waTx : l.waTx = []
  mTx : l.mTx = []
  privmsg : ∀ source target msg, exec (handlePrivmsg source target msg) l = (.ok (), l)

/-- What holds until a server is verified. -/
structure Unverified (cfg : InspConfig) (l : InspLink) : Prop where
  cfg : l.cfg = cfg
  state : l.state ≠ .linked
  remoteSid : l.remoteSid = ("XXX" : Str)
  users : l.users = ∅
  ghosts : l.contactsUuidPdua = ∅
  waTx : l.waTx = []
  mTx : l.mTx = []

theorem Unverified.adminUuid {cfg : InspConfig} {l : InspLink} (h : Unverified cfg l) :
    adminUuid l = none := by
  have hlist : userList l = [] := by
    rw [userList, h.users]
    exact (Crates.hashOrder.perm _).eq_nil
  rw [Link.adminUuid, hlist]
  rfl

theorem Unverified.handlePrivmsg {cfg : InspConfig} {l : InspLink} (h : Unverified cfg l)
    (source target msg : Str) : exec (handlePrivmsg source target msg) l = (.ok (), l) := by
  rw [Link.handlePrivmsg, exec_bind, exec_get]
  dsimp only
  rw [h.adminUuid, if_pos (by simp)]
  rfl

theorem Unverified.unlinked {cfg : InspConfig} {l : InspLink} (h : Unverified cfg l) :
    Unlinked l := ⟨h.state, h.users, h.waTx, h.mTx, h.handlePrivmsg⟩

theorem unverified_of_eq {cfg : InspConfig} {l l' : InspLink} (h : Unverified cfg l)
    (hcfg : l'.cfg = l.cfg) (hstate : l'.state = l.state) (hsid : l'.remoteSid = l.remoteSid)
    (husers : l'.users = l.users) (hghosts : l'.contactsUuidPdua = l.contactsUuidPdua)
    (hwa : l'.waTx = l.waTx) (hm : l'.mTx = l.mTx) : Unverified cfg l' :=
  ⟨hcfg.trans h.cfg, fun hl => h.state (hstate.symm.trans hl), hsid.trans h.remoteSid,
    husers.trans h.users, hghosts.trans h.ghosts, hwa.trans h.waTx, hm.trans h.mTx⟩

theorem unverified_push {cfg : InspConfig} (prefixStr : Str) (cmd : String) (args : List Str)
    (suffix : Option Str) :
    Preserves (Unverified cfg) (fun _ => True) (push prefixStr cmd args suffix) :=
  preserves_modify fun _ h => unverified_of_eq h rfl rfl rfl rfl rfl rfl rfl

theorem unverified_sendSidLine {cfg : InspConfig} (cmd : String) (args : List Str)
    (suffix : Option Str) :
    Preserves (Unverified cfg) (fun _ => True) (sendSidLine cmd args suffix) :=
  Preserves.bind preserves_get fun _ => unverified_push _ _ _ _

theorem unverified_connect {cfg : InspConfig} :
    Preserves (Unverified cfg) (fun _ => True) connect := by
  refine Preserves.bind ?_ fun _ => preserves_modify fun _ h => ?_
  · refine Preserves.bind (unverified_sendSidLine _ _ _) fun _ => ?_
    refine Preserves.bind (Preserves.forM fun _ _ => unverified_sendSidLine _ _ _) fun _ => ?_
    exact Preserves.bind (unverified_sendSidLine _ _ _) fun _ =>
      Preserves.bind preserves_get fun _ => unverified_push _ _ _ _
  · exact ⟨h.cfg, by simp, h.remoteSid, h.users, h.ghosts, h.waTx, h.mTx⟩

theorem unverified_updateUser {cfg : InspConfig} (uuid : Str) (f : InspUser → InspUser) :
    Preserves (Unverified cfg) (fun _ => True) (updateUser uuid f) := by
  refine preserves_modify fun l h => ?_
  have hnone : l.users.lookup uuid = none := by
    rw [h.users]
    rfl
  rw [hnone]
  exact h

theorem unverified_removeUser {cfg : InspConfig} (uuid : Str) :
    Preserves (Unverified cfg) (fun _ => True) (removeUser uuid true) := by
  intro l h
  have hnone : l.contactsUuidPdua.lookup uuid = none := by
    rw [h.ghosts]
    rfl
  rw [removeUser, wp_bind, wp_get, wp_bind, wp_set, hnone]
  refine ⟨h.cfg, h.state, h.remoteSid, ?_, ?_, h.waTx, h.mTx⟩
  · change l.users.erase uuid = ∅
    rw [h.users]
    rfl
  · change l.contactsUuidPdua.erase uuid = ∅
    rw [h.ghosts]
    rfl

theorem unverified_handleServer {cfg : InspConfig} {args : List Str} {suffix : Option Str}
    (hno : ¬ Verifies cfg (.remote ⟨none, .raw ("SERVER" : Str) args suffix⟩)) :
    Preserves (Unverified cfg) (fun _ => True) (handleServer args suffix) := by
  intro l h
  rw [handleServer, wp_bind, wp_get]
  split
  · rename_i name pass hops sid
    split
    · exact ⟨h, trivial⟩
    · rename_i hpass
      split
      · exact ⟨h, trivial⟩
      · rename_i hhops
        refine absurd ⟨rfl, ?_, not_not.mp hhops⟩ hno
        rw [← h.cfg]
        exact not_not.mp hpass
  · exact ⟨h, trivial⟩

theorem unverified_handleRaw {cfg : InspConfig} {source cmd : Str} {args : List Str}
    {suffix : Option Str} (he : Reticent (.remote ⟨some source, .raw cmd args suffix⟩)) :
    Preserves (Unverified cfg) (fun _ => True) (handleRaw source cmd args suffix) := by
  obtain ⟨huid, hendburst⟩ := he
  unfold handleRaw
  split
  · rename_i hcmd
    unfold handleUid
    split
    · exact preserves_throw trivial
    · rename_i hok
      have hno := huid hcmd
      rw [hok] at hno
      cases hno
  split
  · split
    · exact preserves_pure _
    · exact unverified_updateUser _ _
  split
  · split
    · exact preserves_modify fun _ h => unverified_of_eq h rfl rfl rfl rfl rfl rfl rfl
    · exact preserves_pure _
  split
  · split
    · exact preserves_pure _
    · exact unverified_updateUser _ _
  split
  · rename_i hcmd
    intro l h
    rw [handleEndburst, wp_bind, wp_get, wp_when, h.remoteSid, if_neg (hendburst hcmd).symm]
    exact h
  · exact preserves_pure _

theorem unverified_handleRemoteMessage {cfg : InspConfig} {m : IrcMessage}
    (hno : ¬ Verifies cfg (.remote m)) (he : Reticent (.remote m)) :
    Preserves (Unverified cfg) (fun _ => True) (handleRemoteMessage m) := by
  obtain ⟨prefixStr, command⟩ := m
  cases prefixStr with
  | none =>
      cases command with
      | error details => exact preserves_throw trivial
      | raw cmd args suffix =>
          change Preserves _ _ (when (cmd = ("SERVER" : Str)) (handleServer args suffix))
          unfold when
          split
          · rename_i hcmd
            rw [hcmd] at hno
            exact unverified_handleServer hno
          · exact preserves_pure _
      | _ => exact preserves_pure _
  | some source =>
      cases command with
      | privmsg target msg =>
          intro l h
          change wp (handlePrivmsg source target msg) _ _ l
          unfold wp
          rw [h.handlePrivmsg]
          exact h
      | error details => exact preserves_throw trivial
      | kill uuid reason => exact unverified_removeUser uuid
      | quit reason => exact unverified_removeUser source
      | ping data dest =>
          cases dest with
          | none => exact unverified_sendSidLine _ _ _
          | some dest => exact unverified_sendSidLine _ _ _
      | squit server reason =>
          refine preserves_modify fun l h => ⟨h.cfg, h.state, h.remoteSid, ?_, h.ghosts, h.waTx,
            h.mTx⟩
          change retain (fun k _ => !startsWith k server) l.users = ∅
          rw [h.users]
          rfl
      | raw cmd args suffix => exact unverified_handleRaw he
      | other params => exact preserves_pure _

theorem unverified_next {cfg : InspConfig} {s t : Session} {e : Event}
    (hno : ¬ Verifies cfg e) (he : Reticent e) (hs : Unverified cfg s.link)
    (ht : next s e = some t) : Unverified cfg t.link := by
  unfold next at ht
  split at ht
  swap
  · cases ht
  cases e with
  | connect =>
      simp only [step] at ht
      split at ht
      · cases ht
        exact (wp_perform (unverified_connect _ hs)).1
      · cases ht
  | remote m =>
      simp only [step] at ht
      split at ht
      · cases ht
      · cases ht
        exact (wp_perform (unverified_handleRemoteMessage hno he _ hs)).1
  | cb c =>
      simp only [step] at ht
      split at ht
      · rename_i hstate
        exact absurd hstate hs.state
      · cases ht
  | cf c =>
      simp only [step] at ht
      split at ht
      · rename_i hstate
        exact absurd hstate hs.state
      · cases ht
  | storeOp op =>
      cases ht
      exact unverified_of_eq hs rfl rfl rfl rfl rfl rfl rfl
  | clock now dbNow =>
      cases ht
      exact unverified_of_eq hs rfl rfl rfl rfl rfl rfl rfl

/-- As long as no server has been verified, and the other side sends neither a UID line
that can be read nor an ENDBURST of the id that stands for an unknown server, the link
is not established, nobody is known, nothing is sent and no PRIVMSG has an effect. -/
theorem unlinked_of_run {cfg : InspConfig} {st : Store} {now : NaiveDateTime}
    {es : List Event} {t : Session} (hno : ∀ e ∈ es, ¬ Verifies cfg e)
    (hes : ∀ e ∈ es, Reticent e) (hrun : run next (initial cfg st now) es = some t) :
    Unlinked t.link := by
  have hstart : Unverified cfg (initial cfg st now).link :=
    ⟨rfl, by simp [initial, InspLink.new], rfl, rfl, rfl, rfl, rfl⟩
  have h := invariant_of_allSteps (C := fun _ e => ¬ Verifies cfg e ∧ Reticent e)
    (I := fun s => Unverified cfg s.link)
    (fun _ _ _ he hs ht => unverified_next he.1 he.2 hs ht)
    (allSteps_of_forall_mem (fun e he _ => ⟨hno e he, hes e he⟩) _) hstart hrun
  exact h.unlinked

end Verified

section Samples

attribute [local instance] Sample.crates

/-- The other side pings, ends a burst that it has not begun, has a command run, and shows
another password. -/
def knocking : List Event :=
  [.connect, .remote ⟨some ("00B" : Str), .ping ("00B" : Str) none⟩,
    .remote ⟨some ("00B" : Str), .raw ("ENDBURST" : Str) [] none⟩,
    .remote ⟨some ("00BAAAAAA" : Str), .privmsg ("00AA00000" : Str) ("whatsapp logon" : Str)⟩,
    .remote ⟨none, .raw ("SERVER" : Str)
      [("irc.example" : Str), ("guess" : Str), ("0" : Str), ("00B" : Str)] (some [])⟩]

def knocked : Session := (run next sampleStart knocking).get (by decide +kernel)

theorem unlinked_knocked : Unlinked knocked.link ∧ knocked.outcome.isSome = true := by
  have hno : ∀ e ∈ knocking, ¬ Verifies sampleConfig e := by
    simp [knocking, Verifies, sampleConfig]
  have hes : ∀ e ∈ knocking, Reticent e := by simp [knocking, Reticent]
  exact ⟨unlinked_of_run hno hes (Option.some_get _).symm, by decide +kernel⟩

/-- The other side introduces the admin, ends its burst and has a command run, without
having sent a password. -/
def intruding : List Event :=
  [.connect,
    .remote ⟨some ("00B" : Str), .raw ("UID" : Str)
      [("00BAAAAAA" : Str), ['1'], ("admin" : Str), ['h'], ['h'], ['i'], ['0'], ['1'],
        ("+i" : Str)] (some [])⟩,
    .remote ⟨some ("XXX" : Str), .raw ("ENDBURST" : Str) [] none⟩,
    .remote ⟨some ("00BAAAAAA" : Str), .privmsg ("00AA00000" : Str) ("whatsapp logon" : Str)⟩]

def intruded : Session := (run next sampleStart intruding).get (by decide +kernel)

example : (intruded.link.state, intruded.link.waTx.length) = (.linked, 1) := by decide +kernel

theorem linked_unverified : ¬ ∀ (cfg : InspConfig) (st : Store) (now : NaiveDateTime)
    (es : List Event) (t : Session), (∀ e ∈ es, ¬ Verifies cfg e) →
      run next (initial cfg st now) es = some t → Unlinked t.link := by
  intro h
  have hno : ∀ e ∈ intruding, ¬ Verifies sampleConfig e := by simp [intruding, Verifies]
  exact (h sampleConfig Sample.store 0 intruding intruded hno (Option.some_get _).symm).state
    (by decide +kernel)

end Samples

end SmsIrc.LinkVerified
