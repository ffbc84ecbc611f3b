import SmsIrc.MainViews
import SmsIrc.WhatsappTracker

/-!
What becomes of the messages that the admin writes to ghosts and to channels of groups:
each is taken by the part it is for, in order, and given to the network, or the admin is told
that it was not.
-/

namespace SmsIrc.Outgoing

open SmsIrc.Comm SmsIrc.Database SmsIrc.External SmsIrc.Link SmsIrc.LinkFrame SmsIrc.Main
open SmsIrc.MainViews SmsIrc.Modem SmsIrc.Models SmsIrc.PartFrames SmsIrc.Program SmsIrc.Sample
open SmsIrc.SenderCommon SmsIrc.Simulation SmsIrc.Text SmsIrc.Transition SmsIrc.Util
open SmsIrc.WaAck SmsIrc.Whatsapp SmsIrc.WhatsappFrame SmsIrc.WhatsappMsg
open SmsIrc.WhatsappTracker (Accounted Idle owing_of_run)

section Written

variable [Crates]

/-- Whom a message of the admin is for. -/
inductive Destination where
  | sms (a : PduAddress)
  | direct (a : PduAddress)
  | group (chan : Str)

def isSms : Destination × Str → Bool
  | (.sms _, _) => true
  | _ => false

/-- The channels of groups and the ghosts, whose contacts are in WhatsApp mode or not. -/
def destination (l : InspLink) (source target : Str) : Option Destination :=
  if some source ≠ adminUuid l ∨ target = l.controlUuid then none
  else if target ∈ l.channels then some (.group target)
  else do
    let a ← l.contactsUuidPdua.lookup target
    let ct ← l.contacts.lookup a
    pure (if ct.waMode then .direct a else .sms a)

/-- What the admin writes, by a message of the other server. -/
def written (l : InspLink) : LinkRuns.Event → List (Destination × Str)
  | .remote ⟨some source, .privmsg target msg⟩ =>
      ((destination l source target).map fun d => (d, msg)).toList
  | _ => []

theorem written_eq_nil {l : InspLink} {e : LinkRuns.Event}
    (h : ∀ source target msg, e ≠ .remote ⟨some source, .privmsg target msg⟩) :
    written l e = [] := by
  unfold written
  split
  · exact absurd rfl (h _ _ _)
  · rfl

def smsIn : ModemCommand → Option (Destination × Str)
  | .sendMessage a msg => some (.sms a, msg)
  | _ => none

def postIn : WhatsappCommand → Option (Destination × Str)
  | .sendDirectMessage a msg => some (.direct a, msg)
  | .sendGroupMessage chan msg => some (.group chan, msg)
  | _ => none

/-- The link with a message put into the channel of the part that it is for. -/
def passed (l : InspLink) : Option Destination → Str → InspLink
  | some (.sms a), msg => { l with mTx := l.mTx ++ [.sendMessage a msg] }
  | some (.direct a), msg => { l with waTx := l.waTx ++ [.sendDirectMessage a msg] }
  | some (.group chan), msg => { l with waTx := l.waTx ++ [.sendGroupMessage chan msg] }
  | none, _ => l

theorem exec_handlePrivmsg {l : InspLink} {source target : Str} (msg : Str)
    (h : some source = adminUuid l → target ≠ l.controlUuid) :
    (exec (handlePrivmsg source target msg) l).2 = passed l (destination l source target) msg := by
  apply wp_exec_snd (P := fun t => t = passed l (destination l source target) msg)
  rw [handlePrivmsg, wp_bind, wp_get]
  by_cases hadmin : some source = adminUuid l
  swap
  · rw [if_pos hadmin, destination, if_pos (.inl hadmin)]
    rfl
  have hcontrol := h hadmin
  have hadmitted : ¬ (some source ≠ adminUuid l ∨ target = l.controlUuid) := by
    rintro (hne | heq)
    · exact hne hadmin
    · exact hcontrol heq
  rw [if_neg (not_not.mpr hadmin), if_neg hcontrol, destination, if_neg hadmitted]
  by_cases hchan : target ∈ l.channels
  · rw [if_pos hchan, if_pos hchan]
    rfl
  · rw [if_neg hchan, if_neg hchan]
    cases l.contactsUuidPdua.lookup target with
    | none => rfl
    | some a =>
        dsimp only [Option.bind_eq_bind, Option.bind_some]
        cases l.contacts.lookup a with
        | none => rfl
        | some ct =>
            dsimp only [Option.bind_some, Option.pure_def]
            cases ct.waMode
            · rfl
            · rfl

/-- What a step puts into the channels of the other parts. -/
structure Passes (s t : InspLink) (xs : List (Destination × Str)) : Prop where
  sms : (since s.mTx t.mTx).filterMap smsIn = xs.filter isSms
  posts : (since s.waTx t.waTx).filterMap postIn = xs.filter fun x => !isSms x

theorem passes_of_appends {s t : InspLink} (hm : Appends (fun c => smsIn c = none) s.mTx t.mTx)
    (hwa : Appends (fun c => postIn c = none) s.waTx t.waTx) : Passes s t [] where
  sms := List.filterMap_eq_nil_iff.mpr hm.eq_since.2
  posts := List.filterMap_eq_nil_iff.mpr hwa.eq_since.2

theorem passes_passed (l : InspLink) (d : Option Destination) (msg : Str) :
    Passes l (passed l d msg) (d.map fun d => (d, msg)).toList := by
  cases d with
  | none => exact ⟨by simp [passed], by simp [passed]⟩
  | some d =>
      cases d with
      | sms a =>
          constructor
          · change (since l.mTx (l.mTx ++ [_])).filterMap smsIn = _
            rw [since_append]
            rfl
          · change (since l.waTx l.waTx).filterMap postIn = _
            rw [since_self]
            rfl
      | direct a =>
          constructor
          · change (since l.mTx l.mTx).filterMap smsIn = _
            rw [since_self]
            rfl
          · change (since l.waTx (l.waTx ++ [_])).filterMap postIn = _
            rw [since_append]
            rfl
      | group chan =>
          constructor
          · change (since l.mTx l.mTx).filterMap smsIn = _
            rw [since_self]
            rfl
          · change (since l.waTx (l.waTx ++ [_])).filterMap postIn = _
            rw [since_append]
            rfl

theorem commanding_noSms :
    Commanding (InvImage (Appends fun c => smsIn c = none) InspLink.mTx) :=
  commanding_mTx (fun _ => rfl) fun c => by cases c <;> rfl

theorem commanding_noPost :
    Commanding (InvImage (Appends fun c => postIn c = none) InspLink.waTx) :=
  commanding_waTx (fun _ => rfl) (fun _ => rfl) (fun c => by cases c <;> rfl)
    fun c => by cases c <;> rfl

theorem passes_of_next {s t : LinkRuns.Session} {e : LinkRuns.Event}
    (hnext : LinkRuns.next s e = some t) (hstore : ∀ op, e ≠ .storeOp op)
    (hclock : ∀ now dbNow, e ≠ .clock now dbNow) : Passes s.link t.link (written s.link e) := by
  by_cases hpriv : ∃ source target msg, e = .remote ⟨some source, .privmsg target msg⟩
  · obtain ⟨source, target, msg, rfl⟩ := hpriv
    have ht : t.link = (exec (handlePrivmsg source target msg) s.link).2 := by
      rw [LinkRuns.next, LinkRuns.outcome_of_next hnext] at hnext
      simp only [LinkRuns.step] at hnext
      split at hnext
      · cases hnext
      · cases hnext
        rfl
    by_cases hcontrol : some source = adminUuid s.link → target ≠ s.link.controlUuid
    · rw [ht, exec_handlePrivmsg msg hcontrol]
      exact passes_passed _ _ _
    · rw [Classical.not_imp, not_not] at hcontrol
      obtain ⟨hadmin, htarget⟩ := hcontrol
      have hnone : written s.link (.remote ⟨some source, .privmsg target msg⟩) = [] := by
        simp [written, destination, htarget]
      have hrun : exec (handlePrivmsg source target msg) s.link =
          exec (ControlCommands.processAdminCommand msg) s.link := by
        rw [handlePrivmsg, exec_bind_ok (exec_get s.link), if_neg (by simpa using hadmin),
          if_pos htarget]
      rw [ht, hrun, hnone]
      exact passes_of_appends ((commanding_noSms.processAdminCommand msg).exec s.link)
        ((commanding_noPost.processAdminCommand msg).exec s.link)
  · rw [written_eq_nil fun source target msg he => hpriv ⟨source, target, msg, he⟩]
    refine passes_of_appends ?_ ?_
    · exact commanding_noSms.toFrame.of_next hnext
        (fun source target msg he => absurd ⟨source, target, msg, he⟩ hpriv) hstore hclock
    · exact commanding_noPost.toFrame.of_next hnext
        (fun source target msg he => absurd ⟨source, target, msg, he⟩ hpriv) hstore hclock

end Written

section Sms

/-- What the modem has been given to send. -/
def smsOf [Crates] (p : Pending) : Option (Destination × Str) :=
  match p.command with
  | .sendSms a msg => some (.sms a, msg)
  | _ => none

def refusal : Str := ("Sending message" : Str) ++ (" failed: Modem is not initialized" : Str)

/-- The report of a message that the modem manager has not given to the modem. -/
def isRefusal : ControlBotCommand → Bool
  | .reportFailure fail => fail = refusal
  | _ => false

variable [Crates]

/-- The report of a message that the modem has not sent to an address. -/
def isUndelivered (a : PduAddress) : ControlBotCommand → Bool
  | .reportFailure fail => startsWith fail
      (("Failed to send message to " : Str) ++ Crates.displayAddress a ++ (": " : Str))
  | _ => false

/-- A message to the address that has been given up by the modem. -/
def isGivenUp (a : PduAddress) (p : Pending) : Bool :=
  match p.command with
  | .sendSms b _ => b = a && !p.waiting && p.answer.isNone
  | _ => false

/-- Each message that has been given up has a report. -/
def Reported (mgr : ModemManager) : Prop :=
  ∀ a, mgr.commands.countP (isGivenUp a) ≤ mgr.cbTx.countP (isUndelivered a)

theorem Reported.of_le {s t : ModemManager} (h : Reported s)
    (hcommands : ∀ a, t.commands.countP (isGivenUp a) ≤ s.commands.countP (isGivenUp a))
    (hcb : s.cbTx <+: t.cbTx) : Reported t :=
  fun a => ((hcommands a).trans (h a)).trans (hcb.sublist.countP_le (p := isUndelivered a))

/-- The modem manager has taken messages from its queue, in order, and given each to the
modem or refused it; those that the modem has given up have been reported. -/
structure SmsTaken (ws : List (Destination × Str)) (mgr : ModemManager) : Prop where
  order : ∃ taken : List ((Destination × Str) × Bool),
    ws = taken.map Prod.fst ++ mgr.rx.filterMap smsIn ∧
      mgr.commands.filterMap smsOf = (taken.filter Prod.snd).map Prod.fst ∧
      (mgr.cbTx.filter isRefusal).length = (taken.filter fun x => !x.2).length
  reported : Reported mgr

/-- The step loses no message and sends none of its own. -/
def KeepsSms (s t : ModemManager) : Prop := ∀ ws, SmsTaken ws s → SmsTaken ws t

instance : IsPreorder ModemManager KeepsSms where
  refl _ _ h := h
  trans _ _ _ hst htu ws h := htu ws (hst ws h)

theorem keepsSms_of_same {s t : ModemManager}
    (hrx : t.rx.filterMap smsIn = s.rx.filterMap smsIn)
    (hsms : t.commands.filterMap smsOf = s.commands.filterMap smsOf)
    (hcb : t.cbTx.filter isRefusal = s.cbTx.filter isRefusal)
    (hreported : Reported s → Reported t) : KeepsSms s t := by
  intro ws h
  obtain ⟨taken, hws, hgiven, hrefused⟩ := h.order
  refine ⟨⟨taken, ?_, ?_, ?_⟩, hreported h.reported⟩
  · rw [hrx]
    exact hws
  · rw [hsms]
    exact hgiven
  · rw [hcb]
    exact hrefused

theorem keepsSms_inside {s t : ModemManager} (hrx : t.rx = s.rx)
    (hcommands : t.commands = s.commands) (hcb : t.cbTx = s.cbTx) : KeepsSms s t :=
  keepsSms_of_same (by rw [hrx]) (by rw [hcommands]) (by rw [hcb]) fun h =>
    h.of_le (fun a => by rw [hcommands]) (by rw [hcb])

theorem keepsSms_modify {f : ModemManager → ModemManager} (hrx : ∀ mgr, (f mgr).rx = mgr.rx)
    (hcommands : ∀ mgr, (f mgr).commands = mgr.commands) (hcb : ∀ mgr, (f mgr).cbTx = mgr.cbTx) :
    Moves KeepsSms (modify f : ModemM PUnit) :=
  steps_modify fun mgr => keepsSms_inside (hrx mgr) (hcommands mgr) (hcb mgr)

theorem keepsSms_store {α : Type} (p : StoreM α) : Moves KeepsSms (store p : ModemM α) :=
  moves_zoom p fun _ _ => keepsSms_inside rfl rfl rfl

theorem keepsSms_cbSend {c : ControlBotCommand} (hc : isRefusal c = false) :
    Moves KeepsSms (Modem.cbSend c) := by
  refine steps_modify fun mgr => keepsSms_of_same rfl rfl ?_ fun h =>
    h.of_le (fun _ => le_rfl) (List.prefix_append _ _)
  simp [List.filter_append, hc]

theorem keepsSms_intSend {cs : List ModemCommand} (hcs : cs.filterMap smsIn = []) :
    Moves KeepsSms (intSend cs) := by
  refine steps_modify fun mgr => keepsSms_of_same ?_ rfl rfl fun h => h
  rw [List.filterMap_append, hcs, List.append_nil]

theorem Reported.spawn {mgr : ModemManager} (h : Reported mgr) (c : AtCommand) :
    Reported { mgr with commands := mgr.commands ++ [⟨c, none, true⟩] } := by
  refine h.of_le (fun a => ?_) (List.prefix_rfl)
  have hnew : isGivenUp a ⟨c, none, true⟩ = false := by
    cases c <;> simp [isGivenUp]
  rw [List.countP_append, List.countP_singleton, hnew]
  exact le_rfl

theorem keepsSms_spawn {c : AtCommand} (hc : isPlain c = true) : Moves KeepsSms (spawn c) := by
  refine steps_modify fun mgr => keepsSms_of_same rfl ?_ rfl fun h => h.spawn c
  have hnone : smsOf ⟨c, none, true⟩ = none := by
    cases c with
    | sendSms a msg => cases hc
    | _ => rfl
  rw [List.filterMap_append, List.filterMap_cons, hnone, List.filterMap_nil, List.append_nil]

theorem keepsSms_createContact (a : PduAddress) : Moves KeepsSms (createContact a) := by
  have hcf : ∀ c, Moves KeepsSms (Modem.cfSend c) :=
    fun c => keepsSms_modify (fun _ => rfl) (fun _ => rfl) fun _ => rfl
  exact Steps.bind (keepsSms_store _) fun _ => Steps.bind (hcf _) fun _ => hcf _

omit [Crates] in
theorem not_refusal {desc : Str} (hdesc : desc ≠ ("Sending message" : Str)) :
    isRefusal (.reportFailure (desc ++ (" failed: Modem is not initialized" : Str))) = false := by
  apply decide_eq_false
  intro heq
  exact hdesc (List.append_cancel_right heq)

theorem modemFrame_keepsSms : ModemFrame KeepsSms where
  inner _ _ _ := keepsSms_inside rfl rfl rfl
  spawn _ hc := keepsSms_spawn hc
  cb _ hdesc := keepsSms_cbSend (not_refusal hdesc)
  tick _ := keepsSms_inside rfl rfl rfl
  created := keepsSms_createContact

theorem keepsSms_storeListing (msgs : List SmsMessage) : Moves KeepsSms (storeListing msgs) := by
  refine Steps.bind (Steps.forM fun msg _ => ?_) fun _ =>
    keepsSms_modify (fun _ => rfl) (fun _ => rfl) fun _ => rfl
  unfold storeListed
  split
  · exact steps_pure _
  · exact Steps.bind (keepsSms_store _) fun _ =>
      keepsSms_modify (fun _ => rfl) (fun _ => rfl) fun _ => rfl

/-- A message is taken from the queue, and is given to the modem or refused. -/
theorem smsTaken_sendMessage {ws : List (Destination × Str)} {mgr : ModemManager}
    {a : PduAddress} {msg : Str} {rest : List ModemCommand}
    (hrx : mgr.rx = .sendMessage a msg :: rest) (h : SmsTaken ws mgr) :
    SmsTaken ws (exec (Modem.sendMessage a msg) { mgr with rx := rest }).2 := by
  obtain ⟨taken, hws, hgiven, hrefused⟩ := h.order
  have hwritten : ∀ given, ws = (taken ++ [((Destination.sms a, msg), given)]).map Prod.fst ++
      rest.filterMap smsIn := by
    intro given
    rw [hws, hrx, List.filterMap_cons, List.map_append, List.append_assoc]
    rfl
  apply wp_exec_snd
  rw [Modem.sendMessage, withModem, wp_bind, wp_get]
  split
  · refine ⟨⟨taken ++ [((Destination.sms a, msg), true)], hwritten true, ?_, ?_⟩, ?_⟩
    · change (mgr.commands ++ [_]).filterMap smsOf = _
      rw [List.filterMap_append, hgiven, List.filter_append, List.map_append]
      rfl
    · change (mgr.cbTx.filter isRefusal).length = _
      rw [hrefused, List.filter_append]
      simp
    · exact h.reported.spawn _
  · refine ⟨⟨taken ++ [((Destination.sms a, msg), false)], hwritten false, ?_, ?_⟩, ?_⟩
    · change mgr.commands.filterMap smsOf = _
      rw [hgiven, List.filter_append]
      simp
    · change ((mgr.cbTx ++ [ControlBotCommand.reportFailure refusal]).filter isRefusal).length = _
      rw [List.filter_append, List.length_append, hrefused, List.filter_append, List.length_append]
      rfl
    · exact h.reported.of_le (fun _ => le_rfl) (List.prefix_append _ _)

theorem keepsSms_handleNext (ps : List Poll) : Moves KeepsSms (handleNext ps) := by
  refine steps_get_bind fun mgr => ?_
  cases hrx : mgr.rx with
  | nil => exact (steps_pure (R := KeepsSms) ()) mgr
  | cons c rest =>
      dsimp only
      rw [wp_bind, wp_set]
      by_cases hc : ∃ a msg, c = .sendMessage a msg
      · obtain ⟨a, msg, rfl⟩ := hc
        have ht : ∀ {t}, t = (exec (Modem.sendMessage a msg) { mgr with rx := rest }).2 →
            KeepsSms mgr t := by
          rintro t rfl ws h
          exact smsTaken_sendMessage hrx h
        refine wp_mono (wp_exec _ _) (fun _ t hrun => ht ?_) fun _ t hrun => ⟨ht ?_, trivial⟩
        all_goals exact (congrArg Prod.snd hrun).symm
      · have hnone : smsIn c = none := by
          cases c with
          | sendMessage a msg => exact absurd ⟨a, msg, rfl⟩ hc
          | _ => rfl
        refine (modemFrame_keepsSms.handleCommand ps (fun msgs _ => keepsSms_storeListing msgs)
          fun a msg he => absurd ⟨a, msg, he⟩ hc).after ?_
        refine keepsSms_of_same ?_ rfl rfl fun h => h
        rw [hrx, List.filterMap_cons, hnone]

theorem filterMap_set {i : Nat} {p q : Pending} {commands : List Pending}
    (hi : commands[i]? = some p) (hpq : smsOf q = smsOf p) :
    (commands.set i q).filterMap smsOf = commands.filterMap smsOf := by
  induction commands generalizing i with
  | nil => rfl
  | cons c commands ih =>
      cases i with
      | zero =>
          cases hi
          rw [List.set_cons_zero, List.filterMap_cons, List.filterMap_cons, hpq]
      | succ i =>
          rw [List.set_cons_succ, List.filterMap_cons, List.filterMap_cons, ih (by simpa using hi)]

/-- The entry of a command is changed, and something is reported or put into the queue. -/
theorem keepsSms_set {i : Nat} {c : AtCommand} {a a' : Option AtAnswer} {w w' : Bool}
    {mgr t : ModemManager} (hi : mgr.commands[i]? = some ⟨c, a, w⟩)
    (hcommands : t.commands = mgr.commands.set i ⟨c, a', w'⟩)
    (hrx : t.rx.filterMap smsIn = mgr.rx.filterMap smsIn)
    (hcb : t.cbTx.filter isRefusal = mgr.cbTx.filter isRefusal)
    (hreported : Reported mgr → Reported t) : KeepsSms mgr t := by
  refine keepsSms_of_same hrx ?_ hcb hreported
  rw [hcommands]
  exact filterMap_set hi rfl

theorem countP_set_le {i : Nat} {q : Pending} (commands : List Pending) (a : PduAddress) :
    (commands.set i q).countP (isGivenUp a) ≤
      commands.countP (isGivenUp a) + if isGivenUp a q then 1 else 0 := by
  by_cases hi : i < commands.length
  · rw [List.countP_set hi]
    split <;> split <;> omega
  · rw [List.set_eq_of_length_le (Nat.le_of_not_lt hi)]
    exact Nat.le_add_right _ _

theorem Reported.set {mgr t : ModemManager} {i : Nat} {q : Pending} (h : Reported mgr)
    (hcommands : t.commands = mgr.commands.set i q) (hq : ∀ a, isGivenUp a q = false)
    (hcb : mgr.cbTx <+: t.cbTx) : Reported t := by
  refine h.of_le (fun a => ?_) hcb
  rw [hcommands]
  simpa [hq a] using countP_set_le (i := i) (q := q) mgr.commands a

theorem not_isRefusal_undelivered (a : PduAddress) (e : Str) :
    isRefusal (.reportFailure (("Failed to send message to " : Str) ++
      Crates.displayAddress a ++ (": " : Str) ++ e)) = false := by
  rw [isRefusal]
  apply decide_eq_false
  intro heq
  have hhead : some 'F' = some 'S' := congrArg List.head? heq
  exact absurd hhead (by decide)

theorem Reported.failed {mgr : ModemManager} {i : Nat} {b : PduAddress} {msg : Str}
    {answer : Option AtAnswer} (e : Str) (h : Reported mgr) :
    Reported { mgr with
      commands := mgr.commands.set i ⟨.sendSms b msg, answer, false⟩
      cbTx := mgr.cbTx ++ [.reportFailure (("Failed to send message to " : Str) ++
        Crates.displayAddress b ++ (": " : Str) ++ e)] } := by
  intro a
  refine (countP_set_le mgr.commands a).trans ?_
  rw [List.countP_append, List.countP_singleton]
  refine Nat.add_le_add (h a) ?_
  by_cases hab : b = a
  · have htells : isUndelivered a (.reportFailure (("Failed to send message to " : Str) ++
        Crates.displayAddress b ++ (": " : Str) ++ e)) = true := by
      rw [hab, isUndelivered, startsWith, List.isPrefixOf_iff_prefix]
      exact List.prefix_append _ _
    rw [htells, if_pos rfl]
    split <;> omega
  · have hno : isGivenUp a ⟨.sendSms b msg, answer, false⟩ = false := by
      simp [isGivenUp, hab]
    rw [hno]
    exact Nat.zero_le _

theorem managing_keepsSms : Managing KeepsSms where
  toModemFrame := modemFrame_keepsSms
  handle := keepsSms_handleNext
  doCmgl := keepsSms_intSend rfl
  executed i c a w mgr hi := by
    refine keepsSms_set hi rfl rfl rfl fun h => h.set rfl (fun b => ?_) List.prefix_rfl
    cases c <;> simp [isGivenUp]
  answered i c a mgr hi := by
    have hset : KeepsSms mgr
        { mgr with commands := mgr.commands.set i ⟨c, some a, false⟩ } := by
      refine keepsSms_set hi rfl rfl rfl fun h => h.set rfl (fun b => ?_) List.prefix_rfl
      cases c <;> simp [isGivenUp]
    refine IsTrans.trans (r := KeepsSms) _ _ _ hset (Steps.exec (P := fun _ => True) ?_ _)
    unfold commandAnswered
    split
    · exact keepsSms_intSend rfl
    · exact keepsSms_cbSend rfl
    · exact keepsSms_cbSend rfl
    · exact steps_pure _
  failed i c a e mgr hi := by
    have hqueue : ∀ cs : List ModemCommand, cs.filterMap smsIn = [] →
        (mgr.rx ++ cs).filterMap smsIn = mgr.rx.filterMap smsIn := by
      intro cs hcs
      rw [List.filterMap_append, hcs, List.append_nil]
    cases c with
    | sendSms b msg =>
        refine keepsSms_set hi rfl rfl ?_ fun h => h.failed e
        change (mgr.cbTx ++ [_]).filter isRefusal = _
        rw [List.filter_append, List.filter_cons, not_isRefusal_undelivered]
        exact List.append_nil _
    | listSms =>
        exact keepsSms_set hi rfl (hqueue _ rfl) rfl fun h =>
          h.set rfl (fun _ => rfl) List.prefix_rfl
    | delSms =>
        exact keepsSms_set hi rfl (hqueue _ rfl) rfl fun h =>
          h.set rfl (fun _ => rfl) List.prefix_rfl
    | getRegistration =>
        exact keepsSms_set hi rfl (hqueue _ rfl) rfl fun h =>
          h.set rfl (fun _ => rfl) List.prefix_rfl
    | getSignalQuality =>
        exact keepsSms_set hi rfl (hqueue _ rfl) rfl fun h =>
          h.set rfl (fun _ => rfl) List.prefix_rfl

end Sms

section Posts

variable [Crates]

/-- The report of a message for an address that has no account. -/
def unsendable (a : PduAddress) (e : Str) : ControlBotCommand :=
  .reportFailure (("Failed to send to WA contact " : Str) ++ Crates.displayAddress a ++
    (": " : Str) ++ e)

/-- The account that a message is for, by what is in the database: that of the address, or
the group that has the channel. There is none if the database does not answer. -/
def receiver (st : Store) : Destination → Option Jid
  | .sms _ => none
  | .direct a => (addressToJid a).toOption
  | .group chan =>
      if st.dbDown st.queries then none
      else (st.groups.rows.find? fun grp => grp.channel = chan).bind fun grp =>
        Crates.parseJid grp.jid

/-- A message that the WhatsApp manager takes from its queue, with the database at that time. -/
structure Taking where
  dest : Destination
  text : Str
  store : Store

def Taking.written (x : Taking) : Destination × Str := (x.dest, x.text)

def Taking.accepted (x : Taking) : Option (Jid × ChatMessageContent) :=
  (receiver x.store x.dest).map fun jid => (jid, .text x.text)

/-- What the admin is told of a message to an address that has no account. -/
def Taking.report (x : Taking) : Option ControlBotCommand :=
  match x.dest with
  | .direct a =>
      match addressToJid a with
      | .error e => some (unsendable a e)
      | .ok _ => none
  | _ => none

def takes (m : WhatsappManager) : WhatsappRuns.Event → List Taking
  | .handle => ((m.rx.head?.bind postIn).map fun x => ⟨x.1, x.2, m.msgproc.store⟩).toList
  | _ => []

/-- The WhatsApp manager has taken messages from its queue, in order. It has accepted each
for its receiver, and has told the admin of those that have no account. -/
structure PostsTaken (ws : List (Destination × Str)) (xs : List Taking) (m : WhatsappManager) :
    Prop where
  written : ws = xs.map Taking.written ++ m.rx.filterMap postIn
  accepted : m.accepted = xs.filterMap Taking.accepted
  reported : (xs.filterMap Taking.report).Sublist m.cbTx

/-- The step has no part in this. -/
structure SamePosts (s t : WhatsappManager) : Prop where
  accepted : t.accepted = s.accepted
  rx : t.rx.filterMap postIn = s.rx.filterMap postIn
  cbTx : s.cbTx <+: t.cbTx

instance : IsPreorder WhatsappManager SamePosts where
  refl _ := ⟨rfl, rfl, List.prefix_rfl⟩
  trans _ _ _ hst htu :=
    ⟨htu.accepted.trans hst.accepted, htu.rx.trans hst.rx, hst.cbTx.trans htu.cbTx⟩

theorem PostsTaken.of_same {ws : List (Destination × Str)} {xs : List Taking}
    {s t : WhatsappManager} (h : PostsTaken ws xs s) (hst : SamePosts s t) : PostsTaken ws xs t where
  written := by
    rw [hst.rx]
    exact h.written
  accepted := hst.accepted.trans h.accepted
  reported := h.reported.trans hst.cbTx.sublist

theorem samePosts_inside {s t : WhatsappManager} (haccepted : t.accepted = s.accepted)
    (hrx : t.rx = s.rx) (hcb : t.cbTx = s.cbTx) : SamePosts s t :=
  ⟨haccepted, by rw [hrx], by rw [hcb]⟩

theorem samePosts_modify {f : WhatsappManager → WhatsappManager}
    (haccepted : ∀ m, (f m).accepted = m.accepted) (hrx : ∀ m, (f m).rx = m.rx)
    (hcb : ∀ m, (f m).cbTx = m.cbTx) : Moves SamePosts (modify f : WaM PUnit) :=
  steps_modify fun m => samePosts_inside (haccepted m) (hrx m) (hcb m)

theorem samePosts_store {α : Type} (p : StoreM α) : Moves SamePosts (store p : WaM α) :=
  moves_zoom p fun _ _ => samePosts_inside rfl rfl rfl

theorem samePosts_pushBack (req : WaRequest) : Moves SamePosts (pushBack req) :=
  samePosts_modify (fun _ => rfl) (fun _ => rfl) fun _ => rfl

theorem samePosts_cf (c : ContactFactoryCommand) : Moves SamePosts (Whatsapp.cfSend c) :=
  samePosts_modify (fun _ => rfl) (fun _ => rfl) fun _ => rfl

theorem bridging_samePosts : Bridging SamePosts where
  query _ := samePosts_store _
  newRecipient _ _ _ _ _ := samePosts_store _
  cf c _ := samePosts_cf c
  newGroup _ _ _ := samePosts_store _
  cb _ _ := ⟨rfl, rfl, List.prefix_append _ _⟩
  metadata _ := samePosts_pushBack _

theorem receiving_samePosts : Receiving SamePosts where
  toBridging := bridging_samePosts
  insert _ _ _ _ := samePosts_store _
  updated grp := bridging_samePosts.updateFromMetadata grp fun _ _ _ _ => samePosts_store _
  subscribe _ := samePosts_pushBack _
  conn _ _ := samePosts_inside rfl rfl rfl
  session _ _ _ := samePosts_inside rfl rfl rfl
  chats _ _ := samePosts_inside rfl rfl rfl
  contacts _ _ := samePosts_inside rfl rfl rfl
  ntf _ _ := samePosts_store _
  rename _ _ _ _ := samePosts_cf _
  msgid _ := samePosts_store _
  read _ _ := samePosts_pushBack _
  process _ := moves_zoom _ fun _ _ => samePosts_inside rfl rfl rfl

theorem samePosts_registerSend (dest : Jid) (content : ChatMessageContent) (mid : Str)
    (isUnsent : Bool) : Moves SamePosts (registerSend dest content mid isUnsent) :=
  samePosts_modify (fun _ => rfl) (fun _ => rfl) fun _ => rfl

theorem samePosts_generateId : Moves SamePosts generateId :=
  steps_get_bind fun _ => samePosts_inside rfl rfl rfl

theorem samePosts_sendMessage (content : ChatMessageContent) (jid : Jid) :
    Moves SamePosts (Whatsapp.sendMessage content jid) := by
  refine Steps.bind samePosts_generateId fun _ => Steps.bind (samePosts_store _) fun _ => ?_
  refine Steps.bind (samePosts_registerSend _ _ _ _) fun _ => Steps.bind steps_get fun _ => ?_
  refine Steps.bind (samePosts_pushBack _) fun _ => Steps.bind steps_get fun _ => Steps.when ?_
  exact Steps.bind (samePosts_modify (fun _ => rfl) (fun _ => rfl) fun _ => rfl)
    fun _ => samePosts_pushBack _

theorem samePosts_queueMessage (content : ChatMessageContent) (jid : Jid) :
    Moves SamePosts (queueMessage content jid) :=
  Steps.bind samePosts_generateId fun _ => Steps.bind (samePosts_registerSend _ _ _ _) fun _ =>
    Steps.bind steps_get fun _ => Steps.when (bridging_samePosts.cbSend _)

theorem samePosts_onEstablished (jid : Jid) (ps : Crates.PersistentSession) :
    Moves SamePosts (onEstablished jid ps) := by
  refine steps_get_bind fun m => ?_
  rw [wp_bind, wp_set]
  refine Steps.after ?_ (samePosts_inside rfl rfl rfl)
  refine Steps.bind (Steps.when (bridging_samePosts.cbSend _)) fun _ => ?_
  refine Steps.bind (steps_get_bind fun m => samePosts_inside rfl rfl rfl) fun unsent => ?_
  refine Steps.bind (Steps.forM fun _ _ => samePosts_sendMessage _ _) fun _ => ?_
  exact Steps.bind (samePosts_store _) fun _ =>
    Steps.bind (receiving_samePosts.setConn _) fun _ =>
      samePosts_modify (fun _ => rfl) (fun _ => rfl) fun _ => rfl

/-- The step takes some messages, and accepts those and no others. -/
def KeepsPosts (ys : List Taking) (s t : WhatsappManager) : Prop :=
  ∀ ws xs, PostsTaken ws xs s → PostsTaken ws (xs ++ ys) t

theorem keepsPosts_of_same {s t : WhatsappManager} (h : SamePosts s t) : KeepsPosts [] s t := by
  intro ws xs hs
  rw [List.append_nil]
  exact hs.of_same h

/-- The step accepts a message. -/
structure AcceptedFor (jid : Jid) (content : ChatMessageContent) (s t : WhatsappManager) :
    Prop where
  accepted : t.accepted = s.accepted ++ [(jid, content)]
  rx : t.rx.filterMap postIn = s.rx.filterMap postIn
  cbTx : s.cbTx <+: t.cbTx

theorem keepsPosts_take {m t : WhatsappManager} {c : WhatsappCommand} {x : Taking}
    {rest : List WhatsappCommand} (hrx : m.rx = c :: rest) (hc : postIn c = some x.written)
    (hpop : t.rx.filterMap postIn = rest.filterMap postIn)
    (haccepted : t.accepted = m.accepted ++ x.accepted.toList)
    (hreported : (m.cbTx ++ x.report.toList).Sublist t.cbTx) : KeepsPosts [x] m t := by
  intro ws xs h
  refine ⟨?_, ?_, ?_⟩
  · rw [hpop, h.written, hrx, List.filterMap_cons, hc, List.map_append, List.append_assoc]
    rfl
  · rw [haccepted, h.accepted, List.filterMap_append]
    cases hx : x.accepted <;> simp [hx]
  · have hlast : [x].filterMap Taking.report = x.report.toList := by
      cases hx : x.report <;> simp [hx]
    rw [List.filterMap_append, hlast]
    exact (h.reported.append (List.Sublist.refl _)).trans hreported

theorem keepsPosts_accept {m t : WhatsappManager} {c : WhatsappCommand} {x : Taking}
    {rest : List WhatsappCommand} {jid : Jid} (hrx : m.rx = c :: rest)
    (hc : postIn c = some x.written) (hjid : receiver x.store x.dest = some jid)
    (hreport : x.report = none) (ht : AcceptedFor jid (.text x.text) { m with rx := rest } t) :
    KeepsPosts [x] m t := by
  refine keepsPosts_take hrx hc ht.rx ?_ ?_
  · rw [Taking.accepted, hjid]
    exact ht.accepted
  · rw [hreport, Option.toList_none, List.append_nil]
    exact ht.cbTx.sublist

theorem keepsPosts_refuse {m t : WhatsappManager} {c : WhatsappCommand} {x : Taking}
    {rest : List WhatsappCommand} (hrx : m.rx = c :: rest) (hc : postIn c = some x.written)
    (hnone : receiver x.store x.dest = none)
    (ht : SamePosts { m with rx := rest, cbTx := m.cbTx ++ x.report.toList } t) :
    KeepsPosts [x] m t := by
  refine keepsPosts_take hrx hc ht.rx ?_ ht.cbTx.sublist
  rw [ht.accepted, Taking.accepted, hnone]
  exact (List.append_nil _).symm

theorem wp_acceptMessage (content : ChatMessageContent) (jid : Jid) (m : WhatsappManager) :
    wp (acceptMessage content jid) (fun _ t => AcceptedFor jid content m t)
      (fun _ t => AcceptedFor jid content m t) m := by
  have hafter : ∀ {t}, SamePosts { m with accepted := m.accepted ++ [(jid, content)] } t →
      AcceptedFor jid content m t := fun ht => ⟨ht.accepted, ht.rx, ht.cbTx⟩
  rw [acceptMessage, wp_bind, wp_get, wp_bind, wp_set]
  split
  · exact wp_mono (samePosts_sendMessage content jid _) (fun _ _ ht => hafter ht)
      fun _ _ ht => hafter ht.1
  · exact wp_mono (samePosts_queueMessage content jid _) (fun _ _ ht => hafter ht)
      fun _ _ ht => hafter ht.1

theorem keepsPosts_sendDirectMessage {m : WhatsappManager} {a : PduAddress} {msg : Str}
    {rest : List WhatsappCommand} (hrx : m.rx = .sendDirectMessage a msg :: rest) :
    KeepsPosts [⟨.direct a, msg, m.msgproc.store⟩] m
      (exec (Whatsapp.sendDirectMessage a msg) { m with rx := rest }).2 := by
  apply wp_exec_snd
  unfold Whatsapp.sendDirectMessage
  split
  · rename_i jid hjid
    have hreport : Taking.report ⟨.direct a, msg, m.msgproc.store⟩ = none := by
      simp [Taking.report, hjid]
    have hreceiver : receiver m.msgproc.store (.direct a) = some jid := by
      rw [receiver, hjid]
      rfl
    exact wp_mono (wp_acceptMessage _ jid _)
      (fun _ t ht => keepsPosts_accept hrx rfl hreceiver hreport ht)
      fun _ t ht => keepsPosts_accept hrx rfl hreceiver hreport ht
  · rename_i e he
    have hreport : Taking.report ⟨.direct a, msg, m.msgproc.store⟩ = some (unsendable a e) := by
      simp [Taking.report, he]
    refine keepsPosts_refuse hrx rfl ?_ ?_
    · show receiver m.msgproc.store (.direct a) = none
      rw [receiver, he]
      rfl
    · rw [hreport]
      exact samePosts_inside rfl rfl rfl

theorem keepsPosts_sendGroupMessage {m : WhatsappManager} {chan msg : Str}
    {rest : List WhatsappCommand} (hrx : m.rx = .sendGroupMessage chan msg :: rest) :
    KeepsPosts [⟨.group chan, msg, m.msgproc.store⟩] m
      (exec (Whatsapp.sendGroupMessage chan msg) { m with rx := rest }).2 := by
  have hrefused : ∀ {t}, receiver m.msgproc.store (.group chan) = none →
      SamePosts { m with rx := rest } t →
      KeepsPosts [⟨.group chan, msg, m.msgproc.store⟩] m t := by
    intro t hnone ht
    refine keepsPosts_refuse hrx rfl hnone ⟨ht.accepted, ht.rx, ?_⟩
    exact (List.append_nil m.cbTx).symm ▸ ht.cbTx
  apply wp_exec_snd
  rw [Whatsapp.sendGroupMessage, wp_bind, wp_store, getGroupByChanOpt, wp_query]
  split
  · rename_i hdown
    refine hrefused ?_ (samePosts_inside rfl rfl rfl)
    rw [receiver, if_pos hdown]
  · rename_i hup
    have hreceiver : receiver m.msgproc.store (.group chan) =
        (m.msgproc.store.groups.rows.find? fun grp => grp.channel = chan).bind fun grp =>
          Crates.parseJid grp.jid := by
      rw [receiver, if_neg hup]
    simp only [Store.tick_groups]
    cases hgrp : m.msgproc.store.groups.rows.find? fun grp => grp.channel = chan with
    | none =>
        rw [hgrp] at hreceiver
        exact hrefused hreceiver (samePosts_inside rfl rfl rfl)
    | some grp =>
        rw [hgrp, Option.bind_some] at hreceiver
        dsimp only
        rw [wp_bind]
        cases hjid : Crates.parseJid grp.jid with
        | none => exact hrefused (hreceiver.trans hjid) (samePosts_inside rfl rfl rfl)
        | some jid =>
            have haccept : ∀ {t}, AcceptedFor jid (.text msg) (HasStore.setStore
                { m with rx := rest } m.msgproc.store.tick) t →
                KeepsPosts [⟨.group chan, msg, m.msgproc.store⟩] m t :=
              fun ht => keepsPosts_accept hrx rfl (hreceiver.trans hjid) rfl
                ⟨ht.accepted, ht.rx, ht.cbTx⟩
            change wp (acceptMessage (.text msg) jid) _ _ _
            exact wp_mono (wp_acceptMessage _ jid _) (fun _ t ht => haccept ht)
              fun _ t ht => haccept ht

theorem keepsPosts_handleNext (m : WhatsappManager) :
    KeepsPosts (takes m .handle) m (exec Whatsapp.handleNext m).2 := by
  cases hrx : m.rx with
  | nil =>
      have hnone : takes m .handle = [] := by simp [takes, hrx]
      rw [hnone]
      refine keepsPosts_of_same (wp_exec_snd ?_)
      rw [Whatsapp.handleNext, wp_bind, wp_get, hrx]
      exact Std.Refl.refl (r := SamePosts) m
  | cons c rest =>
      have hrun : (exec Whatsapp.handleNext m).2 =
          (exec (handleIntRx c) { m with rx := rest }).2 := by
        rw [Whatsapp.handleNext, exec_bind_ok (exec_get m), hrx]
        exact congrArg Prod.snd (exec_bind_ok (exec_set m { m with rx := rest }))
      rw [hrun]
      by_cases hc : ∃ x, postIn c = some x
      · obtain ⟨x, hx⟩ := hc
        have htakes : takes m .handle = [⟨x.1, x.2, m.msgproc.store⟩] := by simp [takes, hrx, hx]
        rw [htakes]
        cases c with
        | sendDirectMessage a msg =>
            cases hx
            exact keepsPosts_sendDirectMessage hrx
        | sendGroupMessage chan msg =>
            cases hx
            exact keepsPosts_sendGroupMessage hrx
        | _ => cases hx
      · have hnone : postIn c = none := by
          rw [Option.eq_none_iff_forall_not_mem]
          exact fun x hx => hc ⟨x, hx⟩
        have htakes : takes m .handle = [] := by simp [takes, hrx, hnone]
        rw [htakes]
        have hpop : SamePosts m { m with rx := rest } := by
          refine ⟨rfl, ?_, List.prefix_rfl⟩
          rw [hrx, List.filterMap_cons, hnone]
        have hother : Moves SamePosts (handleIntRx c) := by
          refine receiving_samePosts.handleIntRx c
            (fun r _ => receiving_samePosts.mediaFinished r) ?_ ?_
            fun chan _ => bridging_samePosts.groupRemove chan fun _ => samePosts_store _
          · rintro a msg rfl
            exact absurd ⟨_, rfl⟩ hc
          · rintro chan msg rfl
            exact absurd ⟨_, rfl⟩ hc
        exact keepsPosts_of_same
          (IsTrans.trans (r := SamePosts) _ _ _ hpop (hother.exec _))

theorem samePosts_handlePolled (polled : WaConn.Polled) :
    Moves SamePosts (handlePolled polled) := by
  cases polled with
  | notReady => exact steps_pure _
  | failed => exact Steps.bind steps_get fun _ => steps_throw trivial
  | item r =>
      cases r with
      | error e => exact receiving_samePosts.onWaError e
      | ok e =>
          refine receiving_samePosts.onWaEvent e receiving_samePosts.onContactChange
            (fun msg isNew _ => receiving_samePosts.onMessage msg isNew)
            (fun jid ps _ => samePosts_onEstablished jid ps) fun ack _ => ?_
          exact steps_modify fun m => ⟨rfl, rfl, List.prefix_append _ _⟩

theorem keepsPosts_of_next {s t : WhatsappRuns.Session} {e : WhatsappRuns.Event}
    (hown : ownWhatsapp e = true) (hnext : WhatsappRuns.next s e = some t) :
    KeepsPosts (takes s.manager e) s.manager t.manager := by
  obtain ⟨-, hstep⟩ := WhatsappRuns.next_eq_some hnext
  cases e with
  | poll answers =>
      cases hstep
      refine keepsPosts_of_same (Steps.exec (P := fun _ => True) ?_ s.manager)
      exact steps_get_bind fun m =>
        (samePosts_handlePolled _).after (samePosts_inside rfl rfl rfl)
  | handle =>
      cases hstep
      exact keepsPosts_handleNext s.manager
  | request c => cases hown
  | finished i result =>
      obtain ⟨mi, -, rfl⟩ := Option.map_eq_some_iff.mp hstep
      refine keepsPosts_of_same ⟨rfl, ?_, List.prefix_rfl⟩
      change (s.manager.rx ++ [_]).filterMap postIn = _
      rw [List.filterMap_append]
      exact List.append_nil _
  | drain answers =>
      cases hstep
      exact keepsPosts_of_same
        ((receiving_samePosts.drainOutbox (fun _ _ _ => samePosts_inside rfl rfl rfl)
          answers).exec s.manager)
  | complete done =>
      cases hstep
      exact keepsPosts_of_same ((WhatsappFrame.Frame.pollComplete done).exec s.manager)
  | check =>
      cases hstep
      exact keepsPosts_of_same ⟨rfl, rfl, List.prefix_append _ _⟩
  | otherOp op => cases hown
  | clock now dbNow instant => cases hown

end Posts

section Program

variable [Crates]

/-- What the admin writes in a step of the program. -/
def writtenIn (s : Parts) : Main.Event → List (Destination × Str)
  | .remote m => written s.link.link (.remote m)
  | _ => []

/-- What the admin writes in a run. -/
def writtenOver : Parts → List Main.Event → List (Destination × Str)
  | _, [] => []
  | s, e :: es =>
      writtenIn s e ++
        match Main.next s e with
        | some t => writtenOver t es
        | none => []

theorem SmsTaken.receive {ws xs : List (Destination × Str)} {b : ModemMemory.Bridge}
    {cs : List ModemCommand} (h : SmsTaken ws b.manager) (hcs : cs.filterMap smsIn = xs)
    (st : Store) : SmsTaken (ws ++ xs) (modemNow b st cs).manager := by
  obtain ⟨taken, hws, hgiven, hrefused⟩ := h.order
  refine ⟨⟨taken, ?_, hgiven, hrefused⟩, h.reported⟩
  change _ = taken.map Prod.fst ++ (b.manager.rx ++ cs).filterMap smsIn
  rw [hws, List.filterMap_append, hcs, List.append_assoc]

theorem PostsTaken.receive {ws ws' : List (Destination × Str)} {xs : List Taking}
    {s : WhatsappRuns.Session} {cs : List WhatsappCommand} (h : PostsTaken ws xs s.manager)
    (hcs : cs.filterMap postIn = ws') (st : Store) :
    PostsTaken (ws ++ ws') xs (whatsappNow s st cs).manager := by
  refine ⟨?_, h.accepted, h.reported⟩
  change _ = xs.map Taking.written ++ (s.manager.rx ++ cs).filterMap postIn
  rw [h.written, List.filterMap_append, hcs, List.append_assoc]

theorem SmsTaken.now {ws : List (Destination × Str)} {b : ModemMemory.Bridge}
    (h : SmsTaken ws b.manager) (st : Store) : SmsTaken ws (modemNow b st []).manager := by
  have hnow := h.receive (List.filterMap_nil ..) st
  rwa [List.append_nil] at hnow

theorem PostsTaken.now {ws : List (Destination × Str)} {xs : List Taking}
    {s : WhatsappRuns.Session} (h : PostsTaken ws xs s.manager) (st : Store) :
    PostsTaken ws xs (whatsappNow s st []).manager := by
  have hnow := h.receive (List.filterMap_nil ..) st
  rwa [List.append_nil] at hnow

/-- What the WhatsApp manager takes from its queue in a step of the program. -/
def takenIn (s : Parts) : Main.Event → List Taking
  | .whatsapp e => takes s.wa.manager e
  | _ => []

def takenOver : Parts → List Main.Event → List Taking
  | _, [] => []
  | s, e :: es =>
      takenIn s e ++
        match Main.next s e with
        | some t => takenOver t es
        | none => []

/-- Both parts have taken what the admin has written, but for what is in their queues. -/
structure Taken (ws : List (Destination × Str)) (xs : List Taking) (s : Parts) : Prop where
  sms : SmsTaken (ws.filter isSms) s.modem.manager
  posts : PostsTaken (ws.filter fun x => !isSms x) xs s.wa.manager

theorem Taken.of_link {ws ws' : List (Destination × Str)} {xs : List Taking} {s t : Parts}
    (h : Taken ws xs s) (hpasses : Passes s.link.link t.link.link ws')
    (hmodem : t.modem = modemNow s.modem t.link.link.store
      (since s.link.link.mTx t.link.link.mTx))
    (hwa : t.wa = whatsappNow s.wa t.link.link.store
      (since s.link.link.waTx t.link.link.waTx)) : Taken (ws ++ ws') xs t where
  sms := by
    rw [List.filter_append, hmodem]
    exact h.sms.receive hpasses.sms _
  posts := by
    rw [List.filter_append, hwa]
    exact h.posts.receive hpasses.posts _

theorem writtenIn_eq_nil {s : Parts} {e : Main.Event} (he : ∀ m, e ≠ .remote m) :
    writtenIn s e = [] := by
  unfold writtenIn
  split
  · exact absurd rfl (he _)
  · rfl

theorem taken_stepped {ws : List (Destination × Str)} {xs : List Taking} {s t : Parts}
    {e : Main.Event} (h : Taken ws xs s) (hstep : Stepped s e t) :
    Taken (ws ++ writtenIn s e) (xs ++ takenIn s e) t := by
  have hother : (∀ m, e ≠ .remote m) → takenIn s e = [] → Taken ws xs t →
      Taken (ws ++ writtenIn s e) (xs ++ takenIn s e) t := by
    intro he htaken ht
    rw [writtenIn_eq_nil he, htaken, List.append_nil, List.append_nil]
    exact ht
  have hlink : ∀ {u : Parts} {v : LinkRuns.Session} {e : LinkRuns.Event}, Taken ws xs u →
      LinkRuns.next u.link e = some v → (∀ op, e ≠ .storeOp op) →
      (∀ now dbNow, e ≠ .clock now dbNow) →
      Taken (ws ++ written u.link.link e) xs (afterLink u v) :=
    fun hu hnext hstore hclock =>
      hu.of_link (t := afterLink _ _) (passes_of_next hnext hstore hclock) rfl rfl
  cases hstep with
  | modem hown hnext =>
      exact hother (by simp) rfl
        ⟨managing_of_own managing_keepsSms hown hnext _ h.sms, h.posts.now _⟩
  | whatsapp hown hnext =>
      rw [writtenIn_eq_nil (by simp), List.append_nil]
      exact ⟨h.sms.now _, keepsPosts_of_next hown hnext _ _ h.posts⟩
  | connect hnext =>
      have ht := hlink h hnext (by simp) (by simp)
      rw [written_eq_nil (by simp), List.append_nil] at ht
      exact hother (by simp) rfl ht
  | @remote m t hnext =>
      have hnone : takenIn s (.remote m) = [] := rfl
      rw [hnone, List.append_nil]
      exact hlink h hnext (by simp) (by simp)
  | cf hrx hnext =>
      rename_i c rest u
      have ht := hlink (u := { s with cfRx := rest }) ⟨h.sms, h.posts⟩ hnext (by simp) (by simp)
      rw [written_eq_nil (by simp), List.append_nil] at ht
      exact hother (by simp) rfl ht
  | cb hrx hnext =>
      rename_i c rest u
      have ht := hlink (u := { s with cbRx := rest }) ⟨h.sms, h.posts⟩ hnext (by simp) (by simp)
      rw [written_eq_nil (by simp), List.append_nil] at ht
      exact hother (by simp) rfl ht
  | log => exact hother (by simp) rfl ⟨h.sms, h.posts⟩
  | clock =>
      exact hother (by simp) rfl
        ⟨h.sms.now _, h.posts.written, h.posts.accepted, h.posts.reported⟩

theorem taken_of_run {ws : List (Destination × Str)} {xs : List Taking} {s t : Parts}
    {es : List Main.Event} (h : Taken ws xs s) (hrun : run Main.next s es = some t) :
    Taken (ws ++ writtenOver s es) (xs ++ takenOver s es) t := by
  induction es generalizing ws xs s with
  | nil =>
      cases hrun
      rw [writtenOver, takenOver, List.append_nil, List.append_nil]
      exact h
  | cons e es ih =>
      rw [run_cons, Option.bind_eq_some_iff] at hrun
      obtain ⟨u, hu, hrest⟩ := hrun
      have hlater := ih (taken_stepped h (stepped_of_next hu)) hrest
      rw [writtenOver, takenOver, hu]
      rwa [List.append_assoc, List.append_assoc] at hlater

theorem taken_start (cfg : Config) (w : World) : Taken [] [] (start cfg w) where
  sms := ⟨⟨[], rfl, rfl, rfl⟩, fun _ => Nat.zero_le _⟩
  posts := ⟨rfl, rfl, List.Sublist.refl _⟩

theorem idle_start {cfg : Config} {w : World} (hup : Up w.store)
    (hids : ∀ i j, w.generated i = w.generated j → i = j) : Idle (start cfg w).wa.manager :=
  ⟨hup, rfl, rfl, rfl, rfl, hids⟩

/-- What the admin writes to ghosts of SMS contacts, and nothing else, is taken by the modem
manager in the order in which it is written, and each message is given to the modem or
reported not to be; the admin is told of those that the modem then fails to send. -/
theorem sms_passed_on {cfg : Config} {w : World} {s : Parts} {es : List Main.Event}
    (hrun : run Main.next (start cfg w) es = some s) :
    SmsTaken ((writtenOver (start cfg w) es).filter isSms) s.modem.manager :=
  (taken_of_run (taken_start cfg w) hrun).sms

/-- What the admin writes to ghosts of WhatsApp contacts and to channels of groups, and
nothing else, is taken by the WhatsApp manager in the order in which it is written, and each
message is accepted for the account of its contact or for its group, if there is one. As long as
the database answers and no id is given twice, what has been accepted is in the tracker, as sent
or as waiting, or has expired there. -/
theorem posts_passed_on {cfg : Config} {w : World} {s : Parts} {es : List Main.Event}
    (hrun : run Main.next (start cfg w) es = some s) :
    PostsTaken ((writtenOver (start cfg w) es).filter fun x => !isSms x)
      (takenOver (start cfg w) es) s.wa.manager ∧
    (Up w.store → (∀ i j, w.generated i = w.generated j → i = j) →
      Accounted s.wa.manager) := by
  refine ⟨(taken_of_run (taken_start cfg w) hrun).posts, fun hup hids => ?_⟩
  obtain ⟨es', hes'⟩ := (whatsapp_of_run (fun _ _ _ => trivial) (runOf_of_run hrun)).reachable
  have howing := owing_of_run (idle_start hup hids).owing hes'
  exact ⟨by simpa using howing.conserved, howing.acked, howing.unsent⟩

end Program

section Samples

attribute [local instance] Sample.crates

/-- The admin answers an SMS, whose ghost is the first one. -/
def answering : List Main.Event :=
  [.remote ⟨some ("00BAAAAAA" : Str), .privmsg ("00AZ00001" : Str) ("hello" : Str)⟩,
    .modem (.handle [])]

def answered : Parts :=
  (run Main.next (start sampleConfig sampleWorld)
    (linking ++ receiving ++ delivering ++ answering)).get (by decide +kernel)

example : (answered.modem.manager.commands.filterMap smsOf).map (fun x => x.2) =
    [("hello" : Str)] := by decide +kernel

theorem sms_passed_on_answering :
    SmsTaken ((writtenOver (start sampleConfig sampleWorld)
      (linking ++ receiving ++ delivering ++ answering)).filter isSms) answered.modem.manager :=
  sms_passed_on (Option.some_get _).symm

/-- The admin writes to the channel of the group and to the ghost of its member, and to the
channel again when the group has been unbridged. -/
def posting : List Main.Event :=
  grouping ++ [.remote ⟨some ("00BAAAAAA" : Str), .privmsg ("#g" : Str) ("hello" : Str)⟩,
    .remote ⟨some ("00BAAAAAA" : Str), .privmsg ("00AZ00001" : Str) ("hi" : Str)⟩,
    asking ("GROUP UNBRIDGE #g" : Str),
    .remote ⟨some ("00BAAAAAA" : Str), .privmsg ("#g" : Str) ("bye" : Str)⟩,
    .whatsapp .handle, .whatsapp .handle, .whatsapp .handle, .whatsapp .handle]

def posted : Parts :=
  (run Main.next (start sampleConfig sampleWorld) posting).get (by decide +kernel)

example : posted.wa.manager.accepted =
    [(⟨("2" : Str), true⟩, .text ("hello" : Str)),
      (⟨("44123" : Str), false⟩, .text ("hi" : Str))] := by decide +kernel

theorem posts_passed_on_answering :
    PostsTaken ((writtenOver (start sampleConfig sampleWorld) posting).filter fun x => !isSms x)
      (takenOver (start sampleConfig sampleWorld) posting) posted.wa.manager ∧
    Accounted posted.wa.manager := by
  have hrun : run Main.next (start sampleConfig sampleWorld) posting = some posted :=
    (Option.some_get _).symm
  have hboth := posts_passed_on hrun
  exact ⟨hboth.1, hboth.2 (fun _ => rfl) fun _ _ => decimal_injective⟩

end Samples

end SmsIrc.Outgoing
