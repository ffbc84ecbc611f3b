import SmsIrc.ClientSettling

/-!
What a contact with a connection of its own says of its presence, against all that the
factory has been told in a run of the whole program.
-/

namespace SmsIrc.ClientPresence

open SmsIrc.ClientMain SmsIrc.ClientSettling SmsIrc.Comm SmsIrc.Contact SmsIrc.ContactSessions
open SmsIrc.Database SmsIrc.External SmsIrc.Factory
open SmsIrc.FactoryFrame (Frame carries moves_byNick wp_pollContacts_of wp_pollStarting_of)
open SmsIrc.FactoryKeeping (wp_dropContact)
open SmsIrc.FactoryRuns (Turn factory_of_next)
open SmsIrc.HashMaps SmsIrc.LinkChannels SmsIrc.LinkSettled
open SmsIrc.Main (World)
open SmsIrc.Program SmsIrc.SenderCommon SmsIrc.Text SmsIrc.Transition SmsIrc.Util

section History

variable [Crates]

/-- What has been told of the presence of contacts, in order. -/
abbrev History := List (PduAddress × Option Str)

/-- The last that has been told of a contact; nothing means that it is not away. -/
def lastTold (xs : History) (a : PduAddress) : Option Str :=
  (xs.filter fun x => x.1 = a).getLast?.bind Prod.snd

theorem lastTold_concat (xs : History) (a b : PduAddress) (text : Option Str) :
    lastTold (xs ++ [(a, text)]) b = if b = a then text else lastTold xs b := by
  rw [lastTold, List.filter_append]
  by_cases hb : b = a
  · subst hb
    rw [if_pos rfl, List.filter_singleton, decide_eq_true rfl, cond_true, List.getLast?_concat]
    rfl
  · rw [if_neg hb, List.filter_singleton, decide_eq_false (Ne.symm hb), cond_false,
      List.append_nil]
    rfl

/-- The contact with the nick that the factory comes to first. -/
def named (f : ContactFactory) (nick : Str) : Option PduAddress :=
  ((Crates.hashOrder.run (pairs f.contacts)).find? fun e => e.2.nick = nick).map Prod.fst

/-- What a command tells the factory of the presence of a contact. -/
def presenceIn (f : ContactFactory) : ContactFactoryCommand → History
  | .forwardCommand a (.updateAway text) => [(a, text)]
  | .forwardCommandByNick nick (.updateAway text) =>
      (named f nick).toList.map fun a => (a, text)
  | _ => []

/-- What the factory receives in a step of the program. -/
def toldIn (s : Parts) : Event → History
  | .receiveCf => s.cfRx.head?.toList.flatMap (presenceIn s.factory.factory)
  | _ => []

/-- What it receives in a run. -/
def toldOver : Parts → List Event → History
  | _, [] => []
  | s, e :: es =>
      toldIn s e ++
        match next s e with
        | some t => toldOver t es
        | none => []

end History

section Noted

variable [Crates]

/-- The factory has noted of each contact the last that it has been told. -/
def Noted (xs : History) (f : ContactFactory) : Prop := ∀ a, presenceOf f a = lastTold xs a

/-- A step that notes nothing. -/
def Unnoted (s t : ContactFactory) : Prop := t.contactsPresence = s.contactsPresence

instance isPreorder_unnoted : IsPreorder ContactFactory Unnoted where
  refl _ := rfl
  trans _ _ _ hst htu := htu.trans hst

theorem Noted.kept {xs : History} {s t : ContactFactory} (h : Noted xs s) (hst : Unnoted s t) :
    Noted xs t := by
  intro a
  rw [presenceOf, hst]
  exact h a

theorem unnoted_addCommandTo (a : PduAddress) (cmd : ContactManagerCommand) :
    Moves Unnoted (addCommandTo a cmd) := by
  refine steps_modify fun f => ?_
  cases hc : f.contacts.lookup a with
  | none => rfl
  | some c => rfl

theorem unnoted_dropContact (a : PduAddress) :
    Moves Unnoted (ContactCommon.dropContact a : FactoryM Unit) := by
  intro s
  refine wp_mono (wp_dropContact s a) ?_ ?_
  · rintro _ t ⟨-, rfl⟩
    rfl
  · rintro _ t rfl
    exact ⟨rfl, trivial⟩

theorem unnoted_frame : Frame Unnoted where
  query f :=
    Steps.zoom (moves_query (S := fun _ _ => True) (fun _ => trivial) f) fun _ _ _ => rfl
  setupFor _ _ := steps_modify fun _ => rfl
  askModem _ := steps_modify fun _ => rfl
  askWhatsapp _ := steps_modify fun _ => rfl
  subscribe _ := steps_modify fun _ => rfl
  respond _ := steps_modify fun _ => rfl
  command a cmd _ := unnoted_addCommandTo a cmd
  drop := unnoted_dropContact
  groups := steps_modify fun _ => rfl
  retried _ := rfl

/-- What the factory is told is noted, whether there is a contact or not. -/
theorem noted_updateAway {xs : History} {s : ContactFactory} (h : Noted xs s) (a : PduAddress)
    (text : Option Str) :
    wp (Factory.updateAway a text) (fun _ t => Noted (xs ++ [(a, text)]) t) (fun _ _ => True) s := by
  rw [Factory.updateAway, wp_bind]
  refine wp_mono (unnoted_addCommandTo a _ s) (fun _ t ht => ?_) fun _ _ _ => trivial
  rw [wp_modify]
  intro b
  rw [lastTold_concat, presenceOf, lookup_insert]
  split
  · rfl
  · exact h.kept ht b

theorem noted_forwardCmd {xs : History} {s : ContactFactory} (h : Noted xs s) (a : PduAddress)
    (cmd : ContactManagerCommand) :
    wp (Factory.forwardCmd a cmd)
      (fun _ t => Noted (xs ++ presenceIn s (.forwardCommand a cmd)) t) (fun _ _ => True) s := by
  by_cases haway : ∃ text, cmd = .updateAway text
  · obtain ⟨text, rfl⟩ := haway
    exact noted_updateAway h a text
  · have hsame := unnoted_frame.forwardCmd a fun text heq => absurd ⟨text, heq⟩ haway
    refine wp_mono (hsame s) (fun _ t ht => ?_) fun _ _ _ => trivial
    have hnone : presenceIn s (.forwardCommand a cmd) = [] := by
      cases cmd with
      | updateAway text => exact absurd ⟨text, rfl⟩ haway
      | _ => rfl
    rw [hnone, List.append_nil]
    exact h.kept ht

theorem wp_byNick {s : ContactFactory} {nick : Str} {cmd : ContactManagerCommand}
    {Q : Unit → ContactFactory → Prop} {E : Failure → ContactFactory → Prop}
    (hnone : named s nick = none → Q () s)
    (hsome : ∀ a, named s nick = some a → wp (Factory.forwardCmd a cmd) Q E s) :
    wp (Factory.handleCommand (.forwardCommandByNick nick cmd)) Q E s := by
  have hexec : exec (Factory.resolveNick nick) s = (.ok (named s nick), s) := rfl
  change wp (Factory.resolveNick nick >>= _) Q E s
  rw [wp, exec_bind_ok hexec, ← wp]
  cases hn : named s nick with
  | none => exact hnone hn
  | some a => exact hsome a hn

theorem noted_handleCommand {xs : History} {s : ContactFactory} (h : Noted xs s)
    (c : ContactFactoryCommand) :
    wp (Factory.handleCommand c) (fun _ t => Noted (xs ++ presenceIn s c) t) (fun _ _ => True)
      s := by
  by_cases haway : ∃ text, carries c = some (.updateAway text)
  · obtain ⟨text, hc⟩ := haway
    cases c with
    | forwardCommand a cmd => exact noted_forwardCmd h a cmd
    | forwardCommandByNick nick cmd =>
        cases hc
        have hnamed : presenceIn s (.forwardCommandByNick nick (.updateAway text)) =
            (named s nick).toList.map fun a => (a, text) := rfl
        rw [hnamed]
        refine wp_byNick (fun hn => ?_) fun a hn => ?_
        · rw [hn]
          change Noted (xs ++ []) s
          rwa [List.append_nil]
        · rw [hn]
          exact noted_updateAway h a text
    | _ => cases hc
  · have hsame : Moves Unnoted (Factory.handleCommand c) := by
      refine unnoted_frame.handleCommand (fun _ => ?_) fun a text hc => absurd ⟨text, hc⟩ haway
      exact unnoted_frame.processMessages fun _ _ => rfl
    refine wp_mono (hsame s) (fun _ t ht => ?_) fun _ _ _ => trivial
    have hnone : presenceIn s c = [] := by
      unfold presenceIn
      split
      · exact absurd ⟨_, rfl⟩ haway
      · exact absurd ⟨_, rfl⟩ haway
      · rfl
    rw [hnone, List.append_nil]
    exact h.kept ht

theorem unnoted_turn {s : ContactFactory} {u : Turn} (hown : ownTurn u = true) :
    wp u.run (fun _ t => Unnoted s t) (fun _ _ => True) s := by
  cases u with
  | command c => cases hown
  | starting answers =>
      refine wp_mono (wp_pollStarting_of (P := fun _ _ _ => True) (fun _ _ _ _ _ _ _ => trivial)
        (fun _ _ _ => trivial) answers) (fun _ t ht => ht.presence) fun _ _ _ => trivial
  | contacts activity =>
      refine wp_mono (wp_pollContacts_of (P := fun _ _ _ => True) (S := fun _ => Keeps)
        (T := Keeps) (fun _ _ _ => trivial) (fun hst => hst) (fun f a c i _ => ?_)
        (fun _ _ _ => trivial) activity) (fun _ t ht => ht.1.presence) fun _ _ _ => trivial
      have hkeeps : wp (Contact.poll i) (fun _ t => Keeps f.store t.store)
          (fun _ t => Keeps f.store t.store) (sharing f c) :=
        leaves_keeps.poll i fun nick src _ a =>
          keeps_updateRecipient a (fun r => { r with nick := nick, nicksrc := src }) _ fun _ => rfl
      exact wp_mono hkeeps (fun _ _ ht => ⟨trivial, ht⟩) fun _ _ ht => ht
  | tick r => exact wp_mono (unnoted_frame.onTick r s) (fun _ t ht => ht) fun _ _ _ => trivial

end Noted

section Program

variable [Crates]

theorem noted_stepped {xs : History} {s t : Parts} {e : Event} (h : Noted xs s.factory.factory)
    (hstep : Stepped s e t) (ht : running t = true) :
    Noted (xs ++ toldIn s e) t.factory.factory := by
  obtain ⟨-, -, hout, -⟩ := outcomes_of_running ht
  have hother : toldIn s e = [] → Unnoted s.factory.factory t.factory.factory →
      Noted (xs ++ toldIn s e) t.factory.factory := by
    intro hnone hsame
    rw [hnone, List.append_nil]
    exact h.kept hsame
  cases hstep with
  | begin => exact hother rfl rfl
  | modem hown hu => exact hother rfl rfl
  | whatsapp hown hu => exact hother rfl rfl
  | turn hown hu => exact hother rfl (factory_of_next (unnoted_turn hown) hu hout)
  | cf hrx hu =>
      rename_i c rest u
      have htold : toldIn s .receiveCf = presenceIn s.factory.factory c := by
        rw [toldIn, hrx]
        exact List.append_nil _
      rw [htold]
      exact factory_of_next (u := .command c) (noted_handleCommand h c) hu hout
  | bot hown hu => exact hother rfl rfl
  | cb hrx hu => exact hother rfl rfl
  | log => exact hother rfl rfl
  | clock => exact hother rfl rfl

theorem noted_of_run {xs : History} {s t : Parts} {es : List Event}
    (h : Noted xs s.factory.factory) (hrun : run next s es = some t) (ht : running t = true) :
    Noted (xs ++ toldOver s es) t.factory.factory := by
  induction es generalizing xs s with
  | nil =>
      cases hrun
      rw [toldOver, List.append_nil]
      exact h
  | cons e es ih =>
      rw [run_cons, Option.bind_eq_some_iff] at hrun
      obtain ⟨u, hu, hrest⟩ := hrun
      have hlater := ih (noted_stepped h (stepped_of_next hu) (running_of_run hrest ht)) hrest
      rw [toldOver, hu]
      rwa [List.append_assoc] at hlater

/-- In every run of the program in client mode, the last that a connected contact has said of
its presence is the last that the factory was told of it, also before the contact connected,
unless the contact has still to be told. -/
theorem presence_settles {cfg : Config} {w : World} {refuses : Nat → Option Str} {s : Parts}
    {es : List Event} (hrun : run next (start cfg w refuses) es = some s)
    (hs : running s = true) {a : PduAddress} {c : ContactManager}
    (hc : s.factory.factory.contacts.lookup a = some c) (hconn : c.connected = true)
    (htold : ∀ text, .updateAway text ∉ c.rx) :
    (aways c).getLast? = some (lastTold (toldOver (start cfg w refuses) es) a) := by
  have hfitting : Fitting True s := fitting_of_run (fun hno => absurd trivial hno) ⟨es, hrun⟩ hs
  have hfits := hfitting a c hc
  have hnoted : Noted [] (start cfg w refuses).factory.factory := fun _ => rfl
  have hafter : awayAfter c.rx c.presence = c.presence := awayAfter_of_notMem htold
  rw [hfits.faithful.presence hconn, ← hafter, hfits.presence]
  exact congrArg some (noted_of_run hnoted hrun hs a)

end Program

section Samples

attribute [local instance] Sample.crates

theorem presence_settles_connected :
    (aways alice).getLast? = some (lastTold (toldOver sampleStart connecting) Sample.alice) ∧
      toldOver sampleStart connecting =
        [(Sample.alice, some ("currently offline" : Str))] := by
  have hs : running connected = true := by decide +kernel
  have hconn : alice.connected = true := by decide +kernel
  have hrx : alice.rx = [] := by decide +kernel
  have htold : ∀ text, .updateAway text ∉ alice.rx := by
    intro text hmem
    rw [hrx] at hmem
    cases hmem
  have hrun : run next sampleStart connecting = some connected := (Option.some_get _).symm
  have hsaid : (aways alice).getLast? =
      some (lastTold (toldOver sampleStart connecting) Sample.alice) :=
    presence_settles hrun hs lookup_alice hconn htold
  exact ⟨hsaid, by decide +kernel⟩

end Samples

end SmsIrc.ClientPresence
