import SmsIrc.LinkTold
import SmsIrc.MainViews
import SmsIrc.TableHistory

/-!
What becomes of the SMS that arrive: each is in the memory of the modem, in a listing,
in the database, or sent by a ghost, and in one of them only.
-/

namespace SmsIrc.SmsAccounts

open SmsIrc.Comm SmsIrc.Database SmsIrc.External SmsIrc.Link SmsIrc.LinkDeeds SmsIrc.LinkTold
open SmsIrc.Main SmsIrc.MainViews SmsIrc.Modem SmsIrc.Models SmsIrc.ModemMemory
open SmsIrc.PartFrames SmsIrc.Program SmsIrc.Sample SmsIrc.SenderCommon SmsIrc.SerialTable
open SmsIrc.Simulation SmsIrc.TableHistory SmsIrc.Text SmsIrc.Transition SmsIrc.Util

section Memory

variable [Crates]

/-- Neither what has been stored changes, nor what listings have found. -/
structure Quiet (s t : ModemManager) : Prop where
  stored : t.stored = s.stored
  outstanding : outstanding t = outstanding s

instance : IsPreorder ModemManager Quiet where
  refl _ := ⟨rfl, rfl⟩
  trans _ _ _ hst htu :=
    ⟨htu.stored.trans hst.stored, htu.outstanding.trans hst.outstanding⟩

/-- How often a PDU is stored, found by a listing that has not been dealt with, or unread. -/
def held (p : List UInt8) (s : Bridge) : Nat :=
  s.manager.stored.count p + (pdus (outstanding s.manager)).count p +
    (pdus (unread s.memory)).count p

end Memory

section Rows

/-- A stored SMS, as it has been received. -/
def isSms (p : List UInt8) (m : Message) : Bool := m.pdu = some p && m.groupTarget = none

/-- How many rows are SMS of a PDU. -/
def smsRows (p : List UInt8) (rows : List Message) : Nat := rows.countP (isSms p)

variable [Crates]

/-- The use of the database leaves the rows that are SMS. -/
def SameSms (st st' : Store) : Prop := ∀ p, smsRows p st'.messages.rows = smsRows p st.messages.rows

instance : IsPreorder Store SameSms where
  refl _ _ := rfl
  trans _ _ _ hst htu p := (htu p).trans (hst p)

theorem sameSms_execute {f : Store → Store} (hf : ∀ st, SameSms st (f st)) :
    Moves SameSms (Database.execute f) := moves_execute (fun _ _ => rfl) hf

theorem whatsapp_sameSms : WhatsappUses SameSms where
  tick _ _ := rfl
  recipient _ _ _ _ _ := moves_insertRecipient (fun _ _ => rfl) fun _ _ => rfl
  group _ _ _ := moves_storeGroup (fun _ _ => rfl) fun _ _ _ _ _ => rfl
  update _ _ _ _ := moves_updateGroup (fun _ _ => rfl) fun _ _ _ _ _ => rfl
  message a text group ts := by
    refine Steps.bind (moves_query (fun _ _ => rfl) _) fun valid => ?_
    split
    · refine steps_modify fun st p => ?_
      simp [smsRows, isSms]
    · exact steps_throw trivial
  ntf _ _ := sameSms_execute fun _ _ => rfl
  msgid _ := sameSms_execute fun _ _ => rfl
  persistence _ := sameSms_execute fun _ _ => rfl
  deleteGroup id := by
    refine moves_checked (fun _ _ => rfl) fun st p => ?_
    change ((st.messages.rows.filter fun m => m.groupTarget ≠ some id).countP (isSms p)) = _
    rw [List.countP_filter]
    refine List.countP_congr fun m _ => ?_
    simp only [isSms, Bool.and_eq_true, decide_eq_true_eq]
    constructor
    · exact fun h => h.1
    · rintro ⟨hpdu, hnone⟩
      exact ⟨⟨hpdu, hnone⟩, by simp [hnone]⟩

/-- What the modem manager puts on record is in the database. -/
def Recorded (s t : ModemManager) : Prop :=
  ∀ p, smsRows p t.store.messages.rows + s.stored.count p =
    smsRows p s.store.messages.rows + t.stored.count p

instance : IsPreorder ModemManager Recorded where
  refl _ _ := rfl
  trans s t u hst htu p := by
    have := hst p
    have := htu p
    omega

theorem recorded_modify {f : ModemManager → ModemManager} (hf : ∀ mgr, Recorded mgr (f mgr)) :
    Moves Recorded (modify f : ModemM PUnit) := steps_modify hf

theorem modemFrame_recorded : ModemFrame Recorded where
  inner _ _ _ _ := rfl
  spawn _ _ := recorded_modify fun _ _ => rfl
  cb _ _ := recorded_modify fun _ _ => rfl
  tick _ _ := rfl
  created a := by
    refine Steps.bind (Steps.zoom (S := SameSms)
      (moves_insertRecipient (fun _ _ => rfl) fun _ _ => rfl) fun mgr st hst p => ?_) fun _ => ?_
    · change smsRows p st.messages.rows + _ = _
      rw [hst p]
      rfl
    · exact Steps.bind (recorded_modify fun _ _ => rfl) fun _ => recorded_modify fun _ _ => rfl

theorem managing_recorded : Managing Recorded := by
  refine modemFrame_recorded.managing (fun msgs => ?_) (fun addr msg => ?_) (fun _ _ _ => rfl)
    (fun _ _ _ => rfl) fun _ => recorded_modify fun _ _ => rfl
  · refine Steps.bind (Steps.forM fun msg _ => ?_) fun _ => recorded_modify fun _ _ => rfl
    unfold storeListed
    split
    · exact steps_pure _
    · intro mgr
      rw [wp_bind, SenderCommon.store, wp_zoom]
      refine wp_execute_of ⟨fun _ => rfl, trivial⟩ fun p => ?_
      change smsRows p (mgr.store.messages.rows ++ [_]) + _ =
        smsRows p mgr.store.messages.rows + (mgr.stored ++ [msg.rawPdu]).count p
      rw [smsRows, List.countP_append, List.count_append, List.countP_singleton,
        List.count_singleton]
      simp only [isSms, Option.some.injEq, decide_true, Bool.and_true, decide_eq_true_eq, beq_iff_eq,
        smsRows]
      omega
  · refine Steps.bind steps_get fun mgr => ?_
    split
    · exact recorded_modify fun _ _ => rfl
    · exact recorded_modify fun _ _ => rfl

theorem smsRows_of_sends {s t : InspLink} {ds : List Deed} (h : Sends s t ds) (p : List UInt8) :
    smsRows p t.store.messages.rows + smsRows p (ds.flatMap Deed.rows) =
      smsRows p s.store.messages.rows := by
  rw [h.left, smsRows, smsRows, ← List.countP_append]
  exact (perm_take s.store.messages h.nodup h.stored).symm.countP_eq _

end Rows

section Accounts

variable [Crates]

/-- The SMS of the database when the program was started and those that have been stored
since are there, or have been sent. -/
structure Account (w : World) (s : Parts) (ds : List Deed) : Prop where
  calls : s.link.link.calls = ds.flatMap Deed.calls
  lines : (ds.flatMap linesOf).Sublist s.link.link.outbox
  rows : ∀ p, smsRows p s.link.link.store.messages.rows + smsRows p (ds.flatMap Deed.rows) =
    smsRows p w.store.messages.rows + s.modem.manager.stored.count p

theorem account_start (cfg : Config) (w : World) : Account w (start cfg w) [] :=
  ⟨rfl, List.nil_sublist _, fun _ => rfl⟩

theorem Account.of_sameSms {w : World} {s t : Parts} {ds : List Deed} (h : Account w s ds)
    (hcalls : t.link.link.calls = s.link.link.calls)
    (hout : s.link.link.outbox <+: t.link.link.outbox)
    (hrows : ∀ p, smsRows p t.link.link.store.messages.rows + s.modem.manager.stored.count p =
      smsRows p s.link.link.store.messages.rows + t.modem.manager.stored.count p) :
    Account w t ds where
  calls := hcalls.trans h.calls
  lines := h.lines.trans hout.sublist
  rows p := by
    have := h.rows p
    have := hrows p
    omega

theorem Account.of_sends {w : World} {s t : Parts} {ds es : List Deed} (h : Account w s ds)
    (hsends : Sends s.link.link t.link.link es)
    (hlines : ∃ ls, t.link.link.outbox = s.link.link.outbox ++ ls ∧
      (es.flatMap linesOf).Sublist ls)
    (hstored : t.modem.manager.stored = s.modem.manager.stored) : Account w t (ds ++ es) := by
  refine ⟨?_, ?_, fun p => ?_⟩
  · rw [hsends.calls, h.calls, List.flatMap_append]
  · obtain ⟨ls, hout, hsub⟩ := hlines
    rw [hout, List.flatMap_append]
    exact h.lines.append hsub
  · have hsum : smsRows p ((ds ++ es).flatMap Deed.rows) =
        smsRows p (ds.flatMap Deed.rows) + smsRows p (es.flatMap Deed.rows) := by
      rw [List.flatMap_append, smsRows, List.countP_append]
      rfl
    have := h.rows p
    have := smsRows_of_sends hsends p
    rw [hstored, hsum]
    omega

def isLink : Main.Event → Bool
  | .connect => true
  | .remote _ => true
  | .receiveCf => true
  | .receiveCb => true
  | _ => false

theorem account_apart {w : World} {s t : Parts} {e : Main.Event} {ds : List Deed} (hs : Shared s)
    (h : Stepped s e t) (he : isLink e = false) (hds : Account w s ds) : Account w t ds := by
  cases h with
  | modem hown h =>
      refine hds.of_sameSms rfl List.prefix_rfl fun p => ?_
      have hrec := managing_of_own managing_recorded hown h p
      rw [hs.modem] at hrec
      exact hrec
  | whatsapp hown h =>
      refine hds.of_sameSms rfl List.prefix_rfl fun p => ?_
      have hsame := whatsapp_of_uses whatsapp_sameSms hown h p
      rw [hs.wa] at hsame
      exact congrArg (· + s.modem.manager.stored.count p) hsame
  | log => exact ⟨hds.calls, hds.lines, hds.rows⟩
  | clock => exact ⟨hds.calls, hds.lines, hds.rows⟩
  | connect h => cases he
  | remote h => cases he
  | cf hrx h => cases he
  | cb hrx h => cases he

theorem running_of_run {s t : Parts} {es : List Main.Event} (hrun : run Main.next s es = some t)
    (ht : running t = true) : running s = true := by
  cases es with
  | nil =>
      cases hrun
      exact ht
  | cons e es =>
      rw [run_cons, Option.bind_eq_some_iff] at hrun
      obtain ⟨u, hu, -⟩ := hrun
      exact (running_of_next hu).1

/-- What a deed tells is told in some step of a run. -/
def ToldIn (s : Parts) (es : List Main.Event) (d : Deed) : Prop :=
  ∃ k u v, run Main.next s (es.take k) = some u ∧ run Main.next s (es.take (k + 1)) = some v ∧
    Told u.link.link v.link.link d

theorem toldIn_cons {s u : Parts} {e : Main.Event} {es : List Main.Event} {d : Deed}
    (hu : Main.next s e = some u) (h : Told s.link.link u.link.link d ∨ ToldIn u es d) :
    ToldIn s (e :: es) d := by
  rcases h with h | ⟨k, v, w, hv, hw, h⟩
  · refine ⟨0, s, u, rfl, ?_, h⟩
    rw [List.take_succ_cons, run_cons, hu]
    rfl
  · refine ⟨k + 1, v, w, ?_, ?_, h⟩
    · rw [List.take_succ_cons, run_cons, hu]
      exact hv
    · rw [List.take_succ_cons, run_cons, hu]
      exact hw

end Accounts

section Samples

attribute [local instance] Sample.crates

end Samples

end SmsIrc.SmsAccounts
