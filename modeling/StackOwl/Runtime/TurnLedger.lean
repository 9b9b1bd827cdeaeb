import Mathlib.Data.List.Count
import Mathlib.Data.List.Nodup
import Mathlib.Logic.Function.Basic

/-!
# A ledger of turns

Where the messages of the users are between their submission and their answer, and how
they move: what the gateway's link is for, without its connections.  A message is
buffered, held by a flush, in flight, finished or surfaced; a flush sends the messages it
holds one by one.

A step says under which condition nothing is lost, doubled, overtaken or sent too often.

## Main results

* `Ledger.Step.placed` — every message stays in exactly one place.
* `Ledger.Step.ordered` — the messages of a session first reach the core in the order
  they were submitted.
* `Ledger.Step.counted` — no message is sent more often than once and the replays.
-/

namespace StackOwl.Runtime

open List Function

/-- `IngressMessage`, as far as the link looks at it. -/
structure IngressMessage where
  traceId : String
  sessionKey : String
  channel : String
  deriving DecidableEq

def MAX_REPLAY_ATTEMPTS : Nat := 3

/-- Where the messages are, and what has happened to them. -/
structure Ledger where
  pending : List IngressMessage
  /-- What flushes have swapped out and not yet sent. -/
  held : List IngressMessage
  /-- What flushes are sending; whether it reaches the core. -/
  sending : List (IngressMessage × Bool)
  inflight : List IngressMessage
  replayAttempts : String → Nat
  submitted : List IngressMessage
  /-- The calls of `FrameConnection.send`; whether the frame reaches the core. -/
  calls : List (IngressMessage × Bool)
  finished : List IngressMessage
  surfaced : List IngressMessage

namespace Ledger

variable (t : Ledger)

def places : List IngressMessage :=
  t.pending ++ t.held ++ t.inflight ++ t.finished ++ t.surfaced

def reached : List IngressMessage :=
  (t.calls.filter fun call => call.2).map Prod.fst

/-- The messages in the order in which they first reached a core. -/
def firstSends : List IngressMessage := t.reached.eraseDups

/-- The messages that may still reach a core, in the order they would. -/
def line : List IngressMessage := t.inflight ++ t.held ++ t.pending

def unsent (reached msgs : List IngressMessage) : List IngressMessage :=
  msgs.filter fun msg => msg ∉ reached

def onSession (session : String) (msgs : List IngressMessage) : List IngressMessage :=
  msgs.filter fun msg => msg.sessionKey = session

def waiting : List IngressMessage := unsent t.reached t.line

def tries (msg : IngressMessage) : Nat := (t.calls.map Prod.fst).count msg

/-- Nothing else of the message's session waits. -/
def Alone (msg : IngressMessage) : Prop :=
  msg ∉ t.reached → ∀ other ∈ t.waiting, other ≠ msg → other.sessionKey ≠ msg.sessionKey

/-- A message whose replay has failed: queued again, or surfaced at the last attempt. -/
def replayFailed (msg : IngressMessage) : Ledger :=
  if t.replayAttempts msg.traceId + 1 < MAX_REPLAY_ATTEMPTS then
    { t with
      replayAttempts := update t.replayAttempts msg.traceId
        (t.replayAttempts msg.traceId + 1)
      pending := t.pending ++ [msg] }
  else
    { t with
      replayAttempts := update t.replayAttempts msg.traceId 0
      surfaced := t.surfaced ++ [msg] }

/-- How the messages move. -/
inductive Step (t : Ledger) : Ledger → Prop where
  | same : Step t t
  | buffer (msg : IngressMessage) :
      (∀ other ∈ t.submitted, other.traceId ≠ msg.traceId) →
      Step t { t with submitted := t.submitted ++ [msg], pending := t.pending ++ [msg] }
  | direct (msg : IngressMessage) (reaches : Bool) :
      (∀ other ∈ t.submitted, other.traceId ≠ msg.traceId) →
      (∀ other ∈ t.waiting, other.sessionKey ≠ msg.sessionKey) →
      Step t { t with
        submitted := t.submitted ++ [msg]
        inflight := t.inflight ++ [msg]
        calls := t.calls ++ [(msg, reaches)] }
  | swap : t.held = [] → t.sending = [] →
      Step t { t with held := t.pending, pending := [] }
  | take (msg : IngressMessage) (reaches : Bool) (rest : List IngressMessage) :
      t.held = msg :: rest → t.sending = [] →
      (∀ other ∈ t.inflight, other ∉ t.reached → other.sessionKey ≠ msg.sessionKey) →
      Step t { t with
        held := rest
        inflight := t.inflight ++ [msg]
        calls := t.calls ++ [(msg, reaches)]
        sending := [(msg, reaches)] }
  | refuse (msg : IngressMessage) (rest : List IngressMessage) :
      t.held = msg :: rest → t.sending = [] → t.Alone msg →
      Step t (replayFailed { t with held := rest } msg)
  | forwarded (msg : IngressMessage) : t.sending = [(msg, true)] →
      Step t { t with
        sending := []
        replayAttempts := update t.replayAttempts msg.traceId 0 }
  | failed (msg : IngressMessage) : t.sending = [(msg, false)] → msg ∈ t.inflight →
      t.Alone msg →
      Step t (replayFailed { t with
        sending := []
        inflight := t.inflight.filter fun other => other ≠ msg } msg)
  | finish (msg : IngressMessage) : msg ∈ t.inflight →
      Step t { t with
        inflight := t.inflight.filter fun other => other ≠ msg
        finished := t.finished ++ [msg] }
  | cut : t.held = [] → (∀ msg ∈ t.inflight, t.tries msg ≤ 1) →
      Step t { t with
        sending := []
        inflight := []
        pending := t.inflight ++ t.pending }

/-! ## Every message in one place -/

/-- Every message is in exactly one place, and has an id of its own. -/
structure Placed (t : Ledger) : Prop where
  count : ∀ msg, t.places.count msg = t.submitted.count msg
  unique : (t.submitted.map IngressMessage.traceId).Nodup

variable {t} {t' : Ledger}

theorem Placed.count_le (h : t.Placed) (msg : IngressMessage) :
    t.places.count msg ≤ 1 := by
  rw [h.count]
  exact nodup_iff_count_le_one.mp (List.Nodup.of_map _ h.unique) msg

variable {msg : IngressMessage}

theorem Placed.not_finished (h : t.Placed) (hmem : msg ∈ t.inflight) : msg ∉ t.finished := by
  intro hfinished
  have hle := h.count_le msg
  have hone := count_pos_iff.mpr hmem
  have htwo := count_pos_iff.mpr hfinished
  simp only [places, count_append] at hle
  omega

theorem Placed.mem (h : t.Placed) :
    msg ∈ t.places ↔ msg ∈ t.submitted := by
  rw [← count_pos_iff, ← count_pos_iff, h.count]

variable {other : IngressMessage}

theorem Placed.eq_of_traceId (h : t.Placed) (hmsg : msg ∈ t.places) (hother : other ∈ t.places)
    (hid : msg.traceId = other.traceId) : msg = other :=
  inj_on_of_nodup_map h.unique (h.mem.mp hmsg) (h.mem.mp hother) hid

theorem Placed.not_mem (h : t.Placed)
    (hfresh : ∀ other ∈ t.submitted, other.traceId ≠ msg.traceId) : msg ∉ t.places := by
  intro hmem
  exact hfresh msg (h.mem.mp hmem) rfl

variable {msgs : List IngressMessage}

theorem nodup_append_fresh (h : (msgs.map IngressMessage.traceId).Nodup)
    (hfresh : ∀ other ∈ msgs, other.traceId ≠ msg.traceId) :
    ((msgs ++ [msg]).map IngressMessage.traceId).Nodup := by
  rw [map_append, nodup_append]
  refine ⟨h, nodup_singleton _, ?_⟩
  intro a ha b hb
  obtain ⟨other, hother, rfl⟩ := mem_map.mp ha
  obtain rfl := mem_singleton.mp hb
  exact hfresh other hother

theorem Placed.count_taken (h : t.Placed) (hmem : msg ∈ t.inflight) (x : IngressMessage) :
    (t.inflight.filter fun other => other ≠ msg).count x + [msg].count x = t.inflight.count x := by
  by_cases hx : x = msg
  · subst hx
    have hpos := count_pos_iff.mpr hmem
    have hle := h.count_le x
    have hgone : (t.inflight.filter fun other => other ≠ x).count x = 0 :=
      count_eq_zero.mpr (by simp)
    simp only [places, count_append] at hle
    rw [hgone, count_singleton_self]
    omega
  · have hzero : [msg].count x = 0 := by
      simpa [count_eq_zero] using hx
    rw [hzero, count_filter (by simpa using hx)]
    rfl

theorem count_replayFailed (t : Ledger) (msg x : IngressMessage) :
    (t.replayFailed msg).places.count x = t.places.count x + [msg].count x := by
  rw [replayFailed]
  split <;> simp only [places, count_append] <;> omega

@[simp] theorem submitted_replayFailed (t : Ledger) (msg : IngressMessage) :
    (t.replayFailed msg).submitted = t.submitted := by
  rw [replayFailed]
  split <;> rfl

theorem Step.placed (hstep : t.Step t') (h : t.Placed) : t'.Placed := by
  cases hstep with
  | same => exact h
  | buffer msg hfresh =>
    refine ⟨fun x => ?_, nodup_append_fresh h.unique hfresh⟩
    have hcount := h.count x
    simp only [places, count_append] at hcount ⊢
    omega
  | direct msg reaches hfresh _ =>
    refine ⟨fun x => ?_, nodup_append_fresh h.unique hfresh⟩
    have hcount := h.count x
    simp only [places, count_append] at hcount ⊢
    omega
  | swap hheld _ =>
    refine ⟨fun x => ?_, h.unique⟩
    have hcount := h.count x
    simp only [places, hheld, count_append, count_nil] at hcount ⊢
    omega
  | take msg reaches rest hheld _ _ =>
    refine ⟨fun x => ?_, h.unique⟩
    have hcount := h.count x
    simp only [places, hheld, count_append, count_cons, count_nil]
      at hcount ⊢
    omega
  | refuse msg rest hheld _ _ =>
    refine ⟨fun x => ?_, by rw [submitted_replayFailed]; exact h.unique⟩
    have hcount := h.count x
    rw [count_replayFailed, submitted_replayFailed]
    simp only [places, hheld, count_append, count_cons, count_nil]
      at hcount ⊢
    omega
  | forwarded msg _ => exact ⟨h.count, h.unique⟩
  | failed msg _ hmem _ =>
    refine ⟨fun x => ?_, by rw [submitted_replayFailed]; exact h.unique⟩
    have hcount := h.count x
    have htaken := h.count_taken hmem x
    rw [count_replayFailed, submitted_replayFailed]
    simp only [places, count_append] at hcount ⊢
    omega
  | finish msg hmem =>
    refine ⟨fun x => ?_, h.unique⟩
    have hcount := h.count x
    have htaken := h.count_taken hmem x
    simp only [places, count_append] at hcount ⊢
    omega
  | cut hheld _ =>
    refine ⟨fun x => ?_, h.unique⟩
    have hcount := h.count x
    simp only [places, count_append, count_nil] at hcount ⊢
    omega

/-! ## Every session in order -/

/-- What has reached the core of a session and what waits behind it are in the order of
their submission. -/
structure Ordered (t : Ledger) : Prop where
  sublist : ∀ session,
    (onSession session (t.firstSends ++ t.waiting)).Sublist t.submitted
  known : ∀ call ∈ t.calls, call.1 ∈ t.submitted

theorem Ordered.reached_mem (h : t.Ordered) (hmsg : msg ∈ t.reached) :
    msg ∈ t.submitted := by
  obtain ⟨call, hcall, rfl⟩ := mem_map.mp hmsg
  exact h.known call (mem_filter.mp hcall).1

theorem unsent_append (reached msgs msgs' : List IngressMessage) :
    unsent reached (msgs ++ msgs') = unsent reached msgs ++ unsent reached msgs' :=
  filter_append _ _

theorem onSession_append (session : String) (msgs msgs' : List IngressMessage) :
    onSession session (msgs ++ msgs') = onSession session msgs ++ onSession session msgs' :=
  filter_append _ _

theorem mem_unsent {reached : List IngressMessage} :
    msg ∈ unsent reached msgs ↔ msg ∈ msgs ∧ msg ∉ reached := by
  simp [unsent]

/-- What has just been sent was not among the others. -/
theorem unsent_reach {reached : List IngressMessage} (h : msg ∉ msgs) :
    unsent (reached ++ [msg]) msgs = unsent reached msgs := by
  apply filter_congr
  intro other hother
  have hne : other ≠ msg := fun heq => h (heq ▸ hother)
  simp [hne]

variable {session : String}

theorem onSession_eq_nil (h : ∀ msg ∈ msgs, msg.sessionKey ≠ session)
    : onSession session msgs = [] := by
  apply filter_eq_nil_iff.mpr
  intro msg hmsg
  simpa using h msg hmsg

theorem onSession_singleton_ne (h : msg.sessionKey ≠ session) :
    onSession session [msg] = [] :=
  onSession_eq_nil fun _ hother => mem_singleton.mp hother ▸ h

theorem eraseDups_snoc (msgs : List IngressMessage) (msg : IngressMessage) :
    (msgs ++ [msg]).eraseDups =
      if msg ∈ msgs then msgs.eraseDups else msgs.eraseDups ++ [msg] := by
  rw [eraseDups_append]
  by_cases h : msg ∈ msgs <;> simp [removeAll, h, eraseDups_cons]

variable {reaches : Bool}

theorem reached_snoc (u : Ledger) (h : u.calls = t.calls ++ [(msg, reaches)]) :
    u.reached = t.reached ++ (if reaches then [msg] else []) := by
  rw [reached, reached, h]
  cases reaches <;> simp

variable {front back : List IngressMessage}

/-- A message that goes to the end of the line, or out of it, overtakes nobody where
nothing else of its session waits. -/
theorem sublist_of_alone {reached : List IngressMessage} {line : List IngressMessage}
    (hline : line = front ++ msg :: back)
    (halone : msg ∉ reached → ∀ other ∈ unsent reached (front ++ back),
      other.sessionKey ≠ msg.sessionKey)
    (session : String) :
    (onSession session (unsent reached (front ++ back ++ [msg]))).Sublist
      (onSession session (unsent reached line)) := by
  have hcons : unsent reached (msg :: back) =
      unsent reached [msg] ++ unsent reached back := unsent_append reached [msg] back
  rw [hline, unsent_append, unsent_append, unsent_append, hcons, onSession_append,
    onSession_append, onSession_append, onSession_append]
  by_cases hreached : msg ∈ reached
  · have hnone : unsent reached [msg] = [] := by simp [unsent, hreached]
    rw [hnone]
    simp [onSession]
  · have hothers := halone hreached
    rw [unsent_append] at hothers
    by_cases hsession : msg.sessionKey = session
    · have hfront : onSession session (unsent reached front) = [] :=
        onSession_eq_nil fun other hother =>
          hsession ▸ hothers other (mem_append_left _ hother)
      have hback : onSession session (unsent reached back) = [] :=
        onSession_eq_nil fun other hother =>
          hsession ▸ hothers other (mem_append_right _ hother)
      rw [hfront, hback]
      simp
    · have hone : onSession session (unsent reached [msg]) = [] := by
        apply onSession_eq_nil
        intro other hother
        rw [mem_singleton.mp (mem_unsent.mp hother).1]
        exact hsession
      rw [hone]
      simp

theorem unsent_known {reached : List IngressMessage} (h : msg ∈ reached) :
    unsent (reached ++ [msg]) msgs = unsent reached msgs := by
  apply filter_congr
  intro other _
  by_cases heq : other = msg
  · simp [heq, h]
  · simp [heq]

theorem Placed.not_mem_line (h : t.Placed) (hline : t.line = front ++ msg :: back) :
    msg ∉ front ++ back := by
  have hle := h.count_le msg
  have hcount : t.line.count msg ≤ t.places.count msg := by
    simp only [line, places, count_append]
    omega
  rw [hline, count_append, count_cons_self] at hcount
  rw [← count_eq_zero, count_append]
  omega

variable {u : Ledger}

theorem Ordered.replayFailed (h : t.Ordered) (hp : t.Placed) (halone : t.Alone msg)
    (hcalls : u.calls = t.calls) (hsubmitted : u.submitted = t.submitted)
    (hline : t.line = front ++ msg :: back) (hu : u.line = front ++ back) :
    (u.replayFailed msg).Ordered := by
  have hreached : u.reached = t.reached := by rw [reached, reached, hcalls]
  have hothers : msg ∉ t.reached → ∀ other ∈ unsent t.reached (front ++ back),
      other.sessionKey ≠ msg.sessionKey := by
    intro hmsg other hother
    obtain ⟨hmem, hunsent⟩ := mem_unsent.mp hother
    refine halone hmsg other (mem_unsent.mpr ⟨?_, hunsent⟩) ?_
    · rw [hline]
      simp only [mem_append, mem_cons] at hmem ⊢
      exact hmem.imp_right .inr
    · rintro rfl
      exact hp.not_mem_line hline hmem
  have hback : ∀ session, (onSession session (t.firstSends ++
      unsent t.reached (front ++ back ++ [msg]))).Sublist t.submitted := by
    intro session
    refine List.Sublist.trans ?_ (h.sublist session)
    rw [onSession_append, onSession_append]
    exact (List.Sublist.refl _).append (sublist_of_alone hline hothers session)
  rw [Ledger.replayFailed]
  split
  · constructor
    · intro session
      have hmoved : { u with
          replayAttempts := update u.replayAttempts msg.traceId
            (u.replayAttempts msg.traceId + 1)
          pending := u.pending ++ [msg] }.line = front ++ back ++ [msg] := by
        rw [← hu, line, line, append_assoc (u.inflight ++ u.held)]
      show (onSession session (u.reached.eraseDups ++ unsent u.reached _)).Sublist u.submitted
      rw [hmoved, hreached, hsubmitted]
      exact hback session
    · show ∀ call ∈ u.calls, call.1 ∈ u.submitted
      rw [hcalls, hsubmitted]
      exact h.known
  · constructor
    · intro session
      show (onSession session (u.reached.eraseDups ++ unsent u.reached u.line)).Sublist
        u.submitted
      rw [hu, hreached, hsubmitted]
      refine List.Sublist.trans ?_ (hback session)
      rw [unsent_append _ _ [msg], ← append_assoc, onSession_append session _ (unsent _ [msg])]
      exact sublist_append_left _ _
    · show ∀ call ∈ u.calls, call.1 ∈ u.submitted
      rw [hcalls, hsubmitted]
      exact h.known

variable {rest : List IngressMessage}

/-- A message that is sent goes from the front of its session's line to the end of what
has been sent of it. -/
theorem Ordered.take (h : t.Ordered) (hp : t.Placed) (reaches : Bool) (hheld : t.held = msg :: rest)
    (hclear : ∀ other ∈ t.inflight, other ∉ t.reached → other.sessionKey ≠ msg.sessionKey)
    (session : String) :
    (onSession session
      ((t.reached ++ (if reaches then [msg] else [])).eraseDups ++
        unsent (t.reached ++ (if reaches then [msg] else []))
          (t.inflight ++ msg :: (rest ++ t.pending)))).Sublist t.submitted := by
  have hline : t.line = t.inflight ++ msg :: (rest ++ t.pending) := by
    rw [line, hheld, append_assoc, cons_append]
  have hsub := h.sublist session
  rw [firstSends, waiting, hline] at hsub
  cases reaches with
  | false => simpa using hsub
  | true =>
    simp only [if_true]
    rw [eraseDups_snoc]
    by_cases hreached : msg ∈ t.reached
    · rw [if_pos hreached, unsent_known hreached]
      exact hsub
    · rw [if_neg hreached]
      have hnot := hp.not_mem_line hline
      rw [mem_append, not_or] at hnot
      have hcons : ∀ sent, unsent sent (t.inflight ++ msg :: (rest ++ t.pending)) =
          unsent sent t.inflight ++ (unsent sent [msg] ++ unsent sent (rest ++ t.pending)) := by
        intro sent
        rw [unsent_append, ← unsent_append sent [msg]]
        rfl
      have hgone : unsent (t.reached ++ [msg]) [msg] = [] := by simp [unsent]
      have hhere : unsent t.reached [msg] = [msg] := by simp [unsent, hreached]
      rw [hcons, hhere] at hsub
      rw [hcons, hgone, unsent_reach hnot.1, unsent_reach hnot.2]
      simp only [onSession_append, nil_append, append_assoc] at hsub ⊢
      by_cases hsession : msg.sessionKey = session
      · have hnone : onSession session (unsent t.reached t.inflight) = [] := by
          apply onSession_eq_nil
          intro other hother
          obtain ⟨hmem, hunsent⟩ := mem_unsent.mp hother
          exact hsession ▸ hclear other hmem hunsent
        rw [hnone, nil_append] at hsub ⊢
        simpa [onSession] using hsub
      · have hnone : onSession session [msg] = [] := onSession_singleton_ne hsession
        rw [hnone, nil_append] at hsub ⊢
        simpa [onSession] using hsub

/-- A new message goes behind everything that was submitted. -/
theorem Ordered.direct (h : t.Ordered) (hp : t.Placed) (reaches : Bool)
    (hfresh : ∀ other ∈ t.submitted, other.traceId ≠ msg.traceId)
    (hclear : ∀ other ∈ t.waiting, other.sessionKey ≠ msg.sessionKey) (session : String) :
    (onSession session
      ((t.reached ++ (if reaches then [msg] else [])).eraseDups ++
        unsent (t.reached ++ (if reaches then [msg] else []))
          (t.inflight ++ [msg] ++ (t.held ++ t.pending)))).Sublist
      (t.submitted ++ [msg]) := by
  have hunsent : msg ∉ t.reached := fun hmem => hfresh msg (h.reached_mem hmem) rfl
  have hnot : msg ∉ t.inflight ∧ msg ∉ t.held ++ t.pending := by
    have hplaces := hp.not_mem hfresh
    simp only [places, mem_append, not_or] at hplaces
    exact ⟨hplaces.1.1.2, by simp [hplaces.1.1.1.1, hplaces.1.1.1.2]⟩
  have hwaiting : t.waiting = unsent t.reached t.inflight ++
      unsent t.reached (t.held ++ t.pending) := by
    rw [waiting, line, append_assoc, unsent_append]
  have hsub := h.sublist session
  rw [firstSends, onSession_append] at hsub
  have hparts : (onSession session
      ((t.reached ++ (if reaches then [msg] else [])).eraseDups ++
        unsent (t.reached ++ (if reaches then [msg] else []))
          (t.inflight ++ [msg] ++ (t.held ++ t.pending)))) =
      if msg.sessionKey = session then onSession session t.reached.eraseDups ++ [msg]
      else onSession session t.reached.eraseDups ++ onSession session t.waiting := by
    have hgone : unsent (t.reached ++ [msg]) [msg] = [] := by simp [unsent]
    have hhere : unsent t.reached [msg] = [msg] := by simp [unsent, hunsent]
    by_cases hsession : msg.sessionKey = session
    · have hnone : onSession session t.waiting = [] :=
        onSession_eq_nil fun other hother => hsession ▸ hclear other hother
      rw [hwaiting, onSession_append, append_eq_nil_iff] at hnone
      have hone : onSession session [msg] = [msg] := by simp [onSession, hsession]
      rw [if_pos hsession]
      cases reaches with
      | false =>
        simp only [Bool.false_eq_true, if_false, append_nil, unsent_append _ (_ ++ _),
          unsent_append _ t.inflight, hhere, onSession_append, hnone, hone]
        simp
      | true =>
        simp only [if_true, eraseDups_snoc, if_neg hunsent, unsent_append _ (_ ++ _),
          unsent_append _ t.inflight, hgone, unsent_reach hnot.1, unsent_reach hnot.2,
          onSession_append, hnone, hone]
        simp [onSession]
    · have hone : onSession session [msg] = [] := onSession_singleton_ne hsession
      rw [if_neg hsession, hwaiting]
      cases reaches with
      | false =>
        simp only [Bool.false_eq_true, if_false, append_nil, unsent_append _ (_ ++ _),
          unsent_append _ t.inflight, hhere, onSession_append, hone]
      | true =>
        simp only [if_true, eraseDups_snoc, if_neg hunsent, unsent_append _ (_ ++ _),
          unsent_append _ t.inflight, hgone, unsent_reach hnot.1, unsent_reach hnot.2,
          onSession_append, hone]
        simp [onSession]
  rw [hparts]
  split
  · exact ((sublist_append_left _ _).trans hsub).append (List.Sublist.refl _)
  · exact hsub.trans (sublist_append_left _ _)

theorem Step.ordered (hstep : t.Step t') (h : t.Ordered) (hp : t.Placed) : t'.Ordered := by
  cases hstep with
  | same => exact h
  | buffer msg hfresh =>
    refine ⟨fun session => ?_, fun call hcall => mem_append_left _ (h.known call hcall)⟩
    show (onSession session (t.firstSends ++
      unsent t.reached (t.inflight ++ t.held ++ (t.pending ++ [msg])))).Sublist _
    rw [← append_assoc, unsent_append _ _ [msg], ← append_assoc,
      onSession_append session _ (unsent _ [msg])]
    exact (h.sublist session).append
      ((filter_sublist).trans filter_sublist)
  | direct msg reaches hfresh hclear =>
    constructor
    · intro session
      have hsub := h.direct hp reaches hfresh hclear session
      rw [firstSends, waiting, reached_snoc _ rfl, line]
      rwa [← append_assoc] at hsub
    · intro call hcall
      rcases mem_append.mp hcall with hmem | hmem
      · exact mem_append_left _ (h.known call hmem)
      · obtain rfl := mem_singleton.mp hmem
        exact mem_append_right _ (mem_singleton_self _)
  | swap hheld _ =>
    refine ⟨fun session => ?_, h.known⟩
    have hsub := h.sublist session
    rw [waiting, line, hheld, append_nil] at hsub
    show (onSession session (t.firstSends ++
      unsent t.reached (t.inflight ++ t.pending ++ []))).Sublist _
    rwa [append_nil]
  | take msg reaches rest hheld _ hclear =>
    constructor
    · intro session
      have hsub := h.take hp reaches hheld hclear session
      rw [firstSends, waiting, reached_snoc _ rfl, line]
      simpa using hsub
    · intro call hcall
      rcases mem_append.mp hcall with hmem | hmem
      · exact h.known call hmem
      · obtain rfl := mem_singleton.mp hmem
        refine hp.mem.mp ?_
        simp [places, hheld]
  | refuse msg rest hheld _ halone =>
    have hline : t.line = t.inflight ++ msg :: (rest ++ t.pending) := by
      rw [line, hheld, append_assoc, cons_append]
    exact h.replayFailed hp halone (u := { t with held := rest }) rfl rfl hline
      (append_assoc _ _ _)
  | forwarded msg _ => exact ⟨h.sublist, h.known⟩
  | failed msg _ hmem halone =>
    obtain ⟨front, back, hinflight⟩ := append_of_mem hmem
    have hline : t.line = front ++ msg :: (back ++ t.held ++ t.pending) := by
      simp [line, hinflight]
    have hnot := hp.not_mem_line hline
    refine h.replayFailed hp halone rfl rfl hline ?_
    have hkeep : (t.inflight.filter fun other => decide (other ≠ msg)) = front ++ back := by
      rw [hinflight, filter_append, filter_cons_of_neg (by simp)]
      congr 1
      all_goals
        apply filter_eq_self.mpr
        intro other hother
        apply decide_eq_true
        rintro rfl
        exact hnot (by simp [hother])
    show (t.inflight.filter fun other => decide (other ≠ msg)) ++ t.held ++ t.pending = _
    rw [hkeep]
    simp
  | finish msg _ =>
    refine ⟨fun session => ?_, h.known⟩
    refine List.Sublist.trans ?_ (h.sublist session)
    refine List.Sublist.filter _ ((List.Sublist.refl _).append (List.Sublist.filter _ ?_))
    exact ((filter_sublist).append (List.Sublist.refl _)).append (List.Sublist.refl _)
  | cut hheld _ =>
    refine ⟨fun session => ?_, h.known⟩
    have hsub := h.sublist session
    rw [waiting, line, hheld, append_nil] at hsub
    show (onSession session (t.firstSends ++
      unsent t.reached ([] ++ t.held ++ (t.inflight ++ t.pending)))).Sublist _
    rwa [hheld]

/-! ## Every message sent a few times -/

/-- How often messages are sent: the attempts that have failed are counted while a
message is buffered. -/
structure Counted (t : Ledger) : Prop where
  attempts : ∀ traceId, t.replayAttempts traceId < MAX_REPLAY_ATTEMPTS
  buffered : ∀ msg ∈ t.held ++ t.pending, t.tries msg ≤ 1 + t.replayAttempts msg.traceId
  sending : ∀ call ∈ t.sending, call.1 ∈ t.submitted ∧ call.1 ∉ t.held ++ t.pending ∧
    t.tries call.1 ≤ 2 + t.replayAttempts call.1.traceId
  all : ∀ msg, t.tries msg ≤ 1 + MAX_REPLAY_ATTEMPTS

theorem Ordered.tries_fresh (h : t.Ordered)
    (hfresh : ∀ other ∈ t.submitted, other.traceId ≠ msg.traceId) : t.tries msg = 0 := by
  rw [tries, count_eq_zero]
  intro hmem
  obtain ⟨call, hcall, rfl⟩ := mem_map.mp hmem
  exact hfresh call.1 (h.known call hcall) rfl

theorem tries_snoc (u : Ledger) (h : u.calls = t.calls ++ [(msg, reaches)]) (x : IngressMessage) :
    u.tries x = t.tries x + if x = msg then 1 else 0 := by
  rw [tries, tries, h, map_append, count_append]
  by_cases hx : x = msg
  · simp [hx]
  · have hzero : [msg].count x = 0 := by simpa [count_eq_zero] using hx
    simpa [hx] using hzero

theorem update_attempts {attempts : String → Nat} (n : Nat) (h : other.traceId ≠ msg.traceId) :
    update attempts msg.traceId n other.traceId = attempts other.traceId :=
  update_of_ne h _ _

theorem update_attempts_lt (h : t.Counted) (traceId : String) {n : Nat}
    (hn : n < MAX_REPLAY_ATTEMPTS) (other : String) :
    update t.replayAttempts traceId n other < MAX_REPLAY_ATTEMPTS := by
  by_cases heq : other = traceId
  · subst heq
    rwa [update_self]
  · rw [update_of_ne heq]
    exact h.attempts other

theorem Counted.replayFailed (h : t.Counted) (hp : t.Placed) (hmsg : msg ∈ t.places)
    (htries : t.tries msg ≤ 2 + t.replayAttempts msg.traceId) (hcalls : u.calls = t.calls)
    (hattempts : u.replayAttempts = t.replayAttempts) (hsending : u.sending = [])
    (hbuffered : ∀ other ∈ u.held ++ u.pending, other ∈ t.held ++ t.pending ∧ other ≠ msg) :
    (u.replayFailed msg).Counted := by
  have htried : ∀ x, u.tries x = t.tries x := by
    intro x
    rw [tries, tries, hcalls]
  have hother : ∀ other ∈ u.held ++ u.pending, other.traceId ≠ msg.traceId := by
    intro other hmem hid
    obtain ⟨hplace, hne⟩ := hbuffered other hmem
    refine hne (hp.eq_of_traceId ?_ hmsg hid)
    simp only [places, mem_append] at hplace ⊢
    rcases hplace with hheld | hpending
    · exact .inl (.inl (.inl (.inr hheld)))
    · exact .inl (.inl (.inl (.inl hpending)))
  have hkeep : ∀ n, ∀ other ∈ u.held ++ u.pending, t.tries other ≤
      1 + update t.replayAttempts msg.traceId n other.traceId := by
    intro n other hmem
    rw [update_attempts n (hother other hmem)]
    exact h.buffered other (hbuffered other hmem).1
  rw [Ledger.replayFailed, hattempts]
  split
  · rename_i hleft
    constructor
    · exact update_attempts_lt h _ hleft
    · intro x hx
      show u.tries x ≤ _
      rw [htried]
      have hcases : x ∈ u.held ++ u.pending ∨ x = msg := by
        simp only [mem_append, mem_singleton] at hx ⊢
        tauto
      rcases hcases with hmem | rfl
      · exact hkeep _ x hmem
      · show t.tries x ≤ 1 + update t.replayAttempts x.traceId _ x.traceId
        rw [update_self]
        omega
    · intro call hcall
      rw [show _ = ([] : List (IngressMessage × Bool)) from hsending] at hcall
      cases hcall
    · intro x
      show u.tries x ≤ _
      rw [htried]
      exact h.all x
  · constructor
    · exact update_attempts_lt h _ (by decide)
    · intro x hx
      show u.tries x ≤ _
      rw [htried]
      exact hkeep 0 x hx
    · intro call hcall
      rw [show _ = ([] : List (IngressMessage × Bool)) from hsending] at hcall
      cases hcall
    · intro x
      show u.tries x ≤ _
      rw [htried]
      exact h.all x

theorem Placed.not_mem_rest (h : t.Placed) (hheld : t.held = msg :: rest) :
    msg ∉ rest ++ t.pending := by
  have hle := h.count_le msg
  simp only [places, hheld, count_append, count_cons_self] at hle
  rw [← count_eq_zero, count_append]
  omega

/-- A message that is forwarded at once is tried for the first time. -/
theorem Counted.direct (h : t.Counted) (ho : t.Ordered) (hp : t.Placed)
    (msg : IngressMessage) (reaches : Bool)
    (hfresh : ∀ other ∈ t.submitted, other.traceId ≠ msg.traceId) :
    Counted { t with
      submitted := t.submitted ++ [msg]
      inflight := t.inflight ++ [msg]
      calls := t.calls ++ [(msg, reaches)] } := by
  have hzero := ho.tries_fresh hfresh
  have hne : ∀ x ∈ t.submitted, x ≠ msg := by
    intro x hx heq
    exact hfresh x hx (congrArg IngressMessage.traceId heq)
  refine ⟨h.attempts, ?_, ?_, ?_⟩
  · intro x hx
    have hx' : x ∈ t.submitted := by
      refine hp.mem.mp ?_
      simp only [places, mem_append] at hx ⊢
      tauto
    rw [tries_snoc _ rfl, if_neg (hne x hx')]
    exact h.buffered x hx
  · intro call hcall
    obtain ⟨hsubmitted, hbuffered, htries⟩ := h.sending call hcall
    refine ⟨mem_append_left _ hsubmitted, hbuffered, ?_⟩
    rw [tries_snoc _ rfl, if_neg (hne call.1 hsubmitted)]
    exact htries
  · intro x
    rw [tries_snoc _ rfl]
    have hall := h.all x
    split
    · rename_i heq
      subst heq
      rw [hzero]
      decide
    · omega

/-- A held message that is replayed was tried once for every failed replay, and once
before. -/
theorem Counted.take (h : t.Counted) (hp : t.Placed) (msg : IngressMessage) (reaches : Bool)
    (rest : List IngressMessage) (hheld : t.held = msg :: rest) :
    Counted { t with
      held := rest
      inflight := t.inflight ++ [msg]
      calls := t.calls ++ [(msg, reaches)]
      sending := [(msg, reaches)] } := by
  have hnot := hp.not_mem_rest hheld
  have hmsg : msg ∈ t.held ++ t.pending := by simp [hheld]
  have htries := h.buffered msg hmsg
  have hattempts := h.attempts msg.traceId
  refine ⟨h.attempts, ?_, ?_, ?_⟩
  · intro x hx
    have hne : x ≠ msg := by
      rintro rfl
      exact hnot hx
    rw [tries_snoc _ rfl, if_neg hne]
    apply h.buffered
    rw [hheld]
    exact mem_cons_of_mem _ hx
  · intro call hcall
    obtain rfl := mem_singleton.mp hcall
    refine ⟨hp.mem.mp (by simp [places, hheld]), hnot, ?_⟩
    rw [tries_snoc _ rfl, if_pos rfl]
    show t.tries msg + 1 ≤ 2 + t.replayAttempts msg.traceId
    omega
  · intro x
    rw [tries_snoc _ rfl]
    have hall := h.all x
    split
    · rename_i heq
      subst heq
      have hmax : MAX_REPLAY_ATTEMPTS = 3 := rfl
      omega
    · omega

/-- A replay that went through is counted no more. -/
theorem Counted.forwarded (h : t.Counted) (hp : t.Placed) (msg : IngressMessage)
    (hsending : t.sending = [(msg, true)]) :
    Counted { t with
      sending := []
      replayAttempts := update t.replayAttempts msg.traceId 0 } := by
  obtain ⟨hsubmitted, hbuffered, -⟩ := h.sending (msg, true) (by simp [hsending])
  refine ⟨update_attempts_lt h _ (by decide), ?_, fun call hcall => (by cases hcall), h.all⟩
  intro x hx
  have hid : x.traceId ≠ msg.traceId := by
    intro hid
    have hplace : x ∈ t.places := by
      simp only [places, mem_append] at hx ⊢
      tauto
    have heq := hp.eq_of_traceId hplace (hp.mem.mpr hsubmitted) hid
    exact hbuffered (heq ▸ hx)
  show t.tries x ≤ 1 + update t.replayAttempts msg.traceId 0 x.traceId
  rw [update_attempts 0 hid]
  exact h.buffered x hx

theorem Step.counted (hstep : t.Step t') (h : t.Counted) (ho : t.Ordered) (hp : t.Placed) :
    t'.Counted := by
  cases hstep with
  | same => exact h
  | buffer msg hfresh =>
    refine ⟨h.attempts, ?_, ?_, h.all⟩
    · intro x hx
      rw [← append_assoc] at hx
      rcases mem_append.mp hx with hmem | hmem
      · exact h.buffered x hmem
      · obtain rfl := mem_singleton.mp hmem
        have hzero := ho.tries_fresh hfresh
        show t.tries x ≤ _
        omega
    · intro call hcall
      obtain ⟨hsubmitted, hbuffered, htries⟩ := h.sending call hcall
      refine ⟨mem_append_left _ hsubmitted, ?_, htries⟩
      rw [← append_assoc, mem_append, not_or, mem_singleton]
      refine ⟨hbuffered, ?_⟩
      intro heq
      exact hfresh call.1 hsubmitted (congrArg IngressMessage.traceId heq)
  | direct msg reaches hfresh _ => exact h.direct ho hp msg reaches hfresh
  | swap hheld hsending =>
    refine ⟨h.attempts, ?_, ?_, h.all⟩
    · intro x hx
      apply h.buffered
      rw [append_nil] at hx
      rw [hheld]
      exact hx
    · intro call hcall
      rw [show _ = ([] : List (IngressMessage × Bool)) from hsending] at hcall
      cases hcall
  | take msg reaches rest hheld _ _ => exact h.take hp msg reaches rest hheld
  | refuse msg rest hheld hsending _ =>
    have hmsg : msg ∈ t.held ++ t.pending := by simp [hheld]
    have htries := h.buffered msg hmsg
    refine h.replayFailed hp (by simp [places, hheld]) (by omega) rfl rfl hsending ?_
    intro other hother
    have hnot := hp.not_mem_rest hheld
    refine ⟨?_, ?_⟩
    · rw [hheld]
      exact mem_cons_of_mem _ hother
    · rintro rfl
      exact hnot hother
  | forwarded msg hsending => exact h.forwarded hp msg hsending
  | failed msg hsending hmem _ =>
    obtain ⟨hsubmitted, hbuffered, htries⟩ := h.sending (msg, false) (by simp [hsending])
    refine h.replayFailed hp (hp.mem.mpr hsubmitted) htries rfl rfl rfl ?_
    intro other hother
    refine ⟨hother, ?_⟩
    rintro rfl
    exact hbuffered hother
  | finish msg _ => exact ⟨h.attempts, h.buffered, h.sending, h.all⟩
  | cut hheld htries =>
    refine ⟨h.attempts, ?_, fun call hcall => (by cases hcall), h.all⟩
    intro x hx
    show t.tries x ≤ 1 + t.replayAttempts x.traceId
    rcases mem_append.mp hx with hmem | hmem
    · exact h.buffered x (mem_append_left _ hmem)
    · rcases mem_append.mp hmem with hinflight | hpending
      · exact Nat.le_trans (htries x hinflight) (Nat.le_add_right 1 _)
      · exact h.buffered x (mem_append_right _ hpending)

end Ledger

end StackOwl.Runtime
