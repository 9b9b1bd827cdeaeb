import Mathlib.Algebra.Order.BigOperators.Group.List
import Mathlib.Algebra.Order.Group.Nat
import StackOwl.Lib.Lines

/-!
# The names of lanes

`build_session_key` and `is_machine_lane` (`sessions/models.py`): what names a conversation, joined
by colons, and how its name is read as a runner's or as a person's.

## Main results

* `isMachineLane_iff` — when a name is read as a runner's, or a person's, that it is.
* `session_key_tells` — when the names of two sources tell their lanes apart.
-/

namespace StackOwl.Sessions

open Lib List

inductive ChatType where
  | dm
  | group
  | channel
  | thread
  deriving DecidableEq

def ChatType.value : ChatType → List Char
  | .dm => ['d', 'm']
  | .group => ['g', 'r', 'o', 'u', 'p']
  | .channel => ['c', 'h', 'a', 'n', 'n', 'e', 'l']
  | .thread => ['t', 'h', 'r', 'e', 'a', 'd']

def CHAT_TYPE_VALUES : List (List Char) :=
  [ChatType.dm, .group, .channel, .thread].map ChatType.value

/-- `SessionSource`, less what its key does not read. -/
structure SessionSource where
  owlName : List Char
  channel : List Char
  chatType : ChatType := .dm
  chatId : Option (List Char) := none
  threadId : Option (List Char) := none
  participantId : Option (List Char) := none
  runner : Option (List Char) := none
  runnerId : Option (List Char) := none

def KEY_SEP : Char := ':'

def LANE_ROOT : List Char := ['o', 'w', 'l']

def MACHINE_LANE_PREFIXES : List (List Char) :=
  ["goal-", "incident-", "job:", "recover-", "shadow-"].map String.toList

def present (component : Option (List Char)) : List (List Char) :=
  (component.filter fun text => text ≠ []).toList

/-- The settings of `build_session_key`. -/
structure Isolation where
  groupPerUser : Bool := true
  threadPerUser : Bool := false

namespace SessionSource

variable (source : SessionSource) (isolation : Isolation)

/-- `source.runner and source.runner_id`. -/
def isRunner : Bool := present source.runner ≠ [] ∧ present source.runnerId ≠ []

def needsParticipant : Bool :=
  if source.chatType = .dm then false
  else if present source.threadId ≠ [] then isolation.threadPerUser
  else isolation.groupPerUser

/-- What a chat lane says behind its shape. -/
def ids : List (List Char) :=
  present source.chatId ++ present source.threadId ++
    if source.needsParticipant isolation then present source.participantId
    else []

def parts : List (List Char) :=
  if source.isRunner then
    [LANE_ROOT, source.owlName, source.runner.getD [], source.runnerId.getD []]
  else [LANE_ROOT, source.owlName, source.channel, source.chatType.value] ++
    source.ids isolation

def buildSessionKey : List Char := [KEY_SEP].intercalate (source.parts isolation)

end SessionSource

def isRunnerLane (sessionKey : List Char) : Bool :=
  let parts := sessionKey.splitOn KEY_SEP
  if parts.length < 4 ∨ parts.getD 0 [] ≠ LANE_ROOT then false
  else !CHAT_TYPE_VALUES.contains (parts.getD 3 [])

def isMachineLane (sessionKey : List Char) : Bool :=
  if sessionKey = [] then false
  else (MACHINE_LANE_PREFIXES.any fun lead => lead.isPrefixOf sessionKey) || isRunnerLane sessionKey

/-! ## What the names should tell -/

section

variable (isolation : Isolation) (s t : SessionSource)

def SameLane : Prop :=
  if s.isRunner then
    t.isRunner ∧ s.owlName = t.owlName ∧ s.runner = t.runner ∧ s.runnerId = t.runnerId
  else
    ¬ t.isRunner ∧ s.owlName = t.owlName ∧ s.channel = t.channel ∧ s.chatType = t.chatType ∧
      s.chatId = t.chatId ∧ s.threadId = t.threadId ∧
      (s.needsParticipant isolation → s.participantId = t.participantId)

/-- Two sources have one name where they are of one lane, and a runner's is read as one. -/
def KeysTell : Prop :=
  (s.buildSessionKey isolation = t.buildSessionKey isolation ↔ SameLane isolation s t) ∧
  (isMachineLane (s.buildSessionKey isolation) ↔ s.isRunner)

/-- The texts of components, each cut at its colons. -/
def cut (components : List (List Char)) : List (List Char) :=
  components.flatMap fun component => component.splitOn KEY_SEP

/-- The third text of an owl's name and what stands behind it is a chat type for the chats
alone. -/
def ReadAsItself : Prop :=
  if s.isRunner then
    ∀ text ∈ (cut [s.owlName, s.runner.getD [], s.runnerId.getD []])[2]?,
      text ∉ CHAT_TYPE_VALUES
  else ∀ text ∈ (cut [s.owlName, s.channel])[2]?, text ∈ CHAT_TYPE_VALUES

/-- A runner and a chat of one owl: the runner is not called like the channel, with the chat type
for its id. -/
def RunnerTold (runner chat : SessionSource) : Prop :=
  ¬(runner.owlName = chat.owlName ∧ runner.runner.getD [] = chat.channel ∧
    runner.runnerId.getD [] = chat.chatType.value ∧ chat.ids isolation = [])

/-- No id of a chat stands where another is absent. -/
def IdsTell : Prop :=
  match s.isRunner, t.isRunner with
  | true, true => True
  | true, false => RunnerTold isolation s t
  | false, true => RunnerTold isolation t s
  | false, false =>
    s.owlName = t.owlName → s.channel = t.channel → s.chatType = t.chatType →
      s.ids isolation = t.ids isolation →
      s.chatId = t.chatId ∧ s.threadId = t.threadId ∧
        (s.needsParticipant isolation → s.participantId = t.participantId)

/-- What names a source, in order: for a runner its kind and id, for a chat its channel, chat
type and the ids that are there. -/
def components : List (List Char) :=
  s.owlName ::
    if s.isRunner then [s.runner.getD [], s.runnerId.getD []]
    else s.channel :: s.chatType.value :: s.ids isolation

end

/-- Of the first components that differ, neither begins with the other and the colon behind
that one. -/
def Unmixed : List (List Char) → List (List Char) → Prop
  | a :: as, b :: bs =>
    if a = b then Unmixed as bs
    else (bs ≠ [] → ¬b ++ [KEY_SEP] <+: a) ∧ (as ≠ [] → ¬a ++ [KEY_SEP] <+: b)
  | _, _ => True

/-! ## Reading a name -/

variable {isolation : Isolation} {s t : SessionSource}

theorem parts_eq (isolation : Isolation) (s : SessionSource) :
    s.parts isolation = LANE_ROOT :: components isolation s := by
  rw [SessionSource.parts, components]
  split
  · rfl
  · rfl

theorem buildSessionKey_eq (isolation : Isolation) (s : SessionSource) :
    s.buildSessionKey isolation =
      LANE_ROOT ++ preceded KEY_SEP (components isolation s) := by
  have hjoined := intercalate_append_preceded (a := KEY_SEP) (cons_ne_nil LANE_ROOT [])
    (components isolation s)
  rwa [intercalate_singleton, singleton_append, ← parts_eq] at hjoined

theorem splitOn_buildSessionKey (isolation : Isolation) (s : SessionSource) :
    (s.buildSessionKey isolation).splitOn KEY_SEP = LANE_ROOT :: cut (components isolation s) := by
  rw [SessionSource.buildSessionKey, parts_eq, splitOn_intercalate_flatMap (cons_ne_nil _ _)]
  rfl

theorem length_le_cut (parts : List (List Char)) : parts.length ≤ (cut parts).length := by
  have hone : ∀ part ∈ parts, 1 ≤ (part.splitOn KEY_SEP).length :=
    fun part _ => length_pos_iff.mpr (splitOn_ne_nil _ _)
  rw [cut, length_flatMap]
  simpa using sum_le_sum hone

theorem isMachineLane_buildSessionKey (isolation : Isolation) (s : SessionSource) :
    isMachineLane (s.buildSessionKey isolation) =
      decide ((cut (components isolation s)).getD 2 [] ∉ CHAT_TYPE_VALUES) := by
  have hthree : 3 ≤ (cut (components isolation s)).length := by
    refine Nat.le_trans ?_ (length_le_cut _)
    rw [components]
    split
    · exact Nat.le_refl 3
    · exact Nat.le_add_left 3 _
  have hlead : (MACHINE_LANE_PREFIXES.any fun lead =>
      lead.isPrefixOf (s.buildSessionKey isolation)) = false := by
    rw [buildSessionKey_eq]
    rfl
  have hrunner : isRunnerLane (s.buildSessionKey isolation) =
      decide ((cut (components isolation s)).getD 2 [] ∉ CHAT_TYPE_VALUES) := by
    rw [isRunnerLane, splitOn_buildSessionKey, if_neg]
    · rw [contains_eq_mem, decide_not]
      rfl
    · simp only [length_cons, getD_cons_zero, ne_eq, not_true_eq_false, or_false]
      omega
  rw [isMachineLane, hlead, hrunner, if_neg (by rw [buildSessionKey_eq]; exact cons_ne_nil _ _)]
  rfl

theorem ChatType.value_mem (a : ChatType) : a.value ∈ CHAT_TYPE_VALUES := by
  cases a <;> decide

/-- **The classifier.**  A name is read as what it is exactly if the third text is. -/
theorem isMachineLane_iff (isolation : Isolation) (s : SessionSource) :
    (isMachineLane (s.buildSessionKey isolation) ↔ s.isRunner) ↔ ReadAsItself s := by
  rw [isMachineLane_buildSessionKey, decide_eq_true_iff, ReadAsItself, components]
  by_cases hrunner : s.isRunner
  · have hthree : 2 < (cut [s.owlName, s.runner.getD [], s.runnerId.getD []]).length :=
      length_le_cut [s.owlName, s.runner.getD [], s.runnerId.getD []]
    rw [if_pos hrunner, if_pos hrunner, iff_true_right hrunner, getD_eq_getElem?_getD,
      getElem?_eq_getElem hthree]
    simp
  · rw [if_neg hrunner, if_neg hrunner, iff_false_right hrunner, not_not]
    have htwo : 2 ≤ (cut [s.owlName, s.channel]).length :=
      length_le_cut [s.owlName, s.channel]
    have hcut : cut (s.owlName :: s.channel :: s.chatType.value :: s.ids isolation) =
        cut [s.owlName, s.channel] ++ s.chatType.value :: cut (s.ids isolation) := by
      have hvalue : s.chatType.value.splitOn KEY_SEP = [s.chatType.value] := by
        cases s.chatType <;> rfl
      simp [cut, hvalue]
    rw [hcut]
    by_cases hmore : 2 < (cut [s.owlName, s.channel]).length
    · rw [getD_eq_getElem?_getD, getElem?_append_left hmore, getElem?_eq_getElem hmore]
      simp
    · have hlength : (cut [s.owlName, s.channel]).length = 2 :=
        Nat.le_antisymm (Nat.not_lt.mp hmore) htwo
      have hnone : (cut [s.owlName, s.channel])[2]? = none :=
        getElem?_eq_none (Nat.not_lt.mp hmore)
      rw [getD_eq_getElem?_getD, getElem?_append_right (Nat.le_of_eq hlength), hlength, hnone]
      simp [s.chatType.value_mem]

theorem SameLane.buildSessionKey_eq (h : SameLane isolation s t) :
    s.buildSessionKey isolation = t.buildSessionKey isolation := by
  rw [SameLane] at h
  rw [SessionSource.buildSessionKey, SessionSource.buildSessionKey, SessionSource.parts,
    SessionSource.parts]
  split at h
  · rename_i hrunner
    obtain ⟨hrunner', howl, hname, hid⟩ := h
    rw [if_pos hrunner, if_pos hrunner', howl, hname, hid]
  · rename_i hchat
    obtain ⟨hchat', howl, hchannel, htype, hid, hthread, hparticipant⟩ := h
    have hneeds : t.needsParticipant isolation = s.needsParticipant isolation := by
      rw [SessionSource.needsParticipant, SessionSource.needsParticipant, htype, hthread]
    have hids : s.ids isolation = t.ids isolation := by
      rw [SessionSource.ids, SessionSource.ids, hneeds, hid, hthread]
      split
      · rename_i hper
        rw [hparticipant hper]
      · rfl
    rw [if_neg hchat, if_neg hchat', howl, hchannel, htype, hids]

theorem ChatType.value_inj {a b : ChatType} (h : a.value = b.value) : a = b := by
  cases a <;> cases b <;> first | rfl | cases h

/-- Two components that are there are told by their texts. -/
theorem eq_of_present {a b : Option (List Char)} (ha : present a ≠ []) (hb : present b ≠ [])
    (h : a.getD [] = b.getD []) : a = b := by
  cases a with
  | none => exact absurd rfl ha
  | some text =>
    cases b with
    | none => exact absurd rfl hb
    | some other => exact congrArg some h

/-- The components tell two lanes apart exactly if the ids do. -/
theorem components_tell_iff :
    (components isolation s = components isolation t → SameLane isolation s t) ↔
      IdsTell isolation s t := by
  rw [IdsTell, SameLane, components, components]
  cases hrunner : s.isRunner with
  | true =>
    cases hrunner' : t.isRunner with
    | true =>
      refine iff_true_right trivial |>.mpr fun heq => ?_
      injection heq with howl heq
      injection heq with hname heq
      injection heq with hid _
      have hthere := of_decide_eq_true hrunner
      have hthere' := of_decide_eq_true hrunner'
      exact ⟨rfl, howl, eq_of_present hthere.1 hthere'.1 hname,
        eq_of_present hthere.2 hthere'.2 hid⟩
    | false => simp [RunnerTold]
  | false =>
    cases hrunner' : t.isRunner with
    | true =>
      simp [RunnerTold, @eq_comm _ s.owlName, @eq_comm _ s.channel,
        @eq_comm _ s.chatType.value]
    | false =>
      simp only [Bool.false_eq_true, if_false, not_false_eq_true, true_and]
      constructor
      · intro h howl hchannel htype hids
        exact (h (by rw [howl, hchannel, htype, hids])).2.2.2
      · intro h heq
        injection heq with howl heq
        injection heq with hchannel heq
        injection heq with htype hids
        exact ⟨howl, hchannel, ChatType.value_inj htype,
          h howl hchannel (ChatType.value_inj htype) hids⟩

/-! ## Components that run into each other -/

variable {as bs : List (List Char)}

theorem prefix_of_preceded {a b : List Char}
    (hjoined : a ++ preceded KEY_SEP as = b ++ preceded KEY_SEP bs) (hshort : a.length < b.length)
    : as ≠ [] ∧ a ++ [KEY_SEP] <+: b := by
  have hlong : b <+: a ++ preceded KEY_SEP as := hjoined ▸ prefix_append b _
  cases as with
  | nil =>
    rw [preceded, flatMap_nil, append_nil] at hlong
    exact absurd hlong.length_le (Nat.not_le.mpr hshort)
  | cons next as =>
    refine ⟨cons_ne_nil _ _, prefix_of_prefix_length_le ?_ hlong ?_⟩
    · exact ⟨next ++ preceded KEY_SEP as, by simp [preceded]⟩
    · rw [length_append]
      exact hshort

/-- Components that do not run into each other are told by what they are joined to. -/
theorem eq_of_unmixed (hunmixed : Unmixed as bs)
    (hjoined : preceded KEY_SEP as = preceded KEY_SEP bs) : as = bs := by
  induction as generalizing bs with
  | nil =>
    cases bs with
    | nil => rfl
    | cons b bs => cases hjoined
  | cons a as ih =>
    cases bs with
    | nil => cases hjoined
    | cons b bs =>
      have hjoined : a ++ preceded KEY_SEP as = b ++ preceded KEY_SEP bs :=
        (cons.inj hjoined).2
      rw [Unmixed] at hunmixed
      split at hunmixed
      · rename_i hsame
        subst hsame
        rw [ih hunmixed (append_cancel_left hjoined)]
      · rename_i hdiffer
        rcases Nat.lt_trichotomy a.length b.length with hshort | hlength | hshort
        · obtain ⟨hmore, hprefix⟩ := prefix_of_preceded hjoined hshort
          exact absurd hprefix (hunmixed.2 hmore)
        · exact absurd (append_inj_left hjoined hlength) hdiffer
        · obtain ⟨hmore, hprefix⟩ := prefix_of_preceded hjoined.symm hshort
          exact absurd hprefix (hunmixed.1 hmore)

theorem unmixed_of_colonFree (has : ∀ a ∈ as, KEY_SEP ∉ a) (hbs : ∀ b ∈ bs, KEY_SEP ∉ b)
    : Unmixed as bs := by
  induction as generalizing bs with
  | nil => trivial
  | cons a as ih =>
    cases bs with
    | nil => trivial
    | cons b bs =>
      obtain ⟨ha, has⟩ := forall_mem_cons.mp has
      obtain ⟨hb, hbs⟩ := forall_mem_cons.mp hbs
      have hcolon : ∀ text, KEY_SEP ∈ text ++ [KEY_SEP] := fun text =>
        mem_append_right text (mem_singleton_self KEY_SEP)
      rw [Unmixed]
      split
      · exact ih has hbs
      · exact ⟨fun _ h => ha (h.subset (hcolon b)), fun _ h => hb (h.subset (hcolon a))⟩

theorem buildSessionKey_eq_iff
    (hunmixed : Unmixed (components isolation s) (components isolation t)) :
    s.buildSessionKey isolation = t.buildSessionKey isolation ↔
      components isolation s = components isolation t := by
  rw [buildSessionKey_eq, buildSessionKey_eq, append_cancel_left_eq]
  exact ⟨eq_of_unmixed hunmixed, congrArg _⟩

/-- **When the names of two sources tell their lanes apart.**  The ids have to, and the name
has to be read as what it is.  That is enough where the components do not run into each other,
as those without a colon never do. -/
theorem session_key_tells (isolation : Isolation) (s t : SessionSource) :
    (KeysTell isolation s t → IdsTell isolation s t ∧ ReadAsItself s) ∧
      (Unmixed (components isolation s) (components isolation t) →
        (KeysTell isolation s t ↔ IdsTell isolation s t ∧ ReadAsItself s)) ∧
      ((∀ component ∈ components isolation s, KEY_SEP ∉ component) →
        (∀ component ∈ components isolation t, KEY_SEP ∉ component) →
        Unmixed (components isolation s) (components isolation t)) := by
  rw [KeysTell, isMachineLane_iff, ← components_tell_iff]
  refine ⟨?_, fun hunmixed => ?_, unmixed_of_colonFree⟩
  · rintro ⟨hkeys, hread⟩
    refine ⟨fun heq => hkeys.mp ?_, hread⟩
    rw [buildSessionKey_eq, buildSessionKey_eq, heq]
  · rw [buildSessionKey_eq_iff hunmixed]
    refine and_congr_left' ⟨Iff.mp, fun h => ⟨h, fun hsame => ?_⟩⟩
    exact (buildSessionKey_eq_iff hunmixed).mp hsame.buildSessionKey_eq

/-- A thread of a group and a participant of it, both called `7`. -/
theorem not_keysTell : ¬ ∀ isolation s t, KeysTell isolation s t := by
  intro h
  let group : SessionSource :=
    { owlName := ['B'], channel := ['t'], chatType := .group, chatId := some ['1'] }
  have htell := (h {} { group with threadId := some ['7'] }
    { group with participantId := some ['7'] }).1.mp (by decide)
  rw [SameLane, if_neg (by decide)] at htell
  exact absurd htell.2.2.2.2.2.1 (by decide)

end StackOwl.Sessions
