import Mathlib.Algebra.Order.Field.Rat
import Mathlib.Data.List.Dedup
import Mathlib.Data.List.DropRight
import Mathlib.Data.List.Induction
import Mathlib.Data.List.Perm.Subperm
import Mathlib.Tactic.Linarith
import StackOwl.Lib.Dict

/-!
# Refusing a caller that is guessing

`LoginAttempts` (`control_plane/login_guard.py`): the failures of each source, in an ordered map
that every call about a source prunes and moves to its end, and from whose front the sources past
the cap are evicted.

## Main results

* `login_guard` — what the guard answers is what its history says, for a source that the cap has
  not pushed out.
-/

namespace StackOwl.ControlPlane

open Lib List

def MAX_FAILURES : Nat := 10

def WINDOW_SECONDS : ℚ := 300

def MAX_TRACKED_SOURCES : Nat := 2048

structure LoginAttempts where
  fails : Dict String (List ℚ)

namespace LoginAttempts

def recent (now : ℚ) (times : List ℚ) : List ℚ := times.filter fun t => now - t < WINDOW_SECONDS

variable (g : LoginAttempts)

/-- `self._fails.get(source, [])`. -/
def times (source : String) : List ℚ := (g.fails.get? source).getD []

def prune (source : String) (now : ℚ) : List ℚ × LoginAttempts :=
  let kept := recent now (g.times source)
  (kept, { fails := if kept = [] then g.fails.erase source else g.fails.toEnd source kept })

def isRefused (source : String) (now : ℚ) : Bool × LoginAttempts :=
  let pruned := g.prune source now
  (MAX_FAILURES ≤ pruned.1.length, pruned.2)

def recordFailure (source : String) (now : ℚ) : Nat × LoginAttempts :=
  let pruned := g.prune source now
  let fails := pruned.2.fails.toEnd source (pruned.1 ++ [now])
  (pruned.1.length + 1, { fails := fails.dropFirst (fails.size - MAX_TRACKED_SOURCES) })

def recordSuccess (source : String) : LoginAttempts :=
  { fails := g.fails.erase source }

def tracked : Nat := g.fails.size

end LoginAttempts

open LoginAttempts

inductive LoginCall where
  | isRefused (source : String) (now : ℚ)
  | recordFailure (source : String) (now : ℚ)
  | recordSuccess (source : String)
  deriving DecidableEq

namespace LoginCall

def source : LoginCall → String
  | isRefused source _ | recordFailure source _ | recordSuccess source => source

def now? : LoginCall → Option ℚ
  | isRefused _ now | recordFailure _ now => some now
  | recordSuccess _ => none

end LoginCall

def guardStep (g : LoginAttempts) : LoginCall → LoginAttempts
  | .isRefused source now => (g.isRefused source now).2
  | .recordFailure source now => (g.recordFailure source now).2
  | .recordSuccess source => g.recordSuccess source

variable (calls : List LoginCall)

/-- What the guard holds after some calls. -/
def guardRun : LoginAttempts := calls.foldl guardStep ⟨.empty⟩

/-! ## The history -/

def failureTime? (source : String) : LoginCall → Option ℚ
  | .recordFailure other now => if other = source then some now else none
  | _ => none

/-- The failures of a source since its last success. -/
def failureTimes (source : String) (calls : List LoginCall) : List ℚ :=
  (calls.rtakeWhile (· ≠ .recordSuccess source)).filterMap (failureTime? source)

def others (source : String) (calls : List LoginCall) : List String :=
  ((calls.map LoginCall.source).filter (· ≠ source)).dedup

def After (now : ℚ) : Prop :=
  ∀ t ∈ calls.filterMap LoginCall.now?, t ≤ now

/-- The second source had a call after the last one of the first. -/
def CalledSince (source later : String) : Prop :=
  ∃ front back, calls = front ++ back ∧ source ∉ back.map LoginCall.source ∧
    later ∈ back.map LoginCall.source

/-- Since each failure of a source that counts, fewer others had a call than are tracked. -/
def FewOthers (source : String) (now : ℚ) (calls : List LoginCall) : Prop :=
  ∀ front t back, calls = front ++ .recordFailure source t :: back →
    .recordSuccess source ∉ back → now - t < WINDOW_SECONDS →
    (others source back).length < MAX_TRACKED_SOURCES

theorem FewOthers.of_length {source : String} {now : ℚ} {calls : List LoginCall}
    (h : (others source calls).length < MAX_TRACKED_SOURCES) : FewOthers source now calls := by
  intro front t back hsplit _ _
  have hsubset : others source back ⊆ others source calls := by
    intro other hother
    simp only [others, mem_dedup, mem_filter, hsplit, map_append, map_cons, mem_append,
      mem_cons] at *
    exact ⟨.inr (.inr hother.1), hother.2⟩
  exact (List.Nodup.subperm (nodup_dedup _) hsubset).length_le.trans_lt h

/-! ## What the map holds -/

variable {calls} {front back : List LoginCall} {call : LoginCall} {g : LoginAttempts}
  {source : String} {now : ℚ}

def kept (g : LoginAttempts) : LoginCall → List ℚ
  | .isRefused source now => recent now (g.times source)
  | .recordFailure source now => recent now (g.times source) ++ [now]
  | .recordSuccess _ => []

/-- The map behind a call, before the cap. -/
def uncapped (g : LoginAttempts) (call : LoginCall) : Dict String (List ℚ) :=
  if kept g call = [] then g.fails.erase call.source else g.fails.toEnd call.source (kept g call)

def pushedOut (g : LoginAttempts) (call : LoginCall) : List (String × List ℚ) :=
  (uncapped g call).items.take ((uncapped g call).size - MAX_TRACKED_SOURCES)

theorem uncapped_size_le (h : kept g call = [] ∨ g.times call.source ≠ []) :
    (uncapped g call).size ≤ g.fails.size := by
  rw [uncapped]
  split
  · exact length_filter_le _ _
  · rename_i hkept
    exact Dict.size_toEnd_le (fun hnone => h.resolve_left hkept (by rw [times, hnone]; rfl)) _

/-- **What a call does to the map.** -/
theorem fails_guardStep (h : g.fails.size ≤ MAX_TRACKED_SOURCES) (call : LoginCall) :
    (guardStep g call).fails =
      (uncapped g call).dropFirst ((uncapped g call).size - MAX_TRACKED_SOURCES) := by
  cases call with
  | isRefused source now =>
    have hsize : (uncapped g (.isRefused source now)).size ≤ g.fails.size := by
      refine uncapped_size_le ?_
      by_cases htimes : g.times source = []
      · exact Or.inl (by rw [kept, htimes]; rfl)
      · exact Or.inr htimes
    rw [Nat.sub_eq_zero_of_le (hsize.trans h)]
    rfl
  | recordFailure source now =>
    have hkept : kept g (.recordFailure source now) ≠ [] := append_ne_nil_of_right_ne_nil _
      (cons_ne_nil _ _)
    have hpruned : (g.prune source now).2.fails.toEnd source (kept g (.recordFailure source now)) =
        g.fails.toEnd source (kept g (.recordFailure source now)) := by
      show (if _ then _ else _ : Dict String (List ℚ)).toEnd source _ = _
      split
      · rw [Dict.toEnd_erase]
      · rw [Dict.toEnd_toEnd]
    rw [uncapped, if_neg hkept]
    show ((g.prune source now).2.fails.toEnd source (kept g (.recordFailure source now))).dropFirst
      (((g.prune source now).2.fails.toEnd source
        (kept g (.recordFailure source now))).size - MAX_TRACKED_SOURCES) = _
    rw [hpruned]
    rfl
  | recordSuccess source =>
    have hsize : (uncapped g (.recordSuccess source)).size ≤ _ :=
      (uncapped_size_le (Or.inl rfl)).trans h
    rw [Nat.sub_eq_zero_of_le hsize]
    rfl

/-- What is found about a source after a call: nothing when the cap has pushed it out. -/
theorem times_guardStep (h : g.fails.size ≤ MAX_TRACKED_SOURCES) (call : LoginCall)
    (source : String) :
    (guardStep g call).times source =
      if source ∈ (pushedOut g call).map Prod.fst then []
      else if source = call.source then kept g call else g.times source := by
  have huncapped : ((uncapped g call).get? source).getD [] =
      if source = call.source then kept g call else g.times source := by
    rw [uncapped]
    split
    · rename_i hkept
      rw [Dict.get?_erase, hkept]
      split
      · rfl
      · rfl
    · rw [Dict.get?_toEnd]
      split
      · rfl
      · rfl
  rw [times, fails_guardStep h, Dict.get?_dropFirst, ← huncapped, pushedOut]
  by_cases hout : source ∈ ((uncapped g call).items.take
      ((uncapped g call).size - MAX_TRACKED_SOURCES)).map Prod.fst
  · rw [if_pos hout, if_pos hout]
    rfl
  · rw [if_neg hout, if_neg hout]

/-! ## The map and the history -/

theorem failureTimes_append (source : String) (calls : List LoginCall) (call : LoginCall) :
    failureTimes source (calls ++ [call]) =
      if call = .recordSuccess source then []
      else failureTimes source calls ++ (failureTime? source call).toList := by
  rw [failureTimes, rtakeWhile_concat]
  by_cases hcall : call = .recordSuccess source
  · rw [if_pos hcall, if_neg (by simpa using hcall)]
    rfl
  · rw [if_neg hcall, if_pos (by simpa using hcall), filterMap_append]
    rfl

variable {t : ℚ}

theorem exists_of_mem_failureTimes (h : t ∈ failureTimes source calls) :
    ∃ front back, calls = front ++ .recordFailure source t :: back ∧
      .recordSuccess source ∉ back := by
  obtain ⟨call, hmem, htime⟩ := mem_filterMap.mp h
  have hcall : call = .recordFailure source t := by
    cases call with
    | recordFailure other now =>
      rw [failureTime?] at htime
      split at htime
      · rename_i hother
        rw [hother, Option.some.inj htime]
      · cases htime
    | isRefused other now => cases htime
    | recordSuccess other => cases htime
  obtain ⟨early, hearly⟩ := rtakeWhile_suffix (· ≠ .recordSuccess source) calls
  obtain ⟨front, back, hsplit⟩ := append_of_mem (hcall ▸ hmem)
  refine ⟨early ++ front, back, ?_, fun hsuccess => ?_⟩
  · rw [append_assoc, ← hsplit, hearly]
  · have hlater : LoginCall.recordSuccess source ∈
        calls.rtakeWhile (· ≠ .recordSuccess source) := by
      rw [hsplit]
      exact mem_append_right _ (mem_cons_of_mem _ hsuccess)
    simpa using mem_rtakeWhile_imp hlater

theorem CalledSince.append {later : String} (h : CalledSince calls source later)
    (hother : source ≠ call.source) : CalledSince (calls ++ [call]) source later := by
  obtain ⟨front, back, rfl, hnot, hlater⟩ := h
  exact ⟨front, back ++ [call], append_assoc .., by simp_all, by simp [hlater]⟩

theorem calledSince_call (calls : List LoginCall) (hother : source ≠ call.source) :
    CalledSince (calls ++ [call]) source call.source :=
  ⟨calls, [call], rfl, by simpa using hother, by simp⟩

theorem CalledSince.mem_others {later : String} (h : CalledSince calls source later)
    (hsplit : calls = front ++ call :: back) (hcall : call.source = source) :
    later ∈ others source back := by
  obtain ⟨before, after, rfl, hnot, hlater⟩ := h
  have hcall' : call ∉ after := fun hmem => hnot (hcall ▸ mem_map_of_mem hmem)
  have hback : after <:+ back := by
    rcases append_eq_append_iff.mp hsplit with ⟨between, rfl, hafter⟩ | ⟨between, rfl, hrest⟩
    · exact absurd (hafter ▸ mem_append_right _ mem_cons_self) hcall'
    · cases between with
      | nil => exact absurd (mem_of_mem_head? (congrArg head? hrest).symm) hcall'
      | cons first between => exact ⟨between, (cons.inj hrest).2.symm⟩
  have hne : later ≠ source := fun heq => hnot (heq ▸ hlater)
  rw [others, mem_dedup, mem_filter]
  exact ⟨(hback.map LoginCall.source).subset hlater, by simpa using hne⟩

/-- What the map has to do with the calls so far. -/
structure GuardInv (calls : List LoginCall) (g : LoginAttempts) : Prop where
  size : g.fails.size ≤ MAX_TRACKED_SOURCES
  order : g.fails.keys.Pairwise (CalledSince calls)
  told : ∀ source now, After calls now → FewOthers source now calls →
    recent now (g.times source) = recent now (failureTimes source calls)

/-- The keys stay in the order of their last calls, those of the cap before the rest. -/
theorem GuardInv.uncapped_order (h : GuardInv calls g) (call : LoginCall) :
    (uncapped g call).keys.Pairwise (CalledSince (calls ++ [call])) := by
  have herased : (g.fails.erase call.source).keys.Pairwise (CalledSince (calls ++ [call])) := by
    have hpair := h.order.sublist ((filter_sublist (l := g.fails.items)
      (p := fun item => item.1 ≠ call.source)).map Prod.fst)
    refine hpair.imp_of_mem fun hsource _ hcalled => hcalled.append ?_
    obtain ⟨item, hitem, rfl⟩ := mem_map.mp hsource
    simpa using (mem_filter.mp hitem).2
  rw [uncapped]
  split
  · exact herased
  · show (((g.fails.erase call.source).items ++ [_]).map Prod.fst).Pairwise _
    rw [map_append, pairwise_append]
    refine ⟨herased, pairwise_singleton _ _, fun source hsource later hlater => ?_⟩
    obtain ⟨item, hitem, rfl⟩ := mem_map.mp hsource
    rw [mem_singleton.mp hlater]
    exact calledSince_call calls (by simpa using (mem_filter.mp hitem).2)

/-- **Each source that is pushed out was called before every one that stays.** -/
theorem GuardInv.pushedOut_before (h : GuardInv calls g)
    (hout : source ∈ (pushedOut g call).map Prod.fst) :
    ∀ stays ∈ (guardStep g call).fails.keys, CalledSince (calls ++ [call]) source stays := by
  have horder := h.uncapped_order call
  rw [← take_append_drop ((uncapped g call).size - MAX_TRACKED_SOURCES)
    (uncapped g call).keys, pairwise_append] at horder
  rw [fails_guardStep h.size, Dict.keys_dropFirst]
  rw [pushedOut, map_take] at hout
  exact horder.2.2 source hout

theorem GuardInv.cap_le_others (h : GuardInv calls g)
    (hout : source ∈ (pushedOut g call).map Prod.fst)
    (hsplit : calls ++ [call] = front ++ .recordFailure source t :: back) :
    MAX_TRACKED_SOURCES ≤ (others source back).length := by
  have hsubset : (guardStep g call).fails.keys ⊆ others source back := fun stays hstays =>
    (h.pushedOut_before hout stays hstays).mem_others hsplit rfl
  have hfull : (guardStep g call).fails.keys.length = MAX_TRACKED_SOURCES := by
    have hsome : 0 < (uncapped g call).size - MAX_TRACKED_SOURCES := by
      rw [Nat.pos_iff_ne_zero]
      intro hzero
      rw [pushedOut, hzero] at hout
      cases hout
    rw [Dict.keys, length_map]
    show (guardStep g call).fails.size = _
    rw [fails_guardStep h.size, Dict.size_dropFirst]
    omega
  rw [← hfull]
  exact (List.Nodup.subperm (guardStep g call).fails.nodup hsubset).length_le

theorem recent_recent {earlier : ℚ} (h : earlier ≤ now) (times : List ℚ) :
    recent now (recent earlier times) = recent now times := by
  rw [recent, recent, filter_filter]
  refine filter_congr fun t _ => ?_
  have himp : now - t < WINDOW_SECONDS → earlier - t < WINDOW_SECONDS := by
    intro ht
    linarith
  simpa using himp

theorem After.of_append (h : After (calls ++ [call]) now) : After calls now := fun t ht =>
  h t (by rw [filterMap_append]; exact mem_append_left _ ht)

theorem After.call_le (h : After (calls ++ [call]) now) (hcall : call.now? = some t) :
    t ≤ now :=
  h t (by simp [hcall])

theorem FewOthers.of_append (h : FewOthers source now (calls ++ [call]))
    (hcall : call ≠ .recordSuccess source) : FewOthers source now calls := by
  intro front t back hsplit hsuccess hrecent
  have hlater := h front t (back ++ [call]) (by rw [hsplit, append_assoc]; rfl)
    (by simp [hsuccess, Ne.symm hcall]) hrecent
  have hsubset : others source back ⊆ others source (back ++ [call]) := by
    intro other hother
    simp only [others, mem_dedup, mem_filter, map_append, mem_append] at *
    exact ⟨Or.inl hother.1, hother.2⟩
  exact (List.Nodup.subperm (nodup_dedup _) hsubset).length_le.trans_lt hlater

theorem GuardInv.told_call (hafter : After (calls ++ [call]) now) (hsource : source = call.source)
    (hbefore : call ≠ .recordSuccess source →
      recent now (g.times source) = recent now (failureTimes source calls)) :
    recent now (kept g call) = recent now (failureTimes source (calls ++ [call])) := by
  rw [failureTimes_append]
  cases call with
  | isRefused other t =>
    obtain rfl : source = other := hsource
    rw [if_neg LoginCall.noConfusion, kept, recent_recent (hafter.call_le rfl),
      hbefore LoginCall.noConfusion]
    exact congrArg (recent now) (append_nil _).symm
  | recordFailure other t =>
    obtain rfl : source = other := hsource
    rw [if_neg LoginCall.noConfusion, kept, failureTime?, if_pos rfl]
    show recent now (_ ++ [t]) = recent now (_ ++ [t])
    rw [recent, filter_append]
    show recent now (recent t (g.times source)) ++ recent now [t] = _
    rw [recent_recent (hafter.call_le rfl), hbefore LoginCall.noConfusion]
    exact (filter_append ..).symm
  | recordSuccess other =>
    obtain rfl : source = other := hsource
    rw [if_pos rfl, kept]

/-- **The invariant is kept by every call.** -/
theorem GuardInv.step (h : GuardInv calls g) (call : LoginCall) :
    GuardInv (calls ++ [call]) (guardStep g call) where
  size := by
    rw [fails_guardStep h.size, Dict.size_dropFirst]
    omega
  order := by
    rw [fails_guardStep h.size, Dict.keys_dropFirst]
    exact (h.uncapped_order call).sublist (drop_sublist _ _)
  told := by
    intro source now hafter hfew
    rw [times_guardStep h.size]
    by_cases hout : source ∈ (pushedOut g call).map Prod.fst
    · -- Enough others were called since each of its failures that counts.
      rw [if_pos hout]
      symm
      refine filter_eq_nil_iff.mpr fun t ht hrecent => ?_
      obtain ⟨front, back, hsplit, hsuccess⟩ := exists_of_mem_failureTimes ht
      exact absurd (h.cap_le_others hout hsplit)
        (Nat.not_le.mpr (hfew front t back hsplit hsuccess (of_decide_eq_true hrecent)))
    · rw [if_neg hout]
      have hbefore : call ≠ .recordSuccess source →
          recent now (g.times source) = recent now (failureTimes source calls) := fun hcall =>
        h.told source now hafter.of_append (hfew.of_append hcall)
      split
      · rename_i hsource
        exact GuardInv.told_call hafter hsource hbefore
      · rename_i hother
        have hcall : call ≠ .recordSuccess source := fun hcall => hother (hcall ▸ rfl)
        have htime : failureTime? source call = none := by
          cases call with
          | recordFailure other t => exact if_neg (Ne.symm hother)
          | isRefused other t => rfl
          | recordSuccess other => rfl
        rw [hbefore hcall, failureTimes_append, if_neg hcall, htime]
        exact congrArg (recent now) (append_nil _).symm

theorem guardInv_run (calls : List LoginCall) : GuardInv calls (guardRun calls) := by
  induction calls using reverseRecOn with
  | nil => exact ⟨Nat.zero_le _, List.Pairwise.nil, fun _ _ _ _ => rfl⟩
  | append_singleton calls call ih =>
    rw [guardRun, foldl_append]
    exact ih.step call

/-- **The guard tells what its history says.** -/
theorem login_guard (calls : List LoginCall) :
    (guardRun calls).tracked ≤ MAX_TRACKED_SOURCES ∧
    (∀ call, ∀ evicted ∈ (guardRun calls).fails.keys, evicted ≠ call.source →
      evicted ∉ (guardStep (guardRun calls) call).fails.keys →
      ∀ stays ∈ (guardStep (guardRun calls) call).fails.keys,
        CalledSince (calls ++ [call]) evicted stays) ∧
    ∀ source now, After calls now → FewOthers source now calls →
      ((guardRun calls).isRefused source now).1 =
        decide (MAX_FAILURES ≤ (recent now (failureTimes source calls)).length) := by
  have hinv := guardInv_run calls
  refine ⟨hinv.size, fun call evicted hevicted hother hgone => ?_, fun source now hafter hfew => ?_⟩
  · rw [fails_guardStep hinv.size, Dict.keys_dropFirst] at hgone
    have hmem : evicted ∈ (uncapped (guardRun calls) call).keys := by
      have herased : evicted ∈ ((guardRun calls).fails.erase call.source).keys := by
        obtain ⟨item, hitem, rfl⟩ := mem_map.mp hevicted
        exact mem_map_of_mem (mem_filter.mpr ⟨hitem, by simpa using hother⟩)
      rw [uncapped]
      split
      · exact herased
      · show evicted ∈ (((guardRun calls).fails.erase call.source).items ++ [_]).map Prod.fst
        rw [map_append]
        exact mem_append_left _ herased
    rw [← take_append_drop ((uncapped (guardRun calls) call).size - MAX_TRACKED_SOURCES)
      (uncapped (guardRun calls) call).keys, mem_append] at hmem
    refine hinv.pushedOut_before ?_
    rw [pushedOut, map_take]
    exact hmem.resolve_right hgone
  · rw [← hinv.told source now hafter hfew]
    rfl

/-- A source guesses ten times between the calls of another. -/
def guesses : List LoginCall :=
  [.recordFailure "10.0.0.7" 0] ++ replicate 10 (.recordFailure "10.0.0.9" 5) ++
    [.isRefused "10.0.0.7" 6]

/-- It is refused within the window, and not after it. -/
theorem login_guard_guesses :
    ((guardRun guesses).isRefused "10.0.0.9" 60).1 = true ∧
      ((guardRun guesses).isRefused "10.0.0.9" 305).1 = false := by
  have hfew : ∀ now, FewOthers "10.0.0.9" now guesses := fun now => .of_length (by decide +kernel)
  have hsixty : After guesses 60 := by
    unfold After
    decide +kernel
  have hlater : After guesses 305 := by
    unfold After
    decide +kernel
  constructor
  · rw [(login_guard guesses).2.2 "10.0.0.9" 60 hsixty (hfew 60)]
    decide +kernel
  · rw [(login_guard guesses).2.2 "10.0.0.9" 305 hlater (hfew 305)]
    decide +kernel

end StackOwl.ControlPlane
