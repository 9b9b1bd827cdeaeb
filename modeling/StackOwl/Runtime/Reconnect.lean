import StackOwl.Runtime.JournalLink

/-!
# A reconnect hands everything over

What a `Hello` does to the rows the gateway has missed, when its reads and narrations do
not fail: `_catch_up_journal` drains one page after the other.

## Main results

* `drain_rows` — the rows of one page, one after the other.
* `drain_pages` — page after page, until none is left.
* `reconnect_hands_everything` — after the reconnect every row committed so far is handed
  over.
* `fanout_delivers_iff` — this and `along_delivered_iff`: exactly once and in order,
  exactly while every step keeps to the next row.
-/

namespace StackOwl.Runtime

open Lib List

def GatewayLink.missing (s : GatewayLink) : List Nat :=
  s.journal.cursors.filter (s.lastDeliveredCursor < ·)

/-- A step of a coroutine that meets no failure and takes no new frame. -/
def LinkOp.smooth (i : Nat) (op : LinkOp) : Prop :=
  op = .route i ∨ op = .read i true ∨ op = .next i ∨ op = .narrated i true ∨ op = .hand i

/-- One coroutine at a point, with no hand-over under way in any. -/
structure AtTask (s : GatewayLink) (i : Nat) (task : Task) : Prop where
  linked : Linked s
  delivered : Delivered s
  handler : s.handlers[i]? = some ⟨[], task⟩
  quiet : s.announcing = []

/-- What a stretch of steps of one coroutine reaches. -/
structure Reaches (i : Nat) (s : GatewayLink) (task : Task) (missing : List Nat)
    (ops : List LinkOp) : Prop where
  smooth : ∀ op ∈ ops, op.smooth i
  turns : Meets linkStep OnTurn s ops
  at_task : AtTask (run linkStep s ops) i task
  missing_eq : (run linkStep s ops).missing = missing
  journal : (run linkStep s ops).journal = s.journal
  initial : (run linkStep s ops).initial = s.initial

variable {s : GatewayLink} {i : Nat} {task : Task}

theorem Reaches.trans {task' : Task} {missing missing' : List Nat} {ops ops' : List LinkOp}
    (h : Reaches i s task missing ops) (h' : Reaches i (run linkStep s ops) task' missing' ops') :
    Reaches i s task' missing' (ops ++ ops') where
  smooth := fun op hop => (mem_append.mp hop).elim (h.smooth op) (h'.smooth op)
  turns := (meets_append s ops ops').mpr ⟨h.turns, h'.turns⟩
  at_task := run_append s ops ops' ▸ h'.at_task
  missing_eq := run_append s ops ops' ▸ h'.missing_eq
  journal := by rw [run_append, h'.journal, h.journal]
  initial := by rw [run_append, h'.initial, h.initial]

variable {c : Nat} {later : List Nat}

theorem isNext_of_missing (h : s.missing = c :: later) :
    IsNext s.journal.cursors s.lastDeliveredCursor c ∧
      s.journal.cursors.filter (c < ·) = later := by
  have hsorted : s.missing.Pairwise (· < ·) := s.journal.increasing.filter _
  rw [h] at hsorted
  obtain ⟨hfirst, -⟩ := pairwise_cons.mp hsorted
  have hmem : ∀ d, d ∈ s.journal.cursors ∧ s.lastDeliveredCursor < d ↔ d = c ∨ d ∈ later := by
    intro d
    have : d ∈ s.missing ↔ d ∈ c :: later := by rw [h]
    simpa [GatewayLink.missing] using this
  obtain ⟨hc, habove⟩ := (hmem c).mpr (Or.inl rfl)
  refine ⟨⟨hc, habove, fun d hd hlt => ?_⟩, ?_⟩
  · rcases (hmem d).mp ⟨hd, hlt⟩ with rfl | hlater
    · exact Nat.le_refl d
    · exact Nat.le_of_lt (hfirst d hlater)
  · have hboth : s.journal.cursors.filter (c < ·) = s.missing.filter (c < ·) := by
      rw [GatewayLink.missing, filter_filter]
      refine filter_congr fun d _ => ?_
      simp only [decide_eq_decide, ← Bool.decide_and]
      exact ⟨fun hcd => ⟨hcd, Nat.lt_trans habove hcd⟩, fun hcd => hcd.1⟩
    rw [hboth, h, filter_cons_of_neg (by simp)]
    exact filter_eq_self.mpr fun d hd => by simpa using hfirst d hd

/-! ## One step of the coroutine -/

theorem linkStep_of_handler {op : LinkOp} (hop : op.handler = some i) :
    linkStep s op = s.stepHandler i op := by
  cases op <;> simp_all [LinkOp.handler, linkStep]

structure Steps (s : GatewayLink) (i : Nat) (h : Handler) (op : LinkOp) : Prop where
  linked : Linked (linkStep s op)
  delivered : Delivered (linkStep s op)
  turn : OnTurn s op
  handler : (linkStep s op).handlers[i]? = some (s.advance h op)
  journal : (linkStep s op).journal = s.journal
  initial : (linkStep s op).initial = s.initial
  watermark : (linkStep s op).lastDeliveredCursor = h.watermark s.lastDeliveredCursor op
  announcing : (h.announced.toList ++ (linkStep s op).announcing).Perm
    ((s.advance h op).announced.toList ++ s.announcing)

theorem steps_of_keepsTurn {h : Handler} (op : LinkOp) (hlinked : Linked s)
    (hdelivered : Delivered s) (hi : s.handlers[i]? = some h) (hop : op.handler = some i)
    (hturn : s.keepsTurn h op) : Steps s i h op := by
  have hstep : linkStep s op = s.stepHandler i op := linkStep_of_handler hop
  have honturn : OnTurn s op := by
    intro j h' hj hh'
    cases hop.symm.trans hj
    cases hi.symm.trans hh'
    exact hturn
  obtain ⟨hlt, -⟩ := List.getElem?_eq_some_iff.mp hi
  refine ⟨linked_step s op hlinked, (delivered_step_iff hlinked hdelivered op).mpr honturn,
    honturn, ?_, ?_, ?_, ?_, hstep ▸ announcing_stepHandler hi op⟩
  · simp only [hstep, GatewayLink.stepHandler, hi, List.getElem?_set_self hlt]
  · simp only [hstep, GatewayLink.stepHandler, hi]
  · simp only [hstep, GatewayLink.stepHandler, hi]
  · simp only [hstep, GatewayLink.stepHandler, hi]

/-- A step that moves neither the watermark nor a hand-over. -/
theorem reaches_of_quiet_step (task' : Task) (op : LinkOp) (h : AtTask s i task)
    (hop : op.handler = some i) (hsmooth : op.smooth i) (hturn : s.keepsTurn ⟨[], task⟩ op)
    (hadvance : s.advance ⟨[], task⟩ op = ⟨[], task'⟩)
    (hwatermark : Handler.watermark ⟨[], task⟩ s.lastDeliveredCursor op = s.lastDeliveredCursor)
    (hannounced : (Handler.announced ⟨[], task⟩) = none ∧ (Handler.announced ⟨[], task'⟩) = none) :
    Reaches i s task' s.missing [op] := by
  have hsteps := steps_of_keepsTurn op h.linked h.delivered h.handler hop hturn
  have hquiet := hsteps.announcing
  rw [hadvance, hannounced.1, hannounced.2, h.quiet] at hquiet
  refine ⟨?_, ⟨hsteps.turn, trivial⟩, ⟨hsteps.linked, hsteps.delivered,
    hadvance ▸ hsteps.handler, perm_nil.mp hquiet⟩, ?_, hsteps.journal, hsteps.initial⟩
  · intro op' hop'
    exact mem_singleton.mp hop' ▸ hsmooth
  · simp only [run, GatewayLink.missing, hsteps.journal, hsteps.watermark, hwatermark]

/-- The call of `read_since` for the page after a full one. -/
theorem reaches_next_page (h : AtTask s i (.rows [] true)) :
    Reaches i s (.reading (run linkStep s [.next i]).lastDeliveredCursor) s.missing
      [.next i] := by
  have hwatermark : (run linkStep s [.next i]).lastDeliveredCursor =
      s.lastDeliveredCursor :=
    (steps_of_keepsTurn (.next i) h.linked h.delivered h.handler rfl trivial).watermark
  rw [hwatermark]
  exact reaches_of_quiet_step _ (.next i) h rfl (by simp [LinkOp.smooth]) trivial rfl rfl
    ⟨rfl, rfl⟩

variable {todo : List Nat} {again : Bool}

/-- One missing row, from the comparison with the watermark to `emit`. -/
theorem reaches_row (h : AtTask s i (.rows (c :: todo) again)) (hmissing : s.missing = c :: later) :
    Reaches i s (.rows todo again) later [.next i, .narrated i true, .hand i] := by
  obtain ⟨hnext, hlater⟩ := isNext_of_missing hmissing
  have hlook := steps_of_keepsTurn (.next i) h.linked h.delivered h.handler rfl trivial
  have htask₁ : (linkStep s (.next i)).handlers[i]? =
      some ⟨[], .narrating c todo again⟩ := by
    rw [hlook.handler, GatewayLink.advance]
    simp [not_le.mpr hnext.2.1]
  have hquiet₁ : (linkStep s (.next i)).announcing = [] := by
    have hperm := hlook.announcing
    rw [announced_next, h.quiet] at hperm
    exact perm_nil.mp hperm
  -- the watermark advances
  have hnarrated := steps_of_keepsTurn (.narrated i true) hlook.linked
    hlook.delivered htask₁ rfl (by
      simp only [GatewayLink.keepsTurn, if_true, hlook.journal, hlook.watermark]
      exact hnext)
  have htask₂ := hnarrated.handler
  simp only [GatewayLink.advance, if_true] at htask₂
  have hquiet₂ : (linkStep (linkStep s (.next i)) (.narrated i true)).announcing = [c] := by
    have hperm := hnarrated.announcing
    rw [hquiet₁] at hperm
    exact perm_singleton.mp hperm
  -- the row is emitted
  have hhand := steps_of_keepsTurn (.hand i) hnarrated.linked hnarrated.delivered
    htask₂ rfl (by
      intro other hother
      rw [hquiet₂, mem_singleton] at hother
      exact hother.ge)
  have hquiet₃ := hhand.announcing
  rw [hquiet₂] at hquiet₃
  have hwatermark := hhand.watermark.trans hnarrated.watermark
  have hjournal := hhand.journal.trans (hnarrated.journal.trans hlook.journal)
  refine ⟨?_, ⟨hlook.turn, hnarrated.turn, hhand.turn, trivial⟩,
    ⟨hhand.linked, hhand.delivered, hhand.handler,
      perm_nil.mp (List.Perm.cons_inv hquiet₃)⟩, ?_, hjournal,
    hhand.initial.trans (hnarrated.initial.trans hlook.initial)⟩
  · intro op hop
    simp only [mem_cons, not_mem_nil, or_false] at hop
    rcases hop with rfl | rfl | rfl <;> simp [LinkOp.smooth]
  · show List.filter _ _ = later
    rw [run, run, run, run, hjournal, hwatermark]
    exact hlater

/-- **The rows of one page.** -/
theorem drain_rows (h : AtTask s i (.rows todo again)) (hmissing : s.missing = todo ++ later) :
    ∃ ops, Reaches i s (.rows [] again) later ops := by
  induction todo generalizing s with
  | nil =>
    exact ⟨[], fun _ hop => absurd hop not_mem_nil, trivial, h, hmissing, rfl, rfl⟩
  | cons c todo ih =>
    have hrow := reaches_row h hmissing
    obtain ⟨ops, hrest⟩ := ih hrow.at_task hrow.missing_eq
    exact ⟨_, hrow.trans hrest⟩

/-- **Page after page.**  A catch-up that was called with the watermark ends with no row
missing. -/
theorem drain_pages (h : AtTask s i (.reading s.lastDeliveredCursor)) :
    ∃ ops, Reaches i s .idle [] ops := by
  -- every page that is not the last one takes rows off the missing ones
  generalize hn : s.missing.length = n
  induction n using Nat.strong_induction_on generalizing s with
  | _ n ih =>
    have hpage : s.journal.readSince s.lastDeliveredCursor =
        s.missing.take JOURNAL_CATCH_UP_PAGE_LIMIT := rfl
    by_cases hnone : s.missing = []
    · refine ⟨[.read i true], ?_⟩
      have hquiet := reaches_of_quiet_step .idle (.read i true) h rfl
        (by simp [LinkOp.smooth]) trivial
        (by simp [GatewayLink.advance, hpage, hnone]) rfl ⟨rfl, rfl⟩
      rwa [hnone] at hquiet
    · let page := s.missing.take JOURNAL_CATCH_UP_PAGE_LIMIT
      let again := page.length == JOURNAL_CATCH_UP_PAGE_LIMIT
      have hpage_ne : page ≠ [] := by
        simp [page, JOURNAL_CATCH_UP_PAGE_LIMIT, hnone]
      have hread := reaches_of_quiet_step (.rows page again) (.read i true) h rfl
        (by simp [LinkOp.smooth]) trivial
        (by simp only [GatewayLink.advance, hpage]; exact if_pos ⟨trivial, hpage_ne⟩) rfl
        ⟨rfl, rfl⟩
      obtain ⟨ops, hrows⟩ := drain_rows hread.at_task
        (hread.missing_eq.trans (take_append_drop _ s.missing).symm)
      have hdrained := hread.trans hrows
      cases hagain : again with
      | false =>
        rw [hagain] at hdrained
        have hshort : s.missing.length < JOURNAL_CATCH_UP_PAGE_LIMIT := by
          have hne : page.length ≠ JOURNAL_CATCH_UP_PAGE_LIMIT := by
            simpa [again] using hagain
          rw [length_take] at hne
          omega
        have hdone := reaches_of_quiet_step .idle (.next i) hdrained.at_task rfl
          (by simp [LinkOp.smooth]) trivial rfl rfl ⟨rfl, rfl⟩
        rw [hdrained.missing_eq, drop_eq_nil_of_le hshort.le] at hdone
        exact ⟨_, hdrained.trans hdone⟩
      | true =>
        rw [hagain] at hdrained
        have hcall := reaches_next_page hdrained.at_task
        rw [← run_append] at hcall
        have hnext := hdrained.trans hcall
        have hmissing := hnext.missing_eq.trans hdrained.missing_eq
        have hless : (s.missing.drop JOURNAL_CATCH_UP_PAGE_LIMIT).length < n := by
          have hpos := length_pos_of_ne_nil hnone
          rw [length_drop, JOURNAL_CATCH_UP_PAGE_LIMIT]
          omega
        obtain ⟨rest, hrest⟩ := ih _ hless hnext.at_task (by rw [hmissing])
        exact ⟨_, hnext.trans hrest⟩

/-! ## The reconnect -/

theorem handed_of_missing_nil (hdelivered : Delivered s) (hquiet : s.announcing = [])
    (hmissing : s.missing = []) :
    s.handed = s.journal.cursors.filter (s.initial < ·) := by
  obtain ⟨rest, hpassed, hrest⟩ := hdelivered
  rw [hquiet, perm_nil] at hrest
  rw [hrest, append_nil] at hpassed
  rw [hpassed, GatewayLink.passed, window]
  refine filter_congr fun c hc => ?_
  have hle : c ≤ s.lastDeliveredCursor := by
    by_contra hlt
    exact absurd hmissing (ne_nil_of_mem (mem_filter.mpr ⟨hc, by simpa using hlt⟩))
  simp [hle]

/-- **A reconnect hands everything over.**  Where no hand-over is under way, a core that
connects and says hello makes the gateway hand over every row committed so far, if its
reads and narrations do not fail. -/
theorem reconnect_hands_everything (hlinked : Linked s) (hdelivered : Delivered s)
    (hquiet : s.announcing = []) :
    ∃ ops, (∀ op ∈ ops, op.smooth s.handlers.length) ∧
      Meets linkStep OnTurn s
        (.connect :: .receive s.handlers.length .hello :: ops) ∧
      (run linkStep s (.connect :: .receive s.handlers.length .hello :: ops)).handed =
        s.journal.cursors.filter (s.initial < ·) := by
  let n := s.handlers.length
  have hturn₀ : OnTurn s .connect := fun _ _ hop => nomatch hop
  have hquiet₁ : (linkStep s .connect).announcing = [] := by
    simpa [linkStep, GatewayLink.announcing, Handler.announced] using hquiet
  have hreceive := steps_of_keepsTurn (i := n) (h := {}) (.receive n .hello)
    (linked_step s .connect hlinked)
    ((delivered_step_iff hlinked hdelivered .connect).mpr hturn₀)
    (by simp [linkStep, n]) rfl trivial
  have hquiet₂ : (linkStep (linkStep s .connect) (.receive n .hello)).announcing = [] := by
    have hperm := hreceive.announcing
    rw [announced_receive, hquiet₁] at hperm
    exact perm_nil.mp hperm
  have hroute := steps_of_keepsTurn (.route n) hreceive.linked hreceive.delivered
    hreceive.handler rfl trivial
  have hquiet₃ := hroute.announcing
  rw [announced_route, announced_receive, hquiet₂] at hquiet₃
  have hwatermark : (linkStep (linkStep (linkStep s .connect) (.receive n .hello))
      (.route n)).lastDeliveredCursor =
        (linkStep (linkStep s .connect) (.receive n .hello)).lastDeliveredCursor :=
    hroute.watermark
  have hhandler := hroute.handler
  have hadvance : (linkStep (linkStep s .connect) (.receive n .hello)).advance
      ((linkStep s .connect).advance {} (.receive n .hello)) (.route n) =
        ⟨[], .reading (linkStep (linkStep s .connect)
          (.receive n .hello)).lastDeliveredCursor⟩ := rfl
  rw [hadvance, ← hwatermark] at hhandler
  obtain ⟨ops, hdrained⟩ := drain_pages
    ⟨hroute.linked, hroute.delivered, hhandler, perm_nil.mp hquiet₃⟩
  have hjournal := hdrained.journal.trans (hroute.journal.trans hreceive.journal)
  have hinitial := hdrained.initial.trans (hroute.initial.trans hreceive.initial)
  refine ⟨.route n :: ops, ?_, ⟨hturn₀, hreceive.turn, hroute.turn, hdrained.turns⟩, ?_⟩
  · intro op hop
    rcases mem_cons.mp hop with rfl | hrest
    · exact Or.inl rfl
    · exact hdrained.smooth op hrest
  · have hhanded := handed_of_missing_nil hdrained.at_task.delivered hdrained.at_task.quiet
      hdrained.missing_eq
    rw [hjournal, hinitial] at hhanded
    exact hhanded

/-- **Exactly once and in order.**  Over a run from boot, the rows the watermark has
passed are handed over, each once and in the order of their cursors, in every state
reached if and only if every step keeps to the next row; and then a row that was
missed is handed over by the next reconnect that meets no failure. -/
theorem fanout_delivers_iff (journal : Journal) (ops : List LinkOp) :
    (Along linkStep Delivered (GatewayLink.boot journal) ops ↔
      Meets linkStep OnTurn (GatewayLink.boot journal) ops) ∧
    (Meets linkStep OnTurn (GatewayLink.boot journal) ops →
      let s := run linkStep (GatewayLink.boot journal) ops
      s.announcing = [] → ∃ more, (∀ op ∈ more, op.smooth s.handlers.length) ∧
        (run linkStep s (.connect :: .receive s.handlers.length .hello :: more)).handed =
          s.journal.cursors.filter (s.initial < ·)) := by
  have halong := along_delivered_iff (linked_boot journal) (delivered_boot journal) ops
  refine ⟨halong, fun hmeets => ?_⟩
  intro s hquiet
  have hlinked := (along_of_inv linked_step (linked_boot journal) ops).last
  obtain ⟨more, hsmooth, -, hhanded⟩ :=
    reconnect_hands_everything hlinked (halong.mpr hmeets).last hquiet
  exact ⟨more, hsmooth, hhanded⟩

/-- Rows 1 and 2 are committed, the core connects and its catch-up fails, and then row 2
is pushed: the watermark passes row 1, which is handed to nobody. -/
def failedCatchUp : List LinkOp :=
  [.commit 1, .commit 2, .connect, .receive 0 .hello, .route 0, .read 0 false,
    .receive 0 (.journalEvent 2), .route 0, .next 0, .narrated 0 true, .hand 0]

theorem failed_catch_up_skips_row :
    ¬ Along linkStep Delivered (GatewayLink.boot ⟨[], List.Pairwise.nil⟩) failedCatchUp := by
  intro h
  obtain ⟨rest, hhanded, -⟩ := h.last
  have hlost : ¬ [2] <+: [1, 2] := by decide
  exact hlost ⟨rest, hhanded⟩

end StackOwl.Runtime
