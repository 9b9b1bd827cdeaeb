import Mathlib.Data.List.Basic
import Mathlib.Data.List.Nodup
import Mathlib.Data.List.Pairwise
import Mathlib.Data.List.Infix

/-!
# Hash chains

A hash chain is a list of rows, each of which stores a digest: the hash of a payload
made of the digest stored by the row before it (a fixed `start` in front of the first
row) and of the row itself.  Rows, payloads and digests are arbitrary types, and so
are the functions between them.

What a broken link shows rests on two properties of them, which every result names:
the payload of a row determines the digest it was made with, and the hash has no
collision among the payloads at hand (`CollisionFree hash payloads`).

## Main results

* `linked_iff_map` — a list is a chain exactly when its payloads hash to the digests
  it stores.
* `payloads_eq_of_linked` — two chains that store the same digests have the same
  payloads.
* `linked_filter_iff` — a chain with rows taken out is a chain exactly when every
  row left keeps the digest in front of it.
* `nodup_stored` — no digest is stored twice.
* `isPrefix_of_linked` — a chain made of rows of another is an initial segment of it.
-/

namespace StackOwl.Lib.HashChain

open List

variable {ρ τ δ : Type*}

def CollisionFree (hash : τ → δ) (payloads : List τ) : Prop :=
  ∀ x ∈ payloads, ∀ y ∈ payloads, hash x = hash y → x = y

theorem collisionFree_iff_pairwise {hash : τ → δ} {payloads : List τ} :
    CollisionFree hash payloads ↔
      payloads.Pairwise fun x y => x = y ∨ hash x ≠ hash y := by
  constructor
  · intro h
    refine pairwise_of_forall_mem_list fun x hx y hy => ?_
    by_cases hxy : x = y
    · exact Or.inl hxy
    · exact Or.inr (mt (h x hx y hy) hxy)
  · intro h x hx y hy hhash
    have hsymm : Std.Symm fun x y => x = y ∨ hash x ≠ hash y :=
      ⟨fun x y => Or.imp Eq.symm Ne.symm⟩
    have hrefl : ∀ x ∈ payloads, x = x ∨ hash x ≠ hash x := fun x _ => Or.inl rfl
    have hpair := h.forall_of_forall hrefl hx hy
    exact hpair.resolve_right (not_not.mpr hhash)

/-- Of each pair of payloads, the digests are compared only if the payloads differ. -/
instance [DecidableEq τ] [DecidableEq δ] (hash : τ → δ) (payloads : List τ) :
    Decidable (CollisionFree hash payloads) :=
  decidable_of_iff _ collisionFree_iff_pairwise.symm

theorem CollisionFree.mono {hash : τ → δ} {xs ys : List τ}
    (h : CollisionFree hash xs) (hsub : ys ⊆ xs) : CollisionFree hash ys :=
  fun x hx y hy hxy => h x (hsub hx) y (hsub hy) hxy

section

variable (payload : δ → ρ → τ) (hash : τ → δ) (stored : ρ → δ)

/-- Every row stores the hash of its payload behind `prev`. -/
def Linked : δ → List ρ → Prop
  | _, [] => True
  | prev, row :: rows =>
    stored row = hash (payload prev row) ∧ Linked (stored row) rows

def tail : δ → List ρ → δ
  | prev, [] => prev
  | _, row :: rows => tail (stored row) rows

def payloads : δ → List ρ → List τ
  | _, [] => []
  | prev, row :: rows => payload prev row :: payloads (stored row) rows

/-- Every row that is kept has in front of it, with the rows not kept taken out, the
digest it had there before: `prev` in the whole list, `seen` in what is kept. -/
def LinksKept (kept : ρ → Bool) : δ → δ → List ρ → Prop
  | _, _, [] => True
  | prev, seen, row :: rows =>
    if kept row then seen = prev ∧ LinksKept kept (stored row) (stored row) rows
    else LinksKept kept (stored row) seen rows

end

variable {payload : δ → ρ → τ} {hash : τ → δ} {stored : ρ → δ}

/-! ## Tails -/

variable (prev : δ) (xs : List ρ)

@[simp] theorem tail_append (ys : List ρ) :
    tail stored prev (xs ++ ys) = tail stored (tail stored prev xs) ys := by
  induction xs generalizing prev with
  | nil => rfl
  | cons x xs ih => exact ih (stored x)

theorem tail_concat (row : ρ) :
    tail stored prev (xs ++ [row]) = stored row := by
  rw [tail_append]
  rfl

theorem tail_eq :
    tail stored prev xs = (xs.getLast?.map stored).getD prev := by
  rcases eq_nil_or_concat xs with rfl | ⟨ys, row, rfl⟩
  · rfl
  · rw [concat_eq_append, tail_concat, getLast?_concat]
    rfl

/-! ## Appending -/

theorem linked_append (ys : List ρ) :
    Linked payload hash stored prev (xs ++ ys) ↔
      Linked payload hash stored prev xs ∧
        Linked payload hash stored (tail stored prev xs) ys := by
  induction xs generalizing prev with
  | nil => simp [Linked, tail]
  | cons x xs ih => simp only [cons_append, Linked, tail, ih, and_assoc]

/-- A row behind a chain keeps it one exactly when it is chained to its tail. -/
theorem linked_concat (row : ρ) :
    Linked payload hash stored prev (xs ++ [row]) ↔
      Linked payload hash stored prev xs ∧
        stored row = hash (payload (tail stored prev xs) row) := by
  rw [linked_append]
  simp [Linked]

theorem payloads_append (ys : List ρ) :
    payloads payload stored prev (xs ++ ys) =
      payloads payload stored prev xs ++
        payloads payload stored (tail stored prev xs) ys := by
  induction xs generalizing prev with
  | nil => rfl
  | cons x xs ih => simp only [cons_append, payloads, tail, ih]

theorem mem_payloads (ys : List ρ) (row : ρ) :
    payload (tail stored prev xs) row ∈
      payloads payload stored prev (xs ++ row :: ys) := by
  rw [payloads_append]
  exact mem_append_right _ mem_cons_self

/-! ## Changed rows -/

theorem linked_iff_map (rows : List ρ) :
    Linked payload hash stored prev rows ↔
      (payloads payload stored prev rows).map hash = rows.map stored := by
  induction rows generalizing prev with
  | nil => simp [Linked, payloads]
  | cons row rows ih =>
    simp only [Linked, payloads, map_cons, cons.injEq, ih]
    exact and_congr_left fun _ => eq_comm

private theorem eq_of_map_eq {xs ys : List τ} (hfree : CollisionFree hash (xs ++ ys))
    (h : ys.map hash = xs.map hash) :
    ys = xs := by
  induction xs generalizing ys with
  | nil => exact map_eq_nil_iff.mp h
  | cons x xs ih =>
    cases ys with
    | nil => cases h
    | cons y ys =>
      simp only [map_cons, cons.injEq] at h
      have hxy : y = x := hfree y (by simp) x (by simp) h.1
      have hrest : ys = xs := ih (hfree.mono (by grind)) h.2
      rw [hxy, hrest]

variable {prev}

/-- Two chains that store the same digests have the same payloads. -/
theorem payloads_eq_of_linked {rows rows' : List ρ} (h : Linked payload hash stored prev rows)
    (h' : Linked payload hash stored prev rows') (hstored : rows'.map stored = rows.map stored)
    (hfree : CollisionFree hash (payloads payload stored prev rows ++
      payloads payload stored prev rows')) :
    payloads payload stored prev rows' = payloads payload stored prev rows := by
  rw [linked_iff_map] at h h'
  exact eq_of_map_eq hfree ((h'.trans hstored).trans h.symm)

theorem linked_of_payloads_eq {rows rows' : List ρ} (h : Linked payload hash stored prev rows)
    (hstored : rows'.map stored = rows.map stored)
    (hpayloads : payloads payload stored prev rows' = payloads payload stored prev rows) :
    Linked payload hash stored prev rows' := by
  rw [linked_iff_map] at h ⊢
  rw [hpayloads, h, hstored]

/-! ## Rows taken out -/

section Removal

variable (hpayload : ∀ p q row, payload p row = payload q row → p = q)
include hpayload

/-- Two chains with one row in common have one digest in front of it. -/
theorem tail_eq_of_common {start : δ} {xs xs' ys ys' : List ρ} {row : ρ}
    (h : Linked payload hash stored start (xs ++ row :: ys))
    (h' : Linked payload hash stored start (xs' ++ row :: ys'))
    (hfree : CollisionFree hash (payloads payload stored start (xs ++ row :: ys) ++
      payloads payload stored start (xs' ++ row :: ys'))) :
    tail stored start xs' = tail stored start xs := by
  have hrow := ((linked_append start xs _).mp h).2.1
  have hrow' := ((linked_append start xs' _).mp h').2.1
  refine hpayload _ _ row (hfree _ ?_ _ ?_ (hrow'.symm.trans hrow))
  · exact mem_append_right _ (mem_payloads start xs' ys' row)
  · exact mem_append_left _ (mem_payloads start xs ys row)

/-- A chain with rows taken out is a chain exactly when every row left keeps the
digest in front of it. -/
theorem linked_filter_iff (kept : ρ → Bool) {seen : δ} {rows : List ρ}
    (h : Linked payload hash stored prev rows)
    (hfree : CollisionFree hash (payloads payload stored prev rows ++
      payloads payload stored seen (rows.filter kept))) :
    Linked payload hash stored seen (rows.filter kept) ↔
      LinksKept stored kept prev seen rows := by
  induction rows generalizing prev seen with
  | nil => simp [Linked, LinksKept]
  | cons row rows ih =>
    cases hkept : kept row with
    | false =>
      simp only [filter_cons, hkept, LinksKept] at hfree ⊢
      exact ih h.2 (hfree.mono (by simp [payloads]))
    | true =>
      simp only [filter_cons, hkept, LinksKept, Linked, if_true] at hfree ⊢
      rw [ih h.2 (hfree.mono (by simp [payloads]; grind))]
      refine and_congr_left fun _ => ⟨fun hrow => ?_, fun hseen => hseen ▸ h.1⟩
      refine hpayload _ _ row (hfree _ ?_ _ ?_ (hrow.symm.trans h.1))
      · simp [payloads]
      · simp [payloads]

end Removal

variable {rows : List ρ}

theorem linksKept_of_all {kept : ρ → Bool} (prev : δ) (h : ∀ row ∈ rows, kept row = true) :
    LinksKept stored kept prev prev rows := by
  induction rows generalizing prev with
  | nil => trivial
  | cons row rows ih =>
    rw [LinksKept, if_pos (h row mem_cons_self)]
    exact ⟨rfl, ih (stored row) fun r hr => h r (mem_cons_of_mem _ hr)⟩

/-! ## Repetitions -/

theorem tail_mem_map (prev : δ) (h : rows ≠ []) :
    tail stored prev rows ∈ rows.map stored := by
  rcases eq_nil_or_concat rows with rfl | ⟨ys, row, rfl⟩
  · exact absurd rfl h
  · rw [concat_eq_append, tail_concat]
    exact mem_map_of_mem (mem_append_right _ mem_cons_self)

variable {start : δ}

/-- Where no digest is stored twice and none is `start`, the tail moves with every
row. -/
theorem eq_nil_of_tail_append {xs ys : List ρ} (hnodup : ((xs ++ ys).map stored).Nodup)
    (hstart : ∀ row ∈ xs ++ ys, stored row ≠ start)
    (htail : tail stored start (xs ++ ys) = tail stored start xs) : ys = [] := by
  by_contra hys
  rw [tail_append] at htail
  have hlast : tail stored (tail stored start xs) ys ∈ ys.map stored :=
    tail_mem_map _ hys
  rw [htail] at hlast
  by_cases hxs : xs = []
  · subst hxs
    obtain ⟨row, hrow, heq⟩ := mem_map.mp hlast
    exact hstart row hrow heq
  · rw [map_append] at hnodup
    have hfirst : tail stored start xs ∈ xs.map stored := tail_mem_map start hxs
    exact disjoint_of_nodup_append hnodup hfirst hlast

/-- No digest is stored twice in a chain, where the payloads of two of its rows
differ unless the digests in front of the rows are the same. -/
theorem nodup_stored (h : Linked payload hash stored start rows)
    (hfree : CollisionFree hash (payloads payload stored start rows))
    (hstart : ∀ row ∈ rows, stored row ≠ start)
    (hback : ∀ xs x ys y zs, rows = (xs ++ x :: ys) ++ y :: zs →
      payload (tail stored start xs) x = payload (tail stored start (xs ++ x :: ys)) y →
      tail stored start xs = tail stored start (xs ++ x :: ys)) :
    (rows.map stored).Nodup := by
  induction rows using reverseRecOn with
  | nil => exact nodup_nil
  | append_singleton init row ih =>
    obtain ⟨hinit, hrow⟩ := (linked_concat start init row).mp h
    have hfreeInit : CollisionFree hash (payloads payload stored start init) :=
      hfree.mono (by rw [payloads_append]; exact subset_append_left _ _)
    have hnodup : (init.map stored).Nodup := by
      refine ih hinit hfreeInit (fun r hr => hstart r (mem_append_left _ hr)) ?_
      intro xs x ys y zs hsplit
      exact hback xs x ys y (zs ++ [row]) (by simp [hsplit])
    rw [map_append, map_singleton]
    refine List.Nodup.concat ?_ hnodup |> (concat_eq_append ▸ ·)
    intro hmem
    obtain ⟨x, hx, heq⟩ := mem_map.mp hmem
    obtain ⟨xs, ys, rfl⟩ := append_of_mem hx
    have hxrow := ((linked_append start xs _).mp hinit).2.1
    have hpayloads : payload (tail stored start xs) x =
        payload (tail stored start (xs ++ x :: ys)) row := by
      refine hfree _ ?_ _ (mem_payloads start _ [] row)
        (hxrow.symm.trans (heq.trans hrow))
      rw [append_assoc, cons_append]
      exact mem_payloads start xs _ x
    have htail := hback xs x ys row [] rfl hpayloads
    have hempty := eq_nil_of_tail_append hnodup
      (fun r hr => hstart r (mem_append_left _ hr)) htail.symm
    cases hempty

/-- Two initial segments of a chain with one tail are one. -/
theorem eq_of_isPrefix_of_tail {rows xs ys : List ρ} (hnodup : (rows.map stored).Nodup)
    (hstart : ∀ row ∈ rows, stored row ≠ start) (hxs : xs <+: rows) (hys : ys <+: rows)
    (htail : tail stored start xs = tail stored start ys) : xs = ys := by
  have key : ∀ {as bs : List ρ}, as <+: bs → bs <+: rows →
      tail stored start bs = tail stored start as → as = bs := by
    intro as bs hab hb hab'
    obtain ⟨rest, rfl⟩ := hab
    have hrest := eq_nil_of_tail_append
      (hnodup.sublist (hb.sublist.map stored))
      (fun r hr => hstart r (hb.subset hr)) hab'
    rw [hrest, append_nil]
  rcases prefix_or_prefix_of_prefix hxs hys with hle | hle
  · exact key hle hys htail.symm
  · exact (key hle hxs htail).symm

/-- A chain made of rows of another, in which no digest is stored twice, is an initial
segment of it. -/
theorem isPrefix_of_linked (hpayload : ∀ p q row, payload p row = payload q row → p = q)
    {rows ys : List ρ} (h : Linked payload hash stored start rows)
    (hnodup : (rows.map stored).Nodup) (hstart : ∀ row ∈ rows, stored row ≠ start)
    (h' : Linked payload hash stored start ys) (hsub : ys ⊆ rows)
    (hfree : CollisionFree hash
      (payloads payload stored start rows ++ payloads payload stored start ys)) :
    ys <+: rows := by
  induction ys using reverseRecOn with
  | nil => exact nil_prefix
  | append_singleton zs row ih =>
    have hzs : zs <+: rows := by
      refine ih ((linked_append start zs _).mp h').1
        (fun r hr => hsub (mem_append_left _ hr)) (hfree.mono ?_)
      rw [payloads_append]
      intro t ht
      rcases mem_append.mp ht with hrows | hys
      · exact mem_append_left _ hrows
      · exact mem_append_right _ (mem_append_left _ hys)
    obtain ⟨before, after, rfl⟩ :=
      append_of_mem (hsub (mem_append_right _ mem_cons_self))
    have htail := tail_eq_of_common hpayload h h' hfree
    have hbefore : zs = before :=
      eq_of_isPrefix_of_tail hnodup hstart hzs (prefix_append _ _) htail
    subst hbefore
    exact ⟨after, by simp⟩

end StackOwl.Lib.HashChain
