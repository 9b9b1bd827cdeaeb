import Mathlib.Data.List.Basic

/-!
# Texts joined with a separator

What a text built of parts with a separating character between them determines: the
part in front of the first separator when it has none of its own, and the part after
the last.

## Main results

* `split_first`, `split_last` — such a text is read back from either end.
* `repr_inj` — decimal numerals are read back.
* `join_lengthPrefixed_inj` — fields written behind their lengths are read back,
  whatever joins them.
* `not_mem_of_mem_splitOn` — no piece of a split text holds the separator.
-/

namespace StackOwl.Lib

open List

variable {a : Char} {x x' z z' : List Char}

/-- Two texts that agree agree up to their first separator. -/
theorem split_first (hx : a ∉ x) (hx' : a ∉ x') (h : x ++ a :: z = x' ++ a :: z')
    : x = x' ∧ z = z' := by
  induction x generalizing x' with
  | nil =>
    cases x' with
    | nil => exact ⟨rfl, (cons.inj h).2⟩
    | cons c x' =>
      have hc : a = c := (cons.inj h).1
      exact absurd (hc ▸ mem_cons_self) hx'
  | cons b x ih =>
    cases x' with
    | nil =>
      have hb : b = a := (cons.inj h).1
      exact absurd (hb ▸ mem_cons_self) hx
    | cons c x' =>
      obtain ⟨rfl, htail⟩ := cons.inj h
      have hrest := ih (fun hmem => hx (mem_cons_of_mem _ hmem))
        (fun hmem => hx' (mem_cons_of_mem _ hmem)) htail
      exact ⟨congrArg (b :: ·) hrest.1, hrest.2⟩

/-- Two texts that agree agree from their last separator on. -/
theorem split_last (hz : a ∉ z) (hz' : a ∉ z') (h : x ++ a :: z = x' ++ a :: z')
    : x = x' ∧ z = z' := by
  have hreverse : z.reverse ++ a :: x.reverse = z'.reverse ++ a :: x'.reverse := by
    simpa using congrArg reverse h
  have hparts := split_first (by simpa using hz) (by simpa using hz') hreverse
  exact ⟨reverse_inj.mp hparts.2, reverse_inj.mp hparts.1⟩

theorem repr_inj {n m : Nat} (h : n.repr = m.repr) : n = m := by
  have hdigits : Nat.toDigits 10 n = Nat.toDigits 10 m := by
    simpa only [Nat.toList_repr] using congrArg String.toList h
  have hvalue := congrArg (fun digits => Nat.ofDigitChars 10 digits 0) hdigits
  simpa only [Nat.ofDigitChars_ten_toDigits] using hvalue

theorem isDigit_of_mem_repr {n : Nat} {c : Char} (h : c ∈ n.repr.toList) :
    c.isDigit = true := by
  rw [Nat.toList_repr] at h
  exact Nat.isDigit_of_mem_toDigits (by decide) (by decide) h

/-! ## Quoted texts -/

def escapeIn (quote c : Char) : List Char :=
  if c = quote ∨ c = '\\' then ['\\', c]
  else if c = '\n' then ['\\', 'n']
  else if c = '\r' then ['\\', 'r']
  else if c = '\t' then ['\\', 't']
  else if c.toNat < 32 ∨ c.toNat = 127 then
    ['\\', 'x', Nat.digitChar (c.toNat / 16), Nat.digitChar (c.toNat % 16)]
  else [c]

/-- A text between single quotes, or double ones where single ones alone are in it; its other
characters beyond ASCII are taken for printable. -/
def quoted (s : String) : String :=
  let single := Char.ofNat 39
  let double := Char.ofNat 34
  let quote := if single ∈ s.toList ∧ double ∉ s.toList then double else single
  String.ofList (quote :: s.toList.flatMap (escapeIn quote) ++ [quote])

/-! ## Fields behind their lengths -/

def lengthPrefixed (s : String) : String := s.length.repr ++ ":" ++ s

theorem toList_lengthPrefixed (s : String) :
    (lengthPrefixed s).toList = s.length.repr.toList ++ ':' :: s.toList := by
  simp [lengthPrefixed]

theorem colon_not_mem_repr (n : Nat) : ':' ∉ n.repr.toList := by
  intro hmem
  exact absurd (isDigit_of_mem_repr hmem) (by decide)

/-- A field behind its length is read back from the front of a text. -/
theorem lengthPrefixed_append_inj {s t : String} {y : List Char}
    (h : (lengthPrefixed s).toList ++ x = (lengthPrefixed t).toList ++ y) :
    s = t ∧ x = y := by
  simp only [toList_lengthPrefixed, append_assoc, cons_append] at h
  obtain ⟨hlengths, htexts⟩ :=
    split_first (colon_not_mem_repr _) (colon_not_mem_repr _) h
  have hlength : s.toList.length = t.toList.length := by
    rw [String.length_toList, String.length_toList]
    exact repr_inj (String.toList_inj.mp hlengths)
  obtain ⟨hs, hrest⟩ := append_inj htexts hlength
  exact ⟨String.toList_inj.mp hs, hrest⟩

/-- As many fields behind their lengths, joined by one text, are read back. -/
theorem join_lengthPrefixed_inj (sep : String) {xs ys : List String}
    (hlength : xs.length = ys.length)
    (h : sep.intercalate (xs.map lengthPrefixed) =
      sep.intercalate (ys.map lengthPrefixed)) : xs = ys := by
  replace h := congrArg String.toList h
  simp only [String.toList_intercalate, map_map] at h
  induction xs generalizing ys with
  | nil => exact (length_eq_zero_iff.mp hlength.symm).symm
  | cons x xs ih =>
    cases ys with
    | nil => cases hlength
    | cons y ys =>
      have htail : xs.length = ys.length := Nat.succ.inj hlength
      cases xs with
      | nil =>
        obtain rfl := length_eq_zero_iff.mp htail.symm
        have hlast := lengthPrefixed_append_inj (s := x) (t := y)
          (x := []) (y := []) (by simpa using h)
        rw [hlast.1]
      | cons x' xs =>
        cases ys with
        | nil => cases htail
        | cons y' ys =>
          simp only [map_cons, intercalate_cons_cons,
            Function.comp_apply, append_assoc] at h
          obtain ⟨rfl, hrest⟩ := lengthPrefixed_append_inj h
          have hfields := append_cancel_left hrest
          rw [ih htail hfields]

theorem not_mem_of_mem_splitOn {α : Type*} [BEq α] [LawfulBEq α] {a : α}
    {xs piece : List α} (h : piece ∈ xs.splitOn a) : a ∉ piece := by
  rw [List.splitOn] at h
  induction xs generalizing piece with
  | nil =>
    obtain rfl := mem_singleton.mp h
    exact not_mem_nil
  | cons x xs ih =>
    rw [splitOnP_cons_eq_if_modifyHead] at h
    split at h
    · rcases mem_cons.mp h with rfl | hrest
      · exact not_mem_nil
      · exact ih hrest
    · rename_i hx
      cases hpieces : splitOnP (fun b => b == a) xs with
      | nil => exact absurd hpieces (splitOnP_ne_nil _ _)
      | cons first rest =>
        rw [hpieces, modifyHead_cons] at h
        rcases mem_cons.mp h with rfl | hrest
        · have hfirst := ih (hpieces ▸ mem_cons_self)
          rintro hmem
          rcases mem_cons.mp hmem with rfl | htail
          · exact hx (beq_self_eq_true a)
          · exact hfirst htail
        · exact ih (hpieces ▸ mem_cons_of_mem _ hrest)

end StackOwl.Lib
